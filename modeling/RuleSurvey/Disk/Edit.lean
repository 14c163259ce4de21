import RuleSurvey.Disk.Lookup

namespace RuleSurvey

/-!
Changing a tree: making directories, writing files, placing links, removing entries and moving the
working directory. A change that the tree does not admit leaves it as it is.
-/

/-- Changes the entries of the directory that the names lead to. -/
def Entries.update (change : Entries → Entries) : List EntryName → Entries → Entries
  | [], entries => change entries
  | name :: rest, entries => entries.map fun entry =>
      match entry.2 with
      | .directory inner =>
          if entry.1 = name then (entry.1, .directory (Entries.update change rest inner)) else entry
      | _ => entry

/--
The working directory after the removal of what stands at a location: one that lies there or below
stays in use, cut off from the tree.
-/
def WorkingDirectory.without (current : WorkingDirectory) (location : List EntryName) :
    WorkingDirectory :=
  if location.isPrefixOf current.location then
    { location := location.dropLast
      removed := current.removed + (current.location.length - location.dropLast.length) }
  else current

namespace Disk

/-- The names along a trail, from the root on. -/
def location (trail : Trail) : List EntryName :=
  (trail.map (·.1)).reverse

/-- Changes the entries of the directory at a place; a removed directory stays empty. -/
def editAt (disk : Disk) (place : Place) (edit : Entries → Entries) : Disk :=
  match place.removed with
  | 0 => { disk with root := Entries.update edit (location place.trail) disk.root }
  | _ + 1 => disk

/-- Puts a node at a path, in a directory that has to exist, in place of any entry of that name. -/
def place (disk : Disk) (path : Path) (node : Node) : Disk :=
  match path.steps.getLast?.bind EntryName.ofBytes?, disk.find true path.parent with
  | some name, .ok directory => disk.editAt directory fun entries => Entries.set entries name node
  | _, _ => disk

/-- Makes the directories along a path that are not there. -/
def makeDirectories (disk : Disk) (path : Path) : Disk :=
  let start := Path.ofSteps path.isAbsolute []
  (path.steps.foldl (fun (state : Disk × Path) step =>
    let next := state.2.join ⟨step⟩
    (if state.1.has next then state.1 else state.1.place next (.directory []), next))
    (disk, start)).1

/-- Writes a file where a path leads, through at most `links` links at its end. -/
def writeThrough (disk : Disk) (content : List UInt8) : Nat → Path → Disk
  | links, path =>
      match disk.nodeOrLink path, links with
      | .ok (.directory _), _ => disk
      | .ok (.link _), 0 => disk
      | .ok (.link target), links + 1 => disk.writeThrough content links (path.parent.join target)
      | _, _ => disk.place path (.file content)

def writeFile (disk : Disk) (path : Path) (content : List UInt8) : Disk :=
  (disk.makeDirectories path.parent).writeThrough content linkLimit path

def makeLink (disk : Disk) (path target : Path) : Disk :=
  let disk := disk.makeDirectories path.parent
  match disk.nodeOrLink path with
  | .ok _ => disk
  | .error _ => disk.place path (.link target)

/-- Removes an entry with all that it holds. -/
def remove (disk : Disk) (path : Path) : Disk :=
  match disk.find false path with
  | .ok { trail := (name, node) :: directory, removed := 0 } =>
      { disk.editAt { trail := directory } fun entries => Entries.erase entries name with
        workingDirectory := disk.workingDirectory.without (location ((name, node) :: directory)) }
  | _ => disk

def changeDirectory (disk : Disk) (path : Path) : Disk :=
  match disk.find true path with
  | .ok place => { disk with workingDirectory := ⟨location place.trail, place.removed⟩ }
  | .error _ => disk

/-- Leaves the working directory for one below it that is made and removed at once. -/
def loseDirectory (disk : Disk) : Disk :=
  { disk with
    workingDirectory :=
      { disk.workingDirectory with removed := disk.workingDirectory.removed + 1 } }

end Disk

end RuleSurvey
