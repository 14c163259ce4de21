import RuleSurvey.Disk.Node

namespace RuleSurvey

/-!
Finding what a path names on a disk. Steps are taken through real directories, so a step to a
parent leaves the directory that a link led to, and links are followed a limited number of times.
A working directory that was removed can still be left through its parent.
-/

inductive OsError where
  | notFound
  | notADirectory
  | isADirectory
  | nameTooLong
  | tooManyLinks
  | nulInPath
deriving DecidableEq, Repr

def OsError.message : OsError → String
  | notFound => "No such file or directory (os error 2)"
  | notADirectory => "Not a directory (os error 20)"
  | isADirectory => "Is a directory (os error 21)"
  | nameTooLong => "File name too long (os error 36)"
  | tooManyLinks => "Too many levels of symbolic links (os error 40)"
  | nulInPath => "file name contained an unexpected NUL byte"

/-- The way from the root of the tree to a node, the last entry first. -/
abbrev Trail := Entries

/--
Where a look-up stands: at the end of a trail, or in a directory that was removed while it was in
use, `removed` levels below the last directory that is still part of the tree. A removed directory
is empty for good, and leads only to its parent.
-/
structure Place where
  trail : Trail
  removed : Nat := 0

def Place.parent (place : Place) : Place :=
  match place.removed with
  | 0 => { trail := place.trail.tail }
  | removed + 1 => { place with removed }

/-- The directory from which relative paths are read, by the names that lead to it. -/
structure WorkingDirectory where
  location : List EntryName
  /-- How many levels below that location have been removed. -/
  removed : Nat := 0
deriving DecidableEq

/-- A tree together with a working directory. -/
structure Disk where
  root : Entries
  workingDirectory : WorkingDirectory

namespace Disk

def linkLimit : Nat := 40

def pathLimit : Nat := 4096

/-- What stands at a place that is part of the tree. -/
def nodeOn (disk : Disk) : Trail → Node
  | [] => .directory disk.root
  | (_, node) :: _ => node

def nodeAt (disk : Disk) (place : Place) : Node :=
  match place.removed with
  | 0 => disk.nodeOn place.trail
  | _ + 1 => .directory []

/-- The entry of a directory that a step names; no name is looked at in a removed directory. -/
def entryFor (place : Place) (entries : Entries) (step : List UInt8) :
    Except OsError (EntryName × Node) :=
  if place.removed = 0 ∧ step.length > 255 then .error .nameTooLong
  else match Entries.get? entries step with
    | some entry => .ok entry
    | none => .error .notFound

/-- The steps that a look-up takes; a separator at the end asks for a directory, as `.` does. -/
def lookupSteps (path : Path) : List (List UInt8) :=
  let steps := (path.bytes.splitOn Path.separator).filter (· ≠ [])
  if path.bytes.getLast? = some Path.separator then steps ++ [Path.here] else steps

/-- Takes steps one by one; `jump` goes on at the path that a link holds. -/
def follow (disk : Disk) (followLast : Bool)
    (jump : Place → Path → List (List UInt8) → Except OsError Place) :
    Place → List (List UInt8) → Except OsError Place
  | place, [] => .ok place
  | place, step :: rest =>
      match disk.nodeAt place with
      | .directory entries =>
          if step = Path.here then follow disk followLast jump place rest
          else if step = Path.up then follow disk followLast jump place.parent rest
          else match entryFor place entries step with
            | .error reason => .error reason
            | .ok (name, .link target) =>
                if rest.isEmpty && !followLast then
                  .ok { trail := (name, .link target) :: place.trail }
                else jump place target rest
            | .ok (name, node) =>
                follow disk followLast jump { trail := (name, node) :: place.trail } rest
      | _ => .error .notADirectory

/-- Takes steps and follows at most `links` links. -/
def walk (disk : Disk) (followLast : Bool) : Nat → Place → List (List UInt8) → Except OsError Place
  | 0 => disk.follow followLast fun _ _ _ => .error .tooManyLinks
  | links + 1 => disk.follow followLast fun place target rest =>
      if target.bytes.isEmpty then .error .notFound
      else disk.walk followLast links (if target.isAbsolute then { trail := [] } else place)
        (lookupSteps target ++ rest)

/-- Where relative paths start. -/
def start (disk : Disk) : Except OsError Place := do
  let place ← disk.walk true 0 { trail := [] } (disk.workingDirectory.location.map (·.bytes))
  .ok { place with removed := disk.workingDirectory.removed }

/-- The place that a path names. -/
def find (disk : Disk) (followLast : Bool) (path : Path) : Except OsError Place :=
  if path.bytes.contains 0 then .error .nulInPath
  else if path.bytes.isEmpty then .error .notFound
  else if path.bytes.length ≥ pathLimit then .error .nameTooLong
  else if path.isAbsolute then disk.walk followLast linkLimit { trail := [] } (lookupSteps path)
  else do
    let start ← disk.start
    disk.walk followLast linkLimit start (lookupSteps path)

/-- The node that a path names; a link at its end is followed. -/
def node (disk : Disk) (path : Path) : Except OsError Node :=
  (disk.find true path).map disk.nodeAt

/-- The node that a path names; a link at its end is the answer itself. -/
def nodeOrLink (disk : Disk) (path : Path) : Except OsError Node :=
  (disk.find false path).map disk.nodeAt

def has (disk : Disk) (path : Path) : Bool :=
  (disk.node path).isOk

def isFile (disk : Disk) (path : Path) : Bool :=
  match disk.node path with
  | .ok (.file _) => true
  | _ => false

def isDirectory (disk : Disk) (path : Path) : Bool :=
  match disk.node path with
  | .ok (.directory _) => true
  | _ => false

def read (disk : Disk) (path : Path) : Except OsError (List UInt8) :=
  match disk.node path with
  | .ok (.file content) => .ok content
  | .ok _ => .error .isADirectory
  | .error reason => .error reason

/-- The working directory as a path; one that was removed has none. -/
def currentDirectory (disk : Disk) : Except OsError Path :=
  match disk.workingDirectory.removed with
  | 0 => .ok (Path.ofSteps true (disk.workingDirectory.location.map (·.bytes)))
  | _ + 1 => .error .notFound

end Disk

end RuleSurvey
