import RuleSurvey.Command.Run
import RuleSurvey.Disk.Edit

/-!
The command itself. The part of the real disk that a survey can see is copied into a tree, and the
run is a function of that tree. All records of a run carry the time of its start, and a pattern for
messages is searched for as it stands.
-/

namespace RuleSurvey.Command

/-- Nodes outside of the surveyed directory to which links and includes lead. -/
abbrev Snapshot := StateT (List (Path × Node)) IO

/-- What a path names on the real disk, as far as a survey asks; of a directory, that it is one. -/
def outsideNode? (path : String) : IO (Option Node) := do
  try
    let real ← IO.FS.realPath path
    match (← real.metadata).type with
    | .dir => return some (.directory [])
    | .file => return some (.file (← IO.FS.readBinFile real).toList)
    | _ => return none
  catch _ => return none

/-- The entries of a real directory down to a depth; only the files that are wanted are read. -/
def entriesOf (wanted : Path → Bool) : Nat → String → Snapshot Entries
  | 0, _ => pure []
  | depth + 1, path => do
      let directory ← IO.FS.realPath path
      let listed ← try directory.readDir catch _ => pure #[]
      let mut entries : Entries := []
      for entry in listed.qsort (fun first second => second.fileName < first.fileName) do
        let inner := ((Path.ofString path).join (.ofString entry.fileName)).display
        if let some name := EntryName.ofBytes? (Utf8.encode entry.fileName.toList) then
          match (← entry.path.symlinkMetadata).type with
          | .dir => entries := (name, .directory (← entriesOf wanted depth inner)) :: entries
          | .file =>
              let content ← if wanted (.ofString inner) then
                  try pure (← IO.FS.readBinFile entry.path).toList catch _ => pure []
                else pure []
              entries := (name, .file content) :: entries
          | .symlink =>
              let target ← try
                  pure (Path.ofString (← IO.FS.realPath entry.path).toString)
                catch _ => pure ⟨[]⟩
              if let some node ← outsideNode? inner then
                modify ((target, node) :: ·)
              entries := (name, .link target) :: entries
          | .other => pure ()
      return entries

/-- Directories within each other along a path, the innermost with the given entries. -/
def nested (path : Path) (entries : Entries) : Entries :=
  (path.steps.filterMap EntryName.ofBytes?).foldr (fun name inner => [(name, .directory inner)]) entries

/-- Adds a node unless something is already there. -/
def addOutside (disk : Disk) (outside : Path × Node) : Disk :=
  if disk.has outside.1 then disk
  else match outside.2 with
    | .file content => disk.writeFile outside.1 content
    | _ => disk.makeDirectories outside.1

/-- The working directory on an otherwise empty disk. -/
def startingDisk : IO Disk := do
  try
    let current := Path.ofString (← IO.currentDir).toString
    let location := current.steps.filterMap EntryName.ofBytes?
    return { root := nested current [], workingDirectory := { location } }
  catch _ => return { root := [], workingDirectory := { location := [], removed := 1 } }

/-- The part of the real disk that a survey of a path can see. -/
def surveyedDisk (disk : Disk) (options : SurveyOptions) (path : Path) : IO Disk := do
  let some target ← outsideNode? path.display | return disk
  let isFile := match target with
    | .file _ => true
    | _ => false
  let root := if isFile then path.parent else path
  let base := [options.includesFile, options.loadFile, options.dispatchFile].map fun name =>
    root.join (.ofString name)
  let wanted (file : Path) : Bool := file = path || base.contains file || options.scan.accepts file
  let depth := if isFile then 1 else max 1 options.scan.maxDepth
  let (entries, outside) ← (entriesOf wanted depth root.display).run []
  let disk := outside.foldl addOutside { disk with root := nested root entries }
  let mut disk := disk
  for entry in (disk.includes (root.join (.ofString options.includesFile))).value do
    let (candidate, _) := Disk.includeCandidate root (.ofString entry.path)
    if let some node ← outsideNode? candidate.display then
      disk := addOutside disk (candidate, node)
  return disk

def diskFor (given : List Argument) : IO Disk := do
  let disk ← startingDisk
  let .ok invocation := Invocation.parse given | return disk
  let .ok path := disk.absolute invocation.path | return disk
  surveyedDisk disk invocation.options path

/-- When this process was entered into the table of processes. -/
def startingTime : IO Timestamp := do
  try
    let entry ← IO.FS.realPath "/proc/self"
    return ⟨(← entry.metadata).modified.sec.toNat⟩
  catch _ => return ⟨0⟩

def settingsFor (text : String) : LogSettings :=
  .ofText (fun source => .ok fun message => Text.occursIn source.toList message.toList) text

def isHungUp : IO.Error → Bool
  | .resourceVanished .. => true
  | _ => false

end RuleSurvey.Command

open RuleSurvey.Command in
def main (texts : List String) : IO UInt32 := do
  let given := texts.map Argument.ofString
  let disk ← diskFor given
  let time ← startingTime
  let environment := (← IO.getEnv "RUST_LOG").map settingsFor
  let outcomeFor (sink : Sink) : Outcome := run disk (fun _ => time) environment sink given
  let outcome := outcomeFor .open
  let stdout ← IO.getStdout
  let outcome ← try
      stdout.putStr outcome.stdout
      stdout.flush
      pure outcome
    catch failure => pure (outcomeFor (if isHungUp failure then .closed else .full))
  IO.eprint outcome.stderr
  return outcome.code.toUInt32
