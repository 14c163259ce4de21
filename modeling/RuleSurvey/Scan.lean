import RuleSurvey.Log
import RuleSurvey.Options
import RuleSurvey.Sorted
import RuleSurvey.Target
import RuleSurvey.Text.Lowercase

namespace RuleSurvey

/-!
Finding the rule files below a root. A tree is visited depth first with the entries of a directory in
order of their names, and links are not followed on the way, the root itself apart. Rule files are
told by their extension, in any mix of cases.

As a tree has neither permissions nor special files, a walk is stopped only by a directory whose path
is too long, and what is neither a directory nor a link is a regular file.
-/

/-- What a walk comes upon, with the path by which it does. -/
inductive Visit where
  | entry (path : Path) (node : Node)
  /-- A root that is not there, or a directory that cannot be listed. -/
  | failure (path : Path) (reason : OsError)

def Visit.path : Visit → Path
  | entry path _ => path
  | failure path _ => path

def Path.child (path : Path) (name : EntryName) : Path :=
  path.join ⟨name.bytes⟩

mutual

/-- What lies at most `depth` levels below a node; a directory is listed by its path. -/
def Node.visitsBelow (path : Path) : Nat → Node → List Visit
  | depth + 1, .directory entries =>
      if path.bytes.length ≥ Disk.pathLimit then [.failure path .nameTooLong]
      else (sortBy (fun entry => entry.1.bytes) (entriesBelow path depth entries)).flatMap (·.2)
  | _, _ => []

/-- Every entry of a directory, each followed by what lies below it. -/
def entriesBelow (path : Path) (depth : Nat) :
    List (EntryName × Node) → List (EntryName × List Visit)
  | [] => []
  | (name, node) :: rest =>
      (name, .entry (path.child name) node :: node.visitsBelow (path.child name) depth) ::
        entriesBelow path depth rest

end

/-- The root and what lies below it; a root that is a link is entered. -/
def Disk.visits (disk : Disk) (root : Path) (depth : Nat) : List Visit :=
  match disk.nodeOrLink root, disk.node root with
  | .error reason, _ => [.failure root reason]
  | .ok (.link _), .error reason => [.failure root reason]
  | .ok (.link target), .ok inner => .entry root (.link target) :: inner.visitsBelow root depth
  | .ok top, _ => .entry root top :: top.visitsBelow root depth

/-- Whether the last name on a path is text with the extension asked for. -/
def ScanOptions.accepts (options : ScanOptions) (path : Path) : Bool :=
  match path.fileName?.bind Utf8.decode? with
  | some name =>
      ('.' :: Text.lowercase options.extension.toList).isSuffixOf (Text.lowercase name)
  | none => false

/-- Whether a visit meets a regular file or a link that leads to one. -/
def Disk.meetsFile (disk : Disk) : Visit → Bool
  | .entry _ (.file _) => true
  | .entry path (.link _) => disk.isFile path
  | _ => false

def Disk.isRuleFile (disk : Disk) (options : ScanOptions) (visit : Visit) : Bool :=
  disk.meetsFile visit && options.accepts visit.path

/-- A failure is reported; nothing is said about an entry. -/
def Visit.report : Visit → Logged Unit
  | entry _ _ => pure ()
  | failure path reason =>
      record .warn .scan ("Failed to read entry: IO error for operation on " ++ path.display ++
        ": " ++ reason.message)

/-- The rule files among visits. The walk stops at the first one for which there is no room. -/
def Disk.collect (disk : Disk) (options : ScanOptions) (root : Path) :
    Nat → List Visit → Logged (List Path)
  | _, [] => pure []
  | room, visit :: rest =>
      if disk.isRuleFile options visit then
        match room with
        | 0 => do
            record .warn .scan ("Stopping scan of " ++ root.display ++ " at " ++
              toString options.maxFiles ++ " rule files")
            pure []
        | room + 1 => do
            let files ← disk.collect options root room rest
            pure (visit.path :: files)
      else do
        visit.report
        disk.collect options root room rest

theorem Disk.value_collect (disk : Disk) (options : ScanOptions) (root : Path) (room : Nat)
    (visits : List Visit) :
    (disk.collect options root room visits).value =
      ((visits.filter (disk.isRuleFile options)).map (·.path)).take room := by
  induction visits generalizing room with
  | nil => simp [collect]
  | cons visit rest ih =>
      cases accepted : disk.isRuleFile options visit with
      | false => simp [collect, accepted, ih]
      | true => cases room <;> simp [collect, accepted, ih]

/-- The rule files at and below a root, as many as the options allow. -/
def Disk.scan (disk : Disk) (options : ScanOptions) (root : Path) : Logged (List Path) := do
  let files ← disk.collect options root options.maxFiles (disk.visits root options.maxDepth)
  record .info .scan ("Found " ++ toString files.length ++ " rule files under " ++ root.display)
  pure files

/-- The rule files of a target: its one file, or all below its root. -/
def Disk.ruleFiles (disk : Disk) (options : ScanOptions) (target : Target) : Logged (List Path) :=
  match target.singleFile with
  | some file => pure [file]
  | none => disk.scan options target.root

end RuleSurvey
