import RuleSurvey.Disk.Lookup

namespace RuleSurvey

/-!
What a survey is asked to look at: a rule root, or one file whose directory becomes the root.
-/

/--
Why a survey cannot be made: the disk refused an access that is needed, or there is no directory to
look at.
-/
inductive SurveyError where
  | io (reason : OsError)
  | invalidRoot (root : String)
deriving DecidableEq, Repr

def SurveyError.message : SurveyError → String
  | io reason => "IO error: " ++ reason.message
  | invalidRoot root => "Directory not found: " ++ root

structure Target where
  root : Path
  singleFile : Option Path
deriving DecidableEq, Repr

/-- The normal form of a path read from the working directory. -/
def Disk.absolute (disk : Disk) (path : Path) : Except SurveyError Path :=
  if path.isAbsolute then .ok path.normalize
  else match disk.currentDirectory with
    | .ok directory => .ok (directory.join path).normalize
    | .error reason => .error (.io reason)

def Target.ofPath (disk : Disk) (path : Path) : Except SurveyError Target := do
  let absolute ← disk.absolute path
  let target : Target :=
    if disk.isFile absolute then { root := absolute.parent, singleFile := some absolute }
    else { root := absolute, singleFile := none }
  if disk.isDirectory target.root then .ok target
  else .error (.invalidRoot target.root.display)

end RuleSurvey
