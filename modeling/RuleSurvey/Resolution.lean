import RuleSurvey.Disk.Lookup
import RuleSurvey.Log

namespace RuleSurvey

/-!
Where the path of an include leads. A relative one is read from the rule root; the answer is given
only for what exists.
-/

inductive ResolutionKind where
  /-- No path was given. -/
  | empty
  | absolute
  | relative
  /-- Nothing exists there. -/
  | unresolved
deriving DecidableEq, Repr

def ResolutionKind.label : ResolutionKind → String
  | empty => "empty"
  | absolute => "absolute"
  | relative => "relative"
  | unresolved => "unresolved"

def ResolutionKind.ofLabel? : String → Option ResolutionKind
  | "empty" => some .empty
  | "absolute" => some .absolute
  | "relative" => some .relative
  | "unresolved" => some .unresolved
  | _ => none

structure PathResolution where
  resolvedPath : Option String
  found : Bool
  kind : ResolutionKind
deriving DecidableEq, Repr

structure ResolvedInclude where
  name : String
  declaredPath : String
  resolvedPath : Option String
  found : Bool
  kind : ResolutionKind
deriving DecidableEq, Repr

namespace Disk

/-- The path whose existence decides, and how it came about. -/
def includeCandidate (root : Path) (declared : Path) : Path × ResolutionKind :=
  if declared.isAbsolute then (declared, .absolute) else (root.join declared, .relative)

def resolvePath (disk : Disk) (root : Path) (declared : String) : PathResolution :=
  if declared.isEmpty then { resolvedPath := none, found := false, kind := .empty }
  else
    let (candidate, kind) := includeCandidate root (.ofString declared)
    if disk.has candidate then
      { resolvedPath := some candidate.normalizedDisplay, found := true, kind }
    else { resolvedPath := none, found := false, kind := .unresolved }

def resolveInclude (disk : Disk) (root : Path) (name declared : String) :
    Logged ResolvedInclude := do
  let resolution := disk.resolvePath root declared
  record .debug .resolution
    ("Include " ++ name ++ " -> " ++ declared ++ ": " ++ resolution.kind.label ++ " (" ++
      resolution.resolvedPath.getD "-" ++ ")")
  pure {
    name
    declaredPath := declared
    resolvedPath := resolution.resolvedPath
    found := resolution.found
    kind := resolution.kind }

end Disk

end RuleSurvey
