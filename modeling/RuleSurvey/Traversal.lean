import RuleSurvey.Dispatch
import RuleSurvey.Manifest
import RuleSurvey.Matching
import RuleSurvey.Resolution

namespace RuleSurvey

/-!
How the rule files of a root are reached. Dispatch rules lead to files if there are any; otherwise
includes do, and where neither exists every rule file stands for itself.
-/

inductive Traversal.Source where
  | dispatch
  | includes
  | standalone
  | empty
deriving DecidableEq, Repr

def Traversal.Source.label : Traversal.Source → String
  | dispatch => "Dispatch"
  | includes => "Includes"
  | standalone => "Standalone"
  | empty => "Empty"

/-- One reference: who makes it, by which name, and the files it reaches. -/
structure Reference where
  origin : String
  function : Option String
  targets : List String
deriving DecidableEq, Repr

/-- A dispatch rule with its place in the file, counted from one. -/
structure NumberedRule where
  index : Nat
  condition : String
  functions : List String
deriving DecidableEq, Repr

/-- Names that are used with no rule file behind them, and includes that lead nowhere. -/
structure Missing where
  includes : List String
  dispatched : List String
  loaded : List String
  unresolvedPaths : List String
  /-- Those of the unresolved paths that name lookup tables. -/
  unresolvedLookups : List String
deriving DecidableEq, Repr

def dispatchOrigin (index : Nat) : String :=
  "dispatch:" ++ toString index

def includesOrigin : String := "includes"

def standaloneOrigin : String := "standalone"

/-- A lookup table is told by the extension `pl` or `pm`, in any mix of cases. -/
def isLookupFile (path : String) : Bool :=
  match (Path.ofString path).extension?.bind Utf8.decode? with
  | some suffix =>
      let lowered := suffix.map Char.toLower
      lowered == "pl".toList || lowered == "pm".toList
  | none => false

/-- What a traversal is made of. -/
structure Traversal where
  includes : List Include
  rules : List DispatchRule
  ruleFiles : List String
  table : MatchTable

namespace Traversal

def source (traversal : Traversal) : Traversal.Source :=
  if !traversal.rules.isEmpty then .dispatch
  else if !traversal.includes.isEmpty then .includes
  else if !traversal.ruleFiles.isEmpty then .standalone
  else .empty

/-- The edges of one dispatch rule, a call each. -/
def ruleEdges (table : MatchTable) (index : Nat) (rule : DispatchRule) : List Reference :=
  rule.functions.map fun name =>
    { origin := dispatchOrigin index, function := some name, targets := table.files name }

def edges (traversal : Traversal) : List Reference :=
  match traversal.source with
  | .dispatch =>
      (traversal.rules.zipIdx 1).flatMap fun (rule, index) => ruleEdges traversal.table index rule
  | .includes => traversal.includes.map fun entry =>
      { origin := includesOrigin, function := some entry.name
        targets := traversal.table.files entry.name }
  | .standalone => traversal.ruleFiles.map fun path =>
      { origin := standaloneOrigin, function := none, targets := [path] }
  | .empty => []

def order (traversal : Traversal) : List NumberedRule :=
  (traversal.rules.zipIdx 1).map fun (rule, index) =>
    { index, condition := rule.condition, functions := rule.functions }

/-- The names that some rule calls, in ascending order. -/
def dispatched (traversal : Traversal) : List String :=
  sortBy id ((traversal.rules.flatMap (·.functions)).filter (· ≠ ""))

def missing (traversal : Traversal) (catalog : Catalog) (loadCalls : List String)
    (resolutions : List ResolvedInclude) : Missing :=
  let unresolved := ((resolutions.filter (!·.found)).map (·.declaredPath)).eraseDups
  { includes :=
      (traversal.includes.map (·.name)).eraseDups.filter (!traversal.table.contains ·)
    dispatched := traversal.dispatched.filter (!traversal.table.contains ·)
    loaded := loadCalls.eraseDups.filter fun name =>
      !traversal.table.contains name && (catalog.candidates name).isEmpty
    unresolvedPaths := unresolved
    unresolvedLookups := unresolved.filter isLookupFile }

end Traversal

end RuleSurvey
