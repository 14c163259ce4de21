import RuleSurvey.Json.Decode
import RuleSurvey.Reachability

namespace RuleSurvey

/-!
The result of a survey, and its form as JSON.
-/

/-- Where the base files are; those that do not exist have no place. -/
structure BasePlaces where
  includes : Option String
  load : Option String
  rules : Option String
deriving DecidableEq, Repr

structure Report where
  root : String
  base : BasePlaces
  includes : List Include
  resolutions : List ResolvedInclude
  loadCalls : List String
  rules : List DispatchRule
  order : List NumberedRule
  edges : List Reference
  ruleFiles : List String
  files : List RuleFile
  matched : MatchTable
  missing : Missing
  unreached : List String
deriving DecidableEq

/-!
Reports and their parts as JSON. Every field is written, an absent text as null; when a report is
read, a field for an optional text may be left out.
-/

def Include.toJson (entry : Include) : Json :=
  .object [("name", .text entry.name), ("path", .text entry.path)]

def Include.ofJson? (json : Json) : Option Include := do
  let members ← json.members? ["name", "path"]
  some {
    name := ← members.required? Json.asText? "name"
    path := ← members.required? Json.asText? "path" }

def DispatchRule.toJson (rule : DispatchRule) : Json :=
  .object [("condition", .text rule.condition), ("functions", .texts rule.functions)]

def DispatchRule.ofJson? (json : Json) : Option DispatchRule := do
  let members ← json.members? ["condition", "functions"]
  some {
    condition := ← members.required? Json.asText? "condition"
    functions := ← members.required? Json.asTexts? "functions" }

def RuleFile.toJson (file : RuleFile) : Json :=
  .object [
    ("path", .text file.path),
    ("declared_name", .optionalText file.declaredName),
    ("rulesfile_label", .optionalText file.label)]

def RuleFile.ofJson? (json : Json) : Option RuleFile := do
  let members ← json.members? ["path", "declared_name", "rulesfile_label"]
  some {
    path := ← members.required? Json.asText? "path"
    declaredName := ← members.optionalText? "declared_name"
    label := ← members.optionalText? "rulesfile_label" }

def ResolutionKind.toJson (kind : ResolutionKind) : Json :=
  .text kind.label

/-- A kind is its label, or an object whose one field has that name and holds null. -/
def ResolutionKind.ofJson? : Json → Option ResolutionKind
  | .text label => ofLabel? label
  | .object [(label, .null)] => ofLabel? label
  | _ => none

def ResolvedInclude.toJson (resolution : ResolvedInclude) : Json :=
  .object [
    ("name", .text resolution.name),
    ("original_path", .text resolution.declaredPath),
    ("resolved_path", .optionalText resolution.resolvedPath),
    ("exists", .bool resolution.found),
    ("match_kind", resolution.kind.toJson)]

def ResolvedInclude.ofJson? (json : Json) : Option ResolvedInclude := do
  let members ← json.members? ["name", "original_path", "resolved_path", "exists", "match_kind"]
  some {
    name := ← members.required? Json.asText? "name"
    declaredPath := ← members.required? Json.asText? "original_path"
    resolvedPath := ← members.optionalText? "resolved_path"
    found := ← members.required? Json.asBool? "exists"
    kind := ← members.required? ResolutionKind.ofJson? "match_kind" }

def NumberedRule.toJson (step : NumberedRule) : Json :=
  .object [
    ("index", .natural step.index),
    ("condition", .text step.condition),
    ("functions", .texts step.functions)]

def NumberedRule.ofJson? (json : Json) : Option NumberedRule := do
  let members ← json.members? ["index", "condition", "functions"]
  some {
    index := ← members.required? Json.asCount? "index"
    condition := ← members.required? Json.asText? "condition"
    functions := ← members.required? Json.asTexts? "functions" }

def Reference.toJson (edge : Reference) : Json :=
  .object [
    ("from", .text edge.origin),
    ("function", .optionalText edge.function),
    ("to_files", .texts edge.targets)]

def Reference.ofJson? (json : Json) : Option Reference := do
  let members ← json.members? ["from", "function", "to_files"]
  some {
    origin := ← members.required? Json.asText? "from"
    function := ← members.optionalText? "function"
    targets := ← members.required? Json.asTexts? "to_files" }

def MatchTable.toJson (table : MatchTable) : Json :=
  .object (table.entries.map fun entry => (entry.1, .texts entry.2))

def MatchTable.ofJson? : Json → Option MatchTable
  | .object fields => do
      let entries ← fields.mapM fun entry => do some (entry.1, ← entry.2.asTexts?)
      some (ofList entries)
  | _ => none

def Missing.toJson (missing : Missing) : Json :=
  .object [
    ("includes_without_definitions", .texts missing.includes),
    ("dispatch_without_definitions", .texts missing.dispatched),
    ("load_without_definitions", .texts missing.loaded),
    ("unresolved_include_paths", .texts missing.unresolvedPaths),
    ("unresolved_lookup_files", .texts missing.unresolvedLookups)]

def Missing.ofJson? (json : Json) : Option Missing := do
  let members ← json.members? [
    "includes_without_definitions", "dispatch_without_definitions", "load_without_definitions",
    "unresolved_include_paths", "unresolved_lookup_files"]
  some {
    includes := ← members.required? Json.asTexts? "includes_without_definitions"
    dispatched := ← members.required? Json.asTexts? "dispatch_without_definitions"
    loaded := ← members.required? Json.asTexts? "load_without_definitions"
    unresolvedPaths := ← members.required? Json.asTexts? "unresolved_include_paths"
    unresolvedLookups := ← members.required? Json.asTexts? "unresolved_lookup_files" }

def BasePlaces.toJson (base : BasePlaces) : Json :=
  .object [
    ("includes", .optionalText base.includes),
    ("load", .optionalText base.load),
    ("rules", .optionalText base.rules)]

def BasePlaces.ofJson? (json : Json) : Option BasePlaces := do
  let members ← json.members? ["includes", "load", "rules"]
  some {
    includes := ← members.optionalText? "includes"
    load := ← members.optionalText? "load"
    rules := ← members.optionalText? "rules" }

namespace Report

def toJson (report : Report) : Json :=
  .object [
    ("root", .text report.root),
    ("base", report.base.toJson),
    ("includes", .list (report.includes.map (·.toJson))),
    ("include_resolutions", .list (report.resolutions.map (·.toJson))),
    ("base_load_calls", .texts report.loadCalls),
    ("dispatch_rules", .list (report.rules.map (·.toJson))),
    ("traversal_order", .list (report.order.map (·.toJson))),
    ("traversal_graph", .list (report.edges.map (·.toJson))),
    ("rule_files", .texts report.ruleFiles),
    ("rule_metadata", .list (report.files.map (·.toJson))),
    ("include_matches", report.matched.toJson),
    ("missing", report.missing.toJson),
    ("unreached_rule_files", .texts report.unreached)]

def ofJson? (json : Json) : Option Report := do
  let members ← json.members? [
    "root", "base", "includes", "include_resolutions", "base_load_calls", "dispatch_rules",
    "traversal_order", "traversal_graph", "rule_files", "rule_metadata", "include_matches",
    "missing", "unreached_rule_files"]
  some {
    root := ← members.required? Json.asText? "root"
    base := ← members.required? BasePlaces.ofJson? "base"
    includes := ← members.required? (Json.asList? Include.ofJson?) "includes"
    resolutions := ← members.required? (Json.asList? ResolvedInclude.ofJson?) "include_resolutions"
    loadCalls := ← members.required? Json.asTexts? "base_load_calls"
    rules := ← members.required? (Json.asList? DispatchRule.ofJson?) "dispatch_rules"
    order := ← members.required? (Json.asList? NumberedRule.ofJson?) "traversal_order"
    edges := ← members.required? (Json.asList? Reference.ofJson?) "traversal_graph"
    ruleFiles := ← members.required? Json.asTexts? "rule_files"
    files := ← members.required? (Json.asList? RuleFile.ofJson?) "rule_metadata"
    matched := ← members.required? MatchTable.ofJson? "include_matches"
    missing := ← members.required? Missing.ofJson? "missing"
    unreached := ← members.required? Json.asTexts? "unreached_rule_files" }

end Report

end RuleSurvey
