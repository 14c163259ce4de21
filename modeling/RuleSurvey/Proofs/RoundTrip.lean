import RuleSurvey.Options
import RuleSurvey.Proofs.JsonText
import RuleSurvey.Proofs.Matching
import RuleSurvey.Report

namespace RuleSurvey

/-!
Reports and options survive being written as JSON. Each part of a report stands for itself in the
JSON value of the whole, and the value is read back from its text. Options may lose fields on the way;
those come back as their defaults and the others as they were.
-/

namespace Json

variable {α : Type} {read? : Json → Option α} {json : Json} {value : α}

/-- A JSON value that can be written, and that is read as a given value. -/
structure Represents (read? : Json → Option α) (json : Json) (value : α) : Prop where
  regular : json.Regular
  read : read? json = some value

theorem Represents.parse?_of_mem (represents : Represents read? json value) :
    ∀ written ∈ [json.compact, json.indented], (parse? written).bind read? = some value := by
  have compact := parse?_compact represents.regular
  have indented := parse?_indented represents.regular
  simp [compact, indented, represents.read]

@[simp] theorem regular_object_iff {fields : List (String × Json)} :
    (Json.object fields).Regular ↔ ∀ field ∈ fields, field.2.Regular :=
  ⟨fun regular => by cases regular; assumption, .object⟩

theorem represents_text (value : String) : Represents asText? (.text value) value :=
  ⟨.scalar trivial, rfl⟩

theorem represents_bool (value : Bool) : Represents asBool? (.bool value) value :=
  ⟨.scalar trivial, rfl⟩

theorem represents_natural {value : Nat} (word : value < UInt64.size) :
    Represents asCount? (.natural value) value :=
  ⟨.scalar trivial, if_pos word⟩

theorem represents_optionalText (value : Option String) :
    Represents asOptionalText? (optionalText value) value := by
  cases value <;> exact ⟨.scalar trivial, rfl⟩

theorem mapM_map_eq_some {β : Type} {write : α → β} {read? : β → Option α} {items : List α}
    (back : ∀ item ∈ items, read? (write item) = some item) :
    (items.map write).mapM read? = some items := by
  induction items with
  | nil => rfl
  | cons item rest ih =>
      obtain ⟨head, others⟩ := List.forall_mem_cons.mp back
      simp [List.mapM_cons, head, ih others]

theorem represents_list {write : α → Json} {items : List α}
    (each : ∀ item ∈ items, Represents read? (write item) item) :
    Represents (asList? read?) (.list (items.map write)) items where
  regular := .list (List.forall_mem_map.mpr fun item member => (each item member).regular)
  read := mapM_map_eq_some fun item member => (each item member).read

theorem represents_texts (values : List String) : Represents asTexts? (texts values) values :=
  represents_list fun value _ => represents_text value

/-- A record is read field by field. -/
theorem bind_of_eq_some {β : Type} {first : Option α} {next : α → Option β} {record : β}
    (found : first = some value) (rest : next value = some record) : (first >>= next) = some record := by
  rw [found]
  exact rest

namespace Members

variable {fields : List (String × Json)} {name : String}

theorem required?_of_field? (represents : Represents read? json value)
    (found : field? fields name = some json) : required? (field? fields) read? name = some value := by
  rw [required?, found, Option.bind_some, represents.read]

theorem optionalText?_of_field? {value : Option String} (represents : Represents asOptionalText? json value)
    (found : field? fields name = some json) : optionalText? (field? fields) name = some value := by
  simp [optionalText?, found, represents.read]

end Members

end Json

section Records

open Json Members

theorem Include.represents (entry : Include) : Represents ofJson? entry.toJson entry := by
  have name := represents_text entry.name
  have path := represents_text entry.path
  constructor
  · simp [toJson, name.regular, path.regular]
  · apply bind_of_eq_some rfl
    apply bind_of_eq_some (required?_of_field? name rfl)
    apply bind_of_eq_some (required?_of_field? path rfl)
    rfl

theorem DispatchRule.represents (rule : DispatchRule) : Represents ofJson? rule.toJson rule := by
  have condition := represents_text rule.condition
  have functions := represents_texts rule.functions
  constructor
  · simp [toJson, condition.regular, functions.regular]
  · apply bind_of_eq_some rfl
    apply bind_of_eq_some (required?_of_field? condition rfl)
    apply bind_of_eq_some (required?_of_field? functions rfl)
    rfl

theorem RuleFile.represents (file : RuleFile) : Represents ofJson? file.toJson file := by
  have path := represents_text file.path
  have declaredName := represents_optionalText file.declaredName
  have label := represents_optionalText file.label
  constructor
  · simp [toJson, path.regular, declaredName.regular, label.regular]
  · apply bind_of_eq_some rfl
    apply bind_of_eq_some (required?_of_field? path rfl)
    apply bind_of_eq_some (optionalText?_of_field? declaredName rfl)
    apply bind_of_eq_some (optionalText?_of_field? label rfl)
    rfl

theorem ResolutionKind.represents (kind : ResolutionKind) : Represents ofJson? kind.toJson kind := by
  cases kind <;> exact ⟨.scalar trivial, rfl⟩

theorem ResolvedInclude.represents (resolution : ResolvedInclude) :
    Represents ofJson? resolution.toJson resolution := by
  have name := represents_text resolution.name
  have declaredPath := represents_text resolution.declaredPath
  have resolvedPath := represents_optionalText resolution.resolvedPath
  have found := represents_bool resolution.found
  have kind := resolution.kind.represents
  constructor
  · simp [toJson, name.regular, declaredPath.regular, resolvedPath.regular, found.regular, kind.regular]
  · apply bind_of_eq_some rfl
    apply bind_of_eq_some (required?_of_field? name rfl)
    apply bind_of_eq_some (required?_of_field? declaredPath rfl)
    apply bind_of_eq_some (optionalText?_of_field? resolvedPath rfl)
    apply bind_of_eq_some (required?_of_field? found rfl)
    apply bind_of_eq_some (required?_of_field? kind rfl)
    rfl

theorem NumberedRule.represents {step : NumberedRule} (word : step.index < UInt64.size) :
    Represents ofJson? step.toJson step := by
  have index := represents_natural word
  have condition := represents_text step.condition
  have functions := represents_texts step.functions
  constructor
  · simp [toJson, index.regular, condition.regular, functions.regular]
  · apply bind_of_eq_some rfl
    apply bind_of_eq_some (required?_of_field? index rfl)
    apply bind_of_eq_some (required?_of_field? condition rfl)
    apply bind_of_eq_some (required?_of_field? functions rfl)
    rfl

theorem Reference.represents (edge : Reference) : Represents ofJson? edge.toJson edge := by
  have origin := represents_text edge.origin
  have function := represents_optionalText edge.function
  have targets := represents_texts edge.targets
  constructor
  · simp [toJson, origin.regular, function.regular, targets.regular]
  · apply bind_of_eq_some rfl
    apply bind_of_eq_some (required?_of_field? origin rfl)
    apply bind_of_eq_some (optionalText?_of_field? function rfl)
    apply bind_of_eq_some (required?_of_field? targets rfl)
    rfl

theorem MatchTable.represents (table : MatchTable) : Represents ofJson? table.toJson table := by
  have entries : (table.entries.map fun entry => (entry.1, texts entry.2)).mapM
      (fun entry => entry.2.asTexts?.bind fun files => some (entry.1, files)) =
        some table.entries := by
    apply mapM_map_eq_some
    intro entry _
    simp [(represents_texts entry.2).read]
  constructor
  · refine .object (List.forall_mem_map.mpr ?_)
    exact fun entry _ => (represents_texts entry.2).regular
  · simp only [ofJson?, toJson, Option.bind_eq_bind]
    rw [entries, Option.bind_some, ofList_entries]

theorem Missing.represents (missing : Missing) : Represents ofJson? missing.toJson missing := by
  have includes := represents_texts missing.includes
  have dispatched := represents_texts missing.dispatched
  have loaded := represents_texts missing.loaded
  have paths := represents_texts missing.unresolvedPaths
  have lookups := represents_texts missing.unresolvedLookups
  constructor
  · simp [toJson, includes.regular, dispatched.regular, loaded.regular, paths.regular,
      lookups.regular]
  · apply bind_of_eq_some rfl
    apply bind_of_eq_some (required?_of_field? includes rfl)
    apply bind_of_eq_some (required?_of_field? dispatched rfl)
    apply bind_of_eq_some (required?_of_field? loaded rfl)
    apply bind_of_eq_some (required?_of_field? paths rfl)
    apply bind_of_eq_some (required?_of_field? lookups rfl)
    rfl

theorem BasePlaces.represents (base : BasePlaces) : Represents ofJson? base.toJson base := by
  have includes := represents_optionalText base.includes
  have load := represents_optionalText base.load
  have rules := represents_optionalText base.rules
  constructor
  · simp [toJson, includes.regular, load.regular, rules.regular]
  · apply bind_of_eq_some rfl
    apply bind_of_eq_some (optionalText?_of_field? includes rfl)
    apply bind_of_eq_some (optionalText?_of_field? load rfl)
    apply bind_of_eq_some (optionalText?_of_field? rules rfl)
    rfl

/-- The numbers of the steps are machine words. -/
def Report.Counted (report : Report) : Prop :=
  ∀ step ∈ report.order, step.index < UInt64.size

theorem Report.represents {report : Report} (counted : report.Counted) :
    Represents ofJson? report.toJson report := by
  have root := represents_text report.root
  have base := report.base.represents
  have includes := represents_list fun entry (_ : entry ∈ report.includes) => entry.represents
  have resolutions := represents_list fun resolution (_ : resolution ∈ report.resolutions) =>
    resolution.represents
  have loadCalls := represents_texts report.loadCalls
  have rules := represents_list fun rule (_ : rule ∈ report.rules) => rule.represents
  have order := represents_list fun step member => NumberedRule.represents (counted step member)
  have edges := represents_list fun edge (_ : edge ∈ report.edges) => edge.represents
  have ruleFiles := represents_texts report.ruleFiles
  have files := represents_list fun file (_ : file ∈ report.files) => file.represents
  have matched := report.matched.represents
  have missing := report.missing.represents
  have unreached := represents_texts report.unreached
  constructor
  · simp only [toJson, regular_object_iff, List.forall_mem_cons]
    exact ⟨root.regular, base.regular, includes.regular, resolutions.regular, loadCalls.regular,
      rules.regular, order.regular, edges.regular, ruleFiles.regular, files.regular, matched.regular,
      missing.regular, unreached.regular, List.forall_mem_nil _⟩
  · apply bind_of_eq_some rfl
    apply bind_of_eq_some (required?_of_field? root rfl)
    apply bind_of_eq_some (required?_of_field? base rfl)
    apply bind_of_eq_some (required?_of_field? includes rfl)
    apply bind_of_eq_some (required?_of_field? resolutions rfl)
    apply bind_of_eq_some (required?_of_field? loadCalls rfl)
    apply bind_of_eq_some (required?_of_field? rules rfl)
    apply bind_of_eq_some (required?_of_field? order rfl)
    apply bind_of_eq_some (required?_of_field? edges rfl)
    apply bind_of_eq_some (required?_of_field? ruleFiles rfl)
    apply bind_of_eq_some (required?_of_field? files rfl)
    apply bind_of_eq_some (required?_of_field? matched rfl)
    apply bind_of_eq_some (required?_of_field? missing rfl)
    apply bind_of_eq_some (required?_of_field? unreached rfl)
    rfl

end Records

section Deletion

namespace Json

/-- An object without some of its fields. -/
def without (dropped : String → Bool) : Json → Json
  | .object fields => .object (fields.filter fun field => !dropped field.1)
  | json => json

/-- An object in which the value of one field is changed. -/
def within (key : String) (change : Json → Json) : Json → Json
  | .object fields =>
      .object (fields.map fun field => if field.1 = key then (field.1, change field.2) else field)
  | json => json

theorem regular_without {json : Json} (regular : json.Regular) (dropped : String → Bool) :
    (json.without dropped).Regular := by
  cases regular with
  | scalar regular => exact .scalar regular
  | list regular => exact .list regular
  | object regular => exact .object fun field kept => regular field (List.mem_of_mem_filter kept)

theorem field?_filter (fields : List (String × Json)) (dropped : String → Bool) (key : String) :
    field? (fields.filter fun field => !dropped field.1) key =
      if dropped key then none else field? fields key := by
  have same : ∀ field : String × Json,
      decide ((!dropped field.1) = true ∧ (field.1 == key) = true) =
        (!dropped key && field.1 == key) := by
    intro field
    by_cases named : field.1 = key
    · subst key
      simp
    · simp [named]
  rw [field?, ← List.filter_reverse, List.find?_filter, funext same]
  cases dropped key <;> simp [field?]

/-- A field that is dropped has its default, and one that is kept has its value. -/
theorem withDefault?_filter {α : Type} {read? : Json → Option α} {json : Json} {value : α}
    {fields : List (String × Json)} {name : String} {dropped : String → Bool} {default : α}
    (represents : Represents read? json value) (found : field? fields name = some json) :
    Members.withDefault? (field? (fields.filter fun field => !dropped field.1)) read? name default =
      some (if dropped name then default else value) := by
  rw [Members.withDefault?, field?_filter]
  cases dropped name with
  | true => rfl
  | false => simp [found, represents.read]

end Json

/-- The limits are machine words. -/
def ScanOptions.Counted (options : ScanOptions) : Prop :=
  options.maxDepth < UInt64.size ∧ options.maxFiles < UInt64.size

/-- The fields with the given names in JSON are back at their defaults, the others are as they were. -/
def ScanOptions.reset (options : ScanOptions) (dropped : String → Bool) : ScanOptions where
  extension := if dropped "extension" then ({} : ScanOptions).extension else options.extension
  maxDepth := if dropped "max_depth" then ({} : ScanOptions).maxDepth else options.maxDepth
  maxFiles := if dropped "max_files" then ({} : ScanOptions).maxFiles else options.maxFiles

def SurveyOptions.reset (options : SurveyOptions) (outer inner : String → Bool) : SurveyOptions where
  scan := if outer "scan" then ({} : SurveyOptions).scan else options.scan.reset inner
  includesFile :=
    if outer "includes_file" then ({} : SurveyOptions).includesFile else options.includesFile
  loadFile := if outer "load_file" then ({} : SurveyOptions).loadFile else options.loadFile
  dispatchFile :=
    if outer "dispatch_file" then ({} : SurveyOptions).dispatchFile else options.dispatchFile

/-- The JSON of options without some of its fields, and some of those about the scan. -/
def SurveyOptions.toJsonWithout (options : SurveyOptions) (outer inner : String → Bool) : Json :=
  (options.toJson.within "scan" (·.without inner)).without outer

open Json

theorem ScanOptions.represents_without {options : ScanOptions} (counted : options.Counted)
    (dropped : String → Bool) :
    Represents ofJson? (options.toJson.without dropped) (options.reset dropped) := by
  have extension := represents_text options.extension
  have maxDepth := represents_natural counted.1
  have maxFiles := represents_natural counted.2
  constructor
  · apply regular_without
    simp [toJson, extension.regular, maxDepth.regular, maxFiles.regular]
  · apply bind_of_eq_some rfl
    apply bind_of_eq_some (withDefault?_filter extension rfl)
    apply bind_of_eq_some (withDefault?_filter maxDepth rfl)
    apply bind_of_eq_some (withDefault?_filter maxFiles rfl)
    rfl

theorem SurveyOptions.represents_without {options : SurveyOptions} (counted : options.scan.Counted)
    (outer inner : String → Bool) :
    Represents ofJson? (options.toJsonWithout outer inner) (options.reset outer inner) := by
  have scan := ScanOptions.represents_without counted inner
  have includesFile := represents_text options.includesFile
  have loadFile := represents_text options.loadFile
  have dispatchFile := represents_text options.dispatchFile
  have changed : options.toJson.within "scan" (·.without inner) = .object [
      ("scan", options.scan.toJson.without inner), ("includes_file", .text options.includesFile),
      ("load_file", .text options.loadFile), ("dispatch_file", .text options.dispatchFile)] := rfl
  rw [toJsonWithout, changed]
  constructor
  · apply regular_without
    simp [scan.regular, includesFile.regular, loadFile.regular, dispatchFile.regular]
  · apply bind_of_eq_some rfl
    apply bind_of_eq_some (withDefault?_filter scan rfl)
    apply bind_of_eq_some (withDefault?_filter includesFile rfl)
    apply bind_of_eq_some (withDefault?_filter loadFile rfl)
    apply bind_of_eq_some (withDefault?_filter dispatchFile rfl)
    rfl

/-- Nothing dropped, nothing changed. -/
theorem SurveyOptions.represents {options : SurveyOptions} (counted : options.scan.Counted) :
    Represents ofJson? options.toJson options :=
  represents_without counted (fun _ => false) fun _ => false

end Deletion

/--
A report is read back from its JSON text in either layout, and on one line the text has no control
character. Options are read back from theirs; if fields are dropped, whether of the options or of those
about the scan, exactly these come back as their defaults.
-/
theorem written_json_reads_back {report : Report} {options : SurveyOptions}
    (numbers : report.Counted) (limits : options.scan.Counted) :
    (∀ text ∈ [report.toJson.compact, report.toJson.indented],
        (Json.parse? text).bind Report.ofJson? = some report) ∧
      (∀ c ∈ report.toJson.compact.toList, 0x20 ≤ c.toNat) ∧
      (∀ text ∈ [options.toJson.compact, options.toJson.indented],
        (Json.parse? text).bind SurveyOptions.ofJson? = some options) ∧
      ∀ outer inner : String → Bool, let kept := options.toJsonWithout outer inner
        ∀ text ∈ [kept.compact, kept.indented],
          (Json.parse? text).bind SurveyOptions.ofJson? = some (options.reset outer inner) := by
  have whole := Report.represents numbers
  refine ⟨whole.parse?_of_mem, Json.not_control_of_mem_compact whole.regular,
    (SurveyOptions.represents limits).parse?_of_mem, ?_⟩
  intro outer inner
  exact (SurveyOptions.represents_without limits outer inner).parse?_of_mem

/-- A report with characters that have to be escaped, and with the greatest number of a step. -/
def escapedReport : Report where
  root := "C:\\rules\n"
  base := { includes := some "\x01", load := none, rules := some "" }
  includes := [{ name := "\"", path := "é" }]
  resolutions := [{
    name := "\""
    declaredPath := "é"
    resolvedPath := none
    found := false
    kind := .unresolved }]
  loadCalls := ["\x7f"]
  rules := [{ condition := "\t", functions := [] }]
  order := [{ index := 18446744073709551615, condition := "\t", functions := [] }]
  edges := [{ origin := "\x1f", function := none, targets := [] }]
  ruleFiles := []
  files := [{ path := "", declaredName := some "null", label := none }]
  matched := .ofList [("b", ["f"]), ("a", [])]
  missing := {
    includes := ["\""]
    dispatched := []
    loaded := []
    unresolvedPaths := ["é"]
    unresolvedLookups := [] }
  unreached := []

def narrowOptions : SurveyOptions where
  scan := { extension := "x", maxDepth := 0, maxFiles := 18446744073709551615 }
  loadFile := ""

theorem written_json_reads_back_sample :
    escapedReport.Counted ∧ narrowOptions.scan.Counted ∧
      (Json.parse? escapedReport.toJson.indented).bind Report.ofJson? = some escapedReport ∧
      let kept := narrowOptions.toJsonWithout (· == "dispatch_file") (· == "max_files")
      kept.compact = "\x7b\"scan\":\x7b\"extension\":\"x\",\"max_depth\":0\x7d," ++
        "\"includes_file\":\"base.includes\",\"load_file\":\"\"\x7d" ∧
      (Json.parse? kept.compact).bind SurveyOptions.ofJson? =
        some { scan := { extension := "x", maxDepth := 0 }, loadFile := "" } := by
  have numbers : escapedReport.Counted := by
    intro step member
    cases List.mem_singleton.mp member
    decide
  have limits : narrowOptions.scan.Counted := ⟨by decide, by decide⟩
  obtain ⟨reads, _, _, resets⟩ := written_json_reads_back numbers limits
  refine ⟨numbers, limits, reads _ (by simp), by decide +kernel, ?_⟩
  exact resets _ _ _ List.mem_cons_self

end RuleSurvey
