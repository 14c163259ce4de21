import RuleSurvey.Survey
import RuleSurvey.Proofs.Dispatch
import RuleSurvey.Proofs.Matching
import RuleSurvey.Proofs.Reachability
import RuleSurvey.Proofs.Traversal

namespace RuleSurvey

/-!
The parts of a report and how they hang together. Includes, calls and rule files are read from the
disk; all else follows from them. A name that includes or rules use has either its files in the match
table or a place in a list of missing names, and a rule file that no name reaches is listed.
-/

namespace Report

def includeNames (report : Report) : List String :=
  report.includes.map (·.name)

def calledNames (report : Report) : List String :=
  report.rules.flatMap (·.functions)

def catalog (report : Report) : Catalog :=
  .ofRuleFiles report.files

/-- The traversal that a report shows. -/
def traversal (report : Report) : Traversal where
  includes := report.includes
  rules := report.rules
  ruleFiles := report.ruleFiles
  table := report.matched

/-- What a report takes from the disk. -/
structure ReadFrom (report : Report) (disk : Disk) (options : SurveyOptions) (target : Target) :
    Prop where
  includes : report.includes = (disk.includes (BasePaths.ofRoot target.root options).includes).value
  loadCalls : report.loadCalls = (disk.loadCalls (BasePaths.ofRoot target.root options).load).value
  rules : report.rules = (disk.dispatchRules (BasePaths.ofRoot target.root options).rules).value
  files : report.files =
    (disk.ruleFiles options.scan target).value.map fun path => (disk.ruleFile path).value
  ruleFiles : report.ruleFiles = report.files.map (·.path)
  resolutions : report.resolutions = report.includes.map fun entry =>
    (disk.resolveInclude target.root entry.name entry.path).value

/-- What a report concludes. Files shown under a hidden path are never listed as unreached. -/
structure Coherent (report : Report) (hidden : List String) : Prop where
  ruleFiles : report.ruleFiles = report.files.map (·.path)
  called : "" ∉ report.calledNames
  matched : report.matched.AnswersFor report.catalog (report.includeNames ++ report.calledNames)
  order : report.order = report.traversal.order
  edges : report.edges = report.traversal.edges
  missing : report.missing =
    report.traversal.missing report.catalog report.loadCalls report.resolutions
  unreached : report.unreached =
    (ReachGraph.ofEdges report.edges report.ruleFiles).unreached.filter (!hidden.contains ·)

end Report

/-- The report on findings: no more than its root and the places of the base files is added. -/
def Findings.report (findings : Findings) (root : String) (base : BasePlaces)
    (hidden : List String) : Report :=
  let traversal := findings.traversal findings.table.value
  { root, base
    includes := findings.includes
    resolutions := findings.resolutions
    loadCalls := findings.loadCalls
    rules := findings.rules
    order := traversal.order
    edges := traversal.edges
    ruleFiles := findings.ruleFiles
    files := findings.files
    matched := findings.table.value
    missing := traversal.missing findings.catalog findings.loadCalls findings.resolutions
    unreached := (ReachGraph.ofEdges traversal.edges findings.ruleFiles).unreached.filter
      (!hidden.contains ·) }

theorem Findings.report_coherent (findings : Findings) (root : String) (base : BasePlaces)
    (hidden : List String) (called : "" ∉ findings.rules.flatMap (·.functions)) :
    (findings.report root base hidden).Coherent hidden where
  ruleFiles := rfl
  called := called
  matched := MatchTable.answersFor_build _ _
  order := rfl
  edges := rfl
  missing := rfl
  unreached := rfl

section

variable (disk : Disk) (options : SurveyOptions) (target : Target)

theorem survey_value :
    (survey disk options target).value =
      (disk.findings options target).value.report target.root.display
        (disk.basePlaces (BasePaths.ofRoot target.root options))
        (BasePaths.ofRoot target.root options).displays := by
  simp only [survey, Logged.value_bind, Logged.value_pure, ReachGraph.value_build]
  rfl

theorem Disk.findings_value :
    (disk.findings options target).value =
      { includes := (disk.includes (BasePaths.ofRoot target.root options).includes).value
        loadCalls := (disk.loadCalls (BasePaths.ofRoot target.root options).load).value
        rules := (disk.dispatchRules (BasePaths.ofRoot target.root options).rules).value
        files := (disk.ruleFiles options.scan target).value.map fun path =>
          (disk.ruleFile path).value
        resolutions := (disk.includes (BasePaths.ofRoot target.root options).includes).value.map
          fun entry => (disk.resolveInclude target.root entry.name entry.path).value } := by
  simp only [Disk.findings, Logged.value_bind, Logged.value_pure, Logged.value_forEach]

theorem Disk.includes_value (path : Path) :
    (disk.includes path).value = ((disk.regularText path).value.map includesOf).getD [] := by
  rw [Disk.includes, Logged.value_bind]
  cases (disk.regularText path).value <;> rfl

theorem Disk.loadCalls_value (path : Path) :
    (disk.loadCalls path).value = ((disk.regularText path).value.map loadCallsOf).getD [] := by
  rw [Disk.loadCalls, Logged.value_bind]
  cases (disk.regularText path).value <;> rfl

theorem Disk.dispatchRules_value (path : Path) :
    (disk.dispatchRules path).value =
      ((disk.regularText path).value.map dispatchRulesOf).getD [] := by
  rw [Disk.dispatchRules, Logged.value_bind]
  cases (disk.regularText path).value <;> rfl

theorem survey_readFrom : (survey disk options target).value.ReadFrom disk options target := by
  rw [survey_value, disk.findings_value]
  constructor <;> simp only [Findings.report, Findings.ruleFiles]

theorem Disk.functions_ne_empty {path : Path} {rule : DispatchRule} {name : String}
    (member : rule ∈ (disk.dispatchRules path).value) (called : name ∈ rule.functions) :
    name ≠ "" := by
  rw [dispatchRules_value] at member
  cases found : (disk.regularText path).value with
  | none => simp [found] at member
  | some text =>
      rw [found, Option.map_some, Option.getD_some] at member
      exact Dispatch.functions_ne_empty member called

theorem survey_coherent :
    (survey disk options target).value.Coherent (BasePaths.ofRoot target.root options).displays := by
  rw [survey_value, disk.findings_value]
  apply Findings.report_coherent
  intro member
  dsimp only at member
  obtain ⟨rule, listed, called⟩ := List.mem_flatMap.mp member
  exact disk.functions_ne_empty listed called rfl

end

namespace Report

variable {report : Report} {hidden : List String} {name file : String}

/--
How a rule file is reached: by a name that a rule calls, or by the name of an include if there are no
rules. Where there are no names to go by, every file is reached.
-/
inductive Reaches (report : Report) (file : String) : Prop where
  | called {rule : DispatchRule} {name : String} {record : RuleFile}
      (listed : rule ∈ report.rules) (called : name ∈ rule.functions)
      (known : record ∈ report.files) (path : record.path = file)
      (answers : record.AnswersTo name)
  | included {entry : Include} {record : RuleFile}
      (noRules : report.rules = []) (listed : entry ∈ report.includes)
      (known : record ∈ report.files) (path : record.path = file)
      (answers : record.AnswersTo entry.name)
  | standalone (noRules : report.rules = []) (noIncludes : report.includes = [])

theorem mem_candidates_iff :
    file ∈ report.catalog.candidates name ↔
      ∃ record ∈ report.files, record.path = file ∧ record.AnswersTo name :=
  Catalog.mem_candidates_iff

namespace Coherent

theorem files_of_call (coherent : report.Coherent hidden) {rule : DispatchRule}
    (listed : rule ∈ report.rules) (called : name ∈ rule.functions) :
    report.traversal.table.files name = report.catalog.candidates name :=
  coherent.matched.files_eq (List.mem_append_right _ (List.mem_flatMap.mpr ⟨rule, listed, called⟩))

theorem files_of_include (coherent : report.Coherent hidden) {entry : Include}
    (listed : entry ∈ report.includes) :
    report.traversal.table.files entry.name = report.catalog.candidates entry.name :=
  coherent.matched.files_eq (List.mem_append_left _ (List.mem_map.mpr ⟨entry, listed, rfl⟩))

theorem targeted_iff_reaches (coherent : report.Coherent hidden) (listed : file ∈ report.ruleFiles) :
    (∃ edge ∈ report.edges, file ∈ edge.targets) ↔ report.Reaches file := by
  rw [coherent.edges]
  constructor
  · intro targeted
    obtain ⟨edge, member, target⟩ := targeted
    cases Traversal.Makes.of_mem member with
    | call place called =>
        have rule := List.mem_of_getElem? place
        rw [coherent.files_of_call rule called] at target
        obtain ⟨record, known, path, answers⟩ := mem_candidates_iff.mp target
        exact .called rule called known path answers
    | entry noRules included =>
        rw [coherent.files_of_include included] at target
        obtain ⟨record, known, path, answers⟩ := mem_candidates_iff.mp target
        exact .included noRules included known path answers
    | single noRules noIncludes _ => exact .standalone noRules noIncludes
  · intro reached
    cases reached with
    | called rule called known path answers =>
        obtain ⟨index, place⟩ := List.mem_iff_getElem?.mp rule
        refine ⟨_, Traversal.Makes.mem (.call place called), ?_⟩
        rw [coherent.files_of_call rule called]
        exact mem_candidates_iff.mpr ⟨_, known, path, answers⟩
    | included noRules included known path answers =>
        refine ⟨_, Traversal.Makes.mem (.entry noRules included), ?_⟩
        rw [coherent.files_of_include included]
        exact mem_candidates_iff.mpr ⟨_, known, path, answers⟩
    | standalone noRules noIncludes =>
        exact ⟨_, Traversal.Makes.mem (.single noRules noIncludes listed),
          List.mem_singleton_self file⟩

theorem firstSeen_unreached (coherent : report.Coherent hidden) :
    FirstSeen report.ruleFiles (fun file => file ∉ hidden ∧ ¬ report.Reaches file)
      report.unreached := by
  rw [coherent.unreached, ReachGraph.unreached_ofEdges, List.filter_filter]
  apply (firstSeen_filter_eraseDups report.ruleFiles _).congr
  intro file listed
  rw [← coherent.targeted_iff_reaches listed]
  simp

theorem unreached_of_standalone (coherent : report.Coherent hidden)
    (alone : report.traversal.source = .standalone) : report.unreached = [] := by
  obtain ⟨noRules, noIncludes⟩ := Traversal.of_source_eq_standalone alone
  rw [List.eq_nil_iff_forall_not_mem]
  intro file member
  have unreached := ((coherent.firstSeen_unreached.mem_iff file).mp member).2.2
  exact unreached (.standalone noRules noIncludes)

/-- Once there are rules, the names of includes reach nothing. -/
theorem mem_unreached_of_rules (coherent : report.Coherent hidden) (rules : report.rules ≠ [])
    (listed : file ∈ report.ruleFiles) (visible : file ∉ hidden)
    (unanswered : ∀ rule ∈ report.rules, ∀ name ∈ rule.functions, ∀ record ∈ report.files,
      record.path = file → ¬ record.AnswersTo name) :
    file ∈ report.unreached := by
  refine (coherent.firstSeen_unreached.mem_iff file).mpr ⟨listed, visible, ?_⟩
  intro reached
  cases reached with
  | called rule called known path answers =>
      exact unanswered _ rule _ called _ known path answers
  | included noRules => exact rules noRules
  | standalone noRules => exact rules noRules

theorem mem_matched_iff (coherent : report.Coherent hidden) {files : List String} :
    (name, files) ∈ report.matched.entries ↔
      (name ∈ report.includeNames ∨ name ∈ report.calledNames) ∧
        files = report.catalog.candidates name ∧ files ≠ [] := by
  rw [MatchTable.mem_entries_iff, coherent.matched, List.mem_append]

theorem not_contains_iff (coherent : report.Coherent hidden)
    (named : name ∈ report.includeNames ++ report.calledNames) :
    (!report.traversal.table.contains name) = true ↔ report.catalog.candidates name = [] := by
  have known : report.traversal.table.contains name = true ↔ report.catalog.candidates name ≠ [] :=
    coherent.matched.contains_iff.trans (and_iff_right named)
  rw [Bool.not_eq_true', ← Bool.not_eq_true, known, not_not]

theorem firstSeen_missing_includes (coherent : report.Coherent hidden) :
    FirstSeen report.includeNames (report.catalog.candidates · = []) report.missing.includes := by
  rw [coherent.missing]
  apply (firstSeen_filter_eraseDups report.includeNames _).congr
  intro name member
  exact coherent.not_contains_iff (List.mem_append_left _ member)

theorem mem_missing_dispatched_iff (coherent : report.Coherent hidden) :
    name ∈ report.missing.dispatched ↔
      name ∈ report.calledNames ∧ report.catalog.candidates name = [] := by
  have called : name ∈ report.traversal.dispatched ↔ name ∈ report.calledNames := by
    rw [Traversal.mem_dispatched_iff, calledNames, List.mem_flatMap]
    constructor
    · intro found
      exact found.2
    · intro found
      refine ⟨?_, found⟩
      intro empty
      exact coherent.called (empty ▸ List.mem_flatMap.mpr found)
  rw [coherent.missing, Traversal.missing, List.mem_filter, called]
  constructor
  · intro found
    exact ⟨found.1, (coherent.not_contains_iff (List.mem_append_right _ found.1)).mp found.2⟩
  · intro found
    exact ⟨found.1, (coherent.not_contains_iff (List.mem_append_right _ found.1)).mpr found.2⟩

theorem ascending_missing_dispatched (coherent : report.Coherent hidden) :
    report.missing.dispatched.Pairwise (· < ·) := by
  rw [coherent.missing]
  exact report.traversal.ascending_dispatched.filter _

theorem firstSeen_missing_loaded (coherent : report.Coherent hidden) :
    FirstSeen report.loadCalls (report.catalog.candidates · = []) report.missing.loaded := by
  rw [coherent.missing]
  apply (firstSeen_filter_eraseDups report.loadCalls _).congr
  intro name _
  rw [Bool.and_eq_true, List.isEmpty_iff]
  constructor
  · intro found
    exact found.2
  · intro empty
    refine ⟨?_, empty⟩
    -- The table may not know the name of a load call, but what it does know has files.
    cases present : report.traversal.table.contains name with
    | false => rfl
    | true => exact absurd empty (coherent.matched.contains_iff.mp present).2

theorem targets_eq_nil_iff (coherent : report.Coherent hidden) {edge : Reference}
    (member : edge ∈ report.edges) :
    edge.targets = [] ↔
      ∃ name ∈ report.traversal.source.missingNames report.missing, edge.function = some name := by
  rw [coherent.edges] at member
  cases Traversal.Makes.of_mem member with
  | call place called =>
      have rule := List.mem_of_getElem? place
      have named : _ ∈ report.calledNames := List.mem_flatMap.mpr ⟨_, rule, called⟩
      rw [coherent.files_of_call rule called, Traversal.source_of_rules (List.ne_nil_of_mem rule)]
      simp [Traversal.Source.missingNames, coherent.mem_missing_dispatched_iff, named]
  | entry noRules included =>
      have named : _ ∈ report.includeNames := List.mem_map.mpr ⟨_, included, rfl⟩
      rw [coherent.files_of_include included,
        Traversal.source_of_includes noRules (List.ne_nil_of_mem included)]
      simp [Traversal.Source.missingNames, coherent.firstSeen_missing_includes.mem_iff, named]
  | single noRules noIncludes listed => simp

theorem candidates_sublist (coherent : report.Coherent hidden) (name : String) :
    (report.catalog.candidates name).Sublist report.ruleFiles :=
  coherent.ruleFiles ▸ Catalog.candidates_sublist report.files name

theorem targets_sublist (coherent : report.Coherent hidden) {edge : Reference}
    (member : edge ∈ report.edges) : edge.targets.Sublist report.ruleFiles := by
  rw [coherent.edges] at member
  cases Traversal.Makes.of_mem member with
  | call place called =>
      rw [coherent.files_of_call (List.mem_of_getElem? place) called]
      exact coherent.candidates_sublist _
  | entry noRules included =>
      rw [coherent.files_of_include included]
      exact coherent.candidates_sublist _
  | single noRules noIncludes listed => exact List.singleton_sublist.mpr listed

theorem unreached_sublist (coherent : report.Coherent hidden) :
    report.unreached.Sublist report.ruleFiles := by
  rw [coherent.unreached, ReachGraph.unreached_ofEdges]
  exact (List.filter_sublist.trans List.filter_sublist).trans (eraseDups_sublist _)

theorem getElem?_order (coherent : report.Coherent hidden) (index : Nat) :
    report.order[index]? = report.rules[index]?.map fun rule =>
      NumberedRule.mk (index + 1) rule.condition rule.functions := by
  rw [coherent.order]
  exact Traversal.getElem?_order index

theorem source_owns_iff (coherent : report.Coherent hidden) {edge : Reference}
    (member : edge ∈ report.edges) (source : Traversal.Source) :
    source.Owns edge.origin ↔ source = report.traversal.source := by
  rw [coherent.edges] at member
  exact Traversal.source_owns_iff member source

theorem functions_of_origin (coherent : report.Coherent hidden) {index : Nat} {rule : DispatchRule}
    (place : report.rules[index]? = some rule) :
    (report.edges.filter (·.origin == dispatchOrigin (index + 1))).map (·.function) =
      rule.functions.map some := by
  rw [coherent.edges]
  exact Traversal.functions_of_origin place

theorem origin_of_edge (coherent : report.Coherent hidden) (rules : report.rules ≠ [])
    {edge : Reference} (member : edge ∈ report.edges) :
    ∃ index < report.rules.length, edge.origin = dispatchOrigin (index + 1) := by
  rw [coherent.edges] at member
  cases Traversal.Makes.of_mem member with
  | call place called =>
      obtain ⟨bound, _⟩ := List.getElem?_eq_some_iff.mp place
      exact ⟨_, bound, rfl⟩
  | entry noRules included => exact absurd noRules rules
  | single noRules noIncludes listed => exact absurd noRules rules

end Coherent

end Report

/--
The files listed as unreached are the rule files that no name of the driving source reaches, less
those shown under the path of a base file. With no source to drive nothing is listed, and as soon as
there are rules the names of includes count for nothing.
-/
theorem survey_unreached_exactly (disk : Disk) (options : SurveyOptions) (target : Target) :
    let report := (survey disk options target).value
    let hidden := (BasePaths.ofRoot target.root options).displays
    report.ReadFrom disk options target ∧
      FirstSeen report.ruleFiles (fun file => file ∉ hidden ∧ ¬ report.Reaches file)
        report.unreached ∧
      (report.traversal.source = .standalone → report.unreached = []) ∧
      (report.rules ≠ [] → ∀ file ∈ report.ruleFiles, file ∉ hidden →
        (∀ rule ∈ report.rules, ∀ name ∈ rule.functions, ∀ record ∈ report.files,
          record.path = file → ¬ record.AnswersTo name) →
        file ∈ report.unreached) := by
  intro report hidden
  have coherent := survey_coherent disk options target
  exact ⟨survey_readFrom disk options target, coherent.firstSeen_unreached,
    coherent.unreached_of_standalone, fun rules file => coherent.mem_unreached_of_rules rules⟩

/--
Of what is read from the disk, every name that an include gives or a rule calls has its candidates in
the match table or is missing, and never both. An edge leads nowhere exactly if its name is missing.
-/
theorem survey_names_matched_or_missing (disk : Disk) (options : SurveyOptions) (target : Target) :
    let report := (survey disk options target).value
    let candidates := report.catalog.candidates
    report.ReadFrom disk options target ∧
      (∀ name files, (name, files) ∈ report.matched.entries ↔
        (name ∈ report.includeNames ∨ name ∈ report.calledNames) ∧
          files = candidates name ∧ files ≠ []) ∧
      FirstSeen report.includeNames (candidates · = []) report.missing.includes ∧
      (∀ name, name ∈ report.missing.dispatched ↔
        name ∈ report.calledNames ∧ candidates name = []) ∧
      report.missing.dispatched.Pairwise (· < ·) ∧
      FirstSeen report.loadCalls (candidates · = []) report.missing.loaded ∧
      (∀ name files, (name, files) ∈ report.matched.entries →
        name ∉ report.missing.includes ∧ name ∉ report.missing.dispatched ∧
          name ∉ report.missing.loaded) ∧
      ∀ edge ∈ report.edges, edge.targets = [] ↔
        ∃ name ∈ report.traversal.source.missingNames report.missing,
          edge.function = some name := by
  intro report candidates
  have coherent := survey_coherent disk options target
  refine ⟨survey_readFrom disk options target, fun name files => coherent.mem_matched_iff,
    coherent.firstSeen_missing_includes, fun name => coherent.mem_missing_dispatched_iff,
    coherent.ascending_missing_dispatched, coherent.firstSeen_missing_loaded, ?_, fun edge => coherent.targets_eq_nil_iff⟩
  intro name files member
  obtain ⟨_, same, nonempty⟩ := coherent.mem_matched_iff.mp member
  rw [same] at nonempty
  exact ⟨fun missing => nonempty ((coherent.firstSeen_missing_includes.mem_iff name).mp missing).2,
    fun missing => nonempty (coherent.mem_missing_dispatched_iff.mp missing).2,
    fun missing => nonempty ((coherent.firstSeen_missing_loaded.mem_iff name).mp missing).2⟩

/--
All files that a report speaks of are the rule files found on the disk, in the order of their discovery,
and its edges lose nothing of the rules: those from one origin spell out the calls of one rule.
-/
theorem survey_report_well_formed (disk : Disk) (options : SurveyOptions) (target : Target) :
    let report := (survey disk options target).value
    report.ReadFrom disk options target ∧
      report.files.map (·.path) = report.ruleFiles ∧
      (∀ edge ∈ report.edges, edge.targets.Sublist report.ruleFiles) ∧
      (∀ name files, (name, files) ∈ report.matched.entries → files.Sublist report.ruleFiles) ∧
      report.unreached.Sublist report.ruleFiles ∧
      (∀ index : Nat, report.order[index]? = report.rules[index]?.map fun rule =>
        NumberedRule.mk (index + 1) rule.condition rule.functions) ∧
      (∀ edge ∈ report.edges, ∀ source : Traversal.Source,
        source.Owns edge.origin ↔ source = report.traversal.source) ∧
      (report.rules ≠ [] →
        (∀ (index : Nat) (rule : DispatchRule), report.rules[index]? = some rule →
          (report.edges.filter (·.origin == dispatchOrigin (index + 1))).map (·.function) =
            rule.functions.map some) ∧
        ∀ edge ∈ report.edges, ∃ index < report.rules.length,
          edge.origin = dispatchOrigin (index + 1)) := by
  intro report
  have coherent := survey_coherent disk options target
  refine ⟨survey_readFrom disk options target, coherent.ruleFiles.symm,
    fun edge => coherent.targets_sublist, ?_, coherent.unreached_sublist, coherent.getElem?_order,
    fun edge => coherent.source_owns_iff, fun rules => ⟨fun index rule => coherent.functions_of_origin,
      fun edge => coherent.origin_of_edge rules⟩⟩
  intro name files member
  obtain ⟨_, same, _⟩ := coherent.mem_matched_iff.mp member
  rw [same]
  exact coherent.candidates_sublist name

end RuleSurvey
