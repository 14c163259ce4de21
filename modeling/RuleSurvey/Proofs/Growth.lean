import RuleSurvey.Proofs.Matching
import RuleSurvey.Proofs.Reachability
import RuleSurvey.Proofs.Traversal
import RuleSurvey.Survey
import Mathlib.Data.List.Nodup

namespace RuleSurvey

/-!
What more rule files change in a survey. Names only gain files, so fewer of them are missing. A file
answers for itself alone: whether it is reached does not depend on the other files, as long as no two
of them have one path.
-/

theorem Catalog.candidates_sublist_of_sublist {fewer more : List RuleFile}
    (kept : fewer.Sublist more) (name : String) :
    ((ofRuleFiles fewer).candidates name).Sublist ((ofRuleFiles more).candidates name) :=
  ((kept.map _).filter _).map _

namespace Findings

/-- The findings with other rule files, and all else as it was. -/
def withFiles (findings : Findings) (files : List RuleFile) : Findings :=
  { findings with files }

def assembled (findings : Findings) : Traversal :=
  findings.traversal findings.table.value

def missing (findings : Findings) : Missing :=
  findings.assembled.missing findings.catalog findings.loadCalls findings.resolutions

def unreached (findings : Findings) : List String :=
  (ReachGraph.build findings.assembled.edges findings.ruleFiles).value.unreached

variable {findings : Findings} {more : List RuleFile} {file name : String}

theorem table_answersFor (findings : Findings) :
    findings.table.value.AnswersFor findings.catalog findings.names :=
  MatchTable.answersFor_build findings.catalog findings.names

theorem contains_withFiles (kept : findings.files.Sublist more)
    (known : findings.table.value.contains name = true) :
    (findings.withFiles more).table.value.contains name = true := by
  obtain ⟨named, found⟩ := findings.table_answersFor.contains_iff.mp known
  refine (findings.withFiles more).table_answersFor.contains_iff.mpr ⟨named, ?_⟩
  intro nothing
  have gained := Catalog.candidates_sublist_of_sublist kept name
  exact found (List.sublist_nil.mp (nothing ▸ gained))

theorem not_contains_of_withFiles (kept : findings.files.Sublist more)
    (unknown : (!(findings.withFiles more).table.value.contains name) = true) :
    (!findings.table.value.contains name) = true := by
  cases known : findings.table.value.contains name with
  | false => rfl
  | true => simp [contains_withFiles kept known] at unknown

theorem missing_includes_sublist (kept : findings.files.Sublist more) :
    (findings.withFiles more).missing.includes.Sublist findings.missing.includes :=
  List.monotone_filter_right _ fun _ => not_contains_of_withFiles kept

theorem missing_dispatched_sublist (kept : findings.files.Sublist more) :
    (findings.withFiles more).missing.dispatched.Sublist findings.missing.dispatched :=
  List.monotone_filter_right _ fun _ => not_contains_of_withFiles kept

theorem missing_loaded_sublist (kept : findings.files.Sublist more) :
    (findings.withFiles more).missing.loaded.Sublist findings.missing.loaded := by
  apply List.monotone_filter_right
  intro name unknown
  rw [Bool.and_eq_true, List.isEmpty_iff] at unknown ⊢
  obtain ⟨absent, nothing⟩ := unknown
  have gained := Catalog.candidates_sublist_of_sublist kept name
  exact ⟨not_contains_of_withFiles kept absent, List.sublist_nil.mp (nothing ▸ gained)⟩

/-- More files do not change whether a file that was there answers to a name. -/
theorem mem_candidates_withFiles_iff (kept : findings.files.Sublist more)
    (distinct : (more.map (·.path)).Nodup) (listed : file ∈ findings.ruleFiles) :
    file ∈ (findings.withFiles more).catalog.candidates name ↔
      file ∈ findings.catalog.candidates name := by
  constructor
  · intro found
    obtain ⟨record, member, path, answers⟩ := Catalog.mem_candidates_iff.mp found
    obtain ⟨own, known, same⟩ := List.mem_map.mp listed
    have one : record = own :=
      List.inj_on_of_nodup_map distinct member (kept.subset known) (path.trans same.symm)
    exact Catalog.mem_candidates_iff.mpr ⟨own, known, same, one ▸ answers⟩
  · intro found
    exact (Catalog.candidates_sublist_of_sublist kept name).subset found

theorem mem_names_of_mem_drivingNames (driving : name ∈ findings.assembled.drivingNames) :
    name ∈ findings.names := by
  unfold Traversal.drivingNames at driving
  split at driving
  · exact List.mem_append_left _ driving
  · exact List.mem_append_right _ driving

theorem files_of_mem_drivingNames (findings : Findings)
    (driving : name ∈ findings.assembled.drivingNames) :
    findings.assembled.table.files name = findings.catalog.candidates name :=
  findings.table_answersFor.files_eq (mem_names_of_mem_drivingNames driving)

theorem exists_edge_withFiles_iff (kept : findings.files.Sublist more)
    (distinct : (more.map (·.path)).Nodup) (listed : file ∈ findings.ruleFiles) :
    (∃ edge ∈ (findings.withFiles more).assembled.edges, file ∈ edge.targets) ↔
      ∃ edge ∈ findings.assembled.edges, file ∈ edge.targets := by
  rw [Traversal.exists_edge_iff, Traversal.exists_edge_iff]
  -- The driving names come from rules and includes, which are the same on both sides.
  have reached : ∀ name ∈ findings.assembled.drivingNames,
      file ∈ (findings.withFiles more).assembled.table.files name ↔
        file ∈ findings.assembled.table.files name := by
    intro name driving
    rw [findings.files_of_mem_drivingNames driving,
      (findings.withFiles more).files_of_mem_drivingNames driving]
    exact mem_candidates_withFiles_iff kept distinct listed
  have still : file ∈ (findings.withFiles more).ruleFiles := (kept.map _).subset listed
  refine or_congr (exists_congr fun name => and_congr_right (reached name)) ?_
  exact and_congr_right fun _ => and_congr_right fun _ => iff_of_true still listed

theorem unreached_eq_filter (findings : Findings) (distinct : findings.ruleFiles.Nodup) :
    findings.unreached = findings.ruleFiles.filter fun file =>
      !decide (∃ edge ∈ findings.assembled.edges, file ∈ edge.targets) := by
  refine ReachGraph.unreached_ofEdges.trans ?_
  rw [eraseDups_of_nodup distinct]

/-- What was unreached among fewer files is what is unreached among them in the end. -/
theorem unreached_eq_filter_withFiles (kept : findings.files.Sublist more)
    (distinct : (more.map (·.path)).Nodup) :
    findings.unreached = findings.ruleFiles.filter fun file =>
      !decide (∃ edge ∈ (findings.withFiles more).assembled.edges, file ∈ edge.targets) := by
  rw [findings.unreached_eq_filter (distinct.sublist (kept.map _))]
  apply List.filter_congr
  intro file listed
  rw [decide_eq_decide.mpr (exists_edge_withFiles_iff kept distinct listed)]

theorem unreached_sublist_withFiles (kept : findings.files.Sublist more)
    (distinct : (more.map (·.path)).Nodup) :
    findings.unreached.Sublist (findings.withFiles more).unreached := by
  rw [unreached_eq_filter_withFiles kept distinct,
    (findings.withFiles more).unreached_eq_filter distinct]
  exact (kept.map _).filter _

theorem mem_unreached_withFiles_iff (kept : findings.files.Sublist more)
    (distinct : (more.map (·.path)).Nodup) (listed : file ∈ findings.ruleFiles) :
    file ∈ (findings.withFiles more).unreached ↔ file ∈ findings.unreached := by
  have still : file ∈ (findings.withFiles more).ruleFiles := (kept.map _).subset listed
  rw [unreached_eq_filter_withFiles kept distinct,
    (findings.withFiles more).unreached_eq_filter distinct, List.mem_filter,
    List.mem_filter]
  exact and_congr_left fun _ => iff_of_true still listed

end Findings

/--
More rule files make fewer names missing and give every name more candidates. A file that was there
stays reached if it was and unreached if it was, and the order of the unreached files is kept.
-/
theorem adding_rule_files_monotone (findings : Findings) {more : List RuleFile}
    (kept : findings.files.Sublist more) (distinct : (more.map (·.path)).Nodup) :
    let grown := findings.withFiles more
    grown.missing.includes.Sublist findings.missing.includes ∧
      grown.missing.dispatched.Sublist findings.missing.dispatched ∧
      grown.missing.loaded.Sublist findings.missing.loaded ∧
      (∀ name, (findings.catalog.candidates name).Sublist (grown.catalog.candidates name)) ∧
      findings.unreached.Sublist grown.unreached ∧
      ∀ file ∈ findings.ruleFiles, file ∈ grown.unreached ↔ file ∈ findings.unreached := by
  intro grown
  exact ⟨Findings.missing_includes_sublist kept, Findings.missing_dispatched_sublist kept,
    Findings.missing_loaded_sublist kept, Catalog.candidates_sublist_of_sublist kept,
    Findings.unreached_sublist_withFiles kept distinct,
    fun file => Findings.mem_unreached_withFiles_iff kept distinct⟩

/-- One file that no call reaches, and names for which there is no file yet. -/
def sparseFindings : Findings where
  includes := [{ name := "c", path := "/c" }]
  loadCalls := ["l"]
  rules := [{ condition := "x", functions := ["v", "g"] }]
  files := [{ path := "/c", declaredName := none, label := none }]
  resolutions := []

def furtherFiles : List RuleFile := [
  { path := "/a", declaredName := some "V", label := none },
  { path := "/c", declaredName := none, label := none },
  { path := "/l", declaredName := none, label := none }]

theorem adding_rule_files_monotone_sample :
    sparseFindings.files.Sublist furtherFiles ∧ (furtherFiles.map (·.path)).Nodup ∧
      sparseFindings.missing.dispatched = ["g", "v"] ∧
      (sparseFindings.withFiles furtherFiles).missing.dispatched = ["g"] ∧
      sparseFindings.unreached.Sublist (sparseFindings.withFiles furtherFiles).unreached ∧
      (sparseFindings.withFiles furtherFiles).unreached = ["/c", "/l"] := by
  have kept : sparseFindings.files.Sublist furtherFiles := .cons _ (.cons_cons _ (.cons _ .slnil))
  have distinct : (furtherFiles.map (·.path)).Nodup := by decide
  obtain ⟨_, _, _, _, unreached, _⟩ := adding_rule_files_monotone sparseFindings kept distinct
  exact ⟨kept, distinct, by decide +kernel, by decide +kernel, unreached, by decide +kernel⟩

end RuleSurvey
