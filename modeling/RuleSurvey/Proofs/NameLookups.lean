import RuleSurvey.Proofs.Matching
import Mathlib.Data.Finset.Card
import Mathlib.Data.List.Sort

namespace RuleSurvey

/-!
The match table as a memory of lookups. What it holds depends on which names were asked for and not on
how often or in which order. What is told on the way does: the table remembers only the names that
have files, so a name without any is looked up, and reported, each time that it comes.
-/

namespace MatchTable

section Contents

variable {catalog : Catalog} {table other : MatchTable} {names : List String}

theorem entries_eq_of_mem_iff (same : ∀ entry, entry ∈ table.entries ↔ entry ∈ other.entries) :
    table.entries = other.entries := by
  have : Std.Irrefl fun first second : String × List String => first.1 < second.1 :=
    ⟨fun entry => String.lt_irrefl entry.1⟩
  have : Std.Antisymm fun first second : String × List String => first.1 < second.1 :=
    ⟨fun _ _ less greater => absurd greater (String.lt_asymm less)⟩
  exact table.ascending.eq_of_mem_iff other.ascending same

/-- Two tables that answer for the same names are the same. -/
theorem AnswersFor.unique (answers : table.AnswersFor catalog names)
    (alike : other.AnswersFor catalog names) : table = other := by
  apply eq_of_entries
  apply entries_eq_of_mem_iff
  intro entry
  obtain ⟨name, files⟩ := entry
  rw [mem_entries_iff, mem_entries_iff, answers, alike]

theorem AnswersFor.get?_eq (answers : table.AnswersFor catalog names) (name : String) :
    table.get? name =
      if name ∈ names ∧ catalog.candidates name ≠ [] then some (catalog.candidates name)
      else none := by
  split_ifs with known
  · exact (answers name _).mpr ⟨known.1, rfl, known.2⟩
  · rw [Option.eq_none_iff_forall_ne_some]
    intro files looked
    obtain ⟨member, rfl, nonempty⟩ := (answers name files).mp looked
    exact known ⟨member, nonempty⟩

theorem AnswersFor.files_eq_nil (answers : table.AnswersFor catalog names) {name : String}
    (unasked : name ∉ names) : table.files name = [] := by
  have absent : ¬ (name ∈ names ∧ catalog.candidates name ≠ []) := fun known => unasked known.1
  rw [files, answers.get?_eq, if_neg absent, Option.getD_none]

theorem AnswersFor.mem_keys_iff (answers : table.AnswersFor catalog names) {name : String} :
    name ∈ table.entries.map Prod.fst ↔ name ∈ names ∧ catalog.candidates name ≠ [] := by
  rw [← answers.contains_iff, contains, Option.isSome_iff_exists, List.mem_map]
  simp only [Prod.exists, mem_entries_iff, exists_and_right, exists_eq_right]

theorem nodup_keys (table : MatchTable) : (table.entries.map Prod.fst).Nodup := by
  refine List.pairwise_map.mpr (table.ascending.imp ?_)
  intro first second less same
  rw [same] at less
  exact String.lt_irrefl _ less

theorem AnswersFor.size_eq (answers : table.AnswersFor catalog names) :
    table.size = (names.toFinset.filter fun name => catalog.candidates name ≠ []).card := by
  have keys : (table.entries.map Prod.fst).toFinset =
      names.toFinset.filter fun name => catalog.candidates name ≠ [] := by
    ext name
    rw [List.mem_toFinset, answers.mem_keys_iff, Finset.mem_filter, List.mem_toFinset]
  rw [← keys, List.toFinset_card_of_nodup table.nodup_keys, List.length_map, size]

theorem AnswersFor.isEmpty_iff (answers : table.AnswersFor catalog names) :
    table.isEmpty = true ↔ ∀ name ∈ names, catalog.candidates name = [] := by
  rw [isEmpty, List.isEmpty_iff, ← List.map_eq_nil_iff (f := Prod.fst),
    List.eq_nil_iff_forall_not_mem]
  simp only [answers.mem_keys_iff, not_and, not_not]

end Contents

end MatchTable

section Telling

/-- The last step of a run tells its part behind what the others told. -/
theorem Logged.log_foldlM_concat {α β : Type} (step : β → α → Logged β) (start : β) (items : List α)
    (item : α) :
    ((items ++ [item]).foldlM step start).log =
      (items.foldlM step start).log ++ (step (items.foldlM step start).value item).log := by
  induction items generalizing start with
  | nil => simp
  | cons first rest ih =>
      simp only [List.cons_append, List.foldlM_cons, log_bind, value_bind, ih, List.append_assoc]

namespace Catalog

variable {catalog : Catalog}

/-- What looking a name up leaves in the log: nothing if it has just one file. -/
def note? (catalog : Catalog) (name : String) : Option LogRecord :=
  match catalog.candidates name with
  | [] => some ⟨.debug, .matching, "No rule file matches " ++ name⟩
  | [_] => none
  | files => some ⟨.debug, .matching,
      name ++ " is ambiguous: " ++ toString files.length ++ " candidate files"⟩

theorem isSome_note?_iff {name : String} :
    (catalog.note? name).isSome = true ↔ (catalog.candidates name).length ≠ 1 := by
  cases found : catalog.candidates name with
  | nil => simp [note?, found]
  | cons first others => cases others <;> simp [note?, found]

/-- Whether a name is looked up once others have been asked for. -/
def asks (catalog : Catalog) (seen : List String) (name : String) : Bool :=
  (catalog.candidates name).isEmpty || !seen.contains name

/-- The names that are looked up, one for each occurrence that is. -/
def lookups (catalog : Catalog) (names : List String) : List String :=
  (names.zipIdx.filter fun occurrence =>
    catalog.asks (names.take occurrence.2) occurrence.1).map (·.1)

theorem lookups_concat (catalog : Catalog) (names : List String) (name : String) :
    catalog.lookups (names ++ [name]) =
      catalog.lookups names ++ if catalog.asks names name then [name] else [] := by
  have earlier : ∀ occurrence ∈ names.zipIdx,
      catalog.asks ((names ++ [name]).take occurrence.2) occurrence.1 =
        catalog.asks (names.take occurrence.2) occurrence.1 := by
    intro occurrence listed
    have inside := List.snd_lt_of_mem_zipIdx listed
    rw [List.take_append_of_le_length (by omega)]
  rw [lookups, List.zipIdx_append, List.filter_append, List.map_append,
    List.filter_congr earlier, ← lookups]
  congr 1
  cases asked : catalog.asks names name <;> simp [asked]

theorem count_lookups (catalog : Catalog) (names : List String) (name : String) :
    (catalog.lookups names).count name =
      if (catalog.candidates name).isEmpty then names.count name
      else min 1 (names.count name) := by
  induction names using List.reverseRecOn with
  | nil => simp [lookups]
  | append_singleton names last ih =>
      rw [lookups_concat, List.count_append, ih, List.count_append]
      by_cases same : last = name
      · subst last
        cases unmatched : (catalog.candidates name).isEmpty with
        | true => simp [asks, unmatched]
        | false =>
            by_cases seen : name ∈ names
            · have counted := List.count_pos_iff.mpr seen
              have silent : catalog.asks names name = false := by simp [asks, unmatched, seen]
              simp only [silent, Bool.false_eq_true, if_false, List.count_nil,
                List.count_singleton_self]
              omega
            · simp [asks, unmatched, seen, List.count_eq_zero.mpr seen]
      · have apart : (if catalog.asks names last then [last] else []).count name = 0 := by
          split <;> simp [same]
        simp [apart, same]

theorem mem_lookups_iff {names : List String} {name : String} :
    name ∈ catalog.lookups names ↔ name ∈ names := by
  rw [← List.count_pos_iff, ← List.count_pos_iff, count_lookups]
  split <;> omega

theorem eraseDups_sublist_lookups (catalog : Catalog) (names : List String) :
    names.eraseDups.Sublist (catalog.lookups names) := by
  induction names using List.reverseRecOn with
  | nil => simp
  | append_singleton names name ih =>
      rw [lookups_concat, eraseDups_concat]
      by_cases seen : name ∈ names
      · rw [if_pos seen]
        exact ih.trans (List.sublist_append_left _ _)
      · have asked : catalog.asks names name = true := by simp [asks, seen]
        rw [if_neg seen, if_pos asked]
        exact ih.append_right _

theorem lookups_eq_eraseDups {names : List String}
    (once : ∀ name, catalog.candidates name = [] → names.count name ≤ 1) :
    catalog.lookups names = names.eraseDups := by
  have distinct : (catalog.lookups names).Nodup := by
    rw [List.nodup_iff_count]
    intro name
    rw [count_lookups]
    split
    · rename_i unmatched
      exact once name (List.isEmpty_iff.mp unmatched)
    · exact Nat.min_le_left _ _
  have members : catalog.lookups names ⊆ names.eraseDups := fun name looked =>
    List.mem_eraseDups.mpr (mem_lookups_iff.mp looked)
  have shorter := (List.subperm_of_subset distinct members).length_le
  exact ((catalog.eraseDups_sublist_lookups names).eq_of_length_le shorter).symm

/-- If a name without files comes again, more is told than its first occurrence accounts for. -/
theorem count_le_one_of_filterMap_lookups {names : List String} {name : String}
    (same : (catalog.lookups names).filterMap catalog.note? =
      names.eraseDups.filterMap catalog.note?)
    (unmatched : catalog.candidates name = []) : names.count name ≤ 1 := by
  let noted := fun name => (catalog.note? name).isSome
  have kept := (catalog.eraseDups_sublist_lookups names).filter noted
  have lengths := congrArg List.length same
  rw [List.length_filterMap_eq_countP, List.length_filterMap_eq_countP,
    List.countP_eq_length_filter, List.countP_eq_length_filter] at lengths
  have isNoted : noted name = true := isSome_note?_iff.mpr (by simp [unmatched])
  calc names.count name
    _ = (catalog.lookups names).count name := by simp [count_lookups, unmatched]
    _ = ((catalog.lookups names).filter noted).count name := (List.count_filter isNoted).symm
    _ = (names.eraseDups.filter noted).count name := by rw [kept.eq_of_length lengths.symm]
    _ = names.eraseDups.count name := List.count_filter isNoted
    _ ≤ 1 := List.nodup_iff_count.mp (nodup_eraseDups names) name

end Catalog

namespace MatchTable

theorem AnswersFor.asks_eq {catalog : Catalog} {table : MatchTable} {names : List String}
    (answers : table.AnswersFor catalog names) (name : String) :
    catalog.asks names name = !table.contains name := by
  have known : table.contains name = (names.contains name && !(catalog.candidates name).isEmpty) := by
    rw [Bool.eq_iff_iff, answers.contains_iff]
    simp
  rw [known, Catalog.asks, Bool.not_and, Bool.not_not, Bool.or_comm]

theorem log_add (catalog : Catalog) (table : MatchTable) (name : String) :
    (add catalog table name).log =
      if table.contains name then [] else (catalog.note? name).toList := by
  unfold add Catalog.note?
  split
  · rfl
  · cases catalog.candidates name with
    | nil => rfl
    | cons first others => cases others <;> rfl

theorem log_build (catalog : Catalog) (names : List String) :
    (build catalog names).log = (catalog.lookups names).filterMap catalog.note? := by
  induction names using List.reverseRecOn with
  | nil => rfl
  | append_singleton names name ih =>
      have answers := answersFor_build catalog names
      rw [build, Logged.log_foldlM_concat, ← build, ih, log_add, Catalog.lookups_concat,
        List.filterMap_append, answers.asks_eq]
      cases (build catalog names).value.contains name with
      | true => rfl
      | false => cases noted : catalog.note? name <;> simp [noted]

end MatchTable

end Telling

namespace MatchTable

/--
A table is the catalog's own answers to the names that were asked for, without those that have no
file. So it does not depend on the order or the repeats of the names.
-/
theorem build_agrees_with_candidates (files : List RuleFile) (names : List String) :
    let catalog := Catalog.ofRuleFiles files
    let table := (build catalog names).value
    (∀ name, table.get? name =
        if name ∈ names ∧ catalog.candidates name ≠ [] then some (catalog.candidates name)
        else none) ∧
      (∀ name, table.contains name = true ↔ name ∈ names ∧ catalog.candidates name ≠ []) ∧
      (∀ name, table.files name = if name ∈ names then catalog.candidates name else []) ∧
      table.size = (names.toFinset.filter fun name => catalog.candidates name ≠ []).card ∧
      (table.isEmpty = true ↔ ∀ name ∈ names, catalog.candidates name = []) ∧
      ∀ others : List String, (∀ name, name ∈ others ↔ name ∈ names) →
        (build catalog others).value = table := by
  intro catalog table
  have answers : table.AnswersFor catalog names := answersFor_build catalog names
  refine ⟨answers.get?_eq, fun name => answers.contains_iff, ?_, answers.size_eq,
    answers.isEmpty_iff, ?_⟩
  · intro name
    split_ifs with asked
    · exact answers.files_eq asked
    · exact answers.files_eq_nil asked
  · intro others same
    exact ((answersFor_build catalog others).congr same).unique answers

def coreFiles : List RuleFile :=
  [⟨"/r/core.rules", none, none⟩, ⟨"/r/core_ext.rules", some "Core", none⟩]

/-- Names that differ only in case have entries of their own. -/
theorem build_agrees_with_candidates_sample :
    let catalog := Catalog.ofRuleFiles coreFiles
    let names := ["core", "missing", "CORE", "core", "core_"]
    let others := ["missing", "core_", "missing", "core", "CORE"]
    let files := ["/r/core.rules", "/r/core_ext.rules"]
    (build catalog names).value.entries =
        [("CORE", files), ("core", files), ("core_", ["/r/core_ext.rules"])] ∧
      (∀ name, name ∈ others ↔ name ∈ names) ∧
      (build catalog others).value = (build catalog names).value := by
  intro catalog names others files
  have entries : (build catalog names).value.entries =
      [("CORE", files), ("core", files), ("core_", ["/r/core_ext.rules"])] := by decide +kernel
  have same : ∀ name, name ∈ others ↔ name ∈ names := by
    intro name
    simp only [names, others, List.mem_cons, List.not_mem_nil, or_false]
    grind
  obtain ⟨_, _, _, _, _, alike⟩ := build_agrees_with_candidates coreFiles names
  exact ⟨entries, same, alike others same⟩

/--
The names that are looked up are all that are asked for, those with files once and the others each
time that they come, and what is told is what each lookup leaves. So every name is told of once, if it
is to be told of at all, exactly if no name without files is repeated. Records are counted by name
and not by text, for two names can leave the same text.
-/
theorem build_notes_names_once_iff (files : List RuleFile) (names : List String) :
    let catalog := Catalog.ofRuleFiles files
    let log := (build catalog names).log
    log = (catalog.lookups names).filterMap catalog.note? ∧
      (∀ name, (catalog.lookups names).count name =
        if (catalog.candidates name).isEmpty then names.count name
        else min 1 (names.count name)) ∧
      (∀ name, (catalog.note? name).isSome = true ↔ (catalog.candidates name).length ≠ 1) ∧
      (log = names.eraseDups.filterMap catalog.note? ↔
        ∀ name, catalog.candidates name = [] → names.count name ≤ 1) := by
  intro catalog log
  have told : log = (catalog.lookups names).filterMap catalog.note? := log_build catalog names
  refine ⟨told, catalog.count_lookups names, fun name => Catalog.isSome_note?_iff, ?_⟩
  rw [told]
  refine ⟨fun same name => Catalog.count_le_one_of_filterMap_lookups same, fun once => ?_⟩
  rw [Catalog.lookups_eq_eraseDups once]

/-- The name without files is reported twice, the ambiguous one only once. -/
theorem build_notes_unmatched_name_again :
    (build (Catalog.ofRuleFiles coreFiles) ["core", "missing", "core", "missing"]).log =
      [⟨.debug, .matching, "core is ambiguous: 2 candidate files"⟩,
        ⟨.debug, .matching, "No rule file matches missing"⟩,
        ⟨.debug, .matching, "No rule file matches missing"⟩] := by
  decide +kernel

end MatchTable

end RuleSurvey
