import RuleSurvey.Matching
import RuleSurvey.Proofs.Listing

namespace RuleSurvey

/-!
The files behind a name, and the table in which a survey keeps them. The table has no answers of its
own: what it holds for a name is what the catalog says of it, and it leaves out the names of which
the catalog knows nothing. So for the names from which it was built the two can be asked alike.
-/

/--
A file answers to every part of its file name and to its whole declared name, in any mix of cases. An
empty declared name is none.
-/
def RuleFile.AnswersTo (file : RuleFile) (name : String) : Prop :=
  Text.lowercase name.toList <:+: Candidate.baseNameOf file.path ∨
    ∃ declared, file.declaredName = some declared ∧ declared ≠ "" ∧
      Text.lowercase declared.toList = Text.lowercase name.toList

theorem Candidate.answersTo_ofRuleFile {file : RuleFile} {name : String} :
    (ofRuleFile file).answersTo (Text.lowercase name.toList) = true ↔ file.AnswersTo name := by
  have declared : (ofRuleFile file).declaredName = some (Text.lowercase name.toList) ↔
      ∃ declared, file.declaredName = some declared ∧ declared ≠ "" ∧
        Text.lowercase declared.toList = Text.lowercase name.toList := by
    simp only [ofRuleFile, Option.map_eq_some_iff, Option.filter_eq_some_iff, decide_eq_true_eq,
      and_assoc]
  rw [answersTo, Bool.or_eq_true, Text.occursIn_iff, beq_iff_eq, declared]
  rfl

namespace Catalog

theorem mem_candidates_iff {files : List RuleFile} {name path : String} :
    path ∈ (ofRuleFiles files).candidates name ↔
      ∃ file ∈ files, file.path = path ∧ file.AnswersTo name := by
  simp only [candidates, ofRuleFiles, List.mem_map, List.mem_filter]
  constructor
  · intro found
    obtain ⟨_, ⟨⟨file, member, rfl⟩, answers⟩, same⟩ := found
    exact ⟨file, member, same, Candidate.answersTo_ofRuleFile.mp answers⟩
  · intro found
    obtain ⟨file, member, same, answers⟩ := found
    exact ⟨_, ⟨⟨file, member, rfl⟩, Candidate.answersTo_ofRuleFile.mpr answers⟩, same⟩

theorem candidates_sublist (files : List RuleFile) (name : String) :
    ((ofRuleFiles files).candidates name).Sublist (files.map (·.path)) := by
  have paths : (ofRuleFiles files).map (·.path) = files.map (·.path) := by
    simp [ofRuleFiles, Candidate.ofRuleFile]
  rw [← paths]
  exact List.filter_sublist.map _

end Catalog

namespace MatchTable

theorem mem_entries_iff {table : MatchTable} {name : String} {files : List String} :
    (name, files) ∈ table.entries ↔ table.get? name = some files := by
  constructor
  · intro member
    have found := (find?_eq_some_iff_mem String.lt_irrefl table.ascending).mpr ⟨member, rfl⟩
    rw [get?, found]
    rfl
  · intro looked
    obtain ⟨entry, found, same⟩ := Option.map_eq_some_iff.mp looked
    obtain ⟨member, key⟩ := (find?_eq_some_iff_mem String.lt_irrefl table.ascending).mp found
    have whole : entry = (name, files) := Prod.ext key same
    exact whole ▸ member

theorem eq_of_entries {first second : MatchTable} (same : first.entries = second.entries) :
    first = second := by
  cases first
  cases second
  cases same
  rfl

theorem entries_foldl_insert {table : MatchTable} {later : List (String × List String)}
    (ascending : Ascending Prod.fst (table.entries ++ later)) :
    (later.foldl (fun table entry => table.insert entry.1 entry.2) table).entries =
      table.entries ++ later := by
  induction later generalizing table with
  | nil => simp
  | cons entry rest ih =>
      have above : ∀ other ∈ table.entries, other.1 < entry.1 := fun other member =>
        (List.pairwise_append.mp ascending).2.2 other member entry List.mem_cons_self
      have inserted : (table.insert entry.1 entry.2).entries = table.entries ++ [entry] :=
        insertBy_eq_append String.lt_asymm above
      have shifted : table.entries ++ entry :: rest =
          (table.insert entry.1 entry.2).entries ++ rest := by
        rw [inserted, List.append_assoc, List.singleton_append]
      rw [List.foldl_cons, shifted]
      exact ih (shifted ▸ ascending)

/-- A table is made again from its entries. -/
theorem ofList_entries (table : MatchTable) : ofList table.entries = table := by
  apply eq_of_entries
  exact entries_foldl_insert table.ascending

theorem get?_insert (table : MatchTable) (name other : String) (files : List String) :
    (table.insert name files).get? other =
      if name = other then some files else table.get? other := by
  unfold get? insert
  rw [find?_insertBy]
  split <;> rfl

/-- A table answers for names if it has the candidates of each of them that has any, and no more. -/
def AnswersFor (table : MatchTable) (catalog : Catalog) (names : List String) : Prop :=
  ∀ name files, table.get? name = some files ↔
    name ∈ names ∧ files = catalog.candidates name ∧ files ≠ []

variable {catalog : Catalog} {table : MatchTable} {names seen : List String} {name : String}

theorem AnswersFor.congr (answers : table.AnswersFor catalog seen)
    (same : ∀ name, name ∈ seen ↔ name ∈ names) : table.AnswersFor catalog names := by
  intro name files
  rw [answers, same]

theorem AnswersFor.contains_iff (answers : table.AnswersFor catalog names) :
    table.contains name = true ↔ name ∈ names ∧ catalog.candidates name ≠ [] := by
  rw [contains, Option.isSome_iff_exists]
  constructor
  · intro found
    obtain ⟨files, looked⟩ := found
    obtain ⟨member, rfl, nonempty⟩ := (answers name files).mp looked
    exact ⟨member, nonempty⟩
  · intro known
    exact ⟨_, (answers name _).mpr ⟨known.1, rfl, known.2⟩⟩

/-- On the names it was built from, a table and its catalog say the same. -/
theorem AnswersFor.files_eq (answers : table.AnswersFor catalog names) (member : name ∈ names) :
    table.files name = catalog.candidates name := by
  cases looked : table.get? name with
  | some files =>
      obtain ⟨_, same, _⟩ := (answers name files).mp looked
      rw [MatchTable.files, looked, Option.getD_some, same]
  | none =>
      have empty : catalog.candidates name = [] := by
        by_contra nonempty
        have present := (answers name _).mpr ⟨member, rfl, nonempty⟩
        rw [looked] at present
        contradiction
      rw [MatchTable.files, looked, Option.getD_none, empty]

theorem value_add (catalog : Catalog) (table : MatchTable) (name : String) :
    (add catalog table name).value =
      if table.contains name = true ∨ catalog.candidates name = [] then table
      else table.insert name (catalog.candidates name) := by
  unfold add
  split
  · rename_i present
    simp [present]
  · rename_i absent
    split
    · rename_i empty
      simp [empty]
    · rename_i files nonempty
      rw [if_neg (not_or.mpr ⟨absent, nonempty⟩)]
      dsimp only
      split <;> rfl

theorem AnswersFor.add (answers : table.AnswersFor catalog seen) (name : String) :
    (add catalog table name).value.AnswersFor catalog (name :: seen) := by
  intro other files
  rw [value_add]
  split
  · rename_i settled
    rw [answers, List.mem_cons]
    constructor
    · intro known
      exact ⟨.inr known.1, known.2⟩
    · intro known
      obtain ⟨rfl | member, same, nonempty⟩ := known
      · rw [same] at nonempty
        have present := settled.resolve_right nonempty
        exact ⟨(answers.contains_iff.mp present).1, same, same ▸ nonempty⟩
      · exact ⟨member, same, nonempty⟩
  · rename_i unsettled
    obtain ⟨_, nonempty⟩ := not_or.mp unsettled
    rw [get?_insert, List.mem_cons]
    split
    · rename_i same
      subst other
      rw [Option.some.injEq]
      constructor
      · intro same
        subst files
        exact ⟨.inl rfl, rfl, nonempty⟩
      · intro known
        exact known.2.1.symm
    · rename_i different
      rw [answers]
      constructor
      · intro known
        exact ⟨.inr known.1, known.2⟩
      · intro known
        obtain ⟨rfl | member, rest⟩ := known
        · exact absurd rfl different
        · exact ⟨member, rest⟩

theorem AnswersFor.foldlM (answers : table.AnswersFor catalog seen) (names : List String) :
    (names.foldlM (MatchTable.add catalog) table).value.AnswersFor catalog (names ++ seen) := by
  induction names generalizing table seen with
  | nil => exact answers
  | cons name rest ih =>
      rw [List.foldlM_cons, Logged.value_bind]
      apply (ih (answers.add name)).congr
      intro other
      simp only [List.mem_append, List.mem_cons]
      exact or_left_comm.trans or_assoc.symm

theorem answersFor_build (catalog : Catalog) (names : List String) :
    (build catalog names).value.AnswersFor catalog names := by
  have start : empty.AnswersFor catalog [] := by
    intro name files
    simp [get?, empty]
  simpa only [build, List.append_nil] using start.foldlM names

end MatchTable

end RuleSurvey
