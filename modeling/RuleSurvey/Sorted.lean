namespace RuleSurvey

/-!
Lists kept in strictly ascending order of a key. Each key occurs once: what is inserted replaces what
had its key, so of several items with one key that are sorted together the first is kept.
-/

section

variable {α κ : Type} [LT κ] [DecidableLT κ] [DecidableEq κ]

def insertBy (key : α → κ) (item : α) : List α → List α
  | [] => [item]
  | other :: rest =>
      if key item < key other then item :: other :: rest
      else if key item = key other then item :: rest
      else other :: insertBy key item rest

def sortBy (key : α → κ) (items : List α) : List α :=
  items.foldr (insertBy key) []

def Ascending (key : α → κ) (items : List α) : Prop :=
  items.Pairwise fun first second => key first < key second

theorem mem_insertBy {key : α → κ} {item other : α} {items : List α}
    (member : other ∈ insertBy key item items) : other = item ∨ other ∈ items := by
  induction items with
  | nil => simpa [insertBy] using member
  | cons first rest ih =>
      unfold insertBy at member
      split at member
      · simpa using member
      · split at member
        · rcases List.mem_cons.mp member with rfl | member
          · exact .inl rfl
          · exact .inr (List.mem_cons_of_mem _ member)
        · rcases List.mem_cons.mp member with rfl | member
          · exact .inr List.mem_cons_self
          · exact (ih member).imp_right (List.mem_cons_of_mem _)

theorem Ascending.insertBy {key : α → κ} {item : α} {items : List α}
    (trans : ∀ {a b c : κ}, a < b → b < c → a < c)
    (trichotomy : ∀ {a b : κ}, ¬ a < b → a ≠ b → b < a)
    (ascending : Ascending key items) : Ascending key (insertBy key item items) := by
  induction items with
  | nil => simp [RuleSurvey.insertBy, Ascending]
  | cons first rest ih =>
      have ⟨below, sorted⟩ := List.pairwise_cons.mp ascending
      unfold RuleSurvey.insertBy
      split
      · rename_i less
        refine List.pairwise_cons.mpr ⟨fun other member => ?_, ascending⟩
        rcases List.mem_cons.mp member with rfl | member
        · exact less
        · exact trans less (below other member)
      · rename_i notLess
        split
        · rename_i same
          exact List.pairwise_cons.mpr ⟨fun other member => same ▸ below other member, sorted⟩
        · rename_i different
          refine List.pairwise_cons.mpr ⟨fun other member => ?_, ih sorted⟩
          rcases mem_insertBy member with rfl | member
          · exact trichotomy notLess different
          · exact below other member

end

end RuleSurvey
