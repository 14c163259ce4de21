import RuleSurvey.Sorted
import Mathlib.Data.List.Basic
import Mathlib.Data.List.Induction

namespace RuleSurvey

/-!
How lists of a report are ordered. Some keep the order in which their items are first seen in
another list, some are in ascending order; both show each item once, so either order and the members
together leave no choice.
-/

section

variable {α : Type} [DecidableEq α]

/--
`shown` lists those of the items that have a property, each once, and an item before another if its
first occurrence comes before that of the other.
-/
structure FirstSeen (items : List α) (keep : α → Prop) (shown : List α) : Prop where
  mem_iff : ∀ item, item ∈ shown ↔ item ∈ items ∧ keep item
  ordered : shown.Pairwise fun first second => items.idxOf first < items.idxOf second

/-- Leaving items out does not change which of two others comes first. -/
theorem idxOf_lt_of_filter {keep : α → Bool} {items : List α} {first second : α}
    (keepSecond : keep second = true)
    (before : (items.filter keep).idxOf first < (items.filter keep).idxOf second) :
    items.idxOf first < items.idxOf second := by
  induction items with
  | nil => simp at before
  | cons item rest ih =>
      by_cases isFirst : item = first
      · subst item
        have different : first ≠ second := by
          intro same
          rw [same] at before
          exact Nat.lt_irrefl _ before
        rw [List.idxOf_cons_self, List.idxOf_cons_ne _ different]
        exact Nat.succ_pos _
      · by_cases isSecond : item = second
        · subst item
          simp [keepSecond] at before
        · rw [List.idxOf_cons_ne _ isFirst, List.idxOf_cons_ne _ isSecond]
          apply Nat.succ_lt_succ
          apply ih
          cases kept : keep item with
          | false => simpa [kept] using before
          | true =>
              rw [List.filter_cons_of_pos kept, List.idxOf_cons_ne _ isFirst,
                List.idxOf_cons_ne _ isSecond] at before
              exact Nat.lt_of_succ_lt_succ before

theorem ordered_eraseDups (items : List α) :
    items.eraseDups.Pairwise fun first second => items.idxOf first < items.idxOf second := by
  cases items with
  | nil => simp
  | cons item rest =>
      rw [List.eraseDups_cons, List.pairwise_cons]
      have later : ∀ other ∈ (rest.filter fun other => !other == item).eraseDups,
          item ≠ other := by
        intro other member same
        rw [List.mem_eraseDups, List.mem_filter] at member
        simp [same] at member
      constructor
      · intro other member
        rw [List.idxOf_cons_self, List.idxOf_cons_ne _ (later other member)]
        exact Nat.succ_pos _
      · refine (ordered_eraseDups _).imp_of_mem fun {first second} memberFirst memberSecond before => ?_
        have firstLater := later first memberFirst
        have secondLater := later second memberSecond
        rw [List.idxOf_cons_ne _ firstLater, List.idxOf_cons_ne _ secondLater]
        exact Nat.succ_lt_succ (idxOf_lt_of_filter (by simpa using secondLater.symm) before)
termination_by items.length
decreasing_by exact Nat.lt_succ_of_le (List.length_filter_le _ _)

theorem nodup_eraseDups (items : List α) : items.eraseDups.Nodup := by
  refine (ordered_eraseDups items).imp ?_
  intro first second before same
  rw [same] at before
  exact Nat.lt_irrefl _ before

theorem firstSeen_filter_eraseDups (items : List α) (keep : α → Bool) :
    FirstSeen items (fun item => keep item = true) (items.eraseDups.filter keep) where
  mem_iff item := by simp
  ordered := (ordered_eraseDups items).filter keep

theorem FirstSeen.congr {items shown : List α} {keep other : α → Prop}
    (listed : FirstSeen items keep shown) (same : ∀ item ∈ items, keep item ↔ other item) :
    FirstSeen items other shown where
  mem_iff item := by
    rw [listed.mem_iff]
    exact and_congr_right (same item)
  ordered := listed.ordered

theorem eraseDups_sublist (items : List α) : items.eraseDups.Sublist items := by
  cases items with
  | nil => simp
  | cons item rest =>
      rw [List.eraseDups_cons]
      exact ((eraseDups_sublist _).trans List.filter_sublist).cons_cons item
termination_by items.length
decreasing_by exact Nat.lt_succ_of_le (List.length_filter_le _ _)

theorem eraseDups_of_nodup {items : List α} (distinct : items.Nodup) : items.eraseDups = items := by
  induction items with
  | nil => rfl
  | cons item rest ih =>
      obtain ⟨absent, others⟩ := List.nodup_cons.mp distinct
      have kept : (rest.filter fun other => !other == item) = rest := by
        rw [List.filter_eq_self]
        intro other member
        have different : other ≠ item := fun same => absent (same ▸ member)
        simpa using different
      rw [List.eraseDups_cons, kept, ih others]

theorem eraseDups_concat (items : List α) (item : α) :
    (items ++ [item]).eraseDups =
      if item ∈ items then items.eraseDups else items.eraseDups ++ [item] := by
  rw [List.eraseDups_append]
  by_cases known : item ∈ items <;> simp [List.removeAll, List.eraseDups_cons, known]

/-- Items that stay different are dropped as repeats in either order of work. -/
theorem filterMap_eraseDups {β : Type} [DecidableEq β] {part : α → Option β}
    (injective : ∀ first second value, part first = some value → part second = some value →
      first = second)
    (items : List α) : items.eraseDups.filterMap part = (items.filterMap part).eraseDups := by
  induction items using List.reverseRecOn with
  | nil => simp
  | append_singleton items item ih =>
      cases kept : part item with
      | none =>
          rw [eraseDups_concat]
          split <;> simp [kept, ih]
      | some value =>
          have known : value ∈ items.filterMap part ↔ item ∈ items := by
            rw [List.mem_filterMap]
            constructor
            · intro found
              obtain ⟨other, member, same⟩ := found
              exact injective other item value same kept ▸ member
            · exact fun member => ⟨item, member, kept⟩
          rw [eraseDups_concat, List.filterMap_append, List.filterMap_cons_some kept,
            List.filterMap_nil, eraseDups_concat]
          simp only [known]
          split <;> simp [kept, ih]

end

section

variable {α κ : Type} [LT κ] [DecidableEq κ]

/-- In ascending order, looking for a key finds every item that has it. -/
theorem find?_eq_some_iff_mem {key : α → κ} {items : List α}
    (irreflexive : ∀ a : κ, ¬ a < a) (ascending : Ascending key items) {wanted : κ} {item : α} :
    items.find? (fun other => key other == wanted) = some item ↔
      item ∈ items ∧ key item = wanted := by
  induction items with
  | nil => simp
  | cons first rest ih =>
      have ⟨below, sorted⟩ := List.pairwise_cons.mp ascending
      by_cases isFirst : key first = wanted
      · have onlyFirst : ∀ other ∈ rest, key other ≠ wanted := by
          intro other member same
          have less := below other member
          rw [isFirst, same] at less
          exact irreflexive wanted less
        rw [List.find?_cons_of_pos (by simpa using isFirst), Option.some.injEq, List.mem_cons]
        constructor
        · intro same
          subst item
          exact ⟨.inl rfl, isFirst⟩
        · intro found
          obtain ⟨rfl | member, same⟩ := found
          · rfl
          · exact absurd same (onlyFirst item member)
      · rw [List.find?_cons_of_neg (by simpa using isFirst), ih sorted, List.mem_cons]
        constructor
        · intro found
          exact ⟨.inr found.1, found.2⟩
        · intro found
          obtain ⟨rfl | member, same⟩ := found
          · exact absurd same isFirst
          · exact ⟨member, same⟩

variable [DecidableLT κ]

/-- An insertion is found under its own key, and what is found under any other key stays the same. -/
theorem find?_insertBy (key : α → κ) (item : α) (items : List α) (wanted : κ) :
    (insertBy key item items).find? (fun other => key other == wanted) =
      if key item = wanted then some item
      else items.find? (fun other => key other == wanted) := by
  induction items with
  | nil => by_cases same : key item = wanted <;> simp [insertBy, same]
  | cons first rest ih =>
      unfold insertBy
      split
      · by_cases same : key item = wanted <;> simp [same]
      · split
        · rename_i replaced
          by_cases same : key item = wanted
          · simp [same]
          · simp [same, ← replaced]
        · rename_i different
          by_cases isFirst : key first = wanted
          · have other : key item ≠ wanted := fun same => different (same.trans isFirst.symm)
            simp [isFirst, other]
          · simp [isFirst, ih]

/-- An item above all others goes to the end. -/
theorem insertBy_eq_append {key : α → κ} {item : α} {items : List α}
    (asymm : ∀ {a b : κ}, a < b → ¬ b < a) (above : ∀ other ∈ items, key other < key item) :
    insertBy key item items = items ++ [item] := by
  induction items with
  | nil => rfl
  | cons first rest ih =>
      obtain ⟨less, others⟩ := List.forall_mem_cons.mp above
      have different : key item ≠ key first := fun same => asymm less (same ▸ less)
      rw [insertBy, if_neg (asymm less), if_neg different, ih others, List.cons_append]

theorem mem_insertBy_id {item other : κ} {items : List κ} :
    other ∈ insertBy id item items ↔ other = item ∨ other ∈ items := by
  constructor
  · exact mem_insertBy
  · intro member
    induction items with
    | nil => simpa [insertBy] using member
    | cons first rest ih =>
        unfold insertBy
        split
        · simpa using member
        · split
          · rename_i same
            rcases member with rfl | member
            · exact List.mem_cons_self
            · rw [id, id] at same
              rwa [same]
          · rcases member with rfl | member
            · exact List.mem_cons_of_mem _ (ih (.inl rfl))
            · rcases List.mem_cons.mp member with rfl | member
              · exact List.mem_cons_self
              · exact List.mem_cons_of_mem _ (ih (.inr member))

theorem mem_sortBy_id {item : κ} {items : List κ} : item ∈ sortBy id items ↔ item ∈ items := by
  induction items with
  | nil => simp [sortBy]
  | cons first rest ih =>
      rw [sortBy, List.foldr_cons, mem_insertBy_id, List.mem_cons]
      exact or_congr_right ih

theorem mem_of_mem_sortBy {key : α → κ} {item : α} {items : List α}
    (member : item ∈ sortBy key items) : item ∈ items := by
  induction items with
  | nil => exact member
  | cons first rest ih =>
      cases mem_insertBy member with
      | inl same => exact same ▸ List.mem_cons_self
      | inr later => exact List.mem_cons_of_mem _ (ih later)

/-- Sorting keeps, of the items with one key, the first. -/
theorem find?_sortBy (key : α → κ) (items : List α) (wanted : κ) :
    (sortBy key items).find? (fun other => key other == wanted) =
      items.find? fun other => key other == wanted := by
  induction items with
  | nil => rfl
  | cons item rest ih =>
      rw [sortBy, List.foldr_cons, find?_insertBy, ← sortBy, ih]
      by_cases same : key item = wanted <;> simp [same]

theorem insertBy_map {β : Type} (key : α → κ) (change : β → α) (item : β) (items : List β) :
    insertBy key (change item) (items.map change) =
      (insertBy (fun other => key (change other)) item items).map change := by
  induction items with
  | nil => rfl
  | cons first rest ih =>
      simp only [List.map_cons, insertBy, ih]
      split
      · rfl
      · split <;> rfl

theorem sortBy_map {β : Type} (key : α → κ) (change : β → α) (items : List β) :
    sortBy key (items.map change) =
      (sortBy (fun other => key (change other)) items).map change := by
  induction items with
  | nil => rfl
  | cons item rest ih =>
      rw [List.map_cons, sortBy, List.foldr_cons, ← sortBy, ih, insertBy_map]
      rfl

theorem ascending_sortBy {key : α → κ}
    (trans : ∀ {a b c : κ}, a < b → b < c → a < c)
    (trichotomy : ∀ {a b : κ}, ¬ a < b → a ≠ b → b < a) (items : List α) :
    Ascending key (sortBy key items) := by
  induction items with
  | nil => exact .nil
  | cons item rest ih => exact ih.insertBy trans trichotomy

theorem mem_sortBy_iff {key : α → κ} (irreflexive : ∀ a : κ, ¬ a < a)
    (trans : ∀ {a b c : κ}, a < b → b < c → a < c)
    (trichotomy : ∀ {a b : κ}, ¬ a < b → a ≠ b → b < a) {item : α} {items : List α} :
    item ∈ sortBy key items ↔ items.find? (fun other => key other == key item) = some item := by
  rw [← find?_sortBy, find?_eq_some_iff_mem irreflexive (ascending_sortBy trans trichotomy items)]
  exact (and_iff_left rfl).symm

end

end RuleSurvey
