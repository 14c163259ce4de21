import RuleSurvey.Proofs.Path

namespace RuleSurvey.Path

/-!
Normal forms of paths. Settling puts one step after the other on a stack of kept steps, so a stretch
of steps may be settled by itself before it is put on what is kept already. Normalising twice then
changes nothing, and the normal forms of two paths determine that of the one joined from them.
-/

/-- The shapes of a normal form: the place itself, names from the root on, or names behind some steps up. -/
inductive IsNormal : Path → Prop
  | here : IsNormal ⟨Path.here⟩
  | absolute (names : List (List UInt8)) (named : ∀ name ∈ names, IsName name) :
      IsNormal (ofSteps true names)
  | relative (climbs : Nat) (names : List (List UInt8)) (named : ∀ name ∈ names, IsName name)
      (nonempty : List.replicate climbs up ++ names ≠ []) :
      IsNormal (ofSteps false (List.replicate climbs up ++ names))

/-- What is kept after one more step, the last one first. -/
def push (absolute : Bool) (kept : List (List UInt8)) (step : List UInt8) : List (List UInt8) :=
  if step = up then
    match kept with
    | [] => if absolute then [] else [up]
    | last :: before => if last = up then up :: last :: before else before
  else step :: kept

section Settling

variable {absolute : Bool} {step last : List UInt8} {kept names before steps : List (List UInt8)}

theorem push_of_ne_up (descends : step ≠ up) : push absolute kept step = step :: kept := by
  simp [push, descends]

theorem push_up_of_ne_up (descends : last ≠ up) : push absolute (last :: before) up = before := by
  simp [push, descends]

theorem push_up_up : push absolute (up :: before) up = up :: up :: before := by
  simp [push]

theorem push_up_climbs (climbs : Nat) :
    push false (List.replicate climbs up) up = List.replicate (climbs + 1) up := by
  cases climbs with
  | zero => rfl
  | succ climbs => exact push_up_up

theorem settle_nil : settle absolute kept [] = kept.reverse := by
  rw [settle.eq_def]

theorem settle_cons : settle absolute kept (step :: steps) =
    settle absolute (push absolute kept step) steps := by
  rw [settle.eq_def]
  by_cases climbs : step = up
  · cases kept with
    | nil => simp [push, climbs]
    | cons last before => by_cases again : last = up <;> simp [push, climbs, again]
  · simp [push, climbs]

theorem settle_eq_foldl :
    settle absolute kept steps = (steps.foldl (push absolute) kept).reverse := by
  induction steps generalizing kept with
  | nil => rw [settle_nil, List.foldl_nil]
  | cons step rest ih => rw [settle_cons, ih, List.foldl_cons]

theorem reverse_settle :
    (settle absolute kept steps).reverse = steps.foldl (push absolute) kept := by
  rw [settle_eq_foldl, List.reverse_reverse]

theorem settle_append (front : List (List UInt8)) :
    settle absolute kept (front ++ steps) =
      settle absolute (settle absolute kept front).reverse steps := by
  rw [reverse_settle, settle_eq_foldl, settle_eq_foldl, List.foldl_append]

/-- Keeping a step and then putting all that is kept on a stack puts that step on it last. -/
theorem foldl_push_reverse_push (stack : List (List UInt8)) :
    (push false kept step).reverse.foldl (push absolute) stack =
      push absolute (kept.reverse.foldl (push absolute) stack) step := by
  by_cases climbs : step = up
  · subst climbs
    cases kept with
    | nil => rfl
    | cons last before =>
        by_cases again : last = up
        · rw [again, push_up_up, List.reverse_cons, List.foldl_append]
          rfl
        · rw [push_up_of_ne_up again, List.reverse_cons, List.foldl_append, List.foldl_cons,
            List.foldl_nil, push_of_ne_up again, push_up_of_ne_up again]
  · rw [push_of_ne_up climbs, List.reverse_cons, List.foldl_append]
    rfl

/-- Steps that are settled by themselves leave any stack as the steps that were settled do. -/
theorem foldl_push_settle (stack : List (List UInt8)) :
    (settle false kept steps).foldl (push absolute) stack =
      steps.foldl (push absolute) (kept.reverse.foldl (push absolute) stack) := by
  induction steps generalizing kept with
  | nil => rw [settle_nil, List.foldl_nil]
  | cons step rest ih => rw [settle_cons, ih, foldl_push_reverse_push, List.foldl_cons]

theorem settle_settle_false (steps : List (List UInt8)) :
    settle absolute kept (settle false [] steps) = settle absolute kept steps := by
  rw [settle_eq_foldl, foldl_push_settle, settle_eq_foldl]
  rfl

theorem settle_settle (absolute : Bool) (proper : ∀ step ∈ steps, IsStep step) :
    settle absolute [] (settle absolute [] steps) = settle absolute [] steps := by
  cases absolute with
  | false => exact settle_settle_false steps
  | true =>
      have named : ∀ name ∈ settle true [] steps, IsName name :=
        fun name member => isName_of_mem_settle (by simp) proper member
      exact settle_of_names named

theorem reverse_push_sublist :
    (push absolute kept step).reverse.Sublist (kept.reverse ++ [step]) := by
  by_cases climbs : step = up
  · subst climbs
    cases kept with
    | nil => cases absolute <;> simp [push]
    | cons last before =>
        by_cases again : last = up
        · rw [again, push_up_up, List.reverse_cons]
        · rw [push_up_of_ne_up again, List.reverse_cons, List.append_assoc]
          exact List.sublist_append_left _ _
  · rw [push_of_ne_up climbs, List.reverse_cons]

theorem settle_sublist (absolute : Bool) (kept steps : List (List UInt8)) :
    (settle absolute kept steps).Sublist (kept.reverse ++ steps) := by
  induction steps generalizing kept with
  | nil => rw [settle_nil, List.append_nil]
  | cons step rest ih =>
      rw [settle_cons, List.append_cons]
      exact (ih _).trans (reverse_push_sublist.append_right rest)

/-- Names stand on top of steps up. -/
def IsSettled (kept : List (List UInt8)) : Prop :=
  ∃ names climbs, (∀ name ∈ names, IsName name) ∧ kept = names ++ List.replicate climbs up

theorem IsSettled.push (settled : IsSettled kept) (proper : IsStep step) :
    IsSettled (push false kept step) := by
  obtain ⟨names, climbs, named, same⟩ := settled
  subst same
  cases proper with
  | inr name =>
      rw [push_of_ne_up name.descends]
      exact ⟨step :: names, climbs, List.forall_mem_cons.mpr ⟨name, named⟩, rfl⟩
  | inl climb =>
      subst climb
      cases names with
      | nil => exact ⟨[], climbs + 1, by simp, push_up_climbs climbs⟩
      | cons name rest =>
          obtain ⟨first, others⟩ := List.forall_mem_cons.mp named
          exact ⟨rest, climbs, others, push_up_of_ne_up first.descends⟩

theorem IsSettled.foldl (settled : IsSettled kept) (proper : ∀ step ∈ steps, IsStep step) :
    IsSettled (steps.foldl (Path.push false) kept) := by
  induction steps generalizing kept with
  | nil => exact settled
  | cons step rest ih =>
      obtain ⟨first, others⟩ := List.forall_mem_cons.mp proper
      exact ih (settled.push first) others

theorem exists_settle_false (proper : ∀ step ∈ steps, IsStep step) :
    ∃ climbs names, (∀ name ∈ names, IsName name) ∧
      settle false [] steps = List.replicate climbs up ++ names := by
  have empty : IsSettled [] := ⟨[], 0, by simp, rfl⟩
  obtain ⟨names, climbs, named, same⟩ := empty.foldl proper
  refine ⟨climbs, names.reverse, fun name member => named name (List.mem_reverse.mp member), ?_⟩
  rw [settle_eq_foldl, same, List.reverse_append, List.reverse_replicate]

theorem settle_climbs (climbs : Nat) :
    settle false [] (List.replicate climbs up) = List.replicate climbs up := by
  induction climbs with
  | zero => exact settle_nil
  | succ climbs ih =>
      rw [List.replicate_succ', settle_append, ih, List.reverse_replicate, settle_cons,
        push_up_climbs, settle_nil, List.reverse_replicate, List.replicate_succ']

theorem settle_climbs_append (climbs : Nat) (named : ∀ name ∈ names, IsName name) :
    settle false [] (List.replicate climbs up ++ names) = List.replicate climbs up ++ names := by
  rw [settle_append, settle_climbs, settle_of_names named, List.reverse_reverse]

end Settling

section Normalizing

variable {path base : Path}

theorem isStep_of_mem_settle_steps (path : Path) :
    ∀ step ∈ settle path.isAbsolute [] path.steps, IsStep step :=
  fun _ member => isStep_of_mem_steps ((settle_sublist _ [] path.steps).subset member)

theorem normalize_congr (starts : path.isAbsolute = base.isAbsolute)
    (same : settle path.isAbsolute [] path.steps = settle base.isAbsolute [] base.steps) :
    path.normalize = base.normalize := by
  rw [Path.normalize, Path.normalize, same, starts]

theorem normalize_cases (path : Path) :
    path.isAbsolute = false ∧ settle false [] path.steps = [] ∧ path.normalize = ⟨here⟩ ∨
      (path.isAbsolute = true ∨ settle false [] path.steps ≠ []) ∧
        path.normalize = ofSteps path.isAbsolute (settle path.isAbsolute [] path.steps) := by
  cases starts : path.isAbsolute with
  | true =>
      right
      exact ⟨.inl rfl, normalize_of_isAbsolute starts⟩
  | false =>
      by_cases empty : settle false [] path.steps = []
      · left
        exact ⟨rfl, empty, by simp [Path.normalize, starts, empty]⟩
      · right
        exact ⟨.inr empty, by simp [Path.normalize, starts, empty]⟩

theorem isAbsolute_normalize (path : Path) : path.normalize.isAbsolute = path.isAbsolute := by
  obtain ⟨starts, _, same⟩ | ⟨_, same⟩ := normalize_cases path
  · rw [same, starts]
    rfl
  · rw [same, isAbsolute_ofSteps _ (isStep_of_mem_settle_steps path)]

theorem steps_normalize (path : Path) :
    path.normalize.steps = settle path.isAbsolute [] path.steps := by
  obtain ⟨starts, empty, same⟩ | ⟨_, same⟩ := normalize_cases path
  · rw [same, starts, empty]
    rfl
  · rw [same]
    exact steps_ofSteps _ (isStep_of_mem_settle_steps path)

theorem isNormal_normalize (path : Path) : path.normalize.IsNormal := by
  obtain ⟨_, _, same⟩ | ⟨starts, same⟩ := normalize_cases path
  · exact same ▸ .here
  · rw [same]
    cases absolute : path.isAbsolute with
    | true =>
        refine .absolute _ fun name member => ?_
        exact isName_of_mem_settle (by simp) (fun step => isStep_of_mem_steps) member
    | false =>
        rw [absolute] at starts
        have proper : ∀ step ∈ path.steps, IsStep step := fun step => isStep_of_mem_steps
        obtain ⟨climbs, names, named, shape⟩ := exists_settle_false proper
        have nonempty := starts.resolve_left Bool.false_ne_true
        rw [shape] at nonempty ⊢
        exact .relative climbs names named nonempty

theorem normalize_normalize (path : Path) : path.normalize.normalize = path.normalize := by
  apply normalize_congr (isAbsolute_normalize path)
  rw [steps_normalize, isAbsolute_normalize]
  exact settle_settle _ fun step => isStep_of_mem_steps

theorem IsNormal.normalize (normal : path.IsNormal) : path.normalize = path := by
  cases normal with
  | here => rfl
  | absolute names named => exact IsPlain.normalize ⟨names, named, rfl⟩
  | relative climbs names named nonempty =>
      have proper : ∀ step ∈ List.replicate climbs up ++ names, IsStep step := by
        intro step member
        cases List.mem_append.mp member with
        | inl climb => exact .inl (List.eq_of_mem_replicate climb)
        | inr name => exact .inr (named step name)
      have starts := isAbsolute_ofSteps false proper
      rw [Path.normalize, starts, steps_ofSteps false proper, settle_climbs_append climbs named]
      simp [nonempty]

theorem isNormal_iff : path.IsNormal ↔ path.normalize = path :=
  ⟨IsNormal.normalize, fun fixed => fixed ▸ isNormal_normalize path⟩

theorem steps_join (relative : path.isAbsolute = false) :
    (base.join path).steps = base.steps ++ path.steps := by
  rw [join, relative]
  by_cases empty : base.bytes = []
  · rw [if_pos (by simp [empty])]
    have none : base.steps = [] := by rw [Path.steps, empty]; rfl
    rw [none, List.nil_append]
  · rw [if_neg (by simp [empty])]
    split
    · rename_i ends
      -- The separator that the base brings leaves an empty piece behind it, which is no step.
      obtain ⟨front, same⟩ := List.getLast?_eq_some_iff.mp ends
      have own : base.steps = Path.steps ⟨front⟩ := by
        have cut := steps_append front []
        rw [← same] at cut
        exact cut.trans (List.append_nil _)
      rw [own, same, List.append_assoc]
      exact steps_append front path.bytes
    · exact steps_append base.bytes path.bytes

theorem join_of_isAbsolute (absolute : path.isAbsolute = true) : base.join path = path := by
  simp [join, absolute]

theorem normalize_join (base path : Path) :
    (base.join path).normalize = (base.normalize.join path.normalize).normalize := by
  have sameStart := isAbsolute_normalize path
  cases starts : path.isAbsolute with
  | true =>
      rw [starts] at sameStart
      rw [join_of_isAbsolute starts, join_of_isAbsolute sameStart, normalize_normalize]
  | false =>
      rw [starts] at sameStart
      have left : (base.join path).isAbsolute = base.isAbsolute := by
        rw [isAbsolute_join, starts, Bool.false_or]
      have right : (base.normalize.join path.normalize).isAbsolute = base.isAbsolute := by
        rw [isAbsolute_join, sameStart, Bool.false_or, isAbsolute_normalize]
      apply normalize_congr (left.trans right.symm)
      rw [left, right, steps_join starts, steps_join sameStart, steps_normalize, steps_normalize,
        starts, settle_append, settle_append, settle_settle_false,
        settle_settle _ fun step => isStep_of_mem_steps]

end Normalizing

/--
Normalising gives one of the three shapes, keeps where a path starts, and changes nothing when done
again; the paths of these shapes are those that it leaves as they are. What a joined path comes to
depends only on what its parts come to.
-/
theorem normalize_shape_and_congruence :
    (∀ path : Path, path.normalize.IsNormal ∧
      (path.normalize.isAbsolute = true ↔ path.isAbsolute = true) ∧
      path.normalize.normalize = path.normalize ∧ (path.IsNormal ↔ path.normalize = path)) ∧
    ∀ base path : Path,
      (base.join path).normalize = (base.normalize.join path.normalize).normalize := by
  refine ⟨fun path => ⟨isNormal_normalize path, ?_, normalize_normalize path, isNormal_iff⟩,
    normalize_join⟩
  rw [isAbsolute_normalize]

end RuleSurvey.Path
