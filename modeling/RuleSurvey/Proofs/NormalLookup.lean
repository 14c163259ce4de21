import RuleSurvey.Proofs.Lookup

namespace RuleSurvey

/-!
Where the normal form of a path leads. The steps that are kept so far always lead to the place that
the steps taken so far lead to: a step up undoes the step before it, if that one entered a directory
by its name. Only behind a link is the parent another one. So a path and its normal form name the same
place in every tree without links, and in any tree as long as no step up leaves a link.
-/

inductive Node.LinkFree : Node → Prop
  | file (content : List UInt8) : LinkFree (.file content)
  | directory (entries : Entries) (all : ∀ entry ∈ entries, LinkFree entry.2) :
      LinkFree (.directory entries)

def Place.LinkFree (place : Place) : Prop :=
  ∀ entry ∈ place.trail, entry.2.LinkFree

theorem Place.LinkFree.parent {place : Place} (clean : place.LinkFree) : place.parent.LinkFree := by
  unfold Place.parent
  split
  · exact fun entry member => clean entry (List.mem_of_mem_tail member)
  · exact clean

section Admissible

variable {path : Path} {absolute : Bool} {names : List (List UInt8)}

theorem Path.bytes_ofSteps_ne_nil (proper : ∀ step ∈ names, IsStep step)
    (filled : absolute = true ∨ names ≠ []) : (ofSteps absolute names).bytes ≠ [] := by
  intro empty
  cases filled with
  | inl starts =>
      rw [starts, bytes_ofSteps] at empty
      cases empty
  | inr nonempty =>
      have taken := steps_ofSteps absolute proper
      rw [steps, empty] at taken
      exact nonempty taken.symm

theorem Path.IsAdmissible.ofSteps (admissible : path.IsAdmissible)
    (fewer : names.Sublist path.steps) (filled : path.isAbsolute = true ∨ names ≠ []) :
    (Path.ofSteps path.isAbsolute names).IsAdmissible where
  noNul member := admissible.noNul ((bytes_ofSteps_sublist fewer).subset member)
  nonempty := bytes_ofSteps_ne_nil (fun _ member => isStep_of_mem_steps (fewer.subset member)) filled
  short := (bytes_ofSteps_sublist fewer).length_le.trans_lt admissible.short

theorem Path.IsAdmissible.normalize (admissible : path.IsAdmissible) :
    path.normalize.IsAdmissible := by
  obtain ⟨_, _, same⟩ | ⟨filled, same⟩ := normalize_cases path
  · rw [same]
    exact ⟨by decide, by decide, by decide⟩
  · rw [same]
    refine admissible.ofSteps (settle_sublist _ [] path.steps) ?_
    cases starts : path.isAbsolute with
    | true => exact .inl rfl
    | false => simpa [starts] using filled

end Admissible

namespace Disk

def LinkFree (disk : Disk) : Prop :=
  (Node.directory disk.root).LinkFree

/-- The last of the steps comes upon a link. -/
def EndsInLink (disk : Disk) (links : Nat) (base : Place) (steps : List (List UInt8)) : Prop :=
  ∃ front last between place name target, steps = front ++ [last] ∧
    disk.Arrives links base front between place ∧ disk.move place last = .ok (.meet name target)

/-- No step up stands behind a part of the path that comes to a link. -/
def NeverLeavesLink (disk : Disk) (path : Path) : Prop :=
  ∀ before after, path.steps = before ++ Path.up :: after → ∀ target,
    disk.nodeOrLink (Path.ofSteps path.isAbsolute before).normalize ≠ .ok (.link target)

section Settling

variable {disk : Disk} {absolute : Bool} {links between left : Nat} {base place next finish : Place}
  {step : List UInt8} {kept steps : List (List UInt8)}

theorem Arrives.push (rooted : absolute = true → base = { trail := [] })
    (moves : Path.here ∉ kept) (first : disk.Arrives links base kept.reverse between place)
    (second : disk.Arrives between place [step] left next)
    (clear : step = Path.up → ¬ disk.EndsInLink links base kept.reverse) :
    disk.Arrives links base (Path.push absolute kept step).reverse left next := by
  by_cases climbs : step = Path.up
  · subst climbs
    obtain ⟨rfl, rfl⟩ := second.of_up
    cases kept with
    | nil =>
        cases first
        cases absolute with
        | false => exact second
        | true =>
            -- The root is its own parent.
            rw [rooted rfl]
            exact .done
    | cons last before =>
        rw [List.reverse_cons] at first clear
        by_cases again : last = Path.up
        · subst again
          rw [Path.push_up_up, List.reverse_cons, List.reverse_cons]
          exact first.append second
        · rw [Path.push_up_of_ne_up again]
          obtain ⟨earlier, above, front, entered⟩ := first.exists_middle
          cases entered with
          | step moved rest =>
              cases rest
              have stays : last ≠ Path.here := fun same => moves (same ▸ List.mem_cons_self)
              rw [parent_of_move stays again moved]
              exact front
          | jump moved _ _ =>
              have link : disk.EndsInLink links base (before.reverse ++ [last]) :=
                ⟨_, _, _, _, _, _, rfl, front, moved⟩
              exact absurd link (clear rfl)
  · rw [Path.push_of_ne_up climbs, List.reverse_cons]
    exact first.append second

theorem Arrives.settle (rooted : absolute = true → base = { trail := [] })
    (keptMoves : Path.here ∉ kept) (moves : Path.here ∉ steps)
    (first : disk.Arrives links base kept.reverse between place)
    (second : disk.Arrives between place steps left finish)
    (clear : ∀ before after, steps = before ++ Path.up :: after →
      ¬ disk.EndsInLink links base (Path.settle absolute kept before)) :
    disk.Arrives links base (Path.settle absolute kept steps) left finish := by
  induction steps generalizing kept between place with
  | nil =>
      cases second
      rw [Path.settle_nil]
      exact first
  | cons step rest ih =>
      obtain ⟨middle, reached, one, others⟩ := second.exists_first
      rw [List.mem_cons, not_or] at moves
      rw [Path.settle_cons]
      refine ih ?_ moves.2 (first.push rooted keptMoves one ?_) others ?_
      · intro member
        have among := Path.reverse_push_sublist.subset (List.mem_reverse.mpr member)
        cases List.mem_append.mp among with
        | inl old => exact keptMoves (List.mem_reverse.mp old)
        | inr new => exact moves.1 (List.mem_singleton.mp new)
      · intro climbs
        have blocked := clear [] rest (by rw [climbs]; rfl)
        rwa [Path.settle_nil] at blocked
      · intro before after split
        rw [← Path.settle_cons]
        exact clear (step :: before) after (by rw [split]; rfl)

end Settling

section Finding

variable {disk : Disk} {path : Path} {base place : Place}

theorem origin_normalize (path : Path) : disk.origin path.normalize = disk.origin path := by
  rw [origin, origin, Path.isAbsolute_normalize]

theorem lookupSteps_normalize (filled : Path.settle path.isAbsolute [] path.steps ≠ []) :
    lookupSteps path.normalize = Path.settle path.isAbsolute [] path.steps := by
  obtain ⟨starts, empty, _⟩ | ⟨_, same⟩ := Path.normalize_cases path
  · rw [starts] at filled
    exact absurd empty filled
  · rw [same]
    exact lookupSteps_ofSteps _ filled (Path.isStep_of_mem_settle_steps path)

theorem lookupSteps_normalize_of_empty (empty : Path.settle path.isAbsolute [] path.steps = []) :
    lookupSteps path.normalize = [Path.here] := by
  obtain ⟨_, _, same⟩ | ⟨starts, same⟩ := Path.normalize_cases path
  · rw [same]
    rfl
  · rw [same, empty]
    cases absolute : path.isAbsolute with
    | true => rfl
    | false => simp [absolute] at starts empty; contradiction

theorem exists_link_of_endsInLink (admissible : path.IsAdmissible)
    (starts : disk.origin path = .ok base)
    (link : disk.EndsInLink linkLimit base (Path.settle path.isAbsolute [] path.steps)) :
    ∃ target, disk.nodeOrLink path.normalize = .ok (.link target) := by
  obtain ⟨front, last, between, place, name, target, split, arrives, moved⟩ := link
  have filled : Path.settle path.isAbsolute [] path.steps ≠ [] := by simp [split]
  have found : disk.find false path.normalize =
      .ok { trail := (name, .link target) :: place.trail } := by
    refine find_eq_ok_iff.mpr ⟨admissible.normalize, base, origin_normalize path ▸ starts, ?_⟩
    rw [lookupSteps_normalize filled, split, arrives.walk_append (.inr (List.cons_ne_nil _ _)),
      walk_last_link moved]
  exact ⟨target, by rw [nodeOrLink, found]; rfl⟩

theorem NeverLeavesLink.not_endsInLink (clear : disk.NeverLeavesLink path)
    (admissible : path.IsAdmissible) (starts : disk.origin path = .ok base)
    {before after : List (List UInt8)} (split : path.steps = before ++ Path.up :: after) :
    ¬ disk.EndsInLink linkLimit base (Path.settle path.isAbsolute [] before) := by
  intro link
  have among : before.Sublist path.steps := split ▸ List.sublist_append_left before _
  have proper : ∀ step ∈ before, Path.IsStep step :=
    fun step member => Path.isStep_of_mem_steps (among.subset member)
  have filled : before ≠ [] := by
    intro empty
    obtain ⟨front, last, _, _, _, _, same, _⟩ := link
    rw [empty, Path.settle_nil] at same
    simp at same
  have front := admissible.ofSteps among (.inr filled)
  have absolute := Path.isAbsolute_ofSteps path.isAbsolute proper
  obtain ⟨target, found⟩ := exists_link_of_endsInLink front
    (by rw [origin, absolute]; exact starts)
    (by rw [absolute, Path.steps_ofSteps _ proper]; exact link)
  exact clear before after split target found

theorem Arrives.exists_directory {links left : Nat} {steps : List (List UInt8)}
    (arrives : disk.Arrives links base steps left place) (nonempty : steps ≠ []) :
    ∃ entries, disk.nodeAt base = .directory entries := by
  cases arrives with
  | done => exact absurd rfl nonempty
  | step moved _ => exact exists_directory_of_move moved
  | jump moved _ _ => exact exists_directory_of_move moved

/-- A path that never leaves a link leads where its normal form leads. -/
theorem find_normalize (found : disk.find true path = .ok place)
    (clear : disk.NeverLeavesLink path) : disk.find true path.normalize = .ok place := by
  obtain ⟨admissible, base, starts, walked⟩ := find_eq_ok_iff.mp found
  obtain ⟨left, arrives⟩ := exists_arrives walked
  have rooted : path.isAbsolute = true → base = { trail := [] } := by
    intro absolute
    rw [origin, if_pos absolute] at starts
    cases starts
    rfl
  have taken : disk.Arrives linkLimit base path.steps left place :=
    filter_lookupSteps path ▸ arrives.filter_here
  have moves : Path.here ∉ path.steps := fun member => (Path.isStep_of_mem_steps member).moves rfl
  have settled : disk.Arrives linkLimit base (Path.settle path.isAbsolute [] path.steps) left place :=
    Arrives.settle rooted List.not_mem_nil moves .done taken
      fun _ _ split => clear.not_endsInLink admissible starts split
  refine find_eq_ok_iff.mpr ⟨admissible.normalize, base, origin_normalize path ▸ starts, ?_⟩
  by_cases empty : Path.settle path.isAbsolute [] path.steps = []
  · -- Nothing is left but to stay, which the place allows as it was a directory to begin with.
    rw [empty] at settled
    cases settled
    obtain ⟨entries, directory⟩ := arrives.exists_directory (lookupSteps_ne_nil admissible.nonempty)
    rw [lookupSteps_normalize_of_empty empty, walk_of_move (move_here directory), walk_nil]
  · rw [lookupSteps_normalize empty]
    exact settled.walk

end Finding

section Links

variable {disk : Disk} {followLast : Bool} {links : Nat} {path : Path} {place finish : Place}
  {step : List UInt8} {steps : List (List UInt8)} {found : Move}

theorem LinkFree.nodeAt (free : disk.LinkFree) (clean : place.LinkFree) :
    (disk.nodeAt place).LinkFree := by
  unfold Disk.nodeAt
  split
  · unfold nodeOn
    split
    · exact free
    · rename_i same
      exact clean _ (same ▸ List.mem_cons_self)
  · exact .directory [] (by simp)

theorem LinkFree.move (free : disk.LinkFree) (clean : place.LinkFree)
    (moved : disk.move place step = .ok found) : ∃ next, found = .reach next ∧ next.LinkFree := by
  by_cases stays : step = Path.here
  · exact ⟨place, eq_of_move_here (stays ▸ moved), clean⟩
  · by_cases climbs : step = Path.up
    · exact ⟨place.parent, eq_of_move_up (climbs ▸ moved), clean.parent⟩
    · obtain ⟨entries, name, node, directory, member, _, _, kind⟩ :=
        exists_entry_of_move stays climbs moved
      have listed := free.nodeAt clean
      rw [directory] at listed
      cases listed with
      | directory _ all =>
          have entered : node.LinkFree := all _ member
          obtain ⟨target, link, _⟩ | ⟨_, same⟩ := kind
          · rw [link] at entered
            cases entered
          · exact ⟨_, same, List.forall_mem_cons.mpr ⟨entered, clean⟩⟩

theorem LinkFree.walk (free : disk.LinkFree) (clean : place.LinkFree)
    (walked : disk.walk followLast links place steps = .ok finish) : finish.LinkFree := by
  induction steps generalizing place with
  | nil =>
      rw [walk_nil] at walked
      cases walked
      exact clean
  | cons step rest ih =>
      cases moved : disk.move place step with
      | error reason =>
          rw [walk_of_error moved] at walked
          cases walked
      | ok found =>
          obtain ⟨next, rfl, nextClean⟩ := free.move clean moved
          rw [walk_of_move moved] at walked
          exact ih nextClean walked

theorem LinkFree.origin (free : disk.LinkFree) {base : Place}
    (starts : disk.origin path = .ok base) : base.LinkFree := by
  have root : ({ trail := [] } : Place).LinkFree := List.forall_mem_nil _
  unfold Disk.origin at starts
  split at starts
  · cases starts
    exact root
  · unfold start at starts
    cases walked : disk.walk true 0 { trail := [] } (disk.workingDirectory.location.map (·.bytes)) with
    | error reason =>
        rw [walked] at starts
        cases starts
    | ok place =>
        rw [walked] at starts
        cases starts
        have clean : place.LinkFree := free.walk root walked
        exact clean

theorem LinkFree.neverLeavesLink (free : disk.LinkFree) (path : Path) :
    disk.NeverLeavesLink path := by
  intro before _ _ target link
  obtain ⟨place, looked, same⟩ := exists_find_of_node link
  obtain ⟨_, base, starts, walked⟩ := find_eq_ok_iff.mp looked
  have clean := free.nodeAt (free.walk (free.origin starts) walked)
  rw [same] at clean
  cases clean

end Links

/--
In a tree without links a path that names a place, from whatever working directory, names it in its
normal form too.
-/
theorem find_normalize_of_linkFree {disk : Disk} {path : Path} {place : Place}
    (free : disk.LinkFree) (found : disk.find true path = .ok place) :
    disk.find true path.normalize = .ok place :=
  find_normalize found (free.neverLeavesLink path)

/-- Two directories, one in the other, with a file in the outer one, from which paths are read. -/
def nestedDisk : Disk where
  root := [(⟨[97], by decide⟩, .directory [(⟨[98], by decide⟩, .directory []), (⟨[102], by decide⟩, .file [])])]
  workingDirectory := { location := [⟨[97], by decide⟩] }

theorem find_normalize_in_nestedDisk :
    let path := Path.ofString "b/.././../../a//b/../f"
    let place : Place := { trail := [(⟨[102], by decide⟩, .file []),
      (⟨[97], by decide⟩, .directory [(⟨[98], by decide⟩, .directory []), (⟨[102], by decide⟩, .file [])])] }
    nestedDisk.LinkFree ∧ nestedDisk.find true path = .ok place ∧
      path.normalize = Path.ofString "../../a/f" ∧ nestedDisk.find true path.normalize = .ok place := by
  intro path place
  have free : nestedDisk.LinkFree := by
    refine .directory _ fun outer member => ?_
    rw [List.mem_singleton.mp member]
    refine .directory _ fun inner among => ?_
    simp only [List.mem_cons, List.not_mem_nil, or_false] at among
    obtain same | same := among
    · rw [same]
      exact .directory [] (by simp)
    · rw [same]
      exact .file []
  have found : nestedDisk.find true path = .ok place := rfl
  exact ⟨free, found, by decide +kernel, find_normalize_of_linkFree free found⟩

end Disk

end RuleSurvey
