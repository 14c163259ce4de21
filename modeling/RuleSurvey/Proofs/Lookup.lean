import RuleSurvey.Disk.Lookup
import RuleSurvey.Proofs.Normalize

namespace RuleSurvey

/-!
What a look-up does, told as a run: it moves from place to place, and at a link it goes on along the
path that the link holds, as long as there are links left to follow. A run along one path and then
another is a run along both, and a step up that leaves a directory which was entered by its name undoes
that step.
-/

/-- Where the path of a link that was met at a place starts. -/
def Place.along (place : Place) (target : Path) : Place :=
  if target.isAbsolute then { trail := [] } else place

/-- The paths that a look-up takes up at all. -/
structure Path.IsAdmissible (path : Path) : Prop where
  noNul : 0 ∉ path.bytes
  nonempty : path.bytes ≠ []
  short : path.bytes.length < Disk.pathLimit

namespace Disk

/-- Where the first step of a path is taken. -/
def origin (disk : Disk) (path : Path) : Except OsError Place :=
  if path.isAbsolute then .ok { trail := [] } else disk.start

/-- Where one step leads: to a place, or into a link. -/
inductive Move where
  | reach (place : Place)
  | meet (name : EntryName) (target : Path)

def move (disk : Disk) (place : Place) (step : List UInt8) : Except OsError Move :=
  match disk.nodeAt place with
  | .directory entries =>
      if step = Path.here then .ok (.reach place)
      else if step = Path.up then .ok (.reach place.parent)
      else match entryFor place entries step with
        | .error reason => .error reason
        | .ok (name, .link target) => .ok (.meet name target)
        | .ok (name, node) => .ok (.reach { trail := (name, node) :: place.trail })
  | _ => .error .notADirectory

/-- A run from a place along steps, with the links that may be followed before and after it. -/
inductive Arrives (disk : Disk) : Nat → Place → List (List UInt8) → Nat → Place → Prop
  | done {links : Nat} {place : Place} : Arrives disk links place [] links place
  | step {links left : Nat} {place next finish : Place} {step : List UInt8}
      {steps : List (List UInt8)} (moved : disk.move place step = .ok (.reach next))
      (rest : Arrives disk links next steps left finish) :
      Arrives disk links place (step :: steps) left finish
  | jump {links left : Nat} {place finish : Place} {step : List UInt8}
      {steps : List (List UInt8)} {name : EntryName} {target : Path}
      (moved : disk.move place step = .ok (.meet name target)) (filled : target.bytes ≠ [])
      (rest : Arrives disk links (place.along target) (lookupSteps target ++ steps) left finish) :
      Arrives disk (links + 1) place (step :: steps) left finish

section Moves

variable {disk : Disk} {place next : Place} {step : List UInt8} {found : Move}

theorem exists_directory_of_move (moved : disk.move place step = .ok found) :
    ∃ entries, disk.nodeAt place = .directory entries := by
  unfold move at moved
  split at moved
  · rename_i entries directory
    exact ⟨entries, directory⟩
  · cases moved

theorem move_here {entries : Entries} (directory : disk.nodeAt place = .directory entries) :
    disk.move place Path.here = .ok (.reach place) := by
  simp [move, directory]

theorem eq_of_move_here (moved : disk.move place Path.here = .ok found) : found = .reach place := by
  obtain ⟨entries, directory⟩ := exists_directory_of_move moved
  rw [move_here directory] at moved
  cases moved
  rfl

theorem eq_of_move_up (moved : disk.move place Path.up = .ok found) : found = .reach place.parent := by
  obtain ⟨entries, directory⟩ := exists_directory_of_move moved
  have distinct : Path.up ≠ Path.here := by decide
  simp only [move, directory, distinct, if_false, if_true] at moved
  cases moved
  rfl

/-- What is found by its name is an entry of a directory that is part of the tree. -/
theorem entry_of_entryFor {entries : Entries} {entry : EntryName × Node}
    (directory : disk.nodeAt place = .directory entries)
    (found : entryFor place entries step = .ok entry) :
    place.removed = 0 ∧ entry ∈ entries ∧ entry.1.bytes = step := by
  unfold entryFor at found
  split at found
  · cases found
  · split at found
    · rename_i listed
      cases found
      have named := List.find?_some listed
      have member := List.mem_of_find?_eq_some listed
      refine ⟨?_, member, by simpa using named⟩
      cases removed : place.removed with
      | zero => rfl
      | succ levels =>
          -- A removed directory has no entries.
          simp only [nodeAt, removed, Node.directory.injEq] at directory
          rw [← directory] at member
          cases member
    · cases found

theorem exists_entry_of_move (moves : step ≠ Path.here) (descends : step ≠ Path.up)
    (moved : disk.move place step = .ok found) :
    ∃ entries name node, disk.nodeAt place = .directory entries ∧ (name, node) ∈ entries ∧
      name.bytes = step ∧ place.removed = 0 ∧
      ((∃ target, node = .link target ∧ found = .meet name target) ∨
        (∀ target, node ≠ .link target) ∧ found = .reach { trail := (name, node) :: place.trail }) := by
  obtain ⟨entries, directory⟩ := exists_directory_of_move moved
  simp only [move, directory, moves, descends, if_false] at moved
  cases listed : entryFor place entries step with
  | error reason =>
      rw [listed] at moved
      cases moved
  | ok entry =>
      obtain ⟨name, node⟩ := entry
      obtain ⟨whole, member, named⟩ := entry_of_entryFor directory listed
      rw [listed] at moved
      refine ⟨entries, name, node, directory, member, named, whole, ?_⟩
      cases node with
      | link target =>
          cases moved
          exact .inl ⟨target, rfl, rfl⟩
      | file content =>
          cases moved
          exact .inr ⟨nofun, rfl⟩
      | directory inner =>
          cases moved
          exact .inr ⟨nofun, rfl⟩

theorem parent_of_move (moves : step ≠ Path.here) (descends : step ≠ Path.up)
    (moved : disk.move place step = .ok (.reach next)) : next.parent = place := by
  obtain ⟨_, _, _, _, _, _, whole, ⟨_, _, same⟩ | ⟨_, same⟩⟩ :=
    exists_entry_of_move moves descends moved
  · cases same
  · cases same
    cases place
    cases whole
    rfl

end Moves

section Runs

variable {disk : Disk} {followLast : Bool} {links between left : Nat}
  {place middle finish : Place} {step : List UInt8} {steps others : List (List UInt8)}

theorem follow_cons (jump : Place → Path → List (List UInt8) → Except OsError Place) :
    disk.follow followLast jump place (step :: steps) =
      match disk.move place step with
      | .error reason => .error reason
      | .ok (.reach next) => disk.follow followLast jump next steps
      | .ok (.meet name target) =>
          if steps.isEmpty && !followLast then
            .ok { trail := (name, .link target) :: place.trail }
          else jump place target steps := by
  rw [follow, move]
  cases disk.nodeAt place with
  | file content => rfl
  | link target => rfl
  | directory entries =>
      by_cases stays : step = Path.here
      · simp only [stays, if_true]
      · by_cases climbs : step = Path.up
        · subst climbs
          simp only [stays, if_false, if_true]
        · simp only [stays, climbs, if_false]
          cases entryFor place entries step with
          | error reason => rfl
          | ok entry =>
              obtain ⟨name, node⟩ := entry
              cases node <;> rfl

theorem walk_nil : disk.walk followLast links place [] = .ok place := by
  cases links <;> rfl

theorem walk_of_move {next : Place} (moved : disk.move place step = .ok (.reach next)) :
    disk.walk followLast links place (step :: steps) = disk.walk followLast links next steps := by
  cases links <;> rw [walk, follow_cons, moved]

theorem walk_of_jump {name : EntryName} {target : Path}
    (moved : disk.move place step = .ok (.meet name target)) (filled : target.bytes ≠ [])
    (goesOn : followLast = true ∨ steps ≠ []) :
    disk.walk followLast (links + 1) place (step :: steps) =
      disk.walk followLast links (place.along target) (lookupSteps target ++ steps) := by
  have goes : (steps.isEmpty && !followLast) = false := by
    cases goesOn with
    | inl follows => simp [follows]
    | inr more => simp [more]
  rw [walk, follow_cons, moved]
  simp only [goes, List.isEmpty_iff, filled, Bool.false_eq_true, if_false]
  rfl

theorem walk_of_error {reason : OsError} (moved : disk.move place step = .error reason) :
    disk.walk followLast links place (step :: steps) = .error reason := by
  cases links <;> rw [walk, follow_cons, moved]

/-- A link is followed only if there is one left to follow and it holds a path. -/
theorem exists_links_of_walk {name : EntryName} {target : Path}
    (moved : disk.move place step = .ok (.meet name target))
    (found : disk.walk true links place (step :: steps) = .ok finish) :
    ∃ fewer, links = fewer + 1 ∧ target.bytes ≠ [] := by
  cases links with
  | zero =>
      rw [walk, follow_cons, moved] at found
      simp at found
  | succ fewer =>
      refine ⟨fewer, rfl, fun empty => ?_⟩
      rw [walk, follow_cons, moved] at found
      simp [empty] at found

theorem walk_last_link {name : EntryName} {target : Path}
    (moved : disk.move place step = .ok (.meet name target)) :
    disk.walk false links place [step] = .ok { trail := (name, .link target) :: place.trail } := by
  cases links <;> rw [walk, follow_cons, moved] <;> rfl

theorem Arrives.walk_append (arrives : disk.Arrives links place steps left middle)
    (goesOn : followLast = true ∨ others ≠ []) :
    disk.walk followLast links place (steps ++ others) = disk.walk followLast left middle others := by
  induction arrives with
  | done => rfl
  | step moved _ ih => rw [List.cons_append, walk_of_move moved, ih]
  | @jump _ _ _ _ _ rest _ _ moved filled _ ih =>
      have more : followLast = true ∨ rest ++ others ≠ [] :=
        goesOn.imp_right (List.append_ne_nil_of_right_ne_nil rest)
      rw [List.cons_append, walk_of_jump moved filled more, ← List.append_assoc, ih]

theorem Arrives.walk (arrives : disk.Arrives links place steps left finish) :
    disk.walk true links place steps = .ok finish := by
  have run : disk.walk true links place (steps ++ []) = disk.walk true left finish [] :=
    arrives.walk_append (.inl rfl)
  rwa [List.append_nil, walk_nil] at run

theorem exists_arrives (found : disk.walk true links place steps = .ok finish) :
    ∃ left, disk.Arrives links place steps left finish := by
  induction links using Nat.strongRecOn generalizing place steps with
  | ind links fewer =>
      induction steps generalizing place with
      | nil =>
          rw [walk_nil] at found
          cases found
          exact ⟨links, .done⟩
      | cons step rest ih =>
          cases moved : disk.move place step with
          | error reason =>
              rw [walk_of_error moved] at found
              cases found
          | ok next =>
              cases next with
              | reach next =>
                  rw [walk_of_move moved] at found
                  obtain ⟨left, run⟩ := ih found
                  exact ⟨left, .step moved run⟩
              | meet name target =>
                  obtain ⟨links, rfl, filled⟩ := exists_links_of_walk moved found
                  rw [walk_of_jump moved filled (.inl rfl)] at found
                  obtain ⟨left, run⟩ := fewer links (Nat.lt_succ_self links) found
                  exact ⟨left, .jump moved filled run⟩

/-- Where the last link is not to be followed, a look-up comes to the same place or to a link. -/
theorem Arrives.walk_or_link (arrives : disk.Arrives links place steps left finish) :
    disk.walk false links place steps = .ok finish ∨ ∃ name target trail,
      disk.walk false links place steps = .ok { trail := (name, .link target) :: trail } := by
  induction arrives with
  | done => exact .inl walk_nil
  | step moved _ ih =>
      rw [walk_of_move moved]
      exact ih
  | @jump _ _ _ _ _ rest name target moved filled _ ih =>
      by_cases last : rest = []
      · rw [last]
        exact .inr ⟨name, target, _, walk_last_link moved⟩
      · rw [walk_of_jump moved filled (.inr last)]
        exact ih

theorem Arrives.append (first : disk.Arrives links place steps between middle)
    (second : disk.Arrives between middle others left finish) :
    disk.Arrives links place (steps ++ others) left finish := by
  induction first with
  | done => exact second
  | step moved _ ih => exact .step moved (ih second)
  | jump moved filled _ ih =>
      have rest := ih second
      rw [List.append_assoc] at rest
      exact .jump moved filled rest

theorem Arrives.exists_middle (arrives : disk.Arrives links place (steps ++ others) left finish) :
    ∃ between middle, disk.Arrives links place steps between middle ∧
      disk.Arrives between middle others left finish := by
  generalize whole : steps ++ others = all at arrives
  induction arrives generalizing steps with
  | done =>
      obtain ⟨rfl, rfl⟩ := List.append_eq_nil_iff.mp whole
      exact ⟨_, _, .done, .done⟩
  | step moved rest ih =>
      cases steps with
      | nil =>
          subst whole
          exact ⟨_, _, .done, .step moved rest⟩
      | cons first more =>
          cases whole
          obtain ⟨between, middle, front, back⟩ := ih rfl
          exact ⟨between, middle, .step moved front, back⟩
  | jump moved filled rest ih =>
      cases steps with
      | nil =>
          subst whole
          exact ⟨_, _, .done, .jump moved filled rest⟩
      | cons first more =>
          cases whole
          obtain ⟨between, middle, front, back⟩ := ih (List.append_assoc _ _ _)
          exact ⟨between, middle, .jump moved filled front, back⟩

theorem Arrives.exists_first (arrives : disk.Arrives links place (step :: steps) left finish) :
    ∃ between middle, disk.Arrives links place [step] between middle ∧
      disk.Arrives between middle steps left finish := by
  rw [← List.singleton_append] at arrives
  exact arrives.exists_middle

theorem Arrives.of_here (arrives : disk.Arrives links place [Path.here] left finish) :
    left = links ∧ finish = place := by
  cases arrives with
  | step moved rest =>
      cases eq_of_move_here moved
      cases rest
      exact ⟨rfl, rfl⟩
  | jump moved _ _ => cases eq_of_move_here moved

theorem Arrives.of_up (arrives : disk.Arrives links place [Path.up] left finish) :
    left = links ∧ finish = place.parent := by
  cases arrives with
  | step moved rest =>
      cases eq_of_move_up moved
      cases rest
      exact ⟨rfl, rfl⟩
  | jump moved _ _ => cases eq_of_move_up moved

theorem Arrives.filter_here (arrives : disk.Arrives links place steps left finish) :
    disk.Arrives links place (steps.filter (· ≠ Path.here)) left finish := by
  induction steps generalizing links place with
  | nil => exact arrives
  | cons step rest ih =>
      obtain ⟨between, middle, first, others⟩ := arrives.exists_first
      by_cases stays : step = Path.here
      · subst stays
        obtain ⟨rfl, rfl⟩ := first.of_here
        simpa using ih others
      · rw [List.filter_cons_of_pos (by simpa using stays)]
        exact first.append (ih others)

end Runs

section Paths

variable {disk : Disk} {followLast : Bool} {path : Path} {place : Place}
  {names : List (List UInt8)}

theorem find_eq_bind (admissible : path.IsAdmissible) :
    disk.find followLast path = (disk.origin path).bind fun base =>
      disk.walk followLast linkLimit base (lookupSteps path) := by
  have short : ¬ path.bytes.length ≥ pathLimit := Nat.not_le.mpr admissible.short
  have noNul : path.bytes.contains 0 = false := by simpa using admissible.noNul
  have filled : path.bytes.isEmpty = false := by simpa using admissible.nonempty
  simp only [find, noNul, filled, short, Bool.false_eq_true, if_false, origin]
  cases path.isAbsolute <;> rfl

theorem isAdmissible_of_find (found : disk.find followLast path = .ok place) :
    path.IsAdmissible := by
  unfold find at found
  split at found
  · cases found
  · rename_i noNul
    split at found
    · cases found
    · rename_i nonempty
      split at found
      · cases found
      · rename_i short
        exact ⟨by simpa using noNul, by simpa using nonempty, Nat.not_le.mp short⟩

theorem find_eq_ok_iff :
    disk.find followLast path = .ok place ↔ path.IsAdmissible ∧ ∃ base,
      disk.origin path = .ok base ∧
        disk.walk followLast linkLimit base (lookupSteps path) = .ok place := by
  constructor
  · intro found
    have admissible := isAdmissible_of_find found
    rw [find_eq_bind admissible] at found
    cases starts : disk.origin path with
    | error reason =>
        rw [starts] at found
        cases found
    | ok base =>
        rw [starts] at found
        exact ⟨admissible, base, rfl, found⟩
  · intro looked
    obtain ⟨admissible, base, starts, walked⟩ := looked
    rw [find_eq_bind admissible, starts]
    exact walked

/-- A node is looked up by way of a place. -/
theorem exists_find_of_node {node : Node}
    (found : (disk.find followLast path).map disk.nodeAt = .ok node) :
    ∃ place, disk.find followLast path = .ok place ∧ disk.nodeAt place = node := by
  cases looked : disk.find followLast path with
  | error reason =>
      rw [looked] at found
      cases found
  | ok place =>
      rw [looked] at found
      exact ⟨place, rfl, Except.ok.inj found⟩

/-- A path that names a node names it, or a link, if the last link is not followed. -/
theorem nodeOrLink_of_node {node : Node} (found : disk.node path = .ok node) :
    disk.nodeOrLink path = .ok node ∨ ∃ target, disk.nodeOrLink path = .ok (.link target) := by
  obtain ⟨place, looked, same⟩ := exists_find_of_node found
  subst same
  obtain ⟨admissible, base, starts, walked⟩ := find_eq_ok_iff.mp looked
  obtain ⟨left, arrives⟩ := exists_arrives walked
  rw [nodeOrLink, find_eq_bind admissible, starts]
  obtain ended | ⟨name, target, trail, link⟩ := arrives.walk_or_link
  · left
    rw [Except.bind, ended]
    rfl
  · right
    rw [Except.bind, link]
    exact ⟨target, rfl⟩

theorem filter_lookupSteps (path : Path) :
    (lookupSteps path).filter (· ≠ Path.here) = path.steps := by
  have pieces : ((path.bytes.splitOn Path.separator).filter (· ≠ [])).filter (· ≠ Path.here) =
      path.steps := by
    rw [List.filter_filter, Path.steps]
    congr 1
    funext step
    simp [Bool.and_comm]
  unfold lookupSteps
  split
  · rw [List.filter_append, pieces]
    simp
  · exact pieces

theorem lookupSteps_ne_nil (nonempty : path.bytes ≠ []) : lookupSteps path ≠ [] := by
  unfold lookupSteps
  split
  · simp
  · rename_i ends
    obtain ⟨piece, cut, filled⟩ := Path.exists_piece nonempty ends
    exact List.ne_nil_of_mem (List.mem_filter.mpr ⟨cut, by simpa using filled⟩)

theorem lookupSteps_ofSteps (absolute : Bool) (nonempty : names ≠ [])
    (proper : ∀ step ∈ names, Path.IsStep step) :
    lookupSteps (Path.ofSteps absolute names) = names := by
  have pieces : names.filter (· ≠ []) = names := by
    rw [List.filter_eq_self]
    intro step member
    simpa using (proper step member).nonempty
  unfold lookupSteps
  rw [if_neg (Path.getLast?_ofSteps absolute nonempty proper)]
  cases absolute with
  | false =>
      have cuts : (Path.ofSteps false names).bytes.splitOn Path.separator = names :=
        Path.splitOn_intercalate nonempty proper
      rw [cuts, pieces]
  | true =>
      rw [Path.bytes_ofSteps, Path.splitOn_separator_cons, Path.splitOn_intercalate nonempty proper]
      exact pieces

end Paths

end Disk

end RuleSurvey
