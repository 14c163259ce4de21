import RuleSurvey.Proofs.BasePlaces
import RuleSurvey.Proofs.NormalLookup
import RuleSurvey.Proofs.Scan

namespace RuleSurvey

/-!
What a path that is given to a survey comes to. Its absolute normal form decides: a file there has a
directory around it, whatever links lead to the two, so the one thing that makes a path unfit is that
nothing is there. The parts of a target are in normal form themselves and come to the same target again.
-/

namespace Disk

variable {disk : Disk} {path absolute : Path}

/-- No path can be read from a working directory that was removed. -/
def HasLostDirectory (disk : Disk) : Prop :=
  disk.workingDirectory.removed ≠ 0

theorem absolute_of_lost (relative : path.isAbsolute = false) (lost : disk.HasLostDirectory) :
    disk.absolute path = .error (.io .notFound) := by
  obtain ⟨levels, removed⟩ := Nat.exists_eq_succ_of_ne_zero lost
  simp [Disk.absolute, relative, currentDirectory, removed]

/-- The normal form of an absolute path, or of a relative one behind the working directory. -/
structure IsAbsoluteForm (disk : Disk) (path absolute : Path) : Prop where
  ofAbsolute : path.isAbsolute = true → absolute = path.normalize
  ofRelative : path.isAbsolute = false → absolute =
    ((Path.ofSteps true (disk.workingDirectory.location.map (·.bytes))).join path).normalize

theorem exists_absolute (kept : ¬ (path.isAbsolute = false ∧ disk.HasLostDirectory)) :
    ∃ absolute, disk.absolute path = .ok absolute ∧ disk.IsAbsoluteForm path absolute := by
  cases starts : path.isAbsolute with
  | true =>
      refine ⟨path.normalize, by simp [Disk.absolute, starts], fun _ => rfl, fun relative => ?_⟩
      rw [starts] at relative
      cases relative
  | false =>
      have present : disk.workingDirectory.removed = 0 := by
        by_contra lost
        exact kept ⟨starts, lost⟩
      refine ⟨_, by simp only [Disk.absolute, starts, currentDirectory, present]; rfl,
        fun absolute => ?_, fun _ => rfl⟩
      rw [starts] at absolute
      cases absolute

theorem absolute_of_isPlain (plain : path.IsPlain) : disk.absolute path = .ok path := by
  rw [Disk.absolute, if_pos plain.isAbsolute, plain.normalize]

theorem isDirectory_root (disk : Disk) : disk.isDirectory (Path.ofSteps true []) = true := rfl

/-- Where the names of an absolute path lead. -/
theorem find_ofSteps_of_arrives {names : List (List UInt8)} {left : Nat} {place : Place}
    (admissible : (Path.ofSteps true names).IsAdmissible) (named : ∀ name ∈ names, Path.IsName name)
    (nonempty : names ≠ []) (arrives : disk.Arrives linkLimit { trail := [] } names left place) :
    disk.find true (Path.ofSteps true names) = .ok place := by
  refine find_eq_ok_iff.mpr ⟨admissible, _, rfl, ?_⟩
  rw [lookupSteps_ofSteps true nonempty (Path.isStep_of_names named)]
  exact arrives.walk

/-- The last name of a path is looked up in a directory, and the others lead to that one. -/
theorem isDirectory_ofSteps_of_concat {names : List (List UInt8)} {last : List UInt8} {place : Place}
    (named : ∀ name ∈ names ++ [last], Path.IsName name)
    (found : disk.find true (Path.ofSteps true (names ++ [last])) = .ok place) :
    disk.isDirectory (Path.ofSteps true names) = true := by
  by_cases empty : names = []
  · rw [empty]
    exact disk.isDirectory_root
  · have proper := Path.isStep_of_names named
    obtain ⟨admissible, base, starts, walked⟩ := find_eq_ok_iff.mp found
    cases starts
    rw [lookupSteps_ofSteps true (List.concat_ne_nil _ _) proper] at walked
    obtain ⟨left, arrives⟩ := exists_arrives walked
    obtain ⟨between, middle, front, entered⟩ := arrives.exists_middle
    obtain ⟨entries, directory⟩ := entered.exists_directory (List.cons_ne_nil _ _)
    have fewer : names.Sublist (Path.ofSteps true (names ++ [last])).steps := by
      rw [Path.steps_ofSteps true proper]
      exact List.sublist_append_left names [last]
    have frontNamed : ∀ name ∈ names, Path.IsName name :=
      fun name member => named name (List.mem_append_left _ member)
    have reached := find_ofSteps_of_arrives (admissible.ofSteps fewer (.inl rfl)) frontNamed empty front
    rw [isDirectory, node, reached]
    simp [Except.map, directory]

theorem exists_find_of_isFile (file : disk.isFile path = true) :
    ∃ place, disk.find true path = .ok place := by
  unfold isFile at file
  split at file
  · rename_i content found
    obtain ⟨place, looked, _⟩ := exists_find_of_node found
    exact ⟨place, looked⟩
  · cases file

theorem isDirectory_parent (plain : path.IsPlain) (file : disk.isFile path = true) :
    disk.isDirectory path.parent = true ∧
      ∃ name, Path.IsName name ∧ path = path.parent.join ⟨name⟩ := by
  obtain ⟨names, named, rfl⟩ := plain
  obtain rfl | ⟨front, last, rfl⟩ := names.eq_nil_or_concat'
  · rw [isFile_of_isDirectory disk.isDirectory_root] at file
    cases file
  · obtain ⟨frontNamed, lastNamed⟩ := List.forall_mem_append.mp named
    have parent : (Path.ofSteps true (front ++ [last])).parent = Path.ofSteps true front := by
      rw [Path.parent, Path.steps_ofSteps true (Path.isStep_of_names named), List.dropLast_concat]
      rfl
    have joined := Path.join_ofSteps frontNamed (List.cons_ne_nil _ _) lastNamed
    obtain ⟨place, found⟩ := exists_find_of_isFile file
    rw [parent]
    refine ⟨isDirectory_ofSteps_of_concat named found, last, List.forall_mem_singleton.mp lastNamed, ?_⟩
    rw [← joined, Path.ofSteps_singleton]

end Disk

namespace Target

variable {disk : Disk} {path absolute : Path}

/-- What the absolute form of a path makes of it, if there is something at that path. -/
structure Fits (disk : Disk) (absolute : Path) (target : Target) : Prop where
  plain : target.root.IsPlain
  directory : disk.isDirectory target.root = true
  single : disk.isFile absolute = true → target.singleFile = some absolute ∧
    ∃ name, Path.IsName name ∧ absolute = target.root.join ⟨name⟩
  whole : disk.isFile absolute = false → target.singleFile = none ∧ target.root = absolute

theorem ofPath_of_error {reason : SurveyError} (failed : disk.absolute path = .error reason) :
    ofPath disk path = .error reason := by
  rw [ofPath, failed]
  rfl

theorem ofPath_of_isFile (found : disk.absolute path = .ok absolute)
    (file : disk.isFile absolute = true) :
    ofPath disk path = .ok ⟨absolute.parent, some absolute⟩ := by
  have directory := (Disk.isDirectory_parent (Disk.isPlain_of_absolute found) file).1
  simp [ofPath, found, file, directory, bind, Except.bind]

theorem ofPath_of_isDirectory (found : disk.absolute path = .ok absolute)
    (directory : disk.isDirectory absolute = true) : ofPath disk path = .ok ⟨absolute, none⟩ := by
  have file := Disk.isFile_of_isDirectory directory
  simp [ofPath, found, file, directory, bind, Except.bind]

theorem ofPath_of_missing (found : disk.absolute path = .ok absolute)
    (file : disk.isFile absolute = false) (directory : disk.isDirectory absolute = false) :
    ofPath disk path = .error (.invalidRoot absolute.display) := by
  simp [ofPath, found, file, directory, bind, Except.bind]

/-- The one file of a target and its root are targets that come to themselves. -/
theorem exists_ofPath (found : disk.absolute path = .ok absolute)
    (present : disk.isFile absolute = true ∨ disk.isDirectory absolute = true) :
    ∃ target, ofPath disk path = .ok target ∧ target.Fits disk absolute ∧
      ofPath disk target.root = .ok ⟨target.root, none⟩ ∧
      ∀ file ∈ target.singleFile, ofPath disk file = .ok target := by
  have plain := Disk.isPlain_of_absolute found
  cases present with
  | inl file =>
      obtain ⟨directory, name, isName, joined⟩ := Disk.isDirectory_parent plain file
      refine ⟨⟨absolute.parent, some absolute⟩, ofPath_of_isFile found file,
        ⟨plain.parent, directory, fun _ => ⟨rfl, name, isName, joined⟩, fun absent => ?_⟩,
        ofPath_of_isDirectory (Disk.absolute_of_isPlain plain.parent) directory, fun _ same => ?_⟩
      · rw [file] at absent
        cases absent
      · cases same
        exact ofPath_of_isFile (Disk.absolute_of_isPlain plain) file
  | inr directory =>
      refine ⟨⟨absolute, none⟩, ofPath_of_isDirectory found directory,
        ⟨plain, directory, fun file => ?_, fun _ => ⟨rfl, rfl⟩⟩,
        ofPath_of_isDirectory (Disk.absolute_of_isPlain plain) directory, nofun⟩
      rw [Disk.isFile_of_isDirectory directory] at file
      cases file

/--
A path fails to be read only if it is relative and the working directory is lost. Any other path has an
absolute form, its own normal form or the one behind the working directory, and is refused exactly if
there is neither a file nor a directory; else it comes to that directory, or to that file and the
directory around it, and the parts of this target come to the same.
-/
theorem ofPath_exact_and_stable (disk : Disk) (path : Path) :
    ((∃ reason, ofPath disk path = .error (.io reason)) ↔
      path.isAbsolute = false ∧ disk.HasLostDirectory) ∧
    (¬ (path.isAbsolute = false ∧ disk.HasLostDirectory) →
      ∃ absolute, disk.absolute path = .ok absolute ∧ disk.IsAbsoluteForm path absolute ∧
        (∀ shown, ofPath disk path = .error (.invalidRoot shown) ↔ shown = absolute.display ∧
          disk.isFile absolute = false ∧ disk.isDirectory absolute = false) ∧
        (disk.isFile absolute = true ∨ disk.isDirectory absolute = true →
          ∃ target, ofPath disk path = .ok target ∧ target.Fits disk absolute ∧
            ofPath disk target.root = .ok ⟨target.root, none⟩ ∧
            ∀ file ∈ target.singleFile, ofPath disk file = .ok target)) := by
  by_cases lost : path.isAbsolute = false ∧ disk.HasLostDirectory
  · have failed := ofPath_of_error (Disk.absolute_of_lost lost.1 lost.2)
    exact ⟨⟨fun _ => lost, fun _ => ⟨_, failed⟩⟩, fun kept => absurd lost kept⟩
  · obtain ⟨absolute, found, form⟩ := Disk.exists_absolute lost
    by_cases present : disk.isFile absolute = true ∨ disk.isDirectory absolute = true
    · obtain ⟨target, resolved, _⟩ := exists_ofPath found present
      refine ⟨⟨fun refused => ?_, fun gone => absurd gone lost⟩,
        fun _ => ⟨absolute, found, form, fun shown => ⟨fun refused => ?_, fun missing => ?_⟩,
          exists_ofPath found⟩⟩
      · obtain ⟨reason, refused⟩ := refused
        cases resolved.symm.trans refused
      · cases resolved.symm.trans refused
      · rw [missing.2.1, missing.2.2] at present
        simp at present
    · have missing : disk.isFile absolute = false ∧ disk.isDirectory absolute = false := by
        simpa using present
      have unfit := ofPath_of_missing found missing.1 missing.2
      refine ⟨⟨fun refused => ?_, fun gone => absurd gone lost⟩,
        fun _ => ⟨absolute, found, form, fun shown => ?_, exists_ofPath found⟩⟩
      · obtain ⟨reason, refused⟩ := refused
        cases unfit.symm.trans refused
      · rw [unfit]
        simp [missing, eq_comm]

end Target

end RuleSurvey
