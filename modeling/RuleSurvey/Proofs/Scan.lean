import RuleSurvey.Scan
import RuleSurvey.Proofs.Listing
import RuleSurvey.Proofs.Path

namespace RuleSurvey

/-!
Where the rule files of a target lie. A target that was found has a plain root, a walk goes on from
path to path by the names of entries, and so every rule file has a plain path.
-/

theorem EntryName.isName (name : EntryName) : Path.IsName name.bytes := by
  have legal := name.legal
  simp only [isEntryName, Bool.and_eq_true, Bool.not_eq_true', bne_iff_ne] at legal
  obtain ⟨⟨⟨⟨⟨nonempty, _⟩, undivided⟩, _⟩, moves⟩, descends⟩ := legal
  exact ⟨by simpa using nonempty, by simpa using undivided, moves, descends⟩

theorem EntryName.isStep (name : EntryName) : ∀ step ∈ [name.bytes], Path.IsStep step := by
  intro step member
  rw [List.mem_singleton.mp member]
  exact .inr name.isName

/-- A name is a path of one step. -/
theorem EntryName.path_eq_ofSteps (name : EntryName) :
    (⟨name.bytes⟩ : Path) = Path.ofSteps false [name.bytes] :=
  (Path.ofSteps_singleton name.bytes).symm

theorem Path.IsPlain.child {path : Path} (plain : path.IsPlain) (name : EntryName) :
    (path.child name).IsPlain := by
  obtain ⟨names, named, same⟩ := plain
  have single : ∀ step ∈ [name.bytes], IsName step := by
    intro step member
    rw [List.mem_singleton.mp member]
    exact name.isName
  refine ⟨names ++ [name.bytes], ?_, ?_⟩
  · exact List.forall_mem_append.mpr ⟨named, single⟩
  · rw [Path.child, same, name.path_eq_ofSteps, join_ofSteps named (List.cons_ne_nil _ _) single]

section Walk

variable {disk : Disk} {path root : Path} {depth : Nat} {node : Node} {visit : Visit}

theorem entriesBelow_eq_map (path : Path) (depth : Nat) (entries : Entries) :
    entriesBelow path depth entries = entries.map fun entry =>
      (entry.1, .entry (path.child entry.1) entry.2 ::
        entry.2.visitsBelow (path.child entry.1) depth) := by
  induction entries with
  | nil => rfl
  | cons entry rest ih => rw [entriesBelow, ih, List.map_cons]

/-- A walk goes down from one directory to the next by the names of their entries. -/
theorem Node.exists_names_of_mem_visitsBelow (member : visit ∈ node.visitsBelow path depth) :
    ∃ names : List EntryName, visit.path = names.foldl Path.child path := by
  induction depth generalizing node path with
  | zero => simp [Node.visitsBelow] at member
  | succ depth ih =>
      cases node with
      | file content => simp [Node.visitsBelow] at member
      | link target => simp [Node.visitsBelow] at member
      | directory entries =>
          rw [Node.visitsBelow] at member
          split at member
          · rw [List.mem_singleton.mp member]
            exact ⟨[], rfl⟩
          · obtain ⟨listed, sorted, inside⟩ := List.mem_flatMap.mp member
            have found := mem_of_mem_sortBy sorted
            rw [entriesBelow_eq_map] at found
            obtain ⟨entry, _, same⟩ := List.mem_map.mp found
            subst same
            cases List.mem_cons.mp inside with
            | inl self => exact ⟨[entry.1], self ▸ rfl⟩
            | inr deeper =>
                obtain ⟨names, further⟩ := ih deeper
                exact ⟨entry.1 :: names, further⟩

theorem Disk.exists_names_of_mem_visits (member : visit ∈ disk.visits root depth) :
    ∃ names : List EntryName, visit.path = names.foldl Path.child root := by
  unfold Disk.visits at member
  split at member
  · exact ⟨[], List.mem_singleton.mp member ▸ rfl⟩
  · exact ⟨[], List.mem_singleton.mp member ▸ rfl⟩
  · cases List.mem_cons.mp member with
    | inl self => exact ⟨[], self ▸ rfl⟩
    | inr deeper => exact Node.exists_names_of_mem_visitsBelow deeper
  · cases List.mem_cons.mp member with
    | inl self => exact ⟨[], self ▸ rfl⟩
    | inr deeper => exact Node.exists_names_of_mem_visitsBelow deeper

theorem Path.IsPlain.foldl_child (plain : path.IsPlain) (names : List EntryName) :
    (names.foldl Path.child path).IsPlain := by
  induction names generalizing path with
  | nil => exact plain
  | cons name rest ih => exact ih (plain.child name)

theorem Disk.isPlain_of_mem_scan {options : ScanOptions} {file : Path} (plain : root.IsPlain)
    (member : file ∈ (disk.scan options root).value) : file.IsPlain := by
  simp only [Disk.scan, Logged.value_bind, Logged.value_pure, Disk.value_collect] at member
  obtain ⟨visit, accepted, same⟩ := List.mem_map.mp (List.mem_of_mem_take member)
  obtain ⟨names, path⟩ := Disk.exists_names_of_mem_visits (List.mem_filter.mp accepted).1
  rw [← same, path]
  exact plain.foldl_child names

end Walk

section Targets

variable {disk : Disk} {path : Path} {target : Target}

theorem Disk.isPlain_of_absolute {absolute : Path} (found : disk.absolute path = .ok absolute) :
    absolute.IsPlain := by
  unfold Disk.absolute at found
  split at found
  · rename_i whole
    cases found
    exact Path.isPlain_normalize whole
  · split at found
    · rename_i directory current
      cases found
      apply Path.isPlain_normalize
      rw [Path.isAbsolute_join]
      unfold Disk.currentDirectory at current
      split at current
      · cases current
        exact Bool.or_true _
      · cases current
    · cases found

/-- A target is a directory, or a file with the directory that holds it. -/
theorem Target.eq_of_ofPath (resolved : Target.ofPath disk path = .ok target) :
    ∃ absolute, disk.absolute path = .ok absolute ∧ disk.isDirectory target.root = true ∧
      target = if disk.isFile absolute then ⟨absolute.parent, some absolute⟩ else ⟨absolute, none⟩ := by
  have accepted : ∀ chosen : Target, (if disk.isDirectory chosen.root then Except.ok chosen
      else .error (SurveyError.invalidRoot chosen.root.display)) = .ok target →
      disk.isDirectory target.root = true ∧ target = chosen := by
    intro chosen given
    split at given
    · rename_i directory
      cases given
      exact ⟨directory, rfl⟩
    · cases given
  unfold Target.ofPath at resolved
  cases found : disk.absolute path with
  | error reason =>
      rw [found] at resolved
      cases resolved
  | ok absolute =>
      rw [found] at resolved
      exact ⟨absolute, rfl, accepted _ resolved⟩

theorem Target.isPlain_root (resolved : Target.ofPath disk path = .ok target) :
    target.root.IsPlain := by
  obtain ⟨absolute, found, _, same⟩ := eq_of_ofPath resolved
  have plain := Disk.isPlain_of_absolute found
  rw [same]
  split
  · exact plain.parent
  · exact plain

theorem Disk.isPlain_of_mem_ruleFiles {options : ScanOptions} {file : Path}
    (resolved : Target.ofPath disk path = .ok target)
    (member : file ∈ (disk.ruleFiles options target).value) : file.IsPlain := by
  have root := Target.isPlain_root resolved
  unfold Disk.ruleFiles at member
  split at member
  · rename_i file single
    obtain ⟨absolute, found, _, same⟩ := Target.eq_of_ofPath resolved
    rw [same] at single
    split at single
    · cases single
      rw [List.mem_singleton.mp member]
      exact Disk.isPlain_of_absolute found
    · cases single
  · exact Disk.isPlain_of_mem_scan root member

end Targets

end RuleSurvey
