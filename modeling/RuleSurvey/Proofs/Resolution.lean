import RuleSurvey.Resolution
import RuleSurvey.Proofs.NormalLookup

namespace RuleSurvey

/-!
Where the answer to an include path leads. Existence is asked of the path that was declared, and the
answer is the normal form of that path as text. The normal form is found without a look at the disk, so
the two name the same place only if no step up leaves a link.
-/

namespace Path

variable {path : Path} {text : String}

def backslash : UInt8 := 92

theorem not_mem_display (unmarked : backslash ∉ path.bytes) : '\\' ∉ Utf8.display path.bytes := by
  intro member
  have written : backslash ∈ Utf8.shown path.bytes :=
    List.mem_flatMap.mpr ⟨'\\', member, by decide⟩
  exact unmarked ((Utf8.mem_shown_iff (by decide)).mp written)

theorem normalizedDisplay_eq_display (unmarked : backslash ∉ path.normalize.bytes) :
    path.normalizedDisplay = path.normalize.display := by
  rw [normalizedDisplay, display]
  congr 1
  refine (List.map_congr_left fun c member => ?_).trans (List.map_id _)
  have ordinary : c ≠ '\\' := fun same => not_mem_display unmarked (same ▸ member)
  simp [ordinary]

end Path

namespace Disk

variable {disk : Disk} {root path : Path} {declared shown : String} {kind : ResolutionKind}

theorem isAbsolute_includeCandidate (rooted : root.isAbsolute = true) (declared : Path) :
    (includeCandidate root declared).1.isAbsolute = true := by
  unfold includeCandidate
  split
  · assumption
  · rw [Path.isAbsolute_join, rooted, Bool.or_true]

theorem exists_find_of_has (present : disk.has path = true) :
    ∃ place, disk.find true path = .ok place := by
  unfold has at present
  cases named : disk.node path with
  | error reason =>
      rw [named] at present
      cases present
  | ok node =>
      obtain ⟨place, found, _⟩ := exists_find_of_node named
      exact ⟨place, found⟩

/-- An answer is given only for a candidate that exists, and shows its normal form. -/
theorem eq_of_resolvePath
    (resolved : disk.resolvePath root declared = { resolvedPath := some shown, found := true, kind }) :
    disk.has (includeCandidate root (.ofString declared)).1 = true ∧
      shown = (includeCandidate root (.ofString declared)).1.normalizedDisplay := by
  unfold resolvePath at resolved
  split at resolved
  · simp at resolved
  · dsimp only at resolved
    split at resolved
    · rename_i present
      simp only [PathResolution.mk.injEq, Option.some.injEq] at resolved
      exact ⟨present, resolved.1.symm⟩
    · simp at resolved

/--
The answer for an include that exists is the normal form of the candidate, as long as that has no
backslash. It is in normal form itself, and if the candidate's normal form is text it names what that
form names; so it names the place of the candidate whenever no step up in the candidate leaves a link.
None of the three conditions can be left out.
-/
theorem resolvePath_leads_where_normal_form_leads (rooted : root.isAbsolute = true)
    (resolved : disk.resolvePath root declared = { resolvedPath := some shown, found := true, kind }) :
    let candidate := (includeCandidate root (.ofString declared)).1
    Path.backslash ∉ candidate.normalize.bytes →
      shown = candidate.normalize.display ∧ (Path.ofString shown).normalize.display = shown ∧
      ((∃ text, candidate.normalize = .ofString text) →
        disk.find true (.ofString shown) = disk.find true candidate.normalize ∧
        (disk.NeverLeavesLink candidate → ∃ place,
          disk.find true candidate = .ok place ∧ disk.find true (.ofString shown) = .ok place)) := by
  intro candidate unmarked
  obtain ⟨present, answer⟩ := eq_of_resolvePath resolved
  have displayed : shown = candidate.normalize.display :=
    answer.trans (Path.normalizedDisplay_eq_display unmarked)
  have plain : (Path.ofString shown).IsPlain := by
    rw [displayed, Path.isPlain_ofString_display]
    exact Path.isPlain_normalize (isAbsolute_includeCandidate rooted _)
  refine ⟨displayed, by rw [plain.normalize, Path.display_ofString], ?_⟩
  intro spelled
  obtain ⟨text, spelled⟩ := spelled
  have same : Path.ofString shown = candidate.normalize := by
    rw [displayed, spelled, Path.display_ofString]
  refine ⟨by rw [same], fun clear => ?_⟩
  obtain ⟨place, found⟩ := exists_find_of_has present
  exact ⟨place, found, same ▸ find_normalize found clear⟩

/-- A rule root with a link to a directory elsewhere, which has a file beside it. -/
def linkedDisk : Disk where
  root := [
    (⟨Utf8.encode "b".toList, by decide +kernel⟩, .directory [
      (⟨Utf8.encode "e".toList, by decide +kernel⟩, .directory []),
      (⟨Utf8.encode "l".toList, by decide +kernel⟩, .link (.ofString "../x/y"))]),
    (⟨Utf8.encode "x".toList, by decide +kernel⟩, .directory [
      (⟨Utf8.encode "f".toList, by decide +kernel⟩, .file []),
      (⟨Utf8.encode "y".toList, by decide +kernel⟩, .directory [])])]
  workingDirectory := { location := [] }

/-- A link may be followed, as long as it is not left again by a step up. -/
theorem resolvePath_leads_through_link :
    linkedDisk.resolvePath (.ofString "/b") "e/../l" =
        { resolvedPath := some "/b/l", found := true, kind := .relative } ∧
      ∃ place, linkedDisk.find true (.ofString "/b/e/../l") = .ok place ∧
        linkedDisk.find true (.ofString "/b/l") = .ok place := by
  have resolved : linkedDisk.resolvePath (.ofString "/b") "e/../l" =
      { resolvedPath := some "/b/l", found := true, kind := .relative } := by
    decide +kernel
  have clear : linkedDisk.NeverLeavesLink (.ofString "/b/e/../l") := by
    intro before after split target
    have steps : (Path.ofString "/b/e/../l").steps =
        [Utf8.encode ['b'], Utf8.encode ['e'], Path.up, Utf8.encode ['l']] := by
      decide +kernel
    rw [steps] at split
    -- The one step up stands behind two names, which lead to a directory.
    rcases before with _ | ⟨first, _ | ⟨second, _ | ⟨third, more⟩⟩⟩
    · exact absurd (List.cons.inj split).1 (by decide)
    · exact absurd (List.cons.inj (List.cons.inj split).2).1 (by decide)
    · obtain ⟨rfl, rest⟩ := List.cons.inj split
      obtain ⟨rfl, _⟩ := List.cons.inj rest
      have directory : linkedDisk.nodeOrLink
          (Path.ofSteps true [Utf8.encode ['b'], Utf8.encode ['e']]).normalize =
            .ok (.directory []) := rfl
      intro link
      cases directory.symm.trans link
    · have rest : [Utf8.encode ['l']] = more ++ Path.up :: after :=
        (List.cons.inj (List.cons.inj (List.cons.inj split).2).2).2
      cases more with
      | nil => exact absurd (List.cons.inj rest).1 (by decide)
      | cons _ more => simp at rest
  obtain ⟨_, _, names⟩ := resolvePath_leads_where_normal_form_leads (by decide +kernel) resolved
    (by decide +kernel)
  exact ⟨resolved, (names ⟨"/b/l", by decide +kernel⟩).2 clear⟩

/-- Behind a link, a step up leads to the directory that holds what the link leads to. -/
theorem resolvePath_answer_missing_behind_link :
    linkedDisk.resolvePath (.ofString "/b") "l/../f" =
        { resolvedPath := some "/b/f", found := true, kind := .relative } ∧
      linkedDisk.isFile (includeCandidate (.ofString "/b") (.ofString "l/../f")).1 = true ∧
      linkedDisk.has (.ofString "/b/f") = false := by
  decide +kernel

/-- Two rule roots: one with a backslash in the name of its file, and one whose own name is no text. -/
def misnamedDisk : Disk where
  root := [
    (⟨Utf8.encode "z".toList, by decide +kernel⟩, .directory [
      (⟨Utf8.encode "g\\h".toList, by decide +kernel⟩, .file [])]),
    (⟨[0xFF], by decide +kernel⟩, .directory [
      (⟨Utf8.encode "g".toList, by decide +kernel⟩, .file [])])]
  workingDirectory := { location := [] }

/-- A backslash is shown as a separator, which it is not. -/
theorem resolvePath_answer_missing_for_backslash :
    misnamedDisk.resolvePath (.ofString "/z") "g\\h" =
        { resolvedPath := some "/z/g/h", found := true, kind := .relative } ∧
      misnamedDisk.isFile (includeCandidate (.ofString "/z") (.ofString "g\\h")).1 = true ∧
      misnamedDisk.has (.ofString "/z/g/h") = false := by
  decide +kernel

/-- Bytes that form no character are shown by a character that has other bytes. -/
theorem resolvePath_answer_missing_for_fault :
    misnamedDisk.resolvePath ⟨[Path.separator, 0xFF]⟩ "g" =
        { resolvedPath := some "/\uFFFD/g", found := true, kind := .relative } ∧
      misnamedDisk.isFile (includeCandidate ⟨[Path.separator, 0xFF]⟩ (.ofString "g")).1 = true ∧
      misnamedDisk.has (.ofString "/\uFFFD/g") = false := by
  decide +kernel

end Disk

end RuleSurvey
