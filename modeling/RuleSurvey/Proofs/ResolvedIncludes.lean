import RuleSurvey.Proofs.Includes
import RuleSurvey.Proofs.Survey
import RuleSurvey.Proofs.Path

namespace RuleSurvey

/-!
What a report says of the paths of its includes. Every entry has its resolution, and whether a path is
found depends on nothing but the path; so a path is either found in every record that declares it or
listed, once, among the unresolved ones.
-/

section Extension

variable {path : Path} {suffix : List UInt8}

def Path.dot : UInt8 := 46

/-- What a file name has behind its last dot. -/
def Path.suffix? (name : List UInt8) : Option (List UInt8) :=
  if (name.reverse.dropWhile (· != dot)).length ≤ 1 then none
  else some (name.reverse.takeWhile (· != dot)).reverse

theorem Path.suffix?_eq_some_iff {name : List UInt8} :
    suffix? name = some suffix ↔ ∃ stem, stem ≠ [] ∧ dot ∉ suffix ∧ name = stem ++ dot :: suffix := by
  rw [suffix?, Option.ite_none_left_eq_some, Option.some.injEq, Nat.not_le]
  constructor
  · intro cut
    obtain ⟨long, rfl⟩ := cut
    cases behind : name.reverse.dropWhile (· != dot) with
    | nil => simp [behind] at long
    | cons mark turned =>
        have whole := congrArg List.reverse (Text.eq_takeWhile_append behind)
        rw [List.reverse_reverse, List.reverse_append, List.reverse_cons, List.append_assoc] at whole
        refine ⟨turned.reverse, ?_, ?_, whole⟩
        · intro empty
          simp [behind, List.reverse_eq_nil_iff.mp empty] at long
        · rw [List.mem_reverse]
          exact Text.not_mem_takeWhile dot _
  · intro spelled
    obtain ⟨stem, filled, undotted, rfl⟩ := spelled
    have undotted : dot ∉ suffix.reverse := by simpa using undotted
    have turned : (stem ++ dot :: suffix).reverse = suffix.reverse ++ dot :: stem.reverse := by
      simp
    rw [turned, Text.takeWhile_append_mark undotted, Text.dropWhile_append_mark undotted]
    simpa using List.length_pos_iff.mpr filled

/-- The extension is what follows the last dot of the file name, if that dot does not come first. -/
theorem Path.extension?_eq_some_iff :
    path.extension? = some suffix ↔
      ∃ stem, stem ≠ [] ∧ dot ∉ suffix ∧ path.fileName? = some (stem ++ dot :: suffix) := by
  change path.fileName?.bind suffix? = some suffix ↔ _
  rw [Option.bind_eq_some_iff]
  constructor
  · intro found
    obtain ⟨name, named, cut⟩ := found
    obtain ⟨stem, filled, undotted, rfl⟩ := suffix?_eq_some_iff.mp cut
    exact ⟨stem, filled, undotted, named⟩
  · intro spelled
    obtain ⟨stem, filled, undotted, named⟩ := spelled
    exact ⟨_, named, suffix?_eq_some_iff.mpr ⟨stem, filled, undotted, rfl⟩⟩

end Extension

/-- The path of a lookup table: its file name ends in `.pl` or `.pm` with something in front. -/
def NamesLookupTable (path : String) : Prop :=
  ∃ stem suffix, stem ≠ [] ∧
    (Path.ofString path).fileName? = some (stem ++ Path.dot :: Utf8.encode suffix) ∧
    suffix.map Char.toLower ∈ ["pl".toList, "pm".toList]

theorem isLookupFile_iff {path : String} : isLookupFile path = true ↔ NamesLookupTable path := by
  have accepted : isLookupFile path = true ↔ ∃ suffix,
      (Path.ofString path).extension?.bind Utf8.decode? = some suffix ∧
        suffix.map Char.toLower ∈ ["pl".toList, "pm".toList] := by
    unfold isLookupFile
    cases (Path.ofString path).extension?.bind Utf8.decode? <;> simp
  rw [accepted]
  constructor
  · intro found
    obtain ⟨suffix, read, lowered⟩ := found
    obtain ⟨bytes, cut, decoded⟩ := Option.bind_eq_some_iff.mp read
    obtain ⟨stem, filled, _, named⟩ := Path.extension?_eq_some_iff.mp cut
    rw [Utf8.decode?_eq_some_iff.mp decoded] at named
    exact ⟨stem, suffix, filled, named, lowered⟩
  · intro spelled
    obtain ⟨stem, suffix, filled, named, lowered⟩ := spelled
    have undotted : Path.dot ∉ Utf8.encode suffix := by
      intro member
      have listed := List.mem_map_of_mem (f := Char.toLower) (Utf8.mem_of_mem_encode (by decide) member)
      revert listed
      rcases List.mem_pair.mp lowered with same | same <;> rw [same] <;> decide
    have cut := Path.extension?_eq_some_iff.mpr ⟨stem, filled, undotted, named⟩
    refine ⟨suffix, ?_, lowered⟩
    rw [cut, Option.bind_some, Utf8.decode?_eq_some_iff]

namespace ResolvedInclude

/-- The entry of the manifest that a record answers. -/
def entry (resolution : ResolvedInclude) : Include :=
  ⟨resolution.name, resolution.declaredPath⟩

/-- What the parts of a record owe each other. -/
structure Consistent (resolution : ResolvedInclude) : Prop where
  shown_iff : resolution.resolvedPath.isSome = true ↔ resolution.found = true
  located_iff : resolution.kind = .absolute ∨ resolution.kind = .relative ↔ resolution.found = true
  absolute : resolution.kind = .absolute → resolution.declaredPath.toList.head? = some '/'
  relative : resolution.kind = .relative → resolution.declaredPath.toList.head? ≠ some '/'
  filled : resolution.kind ≠ .empty

end ResolvedInclude

namespace Disk

variable (disk : Disk) (root : Path) (name : String) {declared : String}

theorem resolvePath_of_ne_empty (filled : declared ≠ "") :
    disk.resolvePath root declared =
      let (candidate, kind) := includeCandidate root (.ofString declared)
      if disk.has candidate then
        { resolvedPath := some candidate.normalizedDisplay, found := true, kind }
      else { resolvedPath := none, found := false, kind := .unresolved } := by
  have given : declared.isEmpty = false := by simpa using filled
  simp [resolvePath, given]

theorem resolveInclude_value :
    (disk.resolveInclude root name declared).value =
      { name, declaredPath := declared
        resolvedPath := (disk.resolvePath root declared).resolvedPath
        found := (disk.resolvePath root declared).found
        kind := (disk.resolvePath root declared).kind } := rfl

theorem resolveInclude_consistent (filled : declared ≠ "") :
    (disk.resolveInclude root name declared).value.Consistent := by
  rw [resolveInclude_value, disk.resolvePath_of_ne_empty root filled]
  unfold includeCandidate
  cases absolute : (Path.ofString declared).isAbsolute with
  | true =>
      have starts := Path.isAbsolute_ofString.mp absolute
      cases present : disk.has (Path.ofString declared) <;>
        constructor <;> simp [present, starts]
  | false =>
      have starts : declared.toList.head? ≠ some '/' := by
        intro first
        rw [Path.isAbsolute_ofString.mpr first] at absolute
        cases absolute
      cases present : disk.has (root.join (Path.ofString declared)) <;>
        constructor <;> simp [present, starts]

theorem resolveInclude_found_iff (filled : declared ≠ "") :
    (disk.resolveInclude root name declared).value.found = true ↔
      disk.has (includeCandidate root (.ofString declared)).1 = true := by
  rw [resolveInclude_value, disk.resolvePath_of_ne_empty root filled]
  dsimp only
  split <;> simp [*]

end Disk

namespace Report

variable {report : Report} {hidden : List String} {path : String}

/-- The declared paths of the records for which nothing was found. -/
def pathsNotFound (report : Report) : List String :=
  (report.resolutions.filter (!·.found)).map (·.declaredPath)

theorem mem_pathsNotFound_iff :
    path ∈ report.pathsNotFound ↔
      ∃ resolution ∈ report.resolutions, resolution.found = false ∧ resolution.declaredPath = path := by
  simp [pathsNotFound, and_assoc]

theorem Coherent.unresolvedPaths_eq (coherent : report.Coherent hidden) :
    report.missing.unresolvedPaths = report.pathsNotFound.eraseDups := by
  rw [coherent.missing]
  rfl

theorem Coherent.firstSeen_unresolvedPaths (coherent : report.Coherent hidden) :
    FirstSeen report.pathsNotFound (fun _ => True) report.missing.unresolvedPaths := by
  rw [coherent.unresolvedPaths_eq]
  have listed := firstSeen_filter_eraseDups report.pathsNotFound fun _ => true
  rw [List.filter_true] at listed
  exact listed.congr fun _ _ => iff_of_true rfl trivial

theorem Coherent.unresolvedLookups_eq (coherent : report.Coherent hidden) :
    report.missing.unresolvedLookups = report.missing.unresolvedPaths.filter isLookupFile := by
  rw [coherent.missing]
  rfl

end Report

section

variable (disk : Disk) (options : SurveyOptions) (target : Target)

theorem valid_of_mem_survey_includes {entry : Include}
    (member : entry ∈ (survey disk options target).value.includes) : entry.Valid := by
  rw [(survey_readFrom disk options target).includes, disk.includes_value] at member
  cases found : (disk.regularText (BasePaths.ofRoot target.root options).includes).value with
  | none => simp [found] at member
  | some text =>
      rw [found, Option.map_some, Option.getD_some] at member
      exact valid_of_mem_includesOf member

/-- Every record answers an entry whose path is not empty. -/
theorem exists_entry_of_resolution {resolution : ResolvedInclude}
    (member : resolution ∈ (survey disk options target).value.resolutions) :
    ∃ entry : Include, entry.path ≠ "" ∧
      resolution = (disk.resolveInclude target.root entry.name entry.path).value := by
  rw [(survey_readFrom disk options target).resolutions] at member
  obtain ⟨entry, listed, rfl⟩ := List.mem_map.mp member
  exact ⟨entry, (valid_of_mem_survey_includes disk options target listed).located, rfl⟩

theorem map_entry_survey_resolutions :
    (survey disk options target).value.resolutions.map ResolvedInclude.entry =
      (survey disk options target).value.includes := by
  rw [(survey_readFrom disk options target).resolutions, List.map_map]
  exact List.map_id _

/-- Whether a record found something follows from its path alone. -/
theorem found_eq_of_declaredPath_eq {first second : ResolvedInclude}
    (memberFirst : first ∈ (survey disk options target).value.resolutions)
    (memberSecond : second ∈ (survey disk options target).value.resolutions)
    (same : first.declaredPath = second.declaredPath) : first.found = second.found := by
  obtain ⟨entry, _, rfl⟩ := exists_entry_of_resolution disk options target memberFirst
  obtain ⟨other, _, rfl⟩ := exists_entry_of_resolution disk options target memberSecond
  simp only [Disk.resolveInclude_value] at same ⊢
  rw [same]

end

/--
Every entry of the manifest has one record, in order, whose parts agree with each other and with the
disk. The unresolved paths are those of the records that found nothing, and no record that found
something has one of them; the lookup files are the unresolved paths with a certain extension.
-/
theorem survey_resolutions_coherent (disk : Disk) (options : SurveyOptions) (target : Target) :
    let report := (survey disk options target).value
    report.ReadFrom disk options target ∧
      report.resolutions.map ResolvedInclude.entry = report.includes ∧
      (∀ resolution ∈ report.resolutions, resolution.Consistent ∧
        (resolution.found = true ↔ disk.has
          (Disk.includeCandidate target.root (.ofString resolution.declaredPath)).1 = true)) ∧
      FirstSeen report.pathsNotFound (fun _ => True) report.missing.unresolvedPaths ∧
      (∀ resolution ∈ report.resolutions, resolution.found = true →
        resolution.declaredPath ∉ report.missing.unresolvedPaths) ∧
      report.missing.unresolvedLookups.Sublist report.missing.unresolvedPaths ∧
      ∀ path, path ∈ report.missing.unresolvedLookups ↔
        path ∈ report.missing.unresolvedPaths ∧ NamesLookupTable path := by
  intro report
  have coherent := survey_coherent disk options target
  have listed := coherent.firstSeen_unresolvedPaths
  refine ⟨survey_readFrom disk options target, map_entry_survey_resolutions disk options target, ?_,
    listed, ?_, ?_, ?_⟩
  · intro resolution member
    obtain ⟨entry, filled, rfl⟩ := exists_entry_of_resolution disk options target member
    exact ⟨disk.resolveInclude_consistent target.root entry.name filled,
      disk.resolveInclude_found_iff target.root entry.name filled⟩
  · intro resolution member found unresolved
    obtain ⟨other, among, unfound, same⟩ :=
      Report.mem_pathsNotFound_iff.mp ((listed.mem_iff _).mp unresolved).1
    rw [found_eq_of_declaredPath_eq disk options target among member same, found] at unfound
    cases unfound
  · rw [coherent.unresolvedLookups_eq]
    exact List.filter_sublist
  · intro path
    rw [coherent.unresolvedLookups_eq, List.mem_filter, isLookupFile_iff]

end RuleSurvey
