import RuleSurvey.Proofs.Lookup
import RuleSurvey.Proofs.Survey

namespace RuleSurvey

/-!
Which base files a report shows as present, and what it reads from them. A place is shown for anything
that exists, and text is read only from a regular file. A path that is looked up never ends at a link,
so what exists and is no file is a directory; there, and only there, a place is shown and nothing is
read.
-/

/-- No link stands on the way to a place. -/
def Place.Linkless (place : Place) : Prop :=
  ∀ entry ∈ place.trail, ∀ target, entry.2 ≠ .link target

namespace Place.Linkless

variable {place : Place}

theorem root : Linkless { trail := [] } :=
  List.forall_mem_nil _

theorem parent (clean : place.Linkless) : place.parent.Linkless := by
  unfold Place.parent
  split
  · exact fun entry member => clean entry (List.mem_of_mem_tail member)
  · exact clean

theorem along (clean : place.Linkless) (target : Path) : (place.along target).Linkless := by
  unfold Place.along
  split
  · exact root
  · exact clean

end Place.Linkless

namespace Disk

variable {disk : Disk} {place next finish : Place} {links left : Nat} {step : List UInt8}
  {steps : List (List UInt8)} {path : Path} {node : Node}

theorem linkless_of_move (clean : place.Linkless)
    (moved : disk.move place step = .ok (.reach next)) : next.Linkless := by
  by_cases stays : step = Path.here
  · cases eq_of_move_here (stays ▸ moved)
    exact clean
  · by_cases climbs : step = Path.up
    · cases eq_of_move_up (climbs ▸ moved)
      exact clean.parent
    · obtain ⟨_, name, node, _, _, _, _, ⟨_, _, met⟩ | ⟨solid, reached⟩⟩ :=
        exists_entry_of_move stays climbs moved
      · cases met
      · cases reached
        exact List.forall_mem_cons.mpr ⟨solid, clean⟩

theorem Arrives.linkless (arrives : disk.Arrives links place steps left finish)
    (clean : place.Linkless) : finish.Linkless := by
  induction arrives with
  | done => exact clean
  | step moved _ ih => exact ih (linkless_of_move clean moved)
  | jump _ _ _ ih => exact ih (clean.along _)

theorem linkless_of_walk (clean : place.Linkless)
    (walked : disk.walk true links place steps = .ok finish) : finish.Linkless := by
  obtain ⟨left, arrives⟩ := exists_arrives walked
  exact arrives.linkless clean

theorem linkless_of_origin {base : Place} (starts : disk.origin path = .ok base) : base.Linkless := by
  unfold origin start at starts
  split at starts
  · cases starts
    exact .root
  · cases walked : disk.walk true 0 { trail := [] } (disk.workingDirectory.location.map (·.bytes)) with
    | error reason =>
        rw [walked] at starts
        cases starts
    | ok place =>
        rw [walked] at starts
        cases starts
        have clean : place.Linkless := linkless_of_walk .root walked
        exact clean

theorem nodeAt_ne_link (clean : place.Linkless) (target : Path) : disk.nodeAt place ≠ .link target := by
  unfold nodeAt
  split
  · unfold nodeOn
    split
    · nofun
    · rename_i same
      exact clean _ (same ▸ List.mem_cons_self) target
  · nofun

/-- Where all links are followed, none is left at the end. -/
theorem node_ne_link (found : disk.node path = .ok node) (target : Path) : node ≠ .link target := by
  obtain ⟨place, looked, rfl⟩ := exists_find_of_node found
  obtain ⟨_, base, starts, walked⟩ := find_eq_ok_iff.mp looked
  exact nodeAt_ne_link (linkless_of_walk (linkless_of_origin starts) walked) target

/-- What exists is a file or a directory. -/
theorem has_eq (disk : Disk) (path : Path) :
    disk.has path = (disk.isFile path || disk.isDirectory path) := by
  unfold has isFile isDirectory
  cases named : disk.node path with
  | error reason => rfl
  | ok node =>
      cases node with
      | file content => rfl
      | directory entries => rfl
      | link target => exact absurd rfl (node_ne_link named target)

theorem isFile_of_not_has (missing : disk.has path = false) : disk.isFile path = false := by
  rw [has_eq, Bool.or_eq_false_iff] at missing
  exact missing.1

theorem isDirectory_of_isFile (file : disk.isFile path = true) : disk.isDirectory path = false := by
  unfold isFile at file
  unfold isDirectory
  split at file
  · rename_i content named
    rw [named]
  · cases file

theorem isFile_of_isDirectory (directory : disk.isDirectory path = true) : disk.isFile path = false := by
  cases file : disk.isFile path with
  | false => rfl
  | true =>
      rw [isDirectory_of_isFile file] at directory
      cases directory

theorem isSome_regularText : (disk.regularText path).value.isSome = disk.isFile path := by
  unfold regularText
  split <;> simp [*]

theorem regularText_of_not_isFile (noFile : disk.isFile path = false) :
    (disk.regularText path).value = none := by
  simp [regularText, noFile]

theorem basePlace_of_has (present : disk.has path = true) :
    disk.basePlace path = some path.display :=
  if_pos present

theorem basePlace_of_not_has (missing : disk.has path = false) : disk.basePlace path = none :=
  if_neg (by simp [missing])

theorem isSome_basePlace : (disk.basePlace path).isSome = disk.has path := by
  unfold basePlace
  split <;> simp [*]

end Disk

/--
What a report shows of one base file: the place where it is expected, if something is there, and the
items that are read from its text.
-/
structure BaseShown (disk : Disk) (path : Path) {α : Type} (itemsOf : String → List α)
    (place : Option String) (items : List α) : Prop where
  read : ∀ text, (disk.regularText path).value = some text →
    place = some path.display ∧ items = itemsOf text
  directory : disk.isDirectory path = true →
    (disk.regularText path).value = none ∧ place = some path.display ∧ items = []
  missing : disk.has path = false →
    (disk.regularText path).value = none ∧ place = none ∧ items = []
  empty : place = none → items = []
  /-- A place is shown exactly for a text that is read, unless a directory stands there. -/
  agrees_iff : (place.isSome = true ↔ (disk.regularText path).value.isSome = true) ↔
    disk.isDirectory path = false

theorem Disk.baseShown (disk : Disk) (path : Path) {α : Type} (itemsOf : String → List α) :
    BaseShown disk path itemsOf (disk.basePlace path)
      (((disk.regularText path).value.map itemsOf).getD []) where
  read text found := by
    have file : disk.isFile path = true := by rw [← isSome_regularText, found, Option.isSome_some]
    have present : disk.has path = true := by rw [has_eq, file, Bool.true_or]
    exact ⟨basePlace_of_has present, by rw [found, Option.map_some, Option.getD_some]⟩
  directory directory := by
    have unread := regularText_of_not_isFile (isFile_of_isDirectory directory)
    have present : disk.has path = true := by rw [has_eq, directory, Bool.or_true]
    exact ⟨unread, basePlace_of_has present, by rw [unread, Option.map_none, Option.getD_none]⟩
  missing missing := by
    have unread := regularText_of_not_isFile (isFile_of_not_has missing)
    exact ⟨unread, basePlace_of_not_has missing, by rw [unread, Option.map_none, Option.getD_none]⟩
  empty hidden := by
    have missing : disk.has path = false := by rw [← isSome_basePlace, hidden, Option.isSome_none]
    rw [regularText_of_not_isFile (isFile_of_not_has missing), Option.map_none, Option.getD_none]
  agrees_iff := by
    rw [isSome_basePlace, isSome_regularText, has_eq]
    cases file : disk.isFile path with
    | true => simp [isDirectory_of_isFile file]
    | false => simp

/--
Each base file is read if its path leads to a regular file, and then its place is shown and its items
are those of its text. A path that leads nowhere gives neither. Where a directory stands in place of
the file nothing is read and a place is shown all the same, so that the two agree exactly if no
directory stands there.
-/
theorem survey_base_places_agree_iff (disk : Disk) (options : SurveyOptions) (target : Target) :
    let report := (survey disk options target).value
    let paths := BasePaths.ofRoot target.root options
    BaseShown disk paths.includes includesOf report.base.includes report.includes ∧
      BaseShown disk paths.load loadCallsOf report.base.load report.loadCalls ∧
      BaseShown disk paths.rules dispatchRulesOf report.base.rules report.rules := by
  intro report paths
  have read := survey_readFrom disk options target
  rw [read.includes, read.loadCalls, read.rules, disk.includes_value, disk.loadCalls_value,
    disk.dispatchRules_value, show report.base = disk.basePlaces paths from rfl]
  exact ⟨disk.baseShown _ _, disk.baseShown _ _, disk.baseShown _ _⟩

/-- A rule root in which a directory has the name of the include manifest. -/
def occupiedDisk : Disk where
  root := [(⟨Utf8.encode "q".toList, by decide +kernel⟩, .directory [
    (⟨Utf8.encode "base.includes".toList, by decide +kernel⟩, .directory [])])]
  workingDirectory := { location := [] }

/-- The directory is shown as the place of the manifest, though there is no text to read. -/
theorem survey_shows_place_of_directory :
    let target : Target := ⟨.ofString "/q", none⟩
    let report := (survey occupiedDisk {} target).value
    Target.ofPath occupiedDisk (.ofString "/q") = .ok target ∧
      report.base.includes = some "/q/base.includes" ∧
      (occupiedDisk.regularText (BasePaths.ofRoot target.root {}).includes).value = none ∧
      report.includes = [] :=
  ⟨rfl, by decide +kernel⟩

end RuleSurvey
