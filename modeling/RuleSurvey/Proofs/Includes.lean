import RuleSurvey.Manifest
import RuleSurvey.Proofs.Text

namespace RuleSurvey

/-!
Include manifests, read and written. A line gives an entry exactly if it spells a valid one, with
blanks around its parts where they do not matter; so entries are read as they were written, and a
manifest may be cut at any line feed.
-/

/-- An entry that a line can give. -/
structure Include.Valid (entry : Include) : Prop where
  named : entry.name ≠ ""
  located : entry.path ≠ ""
  nameTrimmed : Text.trim entry.name.toList = entry.name.toList
  pathTrimmed : Text.trim entry.path.toList = entry.path.toList
  nameUndivided : '\n' ∉ entry.name.toList
  pathUndivided : '\n' ∉ entry.path.toList
  uncut : ',' ∉ entry.name.toList
  /-- A line that starts with this mark is a comment. -/
  unmarked : entry.name.toList.head? ≠ some '#'

instance Include.decidableValid (entry : Include) : Decidable entry.Valid :=
  decidable_of_iff ((entry.name ≠ "" ∧ entry.path ≠ "") ∧
      (Text.trim entry.name.toList = entry.name.toList ∧
        Text.trim entry.path.toList = entry.path.toList) ∧
      ('\n' ∉ entry.name.toList ∧ '\n' ∉ entry.path.toList) ∧
      ',' ∉ entry.name.toList ∧ entry.name.toList.head? ≠ some '#')
    ⟨fun parts => ⟨parts.1.1, parts.1.2, parts.2.1.1, parts.2.1.2, parts.2.2.1.1, parts.2.2.1.2,
        parts.2.2.2.1, parts.2.2.2.2⟩,
      fun whole => ⟨⟨whole.named, whole.located⟩, ⟨whole.nameTrimmed, whole.pathTrimmed⟩,
        ⟨whole.nameUndivided, whole.pathUndivided⟩, whole.uncut, whole.unmarked⟩⟩

namespace Include

open Text

variable {line : List Char} {entry : Include}

/-- The blanks that a line may have around the two parts of an entry. -/
structure Spacing where
  lead : Blanks
  beforeComma : Blanks
  afterComma : Blanks
  trail : Blanks

/-- The text of an entry without the outer blanks. -/
def core (entry : Include) (spacing : Spacing) : List Char :=
  entry.name.toList ++ (spacing.beforeComma.val ++
    ',' :: (spacing.afterComma.val ++ entry.path.toList))

def spaced (entry : Include) (spacing : Spacing) : List Char :=
  spacing.lead.val ++ (entry.core spacing ++ spacing.trail.val)

theorem ofLine?_trim (line : List Char) : ofLine? (trim line) = ofLine? line := by
  unfold ofLine?
  rw [trim_trim]

theorem ofLine?_dropReturn (line : List Char) : ofLine? (dropReturn line) = ofLine? line := by
  rw [← ofLine?_trim, trim_dropReturn, ofLine?_trim]

theorem not_mem_blanks (run : Blanks) : ',' ∉ run.val := by
  intro member
  exact absurd (run.property _ member) (by decide)

namespace Valid

theorem head?_core (valid : entry.Valid) (spacing : Spacing) :
    (entry.core spacing).head? = entry.name.toList.head? := by
  have nonempty : entry.name.toList ≠ [] := by simpa using valid.named
  rw [core, List.head?_append, List.head?_eq_some_head nonempty, Option.some_or]

theorem getLast?_core (valid : entry.Valid) (spacing : Spacing) :
    (entry.core spacing).getLast? = entry.path.toList.getLast? := by
  have nonempty : entry.path.toList ≠ [] := by simpa using valid.located
  rw [core, List.getLast?_append, List.getLast?_append, ← List.cons_append, List.getLast?_append,
    List.getLast?_eq_some_getLast nonempty]
  rfl

theorem trim_core (valid : entry.Valid) (spacing : Spacing) :
    trim (entry.core spacing) = entry.core spacing := by
  apply trim_eq_self
  · intro c first
    rw [valid.head?_core, ← valid.nameTrimmed] at first
    exact isBlank_of_head?_trim first
  · intro c last
    rw [valid.getLast?_core, ← valid.pathTrimmed] at last
    exact isBlank_of_getLast?_trim last

/-- The first comma is the one between the parts. -/
theorem cut_core (valid : entry.Valid) (spacing : Spacing) :
    (entry.core spacing).takeWhile (· != ',') = entry.name.toList ++ spacing.beforeComma.val ∧
      (entry.core spacing).dropWhile (· != ',') =
        ',' :: (spacing.afterComma.val ++ entry.path.toList) := by
  have uncut : ',' ∉ entry.name.toList ++ spacing.beforeComma.val :=
    List.not_mem_append valid.uncut (not_mem_blanks _)
  rw [core, ← List.append_assoc]
  exact ⟨takeWhile_append_mark uncut, dropWhile_append_mark uncut⟩

theorem ofLine?_spaced (valid : entry.Valid) (spacing : Spacing) :
    ofLine? (entry.spaced spacing) = some entry := by
  have trimmed : trim (entry.spaced spacing) = entry.core spacing :=
    (trim_append _ _ _).trans (valid.trim_core spacing)
  obtain ⟨before, behind⟩ := valid.cut_core spacing
  have name : trim (entry.name.toList ++ spacing.beforeComma.val) = entry.name.toList :=
    (trim_append ⟨[], by simp⟩ _ _).trans valid.nameTrimmed
  have path : trim (spacing.afterComma.val ++ entry.path.toList) = entry.path.toList := by
    simpa using (trim_append spacing.afterComma _ ⟨[], by simp⟩).trans valid.pathTrimmed
  have nameNonempty : entry.name.toList.isEmpty = false := by simpa using valid.named
  have pathNonempty : entry.path.toList.isEmpty = false := by simpa using valid.located
  simp only [ofLine?, trimmed, valid.head?_core, if_neg valid.unmarked, before, behind, name, path,
    nameNonempty, pathNonempty, Bool.or_self, Bool.false_eq_true, if_false, String.ofList_toList]

end Valid

/-- An entry is made of what stands before and behind the first comma of a line. -/
structure Cut (line : List Char) (entry : Include) where
  before : List Char
  behind : List Char
  whole : trim line = before ++ ',' :: behind
  uncut : ',' ∉ before
  unmarked : (trim line).head? ≠ some '#'
  name : entry.name = String.ofList (trim before)
  path : entry.path = String.ofList (trim behind)
  named : trim before ≠ []
  located : trim behind ≠ []

theorem Cut.of_ofLine? (read : ofLine? line = some entry) : Nonempty (Cut line entry) := by
  simp only [ofLine?] at read
  obtain ⟨unmarked, read⟩ := Option.ite_none_left_eq_some.mp read
  cases cut : (trim line).dropWhile (· != ',') with
  | nil => simp [cut] at read
  | cons mark behind =>
      rw [cut] at read
      obtain ⟨nonempty, same⟩ := Option.ite_none_left_eq_some.mp read
      simp only [Bool.or_eq_true, List.isEmpty_iff, not_or] at nonempty
      cases same
      exact ⟨{ before := (trim line).takeWhile (· != ','), behind
               whole := eq_takeWhile_append cut, uncut := not_mem_takeWhile ',' _
               unmarked, name := rfl, path := rfl, named := nonempty.1, located := nonempty.2 }⟩

namespace Cut

theorem mem_line (cut : Cut line entry) {c : Char}
    (member : c ∈ entry.name.toList ∨ c ∈ entry.path.toList) : c ∈ line := by
  apply mem_of_mem_trim
  rw [cut.whole]
  rw [cut.name, cut.path, String.toList_ofList, String.toList_ofList] at member
  rcases member with inName | inPath
  · exact List.mem_append_left _ (mem_of_mem_trim inName)
  · exact List.mem_append_right _ (List.mem_cons_of_mem _ (mem_of_mem_trim inPath))

theorem valid (cut : Cut line entry) (undivided : '\n' ∉ line) : entry.Valid where
  named := by simpa [cut.name] using cut.named
  located := by simpa [cut.path] using cut.located
  nameTrimmed := by rw [cut.name, String.toList_ofList, trim_trim]
  pathTrimmed := by rw [cut.path, String.toList_ofList, trim_trim]
  nameUndivided member := undivided (cut.mem_line (.inl member))
  pathUndivided member := undivided (cut.mem_line (.inr member))
  uncut member := by
    rw [cut.name, String.toList_ofList] at member
    exact cut.uncut (mem_of_mem_trim member)
  unmarked := by
    rw [cut.name, String.toList_ofList, head?_trim_of_eq_append cut.whole cut.named]
    exact cut.unmarked

theorem exists_spacing (cut : Cut line entry) : ∃ spacing, line = entry.spaced spacing := by
  obtain ⟨lead, trail, whole⟩ := exists_append_trim_append line
  obtain ⟨inner, beforeComma, before⟩ := exists_append_trim_append cut.before
  obtain ⟨afterComma, last, behind⟩ := exists_append_trim_append cut.behind
  refine ⟨⟨lead.append inner, beforeComma, afterComma, last.append trail⟩, ?_⟩
  have outer : line = lead.val ++ ((cut.before ++ ',' :: cut.behind) ++ trail.val) := by
    rw [← cut.whole, ← whole]
  rw [before, behind] at outer
  simpa [spaced, core, cut.name, cut.path] using outer

end Cut

/-- A line gives an entry exactly if it spells a valid one. -/
theorem ofLine?_eq_some_iff (undivided : '\n' ∉ line) :
    ofLine? line = some entry ↔ entry.Valid ∧ ∃ spacing, line = entry.spaced spacing := by
  constructor
  · intro read
    obtain ⟨cut⟩ := Cut.of_ofLine? read
    exact ⟨cut.valid undivided, cut.exists_spacing⟩
  · intro spelled
    obtain ⟨valid, spacing, rfl⟩ := spelled
    exact valid.ofLine?_spaced spacing

end Include

section Manifest

open Text

theorem valid_of_mem_includesOf {text : String} {entry : Include} (member : entry ∈ includesOf text) :
    entry.Valid := by
  obtain ⟨line, listed, read⟩ := List.mem_filterMap.mp member
  exact ((Include.ofLine?_eq_some_iff (not_mem_of_mem_lines listed)).mp read).1

theorem Include.Valid.ofLine?_toLine {entry : Include} (valid : entry.Valid) :
    ofLine? entry.toLine = some entry := by
  have read := valid.ofLine?_spaced ⟨⟨[], by simp⟩, ⟨[], by simp⟩, ⟨[], by simp⟩, ⟨[], by simp⟩⟩
  simpa [spaced, core, toLine] using read

theorem Include.Valid.not_mem_toLine {entry : Include} (valid : entry.Valid) :
    '\n' ∉ entry.toLine := by
  simp [toLine, valid.nameUndivided, valid.pathUndivided]

theorem filterMap_ofLine?_toLine {entries : List Include} (valid : ∀ entry ∈ entries, entry.Valid) :
    (entries.map Include.toLine).filterMap Include.ofLine? = entries := by
  induction entries with
  | nil => rfl
  | cons entry rest ih =>
      obtain ⟨first, others⟩ := List.forall_mem_cons.mp valid
      rw [List.map_cons, List.filterMap_cons_some first.ofLine?_toLine, ih others]

theorem includesOf_unlines {rows : List (List Char)} (undivided : ∀ row ∈ rows, '\n' ∉ row) :
    includesOf (String.ofList (unlines rows)) = rows.filterMap Include.ofLine? := by
  rw [includesOf, String.toList_ofList, lines_unlines undivided, List.filterMap_map]
  exact congrArg (List.filterMap · rows) (funext Include.ofLine?_dropReturn)

/-- An empty last line gives no entry, so it does not matter whether it counts as one. -/
theorem filterMap_ofLine?_splitOn (text : List Char) :
    ((text.splitOn '\n').map dropReturn).filterMap Include.ofLine? =
      (lines text).filterMap Include.ofLine? := by
  obtain ⟨front, last, cut, read⟩ := exists_splitOn_lines text
  rw [cut, read, List.map_append, List.filterMap_append, List.filterMap_append]
  congr 1
  split_ifs with empty
  · rw [empty]
    rfl
  · have same : [dropReturn last].filterMap Include.ofLine? = [last].filterMap Include.ofLine? := by
      simp only [List.filterMap_cons, Include.ofLine?_dropReturn]
    exact same

theorem includesOf_of_valid {entries : List Include} (valid : ∀ entry ∈ entries, entry.Valid) :
    includesOf (renderIncludes entries) = entries := by
  have undivided : ∀ row ∈ entries.map Include.toLine, '\n' ∉ row := by
    intro row member
    obtain ⟨entry, listed, rfl⟩ := List.mem_map.mp member
    exact (valid entry listed).not_mem_toLine
  rw [renderIncludes, includesOf_unlines undivided, filterMap_ofLine?_toLine valid]

theorem includesOf_append (front back : String) :
    includesOf (front ++ "\n" ++ back) = includesOf front ++ includesOf back := by
  have whole : (front ++ "\n" ++ back).toList = front.toList ++ '\n' :: back.toList := by simp
  rw [includesOf, whole, lines_append, List.filterMap_append, filterMap_ofLine?_splitOn]
  rfl

end Manifest

/--
Writing entries and reading them back: a manifest gives valid entries only, every list of valid
entries is read as it was written, and two manifests with a line feed between them have the entries
of both.
-/
theorem includesOf_renderIncludes :
    (∀ text : String, ∀ entry ∈ includesOf text, entry.Valid) ∧
      (∀ entries : List Include, (∀ entry ∈ entries, entry.Valid) →
        includesOf (renderIncludes entries) = entries) ∧
      ∀ front back : String,
        includesOf (front ++ "\n" ++ back) = includesOf front ++ includesOf back :=
  ⟨fun _ _ member => valid_of_mem_includesOf member, fun _ valid => includesOf_of_valid valid,
    includesOf_append⟩

/-- A path may hold commas and a mark, and blanks that stand inside a part are kept. -/
theorem includesOf_renderIncludes_sample :
    let entries : List Include := [⟨"a\r b", "#,\u00A0,c"⟩, ⟨"a\r b", "x"⟩]
    (∀ entry ∈ entries, entry.Valid) ∧ includesOf (renderIncludes entries) = entries := by
  intro entries
  have valid : ∀ entry ∈ entries, entry.Valid := by decide
  exact ⟨valid, includesOf_renderIncludes.2.1 entries valid⟩

end RuleSurvey
