import RuleSurvey.Report.Text
import RuleSurvey.Proofs.Path

namespace RuleSurvey

/-!
What the text of a report tells. After its head the text is a list of sections. The rows of a
section are neither blank nor headings, so they end at the next blank line, and no title begins with
another one, so a section is found by its title. The findings can therefore be read back from the
text, whatever is shown in them, as long as it stays on one line.
-/

namespace Report

/-- The lists of findings by their titles. -/
def lists (report : Report) : List (String × List String) := [
  ("Includes without definitions", report.missing.includes),
  ("Dispatch without definitions", report.missing.dispatched),
  ("Load calls without definitions", report.missing.loaded),
  ("Unresolved include paths", report.missing.unresolvedPaths),
  ("Unresolved lookup files", report.missing.unresolvedLookups),
  ("Unreached rule files", report.unreached)]

/--
The texts that a report shows as they are. A condition is not one of them: its blanks are collapsed.
-/
def shownTexts (report : Report) : List String :=
  report.root :: report.base.includes.toList ++ report.base.load.toList ++
    report.base.rules.toList ++ report.order.flatMap NumberedRule.functions ++
    report.lists.flatMap Prod.snd ++
    report.matched.ambiguous.flatMap fun entry => entry.1 :: entry.2

/-- The lengths of the lists of a report that its text counts. -/
def counts (report : Report) : List Nat := [
  report.ruleFiles.length, report.includes.length, report.loadCalls.length, report.rules.length,
  report.edges.length, report.unreached.length]

def opening (title : String) : List Char :=
  shown ("## " ++ title)

/--
A part of a report. Its rows are not blank, as the line is that ends them, and they do not begin
like a heading.
-/
structure Section where
  title : String
  /-- What the heading says after the title. -/
  tail : List Char
  rows : List (List Char)
  plain : ∀ row ∈ rows, ∃ c ∈ row.head?, c ≠ '#'

def Section.lines (part : Section) : List (List Char) :=
  if part.rows.isEmpty then []
  else [opening part.title ++ part.tail, []] ++ part.rows ++ [[]]

section Reading

/-- The rows of the section that has a title. -/
def rowsUnder (title : String) (lines : List (List Char)) : List (List Char) :=
  ((lines.dropWhile fun line => !(opening title).isPrefixOf line).drop 2).takeWhile (!·.isEmpty)

def itemIn (row : List Char) : String :=
  String.ofList (row.drop 3).dropLast

def itemsUnder (title : String) (lines : List (List Char)) : List String :=
  (rowsUnder title lines).map itemIn

def isNumber (text : List Char) : Bool :=
  !text.isEmpty && text.all Char.isDigit

/-- The numbers that stand between backticks. -/
def numbersIn (row : List Char) : List Nat :=
  ((row.splitOn '\x60').filter isNumber).map (Nat.ofDigitChars 10 · 0)

end Reading

/-- What the text of a report lists or counts. -/
structure Summary where
  missing : Missing
  unreached : List String
  counts : List Nat
deriving DecidableEq

def summary (report : Report) : Summary where
  missing := report.missing
  unreached := report.unreached
  counts := report.counts

def Summary.ofLines (lines : List (List Char)) : Summary where
  missing := {
    includes := itemsUnder "Includes without definitions" lines
    dispatched := itemsUnder "Dispatch without definitions" lines
    loaded := itemsUnder "Load calls without definitions" lines
    unresolvedPaths := itemsUnder "Unresolved include paths" lines
    unresolvedLookups := itemsUnder "Unresolved lookup files" lines }
  unreached := itemsUnder "Unreached rule files" lines
  counts := ((rowsUnder "Counts" lines).drop 2).flatMap numbersIn

def Summary.ofText (text : String) : Summary :=
  ofLines (text.toList.splitOn '\n').dropLast

section Sections

variable {title : String} {part other : Section} {parts : List Section}
variable {before lines : List (List Char)}

/-- A line is not the heading of a section with the title. -/
def Unopened (title : String) (line : List Char) : Prop :=
  ¬ opening title <+: line

theorem opening_eq (title : String) : opening title = shown "## " ++ shown title := by
  rw [opening, shown, String.toList_append]
  rfl

theorem unopened_nil (title : String) : Unopened title [] := by
  simp [Unopened, opening_eq, shown]

theorem unopened_of_head? {line : List Char} {c : Char} (first : c ∈ line.head?) (plain : c ≠ '#') :
    Unopened title line := by
  rintro ⟨rest, rfl⟩
  have mark : '#' = c := by simpa [opening_eq, shown] using first
  exact plain mark.symm

theorem unopened_of_apart {otherTitle : String}
    (apart : Text.Apart (shown title) (shown otherTitle)) (tail : List Char) :
    Unopened title (opening otherTitle ++ tail) := by
  rw [Unopened, opening_eq, opening_eq, List.append_assoc, List.prefix_append_right_inj]
  exact apart.not_prefix_append tail

theorem Section.unopened_of_mem_lines {line : List Char}
    (apart : Text.Apart (shown title) (shown part.title)) (member : line ∈ part.lines) :
    Unopened title line := by
  rw [lines] at member
  split at member
  · simp at member
  · rcases List.mem_append.mp member with member | last
    · rcases List.mem_append.mp member with heading | row
      · rcases List.mem_pair.mp heading with rfl | rfl
        · exact unopened_of_apart apart part.tail
        · exact unopened_nil title
      · obtain ⟨c, first, plain⟩ := part.plain line row
        exact unopened_of_head? first plain
    · rw [List.mem_singleton.mp last]
      exact unopened_nil title

theorem rowsUnder_append (unopened : ∀ line ∈ before, Unopened title line) :
    rowsUnder title (before ++ lines) = rowsUnder title lines := by
  rw [rowsUnder, List.dropWhile_append_of_pos, rowsUnder]
  intro line member
  rw [Bool.not_eq_true', Bool.eq_false_iff, ne_eq, List.isPrefixOf_iff_prefix]
  exact unopened line member

theorem rowsUnder_eq_nil (unopened : ∀ line ∈ lines, Unopened title line) :
    rowsUnder title lines = [] := by
  rw [← List.append_nil lines, rowsUnder_append unopened]
  rfl

theorem Section.rowsUnder_lines (full : part.rows ≠ []) (rest : List (List Char)) :
    rowsUnder part.title (part.lines ++ rest) = part.rows := by
  have opened : (opening part.title).isPrefixOf (opening part.title ++ part.tail) = true :=
    List.isPrefixOf_iff_prefix.mpr (List.prefix_append _ _)
  have solid : ∀ row ∈ part.rows, (!row.isEmpty) = true := by
    intro row member
    obtain ⟨c, first, _⟩ := part.plain row member
    cases row with
    | nil => simp at first
    | cons c row => rfl
  have shape : part.lines ++ rest =
      (opening part.title ++ part.tail) :: [] :: (part.rows ++ [] :: rest) := by
    simp [lines, full]
  rw [shape, rowsUnder, List.dropWhile_cons_of_neg (by simp [opened]), List.drop_succ_cons,
    List.drop_succ_cons, List.drop_zero, List.takeWhile_append_of_pos solid,
    List.takeWhile_cons_of_neg (by simp), List.append_nil]

/-- A section is found by its title, and it is empty if its heading is left out. -/
theorem rowsUnder_of_mem
    (apart : parts.Pairwise fun part other => Text.Apart (shown part.title) (shown other.title))
    (unopened : ∀ part ∈ parts, ∀ line ∈ before, Unopened part.title line) (member : part ∈ parts) :
    rowsUnder part.title (before ++ parts.flatMap Section.lines) = part.rows := by
  rw [rowsUnder_append (unopened part member)]
  clear unopened
  induction parts with
  | nil => simp at member
  | cons first rest ih =>
      obtain ⟨firstApart, restApart⟩ := List.pairwise_cons.mp apart
      rw [List.flatMap_cons]
      rcases List.mem_cons.mp member with rfl | later
      · by_cases empty : part.rows = []
        · -- The heading is left out too, and no later line can be taken for it.
          rw [empty]
          refine rowsUnder_eq_nil fun line listed => ?_
          rw [Section.lines, empty] at listed
          obtain ⟨other, otherMember, inside⟩ := List.mem_flatMap.mp (by simpa using listed)
          exact Section.unopened_of_mem_lines (firstApart other otherMember) inside
        · exact Section.rowsUnder_lines empty _
      · have skipped : ∀ line ∈ first.lines, Unopened part.title line := fun line listed =>
          Section.unopened_of_mem_lines (firstApart part later).symm listed
        rw [rowsUnder_append skipped]
        exact ih restApart later

end Sections

section Numbers

theorem not_mem_toDigits {c : Char} (plain : c.isDigit = false) (count : Nat) :
    c ∉ Nat.toDigits 10 count := by
  intro member
  simp [Nat.isDigit_of_mem_toDigits (by decide) (by decide) member] at plain

theorem isNumber_toDigits (count : Nat) : isNumber (Nat.toDigits 10 count) = true := by
  have digits : ∀ c ∈ Nat.toDigits 10 count, c.isDigit = true :=
    fun c member => Nat.isDigit_of_mem_toDigits (by decide) (by decide) member
  simpa [isNumber, Nat.toDigits_ne_nil] using digits

theorem numbersIn_eq_nil {gap : List Char} (unticked : '\x60' ∉ gap)
    (wordy : isNumber gap = false) : numbersIn gap = [] := by
  rw [numbersIn, List.splitOn_eq_singleton unticked, List.filter_cons_of_neg (by simp [wordy])]
  rfl

theorem numbersIn_tickedCount {gap : List Char} (unticked : '\x60' ∉ gap)
    (wordy : isNumber gap = false) (count : Nat) (rest : List Char) :
    numbersIn (gap ++ tickedCount count ++ rest) = count :: numbersIn rest := by
  have shape : gap ++ tickedCount count ++ rest =
      gap ++ '\x60' :: (Nat.toDigits 10 count ++ '\x60' :: rest) := by
    simp [tickedCount, ticked]
  rw [shape, numbersIn, List.splitOn_append_cons_self, List.splitOn_append_cons_self,
    List.splitOn_eq_singleton unticked,
    List.splitOn_eq_singleton (not_mem_toDigits (by decide) count), List.singleton_append,
    List.singleton_append, List.filter_cons_of_neg (by simp [wordy]),
    List.filter_cons_of_pos (isNumber_toDigits count), List.map_cons, Nat.ofDigitChars_ten_toDigits,
    numbersIn]

/-- A row gives each of its counts, and nothing between them is a number. -/
theorem numbersIn_counts {gap : List Char} (unticked : '\x60' ∉ gap) (wordy : isNumber gap = false)
    (first : Nat) (rest : List Nat) :
    numbersIn (gap ++ List.intercalate (shown " | ") ((first :: rest).map tickedCount) ++
      shown " |") = first :: rest := by
  -- The bar before a count is the gap, so that what follows the first count is such a row again.
  induction rest generalizing gap first with
  | nil =>
      rw [List.map_singleton, List.intercalate_singleton, numbersIn_tickedCount unticked wordy,
        numbersIn_eq_nil (by simp [shown]) (by decide +kernel)]
  | cons next rest ih =>
      have shape : gap ++
          List.intercalate (shown " | ") ((first :: next :: rest).map tickedCount) ++ shown " |" =
          gap ++ tickedCount first ++ (shown " | " ++
            List.intercalate (shown " | ") ((next :: rest).map tickedCount) ++ shown " |") := by
        rw [List.map_cons, List.map_cons, List.intercalate_cons_cons]
        simp only [List.append_assoc]
      rw [shape, numbersIn_tickedCount unticked wordy,
        ih (by simp [shown]) (by decide +kernel) next]

end Numbers

section Layout

variable {report : Report}

theorem itemIn_itemLine (item : String) : itemIn (itemLine item) = item := by
  have shape : itemLine item = '-' :: ' ' :: '\x60' :: (shown item ++ ['\x60']) := rfl
  rw [itemIn, shape, List.drop_succ_cons, List.drop_succ_cons, List.drop_succ_cons, List.drop_zero,
    List.dropLast_concat, shown, String.ofList_toList]

def countSection (report : Report) : Section where
  title := "Counts"
  tail := []
  rows := [
    shown "| rule files | includes | load calls | dispatch rules | edges | unreached |",
    shown "|---:|---:|---:|---:|---:|---:|",
    shown "| " ++ List.intercalate (shown " | ") (report.counts.map tickedCount) ++ shown " |"]
  plain := by
    rw [List.forall_mem_cons, List.forall_mem_cons, List.forall_mem_singleton]
    exact ⟨⟨'|', rfl, by decide⟩, ⟨'|', rfl, by decide⟩, ⟨'|', rfl, by decide⟩⟩

def orderSection (report : Report) : Section where
  title := "Dispatch order"
  tail := []
  rows :=
    if report.order.isEmpty then []
    else [shown "| # | condition | functions |", shown "|---:|---|---|"] ++ report.order.map stepLine
  plain := by
    split
    · simp
    · rw [List.forall_mem_append, List.forall_mem_cons, List.forall_mem_singleton,
        List.forall_mem_map]
      exact ⟨⟨⟨'|', rfl, by decide⟩, ⟨'|', rfl, by decide⟩⟩, fun step _ => ⟨'|', rfl, by decide⟩⟩

def listSection (title : String) (items : List String) : Section where
  title := title
  tail := shown " (" ++ Nat.toDigits 10 items.length ++ shown ")"
  rows := items.map itemLine
  plain := List.forall_mem_map.mpr fun item _ => ⟨'-', rfl, by decide⟩

def ambiguousSection (report : Report) : Section where
  title := "Ambiguous matches"
  tail := []
  rows := report.matched.ambiguous.map ambiguousLine
  plain := List.forall_mem_map.mpr fun entry _ => ⟨'-', rfl, by decide⟩

def sections (report : Report) : List Section :=
  [countSection report, orderSection report] ++
    (report.lists.map fun list => listSection list.1 list.2) ++ [ambiguousSection report]

theorem lines_countSection (report : Report) : (countSection report).lines = countLines report := by
  simp [Section.lines, countSection, countLines, counts, opening]

theorem lines_orderSection (report : Report) : (orderSection report).lines = orderLines report := by
  rw [Section.lines, orderLines]
  cases empty : report.order.isEmpty <;> simp [orderSection, empty, opening]

theorem lines_listSection (title : String) (items : List String) :
    (listSection title items).lines = listLines title items := by
  cases items <;> simp [Section.lines, listSection, listLines, opening, shown]

theorem lines_ambiguousSection (report : Report) :
    (ambiguousSection report).lines = ambiguousLines report := by
  rw [Section.lines, ambiguousLines]
  cases entries : report.matched.ambiguous <;> simp [ambiguousSection, entries, opening]

theorem textLines_eq (report : Report) :
    textLines report = headLines report ++ (sections report).flatMap Section.lines := by
  simp only [textLines, sections, lists, List.map_cons, List.map_nil, List.flatMap_append,
    List.flatMap_cons, List.flatMap_nil, lines_countSection, lines_orderSection, lines_listSection,
    lines_ambiguousSection, List.append_assoc, List.append_nil]

theorem sections_apart (report : Report) :
    (sections report).Pairwise fun part other =>
      Text.Apart (shown part.title) (shown other.title) := by
  have titles : (["Counts", "Dispatch order", "Includes without definitions",
      "Dispatch without definitions", "Load calls without definitions", "Unresolved include paths",
      "Unresolved lookup files", "Unreached rule files", "Ambiguous matches"].map shown).Pairwise
      Text.Apart := by decide +kernel
  have same : ((sections report).map fun part => shown part.title).Pairwise Text.Apart := titles
  exact List.pairwise_map.mp same

theorem unopened_of_mem_headLines {title : String} {line : List Char}
    (member : line ∈ headLines report) : Unopened title line := by
  have dashed : ∀ rest, Unopened title ('-' :: rest) :=
    fun rest => unopened_of_head? rfl (by decide)
  have first : Unopened title (shown "# Legacy rules inspection") := by
    simp [Unopened, opening_eq, shown]
  simp only [headLines, List.mem_cons, List.not_mem_nil, or_false] at member
  rcases member with rfl | rfl | rfl | rfl | rfl | rfl | rfl
  · exact first
  · exact unopened_nil title
  · exact dashed _
  · exact dashed _
  · exact dashed _
  · exact dashed _
  · exact unopened_nil title

theorem rowsUnder_textLines {part : Section} (member : part ∈ sections report) :
    rowsUnder part.title (textLines report) = part.rows := by
  rw [textLines_eq]
  exact rowsUnder_of_mem (sections_apart report)
    (fun _ _ _ listed => unopened_of_mem_headLines listed) member

theorem itemsUnder_textLines {list : String × List String} (member : list ∈ report.lists) :
    itemsUnder list.1 (textLines report) = list.2 := by
  have listed : listSection list.1 list.2 ∈ sections report :=
    List.mem_append_left _ (List.mem_append_right _ (List.mem_map_of_mem member))
  change (rowsUnder (listSection list.1 list.2).title (textLines report)).map itemIn = list.2
  rw [rowsUnder_textLines listed]
  change (list.2.map itemLine).map itemIn = list.2
  rw [List.map_map]
  exact List.map_id'' itemIn_itemLine list.2

theorem counts_textLines (report : Report) :
    ((rowsUnder "Counts" (textLines report)).drop 2).flatMap numbersIn = report.counts := by
  change ((rowsUnder (countSection report).title (textLines report)).drop 2).flatMap numbersIn = _
  rw [rowsUnder_textLines List.mem_cons_self]
  change numbersIn _ ++ [] = _
  rw [List.append_nil]
  exact numbersIn_counts (by simp [shown]) (by decide +kernel) _ _

theorem ofLines_textLines (report : Report) :
    Summary.ofLines (textLines report) = report.summary := by
  have read : ∀ list ∈ report.lists, itemsUnder list.1 (textLines report) = list.2 :=
    fun list member => itemsUnder_textLines member
  simp only [lists, List.forall_mem_cons] at read
  obtain ⟨includes, dispatched, loaded, paths, lookups, unreached, _⟩ := read
  rw [Summary.ofLines, counts_textLines, includes, dispatched, loaded, paths, lookups, unreached,
    summary]

end Layout

section OneLine

variable {report : Report}

theorem not_mem_ticked {text : List Char} (single : '\n' ∉ text) : '\n' ∉ ticked text := by
  simpa [ticked] using single

theorem not_mem_cell {text : List Char} (single : '\n' ∉ text) : '\n' ∉ cell text := by
  rw [cell, List.mem_flatMap]
  rintro ⟨c, member, inside⟩
  split at inside
  · simp at inside
  · rw [List.mem_singleton.mp inside] at single
    exact single member

theorem not_mem_fitted (width : Nat) (text : List Char) : '\n' ∉ fitted width text := by
  rw [fitted]
  split
  · exact Text.not_mem_collapse text
  · rw [List.mem_append, List.mem_singleton]
    rintro (kept | ellipsis)
    · exact Text.not_mem_collapse text (List.mem_of_mem_take kept)
    · exact absurd ellipsis (by decide)

theorem not_mem_commaSeparated {items : List (List Char)} (single : ∀ item ∈ items, '\n' ∉ item) :
    '\n' ∉ commaSeparated items := by
  intro member
  rcases Text.mem_or_mem_of_mem_intercalate member with gap | ⟨item, listed, inside⟩
  · simp [shown] at gap
  · exact single item listed inside

theorem shortName_eq (path : String) :
    shortName path = (Path.nameIn? path.toList).getD (shown path) := by
  rw [shortName, Path.fileName?_ofString]
  cases Path.nameIn? path.toList with
  | none => rfl
  | some fileName => exact Utf8.display_encode fileName

theorem not_mem_shortName {path : String} (single : '\n' ∉ path.toList) :
    '\n' ∉ shortName path := by
  rw [shortName_eq]
  cases named : Path.nameIn? path.toList with
  | none => exact single
  | some fileName =>
      intro inside
      exact single (Text.mem_of_mem_splitOn (Path.mem_splitOn_of_nameIn? named) inside)

theorem not_mem_placeLine {title : String} {place : Option String} (titled : '\n' ∉ shown title)
    (single : ∀ text ∈ place, '\n' ∉ shown text) : '\n' ∉ placeLine title place := by
  have placed : '\n' ∉ shown (place.getD "absent") := by
    cases place with
    | none => simp [shown]
    | some text => exact single text rfl
  have heads : '\n' ∉ shown ("- " ++ title ++ ": ") := by simpa [shown] using titled
  exact List.not_mem_append heads (not_mem_ticked placed)

theorem not_mem_stepLine {step : NumberedRule}
    (single : ∀ name ∈ step.functions, '\n' ∉ shown name) : '\n' ∉ stepLine step := by
  have index : '\n' ∉ tickedCount step.index :=
    not_mem_ticked (not_mem_toDigits (by decide) step.index)
  have condition :=
    not_mem_ticked (not_mem_cell (not_mem_fitted conditionWidth (shown step.condition)))
  have functions := not_mem_cell (not_mem_commaSeparated (List.forall_mem_map.mpr single))
  simp only [stepLine, List.mem_append, index, condition, functions]
  simp [shown]

theorem not_mem_itemLine {item : String} (single : '\n' ∉ shown item) : '\n' ∉ itemLine item :=
  List.not_mem_append (by simp [shown]) (not_mem_ticked single)

theorem not_mem_ambiguousLine {entry : String × List String}
    (single : ∀ text ∈ entry.1 :: entry.2, '\n' ∉ shown text) : '\n' ∉ ambiguousLine entry := by
  obtain ⟨name, paths⟩ := List.forall_mem_cons.mp single
  have files : '\n' ∉ commaSeparated (entry.2.map shortName) :=
    not_mem_commaSeparated (List.forall_mem_map.mpr fun path member =>
      not_mem_shortName (paths path member))
  simp only [ambiguousLine, List.mem_append, not_mem_ticked name, files]
  simp [shown]

/-- Neither the heading nor a row of a section is broken. -/
structure Section.Unbroken (part : Section) : Prop where
  title : '\n' ∉ shown part.title
  tail : '\n' ∉ part.tail
  rows : ∀ row ∈ part.rows, '\n' ∉ row

theorem Section.Unbroken.not_mem {part : Section} (unbroken : part.Unbroken) {line : List Char}
    (member : line ∈ part.lines) : '\n' ∉ line := by
  have heading : '\n' ∉ opening part.title ++ part.tail := by
    rw [opening_eq]
    exact List.not_mem_append (List.not_mem_append (by simp [shown]) unbroken.title) unbroken.tail
  rw [lines] at member
  split at member
  · simp at member
  · simp only [List.mem_append, List.mem_cons, List.not_mem_nil, or_false] at member
    rcases member with ((rfl | rfl) | row) | rfl
    · exact heading
    · exact List.not_mem_nil
    · exact unbroken.rows line row
    · exact List.not_mem_nil

theorem unbroken_countSection (report : Report) : (countSection report).Unbroken where
  title := by simp [countSection, shown]
  tail := List.not_mem_nil
  rows := by
    have counted : '\n' ∉ List.intercalate (shown " | ") (report.counts.map tickedCount) := by
      intro member
      rcases Text.mem_or_mem_of_mem_intercalate member with gap | ⟨piece, listed, inside⟩
      · simp [shown] at gap
      · obtain ⟨count, _, rfl⟩ := List.mem_map.mp listed
        exact not_mem_ticked (not_mem_toDigits (by decide) count) inside
    rw [countSection, List.forall_mem_cons, List.forall_mem_cons, List.forall_mem_singleton]
    exact ⟨by simp [shown], by simp [shown],
      List.not_mem_append (List.not_mem_append (by simp [shown]) counted) (by simp [shown])⟩

theorem unbroken_orderSection
    (single : ∀ step ∈ report.order, ∀ name ∈ step.functions, '\n' ∉ shown name) :
    (orderSection report).Unbroken where
  title := by simp [orderSection, shown]
  tail := List.not_mem_nil
  rows := by
    rw [orderSection]
    split
    · simp
    · rw [List.forall_mem_append, List.forall_mem_cons, List.forall_mem_singleton,
        List.forall_mem_map]
      exact ⟨⟨by simp [shown], by simp [shown]⟩,
        fun step member => not_mem_stepLine (single step member)⟩

theorem unbroken_listSection {title : String} {items : List String} (titled : '\n' ∉ shown title)
    (single : ∀ item ∈ items, '\n' ∉ shown item) : (listSection title items).Unbroken where
  title := titled
  tail := List.not_mem_append
    (List.not_mem_append (by simp [shown]) (not_mem_toDigits (by decide) items.length))
    (by simp [shown])
  rows := List.forall_mem_map.mpr fun item member => not_mem_itemLine (single item member)

theorem unbroken_ambiguousSection
    (single : ∀ entry ∈ report.matched.ambiguous, ∀ text ∈ entry.1 :: entry.2, '\n' ∉ shown text) :
    (ambiguousSection report).Unbroken where
  title := by simp [ambiguousSection, shown]
  tail := List.not_mem_nil
  rows := List.forall_mem_map.mpr fun entry member => not_mem_ambiguousLine (single entry member)

theorem not_mem_of_mem_headLines (single : ∀ text ∈ report.shownTexts, '\n' ∉ shown text)
    {line : List Char} (member : line ∈ headLines report) : '\n' ∉ line := by
  have root : '\n' ∉ shown "- Root: " ++ ticked (shown report.root) :=
    List.not_mem_append (by simp [shown]) (not_mem_ticked (single _ (by simp [shownTexts])))
  have includes : '\n' ∉ placeLine "base.includes" report.base.includes :=
    not_mem_placeLine (by simp [shown]) fun text place => single text (by simp_all [shownTexts])
  have load : '\n' ∉ placeLine "base.load" report.base.load :=
    not_mem_placeLine (by simp [shown]) fun text place => single text (by simp_all [shownTexts])
  have rules : '\n' ∉ placeLine "base.rules" report.base.rules :=
    not_mem_placeLine (by simp [shown]) fun text place => single text (by simp_all [shownTexts])
  simp only [headLines, List.mem_cons, List.not_mem_nil, or_false] at member
  rcases member with rfl | rfl | rfl | rfl | rfl | rfl | rfl
  · simp [shown]
  · exact List.not_mem_nil
  · exact root
  · exact includes
  · exact load
  · exact rules
  · exact List.not_mem_nil

theorem unbroken_of_mem_sections (single : ∀ text ∈ report.shownTexts, '\n' ∉ shown text)
    {part : Section} (member : part ∈ sections report) : part.Unbroken := by
  have titles : ∀ list ∈ report.lists, '\n' ∉ shown list.1 := by simp [lists, shown]
  simp only [shownTexts, List.forall_mem_append, List.forall_mem_flatMap] at single
  obtain ⟨⟨⟨_, functions⟩, items⟩, ambiguous⟩ := single
  simp only [sections, List.mem_append, List.mem_cons, List.not_mem_nil, or_false] at member
  rcases member with ((rfl | rfl) | listed) | rfl
  · exact unbroken_countSection report
  · exact unbroken_orderSection functions
  · obtain ⟨list, member, rfl⟩ := List.mem_map.mp listed
    exact unbroken_listSection (titles list member) (items list member)
  · exact unbroken_ambiguousSection ambiguous

theorem not_mem_of_mem_textLines (single : ∀ text ∈ report.shownTexts, '\n' ∉ shown text)
    {line : List Char} (member : line ∈ textLines report) : '\n' ∉ line := by
  rw [textLines_eq] at member
  rcases List.mem_append.mp member with head | later
  · exact not_mem_of_mem_headLines single head
  · obtain ⟨part, listed, inside⟩ := List.mem_flatMap.mp later
    exact (unbroken_of_mem_sections single listed).not_mem inside

/-- The summary is read back from the text of a report. -/
theorem ofText_text (single : ∀ text ∈ report.shownTexts, '\n' ∉ shown text) :
    Summary.ofText report.text = report.summary := by
  have unbroken : ∀ line ∈ textLines report, '\n' ∉ line :=
    fun _ member => not_mem_of_mem_textLines single member
  rw [Summary.ofText, text, String.toList_ofList, Text.splitOn_unlines unbroken,
    List.dropLast_concat, ofLines_textLines]

end OneLine

/--
Reports with the same text have the same findings, if what they show stays on one line: no item is
lost, merged with another one or moved to another section.
-/
theorem text_determines_findings {report other : Report}
    (single : ∀ text ∈ report.shownTexts, '\n' ∉ text.toList)
    (otherSingle : ∀ text ∈ other.shownTexts, '\n' ∉ text.toList)
    (same : report.text = other.text) :
    report.missing = other.missing ∧ report.unreached = other.unreached ∧
      report.ruleFiles.length = other.ruleFiles.length ∧
      report.includes.length = other.includes.length ∧
      report.loadCalls.length = other.loadCalls.length ∧
      report.rules.length = other.rules.length ∧
      report.edges.length = other.edges.length ∧
      report.unreached.length = other.unreached.length := by
  have summary : report.summary = other.summary := by
    rw [← ofText_text single, same, ofText_text otherSingle]
  simpa [Report.summary, counts] using summary

/-- A report whose names look like the lines around them. -/
def disguisedReport (condition : String) : Report where
  root := "/r/\x60\x60"
  base := { includes := some "## Counts", load := none, rules := some "/r/base.rules" }
  includes := []
  resolutions := []
  loadCalls := []
  rules := [{ condition := condition, functions := ["f | g"] }]
  order := [{ index := 0, condition := condition, functions := ["f | g", "- \x60h\x60"] }]
  edges := []
  ruleFiles := []
  files := []
  matched := .ofList [("## Unreached rule files (1)", ["/r/- \x60a", "/r/b"])]
  missing := {
    includes := ["## Dispatch without definitions (1)", ""]
    dispatched := ["a\x60, \x60b"]
    loaded := []
    unresolvedPaths := ["- \x60x\x60"]
    unresolvedLookups := [] }
  unreached := ["| \x607\x60 |"]

theorem text_determines_findings_disguised :
    let report := disguisedReport "$a  ||\n $b"
    let other := disguisedReport "$a || $b"
    (∀ text ∈ report.shownTexts, '\n' ∉ text.toList) ∧
      (∀ text ∈ other.shownTexts, '\n' ∉ text.toList) ∧
      report ≠ other ∧ report.text = other.text ∧ report.missing = other.missing := by
  intro report other
  have single : ∀ text ∈ report.shownTexts, '\n' ∉ text.toList := by decide +kernel
  have otherSingle : ∀ text ∈ other.shownTexts, '\n' ∉ text.toList := by decide +kernel
  have collapsed : fitted conditionWidth (shown "$a  ||\n $b") =
      fitted conditionWidth (shown "$a || $b") := by decide +kernel
  have order : orderLines report = orderLines other := by
    simp only [report, other, disguisedReport, orderLines, List.isEmpty_cons, List.map_cons,
      stepLine, collapsed]
  have same : report.text = other.text := by
    rw [text, text, textLines, textLines, order]
    rfl
  exact ⟨single, otherSingle, by decide +kernel, same,
    (text_determines_findings single otherSingle same).1⟩

end Report

end RuleSurvey
