import RuleSurvey.Proofs.Dispatch
import RuleSurvey.Proofs.ReportText
import Mathlib.Data.List.Chain
import Mathlib.Data.List.Forall2

namespace RuleSurvey

/-!
The table of the dispatch order, row by row. A condition is brought on one line and cut to a width
before its bars are escaped, so no escape is cut in two. In a row, every bar without a backslash
right before it ends a cell, and the cells give back what they show.
-/

namespace Text

/-- Every run of blanks becomes one space, which stands for the last blank of the run. -/
def squeeze : List Char → List Char
  | [] => []
  | c :: text =>
      if isBlank c then
        if text.head?.any isBlank then squeeze text else ' ' :: squeeze text
      else c :: squeeze text

/-- One space at a time between words, and none at either end. -/
structure OneSpaced (line : List Char) : Prop where
  spaces : ∀ c ∈ line, isBlank c = true → c = ' '
  apart : line.IsChain fun c d => isBlank c = false ∨ isBlank d = false
  first : line.head?.any isBlank = false
  last : line.getLast?.any isBlank = false

section Words

variable {c : Char} {text : List Char}

theorem words_append_cons (blank : isBlank c = true) (front back : List Char) :
    words (front ++ c :: back) = words front ++ words back := by
  rw [words, List.splitOnP_append_cons front back blank, List.filter_append, words, words]

theorem words_cons (blank : isBlank c = true) (text : List Char) : words (c :: text) = words text :=
  words_append_cons blank [] text

theorem words_blanks_append (run : Blanks) (text : List Char) :
    words (run.val ++ text) = words text := by
  obtain ⟨run, blank⟩ := run
  induction run with
  | nil => rfl
  | cons c run ih =>
      obtain ⟨first, others⟩ := List.forall_mem_cons.mp blank
      exact (words_cons first _).trans (ih others)

theorem words_append_blanks (text : List Char) (run : Blanks) :
    words (text ++ run.val) = words text := by
  obtain ⟨_ | ⟨c, run⟩, blank⟩ := run
  · rw [List.append_nil]
  · obtain ⟨first, others⟩ := List.forall_mem_cons.mp blank
    have wordless : words (run ++ []) = [] := words_blanks_append ⟨run, others⟩ []
    rw [words_append_cons first, ← List.append_nil run, wordless, List.append_nil]

theorem words_trim (text : List Char) : words (trim text) = words text := by
  obtain ⟨before, after, whole⟩ := exists_append_trim_append text
  calc words (trim text)
    _ = words (trim text ++ after.val) := (words_append_blanks _ after).symm
    _ = words (before.val ++ (trim text ++ after.val)) := (words_blanks_append before _).symm
    _ = words text := by rw [← whole]

theorem exists_words_cons (solid : isBlank c = false) (text : List Char) :
    ∃ word rest, words (c :: text) = (c :: word) :: rest ∧
      (text.head?.any isBlank = false → text ≠ [] → words text = word :: rest) := by
  cases cut : text.splitOnP isBlank with
  | nil => exact absurd cut (List.splitOnP_ne_nil isBlank text)
  | cons piece pieces =>
      refine ⟨piece, pieces.filter (· ≠ []), ?_, ?_⟩
      · rw [words, List.splitOnP_cons_eq_if_modifyHead, solid, cut]
        simp
      · intro started nonempty
        obtain ⟨d, text, rfl⟩ := List.exists_cons_of_ne_nil nonempty
        have solid : isBlank d = false := started
        have filled : piece ≠ [] := by
          rintro rfl
          rw [List.splitOnP_cons_eq_if_modifyHead, solid] at cut
          cases later : text.splitOnP isBlank <;> simp [later] at cut
        rw [words, cut, List.filter_cons_of_pos (by simpa using filled)]

theorem words_singleton (solid : isBlank c = false) : words [c] = [[c]] := by
  simp [words, List.splitOnP_cons_eq_if_modifyHead, solid]

theorem words_ne_nil (ends : text.getLast?.any isBlank = false) (nonempty : text ≠ []) :
    words text ≠ [] := by
  induction text with
  | nil => exact absurd rfl nonempty
  | cons c text ih =>
      cases solid : isBlank c with
      | false =>
          obtain ⟨word, rest, read, _⟩ := exists_words_cons solid text
          rw [read]
          exact List.cons_ne_nil _ _
      | true =>
          rw [words_cons solid]
          cases text with
          | nil => simp [solid] at ends
          | cons d text => exact ih (by simpa using ends) (List.cons_ne_nil d text)

end Words

section Squeezing

variable {c : Char} {text line : List Char}

theorem collapse_cons (solid : isBlank c = false) (ends : text.getLast?.any isBlank = false) :
    collapse (c :: text) =
      c :: ((if text.head?.any isBlank then [' '] else []) ++ collapse text) := by
  cases text with
  | nil =>
      rw [collapse, words_singleton solid]
      rfl
  | cons d text =>
      cases blank : isBlank d with
      | true =>
          have nonempty : words text ≠ [] := by
            rw [← words_cons blank]
            exact words_ne_nil ends (List.cons_ne_nil d text)
          have cut : words (c :: d :: text) = [c] :: words text := by
            rw [← List.singleton_append, words_append_cons blank, words_singleton solid,
              List.singleton_append]
          rw [collapse, cut, List.intercalate_cons_of_ne_nil nonempty, collapse, words_cons blank,
            List.head?_cons, Option.any_some, blank]
          rfl
      | false =>
          obtain ⟨word, rest, read, continues⟩ := exists_words_cons solid (d :: text)
          have behind := continues (by simpa using blank) (List.cons_ne_nil d text)
          rw [collapse, read, collapse, behind, List.head?_cons, Option.any_some, blank]
          cases rest <;> rfl

theorem squeeze_eq (ends : text.getLast?.any isBlank = false) :
    squeeze text = (if text.head?.any isBlank then [' '] else []) ++ collapse text := by
  induction text with
  | nil => rfl
  | cons c text ih =>
      have later : text.getLast?.any isBlank = false := by
        cases text with
        | nil => rfl
        | cons d text => simpa using ends
      rw [squeeze, List.head?_cons, Option.any_some]
      cases solid : isBlank c with
      | false =>
          rw [collapse_cons solid later, ih later]
          rfl
      | true =>
          have skipped : collapse (c :: text) = collapse text := by
            rw [collapse, words_cons solid, collapse]
          rw [skipped, ih later]
          cases text.head?.any isBlank <;> rfl

theorem any_head?_trim (text : List Char) : (trim text).head?.any isBlank = false :=
  (Option.any_eq_false _ _).mpr fun _ => isBlank_of_head?_trim

theorem any_getLast?_trim (text : List Char) : (trim text).getLast?.any isBlank = false :=
  (Option.any_eq_false _ _).mpr fun _ => isBlank_of_getLast?_trim

/-- To join the words of a text by spaces is to squeeze what is left of it once it is trimmed. -/
theorem collapse_eq_squeeze_trim (text : List Char) : collapse text = squeeze (trim text) := by
  rw [squeeze_eq (any_getLast?_trim text), any_head?_trim, collapse, collapse, words_trim]
  rfl

theorem any_head?_squeeze (text : List Char) :
    (squeeze text).head?.any isBlank = text.head?.any isBlank := by
  induction text with
  | nil => rfl
  | cons c text ih =>
      rw [squeeze]
      split_ifs with blank next
      · rw [ih, next, List.head?_cons, Option.any_some, blank]
      · rw [List.head?_cons, List.head?_cons, Option.any_some, Option.any_some, blank]
        decide
      · rfl

theorem eq_space_of_mem_squeeze (member : c ∈ squeeze text) (blank : isBlank c = true) :
    c = ' ' := by
  induction text with
  | nil => simp [squeeze] at member
  | cons d text ih =>
      rw [squeeze] at member
      split_ifs at member with first next
      · exact ih member
      · rcases List.mem_cons.mp member with rfl | later
        · rfl
        · exact ih later
      · rcases List.mem_cons.mp member with rfl | later
        · exact absurd blank first
        · exact ih later

theorem isChain_squeeze (text : List Char) :
    (squeeze text).IsChain fun c d => isBlank c = false ∨ isBlank d = false := by
  induction text with
  | nil => exact .nil
  | cons c text ih =>
      rw [squeeze]
      split_ifs with first next
      · exact ih
      · -- What follows the space did not start with a blank, nor does it once it is squeezed.
        rw [← any_head?_squeeze, Bool.not_eq_true] at next
        exact ih.cons fun d follows => .inr ((Option.any_eq_false _ _).mp next d follows)
      · exact ih.cons fun d _ => .inl (Bool.not_eq_true _ ▸ first)

theorem squeeze_concat (solid : isBlank c = false) (front : List Char) :
    squeeze (front ++ [c]) = squeeze front ++ [c] := by
  induction front with
  | nil => simp [squeeze, solid]
  | cons d front ih =>
      have same : (front ++ [c]).head?.any isBlank = front.head?.any isBlank := by
        cases front <;> simp [solid]
      rw [List.cons_append, squeeze, squeeze, same, ih]
      split_ifs <;> rfl

theorem any_getLast?_squeeze (ends : text.getLast?.any isBlank = false) :
    (squeeze text).getLast?.any isBlank = false := by
  rcases List.eq_nil_or_concat text with rfl | ⟨front, c, rfl⟩
  · rfl
  · have solid : isBlank c = false := by simpa using ends
    rw [List.concat_eq_append, squeeze_concat solid, List.getLast?_concat]
    exact solid

theorem oneSpaced_collapse (text : List Char) : OneSpaced (collapse text) := by
  rw [collapse_eq_squeeze_trim]
  exact {
    spaces := fun _ member blank => eq_space_of_mem_squeeze member blank
    apart := isChain_squeeze _
    first := (any_head?_squeeze _).trans (any_head?_trim text)
    last := any_getLast?_squeeze (any_getLast?_trim text) }

theorem squeeze_eq_self (spaces : ∀ c ∈ line, isBlank c = true → c = ' ')
    (apart : line.IsChain fun c d => isBlank c = false ∨ isBlank d = false) :
    squeeze line = line := by
  induction line with
  | nil => rfl
  | cons c line ih =>
      obtain ⟨space, spaces⟩ := List.forall_mem_cons.mp spaces
      obtain ⟨next, apart⟩ := List.isChain_cons.mp apart
      rw [squeeze, ih spaces apart]
      split_ifs with blank doubled
      · obtain ⟨d, first, also⟩ := (Option.any_eq_true _ _).mp doubled
        simpa [blank, also] using next d first
      · rw [space blank]
      · rfl

theorem OneSpaced.collapse_eq (oneSpaced : OneSpaced line) : collapse line = line := by
  have trimmed : trim line = line :=
    trim_eq_self ((Option.any_eq_false _ _).mp oneSpaced.first)
      ((Option.any_eq_false _ _).mp oneSpaced.last)
  rw [collapse_eq_squeeze_trim, trimmed, squeeze_eq_self oneSpaced.spaces oneSpaced.apart]

/-- The start of a line stays in shape if a character that is not blank ends it. -/
theorem OneSpaced.take_concat (oneSpaced : OneSpaced line) (solid : isBlank c = false)
    (count : Nat) : OneSpaced (line.take count ++ [c]) where
  spaces := by
    intro d member blank
    rcases List.mem_append.mp member with kept | last
    · exact oneSpaced.spaces d (List.mem_of_mem_take kept) blank
    · rw [List.mem_singleton.mp last, solid] at blank
      cases blank
  apart := by
    refine List.isChain_append.mpr ⟨oneSpaced.apart.take count, List.isChain_singleton c, ?_⟩
    intro _ _ d first
    obtain rfl : c = d := by simpa using first
    exact .inr solid
  first := by
    cases taken : line.take count with
    | nil => simpa using solid
    | cons d rest =>
        have starts : line.head? = some d := by
          rw [← List.take_append_drop count line, taken]
          rfl
        have started := oneSpaced.first
        rwa [starts] at started
  last := by simpa using solid

end Squeezing

end Text

namespace Report

open Text

section Width

variable {width : Nat}

theorem oneSpaced_fitted (width : Nat) (text : List Char) : OneSpaced (fitted width text) := by
  rw [fitted]
  split_ifs with fits
  · exact oneSpaced_collapse text
  · exact (oneSpaced_collapse text).take_concat (by decide) _

theorem length_fitted_le (positive : 0 < width) (text : List Char) :
    (fitted width text).length ≤ width := by
  rw [fitted]
  split_ifs with fits
  · exact fits
  · rw [List.length_append, List.length_take, List.length_singleton]
    omega

theorem fitted_fitted (positive : 0 < width) (text : List Char) :
    fitted width (fitted width text) = fitted width text := by
  have collapsed := (oneSpaced_fitted width text).collapse_eq
  rw [fitted, collapsed, if_pos (length_fitted_le positive text)]

end Width

/-- A text without the backslashes that stand right before a bar. -/
def unescaped : List Char → List Char
  | [] => []
  | c :: text =>
      if c = '\\' ∧ text.head? = some '|' then unescaped text else c :: unescaped text

/-- The parts of a row between its bars, where a bar right behind a backslash ends none. -/
def cellsAfter (last : Option Char) : List Char → List (List Char)
  | [] => [[]]
  | c :: row =>
      if c = '|' ∧ last ≠ some '\\' then [] :: cellsAfter (some c) row
      else (cellsAfter (some c) row).modifyHead (c :: ·)

def cells (row : List Char) : List (List Char) :=
  cellsAfter none row

def bareBarsAfter (last : Option Char) (row : List Char) : Nat :=
  ((last :: row.map some).zip row).countP fun (before, c) => c == '|' && before != some '\\'

/-- How many bars of a row have no backslash right before them. -/
def bareBars (row : List Char) : Nat :=
  bareBarsAfter none row

def padded (text : List Char) : List Char :=
  ' ' :: text ++ [' ']

/-- A row of a table with a cell for each text. -/
def barred (texts : List (List Char)) : List Char :=
  '|' :: texts.flatMap fun text => padded (cell text) ++ ['|']

section Cells

variable {last : Option Char} {text : List Char}

theorem cell_cons (c : Char) (text : List Char) :
    cell (c :: text) = (if c = '|' then ['\\', '|'] else [c]) ++ cell text :=
  List.flatMap_cons

theorem cell_eq_self (plain : '|' ∉ text) : cell text = text := by
  induction text with
  | nil => rfl
  | cons c text ih =>
      rw [List.mem_cons, not_or] at plain
      rw [cell_cons, if_neg (Ne.symm plain.1), ih plain.2]
      rfl

theorem head?_cell_ne (text : List Char) : (cell text).head? ≠ some '|' := by
  cases text with
  | nil => simp [cell]
  | cons c text =>
      rw [cell_cons]
      split_ifs with bar
      · simp
      · simpa using bar

theorem unescaped_cell (text : List Char) : unescaped (cell text) = text := by
  induction text with
  | nil => rfl
  | cons c text ih =>
      rw [cell_cons]
      split_ifs with bar
      · rw [bar]
        simp [unescaped, ih]
      · rw [List.singleton_append, unescaped, if_neg (fun escape => head?_cell_ne text escape.2), ih]

theorem length_cellsAfter (last : Option Char) (row : List Char) :
    (cellsAfter last row).length = bareBarsAfter last row + 1 := by
  induction row generalizing last with
  | nil => rfl
  | cons c row ih =>
      have step : bareBarsAfter last (c :: row) =
          bareBarsAfter (some c) row + if c = '|' ∧ last ≠ some '\\' then 1 else 0 := by
        simp [bareBarsAfter, List.countP_cons]
      rw [cellsAfter, step]
      split_ifs with border
      · rw [List.length_cons, ih]
      · rw [List.length_modifyHead, ih]

/-- A text whose bars are escaped ends where the next bar stands, unless it ends in a backslash. -/
theorem cellsAfter_cell (ends : text.getLast?.or last ≠ some '\\') (row : List Char) :
    cellsAfter last (cell text ++ '|' :: row) = cell text :: cellsAfter (some '|') row := by
  induction text generalizing last with
  | nil =>
      have bare : last ≠ some '\\' := ends
      simp [cell, cellsAfter, bare]
  | cons c text ih =>
      have same : (c :: text).getLast?.or last = text.getLast?.or (some c) := by
        rw [List.getLast?_cons]
        cases text.getLast? <;> rfl
      have later : text.getLast?.or (some c) ≠ some '\\' := same ▸ ends
      rw [cell_cons]
      split_ifs with bar
      · subst bar
        simp [cellsAfter, ih later]
      · simp [cellsAfter, bar, ih later]

theorem cell_padded (text : List Char) : cell (padded text) = padded (cell text) := by
  simp [padded, cell]

theorem cell_ticked (text : List Char) : cell (ticked text) = ticked (cell text) := by
  simp [ticked, cell]

theorem cell_tickedCount (count : Nat) : cell (tickedCount count) = tickedCount count := by
  rw [tickedCount, cell_ticked, cell_eq_self (not_mem_toDigits (by decide) count)]

theorem cells_barred (texts : List (List Char)) :
    cells (barred texts) = [] :: (texts.map (fun text => padded (cell text)) ++ [[]]) := by
  have behind : cellsAfter (some '|') (texts.flatMap fun text => padded (cell text) ++ ['|']) =
      texts.map (fun text => padded (cell text)) ++ [[]] := by
    induction texts with
    | nil => rfl
    | cons text texts ih =>
        have ends : (padded text).getLast?.or (some '|') ≠ some '\\' := by
          simp [padded, List.getLast?_cons]
        rw [List.flatMap_cons, List.append_assoc, List.singleton_append, ← cell_padded,
          cellsAfter_cell ends, ih, cell_padded]
        rfl
  rw [cells, barred, cellsAfter, if_pos (by simp), behind]

theorem bareBars_barred (texts : List (List Char)) :
    bareBars (barred texts) = texts.length + 1 := by
  have counted : (cells (barred texts)).length = bareBars (barred texts) + 1 :=
    length_cellsAfter none (barred texts)
  rw [cells_barred, List.length_cons, List.length_append, List.length_map] at counted
  exact (Nat.succ.inj counted).symm

end Cells

/-- What is shown of a condition, before its bars are escaped. -/
structure ShowsCondition (condition text : List Char) : Prop where
  whole : (squeeze (trim condition)).length ≤ 80 → text = squeeze (trim condition)
  cut : 80 < (squeeze (trim condition)).length → text = (squeeze (trim condition)).take 79 ++ ['…']
  width : text.length ≤ 80
  /-- No other blank is left, so there is no line break of any kind. -/
  oneLine : ∀ c ∈ text, isBlank c = true → c = ' '
  stable : fitted conditionWidth text = text

/--
A row shows a step of the dispatch order. The bars in the texts of its cells are escaped, and all
that is lost of the step is what is cut off its condition.
-/
structure ShowsStep (step : NumberedRule) (row : List Char) : Prop where
  oneLine : '\n' ∉ row
  bars : bareBars row = 4
  cells : ∃ condition functions,
    cells row =
      [[], padded (tickedCount step.index), padded (ticked condition), padded functions, []] ∧
    condition = cell (unescaped condition) ∧
    ShowsCondition (shown step.condition) (unescaped condition) ∧
    unescaped functions = commaSeparated (step.functions.map shown)

section Rows

variable {report : Report} {step : NumberedRule}

theorem showsCondition_fitted (condition : List Char) :
    ShowsCondition condition (fitted conditionWidth condition) where
  whole := by
    intro short
    rw [fitted, collapse_eq_squeeze_trim, conditionWidth, if_pos short]
  cut := by
    intro long
    rw [fitted, collapse_eq_squeeze_trim, conditionWidth, if_neg (Nat.not_le.mpr long)]
  width := length_fitted_le (by decide) condition
  oneLine := (oneSpaced_fitted conditionWidth condition).spaces
  stable := fitted_fitted (by decide) condition

theorem stepLine_eq (step : NumberedRule) :
    stepLine step = barred [
      tickedCount step.index,
      ticked (fitted conditionWidth (shown step.condition)),
      commaSeparated (step.functions.map shown)] := by
  simp [stepLine, barred, cell_tickedCount, cell_ticked, padded, shown]

theorem showsStep_stepLine (single : ∀ name ∈ step.functions, '\n' ∉ name.toList) :
    ShowsStep step (stepLine step) := by
  refine ⟨not_mem_stepLine single, ?_, ?_⟩
  · rw [stepLine_eq, bareBars_barred]
    rfl
  · refine ⟨cell (fitted conditionWidth (shown step.condition)),
      cell (commaSeparated (step.functions.map shown)), ?_, ?_, ?_, ?_⟩
    · rw [stepLine_eq, cells_barred, List.map_cons, List.map_cons, List.map_singleton,
        cell_tickedCount, cell_ticked]
      rfl
    · rw [unescaped_cell]
    · rw [unescaped_cell]
      exact showsCondition_fitted _
    · rw [unescaped_cell]

theorem orderLines_of_ne_nil (steps : report.order ≠ []) :
    orderLines report =
      [shown "## Dispatch order", [], shown "| # | condition | functions |",
        shown "|---:|---|---|"] ++ report.order.map stepLine ++ [[]] := by
  rw [orderLines, if_neg (by simpa using steps)]

theorem exists_textLines_eq (report : Report) :
    ∃ later, textLines report =
      (headLines report ++ countLines report) ++ (orderLines report ++ later) :=
  ⟨_, by
    simp only [textLines, List.append_assoc]
    rfl⟩

theorem rowsUnder_order (steps : report.order ≠ []) :
    rowsUnder "Dispatch order" (textLines report) =
      [shown "| # | condition | functions |", shown "|---:|---|---|"] ++
        report.order.map stepLine := by
  have listed : orderSection report ∈ sections report := by simp [sections]
  exact (rowsUnder_textLines listed).trans (if_neg (by simpa using steps))

end Rows

/--
A call has no line feed in its name. If that holds of all functions of a report, then its table has
one row on a line of its own for each step of the dispatch order, with three cells between four bars
that are not escaped. The cell of the condition shows it on one line, cut to 80 characters.
-/
theorem order_rows_well_formed :
    (∀ content : String, ∀ rule ∈ dispatchRulesOf content, ∀ name ∈ rule.functions,
      '\n' ∉ name.toList) ∧
    ∀ report : Report, report.order ≠ [] →
      (∀ step ∈ report.order, ∀ name ∈ step.functions, '\n' ∉ name.toList) →
      ∃ (rows : List (List Char)) (after : List Char),
        report.text.toList = unlines (headLines report ++ countLines report) ++
          (unlines ([shown "## Dispatch order", [], shown "| # | condition | functions |",
            shown "|---:|---|---|"] ++ rows ++ [[]]) ++ after) ∧
        ((∀ text ∈ report.shownTexts, '\n' ∉ text.toList) →
          rowsUnder "Dispatch order" (report.text.toList.splitOn '\n').dropLast =
            [shown "| # | condition | functions |", shown "|---:|---|---|"] ++ rows) ∧
        List.Forall₂ ShowsStep report.order rows := by
  refine ⟨?_, ?_⟩
  · intro content rule member name called broken
    have named := ((Dispatch.valid_of_mem member).callable name called).named '\n' broken
    exact absurd named (by decide)
  · intro report steps single
    obtain ⟨later, lines⟩ := exists_textLines_eq report
    have shows : List.Forall₂ ShowsStep report.order (report.order.map stepLine) := by
      rw [List.forall₂_map_right_iff, List.forall₂_same]
      exact fun step member => showsStep_stepLine (single step member)
    refine ⟨report.order.map stepLine, unlines later, ?_, ?_, shows⟩
    · rw [text, String.toList_ofList, lines, orderLines_of_ne_nil steps]
      simp only [unlines, List.flatMap_append]
    · intro unbroken
      have undivided : ∀ line ∈ textLines report, '\n' ∉ line :=
        fun _ member => not_mem_of_mem_textLines unbroken member
      rw [text, String.toList_ofList, splitOn_unlines undivided, List.dropLast_concat,
        rowsUnder_order steps]

/-- A condition is cut right behind a bar, and there are bars in the names too. -/
theorem order_rows_well_formed_sample :
    let report := disguisedReport (String.ofList (List.replicate 78 'x') ++ "|\u2028|\\")
    report.order ≠ [] ∧ (∀ step ∈ report.order, ∀ name ∈ step.functions, '\n' ∉ name.toList) ∧
      (∀ text ∈ report.shownTexts, '\n' ∉ text.toList) ∧
      ∃ row condition functions,
        rowsUnder "Dispatch order" (report.text.toList.splitOn '\n').dropLast =
          [shown "| # | condition | functions |", shown "|---:|---|---|", row] ∧
        bareBars row = 4 ∧
        cells row = [[], padded (tickedCount 0), padded (ticked condition), padded functions, []] ∧
        unescaped condition = List.replicate 78 'x' ++ ['|', '…'] ∧
        unescaped functions = shown "f | g, - \x60h\x60" := by
  intro report
  have single : ∀ step ∈ report.order, ∀ name ∈ step.functions, '\n' ∉ name.toList := by
    decide +kernel
  have unbroken : ∀ text ∈ report.shownTexts, '\n' ∉ text.toList := by decide +kernel
  obtain ⟨rows, _, _, read, shows⟩ :=
    order_rows_well_formed.2 report (List.cons_ne_nil _ _) single
  obtain ⟨row, others, first, rest, rfl⟩ := List.forall₂_cons_left_iff.mp shows
  obtain rfl := List.forall₂_nil_left_iff.mp rest
  obtain ⟨condition, functions, cut, _, fits, names⟩ := first.cells
  have shortened := fits.cut (by decide +kernel)
  exact ⟨List.cons_ne_nil _ _, single, unbroken, row, condition, functions, read unbroken,
    first.bars, cut, shortened.trans (by decide +kernel), names.trans (by decide +kernel)⟩

end Report

end RuleSurvey
