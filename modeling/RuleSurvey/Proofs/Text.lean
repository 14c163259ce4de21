import RuleSurvey.Text.Basic
import Mathlib.Data.List.TakeWhile

namespace RuleSurvey.Text

/-!
Blanks around the parts of a text, and its lines. What is trimmed off or skipped is a run of blanks,
and a text that is cut at a line feed has the lines of both sides.
-/

section Pieces

variable {α : Type}

theorem not_of_mem_splitOnP {p : α → Bool} {whole piece : List α} {item : α}
    (member : piece ∈ whole.splitOnP p) (inside : item ∈ piece) : p item = false := by
  induction whole generalizing piece with
  | nil => simp_all
  | cons first rest ih =>
      rw [List.splitOnP_cons_eq_if_modifyHead] at member
      split at member
      · rcases List.mem_cons.mp member with rfl | later
        · simp at inside
        · exact ih later inside
      · cases cut : rest.splitOnP p with
        | nil => exact absurd cut (List.splitOnP_ne_nil p rest)
        | cons next others =>
            rw [cut] at member ih
            rcases List.mem_cons.mp member with rfl | later
            · rcases List.mem_cons.mp inside with rfl | inside
              · simp_all
              · exact ih (by simp) inside
            · exact ih (List.mem_cons_of_mem _ later) inside

theorem mem_or_mem_of_mem_intercalate {item : α} {between : List α} {pieces : List (List α)}
    (member : item ∈ between.intercalate pieces) :
    item ∈ between ∨ ∃ piece ∈ pieces, item ∈ piece := by
  induction pieces with
  | nil => simp at member
  | cons piece rest ih =>
      by_cases last : rest = []
      · subst last
        exact .inr ⟨piece, by simp, by simpa using member⟩
      · rw [List.intercalate_cons_of_ne_nil last, List.append_assoc] at member
        rcases List.mem_append.mp member with first | member
        · exact .inr ⟨piece, by simp, first⟩
        rcases List.mem_append.mp member with gap | later
        · exact .inl gap
        rcases ih later with gap | ⟨other, listed, inside⟩
        · exact .inl gap
        · exact .inr ⟨other, List.mem_cons_of_mem _ listed, inside⟩

end Pieces

section Cutting

variable {α : Type} [BEq α] [LawfulBEq α]

/-- A list is cut at any occurrence of a mark until there is none. -/
@[elab_as_elim]
theorem separated_induction (mark : α) {motive : List α → Prop}
    (single : ∀ whole, mark ∉ whole → motive whole)
    (divided : ∀ before after, motive before → motive after → motive (before ++ mark :: after))
    (whole : List α) : motive whole := by
  induction sized : whole.length using Nat.strongRecOn generalizing whole with
  | ind size ih =>
      by_cases member : mark ∈ whole
      · obtain ⟨before, after, cut⟩ := List.append_of_mem member
        rw [cut, List.length_append, List.length_cons] at sized
        rw [cut]
        exact divided before after (ih _ (by omega) before rfl) (ih _ (by omega) after rfl)
      · exact single whole member

theorem not_mem_of_mem_splitOn {mark : α} {whole piece : List α}
    (member : piece ∈ whole.splitOn mark) : mark ∉ piece := by
  rw [List.splitOn_eq_splitOnP] at member
  intro inside
  simpa using not_of_mem_splitOnP member inside

theorem mem_of_mem_splitOn {mark item : α} {whole piece : List α}
    (member : piece ∈ whole.splitOn mark) (inside : item ∈ piece) : item ∈ whole := by
  induction whole using separated_induction mark with
  | single whole undivided =>
      rw [List.splitOn_eq_singleton undivided, List.mem_singleton] at member
      rwa [← member]
  | divided before after ihBefore ihAfter =>
      rw [List.splitOn_append_cons_self] at member
      rcases List.mem_append.mp member with first | second
      · exact List.mem_append_left _ (ihBefore first)
      · exact List.mem_append_right _ (List.mem_cons_of_mem _ (ihAfter second))

theorem length_splitOn_le (mark : α) (whole : List α) :
    (whole.splitOn mark).length ≤ whole.length + 1 := by
  induction whole using separated_induction mark with
  | single whole undivided =>
      rw [List.splitOn_eq_singleton undivided, List.length_singleton]
      omega
  | divided before after ihBefore ihAfter =>
      rw [List.splitOn_append_cons_self, List.length_append, List.length_append, List.length_cons]
      omega

/-- What has no mark in it belongs to the piece that follows. -/
theorem splitOn_append_of_not_mem {mark : α} {front : List α} (absent : mark ∉ front)
    (whole : List α) :
    (front ++ whole).splitOn mark = (whole.splitOn mark).modifyHead (front ++ ·) := by
  induction whole using separated_induction mark with
  | single whole undivided =>
      have still : mark ∉ front ++ whole := by simp [absent, undivided]
      rw [List.splitOn_eq_singleton still, List.splitOn_eq_singleton undivided]
      rfl
  | divided before after ihBefore _ =>
      rw [← List.append_assoc, List.splitOn_append_cons_self, List.splitOn_append_cons_self, ihBefore]
      cases cut : before.splitOn mark with
      | nil => exact absurd cut (List.splitOn_ne_nil mark before)
      | cons piece others => rfl

variable {mark first : α} {before after whole rest : List α}

theorem not_mem_takeWhile (mark : α) (whole : List α) : mark ∉ whole.takeWhile (· != mark) := by
  intro member
  simpa using List.mem_takeWhile_imp member

/-- Where a search for a mark stops, the mark stands. -/
theorem eq_mark_of_dropWhile (stopped : whole.dropWhile (· != mark) = first :: rest) :
    first = mark := by
  have found := List.head?_dropWhile_not (· != mark) whole
  rw [stopped] at found
  simpa using found

theorem eq_takeWhile_append (stopped : whole.dropWhile (· != mark) = first :: rest) :
    whole = whole.takeWhile (· != mark) ++ mark :: rest := by
  have same : first = mark := eq_mark_of_dropWhile stopped
  rw [← same, ← stopped, same, List.takeWhile_append_dropWhile]

theorem takeWhile_append_mark (absent : mark ∉ before) :
    (before ++ mark :: after).takeWhile (· != mark) = before := by
  have passed : ∀ item ∈ before, (item != mark) = true :=
    fun item member => bne_iff_ne.mpr (ne_of_mem_of_not_mem member absent)
  rw [List.takeWhile_append_of_pos passed]
  simp

theorem dropWhile_append_mark (absent : mark ∉ before) :
    (before ++ mark :: after).dropWhile (· != mark) = mark :: after := by
  have passed : ∀ item ∈ before, (item != mark) = true :=
    fun item member => bne_iff_ne.mpr (ne_of_mem_of_not_mem member absent)
  rw [List.dropWhile_append_of_pos passed]
  simp

end Cutting

section Beginnings

variable {text other : List Char}

/-- Neither of two texts begins with the other one. -/
def Apart (text other : List Char) : Prop :=
  ¬ (text <+: other ∨ other <+: text)

instance : Decidable (Apart text other) :=
  inferInstanceAs (Decidable (¬ _))

theorem Apart.symm (apart : Apart text other) : Apart other text :=
  fun begins => apart begins.symm

/-- Texts that are apart stay so, however one of them goes on. -/
theorem Apart.not_prefix_append (apart : Apart text other) (rest : List Char) :
    ¬ text <+: other ++ rest :=
  fun begins => apart (List.prefix_or_prefix_of_prefix begins (List.prefix_append other rest))

end Beginnings

section Trimming

/-- A run of blanks, as it may stand between the parts of a line. -/
abbrev Blanks := {run : List Char // ∀ c ∈ run, isBlank c = true}

def Blanks.reverse (run : Blanks) : Blanks :=
  ⟨run.val.reverse, fun c member => run.property c (List.mem_reverse.mp member)⟩

@[simp]
theorem Blanks.val_reverse (run : Blanks) : run.reverse.val = run.val.reverse := rfl

def Blanks.append (first second : Blanks) : Blanks :=
  ⟨first.val ++ second.val, List.forall_mem_append.mpr ⟨first.property, second.property⟩⟩

@[simp]
theorem Blanks.val_append (first second : Blanks) :
    (first.append second).val = first.val ++ second.val := rfl

variable {c mark : Char} {text rest : List Char}

theorem trimStart_append (run : Blanks) (text : List Char) :
    trimStart (run.val ++ text) = trimStart text :=
  List.dropWhile_append_of_pos run.property

theorem trimStart_cons (solid : isBlank c = false) : trimStart (c :: text) = c :: text :=
  List.dropWhile_cons_of_neg (by simp [solid])

theorem trimStart_eq_nil_iff : trimStart text = [] ↔ ∀ c ∈ text, isBlank c = true :=
  List.dropWhile_eq_nil_iff

theorem exists_append_trimStart (text : List Char) :
    ∃ run : Blanks, text = run.val ++ trimStart text :=
  ⟨⟨text.takeWhile isBlank, fun _ member => List.mem_takeWhile_imp member⟩,
    List.takeWhile_append_dropWhile.symm⟩

theorem isBlank_of_trimStart_eq_cons (trimmed : trimStart text = c :: rest) : isBlank c = false := by
  have first := List.head?_dropWhile_not isBlank text
  rw [show text.dropWhile isBlank = c :: rest from trimmed] at first
  exact first

theorem trimStart_eq_cons_iff :
    trimStart text = c :: rest ↔ isBlank c = false ∧ ∃ run : Blanks, text = run.val ++ c :: rest := by
  constructor
  · intro trimmed
    obtain ⟨run, whole⟩ := exists_append_trimStart text
    exact ⟨isBlank_of_trimStart_eq_cons trimmed, run, trimmed ▸ whole⟩
  · intro split
    obtain ⟨solid, run, whole⟩ := split
    rw [whole, trimStart_append, trimStart_cons solid]

theorem trimStart_append_of_ne_nil (solid : trimStart text ≠ []) (rest : List Char) :
    trimStart (text ++ rest) = trimStart text ++ rest := by
  have kept : (text.dropWhile isBlank).isEmpty = false := List.isEmpty_eq_false_iff.mpr solid
  rw [trimStart, List.dropWhile_append, kept]
  rfl

/-- Behind nothing but blanks, a run of blanks is trimmed from the front as well. -/
theorem trimStart_append_of_eq_nil (blank : trimStart text = []) (run : Blanks) :
    trimStart (text ++ run.val) = [] := by
  rw [trimStart_eq_nil_iff] at blank ⊢
  exact List.forall_mem_append.mpr ⟨blank, run.property⟩

theorem trimEnd_append (text : List Char) (run : Blanks) :
    trimEnd (text ++ run.val) = trimEnd text := by
  rw [trimEnd, List.reverse_append, ← Blanks.val_reverse,
    List.dropWhile_append_of_pos run.reverse.property, trimEnd]

theorem exists_trimEnd_append (text : List Char) :
    ∃ run : Blanks, text = trimEnd text ++ run.val := by
  obtain ⟨run, whole⟩ := exists_append_trimStart text.reverse
  refine ⟨run.reverse, ?_⟩
  have turned := congrArg List.reverse whole
  rwa [List.reverse_reverse, List.reverse_append] at turned

theorem trim_append (before : Blanks) (text : List Char) (after : Blanks) :
    trim (before.val ++ (text ++ after.val)) = trim text := by
  rw [trim, trimStart_append]
  by_cases trimmed : trimStart text = []
  · rw [trimStart_append_of_eq_nil trimmed, trim, trimmed]
  · rw [trimStart_append_of_ne_nil trimmed, trimEnd_append, trim]

theorem exists_append_trim_append (text : List Char) :
    ∃ before after : Blanks, text = before.val ++ (trim text ++ after.val) := by
  obtain ⟨before, front⟩ := exists_append_trimStart text
  obtain ⟨after, back⟩ := exists_trimEnd_append (trimStart text)
  refine ⟨before, after, ?_⟩
  rw [trim, ← back]
  exact front

theorem trim_trim (text : List Char) : trim (trim text) = trim text := by
  obtain ⟨before, after, whole⟩ := exists_append_trim_append text
  have trimmed := trim_append before (trim text) after
  rw [← whole] at trimmed
  exact trimmed.symm

theorem trim_trimStart (text : List Char) : trim (trimStart text) = trim text := by
  obtain ⟨run, whole⟩ := exists_append_trimStart text
  have skipped := trimStart_append run (trimStart text)
  rw [← whole] at skipped
  rw [trim, ← skipped, trim]

theorem isBlank_of_head?_trimStart (first : (trimStart text).head? = some c) :
    isBlank c = false := by
  obtain ⟨rest, trimmed⟩ := List.head?_eq_some_iff.mp first
  exact isBlank_of_trimStart_eq_cons trimmed

theorem isBlank_of_head?_trim (first : (trim text).head? = some c) : isBlank c = false := by
  obtain ⟨run, whole⟩ := exists_trimEnd_append (trimStart text)
  have started : (trimStart text).head? = some c := by
    rw [whole, ← trim, List.head?_append, first, Option.some_or]
  exact isBlank_of_head?_trimStart started

theorem isBlank_of_getLast?_trim (last : (trim text).getLast? = some c) : isBlank c = false := by
  rw [trim, trimEnd, List.getLast?_reverse, ← trimStart] at last
  exact isBlank_of_head?_trimStart last

/-- A text that neither starts nor ends with a blank is trimmed. -/
theorem trim_eq_self (first : ∀ c ∈ text.head?, isBlank c = false)
    (last : ∀ c ∈ text.getLast?, isBlank c = false) : trim text = text := by
  have kept : ∀ part : List Char, (∀ c ∈ part.head?, isBlank c = false) →
      trimStart part = part := by
    intro part solid
    cases part with
    | nil => rfl
    | cons c part => exact trimStart_cons (solid c rfl)
  rw [trim, kept text first, trimEnd, ← trimStart, kept text.reverse, List.reverse_reverse]
  rwa [List.head?_reverse]

/-- Nothing is trimmed from the front of what a trimmed text starts with. -/
theorem head?_trim_of_eq_append {front back : List Char} (whole : trim text = front ++ back)
    (solid : trim front ≠ []) : (trim front).head? = (trim text).head? := by
  obtain ⟨⟨run, blank⟩, after, cut⟩ := exists_append_trim_append front
  obtain ⟨c, rest, trimmed⟩ := List.exists_cons_of_ne_nil solid
  rw [trimmed] at cut ⊢
  rw [cut] at whole
  cases run with
  | nil => rw [whole]; rfl
  | cons d run =>
      have starts : (trim text).head? = some d := by rw [whole]; rfl
      have solid := isBlank_of_head?_trim starts
      rw [blank d List.mem_cons_self] at solid
      cases solid

theorem mem_of_mem_trim (member : c ∈ trim text) : c ∈ text := by
  obtain ⟨before, after, whole⟩ := exists_append_trim_append text
  rw [whole]
  simp [member]

theorem mem_of_mem_trimStart (member : c ∈ trimStart text) : c ∈ text :=
  List.dropWhile_sublist isBlank |>.subset member

theorem strip?_append {word : List Char} (absent : mark ∉ word) (text rest : List Char) :
    strip? word (text ++ mark :: rest) = (strip? word text).map (· ++ mark :: rest) := by
  induction word generalizing text with
  | nil => rfl
  | cons expected word ih =>
      rw [List.mem_cons, not_or] at absent
      obtain ⟨different, others⟩ := absent
      cases text with
      | nil => simp [strip?, Ne.symm different]
      | cons c text =>
          by_cases same : expected = c
          · simpa [strip?, same] using ih others text
          · simp [strip?, same]

theorem strip?_trimStart_append {word : List Char} (nonempty : word ≠ []) (absent : mark ∉ word)
    (blank : isBlank mark = true) (text : List Char) :
    strip? word (trimStart (text ++ [mark])) = (strip? word (trimStart text)).map (· ++ [mark]) := by
  by_cases trimmed : trimStart text = []
  · have wider := trimStart_append_of_eq_nil trimmed ⟨[mark], by simpa using blank⟩
    rw [wider, trimmed]
    cases word with
    | nil => exact absurd rfl nonempty
    | cons c word => rfl
  · rw [trimStart_append_of_ne_nil trimmed, strip?_append absent]

/-- Blanks in front of a mark do not reach over another character. -/
theorem pastMark?_append {stop : Char} (solid : isBlank stop = false) (different : stop ≠ mark)
    (text rest : List Char) :
    pastMark? mark (text ++ stop :: rest) = (pastMark? mark text).map (· ++ stop :: rest) := by
  by_cases trimmed : trimStart text = []
  · have skipped : trimStart (text ++ stop :: rest) = stop :: rest := by
      rw [trimStart_append ⟨text, trimStart_eq_nil_iff.mp trimmed⟩, trimStart_cons solid]
    simp [pastMark?, skipped, trimmed, strip?, Ne.symm different]
  · rw [pastMark?, trimStart_append_of_ne_nil trimmed, strip?_append (by simpa using different),
      pastMark?]

theorem pastMark?_append_return (solid : mark ≠ '\r') (text : List Char) :
    pastMark? mark (text ++ ['\r']) = (pastMark? mark text).map (· ++ ['\r']) :=
  strip?_trimStart_append (by simp) (by simp [Ne.symm solid]) (by decide) text

theorem pastMark?_reverse_append_return (mark : Char) (text : List Char) :
    pastMark? mark (text ++ ['\r']).reverse = pastMark? mark text.reverse := by
  rw [List.reverse_append]
  rfl

theorem pastMark?_eq_some_iff (solid : isBlank mark = false) :
    pastMark? mark text = some rest ↔ ∃ run : Blanks, text = run.val ++ mark :: rest := by
  rw [pastMark?, strip?_eq_some_iff, List.singleton_append, trimStart_eq_cons_iff]
  simp [solid]

/-- The last mark of a text, with blanks behind it, is the first one from its end. -/
theorem pastMark?_reverse_eq_some_iff (solid : isBlank mark = false) :
    pastMark? mark text.reverse = some rest ↔
      ∃ run : Blanks, text = rest.reverse ++ mark :: run.val := by
  rw [pastMark?_eq_some_iff solid]
  constructor
  · intro found
    obtain ⟨run, whole⟩ := found
    exact ⟨run.reverse, by simpa using congrArg List.reverse whole⟩
  · intro found
    obtain ⟨run, whole⟩ := found
    exact ⟨run.reverse, by simp [whole]⟩

theorem blanks_mark_inj {run other : Blanks} {left : List Char} (solid : isBlank mark = false)
    (same : run.val ++ mark :: rest = other.val ++ mark :: left) : run = other ∧ rest = left := by
  have first : pastMark? mark (run.val ++ mark :: rest) = some rest :=
    (pastMark?_eq_some_iff solid).mpr ⟨run, rfl⟩
  have second : pastMark? mark (run.val ++ mark :: rest) = some left :=
    (pastMark?_eq_some_iff solid).mpr ⟨other, same⟩
  have behind : rest = left := Option.some.inj (first.symm.trans second)
  rw [behind] at same
  exact ⟨Subtype.ext (List.append_cancel_right same), behind⟩

/-- A text has one last mark with nothing but blanks behind it. -/
theorem mark_blanks_inj {run other : Blanks} {front left : List Char} (solid : isBlank mark = false)
    (same : front ++ mark :: run.val = left ++ mark :: other.val) : front = left ∧ run = other := by
  have turned :
      run.reverse.val ++ mark :: front.reverse = other.reverse.val ++ mark :: left.reverse := by
    simpa using congrArg List.reverse same
  obtain ⟨_, before⟩ := blanks_mark_inj solid turned
  have ahead : front = left := List.reverse_inj.mp before
  rw [ahead] at same
  exact ⟨ahead, Subtype.ext (List.cons.inj (List.append_cancel_left same)).2⟩

end Trimming

theorem not_mem_collapse (text : List Char) : '\n' ∉ collapse text := by
  intro member
  rcases mem_or_mem_of_mem_intercalate member with gap | ⟨word, listed, inside⟩
  · simp at gap
  · have solid := not_of_mem_splitOnP (List.mem_filter.mp listed).1 inside
    exact absurd solid (by decide)

section Lines

variable {line text : List Char} {rows : List (List Char)}

/-- Only the piece behind the last line feed is no line if it is empty. -/
theorem exists_splitOn_lines (text : List Char) :
    ∃ front last, text.splitOn '\n' = front ++ [last] ∧
      lines text = front.map dropReturn ++ if last = [] then [] else [last] := by
  have nonempty : text.splitOn '\n' ≠ [] := List.splitOn_ne_nil '\n' text
  have cut := (List.dropLast_concat_getLast nonempty).symm
  refine ⟨_, _, cut, ?_⟩
  rw [lines, List.getLast?_eq_some_getLast nonempty]
  by_cases empty : (text.splitOn '\n').getLast nonempty = [] <;> simp [empty]

theorem lines_append (front back : List Char) :
    lines (front ++ '\n' :: back) = (front.splitOn '\n').map dropReturn ++ lines back := by
  have nonempty : back.splitOn '\n' ≠ [] := List.splitOn_ne_nil '\n' back
  simp only [lines, List.splitOn_append_cons_self, List.dropLast_append_of_ne_nil nonempty,
    List.getLast?_append, List.map_append, List.append_assoc]
  rw [List.getLast?_eq_some_getLast nonempty]
  rfl

theorem lines_of_undivided (undivided : '\n' ∉ text) : lines text = [text].filter (· ≠ []) := by
  rw [lines, List.splitOn_eq_singleton undivided]
  rfl

theorem length_lines_le (text : List Char) : (lines text).length ≤ text.length := by
  induction text using separated_induction '\n' with
  | single text undivided =>
      rw [lines_of_undivided undivided]
      cases text <;> simp
  | divided before after _ ih =>
      have pieces := length_splitOn_le '\n' before
      rw [lines_append, List.length_append, List.length_map, List.length_append, List.length_cons]
      omega

theorem dropReturn_cases (line : List Char) :
    dropReturn line = line ∨ line = dropReturn line ++ ['\r'] := by
  unfold dropReturn
  split_ifs with ends
  · obtain ⟨front, cut⟩ := List.getLast?_eq_some_iff.mp ends
    exact .inr (by simp [cut])
  · exact .inl rfl

theorem dropReturn_append {front : List Char} (absent : '\r' ∉ front) (line : List Char) :
    dropReturn (front ++ line) = front ++ dropReturn line := by
  have other : front.getLast? ≠ some '\r' := fun last => absent (List.mem_of_getLast? last)
  rcases List.eq_nil_or_concat line with rfl | ⟨before, last, rfl⟩
  · simp [dropReturn, other]
  · by_cases isReturn : last = '\r' <;> simp [dropReturn, isReturn, ← List.append_assoc]

theorem not_mem_dropReturn (absent : '\n' ∉ line) : '\n' ∉ dropReturn line := by
  cases dropReturn_cases line with
  | inl same => rwa [same]
  | inr cut =>
      rw [cut] at absent
      exact fun member => absent (List.mem_append_left _ member)

/-- A reader that does not look at a carriage return at the end does not miss a dropped one. -/
theorem read_dropReturn {β : Type} {read : List Char → β}
    (ignores : ∀ line, read (line ++ ['\r']) = read line) (line : List Char) :
    read (dropReturn line) = read line := by
  cases dropReturn_cases line with
  | inl same => rw [same]
  | inr cut =>
      calc read (dropReturn line)
        _ = read (dropReturn line ++ ['\r']) := (ignores _).symm
        _ = read line := by rw [← cut]

theorem forall_isBlank_return : ∀ c ∈ ['\r'], isBlank c = true :=
  List.forall_mem_singleton.mpr (by decide)

/-- The carriage return before a line feed is a blank at the end of its line. -/
theorem trim_dropReturn (line : List Char) : trim (dropReturn line) = trim line :=
  read_dropReturn (fun line => trim_append ⟨[], by simp⟩ line ⟨['\r'], forall_isBlank_return⟩) line

theorem not_mem_of_mem_lines (member : line ∈ lines text) : '\n' ∉ line := by
  obtain ⟨front, last, cut, read⟩ := exists_splitOn_lines text
  have undivided : ∀ piece ∈ front ++ [last], '\n' ∉ piece :=
    fun piece listed => not_mem_of_mem_splitOn (cut ▸ listed)
  rw [read] at member
  cases List.mem_append.mp member with
  | inl ended =>
      obtain ⟨piece, listed, same⟩ := List.mem_map.mp ended
      rw [← same]
      exact not_mem_dropReturn (undivided piece (List.mem_append_left _ listed))
  | inr final =>
      have same : line = last := by
        split_ifs at final <;> simp_all
      rw [same]
      exact undivided last (by simp)

theorem unlines_cons (row : List Char) (rest : List (List Char)) :
    unlines (row :: rest) = row ++ '\n' :: unlines rest := by
  simp [unlines]

theorem lines_unlines (undivided : ∀ row ∈ rows, '\n' ∉ row) :
    lines (unlines rows) = rows.map dropReturn := by
  induction rows with
  | nil => rfl
  | cons row rest ih =>
      obtain ⟨first, others⟩ := List.forall_mem_cons.mp undivided
      rw [unlines_cons, lines_append, List.splitOn_eq_singleton first, ih others]
      rfl

theorem splitOn_unlines (undivided : ∀ row ∈ rows, '\n' ∉ row) :
    (unlines rows).splitOn '\n' = rows ++ [[]] := by
  induction rows with
  | nil => rfl
  | cons row rest ih =>
      obtain ⟨first, others⟩ := List.forall_mem_cons.mp undivided
      rw [unlines_cons, List.splitOn_append_cons_self, List.splitOn_eq_singleton first, ih others]
      rfl

end Lines

end RuleSurvey.Text
