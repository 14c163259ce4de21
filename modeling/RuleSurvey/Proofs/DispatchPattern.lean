import RuleSurvey.Proofs.DispatchLine
import RuleSurvey.Proofs.Pattern

namespace RuleSurvey.Dispatch

open Text

/-!
The two kinds of line in a dispatch file as patterns that are searched for. Neither leaves a choice:
a line ends in one call, whose name is a whole word, and a guard reaches from the first parenthesis
of its line to the last one. So a search finds what is read from the ends of the line, whatever
stands in between, and no line is of both kinds.
-/

/-- Empty parentheses and a semicolon at the end of the text, with blanks around them. -/
def callEnd : Pattern :=
  [.blanks, .mark '(', .blanks, .mark ')', .blanks, .mark ';', .blanks, .textEnd]

def callPattern : Pattern.Capture where
  lead := [.wordEdge]
  inner := Pattern.atLeastOne isNameChar
  trail := callEnd

/-- A keyword at the start of the text, and what opens the guard. -/
def guardStart : Pattern :=
  [.textStart, .blanks, .word ["if".toList, "elsif".toList], .blanks, .mark '(']

/-- What closes the guard, and the brace that ends the text. -/
def guardEnd : Pattern :=
  [.mark ')', .blanks, .mark '\x7b', .blanks, .textEnd]

def conditionPattern : Pattern.Capture where
  lead := guardStart
  inner := Pattern.atLeastOne (· != '\n')
  trail := guardEnd

/-- The text of an opening line without the blanks around it, in its parts. -/
structure Guard (text : List Char) where
  keyword : List Char
  gap : Blanks
  guarded : List Char
  space : Blanks
  isKeyword : keyword = "if".toList ∨ keyword = "elsif".toList
  nonempty : guarded ≠ []
  whole : text = keyword ++ (gap.val ++ '(' :: (guarded ++ ')' :: (space.val ++ ['\x7b'])))

section Calls

variable {line before taken rest name : List Char}

theorem reads_callEnd_iff :
    callEnd.Reads before taken rest ↔ rest = [] ∧ ∃ gap inner space trail : Blanks,
      taken = gap.val ++ '(' :: (inner.val ++ ')' :: (space.val ++ ';' :: trail.val)) := by
  simp only [callEnd, Pattern.reads_blanks_cons, Pattern.reads_mark_cons, Pattern.reads_textEnd]
  constructor
  · rintro ⟨gap, _, rfl, _, rfl, inner, _, rfl, _, rfl, space, _, rfl, _, rfl, trail, _, rfl,
      rfl, rfl⟩
    exact ⟨rfl, gap, inner, space, trail, by rw [List.append_nil]⟩
  · rintro ⟨rfl, gap, inner, space, trail, rfl⟩
    exact ⟨gap, _, rfl, _, rfl, inner, _, rfl, _, rfl, space, _, rfl, _, rfl, trail, [],
      by rw [List.append_nil], rfl, rfl⟩

/-- In front of a name, the edge of a word is where no word goes on. -/
theorem reads_wordEdge_iff (nonempty : name ≠ []) (named : ∀ c ∈ name, isNameChar c = true) :
    Pattern.Reads [.wordEdge] before taken (name ++ rest) ↔
      taken = [] ∧ ∀ c ∈ before.getLast?, isWordChar c = false := by
  obtain ⟨first, others, rfl⟩ := List.exists_cons_of_ne_nil nonempty
  have starts : isWordChar first = true := isWordChar_of_isNameChar (named first (.head _))
  rw [Pattern.Part.wordEdge, Pattern.reads_edge_cons, Pattern.reads_nil, and_comm]
  refine and_congr_right ?_
  rintro rfl
  cases before.getLast? <;> simp [starts]

theorem exists_match_callPattern_iff :
    (∃ occurrence : callPattern.Match line, occurrence.middle = name) ↔
      ∃ calling : Calling line, calling.name = name := by
  constructor
  · rintro ⟨⟨before, front, middle, back, after, whole, leads, fits, trails⟩, rfl⟩
    obtain ⟨nonempty, named⟩ := Pattern.reads_atLeastOne.mp fits
    obtain ⟨rfl, startsWord⟩ := (reads_wordEdge_iff nonempty named).mp leads
    obtain ⟨rfl, gap, inner, space, trail, rfl⟩ := reads_callEnd_iff.mp trails
    rw [List.append_nil, List.nil_append] at whole
    exact ⟨⟨before, middle, gap, inner, space, trail, nonempty, named, startsWord, whole⟩, rfl⟩
  · rintro ⟨⟨before, name, gap, inner, space, trail, nonempty, named, startsWord, whole⟩, rfl⟩
    exact ⟨⟨before, [], name, _, [], by rw [List.append_nil]; exact whole,
      (reads_wordEdge_iff nonempty named).mpr ⟨rfl, startsWord⟩,
      Pattern.reads_atLeastOne.mpr ⟨nonempty, named⟩,
      reads_callEnd_iff.mpr ⟨rfl, gap, inner, space, trail, rfl⟩⟩, rfl⟩

theorem call?_of_match (occurrence : callPattern.Match line) :
    call? line = some (String.ofList occurrence.middle) := by
  obtain ⟨calling, same⟩ := exists_match_callPattern_iff.mp ⟨occurrence, rfl⟩
  rw [calling.call?_eq, same]

theorem map_search_callPattern (line : List Char) :
    (callPattern.search line).map String.ofList = call? line := by
  refine Pattern.Capture.map_search_eq call?_of_match ?_
  intro called
  obtain ⟨name, called⟩ := Option.ne_none_iff_exists'.mp called
  obtain ⟨calling, _⟩ := call?_eq_some_iff.mp called
  obtain ⟨occurrence, _⟩ := exists_match_callPattern_iff.mpr ⟨calling, rfl⟩
  exact ⟨occurrence⟩

/-- A line is cut into the parts of a call in one way only, found from its end. -/
theorem Calling.unique (first second : Calling line) : first = second := by
  have sameName : first.name = second.name :=
    String.ofList_inj.mp (Option.some.inj (first.call?_eq.symm.trans second.call?_eq))
  obtain ⟨before, name, gap, inner, space, trail, nonempty, named, _, whole⟩ := first
  obtain ⟨left, _, between, within, apart, tail, _, _, _, again⟩ := second
  subst sameName
  have toEnd : (before ++ (name ++ (gap.val ++ '(' :: (inner.val ++ ')' :: space.val)))) ++
        ';' :: trail.val =
      (left ++ (name ++ (between.val ++ '(' :: (within.val ++ ')' :: apart.val)))) ++
        ';' :: tail.val := by
    simpa using whole.symm.trans again
  obtain ⟨toSpace, rfl⟩ := mark_blanks_inj (by decide) toEnd
  have toClose : (before ++ (name ++ (gap.val ++ '(' :: inner.val))) ++ ')' :: space.val =
      (left ++ (name ++ (between.val ++ '(' :: within.val))) ++ ')' :: apart.val := by
    simpa using toSpace
  obtain ⟨toInner, rfl⟩ := mark_blanks_inj (by decide) toClose
  have toOpen : (before ++ (name ++ gap.val)) ++ '(' :: inner.val =
      (left ++ (name ++ between.val)) ++ '(' :: within.val := by
    simpa using toInner
  obtain ⟨toGap, rfl⟩ := mark_blanks_inj (by decide) toOpen
  -- The last character of the name is the mark in front of the blanks that follow it.
  have solid := isBlank_of_isNameChar (named _ (name.getLast_mem nonempty))
  have toName : (before ++ name.dropLast) ++ name.getLast nonempty :: gap.val =
      (left ++ name.dropLast) ++ name.getLast nonempty :: between.val := by
    rw [← List.dropLast_concat_getLast nonempty] at toGap
    simpa using toGap
  obtain ⟨front, rfl⟩ := mark_blanks_inj solid toName
  obtain rfl := List.append_cancel_right front
  rfl

end Calls

section Guards

variable {line text before taken rest guarded : List Char}

theorem Guard.unique (first second : Guard text) : first = second := by
  obtain ⟨keyword, gap, guarded, space, isKeyword, _, whole⟩ := first
  obtain ⟨other, between, inside, apart, isOther, _, again⟩ := second
  have same := whole.symm.trans again
  have sameKeyword : keyword = other := by
    rcases isKeyword with rfl | rfl <;> rcases isOther with rfl | rfl
    · rfl
    · simp at same
    · simp at same
    · rfl
  subst sameKeyword
  obtain ⟨rfl, behind⟩ := blanks_mark_inj (by decide) (List.append_cancel_left same)
  have toClose : (guarded ++ ')' :: space.val) ++ ['\x7b'] =
      (inside ++ ')' :: apart.val) ++ ['\x7b'] := by
    simpa using behind
  obtain ⟨rfl, rfl⟩ := mark_blanks_inj (by decide) (List.append_cancel_right toClose)
  rfl

/-- No parenthesis opens before the guard, and none closes behind it. -/
theorem Guard.reaches (guard : Guard text) :
    ∃ front back, text = front ++ '(' :: (guard.guarded ++ ')' :: back) ∧
      '(' ∉ front ∧ ')' ∉ back := by
  obtain ⟨keyword, gap, guarded, space, isKeyword, _, whole⟩ := guard
  have notBlank : ∀ (run : Blanks) (mark : Char), isBlank mark = false → mark ∉ run.val := by
    intro run mark solid member
    simp [run.property mark member] at solid
  refine ⟨keyword ++ gap.val, space.val ++ ['\x7b'], by simpa using whole, ?_, ?_⟩
  · have inGap := notBlank gap '(' (by decide)
    rcases isKeyword with rfl | rfl <;> simp [inGap]
  · have inSpace := notBlank space ')' (by decide)
    simp [inSpace]

theorem exists_guard_iff :
    (∃ guard : Guard (trim line), guard.guarded = guarded) ↔
      ∃ opening : Opening line, opening.guarded = guarded := by
  constructor
  · rintro ⟨⟨keyword, gap, guarded, space, isKeyword, nonempty, whole⟩, rfl⟩
    obtain ⟨lead, trail, spaced⟩ := exists_append_trim_append line
    rw [whole] at spaced
    exact ⟨⟨lead, keyword, gap, guarded, space, trail, isKeyword, nonempty,
      by simpa using spaced⟩, rfl⟩
  · rintro ⟨⟨lead, keyword, gap, guarded, space, trail, isKeyword, nonempty, whole⟩, rfl⟩
    refine ⟨⟨keyword, gap, guarded, space, isKeyword, nonempty, ?_⟩, rfl⟩
    let core := keyword ++ (gap.val ++ '(' :: (guarded ++ ')' :: (space.val ++ ['\x7b'])))
    have spaced : line = lead.val ++ (core ++ trail.val) := by simpa [core] using whole
    have starts : ∀ c ∈ core.head?, isBlank c = false := by
      rcases isKeyword with rfl | rfl <;> simp [core] <;> decide
    have ends : ∀ c ∈ core.getLast?, isBlank c = false := by
      have cut : core =
          (keyword ++ (gap.val ++ '(' :: (guarded ++ ')' :: space.val))) ++ ['\x7b'] := by
        simp [core]
      rw [cut, List.getLast?_concat]
      rintro _ ⟨⟩
      decide
    rw [spaced, trim_append, trim_eq_self starts ends]

theorem reads_guardStart_iff :
    guardStart.Reads before taken rest ↔ before = [] ∧ ∃ (lead : Blanks) (keyword : List Char)
      (gap : Blanks), (keyword = "if".toList ∨ keyword = "elsif".toList) ∧
        taken = lead.val ++ (keyword ++ (gap.val ++ ['('])) := by
  simp only [guardStart, Pattern.reads_textStart_cons, Pattern.reads_blanks_cons,
    Pattern.reads_word_cons, Pattern.reads_mark_cons, Pattern.reads_nil, List.mem_cons,
    List.not_mem_nil, or_false]
  refine and_congr_right fun _ => ?_
  constructor
  · rintro ⟨lead, _, rfl, keyword, isKeyword, _, rfl, gap, _, rfl, _, rfl, rfl⟩
    exact ⟨lead, keyword, gap, isKeyword, rfl⟩
  · rintro ⟨lead, keyword, gap, isKeyword, rfl⟩
    exact ⟨lead, _, rfl, keyword, isKeyword, _, rfl, gap, _, rfl, _, rfl, rfl⟩

theorem reads_guardEnd_iff :
    guardEnd.Reads before taken rest ↔ rest = [] ∧ ∃ space trail : Blanks,
      taken = ')' :: (space.val ++ '\x7b' :: trail.val) := by
  simp only [guardEnd, Pattern.reads_mark_cons, Pattern.reads_blanks_cons, Pattern.reads_textEnd]
  constructor
  · rintro ⟨_, rfl, space, _, rfl, _, rfl, trail, _, rfl, rfl, rfl⟩
    exact ⟨rfl, space, trail, by rw [List.append_nil]⟩
  · rintro ⟨rfl, space, trail, rfl⟩
    exact ⟨_, rfl, space, _, rfl, _, rfl, trail, [], by rw [List.append_nil], rfl, rfl⟩

theorem exists_opening_of_match (occurrence : conditionPattern.Match line) :
    ∃ opening : Opening line, opening.guarded = occurrence.middle := by
  obtain ⟨before, front, middle, back, after, whole, leads, fits, trails⟩ := occurrence
  obtain ⟨nonempty, _⟩ := Pattern.reads_atLeastOne.mp fits
  obtain ⟨rfl, lead, keyword, gap, isKeyword, rfl⟩ := reads_guardStart_iff.mp leads
  obtain ⟨rfl, space, trail, rfl⟩ := reads_guardEnd_iff.mp trails
  exact ⟨⟨lead, keyword, gap, middle, space, trail, isKeyword, nonempty, by simpa using whole⟩, rfl⟩

theorem Opening.exists_match (opening : Opening line) (undivided : '\n' ∉ line) :
    ∃ occurrence : conditionPattern.Match line, occurrence.middle = opening.guarded := by
  obtain ⟨lead, keyword, gap, guarded, space, trail, isKeyword, nonempty, whole⟩ := opening
  have inLine : ∀ c ∈ guarded, (c != '\n') = true := by
    intro c member
    have listed : c ∈ line := by simp [whole, member]
    exact bne_iff_ne.mpr (ne_of_mem_of_not_mem listed undivided)
  exact ⟨⟨[], _, guarded, _, [], by simpa using whole,
    reads_guardStart_iff.mpr ⟨rfl, lead, keyword, gap, isKeyword, rfl⟩,
    Pattern.reads_atLeastOne.mpr ⟨nonempty, inLine⟩,
    reads_guardEnd_iff.mpr ⟨rfl, space, trail, rfl⟩⟩, rfl⟩

theorem map_search_conditionPattern (undivided : '\n' ∉ line) :
    (conditionPattern.search line).map (fun guarded => String.ofList (trim guarded)) =
      condition? line := by
  refine Pattern.Capture.map_search_eq ?_ ?_
  · intro occurrence
    obtain ⟨opening, same⟩ := exists_opening_of_match occurrence
    rw [opening.condition?_eq, Opening.condition, same]
  · intro opened
    obtain ⟨condition, opened⟩ := Option.ne_none_iff_exists'.mp opened
    obtain ⟨opening, _⟩ := Opening.of_condition? opened
    obtain ⟨occurrence, _⟩ := opening.exists_match undivided
    exact ⟨occurrence⟩

theorem condition?_eq_some_iff_guard {condition : String} :
    condition? line = some condition ↔
      ∃ guard : Guard (trim line), String.ofList (trim guard.guarded) = condition := by
  rw [condition?_eq_some_iff]
  constructor
  · rintro ⟨opening, rfl⟩
    obtain ⟨guard, same⟩ := exists_guard_iff.mpr ⟨opening, rfl⟩
    exact ⟨guard, by rw [same, Opening.condition]⟩
  · rintro ⟨guard, rfl⟩
    obtain ⟨opening, same⟩ := exists_guard_iff.mp ⟨guard, rfl⟩
    exact ⟨opening, by rw [Opening.condition, same]⟩

/-- A line that ends in a call is nowhere read as one that opens a block. -/
theorem Calling.isEmpty_match (calling : Calling line) : IsEmpty (conditionPattern.Match line) := by
  constructor
  intro occurrence
  obtain ⟨opening, _⟩ := exists_opening_of_match occurrence
  have opened := calling.condition?_eq_none
  rw [opening.condition?_eq] at opened
  cases opened

end Guards

/--
The name that a line calls is the whole word in front of the parentheses that end it. The line has
these parts in one way only, so wherever a search for the call looks first, and whatever calls stand
further ahead, it finds this name. A line with a call opens no block.
-/
theorem called_name_has_one_reading (line : List Char) :
    (callPattern.search line).map String.ofList = call? line ∧
      (∀ name : String, call? line = some name ↔
        ∃ calling : Calling line, String.ofList calling.name = name) ∧
      (∀ first second : Calling line, first = second) ∧
      (∀ occurrence : callPattern.Match line,
        call? line = some (String.ofList occurrence.middle)) ∧
      ∀ _ : Calling line, condition? line = none ∧ IsEmpty (conditionPattern.Match line) :=
  ⟨map_search_callPattern line, fun _ => call?_eq_some_iff, Calling.unique, call?_of_match,
    fun calling => ⟨calling.condition?_eq_none, calling.isEmpty_match⟩⟩

-- A letter outside of ASCII is no part of a name, but no name starts behind one.
example : call? "g(); é.f_1 ( )\u2003; ".toList = some "f_1" ∧ call? "g(); éf_1();".toList = none ∧
    call? "f(); # g".toList = none := by
  decide +kernel

/--
A line opens a block exactly if its trimmed text is a keyword, a guard in parentheses and a brace.
It has these parts in one way only, the guard reaches from the first parenthesis to the last one,
and a search for the pattern of such a line finds it.
-/
theorem guard_reaches_to_last_parenthesis {line : List Char} (undivided : '\n' ∉ line) :
    (conditionPattern.search line).map (fun guarded => String.ofList (trim guarded)) =
        condition? line ∧
      (∀ condition : String, condition? line = some condition ↔
        ∃ guard : Guard (trim line), String.ofList (trim guard.guarded) = condition) ∧
      (∀ first second : Guard (trim line), first = second) ∧
      ∀ guard : Guard (trim line), ∃ front back,
        trim line = front ++ '(' :: (guard.guarded ++ ')' :: back) ∧ '(' ∉ front ∧ ')' ∉ back :=
  ⟨map_search_conditionPattern undivided, fun _ => condition?_eq_some_iff_guard, Guard.unique,
    Guard.reaches⟩

/-- A guard may hold what looks like its own end, and the start of another one. -/
theorem guard_reaches_to_last_parenthesis_sample :
    let line := "\u3000elsif( if (a) \x7b ) ) \x7b\r".toList
    '\n' ∉ line ∧ condition? line = some "if (a) \x7b )" ∧
      (conditionPattern.search line).map (fun guarded => String.ofList (trim guarded)) =
        some "if (a) \x7b )" := by
  intro line
  have undivided : '\n' ∉ line := by decide
  have read : condition? line = some "if (a) \x7b )" := by decide +kernel
  exact ⟨undivided, read, (guard_reaches_to_last_parenthesis undivided).1.trans read⟩

end RuleSurvey.Dispatch
