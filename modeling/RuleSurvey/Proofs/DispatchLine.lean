import RuleSurvey.Dispatch
import RuleSurvey.Proofs.Text

namespace RuleSurvey.Dispatch

open Text

/-!
What the lines of a dispatch file look like. Both kinds of line are read from their ends, and each
has one form: a guard reaches from the first parenthesis to the last one, and a called name is the
whole word in front of the parentheses.
-/

section NameCharacters

variable {c : Char}

theorem has_of_isNameChar (named : isNameChar c = true) :
    CharTable.has [(0x30, 0x39), (0x41, 0x5A), (0x5F, 0x5F), (0x61, 0x7A)] c = true := by
  rw [isNameChar, Bool.or_eq_true, beq_iff_eq] at named
  cases named with
  | inl alphanumeric =>
      change (decide (0x41 ≤ c.val ∧ c.val ≤ 0x5A) || (decide (0x61 ≤ c.val) && c.val ≤ 0x7A) ||
        (decide (0x30 ≤ c.val) && c.val ≤ 0x39)) = true at alphanumeric
      simp only [Bool.or_eq_true, Bool.and_eq_true, decide_eq_true_eq, UInt32.le_iff_toNat_le,
        UInt32.reduceToNat] at alphanumeric
      simp only [CharTable.has, List.any_cons, List.any_nil, Bool.or_eq_true, Bool.and_eq_true,
        decide_eq_true_eq, Char.toNat]
      omega
  | inr underscore => rw [underscore]; decide

theorem isWordChar_of_isNameChar (named : isNameChar c = true) : isWordChar c = true := by
  have found := CharTable.has_iff.mp (has_of_isNameChar named)
  obtain ⟨range, member, within⟩ := found
  refine CharTable.has_iff.mpr ⟨range, ?_, within⟩
  exact List.mem_of_mem_take (i := 4) member

theorem isBlank_of_isNameChar (named : isNameChar c = true) : isBlank c = false := by
  have found := has_of_isNameChar named
  rw [← Bool.not_eq_true]
  simp only [isBlank, blanks, CharTable.has, List.any_cons, List.any_nil, Bool.or_false,
    Bool.or_eq_true, Bool.and_eq_true, decide_eq_true_eq] at found ⊢
  omega

end NameCharacters

/-- A line that opens a block, in its parts. -/
structure Opening (line : List Char) where
  lead : Blanks
  keyword : List Char
  gap : Blanks
  guarded : List Char
  space : Blanks
  trail : Blanks
  isKeyword : keyword = "if".toList ∨ keyword = "elsif".toList
  nonempty : guarded ≠ []
  whole : line = lead.val ++ (keyword ++ (gap.val ++ '(' ::
    (guarded ++ ')' :: (space.val ++ '\x7b' :: trail.val))))

def Opening.condition {line : List Char} (opening : Opening line) : String :=
  String.ofList (trim opening.guarded)

/-- A line that ends in a call, in its parts. -/
structure Calling (line : List Char) where
  before : List Char
  name : List Char
  gap : Blanks
  inner : Blanks
  space : Blanks
  trail : Blanks
  nonempty : name ≠ []
  named : ∀ c ∈ name, isNameChar c = true
  startsWord : ∀ c ∈ before.getLast?, isWordChar c = false
  whole : line = before ++ (name ++ (gap.val ++ '(' ::
    (inner.val ++ ')' :: (space.val ++ ';' :: trail.val))))

section

variable {line text rest : List Char} {condition name : String}

theorem pastKeyword?_eq_some_iff :
    pastKeyword? text = some rest ↔
      ∃ keyword, (keyword = "if".toList ∨ keyword = "elsif".toList) ∧ text = keyword ++ rest := by
  rw [pastKeyword?]
  constructor
  · intro found
    cases short : strip? "if".toList text with
    | some after =>
        rw [short] at found
        cases found
        exact ⟨_, .inl rfl, strip?_eq_some_iff.mp short⟩
    | none =>
        rw [short] at found
        exact ⟨_, .inr rfl, strip?_eq_some_iff.mp found⟩
  · intro split
    obtain ⟨keyword, rfl | rfl, rfl⟩ := split
    · rw [strip?_eq_some_iff.mpr rfl]
      rfl
    · rw [strip?_eq_some_iff.mpr (rfl : "elsif".toList ++ rest = _)]
      rfl

theorem trimStart_keyword {keyword : List Char}
    (isKeyword : keyword = "if".toList ∨ keyword = "elsif".toList) :
    trimStart (keyword ++ rest) = keyword ++ rest := by
  obtain rfl | rfl := isKeyword
  · exact trimStart_cons (by decide)
  · exact trimStart_cons (by decide)

theorem Opening.of_condition? (opened : condition? line = some condition) :
    ∃ opening : Opening line, opening.condition = condition := by
  simp only [condition?, Option.bind_eq_bind, Option.bind_eq_some_iff] at opened
  obtain ⟨afterKeyword, atKeyword, inside, atParenthesis, beforeBrace, atBrace, turned, atClose,
    accepted⟩ := opened
  obtain ⟨nonempty, same⟩ := Option.ite_none_left_eq_some.mp accepted
  obtain ⟨lead, whole⟩ := exists_append_trimStart line
  obtain ⟨keyword, isKeyword, started⟩ := pastKeyword?_eq_some_iff.mp atKeyword
  obtain ⟨gap, behindKeyword⟩ := (pastMark?_eq_some_iff (by decide)).mp atParenthesis
  obtain ⟨trail, ended⟩ := (pastMark?_reverse_eq_some_iff (by decide)).mp atBrace
  rw [← beforeBrace.reverse_reverse] at atClose
  obtain ⟨space, closed⟩ := (pastMark?_reverse_eq_some_iff (by decide)).mp atClose
  refine ⟨⟨lead, keyword, gap, turned.reverse, space, trail, isKeyword, ?_, ?_⟩, ?_⟩
  · simpa using nonempty
  · rw [whole, started, behindKeyword, ended, closed]
    simp
  · exact Option.some.inj same

theorem Opening.condition?_eq (opening : Opening line) :
    condition? line = some opening.condition := by
  obtain ⟨lead, keyword, gap, guarded, space, trail, isKeyword, nonempty, whole⟩ := opening
  let inside := guarded ++ ')' :: (space.val ++ '\x7b' :: trail.val)
  simp only [condition?, Option.bind_eq_bind, Option.bind_eq_some_iff]
  refine ⟨gap.val ++ '(' :: inside, ?_, inside, ?_, (guarded ++ ')' :: space.val).reverse, ?_,
    guarded.reverse, ?_, ?_⟩
  · rw [whole, trimStart_append, trimStart_keyword isKeyword]
    exact pastKeyword?_eq_some_iff.mpr ⟨keyword, isKeyword, rfl⟩
  · exact (pastMark?_eq_some_iff (by decide)).mpr ⟨gap, rfl⟩
  · exact (pastMark?_reverse_eq_some_iff (by decide)).mpr ⟨trail, by simp [inside]⟩
  · exact (pastMark?_reverse_eq_some_iff (by decide)).mpr ⟨space, by simp⟩
  · simp [nonempty, Opening.condition]

theorem condition?_eq_some_iff :
    condition? line = some condition ↔ ∃ opening : Opening line, opening.condition = condition := by
  constructor
  · exact Opening.of_condition?
  · intro found
    obtain ⟨opening, same⟩ := found
    rw [opening.condition?_eq, same]

theorem Calling.of_call? (called : call? line = some name) :
    ∃ calling : Calling line, String.ofList calling.name = name := by
  simp only [call?, Option.bind_eq_bind, Option.bind_eq_some_iff] at called
  obtain ⟨beforeEnd, atEnd, beforeClose, atClose, beforeOpen, atOpen, accepted⟩ := called
  obtain ⟨proper, same⟩ := Option.ite_none_left_eq_some.mp accepted
  rw [Bool.or_eq_true, not_or] at proper
  obtain ⟨nonempty, startsWord⟩ := proper
  obtain ⟨trail, ended⟩ := (pastMark?_reverse_eq_some_iff (by decide)).mp atEnd
  rw [← beforeEnd.reverse_reverse] at atClose
  obtain ⟨space, closed⟩ := (pastMark?_reverse_eq_some_iff (by decide)).mp atClose
  rw [← beforeClose.reverse_reverse] at atOpen
  obtain ⟨inner, opened⟩ := (pastMark?_reverse_eq_some_iff (by decide)).mp atOpen
  -- The line is read from its end, so its first two parts are what is left, turned around.
  obtain ⟨gap, word⟩ := exists_append_trimStart beforeOpen
  have cut := (trimStart beforeOpen).takeWhile_append_dropWhile (p := isNameChar)
  refine ⟨⟨((trimStart beforeOpen).dropWhile isNameChar).reverse,
    ((trimStart beforeOpen).takeWhile isNameChar).reverse, gap.reverse, inner, space, trail,
    ?_, ?_, ?_, ?_⟩, Option.some.inj same⟩
  · simpa using nonempty
  · intro c member
    exact List.mem_takeWhile_imp (List.mem_reverse.mp member)
  · intro c last
    cases front : (trimStart beforeOpen).dropWhile isNameChar with
    | nil => simp [front] at last
    | cons first others =>
        simp only [front, List.getLast?_reverse, List.head?_cons, Option.mem_some] at last
        simpa [front, last] using startsWord
  · have turned := congrArg List.reverse word
    rw [← cut] at turned
    simp only [ended, closed, opened, turned, Blanks.val_reverse, List.reverse_append,
      List.append_assoc, List.cons_append]

theorem takeWhile_isNameChar {before name : List Char} (named : ∀ c ∈ name, isNameChar c = true)
    (startsWord : ∀ c ∈ before.head?, isWordChar c = false) :
    (name ++ before).takeWhile isNameChar = name ∧
      (name ++ before).dropWhile isNameChar = before := by
  have stops : before.takeWhile isNameChar = [] ∧ before.dropWhile isNameChar = before := by
    cases before with
    | nil => simp
    | cons c rest =>
        have outside : isNameChar c = false := by
          rw [← Bool.not_eq_true]
          exact fun inside => by simpa [isWordChar_of_isNameChar inside] using startsWord c rfl
        simp [outside]
  rw [List.takeWhile_append_of_pos named, List.dropWhile_append_of_pos named, stops.1, stops.2]
  simp

theorem Calling.call?_eq (calling : Calling line) :
    call? line = some (String.ofList calling.name) := by
  obtain ⟨before, name, gap, inner, space, trail, nonempty, named, startsWord, whole⟩ := calling
  have word : trimStart (gap.reverse.val ++ (name.reverse ++ before.reverse)) =
      name.reverse ++ before.reverse := by
    rw [trimStart_append]
    cases turned : name.reverse with
    | nil => exact absurd (List.reverse_eq_nil_iff.mp turned) nonempty
    | cons last front =>
        have member : last ∈ name := List.mem_reverse.mp (turned ▸ List.mem_cons_self)
        exact trimStart_cons (isBlank_of_isNameChar (named last member))
  have startsTurned : ∀ c ∈ before.reverse.head?, isWordChar c = false := by
    rwa [List.head?_reverse]
  have namedTurned : ∀ c ∈ name.reverse, isNameChar c = true :=
    fun c member => named c (List.mem_reverse.mp member)
  obtain ⟨taken, left⟩ := takeWhile_isNameChar namedTurned startsTurned
  simp only [call?, Option.bind_eq_bind, Option.bind_eq_some_iff]
  refine ⟨(before ++ (name ++ (gap.val ++ '(' :: (inner.val ++ ')' :: space.val)))).reverse, ?_,
    (before ++ (name ++ (gap.val ++ '(' :: inner.val))).reverse, ?_,
    gap.reverse.val ++ (name.reverse ++ before.reverse), ?_, ?_⟩
  · exact (pastMark?_reverse_eq_some_iff (by decide)).mpr ⟨trail, by simp [whole]⟩
  · exact (pastMark?_reverse_eq_some_iff (by decide)).mpr ⟨space, by simp⟩
  · exact (pastMark?_reverse_eq_some_iff (by decide)).mpr ⟨inner, by simp⟩
  · rw [word, taken, left]
    cases front : before.reverse with
    | nil => simp [nonempty]
    | cons c rest => simp [nonempty, startsTurned c (by simp [front])]

theorem call?_eq_some_iff :
    call? line = some name ↔ ∃ calling : Calling line, String.ofList calling.name = name := by
  constructor
  · exact Calling.of_call?
  · intro found
    obtain ⟨calling, same⟩ := found
    rw [calling.call?_eq, same]

theorem Opening.ends (opening : Opening line) : (trimStart line.reverse).head? = some '\x7b' := by
  obtain ⟨lead, keyword, gap, guarded, space, trail, _, _, rfl⟩ := opening
  simp only [List.reverse_append, List.reverse_cons, List.append_assoc, ← Blanks.val_reverse,
    List.singleton_append, trimStart_append]
  rfl

theorem Calling.ends (calling : Calling line) : (trimStart line.reverse).head? = some ';' := by
  obtain ⟨before, name, gap, inner, space, trail, _, _, _, rfl⟩ := calling
  simp only [List.reverse_append, List.reverse_cons, List.append_assoc, ← Blanks.val_reverse,
    List.singleton_append, trimStart_append]
  rfl

/-- A line that ends in a call opens no block. -/
theorem Calling.condition?_eq_none (calling : Calling line) : condition? line = none := by
  cases opened : condition? line with
  | none => rfl
  | some condition =>
      obtain ⟨opening, _⟩ := Opening.of_condition? opened
      have same := opening.ends.symm.trans calling.ends
      simp at same

end

section CarriageReturn

theorem pastKeyword?_append_return (line : List Char) :
    pastKeyword? (trimStart (line ++ ['\r'])) =
      (pastKeyword? (trimStart line)).map (· ++ ['\r']) := by
  rw [pastKeyword?, strip?_trimStart_append (by decide) (by decide) (by decide),
    strip?_trimStart_append (by decide) (by decide) (by decide), pastKeyword?]
  cases strip? "if".toList (trimStart line) <;> rfl

-- A carriage return at the end of a line is one of the blanks behind its last mark.
theorem condition?_append_return (line : List Char) :
    condition? (line ++ ['\r']) = condition? line := by
  rw [condition?, condition?, pastKeyword?_append_return]
  cases pastKeyword? (trimStart line) with
  | none => rfl
  | some afterKeyword =>
      have opened := pastMark?_append_return (show '(' ≠ '\r' by decide) afterKeyword
      simp only [Option.map_some, Option.bind_eq_bind, Option.bind_some, opened, Option.bind_map,
        Function.comp_def, pastMark?_reverse_append_return]

theorem call?_append_return (line : List Char) : call? (line ++ ['\r']) = call? line := by
  rw [call?, pastMark?_reverse_append_return, call?]

theorem Line.ofText_append_return (line : List Char) :
    Line.ofText (line ++ ['\r']) = Line.ofText line := by
  rw [Line.ofText, Line.ofText, condition?_append_return, call?_append_return]

theorem Line.ofText_dropReturn (line : List Char) :
    Line.ofText (dropReturn line) = Line.ofText line :=
  read_dropReturn Line.ofText_append_return line

end CarriageReturn

end RuleSurvey.Dispatch
