namespace RuleSurvey

/-!
Texts as lists of characters: the classes that characters fall into, blanks, lines, and fixed words.

A character class is a table of inclusive code point ranges. A table is read as a set: the order of
its rows and overlaps between them do not matter.
-/

abbrev CharTable := List (Nat × Nat)

def CharTable.has (table : CharTable) (c : Char) : Bool :=
  table.any fun range => range.1 ≤ c.toNat && c.toNat ≤ range.2

theorem CharTable.has_iff {table : CharTable} {c : Char} :
    table.has c = true ↔ ∃ range ∈ table, range.1 ≤ c.toNat ∧ c.toNat ≤ range.2 := by
  simp [CharTable.has]

namespace Text

/-!
Blanks are the characters with the property White_Space. They are trimmed from the ends of a text,
and runs of them separate words.
-/

def blanks : CharTable := [
  (0x9, 0xD), (0x20, 0x20), (0x85, 0x85), (0xA0, 0xA0), (0x1680, 0x1680),
  (0x2000, 0x200A), (0x2028, 0x2029), (0x202F, 0x202F), (0x205F, 0x205F), (0x3000, 0x3000)]

def isBlank (c : Char) : Bool :=
  blanks.has c

def trimStart (text : List Char) : List Char :=
  text.dropWhile isBlank

def trimEnd (text : List Char) : List Char :=
  (text.reverse.dropWhile isBlank).reverse

def trim (text : List Char) : List Char :=
  trimEnd (trimStart text)

/-- The maximal runs of characters that are not blank. -/
def words (text : List Char) : List (List Char) :=
  (text.splitOnP isBlank).filter (· ≠ [])

/-- Every run of blanks becomes one space, and none is left at either end. -/
def collapse (text : List Char) : List Char :=
  List.intercalate [' '] (words text)

/-!
The lines of a text. A line feed ends a line and takes one carriage return right before it along.
Text after the last line feed is a line only if there is any, and it keeps its carriage return.
-/

def dropReturn (line : List Char) : List Char :=
  if line.getLast? = some '\r' then line.dropLast else line

def lines (text : List Char) : List (List Char) :=
  let pieces := text.splitOn '\n'
  pieces.dropLast.map dropReturn ++ pieces.getLast?.toList.filter (· ≠ [])

/-- The text in which every given line is ended by a line feed. -/
def unlines (rows : List (List Char)) : List Char :=
  rows.flatMap (· ++ ['\n'])

/-! Reading fixed words and looking for one text inside another. -/

/-- What follows `word` in a text that starts with it. -/
def strip? : List Char → List Char → Option (List Char)
  | [], text => some text
  | _ :: _, [] => none
  | expected :: word, c :: text => if expected = c then strip? word text else none

theorem strip?_eq_some_iff {word text rest : List Char} :
    strip? word text = some rest ↔ text = word ++ rest := by
  induction word generalizing text with
  | nil => simp [strip?]
  | cons expected word ih =>
      cases text with
      | nil => simp [strip?]
      | cons c text =>
          by_cases same : expected = c
          · simp [strip?, same, ih]
          · simp [strip?, same, Ne.symm same]

/-- What follows a mark once the blanks in front of it are skipped. -/
def pastMark? (mark : Char) (text : List Char) : Option (List Char) :=
  strip? [mark] (trimStart text)

/-- Whether `word` occurs somewhere in the text. -/
def occursIn (word : List Char) : List Char → Bool
  | [] => word.isEmpty
  | c :: text => word.isPrefixOf (c :: text) || occursIn word text

theorem occursIn_iff {word text : List Char} : occursIn word text = true ↔ word <:+: text := by
  induction text with
  | nil => cases word <;> simp [occursIn]
  | cons c text ih =>
      rw [occursIn, Bool.or_eq_true, ih, List.isPrefixOf_iff_prefix, List.infix_cons_iff]

/-- ASCII letters, digits and the underscore: what the name of a called function is made of. -/
def isNameChar (c : Char) : Bool :=
  c.isAlphanum || c == '_'

end Text

end RuleSurvey
