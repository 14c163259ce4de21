import RuleSurvey.Text.Basic

namespace RuleSurvey

/-!
What a rule file says of itself: the name in its `# Name:` comment and the label it assigns to
`$rulesfile`. Both are searched for in the whole text, and the first occurrence counts.
-/

structure RuleFile where
  path : String
  declaredName : Option String
  label : Option String
deriving DecidableEq, Repr

namespace RuleFile

open Text

/-- What follows `# Name:` at the start of a text; the blanks after the mark may span lines. -/
def pastHeading? (text : List Char) : Option (List Char) := do
  let comment ← strip? ['#'] text
  strip? "Name:".toList (trimStart comment)

/--
The name after a heading: the rest of the line on which the first character stands that is not
blank. If there is none, the name is empty, and blanks other than line feeds are needed for that.
-/
def headingName? (text : List Char) : Option (List Char) :=
  match trimStart text with
  | [] => if text.all (· == '\n') then none else some []
  | name => some (trim (name.takeWhile (· != '\n')))

/-- The name at the first heading, where only the start of a line can begin one. -/
def declaredNameFrom? (lineStart : Bool) : List Char → Option (List Char)
  | [] => none
  | c :: text =>
      match (if lineStart then pastHeading? (c :: text) else none).bind headingName? with
      | some name => some name
      | none => declaredNameFrom? (c == '\n') text

def declaredName? (text : List Char) : Option (List Char) :=
  declaredNameFrom? true text

/-- The label that a text assigns right at its start. -/
def assignedLabel? (text : List Char) : Option (List Char) := do
  let target ← strip? "$rulesfile".toList text
  let assigned ← pastMark? '=' target
  let opened ← pastMark? '"' assigned
  match opened.takeWhile (· != '"'), opened.dropWhile (· != '"') with
  | c :: label, _ :: _ => some (trim (c :: label))
  | _, _ => none

/-- The first complete assignment of a label; empty and unfinished ones are passed over. -/
def label? : List Char → Option (List Char)
  | [] => none
  | c :: text =>
      match assignedLabel? (c :: text) with
      | some label => some label
      | none => label? text

end RuleFile

def RuleFile.ofText (path : String) (text : String) : RuleFile where
  path
  declaredName := (RuleFile.declaredName? text.toList).map String.ofList
  label := (RuleFile.label? text.toList).map String.ofList

end RuleSurvey
