import RuleSurvey.Text.Basic
import RuleSurvey.Text.WordChar

namespace RuleSurvey

/-!
The dispatch file guards calls by conditions. An opening line, `if (…) {` or `elsif (…) {`, starts a
block and ends the one before it; the calls on the lines of a block belong to its condition. Blocks
do not nest, and a line that only closes one has no meaning of its own.
-/

structure DispatchRule where
  condition : String
  functions : List String
deriving DecidableEq, Repr

namespace Dispatch

open Text

/-- What follows one of the two words that open a block. -/
def pastKeyword? (text : List Char) : Option (List Char) :=
  strip? "if".toList text <|> strip? "elsif".toList text

/--
The guard of an opening line. It reaches from the first parenthesis to the last one, which has to
stand right before the brace that ends the line.
-/
def condition? (line : List Char) : Option String := do
  let afterKeyword ← pastKeyword? (trimStart line)
  let opened ← pastMark? '(' afterKeyword
  let beforeBrace ← pastMark? '\x7b' opened.reverse
  let guarded ← pastMark? ')' beforeBrace
  if guarded.isEmpty then none else some (String.ofList (trim guarded.reverse))

/--
The name called at the end of a line. It is the whole run of name characters before the
parentheses, and that run has to start a word.
-/
def call? (line : List Char) : Option String := do
  let beforeEnd ← pastMark? ';' line.reverse
  let beforeClose ← pastMark? ')' beforeEnd
  let beforeOpen ← pastMark? '(' beforeClose
  let word := trimStart beforeOpen
  let name := word.takeWhile isNameChar
  let startsWord := match word.dropWhile isNameChar with
    | [] => true
    | c :: _ => !isWordChar c
  if name.isEmpty || !startsWord then none else some (String.ofList name.reverse)

/-- What one line contributes. -/
inductive Line where
  | opening (condition : String)
  | call (name : String)
  | other
deriving DecidableEq

def Line.ofText (line : List Char) : Line :=
  match condition? line with
  | some condition => .opening condition
  | none => match call? line with
    | some name => .call name
    | none => .other

/-- Where a reader of lines stands. -/
inductive State where
  | idle
  | inBlock (condition : String) (functions : Array String)

/-- Closes the open block, if there is one: it becomes the last of the rules. -/
def State.flush (rules : Array DispatchRule) : State → Array DispatchRule
  | .idle => rules
  | .inBlock condition functions => rules.push ⟨condition, functions.toList⟩

/-- The rules of the blocks that are closed, and where the reader stands. -/
structure Reader where
  rules : Array DispatchRule := #[]
  state : State := .idle

def Reader.step : Reader → Line → Reader
  | ⟨rules, state⟩, .opening condition => ⟨state.flush rules, .inBlock condition #[]⟩
  | ⟨rules, .inBlock condition functions⟩, .call name =>
      ⟨rules, .inBlock condition (functions.push name)⟩
  | reader, _ => reader

/-- The end of the text closes the last block. -/
def Reader.finish (reader : Reader) : List DispatchRule :=
  (reader.state.flush reader.rules).toList

end Dispatch

/-- The rules of a dispatch file, in file order; calls in front of the first rule belong to none. -/
def dispatchRulesOf (text : String) : List DispatchRule :=
  (((Text.lines text.toList).map Dispatch.Line.ofText).foldl Dispatch.Reader.step {}).finish

/-- An opening line, one line to a call, and a closing line. -/
def DispatchRule.toLines (rule : DispatchRule) : List (List Char) :=
  ("if ( ".toList ++ rule.condition.toList ++ " ) \x7b".toList) ::
    rule.functions.map (fun name => "    ".toList ++ name.toList ++ "();".toList) ++ [['\x7d']]

def renderDispatch (rules : List DispatchRule) : String :=
  String.ofList (Text.unlines (rules.flatMap DispatchRule.toLines))

end RuleSurvey
