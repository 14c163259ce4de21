import RuleSurvey.Json.Basic

namespace RuleSurvey

/-!
JSON text as a sequence of tokens. The text is read one character at a time by a machine whose state
is the token under way; a character that cannot belong to it ends the reading.
-/

namespace Json

inductive Token where
  | openList
  | closeList
  | openObject
  | closeObject
  | comma
  | colon
  | scalar (value : Scalar)
deriving DecidableEq

/-- The token under way; what was read of it stands backwards. -/
inductive Lexing where
  | between
  | string (read : List Char)
  | escape (read : List Char)
  /-- `high` is a leading surrogate already read, and `missing` digits of the code are to come. -/
  | code (read : List Char) (high : Option Nat) (missing : Nat) (value : Nat)
  | trailingBackslash (read : List Char) (high : Nat)
  | trailingMark (read : List Char) (high : Nat)
  | bare (read : List Char)

def isGap (c : Char) : Bool :=
  c == ' ' || c == '\n' || c == '\r' || c == '\t'

def isBare (c : Char) : Bool :=
  c.isAlphanum || c == '+' || c == '-' || c == '.'

/-- Digits without a superfluous zero in front. -/
def isNatural (text : List Char) : Bool :=
  text.all Char.isDigit && (text == ['0'] || (text != [] && text.head? != some '0'))

/-- What may follow the integer part of a number: a fraction, an exponent, both or neither. -/
def isExponent (text : List Char) : Bool :=
  match text with
  | [] => true
  | mark :: rest =>
      let digits := match rest with
        | '+' :: digits => digits
        | '-' :: digits => digits
        | digits => digits
      (mark == 'e' || mark == 'E') && digits != [] && digits.all Char.isDigit

def isFraction (text : List Char) : Bool :=
  match text with
  | '.' :: rest =>
      rest.takeWhile Char.isDigit != [] && isExponent (rest.dropWhile Char.isDigit)
  | _ => isExponent text

def isNumber (text : List Char) : Bool :=
  let unsigned := match text with
    | '-' :: rest => rest
    | _ => text
  isNatural (unsigned.takeWhile Char.isDigit) && isFraction (unsigned.dropWhile Char.isDigit)

def bareScalar? (text : List Char) : Option Scalar :=
  if text = "null".toList then some .null
  else if text = "true".toList then some (.bool true)
  else if text = "false".toList then some (.bool false)
  else if isNatural text then some (.natural (Nat.ofDigitChars 10 text 0))
  else if isNumber text then some (.number text)
  else none

def hexValue? (c : Char) : Option Nat :=
  if c.isDigit then some (c.toNat - '0'.toNat)
  else if 'a' ≤ c ∧ c ≤ 'f' then some (c.toNat - 'a'.toNat + 10)
  else if 'A' ≤ c ∧ c ≤ 'F' then some (c.toNat - 'A'.toNat + 10)
  else none

def escapedChar? : Char → Option Char
  | '"' => some '"'
  | '\\' => some '\\'
  | '/' => some '/'
  | 'b' => some '\x08'
  | 'f' => some '\x0c'
  | 'n' => some '\n'
  | 'r' => some '\r'
  | 't' => some '\t'
  | _ => none

/-- A whole code unit: a character, the first half of a pair, or the second half of one. -/
def codeUnit (read : List Char) (high : Option Nat) (unit : Nat) : Option Lexing :=
  match high with
  | some high =>
      if 0xDC00 ≤ unit ∧ unit ≤ 0xDFFF then
        some (.string (Char.ofNat (0x10000 + (high - 0xD800) * 0x400 + (unit - 0xDC00)) :: read))
      else none
  | none =>
      if 0xD800 ≤ unit ∧ unit ≤ 0xDBFF then some (.trailingBackslash read unit)
      else if 0xDC00 ≤ unit ∧ unit ≤ 0xDFFF then none
      else some (.string (Char.ofNat unit :: read))

/-- The first character of a token, or a gap between two. -/
def startToken (c : Char) : Option (Lexing × List Token) :=
  if c = '[' then some (.between, [.openList])
  else if c = ']' then some (.between, [.closeList])
  else if c = '\x7b' then some (.between, [.openObject])
  else if c = '\x7d' then some (.between, [.closeObject])
  else if c = ',' then some (.between, [.comma])
  else if c = ':' then some (.between, [.colon])
  else if c = '"' then some (.string [], [])
  else if isGap c then some (.between, [])
  else if isBare c then some (.bare [c], [])
  else none

def lexChar : Lexing → Char → Option (Lexing × List Token)
  | .between, c => startToken c
  | .string read, c =>
      if c = '"' then some (.between, [.scalar (.text (String.ofList read.reverse))])
      else if c = '\\' then some (.escape read, [])
      else if c.toNat < 0x20 then none
      else some (.string (c :: read), [])
  | .escape read, c =>
      if c = 'u' then some (.code read none 4 0, [])
      else (escapedChar? c).map fun plain => (.string (plain :: read), [])
  | .code read high missing value, c => do
      let digit ← hexValue? c
      let value := value * 16 + digit
      if missing ≤ 1 then (codeUnit read high value).map (·, [])
      else some (.code read high (missing - 1) value, [])
  | .trailingBackslash read high, c => if c = '\\' then some (.trailingMark read high, []) else none
  | .trailingMark read high, c => if c = 'u' then some (.code read (some high) 4 0, []) else none
  | .bare read, c =>
      if isBare c then some (.bare (c :: read), [])
      else do
        let scalar ← bareScalar? read.reverse
        let (state, tokens) ← startToken c
        some (state, .scalar scalar :: tokens)

/-- What the end of the text completes. -/
def lexEnd : Lexing → Option (List Token)
  | .between => some []
  | .bare read => (bareScalar? read.reverse).map fun scalar => [.scalar scalar]
  | _ => none

/-- Reads one more character; the tokens found so far stand backwards. -/
def advance (found : Lexing × List Token) (c : Char) : Option (Lexing × List Token) := do
  let (state, tokens) ← lexChar found.1 c
  some (state, tokens.reverse ++ found.2)

def tokens? (text : List Char) : Option (List Token) := do
  let (state, found) ← text.foldlM advance (.between, [])
  let last ← lexEnd state
  some (found.reverse ++ last)

end Json

end RuleSurvey
