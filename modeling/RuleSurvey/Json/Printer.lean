import RuleSurvey.Json.Basic

namespace RuleSurvey

/-!
Writing JSON, on one line without blanks or over several lines with indentation. The two layouts
differ only in the blanks between the parts.
-/

namespace Scalar

def hexDigit (value : Nat) : Char :=
  Nat.digitChar (value % 16)

/-- Quotes, backslashes and control characters are escaped; all else stands for itself. -/
def escaped (c : Char) : List Char :=
  match c with
  | '"' => ['\\', '"']
  | '\\' => ['\\', '\\']
  | '\x08' => ['\\', 'b']
  | '\x0c' => ['\\', 'f']
  | '\n' => ['\\', 'n']
  | '\r' => ['\\', 'r']
  | '\t' => ['\\', 't']
  | _ =>
      if c.toNat < 0x20 then ['\\', 'u', '0', '0', hexDigit (c.toNat / 16), hexDigit c.toNat]
      else [c]

def write : Scalar → List Char
  | null => "null".toList
  | bool true => "true".toList
  | bool false => "false".toList
  | natural value => Nat.toDigits 10 value
  | number spelling => spelling
  | text value => '"' :: value.toList.flatMap escaped ++ ['"']

end Scalar

namespace Json

/-- The blanks between the parts of a value. -/
structure Layout where
  /-- What precedes an item, and a closing bracket, at a depth. -/
  lineBreak : Nat → List Char
  afterColon : List Char

def Layout.compact : Layout where
  lineBreak _ := []
  afterColon := []

def Layout.indented : Layout where
  lineBreak depth := '\n' :: List.replicate (2 * depth) ' '
  afterColon := [' ']

def bracketed (layout : Layout) (depth : Nat) (opening closing : Char) : List (List Char) → List Char
  | [] => [opening, closing]
  | parts =>
      opening :: layout.lineBreak (depth + 1) ++
        List.intercalate (',' :: layout.lineBreak (depth + 1)) parts ++ layout.lineBreak depth ++ [closing]

mutual

def write (layout : Layout) (depth : Nat) : Json → List Char
  | .scalar value => value.write
  | .list items => bracketed layout depth '[' ']' (writeItems layout (depth + 1) items)
  | .object fields => bracketed layout depth '\x7b' '\x7d' (writeFields layout (depth + 1) fields)

def writeItems (layout : Layout) (depth : Nat) : List Json → List (List Char)
  | [] => []
  | item :: rest => write layout depth item :: writeItems layout depth rest

def writeFields (layout : Layout) (depth : Nat) : List (String × Json) → List (List Char)
  | [] => []
  | (key, value) :: rest =>
      ((Scalar.text key).write ++ ':' :: layout.afterColon ++ write layout depth value) ::
        writeFields layout depth rest

end

def compact (value : Json) : String :=
  String.ofList (write .compact 0 value)

def indented (value : Json) : String :=
  String.ofList (write .indented 0 value)

end Json

end RuleSurvey
