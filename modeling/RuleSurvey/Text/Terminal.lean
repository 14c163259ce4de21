namespace RuleSurvey.Text

/-!
Text on its way to a place that is no terminal. Control sequences, which would move a cursor or
change a colour, are left out, and so are all other control characters but white space. A sequence
that never ends hides the rest of the text.
-/

/-- The parts of a control sequence that tell what its next character means. -/
inductive Sequence where
  /-- After the escape character. -/
  | escape
  /-- After the escape character and characters that only select. -/
  | selection
  /-- `ESC [` and what follows it. -/
  | control
  /-- `ESC ]` and what follows it, up to a bell. -/
  | command
  /-- `ESC P`, before its parameters. -/
  | device
  | deviceParameters
  | deviceSelection
  /-- Text meant for a device, up to a string terminator. -/
  | string
deriving DecidableEq, Repr

def isBetween (c : Char) (first last : Nat) : Bool :=
  first ≤ c.toNat && c.toNat ≤ last

/-- The white space among the control characters that is kept. -/
def isBreak (c : Char) : Bool :=
  c == '\t' || c == '\n' || c == '\x0C' || c == '\r'

/-- A string terminator is recognised among the bytes of any character. -/
def holdsTerminator (c : Char) : Bool :=
  (String.utf8EncodeChar c).contains 0x9C

namespace Sequence

/-- Whether white space shows even within the sequence. -/
def showsBreaks : Sequence → Bool
  | escape | selection | control => true
  | _ => false

/-- The sequence after one more character, or nothing where that character ends it. -/
def next? (sequence : Sequence) (c : Char) : Option Sequence :=
  match sequence with
  | escape =>
      if isBetween c 0x20 0x2F then some selection
      else if c = '[' then some control
      else if c = ']' then some command
      else if c = 'P' then some device
      else if c = 'X' || c = '^' || c = '_' then some string
      else if isBetween c 0x30 0x7E then none
      else some escape
  | selection => if isBetween c 0x30 0x7E then none else some selection
  | control => if isBetween c 0x40 0x7E then none else some control
  | command => if c = '\x07' then none else some command
  | device =>
      if isBetween c 0x20 0x2F then some deviceSelection
      else if isBetween c 0x30 0x3F then some deviceParameters
      else if isBetween c 0x40 0x7E then some string
      else some device
  | deviceParameters =>
      if isBetween c 0x20 0x2F then some deviceSelection
      else if isBetween c 0x3C 0x7E then some string
      else some deviceParameters
  | deviceSelection => if isBetween c 0x30 0x7E then some string else some deviceSelection
  | string => if holdsTerminator c then none else some string

end Sequence

/-- Where a reader of such text stands. -/
inductive Reading where
  /--
  Outside of a sequence. White space may have broken into an unfinished one, which goes on at the
  next control character.
  -/
  | shown (pending : Option Sequence)
  | inside (sequence : Sequence)
deriving DecidableEq, Repr

/-- Reads one character and tells whether it shows. -/
def Reading.step (reading : Reading) (c : Char) : Reading × Bool :=
  if c = '\x1B' then (.inside .escape, false)
  else if c = '\x18' || c = '\x1A' then (.shown none, false)
  else match reading with
    | .shown pending =>
        if 0x80 ≤ c.toNat then (.shown none, true)
        else if isBetween c 0x20 0x7E || isBreak c then (.shown pending, true)
        else match pending with
          | some sequence => (.inside sequence, false)
          | none => (.shown none, false)
    | .inside sequence =>
        if sequence.showsBreaks && isBreak c then (.shown (some sequence), true)
        else match sequence.next? c with
          | some sequence => (.inside sequence, false)
          | none => (.shown none, false)

/-- The characters that show, given where the reader stands. -/
def plainFrom : Reading → List Char → List Char
  | _, [] => []
  | reading, c :: rest =>
      let (reading, shows) := reading.step c
      if shows then c :: plainFrom reading rest else plainFrom reading rest

/-- A text without control sequences. -/
def plain (text : List Char) : List Char :=
  plainFrom (.shown none) text

end RuleSurvey.Text
