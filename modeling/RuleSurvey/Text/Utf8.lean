namespace RuleSurvey.Utf8

/-!
UTF-8 as it is found on disk, where not every byte belongs to a character. Bytes are read one at a
time. A byte that cannot continue the sequence begun before it closes that sequence as one fault and
is read again as a first byte, so a fault never swallows the start of a later character.
-/

/-- What the bytes read so far leave open. -/
inductive State where
  | start
  /-- `missing` bytes are still to come, the next of them between `low` and `high`. -/
  | inside (low high : UInt8) (missing : Nat) (code : Nat)

/-- A decoded character, or a fault: the longest run of bytes that could have begun a character. -/
inductive Piece where
  | char (c : Char)
  | fault
deriving DecidableEq

/-- How a first byte is read: on its own, as the begin of a longer sequence, or as a fault. -/
def first (byte : UInt8) : State × List Piece :=
  if byte < 0x80 then (.start, [.char (Char.ofNat byte.toNat)])
  else if byte < 0xC2 then (.start, [.fault])
  else if byte < 0xE0 then (.inside 0x80 0xBF 1 (byte.toNat % 32), [])
  else if byte = 0xE0 then (.inside 0xA0 0xBF 2 (byte.toNat % 16), [])
  else if byte = 0xED then (.inside 0x80 0x9F 2 (byte.toNat % 16), [])
  else if byte < 0xF0 then (.inside 0x80 0xBF 2 (byte.toNat % 16), [])
  else if byte = 0xF0 then (.inside 0x90 0xBF 3 (byte.toNat % 8), [])
  else if byte < 0xF4 then (.inside 0x80 0xBF 3 (byte.toNat % 8), [])
  else if byte = 0xF4 then (.inside 0x80 0x8F 3 (byte.toNat % 8), [])
  else (.start, [.fault])

def next : State → UInt8 → State × List Piece
  | .start, byte => first byte
  | .inside low high missing code, byte =>
      if low ≤ byte ∧ byte ≤ high then
        let code := code * 64 + byte.toNat % 64
        if missing ≤ 1 then (.start, [.char (Char.ofNat code)])
        else (.inside 0x80 0xBF (missing - 1) code, [])
      else
        let (state, pieces) := first byte
        (state, .fault :: pieces)

/-- A sequence still open at the end of the bytes is a fault. -/
def finish : State → List Piece
  | .start => []
  | .inside .. => [.fault]

/-- Reads one more byte; the pieces found so far stand backwards. -/
def advance (found : State × List Piece) (byte : UInt8) : State × List Piece :=
  let (state, pieces) := next found.1 byte
  (state, pieces.reverse ++ found.2)

def pieces (bytes : List UInt8) : List Piece :=
  let (state, found) := bytes.foldl advance (.start, [])
  found.reverse ++ finish state

def Piece.char? : Piece → Option Char
  | .char c => some c
  | .fault => none

/-- The characters among the bytes; faults are left out. -/
def decode (bytes : List UInt8) : List Char :=
  (pieces bytes).filterMap Piece.char?

/-- The characters among the bytes, with a replacement character for every fault. -/
def display (bytes : List UInt8) : List Char :=
  (pieces bytes).map fun piece => piece.char?.getD '\uFFFD'

/-- The characters, if there is no fault. -/
def decode? (bytes : List UInt8) : Option (List Char) :=
  (pieces bytes).mapM Piece.char?

def encode (text : List Char) : List UInt8 :=
  text.flatMap String.utf8EncodeChar

end RuleSurvey.Utf8
