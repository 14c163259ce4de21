import RuleSurvey.Text.Utf8
import Mathlib.Data.List.Basic

namespace RuleSurvey.Utf8

/-!
What reading bytes as UTF-8 makes of them. Every list of bytes falls into runs that give one piece
each, and a run that gives a character is the written form of that character. So what was written can
be read again, and a text without faults was written from its characters.
-/

/-- The pieces that bytes give when they are read from a state on. -/
def piecesFrom : State → List UInt8 → List Piece
  | state, [] => finish state
  | state, byte :: rest => (next state byte).2 ++ piecesFrom (next state byte).1 rest

theorem foldl_advance (state : State) (found : List Piece) (bytes : List UInt8) :
    (bytes.foldl advance (state, found)).2.reverse ++
        finish (bytes.foldl advance (state, found)).1 =
      found.reverse ++ piecesFrom state bytes := by
  induction bytes generalizing state found with
  | nil => rfl
  | cons byte rest ih => simp [advance, ih, piecesFrom]

theorem pieces_eq_piecesFrom (bytes : List UInt8) : pieces bytes = piecesFrom .start bytes :=
  foldl_advance .start [] bytes

section

variable {low high byte : UInt8} {missing code : Nat} {rest : List UInt8}

theorem piecesFrom_refused (refused : ¬ (low ≤ byte ∧ byte ≤ high)) :
    piecesFrom (.inside low high missing code) (byte :: rest) =
      .fault :: piecesFrom .start (byte :: rest) := by
  simp [piecesFrom, next, refused]

theorem piecesFrom_completed (accepted : low ≤ byte ∧ byte ≤ high) :
    piecesFrom (.inside low high 1 code) (byte :: rest) =
      .char (Char.ofNat (code * 64 + byte.toNat % 64)) :: piecesFrom .start rest := by
  simp [piecesFrom, next, accepted]

theorem piecesFrom_continued (accepted : low ≤ byte ∧ byte ≤ high) :
    piecesFrom (.inside low high (missing + 2) code) (byte :: rest) =
      piecesFrom (.inside 0x80 0xBF (missing + 1) (code * 64 + byte.toNat % 64)) rest := by
  simp [piecesFrom, next, accepted]

end

/--
The bytes `read` begin the written form of a character: whichever bytes of the expected ranges follow
them, the code that comes out is that of a character written as all of these bytes.
-/
def Begins (read : List UInt8) (low high : UInt8) (code : Nat) : Nat → Prop
  | 0 => False
  | 1 => ∀ byte, low ≤ byte ∧ byte ≤ high →
      String.utf8EncodeChar (Char.ofNat (code * 64 + byte.toNat % 64)) = read ++ [byte]
  | missing + 2 => ∀ byte, low ≤ byte ∧ byte ≤ high →
      Begins (read ++ [byte]) 0x80 0xBF (code * 64 + byte.toNat % 64) (missing + 1)

section

variable {byte low high : UInt8}

theorem toNat_char_ofNat {code : Nat} (valid : code.isValidChar) :
    (Char.ofNat code).val.toNat = code := by
  rw [Char.ofNat, dif_pos valid]
  rfl

theorem ofNat_eq_byte (byte : UInt8) {number : Nat} (same : number = byte.toNat) :
    UInt8.ofNat number = byte := by
  rw [same, UInt8.ofNat_toNat]

theorem begins_two (lower : 0xC2 ≤ byte.toNat) (upper : byte.toNat < 0xE0) :
    Begins [byte] 0x80 0xBF (byte.toNat % 32) 1 := by
  intro second accepted
  simp only [UInt8.le_iff_toNat_le, UInt8.reduceToNat] at accepted
  have valid : (byte.toNat % 32 * 64 + second.toNat % 64).isValidChar := .inl (by omega)
  simp only [String.utf8EncodeChar, toNat_char_ofNat valid]
  rw [if_neg (by omega), if_pos (by omega), ofNat_eq_byte byte (by omega),
    ofNat_eq_byte second (by omega)]
  rfl

theorem begins_three (lower : 0xE0 ≤ byte.toNat) (upper : byte.toNat < 0xF0)
    (from80 : 0x80 ≤ low.toNat) (toBF : high.toNat ≤ 0xBF)
    (overlong : byte.toNat = 0xE0 → 0xA0 ≤ low.toNat)
    (surrogate : byte.toNat = 0xED → high.toNat ≤ 0x9F) :
    Begins [byte] low high (byte.toNat % 16) 2 := by
  intro second accepted third acceptedThird
  simp only [UInt8.le_iff_toNat_le, UInt8.reduceToNat] at accepted acceptedThird
  have valid : ((byte.toNat % 16 * 64 + second.toNat % 64) * 64 + third.toNat % 64).isValidChar := by
    unfold Nat.isValidChar
    omega
  simp only [String.utf8EncodeChar, toNat_char_ofNat valid]
  rw [if_neg (by omega), if_neg (by omega), if_pos (by omega), ofNat_eq_byte byte (by omega),
    ofNat_eq_byte second (by omega), ofNat_eq_byte third (by omega)]
  rfl

theorem begins_four (lower : 0xF0 ≤ byte.toNat) (upper : byte.toNat ≤ 0xF4)
    (from80 : 0x80 ≤ low.toNat) (toBF : high.toNat ≤ 0xBF)
    (overlong : byte.toNat = 0xF0 → 0x90 ≤ low.toNat)
    (beyond : byte.toNat = 0xF4 → high.toNat ≤ 0x8F) :
    Begins [byte] low high (byte.toNat % 8) 3 := by
  intro second accepted third acceptedThird fourth acceptedFourth
  simp only [UInt8.le_iff_toNat_le, UInt8.reduceToNat] at accepted acceptedThird acceptedFourth
  have valid : (((byte.toNat % 8 * 64 + second.toNat % 64) * 64 + third.toNat % 64) * 64 +
      fourth.toNat % 64).isValidChar := by
    unfold Nat.isValidChar
    omega
  simp only [String.utf8EncodeChar, toNat_char_ofNat valid]
  rw [if_neg (by omega), if_neg (by omega), if_neg (by omega), ofNat_eq_byte byte (by omega),
    ofNat_eq_byte second (by omega), ofNat_eq_byte third (by omega),
    ofNat_eq_byte fourth (by omega)]
  rfl

end

section

variable {byte : UInt8}

theorem first_one (upper : byte.toNat < 0x80) :
    first byte = (.start, [.char (Char.ofNat byte.toNat)]) := by
  rw [first, if_pos (UInt8.lt_iff_toNat_lt.mpr upper)]

theorem first_two (lower : 0xC2 ≤ byte.toNat) (upper : byte.toNat < 0xE0) :
    first byte = (.inside 0x80 0xBF 1 (byte.toNat % 32), []) := by
  simp only [first, UInt8.lt_iff_toNat_lt, UInt8.reduceToNat]
  rw [if_neg (by omega), if_neg (by omega), if_pos upper]

theorem first_three (lower : 0xE0 ≤ byte.toNat) (upper : byte.toNat < 0xF0) :
    first byte =
      (.inside (if byte.toNat = 0xE0 then 0xA0 else 0x80) (if byte.toNat = 0xED then 0x9F else 0xBF)
        2 (byte.toNat % 16), []) := by
  simp only [first, UInt8.lt_iff_toNat_lt, ← UInt8.toNat_inj, UInt8.reduceToNat]
  rw [if_neg (by omega), if_neg (by omega), if_neg (by omega)]
  by_cases lowest : byte.toNat = 0xE0
  · simp [lowest]
  · by_cases surrogates : byte.toNat = 0xED
    · simp [surrogates]
    · simp [lowest, surrogates, upper]

theorem first_four (lower : 0xF0 ≤ byte.toNat) (upper : byte.toNat ≤ 0xF4) :
    first byte =
      (.inside (if byte.toNat = 0xF0 then 0x90 else 0x80) (if byte.toNat = 0xF4 then 0x8F else 0xBF)
        3 (byte.toNat % 8), []) := by
  simp only [first, UInt8.lt_iff_toNat_lt, ← UInt8.toNat_inj, UInt8.reduceToNat]
  rw [if_neg (by omega), if_neg (by omega), if_neg (by omega), if_neg (by omega),
    if_neg (by omega), if_neg (by omega)]
  by_cases lowest : byte.toNat = 0xF0
  · simp [lowest]
  · by_cases highest : byte.toNat = 0xF4
    · simp [highest]
    · have below : byte.toNat < 0xF4 := by omega
      simp [lowest, highest, below]

theorem first_fault (outside : 0x80 ≤ byte.toNat ∧ byte.toNat < 0xC2 ∨ 0xF4 < byte.toNat) :
    first byte = (.start, [.fault]) := by
  simp only [first, UInt8.lt_iff_toNat_lt, ← UInt8.toNat_inj, UInt8.reduceToNat]
  rw [if_neg (by omega)]
  by_cases low : byte.toNat < 0xC2
  · rw [if_pos low]
  · rw [if_neg low, if_neg (by omega), if_neg (by omega), if_neg (by omega), if_neg (by omega),
      if_neg (by omega), if_neg (by omega), if_neg (by omega)]

end

/-- A sequence that was begun only goes on with continuation bytes. -/
def State.Expects : State → Prop
  | .start => True
  | .inside low high _ _ => 0x80 ≤ low.toNat ∧ high.toNat ≤ 0xBF

/-- What a first byte can be: a character, a fault, or the begin of a longer character. -/
theorem first_cases (byte : UInt8) :
    (byte.toNat < 0x80 ∧ first byte = (.start, [.char (Char.ofNat byte.toNat)])) ∨
      first byte = (.start, [.fault]) ∨
      ∃ low high missing code, first byte = (.inside low high missing code, []) ∧
        (State.inside low high missing code).Expects ∧ Begins [byte] low high code missing := by
  have ranges : byte.toNat < 0x80 ∨ (0x80 ≤ byte.toNat ∧ byte.toNat < 0xC2 ∨ 0xF4 < byte.toNat) ∨
      (0xC2 ≤ byte.toNat ∧ byte.toNat < 0xE0) ∨ (0xE0 ≤ byte.toNat ∧ byte.toNat < 0xF0) ∨
      (0xF0 ≤ byte.toNat ∧ byte.toNat ≤ 0xF4) := by
    omega
  obtain upper | outside | two | three | four := ranges
  · exact .inl ⟨upper, first_one upper⟩
  · exact .inr (.inl (first_fault outside))
  · exact .inr (.inr ⟨_, _, _, _, first_two two.1 two.2, ⟨by decide, by decide⟩,
      begins_two two.1 two.2⟩)
  · have from80 : 0x80 ≤ (if byte.toNat = 0xE0 then 0xA0 else 0x80 : UInt8).toNat := by
      split <;> decide
    have toBF : (if byte.toNat = 0xED then 0x9F else 0xBF : UInt8).toNat ≤ 0xBF := by
      split <;> decide
    refine .inr (.inr ⟨_, _, _, _, first_three three.1 three.2, ⟨from80, toBF⟩,
      begins_three three.1 three.2 from80 toBF ?_ ?_⟩)
    · intro lowest
      simp [lowest]
    · intro surrogates
      simp [surrogates]
  · have from80 : 0x80 ≤ (if byte.toNat = 0xF0 then 0x90 else 0x80 : UInt8).toNat := by
      split <;> decide
    have toBF : (if byte.toNat = 0xF4 then 0x8F else 0xBF : UInt8).toNat ≤ 0xBF := by
      split <;> decide
    refine .inr (.inr ⟨_, _, _, _, first_four four.1 four.2, ⟨from80, toBF⟩,
      begins_four four.1 four.2 from80 toBF ?_ ?_⟩)
    · intro lowest
      simp [lowest]
    · intro highest
      simp [highest]

section

variable {byte second third fourth : UInt8} {rest : List UInt8}

theorem accepts_iff {low high : UInt8} :
    low ≤ byte ∧ byte ≤ high ↔ low.toNat ≤ byte.toNat ∧ byte.toNat ≤ high.toNat := by
  rw [UInt8.le_iff_toNat_le, UInt8.le_iff_toNat_le]

theorem accepts_continuation (range : 0x80 ≤ byte.toNat ∧ byte.toNat ≤ 0xBF) :
    0x80 ≤ byte ∧ byte ≤ 0xBF :=
  accepts_iff.mpr range

theorem piecesFrom_two (first : 0xC2 ≤ byte.toNat ∧ byte.toNat < 0xE0)
    (last : 0x80 ≤ second.toNat ∧ second.toNat ≤ 0xBF) :
    piecesFrom .start (byte :: second :: rest) =
      .char (Char.ofNat (byte.toNat % 32 * 64 + second.toNat % 64)) :: piecesFrom .start rest := by
  rw [piecesFrom, next, first_two first.1 first.2, List.nil_append,
    piecesFrom_completed (accepts_continuation last)]

theorem piecesFrom_three (first : 0xE0 ≤ byte.toNat ∧ byte.toNat < 0xF0)
    (inner : 0x80 ≤ second.toNat ∧ second.toNat ≤ 0xBF)
    (overlong : byte.toNat = 0xE0 → 0xA0 ≤ second.toNat)
    (surrogate : byte.toNat = 0xED → second.toNat ≤ 0x9F)
    (last : 0x80 ≤ third.toNat ∧ third.toNat ≤ 0xBF) :
    piecesFrom .start (byte :: second :: third :: rest) =
      .char (Char.ofNat ((byte.toNat % 16 * 64 + second.toNat % 64) * 64 + third.toNat % 64)) ::
        piecesFrom .start rest := by
  rw [piecesFrom, next, first_three first.1 first.2, List.nil_append, piecesFrom_continued,
    piecesFrom_completed (accepts_continuation last)]
  rw [accepts_iff, apply_ite UInt8.toNat, apply_ite UInt8.toNat]
  split_ifs with lowest surrogates surrogates
  · omega
  · exact ⟨overlong lowest, inner.2⟩
  · exact ⟨inner.1, surrogate surrogates⟩
  · exact inner

theorem piecesFrom_four (first : 0xF0 ≤ byte.toNat ∧ byte.toNat ≤ 0xF4)
    (inner : 0x80 ≤ second.toNat ∧ second.toNat ≤ 0xBF)
    (overlong : byte.toNat = 0xF0 → 0x90 ≤ second.toNat)
    (beyond : byte.toNat = 0xF4 → second.toNat ≤ 0x8F)
    (middle : 0x80 ≤ third.toNat ∧ third.toNat ≤ 0xBF)
    (last : 0x80 ≤ fourth.toNat ∧ fourth.toNat ≤ 0xBF) :
    piecesFrom .start (byte :: second :: third :: fourth :: rest) =
      .char (Char.ofNat (((byte.toNat % 8 * 64 + second.toNat % 64) * 64 + third.toNat % 64) * 64 +
        fourth.toNat % 64)) :: piecesFrom .start rest := by
  rw [piecesFrom, next, first_four first.1 first.2, List.nil_append, piecesFrom_continued,
    piecesFrom_continued (accepts_continuation middle), piecesFrom_completed (accepts_continuation last)]
  rw [accepts_iff, apply_ite UInt8.toNat, apply_ite UInt8.toNat]
  split_ifs with lowest highest highest
  · omega
  · exact ⟨overlong lowest, inner.2⟩
  · exact ⟨inner.1, beyond highest⟩
  · exact inner

end

theorem char_ofNat_eq (c : Char) {number : Nat} (same : number = c.val.toNat) :
    Char.ofNat number = c := by
  rw [same]
  exact Char.ofNat_toNat c

/-- The written form of a character is read as that character, whatever follows it. -/
theorem piecesFrom_utf8EncodeChar (c : Char) (rest : List UInt8) :
    piecesFrom .start (String.utf8EncodeChar c ++ rest) = .char c :: piecesFrom .start rest := by
  have valid : c.val.toNat < 0xD800 ∨ 0xDFFF < c.val.toNat ∧ c.val.toNat < 0x110000 := c.valid
  have last := UInt8.toNat_ofNat_of_lt' (show c.val.toNat % 64 + 0x80 < 256 by omega)
  have middle := UInt8.toNat_ofNat_of_lt' (show c.val.toNat / 64 % 64 + 0x80 < 256 by omega)
  have inner := UInt8.toNat_ofNat_of_lt' (show c.val.toNat / 4096 % 64 + 0x80 < 256 by omega)
  simp only [String.utf8EncodeChar]
  split_ifs with one two three
  · have head := UInt8.toNat_ofNat_of_lt' (show c.val.toNat < 256 by omega)
    rw [List.cons_append, piecesFrom, next, first_one (by omega), head, char_ofNat_eq c rfl]
    rfl
  · have head := UInt8.toNat_ofNat_of_lt' (show c.val.toNat / 64 % 32 + 0xC0 < 256 by omega)
    refine (piecesFrom_two (by omega) (by omega)).trans ?_
    rw [head, last, char_ofNat_eq c (by omega)]
    rfl
  · have head := UInt8.toNat_ofNat_of_lt' (show c.val.toNat / 4096 % 16 + 0xE0 < 256 by omega)
    refine (piecesFrom_three (by omega) (by omega) (by omega) (by omega) (by omega)).trans ?_
    rw [head, middle, last, char_ofNat_eq c (by omega)]
    rfl
  · have head := UInt8.toNat_ofNat_of_lt' (show c.val.toNat / 262144 % 8 + 0xF0 < 256 by omega)
    refine (piecesFrom_four (by omega) (by omega) (by omega) (by omega) (by omega)
      (by omega)).trans ?_
    rw [head, inner, middle, last, char_ofNat_eq c (by omega)]
    rfl

theorem pieces_encode_append (text : List Char) (rest : List UInt8) :
    pieces (encode text ++ rest) = text.map .char ++ pieces rest := by
  simp only [pieces_eq_piecesFrom]
  induction text with
  | nil => rfl
  | cons c text ih =>
      rw [encode, List.flatMap_cons, List.append_assoc, piecesFrom_utf8EncodeChar, ← encode, ih]
      rfl

theorem pieces_encode (text : List Char) : pieces (encode text) = text.map .char := by
  have read := pieces_encode_append text []
  rwa [List.append_nil, show pieces [] = [] from rfl, List.append_nil] at read

/-- Bytes with which the written form of some character begins. -/
def IsBegun (bytes : List UInt8) : Prop :=
  ∃ c, bytes <+: String.utf8EncodeChar c

theorem IsBegun.of_prefix {shorter longer : List UInt8} (begun : IsBegun longer)
    (starts : shorter <+: longer) : IsBegun shorter := by
  obtain ⟨c, within⟩ := begun
  exact ⟨c, starts.trans within⟩

/-- The run that one fault takes, given what remains behind it. -/
structure MaximalSubpart (run remaining : List UInt8) : Prop where
  nonempty : run ≠ []
  /-- No character is written where the run starts. -/
  undecodable : ∀ c, ¬ String.utf8EncodeChar c <+: run ++ remaining
  begun : run.length = 1 ∨ IsBegun run
  /-- The byte behind the run does not go on with what the run has begun. -/
  longest : ∀ byte rest, remaining = byte :: rest → ¬ IsBegun (run ++ [byte])

/-- Bytes fall into characters and faults. -/
inductive Chunks : List UInt8 → List Piece → Prop where
  | nil : Chunks [] []
  | char {c : Char} {rest : List UInt8} {found : List Piece} (chunks : Chunks rest found) :
      Chunks (String.utf8EncodeChar c ++ rest) (.char c :: found)
  | fault {run rest : List UInt8} {found : List Piece} (subpart : MaximalSubpart run rest)
      (chunks : Chunks rest found) :
      Chunks (run ++ rest) (.fault :: found)

section

variable {read : List UInt8} {low high : UInt8} {code missing : Nat}

/-- Some byte is accepted next, and the ranges of the bytes after it are never empty. -/
theorem Begins.isBegun (begins : Begins read low high code missing) (possible : low ≤ high) :
    IsBegun read := by
  induction missing generalizing read low high code with
  | zero => exact begins.elim
  | succ missing ih =>
      have accepted : low ≤ low ∧ low ≤ high := ⟨UInt8.le_refl low, possible⟩
      cases missing with
      | zero =>
          exact ⟨_, by rw [begins low accepted]; exact List.prefix_append _ _⟩
      | succ missing =>
          have longer := ih (begins low accepted) (by decide)
          exact longer.of_prefix (List.prefix_append _ _)

/-- The bytes lead from the start to a state in which nothing is decided yet. -/
def LeadsTo (read : List UInt8) (state : State) : Prop :=
  ∀ rest, piecesFrom .start (read ++ rest) = piecesFrom state rest

theorem LeadsTo.not_isBegun (leads : LeadsTo read (.inside low high missing code)) {byte : UInt8}
    (refused : ¬ (low ≤ byte ∧ byte ≤ high)) : ¬ IsBegun (read ++ [byte]) := by
  intro begun
  obtain ⟨c, rest, written⟩ := begun
  have decoded := piecesFrom_utf8EncodeChar c []
  rw [List.append_nil, ← written, List.append_assoc, List.singleton_append, leads,
    piecesFrom_refused refused] at decoded
  simp at decoded

theorem Begins.fault_splits (begins : Begins read low high code missing) (possible : low ≤ high)
    (leads : LeadsTo read (.inside low high missing code)) (bytes : List UInt8)
    (undecodable : ∀ c, ¬ String.utf8EncodeChar c <+: read ++ bytes) :
    ∃ taken remaining, bytes = taken ++ remaining ∧
      piecesFrom (.inside low high missing code) bytes = .fault :: piecesFrom .start remaining ∧
      IsBegun (read ++ taken) ∧
      ∀ byte rest, remaining = byte :: rest → ¬ IsBegun (read ++ taken ++ [byte]) := by
  induction missing generalizing read low high code bytes with
  | zero => exact begins.elim
  | succ missing ih =>
      have begun : IsBegun (read ++ []) := by
        rw [List.append_nil]
        exact begins.isBegun possible
      cases bytes with
      | nil => exact ⟨[], [], rfl, rfl, begun, by simp⟩
      | cons byte rest =>
          by_cases accepted : low ≤ byte ∧ byte ≤ high
          · cases missing with
            | zero =>
                -- The sequence is complete, so a character is written here after all.
                refine absurd ?_ (undecodable (Char.ofNat (code * 64 + byte.toNat % 64)))
                rw [begins byte accepted]
                exact ⟨rest, by simp⟩
            | succ missing =>
                have further : LeadsTo (read ++ [byte])
                    (.inside 0x80 0xBF (missing + 1) (code * 64 + byte.toNat % 64)) := by
                  intro later
                  rw [List.append_assoc, List.singleton_append, leads, piecesFrom_continued accepted]
                have shifted : read ++ byte :: rest = read ++ [byte] ++ rest := by simp
                rw [shifted] at undecodable
                obtain ⟨taken, remaining, split, given, begun, longest⟩ :=
                  ih (begins byte accepted) (by decide) further rest undecodable
                refine ⟨byte :: taken, remaining, by rw [split]; rfl, ?_, by simpa using begun,
                  by simpa using longest⟩
                rw [piecesFrom_continued accepted, given]
          · refine ⟨[], byte :: rest, rfl, piecesFrom_refused accepted, begun, ?_⟩
            intro next later same
            cases same
            rw [List.append_nil]
            exact leads.not_isBegun accepted

end

theorem possible_of_first {byte low high : UInt8} {missing code : Nat} {found : List Piece}
    (opened : first byte = (.inside low high missing code, found)) : low ≤ high := by
  unfold first at opened
  split_ifs at opened <;> cases opened <;> decide

theorem utf8EncodeChar_ofNat {byte : UInt8} (upper : byte.toNat < 0x80) :
    String.utf8EncodeChar (Char.ofNat byte.toNat) = [byte] := by
  have valid : byte.toNat.isValidChar := .inl (by omega)
  simp only [String.utf8EncodeChar, toNat_char_ofNat valid]
  rw [if_pos (by omega), ofNat_eq_byte byte rfl]

section

variable {byte : UInt8} {rest : List UInt8}

theorem piecesFrom_fault (single : first byte = (.start, [.fault])) :
    piecesFrom .start (byte :: rest) = .fault :: piecesFrom .start rest := by
  rw [piecesFrom, next, single]
  rfl

/-- A byte that is a fault on its own begins no character. -/
theorem not_isBegun_of_first (single : first byte = (.start, [.fault])) : ¬ IsBegun [byte] := by
  intro begun
  obtain ⟨c, rest, written⟩ := begun
  have decoded := piecesFrom_utf8EncodeChar c []
  rw [List.append_nil, ← written, List.singleton_append, piecesFrom_fault single] at decoded
  simp at decoded

theorem exists_maximalSubpart
    (undecodable : ∀ c, ¬ String.utf8EncodeChar c <+: byte :: rest) :
    ∃ run remaining, byte :: rest = run ++ remaining ∧ MaximalSubpart run remaining ∧
      piecesFrom .start (byte :: rest) = .fault :: piecesFrom .start remaining := by
  obtain ⟨upper, _⟩ | single | ⟨low, high, missing, code, opened, _, begins⟩ := first_cases byte
  · refine absurd ?_ (undecodable (Char.ofNat byte.toNat))
    rw [utf8EncodeChar_ofNat upper]
    exact List.prefix_append [byte] rest
  · refine ⟨[byte], rest, rfl, ⟨by simp, undecodable, .inl rfl, ?_⟩, piecesFrom_fault single⟩
    intro next later _ begun
    exact not_isBegun_of_first single (begun.of_prefix (List.prefix_append _ _))
  · have leads : LeadsTo [byte] (.inside low high missing code) := by
      intro later
      rw [List.singleton_append, piecesFrom, next, opened, List.nil_append]
    obtain ⟨taken, remaining, split, given, begun, longest⟩ :=
      begins.fault_splits (possible_of_first opened) leads rest undecodable
    refine ⟨byte :: taken, remaining, by rw [split]; rfl, ?_, ?_⟩
    · rw [split] at undecodable
      exact ⟨by simp, undecodable, .inr begun, longest⟩
    · rw [← List.singleton_append, leads, given]

end

theorem chunks_pieces (bytes : List UInt8) : Chunks bytes (pieces bytes) := by
  rw [pieces_eq_piecesFrom]
  -- By the length of the bytes: every piece uses up at least the byte that it starts with.
  induction sized : bytes.length using Nat.strongRecOn generalizing bytes with
  | ind size ih =>
      cases bytes with
      | nil => exact .nil
      | cons byte rest =>
          by_cases decodable : ∃ c, String.utf8EncodeChar c <+: byte :: rest
          · obtain ⟨c, remaining, split⟩ := decodable
            have shorter : remaining.length < size := by
              have positive := c.utf8Size_pos
              rw [← sized, ← split, List.length_append, String.length_utf8EncodeChar]
              omega
            rw [← split, piecesFrom_utf8EncodeChar]
            exact .char (ih remaining.length shorter remaining rfl)
          · obtain ⟨run, remaining, split, subpart, given⟩ :=
              exists_maximalSubpart (not_exists.mp decodable)
            have shorter : remaining.length < size := by
              have positive := List.length_pos_iff.mpr subpart.nonempty
              rw [← sized, split, List.length_append]
              omega
            rw [given, split]
            exact .fault subpart (ih remaining.length shorter remaining rfl)

theorem Chunks.mem {bytes : List UInt8} {found : List Piece} (chunks : Chunks bytes found) {c : Char}
    (read : .char c ∈ found) {byte : UInt8} (member : byte ∈ String.utf8EncodeChar c) :
    byte ∈ bytes := by
  induction chunks with
  | nil => simp at read
  | char chunks ih =>
      cases List.mem_cons.mp read with
      | inl same =>
          cases same
          exact List.mem_append_left _ member
      | inr later => exact List.mem_append_right _ (ih later)
  | fault subpart chunks ih =>
      cases List.mem_cons.mp read with
      | inl same => cases same
      | inr later => exact List.mem_append_right _ (ih later)

theorem Chunks.eq_encode {bytes : List UInt8} {text : List Char}
    (chunks : Chunks bytes (text.map .char)) : bytes = encode text := by
  induction text generalizing bytes with
  | nil =>
      cases chunks
      rfl
  | cons c text ih =>
      cases chunks with
      | char chunks =>
          rw [ih chunks]
          rfl

theorem display_encode (text : List Char) : display (encode text) = text := by
  rw [display, pieces_encode, List.map_map]
  exact List.map_id text

theorem encode_injective : Function.Injective encode := by
  intro text other same
  rw [← display_encode text, same, display_encode]

theorem mapM_char?_eq_some_iff {found : List Piece} {text : List Char} :
    found.mapM Piece.char? = some text ↔ found = text.map .char := by
  induction found generalizing text with
  | nil => cases text <;> simp
  | cons piece rest ih =>
      rw [List.mapM_cons]
      cases piece with
      | fault => cases text <;> simp [Piece.char?]
      | char c =>
          cases text with
          | nil => simp [Piece.char?, Option.bind_eq_some_iff]
          | cons d text => simp [Piece.char?, Option.bind_eq_some_iff, ih, and_comm]

theorem decode?_eq_some_iff {bytes : List UInt8} {text : List Char} :
    decode? bytes = some text ↔ bytes = encode text := by
  rw [decode?, mapM_char?_eq_some_iff]
  constructor
  · intro read
    have chunks := chunks_pieces bytes
    rw [read] at chunks
    exact chunks.eq_encode
  · intro same
    rw [same, pieces_encode]

theorem first_expects (byte : UInt8) : (first byte).1.Expects := by
  obtain ⟨_, single⟩ | single | ⟨low, high, missing, code, opened, expects, _⟩ := first_cases byte
  · rw [single]
    trivial
  · rw [single]
    trivial
  · rwa [opened]

theorem next_expects (state : State) (byte : UInt8) : (next state byte).1.Expects := by
  cases state with
  | start => exact first_expects byte
  | inside low high missing code =>
      simp only [next]
      split_ifs
      · trivial
      · simp [State.Expects]
      · exact first_expects byte

/-- Reading starts afresh at every byte that continues nothing. -/
theorem piecesFrom_append {state : State} (expects : state.Expects) (bytes : List UInt8)
    {byte : UInt8} (fresh : byte.toNat < 0x80 ∨ 0xBF < byte.toNat) (rest : List UInt8) :
    piecesFrom state (bytes ++ byte :: rest) =
      piecesFrom state bytes ++ piecesFrom .start (byte :: rest) := by
  induction bytes generalizing state with
  | nil =>
      cases state with
      | start => rfl
      | inside low high missing code =>
          have refused : ¬ (low ≤ byte ∧ byte ≤ high) := by
            rw [accepts_iff]
            have range : 0x80 ≤ low.toNat ∧ high.toNat ≤ 0xBF := expects
            omega
          exact piecesFrom_refused refused
  | cons head bytes ih =>
      rw [List.cons_append, piecesFrom, piecesFrom, ih (next_expects state head), List.append_assoc]

theorem pieces_append (bytes : List UInt8) {byte : UInt8}
    (fresh : byte.toNat < 0x80 ∨ 0xBF < byte.toNat) (rest : List UInt8) :
    pieces (bytes ++ byte :: rest) = pieces bytes ++ pieces (byte :: rest) := by
  simp only [pieces_eq_piecesFrom]
  exact piecesFrom_append (show State.start.Expects from trivial) bytes fresh rest

theorem pieces_cons_ascii {byte : UInt8} (ascii : byte.toNat < 0x80) (rest : List UInt8) :
    pieces (byte :: rest) = .char (Char.ofNat byte.toNat) :: pieces rest := by
  simp only [pieces_eq_piecesFrom]
  rw [piecesFrom, next, first_one ascii]
  rfl

/-- A byte below 0x80 is never part of another character. -/
theorem mem_of_mem_encode {byte : UInt8} {text : List Char} (ascii : byte.toNat < 0x80)
    (member : byte ∈ encode text) : Char.ofNat byte.toNat ∈ text := by
  obtain ⟨before, after, split⟩ := List.append_of_mem member
  have read := pieces_encode text
  rw [split, pieces_append before (.inl ascii), pieces_cons_ascii ascii] at read
  have listed : Piece.char (Char.ofNat byte.toNat) ∈ text.map .char := by simp [← read]
  simpa using listed

/-- The bytes of the text that stands for bytes when they are displayed. -/
def shown (bytes : List UInt8) : List UInt8 :=
  encode (display bytes)

section

variable {byte : UInt8} {bytes : List UInt8} {text : List Char}

theorem shown_append (ascii : byte.toNat < 0x80) (before after : List UInt8) :
    shown (before ++ byte :: after) = shown before ++ byte :: shown after := by
  rw [shown, display, pieces_append before (.inl ascii), pieces_cons_ascii ascii, List.map_append, encode,
    List.flatMap_append, List.map_cons, List.flatMap_cons]
  rw [Piece.char?, Option.getD_some, utf8EncodeChar_ofNat ascii]
  rfl

theorem mem_shown_iff (ascii : byte.toNat < 0x80) : byte ∈ shown bytes ↔ byte ∈ bytes := by
  constructor
  · intro member
    obtain ⟨c, displayed, written⟩ := List.mem_flatMap.mp member
    obtain ⟨piece, read, same⟩ := List.mem_map.mp displayed
    cases piece with
    | char d =>
        cases same
        exact (chunks_pieces bytes).mem read written
    | fault =>
        -- What stands for a fault is written with high bytes only.
        have replacement : ∀ byte ∈ String.utf8EncodeChar '\uFFFD', ¬ byte.toNat < 0x80 := by
          decide +kernel
        cases same
        exact absurd ascii (replacement byte written)
  · intro member
    obtain ⟨before, after, split⟩ := List.append_of_mem member
    rw [split, shown_append ascii]
    simp

theorem map_char_display (faultless : '\uFFFD' ∉ display bytes) :
    (display bytes).map .char = pieces bytes := by
  rw [display, List.map_map]
  refine (List.map_congr_left ?_).trans (List.map_id _)
  intro piece read
  cases piece with
  | char c => rfl
  | fault => exact absurd (List.mem_map.mpr ⟨_, read, rfl⟩) faultless

/-- A text without replacement characters is shown only by its own bytes. -/
theorem shown_eq_encode_iff (faultless : '\uFFFD' ∉ text) :
    shown bytes = encode text ↔ bytes = encode text := by
  constructor
  · intro same
    have displayed : display bytes = text := by
      rw [← display_encode (display bytes), ← shown, same, display_encode]
    have chunks := chunks_pieces bytes
    rw [← map_char_display (displayed ▸ faultless), displayed] at chunks
    exact chunks.eq_encode
  · intro same
    rw [same, shown, display_encode]

end

end RuleSurvey.Utf8
