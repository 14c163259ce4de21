import RuleSurvey.Proofs.Utf8

namespace RuleSurvey.Utf8

/-!
What becomes of bytes when faults are dropped. Bytes fall into characters and faults in one way only,
and decoding keeps the characters. It starts afresh behind text without faults and at every byte that
continues nothing, so damage never reaches into text behind it.
-/

/-- Bytes that only go on with a character. -/
def IsContinuation (byte : UInt8) : Prop :=
  0x80 ≤ byte ∧ byte ≤ 0xBF

/-- The bytes of a text. -/
def WellFormed (bytes : List UInt8) : Prop :=
  ∃ text, bytes = encode text

section

variable {run remaining bytes : List UInt8} {found : List Piece}

/-- There is only one fault that the same bytes can start with. -/
theorem MaximalSubpart.length_le {other others : List UInt8} (subpart : MaximalSubpart run remaining)
    (second : MaximalSubpart other others) (same : run ++ remaining = other ++ others) :
    other.length ≤ run.length := by
  by_contra longer
  have positive := List.length_pos_iff.mpr subpart.nonempty
  have shorter : run <+: other :=
    List.prefix_of_prefix_length_le ⟨remaining, same⟩ (List.prefix_append _ _) (by omega)
  obtain ⟨extra, rfl⟩ := shorter
  cases extra with
  | nil => simp at longer
  | cons byte extra =>
      rw [List.append_assoc, List.append_cancel_left_eq] at same
      have begun := second.begun.resolve_left (by simp; omega)
      refine subpart.longest byte _ same (begun.of_prefix ⟨extra, ?_⟩)
      simp

theorem Chunks.pieces_eq (chunks : Chunks bytes found) : found = pieces bytes := by
  rw [pieces_eq_piecesFrom]
  induction chunks with
  | nil => rfl
  | char chunks ih => rw [piecesFrom_utf8EncodeChar, ih]
  | @fault run rest found subpart chunks ih =>
      obtain ⟨byte, tail, whole⟩ := List.exists_cons_of_ne_nil subpart.nonempty
      subst run
      obtain ⟨other, remaining, split, second, given⟩ := exists_maximalSubpart subpart.undecodable
      have same : (byte :: tail).length = other.length :=
        Nat.le_antisymm (second.length_le subpart split.symm) (subpart.length_le second split)
      obtain ⟨-, rfl⟩ := List.append_inj split same
      rw [ih]
      exact given.symm

theorem chunks_iff : Chunks bytes found ↔ found = pieces bytes := by
  constructor
  · exact Chunks.pieces_eq
  · intro same
    exact same ▸ chunks_pieces bytes

theorem Chunks.encode_sublist (chunks : Chunks bytes found) :
    (encode (found.filterMap Piece.char?)).Sublist bytes := by
  induction chunks with
  | nil => exact .slnil
  | char chunks ih => exact ih.append_left _
  | fault subpart chunks ih => exact ih.trans (List.sublist_append_right _ _)

end

theorem length_le_length_encode (text : List Char) : text.length ≤ (encode text).length := by
  induction text with
  | nil => exact Nat.le_refl _
  | cons c rest ih =>
      have positive := c.utf8Size_pos
      rw [encode, List.flatMap_cons, List.length_append, String.length_utf8EncodeChar, List.length_cons,
        ← encode]
      omega

theorem length_decode_le (bytes : List UInt8) : (decode bytes).length ≤ bytes.length :=
  Nat.le_trans (length_le_length_encode _) (chunks_pieces bytes).encode_sublist.length_le

theorem decode_encode_append (text : List Char) (rest : List UInt8) :
    decode (encode text ++ rest) = text ++ decode rest := by
  have kept : (text.map Piece.char).filterMap Piece.char? = text := by
    rw [List.filterMap_map]
    exact List.filterMap_some
  rw [decode, pieces_encode_append, List.filterMap_append, kept, decode]

theorem decode_encode (text : List Char) : decode (encode text) = text := by
  have read := decode_encode_append text []
  rwa [List.append_nil, show decode [] = [] from rfl, List.append_nil] at read

theorem decode_append_of_not_continuation (first : List UInt8) {byte : UInt8}
    (fresh : ¬ IsContinuation byte) (rest : List UInt8) :
    decode (first ++ byte :: rest) = decode first ++ decode (byte :: rest) := by
  have outside : byte.toNat < 0x80 ∨ 0xBF < byte.toNat := by
    rw [IsContinuation, accepts_iff] at fresh
    simp only [UInt8.reduceToNat] at fresh
    omega
  rw [decode, pieces_append first outside, List.filterMap_append, decode, decode]

/-- Where one list of bytes may be cut into two that are decoded apart. -/
theorem decode_append {first second : List UInt8}
    (apart : WellFormed first ∨ second = [] ∨
      ∃ byte rest, second = byte :: rest ∧ ¬ IsContinuation byte) :
    decode (first ++ second) = decode first ++ decode second := by
  obtain ⟨text, rfl⟩ | rfl | ⟨byte, rest, rfl, fresh⟩ := apart
  · rw [decode_encode_append, decode_encode]
  · rw [show decode [] = [] from rfl, List.append_nil, List.append_nil]
  · exact decode_append_of_not_continuation first fresh rest

-- Bytes that go on with a character across the cut are lost when the two parts are decoded apart.
example : decode ([0xE2, 0x82] ++ [0xAC]) = ['€'] ∧ decode [0xE2, 0x82] ++ decode [0xAC] = [] := by
  decide

theorem exists_utf8EncodeChar_eq (c : Char) :
    ∃ byte rest, String.utf8EncodeChar c = byte :: rest ∧ ¬ IsContinuation byte := by
  have positive : 0 < (String.utf8EncodeChar c).length := by
    rw [String.length_utf8EncodeChar]
    exact c.utf8Size_pos
  obtain ⟨byte, rest, written⟩ := List.exists_cons_of_length_pos positive
  refine ⟨byte, rest, written, ?_⟩
  intro continuation
  have range := accepts_iff.mp continuation
  simp only [UInt8.reduceToNat] at range
  exact not_isBegun_of_first (first_fault (.inl (by omega))) ⟨c, rest, written.symm⟩

/-- Whatever stands in front of a text and behind it, the text itself is decoded. -/
theorem decode_append_encode_append (damaged : List UInt8) {text : List Char} (nonempty : text ≠ [])
    (rest : List UInt8) :
    decode (damaged ++ encode text ++ rest) = decode damaged ++ text ++ decode rest := by
  obtain ⟨c, later, rfl⟩ := List.exists_cons_of_ne_nil nonempty
  obtain ⟨byte, tail, written, fresh⟩ := exists_utf8EncodeChar_eq c
  have opening : encode (c :: later) ++ rest = byte :: (tail ++ encode later ++ rest) := by
    rw [encode, List.flatMap_cons, written, ← encode]
    rfl
  rw [List.append_assoc, opening, decode_append_of_not_continuation damaged fresh, ← opening,
    decode_encode_append, List.append_assoc]

/--
Bytes fall into characters and maximal faults in one way, and decoding drops the faults only: what it
keeps are bytes of the input in their order, and all of a text that was written. Two lists of bytes
are decoded apart wherever the first has no fault or the second does not begin within a character, so
a text is decoded whole behind any damage.
-/
theorem decoding_drops_faults_only :
    (∀ bytes found, Chunks bytes found ↔ found = pieces bytes) ∧
      (∀ bytes, (encode (decode bytes)).Sublist bytes) ∧
      (∀ text, decode (encode text) = text) ∧
      (∀ first second, (WellFormed first ∨ second = [] ∨
          ∃ byte rest, second = byte :: rest ∧ ¬ IsContinuation byte) →
        decode (first ++ second) = decode first ++ decode second) ∧
      ∀ damaged text rest, text ≠ [] →
        decode (damaged ++ encode text ++ rest) = decode damaged ++ text ++ decode rest := by
  refine ⟨fun _ _ => chunks_iff, fun bytes => (chunks_pieces bytes).encode_sublist, decode_encode,
    fun _ _ => decode_append, ?_⟩
  intro damaged text rest nonempty
  exact decode_append_encode_append damaged nonempty rest

end RuleSurvey.Utf8
