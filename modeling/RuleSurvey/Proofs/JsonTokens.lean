import RuleSurvey.Json.Printer
import RuleSurvey.Json.Token
import Mathlib.Data.List.Basic

namespace RuleSurvey

/-!
The text of a JSON value reads as the tokens of the value, in any layout that fills in nothing but
gaps. What follows the value in the text plays no part, as long as it does not go on with a number or a
word.
-/

/-- A number that is kept in its own spelling is one word, which reads as that number. -/
def Scalar.Regular : Scalar → Prop
  | number spelling =>
      (∀ c ∈ spelling, Json.isBare c = true) ∧ Json.bareScalar? spelling = some (number spelling)
  | _ => True

namespace Json

inductive Regular : Json → Prop where
  | scalar {value : Scalar} (regular : value.Regular) : Regular (.scalar value)
  | list {items : List Json} (regular : ∀ item ∈ items, Regular item) : Regular (.list items)
  | object {fields : List (String × Json)} (regular : ∀ field ∈ fields, Regular field.2) :
      Regular (.object fields)

section Tokens

mutual

/-- The tokens of a value, in the order in which they are written. -/
def tokens : Json → List Token
  | .scalar value => [.scalar value]
  | .list items => .openList :: List.intercalate [.comma] (itemTokens items) ++ [.closeList]
  | .object fields => .openObject :: List.intercalate [.comma] (fieldTokens fields) ++ [.closeObject]

def itemTokens : List Json → List (List Token)
  | [] => []
  | item :: rest => tokens item :: itemTokens rest

def fieldTokens : List (String × Json) → List (List Token)
  | [] => []
  | (key, value) :: rest => (.scalar (.text key) :: .colon :: tokens value) :: fieldTokens rest

end

theorem itemTokens_eq_map (items : List Json) : itemTokens items = items.map tokens := by
  induction items with
  | nil => rfl
  | cons item rest ih => rw [itemTokens, ih, List.map_cons]

theorem fieldTokens_eq_map (fields : List (String × Json)) :
    fieldTokens fields =
      fields.map fun field => .scalar (.text field.1) :: .colon :: field.2.tokens := by
  induction fields with
  | nil => rfl
  | cons field rest ih => rw [fieldTokens, ih, List.map_cons]

theorem writeItems_eq_map (layout : Layout) (depth : Nat) (items : List Json) :
    writeItems layout depth items = items.map (write layout depth) := by
  induction items with
  | nil => rfl
  | cons item rest ih => rw [writeItems, ih, List.map_cons]

theorem writeFields_eq_map (layout : Layout) (depth : Nat) (fields : List (String × Json)) :
    writeFields layout depth fields = fields.map fun field =>
      (Scalar.text field.1).write ++ ':' :: layout.afterColon ++ write layout depth field.2 := by
  induction fields with
  | nil => rfl
  | cons field rest ih => rw [writeFields, ih, List.map_cons]

end Tokens

section Lexing

/-- The tokens that are read from a text, begun within the token under way. -/
def tokensFrom : Lexing → List Char → Option (List Token)
  | state, [] => lexEnd state
  | state, c :: rest => (lexChar state c).bind fun next =>
      (tokensFrom next.1 rest).map (next.2 ++ ·)

theorem foldlM_advance (state : Lexing) (found : List Token) (text : List Char) :
    (text.foldlM advance (state, found)).bind
        (fun last => (lexEnd last.1).map (last.2.reverse ++ ·)) =
      (tokensFrom state text).map (found.reverse ++ ·) := by
  induction text generalizing state found with
  | nil => rfl
  | cons c rest ih =>
      rw [List.foldlM_cons, tokensFrom, advance]
      cases lexChar state c with
      | none => rfl
      | some next =>
          simp only [Option.bind_eq_bind, Option.bind_some, ih, List.reverse_append,
            List.reverse_reverse, Option.map_map]
          congr 1
          funext later
          simp

theorem tokens?_eq_tokensFrom (text : List Char) : tokens? text = tokensFrom .between text := by
  have run := foldlM_advance .between [] text
  simp only [List.reverse_nil, List.nil_append, Option.map_id'] at run
  rw [← run, tokens?]
  cases text.foldlM advance (.between, []) with
  | none => rfl
  | some last =>
      obtain ⟨state, found⟩ := last
      cases ended : lexEnd state <;> simp [ended]

theorem tokensFrom_of_lexChar {state next : Lexing} {c : Char} {tokens : List Token}
    (step : lexChar state c = some (next, tokens)) (rest : List Char) :
    tokensFrom state (c :: rest) = (tokensFrom next rest).map (tokens ++ ·) := by
  rw [tokensFrom, step, Option.bind_some]

/-- A character within a token completes none. -/
theorem tokensFrom_of_silent {state next : Lexing} {c : Char}
    (step : lexChar state c = some (next, [])) (rest : List Char) :
    tokensFrom state (c :: rest) = tokensFrom next rest := by
  rw [tokensFrom_of_lexChar step]
  simp

/-- A text that does not go on with a number or a word begun before it. -/
def Parts (rest : List Char) : Prop :=
  ∀ c ∈ rest.head?, isBare c = false

/-- A text reads as some tokens, whatever comes after it. -/
def Spells (text : List Char) (tokens : List Token) : Prop :=
  ∀ rest, Parts rest →
    tokensFrom .between (text ++ rest) = (tokensFrom .between rest).map (tokens ++ ·)

variable {c : Char} {text front back read : List Char} {token : Token} {first second : List Token}

theorem Parts.append (parts : Parts front) (filled : front ≠ []) (back : List Char) :
    Parts (front ++ back) := by
  intro c starts
  rw [List.head?_append, List.head?_eq_some_head filled, Option.some_or] at starts
  exact parts c (by rw [List.head?_eq_some_head filled]; exact starts)

theorem isBare_of_isGap (gap : isGap c = true) : isBare c = false := by
  simp only [isGap, Bool.or_eq_true, beq_iff_eq] at gap
  obtain ((rfl | rfl) | rfl) | rfl := gap <;> decide

theorem lexChar_of_isGap (gap : isGap c = true) : lexChar .between c = some (.between, []) := by
  simp only [isGap, Bool.or_eq_true, beq_iff_eq] at gap
  obtain ((rfl | rfl) | rfl) | rfl := gap <;> rfl

theorem lexChar_of_isBare (bare : isBare c = true) : lexChar .between c = some (.bare [c], []) := by
  have other : ∀ d, isBare d = false → c ≠ d := by
    intro d notBare same
    rw [same, notBare] at bare
    cases bare
  have notGap : isGap c = false := by
    cases gap : isGap c with
    | false => rfl
    | true =>
        rw [isBare_of_isGap gap] at bare
        cases bare
  simp [lexChar, startToken, other '[' (by decide), other ']' (by decide), other '\x7b' (by decide),
    other '\x7d' (by decide), other ',' (by decide), other ':' (by decide), other '"' (by decide),
    notGap, bare]

namespace Spells

theorem append (left : Spells front first) (right : Spells back second) (parts : Parts back)
    (filled : back ≠ []) : Spells (front ++ back) (first ++ second) := by
  intro rest follows
  rw [List.append_assoc, left _ (parts.append filled rest), right rest follows, Option.map_map]
  congr 1
  funext later
  simp

/-- A bracket, a comma or a colon stands for itself. -/
theorem mark (starts : lexChar .between c = some (.between, [token])) (spells : Spells text first) :
    Spells (c :: text) (token :: first) := by
  intro rest follows
  rw [List.cons_append, tokensFrom_of_lexChar starts, spells rest follows, Option.map_map]
  rfl

theorem gap (gaps : ∀ c ∈ front, isGap c = true) (spells : Spells text first) :
    Spells (front ++ text) first := by
  induction front with
  | nil => exact spells
  | cons c front ih =>
      obtain ⟨head, others⟩ := List.forall_mem_cons.mp gaps
      intro rest follows
      rw [List.cons_append, List.cons_append, tokensFrom_of_silent (lexChar_of_isGap head)]
      exact ih others rest follows

theorem nil : Spells [] [] := by
  intro rest _
  simp

end Spells

/-- What is read of a number or a word is kept until something else comes. -/
theorem tokensFrom_bare (bare : ∀ c ∈ text, isBare c = true) (read rest : List Char) :
    tokensFrom (.bare read) (text ++ rest) = tokensFrom (.bare (text.reverse ++ read)) rest := by
  induction text generalizing read with
  | nil => rfl
  | cons c text ih =>
      obtain ⟨head, others⟩ := List.forall_mem_cons.mp bare
      have step : lexChar (.bare read) c = some (.bare (c :: read), []) := if_pos head
      rw [List.cons_append, tokensFrom_of_silent step, ih others]
      simp

theorem tokensFrom_bare_end {value : Scalar} (scalar : bareScalar? read.reverse = some value)
    {rest : List Char} (parts : Parts rest) :
    tokensFrom (.bare read) rest = (tokensFrom .between rest).map (.scalar value :: ·) := by
  cases rest with
  | nil => simp [tokensFrom, lexEnd, scalar]
  | cons c rest =>
      have notBare := parts c rfl
      simp only [tokensFrom, lexChar, notBare, Bool.false_eq_true, if_false, scalar]
      cases startToken c with
      | none => rfl
      | some next => simp [Function.comp_def]

theorem spells_bare {value : Scalar} (bare : ∀ c ∈ text, isBare c = true)
    (scalar : bareScalar? text = some value) : Spells text [.scalar value] := by
  cases text with
  | nil => cases scalar
  | cons c text =>
      obtain ⟨head, others⟩ := List.forall_mem_cons.mp bare
      intro rest parts
      rw [List.cons_append, tokensFrom_of_silent (lexChar_of_isBare head),
        tokensFrom_bare others, tokensFrom_bare_end (by simpa using scalar) parts]
      rfl

theorem hexValue?_hexDigit (value : Nat) : hexValue? (Scalar.hexDigit value) = some (value % 16) := by
  have all : ∀ digit < 16, hexValue? (Nat.digitChar digit) = some digit := by decide
  exact all _ (Nat.mod_lt _ (by decide))

theorem lexChar_code {high : Option Nat} {missing value digit : Nat} (hex : hexValue? c = some digit) :
    lexChar (.code read high (missing + 2) value) c =
      some (.code read high (missing + 1) (value * 16 + digit), []) := by
  simp [lexChar, hex]

theorem lexChar_code_end {value digit : Nat} (hex : hexValue? c = some digit)
    (control : value * 16 + digit < 0x20) :
    lexChar (.code read none 1 value) c =
      some (.string (Char.ofNat (value * 16 + digit) :: read), []) := by
  have lower : ¬ 0xD800 ≤ value * 16 + digit := by omega
  have upper : ¬ 0xDC00 ≤ value * 16 + digit := by omega
  simp [lexChar, hex, codeUnit, lower, upper]

/-- A control character is written by its code, in four digits. -/
theorem tokensFrom_code (control : c.toNat < 0x20) (read rest : List Char) :
    tokensFrom (.string read) ('\\' :: 'u' :: '0' :: '0' :: Scalar.hexDigit (c.toNat / 16) ::
      Scalar.hexDigit c.toNat :: rest) = tokensFrom (.string (c :: read)) rest := by
  have zero : hexValue? '0' = some 0 := by decide
  have high := hexValue?_hexDigit (c.toNat / 16)
  have low := hexValue?_hexDigit c.toNat
  have value : ((0 * 16 + 0) * 16 + 0) * 16 + c.toNat / 16 % 16 = c.toNat / 16 := by omega
  have whole : c.toNat / 16 * 16 + c.toNat % 16 = c.toNat := by omega
  have backslash : lexChar (.string read) '\\' = some (.escape read, []) := rfl
  have mark : lexChar (.escape read) 'u' = some (.code read none 4 0, []) := rfl
  rw [tokensFrom_of_silent backslash, tokensFrom_of_silent mark,
    tokensFrom_of_silent (lexChar_code zero), tokensFrom_of_silent (lexChar_code zero),
    tokensFrom_of_silent (lexChar_code high), value,
    tokensFrom_of_silent (lexChar_code_end low (by omega)), whole, Char.ofNat_toNat]

theorem tokensFrom_escape {name : Char} (named : escapedChar? name = some c) (short : name ≠ 'u')
    (read rest : List Char) :
    tokensFrom (.string read) ('\\' :: name :: rest) = tokensFrom (.string (c :: read)) rest := by
  have backslash : lexChar (.string read) '\\' = some (.escape read, []) := rfl
  have plain : lexChar (.escape read) name = some (.string (c :: read), []) := by
    simp [lexChar, short, named]
  rw [tokensFrom_of_silent backslash, tokensFrom_of_silent plain]

theorem tokensFrom_escaped (c : Char) (read rest : List Char) :
    tokensFrom (.string read) (Scalar.escaped c ++ rest) = tokensFrom (.string (c :: read)) rest := by
  unfold Scalar.escaped
  split
  -- The other cases are escapes that are named by one character.
  case h_8 _ quote backslash _ _ _ _ _ =>
    split_ifs with control
    · exact tokensFrom_code control read rest
    · have plain : lexChar (.string read) c = some (.string (c :: read), []) :=
        (if_neg quote).trans ((if_neg backslash).trans (if_neg control))
      exact tokensFrom_of_silent plain rest
  all_goals exact tokensFrom_escape rfl (by decide) read rest

theorem tokensFrom_flatMap_escaped (text read rest : List Char) :
    tokensFrom (.string read) (text.flatMap Scalar.escaped ++ rest) =
      tokensFrom (.string (text.reverse ++ read)) rest := by
  induction text generalizing read with
  | nil => rfl
  | cons c text ih =>
      rw [List.flatMap_cons, List.append_assoc, tokensFrom_escaped, ih]
      simp

theorem spells_text (value : String) : Spells (Scalar.text value).write [.scalar (.text value)] := by
  intro rest _
  have opening : lexChar .between '"' = some (.string [], []) := rfl
  have closing : ∀ read, lexChar (.string read) '"' =
      some (.between, [.scalar (.text (String.ofList read.reverse))]) := fun _ => rfl
  rw [Scalar.write, List.cons_append, List.cons_append, List.append_assoc,
    tokensFrom_of_silent opening, tokensFrom_flatMap_escaped, List.singleton_append,
    tokensFrom_of_lexChar (closing _), List.append_nil, List.reverse_reverse, String.ofList_toList]

end Lexing

section Scalars

/-- Only zero is written with a zero in front. -/
theorem head?_toDigits {value : Nat} (positive : value ≠ 0) :
    (Nat.toDigits 10 value).head? ≠ some '0' := by
  induction value using Nat.strongRecOn with
  | ind value ih =>
      by_cases small : value < 10
      · have all : ∀ digit < 10, digit ≠ 0 → Nat.digitChar digit ≠ '0' := by decide
        rw [Nat.toDigits_of_lt_base small, List.head?_singleton, Ne, Option.some.injEq]
        exact all value small positive
      -- The first digit is that of the quotient.
      · have shorter := ih (value / 10) (by omega) (by omega)
        rw [Nat.toDigits_of_base_le (by decide) (Nat.le_of_not_lt small), List.head?_append]
        cases front : (Nat.toDigits 10 (value / 10)).head? with
        | none => exact absurd (List.head?_eq_none_iff.mp front) Nat.toDigits_ne_nil
        | some c => rwa [front] at shorter

theorem isDigit_of_mem_toDigits {c : Char} {value : Nat} (digit : c ∈ Nat.toDigits 10 value) :
    c.isDigit = true :=
  Nat.isDigit_of_mem_toDigits (by decide) (by decide) digit

theorem isNatural_toDigits (value : Nat) : isNatural (Nat.toDigits 10 value) = true := by
  have digits : (Nat.toDigits 10 value).all Char.isDigit = true :=
    List.all_eq_true.mpr fun c => isDigit_of_mem_toDigits
  by_cases zero : value = 0
  · subst value
    decide
  · simp [isNatural, digits, Nat.toDigits_ne_nil, head?_toDigits zero]

theorem isBare_of_isDigit {c : Char} (digit : c.isDigit = true) : isBare c = true := by
  simp [isBare, Char.isAlphanum, digit]

/-- A word that begins with a letter is no natural number. -/
theorem ne_of_isNatural {text word : List Char} (natural : isNatural text = true)
    (letters : word.all Char.isDigit = false) : text ≠ word := by
  intro same
  subst text
  simp [isNatural, letters] at natural

theorem bareScalar?_toDigits (value : Nat) :
    bareScalar? (Nat.toDigits 10 value) = some (.natural value) := by
  have natural := isNatural_toDigits value
  have read : Nat.ofDigitChars 10 (Nat.toDigits 10 value) 0 = value :=
    Nat.ofDigitChars_ten_toDigits
  rw [bareScalar?, if_neg (ne_of_isNatural natural (by decide)),
    if_neg (ne_of_isNatural natural (by decide)), if_neg (ne_of_isNatural natural (by decide)),
    if_pos natural, read]

/-- Every scalar but a text is written as one word. -/
theorem isBare_of_mem_write {value : Scalar} (regular : value.Regular)
    (word : ∀ content, value ≠ .text content) : ∀ c ∈ value.write, isBare c = true := by
  cases value with
  | null => exact List.all_eq_true.mp rfl
  | bool value => cases value <;> exact List.all_eq_true.mp rfl
  | natural value => exact fun c digit => isBare_of_isDigit (isDigit_of_mem_toDigits digit)
  | number spelling => exact regular.1
  | text value => exact absurd rfl (word value)

theorem spells_scalar {value : Scalar} (regular : value.Regular) :
    Spells value.write [.scalar value] := by
  cases value with
  | null => exact spells_bare (isBare_of_mem_write regular nofun) rfl
  | bool value => cases value <;> exact spells_bare (isBare_of_mem_write regular nofun) rfl
  | natural value => exact spells_bare (isBare_of_mem_write regular nofun) (bareScalar?_toDigits value)
  | number spelling => exact spells_bare (isBare_of_mem_write regular nofun) regular.2
  | text value => exact spells_text value

end Scalars

section Writing

/-- A layout that fills in nothing but gaps. -/
structure Layout.Blank (layout : Layout) : Prop where
  lineBreak : ∀ depth, ∀ c ∈ layout.lineBreak depth, isGap c = true
  afterColon : ∀ c ∈ layout.afterColon, isGap c = true

theorem Layout.blank_compact : Layout.compact.Blank where
  lineBreak _ := List.forall_mem_nil _
  afterColon := List.forall_mem_nil _

theorem Layout.blank_indented : Layout.indented.Blank where
  lineBreak depth := by
    refine List.forall_mem_cons.mpr ⟨rfl, ?_⟩
    intro c member
    rw [List.eq_of_mem_replicate member]
    rfl
  afterColon := List.forall_mem_singleton.mpr rfl

variable {ι : Type} {items : List ι} {text : ι → List Char} {tokensOf : ι → List Token}
  {layout : Layout} {json : Json}

theorem Parts.mark {c : Char} (mark : isBare c = false) (rest : List Char) : Parts (c :: rest) := by
  intro first starts
  cases starts
  exact mark

theorem Parts.gap {front back : List Char} (gaps : ∀ c ∈ front, isGap c = true) (parts : Parts back) :
    Parts (front ++ back) := by
  cases front with
  | nil => exact parts
  | cons c front => exact .mark (isBare_of_isGap (gaps c List.mem_cons_self)) _

/-- Parts with commas between them read as the tokens of each, with commas between them. -/
theorem Spells.separated {between after : List Char} {last : List Token}
    (parts : ∀ item ∈ items, Spells (text item) (tokensOf item))
    (gaps : ∀ c ∈ between, isGap c = true) (ends : Spells after last) (follows : Parts after)
    (filled : after ≠ []) (nonempty : items ≠ []) :
    Spells (List.intercalate (',' :: between) (items.map text) ++ after)
      (List.intercalate [.comma] (items.map tokensOf) ++ last) := by
  -- An item is followed by a comma or by what ends them all, and neither goes on with the item.
  induction items with
  | nil => exact absurd rfl nonempty
  | cons item rest ih =>
      obtain ⟨head, others⟩ := List.forall_mem_cons.mp parts
      cases rest with
      | nil =>
          rw [List.map_singleton, List.map_singleton, List.intercalate_singleton,
            List.intercalate_singleton]
          exact head.append ends follows filled
      | cons next rest =>
          have later := (ih others (List.cons_ne_nil _ _)).gap gaps
          have comma := later.mark (show lexChar .between ',' = some (.between, [.comma]) from rfl)
          have whole := head.append comma (.mark (by decide) _) (List.cons_ne_nil _ _)
          simpa [List.intercalate_cons_cons] using whole

theorem spells_bracketed {opening closing : Char} {openToken closeToken : Token} (blank : layout.Blank)
    (depth : Nat) (opens : lexChar .between opening = some (.between, [openToken]))
    (closes : lexChar .between closing = some (.between, [closeToken]))
    (mark : isBare closing = false) (parts : ∀ item ∈ items, Spells (text item) (tokensOf item)) :
    Spells (bracketed layout depth opening closing (items.map text))
      (openToken :: List.intercalate [.comma] (items.map tokensOf) ++ [closeToken]) := by
  have ends : Spells [closing] [closeToken] := Spells.nil.mark closes
  cases items with
  | nil => exact ends.mark opens
  | cons item rest =>
      have separated := Spells.separated parts (blank.lineBreak (depth + 1))
        (ends.gap (blank.lineBreak depth)) (.gap (blank.lineBreak depth) (.mark mark []))
        (by simp) (List.cons_ne_nil _ _)
      have whole := (separated.gap (blank.lineBreak (depth + 1))).mark opens
      simpa [bracketed] using whole

/-- The text of a value reads as its tokens, in any layout and at any depth. -/
theorem spells_write (blank : layout.Blank) (regular : json.Regular) (depth : Nat) :
    Spells (write layout depth json) json.tokens := by
  induction regular generalizing depth with
  | scalar regular => exact spells_scalar regular
  | list _ ih =>
      rw [write, tokens, writeItems_eq_map, itemTokens_eq_map]
      exact spells_bracketed blank depth rfl rfl (by decide) fun item member => ih item member _
  | object _ ih =>
      rw [write, tokens, writeFields_eq_map, fieldTokens_eq_map]
      refine spells_bracketed blank depth rfl rfl (by decide) fun field member => ?_
      have value := (ih field member (depth + 1)).gap blank.afterColon
      have colon := value.mark (show lexChar .between ':' = some (.between, [.colon]) from rfl)
      have whole := (spells_text field.1).append colon (.mark (by decide) _) (List.cons_ne_nil _ _)
      simpa using whole

end Writing

end Json

end RuleSurvey
