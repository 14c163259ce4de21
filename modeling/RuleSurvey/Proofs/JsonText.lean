import RuleSurvey.Json.Reader
import RuleSurvey.Proofs.JsonTokens

namespace RuleSurvey

/-!
JSON text that was written is read back. The text reads as the tokens of its value, and these are read
as the value itself. The text on one line has no control character.
-/

namespace Json

section Reading

/-- The tokens of a value lead to where the value is delivered, whatever comes after them. -/
def Reads (json : Json) : Prop :=
  ∀ frames mayClose rest, (json.tokens ++ rest).foldlM readToken (.value frames mayClose) =
    (deliver json frames).bind fun next => rest.foldlM readToken next

/--
How the items between two brackets are gathered: `start` is where an item may begin and `after` where
one has ended, each with the items that are gathered so far.
-/
structure Gathering (ι : Type) where
  start : List ι → Bool → Reading
  after : List ι → Reading
  closing : Token
  finish : List ι → Option Reading
  empty : readToken (start [] true) closing = finish []
  comma : ∀ done, readToken (after done) .comma = some (start done false)
  close : ∀ done, readToken (after done) closing = finish done

namespace Gathering

def items (frames : List Frame) : Gathering Json where
  start done := .value (.list done :: frames)
  after done := .separator (.list done :: frames)
  closing := .closeList
  finish done := deliver (.list done.reverse) frames
  empty := rfl
  comma _ := rfl
  close _ := rfl

def fields (frames : List Frame) : Gathering (String × Json) where
  start done := .key (.object done :: frames)
  after done := .separator (.object done :: frames)
  closing := .closeObject
  finish done := deliver (.object done.reverse) frames
  empty := rfl
  comma _ := rfl
  close _ := rfl

theorem finish_items (frames : List Frame) (all : List Json) :
    (items frames).finish all.reverse = deliver (.list all) frames :=
  congrArg (fun all => deliver (.list all) frames) (List.reverse_reverse all)

theorem finish_fields (frames : List Frame) (all : List (String × Json)) :
    (fields frames).finish all.reverse = deliver (.object all) frames :=
  congrArg (fun all => deliver (.object all) frames) (List.reverse_reverse all)

variable {ι : Type} {gathering : Gathering ι} {items : List ι} {tokensOf : ι → List Token}

/-- Whatever is gathered so far, the tokens of an item add that item. -/
def Takes (gathering : Gathering ι) (item : ι) (tokens : List Token) : Prop :=
  ∀ done mayClose rest, (tokens ++ rest).foldlM readToken (gathering.start done mayClose) =
    rest.foldlM readToken (gathering.after (item :: done))

theorem foldlM_of_ne_nil (takes : ∀ item ∈ items, gathering.Takes item (tokensOf item))
    (nonempty : items ≠ []) (done : List ι) (mayClose : Bool) (rest : List Token) :
    (List.intercalate [.comma] (items.map tokensOf) ++ gathering.closing :: rest).foldlM readToken
        (gathering.start done mayClose) =
      (gathering.finish (items.reverse ++ done)).bind fun next => rest.foldlM readToken next := by
  -- Behind a comma another item has to come, so the bracket may close only behind an item.
  induction items generalizing done mayClose with
  | nil => exact absurd rfl nonempty
  | cons item others ih =>
      obtain ⟨head, later⟩ := List.forall_mem_cons.mp takes
      cases others with
      | nil =>
          rw [List.map_singleton, List.intercalate_singleton, head, List.foldlM_cons, gathering.close]
          rfl
      | cons next others =>
          have tail := ih later (List.cons_ne_nil _ _) (item :: done) false
          rw [List.map_cons, List.map_cons, List.intercalate_cons_cons, List.append_assoc,
            List.append_assoc, head, List.singleton_append, List.foldlM_cons, gathering.comma,
            ← List.map_cons]
          simpa using tail

/-- From one bracket to the other, all items are gathered in their order. -/
theorem foldlM_separated (takes : ∀ item ∈ items, gathering.Takes item (tokensOf item))
    (rest : List Token) :
    (List.intercalate [.comma] (items.map tokensOf) ++ gathering.closing :: rest).foldlM readToken
        (gathering.start [] true) =
      (gathering.finish items.reverse).bind fun next => rest.foldlM readToken next := by
  by_cases nonempty : items = []
  · subst items
    rw [List.map_nil, List.intercalate_nil, List.nil_append, List.foldlM_cons, gathering.empty]
    rfl
  · rw [foldlM_of_ne_nil takes nonempty, List.append_nil]

end Gathering

theorem Regular.reads {json : Json} (regular : json.Regular) : Reads json := by
  induction regular with
  | scalar _ => exact fun _ _ _ => rfl
  | @list items _ ih =>
      intro frames mayClose rest
      have takes : ∀ item ∈ items, (Gathering.items frames).Takes item item.tokens := by
        intro item member done mayClose rest
        exact ih item member _ mayClose rest
      have run := Gathering.foldlM_separated takes rest
      rw [Gathering.finish_items] at run
      rw [tokens, itemTokens_eq_map, List.append_assoc, List.singleton_append, List.cons_append,
        List.foldlM_cons]
      exact run
  | @object fields _ ih =>
      intro frames mayClose rest
      have takes : ∀ field ∈ fields, (Gathering.fields frames).Takes field
          (.scalar (.text field.1) :: .colon :: field.2.tokens) := by
        intro field member done mayClose rest
        exact ih field member (.field done field.1 :: frames) false rest
      have run := Gathering.foldlM_separated takes rest
      rw [Gathering.finish_fields] at run
      rw [tokens, fieldTokens_eq_map, List.append_assoc, List.singleton_append, List.cons_append,
        List.foldlM_cons]
      exact run

theorem ofTokens?_tokens {json : Json} (regular : json.Regular) : ofTokens? json.tokens = some json := by
  have run := regular.reads [] false []
  rw [List.append_nil] at run
  rw [ofTokens?, run]
  rfl

/-- What is written is read back, in any layout that fills in nothing but gaps, and with gaps behind. -/
theorem parse?_write_append {layout : Layout} {json : Json} {gaps : List Char} (blank : layout.Blank)
    (regular : json.Regular) (depth : Nat) (gap : ∀ c ∈ gaps, isGap c = true) :
    parse? (String.ofList (write layout depth json ++ gaps)) = some json := by
  have ended : Parts [] := by simp [Parts]
  have parts : Parts (gaps ++ []) := ended.gap gap
  have silent := (Spells.nil.gap gap) [] ended
  simp only [List.append_nil] at parts silent
  rw [parse?, String.toList_ofList, tokens?_eq_tokensFrom, spells_write blank regular depth gaps parts]
  simp [silent, tokensFrom, lexEnd, ofTokens?_tokens regular]

theorem parse?_write {layout : Layout} {json : Json} (blank : layout.Blank) (regular : json.Regular)
    (depth : Nat) : parse? (String.ofList (write layout depth json)) = some json := by
  have read := parse?_write_append blank regular depth (List.forall_mem_nil _)
  rwa [List.append_nil] at read

/-- The text of a value may be ended like a line. -/
theorem parse?_line {json : Json} (regular : json.Regular) :
    ∀ written ∈ [json.compact, json.indented], parse? (written ++ "\n") = some json := by
  have ended : ∀ c ∈ ['\n'], isGap c = true := List.forall_mem_singleton.mpr rfl
  have compact := parse?_write_append Layout.blank_compact regular 0 ended
  have indented := parse?_write_append Layout.blank_indented regular 0 ended
  rw [String.ofList_append] at compact indented
  intro written member
  rcases List.mem_pair.mp member with rfl | rfl
  · exact compact
  · exact indented

theorem parse?_compact {json : Json} (regular : json.Regular) : parse? json.compact = some json :=
  parse?_write Layout.blank_compact regular 0

theorem parse?_indented {json : Json} (regular : json.Regular) : parse? json.indented = some json :=
  parse?_write Layout.blank_indented regular 0

end Reading

section SingleLine

/-!
Control characters within a text are escaped, so the line breaks of the layout are the only ones.
-/

variable {c : Char} {p : Char → Prop}

theorem forall_mem_intercalate {separator : List Char} {parts : List (List Char)}
    (between : ∀ c ∈ separator, p c) (each : ∀ part ∈ parts, ∀ c ∈ part, p c) :
    ∀ c ∈ List.intercalate separator parts, p c := by
  induction parts with
  | nil => simp
  | cons part rest ih =>
      obtain ⟨head, others⟩ := List.forall_mem_cons.mp each
      by_cases last : rest = []
      · subst rest
        rwa [List.intercalate_singleton]
      · rw [List.intercalate_cons_of_ne_nil last, List.append_assoc]
        exact List.forall_mem_append.mpr ⟨head, List.forall_mem_append.mpr ⟨between, ih others⟩⟩

theorem forall_mem_bracketed_compact {depth : Nat} {opening closing : Char} {parts : List (List Char)}
    (opens : p opening) (closes : p closing) (comma : p ',') (each : ∀ part ∈ parts, ∀ c ∈ part, p c) :
    ∀ c ∈ bracketed .compact depth opening closing parts, p c := by
  have inner := forall_mem_intercalate (List.forall_mem_singleton.mpr comma) each
  cases parts with
  | nil => simp [bracketed, opens, closes]
  | cons part rest =>
      intro c member
      simp only [bracketed, Layout.compact, List.append_nil, List.mem_append, List.mem_cons,
        List.not_mem_nil, or_false] at member
      obtain (rfl | within) | rfl := member
      · exact opens
      · exact inner c within
      · exact closes

theorem not_control_of_isBare (bare : isBare c = true) : 0x20 ≤ c.toNat := by
  have all : ∀ code < 0x20, isBare (Char.ofNat code) = false := by decide
  by_contra control
  have outside := all c.toNat (Nat.lt_of_not_le control)
  rw [Char.ofNat_toNat, bare] at outside
  cases outside

theorem not_control_of_mem_escaped {plain : Char} (member : c ∈ Scalar.escaped plain) :
    0x20 ≤ c.toNat := by
  have hex : ∀ value, 0x20 ≤ (Scalar.hexDigit value).toNat := by
    have all : ∀ digit < 16, 0x20 ≤ (Nat.digitChar digit).toNat := by decide
    exact fun value => all _ (Nat.mod_lt _ (by decide))
  unfold Scalar.escaped at member
  split at member
  case h_8 =>
    split_ifs at member with control
    · simp only [List.mem_cons, List.not_mem_nil, or_false] at member
      obtain rfl | rfl | rfl | rfl | rfl | rfl := member <;> first | decide | exact hex _
    · rw [List.mem_singleton.mp member]
      exact Nat.le_of_not_lt control
  all_goals
    simp only [List.mem_cons, List.not_mem_nil, or_false] at member
    obtain rfl | rfl := member <;> decide

theorem not_control_of_mem_write_scalar {value : Scalar} (regular : value.Regular) :
    ∀ c ∈ value.write, 0x20 ≤ c.toNat := by
  intro c member
  by_cases word : ∀ content, value ≠ .text content
  · exact not_control_of_isBare (isBare_of_mem_write regular word c member)
  · simp only [not_forall, not_not] at word
    obtain ⟨content, rfl⟩ := word
    simp only [Scalar.write, List.mem_append, List.mem_cons, List.mem_flatMap, List.not_mem_nil,
      or_false] at member
    obtain (rfl | ⟨plain, _, within⟩) | rfl := member
    · decide
    · exact not_control_of_mem_escaped within
    · decide

/-- On one line, no control character stands, so nothing can end the line. -/
theorem not_control_of_mem_write {json : Json} (regular : json.Regular) (depth : Nat) :
    ∀ c ∈ write .compact depth json, 0x20 ≤ c.toNat := by
  induction regular generalizing depth with
  | scalar regular => exact not_control_of_mem_write_scalar regular
  | list _ ih =>
      rw [write, writeItems_eq_map]
      refine forall_mem_bracketed_compact (by decide) (by decide) (by decide) ?_
      exact List.forall_mem_map.mpr fun item member => ih item member _
  | object _ ih =>
      rw [write, writeFields_eq_map]
      refine forall_mem_bracketed_compact (by decide) (by decide) (by decide) ?_
      refine List.forall_mem_map.mpr fun field member => ?_
      have key : ∀ c ∈ (Scalar.text field.1).write, 0x20 ≤ c.toNat :=
        not_control_of_mem_write_scalar trivial
      rw [List.append_assoc]
      refine List.forall_mem_append.mpr ⟨key, ?_⟩
      exact List.forall_mem_cons.mpr ⟨by decide, ih field member _⟩

theorem not_control_of_mem_compact {json : Json} (regular : json.Regular) :
    ∀ c ∈ json.compact.toList, 0x20 ≤ c.toNat := by
  rw [compact, String.toList_ofList]
  exact not_control_of_mem_write regular 0

end SingleLine

end Json

end RuleSurvey
