import RuleSurvey.Proofs.Pattern
import RuleSurvey.RuleFile
import Mathlib.Order.WellFounded

namespace RuleSurvey

/-!
The label of a rule file, said once as a search and once as a place in the text. The first complete
assignment counts, and those before it have failed for good: an attempt that could still be
completed by more text reaches to the end of the text, and then no other one is behind it.
-/

namespace RuleFile

open Text

def labelPattern : Pattern.Capture where
  lead := [.word ["$rulesfile".toList], .blanks, .mark '=', .blanks, .mark '"']
  inner := Pattern.atLeastOne (· != '"')
  trail := [.mark '"']

/-- A complete assignment somewhere in a text, in its parts. -/
structure Assignment (text : List Char) where
  before : List Char
  gap : Blanks
  space : Blanks
  value : List Char
  after : List Char
  nonempty : value ≠ []
  unquoted : '"' ∉ value
  whole : text = before ++
    ("$rulesfile".toList ++ (gap.val ++ '=' :: (space.val ++ '"' :: (value ++ '"' :: after))))

/-- No complete assignment starts further ahead. -/
def Assignment.IsFirst {text : List Char} (assignment : Assignment text) : Prop :=
  ∀ other : Assignment text, assignment.before.length ≤ other.before.length

/-- What follows the opening quote of the assignment with which a text starts. -/
def pastQuote? (text : List Char) : Option (List Char) :=
  ((strip? "$rulesfile".toList text).bind (pastMark? '=')).bind (pastMark? '"')

/-- What a text has before its first quote; none if that is nothing or there is no quote. -/
def quoted? (text : List Char) : Option (List Char) :=
  match text.takeWhile (· != '"'), text.dropWhile (· != '"') with
  | c :: value, _ :: _ => some (c :: value)
  | _, _ => none

/-- The value of the assignment with which a text starts. -/
def assigned? (text : List Char) : Option (List Char) :=
  (pastQuote? text).bind quoted?

section Reading

variable {text rest value : List Char}

theorem assignedLabel?_eq (text : List Char) : assignedLabel? text = (assigned? text).map trim := by
  have trimmed : ∀ opened : List Char,
      (match opened.takeWhile (· != '"'), opened.dropWhile (· != '"') with
        | c :: label, _ :: _ => some (trim (c :: label))
        | _, _ => none) = (quoted? opened).map trim := by
    intro opened
    rw [quoted?]
    split <;> rfl
  calc assignedLabel? text
    _ = (pastQuote? text).bind fun opened =>
        match opened.takeWhile (· != '"'), opened.dropWhile (· != '"') with
        | c :: label, _ :: _ => some (trim (c :: label))
        | _, _ => none := by
      rw [pastQuote?, Option.bind_assoc, Option.bind_assoc]
      rfl
    _ = (pastQuote? text).bind fun opened => (quoted? opened).map trim :=
      congrArg (pastQuote? text).bind (funext trimmed)
    _ = (assigned? text).map trim := by rw [assigned?, Option.map_bind, Function.comp_def]

theorem pastQuote?_eq_some_iff :
    pastQuote? text = some rest ↔
      ∃ gap space : Blanks,
        text = "$rulesfile".toList ++ (gap.val ++ '=' :: (space.val ++ '"' :: rest)) := by
  simp only [pastQuote?, Option.bind_eq_some_iff, strip?_eq_some_iff,
    pastMark?_eq_some_iff (show isBlank '=' = false by decide),
    pastMark?_eq_some_iff (show isBlank '"' = false by decide)]
  constructor
  · rintro ⟨_, ⟨_, rfl, gap, rfl⟩, space, rfl⟩
    exact ⟨gap, space, rfl⟩
  · rintro ⟨gap, space, rfl⟩
    exact ⟨_, ⟨_, rfl, gap, rfl⟩, space, rfl⟩

theorem quoted?_eq_some_iff :
    quoted? text = some value ↔
      value ≠ [] ∧ '"' ∉ value ∧ ∃ after, text = value ++ '"' :: after := by
  constructor
  · intro read
    rw [quoted?] at read
    split at read
    · next c front d after taken left =>
        obtain rfl := Option.some.inj read
        rw [← taken]
        exact ⟨by simp [taken], not_mem_takeWhile '"' text, after, eq_takeWhile_append left⟩
    · cases read
  · rintro ⟨nonempty, unquoted, after, rfl⟩
    obtain ⟨c, front, rfl⟩ := List.exists_cons_of_ne_nil nonempty
    rw [quoted?, takeWhile_append_mark unquoted, dropWhile_append_mark unquoted]

theorem assigned?_eq_some_iff :
    assigned? text = some value ↔
      value ≠ [] ∧ '"' ∉ value ∧ ∃ (gap space : Blanks) (after : List Char),
        text = "$rulesfile".toList ++
          (gap.val ++ '=' :: (space.val ++ '"' :: (value ++ '"' :: after))) := by
  simp only [assigned?, Option.bind_eq_some_iff, pastQuote?_eq_some_iff, quoted?_eq_some_iff]
  constructor
  · rintro ⟨_, ⟨gap, space, rfl⟩, nonempty, unquoted, after, rfl⟩
    exact ⟨nonempty, unquoted, gap, space, after, rfl⟩
  · rintro ⟨nonempty, unquoted, gap, space, after, rfl⟩
    exact ⟨_, ⟨gap, space, rfl⟩, nonempty, unquoted, after, rfl⟩

theorem label?_cons (c : Char) (text : List Char) :
    label? (c :: text) = ((assigned? (c :: text)).map trim).or (label? text) := by
  rw [label?, ← assignedLabel?_eq]
  cases assignedLabel? (c :: text) <;> rfl

theorem label?_of_assigned? (read : assigned? text = some value) :
    label? text = some (trim value) := by
  cases text with
  | nil => cases read
  | cons c text => rw [label?_cons, read, Option.map_some, Option.some_or]

end Reading

section Search

variable {before text : List Char}

theorem flatMap_labelStart {α : Type} (next : List Char → List α) :
    (labelPattern.lead.cuts before text).flatMap (fun cut => next cut.rest) =
      (pastQuote? text).toList.flatMap next := by
  have equals : isBlank '=' = false := by decide
  have quote : isBlank '"' = false := by decide
  have skip (mark : Char) (text : List Char) :
      strip? [mark] (text.dropWhile isBlank) = pastMark? mark text := rfl
  simp only [labelPattern, Pattern.Part.blanks, Pattern.Part.mark, Pattern.flatMap_cuts_word,
    Pattern.flatMap_cuts_run_word equals, Pattern.flatMap_cuts_run_word quote,
    skip]
  simp only [Pattern.cuts, List.flatMap_singleton, pastQuote?]
  cases strip? "$rulesfile".toList text with
  | none => rfl
  | some target =>
      rw [Option.toList_some, List.flatMap_singleton, Option.bind_some]
      cases pastMark? '=' target with
      | none => rfl
      | some assigned => rw [Option.toList_some, List.flatMap_singleton, Option.bind_some]

/-- The value reaches to the first quote, since no other run of its characters ends at one. -/
theorem flatMap_value (before text : List Char) :
    (labelPattern.inner.cuts before text).flatMap (fun middle =>
      (labelPattern.trail.cuts (before ++ middle.taken) middle.rest).map fun _ => middle.taken) =
        (quoted? text).toList := by
  cases text with
  | nil => rfl
  | cons c text =>
      by_cases quote : c = '"'
      · subst quote
        rfl
      · have kept : (c != '"') = true := bne_iff_ne.mpr quote
        have ends (taken rest : List Char) :
            labelPattern.trail.cuts (before ++ taken) rest =
              (strip? ['"'] rest).toList.map (⟨['"'], ·⟩) := by
          cases stripped : strip? ['"'] rest <;>
            simp [labelPattern, Pattern.cuts, Pattern.Part.cuts, Pattern.Part.mark, stripped]
        simp only [ends]
        rw [labelPattern, Pattern.cuts_atLeastOne_cons (· != '"') kept, List.flatMap_map]
        refine (Pattern.flatMap_runs ?_).trans ?_
        · intro taken d rest inside
          have different : '"' ≠ d := Ne.symm (bne_iff_ne.mp inside)
          simp [strip?, different]
        · rw [quoted?, List.takeWhile_cons_of_pos (p := (· != '"')) kept,
            List.dropWhile_cons_of_pos (p := (· != '"')) kept]
          cases left : text.dropWhile (· != '"') with
          | nil => rfl
          | cons d rest =>
              have same : d = '"' := eq_mark_of_dropWhile left
              simp [strip?, same]

theorem found_labelPattern (before text : List Char) :
    labelPattern.found before text = (assigned? text).toList := by
  rw [Pattern.Capture.found]
  simp only [flatMap_value]
  rw [flatMap_labelStart fun opened => (quoted? opened).toList, assigned?]
  cases pastQuote? text with
  | none => rfl
  | some opened => rw [Option.toList_some, List.flatMap_singleton, Option.bind_some]

theorem head?_foundFrom_labelPattern (before text : List Char) :
    (labelPattern.foundFrom before text).head?.map trim = label? text := by
  induction text generalizing before with
  | nil => rfl
  | cons c text ih =>
      rw [Pattern.Capture.foundFrom, found_labelPattern, List.head?_append, Option.map_or, ih,
        label?_cons]
      cases assigned? (c :: text) <;> rfl

theorem map_search_labelPattern (text : List Char) :
    (labelPattern.search text).map trim = label? text :=
  head?_foundFrom_labelPattern [] text

end Search

section FirstAssignment

variable {front back text value : List Char}

/-- Nothing is found ahead of the first complete assignment. -/
theorem label?_append_of_unassigned (unassigned : ∀ skipped c rest, front = skipped ++ c :: rest →
      assigned? (c :: rest ++ back) = none) : label? (front ++ back) = label? back := by
  induction front with
  | nil => rfl
  | cons c front ih =>
      have here : assigned? (c :: (front ++ back)) = none := unassigned [] c front rfl
      rw [List.cons_append, label?_cons, here, Option.map_none, Option.none_or]
      exact ih fun skipped d rest split => unassigned (c :: skipped) d rest (congrArg _ split)

theorem exists_assignment (split : text = front ++ back) (read : assigned? back = some value) :
    ∃ assignment : Assignment text, assignment.before = front := by
  obtain ⟨nonempty, unquoted, gap, space, after, whole⟩ := assigned?_eq_some_iff.mp read
  exact ⟨⟨front, gap, space, value, after, nonempty, unquoted, whole ▸ split⟩, rfl⟩

theorem label?_of_isEmpty (absent : IsEmpty (Assignment text)) : label? text = none := by
  rw [← List.append_nil text]
  refine label?_append_of_unassigned fun skipped c rest split => ?_
  rw [List.append_nil]
  refine Option.eq_none_iff_forall_ne_some.mpr fun value read => ?_
  obtain ⟨assignment, _⟩ := exists_assignment split read
  exact absent.elim assignment

theorem Assignment.label?_eq (assignment : Assignment text) (first : assignment.IsFirst) :
    label? text = some (trim assignment.value) := by
  obtain ⟨before, gap, space, value, after, nonempty, unquoted, whole⟩ := assignment
  let back := "$rulesfile".toList ++
    (gap.val ++ '=' :: (space.val ++ '"' :: (value ++ '"' :: after)))
  have here : assigned? back = some value :=
    assigned?_eq_some_iff.mpr ⟨nonempty, unquoted, gap, space, after, rfl⟩
  have passed : label? (before ++ back) = label? back := by
    refine label?_append_of_unassigned fun skipped c rest split => ?_
    refine Option.eq_none_iff_forall_ne_some.mpr fun value read => ?_
    have ahead : text = skipped ++ (c :: rest ++ back) := by
      rw [whole, split, List.append_assoc]
    obtain ⟨earlier, same⟩ := exists_assignment ahead read
    have shorter : before.length ≤ earlier.before.length := first earlier
    rw [same, split, List.length_append, List.length_cons] at shorter
    omega
  calc label? text
    _ = label? back := by rw [whole, passed]
    _ = some (trim value) := label?_of_assigned? here

theorem exists_first_assignment (assigned : Nonempty (Assignment text)) :
    ∃ first : Assignment text, first.IsFirst := by
  let place (assignment : Assignment text) : Nat := assignment.before.length
  exact ⟨Function.argmin place, fun other => Function.argmin_le place other⟩

theorem label?_eq_some_iff {label : List Char} :
    label? text = some label ↔
      ∃ first : Assignment text, first.IsFirst ∧ trim first.value = label := by
  constructor
  · intro found
    rcases isEmpty_or_nonempty (Assignment text) with absent | assigned
    · rw [label?_of_isEmpty absent] at found
      cases found
    · obtain ⟨first, isFirst⟩ := exists_first_assignment assigned
      rw [first.label?_eq isFirst] at found
      exact ⟨first, isFirst, Option.some.inj found⟩
  · rintro ⟨first, isFirst, rfl⟩
    exact first.label?_eq isFirst

theorem label?_eq_none_iff : label? text = none ↔ IsEmpty (Assignment text) := by
  refine ⟨fun absent => ?_, label?_of_isEmpty⟩
  by_contra assigned
  obtain ⟨first, isFirst⟩ := exists_first_assignment (not_isEmpty_iff.mp assigned)
  rw [first.label?_eq isFirst] at absent
  cases absent

end FirstAssignment

section Appending

variable {text label value : List Char}

theorem assigned?_append (read : assigned? text = some value) (rest : List Char) :
    assigned? (text ++ rest) = some value := by
  obtain ⟨nonempty, unquoted, gap, space, after, rfl⟩ := assigned?_eq_some_iff.mp read
  exact assigned?_eq_some_iff.mpr ⟨nonempty, unquoted, gap, space, after ++ rest, by simp⟩

/-- No part of an assignment up to its opening quote reaches over a later dollar sign. -/
theorem pastQuote?_append (c : Char) (front back : List Char) :
    pastQuote? (c :: front ++ '$' :: back) =
      (pastQuote? (c :: front)).map (· ++ '$' :: back) := by
  have target : strip? "$rulesfile".toList (c :: front ++ '$' :: back) =
      (strip? "$rulesfile".toList (c :: front)).map (· ++ '$' :: back) := by
    have started : "$rulesfile".toList = '$' :: "rulesfile".toList := rfl
    rw [started, List.cons_append, strip?, strip?]
    split_ifs with dollar
    · exact strip?_append (by decide) front back
    · rfl
  simp only [pastQuote?, target]
  cases strip? "$rulesfile".toList (c :: front) with
  | none => rfl
  | some assigned =>
      rw [Option.map_some, Option.bind_some, Option.bind_some,
        pastMark?_append (by decide) (by decide)]
      cases pastMark? '=' assigned with
      | none => rfl
      | some opened => exact pastMark?_append (by decide) (by decide) opened back

theorem quoted?_append (closed : '"' ∈ text) (rest : List Char) :
    quoted? (text ++ rest) = quoted? text := by
  obtain ⟨front, back, rfl, unquoted⟩ := List.eq_append_cons_of_mem closed
  have same : front ++ '"' :: back ++ rest = front ++ '"' :: (back ++ rest) := by simp
  rw [same, quoted?, quoted?, takeWhile_append_mark unquoted, takeWhile_append_mark unquoted,
    dropWhile_append_mark unquoted, dropWhile_append_mark unquoted]
  cases front <;> rfl

/-- An attempt that fails ahead of a later dollar sign and quote fails whatever follows them. -/
theorem assigned?_append_of_later {back : List Char} (closed : '"' ∈ back) (c : Char)
    (front rest : List Char) :
    assigned? (c :: front ++ '$' :: (back ++ rest)) = assigned? (c :: front ++ '$' :: back) := by
  rw [assigned?, assigned?, pastQuote?_append, pastQuote?_append]
  cases pastQuote? (c :: front) with
  | none => rfl
  | some opened =>
      have within : '"' ∈ opened ++ '$' :: back := by simp [closed]
      simpa using quoted?_append within rest

theorem exists_quote_of_label? (found : label? text = some label) :
    ∃ front back, text = front ++ '$' :: back ∧ '"' ∈ back := by
  obtain ⟨first, _, _⟩ := label?_eq_some_iff.mp found
  exact ⟨first.before, _, first.whole, by simp⟩

theorem label?_append (found : label? text = some label) (rest : List Char) :
    label? (text ++ rest) = some label := by
  induction text with
  | nil => cases found
  | cons c text ih =>
      rw [label?_cons] at found
      rw [List.cons_append, label?_cons]
      cases read : assigned? (c :: text) with
      | some value =>
          rw [read] at found
          rw [← List.cons_append, assigned?_append read]
          exact found
      | none =>
          -- The label stands behind this place, and its dollar sign and quotes settle the attempt.
          rw [read] at found
          obtain ⟨front, back, split, closed⟩ := exists_quote_of_label? found
          have failed : assigned? (c :: (text ++ rest)) = none := by
            rw [← read, split]
            simpa using assigned?_append_of_later closed c front rest
          rw [failed]
          exact ih found

end Appending

end RuleFile

open RuleFile Text

/--
The label of a text is the trimmed value of its first complete assignment; without one, there is
none. A search for the pattern of an assignment finds the same. A label stays what it is whatever
text is appended, also if that completes an assignment.
-/
theorem label_of_first_assignment (path content : String) :
    (∀ label : String, (ofText path content).label = some label ↔
      ∃ first : Assignment content.toList,
        first.IsFirst ∧ String.ofList (trim first.value) = label) ∧
    ((ofText path content).label = none ↔ IsEmpty (Assignment content.toList)) ∧
    (ofText path content).label =
      (labelPattern.search content.toList).map (fun value => String.ofList (trim value)) ∧
    ∀ label rest : String, (ofText path content).label = some label →
      (ofText path (content ++ rest)).label = some label := by
  have read (text : String) :
      (ofText path text).label = (label? text.toList).map String.ofList := rfl
  refine ⟨?_, ?_, ?_, ?_⟩
  · intro label
    rw [read, Option.map_eq_some_iff]
    constructor
    · rintro ⟨chars, found, rfl⟩
      obtain ⟨first, isFirst, rfl⟩ := label?_eq_some_iff.mp found
      exact ⟨first, isFirst, rfl⟩
    · rintro ⟨first, isFirst, rfl⟩
      exact ⟨_, first.label?_eq isFirst, rfl⟩
  · rw [read, Option.map_eq_none_iff, label?_eq_none_iff]
  · rw [read, ← map_search_labelPattern, Option.map_map]
    rfl
  · intro label rest found
    rw [read, Option.map_eq_some_iff] at found
    obtain ⟨chars, found, rfl⟩ := found
    rw [read, String.toList_append, label?_append found, Option.map_some]

/--
Assignments that are empty or have no sign are passed over, and one that is not ended yet does not
count once it is.
-/
theorem label_of_first_assignment_sample :
    let content := "$rulesfile=\"\"; $rulesfile 'a'; $rulesfile\n=\u3000\"\tb \"; $rulesfile=\"c"
    (ofText "x.rules" content).label = some "b" ∧
      (∃ first : Assignment content.toList,
        first.IsFirst ∧ String.ofList (trim first.value) = "b") ∧
      (ofText "x.rules" (content ++ "\"")).label = some "b" ∧
      (ofText "x.rules" "$rulesfile = \"c").label = none ∧
      IsEmpty (Assignment "$rulesfile = \"c".toList) := by
  intro content
  have found : (ofText "x.rules" content).label = some "b" := by decide +kernel
  have unended : (ofText "x.rules" "$rulesfile = \"c").label = none := by decide +kernel
  obtain ⟨first, _, _, appended⟩ := label_of_first_assignment "x.rules" content
  exact ⟨found, (first "b").mp found, appended "b" "\"" found, unended,
    (label_of_first_assignment "x.rules" "$rulesfile = \"c").2.1.mp unended⟩

end RuleSurvey
