import RuleSurvey.Proofs.Pattern
import RuleSurvey.Proofs.RuleFile
import Mathlib.Order.WellFounded

namespace RuleSurvey

namespace RuleFile

open Text

/-!
The declared name of a rule file, said once as a search and once as a place in the text. The search
is for `# Name:` at the start of a line, with a name behind it that ends with its line. Both runs of
blanks in the pattern may cross lines, and the second one gives back what the name needs. Yet the
first heading of the text settles the answer, even if it has no name.
-/

/-- The mark and the word of a heading, at the start of a line. -/
def headingStart : Pattern :=
  [.lineStart, .mark '#', .blanks, .word ["Name:".toList], .blanks]

def namePattern : Pattern.Capture where
  lead := headingStart
  inner := Pattern.atLeastOne (· != '\n')
  trail := [.lineEnd]

/-- A heading somewhere in a text, in its parts; `space` is all blanks behind the colon. -/
structure Heading (text : List Char) where
  before : List Char
  gap : Blanks
  space : Blanks
  rest : List Char
  starts : ∀ c ∈ before.getLast?, c = '\n'
  ends : ∀ c ∈ rest.head?, isBlank c = false
  whole : text = before ++ '#' :: (gap.val ++ ("Name:".toList ++ (space.val ++ rest)))

/-- No heading starts further ahead. -/
def Heading.IsFirst {text : List Char} (heading : Heading text) : Prop :=
  ∀ other : Heading text, heading.before.length ≤ other.before.length

def startsLine (before : List Char) : Bool :=
  before.getLast?.all (· == '\n')

/-- The rest of a line, if there is any. -/
def restOfLine (text : List Char) : List (List Char) :=
  match text.takeWhile (· != '\n') with
  | [] => []
  | line => [line]

section Search

variable {before text : List Char}

theorem startsLine_concat (before : List Char) (c : Char) :
    startsLine (before ++ [c]) = (c == '\n') := by
  simp [startsLine]

theorem restOfLine_cons {c : Char} (inLine : c ≠ '\n') (text : List Char) :
    restOfLine (c :: text) = [c :: text.takeWhile (· != '\n')] := by
  simp [restOfLine, inLine]

theorem flatMap_headingStart {α : Type} (next : List Char → List α) :
    (headingStart.cuts before text).flatMap (fun cut => next cut.rest) =
      if startsLine before then
        (pastHeading? text).toList.flatMap fun after =>
          (Pattern.runs isBlank after).flatMap fun space => next space.rest
      else [] := by
  -- Only the longest run of blanks behind the mark ends where the word can follow.
  have behindMark : ∀ comment : List Char,
      (Pattern.cuts [.blanks, .word ["Name:".toList], .blanks] (before ++ ['#']) comment).flatMap
          (fun cut => next cut.rest) =
        (strip? "Name:".toList (trimStart comment)).toList.flatMap fun after =>
          (Pattern.runs isBlank after).flatMap fun space => next space.rest := by
    intro comment
    have named : "Name:".toList = 'N' :: "ame:".toList := rfl
    rw [named, Pattern.Part.blanks, Pattern.flatMap_cuts_run_word (by decide), trimStart]
    simp only [Pattern.flatMap_cuts_run]
  rw [headingStart, Pattern.Part.lineStart, Pattern.flatMap_cuts_edge, ← startsLine,
    Pattern.Part.mark, Pattern.flatMap_cuts_word]
  simp only [behindMark, pastHeading?]
  cases strip? ['#'] text with
  | none => rfl
  | some comment =>
      rw [Option.toList_some, List.flatMap_singleton]
      rfl

/-- A name that ends with its line is all that is left of the line. -/
theorem flatMap_name (before text : List Char) :
    ((Pattern.atLeastOne (· != '\n')).cuts before text).flatMap (fun middle =>
      (Pattern.cuts [.lineEnd] (before ++ middle.taken) middle.rest).map fun _ => middle.taken) =
        restOfLine text := by
  cases text with
  | nil => rfl
  | cons c text =>
      by_cases inLine : c = '\n'
      · subst inLine
        rfl
      · have kept : (c != '\n') = true := bne_iff_ne.mpr inLine
        have ends : (text.dropWhile (· != '\n')).head?.all (· == '\n') = true := by
          have first := List.head?_dropWhile_not (· != '\n') text
          cases stopped : (text.dropWhile (· != '\n')).head? with
          | none => rfl
          | some d => simpa [stopped] using first
        rw [restOfLine_cons inLine, Pattern.cuts_atLeastOne_cons (· != '\n') kept,
          List.flatMap_map]
        simp only [Pattern.Part.lineEnd, Pattern.cuts_edge]
        refine (Pattern.flatMap_runs ?_).trans ?_
        · intro taken d rest inside
          have different : d ≠ '\n' := bne_iff_ne.mp inside
          simp [different]
        · rw [if_pos ends, List.map_singleton]

theorem found_namePattern (before text : List Char) :
    namePattern.found before text =
      if startsLine before then
        (pastHeading? text).toList.flatMap fun after =>
          (Pattern.runs isBlank after).flatMap fun space => restOfLine space.rest
      else [] := by
  rw [← flatMap_headingStart, Pattern.Capture.found, namePattern]
  simp only [flatMap_name]

theorem headingName?_blanks (run : Blanks) :
    headingName? run.val = if run.val.all (· == '\n') then none else some [] := by
  have empty : trimStart run.val = [] := trimStart_eq_nil_iff.mpr run.property
  rw [headingName?, empty]

theorem headingName?_cons_of_blank {c : Char} (blank : isBlank c = true) (text : List Char) :
    headingName? (c :: text) = (headingName? text).or (if c == '\n' then none else some []) := by
  have skipped : trimStart (c :: text) = trimStart text := List.dropWhile_cons_of_pos blank
  by_cases empty : trimStart text = []
  · have inside := trimStart_eq_nil_iff.mp empty
    have alone := headingName?_blanks ⟨text, inside⟩
    have wider := headingName?_blanks ⟨c :: text, List.forall_mem_cons.mpr ⟨blank, inside⟩⟩
    rw [alone, wider, List.all_cons]
    cases c == '\n' <;> cases text.all (· == '\n') <;> rfl
  · rw [headingName?_of_ne_nil (skipped ▸ empty), headingName?_of_ne_nil empty, skipped,
      Option.some_or]

/--
The blanks behind the colon are tried from the longest run on. If that leaves no name, blanks are
given back, and the name is the rest of a line that is blank.
-/
theorem headingName?_eq_map (text : List Char) :
    headingName? text =
      ((Pattern.runs isBlank text).flatMap fun space => restOfLine space.rest).head?.map trim := by
  induction text with
  | nil => rfl
  | cons c text ih =>
      by_cases blank : isBlank c = true
      · rw [headingName?_cons_of_blank blank, ih, Pattern.runs, if_pos blank, List.flatMap_append,
          List.flatMap_map, List.flatMap_singleton, List.head?_append, Option.map_or]
        by_cases feed : c = '\n'
        · subst feed
          rfl
        · cases named : ((Pattern.runs isBlank text).flatMap fun space =>
              restOfLine space.rest).head? with
          | some name => rfl
          | none =>
              -- Only line feeds follow, so the line that starts here has no other character.
              rw [named] at ih
              have feeds := headingName?_eq_none_iff.mp ih
              have empty : text.takeWhile (· != '\n') = [] := by
                cases text with
                | nil => rfl
                | cons d text => simp [feeds d (.head _)]
              have single : trim [c] = [] := by simp [trim, trimStart, trimEnd, blank]
              rw [restOfLine_cons feed, empty, beq_false_of_ne feed, List.head?_cons,
                Option.map_some, single]
              rfl
      · have inLine : c ≠ '\n' := by
          rintro rfl
          exact blank (by decide)
        have kept : trimStart (c :: text) = c :: text := trimStart_cons (by simpa using blank)
        rw [headingName?_of_ne_nil (by simp [kept]), kept, Pattern.runs, if_neg blank,
          List.nil_append, List.flatMap_singleton, restOfLine_cons inLine]
        simp [inLine]

theorem declaredNameFrom?_cons (lineStart : Bool) (c : Char) (text : List Char) :
    declaredNameFrom? lineStart (c :: text) =
      (if lineStart then headed? (c :: text) else none).or
        (declaredNameFrom? (c == '\n') text) := by
  cases lineStart with
  | false => rfl
  | true => exact declaredName?_cons c text

theorem head?_found_namePattern (before text : List Char) :
    (namePattern.found before text).head?.map trim =
      if startsLine before then headed? text else none := by
  rw [found_namePattern]
  split_ifs with starts
  · rw [headed?]
    cases pastHeading? text with
    | none => rfl
    | some after =>
        rw [Option.toList_some, List.flatMap_singleton, Option.bind_some, headingName?_eq_map]
  · rfl

theorem head?_foundFrom_namePattern (before text : List Char) :
    (namePattern.foundFrom before text).head?.map trim =
      declaredNameFrom? (startsLine before) text := by
  induction text generalizing before with
  | nil =>
      rw [Pattern.Capture.foundFrom, head?_found_namePattern]
      exact ite_self none
  | cons c text ih =>
      rw [Pattern.Capture.foundFrom, List.head?_append, Option.map_or, head?_found_namePattern, ih,
        startsLine_concat, declaredNameFrom?_cons]

theorem map_search_namePattern (text : List Char) :
    (namePattern.search text).map trim = declaredName? text :=
  head?_foundFrom_namePattern [] text

-- The last blank that is no line feed is given back for the name.
example : namePattern.search "#Name:\n \t\n\n".toList = some ['\t'] := by
  decide +kernel

end Search

section FirstHeading

variable {before front back text : List Char}

theorem startsLine_iff : startsLine before = true ↔ ∀ c ∈ before.getLast?, c = '\n' := by
  cases last : before.getLast? <;> simp [startsLine, last]

/-- Nothing is found ahead of the first heading. -/
theorem declaredNameFrom?_append (unheaded : ∀ skipped c rest, front = skipped ++ c :: rest →
      startsLine (before ++ skipped) = true → headed? (c :: rest ++ back) = none) :
    declaredNameFrom? (startsLine before) (front ++ back) =
      declaredNameFrom? (startsLine (before ++ front)) back := by
  induction front generalizing before with
  | nil => rw [List.nil_append, List.append_nil]
  | cons c front ih =>
      have here : (if startsLine before then headed? (c :: front ++ back) else none) = none := by
        split_ifs with starts
        · exact unheaded [] c front rfl (by rwa [List.append_nil])
        · rfl
      have onwards := @ih (before ++ [c]) fun skipped d rest split starts =>
        unheaded (c :: skipped) d rest (congrArg (c :: ·) split) (by rwa [List.append_cons])
      rw [List.cons_append, declaredNameFrom?_cons, ← List.cons_append, here, Option.none_or,
        ← startsLine_concat before, onwards, ← List.append_cons]

theorem declaredNameFrom?_of_unmarked (lineStart : Bool) (unmarked : '#' ∉ text) :
    declaredNameFrom? lineStart text = none := by
  induction text generalizing lineStart with
  | nil => rfl
  | cons c text ih =>
      rw [List.mem_cons, not_or] at unmarked
      obtain ⟨first, others⟩ := unmarked
      rw [declaredNameFrom?_cons, headed?_of_ne (Ne.symm first), ite_self, Option.none_or,
        ih _ others]

theorem exists_heading {after : List Char} (split : text = front ++ back)
    (starts : startsLine front = true) (headed : pastHeading? back = some after) :
    ∃ heading : Heading text, heading.before = front := by
  obtain ⟨gap, whole⟩ := pastHeading?_eq_some_iff.mp headed
  obtain ⟨space, behind⟩ := exists_append_trimStart after
  rw [behind] at whole
  exact ⟨⟨front, gap, space, trimStart after, startsLine_iff.mp starts,
    fun _ first => isBlank_of_head?_trimStart first, whole ▸ split⟩, rfl⟩

theorem headed?_eq_none (absent : ∀ heading : Heading text, heading.before ≠ front)
    (split : text = front ++ back) (starts : startsLine front = true) : headed? back = none := by
  cases headed : pastHeading? back with
  | none => rw [headed?, headed, Option.bind_none]
  | some after =>
      obtain ⟨heading, same⟩ := exists_heading split starts headed
      exact absurd same (absent heading)

theorem declaredName?_of_isEmpty (unheaded : IsEmpty (Heading text)) :
    declaredName? text = none := by
  have passed : declaredNameFrom? (startsLine []) (text ++ []) =
      declaredNameFrom? (startsLine ([] ++ text)) [] := by
    apply declaredNameFrom?_append
    intro skipped c rest split starts
    exact headed?_eq_none (fun heading => unheaded.elim heading) (by simpa using split) starts
  rw [List.append_nil] at passed
  exact passed

/-- The first heading settles the name: behind one that has none, there is no other. -/
theorem Heading.declaredName?_eq (heading : Heading text) (first : heading.IsFirst) :
    declaredName? text = headingName? (heading.space.val ++ heading.rest) := by
  obtain ⟨before, gap, space, rest, starts, ends, whole⟩ := heading
  let body := gap.val ++ ("Name:".toList ++ (space.val ++ rest))
  have passed : declaredNameFrom? (startsLine []) (before ++ '#' :: body) =
      declaredNameFrom? (startsLine ([] ++ before)) ('#' :: body) := by
    apply declaredNameFrom?_append
    intro skipped c between split lineStart
    have ahead : text = skipped ++ (c :: between ++ '#' :: body) :=
      calc text
        _ = before ++ '#' :: body := whole
        _ = skipped ++ (c :: between ++ '#' :: body) := by rw [split, List.append_assoc]
    refine headed?_eq_none (fun earlier same => ?_) ahead lineStart
    have shorter : before.length ≤ earlier.before.length := first earlier
    rw [same, split, List.length_append, List.length_cons] at shorter
    omega
  have here : declaredName? text = (headed? ('#' :: body)).or (declaredNameFrom? false body) := by
    rw [List.nil_append, startsLine_iff.mpr starts, declaredNameFrom?_cons, if_pos rfl] at passed
    rw [whole]
    exact passed
  rw [here, headed?_heading]
  cases named : headingName? (space.val ++ rest) with
  | some name => rfl
  | none =>
      have feeds := headingName?_eq_none_iff.mp named
      have unmarked : '#' ∉ body := by
        have inGap : '#' ∉ gap.val := fun member => absurd (gap.property _ member) (by decide)
        have behind : '#' ∉ space.val ++ rest := fun member => absurd (feeds _ member) (by decide)
        rw [List.mem_append, List.mem_append, not_or, not_or]
        exact ⟨inGap, by decide, behind⟩
      rw [declaredNameFrom?_of_unmarked false unmarked]
      rfl

theorem exists_isFirst (headed : Nonempty (Heading text)) :
    ∃ first : Heading text, first.IsFirst := by
  let place (heading : Heading text) : Nat := heading.before.length
  exact ⟨Function.argmin place, fun other => Function.argmin_le place other⟩

end FirstHeading

end RuleFile

open RuleFile Text

/--
The declared name of a text is what a search for the pattern of a heading finds, trimmed. It is
settled by the first place where a line starts with a heading: behind all blanks that follow it, the
name is the rest of the line. If only blanks follow, the name is empty, and there is none if they
are all line feeds. Without a heading, there is no name.
-/
theorem declaredName_of_first_heading (path content : String) :
    (ofText path content).declaredName =
        (namePattern.search content.toList).map (fun name => String.ofList (trim name)) ∧
      (IsEmpty (Heading content.toList) → (ofText path content).declaredName = none) ∧
      (Nonempty (Heading content.toList) → ∃ first : Heading content.toList, first.IsFirst) ∧
      ∀ heading : Heading content.toList, heading.IsFirst →
        (heading.rest ≠ [] → (ofText path content).declaredName =
          some (String.ofList (trim (heading.rest.takeWhile (· != '\n'))))) ∧
        (heading.rest = [] → (∃ c ∈ heading.space.val, c ≠ '\n') →
          (ofText path content).declaredName = some "") ∧
        (heading.rest = [] → (∀ c ∈ heading.space.val, c = '\n') →
          (ofText path content).declaredName = none) := by
  have read : (ofText path content).declaredName =
      (declaredName? content.toList).map String.ofList := rfl
  refine ⟨?_, ?_, exists_isFirst, ?_⟩
  · rw [read, ← map_search_namePattern, Option.map_map]
    rfl
  · intro unheaded
    rw [read, declaredName?_of_isEmpty unheaded, Option.map_none]
  · intro heading first
    rw [read, heading.declaredName?_eq first]
    refine ⟨?_, ?_, ?_⟩
    · intro named
      obtain ⟨c, rest, start⟩ := List.exists_cons_of_ne_nil named
      have solid : isBlank c = false := heading.ends c (by simp [start])
      have skipped : trimStart (heading.space.val ++ heading.rest) = heading.rest := by
        rw [trimStart_append, start, trimStart_cons solid]
      rw [headingName?_of_ne_nil (skipped.symm ▸ named), skipped, Option.map_some]
    · rintro ended ⟨c, member, different⟩
      have unfed : heading.space.val.all (· == '\n') = false :=
        List.all_eq_false.mpr ⟨c, member, by simpa using different⟩
      rw [ended, List.append_nil, headingName?_blanks, unfed]
      rfl
    · intro ended feeds
      have fed : heading.space.val.all (· == '\n') = true := by simpa using feeds
      rw [ended, List.append_nil, headingName?_blanks, fed]
      rfl

/--
A heading may be spread over lines, and its name may look like a heading. One with only blanks
behind it has an empty name, one with only line feeds has none, and so has a text without a heading.
-/
theorem declaredName_of_first_heading_sample :
    (ofText "x.rules" "#\n\u3000Name:\t\n# Name: b \r\n# Name: c").declaredName =
        some "# Name: b" ∧
      (ofText "x.rules" "# Name:\n \n").declaredName = some "" ∧
      (ofText "x.rules" "#Name:\n\n").declaredName = none ∧
      (ofText "x.rules" "Name: a").declaredName = none := by
  refine ⟨?_, ?_, ?_, ?_⟩
  · have solid : ∀ c ∈ "# Name: b \r\n# Name: c".toList.head?, isBlank c = false := by
      intro c first
      obtain rfl : '#' = c := by simpa using first
      decide
    let heading : Heading "#\n\u3000Name:\t\n# Name: b \r\n# Name: c".toList :=
      { before := [], gap := ⟨"\n\u3000".toList, List.all_eq_true.mp (by decide +kernel)⟩
        space := ⟨"\t\n".toList, List.all_eq_true.mp (by decide +kernel)⟩
        rest := "# Name: b \r\n# Name: c".toList, starts := by simp, ends := solid
        whole := by decide +kernel }
    have named := (declaredName_of_first_heading "x.rules" _).2.2.2 heading fun _ => Nat.zero_le _
    exact named.1 (by simp [heading])
  · let heading : Heading "# Name:\n \n".toList :=
      { before := [], gap := ⟨" ".toList, List.all_eq_true.mp (by decide +kernel)⟩
        space := ⟨"\n \n".toList, List.all_eq_true.mp (by decide +kernel)⟩, rest := []
        starts := by simp, ends := by simp, whole := by decide +kernel }
    have named := (declaredName_of_first_heading "x.rules" _).2.2.2 heading fun _ => Nat.zero_le _
    exact named.2.1 rfl ⟨' ', by simp [heading], by decide⟩
  · let heading : Heading "#Name:\n\n".toList :=
      { before := [], gap := ⟨[], by simp⟩
        space := ⟨"\n\n".toList, List.all_eq_true.mp (by decide +kernel)⟩, rest := []
        starts := by simp, ends := by simp, whole := by decide +kernel }
    have named := (declaredName_of_first_heading "x.rules" _).2.2.2 heading fun _ => Nat.zero_le _
    exact named.2.2 rfl (by simp [heading])
  · apply (declaredName_of_first_heading "x.rules" _).2.1
    constructor
    intro heading
    have marked : '#' ∈ "Name: a".toList := heading.whole ▸ List.mem_append_right _ (.head _)
    exact absurd marked (by decide)

end RuleSurvey
