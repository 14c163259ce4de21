import RuleSurvey.Text.WordChar
import RuleSurvey.Proofs.Text

namespace RuleSurvey

/-!
Patterns that are searched for in a text. A search goes from left to right, and at each place it
tries the ways to read the pattern in their order: the first choice before the second one, and a
longer run before a shorter one. The first way that reaches the end of the pattern counts.

What a pattern can read is said again without that order (`Reads`, `Match`), and the search finds
something exactly where there is a match.
-/

/-- A part of a pattern. -/
inductive Pattern.Part where
  /-- One of some words, tried in their order. -/
  | word (choices : List (List Char))
  | one (accepts : Char → Bool)
  /-- Any number of characters, and rather more than fewer. -/
  | run (accepts : Char → Bool)
  /-- Nothing, at a place that is told by the characters on both sides of it. -/
  | edge (holds : Option Char → Option Char → Bool)

abbrev Pattern := List Pattern.Part

namespace Pattern

open Text

namespace Part

def mark (c : Char) : Part :=
  .word [[c]]

def blanks : Part :=
  .run isBlank

def textStart : Part :=
  .edge fun last _ => last.isNone

def textEnd : Part :=
  .edge fun _ next => next.isNone

def lineStart : Part :=
  .edge fun last _ => last.all (· == '\n')

def lineEnd : Part :=
  .edge fun _ next => next.all (· == '\n')

/-- One side is part of a word, and the other one is not. -/
def wordEdge : Part :=
  .edge fun last next => last.any isWordChar != next.any isWordChar

end Part

def atLeastOne (accepts : Char → Bool) : Pattern :=
  [.one accepts, .run accepts]

/-- A text after some of it is read. -/
structure Cut where
  taken : List Char
  rest : List Char

/-- The runs with which a text starts, the longest one first. -/
def runs (accepts : Char → Bool) : List Char → List Cut
  | [] => [⟨[], []⟩]
  | c :: text =>
      (if accepts c then (runs accepts text).map fun cut => ⟨c :: cut.taken, cut.rest⟩ else []) ++
        [⟨[], c :: text⟩]

/-- The ways to read a part at the start of a text that follows `before`. -/
def Part.cuts (part : Part) (before text : List Char) : List Cut :=
  match part with
  | .word choices => choices.filterMap fun word => (strip? word text).map (⟨word, ·⟩)
  | .one accepts => match text with
    | [] => []
    | c :: rest => if accepts c then [⟨[c], rest⟩] else []
  | .run accepts => runs accepts text
  | .edge holds => if holds before.getLast? text.head? then [⟨[], text⟩] else []

def cuts : Pattern → List Char → List Char → List Cut
  | [], _, text => [⟨[], text⟩]
  | part :: pattern, before, text =>
      (part.cuts before text).flatMap fun first =>
        (cuts pattern (before ++ first.taken) first.rest).map fun second =>
          ⟨first.taken ++ second.taken, second.rest⟩

/-- What a part can read between two texts. -/
def Part.Reads (part : Part) (before taken rest : List Char) : Prop :=
  match part with
  | .word choices => taken ∈ choices
  | .one accepts => ∃ c, accepts c = true ∧ taken = [c]
  | .run accepts => ∀ c ∈ taken, accepts c = true
  | .edge holds => taken = [] ∧ holds before.getLast? rest.head? = true

def Reads : Pattern → List Char → List Char → List Char → Prop
  | [], _, taken, _ => taken = []
  | part :: pattern, before, taken, rest =>
      ∃ first second, taken = first ++ second ∧ part.Reads before first (second ++ rest) ∧
        Reads pattern (before ++ first) second rest

/-- A pattern of which the part in the middle is asked for. -/
structure Capture where
  lead : Pattern
  inner : Pattern
  trail : Pattern

/-- What the middle part reads at the start of a text, for each way to read the whole pattern. -/
def Capture.found (capture : Capture) (before text : List Char) : List (List Char) :=
  (capture.lead.cuts before text).flatMap fun front =>
    (capture.inner.cuts (before ++ front.taken) front.rest).flatMap fun middle =>
      (capture.trail.cuts (before ++ front.taken ++ middle.taken) middle.rest).map fun _ =>
        middle.taken

/-- The same for all places of a text. -/
def Capture.foundFrom (capture : Capture) : List Char → List Char → List (List Char)
  | before, [] => capture.found before []
  | before, c :: text => capture.found before (c :: text) ++ capture.foundFrom (before ++ [c]) text

def Capture.search (capture : Capture) (text : List Char) : Option (List Char) :=
  (capture.foundFrom [] text).head?

/-- An occurrence of a pattern in a text. -/
structure Capture.Match (capture : Capture) (text : List Char) where
  before : List Char
  front : List Char
  middle : List Char
  back : List Char
  after : List Char
  whole : text = before ++ (front ++ (middle ++ (back ++ after)))
  leads : capture.lead.Reads before front (middle ++ (back ++ after))
  fits : capture.inner.Reads (before ++ front) middle (back ++ after)
  trails : capture.trail.Reads (before ++ front ++ middle) back after

section Order

variable {accepts : Char → Bool} {before text name : List Char} {cut : Cut} {pattern : Pattern}
  {part : Part} {capture : Capture}

theorem mem_runs_iff :
    cut ∈ runs accepts text ↔ text = cut.taken ++ cut.rest ∧ ∀ c ∈ cut.taken, accepts c = true := by
  induction text generalizing cut with
  | nil =>
      rw [runs, List.mem_singleton]
      constructor
      · rintro rfl
        simp
      · rintro ⟨split, _⟩
        obtain ⟨noneTaken, noneLeft⟩ := List.append_eq_nil_iff.mp split.symm
        obtain ⟨taken, rest⟩ := cut
        rw [Cut.mk.injEq]
        exact ⟨noneTaken, noneLeft⟩
  | cons c text ih =>
      rw [runs, List.mem_append, List.mem_singleton]
      constructor
      · rintro (longer | rfl)
        · split_ifs at longer with accepted
          · obtain ⟨shorter, member, rfl⟩ := List.mem_map.mp longer
            obtain ⟨split, inside⟩ := ih.mp member
            exact ⟨congrArg (c :: ·) split, List.forall_mem_cons.mpr ⟨accepted, inside⟩⟩
          · cases longer
        · simp
      · rintro ⟨split, inside⟩
        obtain ⟨taken, rest⟩ := cut
        cases taken with
        | nil => exact .inr (congrArg _ split.symm)
        | cons d taken =>
            obtain ⟨rfl, others⟩ := List.cons.inj split
            obtain ⟨accepted, inside⟩ := List.forall_mem_cons.mp inside
            rw [if_pos accepted]
            exact .inl (List.mem_map.mpr ⟨⟨taken, rest⟩, ih.mpr ⟨others, inside⟩, rfl⟩)

/-- Where a run has to be followed by what it does not take, only the longest one is left. -/
theorem flatMap_runs {α : Type} {next : Cut → List α}
    (stuck : ∀ taken c rest, accepts c = true → next ⟨taken, c :: rest⟩ = []) :
    (runs accepts text).flatMap next = next ⟨text.takeWhile accepts, text.dropWhile accepts⟩ := by
  induction text generalizing next with
  | nil => simp [runs]
  | cons c text ih =>
      by_cases accepted : accepts c = true
      · rw [runs, if_pos accepted, List.flatMap_append, List.flatMap_map, List.flatMap_singleton,
          stuck [] c text accepted, List.append_nil, List.takeWhile_cons_of_pos accepted,
          List.dropWhile_cons_of_pos accepted]
        exact ih fun taken => stuck (c :: taken)
      · rw [runs, if_neg accepted, List.nil_append, List.flatMap_singleton,
          List.takeWhile_cons_of_neg accepted, List.dropWhile_cons_of_neg accepted]

theorem Part.mem_cuts_iff :
    cut ∈ part.cuts before text ↔
      text = cut.taken ++ cut.rest ∧ part.Reads before cut.taken cut.rest := by
  obtain ⟨taken, rest⟩ := cut
  cases part with
  | word choices =>
      simp only [cuts, Reads, List.mem_filterMap, Option.map_eq_some_iff, strip?_eq_some_iff,
        Cut.mk.injEq]
      constructor
      · rintro ⟨word, listed, left, split, rfl, rfl⟩
        exact ⟨split, listed⟩
      · rintro ⟨split, listed⟩
        exact ⟨taken, listed, rest, split, rfl, rfl⟩
  | one accepts =>
      cases text with
      | nil => simp +contextual [cuts, Reads]
      | cons d text =>
          simp only [cuts, Reads, List.mem_ite_nil_right, List.mem_singleton, Cut.mk.injEq]
          constructor
          · rintro ⟨accepted, rfl, rfl⟩
            exact ⟨rfl, d, accepted, rfl⟩
          · rintro ⟨split, c, accepted, rfl⟩
            obtain ⟨rfl, rfl⟩ := List.cons.inj split
            exact ⟨accepted, rfl, rfl⟩
  | run accepts => exact mem_runs_iff
  | edge holds =>
      simp only [cuts, Reads, List.mem_ite_nil_right, List.mem_singleton, Cut.mk.injEq]
      constructor
      · rintro ⟨here, rfl, rfl⟩
        exact ⟨rfl, rfl, here⟩
      · rintro ⟨rfl, rfl, here⟩
        exact ⟨here, rfl, rfl⟩

theorem mem_cuts_iff :
    cut ∈ pattern.cuts before text ↔
      text = cut.taken ++ cut.rest ∧ pattern.Reads before cut.taken cut.rest := by
  induction pattern generalizing before text cut with
  | nil =>
      obtain ⟨taken, rest⟩ := cut
      simp only [cuts, Reads, List.mem_singleton, Cut.mk.injEq]
      constructor
      · rintro ⟨rfl, rfl⟩
        exact ⟨rfl, rfl⟩
      · rintro ⟨rfl, rfl⟩
        exact ⟨rfl, rfl⟩
  | cons part pattern ih =>
      simp only [cuts, Reads, List.mem_flatMap, List.mem_map, Part.mem_cuts_iff, ih]
      constructor
      · rintro ⟨first, ⟨split, reads⟩, second, ⟨others, follows⟩, rfl⟩
        refine ⟨?_, first.taken, second.taken, rfl, others ▸ reads, follows⟩
        rw [split, others, List.append_assoc]
      · rintro ⟨split, first, second, cutTaken, reads, follows⟩
        refine ⟨⟨first, second ++ cut.rest⟩, ⟨?_, reads⟩, ⟨second, cut.rest⟩, ⟨rfl, follows⟩, ?_⟩
        · rw [split, cutTaken, List.append_assoc]
        · rw [← cutTaken]

theorem cuts_atLeastOne_cons (accepts : Char → Bool) {c : Char} (accepted : accepts c = true) :
    (atLeastOne accepts).cuts before (c :: text) =
      (runs accepts text).map fun cut => ⟨c :: cut.taken, cut.rest⟩ := by
  simp [atLeastOne, cuts, Part.cuts, accepted]

theorem cuts_edge {holds : Option Char → Option Char → Bool} :
    cuts [.edge holds] before text =
      if holds before.getLast? text.head? then [⟨[], text⟩] else [] := by
  rw [cuts, Part.cuts]
  split_ifs <;> rfl

section Behind

variable {α : Type} {next : List Char → List α} {word : List Char}

theorem flatMap_cuts_cons :
    (cuts (part :: pattern) before text).flatMap (fun cut => next cut.rest) =
      (part.cuts before text).flatMap fun first =>
        (pattern.cuts (before ++ first.taken) first.rest).flatMap fun cut => next cut.rest := by
  simp only [cuts, List.flatMap_assoc, List.flatMap_map]

theorem flatMap_cuts_edge {holds : Option Char → Option Char → Bool} :
    (cuts (.edge holds :: pattern) before text).flatMap (fun cut => next cut.rest) =
      if holds before.getLast? text.head? then
        (pattern.cuts before text).flatMap fun cut => next cut.rest
      else [] := by
  rw [flatMap_cuts_cons, Part.cuts]
  split_ifs <;> simp

theorem flatMap_cuts_word :
    (cuts (.word [word] :: pattern) before text).flatMap (fun cut => next cut.rest) =
      (strip? word text).toList.flatMap fun rest =>
        (pattern.cuts (before ++ word) rest).flatMap fun cut => next cut.rest := by
  rw [flatMap_cuts_cons, Part.cuts, List.filterMap_cons]
  cases strip? word text <;> simp

theorem flatMap_cuts_run :
    (cuts [.run accepts] before text).flatMap (fun cut => next cut.rest) =
      (runs accepts text).flatMap fun cut => next cut.rest := by
  simp [Part.cuts, cuts]

/-- A run in front of a word with which it cannot go on is as long as it can be. -/
theorem flatMap_cuts_run_word {c : Char} (refused : accepts c = false) :
    (cuts (.run accepts :: .word [c :: word] :: pattern) before text).flatMap
        (fun cut => next cut.rest) =
      (strip? (c :: word) (text.dropWhile accepts)).toList.flatMap fun rest =>
        (pattern.cuts (before ++ text.takeWhile accepts ++ c :: word) rest).flatMap
          fun cut => next cut.rest := by
  rw [flatMap_cuts_cons, Part.cuts]
  simp only [flatMap_cuts_word]
  apply flatMap_runs
  intro taken d rest accepted
  have different : c ≠ d := by
    rintro rfl
    simp [accepted] at refused
  simp [strip?, different]

end Behind

namespace Capture

theorem mem_found_iff :
    name ∈ capture.found before text ↔
      ∃ front back after, text = front ++ (name ++ (back ++ after)) ∧
        capture.lead.Reads before front (name ++ (back ++ after)) ∧
        capture.inner.Reads (before ++ front) name (back ++ after) ∧
        capture.trail.Reads (before ++ front ++ name) back after := by
  simp only [found, List.mem_flatMap, List.mem_map, mem_cuts_iff]
  constructor
  · rintro ⟨front, ⟨split, leads⟩, middle, ⟨within, fits⟩, back, ⟨behind, trails⟩, rfl⟩
    rw [behind] at within fits
    rw [within] at split leads
    exact ⟨front.taken, back.taken, back.rest, split, leads, fits, trails⟩
  · rintro ⟨front, back, after, split, leads, fits, trails⟩
    exact ⟨⟨front, _⟩, ⟨split, leads⟩, ⟨name, _⟩, ⟨rfl, fits⟩, ⟨back, after⟩, ⟨rfl, trails⟩, rfl⟩

theorem mem_foundFrom_iff :
    name ∈ capture.foundFrom before text ↔
      ∃ skipped rest, text = skipped ++ rest ∧ name ∈ capture.found (before ++ skipped) rest := by
  induction text generalizing before with
  | nil =>
      rw [foundFrom]
      constructor
      · intro here
        exact ⟨[], [], rfl, by rwa [List.append_nil]⟩
      · rintro ⟨skipped, rest, split, there⟩
        obtain ⟨rfl, rfl⟩ := List.append_eq_nil_iff.mp split.symm
        rwa [List.append_nil] at there
  | cons c text ih =>
      rw [foundFrom, List.mem_append, ih]
      constructor
      · rintro (here | ⟨skipped, rest, rfl, there⟩)
        · exact ⟨[], c :: text, rfl, by rwa [List.append_nil]⟩
        · exact ⟨c :: skipped, rest, rfl, by rwa [← List.append_cons] at there⟩
      · rintro ⟨skipped, rest, split, there⟩
        cases skipped with
        | nil =>
            rw [List.nil_append] at split
            rw [List.append_nil, ← split] at there
            exact .inl there
        | cons d skipped =>
            obtain ⟨rfl, others⟩ := List.cons.inj split
            exact .inr ⟨skipped, rest, others, by rwa [← List.append_cons]⟩

theorem exists_match_iff :
    (∃ occurrence : capture.Match text, occurrence.middle = name) ↔
      name ∈ capture.foundFrom [] text := by
  simp only [mem_foundFrom_iff, mem_found_iff, List.nil_append]
  constructor
  · rintro ⟨⟨before, front, middle, back, after, whole, leads, fits, trails⟩, rfl⟩
    exact ⟨before, _, whole, front, back, after, rfl, leads, fits, trails⟩
  · rintro ⟨before, _, whole, front, back, after, rfl, leads, fits, trails⟩
    exact ⟨⟨before, front, name, back, after, whole, leads, fits, trails⟩, rfl⟩

/--
Where every occurrence of a pattern gives the same answer, a search has that answer, however it is
ordered.
-/
theorem map_search_eq {α : Type} {answer : List Char → α} {expected : Option α}
    (sound : ∀ occurrence : capture.Match text, expected = some (answer occurrence.middle))
    (complete : expected ≠ none → Nonempty (capture.Match text)) :
    (capture.search text).map answer = expected := by
  cases searched : capture.search text with
  | some name =>
      obtain ⟨occurrence, rfl⟩ := exists_match_iff.mpr (List.mem_of_mem_head? searched)
      exact (sound occurrence).symm
  | none =>
      by_contra differs
      obtain ⟨occurrence⟩ := complete (Ne.symm differs)
      have member := exists_match_iff.mp ⟨occurrence, rfl⟩
      rw [List.head?_eq_none_iff.mp searched] at member
      cases member

end Capture

end Order

section Parts

variable {accepts : Char → Bool} {holds : Option Char → Option Char → Bool} {c : Char}
  {before taken rest : List Char} {pattern : Pattern}

theorem reads_nil : Reads [] before taken rest ↔ taken = [] :=
  Iff.rfl

theorem reads_word_cons {choices : List (List Char)} :
    Reads (.word choices :: pattern) before taken rest ↔
      ∃ word ∈ choices, ∃ others, taken = word ++ others ∧
        pattern.Reads (before ++ word) others rest := by
  simp only [Reads, Part.Reads]
  constructor
  · rintro ⟨word, others, split, listed, follows⟩
    exact ⟨word, listed, others, split, follows⟩
  · rintro ⟨word, listed, others, split, follows⟩
    exact ⟨word, others, split, listed, follows⟩

theorem reads_mark_cons :
    Reads (.mark c :: pattern) before taken rest ↔
      ∃ others, taken = c :: others ∧ pattern.Reads (before ++ [c]) others rest := by
  simp [Part.mark, reads_word_cons]

theorem reads_blanks_cons :
    Reads (.blanks :: pattern) before taken rest ↔
      ∃ (run : Blanks) (others : List Char), taken = run.val ++ others ∧
        pattern.Reads (before ++ run.val) others rest := by
  simp only [Reads, Part.blanks, Part.Reads]
  constructor
  · rintro ⟨run, others, split, blank, follows⟩
    exact ⟨⟨run, blank⟩, others, split, follows⟩
  · rintro ⟨run, others, split, follows⟩
    exact ⟨run.val, others, split, run.property, follows⟩

theorem reads_edge_cons :
    Reads (.edge holds :: pattern) before taken rest ↔
      holds before.getLast? (taken ++ rest).head? = true ∧ pattern.Reads before taken rest := by
  simp only [Reads, Part.Reads]
  constructor
  · rintro ⟨_, others, rfl, ⟨rfl, here⟩, follows⟩
    exact ⟨here, by simpa using follows⟩
  · rintro ⟨here, follows⟩
    exact ⟨[], taken, rfl, ⟨rfl, here⟩, by simpa using follows⟩

theorem reads_textStart_cons :
    Reads (.textStart :: pattern) before taken rest ↔
      before = [] ∧ pattern.Reads [] taken rest := by
  rw [Part.textStart, reads_edge_cons, Option.isNone_iff_eq_none, List.getLast?_eq_none_iff]
  refine and_congr_right ?_
  rintro rfl
  rfl

theorem reads_textEnd : Reads [.textEnd] before taken rest ↔ taken = [] ∧ rest = [] := by
  rw [Part.textEnd, reads_edge_cons, reads_nil, Option.isNone_iff_eq_none, List.head?_eq_none_iff,
    List.append_eq_nil_iff, and_assoc, and_comm (b := taken = []), and_self_left]

theorem reads_atLeastOne :
    (atLeastOne accepts).Reads before taken rest ↔
      taken ≠ [] ∧ ∀ c ∈ taken, accepts c = true := by
  simp only [atLeastOne, Reads, Part.Reads]
  constructor
  · rintro ⟨_, _, rfl, ⟨c, accepted, rfl⟩, run, _, rfl, inside, rfl⟩
    rw [List.append_nil, List.singleton_append]
    exact ⟨List.cons_ne_nil c run, List.forall_mem_cons.mpr ⟨accepted, inside⟩⟩
  · rintro ⟨nonempty, inside⟩
    obtain ⟨c, run, rfl⟩ := List.exists_cons_of_ne_nil nonempty
    obtain ⟨accepted, others⟩ := List.forall_mem_cons.mp inside
    exact ⟨[c], run, rfl, ⟨c, accepted, rfl⟩, run, [], by simp, others, rfl⟩

end Parts

end Pattern

end RuleSurvey
