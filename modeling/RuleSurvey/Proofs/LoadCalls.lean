import RuleSurvey.Manifest
import RuleSurvey.Proofs.Dispatch
import RuleSurvey.Proofs.DispatchPattern

namespace RuleSurvey

/-!
Load manifests and dispatch files have the same calls. A line of a load manifest is a call and
nothing else, and a dispatch file reads the same name from it. So the calls of a load manifest are
among the functions of a dispatch file that has its lines in a block.
-/

namespace Text

/-- No range of blanks meets a range of word characters. -/
theorem blanks_apart_from_wordCharacters :
    blanks.all (fun blank => wordCharacters.all fun word =>
      word.2 < blank.1 || blank.2 < word.1) = true := by
  decide +kernel

theorem isWordChar_of_isBlank {c : Char} (blank : isBlank c = true) : isWordChar c = false := by
  rw [← Bool.not_eq_true]
  intro word
  obtain ⟨gap, listed, low, high⟩ := CharTable.has_iff.mp blank
  obtain ⟨range, member, lower, upper⟩ := CharTable.has_iff.mp word
  have fromGap := List.all_eq_true.mp blanks_apart_from_wordCharacters gap listed
  have apart := List.all_eq_true.mp fromGap range member
  rw [Bool.or_eq_true, decide_eq_true_eq, decide_eq_true_eq] at apart
  omega

end Text

namespace LoadCall

open Text

/-- The pattern of a whole line, where no word may come before the call. -/
def pattern : Pattern.Capture where
  lead := [.textStart, .blanks]
  inner := Pattern.atLeastOne isNameChar
  trail := Dispatch.callEnd

/-- A line that is a call and nothing else, in its parts. -/
structure Bare (line : List Char) where
  lead : Blanks
  name : List Char
  gap : Blanks
  inner : Blanks
  space : Blanks
  trail : Blanks
  nonempty : name ≠ []
  named : ∀ c ∈ name, isNameChar c = true
  whole : line = lead.val ++ (name ++ (gap.val ++ '(' ::
    (inner.val ++ ')' :: (space.val ++ ';' :: trail.val))))

section

variable {line : List Char} {name : String}

/-- A word cannot reach over the blanks in front of a call. -/
def Bare.calling (bare : Bare line) : Dispatch.Calling line where
  before := bare.lead.val
  name := bare.name
  gap := bare.gap
  inner := bare.inner
  space := bare.space
  trail := bare.trail
  nonempty := bare.nonempty
  named := bare.named
  startsWord := fun c last =>
    isWordChar_of_isBlank (bare.lead.property c (List.mem_of_getLast? last))
  whole := bare.whole

theorem Bare.of_ofLine? (read : ofLine? line = some name) :
    ∃ bare : Bare line, String.ofList bare.name = name := by
  simp only [ofLine?, Option.bind_eq_bind, Option.bind_eq_some_iff] at read
  obtain ⟨opened, atOpen, closed, atClose, ended, atEnd, accepted⟩ := read
  obtain ⟨proper, same⟩ := Option.ite_none_left_eq_some.mp accepted
  rw [Bool.or_eq_true, not_or, Bool.not_eq_true', Bool.not_eq_false, List.all_eq_true] at proper
  obtain ⟨nonempty, blank⟩ := proper
  obtain ⟨lead, whole⟩ := exists_append_trimStart line
  obtain ⟨gap, behindName⟩ := (pastMark?_eq_some_iff (by decide)).mp atOpen
  obtain ⟨inner, behindOpen⟩ := (pastMark?_eq_some_iff (by decide)).mp atClose
  obtain ⟨space, behindClose⟩ := (pastMark?_eq_some_iff (by decide)).mp atEnd
  refine ⟨⟨lead, (trimStart line).takeWhile isNameChar, gap, inner, space, ⟨ended, blank⟩,
    ?_, ?_, ?_⟩, Option.some.inj same⟩
  · simpa using nonempty
  · exact fun c member => List.mem_takeWhile_imp member
  · rw [← behindClose, ← behindOpen, ← behindName, List.takeWhile_append_dropWhile]
    exact whole

theorem Bare.ofLine?_eq (bare : Bare line) : ofLine? line = some (String.ofList bare.name) := by
  obtain ⟨lead, name, gap, inner, space, trail, nonempty, named, whole⟩ := bare
  let ended := inner.val ++ ')' :: (space.val ++ ';' :: trail.val)
  have stops : ∀ c ∈ (gap.val ++ '(' :: ended).head?, isWordChar c = false := by
    intro c first
    obtain ⟨_ | ⟨blank, others⟩, allBlank⟩ := gap
    · obtain rfl : '(' = c := by simpa using first
      decide +kernel
    · obtain rfl : blank = c := by simpa using first
      exact isWordChar_of_isBlank (allBlank blank (.head _))
  have started : trimStart line = name ++ (gap.val ++ '(' :: ended) := by
    obtain ⟨first, others, rfl⟩ := List.exists_cons_of_ne_nil nonempty
    rw [whole, trimStart_append]
    exact trimStart_cons (Dispatch.isBlank_of_isNameChar (named first (.head _)))
  obtain ⟨taken, left⟩ := Dispatch.takeWhile_isNameChar named stops
  simp only [ofLine?, started, taken, left, Option.bind_eq_bind, Option.bind_eq_some_iff]
  refine ⟨ended, ?_, space.val ++ ';' :: trail.val, ?_, trail.val, ?_, ?_⟩
  · exact (pastMark?_eq_some_iff (by decide)).mpr ⟨gap, rfl⟩
  · exact (pastMark?_eq_some_iff (by decide)).mpr ⟨inner, rfl⟩
  · exact (pastMark?_eq_some_iff (by decide)).mpr ⟨space, rfl⟩
  · have blank : trail.val.all isBlank = true := List.all_eq_true.mpr trail.property
    simp [nonempty, blank]

theorem reads_lead_iff {before taken rest : List Char} :
    pattern.lead.Reads before taken rest ↔ before = [] ∧ ∃ lead : Blanks, taken = lead.val := by
  simp only [pattern, Pattern.reads_textStart_cons, Pattern.reads_blanks_cons, Pattern.reads_nil]
  simp

theorem ofLine?_of_match (occurrence : pattern.Match line) :
    ofLine? line = some (String.ofList occurrence.middle) := by
  obtain ⟨before, front, middle, back, after, whole, leads, fits, trails⟩ := occurrence
  obtain ⟨nonempty, named⟩ := Pattern.reads_atLeastOne.mp fits
  obtain ⟨rfl, lead, rfl⟩ := reads_lead_iff.mp leads
  obtain ⟨rfl, gap, inner, space, trail, rfl⟩ := Dispatch.reads_callEnd_iff.mp trails
  let bare : Bare line :=
    ⟨lead, middle, gap, inner, space, trail, nonempty, named, by simpa using whole⟩
  exact bare.ofLine?_eq

theorem Bare.exists_match (bare : Bare line) : Nonempty (pattern.Match line) := by
  obtain ⟨lead, name, gap, inner, space, trail, nonempty, named, whole⟩ := bare
  exact ⟨⟨[], lead.val, name, _, [], by simpa using whole, reads_lead_iff.mpr ⟨rfl, lead, rfl⟩,
    Pattern.reads_atLeastOne.mpr ⟨nonempty, named⟩,
    Dispatch.reads_callEnd_iff.mpr ⟨rfl, gap, inner, space, trail, rfl⟩⟩⟩

theorem map_search_pattern (line : List Char) :
    (pattern.search line).map String.ofList = ofLine? line := by
  refine Pattern.Capture.map_search_eq ofLine?_of_match ?_
  intro read
  obtain ⟨name, read⟩ := Option.ne_none_iff_exists'.mp read
  obtain ⟨bare, _⟩ := Bare.of_ofLine? read
  exact bare.exists_match

theorem call?_of_ofLine? (read : ofLine? line = some name) :
    Dispatch.call? line = some name ∧ Dispatch.condition? line = none := by
  obtain ⟨bare, rfl⟩ := Bare.of_ofLine? read
  exact ⟨bare.calling.call?_eq, bare.calling.condition?_eq_none⟩

theorem called_ofText_of_ofLine? (read : ofLine? line = some name) :
    (Dispatch.Line.ofText line).called = some name := by
  obtain ⟨called, unopened⟩ := call?_of_ofLine? read
  rw [Dispatch.Line.called_ofText unopened, called]

end

end LoadCall

open Text

/-- Behind an opening line, a dispatch file has all calls of a text, and in their order. -/
theorem functions_behind_opening (text : String) :
    (dispatchRulesOf ("if (x) \x7b\n" ++ text)).flatMap (·.functions) =
      (lines text.toList).filterMap fun line => (Dispatch.Line.ofText line).called := by
  have cut : ("if (x) \x7b\n" ++ text).toList = "if (x) \x7b".toList ++ '\n' :: text.toList := by
    simp
  have rows : lines ("if (x) \x7b\n" ++ text).toList =
      "if (x) \x7b".toList :: lines text.toList := by
    rw [cut, lines_append, List.splitOn_eq_singleton (by decide)]
    rfl
  have opens : Dispatch.Line.ofText "if (x) \x7b".toList = .opening "x" := by decide
  rw [dispatchRulesOf, rows, List.map_cons, opens, List.foldl_cons,
    Dispatch.Reader.functions_foldl (by simp [Dispatch.Reader.step]), List.filterMap_map]
  rfl

theorem loadCallsOf_sublist (text : String) :
    List.Sublist (loadCallsOf text)
      ((dispatchRulesOf ("if (x) \x7b\n" ++ text)).flatMap (·.functions)) := by
  have filtered : loadCallsOf text =
      ((lines text.toList).filter fun line => (LoadCall.ofLine? line).isSome).filterMap
        fun line => (Dispatch.Line.ofText line).called := by
    rw [loadCallsOf, List.filterMap_filter]
    refine List.filterMap_congr fun line _ => ?_
    cases read : LoadCall.ofLine? line with
    | none => rfl
    | some name => simp [LoadCall.called_ofText_of_ofLine? read]
  rw [filtered, functions_behind_opening]
  exact List.filter_sublist.filterMap _

/--
A load manifest and a dispatch file each search a line for a pattern of their own. What the one
reads from a line, the other reads from it too, and never as an opening line. So the calls of a load
manifest are among the functions of the dispatch file that has its lines behind an opening line,
with their order and repeats.
-/
theorem load_calls_are_dispatched :
    (∀ line : List Char,
      (LoadCall.pattern.search line).map String.ofList = LoadCall.ofLine? line ∧
      (Dispatch.callPattern.search line).map String.ofList = Dispatch.call? line) ∧
    (∀ (line : List Char) (name : String), LoadCall.ofLine? line = some name →
      Dispatch.call? line = some name ∧ Dispatch.condition? line = none) ∧
    ∀ text : String, List.Sublist (loadCallsOf text)
      ((dispatchRulesOf ("if (x) \x7b\n" ++ text)).flatMap (·.functions)) :=
  ⟨fun line => ⟨LoadCall.map_search_pattern line, Dispatch.map_search_callPattern line⟩,
    fun _ _ => LoadCall.call?_of_ofLine?, loadCallsOf_sublist⟩

/-- The lines of a load manifest may be in several blocks, with other calls between them. -/
theorem load_calls_are_dispatched_sample :
    let line := "\tf_1 (\u00A0) ;\r".toList
    let text := "g();\nx = h();\nif (a) \x7b\n\tf_1 (\u00A0) ;\r\ng();"
    LoadCall.ofLine? line = some "f_1" ∧
      (Dispatch.call? line = some "f_1" ∧ Dispatch.condition? line = none) ∧
      loadCallsOf text = ["g", "f_1", "g"] ∧
      List.Sublist (loadCallsOf text)
        ((dispatchRulesOf ("if (x) \x7b\n" ++ text)).flatMap (·.functions)) := by
  intro line text
  have read : LoadCall.ofLine? line = some "f_1" := by decide +kernel
  have calls : loadCallsOf text = ["g", "f_1", "g"] := by decide +kernel
  exact ⟨read, load_calls_are_dispatched.2.1 line "f_1" read, calls,
    load_calls_are_dispatched.2.2 text⟩

end RuleSurvey
