import RuleSurvey.Manifest
import RuleSurvey.Proofs.DispatchLine
import RuleSurvey.Proofs.Includes

namespace RuleSurvey

/-!
How the lines of a text are ended. A carriage return in front of a line feed is a blank at the end of
its line, or no part of it at all, and no reader of lines looks at blanks there. So manifests and
dispatch files say the same with either ending, and in any mix of them.
-/

namespace Text

/-- Puts a carriage return in front of every line feed, also where there is one already. -/
def addReturns (text : List Char) : List Char :=
  text.flatMap fun c => if c = '\n' then ['\r', '\n'] else [c]

theorem addReturns_of_undivided {text : List Char} (undivided : '\n' ∉ text) :
    addReturns text = text := by
  induction text with
  | nil => rfl
  | cons c rest ih =>
      obtain ⟨different, others⟩ := not_or.mp (List.mem_cons.not.mp undivided)
      rw [addReturns, List.flatMap_cons, if_neg (Ne.symm different), ← addReturns, ih others]
      rfl

theorem addReturns_append (front back : List Char) :
    addReturns (front ++ '\n' :: back) = (addReturns front ++ ['\r']) ++ '\n' :: addReturns back := by
  simp [addReturns]

theorem dropReturn_append_return (line : List Char) : dropReturn (line ++ ['\r']) = line := by
  simp [dropReturn]

/-- Of what is put in front of the line feeds, a reader of lines drops as much again. -/
theorem map_dropReturn_splitOn_addReturns (text : List Char) :
    ((addReturns text ++ ['\r']).splitOn '\n').map dropReturn = text.splitOn '\n' := by
  induction text using separated_induction '\n' with
  | single text undivided =>
      have longer : '\n' ∉ text ++ ['\r'] := List.not_mem_append undivided (by decide)
      rw [addReturns_of_undivided undivided, List.splitOn_eq_singleton longer,
        List.splitOn_eq_singleton undivided, List.map_singleton, dropReturn_append_return]
  | divided before after ihBefore ihAfter =>
      rw [addReturns_append, List.append_assoc, List.cons_append, List.splitOn_append_cons_self,
        List.map_append, ihBefore, ihAfter, List.splitOn_append_cons_self]

theorem lines_addReturns_append (front back : List Char) :
    lines (addReturns (front ++ '\n' :: back)) =
      front.splitOn '\n' ++ lines (addReturns back) := by
  rw [addReturns_append, lines_append, map_dropReturn_splitOn_addReturns]

theorem map_lines_addReturns {β : Type} {read : List Char → β}
    (ignores : ∀ line, read (dropReturn line) = read line) (text : List Char) :
    (lines (addReturns text)).map read = (lines text).map read := by
  have dropped : read ∘ dropReturn = read := funext ignores
  induction text using separated_induction '\n' with
  | single text undivided => rw [addReturns_of_undivided undivided]
  | divided before after _ ih =>
      rw [lines_addReturns_append, lines_append, List.map_append, List.map_append, List.map_map,
        dropped, ih]

theorem filterMap_lines_addReturns {β : Type} {read : List Char → Option β}
    (ignores : ∀ line, read (dropReturn line) = read line) (text : List Char) :
    (lines (addReturns text)).filterMap read = (lines text).filterMap read := by
  have whole := congrArg (List.filterMap id) (map_lines_addReturns ignores text)
  rwa [List.filterMap_map, List.filterMap_map] at whole

end Text

namespace LoadCall

open Text

theorem takeWhile_isNameChar_append_return (text : List Char) :
    (text ++ ['\r']).takeWhile isNameChar = text.takeWhile isNameChar ∧
      (text ++ ['\r']).dropWhile isNameChar = text.dropWhile isNameChar ++ ['\r'] := by
  induction text with
  | nil => exact ⟨rfl, rfl⟩
  | cons c rest ih => cases named : isNameChar c <;> simp [named, ih]

theorem ofLine?_append_return (line : List Char) : ofLine? (line ++ ['\r']) = ofLine? line := by
  by_cases trimmed : trimStart line = []
  · rw [ofLine?, trimStart_append_of_eq_nil trimmed ⟨_, forall_isBlank_return⟩, ofLine?, trimmed]
  · obtain ⟨taken, left⟩ := takeWhile_isNameChar_append_return (trimStart line)
    have ends (rest : List Char) : (rest ++ ['\r']).all isBlank = rest.all isBlank := by
      rw [List.all_append]
      exact Bool.and_true _
    -- Each mark is found where it was, and the return comes behind what is left of the line.
    simp only [ofLine?, trimStart_append_of_ne_nil trimmed, taken, left,
      pastMark?_append_return (show '(' ≠ '\r' by decide),
      pastMark?_append_return (show ')' ≠ '\r' by decide),
      pastMark?_append_return (show ';' ≠ '\r' by decide), Option.bind_eq_bind, Option.bind_map,
      Function.comp_def, ends]

theorem ofLine?_dropReturn (line : List Char) : ofLine? (dropReturn line) = ofLine? line :=
  read_dropReturn ofLine?_append_return line

end LoadCall

open Text

/--
Manifests and dispatch files are read alike whether their lines are ended by a line feed or by a
carriage return and a line feed, whatever carriage returns the text has besides.
-/
theorem line_endings_do_not_matter (text : String) :
    let returned := String.ofList (addReturns text.toList)
    includesOf returned = includesOf text ∧
      loadCallsOf returned = loadCallsOf text ∧
      dispatchRulesOf returned = dispatchRulesOf text := by
  intro returned
  have whole : returned.toList = addReturns text.toList := String.toList_ofList
  refine ⟨?_, ?_, ?_⟩
  · rw [includesOf, whole, filterMap_lines_addReturns Include.ofLine?_dropReturn, includesOf]
  · rw [loadCallsOf, whole, filterMap_lines_addReturns LoadCall.ofLine?_dropReturn, loadCallsOf]
  · rw [dispatchRulesOf, whole, map_lines_addReturns Dispatch.Line.ofText_dropReturn,
      dispatchRulesOf]

end RuleSurvey
