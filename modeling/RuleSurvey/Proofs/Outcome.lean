import RuleSurvey.Command.Run
import RuleSurvey.Proofs.Arguments
import RuleSurvey.Proofs.Decoding
import RuleSurvey.Proofs.RoundTrip
import RuleSurvey.Proofs.Survey

namespace RuleSurvey

/-!
How a run of the command ends. It fails if there is nothing to survey or nothing can be written, and
then it prints nothing; otherwise it prints one whole report if somebody reads it. A printed report
can be read back: a dispatch file has at most as many rules as bytes, so that the numbers of its steps
are machine words.
-/

theorem length_dispatchRulesOf_le (text : String) :
    (dispatchRulesOf text).length ≤ text.toList.length :=
  calc (dispatchRulesOf text).length
      = (Text.lines text.toList).countP Dispatch.opens := Dispatch.length_finish_ofRows _
    _ ≤ (Text.lines text.toList).length := List.countP_le_length
    _ ≤ text.toList.length := Text.length_lines_le _

namespace Disk

variable {disk : Disk} {path : Path}

/-- A text that is read has no more characters than its file has bytes. -/
theorem exists_read_of_regularText {text : String} (found : (disk.regularText path).value = some text) :
    text = "" ∨ ∃ content, disk.read path = .ok content ∧ text.toList.length ≤ content.length := by
  unfold regularText at found
  split at found
  · have same : (disk.textOrEmpty path).value = text := Option.some.inj found
    unfold textOrEmpty Disk.text at same
    cases read : disk.read path with
    | error reason =>
        rw [read] at same
        exact .inl same.symm
    | ok content =>
        rw [read] at same
        refine .inr ⟨content, rfl, ?_⟩
        rw [← same, Logged.value_pure, String.toList_ofList]
        exact Utf8.length_decode_le content
  · cases found

theorem length_dispatchRules_lt {limit : Nat} (positive : 0 < limit)
    (small : ∀ content, disk.read path = .ok content → content.length < limit) :
    (disk.dispatchRules path).value.length < limit := by
  rw [dispatchRules_value]
  cases found : (disk.regularText path).value with
  | none => exact positive
  | some text =>
      have rules := length_dispatchRulesOf_le text
      obtain rfl | ⟨content, read, chars⟩ := exists_read_of_regularText found
      · exact Nat.lt_of_le_of_lt rules positive
      · exact Nat.lt_of_le_of_lt (Nat.le_trans rules chars) (small content read)

end Disk

theorem Traversal.index_le_of_mem_order {traversal : Traversal} {step : NumberedRule}
    (member : step ∈ traversal.order) : step.index ≤ traversal.rules.length := by
  obtain ⟨⟨rule, index⟩, counted, rfl⟩ := List.mem_map.mp member
  have bounds := List.mem_zipIdx counted
  change index ≤ _
  omega

/-- The base file with the rules has fewer bytes than a machine word can count. -/
def Disk.HasSmallRules (disk : Disk) (options : SurveyOptions) (target : Target) : Prop :=
  ∀ content, disk.read (BasePaths.ofRoot target.root options).rules = .ok content →
    content.length < UInt64.size

theorem survey_counted {disk : Disk} {options : SurveyOptions} {target : Target}
    (small : disk.HasSmallRules options target) : (survey disk options target).value.Counted := by
  intro step member
  rw [(survey_coherent disk options target).order] at member
  have index := Traversal.index_le_of_mem_order member
  have rules := Disk.length_dispatchRules_lt (by decide) small
  rw [← (survey_readFrom disk options target).rules] at rules
  exact Nat.lt_of_le_of_lt index rules

namespace Command

variable {disk : Disk} {clock : Clock} {environment : Option LogSettings} {sink : Sink}
  {given : List Argument} {invocation : Invocation}

theorem run_of_parse (asked : Invocation.parse given = .ok invocation) :
    run disk clock environment sink given = surveyOutcome disk clock environment sink invocation := by
  rw [run, asked]

/-- In JSON, a report is read back from the line or lines that are printed. -/
theorem parse?_render {report : Report} (json : invocation.format = .json) (counted : report.Counted) :
    (Json.parse? (render invocation report ++ "\n")).bind Report.ofJson? = some report := by
  have represents := Report.represents counted
  have layout : render invocation report ∈ [report.toJson.compact, report.toJson.indented] := by
    rw [render, json]
    dsimp only
    split <;> simp
  rw [Json.parse?_line represents.regular _ layout, Option.bind_some, represents.read]

/--
A run that is asked for a survey does what its arguments say. It fails and prints nothing if the path
leads nowhere or the output cannot be written. Otherwise it succeeds, and where somebody reads the
output it prints the whole report and a line feed, from which a report in JSON is read back.
-/
theorem surveying_prints_whole_report_or_nothing (disk : Disk) (clock : Clock)
    (environment : Option LogSettings) (sink : Sink)
    (asked : Invocation.parse given = .ok invocation) :
    let outcome := run disk clock environment sink given
    let found := Target.ofPath disk invocation.path
    (∃ line : Line, line.IsWritten ∧ line.spell = given ∧ line.Asks invocation) ∧
      (∀ reason, found = .error reason → outcome.code = 1 ∧ outcome.stdout = "") ∧
      (sink = .full → outcome.code = 1 ∧ outcome.stdout = "") ∧
      ∀ target, found = .ok target → sink ≠ .full →
        let report := (survey disk invocation.options target).value
        outcome.code = 0 ∧
          outcome.stdout = (if sink = .open then render invocation report ++ "\n" else "") ∧
          (sink = .open → invocation.format = .json →
            disk.HasSmallRules invocation.options target →
            (Json.parse? outcome.stdout).bind Report.ofJson? = some report) := by
  intro outcome found
  have same : outcome = surveyOutcome disk clock environment sink invocation := run_of_parse asked
  refine ⟨Invocation.parse_eq_ok_iff.mp asked, ?_, ?_, ?_⟩
  · intro reason failed
    rw [same, surveyOutcome, show Target.ofPath disk _ = _ from failed]
    exact ⟨rfl, rfl⟩
  · intro full
    subst full
    rw [same, surveyOutcome]
    dsimp only
    split <;> exact ⟨rfl, rfl⟩
  · intro target reached unfilled report
    rw [same, surveyOutcome, show Target.ofPath disk _ = _ from reached]
    cases sink with
    | «open» =>
        refine ⟨rfl, rfl, ?_⟩
        intro _ json small
        exact parse?_render json (survey_counted small)
    | closed => exact ⟨rfl, rfl, fun opened => nomatch opened⟩
    | full => exact absurd rfl unfilled

/-- A rule root with one rule. -/
def guardedDisk : Disk where
  root := [(⟨Utf8.encode "t".toList, by decide +kernel⟩, .directory [
    (⟨Utf8.encode "base.rules".toList, by decide +kernel⟩,
      .file (Utf8.encode "if (a) \x7b\nf();\n\x7d".toList))])]
  workingDirectory := { location := [] }

theorem surveying_prints_whole_report_sample :
    let given := ["--compact", "-q", "--extension", "..rules", "/t"].map Argument.ofString
    let target : Target := ⟨.ofString "/t", none⟩
    let outcome := run guardedDisk (fun turn => ⟨turn⟩) none .open given
    let report := (survey guardedDisk {} target).value
    Invocation.parse given = .ok {
        path := .ofString "/t", options := {}, format := .json, compact := true, verbose := false,
        quiet := true } ∧
      Target.ofPath guardedDisk (.ofString "/t") = .ok target ∧
      guardedDisk.HasSmallRules {} target ∧
      outcome.code = 0 ∧
      (Json.parse? outcome.stdout).bind Report.ofJson? = some report ∧
      report.rules = [⟨"a", ["f"]⟩] := by
  intro given target outcome report
  have asked : Invocation.parse given = .ok {
      path := .ofString "/t", options := {}, format := .json, compact := true, verbose := false,
      quiet := true } := by decide +kernel
  have reached : Target.ofPath guardedDisk (.ofString "/t") = .ok target := rfl
  have small : guardedDisk.HasSmallRules {} target := by
    intro content read
    have held : guardedDisk.read (BasePaths.ofRoot target.root {}).rules =
        .ok (Utf8.encode "if (a) \x7b\nf();\n\x7d".toList) := rfl
    cases held.symm.trans read
    decide +kernel
  obtain ⟨_, _, _, completes⟩ :=
    surveying_prints_whole_report_or_nothing guardedDisk (fun turn => ⟨turn⟩) none .open asked
  obtain ⟨code, _, reads⟩ := completes target reached (by decide)
  exact ⟨asked, reached, small, code, reads rfl rfl small, by decide +kernel⟩

end Command

end RuleSurvey
