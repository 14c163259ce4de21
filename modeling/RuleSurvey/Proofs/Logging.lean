import Mathlib.Data.List.Basic
import Mathlib.Data.List.Forall2
import RuleSurvey.Proofs.Outcome

namespace RuleSurvey.Command

/-!
What logging can change. Two argument lists that differ only in how much they want logged ask for the
same survey, so both runs end alike and print the same. What they log is picked from the same records,
and a louder run shows all that a quieter one does. A record is written alike in both but for the time,
and as a line of its own unless a control sequence that it leaves open hides its end.
-/

section Verbosity

/-- An argument that only sets how much is logged. -/
def setsVerbosity (text : String) : Bool :=
  text == Switch.verbose.name || text == Switch.quiet.name ||
    match text.toList with
    | '-' :: letter :: letters => (letter :: letters).all fun c => c == 'v' || c == 'q'
    | _ => false

/-- The arguments but for those that only set how much is logged; behind `--` there are none. -/
def withoutVerbosity : List Argument → List Argument
  | [] => []
  | argument :: rest =>
      if argument = .ofString "--" then argument :: rest
      else if argument.text?.any setsVerbosity then withoutVerbosity rest
      else argument :: withoutVerbosity rest

/-- The same with nothing said about how much is logged. -/
def Invocation.muted (invocation : Invocation) : Invocation :=
  { invocation with verbose := false, quiet := false }

def Word.setsVerbosity : Word → Bool
  | long .verbose => true
  | long .quiet => true
  | short _ _ => true
  | _ => false

def Item.setsVerbosity : Item → Bool
  | flag .verbose => true
  | flag .quiet => true
  | _ => false

def Line.muted (line : Line) : Line :=
  { line with words := line.words.filter (!·.setsVerbosity) }

theorem ofString_eq_iff {text other : String} :
    Argument.ofString text = .ofString other ↔ text = other := by
  rw [← Argument.text?_eq_some_iff, Argument.text?_ofString, Option.some.injEq]

theorem setsVerbosity_of_plain {argument : Argument} (plain : looksLikeOption argument = false) :
    argument ≠ .ofString "--" ∧ argument.text?.any setsVerbosity = false := by
  have undashed := Arguments.looksLikeOption_eq_false_iff.mp plain
  have other : ∀ c rest, argument ≠ .ofString (String.ofList ('-' :: c :: rest)) := by
    intro c rest same
    exact undashed c rest (by rw [same, Argument.display_ofString, String.toList_ofList])
  refine ⟨other _ _, ?_⟩
  cases read : argument.text? with
  | none => rfl
  | some text =>
      obtain rfl := Argument.text?_eq_some_iff.mp read
      have unnamed : text ≠ "--verbose" ∧ text ≠ "--quiet" :=
        ⟨fun same => other _ _ (congrArg _ same), fun same => other _ _ (congrArg _ same)⟩
      rw [Argument.display_ofString] at undashed
      rw [Option.any_some, setsVerbosity]
      split
      · exact absurd ‹_› (undashed _ _)
      · simp [Switch.name, unnamed]

theorem setsVerbosity_of_setting (setting : Setting) (rest : String) :
    setting.name ++ rest ≠ "--" ∧ setsVerbosity (setting.name ++ rest) = false := by
  cases setting <;> simp [setsVerbosity, Setting.name, Switch.name, ← String.toList_inj]

theorem setsVerbosity_of_letters (first : Letter) (rest : List Letter) :
    let text := String.ofList ('-' :: (first :: rest).map Letter.char)
    text ≠ "--" ∧ setsVerbosity text = true := by
  have known : ∀ letter : Letter, (letter.char == 'v' || letter.char == 'q') = true := by
    intro letter
    cases letter <;> rfl
  refine ⟨?_, by simp [setsVerbosity, known]⟩
  cases first <;> simp [Letter.char, ← String.toList_inj]

theorem withoutVerbosity_word {word : Word} (written : word.IsWritten) (rest : List Argument) :
    withoutVerbosity (word.spell ++ rest) =
      (if word.setsVerbosity then [] else word.spell) ++ withoutVerbosity rest := by
  cases word with
  | path place =>
      obtain ⟨other, kept⟩ := setsVerbosity_of_plain written
      simp [Word.spell, Word.setsVerbosity, withoutVerbosity, other, kept]
  | joined setting text =>
      obtain ⟨other, kept⟩ := setsVerbosity_of_setting setting ("=" ++ text)
      rw [← String.append_assoc] at other kept
      simp [Word.spell, Word.setsVerbosity, withoutVerbosity, ofString_eq_iff, other, kept]
  | apart setting text =>
      obtain ⟨other, kept⟩ := setsVerbosity_of_plain written
      rw [Argument.text?_ofString, Option.any_some] at kept
      obtain ⟨named, unset⟩ := setsVerbosity_of_setting setting ""
      rw [String.append_empty] at named unset
      simp [Word.spell, Word.setsVerbosity, withoutVerbosity, ofString_eq_iff, other, kept, named, unset]
  | long switch =>
      cases switch <;>
        simp [Word.spell, Word.setsVerbosity, withoutVerbosity, ofString_eq_iff, setsVerbosity,
          Switch.name]
  | short first letters =>
      obtain ⟨other, sets⟩ := setsVerbosity_of_letters first letters
      simp only [Word.spell, Word.setsVerbosity, List.singleton_append, withoutVerbosity,
        ofString_eq_iff, if_neg other, Argument.text?_ofString, Option.any_some, sets, if_true,
        List.nil_append]

theorem withoutVerbosity_spell {line : Line} (written : line.IsWritten) :
    withoutVerbosity line.spell = line.muted.spell := by
  obtain ⟨words, behind⟩ := line
  induction words with
  | nil => cases behind <;> rfl
  | cons word rest ih =>
      obtain ⟨first, others⟩ := List.forall_mem_cons.mp written
      have spelled : Line.spell ⟨word :: rest, behind⟩ = word.spell ++ Line.spell ⟨rest, behind⟩ := by
        simp [Line.spell]
      rw [spelled, withoutVerbosity_word first, ih others]
      cases sets : word.setsVerbosity <;> simp [Line.muted, Line.spell, sets]

theorem Line.IsWritten.muted {line : Line} (written : line.IsWritten) : line.muted.IsWritten :=
  fun word member => written word (List.mem_filter.mp member).1

theorem Word.filter_items (word : Word) :
    word.items.filter (!·.setsVerbosity) = if word.setsVerbosity then [] else word.items := by
  cases word with
  | path place => rfl
  | joined setting text => rfl
  | apart setting text => rfl
  | long switch => cases switch <;> rfl
  | short first letters =>
      rw [setsVerbosity, if_pos rfl, List.filter_eq_nil_iff]
      intro item member
      obtain ⟨letter, _, rfl⟩ := List.mem_map.mp member
      cases letter <;> simp [Letter.switch, Item.setsVerbosity]

theorem Line.items_muted (line : Line) : line.muted.items = line.items.filter (!·.setsVerbosity) := by
  obtain ⟨words, behind⟩ := line
  have paths : ∀ item ∈ (behind.getD []).map Item.path, (!item.setsVerbosity) = true := by
    intro item member
    obtain ⟨place, _, rfl⟩ := List.mem_map.mp member
    rfl
  rw [items, items, List.filter_append, List.filter_eq_self.mpr paths, List.filter_flatMap]
  congr 1
  induction words with
  | nil => rfl
  | cons word rest ih =>
      rw [List.flatMap_cons, Word.filter_items, ← ih]
      cases sets : word.setsVerbosity <;> simp [muted, sets]

theorem Line.filterMap_muted {α : Type} {view : Item → Option α}
    (silent : ∀ switch, view (.flag switch) = none) (line : Line) :
    line.muted.items.filterMap view = line.items.filterMap view := by
  rw [items_muted, List.filterMap_filter]
  congr 1
  funext item
  cases item with
  | path place => rfl
  | value setting text => rfl
  | flag switch => cases switch <;> simp [silent]

theorem Line.flags_muted (line : Line) :
    Item.flags line.muted.items = (Item.flags line.items).filter (· == .compact) := by
  rw [Item.flags, Item.flags, items_muted, List.filterMap_filter, List.filter_filterMap]
  congr 1
  funext item
  cases item with
  | path place => rfl
  | value setting text => rfl
  | flag switch => cases switch <;> rfl

variable {given : List Argument} {invocation : Invocation}

theorem Line.Asks.muted {line : Line} (asks : line.Asks invocation) :
    line.muted.Asks invocation.muted := by
  have paths : Item.paths line.muted.items = Item.paths line.items :=
    line.filterMap_muted fun _ => rfl
  have values : ∀ setting, Item.values setting line.muted.items = Item.values setting line.items :=
    fun setting => line.filterMap_muted fun _ => rfl
  exact {
    path := paths.trans asks.path
    nonempty := asks.nonempty
    format := values .format ▸ asks.format
    extension := values .extension ▸ asks.extension
    maxDepth := values .maxDepth ▸ asks.maxDepth
    maxFiles := values .maxFiles ▸ asks.maxFiles
    baseNames := asks.baseNames
    distinct := line.flags_muted ▸ asks.distinct.filter _
    compact := by
      rw [line.flags_muted, List.mem_filter, ← asks.compact]
      simp [Invocation.muted]
    verbose := by simp [Invocation.muted, line.flags_muted]
    quiet := by simp [Invocation.muted, line.flags_muted] }

theorem parse_withoutVerbosity (accepted : Invocation.parse given = .ok invocation) :
    Invocation.parse (withoutVerbosity given) = .ok invocation.muted := by
  obtain ⟨line, written, rfl, asks⟩ := Invocation.parse_eq_ok_iff.mp accepted
  exact Invocation.parse_eq_ok_iff.mpr
    ⟨line.muted, written.muted, (withoutVerbosity_spell written).symm, asks.muted⟩

end Verbosity

section Records

variable {disk : Disk} {quieter louder : Invocation}

/-- How much a run shows. Quiet wins over verbose. -/
def Invocation.loudness (invocation : Invocation) : Nat :=
  if invocation.quiet then 0 else if invocation.verbose then 2 else 1

/-- What there is to log in a run, shown or not. -/
def records (disk : Disk) (invocation : Invocation) : List LogRecord :=
  match Target.ofPath disk invocation.path with
  | .ok target => (survey disk invocation.options target).log
  | .error _ => []

/-- What a run shows if only its arguments say how much: warnings, and a level more for each step. -/
def shownRecords (disk : Disk) (invocation : Invocation) : List LogRecord :=
  (records disk invocation).filter (·.level.rank ≤ invocation.loudness + Level.warn.rank)

/-- What stands behind the log: why the run failed, if it did. -/
def closing (disk : Disk) (sink : Sink) (invocation : Invocation) : String :=
  match Target.ofPath disk invocation.path with
  | .ok _ => if sink = .full then noSpaceText else ""
  | .error reason => failureText reason

theorem records_muted (disk : Disk) (invocation : Invocation) :
    records disk invocation.muted = records disk invocation := rfl

theorem closing_muted (disk : Disk) (sink : Sink) (invocation : Invocation) :
    closing disk sink invocation.muted = closing disk sink invocation := rfl

/-- Where the environment says nothing, one level decides for all topics. -/
theorem shows_choose_none (forced : Option Level) (entry : LogRecord) :
    (LogFilter.choose forced none).shows entry = true ↔
      entry.level.rank ≤ (forced.getD .info).rank := by
  cases forced <;>
    simp [LogFilter.choose, LogFilter.shows, Directive.insert, Directive.deciding?, Directive.means,
      Directive.allows]

theorem filter_shows_choose (disk : Disk) (invocation : Invocation) :
    (records disk invocation).filter (LogFilter.choose invocation.forcedLevel none).shows =
      shownRecords disk invocation := by
  have level : (invocation.forcedLevel.getD .info).rank =
      invocation.loudness + Level.warn.rank := by
    unfold Invocation.forcedLevel Invocation.loudness
    cases invocation.quiet <;> cases invocation.verbose <;> rfl
  apply List.filter_congr
  intro entry _
  rw [Bool.eq_iff_iff, shows_choose_none, level, decide_eq_true_iff]

theorem stderr_surveyOutcome (disk : Disk) (clock : Clock) (sink : Sink) (invocation : Invocation) :
    (surveyOutcome disk clock none sink invocation).stderr =
      logText clock (shownRecords disk invocation) ++ closing disk sink invocation := by
  rw [← filter_shows_choose]
  unfold surveyOutcome records closing
  cases Target.ofPath disk invocation.path with
  | error reason => simp [logText]
  | ok target => cases sink <;> simp

theorem code_and_stdout_muted (disk : Disk) (clock otherClock : Clock)
    (environment : Option LogSettings) (sink : Sink) (invocation : Invocation) :
    (surveyOutcome disk clock environment sink invocation).code =
        (surveyOutcome disk otherClock none sink invocation.muted).code ∧
      (surveyOutcome disk clock environment sink invocation).stdout =
        (surveyOutcome disk otherClock none sink invocation.muted).stdout := by
  unfold surveyOutcome
  dsimp only [Invocation.muted]
  cases Target.ofPath disk invocation.path with
  | error reason => exact ⟨rfl, rfl⟩
  | ok target => cases sink <;> exact ⟨rfl, rfl⟩

theorem shownRecords_sublist (same : records disk quieter = records disk louder)
    (rising : quieter.loudness ≤ louder.loudness) :
    (shownRecords disk quieter).Sublist (shownRecords disk louder) := by
  rw [shownRecords, shownRecords, same]
  apply List.monotone_filter_right
  intro entry shown
  rw [decide_eq_true_iff] at shown ⊢
  omega

section Plain

open Text

/-- Without an escape character no control sequence begins. -/
theorem step_shown {c : Char} (other : '\x1B' ≠ c) :
    ∃ shows, (Reading.shown none).step c = (.shown none, shows) := by
  unfold Reading.step
  rw [if_neg other.symm]
  split_ifs <;> exact ⟨_, rfl⟩

theorem plainFrom_append_break {text : List Char} (unescaped : '\x1B' ∉ text) :
    ∃ body, plainFrom (.shown none) (text ++ ['\n']) = body ++ ['\n'] := by
  induction text with
  | nil => exact ⟨[], rfl⟩
  | cons c rest ih =>
      obtain ⟨other, others⟩ := List.ne_and_not_mem_of_not_mem_cons unescaped
      obtain ⟨body, shown⟩ := ih others
      obtain ⟨shows, step⟩ := step_shown other
      rw [List.cons_append, plainFrom, step]
      cases shows with
      | true => exact ⟨c :: body, congrArg (c :: ·) shown⟩
      | false => exact ⟨body, shown⟩

/-- What prints shows, and no control sequence begins with it. -/
theorem step_of_prints {c : Char} (prints : isBetween c 0x20 0x7E = true) :
    (Reading.shown none).step c = (.shown none, true) := by
  have range : 0x20 ≤ c.toNat ∧ c.toNat ≤ 0x7E := by simpa [isBetween] using prints
  have ascii : ¬ 0x80 ≤ c.toNat := by omega
  have uncontrolled : ∀ control : Char, control.toNat < 0x20 → c ≠ control := by
    intro control low same
    rw [same] at range
    omega
  simp [Reading.step, uncontrolled '\x1B' (by decide), uncontrolled '\x18' (by decide),
    uncontrolled '\x1A' (by decide), ascii, prints]

theorem plainFrom_append {text : List Char} (prints : ∀ c ∈ text, isBetween c 0x20 0x7E = true)
    (rest : List Char) :
    plainFrom (.shown none) (text ++ rest) = text ++ plainFrom (.shown none) rest := by
  induction text with
  | nil => rfl
  | cons c text ih =>
      obtain ⟨first, others⟩ := List.forall_mem_cons.mp prints
      rw [List.cons_append, plainFrom, step_of_prints first]
      exact congrArg (c :: ·) (ih others)

theorem not_mem_setIn {message : List Char} (unescaped : '\x1B' ∉ message) :
    '\x1B' ∉ setIn message := by
  intro member
  obtain ⟨c, listed, written⟩ := List.mem_flatMap.mp member
  split_ifs at written
  · exact absurd written (by decide)
  · exact unescaped (List.mem_singleton.mp written ▸ listed)

end Plain

section Times

theorem prints_padded (width number : Nat) :
    ∀ c ∈ Timestamp.padded width number, Text.isBetween c 0x20 0x7E = true := by
  intro c member
  rcases List.mem_append.mp member with zero | digit
  · rw [List.eq_of_mem_replicate zero]
    rfl
  · have range : 48 ≤ c.toNat ∧ c.toNat ≤ 57 :=
      Char.isDigit_iff_toNat.mp (Nat.isDigit_of_mem_toDigits (by decide) (by decide) digit)
    simp only [Text.isBetween, Bool.and_eq_true, decide_eq_true_eq]
    omega

/-- A time and the bracket before it are printed as they are. -/
theorem prints_time (stamp : Timestamp) :
    ∀ c ∈ '[' :: stamp.text, Text.isBetween c 0x20 0x7E = true := by
  simp only [Timestamp.text, List.forall_mem_append, List.forall_mem_cons]
  and_intros
  all_goals first | exact prints_padded _ _ | simp [Text.isBetween]

/-- What shows of a record behind its time. -/
def behindTime (entry : LogRecord) : List Char :=
  Text.plain (recordText entry)

theorem toList_logLine (stamp : Timestamp) (entry : LogRecord) :
    (logLine stamp entry).toList = '[' :: stamp.text ++ behindTime entry := by
  rw [logLine, String.toList_ofList]
  exact plainFrom_append (prints_time stamp) (recordText entry)

/-- Lines that are equal, or differ only in the times with which they begin. -/
def SameButTime (line other : List Char) : Prop :=
  line = other ∨ ∃ (stamp otherStamp : Timestamp) (rest : List Char),
    line = '[' :: stamp.text ++ rest ∧ other = '[' :: otherStamp.text ++ rest

instance : Std.Refl SameButTime where
  refl _ := .inl rfl

theorem SameButTime.head?_eq {line other : List Char} (same : SameButTime line other) :
    line.head? = other.head? := by
  obtain rfl | ⟨stamp, otherStamp, rest, rfl, rfl⟩ := same <;> simp

/-- The end of the record shows, so that the next one starts a new line. -/
def EndsLine (entry : LogRecord) : Prop :=
  ∃ body, behindTime entry = body ++ ['\n']

theorem endsLine_of_unescaped {entry : LogRecord} (unescaped : '\x1B' ∉ entry.message.toList) :
    EndsLine entry := by
  have level : '\x1B' ∉ entry.level.label.toList := by
    cases entry.level <;> simp [Level.label]
  have topic : '\x1B' ∉ entry.topic.label.toList := by
    cases entry.topic <;> simp [Topic.label]
  have message := not_mem_setIn unescaped
  apply plainFrom_append_break
  simp [level, topic, message]

section Lines

open Text

variable {entry : LogRecord} {later fewer more : List LogRecord}

theorem not_mem_time (stamp : Timestamp) {c : Char} (control : isBetween c 0x20 0x7E = false) :
    c ∉ '[' :: stamp.text := by
  intro member
  rw [prints_time stamp c member] at control
  cases control

theorem lines_logText_cons (ended : EndsLine entry) (clock : Clock) (closing : String) :
    lines (logText clock (entry :: later) ++ closing).toList =
      lines (logLine (clock 0) entry).toList ++
        lines (logText (fun turn => clock (turn + 1)) later ++ closing).toList := by
  obtain ⟨body, ends⟩ := ended
  rw [logText, String.append_assoc, String.toList_append, toList_logLine, ends,
    ← List.append_assoc, List.append_assoc _ ['\n'], List.singleton_append, lines_append, lines_append,
    List.append_assoc]
  rfl

/-- Where the end of a record does not show, its line goes on with what follows. -/
theorem lines_logText_unended (unended : '\n' ∉ behindTime entry) (clock : Clock) {words : List Char}
    (undivided : '\n' ∉ words) :
    lines (logText clock [entry] ++ String.ofList (words ++ ['\n'])).toList =
      ['[' :: (clock 0).text ++ dropReturn (behindTime entry ++ words)] := by
  have joined : '\n' ∉ '[' :: (clock 0).text ++ (behindTime entry ++ words) := by
    rw [List.mem_append, List.mem_append, not_or, not_or]
    exact ⟨not_mem_time _ rfl, unended, undivided⟩
  rw [logText, logText, String.append_empty, String.toList_append, toList_logLine,
    String.toList_ofList, ← List.append_assoc, List.append_assoc _ (behindTime entry), lines_append,
    List.splitOn_eq_singleton joined, List.map_singleton, dropReturn_append (not_mem_time _ rfl)]
  rfl

/-- At two times a record has the same lines but for the time in the first of them. -/
theorem forall₂_lines_logLine (ended : EndsLine entry) (stamp other : Timestamp) :
    List.Forall₂ SameButTime (lines (logLine stamp entry).toList)
      (lines (logLine other entry).toList) := by
  obtain ⟨body, ends⟩ := ended
  have read (stamp : Timestamp) : lines (logLine stamp entry).toList =
      ((body.splitOn '\n').modifyHead ('[' :: stamp.text ++ ·)).map dropReturn := by
    rw [toList_logLine, ends, ← List.append_assoc, lines_append,
      splitOn_append_of_not_mem (not_mem_time stamp rfl)]
    exact List.append_nil _
  rw [read stamp, read other]
  cases cut : body.splitOn '\n' with
  | nil => exact absurd cut (List.splitOn_ne_nil '\n' body)
  | cons piece others =>
      refine .cons (.inr ⟨stamp, other, dropReturn piece, ?_, ?_⟩) (List.forall₂_refl _)
      · exact dropReturn_append (not_mem_time stamp rfl) piece
      · exact dropReturn_append (not_mem_time other rfl) piece

theorem sublistForall₂_append {α : Type} {r : α → α → Prop} {first second : List α}
    {fewer more : List α} (alike : List.Forall₂ r first second)
    (part : List.SublistForall₂ r fewer more) :
    List.SublistForall₂ r (first ++ fewer) (second ++ more) := by
  obtain ⟨kept, matched, inside⟩ := List.sublistForall₂_iff.mp part
  exact List.sublistForall₂_iff.mpr
    ⟨second ++ kept, List.rel_append alike matched, inside.append_left second⟩

/-- Fewer records have fewer lines, whenever they are written. -/
theorem sublistForall₂_lines_logText (shown : fewer.Sublist more)
    (ended : ∀ entry ∈ more, EndsLine entry) (clock other : Clock) (closing : String) :
    List.SublistForall₂ SameButTime (lines (logText clock fewer ++ closing).toList)
      (lines (logText other more ++ closing).toList) := by
  induction shown generalizing clock other with
  | slnil => exact (List.Sublist.refl _).sublistForall₂
  | cons entry shown ih =>
      obtain ⟨first, others⟩ := List.forall_mem_cons.mp ended
      rw [lines_logText_cons first]
      obtain ⟨kept, matched, inside⟩ :=
        List.sublistForall₂_iff.mp (ih others clock fun turn => other (turn + 1))
      exact List.sublistForall₂_iff.mpr ⟨kept, matched, inside.trans (List.sublist_append_right _ _)⟩
  | cons_cons entry shown ih =>
      obtain ⟨first, others⟩ := List.forall_mem_cons.mp ended
      rw [lines_logText_cons first, lines_logText_cons first]
      exact sublistForall₂_append (forall₂_lines_logLine first _ _) (ih others _ _)

end Lines

end Times

variable {first second : List Argument}

/--
Runs that differ only in how much they are asked to log end alike and print the same, whatever the
environment says and whenever they run. If only the arguments say how much is logged, a quieter run
shows some of the records of a louder one, in their order and with the same words about a failure
behind them. A record is written alike at all times but for the time itself. So the lines of the quieter
run are some of those of the louder one but for the times, as long as every record of the louder run
ends its line. A record does if it has no escape character.
-/
theorem logging_leaves_report_alone (disk : Disk) (sink : Sink)
    (accepts : Invocation.parse first = .ok quieter) (acceptsOther : Invocation.parse second = .ok louder)
    (same : withoutVerbosity first = withoutVerbosity second) :
    (∀ clock otherClock environment other,
        (run disk clock environment sink first).code =
            (run disk otherClock other sink second).code ∧
          (run disk clock environment sink first).stdout =
            (run disk otherClock other sink second).stdout) ∧
      (quieter.loudness ≤ louder.loudness →
        let fewer := shownRecords disk quieter
        let more := shownRecords disk louder
        fewer.Sublist more ∧
          (∃ closing, ∀ clock,
            (run disk clock none sink first).stderr = logText clock fewer ++ closing ∧
              (run disk clock none sink second).stderr = logText clock more ++ closing) ∧
          ((∀ entry ∈ more, EndsLine entry) → ∀ clock otherClock,
            List.SublistForall₂ SameButTime
              (Text.lines (run disk clock none sink first).stderr.toList)
              (Text.lines (run disk otherClock none sink second).stderr.toList))) ∧
      (∀ stamp entry, (logLine stamp entry).toList = '[' :: stamp.text ++ behindTime entry) ∧
      ∀ entry : LogRecord, '\x1B' ∉ entry.message.toList → EndsLine entry := by
  have muted : quieter.muted = louder.muted := by
    have asked := parse_withoutVerbosity accepts
    rw [same, parse_withoutVerbosity acceptsOther] at asked
    exact (Except.ok.inj asked).symm
  refine ⟨?_, ?_, toList_logLine, fun _ => endsLine_of_unescaped⟩
  · intro clock otherClock environment other
    rw [run_of_parse accepts, run_of_parse acceptsOther]
    obtain ⟨code, stdout⟩ := code_and_stdout_muted disk clock clock environment sink quieter
    obtain ⟨otherCode, otherStdout⟩ := code_and_stdout_muted disk otherClock clock other sink louder
    rw [code, stdout, otherCode, otherStdout, muted]
    exact ⟨rfl, rfl⟩
  · intro rising fewer more
    have sameRecords : records disk quieter = records disk louder := by
      rw [← records_muted disk quieter, muted, records_muted]
    have sameClosing : closing disk sink quieter = closing disk sink louder := by
      rw [← closing_muted disk sink quieter, muted, closing_muted]
    have shown : fewer.Sublist more := shownRecords_sublist sameRecords rising
    have errors (clock : Clock) : (run disk clock none sink first).stderr =
        logText clock fewer ++ closing disk sink louder := by
      rw [run_of_parse accepts, stderr_surveyOutcome, sameClosing]
    have otherErrors (clock : Clock) : (run disk clock none sink second).stderr =
        logText clock more ++ closing disk sink louder := by
      rw [run_of_parse acceptsOther, stderr_surveyOutcome]
    refine ⟨shown, ⟨_, fun clock => ⟨errors clock, otherErrors clock⟩⟩, ?_⟩
    intro ended clock otherClock
    rw [errors, otherErrors]
    exact sublistForall₂_lines_logText shown ended clock otherClock _

theorem logging_leaves_report_alone_sample :
    let quiet := ["-q", "--max-files=0", "/t"].map Argument.ofString
    let plain := ["--max-files=0", "/t"].map Argument.ofString
    let asked (quiet : Bool) : Invocation := {
      path := .ofString "/t", options := { scan := { maxFiles := 0 } }, format := .json,
      compact := false, verbose := false, quiet }
    let early : Clock := fun turn => ⟨turn⟩
    let late : Clock := fun turn => ⟨1000 + turn⟩
    let silent : LogSettings := { directives := [{ name := none, limit := none }] }
    Invocation.parse quiet = .ok (asked true) ∧ Invocation.parse plain = .ok (asked false) ∧
      withoutVerbosity quiet = withoutVerbosity plain ∧
      (run guardedDisk early none .open quiet).stdout =
        (run guardedDisk late (some silent) .open plain).stdout ∧
      List.SublistForall₂ SameButTime
        (Text.lines (run guardedDisk early none .open quiet).stderr.toList)
        (Text.lines (run guardedDisk late none .open plain).stderr.toList) := by
  intro quiet plain asked early late silent
  have accepts : Invocation.parse quiet = .ok (asked true) := by decide +kernel
  have acceptsOther : Invocation.parse plain = .ok (asked false) := by decide +kernel
  have same : withoutVerbosity quiet = withoutVerbosity plain := by decide +kernel
  have unescaped : ∀ entry ∈ shownRecords guardedDisk (asked false),
      '\x1B' ∉ entry.message.toList := by decide +kernel
  obtain ⟨alike, shows, _, ends⟩ :=
    logging_leaves_report_alone guardedDisk .open accepts acceptsOther same
  obtain ⟨_, _, lines⟩ := shows (by decide)
  exact ⟨accepts, acceptsOther, same, (alike early late none (some silent)).2,
    lines (fun entry member => ends entry (unescaped entry member)) early late⟩

/-- A rule root whose name begins a control sequence and leaves it open. -/
def unendedDisk : Disk where
  root := [(⟨Utf8.encode "s\x1B_".toList, by decide +kernel⟩, .directory [
    (⟨Utf8.encode "x.rules".toList, by decide +kernel⟩, .file [])])]
  workingDirectory := { location := [] }

/--
The record that names such a root is written without its break, so what follows is no line of its own.
If nothing can be printed, the quiet run says so in a line that the other run does not have.
-/
theorem unended_record_swallows_line_break :
    let quiet := ["-q", "--compact", "s\x1B_/x.rules"].map Argument.ofString
    let plain := ["--compact", "s\x1B_/x.rules"].map Argument.ofString
    let lines (clock : Clock) (given : List Argument) :=
      Text.lines (run unendedDisk clock none .full given).stderr.toList
    (Invocation.parse quiet).isOk = true ∧ (Invocation.parse plain).isOk = true ∧
      withoutVerbosity quiet = withoutVerbosity plain ∧
      ∀ clock otherClock,
        ¬ List.SublistForall₂ SameButTime (lines clock quiet) (lines otherClock plain) := by
  intro quiet plain lines
  let asked (quiet : Bool) : Invocation := {
    path := .ofString "s\x1B_/x.rules", options := {}, format := .json, compact := true,
    verbose := false, quiet }
  have accepts : Invocation.parse quiet = .ok (asked true) := by decide +kernel
  have acceptsOther : Invocation.parse plain = .ok (asked false) := by decide +kernel
  have same : withoutVerbosity quiet = withoutVerbosity plain := by decide +kernel
  refine ⟨by rw [accepts]; rfl, by rw [acceptsOther]; rfl, same, ?_⟩
  intro clock otherClock matched
  let words := "Error: No space left on device (os error 28)".toList
  have closed (quiet : Bool) :
      closing unendedDisk .full (asked quiet) = String.ofList (words ++ ['\n']) := by
    cases quiet <;> decide +kernel
  have fewer : lines clock quiet = [words] := by
    have shown : shownRecords unendedDisk (asked true) = [] := by decide +kernel
    simp only [lines]
    rw [run_of_parse accepts, stderr_surveyOutcome, shown, closed, logText]
    decide +kernel
  have more : ∃ entry, lines otherClock plain =
      ['[' :: (otherClock 0).text ++ Text.dropReturn (behindTime entry ++ words)] := by
    obtain ⟨entry, shown, unended⟩ : ∃ entry,
        shownRecords unendedDisk (asked false) = [entry] ∧ '\n' ∉ behindTime entry :=
      ⟨{ level := .info, topic := .inspection, message :=
          "Inspected /s\x1B_: 1 rule files, 0 includes, 0 dispatch rules, 1 edges (Standalone)" },
        by decide +kernel⟩
    refine ⟨entry, ?_⟩
    simp only [lines]
    rw [run_of_parse acceptsOther, stderr_surveyOutcome, shown, closed]
    exact lines_logText_unended unended otherClock (by decide +kernel)
  obtain ⟨entry, more⟩ := more
  rw [fewer, more] at matched
  cases matched with
  | cons same _ => exact absurd same.head?_eq (by simp [words])
  | cons_right later => cases later

end Records

end RuleSurvey.Command
