import RuleSurvey.Log
import RuleSurvey.Text.Basic
import RuleSurvey.Text.Terminal

namespace RuleSurvey.Command

/-!
Which records a run shows, and how it writes them. Directives select records by level and topic: of
those that mean a topic the one with the longest name decides. Every record is written with the time
at which it is.
-/

/-- How much detail the records of some topics may have; without a limit none of them is shown. -/
structure Directive where
  /-- What the names of the topics begin with. A directive without a name means every topic. -/
  name : Option String
  limit : Option Level
deriving DecidableEq, Repr

namespace Directive

def means (directive : Directive) (topic : Topic) : Bool :=
  match directive.name with
  | some name => name.toList.isPrefixOf topic.label.toList
  | none => true

def allows (directive : Directive) (level : Level) : Bool :=
  match directive.limit with
  | some limit => level.rank ≤ limit.rank
  | none => false

/-- How specific the name is. -/
def length (directive : Directive) : Nat :=
  (directive.name.getD "").length

/-- Directives with one more, which replaces the one of its name. -/
def insert (new : Directive) : List Directive → List Directive
  | [] => [new]
  | directive :: rest =>
      if directive.name = new.name then new :: rest else directive :: insert new rest

/-- The directive with the longest name among those that mean a topic, and of equals the last. -/
def deciding? (topic : Topic) (directives : List Directive) : Option Directive :=
  directives.foldl (fun best directive =>
    if directive.means topic && best.all (·.length ≤ directive.length) then some directive else best)
    none

/-- A level by its name in any mix of cases; `off` is no level. -/
def limit? (name : List Char) : Option (Option Level) :=
  match String.ofList (name.map Char.toLower) with
  | "off" => some none
  | "error" => some (some .error)
  | "warn" => some (some .warn)
  | "info" => some (some .info)
  | "debug" => some (some .debug)
  | "trace" => some (some .trace)
  | _ => none

/--
A directive is a level, a name, or `name=level`. A name without a level shows everything. If it is none
of these, the part that cannot be read is the answer.
-/
def ofText (text : List Char) : Except (List Char) Directive :=
  match text.splitOn '=' with
  | [single] =>
      match limit? single with
      | some limit => .ok { name := none, limit }
      | none => .ok { name := String.ofList single, limit := some .trace }
  | [name, level] =>
      match Text.trim level with
      | [] => .ok { name := String.ofList name, limit := some .trace }
      | level =>
          match limit? level with
          | some limit => .ok { name := String.ofList name, limit }
          | none => .error level
  | _ => .error text

end Directive

/-- What the environment says about logging. -/
structure LogSettings where
  directives : List Directive := []
  /-- Which messages are shown, as far as the directives allow it. -/
  accepts : String → Bool := fun _ => true
  /-- What is written about parts that cannot be read. -/
  complaints : String := ""

namespace LogSettings

def complain (settings : LogSettings) (reason : String) : LogSettings :=
  { settings with complaints := settings.complaints ++ "warning: " ++ reason ++ ", ignoring it\n" }

def complainAbout (settings : LogSettings) (part : List Char) : LogSettings :=
  settings.complain ("invalid logging spec '" ++ String.ofList part ++ "'")

/-- Reads one of the parts between commas. -/
def readPart (settings : LogSettings) (part : List Char) : LogSettings :=
  match Text.trim part with
  | [] => settings
  | text =>
      match Directive.ofText text with
      | .ok directive => { settings with directives := directive.insert settings.directives }
      | .error part => settings.complainAbout part

/--
Directives stand between commas, and behind a slash may stand a pattern for messages. What patterns
mean is given: each is a test of messages, or there is a reason why it is none.
-/
def ofText (pattern : String → Except String (String → Bool)) (text : String) : LogSettings :=
  match text.toList.splitOn '/' with
  | [parts] => (parts.splitOn ',').foldl readPart {}
  | [parts, source] =>
      let settings := (parts.splitOn ',').foldl readPart {}
      match pattern (String.ofList source) with
      | .ok accepts => { settings with accepts }
      | .error reason => settings.complain ("invalid regex filter - " ++ reason)
  | _ => complain {} ("invalid logging spec '" ++ text ++ "' (too many '/'s)")

end LogSettings

/-- The records that are shown. -/
structure LogFilter where
  directives : List Directive
  accepts : String → Bool

namespace LogFilter

/--
The filter of a run that may force a limit for the topics that no directive names. Where nothing is
said, summaries are shown, and where nothing that is said can be read, only errors are.
-/
def choose (forced : Option Level) (environment : Option LogSettings) : LogFilter :=
  let settings := environment.getD { directives := [{ name := none, limit := some .info }] }
  let directives := match forced with
    | some level => Directive.insert { name := none, limit := some level } settings.directives
    | none => settings.directives
  { directives := if directives.isEmpty then [{ name := none, limit := some .error }] else directives
    accepts := settings.accepts }

def shows (filter : LogFilter) (entry : LogRecord) : Bool :=
  (Directive.deciding? entry.topic filter.directives).any (·.allows entry.level) &&
    filter.accepts entry.message

end LogFilter

structure Date where
  year : Nat
  month : Nat
  day : Nat

/-- A reading of the clock, in seconds since the beginning of 1970. -/
structure Timestamp where
  seconds : Nat
deriving DecidableEq, Repr

namespace Timestamp

/-- Decimal digits, with zeros in front of them up to a width. -/
def padded (width number : Nat) : List Char :=
  let digits := Nat.toDigits 10 number
  List.replicate (width - digits.length) '0' ++ digits

/-- Years are taken to begin in March, so that a leap day is the last of its year. -/
def date (stamp : Timestamp) : Date :=
  let days := stamp.seconds / 86400 + 719468
  let cycle := days / 146097
  let dayOfCycle := days % 146097
  let yearOfCycle :=
    (dayOfCycle - dayOfCycle / 1460 + dayOfCycle / 36524 - dayOfCycle / 146096) / 365
  let dayOfYear := dayOfCycle - (365 * yearOfCycle + yearOfCycle / 4 - yearOfCycle / 100)
  let month := (5 * dayOfYear + 2) / 153
  let day := dayOfYear - (153 * month + 2) / 5 + 1
  let year := cycle * 400 + yearOfCycle
  if month < 10 then { year, month := month + 3, day }
  else { year := year + 1, month := month - 9, day }

def text (stamp : Timestamp) : List Char :=
  let date := stamp.date
  padded 4 date.year ++ '-' :: padded 2 date.month ++ '-' :: padded 2 date.day ++
    'T' :: padded 2 (stamp.seconds / 3600 % 24) ++ ':' :: padded 2 (stamp.seconds / 60 % 60) ++
    ':' :: padded 2 (stamp.seconds % 60) ++ ['Z']

example : text ⟨1709210096⟩ = "2024-02-29T12:34:56Z".toList := by decide

end Timestamp

/-- What the clock shows as one record after the other is written. -/
abbrev Clock := Nat → Timestamp

/-- A message with every line after its first one set in. -/
def setIn (message : List Char) : List Char :=
  message.flatMap fun c => if c = '\n' then "\n    ".toList else [c]

/-- What stands behind the time of a record. -/
def recordText (entry : LogRecord) : List Char :=
  let label := entry.level.label.toList
  ' ' :: label ++ List.replicate (5 - label.length) ' ' ++ ' ' :: entry.topic.label.toList ++
    "] ".toList ++ setIn entry.message.toList ++ ['\n']

/-- A record as it is written where no terminal reads it. -/
def logLine (stamp : Timestamp) (entry : LogRecord) : String :=
  String.ofList (Text.plain ('[' :: stamp.text ++ recordText entry))

def logText (clock : Clock) : List LogRecord → String
  | [] => ""
  | entry :: later => logLine (clock 0) entry ++ logText (fun turn => clock (turn + 1)) later

end RuleSurvey.Command
