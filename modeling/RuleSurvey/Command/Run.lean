import RuleSurvey.Command.Arguments
import RuleSurvey.Command.Logging
import RuleSurvey.Json.Printer
import RuleSurvey.Report.Text
import RuleSurvey.Survey

namespace RuleSurvey.Command

/-!
A whole run of the command: its exit code and what it writes. The report goes to standard output
and everything else to standard error, so that what is logged never changes the report.
-/

/-- What becomes of the text written to standard output. -/
inductive Sink where
  | open
  /-- Nobody reads it any more. -/
  | closed
  /-- No write succeeds. -/
  | full
deriving DecidableEq, Repr

structure Outcome where
  code : Nat
  stdout : String
  stderr : String
deriving DecidableEq, Repr

def render (invocation : Invocation) (report : Report) : String :=
  match invocation.format with
  | .text => report.text
  | .json => if invocation.compact then report.toJson.compact else report.toJson.indented

/-- A directory that is missing is named; any other failure is shown with its causes. -/
def failureText : SurveyError → String
  | .invalidRoot root => (SurveyError.invalidRoot root).message ++ "\n"
  | .io reason =>
      "Error: Failed to resolve target path\n\nCaused by:\n    0: " ++
        (SurveyError.io reason).message ++ "\n    1: " ++ reason.message ++ "\n"

def noSpaceText : String :=
  "Error: No space left on device (os error 28)\n"

/-- What is wrong with the environment's words about logging is said first, on any target. -/
def surveyOutcome (disk : Disk) (clock : Clock) (environment : Option LogSettings) (sink : Sink)
    (invocation : Invocation) : Outcome :=
  let complaints := environment.elim "" (·.complaints)
  match Target.ofPath disk invocation.path with
  | .error reason => { code := 1, stdout := "", stderr := complaints ++ failureText reason }
  | .ok target =>
      let report := survey disk invocation.options target
      let filter := LogFilter.choose invocation.forcedLevel environment
      let messages := complaints ++ logText clock (report.log.filter filter.shows)
      match sink with
      | .open => {
          code := 0
          stdout := render invocation report.value ++ "\n"
          stderr := messages }
      | .closed => { code := 0, stdout := "", stderr := messages }
      | .full => { code := 1, stdout := "", stderr := messages ++ noSpaceText }

def versionText : String :=
  "legacy-rules-inspect 0.1.0\n"

def helpText : String :=
  "Summarize base.includes, base.load and base.rules of a legacy rules folder\n\n" ++
  "Usage: legacy-rules-inspect [OPTIONS] <PATH>\n\n" ++
  "Arguments:\n" ++
  "  <PATH>  Rule root directory, or a single rule file (its directory becomes the root)\n\n" ++
  "Options:\n" ++
  "      --format <FORMAT>        Output format [default: json] [possible values: json, text]\n" ++
  "      --compact                Single-line JSON instead of pretty-printed\n" ++
  "      --extension <EXTENSION>  Rule file extension (case-insensitive) [default: rules]\n" ++
  "      --max-depth <MAX_DEPTH>  Maximum directory depth to walk below the root\n" ++
  "      --max-files <MAX_FILES>  Stop walking after this many rule files\n" ++
  "  -v, --verbose                Enable verbose logging\n" ++
  "  -q, --quiet                  Quiet mode: log only warnings/errors (stdout is reserved for the report)\n" ++
  "  -h, --help                   Print help\n" ++
  "  -V, --version                Print version\n"

/-- Text for standard output whose loss is no failure. -/
def noticeOutcome (sink : Sink) (text : String) : Outcome where
  code := 0
  stdout := if sink = .open then text else ""
  stderr := ""

def run (disk : Disk) (clock : Clock) (environment : Option LogSettings) (sink : Sink)
    (given : List Argument) : Outcome :=
  match Invocation.parse given with
  | .ok invocation => surveyOutcome disk clock environment sink invocation
  | .error .version => noticeOutcome sink versionText
  | .error .help => noticeOutcome sink helpText
  | .error (.usage reason) =>
      { code := 2, stdout := "", stderr := "error: " ++ reason.message ++ "\n" }

end RuleSurvey.Command
