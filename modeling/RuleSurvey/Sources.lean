import RuleSurvey.Dispatch
import RuleSurvey.Log
import RuleSurvey.Manifest
import RuleSurvey.RuleFile
import RuleSurvey.Target
import RuleSurvey.Text.Quoted

namespace RuleSurvey

/-!
Reading the text sources of a survey from a disk. Bytes that form no character are dropped, a base
file that is no regular file has nothing in it, and a rule file that cannot be read counts as empty.
-/

namespace Disk

def text (disk : Disk) (path : Path) : Except SurveyError String :=
  match disk.read path with
  | .ok bytes => .ok (String.ofList (Utf8.decode bytes))
  | .error reason => .error (.io reason)

/-- The text of a file, or the empty text if it cannot be read. -/
def textOrEmpty (disk : Disk) (path : Path) : Logged String :=
  match disk.text path with
  | .ok text => pure text
  | .error reason => do
      record .debug .text ("Unable to read " ++ path.display ++ ": " ++ reason.message)
      pure ""

/-- The text of a regular file; anything else has none. -/
def regularText (disk : Disk) (path : Path) : Logged (Option String) :=
  if disk.isFile path then do
    let text ← disk.textOrEmpty path
    pure (some text)
  else pure none

def includes (disk : Disk) (path : Path) : Logged (List Include) := do
  match ← disk.regularText path with
  | some text =>
      let entries := includesOf text
      record .debug .manifest
        ("Parsed " ++ toString entries.length ++ " include entries from " ++ path.display)
      pure entries
  | none =>
      record .debug .manifest ("No include manifest at " ++ path.display)
      pure []

def loadCalls (disk : Disk) (path : Path) : Logged (List String) := do
  match ← disk.regularText path with
  | some text => pure (loadCallsOf text)
  | none =>
      record .debug .manifest ("No load manifest at " ++ path.display)
      pure []

def dispatchRules (disk : Disk) (path : Path) : Logged (List DispatchRule) := do
  match ← disk.regularText path with
  | some text =>
      let rules := dispatchRulesOf text
      record .debug .dispatch
        ("Parsed " ++ toString rules.length ++ " dispatch rules from " ++ path.display)
      pure rules
  | none =>
      record .debug .dispatch ("No dispatch file at " ++ path.display)
      pure []

def ruleFile (disk : Disk) (path : Path) : Logged RuleFile := do
  let text ← disk.textOrEmpty path
  let found := RuleFile.ofText path.display text
  record .debug .metadata
    ("Rule file " ++ path.display ++ ": name=" ++ Text.quoted? found.declaredName ++
      " label=" ++ Text.quoted? found.label)
  pure found

end Disk

end RuleSurvey
