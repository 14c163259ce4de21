import RuleSurvey.Report

namespace RuleSurvey

/-!
A report for people to read: a list of lines, grouped into sections. A section without items is left
out.
-/

namespace Report

/-- How many characters of a condition are shown. -/
def conditionWidth : Nat := 80

/-- A text on one line: blanks are collapsed, and what does not fit gives way to an ellipsis. -/
def fitted (width : Nat) (text : List Char) : List Char :=
  let line := Text.collapse text
  if line.length ≤ width then line else line.take (width - 1) ++ ['…']

/-- A text that cannot end a table cell. -/
def cell (text : List Char) : List Char :=
  text.flatMap fun c => if c = '|' then ['\\', '|'] else [c]

def ticked (text : List Char) : List Char :=
  '\x60' :: text ++ ['\x60']

def tickedCount (count : Nat) : List Char :=
  ticked (Nat.toDigits 10 count)

def shown (text : String) : List Char :=
  text.toList

def commaSeparated (items : List (List Char)) : List Char :=
  List.intercalate (shown ", ") items

def placeLine (title : String) (place : Option String) : List Char :=
  shown ("- " ++ title ++ ": ") ++ ticked (shown (place.getD "absent"))

def headLines (report : Report) : List (List Char) := [
  shown "# Legacy rules inspection",
  [],
  shown "- Root: " ++ ticked (shown report.root),
  placeLine "base.includes" report.base.includes,
  placeLine "base.load" report.base.load,
  placeLine "base.rules" report.base.rules,
  []]

def countLines (report : Report) : List (List Char) := [
  shown "## Counts",
  [],
  shown "| rule files | includes | load calls | dispatch rules | edges | unreached |",
  shown "|---:|---:|---:|---:|---:|---:|",
  shown "| " ++ List.intercalate (shown " | ") [
    tickedCount report.ruleFiles.length,
    tickedCount report.includes.length,
    tickedCount report.loadCalls.length,
    tickedCount report.rules.length,
    tickedCount report.edges.length,
    tickedCount report.unreached.length] ++ shown " |",
  []]

def stepLine (step : NumberedRule) : List Char :=
  shown "| " ++ tickedCount step.index ++ shown " | " ++
    ticked (cell (fitted conditionWidth (shown step.condition))) ++ shown " | " ++
    cell (commaSeparated (step.functions.map shown)) ++ shown " |"

def orderLines (report : Report) : List (List Char) :=
  if report.order.isEmpty then []
  else [
    shown "## Dispatch order",
    [],
    shown "| # | condition | functions |",
    shown "|---:|---|---|"] ++ report.order.map stepLine ++ [[]]

def itemLine (item : String) : List Char :=
  shown "- " ++ ticked (shown item)

def listLines (title : String) (items : List String) : List (List Char) :=
  if items.isEmpty then []
  else
    [shown ("## " ++ title ++ " (") ++ Nat.toDigits 10 items.length ++ shown ")", []] ++
      items.map itemLine ++ [[]]

/-- The last step of a path, or the whole of a path that has no name there. -/
def shortName (path : String) : List Char :=
  match (Path.ofString path).fileName? with
  | some name => Utf8.display name
  | none => shown path

def ambiguousLine (entry : String × List String) : List Char :=
  shown "- " ++ ticked (shown entry.1) ++ shown " -> " ++ commaSeparated (entry.2.map shortName)

def ambiguousLines (report : Report) : List (List Char) :=
  let entries := report.matched.ambiguous
  if entries.isEmpty then []
  else [shown "## Ambiguous matches", []] ++ entries.map ambiguousLine ++ [[]]

def textLines (report : Report) : List (List Char) :=
  headLines report ++ countLines report ++ orderLines report ++
    listLines "Includes without definitions" report.missing.includes ++
    listLines "Dispatch without definitions" report.missing.dispatched ++
    listLines "Load calls without definitions" report.missing.loaded ++
    listLines "Unresolved include paths" report.missing.unresolvedPaths ++
    listLines "Unresolved lookup files" report.missing.unresolvedLookups ++
    listLines "Unreached rule files" report.unreached ++
    ambiguousLines report

def text (report : Report) : String :=
  String.ofList (Text.unlines (textLines report))

end Report

end RuleSurvey
