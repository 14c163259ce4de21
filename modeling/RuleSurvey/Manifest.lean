import RuleSurvey.Text.Basic

namespace RuleSurvey

/-!
The include manifest lists named files, one `name,path` to a line. Blank lines, lines that start
with `#` and lines without two parts are passed over.
-/

structure Include where
  name : String
  path : String
deriving DecidableEq, Repr

namespace Include

open Text

/-- The line is cut at its first comma. -/
def ofLine? (line : List Char) : Option Include :=
  let line := trim line
  if line.head? = some '#' then none
  else match line.dropWhile (· != ',') with
    | [] => none
    | _ :: rest =>
        let name := trim (line.takeWhile (· != ','))
        let path := trim rest
        if name.isEmpty || path.isEmpty then none
        else some { name := String.ofList name, path := String.ofList path }

def toLine (entry : Include) : List Char :=
  entry.name.toList ++ ',' :: entry.path.toList

end Include

/-- The entries of an include manifest, in file order with repeats. -/
def includesOf (text : String) : List Include :=
  (Text.lines text.toList).filterMap Include.ofLine?

/-- The manifest with one line for every entry. -/
def renderIncludes (entries : List Include) : String :=
  String.ofList (Text.unlines (entries.map Include.toLine))

/-!
The load manifest calls one function to a line, as `name();`, with blanks allowed between its parts.
Any other line is passed over.
-/

namespace LoadCall

open Text

/-- The name that a whole line calls. -/
def ofLine? (line : List Char) : Option String := do
  let line := trimStart line
  let name := line.takeWhile isNameChar
  let opened ← pastMark? '(' (line.dropWhile isNameChar)
  let closed ← pastMark? ')' opened
  let ended ← pastMark? ';' closed
  if name.isEmpty || !ended.all isBlank then none else some (String.ofList name)

end LoadCall

/-- The names that a load manifest calls, in file order with repeats. -/
def loadCallsOf (text : String) : List String :=
  (Text.lines text.toList).filterMap LoadCall.ofLine?

end RuleSurvey
