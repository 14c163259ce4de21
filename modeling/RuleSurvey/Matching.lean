import RuleSurvey.Log
import RuleSurvey.Path
import RuleSurvey.RuleFile
import RuleSurvey.Sorted
import RuleSurvey.Text.Lowercase

namespace RuleSurvey

/-!
Which rule files a name stands for. Case does not matter: a file answers to every part of its file
name and to its whole declared name. All files that answer are kept, so a short name may be
ambiguous.
-/

/-- A rule file with the texts it answers to, in lowercase. -/
structure Candidate where
  path : String
  baseName : List Char
  declaredName : Option (List Char)

namespace Candidate

def baseNameOf (path : String) : List Char :=
  match (Path.ofString path).fileName? with
  | some name => Text.lowercase (Utf8.display name)
  | none => []

def ofRuleFile (file : RuleFile) : Candidate where
  path := file.path
  baseName := baseNameOf file.path
  declaredName := (file.declaredName.filter (· ≠ "")).map fun name => Text.lowercase name.toList

/-- Whether a file answers to a name that is already in lowercase. -/
def answersTo (candidate : Candidate) (name : List Char) : Bool :=
  Text.occursIn name candidate.baseName || candidate.declaredName == some name

end Candidate

/-- The rule files of a survey, in the order of their discovery. -/
abbrev Catalog := List Candidate

namespace Catalog

def ofRuleFiles (files : List RuleFile) : Catalog :=
  files.map Candidate.ofRuleFile

/-- The paths of all files that answer to a name. -/
def candidates (catalog : Catalog) (name : String) : List String :=
  let name := Text.lowercase name.toList
  (catalog.filter (·.answersTo name)).map (·.path)

end Catalog

theorem string_trichotomy {a b : String} (notLess : ¬ a < b) (different : a ≠ b) : b < a :=
  Decidable.byContradiction fun notGreater =>
    different (String.le_antisymm (String.not_lt.mp notGreater) (String.not_lt.mp notLess))

/-- The files of each name that has any, in ascending order of the names. -/
structure MatchTable where
  entries : List (String × List String)
  ascending : Ascending Prod.fst entries
deriving DecidableEq

namespace MatchTable

def empty : MatchTable where
  entries := []
  ascending := .nil

def insert (table : MatchTable) (name : String) (files : List String) : MatchTable where
  entries := insertBy Prod.fst (name, files) table.entries
  ascending := table.ascending.insertBy String.lt_trans string_trichotomy

def ofList (entries : List (String × List String)) : MatchTable :=
  entries.foldl (fun table entry => table.insert entry.1 entry.2) empty

def get? (table : MatchTable) (name : String) : Option (List String) :=
  (table.entries.find? (·.1 == name)).map (·.2)

def contains (table : MatchTable) (name : String) : Bool :=
  (table.get? name).isSome

/-- The files of a name; none if it is not in the table. -/
def files (table : MatchTable) (name : String) : List String :=
  (table.get? name).getD []

def size (table : MatchTable) : Nat :=
  table.entries.length

def isEmpty (table : MatchTable) : Bool :=
  table.entries.isEmpty

/-- The names with more than one file. -/
def ambiguous (table : MatchTable) : List (String × List String) :=
  table.entries.filter fun entry => entry.2.length > 1

/-- Looks a name up in the catalog unless the table has it. -/
def add (catalog : Catalog) (table : MatchTable) (name : String) : Logged MatchTable :=
  if table.contains name then pure table
  else match catalog.candidates name with
    | [] => do
        record .debug .matching ("No rule file matches " ++ name)
        pure table
    | files => do
        if files.length > 1 then
          record .debug .matching
            (name ++ " is ambiguous: " ++ toString files.length ++ " candidate files")
        pure (table.insert name files)

def build (catalog : Catalog) (names : List String) : Logged MatchTable :=
  names.foldlM (add catalog) empty

end MatchTable

end RuleSurvey
