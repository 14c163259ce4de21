namespace RuleSurvey

/-!
JSON values. Objects keep the order of their fields. A number that is not written as a plain
natural number is kept as it is written, so nothing is rounded and nothing is confused with one.
-/

inductive Scalar where
  | null
  | bool (value : Bool)
  | natural (value : Nat)
  /-- Any other number, in its own spelling. -/
  | number (spelling : List Char)
  | text (value : String)
deriving DecidableEq, Repr

inductive Json where
  | scalar (value : Scalar)
  | list (items : List Json)
  | object (fields : List (String × Json))

namespace Json

@[match_pattern] abbrev null : Json := .scalar .null

@[match_pattern] abbrev bool (value : Bool) : Json := .scalar (.bool value)

@[match_pattern] abbrev natural (value : Nat) : Json := .scalar (.natural value)

@[match_pattern] abbrev text (value : String) : Json := .scalar (.text value)

/-- The value of a field; of a repeated field the last value. -/
def field? (fields : List (String × Json)) (key : String) : Option Json :=
  (fields.reverse.find? (·.1 == key)).map (·.2)

def texts (values : List String) : Json :=
  .list (values.map text)

def optionalText : Option String → Json
  | some value => text value
  | none => null

end Json

end RuleSurvey
