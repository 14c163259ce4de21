import RuleSurvey.Json.Basic

namespace RuleSurvey.Json

/-!
Reading typed values out of JSON. A value of another type than the one asked for is refused; nothing
is converted.
-/

def asText? : Json → Option String
  | .text value => some value
  | _ => none

def asOptionalText? : Json → Option (Option String)
  | .text value => some (some value)
  | .null => some none
  | _ => none

def asBool? : Json → Option Bool
  | .bool value => some value
  | _ => none

/-- Counts are machine words. -/
def asCount? : Json → Option Nat
  | .natural value => if value < UInt64.size then some value else none
  | _ => none

def asList? {α : Type} (item? : Json → Option α) : Json → Option (List α)
  | .list items => items.mapM item?
  | _ => none

def asTexts? : Json → Option (List String) :=
  asList? asText?

/-- The values of a record's fields, by their names. -/
abbrev Members := String → Option Json

/--
A record is an object, in which fields that are not asked for do not matter, or the list of all of
its values in order.
-/
def members? (names : List String) : Json → Option Members
  | .object fields => some (field? fields)
  | .list items => if items.length = names.length then some (field? (names.zip items)) else none
  | _ => none

/-- A record in which fields may be left out; in the list form, the last ones. -/
def defaultedMembers? (names : List String) : Json → Option Members
  | .object fields => some (field? fields)
  | .list items => if items.length ≤ names.length then some (field? (names.zip items)) else none
  | _ => none

namespace Members

def required? {α : Type} (members : Members) (read? : Json → Option α) (name : String) : Option α :=
  (members name).bind read?

/-- A field that is left out counts as null. -/
def optionalText? (members : Members) (name : String) : Option (Option String) :=
  match members name with
  | some value => value.asOptionalText?
  | none => some none

/-- A field that is left out has its default; one that is there has to fit. -/
def withDefault? {α : Type} (members : Members) (read? : Json → Option α) (name : String)
    (default : α) : Option α :=
  match members name with
  | some value => read? value
  | none => some default

end Members

end RuleSurvey.Json
