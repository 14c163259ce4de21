import RuleSurvey.Json.Token

namespace RuleSurvey

/-!
From tokens to JSON values. The lists and objects that are still open lie on a stack, the innermost
first, and a value that is complete goes into the innermost of them.
-/

namespace Json

/-- A value that is still open; its parts stand backwards. -/
inductive Frame where
  | list (items : List Json)
  | object (fields : List (String × Json))
  /-- An object that waits for the value of a field. -/
  | field (fields : List (String × Json)) (key : String)

/-- Which token may come next. -/
inductive Reading where
  | value (frames : List Frame) (mayClose : Bool)
  | key (frames : List Frame) (mayClose : Bool)
  | colon (frames : List Frame)
  | separator (frames : List Frame)
  | done (value : Json)

/-- Hands a complete value to the innermost frame. -/
def deliver (value : Json) : List Frame → Option Reading
  | [] => some (.done value)
  | .list items :: outer => some (.separator (.list (value :: items) :: outer))
  | .field fields key :: outer => some (.separator (.object ((key, value) :: fields) :: outer))
  | .object _ :: _ => none

def close : Token → List Frame → Option Reading
  | .closeList, .list items :: outer => deliver (.list items.reverse) outer
  | .closeObject, .object fields :: outer => deliver (.object fields.reverse) outer
  | _, _ => none

def readToken : Reading → Token → Option Reading
  | .value frames mayClose, token =>
      match token with
      | .scalar value => deliver (.scalar value) frames
      | .openList => some (.value (.list [] :: frames) true)
      | .openObject => some (.key (.object [] :: frames) true)
      | _ => if mayClose then close token frames else none
  | .key frames mayClose, token =>
      match token, frames with
      | .scalar (.text key), .object fields :: outer => some (.colon (.field fields key :: outer))
      | _, _ => if mayClose then close token frames else none
  | .colon frames, token => if token = .colon then some (.value frames false) else none
  | .separator frames, token =>
      match token, frames with
      | .comma, .list items :: outer => some (.value (.list items :: outer) false)
      | .comma, .object fields :: outer => some (.key (.object fields :: outer) false)
      | _, _ => close token frames
  | .done _, _ => none

def ofTokens? (tokens : List Token) : Option Json :=
  match tokens.foldlM readToken (.value [] false) with
  | some (.done value) => some value
  | _ => none

def parse? (text : String) : Option Json :=
  (tokens? text.toList).bind ofTokens?

end Json

end RuleSurvey
