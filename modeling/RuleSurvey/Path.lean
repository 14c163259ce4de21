import RuleSurvey.Text.Utf8

namespace RuleSurvey

/-!
Paths are sequences of bytes cut into steps at `/`. Nothing here looks at a disk: joining, naming
and normalising depend on the bytes alone.
-/

structure Path where
  bytes : List UInt8
deriving DecidableEq, Repr

namespace Path

def separator : UInt8 := 47

/-- The step that stays where it is. -/
def here : List UInt8 := [46]

/-- The step to the parent. -/
def up : List UInt8 := [46, 46]

def ofString (text : String) : Path :=
  ⟨Utf8.encode text.toList⟩

/-- The path as text; bytes that form no character show as replacement characters. -/
def display (path : Path) : String :=
  String.ofList (Utf8.display path.bytes)

def isAbsolute (path : Path) : Bool :=
  path.bytes.head? == some separator

/-- The steps that lead somewhere: empty ones and those that stay are left out. -/
def steps (path : Path) : List (List UInt8) :=
  (path.bytes.splitOn separator).filter fun step => step ≠ [] ∧ step ≠ here

def ofSteps (absolute : Bool) (steps : List (List UInt8)) : Path :=
  ⟨(if absolute then [separator] else []) ++ List.intercalate [separator] steps⟩

/--
The second path read from the first: an absolute one stands for itself, and between the two stands
exactly one separator unless the first is empty or brings its own.
-/
def join (base path : Path) : Path :=
  if path.isAbsolute || base.bytes.isEmpty then path
  else if base.bytes.getLast? = some separator then ⟨base.bytes ++ path.bytes⟩
  else ⟨base.bytes ++ separator :: path.bytes⟩

/-- The last step, unless there is none or it leads to a parent. -/
def fileName? (path : Path) : Option (List UInt8) :=
  match path.steps.getLast? with
  | some step => if step = up then none else some step
  | none => none

/-- What stands after the last dot of the file name; a dot in front of the whole name does not count. -/
def extension? (path : Path) : Option (List UInt8) := do
  let name ← path.fileName?
  let fromDot := name.reverse.dropWhile (· != 46)
  if fromDot.length ≤ 1 then none
  else some (name.reverse.takeWhile (· != 46)).reverse

/-- The directory that holds the last step of a path in normal form. -/
def parent (path : Path) : Path :=
  ofSteps path.isAbsolute path.steps.dropLast

/--
Removes every step to a parent together with the step before it, given the steps already kept, the
last one first. At the root such a step is dropped, and at the front of a relative path it stays.
-/
def settle (absolute : Bool) : List (List UInt8) → List (List UInt8) → List (List UInt8)
  | kept, [] => kept.reverse
  | kept, step :: rest =>
      if step = up then
        match kept with
        | [] => settle absolute (if absolute then [] else [up]) rest
        | last :: before =>
            if last = up then settle absolute (up :: last :: before) rest
            else settle absolute before rest
      else settle absolute (step :: kept) rest

/-- The shortest path with the same meaning where no step passes through a link. -/
def normalize (path : Path) : Path :=
  let settled := settle path.isAbsolute [] path.steps
  if settled.isEmpty && !path.isAbsolute then ⟨here⟩
  else ofSteps path.isAbsolute settled

/-- The normal form as text, with forward slashes only. -/
def normalizedDisplay (path : Path) : String :=
  String.ofList ((Utf8.display path.normalize.bytes).map fun c => if c = '\\' then '/' else c)

end Path

end RuleSurvey
