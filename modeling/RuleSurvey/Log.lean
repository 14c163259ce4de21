namespace RuleSurvey

/-!
What a run tells about itself beside its result. A computation that reports its progress returns a
`Logged` value: the result and the records, in the order in which they arose. The result of a
sequence never depends on the records of its parts.
-/

inductive Level where
  | error
  | warn
  | info
  | debug
  | trace
deriving DecidableEq, Repr

namespace Level

def label : Level → String
  | error => "ERROR"
  | warn => "WARN"
  | info => "INFO"
  | debug => "DEBUG"
  | trace => "TRACE"

def rank : Level → Nat
  | error => 1
  | warn => 2
  | info => 3
  | debug => 4
  | trace => 5

end Level

/-- The part of a run that a record speaks about. -/
inductive Topic where
  | text
  | manifest
  | dispatch
  | metadata
  | scan
  | resolution
  | matching
  | reachability
  | inspection
deriving DecidableEq, Repr

def Topic.label : Topic → String
  | text => "legacy_rules_syntax::text"
  | manifest => "legacy_rules_syntax::manifest"
  | dispatch => "legacy_rules_syntax::dispatch"
  | metadata => "legacy_rules_syntax::metadata"
  | scan => "legacy_rules_scanner::scanner"
  | resolution => "legacy_rules_scanner::resolver"
  | matching => "legacy_rules_graph::matcher"
  | reachability => "legacy_rules_graph::graph"
  | inspection => "legacy_rules_graph::inspector"

structure LogRecord where
  level : Level
  topic : Topic
  message : String
deriving DecidableEq, Repr

structure Logged (α : Type) where
  value : α
  log : List LogRecord := []

namespace Logged

variable {α β : Type}

protected def pure (value : α) : Logged α :=
  { value }

protected def bind (first : Logged α) (rest : α → Logged β) : Logged β :=
  let next := rest first.value
  { value := next.value, log := first.log ++ next.log }

instance : Monad Logged where
  pure := Logged.pure
  bind := Logged.bind

@[simp] theorem value_pure (value : α) : (pure value : Logged α).value = value := rfl

@[simp] theorem log_pure (value : α) : (pure value : Logged α).log = [] := rfl

@[simp] theorem value_bind (first : Logged α) (rest : α → Logged β) :
    (first >>= rest).value = (rest first.value).value := rfl

@[simp] theorem log_bind (first : Logged α) (rest : α → Logged β) :
    (first >>= rest).log = first.log ++ (rest first.value).log := rfl

/-- Runs an action on every item, from the first to the last. -/
def forEach (items : List α) (action : α → Logged β) : Logged (List β) :=
  let done := items.map action
  { value := done.map (·.value), log := done.flatMap (·.log) }

@[simp] theorem value_forEach (items : List α) (action : α → Logged β) :
    (forEach items action).value = items.map fun item => (action item).value := by
  simp [forEach]

@[simp] theorem log_forEach (items : List α) (action : α → Logged β) :
    (forEach items action).log = items.flatMap fun item => (action item).log := by
  simp [forEach, List.flatMap_map]

end Logged

def record (level : Level) (topic : Topic) (message : String) : Logged Unit :=
  { value := (), log := [{ level, topic, message }] }

@[simp] theorem log_record (level : Level) (topic : Topic) (message : String) :
    (record level topic message).log = [{ level, topic, message }] := rfl

end RuleSurvey
