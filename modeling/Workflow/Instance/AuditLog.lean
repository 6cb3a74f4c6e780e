import Workflow.Definition.Basic
import Workflow.Instance.Basic
import Workflow.Time.Timestamp

/-!
# The audit log

A readable view of the history of an instance: one line per visit, with what the definition says
about the state and with the time spent in it.

A state that the definition does not know counts as a task without a label. Timestamps are read
only where a visit has ended.
-/

namespace Workflow

/-- One visit as it is shown. -/
structure LogLine where
  index : Nat
  state : String
  label : Value
  kind : StateKind
  enteredAt : String
  leftAt : Option String
  /-- The time between entering and leaving, in microseconds. -/
  duration : Option Int
  event : Value
  transition : Value
  /-- Whether the visit is where the running instance is. -/
  isCurrent : Bool

namespace LogLine

/-- The microseconds of a visit that has ended. -/
def duration? (v : Visit) : Except Failure (Option Int) :=
  match v.leftAt with
  | none => .ok none
  | some leftAt =>
    match Timestamp.read? leftAt, Timestamp.read? v.enteredAt with
    | some left, some entered =>
      match left.since? entered with
      | some micros => .ok (some micros)
      | none => .error (.malformed .mixedOffsets)
    | _, _ => .error (.malformed .noTimestamp)

/-- The line of a visit. -/
def ofVisit (d : Definition) (i : Instance) (index : Nat) (v : Visit) : Except Failure LogLine := do
  let state := d.state? v.state
  let duration ← duration? v
  return {
    index
    state := v.state
    label := (state.map (·.label)).getD .null
    kind := (state.map (·.kind)).getD .task
    enteredAt := v.enteredAt
    leftAt := v.leftAt
    duration
    event := v.event
    transition := v.transition
    isCurrent := v.isOpen && v.state = i.current && i.isRunning }

/-- A line as a JSON object; the duration is in milliseconds. -/
def toValue (l : LogLine) : Value :=
  .object [
    ("index", .int l.index),
    ("state_id", .text l.state),
    ("state_label", l.label),
    ("kind", .text l.kind.word),
    ("entered_at", .text l.enteredAt),
    ("left_at", Value.ofOption (l.leftAt.map .text)),
    ("duration_ms", Value.ofOption (l.duration.map fun d => .float (millisOfMicros d))),
    ("event", l.event),
    ("transition_id", l.transition),
    ("is_current", .bool l.isCurrent)]

end LogLine

/-- The lines of visits numbered from `index` on. -/
def logFrom (d : Definition) (i : Instance) : Nat → List Visit → Except Failure (List LogLine)
  | _, [] => .ok []
  | index, v :: rest => do
    let line ← LogLine.ofVisit d i index v
    let lines ← logFrom d i (index + 1) rest
    return line :: lines

/-- The audit log of an instance. -/
def auditLog (d : Definition) (i : Instance) : Except Failure (List LogLine) :=
  logFrom d i 0 i.history

end Workflow
