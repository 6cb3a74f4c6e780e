import Workflow.Engine.Basic
import Workflow.Graph.Mermaid

/-!
# Views

Definitions, instances and graphs as the bodies of responses.
-/

namespace Workflow.Api

def transitionView (t : Transition) : Value :=
  .object [("id", t.id), ("target", t.target), ("event", t.event), ("label", t.label),
    ("guarded", .bool t.guard.isSome)]

def stateView (s : State) : Value :=
  .object [("id", .text s.id), ("kind", .text s.kind.word), ("label", s.label),
    ("description", s.description), ("icon", s.icon),
    ("transitions", .list (s.transitions.map transitionView))]

def definitionView (d : Definition) : Value :=
  .object [("id", d.id), ("version", d.version), ("description", d.description),
    ("initial_state", .text d.initial), ("states", .list (d.states.values.map stateView))]

/-- An instance in a list. -/
def instanceView (i : Instance) : Value :=
  .object [("instance_id", .text i.id), ("workflow_id", i.workflow),
    ("current_state", .text i.current), ("status", .text i.status.word),
    ("started_at", Value.ofOption (i.history.head?.map fun v => .text v.enteredAt))]

/-- A context as a view shows it: only an object is shown. -/
def contextView : Value → Value
  | .object members => .object members
  | _ => .null

/-- A failure as a view shows it. -/
def failureView (f : Option Failure) : Value := Value.ofOption (f.map fun f => .text f.quoted)

/-- An instance with its context and audit log. -/
def detailView (env : Environment) (i : Instance) (log : List LogLine) : Value :=
  .object [("instance_id", .text i.id), ("workflow_id", i.workflow),
    ("current_state", .text i.current), ("status", .text i.status.word),
    ("context", contextView (env.read i.ctx)), ("history", .list (log.map (·.toValue))),
    ("error", failureView i.error)]

def graphView (source : String) (d : Definition) : Value :=
  .object [("mermaid_source", .text source), ("nodes", .list (d.nodes.map Node.toValue)),
    ("edges", .list (d.edges.map Edge.toValue))]

/-- Whether an event would be taken. -/
def canFireView (event : String) (allowed : Bool) (error : Option Failure) : Value :=
  .object [("event", .text event), ("allowed", .bool allowed), ("error", failureView error)]

end Workflow.Api
