import Workflow.Run.Dispatch

/-!
# Observers

An observer is told of each dispatch that changed the state of an instance. What it does then
(`Reaction`) is written out step by step: it may leave notes, fail, pause, add and remove
observers by name, and send further events.
-/

namespace Workflow

/-- What an observer is told: the states before and after an event, and the snapshot. -/
structure Notice where
  source : String
  target : String
  event : String
  reached : Instance
  deriving DecidableEq, Repr

/-- What an observer does, step by step. -/
inductive Reaction where
  | done
  | fail (e : Failure)
  | note (v : Value) (next : Reaction)
  | yield (next : Reaction)
  | subscribe (name : String) (next : Reaction)
  | unsubscribe (name : String) (next : Reaction)
  | send (id event : String) (k : Dispatch → Reaction)

/-- Someone to be told of dispatches. -/
structure Observer where
  name : String
  react : Notice → Reaction

/-- The log message about an observer that failed. -/
def Notice.complaint (n : Notice) : String :=
  "Transition observer failed for instance " ++ n.reached.id ++ " (" ++ n.source ++ " -> " ++
    n.target ++ ")"

/-! ## Observers written as scripts -/

/-- One step of a scripted observer. -/
inductive ObserverStep where
  | raise (f : Failure)
  | yield
  | subscribe (name : String)
  | unsubscribe (name : String)
  | send (id event : String)
  deriving DecidableEq, Repr

/-- The note that a nested dispatch leaves. -/
def sentNote (id event : String) (d : Dispatch) : Value :=
  .list [.text "sent", .text id, .text event, .bool d.transitioned, .text d.reached.current]

/-- The reaction of a script. -/
def Reaction.ofSteps : List ObserverStep → Reaction
  | [] => .done
  | .raise f :: _ => .fail f
  | .yield :: rest => .yield (ofSteps rest)
  | .subscribe name :: rest => .subscribe name (ofSteps rest)
  | .unsubscribe name :: rest => .unsubscribe name (ofSteps rest)
  | .send id event :: rest =>
    .send id event fun d => .note (sentNote id event d) (ofSteps rest)

/-- The note that a scripted observer leaves when it is called. -/
def Notice.note (name : String) (n : Notice) : Value :=
  .list [.text "observer", .text name, .text n.source, .text n.target, .text n.event,
    .text n.reached.status.word]

/-- An observer that notes what it is told and then runs steps. -/
def Observer.ofSteps (name : String) (steps : List ObserverStep) : Observer :=
  ⟨name, fun n => .note (n.note name) (Reaction.ofSteps steps)⟩

end Workflow
