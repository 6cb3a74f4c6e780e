import Workflow.Run.Settle

/-!
# Dispatching events

An event moves a running instance along the first transition of its state that names the event and
whose guard passes; then the instance settles (`Instance.send`). An event that no transition takes
leaves the very same snapshot.

`Instance.canFire` tells beforehand whether an event would be taken. It calls the same guards.
-/

namespace Workflow

/-- The outcome of an event. -/
structure Dispatch where
  reached : Instance
  /-- Whether a transition was made, entry hook included. -/
  transitioned : Bool
  deriving DecidableEq, Repr

namespace Instance

/-- The outcome that leaves everything as it is. -/
def refuse (i : Instance) : Activity Realm.flow Dispatch := .done ⟨i, false⟩

/-- The outcome of a setback. -/
def refuseWith (i : Instance) (s : Setback) : Activity Realm.flow Dispatch :=
  (i.markFailed s).bind fun failed => .done ⟨failed, false⟩

/-- Sends an event to an instance. -/
def send (d : Definition) (limits : Limits) (i : Instance) (event : String) :
    Activity Realm.flow Dispatch :=
  if i.status ≠ .running then i.refuse
  else
    match d.state? i.current with
    | none => i.refuse
    | some state =>
      if state.transitions.isEmpty then i.refuse
      else if (state.transitionsFor event).isEmpty then
        (log .debug ("Instance " ++ i.id ++ ": no transition for event " ++ event ++ " in '" ++
          state.id ++ "'")).bind fun _ => i.refuse
      else
        (i.select (state.transitionsFor event)).bind fun
          | .error h => i.refuseWith (.hook h)
          | .ok none => i.refuse
          | .ok (some t) =>
            (move d i t (.text event)).bind fun
              | .error s => i.refuseWith s
              | .ok next => (settle d limits next).bind fun settled => .done ⟨settled, true⟩

/-- Whether an event would be taken; a guard that fails makes this fail. -/
def canFire (d : Definition) (i : Instance) (event : String) : Activity Realm.flow Bool :=
  if i.status ≠ .running then .done false
  else
    match d.state? i.current with
    | none => .done false
    | some state =>
      (i.select (state.transitionsFor event)).bind fun
        | .error h => .fail h.toFailure
        | .ok selected => .done selected.isSome

end Instance

end Workflow
