import Workflow.Definition.Basic
import Workflow.Failure.Wording
import Workflow.Instance.Basic

/-!
# Moves

`Instance.move` is the only way from one state to another. Its hooks run in the order exit,
action, entry, and the history grows between the action and the entry hook.

**Setbacks** (`Setback`). What stops a move: a state that is missing, a hook that failed, or a bound
that was reached. A failed hook carries the snapshot as far as the move got: for a guard, an exit
hook and an action it is the given one, for an entry hook the moved one.

Failures that are not contained are no setbacks; they leave the move at once. So does what goes
wrong where the text of a hook's failure is told, as that is part of blaming the hook.
-/

namespace Workflow

/-- The part that a hook plays. -/
inductive HookRole where
  | guard
  | onExit
  | action
  | onEnter
  deriving DecidableEq, Repr

def HookRole.word : HookRole → String
  | .guard => "guard"
  | .onExit => "on_exit"
  | .action => "action"
  | .onEnter => "on_enter"

/-- A hook that failed, with its state, the cause, and what had been reached before. -/
structure HookFailure where
  role : HookRole
  state : String
  cause : Failure
  reached : Instance
  deriving DecidableEq, Repr

def HookFailure.toFailure (h : HookFailure) : Failure := .hookFailed h.role.word h.state h.cause

/-- What stops a move or the settling of an instance. -/
inductive Setback where
  | stateNotFound (state owner : Value)
  | hook (h : HookFailure)
  | stalled (state : String) (bound : Int)
  deriving DecidableEq, Repr

def Setback.toFailure : Setback → Failure
  | .stateNotFound state owner => .stateNotFound state owner
  | .hook h => h.toFailure
  | .stalled state bound => .stalled state bound

namespace Instance

/-- Names the part and the state of a hook that failed. -/
def blame {α : Type} (role : HookRole) (state : String) (reached : Instance) :
    Except Failure α → Except HookFailure α
  | .ok a => .ok a
  | .error cause => .error ⟨role, state, cause, reached⟩

/-! ## Guards -/

/-- Whether a guard passes: the truth of its answer on the context. -/
def testGuard (i : Instance) (guard : Hook) : Activity Realm.flow Bool :=
  (guard.call i.ctx).bind fun answer =>
    .look fun e => Activity.ofExcept (answer.truth (e.arena i.ctx.arena))

/-- Whether a transition is open to an instance. One without a guard always is. -/
def passes (i : Instance) (t : Transition) : Activity Realm.flow (Except HookFailure Bool) :=
  match t.guard with
  | none => .done (.ok true)
  | some guard =>
    (i.testGuard guard).caught.bind fun r => .done (blame .guard i.current i r)

/-- The first transition whose guard passes; guards after it are not called. -/
def select (i : Instance) : List Transition →
    Activity Realm.flow (Except HookFailure (Option Transition))
  | [] => .done (.ok none)
  | t :: rest =>
    (i.passes t).whenOk fun passed => if passed then .done (.ok (some t)) else i.select rest

/-! ## Moves -/

/-- Runs a hook of a state, if there is one, for its effect. -/
def runHook (i : Instance) (role : HookRole) (state : String) (hook : Option Hook)
    (reached : Instance) : Activity Realm.flow (Except HookFailure Unit) :=
  match hook with
  | none => .done (.ok ())
  | some hook =>
    (hook.call i.ctx).caught.bind fun r =>
      .done ((blame role state reached r).map fun _ => ())

/-- The event of a move as the log shows it. -/
def eventWord (event : Value) : String := if event.truthy then event.display else "AUTO"

/-- The snapshot after a move at a moment: the last visit is closed and one to the target is
added. -/
def moved (i : Instance) (t : Transition) (target : State) (event : Value) (moment : String) :
    Instance :=
  { i with
    current := target.id
    history := closeLast moment i.history ++
      [{ state := target.id, enteredAt := moment, transition := t.id, event }]
    status := if target.isTerminal then .completed else .running }

/-- The move along a transition between two known states. -/
def moveBetween (i : Instance) (t : Transition) (source target : State) (event : Value) :
    Activity Realm.flow (Except HookFailure Instance) :=
  (i.runHook .onExit source.id source.onExit i).whenOk fun _ =>
  (i.runHook .action source.id t.action i).whenOk fun _ =>
  readClock.bind fun moment =>
  let next := i.moved t target event moment.text
  (log .debug ("Instance " ++ i.id ++ ": " ++ source.id ++ " -> " ++ target.id ++
    " (event=" ++ eventWord event ++ ")")).bind fun _ =>
  (i.runHook .onEnter target.id target.onEnter next).whenOk fun _ =>
  .done (.ok next)

/-- Moves an instance along a transition. The current state is looked up first, then the target. -/
def move (d : Definition) (i : Instance) (t : Transition) (event : Value) :
    Activity Realm.flow (Except Setback Instance) :=
  match d.state? i.current with
  | none => .done (.error (.stateNotFound (.text i.current) d.id))
  | some source =>
    match d.target? t.target with
    | .error e => .fail e
    | .ok none => .done (.error (.stateNotFound t.target d.id))
    | .ok (some target) =>
      (i.moveBetween t source target event).bind fun r => .done (r.mapError .hook)

end Instance

end Workflow
