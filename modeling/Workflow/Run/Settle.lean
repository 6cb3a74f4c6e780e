import Workflow.Run.Move

/-!
# Settling

An instance in an auto state goes on by itself until it needs an event, finishes or fails
(`Instance.settle`). It rests in an auto state that has no transition without an event, or none
whose guard passes.

**Bounds** (`Limits`). The caller may bound the number of moves; the bound is met only when one more
move would be made. Without a bound a cycle of auto states never rests, so the rounds are counted
against a budget as well, and an exhausted budget is a failure that is not contained.
-/

namespace Workflow

/-- How far settling may go. -/
structure Limits where
  /-- The greatest number of moves, if there is one. -/
  bound : Option Int := none
  /-- The number of rounds after which settling without a bound is given up. -/
  rounds : Nat := 10000
  deriving DecidableEq, Repr

/-- The rounds that settling may take: under a bound, one for each move and one to meet it. -/
def Limits.budget (l : Limits) : Nat :=
  match l.bound with
  | some n => n.toNat + 1
  | none => l.rounds

namespace Instance

/-- The failed snapshot after a setback. A failed hook gives the snapshot that it reached and its
own cause, taken as it is. -/
def markFailed (i : Instance) (s : Setback) : Activity Realm.flow Instance :=
  let (reached, error) :=
    match s with
    | .hook h => (h.reached, h.cause)
    | s => (i, s.toFailure)
  (logFailure .warning ("Instance " ++ reached.id ++ " failed in state '" ++ reached.current ++
    "': ") error).bind fun _ =>
  .done { reached with status := .failed, error := some error }

/-- Whether no further move may be made after `steps` of them. -/
def boundMet (bound : Option Int) (steps : Nat) : Option Int :=
  bound.filter fun n => n ≤ steps

/-- The end of settling: a run that completed on the way is logged. -/
def rest (i : Instance) (steps : Nat) : Activity Realm.flow Instance :=
  if steps ≠ 0 ∧ i.status = .completed then
    (log .info ("Instance " ++ i.id ++ " completed in state '" ++ i.current ++ "'")).bind fun _ =>
      .done i
  else .done i

/-- Settling after `steps` moves, with a number of rounds to go. -/
def settleFrom (d : Definition) (bound : Option Int) : Nat → Nat → Instance →
    Activity Realm.flow Instance
  | 0, _, _ => .fail .exhausted
  | rounds + 1, steps, i =>
    if i.status ≠ .running then i.rest steps
    else
      match d.state? i.current with
      | none => i.markFailed (.stateNotFound (.text i.current) d.id)
      | some state =>
        if state.kind ≠ .auto ∨ state.autoTransitions.isEmpty then i.rest steps
        else
          (i.select state.autoTransitions).bind fun
            | .error h => i.markFailed (.hook h)
            | .ok none => i.rest steps
            | .ok (some t) =>
              match boundMet bound steps with
              | some n => i.markFailed (.stalled state.id n)
              | none =>
                (move d i t .null).bind fun
                  | .error s => i.markFailed s
                  | .ok next => settleFrom d bound rounds (steps + 1) next

/-- Lets an instance go on by itself until it rests. -/
def settle (d : Definition) (limits : Limits) (i : Instance) : Activity Realm.flow Instance :=
  settleFrom d limits.bound limits.budget 0 i

end Instance

end Workflow
