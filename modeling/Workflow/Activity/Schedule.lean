import Workflow.Activity.Basic

/-!
# Schedules

Several activities share one world and take turns.

**Turns.** A ready activity runs until it pauses, waits for a lock, or ends; then it goes to the
end of the ready queue, to the end of the waiting queue, or to the finished ones.

**Locks.** A lock that is given back goes to the activity that has waited for it longest, which
becomes ready at that moment; it is never free while an activity waits for it. So nobody is
overtaken.

**The record.** Who got which lock is recorded in order (`Schedule.taken`); no turn depends on it.

**Order.** `Schedule.turn` runs any one of the ready activities. `Schedule.run` always takes the one
that has been ready longest.
-/

namespace Workflow

/-- Activities that take turns on one world. -/
structure Schedule (R : Realm) (α : Type) where
  world : R.World
  /-- Reports so far, the latest first. -/
  reported : List R.Report := []
  /-- Activities that may go on, by number; the first has been ready longest. -/
  ready : List (Nat × Activity R α)
  /-- Activities that wait for a lock; the first has waited longest. -/
  waiting : List (R.Key × Nat × Activity R α) := []
  /-- The locks that are taken. -/
  held : List R.Key := []
  /-- The locks that were got so far, with the activity that got them, the latest first. -/
  taken : List (R.Key × Nat) := []
  /-- Ended activities with their answers, the latest first. -/
  finished : List (Nat × Except Failure α) := []

namespace Schedule

variable {R : Realm} {α : Type}

/-- A world and activities that are all ready, in order. -/
def start (w : R.World) (ts : List (Activity R α)) : Schedule R α where
  world := w
  ready := ts.zipIdx.map fun (t, n) => (n, t)

/-- Gives a lock back: the first that waits for it has it now, or it is free. -/
def giveBack [DecidableEq R.Key] (key : R.Key) (s : Schedule R α) : Schedule R α :=
  match s.waiting.find? fun entry => decide (entry.1 = key) with
  | some (_, n, t) =>
    { s with
      ready := s.ready ++ [(n, t)]
      waiting := s.waiting.eraseP fun entry => decide (entry.1 = key)
      taken := (key, n) :: s.taken }
  | none => { s with held := s.held.erase key }

/-- Runs activity number `n` until it pauses, waits or ends. -/
def advance [DecidableEq R.Key] (n : Nat) : Activity R α → Schedule R α → Schedule R α
  | .done a, s => { s with finished := (n, .ok a) :: s.finished }
  | .fail e, s => { s with finished := (n, .error e) :: s.finished }
  | .look k, s => advance n (k s.world) s
  | .update f next, s => advance n next { s with world := f s.world }
  | .report r next, s => advance n next { s with reported := r :: s.reported }
  | .pause k, s => { s with ready := s.ready ++ [(n, k .resume)] }
  | .acquire key next, s =>
    if key ∈ s.held then { s with waiting := s.waiting ++ [(key, n, next)] }
    else advance n next { s with held := key :: s.held, taken := (key, n) :: s.taken }
  | .release key next, s => advance n next (s.giveBack key)

/-- One turn of the ready activity at a place in the queue; nothing happens if there is none. -/
def turn [DecidableEq R.Key] (place : Nat) (s : Schedule R α) : Schedule R α :=
  match s.ready[place]? with
  | some (n, t) => advance n t { s with ready := s.ready.eraseIdx place }
  | none => s

/-- Turns at the given places, one after the other. -/
def turns [DecidableEq R.Key] (places : List Nat) (s : Schedule R α) : Schedule R α :=
  places.foldl (fun s place => s.turn place) s

/-- Lets the activity that has been ready longest have its turn, until none is ready or the number
of turns is used up. -/
def run [DecidableEq R.Key] : Nat → Schedule R α → Schedule R α
  | 0, s => s
  | fuel + 1, s => if s.ready.isEmpty then s else run fuel (s.turn 0)

/-- The activities that got a lock, in order; one that got it again is named again. -/
def takers [DecidableEq R.Key] (key : R.Key) (s : Schedule R α) : List Nat :=
  (s.taken.reverse.filter fun entry => decide (entry.1 = key)).map (·.2)

/-- The answer of an activity, if it has ended. -/
def answer? (s : Schedule R α) (n : Nat) : Option (Except Failure α) := s.finished.lookup n

end Schedule

end Workflow
