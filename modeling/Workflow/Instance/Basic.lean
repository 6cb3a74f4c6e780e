import Workflow.Hook.Basic

/-!
# Instances

An instance is one run of a definition, as a snapshot. Operations never change a snapshot; they make
a new one. The context is the exception: snapshots hold it by reference, and hooks change it in
place.

**The history** is the list of visits to states, in order. Only the last visit may be open, and it
is open as long as its state has not been left.
-/

namespace Workflow

/-- Whether a run can go on. -/
inductive Status where
  | running
  | completed
  /-- A hook or a look-up failed. -/
  | failed
  deriving DecidableEq, Repr

namespace Status

def all : List Status := [.running, .completed, .failed]

def word : Status → String
  | .running => "running"
  | .completed => "completed"
  | .failed => "error"

/-- The status that a word names. -/
def ofWord? (s : String) : Option Status := all.find? fun k => k.word = s

end Status

/-- One visit to a state. -/
structure Visit where
  state : String
  enteredAt : String
  /-- When the state was left; none while it is occupied. -/
  leftAt : Option String := none
  /-- The id of the transition that led here. -/
  transition : Value := .null
  /-- The event that triggered it; null for the first visit and for auto transitions. -/
  event : Value := .null
  deriving DecidableEq, Repr

def Visit.isOpen (v : Visit) : Bool := v.leftAt.isNone

/-- A snapshot of one run. -/
structure Instance where
  /-- The id of the definition. -/
  workflow : Value
  id : String
  /-- The occupied state. -/
  current : String
  ctx : Context
  history : List Visit := []
  status : Status := .running
  /-- What stopped a failed run. -/
  error : Option Failure := none
  deriving DecidableEq, Repr

namespace Instance

def isRunning (i : Instance) : Bool := i.status = .running

def isFinished (i : Instance) : Bool := i.status = .completed || i.status = .failed

/-- The last visit, if its state has not been left. -/
def openVisit? (i : Instance) : Option Visit := i.history.getLast?.filter (·.isOpen)

/-- The states that were entered and left, in order. -/
def visited (i : Instance) : List String := (i.history.filter (!·.isOpen)).map (·.state)

end Instance

/-- Marks the last visit as left, if it is open. -/
def closeLast (moment : String) : List Visit → List Visit
  | [] => []
  | [v] => [if v.isOpen then { v with leftAt := some moment } else v]
  | v :: rest => v :: closeLast moment rest

theorem closeLast_append_cons (moment : String) (earlier : List Visit) (v : Visit)
    (later : List Visit) :
    closeLast moment (earlier ++ v :: later) = earlier ++ closeLast moment (v :: later) := by
  induction earlier with
  | nil => rfl
  | cons u rest ih =>
    cases rest with
    | nil => rfl
    | cons u' rest => exact congrArg (u :: ·) ih

end Workflow
