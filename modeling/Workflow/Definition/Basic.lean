import Workflow.Dict
import Workflow.Hook.Basic
import Workflow.Text.Quoted

/-!
# Workflow definitions

A state machine: states under their keys, and for each state the transitions that lead out of it, in
the order in which they are tried.

**States.** A *task* state waits for an event. An *auto* state is left by transitions without an
event. A *terminal* state ends the run. A state has an id of its own, which in a compiled
definition is its key.

**Transitions.** A transition names the key of its target. Its guard, if there is one, must pass;
its action runs on the way.

Ids, events, labels and the like that the engine only carries are JSON values, null if absent. The
only check is that the initial state is in the table (`Definition.check`).
-/

namespace Workflow

/-- What a state does with a run that enters it. -/
inductive StateKind where
  /-- Waits for an event. -/
  | task
  /-- Goes on by itself. -/
  | auto
  /-- Ends the run. -/
  | terminal
  deriving DecidableEq, Repr

namespace StateKind

def all : List StateKind := [.task, .auto, .terminal]

def word : StateKind → String
  | .task => "task"
  | .auto => "auto"
  | .terminal => "end"

/-- The kind that a word names. -/
def ofWord? (s : String) : Option StateKind := all.find? fun k => k.word = s

end StateKind

/-- A way out of a state. -/
structure Transition where
  /-- The key of the state it leads to. -/
  target : Value
  /-- The event that triggers it; null for one that needs none. -/
  event : Value := .null
  guard : Option Hook := none
  action : Option Hook := none
  id : Value := .null
  label : Value := .null

namespace Transition

def isAuto (t : Transition) : Bool := t.event = .null

def isFor (event : String) (t : Transition) : Bool := t.event = .text event

end Transition

/-- A state with its ways out, in the order in which they are tried. -/
structure State where
  id : String
  kind : StateKind := .task
  transitions : List Transition := []
  onEnter : Option Hook := none
  onExit : Option Hook := none
  label : Value := .null
  description : Value := .null
  icon : Value := .null
  data : Value := .null

namespace State

def isTerminal (s : State) : Bool := s.kind = .terminal

/-- The transitions that need no event. -/
def autoTransitions (s : State) : List Transition := s.transitions.filter (·.isAuto)

/-- The transitions that an event triggers. -/
def transitionsFor (s : State) (event : String) : List Transition :=
  s.transitions.filter (·.isFor event)

end State

/-- A state machine, shared by all runs of it. -/
structure Definition where
  id : Value
  /-- The key of the state a run starts in. -/
  initial : String
  states : Dict String State
  version : Value := .int 1
  description : Value := .text ""

namespace Definition

def state? (d : Definition) (key : String) : Option State := d.states.get? key

/-- The state that a transition leads to. A target that is no text is in no table, and a list or an
object cannot even be looked up. -/
def target? (d : Definition) : Value → Except Failure (Option State)
  | .text key => .ok (d.state? key)
  | .list _ | .object _ => .error (.malformed .noKey)
  | _ => .ok none

/-- The problem of a definition whose initial state is not in its table. -/
def initialProblem (initial id : Value) : String :=
  "Initial state '" ++ initial.display ++ "' is not defined in workflow '" ++ id.display ++ "'"

/-- A definition is valid when its initial state is in its table. -/
def check (d : Definition) : Except Failure Unit :=
  if d.states.contains d.initial then .ok ()
  else .error (.invalid [initialProblem (.text d.initial) d.id])

end Definition

end Workflow
