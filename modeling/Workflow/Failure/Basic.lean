import Workflow.Json.Value

/-!
# Failures

Everything that can stop an operation before its answer, by cause.

**Contained** failures (`Failure.isContained`) are those that a caller may turn into an answer:
faults of hooks and refusals of the library. An abort, a cancellation and an exhausted step
budget are not contained; they leave every operation they meet.

**Words.** Whoever blames a hook tells the text of what it has raised. A failure may be such that
this goes wrong (`Failure.illWorded`); then the mishap takes its place and nobody blames the hook
(`Failure.escape`).

**Waiting** (`Failure.awaited`). Hooks are waited for, and that something has run out arrives there
as another failure.
-/

namespace Workflow

/-- What is wrong with data that has not the shape that an operation needs. -/
inductive Flaw where
  /-- A list or an object stands where a key is needed. -/
  | noKey
  /-- The value cannot contain a name. -/
  | noContainer
  /-- The value contains a name, but has no members. -/
  | noMembers
  /-- The value cannot be gone through item by item. -/
  | noItems
  /-- The value is not an object. -/
  | noObject
  /-- The value is not a text. -/
  | noText
  /-- A text cannot be put behind the value. -/
  | noSum
  /-- The word is not one of a closed list. -/
  | noSuchWord
  /-- The text is not a timestamp. -/
  | noTimestamp
  /-- Of two timestamps one has an offset and the other has none. -/
  | mixedOffsets
  /-- Two versions are not ordered. -/
  | unordered
  /-- There is no version to choose from. -/
  | noVersions
  /-- A failure cannot be quoted. -/
  | noQuote
  deriving DecidableEq, Repr

/-- What goes wrong where a failure is put into words. -/
inductive Mishap where
  | value (message : String)
  | runtime (message : String)
  | type (message : String)
  | general (message : String)
  deriving DecidableEq, Repr

/-- Why an operation has no answer. -/
inductive Failure where
  /-- A hook met a value that it cannot work with. -/
  | value (message : String)
  /-- A hook failed while it ran. -/
  | runtime (message : String)
  /-- A name is missing. -/
  | key (name : String)
  /-- A value has the wrong kind. -/
  | type (message : String)
  /-- A division by zero. -/
  | zeroDivision (message : String)
  /-- A failure of no particular kind. -/
  | general (message : String)
  /-- There is no next item. -/
  | ranOut (message : String)
  /-- A failure of the library of no particular kind. -/
  | workflow (message : String)
  /-- A definition or document is not valid. -/
  | invalid (problems : List String)
  /-- A state is not in the table of a workflow. -/
  | stateNotFound (state workflow : Value)
  /-- A document names a handler that is not registered. -/
  | handlerNotFound (handler : Value) (role : String)
  /-- A guard, an action or an entry or exit hook failed. -/
  | hookFailed (hook state : String) (cause : Failure)
  /-- Settling went on past its bound. -/
  | stalled (state : String) (bound : Int)
  /-- A workflow, or a version of it, is not registered. -/
  | workflowNotFound (name version : Value)
  /-- The engine holds no instance under that id. -/
  | instanceNotFound (id : String)
  /-- The context of a finished instance may not change. -/
  | alreadyFinished (id status : String)
  /-- The parts given to an application do not fit together. -/
  | misconfigured (message : String)
  /-- Data of the wrong shape. -/
  | malformed (flaw : Flaw)
  /-- A hook gave the whole operation up. -/
  | aborted (message : String)
  /-- The operation was cancelled from outside. -/
  | cancelled
  /-- The budget of steps was used up. -/
  | exhausted
  /-- A failure of a hook that has mishaps where its text is told or where it is quoted. -/
  | illWorded (f : Failure) (telling quoting : Option Mishap)
  deriving DecidableEq, Repr

def Mishap.toFailure : Mishap → Failure
  | .value message => .value message
  | .runtime message => .runtime message
  | .type message => .type message
  | .general message => .general message

namespace Failure

/-- Whether a caller may turn the failure into an answer. -/
def isContained : Failure → Bool
  | .aborted _ | .cancelled | .exhausted => false
  | .illWorded f _ _ => f.isContained
  | _ => true

/-- Whether the failure is one of the library's own. -/
def isOwn : Failure → Bool
  | .workflow _ | .invalid _ | .stateNotFound .. | .handlerNotFound .. | .hookFailed ..
  | .stalled .. | .workflowNotFound .. | .instanceNotFound _ | .alreadyFinished .. => true
  | .illWorded f _ _ => f.isOwn
  | _ => false

/-- The mishap where the text of the failure is told. -/
def untold : Failure → Option Mishap
  | .illWorded _ telling _ => telling
  | _ => none

/-- The mishap where the failure is quoted. -/
def unquoted : Failure → Option Mishap
  | .illWorded _ _ quoting => quoting
  | _ => none

/-- Whether the failure is that there is no next item. -/
def hasRunOut : Failure → Bool
  | .ranOut _ => true
  | .illWorded f _ _ => f.hasRunOut
  | _ => false

/-- The failure as it arrives at who has waited for the work. -/
def awaited (f : Failure) : Failure :=
  if f.hasRunOut then .runtime "coroutine raised StopIteration" else f

/-- What leaves the one who is to blame a hook for the failure: a failure that is not contained, or
the mishap of telling its text. -/
def escape (f : Failure) : Option Failure :=
  if f.isContained then f.untold.map Mishap.toFailure else some f

variable {f : Failure}

theorem escape_of_uncontained (h : ¬ f.isContained) : f.escape = some f := if_neg h

theorem escape_eq_none : f.escape = none ↔ f.isContained ∧ f.untold = none := by
  unfold escape
  by_cases h : f.isContained <;> simp [h]

theorem isContained_of_hasRunOut (h : f.hasRunOut) : f.isContained := by
  induction f with
  | ranOut message => rfl
  | illWorded f telling quoting ih => exact ih h
  | _ => cases h

theorem awaited_of_uncontained (h : ¬ f.isContained) : f.awaited = f :=
  if_neg fun hout => h (isContained_of_hasRunOut hout)

/-- The failure is contained, its text can be told, and it arrives as it is. -/
structure Plain (f : Failure) : Prop where
  contained : f.isContained
  told : f.untold = none
  stays : ¬ f.hasRunOut

theorem Plain.escape (h : f.Plain) : f.escape = none := escape_eq_none.2 ⟨h.contained, h.told⟩

theorem Plain.awaited (h : f.Plain) : f.awaited = f := if_neg h.stays

end Failure

end Workflow
