import Workflow.Failure.Basic
import Workflow.Text.Case
import Workflow.Text.Quoted

/-!
# The wording of failures

The name of each kind of failure, its message, the two together as logs and answers quote them,
and the details that it carries under their names.
-/

namespace Workflow

def Flaw.kind : Flaw → String
  | .noObject | .noText => "AttributeError"
  | .noQuote => "Exception"
  | .noSuchWord | .noTimestamp | .noVersions => "ValueError"
  | .noKey | .noContainer | .noMembers | .noItems | .noSum | .mixedOffsets | .unordered =>
    "TypeError"

def Flaw.message : Flaw → String
  | .noKey => "not usable as a key"
  | .noContainer => "not a container"
  | .noMembers => "no members to look up"
  | .noItems => "no items to go through"
  | .noObject => "not an object"
  | .noText => "not a text"
  | .noSum => "nothing that a text can follow"
  | .noSuchWord => "not one of the known words"
  | .noTimestamp => "not a timestamp"
  | .mixedOffsets => "only one of the two timestamps has an offset"
  | .unordered => "versions of different kinds"
  | .noVersions => "no version"
  | .noQuote => "not to be quoted"

namespace Failure

/-- The name of the kind. -/
def kind : Failure → String
  | .value _ => "ValueError"
  | .runtime _ => "RuntimeError"
  | .key _ => "KeyError"
  | .type _ => "TypeError"
  | .zeroDivision _ => "ZeroDivisionError"
  | .general _ => "Exception"
  | .ranOut _ => "StopIteration"
  | .workflow _ => "FlowstateError"
  | .invalid _ => "WorkflowValidationError"
  | .stateNotFound .. => "StateNotFoundError"
  | .handlerNotFound .. => "HandlerNotFoundError"
  | .hookFailed .. => "HookExecutionError"
  | .stalled .. => "WorkflowStalledError"
  | .workflowNotFound .. => "WorkflowNotFoundError"
  | .instanceNotFound _ => "WorkflowInstanceNotFoundError"
  | .alreadyFinished .. => "WorkflowAlreadyFinishedError"
  | .misconfigured _ => "ImproperlyConfiguredException"
  | .malformed flaw => flaw.kind
  | .aborted _ => "Abort"
  | .cancelled => "CancelledError"
  | .exhausted => "RecursionError"
  | .illWorded f _ _ => f.kind

/-- The message. A missing name is quoted in it, and a hook's failure ends with its cause. That of a
failure whose text cannot be told is as it would be without the mishap. -/
def message : Failure → String
  | .value m | .runtime m | .type m | .zeroDivision m | .general m | .ranOut m | .workflow m
  | .misconfigured m | .aborted m => m
  | .key name => Text.quoted name
  | .invalid problems => "Workflow validation failed: " ++ String.intercalate "; " problems
  | .stateNotFound state owner =>
    "State '" ++ state.display ++ "' not found in workflow '" ++ owner.display ++ "'"
  | .handlerNotFound handler role =>
    Text.capitalize role ++ " handler '" ++ handler.display ++ "' not found in handler registry"
  | .hookFailed hook state cause =>
    "Hook '" ++ hook ++ "' of state '" ++ state ++ "' failed: " ++ cause.message
  | .stalled state bound =>
    "Workflow stalled in state '" ++ state ++ "' after " ++ toString bound ++ " auto transitions"
  | .workflowNotFound name version =>
    "Workflow '" ++ name.display ++ "'" ++
      (if version = .null then "" else " version '" ++ version.display ++ "'") ++ " not found"
  | .instanceNotFound id => "Workflow instance '" ++ id ++ "' not found"
  | .alreadyFinished id status => "Workflow instance '" ++ id ++ "' is already " ++ status
  | .malformed flaw => flaw.message
  | .cancelled => ""
  | .exhausted => "step budget used up"
  | .illWorded f _ _ => f.message

/-- The kind with what it was made from in brackets: the message, or the name that is missing. -/
def quoted : Failure → String
  | .key name => (key name).kind ++ "(" ++ Text.quoted name ++ ")"
  | .illWorded f _ _ => f.quoted
  | f => f.kind ++ "(" ++ Text.quoted f.message ++ ")"

/-- What a failure of the library carries, by name. -/
def details : Failure → List (String × Value)
  | .invalid problems => [("errors", .list (problems.map .text))]
  | .stateNotFound state owner => [("state_id", state), ("workflow_id", owner)]
  | .handlerNotFound handler role => [("handler_id", handler), ("role", .text role)]
  | .hookFailed hook state _ => [("hook", .text hook), ("state_id", .text state)]
  | .stalled state bound => [("state_id", .text state), ("max_steps", .int bound)]
  | .workflowNotFound name version => [("name", name), ("version", version)]
  | .instanceNotFound id => [("instance_id", .text id)]
  | .alreadyFinished id status => [("instance_id", .text id), ("status", .text status)]
  | .illWorded f _ _ => f.details
  | _ => []

/-- A failure as part of an answer. -/
def summary (f : Failure) : Value :=
  .object [("type", .text f.kind), ("message", .text f.message), ("repr", .text f.quoted)]

end Failure

end Workflow
