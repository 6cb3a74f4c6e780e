import Workflow.Definition.Basic
import Workflow.Failure.Wording

/-!
# Handlers

The table of hooks that documents name. An id that counts as false names no hook; any other one has
to be in the table.
-/

namespace Workflow

/-- The role in which a document asks for a handler. -/
inductive HandlerRole where
  | guard
  | action
  deriving DecidableEq, Repr

def HandlerRole.word : HandlerRole → String
  | .guard => "guard"
  | .action => "action"

/-- Hooks by id, in the order in which the ids came in. -/
abbrev Handlers := Dict String Hook

namespace Handlers

/-- The hook under an id. -/
def lookup (hs : Handlers) (id : String) : Except Failure Hook :=
  match hs.get? id with
  | some h => .ok h
  | none => .error (.key id)

/-- The hook that a document's entry names, if it names one. -/
def resolve (hs : Handlers) (role : HandlerRole) (id : Value) : Except Failure (Option Hook) :=
  if id.truthy then
    match id with
    | .text name =>
      match hs.get? name with
      | some h => .ok (some h)
      | none => .error (.handlerNotFound id role.word)
    | .list _ | .object _ => .error (.malformed .noKey)
    | _ => .error (.handlerNotFound id role.word)
  else .ok none

end Handlers

end Workflow
