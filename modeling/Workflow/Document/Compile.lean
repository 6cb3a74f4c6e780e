import Workflow.Document.Basic
import Workflow.Document.Handlers

/-!
# Compiling documents

A document and a table of handlers make a definition. Each state is stored under its own id, and
each transition gets the id `<state>::<target>::<event>`, with `AUTO` for an event that counts as
false.

Handlers are looked up state by state: for each transition its guard and then its action, and after
the transitions the entry and the exit hook. The initial state is checked last.
-/

namespace Workflow

/-- The id of a transition. -/
def transitionId (state : String) (target event : Value) : String :=
  state ++ "::" ++ target.display ++ "::" ++ if event.truthy then event.display else "AUTO"

def TransitionEntry.compile (hs : Handlers) (state : String) (t : TransitionEntry) :
    Except Failure Transition := do
  let guard ← hs.resolve .guard t.guard
  let action ← hs.resolve .action t.action
  return {
    target := t.target
    event := t.event
    guard
    action
    id := .text (transitionId state t.target t.event)
    label := t.label }

def StateEntry.compile (hs : Handlers) (key : String) (s : StateEntry) : Except Failure State := do
  let transitions ← s.transitions.mapM (TransitionEntry.compile hs key)
  let onEnter ← hs.resolve .action s.onEnter
  let onExit ← hs.resolve .action s.onExit
  return {
    id := key
    kind := s.kind
    transitions
    onEnter
    onExit
    label := s.label
    description := s.description
    icon := s.icon }

/-- The states of a document, compiled in order. -/
def compileStates (hs : Handlers) :
    List (String × StateEntry) → Except Failure (List (String × State))
  | [] => .ok []
  | (key, s) :: rest => do
    let state ← s.compile hs key
    let states ← compileStates hs rest
    return (key, state) :: states

namespace Document

/-- The key of the initial state: a text that is in the table. -/
def initialKey (states : Dict String State) (initial id : Value) : Except Failure String :=
  match initial with
  | .list _ | .object _ => .error (.malformed .noKey)
  | .text key =>
    if states.contains key then .ok key
    else .error (.invalid [Definition.initialProblem initial id])
  | _ => .error (.invalid [Definition.initialProblem initial id])

/-- The definition that a document and handlers make. -/
def compile (doc : Document) (hs : Handlers) : Except Failure Definition := do
  let compiled ← compileStates hs doc.states.entries
  let states := Dict.ofList compiled
  let initial ← initialKey states doc.initial doc.id
  return {
    id := doc.id
    initial
    states
    version := doc.version
    description := doc.description }

end Document

/-- Reads a document and compiles it. -/
def compileDocument (v : Value) (hs : Handlers) : Except Failure Definition := do
  let doc ← Document.read v
  doc.compile hs

end Workflow
