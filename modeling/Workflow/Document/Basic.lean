import Workflow.Definition.Basic

/-!
# Workflow documents

A workflow is written as a JSON object with the members `id`, `initialState`, `states`, `version`
and `description`. Reading a document finds its states and transitions and checks that the
required members are there and that each state has a known kind; all other values are carried
unchecked.

**Questions to a value.** Whether a value has a name is asked in three ways: an object has its
members, a list has its items, and a text has its parts; other values cannot be asked. Only an
object then answers with a value.
-/

namespace Workflow

/-- Whether the characters of `part` stand in `whole` one after the other. -/
def isPart (part whole : List Char) : Bool :=
  match whole with
  | [] => part.isEmpty
  | c :: rest => part.isPrefixOf (c :: rest) || isPart part rest

namespace Value

/-- Whether a value has a name. -/
def has (v : Value) (name : String) : Except Failure Bool :=
  match v with
  | .object members => .ok (Dict.find name members).isSome
  | .list items => .ok (items.any fun item => item = .text name)
  | .text s => .ok (isPart name.toList s.toList)
  | _ => .error (.malformed .noContainer)

/-- The member of that name; only an object has one. -/
def require (v : Value) (name : String) : Except Failure Value :=
  match v with
  | .object members =>
    match Dict.find name members with
    | some w => .ok w
    | none => .error (.key name)
  | _ => .error (.malformed .noMembers)

/-- The items that a value gives one after the other: those of a list, the names of an object, the
characters of a text. -/
def items (v : Value) : Except Failure (List Value) :=
  match v with
  | .list items => .ok items
  | .object members => .ok (members.map fun e => .text e.1)
  | .text s => .ok (s.toList.map fun c => .text (String.singleton c))
  | _ => .error (.malformed .noItems)

end Value

/-- A transition of a document; its hooks are ids of handlers. -/
structure TransitionEntry where
  target : Value
  label : Value
  event : Value
  guard : Value
  action : Value
  deriving DecidableEq, Repr

/-- A state of a document. -/
structure StateEntry where
  kind : StateKind
  label : Value
  description : Value
  icon : Value
  onEnter : Value
  onExit : Value
  transitions : List TransitionEntry
  deriving DecidableEq, Repr

/-- A document as read. -/
structure Document where
  id : Value
  initial : Value
  states : Dict String StateEntry
  version : Value
  description : Value

/-! ## Problems -/

def missingTarget : Failure := .invalid ["Missing required key 'target' in transition"]

def missingKind : Failure := .invalid ["Missing required key 'kind' in state"]

/-- The failure of a kind that is none of the known words. -/
def unknownKind (kind : Value) : Failure :=
  .invalid ["Unknown state kind '" ++ kind.display ++ "' (expected one of " ++
    String.intercalate ", " (StateKind.all.map (·.word)) ++ ")"]

def missingMember (name : String) : String := "Missing required key '" ++ name ++ "'"

/-! ## Reading -/

def TransitionEntry.read (v : Value) : Except Failure TransitionEntry := do
  if ← v.has "target" then
    let target ← v.require "target"
    return {
      target
      label := v.getD "label"
      event := v.getD "event"
      guard := v.getD "guard"
      action := v.getD "action" }
  else throw missingTarget

/-- The kind that a value names. -/
def StateKind.ofValue? (v : Value) : Option StateKind := v.text?.bind StateKind.ofWord?

/-- The transitions of a state: none where the value counts as false. -/
def readTransitions (v : Value) : Except Failure (List TransitionEntry) := do
  if v.truthy then (← v.items).mapM TransitionEntry.read else return []

def StateEntry.read (v : Value) : Except Failure StateEntry := do
  if ← v.has "kind" then
    let word ← v.require "kind"
    match StateKind.ofValue? word with
    | none => throw (unknownKind word)
    | some kind =>
      let transitions ← readTransitions (v.getD "transitions")
      return {
        kind
        label := v.getD "label"
        description := v.getD "description"
        icon := v.getD "icon"
        onEnter := v.getD "onEnter"
        onExit := v.getD "onExit"
        transitions }
  else throw missingKind

/-- The states of a document, under their names. -/
def readStates : List (String × Value) → Except Failure (List (String × StateEntry))
  | [] => .ok []
  | (name, v) :: rest => do
    let state ← StateEntry.read v
    let states ← readStates rest
    return (name, state) :: states

namespace Document

/-- The members that a document must have. -/
def required : List String := ["id", "initialState", "states"]

/-- The required members that are not there. -/
def missing (v : Value) : List String → Except Failure (List String)
  | [] => .ok []
  | name :: rest => do
    let found ← v.has name
    let others ← missing v rest
    return if found then others else name :: others

/-- Reads a document. All missing members are named together, before anything else is looked at. -/
def read (v : Value) : Except Failure Document := do
  match ← missing v required with
  | [] =>
    let id ← v.require "id"
    let initial ← v.require "initialState"
    match ← v.require "states" with
    | .object members =>
      let states ← readStates members
      return {
        id
        initial
        states := Dict.ofList states
        version := (v.get? "version").getD (.int 1)
        description := (v.get? "description").getD (.text "") }
    | _ => throw (.malformed .noObject)
  | names => throw (.invalid (names.map missingMember))

end Document

end Workflow
