import Workflow.Definition.Basic
import Workflow.Text.Case

/-!
# The graph of a definition

One node per state and one edge per transition, both in the order of the definition. A node is named
by the state's key and shown under its label; a state without one is shown under its key, in
title case and with blanks for underscores.
-/

namespace Workflow

/-- A state as a node. -/
structure Node where
  key : String
  label : Value
  kind : StateKind
  isInitial : Bool
  isTerminal : Bool
  deriving DecidableEq, Repr

/-- A transition as an edge. -/
structure Edge where
  source : String
  target : Value
  event : Value
  guarded : Bool
  deriving DecidableEq, Repr

/-- The label that is made from a key. -/
def titleOfKey (key : String) : String :=
  Text.title (String.ofList (key.toList.map fun c => if c = '_' then ' ' else c))

/-- The label that a state is shown under. -/
def shownLabel (key : String) (s : State) : Value :=
  if s.label.truthy then s.label else .text (titleOfKey key)

def Node.ofState (d : Definition) (key : String) (s : State) : Node where
  key := key
  label := shownLabel key s
  kind := s.kind
  isInitial := key = d.initial
  isTerminal := s.isTerminal

def Edge.ofTransition (source : String) (t : Transition) : Edge where
  source := source
  target := t.target
  event := t.event
  guarded := t.guard.isSome

namespace Definition

def nodes (d : Definition) : List Node := d.states.entries.map fun (key, s) => Node.ofState d key s

/-- All transitions, each with the key of its state. -/
def arrows (d : Definition) : List (String × Transition) :=
  d.states.entries.flatMap fun (key, s) => s.transitions.map (key, ·)

def edges (d : Definition) : List Edge := d.arrows.map fun (source, t) => Edge.ofTransition source t

end Definition

def Node.toValue (n : Node) : Value :=
  .object [
    ("id", .text n.key),
    ("label", n.label),
    ("kind", .text n.kind.word),
    ("is_initial", .bool n.isInitial),
    ("is_terminal", .bool n.isTerminal)]

def Edge.toValue (e : Edge) : Value :=
  .object ([("source", .text e.source), ("target", e.target), ("event", e.event)] ++
    if e.guarded then [("condition", .text "guarded")] else [])

/-- The graph as a JSON object. -/
def Definition.graphValue (d : Definition) : Value :=
  .object [
    ("nodes", .list (d.nodes.map Node.toValue)),
    ("edges", .list (d.edges.map Edge.toValue))]

end Workflow
