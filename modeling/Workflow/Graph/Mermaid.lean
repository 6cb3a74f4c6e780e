import Workflow.Graph.Basic
import Workflow.Instance.Basic
import Workflow.Text.Lines

/-!
# Mermaid text

A definition as the source of a Mermaid flowchart: a head line, a line per state, and a line per
transition.

**States.** The brackets around a label tell the kind of the state, and a word in front of it
marks the initial state, or else a terminal one.

**Transitions.** The text on an arrow is the label, the event, or `auto`, the first that does not
count as false, then a mark if there is a guard; quotes are left out of it. A label or an event that
is shown there has to be a text; any other one stops the drawing.

**Progress** (`Definition.mermaidWith`). Style lines at the end colour the states that were left,
and the current or failed one.
-/

namespace Workflow

/-- The brackets around the label of a state. -/
def StateKind.brackets : StateKind → String × String
  | .task => ("\x7b\x7b", "\x7d\x7d")
  | .terminal => ("([", "])")
  | .auto => ("[", "]")

namespace Definition

/-- The word in front of the label of a state. -/
def mark (d : Definition) (key : String) (s : State) : String :=
  if key = d.initial then "START: " else if s.isTerminal then "END: " else ""

/-- What is shown between the brackets of a state. -/
def title (d : Definition) (key : String) (s : State) : String :=
  d.mark key s ++ (shownLabel key s).display

/-- The line of a state. -/
def stateLine (d : Definition) (key : String) (s : State) : String :=
  let (before, after) := s.kind.brackets
  "    " ++ key ++ before ++ d.title key s ++ after

end Definition

/-- A text without its quotes. -/
def withoutQuotes (s : String) : String :=
  String.ofList (s.toList.filter fun c => c ≠ '\'' && c ≠ '"')

namespace Transition

/-- What is shown on the arrow of a transition, apart from the mark of a guard. -/
def caption (t : Transition) : Value :=
  if t.label.truthy then t.label else if t.event.truthy then t.event else .text "auto"

/-- The text on the arrow of a transition. A mark cannot even be put behind a value that is neither
a text nor a list. -/
def arrowText (t : Transition) : Except Failure String :=
  match t.caption, t.guard with
  | .text s, none => .ok (withoutQuotes s)
  | .text s, some _ => .ok (withoutQuotes (s ++ " [guarded]"))
  | .list _, _ | _, none => .error (.malformed .noText)
  | _, some _ => .error (.malformed .noSum)

/-- The line of a transition. -/
def mermaidLine (source : String) (t : Transition) : Except Failure String := do
  let text ← t.arrowText
  return "    " ++ source ++ " -->|" ++ text ++ "| " ++ t.target.display

end Transition

namespace Definition

/-- The lines of the flowchart. -/
def mermaidLines (d : Definition) : Except Failure (List String) := do
  let arrowLines ← d.arrows.mapM fun (source, t) => t.mermaidLine source
  return "graph TD" :: (d.states.entries.map (fun (key, s) => d.stateLine key s) ++ arrowLines)

/-- The flowchart of a definition. -/
def mermaid (d : Definition) : Except Failure String := do
  return String.intercalate "\n" (← d.mermaidLines)

end Definition

/-! ## Progress -/

/-- The states to be coloured. -/
structure Progress where
  current : Option String := none
  visited : List String := []
  failed : Option String := none
  deriving DecidableEq, Repr

/-- The items of a list, each once, at its first place. -/
def firsts (xs : List String) : List String :=
  xs.foldl (fun done x => if x ∈ done then done else done ++ [x]) []

namespace Progress

def visitedLine (state : String) : String :=
  "    style " ++ state ++ " fill:#90EE90,stroke:#006400,stroke-width:2px"

def failedLine (state : String) : String :=
  "    style " ++ state ++ " fill:#FFB6C1,stroke:#8B0000,stroke-width:2px"

def currentLine (state : String) : String :=
  "    style " ++ state ++ " fill:#FFD700,stroke:#FFA500,stroke-width:3px"

/-- The style lines: the states that were left, in the order of the first visit, and then the failed
state, or else the current one. A name that is empty is not coloured as either. -/
def styleLines (p : Progress) : List String :=
  let left := (firsts p.visited).filter fun s => p.current ≠ some s && p.failed ≠ some s
  let last :=
    match p.failed.filter (· ≠ "") with
    | some s => [failedLine s]
    | none =>
      match p.current.filter (· ≠ "") with
      | some s => [currentLine s]
      | none => []
  left.map visitedLine ++ last

end Progress

/-- The flowchart with coloured states: its lines, and behind them the style lines. -/
def Definition.mermaidWith (d : Definition) (p : Progress) : Except Failure String := do
  return String.intercalate "\n" (Text.lines (← d.mermaid) ++ p.styleLines)

/-- The states to be coloured for an instance. -/
def Instance.progress (i : Instance) : Progress where
  current := some i.current
  visited := i.visited
  failed := if i.status = .failed then some i.current else none

end Workflow
