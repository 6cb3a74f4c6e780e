import Workflow.Document.Compile
import Workflow.Graph.Mermaid
import Workflow.Proofs.Failure.Sequences

/-!
# The flowchart as a rendering of the graph

The graph of a definition as a JSON object and its flowchart are made apart from each other. The
lines of the flowchart can be told from the graph.

**Nodes** (`Value.nodeLine`). The members of a node tell its line.

**Edges** (`Value.edgeLine`). The members of an edge and the label of its transition, which is not
in the graph, tell its line. Without a label, the members alone do.

**Captions** (`Definition.Captioned`). A graph can be made of any definition, but a flowchart only
if there is a text to show on each arrow, as the label or, without one, as the event.

Main result: `mermaid_renders_graph`.
-/

namespace Workflow

/-! ## Lines from the graph -/

namespace Value

/-- The brackets around the label of a node, by its kind. -/
def nodeBrackets (node : Value) : String × String :=
  if node.getD "kind" = .text "task" then ("\x7b\x7b", "\x7d\x7d")
  else if node.getD "kind" = .text "end" then ("([", "])")
  else ("[", "]")

/-- The word in front of the label of a node. -/
def nodeMark (node : Value) : String :=
  if node.getD "is_initial" = .bool true then "START: "
  else if node.getD "is_terminal" = .bool true then "END: "
  else ""

/-- The line of a node. -/
def nodeLine (node : Value) : String :=
  "    " ++ (node.getD "id").display ++ node.nodeBrackets.1 ++
    (node.nodeMark ++ (node.getD "label").display) ++ node.nodeBrackets.2

/-- The word for the event of an edge. -/
def edgeEvent (edge : Value) : String :=
  if (edge.getD "event").truthy then (edge.getD "event").display else "auto"

/-- The mark of a guarded edge. -/
def edgeMark (edge : Value) : String :=
  if edge.getD "condition" = .text "guarded" then " [guarded]" else ""

/-- The line of an edge, given the label of its transition. -/
def edgeLine (edge label : Value) : String :=
  "    " ++ (edge.getD "source").display ++ " -->|" ++
    (withoutQuotes (if label.truthy then label.display else edge.edgeEvent) ++ edge.edgeMark) ++
    "| " ++ (edge.getD "target").display

end Value

namespace Definition

/-- The labels of the transitions, in order. -/
def labels (d : Definition) : List Value := d.arrows.map fun (_, t) => t.label

/-- On each arrow there is a text to show. -/
def Captioned (d : Definition) : Prop := ∀ a ∈ d.arrows, ∃ s, a.2.caption = .text s

instance (d : Definition) : Decidable d.Captioned :=
  decidable_of_iff (∀ a ∈ d.arrows, a.2.caption.text?.isSome) <| by
    refine forall₂_congr fun a _ => ?_
    cases a.2.caption <;> simp [Value.text?]

end Definition

variable {d : Definition} {t : Transition}

/-! ## Nodes -/

section Node

variable (n : Node)

@[simp] theorem Node.getD_id : n.toValue.getD "id" = .text n.key := rfl

@[simp] theorem Node.getD_label : n.toValue.getD "label" = n.label := rfl

@[simp] theorem Node.getD_kind : n.toValue.getD "kind" = .text n.kind.word := rfl

@[simp] theorem Node.getD_isInitial : n.toValue.getD "is_initial" = .bool n.isInitial := rfl

@[simp] theorem Node.getD_isTerminal : n.toValue.getD "is_terminal" = .bool n.isTerminal := rfl

theorem Node.nodeBrackets_toValue : n.toValue.nodeBrackets = n.kind.brackets := by
  unfold Value.nodeBrackets
  cases h : n.kind <;> simp [h, StateKind.word, StateKind.brackets]

end Node

/-- The line of a node is that of its state. -/
theorem nodeLine_ofState (d : Definition) (key : String) (s : State) :
    (Node.ofState d key s).toValue.nodeLine = d.stateLine key s := by
  have hmark : (Node.ofState d key s).toValue.nodeMark = d.mark key s := by
    simp [Value.nodeMark, Definition.mark, Node.ofState]
  unfold Value.nodeLine
  rw [hmark, Node.nodeBrackets_toValue]
  rfl

/-! ## Edges -/

section Edge

variable (e : Edge)

@[simp] theorem Edge.getD_source : e.toValue.getD "source" = .text e.source := rfl

@[simp] theorem Edge.getD_target : e.toValue.getD "target" = e.target := rfl

@[simp] theorem Edge.getD_event : e.toValue.getD "event" = e.event := rfl

@[simp] theorem Edge.getD_condition :
    e.toValue.getD "condition" = if e.guarded then .text "guarded" else .null := by
  cases h : e.guarded <;> simp [toValue, h, Value.getD, Value.get?, Dict.find]

end Edge

theorem withoutQuotes_append (s s' : String) :
    withoutQuotes (s ++ s') = withoutQuotes s ++ withoutQuotes s' := by
  simp [withoutQuotes]

theorem withoutQuotes_guarded : withoutQuotes " [guarded]" = " [guarded]" := by decide

theorem Transition.display_caption (t : Transition) (source : String) :
    t.caption.display =
      if t.label.truthy then t.label.display
      else (Edge.ofTransition source t).toValue.edgeEvent := by
  unfold caption Value.edgeEvent
  by_cases hl : t.label.truthy
  · simp [hl]
  · by_cases he : t.event.truthy <;> simp [hl, he, Edge.ofTransition, Value.display]

/-- The text on an arrow is the caption, and the mark of a guard behind it. -/
theorem Transition.arrowText_of_caption {caption : String} (h : t.caption = .text caption)
    (source : String) :
    t.arrowText = .ok (withoutQuotes caption ++ (Edge.ofTransition source t).toValue.edgeMark) := by
  unfold arrowText Value.edgeMark
  cases hguard : t.guard with
  | none => simp [h, hguard, Edge.ofTransition]
  | some g =>
    simp [h, hguard, Edge.ofTransition, withoutQuotes_append, withoutQuotes_guarded]

theorem Transition.exists_caption {text : String} (h : t.arrowText = .ok text) :
    ∃ s, t.caption = .text s := by
  unfold Transition.arrowText at h
  split at h
  next s hs _ => exact ⟨s, hs⟩
  next s _ hs _ => exact ⟨s, hs⟩
  all_goals cases h

theorem Transition.mermaidLine_of_caption {caption : String} (h : t.caption = .text caption)
    (source : String) :
    t.mermaidLine source = .ok ((Edge.ofTransition source t).toValue.edgeLine t.label) := by
  have hshown := t.display_caption source
  rw [h] at hshown
  unfold mermaidLine Value.edgeLine
  rw [arrowText_of_caption h source, ← hshown]
  rfl

/-! ## The whole text -/

theorem Definition.mermaidLines_of_captioned (h : d.Captioned) :
    d.mermaidLines = .ok ("graph TD" :: ((d.nodes.map Node.toValue).map Value.nodeLine ++
      List.zipWith Value.edgeLine (d.edges.map Edge.toValue) d.labels)) := by
  have harrows : d.arrows.mapM (fun a => a.2.mermaidLine a.1) = .ok
      (d.arrows.map fun a => (Edge.ofTransition a.1 a.2).toValue.edgeLine a.2.label) := by
    refine mapM_of_forall₂ (List.forall₂_map_right_iff.2 (List.forall₂_same.2 fun a ha => ?_))
    obtain ⟨caption, hcaption⟩ := h a ha
    exact Transition.mermaidLine_of_caption hcaption a.1
  have hnodes : (d.nodes.map Node.toValue).map Value.nodeLine =
      d.states.entries.map fun e => d.stateLine e.1 e.2 := by
    simp [Definition.nodes, Function.comp_def, nodeLine_ofState]
  have hedges : List.zipWith Value.edgeLine (d.edges.map Edge.toValue) d.labels =
      d.arrows.map fun a => (Edge.ofTransition a.1 a.2).toValue.edgeLine a.2.label := by
    simp [Definition.edges, Definition.labels, List.zipWith_map]
  have hlines : d.mermaidLines = d.arrows.mapM (fun a => a.2.mermaidLine a.1) >>= fun arrowLines =>
      .ok ("graph TD" :: ((d.states.entries.map fun e => d.stateLine e.1 e.2) ++ arrowLines)) := rfl
  rw [hlines, harrows, hnodes, hedges]
  rfl

theorem Definition.captioned_of_mermaid {text : String} (h : d.mermaid = .ok text) :
    d.Captioned := by
  obtain ⟨lines, hlines, -⟩ := ok_of_bind h
  obtain ⟨arrowLines, harrows, -⟩ := ok_of_bind hlines
  intro a ha
  obtain ⟨line, -, hline⟩ := exists_of_forall₂_of_mem (mapM_forall₂ harrows) ha
  obtain ⟨text, htext, -⟩ := ok_of_bind hline
  exact Transition.exists_caption htext

/-- **The flowchart can be drawn from the graph.** A definition has a flowchart exactly if there is
a text to show on each arrow. Then it is the head line, a line for each node of the graph and a line
for each edge, both in the order of the graph. -/
theorem mermaid_renders_graph (d : Definition) :
    ∃ nodes edges, d.graphValue.get? "nodes" = some (.list nodes) ∧
      d.graphValue.get? "edges" = some (.list edges) ∧ edges.length = d.labels.length ∧
      ((∃ text, d.mermaid = .ok text) ↔ d.Captioned) ∧
      (d.Captioned → d.mermaid = .ok (String.intercalate "\n" ("graph TD" ::
        (nodes.map Value.nodeLine ++ List.zipWith Value.edgeLine edges d.labels)))) := by
  have hdrawn : d.Captioned → d.mermaid = .ok (String.intercalate "\n" ("graph TD" ::
      ((d.nodes.map Node.toValue).map Value.nodeLine ++
        List.zipWith Value.edgeLine (d.edges.map Edge.toValue) d.labels))) := by
    intro h
    unfold Definition.mermaid
    rw [Definition.mermaidLines_of_captioned h]
    rfl
  have hlength : (d.edges.map Edge.toValue).length = d.labels.length := by
    simp [Definition.edges, Definition.labels]
  have hcaptioned : (∃ text, d.mermaid = .ok text) ↔ d.Captioned :=
    ⟨fun ⟨_, h⟩ => d.captioned_of_mermaid h, fun h => ⟨_, hdrawn h⟩⟩
  exact ⟨_, _, rfl, rfl, hlength, hcaptioned, hdrawn⟩

/-! ## A gallery, and a label that is no text -/

/-- Tickets are looked at. -/
def ticket : Hook where
  name := "ticket"
  body root := .done (.datum root)

/-- A gallery with a wing that can only be left. The hall has another id than its key, is where one
starts, and is terminal; the way to the roof leads nowhere. -/
def gallery : Definition where
  id := .text "gallery"
  initial := "hall"
  states := Dict.ofList [
    ("hall", { id := "entrance", kind := .terminal, transitions := [
      { target := .text "east_wing", event := .text "enter", guard := some ticket },
      { target := .text "roof", event := .text "" }] }),
    ("east_wing", { id := "east_wing", kind := .auto, label := .text "", transitions := [
      { target := .text "hall", label := .text "\"back\"" }] })]

theorem mermaid_renders_graph_gallery :
    gallery.Captioned ∧ ∃ nodes edges, gallery.graphValue.get? "nodes" = some (.list nodes) ∧
      gallery.graphValue.get? "edges" = some (.list edges) ∧
      gallery.mermaid = .ok (String.intercalate "\n" ("graph TD" ::
        (nodes.map Value.nodeLine ++ List.zipWith Value.edgeLine edges gallery.labels))) := by
  have hcaptioned : gallery.Captioned := by decide
  obtain ⟨nodes, edges, hnodes, hedges, -, -, hdrawn⟩ := mermaid_renders_graph gallery
  exact ⟨hcaptioned, nodes, edges, hnodes, hedges, hdrawn hcaptioned⟩

example : gallery.mermaid = .ok "graph TD
    hall([START: Hall])
    east_wing[East Wing]
    hall -->|enter [guarded]| east_wing
    hall -->|auto| roof
    east_wing -->|back| hall" := by decide +kernel

/-- An order whose payment has a number as its label. -/
def numberedDocument : Value :=
  .object [("id", .text "order"), ("initialState", .text "placed"), ("states", .object
    [("placed", .object [("kind", .text "task"), ("transitions", .list [.object
      [("target", .text "paid"), ("event", .text "pay"), ("label", .int 5)]])]),
    ("paid", .object [("kind", .text "end")])])]

/-- The graph has the edge, but no line can be drawn for it. -/
theorem number_undrawn :
    ∃ d edge, compileDocument numberedDocument Dict.empty = .ok d ∧
      d.graphValue.get? "edges" = some (.list [edge]) ∧ ¬ ∃ text, d.mermaid = .ok text := by
  refine ⟨_, _, rfl, rfl, ?_⟩
  rintro ⟨text, htext⟩
  cases htext

end Workflow
