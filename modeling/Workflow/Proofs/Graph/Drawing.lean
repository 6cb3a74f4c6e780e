import Workflow.Proofs.Graph.Legible
import Workflow.Proofs.Graph.Rendered

/-!
# Reading a flowchart

What a flowchart shows can be read off its text.

**Drawings** (`Drawing`). The states with their keys, kinds and titles and the transitions with
their sources, texts and targets, both in the order of the definition (`Definition.drawing`).

**Reading** (`Drawing.read`). The text is taken apart into lines, and what follows the first word of
a line tells a state from a transition. The title of a state is what is left when its brackets are
taken away, and the target of a transition is the last word of its line; so brackets, bars and
arrows in titles and texts do no harm.

Main result: `mermaid_determines_drawing`. In a legible definition, reading its text gives what it
shows.
-/

namespace Workflow

/-! ## Drawings -/

/-- A state as a flowchart shows it. -/
structure DrawnState where
  key : String
  kind : StateKind
  title : String
  deriving DecidableEq, Repr

/-- A transition as a flowchart shows it. -/
structure DrawnArrow where
  source : String
  text : String
  target : String
  deriving DecidableEq, Repr

/-- What a flowchart shows. -/
structure Drawing where
  states : List DrawnState
  arrows : List DrawnArrow
  deriving DecidableEq, Repr

namespace Definition

def drawnStates (d : Definition) : List DrawnState :=
  d.states.entries.map fun (key, s) => ⟨key, s.kind, d.title key s⟩

def drawnArrow (source : String) (t : Transition) : Except Failure DrawnArrow := do
  return ⟨source, ← t.arrowText, t.target.display⟩

/-- What the flowchart of a definition shows. -/
def drawing (d : Definition) : Except Failure Drawing := do
  let arrows ← d.arrows.mapM fun (source, t) => drawnArrow source t
  return ⟨d.drawnStates, arrows⟩

end Definition

/-! ## Reading -/

namespace Drawing

/-- The first word of a line, behind four blanks. -/
def firstWord (line : List Char) : List Char := (line.drop 4).takeWhile isWordChar

/-- What follows the first word of a line. -/
def afterWord (line : List Char) : List Char := (line.drop 4).dropWhile isWordChar

/-- What stands between the brackets of a kind. -/
def between (kind : StateKind) (cs : List Char) : List Char :=
  let (before, after) := kind.brackets
  (cs.drop before.toList.length).take
    (cs.length - before.toList.length - after.toList.length)

/-- The state that a line shows, if there is a bracket behind its first word. -/
def state? (line : String) : Option DrawnState :=
  let rest := afterWord line.toList
  (StateKind.all.find? fun kind => kind.brackets.1.toList.isPrefixOf rest).map fun kind =>
    ⟨String.ofList (firstWord line.toList), kind, String.ofList (between kind rest)⟩

/-- The transition that a line shows, if there is an arrow behind its first word. -/
def arrow? (line : String) : Option DrawnArrow :=
  let rest := afterWord line.toList
  if " -->|".toList.isPrefixOf rest then
    let backwards := (rest.drop 5).reverse
    some ⟨String.ofList (firstWord line.toList),
      String.ofList ((backwards.dropWhile isWordChar).drop 2).reverse,
      String.ofList (backwards.takeWhile isWordChar).reverse⟩
  else none

/-- What a text shows, line by line behind the first one. -/
def read (text : String) : Drawing :=
  let lines := (Text.lines text).tail
  ⟨lines.filterMap state?, lines.filterMap arrow?⟩

end Drawing

variable {d : Definition} {t : Transition} {key source text : String} {s : State}

/-! ## First words -/

namespace Drawing

variable {rest : List Char} {c : Char}

theorem firstWord_line (hkey : IsWord key) (hc : isWordChar c = false) :
    firstWord ("    ".toList ++ key.toList ++ c :: rest) = key.toList := by
  simpa [firstWord] using Text.takeWhile_until hkey hc

theorem afterWord_line (hkey : IsWord key) (hc : isWordChar c = false) :
    afterWord ("    ".toList ++ key.toList ++ c :: rest) = c :: rest := by
  simpa [afterWord] using Text.dropWhile_until hkey hc

/-! ## Lines of states -/

theorem between_brackets (kind : StateKind) (title : List Char) :
    between kind (kind.brackets.1.toList ++ title ++ kind.brackets.2.toList) = title := by
  cases kind <;> simp [between, StateKind.brackets]

/-- No bracket begins like another one. -/
theorem find_brackets (kind : StateKind) (rest : List Char) :
    (StateKind.all.find? fun k => k.brackets.1.toList.isPrefixOf (kind.brackets.1.toList ++ rest)) =
      some kind := by
  cases kind <;> simp [StateKind.all, StateKind.brackets]

/-- A bracket begins neither like a word nor like an arrow. -/
theorem exists_brackets_cons (kind : StateKind) :
    ∃ c cs, kind.brackets.1.toList = c :: cs ∧ isWordChar c = false ∧ c ≠ ' ' := by
  cases kind with
  | task => exact ⟨'\x7b', ['\x7b'], by decide⟩
  | auto => exact ⟨'[', [], by decide⟩
  | terminal => exact ⟨'(', ['['], by decide⟩

end Drawing

theorem toList_stateLine (d : Definition) (key : String) (s : State) :
    (d.stateLine key s).toList = "    ".toList ++ key.toList ++ (s.kind.brackets.1.toList ++
      (d.title key s).toList ++ s.kind.brackets.2.toList) := by
  simp [Definition.stateLine]

theorem afterWord_stateLine (hkey : IsWord key) :
    Drawing.afterWord (d.stateLine key s).toList =
      s.kind.brackets.1.toList ++ (d.title key s).toList ++ s.kind.brackets.2.toList := by
  obtain ⟨c, cs, hbracket, hc, -⟩ := Drawing.exists_brackets_cons s.kind
  rw [toList_stateLine, hbracket]
  exact Drawing.afterWord_line hkey hc

theorem firstWord_stateLine (hkey : IsWord key) :
    Drawing.firstWord (d.stateLine key s).toList = key.toList := by
  obtain ⟨c, cs, hbracket, hc, -⟩ := Drawing.exists_brackets_cons s.kind
  rw [toList_stateLine, hbracket]
  exact Drawing.firstWord_line hkey hc

theorem state?_stateLine (hkey : IsWord key) :
    Drawing.state? (d.stateLine key s) = some ⟨key, s.kind, d.title key s⟩ := by
  have hkind := Drawing.find_brackets s.kind ((d.title key s).toList ++ s.kind.brackets.2.toList)
  rw [← List.append_assoc] at hkind
  unfold Drawing.state?
  rw [afterWord_stateLine hkey, firstWord_stateLine hkey]
  simp only [hkind, Option.map_some, Drawing.between_brackets, String.ofList_toList]

theorem arrow?_stateLine (hkey : IsWord key) : Drawing.arrow? (d.stateLine key s) = none := by
  obtain ⟨c, cs, hbracket, -, hblank⟩ := Drawing.exists_brackets_cons s.kind
  unfold Drawing.arrow?
  rw [afterWord_stateLine hkey, hbracket]
  simp [hblank.symm]

theorem oneLine_stateLine (hkey : IsWord key) (hlabel : OneLine s.label.display) :
    OneLine (d.stateLine key s) := by
  have htitle : OneLine (d.title key s) := oneLine_title hkey hlabel
  have hbrackets : OneLine s.kind.brackets.1 ∧ OneLine s.kind.brackets.2 := by
    cases s.kind <;> decide
  simp only [Definition.stateLine, oneLine_append]
  exact ⟨⟨⟨⟨by decide, hkey.oneLine⟩, hbrackets.1⟩, htitle⟩, hbrackets.2⟩

/-! ## Lines of transitions -/

/-- The line of a transition from one word to another one. -/
def arrowLine (source text target : String) : String :=
  "    " ++ source ++ " -->|" ++ text ++ "| " ++ target

section Arrow

variable {target : String}

theorem toList_arrowLine (source text target : String) :
    (arrowLine source text target).toList = "    ".toList ++ source.toList ++
      ' ' :: ("-->|".toList ++ (text.toList ++ "| ".toList ++ target.toList)) := by
  simp [arrowLine]

theorem arrow?_arrowLine (hsource : IsWord source) (htarget : IsWord target) :
    Drawing.arrow? (arrowLine source text target) = some ⟨source, text, target⟩ := by
  have hbackwards : (text.toList ++ "| ".toList ++ target.toList).reverse =
      target.toList.reverse ++ ' ' :: '|' :: text.toList.reverse := by simp
  have hword : ∀ x ∈ target.toList.reverse, isWordChar x :=
    fun x hx => htarget x (List.mem_reverse.1 hx)
  have hblank : isWordChar ' ' = false := by decide
  have hdrop : (' ' :: ("-->|".toList ++ (text.toList ++ "| ".toList ++ target.toList))).drop 5 =
      text.toList ++ "| ".toList ++ target.toList := rfl
  unfold Drawing.arrow?
  rw [toList_arrowLine, Drawing.afterWord_line hsource hblank,
    Drawing.firstWord_line hsource hblank]
  dsimp only
  rw [hdrop, hbackwards, Text.takeWhile_until hword hblank, Text.dropWhile_until hword hblank]
  simp

theorem state?_arrowLine (hsource : IsWord source) :
    Drawing.state? (arrowLine source text target) = none := by
  unfold Drawing.state?
  rw [toList_arrowLine, Drawing.afterWord_line hsource (by decide)]
  simp [StateKind.all, StateKind.brackets]

theorem oneLine_arrowLine (hsource : IsWord source) (htarget : IsWord target)
    (htext : OneLine text) : OneLine (arrowLine source text target) := by
  simp only [arrowLine, oneLine_append]
  exact ⟨⟨⟨⟨⟨by decide, hsource.oneLine⟩, by decide⟩, htext⟩, by decide⟩, htarget.oneLine⟩

end Arrow

/-- What a line of a legible transition looks like and shows. -/
theorem Transition.Legible.mermaidLine {line : String} (h : t.Legible) (hsource : IsWord source)
    (hline : t.mermaidLine source = .ok line) :
    OneLine line ∧ Drawing.state? line = none ∧
      ∃ a, Definition.drawnArrow source t = .ok a ∧ Drawing.arrow? line = some a := by
  obtain ⟨target, htarget, hword⟩ := h.target
  obtain ⟨text, htext, hrest⟩ := ok_of_bind hline
  obtain rfl : arrowLine source text target = line := by
    rw [htarget] at hrest
    exact Except.ok.inj hrest
  refine ⟨oneLine_arrowLine hsource hword (h.arrowText htext), state?_arrowLine hsource, _, ?_,
    arrow?_arrowLine hsource hword⟩
  unfold Definition.drawnArrow
  rw [htext, htarget]
  rfl

/-! ## The whole text -/

theorem Definition.Legible.arrow (h : d.Legible) {a : String × Transition} (ha : a ∈ d.arrows) :
    IsWord a.1 ∧ a.2.Legible := by
  obtain ⟨e, he, hmem⟩ := List.mem_flatMap.1 ha
  obtain ⟨t, ht, rfl⟩ := List.mem_map.1 hmem
  exact ⟨h.keys e he, h.transitions e he t ht⟩

/-- The lines of states show the states, and no transitions. -/
theorem Definition.Legible.stateLines (h : d.Legible) :
    (∀ l ∈ d.states.entries.map fun (key, s) => d.stateLine key s, OneLine l) ∧
      (d.states.entries.map fun (key, s) => d.stateLine key s).filterMap Drawing.state? =
        d.drawnStates ∧
      (d.states.entries.map fun (key, s) => d.stateLine key s).filterMap Drawing.arrow? = [] := by
  refine ⟨?_, ?_, ?_⟩
  · exact List.forall_mem_map.2 fun e he => oneLine_stateLine (h.keys e he) (h.labels e he)
  · rw [List.filterMap_map, Definition.drawnStates, ← List.filterMap_eq_map]
    refine List.filterMap_congr fun e he => ?_
    rw [Function.comp_apply]
    exact state?_stateLine (h.keys e he)
  · rw [List.filterMap_map, List.filterMap_eq_nil_iff]
    intro e he
    rw [Function.comp_apply]
    exact arrow?_stateLine (h.keys e he)

/-- The lines of transitions show the transitions, and no states. -/
theorem drawnArrows_of_lines {arrows : List (String × Transition)} {lines : List String}
    (hall : ∀ a ∈ arrows, IsWord a.1 ∧ a.2.Legible)
    (h : List.Forall₂ (fun a line => a.2.mermaidLine a.1 = .ok line) arrows lines) :
    (∀ l ∈ lines, OneLine l) ∧ lines.filterMap Drawing.state? = [] ∧
      List.Forall₂ (fun a arrow => Definition.drawnArrow a.1 a.2 = .ok arrow) arrows
        (lines.filterMap Drawing.arrow?) := by
  induction h with
  | nil => exact ⟨by simp, rfl, .nil⟩
  | @cons a line arrows lines hline _ ih =>
    obtain ⟨hfirst, hrest⟩ := List.forall_mem_cons.1 hall
    obtain ⟨hone, hstate, arrow, hdrawn, harrow⟩ := hfirst.2.mermaidLine hfirst.1 hline
    obtain ⟨hones, hstates, harrows⟩ := ih hrest
    refine ⟨List.forall_mem_cons.2 ⟨hone, hones⟩, ?_, ?_⟩
    · rw [List.filterMap_cons_none hstate, hstates]
    · rw [List.filterMap_cons_some harrow]
      exact .cons hdrawn harrows

/-- What a legible definition shows is read off its text. -/
theorem Definition.Legible.drawing_eq (h : d.Legible) (htext : d.mermaid = .ok text) :
    d.drawing = .ok (Drawing.read text) := by
  obtain ⟨lines, hlines, hjoin⟩ := ok_of_bind htext
  obtain ⟨arrowLines, harrowLines, hcons⟩ := ok_of_bind hlines
  cases hjoin
  cases hcons
  obtain ⟨honeStates, hstates, hnoArrows⟩ := h.stateLines
  obtain ⟨honeArrows, hnoStates, harrows⟩ :=
    drawnArrows_of_lines (fun a ha => h.arrow ha) (mapM_forall₂ harrowLines)
  have hone : ∀ l ∈ "graph TD" :: ((d.states.entries.map fun (key, s) => d.stateLine key s) ++
      arrowLines), OneLine l :=
    List.forall_mem_cons.2 ⟨by decide, List.forall_mem_append.2 ⟨honeStates, honeArrows⟩⟩
  unfold Drawing.read Definition.drawing
  rw [Text.lines_intercalate (List.cons_ne_nil _ _) hone, mapM_of_forall₂ harrows]
  simp only [List.tail_cons, List.filterMap_append, hstates, hnoStates, hnoArrows,
    List.append_nil, List.nil_append]
  rfl

theorem Definition.Captioned.exists_mermaid (h : d.Captioned) : ∃ text, d.mermaid = .ok text := by
  unfold Definition.mermaid
  rw [Definition.mermaidLines_of_captioned h]
  exact ⟨_, rfl⟩

/-- **A flowchart shows one drawing only.** The text of a legible definition, which there is if
there is a text to show on each arrow, is read back into the states and transitions that it shows;
so two legible definitions with the same text show the same ones, in the same order. -/
theorem mermaid_determines_drawing :
    (∀ d : Definition, d.Legible → d.Captioned →
      ∃ text, d.mermaid = .ok text ∧ d.drawing = .ok (Drawing.read text)) ∧
    ∀ (d d' : Definition) (text : String), d.Legible → d'.Legible → d.mermaid = .ok text →
      d'.mermaid = .ok text → ∃ drawing, d.drawing = .ok drawing ∧ d'.drawing = .ok drawing := by
  constructor
  · intro d hd hcaptioned
    obtain ⟨text, htext⟩ := hcaptioned.exists_mermaid
    exact ⟨text, htext, hd.drawing_eq htext⟩
  · intro d d' text hd hd' htext htext'
    exact ⟨Drawing.read text, hd.drawing_eq htext, hd'.drawing_eq htext'⟩

/-! ## Bars, brackets and arrows in a text -/

/-- Signposts whose labels look like parts of a line. -/
def signposts : Definition where
  id := .text "signposts"
  initial := "fork"
  states := Dict.ofList [
    ("fork", { id := "fork", label := .text "a\x7d\x7d -->|x| b([END: c])", transitions := [
      { target := .text "left", label := .text "| left -->|\"twice\"| right" },
      { target := .text "left", event := .text "go", guard := some ticket },
      { target := .text "nowhere", event := .text "[or] not" }] }),
    ("left", { id := "left", kind := .terminal, label := .text "])" })]

/-- The same signposts, but the way to the left is open, and only its label says that it is
guarded. -/
def paintedSignposts : Definition where
  id := .text "painted"
  initial := "fork"
  states := Dict.ofList [
    ("fork", { id := "fork", label := .text "a\x7d\x7d -->|x| b([END: c])", transitions := [
      { target := .text "left", label := .text "| left -->|'twice'| right" },
      { target := .text "left", label := .text "go [guarded]" },
      { target := .text "nowhere", event := .text "[or] not" }] }),
    ("left", { id := "left", kind := .terminal, label := .text "])" })]

theorem mermaid_determines_drawing_signposts :
    signposts.Legible ∧ paintedSignposts.Legible ∧ signposts.Captioned ∧
      (∃ text, signposts.mermaid = .ok text ∧ paintedSignposts.mermaid = .ok text ∧
        signposts.drawing = .ok (Drawing.read text)) ∧
      ∃ drawing, signposts.drawing = .ok drawing ∧ paintedSignposts.drawing = .ok drawing := by
  have hsignposts : signposts.Legible := ⟨by decide, by decide, by decide⟩
  have hpainted : paintedSignposts.Legible := ⟨by decide, by decide, by decide⟩
  have hcaptioned : signposts.Captioned := by decide
  have hsame : paintedSignposts.mermaid = signposts.mermaid := by decide +kernel
  obtain ⟨text, htext, hdrawing⟩ := mermaid_determines_drawing.1 signposts hsignposts hcaptioned
  have htext' : paintedSignposts.mermaid = .ok text := hsame.trans htext
  exact ⟨hsignposts, hpainted, hcaptioned, ⟨text, htext, htext', hdrawing⟩,
    mermaid_determines_drawing.2 _ _ text hsignposts hpainted htext htext'⟩

end Workflow
