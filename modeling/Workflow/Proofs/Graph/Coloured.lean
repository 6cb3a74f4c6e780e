import Mathlib.Data.List.Basic
import Workflow.Graph.Mermaid
import Workflow.Proofs.Run.History

/-!
# Coloured states

The flowchart for an instance is that of its definition, with a style line for each state that the
run has come to.

**First visits** (`firsts`). Each of the states that were left is listed once, and they stand in the
order of their first visits.

**The occupied state.** In a history in order all visits but the last are closed, and the last one
is that of the occupied state (`Instance.Chronicled.states`). So a state of the history is occupied,
or it was left; one that is both is coloured as the occupied one.

Main result: `progress_coloured`.
-/

namespace Workflow

/-! ## First visits -/

section Firsts

variable {xs : List String} {x y : String}

theorem firsts_concat (xs : List String) (x : String) :
    firsts (xs ++ [x]) = if x ∈ firsts xs then firsts xs else firsts xs ++ [x] := by
  unfold firsts
  rw [List.foldl_append]
  rfl

theorem mem_firsts : x ∈ firsts xs ↔ x ∈ xs := by
  induction xs using List.reverseRecOn with
  | nil => simp [firsts]
  | append_singleton xs y ih =>
    rw [firsts_concat]
    by_cases hy : y ∈ firsts xs
    · have hmem : x = y → x ∈ xs := fun hxy => ih.1 (hxy ▸ hy)
      simpa [hy, ih] using hmem
    · simp [hy, ih]

/-- The items stand in the order of their first places. -/
theorem firsts_ordered : (firsts xs).Pairwise fun x y => xs.idxOf x < xs.idxOf y := by
  induction xs using List.reverseRecOn with
  | nil => simp [firsts]
  | append_singleton xs z ih =>
    have hkept : (firsts xs).Pairwise fun x y => (xs ++ [z]).idxOf x < (xs ++ [z]).idxOf y := by
      refine ih.imp_of_mem fun hx hy h => ?_
      rwa [List.idxOf_append_of_mem (mem_firsts.1 hx), List.idxOf_append_of_mem (mem_firsts.1 hy)]
    rw [firsts_concat]
    by_cases hz : z ∈ firsts xs
    · rwa [if_pos hz]
    · rw [if_neg hz, List.pairwise_append]
      refine ⟨hkept, List.pairwise_singleton _ z, fun x hx y hy => ?_⟩
      have hnew : z ∉ xs := fun h => hz (mem_firsts.2 h)
      rw [List.mem_singleton.1 hy, List.idxOf_append_of_mem (mem_firsts.1 hx),
        List.idxOf_append_of_notMem hnew]
      have hlt := List.idxOf_lt_length_of_mem (mem_firsts.1 hx)
      omega

end Firsts

/-! ## The states of a history -/

open Activity Instance

variable {d : Definition} {i : Instance}

/-- The states that were left and are not occupied now. -/
def Instance.leftBehind (i : Instance) : List String := (firsts i.visited).filter (· ≠ i.current)

/-- The style line of the occupied state. -/
def Instance.lastLine (i : Instance) : String :=
  if i.status = .failed then Progress.failedLine i.current else Progress.currentLine i.current

theorem Instance.mem_visited {s : String} :
    s ∈ i.visited ↔ ∃ v ∈ i.history, v.leftAt ≠ none ∧ v.state = s := by
  simp [visited, Visit.isOpen, Option.ne_none_iff_isSome, and_assoc]

theorem Instance.mem_leftBehind {s : String} :
    s ∈ i.leftBehind ↔ s ≠ i.current ∧ ∃ v ∈ i.history, v.leftAt ≠ none ∧ v.state = s := by
  rw [leftBehind, List.mem_filter, mem_firsts, mem_visited, and_comm]
  simp

/-- The states of a history are those that were left and, at the end, the occupied one. -/
theorem Instance.Chronicled.states (h : i.Chronicled d) :
    i.history.map (·.state) = i.visited ++ [i.current] := by
  obtain ⟨v, hlast, ho, hv⟩ := h.last
  have hclosed : i.history.dropLast.filter (fun v => !v.isOpen) = i.history.dropLast := by
    rw [List.filter_eq_self]
    intro u hu
    simp [Visit.isOpen, Option.isSome_iff_ne_none, closed_of_chained h.chained u hu]
  have hsplit : i.history = i.history.dropLast ++ [v] :=
    (List.dropLast_append_getLast? v hlast).symm
  unfold visited
  rw [hsplit, List.filter_append, hclosed]
  simp [Visit.isOpen, ho, hv]

theorem Instance.Chronicled.leftBehind_ordered (h : i.Chronicled d) :
    i.leftBehind.Pairwise fun s t =>
      (i.history.map (·.state)).idxOf s < (i.history.map (·.state)).idxOf t := by
  rw [h.states]
  refine (firsts_ordered.imp_of_mem fun hs ht hst => ?_).filter _
  rwa [List.idxOf_append_of_mem (mem_firsts.1 hs), List.idxOf_append_of_mem (mem_firsts.1 ht)]

theorem Instance.styleLines_progress (hc : i.current ≠ "") :
    i.progress.styleLines = i.leftBehind.map Progress.visitedLine ++ [i.lastLine] := by
  unfold Progress.styleLines progress leftBehind lastLine
  have hnamed : (some i.current).filter (· ≠ "") = some i.current := by simp [Option.filter, hc]
  by_cases hf : i.status = .failed
  · simp only [hf, if_true, hnamed]
    simp [eq_comm]
  · simp only [hf, if_false, hnamed]
    simp [eq_comm]

/-- **Each state of the history is coloured once, and no other.** The style lines come behind the
flowchart of the definition, which they leave as it is: first, in the order of their first visits,
the states that were left and are not occupied now, and then the occupied one, which shows whether
the run has failed. -/
theorem progress_coloured (h : d.Reaches i) (hc : i.current ≠ "") :
    (d.mermaidWith i.progress = d.mermaid.map fun plain =>
      String.intercalate "\n" (plain :: (i.leftBehind.map Progress.visitedLine ++ [i.lastLine]))) ∧
    (∀ plain, d.mermaid = .ok plain →
      ∃ text, d.mermaidWith i.progress = .ok text ∧ plain.toList <+: text.toList) ∧
    (∀ s, s ∈ i.leftBehind ↔ s ≠ i.current ∧ ∃ v ∈ i.history, v.leftAt ≠ none ∧ v.state = s) ∧
    (i.leftBehind.Pairwise fun s t =>
      (i.history.map (·.state)).idxOf s < (i.history.map (·.state)).idxOf t) ∧
    (i.leftBehind ++ [i.current]).Nodup ∧
    ∀ s, s ∈ i.leftBehind ++ [i.current] ↔ ∃ v ∈ i.history, v.state = s := by
  have hchronicled := h.chronicled
  have htext : d.mermaidWith i.progress = d.mermaid.map fun plain =>
      String.intercalate "\n"
        (plain :: (i.leftBehind.map Progress.visitedLine ++ [i.lastLine])) := by
    unfold Definition.mermaidWith
    rw [styleLines_progress hc]
    cases d.mermaid with
    | error f => rfl
    | ok plain => exact congrArg Except.ok (Text.intercalate_lines_append plain _)
  refine ⟨htext, fun plain hplain => ?_, fun s => mem_leftBehind, hchronicled.leftBehind_ordered,
    ?_, fun s => ?_⟩
  · rw [htext, hplain]
    exact ⟨_, rfl, Text.prefix_intercalate_cons "\n" plain _⟩
  · have hnodup : i.leftBehind.Nodup := hchronicled.leftBehind_ordered.imp fun hlt heq => by
      rw [heq] at hlt
      exact lt_irrefl _ hlt
    have hnew : ∀ s ∈ i.leftBehind, s ≠ i.current := fun s hs => (mem_leftBehind.1 hs).1
    simpa [List.nodup_append, hnodup] using hnew
  · have hstates : (∃ v ∈ i.history, v.state = s) ↔ s ∈ i.visited ++ [i.current] := by
      rw [← hchronicled.states]
      simp
    rw [hstates]
    by_cases hs : s = i.current
    · simp [hs]
    · simp [hs, leftBehind, mem_firsts]

/-! ## A letter that was mended -/

/-- There are no stamps. -/
def stampless : Hook where
  name := "stamp"
  body _ := .fail (.runtime "no stamps")

/-- A letter that can be mended once it was read, and then be posted. Its first label has a line
break. -/
def mendedLetter : Definition where
  id := .text "letter"
  initial := "draft"
  states := Dict.ofList [
    ("draft", { id := "draft", label := .text "first\ndraft", transitions := [
      { target := .text "read", event := .text "show" }] }),
    ("read", { id := "read", transitions := [
      { target := .text "draft", event := .text "mend" },
      { target := .text "sent", event := .text "post" }] }),
    ("sent", { id := "sent", kind := .terminal, onEnter := some stampless })]

/-- The letter as it is begun. -/
def letterBegun : Instance := mendedLetter.fresh ⟨0, .null⟩ "to Mary" (Instant.text ⟨0⟩)

/-- The letter after an event at a moment. -/
def letterAfter (i : Instance) (event : String) (moment : Int) : Instance :=
  match ((i.send mendedLetter {} event).run (stoppedAt moment)).answer with
  | .ok out => out.reached
  | .error _ => i

theorem reaches_letterAfter (h : mendedLetter.Reaches i) (event : String) (moment : Int) :
    mendedLetter.Reaches (letterAfter i event moment) := by
  unfold letterAfter
  split
  next out hout => exact h.step (.send (hout ▸ canEnd_run _ _))
  next => exact h

/-- The letter was read, mended and read again, and it could not be sent. -/
def letterUnsent : Instance :=
  letterAfter (letterAfter (letterAfter (letterAfter letterBegun "show" 1) "mend" 2) "show" 3)
    "post" 4

theorem progress_coloured_letter :
    mendedLetter.Reaches letterUnsent ∧ letterUnsent.current ≠ "" ∧
      mendedLetter.mermaidWith letterUnsent.progress = mendedLetter.mermaid.map fun plain =>
        String.intercalate "\n" [plain, Progress.visitedLine "draft", Progress.visitedLine "read",
          Progress.failedLine "sent"] := by
  have hstart : ((mendedLetter.start ⟨0, .null⟩ (some "to Mary")).run (stoppedAt 0)).answer =
      .ok letterBegun := rfl
  have hdraft : mendedLetter.Reaches letterBegun := .start (hstart ▸ canEnd_run _ _)
  have hread := reaches_letterAfter hdraft "show" 1
  have hagain := reaches_letterAfter (reaches_letterAfter hread "mend" 2) "show" 3
  have hunsent : mendedLetter.Reaches letterUnsent := reaches_letterAfter hagain "post" 4
  have hcurrent : letterUnsent.current = "sent" := rfl
  have hsent : letterUnsent.current ≠ "" := by
    rw [hcurrent]
    decide
  have hleft : letterUnsent.leftBehind = ["draft", "read"] := rfl
  have hlast : letterUnsent.lastLine = Progress.failedLine "sent" := rfl
  have htext := (progress_coloured hunsent hsent).1
  rw [hleft, hlast] at htext
  exact ⟨hunsent, hsent, htext⟩

end Workflow
