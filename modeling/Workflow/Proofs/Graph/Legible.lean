import Mathlib.Data.List.Basic
import Workflow.Graph.Mermaid

/-!
# Legible definitions

A flowchart can be read line by line if no line has a break in it, and each line part by part if the
names in it are words.

**Words** (`IsWord`). Letters, digits and underscores. Of the characters beyond ASCII all count as
letters.

**Single lines** (`OneLine`). A text without a line break. The title that is made from a key has
none if the key has none (`oneLine_titleOfKey`): no character takes a line break for its form at the
start of a word or inside it.

Main results: `oneLine_title` and `Transition.Legible.arrowText`, that what is shown in a legible
definition (`Definition.Legible`) is a single line.
-/

namespace Workflow

/-! ## Words -/

/-- Whether a character can stand in a word. -/
def isWordChar (c : Char) : Bool := 128 ≤ c.toNat || c.isAlphanum || c = '_'

/-- A text of letters, digits and underscores. It may be empty. -/
def IsWord (s : String) : Prop := ∀ c ∈ s.toList, isWordChar c

/-- A text without a line break. -/
def OneLine (s : String) : Prop := '\n' ∉ s.toList

instance (s : String) : Decidable (OneLine s) := inferInstanceAs (Decidable ('\n' ∉ s.toList))

instance (s : String) : Decidable (IsWord s) := List.decidableBAll (isWordChar ·) s.toList

variable {s s' : String}

theorem IsWord.oneLine (h : IsWord s) : OneLine s := by
  intro hmem
  have hword := h _ hmem
  revert hword
  decide

@[simp] theorem oneLine_append : OneLine (s ++ s') ↔ OneLine s ∧ OneLine s' := by
  simp [OneLine]

/-! ## Titles -/

namespace Text

theorem eq_of_ofNat_eq_newline {n : Nat} (h : Char.ofNat n = '\n') : n = 10 := by
  by_cases hv : n.isValidChar
  · have htoNat := congrArg Char.toNat h
    rw [Char.ofNat, dif_pos hv] at htoNat
    exact htoNat
  · rw [Char.ofNat, dif_neg hv] at h
    cases h

section MapCase

variable {runs : List CaseRun} {sequences : List (Nat × List Nat)} {c : Char}

/-- A table brings in no line break if none of its runs reaches down to it and none of its sequences
has one. -/
theorem newline_notMem_mapCase (hruns : ∀ r ∈ runs, (10 : Int) < r.first + r.distance)
    (hsequences : ∀ e ∈ sequences, 10 ∉ e.2) (hc : c ≠ '\n') :
    '\n' ∉ mapCase runs sequences c := by
  unfold mapCase
  split
  next r hr =>
    have hlow := hruns r (List.mem_of_find?_eq_some hr)
    have hhas : r.first ≤ c.toNat := by
      have := List.find?_some hr
      simp [CaseRun.has] at this
      exact this.1.1
    intro hmem
    have heq := eq_of_ofNat_eq_newline (List.mem_singleton.1 hmem).symm
    omega
  next =>
    split
    next ns hns =>
      obtain ⟨before, after, hsplit, -⟩ := List.lookup_eq_some_iff.1 hns
      have hten : 10 ∉ ns := hsequences (c.toNat, ns) (by simp [hsplit])
      intro hmem
      obtain ⟨n, hn, heq⟩ := List.mem_map.1 hmem
      exact hten (eq_of_ofNat_eq_newline heq ▸ hn)
    next => simpa using hc.symm

end MapCase

/-- What holds of the first 128 characters holds of each ASCII character. -/
theorem forall_ascii {P : Char → Prop} (h : ∀ n < 128, P (Char.ofNat n)) {c : Char}
    (hc : c.toNat < 128) : P c := by
  have hn := h c.toNat hc
  rwa [Char.ofNat_toNat] at hn

theorem newline_notMem_titleForm {c : Char} (hc : c ≠ '\n') : '\n' ∉ titleForm c := by
  have hupper : c.toNat < 128 → c ≠ '\n' → '\n' ≠ c.toUpper :=
    forall_ascii (P := fun c => c ≠ '\n' → '\n' ≠ c.toUpper) (by decide +kernel)
  unfold titleForm
  split
  next hascii => simpa using hupper hascii hc
  next => exact newline_notMem_mapCase (by decide +kernel) (by decide +kernel) hc

theorem newline_notMem_lowerForm {c : Char} (hc : c ≠ '\n') : '\n' ∉ lowerForm c := by
  have hlower : c.toNat < 128 → c ≠ '\n' → '\n' ≠ c.toLower :=
    forall_ascii (P := fun c => c ≠ '\n' → '\n' ≠ c.toLower) (by decide +kernel)
  unfold lowerForm
  split
  next hascii => simpa using hlower hascii hc
  next => exact newline_notMem_mapCase (by decide +kernel) (by decide +kernel) hc

theorem smallSigma_ne_newline (rest : List Char) : smallSigma rest ≠ '\n' := by
  unfold smallSigma
  split
  · split <;> decide
  · decide

theorem newline_notMem_smallForm {c : Char} (hc : c ≠ '\n') (before : Bool) (rest : List Char) :
    '\n' ∉ smallForm before c rest := by
  unfold smallForm
  split
  · split
    · simpa using (smallSigma_ne_newline rest).symm
    · decide
  · exact newline_notMem_lowerForm hc

theorem newline_notMem_titleLetters {cs : List Char} (h : '\n' ∉ cs) (afterCased before : Bool) :
    '\n' ∉ titleLetters afterCased before cs := by
  induction cs generalizing afterCased before with
  | nil => simp [titleLetters]
  | cons c rest ih =>
    obtain ⟨hc, hrest⟩ := not_or.1 (List.mem_cons.not.1 h)
    unfold titleLetters
    rw [List.mem_append, not_or]
    refine ⟨?_, ih hrest _ _⟩
    split
    · exact newline_notMem_smallForm (Ne.symm hc) before rest
    · exact newline_notMem_titleForm (Ne.symm hc)

theorem oneLine_title (h : OneLine s) : OneLine (title s) := by
  unfold OneLine title
  rw [String.toList_ofList]
  exact newline_notMem_titleLetters h false false

end Text

theorem oneLine_titleOfKey (h : OneLine s) : OneLine (titleOfKey s) := by
  refine Text.oneLine_title ?_
  unfold OneLine
  rw [String.toList_ofList]
  intro hmem
  obtain ⟨c, hc, heq⟩ := List.mem_map.1 hmem
  split at heq
  · cases heq
  · exact h (heq ▸ hc)

/-! ## Definitions -/

/-- A transition to a word, with a label and an event of a single line. -/
structure Transition.Legible (t : Transition) : Prop where
  target : ∃ s, t.target = .text s ∧ IsWord s
  label : OneLine t.label.display
  event : OneLine t.event.display

/-- A definition whose states are stored under words and have labels of a single line, and whose
transitions are legible. -/
structure Definition.Legible (d : Definition) : Prop where
  keys : ∀ e ∈ d.states.entries, IsWord e.1
  labels : ∀ e ∈ d.states.entries, OneLine e.2.label.display
  transitions : ∀ e ∈ d.states.entries, ∀ t ∈ e.2.transitions, t.Legible

instance (t : Transition) : Decidable t.Legible :=
  decidable_of_iff ((∃ s ∈ t.target.text?, IsWord s) ∧ OneLine t.label.display ∧
      OneLine t.event.display) <| by
    have htarget : (∃ s ∈ t.target.text?, IsWord s) ↔ ∃ s, t.target = .text s ∧ IsWord s := by
      cases t.target <;> simp [Value.text?]
    rw [htarget]
    exact ⟨fun ⟨h, h', h''⟩ => ⟨h, h', h''⟩, fun ⟨h, h', h''⟩ => ⟨h, h', h''⟩⟩

variable {d : Definition} {t : Transition}

theorem oneLine_title {key : String} {state : State} (hkey : IsWord key)
    (hlabel : OneLine state.label.display) : OneLine (d.title key state) := by
  unfold Definition.title Definition.mark shownLabel
  have hshown : OneLine (titleOfKey key) := oneLine_titleOfKey hkey.oneLine
  have hmarks : OneLine "START: " ∧ OneLine "END: " ∧ OneLine "" := by decide
  rw [oneLine_append]
  constructor
  · split
    · exact hmarks.1
    · split
      · exact hmarks.2.1
      · exact hmarks.2.2
  · split
    · exact hlabel
    · exact hshown

theorem OneLine.withoutQuotes (h : OneLine s) : OneLine (withoutQuotes s) := by
  unfold OneLine Workflow.withoutQuotes
  rw [String.toList_ofList]
  exact fun hmem => h (List.mem_of_mem_filter hmem)

theorem Transition.Legible.caption (h : t.Legible) {caption : String}
    (ht : t.caption = .text caption) : OneLine caption := by
  have hshown : OneLine t.caption.display := by
    unfold Transition.caption
    split
    · exact h.label
    · split
      · exact h.event
      · decide
  rwa [ht] at hshown

theorem Transition.Legible.arrowText (h : t.Legible) {text : String}
    (ht : t.arrowText = .ok text) : OneLine text := by
  unfold Transition.arrowText at ht
  split at ht
  next caption hcaption _ =>
    cases ht
    exact (h.caption hcaption).withoutQuotes
  next caption _ hcaption _ =>
    cases ht
    exact (oneLine_append.2 ⟨h.caption hcaption, by decide⟩).withoutQuotes
  all_goals cases ht

end Workflow
