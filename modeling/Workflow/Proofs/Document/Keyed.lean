import Workflow.Document.Compile
import Workflow.Proofs.Failure.Sequences

/-!
# States under their own ids

A definition is well keyed if it is valid and each of its states is stored under its own id
(`Definition.WellKeyed`). What compiling a document gives is well keyed (`compile_wellKeyed`): each
state is compiled under its key, and the initial state is looked up in the table that is made.
-/

namespace Workflow

/-- A valid definition whose states are stored under their ids. -/
structure Definition.WellKeyed (d : Definition) : Prop where
  valid : d.check = .ok ()
  keyed : ∀ {key : String} {s : State}, d.state? key = some s → s.id = key

/-- In a valid definition the initial state is known. -/
theorem Definition.WellKeyed.initial {d : Definition} (h : d.WellKeyed) :
    ∃ s, d.state? d.initial = some s := by
  have hv := h.valid
  unfold Definition.check at hv
  split at hv
  next hc => exact Option.isSome_iff_exists.1 hc
  next => cases hv

/-! ## Dictionaries -/

/-- What is found in a dictionary that was made from a list stood in the list. -/
theorem Dict.get?_ofList_mem {κ α : Type} [DecidableEq κ] {k : κ} {a : α} {es : List (κ × α)}
    (h : (Dict.ofList es).get? k = some a) : (k, a) ∈ es := by
  have fold : ∀ {es : List (κ × α)} {d : Dict κ α},
      (es.foldl (fun d e => d.insert e.1 e.2) d).get? k = some a →
        d.get? k = some a ∨ (k, a) ∈ es := by
    intro es
    induction es with
    | nil => exact fun h => .inl h
    | cons e rest ih =>
      intro d h
      rcases ih h with h | h
      · rw [Dict.get?_insert] at h
        split at h
        next hk =>
          cases h
          subst hk
          exact .inr List.mem_cons_self
        next => exact .inl h
      · exact .inr (List.mem_cons_of_mem e h)
  rcases fold h with h | h
  · cases h
  · exact h

/-! ## Compiling -/

theorem StateEntry.compile_id {hs : Handlers} {key : String} {entry : StateEntry} {s : State}
    (h : entry.compile hs key = .ok s) : s.id = key := by
  unfold StateEntry.compile at h
  obtain ⟨transitions, -, h⟩ := ok_of_bind h
  obtain ⟨onEnter, -, h⟩ := ok_of_bind h
  obtain ⟨onExit, -, h⟩ := ok_of_bind h
  cases h
  rfl

/-- Each state is compiled under its key. -/
theorem compileStates_ok {hs : Handlers} {es : List (String × StateEntry)}
    {states : List (String × State)} (h : compileStates hs es = .ok states) :
    List.Forall₂ (fun e s => s.1 = e.1 ∧ e.2.compile hs e.1 = .ok s.2) es states := by
  induction es generalizing states with
  | nil =>
    cases h
    exact .nil
  | cons e rest ih =>
    unfold compileStates at h
    obtain ⟨state, he, h⟩ := ok_of_bind h
    obtain ⟨others, hrest, h⟩ := ok_of_bind h
    cases h
    exact .cons ⟨rfl, he⟩ (ih hrest)

theorem compileStates_id {hs : Handlers} {entries : List (String × StateEntry)}
    {states : List (String × State)} (h : compileStates hs entries = .ok states) :
    ∀ e ∈ states, e.2.id = e.1 := by
  intro e he
  obtain ⟨entry, -, hkey, hentry⟩ := exists_of_forall₂_of_mem (compileStates_ok h).flip he
  rw [hkey]
  exact StateEntry.compile_id hentry

theorem Document.initialKey_contains {states : Dict String State} {initial id : Value}
    {key : String} (h : Document.initialKey states initial id = .ok key) :
    states.contains key = true := by
  unfold Document.initialKey at h
  split at h
  · cases h
  · cases h
  · split at h
    next hc =>
      cases h
      exact hc
    next => cases h
  · cases h

theorem Document.compile_wellKeyed {doc : Document} {hs : Handlers} {d : Definition}
    (h : doc.compile hs = .ok d) : d.WellKeyed := by
  unfold Document.compile at h
  obtain ⟨compiled, hcompiled, h⟩ := ok_of_bind h
  obtain ⟨initial, hinitial, h⟩ := ok_of_bind h
  cases h
  refine ⟨?_, fun hs => compileStates_id hcompiled _ (Dict.get?_ofList_mem hs)⟩
  unfold Definition.check
  rw [if_pos (Document.initialKey_contains hinitial)]

/-- **Compiled definitions are well keyed.** -/
theorem compileDocument_wellKeyed {v : Value} {hs : Handlers} {d : Definition}
    (h : compileDocument v hs = .ok d) : d.WellKeyed := by
  obtain ⟨doc, -, hcompile⟩ := ok_of_bind h
  exact Document.compile_wellKeyed hcompile

end Workflow
