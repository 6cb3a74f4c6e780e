import Workflow.Proofs.Run.History
import Workflow.Proofs.Run.Upkeep

/-!
# The readings in a history

Each visit of a history began at a reading of the clock of its own, and the readings come in the
order of the visits.

**Later** (`Environment.Later`). Others may read the clock too and change all contexts. The clock
itself, as the sequence of what its readings give, stays the same; it may stand still or go
backwards.

**Numbered** (`Instance.Numbered`). The numbers of the readings at which the visits began. A move
takes the next one that nobody has had yet (`Numbered.moved`).

Main result: `LivesFrom.numbered`. The history is in order, too (`LivesFrom.chronicled`).
-/

namespace Workflow

open Instance

/-- The clock has been read some more times. -/
structure Environment.Later (e e' : Environment) : Prop where
  reading : e'.clock.reading = e.clock.reading
  taken : e.clock.taken ≤ e'.clock.taken

/-- The visits began at the readings of these numbers. -/
structure Instance.Numbered (i : Instance) (clock : Clock) (numbers : List Nat) : Prop where
  entered : i.history.map (·.enteredAt) = numbers.map fun n => (clock.reading n).text
  increasing : numbers.Pairwise (· < ·)
  taken : ∀ n ∈ numbers, n < clock.taken

variable {d : Definition} {i : Instance} {before after e e' : Environment} {numbers : List Nat}
  {others : Environment → Environment → Prop}

theorem Environment.Later.refl (e : Environment) : Later e e := ⟨rfl, Nat.le_refl _⟩

theorem Environment.Later.trans {e'' : Environment} (h : Later e e') (h' : Later e' e'') :
    Later e e'' :=
  ⟨h'.reading.trans h.reading, Nat.le_trans h.taken h'.taken⟩

namespace Instance.Numbered

theorem later (h : i.Numbered e.clock numbers) (hl : e.Later e') :
    i.Numbered e'.clock numbers where
  entered := by rw [h.entered, hl.reading]
  increasing := h.increasing
  taken n hn := Nat.lt_of_lt_of_le (h.taken n hn) hl.taken

theorem fresh (d : Definition) (c : Context) (id : String) (e : Environment) :
    (d.fresh c id e.clock.now.text).Numbered e.tick.clock [e.clock.taken] where
  entered := rfl
  increasing := List.pairwise_singleton ..
  taken n hn := by
    cases List.mem_singleton.1 hn
    exact Nat.lt_succ_self _

/-- Closing a visit leaves the moments at which visits began. -/
theorem closeLast_entered (moment : String) (visits : List Visit) :
    (closeLast moment visits).map (·.enteredAt) = visits.map (·.enteredAt) := by
  induction visits with
  | nil => rfl
  | cons v rest ih =>
    cases rest with
    | nil =>
      unfold closeLast
      split <;> rfl
    | cons w rest => exact congrArg (v.enteredAt :: ·) ih

/-- A move adds its own moment. -/
theorem moved_entered (i : Instance) (t : Transition) (target : State) (event : Value)
    (moment : String) :
    (i.moved t target event moment).history.map (·.enteredAt) =
      i.history.map (·.enteredAt) ++ [moment] := by
  unfold Instance.moved
  rw [List.map_append, closeLast_entered]
  rfl

/-- A move takes the next reading. -/
theorem moved (h : i.Numbered e.clock numbers) (t : Transition) (target : State) (event : Value) :
    (i.moved t target event e.clock.now.text).Numbered e.tick.clock
      (numbers ++ [e.clock.taken]) where
  entered := by
    rw [moved_entered, h.entered, List.map_append]
    rfl
  increasing := by
    refine List.pairwise_append.2 ⟨h.increasing, List.pairwise_singleton .., fun n hn m hm => ?_⟩
    cases List.mem_singleton.1 hm
    exact h.taken n hn
  taken n hn := by
    rcases List.mem_append.1 hn with hn | hn
    · exact Nat.lt_succ_of_lt (h.taken n hn)
    · cases List.mem_singleton.1 hn
      exact Nat.lt_succ_self _

theorem upkeep :
    Upkeep Environment.Later fun i e => ∃ numbers, i.Numbered e.clock numbers where
  refl := .refl
  trans := .trans
  arena _ _ _ := ⟨rfl, Nat.le_refl _⟩
  later hl := fun ⟨_, h⟩ => ⟨_, h.later hl⟩
  fresh d c id e := ⟨_, fresh d c id e⟩
  moved t target event := fun ⟨_, h⟩ => ⟨_, h.moved t target event⟩
  failed _ := fun ⟨_, h⟩ => ⟨_, h.entered, h.increasing, h.taken⟩

end Instance.Numbered

/-! ## Whole lives -/

namespace Definition.LivesFrom

/-- **Each visit of an instance began at a reading of its own, in order.** -/
theorem numbered (h : d.LivesFrom Environment.Later before after i e) :
    ∃ numbers, i.Numbered e.clock numbers :=
  h.keeps Numbered.upkeep fun _ ⟨numbers, h⟩ => ⟨numbers, h.entered, h.increasing, h.taken⟩

theorem chronicled (h : d.LivesFrom others before after i e) : i.Chronicled d :=
  h.invariant (fun c name => Chronicled.fresh c name _) (fun hm hi => hi.moves hm)
    (fun f hi => hi.failed f) (fun c hi => hi.recontext c)

end Definition.LivesFrom

end Workflow
