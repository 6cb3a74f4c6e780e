import Workflow.Hook.Basic

/-!
# The content of contexts

What can be read of a context in an arena stays the same as long as no list and no object that it
refers to is changed.

**Growth** (`Arena.Grows`). All cells are still there, as they were, and there may be more of them.
`Arena.GrowsBut` leaves one cell out.

**Whole data** (`Arena.Whole`). All that the datum refers to is there, and reading it comes to its
end. This is so for all data that do not contain themselves.

Main results: `Arena.Whole.grows`, that whole data are read the same in an arena that has grown, and
`Arena.shallowCopy_load`, that a copy is read as the original is.
-/

namespace Workflow

namespace Arena

variable {a a' a'' : Arena} {d : Datum} {v : Value} {c : Cell} {m depth depth' : Nat}

/-! ## Growth -/

/-- All cells are still there, as they were. -/
def Grows (a a' : Arena) : Prop :=
  ∀ (n : Nat) (c : Cell), a.cells[n]? = some c → a'.cells[n]? = some c

/-- All cells but one are still there, as they were. -/
def GrowsBut (m : Nat) (a a' : Arena) : Prop :=
  ∀ (n : Nat) (c : Cell), n ≠ m → a.cells[n]? = some c → a'.cells[n]? = some c

theorem Grows.refl (a : Arena) : a.Grows a := fun _ _ h => h

theorem Grows.trans (h : a.Grows a') (h' : a'.Grows a'') : a.Grows a'' :=
  fun n c hc => h' n c (h n c hc)

theorem Grows.but (h : a.Grows a') (m : Nat) : a.GrowsBut m a' := fun n c _ hc => h n c hc

theorem GrowsBut.trans (h : a.GrowsBut m a') (h' : a'.GrowsBut m a'') : a.GrowsBut m a'' :=
  fun n c hn hc => h' n c hn (h n c hn hc)

/-- A cell that was added later does not count. -/
theorem Grows.trans_but (h : a.Grows a') (h' : a'.GrowsBut m a'') (hm : a.cells.size ≤ m) :
    a.Grows a'' := by
  intro n c hc
  have hlt : n < a.cells.size := (Array.getElem?_eq_some_iff.1 hc).1
  exact h' n c (by omega) (h n c hc)

theorem Grows.size (h : a.Grows a') : a.cells.size ≤ a'.cells.size := by
  refine Nat.le_of_not_lt fun hn => ?_
  have hsome := h _ _ (Array.getElem?_eq_getElem hn)
  rw [Array.getElem?_eq_none (Nat.le_refl _)] at hsome
  cases hsome

theorem grows_push (a : Arena) (c : Cell) : a.Grows ⟨a.cells.push c⟩ := by
  intro n c' hc'
  obtain ⟨hlt, hget⟩ := Array.getElem?_eq_some_iff.1 hc'
  rw [← hget]
  exact Array.getElem?_push_lt hlt

theorem growsBut_setCell (a : Arena) (m : Nat) (c : Cell) : a.GrowsBut m (a.setCell m c) := by
  intro n c' hn hc'
  show (a.cells.setIfInBounds m c)[n]? = some c'
  rw [Array.getElem?_setIfInBounds_ne (Ne.symm hn)]
  exact hc'

/-! What is put into an arena goes into new cells. -/

mutual

theorem grows_store (a : Arena) : ∀ v : Value, a.Grows (a.store v).2
  | .null | .bool _ | .int _ | .float _ | .text _ => .refl a
  | .list items => (grows_storeItems a items).trans (grows_push _ _)
  | .object members => (grows_storeMembers a members).trans (grows_push _ _)

theorem grows_storeItems (a : Arena) : ∀ vs : List Value, a.Grows (a.storeItems vs).2
  | [] => .refl a
  | v :: rest => (grows_store a v).trans (grows_storeItems _ rest)

theorem grows_storeMembers (a : Arena) :
    ∀ vs : List (String × Value), a.Grows (a.storeMembers vs).2
  | [] => .refl a
  | (_, v) :: rest => (grows_store a v).trans (grows_storeMembers _ rest)

end

/-! ## Whole data -/

/-- All that the datum refers to is there, and is reached through at most `depth` references. -/
def WholeWithin (a : Arena) : Nat → Datum → Prop
  | 0, .ref _ => False
  | depth + 1, .ref n =>
    match a.cells[n]? with
    | some (.list items) => ∀ d ∈ items, a.WholeWithin depth d
    | some (.object members) => ∀ m ∈ members, a.WholeWithin depth m.2
    | none => False
  | _, _ => True

/-- Reading the datum leaves nothing out. -/
def Whole (a : Arena) (d : Datum) : Prop := a.WholeWithin a.cells.size d

/-- In an arena that has grown, and to a greater depth, the same is read. -/
theorem WholeWithin.grows (h : a.WholeWithin depth d) (hgrows : a.Grows a')
    (hdepth : depth ≤ depth') :
    a'.WholeWithin depth' d ∧ a'.loadWithin depth' d = a.loadWithin depth d := by
  induction depth generalizing depth' d with
  | zero =>
    cases d with
    | ref n => exact h.elim
    | _ => cases depth' <;> exact ⟨trivial, rfl⟩
  | succ depth ih =>
    obtain ⟨depth', rfl⟩ : ∃ k, depth' = k + 1 := ⟨depth' - 1, by omega⟩
    replace ih : ∀ d, a.WholeWithin depth d →
        a'.WholeWithin depth' d ∧ a'.loadWithin depth' d = a.loadWithin depth d :=
      fun d h => ih h (by omega)
    cases d with
    | ref n =>
      unfold WholeWithin at h
      split at h
      next items hitems =>
        unfold WholeWithin loadWithin
        simp only [hitems, hgrows _ _ hitems]
        refine ⟨fun d hd => (ih d (h d hd)).1, congrArg Value.list ?_⟩
        exact List.map_congr_left fun d hd => (ih d (h d hd)).2
      next members hmembers =>
        unfold WholeWithin loadWithin
        simp only [hmembers, hgrows _ _ hmembers]
        refine ⟨fun m hm => (ih m.2 (h m hm)).1, congrArg Value.object ?_⟩
        exact List.map_congr_left fun m hm => congrArg (m.1, ·) (ih m.2 (h m hm)).2
      next => exact h.elim
    | _ => exact ⟨trivial, rfl⟩

/-- **Whole data are read the same** in an arena that has grown. -/
theorem Whole.grows (h : a.Whole d) (hgrows : a.Grows a') : a'.Whole d ∧ a'.load d = a.load d :=
  WholeWithin.grows h hgrows hgrows.size

/-! ## Copies -/

theorem shallowCopy_of_cell (h : a.cell? d = some c) :
    a.shallowCopy d = (.ref a.cells.size, ⟨a.cells.push c⟩) := by
  unfold shallowCopy
  rw [h]
  rfl

/-- The copy of a list or an object is read as the list or the object is. -/
theorem shallowCopy_load (hc : a.cell? d = some c) (h : a.Whole d) :
    (a.shallowCopy d).2.load (a.shallowCopy d).1 = a.load d := by
  obtain ⟨n, rfl⟩ : ∃ n, d = .ref n := by
    cases d with
    | ref n => exact ⟨n, rfl⟩
    | _ => cases hc
  have hgrows : a.Grows ⟨a.cells.push c⟩ := grows_push a c
  have hsame : ∀ depth, Arena.loadWithin ⟨a.cells.push c⟩ (depth + 1) (.ref a.cells.size) =
      Arena.loadWithin ⟨a.cells.push c⟩ (depth + 1) (.ref n) := by
    intro depth
    unfold loadWithin
    rw [hgrows n c hc]
    simp only [Array.getElem?_push_size]
  rw [shallowCopy_of_cell hc]
  refine Eq.trans ?_ (h.grows hgrows).2
  show Arena.loadWithin _ (a.cells.push c).size _ = Arena.loadWithin _ (a.cells.push c).size _
  rw [Array.size_push]
  exact hsame _

end Arena

/-! ## Contexts -/

/-- In the arena of this number nothing that was there is changed: each list and each object has the
same items, and each context has the same content. -/
structure Environment.Preserves (arena : Nat) (e e' : Environment) : Prop where
  cells : (e.arena arena).Grows (e'.arena arena)
  content : ∀ c : Context, c.arena = arena → (e.arena arena).Whole c.root → e'.read c = e.read c

theorem Environment.preserves_of_grows {n : Nat} {e e' : Environment}
    (h : (e.arena n).Grows (e'.arena n)) : e.Preserves n e' where
  cells := h
  content c hc hwhole := by
    subst hc
    exact (hwhole.grows h).2

end Workflow
