import Workflow.Hook.Script
import Workflow.Proofs.Context.Content

/-!
# Sheets

A sheet is an object whose members do not lead back to it. So it can be written to, and the members
that are left alone are read as before.

**Stored values** (`storedMembers`). What was put into an arena is read back, as long as the new
cells stay as they are.

**Held off a cell** (`Arena.HeldOff`). The datum is whole, and is read the same whatever that cell
comes to hold. This is so for what was put in elsewhere, and for all that was there before the cell
was.

**Content** (`Arena.content`). The members as they are read. A sheet comes about by putting in an
object (`Sheet.stored`) or by copying one (`Sheet.copied`), and stays one when members are put on it
(`Sheet.put`); the content is then the one that is put in, the same, or the one with these members.
-/

namespace Workflow

/-! ## Entries -/

namespace Dict

variable {κ α β : Type} [DecidableEq κ]

theorem map_put (f : α → β) (k : κ) (x : α) (es : List (κ × α)) :
    (put k x es).map (fun m => (m.1, f m.2)) = put k (f x) (es.map fun m => (m.1, f m.2)) := by
  induction es with
  | nil => rfl
  | cons m rest ih =>
    unfold put
    by_cases hk : m.1 = k
    · simp [hk]
    · simpa [hk] using ih

theorem mem_put {k : κ} {x : α} {es : List (κ × α)} {m : κ × α} (h : m ∈ put k x es) :
    m = (k, x) ∨ m ∈ es := by
  induction es with
  | nil => exact .inl (List.mem_singleton.1 h)
  | cons m' rest ih =>
    unfold put at h
    split at h
    · rcases List.mem_cons.1 h with h | h
      · exact .inl h
      · exact .inr (List.mem_cons_of_mem m' h)
    · rcases List.mem_cons.1 h with rfl | h
      · exact .inr List.mem_cons_self
      · exact (ih h).imp_right (List.mem_cons_of_mem m')

/-- The entries with others put in, one after the other. -/
def putAll (more es : List (κ × α)) : List (κ × α) :=
  more.foldl (fun done m => put m.1 m.2 done) es

theorem map_putAll (f : α → β) (more es : List (κ × α)) :
    (putAll more es).map (fun m => (m.1, f m.2)) =
      putAll (more.map fun m => (m.1, f m.2)) (es.map fun m => (m.1, f m.2)) := by
  induction more generalizing es with
  | nil => rfl
  | cons m rest ih =>
    show (putAll rest (put m.1 m.2 es)).map _ = _
    rw [ih, map_put]
    rfl

theorem mem_putAll {more es : List (κ × α)} {m : κ × α} (h : m ∈ putAll more es) :
    m ∈ more ∨ m ∈ es := by
  induction more generalizing es with
  | nil => exact .inr h
  | cons m' rest ih =>
    rcases ih h with h | h
    · exact .inl (List.mem_cons_of_mem m' h)
    · rcases mem_put h with rfl | h
      · exact .inl List.mem_cons_self
      · exact .inr h

end Dict

namespace Arena

variable {a a' : Arena} {n depth depth' : Nat} {d : Datum} {members : List (String × Datum)}

/-! ## What was put in is read back -/

/-- The cells that were added are still there. -/
def KeepsNew (a before a' : Arena) : Prop :=
  ∀ (k : Nat) (c : Cell), before.cells.size ≤ k → a.cells[k]? = some c → a'.cells[k]? = some c

mutual

/-- **A stored value is whole, and is read as the value.** -/
theorem stored (a a' : Arena) : ∀ (v : Value) (depth : Nat), (a.store v).2.KeepsNew a a' →
    (a.store v).2.cells.size ≤ a.cells.size + depth →
    a'.WholeWithin depth (a.store v).1 ∧ a'.loadWithin depth (a.store v).1 = v
  | .null, depth, _, _ => by cases depth <;> exact ⟨trivial, rfl⟩
  | .bool b, depth, _, _ => by cases depth <;> exact ⟨trivial, rfl⟩
  | .int i, depth, _, _ => by cases depth <;> exact ⟨trivial, rfl⟩
  | .float x, depth, _, _ => by cases depth <;> exact ⟨trivial, rfl⟩
  | .text s, depth, _, _ => by cases depth <;> exact ⟨trivial, rfl⟩
  | .list items, depth, hnew, hsize => by
    have hgrows : a.cells.size ≤ (a.storeItems items).2.cells.size := (grows_storeItems a items).size
    have hlast : a'.cells[(a.storeItems items).2.cells.size]? =
        some (.list (a.storeItems items).1) := hnew _ _ hgrows Array.getElem?_push_size
    have hpush : (a.storeItems items).2.cells.size + 1 ≤ a.cells.size + depth :=
      Nat.le_trans (Nat.le_of_eq (Array.size_push _).symm) hsize
    obtain ⟨depth, rfl⟩ : ∃ k, depth = k + 1 := ⟨depth - 1, by omega⟩
    obtain ⟨hwhole, hload⟩ := storedItems a a' items depth
      (fun k c hk hc => hnew k c hk (grows_push _ _ k c hc)) (by omega)
    refine ⟨?_, ?_⟩
    · show a'.WholeWithin (depth + 1) (.ref _)
      unfold WholeWithin
      rw [hlast]
      exact hwhole
    · show a'.loadWithin (depth + 1) (.ref _) = _
      unfold loadWithin
      rw [hlast]
      exact congrArg Value.list hload
  | .object members, depth, hnew, hsize => by
    have hgrows : a.cells.size ≤ (a.storeMembers members).2.cells.size :=
      (grows_storeMembers a members).size
    have hlast : a'.cells[(a.storeMembers members).2.cells.size]? =
        some (.object (a.storeMembers members).1) := hnew _ _ hgrows Array.getElem?_push_size
    have hpush : (a.storeMembers members).2.cells.size + 1 ≤ a.cells.size + depth :=
      Nat.le_trans (Nat.le_of_eq (Array.size_push _).symm) hsize
    obtain ⟨depth, rfl⟩ : ∃ k, depth = k + 1 := ⟨depth - 1, by omega⟩
    obtain ⟨hwhole, hload⟩ := storedMembers a a' members depth
      (fun k c hk hc => hnew k c hk (grows_push _ _ k c hc)) (by omega)
    refine ⟨?_, ?_⟩
    · show a'.WholeWithin (depth + 1) (.ref _)
      unfold WholeWithin
      rw [hlast]
      exact hwhole
    · show a'.loadWithin (depth + 1) (.ref _) = _
      unfold loadWithin
      rw [hlast]
      exact congrArg Value.object hload

theorem storedItems (a a' : Arena) : ∀ (vs : List Value) (depth : Nat),
    (a.storeItems vs).2.KeepsNew a a' → (a.storeItems vs).2.cells.size ≤ a.cells.size + depth →
    (∀ d ∈ (a.storeItems vs).1, a'.WholeWithin depth d) ∧
      (a.storeItems vs).1.map (a'.loadWithin depth) = vs
  | [], _, _, _ => ⟨nofun, rfl⟩
  | v :: rest, depth, hnew, hsize => by
    have hfirst : a.Grows (a.store v).2 := grows_store a v
    have hrest : (a.store v).2.Grows ((a.store v).2.storeItems rest).2 := grows_storeItems _ rest
    have hlater : (a.store v).2.cells.size ≤ ((a.store v).2.storeItems rest).2.cells.size :=
      hrest.size
    obtain ⟨hv, hload⟩ := stored a a' v depth (fun k c hk hc => hnew k c hk (hrest k c hc))
      (Nat.le_trans hlater hsize)
    obtain ⟨hvs, hloads⟩ := storedItems (a.store v).2 a' rest depth
      (fun k c hk hc => hnew k c (Nat.le_trans hfirst.size hk) hc)
      (Nat.le_trans hsize (Nat.add_le_add_right hfirst.size depth))
    exact ⟨List.forall_mem_cons.2 ⟨hv, hvs⟩, congr (congrArg List.cons hload) hloads⟩

theorem storedMembers (a a' : Arena) : ∀ (vs : List (String × Value)) (depth : Nat),
    (a.storeMembers vs).2.KeepsNew a a' →
    (a.storeMembers vs).2.cells.size ≤ a.cells.size + depth →
    (∀ m ∈ (a.storeMembers vs).1, a'.WholeWithin depth m.2) ∧
      (a.storeMembers vs).1.map (fun m => (m.1, a'.loadWithin depth m.2)) = vs
  | [], _, _, _ => ⟨nofun, rfl⟩
  | (name, v) :: rest, depth, hnew, hsize => by
    have hfirst : a.Grows (a.store v).2 := grows_store a v
    have hrest : (a.store v).2.Grows ((a.store v).2.storeMembers rest).2 :=
      grows_storeMembers _ rest
    have hlater : (a.store v).2.cells.size ≤ ((a.store v).2.storeMembers rest).2.cells.size :=
      hrest.size
    obtain ⟨hv, hload⟩ := stored a a' v depth (fun k c hk hc => hnew k c hk (hrest k c hc))
      (Nat.le_trans hlater hsize)
    obtain ⟨hvs, hloads⟩ := storedMembers (a.store v).2 a' rest depth
      (fun k c hk hc => hnew k c (Nat.le_trans hfirst.size hk) hc)
      (Nat.le_trans hsize (Nat.add_le_add_right hfirst.size depth))
    exact ⟨List.forall_mem_cons.2 ⟨hv, hvs⟩,
      congr (congrArg List.cons (congrArg (name, ·) hload)) hloads⟩

end

/-! ## Data that do not lead to a cell -/

/-- The datum is whole, and is read the same whatever the cell comes to hold. -/
def HeldOff (a : Arena) (n depth : Nat) (d : Datum) : Prop :=
  ∀ a', a.GrowsBut n a' → a'.WholeWithin depth d ∧ a'.loadWithin depth d = a.loadWithin depth d

theorem HeldOff.whole (h : a.HeldOff n depth d) : a.WholeWithin depth d :=
  (h a ((Grows.refl a).but n)).1

/-- It stays so in an arena that has grown but for the cell. -/
theorem HeldOff.grows (h : a.HeldOff n depth d) (hgrows : a.GrowsBut n a')
    (hdepth : depth ≤ depth') :
    a'.HeldOff n depth' d ∧ a'.loadWithin depth' d = a.loadWithin depth d := by
  have hdeep : ∀ a'', a.GrowsBut n a'' →
      a''.WholeWithin depth' d ∧ a''.loadWithin depth' d = a.loadWithin depth d := by
    intro a'' hgrows'
    obtain ⟨hwhole, hload⟩ := h a'' hgrows'
    obtain ⟨hwhole', hload'⟩ := hwhole.grows (.refl a'') hdepth
    exact ⟨hwhole', hload'.trans hload⟩
  refine ⟨fun a'' hgrows' => ?_, (hdeep a' hgrows).2⟩
  obtain ⟨hwhole, hload⟩ := hdeep a'' (hgrows.trans hgrows')
  exact ⟨hwhole, hload.trans (hdeep a' hgrows).2.symm⟩

/-- What was whole before a cell was there does not lead to it. -/
theorem WholeWithin.heldOff (h : a.WholeWithin depth d) (hgrows : a.Grows a')
    (hn : a.cells.size ≤ n) : a'.HeldOff n depth d := by
  intro a'' hgrows'
  obtain ⟨hwhole, hload⟩ := h.grows (hgrows.trans_but hgrows' hn) (Nat.le_refl depth)
  exact ⟨hwhole, hload.trans (h.grows hgrows (Nat.le_refl depth)).2.symm⟩

/-- What is put in leads to new cells only. -/
theorem storedMembers_heldOff (more : List (String × Value)) {a₁ : Arena}
    (hkeeps : (a.storeMembers more).2.KeepsNew a a₁)
    (hn : n < a.cells.size ∨ (a.storeMembers more).2.cells.size ≤ n)
    (hsize : (a.storeMembers more).2.cells.size ≤ a.cells.size + depth) :
    ∀ m ∈ (a.storeMembers more).1, a₁.HeldOff n depth m.2 := by
  intro m hm a₂ hgrows
  have hkeeps' : (a.storeMembers more).2.KeepsNew a a₂ := by
    intro k c hk hc
    have hlt : k < (a.storeMembers more).2.cells.size := (Array.getElem?_eq_some_iff.1 hc).1
    exact hgrows k c (by omega) (hkeeps k c hk hc)
  obtain ⟨hwhole, hload⟩ := storedMembers a a₂ more depth hkeeps' hsize
  obtain ⟨-, hload₁⟩ := storedMembers a a₁ more depth hkeeps hsize
  have hsame := List.map_inj_left.1 (hload.trans hload₁.symm) m hm
  exact ⟨hwhole m hm, (Prod.mk.inj hsame).2⟩

/-! ## Sheets -/

/-- The members, as they are read. -/
def content (a : Arena) (members : List (String × Datum)) : List (String × Value) :=
  members.map fun m => (m.1, a.load m.2)

/-- The cell is an object whose members do not lead to it. -/
structure Sheet (a : Arena) (n : Nat) (members : List (String × Datum)) : Prop where
  cell : a.cells[n]? = some (.object members)
  held : ∀ m ∈ members, a.HeldOff n (a.cells.size - 1) m.2

namespace Sheet

theorem lt (h : a.Sheet n members) : n < a.cells.size := (Array.getElem?_eq_some_iff.1 h.cell).1

theorem load_member (h : a.Sheet n members) {m : String × Datum} (hm : m ∈ members) :
    a.loadWithin (a.cells.size - 1) m.2 = a.load m.2 :=
  (((h.held m hm).grows ((Grows.refl a).but n) (Nat.sub_le _ 1)).2).symm

/-- A sheet is read as the object of its content. -/
theorem load (h : a.Sheet n members) : a.load (.ref n) = .object (a.content members) := by
  have hsize : a.cells.size = a.cells.size - 1 + 1 := (Nat.sub_add_cancel (by have := h.lt; omega)).symm
  unfold Arena.load
  rw [hsize]
  unfold loadWithin
  rw [h.cell]
  refine congrArg Value.object (List.map_congr_left fun m hm => ?_)
  exact congrArg (m.1, ·) (h.load_member hm)

/-- **An object that is put into an empty arena is a sheet.** -/
theorem stored (members : List (String × Value)) :
    ∃ n data, (Arena.store default (.object members)).1 = .ref n ∧
      (Arena.store default (.object members)).2.Sheet n data ∧
      (Arena.store default (.object members)).2.content data = members := by
  let a := (Arena.storeMembers default members).2
  let data := (Arena.storeMembers default members).1
  let a' : Arena := ⟨a.cells.push (.object data)⟩
  have hsize : a'.cells.size = a.cells.size + 1 := Array.size_push _
  have hkeeps : a.KeepsNew default a' := fun k c _ hc => grows_push a _ k c hc
  have hdepth : a.cells.size ≤ (default : Arena).cells.size + (a'.cells.size - 1) := by omega
  have hheld : ∀ m ∈ data, a'.HeldOff a.cells.size (a'.cells.size - 1) m.2 :=
    storedMembers_heldOff members hkeeps (.inr (Nat.le_refl _)) hdepth
  refine ⟨a.cells.size, data, rfl, ⟨Array.getElem?_push_size, hheld⟩, ?_⟩
  exact (storedMembers default a' members a'.cells.size hkeeps (Nat.le_trans hdepth (by omega))).2

/-- **A copy of a sheet is a sheet with the same content.** -/
theorem copied (h : a.Sheet n members) :
    a.shallowCopy (.ref n) = (.ref a.cells.size, ⟨a.cells.push (.object members)⟩) ∧
      Sheet ⟨a.cells.push (.object members)⟩ a.cells.size members ∧
      content ⟨a.cells.push (.object members)⟩ members = a.content members := by
  have hgrows : a.Grows ⟨a.cells.push (.object members)⟩ := grows_push a _
  have hsize : (a.cells.push (.object members)).size = a.cells.size + 1 := Array.size_push _
  refine ⟨shallowCopy_of_cell h.cell, ⟨Array.getElem?_push_size, fun m hm => ?_⟩, ?_⟩
  · have hwhole := (h.held m hm).whole.grows (.refl a) (Nat.sub_le _ 1)
    show HeldOff _ _ ((a.cells.push (.object members)).size - 1) m.2
    rw [hsize]
    exact hwhole.1.heldOff hgrows (Nat.le_refl _)
  · refine List.map_congr_left fun m hm => congrArg (m.1, ·) ?_
    have hgrown := (h.held m hm).grows (hgrows.but n) (Nat.le_trans (Nat.sub_le _ 1) hgrows.size)
    exact hgrown.2.trans (h.load_member hm)

/-- **Members that are put on a sheet are put into its content.** -/
theorem put (h : a.Sheet n members) (more : List (String × Value)) :
    let data := Dict.putAll (a.storeMembers more).1 members
    let a' := (a.storeMembers more).2.setCell n (.object data)
    a'.Sheet n data ∧ a'.content data = Dict.putAll more (a.content members) := by
  intro data a'
  have hgrows : a.Grows (a.storeMembers more).2 := grows_storeMembers a more
  have hsize : a'.cells.size = (a.storeMembers more).2.cells.size := Array.size_setIfInBounds ..
  have hlt : n < a.cells.size := h.lt
  have hle : a.cells.size ≤ a'.cells.size := hsize ▸ hgrows.size
  have hbut : a.GrowsBut n a' := (hgrows.but n).trans (growsBut_setCell _ n _)
  have hkeeps : (a.storeMembers more).2.KeepsNew a a' := fun k c hk hc =>
    growsBut_setCell _ n _ k c (by omega) hc
  have hnew : ∀ m ∈ (a.storeMembers more).1, a'.HeldOff n (a'.cells.size - 1) m.2 :=
    storedMembers_heldOff more hkeeps (.inl hlt) (by omega)
  have hold : ∀ m ∈ members, a'.HeldOff n (a'.cells.size - 1) m.2 := fun m hm =>
    ((h.held m hm).grows hbut (by omega)).1
  have hcell : a'.cells[n]? = some (.object data) :=
    Array.getElem?_setIfInBounds_self_of_lt (Nat.lt_of_lt_of_le hlt hgrows.size)
  refine ⟨⟨hcell, fun m hm => (Dict.mem_putAll hm).elim (hnew m) (hold m)⟩, ?_⟩
  unfold content
  rw [Dict.map_putAll]
  congr 1
  · exact (storedMembers a a' more a'.cells.size hkeeps (by omega)).2
  · refine List.map_congr_left fun m hm => congrArg (m.1, ·) ?_
    exact ((h.held m hm).grows hbut (by omega)).2.trans (h.load_member hm)

end Sheet

end Arena

end Workflow
