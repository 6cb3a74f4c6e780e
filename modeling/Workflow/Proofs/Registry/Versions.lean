import Mathlib.Data.List.Sort
import Workflow.Engine.Registry

/-!
# Versions in order

What the registry makes of a shelf whose versions are whole numbers.

**Volumes** (`Registry.volume`). An entry under a whole number, which is also its version.

**Numbered shelves** (`Registry.Numbers`). A shelf of volumes is a table of definitions by number:
storing, removing and looking up go through to the table.

Main results: `Numbers.inOrder`, that such a shelf can be put in ascending order, and
`Numbers.latest`, that the latest version is the greatest number.
-/

namespace Workflow

namespace Registry

/-- The entry of a shelf under a number. -/
def volume (n : Int × Definition) : Key × Edition := (.whole n.1, ⟨.int n.1, n.2⟩)

@[simp] theorem volume_fst (n : Int × Definition) : (volume n).1 = .whole n.1 := rfl

@[simp] theorem volume_version (n : Int × Definition) : (volume n).2.version = .int n.1 := rfl

@[simp] theorem volume_definition (n : Int × Definition) : (volume n).2.definition = n.2 := rfl

/-- Whole numbers come in the order of their size. -/
theorem before?_whole (v w : Int) : Key.before? (.whole v) (.whole w) = some (decide (v < w)) := by
  have hcompare : Key.before? (.whole v) (.whole w) =
      some ((if (v : Rat) < w then .lt else if (v : Rat) = w then .eq else .gt : Ordering) == .lt) :=
    rfl
  rw [hcompare, Option.some_inj]
  by_cases h : v < w
  · rw [if_pos (Rat.intCast_lt_intCast.2 h), decide_eq_true h]
    rfl
  · rw [if_neg (mt Rat.intCast_lt_intCast.1 h), decide_eq_false h]
    split <;> rfl

/-! ## Numbered shelves -/

variable {shelf : Shelf} {numbered : Dict Int Definition} {n : Int × Definition}
  {ns : List (Int × Definition)}

theorem find_volumes (v : Int) (ns : List (Int × Definition)) :
    Dict.find (.whole v) (ns.map volume) = (Dict.find v ns).map fun d => ⟨.int v, d⟩ := by
  induction ns with
  | nil => rfl
  | cons n rest ih =>
    by_cases h : n.1 = v
    · subst h
      simp [Dict.find, volume]
    · simp [Dict.find, h, ih]

theorem put_volumes (v : Int) (d : Definition) (ns : List (Int × Definition)) :
    Dict.put (.whole v) ⟨.int v, d⟩ (ns.map volume) = (Dict.put v d ns).map volume := by
  induction ns with
  | nil => rfl
  | cons n rest ih =>
    by_cases h : n.1 = v
    · simp [Dict.put, h, volume]
    · simp [Dict.put, h, ih]

/-- The entries of a shelf are those of a table by number. -/
def Numbers (numbered : Dict Int Definition) (shelf : Shelf) : Prop :=
  shelf.entries = numbered.entries.map volume

namespace Numbers

theorem empty : Numbers {} {} := rfl

theorem get? (h : Numbers numbered shelf) (v : Int) :
    shelf.get? (.whole v) = (numbered.get? v).map fun d => ⟨.int v, d⟩ := by
  unfold Dict.get?
  rw [h]
  exact find_volumes v numbered.entries

theorem shelve (h : Numbers numbered shelf) {d : Definition} {v : Int} (hd : d.version = .int v) :
    Numbers (numbered.insert v d) (shelve shelf (.whole v) d) := by
  have hversion : ((shelf.get? (.whole v)).map (·.version)).getD d.version = .int v := by
    rw [h.get?, hd]
    cases numbered.get? v <;> rfl
  unfold Numbers Registry.shelve
  rw [hversion]
  show Dict.put _ _ shelf.entries = _
  rw [h]
  exact put_volumes v d numbered.entries

theorem erase (h : Numbers numbered shelf) (v : Int) :
    Numbers (numbered.erase v) (shelf.erase (.whole v)) := by
  show shelf.entries.filter _ = (numbered.entries.filter _).map volume
  rw [h, List.filter_map]
  congr 2
  funext n
  simp

theorem isEmpty_eq_false (h : Numbers numbered shelf) (hne : numbered.entries ≠ []) :
    shelf.isEmpty = false := by
  unfold Dict.isEmpty
  rw [h, List.isEmpty_map]
  exact List.isEmpty_eq_false_iff.2 hne

end Numbers

/-! ## Ascending order -/

theorem insertInOrder_volumes (h : ∀ m ∈ ns, m.1 ≠ n.1) :
    insertInOrder (volume n) (ns.map volume) =
      .ok ((ns.orderedInsert (fun a b => a.1 ≤ b.1) n).map volume) := by
  induction ns with
  | nil => rfl
  | cons m rest ih =>
    obtain ⟨hm, hrest⟩ := List.forall_mem_cons.1 h
    simp only [List.map_cons, insertInOrder, volume_fst, before?_whole, List.orderedInsert_cons]
    by_cases hlt : n.1 < m.1
    · rw [if_pos (Int.le_of_lt hlt), decide_eq_true hlt]
      rfl
    · have hle : ¬ n.1 ≤ m.1 := by omega
      rw [if_neg hle, decide_eq_false hlt, ih hrest]
      rfl

theorem inOrder_eq (h : (ns.map Prod.fst).Nodup) :
    inOrder (ns.map volume) =
      .ok ((ns.insertionSort fun a b => a.1 ≤ b.1).map volume) := by
  induction ns with
  | nil => rfl
  | cons n rest ih =>
    obtain ⟨hnew, hrest⟩ := List.nodup_cons.1 h
    have hother : ∀ m ∈ rest.insertionSort fun a b => a.1 ≤ b.1, m.1 ≠ n.1 := by
      intro m hm heq
      have hmem := (List.perm_insertionSort _ rest).mem_iff.1 hm
      exact hnew (heq ▸ List.mem_map_of_mem hmem)
    simp only [List.map_cons, inOrder, ih hrest, List.insertionSort_cons]
    exact insertInOrder_volumes hother

/-- **A numbered shelf can be put in ascending order.** -/
theorem Numbers.inOrder (h : Numbers numbered shelf) :
    ∃ ms : List (Int × Definition), inOrder shelf.entries = .ok (ms.map volume) ∧
      ms.Perm numbered.entries ∧ (ms.map Prod.fst).Pairwise (· < ·) := by
  have hperm := List.perm_insertionSort (fun a b : Int × Definition => a.1 ≤ b.1) numbered.entries
  refine ⟨_, (congrArg Registry.inOrder h).trans (inOrder_eq numbered.nodup), hperm, ?_⟩
  have hle : ((numbered.entries.insertionSort fun a b => a.1 ≤ b.1).map Prod.fst).Pairwise
      (· ≤ ·) := by
    have : Std.Total fun a b : Int × Definition => a.1 ≤ b.1 := ⟨fun a b => Int.le_total a.1 b.1⟩
    have : IsTrans _ fun a b : Int × Definition => a.1 ≤ b.1 := ⟨fun _ _ _ => Int.le_trans⟩
    exact List.pairwise_map.2 (List.pairwise_insertionSort _ numbered.entries)
  have hnodup := (hperm.map Prod.fst).nodup_iff.2 numbered.nodup
  exact hle.imp₂ (fun _ _ hle hne => by omega) hnodup

/-! ## The latest version -/

theorem latestOf_volumes (n : Int × Definition) (ns : List (Int × Definition)) :
    ∃ m ∈ n :: ns, latestOf (volume n) (ns.map volume) = .ok (volume m) ∧
      ∀ m' ∈ n :: ns, m'.1 ≤ m.1 := by
  induction ns generalizing n with
  | nil => exact ⟨n, List.mem_cons_self, rfl, by simp⟩
  | cons k rest ih =>
    have hstep : latestOf (volume n) ((k :: rest).map volume) =
        latestOf (volume (if n.1 < k.1 then k else n)) (rest.map volume) := by
      simp only [List.map_cons, latestOf, volume_fst, before?_whole, decide_eq_true_eq]
      split <;> rfl
    obtain ⟨m, hm, hlatest, hgreatest⟩ := ih (if n.1 < k.1 then k else n)
    rw [List.forall_mem_cons] at hgreatest
    refine ⟨m, ?_, hstep.trans hlatest, ?_⟩
    · rcases List.mem_cons.1 hm with rfl | hm
      · split <;> simp
      · simp [hm]
    · simp only [List.forall_mem_cons]
      refine ⟨?_, ?_, hgreatest.2⟩ <;> have := hgreatest.1 <;> split at this <;> omega

/-- **The latest version of a numbered shelf is the greatest number.** -/
theorem Numbers.latest (h : Numbers numbered shelf) (hne : numbered.entries ≠ []) :
    ∃ m ∈ numbered.entries, latest shelf = .ok m.2 ∧ ∀ m' ∈ numbered.entries, m'.1 ≤ m.1 := by
  unfold Registry.latest
  rw [h]
  cases hns : numbered.entries with
  | nil => exact absurd hns hne
  | cons n rest =>
    obtain ⟨m, hm, hlatest, hgreatest⟩ := latestOf_volumes n rest
    refine ⟨m, hm, ?_, hgreatest⟩
    rw [List.map_cons]
    simp only [hlatest]
    rfl

end Registry

end Workflow
