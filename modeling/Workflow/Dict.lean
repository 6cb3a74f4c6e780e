/-!
# Ordered dictionaries

A dictionary holds one entry per key, in the order in which the keys first came in. Storing
under a key that is present keeps its place; a key that was erased comes in again at the end.

**The view** is `entries`. `Dict.get?` answers by key, and the lemmas say what `insert` and
`erase` do to the answers and to the list of keys.
-/

namespace Workflow

/-- Entries by key, in the order of insertion. -/
structure Dict (κ : Type) (α : Type) where
  entries : List (κ × α)
  nodup : (entries.map Prod.fst).Nodup

namespace Dict

variable {κ α β : Type}

def empty : Dict κ α := ⟨[], List.nodup_nil⟩

instance : EmptyCollection (Dict κ α) := ⟨empty⟩

instance : Inhabited (Dict κ α) := ⟨empty⟩

def keys (d : Dict κ α) : List κ := d.entries.map Prod.fst

def values (d : Dict κ α) : List α := d.entries.map Prod.snd

def size (d : Dict κ α) : Nat := d.entries.length

def isEmpty (d : Dict κ α) : Bool := d.entries.isEmpty

/-- The same keys with other values. -/
def map (f : α → β) (d : Dict κ α) : Dict κ β :=
  ⟨d.entries.map fun e => (e.1, f e.2), by simpa [List.map_map, Function.comp_def] using d.nodup⟩

section Lookup

variable [DecidableEq κ]

/-- The value under `k` in a list of entries. -/
def find (k : κ) : List (κ × α) → Option α
  | [] => none
  | e :: rest => if e.1 = k then some e.2 else find k rest

def get? (d : Dict κ α) (k : κ) : Option α := find k d.entries

def contains (d : Dict κ α) (k : κ) : Bool := (d.get? k).isSome

/-- Puts `a` in the place of the entry under `k`, or at the end. -/
def put (k : κ) (a : α) : List (κ × α) → List (κ × α)
  | [] => [(k, a)]
  | e :: rest => if e.1 = k then (k, a) :: rest else e :: put k a rest

theorem map_fst_put (k : κ) (a : α) (es : List (κ × α)) :
    (put k a es).map Prod.fst =
      if k ∈ es.map Prod.fst then es.map Prod.fst else es.map Prod.fst ++ [k] := by
  induction es with
  | nil => simp [put]
  | cons e rest ih =>
    by_cases h : e.1 = k
    · simp [put, h]
    · have h' : ¬ k = e.1 := fun he => h he.symm
      by_cases hm : k ∈ rest.map Prod.fst
      · simp [put, h, ih, hm]
      · simp [put, h, ih, hm, h']

theorem nodup_put {k : κ} {a : α} {es : List (κ × α)} (h : (es.map Prod.fst).Nodup) :
    ((put k a es).map Prod.fst).Nodup := by
  rw [map_fst_put]
  split
  · exact h
  · next hk =>
    rw [List.nodup_append]
    refine ⟨h, by simp, ?_⟩
    intro x hx y hy
    simp only [List.mem_singleton] at hy
    subst hy
    intro hxy
    exact hk (hxy ▸ hx)

/-- Stores `a` under `k`; a key that is present keeps its place. -/
def insert (d : Dict κ α) (k : κ) (a : α) : Dict κ α := ⟨put k a d.entries, nodup_put d.nodup⟩

/-- Removes the entry under `k`, if there is one. -/
def erase (d : Dict κ α) (k : κ) : Dict κ α :=
  ⟨d.entries.filter fun e => e.1 ≠ k,
    (List.filter_sublist.map Prod.fst).nodup d.nodup⟩

/-- Stores the entries one after the other: a repeated key keeps its first place and takes its
last value. -/
def ofList (es : List (κ × α)) : Dict κ α := es.foldl (fun d e => d.insert e.1 e.2) empty

/-! ## What the answers are after a change -/

theorem find_put (k : κ) (a : α) (es : List (κ × α)) (j : κ) :
    find j (put k a es) = if k = j then some a else find j es := by
  induction es with
  | nil => simp [put, find]
  | cons e rest ih => grind [put, find]

theorem get?_insert (d : Dict κ α) (k j : κ) (a : α) :
    (d.insert k a).get? j = if k = j then some a else d.get? j :=
  find_put k a d.entries j

theorem put_of_find {k : κ} {a : α} {es : List (κ × α)} (h : find k es = some a) :
    put k a es = es := by
  induction es with
  | nil => cases h
  | cons e rest ih =>
    by_cases hk : e.1 = k
    · subst hk
      simp only [find, if_true, Option.some.injEq] at h
      simp only [put, if_true, ← h]
    · simp only [find, if_neg hk] at h
      simp only [put, if_neg hk, ih h]

/-- Storing what is there changes nothing. -/
theorem insert_of_get? {d : Dict κ α} {k : κ} {a : α} (h : d.get? k = some a) :
    d.insert k a = d := by
  cases d
  simp only [insert, mk.injEq]
  exact put_of_find h

theorem put_of_find_none {k : κ} {es : List (κ × α)} (a : α) (h : find k es = none) :
    put k a es = es ++ [(k, a)] := by
  induction es with
  | nil => rfl
  | cons e rest ih =>
    by_cases hk : e.1 = k
    · simp only [find, if_pos hk, reduceCtorEq] at h
    · simp only [find, if_neg hk] at h
      simp only [put, if_neg hk, ih h, List.cons_append]

/-- A new key comes in at the end. -/
theorem entries_insert_of_get?_none {d : Dict κ α} {k : κ} (a : α) (h : d.get? k = none) :
    (d.insert k a).entries = d.entries ++ [(k, a)] :=
  put_of_find_none a h

theorem keys_insert (d : Dict κ α) (k : κ) (a : α) :
    (d.insert k a).keys = if k ∈ d.keys then d.keys else d.keys ++ [k] :=
  map_fst_put k a d.entries

theorem find_filter_ne (k : κ) (es : List (κ × α)) (j : κ) :
    find j (es.filter fun e => e.1 ≠ k) = if k = j then none else find j es := by
  induction es with
  | nil => simp [find]
  | cons e rest ih => grind [find]

theorem get?_erase (d : Dict κ α) (k j : κ) :
    (d.erase k).get? j = if k = j then none else d.get? j :=
  find_filter_ne k d.entries j

theorem mem_map_fst_iff (k : κ) (es : List (κ × α)) :
    k ∈ es.map Prod.fst ↔ ∃ a, find k es = some a := by
  induction es with
  | nil => simp [find]
  | cons e rest ih =>
    by_cases h : e.1 = k
    · simp [find, h]
    · simp [find, h, ih, Ne.symm h]

theorem find_eq_some_iff {k : κ} {a : α} {es : List (κ × α)} (h : (es.map Prod.fst).Nodup) :
    find k es = some a ↔ (k, a) ∈ es := by
  induction es with
  | nil => simp [find]
  | cons e rest ih =>
    obtain ⟨hnew, hrest⟩ := List.nodup_cons.1 h
    by_cases hk : e.1 = k
    · subst hk
      have hnot : (e.1, a) ∉ rest := fun hm => hnew (List.mem_map.2 ⟨_, hm, rfl⟩)
      simp [find, hnot, Prod.ext_iff, eq_comm]
    · have hne : (k, a) ≠ e := fun he => hk (congrArg Prod.fst he).symm
      simp [find, hk, hne, ih hrest]

/-- The answers are the entries. -/
theorem get?_eq_some_iff {d : Dict κ α} {k : κ} {a : α} :
    d.get? k = some a ↔ (k, a) ∈ d.entries :=
  find_eq_some_iff d.nodup

theorem foldl_insert_entries {es : List (κ × α)} {d : Dict κ α}
    (h : ((d.entries ++ es).map Prod.fst).Nodup) :
    (es.foldl (fun d e => d.insert e.1 e.2) d).entries = d.entries ++ es := by
  induction es generalizing d with
  | nil => exact (List.append_nil _).symm
  | cons e rest ih =>
    have hnew : d.get? e.1 = none := by
      cases hd : d.get? e.1 with
      | none => rfl
      | some a =>
        rw [List.map_append, List.nodup_append] at h
        have hmem := List.mem_map_of_mem (f := Prod.fst) (get?_eq_some_iff.1 hd)
        exact absurd rfl (h.2.2 e.1 hmem e.1 List.mem_cons_self)
    have hentries := entries_insert_of_get?_none e.2 hnew
    rw [List.foldl_cons, ih (by rwa [hentries, List.append_assoc]), hentries, List.append_assoc]
    rfl

/-- A list that has each key once gives its entries, in order. -/
theorem entries_ofList {es : List (κ × α)} (h : (es.map Prod.fst).Nodup) :
    (ofList es).entries = es :=
  foldl_insert_entries (d := empty) h

/-- The keys are those that have an answer. -/
theorem mem_keys {d : Dict κ α} {k : κ} : k ∈ d.keys ↔ ∃ a, d.get? k = some a :=
  mem_map_fst_iff k d.entries

end Lookup

end Dict

end Workflow
