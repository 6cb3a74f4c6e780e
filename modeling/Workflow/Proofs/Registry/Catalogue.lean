import Mathlib.Data.List.Induction
import Mathlib.Logic.Function.Basic
import Workflow.Proofs.Failure.Sequences
import Workflow.Proofs.Registry.Versions

/-!
# The registry as a catalogue

A registry keeps a shelf for each id. What it answers is told by a flat table.

**The catalogue** (`Catalogue`) has one definition for an id and a version. Registering a valid
definition writes it there, and unregistering strikes it out. All versions are whole numbers.

**Arrivals** (`Registry.Arrived`). The change that brought an id in: before it no version of the id
was there, and since then there always was one.

Main result: `registry_catalogued`. Whatever was registered, replaced, refused and removed, all
questions are answered as the catalogue says, and ids are listed in the order of their arrivals. The
proof carries along that each shelf has the row of its id (`Filed`), and is never empty.
-/

namespace Workflow

/-- A change of a registry. -/
inductive Registry.Change where
  | register (d : Definition)
  | registerDocument (doc : Value) (hs : Handlers)
  | unregister (name version : Value)

/-- Definitions by id and version, in one flat table. -/
abbrev Catalogue := Key × Int → Option Definition

namespace Catalogue

/-- Writes a valid definition under its id and version. -/
def enter (c : Catalogue) (d : Definition) : Catalogue :=
  match d.check, d.id.key?, d.version with
  | .ok (), some name, .int v => Function.update c (name, v) (some d)
  | _, _, _ => c

/-- Strikes out one version of an id, or with null all of them. -/
def strike (c : Catalogue) (name : Key) : Value → Catalogue
  | .null => fun place => if place.1 = name then none else c place
  | .int v => Function.update c (name, v) none
  | _ => c

def apply (c : Catalogue) : Registry.Change → Catalogue
  | .register d => c.enter d
  | .registerDocument doc hs =>
    match compileDocument doc hs with
    | .ok d => c.enter d
    | .error _ => c
  | .unregister name version =>
    match name.key? with
    | some name => c.strike name version
    | none => c

/-- The definitions of an id by version. -/
def row (c : Catalogue) (name : Key) (v : Int) : Option Definition := c (name, v)

/-- Some version of the id is there. -/
def Lists (c : Catalogue) (name : Key) : Prop := ∃ v d, c (name, v) = some d

/-- The versions of an id, strictly ascending. -/
structure Ascending (c : Catalogue) (name : Key) (vs : List Int) : Prop where
  sorted : vs.Pairwise (· < ·)
  mem : ∀ v, v ∈ vs ↔ ∃ d, c (name, v) = some d

/-- The definition has the greatest version of an id. -/
def IsLatest (c : Catalogue) (name : Key) (d : Definition) : Prop :=
  ∃ v, c (name, v) = some d ∧ ∀ w d', c (name, w) = some d' → w ≤ v

end Catalogue

namespace Registry

/-- The versions that a change speaks of are whole numbers. -/
def Change.Numbered : Change → Prop
  | .register d => ∃ v, d.version = .int v
  | .registerDocument doc hs => ∀ d, compileDocument doc hs = .ok d → ∃ v, d.version = .int v
  | .unregister _ version => version = .null ∨ ∃ v, version = .int v

/-- The registry after a change, refused or not. -/
def apply (r : Registry) : Change → Registry
  | .register d => (r.register d).2
  | .registerDocument doc hs => (r.registerDocument doc hs).2
  | .unregister name version => (r.unregister name version).2

/-- The registry after changes, from an empty one. -/
def after (xs : List Change) : Registry := xs.foldl apply {}

/-- What the changes leave in the catalogue. -/
def catalogue (xs : List Change) : Catalogue := xs.foldl Catalogue.apply fun _ => none

/-- The change that comes after the first `n` has brought in an id, which has been there since. -/
structure Arrived (xs : List Change) (name : Key) (n : Nat) : Prop where
  lt : n < xs.length
  absent : ¬ (catalogue (xs.take n)).Lists name
  since : ∀ m, n < m → m ≤ xs.length → (catalogue (xs.take m)).Lists name

/-- One id came in before another. -/
def Earlier (xs : List Change) (name name' : Key) : Prop :=
  ∃ m n, m < n ∧ Arrived xs name m ∧ Arrived xs name' n

/-- The questions to a registry are answered by a catalogue; ids are listed in the given order. -/
structure Answers (c : Catalogue) (listing : List Key) (r : Registry) : Prop where
  /-- A definition is registered exactly if it is valid and its id can be a key. -/
  accepts : ∀ d : Definition, (∃ v, d.version = .int v) →
    ((r.register d).1 = .ok () ↔ d.check = .ok () ∧ ∃ name, d.id.key? = some name)
  found : ∀ id name v d, id.key? = some name → c (name, v) = some d → r.find id (.int v) = .ok d
  unfound : ∀ id name v, id.key? = some name → c.Lists name → c (name, v) = none →
    r.find id (.int v) = .error (.workflowNotFound id (.int v))
  latest : ∀ id name, id.key? = some name → c.Lists name →
    ∃ d, c.IsLatest name d ∧ r.find id .null = .ok d
  /-- Of an id that is not there no version is found. -/
  unknown : ∀ id name version, id.key? = some name → ¬ c.Lists name →
    r.find id version = .error (.workflowNotFound id .null)
  has : ∀ id name version, id.key? = some name → (version = .null ∨ ∃ v, version = .int v) →
    r.has id version = .ok (r.find id version).isOk
  versions : ∀ id name, id.key? = some name → c.Lists name →
    ∃ vs, c.Ascending name vs ∧ r.versions id = .ok (vs.map .int)
  noVersions : ∀ id name, id.key? = some name → ¬ c.Lists name →
    r.versions id = .error (.workflowNotFound id .null)
  mem_listing : ∀ name, name ∈ listing ↔ c.Lists name
  listLatest : ∃ ds, r.listLatest = .ok ds ∧ List.Forall₂ (fun name d => c.IsLatest name d ∧
    ∀ id : Value, id.key? = some name → r.find id .null = .ok d) listing ds
  listAll : ∃ dss, r.listAll = .ok dss.flatten ∧ List.Forall₂ (fun name ds =>
    ∃ vs, c.Ascending name vs ∧ vs.map (fun v => c (name, v)) = ds.map some) listing dss

variable {r : Registry} {c : Catalogue} {d : Definition} {id version : Value} {name : Key} {v : Int}
  {xs : List Change} {x : Change}

end Registry

/-! ## Rows -/

namespace Catalogue

variable {c : Catalogue} {name name' : Key}

theorem row_update_self (c : Catalogue) (name : Key) (v : Int) (d : Option Definition) :
    row (Function.update c (name, v) d) name = Function.update (c.row name) v d := by
  funext w
  simp [row, Function.update_apply]

theorem row_update_of_ne (h : name' ≠ name) (c : Catalogue) (v : Int) (d : Option Definition) :
    row (Function.update c (name, v) d) name' = c.row name' := by
  funext w
  simp [row, h]

theorem row_strike_of_ne (h : name' ≠ name) (c : Catalogue) (version : Value) :
    (c.strike name version).row name' = c.row name' := by
  unfold strike
  split
  · funext w
    simp [row, h]
  · exact row_update_of_ne h c _ none
  · rfl

/-- What is not in a row cannot be struck out. -/
theorem row_strike_eq_none (h : ∀ v, c.row name v = none) (version : Value) :
    ∀ v, (c.strike name version).row name v = none := by
  intro w
  unfold strike
  split
  · simp [row]
  · rw [row_update_self, Function.update_apply]
    split
    · rfl
    · exact h w
  · exact h w

end Catalogue

namespace Registry

variable {r r' : Registry} {c c' : Catalogue} {d : Definition} {id version : Value}
  {name : Key} {v : Int} {xs : List Change} {x : Change} {row : Int → Option Definition}
  {shelf? : Option Shelf}

/-- What stands on the shelf of an id is its row of the catalogue; a row without a definition has no
shelf. -/
inductive Filed (row : Int → Option Definition) : Option Shelf → Prop
  | absent : (∀ v, row v = none) → Filed row none
  | shelved {shelf : Shelf} {numbered : Dict Int Definition} : Numbers numbered shelf →
      numbered.entries ≠ [] → (∀ v, numbered.get? v = row v) → Filed row (some shelf)

/-- All shelves are those of the catalogue. -/
def Files (r : Registry) (c : Catalogue) : Prop :=
  ∀ name, Filed (c.row name) (r.shelves.get? name)

theorem entries_insert_ne_nil (numbered : Dict Int Definition) (v : Int) (d : Definition) :
    (numbered.insert v d).entries ≠ [] := by
  have hv : (numbered.insert v d).get? v = some d := by rw [Dict.get?_insert, if_pos rfl]
  exact List.ne_nil_of_mem (Dict.get?_eq_some_iff.1 hv)

theorem Filed.shelve (h : Filed row shelf?) (hd : d.version = .int v) :
    Filed (Function.update row v (some d))
      (some (Registry.shelve (shelf?.getD {}) (.whole v) d)) := by
  have hanswers : ∀ numbered : Dict Int Definition, (∀ w, numbered.get? w = row w) →
      ∀ w, (numbered.insert v d).get? w = Function.update row v (some d) w := by
    intro numbered hrow w
    rw [Dict.get?_insert, Function.update_apply, hrow]
    simp only [eq_comm]
  cases h with
  | absent hrow =>
    exact .shelved (Numbers.empty.shelve hd) (entries_insert_ne_nil _ v d)
      (hanswers {} fun w => (hrow w).symm)
  | shelved hnumbers _ hrow =>
    exact .shelved (hnumbers.shelve hd) (entries_insert_ne_nil _ v d) (hanswers _ hrow)

/-- A shelf goes with its last version. -/
theorem Filed.erase {shelf : Shelf} (h : Filed row (some shelf)) (v : Int) :
    Filed (Function.update row v none)
      (if (shelf.erase (.whole v)).isEmpty then none else some (shelf.erase (.whole v))) := by
  cases h with
  | @shelved _ numbered hnumbers _ hrow =>
    have hanswers : ∀ w, (numbered.erase v).get? w = Function.update row v none w := by
      intro w
      rw [Dict.get?_erase, Function.update_apply, hrow]
      simp only [eq_comm]
    have hempty : (shelf.erase (.whole v)).isEmpty = (numbered.erase v).entries.isEmpty := by
      unfold Dict.isEmpty
      rw [hnumbers.erase v]
      exact List.isEmpty_map
    rw [hempty]
    split
    next hnil =>
      refine .absent fun w => ?_
      rw [← hanswers w]
      unfold Dict.get?
      rw [List.isEmpty_iff.1 hnil]
      rfl
    next hne =>
      exact .shelved (hnumbers.erase v) (fun hnil => hne (List.isEmpty_iff.2 hnil)) hanswers

/-- An id has a shelf exactly if some version of it is there. -/
theorem Files.mem_keys (h : Files r c) : name ∈ r.shelves.keys ↔ c.Lists name := by
  have hfiled := h name
  rw [Dict.mem_keys]
  generalize r.shelves.get? name = shelf? at hfiled
  cases hfiled with
  | absent hrow =>
    refine ⟨nofun, fun ⟨v, d, hd⟩ => ?_⟩
    cases (hrow v).symm.trans hd
  | @shelved shelf numbered _ hne hrow =>
    refine ⟨fun _ => ?_, fun _ => ⟨shelf, rfl⟩⟩
    obtain ⟨n, hn⟩ := List.exists_mem_of_ne_nil _ hne
    exact ⟨n.1, n.2, (hrow n.1).symm.trans (Dict.get?_eq_some_iff.2 hn)⟩

/-! ## One change -/

/-- A change of one shelf and its row leaves all others as they are. -/
theorem Files.change (h : Files r c) (name : Key)
    (hself : Filed (c'.row name) (r'.shelves.get? name))
    (hothers : ∀ name', name' ≠ name → c'.row name' = c.row name' ∧
      r'.shelves.get? name' = r.shelves.get? name') : Files r' c' := by
  intro name'
  by_cases hname : name' = name
  · subst hname
    exact hself
  · rw [(hothers name' hname).1, (hothers name' hname).2]
    exact h name'

theorem keyOf_of_key? (h : id.key? = some name) : keyOf id = .ok name := by
  unfold keyOf
  rw [h]

/-- The definition is valid, and this is the place for it. -/
structure Placed (d : Definition) (name : Key) (v : Int) : Prop where
  valid : d.check = .ok ()
  id : d.id.key? = some name
  version : d.version = .int v

theorem Placed.enter (h : Placed d name v) (c : Catalogue) :
    c.enter d = Function.update c (name, v) (some d) := by
  unfold Catalogue.enter
  rw [h.valid, h.id, h.version]

theorem Placed.register (h : Placed d name v) (r : Registry) : r.register d =
    (.ok (), ⟨r.shelves.insert name (shelve ((r.shelves.get? name).getD {}) (.whole v) d)⟩) := by
  unfold Registry.register keyOf
  rw [h.valid, h.id, h.version]
  rfl

/-- A definition without a place is refused, and nothing is written. -/
structure Refused (d : Definition) : Prop where
  why : ¬ (d.check = .ok () ∧ ∃ name, d.id.key? = some name)
  enter : ∀ c : Catalogue, c.enter d = c
  register : ∀ r : Registry, (r.register d).1 ≠ .ok () ∧ (r.register d).2 = r

theorem placed_or_refused (hd : ∃ v, d.version = .int v) :
    (∃ name v, Placed d name v) ∨ Refused d := by
  obtain ⟨v, hv⟩ := hd
  cases hcheck : d.check with
  | error f =>
    refine .inr ⟨by simp [hcheck], fun c => ?_, fun r => ?_⟩
    · unfold Catalogue.enter
      rw [hcheck]
    · unfold Registry.register
      rw [hcheck]
      exact ⟨nofun, rfl⟩
  | ok u =>
  cases hid : d.id.key? with
  | none =>
    refine .inr ⟨by simp [hid], fun c => ?_, fun r => ?_⟩
    · unfold Catalogue.enter
      rw [hcheck, hid]
    · unfold Registry.register keyOf
      rw [hcheck, hid]
      exact ⟨nofun, rfl⟩
  | some name => exact .inl ⟨name, v, hcheck, hid, hv⟩

theorem Files.enter (h : Files r c) (hd : ∃ v, d.version = .int v) :
    Files (r.register d).2 (c.enter d) := by
  rcases placed_or_refused hd with ⟨name, v, hplaced⟩ | hrefused
  · rw [hplaced.enter, hplaced.register]
    refine h.change name ?_ fun name' hname => ⟨Catalogue.row_update_of_ne hname c v _, ?_⟩
    · show Filed _ ((r.shelves.insert name _).get? name)
      rw [Dict.get?_insert, if_pos rfl, Catalogue.row_update_self]
      exact (h name).shelve hplaced.version
    · show (r.shelves.insert name _).get? name' = _
      rw [Dict.get?_insert, if_neg hname.symm]
  · rw [hrefused.enter, (hrefused.register r).2]
    exact h

/-- Without a shelf nothing is removed; otherwise the shelf is replaced by what is left of it, if
anything is. -/
theorem unregister_eq (hid : id.key? = some name) (hversion : version = .null ∨ version = .int v) :
    (r.unregister id version).2.shelves =
      match r.shelves.get? name with
      | none => r.shelves
      | some shelf =>
        if version = .null ∨ (shelf.erase (.whole v)).isEmpty then r.shelves.erase name
        else r.shelves.insert name (shelf.erase (.whole v)) := by
  unfold Registry.unregister
  rw [keyOf_of_key? hid]
  dsimp only
  cases r.shelves.get? name with
  | none => rfl
  | some shelf =>
    rcases hversion with rfl | rfl
    · rfl
    · have hkey : keyOf (.int v) = .ok (.whole v) := rfl
      simp only [reduceCtorEq, if_false, false_or, hkey]
      split <;> rfl

theorem Files.strike (h : Files r c) (hid : id.key? = some name)
    (hversion : version = .null ∨ ∃ v, version = .int v) :
    Files (r.unregister id version).2 (c.strike name version) := by
  obtain ⟨v, hv⟩ : ∃ v, version = .null ∨ version = .int v := by
    rcases hversion with hnull | ⟨v, hv⟩
    · exact ⟨0, .inl hnull⟩
    · exact ⟨v, .inr hv⟩
  have hfiled := h name
  have hshelves := unregister_eq (r := r) hid hv
  refine h.change name ?_ fun name' hname =>
    ⟨Catalogue.row_strike_of_ne hname c version, ?_⟩
  · rw [hshelves]
    cases hshelf : r.shelves.get? name with
    | none =>
      rw [hshelf] at hfiled
      cases hfiled with
      | absent hrow =>
        simp only [hshelf]
        exact .absent (Catalogue.row_strike_eq_none hrow version)
    | some shelf =>
      rw [hshelf] at hfiled
      rcases hv with rfl | rfl
      · simp only [true_or, if_true, Dict.get?_erase]
        exact .absent fun w => by simp [Catalogue.row, Catalogue.strike]
      · have herase := hfiled.erase v
        have hrow : (c.strike name (.int v)).row name = Function.update (c.row name) v none :=
          Catalogue.row_update_self c name v none
        rw [hrow]
        simp only [reduceCtorEq, false_or]
        split at herase <;> rename_i hempty
        · simpa only [if_pos hempty, Dict.get?_erase, if_true] using herase
        · simpa only [if_neg hempty, Dict.get?_insert, if_true] using herase
  · rw [hshelves]
    cases r.shelves.get? name with
    | none => rfl
    | some shelf =>
      dsimp only
      split
      · rw [Dict.get?_erase, if_neg hname.symm]
      · rw [Dict.get?_insert, if_neg hname.symm]

/-- Registering a document is registering what it compiles to. -/
theorem registerDocument_snd (r : Registry) (doc : Value) (hs : Handlers) :
    (r.registerDocument doc hs).2 =
      match compileDocument doc hs with
      | .ok d => (r.register d).2
      | .error _ => r := by
  unfold Registry.registerDocument
  cases compileDocument doc hs with
  | error f => rfl
  | ok d =>
    dsimp only
    split <;> rename_i heq <;> rw [heq]

/-- **A change goes through to the catalogue.** -/
theorem Files.apply (h : Files r c) (hx : x.Numbered) : Files (r.apply x) (c.apply x) := by
  cases x with
  | register d => exact h.enter hx
  | registerDocument doc hs =>
    simp only [Registry.apply, Catalogue.apply, registerDocument_snd]
    cases hd : compileDocument doc hs with
    | error f => exact h
    | ok d => exact h.enter (hx d hd)
  | unregister id version =>
    simp only [Registry.apply, Catalogue.apply]
    cases hid : id.key? with
    | none =>
      unfold Registry.unregister keyOf
      rw [hid]
      exact h
    | some name => exact h.strike hid hx

/-! ## The order of the ids -/

/-- Ids are left out, or a new one comes in at the end. -/
def Shifts (names names' : List Key) : Prop :=
  names'.Sublist names ∨ ∃ name, name ∉ names ∧ names' = names ++ [name]

theorem Shifts.refl (names : List Key) : Shifts names names := .inl (List.Sublist.refl _)

theorem shifts_insert (shelves : Dict Key Shelf) (name : Key) (shelf : Shelf) :
    Shifts shelves.keys (shelves.insert name shelf).keys := by
  rw [Dict.keys_insert]
  by_cases hname : name ∈ shelves.keys
  · rw [if_pos hname]
    exact .refl _
  · rw [if_neg hname]
    exact .inr ⟨name, hname, rfl⟩

theorem shifts_erase (shelves : Dict Key Shelf) (name : Key) :
    Shifts shelves.keys (shelves.erase name).keys :=
  .inl (List.filter_sublist.map Prod.fst)

theorem shifts_register (r : Registry) (d : Definition) :
    Shifts r.shelves.keys (r.register d).2.shelves.keys := by
  unfold Registry.register
  split
  · exact .refl _
  · exact .refl _
  · dsimp only
    split <;> exact shifts_insert r.shelves _ _

theorem shifts_unregister (r : Registry) (id version : Value) :
    Shifts r.shelves.keys (r.unregister id version).2.shelves.keys := by
  unfold Registry.unregister
  split
  · exact .refl _
  dsimp only
  split
  · exact .refl _
  split
  · exact shifts_erase r.shelves _
  split
  · exact .refl _
  split
  · exact shifts_erase r.shelves _
  · exact shifts_insert r.shelves _ _

theorem shifts_apply (r : Registry) (x : Change) :
    Shifts r.shelves.keys (r.apply x).shelves.keys := by
  cases x with
  | register d => exact shifts_register r d
  | registerDocument doc hs =>
    simp only [Registry.apply, registerDocument_snd]
    split
    · exact shifts_register r _
    · exact .refl _
  | unregister id version => exact shifts_unregister r id version

theorem catalogue_concat (xs : List Change) (x : Change) :
    catalogue (xs ++ [x]) = (catalogue xs).apply x :=
  List.foldl_concat ..

theorem after_concat (xs : List Change) (x : Change) : after (xs ++ [x]) = (after xs).apply x :=
  List.foldl_concat ..

/-- An id that is there after one more change arrived when it did. -/
theorem Arrived.concat {n : Nat} (h : Arrived xs name n)
    (hlists : (catalogue (xs ++ [x])).Lists name) : Arrived (xs ++ [x]) name n := by
  have hlt := h.lt
  refine ⟨by simp; omega, ?_, fun m hm hle => ?_⟩
  · rw [List.take_append_of_le_length (by omega)]
    exact h.absent
  · rcases Nat.lt_or_ge xs.length m with hlast | hearlier
    · rw [List.take_of_length_le (by simp; omega)]
      exact hlists
    · rw [List.take_append_of_le_length hearlier]
      exact h.since m hm hearlier

/-- An id that was not there before the last change arrived with it. -/
theorem arrived_concat (habsent : ¬ (catalogue xs).Lists name)
    (hlists : (catalogue (xs ++ [x])).Lists name) : Arrived (xs ++ [x]) name xs.length := by
  refine ⟨by simp, ?_, fun m hm hle => ?_⟩
  · rwa [List.take_left]
  · rwa [List.take_of_length_le (by simp; omega)]

/-- Every id that is there has arrived. -/
theorem exists_arrived (h : (catalogue xs).Lists name) : ∃ n, Arrived xs name n := by
  induction xs using List.reverseRecOn with
  | nil =>
    obtain ⟨v, d, hd⟩ := h
    cases hd
  | append_singleton xs x ih =>
    by_cases hbefore : (catalogue xs).Lists name
    · obtain ⟨n, hn⟩ := ih hbefore
      exact ⟨n, hn.concat h⟩
    · exact ⟨_, arrived_concat hbefore h⟩

/-- **The registry after changes holds what the catalogue says**, in the order of arrival. -/
theorem files_after (h : ∀ x ∈ xs, x.Numbered) :
    Files (after xs) (catalogue xs) ∧ (after xs).shelves.keys.Pairwise (Earlier xs) := by
  induction xs using List.reverseRecOn with
  | nil => exact ⟨fun name => .absent fun v => rfl, .nil⟩
  | append_singleton xs x ih =>
    rw [List.forall_mem_append, List.forall_mem_singleton] at h
    obtain ⟨hfiles, hordered⟩ := ih h.1
    have hfiles' : Files (after (xs ++ [x])) (catalogue (xs ++ [x])) := by
      rw [after_concat, catalogue_concat]
      exact hfiles.apply h.2
    refine ⟨hfiles', ?_⟩
    have hlists : ∀ {name}, name ∈ (after (xs ++ [x])).shelves.keys →
        (catalogue (xs ++ [x])).Lists name := hfiles'.mem_keys.1
    have holds : ∀ {names : List Key}, (∀ name ∈ names, name ∈ (after (xs ++ [x])).shelves.keys) →
        names.Pairwise (Earlier xs) → names.Pairwise (Earlier (xs ++ [x])) := by
      intro names hnames hpairs
      refine hpairs.imp_of_mem fun {a b} ha hb ⟨m, n, hlt, hm, hn⟩ => ?_
      exact ⟨m, n, hlt, hm.concat (hlists (hnames a ha)), hn.concat (hlists (hnames b hb))⟩
    rcases shifts_apply (after xs) x with hkeys | ⟨name, hnew, hkeys⟩
    · rw [after_concat] at holds ⊢
      exact holds (fun _ hname => hname) (hordered.sublist hkeys)
    · rw [← after_concat] at hkeys
      rw [hkeys] at holds hlists ⊢
      have hname := arrived_concat (mt hfiles.mem_keys.2 hnew) (hlists (by simp))
      refine List.pairwise_append.2 ⟨holds (by simp_all) hordered, List.pairwise_singleton .., ?_⟩
      intro a ha b hb
      obtain rfl := List.mem_singleton.1 hb
      obtain ⟨m, hm⟩ := exists_arrived (hfiles.mem_keys.1 ha)
      exact ⟨m, _, hm.lt, hm.concat (hlists (List.mem_append_left _ ha)), hname⟩

/-! ## Answers -/

theorem shelf?_of_key? (h : id.key? = some name) (r : Registry) :
    r.shelf? id = .ok (r.shelves.get? name) := by
  unfold Registry.shelf?
  rw [keyOf_of_key? h]
  rfl

section OneShelf

variable {shelf : Shelf} {numbered : Dict Int Definition}

theorem find_of_none (hid : id.key? = some name) (h : r.shelves.get? name = none)
    (version : Value) : r.find id version = .error (.workflowNotFound id .null) := by
  unfold Registry.find
  rw [shelf?_of_key? hid, h]
  rfl

theorem find_null (hid : id.key? = some name) (h : r.shelves.get? name = some shelf)
    (hne : shelf.isEmpty = false) : r.find id .null = Registry.latest shelf := by
  unfold Registry.find
  rw [shelf?_of_key? hid, h]
  simp [bind, Except.bind, hne]

theorem find_int (hid : id.key? = some name) (h : r.shelves.get? name = some shelf)
    (hne : shelf.isEmpty = false) (hnumbers : Numbers numbered shelf) (v : Int) :
    r.find id (.int v) =
      match numbered.get? v with
      | some d => .ok d
      | none => .error (.workflowNotFound id (.int v)) := by
  have hkey : keyOf (.int v) = .ok (.whole v) := rfl
  unfold Registry.find
  rw [shelf?_of_key? hid, h]
  simp only [bind, Except.bind, hne, Bool.false_eq_true, if_false, reduceCtorEq, hkey,
    hnumbers.get?]
  cases numbered.get? v <;> rfl

theorem has_of_none (hid : id.key? = some name) (h : r.shelves.get? name = none)
    (version : Value) : r.has id version = .ok false := by
  unfold Registry.has
  rw [shelf?_of_key? hid, h]
  rfl

theorem has_null (hid : id.key? = some name) (h : r.shelves.get? name = some shelf) :
    r.has id .null = .ok true := by
  unfold Registry.has
  rw [shelf?_of_key? hid, h]
  rfl

theorem has_int (hid : id.key? = some name) (h : r.shelves.get? name = some shelf)
    (hnumbers : Numbers numbered shelf) (v : Int) :
    r.has id (.int v) = .ok (numbered.get? v).isSome := by
  have hkey : keyOf (.int v) = .ok (.whole v) := rfl
  unfold Registry.has
  rw [shelf?_of_key? hid, h]
  simp only [bind, Except.bind, pure, Except.pure, reduceCtorEq, if_false, hkey, Dict.contains,
    hnumbers.get?]
  cases numbered.get? v <;> rfl

theorem versions_of_none (hid : id.key? = some name) (h : r.shelves.get? name = none) :
    r.versions id = .error (.workflowNotFound id .null) := by
  unfold Registry.versions
  rw [shelf?_of_key? hid, h]
  rfl

/-- A numbered shelf in ascending order gives the versions of its row, and their definitions. -/
theorem Numbers.ascending (hnumbers : Numbers numbered shelf)
    (hrow : ∀ v, numbered.get? v = c.row name v) :
    ∃ ms : List (Int × Definition), Registry.inOrder shelf.entries = .ok (ms.map volume) ∧
      c.Ascending name (ms.map Prod.fst) ∧
      (ms.map Prod.fst).map (fun v => c (name, v)) = (ms.map Prod.snd).map some := by
  obtain ⟨ms, horder, hperm, hsorted⟩ := hnumbers.inOrder
  have hmem : ∀ m : Int × Definition, m ∈ ms ↔ c (name, m.1) = some m.2 := by
    intro m
    rw [hperm.mem_iff, ← Dict.get?_eq_some_iff, hrow]
    rfl
  refine ⟨ms, horder, ⟨hsorted, fun v => ?_⟩, ?_⟩
  · constructor
    · intro hv
      obtain ⟨m, hm, rfl⟩ := List.mem_map.1 hv
      exact ⟨m.2, (hmem m).1 hm⟩
    · rintro ⟨d, hd⟩
      exact List.mem_map.2 ⟨(v, d), (hmem _).2 hd, rfl⟩
  · rw [List.map_map, List.map_map]
    exact List.map_congr_left fun m hm => (hmem m).1 hm

theorem Numbers.isLatest (hnumbers : Numbers numbered shelf) (hne : numbered.entries ≠ [])
    (hrow : ∀ v, numbered.get? v = c.row name v) :
    ∃ d, c.IsLatest name d ∧ Registry.latest shelf = .ok d := by
  obtain ⟨m, hm, hlatest, hgreatest⟩ := hnumbers.latest hne
  have hmem : ∀ v d, (v, d) ∈ numbered.entries ↔ c (name, v) = some d := by
    intro v d
    rw [← Dict.get?_eq_some_iff, hrow]
    rfl
  exact ⟨m.2, ⟨m.1, (hmem _ _).1 hm, fun w d' hd' => hgreatest _ ((hmem w d').2 hd')⟩, hlatest⟩

end OneShelf

/-- An id that is listed has a shelf, which holds its row. -/
theorem Files.shelf_of_lists (h : Files r c) (hlists : c.Lists name) :
    ∃ shelf numbered, r.shelves.get? name = some shelf ∧ Numbers numbered shelf ∧
      numbered.entries ≠ [] ∧ ∀ v, numbered.get? v = c.row name v := by
  have hfiled := h name
  obtain ⟨shelf, hshelf⟩ := Dict.mem_keys.1 (h.mem_keys.2 hlists)
  rw [hshelf] at hfiled
  cases hfiled with
  | shelved hnumbers hne hrow => exact ⟨shelf, _, hshelf, hnumbers, hne, hrow⟩

theorem Files.get?_of_not_lists (h : Files r c) (hlists : ¬ c.Lists name) :
    r.shelves.get? name = none := by
  cases hshelf : r.shelves.get? name with
  | none => rfl
  | some shelf => exact absurd (h.mem_keys.1 (Dict.mem_keys.2 ⟨shelf, hshelf⟩)) hlists

/-- The entries of the table of shelves, each with the row that it holds. -/
theorem Files.entry (h : Files r c) {e : Key × Shelf} (he : e ∈ r.shelves.entries) :
    ∃ numbered, r.shelves.get? e.1 = some e.2 ∧ Numbers numbered e.2 ∧ numbered.entries ≠ [] ∧
      ∀ v, numbered.get? v = c.row e.1 v := by
  have hshelf := Dict.get?_eq_some_iff.2 he
  have hfiled := h e.1
  rw [hshelf] at hfiled
  cases hfiled with
  | shelved hnumbers hne hrow => exact ⟨_, hshelf, hnumbers, hne, hrow⟩

theorem Files.has (h : Files r c) (hid : id.key? = some name)
    (hversion : version = .null ∨ ∃ v, version = .int v) :
    r.has id version = .ok (r.find id version).isOk := by
  by_cases hlists : c.Lists name
  · obtain ⟨shelf, numbered, hshelf, hnumbers, hne, hrow⟩ := h.shelf_of_lists hlists
    have hshelf' := hnumbers.isEmpty_eq_false hne
    rcases hversion with rfl | ⟨v, rfl⟩
    · obtain ⟨d, -, hd⟩ := hnumbers.isLatest hne hrow
      rw [has_null hid hshelf, find_null hid hshelf hshelf', hd]
      rfl
    · rw [has_int hid hshelf hnumbers, find_int hid hshelf hshelf' hnumbers]
      cases numbered.get? v <;> rfl
  · have hnone := h.get?_of_not_lists hlists
    rw [has_of_none hid hnone, find_of_none hid hnone]
    rfl

theorem Files.listLatest (h : Files r c) :
    ∃ ds, r.listLatest = .ok ds ∧ List.Forall₂ (fun name d => c.IsLatest name d ∧
      ∀ id : Value, id.key? = some name → r.find id .null = .ok d) r.shelves.keys ds := by
  obtain ⟨ds, hds⟩ := forall₂_of_exists r.shelves.entries
    (R := fun e d => Registry.latest e.2 = .ok d ∧ c.IsLatest e.1 d ∧
      ∀ id : Value, id.key? = some e.1 → r.find id .null = .ok d) fun e he => by
    obtain ⟨numbered, hshelf, hnumbers, hne, hrow⟩ := h.entry he
    obtain ⟨d, hlatest, hd⟩ := hnumbers.isLatest hne hrow
    refine ⟨d, hd, hlatest, fun id hid => ?_⟩
    rw [find_null hid hshelf (hnumbers.isEmpty_eq_false hne), hd]
  refine ⟨ds, mapM_of_forall₂ ?_, ?_⟩
  · exact List.forall₂_map_left_iff.2 (hds.imp fun _ _ hed => hed.1)
  · exact List.forall₂_map_left_iff.2 (hds.imp fun _ _ hed => hed.2)

theorem Files.listAll (h : Files r c) :
    ∃ dss, r.listAll = .ok dss.flatten ∧ List.Forall₂ (fun name ds => ∃ vs,
      c.Ascending name vs ∧ vs.map (fun v => c (name, v)) = ds.map some) r.shelves.keys dss := by
  obtain ⟨mss, hmss⟩ := forall₂_of_exists r.shelves.entries
    (R := fun e (ms : List (Int × Definition)) => Registry.inOrder e.2.entries = .ok (ms.map volume) ∧
      c.Ascending e.1 (ms.map Prod.fst) ∧
      (ms.map Prod.fst).map (fun v => c (e.1, v)) = (ms.map Prod.snd).map some) fun e he => by
    obtain ⟨numbered, -, hnumbers, -, hrow⟩ := h.entry he
    exact hnumbers.ascending hrow
  have horder : r.shelves.values.mapM (fun shelf => Registry.inOrder shelf.entries) =
      .ok (mss.map fun ms => ms.map volume) := by
    refine mapM_of_forall₂ (List.forall₂_map_left_iff.2 (List.forall₂_map_right_iff.2 ?_))
    exact hmss.imp fun _ _ hems => hems.1
  have hdefinitions : ∀ ms : List (Int × Definition),
      (ms.map volume).map (·.2.definition) = ms.map Prod.snd := fun ms => List.map_map
  refine ⟨mss.map fun ms => ms.map Prod.snd, ?_, ?_⟩
  · unfold Registry.listAll
    rw [horder]
    simp only [bind, Except.bind, pure, Except.pure, List.map_flatten, List.map_map,
      Function.comp_def, hdefinitions]
  · refine List.forall₂_map_left_iff.2 (List.forall₂_map_right_iff.2 ?_)
    exact hmss.imp fun _ _ hems => ⟨_, hems.2⟩

/-- **A registry that holds what a catalogue says answers by it.** -/
theorem Files.answers (h : Files r c) : Answers c r.shelves.keys r where
  accepts d hd := by
    rcases placed_or_refused hd with ⟨name, v, hplaced⟩ | hrefused
    · rw [hplaced.register]
      exact ⟨fun _ => ⟨hplaced.valid, name, hplaced.id⟩, fun _ => rfl⟩
    · exact ⟨fun hok => absurd hok (hrefused.register r).1, fun hvalid => absurd hvalid hrefused.why⟩
  found id name v d hid hd := by
    obtain ⟨shelf, numbered, hshelf, hnumbers, hne, hrow⟩ := h.shelf_of_lists ⟨v, d, hd⟩
    have hv : numbered.get? v = some d := (hrow v).trans hd
    rw [find_int hid hshelf (hnumbers.isEmpty_eq_false hne) hnumbers, hv]
  unfound id name v hid hlists hnone := by
    obtain ⟨shelf, numbered, hshelf, hnumbers, hne, hrow⟩ := h.shelf_of_lists hlists
    have hv : numbered.get? v = none := (hrow v).trans hnone
    rw [find_int hid hshelf (hnumbers.isEmpty_eq_false hne) hnumbers, hv]
  latest id name hid hlists := by
    obtain ⟨shelf, numbered, hshelf, hnumbers, hne, hrow⟩ := h.shelf_of_lists hlists
    obtain ⟨d, hlatest, hd⟩ := hnumbers.isLatest hne hrow
    exact ⟨d, hlatest, (find_null hid hshelf (hnumbers.isEmpty_eq_false hne)).trans hd⟩
  unknown id name version hid hlists := find_of_none hid (h.get?_of_not_lists hlists) version
  has id name version hid hversion := h.has hid hversion
  versions id name hid hlists := by
    obtain ⟨shelf, numbered, hshelf, hnumbers, hne, hrow⟩ := h.shelf_of_lists hlists
    obtain ⟨ms, horder, hascending, -⟩ := hnumbers.ascending hrow
    refine ⟨_, hascending, ?_⟩
    unfold Registry.versions
    rw [shelf?_of_key? hid, hshelf]
    simp only [bind, Except.bind, horder, pure, Except.pure, List.map_map]
    rfl
  noVersions id name hid hlists := versions_of_none hid (h.get?_of_not_lists hlists)
  mem_listing name := h.mem_keys
  listLatest := h.listLatest
  listAll := h.listAll

/-- **The registry answers as the catalogue says.** After any changes that speak of whole numbers as
versions, the questions are answered by the definition that was registered last under an id and a
version and has not been removed since; and the ids are listed in the order in which they came
in. -/
theorem registry_catalogued (xs : List Change) (h : ∀ x ∈ xs, x.Numbered) :
    ∃ listing : List Key, listing.Nodup ∧ listing.Pairwise (Earlier xs) ∧
      Answers (catalogue xs) listing (after xs) := by
  obtain ⟨hfiles, hordered⟩ := files_after h
  exact ⟨(after xs).shelves.keys, (after xs).shelves.nodup, hordered, hfiles.answers⟩

/-! ## Two forms and their versions -/

/-- A form of one page, in a version. -/
def form (name : String) (v : Int) : Definition where
  id := .text name
  initial := "page"
  states := Dict.ofList [("page", { id := "page" })]
  version := .int v

/-- A form that begins on a page that it does not have. -/
def tornForm : Definition := { form "order" 11 with initial := "cover" }

/-- The order form stays, while its versions change; the invoice is removed and comes again. -/
def formHistory : List Change :=
  [.register (form "invoice" 1), .register (form "order" 2), .register (form "order" 10),
    .register tornForm, .unregister (.text "invoice") .null, .unregister (.text "order") (.int 2),
    .register (form "order" 1), .register (form "invoice" 3)]

theorem registry_catalogued_forms :
    (∀ x ∈ formHistory, x.Numbered) ∧
      (∃ listing : List Key, listing.Nodup ∧ listing.Pairwise (Earlier formHistory) ∧
        Answers (catalogue formHistory) listing (after formHistory)) ∧
      (after formHistory).shelves.keys = [.text "order", .text "invoice"] ∧
      (after formHistory).versions (.text "order") = .ok [.int 1, .int 10] ∧
      (after formHistory).has (.text "order") (.int 11) = .ok false := by
  have hnumbered : ∀ x ∈ formHistory, x.Numbered := by
    unfold formHistory
    simp only [List.forall_mem_cons]
    exact ⟨⟨1, rfl⟩, ⟨2, rfl⟩, ⟨10, rfl⟩, ⟨11, rfl⟩, .inl rfl, .inr ⟨2, rfl⟩, ⟨1, rfl⟩, ⟨3, rfl⟩,
      nofun⟩
  exact ⟨hnumbered, registry_catalogued formHistory hnumbered, rfl, rfl, rfl⟩

end Registry

end Workflow
