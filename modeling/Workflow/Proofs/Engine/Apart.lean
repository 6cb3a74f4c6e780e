import Workflow.Proofs.Engine.Ledger
import Workflow.Proofs.Run.Alike

/-!
# Instances apart

Calls on many instances are under way at the same time. Beside them, for each instance, its own
calls are made in a world of their own: one after the other, in the order in which they were served
(`Engine.alone`).

**Served calls** (`Engine.servedOrder`). A call is served by the entry that tells its outcome. A
start that finds its id reserved by another one, which is not stored yet, is turned away, and is not
served.

**Places** (`Place`). How far a call has come, and how far the same call has come alone. While it
works, the environment alone is changed along with the common one.

**Apart** (`Engine.Apart`). For each instance, what is stored is alike in the common world and in
its own, and so are its contexts while nobody works on it. No arena belongs to two instances.
-/

namespace Workflow

open Activity Environment

/-! ## The order of calls -/

/-- A call on an instance is served by such a deed. -/
def Deed.serves : Deed → Bool
  | .missed _ | .refused true | .started _ | .unstarted _ | .dispatched _ _ _ | .asked _ _ _
  | .recontexted _ _ | .gaveUp _ _ => true
  | .refused false | .told _ _ | .subscribed _ | .unsubscribed _ => false

/-- The call on an instance that is served by an entry. -/
def Entry.served? (id : String) (x : Entry) : Option Nat :=
  if x.id = some id ∧ x.deed.serves then some x.caller else none

namespace Engine

/-- The instance that a job is about: the one that it starts under a given id, or makes a request
on. -/
def Job.subject? : Job → Option String
  | .start bid _ false => bid.given
  | .request id _ => some id
  | _ => none

/-- The calls on an instance, in the order in which they were served. -/
def servedOrder (id : String) (log : List Entry) : List Nat := log.filterMap (Entry.served? id)

/-- The calls on one instance one after the other, in the order in which they were served: their
answers, and the world afterwards. -/
def alone (e : Engine) (w : EngineState) (jobs : List Job) (id : String) (log : List Entry) :
    List (Nat × Except Failure Result) × EngineState :=
  serve (jobs.map (Job.call e)) (servedOrder id log) w

section Order

variable {e : Engine} {w : EngineState} {jobs : List Job} {id : String} {log : List Entry}
  {x : Entry} {n : Nat} {j : Job}

theorem servedOrder_concat_none (h : x.served? id = none) :
    servedOrder id (log ++ [x]) = servedOrder id log := by
  simp [servedOrder, h]

theorem servedOrder_concat_some (h : x.served? id = some n) :
    servedOrder id (log ++ [x]) = servedOrder id log ++ [n] := by
  simp [servedOrder, h]

theorem alone_concat_none (h : x.served? id = none) :
    e.alone w jobs id (log ++ [x]) = e.alone w jobs id log := by
  unfold alone
  rw [servedOrder_concat_none h]

/-- One more call is served. -/
theorem alone_concat_some (h : x.served? id = some n) (hj : jobs[n]? = some j) :
    e.alone w jobs id (log ++ [x]) =
      ((e.alone w jobs id log).1 ++ [(n, ((j.call e).run (e.alone w jobs id log).2).answer)],
        ((j.call e).run (e.alone w jobs id log).2).world) := by
  have hcall : (jobs.map (Job.call e))[n]? = some (j.call e) := by
    rw [List.getElem?_map, hj]
    rfl
  unfold alone
  rw [servedOrder_concat_some h, serve_append, serve_singleton hcall]

theorem served?_of_ne {id' : String} (hid : x.id = some id) (hne : id' ≠ id) :
    x.served? id' = none := by
  unfold Entry.served?
  rw [if_neg]
  rintro ⟨h, -⟩
  exact hne (Option.some.inj (h.symm.trans hid))

theorem served?_self {y : Deed} (hy : y.serves) : (⟨n, some id, y⟩ : Entry).served? id = some n :=
  if_pos ⟨rfl, hy⟩

/-- By an entry that serves no call, no world is changed. -/
theorem alone_note (h : ∀ id, x.served? id = none) :
    (fun id => (e.alone w jobs id (log ++ [x])).2) = fun id => (e.alone w jobs id log).2 :=
  funext fun id => by rw [alone_concat_none (h id)]

/-- By an entry that serves a call, the world of the instance is changed. -/
theorem alone_serve (hid : x.id = some id) (hx : x.served? id = some n) (hj : jobs[n]? = some j) :
    (fun id' => (e.alone w jobs id' (log ++ [x])).2) =
      Function.update (fun id' => (e.alone w jobs id' log).2) id
        ((j.call e).run (e.alone w jobs id log).2).world := by
  funext id'
  by_cases hne : id' = id
  · subst hne
    rw [Function.update_self, alone_concat_some hx hj]
  · rw [Function.update_of_ne hne, alone_concat_none (served?_of_ne hid hne)]

end Order

/-! ## Places -/

/-- How far a call has come. -/
inductive Place where
  | outside
  /-- It knows the definition, and is to get the lock. -/
  | before (id : String) (d : Definition)
  /-- It works on an instance, or starts one. Alone it has begun in the world `base`, and has come
  to the environment `env`; arenas stand for each other by `links`. -/
  | inside (id : String) (starts : Bool) (links : Nat → Nat → Prop) (base : EngineState)
      (env : Environment)
  /-- It was served, when arenas stood for each other by `links`; alone, this is its answer. -/
  | served (id : String) (links : Nat → Nat → Prop) (answer : Except Failure Result)
  | turnedAway (id : String)

namespace Place

/-- The instance that the call works on. -/
def inside? : Place → Option String
  | .inside id _ _ _ _ => some id
  | .outside | .before _ _ | .served _ _ _ | .turnedAway _ => none

/-- The instance on which the call was served. -/
def served? : Place → Option String
  | .served id _ _ => some id
  | .outside | .before _ _ | .inside _ _ _ _ _ | .turnedAway _ => none

/-- The lock that the call keeps. Starts do without one. -/
def lock : Place → Option String
  | .inside id starts _ _ _ => if starts then none else some id
  | .outside | .before _ _ | .served _ _ _ | .turnedAway _ => none

end Place

/-! ## The common world and that of one instance -/

/-- What is stored under an id is alike in both worlds. -/
structure Matches (links : Nat → Nat → Prop) (id : String) (w b : EngineState) : Prop where
  registry : b.registry = w.registry
  observers : b.observers = w.observers
  definitions : b.definitions.get? id = w.definitions.get? id
  instances : Option.Rel (Instance.Alike links) (w.instances.get? id) (b.instances.get? id)
  tables : (w.definitions.get? id).isSome = (w.instances.get? id).isSome
  reserved : (w.instances.get? id).isSome → id ∈ w.reserved
  /-- Alone, no start is under way. -/
  settled : id ∈ b.reserved ↔ (b.instances.get? id).isSome

/-- Nothing is done but what the calls on an id may do with what is stored there. -/
structure Spares (id : String) (w w' : EngineState) : Prop where
  env : w'.env = w.env
  registry : w'.registry = w.registry
  observers : w'.observers = w.observers
  others : ∀ id', id' ≠ id → w'.definitions.get? id' = w.definitions.get? id' ∧
    w'.instances.get? id' = w.instances.get? id' ∧ (id' ∈ w.reserved → id' ∈ w'.reserved)
  definition : ∀ d, w.definitions.get? id = some d → w'.definitions.get? id = some d

/-- What a call relies on is so. -/
def Place.Fits (links : String → Nat → Nat → Prop) (base : String → EngineState) (w : EngineState) :
    Place → Prop
  | .before id d => w.definitions.get? id = some d
  | .inside id starts l b v => l = links id ∧ b = base id ∧ Linked l w.env v ∧
      (if starts then w.instances.get? id = none ∧ id ∈ w.reserved
        else (w.instances.get? id).isSome)
  | .served id l _ => ∀ p q, l p q → links id p q
  | .outside | .turnedAway _ => True

/-- All instances live apart, where `w₀` was the state before all calls, and `base` is the world
of each instance after the calls that were served. The arenas there were then belong to ids. -/
structure Apart (w₀ : EngineState) (owner : Nat → String) (links : String → Nat → Nat → Prop)
    (base : String → EngineState) (g : Nat → Place) (w : EngineState) : Prop where
  registry : w.registry = w₀.registry
  observers : w.observers = w₀.observers
  separate : ∀ id id' a b c, links id a b → links id' a c → id = id'
  given : ∀ a, a < w₀.env.contexts.arenas.size → links (owner a) a a
  stored : ∀ id, Matches (links id) id w (base id)
  linked : ∀ id, (∀ n, (g n).inside? ≠ some id) → Linked (links id) w.env (base id).env
  fits : ∀ n, (g n).Fits links base w
  /-- An instance is worked on by one call at a time. -/
  sole : ∀ n m id, (g n).inside? = some id → (g m).inside? = some id → n = m

section Apart

variable {w₀ w w' b b' : EngineState} {owner : Nat → String} {links : String → Nat → Nat → Prop}
  {base : String → EngineState} {g : Nat → Place} {n m : Nat} {x x' : Place} {id id' : String}
  {starts : Bool} {l l' : Nat → Nat → Prop} {v v' f : Environment} {d : Definition}

/-- Nothing of an id has changed in the common world. -/
theorem Matches.same (h : Matches l id w b) (hregistry : w'.registry = w.registry)
    (hobservers : w'.observers = w.observers)
    (hdefinitions : w'.definitions.get? id = w.definitions.get? id)
    (hinstances : w'.instances.get? id = w.instances.get? id)
    (hreserved : id ∈ w.reserved → id ∈ w'.reserved) : Matches l id w' b where
  registry := h.registry.trans hregistry.symm
  observers := h.observers.trans hobservers.symm
  definitions := h.definitions.trans hdefinitions.symm
  instances := hinstances ▸ h.instances
  tables := by rw [hdefinitions, hinstances, h.tables]
  reserved hstored := hreserved (h.reserved (hinstances ▸ hstored))
  settled := h.settled

/-- What runs alone may work on contexts. -/
theorem Matches.work (h : Matches l id w b) (v : Environment) :
    Matches l id w { b with env := v } :=
  { h with }

theorem Matches.mono (h : Matches l id w b) (hl : ∀ p q, l p q → l' p q) : Matches l' id w b where
  registry := h.registry
  observers := h.observers
  definitions := h.definitions
  instances := by
    have hrel := h.instances
    cases hw : w.instances.get? id <;> cases hb : b.instances.get? id <;> rw [hw, hb] at hrel <;>
      cases hrel
    · exact .none
    next hij => exact .some (hij.mono hl)
  tables := h.tables
  reserved := h.reserved
  settled := h.settled

/-- Where a snapshot is stored in the one world, it is in the other. -/
theorem Matches.isSome (h : Matches l id w b) :
    (b.instances.get? id).isSome = (w.instances.get? id).isSome := by
  have hrel := h.instances
  cases hw : w.instances.get? id <;> cases hb : b.instances.get? id <;> rw [hw, hb] at hrel <;>
    cases hrel
  · rfl

/-- Snapshots that are alike take the place of those that are stored. -/
theorem Matches.setInstance {i j : Instance} (h : Matches l id w b) (hij : i.Alike l j)
    (hstored : (w.instances.get? id).isSome) :
    Matches l id (w.setInstance id i) (b.setInstance id j) where
  registry := h.registry
  observers := h.observers
  definitions := h.definitions
  instances := by
    simp only [EngineState.setInstance, Dict.get?_insert, if_true]
    exact .some hij
  tables := by
    simp only [EngineState.setInstance, Dict.get?_insert, if_true]
    rw [h.tables, hstored]
    rfl
  reserved _ := h.reserved hstored
  settled := by
    simp only [EngineState.setInstance, Dict.get?_insert, if_true]
    exact ⟨fun _ => rfl, fun _ => h.settled.2 (h.isSome.trans hstored)⟩

/-- Instances that are alike are started under the id. -/
theorem Matches.store {i j : Instance} (h : Matches l id w b) (hij : i.Alike l j)
    (hid : id ∈ w.reserved) (d : Definition) :
    Matches l id (w.store id d i) ((b.reserve id).store id d j) where
  registry := h.registry
  observers := h.observers
  definitions := by simp [EngineState.store, Dict.get?_insert]
  instances := by
    simp only [EngineState.store, Dict.get?_insert, if_true]
    exact .some hij
  tables := by simp [EngineState.store, Dict.get?_insert]
  reserved _ := hid
  settled := by simp [EngineState.store, EngineState.reserve, Dict.get?_insert]

/-- The id is given up again. -/
theorem Matches.free (h : Matches l id w b) (hnone : w.instances.get? id = none) :
    Matches l id (w.free id) b where
  registry := h.registry
  observers := h.observers
  definitions := h.definitions
  instances := h.instances
  tables := h.tables
  reserved hstored := by
    change (w.instances.get? id).isSome at hstored
    rw [hnone] at hstored
    cases hstored
  settled := h.settled

/-- Options that are related in this way are stored by one call in both worlds. -/
theorem Matches.storing {o o' : Option Instance} (h : Matches l id w b)
    (ho : Option.Rel (Instance.Alike l) o o') (hstored : (w.instances.get? id).isSome) :
    Matches l id (Ledger.storing id o w) (Ledger.storing id o' b) := by
  cases ho with
  | none => exact h
  | some hij => exact h.setInstance hij hstored

theorem Spares.storing (o : Option Instance) : Spares id w (Ledger.storing id o w) := by
  cases o with
  | none => exact ⟨rfl, rfl, rfl, fun _ _ => ⟨rfl, rfl, fun h => h⟩, fun _ h => h⟩
  | some i =>
    refine ⟨rfl, rfl, rfl, fun id' hid => ⟨rfl, ?_, fun h => h⟩, fun _ h => h⟩
    simp [Ledger.storing, EngineState.setInstance, Dict.get?_insert, Ne.symm hid]

theorem Spares.store (hnone : w.definitions.get? id = none) (d : Definition) (i : Instance) :
    Spares id w (w.store id d i) := by
  refine ⟨rfl, rfl, rfl, fun id' hid => ?_, fun d' hd' => ?_⟩
  · simp [EngineState.store, Dict.get?_insert, Ne.symm hid]
  · rw [hnone] at hd'
    cases hd'

theorem Spares.free : Spares id w (w.free id) :=
  ⟨rfl, rfl, rfl, fun _ hid => ⟨rfl, rfl, (List.mem_erase_of_ne hid).2⟩, fun _ h => h⟩

theorem Place.eq_inside (h : x.inside? = some id) :
    ∃ starts l b v, x = .inside id starts l b v := by
  cases x with
  | inside id' starts l b v =>
    cases h
    exact ⟨starts, l, b, v, rfl⟩
  | _ => cases h

theorem Place.eq_served (h : x.served? = some id) : ∃ l r, x = .served id l r := by
  cases x with
  | served id' l r =>
    cases h
    exact ⟨l, r, rfl⟩
  | _ => cases h

namespace Apart

/-- What a call relies on is so. -/
theorem fits_self (h : Apart w₀ owner links base (Function.update g n x) w) :
    x.Fits links base w := by
  have hfits := h.fits n
  rwa [Function.update_self] at hfits

/-- The arenas of an id stand for some of the world of the instance, or of what the call that works
on it has come to alone. -/
theorem linked_some (h : Apart w₀ owner links base g w) (id : String) :
    ∃ v, Linked (links id) w.env v := by
  by_cases hinside : ∃ m, (g m).inside? = some id
  · obtain ⟨m, hm⟩ := hinside
    obtain ⟨starts, l, b, v, hplace⟩ := Place.eq_inside hm
    have hfits := h.fits m
    rw [hplace] at hfits
    obtain ⟨rfl, -, hlinked, -⟩ := hfits
    exact ⟨v, hlinked⟩
  · exact ⟨_, h.linked id fun m hm => hinside ⟨m, hm⟩⟩

/-- All arenas that belong to an id are there. -/
theorem bound (h : Apart w₀ owner links base g w) {a c : Nat} (hac : links id a c) :
    a < w.env.contexts.arenas.size := by
  obtain ⟨v, hv⟩ := h.linked_some id
  exact (hv.bound a c hac).1

/-- What fits the call that takes another place, and the others, fits all. -/
theorem fits_update {links' : String → Nat → Nat → Prop} {base' : String → EngineState}
    (h : Apart w₀ owner links base (Function.update g n x) w) (hx : x'.Fits links' base' w')
    (hothers : ∀ m, m ≠ n → (g m).Fits links base w → (g m).Fits links' base' w') :
    ∀ m, (Function.update g n x' m).Fits links' base' w' := by
  refine forall_update (P := fun _ (y : Place) => y.Fits links' base' w') hx fun m hm => ?_
  have hfits := h.fits m
  rw [Function.update_of_ne hm] at hfits
  exact hothers m hm hfits

/-- Nobody works on an instance that nobody works on after a call has taken another place, unless
the call did. -/
theorem idle_update (hid : ∀ m, (Function.update g n x' m).inside? ≠ some id)
    (hx : x.inside? ≠ some id) : ∀ m, (Function.update g n x m).inside? ≠ some id :=
  forall_update_again (P := fun _ (y : Place) => y.inside? ≠ some id) hid hx

/-- An instance is worked on by one call at a time, when a call takes another place and does not
begin to work on one that another call works on. -/
theorem sole_place (h : Apart w₀ owner links base (Function.update g n x) w)
    (hx' : ∀ id, x'.inside? = some id → ∀ m, m ≠ n → (g m).inside? ≠ some id) (p q : Nat)
    (id : String) : (Function.update g n x' p).inside? = some id →
      (Function.update g n x' q).inside? = some id → p = q := by
  refine sole_update (k := Place.inside?) (fun p q id hp hq => ?_) hx' p q id
  have hsole := h.sole p q id
  rwa [Function.update_of_ne hp, Function.update_of_ne hq] at hsole

/-- A call takes another place, and works on no instance before or after. -/
theorem place (h : Apart w₀ owner links base (Function.update g n x) w) (hx : x.inside? = none)
    (hx' : x'.inside? = none) (hfits : x'.Fits links base w) :
    Apart w₀ owner links base (Function.update g n x') w :=
  { h with
    linked := fun id hid => h.linked id (idle_update hid (hx ▸ nofun))
    fits := h.fits_update hfits fun _ _ hm => hm
    sole := h.sole_place (hx' ▸ nofun) }

/-- Whoever works on an id, the others work on other ids. -/
theorem inside_ne (h : Apart w₀ owner links base (Function.update g n x) w)
    (hx : x.inside? = some id) (hm : m ≠ n) : (g m).inside? ≠ some id := by
  intro hid
  refine hm (h.sole m n id ?_ ?_)
  · rwa [Function.update_of_ne hm]
  · rwa [Function.update_self]

/-! ### Work on contexts -/

/-- An instance gets new arenas, which belong to no other one. -/
theorem not_linked_others (h : Apart w₀ owner links base g w)
    (hnew : ∀ a c, l' a c → links id a c ∨ w.env.contexts.arenas.size ≤ a) (hid : id' ≠ id)
    {a c c' : Nat} (hac : links id' a c) : ¬ l' a c' := by
  intro hac'
  rcases hnew a c' hac' with hold | hsize
  · exact hid (h.separate id' id a c c' hac hold)
  · exact absurd (h.bound hac) (Nat.not_lt.2 hsize)

/-- No arena belongs to two instances after one of them has got new ones. -/
theorem separate_update (h : Apart w₀ owner links base g w)
    (hnew : ∀ a c, l' a c → links id a c ∨ w.env.contexts.arenas.size ≤ a) (p q : String)
    (a c c' : Nat) (hp : Function.update links id l' p a c)
    (hq : Function.update links id l' q a c') : p = q := by
  by_cases hpid : p = id <;> by_cases hqid : q = id
  · rw [hpid, hqid]
  · rw [hpid, Function.update_self] at hp
    rw [Function.update_of_ne hqid] at hq
    exact absurd hp (h.not_linked_others hnew hqid hq)
  · rw [hqid, Function.update_self] at hq
    rw [Function.update_of_ne hpid] at hp
    exact absurd hq (h.not_linked_others hnew hpid hp)
  · rw [Function.update_of_ne hpid] at hp
    rw [Function.update_of_ne hqid] at hq
    exact h.separate p q a c c' hp hq

/-- The call that works on an instance changes and adds arenas of it, and the same is done alone. -/
theorem work (h : Apart w₀ owner links base (Function.update g n (.inside id starts l b v)) w)
    (hmore : ∀ a c, l a c → l' a c)
    (hnew : ∀ a c, l' a c → l a c ∨ w.env.contexts.arenas.size ≤ a)
    (hsize : w.env.contexts.arenas.size ≤ f.contexts.arenas.size)
    (hf : ∀ a, a < w.env.contexts.arenas.size → (∀ c, ¬ l a c) → f.arena a = w.env.arena a)
    (hv : Linked l' f v') :
    Apart w₀ owner (Function.update links id l') base
      (Function.update g n (.inside id starts l' b v')) { w with env := f } := by
  obtain ⟨rfl, rfl, -, hstored⟩ := h.fits_self
  have hlinks : ∀ id' a c, links id' a c → Function.update links id l' id' a c := by
    intro id' a c hac
    by_cases hid : id' = id
    · subst hid
      rw [Function.update_self]
      exact hmore a c hac
    · rwa [Function.update_of_ne hid]
  -- The arenas of another id are old ones, and do not belong to this one.
  have hframe : ∀ id' e', id' ≠ id → Linked (links id') w.env e' → Linked (links id') f e' := by
    intro id' e' hid' hlinked
    refine hlinked.frame hsize fun a c hac => hf a (hlinked.bound a c hac).1 fun c' hac' => ?_
    exact hid' (h.separate id' id a c c' hac hac')
  refine { h with
    separate := h.separate_update hnew
    given := fun a ha => hlinks _ _ _ (h.given a ha)
    stored := fun id' => ?_
    linked := fun id' hid' => ?_
    fits := ?_
    sole := h.sole_place fun id' hid' m hm => h.inside_ne hid' hm }
  · exact ((h.stored id').mono (hlinks id')).same rfl rfl rfl rfl fun hid => hid
  · have hne : some id ≠ some id' := by
      have hself := hid' n
      rwa [Function.update_self] at hself
    have hid : id' ≠ id := fun heq => hne (congrArg some heq.symm)
    rw [Function.update_of_ne hid]
    exact hframe id' _ hid (h.linked id' (idle_update hid' hne))
  · refine h.fits_update ⟨(Function.update_self id l' links).symm, rfl, hv, hstored⟩
      fun m hm hfits => ?_
    have hne : (g m).inside? ≠ some id := h.inside_ne rfl hm
    revert hne hfits
    cases g m with
    | inside id' starts' k b' u =>
      rintro ⟨rfl, rfl, hlinked, hstored'⟩ hne
      have hid : id' ≠ id := fun heq => hne (congrArg some heq)
      exact ⟨(Function.update_of_ne hid ..).symm, rfl, hframe id' u hid hlinked, hstored'⟩
    | served id' k r => exact fun hk _ p q hpq => hlinks id' p q (hk p q hpq)
    | _ => exact fun hfits _ => hfits

/-- Only the arenas of the instance are changed. -/
theorem step (h : Apart w₀ owner links base (Function.update g n (.inside id starts l b v)) w)
    (hf : SameOff (fun a => ∃ c, l a c) w.env f) (hv : Linked l f v') :
    Apart w₀ owner links base (Function.update g n (.inside id starts l b v'))
      { w with env := f } := by
  have hl : l = links id := h.fits_self.1
  have hwork := h.work (fun _ _ hac => hac) (fun _ _ hac => .inl hac) (Nat.le_of_eq hf.size.symm)
    (fun a _ hno => hf.arena a fun ⟨c, hac⟩ => hno c hac) hv
  rwa [hl, Function.update_eq_self, ← hl] at hwork

/-- A start makes a context. -/
theorem allocate (h : Apart w₀ owner links base (Function.update g n (.inside id starts l b v)) w)
    (content : Value) :
    Apart w₀ owner (Function.update links id (withNew l w.env v)) base
      (Function.update g n (.inside id starts (withNew l w.env v) b (v.allocate content)))
      { w with env := w.env.allocate content } := by
  have hv : Linked l w.env v := h.fits_self.2.2.1
  refine h.work (fun _ _ hac => .inl hac) (fun a c hac => hac.imp_right fun hnew => ?_) ?_
    (fun a ha _ => arena_allocate content ha) (hv.allocate content)
  · exact Nat.le_of_eq hnew.1.symm
  · rw [size_allocate]
    omega

/-! ### Turns at an instance -/

/-- A call begins to work on an instance that nobody works on. -/
theorem enter (h : Apart w₀ owner links base (Function.update g n x) w) (hx : x.inside? = none)
    (hfree : ∀ m, m ≠ n → (g m).inside? ≠ some id)
    (hstored : if starts then w.instances.get? id = none ∧ id ∈ w.reserved
      else (w.instances.get? id).isSome) :
    Apart w₀ owner links base
      (Function.update g n (.inside id starts (links id) (base id) (base id).env)) w := by
  have hlinked : Linked (links id) w.env (base id).env := by
    refine h.linked id (forall_update (P := fun _ (y : Place) => y.inside? ≠ some id) ?_ hfree)
    exact hx ▸ nofun
  refine { h with
    linked := fun id' hid' => h.linked id' (idle_update hid' (hx ▸ nofun))
    fits := h.fits_update ⟨rfl, rfl, hlinked, hstored⟩ fun _ _ hfits => hfits
    sole := h.sole_place fun id' hid' => ?_ }
  cases hid'
  exact hfree

/-- What one who works on an instance knows of it. -/
theorem stored_of_inside (h : Apart w₀ owner links base (Function.update g n x) w) (hm : m ≠ n)
    (hid : (g m).inside? = some id) :
    ((g m).lock = some id ∧ (w.instances.get? id).isSome) ∨
      (w.instances.get? id = none ∧ id ∈ w.reserved) := by
  obtain ⟨starts, l, b, v, hplace⟩ := Place.eq_inside hid
  have hfits := h.fits m
  rw [Function.update_of_ne hm, hplace] at hfits
  cases starts with
  | false => exact .inl ⟨by rw [hplace]; rfl, hfits.2.2.2⟩
  | true => exact .inr hfits.2.2.2

/-- The lock is got by a call that knows the definition. -/
theorem goIn (h : Apart w₀ owner links base (Function.update g n (.before id d)) w)
    (hsole : ∀ m, m ≠ n → (g m).lock ≠ some id) :
    ∃ i j, w.instances.get? id = some i ∧ (base id).instances.get? id = some j ∧
      i.Alike (links id) j ∧ (base id).definitions.get? id = some d ∧
      Apart w₀ owner links base
        (Function.update g n (.inside id false (links id) (base id) (base id).env)) w := by
  have hd : w.definitions.get? id = some d := h.fits_self
  have hstored : (w.instances.get? id).isSome := by
    rw [← (h.stored id).tables, hd]
    rfl
  have hfree : ∀ m, m ≠ n → (g m).inside? ≠ some id := by
    intro m hm hid
    rcases h.stored_of_inside hm hid with ⟨hlock, -⟩ | ⟨hnone, -⟩
    · exact hsole m hm hlock
    · rw [hnone] at hstored
      cases hstored
  have henter : Apart w₀ owner links base
      (Function.update g n (.inside id false (links id) (base id) (base id).env)) w :=
    h.enter rfl hfree hstored
  obtain ⟨i, hi⟩ := Option.isSome_iff_exists.1 hstored
  have hrel := (h.stored id).instances
  rw [hi] at hrel
  cases hj : (base id).instances.get? id with
  | none =>
    rw [hj] at hrel
    cases hrel
  | some j =>
    rw [hj] at hrel
    cases hrel
    next hij => exact ⟨i, j, hi, rfl, hij, (h.stored id).definitions.trans hd, henter⟩

/-- An id that is free is reserved by a start. -/
theorem reserve (h : Apart w₀ owner links base (Function.update g n .outside) w)
    (hid : id ∉ w.reserved) :
    id ∉ (base id).reserved ∧ Apart w₀ owner links base
      (Function.update g n (.inside id true (links id) (base id) (base id).env)) (w.reserve id) := by
  have hnone : w.instances.get? id = none := by
    cases hget : w.instances.get? id with
    | none => rfl
    | some i => exact absurd ((h.stored id).reserved (by rw [hget]; rfl)) hid
  have hbase : id ∉ (base id).reserved := by
    rw [(h.stored id).settled, (h.stored id).isSome, hnone]
    exact nofun
  have hreserved : Apart w₀ owner links base (Function.update g n .outside) (w.reserve id) := by
    refine { h with
      stored := fun id' => (h.stored id').same rfl rfl rfl rfl (List.mem_cons_of_mem id)
      fits := h.fits_update trivial fun m _ hfits => ?_ }
    revert hfits
    cases g m with
    | inside id' starts l b v =>
      rintro ⟨hl, hb, hv, hstored⟩
      cases starts with
      | false => exact ⟨hl, hb, hv, hstored⟩
      | true => exact ⟨hl, hb, hv, hstored.1, List.mem_cons_of_mem id hstored.2⟩
    | _ => exact fun hfits => hfits
  refine ⟨hbase, hreserved.enter rfl (fun m hm hid' => ?_) ⟨hnone, List.mem_cons_self⟩⟩
  rcases h.stored_of_inside hm hid' with ⟨-, hstored⟩ | ⟨-, hmem⟩
  · rw [hnone] at hstored
    cases hstored
  · exact hid hmem

/-- The call that works on an instance is served. What it stores is stored alone as well, and
nothing of other ids is touched. -/
theorem close {r : Except Failure Result}
    (h : Apart w₀ owner links base (Function.update g n (.inside id starts l b v)) w)
    (hw : Spares id w w') (hmatches : Matches l id w' b') (hb' : b'.env = v) :
    Apart w₀ owner links (Function.update base id b') (Function.update g n (.served id l r)) w' := by
  obtain ⟨rfl, rfl, hv, -⟩ := h.fits_self
  refine { h with
    registry := hw.registry.trans h.registry
    observers := hw.observers.trans h.observers
    stored := fun id' => ?_
    linked := fun id' hid' => ?_
    fits := h.fits_update (fun _ _ hpq => hpq) fun m hm hfits => ?_
    sole := h.sole_place nofun }
  · by_cases hid : id' = id
    · subst hid
      rwa [Function.update_self]
    · obtain ⟨hdefinitions, hinstances, hreserved⟩ := hw.others id' hid
      rw [Function.update_of_ne hid]
      exact (h.stored id').same hw.registry hw.observers hdefinitions hinstances hreserved
  · rw [hw.env]
    by_cases hid : id' = id
    · subst hid
      rw [Function.update_self, hb']
      exact hv
    · rw [Function.update_of_ne hid]
      exact h.linked id' (idle_update hid' fun heq => hid (Option.some.inj heq).symm)
  · have hne : (g m).inside? ≠ some id := h.inside_ne rfl hm
    revert hne hfits
    cases g m with
    | before id' d =>
      intro hd _
      by_cases hid : id' = id
      · subst hid
        exact hw.definition d hd
      · exact ((hw.others id' hid).1).trans hd
    | inside id' starts' k b' u =>
      rintro ⟨rfl, rfl, hlinked, hstored⟩ hne
      have hid : id' ≠ id := fun heq => hne (congrArg some heq)
      obtain ⟨-, hinstances, hreserved⟩ := hw.others id' hid
      refine ⟨rfl, (Function.update_of_ne hid ..).symm, hw.env ▸ hlinked, ?_⟩
      rw [hinstances]
      cases starts' with
      | false => exact hstored
      | true => exact ⟨hstored.1, hreserved hstored.2⟩
    | _ => exact fun hfits _ => hfits

end Apart

end Apart

/-! ## The roll of calls -/

/-- The calls that were served have their answers alone; the others are not in the order. -/
structure Rolled (e : Engine) (w₀ : EngineState) (jobs : List Job) (g : Nat → Place)
    (log : List Entry) : Prop where
  served : ∀ n id l r, g n = .served id l r →
    (∃ j, jobs[n]? = some j ∧ j.subject? = some id) ∧ (n, r) ∈ (e.alone w₀ jobs id log).1
  unserved : ∀ n id, (g n).served? ≠ some id → n ∉ servedOrder id log
  nodup : ∀ id, (servedOrder id log).Nodup
  turnedAway : ∀ n id, g n = .turnedAway id → (⟨n, some id, .refused false⟩ : Entry) ∈ log
  inside : ∀ n id, (g n).inside? = some id → ∃ j, jobs[n]? = some j ∧ j.subject? = some id

namespace Rolled

variable {e : Engine} {w₀ : EngineState} {jobs : List Job} {g : Nat → Place} {log : List Entry}
  {n : Nat} {x x' : Place} {y : Entry} {id : String} {j : Job}

theorem inside_self (h : Rolled e w₀ jobs (Function.update g n x) log) (id : String)
    (hid : x.inside? = some id) : ∃ j, jobs[n]? = some j ∧ j.subject? = some id :=
  h.inside n id (by rwa [Function.update_self])

/-- A call takes another place, and is not served yet. -/
theorem place (h : Rolled e w₀ jobs (Function.update g n x) log)
    (hx : x.served? = none) (hx' : x'.served? = none)
    (hturned : ∀ id, x' = .turnedAway id → (⟨n, some id, .refused false⟩ : Entry) ∈ log)
    (hinside : ∀ id, x'.inside? = some id → ∃ j, jobs[n]? = some j ∧ j.subject? = some id) :
    Rolled e w₀ jobs (Function.update g n x') log where
  served :=
    forall_update_again (P := fun m (y : Place) => ∀ id l r, y = .served id l r →
      (∃ j, jobs[m]? = some j ∧ j.subject? = some id) ∧ (m, r) ∈ (e.alone w₀ jobs id log).1)
      h.served fun id l r hr => nomatch hr ▸ hx'
  unserved := by
    refine forall_update_again (P := fun m (y : Place) => ∀ id, y.served? ≠ some id →
      m ∉ servedOrder id log) h.unserved fun id _ => h.unserved n id ?_
    rw [Function.update_self, hx]
    exact nofun
  nodup := h.nodup
  turnedAway :=
    forall_update_again (P := fun m (y : Place) => ∀ id, y = .turnedAway id →
      (⟨m, some id, .refused false⟩ : Entry) ∈ log) h.turnedAway hturned
  inside :=
    forall_update_again (P := fun m (y : Place) => ∀ id, y.inside? = some id →
      ∃ j, jobs[m]? = some j ∧ j.subject? = some id) h.inside hinside

/-- An entry by which no call is served. -/
theorem note (h : Rolled e w₀ jobs g log) (hy : ∀ id, y.served? id = none) :
    Rolled e w₀ jobs g (log ++ [y]) where
  served n id l r hr := by
    rw [alone_concat_none (hy id)]
    exact h.served n id l r hr
  unserved n id hn := by
    rw [servedOrder_concat_none (hy id)]
    exact h.unserved n id hn
  nodup id := by
    rw [servedOrder_concat_none (hy id)]
    exact h.nodup id
  turnedAway n id hn := List.mem_append_left _ (h.turnedAway n id hn)
  inside := h.inside

/-- A call is served by an entry. -/
theorem serve (h : Rolled e w₀ jobs (Function.update g n x) log) (hx : x.served? = none)
    (hj : jobs[n]? = some j) (hsubject : j.subject? = some id) (hid : y.id = some id)
    (hy : y.served? id = some n) (l : Nat → Nat → Prop) :
    Rolled e w₀ jobs (Function.update g n
      (.served id l ((j.call e).run (e.alone w₀ jobs id log).2).answer)) (log ++ [y]) := by
  have hother : ∀ id', id' ≠ id → y.served? id' = none := fun id' hne => served?_of_ne hid hne
  have hfresh : ∀ id', n ∉ servedOrder id' log := by
    intro id'
    refine h.unserved n id' ?_
    rw [Function.update_self, hx]
    exact nofun
  refine ⟨?_, ?_, fun id' => ?_, ?_, ?_⟩
  · refine forall_update (P := fun m (z : Place) => ∀ id' l r, z = .served id' l r →
      (∃ j, jobs[m]? = some j ∧ j.subject? = some id') ∧
        (m, r) ∈ (e.alone w₀ jobs id' (log ++ [y])).1) (fun id' l r hr => ?_)
      fun m hm id' l r hr => ?_
    · cases hr
      rw [alone_concat_some hy hj]
      exact ⟨⟨j, hj, hsubject⟩, List.mem_append_right _ (List.mem_singleton.2 rfl)⟩
    · obtain ⟨hown, hover⟩ := h.served m id' l r (by rwa [Function.update_of_ne hm])
      refine ⟨hown, ?_⟩
      by_cases hne : id' = id
      · subst hne
        rw [alone_concat_some hy hj]
        exact List.mem_append_left _ hover
      · rwa [alone_concat_none (hother id' hne)]
  · refine forall_update (P := fun m (z : Place) => ∀ id', z.served? ≠ some id' →
      m ∉ servedOrder id' (log ++ [y])) (fun id' hne => ?_) fun m hm id' hne => ?_
    · have hid' : id' ≠ id := fun heq => hne (congrArg some heq.symm)
      rw [servedOrder_concat_none (hother id' hid')]
      exact hfresh id'
    · have hunserved := h.unserved m id' (by rwa [Function.update_of_ne hm])
      by_cases hid' : id' = id
      · subst hid'
        rw [servedOrder_concat_some hy, List.mem_append, List.mem_singleton]
        exact fun hmem => hmem.elim hunserved hm
      · rwa [servedOrder_concat_none (hother id' hid')]
  · by_cases hid' : id' = id
    · subst hid'
      rw [servedOrder_concat_some hy]
      refine List.nodup_append.2 ⟨h.nodup id', by simp, fun a ha b hb => ?_⟩
      rw [List.mem_singleton.1 hb]
      rintro rfl
      exact hfresh id' ha
    · rw [servedOrder_concat_none (hother id' hid')]
      exact h.nodup id'
  · exact forall_update_again (P := fun m (z : Place) => ∀ id', z = .turnedAway id' →
      (⟨m, some id', .refused false⟩ : Entry) ∈ log ++ [y])
      (fun m id' hm => List.mem_append_left _ (h.turnedAway m id' hm)) nofun
  · exact forall_update_again (P := fun m (z : Place) => ∀ id', z.inside? = some id' →
      ∃ j, jobs[m]? = some j ∧ j.subject? = some id') h.inside nofun

end Rolled

/-! ## The accord -/

/-- The calls keep the instances apart, and the roll of those that were served. -/
def separation (e : Engine) (w₀ : EngineState) (jobs : List Job) (owner : Nat → String) :
    Accord Realm.chronicled where
  Stake := Place
  lock := Place.lock
  live _ := True
  fact g w log := ∃ links,
    Apart w₀ owner links (fun id => (e.alone w₀ jobs id (marks log)).2) g w ∧
      Rolled e w₀ jobs g (marks log)
  signals signal := signal = .resume
  resumes := rfl

end Engine

end Workflow
