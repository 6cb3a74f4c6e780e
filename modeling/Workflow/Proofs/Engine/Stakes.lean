import Workflow.Engine.Basic
import Workflow.Proofs.Run.Footprint
import Workflow.Proofs.Schedule.Ruled

/-!
# What is at stake on an engine

The rules by which the calls on an engine share it (`Engine.rules`).

**Ids** (`Hold`). A start reserves an id that is free, and then either gives it up or stores an
instance under it. No other call adds an instance.

**Snapshots.** A stored snapshot is replaced only by one who holds the lock of its id, and only
while it is running.

**Arenas.** A start works on the context of its own instance. One who holds the lock of a running
instance works on the context of that instance.

Main result: the rules uphold that the tables and the reservations are as the calls hold ids
(`upholds_claims`).
-/

namespace Workflow

open Activity

/-- The number of arenas. -/
abbrev Environment.size (e : Environment) : Nat := e.contexts.arenas.size

/-- The ids that are reserved are those that have an instance, and a definition. -/
structure EngineState.Tidy (w : EngineState) : Prop where
  tables : w.instances.keys = w.definitions.keys
  nodup : w.reserved.Nodup
  reserved : ∀ id, id ∈ w.reserved ↔ id ∈ w.instances.keys

namespace Engine

/-! ## Stakes -/

/-- What a call has to do with ids. -/
inductive Hold where
  /-- It serves instances that are stored. -/
  | visitor
  /-- It is to start an instance, and has no id. -/
  | seeker
  /-- It has reserved an id for an instance of a definition. -/
  | holder (id : String) (d : Definition)
  /-- It has stored the instance. -/
  | owner (id : String) (d : Definition)

namespace Hold

/-- The id that is reserved, and not stored yet. -/
def pending? : Hold → Option String
  | .holder id _ => some id
  | .visitor | .seeker | .owner _ _ => none

/-- The id under which an instance was stored, with the definition. -/
def title? : Hold → Option (String × Definition)
  | .owner id d => some (id, d)
  | .visitor | .seeker | .holder _ _ => none

/-- The id that has been reserved, stored or not. -/
def id? : Hold → Option String
  | .visitor | .seeker => none
  | .holder id _ | .owner id _ => some id

@[simp] theorem pending?_seeker : pending? .seeker = none := rfl

@[simp] theorem pending?_holder (id : String) (d : Definition) :
    (holder id d).pending? = some id := rfl

@[simp] theorem pending?_owner (id : String) (d : Definition) : (owner id d).pending? = none := rfl

@[simp] theorem title?_seeker : title? .seeker = none := rfl

@[simp] theorem title?_holder (id : String) (d : Definition) : (holder id d).title? = none := rfl

@[simp] theorem title?_owner (id : String) (d : Definition) :
    (owner id d).title? = some (id, d) := rfl

theorem id?_of_pending {x : Hold} {id : String} (h : x.pending? = some id) : x.id? = some id := by
  cases x <;> cases h
  rfl

theorem id?_of_title {x : Hold} {id : String} {d : Definition} (h : x.title? = some (id, d)) :
    x.id? = some id := by
  cases x <;> cases h
  rfl

end Hold

/-- What a call has. -/
structure Stake where
  hold : Hold
  /-- The arenas that it works on. -/
  hands : List Nat := []
  /-- The arenas of contexts that it may put under an id. -/
  offers : List (String × Nat) := []

/-- The arena is one that the call may change. -/
def Stake.Reaches (x : Stake) (lock : Option String) (w : EngineState) (n : Nat) : Prop :=
  n ∈ x.hands ∨
    ∃ id i, lock = some id ∧ w.instances.get? id = some i ∧ i.isRunning ∧ i.ctx.arena = n

/-! ## The rules -/

/-- The tables and the reservations are the same. -/
structure SameTables (w w' : EngineState) : Prop where
  instances : w'.instances = w.instances
  definitions : w'.definitions = w.definitions
  reserved : w'.reserved = w.reserved

/-- There is one more arena. -/
def Opens (w w' : EngineState) : Prop :=
  ∃ a, w'.env.contexts.arenas = w.env.contexts.arenas.push a

/-- What a call may change. -/
inductive Change : Option String → Stake → EngineState → Stake → EngineState → Prop
  | work {lock : Option String} {x : Stake} {w w' : EngineState} :
      SameTables w w' → w.env.SameOff (x.Reaches lock w) w'.env → Change lock x w x w'
  | take {lock : Option String} {x : Stake} {w w' : EngineState} :
      SameTables w w' → Opens w w' →
      Change lock x w { x with hands := w.env.size :: x.hands } w'
  | offer {lock : Option String} {x : Stake} {w w' : EngineState} (id : String) :
      SameTables w w' → Opens w w' →
      Change lock x w { x with offers := (id, w.env.size) :: x.offers } w'
  | reserve {lock : Option String} {x : Stake} {w : EngineState} {id : String} (d : Definition) :
      x.hold = .seeker → id ∉ w.reserved →
      Change lock x w { x with hold := .holder id d } (w.reserve id)
  | free {lock : Option String} {x : Stake} {w : EngineState} {id : String} {d : Definition} :
      x.hold = .holder id d → Change lock x w { x with hold := .seeker } (w.free id)
  | store {lock : Option String} {x : Stake} {w : EngineState} {id : String} {d : Definition}
      {i : Instance} :
      x.hold = .holder id d → i.ctx.arena ∈ x.hands →
      Change lock x w { x with hold := .owner id d, hands := [] } (w.store id d i)
  | replace {x : Stake} {w : EngineState} {id : String} {i j : Instance} :
      x.hold = .visitor → w.instances.get? id = some i → (i.isRunning ∨ j = i) →
      (j.ctx.arena = i.ctx.arena ∨ (id, j.ctx.arena) ∈ x.offers) →
      Change (some id) x w x (w.setInstance id j)

/-- Who has the lock of an id finds the same snapshot there. -/
def Seen (lock : Option String) (w v : EngineState) : Prop :=
  ∀ id, lock = some id → ∀ i, w.instances.get? id = some i → v.instances.get? id = some i

/-- The rules of an engine. -/
def rules : Rules Realm.engine where
  Stake := Stake
  change := Change
  seen := Seen
  seen_refl _ _ _ _ _ hi := hi
  seen_trans h h' id hid i hi := h' id hid i (h id hid i hi)
  seen_unlocked _ := nofun

variable {w w' : EngineState} {lock : Option String} {x x' : Stake} {n m : Nat} {id : String}
  {d : Definition} {i j : Instance}

/-- As long as the tables are the same, everybody finds what he can rely on. -/
theorem SameTables.seen (h : SameTables w w') (lock : Option String) : Seen lock w w' := by
  intro id _ i hi
  rw [h.instances]
  exact hi

/-- What holds of the stake that changes, and of all others, holds of all. -/
theorem forall_update {A : Type} {f : Nat → A} {y : A} {P : Nat → A → Prop} (hn : P n y)
    (h : ∀ m, m ≠ n → P m (f m)) (m : Nat) : P m (Function.update f n y m) :=
  (Function.forall_update_iff f P).2 ⟨hn, h⟩ m

/-- What holds of all holds of all again, when the one that changes is put in order. -/
theorem forall_update_again {A : Type} {f : Nat → A} {y y' : A} {P : Nat → A → Prop}
    (h : ∀ m, P m (Function.update f n y m)) (hn : P n y') (m : Nat) :
    P m (Function.update f n y' m) :=
  forall_update hn ((Function.forall_update_iff f P).1 h).2 m

/-- Nobody shares an id with another one, when the one that changes takes one that no other has. -/
theorem sole_update {A : Type} {f : Nat → A} {y : A} {k : A → Option String}
    (h : ∀ p q id, p ≠ n → q ≠ n → k (f p) = some id → k (f q) = some id → p = q)
    (hy : ∀ id, k y = some id → ∀ m, m ≠ n → k (f m) ≠ some id) (p q : Nat) (id : String)
    (hp : k (Function.update f n y p) = some id)
    (hq : k (Function.update f n y q) = some id) : p = q := by
  by_cases hpn : p = n <;> by_cases hqn : q = n
  · rw [hpn, hqn]
  · rw [hpn, Function.update_self] at hp
    rw [Function.update_of_ne hqn] at hq
    exact absurd hq (hy id hp q hqn)
  · rw [hqn, Function.update_self] at hq
    rw [Function.update_of_ne hpn] at hp
    exact absurd hp (hy id hq p hpn)
  · rw [Function.update_of_ne hpn] at hp
    rw [Function.update_of_ne hqn] at hq
    exact h p q id hpn hqn hp hq

/-! ## Ids -/

/-- The tables and the reservations are as the calls hold ids, where `w₀` was the state before all
calls. -/
structure Claims (w₀ : EngineState) (hold : Nat → Hold) (w : EngineState) : Prop where
  tables : w.instances.keys = w.definitions.keys
  nodup : w.reserved.Nodup
  reserved : ∀ id, id ∈ w.reserved ↔
    id ∈ w.instances.keys ∨ ∃ n, (hold n).pending? = some id
  unstored : ∀ n id, (hold n).pending? = some id → id ∉ w.instances.keys
  sole : ∀ n m id, (hold n).id? = some id → (hold m).id? = some id → n = m
  stored : ∀ id, id ∈ w.instances.keys ↔
    id ∈ w₀.instances.keys ∨ ∃ n d, (hold n).title? = some (id, d)
  titled : ∀ n id d, (hold n).title? = some (id, d) →
    id ∉ w₀.instances.keys ∧ w.definitions.get? id = some d
  kept : ∀ id d, w₀.definitions.get? id = some d → w.definitions.get? id = some d

section Claims

variable {w₀ : EngineState} {hold : Nat → Hold} {y : Hold}

theorem exists_hold {P : Hold → Prop} (n : Nat) :
    (∃ m, P (hold m)) ↔ P (hold n) ∨ ∃ m, m ≠ n ∧ P (hold m) := by
  have h := Function.exists_update_iff hold (a := n) (b := hold n) fun _ => P
  rwa [Function.update_eq_self] at h

theorem exists_update {P : Hold → Prop} (n : Nat) :
    (∃ m, P (Function.update hold n y m)) ↔ P y ∨ ∃ m, m ≠ n ∧ P (hold m) :=
  Function.exists_update_iff hold fun _ => P

/-- Nobody else has an id that one has. -/
theorem Claims.not_others (h : Claims w₀ hold w) (hn : (hold n).id? = some id) (hm : m ≠ n) :
    (hold m).id? ≠ some id :=
  fun h' => hm (h.sole m n id h' hn)

theorem Claims.sole_update (h : Claims w₀ hold w)
    (hy : ∀ id, y.id? = some id → ∀ m, m ≠ n → (hold m).id? ≠ some id) (p q : Nat) (id : String) :
    (Function.update hold n y p).id? = some id → (Function.update hold n y q).id? = some id →
      p = q :=
  Engine.sole_update (k := Hold.id?) (fun p q id _ _ => h.sole p q id) hy p q id

theorem Claims.same (h : Claims w₀ hold w) (hw : SameTables w w') : Claims w₀ hold w' where
  tables := by rw [hw.instances, hw.definitions, h.tables]
  nodup := by rw [hw.reserved]; exact h.nodup
  reserved := by rw [hw.reserved, hw.instances]; exact h.reserved
  unstored := by rw [hw.instances]; exact h.unstored
  sole := h.sole
  stored := by rw [hw.instances]; exact h.stored
  titled := by rw [hw.definitions]; exact h.titled
  kept := by rw [hw.definitions]; exact h.kept

theorem Claims.reserve (h : Claims w₀ hold w) (hn : hold n = .seeker) (hid : id ∉ w.reserved) :
    Claims w₀ (Function.update hold n (.holder id d)) (w.reserve id) where
  tables := h.tables
  nodup := List.nodup_cons.2 ⟨hid, h.nodup⟩
  reserved id' := by
    show id' ∈ id :: w.reserved ↔ id' ∈ w.instances.keys ∨ _
    rw [List.mem_cons, h.reserved, exists_hold (P := fun x => x.pending? = some id') n,
      exists_update (P := fun x => x.pending? = some id') n, hn]
    simp only [Hold.pending?_seeker, Hold.pending?_holder, Option.some.injEq, reduceCtorEq,
      false_or, eq_comm (a := id')]
    tauto
  unstored := by
    refine forall_update (P := fun _ (x : Hold) => ∀ id', x.pending? = some id' →
      id' ∉ w.instances.keys) ?_ fun m _ => h.unstored m
    rintro id' ⟨⟩ hstored
    exact hid ((h.reserved id).2 (.inl hstored))
  sole := by
    refine h.sole_update fun id' hid' m _ hm => ?_
    cases hid'
    -- Whoever has the id has it reserved.
    cases hhold : hold m with
    | visitor | seeker => rw [hhold] at hm; cases hm
    | holder id' d' =>
      rw [hhold] at hm
      cases hm
      exact hid ((h.reserved id).2 (.inr ⟨m, by rw [hhold]; rfl⟩))
    | owner id' d' =>
      rw [hhold] at hm
      cases hm
      exact hid ((h.reserved id).2 (.inl ((h.stored id).2 (.inr ⟨m, d', by rw [hhold]; rfl⟩))))
  stored id' := by
    show id' ∈ w.instances.keys ↔ _
    rw [h.stored, exists_hold (P := fun x => ∃ d, x.title? = some (id', d)) n,
      exists_update (P := fun x => ∃ d, x.title? = some (id', d)) n, hn]
    simp
  titled :=
    forall_update (P := fun _ (x : Hold) => ∀ id' d', x.title? = some (id', d') →
      id' ∉ w₀.instances.keys ∧ w.definitions.get? id' = some d') nofun fun m _ => h.titled m
  kept := h.kept

theorem Claims.free (h : Claims w₀ hold w) (hn : hold n = .holder id d) :
    Claims w₀ (Function.update hold n .seeker) (w.free id) := by
  have hpending : (hold n).pending? = some id := by rw [hn]; rfl
  exact {
    tables := h.tables
    nodup := h.nodup.erase id
    reserved := fun id' => by
      show id' ∈ w.reserved.erase id ↔ id' ∈ w.instances.keys ∨ _
      rw [h.nodup.mem_erase_iff, h.reserved, exists_hold (P := fun x => x.pending? = some id') n,
        exists_update (P := fun x => x.pending? = some id') n, hpending]
      by_cases hid : id' = id
      · subst hid
        have hothers : ¬ ∃ m, m ≠ n ∧ (hold m).pending? = some id' := fun ⟨m, hm, hm'⟩ =>
          h.not_others (Hold.id?_of_pending hpending) hm (Hold.id?_of_pending hm')
        simp [h.unstored n id' hpending, hothers]
      · simp [hid, Ne.symm hid]
    unstored := forall_update (P := fun _ (x : Hold) => ∀ id', x.pending? = some id' →
      id' ∉ w.instances.keys) nofun fun m _ => h.unstored m
    sole := h.sole_update nofun
    stored := fun id' => by
      show id' ∈ w.instances.keys ↔ _
      rw [h.stored, exists_hold (P := fun x => ∃ d, x.title? = some (id', d)) n,
        exists_update (P := fun x => ∃ d, x.title? = some (id', d)) n, hn]
      simp
    titled := forall_update (P := fun _ (x : Hold) => ∀ id' d', x.title? = some (id', d') →
      id' ∉ w₀.instances.keys ∧ w.definitions.get? id' = some d') nofun fun m _ => h.titled m
    kept := h.kept }

theorem mem_keys_store {id' : String} (h : id ∉ w.instances.keys) :
    id' ∈ (w.store id d i).instances.keys ↔ id' ∈ w.instances.keys ∨ id' = id := by
  show id' ∈ (w.instances.insert id i).keys ↔ _
  rw [Dict.keys_insert, if_neg h, List.mem_append, List.mem_singleton]

theorem Claims.store (h : Claims w₀ hold w) (hn : hold n = .holder id d) :
    Claims w₀ (Function.update hold n (.owner id d)) (w.store id d i) := by
  have hpending : (hold n).pending? = some id := by rw [hn]; rfl
  have hid : (hold n).id? = some id := Hold.id?_of_pending hpending
  have hunstored : id ∉ w.instances.keys := h.unstored n id hpending
  have hdefinition : id ∉ w.definitions.keys := h.tables ▸ hunstored
  have hother : ∀ {id' d'}, w.definitions.get? id' = some d' → id ≠ id' := by
    rintro id' d' hd' rfl
    exact hdefinition (Dict.mem_keys.2 ⟨d', hd'⟩)
  exact {
    tables := by
      show (w.instances.insert id i).keys = (w.definitions.insert id d).keys
      rw [Dict.keys_insert, Dict.keys_insert, if_neg hunstored, if_neg hdefinition, h.tables]
    nodup := h.nodup
    reserved := fun id' => by
      show id' ∈ w.reserved ↔ _
      rw [mem_keys_store hunstored, h.reserved,
        exists_hold (P := fun x => x.pending? = some id') n,
        exists_update (P := fun x => x.pending? = some id') n, hpending]
      simp only [Hold.pending?_owner, Option.some.injEq, reduceCtorEq, false_or, eq_comm (a := id')]
      tauto
    unstored := by
      refine forall_update (P := fun _ (x : Hold) => ∀ id', x.pending? = some id' →
        id' ∉ (w.store id d i).instances.keys) nofun fun m hm id' hid' hstored => ?_
      rcases (mem_keys_store hunstored).1 hstored with hstored | rfl
      · exact h.unstored m id' hid' hstored
      · exact h.not_others hid hm (Hold.id?_of_pending hid')
    sole := by
      refine h.sole_update fun id' hid' m hm => ?_
      cases hid'
      exact h.not_others hid hm
    stored := fun id' => by
      rw [mem_keys_store hunstored, h.stored,
        exists_hold (P := fun x => ∃ d, x.title? = some (id', d)) n,
        exists_update (P := fun x => ∃ d, x.title? = some (id', d)) n, hn]
      simp only [Hold.title?_holder, Hold.title?_owner, Option.some.injEq, Prod.mk.injEq,
        reduceCtorEq, exists_false, false_or, exists_and_left, exists_eq', and_true,
        eq_comm (a := id')]
      rw [or_right_comm, or_assoc]
    titled := by
      refine forall_update (P := fun _ (x : Hold) => ∀ id' d', x.title? = some (id', d') →
        id' ∉ w₀.instances.keys ∧ (w.definitions.insert id d).get? id' = some d') ?_ ?_
      · rintro id' d' ⟨⟩
        refine ⟨fun hfirst => hunstored ((h.stored id).2 (.inl hfirst)), ?_⟩
        rw [Dict.get?_insert, if_pos rfl]
      · intro m hm id' d' htitle
        obtain ⟨hfresh, hd'⟩ := h.titled m id' d' htitle
        rw [Dict.get?_insert, if_neg (hother hd')]
        exact ⟨hfresh, hd'⟩
    kept := fun id' d' hd' => by
      have hd' := h.kept id' d' hd'
      show (w.definitions.insert id d).get? id' = some d'
      rw [Dict.get?_insert, if_neg (hother hd')]
      exact hd' }

theorem Claims.replace (h : Claims w₀ hold w) (hi : w.instances.get? id = some i) :
    Claims w₀ hold (w.setInstance id j) := by
  have hkeys : (w.setInstance id j).instances.keys = w.instances.keys := by
    show (w.instances.insert id j).keys = _
    rw [Dict.keys_insert, if_pos (Dict.mem_keys.2 ⟨i, hi⟩)]
  exact {
    tables := hkeys.trans h.tables
    nodup := h.nodup
    reserved := by rw [hkeys]; exact h.reserved
    unstored := by rw [hkeys]; exact h.unstored
    sole := h.sole
    stored := by rw [hkeys]; exact h.stored
    titled := h.titled
    kept := h.kept }

/-- **Ids stay claimed in order**, whatever change is made. -/
theorem Claims.change (h : Claims w₀ hold w) (hx : hold n = x.hold)
    (hc : Change lock x w x' w') : Claims w₀ (Function.update hold n x'.hold) w' := by
  have hsame : Function.update hold n x.hold = hold := hx ▸ Function.update_eq_self n hold
  cases hc with
  | work hw => exact hsame.symm ▸ h.same hw
  | take hw => exact hsame.symm ▸ h.same hw
  | offer id hw => exact hsame.symm ▸ h.same hw
  | reserve d hseeker hid => exact h.reserve (hx.trans hseeker) hid
  | free hholder => exact h.free (hx.trans hholder)
  | store hholder => exact h.store (hx.trans hholder)
  | replace _ hi => exact hsame.symm ▸ h.replace hi

/-- Only who has the lock of an id replaces the snapshot there. -/
theorem Claims.seen (h : Claims w₀ hold w) (hx : hold n = x.hold) (hc : Change lock x w x' w')
    {other : Option String} (hother : other = none ∨ other ≠ lock) : Seen other w w' := by
  rintro key rfl i hi
  have hlock : some key ≠ lock := hother.resolve_left nofun
  cases hc with
  | work hw | take hw | offer _ hw => exact hw.instances ▸ hi
  | reserve | free => exact hi
  | @store _ _ _ id d j hholder =>
    have hunstored : id ∉ w.instances.keys :=
      h.unstored n id (by rw [hx, hholder]; rfl)
    have hne : id ≠ key := fun heq => hunstored (Dict.mem_keys.2 ⟨i, heq ▸ hi⟩)
    exact (Dict.get?_insert ..).trans ((if_neg hne).trans hi)
  | @replace _ _ id _ j =>
    have hne : id ≠ key := fun heq => hlock (congrArg some heq.symm)
    exact (Dict.get?_insert ..).trans ((if_neg hne).trans hi)

end Claims

/-- The claims of all stakes. -/
abbrev ClaimsOf (w₀ : EngineState) (g : Nat → Stake) (w : EngineState) : Prop :=
  Claims w₀ (fun n => (g n).hold) w

theorem hold_update (g : Nat → Stake) (n : Nat) (x : Stake) :
    (fun m => (Function.update g n x m).hold) =
      Function.update (fun m => (g m).hold) n x.hold := by
  funext m
  by_cases hm : m = n
  · subst hm
    simp
  · simp [hm]

theorem upholds_claims (live : Nat → Prop) (w₀ : EngineState) :
    rules.Upholds live (ClaimsOf w₀) where
  keeps {g _ n x _ _} _ hw hc := by
    have h := Claims.change (n := n) hw rfl hc
    rwa [← hold_update g n x] at h
  seen {_ _ n _ _ _ _} _ hw hc hother := Claims.seen (n := n) hw rfl hc hother

/-- Before all calls nobody holds an id. -/
theorem claims_first (hw : w.Tidy) {g : Nat → Stake}
    (hg : ∀ n, (g n).hold = .visitor ∨ (g n).hold = .seeker) : ClaimsOf w g w := by
  have hpending : ∀ n, (g n).hold.pending? = none := fun n => by
    rcases hg n with h | h <;> rw [h] <;> rfl
  have htitle : ∀ n, (g n).hold.title? = none := fun n => by
    rcases hg n with h | h <;> rw [h] <;> rfl
  have hid : ∀ n, (g n).hold.id? = none := fun n => by
    rcases hg n with h | h <;> rw [h] <;> rfl
  constructor
  · exact hw.tables
  · exact hw.nodup
  · simpa [hpending] using hw.reserved
  · simp [hpending]
  · simp [hid]
  · simp [htitle]
  · simp [htitle]
  · exact fun _ _ hd => hd

/-- **However their turns are mixed, calls that go by the rules keep the claims.** -/
theorem ruled_claims {α : Type} (hw : w.Tidy) (us : List (Undertaking rules α))
    (hus : ∀ u ∈ us, u.stake.hold = .visitor ∨ u.stake.hold = .seeker) (places : List Nat) :
    ∃ γ, Ruled us γ { hold := .visitor } (fun _ => True) (ClaimsOf w) []
        ((Schedule.start w (us.map Undertaking.call)).turns places) ∧
      ∀ n, γ.begun n = (Schedule.start w (us.map Undertaking.call)).begins n places := by
  let stake (n : Nat) : Stake := (us[n]?).elim { hold := .visitor } Undertaking.stake
  have hhold : ∀ n, (stake n).hold = .visitor ∨ (stake n).hold = .seeker := by
    intro n
    show ((us[n]?).elim _ Undertaking.stake).hold = _ ∨ ((us[n]?).elim _ Undertaking.stake).hold = _
    cases hu : us[n]? with
    | none => exact .inl rfl
    | some u => exact hus u (List.mem_of_getElem? hu)
  have hstart : Ruled us ⟨stake, fun _ => none, fun _ => none⟩ { hold := .visitor } (fun _ => True)
      (ClaimsOf w) [] (Schedule.start w (us.map Undertaking.call)) :=
    Ruled.start us stake (fun _ => rfl) (claims_first hw hhold) fun _ _ => trivial
  obtain ⟨γ, hγ, hbegun⟩ := hstart.turns (upholds_claims _ w) places
  exact ⟨γ, hγ, fun n => (hbegun n).trans (Option.none_or ..)⟩

end Engine

end Workflow
