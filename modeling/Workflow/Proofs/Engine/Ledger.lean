import Workflow.Proofs.Engine.Chronicle
import Workflow.Proofs.Schedule.Accord

/-!
# The ledger of an engine

The chronicle tells the tables of an engine: what is stored under an id, by the entries about it
(`Engine.stored`), and who is to be told (`Engine.enrolled`). And each of its entries is possible
after the ones before it (`Deed.Possible`): a dispatch, say, is one of the snapshot that was stored
when it was made.

**Posts** (`Engine.Post`). The stake of a call: which id it holds as a start, how far it has come
with the lock of an instance, and the entries that it has made.

**The ledger** (`Engine.Ledger`). All posts, the tables and the chronicle fit together. Calls change
them in three ways: they take a new post (`Ledger.post`), work on contexts (`Ledger.same`), and make
an entry with what goes along with it (`Ledger.enter`).

The accord of the calls on an engine (`Engine.bookkeeping`) is that the ledger is in order whenever
a turn is over.
-/

namespace Workflow

open Activity

/-! ## What entries tell -/

namespace Deed

/-- The snapshot that was stored. -/
def stores? : Deed → Option Instance
  | .started i => some i
  | .dispatched _ _ out => some out.reached
  | .recontexted _ after => some after
  | _ => none

/-- The stored snapshot that the work was done on. -/
def before? : Deed → Option Instance
  | .dispatched _ before _ | .asked _ before _ | .recontexted before _ | .gaveUp before _ =>
    some before
  | _ => none

/-- The observers after the deed. -/
def enroll (names : List String) : Deed → List String
  | .subscribed name => names ++ [name]
  | .unsubscribed name => names.erase name
  | _ => names

/-- The deed is possible under an id, given the definition and the snapshot that are stored
there. -/
def Possible (e : Engine) (id : String) (d : Option Definition) (found : Option Instance) :
    Deed → Prop
  | .started i =>
    found = none ∧ ∃ d' c, d = some d' ∧ (d'.startAndSettle e.limits c (some id)).CanEnd (.ok i)
  | .dispatched event before out =>
    found = some before ∧ ∃ d', d = some d' ∧ (before.send d' e.limits event).CanEnd (.ok out)
  | .asked event before fires =>
    found = some before ∧ ∃ d', d = some d' ∧ (before.canFire d' event).CanEnd (.ok fires)
  | .recontexted before after =>
    found = some before ∧ before.isRunning ∧ ∃ c, after = { before with ctx := c }
  | .gaveUp before _ => found = some before
  | _ => True

/-- A call goes on to its end at once after such a deed. -/
def Final : Deed → Prop
  | .started _ => True
  | .gaveUp _ f => ¬ f.isContained
  | _ => False

/-- A deed that has nothing to do with dispatches and those that are told of them. -/
def Silent : Deed → Prop
  | .dispatched _ _ _ | .told _ _ => False
  | _ => True

variable {e : Engine} {id : String} {d d' : Option Definition} {found : Option Instance}
  {x : Deed} {i : Instance}

/-- What is possible stays so when more is defined. -/
theorem Possible.mono (h : x.Possible e id d found) (hd : ∀ a, d = some a → d' = some a) :
    x.Possible e id d' found := by
  cases x with
  | started i =>
    obtain ⟨hfound, a, c, ha, hcan⟩ := h
    exact ⟨hfound, a, c, hd a ha, hcan⟩
  | dispatched event before out =>
    obtain ⟨hfound, a, ha, hcan⟩ := h
    exact ⟨hfound, a, hd a ha, hcan⟩
  | asked event before fires =>
    obtain ⟨hfound, a, ha, hcan⟩ := h
    exact ⟨hfound, a, hd a ha, hcan⟩
  | _ => exact h

/-- Work is done on the snapshot that is stored. -/
theorem Possible.before (h : x.Possible e id d found) (hi : x.before? = some i) :
    found = some i := by
  cases x <;> cases hi
  · exact h.1
  · exact h.1
  · exact h.1
  · exact h

end Deed

/-- The snapshot that an entry stores under an id. -/
def Entry.stores? (id : String) (x : Entry) : Option Instance :=
  if x.id = some id then x.deed.stores? else none

theorem Entry.stores?_some (n : Nat) (id : String) (y : Deed) (id' : String) :
    (⟨n, some id, y⟩ : Entry).stores? id' = if id = id' then y.stores? else none := by
  simp [Entry.stores?]

namespace Engine

/-- The snapshot under an id after these entries. -/
def stored (w : EngineState) (id : String) (log : List Entry) : Option Instance :=
  log.foldl (fun found x => (x.stores? id).or found) (w.instances.get? id)

/-- The observers after these entries. -/
def enrolled (w : EngineState) (log : List Entry) : List String :=
  log.foldl (fun names x => x.deed.enroll names) w.observers

/-- Each entry is possible after the ones before it, where `w₀` was the state before all of them
and `w` has the definitions. -/
def Legal (e : Engine) (w₀ w : EngineState) (log : List Entry) : Prop :=
  ∀ log₁ x log₂ id, log = log₁ ++ x :: log₂ → x.id = some id →
    x.deed.Possible e id (w.definitions.get? id) (stored w₀ id log₁)

section Reading

variable {e : Engine} {w₀ w w' : EngineState} {id : String} {log log' : List Entry} {x : Entry}
  {i : Instance}

@[simp] theorem stored_nil : stored w₀ id [] = w₀.instances.get? id := rfl

@[simp] theorem stored_concat :
    stored w₀ id (log ++ [x]) = (x.stores? id).or (stored w₀ id log) := by
  simp [stored]

@[simp] theorem enrolled_nil : enrolled w₀ [] = w₀.observers := rfl

@[simp] theorem enrolled_concat :
    enrolled w₀ (log ++ [x]) = x.deed.enroll (enrolled w₀ log) := by
  simp [enrolled]

/-- Entries that store nothing under an id leave the snapshot there. -/
theorem stored_append_of_none (h : ∀ x ∈ log', x.stores? id = none) :
    stored w₀ id (log ++ log') = stored w₀ id log := by
  induction log' using List.reverseRecOn with
  | nil => rw [List.append_nil]
  | append_singleton log' x ih =>
    have hx : x.stores? id = none := h x (by simp)
    rw [← List.append_assoc, stored_concat, hx, Option.none_or]
    exact ih fun y hy => h y (by simp [hy])

/-- A list with one more element at the end is split there or before. -/
theorem concat_eq_append_cons {α : Type} {l l₁ l₂ : List α} {a b : α}
    (h : l ++ [a] = l₁ ++ b :: l₂) :
    (l₁ = l ∧ b = a ∧ l₂ = []) ∨ ∃ l₃, l = l₁ ++ b :: l₃ ∧ l₂ = l₃ ++ [a] := by
  induction l₂ using List.reverseRecOn with
  | nil =>
    obtain ⟨hl, ha⟩ := List.append_inj' h rfl
    exact .inl ⟨hl.symm, (List.singleton_inj.1 ha).symm, rfl⟩
  | append_singleton l₃ c _ =>
    rw [← List.cons_append, ← List.append_assoc] at h
    obtain ⟨hl, ha⟩ := List.append_inj' h rfl
    exact .inr ⟨l₃, hl, by rw [List.singleton_inj.1 ha]⟩

theorem Legal.nil : Legal e w₀ w [] := fun log₁ x log₂ id h => by
  cases log₁ <;> cases h

/-- One more entry that is possible now. -/
theorem Legal.concat (h : Legal e w₀ w log)
    (hx : ∀ id, x.id = some id → x.deed.Possible e id (w.definitions.get? id) (stored w₀ id log)) :
    Legal e w₀ w (log ++ [x]) := by
  intro log₁ y log₂ id hsplit hid
  rcases concat_eq_append_cons hsplit with ⟨rfl, rfl, -⟩ | ⟨log₃, rfl, -⟩
  · exact hx id hid
  · exact h log₁ y log₃ id rfl hid

theorem Legal.of_concat (h : Legal e w₀ w (log ++ [x])) : Legal e w₀ w log := by
  intro log₁ y log₂ id hsplit hid
  exact h log₁ y (log₂ ++ [x]) id (by rw [hsplit, List.append_assoc, List.cons_append]) hid

theorem Legal.mono (h : Legal e w₀ w log)
    (hd : ∀ id d, w.definitions.get? id = some d → w'.definitions.get? id = some d) :
    Legal e w₀ w' log :=
  fun log₁ x log₂ id hsplit hid => (h log₁ x log₂ id hsplit hid).mono fun d => hd id d

end Reading

/-! ## Posts -/

/-- How far a call has come with an instance. -/
inductive Standing where
  | outside
  /-- It knows the definition, and is to get the lock. -/
  | before (id : String) (d : Definition)
  /-- It has the lock, and has found a snapshot. -/
  | inside (id : String) (d : Definition) (i : Instance)

/-- What a call knows is so. -/
def Standing.Sees (w : EngineState) : Standing → Prop
  | .outside => True
  | .before id d => w.definitions.get? id = some d
  | .inside id d i => w.definitions.get? id = some d ∧ w.instances.get? id = some i

/-- The stake of a call. -/
structure Post where
  hold : Hold
  standing : Standing := .outside
  /-- The entries that it has made. -/
  deeds : List Entry := []

namespace Post

/-- The lock that the call keeps while others have their turns. -/
def lock (x : Post) : Option String :=
  match x.standing with
  | .inside id _ _ => some id
  | .outside | .before _ _ => none

/-- No deed was the last one. -/
def Live (x : Post) : Prop := ∀ y ∈ x.deeds, ¬ y.deed.Final

/-- The post with one more entry. -/
def noted (x : Post) (y : Entry) : Post := { x with deeds := x.deeds ++ [y] }

@[simp] theorem noted_hold (x : Post) (y : Entry) : (x.noted y).hold = x.hold := rfl

@[simp] theorem noted_standing (x : Post) (y : Entry) : (x.noted y).standing = x.standing := rfl

@[simp] theorem noted_deeds (x : Post) (y : Entry) : (x.noted y).deeds = x.deeds ++ [y] := rfl

end Post

/-! ## The ledger -/

/-- Posts, tables and entries fit together, where `w₀` was the state before all calls. -/
structure Ledger (e : Engine) (w₀ : EngineState) (g : Nat → Post) (w : EngineState)
    (log : List Entry) : Prop where
  claims : Claims w₀ (fun n => (g n).hold) w
  sees : ∀ n, (g n).standing.Sees w
  snapshots : ∀ id, w.instances.get? id = stored w₀ id log
  observers : w.observers = enrolled w₀ log
  legal : Legal e w₀ w log
  own : ∀ n, log.filter (fun x => x.caller = n) = (g n).deeds

namespace Ledger

variable {e : Engine} {w₀ w w' : EngineState} {g : Nat → Post} {log : List Entry} {n : Nat}
  {x x' : Post} {y : Entry}

/-- The tables are as they were. -/
theorem same (h : Ledger e w₀ g w log) (hw : SameTables w w')
    (hobservers : w'.observers = w.observers) : Ledger e w₀ g w' log where
  claims := h.claims.same hw
  sees n := by
    have hn := h.sees n
    revert hn
    cases (g n).standing <;> simp [Standing.Sees, hw.instances, hw.definitions]
  snapshots id := by rw [hw.instances, h.snapshots]
  observers := hobservers.trans h.observers
  legal := h.legal.mono fun id d hd => by rwa [hw.definitions]
  own := h.own

theorem hold_update : (fun m => (Function.update g n x m).hold) =
    Function.update (fun m => (g m).hold) n x.hold :=
  Function.comp_update (f := Post.hold) g n x

/-- The claims, with that of one call told apart. -/
theorem claims_update (h : Ledger e w₀ (Function.update g n x) w log) :
    Claims w₀ (Function.update (fun m => (g m).hold) n x.hold) w := by
  have hclaims := h.claims
  rwa [hold_update] at hclaims

theorem sees_update (h : Ledger e w₀ (Function.update g n x) w log) : x.standing.Sees w := by
  have hsees := h.sees n
  rwa [Function.update_self] at hsees

/-- A call takes another post. Ids may be reserved or given up with it. -/
theorem post (h : Ledger e w₀ (Function.update g n x) w log)
    (hclaims : Claims w₀ (Function.update (fun m => (g m).hold) n x'.hold) w')
    (hinstances : w'.instances = w.instances) (hdefinitions : w'.definitions = w.definitions)
    (hobservers : w'.observers = w.observers) (hx : x'.standing.Sees w')
    (hdeeds : x'.deeds = x.deeds) : Ledger e w₀ (Function.update g n x') w' log where
  claims := by rwa [hold_update]
  sees := by
    refine forall_update (P := fun _ (y : Post) => y.standing.Sees w') hx fun m hm => ?_
    have hsees := h.sees m
    rw [Function.update_of_ne hm] at hsees
    revert hsees
    cases (g m).standing <;> simp [Standing.Sees, hinstances, hdefinitions]
  snapshots id := by rw [hinstances, h.snapshots]
  observers := hobservers.trans h.observers
  legal := h.legal.mono fun id d hd => by rwa [hdefinitions]
  own m := by
    have hown := h.own m
    by_cases hm : m = n
    · subst hm
      rw [Function.update_self] at hown ⊢
      rw [hown, hdeeds]
    · rwa [Function.update_of_ne hm] at hown ⊢

/-- **A call makes an entry**, with the changes that the entry tells of. Nobody else has the lock of
an id whose snapshot is replaced. -/
theorem enter (h : Ledger e w₀ (Function.update g n x) w log)
    (hclaims : Claims w₀ (Function.update (fun m => (g m).hold) n x'.hold) w')
    (hinstances : ∀ id, w'.instances.get? id = (y.stores? id).or (w.instances.get? id))
    (hdefinitions : ∀ id d, w.definitions.get? id = some d → w'.definitions.get? id = some d)
    (hobservers : w'.observers = y.deed.enroll w.observers) (hx : x'.standing.Sees w')
    (hcaller : y.caller = n) (hdeeds : x'.deeds = x.deeds ++ [y])
    (hothers : ∀ m, m ≠ n → ∀ id, (g m).lock = some id → y.stores? id = none)
    (hpossible : ∀ id, y.id = some id →
      y.deed.Possible e id (w'.definitions.get? id) (w.instances.get? id)) :
    Ledger e w₀ (Function.update g n x') w' (log ++ [y]) where
  claims := by rwa [hold_update]
  sees := by
    refine forall_update (P := fun _ (y : Post) => y.standing.Sees w') hx fun m hm => ?_
    have hsees := h.sees m
    rw [Function.update_of_ne hm] at hsees
    have hlock := hothers m hm
    unfold Post.lock at hlock
    revert hsees hlock
    cases (g m).standing with
    | outside => exact fun _ _ => trivial
    | before id d => exact fun hd _ => hdefinitions id d hd
    | inside id d i =>
      intro ⟨hd, hi⟩ hlock
      refine ⟨hdefinitions id d hd, ?_⟩
      rw [hinstances, hlock id rfl, Option.none_or]
      exact hi
  snapshots id := by rw [stored_concat, ← h.snapshots, hinstances]
  observers := by rw [enrolled_concat, ← h.observers, hobservers]
  legal := by
    refine (h.legal.mono hdefinitions).concat fun id hid => ?_
    rw [← h.snapshots]
    exact hpossible id hid
  own m := by
    have hown := h.own m
    rw [List.filter_append, hown]
    by_cases hm : m = n
    · subst hm
      simp [hcaller, hdeeds]
    · have hother : y.caller ≠ m := fun heq => hm (heq.symm.trans hcaller)
      simp [hm, hother]

/-- An entry by which nothing is stored. -/
theorem note (h : Ledger e w₀ (Function.update g n x) w log) (hcaller : y.caller = n)
    (hstores : y.deed.stores? = none)
    (hpossible : ∀ id, y.id = some id →
      y.deed.Possible e id (w.definitions.get? id) (w.instances.get? id)) :
    Ledger e w₀ (Function.update g n (x.noted y))
      { w with observers := y.deed.enroll w.observers } (log ++ [y]) := by
  have hnone : ∀ id, y.stores? id = none := by
    intro id
    unfold Entry.stores?
    split
    · exact hstores
    · rfl
  have hsame : SameTables w { w with observers := y.deed.enroll w.observers } := ⟨rfl, rfl, rfl⟩
  refine h.enter (h.claims_update.same hsame) (fun id => ?_) (fun _ _ hd => hd) rfl h.sees_update
    hcaller rfl (fun _ _ id _ => hnone id) hpossible
  rw [hnone, Option.none_or]

/-! ## Work under the lock of an instance -/

section Inside

variable {id : String} {d : Definition} {before : Instance} {deed : Deed}

/-- A call that knows the definition gets the lock, and finds a snapshot. -/
theorem goIn (h : Ledger e w₀ (Function.update g n { x with standing := .before id d }) w log) :
    ∃ before, w.instances.get? id = some before ∧
      Ledger e w₀ (Function.update g n { x with standing := .inside id d before }) w log := by
  have hd : w.definitions.get? id = some d := h.sees_update
  have hmem : id ∈ w.instances.keys := h.claims.tables ▸ Dict.mem_keys.2 ⟨d, hd⟩
  obtain ⟨before, hbefore⟩ := Dict.mem_keys.1 hmem
  exact ⟨before, hbefore, h.post h.claims_update rfl rfl rfl ⟨hd, hbefore⟩ rfl⟩

/-- What is stored after work on a snapshot. -/
def storing (id : String) : Option Instance → EngineState → EngineState
  | some j => EngineState.setInstance id j
  | none => fun w => w

/-- A call that has the lock makes its entry, stores what the entry tells of, and leaves. -/
theorem leave (h : Ledger e w₀ (Function.update g n { x with standing := .inside id d before }) w log)
    (hx : x.standing = .outside) (hothers : ∀ m, m ≠ n → (g m).lock ≠ some id)
    (henroll : ∀ names, deed.enroll names = names)
    (hpossible : deed.Possible e id (some d) (some before)) :
    Ledger e w₀ (Function.update g n (x.noted ⟨n, some id, deed⟩)) (storing id deed.stores? w)
      (log ++ [⟨n, some id, deed⟩]) := by
  obtain ⟨hd, hbefore⟩ := h.sees_update
  have hdefinitions : (storing id deed.stores? w).definitions = w.definitions := by
    cases deed.stores? <;> rfl
  refine h.enter ?_ ?_ ?_ ?_ ?_ rfl rfl ?_ ?_
  · cases deed.stores? with
    | none => exact h.claims_update
    | some j => exact h.claims_update.replace hbefore
  · intro id'
    rw [Entry.stores?_some]
    cases deed.stores? with
    | none => simp [storing]
    | some j =>
      by_cases hid : id = id' <;> simp [storing, EngineState.setInstance, Dict.get?_insert, hid]
  · intro id' d' hd'
    rwa [hdefinitions]
  · rw [henroll]
    cases deed.stores? <;> rfl
  · rw [Post.noted_standing, hx]
    trivial
  · intro m hm id' hid'
    rw [Entry.stores?_some, if_neg]
    rintro rfl
    exact hothers m hm hid'
  · intro id' hid'
    cases hid'
    rw [hdefinitions, hd, hbefore]
    exact hpossible

end Inside

/-! ## Starts -/

section Starts

variable {id : String} {d : Definition} {i : Instance} {c : Context} {f : Failure}

/-- An id that is free is reserved. -/
theorem reserve (h : Ledger e w₀ (Function.update g n x) w log) (hx : x.hold = .seeker)
    (hstanding : x.standing = .outside) (hid : id ∉ w.reserved) :
    Ledger e w₀ (Function.update g n { x with hold := .holder id d }) (w.reserve id) log := by
  have hclaims := h.claims_update.reserve (n := n) (d := d) (by rw [Function.update_self, hx]) hid
  rw [Function.update_idem] at hclaims
  refine h.post hclaims rfl rfl rfl ?_ rfl
  show x.standing.Sees _
  rw [hstanding]
  trivial

/-- Under its reserved id an instance is stored. -/
theorem start (h : Ledger e w₀ (Function.update g n { x with hold := .holder id d }) w log)
    (hx : x.standing = .outside) (hi : (d.startAndSettle e.limits c (some id)).CanEnd (.ok i)) :
    Ledger e w₀
      (Function.update g n ({ x with hold := .owner id d }.noted ⟨n, some id, .started i⟩))
      (w.store id d i) (log ++ [⟨n, some id, .started i⟩]) := by
  have hhold : Function.update (fun m => (g m).hold) n (Hold.holder id d) n = .holder id d :=
    Function.update_self ..
  have hunstored : id ∉ w.instances.keys :=
    h.claims_update.unstored n id (by simp)
  have hnone : w.instances.get? id = none := by
    cases hget : w.instances.get? id with
    | none => rfl
    | some j => exact absurd (Dict.mem_keys.2 ⟨j, hget⟩) hunstored
  have hclaims := h.claims_update.store (n := n) (i := i) hhold
  rw [Function.update_idem] at hclaims
  have hdefinition : (w.store id d i).definitions.get? id = some d := by
    simp [EngineState.store, Dict.get?_insert]
  refine h.enter hclaims ?_ ?_ rfl ?_ rfl rfl ?_ ?_
  · intro id'
    rw [Entry.stores?_some]
    by_cases hid : id = id' <;> simp [EngineState.store, Dict.get?_insert, Deed.stores?, hid]
  · intro id' d' hd'
    have hne : id ≠ id' := by
      rintro rfl
      exact hunstored (h.claims.tables ▸ Dict.mem_keys.2 ⟨d', hd'⟩)
    simpa [EngineState.store, Dict.get?_insert, hne] using hd'
  · show x.standing.Sees _
    rw [hx]
    trivial
  · intro m hm id' hid'
    rw [Entry.stores?_some, if_neg]
    rintro rfl
    have hsees := h.sees m
    rw [Function.update_of_ne hm] at hsees
    unfold Post.lock at hid'
    revert hid' hsees
    cases (g m).standing with
    | outside | before =>
      intro hid'
      cases hid'
    | inside id' d' j =>
      intro hid' hsees
      cases hid'
      rw [hsees.2] at hnone
      cases hnone
  · intro id' hid'
    cases hid'
    exact ⟨hnone, d, c, hdefinition, hi⟩

/-- The reserved id is given up. -/
theorem giveUp (h : Ledger e w₀ (Function.update g n { x with hold := .holder id d }) w log)
    (hx : x.standing = .outside) :
    Ledger e w₀
      (Function.update g n ({ x with hold := .seeker }.noted ⟨n, some id, .unstarted f⟩))
      (w.free id) (log ++ [⟨n, some id, .unstarted f⟩]) := by
  have hhold : Function.update (fun m => (g m).hold) n (Hold.holder id d) n = .holder id d :=
    Function.update_self ..
  have hclaims := h.claims_update.free (n := n) hhold
  rw [Function.update_idem] at hclaims
  have hstores : ∀ id', (⟨n, some id, .unstarted f⟩ : Entry).stores? id' = none := fun id' => by
    rw [Entry.stores?_some]
    exact ite_self _
  refine h.enter hclaims ?_ (fun _ _ hd => hd) rfl ?_ rfl rfl (fun _ _ id' _ => hstores id')
    fun _ _ => trivial
  · intro id'
    rw [hstores, Option.none_or]
    rfl
  · show x.standing.Sees _
    rw [hx]
    trivial

end Starts

end Ledger

/-- The calls on an engine keep a ledger; whenever a turn is over, something may hold of the
chronicle besides. -/
def bookkeeping (e : Engine) (w₀ : EngineState) (besides : List Entry → Prop) :
    Accord Realm.chronicled where
  Stake := Post
  lock := Post.lock
  live := Post.Live
  fact g w log := Ledger e w₀ g w (marks log) ∧ besides (marks log)
  signals _ := True
  resumes := trivial

end Engine

end Workflow
