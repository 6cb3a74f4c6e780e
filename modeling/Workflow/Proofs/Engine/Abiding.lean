import Workflow.Proofs.Engine.Linear
import Workflow.Proofs.Engine.Sound
import Workflow.Proofs.Engine.Stakes

/-!
# Calls that go by the rules

Each call on an engine goes by `Engine.rules`, wherever it begins and whatever hooks, updaters and
observers do.

**Visitors** (`Serves`). Events, questions and changes of contexts keep their stakes. What they
change of an instance they change while they hold its lock, and while it is running.

**Starts** (`Bid`). A start asks for a definition and for an id. Once it has the id, it has it
wherever others come in, and it ends with its instance stored under that id, or with the id given
up. The context that it works on is the given one, or else one that it makes when it begins.
-/

namespace Workflow

open Activity

namespace Engine

variable {e : Engine} {lock : Option String} {x : Stake} {w : EngineState} {id : String}
  {α β : Type}

/-! ## Visitors -/

/-- The call goes by the rules, and has the same lock and the same stake in the end. -/
def Serves (lock : Option String) (x : Stake) (w : EngineState) (t : Call α) : Prop :=
  t.Abides rules (· = x) (fun lock' y _ _ => lock' = lock ∧ y = x) lock x w

theorem Serves.done (a : α) : Serves lock x w (.done a) := ⟨rfl, rfl⟩

theorem Serves.fail (f : Failure) : Serves lock x w (.fail f : Call α) := ⟨rfl, rfl⟩

theorem Serves.look {k : EngineState → Call α} (h : Serves lock x w (k w)) :
    Serves lock x w (.look k) :=
  h

theorem Serves.ofExcept (r : Except Failure α) : Serves lock x w (Activity.ofExcept r) :=
  Abides.ofExcept ⟨rfl, rfl⟩

theorem Serves.bind {t : Call α} {g : α → Call β} (ht : Serves lock x w t)
    (hg : ∀ a v, Serves lock x v (g a)) : Serves lock x w (t.bind g) := by
  refine Abides.bind ht (fun _ _ a v h => ?_) fun _ _ _ _ h => h
  obtain ⟨rfl, rfl⟩ := h
  exact hg a v

theorem Serves.attempt {t : Call α} {g : Except Failure α → Call β} (ht : Serves lock x w t)
    (hg : ∀ r v, Serves lock x v (g r)) : Serves lock x w (t.attempt.bind g) := by
  refine Abides.attempt ht fun _ _ r v h => ?_
  obtain ⟨rfl, rfl⟩ := h
  exact hg r v

theorem Serves.contained {t : Call α} (ht : Serves lock x w t) : Serves lock x w t.contained :=
  Abides.contained ht (fun _ _ _ _ h => h) fun _ _ _ _ h => h

/-- A change of the registry or of the observers. -/
theorem Serves.update {f : EngineState → EngineState} {next : Call α} (hw : SameTables w (f w))
    (henv : (f w).env = w.env) (hnext : Serves lock x (f w) next) :
    Serves lock x w (.update f next) :=
  ⟨x, .work hw (.of_contexts (congrArg (·.contexts) henv)), hnext⟩

theorem Serves.locked {t : Call α} (ht : ∀ v, Serves (some id) x v t) :
    Serves none x w (Activity.locked id t) :=
  Abides.locked rfl fun v _ => Abides.mono (ht v) fun _ _ _ _ h => ⟨h.1, rfl, h.2⟩

theorem serves_yield : Serves lock x w Activity.yield := by
  refine ⟨rfl, fun v _ signal => ?_⟩
  cases signal with
  | resume => exact Serves.done ()
  | cancel => exact Serves.fail _

theorem serves_known (id : String) (table : EngineState → Dict String α) :
    Serves lock x w (known id table) := by
  refine Serves.look ?_
  split
  · exact .done _
  · exact .fail _

theorem alters_known {G : EngineState → EngineState → Prop} (id : String)
    (table : EngineState → Dict String α) : (known id table).Alters G := by
  intro w
  dsimp only
  split <;> trivial

/-- What is done with the snapshot that is stored now. -/
theorem serves_instanceOf {g : Instance → Call α}
    (hg : ∀ i, w.instances.get? id = some i → Serves lock x w (g i)) :
    Serves lock x w ((instanceOf id).bind g) := by
  refine Serves.look ?_
  dsimp only
  split
  next i hi => exact hg i hi
  · exact .fail _

theorem serves_changeRegistry (f : Registry → Except Failure α × Registry) :
    Serves lock x w (changeRegistry f) :=
  Serves.look (Serves.update ⟨rfl, rfl, rfl⟩ rfl (.ofExcept _))

theorem serves_askRegistry (f : Registry → Except Failure α) :
    Serves lock x w (askRegistry f) :=
  Serves.look (Serves.ofExcept _)

theorem serves_subscribe (name : String) : Serves lock x w (subscribe name) :=
  Serves.update ⟨rfl, rfl, rfl⟩ rfl (.done ())

theorem serves_unsubscribe (name : String) : Serves lock x w (unsubscribe name) :=
  Serves.update ⟨rfl, rfl, rfl⟩ rfl (.done ())

theorem serves_logOf (id : String) : Serves lock x w (logOf id) :=
  (serves_known id _).bind fun _ _ => (serves_known id _).bind fun _ _ => .ofExcept _

theorem serves_list (status : Option Status) : Serves lock x w (list status) :=
  Serves.look (Serves.done _)

/-! ## Under the lock of an instance -/

section Locked

variable {i j : Instance} {c : Context}

/-- While the lock of a running instance is held, an operation on its context leaves the stored
snapshot. -/
theorem within_abides {t : Activity Realm.flow α} (ht : Touches c t)
    (hi : w.instances.get? id = some i) (hrunning : i.isRunning)
    (hc : c.arena = i.ctx.arena) :
    (within t).Abides rules (· = x) (fun lock y r v => lock = some id ∧ y = x ∧
      v.instances.get? id = some i ∧ ∀ a, r = .ok a → t.CanEnd (.ok a)) (some id) x w := by
  refine Abides.lift ht rfl (fun v s hv hs => ?_) fun r v hv hr => ⟨rfl, rfl, hv id rfl i hi, hr⟩
  have hsame : SameTables v (Realm.flowIn.put s v) := ⟨rfl, rfl, rfl⟩
  refine ⟨.work hsame (hs.mono fun n hn => .inr ?_), hsame.seen _⟩
  exact ⟨id, i, rfl, hv id rfl i hi, hrunning, hn ▸ hc.symm⟩

/-- The snapshot under the lock is replaced. -/
theorem serves_setInstance (hx : x.hold = .visitor) (hi : w.instances.get? id = some i)
    (hkept : i.isRunning ∨ j = i)
    (hctx : j.ctx.arena = i.ctx.arena ∨ (id, j.ctx.arena) ∈ x.offers) (a : α) :
    Serves (some id) x w (.update (EngineState.setInstance id j) (.done a)) :=
  ⟨x, .replace hx hi hkept hctx, rfl, rfl⟩

theorem serves_dispatch (hx : x.hold = .visitor) (event : String) :
    Serves none x w (e.dispatch id event) := by
  refine (serves_known id _).bind fun d v => Serves.locked fun v => ?_
  refine serves_instanceOf fun before hbefore => ?_
  by_cases hrunning : before.isRunning
  · refine Abides.bind (within_abides (Instance.touches_send d e.limits before event) hbefore
      hrunning rfl) (fun lock y out u h => ?_) fun _ _ _ _ h => ⟨h.1, h.2.1⟩
    obtain ⟨rfl, rfl, hu, hout⟩ := h
    exact serves_setInstance hx hu (.inl hrunning)
      (.inl (congrArg (·.arena) (Instance.send_ctx (hout out rfl)))) _
  · -- An instance that is finished is left as it is.
    rw [Instance.send_of_finished hrunning]
    exact serves_setInstance hx hbefore (.inr rfl) (.inl rfl) _

theorem serves_canFire (event : String) : Serves none x w (e.canFire id event) := by
  refine (serves_known id _).bind fun d v => Serves.locked fun v => ?_
  refine serves_instanceOf fun i hi => ?_
  by_cases hrunning : i.isRunning
  · exact Abides.mono (within_abides (Instance.touches_canFire d i event) hi hrunning rfl)
      fun _ _ _ _ h => ⟨h.1, h.2.1⟩
  · rw [Instance.canFire_of_finished hrunning]
    exact .done false

/-- Both ways to change a context. -/
theorem serves_replaceContext (hx : x.hold = .visitor) {f : Context → Activity Realm.flow Context}
    (hf : ∀ c, Touches c (f c))
    (hctx : ∀ c c', (f c).CanEnd (.ok c') → c'.arena = c.arena ∨ (id, c'.arena) ∈ x.offers) :
    Serves none x w (replaceContext id f) := by
  refine (serves_known id _).bind fun d v => Serves.locked fun v => ?_
  unfold runningInstance
  rw [Activity.bind_assoc]
  refine serves_instanceOf fun i hi => ?_
  split
  next hrunning =>
    show Serves (some id) x v ((within (f i.ctx)).bind fun c => _)
    refine Abides.bind (within_abides (hf i.ctx) hi hrunning rfl) (fun lock y c u h => ?_)
      fun _ _ _ _ h => ⟨h.1, h.2.1⟩
    obtain ⟨rfl, rfl, hu, hc⟩ := h
    exact serves_setInstance hx hu (.inl hrunning) (hctx _ c (hc c rfl)) _
  · exact .fail _

/-- An updater changes at most the arena of the context, in which its copy lies as well. -/
theorem touches_copy (updater : Datum → Activity Realm.hook HookAnswer) (c : Context) :
    Touches c ((copyContext c).bind fun copy =>
      ((updater copy.root).awaited.lift (Realm.hookIn copy.arena)).bind fun _ => .done copy) := by
  have hcopy : Touches c (copyContext c) := fun _ => ⟨fun _ => .setArena rfl, trivial⟩
  refine hcopy.bind fun copy hc => ?_
  obtain ⟨v, hc⟩ := hc
  cases hc
  exact Alters.bind (Alters.lift Empty.elim (fun _ _ => .setArena rfl) _) fun _ _ => trivial

theorem serves_updateContext (hx : x.hold = .visitor)
    (updater : Datum → Activity Realm.hook HookAnswer) :
    Serves none x w (updateContext id updater) := by
  refine serves_replaceContext hx (touches_copy updater) fun c c' h => .inl ?_
  obtain ⟨copy, ⟨v, hcopy⟩, h⟩ := canEnd_bind_ok h
  cases hcopy
  obtain ⟨-, -, h⟩ := canEnd_bind_ok h
  cases h
  rfl

theorem serves_setContext (hx : x.hold = .visitor) {c : Context}
    (hc : (id, c.arena) ∈ x.offers) : Serves none x w (setContext id c) := by
  refine serves_replaceContext hx (fun _ => trivial) fun _ c' h => .inr ?_
  cases h
  exact hc

end Locked

/-! ## Observers -/

theorem serves_perform {send : String → String → Call Dispatch}
    (hsend : ∀ id event v, Serves none x v (send id event)) (r : Reaction) :
    Serves none x w (perform send r) := by
  induction r generalizing w with
  | done => exact .done ()
  | fail f => exact .fail f
  | note v next ih => exact ih
  | yield next ih => exact serves_yield.bind fun _ _ => ih
  | subscribe name next ih => exact .update ⟨rfl, rfl, rfl⟩ rfl ih
  | unsubscribe name next ih => exact .update ⟨rfl, rfl, rfl⟩ rfl ih
  | send id event k ih => exact (hsend id event w).bind fun outcome _ => ih outcome

theorem serves_tellAll {send : String → String → Call Dispatch}
    (hsend : ∀ id event v, Serves none x v (send id event)) (n : Notice) (names : List String) :
    Serves none x w (e.tellAll send n names) := by
  induction names generalizing w with
  | nil => exact .done ()
  | cons name rest ih =>
    refine (serves_perform hsend _).contained.bind fun r _ => ?_
    cases r <;> exact ih

theorem serves_announce {send : String → String → Call Dispatch}
    (hsend : ∀ id event v, Serves none x v (send id event)) (event : String) (before : Instance)
    (outcome : Dispatch) : Serves none x w (e.announce send event before outcome) := by
  unfold announce
  split
  · exact serves_tellAll hsend _ w.observers
  · exact .done ()

/-- **Events go by the rules**, with all that observers send on. -/
theorem serves_send (hx : x.hold = .visitor) (id event : String) :
    Serves none x w (e.send id event) := by
  have hwithin : ∀ depth id event v, Serves none x v (e.sendWithin depth id event) := by
    intro depth
    induction depth with
    | zero => exact fun _ _ _ => .fail _
    | succ depth ih =>
      refine fun id event v => (serves_dispatch hx event).bind fun out _ => ?_
      exact (serves_announce ih event _ _).bind fun _ _ => .done _
  exact hwithin _ id event w

/-- What a request may put under its id. -/
def Request.offers (id : String) : Request → List (String × Nat)
  | .set c => [(id, c.arena)]
  | .send _ | .canFire _ | .update _ => []

theorem serves_request (hx : x.hold = .visitor) (r : Request) (hr : r.offers id ⊆ x.offers) :
    Serves none x w (r.call e id) := by
  cases r with
  | send event => exact (serves_send hx id event).bind fun _ _ => .done _
  | canFire event => exact (serves_canFire (e := e) event).bind fun _ _ => .done _
  | update updater => exact (serves_updateContext hx updater).bind fun _ _ => .done _
  | set c =>
    exact (serves_setContext hx (hr (List.mem_singleton.2 rfl))).bind fun _ _ => .done _

/-! ## Starts -/

/-- What a start asks for: a definition, and an id or none. -/
structure Bid where
  name : Value
  version : Value := .null
  given : Option String := none

namespace Bid

/-- The definition that a start gets if it begins in a world. -/
def definition (b : Bid) (w : EngineState) : Except Failure Definition :=
  w.registry.find b.name b.version

/-- The id that a start asks for if it begins in a world. -/
def idIn (b : Bid) (w : EngineState) : String := b.given.getD (issuedId (w.env.issued + 1))

/-- The start has reserved the id that it asked for. -/
def Holds (b : Bid) (w : EngineState) (x : Stake) : Prop :=
  ∃ d, b.definition w = .ok d ∧ x.hold = .holder (b.idIn w) d

/-- The start has stored an instance under the id that it asked for, or has no id. -/
def Ends (b : Bid) (w : EngineState) (x : Stake) (r : Except Failure Instance) : Prop :=
  (∃ i d, r = .ok i ∧ i.id = b.idIn w ∧ b.definition w = .ok d ∧
    x.hold = .owner (b.idIn w) d) ∨
  ∃ f, r = .error f ∧ x.hold = .seeker

end Bid

/-- An operation on a context that the call has in its hands. -/
theorem within_abides_hands {t : Activity Realm.flow α} {c : Context}
    {during : Stake → Prop} (ht : Touches c t) (hx : during x) (hc : c.arena ∈ x.hands) :
    (within t).Abides rules during (fun lock' y r _ => lock' = lock ∧ y = x ∧
      ∀ a, r = .ok a → t.CanEnd (.ok a)) lock x w := by
  refine Abides.lift ht hx (fun v s _ hs => ?_) fun r v _ hr => ⟨rfl, rfl, hr⟩
  have hsame : SameTables v (Realm.flowIn.put s v) := ⟨rfl, rfl, rfl⟩
  exact ⟨.work hsame (hs.mono fun n hn => .inl (hn ▸ hc)), hsame.seen _⟩

/-- A new context is taken into the hands. -/
theorem newContext_abides {during : Stake → Prop} {g : Context → Call β}
    {P : Option String → Stake → Except Failure β → EngineState → Prop} (v : Value)
    (hg : ∀ (c : Context) w', c.arena = w.env.size →
      (g c).Abides rules during P lock { x with hands := c.arena :: x.hands } w') :
    ((within (newContext v)).bind g).Abides rules during P lock x w :=
  ⟨{ x with hands := w.env.size :: x.hands }, .take ⟨rfl, rfl, rfl⟩ ⟨_, rfl⟩,
    hg ⟨w.env.size, (Arena.store default v).1⟩ _ rfl⟩

section Starts

variable {d : Definition} {c : Option Context} {during : Stake → Prop}

/-- Under its reserved id a start works on its context. It gives the id up if it fails, and
otherwise stores the instance. -/
theorem startReserved_abides
    {P : Option String → Stake → Except Failure Instance → EngineState → Prop}
    (hx : x.hold = .holder id d) (hc : ∀ c', c = some c' → c'.arena ∈ x.hands)
    (hduring : ∀ y, y.hold = .holder id d → y.offers = x.offers →
      (∀ a ∈ y.hands, a ∈ x.hands ∨ c = none ∧ a = w.env.size) → during y)
    (hok : ∀ y i v, i.id = id → y.hold = .owner id d → P none y (.ok i) v)
    (herror : ∀ y f v, y.hold = .seeker → P none y (.error f) v) :
    (e.startReserved d c id).Abides rules during P none x w := by
  let Q (lock : Option String) (y : Stake) (r : Except Failure Instance) (_ : EngineState) : Prop :=
    lock = none ∧ y.hold = .holder id d ∧ ∀ i, r = .ok i → i.id = id ∧ i.ctx.arena ∈ y.hands
  have hsettle : ∀ (c : Context) y v, y.hold = .holder id d → during y → c.arena ∈ y.hands →
      (within (d.startAndSettle e.limits c (some id))).Abides rules during Q none y v := by
    intro c y v hy hyd hc
    refine Abides.mono (within_abides_hands
      (Definition.touches_startAndSettle d e.limits c (some id)) hyd hc) fun lock z r _ h => ?_
    obtain ⟨rfl, rfl, hr⟩ := h
    refine ⟨rfl, hy, fun i hi => ⟨(Instance.Held.started (hr i hi)).id, ?_⟩⟩
    rw [Definition.startAndSettle_ctx (hr i hi)]
    exact hc
  have hwork : Activity.Abides rules during Q none x w
      (within ((contextOrNew c).bind fun c => d.startAndSettle e.limits c (some id))) := by
    cases c with
    | some c => exact hsettle c x w hx (hduring x hx rfl fun a ha => .inl ha) (hc c rfl)
    | none =>
      unfold within
      rw [lift_bind]
      show ((within (newContext (.object []))).bind _).Abides rules during Q none x w
      refine newContext_abides _ fun c v hsize => ?_
      refine hsettle c _ v hx (hduring _ hx rfl fun a ha => ?_) List.mem_cons_self
      rcases List.mem_cons.1 ha with rfl | ha
      · exact .inr ⟨rfl, hsize⟩
      · exact .inl ha
  let Q' (lock : Option String) (y : Stake) (r : Except Failure Instance)
      (v : EngineState) : Prop :=
    (∃ f, r = .error f ∧ lock = none ∧ y.hold = .seeker) ∨ Q lock y r v ∧ ∃ i, r = .ok i
  refine Abides.bind (P := Q') (hwork.orElseUndo (fun _ _ i _ h => .inr ⟨h, i, rfl⟩) ?_) ?_ ?_
  · rintro lock y f v ⟨rfl, hy, -⟩
    exact ⟨{ y with hold := .seeker }, .free hy, .inl ⟨f, rfl, rfl, rfl⟩⟩
  · rintro lock y i v (⟨f, hf, -⟩ | ⟨⟨rfl, hy, hi⟩, -⟩)
    · cases hf
    · obtain ⟨hid, hctx⟩ := hi i rfl
      exact ⟨{ y with hold := .owner id d, hands := [] }, .store hy hctx, hok _ _ _ hid rfl⟩
  · rintro lock y f v (⟨f', -, rfl, hy⟩ | ⟨-, i, hi⟩)
    · exact herror y f v hy
    · cases hi

/-- **Starts go by the rules.** Wherever others come in, a start has reserved its id, and has no
context in its hands but its own. -/
theorem start_abides (b : Bid) (hx : x.hold = .seeker)
    (hc : ∀ c', c = some c' → c'.arena ∈ x.hands)
    (hduring : ∀ y, b.Holds w y → y.offers = x.offers →
      (∀ a ∈ y.hands, a ∈ x.hands ∨ c = none ∧ a = w.env.size) → during y) :
    (e.start b.name b.version c b.given).Abides rules during
      (fun lock y r _ => lock = none ∧ b.Ends w y r) none x w := by
  have hfail : ∀ f y, y.hold = .seeker → b.Ends w y (.error f) := fun f y hy => .inr ⟨f, rfl, hy⟩
  show ((Activity.ofExcept (b.definition w)).bind _).Abides rules during _ none x w
  cases hd : b.definition w with
  | error f => exact ⟨rfl, hfail f x hx⟩
  | ok d =>
    -- What is left of the start, once it has an id to ask for.
    have hclaim : ∀ v, v.env.contexts = w.env.contexts → Activity.Abides rules during
        (fun lock y r _ => lock = none ∧ b.Ends w y r) none x v
        (.look fun s : EngineState =>
          if b.idIn w ∈ s.reserved then .fail (idTaken (b.idIn w))
          else .update (EngineState.reserve (b.idIn w)) (e.startReserved d c (b.idIn w))) := by
      intro v hv
      show Activity.Abides rules _ _ none x v (if b.idIn w ∈ v.reserved then _ else _)
      split
      · exact ⟨rfl, hfail _ x hx⟩
      next hfree =>
        refine ⟨{ x with hold := .holder (b.idIn w) d }, .reserve d hx hfree, ?_⟩
        refine startReserved_abides rfl hc (fun y hy hoffers hhands => ?_) (fun y i v hi hy => ?_)
          fun y f v hy => ⟨rfl, hfail f y hy⟩
        · refine hduring y ⟨d, hd, hy⟩ hoffers fun a ha => (hhands a ha).imp_right ?_
          exact fun h => ⟨h.1, h.2.trans (congrArg (·.arenas.size) hv)⟩
        · exact ⟨rfl, .inl ⟨i, d, rfl, hi, hd, hy⟩⟩
    show ((within (idOrIssued b.given)).bind _).Abides rules during _ none x w
    unfold Bid.idIn at hclaim
    cases hgiven : b.given with
    | some id =>
      rw [hgiven] at hclaim
      exact hclaim w rfl
    | none =>
      rw [hgiven] at hclaim
      exact ⟨x, .work ⟨rfl, rfl, rfl⟩ (.of_contexts rfl), hclaim _ rfl⟩

end Starts

end Engine

end Workflow
