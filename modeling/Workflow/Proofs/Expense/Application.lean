import Workflow.Proofs.Api.Reading
import Workflow.Proofs.Engine.Abiding
import Workflow.Proofs.Engine.Notified
import Workflow.Proofs.Expense.InOrder
import Workflow.Proofs.Registry.Found

/-!
# The application for expense claims

Whatever is requested of the application, one request after the other, all claims stay in order.

**Orderly states** (`Orderly`). Every instance is a claim in order, with an arena of its own. What
is done for one claim leaves the contexts of the others as they are.

Main result: `claims_in_order`. A claim that is running waits in the draft or for a manager, a
completed one was paid or rejected, and a failed one failed in triage because its amount and its
limit have no order. Only a manager rejects, and pays what is not within the limit; and what is paid
has its payout reference.
-/

namespace Workflow.Expense

open Activity Engine Environment
open Api (Response Action)

variable {w w' : EngineState} {i j : Instance} {c : Context} {content : List (String × Value)}
  {id : String}

/-! ## Orderly states -/

/-- Every instance is a claim in order, with an arena of its own. -/
structure Orderly (w : EngineState) : Prop where
  registry : w.registry = registry
  definitions : ∀ id d, w.definitions.get? id = some d → d = claim
  claims : ∀ id i, w.instances.get? id = some i →
    ∃ content, w.env.Holds i.ctx content ∧ InOrder i content
  apart : ∀ id id' i i', w.instances.get? id = some i → w.instances.get? id' = some i' →
    i.ctx.arena = i'.ctx.arena → id = id'

/-- A context that no instance has, besides. -/
structure Spare (c : Context) (content : List (String × Value)) (w : EngineState) : Prop
    extends Orderly w where
  held : w.env.Holds c content
  unused : ∀ id i, w.instances.get? id = some i → i.ctx.arena ≠ c.arena

/-- The context is as it was. -/
structure Kept (e e' : Environment) (c : Context) : Prop where
  inside : c.In e'
  arena : e'.arena c.arena = e.arena c.arena

/-- A snapshot can be stored under an id beside the others: it is in order, and its arena is its
own. -/
structure Storable (w : EngineState) (id : String) (e : Environment) (j : Instance) : Prop where
  order : ∃ content, e.Holds j.ctx content ∧ InOrder j content
  own : ∀ id' i, id' ≠ id → w.instances.get? id' = some i → i.ctx.arena ≠ j.ctx.arena

/-- A snapshot stays as it is, or is in order after the change. -/
theorem Orderly.insert (h : Orderly w) (hregistry : w'.registry = w.registry)
    (hdefinitions : ∀ id d, w'.definitions.get? id = some d →
      w.definitions.get? id = some d ∨ d = claim)
    (hinstances : ∀ id', w'.instances.get? id' =
      if id = id' then some j else w.instances.get? id')
    (hkept : ∀ id' i, id' ≠ id → w.instances.get? id' = some i → Kept w.env w'.env i.ctx)
    (hj : Storable w id w'.env j) : Orderly w' := by
  have hget : ∀ {id' i}, w'.instances.get? id' = some i →
      id' = id ∧ i = j ∨ id' ≠ id ∧ w.instances.get? id' = some i := by
    intro id' i hi
    rw [hinstances] at hi
    split at hi
    next hid => exact .inl ⟨hid.symm, (Option.some.inj hi).symm⟩
    next hid => exact .inr ⟨Ne.symm hid, hi⟩
  refine ⟨hregistry.trans h.registry, ?_, ?_, ?_⟩
  · intro id' d hd
    exact (hdefinitions id' d hd).elim (h.definitions id' d) fun hd => hd
  · intro id' i hi
    rcases hget hi with ⟨rfl, rfl⟩ | ⟨hid, hi⟩
    · exact hj.order
    · obtain ⟨content, hheld, horder⟩ := h.claims id' i hi
      have hsame : Kept w.env w'.env i.ctx := hkept id' i hid hi
      exact ⟨content, hheld.frame hsame.inside hsame.arena, horder⟩
  · intro id₁ id₂ i₁ i₂ h₁ h₂ harena
    rcases hget h₁ with ⟨rfl, rfl⟩ | ⟨hid₁, h₁⟩ <;> rcases hget h₂ with ⟨rfl, rfl⟩ | ⟨hid₂, h₂⟩
    · rfl
    · exact absurd harena.symm (hj.own id₂ i₂ hid₂ h₂)
    · exact absurd harena (hj.own id₁ i₁ hid₁ h₁)
    · exact h.apart id₁ id₂ i₁ i₂ h₁ h₂ harena

/-- Only the environment has changed, and contexts in use are as they were. -/
theorem Orderly.working (h : Orderly w) {e : Environment}
    (hkept : ∀ id i, w.instances.get? id = some i → Kept w.env e i.ctx) :
    Orderly { w with env := e } where
  registry := h.registry
  definitions := h.definitions
  claims id i hi := by
    obtain ⟨content, hheld, horder⟩ := h.claims id i hi
    exact ⟨content, hheld.frame (hkept id i hi).inside (hkept id i hi).arena, horder⟩
  apart := h.apart

theorem Orderly.inside (h : Orderly w) (hi : w.instances.get? id = some i) : i.ctx.In w.env := by
  obtain ⟨content, hheld, -⟩ := h.claims id i hi
  exact hheld.inside

/-- An instance keeps its own arena. -/
theorem Orderly.storable (h : Orderly w) (hi : w.instances.get? id = some i) {e : Environment}
    (harena : j.ctx.arena = i.ctx.arena)
    (hj : ∃ content, e.Holds j.ctx content ∧ InOrder j content) : Storable w id e j where
  order := hj
  own id' i' hid hi' hsame := hid (h.apart id' id i' i hi' hi (hsame.trans harena))

/-- Work on one context leaves the others as they are. -/
theorem kept_of_touches {α : Type} {t : Activity Realm.flow α} (ht : Touches c t) {c' : Context}
    {e : Environment} (hin : c'.In e) (hne : c'.arena ≠ c.arena) :
    Kept e (t.run e).world c' := by
  have hkeeps : Keeps (fun e' => Kept e e' c') t := by
    refine ht.keeps fun e₁ e₂ hsame hkept => ⟨?_, ?_⟩
    · show c'.arena < e₂.contexts.arenas.size
      rw [hsame.size]
      exact hkept.inside
    · exact (hsame.arena c'.arena hne).trans hkept.arena
  exact hkeeps e ⟨hin, rfl⟩

/-! ## New contexts -/

/-- An object that comes in is in nobody's use. -/
theorem newContext_spare (content : List (String × Value)) :
    Achieves Orderly (fun c w => Spare c content w) (within (newContext (.object content))) := by
  intro w hw
  obtain ⟨hanswer, hworld⟩ := within_run (newContext (.object content)) w
  refine ⟨(w.env.contexts.allocate (.object content)).1, hanswer, ?_⟩
  rw [hworld]
  have hkept : ∀ id i, w.instances.get? id = some i →
      Kept w.env (w.env.allocate (.object content)) i.ctx := by
    intro id i hi
    refine ⟨?_, arena_allocate _ (hw.inside hi)⟩
    show i.ctx.arena < (w.env.allocate (.object content)).contexts.arenas.size
    rw [size_allocate]
    exact Nat.lt_succ_of_lt (hw.inside hi)
  exact ⟨hw.working hkept, holds_allocate content w.env,
    fun id i hi => Nat.ne_of_lt (hw.inside hi)⟩

/-! ## Calls on stored claims -/

/-- The snapshot that a served call leaves in the table. -/
def leftBy {β : Type} (after : β → Option Instance) (i : Instance) : Except Failure β → Instance
  | .ok b => (after b).getD i
  | .error _ => i

theorem served_run_unstored {β : Type} {d : Definition}
    {work : Definition → Instance → Activity Realm.flow β} {after : β → Option Instance}
    (hd : w.definitions.get? id = some d) (hi : w.instances.get? id = none) :
    (served id work after).run w = ⟨.error (.instanceNotFound id), w, []⟩ := by
  unfold served
  rw [run_bind, definitionOf, known_run hd]
  simp only [Outcome.andThen]
  rw [run_locked, run_bind, instanceOf, known_run_none hi]
  rfl

/-- A call on a stored claim leaves all claims in order, if it leaves that one so. -/
theorem served_orderly {β : Type} {work : Definition → Instance → Activity Realm.flow β}
    {after : β → Option Instance} (h : Orderly w) (htouches : ∀ i, Touches i.ctx (work claim i))
    (hleft : ∀ i content, w.instances.get? id = some i → w.env.Holds i.ctx content →
      InOrder i content → Storable w id ((work claim i).run w.env).world
        (leftBy after i ((work claim i).run w.env).answer)) :
    Orderly ((served id work after).run w).world := by
  cases hd : w.definitions.get? id with
  | none =>
    rw [served_run_missing hd]
    exact h
  | some d =>
  cases h.definitions id d hd
  cases hi : w.instances.get? id with
  | none =>
    rw [served_run_unstored hd hi]
    exact h
  | some i =>
  obtain ⟨content, hheld, horder⟩ := h.claims id i hi
  have hkept : ∀ id' i', id' ≠ id → w.instances.get? id' = some i' →
      Kept w.env ((work claim i).run w.env).world i'.ctx := by
    intro id' i' hid hi'
    exact kept_of_touches (htouches i) (h.inside hi') fun harena =>
      hid (h.apart id' id i' i hi' hi harena)
  have hj := hleft i content hi hheld horder
  -- Where nothing is stored, the snapshot that is left is the one that was there.
  have hsame : ∀ id', w.instances.get? id' = if id = id' then some i else w.instances.get? id' := by
    intro id'
    split
    next hid => rw [← hid, hi]
    · rfl
  cases hanswer : ((work claim i).run w.env).answer with
  | error f =>
    rw [hanswer] at hj
    rw [(served_run_error after hd hi hanswer).2]
    exact h.insert rfl (fun _ _ => .inl) hsame hkept hj
  | ok b =>
    rw [hanswer] at hj
    rw [(served_run_ok after hd hi hanswer).2]
    unfold leftBy at hj
    dsimp only at hj
    cases hb : after b with
    | none =>
      rw [hb] at hj
      exact h.insert rfl (fun _ _ => .inl) hsame hkept hj
    | some j =>
      rw [hb] at hj
      exact h.insert rfl (fun _ _ => .inl) (fun id' => Dict.get?_insert ..) hkept hj

theorem Triaged.ctx {content' : List (String × Value)} (h : Triaged i content j content') :
    j.ctx = i.ctx := by
  cases h <;> rfl

theorem Sent.ctx {content' : List (String × Value)} (h : Sent i content j content') :
    j.ctx = i.ctx := by
  cases h with
  | submitted moment _ _ htriaged => exact htriaged.ctx
  | _ => rfl

theorem keeps_dispatch (id event : String) : Keeps Orderly (engine.dispatch id event) := by
  intro w h
  rw [dispatch_eq]
  refine served_orderly h (fun i => (Instance.touches_send ..).bind fun _ _ => trivial) ?_
  intro i content hi hheld horder
  have hsent : Achieves (Environment.Holds · i.ctx content)
      (fun x (e : Environment) => Holding (Sent i content) x.2.reached e)
      (engine.dispatching event claim i) :=
    (send_claim event horder.running).bind fun out => .done fun e he => he
  obtain ⟨x, hanswer, content', hstep, hheld'⟩ := hsent w.env hheld
  rw [hanswer]
  exact h.storable hi (congrArg (·.arena) hstep.ctx) ⟨content', hheld', horder.sent hstep⟩

theorem keeps_send (id event : String) : Keeps Orderly (engine.send id event) := by
  intro w h
  have hnobody : engine.HarmlessObservers := nofun
  have hdispatched := keeps_dispatch id event w h
  cases hanswer : ((engine.dispatch id event).run w).answer with
  | error f =>
    rw [send_run_error hanswer]
    exact hdispatched
  | ok x =>
    rw [send_run_ok hnobody hanswer]
    exact hdispatched

/-- A question about an event calls no guard: those of triage are of no event. -/
theorem canFire_run (event : String) (e : Environment)
    (h : i.status = .running → i.current = "draft" ∨ i.current = "manager_review") :
    ((i.canFire claim event).run e).world = e := by
  unfold Instance.canFire
  split
  · rfl
  next hrunning =>
  have hunguarded : ∀ ts : List Transition, (∀ t ∈ ts, t.guard = none) →
      i.select ts = .done (.ok ts.head?) := by
    intro ts hts
    cases ts with
    | nil => rfl
    | cons t rest => exact Instance.select_unguarded (hts t List.mem_cons_self) rest
  have hwaits : ∀ s, claim.state? i.current = some s → ∀ t ∈ s.transitions, t.guard = none := by
    intro s hs
    rcases h (Decidable.not_not.1 hrunning) with hcurrent | hcurrent <;> rw [hcurrent] at hs <;>
      cases hs
    · simp [draftState, submitting]
    · simp [managerState, approving, rejecting, returning]
  cases hs : claim.state? i.current with
  | none => rfl
  | some s =>
    dsimp only
    have hfor : ∀ t ∈ s.transitionsFor event, t.guard = none := fun t ht =>
      hwaits s hs t (List.mem_filter.1 ht).1
    rw [hunguarded _ hfor]
    rfl

theorem keeps_canFire (id event : String) : Keeps Orderly (engine.canFire id event) := by
  intro w h
  rw [canFire_eq]
  refine served_orderly h (fun i => Instance.touches_canFire claim i event) ?_
  intro i content hi hheld horder
  have hleft : ∀ r : Except Failure Bool, leftBy (fun _ => none) i r = i := fun r => by
    cases r <;> rfl
  rw [hleft, canFire_run event w.env horder.running]
  exact h.storable hi rfl ⟨content, hheld, horder⟩

/-! ## Contexts -/

theorem writes_mergeMembers (members : List (String × Value)) :
    Writes (Api.mergeMembers members) (Dict.putAll members) := by
  intro a n old h
  have hcell : a.cell? (.ref n) = some (.object old) := h.cell
  unfold Api.mergeMembers
  simp only [run, hcell]
  exact ⟨_, _, rfl, h.put members⟩

/-- A change of context leaves all claims in order, if it gives a context with a content. -/
theorem recontext_orderly {f : Context → Activity Realm.flow Context} (h : Orderly w)
    (htouches : ∀ c, Touches c (f c))
    (hgives : ∀ i content, w.instances.get? id = some i → w.env.Holds i.ctx content →
      ∃ c, ((f i.ctx).run w.env).answer = .ok c ∧
        (∃ content', ((f i.ctx).run w.env).world.Holds c content') ∧
        ∀ id' i', id' ≠ id → w.instances.get? id' = some i' → i'.ctx.arena ≠ c.arena) :
    Orderly ((replaceContext id f).run w).world := by
  rw [replaceContext_eq]
  refine served_orderly h (fun i => ?_) ?_
  · unfold recontexting
    split
    · exact (htouches i.ctx).bind fun _ _ => trivial
    · trivial
  intro i content hi hheld horder
  unfold recontexting
  by_cases hrunning : i.isRunning
  · obtain ⟨c, hanswer, ⟨content', hheld'⟩, hown⟩ := hgives i content hi hheld
    rw [if_pos hrunning, run_bind_of_ok hanswer]
    exact ⟨⟨content', hheld', horder.recontext (of_decide_eq_true hrunning) c⟩, hown⟩
  · rw [if_neg hrunning]
    exact h.storable hi rfl ⟨content, hheld, horder⟩

/-- Members go into the context. -/
theorem keeps_merge (id : String) (members : List (String × Value)) :
    Keeps Orderly (updateContext id (Api.mergeMembers members)) := by
  intro w h
  refine recontext_orderly (f := updating (Api.mergeMembers members)) h ?_ ?_
  · exact touches_copy (Api.mergeMembers members)
  · intro i content hi hheld
    have hmerged : Achieves (Environment.Holds · i.ctx content)
        (fun c (e : Environment) => c.arena = i.ctx.arena ∧ e.Holds c (Dict.putAll members content))
        (updating (Api.mergeMembers members) i.ctx) := by
      refine copyContext_achieves.bind fun copy => ?_
      rintro e ⟨harena, he⟩
      obtain ⟨answer, hanswer, he'⟩ := (writes_mergeMembers members).lift e he
      rw [run_bind_of_ok hanswer]
      exact ⟨copy, rfl, harena, he'⟩
    obtain ⟨c, hanswer, harena, hheld'⟩ := hmerged w.env hheld
    exact ⟨c, hanswer, ⟨_, hheld'⟩, fun id' i' hid hi' hsame =>
      hid (h.apart id' id i' i hi' hi (hsame.trans harena))⟩

/-- Another context takes the place of the old one. -/
theorem leaves_setContext (id : String) :
    Leaves (Spare c content) Orderly (setContext id c) := by
  intro w h
  refine recontext_orderly h.toOrderly (fun _ => trivial) fun i _ hi _ => ?_
  exact ⟨c, rfl, ⟨content, h.held⟩, fun id' i' _ hi' => h.unused id' i' hi'⟩

/-! ## Starts -/

theorem start_achieves (c : Context) (id : String) :
    Achieves (Environment.Holds · c content)
      (fun i (e : Environment) => ∃ moment, i = claim.fresh c id moment ∧ e.Holds c content)
      (claim.startAndSettle engine.limits c (some id)) := by
  have hstart : Achieves (Environment.Holds · c content)
      (fun i (e : Environment) => ∃ moment, i = claim.fresh c id moment ∧ e.Holds c content)
      (claim.start c (some id)) :=
    Instance.readClock_achieves.bind fun moment => Achieves.tell.bind fun _ =>
      .done fun e he => ⟨moment.text, rfl, he⟩
  refine hstart.bind fun i => ?_
  rintro e ⟨moment, rfl, he⟩
  obtain ⟨i, hanswer, rfl, he'⟩ := settle_rests (i := claim.fresh c id moment) (.inr (.inl rfl)) e he
  exact ⟨_, hanswer, moment, rfl, he'⟩

/-- The document is registered as the workflow it stands for. -/
theorem registry_eq : registry = ((Registry.mk {}).register claim).2 := by
  unfold registry Registry.registerDocument
  rw [compile_document]
  rfl

theorem find_claim {name version : Value} {d : Definition}
    (h : registry.find name version = .ok d) : d = claim := by
  obtain ⟨key, shelf, hshelf, x, hx, rfl⟩ := Registry.find_mem h
  have hshelves : registry.shelves.entries.map (fun y => y.2.entries.map fun x => x.2.definition) =
      [[claim]] := by
    rw [registry_eq]
    rfl
  have hshelf : (shelf.entries.map fun x => x.2.definition) ∈ [[claim]] :=
    hshelves ▸ List.mem_map_of_mem (Dict.get?_eq_some_iff.1 hshelf)
  rw [List.mem_singleton] at hshelf
  exact List.mem_singleton.1 (hshelf ▸ List.mem_map_of_mem hx)

/-- A start under a given id stores a new claim, or nothing. -/
theorem leaves_startAs (name version : Value) (id : String) :
    Leaves (Spare c content) Orderly (engine.start name version (some c) (some id)) := by
  intro w h
  cases hd : w.registry.find name version with
  | error f =>
    rw [(start_run_unknown hd).2]
    exact h.toOrderly
  | ok d =>
  cases find_claim (h.registry ▸ hd)
  by_cases hid : id ∈ w.reserved
  · rw [(start_run_taken hd hid).2]
    exact h.toOrderly
  have hwork : Achieves (Environment.Holds · c content)
      (fun i (e : Environment) => ∃ moment, i = claim.fresh c id moment ∧ e.Holds c content)
      (engine.initiating claim (some c) id) := start_achieves c id
  have htouches : Touches c (engine.initiating claim (some c) id) :=
    Definition.touches_startAndSettle claim engine.limits c (some id)
  obtain ⟨i, hanswer, moment, rfl, hheld⟩ := hwork w.env h.held
  rw [(start_run_ok hd hid hanswer).2]
  refine h.insert (j := claim.fresh c id moment) rfl ?_ (fun id' => Dict.get?_insert ..)
    ?_ ?_
  · intro id' d' hd'
    simp only [EngineState.store, EngineState.reserve, Dict.get?_insert] at hd'
    split at hd'
    · exact .inr (Option.some.inj hd').symm
    · exact .inl hd'
  · intro id' i _ hi
    exact kept_of_touches htouches (h.inside hi) (h.unused id' i hi)
  · exact ⟨⟨content, hheld, .fresh c id moment⟩, fun id' i _ hi => h.unused id' i hi⟩

/-- A start that is issued an id goes as under that id. -/
theorem start_run_issued {name version : Value} {d : Definition} {context : Option Context}
    (hd : w.registry.find name version = .ok d) :
    (engine.start name version context none).run w =
      (engine.start name version context (some (issuedId (w.env.issued + 1)))).run
        { w with env := { w.env with issued := w.env.issued + 1 } } := by
  unfold Engine.start askRegistry
  simp only [Activity.bind, run, hd]
  rfl

theorem leaves_start (name version : Value) (id : Option String) :
    Leaves (Spare c content) Orderly (engine.start name version (some c) id) := by
  cases id with
  | some id => exact leaves_startAs name version id
  | none =>
    intro w h
    cases hd : w.registry.find name version with
    | error f =>
      have hunknown : ((engine.start name version (some c) none).run w).world = w := by
        unfold Engine.start askRegistry
        simp only [Activity.bind, run, hd]
        rfl
      rw [hunknown]
      exact h.toOrderly
    | ok d =>
      rw [start_run_issued hd]
      have hspare : Spare c content
          { w with env := { w.env with issued := w.env.issued + 1 } } :=
        ⟨h.working fun id i hi => ⟨h.inside hi, rfl⟩, h.held.frame h.held.inside rfl, h.unused⟩
      exact leaves_startAs name version _ _ hspare

/-! ## Requests -/

/-- A context is put in, and then it is used for a start or a change. -/
theorem keeps_newContext {α : Type} {g : Context → Call α}
    (hg : ∀ c, Leaves (Spare c content) Orderly (g c)) :
    Keeps Orderly ((within (newContext (.object content))).bind g) := by
  have hnew : Achieves Orderly (fun c w => Spare c content w)
      (within (newContext (.object content))) := newContext_spare content
  have hgives : Gives Orderly (fun c w => Spare c content w)
      (within (newContext (.object content))) := by
    intro w hw c hc
    obtain ⟨c', hc', hspare⟩ := hnew w hw
    cases hc.symm.trans hc'
    exact hspare
  exact Leaves.bind (hnew.leaves fun _ _ h => h.toOrderly) hgives hg

theorem keeps_answering {t : Call Response} (ht : Keeps Orderly t)
    (foreseen : Failure → Option Response) : Keeps Orderly (Api.answering t foreseen) := by
  refine ht.contained.bind fun r => ?_
  cases r <;> exact .done _

theorem keeps_detail (i : Instance) : Keeps Orderly (Api.detail i) := (Api.reads_detail i).keeps _

theorem keeps_startInstance (r : Api.Request) :
    Keeps Orderly (Api.Serve.startInstance engine r) := by
  unfold Api.Serve.startInstance
  split
  · exact .done _
  next order _ =>
  refine keeps_newContext fun c => (leaves_start _ _ _).bind_keeps fun i => ?_
  exact (keeps_detail i).bind fun _ => .done _

theorem keeps_sendEvent (id : String) (r : Api.Request) :
    Keeps Orderly (Api.Serve.sendEvent engine id r) := by
  unfold Api.Serve.sendEvent
  split
  · exact .done _
  next event _ =>
  exact (keeps_send id event).bind fun out => (keeps_detail out.reached).bind fun _ => .done _

theorem keeps_askEvent (id event : String) : Keeps Orderly (Api.Serve.askEvent engine id event) := by
  have hattempt : Keeps Orderly (engine.canFire id event).attempt := by
    intro w h
    rw [run_attempt]
    exact keeps_canFire id event w h
  refine hattempt.bind fun r => ?_
  split
  · exact .done _
  · exact ((reads_ofExcept _).keeps _).bind fun _ => .done _
  · exact fun _ h => h

theorem keeps_changeContext (id : String) (r : Api.Request) :
    Keeps Orderly (Api.Serve.changeContext id r) := by
  unfold Api.Serve.changeContext
  split
  · exact .done _
  next order _ =>
  have hchange : Keeps Orderly (if order.merge then
      updateContext id (Api.mergeMembers order.context)
      else (within (newContext (.object order.context))).bind fun c => setContext id c) := by
    split
    · exact keeps_merge id order.context
    · exact keeps_newContext fun c => leaves_setContext id
  exact hchange.bind fun i => (keeps_detail i).bind fun _ => .done _

theorem keeps_serve (r : Api.Request) : ∀ a : Action, Keeps Orderly (a.serve engine r)
  | .listDefinitions => keeps_answering ((Api.reads_listDefinitions r).keeps _) _
  | .showDefinition id => keeps_answering ((Api.reads_showDefinition id r).keeps _) _
  | .showDefinitionGraph id => keeps_answering ((Api.reads_showDefinitionGraph id r).keeps _) _
  | .startInstance => keeps_answering (keeps_startInstance r) _
  | .listInstances => keeps_answering ((Api.reads_listInstances r).keeps _) _
  | .showInstance id => keeps_answering ((Api.reads_showInstance id).keeps _) _
  | .sendEvent id => keeps_answering (keeps_sendEvent id r) _
  | .askEvent id event => keeps_answering (keeps_askEvent id event) _
  | .changeContext id => keeps_answering (keeps_changeContext id r) _
  | .showInstanceGraph id => keeps_answering ((Api.reads_showInstanceGraph id).keeps _) _

theorem keeps_submit (id : String) (r : Api.Request) : Keeps Orderly (submit id r) := by
  unfold submit
  split
  · exact .done _
  next members _ =>
  refine keeps_newContext fun c => (leaves_start _ _ _).bind_keeps fun i => ?_
  exact (keeps_send i.id "SUBMIT").bind fun _ => .done _

/-- **Whatever is requested, all claims stay in order.** -/
theorem keeps_respond (r : Api.Request) : Keeps Orderly (respond r) := by
  unfold respond
  split
  next id _ =>
    split
    · exact keeps_answering (keeps_submit id r) _
    · exact .done _
  · unfold Api.Mount.respond
    split
    · exact .done _
    split
    · exact .done _
    unfold Api.Mount.perform
    split
    · exact .done _
    split
    · exact keeps_serve r _
    · exact .done _

theorem orderly_world (env : Environment) : Orderly (world env) := by
  have hnone : ∀ id, (world env).instances.get? id = none := fun _ => rfl
  refine ⟨rfl, ?_, ?_, ?_⟩
  · intro id d hd
    have hundefined : (world env).definitions.get? id = none := rfl
    rw [hundefined] at hd
    cases hd
  · intro id i hi
    rw [hnone] at hi
    cases hi
  · intro id id' i i' hi
    rw [hnone] at hi
    cases hi

/-- The state after requests, one after the other. -/
def afterRequests (env : Environment) (requests : List Api.Request) : EngineState :=
  requests.foldl (fun w r => ((respond r).run w).world) (world env)

theorem orderly_afterRequests (env : Environment) (requests : List Api.Request) :
    Orderly (afterRequests env requests) := by
  have hall : ∀ w, Orderly w → Orderly (requests.foldl (fun w r => ((respond r).run w).world) w) := by
    induction requests with
    | nil => exact fun _ h => h
    | cons r rest ih => exact fun w h => ih _ (keeps_respond r w h)
  exact hall _ (orderly_world env)

/-- **All claims are in order**, whatever was requested of the application: a claim is in order with
the members of its context as they are now. -/
theorem claims_in_order (env : Environment) (requests : List Api.Request) (id : String)
    (i : Instance) (h : (afterRequests env requests).instances.get? id = some i) :
    ∃ content, (afterRequests env requests).env.read i.ctx = .object content ∧
      InOrder i content := by
  obtain ⟨content, hheld, horder⟩ := (orderly_afterRequests env requests).claims id i h
  exact ⟨content, hheld.read, horder⟩

/-- The request to submit a claim. -/
def submission (id body : String) : Api.Request where
  method := "POST"
  path := "/expenses/" ++ id ++ "/submit"
  body := body

/-- The request to send an event to a claim. -/
def decision (id event : String) : Api.Request where
  method := "POST"
  path := "/workflows/instances/" ++ id ++ "/events"
  body := "\x7b\"event\": \"" ++ event ++ "\"\x7d"

/-- A day on which lunch is paid at once, a hotel by a manager, and a claim names no number. -/
def officeDay : List Api.Request :=
  [submission "lunch" "\x7b\"employee\": \"ada\", \"amount\": 20\x7d",
    submission "hotel" "\x7b\"amount\": 80\x7d",
    submission "gift" "\x7b\"amount\": \"a lot\"\x7d", decision "hotel" "APPROVE"]

/-- Each of the claims of the day ends where it should, and is in order. -/
theorem claims_in_order_office :
    let w := afterRequests { clock := { reading := fun n => ⟨n⟩ } } officeDay
    ∃ lunch hotel gift, w.instances.get? "lunch" = some lunch ∧
      w.instances.get? "hotel" = some hotel ∧ w.instances.get? "gift" = some gift ∧
      lunch.current = "paid" ∧ hotel.current = "paid" ∧ gift.status = .failed ∧
      (∃ content, w.env.read lunch.ctx = .object content ∧ InOrder lunch content) ∧
      (∃ content, w.env.read hotel.ctx = .object content ∧ InOrder hotel content) ∧
      ∃ content, w.env.read gift.ctx = .object content ∧ InOrder gift content := by
  intro w
  obtain ⟨hlunch, hhotel, hgift⟩ : (w.instances.get? "lunch").map (·.current) = some "paid" ∧
      (w.instances.get? "hotel").map (·.current) = some "paid" ∧
      (w.instances.get? "gift").map (·.status) = some .failed := by
    decide +kernel
  obtain ⟨lunch, hl, hlunch⟩ := Option.map_eq_some_iff.1 hlunch
  obtain ⟨hotel, hh, hhotel⟩ := Option.map_eq_some_iff.1 hhotel
  obtain ⟨gift, hg, hgift⟩ := Option.map_eq_some_iff.1 hgift
  exact ⟨lunch, hotel, gift, hl, hh, hg, hlunch, hhotel, hgift, claims_in_order _ _ _ _ hl,
    claims_in_order _ _ _ _ hh, claims_in_order _ _ _ _ hg⟩

end Workflow.Expense
