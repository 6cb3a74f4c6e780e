import Workflow.Proofs.Api.Refused
import Workflow.Proofs.Engine.Discreet
import Workflow.Proofs.Run.Raised

/-!
# Hooks that raise while a request is served

What a hook raises is no refusal, whatever kind of failure it is. It becomes part of the answer, as
the error of an instance that has failed, or as what a guard has raised.

**Shown failures** (`ShowsRaised`). The hooks that an operation calls are told with what came of
each call. If one of them has raised, nothing escapes who is to blame it, and the failure can be
quoted, then the request is answered, and the answer shows the failure.

Main result: `Action.reveals`, for requests that have the engine for themselves. For events
observers have to be discreet, so that telling them does not break off.
-/

namespace Workflow.Api

open Activity
open Engine (Call Onward)

variable {reading : Nat → Instant} {e : Engine} {r : Request} {a : Action} {v : EngineState}
  {i : Instance} {α : Type}

/-- Where a hook that an operation calls raises what can be blamed on it and can be quoted, the
request is answered, and the response shows what was raised. -/
def ShowsRaised (c : Context) (env : Environment) (t : Activity Realm.flow α)
    (shown : Failure → Response → Prop) (answers : Response → Prop) : Prop :=
  ∃ cs, CallChain c env cs (t.run env).world ∧
    calls (t.run env).reports = cs.map (·.hook.name) ∧
    ∀ call ∈ cs, ∀ f, call.raised? = some f → f.escape = none → f.unquoted = none →
      ∃ response, answers response ∧ shown f response

theorem ShowsRaised.mono {c : Context} {env : Environment} {t : Activity Realm.flow α}
    {shown : Failure → Response → Prop} {answers answers' : Response → Prop}
    (h : ShowsRaised c env t shown answers)
    (hmono : ∀ response, answers response → answers' response) :
    ShowsRaised c env t shown answers' := by
  obtain ⟨cs, hchain, hnames, hshows⟩ := h
  refine ⟨cs, hchain, hnames, fun call hcall f hf hc hquote => ?_⟩
  obtain ⟨response, hanswer, hshown⟩ := hshows call hcall f hf hc hquote
  exact ⟨response, hmono response hanswer, hshown⟩

theorem showsRaised_of_calling {c : Context} {env : Environment} {t : Activity Realm.flow α}
    {Q : Failure → Except Failure α → Prop} {shown : Failure → Response → Prop}
    {answers : Response → Prop} (ht : Calling c (Instance.RaisedEndsIn Q) t)
    (hQ : ∀ f, f.unquoted = none → Q f (t.run env).answer →
      ∃ response, answers response ∧ shown f response) :
    ShowsRaised c env t shown answers := by
  obtain ⟨cs, hchain, hnames, hshows⟩ := ht env
  exact ⟨cs, hchain, hnames, fun call hcall f hf hc hquote =>
    hQ f hquote (hshows call hcall f hf hc)⟩

/-- The body shows an instance that has failed with this failure. -/
def FailedView (f : Failure) (b : Value) : Prop :=
  ∃ members, b = .object members ∧ ("status", .text Status.failed.word) ∈ members ∧
    ("error", .text f.quoted) ∈ members

theorem failedView_detail (env : Environment) (k : Instance) (f : Failure) (log : List LogLine) :
    FailedView f (detailView env (k.failed f) log) :=
  ⟨_, rfl, .tail _ (.tail _ (.tail _ (.head _))),
    .tail _ (.tail _ (.tail _ (.tail _ (.tail _ (.tail _ (.head _))))))⟩

/-! ## What requests reveal -/

/-- What a start does first: it makes the context, and settles on an id. -/
def StartOrder.setOut (order : StartOrder) : Activity Realm.flow (Context × String) :=
  (newContext (.object order.context)).bind fun c =>
  (idOrIssued order.id).bind fun id => .done (c, id)

/-- Where hooks of a start are called from: its context, its id and the environment. -/
structure SetsOut (order : StartOrder) (v : EngineState) (c : Context) (id : String)
    (env : Environment) : Prop where
  run : order.setOut.run v.env = ⟨.ok (c, id), env, []⟩
  id : id = Action.idFor order v

/-- What the hooks of an event, a start or a question raise shows in the answer: an instance that
has failed, or a question with what has been raised. -/
def Action.Reveals (e : Engine) (r : Request) (v : EngineState) (answers : Response → Prop) :
    Action → Prop
  | .startInstance => ∀ order d, r.object?.bind StartOrder.read? = some order →
      v.registry.find (.text order.definition) (Value.ofOption (order.version.map .int)) = .ok d →
      Action.idFor order v ∉ v.reserved →
      ∃ c id env, SetsOut order v c id env ∧
        ShowsRaised c env (d.startAndSettle e.limits c (some id))
          (fun f response => ∃ b, FailedView f b ∧ response = .created b) answers
  | .sendEvent id => ∀ i d event, v.instances.get? id = some i → v.definitions.get? id = some d →
      r.object?.bind eventOrder? = some event → e.Discreet v.definitions →
      ShowsRaised i.ctx v.env (i.send d e.limits event) (fun f response =>
        ∃ (transitioned : Bool) (b : Value), FailedView f b ∧ response =
          .ok (.object [("transitioned", .bool transitioned), ("instance", b)])) answers
  | .askEvent id event => ∀ i d, v.instances.get? id = some i → v.definitions.get? id = some d →
      ShowsRaised i.ctx v.env (i.canFire d event) (fun f response =>
        response = .ok (canFireView event false (some f))) answers
  | _ => True

theorem Action.Reveals.mono {answers answers' : Response → Prop} (h : a.Reveals e r v answers)
    (hmono : ∀ response, answers response → answers' response) : a.Reveals e r v answers' := by
  cases a with
  | startInstance =>
    intro order d horder hfind hfree
    obtain ⟨c, id, env, hset, hshows⟩ := h order d horder hfind hfree
    exact ⟨c, id, env, hset, hshows.mono hmono⟩
  | sendEvent id =>
    intro i d event hi hd hevent hobservers
    exact (h i d event hi hd hevent hobservers).mono hmono
  | askEvent id event =>
    intro i d hi hd
    exact (h i d hi hd).mono hmono
  | _ => trivial

/-- The answer of the work that an action does alone. -/
abbrev Action.Answers (e : Engine) (r : Request) (v : EngineState) (a : Action)
    (response : Response) : Prop :=
  ((a.work e r).run v).answer = .ok response

/-! ## Events and questions -/

theorem quotable_none {cause : Option Failure} (h : ∀ f, cause = some f → f.unquoted = none) :
    quotable cause = .done () := by
  unfold quotable
  cases cause with
  | none => rfl
  | some f =>
    have hnone : (some f).bind Failure.unquoted = none := h f rfl
    rw [hnone]
    rfl

/-- A stored instance has a detail, if its error can be quoted. -/
theorem run_detail {u : EngineState} (hkept : u.WellKept reading)
    (hreading : ∀ n, (reading n).Writable) (hstored : u.Stores i.id)
    (hquote : ∀ f, i.error = some f → f.unquoted = none) :
    ∃ log, ((detail i).run u).answer = .ok (detailView u.env i log) := by
  obtain ⟨⟨j, hj⟩, d, hd⟩ := hstored
  obtain ⟨log, hlog⟩ := hkept.log hreading hj d
  refine ⟨log, ?_⟩
  have hread : (Engine.logOf i.id).run u = ⟨.ok log, u, []⟩ := by
    unfold Engine.logOf Engine.definitionOf Engine.instanceOf
    rw [run_bind, Engine.known_run hd]
    simp only [Outcome.andThen]
    rw [run_bind, Engine.known_run hj]
    simp only [Outcome.andThen]
    rw [run_ofExcept, hlog]
    rfl
  unfold detail
  rw [run_bind, hread, quotable_none hquote]
  rfl

/-- The error of a failed snapshot can be quoted, if its cause can. -/
theorem quotable_failed {k : Instance} {f : Failure} (hf : f.unquoted = none) :
    ∀ g, (k.failed f).error = some g → g.unquoted = none := by
  rintro g ⟨⟩
  exact hf

/-- **An event whose hook has raised** is answered with an instance that has failed. -/
theorem sendEvent_reveals (hkept : v.WellKept reading) (hreading : ∀ n, (reading n).Writable)
    (id : String) :
    (Action.sendEvent id).Reveals e r v ((Action.sendEvent id).Answers e r v) := by
  intro i d event hi hd hevent hobservers
  refine showsRaised_of_calling (i.send_raised d e.limits event) fun f hquote hf => ?_
  obtain ⟨k, transitioned, hsend⟩ := hf
  let u := EngineState.setInstance id (k.failed f)
    { v with env := ((i.send d e.limits event).run v.env).world }
  have hdispatch : (e.dispatch id event).run v =
      ⟨.ok (i, ⟨k.failed f, transitioned⟩), u, ((i.send d e.limits event).run v.env).reports⟩ := by
    rw [Engine.dispatch_run_found hd hi]
    unfold Engine.dispatched
    rw [hsend]
  have hannounce : ((e.announce (e.sendWithin e.nesting) event i
      ⟨k.failed f, transitioned⟩).run u).answer = .ok () :=
    Engine.announce_discreet (show e.Discreet u.definitions from hobservers) _ _ _
  have hsent : ((e.send id event).run v).answer = .ok ⟨k.failed f, transitioned⟩ := by
    unfold Engine.send Engine.sendWithin
    rw [run_bind, hdispatch]
    simp only [Outcome.andThen]
    rw [run_bind_of_ok hannounce]
    rfl
  have hends := endsAmid_run (Onward.refl reading) (e.send id event) v
  have hstored : v.Stores id := ⟨⟨i, hi⟩, ⟨d, hd⟩⟩
  have hamid := Engine.send_amid hkept hstored hends
  have hkept' := (((Engine.wellKept_custody reading).send (e := e) id event).run hkept).1
  have hid : (k.failed f).id = id := hamid.reached _ hsent
  have hstores : ((e.send id event).run v).world.Stores (k.failed f).id := by
    rw [hid]
    exact hamid.stores
  obtain ⟨log, hlog⟩ := run_detail hkept' hreading hstores (quotable_failed hquote)
  let env := ((e.send id event).run v).world.env
  refine ⟨_, ?_, transitioned, _, failedView_detail env k f log, rfl⟩
  show ((Serve.sendEvent e id r).run v).answer = _
  unfold Serve.sendEvent
  rw [hevent]
  dsimp only
  rw [run_bind_of_ok hsent]
  dsimp only
  rw [run_bind_of_ok hlog]
  rfl

/-- **A question whose guard has raised** is answered with what it has raised. -/
theorem askEvent_reveals (id event : String) :
    (Action.askEvent id event).Reveals e r v ((Action.askEvent id event).Answers e r v) := by
  intro i d hi hd
  refine showsRaised_of_calling (i.canFire_raised d event) fun f hquote hf => ⟨_, ?_, rfl⟩
  have hanswer : ((Engine.served id (fun d i => i.canFire d event) fun _ => none).run v).answer =
      .error (.hookFailed HookRole.guard.word i.current f) :=
    (Engine.served_run_error _ hd hi hf).1
  rw [← Engine.canFire_eq] at hanswer
  show ((Serve.askEvent e id event).run v).answer = _
  have hquoted : quotable (some f) = .done () := quotable_none (by rintro _ ⟨⟩; exact hquote)
  unfold Serve.askEvent
  rw [run_bind, run_attempt, hanswer]
  dsimp only [Outcome.andThen]
  rw [hquoted]
  rfl

/-! ## Starts -/

/-- Every start sets out so, whether its id is given or is to be issued. -/
theorem setsOut (order : StartOrder) (v : EngineState) : ∃ c env,
    SetsOut order v c (Action.idFor order v) env ∧
    (Engine.within (newContext (.object order.context))).run v =
      ⟨.ok c, { v with env := v.env.allocate (.object order.context) }, []⟩ ∧
    ∀ {e : Engine} {name version : Value} {d : Definition},
      v.registry.find name version = .ok d →
      (e.start name version (some c) order.id).run
          { v with env := v.env.allocate (.object order.context) } =
        (e.start name version (some c) (some (Action.idFor order v))).run { v with env } := by
  unfold Action.idFor
  obtain ⟨definition, context, id, version⟩ := order
  cases id with
  | none =>
    refine ⟨_, _, ⟨rfl, rfl⟩, rfl, fun {e name version d} hd => ?_⟩
    let w : EngineState := { v with env := v.env.allocate (.object context) }
    exact Engine.start_run_issued (w := w) hd
  | some id => exact ⟨_, _, ⟨rfl, rfl⟩, rfl, fun _ => rfl⟩

/-- **A start in which a hook has raised** is answered with an instance that has failed. -/
theorem startInstance_reveals (hkept : v.WellKept reading) (hreading : ∀ n, (reading n).Writable) :
    Action.startInstance.Reveals e r v (Action.startInstance.Answers e r v) := by
  intro order d horder hfind hfree
  obtain ⟨c, env, hset, hnew, hstart⟩ := setsOut order v
  refine ⟨c, _, env, hset, ?_⟩
  refine showsRaised_of_calling (d.startAndSettle_raised e.limits c _) fun f hquote hf => ?_
  obtain ⟨k, hk⟩ := hf
  let name := Value.text order.definition
  let version := Value.ofOption (order.version.map .int)
  let w : EngineState := { v with env := v.env.allocate (.object order.context) }
  have hstarted : ((e.start name version (some c) order.id).run w).answer = .ok (k.failed f) := by
    rw [hstart hfind]
    exact (Engine.start_run_ok (w := { v with env }) (c := some c) hfind hfree hk).1
  have hkeptw : w.WellKept reading := ⟨hkept.clock, hkept.held⟩
  have hkept' := (((Engine.wellKept_custody reading).start e name version (some c) order.id).run
    hkeptw).1
  have hends := endsAmid_run (Onward.refl reading) (e.start name version (some c) order.id) w
  have hstores := ((Engine.start_amid hends).free d hfind hfree).stores _ hstarted
  obtain ⟨log, hlog⟩ := run_detail hkept' hreading hstores (quotable_failed hquote)
  let x := ((e.start name version (some c) order.id).run w).world
  refine ⟨_, ?_, _, failedView_detail x.env k f log, rfl⟩
  show ((Serve.startInstance e r).run v).answer = _
  unfold Serve.startInstance
  rw [horder]
  dsimp only
  rw [run_bind, hnew]
  simp only [Outcome.andThen]
  rw [run_bind_of_ok hstarted, run_bind_of_ok hlog]
  rfl

/-- **What hooks raise shows in the answer.** -/
theorem Action.reveals (hkept : v.WellKept reading) (hreading : ∀ n, (reading n).Writable)
    (a : Action) : a.Reveals e r v (a.Answers e r v) := by
  cases a with
  | startInstance => exact startInstance_reveals hkept hreading
  | sendEvent id => exact sendEvent_reveals hkept hreading id
  | askEvent id event => exact askEvent_reveals id event
  | _ => trivial

end Workflow.Api
