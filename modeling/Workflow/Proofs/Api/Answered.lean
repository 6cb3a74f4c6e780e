import Workflow.Proofs.Api.Custody
import Workflow.Proofs.Engine.Linear
import Workflow.Proofs.Engine.Sound
import Workflow.Proofs.Run.Log
import Workflow.Proofs.Schedule.Paired

/-!
# Answers to events

An event that is sent over the interface is answered with the snapshot that its dispatch gave, and
with an audit log that is read from the engine afterwards. Requests and other calls
(`Api.Task`) take their turns in any order.

**Own answers** (`Api.Serve.sendEventOwn`). The same answer with the log of the dispatched snapshot
itself.

Main result: `answers_own`. If the observers neither pause nor send events, the interface answers in
every interleaving as if the logs were the snapshots' own, so each log ends with the state that its
answer names. An observer that pauses or sends an event lets others come between the two, and the
log may then be that of a later snapshot (`answer_overtaken`).
-/

namespace Workflow

open Activity

namespace Api

open Engine (Call Calm Stored)

/-! ## Own answers -/

/-- The detail of a snapshot, with its own audit log. -/
def ownDetail (i : Instance) : Call Value :=
  (Engine.definitionOf i.id).bind fun d =>
  (Activity.ofExcept (auditLog d i)).bind fun log =>
  (quotable i.error).bind fun _ => .look fun s => .done (detailView s.env i log)

/-- Sends an event, and answers with the log of the snapshot that the dispatch gave. -/
def Serve.sendEventOwn (e : Engine) (id : String) (r : Request) : Call Response :=
  match r.object?.bind eventOrder? with
  | none => .done .badRequest
  | some event =>
    (e.send id event).bind fun outcome =>
    (ownDetail outcome.reached).bind fun v =>
      .done (.ok (.object [("transitioned", .bool outcome.transitioned), ("instance", v)]))

/-- Does what an action asks for, where events have own answers. -/
def Action.serveOwn (e : Engine) (r : Request) : Action → Call Response
  | .sendEvent id => answering (Serve.sendEventOwn e id r) unknownRefusal
  | a => a.serve e r

/-- The view shows a snapshot with its own log. -/
def ShowsSnapshot (i : Instance) (view : Value) : Prop :=
  ∃ (env : Environment) (d : Definition) (log : List LogLine),
    view = detailView env i log ∧ auditLog d i = .ok log ∧ i.EndsLog log

/-- The response shows the outcome of an event that was sent to an instance, if it is an answer at
all. -/
def ShowsOutcome (id : String) (r : Response) : Prop :=
  ∀ status body, r = .answer status body → status = 200 ∧
    ∃ (out : Dispatch) (view : Value),
      body = .object [("transitioned", .bool out.transitioned), ("instance", view)] ∧
        out.reached.id = id ∧ ShowsSnapshot out.reached view

variable {e : Engine} {s : EngineState} {i : Instance} {id : String}

/-- While a snapshot is the stored one, its detail is its own. -/
theorem detail_inStep (hs : s.Sound) (hi : s.instances.get? id = some i) (hheld : i.Held id) :
    InStep EngineState.Sound (EndsWith EngineState.Sound fun x _ => ShowsSnapshot i x) s
      (detail i) (ownDetail i) := by
  unfold detail ownDetail Engine.logOf
  rw [hheld.id, Activity.bind_assoc]
  refine .look ?_
  dsimp only
  cases hd : s.definitions.get? id with
  | none => exact .fail (.error hs _)
  | some d =>
    refine .lookLeft ?_
    dsimp only
    rw [hi]
    show InStep _ _ _ ((ofExcept (auditLog d i)).bind _) ((ofExcept (auditLog d i)).bind _)
    cases hlog : auditLog d i with
    | error f => exact .fail (.error hs f)
    | ok log =>
      obtain ⟨d', hd'⟩ := hheld.recorded
      show InStep _ _ _ ((quotable i.error).bind _) ((quotable i.error).bind _)
      unfold quotable
      split
      · exact .look (.done (.ok hs ⟨s.env, d, log, rfl, hlog, hd'.endsLog hlog⟩))
      · exact .fail (.error hs _)

theorem answering_inStep {A : Response → Prop} {t u : Call Response}
    {foreseen : Failure → Option Response}
    (ht : InStep EngineState.Sound (EndsWith EngineState.Sound fun x _ => A x) s t u)
    (hrefuse : ∀ f, A ((foreseen f).getD .unforeseen)) :
    InStep EngineState.Sound (EndsWith EngineState.Sound fun x _ => A x) s
      (answering t foreseen) (answering u foreseen) := by
  have hcontained : InStep EngineState.Sound
      (EndsWith EngineState.Sound fun r _ => ∀ x, r = .ok x → A x) s t.contained u.contained :=
    ht.contained (fun r v hr => .ok hr.world hr.answer) fun f v hr => .error hr.world f
  refine hcontained.bind (fun r v hr => ?_) fun f v hr => .error hr.world f
  cases r with
  | ok x => exact .done (.ok hr.world (hr.answer (.ok x) rfl x rfl))
  | error f => exact .done (.ok hr.world (hrefuse f))

/-- **With prompt observers, events have own answers.** -/
theorem sendEvent_inStep (he : e.PromptObservers) (hs : s.Sound) (id : String) (r : Request) :
    InStep EngineState.Sound (EndsWith EngineState.Sound fun x _ => ShowsOutcome id x) s
      ((Action.sendEvent id).serve e r) ((Action.sendEvent id).serveOwn e r) := by
  refine answering_inStep ?_ fun f status body h => ?_
  · unfold Serve.sendEvent Serve.sendEventOwn
    cases r.object?.bind eventOrder? with
    | none => exact .done (.ok hs nofun)
    | some event =>
      have hsend := Engine.send_inStep he hs id event
      refine hsend.bind (fun out v hout => ?_) fun f v hv => .error hv.world f
      obtain ⟨hstored, hheld⟩ := hout.answer out rfl
      have hdetail := detail_inStep hout.world hstored hheld
      refine hdetail.bind (fun view v hview => .done ?_) fun f v hv => .error hv.world f
      refine .ok hview.world ?_
      rintro status body ⟨⟩
      exact ⟨rfl, out, view, rfl, hheld.id, hview.answer view rfl⟩
  · -- A refusal is no answer.
    cases f <;> cases h

/-! ## All calls -/

/-- A request over the interface, or another call on the engine. -/
inductive Task where
  | http (a : Action) (r : Request)
  | start (name version : Value) (c : Option Context) (id : Option String)
  | send (id event : String)
  | canFire (id event : String)
  | updateContext (id : String) (updater : Datum → Activity Realm.hook HookAnswer)
  | setContext (id : String) (c : Context)
  | snapshot (id : String)
  | log (id : String)
  | list (status : Option Status)
  | register (d : Definition)
  | registerDocument (doc : Value) (hs : Handlers)
  | unregister (name version : Value)
  | subscribe (name : String)
  | unsubscribe (name : String)

/-- A call whose answer is of no interest here. -/
def unheard {α : Type} (t : Call α) : Call (Option Response) := t.bind fun _ => .done none

/-- The call of a task, given how actions are served. -/
def Task.call (e : Engine) (serve : Action → Request → Call Response) :
    Task → Call (Option Response)
  | .http a r => (serve a r).bind fun response => .done (some response)
  | .start name version c id => unheard (e.start name version c id)
  | .send id event => unheard (e.send id event)
  | .canFire id event => unheard (e.canFire id event)
  | .updateContext id updater => unheard (Engine.updateContext id updater)
  | .setContext id c => unheard (Engine.setContext id c)
  | .snapshot id => unheard (Engine.instanceOf id)
  | .log id => unheard (Engine.logOf id)
  | .list status => unheard (Engine.list status)
  | .register d => unheard (Engine.register d)
  | .registerDocument doc hs => unheard (Engine.registerDocument doc hs)
  | .unregister name version => unheard (Engine.unregister name version)
  | .subscribe name => unheard (Engine.subscribe name)
  | .unsubscribe name => unheard (Engine.unsubscribe name)

/-- The tasks at the same time, with turns at the given places, as actions are served. -/
def atOnce (e : Engine) (s : EngineState) (serve : Action → Request → Call Response)
    (tasks : List Task) (places : List Nat) : Schedule Realm.engine (Option Response) :=
  (Schedule.start s (tasks.map (Task.call e serve))).turns places

/-- What a response has to show: the outcome, if it is the answer to an event. -/
def Task.Shows : Task → Option Response → Prop
  | .http (.sendEvent id) _, some response => ShowsOutcome id response
  | _, _ => True

theorem calm_unheard {α : Type} {A : α → Prop} {t : Call α} (ht : Steady EngineState.Sound A t) :
    Calm EngineState.Sound (unheard t) :=
  ht.bind fun _ _ => .done trivial

theorem Task.calm_call (e : Engine) :
    ∀ x : Task, Calm EngineState.Sound (x.call e fun a r => a.serve e r)
  | .http a r => (Action.calm_serve Engine.sound_custody e r a).bind fun _ => .done _
  | .start name version c id => calm_unheard (Engine.sound_custody.start e name version c id)
  | .send id event => calm_unheard (Engine.sound_custody.send id event)
  | .canFire id event => calm_unheard (Engine.sound_custody.canFire (e := e) id event)
  | .updateContext id updater => calm_unheard (Engine.sound_custody.updateContext id updater)
  | .setContext id c => calm_unheard (Engine.sound_custody.setContext id c)
  | .snapshot id => calm_unheard (Engine.calm_instanceOf id)
  | .log id => calm_unheard (Engine.calm_logOf id)
  | .list status => calm_unheard (Engine.calm_list status)
  | .register _ => calm_unheard (Engine.sound_custody.changeRegistry _)
  | .registerDocument _ _ => calm_unheard (Engine.sound_custody.changeRegistry _)
  | .unregister _ _ => calm_unheard (Engine.sound_custody.changeRegistry _)
  | .subscribe name => calm_unheard (Engine.sound_custody.subscribe name)
  | .unsubscribe name => calm_unheard (Engine.sound_custody.unsubscribe name)

/-- The calls of a task, served as they are and with own answers, are in step. -/
theorem Task.call_inStep (he : e.PromptObservers) (hs : s.Sound) (x : Task) :
    InStep EngineState.Sound (EndsWith EngineState.Sound fun r _ => x.Shows r) s
      (x.call e fun a r => a.serve e r) (x.call e fun a r => a.serveOwn e r) := by
  by_cases hevent : ∃ id r, x = .http (.sendEvent id) r
  · obtain ⟨id, r, rfl⟩ := hevent
    refine (sendEvent_inStep he hs id r).bind (fun y v hy => .done ?_) fun f v hv =>
      .error hv.world f
    exact .ok hy.world (hy.answer y rfl)
  · have hshows : ∀ r, x.Shows r := by
      intro r
      unfold Task.Shows
      split
      next id r' _ => exact absurd ⟨id, r', rfl⟩ hevent
      · trivial
    have hsame : (x.call e fun a r => a.serveOwn e r) = x.call e fun a r => a.serve e r := by
      cases x with
      | http a r =>
        cases a with
        | sendEvent id => exact absurd ⟨id, r, rfl⟩ hevent
        | _ => rfl
      | _ => rfl
    rw [hsame]
    exact (x.calm_call e s hs).mono fun _ _ hr => ⟨hr.world, fun r _ => hshows r⟩

/-- **With prompt observers, events are answered with their own logs.** However their turns are
mixed with those of other calls, requests end as if each event were answered with the log of the
snapshot that its dispatch gave, and leave the same engine. -/
theorem answers_own (he : e.PromptObservers) (hs : s.Sound) (tasks : List Task)
    (places : List Nat) :
    let actual := atOnce e s (fun a r => a.serve e r) tasks places
    let own := atOnce e s (fun a r => a.serveOwn e r) tasks places
    actual.finished = own.finished ∧ actual.world = own.world ∧ actual.world.Sound ∧
      ∀ n id r response, tasks[n]? = some (.http (.sendEvent id) r) →
        (n, .ok (some response)) ∈ actual.finished → ShowsOutcome id response := by
  intro actual own
  have hpair : Schedule.Alike EngineState.Sound
      (fun n r => ∀ x, tasks[n]? = some x → ∀ y, r = .ok y → x.Shows y) actual own := by
    refine Schedule.turns_paired hs (fun n x hx v hv => ?_) places
    refine (Task.call_inStep he hv x).mono fun r v hr => ⟨hr.world, fun x' hx' => ?_⟩
    cases hx.symm.trans hx'
    exact hr.answer
  refine ⟨hpair.1.finished.symm, hpair.1.world.symm, hpair.2, ?_⟩
  intro n id r response hn hresponse
  exact hpair.1.answers _ hresponse _ hn _ rfl

/-! ## An order and its observers -/

/-- The state that an answer names as the current one. -/
def namedState (body : Value) : Option Value :=
  (body.get? "instance").bind (·.get? "current_state")

/-- The state on the last line of the log in an answer. -/
def loggedState (body : Value) : Option Value := do
  let view ← body.get? "instance"
  match ← view.get? "history" with
  | .list lines => (← lines.getLast?).get? "state_id"
  | _ => none

/-- An answer that shows its outcome names the state that its log ends with. -/
theorem ShowsOutcome.named {id : String} {status : Nat} {body : Value}
    (h : ShowsOutcome id (.answer status body)) : loggedState body = namedState body := by
  obtain ⟨-, out, view, rfl, -, env, d, log, rfl, -, hends⟩ := h _ _ rfl
  obtain ⟨earlier, last, rfl, hstate, -, -⟩ := hends
  have hlogged : (((earlier ++ [last]).map (·.toValue)).getLast?.bind (·.get? "state_id")) =
      some (.text last.state) := by
    simp [LogLine.toValue, Value.get?, Dict.find]
  simpa [loggedState, namedState, detailView, Value.get?, Dict.find, hstate] using hlogged

/-- An engine that nobody has called yet. -/
def newEngine : EngineState := { env := { clock := { reading := fun n => ⟨n⟩ } } }

/-- An engine that knows an observer who takes note of what it is told. -/
def noting : Engine := { directory := [Observer.ofSteps "scribe" []] }

/-- The request to send an event to the order. -/
def eventRequest (event : String) : Request where
  method := "POST"
  path := "/instances/A1/events"
  body := "\x7b\"event\": \"" ++ event ++ "\"\x7d"

/-- The calls up to the start of an order, with an observer. -/
def opening (observer : String) : List Task :=
  [.register Engine.order, .start (.text "order") .null none (some "A1"), .subscribe observer]

/-- The body of the answer to a request, if it is a success. -/
def bodyOf (n : Nat) (s : Schedule Realm.engine (Option Response)) : Option Value :=
  match s.answer? n with
  | some (.ok (some (.answer 200 body))) => some body
  | _ => none

theorem bodyOf_mem {n : Nat} {s : Schedule Realm.engine (Option Response)} {body : Value}
    (h : bodyOf n s = some body) : (n, .ok (some (.answer 200 body))) ∈ s.finished := by
  unfold bodyOf Schedule.answer? at h
  split at h
  next body' hfinished =>
    cases h
    obtain ⟨before, after, hs, -⟩ := List.lookup_eq_some_iff.1 hfinished
    exact hs ▸ List.mem_append_right before List.mem_cons_self
  · cases h

/-- The order is paid, and shipped as soon as it is. -/
def orderTasks : List Task :=
  opening "scribe" ++ [.http (.sendEvent "A1") (eventRequest "pay"),
    .http (.sendEvent "A1") (eventRequest "ship")]

/-- The payment pauses while the other request comes in, and still both answers show their own
outcomes. -/
theorem answers_own_order :
    let s := atOnce noting newEngine (fun a r => a.serve noting r) orderTasks [0, 0, 0, 0, 0, 0, 0]
    noting.PromptObservers ∧ newEngine.Sound ∧
      ∃ paid shipped, bodyOf 3 s = some paid ∧ bodyOf 4 s = some shipped ∧
        namedState paid = some (.text "paid") ∧ namedState shipped = some (.text "shipped") ∧
        ShowsOutcome "A1" (.answer 200 paid) ∧ ShowsOutcome "A1" (.answer 200 shipped) := by
  intro s
  have hprompt : noting.PromptObservers := by
    intro o ho n
    cases List.mem_singleton.1 ho
    trivial
  have hsound : newEngine.Sound := EngineState.sound_of_empty rfl
  obtain ⟨-, -, -, hshows⟩ := answers_own hprompt hsound orderTasks [0, 0, 0, 0, 0, 0, 0]
  have hpaid : (bodyOf 3 s).bind namedState = some (.text "paid") := by decide +kernel
  have hshipped : (bodyOf 4 s).bind namedState = some (.text "shipped") := by decide +kernel
  obtain ⟨paid, hp, hpaid⟩ := Option.bind_eq_some_iff.1 hpaid
  obtain ⟨shipped, hs, hshipped⟩ := Option.bind_eq_some_iff.1 hshipped
  exact ⟨hprompt, hsound, paid, shipped, hp, hs, hpaid, hshipped,
    hshows 3 "A1" _ _ rfl (bodyOf_mem hp), hshows 4 "A1" _ _ rfl (bodyOf_mem hs)⟩

/-- The observer has the order shipped before the payment is answered: the answer names one state,
and its log ends with another. -/
theorem answer_overtaken :
    let s := atOnce Engine.shipping newEngine (fun a r => a.serve Engine.shipping r)
      (opening "clerk" ++ [.http (.sendEvent "A1") (eventRequest "pay")]) [0, 0, 0, 0, 0]
    ∃ body, bodyOf 3 s = some body ∧ namedState body = some (.text "paid") ∧
      loggedState body = some (.text "shipped") ∧ ¬ShowsOutcome "A1" (.answer 200 body) := by
  intro s
  have hstates : (bodyOf 3 s).map (fun body => (namedState body, loggedState body)) =
      some (some (.text "paid"), some (.text "shipped")) := by decide +kernel
  obtain ⟨body, hbody, hstates⟩ := Option.map_eq_some_iff.1 hstates
  obtain ⟨hnamed, hlogged⟩ := Prod.mk.inj hstates
  refine ⟨body, hbody, hnamed, hlogged, fun hshows => ?_⟩
  have hsame := hshows.named
  rw [hnamed, hlogged] at hsame
  exact absurd hsame (by decide)

end Api

end Workflow
