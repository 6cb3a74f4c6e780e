import Workflow.Proofs.Api.Onward
import Workflow.Proofs.Engine.Amid
import Workflow.Proofs.Registry.Found
import Workflow.Proofs.Run.Alike

/-!
# Refusals

A request to the routes of the instances is refused in two ways: what it is about does not exist, or
it is in the way or past changing. Which of them applies is told by the engine as the request finds
it, and by nothing that hooks do.

**Missing** (`Action.Missing`). A start names a workflow or a version that is not registered, any
other request an instance that is not stored, and a list of instances is wanted for a status that
there is not.

**In the way** (`Action.InTheWay`). A start is for an id that is taken, or the context of a finished
run is to be changed.

**Told failures** (`Action.Spoken`). Where a hook's failure cannot be told, the mishap may be
mistaken for a refusal of a start. So of the hooks that a start is about, all failures have to be
such as can be told.

Main result: `Action.goes`. However a request ends amid others, it is refused with 404 exactly if
something is missing, and with 409 exactly if something is in the way. Up to a refusal it leaves the
engine as it is.
-/

namespace Workflow.Api

open Activity
open Engine (Call Onward)

variable {reading : Nat → Instant} {others : EngineState → EngineState → Prop} {e : Engine}
  {r : Request} {a : Action} {w v : EngineState} {id : String}

/-! ## What is refused -/

namespace Action

/-- The parts of a request that the action needs can be read. -/
def Readable (r : Request) : Action → Prop
  | .startInstance => (r.object?.bind StartOrder.read?).isSome
  | .sendEvent _ => (r.object?.bind eventOrder?).isSome
  | .changeContext _ => (r.object?.bind ContextOrder.read?).isSome
  | _ => True

instance (r : Request) : (a : Action) → Decidable (a.Readable r)
  | .startInstance => inferInstanceAs (Decidable (Option.isSome _))
  | .sendEvent _ => inferInstanceAs (Decidable (Option.isSome _))
  | .changeContext _ => inferInstanceAs (Decidable (Option.isSome _))
  | .listDefinitions | .showDefinition _ | .showDefinitionGraph _ | .listInstances
  | .showInstance _ | .askEvent _ _ | .showInstanceGraph _ => inferInstanceAs (Decidable True)

/-- What an action is about is not there. -/
def Missing (r : Request) (w : EngineState) : Action → Prop
  | .startInstance => ∃ order, r.object?.bind StartOrder.read? = some order ∧
      ¬ w.registry.Registers (.text order.definition) (Value.ofOption (order.version.map .int))
  | .listInstances => ∃ word, r.queried? "status" = some word ∧ word ≠ "" ∧
      Status.ofWord? word = none
  | .showInstance id | .sendEvent id | .askEvent id _ | .changeContext id
  | .showInstanceGraph id => w.instances.get? id = none
  | .listDefinitions | .showDefinition _ | .showDefinitionGraph _ => False

/-- The id that a start is for, by the world in which it begins. -/
def idFor (order : StartOrder) (w : EngineState) : String :=
  order.id.getD (issuedId (w.env.issued + 1))

/-- A start finds its id taken, though its workflow is there and its versions have an order if none
is named; or the instance of which the context is to be changed is not running. -/
def InTheWay (r : Request) (begun now : EngineState) : Action → Prop
  | .startInstance => ∃ order, r.object?.bind StartOrder.read? = some order ∧
      begun.registry.Registers (.text order.definition) (Value.ofOption (order.version.map .int)) ∧
      begun.registry.find (.text order.definition) (Value.ofOption (order.version.map .int)) ≠
        .error (.malformed .unordered) ∧
      idFor order begun ∈ begun.reserved
  | .changeContext id => ∃ i, now.instances.get? id = some i ∧ ¬ i.isRunning
  | _ => False

/-- The hooks of the definition that a start is for fail in ways that can be told. -/
def Spoken (r : Request) (begun : EngineState) : Action → Prop
  | .startInstance => ∀ order d, r.object?.bind StartOrder.read? = some order →
      begun.registry.find (.text order.definition) (Value.ofOption (order.version.map .int)) = .ok d →
      d.Told
  | _ => True

/-! ## Answers -/

/-- What an action does, with its failures as they are. -/
def work (e : Engine) (r : Request) : Action → Call Response
  | .listDefinitions => Serve.listDefinitions r
  | .showDefinition id => Serve.showDefinition id r
  | .showDefinitionGraph id => Serve.showDefinitionGraph id r
  | .startInstance => Serve.startInstance e r
  | .listInstances => Serve.listInstances r
  | .showInstance id => Serve.showInstance id
  | .sendEvent id => Serve.sendEvent e id r
  | .askEvent id event => Serve.askEvent e id event
  | .changeContext id => Serve.changeContext id r
  | .showInstanceGraph id => Serve.showInstanceGraph id

/-- The failures that an action foresees, with their responses. -/
def foreseen : Action → Failure → Option Response
  | .startInstance => startRefusal
  | .changeContext _ => contextRefusal
  | _ => unknownRefusal

theorem serve_eq (a : Action) : a.serve e r = answering (a.work e r) a.foreseen := by
  cases a <;> rfl

/-- What comes back, by how the work has ended. -/
def reply (a : Action) : Except Failure Response → Except Failure Reply
  | .ok response => .ok (.response response)
  | .error f =>
    if f.isContained then .ok (.response ((a.foreseen f).getD .unforeseen)) else .error f

end Action

/-- **A request for an action does the work** and replies by how it has ended. -/
theorem call_of_action {m : Mount} (ha : m.action? r = some a)
    (hresource : m.resource? a.resource.name = some a.resource) :
    (Errand.http m r).call e = (a.work e r).attempt.bind fun x => ofExcept (a.reply x) := by
  have hrespond : m.respond e r = a.serve e r := by
    unfold Mount.action? at ha
    unfold Mount.respond
    cases hroute : m.route? r.path with
    | none =>
      rw [hroute] at ha
      cases ha
    | some route =>
      rw [hroute] at ha
      have haction : route.action? r.method = some a := ha
      simp only [haction, Mount.perform, hresource, if_true]
  show (m.respond e r).bind _ = _
  rw [hrespond, Action.serve_eq]
  unfold answering Activity.contained
  rw [bind_assoc, bind_assoc]
  congr
  funext x
  cases x with
  | ok response => rfl
  | error f =>
    unfold Action.reply
    dsimp only
    split <;> rfl

/-- The reply is a response with this status. -/
def Refuses (status : Nat) (reply : Except Failure Reply) : Prop :=
  ∃ response, reply = .ok (.response response) ∧ response.status = status

/-- The reply is 404 exactly if something is missing, and 409 exactly if something is in the way. -/
structure Judged (missing inTheWay : Prop) (reply : Except Failure Reply) : Prop where
  notFound : Refuses 404 reply ↔ missing
  conflict : Refuses 409 reply ↔ inTheWay

/-- The work of an action has ended in no way that is a refusal. -/
structure Granted (a : Action) (x : Except Failure Response) : Prop where
  response : ∀ response, x = .ok response → response.status ≠ 404 ∧ response.status ≠ 409
  unforeseen : ∀ f, x = .error f → f.isContained → a.foreseen f = none

section Judged

variable {missing inTheWay : Prop}

theorem Judged.of_notFound {reply : Except Failure Reply} {detail : String} (hmissing : missing)
    (hway : ¬ inTheWay) (hreply : reply = .ok (.response (.notFound detail))) :
    Judged missing inTheWay reply := by
  subst hreply
  refine ⟨iff_of_true ⟨_, rfl, rfl⟩ hmissing, iff_of_false ?_ hway⟩
  rintro ⟨_, ⟨⟩, hstatus⟩
  cases hstatus

theorem Judged.of_conflict {reply : Except Failure Reply} {detail : String} (hmissing : ¬ missing)
    (hway : inTheWay) (hreply : reply = .ok (.response (.conflict detail))) :
    Judged missing inTheWay reply := by
  subst hreply
  refine ⟨iff_of_false ?_ hmissing, iff_of_true ⟨_, rfl, rfl⟩ hway⟩
  rintro ⟨_, ⟨⟩, hstatus⟩
  cases hstatus

/-- No action foresees a failure about malformed data. -/
theorem Action.foreseen_malformed (a : Action) (flaw : Flaw) : a.foreseen (.malformed flaw) = none := by
  cases a <;> rfl

/-- Nor does any but a start foresee a mishap. -/
theorem Action.foreseen_mishap (ha : a ≠ .startInstance) (m : Mishap) :
    a.foreseen m.toFailure = none := by
  cases a with
  | startInstance => exact absurd rfl ha
  | _ => cases m <;> rfl

theorem Granted.not_refuses {x : Except Failure Response} (h : Granted a x) {status : Nat}
    (hstatus : status = 404 ∨ status = 409) : ¬ Refuses status (a.reply x) := by
  rintro ⟨response, hreply, rfl⟩
  cases x with
  | ok response' =>
    cases hreply
    obtain ⟨hnot, hnot'⟩ := h.response _ rfl
    exact hstatus.elim hnot hnot'
  | error f =>
    unfold Action.reply at hreply
    dsimp only at hreply
    split at hreply
    next hcontained =>
      rw [h.unforeseen f rfl hcontained] at hreply
      cases hreply
      rcases hstatus with hstatus | hstatus <;> cases hstatus
    next => cases hreply

theorem Judged.of_granted {x : Except Failure Response} (hmissing : ¬ missing) (hway : ¬ inTheWay)
    (hx : Granted a x) : Judged missing inTheWay (a.reply x) :=
  ⟨iff_of_false (hx.not_refuses (.inl rfl)) hmissing, iff_of_false (hx.not_refuses (.inr rfl)) hway⟩

end Judged

/-! ## Work that is granted -/

theorem Granted.of_status {response : Response} (h : response.status ≠ 404 ∧ response.status ≠ 409) :
    Granted a (.ok response) := by
  refine ⟨?_, nofun⟩
  rintro _ ⟨⟩
  exact h

theorem Granted.of_malformed {f : Failure} (h : f.isContained → ∃ flaw, f = .malformed flaw) :
    Granted a (.error f) := by
  refine ⟨nofun, ?_⟩
  rintro _ ⟨⟩ hcontained
  obtain ⟨flaw, rfl⟩ := h hcontained
  exact a.foreseen_malformed flaw

theorem Granted.of_stray {f : Failure} (ha : a ≠ .startInstance) (h : f.Stray) :
    Granted a (.error f) := by
  refine ⟨nofun, ?_⟩
  rintro _ ⟨⟩ hcontained
  obtain ⟨flaw, rfl⟩ | ⟨m, rfl⟩ := h hcontained
  · exact a.foreseen_malformed flaw
  · exact a.foreseen_mishap ha m

theorem status_ok (b : Value) : (Response.ok b).status ≠ 404 ∧ (Response.ok b).status ≠ 409 :=
  ⟨nofun, nofun⟩

theorem status_created (b : Value) :
    (Response.created b).status ≠ 404 ∧ (Response.created b).status ≠ 409 :=
  ⟨nofun, nofun⟩

theorem quotable_malformed {cause : Option Failure} {f : Failure}
    (h : (quotable cause).EndsAmid others w (.error f) v) : ∃ flaw, f = .malformed flaw := by
  have hf := (endsAmid_ofExcept.1 h).1
  split at hf <;> cases hf
  exact ⟨_, rfl⟩

/-- An answer with the detail of a stored instance is no refusal. -/
theorem granted_detail {i : Instance} {g : Value → Response} {x : Except Failure Response}
    (hg : ∀ b, (g b).status ≠ 404 ∧ (g b).status ≠ 409) (hstored : w.Stores i.id)
    (h : ((detail i).bind fun b => .done (g b)).EndsAmid others w x v) : Granted a x := by
  rcases endsAmid_bind.1 h with ⟨b, u, -, hdone⟩ | ⟨f, hdetail, rfl⟩
  · rw [hdone.1]
    exact .of_status (hg b)
  refine .of_malformed fun _ => ?_
  rcases endsAmid_bind.1 hdetail with ⟨log, u, -, hdetail⟩ | ⟨f', hlog, heq⟩
  · rcases endsAmid_bind.1 hdetail with ⟨_, x, -, hdone⟩ | ⟨f', hquote, heq⟩
    · cases hdone.1
    · cases heq
      exact quotable_malformed hquote
  · cases heq
    obtain ⟨d, -, hlog⟩ := Engine.endsAmid_known_bind hstored.definition hlog
    obtain ⟨j, -, hlog⟩ := Engine.endsAmid_known_bind hstored.snapshot hlog
    exact auditLog_malformed (endsAmid_ofExcept.1 hlog).1.symm

/-! ## How work goes -/

/-- The engine is as it was, but for contexts that have been made and ids that have been issued. -/
structure Untouched (w v : EngineState) : Prop where
  instances : v.instances = w.instances
  definitions : v.definitions = w.definitions
  reserved : v.reserved = w.reserved
  registry : v.registry = w.registry
  observers : v.observers = w.observers
  clock : v.env.clock = w.env.clock
  arenas : ∀ n < w.env.size, v.env.arena n = w.env.arena n
  size : w.env.size ≤ v.env.size

theorem Untouched.refl (w : EngineState) : Untouched w w :=
  ⟨rfl, rfl, rfl, rfl, rfl, rfl, fun _ _ => rfl, Nat.le_refl _⟩

theorem Untouched.trans {u : EngineState} (h : Untouched w v) (h' : Untouched v u) :
    Untouched w u where
  instances := h'.instances.trans h.instances
  definitions := h'.definitions.trans h.definitions
  reserved := h'.reserved.trans h.reserved
  registry := h'.registry.trans h.registry
  observers := h'.observers.trans h.observers
  clock := h'.clock.trans h.clock
  arenas n hn := (h'.arenas n (Nat.lt_of_lt_of_le hn h.size)).trans (h.arenas n hn)
  size := Nat.le_trans h.size h'.size

theorem untouched_among : Among (R := Realm.engine) Untouched :=
  ⟨Untouched.refl, Untouched.trans⟩

/-- The work ends with a refusal. -/
def Action.Refusal (a : Action) (x : Except Failure Response) : Prop :=
  Refuses 404 (a.reply x) ∨ Refuses 409 (a.reply x)

theorem Granted.not_refusal {x : Except Failure Response} (h : Granted a x) : ¬ a.Refusal x :=
  fun hx => hx.elim (h.not_refuses (.inl rfl)) (h.not_refuses (.inr rfl))

/-- How the work of an action goes from a world on, amid others. -/
structure Action.Goes (reading : Nat → Instant) (e : Engine) (r : Request) (a : Action)
    (w : EngineState) : Prop where
  judged : a.Spoken r w → ∀ x v, (a.work e r).EndsAmid (Onward reading) w x v →
    Judged (a.Missing r w) (a.InTheWay r w v) (a.reply x)
  /-- Up to a refusal it does nothing. -/
  standsBack : a.Spoken r w → (a.work e r).StandsBack (Onward reading) Untouched a.Refusal w
  /-- What can be seen at once is refused at once. -/
  prompt : a.Missing r w ∨ a = .startInstance ∧ a.InTheWay r w w → (a.work e r).Unbroken w

namespace Action.Goes

theorem of_notFound (htacit : (a.work e r).Tacit Untouched w)
    (hreply : ∃ detail, a.reply ((a.work e r).run w).answer = .ok (.response (.notFound detail)))
    (hmissing : a.Missing r w) (hway : ¬ a.InTheWay r w ((a.work e r).run w).world) :
    a.Goes reading e r w where
  judged _ x v h := by
    obtain ⟨rfl, rfl⟩ := htacit.unbroken.endsAmid h
    obtain ⟨_, hreply⟩ := hreply
    exact .of_notFound hmissing hway hreply
  standsBack _ := htacit.standsBack
  prompt _ := htacit.unbroken

theorem reply_of_stops {f : Failure} {response : Response}
    (hstops : Stops Untouched f (a.work e r) w) (hcontained : f.isContained)
    (hforeseen : a.foreseen f = some response) :
    a.reply ((a.work e r).run w).answer = .ok (.response response) := by
  rw [hstops.answer]
  unfold reply
  dsimp only
  rw [if_pos hcontained, hforeseen]
  rfl

theorem of_unknown {f : Failure} {detail : String} (hstops : Stops Untouched f (a.work e r) w)
    (hcontained : f.isContained) (hforeseen : a.foreseen f = some (.notFound detail))
    (hmissing : a.Missing r w) (hway : ¬ a.InTheWay r w ((a.work e r).run w).world) :
    a.Goes reading e r w :=
  .of_notFound hstops.tacit ⟨_, reply_of_stops hstops hcontained hforeseen⟩ hmissing hway

theorem of_taken {f : Failure} {detail : String} (hstops : Stops Untouched f (a.work e r) w)
    (hcontained : f.isContained) (hforeseen : a.foreseen f = some (.conflict detail))
    (hmissing : ¬ a.Missing r w) (hway : a.InTheWay r w ((a.work e r).run w).world) :
    a.Goes reading e r w where
  judged _ x v h := by
    obtain ⟨rfl, rfl⟩ := hstops.tacit.unbroken.endsAmid h
    exact .of_conflict hmissing hway (reply_of_stops hstops hcontained hforeseen)
  standsBack _ := hstops.tacit.standsBack
  prompt _ := hstops.tacit.unbroken

theorem of_granted (hmissing : ¬ a.Missing r w) (hway : ∀ v, ¬ a.InTheWay r w v)
    (hgranted : a.Spoken r w → ∀ x v, (a.work e r).EndsAmid (Onward reading) w x v → Granted a x) :
    a.Goes reading e r w where
  judged hspoken x v h := .of_granted hmissing (hway v) (hgranted hspoken x v h)
  standsBack hspoken := Never.standsBack fun x v h => (hgranted hspoken x v h).not_refusal
  prompt h := (h.elim hmissing fun h => hway w h.2).elim

end Action.Goes

/-! ## The actions -/

/-- What the engine has under an id that it has not stored. -/
theorem unknown_of_not_stored (htables : w.instances.keys = w.definitions.keys)
    (hnone : w.instances.get? id = none) : w.definitions.get? id = none := by
  cases hd : w.definitions.get? id with
  | none => rfl
  | some d =>
    obtain ⟨i, hi⟩ := Dict.mem_keys.1 (htables ▸ Dict.mem_keys.2 ⟨d, hd⟩ : id ∈ w.instances.keys)
    cases hnone.symm.trans hi

theorem stores_of_snapshot (htables : w.instances.keys = w.definitions.keys) {i : Instance}
    (hi : w.instances.get? id = some i) : w.Stores id :=
  ⟨⟨i, hi⟩, Dict.mem_keys.1 (htables ▸ Dict.mem_keys.2 ⟨i, hi⟩)⟩

theorem tacit_known {α : Type} {G : EngineState → EngineState → Prop} (id : String)
    (table : EngineState → Dict String α) (w : EngineState) : (Engine.known id table).Tacit G w := by
  unfold Engine.known Tacit
  dsimp only
  split <;> trivial

/-- An answer with a detail only looks. -/
theorem tacit_showing {G : EngineState → EngineState → Prop} (i : Instance) (g : Value → Response)
    (w : EngineState) : ((detail i).bind fun b => (.done (g b) : Call Response)).Tacit G w := by
  refine Tacit.bind (Tacit.bind ?_ fun _ _ => ?_) fun _ _ => trivial
  rotate_left
  · exact (tacit_ofExcept _ _).bind fun _ _ => trivial
  refine (tacit_known i.id _ w).bind fun d _ => (tacit_known i.id _ _).bind fun j _ => ?_
  exact tacit_ofExcept _ _

theorem stops_known {α : Type} {G : EngineState → EngineState → Prop}
    {table : EngineState → Dict String α} (hnone : (table w).get? id = none) :
    Stops G (.instanceNotFound id) (Engine.known id table) w := by
  refine ⟨tacit_known id table w, ?_⟩
  unfold Engine.known Activity.run
  dsimp only
  rw [hnone]
  rfl

theorem listInstances_goes : Action.listInstances.Goes reading e r w := by
  have hmissing : Action.listInstances.Missing r w ↔
      ∃ word, (r.queried? "status").filter (· ≠ "") = some word ∧ Status.ofWord? word = none := by
    simp only [Option.filter_eq_some_iff, decide_eq_true_eq, and_assoc]
    exact Iff.rfl
  have hgranted : ∀ {status} (g : List Instance → Value) x v,
      ((Engine.list status).bind fun is => (.done (.ok (g is)) : Call Response)).EndsAmid
        (Onward reading) w x v → Granted .listInstances x := by
    intro status g x v h
    rw [h.1]
    exact .of_status (status_ok _)
  have hwork : Action.listInstances.work e r = Serve.listInstances r := rfl
  unfold Serve.listInstances at hwork
  dsimp only at hwork
  cases hfilter : (r.queried? "status").filter (· ≠ "") with
  | none =>
    rw [hfilter] at hwork hmissing
    refine .of_granted (fun h => ?_) (fun v h => h) fun _ => hwork ▸ hgranted _
    obtain ⟨_, hword, -⟩ := hmissing.1 h
    cases hword
  | some word =>
    rw [hfilter] at hwork hmissing
    dsimp only at hwork
    cases hstatus : Status.ofWord? word with
    | some status =>
      rw [hstatus] at hwork
      refine .of_granted (fun h => ?_) (fun v h => h) fun _ => hwork ▸ hgranted _
      obtain ⟨_, ⟨⟩, hnone⟩ := hmissing.1 h
      cases hnone.symm.trans hstatus
    | none =>
      rw [hstatus] at hwork
      refine .of_notFound ?_ ?_ (hmissing.2 ⟨word, rfl, hstatus⟩) fun h => h
      · rw [hwork]
        trivial
      · rw [hwork]
        exact ⟨_, rfl⟩

section Stored

variable (hkept : w.WellKept reading) (htables : w.instances.keys = w.definitions.keys)
include hkept htables

theorem showInstance_goes (id : String) : (Action.showInstance id).Goes reading e r w := by
  cases hi : w.instances.get? id with
  | none =>
    have hstops : Stops Untouched (.instanceNotFound id) (Serve.showInstance id) w :=
      (stops_known hi).bind
    exact .of_unknown hstops rfl rfl hi fun h => h
  | some i =>
    refine .of_granted (fun h => nomatch h.symm.trans hi) (fun _ h => h) fun _ x v h => ?_
    obtain ⟨j, hj, h⟩ := Engine.endsAmid_known_bind ⟨i, hi⟩ h
    cases hi.symm.trans hj
    refine granted_detail status_ok ?_ h
    rw [(hkept.held id i hi).1.id]
    exact stores_of_snapshot htables hi

omit hkept in
theorem showInstanceGraph_goes (id : String) :
    (Action.showInstanceGraph id).Goes reading e r w := by
  cases hi : w.instances.get? id with
  | none =>
    have hstops : Stops Untouched (.instanceNotFound id) (Serve.showInstanceGraph id) w :=
      (stops_known hi).bind
    exact .of_unknown hstops rfl rfl hi fun h => h
  | some i =>
    refine .of_granted (fun h => nomatch h.symm.trans hi) (fun _ h => h) fun _ x v h => ?_
    obtain ⟨j, -, h⟩ := Engine.endsAmid_known_bind ⟨i, hi⟩ h
    obtain ⟨d, -, h⟩ := Engine.endsAmid_known_bind (stores_of_snapshot htables hi).definition h
    rcases endsAmid_bind.1 h with ⟨source, u, -, hdone⟩ | ⟨f, hsource, rfl⟩
    · rw [hdone.1]
      exact .of_status (status_ok _)
    · exact .of_malformed fun _ =>
        Definition.mermaidWith_malformed (endsAmid_ofExcept.1 hsource).1.symm

theorem sendEvent_goes (id : String) (hread : (Action.sendEvent id).Readable r) :
    (Action.sendEvent id).Goes reading e r w := by
  obtain ⟨event, hevent⟩ := Option.isSome_iff_exists.1 hread
  have hwork : (Action.sendEvent id).work e r = (e.send id event).bind fun out =>
      (detail out.reached).bind fun b =>
        .done (.ok (.object [("transitioned", .bool out.transitioned), ("instance", b)])) := by
    show Serve.sendEvent e id r = _
    unfold Serve.sendEvent
    rw [hevent]
  cases hi : w.instances.get? id with
  | none =>
    have hsend : Stops Untouched (.instanceNotFound id) (e.send id event) w :=
      (stops_known (unknown_of_not_stored htables hi)).bind.bind
    have hstops := hsend.bind (g := fun out => (detail out.reached).bind fun b =>
        .done (Response.ok (.object [("transitioned", .bool out.transitioned), ("instance", b)])))
    rw [← hwork] at hstops
    exact .of_unknown hstops rfl rfl hi fun h => h
  | some i =>
    refine .of_granted (fun h => nomatch h.symm.trans hi) (fun _ h => h) fun _ x v h => ?_
    rw [hwork] at h
    have hstored := stores_of_snapshot htables hi
    rcases endsAmid_bind.1 h with ⟨out, u, hsend, hdetail⟩ | ⟨f, hsend, rfl⟩
    · have hsent := Engine.send_amid hkept hstored hsend
      refine granted_detail (fun b => status_ok _) ?_ hdetail
      rw [hsent.reached out rfl]
      exact hsent.stores
    · exact .of_stray nofun ((Engine.send_amid hkept hstored hsend).strays f rfl)

omit hkept in
theorem askEvent_goes (id event : String) : (Action.askEvent id event).Goes reading e r w := by
  cases hi : w.instances.get? id with
  | none =>
    have hcan : Stops Untouched (.instanceNotFound id) (e.canFire id event) w :=
      (stops_known (unknown_of_not_stored htables hi)).bind
    have hstops : Stops Untouched (.instanceNotFound id) (Serve.askEvent e id event) w :=
      hcan.attempt ⟨trivial, rfl⟩
    exact .of_unknown hstops rfl rfl hi fun h => h
  | some i =>
    refine .of_granted (fun h => nomatch h.symm.trans hi) (fun _ h => h) fun _ x v h => ?_
    obtain ⟨y, u, hcan, hanswer⟩ := EndsAmid.attempt h
    -- What a guard has raised is part of the answer, so that only other failures are left.
    split at hanswer
    · rw [hanswer.1]
      exact .of_status (status_ok _)
    · rcases endsAmid_bind.1 hanswer with ⟨_, u', -, hdone⟩ | ⟨f, hquote, rfl⟩
      · rw [hdone.1]
        exact .of_status (status_ok _)
      · exact .of_malformed fun _ => quotable_malformed hquote
    next f hother =>
      rw [hanswer.1]
      rcases Engine.canFire_amid (stores_of_snapshot htables hi) hcan rfl with
        ⟨role, state, cause, rfl⟩ | hstray
      · exact absurd rfl (hother role state cause)
      · exact .of_stray nofun hstray

end Stored

/-! ## Starting -/

theorem untouched_newContext (v : Value) (w : EngineState) :
    Untouched w { w with env := w.env.allocate v } where
  instances := rfl
  definitions := rfl
  reserved := rfl
  registry := rfl
  observers := rfl
  clock := rfl
  arenas _ hn := Environment.arena_allocate v hn
  size := Nat.le_of_lt (Nat.lt_of_lt_of_eq (Nat.lt_succ_self _) (Environment.size_allocate v w.env).symm)

theorem tacit_newContext (v : Value) (w : EngineState) :
    (Engine.within (newContext v)).Tacit Untouched w :=
  ⟨untouched_newContext v w, trivial⟩

/-- A version that an order names can be a key. -/
theorem key_of_version (version : Option Int) :
    ∃ v, (Value.ofOption (version.map .int)).key? = some v := by
  cases version <;> exact ⟨_, rfl⟩

theorem tacit_askRegistry {α : Type} (q : Registry → Except Failure α) (w : EngineState) :
    (Engine.askRegistry q).Tacit Untouched w :=
  tacit_ofExcept (R := Realm.engine) _ w

theorem run_askRegistry {α : Type} (q : Registry → Except Failure α) (w : EngineState) :
    (Engine.askRegistry q).run w = ⟨q w.registry, w, []⟩ :=
  run_ofExcept (R := Realm.engine) _ w

theorem tacit_idOrIssued (given : Option String) (w : EngineState) :
    (Engine.within (idOrIssued given)).Tacit Untouched w := by
  cases given with
  | none => exact ⟨⟨rfl, rfl, rfl, rfl, rfl, rfl, fun _ _ => rfl, Nat.le_refl _⟩, trivial⟩
  | some id => trivial

section Start

variable {name version : Value} {c : Option Context} {given : Option String}

theorem stops_start_unknown {f : Failure} (hfind : w.registry.find name version = .error f) :
    Stops Untouched f (e.start name version c given) w := by
  have hask : Stops Untouched f (Engine.askRegistry (·.find name version)) w :=
    ⟨tacit_askRegistry _ w, by rw [run_askRegistry]; exact hfind⟩
  exact hask.bind

theorem stops_start_taken {d : Definition} (hfind : w.registry.find name version = .ok d)
    (htaken : given.getD (issuedId (w.env.issued + 1)) ∈ w.reserved) :
    Stops Untouched (Engine.idTaken (given.getD (issuedId (w.env.issued + 1))))
      (e.start name version c given) w := by
  have hask : ((Engine.askRegistry (·.find name version)).run w).answer = .ok d := by
    rw [run_askRegistry]
    exact hfind
  refine (tacit_askRegistry _ w).stops hask ?_
  rw [run_askRegistry]
  have hid : ((Engine.within (idOrIssued given)).run w).answer =
        .ok (given.getD (issuedId (w.env.issued + 1))) ∧
      ((Engine.within (idOrIssued given)).run w).world.reserved = w.reserved := by
    cases given <;> exact ⟨rfl, rfl⟩
  refine (tacit_idOrIssued given w).stops hid.1 ?_
  rw [← hid.2] at htaken
  constructor
  · unfold Tacit
    dsimp only
    rw [if_pos htaken]
    trivial
  · unfold Activity.run
    dsimp only
    rw [if_pos htaken]
    rfl

end Start

theorem startInstance_goes (hread : Action.startInstance.Readable r) :
    Action.startInstance.Goes reading e r w := by
  obtain ⟨order, horder⟩ := Option.isSome_iff_exists.1 hread
  let name := Value.text order.definition
  let version := Value.ofOption (order.version.map .int)
  let content := Value.object order.context
  let w' : EngineState := { w with env := w.env.allocate content }
  obtain ⟨c, hnew⟩ : ∃ c, (Engine.within (newContext content)).run w = ⟨.ok c, w', []⟩ := ⟨_, rfl⟩
  have hwork : Action.startInstance.work e r = (Engine.within (newContext content)).bind fun c =>
      (e.start name version (some c) order.id).bind fun i =>
      (detail i).bind fun b => .done (.created b) := by
    show Serve.startInstance e r = _
    unfold Serve.startInstance
    rw [horder]
  -- A start that fails at once makes its context before, and nothing else.
  have hstops : ∀ {f}, Stops Untouched f (e.start name version (some c) order.id) w' →
      Stops Untouched f (Action.startInstance.work e r) w := by
    intro f hstart
    rw [hwork]
    refine (tacit_newContext content w).stops (by rw [hnew]) ?_
    rw [hnew]
    exact hstart.bind
  have hends : ∀ x v, (Action.startInstance.work e r).EndsAmid (Onward reading) w x v →
      ((e.start name version (some c) order.id).bind fun i =>
        (detail i).bind fun b => .done (.created b)).EndsAmid (Onward reading) w' x v := by
    intro x v h
    rw [hwork] at h
    have hunbroken := (tacit_newContext content w).unbroken
    rcases endsAmid_bind.1 h with ⟨c', u, hc, hstart⟩ | ⟨f, hf, -⟩
    · obtain ⟨hanswer, rfl⟩ := hunbroken.endsAmid hc
      rw [hnew] at hanswer hstart
      cases hanswer
      exact hstart
    · have hanswer := (hunbroken.endsAmid hf).1
      rw [hnew] at hanswer
      cases hanswer
  have hmissing : Action.startInstance.Missing r w ↔ ¬ w.registry.Registers name version := by
    constructor
    · rintro ⟨order', horder', hnot⟩
      cases horder.symm.trans horder'
      exact hnot
    · exact fun hnot => ⟨order, horder, hnot⟩
  have hway : ∀ v, Action.startInstance.InTheWay r w v ↔ w.registry.Registers name version ∧
      w.registry.find name version ≠ .error (.malformed .unordered) ∧
      Action.idFor order w ∈ w.reserved := by
    intro v
    constructor
    · rintro ⟨order', horder', h⟩
      cases horder.symm.trans horder'
      exact h
    · exact fun h => ⟨order, horder, h⟩
  obtain ⟨key, hversion⟩ := key_of_version order.version
  by_cases hregisters : w.registry.Registers name version
  rotate_left
  · obtain ⟨shown, hfind⟩ := (Registry.find_notFound_iff rfl hversion).2 hregisters
    refine .of_unknown (hstops (stops_start_unknown hfind)) rfl rfl (hmissing.2 hregisters) ?_
    exact fun h => hregisters ((hway _).1 h).1
  have hthere : ¬ Action.startInstance.Missing r w := fun h => hmissing.1 h hregisters
  rcases Registry.find_of_registers hregisters with ⟨d, hfind⟩ | ⟨-, hfind⟩
  rotate_left
  · -- The versions have no order: this is neither a refusal nor a start.
    refine .of_granted hthere (fun v h => ((hway v).1 h).2.1 hfind) fun _ x v h => ?_
    have hstop : Stops Untouched _ (e.start name version (some c) order.id) w' :=
      stops_start_unknown hfind
    rw [(hstop.bind.endsAmid (hends x v h)).1]
    exact .of_malformed fun _ => ⟨_, rfl⟩
  by_cases htaken : Action.idFor order w ∈ w.reserved
  · refine .of_taken (hstops (stops_start_taken hfind htaken)) rfl rfl hthere ((hway _).2 ?_)
    refine ⟨hregisters, fun h => ?_, htaken⟩
    cases hfind.symm.trans h
  · refine .of_granted hthere (fun v h => htaken ((hway v).1 h).2.2) fun hspoken x v h => ?_
    rcases endsAmid_bind.1 (hends x v h) with ⟨i, u, hstart, hdetail⟩ | ⟨f, hstart, rfl⟩
    · have hstarted := (Engine.start_amid hstart).free d hfind htaken
      exact granted_detail status_created (hstarted.stores i rfl) hdetail
    · have hstarted := (Engine.start_amid hstart).free d hfind htaken
      exact .of_malformed (hstarted.malformed (hspoken order d horder hfind) f rfl)

/-! ## Changing a context -/

theorem unbroken_mergeMembers (members : List (String × Value)) (root : Datum) (n : Nat)
    (env : Environment) :
    ((mergeMembers members root).awaited.lift (Realm.hookIn n)).Unbroken env := by
  rw [lift_awaited]
  refine Unbroken.awaited ?_
  unfold mergeMembers Activity.lift Activity.Unbroken
  dsimp only
  split <;> trivial

/-- Merging members is plain work: it fails only where the context is no object. -/
theorem plain_merging (members : List (String × Value)) :
    Engine.Plain (Engine.updating (mergeMembers members)) where
  unbroken c env := (unbroken_mergeMembers members _ _ _).bind fun _ _ => trivial
  strays c := by
    have hmerge : ∀ copy : Context, FailsAs Failure.Stray
        ((mergeMembers members copy.root).awaited.lift (Realm.hookIn copy.arena)) := by
      refine fun copy => FailsAs.lift (FailsAs.awaited fun f hf => ?_)
      obtain ⟨arena, hf⟩ := hf
      dsimp only at hf
      split at hf
      · cases hf
      · cases hf
        exact fun _ => .inl ⟨_, rfl⟩
    have hcopy : FailsAs Failure.Stray (Engine.copyContext c) := fun _ ⟨_, h⟩ => nomatch h
    exact hcopy.bind fun copy _ => (hmerge copy).bind fun _ _ => .done _

/-- A change of the context has failed in a way that says something. -/
def Told (r : Except Failure Instance) : Prop := ∃ f, r = .error f ∧ ¬ f.Stray

/-- How the change of a context goes from a world on, amid others. -/
structure Changes (reading : Nat → Instant) (id : String) (change : Call Instance)
    (w : EngineState) : Prop where
  unknown : w.definitions.get? id = none → Stops Untouched (.instanceNotFound id) change w
  amid : w.Stores id → ∀ r v, change.EndsAmid (Onward reading) w r v →
    ∃ u i, Engine.RecontextedAmid id u i r v ∧ i.id = id ∧ v.Stores id
  standsBack : w.Stores id → change.StandsBack (Onward reading) Untouched Told w

theorem changes_replaceContext {f : Context → Activity Realm.flow Context} (hf : Engine.Plain f)
    (hkept : w.WellKept reading) : Changes reading id (Engine.replaceContext id f) w where
  unknown hnone := (stops_known hnone).bind
  amid hstored r v h := Engine.replaceContext_amid hf hkept hstored h
  standsBack hstored := by
    rw [Engine.replaceContext_eq]
    have hlook : (Engine.definitionOf id).StandsBack (Onward reading) Untouched (fun _ => True) w :=
      (tacit_known id _ w).standsBack
    refine hlook.bind (fun d u hd => ?_) (fun _ _ _ hnot => absurd trivial hnot) fun _ _ => trivial
    obtain ⟨rfl, -⟩ := Engine.endsAmid_known hd
    refine StandsBack.locked fun v hv => ?_
    show (Engine.working id (Engine.recontexting id f) some).StandsBack _ _ _ v
    obtain ⟨before, hbefore⟩ := (hv.stores id hstored).snapshot
    by_cases hrunning : before.isRunning
    · refine Never.standsBack fun r x hr => ?_
      obtain ⟨j, hj, hsame, -⟩ := Engine.recontexting_amid hf hbefore hr
      rintro ⟨f', hf', hstray⟩
      exact hstray (hj.strays (hsame.trans hrunning) f' hf')
    · refine Tacit.standsBack ((tacit_known id _ v).bind fun i hi => ?_)
      have hsame : ((Engine.known id (·.instances)).run v) = ⟨.ok before, v, []⟩ := by
        unfold Engine.known Activity.run
        dsimp only
        rw [hbefore]
        rfl
      rw [hsame] at hi ⊢
      cases hi
      unfold Engine.recontexting
      rw [if_neg hrunning]
      trivial

/-- A context that is made before is one more thing that is made. -/
theorem changes_newContext {v : Value} {g : Context → Call Instance}
    (h : ∀ c, Changes reading id (g c) { w with env := w.env.allocate v }) :
    Changes reading id ((Engine.within (newContext v)).bind g) w where
  unknown hnone := (tacit_newContext v w).stops rfl ((h _).unknown hnone)
  amid hstored r x hends := (h _).amid ⟨hstored.snapshot, hstored.definition⟩ r x hends
  standsBack hstored :=
    .inl ⟨untouched_newContext v w, (h _).standsBack ⟨hstored.snapshot, hstored.definition⟩⟩

/-- The change that an order asks for. -/
def ContextOrder.change (id : String) (order : ContextOrder) : Call Instance :=
  if order.merge then Engine.updateContext id (mergeMembers order.context)
  else (Engine.within (newContext (.object order.context))).bind fun c => Engine.setContext id c

theorem ContextOrder.changes (order : ContextOrder) (hkept : w.WellKept reading) (id : String) :
    Changes reading id (order.change id) w := by
  unfold ContextOrder.change
  split
  · exact changes_replaceContext (plain_merging order.context) hkept
  · refine changes_newContext fun c => changes_replaceContext ⟨?_, ?_⟩ ⟨hkept.clock, hkept.held⟩
    · exact fun _ _ => trivial
    · exact fun _ => .done _

theorem changeContext_goes (hkept : w.WellKept reading)
    (htables : w.instances.keys = w.definitions.keys) (id : String)
    (hread : (Action.changeContext id).Readable r) :
    (Action.changeContext id).Goes reading e r w := by
  obtain ⟨order, horder⟩ := Option.isSome_iff_exists.1 hread
  have hchange := order.changes hkept id
  have hwork : (Action.changeContext id).work e r =
      (order.change id).bind fun i => (detail i).bind fun b => .done (.ok b) := by
    show Serve.changeContext id r = _
    unfold Serve.changeContext
    rw [horder]
    rfl
  cases hi : w.instances.get? id with
  | none =>
    have hstops := (hchange.unknown (unknown_of_not_stored htables hi)).bind
      (g := fun i => (detail i).bind fun b => .done (Response.ok b))
    rw [← hwork] at hstops
    refine .of_unknown hstops rfl rfl hi ?_
    rintro ⟨i, hsnapshot, -⟩
    rw [(hstops.tacit.world untouched_among).instances, hi] at hsnapshot
    cases hsnapshot
  | some i =>
    have hstored := stores_of_snapshot htables hi
    have hthere : ¬ (Action.changeContext id).Missing r w := fun h => nomatch h.symm.trans hi
    have hdetail : ∀ {j x u v}, (order.change id).EndsAmid (Onward reading) w (.ok j) u →
        ((detail j).bind fun b => .done (.ok b)).EndsAmid (Onward reading) u x v →
        Granted (.changeContext id) x ∧ v = u := by
      intro j x u v hends hdetail
      obtain ⟨_, k, hk, hid, hstores⟩ := hchange.amid hstored _ _ hends
      refine ⟨granted_detail status_ok ?_ hdetail, ?_⟩
      · rw [hk.reached j rfl, hid]
        exact hstores
      · have htacit := tacit_showing (G := Eq) j Response.ok u
        rw [(htacit.unbroken.endsAmid hdetail).2]
        exact (htacit.world ⟨fun _ => rfl, Eq.trans⟩).symm
    constructor
    · intro _ x v h
      rw [hwork] at h
      rcases endsAmid_bind.1 h with ⟨j, u, hends, hshow⟩ | ⟨f, hends, rfl⟩
      · obtain ⟨hgranted, rfl⟩ := hdetail hends hshow
        obtain ⟨_, k, hk, -⟩ := hchange.amid hstored _ _ hends
        refine .of_granted hthere ?_ hgranted
        rintro ⟨k', hk', hnot⟩
        cases hk.snapshot.symm.trans hk'
        cases hk.finished hnot
      · obtain ⟨_, k, hk, -⟩ := hchange.amid hstored _ _ hends
        by_cases hrunning : k.isRunning
        · refine .of_granted hthere ?_ (.of_stray nofun (hk.strays hrunning f rfl))
          rintro ⟨k', hk', hnot⟩
          cases hk.snapshot.symm.trans hk'
          exact hnot hrunning
        · cases hk.finished hrunning
          exact .of_conflict hthere ⟨k, hk.snapshot, hrunning⟩ rfl
    · intro _
      rw [hwork]
      refine (hchange.standsBack hstored).bind (fun j u _ => ?_) (fun j u hends _ x v h => ?_) ?_
      · exact (tacit_showing j Response.ok u).standsBack
      · exact (hdetail hends h).1.not_refusal
      · intro f hf
        have hnot : Action.changeContext id ≠ .startInstance := nofun
        exact ⟨f, rfl, fun hstray => (Granted.of_stray hnot hstray).not_refusal hf⟩
    · rintro (h | ⟨h, -⟩)
      · exact absurd h hthere
      · cases h

/-- **Requests about instances** go so wherever the engine is well kept. -/
theorem Action.goes (hengine : a.resource = .engine) (hread : a.Readable r)
    (hkept : w.WellKept reading) (htables : w.instances.keys = w.definitions.keys) :
    a.Goes reading e r w := by
  cases a with
  | listDefinitions | showDefinition id | showDefinitionGraph id => cases hengine
  | startInstance => exact startInstance_goes hread
  | listInstances => exact listInstances_goes
  | showInstance id => exact showInstance_goes hkept htables id
  | sendEvent id => exact sendEvent_goes hkept htables id hread
  | askEvent id event => exact askEvent_goes htables id event
  | changeContext id => exact changeContext_goes hkept htables id hread
  | showInstanceGraph id => exact showInstanceGraph_goes htables id

end Workflow.Api
