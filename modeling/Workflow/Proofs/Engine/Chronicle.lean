import Workflow.Proofs.Engine.Jobs
import Workflow.Proofs.Schedule.Accord
import Workflow.Proofs.Schedule.Marked

/-!
# The chronicle of an engine

What the calls on an engine do, in the order in which they do it.

**Entries** (`Entry`). An entry says which call has done something, and under which id: a start has
stored its instance, a dispatch its outcome; an observer is told. Entries about a stored instance
are made while its lock is held.

**Marked calls** (`Job.chronicled`). The calls on an engine, written out with their entries. Without
the marks they are the calls themselves (`unmarked_chronicled`), so what holds of the chronicle
holds of every run of the engine (`chronicled_unmarked`).

**Served calls** (`Engine.served`). Events, questions and changes of contexts are of one shape: the
definition is looked up, and then some work is done on the stored snapshot under its lock.
-/

namespace Workflow

open Activity

/-- What a call does, as far as others are concerned. -/
inductive Deed where
  /-- A look-up has failed, before anything else was done. -/
  | missed (f : Failure)
  /-- A start has found its id taken, by an instance that is stored or by another start. -/
  | refused (stored : Bool)
  /-- A start has stored its instance. -/
  | started (i : Instance)
  /-- A start has given its id up. -/
  | unstarted (f : Failure)
  /-- An event was dispatched, and the outcome stored. -/
  | dispatched (event : String) (before : Instance) (out : Dispatch)
  /-- It was asked whether an event would be taken. -/
  | asked (event : String) (before : Instance) (fires : Bool)
  /-- A snapshot with another context was stored. -/
  | recontexted (before after : Instance)
  /-- The work on a snapshot has failed. -/
  | gaveUp (before : Instance) (f : Failure)
  /-- An observer is told. -/
  | told (name : String) (n : Notice)
  | subscribed (name : String)
  | unsubscribed (name : String)
  deriving DecidableEq

/-- A deed, with the call that did it and the id that it is about. -/
structure Entry where
  caller : Nat
  id : Option String
  deed : Deed
  deriving DecidableEq

/-- The realm of calls that are chronicled. -/
abbrev Realm.chronicled : Realm := Realm.engine.marked Entry

namespace Engine

/-- A call on an engine, with its entries. -/
abbrev MarkedCall (α : Type) := Activity Realm.chronicled α

variable {α β : Type}

/-! ## Served calls -/

/-- A call that works on a stored snapshot under its lock, and may store another one. -/
def served (id : String) (work : Definition → Instance → Activity Realm.flow β)
    (after : β → Option Instance) : Call β :=
  (definitionOf id).bind fun d =>
  Activity.locked id
    ((instanceOf id).bind fun before =>
      (within (work d before)).bind fun b =>
      match after b with
      | some j => .update (EngineState.setInstance id j) (.done b)
      | none => .done b)

/-- The work of a dispatch. -/
def dispatching (e : Engine) (event : String) (d : Definition) (before : Instance) :
    Activity Realm.flow (Instance × Dispatch) :=
  (before.send d e.limits event).bind fun out => .done (before, out)

/-- The work of a change of the context. -/
def recontexting (id : String) (f : Context → Activity Realm.flow Context) (i : Instance) :
    Activity Realm.flow Instance :=
  if i.isRunning then (f i.ctx).bind fun c => .done { i with ctx := c }
  else .fail (.alreadyFinished id i.status.word)

/-- The work of an updater: it runs on a copy of the context. -/
def updating (updater : Datum → Activity Realm.hook HookAnswer) (c : Context) :
    Activity Realm.flow Context :=
  (copyContext c).bind fun copy =>
  ((updater copy.root).awaited.lift (Realm.hookIn copy.arena)).bind fun _ => .done copy

theorem within_bind (t : Activity Realm.flow α) (g : α → Activity Realm.flow β) :
    within (t.bind g) = (within t).bind fun a => within (g a) :=
  lift_bind t g

theorem within_run (t : Activity Realm.flow α) (w : EngineState) :
    ((within t).run w).answer = (t.run w.env).answer ∧
      ((within t).run w).world = { w with env := (t.run w.env).world } := by
  have hlawful : Lawful Realm.flowIn fun _ => True :=
    ⟨fun _ _ => trivial, fun _ _ => rfl, fun _ _ _ => rfl, fun _ => rfl⟩
  have hrun := run_lift hlawful t (w := w) trivial
  exact ⟨congrArg (·.answer) hrun, congrArg (·.world) hrun⟩

theorem dispatch_eq (e : Engine) (id event : String) :
    e.dispatch id event = served id (e.dispatching event) fun x => some x.2.reached := by
  unfold dispatch served dispatching
  simp only [within_bind, Activity.bind_assoc]
  rfl

theorem canFire_eq (e : Engine) (id event : String) :
    e.canFire id event = served id (fun d i => i.canFire d event) fun _ => none := by
  unfold canFire served
  simp only [bind_done]

theorem replaceContext_eq (id : String) (f : Context → Activity Realm.flow Context) :
    replaceContext id f = served id (fun _ => recontexting id f) some := by
  unfold replaceContext served runningInstance recontexting
  simp only [Activity.bind_assoc]
  congr; funext d; congr; funext i
  split
  · simp only [within_bind, Activity.bind_assoc]
    rfl
  · rfl

/-! ## The same calls with entries

Each call is written out for a caller, by number. -/

section Marked

variable (e : Engine) (n : Nat)

/-- Work, and an entry if it fails. -/
def noting (deed : Failure → Entry) (t : Call α) (g : α → MarkedCall β) : MarkedCall β :=
  (t.plain Entry).attempt.bind fun
    | .ok a => g a
    | .error f => mark (deed f) (.fail f)

/-- A served call with its entries. -/
def servedBy (id : String) (work : Definition → Instance → Activity Realm.flow β)
    (after : β → Option Instance) (deed : Instance → β → Deed) : MarkedCall β :=
  noting (fun f => ⟨n, some id, .missed f⟩) (definitionOf id) fun d =>
  locked (R := Realm.chronicled) id
    (((instanceOf id).plain Entry).bind fun before =>
      noting (fun f => ⟨n, some id, .gaveUp before f⟩) (within (work d before)) fun b =>
      match after b with
      | some j => .update (EngineState.setInstance id j) (mark ⟨n, some id, deed before b⟩ (.done b))
      | none => mark ⟨n, some id, deed before b⟩ (.done b))

def dispatchBy (id event : String) : MarkedCall (Instance × Dispatch) :=
  servedBy n id (e.dispatching event) (fun x => some x.2.reached) fun _ x =>
    .dispatched event x.1 x.2

def canFireBy (id event : String) : MarkedCall Bool :=
  servedBy n id (fun d i => i.canFire d event) (fun _ => none) (.asked event)

def replaceContextBy (id : String) (f : Context → Activity Realm.flow Context) :
    MarkedCall Instance :=
  servedBy n id (fun _ => recontexting id f) some .recontexted

def subscribeBy (name : String) (next : MarkedCall α) : MarkedCall α :=
  .update (fun s => { s with observers := s.observers ++ [name] })
    (mark ⟨n, none, .subscribed name⟩ next)

def unsubscribeBy (name : String) (next : MarkedCall α) : MarkedCall α :=
  .update (fun s => { s with observers := s.observers.erase name })
    (mark ⟨n, none, .unsubscribed name⟩ next)

def performBy (send : String → String → MarkedCall Dispatch) : Reaction → MarkedCall Unit
  | .done => .done ()
  | .fail f => .fail f
  | .note v next => .report (.inl (.noted v)) (performBy send next)
  | .yield next => Activity.yield.bind fun _ => performBy send next
  | .subscribe name next => subscribeBy n name (performBy send next)
  | .unsubscribe name next => unsubscribeBy n name (performBy send next)
  | .send id event k => (send id event).bind fun outcome => performBy send (k outcome)

def tellAllBy (id : String) (send : String → String → MarkedCall Dispatch) (notice : Notice) :
    List String → MarkedCall Unit
  | [] => .done ()
  | name :: rest =>
    mark ⟨n, some id, .told name notice⟩
      ((performBy n send (e.reactionOf name notice)).contained.bind fun
        | .ok _ => tellAllBy id send notice rest
        | .error _ =>
          .report (.inl (.logged .error notice.complaint)) (tellAllBy id send notice rest))

def announceBy (id : String) (send : String → String → MarkedCall Dispatch) (event : String)
    (before : Instance) (outcome : Dispatch) : MarkedCall Unit :=
  if isNews before outcome then
    .look fun s => tellAllBy e n id send
      ⟨before.current, outcome.reached.current, event, outcome.reached⟩ s.observers
  else .done ()

def sendWithinBy : Nat → String → String → MarkedCall Dispatch
  | 0, _, _ => .fail (.runtime "dispatches are nested too deep")
  | depth + 1, id, event =>
    (dispatchBy e n id event).bind fun (before, outcome) =>
    (announceBy e n id (sendWithinBy depth) event before outcome).bind fun _ => .done outcome

def requestBy (id : String) : Request → MarkedCall Answer
  | .send event => (sendWithinBy e n (e.nesting + 1) id event).bind fun out => .done (.dispatched out)
  | .canFire event => (canFireBy n id event).bind fun b => .done (.fires b)
  | .update updater =>
    (replaceContextBy n id (updating updater)).bind fun i => .done (.stored i)
  | .set c => (replaceContextBy n id fun _ => .done c).bind fun i => .done (.stored i)

def startReservedBy (d : Definition) (c : Option Context) (id : String) : MarkedCall Instance :=
  (((within ((contextOrNew c).bind fun c => d.startAndSettle e.limits c (some id))).plain
    Entry).attempt.bind fun
      | .ok i =>
        .update (EngineState.store id d i) (mark ⟨n, some id, .started i⟩ (.done i))
      | .error f => .update (EngineState.free id) (mark ⟨n, some id, .unstarted f⟩ (.fail f)))

def startBy (name version : Value) (c : Option Context) (given : Option String) :
    MarkedCall Instance :=
  noting (fun f => ⟨n, given, .missed f⟩) (askRegistry (·.find name version)) fun d =>
  ((within (idOrIssued given)).plain Entry).bind fun id =>
  .look fun s =>
    if id ∈ s.reserved then
      mark ⟨n, some id, .refused (s.instances.contains id)⟩ (.fail (idTaken id))
    else .update (EngineState.reserve id) (startReservedBy e n d c id)

/-- The call of a job, with its entries. -/
def Job.chronicled : Job → MarkedCall Result
  | .start bid c abandoned =>
    let t := startBy e n bid.name bid.version c bid.given
    (if abandoned then t.cancelledAtPause else t).bind fun i => .done (.started i)
  | .request id r => (requestBy e n id r).bind fun a => .done (.answered a)
  | .subscribe name => subscribeBy n name (.done .other)
  | .unsubscribe name => unsubscribeBy n name (.done .other)
  | j => (j.call e).plain Entry

end Marked

/-! ## Without the entries -/

section Unmarked

variable {e : Engine} {n : Nat} {id event : String}

@[simp] theorem unmarked_noting (deed : Failure → Entry) (t : Call α) (g : α → MarkedCall β) :
    (noting deed t g).unmarked = t.bind fun a => (g a).unmarked := by
  unfold noting
  rw [unmarked_bind, unmarked_attempt, unmarked_plain]
  induction t with
  | done | fail => rfl
  | look k ih => exact congrArg Activity.look (funext ih)
  | update f next ih => exact congrArg (Activity.update f) ih
  | report r next ih => exact congrArg (Activity.report r) ih
  | pause k ih => exact congrArg Activity.pause (funext ih)
  | acquire key next ih => exact congrArg (Activity.acquire key) ih
  | release key next ih => exact congrArg (Activity.release key) ih

@[simp] theorem unmarked_servedBy (work : Definition → Instance → Activity Realm.flow β)
    (after : β → Option Instance) (deed : Instance → β → Deed) :
    (servedBy n id work after deed).unmarked = served id work after := by
  unfold servedBy served
  simp only [unmarked_noting, unmarked_locked, unmarked_bind, unmarked_plain]
  congr; funext d; congr; funext before; congr; funext b
  cases after b <;> rfl

theorem unmarked_dispatchBy : (dispatchBy e n id event).unmarked = e.dispatch id event :=
  (unmarked_servedBy _ _ _).trans (e.dispatch_eq id event).symm

theorem unmarked_canFireBy : (canFireBy n id event).unmarked = e.canFire id event :=
  (unmarked_servedBy _ _ _).trans (e.canFire_eq id event).symm

theorem unmarked_replaceContextBy (f : Context → Activity Realm.flow Context) :
    (replaceContextBy n id f).unmarked = replaceContext id f :=
  (unmarked_servedBy _ _ _).trans (replaceContext_eq id f).symm

section Observers

variable {sendBy : String → String → MarkedCall Dispatch} {send : String → String → Call Dispatch}

theorem unmarked_performBy (hsend : ∀ id event, (sendBy id event).unmarked = send id event)
    (r : Reaction) : (performBy n sendBy r).unmarked = perform send r := by
  induction r with
  | done | fail => rfl
  | note v next ih => exact congrArg (Activity.report _) ih
  | yield next ih =>
    have hyield : (Activity.yield : MarkedCall Unit).unmarked = Activity.yield :=
      congrArg Activity.pause (funext fun s => by cases s <;> rfl)
    refine (unmarked_bind _ _).trans ?_
    rw [hyield, ih]
    rfl
  | subscribe name next ih => exact congrArg (Activity.update _) ih
  | unsubscribe name next ih => exact congrArg (Activity.update _) ih
  | send id event k ih =>
    refine (unmarked_bind _ _).trans ?_
    rw [hsend]
    exact congrArg (Activity.bind _) (funext ih)

theorem unmarked_tellAllBy (hsend : ∀ id event, (sendBy id event).unmarked = send id event)
    (notice : Notice) (names : List String) :
    (tellAllBy e n id sendBy notice names).unmarked = e.tellAll send notice names := by
  induction names with
  | nil => rfl
  | cons name rest ih =>
    refine (unmarked_bind _ _).trans ?_
    rw [unmarked_contained, unmarked_performBy hsend]
    refine congrArg (Activity.bind _) (funext fun r => ?_)
    cases r with
    | ok a => exact ih
    | error f => exact congrArg (Activity.report _) ih

theorem unmarked_announceBy (hsend : ∀ id event, (sendBy id event).unmarked = send id event)
    (before : Instance) (outcome : Dispatch) :
    (announceBy e n id sendBy event before outcome).unmarked =
      e.announce send event before outcome := by
  unfold announceBy announce
  split
  · exact congrArg Activity.look (funext fun s => unmarked_tellAllBy hsend _ s.observers)
  · rfl

end Observers

theorem unmarked_sendWithinBy (depth : Nat) (id event : String) :
    (sendWithinBy e n depth id event).unmarked = e.sendWithin depth id event := by
  induction depth generalizing id event with
  | zero => rfl
  | succ depth ih =>
    refine (unmarked_bind _ _).trans ?_
    rw [unmarked_dispatchBy]
    refine congrArg (Activity.bind _) (funext fun x => ?_)
    refine (unmarked_bind _ _).trans ?_
    rw [unmarked_announceBy ih]
    rfl

theorem unmarked_requestBy (r : Request) : (requestBy e n id r).unmarked = r.call e id := by
  cases r with
  | send event =>
    refine (unmarked_bind _ _).trans ?_
    rw [unmarked_sendWithinBy]
    rfl
  | canFire event =>
    refine (unmarked_bind _ _).trans ?_
    rw [unmarked_canFireBy (e := e)]
    rfl
  | update updater =>
    refine (unmarked_bind _ _).trans ?_
    rw [unmarked_replaceContextBy]
    rfl
  | set c =>
    refine (unmarked_bind _ _).trans ?_
    rw [unmarked_replaceContextBy]
    rfl

theorem unmarked_startReservedBy (d : Definition) (c : Option Context) :
    (startReservedBy e n d c id).unmarked = e.startReserved d c id := by
  unfold startReservedBy startReserved orElseUndo
  rw [unmarked_bind, unmarked_attempt, unmarked_plain, Activity.bind_assoc]
  refine congrArg (Activity.bind _) (funext fun r => ?_)
  cases r <;> rfl

theorem unmarked_startBy (name version : Value) (c : Option Context) (given : Option String) :
    (startBy e n name version c given).unmarked = e.start name version c given := by
  unfold startBy start
  rw [unmarked_noting]
  refine congrArg (Activity.bind _) (funext fun d => ?_)
  rw [unmarked_bind, unmarked_plain]
  refine congrArg (Activity.bind _) (funext fun id => congrArg Activity.look (funext fun s => ?_))
  dsimp only
  by_cases hid : id ∈ s.reserved
  · rw [if_pos hid, if_pos hid]
    rfl
  · rw [if_neg hid, if_neg hid]
    exact congrArg (Activity.update _) (unmarked_startReservedBy d c)

/-- **Without its entries, a chronicled call is the call itself.** -/
theorem Job.unmarked_chronicled (j : Job) : (j.chronicled e n).unmarked = j.call e := by
  cases j with
  | start bid c abandoned =>
    refine (unmarked_bind _ _).trans ?_
    cases abandoned with
    | false => exact congrArg (Activity.bind · _) (unmarked_startBy ..)
    | true =>
      refine congrArg (Activity.bind · _) ?_
      exact (unmarked_cancelledAtPause _).trans (congrArg _ (unmarked_startBy ..))
  | request id r =>
    refine (unmarked_bind _ _).trans ?_
    rw [unmarked_requestBy]
    rfl
  | subscribe name => rfl
  | unsubscribe name => rfl
  | _ => exact unmarked_plain _

end Unmarked

/-! ## In accord -/

section Accord

variable {A : Accord Realm.chronicled} {m : Moment A} {n : Nat} {id : String}

/-- After work with an entry for its failure. -/
theorem follows_noting {deed : Failure → Entry} {t : Call α} {g : α → MarkedCall β}
    {P : Moment A → Except Failure α → Prop} {Q : Moment A → Except Failure β → Prop}
    (ht : (t.plain Entry).Follows A n P m)
    (hok : ∀ m a, P m (.ok a) → (g a).Follows A n Q m)
    (herror : ∀ m f, P m (.error f) → Q { m with log := .inr (deed f) :: m.log } (.error f)) :
    (noting deed t g).Follows A n Q m := by
  refine ht.attempt fun m r hr => ?_
  cases r with
  | ok a => exact hok m a hr
  | error f => exact herror m f hr

/-- What a table has is there, or the call fails. -/
theorem follows_known {table : EngineState → Dict String α}
    {P : Moment A → Except Failure α → Prop}
    (hsome : ∀ a, (table m.world).get? id = some a → P m (.ok a))
    (hnone : (table m.world).get? id = none → P m (.error (.instanceNotFound id))) :
    ((known id table).plain Entry).Follows A n P m := by
  have hknown : known id table =
      .look fun s => ((table s).get? id).elim (.fail (.instanceNotFound id)) .done := by
    refine congrArg Activity.look (funext fun s => ?_)
    cases (table s).get? id <;> rfl
  rw [hknown]
  show (plain Entry (((table m.world).get? id).elim _ _)).Follows _ n P m
  cases ha : (table m.world).get? id with
  | some a => exact hsome a ha
  | none => exact hnone ha

end Accord

/-! ## The chronicle -/

section

variable (e : Engine) (w : EngineState) (jobs : List Job) (places : List Nat)

/-- The jobs with their entries. -/
def chronicledJobs : List (MarkedCall Result) := jobs.mapIdx fun n j => j.chronicled e n

/-- The jobs at the same time, with their entries. -/
def chronicled : Schedule Realm.chronicled Result :=
  (Schedule.start (R := Realm.chronicled) w (e.chronicledJobs jobs)).turns places

/-- What the jobs have done after these turns, the earliest first. -/
def chronicle : List Entry := marks (e.chronicled w jobs places).reported

theorem getElem?_chronicledJobs {n : Nat} {t : MarkedCall Result} :
    (e.chronicledJobs jobs)[n]? = some t ↔ ∃ j, jobs[n]? = some j ∧ j.chronicled e n = t := by
  unfold chronicledJobs
  rw [List.getElem?_mapIdx, Option.map_eq_some_iff]

/-- **The jobs take the same turns without their entries.** -/
theorem unmarked_chronicled :
    (e.chronicled w jobs places).unmarked = e.atWork w jobs places := by
  have hcalls : (e.chronicledJobs jobs).map Activity.unmarked = jobs.map (Job.call e) := by
    refine List.ext_getElem? fun i => ?_
    unfold chronicledJobs
    rw [List.getElem?_map, List.getElem?_mapIdx, List.getElem?_map]
    cases jobs[i]? with
    | none => rfl
    | some j => exact congrArg some j.unmarked_chronicled
  unfold chronicled atWork
  rw [Schedule.unmarked_turns (R := Realm.engine), Schedule.unmarked_start, hcalls]

end

end Engine

end Workflow
