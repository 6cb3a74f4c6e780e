import Workflow.Proofs.Engine.Solo

/-!
# Observers are told when it is due

An event is sent to an instance of an engine, one after the other. Whoever observes the engine hears
of it, and makes no difference to it.

**Harmless observers** (`Reaction.Harmless`) leave notes, pause and fail in contained ways, but make
no calls on the engine.

**Due** (`Engine.isNews`). An event is told if a transition was made and the state afterwards is not
the one before, however many states were passed on the way. Each observer on the list is then told
once, in order. A failure is logged and keeps none of those after it from being told
(`Engine.hearing`).

Main result: `observers_notified`. A dispatch runs before anybody is told, and does not look at who
observes the engine (`dispatch_run_observed`). So answers and worlds are those of an engine without
observers, and what is left to say is which reports come on top.
-/

namespace Workflow

open Activity

/-! ## Reactions -/

namespace Reaction

/-- The reaction makes no calls on the engine, and its failures are contained. -/
def Harmless : Reaction → Prop
  | .done => True
  | .fail f => f.isContained
  | .note _ next | .yield next => next.Harmless
  | .subscribe _ _ | .unsubscribe _ _ | .send _ _ _ => False

/-- The notes that a reaction leaves until it ends or fails. -/
def notes : Reaction → List Value
  | .note v next => v :: next.notes
  | .yield next => next.notes
  | _ => []

theorem Harmless.contained {r : Reaction} {f : Failure} (h : r.Harmless)
    (hf : r.ending = .error f) : f.isContained := by
  induction r with
  | done => cases hf
  | fail f' =>
    cases hf
    exact h
  | note v next ih => exact ih h hf
  | yield next ih => exact ih h hf
  | subscribe | unsubscribe | send => exact h.elim

end Reaction

/-- The state with other observers on the list. -/
def EngineState.observedBy (names : List String) (w : EngineState) : EngineState :=
  { w with observers := names }

namespace Engine

variable {e : Engine} {w : EngineState} {id event : String} {n : Notice}
  {send : String → String → Call Dispatch}

/-- All observers that the engine can be told to call are harmless. -/
def HarmlessObservers (e : Engine) : Prop := ∀ o ∈ e.directory, ∀ n, (o.react n).Harmless

/-- What an observer that is told once leaves in the log: its notes, and a complaint if it fails. -/
def hearing (e : Engine) (n : Notice) (name : String) : List Record :=
  (e.reactionOf name n).notes.map .noted ++
    match (e.reactionOf name n).ending with
    | .ok _ => []
    | .error _ => [.logged .error n.complaint]

theorem HarmlessObservers.reactionOf (h : e.HarmlessObservers) (name : String) (n : Notice) :
    (e.reactionOf name n).Harmless := by
  unfold Engine.reactionOf
  split
  next o ho => exact h o (List.mem_of_find?_eq_some ho) n
  · trivial

theorem perform_run {r : Reaction} (h : r.Harmless) (w : EngineState) :
    (perform send r).run w = ⟨r.ending, w, r.notes.map .noted⟩ := by
  induction r with
  | done => rfl
  | fail f => rfl
  | note v next ih =>
    unfold perform
    simp only [run]
    rw [ih h]
    rfl
  | yield next ih => exact ih h
  | subscribe | unsubscribe | send => exact h.elim

/-- **Each observer is told once, in order, also after others have failed.** -/
theorem tellAll_run (h : e.HarmlessObservers) (names : List String) (w : EngineState) :
    (e.tellAll send n names).run w = ⟨.ok (), w, names.flatMap (e.hearing n)⟩ := by
  induction names with
  | nil => rfl
  | cons name rest ih =>
    have hharmless : (e.reactionOf name n).Harmless := h.reactionOf name n
    unfold tellAll
    rw [run_bind, run_contained, perform_run hharmless]
    rw [List.flatMap_cons]
    unfold hearing
    cases hending : (e.reactionOf name n).ending with
    | ok u =>
      simp only [Outcome.andThen]
      rw [ih, List.append_nil]
      rfl
    | error f =>
      simp only [Outcome.andThen, if_pos (hharmless.contained hending), run]
      rw [ih, List.append_assoc]
      rfl

/-! ## Dispatches -/

/-- The outcome with other observers on the list. -/
def observedBy {α : Type} (names : List String) (o : Outcome Realm.engine α) :
    Outcome Realm.engine α :=
  ⟨o.answer, o.world.observedBy names, o.reports⟩

/-- What is left of a dispatch once it is known how the event went on the stored snapshot. -/
def dispatched (id : String) (w : EngineState) (before : Instance)
    (o : Outcome Realm.flow Dispatch) : Outcome Realm.engine (Instance × Dispatch) :=
  match o.answer with
  | .ok out =>
    ⟨.ok (before, out), EngineState.setInstance id out.reached { w with env := o.world }, o.reports⟩
  | .error f => ⟨.error f, { w with env := o.world }, o.reports⟩

theorem dispatched_observed {before : Instance} (names : List String)
    (o : Outcome Realm.flow Dispatch) :
    dispatched id (w.observedBy names) before o = observedBy names (dispatched id w before o) := by
  obtain ⟨answer, env, reports⟩ := o
  cases answer <;> rfl

theorem dispatch_run_found {d : Definition} {before : Instance}
    (hd : w.definitions.get? id = some d) (hi : w.instances.get? id = some before) :
    (e.dispatch id event).run w =
      dispatched id w before ((before.send d e.limits event).run w.env) := by
  have hlawful : Lawful Realm.flowIn fun _ => True :=
    ⟨fun _ _ => trivial, fun _ _ => rfl, fun _ _ _ => rfl, fun _ => rfl⟩
  unfold dispatch
  rw [run_bind, definitionOf, known_run hd]
  simp only [Outcome.andThen]
  rw [run_locked, run_bind, instanceOf, known_run hi]
  simp only [Outcome.andThen]
  unfold within
  rw [run_bind, run_lift hlawful _ trivial]
  show _ = dispatched id w before ((before.send d e.limits event).run (Realm.flowIn.get w))
  obtain ⟨answer, env, reports⟩ := (before.send d e.limits event).run (Realm.flowIn.get w)
  have hreports : reports.map Realm.flowIn.report = reports := List.map_id reports
  rw [hreports]
  cases answer with
  | ok out =>
    simp only [Outcome.andThen, run, List.nil_append, List.append_nil]
    rfl
  | error f => rfl

theorem dispatch_run_unknown
    (h : w.definitions.get? id = none ∨ w.instances.get? id = none) :
    (e.dispatch id event).run w = ⟨.error (.instanceNotFound id), w, []⟩ := by
  unfold dispatch
  rw [run_bind, definitionOf]
  cases hd : w.definitions.get? id with
  | none =>
    rw [known_run_none hd]
    rfl
  | some d =>
    rw [known_run hd]
    simp only [Outcome.andThen]
    have hi : w.instances.get? id = none := h.resolve_left (by simp [hd])
    rw [run_locked, run_bind, instanceOf, known_run_none hi]
    rfl

/-- **A dispatch does not look at the observers.** -/
theorem dispatch_run_observed (names : List String) :
    (e.dispatch id event).run (w.observedBy names) =
      observedBy names ((e.dispatch id event).run w) := by
  cases hd : w.definitions.get? id with
  | none =>
    have hunknown : (e.dispatch id event).run w = ⟨.error (.instanceNotFound id), w, []⟩ :=
      dispatch_run_unknown (.inl hd)
    rw [hunknown]
    exact dispatch_run_unknown (w := w.observedBy names) (.inl hd)
  | some d =>
    cases hi : w.instances.get? id with
    | none =>
      have hunknown : (e.dispatch id event).run w = ⟨.error (.instanceNotFound id), w, []⟩ :=
        dispatch_run_unknown (.inr hi)
      rw [hunknown]
      exact dispatch_run_unknown (w := w.observedBy names) (.inr hi)
    | some before =>
      rw [dispatch_run_found hd hi, ← dispatched_observed]
      exact dispatch_run_found (w := w.observedBy names) hd hi

theorem dispatch_observers (e : Engine) (id event : String) (w : EngineState) :
    ((e.dispatch id event).run w).world.observers = w.observers := by
  have hself : (e.dispatch id event).run w =
      observedBy w.observers ((e.dispatch id event).run w) := dispatch_run_observed w.observers
  exact congrArg (·.world.observers) hself

/-- What a dispatch that gave an answer has found and stored. -/
theorem dispatch_run_ok {before : Instance} {out : Dispatch}
    (h : ((e.dispatch id event).run w).answer = .ok (before, out)) :
    w.instances.get? id = some before ∧
      ((e.dispatch id event).run w).world.instances.get? id = some out.reached := by
  cases hd : w.definitions.get? id with
  | none =>
    rw [dispatch_run_unknown (.inl hd)] at h
    cases h
  | some d =>
    cases hi : w.instances.get? id with
    | none =>
      rw [dispatch_run_unknown (.inr hi)] at h
      cases h
    | some before' =>
      rw [dispatch_run_found hd hi] at h ⊢
      unfold dispatched at h ⊢
      cases hsend : ((before'.send d e.limits event).run w.env).answer with
      | error f =>
        rw [hsend] at h
        cases h
      | ok out' =>
        rw [hsend] at h
        cases h
        exact ⟨rfl, (Dict.get?_insert ..).trans (if_pos rfl)⟩

/-! ## Sending -/

/-- What comes on top of the reports of a dispatch: nothing, or what those on the list leave. -/
def hearings (e : Engine) (names : List String) (event : String) (before : Instance)
    (out : Dispatch) : List Record :=
  if isNews before out then
    names.flatMap (e.hearing ⟨before.current, out.reached.current, event, out.reached⟩)
  else []

theorem announce_run_harmless (h : e.HarmlessObservers) (before : Instance) (out : Dispatch)
    (w : EngineState) :
    (e.announce send event before out).run w =
      ⟨.ok (), w, e.hearings w.observers event before out⟩ := by
  unfold announce hearings
  split
  · exact tellAll_run h w.observers w
  · rfl

theorem send_run_error {f : Failure} (h : ((e.dispatch id event).run w).answer = .error f) :
    (e.send id event).run w =
      ⟨.error f, ((e.dispatch id event).run w).world, ((e.dispatch id event).run w).reports⟩ :=
  run_bind_of_error h

/-- Those on the list hear of the outcome after it has been stored. -/
theorem send_run_ok (hharmless : e.HarmlessObservers) {before : Instance} {out : Dispatch}
    (h : ((e.dispatch id event).run w).answer = .ok (before, out)) :
    (e.send id event).run w = ⟨.ok out, ((e.dispatch id event).run w).world,
      ((e.dispatch id event).run w).reports ++ e.hearings w.observers event before out⟩ := by
  unfold Engine.send sendWithin
  rw [run_bind_of_ok h, run_bind, announce_run_harmless hharmless, dispatch_observers]
  simp only [Outcome.andThen, run, List.append_nil]

/-- A dispatch on an engine with observers, next to the same one on an engine without. -/
structure Notified (e : Engine) (names : List String) (w : EngineState) (id event : String)
    (o alone : Outcome Realm.engine Dispatch) : Prop where
  answer : o.answer = alone.answer
  world : o.world = alone.world.observedBy names
  stored : ∀ out, o.answer = .ok out → o.world.instances.get? id = some out.reached
  /-- A change of state is told to each on the list, in order, with both states, the event and the
  stored snapshot. -/
  told : ∀ before out, w.instances.get? id = some before → o.answer = .ok out →
    out.transitioned = true → out.reached.current ≠ before.current →
    o.reports = alone.reports ++
      names.flatMap (e.hearing ⟨before.current, out.reached.current, event, out.reached⟩)
  /-- Whatever else comes of an event, nobody is told. -/
  untold : (∀ before out, w.instances.get? id = some before → o.answer = .ok out →
    out.transitioned = false ∨ out.reached.current = before.current) → o.reports = alone.reports

theorem isNews_iff {before : Instance} {out : Dispatch} :
    isNews before out = true ↔ out.transitioned = true ∧ out.reached.current ≠ before.current := by
  unfold isNews
  rw [Bool.and_eq_true, decide_eq_true_eq]

theorem hearings_nil (event : String) (before : Instance) (out : Dispatch) :
    e.hearings [] event before out = [] := by
  unfold hearings
  split <;> rfl

theorem notified_send (h : e.HarmlessObservers) (w : EngineState) (id event : String) :
    Notified e w.observers w id event ((e.send id event).run w)
      ((e.send id event).run (w.observedBy [])) := by
  have halone : (e.dispatch id event).run (w.observedBy []) =
      observedBy [] ((e.dispatch id event).run w) := dispatch_run_observed []
  have hworld : ((e.dispatch id event).run w).world =
      (((e.dispatch id event).run w).world.observedBy []).observedBy w.observers := by
    rw [← dispatch_observers e id event w]
    rfl
  cases hanswer : ((e.dispatch id event).run w).answer with
  | error f =>
    have halone' : ((e.dispatch id event).run (w.observedBy [])).answer = .error f := by
      rw [halone]
      exact hanswer
    rw [send_run_error hanswer, send_run_error halone', halone]
    refine ⟨rfl, hworld, ?_, ?_, fun _ => rfl⟩
    · intro out hout
      cases hout
    · intro before out _ hout
      cases hout
  | ok x =>
    obtain ⟨before, out⟩ := x
    have halone' : ((e.dispatch id event).run (w.observedBy [])).answer = .ok (before, out) := by
      rw [halone]
      exact hanswer
    obtain ⟨hbefore, hstored⟩ := dispatch_run_ok hanswer
    have hnobody : e.hearings (w.observedBy []).observers event before out = [] :=
      hearings_nil event before out
    rw [send_run_ok h hanswer, send_run_ok h halone', halone, hnobody, List.append_nil]
    refine ⟨rfl, hworld, ?_, ?_, ?_⟩
    · intro out' hout
      cases hout
      exact hstored
    · intro before' out' hbefore' hout htransitioned hcurrent
      cases hbefore.symm.trans hbefore'
      cases hout
      show _ ++ e.hearings w.observers event before out = _
      unfold hearings
      rw [if_pos (isNews_iff.2 ⟨htransitioned, hcurrent⟩)]
      rfl
    · intro hdull
      have hnews : ¬ isNews before out = true := by
        rw [isNews_iff]
        rintro ⟨htransitioned, hcurrent⟩
        rcases hdull before out hbefore rfl with hout | hout
        · rw [hout] at htransitioned
          cases htransitioned
        · exact hcurrent hout
      show _ ++ e.hearings w.observers event before out = _
      unfold hearings
      rw [if_neg hnews, List.append_nil]
      rfl

/-! ## One event after another -/

/-- The world after some events, each sent to an instance when all before it were served. -/
def afterEvents (e : Engine) (w : EngineState) (events : List (String × String)) : EngineState :=
  events.foldl (fun w x => ((e.send x.1 x.2).run w).world) w

/-- Events leave the same as they do without observers, but for the list of observers. -/
theorem afterEvents_observed (h : e.HarmlessObservers) (events : List (String × String))
    (w : EngineState) :
    (e.afterEvents w events).observers = w.observers ∧
      e.afterEvents (w.observedBy []) events = (e.afterEvents w events).observedBy [] := by
  induction events generalizing w with
  | nil => exact ⟨rfl, rfl⟩
  | cons x rest ih =>
    have hworld : ((e.send x.1 x.2).run w).world =
        ((e.send x.1 x.2).run (w.observedBy [])).world.observedBy w.observers :=
      (notified_send h w x.1 x.2).world
    have hnobody : ((e.send x.1 x.2).run (w.observedBy [])).world =
        ((e.send x.1 x.2).run (w.observedBy [])).world.observedBy [] :=
      (notified_send h (w.observedBy []) x.1 x.2).world
    have hsame : ((e.send x.1 x.2).run (w.observedBy [])).world =
        ((e.send x.1 x.2).run w).world.observedBy [] := by
      rw [hworld]
      exact hnobody
    obtain ⟨hobservers, hafter⟩ := ih ((e.send x.1 x.2).run w).world
    refine ⟨hobservers.trans (congrArg (·.observers) hworld), ?_⟩
    show e.afterEvents ((e.send x.1 x.2).run (w.observedBy [])).world rest = _
    rw [hsame, hafter]
    rfl

/-- **Observers are told of each change of state, once each and in order, and make no difference to
any event.** -/
theorem observers_notified (h : e.HarmlessObservers) (w : EngineState)
    (earlier : List (String × String)) (id event : String) :
    Notified e w.observers (e.afterEvents w earlier) id event
      ((e.send id event).run (e.afterEvents w earlier))
      ((e.send id event).run (e.afterEvents (w.observedBy []) earlier)) := by
  obtain ⟨hobservers, hafter⟩ := afterEvents_observed h earlier w
  rw [hafter, ← hobservers]
  exact notified_send h (e.afterEvents w earlier) id event

/-! ## A bell that cracks -/

/-- A gate that is pushed open. Whoever knocks then is let into the hall and out again. -/
def gateway : Definition where
  id := .text "gate"
  initial := "shut"
  states := Dict.ofList [
    ("shut", { id := "shut", transitions := [{ target := .text "open", event := .text "push" }] }),
    ("open", { id := "open", transitions := [{ target := .text "hall", event := .text "knock" }] }),
    ("hall", { id := "hall", kind := .auto, transitions := [{ target := .text "open" }] })]

/-- The bell fails whenever it has rung; the diary takes its time. -/
def porch : Engine where
  directory := [.ofSteps "bell" [.raise (.runtime "cracked")], .ofSteps "diary" [.yield]]

/-- The bell hangs on both sides. -/
def gateShut : EngineState where
  env := { clock := { reading := fun n => ⟨n⟩ } }
  instances := Dict.ofList [("gate", gateway.fresh ⟨0, .null⟩ "gate" (Instant.text ⟨0⟩))]
  definitions := Dict.ofList [("gate", gateway)]
  reserved := ["gate"]
  observers := ["bell", "diary", "bell"]

def noted : List Record → List Value :=
  List.filterMap fun
    | .noted v => some v
    | _ => none

/-- What an observer on the porch notes when the gate opens. -/
def openedNote (name : String) : Value :=
  .list [.text "observer", .text name, .text "shut", .text "open", .text "push", .text "running"]

theorem porch_harmless : porch.HarmlessObservers := by
  intro o ho n
  rcases List.mem_cons.1 ho with rfl | ho
  · rfl
  · cases List.mem_singleton.1 ho
    trivial

/-- All three are told of the push, and nobody of the knock that leads back. -/
theorem observers_notified_porch :
    porch.HarmlessObservers ∧
      (let pushed := (porch.send "gate" "push").run gateShut
       Notified porch gateShut.observers gateShut "gate" "push" pushed
          ((porch.send "gate" "push").run (gateShut.observedBy [])) ∧
        pushed.answer.toOption.map (·.transitioned) = some true ∧
        noted pushed.reports = [openedNote "bell", openedNote "diary", openedNote "bell"]) ∧
      (let opened := porch.afterEvents gateShut [("gate", "push")]
       let knocked := (porch.send "gate" "knock").run opened
       Notified porch gateShut.observers opened "gate" "knock" knocked
          ((porch.send "gate" "knock").run
            (porch.afterEvents (gateShut.observedBy []) [("gate", "push")])) ∧
        knocked.answer.toOption.map (·.transitioned) = some true ∧ noted knocked.reports = []) :=
  ⟨porch_harmless,
    ⟨observers_notified porch_harmless gateShut [] "gate" "push", by decide +kernel,
      by decide +kernel⟩,
    ⟨observers_notified porch_harmless gateShut [("gate", "push")] "gate" "knock",
      by decide +kernel, by decide +kernel⟩⟩

end Engine

end Workflow
