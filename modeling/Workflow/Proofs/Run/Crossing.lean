import Workflow.Proofs.Activity.Alone
import Workflow.Proofs.Activity.Rules
import Workflow.Run.Start

/-!
# What comes of a move

A move is made along any transition from any snapshot, also from one whose run is over or whose
history is in no order.

**Hooks** (`Hook.effect`). The exit hook, the action and the entry hook run one after the other,
each in the world that the one before has left. None of them touches the clock. The first that fails
stops the move (`HookFailure.Stops`): a plain failure is blamed on it as it is, one that is not
contained is let through.

**Arrivals** (`Instance.ArrivesAt`). Between the action and the entry hook the clock is read once.
At that moment the last visit is closed, if it is open, and one to the target is added.

Main result: `move_outcome`. It gives the answer, the world and the reports of every move. A target
may be a value that cannot be looked up, and a hook may fail in a way that is not contained or not
plain; then no setback is answered, or one with another cause (`move_let_through`).
-/

namespace Workflow

open Activity

/-! ## Hooks -/

/-- What comes of a hook that is run for its effect, where there is one. -/
def Hook.effect (hook : Option Hook) (c : Context) (e : Environment) : Outcome Realm.flow Unit :=
  match hook with
  | none => ⟨.ok (), e, []⟩
  | some h =>
    let o := ((h.body c.root).lift (Realm.hookIn c.arena)).run e
    ⟨o.answer.map fun _ => (), o.world, .called h.name :: o.reports⟩

/-- A hook is called for its effect, and its failure is waited for. -/
theorem Hook.run_call_effect (h : Hook) (c : Context) (e : Environment) :
    ((h.call c).run e).answer.map (fun _ => ()) =
        (effect (some h) c e).answer.mapError Failure.awaited ∧
      ((h.call c).run e).world = (effect (some h) c e).world ∧
      ((h.call c).run e).reports = (effect (some h) c e).reports := by
  unfold Hook.call
  simp only [run, lift_awaited, run_awaited, effect]
  refine ⟨?_, trivial, trivial⟩
  cases (((h.body c.root).lift (Realm.hookIn c.arena)).run e).answer <;> rfl

theorem Hook.call_of_effect_ok {h : Hook} {c : Context} {e : Environment}
    (heffect : (effect (some h) c e).answer = .ok ()) :
    ∃ a, ((h.call c).run e).answer = .ok a := by
  have hanswer := (h.run_call_effect c e).1
  rw [heffect] at hanswer
  cases hcall : ((h.call c).run e).answer with
  | ok a => exact ⟨a, rfl⟩
  | error f =>
    rw [hcall] at hanswer
    cases hanswer

/-- A call fails as the hook does, with the failure as it arrives. -/
theorem Hook.call_of_effect_error {h : Hook} {c : Context} {e : Environment} {f : Failure}
    (heffect : (effect (some h) c e).answer = .error f) :
    ((h.call c).run e).answer = .error f.awaited := by
  have hanswer := (h.run_call_effect c e).1
  rw [heffect] at hanswer
  cases hcall : ((h.call c).run e).answer with
  | ok a =>
    rw [hcall] at hanswer
    cases hanswer
  | error f' =>
    rw [hcall] at hanswer
    cases hanswer
    rfl

/-- What a move is answered with that a hook has stopped: a plain failure is blamed on the hook, and
one that is not contained is let through. -/
structure HookFailure.Stops {α : Type} (h : HookFailure)
    (answer : Except Failure (Except Setback α)) : Prop where
  blamed : h.cause.Plain → answer = .ok (.error (.hook h))
  passed : ¬ h.cause.isContained → answer = .error h.cause

/-- How a hook ends that fails, given with the failure as it raises it. -/
def HookFailure.ending {α : Type} (h : HookFailure) : Except Failure (Except HookFailure α) :=
  match h.cause.awaited.escape with
  | none => .ok (.error { h with cause := h.cause.awaited })
  | some g => .error g

theorem HookFailure.stops {α : Type} (h : HookFailure) :
    h.Stops (Except.map (·.mapError Setback.hook) (h.ending : Except Failure (Except _ α))) := by
  constructor
  · intro hplain
    unfold ending
    rw [hplain.awaited, hplain.escape]
    rfl
  · intro hcontained
    unfold ending
    rw [Failure.awaited_of_uncontained hcontained, Failure.escape_of_uncontained hcontained]
    rfl

/-- A call of a hook leaves the clock alone. -/
theorem Hook.clock_call (h : Hook) (c : Context) (e : Environment) :
    ((h.call c).run e).world.clock = e.clock := by
  have halters : (h.call c).Alters fun w v : Environment => v.clock = w.clock :=
    Alters.lift Empty.elim (fun _ _ => rfl) _
  have hkeeps : Keeps (fun w : Environment => w.clock = e.clock) (h.call c) :=
    halters.keeps fun _ _ hsame hw => hsame.trans hw
  exact hkeeps e rfl

theorem Hook.clock_effect (hook : Option Hook) (c : Context) (e : Environment) :
    (effect hook c e).world.clock = e.clock := by
  cases hook with
  | none => rfl
  | some h =>
    rw [← (h.run_call_effect c e).2.1]
    exact h.clock_call c e

namespace Instance

variable {d : Definition} {i next : Instance} {t : Transition} {source target : State}
  {event : Value} {e : Environment} {moment : String}

/-! ## Arrivals -/

/-- A history of which the last visit has been closed at a moment, if it was open. -/
inductive ClosedAt (moment : String) : List Visit → List Visit → Prop
  | nothing : ClosedAt moment [] []
  | last (earlier : List Visit) (v : Visit) :
      ClosedAt moment (earlier ++ [v])
        (earlier ++ [if v.leftAt = none then { v with leftAt := some moment } else v])

/-- The snapshot that has moved along a transition at a moment. -/
structure ArrivesAt (i : Instance) (t : Transition) (target : State) (event : Value)
    (moment : String) (next : Instance) : Prop where
  current : next.current = target.id
  history : ∃ earlier, ClosedAt moment i.history earlier ∧ next.history = earlier ++
    [{ state := target.id, enteredAt := moment, leftAt := none, transition := t.id, event }]
  status : next.status = if target.kind = .terminal then .completed else .running
  others : next = { i with current := next.current, history := next.history, status := next.status }

theorem closedAt_closeLast (moment : String) (history : List Visit) :
    ClosedAt moment history (closeLast moment history) := by
  obtain rfl | ⟨earlier, v, rfl⟩ := history.eq_nil_or_concat
  · exact .nothing
  · rw [List.concat_eq_append, closeLast_append_cons]
    have hlast : ClosedAt moment (earlier ++ [v]) _ := .last earlier v
    simpa [closeLast, Visit.isOpen] using hlast

theorem arrivesAt_moved (i : Instance) (t : Transition) (target : State) (event : Value)
    (moment : String) : i.ArrivesAt t target event moment (i.moved t target event moment) where
  current := rfl
  history := ⟨_, closedAt_closeLast moment i.history, rfl⟩
  status := by simp [moved, State.isTerminal]
  others := rfl

/-! ## Between two states -/

/-- The exit hook, in the world of the move. -/
def exitOf (i : Instance) (source : State) (e : Environment) : Outcome Realm.flow Unit :=
  Hook.effect source.onExit i.ctx e

/-- The action, after the exit hook. -/
def actionOf (i : Instance) (t : Transition) (source : State) (e : Environment) :
    Outcome Realm.flow Unit :=
  Hook.effect t.action i.ctx (i.exitOf source e).world

/-- The entry hook, after the clock has been read. -/
def entryOf (i : Instance) (t : Transition) (source target : State) (e : Environment) :
    Outcome Realm.flow Unit :=
  Hook.effect target.onEnter i.ctx (i.actionOf t source e).world.tick

/-- The message in the log when a snapshot has moved. -/
def moveMessage (i : Instance) (source target : State) (event : Value) : String :=
  "Instance " ++ i.id ++ ": " ++ source.id ++ " -> " ++ target.id ++ " (event=" ++
    eventWord event ++ ")"

/-- What comes of a move between two known states. -/
structure Crossing (i : Instance) (t : Transition) (source target : State) (event : Value)
    (e : Environment) (o : Outcome Realm.flow (Except Setback Instance)) : Prop where
  /-- An exit hook that fails stops the move: no other hook is called, the clock is not read, -/
  exit : ∀ f, (i.exitOf source e).answer = .error f →
    HookFailure.Stops ⟨.onExit, source.id, f, i⟩ o.answer ∧
      o.world = (i.exitOf source e).world ∧ o.reports = (i.exitOf source e).reports ∧
      o.world.clock = e.clock
  /-- and so does an action after an exit hook that went well. -/
  action : (i.exitOf source e).answer = .ok () →
    ∀ f, (i.actionOf t source e).answer = .error f →
      HookFailure.Stops ⟨.action, source.id, f, i⟩ o.answer ∧
        o.world = (i.actionOf t source e).world ∧
        o.reports = (i.exitOf source e).reports ++ (i.actionOf t source e).reports ∧
        o.world.clock = e.clock
  /-- After both the clock is read once, and the snapshot has moved before the entry hook. -/
  arrival : (i.exitOf source e).answer = .ok () → (i.actionOf t source e).answer = .ok () →
    ∃ next, i.ArrivesAt t target event e.clock.now.text next ∧
      ((i.entryOf t source target e).answer = .ok () → o.answer = .ok (.ok next)) ∧
      (∀ f, (i.entryOf t source target e).answer = .error f →
        HookFailure.Stops ⟨.onEnter, target.id, f, next⟩ o.answer) ∧
      o.world = (i.entryOf t source target e).world ∧
      o.reports = (i.exitOf source e).reports ++ (i.actionOf t source e).reports ++
        .logged .debug (i.moveMessage source target event) ::
          (i.entryOf t source target e).reports ∧
      o.world.clock = e.clock.next

/-- A hook of a move, run with its blame. -/
theorem run_runHook (i : Instance) (role : HookRole) (state : String) (hook : Option Hook)
    (reached : Instance) (e : Environment) :
    (i.runHook role state hook reached).run e =
      ⟨match (Hook.effect hook i.ctx e).answer with
        | .ok () => .ok (.ok ())
        | .error f => HookFailure.ending ⟨role, state, f, reached⟩,
        (Hook.effect hook i.ctx e).world, (Hook.effect hook i.ctx e).reports⟩ := by
  cases hook with
  | none => rfl
  | some h =>
    obtain ⟨-, hworld, hreports⟩ := h.run_call_effect i.ctx e
    unfold runHook
    rw [← hworld, ← hreports, run_bind, run_caught]
    cases heffect : (Hook.effect (some h) i.ctx e).answer with
    | ok u =>
      obtain ⟨a, hcall⟩ := Hook.call_of_effect_ok heffect
      simp [hcall, Outcome.andThen, run, blame, Except.map]
    | error f =>
      have hcall := Hook.call_of_effect_error heffect
      unfold HookFailure.ending
      cases hescape : f.awaited.escape <;>
        simp [hcall, hescape, Outcome.andThen, run, blame, Except.map]

section Steps

variable {α : Type} {role : HookRole} {state : String} {hook : Option Hook} {reached : Instance}
  {g : Unit → Activity Realm.flow (Except HookFailure α)}

/-- After a hook that went well the move goes on in the world that it has left. -/
theorem run_whenOk_of_ok (h : (Hook.effect hook i.ctx e).answer = .ok ()) :
    ((i.runHook role state hook reached).whenOk g).run e =
      ((g ()).run (Hook.effect hook i.ctx e).world).after (Hook.effect hook i.ctx e).reports := by
  unfold whenOk
  rw [run_bind, run_runHook, h]
  rfl

/-- A hook that fails stops the move. -/
theorem run_whenOk_of_error {f : Failure} (h : (Hook.effect hook i.ctx e).answer = .error f) :
    ((i.runHook role state hook reached).whenOk g).run e =
      ⟨HookFailure.ending ⟨role, state, f, reached⟩, (Hook.effect hook i.ctx e).world,
        (Hook.effect hook i.ctx e).reports⟩ := by
  unfold whenOk
  rw [run_bind, run_runHook, h]
  unfold HookFailure.ending
  cases hescape : f.awaited.escape <;> simp [Outcome.andThen, run, hescape]

/-- A hook that is at fault is the setback of the whole move. -/
theorem run_mapError (m : Activity Realm.flow (Except HookFailure α)) (e : Environment) :
    (m.bind fun r => .done (r.mapError Setback.hook)).run e =
      ⟨(m.run e).answer.map (·.mapError .hook), (m.run e).world, (m.run e).reports⟩ := by
  rw [run_bind]
  obtain ⟨answer, world, reports⟩ := m.run e
  cases answer <;> simp [Outcome.andThen, run, Except.map]

end Steps

/-- The end of a move, once the snapshot has moved. -/
def enter (i : Instance) (target : State) (next : Instance) :
    Activity Realm.flow (Except HookFailure Instance) :=
  (i.runHook .onEnter target.id target.onEnter next).whenOk fun _ => .done (.ok next)

theorem run_enter (i next : Instance) (target : State) (e : Environment) :
    (i.enter target next).run e =
      ⟨match (Hook.effect target.onEnter i.ctx e).answer with
        | .ok () => .ok (.ok next)
        | .error f => HookFailure.ending ⟨.onEnter, target.id, f, next⟩,
        (Hook.effect target.onEnter i.ctx e).world,
        (Hook.effect target.onEnter i.ctx e).reports⟩ := by
  unfold enter
  cases hentry : (Hook.effect target.onEnter i.ctx e).answer with
  | ok =>
    rw [run_whenOk_of_ok hentry]
    simp only [Outcome.after, run, List.append_nil]
  | error f => rw [run_whenOk_of_error hentry]

theorem moveBetween_crossing (i : Instance) (t : Transition) (source target : State)
    (event : Value) (e : Environment) :
    Crossing i t source target event e
      (((i.moveBetween t source target event).bind fun r => .done (r.mapError .hook)).run e) := by
  have hexit : (i.exitOf source e).world.clock = e.clock := Hook.clock_effect ..
  have haction : (i.actionOf t source e).world.clock = e.clock :=
    (Hook.clock_effect ..).trans hexit
  have hentry : (i.entryOf t source target e).world.clock = e.clock.next :=
    (Hook.clock_effect ..).trans (congrArg Clock.next haction)
  rw [run_mapError]
  constructor
  · intro f hf
    have hrun : (i.moveBetween t source target event).run e = _ := run_whenOk_of_error hf
    rw [hrun]
    exact ⟨HookFailure.stops _, rfl, rfl, hexit⟩
  · intro hok f hf
    have hrun : (i.moveBetween t source target event).run e = _ :=
      (run_whenOk_of_ok hok).trans (congrArg _ (run_whenOk_of_error hf))
    rw [hrun]
    exact ⟨HookFailure.stops _, rfl, rfl, haction⟩
  · intro hok hok'
    have hmoment : (i.actionOf t source e).world.clock.now = e.clock.now :=
      congrArg Clock.now haction
    have hrun : (i.moveBetween t source target event).run e =
        ((((i.enter target (i.moved t target event e.clock.now.text)).run
          (i.actionOf t source e).world.tick).after
            [Record.logged .debug (i.moveMessage source target event)]).after
              (i.actionOf t source e).reports).after (i.exitOf source e).reports := by
      rw [← hmoment]
      exact (run_whenOk_of_ok hok).trans (congrArg _ (run_whenOk_of_ok hok'))
    rw [hrun, run_enter]
    refine ⟨_, arrivesAt_moved .., fun hentered => ?_, fun f hf => ?_, rfl, ?_, hentry⟩
    · have hanswer : (Hook.effect target.onEnter i.ctx (i.actionOf t source e).world.tick).answer =
          .ok () := hentered
      simp only [Outcome.after, hanswer]
      rfl
    · have hanswer : (Hook.effect target.onEnter i.ctx (i.actionOf t source e).world.tick).answer =
          .error f := hf
      simp only [Outcome.after, hanswer]
      exact HookFailure.stops _
    · simp only [Outcome.after, List.append_assoc]
      rfl

/-- **What comes of a move**, from any snapshot and along any transition. If the occupied state is
missing, or else the target, nothing is touched and this state is not found; a target that cannot be
looked up fails. Between two known states the exit hook and the action run first, and if one of them
fails, the move stops with the given snapshot and without a look at the clock. Otherwise the clock
is read once, the snapshot moves, and the entry hook runs; if it fails, the move stops with the
moved snapshot. -/
theorem move_outcome (d : Definition) (i : Instance) (t : Transition) (event : Value)
    (e : Environment) :
    (d.state? i.current = none → (move d i t event).run e =
      ⟨.ok (.error (.stateNotFound (.text i.current) d.id)), e, []⟩) ∧
    ∀ source, d.state? i.current = some source →
      (d.target? t.target = .ok none → (move d i t event).run e =
        ⟨.ok (.error (.stateNotFound t.target d.id)), e, []⟩) ∧
      (∀ f, d.target? t.target = .error f → (move d i t event).run e = ⟨.error f, e, []⟩) ∧
      ∀ target, d.target? t.target = .ok (some target) →
        Crossing i t source target event e ((move d i t event).run e) := by
  unfold move
  refine ⟨fun hnone => ?_, fun source hs => ?_⟩
  · rw [hnone]
    rfl
  rw [hs]
  refine ⟨fun hnone => ?_, fun f hf => ?_, fun target ht => ?_⟩
  · simp only [hnone]
    rfl
  · simp only [hf]
    rfl
  · simp only [ht]
    exact moveBetween_crossing i t source target event e

end Instance

/-! ## A gate that does not open -/

/-- A bar that fails. -/
def bar (f : Failure) : Hook where
  name := "bar"
  body _ := .fail f

/-- A gate with a hook that runs when it is opened. -/
def gate (bar : Option Hook) : Definition where
  id := .text "gate"
  initial := "shut"
  states := Dict.ofList [("shut", { id := "shut", onExit := bar }), ("open", { id := "open" })]

/-- The gate in the north wall, shut. -/
def northGate (bar : Option Hook) : Instance :=
  (gate bar).fresh ⟨0, .null⟩ "north" (Instant.text ⟨0⟩)

def dawn : Environment where
  clock := { reading := fun _ => ⟨0⟩ }

/-- What comes of opening the gate with a bar that fails. -/
def openedGate (f : Failure) : Outcome Realm.flow (Except Setback Instance) :=
  (Instance.move (gate (some (bar f))) (northGate (some (bar f))) { target := .text "open" }
    .null).run dawn

/-- A target that is a list is not looked up, so it is not said that it was not found. An exit hook
that fails in a way that is not contained ends the move before the clock is read; and one whose
failure cannot be told, or is that something has run out, is not blamed for it. -/
theorem move_let_through :
    ((Instance.move (gate none) (northGate none) { target := .list [.text "open"] } .null).run
      dawn).answer = .error (.malformed .noKey) ∧
    (openedGate (.aborted "stuck")).answer = .error (.aborted "stuck") ∧
    (openedGate (.aborted "stuck")).world.clock.taken = 0 ∧
    (openedGate (.illWorded (.value "stuck") (some (.value "too long")) none)).answer =
      .error (.value "too long") ∧
    ∃ h, (openedGate (.ranOut "")).answer = .ok (.error (.hook h)) ∧ h.cause ≠ .ranOut "" :=
  ⟨rfl, rfl, rfl, rfl, _, rfl, by decide⟩

end Workflow
