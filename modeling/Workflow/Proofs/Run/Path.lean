import Workflow.Proofs.Activity.Endings
import Workflow.Run.Dispatch
import Workflow.Run.Start

/-!
# The moves that an operation makes

What moves and `Instance.settle` can give, whatever the hooks do.

**Moves** (`Instance.Moves`). One move of a running instance along a transition of its state, with
the event that is recorded for it. Without an event the state is an auto state.

**Paths** (`Instance.Path`). Moves one after the other, with the events recorded on the way.

**Ends** (`Instance.EndsAs`). The snapshot that was reached, or its failed form. An entry hook that
fails leaves the moved snapshot as failed.

Main result: settling goes along a path without events (`settle_path`). Everything that a single
move keeps is so kept by it.
-/

namespace Workflow

namespace Setback

/-- What the failed snapshot names as its error. -/
def cause : Setback → Failure
  | .hook h => h.cause
  | s => s.toFailure

/-- How far a setback lets the snapshot come. -/
def reached (i : Instance) : Setback → Instance
  | .hook h => h.reached
  | _ => i

end Setback

theorem Definition.target?_some {d : Definition} {target : Value} {s : State}
    (h : d.target? target = .ok (some s)) : ∃ key, target = .text key ∧ d.state? key = some s := by
  unfold Definition.target? at h
  split at h
  next key => exact ⟨key, rfl, Except.ok.inj h⟩
  all_goals cases h

namespace Instance

open Activity

variable {d : Definition} {i j k : Instance} {t : Transition} {ts : List Transition}
  {event : Value} {limits : Limits}

/-- The failed form of a snapshot. -/
def failed (i : Instance) (e : Failure) : Instance := { i with status := .failed, error := some e }

/-! ## Moves and paths -/

/-- One move of a running instance along a transition of its state. -/
inductive Moves (d : Definition) (i : Instance) (event : Value) : Instance → Prop
  | along {source target : State} {t : Transition} (moment : String) :
      i.status = .running → d.state? i.current = some source → t ∈ source.transitions →
      t.event = event → (event = .null → source.kind = .auto) →
      d.target? t.target = .ok (some target) → Moves d i event (i.moved t target event moment)

/-- Moves one after the other, with their events. -/
inductive Path (d : Definition) : Instance → List Value → Instance → Prop
  | stay (i : Instance) : Path d i [] i
  | go {i j k : Instance} {event : Value} {events : List Value} :
      Moves d i event j → Path d j events k → Path d i (event :: events) k

/-- What is left of a snapshot: itself, or its failed form. -/
inductive EndsAs (i : Instance) : Instance → Prop
  | well : EndsAs i i
  | failed (e : Failure) : i.status ≠ .failed → EndsAs i (i.failed e)

theorem moved_status_ne (i : Instance) (t : Transition) (target : State) (event : Value)
    (moment : String) : (i.moved t target event moment).status ≠ .failed := by
  unfold moved
  split <;> simp

/-! ## Guards -/

/-- A guard at fault is named with the occupied state, and leaves the snapshot where it is. -/
theorem passes_error {f : HookFailure} (hp : (i.passes t).CanEnd (.ok (.error f))) :
    f = ⟨.guard, i.current, f.cause, i⟩ := by
  unfold passes at hp
  split at hp
  · cases hp
  · obtain ⟨r, -, hr⟩ := canEnd_bind_ok hp
    cases r with
    | ok a => cases hr
    | error e => cases hr; rfl

/-- The selected transition is one of those that were tried. -/
theorem select_mem (h : (i.select ts).CanEnd (.ok (.ok (some t)))) : t ∈ ts := by
  induction ts with
  | nil => cases h
  | cons t' rest ih =>
    obtain ⟨passed, -, h⟩ := canEnd_whenOk_ok h
    cases passed with
    | true =>
      cases h
      exact List.mem_cons_self
    | false => exact List.mem_cons_of_mem t' (ih h)

theorem select_error {f : HookFailure} (h : (i.select ts).CanEnd (.ok (.error f))) :
    f = ⟨.guard, i.current, f.cause, i⟩ := by
  induction ts with
  | nil => cases h
  | cons t rest ih =>
    rcases canEnd_whenOk_error h with h | ⟨passed, -, h⟩
    · exact passes_error h
    · cases passed with
      | true => cases h
      | false => exact ih h

theorem select_error_reached {f : HookFailure} (h : (i.select ts).CanEnd (.ok (.error f))) :
    f.reached = i := by
  rw [select_error h]

/-! ## Single moves -/

theorem runHook_error {role : HookRole} {state : String} {hook : Option Hook} {f : HookFailure}
    (h : (i.runHook role state hook j).CanEnd (.ok (.error f))) : f.reached = j := by
  unfold runHook at h
  split at h
  · cases h
  · obtain ⟨r, -, hr⟩ := canEnd_bind_ok h
    cases r with
    | ok a => cases hr
    | error e => cases hr; rfl

theorem moveBetween_ok {source target : State}
    (h : (i.moveBetween t source target event).CanEnd (.ok (.ok j))) :
    ∃ moment, j = i.moved t target event moment := by
  obtain ⟨-, -, h⟩ := canEnd_whenOk_ok h
  obtain ⟨-, -, h⟩ := canEnd_whenOk_ok h
  obtain ⟨moment, -, h⟩ := canEnd_bind_ok h
  obtain ⟨-, -, h⟩ := canEnd_bind_ok h
  obtain ⟨-, -, h⟩ := canEnd_whenOk_ok h
  cases h
  exact ⟨moment.text, rfl⟩

/-- A hook that fails leaves the given snapshot, or the moved one. -/
theorem moveBetween_error {source target : State} {f : HookFailure}
    (h : (i.moveBetween t source target event).CanEnd (.ok (.error f))) :
    f.reached = i ∨ ∃ moment, f.reached = i.moved t target event moment := by
  rcases canEnd_whenOk_error h with h | ⟨-, -, h⟩
  · exact .inl (runHook_error h)
  rcases canEnd_whenOk_error h with h | ⟨-, -, h⟩
  · exact .inl (runHook_error h)
  obtain ⟨moment, -, h⟩ := canEnd_bind_ok h
  obtain ⟨-, -, h⟩ := canEnd_bind_ok h
  rcases canEnd_whenOk_error h with h | ⟨-, -, h⟩
  · exact .inr ⟨moment.text, runHook_error h⟩
  · cases h

theorem move_ok (h : (move d i t event).CanEnd (.ok (.ok j))) :
    ∃ source target moment, d.state? i.current = some source ∧
      d.target? t.target = .ok (some target) ∧ j = i.moved t target event moment := by
  unfold move at h
  split at h
  · cases h
  next source hs =>
  split at h
  · cases h
  · cases h
  next target ht =>
  obtain ⟨r, hr, h⟩ := canEnd_bind_ok h
  cases r with
  | error f => cases h
  | ok j' =>
    cases h
    obtain ⟨moment, rfl⟩ := moveBetween_ok hr
    exact ⟨source, target, moment, hs, ht, rfl⟩

/-- A setback leaves the given snapshot, or the moved one. -/
theorem move_error {s : Setback} (h : (move d i t event).CanEnd (.ok (.error s))) :
    s.reached i = i ∨ ∃ target moment, d.target? t.target = .ok (some target) ∧
      s.reached i = i.moved t target event moment := by
  unfold move at h
  split at h
  · cases h
    exact .inl rfl
  split at h
  · cases h
  · cases h
    exact .inl rfl
  next target ht =>
  obtain ⟨r, hr, h⟩ := canEnd_bind_ok h
  cases r with
  | ok j' => cases h
  | error f =>
    cases h
    rcases moveBetween_error hr with h | ⟨moment, h⟩
    · exact .inl h
    · exact .inr ⟨target, moment, ht, h⟩

/-- A setback is logged, if its cause can be quoted, and fails the snapshot that it has reached. -/
theorem markFailed_eq (i : Instance) (s : Setback) :
    ∃ message, i.markFailed s = (logFailure .warning message s.cause).bind fun _ =>
      .done ((s.reached i).failed s.cause) := by
  cases s <;> exact ⟨_, rfl⟩

theorem canEnd_markFailed {s : Setback} {r : Except Failure Instance} :
    (i.markFailed s).CanEnd r ↔ r = .ok ((s.reached i).failed s.cause) := by
  obtain ⟨message, heq⟩ := markFailed_eq i s
  rw [heq, logFailure]
  split <;> exact Iff.rfl

theorem run_markFailed (i : Instance) (s : Setback) (e : Environment) :
    ((i.markFailed s).run e).answer = .ok ((s.reached i).failed s.cause) ∧
      ((i.markFailed s).run e).world = e := by
  obtain ⟨message, heq⟩ := markFailed_eq i s
  rw [heq, logFailure]
  split <;> exact ⟨rfl, rfl⟩

/-! ## Moves that were chosen rightly -/

theorem Moves.status_ne (h : Moves d i event j) : j.status ≠ .failed := by
  obtain ⟨moment, -, -, -, -, -, -⟩ := h
  exact moved_status_ne i _ _ event moment

/-- A transition is a choice for an event in an instance: it leads out of the occupied state, and
only an auto state is left without an event. -/
structure Choice (d : Definition) (i : Instance) (event : Value) (t : Transition) : Prop where
  running : i.status = .running
  source : ∃ s, d.state? i.current = some s ∧ t ∈ s.transitions ∧
    (event = .null → s.kind = .auto)
  event : t.event = event

theorem Choice.moves {target : State} (h : Choice d i event t) (moment : String)
    (ht : d.target? t.target = .ok (some target)) :
    Moves d i event (i.moved t target event moment) := by
  obtain ⟨s, hs, hmem, hk⟩ := h.source
  exact .along moment h.running hs hmem h.event hk ht

theorem Choice.move_ok (hc : Choice d i event t)
    (h : (move d i t event).CanEnd (.ok (.ok j))) : Moves d i event j := by
  obtain ⟨-, target, moment, -, ht, rfl⟩ := Instance.move_ok h
  exact hc.moves moment ht

theorem Choice.move_error {s : Setback} (hc : Choice d i event t)
    (h : (move d i t event).CanEnd (.ok (.error s))) :
    s.reached i = i ∨ Moves d i event (s.reached i) := by
  rcases Instance.move_error h with h | ⟨target, moment, ht, h⟩
  · exact .inl h
  · rw [h]
    exact .inr (hc.moves moment ht)

theorem Choice.auto {s : State} (hr : i.status = .running) (hs : d.state? i.current = some s)
    (hk : s.kind = .auto) (ht : t ∈ s.autoTransitions) : Choice d i .null t := by
  obtain ⟨hmem, he⟩ := List.mem_filter.1 ht
  exact ⟨hr, ⟨s, hs, hmem, fun _ => hk⟩, of_decide_eq_true he⟩

theorem Choice.triggered {s : State} {name : String} (hr : i.status = .running)
    (hs : d.state? i.current = some s) (ht : t ∈ s.transitionsFor name) :
    Choice d i (.text name) t := by
  obtain ⟨hmem, he⟩ := List.mem_filter.1 ht
  exact ⟨hr, ⟨s, hs, hmem, nofun⟩, of_decide_eq_true he⟩

/-! ## Operations -/

theorem rest_ok {steps : Nat} (h : (i.rest steps).CanEnd (.ok j)) : j = i := by
  unfold rest at h
  split at h
  · obtain ⟨-, -, h⟩ := canEnd_bind_ok h
    cases h
    rfl
  · cases h
    rfl

theorem markFailed_endsAs {s : Setback} (hr : i.status = .running) (hs : s.reached i = i)
    (h : (i.markFailed s).CanEnd (.ok k)) : EndsAs i k := by
  cases canEnd_markFailed.1 h
  rw [hs]
  exact .failed s.cause (by rw [hr]; nofun)

/-- **Settling goes along a path without events.** -/
theorem settleFrom_path {bound : Option Int} {rounds steps : Nat}
    (h : (settleFrom d bound rounds steps i).CanEnd (.ok k)) :
    ∃ n j, Path d i (List.replicate n .null) j ∧ EndsAs j k := by
  induction rounds generalizing steps i with
  | zero => cases h
  | succ rounds ih =>
    unfold settleFrom at h
    split at h
    · exact ⟨0, i, .stay i, rest_ok h ▸ .well⟩
    next hr =>
    have hr : i.status = .running := by simpa using hr
    split at h
    · exact ⟨0, i, .stay i, markFailed_endsAs hr rfl h⟩
    next state hs =>
    split at h
    · exact ⟨0, i, .stay i, rest_ok h ▸ .well⟩
    next hk =>
    obtain ⟨selected, hsel, h⟩ := canEnd_bind_ok h
    rcases selected with f | _ | t
    · exact ⟨0, i, .stay i, markFailed_endsAs (s := .hook f) hr (select_error_reached hsel) h⟩
    · exact ⟨0, i, .stay i, rest_ok h ▸ .well⟩
    have hc : Choice d i .null t := .auto hr hs (by simp_all) (select_mem hsel)
    dsimp only at h
    split at h
    · exact ⟨0, i, .stay i, markFailed_endsAs hr rfl h⟩
    obtain ⟨result, hmove, h⟩ := canEnd_bind_ok h
    rcases result with s | next
    · rcases hc.move_error hmove with hi | hm
      · exact ⟨0, i, .stay i, markFailed_endsAs hr hi h⟩
      · cases canEnd_markFailed.1 h
        exact ⟨1, _, .go hm (.stay _), .failed s.cause hm.status_ne⟩
    · obtain ⟨n, j, hp, hj⟩ := ih h
      exact ⟨n + 1, j, .go (hc.move_ok hmove) hp, hj⟩

theorem settle_path (h : (i.settle d limits).CanEnd (.ok k)) :
    ∃ n j, Path d i (List.replicate n .null) j ∧ EndsAs j k :=
  settleFrom_path h

end Instance

end Workflow
