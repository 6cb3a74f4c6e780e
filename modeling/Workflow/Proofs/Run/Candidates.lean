import Workflow.Proofs.Run.Path

/-!
# The parts of a dispatch

Asking whether an event would be taken, and sending it, begin with the same work: they try the
guards of the transitions that the event may take (`Instance.candidates`), in order, up to the first
that does not say no. Sending then follows the transition that was selected (`Instance.follow`).
A run that is not going on, and one whose occupied state is unknown, has no candidates, and nothing
is tried then.

Main results: `canFire_eq` and `send_eq` take the two apart, and `send_path` says where sending can
lead: nowhere, or along one move for the event and then along a path without events.
-/

namespace Workflow.Instance

open Activity

variable {d : Definition} {i : Instance} {t : Transition} {event : String} {limits : Limits}

/-- The transitions that an event may take, in the order in which they are tried. -/
def candidates (d : Definition) (i : Instance) (event : String) : List Transition :=
  if i.status ≠ .running then []
  else
    match d.state? i.current with
    | none => []
    | some state => state.transitionsFor event

/-- What sending does with the transition that was selected. -/
def follow (d : Definition) (limits : Limits) (i : Instance) (t : Transition) (event : String) :
    Activity Realm.flow Dispatch :=
  (move d i t (.text event)).bind fun
    | .error s => i.refuseWith s
    | .ok next => (settle d limits next).bind fun settled => .done ⟨settled, true⟩

/-- Each candidate is a choice for the event. -/
theorem Choice.of_candidate (ht : t ∈ i.candidates d event) : Choice d i (.text event) t := by
  unfold candidates at ht
  split at ht
  · cases ht
  next hr =>
  split at ht
  · cases ht
  next s hs => exact .triggered (by simpa using hr) hs ht

/-- Asking tries the candidates, and tells whether one was selected. -/
theorem canFire_eq (d : Definition) (i : Instance) (event : String) :
    i.canFire d event = (i.select (i.candidates d event)).bind fun
      | .error h => .fail h.toFailure
      | .ok selected => .done selected.isSome := by
  unfold canFire candidates
  split
  · rfl
  · cases d.state? i.current <;> rfl

/-- The same snapshot, at most with a message in the log. -/
inductive Idle (i : Instance) : Activity Realm.flow Dispatch → Prop
  | silent : Idle i i.refuse
  | logged (level : Level) (message : String) : Idle i ((log level message).bind fun _ => i.refuse)

theorem Idle.canEnd {u : Activity Realm.flow Dispatch} {out : Dispatch} (h : Idle i u)
    (hout : u.CanEnd (.ok out)) : out = ⟨i, false⟩ := by
  cases h with
  | silent =>
    cases hout
    rfl
  | logged =>
    obtain ⟨-, -, hout⟩ := canEnd_bind_ok hout
    cases hout
    rfl

theorem Idle.never {u : Activity Realm.flow Dispatch} {F : Failure → Prop} (h : Idle i u) :
    FailsAs F u := by
  cases h with
  | silent => exact .done _
  | logged => exact nofun

theorem Idle.run {u : Activity Realm.flow Dispatch} (h : Idle i u) (e : Environment) :
    (u.run e).answer = .ok ⟨i, false⟩ := by
  cases h <;> rfl

/-- **Sending tries the candidates as well, and then follows the one that was selected.** -/
theorem send_eq (d : Definition) (limits : Limits) (i : Instance) (event : String) :
    ∃ idle, Idle i idle ∧ i.send d limits event = (i.select (i.candidates d event)).bind fun
      | .error h => i.refuseWith (.hook h)
      | .ok none => idle
      | .ok (some t) => i.follow d limits t event := by
  unfold send candidates
  split
  · exact ⟨_, .silent, rfl⟩
  cases hs : d.state? i.current with
  | none => exact ⟨_, .silent, rfl⟩
  | some state =>
    dsimp only
    split
    next hempty =>
      have hnone : state.transitionsFor event = [] := by
        simp [State.transitionsFor, List.isEmpty_iff.1 hempty]
      rw [hnone]
      exact ⟨_, .silent, rfl⟩
    split
    next hempty =>
      rw [List.isEmpty_iff.1 hempty]
      exact ⟨_, .logged _ _, rfl⟩
    exact ⟨_, .silent, rfl⟩

/-! ## Endings -/

/-- When a guard has failed or said yes, the run was going on. -/
theorem running_of_select {r : Except HookFailure (Option Transition)}
    (h : (i.select (i.candidates d event)).CanEnd (.ok r)) (hne : r ≠ .ok none) :
    i.status = .running := by
  cases hts : i.candidates d event with
  | nil =>
    rw [hts] at h
    cases h
    exact absurd rfl hne
  | cons t rest => exact (Choice.of_candidate (hts ▸ List.mem_cons_self)).running

/-- What following a transition can be answered with: a failed snapshot, or a moved one that has
settled. -/
theorem follow_ok {out : Dispatch} (h : (i.follow d limits t event).CanEnd (.ok out)) :
    (∃ s, (move d i t (.text event)).CanEnd (.ok (.error s)) ∧
      out = ⟨(s.reached i).failed s.cause, false⟩) ∨
    ∃ next settled, (move d i t (.text event)).CanEnd (.ok (.ok next)) ∧
      (settle d limits next).CanEnd (.ok settled) ∧ out = ⟨settled, true⟩ := by
  obtain ⟨r, hmove, h⟩ := canEnd_bind_ok h
  rcases r with s | next
  · obtain ⟨failed, hf, h⟩ := canEnd_bind_ok h
    cases h
    cases canEnd_markFailed.1 hf
    exact .inl ⟨s, hmove, rfl⟩
  · obtain ⟨settled, hsettle, h⟩ := canEnd_bind_ok h
    cases h
    exact .inr ⟨next, settled, hmove, hsettle, rfl⟩

/-- What sending an event can be answered with. -/
inductive Sends (d : Definition) (limits : Limits) (i : Instance) (event : String) :
    Dispatch → Prop
  | refused : (i.select (i.candidates d event)).CanEnd (.ok (.ok none)) →
      Sends d limits i event ⟨i, false⟩
  | fault {f : HookFailure} : i.status = .running →
      (i.select (i.candidates d event)).CanEnd (.ok (.error f)) →
      Sends d limits i event ⟨i.failed f.cause, false⟩
  | stopped {t : Transition} {s : Setback} : Choice d i (.text event) t →
      (move d i t (.text event)).CanEnd (.ok (.error s)) →
      Sends d limits i event ⟨(s.reached i).failed s.cause, false⟩
  | moved {t : Transition} {next settled : Instance} : Choice d i (.text event) t →
      (move d i t (.text event)).CanEnd (.ok (.ok next)) →
      (settle d limits next).CanEnd (.ok settled) → Sends d limits i event ⟨settled, true⟩

theorem send_ok {out : Dispatch} (h : (i.send d limits event).CanEnd (.ok out)) :
    Sends d limits i event out := by
  obtain ⟨idle, hidle, hsend⟩ := send_eq d limits i event
  rw [hsend] at h
  obtain ⟨selected, hsel, h⟩ := canEnd_bind_ok h
  rcases selected with f | _ | t
  · obtain ⟨failed, hf, h⟩ := canEnd_bind_ok h
    cases h
    cases canEnd_markFailed.1 hf
    have hreached : (Setback.hook f).reached i = i := select_error_reached hsel
    rw [hreached]
    exact .fault (running_of_select hsel nofun) hsel
  · rw [hidle.canEnd h]
    exact .refused hsel
  · have hc : Choice d i (.text event) t := .of_candidate (select_mem hsel)
    rcases follow_ok h with ⟨s, hmove, rfl⟩ | ⟨next, settled, hmove, hsettle, rfl⟩
    · exact .stopped hc hmove
    · exact .moved hc hmove hsettle

/-- **Sending goes nowhere, or makes one move for the event and then settles.** -/
theorem send_path {out : Dispatch} (h : (i.send d limits event).CanEnd (.ok out)) :
    EndsAs i out.reached ∨ ∃ j n k, Moves d i (.text event) j ∧
      Path d j (List.replicate n .null) k ∧ EndsAs k out.reached := by
  cases send_ok h with
  | refused => exact .inl .well
  | fault hr => exact .inl (.failed _ (by simp [hr]))
  | @stopped _ s hc hmove =>
    rcases hc.move_error hmove with hi | hm
    · rw [hi]
      exact .inl (.failed _ (by simp [hc.running]))
    · exact .inr ⟨_, 0, _, hm, .stay _, .failed s.cause hm.status_ne⟩
  | moved hc hmove hsettle =>
    obtain ⟨n, k, hp, hk⟩ := settle_path hsettle
    exact .inr ⟨_, n, k, hc.move_ok hmove, hp, hk⟩

/-! ## The state after an event -/

/-- The entry hook of the transition that was taken for an event has failed: the instance was moved,
and is marked as failed. -/
inductive EntryFailed (d : Definition) (i : Instance) (event : String) : Instance → Prop
  | along {t : Transition} {target : State} {hook : Hook} {f : Failure} (moment : String) :
      Choice d i (.text event) t → d.target? t.target = .ok (some target) →
      target.onEnter = some hook → (hook.call i.ctx).CanEnd (.error f) → f.escape = none →
      EntryFailed d i event ((i.moved t target (.text event) moment).failed f)

theorem EntryFailed.status {j : Instance} (h : EntryFailed d i event j) : j.status = .failed := by
  cases h
  rfl

/-- A hook that failed was there, and nothing escapes from what it raised. -/
theorem runHook_raised {role : HookRole} {state : String} {hook : Option Hook} {f : HookFailure}
    {j : Instance} (h : (i.runHook role state hook j).CanEnd (.ok (.error f))) :
    ∃ raiser, hook = some raiser ∧ (raiser.call i.ctx).CanEnd (.error f.cause) ∧
      f.cause.escape = none := by
  cases hook with
  | none => cases h
  | some raiser =>
    obtain ⟨r, hr, h⟩ := canEnd_bind_ok h
    cases r with
    | ok a => cases h
    | error e =>
      cases h
      exact ⟨raiser, rfl, canEnd_caught_error hr⟩

/-- A move that is stopped leaves the instance in its state, unless the entry hook of the target has
failed. -/
theorem move_stopped {s : Setback} (hc : Choice d i (.text event) t)
    (h : (move d i t (.text event)).CanEnd (.ok (.error s))) :
    s.reached i = i ∨ EntryFailed d i event ((s.reached i).failed s.cause) := by
  unfold move at h
  split at h
  · cases h
    exact .inl rfl
  split at h
  · cases h
  · cases h
    exact .inl rfl
  next target ht =>
  obtain ⟨r, hr, h⟩ := canEnd_bind_ok h
  cases r with
  | ok j => cases h
  | error f =>
    cases h
    rcases canEnd_whenOk_error hr with hr | ⟨-, -, hr⟩
    · exact .inl (runHook_error hr)
    rcases canEnd_whenOk_error hr with hr | ⟨-, -, hr⟩
    · exact .inl (runHook_error hr)
    obtain ⟨moment, -, hr⟩ := canEnd_bind_ok hr
    obtain ⟨-, -, hr⟩ := canEnd_bind_ok hr
    rcases canEnd_whenOk_error hr with hr | ⟨-, -, hr⟩
    · obtain ⟨hook, hhook, hraised, hescape⟩ := runHook_raised hr
      have hreached : f.reached = i.moved t target (.text event) moment.text := runHook_error hr
      have hfailed : EntryFailed d i event ((f.reached).failed f.cause) := by
        rw [hreached]
        exact .along moment.text hc ht hhook hraised hescape
      exact .inr hfailed
    · cases hr

/-- **An event that makes no transition leaves the instance in its state**, unless an entry hook has
failed. -/
theorem send_current {out : Dispatch} (h : (i.send d limits event).CanEnd (.ok out)) :
    out.transitioned ∨ out.reached.current = i.current ∨
      (out.transitioned = false ∧ EntryFailed d i event out.reached) := by
  cases send_ok h with
  | refused => exact .inr (.inl rfl)
  | fault => exact .inr (.inl rfl)
  | @stopped _ s hc hmove =>
    rcases move_stopped hc hmove with hi | hfailed
    · refine .inr (.inl ?_)
      rw [hi]
      rfl
    · exact .inr (.inr ⟨rfl, hfailed⟩)
  | moved => exact .inl rfl

end Workflow.Instance
