import Workflow.Proofs.Run.Life

/-!
# Why a run fails

An operation that makes a run fail has met a setback at some snapshot on its way.

**Faults** (`Definition.Faults`). What a hook of the definition can fail with, and what a guard
fails with whose answer is neither true nor false.

**Setbacks** (`Instance.StoppedBy`). A hook at fault, an occupied state or a target that is
unknown, or a bound that was reached.

Main result: `Instance.Operation.stopped`. The failed snapshot is the one that the setback lets be
reached, and its error is the cause of the setback.
-/

namespace Workflow

open Activity

/-- The hooks that the states of a definition name. -/
inductive Definition.HasHook (d : Definition) (h : Hook) : Prop
  | guard {key : String} {s : State} {t : Transition} :
      d.state? key = some s → t ∈ s.transitions → t.guard = some h → HasHook d h
  | action {key : String} {s : State} {t : Transition} :
      d.state? key = some s → t ∈ s.transitions → t.action = some h → HasHook d h
  | exit {key : String} {s : State} : d.state? key = some s → s.onExit = some h → HasHook d h
  | entry {key : String} {s : State} : d.state? key = some s → s.onEnter = some h → HasHook d h

/-- The failures that hooks of a definition cause. -/
inductive Definition.Faults (d : Definition) (f : Failure) : Prop
  | raised {h : Hook} {c : Context} : d.HasHook h → (h.call c).CanEnd (.error f) → Faults d f
  | untestable (message : String) : f = .value message → Faults d f

namespace Instance

variable {d : Definition} {i j k : Instance} {t : Transition} {ts : List Transition}
  {event : Value} {limits : Limits} {f : HookFailure}

/-- What can stop a run in a snapshot. -/
inductive StoppedBy (d : Definition) (i : Instance) : Setback → Prop
  | hook {f : HookFailure} : d.Faults f.cause → StoppedBy d i (.hook f)
  | lost : d.state? i.current = none → StoppedBy d i (.stateNotFound (.text i.current) d.id)
  | astray {target : Value} :
      d.target? target = .ok none → StoppedBy d i (.stateNotFound target d.id)
  | stalled (state : String) (bound : Int) : StoppedBy d i (.stalled state bound)

/-! ## Hooks at fault -/

theorem passes_fault (ht : ∀ h, t.guard = some h → d.HasHook h)
    (hp : (i.passes t).CanEnd (.ok (.error f))) : d.Faults f.cause := by
  unfold passes at hp
  split at hp
  · cases hp
  next guard hg =>
  obtain ⟨r, hr, hp⟩ := canEnd_bind_ok hp
  cases r with
  | ok a => cases hp
  | error e =>
    cases hp
    rcases canEnd_bind.1 (canEnd_caught_error hr).1 with ⟨answer, -, e', htruth⟩ | ⟨e', hcall, he⟩
    · -- The guard has answered, and the truth of its answer cannot be told.
      cases answer with
      | datum x => cases htruth
      | untestable message =>
        cases htruth
        exact .untestable message rfl
    · cases he
      exact .raised (ht guard hg) hcall

theorem select_fault (hts : ∀ t ∈ ts, ∀ h, t.guard = some h → d.HasHook h)
    (h : (i.select ts).CanEnd (.ok (.error f))) : d.Faults f.cause := by
  induction ts with
  | nil => cases h
  | cons t rest ih =>
    obtain ⟨ht, hrest⟩ := List.forall_mem_cons.1 hts
    rcases canEnd_whenOk_error h with h | ⟨passed, -, h⟩
    · exact passes_fault ht h
    · cases passed with
      | true => cases h
      | false => exact ih hrest h

theorem runHook_fault {role : HookRole} {state : String} {hook : Option Hook}
    (hh : ∀ h, hook = some h → d.HasHook h)
    (h : (i.runHook role state hook j).CanEnd (.ok (.error f))) : d.Faults f.cause := by
  unfold runHook at h
  split at h
  · cases h
  next hook =>
  obtain ⟨r, hr, h⟩ := canEnd_bind_ok h
  cases r with
  | ok a => cases h
  | error e =>
    cases h
    exact .raised (hh hook rfl) (canEnd_caught_error hr).1

theorem moveBetween_fault {source target : State}
    (hexit : ∀ h, source.onExit = some h → d.HasHook h)
    (haction : ∀ h, t.action = some h → d.HasHook h)
    (hentry : ∀ h, target.onEnter = some h → d.HasHook h)
    (h : (i.moveBetween t source target event).CanEnd (.ok (.error f))) : d.Faults f.cause := by
  rcases canEnd_whenOk_error h with h | ⟨-, -, h⟩
  · exact runHook_fault hexit h
  rcases canEnd_whenOk_error h with h | ⟨-, -, h⟩
  · exact runHook_fault haction h
  obtain ⟨moment, -, h⟩ := canEnd_bind_ok h
  obtain ⟨-, -, h⟩ := canEnd_bind_ok h
  rcases canEnd_whenOk_error h with h | ⟨-, -, h⟩
  · exact runHook_fault hentry h
  · cases h

/-! ## Operations that fail -/

/-- The guard of a choice is a hook of the definition. -/
theorem Choice.guard (hc : Choice d i event t) {h : Hook} (hh : t.guard = some h) :
    d.HasHook h := by
  obtain ⟨s, hs, hmem, -⟩ := hc.source
  exact .guard hs hmem hh

/-- A move along a transition of the occupied state is stopped by one of the setbacks there. -/
theorem Choice.move_stopped {s : Setback} (hc : Choice d i event t)
    (h : (move d i t event).CanEnd (.ok (.error s))) : StoppedBy d i s := by
  obtain ⟨source, hs, hmem, -⟩ := hc.source
  unfold move at h
  rw [hs] at h
  dsimp only at h
  split at h
  · cases h
  next ht =>
    cases h
    exact .astray ht
  next target ht =>
    obtain ⟨r, hr, h⟩ := canEnd_bind_ok h
    cases r with
    | ok j => cases h
    | error f =>
      cases h
      obtain ⟨key, -, hkey⟩ := Definition.target?_some ht
      exact .hook (moveBetween_fault (fun _ => .exit hs) (fun _ => .action hs hmem)
        (fun _ => .entry hkey) hr)

/-- The failed snapshot that a setback leaves, somewhere on the way. -/
def FailsBy (d : Definition) (i k : Instance) : Prop :=
  ∃ j events s, Path d i events j ∧ StoppedBy d j s ∧ k = (s.reached j).failed s.cause

theorem StoppedBy.failsBy {s : Setback} (hs : StoppedBy d i s)
    (h : (i.markFailed s).CanEnd (.ok k)) : FailsBy d i k := by
  cases canEnd_markFailed.1 h
  exact ⟨i, [], s, .stay i, hs, rfl⟩

theorem FailsBy.go (hm : Moves d i event j) (h : FailsBy d j k) : FailsBy d i k := by
  obtain ⟨l, events, s, hp, hs, hk⟩ := h
  exact ⟨l, event :: events, s, .go hm hp, hs, hk⟩

theorem settleFrom_stopped {bound : Option Int} {rounds steps : Nat} (hi : i.status ≠ .failed)
    (h : (settleFrom d bound rounds steps i).CanEnd (.ok k)) (hk : k.status = .failed) :
    FailsBy d i k := by
  have rests : ¬ (i.rest steps).CanEnd (.ok k) := fun h => hi (rest_ok h ▸ hk)
  induction rounds generalizing steps i with
  | zero => cases h
  | succ rounds ih =>
    unfold settleFrom at h
    split at h
    · exact absurd h rests
    next hr =>
    have hr : i.status = .running := by simpa using hr
    split at h
    next hs => exact (StoppedBy.lost hs).failsBy h
    next state hs =>
    split at h
    · exact absurd h rests
    obtain ⟨selected, hsel, h⟩ := canEnd_bind_ok h
    have hchoice : ∀ t ∈ state.autoTransitions, Choice d i .null t :=
      fun t ht => .auto hr hs (by simp_all) ht
    rcases selected with f | _ | t
    · have hfault : d.Faults f.cause := select_fault (fun t ht _ => (hchoice t ht).guard) hsel
      exact (StoppedBy.hook hfault).failsBy h
    · exact absurd h rests
    have hc : Choice d i .null t := hchoice t (select_mem hsel)
    dsimp only at h
    split at h
    next n _ => exact (StoppedBy.stalled state.id n).failsBy h
    obtain ⟨result, hmove, h⟩ := canEnd_bind_ok h
    rcases result with s | next
    · exact (hc.move_stopped hmove).failsBy h
    · have hm : Moves d i .null next := hc.move_ok hmove
      exact (ih hm.status_ne h fun h => hm.status_ne (rest_ok h ▸ hk)).go hm

theorem send_stopped {name : String} {out : Dispatch} (hi : i.status ≠ .failed)
    (h : (i.send d limits name).CanEnd (.ok out)) (hk : out.reached.status = .failed) :
    FailsBy d i out.reached := by
  cases send_ok h with
  | refused => exact absurd hk hi
  | @fault f hr hsel =>
    have hfault : d.Faults f.cause :=
      select_fault (fun t ht _ => (Choice.of_candidate ht).guard) hsel
    have hreached : f.reached = i := select_error_reached hsel
    exact ⟨i, [], .hook f, .stay i, .hook hfault, by simp [Setback.reached, Setback.cause, hreached]⟩
  | stopped hc hmove => exact ⟨i, [], _, .stay i, hc.move_stopped hmove, rfl⟩
  | moved hc hmove hsettle =>
    have hm : Moves d i (.text name) _ := hc.move_ok hmove
    exact (settleFrom_stopped hm.status_ne hsettle hk).go hm

/-- **An operation that makes a run fail has met a setback on its way.** -/
theorem Operation.stopped (h : i.Operation d k) (hi : i.status ≠ .failed)
    (hk : k.status = .failed) : FailsBy d i k := by
  cases h with
  | send h => exact send_stopped hi h hk
  | settle h => exact settleFrom_stopped hi h hk
  | updateContext hs h =>
    obtain ⟨-, c, rfl⟩ := Engine.run_replaceContext_ok hs h
    exact absurd hk hi
  | setContext hs h =>
    obtain ⟨-, c, rfl⟩ := Engine.run_replaceContext_ok hs h
    exact absurd hk hi

end Instance

end Workflow
