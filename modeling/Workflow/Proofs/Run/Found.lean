import Workflow.Proofs.Document.Keyed
import Workflow.Proofs.Run.History
import Workflow.Proofs.Run.Stopped

/-!
# Instances that know where they are

A move looks its target up under a key and records the id of the state that it finds. The two agree
if every state that a transition leads to is stored under its own id (`Definition.Filed`). The
initial state may have any id, since a fresh snapshot records its key.

Main result: `reached_found`. Where the targets are filed, an instance always occupies a known
state: it is the one that the last transition named, settling does not fail for not finding it, and
no event is ignored for that reason. In a definition with a stray target one move is enough to lose
an instance (`lost_instance`).
-/

namespace Workflow

open Activity Instance

variable {d : Definition} {i j k : Instance} {event : Value}

/-- Every state that a transition leads to is stored under its own id. -/
def Definition.Filed (d : Definition) : Prop :=
  ∀ {key : String} {s target : State} {t : Transition}, d.state? key = some s →
    t ∈ s.transitions → d.target? t.target = .ok (some target) →
      d.state? target.id = some target

/-- Well-keyed definitions are filed, so all compiled ones are. -/
theorem Definition.WellKeyed.filed (h : d.WellKeyed) : d.Filed := by
  intro key s target t _ _ ht
  obtain ⟨key', -, htarget⟩ := Definition.target?_some ht
  rw [h.keyed htarget]
  exact htarget

/-- The occupied state is known. -/
def Instance.Found (d : Definition) (i : Instance) : Prop := ∃ s, d.state? i.current = some s

/-- In a valid definition a run starts in a known state. -/
theorem Instance.Found.fresh (hv : d.check = .ok ()) (c : Context) (id moment : String) :
    (d.fresh c id moment).Found d := by
  unfold Definition.check at hv
  split at hv
  next hc => exact Option.isSome_iff_exists.1 hc
  next => cases hv

theorem Instance.Found.moves (hf : d.Filed) (hm : Moves d i event j) : j.Found d := by
  obtain ⟨moment, -, hs, hmem, -, -, ht⟩ := hm
  exact ⟨_, hf hs hmem ht⟩

theorem Instance.Found.path {events : List Value} (hf : d.Filed) (hp : Path d i events j)
    (hi : i.Found d) : j.Found d := by
  induction hp with
  | stay => exact hi
  | go hm _ ih => exact ih (.moves hf hm)

/-- The occupied state of every snapshot that is reached is known. -/
theorem Definition.Reaches.found (hv : d.check = .ok ()) (hf : d.Filed) (h : d.Reaches i) :
    i.Found d :=
  h.keeps (.fresh hv) (fun hm _ => .moves hf hm) (fun _ _ hi => hi) (fun _ hi => hi)

/-! ## Moves -/

/-- Where a move along a transition has led: to the state under the key that the transition names,
also if the entry hook failed there, or nowhere. -/
inductive Instance.Arrives (d : Definition) (i : Instance) (t : Transition) :
    Except Setback Instance → Prop
  | moved {j : Instance} {target : State} : d.target? t.target = .ok (some target) →
      d.state? j.current = some target → Arrives d i t (.ok j)
  | entered {b : Setback} {target : State} : d.target? t.target = .ok (some target) →
      d.state? (b.reached i).current = some target → Arrives d i t (.error b)
  | stayed {b : Setback} : b.reached i = i → Arrives d i t (.error b)

theorem Instance.move_arrives (hf : d.Filed) {s : State} {t : Transition}
    {r : Except Setback Instance} (hs : d.state? i.current = some s) (ht : t ∈ s.transitions)
    (h : (move d i t event).CanEnd (.ok r)) : i.Arrives d t r := by
  cases r with
  | ok j =>
    obtain ⟨-, target, moment, -, htarget, rfl⟩ := move_ok h
    exact .moved htarget (hf hs ht htarget)
  | error b =>
    rcases move_error h with hstay | ⟨target, moment, htarget, hreached⟩
    · exact .stayed hstay
    · refine .entered htarget ?_
      rw [hreached]
      exact hf hs ht htarget

/-! ## Failing -/

/-- The failure of an instance whose own state is unknown. -/
def Instance.lostFailure (d : Definition) (i : Instance) : Failure :=
  .stateNotFound (.text i.current) d.id

/-- A hook of the definition can fail with this very failure. -/
def Definition.Raises (d : Definition) (f : Failure) : Prop :=
  ∃ h c, d.HasHook h ∧ (h.call c).CanEnd (.error f)

/-- A run whose states are known fails for its own state being unknown only if a hook raises
that. -/
theorem Instance.FailsBy.raises (hf : d.Filed) (hi : i.Found d) (h : FailsBy d i k)
    (hk : k.error = some (k.lostFailure d)) : d.Raises (k.lostFailure d) := by
  obtain ⟨j, events, s, hp, hs, rfl⟩ := h
  obtain ⟨state, hstate⟩ := Found.path hf hp hi
  have hcause : s.cause = ((s.reached j).failed s.cause).lostFailure d := Option.some.inj hk
  cases hs with
  | hook hfault =>
    rw [← hcause]
    cases hfault with
    | raised hh hcall => exact ⟨_, _, hh, hcall⟩
    | untestable message hvalue =>
      -- A guard that cannot be told names no state.
      have hvalue' : (Setback.hook _).cause = .value message := hvalue
      rw [hvalue'] at hcause
      cases hcause
  | lost hnone =>
    rw [hstate] at hnone
    cases hnone
  | @astray target hnone =>
    -- A target that is unknown is not the occupied state.
    have htarget : target = .text j.current := (Failure.stateNotFound.inj hcause).1
    rw [htarget] at hnone
    cases hnone.symm.trans (congrArg Except.ok hstate)
  | stalled => cases hcause

/-- A failed run stays as it is. -/
theorem Instance.Operation.of_failed (h : i.Operation d j) (hi : i.status = .failed) : j = i := by
  have not_running : i.status ≠ .running := by simp [hi]
  have not_moves : ∀ {event k}, ¬ Moves d i event k := fun hm => not_running hm.error.1
  have ends : ∀ {k}, EndsAs i k → k = i := by
    rintro k (_ | ⟨e, hs⟩)
    · rfl
    · exact absurd hi hs
  cases h with
  | send h =>
    rcases send_path h with he | ⟨k, n, l, hm, -, -⟩
    · exact ends he
    · exact absurd hm not_moves
  | settle h =>
    obtain ⟨n, k, hp, he⟩ := settle_path h
    generalize List.replicate n Value.null = events at hp
    cases hp with
    | stay => exact ends he
    | go hm _ => exact absurd hm not_moves
  | updateContext hs h => exact absurd (Engine.run_replaceContext_ok hs h).1 not_running
  | setContext hs h => exact absurd (Engine.run_replaceContext_ok hs h).1 not_running

theorem Instance.Operation.lost_raises (hf : d.Filed) (hi : i.Chronicled d) (hfound : i.Found d)
    (h : i.Operation d j) (hold : i.error = some (i.lostFailure d) → d.Raises (i.lostFailure d))
    (hj : j.error = some (j.lostFailure d)) : d.Raises (j.lostFailure d) := by
  by_cases hs : i.status = .failed
  · cases h.of_failed hs
    exact hold hj
  · have hkeep : j.Chronicled d := h.keeps (fun hm hi => hi.moves hm) (fun e _ hi => hi.failed e)
      (fun c hi => hi.recontext c) hi
    have hfailed : j.status = .failed := hkeep.error.1 (by rw [hj]; rfl)
    exact (h.stopped hs hfailed).raises hf hfound hj

/-- A snapshot that is reached has not failed for its own state being unknown, unless a hook
raised that. -/
theorem Definition.Reaches.lost_raises (hv : d.check = .ok ()) (hf : d.Filed) (h : d.Reaches i)
    (hi : i.error = some (i.lostFailure d)) : d.Raises (i.lostFailure d) := by
  induction h with
  | start h =>
    obtain ⟨id, moment, rfl⟩ := Definition.start_ok h
    cases hi
  | @startAndSettle limits c _ _ h =>
    obtain ⟨i₀, hi₀, h⟩ := canEnd_bind_ok h
    obtain ⟨id, moment, rfl⟩ := Definition.start_ok hi₀
    exact Operation.lost_raises hf (.fresh c id moment) (.fresh hv c id moment) (.settle h) nofun hi
  | step hreach ho ih =>
    exact ho.lost_raises hf hreach.chronicled (hreach.found hv hf) ih hi

/-! ## Events -/

/-- An event that leaves a running snapshot as it is was tried in a known state: no guard of its
transitions there said yes. -/
theorem Instance.send_same {limits : Limits} {name : String} (hi : i.Found d)
    (hr : i.status = .running) (h : (i.send d limits name).CanEnd (.ok ⟨i, false⟩)) :
    ∃ s, d.state? i.current = some s ∧
      (i.select (s.transitionsFor name)).CanEnd (.ok (.ok none)) := by
  obtain ⟨s, hs⟩ := hi
  have hcandidates : i.candidates d name = s.transitionsFor name := by simp [candidates, hr, hs]
  have not_failed : ∀ {k : Instance} {e : Failure}, k.failed e ≠ i := by
    rintro k e rfl
    cases hr
  refine ⟨s, hs, ?_⟩
  rw [← hcandidates]
  generalize hout : Dispatch.mk i false = out at h
  cases send_ok h with
  | refused hsel => exact hsel
  | fault => exact absurd (congrArg Dispatch.reached hout).symm not_failed
  | stopped => exact absurd (congrArg Dispatch.reached hout).symm not_failed
  | moved => cases hout

/-- **An instance never gets lost**, where every state that a transition leads to is stored under
its own id. All snapshots on its way occupy a known state, each move arrives where its transition
says, and neither settling nor sending meets an unknown state. -/
theorem reached_found (hv : d.check = .ok ()) (hf : d.Filed) (h : d.Reaches i) :
    (∀ j events, Path d i events j → ∃ s, d.state? j.current = some s ∧
      ∀ t ∈ s.transitions, ∀ event r, (move d j t event).CanEnd (.ok r) → j.Arrives d t r) ∧
    (i.error = some (i.lostFailure d) → d.Raises (i.lostFailure d)) ∧
    ∀ limits name, i.status = .running → (i.send d limits name).CanEnd (.ok ⟨i, false⟩) →
      ∃ s, d.state? i.current = some s ∧
        (i.select (s.transitionsFor name)).CanEnd (.ok (.ok none)) := by
  have hfound : i.Found d := h.found hv hf
  refine ⟨?_, h.lost_raises hv hf, fun limits name hr hsend => send_same hfound hr hsend⟩
  intro j events hp
  obtain ⟨s, hs⟩ := Found.path hf hp hfound
  exact ⟨s, hs, fun t ht event r hmove => move_arrives hf hs ht hmove⟩

/-! ## A door with a stray state -/

/-- A door whose shut state has this id. -/
def swingDoor (id : String) : Definition where
  id := .text "door"
  initial := "open"
  states := Dict.ofList [
    ("open", { id := "open", transitions := [{ target := .text "shut", event := .text "push" }] }),
    ("shut", { id, transitions := [{ target := .text "open", event := .text "pull" }] })]

/-- The door at the start. -/
def swingOpen : Instance := (swingDoor "shut").fresh ⟨0, .null⟩ "front door" (Instant.text ⟨0⟩)

/-- The door after a push, with the id of its shut state. -/
def swingShut (id : String) : Instance :=
  { swingOpen with
    current := id
    history := [
      { state := "open", enteredAt := Instant.text ⟨0⟩, leftAt := some (Instant.text ⟨7⟩) },
      { state := id, enteredAt := Instant.text ⟨7⟩, event := .text "push" }] }

/-- If the shut state is stored under its id, the shut door is found, and a knock is tried there. -/
theorem reached_found_shut :
    (swingDoor "shut").check = .ok () ∧ (swingDoor "shut").Filed ∧
      (swingDoor "shut").Reaches (swingShut "shut") ∧
      ∃ s, (swingDoor "shut").state? (swingShut "shut").current = some s ∧
        ((swingShut "shut").select (s.transitionsFor "knock")).CanEnd (.ok (.ok none)) := by
  have hv : (swingDoor "shut").check = .ok () := rfl
  have hw : (swingDoor "shut").WellKeyed := by
    refine ⟨hv, fun {key s} hs => ?_⟩
    have hmem := Dict.get?_ofList_mem hs
    simp only [List.mem_cons, List.not_mem_nil, or_false, Prod.mk.injEq] at hmem
    rcases hmem with ⟨rfl, rfl⟩ | ⟨rfl, rfl⟩ <;> rfl
  have hstart : (((swingDoor "shut").start ⟨0, .null⟩ (some "front door")).run
      (stoppedAt 0)).answer = .ok swingOpen := rfl
  have hpush : ((swingOpen.send (swingDoor "shut") {} "push").run (stoppedAt 7)).answer =
      .ok ⟨swingShut "shut", true⟩ := rfl
  have hknock : (((swingShut "shut").send (swingDoor "shut") {} "knock").run
      (stoppedAt 9)).answer = .ok ⟨swingShut "shut", false⟩ := rfl
  have hopen : (swingDoor "shut").Reaches swingOpen := .start (hstart ▸ canEnd_run _ _)
  have hshut : (swingDoor "shut").Reaches (swingShut "shut") :=
    hopen.step (.send (hpush ▸ canEnd_run _ _))
  exact ⟨hv, hw.filed, hshut,
    (reached_found hv hw.filed hshut).2.2 {} "knock" rfl (hknock ▸ canEnd_run _ _)⟩

/-- If it is stored under another key, the first push loses the instance: its state is unknown, and
settling reports that. -/
theorem lost_instance :
    (swingDoor "closed").check = .ok () ∧
      ∃ i, (swingDoor "closed").Reaches i ∧ (swingDoor "closed").state? i.current = none ∧
        i.error = some (.stateNotFound (.text i.current) (swingDoor "closed").id) := by
  have hstart : (((swingDoor "closed").start ⟨0, .null⟩ (some "front door")).run
      (stoppedAt 0)).answer = .ok swingOpen := rfl
  have hpush : ((swingOpen.send (swingDoor "closed") {} "push").run (stoppedAt 7)).answer =
      .ok ⟨(swingShut "closed").failed (.stateNotFound (.text "closed") (.text "door")), true⟩ :=
    rfl
  have hopen : (swingDoor "closed").Reaches swingOpen := .start (hstart ▸ canEnd_run _ _)
  exact ⟨rfl, _, hopen.step (.send (hpush ▸ canEnd_run _ _)), rfl, rfl⟩

end Workflow
