import Workflow.Proofs.Activity.Amid
import Workflow.Proofs.Engine.Sound
import Workflow.Proofs.Run.Timed

/-!
# What an engine keeps of its instances

**Well kept** (`EngineState.WellKept`). Every stored snapshot names the id it is stored under, and
has a history in order, at readings of the clock. So its audit log can be read (`WellKept.log`).

**Stored for good** (`EngineState.Stores`). What is stored under an id stays there: the snapshot may
be replaced, but none is ever removed.

Main results: `wellKept_custody` and `stores_custody`. Both last through all calls on an engine,
whatever hooks and observers do. So each call can rely on both while others have their turns
(`Engine.Onward`).
-/

namespace Workflow

open Activity

namespace EngineState

/-- The clock gives the readings, and the stored snapshots are held rightly and were timed by it. -/
structure WellKept (reading : Nat → Instant) (w : EngineState) : Prop where
  clock : w.env.clock.reading = reading
  held : ∀ id i, w.instances.get? id = some i → i.Held id ∧ i.Timed reading

/-- There are a snapshot and a definition under the id. -/
structure Stores (id : String) (w : EngineState) : Prop where
  snapshot : ∃ i, w.instances.get? id = some i
  definition : ∃ d, w.definitions.get? id = some d

variable {reading : Nat → Instant} {w : EngineState} {id : String} {i : Instance}

/-- **The audit logs of stored instances can be read.** -/
theorem WellKept.log (h : w.WellKept reading) (hreading : ∀ n, (reading n).Writable)
    (hi : w.instances.get? id = some i) (d : Definition) : ∃ log, auditLog d i = .ok log := by
  obtain ⟨hheld, htimed⟩ := h.held id i hi
  obtain ⟨d', hd'⟩ := hheld.recorded
  exact auditLog_readable hd' htimed hreading d

/-- An engine without instances is well kept. -/
theorem wellKept_of_empty (hclock : w.env.clock.reading = reading) (h : w.instances = {}) :
    w.WellKept reading := by
  refine ⟨hclock, fun id i hi => ?_⟩
  rw [h] at hi
  cases hi

theorem WellKept.setInstance (h : w.WellKept reading) (hi : i.Held id ∧ i.Timed reading) :
    (w.setInstance id i).WellKept reading := by
  refine ⟨h.clock, fun id' i' hi' => ?_⟩
  unfold EngineState.setInstance at hi'
  rw [Dict.get?_insert] at hi'
  split at hi'
  next hid =>
    subst hid
    cases hi'
    exact hi
  next => exact h.held id' i' hi'

theorem Stores.setInstance {id' : String} (h : w.Stores id) (i : Instance) :
    (w.setInstance id' i).Stores id := by
  refine ⟨?_, h.definition⟩
  obtain ⟨j, hj⟩ := h.snapshot
  unfold EngineState.setInstance
  rw [Dict.get?_insert]
  split
  · exact ⟨i, rfl⟩
  · exact ⟨j, hj⟩

end EngineState

namespace Engine

variable {reading : Nat → Instant}

/-- An operation on single instances ends as it can as long as the clock gives the same readings. -/
theorem within_inStep {α : Type} {t : Activity Realm.flow α}
    (ht : t.Alters Environment.SameReading) {w : EngineState} (hw : w.WellKept reading) :
    InStep (EngineState.WellKept reading) (fun r (v : EngineState) => v.WellKept reading ∧
      t.EndsAmid Environment.SameReading w.env r v.env) w (within t) (within t) := by
  have hput : ∀ (s : Environment) (v : EngineState), v.env.SameReading s → v.WellKept reading →
      EngineState.WellKept reading { v with env := s } := fun s v hs hv =>
    ⟨Eq.trans hs hv.clock, hv.held⟩
  have hamong : ∀ v u : EngineState, v.WellKept reading → u.WellKept reading →
      v.env.SameReading u.env := fun v u hv hu => hu.clock.trans hv.clock.symm
  exact InStep.lift_amid (e := Realm.flowIn) (I := EngineState.WellKept reading) (fun _ _ => rfl)
    hput hamong ht hw

theorem calm_within {α : Type} {t : Activity Realm.flow α}
    (ht : t.Alters Environment.SameReading) : Calm (EngineState.WellKept reading) (within t) :=
  fun _ hw => (within_inStep ht hw).mono fun _ _ hr => ⟨hr.1, fun _ _ => trivial⟩

/-- **All that an engine stores is well kept.** -/
theorem wellKept_custody (reading : Nat → Instant) :
    Custody (EngineState.WellKept reading) fun id i => i.Held id ∧ i.Timed reading where
  held hw hi := hw.held _ _ hi
  put hw hi := hw.setInstance hi
  define _ _ hw := ⟨hw.clock, hw.held⟩
  aside hw hinstances _ henv := ⟨henv ▸ hw.clock, fun id i hi => hw.held id i (hinstances ▸ hi)⟩
  within := calm_within
  started d limits c id := by
    have hsettle : ∀ c, Steady (EngineState.WellKept reading)
        (fun i => i.Held id ∧ i.Timed reading)
        (within (d.startAndSettle limits c (some id))) := by
      intro c v hv
      have halters : (d.startAndSettle limits c (some id)).Alters Environment.SameReading :=
        Definition.startAndSettle_alters (G := Environment.SameReading) (fun _ _ => rfl)
          (fun _ => rfl) (fun _ _ => rfl) ..
      refine (within_inStep halters hv).mono fun r u hr => ⟨hr.1, fun i hi => ?_⟩
      subst hi
      exact ⟨.started hr.2.canEnd, .started hr.1.clock hr.2⟩
    have hcontext : (contextOrNew c).Alters Environment.SameReading := by
      cases c with
      | none => exact fun _ => ⟨fun _ => rfl, trivial⟩
      | some c => trivial
    unfold Engine.within
    rw [lift_bind]
    exact Steady.bind (calm_within hcontext) fun c _ => hsettle c
  sent {id i} d limits event hi w hw := by
    have halters : (i.send d limits event).Alters Environment.SameReading :=
      Instance.send_alters (G := Environment.SameReading) (fun _ _ => rfl) (fun _ => rfl) ..
    refine (within_inStep halters hw).mono fun r v hr => ⟨hr.1, fun out hout => ?_⟩
    subst hout
    exact ⟨hi.1.operation (.send hr.2.canEnd), hi.2.sent hr.1.clock hr.2⟩
  recontext c hi := by
    obtain ⟨⟨hid, d, hd⟩, htimed⟩ := hi
    exact ⟨⟨hid, d, hd.recontext c⟩, htimed⟩

theorem stores_within {α : Type} (id : String) (t : Activity Realm.flow α) :
    Calm (EngineState.Stores id) (within t) :=
  (Steady.lift Empty.elim (fun _ _ hs => ⟨hs.snapshot, hs.definition⟩) t).mono fun _ _ => trivial

/-- **What is stored stays stored.** -/
theorem stores_custody (id : String) : Custody (EngineState.Stores id) fun _ _ => True where
  held _ _ := trivial
  put hw _ := hw.setInstance _
  define id' d hw := by
    refine ⟨hw.snapshot, ?_⟩
    obtain ⟨d', hd'⟩ := hw.definition
    dsimp only
    rw [Dict.get?_insert]
    split
    · exact ⟨d, rfl⟩
    · exact ⟨d', hd'⟩
  aside hw hinstances hdefinitions _ :=
    ⟨hinstances ▸ hw.snapshot, hdefinitions ▸ hw.definition⟩
  within {_ t} _ := (stores_within id t).mono fun _ _ => trivial
  started _ _ _ _ := (stores_within id _).mono fun _ _ => trivial
  sent _ _ _ _ := (stores_within id _).mono fun _ _ => trivial
  recontext _ _ := trivial

/-- What others leave: an engine that is well kept if it was so before, and all that was stored. -/
structure Onward (reading : Nat → Instant) (w v : EngineState) : Prop where
  kept : w.WellKept reading → v.WellKept reading
  stores : ∀ id, w.Stores id → v.Stores id

theorem Onward.refl (reading : Nat → Instant) (w : EngineState) : Onward reading w w :=
  ⟨fun h => h, fun _ h => h⟩

theorem Onward.trans {w v u : EngineState} (h : Onward reading w v) (h' : Onward reading v u) :
    Onward reading w u :=
  ⟨fun hw => h'.kept (h.kept hw), fun id hw => h'.stores id (h.stores id hw)⟩

end Engine

end Workflow
