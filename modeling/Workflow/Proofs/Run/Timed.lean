import Workflow.Proofs.Run.ExactLog

/-!
# Moments that a clock has given

All that is needed to show the history of an instance is that its visits began at readings of the
clock, whichever they were.

**Timed** (`Instance.Timed`). Each visit began at a reading. Others may read the clock as they like,
as long as it goes on giving the same readings; so this lasts where the order of the readings is of
no interest.

Main result: `auditLog_readable`. A history in order at such readings has an audit log.
-/

namespace Workflow

open Activity

namespace Instance

/-- Each visit began at a reading of the clock. -/
def Timed (reading : Nat → Instant) (i : Instance) : Prop :=
  ∃ numbers : List Nat, i.history.map (·.enteredAt) = numbers.map fun n => (reading n).text

variable {reading : Nat → Instant} {i : Instance}

/-- **What is done to an instance keeps it timed**, as long as the clock gives the same readings. -/
theorem Timed.upkeep (reading : Nat → Instant) :
    Upkeep Environment.SameReading fun i e => e.clock.reading = reading → i.Timed reading where
  refl _ := rfl
  trans h h' := Eq.trans h' h
  arena _ _ _ := rfl
  later hl h hreading := h (hl ▸ hreading)
  fresh d c id e hreading := ⟨[e.clock.taken], hreading ▸ rfl⟩
  moved {i e} t target event h hreading := by
    obtain ⟨numbers, hnumbers⟩ := h hreading
    have hreading : e.clock.reading = reading := hreading
    refine ⟨numbers ++ [e.clock.taken], ?_⟩
    rw [Numbered.moved_entered, hnumbers, List.map_append, ← hreading]
    rfl
  failed _ h := h

variable {d : Definition} {limits : Limits} {e e' : Environment}

theorem Timed.sent {event : String} {out : Dispatch} (h : i.Timed reading)
    (he' : e'.clock.reading = reading)
    (hsend : (i.send d limits event).EndsAmid Environment.SameReading e (.ok out) e') :
    out.reached.Timed reading :=
  (upkeep reading).send (fun _ => h) hsend he'

theorem Timed.started {c : Context} {id : Option String} (he' : e'.clock.reading = reading)
    (hstart : (d.startAndSettle limits c id).EndsAmid Environment.SameReading e (.ok i) e') :
    i.Timed reading :=
  (upkeep reading).startAndSettle hstart he'

end Instance

variable {d : Definition} {i : Instance} {reading : Nat → Instant}

/-- **The audit log of an instance can be read**, whichever definition it is read by. -/
theorem auditLog_readable (h : i.Chronicled d) (ht : i.Timed reading)
    (hreading : ∀ n, (reading n).Writable) (d' : Definition) : ∃ log, auditLog d' i = .ok log := by
  obtain ⟨last, hlast, hopen, -⟩ := h.last
  obtain ⟨numbers, hnumbers⟩ := ht
  have hentered : i.history.map (·.enteredAt) = (numbers.map reading).map Instant.text := by
    rw [hnumbers, List.map_map]
    rfl
  have hne : i.history ≠ [] := by
    intro hnil
    rw [hnil] at hlast
    cases hlast
  have hwritable : ∀ t ∈ numbers.map reading, t.Writable := by
    intro t ht
    obtain ⟨n, -, rfl⟩ := List.mem_map.1 ht
    exact hreading n
  have hends : ∀ v, i.history.getLast? = some v → v.leftAt = none := by
    intro v hv
    cases hlast.symm.trans hv
    exact hopen
  obtain ⟨log, hlog, -, -⟩ :=
    logFrom_exact (d := d') (i := i) hne hentered hwritable h.chained hends
  exact ⟨log, hlog⟩

end Workflow
