import Workflow.Proofs.Activity.InStep
import Workflow.Proofs.Activity.Rules

/-!
# Endings amid others

An activity has the world to itself except where it pauses or waits for a lock: there others may
change it. `Activity.EndsAmid` tells with which answer or failure it ends, and in which world, if
all that others do lies within a relation.

This is between a run alone, where nobody else changes anything (`endsAmid_run`), and
`Activity.CanEnd`, which knows nothing of the worlds (`EndsAmid.canEnd`). What an activity wrote it
finds again, unless it has paused in between.

**Parts** (`endsAmid_bind`). A sequence ends as its last part does, in a world that the part before
has left. What all single changes are within the whole is within as well (`Alters.endsAmid`).

**Invariants** (`InStep.endsAmid`). What an activity keeps in step with itself, it keeps amid others
that keep it too.
-/

namespace Workflow.Activity

variable {R : Realm} {α β ε : Type} {others : R.World → R.World → Prop}

/-- From a world on, the activity can end with this answer or failure in another world. -/
def EndsAmid (others : R.World → R.World → Prop) :
    Activity R α → R.World → Except Failure α → R.World → Prop
  | .done a, w, r, v => r = .ok a ∧ v = w
  | .fail e, w, r, v => r = .error e ∧ v = w
  | .look k, w, r, v => (k w).EndsAmid others w r v
  | .update f next, w, r, v => next.EndsAmid others (f w) r v
  | .report _ next, w, r, v => next.EndsAmid others w r v
  | .pause k, w, r, v => ∃ s u, others w u ∧ (k s).EndsAmid others u r v
  | .acquire _ next, w, r, v => ∃ u, others w u ∧ next.EndsAmid others u r v
  | .release _ next, w, r, v => next.EndsAmid others w r v

/-- **A run alone is one of the endings.** -/
theorem endsAmid_run (hrefl : ∀ w, others w w) (t : Activity R α) (w : R.World) :
    t.EndsAmid others w (t.run w).answer (t.run w).world := by
  induction t generalizing w with
  | done a => exact ⟨rfl, rfl⟩
  | fail e => exact ⟨rfl, rfl⟩
  | look k ih => exact ih w w
  | update f next ih => exact ih (f w)
  | report r next ih => exact ih w
  | pause k ih => exact ⟨.resume, w, hrefl w, ih .resume w⟩
  | acquire key next ih => exact ⟨w, hrefl w, ih w⟩
  | release key next ih => exact ih w

theorem EndsAmid.canEnd {t : Activity R α} {w v : R.World} {r : Except Failure α}
    (h : t.EndsAmid others w r v) : t.CanEnd r := by
  induction t generalizing w with
  | done a => exact h.1
  | fail e => exact h.1
  | look k ih => exact ⟨w, ih w h⟩
  | update f next ih => exact ih h
  | report r next ih => exact ih h
  | pause k ih =>
    obtain ⟨s, u, -, h⟩ := h
    exact ⟨s, ih s h⟩
  | acquire key next ih =>
    obtain ⟨u, -, h⟩ := h
    exact ih h
  | release key next ih => exact ih h

/-- What every single change and everything that others do lies within, the whole lies within. -/
theorem Alters.endsAmid {G : R.World → R.World → Prop} {t : Activity R α} (ht : t.Alters G)
    (hG : ∀ w v, G w v → others w v) (hrefl : ∀ w, others w w)
    (htrans : ∀ {w v u}, others w v → others v u → others w u) {w v : R.World}
    {r : Except Failure α} (h : t.EndsAmid others w r v) : others w v := by
  induction t generalizing w with
  | done a => exact h.2 ▸ hrefl w
  | fail e => exact h.2 ▸ hrefl w
  | look k ih => exact ih w (ht w) h
  | update f next ih => exact htrans (hG w (f w) (ht.1 w)) (ih ht.2 h)
  | report r next ih => exact ih ht h
  | pause k ih =>
    obtain ⟨s, u, hu, h⟩ := h
    exact htrans hu (ih s (ht s) h)
  | acquire key next ih => exact ht.elim
  | release key next ih => exact ht.elim

/-! ## Sequences -/

variable {w v : R.World}

theorem endsAmid_bind {t : Activity R α} {g : α → Activity R β} {r : Except Failure β} :
    (t.bind g).EndsAmid others w r v ↔
      (∃ a u, t.EndsAmid others w (.ok a) u ∧ (g a).EndsAmid others u r v) ∨
        ∃ e, t.EndsAmid others w (.error e) v ∧ r = .error e := by
  induction t generalizing w with
  | done a =>
    constructor
    · exact fun h => .inl ⟨a, w, ⟨rfl, rfl⟩, h⟩
    · rintro (⟨a', u, ⟨ha, rfl⟩, h⟩ | ⟨e, ⟨he, -⟩, -⟩)
      · cases ha
        exact h
      · cases he
  | fail e =>
    constructor
    · exact fun h => .inr ⟨e, ⟨rfl, h.2⟩, h.1⟩
    · rintro (⟨a, u, ⟨ha, -⟩, -⟩ | ⟨e', ⟨he, hv⟩, hr⟩)
      · cases ha
      · cases he
        exact ⟨hr, hv⟩
  | look k ih => exact ih w
  | pause k ih =>
    simp only [bind, EndsAmid, ih]
    constructor
    · rintro ⟨s, x, hx, ⟨a, u, h, hg⟩ | ⟨e, h, hr⟩⟩
      · exact .inl ⟨a, u, ⟨s, x, hx, h⟩, hg⟩
      · exact .inr ⟨e, ⟨s, x, hx, h⟩, hr⟩
    · rintro (⟨a, u, ⟨s, x, hx, h⟩, hg⟩ | ⟨e, ⟨s, x, hx, h⟩, hr⟩)
      · exact ⟨s, x, hx, .inl ⟨a, u, h, hg⟩⟩
      · exact ⟨s, x, hx, .inr ⟨e, h, hr⟩⟩
  | acquire key next ih =>
    simp only [bind, EndsAmid, ih]
    constructor
    · rintro ⟨x, hx, ⟨a, u, h, hg⟩ | ⟨e, h, hr⟩⟩
      · exact .inl ⟨a, u, ⟨x, hx, h⟩, hg⟩
      · exact .inr ⟨e, ⟨x, hx, h⟩, hr⟩
    · rintro (⟨a, u, ⟨x, hx, h⟩, hg⟩ | ⟨e, ⟨x, hx, h⟩, hr⟩)
      · exact ⟨x, hx, .inl ⟨a, u, h, hg⟩⟩
      · exact ⟨x, hx, .inr ⟨e, h, hr⟩⟩
  | update f next ih => exact ih
  | report r next ih => exact ih
  | release key next ih => exact ih

/-- A sequence that ends with an answer passes through one of its first part. -/
theorem EndsAmid.bind_ok {t : Activity R α} {g : α → Activity R β} {b : β}
    (h : (t.bind g).EndsAmid others w (.ok b) v) :
    ∃ a u, t.EndsAmid others w (.ok a) u ∧ (g a).EndsAmid others u (.ok b) v := by
  rcases endsAmid_bind.1 h with h | ⟨e, -, hr⟩
  · exact h
  · cases hr

/-- A sequence of parts that may give errors ends with the error of its first part, or goes on. -/
theorem EndsAmid.whenOk {t : Activity R (Except ε α)} {g : α → Activity R (Except ε β)}
    {r : Except ε β} (h : (t.whenOk g).EndsAmid others w (.ok r) v) :
    (∃ e, t.EndsAmid others w (.ok (.error e)) v ∧ r = .error e) ∨
      ∃ a u, t.EndsAmid others w (.ok (.ok a)) u ∧ (g a).EndsAmid others u (.ok r) v := by
  obtain ⟨x, u, hx, h⟩ := h.bind_ok
  cases x with
  | ok a => exact .inr ⟨a, u, hx, h⟩
  | error e =>
    obtain ⟨hr, rfl⟩ := h
    cases hr
    exact .inl ⟨e, hx, rfl⟩

/-- An attempt ends with the ending of the work as its answer. -/
theorem endsAmid_attempt {t : Activity R α} {r : Except Failure (Except Failure α)} :
    t.attempt.EndsAmid others w r v ↔ ∃ r', t.EndsAmid others w r' v ∧ r = .ok r' := by
  induction t generalizing w with
  | done a =>
    constructor
    · exact fun h => ⟨_, ⟨rfl, h.2⟩, h.1⟩
    · rintro ⟨r', ⟨rfl, hv⟩, hr⟩
      exact ⟨hr, hv⟩
  | fail e =>
    constructor
    · exact fun h => ⟨_, ⟨rfl, h.2⟩, h.1⟩
    · rintro ⟨r', ⟨rfl, hv⟩, hr⟩
      exact ⟨hr, hv⟩
  | look k ih => exact ih w
  | update f next ih => exact ih
  | report r next ih => exact ih
  | pause k ih =>
    simp only [attempt, EndsAmid, ih]
    constructor
    · rintro ⟨s, u, hu, r', h, hr⟩
      exact ⟨r', ⟨s, u, hu, h⟩, hr⟩
    · rintro ⟨r', ⟨s, u, hu, h⟩, hr⟩
      exact ⟨s, u, hu, r', h, hr⟩
  | acquire key next ih =>
    simp only [attempt, EndsAmid, ih]
    constructor
    · rintro ⟨u, hu, r', h, hr⟩
      exact ⟨r', ⟨u, hu, h⟩, hr⟩
    · rintro ⟨r', ⟨u, hu, h⟩, hr⟩
      exact ⟨u, hu, r', h, hr⟩
  | release key next ih => exact ih

theorem endsAmid_ofExcept {x r : Except Failure α} :
    (ofExcept x : Activity R α).EndsAmid others w r v ↔ r = x ∧ v = w := by
  cases x <;> exact Iff.rfl

/-- What follows an attempt is given the ending of the work. -/
theorem EndsAmid.attempt {t : Activity R α} {g : Except Failure α → Activity R β}
    {r : Except Failure β} (h : (t.attempt.bind g).EndsAmid others w r v) :
    ∃ x u, t.EndsAmid others w x u ∧ (g x).EndsAmid others u r v := by
  rcases endsAmid_bind.1 h with ⟨y, u, hy, h⟩ | ⟨f, hf, -⟩
  · obtain ⟨x, hx, heq⟩ := endsAmid_attempt.1 hy
    cases heq
    exact ⟨y, u, hx, h⟩
  · obtain ⟨_, _, heq⟩ := endsAmid_attempt.1 hf
    cases heq

/-- Work under a lock begins in the world in which the lock is got. -/
theorem EndsAmid.locked {key : R.Key} {t : Activity R α} {r : Except Failure α}
    (h : (locked key t).EndsAmid others w r v) :
    ∃ u, others w u ∧ t.EndsAmid others u r v := by
  obtain ⟨u, hu, h⟩ := h
  obtain ⟨x, z, hx, h⟩ := EndsAmid.attempt h
  obtain ⟨rfl, rfl⟩ := endsAmid_ofExcept.1 h
  exact ⟨u, hu, hx⟩

/-! ## Invariants -/

/-- **What activities in step keep**, one of them keeps amid others that keep it as well. -/
theorem InStep.endsAmid {I : R.World → Prop} {P : Except Failure α → R.World → Prop}
    {t t' : Activity R α} {r : Except Failure α} (ht : InStep I P w t t')
    (hothers : ∀ w v, others w v → I w → I v) (h : t.EndsAmid others w r v) : P r v := by
  induction ht with
  | done hP =>
    obtain ⟨rfl, rfl⟩ := h
    exact hP
  | fail hP =>
    obtain ⟨rfl, rfl⟩ := h
    exact hP
  | lookLeft _ ih => exact ih h
  | lookRight _ ih => exact ih h
  | update _ ih => exact ih h
  | report _ ih => exact ih h
  | pause hw _ ih =>
    obtain ⟨s, u, hu, h⟩ := h
    exact ih u (hothers _ u hu hw) s h
  | acquire hw _ ih =>
    obtain ⟨u, hu, h⟩ := h
    exact ih u (hothers _ u hu hw) h
  | release _ ih => exact ih h

theorem Steady.endsAmid {I : R.World → Prop} {A : α → Prop} {t : Activity R α}
    {r : Except Failure α} (ht : Steady I A t) (hothers : ∀ w v, others w v → I w → I v) (hw : I w)
    (h : t.EndsAmid others w r v) : I v ∧ ∀ a, r = .ok a → A a := by
  have hend := (ht w hw).endsAmid hothers h
  exact ⟨hend.world, hend.answer⟩

/-- Nobody else is about in a run alone. -/
theorem Steady.run {I : R.World → Prop} {A : α → Prop} {t : Activity R α} (ht : Steady I A t)
    (hw : I w) : I (t.run w).world ∧ ∀ a, (t.run w).answer = .ok a → A a := by
  have hrun : t.EndsAmid (fun w v => I w → I v) w (t.run w).answer (t.run w).world :=
    endsAmid_run (fun _ h => h) t w
  exact ht.endsAmid (fun _ _ h => h) hw hrun

/-- Work of a realm without locks, where others keep the invariant `I`, ends as it can amid what `I`
says of its part of the world. -/
theorem InStep.lift_amid {S : Realm} {e : Realm.Embedding S R} {I : R.World → Prop}
    {G among : S.World → S.World → Prop}
    (hget : ∀ s w, e.get (e.put s w) = s) (hI : ∀ s w, G (e.get w) s → I w → I (e.put s w))
    (hamong : ∀ w v, I w → I v → among (e.get w) (e.get v)) {t : Activity S α} (ht : t.Alters G)
    (hw : I w) :
    InStep I (fun r v => I v ∧ t.EndsAmid among (e.get w) r (e.get v)) w (t.lift e) (t.lift e) := by
  induction t generalizing w with
  | done a => exact .done ⟨hw, rfl, rfl⟩
  | fail f => exact .fail ⟨hw, rfl, rfl⟩
  | look k ih => exact .look (ih (e.get w) (ht _) hw)
  | update f next ih =>
    have hnext := ih ht.2 (hI _ w (ht.1 _) hw)
    rw [hget] at hnext
    exact .update hnext
  | report r next ih => exact .report (ih ht hw)
  | pause k ih =>
    refine .pause hw fun v hv s => (ih s (ht s) hv).mono fun r u hr => ?_
    exact ⟨hr.1, s, e.get v, hamong w v hw hv, hr.2⟩
  | acquire key next ih => exact ht.elim
  | release key next ih => exact ht.elim

end Workflow.Activity
