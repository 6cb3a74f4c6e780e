import Workflow.Proofs.Activity.Alone

/-!
# Shapes of activities

Two shapes that a part of a call can have, among the worlds of an invariant `I`.

**Within** (`Activity.Within`). The part touches no lock, and what it changes keeps `I`.

**Endings** (`Activity.EndsIn`). The part changes nothing at all, and ends in one and the same way,
whatever it sees.

An activity of a smaller realm without locks is within an invariant that does not depend on that
realm (`Within.lift`).
-/

namespace Workflow.Activity

variable {R S : Realm} {α β ε : Type} {I : R.World → Prop}

/-- Work without locks whose changes keep `I`. -/
def Within (I : R.World → Prop) : Activity R α → Prop
  | .done _ | .fail _ => True
  | .look k => ∀ w, I w → (k w).Within I
  | .update f next => (∀ w, I w → I (f w)) ∧ next.Within I
  | .report _ next => next.Within I
  | .pause k => (k .resume).Within I
  | .acquire _ _ | .release _ _ => False

/-- Work that only looks, reports and pauses, and ends with `r`. -/
def EndsIn (I : R.World → Prop) (r : Except Failure α) : Activity R α → Prop
  | .done a => r = .ok a
  | .fail e => r = .error e
  | .look k => ∀ w, I w → (k w).EndsIn I r
  | .report _ next => next.EndsIn I r
  | .pause k => (k .resume).EndsIn I r
  | .update _ _ | .acquire _ _ | .release _ _ => False

/-! ## Work that keeps an invariant -/

theorem Within.bind {t : Activity R α} {g : α → Activity R β} (ht : t.Within I)
    (hg : ∀ a, (g a).Within I) : (t.bind g).Within I := by
  induction t with
  | done a => exact hg a
  | fail e => trivial
  | look k ih => exact fun w hw => ih w (ht w hw)
  | update f next ih => exact ⟨ht.1, ih ht.2⟩
  | report r next ih => exact ih ht
  | pause k ih => exact ih .resume ht
  | acquire key next ih => exact ht
  | release key next ih => exact ht

/-- Work of a realm without locks, where `I` is about the rest of the world. -/
theorem Within.lift {e : Realm.Embedding S R} (hkey : S.Key → False)
    (hI : ∀ s w, I w → I (e.put s w)) (t : Activity S α) : (t.lift e).Within I := by
  induction t with
  | done a => trivial
  | fail f => trivial
  | look k ih => exact fun w _ => ih (e.get w)
  | update f next ih => exact ⟨fun w hw => hI _ w hw, ih⟩
  | report r next ih => exact ih
  | pause k ih => exact ih .resume
  | acquire key next ih => exact (hkey key).elim
  | release key next ih => exact (hkey key).elim

/-! ## Endings -/

theorem EndsIn.bind_ok {t : Activity R α} {g : α → Activity R β} {a : α} {r : Except Failure β}
    (ht : t.EndsIn I (.ok a)) (hg : (g a).EndsIn I r) : (t.bind g).EndsIn I r := by
  induction t with
  | done a' =>
    cases ht
    exact hg
  | fail e => cases ht
  | look k ih => exact fun w hw => ih w (ht w hw)
  | report s next ih => exact ih ht
  | pause k ih => exact ih .resume ht
  | update f next ih => exact ht
  | acquire key next ih => exact ht
  | release key next ih => exact ht

theorem EndsIn.bind_error {t : Activity R α} {g : α → Activity R β} {e : Failure}
    (ht : t.EndsIn I (.error e)) : (t.bind g).EndsIn I (.error e) := by
  induction t with
  | done a => cases ht
  | fail e' =>
    cases ht
    rfl
  | look k ih => exact fun w hw => ih w (ht w hw)
  | report s next ih => exact ih ht
  | pause k ih => exact ih .resume ht
  | update f next ih => exact ht
  | acquire key next ih => exact ht
  | release key next ih => exact ht

theorem EndsIn.attempt {t : Activity R α} {r : Except Failure α} (ht : t.EndsIn I r) :
    t.attempt.EndsIn I (.ok r) := by
  induction t with
  | done a =>
    cases ht
    rfl
  | fail e =>
    cases ht
    rfl
  | look k ih => exact fun w hw => ih w (ht w hw)
  | report s next ih => exact ih ht
  | pause k ih => exact ih .resume ht
  | update f next ih => exact ht
  | acquire key next ih => exact ht
  | release key next ih => exact ht

theorem EndsIn.contained {t : Activity R α} {r : Except Failure α} (ht : t.EndsIn I r) :
    t.contained.EndsIn I (match r with
      | .ok a => .ok (.ok a)
      | .error e => if e.isContained then .ok (.error e) else .error e) := by
  refine ht.attempt.bind_ok ?_
  cases r with
  | ok a => rfl
  | error e =>
    dsimp only
    split <;> rfl

/-- Run alone, such work gives its ending and leaves the world as it is. -/
theorem EndsIn.run {t : Activity R α} {r : Except Failure α} (ht : t.EndsIn I r) {w : R.World}
    (hw : I w) : (t.run w).answer = r ∧ (t.run w).world = w := by
  induction t with
  | done a => exact ⟨ht.symm, rfl⟩
  | fail e => exact ⟨ht.symm, rfl⟩
  | look k ih => exact ih w (ht w hw)
  | report s next ih => exact ih ht
  | pause k ih => exact ih .resume ht
  | update f next ih => exact ht.elim
  | acquire key next ih => exact ht.elim
  | release key next ih => exact ht.elim

/-- Work that only looks, reports and pauses, and always ends in the same way. -/
def Quiet (I : R.World → Prop) (t : Activity R α) : Prop := ∃ r, t.EndsIn I r

theorem Quiet.done (a : α) : Quiet I (.done a : Activity R α) := ⟨.ok a, rfl⟩

theorem Quiet.fail (e : Failure) : Quiet I (.fail e : Activity R α) := ⟨.error e, rfl⟩

theorem Quiet.report (r : R.Report) {t : Activity R α} (ht : Quiet I t) :
    Quiet I (.report r t) := ht

theorem Quiet.bind {t : Activity R α} {g : α → Activity R β} (ht : Quiet I t)
    (hg : ∀ a, Quiet I (g a)) : Quiet I (t.bind g) := by
  obtain ⟨r, hr⟩ := ht
  cases r with
  | ok a =>
    obtain ⟨s, hs⟩ := hg a
    exact ⟨s, hr.bind_ok hs⟩
  | error e => exact ⟨.error e, hr.bind_error⟩

theorem Quiet.contained {t : Activity R α} (ht : Quiet I t) : Quiet I t.contained := by
  obtain ⟨r, hr⟩ := ht
  exact ⟨_, hr.contained⟩

theorem Quiet.ofExcept (r : Except Failure α) : Quiet I (ofExcept r : Activity R α) := by
  cases r with
  | ok a => exact .done a
  | error e => exact .fail e

end Workflow.Activity
