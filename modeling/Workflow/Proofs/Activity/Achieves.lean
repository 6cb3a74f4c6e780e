import Workflow.Proofs.Activity.Alone

/-!
# What work achieves

`Activity.Achieves` says that a run alone gives an answer, and what then holds of the answer and the
world. This is stronger than `Activity.Gives`, where the run may also fail.

`Activity.Leaves` says what holds of the world that a run leaves, whether it gives an answer or
fails.

The rules follow the ways in which activities are put together.
-/

namespace Workflow.Activity

variable {R S : Realm} {α β ε : Type} {P : R.World → Prop} {M : α → R.World → Prop}
  {Q : β → R.World → Prop}

/-- From a world with `P` the run gives an answer that has `Q` in the world it leaves. -/
def Achieves (P : R.World → Prop) (Q : α → R.World → Prop) (t : Activity R α) : Prop :=
  ∀ w, P w → ∃ a, (t.run w).answer = .ok a ∧ Q a (t.run w).world

theorem Achieves.done {a : α} (h : ∀ w, P w → M a w) : Achieves P M (.done a) :=
  fun w hw => ⟨a, rfl, h w hw⟩

theorem Achieves.report {r : R.Report} {t : Activity R α} (h : Achieves P M t) :
    Achieves P M (.report r t) :=
  h

theorem Achieves.tell {r : R.Report} : Achieves P (fun _ => P) (Activity.tell r) :=
  fun _ hw => ⟨(), rfl, hw⟩

theorem Achieves.mono {P' : R.World → Prop} {M' : α → R.World → Prop} {t : Activity R α}
    (h : Achieves P M t) (hP : ∀ w, P' w → P w) (hM : ∀ a w, M a w → M' a w) :
    Achieves P' M' t := by
  intro w hw
  obtain ⟨a, ha, hm⟩ := h w (hP w hw)
  exact ⟨a, ha, hM a _ hm⟩

/-- What the first part achieves, the second starts from. -/
theorem Achieves.bind {t : Activity R α} {g : α → Activity R β} (ht : Achieves P M t)
    (hg : ∀ a, Achieves (M a) Q (g a)) : Achieves P Q (t.bind g) := by
  intro w hw
  obtain ⟨a, ha, hm⟩ := ht w hw
  obtain ⟨b, hb, hq⟩ := hg a _ hm
  rw [run_bind_of_ok ha]
  exact ⟨b, hb, hq⟩

/-- Work that does not fail is not changed by being caught. -/
theorem Achieves.caught {t : Activity R α} (h : Achieves P M t) :
    Achieves P (fun r w => ∃ a, r = .ok a ∧ M a w) t.caught := by
  intro w hw
  obtain ⟨a, ha, hm⟩ := h w hw
  rw [run_caught, ha]
  exact ⟨.ok a, rfl, a, rfl, hm⟩

/-- A failure from which nothing escapes is an answer as well. -/
theorem Achieves.caught_eq {t : Activity R α} {r : Except Failure α}
    (hr : ∀ f, r = .error f → f.escape = none)
    (h : ∀ w, P w → (t.run w).answer = r ∧ P (t.run w).world) :
    Achieves P (fun r' w => r' = r ∧ P w) t.caught := by
  intro w hw
  obtain ⟨hanswer, hworld⟩ := h w hw
  rw [run_caught, hanswer]
  cases r with
  | ok a => exact ⟨.ok a, rfl, rfl, hworld⟩
  | error f =>
    refine ⟨.error f, ?_, rfl, hworld⟩
    dsimp only
    rw [hr f rfl]

/-- What comes after parts that answer without an error. -/
theorem Achieves.whenOk {t : Activity R (Except ε α)} {g : α → Activity R (Except ε β)}
    {Q : Except ε β → R.World → Prop}
    (ht : Achieves P (fun r w => ∃ a, r = .ok a ∧ M a w) t) (hg : ∀ a, Achieves (M a) Q (g a)) :
    Achieves P Q (t.whenOk g) := by
  refine ht.bind fun r => ?_
  rintro w ⟨a, rfl, hm⟩
  exact hg a w hm

/-! ## Whatever the answer -/

/-- From a world with `P` the run leaves one with `P'`. -/
def Leaves (P P' : R.World → Prop) (t : Activity R α) : Prop := ∀ w, P w → P' (t.run w).world

section Leaves

variable {P' : R.World → Prop} {t : Activity R α} {g : α → Activity R β}

theorem Achieves.leaves (h : Achieves P M t) (hM : ∀ a w, M a w → P' w) : Leaves P P' t := by
  intro w hw
  obtain ⟨a, -, hm⟩ := h w hw
  exact hM a _ hm

/-- What the first part leaves, the second keeps. -/
theorem Leaves.bind_keeps (ht : Leaves P P' t) (hg : ∀ a, Keeps P' (g a)) :
    Leaves P P' (t.bind g) := by
  intro w hw
  cases ha : (t.run w).answer with
  | error f =>
    rw [run_bind_of_error ha]
    exact ht w hw
  | ok a =>
    rw [run_bind_of_ok ha]
    exact hg a _ (ht w hw)

/-- After an answer of the first part the second goes on, and after a failure nothing more is
done. -/
theorem Leaves.bind (ht : Leaves P P' t) (hgives : Gives P M t) (hg : ∀ a, Leaves (M a) P' (g a)) :
    Leaves P P' (t.bind g) := by
  intro w hw
  cases ha : (t.run w).answer with
  | error f =>
    rw [run_bind_of_error ha]
    exact ht w hw
  | ok a =>
    rw [run_bind_of_ok ha]
    exact hg a _ (hgives w hw a ha)

end Leaves

end Workflow.Activity
