import Workflow.Proofs.Activity.Alone

/-!
# Runs side by side

Two activities are tied if their runs stay together: from related worlds both give related answers,
or both the same failure, and leave related worlds (`Activity.Tied`). What they report is not
compared.

Each way of putting activities together has its rule here, so two runs of an operation are tied as
soon as the hooks in it are.
-/

namespace Workflow

/-- Two results are both answers, which are related, or both errors, which are related. -/
inductive Agree {α β ε φ : Type} (E : ε → φ → Prop) (A : α → β → Prop) :
    Except ε α → Except φ β → Prop
  | ok {a : α} {b : β} : A a b → Agree E A (.ok a) (.ok b)
  | error {e : ε} {f : φ} : E e f → Agree E A (.error e) (.error f)

theorem Agree.mono {α β ε φ : Type} {E : ε → φ → Prop} {A B : α → β → Prop} {r : Except ε α}
    {s : Except φ β} (h : Agree E A r s) (hAB : ∀ a b, A a b → B a b) : Agree E B r s := by
  cases h with
  | ok hab => exact .ok (hAB _ _ hab)
  | error he => exact .error he

theorem Agree.of_ok {α β ε φ : Type} {E : ε → φ → Prop} {A : α → β → Prop} {a : α}
    {s : Except φ β} (h : Agree E A (.ok a) s) : ∃ b, s = .ok b ∧ A a b := by
  cases h with
  | ok hab => exact ⟨_, rfl, hab⟩

theorem Agree.of_error {α β ε φ : Type} {E : ε → φ → Prop} {A : α → β → Prop} {e : ε}
    {s : Except φ β} (h : Agree E A (.error e) s) : ∃ f, s = .error f ∧ E e f := by
  cases h with
  | error he => exact ⟨_, rfl, he⟩

namespace Activity

variable {R : Realm} {W : R.World → R.World → Prop} {α β γ δ ε φ : Type} {A B : α → β → Prop}
  {C : γ → δ → Prop} {E : ε → φ → Prop}

/-- Runs from related worlds end alike. -/
def Tied (W : R.World → R.World → Prop) (A : α → β → Prop) (t : Activity R α)
    (u : Activity R β) : Prop :=
  ∀ w v, W w v → Agree Eq A (t.run w).answer (u.run v).answer ∧ W (t.run w).world (u.run v).world

theorem Tied.done {a : α} {b : β} (h : A a b) : Tied W A (.done a : Activity R α) (.done b) :=
  fun _ _ hw => ⟨.ok h, hw⟩

theorem Tied.fail (e : Failure) : Tied W A (.fail e : Activity R α) (.fail e) :=
  fun _ _ hw => ⟨.error rfl, hw⟩

theorem Tied.mono {t : Activity R α} {u : Activity R β} (h : Tied W A t u)
    (hAB : ∀ a b, A a b → B a b) : Tied W B t u := by
  intro w v hw
  obtain ⟨hanswer, hworld⟩ := h w v hw
  exact ⟨hanswer.mono hAB, hworld⟩

/-- **Tied parts make tied sequences.** -/
theorem Tied.bind {t : Activity R α} {u : Activity R β} {g : α → Activity R γ}
    {h : β → Activity R δ} (ht : Tied W A t u) (hg : ∀ a b, A a b → Tied W C (g a) (h b)) :
    Tied W C (t.bind g) (u.bind h) := by
  intro w v hw
  obtain ⟨hanswer, hworld⟩ := ht w v hw
  generalize hr : (t.run w).answer = r at hanswer
  generalize hs : (u.run v).answer = s at hanswer
  cases hanswer with
  | ok hab =>
    rw [run_bind_of_ok hr, run_bind_of_ok hs]
    exact hg _ _ hab _ _ hworld
  | error he =>
    rw [run_bind_of_error hr, run_bind_of_error hs]
    exact ⟨.error he, hworld⟩

theorem Tied.attempt {t : Activity R α} {u : Activity R β} (h : Tied W A t u) :
    Tied W (Agree Eq A) t.attempt u.attempt := by
  intro w v hw
  rw [run_attempt, run_attempt]
  obtain ⟨hanswer, hworld⟩ := h w v hw
  exact ⟨.ok hanswer, hworld⟩

theorem Tied.caught {t : Activity R α} {u : Activity R β} (h : Tied W A t u) :
    Tied W (Agree Eq A) t.caught u.caught := by
  refine h.attempt.bind fun r s hrs => ?_
  cases hrs with
  | ok hab => exact .done (.ok hab)
  | @error e f he =>
    subst he
    dsimp only
    split
    · exact .done (.error rfl)
    · exact .fail _

theorem Tied.whenOk {t : Activity R (Except ε α)} {u : Activity R (Except φ β)}
    {g : α → Activity R (Except ε γ)} {h : β → Activity R (Except φ δ)}
    (ht : Tied W (Agree E A) t u) (hg : ∀ a b, A a b → Tied W (Agree E C) (g a) (h b)) :
    Tied W (Agree E C) (t.whenOk g) (u.whenOk h) := by
  refine ht.bind fun r s hrs => ?_
  cases hrs with
  | ok hab => exact hg _ _ hab
  | error he => exact .done (.error he)

end Activity

end Workflow
