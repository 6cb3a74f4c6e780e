import Workflow.Proofs.Activity.Rules
import Workflow.Proofs.Activity.Tied

/-!
# Activities that mirror each other

Two activities mirror each other (`Activity.Mirrors`) if they go step by step alike: wherever their
worlds are related, both look, change their world, report, pause and end together, and the worlds
stay related. What they report is not compared.

Unlike runs that are tied, such activities need not run alone. One of them may let others in where
the other runs on, as long as its part of the world is left as it is; so this is a relation of the
activities themselves, and not of their runs.
-/

namespace Workflow.Activity

variable {R : Realm} {W : R.World → R.World → Prop} {α β γ δ ε φ : Type} {A : α → β → Prop}
  {C : γ → δ → Prop} {E : ε → φ → Prop}

/-- The activities go alike from related worlds, and give related answers or the same failure. -/
inductive Mirrors (W : R.World → R.World → Prop) (A : α → β → Prop) :
    Activity R α → Activity R β → Prop
  | done {a : α} {b : β} : A a b → Mirrors W A (.done a) (.done b)
  | fail (e : Failure) : Mirrors W A (.fail e) (.fail e)
  | look {k : R.World → Activity R α} {l : R.World → Activity R β} :
      (∀ w v, W w v → Mirrors W A (k w) (l v)) → Mirrors W A (.look k) (.look l)
  | update {f g : R.World → R.World} {t : Activity R α} {u : Activity R β} :
      (∀ w v, W w v → W (f w) (g v)) → Mirrors W A t u → Mirrors W A (.update f t) (.update g u)
  | report {r s : R.Report} {t : Activity R α} {u : Activity R β} :
      Mirrors W A t u → Mirrors W A (.report r t) (.report s u)
  | pause {k : Signal → Activity R α} {l : Signal → Activity R β} :
      (∀ s, Mirrors W A (k s) (l s)) → Mirrors W A (.pause k) (.pause l)

namespace Mirrors

variable {t : Activity R α} {u : Activity R β}

/-- **Parts that mirror each other make sequences that do.** -/
theorem bind {g : α → Activity R γ} {h : β → Activity R δ} (ht : Mirrors W A t u)
    (hg : ∀ a b, A a b → Mirrors W C (g a) (h b)) : Mirrors W C (t.bind g) (u.bind h) := by
  induction ht with
  | done ha => exact hg _ _ ha
  | fail e => exact .fail e
  | look _ ih => exact .look ih
  | update hW _ ih => exact .update hW ih
  | report _ ih => exact .report ih
  | pause _ ih => exact .pause ih

theorem attempt (ht : Mirrors W A t u) : Mirrors W (Agree Eq A) t.attempt u.attempt := by
  induction ht with
  | done ha => exact .done (.ok ha)
  | fail e => exact .done (.error rfl)
  | look _ ih => exact .look ih
  | update hW _ ih => exact .update hW ih
  | report _ ih => exact .report ih
  | pause _ ih => exact .pause ih

theorem caught (ht : Mirrors W A t u) : Mirrors W (Agree Eq A) t.caught u.caught := by
  refine ht.attempt.bind fun r s hrs => ?_
  cases hrs with
  | ok hab => exact .done (.ok hab)
  | @error e f he =>
    subst he
    dsimp only
    split
    · exact .done (.error rfl)
    · exact .fail _

theorem whenOk {t : Activity R (Except ε α)} {u : Activity R (Except φ β)}
    {g : α → Activity R (Except ε γ)} {h : β → Activity R (Except φ δ)}
    (ht : Mirrors W (Agree E A) t u) (hg : ∀ a b, A a b → Mirrors W (Agree E C) (g a) (h b)) :
    Mirrors W (Agree E C) (t.whenOk g) (u.whenOk h) := by
  refine ht.bind fun r s hrs => ?_
  cases hrs with
  | ok hab => exact hg _ _ hab
  | error he => exact .done (.error he)

theorem ofExcept (r : Except Failure α) : Mirrors W Eq (ofExcept r) (Activity.ofExcept r) := by
  cases r with
  | ok a => exact .done rfl
  | error e => exact .fail e

/-- Work of a smaller realm on two parts that are the same. -/
theorem lift {S : Realm} {e f : Realm.Embedding S R} (hkey : S.Key → False)
    (hget : ∀ w v, W w v → e.get w = f.get v)
    (hput : ∀ w v s, W w v → W (e.put s w) (f.put s v)) (t : Activity S α) :
    Mirrors W Eq (t.lift e) (t.lift f) := by
  induction t with
  | done a => exact .done rfl
  | fail e => exact .fail e
  | look k ih =>
    refine .look fun w v hw => ?_
    rw [hget w v hw]
    exact ih _
  | update g next ih =>
    refine .update (fun w v hw => ?_) ih
    rw [hget w v hw]
    exact hput w v _ hw
  | report r next ih => exact .report ih
  | pause k ih => exact .pause ih
  | acquire key next ih => exact (hkey key).elim
  | release key next ih => exact (hkey key).elim

end Mirrors

end Workflow.Activity
