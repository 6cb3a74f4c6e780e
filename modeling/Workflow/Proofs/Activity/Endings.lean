import Workflow.Activity.Basic

/-!
# How an activity can end

Between two pauses of an activity others may change the world. `Activity.CanEnd` collects all its
endings under this: whatever it finds each time it looks, and however each pause goes on.

**Runs** (`canEnd_run`). A run alone is one of the ways to end. So what holds of all endings
holds of every run, of hooks that answer one way today and another way tomorrow, and of every
interleaving with other activities.

**Parts** (`canEnd_bind`). The endings of a sequence are told by those of its parts.

**Failures** (`Activity.FailsAs`). What holds of all failures among the endings of the parts holds
of those of the whole.
-/

namespace Workflow.Activity

variable {R : Realm} {α β ε : Type}

/-- The activity can end with this answer or failure. -/
def CanEnd : Activity R α → Except Failure α → Prop
  | .done a, r => r = .ok a
  | .fail e, r => r = .error e
  | .look k, r => ∃ w, (k w).CanEnd r
  | .update _ next, r => next.CanEnd r
  | .report _ next, r => next.CanEnd r
  | .pause k, r => ∃ s, (k s).CanEnd r
  | .acquire _ next, r => next.CanEnd r
  | .release _ next, r => next.CanEnd r

/-- **A run alone is one of the endings.** -/
theorem canEnd_run (t : Activity R α) (w : R.World) : t.CanEnd (t.run w).answer := by
  induction t generalizing w with
  | done a => rfl
  | fail e => rfl
  | look k ih => exact ⟨w, ih w w⟩
  | update f next ih => exact ih (f w)
  | report r next ih => exact ih w
  | pause k ih => exact ⟨.resume, ih .resume w⟩
  | acquire key next ih => exact ih w
  | release key next ih => exact ih w

/-! ## Sequences -/

theorem canEnd_bind {t : Activity R α} {g : α → Activity R β} {r : Except Failure β} :
    (t.bind g).CanEnd r ↔
      (∃ a, t.CanEnd (.ok a) ∧ (g a).CanEnd r) ∨ ∃ e, t.CanEnd (.error e) ∧ r = .error e := by
  induction t with
  | done a => simp [bind, CanEnd]
  | fail e => simp [bind, CanEnd]
  | look k ih =>
    simp only [bind, CanEnd, ih]
    constructor
    · rintro ⟨w, ⟨a, h, hg⟩ | ⟨e, h, hr⟩⟩
      · exact .inl ⟨a, ⟨w, h⟩, hg⟩
      · exact .inr ⟨e, ⟨w, h⟩, hr⟩
    · rintro (⟨a, ⟨w, h⟩, hg⟩ | ⟨e, ⟨w, h⟩, hr⟩)
      · exact ⟨w, .inl ⟨a, h, hg⟩⟩
      · exact ⟨w, .inr ⟨e, h, hr⟩⟩
  | pause k ih =>
    simp only [bind, CanEnd, ih]
    constructor
    · rintro ⟨s, ⟨a, h, hg⟩ | ⟨e, h, hr⟩⟩
      · exact .inl ⟨a, ⟨s, h⟩, hg⟩
      · exact .inr ⟨e, ⟨s, h⟩, hr⟩
    · rintro (⟨a, ⟨s, h⟩, hg⟩ | ⟨e, ⟨s, h⟩, hr⟩)
      · exact ⟨s, .inl ⟨a, h, hg⟩⟩
      · exact ⟨s, .inr ⟨e, h, hr⟩⟩
  | update f next ih => exact ih
  | report r next ih => exact ih
  | acquire key next ih => exact ih
  | release key next ih => exact ih

/-- A sequence that ends with an answer passes through one of its first part. -/
theorem canEnd_bind_ok {t : Activity R α} {g : α → Activity R β} {b : β}
    (h : (t.bind g).CanEnd (.ok b)) : ∃ a, t.CanEnd (.ok a) ∧ (g a).CanEnd (.ok b) := by
  rcases canEnd_bind.1 h with h | ⟨e, -, hr⟩
  · exact h
  · cases hr

/-- What comes after a part matters for the answers of the part only. -/
theorem bind_congr_of_canEnd {t : Activity R α} {g h : α → Activity R β}
    (hgh : ∀ a, t.CanEnd (.ok a) → g a = h a) : t.bind g = t.bind h := by
  induction t with
  | done a => exact hgh a rfl
  | fail e => rfl
  | look k ih => exact congrArg look (funext fun w => ih w fun a ha => hgh a ⟨w, ha⟩)
  | update f next ih => exact congrArg (update f) (ih hgh)
  | report r next ih => exact congrArg (report r) (ih hgh)
  | pause k ih => exact congrArg pause (funext fun s => ih s fun a ha => hgh a ⟨s, ha⟩)
  | acquire key next ih => exact congrArg (acquire key) (ih hgh)
  | release key next ih => exact congrArg (release key) (ih hgh)

theorem canEnd_attempt {t : Activity R α} {r : Except Failure (Except Failure α)} :
    t.attempt.CanEnd r ↔ ∃ r', t.CanEnd r' ∧ r = .ok r' := by
  induction t with
  | done a => simp [attempt, CanEnd]
  | fail e => simp [attempt, CanEnd]
  | look k ih =>
    simp only [attempt, CanEnd, ih]
    constructor
    · rintro ⟨w, r', h, hr⟩
      exact ⟨r', ⟨w, h⟩, hr⟩
    · rintro ⟨r', ⟨w, h⟩, hr⟩
      exact ⟨w, r', h, hr⟩
  | pause k ih =>
    simp only [attempt, CanEnd, ih]
    constructor
    · rintro ⟨s, r', h, hr⟩
      exact ⟨r', ⟨s, h⟩, hr⟩
    · rintro ⟨r', ⟨s, h⟩, hr⟩
      exact ⟨s, r', h, hr⟩
  | update f next ih => exact ih
  | report r next ih => exact ih
  | acquire key next ih => exact ih
  | release key next ih => exact ih

/-- A failure that was caught is one of the work, and nothing escapes from it. -/
theorem canEnd_caught_error {t : Activity R α} {e : Failure}
    (h : t.caught.CanEnd (.ok (.error e))) : t.CanEnd (.error e) ∧ e.escape = none := by
  obtain ⟨r, hr, h⟩ := canEnd_bind_ok h
  obtain ⟨r', hr', heq⟩ := canEnd_attempt.1 hr
  cases heq
  cases r with
  | ok a => cases h
  | error e' =>
    dsimp only at h
    split at h
    next hescape =>
      cases h
      exact ⟨hr', hescape⟩
    next => cases h

/-- Caught work fails with what escapes from a failure of the work. -/
theorem canEnd_caught_fail {t : Activity R α} {g : Failure} (h : t.caught.CanEnd (.error g)) :
    ∃ f, t.CanEnd (.error f) ∧ f.escape = some g := by
  rcases canEnd_bind.1 h with ⟨r, hr, h⟩ | ⟨f', h, -⟩
  · obtain ⟨r', hr', heq⟩ := canEnd_attempt.1 hr
    cases heq
    cases r with
    | ok a => cases h
    | error f =>
      dsimp only at h
      split at h
      next => cases h
      next hescape =>
        cases h
        exact ⟨f, hr', hescape⟩
  · obtain ⟨r, -, h⟩ := canEnd_attempt.1 h
    cases h

/-- Contained work fails only in ways that are not contained. -/
theorem canEnd_contained_fail {t : Activity R α} {f : Failure} (h : t.contained.CanEnd (.error f)) :
    ¬ f.isContained := by
  rcases canEnd_bind.1 h with ⟨r, -, h⟩ | ⟨f', h, -⟩
  · cases r with
    | ok a => cases h
    | error f' =>
      dsimp only at h
      split at h
      · cases h
      next hf =>
        cases h
        exact hf
  · obtain ⟨r, -, h⟩ := canEnd_attempt.1 h
    cases h

/-- A good answer of a sequence of parts that may give errors comes from a good answer of the
first part. -/
theorem canEnd_whenOk_ok {t : Activity R (Except ε α)} {g : α → Activity R (Except ε β)} {b : β}
    (h : (t.whenOk g).CanEnd (.ok (.ok b))) :
    ∃ a, t.CanEnd (.ok (.ok a)) ∧ (g a).CanEnd (.ok (.ok b)) := by
  obtain ⟨x, hx, h⟩ := canEnd_bind_ok h
  cases x with
  | ok a => exact ⟨a, hx, h⟩
  | error e => cases h

/-- An error of a sequence is one of its first part, or one of what comes after. -/
theorem canEnd_whenOk_error {t : Activity R (Except ε α)} {g : α → Activity R (Except ε β)} {e : ε}
    (h : (t.whenOk g).CanEnd (.ok (.error e))) :
    t.CanEnd (.ok (.error e)) ∨
      ∃ a, t.CanEnd (.ok (.ok a)) ∧ (g a).CanEnd (.ok (.error e)) := by
  obtain ⟨x, hx, h⟩ := canEnd_bind_ok h
  cases x with
  | ok a => exact .inr ⟨a, hx, h⟩
  | error e' =>
    cases h
    exact .inl hx

/-! ## Smaller realms -/

/-- Work of a smaller realm is waited for there or in the larger one. -/
theorem lift_awaited {S : Realm} {e : Realm.Embedding S R} (t : Activity S α) :
    t.awaited.lift e = (t.lift e).awaited := by
  induction t with
  | done | fail => rfl
  | look k ih => exact congrArg look (funext fun w => ih (e.get w))
  | update f next ih => exact congrArg (update _) ih
  | report r next ih => exact congrArg (report _) ih
  | pause k ih => exact congrArg pause (funext ih)
  | acquire key next ih => exact congrArg (acquire _) ih
  | release key next ih => exact congrArg (release _) ih

/-- In a larger realm work ends in the ways that it has in its own. -/
theorem canEnd_lift {S : Realm} {e : Realm.Embedding S R} {t : Activity S α} {r : Except Failure α}
    (h : (t.lift e).CanEnd r) : t.CanEnd r := by
  induction t with
  | done a => exact h
  | fail f => exact h
  | look k ih =>
    obtain ⟨w, h⟩ := h
    exact ⟨e.get w, ih _ h⟩
  | update f next ih => exact ih h
  | report r next ih => exact ih h
  | pause k ih =>
    obtain ⟨s, h⟩ := h
    exact ⟨s, ih s h⟩
  | acquire key next ih => exact ih h
  | release key next ih => exact ih h

/-! ## Failures -/

/-- Whatever it finds, the activity fails only in ways of a kind. -/
def FailsAs (F : Failure → Prop) (t : Activity R α) : Prop := ∀ f, t.CanEnd (.error f) → F f

variable {F : Failure → Prop}

theorem FailsAs.mono {G : Failure → Prop} {t : Activity R α} (ht : FailsAs F t)
    (h : ∀ f, F f → G f) : FailsAs G t :=
  fun f hf => h f (ht f hf)

theorem FailsAs.done (a : α) : FailsAs F (.done a : Activity R α) := fun _ h => nomatch h

theorem FailsAs.bind {t : Activity R α} {g : α → Activity R β} (ht : FailsAs F t)
    (hg : ∀ a, t.CanEnd (.ok a) → FailsAs F (g a)) : FailsAs F (t.bind g) := by
  intro f hf
  rcases canEnd_bind.1 hf with ⟨a, ha, hf⟩ | ⟨f', hf', heq⟩
  · exact hg a ha f hf
  · cases heq
    exact ht f hf'

theorem FailsAs.whenOk {t : Activity R (Except ε α)} {g : α → Activity R (Except ε β)}
    (ht : FailsAs F t) (hg : ∀ a, FailsAs F (g a)) : FailsAs F (t.whenOk g) := by
  refine ht.bind fun r _ => ?_
  cases r with
  | ok a => exact hg a
  | error e => exact .done _

/-- What is contained fails only in ways that cannot be contained. -/
theorem FailsAs.contained (h : ∀ f, ¬ f.isContained → F f) (t : Activity R α) :
    FailsAs F t.contained :=
  fun f hf => h f (canEnd_contained_fail hf)

/-- What is caught fails only with what escapes. -/
theorem FailsAs.caught {t : Activity R α} (ht : FailsAs (fun f => ∀ g, f.escape = some g → F g) t) :
    FailsAs F t.caught := by
  intro g hg
  obtain ⟨f, hf, hescape⟩ := canEnd_caught_fail hg
  exact ht f hf g hescape

/-- Who waits for work meets its failures as they arrive. -/
theorem FailsAs.awaited {t : Activity R α} (ht : FailsAs (fun f => F f.awaited) t) :
    FailsAs F t.awaited := by
  intro f hf
  rcases canEnd_bind.1 hf with ⟨r, hr, hf⟩ | ⟨e, he, -⟩
  · obtain ⟨r', hr', heq⟩ := canEnd_attempt.1 hr
    cases heq
    cases r with
    | ok a => cases hf
    | error e =>
      cases hf
      exact ht e hr'
  · obtain ⟨r', -, heq⟩ := canEnd_attempt.1 he
    cases heq

theorem FailsAs.orElseUndo {t : Activity R α} (ht : FailsAs F t) (undo : R.World → R.World) :
    FailsAs F (t.orElseUndo undo) := by
  intro f hf
  rcases canEnd_bind.1 hf with ⟨r, hr, hf⟩ | ⟨e, he, -⟩
  · obtain ⟨r', hr', heq⟩ := canEnd_attempt.1 hr
    cases heq
    cases r with
    | ok a => cases hf
    | error e =>
      cases hf
      exact ht f hr'
  · obtain ⟨r', -, heq⟩ := canEnd_attempt.1 he
    cases heq

theorem FailsAs.lift {S : Realm} {e : Realm.Embedding S R} {t : Activity S α} (ht : FailsAs F t) :
    FailsAs F (t.lift e) :=
  fun f hf => ht f (canEnd_lift hf)

end Workflow.Activity
