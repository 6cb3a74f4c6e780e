import Workflow.Activity.Basic

/-!
# Running alone, part by part

What `Activity.run` gives for a sequence whose first part gave an answer or a failure, and for work
under a lock.

**What a run keeps** (`Activity.Keeps`). A property of the world that each part keeps is kept by the
whole.

**What a run gives** (`Activity.Gives`). What holds of the answer of one part and of the world that
it leaves is what the next part starts from.

**How a run fails** (`Activity.FailsOnly`). Likewise for what holds of all failures.

**Smaller realms** (`run_lift`). Work of a smaller realm runs as it does there, and leaves the rest
of the world as it is.
-/

namespace Workflow.Activity

variable {R S : Realm} {α β : Type}

/-- An outcome with what was reported before. -/
def Outcome.after (earlier : List R.Report) (o : Outcome R α) : Outcome R α :=
  ⟨o.answer, o.world, earlier ++ o.reports⟩

theorem run_bind_of_ok {t : Activity R α} {g : α → Activity R β} {w : R.World} {a : α}
    (h : (t.run w).answer = .ok a) :
    (t.bind g).run w = ⟨((g a).run (t.run w).world).answer, ((g a).run (t.run w).world).world,
      (t.run w).reports ++ ((g a).run (t.run w).world).reports⟩ := by
  rw [run_bind, Outcome.andThen, h]

theorem run_bind_of_error {t : Activity R α} {g : α → Activity R β} {w : R.World} {e : Failure}
    (h : (t.run w).answer = .error e) :
    (t.bind g).run w = ⟨.error e, (t.run w).world, (t.run w).reports⟩ := by
  rw [run_bind, Outcome.andThen, h]

/-- A sequence that gives an answer has one from each of its parts. -/
theorem run_bind_ok {t : Activity R α} {g : α → Activity R β} {w : R.World} {b : β}
    (h : ((t.bind g).run w).answer = .ok b) :
    ∃ a, (t.run w).answer = .ok a ∧ ((g a).run (t.run w).world).answer = .ok b := by
  cases ha : (t.run w).answer with
  | error e =>
    rw [run_bind_of_error ha] at h
    cases h
  | ok a =>
    rw [run_bind_of_ok ha] at h
    exact ⟨a, rfl, h⟩

theorem run_contained (t : Activity R α) (w : R.World) :
    t.contained.run w =
      match (t.run w).answer with
      | .ok a => ⟨.ok (.ok a), (t.run w).world, (t.run w).reports⟩
      | .error e =>
        ⟨if e.isContained then .ok (.error e) else .error e, (t.run w).world, (t.run w).reports⟩ := by
  have hattempt := run_attempt t w
  have hanswer : (t.attempt.run w).answer = .ok (t.run w).answer := by rw [hattempt]
  unfold contained
  rw [run_bind_of_ok hanswer, hattempt]
  cases (t.run w).answer with
  | ok a => simp [run]
  | error e => by_cases he : e.isContained <;> simp [he, run]

theorem run_ofExcept (r : Except Failure α) (w : R.World) : (ofExcept r).run w = ⟨r, w, []⟩ := by
  cases r <;> rfl

theorem run_caught (t : Activity R α) (w : R.World) :
    t.caught.run w =
      match (t.run w).answer with
      | .ok a => ⟨.ok (.ok a), (t.run w).world, (t.run w).reports⟩
      | .error e =>
        ⟨match e.escape with
          | none => .ok (.error e)
          | some g => .error g, (t.run w).world, (t.run w).reports⟩ := by
  have hattempt := run_attempt t w
  have hanswer : (t.attempt.run w).answer = .ok (t.run w).answer := by rw [hattempt]
  unfold caught
  rw [run_bind_of_ok hanswer, hattempt]
  cases (t.run w).answer with
  | ok a => simp [run]
  | error e => cases he : e.escape <;> simp [he, run]

/-- Who waits for work finds the same world. -/
theorem run_awaited (t : Activity R α) (w : R.World) :
    t.awaited.run w =
      ⟨(t.run w).answer.mapError Failure.awaited, (t.run w).world, (t.run w).reports⟩ := by
  unfold awaited
  rw [run_bind, run_attempt]
  simp only [Outcome.andThen, run_ofExcept, List.append_nil]

/-- Alone, work under a lock goes as it does without. -/
theorem run_locked (key : R.Key) (t : Activity R α) (w : R.World) :
    (locked key t).run w = t.run w := by
  show (t.attempt.bind fun answer => .release key (ofExcept answer)).run w = t.run w
  rw [run_bind, run_attempt]
  simp only [Outcome.andThen, run, run_ofExcept, List.append_nil]

theorem run_orElseUndo_of_ok {t : Activity R α} (undo : R.World → R.World) {w : R.World} {a : α}
    (h : (t.run w).answer = .ok a) :
    ((t.orElseUndo undo).run w).answer = .ok a ∧
      ((t.orElseUndo undo).run w).world = (t.run w).world := by
  unfold orElseUndo
  rw [run_bind, run_attempt, h]
  exact ⟨rfl, rfl⟩

/-- After a failure the world is changed once more. -/
theorem run_orElseUndo_of_error {t : Activity R α} (undo : R.World → R.World) {w : R.World}
    {e : Failure} (h : (t.run w).answer = .error e) :
    ((t.orElseUndo undo).run w).answer = .error e ∧
      ((t.orElseUndo undo).run w).world = undo (t.run w).world := by
  unfold orElseUndo
  rw [run_bind, run_attempt, h]
  exact ⟨rfl, rfl⟩

/-! ## What a run keeps -/

/-- Every run keeps a property of the world, whether it gives an answer or fails. -/
def Keeps (P : R.World → Prop) (t : Activity R α) : Prop := ∀ w, P w → P (t.run w).world

theorem Keeps.done {P : R.World → Prop} (a : α) : Keeps P (.done a : Activity R α) :=
  fun _ hw => hw

theorem Keeps.bind {P : R.World → Prop} {t : Activity R α} {g : α → Activity R β}
    (ht : Keeps P t) (hg : ∀ a, Keeps P (g a)) : Keeps P (t.bind g) := by
  intro w hw
  cases hr : (t.run w).answer with
  | error e =>
    rw [run_bind_of_error hr]
    exact ht w hw
  | ok a =>
    rw [run_bind_of_ok hr]
    exact hg a _ (ht w hw)

theorem Keeps.attempt {P : R.World → Prop} {t : Activity R α} (ht : Keeps P t) :
    Keeps P t.attempt := by
  intro w hw
  rw [run_attempt]
  exact ht w hw

theorem Keeps.contained {P : R.World → Prop} {t : Activity R α} (ht : Keeps P t) :
    Keeps P t.contained := by
  refine ht.attempt.bind fun r => ?_
  cases r with
  | ok a => exact .done _
  | error e =>
    dsimp only
    split
    · exact .done _
    · exact fun _ hw => hw

theorem Keeps.caught {P : R.World → Prop} {t : Activity R α} (ht : Keeps P t) :
    Keeps P t.caught := by
  refine ht.attempt.bind fun r => ?_
  cases r with
  | ok a => exact .done _
  | error e =>
    dsimp only
    split
    · exact .done _
    · exact fun _ hw => hw

/-! ## What a run gives -/

/-- From a world with `P`, an answer and the world that it leaves have `Q`. -/
def Gives (P : R.World → Prop) (Q : α → R.World → Prop) (t : Activity R α) : Prop :=
  ∀ w, P w → ∀ a, (t.run w).answer = .ok a → Q a (t.run w).world

section Gives

variable {P : R.World → Prop} {Q : β → R.World → Prop}

theorem Gives.done {b : β} (h : ∀ w, P w → Q b w) : Gives P Q (.done b) := by
  intro w hw a ha
  cases ha
  exact h w hw

theorem Gives.fail (f : Failure) : Gives P Q (.fail f) := nofun

/-- What the first part gives, the second starts from. -/
theorem Gives.bind {M : α → R.World → Prop} {t : Activity R α} {g : α → Activity R β}
    (ht : Gives P M t) (hg : ∀ a, Gives (M a) Q (g a)) : Gives P Q (t.bind g) := by
  intro w hw b hb
  obtain ⟨a, ha, hb⟩ := run_bind_ok hb
  rw [run_bind_of_ok ha]
  exact hg a _ (ht w hw a ha) b hb

end Gives

/-! ## How a run fails -/

/-- Every failure of every run has a property. -/
def FailsOnly (F : Failure → Prop) (t : Activity R α) : Prop :=
  ∀ w f, (t.run w).answer = .error f → F f

theorem FailsOnly.done {F : Failure → Prop} (a : α) : FailsOnly F (.done a : Activity R α) :=
  fun _ _ h => nomatch h

theorem FailsOnly.bind {F : Failure → Prop} {t : Activity R α} {g : α → Activity R β}
    (ht : FailsOnly F t) (hg : ∀ w a, (t.run w).answer = .ok a → FailsOnly F (g a)) :
    FailsOnly F (t.bind g) := by
  intro w f h
  cases hr : (t.run w).answer with
  | error e =>
    rw [run_bind_of_error hr] at h
    cases h
    exact ht w f hr
  | ok a =>
    rw [run_bind_of_ok hr] at h
    exact hg w a hr _ f h

theorem FailsOnly.whenOk {F : Failure → Prop} {ε : Type} {t : Activity R (Except ε α)}
    {g : α → Activity R (Except ε β)} (ht : FailsOnly F t) (hg : ∀ a, FailsOnly F (g a)) :
    FailsOnly F (t.whenOk g) := by
  refine ht.bind fun _ r _ => ?_
  cases r with
  | ok a => exact hg a
  | error e => exact .done _

/-- Work from which nothing escapes does not fail once it is caught. -/
theorem FailsOnly.caught {F : Failure → Prop} {t : Activity R α}
    (ht : FailsOnly (fun f => f.escape = none) t) : FailsOnly F t.caught := by
  intro w f h
  rw [run_caught] at h
  cases hr : (t.run w).answer with
  | ok a => simp [hr] at h
  | error e => simp [hr, ht w e hr] at h

/-! ## Smaller realms -/

/-- Among some worlds the smaller one can be taken out and put back, and these worlds are not
left. -/
structure Lawful (e : Realm.Embedding S R) (P : R.World → Prop) : Prop where
  keeps : ∀ {w}, P w → ∀ s, P (e.put s w)
  get_put : ∀ {w}, P w → ∀ s, e.get (e.put s w) = s
  put_put : ∀ {w}, P w → ∀ s s', e.put s' (e.put s w) = e.put s' w
  put_get : ∀ {w}, P w → e.put (e.get w) w = w

/-- Work of a smaller realm runs there, and the rest of the world stays. -/
theorem run_lift {e : Realm.Embedding S R} {P : R.World → Prop} (h : Lawful e P)
    (t : Activity S α) {w : R.World} (hw : P w) :
    (t.lift e).run w = ⟨(t.run (e.get w)).answer, e.put (t.run (e.get w)).world w,
      (t.run (e.get w)).reports.map e.report⟩ := by
  induction t generalizing w with
  | done a => simp [lift, run, h.put_get hw]
  | fail f => simp [lift, run, h.put_get hw]
  | look k ih => exact ih (e.get w) hw
  | update f next ih =>
    have hnext := ih (h.keeps hw (f (e.get w)))
    rw [h.get_put hw, h.put_put hw] at hnext
    exact hnext
  | report r next ih => simp [lift, run, ih hw]
  | pause k ih => exact ih .resume hw
  | acquire key next ih => exact ih hw
  | release key next ih => exact ih hw

end Workflow.Activity
