import Workflow.Proofs.Activity.Endings

/-!
# Activities in step

Two activities are in step from a world on (`Activity.InStep`) if they make the same changes and
reports, pause, lock and end together, and may look at different things in between.

**Others.** While both pause or wait for a lock, other activities may change the world. All that is
known of the world afterwards is an invariant `I`, so the two have to go on in step from every world
that has it. Between two pauses the world is theirs, and what they have just done to it is still
known.

**Endings.** A property of the ending and the world there is carried along; most often it is the
invariant, and something about an answer (`Activity.EndsWith`).

**Steadiness** (`Activity.Steady`). An activity that is in step with itself keeps the invariant
wherever others may come in.
-/

namespace Workflow.Activity

variable {R S : Realm} {α β : Type} {I : R.World → Prop}

/-- The activities do the same from a world on, up to what they look at. -/
inductive InStep (I : R.World → Prop) (P : Except Failure α → R.World → Prop) :
    R.World → Activity R α → Activity R α → Prop
  | done {w : R.World} {a : α} : P (.ok a) w → InStep I P w (.done a) (.done a)
  | fail {w : R.World} {e : Failure} : P (.error e) w → InStep I P w (.fail e) (.fail e)
  | lookLeft {w : R.World} {k : R.World → Activity R α} {u : Activity R α} :
      InStep I P w (k w) u → InStep I P w (.look k) u
  | lookRight {w : R.World} {t : Activity R α} {k : R.World → Activity R α} :
      InStep I P w t (k w) → InStep I P w t (.look k)
  | update {w : R.World} {f : R.World → R.World} {t u : Activity R α} :
      InStep I P (f w) t u → InStep I P w (.update f t) (.update f u)
  | report {w : R.World} {r : R.Report} {t u : Activity R α} :
      InStep I P w t u → InStep I P w (.report r t) (.report r u)
  | pause {w : R.World} {k l : Signal → Activity R α} :
      I w → (∀ v, I v → ∀ s, InStep I P v (k s) (l s)) →
      InStep I P w (.pause k) (.pause l)
  | acquire {w : R.World} {key : R.Key} {t u : Activity R α} :
      I w → (∀ v, I v → InStep I P v t u) → InStep I P w (.acquire key t) (.acquire key u)
  | release {w : R.World} {key : R.Key} {t u : Activity R α} :
      InStep I P w t u → InStep I P w (.release key t) (.release key u)

variable {P : Except Failure α → R.World → Prop} {Q : Except Failure β → R.World → Prop}
  {t u : Activity R α} {g h : α → Activity R β} {w : R.World}

/-- An ending in a world of the invariant, where an answer has a property. -/
structure EndsWith (I : R.World → Prop) (A : α → R.World → Prop) (r : Except Failure α)
    (w : R.World) : Prop where
  world : I w
  answer : ∀ a, r = .ok a → A a w

theorem EndsWith.ok {A : α → R.World → Prop} {a : α} {w : R.World} (hw : I w) (ha : A a w) :
    EndsWith I A (.ok a) w :=
  ⟨hw, fun _ h => Except.ok.inj h ▸ ha⟩

theorem EndsWith.error {A : α → R.World → Prop} {w : R.World} (hw : I w) (e : Failure) :
    EndsWith I A (.error e) w :=
  ⟨hw, nofun⟩

theorem InStep.look {k l : R.World → Activity R α} (hk : InStep I P w (k w) (l w)) :
    InStep I P w (.look k) (.look l) :=
  .lookLeft (.lookRight hk)

/-- **Parts in step make sequences in step.** -/
theorem InStep.bind (ht : InStep I P w t u)
    (hok : ∀ a v, P (.ok a) v → InStep I Q v (g a) (h a))
    (herror : ∀ e v, P (.error e) v → Q (.error e) v) :
    InStep I Q w (t.bind g) (u.bind h) := by
  induction ht with
  | done ha => exact hok _ _ ha
  | fail he => exact .fail (herror _ _ he)
  | lookLeft _ ih => exact .lookLeft ih
  | lookRight _ ih => exact .lookRight ih
  | update _ ih => exact .update ih
  | report _ ih => exact .report ih
  | pause hw _ ih => exact .pause hw ih
  | acquire hw _ ih => exact .acquire hw ih
  | release _ ih => exact .release ih

theorem InStep.mono {P' : Except Failure α → R.World → Prop} (ht : InStep I P w t u)
    (hP : ∀ r v, P r v → P' r v) : InStep I P' w t u := by
  have hbind : InStep I P' w (t.bind .done) (u.bind .done) :=
    ht.bind (fun _ _ ha => .done (hP _ _ ha)) fun _ _ he => hP _ _ he
  rwa [bind_done, bind_done] at hbind

/-- What comes after an answer or a failure. -/
theorem InStep.attempt {g h : Except Failure α → Activity R β} (ht : InStep I P w t u)
    (hg : ∀ r v, P r v → InStep I Q v (g r) (h r)) :
    InStep I Q w (t.attempt.bind g) (u.attempt.bind h) := by
  induction ht with
  | done ha => exact hg _ _ ha
  | fail he => exact hg _ _ he
  | lookLeft _ ih => exact .lookLeft ih
  | lookRight _ ih => exact .lookRight ih
  | update _ ih => exact .update ih
  | report _ ih => exact .report ih
  | pause hw _ ih => exact .pause hw ih
  | acquire hw _ ih => exact .acquire hw ih
  | release _ ih => exact .release ih

theorem InStep.contained {P' : Except Failure (Except Failure α) → R.World → Prop}
    (ht : InStep I P w t u) (hP : ∀ r v, P r v → P' (.ok r) v)
    (herror : ∀ e v, P (.error e) v → P' (.error e) v) :
    InStep I P' w t.contained u.contained := by
  refine ht.attempt fun r v hr => ?_
  cases r with
  | ok a => exact .done (hP _ _ hr)
  | error e =>
    dsimp only
    split
    · exact .done (hP _ _ hr)
    · exact .fail (herror _ _ hr)

/-- Work under a lock: whatever the world is when the lock is got. -/
theorem InStep.locked {key : R.Key} (hw : I w) (ht : ∀ v, I v → InStep I P v t u) :
    InStep I P w (locked key t) (locked key u) := by
  refine .acquire hw fun v hv => (ht v hv).attempt fun r v hr => ?_
  cases r with
  | ok a => exact .release (.done hr)
  | error e => exact .release (.fail hr)

/-- Work of a realm without locks, where `I` is about the rest of the world, gives one of its
answers. -/
theorem InStep.lift {e : Realm.Embedding S R} (hkey : S.Key → False)
    (hI : ∀ s w, I w → I (e.put s w)) (t : Activity S α) (hw : I w) :
    InStep I (EndsWith I fun a _ => t.CanEnd (.ok a)) w (t.lift e) (t.lift e) := by
  induction t generalizing w with
  | done a => exact .done (.ok hw rfl)
  | fail f => exact .fail (.error hw f)
  | look k ih =>
    refine .look ((ih (e.get w) hw).mono fun r v hr => ?_)
    exact ⟨hr.world, fun a ha => ⟨e.get w, hr.answer a ha⟩⟩
  | update f next ih => exact .update (ih (hI _ w hw))
  | report r next ih => exact .report (ih hw)
  | pause k ih =>
    refine .pause hw fun v hv s => (ih s hv).mono fun r v hr => ?_
    exact ⟨hr.world, fun a ha => ⟨s, hr.answer a ha⟩⟩
  | acquire key next ih => exact (hkey key).elim
  | release key next ih => exact (hkey key).elim

/-- Work that is cancelled where it first pauses. -/
theorem InStep.cancelledAtPause (ht : InStep I P w t u) :
    InStep I P w t.cancelledAtPause u.cancelledAtPause := by
  induction ht with
  | done ha => exact .done ha
  | fail he => exact .fail he
  | lookLeft _ ih => exact .lookLeft ih
  | lookRight _ ih => exact .lookRight ih
  | update _ ih => exact .update ih
  | report _ ih => exact .report ih
  | pause hw hk _ => exact hk _ hw .cancel
  | acquire hw _ ih => exact .acquire hw ih
  | release _ ih => exact .release ih

/-! ## Steadiness -/

/-- The activity keeps the invariant wherever others may come in, and its answers have a
property. -/
def Steady (I : R.World → Prop) (A : α → Prop) (t : Activity R α) : Prop :=
  ∀ w, I w → InStep I (EndsWith I fun a _ => A a) w t t

variable {A : α → Prop} {B : β → Prop}

theorem Steady.done {a : α} (ha : A a) : Steady I A (.done a) := fun _ hw => .done (.ok hw ha)

theorem Steady.fail (e : Failure) : Steady I A (.fail e) := fun _ hw => .fail (.error hw e)

theorem Steady.ofExcept {r : Except Failure α} (hr : ∀ a, r = .ok a → A a) :
    Steady I A (ofExcept r) := by
  cases r with
  | ok a => exact .done (hr a rfl)
  | error e => exact .fail e

theorem Steady.look {k : R.World → Activity R α} (hk : ∀ w, I w → Steady I A (k w)) :
    Steady I A (.look k) :=
  fun w hw => .look (hk w hw w hw)

theorem Steady.update {f : R.World → R.World} (hf : ∀ w, I w → I (f w)) (ht : Steady I A t) :
    Steady I A (.update f t) :=
  fun w hw => .update (ht (f w) (hf w hw))

theorem Steady.report {r : R.Report} (ht : Steady I A t) : Steady I A (.report r t) :=
  fun w hw => .report (ht w hw)

theorem steady_yield : Steady I (fun _ => True) (yield : Activity R Unit) := by
  refine fun w hw => .pause hw fun v hv s => ?_
  cases s with
  | resume => exact .done (.ok hv trivial)
  | cancel => exact .fail (.error hv _)

theorem Steady.bind (ht : Steady I A t) (hg : ∀ a, A a → Steady I B (g a)) :
    Steady I B (t.bind g) :=
  fun w hw => (ht w hw).bind (fun a v ha => hg a (ha.answer a rfl) v ha.world) fun e _ he =>
    .error he.world e

theorem Steady.mono {A' : α → Prop} (ht : Steady I A t) (hA : ∀ a, A a → A' a) :
    Steady I A' t :=
  fun w hw => (ht w hw).mono fun _ _ hr => ⟨hr.world, fun a ha => hA a (hr.answer a ha)⟩

theorem Steady.attempt {g : Except Failure α → Activity R β} (ht : Steady I A t)
    (hg : ∀ r, (∀ a, r = .ok a → A a) → Steady I B (g r)) : Steady I B (t.attempt.bind g) :=
  fun w hw => (ht w hw).attempt fun r v hr => hg r hr.answer v hr.world

theorem Steady.contained (ht : Steady I A t) :
    Steady I (fun r => ∀ a, r = .ok a → A a) t.contained :=
  fun w hw => (ht w hw).contained (fun _ _ hr => .ok hr.world hr.answer) fun e _ hr =>
    .error hr.world e

theorem Steady.cancelledAtPause (ht : Steady I A t) : Steady I A t.cancelledAtPause :=
  fun w hw => (ht w hw).cancelledAtPause

theorem Steady.locked {key : R.Key} (ht : Steady I A t) : Steady I A (locked key t) :=
  fun _ hw => .locked hw ht

theorem Steady.orElseUndo {undo : R.World → R.World} (ht : Steady I A t)
    (hundo : ∀ w, I w → I (undo w)) : Steady I A (t.orElseUndo undo) := by
  refine fun w hw => (ht w hw).attempt fun r v hr => ?_
  cases r with
  | ok a => exact .done hr
  | error e => exact .update (.fail (.error (hundo v hr.world) e))

theorem Steady.lift {e : Realm.Embedding S R} (hkey : S.Key → False)
    (hI : ∀ s w, I w → I (e.put s w)) (t : Activity S α) :
    Steady I (fun a => t.CanEnd (.ok a)) (t.lift e) :=
  fun _ hw => .lift hkey hI t hw

end Workflow.Activity
