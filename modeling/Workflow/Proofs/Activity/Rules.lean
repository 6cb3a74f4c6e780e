import Workflow.Proofs.Activity.Alone
import Workflow.Proofs.Activity.Endings

/-!
# Activities that follow rules

Activities that share a world go by rules (`Rules`): which changes one of them may make, and what it
can rely on while others have their turns.

**Stakes.** Each activity has a stake, which says what it has at the moment: an id that it has
claimed, say. No activity sees the stakes. A change may go along with a change of the stake.

**Locks.** What is allowed, and what can be relied on, may depend on the lock that is held. An
activity holds one lock at most.

**Abiding** (`Activity.Abides`). From a world on, each change is allowed, and after each pause the
activity goes on abiding in every world that it can rely on. Parts that abide make sequences that
abide (`Abides.bind`), and work of a smaller realm abides if its single changes do
(`Abides.lift`).
-/

namespace Workflow

/-- The rules by which activities of a realm share their world. -/
structure Rules (R : Realm) where
  Stake : Type
  /-- A change of world and stake that is allowed to one who holds this lock. -/
  change : Option R.Key → Stake → R.World → Stake → R.World → Prop
  /-- What one who holds this lock may find after others have gone on. -/
  seen : Option R.Key → R.World → R.World → Prop
  seen_refl : ∀ lock w, seen lock w w
  seen_trans : ∀ {lock w v u}, seen lock w v → seen lock v u → seen lock w u
  /-- With a lock one can rely on more. -/
  seen_unlocked : ∀ {lock w v}, seen lock w v → seen none w v

namespace Activity

variable {R S : Realm} {α β : Type} {ρ : Rules R}

/-! ## Single changes -/

/-- Work without locks whose single changes, in whatever world they are made, are of a kind. -/
def Alters (G : R.World → R.World → Prop) : Activity R α → Prop
  | .done _ | .fail _ => True
  | .look k => ∀ w, (k w).Alters G
  | .update f next => (∀ w, G w (f w)) ∧ next.Alters G
  | .report _ next => next.Alters G
  | .pause k => ∀ s, (k s).Alters G
  | .acquire _ _ | .release _ _ => False

section Alters

variable {G : R.World → R.World → Prop}

/-- A sequence alters the world as its parts do; the later part is for answers that the first can
give. -/
theorem Alters.bind {t : Activity R α} {g : α → Activity R β} (ht : t.Alters G)
    (hg : ∀ a, t.CanEnd (.ok a) → (g a).Alters G) : (t.bind g).Alters G := by
  induction t with
  | done a => exact hg a rfl
  | fail e => trivial
  | look k ih =>
    intro w
    exact ih w (ht w) fun a ha => hg a ⟨w, ha⟩
  | update f next ih => exact ⟨ht.1, ih ht.2 hg⟩
  | report r next ih => exact ih ht hg
  | pause k ih =>
    intro s
    exact ih s (ht s) fun a ha => hg a ⟨s, ha⟩
  | acquire key next ih => exact ht
  | release key next ih => exact ht

theorem Alters.ofExcept (r : Except Failure α) : (ofExcept r : Activity R α).Alters G := by
  cases r <;> trivial

theorem Alters.attempt {t : Activity R α} (ht : t.Alters G) : t.attempt.Alters G := by
  induction t with
  | done a => trivial
  | fail e => trivial
  | look k ih => exact fun w => ih w (ht w)
  | update f next ih => exact ⟨ht.1, ih ht.2⟩
  | report r next ih => exact ih ht
  | pause k ih => exact fun s => ih s (ht s)
  | acquire key next ih => exact ht
  | release key next ih => exact ht

theorem Alters.caught {t : Activity R α} (ht : t.Alters G) : t.caught.Alters G := by
  refine ht.attempt.bind fun r _ => ?_
  cases r with
  | ok a => trivial
  | error e =>
    dsimp only
    split <;> trivial

theorem Alters.whenOk {ε : Type} {t : Activity R (Except ε α)} {g : α → Activity R (Except ε β)}
    (ht : t.Alters G) (hg : ∀ a, (g a).Alters G) : (t.whenOk g).Alters G := by
  refine ht.bind fun r _ => ?_
  cases r with
  | ok a => exact hg a
  | error e => trivial

theorem Alters.mono {G' : R.World → R.World → Prop} {t : Activity R α} (ht : t.Alters G)
    (h : ∀ w v, G w v → G' w v) : t.Alters G' := by
  induction t with
  | done a => trivial
  | fail e => trivial
  | look k ih => exact fun w => ih w (ht w)
  | update f next ih => exact ⟨fun w => h w (f w) (ht.1 w), ih ht.2⟩
  | report r next ih => exact ih ht
  | pause k ih => exact fun s => ih s (ht s)
  | acquire key next ih => exact ht
  | release key next ih => exact ht

/-- Work of a smaller realm without locks alters its part of the world. -/
theorem Alters.lift {e : Realm.Embedding S R} (hkey : S.Key → False)
    (hG : ∀ s w, G w (e.put s w)) (t : Activity S α) : (t.lift e).Alters G := by
  induction t with
  | done a => trivial
  | fail f => trivial
  | look k ih => exact fun w => ih (e.get w)
  | update f next ih => exact ⟨fun w => hG _ w, ih⟩
  | report r next ih => exact ih
  | pause k ih => exact ih
  | acquire key next ih => exact (hkey key).elim
  | release key next ih => exact (hkey key).elim

/-- What every single change keeps, a run keeps. -/
theorem Alters.keeps {P : R.World → Prop} {t : Activity R α} (ht : t.Alters G)
    (hP : ∀ w v, G w v → P w → P v) : Keeps P t := by
  intro w hw
  induction t generalizing w with
  | done | fail => exact hw
  | look k ih => exact ih w (ht w) w hw
  | update f next ih => exact ih ht.2 (f w) (hP w (f w) (ht.1 w) hw)
  | report r next ih => exact ih ht w hw
  | pause k ih => exact ih .resume (ht .resume) w hw
  | acquire | release => exact ht.elim

end Alters

/-! ## Abiding by rules -/

/-- Holding a lock and a stake, in a world, the activity goes by the rules. Wherever others may come
in, its stake is one of those that it may have `during` its work, and it ends with `P`. -/
def Abides (ρ : Rules R) (during : ρ.Stake → Prop)
    (P : Option R.Key → ρ.Stake → Except Failure α → R.World → Prop) :
    Option R.Key → ρ.Stake → R.World → Activity R α → Prop
  | lock, x, w, .done a => P lock x (.ok a) w
  | lock, x, w, .fail e => P lock x (.error e) w
  | lock, x, w, .look k => (k w).Abides ρ during P lock x w
  | lock, x, w, .update f next =>
    ∃ x', ρ.change lock x w x' (f w) ∧ next.Abides ρ during P lock x' (f w)
  | lock, x, w, .report _ next => next.Abides ρ during P lock x w
  | lock, x, w, .pause k =>
    during x ∧ ∀ v, ρ.seen lock w v → ∀ signal, (k signal).Abides ρ during P lock x v
  | lock, x, w, .acquire key next =>
    lock = none ∧ during x ∧ ∀ v, ρ.seen none w v → next.Abides ρ during P (some key) x v
  | lock, x, w, .release key next => lock = some key ∧ next.Abides ρ during P none x w

/-- A sequence of a smaller realm is one of the larger. -/
theorem lift_bind {e : Realm.Embedding S R} (t : Activity S α) (g : α → Activity S β) :
    (t.bind g).lift e = (t.lift e).bind fun a => (g a).lift e := by
  induction t with
  | done | fail => rfl
  | look k ih => exact congrArg Activity.look (funext fun w => ih (e.get w))
  | update f next ih => exact congrArg (Activity.update _) ih
  | report r next ih => exact congrArg (Activity.report _) ih
  | pause k ih => exact congrArg Activity.pause (funext ih)
  | acquire key next ih => exact congrArg (Activity.acquire _) ih
  | release key next ih => exact congrArg (Activity.release _) ih

section Abides

variable {during : ρ.Stake → Prop}
  {P : Option R.Key → ρ.Stake → Except Failure α → R.World → Prop}
  {Q : Option R.Key → ρ.Stake → Except Failure β → R.World → Prop}
  {t : Activity R α} {lock : Option R.Key} {x : ρ.Stake} {w : R.World}

/-- What comes after an answer or a failure. -/
theorem Abides.attempt {g : Except Failure α → Activity R β} (ht : t.Abides ρ during P lock x w)
    (hg : ∀ lock x r w, P lock x r w → (g r).Abides ρ during Q lock x w) :
    (t.attempt.bind g).Abides ρ during Q lock x w := by
  induction t generalizing lock x w with
  | done a => exact hg _ _ _ _ ht
  | fail e => exact hg _ _ _ _ ht
  | look k ih => exact ih w ht
  | update f next ih =>
    obtain ⟨x', hchange, hnext⟩ := ht
    exact ⟨x', hchange, ih hnext⟩
  | report r next ih => exact ih ht
  | pause k ih => exact ⟨ht.1, fun v hv s => ih s (ht.2 v hv s)⟩
  | acquire key next ih => exact ⟨ht.1, ht.2.1, fun v hv => ih (ht.2.2 v hv)⟩
  | release key next ih => exact ⟨ht.1, ih ht.2⟩

/-- **Parts that abide by the rules make sequences that do.** -/
theorem Abides.bind {g : α → Activity R β} (ht : t.Abides ρ during P lock x w)
    (hok : ∀ lock x a w, P lock x (.ok a) w → (g a).Abides ρ during Q lock x w)
    (herror : ∀ lock x e w, P lock x (.error e) w → Q lock x (.error e) w) :
    (t.bind g).Abides ρ during Q lock x w := by
  induction t generalizing lock x w with
  | done a => exact hok _ _ _ _ ht
  | fail e => exact herror _ _ _ _ ht
  | look k ih => exact ih w ht
  | update f next ih =>
    obtain ⟨x', hchange, hnext⟩ := ht
    exact ⟨x', hchange, ih hnext⟩
  | report r next ih => exact ih ht
  | pause k ih => exact ⟨ht.1, fun v hv s => ih s (ht.2 v hv s)⟩
  | acquire key next ih => exact ⟨ht.1, ht.2.1, fun v hv => ih (ht.2.2 v hv)⟩
  | release key next ih => exact ⟨ht.1, ih ht.2⟩

theorem Abides.mono {P' : Option R.Key → ρ.Stake → Except Failure α → R.World → Prop}
    (ht : t.Abides ρ during P lock x w)
    (h : ∀ lock x r w, P lock x r w → P' lock x r w) : t.Abides ρ during P' lock x w := by
  have hbind : (t.bind .done).Abides ρ during P' lock x w :=
    ht.bind (fun _ _ _ _ ha => h _ _ _ _ ha) fun _ _ _ _ he => h _ _ _ _ he
  rwa [bind_done] at hbind

/-- Where more stakes are allowed, the activity still abides. -/
theorem Abides.weaken {during' : ρ.Stake → Prop} (ht : t.Abides ρ during P lock x w)
    (h : ∀ x, during x → during' x) : t.Abides ρ during' P lock x w := by
  induction t generalizing lock x w with
  | done a => exact ht
  | fail e => exact ht
  | look k ih => exact ih w ht
  | update f next ih =>
    obtain ⟨x', hchange, hnext⟩ := ht
    exact ⟨x', hchange, ih hnext⟩
  | report r next ih => exact ih ht
  | pause k ih => exact ⟨h x ht.1, fun v hv s => ih s (ht.2 v hv s)⟩
  | acquire key next ih => exact ⟨ht.1, h x ht.2.1, fun v hv => ih (ht.2.2 v hv)⟩
  | release key next ih => exact ⟨ht.1, ih ht.2⟩

theorem Abides.ofExcept {r : Except Failure α} (h : P lock x r w) :
    (ofExcept r).Abides ρ during P lock x w := by
  cases r <;> exact h

theorem Abides.contained
    {P' : Option R.Key → ρ.Stake → Except Failure (Except Failure α) → R.World → Prop}
    (ht : t.Abides ρ during P lock x w)
    (hok : ∀ lock x r w, P lock x r w → P' lock x (.ok r) w)
    (herror : ∀ lock x e w, P lock x (.error e) w → P' lock x (.error e) w) :
    t.contained.Abides ρ during P' lock x w := by
  refine ht.attempt fun lock x r w hr => ?_
  cases r with
  | ok a => exact hok _ _ _ _ hr
  | error e =>
    dsimp only
    split
    · exact hok _ _ _ _ hr
    · exact herror _ _ _ _ hr

/-- Work under a lock: it abides in whatever world the lock is got. -/
theorem Abides.locked {key : R.Key} (hx : during x)
    (ht : ∀ v, ρ.seen none w v →
      t.Abides ρ during (fun lock x r w => lock = some key ∧ P none x r w) (some key) x v) :
    (locked key t).Abides ρ during P none x w := by
  refine ⟨rfl, hx, fun v hv => (ht v hv).attempt fun lock x r w hr => ⟨hr.1, ?_⟩⟩
  exact .ofExcept hr.2

/-- After a failure the undoing has to be allowed, too. -/
theorem Abides.orElseUndo {undo : R.World → R.World}
    {P' : Option R.Key → ρ.Stake → Except Failure α → R.World → Prop}
    (ht : t.Abides ρ during P lock x w)
    (hok : ∀ lock x a w, P lock x (.ok a) w → P' lock x (.ok a) w)
    (hundo : ∀ lock x e w, P lock x (.error e) w →
      ∃ x', ρ.change lock x w x' (undo w) ∧ P' lock x' (.error e) (undo w)) :
    (t.orElseUndo undo).Abides ρ during P' lock x w := by
  refine ht.attempt fun lock x r w hr => ?_
  cases r with
  | ok a => exact hok _ _ _ _ hr
  | error e => exact hundo _ _ _ _ hr

/-- Cancelled at its first pause, the activity still abides. -/
theorem Abides.cancelledAtPause (ht : t.Abides ρ during P lock x w) :
    t.cancelledAtPause.Abides ρ during P lock x w := by
  induction t generalizing lock x w with
  | done a => exact ht
  | fail e => exact ht
  | look k ih => exact ih w ht
  | update f next ih =>
    obtain ⟨x', hchange, hnext⟩ := ht
    exact ⟨x', hchange, ih hnext⟩
  | report r next ih => exact ih ht
  | pause k ih => exact ht.2 w (ρ.seen_refl lock w) .cancel
  | acquire key next ih => exact ⟨ht.1, ht.2.1, fun v hv => ih (ht.2.2 v hv)⟩
  | release key next ih => exact ⟨ht.1, ih ht.2⟩

/-- **Work of a smaller realm abides if its single changes do**, in all worlds that it can come
to. -/
theorem Abides.lift {e : Realm.Embedding S R} {G : S.World → S.World → Prop} {t : Activity S α}
    (ht : t.Alters G) (hx : during x)
    (hG : ∀ v s, ρ.seen lock w v → G (e.get v) s →
      ρ.change lock x v x (e.put s v) ∧ ρ.seen lock v (e.put s v))
    (hP : ∀ r v, ρ.seen lock w v → (∀ a, r = .ok a → t.CanEnd (.ok a)) → P lock x r v) :
    (t.lift e).Abides ρ during P lock x w := by
  induction t generalizing w with
  | done a => exact hP _ w (ρ.seen_refl lock w) fun _ h => h ▸ rfl
  | fail f => exact hP _ w (ρ.seen_refl lock w) nofun
  | look k ih =>
    exact ih (e.get w) (ht (e.get w)) hG fun r v hv hr => hP r v hv fun a ha => ⟨_, hr a ha⟩
  | update f next ih =>
    obtain ⟨hchange, hseen⟩ := hG w (f (e.get w)) (ρ.seen_refl lock w) (ht.1 (e.get w))
    refine ⟨x, hchange, ih ht.2 (fun v s hv => hG v s (ρ.seen_trans hseen hv)) ?_⟩
    exact fun r v hv hr => hP r v (ρ.seen_trans hseen hv) hr
  | report r next ih => exact ih ht hG hP
  | pause k ih =>
    refine ⟨hx, fun v hv s => ih s (ht s) (fun u s hu => hG u s (ρ.seen_trans hv hu)) ?_⟩
    exact fun r u hu hr => hP r u (ρ.seen_trans hv hu) fun a ha => ⟨s, hr a ha⟩
  | acquire key next ih => exact ht.elim
  | release key next ih => exact ht.elim

end Abides

end Activity

end Workflow
