import Workflow.Proofs.Activity.Endings
import Workflow.Run.Dispatch

/-!
# Hooks that give everything up

A failure that is not contained passes all the places that turn failures of hooks into answers.

**At once** (`Activity.FailsWith`). Work that begins with a part fails with it at once: what comes
after such a failure of the part is that failure, without another step.

**Wherever a hook is called** (`Activity.GivesUp`). The rest of the work begins with the hook, and
fails with it at once. This holds of events and of questions about them, at every hook of every
move, however far the instance has come (`Instance.send_givesUp`, `Instance.canFire_givesUp`).
-/

namespace Workflow

namespace Activity

variable {R : Realm} {α β γ : Type}

/-- The work begins with a part, and an uncontained failure of the part is that of the work. -/
def FailsWith (part : Activity R γ) (t : Activity R α) : Prop :=
  ∃ k, t = part.attempt.bind k ∧ ∀ f : Failure, ¬ f.isContained → k (.error f) = .fail f

theorem attempt_bind_attempt (t : Activity R γ) (k : Except Failure γ → Activity R α)
    (h : Except Failure α → Activity R β) :
    (t.attempt.bind k).attempt.bind h = t.attempt.bind fun r => (k r).attempt.bind h := by
  induction t with
  | done | fail => rfl
  | look g ih => exact congrArg Activity.look (funext ih)
  | update f next ih => exact congrArg (Activity.update f) ih
  | report r next ih => exact congrArg (Activity.report r) ih
  | pause g ih => exact congrArg Activity.pause (funext ih)
  | acquire key next ih => exact congrArg (Activity.acquire key) ih
  | release key next ih => exact congrArg (Activity.release key) ih

/-- Waiting lets uncontained failures pass. -/
theorem FailsWith.awaited (t : Activity R α) : FailsWith t t.awaited := by
  refine ⟨_, rfl, fun f hf => ?_⟩
  show Activity.fail f.awaited = _
  rw [Failure.awaited_of_uncontained hf]

/-- What lets uncontained failures pass may come after. -/
theorem FailsWith.attempt {part : Activity R γ} {t : Activity R α}
    {h : Except Failure α → Activity R β} (ht : FailsWith part t)
    (hh : ∀ f, ¬ f.isContained → h (.error f) = .fail f) : FailsWith part (t.attempt.bind h) := by
  obtain ⟨k, rfl, hk⟩ := ht
  refine ⟨_, attempt_bind_attempt part k h, fun f hf => ?_⟩
  rw [hk f hf]
  exact hh f hf

theorem FailsWith.bind {part : Activity R γ} {t : Activity R α} (ht : FailsWith part t)
    (g : α → Activity R β) : FailsWith part (t.bind g) := by
  rw [bind_eq_attempt]
  exact ht.attempt fun _ _ => rfl

/-- Wherever a hook is called, the rest of the work fails with it at once. -/
def GivesUp : Activity Realm.flow α → Prop
  | .done _ | .fail _ => True
  | .look k => ∀ w, (k w).GivesUp
  | .update _ next => next.GivesUp
  | .report r next => (∀ name, r = .called name → ∃ (hook : Hook) (c : Context), hook.name = name ∧
      FailsWith ((hook.body c.root).lift (Realm.hookIn c.arena)) next) ∧ next.GivesUp
  | .pause k => ∀ s, (k s).GivesUp
  | .acquire _ next | .release _ next => next.GivesUp

section GivesUp

variable {t : Activity Realm.flow α}

theorem GivesUp.attempt {h : Except Failure α → Activity Realm.flow β} (ht : t.GivesUp)
    (hh : ∀ f, ¬ f.isContained → h (.error f) = .fail f) (hgives : ∀ r, (h r).GivesUp) :
    (t.attempt.bind h).GivesUp := by
  induction t with
  | done a => exact hgives _
  | fail f => exact hgives _
  | look k ih => exact fun w => ih w (ht w)
  | update f next ih => exact ih ht
  | report r next ih =>
    refine ⟨fun name hname => ?_, ih ht.2⟩
    obtain ⟨hook, c, hhook, hfails⟩ := ht.1 name hname
    exact ⟨hook, c, hhook, hfails.attempt hh⟩
  | pause k ih => exact fun s => ih s (ht s)
  | acquire key next ih => exact ih ht
  | release key next ih => exact ih ht

theorem GivesUp.bind {g : α → Activity Realm.flow β} (ht : t.GivesUp) (hg : ∀ a, (g a).GivesUp) :
    (t.bind g).GivesUp := by
  rw [bind_eq_attempt]
  refine ht.attempt (fun _ _ => rfl) fun r => ?_
  cases r with
  | ok a => exact hg a
  | error f => trivial

theorem GivesUp.caught (ht : t.GivesUp) : t.caught.GivesUp := by
  refine ht.attempt (fun f hf => ?_) fun r => ?_
  · dsimp only
    rw [Failure.escape_of_uncontained hf]
  cases r with
  | ok a => trivial
  | error f =>
    dsimp only
    split <;> trivial

theorem GivesUp.whenOk {ε : Type} {t : Activity Realm.flow (Except ε α)}
    {g : α → Activity Realm.flow (Except ε β)} (ht : t.GivesUp) (hg : ∀ a, (g a).GivesUp) :
    (t.whenOk g).GivesUp := by
  refine ht.bind fun r => ?_
  cases r with
  | ok a => exact hg a
  | error e => trivial

theorem GivesUp.ofExcept (r : Except Failure α) :
    (Activity.ofExcept r : Activity Realm.flow α).GivesUp := by
  cases r <;> trivial

/-- A hook calls no other hooks. -/
theorem givesUp_hook (t : Activity Realm.hook α) (n : Nat) : (t.lift (Realm.hookIn n)).GivesUp := by
  induction t with
  | done a => trivial
  | fail f => trivial
  | look k ih => exact fun w => ih _
  | update f next ih => exact ih
  | report r next ih => exact ⟨nofun, ih⟩
  | pause k ih => exact ih
  | acquire key next ih => exact ih
  | release key next ih => exact ih

theorem givesUp_call (hook : Hook) (c : Context) : (hook.call c).GivesUp := by
  refine ⟨fun name hname => ⟨hook, c, ?_, ?_⟩, givesUp_hook _ _⟩
  · cases hname
    rfl
  · rw [lift_awaited]
    exact .awaited _

theorem givesUp_log (level : Level) (message : String) : (log level message).GivesUp :=
  ⟨nofun, trivial⟩

theorem givesUp_logFailure (level : Level) (message : String) (f : Failure) :
    (logFailure level message f).GivesUp := by
  unfold logFailure
  split
  · exact givesUp_log _ _
  · trivial

theorem givesUp_readClock : readClock.GivesUp := fun _ => trivial

end GivesUp

end Activity

namespace Instance

open Activity

variable {d : Definition} {i reached : Instance}

theorem passes_givesUp (i : Instance) (t : Transition) : (i.passes t).GivesUp := by
  unfold passes
  split
  · trivial
  · refine GivesUp.bind (GivesUp.caught ?_) fun _ => trivial
    exact (givesUp_call _ _).bind fun _ _ => .ofExcept _

theorem select_givesUp (i : Instance) (ts : List Transition) : (i.select ts).GivesUp := by
  induction ts with
  | nil => trivial
  | cons t rest ih =>
    refine (passes_givesUp i t).whenOk fun passed => ?_
    split
    · trivial
    · exact ih

theorem runHook_givesUp (i : Instance) (role : HookRole) (state : String) (hook : Option Hook)
    (reached : Instance) : (i.runHook role state hook reached).GivesUp := by
  unfold runHook
  split
  · trivial
  · exact (givesUp_call _ _).caught.bind fun _ => trivial

theorem move_givesUp (d : Definition) (i : Instance) (t : Transition) (event : Value) :
    (move d i t event).GivesUp := by
  unfold move
  split
  · trivial
  split
  · trivial
  · trivial
  · refine GivesUp.bind ?_ fun _ => trivial
    refine (runHook_givesUp ..).whenOk fun _ => (runHook_givesUp ..).whenOk fun _ => ?_
    refine givesUp_readClock.bind fun moment => (givesUp_log _ _).bind fun _ => ?_
    exact (runHook_givesUp ..).whenOk fun _ => trivial

theorem markFailed_givesUp (i : Instance) (s : Setback) : (i.markFailed s).GivesUp :=
  (givesUp_logFailure _ _ _).bind fun _ => trivial

theorem rest_givesUp (i : Instance) (steps : Nat) : (i.rest steps).GivesUp := by
  unfold rest
  split
  · exact (givesUp_log _ _).bind fun _ => trivial
  · trivial

theorem settleFrom_givesUp (bound : Option Int) (rounds steps : Nat) :
    (settleFrom d bound rounds steps i).GivesUp := by
  induction rounds generalizing steps i with
  | zero => trivial
  | succ rounds ih =>
    unfold settleFrom
    split
    · exact rest_givesUp _ _
    split
    · exact markFailed_givesUp _ _
    split
    · exact rest_givesUp _ _
    refine (select_givesUp _ _).bind fun selected => ?_
    rcases selected with f | _ | t
    · exact markFailed_givesUp _ _
    · exact rest_givesUp _ _
    dsimp only
    split
    · exact markFailed_givesUp _ _
    refine (move_givesUp d i t .null).bind fun result => ?_
    rcases result with s | next
    · exact markFailed_givesUp _ _
    · exact ih (steps + 1)

/-- **A hook that gives up ends the whole event at once**, at every move that the event leads to. -/
theorem send_givesUp (d : Definition) (limits : Limits) (i : Instance) (event : String) :
    (i.send d limits event).GivesUp := by
  unfold send
  split
  · trivial
  split
  · trivial
  split
  · trivial
  split
  · exact (givesUp_log _ _).bind fun _ => trivial
  refine (select_givesUp _ _).bind fun selected => ?_
  rcases selected with f | _ | t
  · exact (markFailed_givesUp _ _).bind fun _ => trivial
  · trivial
  refine (move_givesUp d i t (.text event)).bind fun result => ?_
  rcases result with s | next
  · exact (markFailed_givesUp _ _).bind fun _ => trivial
  · exact (settleFrom_givesUp limits.bound limits.budget 0).bind fun _ => trivial

theorem canFire_givesUp (d : Definition) (i : Instance) (event : String) :
    (i.canFire d event).GivesUp := by
  unfold canFire
  split
  · trivial
  split
  · trivial
  refine (select_givesUp _ _).bind fun selected => ?_
  rcases selected with f | selected <;> trivial

end Instance

end Workflow
