import Workflow.Failure.Basic

/-!
# Activities

An activity is a piece of work on a shared world, written out step by step: it looks at the world,
changes it, reports, takes and gives back locks, and pauses. Between two pauses no other
activity runs.

**Realms.** A realm (`Realm`) says what world the activities of it share, by what keys they lock and
what they report. An activity of a smaller realm becomes one of a larger by an embedding
(`Activity.lift`), and can touch nothing else of the larger world.

**Pauses.** A pause goes on in one of two ways, by its `Signal`: it is resumed, or the activity is
cancelled there.

**Failures.** An activity ends with an answer or a failure. `Activity.attempt` turns the failure
into an answer, `Activity.contained` and `Activity.caught` only some failures; `Activity.locked`
gives its lock back either way.

**Alone** (`Activity.run`). With no other activity about, locks are free and every pause is
resumed at once. Running a sequence is running its parts one after the other
(`Activity.run_bind`).
-/

namespace Workflow

/-- What activities share: a world, the keys of its locks, and what they report. -/
structure Realm where
  World : Type
  Key : Type
  Report : Type

/-- How the realm `S` lies within the realm `R`. -/
structure Realm.Embedding (S R : Realm) where
  get : R.World → S.World
  put : S.World → R.World → R.World
  key : S.Key → R.Key
  report : S.Report → R.Report

/-- How an activity goes on after a pause. -/
inductive Signal where
  | resume
  | cancel
  deriving DecidableEq, Repr

/-- A piece of work in a realm, step by step. -/
inductive Activity (R : Realm) (α : Type) : Type where
  | done (a : α)
  | fail (e : Failure)
  | look (k : R.World → Activity R α)
  | update (f : R.World → R.World) (next : Activity R α)
  | report (r : R.Report) (next : Activity R α)
  | pause (k : Signal → Activity R α)
  | acquire (key : R.Key) (next : Activity R α)
  | release (key : R.Key) (next : Activity R α)

namespace Activity

variable {R S : Realm} {α β γ : Type}

/-! ## Sequences -/

/-- First one activity, then the one that its answer gives. -/
def bind : Activity R α → (α → Activity R β) → Activity R β
  | .done a, g => g a
  | .fail e, _ => .fail e
  | .look k, g => .look fun w => (k w).bind g
  | .update f next, g => .update f (next.bind g)
  | .report r next, g => .report r (next.bind g)
  | .pause k, g => .pause fun s => (k s).bind g
  | .acquire key next, g => .acquire key (next.bind g)
  | .release key next, g => .release key (next.bind g)

theorem bind_done (t : Activity R α) : t.bind .done = t := by
  induction t with
  | done | fail => rfl
  | look k ih => simp [bind, ih]
  | update f next ih => simp [bind, ih]
  | report r next ih => simp [bind, ih]
  | pause k ih => simp [bind, ih]
  | acquire key next ih => simp [bind, ih]
  | release key next ih => simp [bind, ih]

theorem bind_assoc (t : Activity R α) (g : α → Activity R β) (h : β → Activity R γ) :
    (t.bind g).bind h = t.bind fun a => (g a).bind h := by
  induction t with
  | done | fail => rfl
  | look k ih => simp [bind, ih]
  | update f next ih => simp [bind, ih]
  | report r next ih => simp [bind, ih]
  | pause k ih => simp [bind, ih]
  | acquire key next ih => simp [bind, ih]
  | release key next ih => simp [bind, ih]

/-! ## Single steps -/

/-- The world as it is now. -/
def world : Activity R R.World := .look .done

/-- Reports once. -/
def tell (r : R.Report) : Activity R Unit := .report r (.done ())

/-- Pauses once; an activity that is cancelled here fails. -/
def yield : Activity R Unit :=
  .pause fun
    | .resume => .done ()
    | .cancel => .fail .cancelled

/-- The answer or the failure of a finished computation. -/
def ofExcept : Except Failure α → Activity R α
  | .ok a => .done a
  | .error e => .fail e

/-! ## Failures and locks -/

/-- The same work, with a failure as an answer. -/
def attempt : Activity R α → Activity R (Except Failure α)
  | .done a => .done (.ok a)
  | .fail e => .done (.error e)
  | .look k => .look fun w => (k w).attempt
  | .update f next => .update f next.attempt
  | .report r next => .report r next.attempt
  | .pause k => .pause fun s => (k s).attempt
  | .acquire key next => .acquire key next.attempt
  | .release key next => .release key next.attempt

theorem bind_eq_attempt (t : Activity R α) (g : α → Activity R β) :
    t.bind g = t.attempt.bind fun r => (ofExcept r).bind g := by
  induction t with
  | done | fail => rfl
  | look k ih => exact congrArg look (funext ih)
  | update f next ih => exact congrArg (update f) ih
  | report r next ih => exact congrArg (report r) ih
  | pause k ih => exact congrArg pause (funext ih)
  | acquire key next ih => exact congrArg (acquire key) ih
  | release key next ih => exact congrArg (release key) ih

/-- The same work, with a contained failure as an answer; any other one goes on. -/
def contained (t : Activity R α) : Activity R (Except Failure α) :=
  t.attempt.bind fun
    | .ok a => .done (.ok a)
    | .error e => if e.isContained then .done (.error e) else .fail e

/-- The same work, with a failure as an answer that can be blamed; otherwise it fails with what
escapes. -/
def caught (t : Activity R α) : Activity R (Except Failure α) :=
  t.attempt.bind fun
    | .ok a => .done (.ok a)
    | .error e =>
      match e.escape with
      | none => .done (.error e)
      | some g => .fail g

/-- The same work for one who waits for it. -/
def awaited (t : Activity R α) : Activity R α :=
  t.attempt.bind fun r => ofExcept (r.mapError Failure.awaited)

/-- What comes after an answer that is not an error. -/
def whenOk {ε : Type} (t : Activity R (Except ε α)) (g : α → Activity R (Except ε β)) :
    Activity R (Except ε β) :=
  t.bind fun
    | .ok a => g a
    | .error e => .done (.error e)

/-- The work between taking a lock and giving it back. -/
def locked (key : R.Key) (t : Activity R α) : Activity R α :=
  .acquire key (t.attempt.bind fun answer => .release key (ofExcept answer))

/-- The work, and after a failure of any kind a change of the world before the failure goes on. -/
def orElseUndo (t : Activity R α) (undo : R.World → R.World) : Activity R α :=
  t.attempt.bind fun
    | .ok a => .done a
    | .error e => .update undo (.fail e)

/-- The same work, cancelled where it first pauses. -/
def cancelledAtPause : Activity R α → Activity R α
  | .done a => .done a
  | .fail e => .fail e
  | .look k => .look fun w => (k w).cancelledAtPause
  | .update f next => .update f next.cancelledAtPause
  | .report r next => .report r next.cancelledAtPause
  | .pause k => k .cancel
  | .acquire key next => .acquire key next.cancelledAtPause
  | .release key next => .release key next.cancelledAtPause

/-- The same work in a larger realm. -/
def lift (e : Realm.Embedding S R) : Activity S α → Activity R α
  | .done a => .done a
  | .fail f => .fail f
  | .look k => .look fun w => (k (e.get w)).lift e
  | .update f next => .update (fun w => e.put (f (e.get w)) w) (next.lift e)
  | .report r next => .report (e.report r) (next.lift e)
  | .pause k => .pause fun s => (k s).lift e
  | .acquire key next => .acquire (e.key key) (next.lift e)
  | .release key next => .release (e.key key) (next.lift e)

/-! ## Running alone -/

/-- The answer or failure, the world afterwards, and what was reported, in order. -/
structure Outcome (R : Realm) (α : Type) where
  answer : Except Failure α
  world : R.World
  reports : List R.Report

/-- Runs an activity while no other is about. -/
def run : Activity R α → R.World → Outcome R α
  | .done a, w => ⟨.ok a, w, []⟩
  | .fail e, w => ⟨.error e, w, []⟩
  | .look k, w => (k w).run w
  | .update f next, w => next.run (f w)
  | .report r next, w =>
    let o := next.run w
    ⟨o.answer, o.world, r :: o.reports⟩
  | .pause k, w => (k .resume).run w
  | .acquire _ next, w => next.run w
  | .release _ next, w => next.run w

/-- What comes after an answer. -/
def Outcome.andThen (o : Outcome R α) (g : α → Activity R β) : Outcome R β :=
  match o.answer with
  | .error e => ⟨.error e, o.world, o.reports⟩
  | .ok a =>
    let o' := (g a).run o.world
    ⟨o'.answer, o'.world, o.reports ++ o'.reports⟩

theorem Outcome.andThen_report (a : Except Failure α) (w : R.World) (r : R.Report)
    (rs : List R.Report) (g : α → Activity R β) :
    Outcome.andThen ⟨a, w, r :: rs⟩ g =
      ⟨(Outcome.andThen ⟨a, w, rs⟩ g).answer, (Outcome.andThen ⟨a, w, rs⟩ g).world,
        r :: (Outcome.andThen ⟨a, w, rs⟩ g).reports⟩ := by
  cases a <;> rfl

/-- A sequence runs part after part. -/
theorem run_bind (t : Activity R α) (g : α → Activity R β) (w : R.World) :
    (t.bind g).run w = (t.run w).andThen g := by
  induction t generalizing w with
  | done a => simp [bind, run, Outcome.andThen]
  | fail e => rfl
  | look k ih => simp [bind, run, ih]
  | update f next ih => simp [bind, run, ih]
  | report r next ih => simp [bind, run, ih, Outcome.andThen_report]
  | pause k ih => simp [bind, run, ih]
  | acquire key next ih => simp [bind, run, ih]
  | release key next ih => simp [bind, run, ih]

/-- An attempt ends as the activity does, with its failure as an answer. -/
theorem run_attempt (t : Activity R α) (w : R.World) :
    t.attempt.run w = ⟨.ok (t.run w).answer, (t.run w).world, (t.run w).reports⟩ := by
  induction t generalizing w with
  | done a => rfl
  | fail e => rfl
  | look k ih => simp [attempt, run, ih]
  | update f next ih => simp [attempt, run, ih]
  | report r next ih => simp [attempt, run, ih]
  | pause k ih => simp [attempt, run, ih]
  | acquire key next ih => simp [attempt, run, ih]
  | release key next ih => simp [attempt, run, ih]

end Activity

end Workflow
