import Mathlib.Logic.Relator
import Workflow.Proofs.Activity.Mirrors
import Workflow.Proofs.Hook.Seen
import Workflow.Proofs.Run.Footprint

/-!
# Instances that are alike

Two snapshots are alike if nothing but times tells them apart (`Instance.Alike`). They may live in
different environments, where one arena stands for another (`Environment.Linked`).

**Times.** A visit without its times still tells whether the state was left (`Visit.untimed`).

**Links.** Each arena stands for one other at most, and both have the same cells. Hooks see nothing
but cells, so they go alike.

Main results: `send_mirrors`, `canFire_mirrors` and `startAndSettle_mirrors`. Operations on
snapshots that are alike mirror each other, and give snapshots that are alike again.
-/

namespace Workflow

open Activity

/-! ## Links -/

/-- Arenas stand for each other in two environments, by their numbers. -/
structure Environment.Linked (links : Nat → Nat → Prop) (e e' : Environment) : Prop where
  unique : Relator.BiUnique links
  arena : ∀ n m, links n m → e.arena n = e'.arena m
  bound : ∀ n m, links n m → n < e.contexts.arenas.size ∧ m < e'.contexts.arenas.size

/-- The same datum, in arenas that stand for each other. -/
structure Context.Alike (links : Nat → Nat → Prop) (c c' : Context) : Prop where
  root : c.root = c'.root
  arena : links c.arena c'.arena

namespace Environment

variable {links : Nat → Nat → Prop} {e e' : Environment} {n m : Nat}

theorem Linked.of_contexts {f f' : Environment} (h : Linked links e e')
    (hf : f.contexts = e.contexts) (hf' : f'.contexts = e'.contexts) : Linked links f f' where
  unique := h.unique
  arena p q hpq := by
    show f.contexts.arena p = f'.contexts.arena q
    rw [hf, hf']
    exact h.arena p q hpq
  bound p q hpq := by
    rw [hf, hf']
    exact h.bound p q hpq

/-- The same cells are put into arenas that stand for each other. -/
theorem Linked.setArena (h : Linked links e e') (hnm : links n m) (a : Arena) :
    Linked links (e.setArena n a) (e'.setArena m a) where
  unique := h.unique
  arena p q hpq := by
    obtain ⟨hn, hm⟩ := h.bound n m hnm
    by_cases hp : p = n
    · subst hp
      have hq : q = m := h.unique.2 hpq hnm
      subst hq
      rw [arena_setArena hn, arena_setArena hm]
    · have hq : q ≠ m := by
        rintro rfl
        exact hp (h.unique.1 hpq hnm)
      rw [arena_setArena_of_ne hp, arena_setArena_of_ne hq]
      exact h.arena p q hpq
  bound p q hpq := by
    obtain ⟨hp, hq⟩ := h.bound p q hpq
    exact ⟨(SameOff.setArena (P := fun _ => True) trivial).size.symm ▸ hp,
      (SameOff.setArena (P := fun _ => True) trivial).size.symm ▸ hq⟩

/-- Changes elsewhere, and new arenas, are no matter. -/
theorem Linked.frame {f : Environment} (h : Linked links e e')
    (hsize : e.contexts.arenas.size ≤ f.contexts.arenas.size)
    (harena : ∀ n m, links n m → f.arena n = e.arena n) : Linked links f e' where
  unique := h.unique
  arena p q hpq := (harena p q hpq).trans (h.arena p q hpq)
  bound p q hpq := ⟨Nat.lt_of_lt_of_le (h.bound p q hpq).1 hsize, (h.bound p q hpq).2⟩

/-- The environment with one more context. -/
def allocate (v : Value) (e : Environment) : Environment :=
  { e with contexts := (e.contexts.allocate v).2 }

theorem size_allocate (v : Value) (e : Environment) :
    (e.allocate v).contexts.arenas.size = e.contexts.arenas.size + 1 :=
  Array.size_push ..

theorem arena_allocate (v : Value) {e : Environment} (hn : n < e.contexts.arenas.size) :
    (e.allocate v).arena n = e.arena n := by
  show (e.contexts.arenas.push _).getD n default = e.contexts.arenas.getD n default
  rw [Array.getD_eq_getD_getElem?, Array.getD_eq_getD_getElem?, Array.getElem?_push,
    if_neg (Nat.ne_of_lt hn)]

theorem arena_allocate_new (v : Value) (e : Environment) :
    (e.allocate v).arena e.contexts.arenas.size = (Arena.store default v).2 := by
  show (e.contexts.arenas.push _).getD e.contexts.arenas.size default = _
  rw [Array.getD_eq_getD_getElem?, Array.getElem?_push, if_pos rfl]
  rfl

/-- Two new arenas with the same content stand for each other. -/
def withNew (links : Nat → Nat → Prop) (e e' : Environment) (n m : Nat) : Prop :=
  links n m ∨ (n = e.contexts.arenas.size ∧ m = e'.contexts.arenas.size)

theorem Linked.allocate (h : Linked links e e') (v : Value) :
    Linked (withNew links e e') (e.allocate v) (e'.allocate v) where
  unique := by
    refine ⟨fun p q r hp hr => ?_, fun p q r hq hr => ?_⟩
    · rcases hp with hp | ⟨rfl, rfl⟩ <;> rcases hr with hr | ⟨rfl, hr⟩
      · exact h.unique.1 hp hr
      · exact absurd (h.bound _ _ hp).2 (by omega)
      · exact absurd (h.bound _ _ hr).2 (by omega)
      · rfl
    · rcases hq with hq | ⟨rfl, rfl⟩ <;> rcases hr with hr | ⟨hp, rfl⟩
      · exact h.unique.2 hq hr
      · exact absurd (h.bound _ _ hq).1 (by omega)
      · exact absurd (h.bound _ _ hr).1 (by omega)
      · rfl
  arena p q hpq := by
    rcases hpq with hpq | ⟨rfl, rfl⟩
    · obtain ⟨hp, hq⟩ := h.bound p q hpq
      rw [arena_allocate v hp, arena_allocate v hq, h.arena p q hpq]
    · rw [arena_allocate_new, arena_allocate_new]
  bound p q hpq := by
    rw [size_allocate, size_allocate]
    rcases hpq with hpq | ⟨rfl, rfl⟩
    · have hbound := h.bound p q hpq
      omega
    · omega

theorem Linked.read {c c' : Context} (h : Linked links e e') (hc : c.Alike links c') :
    e.read c = e'.read c' := by
  show (e.arena c.arena).load c.root = (e'.arena c'.arena).load c'.root
  rw [h.arena _ _ hc.arena, hc.root]

end Environment

/-! ## Snapshots -/

/-- The visit without its times. -/
def Visit.untimed (v : Visit) : Visit :=
  { v with enteredAt := "", leftAt := v.leftAt.map fun _ => "" }

namespace Instance

/-- Snapshots of one run that differ at most in times, and in the arenas of their contexts. -/
structure Alike (links : Nat → Nat → Prop) (i j : Instance) : Prop where
  workflow : i.workflow = j.workflow
  id : i.id = j.id
  current : i.current = j.current
  ctx : i.ctx.Alike links j.ctx
  history : i.history.map Visit.untimed = j.history.map Visit.untimed
  status : i.status = j.status
  error : i.error = j.error

variable {links : Nat → Nat → Prop} {i j i' j' : Instance} {d : Definition} {t : Transition}
  {ts : List Transition} {event : Value} {limits : Limits}

theorem Alike.mono {links' : Nat → Nat → Prop} (h : i.Alike links j)
    (hlinks : ∀ n m, links n m → links' n m) : i.Alike links' j :=
  { h with ctx := ⟨h.ctx.root, hlinks _ _ h.ctx.arena⟩ }

theorem Alike.refl (h : links i.ctx.arena i.ctx.arena) : i.Alike links i :=
  ⟨rfl, rfl, rfl, ⟨rfl, h⟩, rfl, rfl, rfl⟩

theorem Alike.isRunning (h : i.Alike links j) : i.isRunning = j.isRunning := by
  unfold Instance.isRunning
  rw [h.status]

theorem untimed_closeLast (moment : String) (history : List Visit) :
    (closeLast moment history).map Visit.untimed = closeLast "" (history.map Visit.untimed) := by
  induction history with
  | nil => rfl
  | cons v rest ih =>
    cases rest with
    | nil => cases hv : v.leftAt <;> simp [closeLast, Visit.isOpen, Visit.untimed, hv]
    | cons u rest => exact congrArg (v.untimed :: ·) ih

theorem Alike.moved (h : i.Alike links j) (t : Transition) (target : State) (event : Value)
    (moment moment' : String) :
    (i.moved t target event moment).Alike links (j.moved t target event moment') where
  workflow := h.workflow
  id := h.id
  current := rfl
  ctx := h.ctx
  history := by
    unfold Instance.moved
    rw [List.map_append, List.map_append, untimed_closeLast, untimed_closeLast, h.history]
    rfl
  status := rfl
  error := h.error

theorem Alike.failed (h : i.Alike links j) (e : Failure) :
    (i.failed e).Alike links (j.failed e) :=
  { h with status := rfl, error := rfl }

end Instance

/-- Hook failures that reached snapshots that are alike. -/
structure HookFailure.Alike (links : Nat → Nat → Prop) (f g : HookFailure) : Prop where
  role : f.role = g.role
  state : f.state = g.state
  cause : f.cause = g.cause
  reached : f.reached.Alike links g.reached

/-- Setbacks of one kind. -/
inductive Setback.Alike (links : Nat → Nat → Prop) : Setback → Setback → Prop
  | stateNotFound (state owner : Value) :
      Alike links (.stateNotFound state owner) (.stateNotFound state owner)
  | stalled (state : String) (bound : Int) : Alike links (.stalled state bound) (.stalled state bound)
  | hook {f g : HookFailure} : f.Alike links g → Alike links (.hook f) (.hook g)

/-- Outcomes that are alike. -/
structure Dispatch.Alike (links : Nat → Nat → Prop) (out out' : Dispatch) : Prop where
  reached : out.reached.Alike links out'.reached
  transitioned : out.transitioned = out'.transitioned

theorem Dispatch.Alike.mono {links links' : Nat → Nat → Prop} {out out' : Dispatch}
    (h : out.Alike links out') (hlinks : ∀ n m, links n m → links' n m) : out.Alike links' out' :=
  ⟨h.reached.mono hlinks, h.transitioned⟩

/-! ## Hooks -/

section Hooks

variable {links : Nat → Nat → Prop} {c c' : Context}

/-- A hook goes alike on contexts that are alike. -/
theorem Hook.call_mirrors (hook : Hook) (hc : c.Alike links c') :
    Mirrors (Environment.Linked links) Eq (hook.call c) (hook.call c') := by
  unfold Hook.call
  rw [hc.root]
  exact .report (.lift Empty.elim (fun _ _ hw => hw.arena _ _ hc.arena)
    (fun _ _ a hw => hw.setArena hc.arena a) _)

theorem readClock_mirrors :
    Mirrors (Environment.Linked links) (fun _ _ => True) readClock readClock :=
  .look fun _ _ _ => .update (fun _ _ hw => hw.of_contexts rfl rfl) (.done trivial)

theorem log_mirrors (level level' : Level) (message message' : String) :
    Mirrors (Environment.Linked links) Eq (log level message) (log level' message') :=
  .report (.done rfl)

theorem logFailure_mirrors (level : Level) (message message' : String) (f : Failure) :
    Mirrors (Environment.Linked links) Eq (logFailure level message f)
      (logFailure level message' f) := by
  unfold logFailure
  split
  · exact log_mirrors ..
  · exact .done rfl

end Hooks

namespace Instance

variable {links : Nat → Nat → Prop} {i j i' j' : Instance} {d : Definition} {t : Transition}
  {ts : List Transition} {event : Value} {limits : Limits}

/-! ## Guards -/

theorem passes_mirrors (h : i.Alike links j) (t : Transition) :
    Mirrors (Environment.Linked links) (Agree (HookFailure.Alike links) Eq) (i.passes t)
      (j.passes t) := by
  unfold passes
  cases t.guard with
  | none => exact .done (.ok rfl)
  | some guard =>
    have htest : Mirrors (Environment.Linked links) Eq (i.testGuard guard) (j.testGuard guard) := by
      refine (guard.call_mirrors h.ctx).bind fun answer answer' heq => .look fun w v hw => ?_
      rw [heq, hw.arena _ _ h.ctx.arena]
      exact .ofExcept _
    refine htest.caught.bind fun r s hrs => .done ?_
    cases hrs with
    | ok hab => exact .ok hab
    | error he => exact .error ⟨rfl, h.current, he, h⟩

theorem select_mirrors (h : i.Alike links j) (ts : List Transition) :
    Mirrors (Environment.Linked links) (Agree (HookFailure.Alike links) Eq) (i.select ts)
      (j.select ts) := by
  induction ts with
  | nil => exact .done (.ok rfl)
  | cons t rest ih =>
    refine (passes_mirrors h t).whenOk fun p q hpq => ?_
    subst hpq
    cases p with
    | true => exact .done (.ok rfl)
    | false => exact ih

/-! ## Moves -/

theorem runHook_mirrors (h : i.Alike links j) (hreached : i'.Alike links j') (role : HookRole)
    (state : String) (hook : Option Hook) :
    Mirrors (Environment.Linked links) (Agree (HookFailure.Alike links) fun _ _ => True)
      (i.runHook role state hook i') (j.runHook role state hook j') := by
  cases hook with
  | none => exact .done (.ok trivial)
  | some hook =>
    refine (hook.call_mirrors h.ctx).caught.bind fun r s hrs => .done ?_
    cases hrs with
    | ok => exact .ok trivial
    | error he => exact .error ⟨rfl, rfl, he, hreached⟩

theorem moveBetween_mirrors (h : i.Alike links j) (t : Transition) (source target : State)
    (event : Value) :
    Mirrors (Environment.Linked links) (Agree (HookFailure.Alike links) (Alike links))
      (i.moveBetween t source target event) (j.moveBetween t source target event) := by
  refine (runHook_mirrors h h .onExit source.id source.onExit).whenOk fun _ _ _ => ?_
  refine (runHook_mirrors h h .action source.id t.action).whenOk fun _ _ _ => ?_
  refine readClock_mirrors.bind fun moment moment' _ => ?_
  have hnext := h.moved t target event moment.text moment'.text
  refine (log_mirrors _ _ _ _).bind fun _ _ _ => ?_
  refine (runHook_mirrors h hnext .onEnter target.id target.onEnter).whenOk fun _ _ _ => ?_
  exact .done (.ok hnext)

theorem move_mirrors (h : i.Alike links j) (d : Definition) (t : Transition) (event : Value) :
    Mirrors (Environment.Linked links) (Agree (Setback.Alike links) (Alike links))
      (move d i t event) (move d j t event) := by
  unfold move
  rw [← h.current]
  split
  · exact .done (.error (.stateNotFound _ _))
  split
  · exact .fail _
  · exact .done (.error (.stateNotFound _ _))
  refine (moveBetween_mirrors h t _ _ event).bind fun r s hrs => .done ?_
  cases hrs with
  | ok hnext => exact .ok hnext
  | error hf => exact .error (.hook hf)

/-! ## Operations -/

theorem markFailed_mirrors (h : i.Alike links j) {s s' : Setback} (hs : s.Alike links s') :
    Mirrors (Environment.Linked links) (Alike links) (i.markFailed s) (j.markFailed s') := by
  unfold markFailed
  cases hs with
  | stateNotFound state owner =>
    exact (logFailure_mirrors ..).bind fun _ _ _ => .done (h.failed _)
  | stalled state bound => exact (logFailure_mirrors ..).bind fun _ _ _ => .done (h.failed _)
  | @hook f g hf =>
    dsimp only
    rw [hf.cause]
    exact (logFailure_mirrors ..).bind fun _ _ _ => .done (hf.reached.failed g.cause)

theorem rest_mirrors (h : i.Alike links j) (steps : Nat) :
    Mirrors (Environment.Linked links) (Alike links) (i.rest steps) (j.rest steps) := by
  unfold rest
  rw [← h.status]
  split
  · exact .report (.done h)
  · exact .done h

theorem settleFrom_mirrors (h : i.Alike links j) (bound : Option Int) (rounds steps : Nat) :
    Mirrors (Environment.Linked links) (Alike links) (settleFrom d bound rounds steps i)
      (settleFrom d bound rounds steps j) := by
  induction rounds generalizing steps i j with
  | zero => exact .fail .exhausted
  | succ rounds ih =>
    unfold settleFrom
    rw [← h.status, ← h.current]
    split
    · exact rest_mirrors h steps
    split
    · exact markFailed_mirrors h (.stateNotFound _ _)
    split
    · exact rest_mirrors h steps
    refine (select_mirrors h _).bind fun r r' hr => ?_
    cases hr with
    | error hf => exact markFailed_mirrors h (.hook hf)
    | @ok selected _ hsel =>
      subst hsel
      cases selected with
      | none => exact rest_mirrors h steps
      | some t =>
        dsimp only
        split
        · exact markFailed_mirrors h (.stalled _ _)
        refine (move_mirrors h d t .null).bind fun r r' hr => ?_
        cases hr with
        | error hs => exact markFailed_mirrors h hs
        | ok hnext => exact ih hnext _

theorem settle_mirrors (h : i.Alike links j) (d : Definition) (limits : Limits) :
    Mirrors (Environment.Linked links) (Alike links) (i.settle d limits) (j.settle d limits) :=
  settleFrom_mirrors h _ _ _

theorem refuseWith_mirrors (h : i.Alike links j) {s s' : Setback} (hs : s.Alike links s') :
    Mirrors (Environment.Linked links) (Dispatch.Alike links) (i.refuseWith s) (j.refuseWith s') :=
  (markFailed_mirrors h hs).bind fun _ _ hfailed => .done ⟨hfailed, rfl⟩

/-- **Events go alike on snapshots that are alike.** -/
theorem send_mirrors (h : i.Alike links j) (d : Definition) (limits : Limits) (event : String) :
    Mirrors (Environment.Linked links) (Dispatch.Alike links) (i.send d limits event)
      (j.send d limits event) := by
  unfold send
  rw [← h.status, ← h.current]
  split
  · exact .done ⟨h, rfl⟩
  split
  · exact .done ⟨h, rfl⟩
  split
  · exact .done ⟨h, rfl⟩
  split
  · exact .report (.done ⟨h, rfl⟩)
  refine (select_mirrors h _).bind fun r r' hr => ?_
  cases hr with
  | error hf => exact refuseWith_mirrors h (.hook hf)
  | @ok selected _ hsel =>
    subst hsel
    cases selected with
    | none => exact .done ⟨h, rfl⟩
    | some t =>
      refine (move_mirrors h d t (.text event)).bind fun r r' hr => ?_
      cases hr with
      | error hs => exact refuseWith_mirrors h hs
      | ok hnext =>
        exact (settle_mirrors hnext d limits).bind fun _ _ hsettled => .done ⟨hsettled, rfl⟩

theorem canFire_mirrors (h : i.Alike links j) (d : Definition) (event : String) :
    Mirrors (Environment.Linked links) Eq (i.canFire d event) (j.canFire d event) := by
  unfold canFire
  rw [← h.status, ← h.current]
  split
  · exact .done rfl
  split
  · exact .done rfl
  refine (select_mirrors h _).bind fun r r' hr => ?_
  cases hr with
  | @error f g hf =>
    have hfailure : f.toFailure = g.toFailure := by
      unfold HookFailure.toFailure
      rw [hf.role, hf.state, hf.cause]
    dsimp only
    rw [hfailure]
    exact .fail _
  | ok hsel =>
    subst hsel
    exact .done rfl

end Instance

theorem Definition.fresh_alike {links : Nat → Nat → Prop} {c c' : Context} (hc : c.Alike links c')
    (d : Definition) (id moment moment' : String) :
    (d.fresh c id moment).Alike links (d.fresh c' id moment') :=
  ⟨rfl, rfl, rfl, hc, rfl, rfl, rfl⟩

/-- **Starts go alike on contexts that are alike**, under one id. -/
theorem Definition.startAndSettle_mirrors {links : Nat → Nat → Prop} {c c' : Context}
    (hc : c.Alike links c') (d : Definition) (limits : Limits) (id : String) :
    Mirrors (Environment.Linked links) (Instance.Alike links)
      (d.startAndSettle limits c (some id)) (d.startAndSettle limits c' (some id)) := by
  have hstart : Mirrors (Environment.Linked links) (Instance.Alike links) (d.start c (some id))
      (d.start c' (some id)) := by
    refine readClock_mirrors.bind fun moment moment' _ => (log_mirrors _ _ _ _).bind fun _ _ _ => ?_
    exact .done (d.fresh_alike hc id moment.text moment'.text)
  exact hstart.bind fun i j h => Instance.settle_mirrors h d limits

end Workflow
