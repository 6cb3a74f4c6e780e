import Workflow.Proofs.Activity.Rules
import Workflow.Proofs.Run.Life

/-!
# What operations touch

The single changes that an operation on an instance makes are those of its hooks to the arena of its
context, and those of the clock and of the count of ids (`Instance.send_alters`,
`Definition.startAndSettle_alters`). So it changes at most that arena, whatever its hooks do
(`Touches`); clock and count of ids apart, all other things stay as they are.

The reason is that an operation never changes which context an instance has (`Instance.send_ctx`):
so all hooks that it calls work on the same one.

An instance that is finished is not touched at all (`Instance.send_of_finished`).
-/

namespace Workflow

open Activity

/-! ## Arenas -/

/-- At most the arenas of `P` are changed, and none is added. -/
structure Environment.SameOff (P : Nat → Prop) (e e' : Environment) : Prop where
  size : e'.contexts.arenas.size = e.contexts.arenas.size
  arena : ∀ n, ¬ P n → e'.arena n = e.arena n

/-- The clock goes on giving the same readings. -/
def Environment.SameReading (e e' : Environment) : Prop := e'.clock.reading = e.clock.reading

namespace Environment

variable {P : Nat → Prop} {e e' : Environment} {n m : Nat} {a : Arena}

theorem SameOff.of_contexts (h : e'.contexts = e.contexts) : SameOff P e e' :=
  ⟨congrArg (·.arenas.size) h, fun n _ => congrArg (·.arena n) h⟩

theorem SameOff.mono {Q : Nat → Prop} (h : SameOff P e e') (hPQ : ∀ n, P n → Q n) :
    SameOff Q e e' :=
  ⟨h.size, fun n hn => h.arena n fun hP => hn (hPQ n hP)⟩

theorem arena_setArena_of_ne (h : n ≠ m) : (e.setArena m a).arena n = e.arena n := by
  show (e.contexts.arenas.setIfInBounds m a).getD n default = e.contexts.arenas.getD n default
  rw [Array.getD_eq_getD_getElem?, Array.getD_eq_getD_getElem?,
    Array.getElem?_setIfInBounds_ne h.symm]

theorem SameOff.setArena (h : P m) : SameOff P e (e.setArena m a) where
  size := Array.size_setIfInBounds ..
  arena _ hn := arena_setArena_of_ne fun heq => hn (heq ▸ h)

end Environment

/-- Work on instances that changes at most the arena of the context. -/
abbrev Touches {α : Type} (c : Context) (t : Activity Realm.flow α) : Prop :=
  t.Alters (Environment.SameOff (· = c.arena))

/-! ## Parts of operations -/

section Parts

variable {G : Environment → Environment → Prop} {c : Context}

theorem Hook.call_alters (harena : ∀ a e, G e (e.setArena c.arena a)) (h : Hook) :
    (h.call c).Alters G :=
  Alters.lift Empty.elim (fun _ _ => harena _ _) _

theorem readClock_alters (htick : ∀ e, G e e.tick) : readClock.Alters G := fun _ => ⟨htick, trivial⟩

theorem log_alters (level : Level) (message : String) : (log level message).Alters G := trivial

theorem logFailure_alters (level : Level) (message : String) (f : Failure) :
    (logFailure level message f).Alters G := by
  unfold logFailure
  split <;> trivial

end Parts

namespace Instance

variable {d : Definition} {i j k : Instance} {c : Context} {t : Transition} {ts : List Transition}
  {event : Value} {limits : Limits} {G : Environment → Environment → Prop}

theorem passes_alters (harena : ∀ a e, G e (e.setArena i.ctx.arena a)) (t : Transition) :
    (i.passes t).Alters G := by
  unfold passes
  split
  · trivial
  next guard _ =>
  have htest : (i.testGuard guard).Alters G :=
    (guard.call_alters harena).bind fun answer _ _ => .ofExcept _
  exact htest.caught.bind fun _ _ => trivial

theorem select_alters (harena : ∀ a e, G e (e.setArena i.ctx.arena a)) (ts : List Transition) :
    (i.select ts).Alters G := by
  induction ts with
  | nil => trivial
  | cons t rest ih =>
    refine (passes_alters harena t).whenOk fun passed => ?_
    cases passed with
    | true => trivial
    | false => exact ih

theorem runHook_alters (harena : ∀ a e, G e (e.setArena i.ctx.arena a)) (role : HookRole)
    (state : String) (hook : Option Hook) (reached : Instance) :
    (i.runHook role state hook reached).Alters G := by
  cases hook with
  | none => trivial
  | some hook => exact (hook.call_alters harena).caught.bind fun _ _ => trivial

theorem moveBetween_alters (harena : ∀ a e, G e (e.setArena i.ctx.arena a))
    (htick : ∀ e, G e e.tick) (t : Transition) (source target : State) (event : Value) :
    (i.moveBetween t source target event).Alters G := by
  refine (runHook_alters harena ..).whenOk fun _ => (runHook_alters harena ..).whenOk fun _ => ?_
  refine (readClock_alters htick).bind fun moment _ => (log_alters _ _).bind fun _ _ => ?_
  exact (runHook_alters harena ..).whenOk fun _ => trivial

theorem move_alters (harena : ∀ a e, G e (e.setArena i.ctx.arena a)) (htick : ∀ e, G e e.tick)
    (d : Definition) (t : Transition) (event : Value) : (move d i t event).Alters G := by
  unfold move
  split
  · trivial
  split
  · trivial
  · trivial
  · exact (moveBetween_alters harena htick ..).bind fun _ _ => trivial

theorem markFailed_alters (s : Setback) : (i.markFailed s).Alters G :=
  (logFailure_alters _ _ _).bind fun _ _ => trivial

theorem rest_alters (steps : Nat) : (i.rest steps).Alters G := by
  unfold rest
  split
  · exact (log_alters _ _).bind fun _ _ => trivial
  · trivial

/-! ## The context stays -/

theorem Moves.ctx (h : Moves d i event j) : j.ctx = i.ctx := by
  cases h
  rfl

theorem Path.ctx {events : List Value} (h : Path d i events j) : j.ctx = i.ctx := by
  induction h with
  | stay => rfl
  | go hm _ ih => exact ih.trans hm.ctx

theorem EndsAs.ctx (h : EndsAs i j) : j.ctx = i.ctx := by
  cases h <;> rfl

theorem settle_ctx (h : (i.settle d limits).CanEnd (.ok j)) : j.ctx = i.ctx := by
  obtain ⟨n, k, hpath, hend⟩ := settle_path h
  exact hend.ctx.trans hpath.ctx

theorem send_ctx {name : String} {out : Dispatch}
    (h : (i.send d limits name).CanEnd (.ok out)) : out.reached.ctx = i.ctx := by
  rcases send_path h with hend | ⟨j, n, k, hm, hpath, hend⟩
  · exact hend.ctx
  · exact hend.ctx.trans (hpath.ctx.trans hm.ctx)

/-- Where a move succeeds, it leads to an instance with the same context. -/
theorem move_ctx (h : (move d i t event).CanEnd (.ok (.ok j))) : j.ctx = i.ctx := by
  obtain ⟨source, target, moment, -, -, rfl⟩ := move_ok h
  rfl

/-! ## Operations -/

theorem settleFrom_alters (harena : ∀ a e, G e (e.setArena i.ctx.arena a))
    (htick : ∀ e, G e e.tick) (bound : Option Int) (rounds steps : Nat) :
    (settleFrom d bound rounds steps i).Alters G := by
  induction rounds generalizing steps i with
  | zero => trivial
  | succ rounds ih =>
    unfold settleFrom
    split
    · exact rest_alters _
    split
    · exact markFailed_alters _
    split
    · exact rest_alters _
    refine (select_alters harena _).bind fun selected _ => ?_
    rcases selected with f | _ | t
    · exact markFailed_alters _
    · exact rest_alters _
    dsimp only
    split
    · exact markFailed_alters _
    refine (move_alters harena htick d t .null).bind fun result hresult => ?_
    rcases result with s | next
    · exact markFailed_alters _
    · exact ih (i := next) ((move_ctx hresult).symm ▸ harena) (steps + 1)

theorem settle_alters (harena : ∀ a e, G e (e.setArena i.ctx.arena a)) (htick : ∀ e, G e e.tick) :
    (i.settle d limits).Alters G :=
  settleFrom_alters harena htick limits.bound limits.budget 0

/-- **The changes of an event** are those of the arena and of the clock. -/
theorem send_alters (harena : ∀ a e, G e (e.setArena i.ctx.arena a)) (htick : ∀ e, G e e.tick)
    (d : Definition) (limits : Limits) (event : String) : (i.send d limits event).Alters G := by
  unfold send
  split
  · trivial
  split
  · trivial
  split
  · trivial
  split
  · exact (log_alters _ _).bind fun _ _ => trivial
  refine (select_alters harena _).bind fun selected _ => ?_
  rcases selected with f | _ | t
  · exact (markFailed_alters _).bind fun _ _ => trivial
  · trivial
  refine (move_alters harena htick d t (.text event)).bind fun result hresult => ?_
  rcases result with s | next
  · exact (markFailed_alters _).bind fun _ _ => trivial
  · exact (settle_alters ((move_ctx hresult).symm ▸ harena) htick).bind fun _ _ => trivial

theorem canFire_alters (harena : ∀ a e, G e (e.setArena i.ctx.arena a)) (d : Definition)
    (event : String) : (i.canFire d event).Alters G := by
  unfold canFire
  split
  · trivial
  split
  · trivial
  refine (select_alters harena _).bind fun selected _ => ?_
  rcases selected with f | selected <;> trivial

theorem touches_select (ts : List Transition) : Touches i.ctx (i.select ts) :=
  select_alters (fun _ _ => .setArena rfl) ts

theorem touches_move (d : Definition) (t : Transition) (event : Value) :
    Touches i.ctx (move d i t event) :=
  move_alters (fun _ _ => .setArena rfl) (fun _ => .of_contexts rfl) d t event

/-- **An event changes at most the arena of the context.** -/
theorem touches_send (d : Definition) (limits : Limits) (i : Instance) (event : String) :
    Touches i.ctx (i.send d limits event) :=
  send_alters (fun _ _ => .setArena rfl) (fun _ => .of_contexts rfl) d limits event

theorem touches_canFire (d : Definition) (i : Instance) (event : String) :
    Touches i.ctx (i.canFire d event) :=
  canFire_alters (fun _ _ => .setArena rfl) d event

theorem send_of_finished (h : ¬ i.isRunning) (d : Definition) (limits : Limits) (event : String) :
    i.send d limits event = .done ⟨i, false⟩ := by
  unfold send
  rw [if_pos (by simpa [isRunning] using h)]
  rfl

theorem canFire_of_finished (h : ¬ i.isRunning) (d : Definition) (event : String) :
    i.canFire d event = .done false := by
  unfold canFire
  rw [if_pos (by simpa [isRunning] using h)]

end Instance

namespace Definition

variable {d : Definition} {limits : Limits} {c : Context} {id : Option String} {i : Instance}

theorem start_alters {G : Environment → Environment → Prop} (htick : ∀ e, G e e.tick)
    (hissued : ∀ n e, G e { e with issued := n }) (d : Definition) (c : Context)
    (id : Option String) : (d.start c id).Alters G := by
  have hid : (idOrIssued id).Alters G := by
    cases id with
    | some id => trivial
    | none => exact fun _ => ⟨fun e => hissued _ e, trivial⟩
  refine hid.bind fun id _ => (readClock_alters htick).bind fun moment _ => ?_
  exact (log_alters _ _).bind fun _ _ => trivial

/-- **The changes of a start** are those of the arena, of the clock and of the count of ids. -/
theorem startAndSettle_alters {G : Environment → Environment → Prop}
    (harena : ∀ a e, G e (e.setArena c.arena a)) (htick : ∀ e, G e e.tick)
    (hissued : ∀ n e, G e { e with issued := n }) (d : Definition) (limits : Limits)
    (id : Option String) : (d.startAndSettle limits c id).Alters G := by
  refine (start_alters htick hissued d c id).bind fun i hi => ?_
  obtain ⟨name, moment, rfl⟩ := start_ok hi
  exact Instance.settle_alters (i := d.fresh c name moment) harena htick

theorem touches_start (d : Definition) (c : Context) (id : Option String) :
    Touches c (d.start c id) :=
  start_alters (fun _ => .of_contexts rfl) (fun _ _ => .of_contexts rfl) d c id

/-- **A start changes at most the arena of the context.** -/
theorem touches_startAndSettle (d : Definition) (limits : Limits) (c : Context)
    (id : Option String) : Touches c (d.startAndSettle limits c id) :=
  startAndSettle_alters (fun _ _ => .setArena rfl) (fun _ => .of_contexts rfl)
    (fun _ _ => .of_contexts rfl) d limits id

theorem startAndSettle_ctx (h : (d.startAndSettle limits c id).CanEnd (.ok i)) : i.ctx = c := by
  obtain ⟨i₀, hi₀, h⟩ := canEnd_bind_ok h
  obtain ⟨name, moment, rfl⟩ := start_ok hi₀
  exact Instance.settle_ctx h

end Definition

end Workflow
