import Workflow.Proofs.Run.Stopped
import Workflow.Proofs.Run.Twins

/-!
# Operations that have an answer

A hook that fails makes the run fail, and the operation has an answer, if nothing escapes who is to
blame the hook (`Hook.Caught`). A definition is tame if all its hooks are so and all its targets can
be looked up (`Definition.Tame`).

**Plain hooks** (`Hook.Plain`). If a hook itself raises plain failures only, its call fails with
these very failures (`Hook.Plain.run_call`), and it is caught.

Main result: `settleFrom_failsOnly`. In a tame definition all that can keep settling from an answer
is a cascade that goes on without a bound. Under a bound there are rounds enough.
-/

namespace Workflow

open Activity

/-- Nothing escapes who is to blame the hook for its failures. -/
def Hook.Caught (h : Hook) : Prop := ∀ c, FailsOnly (fun f => f.escape = none) (h.call c)

/-- The hook raises plain failures only. -/
def Hook.Plain (h : Hook) : Prop :=
  ∀ c : Context, FailsOnly Failure.Plain ((h.body c.root).lift (Realm.hookIn c.arena))

/-- All hooks are of a kind, and every target can be looked up. -/
structure Definition.Tame (d : Definition) (P : Hook → Prop) : Prop where
  hooks : ∀ h, d.HasHook h → P h
  targets : ∀ {key : String} {s : State} {t : Transition}, d.state? key = some s →
    t ∈ s.transitions → ∀ f, d.target? t.target ≠ .error f

/-- A plain hook is called as it is: the call answers and fails as the hook itself does. -/
theorem Hook.Plain.run_call {h : Hook} (hh : h.Plain) (c : Context) (e : Environment) :
    ((h.call c).run e).answer = (((h.body c.root).lift (Realm.hookIn c.arena)).run e).answer := by
  unfold Hook.call
  simp only [run, lift_awaited, run_awaited]
  cases hr : (((h.body c.root).lift (Realm.hookIn c.arena)).run e).answer with
  | ok answer => rfl
  | error f => exact congrArg Except.error (hh c e f hr).awaited

theorem Hook.Plain.caught {h : Hook} (hh : h.Plain) : h.Caught := by
  intro c e f hf
  rw [hh.run_call] at hf
  exact (hh c e f hf).escape

theorem Definition.Tame.caught {d : Definition} (hd : d.Tame Hook.Plain) : d.Tame Hook.Caught where
  hooks h hh := (hd.hooks h hh).caught
  targets := hd.targets

namespace Instance

variable {d : Definition} {i j : Instance} {t : Transition} {ts : List Transition} {event : Value}
  {F : Failure → Prop}

/-! ## Guards -/

theorem passes_failsOnly (ht : ∀ h, t.guard = some h → h.Caught) :
    FailsOnly F (i.passes t) := by
  unfold passes
  cases hg : t.guard with
  | none => exact .done _
  | some guard =>
    have htest : FailsOnly (fun f => f.escape = none) (i.testGuard guard) := by
      refine (ht guard hg i.ctx).bind fun _ answer _ => ?_
      intro e f h
      -- Nothing escapes either where an answer is neither true nor false.
      cases answer with
      | datum x => cases h
      | untestable message =>
        cases h
        rfl
    exact htest.caught.bind fun _ r _ => .done _

/-- Guards from which nothing escapes do not stop the selection. -/
theorem select_failsOnly (hts : ∀ t ∈ ts, ∀ h, t.guard = some h → h.Caught) :
    FailsOnly F (i.select ts) := by
  induction ts with
  | nil => exact .done _
  | cons t rest ih =>
    obtain ⟨ht, hrest⟩ := List.forall_mem_cons.1 hts
    refine (passes_failsOnly ht).whenOk fun passed => ?_
    cases passed with
    | true => exact .done _
    | false => exact ih hrest

/-! ## Moves and settling -/

theorem runHook_failsOnly {role : HookRole} {state : String} {hook : Option Hook}
    (hh : ∀ h, hook = some h → h.Caught) : FailsOnly F (i.runHook role state hook j) := by
  cases hook with
  | none => exact .done _
  | some hook => exact (hh hook rfl i.ctx).caught.bind fun _ r _ => .done _

theorem moveBetween_failsOnly {source target : State}
    (hexit : ∀ h, source.onExit = some h → h.Caught)
    (haction : ∀ h, t.action = some h → h.Caught)
    (hentry : ∀ h, target.onEnter = some h → h.Caught) :
    FailsOnly F (i.moveBetween t source target event) := by
  refine (runHook_failsOnly hexit).whenOk fun _ => ?_
  refine (runHook_failsOnly haction).whenOk fun _ => ?_
  have hclock : FailsOnly F readClock := fun _ _ h => nomatch h
  refine hclock.bind fun _ moment _ => ?_
  have hlog : ∀ level message, FailsOnly F (log level message) := fun _ _ _ _ h => nomatch h
  refine (hlog _ _).bind fun _ _ _ => ?_
  exact (runHook_failsOnly hentry).whenOk fun _ => .done _

/-- In a tame definition a move along a transition of the occupied state has an answer. -/
theorem move_failsOnly (hd : d.Tame Hook.Caught) {s : State} (hs : d.state? i.current = some s)
    (ht : t ∈ s.transitions) : FailsOnly F (move d i t event) := by
  unfold move
  rw [hs]
  dsimp only
  split
  next e he => exact absurd he (hd.targets hs ht e)
  next => exact .done _
  next target htarget =>
    obtain ⟨key, -, hkey⟩ := Definition.target?_some htarget
    exact (moveBetween_failsOnly (fun h hh => hd.hooks h (.exit hs hh))
      (fun h hh => hd.hooks h (.action hs ht hh))
      (fun h hh => hd.hooks h (.entry hkey hh))).bind fun _ r _ => .done _

theorem markFailed_failsOnly (s : Setback) : FailsOnly F (i.markFailed s) := by
  intro e f h
  rw [(run_markFailed i s e).1] at h
  cases h

theorem rest_failsOnly (steps : Nat) : FailsOnly F (i.rest steps) := by
  unfold rest
  split
  · exact fun _ _ h => nomatch h
  · exact .done _

/-- In a tame definition settling has an answer, unless no bound is given and the rounds are used
up. Under a bound there is a round for each move and one more. -/
theorem settleFrom_failsOnly (hd : d.Tame Hook.Caught) {bound : Option Int} {rounds steps : Nat}
    (hrounds : ∀ n, bound = some n → 0 < rounds ∧ n.toNat + 1 ≤ rounds + steps) :
    FailsOnly (fun f => f = .exhausted ∧ bound = none) (settleFrom d bound rounds steps i) := by
  induction rounds generalizing steps i with
  | zero =>
    intro e f h
    cases h
    refine ⟨rfl, ?_⟩
    cases bound with
    | none => rfl
    | some n => exact absurd (hrounds n rfl).1 (Nat.lt_irrefl 0)
  | succ rounds ih =>
    unfold settleFrom
    split
    · exact rest_failsOnly steps
    split
    · exact markFailed_failsOnly _
    next state hs =>
    split
    · exact rest_failsOnly steps
    have hguards : ∀ t ∈ state.autoTransitions, ∀ h, t.guard = some h → h.Caught :=
      fun t ht h hh => hd.hooks h (.guard hs (List.mem_filter.1 ht).1 hh)
    refine (select_failsOnly hguards).bind fun e r hsel => ?_
    rcases r with f | _ | t
    · exact markFailed_failsOnly _
    · exact rest_failsOnly steps
    have ht : t ∈ state.transitions :=
      (List.mem_filter.1 (select_mem (hsel ▸ canEnd_run _ e))).1
    dsimp only
    split
    · exact markFailed_failsOnly _
    next hmet =>
    refine (move_failsOnly hd hs ht).bind fun _ r _ => ?_
    rcases r with s | next
    · exact markFailed_failsOnly s
    · refine ih fun n hn => ?_
      obtain ⟨-, hle⟩ := hrounds n hn
      have hsteps : ¬ n ≤ steps := by simpa [boundMet, hn] using hmet
      omega

end Instance

end Workflow
