import Workflow.Proofs.Activity.Alone
import Workflow.Proofs.Hook.Calls
import Workflow.Proofs.Run.Twins

/-!
# What a bound cuts off

Two runs of settling from the same start, of which one has a bound and the other goes further.

**Readings** (`Reads`). The clock is read once for each move that is recorded, and never else. So
the readings count the moves of a run, with or without an answer.

**Due moves** (`Instance.Due`). Settling has selected a transition and would move along it. This is
where a bound is looked at, after the guards and before the exit hook.

**Strides** (`Instance.Strides`). Moves that were due one after the other, and succeeded.

Main result: `settle_truncates`. The two runs are the same unless a move is due after as many
strides as the bound allows. There the bounded run fails, and the other one goes on.
-/

namespace Workflow

open Activity

/-! ## Readings of the clock -/

/-- The clock is read a number of times, which a relation tells together with the ending. -/
def Reads {α : Type} (P : Nat → Except Failure α → Prop) (t : Activity Realm.flow α) : Prop :=
  ∀ e, ∃ n, (t.run e).world.clock.taken = e.clock.taken + n ∧ P n (t.run e).answer

namespace Reads

variable {α β ε : Type} {P : Nat → Except Failure α → Prop} {Q : Nat → Except Failure β → Prop}
  {t : Activity Realm.flow α}

theorem done {a : α} (h : P 0 (.ok a)) : Reads P (.done a) := fun _ => ⟨0, rfl, h⟩

theorem fail {f : Failure} (h : P 0 (.error f)) : Reads P (.fail f) := fun _ => ⟨0, rfl, h⟩

theorem mono {P' : Nat → Except Failure α → Prop} (ht : Reads P t)
    (h : ∀ n r, t.CanEnd r → P n r → P' n r) : Reads P' t := by
  intro e
  obtain ⟨n, hn, hP⟩ := ht e
  exact ⟨n, hn, h n _ (canEnd_run t e) hP⟩

/-- The readings of a sequence are those of its parts. -/
theorem bind {g : α → Activity Realm.flow β} (ht : Reads P t)
    (hok : ∀ n a, t.CanEnd (.ok a) → P n (.ok a) → Reads (fun m r => Q (n + m) r) (g a))
    (herror : ∀ n f, P n (.error f) → Q n (.error f)) : Reads Q (t.bind g) := by
  intro e
  obtain ⟨n, hn, hP⟩ := ht e
  have hend := canEnd_run t e
  cases hr : (t.run e).answer with
  | error f =>
    rw [run_bind_of_error hr]
    exact ⟨n, hn, herror n f (hr ▸ hP)⟩
  | ok a =>
    obtain ⟨m, hm, hQ⟩ := hok n a (hr ▸ hend) (hr ▸ hP) (t.run e).world
    rw [run_bind_of_ok hr]
    exact ⟨n + m, by rw [hm, hn, Nat.add_assoc], hQ⟩

end Reads

/-- The clock is not read. -/
abbrev Timeless {α : Type} (t : Activity Realm.flow α) : Prop := Reads (fun n _ => n = 0) t

namespace Timeless

variable {α β ε : Type} {Q : Nat → Except Failure β → Prop} {t : Activity Realm.flow α}

theorem done (a : α) : Timeless (.done a) := Reads.done rfl

theorem bind {g : α → Activity Realm.flow β} (ht : Timeless t)
    (hok : ∀ a, t.CanEnd (.ok a) → Reads Q (g a)) (herror : ∀ f, Q 0 (.error f)) :
    Reads Q (t.bind g) := by
  refine Reads.bind ht (fun n a ha hn => ?_) fun n f hn => hn ▸ herror f
  subst hn
  simpa only [Nat.zero_add] using hok a ha

theorem whenOk {Q : Nat → Except Failure (Except ε β) → Prop}
    {t : Activity Realm.flow (Except ε α)} {g : α → Activity Realm.flow (Except ε β)}
    (ht : Timeless t) (hok : ∀ a, Reads Q (g a))
    (herror : ∀ x, t.CanEnd (.ok (.error x)) → Q 0 (.ok (.error x)))
    (hfail : ∀ f, Q 0 (.error f)) : Reads Q (t.whenOk g) := by
  refine ht.bind (fun x hx => ?_) hfail
  cases x with
  | ok a => exact hok a
  | error x => exact .done (herror x hx)

theorem caught (ht : Timeless t) : Timeless t.caught := by
  intro e
  obtain ⟨n, hn, rfl⟩ := ht e
  refine ⟨0, ?_, rfl⟩
  rw [run_caught]
  cases (t.run e).answer <;> exact hn

theorem ofExcept (r : Except Failure α) : Timeless (Activity.ofExcept r) := by
  cases r with
  | ok a => exact .done a
  | error f => exact Reads.fail rfl

theorem log (level : Level) (message : String) : Timeless (log level message) :=
  fun _ => ⟨0, rfl, rfl⟩

/-- Hooks work on an arena, and cannot read the clock. -/
theorem call (hook : Hook) (c : Context) : Timeless (hook.call c) := by
  suffices ∀ (u : Activity Realm.hook HookAnswer) e,
      ((u.lift (Realm.hookIn c.arena)).run e).world.clock = e.clock from
    fun e => ⟨0, congrArg Clock.taken (this (hook.body c.root).awaited e), rfl⟩
  intro u
  induction u with
  | done | fail => exact fun _ => rfl
  | look k ih => exact fun e => ih _ e
  | update f next ih => exact fun e => ih _
  | report r next ih => exact ih
  | pause k ih => exact ih .resume
  | acquire key next ih => exact key.elim
  | release key next ih => exact key.elim

end Timeless

namespace Instance

variable {d : Definition} {i j k : Instance} {t : Transition} {ts : List Transition}
  {event : Value} {e e' : Environment} {source : State}

theorem passes_timeless (t : Transition) : Timeless (i.passes t) := by
  unfold passes
  split
  · exact .done _
  next guard _ =>
  have htest : Timeless (i.testGuard guard) :=
    (Timeless.call guard i.ctx).bind (fun answer _ e => Timeless.ofExcept _ e) fun _ => rfl
  exact htest.caught.bind (fun _ _ => Timeless.done _) fun _ => rfl

theorem select_timeless (ts : List Transition) : Timeless (i.select ts) := by
  induction ts with
  | nil => exact .done _
  | cons t rest ih =>
    refine (passes_timeless t).whenOk (fun passed => ?_) (fun _ _ => rfl) fun _ => rfl
    cases passed with
    | true => exact Timeless.done _
    | false => exact ih

theorem runHook_timeless (role : HookRole) (state : String) (hook : Option Hook)
    (reached : Instance) : Timeless (i.runHook role state hook reached) := by
  cases hook with
  | none => exact .done _
  | some hook =>
    exact (Timeless.call hook i.ctx).caught.bind (fun _ _ => Timeless.done _) fun _ => rfl

/-- The readings of a move, which are the visits that it adds: one if it succeeds, and at most one
if it does not. -/
structure MoveReads {ε : Type} (i : Instance) (reached : ε → Instance) (n : Nat)
    (r : Except Failure (Except ε Instance)) : Prop where
  le : n ≤ 1
  ok : ∀ j, r = .ok (.ok j) → n = 1 ∧ j.history.length = i.history.length + 1
  error : ∀ x, r = .ok (.error x) → (reached x).history.length = i.history.length + n

theorem MoveReads.fail {ε : Type} {reached : ε → Instance} {n : Nat} (h : n ≤ 1) (f : Failure) :
    MoveReads i reached n (.error f) :=
  ⟨h, nofun, nofun⟩

theorem MoveReads.stopped {ε : Type} {reached : ε → Instance} {n : Nat} (h : n ≤ 1) {x : ε}
    (hx : (reached x).history.length = i.history.length + n) :
    MoveReads i reached n (.ok (.error x)) :=
  ⟨h, nofun, fun _ hx' => Except.error.inj (Except.ok.inj hx') ▸ hx⟩

theorem moveBetween_reads (t : Transition) (source target : State) (event : Value) :
    Reads (MoveReads i HookFailure.reached) (i.moveBetween t source target event) := by
  have hstay : ∀ {role state hook} (x : HookFailure),
      (i.runHook role state hook i).CanEnd (.ok (.error x)) →
        MoveReads i HookFailure.reached 0 (.ok (.error x)) := fun x hx =>
    .stopped (Nat.zero_le 1) (by rw [runHook_error hx, Nat.add_zero])
  refine (runHook_timeless _ _ _ _).whenOk (fun _ => ?_) hstay fun f => .fail (Nat.zero_le 1) f
  refine (runHook_timeless _ _ _ _).whenOk (fun _ => ?_) hstay fun f => .fail (Nat.zero_le 1) f
  have hclock : Reads (fun n _ => n = 1) readClock := fun _ => ⟨1, rfl, rfl⟩
  refine hclock.bind (fun n moment _ hn => ?_) fun n f hn => .fail (Nat.le_of_eq hn) f
  subst hn
  refine (Timeless.log _ _).bind (fun _ _ => ?_) fun f => .fail (Nat.le_refl 1) f
  have hlength := i.moved_length t target event moment.text
  refine (runHook_timeless _ _ _ _).whenOk (fun _ => .done ?_) (fun x hx => ?_)
    fun f => .fail (Nat.le_refl 1) f
  · exact ⟨Nat.le_refl 1, fun j hj => by cases hj; exact ⟨rfl, hlength⟩, nofun⟩
  · exact .stopped (Nat.le_refl 1) (by rw [runHook_error hx, hlength])

theorem move_reads (d : Definition) (t : Transition) (event : Value) :
    Reads (MoveReads i (Setback.reached i)) (move d i t event) := by
  unfold move
  split
  · exact .done (.stopped (Nat.zero_le 1) rfl)
  split
  · exact .fail (.fail (Nat.zero_le 1) _)
  · exact .done (.stopped (Nat.zero_le 1) rfl)
  refine (moveBetween_reads _ _ _ _).bind (fun n r _ hr => ?_) fun n f hf => .fail hf.le f
  cases r with
  | ok j =>
    obtain ⟨rfl, hj⟩ := hr.ok j rfl
    exact .done ⟨Nat.le_refl 1, fun j' hj' => by cases hj'; exact ⟨rfl, hj⟩, nofun⟩
  | error x => exact .done (.stopped hr.le (hr.error x rfl))

/-- The readings of settling from a snapshot: at most so many, and one for each visit added. -/
structure SettleReads (i : Instance) (most n : Nat) (r : Except Failure Instance) : Prop where
  le : n ≤ most
  ok : ∀ j, r = .ok j → j.history.length = i.history.length + n

theorem markFailed_reads (s : Setback) :
    Reads (fun n r => n = 0 ∧ ∀ j, r = .ok j → j.history = (s.reached i).history)
      (i.markFailed s) := by
  refine fun e => ⟨0, ?_, rfl, fun j hj => ?_⟩
  · rw [(run_markFailed i s e).2, Nat.add_zero]
  · rw [(run_markFailed i s e).1] at hj
    cases hj
    rfl

theorem rest_reads (steps : Nat) :
    Reads (fun n r => n = 0 ∧ ∀ j, r = .ok j → j = i) (i.rest steps) := by
  have hrest : Timeless (i.rest steps) := by
    unfold rest
    split
    · exact (Timeless.log _ _).bind (fun _ _ => Timeless.done _) fun _ => rfl
    · exact Timeless.done _
  exact hrest.mono fun n r hr hn => ⟨hn, fun j hj => rest_ok (hj ▸ hr)⟩

/-- **Under a bound no more moves are made than the bound allows**, whatever comes of the run. -/
theorem settleFrom_reads {rounds steps most : Nat} {bound : Option Int}
    (hbound : bound = some ((steps + most : Nat) : Int)) :
    Reads (SettleReads i most) (settleFrom d bound rounds steps i) := by
  induction rounds generalizing steps most i with
  | zero => exact .fail ⟨Nat.zero_le most, nofun⟩
  | succ rounds ih =>
    have hrest : Reads (SettleReads i most) (i.rest steps) :=
      (rest_reads steps).mono fun n r _ hr => ⟨hr.1 ▸ Nat.zero_le most, fun j hj => by
        rw [hr.2 j hj, hr.1, Nat.add_zero]⟩
    have hfailed : ∀ s : Setback, (s.reached i).history = i.history →
        Reads (SettleReads i most) (i.markFailed s) := fun s hs =>
      (markFailed_reads s).mono fun n r _ hr => ⟨hr.1 ▸ Nat.zero_le most, fun j hj => by
        rw [hr.2 j hj, hs, hr.1, Nat.add_zero]⟩
    unfold settleFrom
    split
    · exact hrest
    split
    · exact hfailed _ rfl
    next state _ =>
    split
    · exact hrest
    refine (select_timeless _).bind (fun r hsel => ?_) fun f => ⟨Nat.zero_le most, nofun⟩
    rcases r with f | _ | t
    · exact hfailed (.hook f) (congrArg Instance.history (select_error_reached hsel))
    · exact hrest
    dsimp only
    split
    · exact hfailed _ rfl
    next hmet =>
    -- One more move is made only where one is left.
    obtain ⟨most, rfl⟩ : ∃ m, most = m + 1 := by
      refine Nat.exists_eq_succ_of_ne_zero fun h0 => ?_
      simp [boundMet, hbound, h0] at hmet
    refine (move_reads d t .null).bind (fun n r _ hr => ?_) fun n f hf =>
      ⟨Nat.le_trans hf.le (Nat.le_add_left 1 most), nofun⟩
    cases r with
    | error s =>
      refine (markFailed_reads s).mono fun m r _ hm => ?_
      obtain ⟨rfl, hj⟩ := hm
      exact ⟨Nat.le_trans hr.le (Nat.le_add_left 1 most), fun j hj' => by
        rw [hj j hj', hr.error s rfl, Nat.add_zero]⟩
    | ok j =>
      obtain ⟨rfl, hj⟩ := hr.ok j rfl
      have hnext : bound = some ((steps + 1 + most : Nat) : Int) := by
        rw [hbound, Nat.add_assoc, Nat.add_comm 1 most]
      refine (ih hnext).mono fun m r _ hm => ⟨by have := hm.le; omega, fun k hk => ?_⟩
      rw [hm.ok k hk, hj, Nat.add_assoc]

/-! ## Strides -/

/-- Settling has selected a transition, and would move along it. -/
structure Due (d : Definition) (i : Instance) (e : Environment) (source : State) (t : Transition) :
    Prop where
  running : i.status = .running
  occupied : d.state? i.current = some source
  auto : source.kind = .auto
  selected : ((i.select source.autoTransitions).run e).answer = .ok (.ok (some t))

/-- A move that was due and succeeded, with what was reported. -/
inductive Stride (d : Definition) (i : Instance) (e : Environment) :
    List Record → Instance → Environment → Prop
  | make {source : State} {t : Transition} {j : Instance} {guarded moved : Environment}
      {guards hooks : List Record} (due : Due d i e source t) :
      (i.select source.autoTransitions).run e = ⟨.ok (.ok (some t)), guarded, guards⟩ →
      (move d i t .null).run guarded = ⟨.ok (.ok j), moved, hooks⟩ →
      Stride d i e (guards ++ hooks) j moved

/-- Strides one after the other. -/
inductive Strides (d : Definition) :
    Nat → Instance → Environment → List Record → Instance → Environment → Prop
  | stay (i : Instance) (e : Environment) : Strides d 0 i e [] i e
  | go {n : Nat} {i j k : Instance} {e e₁ e₂ : Environment} {first later : List Record} :
      Stride d i e first j e₁ → Strides d n j e₁ later k e₂ →
      Strides d (n + 1) i e (first ++ later) k e₂

/-- After so many strides one more move is due. -/
def Overruns (d : Definition) (n : Nat) (i : Instance) (e : Environment) : Prop :=
  ∃ records j e' source t, Strides d n i e records j e' ∧ Due d j e' source t

variable {bound bound' : Option Int} {rounds rounds' steps n : Nat} {records : List Record}

/-- A round in which a move is due, up to the look at the bound. -/
theorem Due.run_settleFrom (h : Due d i e source t) (bound : Option Int) (rounds steps : Nat) :
    (settleFrom d bound (rounds + 1) steps i).run e =
      ((i.select source.autoTransitions).run e).andThen fun _ =>
        match boundMet bound steps with
        | some n => i.markFailed (.stalled source.id n)
        | none =>
          (move d i t .null).bind fun
            | .error s => i.markFailed s
            | .ok next => settleFrom d bound rounds (steps + 1) next := by
  have hauto : source.autoTransitions.isEmpty = false := by
    cases hts : source.autoTransitions with
    | nil =>
      have hsel := h.selected
      rw [hts] at hsel
      cases hsel
    | cons => rfl
  rw [settleFrom, if_neg (by simp [h.running])]
  simp only [h.occupied]
  rw [if_neg (by simp [h.auto, hauto]), run_bind]
  cases hselect : (i.select source.autoTransitions).run e with
  | mk selected guarded guards =>
  obtain rfl : selected = .ok (.ok (some t)) := by rw [← h.selected, hselect]
  rfl

/-- A round in which no move is due comes out the same under every bound. -/
theorem run_settleFrom_of_not_due (h : ∀ source t, ¬ Due d i e source t)
    (bound bound' : Option Int) (rounds rounds' steps : Nat) :
    (settleFrom d bound (rounds + 1) steps i).run e =
      (settleFrom d bound' (rounds' + 1) steps i).run e := by
  rw [settleFrom, settleFrom]
  split
  · rfl
  next hr =>
  split
  · rfl
  next source hs =>
  split
  · rfl
  next hk =>
  rw [run_bind, run_bind]
  unfold Outcome.andThen
  cases hsel : ((i.select source.autoTransitions).run e).answer with
  | error f => rfl
  | ok r =>
    rcases r with f | _ | t
    · rfl
    · rfl
    · have hkind : source.kind = .auto := by simp_all
      exact absurd ⟨by simpa using hr, hs, hkind, hsel⟩ (h source t)

/-- A round that makes a stride. -/
theorem Stride.run_settleFrom (h : Stride d i e records j e') (hmet : boundMet bound steps = none)
    (rounds : Nat) : (settleFrom d bound (rounds + 1) steps i).run e =
      ((settleFrom d bound rounds (steps + 1) j).run e').after records := by
  obtain ⟨hdue, hselect, hmove⟩ := h
  rw [hdue.run_settleFrom, hselect]
  simp only [Outcome.andThen, hmet, run_bind, hmove, Outcome.after, List.append_assoc]

theorem boundMet_eq_none (h : ∀ m, bound = some m → (steps : Int) < m) :
    boundMet bound steps = none := by
  cases bound with
  | none => rfl
  | some m =>
    have hm := h m rfl
    simp [boundMet, hm]

/-- Settling makes its strides as long as the bound allows them. -/
theorem Strides.run_settleFrom (h : Strides d n i e records j e')
    (hbound : ∀ m, bound = some m → ((steps + n : Nat) : Int) ≤ m) (rounds : Nat) :
    (settleFrom d bound (rounds + n) steps i).run e =
      ((settleFrom d bound rounds (steps + n) j).run e').after records := by
  induction h generalizing steps with
  | stay i e => rfl
  | @go n i j k e e₁ e₂ first later hfirst hlater ih =>
    have hmet : boundMet bound steps = none :=
      boundMet_eq_none fun m hm => by have := hbound m hm; omega
    have hrest : ∀ m, bound = some m → ((steps + 1 + n : Nat) : Int) ≤ m :=
      fun m hm => by have := hbound m hm; omega
    have hsteps : steps + (n + 1) = steps + 1 + n := by omega
    rw [← Nat.add_assoc, hfirst.run_settleFrom hmet, ih hrest, hsteps]
    simp only [Outcome.after, List.append_assoc]

/-- A stride reads the clock once and adds one visit. -/
theorem Stride.counts (h : Stride d i e records j e') :
    e'.clock.taken = e.clock.taken + 1 ∧ j.history.length = i.history.length + 1 := by
  obtain ⟨-, hselect, hmove⟩ := h
  next guarded guards hooks =>
  obtain ⟨m, hm, rfl⟩ := select_timeless _ e
  obtain ⟨n, hn, hcount⟩ := move_reads d _ .null guarded
  rw [hselect] at hm
  rw [hmove] at hn hcount
  obtain ⟨rfl, hj⟩ := hcount.ok j rfl
  exact ⟨hn.trans (congrArg (· + 1) hm), hj⟩

theorem Strides.counts (h : Strides d n i e records j e') :
    e'.clock.taken = e.clock.taken + n ∧ j.history.length = i.history.length + n := by
  induction h with
  | stay i e => exact ⟨rfl, rfl⟩
  | go hfirst _ ih =>
    obtain ⟨hclock, hhistory⟩ := hfirst.counts
    rw [ih.1, ih.2, hclock, hhistory]
    omega

/-! ## The same start under two bounds -/

/-- The move that is due succeeds, or it ends settling in one way under every bound that allows
it. -/
theorem Due.stride_or_ends (h : Due d i e source t) :
    (∃ records j e', Stride d i e records j e') ∨
      ∃ o, ∀ bound rounds steps, boundMet bound steps = none →
        (settleFrom d bound (rounds + 1) steps i).run e = o := by
  cases hselect : (i.select source.autoTransitions).run e with
  | mk selected guarded guards =>
  obtain rfl : selected = .ok (.ok (some t)) := by rw [← h.selected, hselect]
  cases hmove : (move d i t .null).run guarded with
  | mk answer moved hooks =>
  rcases answer with f | s | j
  · refine .inr ⟨⟨.error f, moved, guards ++ hooks⟩, fun bound rounds steps hmet => ?_⟩
    rw [h.run_settleFrom, hselect]
    simp only [Outcome.andThen, hmet, run_bind, hmove]
  · refine .inr ⟨((i.markFailed s).run moved).after (guards ++ hooks), ?_⟩
    intro bound rounds steps hmet
    rw [h.run_settleFrom, hselect]
    simp only [Outcome.andThen, Outcome.after, hmet, run_bind, hmove, List.append_assoc]
  · exact .inl ⟨guards ++ hooks, j, moved, .make h hselect hmove⟩

/-- Settling that makes no more moves than its bound allows goes as it does under another one. -/
theorem run_settleFrom_of_not_overruns (h : ¬ Overruns d n i e)
    (hbound : ∀ m, bound = some m → ((steps + n : Nat) : Int) ≤ m) (hrounds : n < rounds)
    (hbound' : ∀ m, bound' = some m → ((steps + n : Nat) : Int) ≤ m)
    (hends : n < rounds' ∨
      ((settleFrom d bound' rounds' steps i).run e).answer ≠ .error .exhausted) :
    (settleFrom d bound rounds steps i).run e = (settleFrom d bound' rounds' steps i).run e := by
  induction rounds generalizing n i e steps rounds' with
  | zero => exact absurd hrounds (Nat.not_lt_zero n)
  | succ rounds ih =>
  cases rounds' with
  | zero => exact absurd rfl (hends.resolve_left (Nat.not_lt_zero n))
  | succ rounds' =>
  by_cases hdue : ∃ source t, Due d i e source t
  · obtain ⟨source, t, hdue⟩ := hdue
    cases n with
    | zero => exact absurd ⟨[], i, e, source, t, .stay i e, hdue⟩ h
    | succ n =>
    have hmet : boundMet bound steps = none :=
      boundMet_eq_none fun m hm => by have := hbound m hm; omega
    have hmet' : boundMet bound' steps = none :=
      boundMet_eq_none fun m hm => by have := hbound' m hm; omega
    rcases hdue.stride_or_ends with ⟨records, j, e₁, hstride⟩ | ⟨o, ho⟩
    · have hnext : ¬ Overruns d n j e₁ := by
        rintro ⟨later, k, e₂, source', t', hstrides, hlast⟩
        exact h ⟨_, k, e₂, source', t', .go hstride hstrides, hlast⟩
      rw [hstride.run_settleFrom hmet'] at hends
      rw [hstride.run_settleFrom hmet, hstride.run_settleFrom hmet']
      have hsteps : steps + (n + 1) = steps + 1 + n := by omega
      rw [hsteps] at hbound hbound'
      exact congrArg _ (ih hnext hbound (Nat.lt_of_succ_lt_succ hrounds) hbound'
        (hends.imp_left Nat.lt_of_succ_lt_succ))
    · rw [ho _ _ _ hmet, ho _ _ _ hmet']
  · exact run_settleFrom_of_not_due (fun source t hst => hdue ⟨source, t, hst⟩) ..

/-! ## Histories -/

/-- The second history is the first, or the first with its last visit closed and others added. -/
def Prolongs (before after : List Visit) : Prop :=
  after = before ∨ ∃ moment added, after = closeLast moment before ++ added

/-- What prolongs a history with one more visit prolongs the history. -/
theorem Prolongs.of_visit {moment : String} {before after : List Visit} {v : Visit}
    (h : Prolongs (closeLast moment before ++ [v]) after) : Prolongs before after := by
  rcases h with rfl | ⟨moment', added, rfl⟩
  · exact .inr ⟨moment, [v], rfl⟩
  · refine .inr ⟨moment, closeLast moment' [v] ++ added, ?_⟩
    rw [closeLast_append_cons, List.append_assoc]

theorem Path.prolongs {events : List Value} (h : Path d i events k) :
    Prolongs i.history k.history := by
  induction h with
  | stay i => exact .inl rfl
  | go hm _ ih =>
    obtain ⟨moment, -, -, -, -, -, -⟩ := hm
    exact ih.of_visit

theorem settleFrom_prolongs
    (h : (settleFrom d bound rounds steps i).CanEnd (.ok k)) : Prolongs i.history k.history := by
  obtain ⟨n, j, hpath, hend⟩ := settleFrom_path h
  cases hend with
  | well => exact hpath.prolongs
  | failed => exact hpath.prolongs

/-! ## What the bound cuts off -/

theorem Limits.lt_budget {l : Limits} {m : Int} (hm : l.bound = some m) (hn : (n : Int) ≤ m) :
    n < l.budget := by
  unfold Limits.budget
  rw [hm]
  dsimp only
  omega

/-- A run that is cut off, beside one that is not: it has made its strides and found one more move
due. What it has done is an initial part of what the other one does. -/
structure CutOff (d : Definition) (n : Nat) (i : Instance) (e : Environment)
    (short long : Outcome Realm.flow Instance) (records : List Record) (j : Instance)
    (e' : Environment) (source : State) : Prop where
  strides : Strides d n i e records j e'
  clock : e'.clock.taken = e.clock.taken + n
  visits : j.history.length = i.history.length + n
  occupied : d.state? j.current = some source
  auto : source.kind = .auto
  answer : short.answer = .ok (j.failed (.stalled source.id n))
  called : calls short.reports <+: calls long.reports
  prolonged : ∀ k, long.answer = .ok k → Prolongs j.history k.history

/-- Settling that is not given up has a round for each stride and one more. -/
theorem Strides.lt_rounds (h : Strides d n i e records j e')
    (hbound : ∀ m, bound = some m → ((steps + n : Nat) : Int) ≤ m)
    (hends : ((settleFrom d bound rounds steps i).run e).answer ≠ .error .exhausted) :
    n < rounds := by
  induction h generalizing rounds steps with
  | stay i e =>
    cases rounds with
    | zero => exact absurd rfl hends
    | succ rounds => exact Nat.succ_pos rounds
  | @go n i j k e e₁ e₂ first later hfirst hlater ih =>
    cases rounds with
    | zero => exact absurd rfl hends
    | succ rounds =>
    have hmet : boundMet bound steps = none :=
      boundMet_eq_none fun m hm => by have := hbound m hm; omega
    rw [hfirst.run_settleFrom hmet] at hends
    have hsteps : steps + (n + 1) = steps + 1 + n := by omega
    exact Nat.succ_lt_succ (ih (hsteps ▸ hbound) hends)

theorem Due.run_stalled {m : Int} (h : Due d i e source t) (hmet : boundMet bound steps = some m)
    (rounds : Nat) :
    ((settleFrom d bound (rounds + 1) steps i).run e).answer =
        .ok (i.failed (.stalled source.id m)) ∧
      ∃ message, ((settleFrom d bound (rounds + 1) steps i).run e).reports =
        ((i.select source.autoTransitions).run e).reports ++ [.logged .warning message] := by
  rw [h.run_settleFrom]
  simp only [Outcome.andThen, h.selected, hmet]
  exact ⟨rfl, _, rfl⟩

theorem Due.reports_prefix (h : Due d i e source t) (bound : Option Int) (rounds steps : Nat) :
    ((i.select source.autoTransitions).run e).reports <+:
      ((settleFrom d bound (rounds + 1) steps i).run e).reports := by
  rw [h.run_settleFrom]
  simp only [Outcome.andThen, h.selected]
  exact List.prefix_append _ _

theorem Overruns.cutOff {short long : Limits} (h : Overruns d n i e)
    (hshort : short.bound = some (n : Int))
    (hlong : ∀ m, long.bound = some m → (n : Int) ≤ m)
    (hends : long.bound = none → ((i.settle d long).run e).answer ≠ .error .exhausted) :
    ∃ records j e' source,
      CutOff d n i e ((i.settle d short).run e) ((i.settle d long).run e) records j e' source := by
  obtain ⟨records, j, e', source, t, hstrides, hdue⟩ := h
  obtain ⟨hclock, hvisits⟩ := hstrides.counts
  have hallowed : ∀ {l : Limits}, (∀ m, l.bound = some m → (n : Int) ≤ m) →
      ∀ m, l.bound = some m → ((0 + n : Nat) : Int) ≤ m :=
    fun hl m hm => by simpa using hl m hm
  -- Both runs are the strides and what comes after.
  have hrun : ∀ l : Limits, (∀ m, l.bound = some m → (n : Int) ≤ m) → n < l.budget →
      ∃ r, (i.settle d l).run e =
        ((settleFrom d l.bound (r + 1) n j).run e').after records := by
    intro l hl hn
    obtain ⟨r, hr⟩ : ∃ r, l.budget = r + 1 + n := ⟨l.budget - n - 1, by omega⟩
    refine ⟨r, ?_⟩
    unfold settle
    rw [hr, hstrides.run_settleFrom (hallowed hl), Nat.zero_add]
  have hshort' : ∀ m, short.bound = some m → (n : Int) ≤ m := fun m hm => by
    rw [hshort] at hm
    exact Int.le_of_eq (Option.some.inj hm)
  have hrounds : n < long.budget := by
    cases hb : long.bound with
    | none => exact hstrides.lt_rounds (hallowed hlong) (hends hb)
    | some m => exact Limits.lt_budget hb (hlong m hb)
  obtain ⟨r, hr⟩ := hrun short hshort' (Limits.lt_budget hshort (Int.le_refl _))
  obtain ⟨r', hr'⟩ := hrun long hlong hrounds
  have hmet : boundMet short.bound n = some (n : Int) := by simp [boundMet, hshort]
  obtain ⟨hanswer, message, hreports⟩ := hdue.run_stalled hmet r
  refine ⟨records, j, e', source, hstrides, hclock, hvisits, hdue.occupied, hdue.auto, ?_, ?_, ?_⟩
  · rw [hr]
    exact hanswer
  · obtain ⟨more, hmore⟩ := hdue.reports_prefix long.bound r' n
    rw [hr, hr']
    refine ⟨calls more, ?_⟩
    simp only [Outcome.after]
    rw [hreports, ← hmore]
    simp only [calls_append, List.append_assoc]
    rfl
  · intro k hk
    have hk : ((settleFrom d long.bound (r' + 1) n j).run e').answer = .ok k := by
      rwa [hr'] at hk
    have hend := canEnd_run (settleFrom d long.bound (r' + 1) n j) e'
    exact settleFrom_prolongs (hk ▸ hend)

/-- **A bound only cuts off.** Two runs of settling from one start, of which the first may make `n`
moves and the second at least as many, and the second is not given up for want of rounds: if no
further move is due after `n`, they come out the same. Otherwise the first one is cut off there.
Whatever comes of it, the first one has made `n` moves at most. -/
theorem settle_truncates {short long : Limits} (hshort : short.bound = some (n : Int))
    (hlong : ∀ m, long.bound = some m → (n : Int) ≤ m)
    (hends : long.bound = none → ((i.settle d long).run e).answer ≠ .error .exhausted) :
    (¬ Overruns d n i e → (i.settle d short).run e = (i.settle d long).run e) ∧
      (Overruns d n i e → ∃ records j e' source, CutOff d n i e ((i.settle d short).run e)
        ((i.settle d long).run e) records j e' source) ∧
      ∃ moves ≤ n, ((i.settle d short).run e).world.clock.taken = e.clock.taken + moves ∧
        ∀ k, ((i.settle d short).run e).answer = .ok k →
          k.history.length = i.history.length + moves := by
  refine ⟨fun h => ?_, fun h => h.cutOff hshort hlong hends, ?_⟩
  · have hends' : n < long.budget ∨ ((i.settle d long).run e).answer ≠ .error .exhausted := by
      cases hb : long.bound with
      | none => exact .inr (hends hb)
      | some m => exact .inl (Limits.lt_budget hb (hlong m hb))
    refine run_settleFrom_of_not_overruns h (fun m hm => ?_)
      (Limits.lt_budget hshort (Int.le_refl _)) (fun m hm => ?_) hends'
    · rw [hshort] at hm
      cases hm
      omega
    · simpa using hlong m hm
  · have hbound : short.bound = some ((0 + n : Nat) : Int) := by rw [hshort, Nat.zero_add]
    obtain ⟨moves, hclock, hcount⟩ := settleFrom_reads (i := i) (d := d) hbound e
    exact ⟨moves, hcount.le, hclock, hcount.ok⟩

end Instance

/-! ## A ride for each ticket -/

/-- A carousel that goes round as long as the rider has tickets, and takes one each time. -/
def carousel : Definition where
  id := .text "carousel"
  initial := "round"
  states := Dict.ofList [
    ("round", { id := "round", kind := .auto, transitions := [
      { target := .text "round", guard := some ⟨"ticket", fun tickets => .done (.datum tickets)⟩,
        action := some ⟨"take", fun _ => .update takeOne (.done (.datum .null))⟩ }] })]
where
  takeOne (a : Arena) : Arena :=
    match a.cell? (.ref 0) with
    | some (.list (_ :: tickets)) => a.setCell 0 (.list tickets)
    | _ => a

/-- A rider with three tickets. -/
def rider : Instance := carousel.fresh ⟨0, .ref 0⟩ "horse" (Instant.text ⟨0⟩)

/-- The world of the rider. -/
def fair : Environment where
  contexts := ⟨#[⟨#[.list [.int 1, .int 2, .int 3]]⟩]⟩
  clock := { reading := fun n => ⟨n⟩ }

/-- The hooks that are called on a ride. -/
def ridden (l : Limits) : List String := calls ((rider.settle carousel l).run fair).reports

/-- A bound of two cuts the rides off, after the third ticket was looked at; one of three does not
come into play. -/
theorem settle_truncates_rides :
    (∃ records j e' source, Instance.CutOff carousel 2 rider fair
      ((rider.settle carousel { bound := some 2 }).run fair)
      ((rider.settle carousel {}).run fair) records j e' source) ∧
    (rider.settle carousel { bound := some 3 }).run fair = (rider.settle carousel {}).run fair ∧
    ridden { bound := some 2 } = ["ticket", "take", "ticket", "take", "ticket"] ∧
    ridden {} = ["ticket", "take", "ticket", "take", "ticket", "take", "ticket"] := by
  have hshort : ridden { bound := some 2 } = ["ticket", "take", "ticket", "take", "ticket"] := by
    decide +kernel
  have hlong : ridden {} = ["ticket", "take", "ticket", "take", "ticket", "take", "ticket"] := by
    decide +kernel
  have hends : ((rider.settle carousel {}).run fair).answer ≠ .error .exhausted := nofun
  have hrests : ((rider.settle carousel { bound := some 3 }).run fair).answer.map
      (·.status) = .ok .running := rfl
  obtain ⟨hsame, hcut, -⟩ := @Instance.settle_truncates carousel rider fair 2
    { bound := some 2 } {} rfl nofun fun _ => hends
  obtain ⟨hsame', hcut', -⟩ := @Instance.settle_truncates carousel rider fair 3
    { bound := some 3 } {} rfl nofun fun _ => hends
  refine ⟨?_, hsame' fun hover => ?_, hshort, hlong⟩
  · by_cases hover : Instance.Overruns carousel 2 rider fair
    · exact hcut hover
    · have hridden : ridden { bound := some 2 } = ridden {} := by
        unfold ridden
        rw [hsame hover]
      rw [hshort, hlong] at hridden
      cases hridden
  · obtain ⟨records, j, e', source, hoff⟩ := hcut' hover
    rw [hoff.answer] at hrests
    cases hrests

end Workflow
