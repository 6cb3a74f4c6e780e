import Workflow.Proofs.Hook.Seen
import Workflow.Proofs.Run.Path

/-!
# Instances side by side

Two instances are twins if they differ at most in their ids, their contexts and the times of their
visits (`Instance.Twins`). If the contexts have one view, and the hooks of the definition go by it
(`Definition.SeenThrough`), then an operation on both gives twins again, and contexts with one view.

Main result: `send_tied`. It is put together along the parts of a dispatch: guards, hooks, moves and
settling each run side by side.
-/

namespace Workflow

open Activity

/-- What a visit records besides its times. -/
def Visit.mark (v : Visit) : String × Value × Value := (v.state, v.transition, v.event)

/-- The hooks of a definition go by a view of the context, and its guards keep it. -/
structure Definition.SeenThrough {V : Type} (view : Arena → Datum → V) (d : Definition) :
    Prop where
  guards : ∀ {key s}, d.state? key = some s → ∀ t ∈ s.transitions, ∀ h ∈ t.guard, h.Judges view
  actions : ∀ {key s}, d.state? key = some s → ∀ t ∈ s.transitions, ∀ h ∈ t.action, h.Acts view
  exits : ∀ {key s}, d.state? key = some s → ∀ h ∈ s.onExit, h.Acts view
  entries : ∀ {key s}, d.state? key = some s → ∀ h ∈ s.onEnter, h.Acts view

namespace Instance

variable {d : Definition} {V : Type} {view : Arena → Datum → V} {c c' : Context}
  {i j i' j' : Instance} {t : Transition} {ts : List Transition} {event : Value} {limits : Limits}

/-- Instances with these contexts that differ at most in id, context, times and error. -/
structure Twins (c c' : Context) (i j : Instance) : Prop where
  ctx : i.ctx = c
  ctx' : j.ctx = c'
  current : i.current = j.current
  status : i.status = j.status
  marks : i.history.map Visit.mark = j.history.map Visit.mark

/-- Hook failures that reached twins. -/
def FailTwins (c c' : Context) (f g : HookFailure) : Prop := Twins c c' f.reached g.reached

/-! ## Guards -/

theorem passes_tied (hij : Twins c c' i j) (ht : ∀ h ∈ t.guard, h.Judges view) :
    Tied (Abreast view c c') (Agree (FailTwins c c') Eq) (i.passes t) (j.passes t) := by
  unfold passes
  cases hg : t.guard with
  | none => exact .done (.ok rfl)
  | some guard =>
    have htest : Tied (Abreast view c c') Eq (i.testGuard guard) (j.testGuard guard) := by
      show Tied _ _ (guard.test i.ctx) (guard.test j.ctx)
      rw [hij.ctx, hij.ctx']
      exact (ht guard hg).tied
    refine htest.caught.bind fun r s hrs => .done ?_
    cases hrs with
    | ok hab => exact .ok hab
    | error he => exact .error hij

/-- Twins select the same transition, one of those that were tried. -/
theorem select_tied (hij : Twins c c' i j) (hts : ∀ t ∈ ts, ∀ h ∈ t.guard, h.Judges view) :
    Tied (Abreast view c c') (Agree (FailTwins c c') fun s s' => s = s' ∧ ∀ t ∈ s, t ∈ ts)
      (i.select ts) (j.select ts) := by
  induction ts with
  | nil => exact .done (.ok ⟨rfl, nofun⟩)
  | cons t rest ih =>
    obtain ⟨ht, hrest⟩ := List.forall_mem_cons.1 hts
    refine (passes_tied hij ht).whenOk fun p q hpq => ?_
    subst hpq
    cases p with
    | true => exact .done (.ok ⟨rfl, fun u hu => Option.mem_some.1 hu ▸ List.mem_cons_self⟩)
    | false =>
      refine (ih hrest).mono fun r r' hr => hr.mono fun s s' hs => ?_
      exact ⟨hs.1, fun u hu => List.mem_cons_of_mem t (hs.2 u hu)⟩

/-! ## Moves -/

theorem runHook_tied (hij : Twins c c' i j) (hreached : Twins c c' i' j') {role : HookRole}
    {state : String} {hook : Option Hook} (hh : ∀ h ∈ hook, h.Acts view) :
    Tied (Abreast view c c') (Agree (FailTwins c c') fun _ _ => True)
      (i.runHook role state hook i') (j.runHook role state hook j') := by
  cases hook with
  | none => exact .done (.ok trivial)
  | some hook =>
    have hcall : Tied (Abreast view c c') (fun _ _ => True) (hook.call i.ctx)
        (hook.call j.ctx) := by
      rw [hij.ctx, hij.ctx']
      exact (hh hook rfl).tied
    refine hcall.caught.bind fun r s hrs => .done ?_
    cases hrs with
    | ok => exact .ok trivial
    | error he => exact .error hreached

theorem map_mark_closeLast (moment : String) (history : List Visit) :
    (closeLast moment history).map Visit.mark = history.map Visit.mark := by
  induction history with
  | nil => rfl
  | cons v rest ih =>
    cases rest with
    | nil =>
      unfold closeLast
      split <;> rfl
    | cons u rest => exact congrArg (v.mark :: ·) ih

/-- A move adds one mark. -/
theorem moved_marks (i : Instance) (t : Transition) (target : State) (event : Value)
    (moment : String) : (i.moved t target event moment).history.map Visit.mark =
      i.history.map Visit.mark ++ [(target.id, t.id, event)] := by
  unfold moved
  rw [List.map_append, map_mark_closeLast]
  rfl

theorem moved_length (i : Instance) (t : Transition) (target : State) (event : Value)
    (moment : String) : (i.moved t target event moment).history.length = i.history.length + 1 := by
  rw [← List.length_map Visit.mark, moved_marks, List.length_append, List.length_map]
  rfl

theorem Twins.moved (hij : Twins c c' i j) (t : Transition) (target : State) (event : Value)
    (moment moment' : String) :
    Twins c c' (i.moved t target event moment) (j.moved t target event moment') := by
  refine ⟨hij.ctx, hij.ctx', rfl, rfl, ?_⟩
  rw [moved_marks, moved_marks, hij.marks]

theorem readClock_tied : Tied (Abreast view c c') (fun _ _ => True) readClock readClock :=
  fun _ _ he => ⟨.ok trivial, he.first, he.second, he.same⟩

theorem log_tied (level level' : Level) (message message' : String) :
    Tied (Abreast view c c') (fun _ _ => True) (log level message) (log level' message') :=
  fun _ _ he => ⟨.ok trivial, he⟩

theorem moveBetween_tied (hij : Twins c c' i j) {source target : State}
    (hexit : ∀ h ∈ source.onExit, h.Acts view) (haction : ∀ h ∈ t.action, h.Acts view)
    (henter : ∀ h ∈ target.onEnter, h.Acts view) :
    Tied (Abreast view c c') (Agree (FailTwins c c') (Twins c c'))
      (i.moveBetween t source target event) (j.moveBetween t source target event) := by
  refine (runHook_tied hij hij hexit).whenOk fun _ _ _ => ?_
  refine (runHook_tied hij hij haction).whenOk fun _ _ _ => ?_
  refine readClock_tied.bind fun moment moment' _ => ?_
  have hnext := hij.moved t target event moment.text moment'.text
  refine (log_tied _ _ _ _).bind fun _ _ _ => ?_
  refine (runHook_tied hij hnext henter).whenOk fun _ _ _ => ?_
  exact .done (.ok hnext)

/-- Setbacks of two moves that reached twins. -/
def SetbackTwins (c c' : Context) (i j : Instance) (s s' : Setback) : Prop :=
  Twins c c' (s.reached i) (s'.reached j)

theorem move_tied (hd : d.SeenThrough view) (hij : Twins c c' i j) {source : State}
    (hs : d.state? i.current = some source) (ht : t ∈ source.transitions) :
    Tied (Abreast view c c') (Agree (SetbackTwins c c' i j) (Twins c c'))
      (move d i t event) (move d j t event) := by
  unfold move
  rw [← hij.current, hs]
  dsimp only
  split
  · exact .fail _
  · exact .done (.error hij)
  next target htarget =>
  have hentry : ∀ h ∈ target.onEnter, h.Acts view := by
    obtain ⟨key, -, hkey⟩ := Definition.target?_some htarget
    exact hd.entries hkey
  refine (moveBetween_tied hij (hd.exits hs) (hd.actions hs t ht) hentry).bind ?_
  intro r s hrs
  cases hrs with
  | ok hnext => exact .done (.ok hnext)
  | error hf => exact .done (.error hf)

/-! ## Operations -/

theorem Twins.failed (hij : Twins c c' i j) (e f : Failure) :
    Twins c c' (i.failed e) (j.failed f) :=
  ⟨hij.ctx, hij.ctx', hij.current, rfl, hij.marks⟩

theorem markFailed_tied {s s' : Setback} (hs : SetbackTwins c c' i j s s') :
    Tied (Abreast view c c') (Twins c c') (i.markFailed s) (j.markFailed s') := by
  intro e e' he
  rw [(run_markFailed i s e).1, (run_markFailed i s e).2, (run_markFailed j s' e').1,
    (run_markFailed j s' e').2]
  exact ⟨.ok (hs.failed _ _), he⟩

theorem rest_tied (hij : Twins c c' i j) (steps : Nat) :
    Tied (Abreast view c c') (Twins c c') (i.rest steps) (j.rest steps) := by
  unfold rest
  rw [← hij.status]
  split
  · exact (log_tied _ _ _ _).bind fun _ _ _ => .done hij
  · exact .done hij

theorem settleFrom_tied (hd : d.SeenThrough view) {bound : Option Int} {rounds steps : Nat}
    (hij : Twins c c' i j) :
    Tied (Abreast view c c') (Twins c c') (settleFrom d bound rounds steps i)
      (settleFrom d bound rounds steps j) := by
  induction rounds generalizing steps i j with
  | zero => exact .fail .exhausted
  | succ rounds ih =>
    unfold settleFrom
    rw [← hij.status, ← hij.current]
    split
    · exact rest_tied hij steps
    split
    · exact markFailed_tied hij
    next state hs =>
    split
    · exact rest_tied hij steps
    have hguards : ∀ t ∈ state.autoTransitions, ∀ h ∈ t.guard, h.Judges view := fun t ht =>
      hd.guards hs t (List.mem_filter.1 ht).1
    refine (select_tied hij hguards).bind fun r r' hr => ?_
    cases hr with
    | error hf => exact markFailed_tied hf
    | @ok selected _ hsel =>
      obtain ⟨rfl, hmem⟩ := hsel
      cases selected with
      | none => exact rest_tied hij steps
      | some t =>
        have ht : t ∈ state.transitions := (List.mem_filter.1 (hmem t rfl)).1
        dsimp only
        split
        · exact markFailed_tied hij
        refine (move_tied hd hij hs ht).bind fun r r' hr => ?_
        cases hr with
        | error hf => exact markFailed_tied hf
        | ok hnext => exact ih hnext

theorem settle_tied (hd : d.SeenThrough view) (hij : Twins c c' i j) :
    Tied (Abreast view c c') (Twins c c') (i.settle d limits) (j.settle d limits) :=
  settleFrom_tied hd hij

/-- Outcomes that reached twins. -/
def DispatchTwins (c c' : Context) (out out' : Dispatch) : Prop :=
  Twins c c' out.reached out'.reached

theorem refuse_tied (hij : Twins c c' i j) :
    Tied (Abreast view c c') (DispatchTwins c c') i.refuse j.refuse :=
  .done hij

theorem refuseWith_tied {s s' : Setback} (hs : SetbackTwins c c' i j s s') :
    Tied (Abreast view c c') (DispatchTwins c c') (i.refuseWith s) (j.refuseWith s') :=
  (markFailed_tied hs).bind fun _ _ hij => .done hij

/-- **An event that is sent to twins gives twins.** -/
theorem send_tied (hd : d.SeenThrough view) (limits : Limits) (hij : Twins c c' i j)
    (name : String) :
    Tied (Abreast view c c') (DispatchTwins c c') (i.send d limits name)
      (j.send d limits name) := by
  unfold send
  rw [← hij.status, ← hij.current]
  split
  · exact refuse_tied hij
  split
  · exact refuse_tied hij
  next state hs =>
  split
  · exact refuse_tied hij
  split
  · exact (log_tied _ _ _ _).bind fun _ _ _ => refuse_tied hij
  have hguards : ∀ t ∈ state.transitionsFor name, ∀ h ∈ t.guard, h.Judges view := fun t ht =>
    hd.guards hs t (List.mem_filter.1 ht).1
  refine (select_tied hij hguards).bind fun r r' hr => ?_
  cases hr with
  | error hf => exact refuseWith_tied hf
  | @ok selected _ hsel =>
    obtain ⟨rfl, hmem⟩ := hsel
    cases selected with
    | none => exact refuse_tied hij
    | some t =>
      have ht : t ∈ state.transitions := (List.mem_filter.1 (hmem t rfl)).1
      refine (move_tied hd hij hs ht).bind fun r r' hr => ?_
      cases hr with
      | error hf => exact refuseWith_tied hf
      | ok hnext => exact (settle_tied hd hnext).bind fun _ _ hij => .done hij

theorem idOrIssued_tied (id id' : Option String) :
    Tied (Abreast view c c') (fun _ _ => True) (idOrIssued id) (idOrIssued id') := by
  intro e e' he
  cases id <;> cases id' <;> exact ⟨.ok trivial, he.first, he.second, he.same⟩

theorem Twins.fresh (id id' moment moment' : String) :
    Twins c c' (d.fresh c id moment) (d.fresh c' id' moment') :=
  ⟨rfl, rfl, rfl, rfl, rfl⟩

/-- **Two runs of a definition begin as twins.** -/
theorem start_tied (id id' : Option String) :
    Tied (Abreast view c c') (Twins c c') (d.start c id) (d.start c' id') := by
  refine (idOrIssued_tied id id').bind fun name name' _ => ?_
  refine readClock_tied.bind fun moment moment' _ => ?_
  refine (log_tied _ _ _ _).bind fun _ _ _ => .done ?_
  exact .fresh name name' moment.text moment'.text

end Instance

end Workflow
