import Workflow.Proofs.Activity.Amid
import Workflow.Proofs.Run.Footprint

/-!
# What operations keep up amid others

`Definition.Reaches.keeps` is about snapshots alone. Where a property is about a snapshot and the
environment too, such as the clock, it has to survive what hooks and others do to the environment in
between.

**Upkeep** (`Instance.Upkeep`). A relation says what hooks and others may do to the environment. The
property survives that, and failing; the moment that a fresh snapshot or a move is given is the
reading of the clock just then.

**Lives** (`Definition.LivesFrom`). An instance is started, and then it is settled, events are sent
to it or its context is replaced, with anything of the relation in between. A start reads the clock
once (`start_reading`) and does not pause, so of two starts one is over before the other one begins.

Main results: `LivesFrom.keeps`, and `LivesFrom.invariant` for what is about snapshots alone. A move
that fails in its entry hook counts: its snapshot has moved (`Instance.after`).
-/

namespace Workflow

open Activity

variable {others : Environment → Environment → Prop} {P : Instance → Environment → Prop}

/-- A property of snapshots in their environment that every step of an operation keeps, among
others. -/
structure Instance.Upkeep (others : Environment → Environment → Prop)
    (P : Instance → Environment → Prop) : Prop where
  refl : ∀ e, others e e
  trans : ∀ {e e' e'' : Environment}, others e e' → others e' e'' → others e e''
  /-- Hooks may change an arena. -/
  arena : ∀ n a e, others e (e.setArena n a)
  later : ∀ {i : Instance} {e e' : Environment}, others e e' → P i e → P i e'
  fresh : ∀ (d : Definition) (c : Context) (id : String) (e : Environment),
    P (d.fresh c id e.clock.now.text) e.tick
  moved : ∀ {i : Instance} {e : Environment} (t : Transition) (target : State) (event : Value),
    P i e → P (i.moved t target event e.clock.now.text) e.tick
  failed : ∀ {i : Instance} {e : Environment} (f : Failure), P i e → P (i.failed f) e

/-- The snapshot that a move has left: the moved one, or what a setback lets it come to. -/
def Instance.after (i : Instance) : Except Setback Instance → Instance
  | .ok j => j
  | .error s => s.reached i

namespace Instance.Upkeep

variable {d : Definition} {i j k : Instance} {t : Transition} {event : Value} {limits : Limits}
  {e e' : Environment}

section

variable (u : Upkeep others P)
include u

/-- Work that changes no more than others may keeps the property. -/
theorem survives {α : Type} {w : Activity Realm.flow α} {r : Except Failure α}
    (hw : w.Alters others) (hi : P i e) (h : w.EndsAmid others e r e') : P i e' :=
  u.later (hw.endsAmid (fun _ _ h => h) u.refl u.trans h) hi

theorem log {level : Level} {message : String} {r : Except Failure Unit} (hi : P i e)
    (h : (log level message).EndsAmid others e r e') : P i e' :=
  u.survives (w := Workflow.log level message) trivial hi h

/-! ## Moves -/

theorem moveBetween {source target : State} {r : Except HookFailure Instance} (hi : P i e)
    (h : (i.moveBetween t source target event).EndsAmid others e (.ok r) e') :
    P (i.after (r.mapError .hook)) e' := by
  rcases h.whenOk with ⟨f, hexit, rfl⟩ | ⟨_, e₁, hexit, h⟩
  · show P f.reached e'
    rw [runHook_error hexit.canEnd]
    exact u.survives (runHook_alters (fun _ _ => u.arena _ _ _) ..) hi hexit
  have hi : P i e₁ := u.survives (runHook_alters (fun _ _ => u.arena _ _ _) ..) hi hexit
  rcases h.whenOk with ⟨f, haction, rfl⟩ | ⟨_, e₂, haction, h⟩
  · show P f.reached e'
    rw [runHook_error haction.canEnd]
    exact u.survives (runHook_alters (fun _ _ => u.arena _ _ _) ..) hi haction
  have hi : P i e₂ := u.survives (runHook_alters (fun _ _ => u.arena _ _ _) ..) hi haction
  -- The clock is read here, and nobody comes in between.
  obtain ⟨moment, e₃, ⟨hmoment, rfl⟩, h⟩ := h.bind_ok
  cases hmoment
  have hmoved : P (i.moved t target event e₂.clock.now.text) e₂.tick := u.moved t target event hi
  obtain ⟨_, e₄, hlog, h⟩ := h.bind_ok
  have hmoved : P (i.moved t target event e₂.clock.now.text) e₄ := u.log hmoved hlog
  rcases h.whenOk with ⟨f, hentry, rfl⟩ | ⟨_, e₅, hentry, h⟩
  · show P f.reached e'
    rw [runHook_error hentry.canEnd]
    exact u.survives (runHook_alters (fun _ _ => u.arena _ _ _) ..) hmoved hentry
  · obtain ⟨hr, rfl⟩ := h
    cases hr
    exact u.survives (runHook_alters (fun _ _ => u.arena _ _ _) ..) hmoved hentry

theorem move {r : Except Setback Instance} (hi : P i e)
    (h : (move d i t event).EndsAmid others e (.ok r) e') : P (i.after r) e' := by
  unfold Instance.move at h
  split at h
  · obtain ⟨hr, rfl⟩ := h
    cases hr
    exact hi
  split at h
  · cases h.1
  · obtain ⟨hr, rfl⟩ := h
    cases hr
    exact hi
  · obtain ⟨r', e₁, hbetween, hr, rfl⟩ := h.bind_ok
    cases hr
    exact u.moveBetween hi hbetween

/-! ## Settling -/

theorem markFailed {s : Setback} (hs : P (s.reached i) e)
    (h : (i.markFailed s).EndsAmid others e (.ok k) e') : P k e' := by
  have hk : k = (s.reached i).failed s.cause := by
    cases canEnd_markFailed.1 h.canEnd
    rfl
  exact hk ▸ u.failed s.cause (u.survives (markFailed_alters s) hs h)

theorem rest {steps : Nat} (hi : P i e) (h : (i.rest steps).EndsAmid others e (.ok k) e') :
    P k e' := by
  have hk : k = i := rest_ok h.canEnd
  unfold Instance.rest at h
  split at h
  · obtain ⟨_, e₁, hlog, -, rfl⟩ := h.bind_ok
    exact hk ▸ u.log hi hlog
  · obtain ⟨-, rfl⟩ := h
    exact hk ▸ hi

theorem settleFrom {bound : Option Int} {rounds steps : Nat} (hi : P i e)
    (h : (settleFrom d bound rounds steps i).EndsAmid others e (.ok k) e') : P k e' := by
  induction rounds generalizing steps i e with
  | zero => cases h.1
  | succ rounds ih =>
    unfold Instance.settleFrom at h
    split at h
    · exact u.rest hi h
    split at h
    · exact u.markFailed (s := .stateNotFound ..) hi h
    split at h
    · exact u.rest hi h
    obtain ⟨selected, e₁, hselect, h⟩ := h.bind_ok
    have hi : P i e₁ := u.survives (select_alters (fun _ _ => u.arena _ _ _) _) hi hselect
    rcases selected with f | _ | t
    · exact u.markFailed (s := .hook f) (select_error_reached hselect.canEnd ▸ hi) h
    · exact u.rest hi h
    dsimp only at h
    split at h
    · exact u.markFailed (s := .stalled ..) hi h
    obtain ⟨result, e₂, hmove, h⟩ := h.bind_ok
    have hnext : P (i.after result) e₂ := u.move hi hmove
    cases result with
    | error s => exact u.markFailed hnext h
    | ok next => exact ih hnext h

/-! ## Operations -/

theorem settle (hi : P i e) (h : (i.settle d limits).EndsAmid others e (.ok k) e') : P k e' :=
  u.settleFrom hi h

theorem refuseWith {s : Setback} {out : Dispatch} (hs : P (s.reached i) e)
    (h : (i.refuseWith s).EndsAmid others e (.ok out) e') : P out.reached e' := by
  obtain ⟨k, e₁, hfailed, hout, rfl⟩ := h.bind_ok
  cases hout
  exact u.markFailed hs hfailed

/-- **An event keeps the property.** -/
theorem send {name : String} {out : Dispatch} (hi : P i e)
    (h : (i.send d limits name).EndsAmid others e (.ok out) e') : P out.reached e' := by
  have hrefuse : ∀ {e₁}, P i e₁ → i.refuse.EndsAmid others e₁ (.ok out) e' → P out.reached e' := by
    rintro e₁ hi ⟨hout, rfl⟩
    cases hout
    exact hi
  unfold Instance.send at h
  split at h
  · exact hrefuse hi h
  split at h
  · exact hrefuse hi h
  split at h
  · exact hrefuse hi h
  split at h
  · obtain ⟨_, e₁, hlog, h⟩ := h.bind_ok
    exact hrefuse (u.log hi hlog) h
  obtain ⟨selected, e₁, hselect, h⟩ := h.bind_ok
  have hi : P i e₁ := u.survives (select_alters (fun _ _ => u.arena _ _ _) _) hi hselect
  rcases selected with f | _ | t
  · exact u.refuseWith (s := .hook f) (select_error_reached hselect.canEnd ▸ hi) h
  · exact hrefuse hi h
  obtain ⟨result, e₂, hmove, h⟩ := h.bind_ok
  have hnext : P (i.after result) e₂ := u.move hi hmove
  cases result with
  | error s => exact u.refuseWith hnext h
  | ok next =>
    obtain ⟨settled, e₃, hsettle, hout, rfl⟩ := h.bind_ok
    cases hout
    exact u.settle hnext hsettle

/-- **A start gives the property.** -/
theorem start {c : Context} {id : Option String}
    (h : (d.start c id).EndsAmid others e (.ok i) e') : P i e' := by
  obtain ⟨name, e₁, -, h⟩ := h.bind_ok
  obtain ⟨moment, e₂, ⟨hmoment, rfl⟩, h⟩ := h.bind_ok
  cases hmoment
  obtain ⟨_, e₃, hlog, hi, rfl⟩ := h.bind_ok
  cases hi
  exact u.log (u.fresh d c name e₁) hlog

theorem startAndSettle {c : Context} {id : Option String}
    (h : (d.startAndSettle limits c id).EndsAmid others e (.ok i) e') : P i e' := by
  obtain ⟨i₀, e₁, hstart, h⟩ := h.bind_ok
  exact u.settle (u.start hstart) h

end

end Instance.Upkeep

/-! ## Lives -/

/-- An instance that was started and worked on, and the environment at that point. The start began
in the environment `before` and ended in `after`; settling may follow at once, later or never. -/
inductive Definition.LivesFrom (d : Definition) (others : Environment → Environment → Prop)
    (before after : Environment) : Instance → Environment → Prop
  | start {c : Context} {id : Option String} {i : Instance} :
      (d.start c id).EndsAmid others before (.ok i) after → LivesFrom d others before after i after
  | settle {limits : Limits} {i j : Instance} {e e' : Environment} :
      LivesFrom d others before after i e → (i.settle d limits).EndsAmid others e (.ok j) e' →
      LivesFrom d others before after j e'
  | send {limits : Limits} {event : String} {i : Instance} {out : Dispatch}
      {e e' : Environment} :
      LivesFrom d others before after i e →
      (i.send d limits event).EndsAmid others e (.ok out) e' →
      LivesFrom d others before after out.reached e'
  /-- The context was updated or replaced. -/
  | recontext {i : Instance} {e : Environment} (c : Context) :
      LivesFrom d others before after i e → LivesFrom d others before after { i with ctx := c } e
  /-- Others had their turns. -/
  | wait {i : Instance} {e e' : Environment} :
      LivesFrom d others before after i e → others e e' → LivesFrom d others before after i e'

variable {d : Definition} {i : Instance} {before after e e' : Environment}

/-- A start gives the moment of the next reading. -/
theorem Definition.start_reading {c : Context} {id : Option String}
    (h : (d.start c id).EndsAmid others e (.ok i) e') :
    e'.clock = e.clock.next ∧ ∃ name, i = d.fresh c name e.clock.now.text := by
  obtain ⟨name, e₁, hid, h⟩ := h.bind_ok
  have hclock : e₁.clock = e.clock := by
    cases id with
    | some id => exact congrArg (·.clock) hid.2
    | none => exact congrArg (·.clock) hid.2
  obtain ⟨moment, e₂, ⟨hmoment, rfl⟩, h⟩ := h.bind_ok
  cases hmoment
  obtain ⟨_, e₃, ⟨-, rfl⟩, hi, rfl⟩ := h.bind_ok
  cases hi
  exact ⟨congrArg Clock.next hclock, name, hclock ▸ rfl⟩

namespace Definition.LivesFrom

open Instance

/-- **What a start gives and every step keeps, an instance has all its life.** -/
theorem keeps (u : Upkeep others P)
    (recontext : ∀ {i e} c, P i e → P { i with ctx := c } e)
    (h : d.LivesFrom others before after i e) : P i e := by
  induction h with
  | start h => exact u.start h
  | settle _ h ih => exact u.settle ih h
  | send _ h ih => exact u.send ih h
  | recontext c _ ih => exact recontext c ih
  | wait _ hw ih => exact u.later hw ih

/-- What the snapshot at the beginning has and each step keeps, whatever the environment. -/
theorem invariant {P : Instance → Prop}
    (fresh : ∀ c name, P (d.fresh c name before.clock.now.text))
    (moves : ∀ {i j : Instance} {event : Value}, Moves d i event j → P i → P j)
    (fails : ∀ {i : Instance} (f : Failure), P i → P (i.failed f))
    (recontext : ∀ {i : Instance} (c : Context), P i → P { i with ctx := c })
    (h : d.LivesFrom others before after i e) : P i := by
  induction h with
  | start h =>
    obtain ⟨-, name, rfl⟩ := Definition.start_reading h
    exact fresh _ name
  | settle _ h ih =>
    exact (Operation.settle h.canEnd).keeps moves (fun f _ => fails f) recontext ih
  | send _ h ih => exact (Operation.send h.canEnd).keeps moves (fun f _ => fails f) recontext ih
  | recontext c _ ih => exact recontext c ih
  | wait _ _ ih => exact ih

end Definition.LivesFrom

end Workflow
