import Workflow.Proofs.Hook.Held
import Workflow.Proofs.Run.Path

/-!
# Moves that write to contexts

What operations give whose hooks write to a context with a content, and do not fail.

**Hooks** (`Enacts`). The hook, if there is one, does this to the content.

**Moves** (`Instance.move_achieves`). A move along a transition that has no exit hook is made, and
the content is what the action and the entry hook make of it.

**Rest** (`Instance.settleFrom_rests`). Settling ends where nothing goes on by itself.
-/

namespace Workflow

open Activity

/-- The hook, if there is one, does this to the content. -/
def Enacts (hook : Option Hook) (f : List (String × Value) → List (String × Value)) : Prop :=
  match hook with
  | none => ∀ content, f content = content
  | some hook => Writes hook.body f

theorem enacts_none {hook : Option Hook} (h : hook = none) : Enacts hook fun content => content := by
  rw [h]
  exact fun _ => rfl

namespace Instance

variable {d : Definition} {i : Instance} {t : Transition} {event : Value} {source target : State}
  {content : List (String × Value)} {f g : List (String × Value) → List (String × Value)}
  {P : Environment → Prop}

theorem runHook_achieves {hook : Option Hook} (hf : Enacts hook f) (role : HookRole)
    (state : String) (reached : Instance) :
    Achieves (Environment.Holds · i.ctx content)
      (fun r (e : Environment) => ∃ u, r = .ok u ∧ e.Holds i.ctx (f content))
      (i.runHook role state hook reached) := by
  cases hook with
  | none =>
    refine .done fun e he => ⟨(), rfl, ?_⟩
    rw [hf content]
    exact he
  | some hook =>
    refine (Writes.call hf).caught.bind fun r => .done ?_
    rintro e ⟨answer, rfl, he⟩
    exact ⟨(), rfl, he⟩

theorem readClock_achieves {c : Context} :
    Achieves (Environment.Holds · c content) (fun _ (e : Environment) => e.Holds c content)
      readClock :=
  fun e he => ⟨e.clock.now, rfl, Environment.Holds.frame he he.inside rfl⟩

theorem moveBetween_achieves (hexit : source.onExit = none) (haction : Enacts t.action f)
    (hentry : Enacts target.onEnter g) :
    Achieves (Environment.Holds · i.ctx content)
      (fun r (e : Environment) => ∃ moment, r = .ok (i.moved t target event moment) ∧
        e.Holds i.ctx (g (f content)))
      (i.moveBetween t source target event) := by
  refine (runHook_achieves (enacts_none hexit) .onExit source.id i).whenOk fun _ => ?_
  refine (runHook_achieves haction .action source.id i).whenOk fun _ => ?_
  refine readClock_achieves.bind fun moment => Achieves.tell.bind fun _ => ?_
  refine (runHook_achieves hentry .onEnter target.id _).whenOk fun _ => .done fun e he => ?_
  exact ⟨moment.text, rfl, he⟩

/-- **A move whose hooks write is made.** -/
theorem move_achieves (hsource : d.state? i.current = some source)
    (htarget : d.target? t.target = .ok (some target)) (hexit : source.onExit = none)
    (haction : Enacts t.action f) (hentry : Enacts target.onEnter g) :
    Achieves (Environment.Holds · i.ctx content)
      (fun r (e : Environment) => ∃ moment, r = .ok (i.moved t target event moment) ∧
        e.Holds i.ctx (g (f content)))
      (move d i t event) := by
  unfold Instance.move
  rw [hsource]
  dsimp only
  rw [htarget]
  refine (moveBetween_achieves hexit haction hentry).bind fun r => .done ?_
  rintro e ⟨moment, rfl, he⟩
  exact ⟨moment, rfl, he⟩

theorem rest_achieves (steps : Nat) : Achieves P (fun j e => j = i ∧ P e) (i.rest steps) := by
  unfold Instance.rest
  split
  · exact Achieves.tell.bind fun _ => .done fun _ he => ⟨rfl, he⟩
  · exact .done fun _ he => ⟨rfl, he⟩

theorem markFailed_achieves (s : Setback) :
    Achieves P (fun j e => j = (s.reached i).failed s.cause ∧ P e) (i.markFailed s) := by
  intro e he
  obtain ⟨hanswer, hworld⟩ := run_markFailed i s e
  exact ⟨_, hanswer, rfl, hworld.symm ▸ he⟩

/-- **A run that is over or waits for an event stays where it is.** -/
theorem settleFrom_rests {bound : Option Int} {rounds steps : Nat}
    (h : i.status ≠ .running ∨ ∃ s, d.state? i.current = some s ∧ s.kind ≠ .auto) :
    Achieves P (fun j e => j = i ∧ P e) (settleFrom d bound (rounds + 1) steps i) := by
  unfold Instance.settleFrom
  split
  · exact rest_achieves steps
  obtain hover | ⟨s, hs, hwaits⟩ := h
  · contradiction
  rw [hs]
  dsimp only
  rw [if_pos (.inl hwaits)]
  exact rest_achieves steps

/-! ## Events -/

/-- A transition without a guard is taken. -/
theorem select_unguarded (h : t.guard = none) (rest : List Transition) :
    i.select (t :: rest) = .done (.ok (some t)) := by
  unfold select passes
  rw [h]
  rfl

/-- **An event is taken by the first transition for it, if that has no guard.** -/
theorem send_achieves {limits : Limits} {name : String} {rest : List Transition}
    {Q : Instance → Environment → Prop} (hrunning : i.status = .running)
    (hsource : d.state? i.current = some source) (hname : source.transitionsFor name = t :: rest)
    (hguard : t.guard = none) (htarget : d.target? t.target = .ok (some target))
    (hexit : source.onExit = none) (haction : Enacts t.action f) (hentry : Enacts target.onEnter g)
    (hsettle : ∀ moment, Achieves (Environment.Holds · i.ctx (g (f content))) Q
      (settle d limits (i.moved t target (.text name) moment))) :
    Achieves (Environment.Holds · i.ctx content) (fun (out : Dispatch) e => Q out.reached e)
      (i.send d limits name) := by
  have hleads : source.transitions.isEmpty = false := by
    cases hnone : source.transitions with
    | nil => simp [State.transitionsFor, hnone] at hname
    | cons => rfl
  unfold Instance.send
  rw [if_neg fun h => h hrunning, hsource]
  dsimp only
  rw [hleads, hname, select_unguarded hguard]
  refine (move_achieves hsource htarget hexit haction hentry).bind fun r => ?_
  rintro e ⟨moment, rfl, he⟩
  have hdone : ∀ j, Achieves (Q j) (fun (out : Dispatch) e => Q out.reached e)
      (.done ⟨j, true⟩ : Activity Realm.flow Dispatch) := fun j => .done fun _ hj => hj
  exact (hsettle moment).bind hdone e he

/-- **An event for which there is no transition leaves all as it is.** -/
theorem send_refuses {limits : Limits} {name : String}
    (h : i.status = .running → ∀ s, d.state? i.current = some s → s.transitionsFor name = []) :
    Achieves P (fun (out : Dispatch) e => out.reached = i ∧ P e) (i.send d limits name) := by
  have hrefuse : Achieves P (fun (out : Dispatch) e => out.reached = i ∧ P e) i.refuse :=
    .done fun _ he => ⟨rfl, he⟩
  unfold Instance.send
  split
  · exact hrefuse
  next hrunning =>
  split
  · exact hrefuse
  next s hs =>
  split
  · exact hrefuse
  rw [if_pos (by rw [h (Decidable.not_not.1 hrunning) s hs]; rfl)]
  exact Achieves.tell.bind fun _ => hrefuse

end Instance

end Workflow
