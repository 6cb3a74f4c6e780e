import Workflow.Proofs.Expense.Steps
import Workflow.Proofs.Run.Enacted

/-!
# The course of an expense claim

What an event makes of a claim and of the content of its context (`Sent`), and what is so of every
claim that comes about this way (`InOrder`).

**Triage** (`Triaged`). A claim leaves triage at once: it is paid or goes to a manager, or fails
because its amount and its limit have no order.
-/

namespace Workflow.Expense

open Activity

variable {i j : Instance} {content content' : List (String × Value)}

/-! ## Events -/

/-- What becomes of a claim in triage. -/
inductive Triaged (i : Instance) (content : List (String × Value)) :
    Instance → List (String × Value) → Prop
  | paid (moment : String) : (amount content).atMost (limit content) = .ok true →
      Triaged i content (i.moved withinLimit paidState .null moment) (withPayout content)
  | toManager (moment : String) :
      Triaged i content (i.moved toManager managerState .null moment) content
  | failed (message : String) :
      (amount content).atMost (limit content) = .error (.type message) →
      Triaged i content (i.failed (.type message)) content

/-- What becomes of a claim by an event. -/
inductive Sent (i : Instance) (content : List (String × Value)) :
    Instance → List (String × Value) → Prop
  | stays : Sent i content i content
  | submitted {j : Instance} {content' : List (String × Value)} (moment : String) :
      i.status = .running → i.current = "draft" →
      Triaged (i.moved submitting triageState (.text "SUBMIT") moment) (withSubmission content)
        j content' →
      Sent i content j content'
  | approved (moment : String) : i.status = .running → i.current = "manager_review" →
      Sent i content (i.moved approving paidState (.text "APPROVE") moment) (withPayout content)
  | rejected (moment : String) : i.status = .running → i.current = "manager_review" →
      Sent i content (i.moved rejecting rejectedState (.text "REJECT") moment) content
  | returned (moment : String) : i.status = .running → i.current = "manager_review" →
      Sent i content (i.moved returning draftState (.text "RETURN") moment) content

/-- The claim and the content of its context after the step. -/
def Holding (step : Instance → List (String × Value) → Prop) (j : Instance) (e : Environment) :
    Prop :=
  ∃ content, step j content ∧ e.Holds j.ctx content

theorem enacts_submission : Enacts submitting.action withSubmission := writes_recordSubmission

theorem enacts_payout : Enacts paidState.onEnter withPayout := writes_schedulePayout

/-- The first way out of triage that is open. -/
theorem select_triage :
    Achieves (Environment.Holds · i.ctx content)
      (fun r (e : Environment) => e.Holds i.ctx content ∧
        ((amount content).atMost (limit content) = .ok true ∧ r = .ok (some withinLimit) ∨
          r = .ok (some toManager) ∨
          ∃ message, (amount content).atMost (limit content) = .error (.type message) ∧
            r = .error ⟨.guard, i.current, .type message, i⟩))
      (i.select triageState.autoTransitions) := by
  have hpasses : Achieves (Environment.Holds · i.ctx content)
      (fun r (e : Environment) =>
        r = Instance.blame .guard i.current i ((amount content).atMost (limit content)) ∧
          e.Holds i.ctx content)
      (i.passes withinLimit) := by
    have hcaught : ∀ f, (amount content).atMost (limit content) = .error f → f.escape = none := by
      intro f hf
      obtain ⟨x, y, rfl⟩ := atMost_error _ _ f hf
      rfl
    refine (Achieves.caught_eq hcaught fun e he => ?_).bind fun r => .done ?_
    · obtain ⟨hanswer, hworld⟩ := run_belowLimit he
      exact ⟨hanswer, hworld.symm ▸ he⟩
    · rintro e ⟨rfl, he⟩
      exact ⟨rfl, he⟩
  refine hpasses.bind fun r => ?_
  cases hverdict : (amount content).atMost (limit content) with
  | error f =>
    obtain ⟨x, y, rfl⟩ := atMost_error _ _ f hverdict
    rintro e ⟨rfl, he⟩
    exact ⟨_, rfl, he, .inr (.inr ⟨_, rfl, rfl⟩)⟩
  | ok b =>
    rintro e ⟨rfl, he⟩
    cases b with
    | true => exact ⟨_, rfl, he, .inl ⟨rfl, rfl⟩⟩
    | false => exact ⟨_, rfl, he, .inr (.inl rfl)⟩

/-- A claim that leaves triage rests where it gets to. -/
theorem move_triaged {rounds steps : Nat} {bound : Option Int} {t : Transition} {target : State}
    {f g : List (String × Value) → List (String × Value)}
    (hstate : claim.state? i.current = some triageState)
    (htarget : claim.target? t.target = .ok (some target)) (haction : Enacts t.action f)
    (hentry : Enacts target.onEnter g) (hkind : target.kind ≠ .auto)
    (hthere : claim.state? target.id = some target)
    (hstep : ∀ moment, Triaged i content (i.moved t target .null moment) (g (f content))) :
    Achieves (Environment.Holds · i.ctx content) (Holding (Triaged i content))
      ((Instance.move claim i t .null).bind fun
        | .error s => i.markFailed s
        | .ok next => Instance.settleFrom claim bound (rounds + 1) (steps + 1) next) := by
  refine (Instance.move_achieves hstate htarget rfl haction hentry).bind fun r => ?_
  rintro e ⟨moment, rfl, he⟩
  obtain ⟨j, hj, rfl, he'⟩ := Instance.settleFrom_rests (P := (Environment.Holds · i.ctx _))
    (i := i.moved t target .null moment) (.inr ⟨target, hthere, hkind⟩) e he
  exact ⟨_, hj, _, hstep moment, he'⟩

/-- **A claim leaves triage at once.** -/
theorem settle_triage {rounds steps : Nat} {bound : Option Int} (hrunning : i.status = .running)
    (hcurrent : i.current = "triage") (hbound : Instance.boundMet bound steps = none) :
    Achieves (Environment.Holds · i.ctx content) (Holding (Triaged i content))
      (Instance.settleFrom claim bound (rounds + 2) steps i) := by
  have hstate : claim.state? i.current = some triageState := by
    rw [hcurrent]
    rfl
  unfold Instance.settleFrom
  rw [if_neg fun h => h hrunning, hstate]
  dsimp only
  rw [if_neg (by decide)]
  refine select_triage.bind fun r => ?_
  rintro e ⟨he, ⟨hwithin, rfl⟩ | rfl | ⟨message, hfails, rfl⟩⟩
  · dsimp only
    rw [hbound]
    exact move_triaged hstate rfl (enacts_none rfl) enacts_payout (by decide) rfl
      (fun moment => .paid moment hwithin) e he
  · dsimp only
    rw [hbound]
    exact move_triaged hstate rfl (enacts_none rfl) (enacts_none rfl) (by decide) rfl .toManager e he
  · obtain ⟨j, hj, rfl, he'⟩ := Instance.markFailed_achieves (P := (Environment.Holds · i.ctx content))
      (i := i) (.hook ⟨.guard, i.current, .type message, i⟩) e he
    exact ⟨_, hj, _, .failed message hfails, he'⟩

/-- The claim rests where settling finds it. -/
theorem settle_rests (h : i.status ≠ .running ∨ i.current = "draft" ∨ i.current = "manager_review") :
    Achieves (Environment.Holds · i.ctx content)
      (fun j (e : Environment) => j = i ∧ e.Holds i.ctx content)
      (i.settle claim engine.limits) := by
  refine Instance.settleFrom_rests (P := (Environment.Holds · i.ctx content)) (h.imp_right ?_)
  rintro (h | h) <;> rw [h]
  · exact ⟨draftState, rfl, by decide⟩
  · exact ⟨managerState, rfl, by decide⟩

/-- The event is for no transition of the occupied state. -/
theorem send_stays {event : String}
    (h : i.status = .running → ∀ s, claim.state? i.current = some s → s.transitionsFor event = []) :
    Achieves (Environment.Holds · i.ctx content)
      (fun out (e : Environment) => Holding (Sent i content) out.reached e)
      (i.send claim engine.limits event) := by
  refine (Instance.send_refuses h).mono (fun _ he => he) ?_
  rintro out e ⟨hout, he⟩
  exact ⟨content, hout ▸ .stays, hout ▸ he⟩

theorem send_draft (event : String) (hrunning : i.status = .running) (hcurrent : i.current = "draft") :
    Achieves (Environment.Holds · i.ctx content)
      (fun out (e : Environment) => Holding (Sent i content) out.reached e)
      (i.send claim engine.limits event) := by
  have hstate : claim.state? i.current = some draftState := by
    rw [hcurrent]
    rfl
  by_cases hevent : event = "SUBMIT"
  · subst hevent
    refine Instance.send_achieves hrunning hstate rfl rfl rfl rfl enacts_submission
      (enacts_none rfl) fun moment => ?_
    refine (settle_triage rfl rfl rfl).mono (fun _ he => he) ?_
    rintro j e ⟨content', hstep, he⟩
    exact ⟨content', .submitted moment hrunning hcurrent hstep, he⟩
  · refine send_stays fun _ s hs => ?_
    rw [hstate] at hs
    cases hs
    simp [State.transitionsFor, draftState, Transition.isFor, submitting, Ne.symm hevent]

/-- What a manager decides leads to a state where the claim rests. -/
theorem send_decision {event : String} {t : Transition} {target : State}
    {g : List (String × Value) → List (String × Value)} (hrunning : i.status = .running)
    (hcurrent : i.current = "manager_review") (hname : managerState.transitionsFor event = [t])
    (hguard : t.guard = none) (haction : t.action = none)
    (htarget : claim.target? t.target = .ok (some target)) (hentry : Enacts target.onEnter g)
    (hrests : target.kind = .terminal ∨ target.id = "draft")
    (hstep : ∀ moment, Sent i content (i.moved t target (.text event) moment) (g content)) :
    Achieves (Environment.Holds · i.ctx content)
      (fun out (e : Environment) => Holding (Sent i content) out.reached e)
      (i.send claim engine.limits event) := by
  have hstate : claim.state? i.current = some managerState := by
    rw [hcurrent]
    rfl
  refine Instance.send_achieves hrunning hstate hname hguard htarget rfl (enacts_none haction)
    hentry fun moment => ?_
  have hover : (i.moved t target (.text event) moment).status ≠ .running ∨ target.id = "draft" := by
    refine hrests.imp_left fun hterminal => ?_
    simp [Instance.moved, State.isTerminal, hterminal]
  refine (settle_rests (i := i.moved t target (.text event) moment)
    (hover.imp_right .inl)).mono (fun _ he => he) ?_
  rintro j e ⟨rfl, he⟩
  exact ⟨_, hstep moment, he⟩

theorem send_manager (event : String) (hrunning : i.status = .running)
    (hcurrent : i.current = "manager_review") :
    Achieves (Environment.Holds · i.ctx content)
      (fun out (e : Environment) => Holding (Sent i content) out.reached e)
      (i.send claim engine.limits event) := by
  by_cases happrove : event = "APPROVE"
  · subst happrove
    exact send_decision hrunning hcurrent rfl rfl rfl rfl enacts_payout (.inl rfl)
      fun moment => .approved moment hrunning hcurrent
  by_cases hreject : event = "REJECT"
  · subst hreject
    exact send_decision hrunning hcurrent rfl rfl rfl rfl (enacts_none rfl) (.inl rfl)
      fun moment => .rejected moment hrunning hcurrent
  by_cases hreturn : event = "RETURN"
  · subst hreturn
    exact send_decision hrunning hcurrent rfl rfl rfl rfl (enacts_none rfl) (.inr rfl)
      fun moment => .returned moment hrunning hcurrent
  refine send_stays fun _ s hs => ?_
  rw [hcurrent] at hs
  cases hs
  simp [State.transitionsFor, managerState, Transition.isFor, approving, rejecting, returning,
    Ne.symm happrove, Ne.symm hreject, Ne.symm hreturn]

/-- **What an event makes of a claim.** -/
theorem send_claim (event : String)
    (h : i.status = .running → i.current = "draft" ∨ i.current = "manager_review") :
    Achieves (Environment.Holds · i.ctx content)
      (fun out (e : Environment) => Holding (Sent i content) out.reached e)
      (i.send claim engine.limits event) := by
  by_cases hrunning : i.status = .running
  · exact (h hrunning).elim (send_draft event hrunning) (send_manager event hrunning)
  · exact send_stays fun h => absurd h hrunning

end Workflow.Expense
