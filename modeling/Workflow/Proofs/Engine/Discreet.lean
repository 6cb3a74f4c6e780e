import Workflow.Proofs.Activity.Amid
import Workflow.Proofs.Engine.Custody
import Workflow.Proofs.Engine.Notified
import Workflow.Proofs.Run.Fates

/-!
# Discreet observers

What an observer raises in a contained way goes no further. The same is true of what the events that
it sends on come to, and of what other observers raise on them.

**Discreet observers** (`Engine.Discreet`). They raise in contained ways only, and so does all that
comes of the events that they send, as long as instances have the same definitions.

Main results: `announce_discreet`, that telling them does not fail, and `discreet_of_contained`.
Where observers raise in contained ways only, nothing escapes from hooks, and cascades have a bound,
observers are discreet.
-/

namespace Workflow

open Activity

/-- The reaction fails in contained ways only, whatever comes of the events that it sends. -/
def Reaction.Contained : Reaction → Prop
  | .done => True
  | .fail f => f.isContained
  | .note _ next | .yield next | .subscribe _ next | .unsubscribe _ next => next.Contained
  | .send _ _ k => ∀ out, (k out).Contained

namespace Engine

variable {e : Engine} {definitions : Dict String Definition} {w : EngineState} {id event : String}
  {depth : Nat} {f : Failure}

/-- Events leave the definitions alone. -/
theorem definitions_lasting (definitions : Dict String Definition) :
    Lasting (fun w => w.definitions = definitions) fun _ _ => True where
  held _ _ := trivial
  put hw _ := hw
  aside hw _ hdefinitions _ := hdefinitions.trans hw
  sent _ _ _ _ :=
    (Steady.lift Empty.elim (fun _ _ hw => hw) _).mono fun _ _ => trivial

theorem calm_sendWithin (e : Engine) (definitions : Dict String Definition) (depth : Nat)
    (id event : String) :
    Calm (fun w => w.definitions = definitions) (e.sendWithin depth id event) :=
  ((definitions_lasting definitions).sendWithin depth id event).mono fun _ _ => trivial

/-- What comes of telling observers is contained, where instances have these definitions, and
sending goes to a depth. -/
def DiscreetWithin (e : Engine) (definitions : Dict String Definition) (depth : Nat) : Prop :=
  ∀ name n w f, w.definitions = definitions →
    ((perform (e.sendWithin depth) (e.reactionOf name n)).run w).answer = .error f → f.isContained

/-- What comes of telling observers is contained, where instances have these definitions. -/
abbrev Discreet (e : Engine) (definitions : Dict String Definition) : Prop :=
  e.DiscreetWithin definitions e.nesting

theorem tellAll_discreet (h : e.DiscreetWithin definitions depth) (n : Notice) (names : List String)
    (hw : w.definitions = definitions) :
    ((e.tellAll (e.sendWithin depth) n names).run w).answer = .ok () := by
  induction names generalizing w with
  | nil => rfl
  | cons name rest ih =>
    have hcalm := (definitions_lasting definitions).perform (calm_sendWithin e definitions depth)
      (e.reactionOf name n)
    have hnext := (hcalm.run hw).1
    unfold tellAll
    rw [run_bind, run_contained]
    cases hr : ((perform (e.sendWithin depth) (e.reactionOf name n)).run w).answer with
    | ok u =>
      simp only [Outcome.andThen]
      exact ih hnext
    | error f =>
      simp only [Outcome.andThen, if_pos (h name n w f hw hr), Activity.run]
      exact ih hnext

/-- **Telling discreet observers does not fail.** -/
theorem announce_discreet (h : e.DiscreetWithin w.definitions depth) (event : String)
    (before : Instance) (out : Dispatch) :
    ((e.announce (e.sendWithin depth) event before out).run w).answer = .ok () := by
  unfold announce
  split
  · exact tellAll_discreet h _ _ rfl
  · rfl

/-! ## Observers and hooks from which nothing escapes -/

theorem perform_contained {send : String → String → Call Dispatch} {r : Reaction}
    (hcalm : ∀ id event, Calm (fun w => w.definitions = definitions) (send id event))
    (hsend : ∀ id event w f, w.definitions = definitions →
      ((send id event).run w).answer = .error f → f.isContained)
    (hr : r.Contained) (hw : w.definitions = definitions)
    (hf : ((perform send r).run w).answer = .error f) : f.isContained := by
  induction r generalizing w with
  | done => cases hf
  | fail f' =>
    cases hf
    exact hr
  | note v next ih => exact ih hr hw hf
  | yield next ih => exact ih hr hw hf
  | subscribe name next ih => exact ih (w := { w with observers := w.observers ++ [name] }) hr hw hf
  | unsubscribe name next ih => exact ih (w := { w with observers := w.observers.erase name }) hr hw hf
  | send id event k ih =>
    unfold perform at hf
    cases hsent : ((send id event).run w).answer with
    | error f' =>
      rw [run_bind_of_error hsent] at hf
      cases hf
      exact hsend id event w f hw hsent
    | ok out =>
      rw [run_bind_of_ok hsent] at hf
      exact ih out (hr out) ((hcalm id event).run hw).1 hf

/-- An event fails in contained ways only, if observers are discreet and hooks are caught. -/
theorem sendWithin_contained (htame : ∀ id d, definitions.get? id = some d → d.Tame Hook.Caught)
    (hbound : e.limits.bound ≠ none)
    (h : e.DiscreetWithin definitions depth) (hw : w.definitions = definitions)
    (hf : ((e.sendWithin (depth + 1) id event).run w).answer = .error f) : f.isContained := by
  unfold sendWithin at hf
  cases hdispatch : ((e.dispatch id event).run w).answer with
  | error f' =>
    rw [run_bind_of_error hdispatch] at hf
    cases hf
    cases hd : w.definitions.get? id with
    | none =>
      rw [dispatch_run_unknown (.inl hd)] at hdispatch
      cases hdispatch
      rfl
    | some d =>
      cases hi : w.instances.get? id with
      | none =>
        rw [dispatch_run_unknown (.inr hi)] at hdispatch
        cases hdispatch
        rfl
      | some i =>
        rw [dispatch_run_found hd hi] at hdispatch
        unfold dispatched at hdispatch
        split at hdispatch
        · cases hdispatch
        next f' hsend =>
          cases hdispatch
          obtain ⟨-, hnone⟩ := Instance.send_failsOnly (htame id d (hw ▸ hd)) _ _ hsend
          exact absurd hnone hbound
  | ok out =>
    have hnext : ((e.dispatch id event).run w).world.definitions = definitions :=
      (((definitions_lasting definitions).dispatch e id event).run hw).1
    have hannounce := announce_discreet (hnext ▸ h) event out.1 out.2
    rw [run_bind_of_ok hdispatch, run_bind_of_ok hannounce] at hf
    cases hf

/-- **Where nothing escapes from observers and hooks, observers are discreet.** -/
theorem discreet_of_contained (hobservers : ∀ o ∈ e.directory, ∀ n, (o.react n).Contained)
    (htame : ∀ id d, definitions.get? id = some d → d.Tame Hook.Caught)
    (hbound : e.limits.bound ≠ none) :
    e.Discreet definitions := by
  have hreaction : ∀ name n, (e.reactionOf name n).Contained := by
    intro name n
    unfold reactionOf
    split
    next o ho => exact hobservers o (List.mem_of_find?_eq_some ho) n
    · trivial
  have hwithin : ∀ depth, e.DiscreetWithin definitions depth := by
    intro depth
    induction depth with
    | zero =>
      intro name n w f hw hf
      refine perform_contained (calm_sendWithin e definitions 0) ?_ (hreaction name n) hw hf
      rintro id event w f - ⟨⟩
      rfl
    | succ depth ih =>
      intro name n w f hw hf
      refine perform_contained (calm_sendWithin e definitions _) ?_ (hreaction name n) hw hf
      exact fun id event w f hw hf => sendWithin_contained htame hbound ih hw hf
  exact hwithin e.nesting

end Engine

end Workflow
