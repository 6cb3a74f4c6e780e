import Workflow.Proofs.Run.Rounds
import Workflow.Run.Start

/-!
# Where a hook has raised

A hook that raises is the last that an operation calls. If nothing escapes who is to blame it, what
it has raised is what the operation ends with. A run that is started and an event that is sent end
with a failed snapshot; the question whether an event would be taken has no answer then.

Main results: `send_raised`, `startAndSettle_raised` and `canFire_raised`.
-/

namespace Workflow

open Activity

namespace Instance

variable {d : Definition} {i j : Instance} {ts : List Transition} {event : Value} {limits : Limits}
  {cs : List HookCall} {call : HookCall} {f : Failure}

/-- What has raised was called last. -/
theorem OnlyLastRaises.getLast? (h : OnlyLastRaises cs) (hcall : call ∈ cs)
    (hf : call.raised? = some f) : cs.getLast? = some call := by
  obtain rfl | ⟨before, last, rfl⟩ := cs.eq_nil_or_concat
  · cases hcall
  rw [List.concat_eq_append] at hcall h ⊢
  rcases List.mem_append.1 hcall with hbefore | hlast
  · have hwell := h call (by rwa [List.dropLast_concat])
    cases hwell.symm.trans hf
  · rw [List.mem_singleton.1 hlast, List.getLast?_concat]

theorem Selects.raised {r : Except Halt (Option Transition)} (h : Selects i ts cs r)
    (hcall : call ∈ cs) (hf : call.raised? = some f) :
    r = .error (HookFailure.halt ⟨.guard, i.current, f, i⟩) := by
  cases r with
  | ok selected => cases (h.allWell call hcall).symm.trans hf
  | error halt =>
    obtain ⟨guard, f', hlast, rfl⟩ := h.error
    cases hlast.symm.trans (h.onlyLast.getLast? hcall hf)
    cases hf
    rfl

theorem Crosses.raised {t : Transition} {source target : State}
    {entry : Option (String × Value × Value)} {r : Except Halt Instance}
    (h : Crosses i t source target event cs entry r) (hcall : call ∈ cs)
    (hf : call.raised? = some f) : ∃ h : HookFailure, h.cause = f ∧ r = .error h.halt := by
  cases r with
  | ok next => cases (h.allWell call hcall).symm.trans hf
  | error halt =>
    obtain ⟨failure, hook, rfl, hlast, -⟩ := h.error
    cases hlast.symm.trans (h.onlyLast.getLast? hcall hf)
    cases hf
    exact ⟨failure, rfl, rfl⟩

/-- **A round in which a hook has raised** halts with what it has raised. -/
theorem Round.raised {source : State} {met : Option Int} {b : Block}
    {r : Except Halt (Option Instance)} (h : Round d i source event met ts b r)
    (hcall : call ∈ b.calls) (hf : call.raised? = some f) :
    ∃ h : HookFailure, h.cause = f ∧ r = .error h.halt := by
  cases h with
  | rests hsel | stalled hsel | astray hsel | unkeyed hsel =>
    cases (hsel.allWell call hcall).symm.trans hf
  | raises hsel =>
    cases hsel.raised hcall hf
    exact ⟨_, rfl, rfl⟩
  | crosses hsel _ _ hcross =>
    rcases List.mem_append.1 hcall with hguard | hmove
    · cases (hsel.allWell call hguard).symm.trans hf
    · obtain ⟨failure, hcause, rfl⟩ := hcross.raised hmove hf
      exact ⟨failure, hcause, rfl⟩

/-- A round that a hook has halted leaves a failed snapshot. -/
theorem Closes.raised {a : Except Failure Instance} {h : HookFailure} (hc : h.cause.escape = none)
    (ha : Closes i (.error h.halt) a) : ∃ k : Instance, a = .ok (k.failed h.cause) := by
  rw [halt_of_caught hc] at ha
  cases ha with
  | stops => exact ⟨_, rfl⟩

theorem Settles.raised {bound : Option Int} {rounds steps : Nat} {bs : List Block}
    {a : Except Failure Instance} (h : Settles d bound rounds steps i bs a)
    (hcall : call ∈ bs.flatMap (·.calls)) (hf : call.raised? = some f) (hc : f.escape = none) :
    ∃ k : Instance, a = .ok (k.failed f) := by
  induction h with
  | exhausted | finished | lost | waits => cases hcall
  | ends _ _ _ hb ha =>
    rw [List.flatMap_singleton] at hcall
    obtain ⟨failure, rfl, rfl⟩ := hb.raised hcall hf
    exact ha.raised hc
  | goes _ _ _ hb _ ih =>
    rw [List.flatMap_cons] at hcall
    rcases List.mem_append.1 hcall with hfirst | hlater
    · obtain ⟨failure, -, hr⟩ := hb.raised hfirst hf
      cases hr
    · exact ih hlater

theorem Dispatches.raised {name : String} {bs : List Block} {a : Except Failure Dispatch}
    (h : Dispatches d limits i name bs a) (hcall : call ∈ bs.flatMap (·.calls))
    (hf : call.raised? = some f) (hc : f.escape = none) :
    ∃ (k : Instance) (transitioned : Bool), a = .ok ⟨k.failed f, transitioned⟩ := by
  cases h with
  | idle => cases hcall
  | ends _ _ hb ha =>
    rw [List.flatMap_singleton] at hcall
    obtain ⟨failure, rfl, rfl⟩ := hb.raised hcall hf
    obtain ⟨k, rfl⟩ := ha.raised hc
    exact ⟨k, false, rfl⟩
  | goes _ _ hb hsettles =>
    rw [List.flatMap_cons] at hcall
    rcases List.mem_append.1 hcall with hfirst | hlater
    · obtain ⟨failure, -, hr⟩ := hb.raised hfirst hf
      cases hr
    · obtain ⟨k, rfl⟩ := hsettles.raised hlater hf hc
      exact ⟨k, true, rfl⟩

/-! ## Operations -/

/-- Where a hook that was called has raised what can be blamed on it, the ending is one for this
failure. -/
def RaisedEndsIn {α : Type} (Q : Failure → Except Failure α → Prop) (cs : List HookCall)
    (a : Except Failure α) : Prop :=
  ∀ call ∈ cs, ∀ f, call.raised? = some f → f.escape = none → Q f a

/-- **An event whose hook has raised** is answered with a failed snapshot. -/
theorem send_raised (d : Definition) (limits : Limits) (i : Instance) (event : String) :
    Calling i.ctx (RaisedEndsIn fun f a => ∃ (k : Instance) (transitioned : Bool),
      a = .ok ⟨k.failed f, transitioned⟩) (i.send d limits event) := by
  refine (send_calling d limits i event).mono fun cs a h call hcall f hf hc => ?_
  obtain ⟨bs, rfl, hdispatches⟩ := h
  exact hdispatches.raised hcall hf hc

/-- **The question whether an event would be taken** fails where a guard has raised. -/
theorem canFire_raised (d : Definition) (i : Instance) (event : String) :
    Calling i.ctx (RaisedEndsIn fun f a => a = .error (.hookFailed HookRole.guard.word i.current f))
      (i.canFire d event) := by
  rw [canFire_eq]
  refine (select_calling i _).bind (fun cs r hsel => ?_) fun cs f' hsel call hcall f hf hc => ?_
  · cases r with
    | ok selected =>
      refine .done fun call hcall f hf => ?_
      rw [List.append_nil] at hcall
      cases (hsel.allWell call hcall).symm.trans hf
    | error h =>
      refine .fail fun call hcall f hf hc => ?_
      rw [List.append_nil] at hcall
      have hhalt := hsel.raised hcall hf
      rw [halt_of_caught hc] at hhalt
      cases hhalt
      rfl
  · have hhalt := hsel.raised hcall hf
    rw [halt_of_caught hc] at hhalt
    cases hhalt

end Instance

/-- **A start in which a hook has raised** gives a failed snapshot. -/
theorem Definition.startAndSettle_raised (d : Definition) (limits : Limits) (c : Context)
    (id : String) :
    Calling c (Instance.RaisedEndsIn fun f a => ∃ k : Instance, a = .ok (k.failed f))
      (d.startAndSettle limits c (some id)) := by
  have hstart : d.startAndSettle limits c (some id) = readClock.bind fun moment =>
      (log .info ("Started instance " ++ id ++ " of workflow '" ++ d.id.display ++ "' in state '" ++
        d.initial ++ "'")).bind fun _ => (d.fresh c id moment.text).settle d limits := rfl
  rw [hstart]
  refine Calling.readClock_bind fun moment => Calling.log_bind _ _ ?_
  have hsettle := Instance.settleFrom_calling d limits.bound limits.budget 0
    (d.fresh c id moment.text)
  refine hsettle.mono fun cs a h call hcall f hf hc => ?_
  obtain ⟨bs, rfl, hsettles⟩ := h
  exact hsettles.raised hcall hf hc

end Workflow
