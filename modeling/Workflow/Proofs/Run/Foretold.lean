import Workflow.Proofs.Document.Keyed
import Workflow.Proofs.Run.Answered
import Workflow.Proofs.Run.Guards

/-!
# Asking before sending

`Instance.canFire` tells beforehand what `Instance.send` does with an event. Both begin by trying
the guards of the candidates.

**The same view.** The two may run in different worlds, as long as the context has one view in both
and the guards judge by it. They then call the same guards, with the same result
(`select_echoes`).

**What asking tells** (`Instance.Foretells`). Asking says no, fails or says yes as sending leaves
the snapshot as it is, marks it as failed for a guard, or goes on beyond the guards. An event that
is taken is answered by a moved or a failed snapshot, if nothing escapes who is to blame a hook and
settling comes to an end.

Main result: `canFire_foretells`. If something escapes from a hook after the guards, sending has no
answer at all, whatever asking has said; and if it does from a guard, asking says nothing of the
guard (`foretold_unanswered`).
-/

namespace Workflow

open Activity

variable {V : Type} {view : Arena → Datum → V} {e e' : Environment}

namespace Instance

variable {d : Definition} {i : Instance} {t : Transition} {ts : List Transition} {event : String}
  {limits : Limits}

/-! ## After the guards -/

theorem follow_failsOnly (hd : d.Tame Hook.Caught) {s : State} (hs : d.state? i.current = some s)
    (ht : t ∈ s.transitions) :
    FailsOnly (fun f => f = .exhausted ∧ limits.bound = none) (i.follow d limits t event) := by
  refine (move_failsOnly hd hs ht).bind fun _ r _ => ?_
  rcases r with s | next
  · exact (markFailed_failsOnly s).bind fun _ _ _ => .done _
  · refine FailsOnly.bind (settleFrom_failsOnly hd fun n hn => ?_) fun _ _ _ => .done _
    simp [Limits.budget, hn]

/-! ## What asking tells -/

/-- What asking whether an event would be taken says about sending it, where `tried` is the common
beginning of both. -/
structure Foretells (d : Definition) (limits : Limits) (i : Instance) (event : String)
    (asked : Outcome Realm.flow Bool)
    (tried : Outcome Realm.flow (Except HookFailure (Option Transition)))
    (sent : Outcome Realm.flow Dispatch) : Prop where
  /-- Asking calls the guards that sending tries first, in the same order. -/
  guards : calls asked.reports = calls tried.reports
  begins : ∃ later, sent.reports = tried.reports ++ later
  /-- The answer is no when sending leaves the very same snapshot. -/
  no : asked.answer = .ok false ↔ sent.answer = .ok ⟨i, false⟩
  /-- Asking fails when a guard does, -/
  fault : ∀ c, asked.answer = .error (.hookFailed HookRole.guard.word i.current c) ↔
    tried.answer = .ok (.error ⟨.guard, i.current, c, i⟩)
  /-- in no other way, -/
  only : ∀ f, asked.answer = .error f → ∃ c, f = .hookFailed HookRole.guard.word i.current c
  /-- and then sending marks the snapshot as failed, and calls no other hook. -/
  failed : ∀ h, tried.answer = .ok (.error h) →
    sent.answer = .ok ⟨i.failed h.cause, false⟩ ∧ calls sent.reports = calls tried.reports
  /-- The answer is yes when sending follows a transition, -/
  yes : asked.answer = .ok true ↔ ∃ t ∈ i.candidates d event,
    tried.answer = .ok (.ok (some t)) ∧ sent = tried.andThen fun _ => i.follow d limits t event
  /-- and then it moves or fails, if nothing escapes from the hooks and it comes to an end. -/
  answered : asked.answer = .ok true → d.Tame Hook.Caught →
    (limits.bound = none → sent.answer ≠ .error .exhausted) →
      ∃ out, sent.answer = .ok out ∧ (out.transitioned = true ∨ out.reached.status = .failed)

theorem canFire_reports (d : Definition) (i : Instance) (event : String) (e : Environment) :
    ((i.canFire d event).run e).reports = ((i.select (i.candidates d event)).run e).reports := by
  rw [canFire_eq]
  cases hr : ((i.select (i.candidates d event)).run e).answer with
  | error f => rw [run_bind_of_error hr]
  | ok r =>
    rw [run_bind_of_ok hr]
    cases r <;> exact List.append_nil _

/-- What asking answers, by what the guards gave. -/
def told (i : Instance) : Except HookFailure (Option Transition) → Except Failure Bool
  | .error h => .error (.hookFailed HookRole.guard.word i.current h.cause)
  | .ok selected => .ok selected.isSome

theorem told_no {r : Except HookFailure (Option Transition)} :
    i.told r = .ok false ↔ r = .ok none := by
  rcases r with h | _ | t <;> simp [told]

theorem told_yes {r : Except HookFailure (Option Transition)} :
    i.told r = .ok true ↔ ∃ t, r = .ok (some t) := by
  rcases r with h | _ | t <;> simp [told]

theorem told_error {r : Except HookFailure (Option Transition)} {f : Failure}
    (h : i.told r = .error f) :
    ∃ h, r = .error h ∧ f = .hookFailed HookRole.guard.word i.current h.cause := by
  rcases r with h' | selected <;> cases h
  exact ⟨h', rfl, rfl⟩

theorem canFire_told {r : Except HookFailure (Option Transition)}
    (hr : ((i.select (i.candidates d event)).run e).answer = .ok r) :
    ((i.canFire d event).run e).answer = i.told r := by
  rw [canFire_eq, run_bind_of_ok hr]
  cases r with
  | ok selected => rfl
  | error h =>
    have hblame := select_error (hr ▸ canEnd_run (i.select (i.candidates d event)) e)
    rw [hblame]
    rfl

/-- Refusing an event for a setback calls no hook. -/
theorem run_refuseWith (i : Instance) (s : Setback) (e : Environment) :
    ((i.refuseWith s).run e).answer = .ok ⟨(s.reached i).failed s.cause, false⟩ ∧
      calls ((i.refuseWith s).run e).reports = [] := by
  obtain ⟨message, heq⟩ := markFailed_eq i s
  rw [refuseWith, heq, logFailure]
  split <;> exact ⟨rfl, rfl⟩

/-- A guard that fails marks the snapshot as failed, and no other hook is called. -/
theorem send_of_fault {h : HookFailure}
    (hr : ((i.select (i.candidates d event)).run e).answer = .ok (.error h)) :
    ((i.send d limits event).run e).answer = .ok ⟨i.failed h.cause, false⟩ ∧
      calls ((i.send d limits event).run e).reports =
        calls ((i.select (i.candidates d event)).run e).reports := by
  have hreached : h.reached = i :=
    select_error_reached (hr ▸ canEnd_run (i.select (i.candidates d event)) e)
  obtain ⟨idle, -, hsend⟩ := send_eq d limits i event
  rw [hsend, run_bind_of_ok hr]
  constructor
  · dsimp only
    rw [(run_refuseWith ..).1]
    show Except.ok (Dispatch.mk (h.reached.failed h.cause) false) = _
    rw [hreached]
  · dsimp only
    rw [calls_append, (run_refuseWith ..).2, List.append_nil]

/-- A guard that says yes makes sending follow its transition. -/
theorem send_of_selected {t : Transition}
    (hr : ((i.select (i.candidates d event)).run e).answer = .ok (.ok (some t))) :
    (i.send d limits event).run e =
      ((i.select (i.candidates d event)).run e).andThen fun _ => i.follow d limits t event := by
  obtain ⟨idle, -, hsend⟩ := send_eq d limits i event
  rw [hsend, run_bind_of_ok hr, Outcome.andThen, hr]

theorem send_begins (d : Definition) (limits : Limits) (i : Instance) (event : String)
    (e : Environment) : ∃ later, ((i.send d limits event).run e).reports =
      ((i.select (i.candidates d event)).run e).reports ++ later := by
  obtain ⟨idle, -, hsend⟩ := send_eq d limits i event
  rw [hsend]
  cases hr : ((i.select (i.candidates d event)).run e).answer with
  | error f =>
    rw [run_bind_of_error hr]
    exact ⟨[], (List.append_nil _).symm⟩
  | ok r =>
    rw [run_bind_of_ok hr]
    exact ⟨_, rfl⟩

/-- Following a transition moves the run or makes it fail. -/
theorem follow_effect {t : Transition} {out : Dispatch}
    (h : (i.follow d limits t event).CanEnd (.ok out)) :
    out.transitioned = true ∨ out.reached.status = .failed := by
  rcases follow_ok h with ⟨s, -, rfl⟩ | ⟨next, settled, -, -, rfl⟩
  · exact .inr rfl
  · exact .inl rfl

/-- Sending leaves the very same snapshot if and only if no guard has failed or said yes. -/
theorem send_same_iff {r : Except HookFailure (Option Transition)}
    (hr : ((i.select (i.candidates d event)).run e).answer = .ok r) :
    ((i.send d limits event).run e).answer = .ok ⟨i, false⟩ ↔ r = .ok none := by
  have hrunning : r ≠ .ok none → i.status = .running :=
    running_of_select (hr ▸ canEnd_run (i.select (i.candidates d event)) e)
  obtain ⟨idle, hidle, hsend⟩ := send_eq d limits i event
  rw [hsend, run_bind_of_ok hr]
  rcases r with h | _ | t
  · refine ⟨fun hsame => ?_, nofun⟩
    have hrefused := (run_refuseWith i (.hook h) _).1.symm.trans hsame
    have hstatus : Status.failed = i.status :=
      congrArg (·.reached.status) (Except.ok.inj hrefused)
    rw [hrunning nofun] at hstatus
    cases hstatus
  · exact ⟨fun _ => rfl, fun _ => hidle.run _⟩
  · refine ⟨fun hsame => ?_, nofun⟩
    have heffect := follow_effect (hsame ▸ canEnd_run (i.follow d limits t event) _)
    simp [hrunning nofun] at heffect

/-- **Asking foretells sending**, wherever the two begin with one view of the context and the guards
that are tried judge by it, and nothing escapes from them. -/
theorem canFire_foretells (he : Abreast view i.ctx i.ctx e e')
    (hg : ∀ t ∈ i.candidates d event, ∀ h, t.guard = some h → h.Judges view ∧ h.Caught) :
    Foretells d limits i event ((i.canFire d event).run e)
      ((i.select (i.candidates d event)).run e') ((i.send d limits event).run e') := by
  obtain ⟨hanswer, hcalls, -⟩ := select_echoes (fun t ht h hh => (hg t ht h hh).1) e e' he
  have hnever : FailsOnly (fun _ => False) (i.select (i.candidates d event)) :=
    select_failsOnly fun t ht h hh => (hg t ht h hh).2
  cases hr : ((i.select (i.candidates d event)).run e').answer with
  | error f => exact (hnever e' f hr).elim
  | ok r =>
  have hasked : ((i.canFire d event).run e).answer = i.told r :=
    canFire_told (hanswer.symm.trans hr)
  have hended := hr ▸ canEnd_run (i.select (i.candidates d event)) e'
  constructor
  · rw [canFire_reports, hcalls]
  · exact send_begins d limits i event e'
  · rw [hasked, told_no, send_same_iff hr]
  · intro c
    rw [hasked, hr]
    constructor
    · intro h
      obtain ⟨f, rfl, hf⟩ := told_error h
      cases hf
      rw [← select_error hended]
    · intro h
      cases h
      rfl
  · intro f h
    rw [hasked] at h
    obtain ⟨g, -, hf⟩ := told_error h
    exact ⟨g.cause, hf⟩
  · intro h hh
    exact send_of_fault hh
  · rw [hasked, told_yes]
    constructor
    · rintro ⟨t, rfl⟩
      exact ⟨t, select_mem hended, hr, send_of_selected hr⟩
    · rintro ⟨t, -, ht, -⟩
      exact ⟨t, Except.ok.inj (hr.symm.trans ht)⟩
  · intro hyes hd hends
    rw [hasked, told_yes] at hyes
    obtain ⟨t, rfl⟩ := hyes
    obtain ⟨s, hs, hmem, -⟩ := (Choice.of_candidate (select_mem hended)).source
    rw [send_of_selected hr, Outcome.andThen, hr] at hends ⊢
    dsimp only at hends ⊢
    cases hout : ((i.follow d limits t event).run _).answer with
    | ok out => exact ⟨out, rfl, follow_effect (hout ▸ canEnd_run (i.follow d limits t event) _)⟩
    | error f =>
      obtain ⟨rfl, hbound⟩ := follow_failsOnly hd hs hmem _ f hout
      exact absurd hout (hends hbound)

end Instance

/-! ## An order that is paid for -/

/-- The guard of an order: there is money in the context. -/
def funded : Hook where
  name := "funded"
  body root := .done (.datum root)

/-- An order with what happens when it is paid for, if the guard says yes. -/
def checkoutIf (guard charge : Hook) : Definition where
  id := .text "order"
  initial := "placed"
  states := Dict.ofList [
    ("placed", { id := "placed", transitions := [
      { target := .text "paid", event := .text "pay", guard := some guard,
        action := some charge }] }),
    ("paid", { id := "paid" })]

/-- An order that is paid for from the money in the context. -/
def checkout (charge : Hook) : Definition := checkoutIf funded charge

/-- A payment that goes through. -/
def charged : Hook where
  name := "charge"
  body _ := .done (.datum .null)

/-- A payment that fails. -/
def declined (f : Failure) : Hook where
  name := "charge"
  body _ := .fail f

/-- A failure that can be told. -/
def noCoins : Failure := .value "no coins"

/-- A failure about a number that has too many digits to be told. -/
def tooLong : Failure :=
  .illWorded (.value "too long") (some (.value "too many digits")) (some (.value "too many digits"))

theorem funded_plain : funded.Plain := fun _ _ _ h => nomatch h

theorem declined_plain {f : Failure} (hf : f.Plain) : (declined f).Plain := by
  intro c e g h
  cases h
  exact hf

theorem noCoins_plain : noCoins.Plain := ⟨rfl, rfl, nofun⟩

theorem funded_judges : funded.Judges wholeView ∧ funded.Caught :=
  ⟨funded.judges_whole fun _ _ => rfl, funded_plain.caught⟩

theorem checkout_state {charge : Hook} {key : String} {s : State}
    (hs : (checkout charge).state? key = some s) :
    s.onExit = none ∧ s.onEnter = none ∧ ∀ t ∈ s.transitions,
      t.target = .text "paid" ∧ t.guard = some funded ∧ t.action = some charge := by
  have hmem := Dict.get?_ofList_mem hs
  simp only [List.mem_cons, List.not_mem_nil, or_false, Prod.mk.injEq] at hmem
  rcases hmem with ⟨-, rfl⟩ | ⟨-, rfl⟩ <;> simp

theorem checkout_tame {charge : Hook} (hcharge : charge.Plain) :
    (checkout charge).Tame Hook.Plain := by
  constructor
  · intro h hh
    cases hh with
    | guard hs ht hg =>
      obtain ⟨-, hfunded, -⟩ := (checkout_state hs).2.2 _ ht
      cases hg.symm.trans hfunded
      exact funded_plain
    | action hs ht ha =>
      obtain ⟨-, -, haction⟩ := (checkout_state hs).2.2 _ ht
      cases ha.symm.trans haction
      exact hcharge
    | exit hs he => cases (checkout_state hs).1.symm.trans he
    | entry hs he => cases (checkout_state hs).2.1.symm.trans he
  · intro key s t hs ht f
    obtain ⟨htarget, -⟩ := (checkout_state hs).2.2 t ht
    rw [htarget]
    nofun

/-- The order as it was placed, with five coins. -/
def orderPlaced : Instance := (checkout charged).fresh ⟨0, .int 5⟩ "A1" (Instant.text ⟨0⟩)

/-- The world of the order. -/
def counter : Environment := { clock := { reading := fun _ => ⟨0⟩ }, contexts := ⟨#[⟨#[]⟩]⟩ }

theorem orderPlaced_guards {charge : Hook} :
    ∀ t ∈ orderPlaced.candidates (checkout charge) "pay", ∀ h, t.guard = some h →
      h.Judges wholeView ∧ h.Caught := by
  intro t ht h hh
  obtain ⟨s, hs, hmem, -⟩ := (Instance.Choice.of_candidate ht).source
  obtain ⟨-, hfunded, -⟩ := (checkout_state hs).2.2 t hmem
  cases hh.symm.trans hfunded
  exact funded_judges

/-- A payment is foretold that is then declined. -/
theorem canFire_foretells_declined :
    let d := checkout (declined noCoins)
    Abreast wholeView orderPlaced.ctx orderPlaced.ctx counter counter ∧
      (∀ t ∈ orderPlaced.candidates d "pay", ∀ h, t.guard = some h →
        h.Judges wholeView ∧ h.Caught) ∧
      ((orderPlaced.canFire d "pay").run counter).answer = .ok true ∧ d.Tame Hook.Caught ∧
      ∃ out, ((orderPlaced.send d {} "pay").run counter).answer = .ok out ∧
        (out.transitioned = true ∨ out.reached.status = .failed) := by
  intro d
  have he : Abreast wholeView orderPlaced.ctx orderPlaced.ctx counter counter :=
    ⟨Nat.zero_lt_one, Nat.zero_lt_one, rfl⟩
  have hyes : ((orderPlaced.canFire d "pay").run counter).answer = .ok true := rfl
  have htame : d.Tame Hook.Caught := (checkout_tame (declined_plain noCoins_plain)).caught
  have hforetold : Instance.Foretells d {} orderPlaced "pay" _ _ _ :=
    Instance.canFire_foretells he orderPlaced_guards
  exact ⟨he, orderPlaced_guards, hyes, htame, hforetold.answered hyes htame fun _ => nofun⟩

/-- Where the payment is aborted, or fails in a way that cannot be told, the event is taken all the
same, and there is no answer. A guard that fails in such a way is not blamed for it. -/
theorem foretold_unanswered :
    (∀ f, (∀ t ∈ orderPlaced.candidates (checkout (declined f)) "pay", ∀ h, t.guard = some h →
        h.Judges wholeView ∧ h.Caught) ∧
      ((orderPlaced.canFire (checkout (declined f)) "pay").run counter).answer = .ok true) ∧
    ((orderPlaced.send (checkout (declined (.aborted "power cut"))) {} "pay").run counter).answer =
      .error (.aborted "power cut") ∧
    ((orderPlaced.send (checkout (declined tooLong)) {} "pay").run counter).answer =
      .error (.value "too many digits") ∧
    (declined tooLong).Judges wholeView ∧
    ((orderPlaced.canFire (checkoutIf (declined tooLong) charged) "pay").run counter).answer =
      .error (.value "too many digits") :=
  ⟨fun _ => ⟨orderPlaced_guards, rfl⟩, rfl, rfl, Hook.judges_whole _ fun _ _ => rfl, rfl⟩

end Workflow
