import Workflow.Proofs.Run.Foretold
import Workflow.Proofs.Run.History
import Workflow.Proofs.Run.Rounds

/-!
# What comes of an event

An event that is sent to a running instance has one of four fates (`Fate`). No transition takes it;
a guard, the exit hook or the action stops it, or a target that is missing; the entry hook of the
target fails after the visit was recorded; or the move is made and the instance settles.

**Failures** are named as they are: the error of a failed run is the very failure that the last
hook called has raised, even if it is one of the library's own kinds (`Cause`).

Main result: `send_outcome`. In a definition with plain hooks and targets that can be looked up an
event is always answered, with exactly one of the fates, and the history stays in order. With other
targets or hooks there may be no answer, or an error that no hook has raised (`send_unanswered`).
-/

namespace Workflow

open Activity

namespace Instance

variable {d : Definition} {i j k : Instance} {t : Transition} {ts : List Transition}
  {event : String} {limits : Limits} {e : Environment} {cs : List HookCall} {f : Failure}
  {out : Dispatch}

/-- The ways in which sending an event can come out. -/
inductive Fate where
  /-- No transition takes the event. -/
  | ignored
  /-- The move stops before the target is entered. -/
  | stopped
  /-- The target is entered, and its entry hook fails. -/
  | entered
  /-- The move is made, and the instance settles. -/
  | taken
  deriving DecidableEq, Repr

/-- What makes a run fail: the hook that was called last has raised it, a state is not in the
table, or a bound is met. -/
inductive Cause (d : Definition) (bound : Option Int) (cs : List HookCall) : Failure → Prop
  | raised {call : HookCall} {f : Failure} : cs.getLast? = some call → call.raised? = some f →
      Cause d bound cs f
  | missing {state : Value} : d.target? state = .ok none →
      Cause d bound cs (.stateNotFound state d.id)
  | stalled {n : Int} (state : String) : bound = some n → Cause d bound cs (.stalled state n)

/-- The outcome of an event with a fate, where these hooks were called. -/
inductive Sent (d : Definition) (limits : Limits) (i : Instance) (event : String)
    (cs : List HookCall) : Fate → Dispatch → Prop
  | ignored : Sent d limits i event cs .ignored ⟨i, false⟩
  | raised {call : HookCall} {f : Failure} : cs.getLast? = some call → call.role ≠ .onEnter →
      call.raised? = some f → Sent d limits i event cs .stopped ⟨i.failed f, false⟩
  | astray {t : Transition} : Selects i (i.candidates d event) cs (.ok (some t)) →
      d.target? t.target = .ok none →
      Sent d limits i event cs .stopped ⟨i.failed (.stateNotFound t.target d.id), false⟩
  | entered {guards later : List HookCall} {t : Transition} {target : State} {hook : Hook}
      {f : Failure} (moment : String) : cs = guards ++ later →
      Selects i (i.candidates d event) guards (.ok (some t)) →
      d.target? t.target = .ok (some target) →
      cs.getLast? = some (.effect .onEnter hook (.error f)) → target.onEnter = some hook →
      Sent d limits i event cs .entered
        ⟨(i.moved t target (.text event) moment).failed f, false⟩
  | taken {guards later : List HookCall} {t : Transition} {target : State}
      {autos : List (String × Value × Value)} {settled : Instance} : cs = guards ++ later →
      Selects i (i.candidates d event) guards (.ok (some t)) →
      d.target? t.target = .ok (some target) →
      settled.history.map Visit.mark =
        i.history.map Visit.mark ++ (target.id, t.id, .text event) :: autos →
      (∀ m ∈ autos, m.2.2 = .null) →
      (settled.status = .failed →
        ∃ f, settled.error = some f ∧ Cause d limits.bound cs f) →
      Sent d limits i event cs .taken ⟨settled, true⟩

/-! ## The fates exclude each other -/

/-- What an outcome shows of its fate. -/
def fateOf (i : Instance) (out : Dispatch) : Fate :=
  if out.transitioned then .taken
  else if out.reached.status = i.status then .ignored
  else if out.reached.history.length = i.history.length then .stopped
  else .entered

/-- **An outcome has one fate at most.** -/
theorem Sent.fate_eq {fate : Fate} (hr : i.status = .running)
    (h : Sent d limits i event cs fate out) : fate = i.fateOf out := by
  cases h with
  | ignored => simp [fateOf]
  | raised | astray => simp [fateOf, hr, failed]
  | entered moment => simp [fateOf, hr, failed, moved_length]
  | taken => simp [fateOf]

/-! ## What makes a run fail -/

theorem Cause.append {bound : Option Int} {cs' : List HookCall} (h : Cause d bound cs' f) :
    Cause d bound (cs ++ cs') f := by
  cases h with
  | raised hcall hf => exact .raised (by simp [hcall]) hf
  | missing h => exact .missing h
  | stalled state h => exact .stalled state h

theorem Round.cause {source : State} {trigger : Value} {met bound : Option Int} {b : Block}
    {s : Setback} (h : Round d i source trigger met ts b (.error (.setback s)))
    (hmet : ∀ n, met = some n → bound = some n) : Cause d bound b.calls s.cause := by
  generalize hr : Except.error (Halt.setback s) = r at h
  cases h with
  | rests | unkeyed => cases hr
  | stalled _ hn =>
    cases hr
    exact .stalled source.id (hmet _ hn)
  | astray _ _ hnone =>
    cases hr
    exact .missing hnone
  | raises hsel =>
    obtain ⟨guard, f, hlast, rfl⟩ := hsel.error
    obtain rfl := halt_setback (Except.error.inj hr).symm
    exact .raised hlast rfl
  | @crosses _ _ _ _ _ r _ _ _ hcross =>
    cases r with
    | ok k => cases hr
    | error halt =>
      obtain ⟨f, hook, rfl, hlast, -⟩ := hcross.error
      obtain rfl := halt_setback (Except.error.inj hr).symm
      exact .append (.raised hlast rfl)

/-- A run that fails while it settles does so for a cause. -/
theorem Settles.cause {bound : Option Int} {rounds steps : Nat} {bs : List Block}
    {a : Except Failure Instance} (h : Settles d bound rounds steps i bs a)
    (hi : i.status ≠ .failed) (ha : a = .ok k) (hk : k.status = .failed) :
    ∃ f, k.error = some f ∧ Cause d bound (bs.flatMap (·.calls)) f := by
  induction h with
  | exhausted => cases ha
  | finished | waits =>
    cases ha
    exact absurd hk hi
  | lost _ hs =>
    cases ha
    exact ⟨_, rfl, .missing (congrArg Except.ok hs)⟩
  | @ends _ _ _ _ b _ _ _ _ _ hb hclose =>
    have hcalls : [b].flatMap (·.calls) = b.calls := List.flatMap_singleton ..
    rw [hcalls]
    cases hclose with
    | rests =>
      cases ha
      exact absurd hk hi
    | stops s =>
      cases ha
      exact ⟨s.cause, rfl, hb.cause fun n hn => (Option.filter_eq_some_iff.1 hn).1⟩
    | leaves => cases ha
  | goes _ _ _ hb _ ih =>
    obtain ⟨t, target, moment, rfl, -⟩ := hb.goes
    obtain ⟨f, hf, hcause⟩ := ih (moved_status_ne _ t target .null moment) ha
    exact ⟨f, hf, hcause.append⟩

/-! ## From rounds to fates -/

theorem Round.entry_event {source : State} {trigger : Value} {met : Option Int} {b : Block}
    {r : Except Halt (Option Instance)} (h : Round d i source trigger met ts b r) :
    ∀ m ∈ b.entry, m.2.2 = trigger := by
  cases h with
  | crosses _ _ _ hcross =>
    cases hcross with
    | exit | action => nofun
    | entry | moved =>
      rintro _ ⟨⟩
      rfl
  | _ => nofun

/-- Settling adds visits without an event. -/
theorem Settles.entry_event {bound : Option Int} {rounds steps : Nat} {bs : List Block}
    {a : Except Failure Instance} (h : Settles d bound rounds steps i bs a) :
    ∀ m ∈ bs.filterMap (·.entry), m.2.2 = .null := by
  intro m hm
  obtain ⟨b, hb, hentry⟩ := List.mem_filterMap.1 hm
  clear hm
  induction h with
  | exhausted | finished | lost | waits => cases hb
  | ends _ _ _ hround =>
    obtain rfl := List.mem_singleton.1 hb
    exact hround.entry_event m hentry
  | goes _ _ _ hround _ ih =>
    rcases List.mem_cons.1 hb with rfl | hb
    · exact hround.entry_event m hentry
    · exact ih hb

/-- A round for the event that does not go on decides the fate. -/
theorem Round.sent {source : State} {b : Block} {r : Except Halt (Option Instance)}
    (h : Round d i source (.text event) none (i.candidates d event) b r)
    (hk : Closes i r (.ok k)) : ∃ fate, Sent d limits i event b.calls fate ⟨k, false⟩ := by
  generalize ha : Except.ok k = a at hk
  cases hk with
  | leaves => cases ha
  | rests =>
    cases ha
    exact ⟨.ignored, .ignored⟩
  | stops s =>
    cases ha
    generalize hr : Except.error (Halt.setback s) = r at h
    cases h with
    | rests | unkeyed => cases hr
    | stalled _ hn => cases hn
    | astray hsel _ hnone =>
      cases hr
      exact ⟨.stopped, .astray hsel hnone⟩
    | raises hsel =>
      obtain ⟨guard, f, hlast, rfl⟩ := hsel.error
      obtain rfl := halt_setback (Except.error.inj hr).symm
      exact ⟨.stopped, .raised hlast nofun rfl⟩
    | @crosses cs cs' t target _ r hsel _ htarget hcross =>
      cases r with
      | ok k => cases hr
      | error halt =>
        obtain ⟨f, hook, rfl, hlast, hreached⟩ := hcross.error
        obtain rfl := halt_setback (Except.error.inj hr).symm
        have hcall : (cs ++ cs').getLast? = some (.effect f.role hook (.error f.cause)) := by
          rw [List.getLast?_append, hlast]
          rfl
        show ∃ fate, Sent d limits i event _ fate ⟨f.reached.failed f.cause, false⟩
        obtain ⟨hrole, heq, -⟩ | ⟨hrole, henter, -, moment, heq⟩ := hreached
        · rw [heq]
          exact ⟨.stopped, .raised hcall hrole rfl⟩
        · rw [heq]
          rw [hrole] at hcall
          exact ⟨.entered, .entered moment rfl hsel htarget hcall henter⟩

theorem candidates_of {source : State} (hr : i.status = .running)
    (hs : d.state? i.current = some source) :
    i.candidates d event = source.transitionsFor event := by
  simp [candidates, hr, hs]

/-- **A dispatch that is answered has a fate.** -/
theorem Dispatches.sent {bs : List Block} (h : Dispatches d limits i event bs (.ok out)) :
    ∃ fate, Sent d limits i event (bs.flatMap (·.calls)) fate out := by
  have haccounts := h.accounts
  generalize ha : Except.ok out = a at h
  cases h with
  | idle =>
    cases ha
    exact ⟨.ignored, .ignored⟩
  | @ends _ b _ a hr hs hround hclose =>
    cases a with
    | error f => cases ha
    | ok k =>
      cases ha
      rw [← candidates_of hr hs] at hround
      have hcalls : [b].flatMap (·.calls) = b.calls := List.flatMap_singleton ..
      rw [hcalls]
      exact hround.sent hclose
  | @goes _ j b bs a hr hs hround hsettles =>
    cases a with
    | error f => cases ha
    | ok settled =>
      cases ha
      rw [← candidates_of hr hs] at hround
      obtain ⟨t, target, moment, rfl, hentry, htarget, guards, later, hcalls, hsel⟩ := hround.goes
      have hmarks := haccounts.marks settled rfl
      rw [List.filterMap_cons_some hentry] at hmarks
      have hall : (b :: bs).flatMap (·.calls) = guards ++ (later ++ bs.flatMap (·.calls)) := by
        rw [List.flatMap_cons, hcalls, List.append_assoc]
      refine ⟨.taken, .taken hall hsel htarget hmarks hsettles.entry_event fun hfailed => ?_⟩
      obtain ⟨f, hf, hcause⟩ :=
        hsettles.cause (moved_status_ne i t target (.text event) moment) rfl hfailed
      exact ⟨f, hf, hcause.append⟩

/-! ## Answers -/

/-- In a tame definition all that can keep an event from an answer is a cascade without a bound. -/
theorem send_failsOnly (hd : d.Tame Hook.Caught) :
    FailsOnly (fun f => f = .exhausted ∧ limits.bound = none) (i.send d limits event) := by
  obtain ⟨idle, hidle, hsend⟩ := send_eq d limits i event
  rw [hsend]
  have hchoice : ∀ t ∈ i.candidates d event, ∃ s, d.state? i.current = some s ∧
      t ∈ s.transitions := by
    intro t ht
    obtain ⟨s, hs, hmem, -⟩ := (Choice.of_candidate ht).source
    exact ⟨s, hs, hmem⟩
  have hguards : ∀ t ∈ i.candidates d event, ∀ h, t.guard = some h → h.Caught := by
    intro t ht h hh
    obtain ⟨s, hs, hmem⟩ := hchoice t ht
    exact hd.hooks h (.guard hs hmem hh)
  refine (select_failsOnly hguards).bind fun e r hsel => ?_
  rcases r with f | _ | t
  · exact (markFailed_failsOnly (.hook f)).bind fun _ _ _ => .done _
  · intro e f h
    rw [hidle.run e] at h
    cases h
  · obtain ⟨s, hs, hmem⟩ := hchoice t (select_mem (hsel ▸ canEnd_run _ e))
    exact follow_failsOnly hd hs hmem

/-- **An event that is sent to a running instance is answered, with exactly one fate.** The hooks
are plain, so what a call comes to is what the hook itself answers or raises
(`Hook.Plain.run_call`). -/
theorem send_outcome (hd : d.Tame Hook.Plain) (hr : i.status = .running) (hi : i.Chronicled d)
    (hends : limits.bound = none →
      ((i.send d limits event).run e).answer ≠ .error .exhausted) :
    ∃ out cs, ((i.send d limits event).run e).answer = .ok out ∧
      CallChain i.ctx e cs ((i.send d limits event).run e).world ∧
      calls ((i.send d limits event).run e).reports = cs.map (·.hook.name) ∧
      (∃! fate, Sent d limits i event cs fate out) ∧
      out.reached.Chronicled d ∧ Continues i.history out.reached.history := by
  obtain ⟨cs, hchain, hnames, bs, rfl, hdispatches⟩ := send_calling d limits i event e
  cases hout : ((i.send d limits event).run e).answer with
  | error f =>
    obtain ⟨rfl, hbound⟩ := send_failsOnly hd.caught e f hout
    exact absurd hout (hends hbound)
  | ok out =>
    rw [hout] at hdispatches
    obtain ⟨fate, hsent⟩ := hdispatches.sent
    have hunique : ∀ other, Sent d limits i event (bs.flatMap (·.calls)) other out →
        other = fate := fun other h => (h.fate_eq hr).trans (hsent.fate_eq hr).symm
    have hoperation : i.Operation d out.reached :=
      .send (hout ▸ canEnd_run (i.send d limits event) e)
    exact ⟨out, _, rfl, hchain, hnames, ⟨fate, hsent, hunique⟩,
      hoperation.keeps (fun hm h => h.moves hm) (fun f _ h => h.failed f)
        (fun c h => h.recontext c) hi, hoperation.continues hi⟩

end Instance

/-- A payment that is declined is answered. -/
theorem send_outcome_declined :
    let d := checkout (declined noCoins)
    d.Tame Hook.Plain ∧ orderPlaced.status = .running ∧ orderPlaced.Chronicled d ∧
      let o := (orderPlaced.send d {} "pay").run counter
      o.answer ≠ .error .exhausted ∧
        ∃ out cs, o.answer = .ok out ∧ CallChain orderPlaced.ctx counter cs o.world ∧
          calls o.reports = cs.map (·.hook.name) ∧
          (∃! fate, Instance.Sent d {} orderPlaced "pay" cs fate out) ∧
          out.reached.Chronicled d ∧ Continues orderPlaced.history out.reached.history := by
  intro d
  have htame : d.Tame Hook.Plain := checkout_tame (declined_plain noCoins_plain)
  have hi : orderPlaced.Chronicled d := .fresh ..
  have hends : ((orderPlaced.send d {} "pay").run counter).answer ≠ .error .exhausted :=
    fun h => nomatch h
  exact ⟨htame, rfl, hi, hends, Instance.send_outcome htame rfl hi fun _ => hends⟩

/-! ## A way that forks -/

/-- A form for a door where a push leads to a list of states. -/
def forkedForm : Value :=
  .object [("id", .text "door"), ("initialState", .text "open"),
    ("states", .object [("open", .object [("kind", .text "task"), ("transitions", .list [
      .object [("target", .list [.text "shut"]), ("event", .text "push")]])])])]

/-- The definition that the form means. -/
def forkedDoor : Definition where
  id := .text "door"
  initial := "open"
  states := Dict.ofList [("open", { id := "open", transitions := [
    { target := .list [.text "shut"], event := .text "push", id := .text "open::['shut']::push" }] })]

/-- It compiles and has no hooks, but the push is not answered. Nor is the payment for an order, if
it fails in a way that cannot be told; and if it fails as something has run out, the error of the
order is another one. -/
theorem send_unanswered :
    (compileDocument forkedForm {} = .ok forkedDoor ∧
      (∀ h, forkedDoor.HasHook h → h.Plain) ∧
      let i := forkedDoor.fresh ⟨0, .null⟩ "front" (Instant.text ⟨0⟩)
      i.status = .running ∧ i.Chronicled forkedDoor ∧
        ((i.send forkedDoor {} "push").run (stoppedAt 0)).answer =
          .error (.malformed .noKey)) ∧
    orderPlaced.status = .running ∧
    (∀ f, orderPlaced.Chronicled (checkout (declined f))) ∧
    tooLong.isContained ∧
    ((orderPlaced.send (checkout (declined tooLong)) {} "pay").run counter).answer =
      .error (.value "too many digits") ∧
    ∃ out, ((orderPlaced.send (checkout (declined (.ranOut ""))) {} "pay").run counter).answer =
        .ok out ∧ out.reached.error = some (.runtime "coroutine raised StopIteration") := by
  have hstate : ∀ {key s}, forkedDoor.state? key = some s → s.onExit = none ∧ s.onEnter = none ∧
      ∀ t ∈ s.transitions, t.guard = none ∧ t.action = none := by
    intro key s hs
    have hmem := Dict.get?_ofList_mem hs
    simp only [List.mem_cons, List.not_mem_nil, or_false, Prod.mk.injEq] at hmem
    obtain ⟨-, rfl⟩ := hmem
    simp
  have hchronicled : ∀ f, orderPlaced.Chronicled (checkout (declined f)) := fun f =>
    .fresh ..
  refine ⟨⟨rfl, fun h hh => ?_, rfl, .fresh .., rfl⟩, rfl, hchronicled, rfl, rfl, _, rfl, rfl⟩
  cases hh with
  | guard hs ht hg => cases ((hstate hs).2.2 _ ht).1.symm.trans hg
  | action hs ht ha => cases ((hstate hs).2.2 _ ht).2.symm.trans ha
  | exit hs he => cases (hstate hs).1.symm.trans he
  | entry hs he => cases (hstate hs).2.1.symm.trans he

end Workflow
