import Workflow.Proofs.Expense.Claims
import Workflow.Proofs.Run.History

/-!
# Expense claims in order

What is so of every claim, given the content of its context (`InOrder`): where it rests, how it came
to be paid or rejected, and which payout reference it has.

**Under way** (`Underway`). A claim that was neither paid nor rejected so far. Only such a claim
takes events, so a claim is paid or rejected at most once, and last.

Main results: a claim is in order when it is started (`InOrder.fresh`), after an event
(`InOrder.sent`), and while it is running also after any change of its context
(`InOrder.recontext`).
-/

namespace Workflow.Expense

open Activity

variable {i j : Instance} {content content' : List (String × Value)}

/-! ## What is in order -/

/-- How a claim comes to be paid or rejected: by a manager, or paid out of triage within the
limit. -/
structure Entered (content : List (String × Value)) (u v : Visit) : Prop where
  rejected : v.state = "rejected" → u.state = "manager_review" ∧ v.event = .text "REJECT"
  paid : v.state = "paid" → u.state = "manager_review" ∧ v.event = .text "APPROVE" ∨
    u.state = "triage" ∧ v.event = .null ∧ (amount content).atMost (limit content) = .ok true

/-- The history leads from the draft to the occupied state. -/
structure Tracked (i : Instance) (content : List (String × Value)) : Prop where
  begins : ∃ v, i.history.head? = some v ∧ v.state = "draft"
  ends : ∃ v, i.history.getLast? = some v ∧ v.leftAt = none ∧ v.state = i.current
  entered : i.history.IsChain (Entered content)

/-- A claim with the content of its context is in order. -/
structure InOrder (i : Instance) (content : List (String × Value)) : Prop
    extends Tracked i content where
  running : i.status = .running → i.current = "draft" ∨ i.current = "manager_review"
  completed : i.status = .completed → i.current = "paid" ∨ i.current = "rejected"
  failed : i.status = .failed → i.current = "triage" ∧ ∃ message,
    i.error = some (.type message) ∧
      (amount content).atMost (limit content) = .error (.type message)
  /-- While it is running it was neither paid nor rejected. -/
  undecided : i.status = .running → ∀ v ∈ i.history, v.state ≠ "paid" ∧ v.state ≠ "rejected"
  payout : i.current = "paid" → Dict.find "payout_reference" content =
    some (.text (payoutReference (employee content) (amount content)))

/-! ## Contents -/

theorem held_put {key key' : String} (h : key' ≠ key) (v fallback : Value) :
    held (Dict.put key v content) key' fallback = held content key' fallback := by
  unfold held
  rw [Dict.find_put, if_neg h.symm]

theorem amount_withPayout : amount (withPayout content) = amount content :=
  held_put (by decide) _ _

theorem limit_withPayout : limit (withPayout content) = limit content :=
  held_put (by decide) _ _

theorem employee_withPayout : employee (withPayout content) = employee content :=
  held_put (by decide) _ _

/-- The payout reference is that of what the claim holds. -/
theorem find_payout (content : List (String × Value)) :
    Dict.find "payout_reference" (withPayout content) = some (.text
      (payoutReference (employee (withPayout content)) (amount (withPayout content)))) := by
  rw [employee_withPayout, amount_withPayout]
  unfold withPayout
  rw [Dict.find_put, if_pos rfl]

/-! ## Claims under way -/

theorem paid_ne_rejected : paidState.id ≠ rejectedState.id := by decide

theorem draft_undecided : claim.initial ≠ "paid" ∧ claim.initial ≠ "rejected" := by decide

/-- A claim that was neither paid nor rejected so far. -/
structure Underway (i : Instance) : Prop where
  begins : ∃ v, i.history.head? = some v ∧ v.state = "draft"
  ends : ∃ v, i.history.getLast? = some v ∧ v.leftAt = none ∧ v.state = i.current
  undecided : ∀ v ∈ i.history, v.state ≠ "paid" ∧ v.state ≠ "rejected"

theorem InOrder.underway (h : InOrder i content) (hrunning : i.status = .running) : Underway i :=
  ⟨h.begins, h.ends, h.undecided hrunning⟩

theorem entered_undecided {u v : Visit} (h : v.state ≠ "paid" ∧ v.state ≠ "rejected") :
    Entered content u v :=
  ⟨fun hv => absurd hv h.2, fun hv => absurd hv h.1⟩

theorem isChain_undecided {history : List Visit}
    (h : ∀ v ∈ history, v.state ≠ "paid" ∧ v.state ≠ "rejected") :
    history.IsChain (Entered content) := by
  induction history with
  | nil => exact List.isChain_nil
  | cons u rest ih =>
    refine List.isChain_cons.2 ⟨fun v hv => ?_, ih fun v hv => h v (List.mem_cons_of_mem u hv)⟩
    exact entered_undecided (h v (List.mem_cons_of_mem u (List.mem_of_mem_head? hv)))

namespace Underway

variable {t : Transition} {target : State} {event : Value} {moment : String}

theorem tracked (h : Underway i) : Tracked i content :=
  ⟨h.begins, h.ends, isChain_undecided h.undecided⟩

/-- The history after one more move. -/
theorem history (h : Underway i) (t : Transition) (target : State) (event : Value)
    (moment : String) :
    ∃ past, (i.moved t target event moment).history =
        past ++ [⟨target.id, moment, none, t.id, event⟩] ∧
      (∃ v, past.head? = some v ∧ v.state = "draft") ∧
      (∃ v, past.getLast? = some v ∧ v.state = i.current) ∧
      ∀ v ∈ past, v.state ≠ "paid" ∧ v.state ≠ "rejected" := by
  obtain ⟨last, hlast, hopen, hcurrent⟩ := h.ends
  obtain ⟨first, hfirst, hdraft⟩ := h.begins
  have hundecided := h.undecided
  have hhistory : i.history = i.history.dropLast ++ [last] :=
    (List.dropLast_append_getLast? last hlast).symm
  generalize i.history.dropLast = earlier at hhistory
  rw [hhistory] at hundecided hfirst
  refine ⟨earlier ++ [{ last with leftAt := some moment }], ?_, ?_, ?_, ?_⟩
  · rw [i.moved_history t target event moment hhistory hopen, List.append_assoc]
    rfl
  · cases earlier <;> cases hfirst <;> exact ⟨_, rfl, hdraft⟩
  · exact ⟨_, List.getLast?_concat, hcurrent⟩
  · intro v hv
    rcases List.mem_append.1 hv with hv | hv
    · exact hundecided v (List.mem_append_left _ hv)
    · cases List.mem_singleton.1 hv
      exact hundecided last (List.mem_append_right _ List.mem_cons_self)

/-- One move leads on from the occupied state. -/
theorem track (h : Underway i)
    (hentered : ∀ u : Visit, u.state = i.current →
      Entered content u ⟨target.id, moment, none, t.id, event⟩) :
    Tracked (i.moved t target event moment) content := by
  obtain ⟨past, hhistory, ⟨first, hfirst, hdraft⟩, ⟨last, hlast, hcurrent⟩, hundecided⟩ :=
    h.history t target event moment
  refine ⟨?_, ?_, ?_⟩ <;> rw [hhistory]
  · exact ⟨first, by rw [List.head?_append, hfirst]; rfl, hdraft⟩
  · exact ⟨_, List.getLast?_concat, rfl, rfl⟩
  · refine List.isChain_append.2 ⟨isChain_undecided hundecided, List.isChain_singleton _, ?_⟩
    intro u hu v hv
    cases hu.symm.trans hlast
    cases hv
    exact hentered last hcurrent

theorem moved (h : Underway i) (htarget : target.id ≠ "paid" ∧ target.id ≠ "rejected") :
    Underway (i.moved t target event moment) := by
  have htracked : Tracked (i.moved t target event moment) [] :=
    h.track fun _ _ => entered_undecided htarget
  refine ⟨htracked.begins, htracked.ends, fun v hv => ?_⟩
  obtain ⟨past, hhistory, -, -, hundecided⟩ := h.history t target event moment
  rw [hhistory] at hv
  rcases List.mem_append.1 hv with hv | hv
  · exact hundecided v hv
  · cases List.mem_singleton.1 hv
    exact htarget

/-! ## Where claims come to rest -/

/-- It waits for its owner or for a manager. -/
theorem waits (h : Underway i) (hrunning : i.status = .running)
    (hcurrent : i.current = "draft" ∨ i.current = "manager_review") : InOrder i content where
  toTracked := h.tracked
  running _ := hcurrent
  completed hc := by
    rw [hrunning] at hc
    cases hc
  failed hf := by
    rw [hrunning] at hf
    cases hf
  undecided _ := h.undecided
  payout hpaid := by
    rw [hpaid] at hcurrent
    exact absurd hcurrent (by decide)

/-- It failed in triage. -/
theorem fails (h : Underway i) (hcurrent : i.current = "triage") {message : String}
    (herror : (amount content).atMost (limit content) = .error (.type message)) :
    InOrder (i.failed (.type message)) content where
  toTracked := ⟨h.begins, h.ends, isChain_undecided h.undecided⟩
  running := nofun
  completed := nofun
  failed _ := ⟨hcurrent, message, rfl, herror⟩
  undecided := nofun
  payout hpaid := by
    have htriage : (i.failed (.type message)).current = "triage" := hcurrent
    rw [hpaid] at htriage
    exact absurd htriage (by decide)

theorem pays (h : Underway i) {t : Transition} {event : Value} {moment : String}
    (hentered : ∀ u : Visit, u.state = i.current →
      Entered (withPayout content) u ⟨paidState.id, moment, none, t.id, event⟩) :
    InOrder (i.moved t paidState event moment) (withPayout content) where
  toTracked := h.track hentered
  running := nofun
  completed _ := .inl rfl
  failed := nofun
  undecided := nofun
  payout _ := find_payout content

theorem rejects (h : Underway i) (hcurrent : i.current = "manager_review") {moment : String} :
    InOrder (i.moved rejecting rejectedState (.text "REJECT") moment) content where
  toTracked := h.track fun _ hu =>
    ⟨fun _ => ⟨hu.trans hcurrent, rfl⟩, fun hpaid => absurd hpaid paid_ne_rejected.symm⟩
  running := nofun
  completed _ := .inr rfl
  failed := nofun
  undecided := nofun
  payout hpaid := absurd hpaid paid_ne_rejected.symm

end Underway

/-! ## The life of a claim -/

namespace InOrder

/-- **Triage leaves a claim in order.** -/
theorem triaged (h : Underway i) (hcurrent : i.current = "triage")
    (hstep : Triaged i content j content') : InOrder j content' := by
  cases hstep with
  | paid moment hwithin =>
    refine h.pays fun u hu => ⟨fun hv => absurd hv paid_ne_rejected, fun _ => .inr ⟨?_, rfl, ?_⟩⟩
    · exact hu.trans hcurrent
    · rw [amount_withPayout, limit_withPayout]
      exact hwithin
  | toManager moment => exact (h.moved (by decide)).waits rfl (.inr rfl)
  | failed message herror => exact h.fails hcurrent herror

/-- **An event leaves a claim in order.** -/
theorem sent (h : InOrder i content) (hstep : Sent i content j content') : InOrder j content' := by
  cases hstep with
  | stays => exact h
  | submitted moment hrunning _ htriaged =>
    exact triaged ((h.underway hrunning).moved (by decide)) rfl htriaged
  | approved moment hrunning hcurrent =>
    refine (h.underway hrunning).pays fun u hu =>
      ⟨fun hv => absurd hv paid_ne_rejected, fun _ => ?_⟩
    exact .inl ⟨hu.trans hcurrent, rfl⟩
  | rejected moment hrunning hcurrent => exact (h.underway hrunning).rejects hcurrent
  | returned moment hrunning _ =>
    exact ((h.underway hrunning).moved (by decide)).waits rfl (.inl rfl)

/-- **A new claim is in order.** -/
theorem fresh (c : Context) (id moment : String) : InOrder (claim.fresh c id moment) content := by
  have hunderway : Underway (claim.fresh c id moment) := by
    refine ⟨⟨_, rfl, rfl⟩, ⟨_, rfl, rfl, rfl⟩, fun v hv => ?_⟩
    cases List.mem_singleton.1 hv
    exact draft_undecided
  exact hunderway.waits rfl (.inl rfl)

/-- **While a claim is running, its context may be any.** -/
theorem recontext (h : InOrder i content) (hrunning : i.status = .running) (c : Context) :
    InOrder { i with ctx := c } content' :=
  have hunderway : Underway { i with ctx := c } := ⟨h.begins, h.ends, h.undecided hrunning⟩
  hunderway.waits hrunning (h.running hrunning)

end InOrder

end Workflow.Expense
