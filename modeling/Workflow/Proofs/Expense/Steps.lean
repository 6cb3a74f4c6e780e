import Workflow.Expense
import Workflow.Proofs.Hook.Held
import Workflow.Proofs.Run.Path

/-!
# The steps of an expense claim

What an event does to a claim and to the content of its context.

**The workflow** (`claim`). The document, compiled.

**Hooks.** Submitting and paying put one member into the content (`writes_recordSubmission`,
`writes_schedulePayout`); triage compares the amount with the limit and leaves all as it is.
-/

namespace Workflow.Expense

open Activity

/-! ## The workflow -/

def submitting : Transition where
  target := .text "triage"
  event := .text "SUBMIT"
  action := some recordSubmission
  id := .text "draft::triage::SUBMIT"

def withinLimit : Transition where
  target := .text "paid"
  guard := some belowLimit
  id := .text "triage::paid::AUTO"
  label := .text "within limit"

def toManager : Transition where
  target := .text "manager_review"
  id := .text "triage::manager_review::AUTO"

def approving : Transition where
  target := .text "paid"
  event := .text "APPROVE"
  id := .text "manager_review::paid::APPROVE"

def rejecting : Transition where
  target := .text "rejected"
  event := .text "REJECT"
  id := .text "manager_review::rejected::REJECT"

def returning : Transition where
  target := .text "draft"
  event := .text "RETURN"
  id := .text "manager_review::draft::RETURN"
  label := .text "needs changes"

def draftState : State where
  id := "draft"
  transitions := [submitting]
  label := .text "Draft"
  icon := .text "pencil"

def triageState : State where
  id := "triage"
  kind := .auto
  transitions := [withinLimit, toManager]
  label := .text "Triage"

def managerState : State where
  id := "manager_review"
  transitions := [approving, rejecting, returning]
  label := .text "Manager review"

def paidState : State where
  id := "paid"
  kind := .terminal
  onEnter := some schedulePayout
  label := .text "Paid"

def rejectedState : State where
  id := "rejected"
  kind := .terminal
  label := .text "Rejected"

/-- The workflow that the document stands for. -/
def claim : Definition where
  id := .text "expense"
  initial := "draft"
  states := Dict.ofList [("draft", draftState), ("triage", triageState),
    ("manager_review", managerState), ("paid", paidState), ("rejected", rejectedState)]
  description := .text "Expense claim approval"

theorem compile_document : compileDocument document handlers = .ok claim := rfl

/-! ## Hooks -/

/-- What a claim is read to hold under a key. -/
def held (content : List (String × Value)) (key : String) (fallback : Value) : Value :=
  (Dict.find key content).getD fallback

def amount (content : List (String × Value)) : Value := held content "amount" (.int 0)

def limit (content : List (String × Value)) : Value := held content "auto_approve_limit" (.int 50)

def employee (content : List (String × Value)) : Value :=
  held content "employee" (.text "unknown")

/-- The content after the claim was submitted. -/
def withSubmission (content : List (String × Value)) : List (String × Value) :=
  Dict.put "submitted" (.bool true) content

/-- The content after the payout was scheduled. -/
def withPayout (content : List (String × Value)) : List (String × Value) :=
  Dict.put "payout_reference" (.text (payoutReference (employee content) (amount content))) content

theorem find_content (a : Arena) (members : List (String × Datum)) (key : String) :
    Dict.find key (a.content members) = (Dict.find key members).map a.load := by
  induction members with
  | nil => rfl
  | cons m rest ih =>
    unfold Arena.content at ih ⊢
    rw [List.map_cons]
    unfold Dict.find
    split
    · rfl
    · exact ih

theorem entry_eq_held (a : Arena) (members : List (String × Datum)) (key : String)
    (fallback : Value) : entry a members key fallback = held (a.content members) key fallback := by
  unfold entry held
  rw [find_content]

theorem setKey_run {a : Arena} {n : Nat} {members : List (String × Datum)}
    (h : a.Sheet n members) (key : String) (v : Value) :
    ∃ answer members', ((setKey (.ref n) key v).run a).answer = .ok answer ∧
      ((setKey (.ref n) key v).run a).world.Sheet n members' ∧
      ((setKey (.ref n) key v).run a).world.content members' =
        Dict.put key v (a.content members) := by
  unfold setKey
  rw [run_withMembers h]
  exact ⟨_, _, rfl, h.put [(key, v)]⟩

theorem writes_recordSubmission : Writes recordSubmission.body withSubmission :=
  fun _ _ _ h => setKey_run h "submitted" (.bool true)

theorem writes_schedulePayout : Writes schedulePayout.body withPayout := by
  intro a n members h
  have hpayout := setKey_run h "payout_reference" (.text (payoutReference
    (entry a members "employee" (.text "unknown")) (entry a members "amount" (.int 0))))
  rw [entry_eq_held, entry_eq_held] at hpayout
  unfold schedulePayout
  dsimp only
  rw [run_withMembers h, entry_eq_held, entry_eq_held]
  exact hpayout

/-! Two values that have no order are named by their kinds, also as items of lists. -/

mutual

theorem atMost_error : ∀ (v w : Value) (f : Failure), v.atMost w = .error f →
    ∃ x y, f = Value.notOrdered x y
  | v, w, f, h => by
    unfold Value.atMost at h
    split at h
    · cases h
    · exact atMostItems_error _ _ f h
    · split at h
      · cases h
      · cases h
        exact ⟨v, w, rfl⟩

theorem atMostItems_error : ∀ (vs ws : List Value) (f : Failure),
    Value.atMostItems vs ws = .error f → ∃ x y, f = Value.notOrdered x y
  | [], _, _, h => by cases h
  | _ :: _, [], _, h => by cases h
  | v :: vs, w :: ws, f, h => by
    unfold Value.atMostItems at h
    split at h
    · exact atMostItems_error vs ws f h
    · exact atMost_error v w f h

end

theorem truth_bool (a : Arena) (b : Bool) : (HookAnswer.datum (.bool b)).truth a = .ok b := by
  unfold HookAnswer.truth Arena.truthy Arena.load
  cases a.cells.size <;> rfl

/-- The guard tells how the amount compares with the limit, and leaves everything as it is. -/
theorem run_belowLimit {e : Environment} {c : Context} {content : List (String × Value)}
    (h : e.Holds c content) :
    ((belowLimit.test c).run e).answer = (amount content).atMost (limit content) ∧
      ((belowLimit.test c).run e).world = e := by
  obtain ⟨n, members, hroot, hsheet, rfl⟩ := h.sheet
  have hon : (belowLimit.on (.ref n) (e.arena c.arena)).world = e.arena c.arena ∧
      belowLimit.verdict (.ref n) (e.arena c.arena) =
        (amount ((e.arena c.arena).content members)).atMost
          (limit ((e.arena c.arena).content members)) := by
    unfold Hook.verdict Hook.on belowLimit
    dsimp only
    rw [run_awaited, run_withMembers hsheet, entry_eq_held, entry_eq_held]
    show _ ∧ _ = Value.atMost (held _ "amount" _) (held _ "auto_approve_limit" _)
    cases hcompared : Value.atMost (held ((e.arena c.arena).content members) "amount" (.int 0))
      (held ((e.arena c.arena).content members) "auto_approve_limit" (.int 50)) with
    | ok b => exact ⟨rfl, truth_bool _ b⟩
    | error f =>
      obtain ⟨x, y, rfl⟩ := atMost_error _ _ f hcompared
      exact ⟨rfl, rfl⟩
  rw [belowLimit.run_test h.inside, (belowLimit.run_call h.inside).2, hroot, hon.1, hon.2]
  exact ⟨rfl, Environment.setArena_arena h.inside⟩

end Workflow.Expense
