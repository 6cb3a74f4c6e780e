import Workflow.Api.Application
import Workflow.Hook.Script

/-!
# Expense claims

A workflow for expense claims, and an application that serves it.

**The workflow.** A claim is submitted from `draft` and passes `triage`, which pays it when its
amount is within the limit and otherwise leaves it to a manager. The manager approves it, rejects
it, or returns it to the draft. A claim that is paid gets a payout reference.

**The application** has one route besides the interface: it starts a claim and submits it in one
request.
-/

namespace Workflow.Expense

open Engine (Call)
open Api (Request Response)

/-! ## Hooks -/

/-- Gives a key of the context a value. -/
def setKey (root : Datum) (key : String) (v : Value) : Activity Realm.hook HookAnswer :=
  withMembers root fun _ n members =>
    .update (fun a => storeInto a n v fun d => .object (Dict.put key d members))
      (.done (.datum .null))

/-- The value under a key of the context, or a given one. -/
def entry (a : Arena) (members : List (String × Datum)) (key : String) (fallback : Value) :
    Value :=
  ((Dict.find key members).map a.load).getD fallback

/-- Notes that the claim was submitted. -/
def recordSubmission : Hook where
  name := "record_submission"
  body root := setKey root "submitted" (.bool true)

/-- Whether the amount is within the limit, which is 50 where the claim has none. -/
def belowLimit : Hook where
  name := "below_limit"
  body root := withMembers root fun a _ members =>
    let amount := entry a members "amount" (.int 0)
    let limit := entry a members "auto_approve_limit" (.int 50)
    match amount.atMost limit with
    | .ok b => .done (.datum (.bool b))
    | .error f => .fail f

/-- The reference of a payout. -/
def payoutReference (employee amount : Value) : String :=
  "PAY-" ++ employee.display ++ "-" ++ amount.display

/-- Gives the claim its payout reference. -/
def schedulePayout : Hook where
  name := "schedule_payout"
  body root := withMembers root fun a _ members =>
    let employee := entry a members "employee" (.text "unknown")
    let amount := entry a members "amount" (.int 0)
    setKey root "payout_reference" (.text (payoutReference employee amount))

def handlers : Handlers :=
  Dict.ofList ([recordSubmission, belowLimit, schedulePayout].map fun h => (h.name, h))

/-! ## The document -/

/-- An object whose members are texts. -/
def words (members : List (String × String)) : Value :=
  .object (members.map fun e => (e.1, .text e.2))

/-- A state of the document. -/
def stateDocument (kind label : String) (more : List (String × Value)) : Value :=
  .object ([("kind", .text kind), ("label", .text label)] ++ more)

def draft : Value :=
  stateDocument "task" "Draft"
    [("icon", .text "pencil"),
      ("transitions", .list
        [words [("target", "triage"), ("event", "SUBMIT"), ("action", "record_submission")]])]

def triage : Value :=
  stateDocument "auto" "Triage"
    [("transitions", .list
      [words [("target", "paid"), ("guard", "below_limit"), ("label", "within limit")],
        words [("target", "manager_review")]])]

def managerReview : Value :=
  stateDocument "task" "Manager review"
    [("transitions", .list
      [words [("target", "paid"), ("event", "APPROVE")],
        words [("target", "rejected"), ("event", "REJECT")],
        words [("target", "draft"), ("event", "RETURN"), ("label", "needs changes")]])]

def paid : Value := stateDocument "end" "Paid" [("onEnter", .text "schedule_payout")]

def rejected : Value := stateDocument "end" "Rejected" []

/-- The document of the workflow. -/
def document : Value :=
  .object [("id", .text "expense"), ("version", .int 1),
    ("description", .text "Expense claim approval"), ("initialState", .text "draft"),
    ("states", .object [("draft", draft), ("triage", triage), ("manager_review", managerReview),
      ("paid", paid), ("rejected", rejected)])]

/-! ## The application -/

/-- The registry that holds the workflow. -/
def registry : Registry := ((Registry.mk {}).registerDocument document handlers).2

/-- At most fifty transitions are taken in a row without an event. -/
def engine : Engine := { limits := { bound := some 50 } }

/-- The state in which the application begins. -/
def world (env : Environment) : EngineState := { env, registry }

/-- What is answered on a claim that has been submitted. -/
def submitted (id : String) (i : Instance) : Response :=
  .created (.object [("expense_id", .text id), ("state", .text i.current),
    ("status", .text i.status.word)])

/-- Starts a claim and submits it. -/
def submit (id : String) (r : Request) : Call Response :=
  match r.object? with
  | none => .done .badRequest
  | some members =>
    (Engine.within (newContext (.object members))).bind fun c =>
    (engine.start (.text "expense") .null (some c) (some id)).bind fun i =>
    (engine.send i.id "SUBMIT").bind fun outcome => .done (submitted id outcome.reached)

/-- Answers a request. -/
def respond (r : Request) : Call Response :=
  match Api.segments r.path with
  | ["expenses", id, "submit"] =>
    if r.method = "POST" then Api.answering (submit id r) fun _ => none
    else .done (.withoutAction r)
  | _ => Api.Mount.respond {} engine r

end Workflow.Expense
