import Workflow.Run.Settle

/-!
# Starting instances

A fresh instance stands in the initial state, whose entry hook is not called: entry hooks run only
on moves. Its history has one open visit.

An id that the caller does not give is issued: `wf_` and the number of ids issued so far, in 32
hexadecimal digits.
-/

namespace Workflow

/-- The id with a number. -/
def issuedId (n : Nat) : String := "wf_" ++ String.ofList (Text.hex 32 n)

/-- Issues the next id. -/
def issueId : Activity Realm.flow String :=
  .look fun e =>
    .update (fun e => { e with issued := e.issued + 1 }) (.done (issuedId (e.issued + 1)))

/-- The given id, or an issued one. -/
def idOrIssued : Option String → Activity Realm.flow String
  | some id => .done id
  | none => issueId

namespace Definition

/-- The snapshot of a run that begins at a moment. -/
def fresh (d : Definition) (c : Context) (id : String) (moment : String) : Instance where
  workflow := d.id
  id := id
  current := d.initial
  ctx := c
  history := [{ state := d.initial, enteredAt := moment }]
  status :=
    match d.state? d.initial with
    | some s => if s.isTerminal then .completed else .running
    | none => .running

/-- Starts a run. -/
def start (d : Definition) (c : Context) (id : Option String) : Activity Realm.flow Instance :=
  (idOrIssued id).bind fun id =>
  readClock.bind fun moment =>
  let i := d.fresh c id moment.text
  (log .info ("Started instance " ++ id ++ " of workflow '" ++ d.id.display ++ "' in state '" ++
    d.initial ++ "'")).bind fun _ =>
  .done i

/-- Starts a run and lets it settle. -/
def startAndSettle (d : Definition) (limits : Limits) (c : Context) (id : Option String) :
    Activity Realm.flow Instance :=
  (d.start c id).bind fun i => i.settle d limits

end Definition

end Workflow
