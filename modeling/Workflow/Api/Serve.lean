import Workflow.Api.Route
import Workflow.Api.View

/-!
# Serving requests

Each action reads its part of the request, calls the engine, and answers with a view.

**Refusals.** A workflow or an instance that is not known is answered with 404, an id that is
taken and a context that can no longer change with 409. A hook that fails is no refusal: it is
part of the answer.

The audit log in an answer is read from the engine after the call has ended. An answer that has to
quote a failure which cannot be quoted is not given; that is no refusal either.
-/

namespace Workflow.Api

open Engine (Call)

/-- Turns contained failures into responses, the unforeseen ones all into one. -/
def answering (t : Call Response) (foreseen : Failure → Option Response) : Call Response :=
  t.contained.bind fun
    | .ok r => .done r
    | .error f => .done ((foreseen f).getD .unforeseen)

/-- The refusal of what is not known. -/
def unknownRefusal (f : Failure) : Option Response :=
  match f with
  | .workflowNotFound .. | .instanceNotFound _ => some (.notFound f.message)
  | _ => none

/-- The refusal of a start. -/
def startRefusal (f : Failure) : Option Response :=
  match f with
  | .workflowNotFound .. => some (.notFound f.message)
  | .value m => some (.conflict m)
  | _ => none

/-- The refusal of a change of context. -/
def contextRefusal (f : Failure) : Option Response :=
  match f with
  | .instanceNotFound _ => some (.notFound f.message)
  | .alreadyFinished .. => some (.conflict f.message)
  | _ => none

/-- Puts members into a context that is an object, each in its place or at the end. -/
def mergeMembers (members : List (String × Value)) (root : Datum) :
    Activity Realm.hook HookAnswer :=
  .look fun a =>
    match root, a.cell? root with
    | .ref n, some (.object old) =>
      .update
        (fun a =>
          let (fresh, a) := a.storeMembers members
          a.setCell n (.object (fresh.foldl (fun done e => Dict.put e.1 e.2 done) old)))
        (.done (.datum .null))
    | _, _ => .fail (.malformed .noObject)

/-- Makes sure that a failure can be quoted, if there is one. -/
def quotable (f : Option Failure) : Call Unit :=
  .ofExcept <|
    match f.bind Failure.unquoted with
    | none => .ok ()
    | some _ => .error (.malformed .noQuote)

/-- The detail of a snapshot, with the audit log of the instance as it is stored now. -/
def detail (i : Instance) : Call Value :=
  (Engine.logOf i.id).bind fun log =>
  (quotable i.error).bind fun _ => .look fun s => .done (detailView s.env i log)

namespace Serve

/-! ## Actions -/

def listDefinitions (r : Request) : Call Response :=
  match truthOfText? ((r.queried? "active_only").getD "true") with
  | none => .done .badRequest
  | some latest =>
    (Engine.askRegistry fun g => if latest then g.listLatest else g.listAll).bind fun ds =>
      .done (.ok (.list (ds.map definitionView)))

def showDefinition (id : String) (r : Request) : Call Response :=
  match wholeOfText? ((r.queried? "version").getD "null") with
  | none => .done .badRequest
  | some version =>
    (Engine.askRegistry (·.find (.text id) (Value.ofOption (version.map .int)))).bind fun d =>
      .done (.ok (definitionView d))

def showDefinitionGraph (id : String) (r : Request) : Call Response :=
  (Engine.askRegistry (·.find (.text id) .null)).bind fun d =>
    let format := (r.queried? "graph_format").getD "mermaid"
    if format = "mermaid" then
      (Activity.ofExcept d.mermaid).bind fun source => .done (.ok (graphView source d))
    else if format = "json" then .done (.ok (graphView "" d))
    else .done (.notFound ("Unknown format: " ++ format))

def startInstance (e : Engine) (r : Request) : Call Response :=
  match r.object?.bind StartOrder.read? with
  | none => .done .badRequest
  | some order =>
    (Engine.within (newContext (.object order.context))).bind fun c =>
    (e.start (.text order.definition) (Value.ofOption (order.version.map .int)) (some c)
      order.id).bind fun i =>
    (detail i).bind fun v => .done (.created v)

def listInstances (r : Request) : Call Response :=
  let named (i : Instance) : Bool :=
    match r.queried? "workflow_id" with
    | none => true
    | some id => i.workflow = .text id
  let answer (status : Option Status) : Call Response :=
    (Engine.list status).bind fun is => .done (.ok (.list ((is.filter named).map instanceView)))
  match (r.queried? "status").filter (· ≠ "") with
  | none => answer none
  | some word =>
    match Status.ofWord? word with
    | some status => answer (some status)
    | none => .done (.notFound ("Unknown status: " ++ word))

def showInstance (id : String) : Call Response :=
  (Engine.instanceOf id).bind fun i => (detail i).bind fun v => .done (.ok v)

def sendEvent (e : Engine) (id : String) (r : Request) : Call Response :=
  match r.object?.bind eventOrder? with
  | none => .done .badRequest
  | some event =>
    (e.send id event).bind fun outcome =>
    (detail outcome.reached).bind fun v =>
      .done (.ok (.object [("transitioned", .bool outcome.transitioned), ("instance", v)]))

def askEvent (e : Engine) (id event : String) : Call Response :=
  (e.canFire id event).attempt.bind fun
    | .ok allowed => .done (.ok (canFireView event allowed none))
    | .error (.hookFailed _ _ cause) =>
      (quotable (some cause)).bind fun _ => .done (.ok (canFireView event false (some cause)))
    | .error f => .fail f

def changeContext (id : String) (r : Request) : Call Response :=
  match r.object?.bind ContextOrder.read? with
  | none => .done .badRequest
  | some order =>
    let change : Call Instance :=
      if order.merge then Engine.updateContext id (mergeMembers order.context)
      else
        (Engine.within (newContext (.object order.context))).bind fun c => Engine.setContext id c
    change.bind fun i => (detail i).bind fun v => .done (.ok v)

def showInstanceGraph (id : String) : Call Response :=
  (Engine.instanceOf id).bind fun i =>
  (Engine.definitionOf id).bind fun d =>
  (Activity.ofExcept (d.mermaidWith i.progress)).bind fun source =>
    .done (.ok (graphView source d))

end Serve

/-- Does what an action asks for. -/
def Action.serve (e : Engine) (r : Request) : Action → Call Response
  | .listDefinitions => answering (Serve.listDefinitions r) unknownRefusal
  | .showDefinition id => answering (Serve.showDefinition id r) unknownRefusal
  | .showDefinitionGraph id => answering (Serve.showDefinitionGraph id r) unknownRefusal
  | .startInstance => answering (Serve.startInstance e r) startRefusal
  | .listInstances => answering (Serve.listInstances r) unknownRefusal
  | .showInstance id => answering (Serve.showInstance id) unknownRefusal
  | .sendEvent id => answering (Serve.sendEvent e id r) unknownRefusal
  | .askEvent id event => answering (Serve.askEvent e id event) unknownRefusal
  | .changeContext id => answering (Serve.changeContext id r) contextRefusal
  | .showInstanceGraph id => answering (Serve.showInstanceGraph id) unknownRefusal

end Workflow.Api
