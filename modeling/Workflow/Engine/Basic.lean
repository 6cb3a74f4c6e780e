import Workflow.Engine.Observer
import Workflow.Engine.Registry
import Workflow.Instance.AuditLog
import Workflow.Run.Start

/-!
# The engine

The engine holds the latest snapshot of every instance and the definition that it was started
from, and serves calls on them in order.

**Tables** (`EngineState`). An id is reserved from the moment its start begins. Snapshot and
definition are stored together when the start ends; a start that fails leaves no trace but what its
hooks did.

**Locks.** All calls that read and write a snapshot hold the lock of its id meanwhile, so the
calls on one instance are served one after the other.

**Observers** are told after the lock has been given back, and only of an event that was taken and
changed the state. Their contained failures are logged and go no further.
-/

namespace Workflow

/-- What the calls on an engine share. -/
structure EngineState where
  env : Environment
  registry : Registry := {}
  /-- The latest snapshots, in the order in which their starts ended. -/
  instances : Dict String Instance := {}
  /-- The definitions that the instances were started from. -/
  definitions : Dict String Definition := {}
  /-- The ids that are taken. -/
  reserved : List String := []
  /-- The names of those to be told of dispatches, in order. -/
  observers : List String := []

/-- The realm of calls on an engine; locks are by instance id. -/
abbrev Realm.engine : Realm := ⟨EngineState, String, Record⟩

/-- Operations on single instances as part of those on an engine. -/
def Realm.flowIn : Realm.Embedding Realm.flow Realm.engine where
  get s := s.env
  put env s := { s with env }
  key := nofun
  report r := r

/-- The settings of an engine, and the observers that it can be told to call. -/
structure Engine where
  limits : Limits := {}
  directory : List Observer := []
  /-- How deep observers may nest dispatches. -/
  nesting : Nat := 300

namespace EngineState

/-- Stores the result of a start. -/
def store (id : String) (d : Definition) (i : Instance) (s : EngineState) : EngineState :=
  { s with instances := s.instances.insert id i, definitions := s.definitions.insert id d }

/-- Replaces a snapshot. -/
def setInstance (id : String) (i : Instance) (s : EngineState) : EngineState :=
  { s with instances := s.instances.insert id i }

def reserve (id : String) (s : EngineState) : EngineState := { s with reserved := id :: s.reserved }

def free (id : String) (s : EngineState) : EngineState := { s with reserved := s.reserved.erase id }

end EngineState

namespace Engine

/-- A call on an engine. -/
abbrev Call (α : Type) := Activity Realm.engine α

/-- An operation on single instances as a call. -/
def within {α : Type} (t : Activity Realm.flow α) : Call α := t.lift Realm.flowIn

/-- Goes on with what a table has under an id, or fails because the instance is not known. -/
def known {α : Type} (id : String) (table : EngineState → Dict String α) : Call α :=
  .look fun s =>
    match (table s).get? id with
    | some a => .done a
    | none => .fail (.instanceNotFound id)

/-- The definition that an instance was started from. -/
def definitionOf (id : String) : Call Definition := known id (·.definitions)

/-- The latest snapshot of an instance. -/
def instanceOf (id : String) : Call Instance := known id (·.instances)

/-! ## The registry -/

/-- A change of the registry that may fail. -/
def changeRegistry {α : Type} (f : Registry → Except Failure α × Registry) : Call α :=
  .look fun s =>
    let (answer, registry) := f s.registry
    .update (fun s => { s with registry }) (Activity.ofExcept answer)

def register (d : Definition) : Call Unit := changeRegistry (·.register d)

def registerDocument (doc : Value) (hs : Handlers) : Call Definition :=
  changeRegistry (·.registerDocument doc hs)

def unregister (name version : Value) : Call Unit := changeRegistry (·.unregister name version)

/-- A question to the registry. -/
def askRegistry {α : Type} (f : Registry → Except Failure α) : Call α :=
  .look fun s => Activity.ofExcept (f s.registry)

/-! ## Starting -/

/-- The failure of a start under an id that is taken. -/
def idTaken (id : String) : Failure := .value ("Workflow instance '" ++ id ++ "' already exists")

/-- The given context, or a new one with the empty object. -/
def contextOrNew : Option Context → Activity Realm.flow Context
  | some c => .done c
  | none => newContext (.object [])

/-- Starts and settles a run under a reserved id, and stores it. -/
def startReserved (e : Engine) (d : Definition) (c : Option Context) (id : String) :
    Call Instance :=
  ((within ((contextOrNew c).bind fun c => d.startAndSettle e.limits c (some id))).orElseUndo
    (EngineState.free id)).bind fun i =>
  .update (EngineState.store id d i) (.done i)

/-- Starts a run of a registered definition. -/
def start (e : Engine) (name version : Value) (c : Option Context) (id : Option String) :
    Call Instance :=
  (askRegistry (·.find name version)).bind fun d =>
  (within (idOrIssued id)).bind fun id =>
  .look fun s =>
    if id ∈ s.reserved then .fail (idTaken id)
    else .update (EngineState.reserve id) (e.startReserved d c id)

/-! ## Events -/

/-- Dispatches an event under the lock, and gives the snapshot before it and the outcome. -/
def dispatch (e : Engine) (id event : String) : Call (Instance × Dispatch) :=
  (definitionOf id).bind fun d =>
  Activity.locked id
    ((instanceOf id).bind fun before =>
      (within (before.send d e.limits event)).bind fun outcome =>
      .update (EngineState.setInstance id outcome.reached) (.done (before, outcome)))

/-- Whether an event is to be told: it was taken and the state is another one. -/
def isNews (before : Instance) (outcome : Dispatch) : Bool :=
  outcome.transitioned && outcome.reached.current ≠ before.current

/-- Carries out a reaction, given how it sends events. -/
def perform (send : String → String → Call Dispatch) : Reaction → Call Unit
  | .done => .done ()
  | .fail f => .fail f
  | .note v next => .report (.noted v) (perform send next)
  | .yield next => Activity.yield.bind fun _ => perform send next
  | .subscribe name next =>
    .update (fun s => { s with observers := s.observers ++ [name] }) (perform send next)
  | .unsubscribe name next =>
    .update (fun s => { s with observers := s.observers.erase name }) (perform send next)
  | .send id event k => (send id event).bind fun outcome => perform send (k outcome)

/-- What the observer of a name does on a notice. -/
def reactionOf (e : Engine) (name : String) (n : Notice) : Reaction :=
  match e.directory.find? fun o => o.name = name with
  | some o => o.react n
  | none => .done

/-- Tells observers one after the other. -/
def tellAll (e : Engine) (send : String → String → Call Dispatch) (n : Notice) :
    List String → Call Unit
  | [] => .done ()
  | name :: rest =>
    (perform send (e.reactionOf name n)).contained.bind fun
      | .ok _ => e.tellAll send n rest
      | .error _ => .report (.logged .error n.complaint) (e.tellAll send n rest)

/-- Tells the observers of an outcome, if it is news. -/
def announce (e : Engine) (send : String → String → Call Dispatch) (event : String)
    (before : Instance) (outcome : Dispatch) : Call Unit :=
  if isNews before outcome then
    .look fun s =>
      e.tellAll send ⟨before.current, outcome.reached.current, event, outcome.reached⟩ s.observers
  else .done ()

/-- Sends an event, where observers may nest further dispatches to a depth. -/
def sendWithin (e : Engine) : Nat → String → String → Call Dispatch
  | 0, _, _ => .fail (.runtime "dispatches are nested too deep")
  | depth + 1, id, event =>
    (e.dispatch id event).bind fun (before, outcome) =>
    (e.announce (e.sendWithin depth) event before outcome).bind fun _ => .done outcome

/-- Sends an event to an instance. -/
def send (e : Engine) (id event : String) : Call Dispatch := e.sendWithin (e.nesting + 1) id event

/-- Whether an event would be taken now. -/
def canFire (_e : Engine) (id event : String) : Call Bool :=
  (definitionOf id).bind fun d =>
  Activity.locked id ((instanceOf id).bind fun i => within (i.canFire d event))

/-! ## Contexts -/

/-- The latest snapshot, if the run is not finished. -/
def runningInstance (id : String) : Call Instance :=
  (instanceOf id).bind fun i =>
    if i.isRunning then .done i else .fail (.alreadyFinished id i.status.word)

/-- Replaces the context of a running instance by the one that an activity gives. -/
def replaceContext (id : String) (f : Context → Activity Realm.flow Context) : Call Instance :=
  (definitionOf id).bind fun _ =>
  Activity.locked id
    ((runningInstance id).bind fun i =>
      (within (f i.ctx)).bind fun c =>
      let i := { i with ctx := c }
      .update (EngineState.setInstance id i) (.done i))

/-- A copy of the outermost list or object of a context, in the same arena. -/
def copyContext (c : Context) : Activity Realm.flow Context :=
  .look fun e =>
    let (root, a) := (e.arena c.arena).shallowCopy c.root
    .update (Environment.setArena c.arena a) (.done ⟨c.arena, root⟩)

/-- Runs an updater on a copy of the context, and then stores the copy. -/
def updateContext (id : String) (updater : Datum → Activity Realm.hook HookAnswer) :
    Call Instance :=
  replaceContext id fun c =>
    (copyContext c).bind fun copy =>
    ((updater copy.root).awaited.lift (Realm.hookIn copy.arena)).bind fun _ => .done copy

/-- Stores another context. -/
def setContext (id : String) (c : Context) : Call Instance := replaceContext id fun _ => .done c

/-! ## Questions -/

/-- The audit log of an instance. -/
def logOf (id : String) : Call (List LogLine) :=
  (definitionOf id).bind fun d =>
  (instanceOf id).bind fun i => Activity.ofExcept (auditLog d i)

/-- The latest snapshots, all or those of a status. -/
def list (status : Option Status) : Call (List Instance) :=
  .look fun s => .done (s.instances.values.filter fun i => status.all (· = i.status))

/-! ## Observers -/

def subscribe (name : String) : Call Unit :=
  .update (fun s => { s with observers := s.observers ++ [name] }) (.done ())

/-- Removes the first of the observers of a name. -/
def unsubscribe (name : String) : Call Unit :=
  .update (fun s => { s with observers := s.observers.erase name }) (.done ())

end Engine

end Workflow
