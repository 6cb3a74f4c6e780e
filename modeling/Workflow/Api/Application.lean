import Workflow.Api.Serve

/-!
# Applications

An application is an engine behind the interface.

**Setup.** An application can be given an engine, or a registry for an engine of its own, or
neither. A registry given beside an engine has to be the engine's. The definitions of the setup
are registered when the application is built, and one that is refused stops the building.

**Mount.** The interface lies below a path, and can be left out. It finds the registry and the
engine under the names that the mount gives them: an action that asks for a name that is not there
is a bad request.
-/

namespace Workflow.Api

open Engine (Call)

/-! ## The mount -/

/-- Where the interface lies, and the names of the resources. -/
structure Mount where
  enabled : Bool := true
  root : String := "/workflows"
  registryName : String := Resource.registry.name
  engineName : String := Resource.engine.name
  deriving DecidableEq, Repr

namespace Mount

/-- The names of the resources, in ascending order. -/
def resourceNames (m : Mount) : List String :=
  if m.registryName = m.engineName then [m.engineName]
  else if m.registryName < m.engineName then [m.registryName, m.engineName]
  else [m.engineName, m.registryName]

/-- The resource of a name; where both have one name it is the engine's. -/
def resource? (m : Mount) (name : String) : Option Resource :=
  if name = m.engineName then some .engine
  else if name = m.registryName then some .registry
  else none

/-- The paths of the routes, in ascending order. -/
def routes (m : Mount) : List String :=
  if m.enabled then
    let root := String.join ((segments m.root).map ("/" ++ ·))
    routeTemplates.map (root ++ ·)
  else []

/-- The route of a path. -/
def route? (m : Mount) (path : String) : Option Route :=
  let root := segments m.root
  let parts := segments path
  if m.enabled && root.isPrefixOf parts then Route.ofSegments? (parts.drop root.length) else none

/-- Does an action if its resource is there under its name. -/
def perform (m : Mount) (e : Engine) (r : Request) (a : Action) : Call Response :=
  match m.resource? a.resource.name with
  | none => .done .badRequest
  | some resource => if resource = a.resource then a.serve e r else .done .unforeseen

/-- Answers a request. -/
def respond (m : Mount) (e : Engine) (r : Request) : Call Response :=
  match m.route? r.path with
  | none => .done (.notFound "Not Found")
  | some route =>
    match route.action? r.method with
    | none => .done (.withoutAction r)
    | some action => m.perform e r action

end Mount

/-! ## The setup -/

/-- The engine and the registry that an application is given. -/
inductive Given where
  | nothing
  | registry (r : Registry)
  /-- An engine, and whether its registry is named beside it. -/
  | engine (e : Engine) (world : EngineState) (registryNamed : Bool)
  /-- An engine, and a registry that is not the engine's. -/
  | mismatch (e : Engine) (world : EngineState) (r : Registry)

namespace Given

def hasRegistry : Given → Bool
  | .nothing => false
  | .registry _ => true
  | .engine _ _ named => named
  | .mismatch .. => true

def hasEngine : Given → Bool
  | .nothing | .registry _ => false
  | .engine .. | .mismatch .. => true

end Given

/-- What an application is built from. -/
structure Setup where
  given : Given := .nothing
  definitions : List Definition := []
  /-- The limits of an engine of its own. -/
  limits : Limits := {}
  mount : Mount := {}

/-- An engine with what its calls share, behind the interface. -/
structure Application where
  engine : Engine
  world : EngineState
  mount : Mount

namespace Setup

/-- The engine of the application, and what its calls share. -/
def engine (s : Setup) (env : Environment) : Except Failure (Engine × EngineState) :=
  match s.given with
  | .nothing => .ok ({ limits := s.limits }, { env })
  | .registry registry => .ok ({ limits := s.limits }, { env, registry })
  | .engine e world _ => .ok (e, world)
  | .mismatch .. =>
    .error (.misconfigured
      "WorkflowPluginConfig.registry must be the registry used by WorkflowPluginConfig.engine")

/-- Registers definitions in order, up to the first that is refused. -/
def registerAll (r : Registry) : List Definition → Except Failure Registry
  | [] => .ok r
  | d :: rest =>
    match r.register d with
    | (.ok _, r) => registerAll r rest
    | (.error f, _) => .error f

/-- Builds the application; an engine of its own begins in the given environment. -/
def build (s : Setup) (env : Environment) : Except Failure Application := do
  let (engine, world) ← s.engine env
  let registry ← registerAll world.registry s.definitions
  return { engine, world := { world with registry }, mount := s.mount }

end Setup

/-! ## Parts of an application -/

/-- The failure to give a part of an application that is not built yet. -/
def notBuilt (part : String) : Failure :=
  .runtime ("WorkflowPlugin has not been initialized. Access " ++ part ++ " after app startup.")

/-- The registry of an application, if it is built. -/
def registryOf : Option Application → Except Failure Registry
  | none => .error (notBuilt "registry")
  | some a => .ok a.world.registry

/-- The engine of an application, if it is built. -/
def engineOf : Option Application → Except Failure Engine
  | none => .error (notBuilt "engine")
  | some a => .ok a.engine

end Workflow.Api
