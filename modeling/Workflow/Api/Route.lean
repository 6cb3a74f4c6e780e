import Workflow.Api.Request

/-!
# Routes

The paths below the prefix of the interface, and what each method does there.

A path that no route has does not exist; a route without the method refuses it.
-/

namespace Workflow.Api

/-- A path of the interface. -/
inductive Route where
  | definitions
  | definition (id : String)
  | definitionGraph (id : String)
  | instances
  | instance (id : String)
  | events (id : String)
  | canFire (id event : String)
  | context (id : String)
  | instanceGraph (id : String)
  deriving DecidableEq, Repr

/-- The route of a path below the prefix. -/
def Route.ofSegments? : List String → Option Route
  | ["definitions"] => some .definitions
  | ["definitions", id] => some (.definition id)
  | ["definitions", id, "graph"] => some (.definitionGraph id)
  | ["instances"] => some .instances
  | ["instances", id] => some (.instance id)
  | ["instances", id, "events"] => some (.events id)
  | ["instances", id, "can", event] => some (.canFire id event)
  | ["instances", id, "context"] => some (.context id)
  | ["instances", id, "graph"] => some (.instanceGraph id)
  | _ => none

/-- What is to be done. -/
inductive Action where
  | listDefinitions
  | showDefinition (id : String)
  | showDefinitionGraph (id : String)
  | startInstance
  | listInstances
  | showInstance (id : String)
  | sendEvent (id : String)
  | askEvent (id event : String)
  | changeContext (id : String)
  | showInstanceGraph (id : String)
  deriving DecidableEq, Repr

/-- What a method does on a route. -/
def Route.action? (method : String) : Route → Option Action
  | .definitions => if method = "GET" then some .listDefinitions else none
  | .definition id => if method = "GET" then some (.showDefinition id) else none
  | .definitionGraph id => if method = "GET" then some (.showDefinitionGraph id) else none
  | .instances =>
    if method = "GET" then some .listInstances
    else if method = "POST" then some .startInstance
    else none
  | .instance id => if method = "GET" then some (.showInstance id) else none
  | .events id => if method = "POST" then some (.sendEvent id) else none
  | .canFire id event => if method = "GET" then some (.askEvent id event) else none
  | .context id => if method = "PUT" then some (.changeContext id) else none
  | .instanceGraph id => if method = "GET" then some (.showInstanceGraph id) else none

/-- What an action works on. -/
inductive Resource where
  | registry
  | engine
  deriving DecidableEq, Repr

/-- The name under which actions ask for a resource. -/
def Resource.name : Resource → String
  | .registry => "workflow_registry"
  | .engine => "workflow_engine"

/-- What an action works on: the definitions are those of the registry, all else is the engine's. -/
def Action.resource : Action → Resource
  | .listDefinitions | .showDefinition _ | .showDefinitionGraph _ => .registry
  | _ => .engine

/-- The paths of the routes below the prefix, in ascending order, with their parameters in
braces. -/
def routeTemplates : List String :=
  let definition := "\x7bdefinition_id:str\x7d"
  let inst := "\x7binstance_id:str\x7d"
  ["/definitions", "/definitions/" ++ definition, "/definitions/" ++ definition ++ "/graph",
    "/instances", "/instances/" ++ inst, "/instances/" ++ inst ++ "/can/\x7bevent:str\x7d",
    "/instances/" ++ inst ++ "/context", "/instances/" ++ inst ++ "/events",
    "/instances/" ++ inst ++ "/graph"]

end Workflow.Api
