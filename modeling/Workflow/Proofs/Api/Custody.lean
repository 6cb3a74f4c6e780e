import Workflow.Api.Serve
import Workflow.Proofs.Engine.Custody

/-!
# Requests and what an engine has in custody

A request reads, calls the engine, and reads again. What the calls on an engine keep, all requests
keep as well, however they end.

Main result: `Action.calm_serve`.
-/

namespace Workflow.Api

open Activity
open Engine (Call Calm Custody)

variable {I : EngineState → Prop} {H : String → Instance → Prop}

theorem calm_detail (i : Instance) : Calm I (detail i) :=
  (Engine.calm_logOf i.id).bind fun _ => (Calm.ofExcept _).bind fun _ =>
    Steady.look fun _ _ => Calm.done _

theorem calm_listDefinitions (r : Request) : Calm I (Serve.listDefinitions r) := by
  unfold Serve.listDefinitions
  split
  · exact .done _
  · exact (Engine.calm_askRegistry _).bind fun _ => .done _

theorem calm_showDefinition (id : String) (r : Request) : Calm I (Serve.showDefinition id r) := by
  unfold Serve.showDefinition
  split
  · exact .done _
  · exact (Engine.calm_askRegistry _).bind fun _ => .done _

theorem calm_showDefinitionGraph (id : String) (r : Request) :
    Calm I (Serve.showDefinitionGraph id r) := by
  refine (Engine.calm_askRegistry _).bind fun d => ?_
  dsimp only
  split
  · exact (Calm.ofExcept _).bind fun _ => .done _
  split
  · exact .done _
  · exact .done _

theorem calm_listInstances (r : Request) : Calm I (Serve.listInstances r) := by
  unfold Serve.listInstances
  dsimp only
  split
  · exact (Engine.calm_list _).bind fun _ => .done _
  split
  · exact (Engine.calm_list _).bind fun _ => .done _
  · exact .done _

theorem calm_showInstance (id : String) : Calm I (Serve.showInstance id) :=
  (Engine.calm_instanceOf id).bind fun i => (calm_detail i).bind fun _ => .done _

theorem calm_showInstanceGraph (id : String) : Calm I (Serve.showInstanceGraph id) :=
  (Engine.calm_instanceOf id).bind fun _ => (Engine.calm_definitionOf id).bind fun _ =>
    (Calm.ofExcept _).bind fun _ => .done _

theorem calm_answering {t : Call Response} (ht : Calm I t) (foreseen : Failure → Option Response) :
    Calm I (answering t foreseen) := by
  refine ht.contained.bind fun r _ => ?_
  cases r <;> exact Calm.done _

section

variable (h : Custody I H) (e : Engine)
include h

theorem calm_newContext (v : Value) : Calm I (Engine.within (newContext v)) :=
  h.within fun _ => ⟨fun _ => rfl, trivial⟩

theorem calm_startInstance (r : Request) : Calm I (Serve.startInstance e r) := by
  unfold Serve.startInstance
  split
  · exact .done _
  · refine (calm_newContext h _).bind fun c => Steady.bind (h.start e _ _ _ _) fun i _ => ?_
    exact (calm_detail i).bind fun _ => .done _

theorem calm_sendEvent (id : String) (r : Request) : Calm I (Serve.sendEvent e id r) := by
  unfold Serve.sendEvent
  split
  · exact .done _
  · exact Steady.bind (h.send id _) fun out _ => (calm_detail out.reached).bind fun _ => .done _

theorem calm_askEvent (id event : String) : Calm I (Serve.askEvent e id event) := by
  refine (h.canFire (e := e) id event).attempt fun r _ => ?_
  -- What a guard failed with is part of the answer.
  split
  · exact Calm.done _
  · exact (Calm.ofExcept _).bind fun _ => .done _
  · exact Steady.fail _

theorem calm_changeContext (id : String) (r : Request) : Calm I (Serve.changeContext id r) := by
  unfold Serve.changeContext
  split
  · exact .done _
  next order _ =>
  have hset : Calm I ((Engine.within (newContext (.object order.context))).bind fun c =>
      Engine.setContext id c) :=
    (calm_newContext h _).bind fun c => (h.setContext id c).mono fun _ _ => trivial
  refine Calm.bind ?_ fun i => (calm_detail i).bind fun _ => .done _
  split
  · exact (h.updateContext id _).mono fun _ _ => trivial
  · exact hset

/-- **Requests keep what the engine has in custody.** -/
theorem Action.calm_serve (r : Request) : ∀ a : Action, Calm I (a.serve e r)
  | .listDefinitions => calm_answering (calm_listDefinitions r) _
  | .showDefinition id => calm_answering (calm_showDefinition id r) _
  | .showDefinitionGraph id => calm_answering (calm_showDefinitionGraph id r) _
  | .startInstance => calm_answering (calm_startInstance h e r) _
  | .listInstances => calm_answering (calm_listInstances r) _
  | .showInstance id => calm_answering (calm_showInstance id) _
  | .sendEvent id => calm_answering (calm_sendEvent h e id r) _
  | .askEvent id event => calm_answering (calm_askEvent h e id event) _
  | .changeContext id => calm_answering (calm_changeContext h id r) _
  | .showInstanceGraph id => calm_answering (calm_showInstanceGraph id) _

end

end Workflow.Api
