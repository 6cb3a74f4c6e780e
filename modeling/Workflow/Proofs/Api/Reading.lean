import Workflow.Api.Serve
import Workflow.Proofs.Activity.Rules

/-!
# Requests that only read

Work that changes nothing (`Activity.Reads`): questions to the registry and to the tables, and the
actions that are made of them. It takes no locks, and does not pause by itself.
-/

namespace Workflow

namespace Activity

variable {R : Realm} {α β : Type}

/-- Work without locks that changes nothing. -/
abbrev Reads (t : Activity R α) : Prop := t.Alters fun _ _ => False

theorem Reads.bind {t : Activity R α} {g : α → Activity R β} (ht : t.Reads)
    (hg : ∀ a, (g a).Reads) : (t.bind g).Reads :=
  Alters.bind ht fun a _ => hg a

theorem reads_ofExcept (r : Except Failure α) : (ofExcept r : Activity R α).Reads := by
  cases r <;> trivial

theorem Reads.keeps {t : Activity R α} (ht : t.Reads) (P : R.World → Prop) : Keeps P t :=
  Alters.keeps ht fun _ _ h => h.elim

end Activity

open Activity

namespace Engine

theorem reads_known {α : Type} (id : String) (table : EngineState → Dict String α) :
    (known id table).Reads := by
  intro w
  dsimp only
  split <;> trivial

theorem reads_askRegistry {α : Type} (f : Registry → Except Failure α) : (askRegistry f).Reads :=
  fun _ => reads_ofExcept _

theorem reads_logOf (id : String) : (logOf id).Reads :=
  (reads_known id _).bind fun _ => (reads_known id _).bind fun _ => reads_ofExcept _

end Engine

namespace Api

open Engine

theorem reads_detail (i : Instance) : (detail i).Reads :=
  (reads_logOf i.id).bind fun _ => (reads_ofExcept _).bind fun _ _ => trivial

theorem reads_listDefinitions (r : Request) : (Serve.listDefinitions r).Reads := by
  unfold Serve.listDefinitions
  split
  · trivial
  · exact (reads_askRegistry _).bind fun _ => trivial

theorem reads_showDefinition (id : String) (r : Request) : (Serve.showDefinition id r).Reads := by
  unfold Serve.showDefinition
  split
  · trivial
  · exact (reads_askRegistry _).bind fun _ => trivial

theorem reads_showDefinitionGraph (id : String) (r : Request) :
    (Serve.showDefinitionGraph id r).Reads := by
  refine (reads_askRegistry _).bind fun d => ?_
  dsimp only
  split
  · exact (reads_ofExcept _).bind fun _ => trivial
  split <;> trivial

theorem reads_listInstances (r : Request) : (Serve.listInstances r).Reads := by
  unfold Serve.listInstances
  dsimp only
  split
  · exact fun _ => trivial
  split
  · exact fun _ => trivial
  · trivial

theorem reads_showInstance (id : String) : (Serve.showInstance id).Reads :=
  (reads_known id _).bind fun i => (reads_detail i).bind fun _ => trivial

theorem reads_showInstanceGraph (id : String) : (Serve.showInstanceGraph id).Reads :=
  (reads_known id _).bind fun _ => (reads_known id _).bind fun _ =>
    (reads_ofExcept _).bind fun _ => trivial

end Api

end Workflow
