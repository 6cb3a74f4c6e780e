import Workflow.Proofs.Api.Custody
import Workflow.Proofs.Api.Errands
import Workflow.Proofs.Engine.WellKept
import Workflow.Proofs.Schedule.Paired
import Workflow.Proofs.Schedule.StoodBack

/-!
# What errands leave to each other

However the turns of errands are mixed, each of them finds an engine that is well kept, and finds
all that was stored before (`Engine.Onward`).

Main result: `underway_keeping`. So what is known of the endings of one errand amid others that go
on like this holds in all interleavings.
-/

namespace Workflow

open Activity

namespace Engine

/-- **No change that is allowed to a call removes what is stored.** -/
theorem Change.stores {lock : Option String} {x x' : Stake} {w w' : EngineState} {id : String}
    (h : Change lock x w x' w') (hw : w.Stores id) : w'.Stores id := by
  cases h with
  | work hsame | take hsame | offer _ hsame =>
    exact ⟨hsame.instances ▸ hw.snapshot, hsame.definitions ▸ hw.definition⟩
  | reserve | free => exact ⟨hw.snapshot, hw.definition⟩
  | @store _ _ _ id' d j => exact (stores_custody id).define id' d (hw.setInstance j)
  | replace => exact hw.setInstance _

theorem steps_stores {a b : Stake × EngineState} {id : String} (h : rules.Steps a b)
    (ha : a.2.Stores id) : b.2.Stores id := by
  induction h with
  | refl => exact ha
  | tail _ hstep ih =>
    obtain ⟨lock, hchange⟩ := hstep
    exact hchange.stores ih

variable {I : EngineState → Prop} {H : String → Instance → Prop}

section

variable (h : Custody I H) (e : Engine)
include h

theorem Request.calm_call (id : String) : ∀ r : Request, Calm I (r.call e id)
  | .send event => Steady.bind (h.send id event) fun _ _ => Calm.done _
  | .canFire event => (h.canFire (e := e) id event).bind fun _ => .done _
  | .update updater => Steady.bind (h.updateContext id updater) fun _ _ => Calm.done _
  | .set c => Steady.bind (h.setContext id c) fun _ _ => Calm.done _

theorem Job.calm_call : ∀ j : Job, Calm I (j.call e)
  | .start bid c abandoned => by
    have hstart := h.start e bid.name bid.version c bid.given
    refine Steady.bind (A := fun _ => True) ?_ fun _ _ => Calm.done _
    split
    · exact hstart.cancelledAtPause.mono fun _ _ => trivial
    · exact hstart.mono fun _ _ => trivial
  | .request id r => (r.calm_call h e id).bind fun _ => .done _
  | .register d => (h.changeRegistry (·.register d)).bind fun _ => .done _
  | .registerDocument doc hs =>
    (h.changeRegistry (·.registerDocument doc hs)).bind fun _ => .done _
  | .unregister name version =>
    (h.changeRegistry (·.unregister name version)).bind fun _ => .done _
  | .subscribe name => (h.subscribe name).bind fun _ => .done _
  | .unsubscribe name => (h.unsubscribe name).bind fun _ => .done _
  | .snapshot id => (calm_instanceOf id).bind fun _ => .done _
  | .definition id => (calm_definitionOf id).bind fun _ => .done _
  | .log id => (calm_logOf id).bind fun _ => .done _
  | .list status => (calm_list status).bind fun _ => .done _

end

end Engine

namespace Api

open Engine (Call Calm Custody Job Onward rules)

variable {I : EngineState → Prop} {H : String → Instance → Prop} {e : Engine} {w : EngineState}

section

variable (h : Custody I H)
include h

theorem Mount.calm_respond (m : Mount) (e : Engine) (r : Request) : Calm I (m.respond e r) := by
  unfold Mount.respond
  split
  · exact .done _
  split
  · exact .done _
  next a _ =>
  unfold Mount.perform
  split
  · exact .done _
  split
  · exact a.calm_serve h e r
  · exact .done _

theorem Errand.calm_call (e : Engine) : ∀ x : Errand, Calm I (x.call e)
  | .job j => (j.calm_call h e).bind fun _ => .done _
  | .http m r => (m.calm_respond h e r).bind fun _ => .done _

/-- **Whatever errands are under way, the engine keeps what it has in custody.** -/
theorem underway_custody (hw : I w) (errands : List Errand) (places : List Nat) :
    I (underway e w errands places).world := by
  have halike : Schedule.Alike I (fun _ _ => True) (underway e w errands places)
      (underway e w errands places) := by
    refine Schedule.turns_paired hw (fun n x _ v hv => ?_) places
    exact ((x.calm_call h e) v hv).mono fun _ _ hr => ⟨hr.world, trivial⟩
  exact halike.2

end

variable {reading : Nat → Instant}

/-- **The errands keep to what others rely on**, in all their turns. -/
theorem underway_keeping (htidy : w.Tidy) (hkept : w.WellKept reading) (errands : List Errand) :
    Schedule.Keeping (Onward reading) w (errands.map (Errand.call e)) where
  among := ⟨Onward.refl reading, Onward.trans⟩
  nodup places := by
    obtain ⟨γ, hruled, -⟩ := underway_ruled (e := e) htidy errands places
    exact hruled.nodup_numbers
  turn places place := by
    have hcustody := Engine.wellKept_custody reading
    refine ⟨fun _ => ?_, fun id hid => ?_⟩
    · have hnext := underway_custody (e := e) hcustody hkept errands (places ++ [place])
      rwa [underway_concat] at hnext
    · obtain ⟨γ, hruled, -⟩ := underway_ruled (e := e) htidy errands places
      obtain ⟨γ', -, -, hpasses⟩ := hruled.turn_passes (Engine.upholds_claims _ w) place
      cases hnext : (underway e w errands places).next? place with
      | none =>
        have hsame : (underway e w errands places).turn place = underway e w errands places :=
          Schedule.turn_of_none hnext
        exact hsame.symm ▸ hid
      | some n => exact Engine.steps_stores (hpasses n hnext).toSteps hid

end Api

end Workflow
