import Workflow.Proofs.Engine.Abiding
import Workflow.Proofs.Schedule.Late

/-!
# Calls on a finished instance

The calls on an instance look its definition up, wait for its lock, and only then read its snapshot
(`Activity.Gated`). If it is finished, they have nothing more to do: no guard, hook, updater or
observer is called, the stored snapshot stays, and the answer is fixed (`Request.late`).

Main results: `Request.gated` and `gated_sendWithin`.
-/

namespace Workflow

open Activity

namespace Engine

variable {e : Engine} {id : String} {i : Instance} {α : Type}

/-- The snapshot is filed under the id, beside a definition. -/
structure Filed (id : String) (i : Instance) (w : EngineState) : Prop where
  snapshot : w.instances.get? id = some i
  definition : ∃ d, w.definitions.get? id = some d

/-- What a request is answered that comes too late, when the instance is finished. -/
def Request.late (id : String) (i : Instance) : Request → Except Failure Answer
  | .send _ => .ok (.dispatched ⟨i, false⟩)
  | .canFire _ => .ok (.fires false)
  | .update _ | .set _ => .error (.alreadyFinished id i.status.word)

theorem idles_instanceOf {g : Instance → Call α} {r : Except Failure α}
    (hg : (g i).Idles (Filed id i) r) : ((instanceOf id).bind g).Idles (Filed id i) r := by
  intro w hw
  dsimp only
  rw [hw.snapshot]
  exact hg

/-- What is behind the lock of an instance is behind a gate. -/
theorem gated_locked {t : Definition → Call α} {r : Except Failure α}
    (ht : ∀ d, (t d).Idles (Filed id i) r) :
    ((definitionOf id).bind fun d => Activity.locked id (t d)).Gated (Filed id i) id r := by
  refine ⟨_, rfl, fun w => ?_⟩
  dsimp only
  cases hd : w.definitions.get? id with
  | none =>
    refine .inl ⟨fun hw => ?_, _, rfl⟩
    obtain ⟨d, hd'⟩ := hw.definition
    exact nomatch hd.symm.trans hd'
  | some d =>
    have hlocked : (Activity.locked id (t d)).Idles (Filed id i) r := Idles.locked (ht d)
    exact .inr ⟨_, rfl, hlocked⟩

section Finished

variable (hfinished : ¬ i.isRunning)

include hfinished

theorem gated_dispatch (event : String) :
    (e.dispatch id event).Gated (Filed id i) id (.ok (i, ⟨i, false⟩)) := by
  refine gated_locked fun d => idles_instanceOf ?_
  rw [Instance.send_of_finished hfinished]
  refine ⟨fun w hw => ?_, rfl⟩
  show { w with instances := w.instances.insert id i } = w
  rw [Dict.insert_of_get? hw.snapshot]

/-- **An event for a finished instance**, sent by a client or by an observer. -/
theorem gated_sendWithin (depth : Nat) (event : String) :
    (e.sendWithin (depth + 1) id event).Gated (Filed id i) id (.ok ⟨i, false⟩) :=
  (gated_dispatch hfinished event).bind fun _ hq => Idles.bind hq rfl

theorem gated_canFire (event : String) :
    (e.canFire id event).Gated (Filed id i) id (.ok false) := by
  refine gated_locked fun d => idles_instanceOf ?_
  rw [Instance.canFire_of_finished hfinished]
  rfl

/-- Both ways to change a context. -/
theorem gated_replaceContext (f : Context → Activity Realm.flow Context) :
    (replaceContext id f).Gated (Filed id i) id
      (.error (.alreadyFinished id i.status.word)) := by
  refine gated_locked fun d => Idles.bind_error ?_
  refine idles_instanceOf ?_
  rw [if_neg hfinished]
  rfl

/-- **The requests on a finished instance.** -/
theorem Request.gated (r : Request) : (r.call e id).Gated (Filed id i) id (r.late id i) := by
  cases r with
  | send event => exact (gated_sendWithin hfinished e.nesting event).map Answer.dispatched
  | canFire event => exact (gated_canFire (e := e) hfinished event).map Answer.fires
  | update updater =>
    unfold Request.call updateContext
    exact (gated_replaceContext hfinished _).map Answer.stored
  | set c =>
    unfold Request.call setContext
    exact (gated_replaceContext hfinished _).map Answer.stored

end Finished

end Engine

end Workflow
