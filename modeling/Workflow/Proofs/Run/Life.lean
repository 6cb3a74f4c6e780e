import Workflow.Engine.Basic
import Workflow.Proofs.Activity.Alone
import Workflow.Proofs.Run.Candidates

/-!
# The life of an instance

An instance is started and then worked on: events are sent to it, it is settled, and its context is
updated or replaced (`Instance.Operation`). `Definition.Reaches` collects the snapshots that come
about so. The hooks may answer, fail, pause and change the context as they like, at every call
anew; an operation that fails gives no new snapshot.

**Invariants** (`Definition.Reaches.keeps`). What a fresh snapshot has, and what moves, failing and
another context keep, holds of every snapshot that is reached.
-/

namespace Workflow

open Activity

variable {d : Definition} {i j : Instance}

/-! ## Another context -/

namespace Engine

theorem run_known_ok {α : Type} {id : String} {table : EngineState → Dict String α}
    {s : EngineState} {a : α} (h : ((known id table).run s).answer = .ok a) :
    (table s).get? id = some a ∧ ((known id table).run s).world = s := by
  simp only [known, run] at h ⊢
  split at h
  next a' ha =>
    rw [ha]
    cases h
    exact ⟨rfl, rfl⟩
  · cases h

/-- A running instance is given back with another context. -/
theorem run_replaceContext_ok {id : String} {f : Context → Activity Realm.flow Context}
    {s : EngineState} (hi : s.instances.get? id = some i)
    (h : ((replaceContext id f).run s).answer = .ok j) :
    i.status = .running ∧ ∃ c, j = { i with ctx := c } := by
  obtain ⟨d, hd, h⟩ := run_bind_ok h
  have hs : ((definitionOf id).run s).world = s := (run_known_ok hd).2
  rw [hs, run_locked] at h
  obtain ⟨i', hr, h⟩ := run_bind_ok h
  obtain ⟨i₀, hi₀, hr⟩ := run_bind_ok hr
  obtain ⟨hget, hworld⟩ := run_known_ok hi₀
  cases hi.symm.trans hget
  split at hr
  next hrunning =>
    cases hr
    obtain ⟨c, -, h⟩ := run_bind_ok h
    cases h
    exact ⟨of_decide_eq_true hrunning, c, rfl⟩
  · cases hr

end Engine

/-! ## Operations -/

/-- One operation on a snapshot, with the snapshot that it gives. -/
inductive Instance.Operation (d : Definition) (i : Instance) : Instance → Prop
  | send {limits : Limits} {event : String} {out : Dispatch} :
      (i.send d limits event).CanEnd (.ok out) → Operation d i out.reached
  | settle {limits : Limits} {j : Instance} :
      (i.settle d limits).CanEnd (.ok j) → Operation d i j
  | updateContext {s : EngineState} {id : String} {j : Instance}
      {updater : Datum → Activity Realm.hook HookAnswer} :
      s.instances.get? id = some i → ((Engine.updateContext id updater).run s).answer = .ok j →
      Operation d i j
  | setContext {s : EngineState} {id : String} {j : Instance} {c : Context} :
      s.instances.get? id = some i → ((Engine.setContext id c).run s).answer = .ok j →
      Operation d i j

/-- The snapshots that a run of a definition can come to. -/
inductive Definition.Reaches (d : Definition) : Instance → Prop
  | start {c : Context} {id : Option String} {i : Instance} :
      (d.start c id).CanEnd (.ok i) → Reaches d i
  | startAndSettle {limits : Limits} {c : Context} {id : Option String} {i : Instance} :
      (d.startAndSettle limits c id).CanEnd (.ok i) → Reaches d i
  | step {i j : Instance} : Reaches d i → i.Operation d j → Reaches d j

open Instance

theorem Definition.start_ok {c : Context} {id : Option String}
    (h : (d.start c id).CanEnd (.ok i)) : ∃ name moment, i = d.fresh c name moment := by
  obtain ⟨name, -, h⟩ := canEnd_bind_ok h
  obtain ⟨moment, -, h⟩ := canEnd_bind_ok h
  obtain ⟨-, -, h⟩ := canEnd_bind_ok h
  cases h
  exact ⟨name, moment.text, rfl⟩

/-! ## Invariants -/

/-- What is kept by a move, by failing and by another context is kept by every operation. -/
theorem Instance.Operation.keeps {P : Instance → Prop}
    (moves : ∀ {i j : Instance} {event : Value}, Moves d i event j → P i → P j)
    (fails : ∀ {i : Instance} (e : Failure), i.status ≠ .failed → P i → P (i.failed e))
    (recontext : ∀ {i : Instance} (c : Context), P i → P { i with ctx := c })
    (h : i.Operation d j) (hi : P i) : P j := by
  have path : ∀ {i k : Instance} {events : List Value}, Path d i events k → P i → P k := by
    intro i k events hp
    induction hp with
    | stay => exact fun hi => hi
    | go hm _ ih => exact fun hi => ih (moves hm hi)
  have ends : ∀ {i k : Instance}, EndsAs i k → P i → P k := by
    rintro i k (_ | ⟨e, hs⟩) hi
    · exact hi
    · exact fails e hs hi
  cases h with
  | send h =>
    rcases send_path h with he | ⟨k, n, l, hm, hp, he⟩
    · exact ends he hi
    · exact ends he (path hp (moves hm hi))
  | settle h =>
    obtain ⟨n, k, hp, he⟩ := settle_path h
    exact ends he (path hp hi)
  | updateContext hs h =>
    obtain ⟨-, c, rfl⟩ := Engine.run_replaceContext_ok hs h
    exact recontext c hi
  | setContext hs h =>
    obtain ⟨-, c, rfl⟩ := Engine.run_replaceContext_ok hs h
    exact recontext c hi

/-- **What a fresh snapshot has and every move, failing and other context keeps holds of every
snapshot that is reached.** -/
theorem Definition.Reaches.keeps {P : Instance → Prop}
    (fresh : ∀ c id moment, P (d.fresh c id moment))
    (moves : ∀ {i j : Instance} {event : Value}, Moves d i event j → P i → P j)
    (fails : ∀ {i : Instance} (e : Failure), i.status ≠ .failed → P i → P (i.failed e))
    (recontext : ∀ {i : Instance} (c : Context), P i → P { i with ctx := c })
    (h : d.Reaches i) : P i := by
  induction h with
  | start h =>
    obtain ⟨id, moment, rfl⟩ := Definition.start_ok h
    exact fresh _ id moment
  | @startAndSettle limits _ _ _ h =>
    obtain ⟨i₀, hi₀, h⟩ := canEnd_bind_ok h
    obtain ⟨id, moment, rfl⟩ := Definition.start_ok hi₀
    exact Operation.keeps moves fails recontext (.settle h) (fresh _ id moment)
  | step _ h ih => exact h.keeps moves fails recontext ih

end Workflow
