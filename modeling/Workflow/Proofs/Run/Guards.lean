import Workflow.Proofs.Hook.Calls

/-!
# Trying guards again

Guards that go by a view of the context, and keep it, answer as they did as long as the context has
the same view.

**Echoes** (`Echoes`). Work that runs in two worlds, with one view of the context, with the same
answer and the same calls, and leaves one view.

Main results: selecting a transition echoes (`Instance.select_echoes`) and keeps what the context
shows (`Instance.select_keeps`).
-/

namespace Workflow

open Activity

variable {V : Type} {view : Arena → Datum → V} {α β : Type} {c : Context}

/-! ## Runs with the same calls -/

/-- Runs in two worlds, with one view of the context, have the same answer and the same calls, and
leave one view. -/
def Echoes (view : Arena → Datum → V) (c : Context) (t : Activity Realm.flow α) : Prop :=
  ∀ e e', Abreast view c c e e' → (t.run e').answer = (t.run e).answer ∧
    calls (t.run e').reports = calls (t.run e).reports ∧
    Abreast view c c (t.run e).world (t.run e').world

theorem Echoes.done (a : α) : Echoes view c (.done a : Activity Realm.flow α) :=
  fun _ _ he => ⟨rfl, rfl, he⟩

theorem Echoes.bind {t : Activity Realm.flow α} {g : α → Activity Realm.flow β}
    (ht : Echoes view c t) (hg : ∀ a, Echoes view c (g a)) : Echoes view c (t.bind g) := by
  intro e e' he
  obtain ⟨hanswer, hcalls, hworld⟩ := ht e e' he
  cases hr : (t.run e).answer with
  | error f =>
    rw [run_bind_of_error hr, run_bind_of_error (hanswer.trans hr)]
    exact ⟨rfl, hcalls, hworld⟩
  | ok a =>
    obtain ⟨hanswer', hcalls', hworld'⟩ := hg a _ _ hworld
    rw [run_bind_of_ok hr, run_bind_of_ok (hanswer.trans hr)]
    refine ⟨hanswer', ?_, hworld'⟩
    rw [calls_append, calls_append, hcalls, hcalls']

theorem Echoes.caught {t : Activity Realm.flow α} (ht : Echoes view c t) :
    Echoes view c t.caught := by
  intro e e' he
  obtain ⟨hanswer, hcalls, hworld⟩ := ht e e' he
  rw [run_caught, run_caught, hanswer]
  cases (t.run e).answer with
  | ok a => exact ⟨rfl, hcalls, hworld⟩
  | error f => exact ⟨rfl, hcalls, hworld⟩

/-! ## Guards -/

theorem Hook.Judges.echoes {h : Hook} (hj : h.Judges view) : Echoes view c (h.test c) := by
  intro e e' he
  obtain ⟨-, hworld⟩ := hj.tied e e' he
  refine ⟨?_, ?_, hworld⟩
  · rw [h.run_test he.first, h.run_test he.second]
    exact (hj.verdict he.same).symm
  · rw [h.run_test he.first, h.run_test he.second]
    exact (h.calls_call c e').trans (h.calls_call c e).symm

namespace Instance

variable {i : Instance} {t : Transition} {ts : List Transition}

theorem passes_echoes (ht : ∀ h, t.guard = some h → h.Judges view) :
    Echoes view i.ctx (i.passes t) := by
  unfold passes
  cases hg : t.guard with
  | none => exact .done _
  | some guard => exact (ht guard hg).echoes.caught.bind fun r => .done _

/-- **Selecting calls the same guards and selects the same transition.** -/
theorem select_echoes (hts : ∀ t ∈ ts, ∀ h, t.guard = some h → h.Judges view) :
    Echoes view i.ctx (i.select ts) := by
  induction ts with
  | nil => exact .done _
  | cons t rest ih =>
    obtain ⟨ht, hrest⟩ := List.forall_mem_cons.1 hts
    refine (passes_echoes ht).bind fun r => ?_
    rcases r with f | passed
    · exact .done _
    · cases passed with
      | true => exact .done _
      | false => exact ih hrest

/-- Selecting a transition calls guards only, which keep the view. -/
theorem select_keeps (hts : ∀ t ∈ ts, ∀ h ∈ t.guard, h.Judges view) (v : V) :
    Keeps (Shows view i.ctx v) (i.select ts) := by
  induction ts with
  | nil => exact .done _
  | cons t rest ih =>
    obtain ⟨ht, hrest⟩ := List.forall_mem_cons.1 hts
    have hpasses : Keeps (Shows view i.ctx v) (i.passes t) := by
      unfold passes
      cases hg : t.guard with
      | none => exact .done _
      | some guard => exact ((ht guard hg).keeps_test v).caught.bind fun r => .done _
    refine hpasses.bind fun r => ?_
    rcases r with f | passed
    · exact .done _
    · cases passed with
      | true => exact .done _
      | false => exact ih hrest

end Instance

end Workflow
