import Workflow.Proofs.Activity.Achieves
import Workflow.Proofs.Context.Sheets
import Workflow.Proofs.Hook.Seen
import Workflow.Proofs.Run.Alike

/-!
# Contexts with a content

A context that came in as a JSON object is a sheet in an arena of its own
(`Environment.Holds`). What happens to it can be told by its content: which members it has after it
was stored, copied or written to.

Hooks that write to their context (`Hook.Writes`) are given by what they do to the content.
-/

namespace Workflow

open Activity

variable {e e' : Environment} {c : Context} {content : List (String × Value)}

/-- The context is a sheet with this content. -/
structure Environment.Holds (e : Environment) (c : Context) (content : List (String × Value)) :
    Prop where
  inside : c.In e
  sheet : ∃ n members, c.root = .ref n ∧ (e.arena c.arena).Sheet n members ∧
    (e.arena c.arena).content members = content

namespace Environment.Holds

theorem read (h : e.Holds c content) : e.read c = .object content := by
  obtain ⟨n, members, hroot, hsheet, rfl⟩ := h.sheet
  show (e.arena c.arena).load c.root = _
  rw [hroot]
  exact hsheet.load

/-- What happens elsewhere is no matter. -/
theorem frame (h : e.Holds c content) (hin : c.In e') (harena : e'.arena c.arena = e.arena c.arena) :
    e'.Holds c content where
  inside := hin
  sheet := by
    rw [harena]
    exact h.sheet

theorem setArena (h : e.Holds c content) {n : Nat} {root : Datum} {a : Arena}
    {members : List (String × Datum)} {content' : List (String × Value)} (hroot : root = .ref n)
    (hsheet : a.Sheet n members) (hcontent : a.content members = content') :
    (e.setArena c.arena a).Holds ⟨c.arena, root⟩ content' where
  inside := c.lawful.keeps h.inside a
  sheet := ⟨n, members, hroot, (Environment.arena_setArena h.inside).symm ▸ hsheet,
    (Environment.arena_setArena h.inside).symm ▸ hcontent⟩

end Environment.Holds

/-- An object that comes in is held as it is. -/
theorem Environment.holds_allocate (content : List (String × Value)) (e : Environment) :
    (e.allocate (.object content)).Holds (e.contexts.allocate (.object content)).1 content := by
  obtain ⟨n, members, hroot, hsheet, hcontent⟩ := Arena.Sheet.stored content
  have harena := arena_allocate_new (.object content) e
  refine ⟨?_, n, members, hroot, ?_, ?_⟩
  · show e.contexts.arenas.size < (e.allocate (.object content)).contexts.arenas.size
    rw [size_allocate]
    exact Nat.lt_succ_self _
  · exact harena.symm ▸ hsheet
  · exact harena.symm ▸ hcontent

/-- A copy is held with the same content. -/
theorem Engine.copyContext_achieves :
    Achieves (Environment.Holds · c content)
      (fun copy (e : Environment) => copy.arena = c.arena ∧ e.Holds copy content) (copyContext c) := by
  intro e he
  obtain ⟨n, members, hroot, hsheet, rfl⟩ := he.sheet
  obtain ⟨hcopy, hsheet', hcontent⟩ := hsheet.copied
  unfold copyContext
  simp only [run]
  rw [hroot, hcopy]
  exact ⟨_, rfl, rfl, he.setArena rfl hsheet' hcontent⟩

/-! ## Hooks -/

/-- The work on a sheet answers, and does this to its content. -/
def Writes (body : Datum → Activity Realm.hook HookAnswer)
    (f : List (String × Value) → List (String × Value)) : Prop :=
  ∀ a n members, a.Sheet n members → ∃ answer members', ((body (.ref n)).run a).answer = .ok answer ∧
    ((body (.ref n)).run a).world.Sheet n members' ∧
    ((body (.ref n)).run a).world.content members' = f (a.content members)

/-- Work on the arena of a context. -/
theorem Writes.lift {body : Datum → Activity Realm.hook HookAnswer}
    {f : List (String × Value) → List (String × Value)} (h : Writes body f) :
    Achieves (Environment.Holds · c content) (fun _ (e : Environment) => e.Holds c (f content))
      ((body c.root).awaited.lift (Realm.hookIn c.arena)) := by
  intro e he
  obtain ⟨n, members, hroot, hsheet, rfl⟩ := he.sheet
  obtain ⟨answer, members', hanswer, hsheet', hcontent⟩ := h _ n members hsheet
  rw [run_lift c.lawful _ he.inside, run_awaited]
  obtain ⟨arena, root⟩ := c
  cases hroot
  refine ⟨answer, ?_, he.setArena rfl hsheet' hcontent⟩
  exact congrArg (Except.mapError Failure.awaited) hanswer

theorem Writes.call {h : Hook} {f : List (String × Value) → List (String × Value)}
    (hw : Writes h.body f) :
    Achieves (Environment.Holds · c content) (fun _ (e : Environment) => e.Holds c (f content))
      (h.call c) :=
  hw.lift.report

theorem run_withMembers {a : Arena} {n : Nat} {members : List (String × Datum)}
    (h : a.Sheet n members) (k : Arena → Nat → List (String × Datum) →
      Activity Realm.hook HookAnswer) :
    (withMembers (.ref n) k).run a = (k a n members).run a := by
  unfold withMembers
  simp only [run]
  have hcell : a.cell? (.ref n) = some (.object members) := h.cell
  rw [hcell]

end Workflow
