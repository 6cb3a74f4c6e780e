import Workflow.Hook.Basic
import Workflow.Proofs.Activity.Tied

/-!
# Hooks that go by what they see

What a hook can see of its context is told by a view: a function of the arena and the datum in it.
The arena itself is a view, and so is the content alone.

**Guards** (`Hook.Judges`) pass or fail by the view, and keep it. **Other hooks** (`Hook.Acts`)
fail, and change the view, by the view.

Main results: on contexts with one view, in different worlds, hooks run side by side
(`Hook.Judges.tied`, `Hook.Acts.tied`).
-/

namespace Workflow

open Activity

/-! ## The arena of a context -/

/-- The world has the arena of the context. -/
def Context.In (c : Context) (e : Environment) : Prop := c.arena < e.contexts.arenas.size

namespace Environment

variable {e : Environment} {n : Nat} {a b : Arena}

theorem arena_setArena (h : n < e.contexts.arenas.size) : (e.setArena n a).arena n = a := by
  show (e.contexts.arenas.setIfInBounds n a).getD n default = a
  simp [Array.getD, h]

theorem setArena_setArena : (e.setArena n a).setArena n b = e.setArena n b := by
  simp [setArena, Contexts.setArena]

theorem setArena_arena (h : n < e.contexts.arenas.size) : e.setArena n (e.arena n) = e := by
  have hset : e.contexts.arenas.setIfInBounds n (e.contexts.arenas.getD n default) =
      e.contexts.arenas := by
    simp [Array.getD, Array.setIfInBounds, h]
  unfold setArena arena Contexts.setArena Contexts.arena
  rw [hset]

end Environment

/-- Where its arena is, a hook leaves the rest of the world as it is. -/
theorem Context.lawful (c : Context) : Lawful (Realm.hookIn c.arena) c.In where
  keeps h a := by
    show c.arena < (Array.setIfInBounds _ _ _).size
    rw [Array.size_setIfInBounds]
    exact h
  get_put h _ := Environment.arena_setArena h
  put_put _ _ _ := Environment.setArena_setArena
  put_get h := Environment.setArena_arena h

/-! ## Views -/

variable {V : Type} {view : Arena → Datum → V} {h : Hook} {c c' : Context} {e e' : Environment}

namespace Hook

/-- The run of a hook on a datum of an arena. -/
def on (h : Hook) (root : Datum) (a : Arena) : Outcome Realm.hook HookAnswer :=
  (h.body root).awaited.run a

/-- Whether a guard passes, or its failure to tell. -/
def verdict (h : Hook) (root : Datum) (a : Arena) : Except Failure Bool :=
  (h.on root a).answer.bind fun answer => answer.truth (h.on root a).world

/-- The failure of a hook, if it fails. -/
def success (h : Hook) (root : Datum) (a : Arena) : Except Failure Unit :=
  (h.on root a).answer.map fun _ => ()

/-- A guard that goes by the view, and keeps it. -/
structure Judges (view : Arena → Datum → V) (h : Hook) : Prop where
  verdict : ∀ {a b : Arena} {r s : Datum}, view a r = view b s → h.verdict r a = h.verdict s b
  keeps : ∀ (a : Arena) (r : Datum), view (h.on r a).world r = view a r

/-- A hook that goes by the view. -/
structure Acts (view : Arena → Datum → V) (h : Hook) : Prop where
  success : ∀ {a b : Arena} {r s : Datum}, view a r = view b s → h.success r a = h.success s b
  effect : ∀ {a b : Arena} {r s : Datum}, view a r = view b s →
    view (h.on r a).world r = view (h.on s b).world s

end Hook

/-- Everything that a hook can go by: the arena as it is. -/
abbrev wholeView (a : Arena) (r : Datum) : Arena × Datum := (a, r)

/-- All hooks go by the arena as it is. -/
theorem Hook.acts_whole (h : Hook) : h.Acts wholeView := by
  constructor <;> rintro a b r s ⟨⟩ <;> rfl

/-- A guard that leaves the arena as it is goes by it. -/
theorem Hook.judges_whole (h : Hook) (hkeeps : ∀ r a, (h.on r a).world = a) :
    h.Judges wholeView := by
  constructor
  · rintro a b r s ⟨⟩
    rfl
  · intro a r
    rw [hkeeps]

/-- The context has its arena, and this view. -/
def Shows (view : Arena → Datum → V) (c : Context) (v : V) (e : Environment) : Prop :=
  c.In e ∧ view (e.arena c.arena) c.root = v

/-- Two contexts, each in its world, with one view. -/
structure Abreast (view : Arena → Datum → V) (c c' : Context) (e e' : Environment) : Prop where
  first : c.In e
  second : c'.In e'
  same : view (e.arena c.arena) c.root = view (e'.arena c'.arena) c'.root

/-! ## Calls -/

theorem Hook.run_call (h : Hook) (hc : c.In e) :
    ((h.call c).run e).answer = (h.on c.root (e.arena c.arena)).answer ∧
      ((h.call c).run e).world = e.setArena c.arena (h.on c.root (e.arena c.arena)).world := by
  unfold Hook.call
  simp only [run, run_lift c.lawful (h.body c.root).awaited hc]
  exact ⟨rfl, rfl⟩

/-- After a call the context is seen as the hook left it. -/
theorem Hook.arena_call (h : Hook) (hc : c.In e) :
    c.In ((h.call c).run e).world ∧
      ((h.call c).run e).world.arena c.arena = (h.on c.root (e.arena c.arena)).world := by
  rw [(h.run_call hc).2]
  exact ⟨c.lawful.keeps hc _, Environment.arena_setArena hc⟩

/-- A call of a guard, with the truth of its answer on what it has left. -/
def Hook.test (h : Hook) (c : Context) : Activity Realm.flow Bool :=
  (h.call c).bind fun answer => .look fun e => ofExcept (answer.truth (e.arena c.arena))

theorem Hook.run_test (h : Hook) (hc : c.In e) :
    (h.test c).run e = ⟨h.verdict c.root (e.arena c.arena), ((h.call c).run e).world,
      ((h.call c).run e).reports⟩ := by
  unfold Hook.test Hook.verdict
  rw [← (h.run_call hc).1, ← (h.arena_call hc).2]
  cases hr : ((h.call c).run e).answer with
  | error f =>
    rw [run_bind_of_error hr]
    rfl
  | ok answer =>
    rw [run_bind_of_ok hr]
    simp only [run, run_ofExcept, List.append_nil]
    rfl

/-- **A guard runs side by side on contexts with one view.** -/
theorem Hook.Judges.tied (hj : h.Judges view) :
    Tied (Abreast view c c') Eq (h.test c) (h.test c') := by
  intro e e' he
  rw [h.run_test he.first, h.run_test he.second, hj.verdict he.same]
  constructor
  · cases h.verdict c'.root (e'.arena c'.arena) with
    | error f => exact .error rfl
    | ok b => exact .ok rfl
  · obtain ⟨hin, harena⟩ := h.arena_call he.first
    obtain ⟨hin', harena'⟩ := h.arena_call he.second
    refine ⟨hin, hin', ?_⟩
    rw [harena, harena', hj.keeps, hj.keeps]
    exact he.same

/-- A guard keeps what its context shows. -/
theorem Hook.Judges.keeps_test (hj : h.Judges view) (v : V) :
    Keeps (Shows view c v) (h.test c) := by
  intro e he
  rw [h.run_test he.1]
  obtain ⟨hin, harena⟩ := h.arena_call he.1
  refine ⟨hin, ?_⟩
  rw [harena, hj.keeps]
  exact he.2

/-- **Any other hook runs side by side on contexts with one view.** -/
theorem Hook.Acts.tied (ha : h.Acts view) :
    Tied (Abreast view c c') (fun _ _ => True) (h.call c) (h.call c') := by
  intro e e' he
  obtain ⟨hin, harena⟩ := h.arena_call he.first
  obtain ⟨hin', harena'⟩ := h.arena_call he.second
  constructor
  · have hs := ha.success he.same
    unfold Hook.success at hs
    rw [(h.run_call he.first).1, (h.run_call he.second).1]
    generalize (h.on c.root (e.arena c.arena)).answer = r at hs
    generalize (h.on c'.root (e'.arena c'.arena)).answer = s at hs
    cases r <;> cases s <;> cases hs
    · exact .error rfl
    · exact .ok trivial
  · refine ⟨hin, hin', ?_⟩
    rw [harena, harena']
    exact ha.effect he.same

end Workflow
