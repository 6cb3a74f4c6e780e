import Workflow.Hook.Script
import Workflow.Proofs.Context.Content

/-!
# Updaters that keep to the top level

An updater is given a list or an object. It keeps to the top level (`TopLevel`) if it binds or
removes keys of that object, or adds items to that list, and leaves all other lists and objects as
they are. It may put new ones into it, and old ones in other places.

**Steps** (`Activity.TopLevelFrom`). No other activity works on the arena meanwhile, so each step is
judged in the arena that the steps before have left.

Main result: `topLevel_ofSteps`. Of the steps that a script can have, only the one that adds to a
list under a key goes deeper.
-/

namespace Workflow

open Activity

/-- From an arena on, the work changes no list and no object but the one in the cell. -/
def Activity.TopLevelFrom {α : Type} (m : Nat) : Arena → Activity Realm.hook α → Prop
  | _, .done _ | _, .fail _ => True
  | a, .look k => (k a).TopLevelFrom m a
  | a, .update f next => a.GrowsBut m (f a) ∧ next.TopLevelFrom m (f a)
  | a, .report _ next => next.TopLevelFrom m a
  | a, .pause k => ∀ signal, (k signal).TopLevelFrom m a
  | _, .acquire key _ | _, .release key _ => nomatch key

/-- Waiting for the work changes nothing. -/
theorem Activity.TopLevelFrom.awaited {α : Type} {m : Nat} {a : Arena} {t : Activity Realm.hook α}
    (h : t.TopLevelFrom m a) : t.awaited.TopLevelFrom m a := by
  induction t generalizing a with
  | done | fail => trivial
  | look k ih => exact ih a h
  | update f next ih => exact ⟨h.1, ih h.2⟩
  | report r next ih => exact ih h
  | pause k ih => exact fun signal => ih signal (h signal)
  | acquire key next ih | release key next ih => exact nomatch key

/-- The updater changes no list and no object but the one that it is given. -/
def TopLevel (updater : Datum → Activity Realm.hook HookAnswer) : Prop :=
  ∀ (a : Arena) (m : Nat), m < a.cells.size → (updater (.ref m)).TopLevelFrom m a

/-! ## Scripts -/

/-- The step changes at most the outermost list or object. -/
def Step.isTopLevel : Step → Bool
  | .push _ _ => false
  | _ => true

theorem growsBut_storeInto (a : Arena) (m : Nat) (v : Value) (cell : Datum → Cell) :
    a.GrowsBut m (storeInto a m v cell) :=
  ((Arena.grows_store a v).but m).trans (Arena.growsBut_setCell _ m _)

section Steps

variable {a : Arena} {m : Nat} {pauses : Bool}

theorem answerWith_topLevel (v : Value) : (answerWith v).TopLevelFrom m a :=
  ⟨(Arena.grows_store a v).but m, trivial⟩

/-- What is done with the members of an object. -/
theorem withMembers_topLevel
    {k : Arena → Nat → List (String × Datum) → Activity Realm.hook HookAnswer}
    (hk : ∀ members, (k a m members).TopLevelFrom m a) :
    (withMembers (.ref m) k).TopLevelFrom m a := by
  unfold withMembers
  simp only [TopLevelFrom]
  split
  next heq _ =>
    cases heq
    exact hk _
  · trivial

/-- Scripts of such steps keep to the top level. -/
theorem runSteps_topLevel {steps : List Step} (h : ∀ step ∈ steps, step.isTopLevel) :
    (runSteps pauses (.ref m) steps).TopLevelFrom m a := by
  induction steps generalizing a with
  | nil => trivial
  | cons step rest ih =>
    obtain ⟨hstep, hrest⟩ := List.forall_mem_cons.1 h
    replace ih := fun {a} => ih (a := a) hrest
    cases step with
    | give v => exact answerWith_topLevel v
    | giveUntestable | giveContext | raise => trivial
    | yield =>
      cases pauses with
      | false => exact ih
      | true => exact fun signal => by cases signal <;> first | exact ih | trivial
    | append v =>
      unfold runSteps
      simp only [TopLevelFrom]
      split
      next heq _ =>
        cases heq
        exact ⟨growsBut_storeInto _ m v _, ih⟩
      · trivial
    | set key v =>
      exact withMembers_topLevel fun members => ⟨growsBut_storeInto _ m v _, ih⟩
    | add key amount =>
      refine withMembers_topLevel fun members => ?_
      dsimp only
      split
      · exact ⟨growsBut_storeInto _ m _ _, ih⟩
      · trivial
    | push key v => cases hstep
    | delete key =>
      refine withMembers_topLevel fun members => ?_
      dsimp only
      split
      · exact ⟨Arena.growsBut_setCell _ m _, ih⟩
      · trivial
    | note key => exact withMembers_topLevel fun members => ih
    | get key =>
      refine withMembers_topLevel fun members => ?_
      split <;> trivial
    | getOr key fallback =>
      refine withMembers_topLevel fun members => ?_
      split
      · trivial
      · exact answerWith_topLevel fallback
    | less key bound =>
      refine withMembers_topLevel fun members => ?_
      dsimp only
      split <;> trivial
    | equals key v => exact withMembers_topLevel fun members => trivial

end Steps

/-- **Scripts that do not add to a list under a key keep to the top level.** -/
theorem topLevel_ofSteps (name : String) (pauses : Bool) {steps : List Step}
    (h : ∀ step ∈ steps, step.isTopLevel) : TopLevel (Hook.ofSteps name pauses steps).body :=
  fun _ _ _ => runSteps_topLevel h

end Workflow
