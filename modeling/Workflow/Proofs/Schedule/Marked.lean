import Mathlib.Data.List.InsertIdx
import Workflow.Proofs.Schedule.Ruled

/-!
# Marks

To say in which order things happen, work is written out once more with marks, which are reports of
another kind (`Realm.marked`). A mark can say what no report does, and has no effect.

**Unmarked** (`Activity.unmarked`). The work without its marks. Marked work is right if it is the
work in question once it is unmarked; the rules here tell so part by part.

Main result: `unmarked_turns`. Without their marks, activities take the same turns in the same
world, and come to the same ends.
-/

namespace Workflow

open Activity

variable {R : Realm} {M α β : Type}

/-- The realm, with marks besides its reports. -/
abbrev Realm.marked (R : Realm) (M : Type) : Realm := ⟨R.World, R.Key, R.Report ⊕ M⟩

/-- The realm as part of the one with marks. -/
def Realm.unmarkedIn (R : Realm) (M : Type) : Realm.Embedding R (R.marked M) where
  get w := w
  put w _ := w
  key key := key
  report := .inl

/-- The marks among reports, the earliest first, where the latest report came first. -/
def marks (log : List (R.Report ⊕ M)) : List M := (log.filterMap Sum.getRight?).reverse

@[simp] theorem marks_nil : marks ([] : List (R.Report ⊕ M)) = [] := rfl

@[simp] theorem marks_inl (r : R.Report) (log : List (R.Report ⊕ M)) :
    marks (.inl r :: log) = marks log := rfl

@[simp] theorem marks_inr (mark : M) (log : List (R.Report ⊕ M)) :
    marks (.inr mark :: log) = marks log ++ [mark] := by
  simp [marks]

namespace Activity

/-- The work as it is, in the realm with marks. -/
def plain (M : Type) (t : Activity R α) : Activity (R.marked M) α := t.lift (R.unmarkedIn M)

/-- Makes one mark. -/
def mark (note : M) (next : Activity (R.marked M) α) : Activity (R.marked M) α :=
  .report (.inr note) next

/-- The work without its marks. -/
def unmarked : Activity (R.marked M) α → Activity R α
  | .done a => .done a
  | .fail e => .fail e
  | .look k => .look fun w => (k w).unmarked
  | .update f next => .update f next.unmarked
  | .report (.inl r) next => .report r next.unmarked
  | .report (.inr _) next => next.unmarked
  | .pause k => .pause fun s => (k s).unmarked
  | .acquire key next => .acquire key next.unmarked
  | .release key next => .release key next.unmarked

@[simp] theorem unmarked_mark (note : M) (next : Activity (R.marked M) α) :
    (mark note next).unmarked = next.unmarked := rfl

@[simp] theorem unmarked_plain (t : Activity R α) : (t.plain M).unmarked = t := by
  induction t with
  | done | fail => rfl
  | look k ih => exact congrArg Activity.look (funext ih)
  | update f next ih => exact congrArg (Activity.update f) ih
  | report r next ih => exact congrArg (Activity.report r) ih
  | pause k ih => exact congrArg Activity.pause (funext ih)
  | acquire key next ih => exact congrArg (Activity.acquire key) ih
  | release key next ih => exact congrArg (Activity.release key) ih

@[simp] theorem unmarked_bind (t : Activity (R.marked M) α) (g : α → Activity (R.marked M) β) :
    (t.bind g).unmarked = t.unmarked.bind fun a => (g a).unmarked := by
  induction t with
  | done | fail => rfl
  | look k ih => simp [bind, unmarked, ih]
  | update f next ih => simp [bind, unmarked, ih]
  | report r next ih => cases r <;> simp [bind, unmarked, ih]
  | pause k ih => simp [bind, unmarked, ih]
  | acquire key next ih => simp [bind, unmarked, ih]
  | release key next ih => simp [bind, unmarked, ih]

@[simp] theorem unmarked_attempt (t : Activity (R.marked M) α) :
    t.attempt.unmarked = t.unmarked.attempt := by
  induction t with
  | done | fail => rfl
  | look k ih => simp [attempt, unmarked, ih]
  | update f next ih => simp [attempt, unmarked, ih]
  | report r next ih => cases r <;> simp [attempt, unmarked, ih]
  | pause k ih => simp [attempt, unmarked, ih]
  | acquire key next ih => simp [attempt, unmarked, ih]
  | release key next ih => simp [attempt, unmarked, ih]

@[simp] theorem unmarked_ofExcept (r : Except Failure α) :
    (ofExcept r : Activity (R.marked M) α).unmarked = ofExcept r := by
  cases r <;> rfl

@[simp] theorem unmarked_contained (t : Activity (R.marked M) α) :
    t.contained.unmarked = t.unmarked.contained := by
  unfold contained
  rw [unmarked_bind, unmarked_attempt]
  congr 1
  funext r
  cases r with
  | ok a => rfl
  | error e =>
    dsimp only
    split <;> rfl

@[simp] theorem unmarked_locked (key : R.Key) (t : Activity (R.marked M) α) :
    (locked (R := R.marked M) key t).unmarked = locked key t.unmarked := by
  refine congrArg (Activity.acquire key) ?_
  rw [unmarked_bind, unmarked_attempt]
  congr 1
  funext r
  exact congrArg (Activity.release key) (unmarked_ofExcept r)

@[simp] theorem unmarked_cancelledAtPause (t : Activity (R.marked M) α) :
    t.cancelledAtPause.unmarked = t.unmarked.cancelledAtPause := by
  induction t with
  | done | fail => rfl
  | look k ih => simp [cancelledAtPause, unmarked, ih]
  | update f next ih => simp [cancelledAtPause, unmarked, ih]
  | report r next ih => cases r <;> simp [cancelledAtPause, unmarked, ih]
  | pause k ih => rfl
  | acquire key next ih => simp [cancelledAtPause, unmarked, ih]
  | release key next ih => simp [cancelledAtPause, unmarked, ih]

end Activity

/-! ## Turns -/

namespace Schedule

/-- The schedule of the unmarked activities. -/
def unmarked (s : Schedule (R.marked M) α) : Schedule R α where
  world := s.world
  reported := s.reported.filterMap Sum.getLeft?
  ready := s.ready.map fun x => (x.1, x.2.unmarked)
  waiting := s.waiting.map fun x => (x.1, x.2.1, x.2.2.unmarked)
  held := s.held
  taken := s.taken
  finished := s.finished

theorem unmarked_start (w : R.World) (ts : List (Activity (R.marked M) α)) :
    (start (R := R.marked M) w ts).unmarked = start w (ts.map Activity.unmarked) := by
  unfold start unmarked
  simp [List.zipIdx_map, List.map_map, Function.comp_def]

variable [DecidableEq R.Key]

theorem unmarked_giveBack (key : R.Key) (s : Schedule (R.marked M) α) :
    (giveBack (R := R.marked M) key s).unmarked = s.unmarked.giveBack key := by
  have hfind : (s.unmarked.waiting.find? fun entry => decide (entry.1 = key)) =
      (s.waiting.find? fun entry => decide (entry.1 = key)).map
        fun x => (x.1, x.2.1, x.2.2.unmarked) :=
    List.find?_map ..
  unfold giveBack
  rw [hfind]
  cases s.waiting.find? fun entry => decide (entry.1 = key) with
  | none => rfl
  | some x => simp [unmarked, List.eraseP_map, Function.comp_def]

theorem unmarked_advance (n : Nat) (t : Activity (R.marked M) α) (s : Schedule (R.marked M) α) :
    (advance (R := R.marked M) n t s).unmarked = advance n t.unmarked s.unmarked := by
  induction t generalizing s with
  | done | fail => rfl
  | look k ih => exact ih s.world s
  | update f next ih => exact ih _
  | report r next ih => cases r <;> exact ih _
  | pause k ih => simp [advance, unmarked, Activity.unmarked]
  | acquire key next ih =>
    by_cases hheld : key ∈ s.held
    · simp [advance, unmarked, Activity.unmarked, hheld]
    · simp only [advance, Activity.unmarked, if_neg hheld]
      rw [if_neg (show key ∉ s.unmarked.held from hheld)]
      exact ih _
  | release key next ih =>
    refine (ih _).trans ?_
    rw [unmarked_giveBack]
    rfl

theorem unmarked_turn (place : Nat) (s : Schedule (R.marked M) α) :
    (turn (R := R.marked M) place s).unmarked = s.unmarked.turn place := by
  unfold turn
  have hplace : s.unmarked.ready[place]? = (s.ready[place]?).map fun x => (x.1, x.2.unmarked) :=
    List.getElem?_map ..
  rw [hplace]
  cases s.ready[place]? with
  | none => rfl
  | some x =>
    refine (unmarked_advance _ _ _).trans ?_
    simp [unmarked, List.eraseIdx_map]

/-- **Marks have no effect**: without them, the same turns are taken. -/
theorem unmarked_turns (places : List Nat) (s : Schedule (R.marked M) α) :
    (turns (R := R.marked M) places s).unmarked = s.unmarked.turns places := by
  unfold turns
  induction places generalizing s with
  | nil => rfl
  | cons place rest ih =>
    refine (ih _).trans ?_
    rw [unmarked_turn]
    rfl

end Schedule

end Workflow
