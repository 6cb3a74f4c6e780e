import Mathlib.Data.List.InsertIdx
import Workflow.Activity.Schedule
import Workflow.Proofs.Activity.InStep

/-!
# Schedules side by side

Two schedules of activities that are in step, one by one, with turns at the same places
(`Schedule.Paired`). They stay alike in all but the activities themselves: the world, the reports,
the locks and the endings are the same.

Between two turns the world has the invariant `I`, so each pair that waits for its turn or for a
lock goes on in step, whatever the others have done. An ending of activity number `n` has the
property `A n`.

Main result: `turns_paired`.
-/

namespace Workflow

open Activity

variable {R : Realm} {α : Type} {I : R.World → Prop} {A : Nat → Except Failure α → Prop}

/-- An activity of each schedule, with the number of both. -/
structure Pair (R : Realm) (α : Type) where
  number : Nat
  left : Activity R α
  right : Activity R α

namespace Pair

def first (p : Pair R α) : Nat × Activity R α := (p.number, p.left)

def second (p : Pair R α) : Nat × Activity R α := (p.number, p.right)

/-- The two are in step from every world of the invariant. -/
def InStep (I : R.World → Prop) (A : Nat → Except Failure α → Prop) (p : Pair R α) : Prop :=
  ∀ v, I v → Activity.InStep I (fun r v => I v ∧ A p.number r) v p.left p.right

end Pair

namespace Schedule

/-- The schedules differ at most in their activities, which are in step. -/
structure Paired (I : R.World → Prop) (A : Nat → Except Failure α → Prop)
    (s s' : Schedule R α) : Prop where
  world : s'.world = s.world
  reported : s'.reported = s.reported
  held : s'.held = s.held
  taken : s'.taken = s.taken
  finished : s'.finished = s.finished
  ready : ∃ ps : List (Pair R α), s.ready = ps.map Pair.first ∧ s'.ready = ps.map Pair.second ∧
    ∀ p ∈ ps, p.InStep I A
  waiting : ∃ ps : List (R.Key × Pair R α), s.waiting = ps.map (Prod.map id Pair.first) ∧
    s'.waiting = ps.map (Prod.map id Pair.second) ∧ ∀ p ∈ ps, p.2.InStep I A
  answers : ∀ x ∈ s.finished, A x.1 x.2

variable {s s' : Schedule R α} {n : Nat}

theorem Paired.finish (h : Paired I A s s') {r : Except Failure α} (hr : A n r) :
    Paired I A { s with finished := (n, r) :: s.finished }
      { s' with finished := (n, r) :: s'.finished } :=
  { h with
    finished := congrArg ((n, r) :: ·) h.finished
    answers := List.forall_mem_cons.2 ⟨hr, h.answers⟩ }

/-- One more pair is ready. -/
theorem Paired.pushReady (h : Paired I A s s') {p : Pair R α} (hp : p.InStep I A) :
    Paired I A { s with ready := s.ready ++ [p.first] }
      { s' with ready := s'.ready ++ [p.second] } := by
  obtain ⟨ps, hs, hs', hps⟩ := h.ready
  refine { h with ready := ⟨ps ++ [p], ?_, ?_, ?_⟩ }
  · simp [hs]
  · simp [hs']
  · simpa [or_imp, forall_and] using ⟨hps, hp⟩

/-- One more pair waits for a lock. -/
theorem Paired.pushWaiting (h : Paired I A s s') (key : R.Key) {p : Pair R α}
    (hp : p.InStep I A) :
    Paired I A { s with waiting := s.waiting ++ [(key, p.first)] }
      { s' with waiting := s'.waiting ++ [(key, p.second)] } := by
  obtain ⟨ps, hs, hs', hps⟩ := h.waiting
  refine { h with waiting := ⟨ps ++ [(key, p)], ?_, ?_, ?_⟩ }
  · simp [hs]
  · simp [hs']
  · intro x hx
    rcases List.mem_append.1 hx with hx | hx
    · exact hps x hx
    · cases List.mem_singleton.1 hx
      exact hp

variable [DecidableEq R.Key]

/-- The lock goes to the same pair, or is free in both schedules. -/
theorem Paired.giveBack (h : Paired I A s s') (key : R.Key) :
    Paired I A (s.giveBack key) (s'.giveBack key) := by
  obtain ⟨ps, hs, hs', hps⟩ := h.waiting
  unfold Schedule.giveBack
  rw [hs, hs', List.find?_map, List.find?_map]
  have hsame : ((fun entry : R.Key × Nat × Activity R α => decide (entry.1 = key)) ∘
      Prod.map id Pair.first) = fun x : R.Key × Pair R α => decide (x.1 = key) := rfl
  have hsame' : ((fun entry : R.Key × Nat × Activity R α => decide (entry.1 = key)) ∘
      Prod.map id Pair.second) = fun x : R.Key × Pair R α => decide (x.1 = key) := rfl
  rw [hsame, hsame']
  cases hfind : ps.find? fun x => decide (x.1 = key) with
  | none => exact { h with held := congrArg (·.erase key) h.held, waiting := ⟨ps, rfl, rfl, hps⟩ }
  | some x =>
    obtain ⟨key', p⟩ := x
    have hp : p.InStep I A := hps _ (List.mem_of_find?_eq_some hfind)
    refine { h.pushReady hp with taken := congrArg ((key, p.number) :: ·) h.taken, waiting := ?_ }
    refine ⟨ps.eraseP fun x => decide (x.1 = key), ?_, ?_, ?_⟩
    · exact List.eraseP_map
    · exact List.eraseP_map
    · exact fun x hx => hps x (List.mem_of_mem_eraseP hx)

/-- **While a pair in step has its turn, the schedules stay alike.** -/
theorem Paired.advance {w : R.World} {t u : Activity R α}
    (ht : Activity.InStep I (fun r v => I v ∧ A n r) w t u) (h : Paired I A s s')
    (hw : s.world = w) :
    Paired I A (advance n t s) (advance n u s') ∧ I (advance n t s).world := by
  induction ht generalizing s s' with
  | done ha => exact ⟨h.finish ha.2, hw ▸ ha.1⟩
  | fail he => exact ⟨h.finish he.2, hw ▸ he.1⟩
  | lookLeft _ ih =>
    subst hw
    exact ih h rfl
  | lookRight _ ih =>
    subst hw
    simp only [Schedule.advance, h.world]
    exact ih h rfl
  | @update _ f _ _ _ ih =>
    exact ih { h with world := congrArg f h.world } (congrArg f hw)
  | @report _ r _ _ _ ih => exact ih { h with reported := congrArg (r :: ·) h.reported } hw
  | @pause _ k l hI hgo _ =>
    have hready : Pair.InStep I A ⟨n, k .resume, l .resume⟩ := fun v hv => hgo v hv .resume
    exact ⟨h.pushReady hready, hw ▸ hI⟩
  | @acquire _ key t u hI hgo ih =>
    by_cases hkey : key ∈ s.held
    · have hkey' : key ∈ s'.held := h.held ▸ hkey
      simp only [Schedule.advance, hkey, hkey', if_true]
      exact ⟨h.pushWaiting key (p := ⟨n, t, u⟩) hgo, hw ▸ hI⟩
    · have hkey' : key ∉ s'.held := h.held ▸ hkey
      simp only [Schedule.advance, hkey, hkey', if_false]
      refine ih _ hI { h with held := ?_, taken := ?_ } hw
      · exact congrArg (key :: ·) h.held
      · exact congrArg ((key, n) :: ·) h.taken
  | @release _ key _ _ _ ih =>
    refine ih (h.giveBack key) ?_
    rw [← hw]
    unfold Schedule.giveBack
    split <;> rfl

/-- Alike, with a world of the invariant: so schedules are between two turns. -/
def Alike (I : R.World → Prop) (A : Nat → Except Failure α → Prop) (s s' : Schedule R α) : Prop :=
  Paired I A s s' ∧ I s.world

theorem Alike.turn (h : Alike I A s s') (place : Nat) :
    Alike I A (s.turn place) (s'.turn place) := by
  obtain ⟨ps, hs, hs', hps⟩ := h.1.ready
  unfold Schedule.turn
  rw [hs, hs', List.getElem?_map, List.getElem?_map]
  cases hp : ps[place]? with
  | none => exact h
  | some p =>
    have hstep : p.InStep I A := hps p (List.mem_of_getElem? hp)
    refine Paired.advance (hstep s.world h.2) { h.1 with ready := ?_ } rfl
    refine ⟨ps.eraseIdx place, ?_, ?_, ?_⟩
    · exact List.eraseIdx_map _ _ _
    · exact List.eraseIdx_map _ _ _
    · exact fun q hq => hps q (List.mem_of_mem_eraseIdx hq)

theorem Alike.turns (h : Alike I A s s') (places : List Nat) :
    Alike I A (s.turns places) (s'.turns places) := by
  unfold Schedule.turns
  induction places generalizing s s' with
  | nil => exact h
  | cons place rest ih => exact ih (h.turn place)

/-- **Activities in step, however their turns are mixed with those of others, leave the same world
and end in the same way.** -/
theorem turns_paired {β : Type} {f g : β → Activity R α} {w : R.World} (hw : I w) {xs : List β}
    (hstep : ∀ n x, xs[n]? = some x →
      ∀ v, I v → Activity.InStep I (fun r v => I v ∧ A n r) v (f x) (g x))
    (places : List Nat) :
    Alike I A ((start w (xs.map f)).turns places) ((start w (xs.map g)).turns places) := by
  refine Alike.turns ⟨?_, hw⟩ places
  let pair (x : β × Nat) : Pair R α := ⟨x.2, f x.1, g x.1⟩
  have hready : ∃ ps : List (Pair R α), (start w (xs.map f)).ready = ps.map Pair.first ∧
      (start w (xs.map g)).ready = ps.map Pair.second ∧ ∀ p ∈ ps, p.InStep I A := by
    refine ⟨xs.zipIdx.map pair, ?_, ?_, ?_⟩
    · simp [start, List.zipIdx_map, Function.comp_def, Pair.first, pair]
    · simp [start, List.zipIdx_map, Function.comp_def, Pair.second, pair]
    · intro p hp
      obtain ⟨⟨x, n⟩, hmem, rfl⟩ := List.mem_map.1 hp
      exact hstep n x (List.mk_mem_zipIdx_iff_getElem?.1 hmem)
  exact ⟨rfl, rfl, rfl, rfl, rfl, hready, ⟨[], rfl, rfl, nofun⟩, nofun⟩

end Schedule

end Workflow
