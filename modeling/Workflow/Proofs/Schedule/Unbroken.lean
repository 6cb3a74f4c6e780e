import Workflow.Proofs.Activity.Alone
import Workflow.Proofs.Activity.Amid
import Workflow.Proofs.Schedule.Ruled

/-!
# Work without a break

From a world on, an activity may come to its end without a pause and without asking for a lock
(`Activity.Unbroken`). Then it ends in the turn that it has there, and nobody comes in between.

Main result: `Schedule.advance_unbroken`. Such a turn is a run alone.
-/

namespace Workflow

namespace Activity

variable {R : Realm} {α β : Type}

/-- From a world on, the activity ends without a pause, and asks for no lock. -/
def Unbroken : Activity R α → R.World → Prop
  | .done _, _ | .fail _, _ => True
  | .look k, w => (k w).Unbroken w
  | .update f next, w => next.Unbroken (f w)
  | .report _ next, w => next.Unbroken w
  | .pause _, _ | .acquire _ _, _ => False
  | .release _ next, w => next.Unbroken w

variable {t : Activity R α} {g : α → Activity R β} {w : R.World}

theorem unbroken_ofExcept (r : Except Failure α) (w : R.World) :
    (ofExcept r : Activity R α).Unbroken w := by
  cases r <;> trivial

/-- A sequence is unbroken if its first part is, and the second where the first has left off. -/
theorem Unbroken.bind (ht : t.Unbroken w)
    (hg : ∀ a, (t.run w).answer = .ok a → (g a).Unbroken (t.run w).world) :
    (t.bind g).Unbroken w := by
  induction t generalizing w with
  | done a => exact hg a rfl
  | fail e => trivial
  | look k ih => exact ih w ht hg
  | update f next ih => exact ih ht hg
  | report r next ih => exact ih ht hg
  | pause k ih => exact ht.elim
  | acquire key next ih => exact ht.elim
  | release key next ih => exact ih ht hg

theorem Unbroken.attempt (ht : t.Unbroken w) : t.attempt.Unbroken w := by
  induction t generalizing w with
  | done a => trivial
  | fail e => trivial
  | look k ih => exact ih w ht
  | update f next ih => exact ih ht
  | report r next ih => exact ih ht
  | pause k ih => exact ht
  | acquire key next ih => exact ht
  | release key next ih => exact ih ht

theorem Unbroken.awaited (ht : t.Unbroken w) : t.awaited.Unbroken w :=
  ht.attempt.bind fun _ _ => unbroken_ofExcept _ _

/-- Others do not come in, so there is one ending. -/
theorem Unbroken.endsAmid {others : R.World → R.World → Prop} {r : Except Failure α} {v : R.World}
    (ht : t.Unbroken w) (h : t.EndsAmid others w r v) :
    r = (t.run w).answer ∧ v = (t.run w).world := by
  induction t generalizing w with
  | done a => exact h
  | fail e => exact h
  | look k ih => exact ih w ht h
  | update f next ih => exact ih ht h
  | report r next ih => exact ih ht h
  | pause k ih => exact ht.elim
  | acquire key next ih => exact ht.elim
  | release key next ih => exact ih ht h

theorem Unbroken.lift {S : Realm} {e : Realm.Embedding S R} {u : Activity S α}
    (hget : ∀ s w, e.get (e.put s w) = s) (hu : u.Unbroken (e.get w)) : (u.lift e).Unbroken w := by
  induction u generalizing w with
  | done a => trivial
  | fail e => trivial
  | look k ih => exact ih _ hu
  | update f next ih => exact ih (by rw [hget]; exact hu)
  | report r next ih => exact ih hu
  | pause k ih => exact hu.elim
  | acquire key next ih => exact hu.elim
  | release key next ih => exact ih hu

/-! ## Work that does next to nothing -/

/-- From a world on, the activity ends without a pause, asks for no lock and reports nothing, and
changes the world within a relation. -/
def Tacit (G : R.World → R.World → Prop) : Activity R α → R.World → Prop
  | .done _, _ | .fail _, _ => True
  | .look k, w => (k w).Tacit G w
  | .update f next, w => G w (f w) ∧ next.Tacit G (f w)
  | .report _ _, _ | .pause _, _ | .acquire _ _, _ | .release _ _, _ => False

variable {G : R.World → R.World → Prop}

theorem Tacit.unbroken (ht : t.Tacit G w) : t.Unbroken w := by
  induction t generalizing w with
  | done a => trivial
  | fail e => trivial
  | look k ih => exact ih w ht
  | update f next ih => exact ih ht.2
  | report | pause | acquire | release => exact ht.elim

theorem tacit_ofExcept (r : Except Failure α) (w : R.World) :
    (ofExcept r : Activity R α).Tacit G w := by
  cases r <;> trivial

theorem Tacit.bind (ht : t.Tacit G w)
    (hg : ∀ a, (t.run w).answer = .ok a → (g a).Tacit G (t.run w).world) :
    (t.bind g).Tacit G w := by
  induction t generalizing w with
  | done a => exact hg a rfl
  | fail e => trivial
  | look k ih => exact ih w ht hg
  | update f next ih => exact ⟨ht.1, ih ht.2 hg⟩
  | report | pause | acquire | release => exact ht.elim

theorem Tacit.attempt (ht : t.Tacit G w) : t.attempt.Tacit G w := by
  induction t generalizing w with
  | done a => trivial
  | fail e => trivial
  | look k ih => exact ih w ht
  | update f next ih => exact ⟨ht.1, ih ht.2⟩
  | report | pause | acquire | release => exact ht.elim

/-- From a world on, the activity does next to nothing and fails. -/
structure Stops (G : R.World → R.World → Prop) (f : Failure) (t : Activity R α) (w : R.World) :
    Prop where
  tacit : t.Tacit G w
  answer : (t.run w).answer = .error f

variable {f : Failure}

theorem Stops.bind (ht : Stops G f t w) : Stops G f (t.bind g) w where
  tacit := ht.tacit.bind fun a ha => nomatch ht.answer.symm.trans ha
  answer := by rw [run_bind_of_error ht.answer]

/-- After work that does next to nothing and gives an answer. -/
theorem Tacit.stops {a : α} (ht : t.Tacit G w) (ha : (t.run w).answer = .ok a)
    (hg : Stops G f (g a) (t.run w).world) : Stops G f (t.bind g) w where
  tacit := ht.bind fun a' ha' => Except.ok.inj (ha.symm.trans ha') ▸ hg.tacit
  answer := by
    rw [run_bind_of_ok ha]
    exact hg.answer

/-- What comes after the failure. -/
theorem Stops.attempt {f' : Failure} {g : Except Failure α → Activity R β} (ht : Stops G f t w)
    (hg : Stops G f' (g (.error f)) (t.run w).world) : Stops G f' (t.attempt.bind g) w := by
  have hattempt : (t.attempt.run w).answer = .ok (.error f) := by
    rw [run_attempt, ht.answer]
  refine ht.tacit.attempt.stops hattempt ?_
  rw [run_attempt]
  exact hg

theorem Stops.endsAmid {others : R.World → R.World → Prop} {r : Except Failure α} {v : R.World}
    (ht : Stops G f t w) (h : t.EndsAmid others w r v) : r = .error f ∧ v = (t.run w).world := by
  obtain ⟨hr, hv⟩ := ht.tacit.unbroken.endsAmid h
  exact ⟨hr.trans ht.answer, hv⟩

end Activity

namespace Schedule

variable {R : Realm} {α : Type} [DecidableEq R.Key] {t : Activity R α} {s : Schedule R α}

/-- **A turn without a break is a run alone.** -/
theorem advance_unbroken (n : Nat) (h : t.Unbroken s.world) :
    (advance n t s).world = (t.run s.world).world ∧
      (advance n t s).reported = (t.run s.world).reports.reverse ++ s.reported ∧
      (advance n t s).finished = (n, (t.run s.world).answer) :: s.finished := by
  induction t generalizing s with
  | done a => exact ⟨rfl, rfl, rfl⟩
  | fail e => exact ⟨rfl, rfl, rfl⟩
  | look k ih => exact ih s.world h
  | update f next ih => exact ih (s := { s with world := f s.world }) h
  | report r next ih =>
    obtain ⟨hworld, hreported, hfinished⟩ := ih (s := { s with reported := r :: s.reported }) h
    refine ⟨hworld, hreported.trans ?_, hfinished⟩
    simp only [Activity.run, List.reverse_cons, List.append_assoc, List.singleton_append]
  | pause k ih => exact h.elim
  | acquire key next ih => exact h.elim
  | release key next ih =>
    obtain ⟨hworld, hreported, hfinished⟩ := giveBack_same key s
    have hnext := ih (s := s.giveBack key) (by rw [hworld]; exact h)
    rw [hworld, hreported, hfinished] at hnext
    exact hnext

end Schedule

end Workflow
