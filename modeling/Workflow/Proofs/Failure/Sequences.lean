import Mathlib.Data.List.Forall2
import Workflow.Failure.Basic

/-!
# Computations in sequence

What the answer or the failure of a computation tells of its parts, where it is two computations one
after the other, or one for each item of a list.
-/

namespace Workflow

variable {α β : Type} {f : Failure}

/-! ## One after the other -/

/-- What two computations one after the other answer is answered by each. -/
theorem ok_of_bind {r : Except Failure α} {g : α → Except Failure β} {b : β}
    (h : r >>= g = .ok b) : ∃ a, r = .ok a ∧ g a = .ok b := by
  cases r with
  | error f => cases h
  | ok a => exact ⟨a, rfl, h⟩

/-- A sequence fails where one of its parts does. -/
theorem error_of_bind {x : Except Failure α} {g : α → Except Failure β}
    (h : (x >>= g) = .error f) : x = .error f ∨ ∃ a, g a = .error f := by
  cases x with
  | error f' =>
    cases h
    exact .inl rfl
  | ok a => exact .inr ⟨a, h⟩

/-! ## One for each item -/

theorem forall₂_of_exists {R : α → β → Prop} (as : List α) (h : ∀ a ∈ as, ∃ b, R a b) :
    ∃ bs, List.Forall₂ R as bs := by
  induction as with
  | nil => exact ⟨[], .nil⟩
  | cons a as ih =>
    obtain ⟨b, hb⟩ := h a List.mem_cons_self
    obtain ⟨bs, hbs⟩ := ih fun a' ha' => h a' (List.mem_cons_of_mem a ha')
    exact ⟨b :: bs, .cons hb hbs⟩

theorem exists_of_forall₂_of_mem {R : α → β → Prop} {as : List α} {bs : List β}
    (h : List.Forall₂ R as bs) {a : α} (ha : a ∈ as) : ∃ b ∈ bs, R a b := by
  induction h with
  | nil => cases ha
  | @cons a' b' as bs hab _ ih =>
    rcases List.mem_cons.1 ha with rfl | ha
    · exact ⟨b', List.mem_cons_self, hab⟩
    · obtain ⟨b, hb, hR⟩ := ih ha
      exact ⟨b, List.mem_cons_of_mem _ hb, hR⟩

section MapM

variable {g : α → Except Failure β} {as : List α} {bs : List β}

theorem mapM_forall₂ (h : as.mapM g = .ok bs) :
    List.Forall₂ (fun a b => g a = .ok b) as bs := by
  induction as generalizing bs with
  | nil =>
    cases h
    exact .nil
  | cons a as ih =>
    rw [List.mapM_cons] at h
    obtain ⟨b, ha, h⟩ := ok_of_bind h
    obtain ⟨rest, has, h⟩ := ok_of_bind h
    cases h
    exact .cons ha (ih has)

/-- A step that gives an answer for each item gives all of them, in order. -/
theorem mapM_of_forall₂ (h : List.Forall₂ (fun a b => g a = .ok b) as bs) :
    as.mapM g = .ok bs := by
  induction h with
  | nil => rfl
  | cons hab _ ih =>
    rw [List.mapM_cons, hab, ih]
    rfl

theorem error_of_mapM (h : as.mapM g = .error f) : ∃ a ∈ as, g a = .error f := by
  induction as with
  | nil => cases h
  | cons a rest ih =>
    rw [List.mapM_cons] at h
    rcases error_of_bind h with ha | ⟨b, h⟩
    · exact ⟨a, List.mem_cons_self, ha⟩
    rcases error_of_bind h with hrest | ⟨bs, h⟩
    · obtain ⟨a', hmem, ha'⟩ := ih hrest
      exact ⟨a', List.mem_cons_of_mem a hmem, ha'⟩
    · cases h

end MapM

end Workflow
