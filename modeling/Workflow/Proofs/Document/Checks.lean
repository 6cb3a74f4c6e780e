import Workflow.Proofs.Failure.Sequences

/-!
# Checks and their problems

A computation that may fail is told by what it checks (`Checks`): when it has an answer, and, on
data of the right shape, which failure comes first of all that there are.

Checks one after the other (`Checks.bind`), or over a list (`Checks.mapM`), have the problems of
their parts one after the other. So what a whole reader reports is read off a list.
-/

namespace Workflow

variable {α β : Type} {r : Except Failure α} {good good' shaped shaped' : Prop}
  {problems problems' : List Failure}

/-- A computation has an answer exactly if all is good; on data of the right shape it fails with the
first of the problems, if there are any. -/
structure Checks (r : Except Failure α) (good shaped : Prop) (problems : List Failure) : Prop where
  ok : (∃ a, r = .ok a) ↔ good
  first : shaped → ∀ f, r = .error f ↔ problems.head? = some f

namespace Checks

theorem done (a : α) : Checks (.ok a) True shaped [] :=
  ⟨⟨fun _ => trivial, fun _ => ⟨a, rfl⟩⟩, fun _ _ => ⟨nofun, nofun⟩⟩

theorem fail (f : Failure) : Checks (.error f : Except Failure α) False shaped [f] :=
  ⟨⟨nofun, nofun⟩, fun _ f' => by simp⟩

/-- On data of another shape it does not matter which failure it is. -/
theorem misshapen (f : Failure) : Checks (.error f : Except Failure α) False False problems :=
  ⟨⟨nofun, nofun⟩, nofun⟩

theorem congr (h : Checks r good shaped problems) (hgood : good ↔ good')
    (hshaped : shaped' → shaped) (hproblems : shaped' → problems.head? = problems'.head?) :
    Checks r good' shaped' problems' :=
  ⟨h.ok.trans hgood, fun hs f => hproblems hs ▸ h.first (hshaped hs) f⟩

/-- **Of two checks the problems of the first come first.** -/
theorem bind {g : α → Except Failure β} (h : Checks r good shaped problems)
    (hg : ∀ a, r = .ok a → Checks (g a) good' shaped' problems') :
    Checks (r >>= g) (good ∧ good') (shaped ∧ shaped') (problems ++ problems') := by
  cases r with
  | error f =>
    have hgood : ¬ good := fun hgood => nomatch h.ok.2 hgood
    refine ⟨⟨nofun, fun hboth => absurd hboth.1 hgood⟩, fun hs f' => ?_⟩
    have hhead := (h.first hs.1 f).1 rfl
    rw [List.head?_append, hhead]
    exact ⟨fun heq => by cases heq; rfl, fun heq => by cases heq; rfl⟩
  | ok a =>
    have hgood : good := h.ok.1 ⟨a, rfl⟩
    refine ⟨(hg a rfl).ok.trans ⟨fun h' => ⟨hgood, h'⟩, And.right⟩, fun hs f => ?_⟩
    have hnone : problems.head? = none := by
      cases hhead : problems.head? with
      | none => rfl
      | some f' => cases (h.first hs.1 f').2 hhead
    rw [List.head?_append, hnone]
    exact (hg a rfl).first hs.2 f

/-- Nothing is checked any more. -/
theorem andThen {g : α → Except Failure β} (h : Checks r good shaped problems)
    (hg : ∀ a, ∃ b, g a = .ok b) : Checks (r >>= g) good shaped problems := by
  have hdone : ∀ a, r = .ok a → Checks (g a) True True [] := fun a _ => by
    obtain ⟨b, hb⟩ := hg a
    rw [hb]
    exact .done b
  exact (h.bind hdone).congr (iff_of_eq (and_true _)) (fun hs => ⟨hs, trivial⟩) fun _ => by
    rw [List.append_nil]

/-- **The checks of the items of a list**, one after the other. -/
theorem mapM {f : α → Except Failure β} {good shaped : α → Prop} {problems : α → List Failure}
    {as : List α} (h : ∀ a ∈ as, Checks (f a) (good a) (shaped a) (problems a)) :
    Checks (as.mapM f) (∀ a ∈ as, good a) (∀ a ∈ as, shaped a) (as.flatMap problems) := by
  induction as with
  | nil => exact (done []).congr (by simp) (fun _ => trivial) fun _ => rfl
  | cons a as ih =>
    rw [List.forall_mem_cons] at h
    rw [List.mapM_cons]
    have hcons := h.1.bind (g := fun b => as.mapM f >>= fun bs => pure (b :: bs))
      fun b _ => (ih h.2).andThen fun bs => ⟨b :: bs, rfl⟩
    exact hcons.congr List.forall_mem_cons.symm List.forall_mem_cons.1 fun _ => rfl

end Checks

end Workflow
