import Workflow.Proofs.Engine.Stakes

/-!
# What calls leave alone

What the rules of an engine uphold for an instance that is finished, or has its lock taken by
another call.

**The snapshot** of a finished instance stays under its id (`stays_change`): only a running instance
is replaced, and nothing new is stored under an id that is taken.

**The context** (`LeftAlone`) stays as it is, if it belongs to this instance alone and no call works
on it: calls work on contexts of running instances whose locks they have, on contexts in their
hands, and on new ones.
-/

namespace Workflow

open Activity

namespace Engine

variable {w w' : EngineState} {lock : Option String} {x : Stake} {n : Nat} {id : String}
  {i : Instance}

/-- The context with the arena `a`, which the instance of an id has, is no other's, and none of the
live calls is to work on it or to give it to another instance. -/
structure LeftAlone (live : Nat → Prop) (id : String) (c : Context) (a : Arena) (g : Nat → Stake)
    (w : EngineState) : Prop where
  arena : w.env.arena c.arena = a
  inside : c.arena < w.env.size
  others : ∀ id', id' ≠ id → ∀ i, w.instances.get? id' = some i → i.ctx.arena ≠ c.arena
  hands : ∀ n, live n → c.arena ∉ (g n).hands
  offers : ∀ n, live n → ∀ id', (id', c.arena) ∈ (g n).offers → id' = id

section LeftAlone

variable {live : Nat → Prop} {c : Context} {a : Arena} {g : Nat → Stake}

theorem Opens.size (h : Opens w w') : w'.env.size = w.env.size + 1 := by
  obtain ⟨a, ha⟩ := h
  show w'.env.contexts.arenas.size = _
  rw [ha, Array.size_push]

theorem Opens.arena (h : Opens w w') (hlt : n < w.env.size) : w'.env.arena n = w.env.arena n := by
  obtain ⟨b, hb⟩ := h
  show w'.env.contexts.arenas.getD n default = w.env.contexts.arenas.getD n default
  rw [hb, Array.getD_eq_getD_getElem?, Array.getD_eq_getD_getElem?, Array.getElem?_push_lt hlt,
    Array.getElem?_eq_getElem hlt]

/-- The other instances are the same, and so is the arena. -/
theorem LeftAlone.same (h : LeftAlone live id c a g w)
    (harena : w'.env.arena c.arena = w.env.arena c.arena) (hsize : w.env.size ≤ w'.env.size)
    (hi : ∀ id', id' ≠ id → ∀ i, w'.instances.get? id' = some i → i.ctx.arena ≠ c.arena) :
    LeftAlone live id c a g w' where
  arena := harena.trans h.arena
  inside := Nat.lt_of_lt_of_le h.inside hsize
  others := hi
  hands := h.hands
  offers := h.offers

/-- When fewer calls are live, the context is left alone by these. -/
theorem LeftAlone.mono {live' : Nat → Prop} (h : LeftAlone live id c a g w)
    (hlive : ∀ n, live' n → live n) : LeftAlone live' id c a g w :=
  { h with
    hands := fun n hn => h.hands n (hlive n hn)
    offers := fun n hn => h.offers n (hlive n hn) }

/-- A call puts its stake in order, and does not reach the arena by it. -/
theorem LeftAlone.put (h : LeftAlone live id c a g w) (hhands : c.arena ∉ x.hands)
    (hoffers : ∀ id', (id', c.arena) ∈ x.offers → id' = id) :
    LeftAlone live id c a (Function.update g n x) w :=
  { h with
    hands := forall_update (P := fun m (y : Stake) => live m → c.arena ∉ y.hands) (fun _ => hhands)
      fun m _ => h.hands m
    offers := forall_update (P := fun m (y : Stake) => live m → ∀ id', (id', c.arena) ∈ y.offers →
      id' = id) (fun _ => hoffers) fun m _ => h.offers m }

/-- The others have other contexts after a snapshot was stored, if it is not of one of them or has
another context as well. -/
theorem LeftAlone.others_insert (h : LeftAlone live id c a g w)
    (hj : id' ≠ id → j.ctx.arena ≠ c.arena) :
    ∀ id₂, id₂ ≠ id → ∀ k, (w.instances.insert id' j).get? id₂ = some k →
      k.ctx.arena ≠ c.arena := by
  intro id₂ hid₂ k hk
  rw [Dict.get?_insert] at hk
  split at hk
  next heq =>
    cases hk
    exact hj (heq ▸ hid₂)
  next => exact h.others id₂ hid₂ k hk

/-- **A context is left alone by all who do not have the lock**, whatever change is made, and by
everybody if the instance is finished. -/
theorem LeftAlone.change
    (hsafe : lock = some id → ∀ i, w.instances.get? id = some i → ¬ i.isRunning)
    (h : LeftAlone live id c a g w) (hn : live n) (hc : Change lock (g n) w x w') :
    LeftAlone live id c a (Function.update g n x) w' := by
  have hothers : SameTables w w' → ∀ id', id' ≠ id → ∀ i, w'.instances.get? id' = some i →
      i.ctx.arena ≠ c.arena := by
    intro hw
    rw [hw.instances]
    exact h.others
  generalize hx : g n = y at hc
  have hhands : c.arena ∉ y.hands := hx ▸ h.hands n hn
  have hoffers : ∀ id', (id', c.arena) ∈ y.offers → id' = id := hx ▸ h.offers n hn
  cases hc with
  | work hw hoff =>
    rw [← hx, Function.update_eq_self]
    refine h.same (hoff.arena _ ?_) (Nat.le_of_eq hoff.size.symm) (hothers hw)
    rintro (hmem | ⟨id', j, hlock, hj, hrunning, harena⟩)
    · exact hhands hmem
    · -- A running instance is another one, and has another context.
      refine h.others id' (fun heq => ?_) j hj harena
      subst heq
      exact hsafe hlock j hj hrunning
  | take hw hopens =>
    have hsize := hopens.size
    refine .put (h.same (hopens.arena h.inside) (by omega) (hothers hw)) ?_ hoffers
    exact List.not_mem_cons_of_ne_of_not_mem (Nat.ne_of_lt h.inside) hhands
  | offer id' hw hopens =>
    have hsize := hopens.size
    refine .put (h.same (hopens.arena h.inside) (by omega) (hothers hw)) hhands ?_
    intro id₂ hid₂
    rcases List.mem_cons.1 hid₂ with heq | hmem
    · exact absurd (congrArg Prod.snd heq) (Nat.ne_of_lt h.inside)
    · exact hoffers id₂ hmem
  | reserve => exact .put (h.same rfl (Nat.le_refl _) h.others) hhands hoffers
  | free => exact .put (h.same rfl (Nat.le_refl _) h.others) hhands hoffers
  | @store _ _ _ id' d j hholder hj =>
    exact .put (h.same rfl (Nat.le_refl _) (h.others_insert fun _ heq => hhands (heq ▸ hj)))
      List.not_mem_nil hoffers
  | @replace _ _ id' k j hvisitor hk hrunning harena =>
    rw [← hx, Function.update_eq_self]
    refine h.same rfl (Nat.le_refl _) (h.others_insert fun hne heq => ?_)
    rcases harena with harena | hoffer
    · exact h.others id' hne k hk (harena.symm.trans heq)
    · exact hne (hoffers id' (heq ▸ hoffer))

/-- **A finished snapshot stays**, whatever change is made. -/
theorem stays_change {w₀ : EngineState} (hclaims : ClaimsOf w₀ g w)
    (hi : w.instances.get? id = some i) (hfinished : ¬ i.isRunning)
    (hc : Change lock (g n) w x w') : w'.instances.get? id = some i := by
  generalize hx : g n = y at hc
  cases hc with
  | work hw | take hw | offer _ hw => exact hw.instances ▸ hi
  | reserve | free => exact hi
  | @store _ _ _ id' d j hholder =>
    have hunstored : id' ∉ w.instances.keys :=
      hclaims.unstored n id' (by rw [hx, hholder]; rfl)
    have hne : id' ≠ id := fun heq => hunstored (Dict.mem_keys.2 ⟨i, heq ▸ hi⟩)
    exact (Dict.get?_insert ..).trans ((if_neg hne).trans hi)
  | @replace _ _ id' k j hvisitor hk hrunning =>
    refine (Dict.get?_insert ..).trans ?_
    split
    next heq =>
      subst heq
      cases hi.symm.trans hk
      rcases hrunning with hrunning | rfl
      · exact absurd hrunning hfinished
      · rfl
    next => exact hi

end LeftAlone

end Engine

end Workflow
