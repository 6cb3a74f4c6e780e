import Workflow.Proofs.Schedule.Ruled

/-!
# Calls that ask for a lock

What becomes of a call from its beginning to the moment at which it gets its lock, while others have
their turns.

**Turns.** Nothing happens at a place where nobody is. An activity that has its turn ends or does
not, and no other one does (`Schedule.finished_turn`).

**Turns of others** (`Schedule.Aside`). An activity that does not have its turn stays where it is,
or is given a lock that it waits for.

**Asking** (`Activity.Asks`). A call looks about once, and then it fails or asks for a lock.

**Waiting** (`Schedule.Waits`). Until it has got the lock, what is left of the call is the call
itself, or what is behind the lock.

Main results: the lock is taken by the call in its own turn (`Schedule.Waits.takes`), or given to it
in the turn of another (`Schedule.Waits.given`).
-/

namespace Workflow

open Activity

variable {R : Realm} {α : Type}

/-- The call looks about once. It fails at once, or it asks for the lock and goes on as `P` says. -/
def Activity.Asks (key : R.Key) (P : Activity R α → Prop) (t : Activity R α) : Prop :=
  ∃ k, t = .look k ∧ ∀ w, (∃ f, k w = .fail f) ∨ ∃ q, k w = .acquire key q ∧ P q

namespace Schedule

variable {s s' s'' : Schedule R α} {n m place : Nat} {t : Activity R α} {key : R.Key}
  {P : Activity R α → Prop} {call : Activity R α}

/-! ## Turns -/

section Turns

variable [DecidableEq R.Key]

/-- A turn at a place where nobody is. -/
theorem turn_of_none (h : s.next? place = none) : s.turn place = s := by
  unfold turn
  rw [Option.map_eq_none_iff.1 h]

/-- A turn of the activity at the place. -/
theorem turn_of_next (h : s.next? place = some n) :
    ∃ t, s.ready[place]? = some (n, t) ∧
      s.turn place = advance n t { s with ready := s.ready.eraseIdx place } := by
  obtain ⟨⟨m, t⟩, hplace, rfl⟩ := Option.map_eq_some_iff.1 h
  refine ⟨t, hplace, ?_⟩
  unfold turn
  rw [hplace]

/-- While an activity has its turn, it ends or it does not. -/
theorem finished_advance (n : Nat) (t : Activity R α) (s : Schedule R α) :
    (advance n t s).finished = s.finished ∨
      ∃ r, (advance n t s).finished = (n, r) :: s.finished := by
  induction t generalizing s with
  | done a => exact .inr ⟨_, rfl⟩
  | fail e => exact .inr ⟨_, rfl⟩
  | look k ih => exact ih s.world s
  | update f next ih => exact ih _
  | report r next ih => exact ih _
  | pause k ih => exact .inl rfl
  | acquire key next ih =>
    unfold advance
    split
    · exact .inl rfl
    · exact ih _
  | release key next ih =>
    rw [← (giveBack_same key s).2.2]
    exact ih _

theorem finished_turn (s : Schedule R α) (hnext : s.next? place = some n) :
    (s.turn place).finished = s.finished ∨ ∃ r, (s.turn place).finished = (n, r) :: s.finished := by
  obtain ⟨t, -, heq⟩ := turn_of_next hnext
  rw [heq]
  exact finished_advance n t _

/-- No activity that has ended is forgotten. -/
theorem finished_subset_turn (place : Nat) (s : Schedule R α) :
    s.finished ⊆ (s.turn place).finished := by
  cases hnext : s.next? place with
  | none => exact (turn_of_none hnext).symm ▸ List.Subset.refl _
  | some n =>
    rcases finished_turn s hnext with heq | ⟨r, heq⟩ <;> rw [heq]
    · exact List.Subset.refl _
    · exact List.subset_cons_self _ _

end Turns

/-! ## Turns of others -/

/-- Activity `n` has no turn between `s` and `s'`; it may get a lock that it waits for. -/
structure Aside (n : Nat) (s s' : Schedule R α) : Prop where
  ready : ∀ t, (n, t) ∈ s'.ready →
    (n, t) ∈ s.ready ∨ ∃ key, (key, n, t) ∈ s.waiting ∧ (key, n) ∈ s'.taken
  stays : ∀ t, (n, t) ∈ s.ready → (n, t) ∈ s'.ready
  waiting : ∀ key t, (key, n, t) ∈ s'.waiting → (key, n, t) ∈ s.waiting
  finished : ∀ r, (n, r) ∈ s'.finished → (n, r) ∈ s.finished
  taken : s.taken ⊆ s'.taken
  granted : ∀ key, (key, n) ∈ s'.taken →
    (key, n) ∈ s.taken ∨ ∃ t, (key, n, t) ∈ s.waiting ∧ (n, t) ∈ s'.ready

theorem Aside.refl (n : Nat) (s : Schedule R α) : Aside n s s :=
  ⟨fun _ h => .inl h, fun _ h => h, fun _ _ h => h, fun _ h => h, List.Subset.refl _,
    fun _ h => .inl h⟩

theorem Aside.trans (h : Aside n s s') (h' : Aside n s' s'') : Aside n s s'' where
  ready t ht := by
    rcases h'.ready t ht with ht | ⟨key, ht, htaken⟩
    · rcases h.ready t ht with ht | ⟨key, ht, htaken⟩
      · exact .inl ht
      · exact .inr ⟨key, ht, h'.taken htaken⟩
    · exact .inr ⟨key, h.waiting key t ht, htaken⟩
  stays t ht := h'.stays t (h.stays t ht)
  waiting key t ht := h.waiting key t (h'.waiting key t ht)
  finished r hr := h.finished r (h'.finished r hr)
  taken := List.Subset.trans h.taken h'.taken
  granted key hkey := by
    rcases h'.granted key hkey with hkey | ⟨t, hwaiting, hready⟩
    · rcases h.granted key hkey with hkey | ⟨t, hwaiting, hready⟩
      · exact .inl hkey
      · exact .inr ⟨t, hwaiting, h'.stays t hready⟩
    · exact .inr ⟨t, h.waiting key t hwaiting, hready⟩

variable [DecidableEq R.Key]

theorem aside_giveBack (n : Nat) (key : R.Key) (s : Schedule R α) :
    Aside n s (s.giveBack key) := by
  rcases s.giveBack_cases key with ⟨-, heq⟩ | ⟨before, m, q, after, hwait, heq⟩ <;> rw [heq]
  · exact { Aside.refl n s with }
  have hmem : (key, m, q) ∈ s.waiting := hwait ▸ List.mem_append_right _ List.mem_cons_self
  refine ⟨fun t ht => ?_, fun t ht => List.mem_append_left _ ht, fun key' t ht => ?_,
    fun _ h => h, List.subset_cons_self _ _, fun key' hkey => ?_⟩
  · rcases List.mem_append.1 ht with ht | ht
    · exact .inl ht
    · cases List.mem_singleton.1 ht
      exact .inr ⟨key, hmem, List.mem_cons_self⟩
  · rw [hwait]
    rcases List.mem_append.1 ht with ht | ht
    · exact List.mem_append_left _ ht
    · exact List.mem_append_right _ (List.mem_cons_of_mem _ ht)
  · rcases List.mem_cons.1 hkey with heq | hkey
    · cases heq
      exact .inr ⟨q, hmem, List.mem_append_right _ List.mem_cons_self⟩
    · exact .inl hkey

theorem aside_advance (hm : m ≠ n) (t : Activity R α) (s : Schedule R α) :
    Aside n s (advance m t s) := by
  have hother : ∀ {A : Type} {a b : A}, (n, a) ≠ (m, b) := fun h => hm (congrArg Prod.fst h).symm
  induction t generalizing s with
  | done a =>
    refine { Aside.refl n s with finished := fun r hr => ?_ }
    exact (List.mem_cons.1 hr).resolve_left hother
  | fail e =>
    refine { Aside.refl n s with finished := fun r hr => ?_ }
    exact (List.mem_cons.1 hr).resolve_left hother
  | look k ih => exact ih s.world s
  | update f next ih => exact { ih { s with world := f s.world } with }
  | report r next ih => exact { ih { s with reported := r :: s.reported } with }
  | pause k ih =>
    refine { Aside.refl n s with
      ready := fun t ht => .inl ?_
      stays := fun t ht => List.mem_append_left _ ht
      granted := fun _ hkey => .inl hkey }
    exact (List.mem_append.1 ht).resolve_right fun h => hother (List.mem_singleton.1 h)
  | acquire key next ih =>
    unfold advance
    split
    · refine { Aside.refl n s with waiting := fun key' t ht => ?_ }
      refine (List.mem_append.1 ht).resolve_right fun h => ?_
      exact hother (congrArg Prod.snd (List.mem_singleton.1 h))
    · refine Aside.trans ?_ (ih _)
      refine { Aside.refl n s with
        ready := fun _ ht => .inl ht
        taken := List.subset_cons_self _ _
        granted := fun key' hkey => .inl ?_ }
      exact (List.mem_cons.1 hkey).resolve_left fun h => hm (congrArg Prod.snd h).symm
  | release key next ih => exact (aside_giveBack n key s).trans (ih _)

/-- No lock is ever untaken. -/
theorem taken_subset_advance (n : Nat) (t : Activity R α) (s : Schedule R α) :
    s.taken ⊆ (advance n t s).taken :=
  (aside_advance (n := n + 1) (Nat.ne_of_lt (Nat.lt_succ_self n)) t s).taken

theorem aside_turn (h : s.next? place ≠ some n) : Aside n s (s.turn place) := by
  cases hnext : s.next? place with
  | none => exact (turn_of_none hnext).symm ▸ .refl n s
  | some m =>
  obtain ⟨t, hplace, heq⟩ := turn_of_next hnext
  rw [heq]
  have hmn : m ≠ n := fun hmn => h (hmn ▸ hnext)
  have herase : Aside n s { s with ready := s.ready.eraseIdx place } :=
    { Aside.refl n s with
      ready := fun _ ht => .inl (List.mem_of_mem_eraseIdx ht)
      stays := fun t' ht' => by
        obtain ⟨j, hj⟩ := List.mem_iff_getElem?.1 ht'
        refine List.mem_eraseIdx_iff_getElem?.2 ⟨j, ?_, hj⟩
        rintro rfl
        cases hplace.symm.trans hj
        exact hmn rfl
      granted := fun _ hkey => .inl hkey }
  exact herase.trans (aside_advance hmn t _)

/-! ## Before the call has its lock -/

theorem mem_takers : n ∈ s.takers key ↔ (key, n) ∈ s.taken := by
  unfold takers
  simp

/-- Activity `n` has got the lock, or what is left of it is the call or waits for the lock. -/
def Waits (key : R.Key) (P : Activity R α → Prop) (call : Activity R α) (n : Nat)
    (s : Schedule R α) : Prop :=
  (key, n) ∈ s.taken ∨ (∀ t, (n, t) ∈ s.ready → t = call) ∧
    ∀ key' q, (key', n, q) ∈ s.waiting → key' = key ∧ P q

theorem Waits.aside (h : Waits key P call n s) (h' : Aside n s s') : Waits key P call n s' := by
  rcases h with htaken | ⟨hready, hwaiting⟩
  · exact .inl (h'.taken htaken)
  · by_cases htaken : (key, n) ∈ s'.taken
    · exact .inl htaken
    · refine .inr ⟨fun t ht => ?_, fun key' q hq => hwaiting key' q (h'.waiting key' q hq)⟩
      rcases h'.ready t ht with ht | ⟨key', ht, htaken'⟩
      · exact hready t ht
      · exact absurd ((hwaiting key' t ht).1 ▸ htaken') htaken

/-- The first turn of the call. -/
theorem turn_asks (hcall : call.Asks key P) (hplace : s.ready[place]? = some (n, call)) :
    (∃ f, s.turn place = { s with
      ready := s.ready.eraseIdx place
      finished := (n, .error f) :: s.finished }) ∨
    ∃ q, P q ∧ (s.turn place = { s with
        ready := s.ready.eraseIdx place
        waiting := s.waiting ++ [(key, n, q)] } ∨
      key ∉ s.held ∧ s.turn place = advance n q { s with
        ready := s.ready.eraseIdx place
        held := key :: s.held
        taken := (key, n) :: s.taken }) := by
  have hturn : s.turn place = advance n call { s with ready := s.ready.eraseIdx place } := by
    unfold turn
    rw [hplace]
  rw [hturn]
  obtain ⟨k, rfl, hk⟩ := hcall
  show (∃ f, advance n (k s.world) _ = _) ∨ _
  rcases hk s.world with ⟨f, hf⟩ | ⟨q, hq, hP⟩
  · exact .inl ⟨f, by rw [hf]; rfl⟩
  · refine .inr ⟨q, hP, ?_⟩
    show advance n (k s.world) _ = _ ∨ _ ∧ advance n (k s.world) _ = _
    rw [hq]
    by_cases hheld : key ∈ s.held
    · exact .inl (if_pos hheld)
    · exact .inr ⟨hheld, if_neg hheld⟩

theorem Waits.turn (hcall : call.Asks key P) (h : Waits key P call n s) (place : Nat) :
    Waits key P call n (s.turn place) := by
  by_cases hn : s.next? place = some n
  · obtain ⟨t, hplace, heq⟩ := turn_of_next hn
    rcases h with htaken | ⟨hready, hwaiting⟩
    · rw [heq]
      exact .inl (taken_subset_advance n t _ htaken)
    -- The call is at its beginning.
    obtain rfl := hready t (List.mem_of_getElem? hplace)
    replace hready : ∀ t', (n, t') ∈ s.ready.eraseIdx place → t' = t :=
      fun t' ht' => hready t' (List.mem_of_mem_eraseIdx ht')
    rcases turn_asks hcall hplace with ⟨f, heq⟩ | ⟨q, hP, heq | ⟨-, heq⟩⟩ <;> rw [heq]
    · exact .inr ⟨hready, hwaiting⟩
    · refine .inr ⟨hready, fun key' q' hq' => ?_⟩
      rcases List.mem_append.1 hq' with hq' | hq'
      · exact hwaiting key' q' hq'
      · cases List.mem_singleton.1 hq'
        exact ⟨rfl, hP⟩
    · exact .inl (taken_subset_advance n q _ List.mem_cons_self)
  · exact h.aside (aside_turn hn)

theorem Waits.turns (hcall : call.Asks key P) (h : Waits key P call n s) (places : List Nat) :
    Waits key P call n (s.turns places) := by
  induction places generalizing s with
  | nil => exact h
  | cons place rest ih => exact ih (h.turn hcall place)

omit [DecidableEq R.Key] in
theorem waits_start {w : R.World} {calls : List (Activity R α)} (hn : calls[n]? = some call) :
    Waits key P call n (Schedule.start w calls) := by
  refine .inr ⟨fun t ht => ?_, nofun⟩
  obtain ⟨⟨t', n'⟩, hmem, heq⟩ := List.mem_map.1 ht
  cases heq
  exact Option.some.inj ((List.mk_mem_zipIdx_iff_getElem?.1 hmem).symm.trans hn)

/-! ## Getting the lock -/

/-- **The call takes the lock** in its own turn, and goes on. -/
theorem Waits.takes (hcall : call.Asks key P) (h : Waits key P call n s)
    (hbefore : (key, n) ∉ s.taken) (hn : s.next? place = some n)
    (hafter : (key, n) ∈ (s.turn place).taken) :
    ∃ q, P q ∧ s.turn place = advance n q { s with
      ready := s.ready.eraseIdx place
      held := key :: s.held
      taken := (key, n) :: s.taken } := by
  obtain ⟨hready, -⟩ := h.resolve_left hbefore
  obtain ⟨t, hplace, -⟩ := turn_of_next hn
  obtain rfl := hready t (List.mem_of_getElem? hplace)
  rcases turn_asks hcall hplace with ⟨f, heq⟩ | ⟨q, hP, heq | ⟨-, heq⟩⟩
  · rw [heq] at hafter
    exact absurd hafter hbefore
  · rw [heq] at hafter
    exact absurd hafter hbefore
  · exact ⟨q, hP, heq⟩

/-- **The call is given the lock** in the turn of another, and is ready to go on. -/
theorem Waits.given (h : Waits key P call n s) (hbefore : (key, n) ∉ s.taken)
    (hother : s.next? place ≠ some n) (hafter : (key, n) ∈ (s.turn place).taken) :
    ∃ q, P q ∧ (key, n, q) ∈ s.waiting ∧ (n, q) ∈ (s.turn place).ready := by
  obtain ⟨-, hwaiting⟩ := h.resolve_left hbefore
  obtain ⟨q, hq, hready⟩ := ((aside_turn hother).granted key hafter).resolve_left hbefore
  exact ⟨q, (hwaiting key q hq).2, hq, hready⟩

end Schedule

end Workflow
