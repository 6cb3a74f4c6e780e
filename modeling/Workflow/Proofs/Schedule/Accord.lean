import Workflow.Proofs.Schedule.Ruled

/-!
# Activities in accord

Activities that take turns can agree on a fact (`Accord`) that holds whenever a turn is over. Within
a turn it may fail to hold.

**Stakes.** Each activity has a stake, which says what it has at the moment; no activity sees the
stakes. The fact is about all stakes, the world, and everything that has been reported. One with a
stake may keep a lock while others have their turns.

**Following** (`Activity.Follows`). Wherever an activity lets others in, the fact holds with one of
its stakes, a live one. When it goes on, the fact holds again, its stake is the same, and nobody
else has its lock; that is all it can rely on.

**Pacts** (`Pact`). Calls that each follow the accord, with their first stakes and with what is
agreed on their endings.

Main results: `Pact.turns`, that the fact holds after every turn however turns are mixed, and
`Kept.ended`, that such calls do not wait for each other for ever.
-/

namespace Workflow

open Activity

variable {R : Realm} {α β : Type}

/-- What activities agree on. -/
structure Accord (R : Realm) where
  Stake : Type
  /-- The lock that one with the stake keeps while others have their turns. -/
  lock : Stake → Option R.Key
  /-- One with the stake may go on after others have had their turns. -/
  live : Stake → Prop
  /-- What holds whenever a turn is over; the latest report comes first. -/
  fact : (Nat → Stake) → R.World → List R.Report → Prop
  /-- How pauses may go on. -/
  signals : Signal → Prop
  resumes : signals .resume

/-- A moment in the turn of an activity: the stakes of the others, the lock that it has, the world,
and the reports so far. -/
structure Moment (A : Accord R) where
  stakes : Nat → A.Stake
  lock : Option R.Key
  world : R.World
  log : List R.Report

namespace Moment

variable {A : Accord R} {n : Nat} {x : A.Stake}

/-- With a stake of activity `n` the fact holds, and nobody else has its lock. -/
structure Fits (n : Nat) (x : A.Stake) (m : Moment A) : Prop where
  fact : A.fact (Function.update m.stakes n x) m.world m.log
  sole : ∀ key, m.lock = some key → ∀ i, i ≠ n → A.lock (m.stakes i) ≠ some key

/-- With its stake activity `n` may let others in. -/
structure Rests (n : Nat) (x : A.Stake) (m : Moment A) : Prop extends Fits n x m where
  keeps : A.lock x = m.lock
  live : A.live x

/-- Activity `n` ends here without a lock, and with a stake that is agreed on. -/
def Ends (n : Nat) (agreed : A.Stake → Except Failure α → Prop) (m : Moment A)
    (r : Except Failure α) : Prop :=
  m.lock = none ∧ ∃ x, m.Fits n x ∧ A.lock x = none ∧ agreed x r

end Moment

namespace Activity

/-- From a moment on, activity `n` follows the accord, and ends with `Q`. -/
def Follows (A : Accord R) (n : Nat) (Q : Moment A → Except Failure α → Prop) :
    Moment A → Activity R α → Prop
  | m, .done a => Q m (.ok a)
  | m, .fail e => Q m (.error e)
  | m, .look k => (k m.world).Follows A n Q m
  | m, .update f next => next.Follows A n Q { m with world := f m.world }
  | m, .report r next => next.Follows A n Q { m with log := r :: m.log }
  | m, .pause k => ∃ x, m.Rests n x ∧ ∀ m' : Moment A, m'.lock = m.lock → m'.Fits n x →
      ∀ signal, A.signals signal → (k signal).Follows A n Q m'
  | m, .acquire key next => m.lock = none ∧ ∃ x, m.Rests n x ∧
      ∀ m' : Moment A, m'.lock = some key → m'.Fits n x → next.Follows A n Q m'
  | m, .release key next => m.lock = some key ∧ next.Follows A n Q { m with lock := none }

section Follows

variable {A : Accord R} {n : Nat} {m : Moment A} {t : Activity R α}
  {P : Moment A → Except Failure α → Prop} {Q : Moment A → Except Failure β → Prop}

/-- What comes after an answer or a failure. -/
theorem Follows.attempt {g : Except Failure α → Activity R β} (ht : t.Follows A n P m)
    (hg : ∀ m r, P m r → (g r).Follows A n Q m) : (t.attempt.bind g).Follows A n Q m := by
  induction t generalizing m with
  | done a => exact hg _ _ ht
  | fail e => exact hg _ _ ht
  | look k ih => exact ih m.world ht
  | update f next ih => exact ih ht
  | report r next ih => exact ih ht
  | pause k ih =>
    obtain ⟨x, hx, hk⟩ := ht
    exact ⟨x, hx, fun m' hlock hm' s hs => ih s (hk m' hlock hm' s hs)⟩
  | acquire key next ih =>
    obtain ⟨hlock, x, hx, hnext⟩ := ht
    exact ⟨hlock, x, hx, fun m' hkey hm' => ih (hnext m' hkey hm')⟩
  | release key next ih => exact ⟨ht.1, ih ht.2⟩

/-- **Parts that follow an accord make sequences that follow it.** -/
theorem Follows.bind {g : α → Activity R β} (ht : t.Follows A n P m)
    (hok : ∀ m a, P m (.ok a) → (g a).Follows A n Q m)
    (herror : ∀ m e, P m (.error e) → Q m (.error e)) : (t.bind g).Follows A n Q m := by
  induction t generalizing m with
  | done a => exact hok _ _ ht
  | fail e => exact herror _ _ ht
  | look k ih => exact ih m.world ht
  | update f next ih => exact ih ht
  | report r next ih => exact ih ht
  | pause k ih =>
    obtain ⟨x, hx, hk⟩ := ht
    exact ⟨x, hx, fun m' hlock hm' s hs => ih s (hk m' hlock hm' s hs)⟩
  | acquire key next ih =>
    obtain ⟨hlock, x, hx, hnext⟩ := ht
    exact ⟨hlock, x, hx, fun m' hkey hm' => ih (hnext m' hkey hm')⟩
  | release key next ih => exact ⟨ht.1, ih ht.2⟩

theorem Follows.mono {P' : Moment A → Except Failure α → Prop} (ht : t.Follows A n P m)
    (h : ∀ m r, P m r → P' m r) : t.Follows A n P' m := by
  have hbind : (t.bind .done).Follows A n P' m := ht.bind (fun m a => h m _) fun m e => h m _
  rwa [bind_done] at hbind

/-- It ends in one of its ways. -/
theorem Follows.canEnd (ht : t.Follows A n P m) :
    t.Follows A n (fun m r => P m r ∧ t.CanEnd r) m := by
  induction t generalizing m with
  | done a => exact ⟨ht, rfl⟩
  | fail e => exact ⟨ht, rfl⟩
  | look k ih => exact Follows.mono (ih m.world ht) fun m' r h => ⟨h.1, _, h.2⟩
  | update f next ih => exact ih ht
  | report r next ih => exact ih ht
  | pause k ih =>
    obtain ⟨x, hx, hk⟩ := ht
    refine ⟨x, hx, fun m' hlock hm' s hs => ?_⟩
    exact Follows.mono (ih s (hk m' hlock hm' s hs)) fun m' r h => ⟨h.1, _, h.2⟩
  | acquire key next ih =>
    obtain ⟨hlock, x, hx, hnext⟩ := ht
    exact ⟨hlock, x, hx, fun m' hkey hm' => ih (hnext m' hkey hm')⟩
  | release key next ih => exact ⟨ht.1, ih ht.2⟩

theorem Follows.ofExcept {r : Except Failure α} (h : P m r) : (ofExcept r).Follows A n P m := by
  cases r <;> exact h

theorem Follows.contained {P' : Moment A → Except Failure (Except Failure α) → Prop}
    (ht : t.Follows A n P m) (hok : ∀ m a, P m (.ok a) → P' m (.ok (.ok a)))
    (herror : ∀ m e, P m (.error e) → P' m (if e.isContained then .ok (.error e) else .error e)) :
    t.contained.Follows A n P' m := by
  refine ht.attempt fun m r hr => ?_
  cases r with
  | ok a => exact hok m a hr
  | error e =>
    have he := herror m e hr
    dsimp only
    split
    next hcontained => rwa [if_pos hcontained] at he
    next hcontained => rwa [if_neg hcontained] at he

/-- Work under a lock, from every moment at which the lock can be got. -/
theorem Follows.locked {key : R.Key} {x : A.Stake} {P' : Moment A → Except Failure α → Prop}
    (hnone : m.lock = none) (hx : m.Rests n x)
    (ht : ∀ m' : Moment A, m'.lock = some key → m'.Fits n x → t.Follows A n P m')
    (hP : ∀ m r, P m r → m.lock = some key ∧ P' { m with lock := none } r) :
    (Activity.locked key t).Follows A n P' m := by
  refine ⟨hnone, x, hx, fun m' hlock hm' => (ht m' hlock hm').attempt fun m r hr => ?_⟩
  obtain ⟨hkey, hr⟩ := hP m r hr
  exact ⟨hkey, .ofExcept hr⟩

/-- Cancelled where it first pauses, the activity still follows the accord. -/
theorem Follows.cancelledAtPause (hcancel : A.signals .cancel) (ht : t.Follows A n P m) :
    t.cancelledAtPause.Follows A n P m := by
  induction t generalizing m with
  | done a => exact ht
  | fail e => exact ht
  | look k ih => exact ih m.world ht
  | update f next ih => exact ih ht
  | report r next ih => exact ih ht
  | pause k ih =>
    obtain ⟨x, hx, hk⟩ := ht
    exact hk m rfl hx.toFits .cancel hcancel
  | acquire key next ih =>
    obtain ⟨hlock, x, hx, hnext⟩ := ht
    exact ⟨hlock, x, hx, fun m' hkey hm' => ih (hnext m' hkey hm')⟩
  | release key next ih => exact ⟨ht.1, ih ht.2⟩

end Follows

end Activity

/-! ## Pacts -/

/-- Calls that follow an accord, with their first stakes, and with what is agreed on their
endings. -/
structure Pact (A : Accord R) (α : Type) where
  calls : List (Activity R α)
  stake : Nat → A.Stake
  agreed : Nat → A.Stake → Except Failure α → Prop
  unlocked : ∀ n, A.lock (stake n) = none
  live : ∀ n, A.live (stake n)
  follows : ∀ {n t}, calls[n]? = some t → ∀ m : Moment A, m.lock = none → m.Fits n (stake n) →
    t.Follows A n (Moment.Ends n (agreed n)) m

namespace Pact

variable {A : Accord R}

/-- Activity `n` can go on with a lock from every moment that fits its stake. -/
def GoesOn (p : Pact A α) (g : Nat → A.Stake) (n : Nat) (lock : Option R.Key)
    (t : Activity R α) : Prop :=
  A.live (g n) ∧
    ∀ m : Moment A, m.lock = lock → m.Fits n (g n) → t.Follows A n (Moment.Ends n (p.agreed n)) m

/-- The schedule is as the pact wants it, with these stakes and these owners of the locks, where the
activities of `out` have their turn. -/
structure Kept (p : Pact A α) (g : Nat → A.Stake) (owner : R.Key → Option Nat) (out : List Nat)
    (s : Schedule R α) : Prop where
  numbers : (out ++ s.numbers).Perm (List.range p.calls.length)
  ready : ∀ x ∈ s.ready, ∃ lock, Owns owner x.1 lock ∧ p.GoesOn g x.1 lock x.2
  waiting : ∀ x ∈ s.waiting, x.1 ∈ s.held ∧ Owns owner x.2.1 none ∧
    p.GoesOn g x.2.1 (some x.1) x.2.2
  finished : ∀ x ∈ s.finished, p.agreed x.1 (g x.1) x.2 ∧ Owns owner x.1 none
  held : ∀ key, key ∈ s.held ↔ (owner key).isSome
  nodup : s.held.Nodup
  owned : ∀ key n, owner key = some n → n < p.calls.length
  locks : ∀ n, n ∉ out → ∀ key, A.lock (g n) = some key → owner key = some n
  absent : ∀ n, p.calls.length ≤ n → g n = p.stake n

variable {p : Pact A α} {g : Nat → A.Stake} {owner : R.Key → Option Nat} {out : List Nat}
  {s : Schedule R α} {n i : Nat} {x : A.Stake} {lock : Option R.Key} {key : R.Key}
  {t : Activity R α} {r : Except Failure α}

namespace Kept

theorem nodup_numbers (h : p.Kept g owner out s) : (out ++ s.numbers).Nodup :=
  h.numbers.nodup_iff.2 List.nodup_range

/-- An activity that has its turn is in no other place. -/
theorem not_mem_out (h : p.Kept g owner out s) (hi : i ∈ s.numbers) : i ∉ out :=
  fun hout => (List.nodup_append.1 h.nodup_numbers).2.2 i hout i hi rfl

theorem lt_length (h : p.Kept g owner out s) (hn : n ∈ out ++ s.numbers) : n < p.calls.length :=
  List.mem_range.1 (h.numbers.mem_iff.1 hn)

/-- What is said of activities stays true if the stakes and the owners change only for those that
have their turn. -/
theorem others {g' : Nat → A.Stake} {owner' : R.Key → Option Nat} (h : p.Kept g owner out s)
    (hg : ∀ i ∉ out, g' i = g i)
    (howner : ∀ i ∉ out, ∀ lock, Owns owner i lock → Owns owner' i lock) :
    (∀ x ∈ s.ready, ∃ lock, Owns owner' x.1 lock ∧ p.GoesOn g' x.1 lock x.2) ∧
    (∀ x ∈ s.waiting, x.1 ∈ s.held ∧ Owns owner' x.2.1 none ∧
      p.GoesOn g' x.2.1 (some x.1) x.2.2) ∧
    ∀ x ∈ s.finished, p.agreed x.1 (g' x.1) x.2 ∧ Owns owner' x.1 none := by
  refine ⟨fun x hx => ?_, fun x hx => ?_, fun x hx => ?_⟩
  · have hout := h.not_mem_out (Schedule.mem_numbers_of_ready hx)
    obtain ⟨lock, hlock, hgo⟩ := h.ready x hx
    refine ⟨lock, howner _ hout _ hlock, ?_⟩
    unfold GoesOn
    rw [hg _ hout]
    exact hgo
  · have hout := h.not_mem_out (Schedule.mem_numbers_of_waiting hx)
    obtain ⟨hheld, hlock, hgo⟩ := h.waiting x hx
    refine ⟨hheld, howner _ hout _ hlock, ?_⟩
    unfold GoesOn
    rw [hg _ hout]
    exact hgo
  · have hout := h.not_mem_out (Schedule.mem_numbers_of_finished hx)
    obtain ⟨hagreed, hlock⟩ := h.finished x hx
    rw [hg _ hout]
    exact ⟨hagreed, howner _ hout _ hlock⟩

/-! ## One step -/

theorem finish (h : p.Kept g owner (n :: out) s) (hlock : Owns owner n none)
    (hx : A.lock (g n) = none) (hr : p.agreed n (g n) r) :
    p.Kept g owner out { s with finished := (n, r) :: s.finished } :=
  { h with
    numbers := (Schedule.numbers_finish out n r s).trans h.numbers
    finished := List.forall_mem_cons.2 ⟨⟨hr, hlock⟩, h.finished⟩
    locks := fun i hi key hkey => by
      by_cases hin : i = n
      · subst hin
        rw [hx] at hkey
        cases hkey
      · exact h.locks i (by simp [hin, hi]) key hkey }

theorem park (h : p.Kept g owner (n :: out) s) (hlock : Owns owner n lock)
    (hx : A.lock (g n) = lock ∨ A.lock (g n) = none) (ht : p.GoesOn g n lock t) :
    p.Kept g owner out { s with ready := s.ready ++ [(n, t)] } :=
  { h with
    numbers := (Schedule.numbers_park out n t s).trans h.numbers
    ready := fun x hx => by
      rcases List.mem_append.1 hx with hx | hx
      · exact h.ready x hx
      · cases List.mem_singleton.1 hx
        exact ⟨lock, hlock, ht⟩
    locks := fun i hi key hkey => by
      by_cases hin : i = n
      · subst hin
        rcases hx with hx | hx
        · exact (hlock key).2 (hx ▸ hkey)
        · rw [hx] at hkey
          cases hkey
      · exact h.locks i (by simp [hin, hi]) key hkey }

theorem wait (h : p.Kept g owner (n :: out) s) (hheld : key ∈ s.held)
    (hlock : Owns owner n none) (hx : A.lock (g n) = none) (ht : p.GoesOn g n (some key) t) :
    p.Kept g owner out { s with waiting := s.waiting ++ [(key, n, t)] } :=
  { h with
    numbers := (Schedule.numbers_wait out key n t s).trans h.numbers
    waiting := fun x hx => by
      rcases List.mem_append.1 hx with hx | hx
      · exact h.waiting x hx
      · cases List.mem_singleton.1 hx
        exact ⟨hheld, hlock, ht⟩
    locks := fun i hi key hkey => by
      by_cases hin : i = n
      · subst hin
        rw [hx] at hkey
        cases hkey
      · exact h.locks i (by simp [hin, hi]) key hkey }

/-- One that waits is called up. -/
theorem callUp {before after : List (R.Key × Nat × Activity R α)} (h : p.Kept g owner out s)
    (hwait : s.waiting = before ++ (key, i, t) :: after) :
    p.Kept g owner (i :: out) { s with waiting := before ++ after } :=
  { h with
    numbers := (Schedule.numbers_callUp out hwait).trans h.numbers
    waiting := fun x hx => by
      refine h.waiting x ?_
      rw [hwait]
      rcases List.mem_append.1 hx with hx | hx
      · exact List.mem_append_left _ hx
      · exact List.mem_append_right _ (List.mem_cons_of_mem _ hx)
    locks := fun j hj => h.locks j fun hout => hj (List.mem_cons_of_mem _ hout) }

/-- An activity that has its turn gets another stake. -/
theorem update (h : p.Kept g owner [n] s) (x : A.Stake) :
    p.Kept (Function.update g n x) owner [n] s := by
  have hsame : ∀ i, i ∉ [n] → Function.update g n x i = g i := fun i hi =>
    Function.update_of_ne (List.ne_of_not_mem_cons hi) _ _
  obtain ⟨hready, hwaiting, hfinished⟩ := h.others hsame fun _ _ _ hi => hi
  exact { h with
    ready := hready
    waiting := hwaiting
    finished := hfinished
    locks := fun i hi key hkey => h.locks i hi key (hsame i hi ▸ hkey)
    absent := fun i hi => by
      have hlt : n < p.calls.length := h.lt_length List.mem_cons_self
      exact (Function.update_of_ne (by omega) _ _).trans (h.absent i hi) }

/-- From a moment that fits it, an activity without a lock can only be overtaken where the others
have theirs. -/
theorem fits (h : p.Kept g owner out s) (hlock : Owns owner n lock)
    (hout : ∀ i ∈ out, i = n) (hfact : A.fact (Function.update g n x) s.world s.reported) :
    Moment.Fits n x ⟨g, lock, s.world, s.reported⟩ := by
  refine ⟨hfact, fun key hkey i hi hkeeps => hi ?_⟩
  have howner := h.locks i (fun hin => hi (hout i hin)) key hkeeps
  exact Option.some.inj (howner.symm.trans ((hlock key).2 hkey))

variable [DecidableEq R.Key]

/-- A lock goes from an activity that has its turn, or from nobody, to another one or to nobody. -/
theorem pass (h : p.Kept g owner out s) (held : List R.Key) (next : Option Nat)
    (hfrom : ∀ i, owner key = some i → i ∈ out) (hto : ∀ i, next = some i → i ∈ out)
    (hheld : ∀ key', key' ∈ held ↔ (key' = key ∧ next.isSome) ∨ (key' ≠ key ∧ key' ∈ s.held))
    (hnodup : held.Nodup) (hwait : ∀ x ∈ s.waiting, x.1 = key → next.isSome) :
    p.Kept g (Function.update owner key next) out { s with held } := by
  have hsame : ∀ i ∉ out, ∀ lock, Owns owner i lock →
      Owns (Function.update owner key next) i lock := fun i hi lock hlock =>
    hlock.other (fun ho => hi (hfrom i ho)) fun ho => hi (hto i ho)
  obtain ⟨hready, hwaiting, hfinished⟩ := h.others (fun _ _ => rfl) hsame
  exact { h with
    ready := hready
    waiting := fun x hx => by
      refine ⟨(hheld x.1).2 ?_, (hwaiting x hx).2⟩
      by_cases hkey : x.1 = key
      · exact .inl ⟨hkey, hwait x hx hkey⟩
      · exact .inr ⟨hkey, (hwaiting x hx).1⟩
    finished := hfinished
    held := fun key' => by
      rw [hheld]
      by_cases hkey : key' = key
      · subst hkey
        simp
      · simp [hkey, h.held]
    nodup := hnodup
    owned := fun key' i hi => by
      by_cases hkey : key' = key
      · subst hkey
        rw [Function.update_self] at hi
        exact h.lt_length (List.mem_append_left _ (hto i hi))
      · rw [Function.update_of_ne hkey] at hi
        exact h.owned key' i hi
    locks := fun i hi key' hkeeps => by
      have howner := h.locks i hi key' hkeeps
      by_cases hkey : key' = key
      · subst hkey
        exact absurd (hfrom i howner) hi
      · rw [Function.update_of_ne hkey]
        exact howner }

/-- A lock that is free is taken. -/
theorem take (h : p.Kept g owner [n] s) (hheld : key ∉ s.held) :
    p.Kept g (Function.update owner key (some n)) [n]
      { s with held := key :: s.held, taken := (key, n) :: s.taken } := by
  have hpass := h.pass (key :: s.held) (some n)
    (fun i hi => absurd ((h.held key).2 (hi ▸ rfl)) hheld)
    (fun i hi => Option.some.inj hi ▸ List.mem_cons_self)
    (fun key' => by by_cases hkey : key' = key <;> simp [hkey])
    (List.nodup_cons.2 ⟨hheld, h.nodup⟩) fun _ _ _ => rfl
  exact { hpass with }

/-- **A lock is given back.** It is free then, or another one has it. -/
theorem giveBack (h : p.Kept g owner [n] s) (hlock : Owns owner n (some key)) :
    ∃ next ≠ some n, p.Kept g (Function.update owner key next) [n] (s.giveBack key) := by
  have howner : owner key = some n := (hlock key).2 rfl
  rcases s.giveBack_cases key with ⟨hnobody, heq⟩ | ⟨before, i, t, after, hwait, heq⟩ <;> rw [heq]
  · refine ⟨none, nofun, h.pass (s.held.erase key) none (fun i hi => ?_) nofun (fun key' => ?_)
      (h.nodup.erase key) ?_⟩
    · exact Option.some.inj (howner.symm.trans hi) ▸ List.mem_cons_self
    · rw [h.nodup.mem_erase_iff]
      by_cases hkey : key' = key <;> simp [hkey]
    · exact fun x hx hkey => absurd hkey (hnobody x hx)
  · -- The first that waits is called up, gets the lock and goes to the ready ones.
    have hmem : (key, i, t) ∈ s.waiting := hwait ▸ List.mem_append_right _ List.mem_cons_self
    obtain ⟨hheld, hnone, hgo⟩ := h.waiting _ hmem
    have hin : i ∉ [n] := h.not_mem_out (Schedule.mem_numbers_of_waiting hmem)
    have hpass := (h.callUp hwait).pass s.held (some i)
      (fun a ha => List.mem_cons_of_mem _ <|
        List.mem_singleton.2 (Option.some.inj (howner.symm.trans ha)).symm)
      (fun a ha => Option.some.inj ha ▸ List.mem_cons_self)
      (fun key' => by by_cases hkey : key' = key <;> simp [hkey, hheld])
      h.nodup fun _ _ _ => rfl
    have hkeeps : A.lock (g i) = none := by
      cases hi : A.lock (g i) with
      | none => rfl
      | some key' => exact absurd ((hnone key').1 (h.locks i hin key' hi)) nofun
    refine ⟨some i, fun heq => List.ne_of_not_mem_cons hin (Option.some.inj heq), ?_⟩
    have hpark := hpass.park hnone.got (.inr hkeeps) hgo
    exact { hpark with }

end Kept

/-- The calls before their first turns. -/
theorem kept_start (p : Pact A α) (w : R.World) :
    p.Kept p.stake (fun _ => none) [] (Schedule.start w p.calls) where
  numbers := by
    simp [Schedule.numbers, Schedule.start, List.map_map, Function.comp_def, List.zipIdx_map_snd,
      List.range_eq_range']
  ready x hx := by
    obtain ⟨⟨t, n⟩, hmem, rfl⟩ := List.mem_map.1 hx
    exact ⟨none, fun key => by simp, p.live n,
      p.follows (List.mk_mem_zipIdx_iff_getElem?.1 hmem)⟩
  waiting := nofun
  finished := nofun
  held key := by simp [Schedule.start]
  nodup := List.nodup_nil
  owned := nofun
  locks n _ key hkey := by
    rw [p.unlocked] at hkey
    cases hkey
  absent _ _ := rfl

section Turns

variable [DecidableEq R.Key]

/-- **While one activity has its turn** the others keep their stakes, and in the end the fact holds
again. -/
theorem Kept.advance (h : p.Kept g owner [n] s) (hlock : Owns owner n lock)
    (ht : t.Follows A n (Moment.Ends n (p.agreed n)) ⟨g, lock, s.world, s.reported⟩) :
    ∃ g' owner', p.Kept g' owner' [] (Schedule.advance n t s) ∧
      A.fact g' (Schedule.advance n t s).world (Schedule.advance n t s).reported ∧
      ∀ i, i ≠ n → g' i = g i := by
  have hothers : ∀ x i, i ≠ n → Function.update g n x i = g i := fun x i hi =>
    Function.update_of_ne hi _ _
  induction t generalizing s owner lock with
  | done a =>
    obtain ⟨hnone, x, hx, hkeeps, hagreed⟩ := ht
    obtain rfl : lock = none := hnone
    exact ⟨_, owner, (h.update x).finish hlock (by simpa using hkeeps) (by simpa using hagreed),
      hx.fact, hothers x⟩
  | fail e =>
    obtain ⟨hnone, x, hx, hkeeps, hagreed⟩ := ht
    obtain rfl : lock = none := hnone
    exact ⟨_, owner, (h.update x).finish hlock (by simpa using hkeeps) (by simpa using hagreed),
      hx.fact, hothers x⟩
  | look k ih => exact ih s.world h hlock ht
  | update f next ih => exact ih (s := { s with world := f s.world }) { h with } hlock ht
  | report r next ih => exact ih (s := { s with reported := r :: s.reported }) { h with } hlock ht
  | pause k ih =>
    obtain ⟨x, hx, hk⟩ := ht
    refine ⟨_, owner, (h.update x).park hlock (.inl ?_) ⟨?_, fun m hm hfits => ?_⟩, hx.fact,
      hothers x⟩
    · simpa using hx.keeps
    · simpa using hx.live
    · exact hk m hm (by simpa using hfits) .resume A.resumes
  | acquire key next ih =>
    obtain ⟨hnone, x, hx, hnext⟩ := ht
    obtain rfl : lock = none := hnone
    have hkeeps : A.lock x = none := hx.keeps
    unfold Schedule.advance
    split
    next hheld =>
      refine ⟨_, owner, (h.update x).wait hheld hlock (by simpa using hkeeps)
        ⟨by simpa using hx.live, fun m hm hfits => ?_⟩, hx.fact, hothers x⟩
      exact hnext m hm (by simpa using hfits)
    next hheld =>
      have htake := h.take hheld
      refine ih htake hlock.got (hnext _ rfl ?_)
      exact htake.fits hlock.got (fun i hi => List.mem_singleton.1 hi) hx.fact
  | release key next ih =>
    obtain ⟨hkey, hnext⟩ := ht
    obtain rfl : lock = some key := hkey
    obtain ⟨next', hother, hgive⟩ := h.giveBack hlock
    obtain ⟨hworld, hreported, -⟩ := Schedule.giveBack_same key s
    refine ih hgive (hlock.gone hother) ?_
    rw [hworld, hreported]
    exact hnext

/-- **One turn.** -/
theorem Kept.turn (h : p.Kept g owner [] s) (hfact : A.fact g s.world s.reported) (place : Nat) :
    ∃ g' owner', p.Kept g' owner' [] (s.turn place) ∧
      A.fact g' (s.turn place).world (s.turn place).reported := by
  unfold Schedule.turn
  cases hplace : s.ready[place]? with
  | none => exact ⟨g, owner, h, hfact⟩
  | some y =>
    obtain ⟨n, t⟩ := y
    obtain ⟨lock, hlock, hgo⟩ := h.ready (n, t) (List.mem_of_getElem? hplace)
    have hout : p.Kept g owner [n] { s with ready := s.ready.eraseIdx place } :=
      { h with
        numbers := (Schedule.numbers_take [] hplace).trans h.numbers
        ready := fun x hx => h.ready x (List.mem_of_mem_eraseIdx hx)
        locks := fun i _ => h.locks i List.not_mem_nil }
    have hfits : Moment.Fits n (g n) ⟨g, lock, s.world, s.reported⟩ :=
      h.fits hlock (fun i hi => absurd hi List.not_mem_nil) (by simpa using hfact)
    obtain ⟨g', owner', h', hfact', -⟩ := hout.advance hlock (hgo.2 _ rfl hfits)
    exact ⟨g', owner', h', hfact'⟩

/-- However turns are mixed, the pact is kept. -/
theorem Kept.turns (h : p.Kept g owner [] s) (hfact : A.fact g s.world s.reported)
    (places : List Nat) : ∃ g' owner', p.Kept g' owner' [] (s.turns places) ∧
      A.fact g' (s.turns places).world (s.turns places).reported := by
  unfold Schedule.turns
  induction places generalizing g owner s with
  | nil => exact ⟨g, owner, h, hfact⟩
  | cons place rest ih =>
    obtain ⟨g₁, owner₁, h₁, hfact₁⟩ := h.turn hfact place
    exact ih h₁ hfact₁

/-- **Whatever turns are taken, the fact holds after each of them**, and calls that have ended have
done so as agreed. -/
theorem turns (p : Pact A α) {w : R.World} (hfact : A.fact p.stake w []) (places : List Nat) :
    let s := (Schedule.start w p.calls).turns places
    ∃ g owner, p.Kept g owner [] s ∧ A.fact g s.world s.reported :=
  (p.kept_start w).turns hfact places

end Turns

/-- An activity that may not go on has ended. -/
theorem Kept.ended_of_not_live (h : p.Kept g owner [] s) (hn : n < p.calls.length)
    (hlive : ¬ A.live (g n)) : ∃ r, (n, r) ∈ s.finished := by
  rcases Schedule.mem_numbers (h.numbers.mem_iff.2 (List.mem_range.2 hn)) with
    ⟨t, ht⟩ | ⟨key, t, ht⟩ | hr
  · obtain ⟨_, _, hgo⟩ := h.ready _ ht
    exact absurd hgo.1 hlive
  · exact absurd (h.waiting _ ht).2.2.1 hlive
  · exact hr

/-- A lock that is taken is that of an activity that has not ended. -/
theorem Kept.holder (h : p.Kept g owner [] s) (hkey : key ∈ s.held) :
    ∃ i < p.calls.length, ∀ r, (i, r) ∉ s.finished := by
  obtain ⟨i, hi⟩ := Option.isSome_iff_exists.1 ((h.held key).1 hkey)
  refine ⟨i, h.owned key i hi, fun r hr => ?_⟩
  exact absurd (((h.finished _ hr).2 key).1 hi) nofun

/-- **Calls in accord do not wait for each other for ever**: if none is ready, all have ended. -/
theorem Kept.ended (h : p.Kept g owner [] s) (hready : s.ready = []) :
    s.held = [] ∧ ∀ n < p.calls.length, ∃ r, (n, r) ∈ s.finished := by
  have howner : ∀ key, owner key = none := by
    intro key
    cases hi : owner key with
    | none => rfl
    | some i =>
      have hmem : i ∈ s.numbers := h.numbers.mem_iff.2 (List.mem_range.2 (h.owned key i hi))
      rcases Schedule.mem_numbers hmem with ⟨t, ht⟩ | ⟨key', t, ht⟩ | ⟨r, hr⟩
      · exact absurd (hready ▸ ht) List.not_mem_nil
      · exact absurd (((h.waiting _ ht).2.1 key).1 hi) nofun
      · exact absurd (((h.finished _ hr).2 key).1 hi) nofun
  have hheld : s.held = [] := by
    refine List.eq_nil_iff_forall_not_mem.2 fun key hkey => ?_
    have hsome := (h.held key).1 hkey
    rw [howner key] at hsome
    cases hsome
  refine ⟨hheld, fun n hn => ?_⟩
  rcases Schedule.mem_numbers (h.numbers.mem_iff.2 (List.mem_range.2 hn)) with
    ⟨t, ht⟩ | ⟨key, t, ht⟩ | hr
  · exact absurd (hready ▸ ht) List.not_mem_nil
  · exact absurd (hheld ▸ (h.waiting _ ht).1) List.not_mem_nil
  · exact hr

end Pact

end Workflow
