import Mathlib.Data.List.Nodup
import Mathlib.Data.List.Perm.Basic
import Mathlib.Logic.Function.Basic
import Mathlib.Logic.Relation
import Workflow.Activity.Schedule
import Workflow.Proofs.Activity.Rules

/-!
# Schedules under rules

If each call of a schedule goes by the rules on its own, then all of them do together, however their
turns are mixed.

**Upholding** (`Rules.Upholds`). The rules uphold a fact about the world and all stakes: no change
that is allowed ends it, and after any such change all others find the world as the rules let them
rely on.

**Duties** (`Undertaking`). Each call begins with a stake of its own, and has a duty: the stakes
that it may have where others come in, and how it may end. The duty may depend on the world in which
the call has its first turn (`Schedule.begins`).

**The invariant** (`Ruled`). The fact holds. Each lock that is held has one owner. A call that has
not begun has its first stake; what is left of one that has begun keeps to its duty in each world
that it can rely on.

Main results: `Ruled.turns`, and `Ruled.ended`, that calls under rules do not wait for each other
for ever.
-/

namespace Workflow

open Activity

variable {R : Realm} {α : Type}

/-- What a call has to keep to: its stake wherever others come in, and its ending. -/
structure Duty (ρ : Rules R) (α : Type) where
  during : ρ.Stake → Prop
  ends : ρ.Stake → Except Failure α → Prop

/-- The activity keeps to a duty, and has no lock in the end. -/
def Duty.Kept {ρ : Rules R} (d : Duty ρ α) (lock : Option R.Key) (x : ρ.Stake) (w : R.World)
    (t : Activity R α) : Prop :=
  t.Abides ρ d.during (fun lock x r _ => lock = none ∧ d.ends x r) lock x w

/-- A call with its first stake, and with its duty if it begins in a world. -/
structure Undertaking (ρ : Rules R) (α : Type) where
  call : Activity R α
  stake : ρ.Stake
  duty : R.World → Duty ρ α
  kept : ∀ w, (duty w).Kept none stake w call

namespace Rules

/-- A change that is allowed under some lock. -/
def Step (ρ : Rules R) (a b : ρ.Stake × R.World) : Prop :=
  ∃ lock, ρ.change lock a.1 a.2 b.1 b.2

/-- Any number of such changes. -/
def Steps (ρ : Rules R) : ρ.Stake × R.World → ρ.Stake × R.World → Prop :=
  Relation.ReflTransGen ρ.Step

/-- A change that is allowed to one who has none of the locks `taken`. -/
def StepOff (ρ : Rules R) (taken : R.Key → Prop) (a b : ρ.Stake × R.World) : Prop :=
  ∃ lock, (∀ key, lock = some key → ¬ taken key) ∧ ρ.change lock a.1 a.2 b.1 b.2

/-- Changes by one of the live activities do not end the fact `F`, and the others can rely on what
the rules say. -/
structure Upholds (ρ : Rules R) (live : Nat → Prop) (F : (Nat → ρ.Stake) → R.World → Prop) :
    Prop where
  keeps : ∀ {g lock n x w w'}, live n → F g w → ρ.change lock (g n) w x w' →
    F (Function.update g n x) w'
  seen : ∀ {g lock n x w w' other}, live n → F g w → ρ.change lock (g n) w x w' →
    (other = none ∨ other ≠ lock) → ρ.seen other w w'

/-- What is kept by changes as long as a fact is upheld is upheld with it. -/
theorem Upholds.and {ρ : Rules R} {live : Nat → Prop} {F G : (Nat → ρ.Stake) → R.World → Prop}
    (hF : ρ.Upholds live F)
    (hG : ∀ {g lock n x w w'}, live n → F g w → G g w → ρ.change lock (g n) w x w' →
      G (Function.update g n x) w') :
    ρ.Upholds live fun g w => F g w ∧ G g w where
  keeps hn hw hchange := ⟨hF.keeps hn hw.1 hchange, hG hn hw.1 hw.2 hchange⟩
  seen hn hw hchange hother := hF.seen hn hw.1 hchange hother

end Rules

namespace Schedule

/-- The number of the activity at a place in the queue. -/
def next? (place : Nat) (s : Schedule R α) : Option Nat := (s.ready[place]?).map (·.1)

/-- The activities that are ready, wait or have ended. -/
def numbers (s : Schedule R α) : List Nat :=
  s.ready.map (·.1) ++ s.waiting.map (·.2.1) ++ s.finished.map (·.1)

variable {s : Schedule R α}

theorem mem_numbers_of_ready {x : Nat × Activity R α} (h : x ∈ s.ready) : x.1 ∈ s.numbers :=
  List.mem_append_left _ (List.mem_append_left _ (List.mem_map_of_mem h))

theorem mem_numbers_of_waiting {x : R.Key × Nat × Activity R α} (h : x ∈ s.waiting) :
    x.2.1 ∈ s.numbers :=
  List.mem_append_left _ (List.mem_append_right _ (List.mem_map_of_mem (f := (·.2.1)) h))

theorem mem_numbers_of_finished {x : Nat × Except Failure α} (h : x ∈ s.finished) :
    x.1 ∈ s.numbers :=
  List.mem_append_right _ (List.mem_map_of_mem h)

theorem mem_numbers {n : Nat} (h : n ∈ s.numbers) :
    (∃ t, (n, t) ∈ s.ready) ∨ (∃ key t, (key, n, t) ∈ s.waiting) ∨ ∃ r, (n, r) ∈ s.finished := by
  rcases List.mem_append.1 h with h | h
  · rcases List.mem_append.1 h with h | h
    · obtain ⟨⟨_, t⟩, hx, rfl⟩ := List.mem_map.1 h
      exact .inl ⟨t, hx⟩
    · obtain ⟨⟨key, _, t⟩, hx, rfl⟩ := List.mem_map.1 h
      exact .inr (.inl ⟨key, t, hx⟩)
  · obtain ⟨⟨_, r⟩, hx, rfl⟩ := List.mem_map.1 h
    exact .inr (.inr ⟨r, hx⟩)

/-! An activity that has its turn goes to one of the three places, or is called up from one. -/

theorem numbers_finish (out : List Nat) (n : Nat) (r : Except Failure α) (s : Schedule R α) :
    (out ++ numbers { s with finished := (n, r) :: s.finished }).Perm (n :: out ++ s.numbers) := by
  refine List.perm_iff_count.2 fun a => ?_
  simp only [numbers, List.cons_append, List.map_cons, List.count_append, List.count_cons]
  omega

theorem numbers_park (out : List Nat) (n : Nat) (t : Activity R α) (s : Schedule R α) :
    (out ++ numbers { s with ready := s.ready ++ [(n, t)] }).Perm (n :: out ++ s.numbers) := by
  refine List.perm_iff_count.2 fun a => ?_
  simp only [numbers, List.cons_append, List.map_append, List.map_cons, List.map_nil,
    List.count_append, List.count_cons, List.count_nil]
  omega

theorem numbers_wait (out : List Nat) (key : R.Key) (n : Nat) (t : Activity R α)
    (s : Schedule R α) :
    (out ++ numbers { s with waiting := s.waiting ++ [(key, n, t)] }).Perm
      (n :: out ++ s.numbers) := by
  refine List.perm_iff_count.2 fun a => ?_
  simp only [numbers, List.cons_append, List.map_append, List.map_cons, List.map_nil,
    List.count_append, List.count_cons, List.count_nil]
  omega

theorem numbers_callUp (out : List Nat) {key : R.Key} {n : Nat} {t : Activity R α}
    {before after : List (R.Key × Nat × Activity R α)} {s : Schedule R α}
    (hwait : s.waiting = before ++ (key, n, t) :: after) :
    (n :: out ++ numbers { s with waiting := before ++ after }).Perm (out ++ s.numbers) := by
  refine List.perm_iff_count.2 fun a => ?_
  simp only [numbers, hwait, List.cons_append, List.map_append, List.map_cons, List.count_append,
    List.count_cons]
  omega

/-- The ready activity at a place is taken out of the queue. -/
theorem numbers_take (out : List Nat) {place n : Nat} {t : Activity R α} {s : Schedule R α}
    (hplace : s.ready[place]? = some (n, t)) :
    (n :: out ++ numbers { s with ready := s.ready.eraseIdx place }).Perm (out ++ s.numbers) := by
  obtain ⟨hlt, hget⟩ := List.getElem?_eq_some_iff.1 hplace
  have hperm : ((n, t) :: s.ready.eraseIdx place).Perm s.ready :=
    hget ▸ List.getElem_cons_eraseIdx_perm hlt
  have hready := (hperm.map (·.1)).count_eq
  refine List.perm_iff_count.2 fun a => ?_
  have ha := hready a
  simp only [numbers, List.cons_append, List.map_cons, List.count_append, List.count_cons] at ha ⊢
  omega

variable [DecidableEq R.Key]

/-- The world in which activity `n` has its first turn, with turns at the given places. -/
def begins (n : Nat) : List Nat → Schedule R α → Option R.World
  | [], _ => none
  | place :: rest, s =>
    if s.next? place = some n then some s.world else begins n rest (s.turn place)

theorem begins_append (n : Nat) (places later : List Nat) (s : Schedule R α) :
    begins n (places ++ later) s = (begins n places s).or (begins n later (s.turns places)) := by
  induction places generalizing s with
  | nil => rfl
  | cons place rest ih =>
    simp only [List.cons_append, begins]
    split
    · rfl
    · exact ih (s.turn place)

theorem turns_concat (s : Schedule R α) (places : List Nat) (place : Nat) :
    s.turns (places ++ [place]) = (s.turns places).turn place :=
  List.foldl_append ..

theorem begins_concat (n : Nat) (places : List Nat) (place : Nat) (s : Schedule R α) :
    begins n (places ++ [place]) s = (begins n places s).or
      (if (s.turns places).next? place = some n then some (s.turns places).world else none) :=
  begins_append n places [place] s

/-- A lock that is given back is free, or goes to the first that waits for it. -/
theorem giveBack_cases (key : R.Key) (s : Schedule R α) :
    ((∀ x ∈ s.waiting, x.1 ≠ key) ∧ s.giveBack key = { s with held := s.held.erase key }) ∨
      ∃ before m t after, s.waiting = before ++ (key, m, t) :: after ∧
        s.giveBack key = { s with
          ready := s.ready ++ [(m, t)]
          waiting := before ++ after
          taken := (key, m) :: s.taken } := by
  unfold giveBack
  cases hfind : s.waiting.find? fun entry => decide (entry.1 = key) with
  | none =>
    refine .inl ⟨fun x hx => ?_, rfl⟩
    simpa using List.find?_eq_none.1 hfind x hx
  | some x =>
    obtain ⟨key', m, t⟩ := x
    obtain ⟨hkey, before, after, hwaiting, hbefore⟩ := List.find?_eq_some_iff_append.1 hfind
    obtain rfl : key' = key := by simpa using hkey
    have herase : s.waiting.eraseP (fun entry => decide (entry.1 = key')) = before ++ after := by
      rw [hwaiting, List.eraseP_append_right _ fun x hx => by simpa using hbefore x hx]
      simp
    exact .inr ⟨before, m, t, after, hwaiting, by simp only [herase]⟩

theorem giveBack_same (key : R.Key) (s : Schedule R α) :
    (s.giveBack key).world = s.world ∧ (s.giveBack key).reported = s.reported ∧
      (s.giveBack key).finished = s.finished := by
  unfold giveBack
  split <;> exact ⟨rfl, rfl, rfl⟩

end Schedule

/-! ## Owners of locks -/

/-- Activity `n` has this lock and no other, or has none. -/
def Owns {κ : Type} (owner : κ → Option Nat) (n : Nat) (lock : Option κ) : Prop :=
  ∀ key, owner key = some n ↔ lock = some key

section Owns

variable {κ : Type} [DecidableEq κ] {owner : κ → Option Nat} {next : Option Nat} {key : κ}
  {lock : Option κ} {n : Nat}

/-- After a lock has gone to an activity without one, it has this one. -/
theorem Owns.got (h : Owns owner n none) : Owns (Function.update owner key (some n)) n (some key) := by
  intro key'
  by_cases hkey : key' = key
  · subst hkey
    simp
  · rw [Function.update_of_ne hkey, h]
    exact iff_of_false nofun fun h => hkey (Option.some.inj h).symm

/-- After its lock has gone to another, an activity has none. -/
theorem Owns.gone (h : Owns owner n (some key)) (hnext : next ≠ some n) :
    Owns (Function.update owner key next) n none := by
  intro key'
  by_cases hkey : key' = key
  · subst hkey
    simpa using hnext
  · rw [Function.update_of_ne hkey, h]
    exact iff_of_false (fun h => hkey (Option.some.inj h).symm) nofun

/-- Nothing changes for an activity that neither had the lock nor gets it. -/
theorem Owns.other (h : Owns owner n lock) (howner : owner key ≠ some n) (hnext : next ≠ some n) :
    Owns (Function.update owner key next) n lock := by
  intro key'
  by_cases hkey : key' = key
  · subst hkey
    rw [Function.update_self, ← h]
    exact iff_of_false hnext howner
  · rw [Function.update_of_ne hkey]
    exact h key'

end Owns

/-! ## The invariant -/

/-- What no activity can see: the stakes, the owners of the locks, and the worlds in which
activities began. -/
structure Ghost (ρ : Rules R) where
  stake : Nat → ρ.Stake
  owner : R.Key → Option Nat
  begun : Nat → Option R.World

/-- Activity `n` has this lock and no other, or has none. -/
def Ghost.Has {ρ : Rules R} (γ : Ghost ρ) (n : Nat) (lock : Option R.Key) : Prop :=
  ∀ key, γ.owner key = some n ↔ lock = some key

/-- Between two worlds only activity `n` had a turn: the others have kept their stakes and their
locks, and the changes were made without these locks. -/
structure Ghost.Passes {ρ : Rules R} (γ γ' : Ghost ρ) (n : Nat) (w w' : R.World) : Prop where
  stakes : ∀ m, m ≠ n → γ'.stake m = γ.stake m
  owners : ∀ key m, m ≠ n → γ.owner key = some m → γ'.owner key = some m
  steps : Relation.ReflTransGen (ρ.StepOff fun key => ∃ m, m ≠ n ∧ γ.owner key = some m)
    (γ.stake n, w) (γ'.stake n, w')

section

variable {ρ : Rules R} (us : List (Undertaking ρ α)) (γ : Ghost ρ)

/-- Activity `n` has not begun. -/
def Fresh (n : Nat) (t : Activity R α) : Prop :=
  γ.begun n = none ∧ γ.Has n none ∧ ∃ u, us[n]? = some u ∧ γ.stake n = u.stake ∧ t = u.call

/-- Activity `n` has begun. From every world that it can rely on with one lock, it keeps to its duty
when it goes on with the next. -/
def Parked (w : R.World) (n : Nat) (lock next : Option R.Key) (t : Activity R α) : Prop :=
  ∃ u v, us[n]? = some u ∧ γ.begun n = some v ∧ (u.duty v).during (γ.stake n) ∧
    ∀ w', ρ.seen lock w w' → (u.duty v).Kept next (γ.stake n) w' t

/-- Activity `n` has ended according to its duty. -/
def Ended (n : Nat) (r : Except Failure α) : Prop :=
  ∃ u v, us[n]? = some u ∧ γ.begun n = some v ∧ (u.duty v).ends (γ.stake n) r

/-- The schedule goes by the rules, where the activities of `out` have their turn. Activities beyond
the last have the stake `idle`. -/
structure Ruled (idle : ρ.Stake) (live : Nat → Prop) (F : (Nat → ρ.Stake) → R.World → Prop)
    (out : List Nat) (s : Schedule R α) : Prop where
  fits : F γ.stake s.world
  numbers : (out ++ s.numbers).Perm (List.range us.length)
  alive : ∀ n < us.length, live n ∨ ∃ r, (n, r) ∈ s.finished
  ready : ∀ x ∈ s.ready, Fresh us γ x.1 x.2 ∨
    ∃ lock, γ.Has x.1 lock ∧ Parked us γ s.world x.1 lock lock x.2
  waiting : ∀ x ∈ s.waiting, x.1 ∈ s.held ∧ γ.Has x.2.1 none ∧
    Parked us γ s.world x.2.1 none (some x.1) x.2.2
  finished : ∀ x ∈ s.finished, γ.Has x.1 none ∧ Ended us γ x.1 x.2
  held : ∀ key, key ∈ s.held ↔ (γ.owner key).isSome
  nodup : s.held.Nodup
  owned : ∀ key n, γ.owner key = some n → n < us.length
  absent : ∀ n, us.length ≤ n → γ.stake n = idle

end

section

variable {ρ : Rules R} {us : List (Undertaking ρ α)} {γ γ' : Ghost ρ} {idle : ρ.Stake}
  {live : Nat → Prop} {F : (Nat → ρ.Stake) → R.World → Prop} {out : List Nat} {s : Schedule R α}
  {n m : Nat} {t : Activity R α} {r : Except Failure α} {w w' : R.World}
  {lock next : Option R.Key} {key : R.Key}

/-- The ghosts say the same of an activity. -/
structure Ghost.SameAt (γ γ' : Ghost ρ) (n : Nat) : Prop where
  stake : γ'.stake n = γ.stake n
  has : ∀ {lock}, γ.Has n lock → γ'.Has n lock
  begun : γ'.begun n = γ.begun n

theorem Fresh.same (h : Fresh us γ n t) (hsame : γ.SameAt γ' n) : Fresh us γ' n t := by
  unfold Fresh
  rw [hsame.stake, hsame.begun]
  exact ⟨h.1, hsame.has h.2.1, h.2.2⟩

/-- An activity goes on keeping to its duty while others change the world as it may rely on. -/
theorem Parked.same (h : Parked us γ w n lock next t) (hsame : γ.SameAt γ' n)
    (hseen : ρ.seen lock w w') : Parked us γ' w' n lock next t := by
  obtain ⟨u, v, hu, hv, hduring, hkept⟩ := h
  unfold Parked
  rw [hsame.stake, hsame.begun]
  exact ⟨u, v, hu, hv, hduring, fun w₂ hw₂ => hkept w₂ (ρ.seen_trans hseen hw₂)⟩

theorem Ended.same (h : Ended us γ n r) (hsame : γ.SameAt γ' n) : Ended us γ' n r := by
  unfold Ended
  rw [hsame.stake, hsame.begun]
  exact h

namespace Ghost.Passes

theorem refl (γ : Ghost ρ) (n : Nat) (w : R.World) : γ.Passes γ n w w :=
  ⟨fun _ _ => rfl, fun _ _ _ h => h, .refl⟩

theorem trans {γ₁ : Ghost ρ} {w₁ : R.World} (h : γ.Passes γ₁ n w w₁)
    (h' : γ₁.Passes γ' n w₁ w') : γ.Passes γ' n w w' where
  stakes m hm := (h'.stakes m hm).trans (h.stakes m hm)
  owners key m hm howner := h'.owners key m hm (h.owners key m hm howner)
  steps := by
    refine h.steps.trans (Relation.ReflTransGen.mono ?_ _ _ h'.steps)
    rintro a b ⟨lock, hlock, hchange⟩
    refine ⟨lock, fun key hkey htaken => hlock key hkey ?_, hchange⟩
    obtain ⟨m, hm, howner⟩ := htaken
    exact ⟨m, hm, h.owners key m hm howner⟩

/-- One change. -/
theorem single {x : ρ.Stake} (hlock : γ.Has n lock) (hchange : ρ.change lock (γ.stake n) w x w') :
    γ.Passes { γ with stake := Function.update γ.stake n x } n w w' where
  stakes m hm := Function.update_of_ne hm _ _
  owners _ _ _ howner := howner
  steps := by
    refine .single ⟨lock, ?_, ?_⟩
    · rintro key hkey ⟨m, hm, howner⟩
      have hn : γ.owner key = some n := (hlock key).2 hkey
      exact hm (Option.some.inj (howner.symm.trans hn))
    · simpa using hchange

/-- A lock goes from the activity, or from nobody, to another one or to nobody. -/
theorem pass [DecidableEq R.Key] (hfrom : ∀ m, γ.owner key = some m → m = n)
    (owner : Option Nat) (w : R.World) :
    γ.Passes { γ with owner := Function.update γ.owner key owner } n w w where
  stakes _ _ := rfl
  owners key' m hm howner := by
    have hkey : key' ≠ key := by
      rintro rfl
      exact hm (hfrom m howner)
    exact (Function.update_of_ne hkey _ _).trans howner
  steps := .refl

theorem toSteps (h : γ.Passes γ' n w w') : ρ.Steps (γ.stake n, w) (γ'.stake n, w') := by
  refine Relation.ReflTransGen.mono ?_ _ _ h.steps
  rintro a b ⟨lock, -, hchange⟩
  exact ⟨lock, hchange⟩

/-- What holds of the stakes and the world, and is ended by no change that is made without the locks
of others, holds afterwards. -/
theorem keeps {G : (Nat → ρ.Stake) → R.World → Prop} (h : γ.Passes γ' n w w')
    (hnow : G γ.stake w)
    (hkeeps : ∀ {g lock x v v'}, (∀ key m, m ≠ n → γ.owner key = some m → lock ≠ some key) →
      G g v → ρ.change lock (g n) v x v' → G (Function.update g n x) v') : G γ'.stake w' := by
  have hall : ∀ b, Relation.ReflTransGen (ρ.StepOff fun key => ∃ m, m ≠ n ∧ γ.owner key = some m)
      (γ.stake n, w) b → G (Function.update γ.stake n b.1) b.2 := by
    intro b hb
    induction hb with
    | refl => simpa using hnow
    | @tail b c _ hstep ih =>
      obtain ⟨lock, hlock, hchange⟩ := hstep
      have hfree : ∀ key m, m ≠ n → γ.owner key = some m → lock ≠ some key :=
        fun key m hm howner hkey => hlock key hkey ⟨m, hm, howner⟩
      have hnext := hkeeps (x := c.1) hfree ih (by simpa using hchange)
      simpa using hnext
  have hstake : Function.update γ.stake n (γ'.stake n) = γ'.stake := by
    funext m
    by_cases hm : m = n
    · subst hm
      simp
    · rw [Function.update_of_ne hm, h.stakes m hm]
  exact hstake ▸ hall _ h.steps

end Ghost.Passes

namespace Ruled

theorem nodup_numbers (h : Ruled us γ idle live F out s) : (out ++ s.numbers).Nodup :=
  h.numbers.nodup_iff.2 List.nodup_range

/-- An activity that has its turn is in no other place. -/
theorem not_mem_out (h : Ruled us γ idle live F out s) (hm : m ∈ s.numbers) : m ∉ out :=
  fun hout => (List.nodup_append.1 h.nodup_numbers).2.2 m hout m hm rfl

theorem lt_length (h : Ruled us γ idle live F out s) (hn : n ∈ out ++ s.numbers) :
    n < us.length :=
  List.mem_range.1 (h.numbers.mem_iff.1 hn)

theorem live_of_mem (h : Ruled us γ idle live F out s) (hn : n ∈ out) : live n := by
  rcases h.alive n (h.lt_length (List.mem_append_left _ hn)) with hlive | ⟨r, hr⟩
  · exact hlive
  · exact absurd hn (h.not_mem_out (Schedule.mem_numbers_of_finished hr))

/-- What is said of activities stays true if the ghosts change only for those that have their turn,
and the world changes as the others can rely on. -/
theorem others (h : Ruled us γ idle live F out s) (hsame : ∀ m ∉ out, γ.SameAt γ' m)
    (hseen : ∀ m ∉ out, ∀ lock, γ.Has m lock → ρ.seen lock s.world w') :
    (∀ x ∈ s.ready, Fresh us γ' x.1 x.2 ∨
      ∃ lock, γ'.Has x.1 lock ∧ Parked us γ' w' x.1 lock lock x.2) ∧
    (∀ x ∈ s.waiting, x.1 ∈ s.held ∧ γ'.Has x.2.1 none ∧
      Parked us γ' w' x.2.1 none (some x.1) x.2.2) ∧
    ∀ x ∈ s.finished, γ'.Has x.1 none ∧ Ended us γ' x.1 x.2 := by
  refine ⟨fun x hx => ?_, fun x hx => ?_, fun x hx => ?_⟩
  · have hout := h.not_mem_out (Schedule.mem_numbers_of_ready hx)
    rcases h.ready x hx with hfresh | ⟨lock, hlock, hparked⟩
    · exact .inl (hfresh.same (hsame _ hout))
    · refine .inr ⟨lock, (hsame _ hout).has hlock, ?_⟩
      exact hparked.same (hsame _ hout) (hseen _ hout _ hlock)
  · have hout := h.not_mem_out (Schedule.mem_numbers_of_waiting hx)
    obtain ⟨hheld, hlock, hparked⟩ := h.waiting x hx
    refine ⟨hheld, (hsame _ hout).has hlock, ?_⟩
    exact hparked.same (hsame _ hout) (hseen _ hout _ hlock)
  · have hout := h.not_mem_out (Schedule.mem_numbers_of_finished hx)
    obtain ⟨hlock, hended⟩ := h.finished x hx
    exact ⟨(hsame _ hout).has hlock, hended.same (hsame _ hout)⟩

/-! ## The first and the last turn -/

/-- The calls before their first turns. -/
theorem start (us : List (Undertaking ρ α)) {w : R.World} (stake : Nat → ρ.Stake)
    (hstake : ∀ n, stake n = (us[n]?).elim idle Undertaking.stake) (hF : F stake w)
    (hlive : ∀ n < us.length, live n) :
    Ruled us ⟨stake, fun _ => none, fun _ => none⟩ idle live F []
      (Schedule.start w (us.map Undertaking.call)) where
  fits := hF
  numbers := by
    simp [Schedule.numbers, Schedule.start, List.map_map, Function.comp_def, List.zipIdx_map_snd,
      List.range_eq_range']
  alive n hn := .inl (hlive n hn)
  ready x hx := by
    obtain ⟨⟨t, n⟩, hmem, rfl⟩ := List.mem_map.1 hx
    have hget := List.mk_mem_zipIdx_iff_getElem?.1 hmem
    rw [List.getElem?_map] at hget
    obtain ⟨u, hu, rfl⟩ := Option.map_eq_some_iff.1 hget
    refine .inl ⟨rfl, fun key => by simp, u, hu, ?_, rfl⟩
    simp [hstake, hu]
  waiting := nofun
  finished := nofun
  held key := by simp [Schedule.start]
  nodup := List.nodup_nil
  owned := nofun
  absent n hn := by simp [hstake, hn]

/-- **Calls under rules do not wait for each other for ever**: if none is ready, all have ended. -/
theorem ended (h : Ruled us γ idle live F [] s) (hready : s.ready = []) :
    ∀ n < us.length, ∃ r, (n, r) ∈ s.finished := by
  have hwaiting : ∀ x, x ∉ s.waiting := by
    intro x hx
    obtain ⟨m, hm⟩ := Option.isSome_iff_exists.1 ((h.held x.1).1 (h.waiting x hx).1)
    have hno : ¬ γ.Has m none := fun hnone => nomatch (hnone x.1).1 hm
    have hmem : m ∈ s.numbers :=
      h.numbers.mem_iff.2 (List.mem_range.2 (h.owned x.1 m hm))
    rcases Schedule.mem_numbers hmem with ⟨t, ht⟩ | ⟨key, t, ht⟩ | ⟨r, hr⟩
    · exact List.not_mem_nil (hready ▸ ht)
    · exact hno (h.waiting _ ht).2.1
    · exact hno (h.finished _ hr).1
  intro n hn
  rcases Schedule.mem_numbers (h.numbers.mem_iff.2 (List.mem_range.2 hn)) with
    ⟨t, ht⟩ | ⟨key, t, ht⟩ | hr
  · exact absurd (hready ▸ ht) List.not_mem_nil
  · exact absurd ht (hwaiting _)
  · exact hr

/-- An activity that is ready does not wait, and has not ended. -/
theorem only_ready (h : Ruled us γ idle live F out s) (ht : (n, t) ∈ s.ready) :
    (∀ key q, (key, n, q) ∉ s.waiting) ∧ ∀ r, (n, r) ∉ s.finished := by
  obtain ⟨hnodup, -, hfinished⟩ := List.nodup_append.1 (List.nodup_append.1 h.nodup_numbers).2.1
  obtain ⟨-, -, hwaiting⟩ := List.nodup_append.1 hnodup
  have hready : n ∈ s.ready.map (·.1) := List.mem_map_of_mem (f := (·.1)) ht
  refine ⟨fun key q hq => ?_, fun r hr => ?_⟩
  · exact hwaiting n hready n (List.mem_map_of_mem (f := (·.2.1)) hq) rfl
  · exact hfinished n (List.mem_append_left _ hready) n (List.mem_map_of_mem (f := (·.1)) hr) rfl

/-- An activity ends once. -/
theorem answer_unique {r' : Except Failure α} (h : Ruled us γ idle live F out s)
    (hr : (n, r) ∈ s.finished) (hr' : (n, r') ∈ s.finished) : r = r' := by
  have hnodup : (s.finished.map (·.1)).Nodup :=
    (List.nodup_append.1 (List.nodup_append.1 h.nodup_numbers).2.1).2.1
  exact congrArg Prod.snd (List.inj_on_of_nodup_map hnodup hr hr' rfl)

/-- A call that has not ended has not begun, or has a stake of its duty. -/
theorem status {u : Undertaking ρ α} (h : Ruled us γ idle live F [] s) (hu : us[n]? = some u) :
    ((∀ r, (n, r) ∉ s.finished) ∧ ((γ.begun n = none ∧ γ.stake n = u.stake) ∨
      ∃ v, γ.begun n = some v ∧ (u.duty v).during (γ.stake n))) ∨
    ∃ r v, (n, r) ∈ s.finished ∧ γ.begun n = some v ∧ (u.duty v).ends (γ.stake n) r := by
  have hlt : n < us.length := (List.getElem?_eq_some_iff.1 hu).1
  have hone := List.nodup_iff_count.1 h.nodup_numbers n
  simp only [Schedule.numbers, List.nil_append, List.count_append] at hone
  have hended : ∀ r, (n, r) ∈ s.finished → 0 < (s.finished.map (·.1)).count n := fun r hr =>
    List.count_pos_iff.2 (List.mem_map_of_mem hr)
  rcases Schedule.mem_numbers (h.numbers.mem_iff.2 (List.mem_range.2 hlt)) with
    ⟨t, ht⟩ | ⟨key, t, ht⟩ | ⟨r, hr⟩
  · have hready : 0 < (s.ready.map (·.1)).count n :=
      List.count_pos_iff.2 (List.mem_map_of_mem (f := (·.1)) ht)
    refine .inl ⟨fun r hr => absurd (hended r hr) (by omega), ?_⟩
    rcases h.ready _ ht with ⟨hbegun, -, u', hu', hstake, -⟩ | ⟨lock, -, u', v, hu', hv, hduring, -⟩
    · cases hu.symm.trans hu'
      exact .inl ⟨hbegun, hstake⟩
    · cases hu.symm.trans hu'
      exact .inr ⟨v, hv, hduring⟩
  · have hwaiting : 0 < (s.waiting.map (·.2.1)).count n :=
      List.count_pos_iff.2 (List.mem_map_of_mem (f := (·.2.1)) ht)
    refine .inl ⟨fun r hr => absurd (hended r hr) (by omega), ?_⟩
    obtain ⟨-, -, u', v, hu', hv, hduring, -⟩ := h.waiting _ ht
    cases hu.symm.trans hu'
    exact .inr ⟨v, hv, hduring⟩
  · obtain ⟨-, u', v, hu', hv, hends⟩ := h.finished _ hr
    cases hu.symm.trans hu'
    exact .inr ⟨r, v, hr, hv, hends⟩

/-! ## One step -/

/-- Reports are of no account. -/
theorem report (h : Ruled us γ idle live F out s) (rs : List R.Report) :
    Ruled us γ idle live F out { s with reported := rs } :=
  { h with }

theorem finish (h : Ruled us γ idle live F (n :: out) s) (hlock : γ.Has n none)
    (hr : Ended us γ n r) :
    Ruled us γ idle live F out { s with finished := (n, r) :: s.finished } :=
  { h with
    numbers := (Schedule.numbers_finish out n r s).trans h.numbers
    alive := fun m hm =>
      (h.alive m hm).imp_right fun ⟨r, hr⟩ => ⟨r, List.mem_cons_of_mem _ hr⟩
    finished := List.forall_mem_cons.2 ⟨⟨hlock, hr⟩, h.finished⟩ }

theorem park (h : Ruled us γ idle live F (n :: out) s) (hlock : γ.Has n lock)
    (ht : Parked us γ s.world n lock lock t) :
    Ruled us γ idle live F out { s with ready := s.ready ++ [(n, t)] } :=
  { h with
    numbers := (Schedule.numbers_park out n t s).trans h.numbers
    ready := fun x hx => by
      rcases List.mem_append.1 hx with hx | hx
      · exact h.ready x hx
      · cases List.mem_singleton.1 hx
        exact .inr ⟨lock, hlock, ht⟩ }

theorem wait (h : Ruled us γ idle live F (n :: out) s) (hheld : key ∈ s.held)
    (hlock : γ.Has n none) (ht : Parked us γ s.world n none (some key) t) :
    Ruled us γ idle live F out { s with waiting := s.waiting ++ [(key, n, t)] } :=
  { h with
    numbers := (Schedule.numbers_wait out key n t s).trans h.numbers
    waiting := fun x hx => by
      rcases List.mem_append.1 hx with hx | hx
      · exact h.waiting x hx
      · cases List.mem_singleton.1 hx
        exact ⟨hheld, hlock, ht⟩ }

/-- One that waits is called up. -/
theorem callUp {before after : List (R.Key × Nat × Activity R α)}
    (h : Ruled us γ idle live F out s) (hwait : s.waiting = before ++ (key, m, t) :: after) :
    Ruled us γ idle live F (m :: out) { s with waiting := before ++ after } :=
  { h with
    numbers := (Schedule.numbers_callUp out hwait).trans h.numbers
    waiting := fun x hx => by
      refine h.waiting x ?_
      rw [hwait]
      rcases List.mem_append.1 hx with hx | hx
      · exact List.mem_append_left _ hx
      · exact List.mem_append_right _ (List.mem_cons_of_mem _ hx) }

/-- A change that is allowed. -/
theorem change {x : ρ.Stake} (hF : ρ.Upholds live F) (h : Ruled us γ idle live F [n] s)
    (hlock : γ.Has n lock) (hchange : ρ.change lock (γ.stake n) s.world x w') :
    Ruled us { γ with stake := Function.update γ.stake n x } idle live F [n]
      { s with world := w' } := by
  have hlive : live n := h.live_of_mem List.mem_cons_self
  have hsame : ∀ m ∉ [n], γ.SameAt { γ with stake := Function.update γ.stake n x } m :=
    fun m hm => ⟨Function.update_of_ne (List.ne_of_not_mem_cons hm) _ _, id, rfl⟩
  have hseen : ∀ m ∉ [n], ∀ other, γ.Has m other → ρ.seen other s.world w' := by
    intro m hm other hother
    refine hF.seen hlive h.fits hchange ?_
    cases other with
    | none => exact .inl rfl
    | some key =>
      refine .inr fun heq => List.ne_of_not_mem_cons hm ?_
      have hm := (hother key).2 rfl
      exact Option.some.inj (hm.symm.trans ((hlock key).2 heq.symm))
  obtain ⟨hready, hwaiting, hfinished⟩ := h.others hsame hseen
  exact { h with
    fits := hF.keeps hlive h.fits hchange
    ready := hready
    waiting := hwaiting
    finished := hfinished
    absent := fun m hm => by
      have hlt : n < us.length := h.lt_length List.mem_cons_self
      exact (Function.update_of_ne (by omega) _ _).trans (h.absent m hm) }

variable [DecidableEq R.Key]

/-- A lock goes from an activity that has its turn, or from nobody, to another one or to nobody. -/
theorem pass (h : Ruled us γ idle live F out s) (held : List R.Key) (owner : Option Nat)
    (hfrom : ∀ m, γ.owner key = some m → m ∈ out) (hto : ∀ m, owner = some m → m ∈ out)
    (hheld : ∀ key', key' ∈ held ↔
      (key' = key ∧ owner.isSome) ∨ (key' ≠ key ∧ key' ∈ s.held))
    (hnodup : held.Nodup) (hwait : ∀ x ∈ s.waiting, x.1 = key → owner.isSome) :
    Ruled us { γ with owner := Function.update γ.owner key owner } idle live F out
      { s with held } := by
  have hsame : ∀ m ∉ out, γ.SameAt { γ with owner := Function.update γ.owner key owner } m := by
    intro m hm
    exact ⟨rfl, fun hlock => Owns.other hlock (fun ho => hm (hfrom m ho)) fun ho => hm (hto m ho),
      rfl⟩
  obtain ⟨hready, hwaiting, hfinished⟩ := h.others hsame fun _ _ _ _ => ρ.seen_refl _ _
  exact { h with
    ready := hready
    waiting := fun x hx => by
      refine ⟨(hheld x.1).2 ?_, (hwaiting x hx).2⟩
      by_cases hkey : x.1 = key
      · exact .inl ⟨hkey, hwait x hx hkey⟩
      · exact .inr ⟨hkey, (hwaiting x hx).1⟩
    finished := hfinished
    held := fun key' => by
      rw [hheld]
      by_cases hkey : key' = key
      · subst hkey
        simp
      · simp [hkey, h.held]
    nodup := hnodup
    owned := fun key' m hm => by
      dsimp only at hm
      by_cases hkey : key' = key
      · subst hkey
        rw [Function.update_self] at hm
        exact h.lt_length (List.mem_append_left _ (hto m hm))
      · rw [Function.update_of_ne hkey] at hm
        exact h.owned key' m hm }

/-- After a lock has gone to an activity without one, it has this one. -/
theorem has_update (hlock : γ.Has n none) :
    Ghost.Has { γ with owner := Function.update γ.owner key (some n) } n (some key) :=
  Owns.got hlock

/-- After its lock has gone to another, an activity has none. -/
theorem has_none {owner : Option Nat} (hlock : γ.Has n (some key)) (hother : owner ≠ some n) :
    Ghost.Has { γ with owner := Function.update γ.owner key owner } n none :=
  Owns.gone hlock hother

/-- A lock that is free is taken. -/
theorem take (h : Ruled us γ idle live F [n] s) (hheld : key ∉ s.held) :
    Ruled us { γ with owner := Function.update γ.owner key (some n) } idle live F [n]
      { s with held := key :: s.held, taken := (key, n) :: s.taken } := by
  have hpass := h.pass (key :: s.held) (some n)
    (fun m hm => absurd ((h.held key).2 (hm ▸ rfl)) hheld)
    (fun m hm => Option.some.inj hm ▸ List.mem_cons_self)
    (fun key' => by by_cases hkey : key' = key <;> simp [hkey])
    (List.nodup_cons.2 ⟨hheld, h.nodup⟩) fun _ _ _ => rfl
  exact { hpass with }

/-- **A lock is given back.** It is free then, or another one has it. -/
theorem giveBack (h : Ruled us γ idle live F [n] s) (hlock : γ.Has n (some key)) :
    ∃ owner ≠ some n,
      Ruled us { γ with owner := Function.update γ.owner key owner } idle live F [n]
        (s.giveBack key) := by
  have howner : γ.owner key = some n := (hlock key).2 rfl
  rcases s.giveBack_cases key with ⟨hnobody, heq⟩ | ⟨before, m, t, after, hwait, heq⟩ <;> rw [heq]
  · refine ⟨none, nofun, h.pass (s.held.erase key) none (fun m hm => ?_) nofun (fun key' => ?_)
      (h.nodup.erase key) ?_⟩
    · exact Option.some.inj (howner.symm.trans hm) ▸ List.mem_cons_self
    · rw [h.nodup.mem_erase_iff]
      by_cases hkey : key' = key <;> simp [hkey]
    · exact fun x hx hkey => absurd hkey (hnobody x hx)
  · -- The first that waits is called up, gets the lock and goes to the ready ones.
    have hmem : (key, m, t) ∈ s.waiting := hwait ▸ List.mem_append_right _ List.mem_cons_self
    obtain ⟨hheld, hnone, u, v, hu, hv, hduring, hkept⟩ := h.waiting _ hmem
    have hmn : m ∉ [n] := h.not_mem_out (Schedule.mem_numbers_of_waiting hmem)
    have hpass := (h.callUp hwait).pass s.held (some m)
      (fun a ha => List.mem_cons_of_mem _ <|
        List.mem_singleton.2 (Option.some.inj (howner.symm.trans ha)).symm)
      (fun a ha => Option.some.inj ha ▸ List.mem_cons_self)
      (fun key' => by by_cases hkey : key' = key <;> simp [hkey, hheld])
      h.nodup fun _ _ _ => rfl
    refine ⟨some m, fun heq => List.ne_of_not_mem_cons hmn (Option.some.inj heq), ?_⟩
    have hpark := hpass.park (has_update hnone)
      ⟨u, v, hu, hv, hduring, fun w' hw' => hkept w' (ρ.seen_unlocked hw')⟩
    exact { hpark with }

/-! ## Turns -/

/-- **While one call has its turn**, it makes only changes that are allowed, and the schedule goes
by the rules afterwards. -/
theorem advance {u : Undertaking ρ α} {v : R.World} (hF : ρ.Upholds live F)
    (h : Ruled us γ idle live F [n] s) (hu : us[n]? = some u) (hv : γ.begun n = some v)
    (hlock : γ.Has n lock) (ht : (u.duty v).Kept lock (γ.stake n) s.world t) :
    ∃ γ', Ruled us γ' idle live F [] (Schedule.advance n t s) ∧ γ'.begun = γ.begun ∧
      γ.Passes γ' n s.world (Schedule.advance n t s).world := by
  induction t generalizing γ s lock with
  | done a =>
    obtain ⟨rfl, hends⟩ := ht
    exact ⟨γ, h.finish hlock ⟨u, v, hu, hv, hends⟩, rfl, .refl γ n _⟩
  | fail e =>
    obtain ⟨rfl, hends⟩ := ht
    exact ⟨γ, h.finish hlock ⟨u, v, hu, hv, hends⟩, rfl, .refl γ n _⟩
  | look k ih => exact ih s.world h hv hlock ht
  | update f next ih =>
    obtain ⟨x, hchange, hnext⟩ := ht
    let γ₁ : Ghost ρ := { γ with stake := Function.update γ.stake n x }
    have hx : γ₁.stake n = x := Function.update_self ..
    have hkept : (u.duty v).Kept lock (γ₁.stake n) (f s.world) next := hx ▸ hnext
    obtain ⟨γ', hγ', hbegun, hpasses⟩ := ih (h.change hF hlock hchange) hv hlock hkept
    exact ⟨γ', hγ', hbegun, .trans (.single hlock hchange) hpasses⟩
  | report r next ih => exact ih (h.report _) hv hlock ht
  | pause k ih =>
    refine ⟨γ, h.park hlock ⟨u, v, hu, hv, ht.1, fun w' hw' => ?_⟩, rfl, .refl γ n _⟩
    exact ht.2 w' hw' .resume
  | acquire key next ih =>
    obtain ⟨rfl, hduring, hnext⟩ := ht
    unfold Schedule.advance
    split
    next hheld =>
      exact ⟨γ, h.wait hheld hlock ⟨u, v, hu, hv, hduring, hnext⟩, rfl, .refl γ n _⟩
    next hheld =>
      obtain ⟨γ', hγ', hbegun, hpasses⟩ :=
        ih (h.take hheld) hv (has_update hlock) (hnext _ (ρ.seen_refl _ _))
      refine ⟨γ', hγ', hbegun, .trans (.pass (fun m hm => ?_) _ _) hpasses⟩
      exact absurd ((h.held key).2 (hm ▸ rfl)) hheld
  | release key next ih =>
    obtain ⟨rfl, hnext⟩ := ht
    obtain ⟨owner, hother, hgive⟩ := h.giveBack hlock
    have hworld : (s.giveBack key).world = s.world := (Schedule.giveBack_same key s).1
    obtain ⟨γ', hγ', hbegun, hpasses⟩ :=
      ih hgive hv (has_none hlock hother) (by rw [hworld]; exact hnext)
    rw [hworld] at hpasses
    refine ⟨γ', hγ', hbegun, .trans (.pass (fun m hm => ?_) _ _) hpasses⟩
    exact Option.some.inj (hm.symm.trans ((hlock key).2 rfl))

/-- **One turn**, and what it leaves to the others. -/
theorem turn_passes (hF : ρ.Upholds live F) (h : Ruled us γ idle live F [] s) (place : Nat) :
    ∃ γ', Ruled us γ' idle live F [] (s.turn place) ∧
      (∀ m, γ'.begun m = (γ.begun m).or (if s.next? place = some m then some s.world else none)) ∧
      ∀ n, s.next? place = some n → γ.Passes γ' n s.world (s.turn place).world := by
  unfold Schedule.turn Schedule.next?
  cases hplace : s.ready[place]? with
  | none => exact ⟨γ, h, fun m => by simp, nofun⟩
  | some x =>
    obtain ⟨n, t⟩ := x
    have hmem : (n, t) ∈ s.ready := List.mem_of_getElem? hplace
    have hout : Ruled us γ idle live F [n] { s with ready := s.ready.eraseIdx place } :=
      { h with
        numbers := (Schedule.numbers_take [] hplace).trans h.numbers
        ready := fun x hx => h.ready x (List.mem_of_mem_eraseIdx hx) }
    rcases h.ready (n, t) hmem with ⟨hbegun, hlock, u, hu, hstake, rfl⟩ |
        ⟨lock, hlock, u, v, hu, hv, -, hkept⟩
    · -- The call begins.
      let γ₁ : Ghost ρ := { γ with begun := Function.update γ.begun n (some s.world) }
      have hsame : ∀ m ∉ [n], γ.SameAt γ₁ m := fun m hm =>
        ⟨rfl, id, Function.update_of_ne (List.ne_of_not_mem_cons hm) _ _⟩
      obtain ⟨hready, hwaiting, hfinished⟩ := hout.others hsame fun _ _ _ _ => ρ.seen_refl _ _
      have hbegin : Ruled us γ₁ idle live F [n] { s with ready := s.ready.eraseIdx place } :=
        { hout with ready := hready, waiting := hwaiting, finished := hfinished }
      have hkept : (u.duty s.world).Kept none (γ₁.stake n) s.world u.call := by
        show (u.duty s.world).Kept none (γ.stake n) s.world u.call
        rw [hstake]
        exact u.kept s.world
      obtain ⟨γ', hγ', hsame', hpasses⟩ :=
        hbegin.advance hF hu (Function.update_self ..) hlock hkept
      refine ⟨γ', hγ', fun m => ?_, fun _ hn => ?_⟩
      · rw [hsame']
        by_cases hm : m = n
        · subst hm
          simp [γ₁, hbegun]
        · simp [γ₁, hm, Ne.symm hm]
      · cases hn
        exact { hpasses with }
    · obtain ⟨γ', hγ', hsame', hpasses⟩ :=
        hout.advance hF hu hv hlock (hkept _ (ρ.seen_refl _ _))
      refine ⟨γ', hγ', fun m => ?_, fun _ hn => ?_⟩
      · rw [hsame']
        by_cases hm : m = n
        · subst hm
          simp [hv]
        · simp [Ne.symm hm]
      · cases hn
        exact hpasses

/-- One turn makes changes that are allowed. -/
theorem turn (hF : ρ.Upholds live F) (h : Ruled us γ idle live F [] s) (place : Nat) :
    ∃ γ', Ruled us γ' idle live F [] (s.turn place) ∧
      (∀ m, γ'.begun m = (γ.begun m).or (if s.next? place = some m then some s.world else none)) ∧
      ∀ n, s.next? place = some n →
        ρ.Steps (γ.stake n, s.world) (γ'.stake n, (s.turn place).world) := by
  obtain ⟨γ', hγ', hbegun, hpasses⟩ := h.turn_passes hF place
  exact ⟨γ', hγ', hbegun, fun n hn => (hpasses n hn).toSteps⟩

/-- **However their turns are mixed, calls that each go by the rules do so together.** -/
theorem turns (hF : ρ.Upholds live F) (h : Ruled us γ idle live F [] s) (places : List Nat) :
    ∃ γ', Ruled us γ' idle live F [] (s.turns places) ∧
      ∀ n, γ'.begun n = (γ.begun n).or (s.begins n places) := by
  unfold Schedule.turns
  induction places generalizing γ s with
  | nil => exact ⟨γ, h, fun n => by simp [Schedule.begins]⟩
  | cons place rest ih =>
    obtain ⟨γ₁, h₁, hbegun₁, -⟩ := h.turn hF place
    obtain ⟨γ', hγ', hbegun⟩ := ih h₁
    refine ⟨γ', hγ', fun n => ?_⟩
    rw [hbegun, hbegun₁, Option.or_assoc, Schedule.begins]
    split <;> simp

end Ruled

end

end Workflow
