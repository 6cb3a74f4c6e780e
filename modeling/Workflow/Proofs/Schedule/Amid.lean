import Mathlib.Data.List.Induction
import Workflow.Proofs.Activity.Amid
import Workflow.Proofs.Schedule.Waiting

/-!
# Endings in a schedule

While an activity has its turn it has the world to itself, and between two of its turns others have
theirs. So if all turns lie within a relation, the activity ends as it can end amid others that keep
to this relation.

**What is left** (`Schedule.Left`). Between its turns an activity stands in one of the queues, with
what is left of it.

**Following a call** (`Schedule.Led`). What is left of a call, wherever the others leave the world,
ends as the whole call could from the world in which it began.

Main result: `Schedule.endsAmid_of_turn`. It carries what is known of the endings of one activity
over to all its interleavings with others.
-/

namespace Workflow

open Activity

variable {R : Realm} {α : Type} {others : R.World → R.World → Prop} {call t : Activity R α}
  {n place : Nat} {v w : R.World} {Q Q' : Activity R α → Prop}

/-- What is left of a call that began in `v`: wherever others leave the world, it ends as the call
could from its beginning. -/
def Activity.LeadsOn (others : R.World → R.World → Prop) (call : Activity R α) (v w : R.World)
    (t : Activity R α) : Prop :=
  ∀ u r x, others w u → t.EndsAmid others u r x → call.EndsAmid others v r x

/-- What others may do: anything that lies within a relation, one after the other. -/
structure Activity.Among (others : R.World → R.World → Prop) : Prop where
  refl : ∀ w, others w w
  trans : ∀ {w v u}, others w v → others v u → others w u

namespace Schedule

variable {s s' : Schedule R α}

/-! ## What is left of an activity -/

/-- What is left of activity `n` has a property. -/
structure Left (n : Nat) (Q : Activity R α → Prop) (s : Schedule R α) : Prop where
  ready : ∀ t, (n, t) ∈ s.ready → Q t
  waiting : ∀ key t, (key, n, t) ∈ s.waiting → Q t

theorem Left.mono (h : s.Left n Q) (hQ : ∀ t, Q t → Q' t) : s.Left n Q' :=
  ⟨fun t ht => hQ t (h.ready t ht), fun key t ht => hQ t (h.waiting key t ht)⟩

theorem Left.same (h : s.Left n Q) (hready : s'.ready = s.ready)
    (hwaiting : s'.waiting = s.waiting) : s'.Left n Q :=
  ⟨fun t ht => h.ready t (hready ▸ ht), fun key t ht => h.waiting key t (hwaiting ▸ ht)⟩

/-- Turns of others change nothing of it. -/
theorem Left.aside (h : s.Left n Q) (haside : Aside n s s') : s'.Left n Q := by
  refine ⟨fun t ht => ?_, fun key t ht => h.waiting key t (haside.waiting key t ht)⟩
  rcases haside.ready t ht with ht | ⟨key, ht, -⟩
  · exact h.ready t ht
  · exact h.waiting key t ht

theorem Left.park (h : s.Left n Q) (ht : Q t) :
    Left n Q { s with ready := s.ready ++ [(n, t)] } := by
  refine ⟨fun t' ht' => ?_, h.waiting⟩
  rcases List.mem_append.1 ht' with ht' | ht'
  · exact h.ready t' ht'
  · cases List.mem_singleton.1 ht'
    exact ht

theorem Left.wait (h : s.Left n Q) (key : R.Key) (ht : Q t) :
    Left n Q { s with waiting := s.waiting ++ [(key, n, t)] } := by
  refine ⟨h.ready, fun key' t' ht' => ?_⟩
  rcases List.mem_append.1 ht' with ht' | ht'
  · exact h.waiting key' t' ht'
  · cases List.mem_singleton.1 ht'
    exact ht

/-- The activity is not in any queue, and has not ended. -/
structure Out (n : Nat) (s : Schedule R α) : Prop where
  left : s.Left n fun _ => False
  ended : ∀ r, (n, r) ∉ s.finished

theorem Out.same (h : Out n s) (hready : s'.ready = s.ready) (hwaiting : s'.waiting = s.waiting)
    (hfinished : s'.finished = s.finished) : Out n s' :=
  ⟨h.left.same hready hwaiting, fun r hr => h.ended r (hfinished ▸ hr)⟩

/-- An activity that has its turn is out. -/
theorem out_of_next (hnodup : s.numbers.Nodup) (hplace : s.ready[place]? = some (n, t)) :
    Out n { s with ready := s.ready.eraseIdx place } := by
  have hout := (List.nodup_cons.1 ((numbers_take [] hplace).nodup_iff.2 hnodup)).1
  exact ⟨⟨fun _ ht => hout (mem_numbers_of_ready ht), fun _ _ ht => hout (mem_numbers_of_waiting ht)⟩,
    fun _ hr => hout (mem_numbers_of_finished hr)⟩

theorem Out.ended_cons (h : Out n s) {r r' : Except Failure α}
    (hr : (n, r') ∈ (n, r) :: s.finished) : r' = r := by
  rcases List.mem_cons.1 hr with heq | hr
  · cases heq
    rfl
  · exact absurd hr (h.ended r')

variable [DecidableEq R.Key]

theorem Out.giveBack (h : Out n s) (key : R.Key) : Out n (s.giveBack key) :=
  have haside := aside_giveBack n key s
  ⟨h.left.aside haside, fun r hr => h.ended r (haside.finished r hr)⟩

/-! ## Following a call -/

/-- Activity `n` has not begun. -/
structure Unbegun (call : Activity R α) (n : Nat) (s : Schedule R α) : Prop where
  left : s.Left n (· = call)
  ended : ∀ r, (n, r) ∉ s.finished

/-- Activity `n` began in the world `v`: what is left of it leads on, and if it has ended, then as
it could. -/
structure Led (others : R.World → R.World → Prop) (call : Activity R α) (n : Nat) (v : R.World)
    (s : Schedule R α) : Prop where
  left : s.Left n (LeadsOn others call v s.world)
  ended : ∀ r, (n, r) ∈ s.finished → ∃ x, call.EndsAmid others v r x

/-- **While the activity has its turn**, it goes one of the ways that it can go amid others; and if
it ends, then in the world as it is now. -/
theorem led_advance (hamong : Among others) (hout : Out n s)
    (ht : ∀ r x, t.EndsAmid others s.world r x → call.EndsAmid others v r x) :
    (advance n t s).Left n (LeadsOn others call v (advance n t s).world) ∧
      ∀ r, (n, r) ∈ (advance n t s).finished →
        call.EndsAmid others v r (advance n t s).world := by
  induction t generalizing s with
  | done a =>
    have hleft : Left n (LeadsOn others call v s.world) s := hout.left.mono nofun
    exact ⟨hleft.same rfl rfl, fun r hr => ht r _ ⟨hout.ended_cons hr, rfl⟩⟩
  | fail e =>
    have hleft : Left n (LeadsOn others call v s.world) s := hout.left.mono nofun
    exact ⟨hleft.same rfl rfl, fun r hr => ht r _ ⟨hout.ended_cons hr, rfl⟩⟩
  | look k ih => exact ih s.world hout ht
  | update f next ih =>
    exact ih (s := { s with world := f s.world }) (hout.same rfl rfl rfl) ht
  | report r next ih =>
    exact ih (s := { s with reported := r :: s.reported }) (hout.same rfl rfl rfl) ht
  | pause k ih =>
    refine ⟨(hout.left.mono nofun).park ?_, fun r hr => absurd hr (hout.ended r)⟩
    exact fun u r x hu h => ht r x ⟨.resume, u, hu, h⟩
  | acquire key next ih =>
    unfold advance
    split
    · refine ⟨(hout.left.mono nofun).wait key ?_, fun r hr => absurd hr (hout.ended r)⟩
      exact fun u r x hu h => ht r x ⟨u, hu, h⟩
    · exact ih (s := { s with held := key :: s.held, taken := (key, n) :: s.taken })
        (hout.same rfl rfl rfl) fun r x h => ht r x ⟨s.world, hamong.refl _, h⟩
  | release key next ih =>
    have hworld : (s.giveBack key).world = s.world := (giveBack_same key s).1
    exact ih (hout.giveBack key) (by rw [hworld]; exact ht)

theorem Led.turn (h : Led others call n v s) (hamong : Among others) (hnodup : s.numbers.Nodup)
    (hs : others s.world (s.turn place).world) : Led others call n v (s.turn place) := by
  by_cases hn : s.next? place = some n
  · obtain ⟨t, hplace, heq⟩ := turn_of_next hn
    rw [heq]
    have hlead := h.left.ready t (List.mem_of_getElem? hplace)
    obtain ⟨hleft, hended⟩ := led_advance hamong (out_of_next hnodup hplace) fun r x =>
      hlead s.world r x (hamong.refl _)
    exact ⟨hleft, fun r hr => ⟨_, hended r hr⟩⟩
  · have haside := aside_turn hn
    refine ⟨(h.left.aside haside).mono fun t hlead u r x hu => hlead u r x (hamong.trans hs hu), ?_⟩
    exact fun r hr => h.ended r (haside.finished r hr)

/-- From its first turn on an activity is followed. -/
theorem Unbegun.first (h : Unbegun call n s) (hamong : Among others) (hnodup : s.numbers.Nodup)
    (hn : s.next? place = some n) : Led others call n s.world (s.turn place) := by
  obtain ⟨t, hplace, heq⟩ := turn_of_next hn
  rw [heq]
  cases h.left.ready t (List.mem_of_getElem? hplace)
  obtain ⟨hleft, hended⟩ := led_advance hamong (out_of_next hnodup hplace) fun r x h => h
  exact ⟨hleft, fun r hr => ⟨_, hended r hr⟩⟩

/-- An activity has not begun, or is followed from the world in which it began. -/
def Followed (others : R.World → R.World → Prop) (call : Activity R α) (n : Nat)
    (s : Schedule R α) : Option R.World → Prop
  | none => Unbegun call n s
  | some v => Led others call n v s

/-- An activity begins in the world that turns before have left. -/
theorem world_of_begins {places : List Nat} (h : begins n places s = some v) :
    ∃ before, (s.turns before).world = v := by
  induction places generalizing s with
  | nil => cases h
  | cons place rest ih =>
    unfold begins at h
    split at h
    · cases h
      exact ⟨[], rfl⟩
    · obtain ⟨before, hbefore⟩ := ih h
      exact ⟨place :: before, hbefore⟩

variable {calls : List (Activity R α)}

/-- All turns of the activities lie within a relation, and no activity is anywhere twice. -/
structure Keeping (others : R.World → R.World → Prop) (w : R.World) (calls : List (Activity R α)) :
    Prop where
  among : Among others
  nodup : ∀ places, ((start w calls).turns places).numbers.Nodup
  turn : ∀ places place, others ((start w calls).turns places).world
    (((start w calls).turns places).turn place).world

theorem Keeping.followed (h : Keeping others w calls) (hn : calls[n]? = some call)
    (places : List Nat) :
    Followed others call n ((start w calls).turns places) (begins n places (start w calls)) := by
  induction places using List.reverseRecOn with
  | nil =>
    refine ⟨⟨fun t ht => ?_, nofun⟩, nofun⟩
    obtain ⟨⟨t', n'⟩, hmem, heq⟩ := List.mem_map.1 ht
    cases heq
    exact Option.some.inj ((List.mk_mem_zipIdx_iff_getElem?.1 hmem).symm.trans hn)
  | append_singleton places place ih =>
    rw [turns_concat, begins_concat]
    cases hbegun : begins n places (start w calls) with
    | some v =>
      rw [hbegun] at ih
      exact Led.turn ih h.among (h.nodup places) (h.turn places place)
    | none =>
      rw [hbegun] at ih
      rw [Option.none_or]
      split
      next hnext => exact Unbegun.first ih h.among (h.nodup places) hnext
      next hnext =>
        have haside := aside_turn hnext
        exact ⟨ih.left.aside haside, fun r hr => ih.ended r (haside.finished r hr)⟩

/-- **An activity that ends in a turn does so as it can amid others**, from the world in which it
began, and in the world that the turn leaves. -/
theorem Keeping.endsAmid_of_turn (h : Keeping others w calls) (hn : calls[n]? = some call)
    {places : List Nat} (hnext : ((start w calls).turns places).next? place = some n)
    {r : Except Failure α} (hr : (n, r) ∈ (((start w calls).turns places).turn place).finished) :
    ∃ v, begins n (places ++ [place]) (start w calls) = some v ∧
      call.EndsAmid others v r (((start w calls).turns places).turn place).world := by
  have hfollowed := h.followed hn places
  obtain ⟨t, hplace, heq⟩ := turn_of_next hnext
  have hout := out_of_next (h.nodup places) hplace
  have hready := List.mem_of_getElem? hplace
  rw [begins_concat, if_pos hnext]
  cases hbegun : begins n places (start w calls) with
  | none =>
    rw [hbegun] at hfollowed
    cases hfollowed.left.ready t hready
    rw [heq] at hr ⊢
    exact ⟨_, rfl, (led_advance h.among hout fun _ _ h => h).2 r hr⟩
  | some v =>
    rw [hbegun] at hfollowed
    have hlead := hfollowed.left.ready t hready
    rw [heq] at hr ⊢
    exact ⟨v, rfl, (led_advance h.among hout fun r x => hlead _ r x (h.among.refl _)).2 r hr⟩

end Schedule

end Workflow
