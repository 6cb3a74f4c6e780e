import Workflow.Proofs.Schedule.Waiting

/-!
# Calls that come too late

A fact about the world has come true for good. Calls that have not got their lock by then find that
out, and do nothing else.

**Idling** (`Activity.Idles`). Wherever the fact holds, the activity only looks about, takes locks
and gives them back, and it has one answer. It changes nothing, reports nothing and does not pause.

**Gates** (`Activity.Gated`). A call looks about once before it asks for its lock, and behind the
lock it idles. So it makes no difference whether it looked before the fact came true.

**Late calls** (`Schedule.Late`). Whatever a schedule has left of the call idles. This stays so, and
its turns are of no consequence (`Schedule.Late.idle`).

Main results: `Schedule.late_of_not_mem_takers`, `Schedule.Late.turns`.
-/

namespace Workflow

open Activity

variable {R : Realm} {α β : Type}

namespace Activity

/-! ## Idling -/

/-- In worlds of `I` the activity does nothing but look about, take locks and give them back, and
has the answer `r`. -/
def Idles (I : R.World → Prop) (r : Except Failure α) : Activity R α → Prop
  | .done a => r = .ok a
  | .fail e => r = .error e
  | .look k => ∀ w, I w → (k w).Idles I r
  | .update f next => (∀ w, I w → f w = w) ∧ next.Idles I r
  | .report _ _ | .pause _ => False
  | .acquire _ next | .release _ next => next.Idles I r

/-- The call looks about once. It fails at once, but not in a world of `I`, or it asks for the lock
and idles from there. -/
def Gated (I : R.World → Prop) (key : R.Key) (r : Except Failure α) (t : Activity R α) : Prop :=
  ∃ k, t = .look k ∧
    ∀ w, (¬ I w ∧ ∃ f, k w = .fail f) ∨ ∃ q, k w = .acquire key q ∧ q.Idles I r

section Idles

variable {I : R.World → Prop} {key : R.Key} {r : Except Failure α} {a : α} {e : Failure}
  {t : Activity R α}

theorem Idles.attempt {g : Except Failure α → Activity R β} {r' : Except Failure β}
    (ht : t.Idles I r) (hg : (g r).Idles I r') : (t.attempt.bind g).Idles I r' := by
  induction t with
  | done a => cases ht; exact hg
  | fail e => cases ht; exact hg
  | look k ih => exact fun w hw => ih w (ht w hw)
  | update f next ih => exact ⟨ht.1, ih ht.2⟩
  | report r next ih => exact ht.elim
  | pause k ih => exact ht.elim
  | acquire key next ih => exact ih ht
  | release key next ih => exact ih ht

theorem Idles.bind {g : α → Activity R β} {r' : Except Failure β} (ht : t.Idles I (.ok a))
    (hg : (g a).Idles I r') : (t.bind g).Idles I r' := by
  induction t with
  | done b => cases ht; exact hg
  | fail e => cases ht
  | look k ih => exact fun w hw => ih w (ht w hw)
  | update f next ih => exact ⟨ht.1, ih ht.2⟩
  | report r next ih => exact ht.elim
  | pause k ih => exact ht.elim
  | acquire key next ih => exact ih ht
  | release key next ih => exact ih ht

theorem Idles.bind_error {g : α → Activity R β} (ht : t.Idles I (.error e)) :
    (t.bind g).Idles I (.error e) := by
  induction t with
  | done b => cases ht
  | fail e => cases ht; rfl
  | look k ih => exact fun w hw => ih w (ht w hw)
  | update f next ih => exact ⟨ht.1, ih ht.2⟩
  | report r next ih => exact ht.elim
  | pause k ih => exact ht.elim
  | acquire key next ih => exact ih ht
  | release key next ih => exact ih ht

theorem Idles.locked (ht : t.Idles I r) : (locked key t).Idles I r := by
  refine Idles.attempt ht ?_
  cases r <;> rfl

theorem Gated.asks (ht : t.Gated I key r) : t.Asks key (·.Idles I r) := by
  obtain ⟨k, rfl, hk⟩ := ht
  exact ⟨k, rfl, fun w => (hk w).imp_left And.right⟩

theorem Gated.idles (ht : t.Gated I key r) : t.Idles I r := by
  obtain ⟨k, rfl, hk⟩ := ht
  intro w hw
  rcases hk w with ⟨hno, -⟩ | ⟨q, hq, hidles⟩
  · exact absurd hw hno
  · rw [hq]
    exact hidles

/-- What comes after a call comes behind its gate. -/
theorem Gated.bind {g : α → Activity R β} {r' : Except Failure β} (ht : t.Gated I key r)
    (hg : ∀ q : Activity R α, q.Idles I r → (q.bind g).Idles I r') :
    (t.bind g).Gated I key r' := by
  obtain ⟨k, rfl, hk⟩ := ht
  refine ⟨fun w => (k w).bind g, rfl, fun w => ?_⟩
  dsimp only
  rcases hk w with ⟨hno, f, hf⟩ | ⟨q, hq, hidles⟩
  · exact .inl ⟨hno, f, by rw [hf]; rfl⟩
  · exact .inr ⟨q.bind g, by rw [hq]; rfl, hg q hidles⟩

theorem Gated.map (f : α → β) (ht : t.Gated I key r) :
    (t.bind fun a => .done (f a)).Gated I key (r.map f) := by
  refine ht.bind fun q hq => ?_
  cases r with
  | ok a => exact hq.bind rfl
  | error e => exact hq.bind_error

end Idles

end Activity

namespace Schedule

variable [DecidableEq R.Key] {s s' : Schedule R α} {n place : Nat} {t : Activity R α}
  {r : Except Failure α} {I : R.World → Prop} {key : R.Key}

/-! ## After the fact -/

/-- Whatever is left of activity `n` idles. -/
structure Late (I : R.World → Prop) (r : Except Failure α) (n : Nat) (s : Schedule R α) :
    Prop where
  ready : ∀ t, (n, t) ∈ s.ready → t.Idles I r
  waiting : ∀ key t, (key, n, t) ∈ s.waiting → t.Idles I r

/-- **A call that has not got its lock is late**, whenever it began. -/
theorem late_of_not_mem_takers {w : R.World} {calls : List (Activity R α)} {call : Activity R α}
    (hcall : call.Gated I key r) (hn : calls[n]? = some call) (places : List Nat)
    (htakers : n ∉ ((Schedule.start w calls).turns places).takers key) :
    Late I r n ((Schedule.start w calls).turns places) := by
  have hstart : Waits key (·.Idles I r) call n (Schedule.start w calls) := waits_start hn
  have hwaits := hstart.turns hcall.asks places
  rcases hwaits with htaken | ⟨hready, hwaiting⟩
  · exact absurd (mem_takers.2 htaken) htakers
  · exact ⟨fun t ht => hready t ht ▸ hcall.idles, fun key' q hq => (hwaiting key' q hq).2⟩

omit [DecidableEq R.Key] in
theorem Late.aside (h : Late I r n s) (h' : Aside n s s') : Late I r n s' where
  ready t ht := by
    rcases h'.ready t ht with ht | ⟨key, ht, -⟩
    · exact h.ready t ht
    · exact h.waiting key t ht
  waiting key t ht := h.waiting key t (h'.waiting key t ht)

/-- A turn of activity `n` from `s` to `s'` is of no consequence but for locks: it ends with the
answer `r` or has to wait. -/
structure IdleTurn (r : Except Failure α) (n : Nat) (s s' : Schedule R α) : Prop where
  world : s'.world = s.world
  reported : s'.reported = s.reported
  ends : s'.finished = (n, r) :: s.finished ∨
    s'.finished = s.finished ∧ ∃ key t, (key, n, t) ∈ s'.waiting

theorem Late.advance (h : Late I r n s) (ht : t.Idles I r) (hw : I s.world) :
    Late I r n (advance n t s) ∧ IdleTurn r n s (advance n t s) := by
  induction t generalizing s with
  | done a => cases ht; exact ⟨{ h with }, rfl, rfl, .inl rfl⟩
  | fail e => cases ht; exact ⟨{ h with }, rfl, rfl, .inl rfl⟩
  | look k ih => exact ih s.world h (ht s.world hw) hw
  | update f next ih =>
    have hsame : { s with world := f s.world } = s := by rw [ht.1 s.world hw]
    show Late I r n (Schedule.advance n next { s with world := f s.world }) ∧
      IdleTurn r n s (Schedule.advance n next { s with world := f s.world })
    rw [hsame]
    exact ih h ht.2 hw
  | report r next ih => exact ht.elim
  | pause k ih => exact ht.elim
  | acquire key next ih =>
    unfold Schedule.advance
    split
    · have hmem : (key, n, next) ∈ s.waiting ++ [(key, n, next)] :=
        List.mem_append_right _ List.mem_cons_self
      refine ⟨{ h with waiting := fun key' q hq => ?_ }, rfl, rfl, .inr ⟨rfl, key, next, hmem⟩⟩
      rcases List.mem_append.1 hq with hq | hq
      · exact h.waiting key' q hq
      · cases List.mem_singleton.1 hq
        exact ht
    · obtain ⟨hlate, hturn⟩ :=
        ih (s := { s with held := key :: s.held, taken := (key, n) :: s.taken }) { h with } ht hw
      exact ⟨hlate, { hturn with }⟩
  | release key next ih =>
    have hsame := giveBack_same key s
    obtain ⟨hlate, hturn⟩ := ih (h.aside (aside_giveBack n key s)) ht (hsame.1.symm ▸ hw)
    refine ⟨hlate, hturn.world.trans hsame.1, hturn.reported.trans hsame.2.1, ?_⟩
    rw [← hsame.2.2]
    exact hturn.ends

/-- **A turn of a late call is of no consequence.** -/
theorem Late.idle (h : Late I r n s) (hw : I s.world) (hn : s.next? place = some n) :
    Late I r n (s.turn place) ∧ IdleTurn r n s (s.turn place) := by
  obtain ⟨t, hplace, heq⟩ := turn_of_next hn
  rw [heq]
  have herase : Late I r n { s with ready := s.ready.eraseIdx place } :=
    { h with ready := fun t ht => h.ready t (List.mem_of_mem_eraseIdx ht) }
  obtain ⟨hlate, hturn⟩ := herase.advance (h.ready t (List.mem_of_getElem? hplace)) hw
  exact ⟨hlate, { hturn with }⟩

theorem Late.turn (h : Late I r n s) (hw : I s.world) (place : Nat) :
    Late I r n (s.turn place) ∧
      ∀ a, (n, a) ∈ (s.turn place).finished → (n, a) ∈ s.finished ∨ a = r := by
  by_cases hn : s.next? place = some n
  · obtain ⟨hlate, hturn⟩ := h.idle hw hn
    refine ⟨hlate, fun a ha => ?_⟩
    rcases hturn.ends with heq | ⟨heq, -⟩ <;> rw [heq] at ha
    · rcases List.mem_cons.1 ha with ha | ha
      · exact .inr (congrArg Prod.snd ha)
      · exact .inl ha
    · exact .inl ha
  · exact ⟨h.aside (aside_turn hn), fun a ha => .inl ((aside_turn hn).finished a ha)⟩

/-- **A late call stays late, and has only one answer**, if the fact stays true. -/
theorem Late.turns (h : Late I r n s) (hw : ∀ places, I (s.turns places).world)
    (places : List Nat) :
    Late I r n (s.turns places) ∧
      ∀ a, (n, a) ∈ (s.turns places).finished → (n, a) ∈ s.finished ∨ a = r := by
  induction places generalizing s with
  | nil => exact ⟨h, fun a ha => .inl ha⟩
  | cons place rest ih =>
    obtain ⟨hlate, hended⟩ := h.turn (hw []) place
    obtain ⟨hlate', hended'⟩ := ih hlate fun places => hw (place :: places)
    exact ⟨hlate', fun a ha => (hended' a ha).elim (hended a) .inr⟩

end Schedule

end Workflow
