import Workflow.Proofs.Schedule.Amid
import Workflow.Proofs.Schedule.Unbroken

/-!
# Standing back

Some endings of an activity mean that it has done nothing: it has looked at the world, and stood
back. Other turns may have come in between, and it may have waited for a lock.

**Standing back** (`Activity.StandsBack`). Up to an ending with `P` the activity reports nothing,
and changes the world within `G` only. Where it does more, it does not come to such an ending any
more, whatever others do.

Main result: `Schedule.stoodBack_turns`. If an activity has ended with `P`, then none of its turns,
among all those of others, has done more than `G`.
-/

namespace Workflow

open Activity

variable {R : Realm} {α : Type} {others G : R.World → R.World → Prop} {P : Except Failure α → Prop}

namespace Activity

/-- Whatever others do, the activity does not end with `P`. -/
def Never (others : R.World → R.World → Prop) (P : Except Failure α → Prop) (t : Activity R α)
    (w : R.World) : Prop :=
  ∀ r v, t.EndsAmid others w r v → ¬ P r

/-- Until it ends with `P` the activity stands back: it changes the world within `G` and reports
nothing, as long as it may come to such an ending. -/
def StandsBack (others G : R.World → R.World → Prop) (P : Except Failure α → Prop) :
    Activity R α → R.World → Prop
  | .done _, _ | .fail _, _ => True
  | .look k, w => (k w).StandsBack others G P w
  | .update f next, w =>
    G w (f w) ∧ next.StandsBack others G P (f w) ∨ next.Never others P (f w)
  | .report _ next, w => next.Never others P w
  | .pause k, w => ∀ s v, others w v → (k s).StandsBack others G P v
  | .acquire _ next, w => ∀ v, others w v → next.StandsBack others G P v
  | .release _ next, w => next.StandsBack others G P w

variable {t : Activity R α} {w : R.World}

/-- An activity that does not come to such an ending may do what it likes. -/
theorem Never.standsBack (h : t.Never others P w) : t.StandsBack others G P w := by
  induction t generalizing w with
  | done a => trivial
  | fail e => trivial
  | look k ih => exact ih w h
  | update f next ih => exact .inr h
  | report r next ih => exact h
  | pause k ih => exact fun s v hv => ih s fun r x hr => h r x ⟨s, v, hv, hr⟩
  | acquire key next ih => exact fun v hv => ih fun r x hr => h r x ⟨v, hv, hr⟩
  | release key next ih => exact ih h

/-- All that such work does is within the relation. -/
theorem Tacit.world (hG : Among G) (h : t.Tacit G w) : G w (t.run w).world := by
  induction t generalizing w with
  | done a => exact hG.refl w
  | fail e => exact hG.refl w
  | look k ih => exact ih w h
  | update f next ih => exact hG.trans h.1 (ih h.2)
  | report | pause | acquire | release => exact h.elim

/-- Work that does next to nothing stands back. -/
theorem Tacit.standsBack (h : t.Tacit G w) : t.StandsBack others G P w := by
  induction t generalizing w with
  | done a => trivial
  | fail e => trivial
  | look k ih => exact ih w h
  | update f next ih => exact .inl ⟨h.1, ih h.2⟩
  | report | pause | acquire | release => exact h.elim

section Sequences

variable {β : Type} {Q : Except Failure β → Prop}

/-- What comes after an answer or a failure, if it ends with `Q` only after an ending with `P`. -/
theorem StandsBack.attempt {g : Except Failure α → Activity R β} (h : t.StandsBack others G P w)
    (hback : ∀ r v, t.EndsAmid others w r v → (g r).StandsBack others G Q v)
    (hends : ∀ r v, t.EndsAmid others w r v → ¬ P r → (g r).Never others Q v) :
    (t.attempt.bind g).StandsBack others G Q w := by
  have hnever : ∀ {t : Activity R α} {w : R.World},
      (∀ r v, t.EndsAmid others w r v → ¬ P r → (g r).Never others Q v) →
      t.Never others P w → (t.attempt.bind g).Never others Q w := by
    intro t w hends ht r v h
    obtain ⟨x, u, hx, hg⟩ := EndsAmid.attempt h
    exact hends x u hx (ht x u hx) r v hg
  induction t generalizing w with
  | done a => exact hback _ _ ⟨rfl, rfl⟩
  | fail e => exact hback _ _ ⟨rfl, rfl⟩
  | look k ih => exact ih w h hback hends
  | update f next ih =>
    exact h.imp (fun ⟨hf, hnext⟩ => ⟨hf, ih hnext hback hends⟩) fun hnext => hnever hends hnext
  | report r next ih => exact hnever (t := next) hends h
  | pause k ih =>
    intro s v hv
    exact ih s (h s v hv) (fun r x hr => hback r x ⟨s, v, hv, hr⟩)
      fun r x hr => hends r x ⟨s, v, hv, hr⟩
  | acquire key next ih =>
    intro v hv
    exact ih (h v hv) (fun r x hr => hback r x ⟨v, hv, hr⟩) fun r x hr => hends r x ⟨v, hv, hr⟩
  | release key next ih => exact ih h hback hends

/-- What comes after an answer, where a failure with `Q` is one with `P`. -/
theorem StandsBack.bind {g : α → Activity R β} (h : t.StandsBack others G P w)
    (hback : ∀ a v, t.EndsAmid others w (.ok a) v → (g a).StandsBack others G Q v)
    (hends : ∀ a v, t.EndsAmid others w (.ok a) v → ¬ P (.ok a) → (g a).Never others Q v)
    (herror : ∀ f, Q (.error f) → P (.error f)) : (t.bind g).StandsBack others G Q w := by
  rw [bind_eq_attempt]
  refine h.attempt (fun r v hr => ?_) fun r v hr hP => ?_
  · cases r with
    | ok a => exact hback a v hr
    | error f => trivial
  · cases r with
    | ok a => exact hends a v hr hP
    | error f =>
      rintro r' v' ⟨rfl, -⟩ hQ
      exact hP (herror f hQ)

theorem StandsBack.locked {key : R.Key} (h : ∀ v, others w v → t.StandsBack others G P v) :
    (locked key t).StandsBack others G P w := by
  intro v hv
  refine (h v hv).attempt (fun r x _ => ?_) fun r x _ hP => ?_
  · cases r <;> trivial
  · rintro r' v' hr' hP'
    exact hP ((endsAmid_ofExcept.1 hr').1 ▸ hP')

end Sequences

end Activity

namespace Schedule

variable [DecidableEq R.Key] {s : Schedule R α} {t : Activity R α} {n place : Nat} {w : R.World}

/-- From one world on, what is left stands back, wherever others leave the world. -/
def BacksFrom (others G : R.World → R.World → Prop) (P : Except Failure α → Prop) (w : R.World)
    (t : Activity R α) : Prop :=
  ∀ v, others w v → t.StandsBack others G P v

/-- In a turn the activity has changed the world within `G` at most, and has reported nothing. -/
structure Idle (G : R.World → R.World → Prop) (s s' : Schedule R α) : Prop where
  world : G s.world s'.world
  reported : s'.reported = s.reported

/-- The activity cannot come to an ending with `P` any more. -/
def Barred (others : R.World → R.World → Prop) (P : Except Failure α → Prop) (n : Nat)
    (s : Schedule R α) : Prop :=
  ∃ t v, Led others t n v s ∧ t.Never others P v

omit [DecidableEq R.Key] in
theorem Out.left_any (h : Out n s) (Q : Activity R α → Prop) : s.Left n Q :=
  h.left.mono nofun

/-- **In its turn an activity stands back**, or does not come to an ending with `P` any more. -/
theorem stoodBack_advance (hamong : Among others) (hG : Among G) (hout : Out n s)
    (ht : t.StandsBack others G P s.world) :
    Idle G s (advance n t s) ∧
        (advance n t s).Left n (BacksFrom others G P (advance n t s).world) ∨
      Barred others P n (advance n t s) := by
  have hnone : ∀ Q, s.Left n Q := hout.left_any
  have hbarred : ∀ (u : Activity R α) (s' : Schedule R α), Out n s' → u.Never others P s'.world →
      Barred others P n (advance n u s') := by
    intro u s' hout' hu
    obtain ⟨hleft, hended⟩ := led_advance hamong hout' fun r x h => h
    exact ⟨u, _, ⟨hleft, fun r hr => ⟨_, hended r hr⟩⟩, hu⟩
  induction t generalizing s with
  | done a => exact .inl ⟨⟨hG.refl _, rfl⟩, (hnone _).same rfl rfl⟩
  | fail e => exact .inl ⟨⟨hG.refl _, rfl⟩, (hnone _).same rfl rfl⟩
  | look k ih => exact ih s.world hout ht hnone
  | update f next ih =>
    have hout' : Out n { s with world := f s.world } := hout.same rfl rfl rfl
    rcases ht with ⟨hf, hnext⟩ | hnever
    · have hrest := ih hout' hnext hout'.left_any
      exact hrest.imp_left fun h => ⟨⟨hG.trans hf h.1.world, h.1.reported⟩, h.2⟩
    · exact .inr (hbarred next _ hout' hnever)
  | report r next ih =>
    exact .inr (hbarred next { s with reported := r :: s.reported } (hout.same rfl rfl rfl) ht)
  | pause k ih => exact .inl ⟨⟨hG.refl _, rfl⟩, (hnone _).park fun v hv => ht .resume v hv⟩
  | acquire key next ih =>
    unfold advance
    split
    · exact .inl ⟨⟨hG.refl _, rfl⟩, (hnone _).wait key ht⟩
    · have hrest := ih (s := { s with held := key :: s.held, taken := (key, n) :: s.taken })
        (hout.same rfl rfl rfl) (ht _ (hamong.refl _)) fun Q => (hnone Q).same rfl rfl
      exact hrest.imp_left fun h => ⟨⟨h.1.world, h.1.reported⟩, h.2⟩
  | release key next ih =>
    obtain ⟨hworld, hreported, -⟩ := giveBack_same key s
    have hrest := ih (hout.giveBack key) (by rw [hworld]; exact ht) (hout.giveBack key).left_any
    refine hrest.imp_left fun h => ⟨⟨?_, ?_⟩, h.2⟩
    · exact hworld ▸ h.1.world
    · exact h.1.reported.trans hreported

/-- All turns of activity `n` among those at the given places were idle. -/
def AllIdle (G : R.World → R.World → Prop) (n : Nat) (s : Schedule R α) (places : List Nat) :
    Prop :=
  ∀ before place, before ++ [place] <+: places → (s.turns before).next? place = some n →
    Idle G (s.turns before) ((s.turns before).turn place)

theorem AllIdle.concat {places : List Nat} (h : AllIdle G n s places)
    (hplace : (s.turns places).next? place = some n →
      Idle G (s.turns places) ((s.turns places).turn place)) :
    AllIdle G n s (places ++ [place]) := by
  intro before place' hbefore hnext
  rcases List.prefix_concat_iff.1 hbefore with heq | hbefore
  · obtain ⟨rfl, hlast⟩ := List.append_inj' heq rfl
    cases hlast
    exact hplace hnext
  · exact h before place' hbefore hnext

variable {calls : List (Activity R α)} {call : Activity R α}

/-- **An activity that has ended with `P` has stood back in all its turns**, whatever others did in
between. -/
theorem stoodBack_turns (h : Keeping others w calls) (hG : Among G) (hn : calls[n]? = some call)
    {places : List Nat}
    (hcall : ∀ v, begins n places (start w calls) = some v → call.StandsBack others G P v)
    {r : Except Failure α} (hr : (n, r) ∈ ((start w calls).turns places).finished) (hP : P r) :
    AllIdle G n (start w calls) places := by
  have hwhole : AllIdle G n (start w calls) places ∧
        (begins n places (start w calls) ≠ none → ((start w calls).turns places).Left n
          (BacksFrom others G P ((start w calls).turns places).world)) ∨
      Barred others P n ((start w calls).turns places) := by
    clear hr
    induction places using List.reverseRecOn with
    | nil =>
      refine .inl ⟨fun before place hbefore => ?_, fun hbegun => absurd rfl hbegun⟩
      exact absurd (List.prefix_nil.1 hbefore) (by simp)
    | append_singleton places place ih =>
      have hfollowed := h.followed hn places
      rw [begins_concat] at hcall ⊢
      rw [turns_concat]
      have hbefore := ih fun v hv => hcall v (by rw [hv]; rfl)
      rcases hbefore with ⟨hidle, hleft⟩ | ⟨t, v, hled, hnever⟩
      rotate_left
      · exact .inr ⟨t, v, hled.turn h.among (h.nodup places) (h.turn places place), hnever⟩
      by_cases hnext : ((start w calls).turns places).next? place = some n
      · obtain ⟨t, hplace, heq⟩ := turn_of_next hnext
        have hready := List.mem_of_getElem? hplace
        have hback : t.StandsBack others G P ((start w calls).turns places).world := by
          cases hbegun : begins n places (start w calls) with
          | none =>
            rw [hbegun] at hfollowed
            cases hfollowed.left.ready t hready
            exact hcall _ (by rw [hbegun, if_pos hnext]; rfl)
          | some v =>
            have hbegun' : begins n places (start w calls) ≠ none := by rw [hbegun]; nofun
            exact (hleft hbegun').ready t hready _ (h.among.refl _)
        rw [heq]
        refine (stoodBack_advance h.among hG (out_of_next (h.nodup places) hplace) hback).imp_left
          fun ⟨hturn, hrest⟩ => ⟨hidle.concat fun _ => ?_, fun _ => hrest⟩
        rw [heq]
        exact ⟨hturn.world, hturn.reported⟩
      · refine .inl ⟨hidle.concat fun hn' => absurd hn' hnext, fun hbegun => ?_⟩
        rw [if_neg hnext, Option.or_none] at hbegun
        refine ((hleft hbegun).aside (aside_turn hnext)).mono fun t ht v hv => ht v ?_
        exact h.among.trans (h.turn places place) hv
  rcases hwhole with ⟨hidle, -⟩ | ⟨t, v, hled, hnever⟩
  · exact hidle
  · obtain ⟨x, hx⟩ := hled.ended r hr
    exact absurd hP (hnever r x hx)

end Schedule

end Workflow
