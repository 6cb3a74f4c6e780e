import Workflow.Proofs.Run.Readings
import Workflow.Proofs.Time.Order

/-!
# Histories sort as text

On a clock that goes forward, the timestamps of a history are in the order of time when they are
compared as texts, and so are the first timestamps of two runs.

**The clock** (`Clock.Advances`). Each reading is after the one before it and can be written. This
is asked of the readings taken so far: no clock goes forward forever within the years of four
digits.

**Beginnings** (`LivesFrom.first`). The first visit keeps the moment that the start gave it.

Main result: `timestamps_sorted`. The order of the readings comes from `Instance.Numbered`, and the
order of their texts from `Instant.text_lt_text_iff`.
-/

namespace Workflow

open Activity Instance

/-! ## The clock -/

/-- The readings so far can be written, and each is after the one before it. -/
structure Clock.Advances (c : Clock) : Prop where
  writable : ∀ n < c.taken, (c.reading n).Writable
  later : ∀ n, n + 1 < c.taken → (c.reading n).micros < (c.reading (n + 1)).micros

theorem Clock.Advances.micros_lt {c : Clock} {m n : Nat} (h : c.Advances) (hlt : m < n)
    (hn : n < c.taken) : (c.reading m).micros < (c.reading n).micros := by
  induction hlt with
  | refl => exact h.later m hn
  | @step n _ ih => exact Int.lt_trans (ih (Nat.lt_of_succ_lt hn)) (h.later n hn)

/-- **Later readings have greater texts.** -/
theorem Clock.Advances.text_lt {c : Clock} {m n : Nat} (h : c.Advances) (hlt : m < n)
    (hn : n < c.taken) : (c.reading m).text < (c.reading n).text :=
  (Instant.text_lt_text_iff (h.writable m (Nat.lt_trans hlt hn)) (h.writable n hn)).2
    (h.micros_lt hlt hn)

/-! ## Lives from their beginning -/

variable {d : Definition} {i j : Instance} {before after e e' : Environment} {event : Value}
  {others : Environment → Environment → Prop}

namespace Definition.LivesFrom

/-- The clock has been read since the start, and by others perhaps. -/
theorem later (h : d.LivesFrom Environment.Later before after i e) :
    Environment.Later after e := by
  have harena : ∀ n a (e : Environment), Environment.Later e (e.setArena n a) :=
    fun _ _ _ => ⟨rfl, Nat.le_refl _⟩
  have htick : ∀ e : Environment, Environment.Later e e.tick := fun _ => ⟨rfl, Nat.le_succ _⟩
  induction h with
  | start => exact .refl _
  | settle _ h ih =>
    exact ih.trans ((settle_alters (harena _) htick).endsAmid (fun _ _ h => h) .refl .trans h)
  | send _ h ih =>
    exact ih.trans ((send_alters (harena _) htick ..).endsAmid (fun _ _ h => h) .refl .trans h)
  | recontext _ _ ih => exact ih
  | wait _ hw ih => exact ih.trans hw

/-- The start read the clock once. -/
theorem started (h : d.LivesFrom others before after i e) : before.tick.Later after := by
  induction h with
  | start h =>
    have hclock := (Definition.start_reading h).1
    exact ⟨congrArg (·.reading) hclock, Nat.le_of_eq (congrArg (·.taken) hclock).symm⟩
  | settle _ _ ih => exact ih
  | send _ _ ih => exact ih
  | recontext _ _ ih => exact ih
  | wait _ _ ih => exact ih

/-! ## Beginnings -/

/-- **The first visit keeps the moment of the start.** -/
theorem first (h : d.LivesFrom others before after i e) :
    ∃ v, i.history.head? = some v ∧ v.enteredAt = before.clock.now.text := by
  have hfirst : (i.history.map (·.enteredAt)).head? = some before.clock.now.text := by
    refine h.invariant (P := fun i => (i.history.map (·.enteredAt)).head? = _) (fun _ _ => rfl)
      (fun hm hi => ?_) (fun _ hi => hi) (fun _ hi => hi)
    obtain ⟨moment, -, -, -, -, -, -⟩ := hm
    rw [Numbered.moved_entered, List.head?_append, hi]
    rfl
  rw [List.head?_map] at hfirst
  exact Option.map_eq_some_iff.1 hfirst

end Definition.LivesFrom

/-! ## Sorted histories -/

/-- As texts, the visits began one after the other, and each was left after it had begun. -/
structure Instance.Sorted (i : Instance) : Prop where
  entered : (i.history.map (·.enteredAt)).Pairwise (· < ·)
  left : ∀ v ∈ i.history, ∀ moment, v.leftAt = some moment → v.enteredAt < moment

/-- A visit is left when the next one begins. -/
theorem enteredAt_lt_left {visits : List Visit}
    (hentered : (visits.map (·.enteredAt)).Pairwise (· < ·))
    (hchain : visits.IsChain fun u v => u.leftAt = some v.enteredAt)
    (hlast : ∀ v, visits.getLast? = some v → v.leftAt = none) :
    ∀ v ∈ visits, ∀ moment, v.leftAt = some moment → v.enteredAt < moment := by
  induction visits with
  | nil => nofun
  | cons u rest ih =>
    cases rest with
    | nil =>
      intro v hv moment hleft
      cases List.mem_singleton.1 hv
      rw [hlast u rfl] at hleft
      cases hleft
    | cons w rest =>
      obtain ⟨hlink, hchain⟩ := List.isChain_cons_cons.1 hchain
      obtain ⟨hfirst, hrest⟩ := List.pairwise_cons.1 hentered
      intro v hv moment hleft
      rcases List.mem_cons.1 hv with rfl | hv
      · cases hlink.symm.trans hleft
        exact hfirst w.enteredAt List.mem_cons_self
      · exact ih hrest hchain (fun v hv => hlast v (List.getLast?_cons_cons.trans hv)) v hv moment
          hleft

theorem Definition.LivesFrom.sorted (h : d.LivesFrom Environment.Later before after i e)
    (hclock : e.clock.Advances) : i.Sorted := by
  obtain ⟨numbers, hnumbers⟩ := h.numbered
  have hentered : (i.history.map (·.enteredAt)).Pairwise (· < ·) := by
    rw [hnumbers.entered, List.pairwise_map]
    exact hnumbers.increasing.imp_of_mem fun _ hn hlt => hclock.text_lt hlt (hnumbers.taken _ hn)
  obtain ⟨last, hlast, hopen, -⟩ := h.chronicled.last
  refine ⟨hentered, enteredAt_lt_left hentered h.chronicled.chained fun v hv => ?_⟩
  cases hlast.symm.trans hv
  exact hopen

/-- **Timestamps sort as text the way they sort in time**, in a history and in the beginnings of
two runs. -/
theorem timestamps_sorted (hi : d.LivesFrom Environment.Later before after i e)
    (hclock : e.clock.Advances) :
    i.Sorted ∧ ∀ {d' : Definition} {before' after' e' : Environment} {j : Instance},
      after.Later before' → d'.LivesFrom Environment.Later before' after' j e' →
        e'.clock.Advances →
          ∃ v w, i.history.head? = some v ∧ j.history.head? = some w ∧
            v.enteredAt < w.enteredAt := by
  refine ⟨hi.sorted hclock, fun {d' before' after' e' j} hlater hj hclock' => ?_⟩
  obtain ⟨v, hv, hvat⟩ := hi.first
  obtain ⟨w, hw, hwat⟩ := hj.first
  refine ⟨v, w, hv, hw, ?_⟩
  -- The reading that each start took, told by the clock at the end of the second run.
  have hfirst : before.tick.Later before' := hi.started.trans hlater
  have hsecond : before'.tick.Later e' := hj.started.trans hj.later
  have hbefore : before'.clock.reading = before.clock.reading := hfirst.reading
  have hbefore' : e'.clock.reading = before'.clock.reading := hsecond.reading
  rw [hvat, hwat]
  unfold Clock.now
  rw [← hbefore, ← hbefore']
  exact hclock'.text_lt hfirst.taken hsecond.taken

/-! ## Two runs over the turn of a year -/

/-- A memo that is checked and filed by itself once it has been handed in. -/
def memo : Definition where
  id := .text "memo"
  initial := "draft"
  states := Dict.ofList [
    ("draft", { id := "draft", transitions :=
      [{ target := .text "checked", event := .text "submit" }] }),
    ("checked", { id := "checked", kind := .auto, transitions := [{ target := .text "filed" }] }),
    ("filed", { id := "filed", kind := .terminal })]

/-- The last second of the year 2023, and every half second after it. -/
def newYearClock : Clock := .steady ⟨63839663999000000⟩ [500000]

def newYearDesk : Environment := { clock := newYearClock }

/-- A memo begun at the first reading. -/
def earlyMemo : Instance := memo.fresh ⟨0, .null⟩ "early" (newYearClock.reading 0).text

/-- A memo begun half a second after it. -/
def lateMemo : Instance := memo.fresh ⟨1, .null⟩ "late" (newYearClock.reading 1).text

/-- The early memo, handed in when the late one has been begun. -/
def earlyMemoFiled : Instance :=
  (earlyMemo.moved { target := .text "checked", event := .text "submit" }
    { id := "checked", kind := .auto } (.text "submit") (newYearClock.reading 2).text).moved
    { target := .text "filed" } { id := "filed", kind := .terminal } .null
    (newYearClock.reading 3).text

/-- Seconds with and without a fraction are compared, within a run and between the two. -/
theorem timestamps_sorted_memos :
    ∃ started begun e, memo.LivesFrom Environment.Later newYearDesk started earlyMemoFiled e ∧
      memo.LivesFrom Environment.Later started begun lateMemo e ∧ e.clock.Advances ∧
      earlyMemoFiled.Sorted ∧
      (∃ v w, earlyMemoFiled.history.head? = some v ∧ lateMemo.history.head? = some w ∧
        v.enteredAt < w.enteredAt) ∧
      earlyMemoFiled.history.map (·.enteredAt) = ["2023-12-31T23:59:59+00:00",
        "2024-01-01T00:00:00+00:00", "2024-01-01T00:00:00.500000+00:00"] ∧
      lateMemo.history.map (·.enteredAt) = ["2023-12-31T23:59:59.500000+00:00"] := by
  let begunEarly := (memo.start ⟨0, .null⟩ (some "early")).run newYearDesk
  let begunLate := (memo.start ⟨1, .null⟩ (some "late")).run begunEarly.world
  let filed := (earlyMemo.send memo {} "submit").run begunLate.world
  have hearly : begunEarly.answer = .ok earlyMemo := rfl
  have hlate : begunLate.answer = .ok lateMemo := rfl
  have hfiled : filed.answer = .ok ⟨earlyMemoFiled, true⟩ := rfl
  have hruns {α : Type} (t : Activity Realm.flow α) (e : Environment) :
      t.EndsAmid Environment.Later e (t.run e).answer (t.run e).world :=
    endsAmid_run Environment.Later.refl t e
  have hbetween : Environment.Later begunEarly.world begunLate.world := ⟨rfl, Nat.le_succ 1⟩
  have hafter : Environment.Later begunLate.world filed.world := ⟨rfl, Nat.le_add_right 2 2⟩
  have hfirst : memo.LivesFrom Environment.Later newYearDesk begunEarly.world earlyMemoFiled
      filed.world :=
    .send (.wait (.start (hearly ▸ hruns _ _)) hbetween) (hfiled ▸ hruns _ _)
  have hsecond : memo.LivesFrom Environment.Later begunEarly.world begunLate.world lateMemo
      filed.world :=
    .wait (.start (hlate ▸ hruns _ _)) hafter
  have hclock : filed.world.clock.Advances := by
    refine ⟨?_, fun n hn => ?_⟩
    · show ∀ n < 4, (newYearClock.reading n).Writable
      decide
    · have hall : ∀ n < 3,
          (newYearClock.reading n).micros < (newYearClock.reading (n + 1)).micros := by decide
      exact hall n (Nat.lt_of_succ_lt_succ hn)
  obtain ⟨hsorted, hbegun⟩ := timestamps_sorted hfirst hclock
  exact ⟨begunEarly.world, begunLate.world, filed.world, hfirst, hsecond, hclock, hsorted,
    hbegun (.refl _) hsecond hclock, by decide +kernel, by decide +kernel⟩

end Workflow
