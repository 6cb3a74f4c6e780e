import Mathlib.Data.List.Chain
import Workflow.Proofs.Run.Life

/-!
# Histories

A history lists the visits of a run in order, and is only ever continued.

**In order** (`Instance.Chronicled`). The first visit is that of the initial state. Each visit but
the last was left at the moment at which the next one began; the last one is open, whatever the
status, and is that of the occupied state.

**Continued** (`Continues`). An operation leaves the history as it is, or closes its last visit and
adds others.

Main result: `history_chronicled`. A move closes the last visit and opens the next with one clock
reading, and failing touches no visit, so an entry hook that fails leaves a history that already
has the new state, in order as any other.
-/

namespace Workflow

open Activity Instance

variable {d : Definition} {i j k : Instance} {event : Value}

/-- The history is in order and ends with the occupied state; an error stands for a failed run. -/
structure Instance.Chronicled (d : Definition) (i : Instance) : Prop where
  first : ∃ v, i.history.head? = some v ∧ v.state = d.initial ∧ v.event = .null ∧
    v.transition = .null
  last : ∃ v, i.history.getLast? = some v ∧ v.leftAt = none ∧ v.state = i.current
  chained : i.history.IsChain fun u v => u.leftAt = some v.enteredAt
  error : i.error.isSome ↔ i.status = .failed

/-- The second history is the first, or the first with its last visit closed and others added. -/
def Continues (before after : List Visit) : Prop :=
  after = before ∨ ∃ earlier v moment added, before = earlier ++ [v] ∧ v.leftAt = none ∧
    after = earlier ++ { v with leftAt := some moment } :: added ∧ added ≠ []

/-- In a history in order, every visit but the last is closed. -/
theorem closed_of_chained {h : List Visit}
    (hc : h.IsChain fun u v => u.leftAt = some v.enteredAt) :
    ∀ v ∈ h.dropLast, v.leftAt ≠ none := by
  induction h with
  | nil => nofun
  | cons u rest ih =>
    cases rest with
    | nil => nofun
    | cons v rest =>
      obtain ⟨huv, hrest⟩ := List.isChain_cons_cons.1 hc
      intro w hw
      rcases List.mem_cons.1 hw with rfl | hw
      · rw [huv]
        nofun
      · exact ih hrest w hw

/-! ## One move -/

theorem closeLast_append (moment : String) (earlier : List Visit) {v : Visit}
    (h : v.leftAt = none) :
    closeLast moment (earlier ++ [v]) = earlier ++ [{ v with leftAt := some moment }] := by
  rw [closeLast_append_cons]
  simp [closeLast, Visit.isOpen, h]

theorem Instance.Chronicled.split (h : i.Chronicled d) :
    ∃ earlier v, i.history = earlier ++ [v] ∧ v.leftAt = none := by
  obtain ⟨v, hv, ho, -⟩ := h.last
  exact ⟨_, v, (List.dropLast_append_getLast? v hv).symm, ho⟩

/-- What a move does to a history that ends with an open visit. -/
theorem Instance.moved_history (i : Instance) (t : Transition) (target : State) (event : Value)
    (moment : String) {earlier : List Visit} {v : Visit} (hi : i.history = earlier ++ [v])
    (ho : v.leftAt = none) :
    (i.moved t target event moment).history = earlier ++ [{ v with leftAt := some moment },
      { state := target.id, enteredAt := moment, transition := t.id, event }] := by
  unfold Instance.moved
  rw [hi, closeLast_append moment earlier ho, List.append_assoc]
  rfl

theorem Instance.Moves.history (hm : Moves d i event j) {earlier : List Visit} {v : Visit}
    (hi : i.history = earlier ++ [v]) (ho : v.leftAt = none) :
    ∃ new, j.history = earlier ++ [{ v with leftAt := some new.enteredAt }, new] ∧
      new.leftAt = none ∧ new.state = j.current := by
  obtain ⟨moment, -, -, -, -, -, -⟩ := hm
  next target t =>
  let new : Visit := { state := target.id, enteredAt := moment, transition := t.id, event }
  exact ⟨new, i.moved_history t target event moment hi ho, rfl, rfl⟩

theorem Instance.Moves.error (hm : Moves d i event j) :
    i.status = .running ∧ j.error = i.error := by
  obtain ⟨-, hr, -, -, -, -, -⟩ := hm
  exact ⟨hr, rfl⟩

theorem Instance.Chronicled.moves {d' : Definition} (hm : Moves d' i event j)
    (h : i.Chronicled d) : j.Chronicled d := by
  obtain ⟨earlier, v, hi, ho⟩ := h.split
  obtain ⟨new, hj, hopen, hstate⟩ := hm.history hi ho
  constructor
  · obtain ⟨u, hu, hfirst⟩ := h.first
    rw [hi] at hu
    rw [hj]
    -- The first visit may be the one that is closed.
    cases earlier with
    | nil =>
      cases hu
      exact ⟨_, rfl, hfirst⟩
    | cons w rest => exact ⟨u, hu, hfirst⟩
  · rw [hj]
    exact ⟨new, by simp, hopen, hstate⟩
  · have hchain := h.chained
    rw [hi] at hchain
    rw [hj]
    obtain ⟨hearlier, -, hlink⟩ := List.isChain_append.1 hchain
    refine List.isChain_append.2 ⟨hearlier, List.isChain_pair.2 rfl, ?_⟩
    intro u hu w hw
    cases hw
    exact hlink u hu v rfl
  · obtain ⟨hr, he⟩ := hm.error
    have herror := h.error
    rw [hr] at herror
    rw [he, herror]
    exact ⟨nofun, fun hj => absurd hj hm.status_ne⟩

theorem Instance.Chronicled.failed (h : i.Chronicled d) (e : Failure) :
    (i.failed e).Chronicled d :=
  ⟨h.first, h.last, h.chained, fun _ => rfl, fun _ => rfl⟩

theorem Instance.Chronicled.fresh (c : Context) (id moment : String) :
    (d.fresh c id moment).Chronicled d := by
  refine ⟨⟨_, rfl, rfl, rfl, rfl⟩, ⟨_, rfl, rfl, rfl⟩, List.isChain_singleton _, nofun, ?_⟩
  intro h
  unfold Definition.fresh at h
  dsimp only at h
  split at h
  · split at h <;> cases h
  · cases h

theorem Instance.Chronicled.recontext (h : i.Chronicled d) (c : Context) :
    Instance.Chronicled d { i with ctx := c } :=
  ⟨h.first, h.last, h.chained, h.error⟩

/-- Every snapshot that is reached has its history in order. -/
theorem Definition.Reaches.chronicled (h : d.Reaches i) : i.Chronicled d :=
  h.keeps Chronicled.fresh (fun hm hi => hi.moves hm) (fun e _ hi => hi.failed e)
    (fun c hi => hi.recontext c)

/-! ## Operations -/

/-- A move continues whatever the history before it continues: it closes the visit that was added
last. -/
theorem Continues.moves {before : List Visit} (hm : Moves d i event j) (hi : i.Chronicled d)
    (hc : Continues before i.history) : Continues before j.history := by
  obtain ⟨earlier, v, hsplit, ho⟩ := hi.split
  obtain ⟨new, hj, -, -⟩ := hm.history hsplit ho
  rcases hc with heq | ⟨earlier', v', moment, added, hbefore, ho', hadded, hne⟩
  · exact .inr ⟨earlier, v, new.enteredAt, [new], heq ▸ hsplit, ho, hj, by simp⟩
  · obtain ⟨added', u, rfl⟩ := (List.eq_nil_or_concat' added).resolve_left hne
    have hlast : earlier' ++ { v' with leftAt := some moment } :: added' ++ [u] =
        earlier ++ [v] := by
      rw [← hsplit, hadded, List.append_assoc, List.cons_append]
    obtain ⟨rfl, -⟩ := List.append_inj' hlast rfl
    refine .inr ⟨earlier', v', moment, added' ++ [{ v with leftAt := some new.enteredAt }, new],
      hbefore, ho', ?_, by simp⟩
    rw [hj, List.append_assoc, List.cons_append]

theorem Instance.Operation.continues (ho : i.Operation d j) (hi : i.Chronicled d) :
    Continues i.history j.history := by
  have h : j.Chronicled d ∧ Continues i.history j.history :=
    ho.keeps (P := fun k => k.Chronicled d ∧ Continues i.history k.history)
      (fun hm h => ⟨h.1.moves hm, h.2.moves hm h.1⟩) (fun e _ h => ⟨h.1.failed e, h.2⟩)
      (fun c h => ⟨h.1.recontext c, h.2⟩) ⟨hi, .inl rfl⟩
  exact h.2

/-- **Histories are in order and only ever continued.** -/
theorem history_chronicled (h : d.Reaches i) :
    i.Chronicled d ∧ (∀ v ∈ i.history.dropLast, v.leftAt ≠ none) ∧
      ∀ j, i.Operation d j → Continues i.history j.history :=
  ⟨h.chronicled, closed_of_chained h.chronicled.chained, fun _ ho => ho.continues h.chronicled⟩

/-! ## A move that is recorded and then fails -/

/-- A door that jams when it has been shut. Its open state has another id than its key. -/
def jammingDoor : Definition where
  id := .text "door"
  initial := "open"
  states := Dict.ofList [
    ("open", { id := "ajar", transitions := [{ target := .text "shut", event := .text "push" }] }),
    ("shut", { id := "shut", onEnter := some ⟨"latch", fun _ => .fail (.runtime "jammed")⟩ })]

/-- A world whose clock stands still. -/
def stoppedAt (micros : Int) : Environment := { clock := { reading := fun _ => ⟨micros⟩ } }

/-- The door as it is found. -/
def doorOpen : Instance := jammingDoor.fresh ⟨0, .null⟩ "front door" (Instant.text ⟨0⟩)

/-- The door after a push: the visit of the shut state is there, and the run has failed. -/
def doorJammed : Instance :=
  { doorOpen with
    current := "shut"
    history := [
      { state := "open", enteredAt := Instant.text ⟨0⟩, leftAt := some (Instant.text ⟨7⟩) },
      { state := "shut", enteredAt := Instant.text ⟨7⟩, event := .text "push" }]
    status := .failed
    error := some (.runtime "jammed") }

theorem history_chronicled_door :
    jammingDoor.Reaches doorOpen ∧ doorOpen.Chronicled jammingDoor ∧
      doorOpen.Operation jammingDoor doorJammed ∧ Continues doorOpen.history doorJammed.history ∧
      jammingDoor.Reaches doorJammed ∧ doorJammed.Chronicled jammingDoor := by
  have hstart : ((jammingDoor.start ⟨0, .null⟩ (some "front door")).run (stoppedAt 0)).answer =
      .ok doorOpen := rfl
  have hsend : ((doorOpen.send jammingDoor {} "push").run (stoppedAt 7)).answer =
      .ok ⟨doorJammed, false⟩ := rfl
  have hopen : jammingDoor.Reaches doorOpen := .start (hstart ▸ canEnd_run _ _)
  have hpush : doorOpen.Operation jammingDoor doorJammed := .send (hsend ▸ canEnd_run _ _)
  have hjammed : jammingDoor.Reaches doorJammed := hopen.step hpush
  exact ⟨hopen, (history_chronicled hopen).1, hpush, (history_chronicled hopen).2.2 _ hpush,
    hjammed, (history_chronicled hjammed).1⟩

end Workflow
