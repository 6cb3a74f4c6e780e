import Workflow.Proofs.Document.Keyed
import Workflow.Proofs.Run.History

/-!
# Histories as paths of the definition

In a well-keyed definition a history is a path: from each visit to the next leads a transition of
the state that was left, and it carries the id and the event that the next visit names
(`Definition.Links`).

The state that a move leaves is found under the id of the last visit, since a visit names the
occupied state; the state that it enters is stored under the id that the new visit names. That the
status tells whether the occupied state is terminal (`Instance.Placed`) is what keeps a path from
going on after a terminal state.
-/

namespace Workflow

open Activity Instance

variable {d : Definition} {i j : Instance} {event : Value}

/-- A transition leads from one visit to another. -/
def Definition.Links (d : Definition) (a b : Visit) : Prop :=
  ∃ s t, d.state? a.state = some s ∧ t ∈ s.transitions ∧ t.target = .text b.state ∧
    t.id = b.transition ∧ t.event = b.event ∧ (b.event = .null → s.kind = .auto) ∧
    s.kind ≠ .terminal

/-- The occupied state is known; a run that has not failed is completed in a terminal one only. -/
def Instance.Placed (d : Definition) (i : Instance) : Prop :=
  ∃ s, d.state? i.current = some s ∧
    (i.status = .completed ↔ i.status ≠ .failed ∧ s.kind = .terminal)

theorem Instance.Placed.fresh (hw : d.WellKeyed) (c : Context) (id moment : String) :
    (d.fresh c id moment).Placed d := by
  obtain ⟨s, hs⟩ := hw.initial
  refine ⟨s, hs, ?_⟩
  unfold Definition.fresh
  dsimp only
  rw [hs]
  by_cases hk : s.kind = .terminal <;> simp [State.isTerminal, hk]

theorem Instance.Placed.moves (hw : d.WellKeyed) (hm : Moves d i event j) : j.Placed d := by
  obtain ⟨moment, -, -, -, -, -, ht⟩ := hm
  next target _ =>
  obtain ⟨key, -, hkey⟩ := Definition.target?_some ht
  refine ⟨target, ?_, ?_⟩
  · show d.state? target.id = some target
    rw [hw.keyed hkey]
    exact hkey
  · unfold Instance.moved
    by_cases hk : target.kind = .terminal <;> simp [State.isTerminal, hk]

theorem Instance.Placed.failed (h : i.Placed d) (e : Failure) : (i.failed e).Placed d := by
  obtain ⟨s, hs, -⟩ := h
  exact ⟨s, hs, nofun, fun h => absurd rfl h.1⟩

/-- A state that a running instance occupies is not terminal. -/
theorem Instance.Placed.not_terminal (h : i.Placed d) (hr : i.status = .running) :
    ∃ s, d.state? i.current = some s ∧ s.kind ≠ .terminal := by
  obtain ⟨s, hs, hcompleted⟩ := h
  refine ⟨s, hs, fun hk => ?_⟩
  have hc := hcompleted.2 ⟨by rw [hr]; nofun, hk⟩
  rw [hr] at hc
  cases hc

/-! ## One move -/

/-- A move of a running instance leads from its last visit to the new one. -/
theorem Instance.Moves.links (hw : d.WellKeyed) (hp : i.Placed d) (hm : Moves d i event j)
    {earlier : List Visit} {v : Visit} (hi : i.history = earlier ++ [v]) (ho : v.leftAt = none)
    (hv : v.state = i.current) :
    ∃ left new, j.history = earlier ++ [left, new] ∧ d.Links left new ∧
      left.state = v.state ∧ left.transition = v.transition ∧ left.event = v.event := by
  obtain ⟨moment, hr, hs, hmem, he, hauto, ht⟩ := hm
  next source target t =>
  obtain ⟨key, htarget, hkey⟩ := Definition.target?_some ht
  obtain ⟨s, hs', hk⟩ := hp.not_terminal hr
  cases hs.symm.trans hs'
  refine ⟨_, _, i.moved_history t target event moment hi ho, ?_, rfl, rfl, rfl⟩
  refine ⟨source, t, ?_, hmem, ?_, rfl, he, hauto, hk⟩
  · show d.state? v.state = some source
    rw [hv]
    exact hs
  · show t.target = .text target.id
    rw [htarget, hw.keyed hkey]

/-- The history is in order, is a path of the definition, and the status fits the occupied
state. -/
structure Instance.OnTrail (d : Definition) (i : Instance) : Prop where
  chronicled : i.Chronicled d
  placed : i.Placed d
  linked : i.history.IsChain d.Links

theorem Instance.OnTrail.fresh (hw : d.WellKeyed) (c : Context) (id moment : String) :
    (d.fresh c id moment).OnTrail d :=
  ⟨.fresh c id moment, .fresh hw c id moment, List.isChain_singleton _⟩

theorem Instance.OnTrail.moves (hw : d.WellKeyed) (hm : Moves d i event j) (h : i.OnTrail d) :
    j.OnTrail d := by
  refine ⟨h.chronicled.moves hm, .moves hw hm, ?_⟩
  obtain ⟨v, hlast, ho, hv⟩ := h.chronicled.last
  have hi : i.history = i.history.dropLast ++ [v] := (List.dropLast_append_getLast? v hlast).symm
  obtain ⟨left, new, hj, hnew, hsame⟩ := hm.links hw h.placed hi ho hv
  have hchain := h.linked
  rw [hi] at hchain
  rw [hj]
  obtain ⟨hearlier, -, hlink⟩ := List.isChain_append.1 hchain
  refine List.isChain_append.2 ⟨hearlier, List.isChain_pair.2 hnew, ?_⟩
  -- Closing a visit changes nothing that a link reads.
  intro u hu w hw
  cases hw
  unfold Definition.Links
  rw [hsame.1, hsame.2.1, hsame.2.2]
  exact hlink u hu v rfl

theorem Definition.Reaches.onTrail (hw : d.WellKeyed) (h : d.Reaches i) : i.OnTrail d :=
  h.keeps (OnTrail.fresh hw) (fun hm hi => hi.moves hw hm)
    (fun e _ hi => ⟨hi.chronicled.failed e, hi.placed.failed e, hi.linked⟩)
    (fun c hi => ⟨hi.chronicled.recontext c, hi.placed, hi.linked⟩)

/-- **The history is a path of the definition**, and a run that has not failed is completed exactly
in the terminal states. -/
theorem trail_linked :
    (∀ (v : Value) (hs : Handlers) (d : Definition), compileDocument v hs = .ok d → d.WellKeyed) ∧
    ∀ (d : Definition) (i : Instance), d.WellKeyed → d.Reaches i →
      i.history.IsChain d.Links ∧
      (i.status = .completed ↔
        i.status ≠ .failed ∧ ∃ s, d.state? i.current = some s ∧ s.kind = .terminal) ∧
      (i.status = .running → ∃ s, d.state? i.current = some s ∧ s.kind ≠ .terminal) := by
  refine ⟨fun _ _ _ => compileDocument_wellKeyed, fun d i hw h => ?_⟩
  obtain ⟨-, hp, hlinked⟩ := h.onTrail hw
  refine ⟨hlinked, ?_, hp.not_terminal⟩
  obtain ⟨s, hs, hcompleted⟩ := hp
  rw [hcompleted, hs]
  simp

/-! ## A parcel -/

/-- A parcel that is shipped and then, by itself, delivered. -/
def parcelDocument : Value :=
  .object [("id", .text "parcel"), ("initialState", .text "packed"), ("states", .object [
    ("packed", .object [("kind", .text "task"), ("transitions", .list
      [.object [("target", .text "sent"), ("event", .text "ship")]])]),
    ("sent", .object [("kind", .text "auto"), ("transitions", .list
      [.object [("target", .text "delivered")]])]),
    ("delivered", .object [("kind", .text "end"), ("onEnter", .text "sign")])])]

/-- Nobody is there to sign for it. -/
def unsigned : Hook where
  name := "sign"
  body _ := .fail (.runtime "nobody home")

/-- What the document of the parcel means. -/
def parcel : Definition where
  id := .text "parcel"
  initial := "packed"
  states := Dict.ofList [
    ("packed", { id := "packed", transitions := [
      { target := .text "sent", event := .text "ship", id := .text "packed::sent::ship" }] }),
    ("sent", { id := "sent", kind := .auto, transitions := [
      { target := .text "delivered", id := .text "sent::delivered::AUTO" }] }),
    ("delivered", { id := "delivered", kind := .terminal, onEnter := some unsigned })]

/-- The parcel at the start. -/
def parcelPacked : Instance := parcel.fresh ⟨0, .null⟩ "gift" (Instant.text ⟨0⟩)

/-- The parcel after it was shipped: it stands in a terminal state, and the run has failed. -/
def parcelLost : Instance :=
  { parcelPacked with
    current := "delivered"
    history := [
      { state := "packed", enteredAt := Instant.text ⟨0⟩, leftAt := some (Instant.text ⟨3⟩) },
      { state := "sent", enteredAt := Instant.text ⟨3⟩, leftAt := some (Instant.text ⟨3⟩),
        transition := .text "packed::sent::ship", event := .text "ship" },
      { state := "delivered", enteredAt := Instant.text ⟨3⟩,
        transition := .text "sent::delivered::AUTO" }]
    status := .failed
    error := some (.runtime "nobody home") }

theorem trail_linked_parcel :
    parcel.WellKeyed ∧ parcel.Reaches parcelLost ∧ parcelLost.history.IsChain parcel.Links ∧
      parcelLost.status ≠ .completed ∧
      ∃ s, parcel.state? parcelPacked.current = some s ∧ s.kind ≠ .terminal := by
  have hcompile : compileDocument parcelDocument (Dict.ofList [("sign", unsigned)]) =
      .ok parcel := rfl
  have hstart : ((parcel.start ⟨0, .null⟩ (some "gift")).run (stoppedAt 0)).answer =
      .ok parcelPacked := rfl
  have hsend : ((parcelPacked.send parcel {} "ship").run (stoppedAt 3)).answer =
      .ok ⟨parcelLost, true⟩ := rfl
  have hw : parcel.WellKeyed := trail_linked.1 _ _ _ hcompile
  have hpacked : parcel.Reaches parcelPacked := .start (hstart ▸ canEnd_run _ _)
  have hlost : parcel.Reaches parcelLost := hpacked.step (.send (hsend ▸ canEnd_run _ _))
  obtain ⟨hlinked, hcompleted, -⟩ := trail_linked.2 parcel parcelLost hw hlost
  exact ⟨hw, hlost, hlinked, fun h => (hcompleted.1 h).1 rfl,
    (trail_linked.2 parcel parcelPacked hw hpacked).2.2 rfl⟩

end Workflow
