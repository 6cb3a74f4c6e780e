import Workflow.Proofs.Run.Trail
import Workflow.Text.Lines

/-!
# What the id of a transition tells

The id of a transition is put together from the key of its state, its target and its event. It can
be taken apart again if the colons in it can be told from those between its parts.

**Plain names** (`NoColon`, `PlainEvent`). States and targets without colon, and events that are not
taken for a missing one. In an event colons do no harm, since it stands last.

**Reading** (`Passage.ofId`). The source and the target end at the first colon behind them, and what
is left is the event.

**Compiled definitions** (`Definition.OwnIds`). Each transition has the id that belongs to its
state, its target and its event.

Main result: `transitionId_tells_passage`. The id in a visit tells the passage to it.
-/

namespace Workflow

/-! ## Passages -/

/-- A way from one state to another, and the event that it is taken on. -/
structure Passage where
  source : String
  target : String
  event : Value
  deriving Repr

namespace Passage

/-- What stands before the first colon. -/
def head (cs : List Char) : List Char := cs.takeWhile (· ≠ ':')

/-- What stands behind the first colon and the character after it. -/
def tail (cs : List Char) : List Char := (cs.dropWhile (· ≠ ':')).drop 2

/-- The event that the last part of an id stands for. -/
def eventOf (part : String) : Value := if part = "AUTO" then .null else .text part

/-- The passage that the id of a transition tells of. -/
def ofId (id : String) : Passage where
  source := String.ofList (head id.toList)
  target := String.ofList (head (tail id.toList))
  event := eventOf (String.ofList (tail (tail id.toList)))

end Passage

/-! ## Plain names -/

/-- A text without colons. -/
def NoColon (s : String) : Prop := ':' ∉ s.toList

instance (s : String) : Decidable (NoColon s) := inferInstanceAs (Decidable (':' ∉ s.toList))

/-- No event, or one whose text is neither empty nor the word for no event. -/
def PlainEvent (e : Value) : Prop := e = .null ∨ ∃ s, e = .text s ∧ s ≠ "" ∧ s ≠ "AUTO"

/-- A definition whose states and targets are texts without colons, and whose events are plain. -/
structure Definition.PlainNames (d : Definition) : Prop where
  keys : ∀ e ∈ d.states.entries, NoColon e.1
  targets : ∀ e ∈ d.states.entries, ∀ t ∈ e.2.transitions, ∃ s, t.target = .text s ∧ NoColon s
  events : ∀ e ∈ d.states.entries, ∀ t ∈ e.2.transitions, PlainEvent t.event

variable {s target : String} {event : Value}

/-! ## Reading ids -/

theorem NoColon.forall_ne (h : NoColon s) : ∀ c ∈ s.toList, decide (c ≠ ':') :=
  fun _ hc => decide_eq_true fun heq => h (heq ▸ hc)

namespace Passage

variable {rest : List Char}

theorem head_append (h : NoColon s) : head (s.toList ++ ':' :: rest) = s.toList :=
  Text.takeWhile_until h.forall_ne (by simp)

theorem tail_append (h : NoColon s) : tail (s.toList ++ ':' :: ':' :: rest) = rest := by
  unfold tail
  rw [Text.dropWhile_until h.forall_ne (by simp)]
  rfl

theorem eventOf_plain (h : PlainEvent event) :
    eventOf (if event.truthy then event.display else "AUTO") = event := by
  rcases h with rfl | ⟨name, rfl, hne, hauto⟩
  · rfl
  · simp [eventOf, Value.truthy, Value.display, hne, hauto]

/-- The id of a transition tells where it leads from and to, and on which event. -/
theorem ofId_transitionId (hs : NoColon s) (ht : NoColon target) (he : PlainEvent event) :
    ofId (transitionId s (.text target) event) = ⟨s, target, event⟩ := by
  have hid : (transitionId s (.text target) event).toList = s.toList ++ ':' :: ':' ::
      (target.toList ++ ':' :: ':' ::
        (if event.truthy then event.display else "AUTO").toList) := by
    simp [transitionId, Value.display]
  unfold ofId
  rw [hid, head_append hs, tail_append hs, head_append ht, tail_append ht]
  simp only [String.ofList_toList, eventOf_plain he]

end Passage

/-! ## Compiled definitions -/

/-- Each transition has the id that is made from its state, its target and its event. -/
def Definition.OwnIds (d : Definition) : Prop :=
  ∀ key s, d.state? key = some s → ∀ t ∈ s.transitions,
    t.id = .text (transitionId key t.target t.event)

section Compile

variable {hs : Handlers} {key : String}

theorem TransitionEntry.compile_id {e : TransitionEntry} {t : Transition}
    (h : e.compile hs key = .ok t) : t.id = .text (transitionId key t.target t.event) := by
  unfold compile at h
  obtain ⟨guard, -, h⟩ := ok_of_bind h
  obtain ⟨action, -, h⟩ := ok_of_bind h
  cases h
  rfl

theorem StateEntry.compile_ownIds {e : StateEntry} {state : State}
    (h : e.compile hs key = .ok state) :
    ∀ t ∈ state.transitions, t.id = .text (transitionId key t.target t.event) := by
  unfold compile at h
  obtain ⟨transitions, htransitions, h⟩ := ok_of_bind h
  obtain ⟨onEnter, -, h⟩ := ok_of_bind h
  obtain ⟨onExit, -, h⟩ := ok_of_bind h
  cases h
  intro t ht
  obtain ⟨entry, -, hentry⟩ := exists_of_forall₂_of_mem (mapM_forall₂ htransitions).flip ht
  exact TransitionEntry.compile_id hentry

theorem compileDocument_ownIds {v : Value} {d : Definition} (h : compileDocument v hs = .ok d) :
    d.OwnIds := by
  obtain ⟨doc, -, h⟩ := ok_of_bind h
  unfold Document.compile at h
  obtain ⟨compiled, hcompiled, h⟩ := ok_of_bind h
  obtain ⟨initial, -, h⟩ := ok_of_bind h
  cases h
  intro key state hstate
  have hmem : (key, state) ∈ compiled := Dict.get?_ofList_mem hstate
  obtain ⟨entry, -, hkey, hentry⟩ :=
    exists_of_forall₂_of_mem (compileStates_ok hcompiled).flip hmem
  obtain rfl : key = entry.1 := hkey
  exact StateEntry.compile_ownIds hentry

end Compile

/-! ## Histories -/

/-- The id in the second visit tells of a passage from the first one to it. -/
def Visit.Tells (a b : Visit) : Prop :=
  ∃ id, b.transition = .text id ∧ Passage.ofId id = ⟨a.state, b.state, b.event⟩

variable {d : Definition} {i : Instance} {a b : Visit}

theorem Definition.Links.tells (hids : d.OwnIds) (hplain : d.PlainNames) (h : d.Links a b) :
    a.Tells b := by
  obtain ⟨source, t, hsource, ht, htarget, hid, hevent, -⟩ := h
  have hmem : (a.state, source) ∈ d.states.entries := Dict.get?_eq_some_iff.1 hsource
  have hkey : NoColon a.state := hplain.keys _ hmem
  have hplainEvent : PlainEvent b.event := hevent ▸ hplain.events _ hmem t ht
  obtain ⟨name, hname, hcolon⟩ := hplain.targets _ hmem t ht
  obtain rfl : name = b.state := Value.text.inj (hname.symm.trans htarget)
  refine ⟨_, ?_, Passage.ofId_transitionId hkey hcolon hplainEvent⟩
  rw [← hid, hids _ _ hsource t ht, htarget, hevent]

/-- **Ids tell transitions apart.** Two transitions between states without colons, on plain events,
that have the same id have the same source, target and event. In a compiled definition with such
names the first visit of a history has no id, and the id in each other one tells the state that was
left, the state that was entered and the event. -/
theorem transitionId_tells_passage :
    (∀ (s t s' t' : String) (e e' : Value), NoColon s → NoColon t → NoColon s' → NoColon t' →
      PlainEvent e → PlainEvent e' →
      transitionId s (.text t) e = transitionId s' (.text t') e' → s = s' ∧ t = t' ∧ e = e') ∧
    ∀ (v : Value) (hs : Handlers) (d : Definition) (i : Instance),
      compileDocument v hs = .ok d → d.PlainNames → d.Reaches i →
        (∃ first, i.history.head? = some first ∧ first.transition = .null) ∧
          i.history.IsChain Visit.Tells := by
  constructor
  · intro s t s' t' e e' hs ht hs' ht' he he' heq
    have hread := Passage.ofId_transitionId hs ht he
    rw [heq, Passage.ofId_transitionId hs' ht' he', Passage.mk.injEq] at hread
    exact ⟨hread.1.symm, hread.2.1.symm, hread.2.2.symm⟩
  · intro v hs d i hcompile hplain hreach
    obtain ⟨hchronicled, -, hlinked⟩ := hreach.onTrail (compileDocument_wellKeyed hcompile)
    obtain ⟨first, hfirst, -, -, hnull⟩ := hchronicled.first
    exact ⟨⟨first, hfirst, hnull⟩, hlinked.imp fun _ _ hlink =>
      hlink.tells (compileDocument_ownIds hcompile) hplain⟩

/-! ## A hatch -/

/-- A hatch that falls shut by itself. There are colons in the event that opens it. -/
def hatchDocument : Value :=
  .object [("id", .text "hatch"), ("initialState", .text "shut"), ("states", .object [
    ("shut", .object [("kind", .text "task"), ("transitions", .list
      [.object [("target", .text "ajar"), ("event", .text "key::turned")]])]),
    ("ajar", .object [("kind", .text "auto"), ("transitions", .list
      [.object [("target", .text "shut")]])])])]

/-- What the document of the hatch means. -/
def hatch : Definition where
  id := .text "hatch"
  initial := "shut"
  states := Dict.ofList [
    ("shut", { id := "shut", transitions := [
      { target := .text "ajar", event := .text "key::turned",
        id := .text "shut::ajar::key::turned" }] }),
    ("ajar", { id := "ajar", kind := .auto, transitions := [
      { target := .text "shut", id := .text "ajar::shut::AUTO" }] })]

def hatchShut : Instance := hatch.fresh ⟨0, .null⟩ "cellar" (Instant.text ⟨0⟩)

/-- The hatch after the key was turned. -/
def hatchTurned : Instance :=
  { hatchShut with
    history := [
      { state := "shut", enteredAt := Instant.text ⟨0⟩, leftAt := some (Instant.text ⟨5⟩) },
      { state := "ajar", enteredAt := Instant.text ⟨5⟩, leftAt := some (Instant.text ⟨5⟩),
        transition := .text "shut::ajar::key::turned", event := .text "key::turned" },
      { state := "shut", enteredAt := Instant.text ⟨5⟩,
        transition := .text "ajar::shut::AUTO" }] }

theorem hatch_plainNames : hatch.PlainNames := by
  have hentries : hatch.states.entries = [("shut", _), ("ajar", _)] := rfl
  refine ⟨?_, ?_, ?_⟩
  · decide
  · rw [hentries]
    simp [NoColon]
  · rw [hentries]
    simp [PlainEvent]

theorem transitionId_tells_passage_hatch :
    compileDocument hatchDocument Dict.empty = .ok hatch ∧ hatch.PlainNames ∧
      hatch.Reaches hatchTurned ∧ hatchTurned.history.IsChain Visit.Tells ∧
      transitionId "shut" (.text "ajar") (.text "key::turned") ≠
        transitionId "shut" (.text "ajar") (.text "key:::turned") := by
  have hcompile : compileDocument hatchDocument Dict.empty = .ok hatch := rfl
  have hstart : ((hatch.start ⟨0, .null⟩ (some "cellar")).run (stoppedAt 0)).answer =
      .ok hatchShut := rfl
  have hsend : ((hatchShut.send hatch {} "key::turned").run (stoppedAt 5)).answer =
      .ok ⟨hatchTurned, true⟩ := rfl
  have hshut : hatch.Reaches hatchShut := .start (hstart ▸ Activity.canEnd_run _ _)
  have hturned : hatch.Reaches hatchTurned := hshut.step (.send (hsend ▸ Activity.canEnd_run _ _))
  refine ⟨hcompile, hatch_plainNames, hturned,
    (transitionId_tells_passage.2 _ _ _ _ hcompile hatch_plainNames hturned).2, fun heq => ?_⟩
  obtain ⟨-, -, hevents⟩ := transitionId_tells_passage.1 _ _ _ _ _ _ (by decide) (by decide)
    (by decide) (by decide) (.inr ⟨_, rfl, by decide, by decide⟩)
    (.inr ⟨_, rfl, by decide, by decide⟩) heq
  simp at hevents

end Workflow
