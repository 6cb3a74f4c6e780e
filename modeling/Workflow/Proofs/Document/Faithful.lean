import Workflow.Proofs.Document.Accepted

/-!
# What a document is compiled to

A definition is read off its document member by member.

**Hooks** (`Handlers.Names`). A value that counts as false names no hook; any other one is the id of
a handler, and the hook is the one under this id.

**Transitions, states, definitions** (`Transition.Renders`, `State.Renders`, `Definition.Renders`).
The states stand in the order of the document, each under its name, and the transitions of a state
are those of the document, one for one and in order.

**Ways out.** An event given as empty text is an event, although the id of its transition has `AUTO`
in its place. So the transitions without event are those whose event is missing or null.

Main result: `compileDocument_renders`.
-/

namespace Workflow

/-! ## Rendering -/

/-- The hook that a value of a document names, if it names one. -/
structure Handlers.Names (hs : Handlers) (id : Value) (hook : Option Hook) : Prop where
  absent : hook = none ↔ id.truthy = false
  found : ∀ h, hook = some h → ∃ name, id = .text name ∧ hs.get? name = some h

/-- A transition of the state under `key`, as it is in the document. -/
structure Transition.Renders (hs : Handlers) (key : String) (w : Value) (t : Transition) :
    Prop where
  target : w.get? "target" = some t.target
  event : t.event = w.getD "event"
  label : t.label = w.getD "label"
  id : t.id = .text (key ++ "::" ++ t.target.display ++ "::" ++
    if (w.getD "event").truthy then (w.getD "event").display else "AUTO")
  guard : hs.Names (w.getD "guard") t.guard
  action : hs.Names (w.getD "action") t.action

/-- The state under `key`, as it is in the document. -/
structure State.Renders (hs : Handlers) (key : String) (w : Value) (s : State) : Prop where
  id : s.id = key
  kind : w.get? "kind" = some (.text s.kind.word)
  label : s.label = w.getD "label"
  description : s.description = w.getD "description"
  icon : s.icon = w.getD "icon"
  onEnter : hs.Names (w.getD "onEnter") s.onEnter
  onExit : hs.Names (w.getD "onExit") s.onExit
  transitions : List.Forall₂ (Transition.Renders hs key) (transitionValues w) s.transitions

/-- A definition that is as the document has it. -/
structure Definition.Renders (hs : Handlers) (v : Value) (d : Definition) : Prop where
  id : v.get? "id" = some d.id
  initial : v.get? "initialState" = some (.text d.initial)
  version : d.version = (v.get? "version").getD (.int 1)
  description : d.description = (v.get? "description").getD (.text "")
  states : List.Forall₂ (fun w s => s.1 = w.1 ∧ State.Renders hs w.1 w.2 s.2)
    (Document.stateValues v) d.states.entries

variable {hs : Handlers} {v w : Value} {key : String}

/-! ## Compiling -/

theorem Handlers.resolve_ok {role : HandlerRole} {id : Value} {hook : Option Hook}
    (h : hs.resolve role id = .ok hook) : hs.Names id hook := by
  unfold resolve at h
  cases htruthy : id.truthy with
  | false =>
    rw [htruthy] at h
    cases h
    exact ⟨by simp [htruthy], nofun⟩
  | true =>
    rw [htruthy] at h
    cases id with
    | text name =>
      cases hget : hs.get? name with
      | none => simp [hget] at h
      | some g =>
        simp only [hget, if_true] at h
        cases h
        exact ⟨by simp [htruthy], fun g' hg => ⟨name, rfl, hg ▸ hget⟩⟩
    | _ => cases h

theorem TransitionEntry.compile_renders {t : Transition} (hw : w.Has "target")
    (h : (ofValue w).compile hs key = .ok t) : t.Renders hs key w := by
  obtain ⟨target, htarget⟩ := hw
  unfold compile at h
  obtain ⟨guard, hguard, h⟩ := ok_of_bind h
  obtain ⟨action, haction, h⟩ := ok_of_bind h
  cases h
  refine ⟨?_, rfl, rfl, rfl, Handlers.resolve_ok hguard, Handlers.resolve_ok haction⟩
  rw [htarget]
  exact congrArg some (Value.getD_of_get? htarget).symm

/-- All transitions of a state that has been read have a target. -/
theorem StateEntry.has_target {e : StateEntry} (h : read w = .ok e) :
    ∀ t ∈ transitionValues w, t.Has "target" := by
  have hreadable := ((read_checks w).ok.1 ⟨e, h⟩).transitions
  unfold transitionValues
  rcases hreadable with hfalse | ⟨ts, hts, htargets⟩
  · cases hw : w.getD "transitions" with
    | list items =>
      rw [hw] at hfalse
      obtain rfl : items = [] := by simpa [Value.truthy] using hfalse
      intro t ht
      cases ht
    | _ =>
      intro t ht
      cases ht
  · rw [hts]
    exact htargets

theorem StateEntry.compile_renders {e : StateEntry} {s : State} (hread : read w = .ok e)
    (h : e.compile hs key = .ok s) : s.Renders hs key w := by
  obtain ⟨hkind, he⟩ := read_ok hread
  rw [he] at h
  unfold compile at h
  obtain ⟨ts, hts, h⟩ := ok_of_bind h
  obtain ⟨onEnter, hentry, h⟩ := ok_of_bind h
  obtain ⟨onExit, hexit, h⟩ := ok_of_bind h
  cases h
  have hcompiled := List.forall₂_map_left_iff.1 (mapM_forall₂ hts)
  have htargets := (List.forall₂_and_left _ _).2 ⟨has_target hread, hcompiled⟩
  exact ⟨rfl, hkind, rfl, rfl, rfl, Handlers.resolve_ok hentry, Handlers.resolve_ok hexit,
    htargets.imp fun _ _ ht => TransitionEntry.compile_renders ht.1 ht.2⟩

/-- States that are read and then compiled are those of the document. -/
theorem compileStates_renders {members : List (String × Value)}
    {es : List (String × StateEntry)} {states : List (String × State)}
    (hread : List.Forall₂ (fun m e => e.1 = m.1 ∧ StateEntry.read m.2 = .ok e.2) members es)
    (hcompile : List.Forall₂ (fun e s => s.1 = e.1 ∧ e.2.compile hs e.1 = .ok s.2) es states) :
    List.Forall₂ (fun m s => s.1 = m.1 ∧ State.Renders hs m.1 m.2 s.2) members states := by
  induction hread generalizing states with
  | nil =>
    cases hcompile
    exact .nil
  | cons hm _ ih =>
    cases hcompile with
    | cons hs hrest =>
      refine .cons ⟨hs.1.trans hm.1, ?_⟩ (ih hrest)
      rw [← hm.1]
      exact StateEntry.compile_renders hm.2 hs.2

theorem Document.initialKey_ok {states : Dict String State} {initial id : Value} {key : String}
    (h : initialKey states initial id = .ok key) : initial = .text key := by
  unfold initialKey at h
  split at h
  · cases h
  · cases h
  · split at h
    · cases h
      rfl
    · cases h
  · cases h

theorem Document.compile_renders {doc : Document} {d : Definition} (hread : read v = .ok doc)
    (hdistinct : ((stateValues v).map Prod.fst).Nodup) (h : doc.compile hs = .ok d) :
    d.Renders hs v := by
  obtain ⟨⟨id, hid⟩, ⟨initial, hinitial⟩, -⟩ := (read_checks v).ok.1 ⟨doc, hread⟩
  obtain ⟨es, hes, rfl⟩ := read_ok hread
  have hkeys := keys_eq_of_forall₂ hes
  unfold compile at h
  rw [Dict.entries_ofList (hkeys ▸ hdistinct)] at h
  obtain ⟨compiled, hcompiled, h⟩ := ok_of_bind h
  obtain ⟨key, hkey, h⟩ := ok_of_bind h
  cases h
  have hstates := compileStates_ok hcompiled
  have hcompiledKeys := (keys_eq_of_forall₂ hstates).trans hkeys
  refine ⟨?_, ?_, rfl, rfl, ?_⟩
  · rw [hid]
    exact congrArg some (Value.getD_of_get? hid).symm
  · rw [← initialKey_ok hkey, hinitial]
    exact congrArg some (Value.getD_of_get? hinitial).symm
  · rw [Dict.entries_ofList (hcompiledKeys ▸ hdistinct)]
    exact compileStates_renders hes hstates

/-! ## Ways out -/

theorem State.Renders.autoTransitions {s : State} (h : s.Renders hs key w) :
    List.Forall₂ (Transition.Renders hs key)
      ((transitionValues w).filter fun t => t.getD "event" = .null) s.autoTransitions :=
  List.rel_filter (fun t t' ht => by simp [Transition.isAuto, ht.event]) h.transitions

theorem State.Renders.transitionsFor {s : State} (h : s.Renders hs key w) (event : String) :
    List.Forall₂ (Transition.Renders hs key)
      ((transitionValues w).filter fun t => t.getD "event" = .text event)
      (s.transitionsFor event) :=
  List.rel_filter (fun t t' ht => by simp [Transition.isFor, ht.event]) h.transitions

theorem Definition.Renders.state? {d : Definition} (h : d.Renders hs v)
    (hmem : (key, w) ∈ Document.stateValues v) :
    ∃ s, d.state? key = some s ∧ s.Renders hs key w := by
  obtain ⟨⟨name, s⟩, hs, hname, hrenders⟩ := exists_of_forall₂_of_mem h.states hmem
  obtain rfl : name = key := hname
  exact ⟨s, Dict.get?_eq_some_iff.2 hs, hrenders⟩

/-- **A compiled definition is what the document says.** It has the id, the initial state, the
version and the description of the document and its states in order, and each state is as it is
there, with its hooks and its transitions. So the transitions that an event triggers, and those that
need none, are the ones that the document has for it. -/
theorem compileDocument_renders (hs : Handlers) (v : Value) (d : Definition)
    (hdistinct : ((Document.stateValues v).map Prod.fst).Nodup)
    (h : compileDocument v hs = .ok d) :
    d.Renders hs v ∧ ∀ key w, (key, w) ∈ Document.stateValues v →
      ∃ s, d.state? key = some s ∧ s.Renders hs key w ∧
        List.Forall₂ (Transition.Renders hs key)
          ((transitionValues w).filter fun t => t.getD "event" = .null) s.autoTransitions ∧
        ∀ event, List.Forall₂ (Transition.Renders hs key)
          ((transitionValues w).filter fun t => t.getD "event" = .text event)
          (s.transitionsFor event) := by
  obtain ⟨doc, hread, hcompile⟩ := ok_of_bind h
  have hrenders := Document.compile_renders hread hdistinct hcompile
  refine ⟨hrenders, fun key w hmem => ?_⟩
  obtain ⟨s, hs, hstate⟩ := hrenders.state? hmem
  exact ⟨s, hs, hstate, hstate.autoTransitions, hstate.transitionsFor⟩

/-! ## A return that is brought again -/

/-- A parcel goes home once it is weighed, and the event that brings it again is empty text. Its
action counts as false. -/
def returnDocument : Value :=
  .object [("id", .text "parcel"), ("initialState", .text "sent"), ("states", .object
    [("sent", .object [("kind", .text "auto"), ("onExit", .text "stamped"),
      ("transitions", .list [
        .object [("target", .text "sent"), ("event", .text ""), ("action", .text "")],
        .object [("target", .text "home"), ("guard", .text "weighed")]])]),
    ("home", .object [("kind", .text "end")])])]

def carriers : Handlers := Dict.ofList
  [("weighed", ⟨"weighed", fun c => .done (.datum c)⟩),
    ("stamped", ⟨"stamped", fun c => .done (.datum c)⟩)]

/-- The parcel has its first version. Only the way home needs no event, and the empty event brings
the parcel again, by a transition whose id does not tell. -/
theorem compileDocument_renders_parcel :
    ((Document.stateValues returnDocument).map Prod.fst).Nodup ∧
      ∃ d, compileDocument returnDocument carriers = .ok d ∧ d.version = .int 1 ∧
        ∃ s, d.state? "sent" = some s ∧
          s.autoTransitions.map (·.target) = [.text "home"] ∧
          (s.transitionsFor "").map (·.id) = [.text "sent::sent::AUTO"] := by
  have hdistinct : ((Document.stateValues returnDocument).map Prod.fst).Nodup := by
    show ["sent", "home"].Nodup
    decide
  obtain ⟨d, hd⟩ : ∃ d, compileDocument returnDocument carriers = .ok d := ⟨_, rfl⟩
  obtain ⟨hrenders, hstates⟩ := compileDocument_renders carriers returnDocument d hdistinct hd
  obtain ⟨s, hs, -, hauto, hfor⟩ := hstates "sent" _ List.mem_cons_self
  refine ⟨hdistinct, d, hd, hrenders.version, s, hs, ?_, ?_⟩
  · generalize s.autoTransitions = ts at hauto
    obtain - | ⟨ht, - | _⟩ := hauto
    exact congrArg (fun target => [target]) (Option.some.inj ht.target).symm
  · have hempty := hfor ""
    generalize s.transitionsFor "" = ts at hempty
    obtain - | ⟨ht, - | _⟩ := hempty
    rw [List.map_singleton, ht.id, ← Option.some.inj ht.target]
    rfl

end Workflow
