import Workflow.Proofs.Document.Keyed
import Workflow.Proofs.Document.Reading

/-!
# Which documents are accepted

**Accepted documents** (`Document.Accepted`). The members `id`, `initialState` and `states` are
there; each state has one of the three kinds and a list of transitions with targets, or none; each
hook that is named is in the table of handlers; and the initial state is one of the states.

**Problems** (`Document.problems`). What is wrong with a document of the right shape
(`Document.Shaped`), in the order in which it is found: the missing members; else the states and
transitions that cannot be read, then the handlers that are not there, and then the initial state.

Main result: `compileDocument_accepts`. Exactly the accepted documents compile, and a document of
the right shape that does not compile is refused for its first problem.
-/

namespace Workflow

/-! ## What is asked of a document -/

/-- The value can be looked up in a table of handlers, if it is. -/
def Value.NamesOne (id : Value) : Prop := id.truthy = true → ∃ k, id.key? = some k

/-- The value names a handler that is there, or none. -/
def Handlers.Knows (hs : Handlers) (id : Value) : Prop :=
  id.truthy = true → ∃ name h, id = .text name ∧ hs.get? name = some h

/-- A state whose hooks are all there. -/
structure HookedState (hs : Handlers) (s : Value) : Prop where
  transitions : ∀ t ∈ transitionValues s,
    hs.Knows (t.getD "guard") ∧ hs.Knows (t.getD "action")
  onEnter : hs.Knows (s.getD "onEnter")
  onExit : hs.Knows (s.getD "onExit")

namespace Document

/-- A document that compiles with a table of handlers. -/
structure Accepted (hs : Handlers) (v : Value) : Prop where
  object : v.IsObject
  id : v.Has "id"
  states : ∃ members, v.get? "states" = some (.object members) ∧
    ∀ s ∈ members, ReadableState s.2 ∧ HookedState hs s.2
  initial : ∃ key, v.get? "initialState" = some (.text key) ∧ key ∈ (stateValues v).map Prod.fst

end Document

/-! ## Shapes -/

/-- A state with objects and lists where they are expected, and nowhere else. -/
structure ShapedState (s : Value) : Prop extends ListedState s where
  hooks : ∀ t ∈ transitionValues s, (t.getD "guard").NamesOne ∧ (t.getD "action").NamesOne
  onEnter : (s.getD "onEnter").NamesOne
  onExit : (s.getD "onExit").NamesOne

/-- A document with objects and lists where they are expected, and nowhere else. -/
structure Document.Shaped (v : Value) : Prop where
  object : v.IsObject
  states : ∀ w, v.get? "states" = some w → ∃ members, w = .object members ∧
    ∀ s ∈ members, ShapedState s.2
  initial : ∀ w, v.get? "initialState" = some w → ∃ k, w.key? = some k

/-! ## Problems -/

namespace Handlers

/-- The problem with an entry that names a handler. -/
def problems (hs : Handlers) (role : HandlerRole) (id : Value) : List Failure :=
  if id.truthy then
    match id.text?.bind hs.get? with
    | some _ => []
    | none => [.handlerNotFound id role.word]
  else []

def transitionProblems (hs : Handlers) (t : Value) : List Failure :=
  hs.problems .guard (t.getD "guard") ++ hs.problems .action (t.getD "action")

/-- The handlers of a state that are not there: first those of the transitions, guard before action,
and then those of its entry and its exit. -/
def stateProblems (hs : Handlers) (s : Value) : List Failure :=
  (transitionValues s).flatMap hs.transitionProblems ++
    (hs.problems .action (s.getD "onEnter") ++ hs.problems .action (s.getD "onExit"))

end Handlers

namespace Document

def initialProblems (v : Value) : List Failure :=
  match (v.getD "initialState").text? with
  | some key =>
    if key ∈ (stateValues v).map Prod.fst then []
    else [.invalid [Definition.initialProblem (.text key) (v.getD "id")]]
  | none => [.invalid [Definition.initialProblem (v.getD "initialState") (v.getD "id")]]

/-- All that is wrong with a document, in order. -/
def problems (hs : Handlers) (v : Value) : List Failure :=
  match absent v with
  | [] =>
    (stateValues v).flatMap (fun s => stateProblems s.2) ++
      ((stateValues v).flatMap (fun s => hs.stateProblems s.2) ++ initialProblems v)
  | names => [.invalid (names.map missingMember)]

end Document

variable {v s t id : Value} {name : String} {hs : Handlers} {f : Failure}

/-! ## Compiling -/

theorem Handlers.resolve_checks (hs : Handlers) (role : HandlerRole) (id : Value) :
    Checks (hs.resolve role id) (hs.Knows id) id.NamesOne (hs.problems role id) := by
  unfold resolve Knows Value.NamesOne problems
  cases htruthy : id.truthy with
  | false => exact (Checks.done _).congr (by simp) (fun _ => trivial) fun _ => rfl
  | true =>
    cases id with
    | text name =>
      cases hh : hs.get? name with
      | some h =>
        simp only [if_true, Value.text?, Option.bind_some, hh]
        exact (Checks.done _).congr (by simp [hh]) (fun _ => trivial) fun _ => rfl
      | none =>
        simp only [if_true, Value.text?, Option.bind_some, hh]
        exact (Checks.fail _).congr (by simp [hh]) (fun _ => trivial) fun _ => rfl
    | list | object => exact (Checks.misshapen _).congr (by simp) (by simp [Value.key?]) fun _ => rfl
    | _ => exact (Checks.fail _).congr (by simp) (fun _ => trivial) fun _ => rfl

theorem TransitionEntry.compile_checks (hs : Handlers) (key : String) (t : Value) :
    Checks ((ofValue t).compile hs key)
      (hs.Knows (t.getD "guard") ∧ hs.Knows (t.getD "action"))
      ((t.getD "guard").NamesOne ∧ (t.getD "action").NamesOne) (hs.transitionProblems t) :=
  (hs.resolve_checks .guard (t.getD "guard")).bind fun _ _ =>
    (hs.resolve_checks .action (t.getD "action")).andThen fun _ => ⟨_, rfl⟩

/-- A state is checked as it stands in the document. -/
theorem StateEntry.compile_checks {e : StateEntry} (he : read s = .ok e) (hs : Handlers)
    (key : String) :
    Checks (e.compile hs key) (HookedState hs s) (ShapedState s) (hs.stateProblems s) := by
  unfold StateEntry.compile
  rw [(read_ok he).2, List.mapM_map]
  refine Checks.congr (Checks.bind (Checks.mapM fun t _ => TransitionEntry.compile_checks hs key t)
    fun _ _ => Checks.bind (hs.resolve_checks .action (s.getD "onEnter")) fun _ _ =>
      Checks.andThen (hs.resolve_checks .action (s.getD "onExit")) fun _ => ⟨_, rfl⟩)
    ?_ (fun h => ?_) fun _ => rfl
  · exact ⟨fun h => ⟨h.1, h.2.1, h.2.2⟩, fun h => ⟨h.transitions, h.onEnter, h.onExit⟩⟩
  · exact ⟨h.hooks, h.onEnter, h.onExit⟩

theorem compileStates_checks {members : List (String × Value)} {es : List (String × StateEntry)}
    (h : List.Forall₂ (fun m e => e.1 = m.1 ∧ StateEntry.read m.2 = .ok e.2) members es)
    (hs : Handlers) :
    Checks (compileStates hs es) (∀ m ∈ members, HookedState hs m.2)
      (∀ m ∈ members, ShapedState m.2) (members.flatMap fun m => hs.stateProblems m.2) := by
  induction h with
  | nil => exact (Checks.done _).congr (by simp) (fun _ => trivial) fun _ => rfl
  | @cons m e rest es hm _ ih =>
    have hcons := (StateEntry.compile_checks hm.2 hs e.1).bind
      fun state _ => ih.andThen fun states => ⟨(e.1, state) :: states, rfl⟩
    exact hcons.congr (by simp) List.forall_mem_cons.1 fun _ => rfl

/-- Entries that are made one for one under the same keys. -/
theorem keys_eq_of_forall₂ {α β : Type} {R : String × α → String × β → Prop}
    {as : List (String × α)} {bs : List (String × β)}
    (h : List.Forall₂ (fun a b => b.1 = a.1 ∧ R a b) as bs) :
    bs.map Prod.fst = as.map Prod.fst := by
  induction h with
  | nil => rfl
  | cons hm _ ih => rw [List.map_cons, List.map_cons, hm.1, ih]

namespace Document

/-- The problem with an initial state, given the names of the states. -/
theorem initialKey_checks {states : Dict String State} {names : List String}
    (hnames : states.keys = names) (initial id : Value) :
    Checks (initialKey states initial id) (∃ key, initial = .text key ∧ key ∈ names)
      (∃ k, initial.key? = some k)
      (match initial.text? with
        | some key =>
          if key ∈ names then [] else [.invalid [Definition.initialProblem (.text key) id]]
        | none => [.invalid [Definition.initialProblem initial id]]) := by
  unfold initialKey
  cases initial with
  | text key =>
    have hmem : states.contains key = true ↔ key ∈ names := by
      rw [← hnames, Dict.mem_keys]
      exact Option.isSome_iff_exists
    by_cases hkey : key ∈ names
    · simp only [hmem.2 hkey, if_true, Value.text?, if_pos hkey]
      exact (Checks.done _).congr (by simp [hkey]) (fun _ => trivial) fun _ => rfl
    · have hcontains : states.contains key = false := Bool.eq_false_iff.2 fun h => hkey (hmem.1 h)
      simp only [hcontains, Bool.false_eq_true, if_false, Value.text?, if_neg hkey]
      exact (Checks.fail _).congr (by simp [hkey]) (fun _ => trivial) fun _ => rfl
  | list | object => exact (Checks.misshapen _).congr (by simp) (by simp [Value.key?]) fun _ => rfl
  | _ => exact (Checks.fail _).congr (by simp) (fun _ => trivial) fun _ => rfl

theorem compile_checks {doc : Document} (h : read v = .ok doc)
    (hdistinct : ((stateValues v).map Prod.fst).Nodup) (hs : Handlers) :
    Checks (doc.compile hs)
      ((∀ s ∈ stateValues v, HookedState hs s.2) ∧
        ∃ key, v.getD "initialState" = .text key ∧ key ∈ (stateValues v).map Prod.fst)
      ((∀ s ∈ stateValues v, ShapedState s.2) ∧ ∃ k, (v.getD "initialState").key? = some k)
      ((stateValues v).flatMap (fun s => hs.stateProblems s.2) ++ initialProblems v) := by
  obtain ⟨es, hread, rfl⟩ := read_ok h
  have hkeys := keys_eq_of_forall₂ hread
  unfold compile
  rw [Dict.entries_ofList (hkeys ▸ hdistinct)]
  refine (compileStates_checks hread hs).bind fun compiled hcompiled => ?_
  have hcompiledKeys := (keys_eq_of_forall₂ (compileStates_ok hcompiled)).trans hkeys
  have hnames : (Dict.ofList compiled).keys = (stateValues v).map Prod.fst := by
    unfold Dict.keys
    rw [Dict.entries_ofList (hcompiledKeys ▸ hdistinct), hcompiledKeys]
  exact (initialKey_checks hnames (v.getD "initialState") (v.getD "id")).andThen fun _ => ⟨_, rfl⟩

theorem accepted_iff (hs : Handlers) (v : Value) :
    Accepted hs v ↔ Readable v ∧ (∀ s ∈ stateValues v, HookedState hs s.2) ∧
      ∃ key, v.getD "initialState" = .text key ∧ key ∈ (stateValues v).map Prod.fst := by
  constructor
  · rintro ⟨-, hid, ⟨members, hw, hstates⟩, key, hinitial, hkey⟩
    refine ⟨⟨hid, ⟨_, hinitial⟩, members, hw, fun s hs => (hstates s hs).1⟩, ?_, key,
      Value.getD_of_get? hinitial, hkey⟩
    rw [stateValues_of_get? hw]
    exact fun s hs => (hstates s hs).2
  · rintro ⟨⟨hid, ⟨w, hinitial⟩, members, hw, hreadable⟩, hhooked, key, hget, hkey⟩
    rw [Value.getD_of_get? hinitial] at hget
    rw [stateValues_of_get? hw] at hhooked
    exact ⟨hid.isObject, hid, ⟨members, hw, fun s hs => ⟨hreadable s hs, hhooked s hs⟩⟩, key,
      hget ▸ hinitial, hkey⟩

theorem Shaped.listed (h : Shaped v) (w : Value) (hw : v.get? "states" = some w) :
    ∃ members, w = .object members ∧ ∀ s ∈ members, ListedState s.2 := by
  obtain ⟨members, heq, hshaped⟩ := h.states w hw
  exact ⟨members, heq, fun s hs => (hshaped s hs).toListedState⟩

theorem Shaped.stateValues (h : Shaped v) : ∀ s ∈ stateValues v, ShapedState s.2 := by
  unfold Document.stateValues
  split
  next members hw =>
    obtain ⟨members', heq, hshaped⟩ := h.states _ hw
    cases heq
    exact hshaped
  next => nofun

theorem Shaped.initialKey (h : Shaped v) : ∃ k, (v.getD "initialState").key? = some k := by
  cases hw : v.get? "initialState" with
  | some w =>
    rw [Value.getD_of_get? hw]
    exact h.initial w hw
  | none =>
    unfold Value.getD
    rw [hw]
    exact ⟨.null, rfl⟩

/-- Missing members come before all else. -/
theorem head?_problems (hs : Handlers) (v : Value) :
    ((match absent v with
        | [] => (stateValues v).flatMap fun s => stateProblems s.2
        | names => [.invalid (names.map missingMember)]) ++
      ((stateValues v).flatMap (fun s => hs.stateProblems s.2) ++ initialProblems v)).head? =
      (problems hs v).head? := by
  unfold problems
  cases absent v <;> rfl

end Document

/-- **Exactly the accepted documents compile**, where no two states have the same name, as in any
object. One of the right shape that does not compile is refused for its first problem: the missing
members, all together; else the first state or transition that cannot be read; else the first
handler that is not there; else the initial state. -/
theorem compileDocument_accepts (hs : Handlers) (v : Value)
    (hdistinct : ((Document.stateValues v).map Prod.fst).Nodup) :
    ((∃ d, compileDocument v hs = .ok d) ↔ Document.Accepted hs v) ∧
      (Document.Shaped v →
        ∀ f, compileDocument v hs = .error f ↔ (Document.problems hs v).head? = some f) := by
  have hchecks := (Document.read_checks v).bind fun doc hdoc =>
    Document.compile_checks hdoc hdistinct hs
  have haccepts := hchecks.congr (Document.accepted_iff hs v).symm
    (fun h : Document.Shaped v => ⟨⟨h.object, h.listed⟩, h.stateValues, h.initialKey⟩)
    fun _ => Document.head?_problems hs v
  exact ⟨haccepts.ok, haccepts.first⟩

/-! ## A claim that is paid after an audit -/

/-- The states of the claim; its last state is of a kind that is given by a word. -/
def claimStates (kind : String) : List (String × Value) :=
  [("filed", .object [("kind", .text "task"), ("transitions", .list [.object
      [("target", .text "paid"), ("event", .text "pay"), ("guard", .text "audited")]])]),
    ("paid", .object [("kind", .text kind)])]

def claimDocument (kind : String) : Value :=
  .object [("id", .text "claim"), ("initialState", .text "filed"),
    ("states", .object (claimStates kind))]

/-- The table with the only handler that the claim names. -/
def auditors : Handlers := Dict.ofList [("audited", ⟨"audited", fun c => .done (.datum c)⟩)]

theorem claimDocument_shaped (kind : String) : Document.Shaped (claimDocument kind) := by
  refine ⟨⟨_, rfl⟩, fun w hw => ?_, fun w hw => ?_⟩
  · cases hw
    refine ⟨claimStates kind, rfl, ?_⟩
    simp only [claimStates, List.forall_mem_cons]
    refine ⟨⟨⟨⟨_, rfl⟩, .inr ⟨_, rfl⟩, ?_⟩, ?_, nofun, nofun⟩,
      ⟨⟨⟨_, rfl⟩, .inl rfl, nofun⟩, nofun, nofun, nofun⟩, nofun⟩
    · intro t ht
      obtain rfl := List.mem_singleton.1 ht
      exact ⟨_, rfl⟩
    · intro t ht
      obtain rfl := List.mem_singleton.1 ht
      exact ⟨fun _ => ⟨_, rfl⟩, nofun⟩
  · cases hw
    exact ⟨_, rfl⟩

/-- The claim compiles with its auditors. Without them its guard is not found, and a kind that is
not known comes before that. -/
theorem compileDocument_accepts_claim :
    ((Document.stateValues (claimDocument "end")).map Prod.fst).Nodup ∧
      (∃ d, compileDocument (claimDocument "end") auditors = .ok d) ∧
      compileDocument (claimDocument "end") {} = .error (.handlerNotFound (.text "audited") "guard") ∧
      compileDocument (claimDocument "final") {} = .error (unknownKind (.text "final")) := by
  have hdistinct : ∀ kind, ((Document.stateValues (claimDocument kind)).map Prod.fst).Nodup := by
    intro kind
    show ["filed", "paid"].Nodup
    decide
  refine ⟨hdistinct "end", (compileDocument_accepts auditors _ (hdistinct "end")).1.2 ?_, ?_, ?_⟩
  · refine ⟨⟨_, rfl⟩, ⟨_, rfl⟩, ⟨claimStates "end", rfl, ?_⟩, "filed", rfl, List.mem_cons_self⟩
    simp only [claimStates, List.forall_mem_cons]
    refine ⟨⟨⟨⟨"task", by simp, rfl⟩, .inr ⟨_, rfl, ?_⟩⟩, ⟨?_, nofun, nofun⟩⟩,
      ⟨⟨⟨"end", by simp, rfl⟩, .inl rfl⟩, ⟨nofun, nofun, nofun⟩⟩, nofun⟩
    · intro t ht
      obtain rfl := List.mem_singleton.1 ht
      exact ⟨_, rfl⟩
    · intro t ht
      obtain rfl := List.mem_singleton.1 ht
      exact ⟨fun _ => ⟨_, _, rfl, rfl⟩, nofun⟩
  · exact ((compileDocument_accepts {} _ (hdistinct "end")).2
      (claimDocument_shaped _) _).2 rfl
  · exact ((compileDocument_accepts {} _ (hdistinct "final")).2
      (claimDocument_shaped _) _).2 rfl

end Workflow
