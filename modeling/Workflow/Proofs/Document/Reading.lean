import Workflow.Document.Basic
import Workflow.Proofs.Document.Checks

/-!
# Which documents can be read

**Readable documents** (`Document.Readable`). The members `id`, `initialState` and `states` are
there; each state has one of the three kinds and a list of transitions with targets, or none.

**Problems of reading** are the missing members, all together; else what keeps the states from being
read (`stateProblems`), one after the other, the kind of each before its transitions.

Main results: `Document.read_checks`, that reading checks just this and finds the first problem, and
`Document.read_ok`, what a document is read as.
-/

namespace Workflow

/-! ## What is asked for -/

/-- The value has a member of that name, as only an object can. -/
def Value.Has (v : Value) (name : String) : Prop := ∃ w, v.get? name = some w

def Value.IsObject (v : Value) : Prop := ∃ members, v = .object members

/-- The items of a list; any other value has none. -/
def Value.listItems : Value → List Value
  | .list items => items
  | _ => []

/-- The transitions of a state of a document. -/
def transitionValues (s : Value) : List Value := (s.getD "transitions").listItems

/-- The transitions of a state that can be read: there are none, or they all have targets. -/
def ReadableTransitions (w : Value) : Prop :=
  w.truthy = false ∨ ∃ ts, w = .list ts ∧ ∀ t ∈ ts, t.Has "target"

/-- A state that can be read. -/
structure ReadableState (s : Value) : Prop where
  kind : ∃ word ∈ ["task", "auto", "end"], s.get? "kind" = some (.text word)
  transitions : ReadableTransitions (s.getD "transitions")

namespace Document

/-- The states of a document, under their names. -/
def stateValues (v : Value) : List (String × Value) :=
  match v.get? "states" with
  | some (.object members) => members
  | _ => []

/-- A document that can be read. -/
structure Readable (v : Value) : Prop where
  id : v.Has "id"
  initial : v.Has "initialState"
  states : ∃ members, v.get? "states" = some (.object members) ∧ ∀ s ∈ members, ReadableState s.2

end Document

/-! ## Shapes -/

/-- A list, or a value that stands for an empty one. -/
def Value.IsSequence (w : Value) : Prop := w.truthy = false ∨ ∃ items, w = .list items

/-- A state with objects and lists where they are read. -/
structure ListedState (s : Value) : Prop where
  object : s.IsObject
  transitions : (s.getD "transitions").IsSequence
  items : ∀ t ∈ transitionValues s, t.IsObject

/-! ## Problems -/

def transitionProblems (t : Value) : List Failure :=
  match t.get? "target" with
  | some _ => []
  | none => [missingTarget]

def kindProblems (kind : Value) : List Failure :=
  if (StateKind.ofValue? kind).isSome then [] else [unknownKind kind]

/-- What keeps a state from being read: its kind comes before its transitions. -/
def stateProblems (s : Value) : List Failure :=
  match s.get? "kind" with
  | none => [missingKind]
  | some kind => kindProblems kind ++ (transitionValues s).flatMap transitionProblems

/-- The required members that a document does not have. -/
def Document.absent (v : Value) : List String :=
  required.filter fun name => (v.get? name).isNone

variable {v s t : Value} {name : String}

/-! ## Members -/

theorem Value.Has.isObject (h : v.Has name) : v.IsObject := by
  obtain ⟨w, hw⟩ := h
  cases v with
  | object members => exact ⟨members, rfl⟩
  | _ => cases hw

theorem Value.IsObject.has (h : v.IsObject) (name : String) :
    v.has name = .ok (v.get? name).isSome := by
  obtain ⟨members, rfl⟩ := h
  rfl

theorem Value.require_of_get? {w : Value} (h : v.get? name = some w) : v.require name = .ok w := by
  obtain ⟨members, rfl⟩ := Has.isObject ⟨w, h⟩
  have hw : Dict.find name members = some w := h
  unfold Value.require
  simp only [hw]

/-- Only an object gives a member. -/
theorem Value.require_ok {w : Value} (h : v.require name = .ok w) : v.get? name = some w := by
  unfold Value.require at h
  split at h
  next members =>
    split at h
    next hw =>
      cases h
      exact hw
    next => cases h
  next => cases h

theorem Value.getD_of_get? {w : Value} (h : v.get? name = some w) : v.getD name = w := by
  unfold Value.getD
  rw [h]
  rfl

section Member

variable {α : Type} {k : Value → Except Failure α} {missing : Failure}

/-- Where a member must be there, an answer is that of what comes after it. -/
theorem member_ok {a : α}
    (h : (do if ← v.has name then k (← v.require name) else throw missing) = .ok a) :
    ∃ w, v.get? name = some w ∧ k w = .ok a := by
  cases hhas : v.has name with
  | error f =>
    rw [hhas] at h
    cases h
  | ok found =>
    rw [hhas] at h
    cases found with
    | false => cases h
    | true =>
      cases hrequire : v.require name with
      | error f =>
        rw [hrequire] at h
        cases h
      | ok w =>
        rw [hrequire] at h
        exact ⟨w, Value.require_ok hrequire, h⟩

/-- **A member that must be there** is asked for first; without it that is the problem. -/
theorem checks_member (v : Value) (name : String) (missing : Failure)
    {good shaped : Value → Prop} {problems : Value → List Failure}
    (hk : ∀ w, v.get? name = some w → Checks (k w) (good w) (shaped w) (problems w)) :
    Checks (do if ← v.has name then k (← v.require name) else throw missing)
      (∃ w, v.get? name = some w ∧ good w)
      (v.IsObject ∧ ∀ w, v.get? name = some w → shaped w)
      (match v.get? name with
        | some w => problems w
        | none => [missing]) := by
  cases hw : v.get? name with
  | some w =>
    rw [(Value.Has.isObject ⟨w, hw⟩).has, hw, Value.require_of_get? hw]
    refine (hk w hw).congr ⟨fun h => ⟨w, rfl, h⟩, ?_⟩ (fun h => h.2 w rfl) fun _ => rfl
    rintro ⟨w', heq, h⟩
    cases heq
    exact h
  | none =>
    refine ⟨⟨?_, nofun⟩, fun ⟨hobject, _⟩ f => ?_⟩
    · rintro ⟨a, ha⟩
      obtain ⟨w, hget, -⟩ := member_ok ha
      cases hw.symm.trans hget
    · have hfail : Checks (.error missing : Except Failure α) False True [missing] := .fail missing
      rw [hobject.has, hw]
      exact hfail.first trivial f

end Member

/-! ## Reading -/

/-- The entry that a transition of a document is read as. -/
def TransitionEntry.ofValue (t : Value) : TransitionEntry where
  target := t.getD "target"
  label := t.getD "label"
  event := t.getD "event"
  guard := t.getD "guard"
  action := t.getD "action"

theorem TransitionEntry.read_checks (t : Value) :
    Checks (read t) (t.Has "target") t.IsObject (transitionProblems t) := by
  have hdone : ∀ target, t.get? "target" = some target →
      Checks (.ok { ofValue t with target } : Except Failure TransitionEntry) True True [] :=
    fun _ _ => .done _
  refine (checks_member t "target" missingTarget hdone).congr
    ⟨fun ⟨w, hw, _⟩ => ⟨w, hw⟩, fun ⟨w, hw⟩ => ⟨w, hw, trivial⟩⟩ (fun h => ⟨h, fun _ _ => trivial⟩)
    fun _ => ?_
  unfold transitionProblems
  cases t.get? "target" <;> rfl

theorem readTransitions_checks (w : Value) :
    Checks (readTransitions w) (ReadableTransitions w)
      (w.IsSequence ∧ ∀ t ∈ w.listItems, t.IsObject) (w.listItems.flatMap transitionProblems) := by
  unfold ReadableTransitions Value.IsSequence
  unfold readTransitions
  cases htruthy : w.truthy with
  | false =>
    have hnone : w.listItems = [] := by
      cases w with
      | list items => simpa [Value.truthy, Value.listItems] using htruthy
      | _ => rfl
    rw [hnone]
    exact (Checks.done _).congr (by simp) (fun _ => trivial) fun _ => rfl
  | true =>
    -- Of what a text or an object gives nothing is a transition, and there is something.
    have hstray : ∀ texts : List String, texts ≠ [] →
        ¬ ∃ a, (texts.map Value.text).mapM TransitionEntry.read = .ok a := by
      intro texts hne hok
      obtain ⟨s, hs⟩ := List.exists_mem_of_ne_nil texts hne
      have hall := (Checks.mapM fun t _ => TransitionEntry.read_checks t).ok.1 hok
      obtain ⟨w, hw⟩ := hall (.text s) (List.mem_map_of_mem hs)
      cases hw
    cases w with
    | list ts =>
      refine (Checks.mapM fun t _ => TransitionEntry.read_checks t).congr ?_ And.right fun _ => rfl
      simp
    | object members =>
      refine ⟨⟨fun hok => absurd hok ?_, by simp⟩, by simp⟩
      have hnot := hstray (members.map Prod.fst) (by simpa [Value.truthy] using htruthy)
      rwa [List.map_map] at hnot
    | text s =>
      refine ⟨⟨fun hok => absurd hok ?_, by simp⟩, by simp⟩
      have hnot := hstray (s.toList.map String.singleton) (by simpa [Value.truthy] using htruthy)
      rwa [List.map_map] at hnot
    | _ => exact ⟨⟨nofun, by simp⟩, by simp⟩

theorem ofValue?_isSome (kind : Value) :
    (StateKind.ofValue? kind).isSome ↔ ∃ word ∈ ["task", "auto", "end"], kind = .text word := by
  cases kind with
  | text word =>
    have hsome : (StateKind.ofValue? (.text word)).isSome =
        (StateKind.all.any fun k => k.word = word) :=
      List.isSome_find?
    rw [hsome, List.any_eq_true]
    simp only [decide_eq_true_eq, Value.text.injEq, exists_eq_right']
    simp [StateKind.all, StateKind.word, @eq_comm _ word]
  | _ => simp [StateKind.ofValue?, Value.text?]

/-- What a state is read as, once its kind is known to be there. -/
def StateEntry.readWith (s kind : Value) : Except Failure StateEntry :=
  match StateKind.ofValue? kind with
  | none => .error (unknownKind kind)
  | some kind => do
    let transitions ← readTransitions (s.getD "transitions")
    return ⟨kind, s.getD "label", s.getD "description", s.getD "icon", s.getD "onEnter",
      s.getD "onExit", transitions⟩

theorem StateEntry.readWith_checks (s kind : Value) :
    Checks (readWith s kind)
      ((StateKind.ofValue? kind).isSome ∧ ReadableTransitions (s.getD "transitions"))
      ((s.getD "transitions").IsSequence ∧ ∀ t ∈ transitionValues s, t.IsObject)
      (kindProblems kind ++ (transitionValues s).flatMap transitionProblems) := by
  unfold readWith kindProblems
  cases StateKind.ofValue? kind with
  | none => exact (Checks.fail _).congr (by simp) (fun _ => trivial) fun _ => rfl
  | some k =>
    have htransitions := readTransitions_checks (s.getD "transitions")
    exact (htransitions.andThen fun transitions => ⟨_, rfl⟩).congr (by simp) id fun _ => rfl

theorem StateEntry.read_checks (s : Value) :
    Checks (read s) (ReadableState s)
      (s.IsObject ∧ (s.getD "transitions").IsSequence ∧ ∀ t ∈ transitionValues s, t.IsObject)
      (stateProblems s) := by
  refine (checks_member s "kind" missingKind fun kind _ => readWith_checks s kind).congr ⟨?_, ?_⟩
    (fun h => ⟨h.1, fun _ _ => h.2⟩) fun _ => ?_
  · rintro ⟨kind, hget, hsome, hreadable⟩
    obtain ⟨word, hword, rfl⟩ := (ofValue?_isSome kind).1 hsome
    exact ⟨⟨word, hword, hget⟩, hreadable⟩
  · rintro ⟨⟨word, hword, hget⟩, hreadable⟩
    exact ⟨_, hget, (ofValue?_isSome _).2 ⟨word, hword, rfl⟩, hreadable⟩
  · unfold stateProblems
    cases s.get? "kind" <;> rfl

theorem readStates_checks (members : List (String × Value)) :
    Checks (readStates members) (∀ s ∈ members, ReadableState s.2)
      (∀ s ∈ members, ListedState s.2) (members.flatMap fun s => stateProblems s.2) := by
  induction members with
  | nil => exact (Checks.done _).congr (by simp) (fun _ => trivial) fun _ => rfl
  | cons m rest ih =>
    have hread := StateEntry.read_checks m.2
    have hcons := hread.bind (g := fun state => readStates rest >>= fun states =>
      pure ((m.1, state) :: states)) fun state _ => ih.andThen fun states => ⟨_, rfl⟩
    refine hcons.congr (by simp) (fun h => ?_) fun _ => rfl
    rw [List.forall_mem_cons] at h
    exact ⟨⟨h.1.object, h.1.transitions, h.1.items⟩, h.2⟩

/-! ## What is read -/

theorem TransitionEntry.read_ok {e : TransitionEntry} (h : read t = .ok e) : e = ofValue t := by
  obtain ⟨w, hw, he⟩ := member_ok h
  cases he
  unfold ofValue
  rw [Value.getD_of_get? hw]

theorem readTransitions_ok {w : Value} {ts : List TransitionEntry}
    (h : readTransitions w = .ok ts) : ts = w.listItems.map TransitionEntry.ofValue := by
  have hgood := (readTransitions_checks w).ok.1 ⟨ts, h⟩
  unfold readTransitions at h
  cases htruthy : w.truthy with
  | false =>
    rw [htruthy] at h
    cases h
    cases w with
    | list items =>
      obtain rfl : items = [] := by simpa [Value.truthy] using htruthy
      rfl
    | _ => rfl
  | true =>
    obtain ⟨items, rfl, -⟩ := hgood.resolve_left (by simp [htruthy])
    rw [htruthy] at h
    have hread := (mapM_forall₂ h).imp fun _ _ ht => TransitionEntry.read_ok ht
    exact (List.forall₂_eq_eq_eq ▸ List.forall₂_map_right_iff.2 hread.flip)

theorem StateKind.ofValue?_eq_some {w : Value} {kind : StateKind} (h : ofValue? w = some kind) :
    w = .text kind.word := by
  cases w with
  | text word =>
    have hfound := List.find?_some (p := fun k : StateKind => decide (k.word = word)) h
    rw [of_decide_eq_true hfound]
  | _ => cases h

theorem StateEntry.read_ok {e : StateEntry} (h : read s = .ok e) :
    s.get? "kind" = some (.text e.kind.word) ∧
      e = ⟨e.kind, s.getD "label", s.getD "description", s.getD "icon", s.getD "onEnter",
        s.getD "onExit", (transitionValues s).map TransitionEntry.ofValue⟩ := by
  obtain ⟨kind, hkind, he⟩ := member_ok (k := readWith s) h
  unfold readWith at he
  split at he
  · cases he
  next k hk =>
    obtain ⟨ts, hts, he⟩ := ok_of_bind he
    cases he
    rw [hkind, StateKind.ofValue?_eq_some hk, readTransitions_ok hts]
    exact ⟨rfl, rfl⟩

/-- Each state is read under its name. -/
theorem readStates_ok {members : List (String × Value)} {es : List (String × StateEntry)}
    (h : readStates members = .ok es) :
    List.Forall₂ (fun m e => e.1 = m.1 ∧ StateEntry.read m.2 = .ok e.2) members es := by
  induction members generalizing es with
  | nil =>
    cases h
    exact .nil
  | cons m rest ih =>
    unfold readStates at h
    obtain ⟨e, hm, h⟩ := ok_of_bind h
    obtain ⟨es', hrest, h⟩ := ok_of_bind h
    cases h
    exact .cons ⟨rfl, hm⟩ (ih hrest)

namespace Document

theorem missing_eq (h : v.IsObject) (names : List String) :
    missing v names = .ok (names.filter fun name => (v.get? name).isNone) := by
  induction names with
  | nil => rfl
  | cons name rest ih =>
    unfold missing
    rw [h.has, ih, List.filter_cons]
    cases v.get? name <;> rfl

theorem absent_eq_nil : absent v = [] ↔ v.Has "id" ∧ v.Has "initialState" ∧ v.Has "states" := by
  unfold absent required Value.Has
  simp [← ne_eq, Option.ne_none_iff_exists']

/-- A document without all members has no answer, whatever it is. -/
theorem read_eq (hid : v.Has "id") (hinitial : v.Has "initialState") {w : Value}
    (hstates : v.get? "states" = some w) :
    read v =
      match w with
      | .object members => do
        let states ← readStates members
        return ⟨v.getD "id", v.getD "initialState", Dict.ofList states,
          (v.get? "version").getD (.int 1), (v.get? "description").getD (.text "")⟩
      | _ => .error (.malformed .noObject) := by
  have habsent : absent v = [] := absent_eq_nil.2 ⟨hid, hinitial, w, hstates⟩
  have hmissing := missing_eq hid.isObject required
  obtain ⟨id, hid⟩ := hid
  obtain ⟨initial, hinitial⟩ := hinitial
  unfold absent at habsent
  unfold read
  rw [hmissing, habsent, Value.getD_of_get? hid, Value.getD_of_get? hinitial]
  simp only [bind, Except.bind, Value.require_of_get? hid, Value.require_of_get? hinitial,
    Value.require_of_get? hstates]
  cases w <;> rfl

/-- Only a document that has all members can be read. -/
theorem has_of_read {doc : Document} (h : read v = .ok doc) :
    v.Has "id" ∧ v.Has "initialState" ∧ v.Has "states" := by
  by_cases hobject : v.IsObject
  · refine absent_eq_nil.1 ?_
    have hmissing := missing_eq hobject required
    unfold read at h
    rw [hmissing] at h
    cases hnames : required.filter fun name => (v.get? name).isNone with
    | nil => exact hnames
    | cons name names =>
      rw [hnames] at h
      cases h
  · have hrequire : ∃ f, v.require "id" = .error f := by
      cases hid : v.require "id" with
      | error f => exact ⟨f, rfl⟩
      | ok w => exact absurd (Value.Has.isObject ⟨w, Value.require_ok hid⟩) hobject
    obtain ⟨f, hid⟩ := hrequire
    unfold read at h
    cases hmissing : missing v required with
    | error f' =>
      rw [hmissing] at h
      cases h
    | ok names =>
      rw [hmissing] at h
      cases names with
      | nil =>
        simp only [bind, Except.bind, hid] at h
        cases h
      | cons name names => cases h

theorem stateValues_of_get? {members : List (String × Value)}
    (h : v.get? "states" = some (.object members)) : stateValues v = members := by
  unfold stateValues
  rw [h]

theorem read_checks (v : Value) :
    Checks (read v) (Readable v)
      (v.IsObject ∧ ∀ w, v.get? "states" = some w →
        ∃ members, w = .object members ∧ ∀ s ∈ members, ListedState s.2)
      (match absent v with
        | [] => (stateValues v).flatMap fun s => stateProblems s.2
        | names => [.invalid (names.map missingMember)]) := by
  cases habsent : absent v with
  | nil =>
    obtain ⟨hid, hinitial, w, hw⟩ := absent_eq_nil.1 habsent
    rw [read_eq hid hinitial hw]
    cases w with
    | object members =>
      rw [stateValues_of_get? hw]
      refine ((readStates_checks members).andThen fun states => ⟨_, rfl⟩).congr ?_ ?_ fun _ => rfl
      · constructor
        · exact fun h => ⟨hid, hinitial, members, hw, h⟩
        · rintro ⟨-, -, members', hw', h⟩
          cases hw.symm.trans hw'
          exact h
      · rintro ⟨-, h⟩
        obtain ⟨members', heq, hshaped⟩ := h _ hw
        cases heq
        exact hshaped
    | _ =>
      refine (Checks.misshapen _).congr ⟨False.elim, ?_⟩ ?_ fun _ => rfl
      · rintro ⟨-, -, members, hw', -⟩
        cases hw.symm.trans hw'
      · rintro ⟨-, h⟩
        obtain ⟨members, heq, -⟩ := h _ hw
        cases heq
  | cons name names =>
    have hnot : ¬ (v.Has "id" ∧ v.Has "initialState" ∧ v.Has "states") := by
      rw [← absent_eq_nil, habsent]
      nofun
    refine ⟨⟨fun ⟨doc, hdoc⟩ => absurd (has_of_read hdoc) hnot, ?_⟩, fun ⟨hobject, _⟩ f => ?_⟩
    · rintro ⟨hid, hinitial, members, hw, -⟩
      exact absurd ⟨hid, hinitial, _, hw⟩ hnot
    · have hread : read v = .error (.invalid ((name :: names).map missingMember)) := by
        have hmissing := missing_eq hobject required
        unfold absent at habsent
        unfold read
        rw [hmissing, habsent]
        rfl
      have hfail : Checks (.error (.invalid ((name :: names).map missingMember)) :
        Except Failure Document) False True [_] := .fail _
      rw [hread]
      exact hfail.first trivial f

theorem read_ok {doc : Document} (h : read v = .ok doc) :
    ∃ es, List.Forall₂ (fun m e => e.1 = m.1 ∧ StateEntry.read m.2 = .ok e.2) (stateValues v) es ∧
      doc = ⟨v.getD "id", v.getD "initialState", Dict.ofList es,
        (v.get? "version").getD (.int 1), (v.get? "description").getD (.text "")⟩ := by
  obtain ⟨hid, hinitial, members, hw, -⟩ := (read_checks v).ok.1 ⟨doc, h⟩
  have hvalues := stateValues_of_get? hw
  rw [read_eq hid hinitial hw] at h
  obtain ⟨es, hes, h⟩ := ok_of_bind h
  cases h
  exact ⟨es, hvalues ▸ readStates_ok hes, rfl⟩

end Document

end Workflow
