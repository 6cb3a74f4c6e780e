import Workflow.Proofs.Document.Keyed
import Workflow.Proofs.Run.Guards
import Workflow.Proofs.Run.History
import Workflow.Proofs.Run.Twins

/-!
# Replaying a history

A run is *played* by starting it and sending events (`Definition.play`). Its history records an
event for each of those that moved it, and none for the moves that it made by itself.

**Two runs.** The second gets only the recorded events. An event that leaves the first run as it is
is not sent to the second, and changes no view, since only guards were called for it. An event that
moves the first is sent to the second, and both stay twins. An event that fails before a move is
recorded ends the first run, and the second stays where it is.

Main result: `replay_faithful`.
-/

namespace Workflow

open Activity

/-- Sends events one after the other. -/
def Instance.sendAll (d : Definition) (limits : Limits) :
    List String → Instance → Activity Realm.flow Instance
  | [], i => .done i
  | event :: rest, i => (i.send d limits event).bind fun out => sendAll d limits rest out.reached

/-- Starts a run, lets it settle and sends events to it. -/
def Definition.play (d : Definition) (limits : Limits) (c : Context) (id : Option String)
    (events : List String) : Activity Realm.flow Instance :=
  (d.startAndSettle limits c id).bind (Instance.sendAll d limits events)

/-- The events that a history records, in order. -/
def recorded (history : List Visit) : List String := history.filterMap (·.event.text?)

namespace Instance

variable {d : Definition} {V : Type} {view : Arena → Datum → V} {c c' : Context}
  {i j k : Instance} {ts : List Transition} {event : Value} {events : List Value}
  {limits : Limits} {e e' : Environment}

/-! ## What is recorded -/

/-- A record of events is one of marks. -/
theorem recorded_eq_marks (history : List Visit) :
    recorded history = (history.map Visit.mark).filterMap fun m => m.2.2.text? := by
  rw [List.filterMap_map]
  rfl

theorem Moves.marks (h : Moves d i event j) :
    ∃ state transition, j.history.map Visit.mark =
      i.history.map Visit.mark ++ [(state, transition, event)] := by
  obtain ⟨moment, -, -, -, -, -, -⟩ := h
  next target t =>
  exact ⟨target.id, t.id, i.moved_marks t target event moment⟩

theorem Moves.recorded (h : Moves d i event j) :
    recorded j.history = recorded i.history ++ event.text?.toList := by
  obtain ⟨state, transition, hm⟩ := h.marks
  rw [recorded_eq_marks, recorded_eq_marks, hm, List.filterMap_append]
  cases ht : event.text? <;> simp [ht]

theorem Path.recorded {n : Nat} (h : Path d i (List.replicate n .null) j) :
    recorded j.history = recorded i.history := by
  generalize hes : List.replicate n Value.null = events at h
  induction h generalizing n with
  | stay => rfl
  | go hm _ ih =>
    cases n with
    | zero => cases hes
    | succ n =>
      obtain ⟨rfl, hrest⟩ := List.cons.inj hes
      rw [ih hrest, hm.recorded]
      exact List.append_nil _

theorem EndsAs.history (h : EndsAs i j) : j.history = i.history := by
  cases h <;> rfl

theorem Moves.length (h : Moves d i event j) : i.history.length < j.history.length := by
  obtain ⟨moment, -, -, -, -, -, -⟩ := h
  rw [moved_length]
  omega

theorem Path.length (h : Path d i events j) : i.history.length ≤ j.history.length := by
  induction h with
  | stay => exact Nat.le_refl _
  | go hm _ ih =>
    have hlt := hm.length
    omega

/-! ## Events that change nothing -/

/-- A setback does not leave a running snapshot as it is. -/
theorem refuseWith_ne {s : Setback} {out : Dispatch} (hr : i.status = .running)
    (h : ((i.refuseWith s).run e).answer = .ok out) : out.reached ≠ i := by
  obtain ⟨failed, hf, h⟩ := run_bind_ok h
  rw [(run_markFailed i s e).1] at hf
  cases hf
  cases h
  intro hout
  have hstatus : Status.failed = i.status := congrArg Instance.status hout
  rw [hr] at hstatus
  cases hstatus

/-- An event that leaves the snapshot as it is keeps the view of its context. -/
theorem send_shows (hd : d.SeenThrough view) {name : String} {out : Dispatch} {v : V}
    (he : Shows view i.ctx v e) (h : ((i.send d limits name).run e).answer = .ok out)
    (hout : out.reached = i) : Shows view i.ctx v ((i.send d limits name).run e).world := by
  unfold send at h ⊢
  split
  · exact he
  next hr =>
  rw [if_neg hr] at h
  have hr : i.status = .running := by simpa using hr
  split
  · exact he
  next state hs =>
  rw [hs] at h
  dsimp only at h
  split
  · exact he
  next hempty =>
  rw [if_neg hempty] at h
  split
  · exact he
  next hnone =>
  rw [if_neg hnone] at h
  have hguards : ∀ t ∈ state.transitionsFor name, ∀ h ∈ t.guard, h.Judges view := fun t ht =>
    hd.guards hs t (List.mem_filter.1 ht).1
  obtain ⟨selected, hsel, h⟩ := run_bind_ok h
  have hkept := select_keeps hguards v e he
  rw [run_bind_of_ok hsel]
  rcases selected with f | _ | t
  · exact absurd hout (refuseWith_ne hr h)
  · exact hkept
  obtain ⟨result, hmove, h⟩ := run_bind_ok h
  rcases result with s | next
  · exact absurd hout (refuseWith_ne hr h)
  · -- A move makes the history longer, so it has not led back to the same snapshot.
    obtain ⟨settled, hsettle, h⟩ := run_bind_ok h
    cases h
    obtain ⟨-, target, moment, -, -, rfl⟩ := move_ok (hmove ▸ canEnd_run _ _)
    obtain ⟨n, k, hp, hk⟩ := settle_path (hsettle ▸ canEnd_run _ _)
    have hmoved := moved_length i t target (.text name) moment
    have hpath := hp.length
    have hsame : settled.history = i.history := congrArg Instance.history hout
    rw [← hk.history, hsame] at hpath
    omega

/-- **What an event does**: nothing, or it makes the run fail, or it moves the run and is
recorded. -/
theorem send_cases (hd : d.SeenThrough view) {name : String} {out : Dispatch} {v : V}
    (he : Shows view i.ctx v e) (h : ((i.send d limits name).run e).answer = .ok out) :
    (out.reached = i ∧ Shows view i.ctx v ((i.send d limits name).run e).world) ∨
      (∃ f, out.reached = i.failed f) ∨
      recorded out.reached.history = recorded i.history ++ [name] := by
  rcases send_path (h ▸ canEnd_run _ _) with hend | ⟨j, n, k, hm, hp, hend⟩
  · generalize hout : out.reached = j at hend
    cases hend with
    | well => exact .inl ⟨rfl, send_shows hd he h hout⟩
    | failed f => exact .inr (.inl ⟨f, rfl⟩)
  · rw [hend.history, hp.recorded, hm.recorded]
    exact .inr (.inr rfl)

/-! ## Two runs -/

/-- Events that are sent to a finished run do nothing. -/
theorem run_sendAll_finished (hi : i.status ≠ .running) (names : List String) :
    (sendAll d limits names i).run e = ⟨.ok i, e, []⟩ := by
  induction names with
  | nil => rfl
  | cons name rest ih =>
    have hsend : i.send d limits name = i.refuse := by
      unfold send
      rw [if_pos hi]
    unfold sendAll
    rw [hsend]
    exact ih

theorem run_sendAll_cons {name : String} {out : Dispatch} (names : List String)
    (hout : ((i.send d limits name).run e).answer = .ok out) :
    ((sendAll d limits (name :: names) i).run e).answer =
        ((sendAll d limits names out.reached).run ((i.send d limits name).run e).world).answer ∧
      ((sendAll d limits (name :: names) i).run e).world =
        ((sendAll d limits names out.reached).run ((i.send d limits name).run e).world).world := by
  rw [sendAll, run_bind_of_ok hout]
  exact ⟨rfl, rfl⟩

/-- A run that has come where another one is, and is its twin unless that one has failed. -/
structure Follows (view : Arena → Datum → V) (c c' : Context) (i j : Instance)
    (e e' : Environment) : Prop where
  marks : j.history.map Visit.mark = i.history.map Visit.mark
  current : j.current = i.current
  twins : i.status ≠ .failed → Twins c c' i j ∧ Abreast view c c' e e'

/-- **The recorded events lead a twin to the same place.** -/
theorem sendAll_follows (hd : d.SeenThrough view) {names : List String} (hij : Twins c c' i j)
    (he : Abreast view c c' e e') (h : ((sendAll d limits names i).run e).answer = .ok k) :
    ∃ rest l, recorded k.history = recorded i.history ++ rest ∧
      ((sendAll d limits rest j).run e').answer = .ok l ∧
      Follows view c c' k l ((sendAll d limits names i).run e).world
        ((sendAll d limits rest j).run e').world := by
  induction names generalizing i j e e' with
  | nil =>
    cases h
    exact ⟨[], j, (List.append_nil _).symm, rfl, hij.marks.symm, hij.current.symm,
      fun _ => ⟨hij, he⟩⟩
  | cons name names ih =>
    obtain ⟨out, hout, -⟩ := run_bind_ok h
    obtain ⟨hanswer, hworld⟩ := run_sendAll_cons names hout
    rw [hanswer] at h
    rw [hworld]
    have hshows : Shows view i.ctx (view (e'.arena c'.arena) c'.root) e := by
      rw [hij.ctx]
      exact ⟨he.first, he.same⟩
    rcases send_cases hd hshows hout with ⟨hi, hkept⟩ | ⟨f, hf⟩ | hrec
    · -- Nothing happened, and nothing is sent to the twin.
      rw [hij.ctx] at hkept
      rw [hi] at h ⊢
      exact ih hij ⟨hkept.1, he.second, hkept.2⟩ h
    · -- The first run has failed, and its record is complete.
      have hfailed : (i.failed f).status ≠ .running := nofun
      rw [hf, run_sendAll_finished hfailed] at h
      rw [hf, run_sendAll_finished hfailed]
      cases h
      exact ⟨[], j, (List.append_nil _).symm, rfl, hij.marks.symm, hij.current.symm,
        fun hk => absurd rfl hk⟩
    · -- Both runs move.
      obtain ⟨hagree, habreast⟩ := send_tied hd limits hij name e e' he
      rw [hout] at hagree
      generalize hout' : ((j.send d limits name).run e').answer = answer at hagree
      cases hagree with
      | ok htwins =>
        obtain ⟨rest, l, hk, hl, hfollows⟩ := ih htwins habreast h
        obtain ⟨hanswer', hworld'⟩ := run_sendAll_cons rest hout'
        refine ⟨name :: rest, l, ?_, ?_, ?_⟩
        · rw [hk, hrec, List.append_assoc, List.singleton_append]
        · rw [hanswer']
          exact hl
        · rw [hworld']
          exact hfollows

end Instance

open Instance

variable {d : Definition} {V : Type} {view : Arena → Datum → V} {c c' : Context}
  {i : Instance} {limits : Limits} {e e' : Environment}

theorem startAndSettle_tied (hd : d.SeenThrough view) (limits : Limits) (id id' : Option String) :
    Tied (Abreast view c c') (Twins c c') (d.startAndSettle limits c id)
      (d.startAndSettle limits c' id') :=
  (start_tied id id').bind fun _ _ hij => settle_tied hd hij

/-- Starting and settling records no event. -/
theorem startAndSettle_recorded {id : Option String}
    (h : (d.startAndSettle limits c id).CanEnd (.ok i)) : recorded i.history = [] := by
  obtain ⟨i₀, hi₀, h⟩ := canEnd_bind_ok h
  obtain ⟨name, moment, rfl⟩ := Definition.start_ok hi₀
  obtain ⟨n, j, hp, hend⟩ := settle_path h
  rw [hend.history, hp.recorded]
  rfl

/-- **A history is a faithful replay log.** The events that it records lead another run, whose
context has the same view, along the same history to the same state. If the first run did not fail,
both have the same status and the same content. -/
theorem replay_faithful (hd : d.SeenThrough view)
    (hview : ∀ {a b : Arena} {r s : Datum}, view a r = view b s → a.load r = b.load s)
    (he : Abreast view c c' e e') (id id' : Option String) {names : List String}
    (h : ((d.play limits c id names).run e).answer = .ok i) :
    ∃ j, ((d.play limits c' id' (recorded i.history)).run e').answer = .ok j ∧
      j.history.map Visit.mark = i.history.map Visit.mark ∧ j.current = i.current ∧
      (i.status ≠ .failed → j.status = i.status ∧
        ((d.play limits c' id' (recorded i.history)).run e').world.read j.ctx =
          ((d.play limits c id names).run e).world.read i.ctx) := by
  obtain ⟨i₀, hi₀, hi⟩ := run_bind_ok h
  obtain ⟨hagree, habreast⟩ := startAndSettle_tied hd limits id id' e e' he
  rw [hi₀] at hagree
  generalize hj₀ : ((d.startAndSettle limits c' id').run e').answer = answer at hagree
  cases hagree with
  | @ok _ j₀ htwins =>
    obtain ⟨rest, j, hrest, hj, hfollows⟩ := sendAll_follows hd htwins habreast hi
    have hempty : recorded i₀.history = [] :=
      startAndSettle_recorded (hi₀ ▸ canEnd_run (d.startAndSettle limits c id) e)
    rw [hempty, List.nil_append] at hrest
    rw [hrest]
    unfold Definition.play
    rw [run_bind_of_ok hi₀, run_bind_of_ok hj₀]
    refine ⟨j, hj, hfollows.marks, hfollows.current, fun hstatus => ?_⟩
    obtain ⟨hij, hworlds⟩ := hfollows.twins hstatus
    refine ⟨hij.status.symm, ?_⟩
    rw [hij.ctx, hij.ctx']
    exact (hview hworlds.same).symm

/-! ## A shop -/

/-- The shop has stock as long as its list is not empty. -/
def stocked : Hook where
  name := "stocked"
  body root := .done (.datum root)

/-- Takes the first item off a list. -/
def takeFirst (root : Datum) (a : Arena) : Arena :=
  match root, a.cell? root with
  | .ref n, some (.list (_ :: rest)) => a.setCell n (.list rest)
  | _, _ => a

def takeItem : Hook where
  name := "take_item"
  body root := .update (takeFirst root) (.done (.datum .null))

/-- A shop that sells what its context lists. After each sale it opens again by itself. -/
def shop : Definition where
  id := .text "shop"
  initial := "open"
  states := Dict.ofList [
    ("open", { id := "open", transitions := [
      { target := .text "packing", event := .text "buy", guard := some stocked,
        action := some takeItem }] }),
    ("packing", { id := "packing", kind := .auto, transitions := [{ target := .text "open" }] })]

theorem shop_seen : shop.SeenThrough wholeView where
  guards hs t ht h hh := by
    have hstocked : h = stocked := by
      have hmem := Dict.get?_ofList_mem hs
      simp only [List.mem_cons, List.not_mem_nil, or_false, Prod.mk.injEq] at hmem
      rcases hmem with ⟨-, rfl⟩ | ⟨-, rfl⟩ <;> cases List.mem_singleton.1 ht <;> cases hh
      rfl
    subst hstocked
    exact stocked.judges_whole fun _ _ => rfl
  actions _ _ _ h _ := h.acts_whole
  exits _ h _ := h.acts_whole
  entries _ h _ := h.acts_whole

/-- The world of a first shop, with two items. -/
def firstShop : Environment :=
  { stoppedAt 0 with contexts := ⟨#[⟨#[.list [.text "cup", .text "lamp"]]⟩]⟩ }

/-- A later world, with another context like it. -/
def secondShop : Environment :=
  { stoppedAt 60 with contexts := ⟨#[⟨#[]⟩, ⟨#[.list [.text "cup", .text "lamp"]]⟩]⟩ }

/-- The visits of a shop that has sold two items. -/
def sales : List (String × Value × Value) :=
  [("open", .null, .null), ("packing", .null, .text "buy"), ("open", .null, .null),
    ("packing", .null, .text "buy"), ("open", .null, .null)]

theorem replay_faithful_shop :
    shop.SeenThrough wholeView ∧
      Abreast wholeView ⟨0, .ref 0⟩ ⟨1, .ref 0⟩ firstShop secondShop ∧
      ∃ i j,
        ((shop.play {} ⟨0, .ref 0⟩ (some "first") ["buy", "shout", "buy", "buy"]).run
          firstShop).answer = .ok i ∧
        recorded i.history = ["buy", "buy"] ∧
        ((shop.play {} ⟨1, .ref 0⟩ none ["buy", "buy"]).run secondShop).answer = .ok j ∧
        j.history.map Visit.mark = sales ∧ j.status = .running ∧
        ((shop.play {} ⟨1, .ref 0⟩ none ["buy", "buy"]).run secondShop).world.read j.ctx =
          .list [] := by
  have hrun : ∃ i, ((shop.play {} ⟨0, .ref 0⟩ (some "first") ["buy", "shout", "buy", "buy"]).run
      firstShop).answer = .ok i ∧ i.ctx = ⟨0, .ref 0⟩ ∧ i.status = .running ∧
        i.history.map Visit.mark = sales := ⟨_, rfl, rfl, rfl, rfl⟩
  obtain ⟨i, hi, hctx, hstatus, hmarks⟩ := hrun
  have hrec : recorded i.history = ["buy", "buy"] := by
    rw [recorded_eq_marks, hmarks]
    rfl
  have hview : ∀ {a b : Arena} {r s : Datum}, wholeView a r = wholeView b s →
      a.load r = b.load s := by
    rintro a b r s ⟨⟩
    rfl
  have habreast : Abreast wholeView ⟨0, .ref 0⟩ ⟨1, .ref 0⟩ firstShop secondShop :=
    ⟨Nat.zero_lt_one, Nat.one_lt_two, rfl⟩
  obtain ⟨j, hj, hsame, -, hwell⟩ :=
    replay_faithful shop_seen hview habreast (some "first") none hi
  rw [hrec] at hj hwell
  obtain ⟨hstatus', hread⟩ := hwell (by rw [hstatus]; nofun)
  refine ⟨shop_seen, habreast, i, j, hi, hrec, hj, hsame.trans hmarks, hstatus'.trans hstatus, ?_⟩
  rw [hread, hctx]
  rfl

end Workflow
