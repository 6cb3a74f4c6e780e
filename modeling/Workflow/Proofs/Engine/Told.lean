import Workflow.Proofs.Engine.Bookkeeping
import Workflow.Proofs.Engine.Linear
import Workflow.Proofs.Run.Candidates

/-!
# Observers follow the path of an instance

Observers are told of dispatches after the lock has been given back, and only if the state has
changed. Still they miss nothing: what they are told leads from state to state without a gap.

**News** (`Engine.news`). The notices of the dispatches on an instance, in the order in which the
outcomes were stored. Dispatches that were refused, that failed or that came back to the same state
give none.

**Attentive observers** (`Reaction.Attentive`) neither pause nor call the engine, and raise nothing
but contained failures. They are told in the same turn in which the outcome was stored. So whenever
a turn is over, all that was due has been told (`Engine.InTime`).

**Unbroken news** (`Unbroken`). Between two pieces of news the state stays the same. The only
dispatches that change it and are no news are those whose entry hook fails, and nothing can be
dispatched after one of these.

Main result: `observers_follow`, for all calls at the same time in every order of turns.
-/

namespace Workflow

open Activity

/-! ## Attentive observers -/

/-- The reaction neither pauses nor calls the engine, and its failures are contained. -/
def Reaction.Attentive : Reaction → Prop
  | .done => True
  | .fail f => f.isContained
  | .note _ next => next.Attentive
  | .yield _ | .subscribe _ _ | .unsubscribe _ _ | .send _ _ _ => False

/-- The observers that the engine can be told to call are attentive. -/
def Engine.AttentiveObservers (e : Engine) : Prop := ∀ o ∈ e.directory, ∀ n, (o.react n).Attentive

theorem Engine.AttentiveObservers.reactionOf {e : Engine} (h : e.AttentiveObservers) (name : String)
    (n : Notice) : (e.reactionOf name n).Attentive := by
  unfold Engine.reactionOf
  split
  next o ho => exact h o (List.mem_of_find?_eq_some ho) n
  · trivial

/-! ## News -/

/-- What observers are to be told of a deed. -/
def Deed.notice? : Deed → Option Notice
  | .dispatched event before out =>
    if Engine.isNews before out then
      some ⟨before.current, out.reached.current, event, out.reached⟩
    else none
  | _ => none

/-- Who is told what. -/
def Deed.tidings? : Deed → Option (String × Notice)
  | .told name n => some (name, n)
  | _ => none

def Entry.notice? (id : String) (x : Entry) : Option Notice :=
  if x.id = some id then x.deed.notice? else none

def Entry.tidings? (id : String) (x : Entry) : Option (String × Notice) :=
  if x.id = some id then x.deed.tidings? else none

theorem Entry.notice?_self (n : Nat) (id : String) (y : Deed) :
    (⟨n, some id, y⟩ : Entry).notice? id = y.notice? :=
  if_pos rfl

/-- News is of a dispatch on a snapshot. -/
theorem Entry.notice?_isSome {id : String} {x : Entry} (h : (x.notice? id).isSome) :
    x.id = some id ∧ ∃ before, x.deed.before? = some before := by
  unfold Entry.notice? at h
  split at h
  next hid =>
    refine ⟨hid, ?_⟩
    revert h
    cases x.deed <;> simp [Deed.notice?, Deed.before?]
  next => cases h

/-- The notices lead from the first state to the last without a gap. -/
def Unbroken : String → List Notice → String → Prop
  | first, [], last => last = first
  | first, n :: rest, last => n.source = first ∧ Unbroken n.target rest last

theorem Unbroken.concat {first last : String} {l : List Notice} {n : Notice}
    (h : Unbroken first l last) (hn : n.source = last) : Unbroken first (l ++ [n]) n.target := by
  induction l generalizing first with
  | nil =>
    cases h
    exact ⟨hn, rfl⟩
  | cons _ _ ih => exact ⟨h.1, ih h.2⟩

namespace Engine

/-- The notices of the dispatches on an instance, in the order in which the outcomes were stored. -/
def news (id : String) (log : List Entry) : List Notice := log.filterMap (Entry.notice? id)

/-- All that was told about an instance, in order. -/
def tidings (id : String) (log : List Entry) : List (String × Notice) :=
  log.filterMap (Entry.tidings? id)

/-- What one observer was told about an instance. -/
def heard (name id : String) (log : List Entry) : List Notice :=
  ((tidings id log).filter fun x => x.1 == name).map Prod.snd

/-- What is to be told about an instance, beginning with these observers. -/
def due (id : String) : List String → List Entry → List (String × Notice)
  | _, [] => []
  | names, x :: rest =>
    (x.notice? id).elim [] (fun n => names.map fun name => (name, n)) ++
      due id (x.deed.enroll names) rest

/-- All that was due has been told. -/
def InTime (w : EngineState) (log : List Entry) : Prop :=
  ∀ id, tidings id log = due id w.observers log

section News

variable {w : EngineState} {id name : String} {log log' : List Entry} {x : Entry} {k : Nat}

theorem due_concat : due id w.observers (log ++ [x]) = due id w.observers log ++
    (x.notice? id).elim [] fun n => (enrolled w log).map fun name => (name, n) := by
  suffices h : ∀ names, due id names (log ++ [x]) = due id names log ++
      (x.notice? id).elim [] fun n =>
        (log.foldl (fun names y => y.deed.enroll names) names).map fun name => (name, n) from
    h w.observers
  induction log with
  | nil =>
    intro names
    simp [due]
  | cons y rest ih =>
    intro names
    simp only [List.cons_append, due, ih, List.foldl_cons, List.append_assoc]

theorem tidings_append : tidings id (log ++ log') = tidings id log ++ tidings id log' :=
  List.filterMap_append

/-- Entries that are no news make nothing due. -/
theorem due_append_of_none (h : ∀ x ∈ log', x.notice? id = none) :
    due id w.observers (log ++ log') = due id w.observers log := by
  induction log' using List.reverseRecOn with
  | nil => rw [List.append_nil]
  | append_singleton log' x ih =>
    have hx : x.notice? id = none := h x (by simp)
    rw [← List.append_assoc, due_concat, hx, ih fun y hy => h y (by simp [hy])]
    exact List.append_nil _

theorem silently_inTime : Silently (InTime w) := by
  intro log y hy h id
  have hnone : y.notice? id = none ∧ y.tidings? id = none := by
    unfold Entry.notice? Entry.tidings?
    revert hy
    cases y.deed <;> simp [Deed.Silent, Deed.notice?, Deed.tidings?]
  rw [tidings_append, due_concat, hnone.1, h id]
  simp [tidings, hnone.2]

/-- Everyone is told of a dispatch. -/
def tellings (n : Nat) (id event : String) (before : Instance) (out : Dispatch)
    (names : List String) : List Entry :=
  if isNews before out then
    names.map fun name =>
      ⟨n, some id, .told name ⟨before.current, out.reached.current, event, out.reached⟩⟩
  else []

theorem mem_tellings {n : Nat} {event : String} {before : Instance} {out : Dispatch}
    {names : List String} (h : x ∈ tellings n id event before out names) :
    ∃ name notice, x = ⟨n, some id, .told name notice⟩ := by
  unfold tellings at h
  split at h
  · obtain ⟨name, -, rfl⟩ := List.mem_map.1 h
    exact ⟨name, _, rfl⟩
  · cases h

/-- A dispatch that all who are enrolled have been told of. -/
theorem InTime.dispatched (h : InTime w log) (n : Nat) (id event : String) (before : Instance)
    (out : Dispatch) :
    InTime w (log ++ [⟨n, some id, .dispatched event before out⟩] ++
      tellings n id event before out (enrolled w log)) := by
  intro id'
  have hnone : ∀ x ∈ tellings n id event before out (enrolled w log), x.notice? id' = none := by
    intro x hx
    obtain ⟨name, notice, rfl⟩ := mem_tellings hx
    exact ite_self _
  rw [due_append_of_none hnone, due_concat, tidings_append, tidings_append, h id',
    List.append_assoc]
  refine congrArg _ ?_
  by_cases hid : id = id' <;> by_cases hnews : isNews before out <;>
    simp [tidings, tellings, Entry.notice?, Entry.tidings?, Deed.notice?, Deed.tidings?, hid, hnews,
      List.filterMap_map, Function.comp_def]

/-- An observer who was enrolled so many times whenever there was news. -/
theorem heard_of_count (h : InTime w log)
    (hcount : ∀ log₁ x log₂, log = log₁ ++ x :: log₂ → (x.notice? id).isSome →
      (enrolled w log₁).count name = k) :
    heard name id log = (news id log).flatMap (List.replicate k) := by
  unfold heard
  rw [h id]
  clear h
  induction log using List.reverseRecOn with
  | nil => rfl
  | append_singleton log x ih =>
    have hlog := ih fun log₁ y log₂ hsplit =>
      hcount log₁ y (log₂ ++ [x]) (by rw [hsplit, List.append_assoc, List.cons_append])
    rw [due_concat, List.filter_append, List.map_append, hlog, news, news, List.filterMap_append,
      List.flatMap_append]
    refine congrArg _ ?_
    cases hx : x.notice? id with
    | none => simp [hx]
    | some n =>
      have hk : (enrolled w log).count name = k := hcount log x [] rfl (by rw [hx]; rfl)
      simp [hx, List.filter_map, Function.comp_def, List.filter_beq, hk]

end News

/-! ## Telling -/

section Telling

variable {e : Engine} {w₀ : EngineState} {n : Nat} {id event : String}
  {sendBy : String → String → MarkedCall Dispatch}

/-- Nothing but these entries has been added to the reports. -/
def Notes {A : Accord Realm.chronicled} (l : List Entry) (m m' : Moment A) : Prop :=
  ∃ log, m' = { m with log := log } ∧ marks log = marks m.log ++ l

/-- What an attentive observer does leaves no entry. -/
theorem follows_performBy {A : Accord Realm.chronicled} {m : Moment A} {r : Reaction}
    (hr : r.Attentive) : (performBy n sendBy r).Follows A n
      (fun m' a => Notes [] m m' ∧ ∀ f, a = .error f → f.isContained) m := by
  induction r generalizing m with
  | done => exact ⟨⟨m.log, rfl, by simp⟩, nofun⟩
  | fail f =>
    refine ⟨⟨m.log, rfl, by simp⟩, fun f' hf => ?_⟩
    cases hf
    exact hr
  | note v next ih =>
    refine Follows.mono (ih hr) fun m' a h => ⟨?_, h.2⟩
    obtain ⟨log, rfl, hlog⟩ := h.1
    exact ⟨log, rfl, hlog⟩
  | yield next ih => exact hr.elim
  | subscribe name next ih => exact hr.elim
  | unsubscribe name next ih => exact hr.elim
  | send id event k ih => exact hr.elim

/-- Attentive observers are all told, one after the other. -/
theorem follows_tellAllBy (he : e.AttentiveObservers) {A : Accord Realm.chronicled}
    {notice : Notice} (names : List String) {m : Moment A} :
    (tellAllBy e n id sendBy notice names).Follows A n (fun m' r =>
      r = .ok () ∧ Notes (names.map fun name => ⟨n, some id, .told name notice⟩) m m') m := by
  induction names generalizing m with
  | nil => exact ⟨rfl, m.log, rfl, by simp⟩
  | cons name rest ih =>
    let y : Entry := ⟨n, some id, .told name notice⟩
    let m₁ : Moment A := { m with log := .inr y :: m.log }
    have hmarks : marks m₁.log = marks m.log ++ [y] := marks_inr y m.log
    have hreaction : (performBy n sendBy (e.reactionOf name notice)).contained.Follows A n
        (fun m' r => Notes [] m₁ m' ∧ ∃ a, r = .ok a) m₁ := by
      refine (follows_performBy (he.reactionOf name notice)).contained
        (fun m' a h => ⟨h.1, _, rfl⟩) fun m' f h => ⟨h.1, _, if_pos (h.2 f rfl)⟩
    refine hreaction.bind (fun m' r h => ?_) fun m' f h => ?_
    · obtain ⟨⟨log, rfl, hlog⟩, -⟩ := h
      have hrest : ∀ log', marks log' = marks log →
          (tellAllBy e n id sendBy notice rest).Follows A n (fun m' r => r = .ok () ∧
            Notes ((name :: rest).map fun name => ⟨n, some id, .told name notice⟩) m m')
            { m with log := log' } := by
        intro log' hlog'
        refine Follows.mono ih fun m'' a h => ⟨h.1, ?_⟩
        obtain ⟨-, log'', rfl, hlog''⟩ := h
        refine ⟨log'', rfl, ?_⟩
        rw [hlog'', hlog', hlog, hmarks]
        simp [y]
      cases r with
      | ok a => exact hrest log rfl
      | error f => exact hrest (.inl _ :: log) rfl
    · obtain ⟨-, a, ha⟩ := h
      cases ha

/-- Those that are told leave the tables as they are. -/
theorem Ledger.tell {w : EngineState} {g : Nat → Post} {log l : List Entry} {x : Post}
    (h : Ledger e w₀ (Function.update g n x) w log)
    (hl : ∀ y ∈ l, ∃ name notice, y = ⟨n, some id, .told name notice⟩) :
    Ledger e w₀ (Function.update g n { x with deeds := x.deeds ++ l }) w (log ++ l) := by
  induction l generalizing x log with
  | nil => simpa using h
  | cons y rest ih =>
    obtain ⟨name, notice, rfl⟩ := hl y List.mem_cons_self
    have hnoted := h.note (y := ⟨n, some id, .told name notice⟩) rfl rfl fun _ _ => trivial
    have hrest := ih hnoted fun z hz => hl z (List.mem_cons_of_mem _ hz)
    rwa [Post.noted_deeds, List.append_assoc, List.append_assoc] at hrest

/-- **Events keep the ledger, and all is told in time.** -/
theorem books_sendInTime (he : e.AttentiveObservers) (id event : String) :
    Books e w₀ (InTime w₀) n (fun l r => Concludes n l r ∧ SendScript n id event l r)
      (sendWithinBy e n (e.nesting + 1) id event) := by
  intro x m hlock hm hx
  refine (follows_dispatchBy hlock hm hx).bind (fun m₁ b h => ?_) fun m₁ f h => ?_
  · obtain ⟨hlock₁, _, log, hlog, hintime, ⟨_, rfl⟩, hledger⟩ := h
    let y : Entry := ⟨n, some id, .dispatched event b.1 b.2⟩
    let l : List Entry := tellings n id event b.1 b.2 (enrolled w₀ log)
    have hnames : m₁.world.observers = enrolled w₀ log := by
      rw [hledger.observers, hlog, enrolled_concat]
      rfl
    have hannounce : (announceBy e n id (sendWithinBy e n e.nesting) event b.1 b.2).Follows
        (bookkeeping e w₀ (InTime w₀)) n (fun m' r => r = .ok () ∧ Notes l m₁ m') m₁ := by
      unfold announceBy
      split
      next hnews =>
        have hl : l = (enrolled w₀ log).map fun name =>
            ⟨n, some id, .told name ⟨b.1.current, b.2.reached.current, event, b.2.reached⟩⟩ :=
          if_pos hnews
        rw [hl, ← hnames]
        exact follows_tellAllBy he m₁.world.observers
      next hnews =>
        have hl : l = [] := if_neg hnews
        rw [hl]
        exact ⟨rfl, m₁.log, rfl, by simp⟩
    refine hannounce.bind (fun m₂ a h => ?_) fun m₂ f h => ?_
    · obtain ⟨-, log₂, rfl, hlog₂⟩ := h
      have htold := hledger.tell (l := l) fun y hy => mem_tellings hy
      rw [Post.noted_deeds, List.append_assoc] at htold
      refine ⟨hlock₁, x.hold, y :: l, ⟨⟨?_, ?_⟩, ?_⟩, ?_, .told b.1 b.2 l⟩
      · rw [hlog₂, Post.after, ← hx]
        exact htold
      · rw [hlog₂, hlog]
        exact hintime.dispatched n id event b.1 b.2
      · show ∀ key, m₁.lock = some key → _
        rw [hlock₁]
        intro key hkey
        cases hkey
      · refine .inl (List.forall_mem_cons.2 ⟨not_false, fun z hz => ?_⟩)
        obtain ⟨name, notice, rfl⟩ := mem_tellings hz
        exact not_false
    · cases h.1
  · obtain ⟨hlock₁, hleaves⟩ := h
    obtain ⟨y, log, hlog, hintime, htells, hledger⟩ := hleaves
    have hserved : ServedScript n id (fun _ (b : Instance × Dispatch) =>
        .dispatched event b.1 b.2) [⟨n, some id, y⟩] (.error f) := ⟨y, rfl, htells⟩
    have hsilent : y.Silent := by rcases htells with ⟨rfl, -⟩ | ⟨before, rfl⟩ <;> trivial
    refine ⟨hlock₁, x.hold, _, fits_noted hx hlock₁ hledger ?_, ?_, ?_⟩
    · rw [hlog]
      exact silently_inTime log _ hsilent hintime
    · exact (hserved.concludes fun _ _ => not_false).error
    · rcases htells with ⟨rfl, hf⟩ | ⟨before, rfl⟩
      · exact .missed f hf
      · exact .gaveUp before f

end Telling

/-! ## The path of an instance -/

/-- The news of an instance lead from its first snapshot to the state `last`. There it is, or it has
failed in the entry hook of a dispatched transition that leads on from there. -/
structure Tracked (w₀ w : EngineState) (id : String) (log : List Entry) (first : Instance)
    (last : String) (i : Instance) : Prop where
  begins : w₀.instances.get? id = some first ∨ ∃ n, (⟨n, some id, .started first⟩ : Entry) ∈ log
  path : Unbroken first.current (news id log) last
  ends : i.current = last ∨ ∃ n event before d, w.definitions.get? id = some d ∧
    (⟨n, some id, .dispatched event before ⟨i, false⟩⟩ : Entry) ∈ log ∧ before.current = last ∧
    Instance.EntryFailed d before event i

section Path

variable {e : Engine} {w₀ w : EngineState} {id last : String} {log : List Entry} {x : Entry}
  {first i : Instance}

theorem Tracked.begins_concat (h : Tracked w₀ w id log first last i) :
    w₀.instances.get? id = some first ∨ ∃ n, (⟨n, some id, .started first⟩ : Entry) ∈ log ++ [x] :=
  h.begins.imp_right fun ⟨n, hn⟩ => ⟨n, List.mem_append_left _ hn⟩

theorem news_concat_none (hx : x.notice? id = none) : news id (log ++ [x]) = news id log := by
  simp [news, hx]

/-- An entry that is no news, and stores nothing. -/
theorem Tracked.idle (h : Tracked w₀ w id log first last i) (hx : x.notice? id = none) :
    Tracked w₀ w id (log ++ [x]) first last i where
  begins := h.begins_concat
  path := by rw [news_concat_none hx]; exact h.path
  ends := h.ends.imp_right fun ⟨n, event, before, d, hd, hn, hbefore⟩ =>
    ⟨n, event, before, d, hd, List.mem_append_left _ hn, hbefore⟩

/-- Nothing is dispatched after an entry hook has failed. -/
theorem Tracked.current (h : Tracked w₀ w id log first last i) (hi : i.isRunning) :
    i.current = last := by
  rcases h.ends with h | ⟨n, event, before, d, -, -, -, hfailed⟩
  · exact h
  · have hstatus : i.status = .failed := hfailed.status
    simp [Instance.isRunning, hstatus] at hi

/-- A dispatch. -/
theorem Tracked.dispatched {n : Nat} {event : String} {d : Definition} {out : Dispatch}
    (h : Tracked w₀ w id log first last i) (hd : w.definitions.get? id = some d)
    (hout : (i.send d e.limits event).CanEnd (.ok out)) :
    ∃ last', Tracked w₀ w id (log ++ [⟨n, some id, .dispatched event i out⟩]) first last'
      out.reached := by
  by_cases hi : i.isRunning
  · have hcurrent : i.current = last := h.current hi
    by_cases hnews : isNews i out
    · let notice : Notice := ⟨i.current, out.reached.current, event, out.reached⟩
      have hnotice : Entry.notice? id ⟨n, some id, .dispatched event i out⟩ = some notice := by
        simp [Entry.notice?_self, Deed.notice?, hnews, notice]
      have hconcat : news id (log ++ [⟨n, some id, .dispatched event i out⟩]) =
          news id log ++ [notice] := by
        simp [news, hnotice]
      refine ⟨out.reached.current, h.begins_concat, ?_, .inl rfl⟩
      rw [hconcat]
      exact h.path.concat hcurrent
    · have hnotice : Entry.notice? id ⟨n, some id, .dispatched event i out⟩ = none := by
        simp [Entry.notice?_self, Deed.notice?, hnews]
      have hsame : out.transitioned → out.reached.current = i.current := by
        simpa [isNews] using hnews
      refine ⟨last, h.begins_concat, ?_, ?_⟩
      · rw [news_concat_none hnotice]
        exact h.path
      · rcases i.send_current hout with htransitioned | hstay | ⟨hfalse, hfailed⟩
        · exact .inl ((hsame htransitioned).trans hcurrent)
        · exact .inl (hstay.trans hcurrent)
        · refine .inr ⟨n, event, i, d, hd, List.mem_append_right _ ?_, hcurrent, hfailed⟩
          rw [← hfalse]
          exact List.mem_singleton_self _
  · rw [Instance.send_of_finished hi] at hout
    cases hout
    exact ⟨last, h.idle (by simp [Entry.notice?_self, Deed.notice?, isNews])⟩

/-- **The news of an instance lead to its stored snapshot.** -/
theorem Legal.tracked (h : Legal e w₀ w log) :
    (stored w₀ id log = none → news id log = []) ∧
      ∀ i, stored w₀ id log = some i → ∃ first last, Tracked w₀ w id log first last i := by
  induction log using List.reverseRecOn with
  | nil => exact ⟨fun _ => rfl, fun i hi => ⟨i, i.current, .inl hi, rfl, .inl rfl⟩⟩
  | append_singleton log x ih =>
    obtain ⟨hnone, hsome⟩ := ih h.of_concat
    have hidle : x.stores? id = none → x.notice? id = none →
        (stored w₀ id (log ++ [x]) = none → news id (log ++ [x]) = []) ∧
        ∀ i, stored w₀ id (log ++ [x]) = some i →
          ∃ first last, Tracked w₀ w id (log ++ [x]) first last i := by
      intro hstores hnotice
      rw [stored_concat, hstores, Option.none_or, news_concat_none hnotice]
      refine ⟨hnone, fun i hi => ?_⟩
      obtain ⟨first, last, htracked⟩ := hsome i hi
      exact ⟨first, last, htracked.idle hnotice⟩
    by_cases hid : x.id = some id
    · have hpossible := h log x [] id rfl hid
      obtain ⟨n, id', y⟩ := x
      cases hid
      cases y with
      | started i =>
        obtain ⟨hfound, -⟩ := hpossible
        have hstored : stored w₀ id (log ++ [⟨n, some id, .started i⟩]) = some i := by
          simp [Entry.stores?, Deed.stores?]
        rw [hstored]
        refine ⟨fun h => absurd h (Option.some_ne_none _), fun j hj => ?_⟩
        cases hj
        refine ⟨i, i.current, .inr ⟨n, by simp⟩, ?_, .inl rfl⟩
        rw [news_concat_none (Entry.notice?_self ..), hnone hfound]
        rfl
      | dispatched event before out =>
        obtain ⟨hfound, d, hd, hout⟩ := hpossible
        have hstored : stored w₀ id (log ++ [⟨n, some id, .dispatched event before out⟩]) =
            some out.reached := by
          simp [Entry.stores?, Deed.stores?]
        rw [hstored]
        refine ⟨fun h => absurd h (Option.some_ne_none _), fun j hj => ?_⟩
        cases hj
        obtain ⟨first, last, htracked⟩ := hsome before hfound
        obtain ⟨last', htracked'⟩ := htracked.dispatched (n := n) hd hout
        exact ⟨first, last', htracked'⟩
      | recontexted before after =>
        obtain ⟨hfound, hrunning, c, rfl⟩ := hpossible
        have hstored : stored w₀ id
            (log ++ [⟨n, some id, .recontexted before { before with ctx := c }⟩]) =
              some { before with ctx := c } := by
          simp [Entry.stores?, Deed.stores?]
        rw [hstored]
        refine ⟨fun h => absurd h (Option.some_ne_none _), fun j hj => ?_⟩
        cases hj
        obtain ⟨first, last, htracked⟩ := hsome before hfound
        exact ⟨first, last, { htracked.idle (Entry.notice?_self ..) with
          ends := .inl (htracked.current hrunning) }⟩
      | _ => exact hidle (if_pos rfl) (Entry.notice?_self ..)
    · exact hidle (if_neg hid) (if_neg hid)

end Path

/-! ## All calls together -/

section

variable (e : Engine) (w : EngineState) (jobs : List Job) (places : List Nat)

/-- What observers know of the instances after these turns. -/
structure ObserversFollow : Prop where
  /-- The chronicle tells the tables. -/
  stored : ∀ id, (e.atWork w jobs places).world.instances.get? id =
    stored w id (e.chronicle w jobs places)
  enrolled : (e.atWork w jobs places).world.observers = enrolled w (e.chronicle w jobs places)
  /-- Whoever was enrolled, once or more often, whenever the instance was stored has heard all
  its news, so often and in that order. -/
  heard : ∀ name id k, (∀ log₁ log₂, e.chronicle w jobs places = log₁ ++ log₂ →
      (Engine.stored w id log₁).isSome → (Engine.enrolled w log₁).count name = k) →
    heard name id (e.chronicle w jobs places) =
      (news id (e.chronicle w jobs places)).flatMap (List.replicate k)
  /-- What a start has stored is what it has answered. -/
  answered : ∀ n id i, (⟨n, some id, .started i⟩ : Entry) ∈ e.chronicle w jobs places →
    (n, .ok (.started i)) ∈ (e.atWork w jobs places).finished
  tracked : ∀ id i, (e.atWork w jobs places).world.instances.get? id = some i →
    ∃ first last, Tracked w (e.atWork w jobs places).world id (e.chronicle w jobs places)
      first last i

end

/-- The jobs keep the ledger, and all is told in time. -/
def promptPact {e : Engine} (he : e.AttentiveObservers) (w : EngineState) (jobs : List Job) :
    Pact (bookkeeping e w (InTime w)) Result :=
  bookkeepers e w (InTime w) silently_inTime (fun _ => books_sendInTime he) jobs

/-- **Observers follow the path of each instance.** -/
theorem observers_follow {e : Engine} {w : EngineState} (hw : w.Tidy) (he : e.AttentiveObservers)
    (jobs : List Job) (places : List Nat) : e.ObserversFollow w jobs places := by
  have hsame := e.unmarked_chronicled w jobs places
  have hfinished : (e.chronicled w jobs places).finished = (e.atWork w jobs places).finished :=
    congrArg Schedule.finished hsame
  have hworld : (e.chronicled w jobs places).world = (e.atWork w jobs places).world :=
    congrArg Schedule.world hsame
  obtain ⟨g, owner, h, hledger, hintime⟩ :=
    (promptPact he w jobs).turns (w := w) ⟨ledger_first hw jobs, fun _ => rfl⟩ places
  change (promptPact he w jobs).Kept g owner [] (e.chronicled w jobs places) at h
  change Ledger e w g (e.chronicled w jobs places).world (e.chronicle w jobs places) at hledger
  change InTime w (e.chronicle w jobs places) at hintime
  rw [hworld] at hledger
  refine ⟨hledger.snapshots, hledger.observers, fun name id k hcount => ?_, fun n id i hi => ?_,
    fun id i hi => ?_⟩
  · refine heard_of_count hintime fun log₁ x log₂ hsplit hx => ?_
    refine hcount log₁ (x :: log₂) hsplit ?_
    obtain ⟨hid, before, hbefore⟩ := Entry.notice?_isSome hx
    rw [(hledger.legal log₁ x log₂ id hsplit hid).before hbefore]
    rfl
  · have hmem : (⟨n, some id, .started i⟩ : Entry) ∈ (g n).deeds := by
      rw [← hledger.own n]
      simpa using hi
    obtain ⟨j, r, -, hr, hscript⟩ := ended_with_script h hmem trivial
    rw [hscript.started hmem] at hr
    rwa [← hfinished]
  · rw [hledger.snapshots] at hi
    exact hledger.legal.tracked.2 i hi

/-! ## A delivery -/

/-- Raises a failure. -/
def lose : Hook where
  name := "lose"
  body _ := .fail (.runtime "lost")

/-- A delivery that is paid, and then is lost as it is sent. -/
def delivery : Definition where
  id := .text "delivery"
  initial := "placed"
  states := Dict.ofList [
    ("placed", { id := "placed", transitions := [
      { target := .text "paid", event := .text "pay", action := some charge }] }),
    ("paid", { id := "paid", transitions := [
      { target := .text "sent", event := .text "send" }] }),
    ("sent", { id := "sent", onEnter := some lose })]

/-- An engine that knows an observer who is told and fails. -/
def office : Engine := { directory := [Observer.ofSteps "watch" [.raise (.runtime "busy")]] }

/-- A world that knows deliveries, and has enrolled the observer. -/
def opened : EngineState where
  env := { clock := { reading := fun n => ⟨n⟩ } }
  registry := (({} : Registry).register delivery).2
  observers := ["watch"]

/-- A delivery is started; both events, and a change of the context, come at the same time. -/
def deliveries : List Job := [
  .start ⟨.text "delivery", .null, some "D1"⟩ none false,
  .request "D1" (.send "pay"), .request "D1" (.send "send"), .request "D1" (.set ⟨0, .null⟩)]

/-- While it is paid the others wait. Then it is sent and lost: it stands in a state that the
observer is not told of. -/
theorem observers_follow_delivery :
    let s := office.atWork opened deliveries [0, 0, 0, 0, 0, 0, 0]
    let told := heard "watch" "D1" (office.chronicle opened deliveries [0, 0, 0, 0, 0, 0, 0])
    opened.Tidy ∧ office.AttentiveObservers ∧ s.ready = [] ∧
      told.map (fun n => (n.source, n.target)) = [("placed", "paid")] ∧
      (s.world.instances.get? "D1").map (fun i => (i.current, i.status)) = some ("sent", .failed) ∧
      office.ObserversFollow opened deliveries [0, 0, 0, 0, 0, 0, 0] := by
  intro s told
  have htidy : opened.Tidy := ⟨rfl, by decide, fun _ => Iff.rfl⟩
  have hattentive : office.AttentiveObservers := by
    intro o ho n
    cases List.mem_singleton.1 ho
    rfl
  have htold : told.map (fun n => (n.source, n.target)) = [("placed", "paid")] := by
    decide +kernel
  exact ⟨htidy, hattentive, rfl, htold, rfl, observers_follow htidy hattentive deliveries _⟩

end Engine

end Workflow
