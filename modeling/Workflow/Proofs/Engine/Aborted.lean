import Workflow.Proofs.Engine.Bookkeeping
import Workflow.Proofs.Engine.Starts
import Workflow.Proofs.Run.GivesUp

/-!
# Aborted calls leave instances alone

Hooks, updaters and observers may fail in ways that are not contained, at any moment and while any
number of other calls are under way.

**Hooks and updaters** (`Engine.StandsAside`). The work of the call ends there and then. The call
fails with that failure, and does nothing more: no observer is told. The stored snapshot is the one
that was there when the call got the lock, and the next call that gets it works on that.

**Observers** (`Engine.Aborts.requests`). They are told after the outcome was stored, and it stays.

Main result: `aborted_stands_aside`. It is drawn from the chronicle of the engine, which tells all
that is ever stored.
-/

namespace Workflow

open Activity

namespace Engine

section

variable (e : Engine) (w : EngineState) (jobs : List Job) (places : List Nat)

/-- What a job has done after these turns. -/
def doneBy (n : Nat) : List Entry := (e.chronicle w jobs places).filter fun x => x.caller = n

/-- After `log₁` and before `log₂`, call `n` has given up its work on the snapshot `before`. -/
structure StandsAside (log₁ : List Entry) (n : Nat) (id : String) (before : Instance) (f : Failure)
    (log₂ : List Entry) : Prop where
  /-- The snapshot was the stored one, and is so afterwards. -/
  stored : stored w id log₁ = some before ∧
    Engine.stored w id (log₁ ++ [⟨n, some id, .gaveUp before f⟩]) = some before
  failed : (n, .error f) ∈ (e.atWork w jobs places).finished
  /-- The call tells nobody, and stores nothing. -/
  last : ∀ x ∈ log₂, x.caller ≠ n
  /-- The next one works on the snapshot. -/
  next : ∀ log₃ x log₄ i, log₂ = log₃ ++ x :: log₄ → (∀ y ∈ log₃, y.stores? id = none) →
    x.id = some id → x.deed.before? = some i → i = before
  /-- If the lock is taken, it is that of another call, which is under way. -/
  unlocked : id ∈ (e.atWork w jobs places).held →
    ∃ m < jobs.length, m ≠ n ∧ ∀ r, (m, r) ∉ (e.atWork w jobs places).finished

/-- What comes of failures that are not contained. -/
structure Aborts : Prop where
  work : ∀ log₁ n id before f log₂,
    e.chronicle w jobs places = log₁ ++ ⟨n, some id, .gaveUp before f⟩ :: log₂ →
      ¬ f.isContained → e.StandsAside w jobs places log₁ n id before f log₂
  /-- A request that fails so has given up its own work at once, or else it has stored the outcome
  of its event before. -/
  requests : ∀ n id r f, jobs[n]? = some (.request id r) →
    (n, .error f) ∈ (e.atWork w jobs places).finished → ¬ f.isContained →
      (∃ before, e.doneBy w jobs places n = [⟨n, some id, .gaveUp before f⟩]) ∨
      ∃ event before out rest, r = .send event ∧
        e.doneBy w jobs places n = ⟨n, some id, .dispatched event before out⟩ :: rest
  /-- What was stored stays until something else is stored. -/
  stays : ∀ log₁ x log₂ id i, e.chronicle w jobs places = log₁ ++ x :: log₂ →
    x.stores? id = some i → (∀ y ∈ log₂, y.stores? id = none) →
      (e.atWork w jobs places).world.instances.get? id = some i
  /-- Nobody waits for a lock for ever. -/
  ended : (e.atWork w jobs places).ready = [] → (e.atWork w jobs places).held = [] ∧
    ∀ n < jobs.length, ∃ r, (n, r) ∈ (e.atWork w jobs places).finished

/-- The jobs keep the ledger, and nothing besides. -/
def plainPact : Pact (bookkeeping e w fun _ => True) Result :=
  bookkeepers e w (fun _ => True) (fun _ _ _ _ => trivial)
    (fun _ id event x m hlock hm hx =>
      (books_sendWithinBy (fun _ => trivial) (e.nesting + 1) id event x m hlock hm hx).mono
        fun _ _ h => h.mono fun _ hl => ⟨hl.1, hl.2.resolve_left (Nat.succ_ne_zero _)⟩)
    jobs

end

variable {e : Engine} {w : EngineState} {jobs : List Job} {places : List Nat} {n : Nat}
  {g : Nat → Post} {owner : String → Option Nat} {s : Schedule Realm.chronicled Result}

/-- The calls that have made a final entry have ended, and the entry was their last. -/
theorem ended_of_final {log₁ log₂ : List Entry} {id : String} {before : Instance} {f : Failure}
    (h : (plainPact e w jobs).Kept g owner [] s) (hf : ¬ f.isContained)
    (hdeeds : (g n).deeds = log₁ ++ ⟨n, some id, .gaveUp before f⟩ :: log₂) :
    (n, .error f) ∈ s.finished ∧ log₂ = [] := by
  have hmem : (⟨n, some id, .gaveUp before f⟩ : Entry) ∈ (g n).deeds := by
    rw [hdeeds]
    simp
  obtain ⟨j, r, -, hr, hscript⟩ := ended_with_script h hmem hf
  cases j with
  | start bid c abandoned =>
    obtain ⟨r', -, hl⟩ := hscript
    exact absurd (hl.before _ hmem) nofun
  | request id' req =>
    obtain ⟨r', rfl, hl, -⟩ := hscript
    rw [hdeeds] at hl
    obtain ⟨hlast, id'', before', f', heq, rfl⟩ := hl.final hf
    cases heq
    exact ⟨hr, hlast⟩
  | _ => exact absurd hf (hscript _ hmem)

/-- Whoever gives up stands aside. -/
theorem standsAside_of_final {log₁ log₂ : List Entry} {id : String} {before : Instance} {f : Failure}
    (h : (plainPact e w jobs).Kept g owner [] (e.chronicled w jobs places))
    (hledger : Ledger e w g (e.chronicled w jobs places).world (e.chronicle w jobs places))
    (hsplit : e.chronicle w jobs places = log₁ ++ ⟨n, some id, .gaveUp before f⟩ :: log₂)
    (hf : ¬ f.isContained) : e.StandsAside w jobs places log₁ n id before f log₂ := by
  have hsame := e.unmarked_chronicled w jobs places
  have hfinished : (e.chronicled w jobs places).finished = (e.atWork w jobs places).finished :=
    congrArg Schedule.finished hsame
  have hdeeds : (g n).deeds = log₁.filter (fun x => x.caller = n) ++
      ⟨n, some id, .gaveUp before f⟩ :: log₂.filter (fun x => x.caller = n) := by
    rw [← hledger.own n, hsplit]
    simp
  obtain ⟨hr, hlast⟩ := ended_of_final h hf hdeeds
  rw [hfinished] at hr
  have hstored : stored w id log₁ = some before := hledger.legal log₁ _ log₂ id hsplit rfl
  have hafter : stored w id (log₁ ++ [⟨n, some id, .gaveUp before f⟩]) = some before := by
    rw [stored_concat, Entry.stores?_some, hstored, if_pos rfl]
    rfl
  exact {
    stored := ⟨hstored, hafter⟩
    failed := hr
    last := fun x hx hcaller => by
      exact absurd (List.filter_eq_nil_iff.1 hlast x hx) (by simpa using hcaller)
    next := fun log₃ x log₄ i hsplit' hlog₃ hid hi => by
      have hsplit₃ : e.chronicle w jobs places =
          (log₁ ++ [⟨n, some id, .gaveUp before f⟩] ++ log₃) ++ x :: log₄ := by
        rw [hsplit, hsplit']
        simp
      have hfound := (hledger.legal _ x log₄ id hsplit₃ hid).before hi
      rw [stored_append_of_none hlog₃, hafter] at hfound
      exact (Option.some.inj hfound).symm
    unlocked := fun hid => by
      rw [← congrArg Schedule.held hsame] at hid
      obtain ⟨m, hm, hunfinished⟩ := h.holder hid
      rw [hfinished] at hunfinished
      refine ⟨m, List.length_mapIdx (l := jobs) ▸ hm, ?_, hunfinished⟩
      rintro rfl
      exact hunfinished _ hr }

/-- An updater that gives up ends the work on the copy at once. -/
def UpdaterGivesUp (updater : Datum → Activity Realm.hook HookAnswer) (c : Context) : Prop :=
  ∃ (change : Environment → Environment → Environment) (copy : Environment → Context)
    (next : Environment → Activity Realm.flow Context),
    updating updater c = .look (fun v => .update (change v) (next v)) ∧
      ∀ v, FailsWith ((updater (copy v).root).lift (Realm.hookIn (copy v).arena)) (next v)

theorem updater_givesUp (updater : Datum → Activity Realm.hook HookAnswer) (c : Context) :
    UpdaterGivesUp updater c := by
  let copy (v : Environment) : Datum × Arena := (v.arena c.arena).shallowCopy c.root
  refine ⟨fun v => Environment.setArena c.arena (copy v).2, fun v => ⟨c.arena, (copy v).1⟩,
    fun v => ((updater (copy v).1).awaited.lift (Realm.hookIn c.arena)).bind fun _ =>
      .done ⟨c.arena, (copy v).1⟩,
    rfl, fun v => ?_⟩
  dsimp only
  rw [lift_awaited]
  exact (FailsWith.awaited _).bind _

/-- **Aborted calls stand aside.** -/
theorem aborted_stands_aside (hw : w.Tidy) (jobs : List Job) (places : List Nat) :
    e.Aborts w jobs places ∧
      (∀ (d : Definition) (before : Instance) (event : String),
        (before.send d e.limits event).GivesUp ∧ (before.canFire d event).GivesUp) ∧
      ∀ updater c, UpdaterGivesUp updater c := by
  have hsame := e.unmarked_chronicled w jobs places
  have hfinished : (e.chronicled w jobs places).finished = (e.atWork w jobs places).finished :=
    congrArg Schedule.finished hsame
  have hheld : (e.chronicled w jobs places).held = (e.atWork w jobs places).held :=
    congrArg Schedule.held hsame
  have hworld : (e.chronicled w jobs places).world = (e.atWork w jobs places).world :=
    congrArg Schedule.world hsame
  have hready : (e.chronicled w jobs places).ready = [] ↔ (e.atWork w jobs places).ready = [] := by
    rw [← hsame]
    exact List.map_eq_nil_iff.symm
  have hjobs : (plainPact e w jobs).calls.length = jobs.length := List.length_mapIdx
  obtain ⟨g, owner, h, hledger, -⟩ :=
    (plainPact e w jobs).turns (w := w) ⟨ledger_first hw jobs, trivial⟩ places
  change (plainPact e w jobs).Kept g owner [] (e.chronicled w jobs places) at h
  change Ledger e w g (e.chronicled w jobs places).world (e.chronicle w jobs places) at hledger
  refine ⟨⟨fun log₁ n id before f log₂ hsplit hf => standsAside_of_final h hledger hsplit hf,
    fun n id r f hn hr hf => ?_, fun log₁ x log₂ id i hsplit hi hlog₂ => ?_, fun hr => ?_⟩,
    fun d before event => ⟨Instance.send_givesUp .., Instance.canFire_givesUp ..⟩,
    updater_givesUp⟩
  · rw [← hfinished] at hr
    have hscript : (Job.request id r).Script n (g n).deeds (.error f) := (h.finished _ hr).1 _ hn
    have hdone : e.doneBy w jobs places n = (g n).deeds := hledger.own n
    rw [← hdone] at hscript
    obtain ⟨r', hr', -, hscript⟩ := hscript
    cases eq_error_of_map hr'
    exact hscript.uncontained hf
  · rw [← hworld, hledger.snapshots, hsplit, ← List.singleton_append, ← List.append_assoc,
      stored_append_of_none hlog₂, stored_concat, hi]
    rfl
  · obtain ⟨hnone, hall⟩ := h.ended (hready.2 hr)
    rw [← hheld, ← hfinished, ← hjobs]
    exact ⟨hnone, hall⟩

/-! ## A crate -/

/-- A crate that is packed on an event, and then sent by itself; the hook of that gives up. -/
def crate : Definition where
  id := .text "crate"
  initial := "open"
  states := Dict.ofList [
    ("open", { id := "open", transitions := [{ target := .text "packed", event := .text "pack" }] }),
    ("packed", { id := "packed", kind := .auto, transitions := [
      { target := .text "sent", action := some drop }] }),
    ("sent", { id := "sent", kind := .terminal })]

/-- The crate as it stands. -/
def crateOpen : Instance := crate.fresh ⟨0, .null⟩ "C1" (Instant.text ⟨0⟩)

/-- A world with the crate and an observer. -/
def wharf : EngineState where
  env := { clock := { reading := fun n => ⟨n⟩ } }
  instances := Dict.ofList [("C1", crateOpen)]
  definitions := Dict.ofList [("C1", crate)]
  reserved := ["C1"]
  observers := ["watch"]

/-- The crate is to be packed, and it is asked at the same time whether it can be. -/
def errands : List Job := [.request "C1" (.send "pack"), .request "C1" (.canFire "pack")]

/-- The crate has been packed and is being sent when the hook gives up. It stands as it did, nobody
is told, and the question that waited meanwhile is about the open crate. -/
theorem aborted_stands_aside_crate :
    let s := watched.atWork wharf errands [0, 0, 0, 0]
    wharf.Tidy ∧ s.ready = [] ∧
      watched.chronicle wharf errands [0, 0, 0, 0] =
        [⟨0, some "C1", .gaveUp crateOpen (.aborted "dropped")⟩,
          ⟨1, some "C1", .asked "pack" crateOpen true⟩] ∧
      watched.Aborts wharf errands [0, 0, 0, 0] := by
  intro s
  have htidy : wharf.Tidy := ⟨rfl, by decide, fun _ => Iff.rfl⟩
  have hready : s.ready = [] := rfl
  have hchronicle : watched.chronicle wharf errands [0, 0, 0, 0] =
      [⟨0, some "C1", .gaveUp crateOpen (.aborted "dropped")⟩,
        ⟨1, some "C1", .asked "pack" crateOpen true⟩] := by
    decide +kernel
  exact ⟨htidy, hready, hchronicle, (aborted_stands_aside htidy errands _).1⟩

end Engine

end Workflow
