import Mathlib.Data.List.Permutation
import Workflow.Proofs.Engine.AsAlone
import Workflow.Proofs.Engine.Starts

/-!
# Instances do not disturb each other

Calls on many instances are made at the same time, in any order of turns. Hooks pause and fail as
they like.

**Living apart** (`Engine.LivesApart`). All calls are starts under given ids, or requests. No two
ids share an arena, and observers are impartial.

**Undisturbed** (`Engine.Undisturbed`). For each instance, answers and snapshots are, but for times,
those of its own calls alone, made one after the other in the order in which they were served.

**Starts that are turned away.** A start may find its id reserved by another one that is not over
yet. If that one is given up later, no order of the calls accounts for both answers
(`rivals_in_no_order`).

Main result: `instances_undisturbed`.
-/

namespace Workflow

open Activity Environment

namespace Engine

variable {e : Engine} {w : EngineState} {jobs : List Job} {owner : Nat → String}

/-- The job is a start under a given id, or a request, and the context that it gives belongs to the
id. -/
def Job.Keeps (w : EngineState) (owner : Nat → String) : Job → Prop
  | .start bid c abandoned => abandoned = false ∧
    ∃ id, bid.given = some id ∧ ∀ a, c = some a → Owned w owner id a.arena
  | .request id q => ∀ c, q = .set c → Owned w owner id c.arena
  | _ => False

/-- The jobs are on instances by id, all with contexts of their own, and observers are impartial. -/
structure LivesApart (e : Engine) (w : EngineState) (jobs : List Job) (owner : Nat → String) :
    Prop where
  jobs : ∀ j ∈ jobs, j.Keeps w owner
  contexts : ∀ id i, w.instances.get? id = some i → Owned w owner id i.ctx.arena
  observers : ∀ name ∈ w.observers, Impartial (e.reactionOf name)

/-- After these turns, the instance is as if only the calls on it had been made, one after the other
in the order in which they were served. Arenas stand for each other by `links`. -/
structure Undisturbed (e : Engine) (w : EngineState) (jobs : List Job) (owner : Nat → String)
    (places : List Nat) (id : String) (links : Nat → Nat → Prop) : Prop where
  unique : Relator.BiUnique links
  given : ∀ a, Owned w owner id a → links a a
  ended : (e.atWork w jobs places).ready = [] → ∀ n j, jobs[n]? = some j → j.subject? = some id →
    ∃ r, (n, r) ∈ (e.atWork w jobs places).finished
  order : (servedOrder id (e.chronicle w jobs places)).Nodup
  own : ∀ n ∈ servedOrder id (e.chronicle w jobs places),
    ∃ j, jobs[n]? = some j ∧ j.subject? = some id
  /-- A call is answered as it is then; or it was a start, and was turned away because another start
  under the id was not over yet. Then it is turned away as well if it comes last, provided that
  there is an instance. -/
  answers : ∀ n j r, jobs[n]? = some j → j.subject? = some id →
    (n, r) ∈ (e.atWork w jobs places).finished →
    (∃ r', (n, r') ∈ (e.alone w jobs id (e.chronicle w jobs places)).1 ∧
      Agree Eq (Result.Alike links) r r') ∨
    (n ∉ servedOrder id (e.chronicle w jobs places) ∧
      (⟨n, some id, .refused false⟩ : Entry) ∈ e.chronicle w jobs places ∧
      r = .error (idTaken id) ∧
      let w' := (e.alone w jobs id (e.chronicle w jobs places)).2
      (w'.instances.contains id → ((j.call e).run w').answer = r ∧ ((j.call e).run w').world = w'))
  snapshot : Option.Rel (Instance.Alike links) ((e.atWork w jobs places).world.instances.get? id)
    ((e.alone w jobs id (e.chronicle w jobs places)).2.instances.get? id)
  /-- While no call on the instance is under way, its context has the same content. -/
  content : (∀ n j, jobs[n]? = some j → j.subject? = some id →
      ∃ r, (n, r) ∈ (e.atWork w jobs places).finished) →
    ∀ i i', (e.atWork w jobs places).world.instances.get? id = some i →
      (e.alone w jobs id (e.chronicle w jobs places)).2.instances.get? id = some i' →
      (e.atWork w jobs places).world.env.read i.ctx =
        (e.alone w jobs id (e.chronicle w jobs places)).2.env.read i'.ctx

theorem separated_first (hw : w.Tidy) (h : e.LivesApart w jobs owner) :
    (separation e w jobs owner).fact (fun _ => Place.outside) w [] := by
  have hlinked : ∀ id, Linked (fun a c => Owned w owner id a ∧ a = c) w.env w.env := fun id =>
    { unique := ⟨fun _ _ _ hp hq => hp.2.trans hq.2.symm, fun _ _ _ hp hq => hp.2.symm.trans hq.2⟩
      arena := fun _ _ hac => hac.2 ▸ rfl
      bound := fun _ _ hac => ⟨hac.1.1, hac.2 ▸ hac.1.1⟩ }
  have hstored : ∀ id, (w.instances.get? id).isSome ↔ id ∈ w.reserved := fun id => by
    rw [hw.reserved, Dict.mem_keys, Option.isSome_iff_exists]
  have hmatches : ∀ id, Matches (fun a c => Owned w owner id a ∧ a = c) id w w := fun id =>
    { registry := rfl
      observers := rfl
      definitions := rfl
      instances := by
        cases hi : w.instances.get? id with
        | none => exact .none
        | some i => exact .some (.refl ⟨h.contexts id i hi, rfl⟩)
      tables := by
        rw [Bool.eq_iff_iff, hstored, hw.reserved, hw.tables, Dict.mem_keys,
          Option.isSome_iff_exists]
      reserved := (hstored id).1
      settled := (hstored id).symm }
  refine ⟨fun id a c => Owned w owner id a ∧ a = c, ?_, ?_⟩
  · exact {
      registry := rfl
      observers := rfl
      separate := fun id id' a c c' hac hac' => hac.1.2.symm.trans hac'.1.2
      given := fun a ha => ⟨⟨ha, rfl⟩, rfl⟩
      stored := hmatches
      linked := fun id _ => hlinked id
      fits := fun _ => trivial
      sole := fun _ _ _ hn => nomatch hn }
  · exact {
      served := fun _ _ _ _ hn => nomatch hn
      unserved := fun _ _ _ => List.not_mem_nil
      nodup := fun _ => List.nodup_nil
      turnedAway := fun _ _ hn => nomatch hn
      inside := fun _ _ hn => nomatch hn }

/-- The calls keep the instances apart. -/
def separationPact (h : e.LivesApart w jobs owner) : Pact (separation e w jobs owner) Result where
  calls := e.chronicledJobs jobs
  stake _ := Place.outside
  agreed := e.Agreed w jobs
  unlocked _ := rfl
  live _ := trivial
  follows {n t} ht m hlock hm := by
    obtain ⟨j, hj, rfl⟩ := (getElem?_chronicledJobs e jobs).1 ht
    have hrests : m.Rests n Place.outside := rests_of_fits hm hlock rfl
    have hkeeps : j.Keeps w owner := h.jobs j (List.mem_of_getElem? hj)
    cases j with
    | start bid c abandoned =>
      obtain ⟨rfl, id, hbid, hc⟩ := hkeeps
      exact start_apart hbid hc hj hlock hrests
    | request id q => exact request_apart h.observers hkeeps hj hlock hrests
    | _ => exact hkeeps.elim

/-- **Instances do not disturb each other.** -/
theorem instances_undisturbed (hw : w.Tidy) (h : e.LivesApart w jobs owner) (places : List Nat)
    (id : String) : ∃ links, e.Undisturbed w jobs owner places id links := by
  have hsame := e.unmarked_chronicled w jobs places
  have hfinished : (e.chronicled w jobs places).finished = (e.atWork w jobs places).finished :=
    congrArg Schedule.finished hsame
  have hworld : (e.chronicled w jobs places).world = (e.atWork w jobs places).world :=
    congrArg Schedule.world hsame
  have hready : (e.atWork w jobs places).ready = [] → (e.chronicled w jobs places).ready = [] :=
    fun h => List.map_eq_nil_iff.1 ((congrArg Schedule.ready hsame).trans h)
  obtain ⟨g, locks, hkept, links, hapart, hrolled⟩ :=
    (separationPact h).turns (w := w) (separated_first hw h) places
  change (separationPact h).Kept g locks [] (e.chronicled w jobs places) at hkept
  change Apart w owner links (fun id => (e.alone w jobs id (e.chronicle w jobs places)).2) g
    (e.chronicled w jobs places).world at hapart
  change Rolled e w jobs g (e.chronicle w jobs places) at hrolled
  rw [hworld] at hapart
  have hagreed : ∀ n r, (n, r) ∈ (e.atWork w jobs places).finished → e.Agreed w jobs n (g n) r :=
    fun n r hr => (hkept.finished (n, r) (hfinished ▸ hr)).1
  obtain ⟨v, hv⟩ := hapart.linked_some id
  refine ⟨links id, hv.unique, fun a ha => ha.2 ▸ hapart.given a ha.1, fun hnone n j hj _ => ?_,
    hrolled.nodup id, fun n hn => ?_, fun n j r hj hsubject hr => ?_, (hapart.stored id).instances,
    fun hended i i' hi hi' => ?_⟩
  · have hlt : n < (e.chronicledJobs jobs).length := by
      unfold chronicledJobs
      rw [List.length_mapIdx]
      exact (List.getElem?_eq_some_iff.1 hj).1
    obtain ⟨r, hr⟩ := (hkept.ended (hready hnone)).2 n hlt
    exact ⟨r, hfinished ▸ hr⟩
  · have hover : (g n).served? = some id := by
      by_contra hne
      exact hrolled.unserved n id hne hn
    obtain ⟨l, r, hg⟩ := Place.eq_served hover
    exact (hrolled.served n id l r hg).1
  · obtain ⟨j', id', hj', hsubject', hends⟩ := hagreed n r hr
    obtain rfl : j' = j := Option.some.inj (hj'.symm.trans hj)
    obtain rfl : id' = id := Option.some.inj (hsubject'.symm.trans hsubject)
    rcases hends with ⟨l, r', hg, hrr'⟩ | ⟨hg, rfl, hbarred⟩
    · have hfits := hapart.fits n
      rw [hg] at hfits
      exact .inl ⟨r', (hrolled.served n id' l r' hg).2, hrr'.mono fun _ _ h => h.mono hfits⟩
    · refine .inr ⟨hrolled.unserved n id' ?_, hrolled.turnedAway n id' hg, rfl, fun hstored => ?_⟩
      · rw [hg]
        exact nofun
      · have hmatches := hapart.stored id'
        exact hbarred _ (hmatches.registry.trans hapart.registry) (hmatches.settled.2 hstored)
  · have hfree : ∀ n, (g n).inside? ≠ some id := by
      intro n hn
      obtain ⟨j, hj, hsubject⟩ := hrolled.inside n id hn
      obtain ⟨r, hr⟩ := hended n j hj hsubject
      rw [(hagreed n r hr).not_inside] at hn
      cases hn
    have hrel := (hapart.stored id).instances
    rw [hi, hi'] at hrel
    cases hrel with
    | some halike => exact (hapart.linked id hfree).read halike.ctx

/-! ## A fair -/

/-- A stall is open at the corner, and there are goods for another one. -/
def fair : EngineState where
  env := {
    contexts := ⟨#[⟨#[.list [.text "cup", .text "lamp"]]⟩, ⟨#[.list [.text "book"]]⟩]⟩
    clock := { reading := fun n => ⟨n⟩ } }
  registry := (({} : Registry).register stall).2
  instances := Dict.ofList [("corner", stallOpen)]
  definitions := Dict.ofList [("corner", stall)]
  reserved := ["corner"]
  observers := ["watch"]

/-- The other stall is opened at the gate, and has too few goods. -/
def trades : List Job := [
  .request "corner" (.send "sell"),
  .start ⟨.text "stall", .null, some "gate"⟩ (some ⟨1, .ref 0⟩) false,
  .request "gate" (.send "sell"), .request "gate" (.send "sell"),
  .request "corner" (.canFire "close")]

/-- Which of the goods are whose. -/
def stallOf : Nat → String
  | 0 => "corner"
  | _ => "gate"

theorem watched_impartial : Impartial (watched.reactionOf "watch") :=
  fun _ _ _ => ⟨trivial, rfl⟩

/-- While a cup is sold at the corner, the stall at the gate is opened and sold out, and fails. -/
theorem instances_undisturbed_fair :
    let places := [0, 0, 2, 0, 1, 1, 0, 0, 0]
    let s := watched.atWork fair trades places
    fair.Tidy ∧ watched.LivesApart fair trades stallOf ∧ s.ready = [] ∧
      s.finished.map (·.1) = [3, 4, 2, 0, 1] ∧
      servedOrder "gate" (watched.chronicle fair trades places) = [1, 2, 3] ∧
      (s.world.instances.get? "gate").map (·.status) = some .failed ∧
      ∀ id, ∃ links, watched.Undisturbed fair trades stallOf places id links := by
  intro places s
  have htidy : fair.Tidy := ⟨rfl, by decide, fun _ => Iff.rfl⟩
  have hapart : watched.LivesApart fair trades stallOf := by
    refine ⟨?_, fun id i hi => ?_, fun name hname => ?_⟩
    · simp only [trades, List.forall_mem_cons, List.not_mem_nil]
      refine ⟨nofun, ⟨rfl, "gate", rfl, fun a ha => ?_⟩, nofun, nofun, nofun, nofun⟩
      cases ha
      exact ⟨by decide, rfl⟩
    · have hcorner : (Dict.empty.insert "corner" stallOpen).get? id = some i := hi
      rw [Dict.get?_insert] at hcorner
      split at hcorner
      next hid =>
        cases hcorner
        exact ⟨by decide, hid⟩
      next => cases hcorner
    · cases List.mem_singleton.1 hname
      exact watched_impartial
  have hstatus : (s.world.instances.get? "gate").map (·.status) = some .failed := by
    decide +kernel
  exact ⟨htidy, hapart, rfl, rfl, rfl, hstatus, instances_undisturbed htidy hapart places⟩

/-! ## Rivals -/

/-- A glass and a book are to be packed as the same parcel. -/
def rivals : List Job :=
  let started (name : String) : Job := .start ⟨.text name, .null, some "P1"⟩ none false
  [started "glass", started "book"]

/-- Which calls have failed, and by which failures. -/
def failures (answers : List (Nat × Except Failure Result)) : List (Nat × Option Failure) :=
  answers.map fun x => (x.1, match x.2 with
    | .ok _ => none
    | .error f => some f)

/-- The book is turned away while the glass is packed, and then the glass is dropped. One after the
other, one of them gets the id, in either order. -/
theorem rivals_in_no_order :
    let e : Engine := {}
    let s := e.atWork depot rivals [0, 0, 0]
    depot.Tidy ∧ e.LivesApart depot rivals (fun _ => "P1") ∧ s.ready = [] ∧
      failures s.finished = [(0, some (.aborted "dropped")), (1, some (idTaken "P1"))] ∧
      ∀ order : List Nat, order.Perm [0, 1] →
        ¬ (failures (serve (rivals.map (Job.call e)) order depot).1).Perm (failures s.finished) := by
  intro e s
  have htidy : depot.Tidy := ⟨rfl, List.nodup_nil, fun _ => Iff.rfl⟩
  have hapart : e.LivesApart depot rivals fun _ => "P1" := by
    refine ⟨?_, nofun, nofun⟩
    simp only [rivals, List.forall_mem_cons, List.not_mem_nil]
    exact ⟨⟨rfl, "P1", rfl, nofun⟩, ⟨rfl, "P1", rfl, nofun⟩, nofun⟩
  have hready : s.ready = [] := List.isEmpty_iff.1 (by decide +kernel)
  have hfailures : failures s.finished =
      [(0, some (.aborted "dropped")), (1, some (idTaken "P1"))] := by
    decide +kernel
  refine ⟨htidy, hapart, hready, hfailures, fun order horder => ?_⟩
  rw [hfailures]
  obtain rfl | rfl := List.perm_pair.1 horder
  · decide +kernel
  · decide +kernel

end Engine

end Workflow
