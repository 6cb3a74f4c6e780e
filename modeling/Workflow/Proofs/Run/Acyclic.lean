import Mathlib.Data.List.Perm.Subperm
import Mathlib.Logic.Relation
import Workflow.Proofs.Document.Keyed
import Workflow.Proofs.Run.Failing
import Workflow.Proofs.Run.History
import Workflow.Proofs.Run.Truncated

/-!
# Settling without cycles

Settling counts no moves of its own accord, and guards may judge another way at each visit. What
makes it end is that no way through the auto states leads back.

**Ways** (`Definition.Leads`). A transition without an event leads from the key of an auto state to
the id of its target, where this is the key of an auto state again. That id is what a move records,
and what settling looks up next.

**Acyclic definitions** (`Definition.Acyclic`). No ways lead from a key back to it. So a run of
moves without events, one after the other, visits each auto state once at most (`Path.length_lt`).

**Endings** (`Instance.SettlesAs`). Settling stays in a snapshot that its moves have led to, or
meets a setback there other than a bound, or fails with what escapes from the hooks and targets of
the definition (`Definition.Escapes`).

Main result: `acyclic_settles`. In an acyclic definition settling ends after at most as many moves
as there are auto states, whatever the hooks do; and all limits that allow so many moves are the
same.
-/

namespace Workflow

open Activity

/-! ## The ways between auto states -/

namespace Definition

/-- The key is that of an auto state. -/
def IsAuto (d : Definition) (key : String) : Prop := ∃ s, d.state? key = some s ∧ s.kind = .auto

/-- A transition without an event leads from one auto state to another. -/
inductive Leads (d : Definition) : String → String → Prop
  | along {key : String} {source target : State} {t : Transition} :
      d.state? key = some source → source.kind = .auto → t ∈ source.transitions →
      t.event = .null → d.target? t.target = .ok (some target) → d.IsAuto target.id →
      Leads d key target.id

/-- No auto state is led back to. -/
def Acyclic (d : Definition) : Prop := ∀ key, ¬ Relation.TransGen d.Leads key key

/-- The number of auto states. -/
def autoCount (d : Definition) : Nat := d.states.values.countP (·.kind = .auto)

/-- The keys of the auto states. -/
def autoKeys (d : Definition) : List String :=
  (d.states.entries.filter (·.2.kind = .auto)).map Prod.fst

variable {d : Definition} {key : String}

theorem length_autoKeys : d.autoKeys.length = d.autoCount := by
  unfold autoKeys autoCount Dict.values
  rw [List.length_map, List.countP_map, List.countP_eq_length_filter]
  rfl

theorem IsAuto.mem_autoKeys (h : d.IsAuto key) : key ∈ d.autoKeys := by
  obtain ⟨s, hs, hkind⟩ := h
  refine List.mem_map.2 ⟨(key, s), List.mem_filter.2 ⟨Dict.get?_eq_some_iff.1 hs, ?_⟩, rfl⟩
  exact decide_eq_true hkind

/-- Different auto states are as many as there are, at most. -/
theorem length_le_autoCount {keys : List String} (hnodup : keys.Nodup)
    (hauto : ∀ key ∈ keys, d.IsAuto key) : keys.length ≤ d.autoCount := by
  rw [← length_autoKeys]
  exact (List.subperm_of_subset hnodup fun key hkey => (hauto key hkey).mem_autoKeys).length_le

/-- Where a number grows along each way, there is no cycle. -/
theorem acyclic_of_rank (rank : String → Nat) (h : ∀ a b, d.Leads a b → rank a < rank b) :
    d.Acyclic := by
  have hlt : ∀ a b, Relation.TransGen d.Leads a b → rank a < rank b := by
    intro a b hab
    induction hab with
    | single hab => exact h _ _ hab
    | tail _ hbc ih => exact Nat.lt_trans ih (h _ _ hbc)
  exact fun key hkey => Nat.lt_irrefl _ (hlt key key hkey)

/-- Keys that lead from one to the next are all different. -/
theorem Acyclic.nodup (h : d.Acyclic) {keys : List String} (hchain : keys.IsChain d.Leads) :
    keys.Nodup := by
  have hpairwise : keys.Pairwise (Relation.TransGen d.Leads) :=
    List.isChain_iff_pairwise.1 (hchain.imp fun _ _ => .single)
  refine hpairwise.imp ?_
  intro a b hab heq
  subst heq
  exact h a hab

end Definition

namespace Instance

variable {d : Definition} {i j k : Instance} {t : Transition} {ts : List Transition}
  {event : Value} {bound bound' : Option Int} {rounds rounds' steps n : Nat} {f : Failure}

/-! ## The length of a path -/

theorem Path.snoc {events : List Value} (h : Path d i events j) (hm : Moves d j event k) :
    Path d i (events ++ [event]) k := by
  induction h with
  | stay i => exact .go hm (.stay k)
  | go hfirst _ ih => exact .go hfirst (ih hm)

/-- One more move without an event. -/
theorem Path.next (h : Path d i (.replicate n .null) j) (hm : Moves d j .null k) :
    Path d i (.replicate (n + 1) .null) k := by
  rw [List.replicate_succ']
  exact h.snoc hm

theorem Moves.isAuto (h : Moves d i .null j) : d.IsAuto i.current := by
  obtain ⟨moment, -, hs, -, -, hkind, -⟩ := h
  exact ⟨_, hs, hkind rfl⟩

theorem Moves.leads (h : Moves d i .null j) (hj : d.IsAuto j.current) :
    d.Leads i.current j.current := by
  obtain ⟨moment, -, hs, hmem, hevent, hkind, htarget⟩ := h
  exact .along hs (hkind rfl) hmem hevent htarget hj

/-- The keys that a path without events visits, up to an auto state. -/
theorem Path.visits (h : Path d i (.replicate n .null) j) (hj : d.IsAuto j.current) :
    ∃ keys, keys.length = n ∧ (i.current :: keys).IsChain d.Leads ∧
      ∀ key ∈ i.current :: keys, d.IsAuto key := by
  induction n generalizing i with
  | zero =>
    cases h
    exact ⟨[], rfl, .singleton _, List.forall_mem_singleton.2 hj⟩
  | succ n ih =>
    cases h with
    | @go _ i' _ _ _ hm hp =>
      obtain ⟨keys, hlength, hchain, hauto⟩ := ih hp
      have hi' : d.IsAuto i'.current := hauto _ List.mem_cons_self
      exact ⟨i'.current :: keys, congrArg (· + 1) hlength, .cons_cons (hm.leads hi') hchain,
        List.forall_mem_cons.2 ⟨hm.isAuto, hauto⟩⟩

/-- **A path that stands in an auto state has made fewer moves than there are auto states.** -/
theorem Path.length_lt (hd : d.Acyclic) (h : Path d i (.replicate n .null) j)
    (hj : d.IsAuto j.current) : n < d.autoCount := by
  obtain ⟨keys, rfl, hchain, hauto⟩ := h.visits hj
  exact Definition.length_le_autoCount (hd.nodup hchain) hauto

/-- The last move of a path. -/
theorem Path.last (h : Path d i (.replicate (n + 1) .null) k) :
    ∃ j, Path d i (.replicate n .null) j ∧ Moves d j .null k := by
  induction n generalizing i with
  | zero =>
    cases h with
    | go hm hp =>
      cases hp
      exact ⟨i, .stay i, hm⟩
  | succ n ih =>
    cases h with
    | go hm hp =>
      obtain ⟨j, hj, hlast⟩ := ih hp
      exact ⟨j, .go hm hj, hlast⟩

theorem Path.length_le (hd : d.Acyclic) (h : Path d i (.replicate n .null) j) :
    n ≤ d.autoCount := by
  cases n with
  | zero => exact Nat.zero_le _
  | succ n =>
    obtain ⟨j', hp, hm⟩ := h.last
    exact hp.length_lt hd hm.isAuto

/-! ## Limits that do not matter -/

/-- Under limits that allow as many moves as there are auto states, settling goes on along a path as
it does under others. -/
theorem settleFrom_limits (hd : d.Acyclic) (hp : Path d i (.replicate steps .null) j)
    (hbound : ∀ m, bound = some m → (d.autoCount : Int) ≤ m)
    (hbound' : ∀ m, bound' = some m → (d.autoCount : Int) ≤ m)
    (hrounds : d.autoCount < rounds + steps) (hrounds' : d.autoCount < rounds' + steps) :
    settleFrom d bound rounds steps j = settleFrom d bound' rounds' steps j := by
  have hsteps := hp.length_le hd
  induction rounds generalizing rounds' steps j with
  | zero => omega
  | succ rounds ih =>
  cases rounds' with
  | zero => omega
  | succ rounds' =>
  rw [settleFrom, settleFrom]
  split
  · rfl
  next hr =>
  split
  · rfl
  next source hs =>
  split
  · rfl
  next hk =>
  refine bind_congr_of_canEnd fun r hsel => ?_
  rcases r with f | _ | t
  · rfl
  · rfl
  have hkind : source.kind = .auto := by simp_all
  have hlt : steps < d.autoCount := hp.length_lt hd ⟨source, hs, hkind⟩
  have hc : Choice d j .null t := .auto (by simpa using hr) hs hkind (select_mem hsel)
  have hmet : boundMet bound steps = none :=
    boundMet_eq_none fun m hm => by have := hbound m hm; omega
  have hmet' : boundMet bound' steps = none :=
    boundMet_eq_none fun m hm => by have := hbound' m hm; omega
  simp only [hmet, hmet']
  refine bind_congr_of_canEnd fun r hmove => ?_
  rcases r with s | next
  · rfl
  · have hnext := hp.next (hc.move_ok hmove)
    exact ih hnext (by omega) (by omega) (hnext.length_le hd)

/-! ## How settling ends -/

/-- How settling ends after a number of moves: in the snapshot that they have led to, at a setback
there that is no bound, or without an answer. -/
inductive SettlesAs (d : Definition) (i : Instance) : Nat → Except Failure Instance → Prop
  | rests {n : Nat} {j : Instance} : Path d i (.replicate n .null) j → SettlesAs d i n (.ok j)
  | stops {n : Nat} {j : Instance} {s : Setback} : Path d i (.replicate n .null) j →
      StoppedBy d j s → (∀ state bound, s ≠ .stalled state bound) →
      SettlesAs d i n (.ok ((s.reached j).failed s.cause))
  | leaves {n : Nat} {j : Instance} {f : Failure} : Path d i (.replicate n .null) j →
      d.Escapes f → SettlesAs d i n (.error f)

theorem SettlesAs.length_le {r : Except Failure Instance} (hd : d.Acyclic)
    (h : SettlesAs d i n r) : n ≤ d.autoCount := by
  cases h with
  | rests hp => exact hp.length_le hd
  | stops hp => exact hp.length_le hd
  | leaves hp => exact hp.length_le hd

theorem SettlesAs.of_rest {r : Except Failure Instance} (hp : Path d i (.replicate n .null) j)
    (h : (j.rest steps).CanEnd r) : SettlesAs d i n r := by
  unfold rest at h
  split at h
  · rcases canEnd_bind.1 h with ⟨-, -, h⟩ | ⟨f, h, -⟩
    · cases h
      exact .rests hp
    · cases h
  · cases h
    exact .rests hp

theorem SettlesAs.of_stop {s : Setback} {r : Except Failure Instance}
    (hp : Path d i (.replicate n .null) j) (hs : StoppedBy d j s)
    (hstall : ∀ state bound, s ≠ .stalled state bound)
    (h : (j.markFailed s).CanEnd r) : SettlesAs d i n r := by
  cases canEnd_markFailed.1 h
  exact .stops hp hs hstall

/-- A move is not stopped by a bound. -/
theorem move_not_stalled {s : Setback} (h : (move d i t event).CanEnd (.ok (.error s)))
    (state : String) (m : Int) : s ≠ .stalled state m := by
  unfold move at h
  split at h
  · cases h
    nofun
  split at h
  · cases h
  · cases h
    nofun
  obtain ⟨r, -, h⟩ := canEnd_bind_ok h
  cases r with
  | ok j => cases h
  | error f =>
    cases h
    nofun

/-- Settling without a bound ends with its moves, as long as it has rounds for them. -/
theorem settleFrom_settlesAs {r : Except Failure Instance} (hd : d.Acyclic)
    (hp : Path d i (.replicate steps .null) j) (hrounds : d.autoCount < rounds + steps)
    (h : (settleFrom d none rounds steps j).CanEnd r) : ∃ n, SettlesAs d i n r := by
  induction rounds generalizing steps j with
  | zero =>
    have := hp.length_le hd
    omega
  | succ rounds ih =>
    unfold settleFrom at h
    split at h
    · exact ⟨steps, .of_rest hp h⟩
    next hr =>
    have hr : j.status = .running := by simpa using hr
    split at h
    next hs => exact ⟨steps, .of_stop hp (.lost hs) (fun _ _ hf => by cases hf) h⟩
    next source hs =>
    split at h
    · exact ⟨steps, .of_rest hp h⟩
    have hchoice : ∀ t ∈ source.autoTransitions, Choice d j .null t :=
      fun t ht => .auto hr hs (by simp_all) ht
    rcases canEnd_bind.1 h with ⟨selected, hsel, h⟩ | ⟨f, hsel, rfl⟩
    · rcases selected with f | _ | t
      · have hfault : d.Faults f.cause := select_fault (fun t ht _ => (hchoice t ht).guard) hsel
        exact ⟨steps, .of_stop hp (.hook hfault) (fun _ _ hf => by cases hf) h⟩
      · exact ⟨steps, .of_rest hp h⟩
      have hc : Choice d j .null t := hchoice t (select_mem hsel)
      rcases canEnd_bind.1 h with ⟨result, hmove, h⟩ | ⟨f, hmove, rfl⟩
      · rcases result with s | next
        · exact ⟨steps, .of_stop hp (hc.move_stopped hmove) (move_not_stalled hmove) h⟩
        · exact ih (hp.next (hc.move_ok hmove)) (by omega) h
      · exact ⟨steps, .leaves hp (hc.move_escapes f hmove)⟩
    · exact ⟨steps, .leaves hp (select_escapes (fun t ht _ => (hchoice t ht).guard) f hsel)⟩

end Instance

/-- The limits allow a number of moves: a bound is not below it, and without a bound the rounds are
more. -/
structure Limits.Allows (l : Limits) (n : Nat) : Prop where
  bound : ∀ m, l.bound = some m → (n : Int) ≤ m
  rounds : l.bound = none → n < l.rounds

theorem Limits.Allows.lt_budget {l : Limits} {n : Nat} (h : l.Allows n) : n < l.budget := by
  unfold budget
  cases hb : l.bound with
  | none => exact h.rounds hb
  | some m =>
    have := h.bound m hb
    dsimp only
    omega

/-- **In an acyclic definition settling ends by itself**, whatever the hooks do. All limits that
allow as many moves as there are auto states come to the same, a bound or none. However others
interfere, settling rests or is stopped after so many moves at most, and never by a bound or for
want of rounds. Alone, it reads the clock and adds to the history so many times at most. -/
theorem acyclic_settles {d : Definition} {l : Limits} (hd : d.Acyclic) (hl : l.Allows d.autoCount)
    (i : Instance) :
    (∀ l' : Limits, l'.Allows d.autoCount → i.settle d l' = i.settle d l) ∧
      (∀ r, (i.settle d l).CanEnd r → ∃ n ≤ d.autoCount, Instance.SettlesAs d i n r) ∧
      ∀ e, ∃ moves ≤ d.autoCount,
        ((i.settle d l).run e).world.clock.taken = e.clock.taken + moves ∧
        ∀ k, ((i.settle d l).run e).answer = .ok k →
          k.history.length = i.history.length + moves := by
  have hsame : ∀ l l' : Limits, l.Allows d.autoCount → l'.Allows d.autoCount →
      i.settle d l' = i.settle d l := fun l l' hl hl' =>
    Instance.settleFrom_limits hd (.stay i) hl'.bound hl.bound hl'.lt_budget hl.lt_budget
  refine ⟨fun l' => hsame l l' hl, fun r h => ?_, fun e => ?_⟩
  · have hfree : Limits.Allows { rounds := d.autoCount + 1 } d.autoCount :=
      ⟨nofun, fun _ => Nat.lt_succ_self _⟩
    rw [← hsame l _ hl hfree] at h
    obtain ⟨n, hn⟩ := Instance.settleFrom_settlesAs hd (.stay i) (Nat.lt_succ_self _) h
    exact ⟨n, hn.length_le hd, hn⟩
  · have hbounded : Limits.Allows { bound := some d.autoCount } d.autoCount :=
      ⟨fun m hm => Int.le_of_eq (Option.some.inj hm), nofun⟩
    rw [← hsame l _ hl hbounded]
    have hbound : some (d.autoCount : Int) = some ((0 + d.autoCount : Nat) : Int) := by
      rw [Nat.zero_add]
    obtain ⟨moves, hclock, hcount⟩ := Instance.settleFrom_reads (i := i) (d := d) hbound e
    exact ⟨moves, hcount.le, hclock, hcount.ok⟩

/-! ## A sorting office -/

/-- A parcel is scanned, weighed if it is heavy, and sorted. It can be recalled from its shelf,
which makes no cycle, as that takes an event. -/
def sorting : Definition where
  id := .text "sorting"
  initial := "scanned"
  states := Dict.ofList [
    ("scanned", { id := "scanned", kind := .auto, transitions := [
      { target := .text "weighed", guard := some ⟨"heavy", fun weight => .done (.datum weight)⟩ },
      { target := .text "sorted" }] }),
    ("weighed", { id := "weighed", kind := .auto, transitions := [{ target := .text "sorted" }] }),
    ("sorted", { id := "sorted", kind := .auto, transitions := [{ target := .text "shelf" }] }),
    ("shelf", { id := "shelf", transitions := [
      { target := .text "scanned", event := .text "recall" }] })]

/-- How far a parcel has come. -/
def stage : String → Nat
  | "scanned" => 0
  | "weighed" => 1
  | "sorted" => 2
  | _ => 3

theorem sorting_acyclic : sorting.Acyclic := by
  refine Definition.acyclic_of_rank stage fun a b h => ?_
  obtain ⟨hsource, hkind, hmem, hevent, htarget, hauto⟩ := h
  next source target t =>
  have hentry := Dict.get?_ofList_mem hsource
  simp only [List.mem_cons, List.not_mem_nil, or_false, Prod.mk.injEq] at hentry
  rcases hentry with ⟨rfl, rfl⟩ | ⟨rfl, rfl⟩ | ⟨rfl, rfl⟩ | ⟨rfl, rfl⟩
  · simp only [List.mem_cons, List.not_mem_nil, or_false] at hmem
    rcases hmem with rfl | rfl
    · cases htarget
      decide
    · cases htarget
      decide
  · cases List.mem_singleton.1 hmem
    cases htarget
    decide
  · cases List.mem_singleton.1 hmem
    cases htarget
    decide
  · cases hkind

/-- A heavy parcel. -/
def anvil : Instance := sorting.fresh ⟨0, .int 60⟩ "anvil" (Instant.text ⟨0⟩)

/-- The heavy parcel visits all three auto states, and a bound of three does not come into play. -/
theorem acyclic_settles_sorting :
    sorting.Acyclic ∧ Limits.Allows {} sorting.autoCount ∧
      anvil.settle sorting { bound := some 3 } = anvil.settle sorting {} ∧
      ((anvil.settle sorting {}).run (stoppedAt 5)).answer.map (·.history.length) = .ok 4 ∧
      ∃ moves ≤ 3, ((anvil.settle sorting {}).run (stoppedAt 5)).world.clock.taken = moves := by
  have hcount : sorting.autoCount = 3 := rfl
  have hfree : Limits.Allows {} sorting.autoCount := ⟨nofun, fun _ => by decide⟩
  have hbounded : Limits.Allows { bound := some 3 } sorting.autoCount :=
    ⟨fun m hm => Int.le_of_eq (Option.some.inj hm), nofun⟩
  obtain ⟨hsame, -, hruns⟩ := acyclic_settles sorting_acyclic hfree anvil
  obtain ⟨moves, hle, hclock, -⟩ := hruns (stoppedAt 5)
  exact ⟨sorting_acyclic, hfree, hsame _ hbounded, rfl, moves, hle, hclock.trans (Nat.zero_add _)⟩

end Workflow
