import Workflow.Proofs.Api.Errands
import Workflow.Proofs.Engine.Finished
import Workflow.Proofs.Engine.LeftAlone

/-!
# Finished instances are frozen

Once a stored instance is finished, it stays as it is, whatever else is asked of the engine,
directly or through interfaces, in any order and any interleaving (`Api.Frozen`).

**Calls** on it are answered as those on a finished instance (`Engine.Request.late`), and do
nothing. This includes the calls that had begun before, and were waiting for the lock when it
finished.

**The content** of its context stays as well, if the context belongs to it alone
(`Api.Unshared`).

Main result: `finished_frozen`.
-/

namespace Workflow.Api

open Activity
open Engine (Filed ClaimsOf LeftAlone Stake rules)

section

variable (e : Engine) (w : EngineState) (errands : List Errand)

/-- The context that an errand gives to an instance, after turns at the given places. If it is one
that the errand has made, then it was made at the beginning of the errand. -/
def giftOf (places : List Nat) (n : Nat) (x : Errand) : Option (Option String × Nat) :=
  x.gift (((underway e w errands []).begins n places).map (·.env.size))

/-- The context is there, and belongs to the instance of an id alone: no other stored instance has
it, and no errand that goes on gives it to another one. -/
structure Unshared (places : List Nat) (id : String) (c : Context) : Prop where
  inside : c.arena < (underway e w errands places).world.env.size
  stored : ∀ id', id' ≠ id → ∀ j,
    (underway e w errands places).world.instances.get? id' = some j → j.ctx.arena ≠ c.arena
  given : ∀ n x, errands[n]? = some x → (∀ a, (n, a) ∉ (underway e w errands places).finished) →
    ∀ whose, giftOf e w errands places n x = some (whose, c.arena) → whose = some id

/-- What a request is replied that comes too late, when the instance is finished. -/
def lateReply (id : String) (i : Instance) (r : Engine.Request) : Except Failure Reply :=
  (r.late id i).map fun a => .result (.answered a)

/-- The request `n` on the instance of an id did not have its lock, and it was not its turn, when
there was the turn at `place`. -/
structure ComesLate (before : List Nat) (place n : Nat) (id : String) (r : Engine.Request) :
    Prop where
  errand : errands[n]? = some (.job (.request id r))
  unserved : n ∉ (underway e w errands before).takers id
  other : (underway e w errands before).next? place ≠ some n

/-- The snapshot is frozen from the turn at `place` on. -/
structure Frozen (before : List Nat) (place : Nat) (id : String) (i : Instance) : Prop where
  /-- It is the very snapshot that is stored, whatever comes after. -/
  filed : ∀ after, Filed id i (underway e w errands (before ++ place :: after)).world
  /-- Wherever it is stored, with whatever definition and observers, a request on it does nothing
  from the moment it has the lock, and has one answer. So no guard, hook, updater or observer has a
  part in it. -/
  requests : ∀ r : Engine.Request, (r.call e id).Gated (Filed id i) id (r.late id i)
  /-- So it is with the events that observers send. -/
  events : ∀ depth event,
    (e.sendWithin (depth + 1) id event).Gated (Filed id i) id (.ok ⟨i, false⟩)
  /-- The turns of a request that comes late change nothing and report nothing. -/
  idle : ∀ n r, ComesLate e w errands before place n id r → ∀ after next,
    (underway e w errands (before ++ place :: after)).next? next = some n →
      Schedule.IdleTurn (lateReply id i r) n (underway e w errands (before ++ place :: after))
        (underway e w errands (before ++ place :: (after ++ [next])))
  /-- It has no other answer. -/
  answers : ∀ n r, ComesLate e w errands before place n id r → ∀ after a,
    (n, a) ∈ (underway e w errands (before ++ place :: after)).finished →
      (n, a) ∈ (underway e w errands before).finished ∨ a = lateReply id i r
  /-- It does not wait for ever. -/
  ended : ∀ n r, ComesLate e w errands before place n id r → ∀ after,
    (underway e w errands (before ++ place :: after)).ready = [] →
      ∃ a, (n, a) ∈ (underway e w errands (before ++ place :: after)).finished
  content : Unshared e w errands (before ++ [place]) id i.ctx → ∀ after,
    (underway e w errands (before ++ place :: after)).world.env.read i.ctx =
      (underway e w errands (before ++ [place])).world.env.read i.ctx

end

variable {e : Engine} {w : EngineState} {errands : List Errand} {places : List Nat} {id : String}
  {i : Instance} {n : Nat}

theorem underway_append (places after : List Nat) :
    underway e w errands (places ++ after) = (underway e w errands places).turns after :=
  List.foldl_append

/-! ## The snapshot -/

/-- The errand has not ended. -/
def Unfinished (s : Schedule Realm.engine Reply) (n : Nat) : Prop := ∀ a, (n, a) ∉ s.finished

/-- What is true of the stakes now, and ended by no change that an errand which goes on may make,
stays true. -/
theorem underway_keeps {γ : Ghost rules} {G : (Nat → Stake) → EngineState → Prop}
    (hγ : Underway e w errands γ (underway e w errands places))
    (hnow : G γ.stake (underway e w errands places).world)
    (hkeeps : ∀ {g lock n x v v'}, Unfinished (underway e w errands places) n → ClaimsOf w g v →
      G g v → Engine.Change lock (g n) v x v' → G (Function.update g n x) v')
    (after : List Nat) :
    ∃ g, ClaimsOf w g (underway e w errands (places ++ after)).world ∧
      G g (underway e w errands (places ++ after)).world := by
  let s := underway e w errands places
  have hupholds := (Engine.upholds_claims (Unfinished s) w).and
    fun hn hF hG hc => hkeeps hn hF hG hc
  have hagain : Ruled (errands.map (Errand.undertaking e)) γ { hold := .visitor } (Unfinished s)
      (fun g v => ClaimsOf w g v ∧ G g v) [] s :=
    { hγ with
      fits := ⟨hγ.fits, hnow⟩
      alive := fun n _ => (Classical.em (∃ a, (n, a) ∈ s.finished)).symm.imp_left
        fun hn a ha => hn ⟨a, ha⟩ }
  obtain ⟨γ', hγ', -⟩ := hagain.turns hupholds after
  rw [underway_append]
  exact ⟨γ'.stake, hγ'.fits⟩

/-- **A finished snapshot stays.** -/
theorem filed_forever (hw : w.Tidy)
    (hi : (underway e w errands places).world.instances.get? id = some i)
    (hfinished : ¬ i.isRunning) (after : List Nat) :
    Filed id i (underway e w errands (places ++ after)).world := by
  obtain ⟨γ, hγ, -⟩ := underway_ruled (e := e) hw errands places
  obtain ⟨g, hclaims, hstays⟩ := underway_keeps (G := fun _ v => v.instances.get? id = some i) hγ hi
    (fun _ hclaims hi hc => Engine.stays_change hclaims hi hfinished hc) after
  refine ⟨hstays, Dict.mem_keys.1 ?_⟩
  rw [← hclaims.tables]
  exact Dict.mem_keys.2 ⟨i, hstays⟩

/-! ## The context -/

/-- All contexts of a call are those of its gift. -/
theorem stake_giftOf {γ : Ghost rules}
    (hγ : Underway e w errands γ (underway e w errands places))
    (hbegun : γ.begun n = (underway e w errands []).begins n places) {x : Errand}
    (hx : errands[n]? = some x) (hn : Unfinished (underway e w errands places) n) :
    (γ.stake n).Gives (giftOf e w errands places n x) := by
  have hu : (errands.map (Errand.undertaking e))[n]? = some (x.undertaking e) := by
    rw [List.getElem?_map, hx]
    rfl
  unfold giftOf
  rcases hγ.status hu with ⟨-, ⟨hnone, hstake⟩ | ⟨v, hv, hduring⟩⟩ | ⟨r, v, hr, -⟩
  · rw [← hbegun, hnone, hstake]
    exact x.stake_gives
  · rw [← hbegun, hv]
    exact Errand.during_gives hduring
  · exact absurd hr (hn r)

/-- A context that is not shared is left alone by all that goes on. -/
theorem leftAlone_of_unshared {γ : Ghost rules}
    (hγ : Underway e w errands γ (underway e w errands places))
    (hbegun : ∀ n, γ.begun n = (underway e w errands []).begins n places)
    {c : Context} (hc : Unshared e w errands places id c) :
    LeftAlone (Unfinished (underway e w errands places)) id c
      ((underway e w errands places).world.env.arena c.arena) γ.stake
      (underway e w errands places).world := by
  have hgives : ∀ n, Unfinished (underway e w errands places) n →
      c.arena ∉ (γ.stake n).hands ∧ ∀ id', (id', c.arena) ∈ (γ.stake n).offers → id' = id := by
    intro n hn
    cases hx : errands[n]? with
    | none =>
      have hlength : (errands.map (Errand.undertaking e)).length ≤ n := by
        rw [List.length_map]
        exact List.getElem?_eq_none_iff.1 hx
      rw [hγ.absent n hlength]
      exact ⟨List.not_mem_nil, fun _ h => absurd h List.not_mem_nil⟩
    | some x =>
      have hstake := stake_giftOf hγ (hbegun n) hx hn
      refine ⟨fun hmem => ?_, fun id' hmem => ?_⟩
      · exact nomatch hc.given n x hx hn none (hstake.hands _ hmem)
      · exact Option.some.inj (hc.given n x hx hn (some id') (hstake.offers id' _ hmem))
  exact ⟨rfl, hc.inside, hc.stored, fun n hn => (hgives n hn).1, fun n hn => (hgives n hn).2⟩

/-- **The context of a finished instance stays**, if it is not shared. -/
theorem content_forever (hw : w.Tidy)
    (hi : (underway e w errands places).world.instances.get? id = some i)
    (hfinished : ¬ i.isRunning) (hshared : Unshared e w errands places id i.ctx)
    (after : List Nat) :
    (underway e w errands (places ++ after)).world.env.read i.ctx =
      (underway e w errands places).world.env.read i.ctx := by
  let s := underway e w errands places
  let G (g : Nat → Stake) (v : EngineState) : Prop := v.instances.get? id = some i ∧
    LeftAlone (Unfinished s) id i.ctx (s.world.env.arena i.ctx.arena) g v
  obtain ⟨γ, hγ, hbegun⟩ := underway_ruled (e := e) hw errands places
  obtain ⟨g, -, -, halone⟩ := underway_keeps (G := G) hγ
    ⟨hi, leftAlone_of_unshared hγ hbegun hshared⟩ (fun hn hclaims hG hc =>
      ⟨Engine.stays_change hclaims hG.1 hfinished hc, hG.2.change (fun _ _ hj =>
        Option.some.inj (hG.1.symm.trans hj) ▸ hfinished) hn hc⟩) after
  exact congrArg (·.load i.ctx.root) halone.arena

/-! ## Calls that come late -/

/-- The errand of a request does nothing from the moment it has the lock. -/
theorem gated_errand (hfinished : ¬ i.isRunning) (r : Engine.Request) :
    ((Errand.job (.request id r)).call e).Gated (Filed id i) id (lateReply id i r) := by
  have hrequest : (r.call e id).Gated (Filed id i) id (r.late id i) := r.gated hfinished
  have hcall := (hrequest.map Engine.Result.answered).map Reply.result
  have hreply : ((r.late id i).map Engine.Result.answered).map Reply.result = lateReply id i r := by
    unfold lateReply
    cases r.late id i <;> rfl
  rw [← hreply]
  exact hcall

section ComesLate

variable {before after : List Nat} {place next : Nat} {r : Engine.Request}

/-- A request that comes late is late for good. -/
theorem ComesLate.late (h : ComesLate e w errands before place n id r)
    (hfinished : ¬ i.isRunning)
    (hfiled : ∀ after, Filed id i (underway e w errands (before ++ place :: after)).world)
    (after : List Nat) :
    Schedule.Late (Filed id i) (lateReply id i r) n
        (underway e w errands (before ++ place :: after)) ∧
      ∀ a, (n, a) ∈ (underway e w errands (before ++ place :: after)).finished →
        (n, a) ∈ (underway e w errands before).finished ∨ a = lateReply id i r := by
  have hcall : (errands.map (Errand.call e))[n]? = some ((Errand.job (.request id r)).call e) := by
    rw [List.getElem?_map, h.errand]
    rfl
  have hlate : Schedule.Late (Filed id i) (lateReply id i r) n (underway e w errands before) :=
    Schedule.late_of_not_mem_takers (gated_errand hfinished r) hcall before h.unserved
  have haside := Schedule.aside_turn h.other
  have hlater : ∀ after, underway e w errands (before ++ place :: after) =
      ((underway e w errands before).turn place).turns after := fun after =>
    underway_append before (place :: after)
  obtain ⟨hlate', hended⟩ := (hlate.aside haside).turns
    (fun places => hlater places ▸ hfiled places) after
  rw [hlater]
  exact ⟨hlate', fun a ha => (hended a ha).imp_left (haside.finished a)⟩

end ComesLate

/-- **Finished instances are frozen**, whatever is asked of the engine, and however the turns are
mixed. -/
theorem finished_frozen (hw : w.Tidy) (before : List Nat) (place : Nat)
    (hi : (underway e w errands (before ++ [place])).world.instances.get? id = some i)
    (hfinished : i.isFinished) : Frozen e w errands before place id i := by
  have hstopped : ¬ i.isRunning := by
    intro hrunning
    simp_all [Instance.isFinished, Instance.isRunning]
  have hfiled : ∀ after, Filed id i (underway e w errands (before ++ place :: after)).world := by
    intro after
    rw [List.append_cons]
    exact filed_forever hw hi hstopped after
  exact {
    filed := hfiled
    requests := fun r => r.gated hstopped
    events := Engine.gated_sendWithin hstopped
    idle := fun n r hn after next hnext => by
      have hturn : underway e w errands (before ++ place :: (after ++ [next])) =
          (underway e w errands (before ++ place :: after)).turn next := by
        rw [← List.cons_append, ← List.append_assoc]
        exact underway_append _ [next]
      rw [hturn]
      exact ((hn.late hstopped hfiled after).1.idle (hfiled after) hnext).2
    answers := fun n r hn after => (hn.late hstopped hfiled after).2
    ended := fun n r hn after hready => by
      obtain ⟨γ, hγ, -⟩ := underway_ruled (e := e) hw errands (before ++ place :: after)
      refine hγ.ended hready n ?_
      rw [List.length_map]
      exact (List.getElem?_eq_some_iff.1 hn.errand).1
    content := fun hshared after => by
      rw [List.append_cons]
      exact content_forever hw hi hstopped hshared after }

/-! ## Closing time -/

/-- The stall on its corner, with two items. -/
def evening : EngineState := { Engine.market ["watch"] with reserved := ["corner"] }

/-- One item is sold, and then the stall closes. Meanwhile there is a second buyer, a question and a
new delivery, and a look through an interface. -/
def lastCalls : List Errand :=
  [.job (.request "corner" (.send "sell")), .job (.request "corner" (.send "close")),
    .job (.request "corner" (.send "sell")), .job (.request "corner" (.canFire "sell")),
    .job (.request "corner" (.set ⟨0, .null⟩)),
    .http {} { method := "GET", path := "/workflows/instances/corner" }]

theorem finished_frozen_evening :
    let before := [0, 0, 0, 0, 0, 1]
    let now := underway Engine.watched evening lastCalls (before ++ [1])
    ∃ i, evening.Tidy ∧ now.world.instances.get? "corner" = some i ∧ i.isFinished ∧
      Frozen Engine.watched evening lastCalls before 1 "corner" i ∧
      ComesLate Engine.watched evening lastCalls before 1 2 "corner" (.send "sell") ∧
      ComesLate Engine.watched evening lastCalls before 1 3 "corner" (.canFire "sell") ∧
      ComesLate Engine.watched evening lastCalls before 1 4 "corner" (.set ⟨0, .null⟩) ∧
      Unshared Engine.watched evening lastCalls (before ++ [1]) "corner" i.ctx ∧
      now.world.env.read i.ctx = .list [.text "lamp"] ∧
      (now.turns [1, 2, 2, 1, 0]).ready = [] := by
  intro before now
  have hw : evening.Tidy := by
    refine ⟨rfl, by decide, fun id => ?_⟩
    show id ∈ ["corner"] ↔ id ∈ ["corner"]
    rfl
  have hnow : (now.world.instances.get? "corner").map
      (fun i => (i.isFinished, i.ctx, now.world.env.read i.ctx)) =
        some (true, ⟨0, .ref 0⟩, .list [.text "lamp"]) := by decide +kernel
  obtain ⟨i, hi, hfacts⟩ := Option.map_eq_some_iff.1 hnow
  obtain ⟨hfinished, hctx, hread⟩ : i.isFinished ∧ i.ctx = ⟨0, .ref 0⟩ ∧
      now.world.env.read i.ctx = .list [.text "lamp"] := by simpa using hfacts
  have hkeys : now.world.instances.keys = ["corner"] := by decide +kernel
  have hgift : ∀ x ∈ lastCalls, ∀ made whose, x.gift made = some (whose, 0) →
      whose = some "corner" := by
    have hlook : Mount.action? {} { method := "GET", path := "/workflows/instances/corner" } =
        some (.showInstance "corner") := by decide +kernel
    simp only [lastCalls, List.forall_mem_cons]
    refine ⟨nofun, nofun, nofun, nofun, fun made whose h => ?_, fun made whose h => ?_, nofun⟩
    · cases h
      rfl
    · unfold Errand.gift at h
      simp only [hlook] at h
      cases h
  refine ⟨i, hw, hi, hfinished, finished_frozen hw before 1 hi hfinished, ?_, ?_, ?_, ?_, hread, ?_⟩
  · exact ⟨rfl, by decide +kernel, by decide +kernel⟩
  · exact ⟨rfl, by decide +kernel, by decide +kernel⟩
  · exact ⟨rfl, by decide +kernel, by decide +kernel⟩
  · rw [hctx]
    refine ⟨by decide +kernel, fun id' hid' j hj => ?_, fun n x hx _ whose h => ?_⟩
    · have hmem : id' ∈ now.world.instances.keys := Dict.mem_keys.2 ⟨j, hj⟩
      rw [hkeys] at hmem
      exact absurd (List.mem_singleton.1 hmem) hid'
    · exact hgift x (List.mem_of_getElem? hx) _ whose h
  · have hlength : (now.turns [1, 2, 2, 1, 0]).ready.length = 0 := by decide +kernel
    exact List.length_eq_zero_iff.1 hlength

end Workflow.Api
