import Workflow.Proofs.Engine.Jobs

/-!
# Ids are claimed once

Starts, given or issued ids, come in together with each other and with all other calls on an engine,
in any interleaving. Hooks pause and fail as they like, in contained ways or not.

**In flight** (`Engine.InFlight`). A start that has had its first turn and has not ended has
reserved the id that it asked for. Together with the ids of stored instances these are all that are
reserved.

**Returned** (`Engine.Returned`). A start that returns has stored its instance, with the definition
that the registry had when it began. No other start ever returns one under that id.

**The first turn** (`Engine.Opening`) decides. A start that finds its id reserved ends at once, and
leaves nothing; so does one whose workflow is not known. Any other one has the id from then on.

Main result: `ids_claimed`.
-/

namespace Workflow

open Activity

namespace Engine

section

variable (e : Engine) (w : EngineState) (jobs : List Job) (places : List Nat)

/-- The world in which a job had its first turn. -/
def beginning (n : Nat) : Option EngineState := (e.atWork w jobs []).begins n places

/-- The start has begun and not ended; the id is the one that it asked for. -/
def InFlight (n : Nat) (id : String) : Prop :=
  ∃ bid c abandoned v, jobs[n]? = some (.start bid c abandoned) ∧
    e.beginning w jobs places n = some v ∧ bid.idIn v = id ∧
    ∀ r, (n, r) ∉ (e.atWork w jobs places).finished

/-- The start has returned an instance with the id. -/
def Returned (n : Nat) (id : String) : Prop :=
  ∃ bid c abandoned i, jobs[n]? = some (.start bid c abandoned) ∧
    (n, .ok (.started i)) ∈ (e.atWork w jobs places).finished ∧ i.id = id

/-- At this moment, ids, reservations and definitions are told by the starts that are in flight or
have returned. -/
structure Claimed : Prop where
  tables : (e.atWork w jobs places).world.instances.keys =
    (e.atWork w jobs places).world.definitions.keys
  nodup : (e.atWork w jobs places).world.reserved.Nodup
  reserved : ∀ id, id ∈ (e.atWork w jobs places).world.reserved ↔
    id ∈ (e.atWork w jobs places).world.instances.keys ∨ ∃ n, e.InFlight w jobs places n id
  inFlight : ∀ n id, e.InFlight w jobs places n id →
    id ∉ (e.atWork w jobs places).world.instances.keys ∧
      ∀ m, e.InFlight w jobs places m id → m = n
  stored : ∀ id, id ∈ (e.atWork w jobs places).world.instances.keys ↔
    id ∈ w.instances.keys ∨ ∃ n, e.Returned w jobs places n id
  returned : ∀ n id, e.Returned w jobs places n id →
    id ∉ w.instances.keys ∧ ∀ m, e.Returned w jobs places m id → m = n
  definition : ∀ n id, e.Returned w jobs places n id →
    ∃ bid c abandoned v d, jobs[n]? = some (.start bid c abandoned) ∧
      e.beginning w jobs places n = some v ∧ bid.idIn v = id ∧ bid.definition v = .ok d ∧
      (e.atWork w jobs places).world.definitions.get? id = some d
  kept : ∀ id d, w.definitions.get? id = some d →
    (e.atWork w jobs places).world.definitions.get? id = some d
  /-- The id of a start that has failed is free, if no other start has it. -/
  failed : ∀ n bid c abandoned v f, jobs[n]? = some (.start bid c abandoned) →
    e.beginning w jobs places n = some v →
    (n, .error f) ∈ (e.atWork w jobs places).finished →
    bid.idIn v ∈ (e.atWork w jobs places).world.reserved →
    bid.idIn v ∈ (e.atWork w jobs places).world.instances.keys ∨
      ∃ m, m ≠ n ∧ e.InFlight w jobs places m (bid.idIn v)

/-- The world after an id has been asked for. -/
def Bid.asked (b : Bid) (w : EngineState) : EngineState :=
  match b.given with
  | some _ => w
  | none => { w with env := { w.env with issued := w.env.issued + 1 } }

/-- The first turn of a start, from `s` to `s'`. -/
structure Opening (n place : Nat) (bid : Bid) (c : Option Context) (abandoned : Bool)
    (s s' : Schedule Realm.engine Result) : Prop where
  unknown : ∀ f, bid.definition s.world = .error f →
    s' = { s with ready := s.ready.eraseIdx place, finished := (n, .error f) :: s.finished }
  taken : ∀ d, bid.definition s.world = .ok d → bid.idIn s.world ∈ s.world.reserved →
    s' = { s with
      ready := s.ready.eraseIdx place
      world := bid.asked s.world
      finished := (n, .error (idTaken (bid.idIn s.world))) :: s.finished }
  free : ∀ d, bid.definition s.world = .ok d → bid.idIn s.world ∉ s.world.reserved →
    s' = Schedule.advance n (starting abandoned (e.startReserved d c (bid.idIn s.world)))
      { s with
        ready := s.ready.eraseIdx place
        world := (bid.asked s.world).reserve (bid.idIn s.world) }

/-- A turn of the start with number `n`. The first one decides whether it gets the id. All leave the
reservations of other ids as they are, and all but the one in which it returns leave the tables. -/
structure StartTurn (n place : Nat) (bid : Bid) (c : Option Context) (abandoned : Bool) :
    Prop where
  opening : e.beginning w jobs places n = none →
    e.Opening n place bid c abandoned (e.atWork w jobs places)
      ((e.atWork w jobs places).turn place)
  tables : (∀ i, (n, .ok (.started i)) ∉ ((e.atWork w jobs places).turn place).finished) →
    ((e.atWork w jobs places).turn place).world.instances =
        (e.atWork w jobs places).world.instances ∧
      ((e.atWork w jobs places).turn place).world.definitions =
        (e.atWork w jobs places).world.definitions
  reserved : ∀ id,
    id ≠ bid.idIn ((e.beginning w jobs places n).getD (e.atWork w jobs places).world) →
      (id ∈ ((e.atWork w jobs places).turn place).world.reserved ↔
        id ∈ (e.atWork w jobs places).world.reserved)

end

variable {e : Engine} {w : EngineState} {jobs : List Job} {places : List Nat} {n m place : Nat}
  {id : String} {bid : Bid} {c : Option Context} {abandoned : Bool}
  {s : Schedule Realm.engine Result} {γ : Ghost rules}

/-! ## The first turn -/

theorem advance_start (s : Schedule Realm.engine Result) :
    Schedule.advance n ((Job.start bid c abandoned).call e) s =
      Schedule.advance n (starting abandoned
        ((Activity.ofExcept (bid.definition s.world)).bind fun d =>
          (within (idOrIssued bid.given)).bind fun id => .look fun s =>
            if id ∈ s.reserved then .fail (idTaken id)
            else .update (EngineState.reserve id) (e.startReserved d c id))) s := by
  cases abandoned <;> rfl

/-- A start whose workflow is known asks for its id, and has it reserved if it is free. -/
theorem advance_claim {d : Definition} (hd : bid.definition s.world = .ok d) :
    Schedule.advance n ((Job.start bid c abandoned).call e) s =
      Schedule.advance n (starting abandoned
        (if bid.idIn s.world ∈ s.world.reserved then .fail (idTaken (bid.idIn s.world))
        else .update (EngineState.reserve (bid.idIn s.world))
          (e.startReserved d c (bid.idIn s.world)))) { s with world := bid.asked s.world } := by
  rw [advance_start, hd]
  unfold Bid.idIn Bid.asked
  cases bid.given <;> cases abandoned <;> rfl

/-- **The first turn of a start.** -/
theorem start_opening (hnext : s.ready[place]? = some (n, (Job.start bid c abandoned).call e)) :
    e.Opening n place bid c abandoned s (s.turn place) := by
  have hturn : s.turn place = Schedule.advance n ((Job.start bid c abandoned).call e)
      { s with ready := s.ready.eraseIdx place } := by
    unfold Schedule.turn
    rw [hnext]
  rw [hturn]
  constructor
  · intro f hf
    rw [advance_start, hf]
    cases abandoned <;> rfl
  · intro d hd hid
    refine (advance_claim (s := { s with ready := s.ready.eraseIdx place }) hd).trans ?_
    dsimp only
    rw [if_pos hid]
    cases abandoned <;> rfl
  · intro d hd hid
    refine (advance_claim (s := { s with ready := s.ready.eraseIdx place }) hd).trans ?_
    dsimp only
    rw [if_neg hid]
    cases abandoned <;> rfl

/-! ## Where starts are -/

/-- How far a start has come, with the stake that it has there. -/
inductive Stage (bid : Bid) (x : Stake) (begun : Option EngineState)
    (finished : List (Nat × Except Failure Result)) (n : Nat) : Prop
  | fresh : (∀ r, (n, r) ∉ finished) → begun = none → x.hold = .seeker →
      Stage bid x begun finished n
  | inFlight {v : EngineState} : (∀ r, (n, r) ∉ finished) → begun = some v → bid.Holds v x →
      Stage bid x begun finished n
  | returned {v : EngineState} {i : Instance} : (n, .ok (.started i)) ∈ finished → begun = some v →
      bid.Ends v x (.ok i) → Stage bid x begun finished n
  | failed {v : EngineState} {f : Failure} : (n, .error f) ∈ finished → begun = some v →
      x.hold = .seeker → Stage bid x begun finished n

theorem undertaking_of_job {j : Job} (hn : jobs[n]? = some j) :
    (jobs.map (Job.undertaking e))[n]? = some (j.undertaking e) := by
  rw [List.getElem?_map, hn]
  rfl

/-- **Every start is at some stage.** -/
theorem AtWork.stage (h : AtWork e w jobs γ s) (hn : jobs[n]? = some (.start bid c abandoned)) :
    Stage bid (γ.stake n) (γ.begun n) s.finished n := by
  rcases h.status (undertaking_of_job hn) with ⟨hrest, ⟨hbegun, hstake⟩ | ⟨v, hv, hduring⟩⟩ |
      ⟨r, v, hr, hv, r', rfl, hends⟩
  · exact .fresh hrest hbegun (by rw [hstake]; rfl)
  · exact .inFlight hrest hv hduring.1
  · rcases hends with ⟨i, d, rfl, hrest⟩ | ⟨f, rfl, hseeker⟩
    · exact .returned hr hv (.inl ⟨i, d, rfl, hrest⟩)
    · exact .failed hr hv hseeker

/-- A job that starts nothing holds no id. -/
theorem AtWork.visitor (h : AtWork e w jobs γ s)
    (hn : ∀ bid c abandoned, jobs[n]? ≠ some (.start bid c abandoned)) :
    (γ.stake n).hold = .visitor := by
  cases hj : jobs[n]? with
  | none =>
    have hlength : (jobs.map (Job.undertaking e)).length ≤ n := by
      rw [List.length_map]
      exact List.getElem?_eq_none_iff.1 hj
    rw [h.absent n hlength]
  | some j =>
    have hvisitor : j.stake.hold = .visitor := by
      cases j with
      | start bid c abandoned => exact absurd hj (hn bid c abandoned)
      | _ => rfl
    have hsame : γ.stake n = j.stake := by
      rcases h.status (undertaking_of_job hj) with ⟨-, ⟨-, hstake⟩ | ⟨v, -, hduring⟩⟩ |
          ⟨r, v, -, -, hends⟩
      · exact hstake
      · cases j with
        | start bid c abandoned => exact absurd hj (hn bid c abandoned)
        | _ => exact hduring
      · cases j with
        | start bid c abandoned => exact absurd hj (hn bid c abandoned)
        | _ => exact hends
    rw [hsame, hvisitor]

/-- A start that has returned has stored its instance, with its definition. -/
theorem AtWork.returned {i : Instance} (h : AtWork e w jobs γ s)
    (hn : jobs[n]? = some (.start bid c abandoned)) (hr : (n, .ok (.started i)) ∈ s.finished) :
    ∃ v d, γ.begun n = some v ∧ i.id = bid.idIn v ∧ bid.definition v = .ok d ∧
      (γ.stake n).hold = .owner (bid.idIn v) d := by
  obtain ⟨-, u, v, hu, hv, hends⟩ := h.finished _ hr
  cases (undertaking_of_job hn).symm.trans hu
  obtain ⟨r', hr', ⟨j, d, rfl, hid, hd, hhold⟩ | ⟨f, rfl, -⟩⟩ := hends
  · cases hr'
    exact ⟨v, d, hv, hid, hd, hhold⟩
  · cases hr'

theorem inFlight_iff (h : AtWork e w jobs γ (e.atWork w jobs places))
    (hbegun : ∀ n, γ.begun n = e.beginning w jobs places n) :
    e.InFlight w jobs places n id ↔ (γ.stake n).hold.pending? = some id := by
  constructor
  · rintro ⟨bid, c, abandoned, v, hn, hv, rfl, hrest⟩
    rw [← hbegun] at hv
    cases h.stage hn with
    | fresh _ hfresh => rw [hv] at hfresh; cases hfresh
    | inFlight _ hv' hholds =>
      cases hv.symm.trans hv'
      obtain ⟨d, -, hhold⟩ := hholds
      rw [hhold]
      rfl
    | returned hr => exact absurd hr (hrest _)
    | failed hr => exact absurd hr (hrest _)
  · intro hpending
    by_cases hstart : ∃ bid c abandoned, jobs[n]? = some (.start bid c abandoned)
    · obtain ⟨bid, c, abandoned, hn⟩ := hstart
      cases h.stage hn with
      | fresh _ _ hseeker | failed _ _ hseeker => rw [hseeker] at hpending; cases hpending
      | inFlight hrest hv hholds =>
        obtain ⟨d, -, hhold⟩ := hholds
        rw [hhold] at hpending
        exact ⟨bid, c, abandoned, _, hn, (hbegun n).symm.trans hv, Option.some.inj hpending, hrest⟩
      | returned hr =>
        obtain ⟨v, d, -, -, -, hhold⟩ := h.returned hn hr
        rw [hhold] at hpending
        cases hpending
    · rw [h.visitor fun bid c abandoned hn => hstart ⟨bid, c, abandoned, hn⟩] at hpending
      cases hpending

theorem returned_iff (h : AtWork e w jobs γ (e.atWork w jobs places)) :
    e.Returned w jobs places n id ↔ ∃ d, (γ.stake n).hold.title? = some (id, d) := by
  constructor
  · rintro ⟨bid, c, abandoned, i, hn, hr, rfl⟩
    obtain ⟨v, d, -, hid, -, hhold⟩ := h.returned hn hr
    rw [hhold, hid]
    exact ⟨d, rfl⟩
  · rintro ⟨d, htitle⟩
    by_cases hstart : ∃ bid c abandoned, jobs[n]? = some (.start bid c abandoned)
    · obtain ⟨bid, c, abandoned, hn⟩ := hstart
      cases h.stage hn with
      | fresh _ _ hseeker | failed _ _ hseeker => rw [hseeker] at htitle; cases htitle
      | inFlight _ _ hholds =>
        obtain ⟨d', -, hhold⟩ := hholds
        rw [hhold] at htitle
        cases htitle
      | returned hr =>
        obtain ⟨v, d', -, hid, -, hhold⟩ := h.returned hn hr
        rw [hhold] at htitle
        cases htitle
        exact ⟨bid, c, abandoned, _, hn, hr, hid⟩
    · rw [h.visitor fun bid c abandoned hn => hstart ⟨bid, c, abandoned, hn⟩] at htitle
      cases htitle

/-! ## Turns of starts -/

/-- As long as a start has not stored its instance, what it does leaves the tables as they are. -/
theorem steps_tables {a b : Stake × EngineState} (h : rules.Steps a b)
    (ha : a.1.hold ≠ .visitor) :
    b.1.hold ≠ .visitor ∧ (b.1.hold.title? = none →
      b.2.instances = a.2.instances ∧ b.2.definitions = a.2.definitions) := by
  induction h with
  | refl => exact ⟨ha, fun _ => ⟨rfl, rfl⟩⟩
  | @tail b b' _ hstep ih =>
    obtain ⟨x, v⟩ := b
    obtain ⟨x', v'⟩ := b'
    obtain ⟨lock, hc⟩ := hstep
    obtain ⟨hvisitor, htables⟩ := ih
    dsimp only at hvisitor htables hc ⊢
    cases hc with
    | work hv | take hv | offer _ hv => exact ⟨hvisitor, hv.instances ▸ hv.definitions ▸ htables⟩
    | reserve d hseeker => exact ⟨nofun, fun _ => htables (by rw [hseeker]; rfl)⟩
    | free hholder => exact ⟨nofun, fun _ => htables (by rw [hholder]; rfl)⟩
    | store => exact ⟨nofun, nofun⟩
    | replace hx => exact absurd hx hvisitor

/-- Whatever a call does, the reservations of ids other than its own stay. -/
theorem steps_reserved {a b : Stake × EngineState} (h : rules.Steps a b)
    (ha : a.2.reserved.Nodup) :
    b.2.reserved.Nodup ∧ ∀ id, (id ∈ b.2.reserved ∧ b.1.hold.id? ≠ some id) ↔
      (id ∈ a.2.reserved ∧ a.1.hold.id? ≠ some id) := by
  induction h with
  | refl => exact ⟨ha, fun _ => Iff.rfl⟩
  | @tail b b' _ hstep ih =>
    obtain ⟨x, v⟩ := b
    obtain ⟨x', v'⟩ := b'
    obtain ⟨lock, hc⟩ := hstep
    obtain ⟨hnodup, hothers⟩ := ih
    dsimp only at hnodup hothers hc ⊢
    cases hc with
    | work hv | take hv | offer _ hv => exact hv.reserved ▸ ⟨hnodup, hothers⟩
    | @reserve _ _ _ id d hseeker hfree =>
      refine ⟨List.nodup_cons.2 ⟨hfree, hnodup⟩, fun id' => ?_⟩
      rw [← hothers, hseeker]
      show (id' ∈ id :: v.reserved ∧ some id ≠ some id') ↔ id' ∈ v.reserved ∧ none ≠ some id'
      by_cases hid : id' = id
      · subst hid
        simp [hfree]
      · simp [hid, Ne.symm hid]
    | @free _ _ _ id d hholder =>
      refine ⟨hnodup.erase id, fun id' => ?_⟩
      rw [← hothers, hholder]
      show (id' ∈ v.reserved.erase id ∧ none ≠ some id') ↔ id' ∈ v.reserved ∧ some id ≠ some id'
      rw [hnodup.mem_erase_iff]
      by_cases hid : id' = id
      · simp [hid]
      · simp [hid, Ne.symm hid]
    | store hholder => rw [hholder] at hothers; exact ⟨hnodup, hothers⟩
    | replace => exact ⟨hnodup, hothers⟩

/-- A start has no id, or has the one that it asked for. -/
theorem Stage.hold {x : Stake} {begun : Option EngineState}
    {finished : List (Nat × Except Failure Result)} (h : Stage bid x begun finished n) :
    x.hold = .seeker ∨ ∃ v d, begun = some v ∧
      (x.hold = .holder (bid.idIn v) d ∨ x.hold = .owner (bid.idIn v) d) := by
  cases h with
  | fresh _ _ hseeker | failed _ _ hseeker => exact .inl hseeker
  | inFlight _ hv hholds =>
    obtain ⟨d, -, hhold⟩ := hholds
    exact .inr ⟨_, d, hv, .inl hhold⟩
  | returned _ hv hends =>
    obtain ⟨i, d, -, -, -, hhold⟩ | ⟨f, hf, -⟩ := hends
    · exact .inr ⟨_, d, hv, .inr hhold⟩
    · cases hf

theorem Stage.id? {x : Stake} {begun : Option EngineState}
    {finished : List (Nat × Except Failure Result)} (h : Stage bid x begun finished n)
    (hid : x.hold.id? = some id) : ∃ v, begun = some v ∧ id = bid.idIn v := by
  rcases h.hold with hhold | ⟨v, d, hv, hhold | hhold⟩ <;> rw [hhold] at hid <;> cases hid
  · exact ⟨v, hv, rfl⟩
  · exact ⟨v, hv, rfl⟩

theorem Stage.not_visitor {x : Stake} {begun : Option EngineState}
    {finished : List (Nat × Except Failure Result)} (h : Stage bid x begun finished n) :
    x.hold ≠ .visitor := by
  rcases h.hold with hhold | ⟨v, d, -, hhold | hhold⟩ <;> rw [hhold] <;> exact nofun

theorem AtWork.turn_tables (h : AtWork e w jobs γ s)
    (hn : jobs[n]? = some (.start bid c abandoned)) (hnext : s.next? place = some n)
    (hreturn : ∀ i, (n, .ok (.started i)) ∉ (s.turn place).finished) :
    (s.turn place).world.instances = s.world.instances ∧
      (s.turn place).world.definitions = s.world.definitions := by
  obtain ⟨γ', h', -, hsteps⟩ := h.turn (upholds_claims _ w) place
  refine (steps_tables (hsteps n hnext) (h.stage hn).not_visitor).2 ?_
  cases AtWork.stage h' hn with
  | fresh _ _ hseeker | failed _ _ hseeker => exact hseeker ▸ rfl
  | inFlight _ _ hholds =>
    obtain ⟨d, -, hhold⟩ := hholds
    exact hhold ▸ rfl
  | returned hr => exact absurd hr (hreturn _)

theorem AtWork.turn_reserved (h : AtWork e w jobs γ s)
    (hn : jobs[n]? = some (.start bid c abandoned)) (hnext : s.next? place = some n)
    (hid : id ≠ bid.idIn ((γ.begun n).getD s.world)) :
    id ∈ (s.turn place).world.reserved ↔ id ∈ s.world.reserved := by
  obtain ⟨γ', h', hbegun, hsteps⟩ := h.turn (upholds_claims _ w) place
  have hclaims : ClaimsOf w γ.stake s.world := h.fits
  obtain ⟨-, hothers⟩ := steps_reserved (hsteps n hnext) hclaims.nodup
  have hbefore : (γ.stake n).hold.id? ≠ some id := by
    intro hhold
    obtain ⟨v, hv, rfl⟩ := (h.stage hn).id? hhold
    exact hid (by rw [hv]; rfl)
  have hafter : (γ'.stake n).hold.id? ≠ some id := by
    intro hhold
    obtain ⟨v, hv, rfl⟩ := (AtWork.stage h' hn).id? hhold
    rw [hbegun, if_pos hnext] at hv
    cases hfirst : γ.begun n with
    | none =>
      rw [hfirst] at hv hid
      cases hv
      exact hid rfl
    | some u =>
      rw [hfirst] at hv hid
      cases hv
      exact hid rfl
  have hiff := hothers id
  rwa [and_iff_left hbefore, and_iff_left hafter] at hiff

/-! ## All starts -/

/-- **Ids are claimed once**, in every interleaving of starts with each other and other calls. -/
theorem ids_claimed (hw : w.Tidy) (jobs : List Job) (places : List Nat) :
    e.Claimed w jobs places ∧ ∀ n place bid c abandoned,
      jobs[n]? = some (.start bid c abandoned) →
        (e.atWork w jobs places).next? place = some n →
          e.StartTurn w jobs places n place bid c abandoned := by
  obtain ⟨γ, h, hbegun⟩ := atWork_ruled (e := e) hw jobs places
  change ∀ n, γ.begun n = e.beginning w jobs places n at hbegun
  have hclaims : ClaimsOf w γ.stake (e.atWork w jobs places).world := h.fits
  refine ⟨?_, fun n place bid c abandoned hn hnext => ⟨fun hfirst => ?_, ?_, fun id hid => ?_⟩⟩
  · exact {
      tables := hclaims.tables
      nodup := hclaims.nodup
      reserved := fun id => by
        rw [hclaims.reserved]
        exact or_congr_right (exists_congr fun n => (inFlight_iff h hbegun).symm)
      inFlight := fun n id hid => by
        have hn := (inFlight_iff h hbegun).1 hid
        refine ⟨hclaims.unstored n id hn, fun m hm => ?_⟩
        have hm := (inFlight_iff h hbegun).1 hm
        exact hclaims.sole m n id (Hold.id?_of_pending hm) (Hold.id?_of_pending hn)
      stored := fun id => by
        rw [hclaims.stored]
        exact or_congr_right (exists_congr fun n => (returned_iff h).symm)
      returned := fun n id hid => by
        obtain ⟨d, hn⟩ := (returned_iff h).1 hid
        refine ⟨(hclaims.titled n id d hn).1, fun m hm => ?_⟩
        obtain ⟨d', hm⟩ := (returned_iff h).1 hm
        exact hclaims.sole m n id (Hold.id?_of_title hm) (Hold.id?_of_title hn)
      definition := by
        rintro n id ⟨bid, c, abandoned, i, hn, hr, rfl⟩
        obtain ⟨v, d, hv, hid, hd, hhold⟩ := h.returned hn hr
        refine ⟨bid, c, abandoned, v, d, hn, (hbegun n).symm.trans hv, hid.symm, hd, ?_⟩
        rw [hid]
        exact (hclaims.titled n _ d (by rw [hhold]; rfl)).2
      kept := hclaims.kept
      failed := fun n bid c abandoned v f hn hv hf hid => by
        rw [hclaims.reserved] at hid
        refine hid.imp_right fun ⟨m, hm⟩ => ?_
        have hflight := (inFlight_iff h hbegun).2 hm
        refine ⟨m, fun heq => ?_, hflight⟩
        obtain ⟨-, -, -, -, -, -, -, hrest⟩ := hflight
        exact hrest _ (heq ▸ hf) }
  · -- A start that has not begun is its whole call.
    obtain ⟨⟨n', t⟩, hready, hn'⟩ := Option.map_eq_some_iff.1 hnext
    obtain rfl : n' = n := hn'
    rcases h.ready _ (List.mem_of_getElem? hready) with ⟨-, -, u, hu, -, rfl⟩ |
        ⟨lock, -, u, v, -, hv, -⟩
    · cases (undertaking_of_job hn).symm.trans hu
      exact start_opening hready
    · rw [hbegun] at hv
      exact absurd (hfirst.symm.trans hv) nofun
  · exact h.turn_tables hn hnext
  · rw [← hbegun] at hid
    exact h.turn_reserved hn hnext hid

/-! ## Parcels -/

/-- Pauses, and then gives the whole operation up. -/
def drop : Hook where
  name := "drop"
  body _ := Activity.yield.bind fun _ => .fail (.aborted "dropped")

/-- A parcel that is packed by a hook as soon as it is started. -/
def parcel (id : String) (pack : Hook) : Definition where
  id := .text id
  initial := "open"
  states := Dict.ofList [
    ("open", { id := "open", kind := .auto, transitions := [
      { target := .text "packed", action := some pack }] }),
    ("packed", { id := "packed", kind := .terminal })]

/-- A new engine that knows books and glasses; glasses are dropped. -/
def depot : EngineState where
  env := { clock := { reading := fun n => ⟨n⟩ } }
  registry := ((({} : Registry).register (parcel "book" charge)).2.register (parcel "glass" drop)).2

/-- Three parcels under one id. Books are taken off the registry meanwhile. -/
def parcels : List Job :=
  let started (name : String) : Job := .start ⟨.text name, .null, some "P1"⟩ none false
  [started "glass", started "book", started "book", .unregister (.text "book") .null]

/-- Which starts have returned, and under which id. -/
def returns (finished : List (Nat × Except Failure Result)) : List (Nat × Option String) :=
  finished.map fun x => (x.1, match x.2 with
    | .ok (.started i) => some i.id
    | _ => none)

/-- The glass has the id until it is dropped. The first book comes while it has it, and the second
one after that. -/
theorem ids_claimed_parcels :
    let e : Engine := {}
    let s := e.atWork depot parcels [0, 0, 2, 0, 0, 0]
    depot.Tidy ∧ returns s.finished = [(2, some "P1"), (3, none), (0, none), (1, none)] ∧
      s.world.definitions.keys = ["P1"] ∧ e.Claimed depot parcels [0, 0, 2, 0, 0, 0] ∧
      (e.atWork depot parcels [0]).world.reserved = ["P1"] ∧
      (e.atWork depot parcels [0]).next? 0 = some 1 ∧
      e.StartTurn depot parcels [0] 1 0 ⟨.text "book", .null, some "P1"⟩ none false := by
  intro e s
  have htidy : depot.Tidy := ⟨rfl, List.nodup_nil, fun _ => Iff.rfl⟩
  have hreturns : returns s.finished = [(2, some "P1"), (3, none), (0, none), (1, none)] := by
    decide +kernel
  have hkeys : s.world.definitions.keys = ["P1"] := by decide +kernel
  have hreserved : (e.atWork depot parcels [0]).world.reserved = ["P1"] := by decide +kernel
  have hnext : (e.atWork depot parcels [0]).next? 0 = some 1 := by decide +kernel
  exact ⟨htidy, hreturns, hkeys, (ids_claimed htidy parcels _).1, hreserved, hnext,
    (ids_claimed htidy parcels [0]).2 1 0 _ none false rfl hnext⟩

end Engine

end Workflow
