import Workflow.Proofs.Engine.Aborted
import Workflow.Proofs.Engine.Sound
import Workflow.Proofs.Schedule.Late

/-!
# The order in which instances are listed

Starts come in together with each other and with all other calls on an engine, in any interleaving.
A start reserves its id when it begins, and stores its instance when it ends.

**Returned ids** (`Engine.returnedIds`). The starts that have returned an instance, in the order in
which they did so. The stored ids are in this order (`keys_returned`).

**Starts apart** (`Engine.StartsApart`). No start begins while another one is in flight. Then the
reservations are in the order of the table (`reserved_lined`), for at most one of them is pending.

**Listing** (`Engine.Listed`) gives the latest snapshot of each instance, once, in the order of the
table; with a status it leaves those of other statuses out.

Main result: `instances_listed`. Instances are listed in the order in which their starts returned.
For starts apart this is the order in which they began; otherwise one start may overtake another.
-/

namespace Workflow

open Activity

namespace Engine

section

variable (e : Engine) (w : EngineState) (jobs : List Job) (places : List Nat)

/-! ## What is listed -/

/-- The id of the instance that a job has returned as a start. -/
def returnedId (x : Nat × Except Failure Result) : Option String :=
  match jobs[x.1]?, x.2 with
  | some (.start _ _ _), .ok (.started i) => some i.id
  | _, _ => none

/-- The ids of the starts that have returned, in the order in which they did so. -/
def returnedIds : List String :=
  (e.atWork w jobs places).finished.reverse.filterMap (returnedId jobs)

/-- No start begins while another one is in flight. -/
def StartsApart : Prop :=
  ∀ earlier place later n bid c abandoned, places = earlier ++ place :: later →
    jobs[n]? = some (.start bid c abandoned) →
    (e.atWork w jobs earlier).next? place = some n → e.beginning w jobs earlier n = none →
    ∀ m id, ¬ e.InFlight w jobs earlier m id

/-- The instances that are listed at this moment. -/
structure Listed (all : List Instance) : Prop where
  answer : ((Engine.list none).run (e.atWork w jobs places).world).answer = .ok all
  /-- Behind those that were there before come those whose starts have returned, as they did. -/
  ids : all.map (·.id) = w.instances.keys ++ e.returnedIds w jobs places
  once : (all.map (·.id)).Nodup
  latest : ∀ i ∈ all, (e.atWork w jobs places).world.instances.get? i.id = some i
  filtered : ∀ status, ((Engine.list (some status)).run (e.atWork w jobs places).world).answer =
    .ok (all.filter fun i => status = i.status)
  /-- For starts apart, this is the order in which the ids were reserved. -/
  begun : w.reserved = w.instances.keys.reverse → e.StartsApart w jobs places →
    all.map (·.id) =
      (e.atWork w jobs places).world.reserved.reverse.filter (· ∈ all.map (·.id))

end

variable {e : Engine} {w : EngineState} {jobs : List Job} {places : List Nat} {n place : Nat}
  {id : String} {s : Schedule Realm.engine Result} {γ : Ghost rules}

/-! ## Changes by one call -/

theorem keys_replace {v : EngineState} {i j : Instance} (hi : v.instances.get? id = some i) :
    (v.setInstance id j).instances.keys = v.instances.keys := by
  show (v.instances.insert id j).keys = _
  rw [Dict.keys_insert, if_pos (Dict.mem_keys.2 ⟨i, hi⟩)]

/-- A call that starts nothing leaves the ids as they are. -/
theorem steps_visitor {a b : Stake × EngineState} (h : rules.Steps a b)
    (ha : a.1.hold = .visitor) :
    b.1.hold = .visitor ∧ b.2.reserved = a.2.reserved ∧
      b.2.instances.keys = a.2.instances.keys := by
  induction h with
  | refl => exact ⟨ha, rfl, rfl⟩
  | @tail b b' _ hstep ih =>
    obtain ⟨x, v⟩ := b
    obtain ⟨x', v'⟩ := b'
    obtain ⟨lock, hc⟩ := hstep
    obtain ⟨hx, hreserved, hkeys⟩ := ih
    dsimp only at hx hreserved hkeys hc ⊢
    cases hc with
    | work hv | take hv | offer _ hv =>
      exact ⟨hx, hv.reserved.trans hreserved, (congrArg Dict.keys hv.instances).trans hkeys⟩
    | reserve d hseeker => cases hx.symm.trans hseeker
    | free hholder | store hholder => cases hx.symm.trans hholder
    | replace _ hi => exact ⟨hx, hreserved, (keys_replace hi).trans hkeys⟩

/-- The ids that are stored are reserved; the one that a call has reserved is not stored yet. -/
structure Hold.Fits (x : Hold) (v : EngineState) : Prop where
  pending : ∀ id, x.pending? = some id → id ∈ v.reserved ∧ id ∉ v.instances.keys
  reserved : ∀ id ∈ v.instances.keys, id ∈ v.reserved

/-- **A start adds its id behind the others** when it stores its instance. -/
theorem steps_keys {a b : Stake × EngineState} (h : rules.Steps a b) (ha : a.1.hold.Fits a.2)
    (htitle : a.1.hold.title? = none) :
    b.1.hold.Fits b.2 ∧
      b.2.instances.keys = a.2.instances.keys ++ (b.1.hold.title?.map Prod.fst).toList := by
  induction h with
  | refl => exact ⟨ha, by rw [htitle]; exact (List.append_nil _).symm⟩
  | @tail b b' _ hstep ih =>
    obtain ⟨x, v⟩ := b
    obtain ⟨x', v'⟩ := b'
    obtain ⟨lock, hc⟩ := hstep
    obtain ⟨⟨hpending, hreserved⟩, hkeys⟩ := ih
    dsimp only at hpending hreserved hkeys hc ⊢
    cases hc with
    | work hv | take hv | offer _ hv =>
      rw [hv.instances]
      refine ⟨⟨?_, ?_⟩, hkeys⟩
      · rw [hv.instances, hv.reserved]
        exact hpending
      · rw [hv.instances, hv.reserved]
        exact hreserved
    | @reserve _ _ _ id d hseeker hfree =>
      rw [hseeker] at hkeys
      refine ⟨⟨?_, fun id' hid' => List.mem_cons_of_mem id (hreserved id' hid')⟩, hkeys⟩
      rintro id' ⟨⟩
      exact ⟨List.mem_cons_self, fun hstored => hfree (hreserved id hstored)⟩
    | @free _ _ _ id d hholder =>
      rw [hholder] at hkeys hpending
      refine ⟨⟨nofun, fun id' hid' => ?_⟩, hkeys⟩
      have hne : id' ≠ id := by
        rintro rfl
        exact (hpending id' rfl).2 hid'
      exact (List.mem_erase_of_ne hne).2 (hreserved id' hid')
    | @store _ _ _ id d i hholder =>
      rw [hholder] at hkeys hpending
      obtain ⟨hid, hunstored⟩ := hpending id rfl
      have hinsert : (v.store id d i).instances.keys = v.instances.keys ++ [id] := by
        show (v.instances.insert id i).keys = _
        rw [Dict.keys_insert, if_neg hunstored]
      refine ⟨⟨nofun, fun id' hid' => ?_⟩, ?_⟩
      · rcases (mem_keys_store hunstored).1 hid' with hid' | rfl
        · exact hreserved id' hid'
        · exact hid
      · rw [hinsert, hkeys]
        exact congrArg (· ++ [id]) (List.append_nil _)
    | @replace _ _ id i j hx hi =>
      have hsame := keys_replace (j := j) hi
      refine ⟨⟨?_, ?_⟩, hsame.trans hkeys⟩
      · rw [hsame]
        exact hpending
      · rw [hsame]
        exact hreserved

/-- **A start keeps the reservations in the order of the table**, if nobody else has one pending. -/
theorem steps_lined {a b : Stake × EngineState} (h : rules.Steps a b)
    (hnodup : a.2.reserved.Nodup)
    (ha : a.2.reserved = a.1.hold.pending?.toList ++ a.2.instances.keys.reverse) :
    b.2.reserved.Nodup ∧ b.2.reserved = b.1.hold.pending?.toList ++ b.2.instances.keys.reverse := by
  induction h with
  | refl => exact ⟨hnodup, ha⟩
  | @tail b b' _ hstep ih =>
    obtain ⟨x, v⟩ := b
    obtain ⟨x', v'⟩ := b'
    obtain ⟨lock, hc⟩ := hstep
    obtain ⟨hnodup, hlined⟩ := ih
    dsimp only at hnodup hlined hc ⊢
    cases hc with
    | work hv | take hv | offer _ hv =>
      rw [hv.instances, hv.reserved]
      exact ⟨hnodup, hlined⟩
    | @reserve _ _ _ id d hseeker hfree =>
      rw [hseeker] at hlined
      exact ⟨List.nodup_cons.2 ⟨hfree, hnodup⟩, congrArg (id :: ·) hlined⟩
    | @free _ _ _ id d hholder =>
      rw [hholder] at hlined
      refine ⟨hnodup.erase id, ?_⟩
      show v.reserved.erase id = v.instances.keys.reverse
      rw [hlined]
      exact List.erase_cons_head ..
    | @store _ _ _ id d i hholder =>
      rw [hholder] at hlined
      have hunstored : id ∉ v.instances.keys := by
        rw [hlined] at hnodup
        exact fun hid => (List.nodup_cons.1 hnodup).1 (List.mem_reverse.2 hid)
      refine ⟨hnodup, ?_⟩
      show v.reserved = (v.instances.insert id i).keys.reverse
      rw [Dict.keys_insert, if_neg hunstored, List.reverse_append, hlined]
      rfl
    | @replace _ _ id i j hx hi =>
      rw [keys_replace (j := j) hi]
      exact ⟨hnodup, hlined⟩

/-! ## Turns of the jobs -/

theorem atWork_concat (places : List Nat) (place : Nat) :
    e.atWork w jobs (places ++ [place]) = (e.atWork w jobs places).turn place :=
  Schedule.turns_concat _ places place

/-- Who has its turn has not ended. -/
theorem AtWork.unfinished (h : AtWork e w jobs γ s) (hnext : s.next? place = some n)
    (r : Except Failure Result) : (n, r) ∉ s.finished := by
  obtain ⟨t, hplace, -⟩ := Schedule.turn_of_next hnext
  exact (h.only_ready (List.mem_of_getElem? hplace)).2 r

theorem returnedId_of_not_start (hn : ∀ bid c abandoned, jobs[n]? ≠ some (.start bid c abandoned))
    (r : Except Failure Result) : returnedId jobs (n, r) = none := by
  unfold returnedId
  split
  next hstart _ => exact absurd hstart (hn _ _ _)
  next => rfl

theorem AtWork.holds (h : AtWork e w jobs γ s) (n : Nat) : (γ.stake n).hold.Fits s.world := by
  have hclaims : ClaimsOf w γ.stake s.world := h.fits
  refine ⟨fun id hid => ⟨?_, hclaims.unstored n id hid⟩, fun id hid => ?_⟩
  · exact (hclaims.reserved id).2 (.inr ⟨n, hid⟩)
  · exact (hclaims.reserved id).2 (.inl hid)

/-- A start that has its turn has not stored its instance yet. -/
theorem AtWork.untitled {bid : Bid} {c : Option Context} {abandoned : Bool}
    (h : AtWork e w jobs γ s) (hn : jobs[n]? = some (.start bid c abandoned))
    (hrest : ∀ i, (n, .ok (.started i)) ∉ s.finished) : (γ.stake n).hold.title? = none := by
  cases h.stage hn with
  | fresh _ _ hseeker | failed _ _ hseeker => rw [hseeker]; rfl
  | inFlight _ _ hholds =>
    obtain ⟨d, -, hhold⟩ := hholds
    rw [hhold]
    rfl
  | returned hr => exact absurd hr (hrest _)

/-- A start that has ended has stored what it returns. -/
theorem AtWork.titled {bid : Bid} {c : Option Context} {abandoned : Bool}
    {r : Except Failure Result} (h : AtWork e w jobs γ s)
    (hn : jobs[n]? = some (.start bid c abandoned)) (hr : (n, r) ∈ s.finished) :
    returnedId jobs (n, r) = (γ.stake n).hold.title?.map Prod.fst := by
  obtain ⟨-, u, v, hu, -, hends⟩ := h.finished _ hr
  cases (undertaking_of_job hn).symm.trans hu
  unfold returnedId
  rw [hn]
  obtain ⟨r', rfl, ⟨i, d, rfl, hid, -, hhold⟩ | ⟨f, rfl, hseeker⟩⟩ := hends
  · rw [hhold, ← hid]
    rfl
  · rw [hseeker]
    rfl

/-- **In a turn an id is added to the table when its start returns**, and not otherwise. -/
theorem AtWork.keys_turn (h : AtWork e w jobs γ s) (place : Nat) :
    ∃ new, (s.turn place).world.instances.keys = s.world.instances.keys ++ new ∧
      (s.turn place).finished.reverse.filterMap (returnedId jobs) =
        s.finished.reverse.filterMap (returnedId jobs) ++ new := by
  cases hnext : s.next? place with
  | none =>
    rw [Schedule.turn_of_none hnext]
    exact ⟨[], (List.append_nil _).symm, (List.append_nil _).symm⟩
  | some n =>
  obtain ⟨γ', h', -, hsteps⟩ := h.turn (upholds_claims _ w) place
  have hsteps := hsteps n hnext
  have hrest := h.unfinished hnext
  by_cases hstart : ∃ bid c abandoned, jobs[n]? = some (.start bid c abandoned)
  · obtain ⟨bid, c, abandoned, hn⟩ := hstart
    obtain ⟨-, hkeys⟩ := steps_keys hsteps (h.holds n) (h.untitled hn fun i => hrest _)
    refine ⟨_, hkeys, ?_⟩
    rcases s.finished_turn hnext with hfinished | ⟨r, hfinished⟩
    · have huntitled := AtWork.untitled h' hn fun i => hfinished ▸ hrest _
      rw [hfinished, huntitled]
      exact (List.append_nil _).symm
    · rw [hfinished, List.reverse_cons, List.filterMap_append]
      refine congrArg _ ?_
      rw [List.filterMap_cons, AtWork.titled h' hn (hfinished ▸ List.mem_cons_self)]
      cases (γ'.stake n).hold.title? <;> rfl
  · have hvisitor := h.visitor fun bid c abandoned hn => hstart ⟨bid, c, abandoned, hn⟩
    obtain ⟨-, -, hkeys⟩ := steps_visitor hsteps hvisitor
    refine ⟨[], hkeys.trans (List.append_nil _).symm, ?_⟩
    rw [List.append_nil]
    rcases s.finished_turn hnext with hfinished | ⟨r, hfinished⟩
    · rw [hfinished]
    · rw [hfinished, List.reverse_cons, List.filterMap_append, List.filterMap_cons_none,
        List.filterMap_nil, List.append_nil]
      exact returnedId_of_not_start (fun bid c abandoned hn => hstart ⟨bid, c, abandoned, hn⟩) r

/-- **The ids are stored in the order in which their starts return.** -/
theorem keys_returned (hw : w.Tidy) (jobs : List Job) (places : List Nat) :
    (e.atWork w jobs places).world.instances.keys =
      w.instances.keys ++ e.returnedIds w jobs places := by
  induction places using List.reverseRecOn with
  | nil => exact (List.append_nil _).symm
  | append_singleton places place ih =>
    obtain ⟨γ, h, -⟩ := atWork_ruled (e := e) hw jobs places
    obtain ⟨new, hkeys, hreturned⟩ := h.keys_turn place
    unfold returnedIds at ih ⊢
    rw [atWork_concat, hkeys, hreturned, ih, List.append_assoc]

/-! ## Starts apart -/

theorem StartsApart.of_concat (h : e.StartsApart w jobs (places ++ [place])) :
    e.StartsApart w jobs places := by
  intro earlier place' later n bid c abandoned hsplit
  refine h earlier place' (later ++ [place]) n bid c abandoned ?_
  rw [hsplit, List.append_assoc, List.cons_append]

/-- Where the reservations are in the order of the table but for one, that one is pending. -/
theorem AtWork.pending_of_lined (h : AtWork e w jobs γ s) {p : Option String}
    (hlined : s.world.reserved = p.toList ++ s.world.instances.keys.reverse) (id : String) :
    p = some id ↔ ∃ n, Hold.pending? (Stake.hold (γ.stake n)) = some id := by
  have hclaims : ClaimsOf w γ.stake s.world := h.fits
  have hreserved := hclaims.reserved id
  rw [hlined, List.mem_append, Option.mem_toList, List.mem_reverse] at hreserved
  constructor
  · rintro rfl
    have hnodup := hclaims.nodup
    rw [hlined] at hnodup
    have hunstored : id ∉ s.world.instances.keys := fun hid =>
      (List.nodup_cons.1 hnodup).1 (List.mem_reverse.2 hid)
    exact (hreserved.1 (.inl rfl)).resolve_left hunstored
  · rintro ⟨n, hn⟩
    exact (hreserved.2 (.inr ⟨n, hn⟩)).resolve_right (hclaims.unstored n id hn)

/-- **For starts apart the reservations are in the order of the table**, but for one that may be
pending. -/
theorem reserved_lined (hw : w.Tidy) (hlined : w.reserved = w.instances.keys.reverse)
    (hapart : e.StartsApart w jobs places) :
    ∃ p : Option String, (e.atWork w jobs places).world.reserved =
      p.toList ++ (e.atWork w jobs places).world.instances.keys.reverse := by
  induction places using List.reverseRecOn with
  | nil => exact ⟨none, hlined⟩
  | append_singleton places place ih =>
    obtain ⟨p, hp⟩ := ih hapart.of_concat
    obtain ⟨γ, h, hbegun⟩ := atWork_ruled (e := e) hw jobs places
    change ∀ n, γ.begun n = e.beginning w jobs places n at hbegun
    rw [atWork_concat]
    cases hnext : (e.atWork w jobs places).next? place with
    | none =>
      rw [Schedule.turn_of_none hnext]
      exact ⟨p, hp⟩
    | some n =>
    obtain ⟨γ', h', -, hsteps⟩ := h.turn (upholds_claims _ w) place
    have hsteps := hsteps n hnext
    by_cases hstart : ∃ bid c abandoned, jobs[n]? = some (.start bid c abandoned)
    · obtain ⟨bid, c, abandoned, hn⟩ := hstart
      have hclaims : ClaimsOf w γ.stake (e.atWork w jobs places).world := h.fits
      have hpending : p = Hold.pending? (Stake.hold (γ.stake n)) := by
        cases h.stage hn with
        | fresh _ hfresh hseeker =>
          -- Nobody else is in flight when a start begins.
          rw [hbegun] at hfresh
          have hnone := hapart places place [] n bid c abandoned rfl hn hnext hfresh
          rw [hseeker]
          refine Option.eq_none_iff_forall_ne_some.2 fun id hid => ?_
          obtain ⟨m, hm⟩ := (h.pending_of_lined hp id).1 hid
          exact hnone m id ((inFlight_iff h hbegun).2 hm)
        | inFlight _ _ hholds =>
          obtain ⟨d, -, hhold⟩ := hholds
          have hhold' : Hold.pending? (Stake.hold (γ.stake n)) = _ := congrArg Hold.pending? hhold
          rw [hhold']
          exact (h.pending_of_lined hp _).2 ⟨n, hhold'⟩
        | returned hr | failed hr => exact absurd hr (h.unfinished hnext _)
      exact ⟨_, (steps_lined hsteps hclaims.nodup (hpending ▸ hp)).2⟩
    · have hvisitor := h.visitor fun bid c abandoned hn => hstart ⟨bid, c, abandoned, hn⟩
      obtain ⟨-, hreserved, hkeys⟩ := steps_visitor hsteps hvisitor
      exact ⟨p, by rw [hreserved, hkeys, hp]⟩

/-! ## Snapshots -/

/-- What is ever stored under an id is held rightly. -/
theorem Legal.held {w₀ : EngineState} {log : List Entry} {i : Instance} (h : Legal e w₀ w log)
    (hw₀ : w₀.Sound) (hi : stored w₀ id log = some i) : i.Held id := by
  induction log using List.reverseRecOn generalizing i with
  | nil => exact hw₀ id i hi
  | append_singleton log x ih =>
    rw [stored_concat] at hi
    cases hstores : x.stores? id with
    | none =>
      rw [hstores, Option.none_or] at hi
      exact ih h.of_concat hi
    | some j =>
      rw [hstores] at hi
      cases hi
      have hid : x.id = some id := by
        by_contra hne
        cases hstores.symm.trans (if_neg hne)
      obtain ⟨n, id', y⟩ := x
      cases hid
      rw [Entry.stores?_some, if_pos rfl] at hstores
      have hpossible := h log _ [] id rfl rfl
      cases y with
      | started =>
        cases hstores
        obtain ⟨-, d, c, -, hstart⟩ := hpossible
        exact .started hstart
      | dispatched event before out =>
        cases hstores
        obtain ⟨hfound, d, -, hout⟩ := hpossible
        exact (ih h.of_concat hfound).operation (.send hout)
      | recontexted before =>
        cases hstores
        obtain ⟨hfound, -, c, rfl⟩ := hpossible
        obtain ⟨hid, d, hrecorded⟩ := ih h.of_concat hfound
        exact ⟨hid, d, hrecorded.recontext c⟩
      | _ => cases hstores

/-- **The engine stays sound**, whatever calls come in. -/
theorem atWork_sound (hw : w.Tidy) (hs : w.Sound) (jobs : List Job) (places : List Nat) :
    (e.atWork w jobs places).world.Sound := by
  have hworld : (e.chronicled w jobs places).world = (e.atWork w jobs places).world :=
    congrArg Schedule.world (e.unmarked_chronicled w jobs places)
  obtain ⟨g, owner, -, hledger, -⟩ :=
    (plainPact e w jobs).turns (w := w) ⟨ledger_first hw jobs, trivial⟩ places
  change Ledger e w g (e.chronicled w jobs places).world (e.chronicle w jobs places) at hledger
  rw [hworld] at hledger
  intro id i hi
  rw [hledger.snapshots] at hi
  exact hledger.legal.held hs hi

/-! ## Listing -/

/-- The snapshots of a sound engine name the keys of the table. -/
theorem ids_of_sound {v : EngineState} (hv : v.Sound) :
    v.instances.values.map (·.id) = v.instances.keys := by
  unfold Dict.values Dict.keys
  rw [List.map_map]
  refine List.map_congr_left fun x hx => ?_
  exact (hv x.1 x.2 (Dict.get?_eq_some_iff.2 hx)).id

/-- **Each instance is listed once, in the order in which the starts have returned.** -/
theorem instances_listed (hw : w.Tidy) (hs : w.Sound) (jobs : List Job) (places : List Nat) :
    ∃ all, e.Listed w jobs places all := by
  have hsound := atWork_sound (e := e) hw hs jobs places
  have hids := ids_of_sound hsound
  have hnodup : (e.atWork w jobs places).world.instances.keys.Nodup := Dict.nodup _
  refine ⟨(e.atWork w jobs places).world.instances.values, ?_, ?_, ?_, fun i hi => ?_, fun _ => rfl,
    fun hlined hapart => ?_⟩
  · exact congrArg Except.ok (List.filter_true _)
  · exact hids.trans (keys_returned hw jobs places)
  · rw [hids]
    exact hnodup
  · obtain ⟨x, hx, rfl⟩ := List.mem_map.1 hi
    have hget := Dict.get?_eq_some_iff.2 hx
    rw [(hsound _ _ hget).id]
    exact hget
  · obtain ⟨p, hp⟩ := reserved_lined hw hlined hapart
    obtain ⟨γ, h, -⟩ := atWork_ruled (e := e) hw jobs places
    have hclaims : ClaimsOf w γ.stake (e.atWork w jobs places).world := h.fits
    have hunstored : ∀ id, p = some id → id ∉ (e.atWork w jobs places).world.instances.keys := by
      intro id hid
      obtain ⟨n, hn⟩ := (h.pending_of_lined hp id).1 hid
      exact hclaims.unstored n id hn
    have hpending : p.toList.reverse.filter
        (fun id => decide (id ∈ (e.atWork w jobs places).world.instances.keys)) = [] := by
      refine List.filter_eq_nil_iff.2 fun id hid => ?_
      rw [List.mem_reverse, Option.mem_toList] at hid
      simpa using hunstored id hid
    rw [hids, hp, List.reverse_append, List.reverse_reverse, List.filter_append, hpending,
      List.append_nil, List.filter_eq_self.2 fun id hid => decide_eq_true hid]

/-! ## Mail -/

/-- A letter, which needs no packing. -/
def letter : Definition where
  id := .text "letter"
  initial := "written"
  states := Dict.ofList [("written", { id := "written" })]

/-- A new engine that knows books, whose packing takes a while, and letters. -/
def postOffice : EngineState where
  env := { clock := { reading := fun n => ⟨n⟩ } }
  registry := ((({} : Registry).register (parcel "book" charge)).2.register letter).2

/-- A book, and then a letter. -/
def mail : List Job :=
  let started (name id : String) : Job := .start ⟨.text name, .null, some id⟩ none false
  [started "book" "B1", started "letter" "L1"]

/-- The ids that are listed, with the moments at which the instances were started. -/
def listedMail (places : List Nat) : Except Failure (List (String × Option String)) :=
  ((Engine.list none).run (({} : Engine).atWork postOffice mail places).world).answer.map
    (·.map fun i => (i.id, i.history.head?.map (·.enteredAt)))

theorem postOffice_tidy : postOffice.Tidy := ⟨rfl, List.nodup_nil, fun _ => Iff.rfl⟩

theorem postOffice_sound : postOffice.Sound := EngineState.sound_of_empty rfl

/-- While the book is packed, the letter overtakes it: the book has begun before the letter, its id
was reserved before, and it comes after the letter in the list. -/
theorem list_overtaken :
    (({} : Engine).atWork postOffice mail [0]).world.reserved = ["B1"] ∧
      (({} : Engine).atWork postOffice mail [0, 0, 0]).world.reserved.reverse = ["B1", "L1"] ∧
      listedMail [0, 0, 0] =
        .ok [("L1", some (Instant.text ⟨1⟩)), ("B1", some (Instant.text ⟨0⟩))] := by
  refine ⟨by decide +kernel, by decide +kernel, by decide +kernel⟩

/-- The book is packed before the letter comes. -/
theorem mail_apart : ({} : Engine).StartsApart postOffice mail [0, 1, 0] := by
  intro earlier place later n bid c abandoned hsplit hn hnext hfirst m id hflight
  obtain ⟨_, _, _, v, hm, hv, -, hrest⟩ := hflight
  -- Before the first turn, before the second, and before the third.
  obtain _ | ⟨a, _ | ⟨b, _ | ⟨c, earlier⟩⟩⟩ := earlier
  · cases hv
  · cases hsplit
    have hbook : (({} : Engine).atWork postOffice mail [0]).next? 1 = some 0 := by decide +kernel
    have hbegun : (({} : Engine).beginning postOffice mail [0] 0).isSome := rfl
    cases hbook.symm.trans hnext
    rw [hfirst] at hbegun
    cases hbegun
  · cases hsplit
    obtain _ | _ | m := m
    · have hended : (({} : Engine).atWork postOffice mail [0, 1]).finished.map (·.1) = [0] := by
        decide +kernel
      obtain ⟨x, hx, hzero⟩ := List.mem_map.1 (hended ▸ List.mem_singleton_self 0)
      exact hrest x.2 (hzero ▸ hx)
    · cases hv
    · cases hm
  · simp at hsplit

/-- The list is in the order of the returns, whether the letter overtakes the book or not. -/
theorem instances_listed_mail :
    postOffice.Tidy ∧ postOffice.Sound ∧
      (∃ all, ({} : Engine).Listed postOffice mail [0, 0, 0] all ∧ all.map (·.id) = ["L1", "B1"]) ∧
      ({} : Engine).StartsApart postOffice mail [0, 1, 0] ∧
      ∃ all, ({} : Engine).Listed postOffice mail [0, 1, 0] all ∧ all.map (·.id) = ["B1", "L1"] ∧
        all.map (·.id) = (({} : Engine).atWork postOffice mail [0, 1, 0]).world.reserved.reverse.filter
          (· ∈ all.map (·.id)) := by
  have hreturned : ({} : Engine).returnedIds postOffice mail [0, 0, 0] = ["L1", "B1"] := by
    decide +kernel
  have hreturned' : ({} : Engine).returnedIds postOffice mail [0, 1, 0] = ["B1", "L1"] := by
    decide +kernel
  obtain ⟨all, hall⟩ := instances_listed (e := {}) postOffice_tidy postOffice_sound mail [0, 0, 0]
  obtain ⟨all', hall'⟩ := instances_listed (e := {}) postOffice_tidy postOffice_sound mail [0, 1, 0]
  refine ⟨postOffice_tidy, postOffice_sound, ⟨all, hall, ?_⟩, mail_apart, all', hall', ?_,
    hall'.begun rfl mail_apart⟩
  · rw [hall.ids, hreturned]
    rfl
  · rw [hall'.ids, hreturned']
    rfl

end Engine

end Workflow
