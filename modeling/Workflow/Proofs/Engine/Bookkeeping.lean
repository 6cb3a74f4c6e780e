import Workflow.Proofs.Engine.Ledger

/-!
# Calls keep the ledger

Every call on an engine makes its entries as it changes the tables, so that the ledger is in order
whenever a turn is over.

**Scripts** (`ServedScript`, `StartScript`, `SendScript`). The entries that a call leaves, and how
it ends then. A served call and a start make one entry each. A dispatch makes one as well, and then
come those of the observers.

**Books** (`Engine.Books`). Calls that keep the ledger wherever they begin without a lock. They can
be put one after the other, and only the last entry can be a final one (`Concludes`).

Main result: jobs keep the ledger if events do (`Job.follows`), and so they make a pact
(`bookkeepers`). Events do, with all that observers send on, if nothing else has to hold of the
chronicle (`books_sendWithinBy`).
-/

namespace Workflow

open Activity

namespace Engine

section

variable {e : Engine} {w₀ : EngineState} {besides : List Entry → Prop} {n : Nat} {x : Post}
  {m : Moment (bookkeeping e w₀ besides)} {id event : String} {α β : Type}

/-! ## Work on contexts -/

/-- Operations on single instances, and what they report, leave the ledger as it is. -/
theorem follows_within {t : Activity Realm.flow α} (hm : m.Rests n x) :
    ((within t).plain Entry).Follows (bookkeeping e w₀ besides) n
      (fun m' r => m'.lock = m.lock ∧ m'.Rests n x ∧ t.CanEnd r) m := by
  induction t generalizing m with
  | done a => exact ⟨rfl, hm, rfl⟩
  | fail f => exact ⟨rfl, hm, rfl⟩
  | look k ih =>
    exact (ih m.world.env hm).mono fun m' r h => ⟨h.1, h.2.1, _, h.2.2⟩
  | update f next ih =>
    refine ih (m := { m with world := { m.world with env := f m.world.env } }) { hm with fact := ?_ }
    exact ⟨hm.fact.1.same ⟨rfl, rfl, rfl⟩ rfl, hm.fact.2⟩
  | report r next ih =>
    exact ih (m := { m with log := .inl r :: m.log }) { hm with fact := hm.fact }
  | pause k ih =>
    refine ⟨x, hm, fun m' hlock hm' signal _ => ?_⟩
    have hrests : m'.Rests n x := { hm' with keeps := hm.keeps.trans hlock.symm, live := hm.live }
    exact (ih signal hrests).mono fun m'' r h => ⟨h.1.trans hlock, h.2.1, _, h.2.2⟩
  | acquire key next ih => exact key.elim
  | release key next ih => exact key.elim

/-! ## Served calls -/

/-- What an entry tells of the way in which the work on a snapshot ended. -/
def Tells (deed : Instance → β → Deed) (y : Deed) : Except Failure β → Prop
  | .ok b => ∃ before, y = deed before b
  | .error f => (y = .missed f ∧ f.isContained) ∨ ∃ before, y = .gaveUp before f

/-- The call has made one entry, which tells how it ended. -/
def Leaves (id : String) (n : Nat) (x : Post) (deed : Instance → β → Deed)
    (m : Moment (bookkeeping e w₀ besides)) (r : Except Failure β) : Prop :=
  ∃ y log, marks m.log = log ++ [⟨n, some id, y⟩] ∧ besides log ∧ Tells deed y r ∧
    Ledger e w₀ (Function.update m.stakes n (x.noted ⟨n, some id, y⟩)) m.world (marks m.log)

section Served

variable {d : Definition} {work : Definition → Instance → Activity Realm.flow β}
  {after : β → Option Instance} {deed : Instance → β → Deed}

/-- Under the lock. -/
theorem follows_work (hstores : ∀ before b, (deed before b).stores? = after b)
    (henroll : ∀ before b names, (deed before b).enroll names = names)
    (hpossible : ∀ before b, (work d before).CanEnd (.ok b) →
      (deed before b).Possible e id (some d) (some before))
    (hlock : m.lock = some id) (hm : m.Fits n { x with standing := .before id d }) (hlive : x.Live)
    (hx : x.standing = .outside) :
    (((instanceOf id).plain Entry).bind fun before =>
      noting (fun f => ⟨n, some id, .gaveUp before f⟩) (within (work d before)) fun b =>
      match after b with
      | some j => .update (EngineState.setInstance id j) (mark ⟨n, some id, deed before b⟩ (.done b))
      | none => mark ⟨n, some id, deed before b⟩ (.done b)).Follows (bookkeeping e w₀ besides) n
      (fun m' r => m'.lock = some id ∧ Leaves id n x deed m' r) m := by
  obtain ⟨before, hbefore, hledger⟩ := Ledger.goIn hm.fact.1
  have hin : m.Rests n { x with standing := .inside id d before } :=
    ⟨⟨⟨hledger, hm.fact.2⟩, hm.sole⟩, hlock.symm, hlive⟩
  have hfound : ((instanceOf id).plain Entry).Follows (bookkeeping e w₀ besides) n
      (fun m' r => m' = m ∧ r = .ok before) m := by
    refine follows_known (fun i hi => ⟨rfl, ?_⟩) fun hnone => ?_
    · rw [Option.some.inj (hi.symm.trans hbefore)]
    · rw [hnone] at hbefore
      cases hbefore
  refine hfound.bind (fun m' i h => ?_) fun m' f h => nomatch h.2
  obtain ⟨rfl, hi⟩ := h
  cases hi
  refine follows_noting (follows_within hin) (fun m₁ b h => ?_) fun m₁ f h => ?_
  · obtain ⟨hlock₁, hin₁, hcan⟩ := h
    have hothers := hin₁.sole id (hlock₁.trans hlock)
    have hleave := Ledger.leave hin₁.fact.1 hx hothers (henroll before b)
      (hpossible before b hcan)
    rw [hstores] at hleave
    cases hafter : after b with
    | none =>
      rw [hafter] at hleave
      refine ⟨hlock₁.trans hlock, deed before b, _, marks_inr _ _, hin₁.fact.2, ⟨before, rfl⟩, ?_⟩
      rw [marks_inr]
      exact hleave
    | some j =>
      rw [hafter] at hleave
      refine ⟨hlock₁.trans hlock, deed before b, _, marks_inr _ _, hin₁.fact.2, ⟨before, rfl⟩, ?_⟩
      rw [marks_inr]
      exact hleave
  · obtain ⟨hlock₁, hin₁, -⟩ := h
    have hothers := hin₁.sole id (hlock₁.trans hlock)
    refine ⟨hlock₁.trans hlock, .gaveUp before f, _, marks_inr _ _, hin₁.fact.2,
      .inr ⟨before, rfl⟩, ?_⟩
    rw [marks_inr]
    exact Ledger.leave hin₁.fact.1 hx hothers (fun _ => rfl) rfl

/-- **A served call keeps the ledger.** It makes one entry, about the snapshot that is stored when
it gets the lock. -/
theorem follows_servedBy (hstores : ∀ before b, (deed before b).stores? = after b)
    (henroll : ∀ before b names, (deed before b).enroll names = names)
    (hpossible : ∀ d before b, (work d before).CanEnd (.ok b) →
      (deed before b).Possible e id (some d) (some before))
    (hlock : m.lock = none) (hm : m.Rests n x) (hx : x.standing = .outside) :
    (servedBy n id work after deed).Follows (bookkeeping e w₀ besides) n
      (fun m' r => m'.lock = none ∧ Leaves id n x deed m' r) m := by
  have hledger := hm.fact.1
  have hfound : ((definitionOf id).plain Entry).Follows (bookkeeping e w₀ besides) n
      (fun m' r => m' = m ∧ (∀ d, r = .ok d → m.world.definitions.get? id = some d) ∧
        ∀ f, r = .error f → f.isContained) m := by
    refine follows_known (fun d hd => ⟨rfl, fun d' h => ?_, nofun⟩) fun _ => ⟨rfl, nofun, ?_⟩
    · cases h
      exact hd
    · intro f h
      cases h
      rfl
  refine follows_noting hfound (fun m' d h => ?_) fun m' f h => ?_
  · obtain ⟨rfl, hd, -⟩ := h
    have hbefore : m'.Rests n { x with standing := .before id d } :=
      ⟨⟨⟨hledger.post hledger.claims_update rfl rfl rfl (hd d rfl) rfl, hm.fact.2⟩, hm.sole⟩,
        hlock.symm, hm.live⟩
    refine Follows.locked hlock hbefore
      (fun m₁ hlock₁ hm₁ => follows_work hstores henroll (hpossible d) hlock₁ hm₁ hm.live hx) ?_
    rintro m₁ r ⟨hlock₁, hleaves⟩
    exact ⟨hlock₁, rfl, hleaves⟩
  · obtain ⟨rfl, -, hf⟩ := h
    refine ⟨hlock, .missed f, _, marks_inr _ _, hm.fact.2, .inl ⟨rfl, hf f rfl⟩, ?_⟩
    rw [marks_inr]
    exact hledger.note rfl rfl fun _ _ => trivial

end Served

/-! ## Endings -/

/-- The post outside all instances, with more entries. -/
def Post.after (x : Post) (hold : Hold) (deeds : List Entry) : Post :=
  ⟨hold, .outside, x.deeds ++ deeds⟩

/-- The call has ended without a lock, and with more entries. -/
def Does (n : Nat) (x : Post) (script : List Entry → Except Failure α → Prop)
    (m : Moment (bookkeeping e w₀ besides)) (r : Except Failure α) : Prop :=
  m.lock = none ∧ ∃ hold deeds, m.Fits n (x.after hold deeds) ∧ script deeds r

/-- What holds besides is not about other deeds than dispatches and tellings. -/
def Silently (besides : List Entry → Prop) : Prop :=
  ∀ log y, y.deed.Silent → besides log → besides (log ++ [y])

/-- One entry of a served call, and how the call ended. -/
def ServedScript (n : Nat) (id : String) (deed : Instance → β → Deed) (deeds : List Entry)
    (r : Except Failure β) : Prop :=
  ∃ y, deeds = [⟨n, some id, y⟩] ∧ Tells deed y r

/-- A call that has made an entry has that entry in its post. -/
theorem fits_noted {y : Entry} (hx : x.standing = .outside) (hlock : m.lock = none)
    (hledger : Ledger e w₀ (Function.update m.stakes n (x.noted y)) m.world (marks m.log))
    (hbesides : besides (marks m.log)) : m.Fits n (x.after x.hold [y]) := by
  refine ⟨⟨?_, hbesides⟩, by rw [hlock]; exact nofun⟩
  rw [Post.after, ← hx]
  exact hledger

theorem Leaves.does {deed : Instance → β → Deed} {r : Except Failure β}
    (hsilently : Silently besides) (hdeed : ∀ before b, (deed before b).Silent)
    (hx : x.standing = .outside) (hlock : m.lock = none) (h : Leaves id n x deed m r) :
    Does n x (ServedScript n id deed) m r := by
  obtain ⟨y, log, hlog, hbesides, htells, hledger⟩ := h
  have hsilent : y.Silent := by
    cases r with
    | ok b =>
      obtain ⟨before, rfl⟩ := htells
      exact hdeed before b
    | error f => rcases htells with ⟨rfl, -⟩ | ⟨before, rfl⟩ <;> trivial
  refine ⟨hlock, x.hold, [⟨n, some id, y⟩], fits_noted hx hlock hledger ?_, y, rfl, htells⟩
  rw [hlog]
  exact hsilently log _ hsilent hbesides

/-- What a call gives is turned into another answer. -/
theorem Does.map {script : List Entry → Except Failure α → Prop} {t : MarkedCall α} {f : α → β}
    (ht : t.Follows (bookkeeping e w₀ besides) n (Does n x script) m) :
    (t.bind fun a => .done (f a)).Follows (bookkeeping e w₀ besides) n
      (Does n x fun deeds r => ∃ r', r = r'.map f ∧ script deeds r') m := by
  refine ht.bind (fun m a h => ?_) fun m g h => ?_
  · obtain ⟨hlock, hold, deeds, hfits, hscript⟩ := h
    exact ⟨hlock, hold, deeds, hfits, .ok a, rfl, hscript⟩
  · obtain ⟨hlock, hold, deeds, hfits, hscript⟩ := h
    exact ⟨hlock, hold, deeds, hfits, .error g, rfl, hscript⟩

section Requests

variable (hlock : m.lock = none) (hm : m.Rests n x) (hx : x.standing = .outside)
include hlock hm hx

theorem follows_dispatchBy : (dispatchBy e n id event).Follows (bookkeeping e w₀ besides) n
    (fun m' r => m'.lock = none ∧ Leaves id n x (fun _ b => .dispatched event b.1 b.2) m' r) m := by
  refine follows_servedBy (fun _ _ => rfl) (fun _ _ _ => rfl) (fun d before b hb => ?_) hlock hm hx
  obtain ⟨out, hout, hb⟩ := canEnd_bind_ok hb
  cases hb
  exact ⟨rfl, d, rfl, hout⟩

theorem follows_canFireBy (hsilently : Silently besides) :
    (canFireBy n id event).Follows (bookkeeping e w₀ besides) n
      (Does n x (ServedScript n id (.asked event))) m := by
  have hserved : (canFireBy n id event).Follows (bookkeeping e w₀ besides) n
      (fun m' r => m'.lock = none ∧ Leaves id n x (.asked event) m' r) m :=
    follows_servedBy (fun _ _ => rfl) (fun _ _ _ => rfl) (fun d _ _ hb => ⟨rfl, d, rfl, hb⟩)
      hlock hm hx
  exact hserved.mono fun m' r h => h.2.does hsilently (fun _ _ => trivial) hx h.1

theorem follows_replaceContextBy (hsilently : Silently besides)
    (f : Context → Activity Realm.flow Context) :
    (replaceContextBy n id f).Follows (bookkeeping e w₀ besides) n
      (Does n x (ServedScript n id .recontexted)) m := by
  have hpossible : ∀ (d : Definition) before b, (recontexting id f before).CanEnd (.ok b) →
      (Deed.recontexted before b).Possible e id (some d) (some before) := by
    intro d before b hb
    unfold recontexting at hb
    split at hb
    next hrunning =>
      obtain ⟨c, -, hc⟩ := canEnd_bind_ok hb
      cases hc
      exact ⟨rfl, hrunning, c, rfl⟩
    next => cases hb
  have hserved : (replaceContextBy n id f).Follows (bookkeeping e w₀ besides) n
      (fun m' r => m'.lock = none ∧ Leaves id n x .recontexted m' r) m :=
    follows_servedBy (fun _ _ => rfl) (fun _ _ _ => rfl) hpossible hlock hm hx
  exact hserved.mono fun m' r h => h.2.does hsilently (fun _ _ => trivial) hx h.1

/-- The one entry of a start. -/
inductive StartScript (n : Nat) (given : Option String) :
    List Entry → Except Failure Instance → Prop
  | missed (f : Failure) : StartScript n given [⟨n, given, .missed f⟩] (.error f)
  | refused (id : String) (stored : Bool) : (idOrIssued given).CanEnd (.ok id) →
    StartScript n given [⟨n, some id, .refused stored⟩] (.error (idTaken id))
  | started (id : String) (i : Instance) : (idOrIssued given).CanEnd (.ok id) →
    StartScript n given [⟨n, some id, .started i⟩] (.ok i)
  | unstarted (id : String) (f : Failure) : (idOrIssued given).CanEnd (.ok id) →
    StartScript n given [⟨n, some id, .unstarted f⟩] (.error f)

omit hlock hm hx in
/-- Starts do not work on stored snapshots. -/
theorem StartScript.before {given : Option String} {l : List Entry} {r : Except Failure Instance}
    (h : StartScript n given l r) : ∀ y ∈ l, y.deed.before? = none := by
  cases h <;> exact List.forall_mem_singleton.2 rfl

/-- Under its reserved id, a start makes one entry. -/
theorem follows_startReservedBy (hsilently : Silently besides) {d : Definition}
    (hhold : x.hold = .holder id d) (c : Option Context) {given : Option String}
    (hid : (idOrIssued given).CanEnd (.ok id)) :
    (startReservedBy e n d c id).Follows (bookkeeping e w₀ besides) n
      (Does n x (StartScript n given)) m := by
  have hpost : x = { x with hold := .holder id d } := by rw [← hhold]
  refine (follows_within hm).attempt fun m₁ r h => ?_
  obtain ⟨hlock₁, hm₁, hcan⟩ := h
  rw [hpost] at hm₁
  cases r with
  | ok i =>
    obtain ⟨c, -, hi⟩ := canEnd_bind_ok hcan
    refine ⟨hlock₁.trans hlock, .owner id d, [⟨n, some id, .started i⟩], ⟨⟨?_, ?_⟩, ?_⟩,
      .started id i hid⟩
    · rw [marks_inr, Post.after, ← hx]
      exact Ledger.start hm₁.fact.1 hx hi
    · rw [marks_inr]
      exact hsilently _ _ trivial hm₁.fact.2
    · exact hm₁.sole
  | error f =>
    refine ⟨hlock₁.trans hlock, .seeker, [⟨n, some id, .unstarted f⟩], ⟨⟨?_, ?_⟩, ?_⟩,
      .unstarted id f hid⟩
    · rw [marks_inr, Post.after, ← hx]
      exact Ledger.giveUp hm₁.fact.1 hx
    · rw [marks_inr]
      exact hsilently _ _ trivial hm₁.fact.2
    · exact hm₁.sole

omit hlock in
/-- A call makes an entry by which nothing is stored. -/
theorem fits_note (hsilently : Silently besides) {y : Entry} (hcaller : y.caller = n)
    (hstores : y.deed.stores? = none) (hsilent : y.deed.Silent)
    (hpossible : ∀ id, y.id = some id →
      y.deed.Possible e id (m.world.definitions.get? id) (m.world.instances.get? id)) :
    Moment.Fits n (x.after x.hold [y]) { m with
      world := { m.world with observers := y.deed.enroll m.world.observers }
      log := .inr y :: m.log } := by
  refine ⟨⟨?_, ?_⟩, hm.sole⟩
  · rw [marks_inr, Post.after, ← hx]
    exact Ledger.note hm.fact.1 hcaller hstores hpossible
  · rw [marks_inr]
    exact hsilently _ _ hsilent hm.fact.2

/-- **Starts keep the ledger**, and make one entry. -/
theorem follows_startBy (hsilently : Silently besides) (hseeker : x.hold = .seeker)
    (name version : Value) (c : Option Context) (given : Option String) :
    (startBy e n name version c given).Follows (bookkeeping e w₀ besides) n
      (Does n x (StartScript n given)) m := by
  have hasked : ((askRegistry (·.find name version)).plain Entry).Follows
      (bookkeeping e w₀ besides) n (fun m' _ => m' = m) m := by
    show (plain Entry (Activity.ofExcept (m.world.registry.find name version))).Follows _ n _ m
    cases m.world.registry.find name version <;> rfl
  refine follows_noting hasked (fun m' d h => ?_) fun m' f h => ?_
  · obtain rfl : m' = m := h
    refine (follows_within hm).bind (fun m₁ id h => ?_) fun m₁ f h => ?_
    · obtain ⟨hlock₁, hm₁, hid⟩ := h
      show Follows (bookkeeping e w₀ besides) n (Does n x (StartScript n given)) m₁
        (if id ∈ m₁.world.reserved then _ else _)
      split
      · let y : Entry := ⟨n, some id, .refused (m₁.world.instances.contains id)⟩
        have hnote := fits_note (y := y) hm₁ hx hsilently rfl rfl trivial fun _ _ => trivial
        exact ⟨hlock₁.trans hlock, x.hold, [y], hnote, .refused id _ hid⟩
      next hfree =>
        refine follows_startReservedBy (m := { m₁ with world := m₁.world.reserve id })
          (x := { x with hold := .holder id d }) (hlock₁.trans hlock) ?_ hx hsilently rfl c hid
        exact ⟨⟨⟨Ledger.reserve hm₁.fact.1 hseeker hx hfree, hm₁.fact.2⟩, hm₁.sole⟩, hm₁.keeps,
          hm₁.live⟩
    · obtain ⟨-, -, hcan⟩ := h
      cases given with
      | some id => cases hcan
      | none =>
        obtain ⟨_, hcan⟩ := hcan
        cases hcan
  · obtain rfl : m' = m := h
    let y : Entry := ⟨n, given, .missed f⟩
    have hnote := fits_note (y := y) hm hx hsilently rfl rfl trivial fun _ _ => trivial
    exact ⟨hlock, x.hold, [y], hnote, .missed f⟩

end Requests

/-! ## Observers -/

/-- Only the last entry may be a final one, and then the call fails with the failure of it. -/
def Concludes (n : Nat) (deeds : List Entry) (r : Except Failure α) : Prop :=
  (∀ y ∈ deeds, ¬ y.deed.Final) ∨
  ∃ l id before f, deeds = l ++ [⟨n, some id, .gaveUp before f⟩] ∧ (∀ y ∈ l, ¬ y.deed.Final) ∧
    ¬ f.isContained ∧ r = .error f

section Concludes

variable {l l' : List Entry} {r : Except Failure α}

theorem Concludes.nil : Concludes n [] r :=
  .inl (List.forall_mem_nil _)

theorem Concludes.append (hl : ∀ y ∈ l, ¬ y.deed.Final) (h : Concludes n l' r) :
    Concludes n (l ++ l') r := by
  rcases h with h | ⟨l'', id, before, f, rfl, hl'', hf, hr⟩
  · exact .inl fun y hy => (List.mem_append.1 hy).elim (hl y) (h y)
  · refine .inr ⟨l ++ l'', id, before, f, (List.append_assoc ..).symm, fun y hy => ?_, hf, hr⟩
    exact (List.mem_append.1 hy).elim (hl y) (hl'' y)

/-- If the call does not fail in an uncontained way, it can go on. -/
theorem Concludes.live (h : Concludes n l r) (hr : ∀ f, r = .error f → f.isContained) :
    ∀ y ∈ l, ¬ y.deed.Final := by
  rcases h with h | ⟨l', id, before, f, -, -, hf, rfl⟩
  · exact h
  · exact absurd (hr f rfl) hf

/-- A final entry is the last one, and tells the failure of the call. -/
theorem Concludes.final {y : Entry} (h : Concludes n (l ++ y :: l') r) (hy : y.deed.Final) :
    l' = [] ∧ ∃ id before f, y = ⟨n, some id, .gaveUp before f⟩ ∧ r = .error f := by
  rcases h with h | ⟨l₁, id, before, f, hl, hl₁, -, hr⟩
  · exact absurd hy (h y (by simp))
  · rcases concat_eq_append_cons hl.symm with ⟨-, rfl, rfl⟩ | ⟨l₃, rfl, -⟩
    · exact ⟨rfl, id, before, f, rfl, hr⟩
    · exact absurd hy (hl₁ y (by simp))

/-- A failure may go on as another kind of answer. -/
theorem Concludes.error {f : Failure} (h : Concludes n l (.error f : Except Failure α)) :
    Concludes n l (.error f : Except Failure β) := by
  rcases h with h | ⟨l', id, before, f', hl, hl', hf, hr⟩
  · exact .inl h
  · cases hr
    exact .inr ⟨l', id, before, f, hl, hl', hf, rfl⟩

theorem Concludes.map (f : α → β) (h : Concludes n l r) : Concludes n l (r.map f) := by
  rcases h with h | ⟨l', id, before, f', hl, hl', hf, rfl⟩
  · exact .inl h
  · exact .inr ⟨l', id, before, f', hl, hl', hf, rfl⟩

theorem ServedScript.concludes {deed : Instance → β → Deed} {r : Except Failure β}
    (h : ServedScript n id deed l r) (hdeed : ∀ before b, ¬ (deed before b).Final) :
    Concludes n l r := by
  obtain ⟨y, rfl, htells⟩ := h
  have hnot : ¬ y.Final → Concludes n [⟨n, some id, y⟩] r := by
    intro hy
    refine .inl fun z hz => ?_
    rwa [List.mem_singleton.1 hz]
  cases r with
  | ok b =>
    obtain ⟨before, rfl⟩ := htells
    exact hnot (hdeed before b)
  | error f =>
    rcases htells with ⟨rfl, -⟩ | ⟨before, rfl⟩
    · exact hnot fun h => h
    · by_cases hf : f.isContained
      · exact hnot fun h => h hf
      · exact .inr ⟨[], id, before, f, rfl, List.forall_mem_nil _, hf, rfl⟩

end Concludes

theorem Post.after_nil (hx : x.standing = .outside) : x.after x.hold [] = x := by
  unfold Post.after
  rw [← hx, List.append_nil]

theorem Post.after_after (hold hold' : Hold) (l l' : List Entry) :
    (x.after hold l).after hold' l' = x.after hold' (l ++ l') := by
  simp [Post.after]

/-- A call that has made entries goes on. -/
theorem rests_after {hold : Hold} {l : List Entry} (hlock : m.lock = none)
    (hfits : m.Fits n (x.after hold l)) (hlive : x.Live) (hl : ∀ y ∈ l, ¬ y.deed.Final) :
    m.Rests n (x.after hold l) :=
  ⟨hfits, hlock.symm, fun y hy => (List.mem_append.1 hy).elim (hlive y) (hl y)⟩

/-- The entries of both parts of a call. -/
theorem Does.after {hold : Hold} {l : List Entry}
    {script : List Entry → Except Failure α → Prop} {script' : List Entry → Except Failure β → Prop}
    {r : Except Failure α} {r' : Except Failure β} (h : Does n (x.after hold l) script m r)
    (hscript : ∀ l', script l' r → script' (l ++ l') r') : Does n x script' m r' := by
  obtain ⟨hlock, hold', l', hfits, hl'⟩ := h
  rw [Post.after_after] at hfits
  exact ⟨hlock, hold', l ++ l', hfits, hscript l' hl'⟩

theorem Does.mono {script script' : List Entry → Except Failure α → Prop} {r : Except Failure α}
    (h : Does n x script m r) (hscript : ∀ l, script l r → script' l r) : Does n x script' m r := by
  obtain ⟨hlock, hold, l, hfits, hl⟩ := h
  exact ⟨hlock, hold, l, hfits, hscript l hl⟩

end

/-! ## Sends -/

/-- What a dispatch and those that are told of it leave in the chronicle. -/
inductive SendScript (n : Nat) (id event : String) : List Entry → Except Failure Dispatch → Prop
  | missed (f : Failure) : f.isContained →
    SendScript n id event [⟨n, some id, .missed f⟩] (.error f)
  | gaveUp (before : Instance) (f : Failure) :
    SendScript n id event [⟨n, some id, .gaveUp before f⟩] (.error f)
  | told (before : Instance) (out : Dispatch) (rest : List Entry) :
    SendScript n id event (⟨n, some id, .dispatched event before out⟩ :: rest) (.ok out)
  | disturbed (before : Instance) (out : Dispatch) (rest : List Entry) (f : Failure) :
    ¬ f.isContained →
      SendScript n id event (⟨n, some id, .dispatched event before out⟩ :: rest) (.error f)

/-- The call keeps the ledger, wherever it begins without a lock. -/
def Books (e : Engine) (w₀ : EngineState) (besides : List Entry → Prop) (n : Nat)
    (script : List Entry → Except Failure α → Prop) (t : MarkedCall α) : Prop :=
  ∀ (x : Post) (m : Moment (bookkeeping e w₀ besides)), m.lock = none → m.Rests n x →
    x.standing = .outside → t.Follows (bookkeeping e w₀ besides) n (Does n x script) m

section Observers

variable {e : Engine} {w₀ : EngineState} {besides : List Entry → Prop} {n : Nat}
  {sendBy : String → String → MarkedCall Dispatch} (hall : ∀ log, besides log)

theorem books_done {script : List Entry → Except Failure α → Prop} {a : α}
    (h : script [] (.ok a)) : Books e w₀ besides n script (.done a) := by
  intro x m hlock hm hx
  refine ⟨hlock, x.hold, [], ?_, h⟩
  rw [Post.after_nil hx]
  exact hm.toFits

theorem books_fail {script : List Entry → Except Failure α → Prop} {f : Failure}
    (h : script [] (.error f)) : Books e w₀ besides n script (.fail f) := by
  intro x m hlock hm hx
  refine ⟨hlock, x.hold, [], ?_, h⟩
  rw [Post.after_nil hx]
  exact hm.toFits

/-- **Parts that keep the ledger make sequences that do.** -/
theorem Books.bind {t : MarkedCall α} {g : α → MarkedCall β}
    (ht : Books e w₀ besides n (Concludes n) t)
    (hg : ∀ a, Books e w₀ besides n (Concludes n) (g a)) :
    Books e w₀ besides n (Concludes n) (t.bind g) := by
  intro x m hlock hm hx
  refine (ht x m hlock hm hx).bind (fun m' a h => ?_) fun m' f h => ?_
  · obtain ⟨hlock', hold, l, hfits, hl⟩ := h
    have hlive := hl.live nofun
    refine (hg a _ m' hlock' (rests_after hlock' hfits hm.live hlive) rfl).mono fun m'' r h => ?_
    exact h.after fun l' hl' => hl'.append hlive
  · obtain ⟨hlock', hold, l, hfits, hl⟩ := h
    exact ⟨hlock', hold, l, hfits, hl.error⟩

theorem Books.contained {t : MarkedCall α} (ht : Books e w₀ besides n (Concludes n) t) :
    Books e w₀ besides n (Concludes n) t.contained := by
  intro x m hlock hm hx
  refine (ht x m hlock hm hx).contained (fun m' a h => ?_) fun m' f h => ?_
  · obtain ⟨hlock', hold, l, hfits, hl⟩ := h
    exact ⟨hlock', hold, l, hfits, .inl (hl.live nofun)⟩
  · obtain ⟨hlock', hold, l, hfits, hl⟩ := h
    refine ⟨hlock', hold, l, hfits, ?_⟩
    split
    next hf =>
      refine .inl (hl.live fun f' hf' => ?_)
      cases hf'
      exact hf
    next => exact hl.error

theorem Books.report {script : List Entry → Except Failure α → Prop} {t : MarkedCall α}
    (r : Record) (ht : Books e w₀ besides n script t) :
    Books e w₀ besides n script (.report (.inl r) t) := by
  intro x m hlock hm hx
  exact ht x { m with log := .inl r :: m.log } hlock { hm with fact := hm.fact } hx

theorem books_yield : Books e w₀ besides n (Concludes n) Activity.yield := by
  intro x m hlock hm hx
  refine ⟨x, hm, fun m' hlock' hm' signal _ => ?_⟩
  have hrests : m'.Rests n x := ⟨hm', hm.keeps.trans hlock'.symm, hm.live⟩
  cases signal with
  | resume => exact books_done .nil x m' (hlock'.trans hlock) hrests hx
  | cancel => exact books_fail .nil x m' (hlock'.trans hlock) hrests hx

/-- Whatever fails when an event is announced, the failure is not contained. -/
theorem announceBy_uncontained {id event : String} {before : Instance} {out : Dispatch}
    {f : Failure} (h : (announceBy e n id sendBy event before out).CanEnd (.error f)) :
    ¬ f.isContained := by
  have htell : ∀ names notice, (tellAllBy e n id sendBy notice names).CanEnd (.error f) →
      ¬ f.isContained := by
    intro names notice h
    induction names with
    | nil => cases h
    | cons name rest ih =>
      rcases canEnd_bind.1 h with ⟨r, -, h⟩ | ⟨f', h, hf⟩
      · cases r <;> exact ih h
      · cases hf
        exact canEnd_contained_fail h
  unfold announceBy at h
  split at h
  · obtain ⟨s, h⟩ := h
    exact htell _ _ h
  · cases h

include hall

/-- One entry by which nothing is stored, with a change of the observers. -/
theorem Books.note {y : Entry} {t : MarkedCall α} (ht : Books e w₀ besides n (Concludes n) t)
    (hcaller : y.caller = n) (hstores : y.deed.stores? = none) (hfinal : ¬ y.deed.Final)
    (hpossible : ∀ id d found, y.deed.Possible e id d found) :
    Books e w₀ besides n (Concludes n)
      (.update (fun s => { s with observers := y.deed.enroll s.observers }) (mark y t)) := by
  intro x m hlock hm hx
  have hy : ∀ z ∈ [y], ¬ z.deed.Final := fun z hz => (List.mem_singleton.1 hz).symm ▸ hfinal
  have hledger : Ledger e w₀ (Function.update m.stakes n (x.after x.hold [y]))
      { m.world with observers := y.deed.enroll m.world.observers }
      (marks m.log ++ [y]) := by
    rw [Post.after, ← hx]
    exact Ledger.note hm.fact.1 hcaller hstores fun _ _ => hpossible _ _ _
  let m' : Moment (bookkeeping e w₀ besides) := { m with
    world := { m.world with observers := y.deed.enroll m.world.observers }
    log := .inr y :: m.log }
  have hfits : m'.Fits n (x.after x.hold [y]) := by
    refine ⟨⟨?_, hall _⟩, hm.sole⟩
    rw [marks_inr]
    exact hledger
  have hrests : m'.Rests n (x.after x.hold [y]) := rests_after hlock hfits hm.live hy
  exact (ht _ m' hlock hrests rfl).mono fun m'' r h => h.after fun l hl => hl.append hy

/-- What an observer does keeps the ledger, if what it sends does. -/
theorem books_performBy (hsend : ∀ id event, Books e w₀ besides n (Concludes n) (sendBy id event))
    (r : Reaction) : Books e w₀ besides n (Concludes n) (performBy n sendBy r) := by
  induction r with
  | done => exact books_done .nil
  | fail f => exact books_fail .nil
  | note v next ih => exact ih.report _
  | yield next ih => exact books_yield.bind fun _ => ih
  | subscribe name next ih =>
    exact Books.note (y := ⟨n, none, .subscribed name⟩) hall ih rfl rfl (fun h => h)
      fun _ _ _ => trivial
  | unsubscribe name next ih =>
    exact Books.note (y := ⟨n, none, .unsubscribed name⟩) hall ih rfl rfl (fun h => h)
      fun _ _ _ => trivial
  | send id event k ih => exact (hsend id event).bind fun out => ih out

theorem books_tellAllBy
    (hsend : ∀ id event, Books e w₀ besides n (Concludes n) (sendBy id event)) {id : String}
    {notice : Notice} (names : List String) :
    Books e w₀ besides n (Concludes n) (tellAllBy e n id sendBy notice names) := by
  induction names with
  | nil => exact books_done .nil
  | cons name rest ih =>
    have htold : Books e w₀ besides n (Concludes n)
        (.update (fun s => { s with observers := s.observers })
          (tellAllBy e n id sendBy notice (name :: rest))) := by
      refine Books.note (y := ⟨n, some id, .told name notice⟩) hall ?_ rfl rfl (fun h => h)
        fun _ _ _ => trivial
      refine (books_performBy hall hsend _).contained.bind fun r => ?_
      cases r with
      | ok a => exact ih
      | error f => exact ih.report _
    exact fun x m hlock hm hx => htold x m hlock hm hx

/-- Events keep the ledger, with all that observers send on. -/
theorem books_sendWithinBy (depth : Nat) (id event : String) :
    Books e w₀ besides n (fun l r => Concludes n l r ∧
      (depth = 0 ∨ SendScript n id event l r)) (sendWithinBy e n depth id event) := by
  induction depth generalizing id event with
  | zero => exact books_fail ⟨.nil, .inl rfl⟩
  | succ depth ih =>
    intro x m hlock hm hx
    have hsend : ∀ id event, Books e w₀ besides n (Concludes n) (sendWithinBy e n depth id event) :=
      fun id event x m hlock hm hx =>
        (ih id event x m hlock hm hx).mono fun m' r h => h.mono fun l hl => hl.1
    have hannounce : ∀ before out, Books e w₀ besides n (Concludes n)
        (announceBy e n id (sendWithinBy e n depth) event before out) := by
      intro before out
      unfold announceBy
      split
      · exact fun x m hlock hm hx => books_tellAllBy hall hsend _ x m hlock hm hx
      · exact books_done .nil
    refine (follows_dispatchBy hlock hm hx).bind (fun m' b h => ?_) fun m' f h => ?_
    · obtain ⟨hlock', _, log, -, -, ⟨_, rfl⟩, hledger⟩ := h
      let y : Entry := ⟨n, some id, .dispatched event b.1 b.2⟩
      have hy : ∀ z ∈ [y], ¬ z.deed.Final := fun z hz => (List.mem_singleton.1 hz).symm ▸ not_false
      have hrests := rests_after hlock' (fits_noted hx hlock' hledger (hall _)) hm.live hy
      refine (hannounce b.1 b.2 _ m' hlock' hrests rfl).canEnd.bind (fun m₁ a h => ?_)
        fun m₁ f h => ?_
      · refine Does.after h.1 fun l hl => ⟨.inl fun z hz => ?_, .inr (.told b.1 b.2 l)⟩
        exact (List.mem_append.1 hz).elim (hy z) (hl.live nofun z)
      · refine Does.after h.1 fun l hl => ⟨(hl.append hy).error, .inr (.disturbed b.1 b.2 l f ?_)⟩
        exact announceBy_uncontained h.2
    · obtain ⟨hlock', y, log, -, -, htells, hledger⟩ := h
      have hserved : ServedScript n id (fun _ (b : Instance × Dispatch) =>
          .dispatched event b.1 b.2) [⟨n, some id, y⟩] (.error f) := ⟨y, rfl, htells⟩
      refine ⟨hlock', x.hold, _, fits_noted hx hlock' hledger (hall _), ?_, .inr ?_⟩
      · exact (hserved.concludes fun _ _ => not_false).error
      · rcases htells with ⟨rfl, hf⟩ | ⟨before, rfl⟩
        · exact .missed f hf
        · exact .gaveUp before f

end Observers

/-! ## Jobs -/

/-- What a request leaves in the chronicle. -/
def Request.Script (n : Nat) (id : String) : Request → List Entry → Except Failure Answer → Prop
  | .send event => fun l r => ∃ r', r = r'.map .dispatched ∧ SendScript n id event l r'
  | .canFire event => fun l r => ∃ r', r = r'.map .fires ∧ ServedScript n id (.asked event) l r'
  | .update _ | .set _ => fun l r => ∃ r', r = r'.map .stored ∧ ServedScript n id .recontexted l r'

theorem eq_error_of_map {r : Except Failure α} {g : α → β} {f : Failure}
    (h : .error f = r.map g) : r = .error f := by
  cases r <;> cases h
  rfl

theorem ServedScript.gaveUp {n : Nat} {id : String} {deed : Instance → β → Deed} {l : List Entry}
    {f : Failure} (h : ServedScript n id deed l (.error f)) (hf : ¬ f.isContained) :
    ∃ before, l = [⟨n, some id, .gaveUp before f⟩] := by
  obtain ⟨y, rfl, ⟨-, hcontained⟩ | ⟨before, rfl⟩⟩ := h
  · exact absurd hcontained hf
  · exact ⟨before, rfl⟩

/-- A request that fails in an uncontained way has given up its work, or has stored an outcome
before. -/
theorem Request.Script.uncontained {n : Nat} {id : String} {r : Request} {l : List Entry}
    {f : Failure} (h : r.Script n id l (.error f)) (hf : ¬ f.isContained) :
    (∃ before, l = [⟨n, some id, .gaveUp before f⟩]) ∨
      ∃ event before out rest, r = .send event ∧
        l = ⟨n, some id, .dispatched event before out⟩ :: rest := by
  cases r with
  | send event =>
    obtain ⟨r', hr', h⟩ := h
    cases eq_error_of_map hr'
    cases h with
    | missed _ hcontained => exact absurd hcontained hf
    | gaveUp before => exact .inl ⟨before, rfl⟩
    | disturbed before out rest => exact .inr ⟨event, before, out, rest, rfl, rfl⟩
  | canFire event | update updater | set c =>
    obtain ⟨r', hr', h⟩ := h
    cases eq_error_of_map hr'
    exact .inl (h.gaveUp hf)

/-- What a job leaves in the chronicle. -/
def Job.Script (n : Nat) : Job → List Entry → Except Failure Result → Prop
  | .start bid _ _ => fun l r => ∃ r', r = r'.map .started ∧ StartScript n bid.given l r'
  | .request id req => fun l r => ∃ r', r = r'.map .answered ∧ Concludes n l r' ∧ req.Script n id l r'
  | _ => fun l _ => ∀ y ∈ l, ¬ y.deed.Final

/-- Only starts store new instances, and they answer with what they have stored. -/
theorem Job.Script.started {n : Nat} {j : Job} {l : List Entry} {r : Except Failure Result}
    {id : String} {i : Instance} (h : j.Script n l r) (hi : ⟨n, some id, .started i⟩ ∈ l) :
    r = .ok (.started i) := by
  cases j with
  | start bid c abandoned =>
    obtain ⟨r', rfl, hl⟩ := h
    cases hl with
    | started =>
      cases List.mem_singleton.1 hi
      rfl
    | missed | refused | unstarted =>
      have hdeed := congrArg Entry.deed (List.mem_singleton.1 hi)
      cases hdeed
  | request id' req =>
    obtain ⟨r', rfl, hl, -⟩ := h
    rcases hl with hlive | ⟨l', id'', before, f, rfl, hlive, -⟩
    · exact absurd trivial (hlive _ hi)
    · rcases List.mem_append.1 hi with hi | hi
      · exact absurd trivial (hlive _ hi)
      · cases List.mem_singleton.1 hi
  | _ => exact absurd trivial (h _ hi)

section Jobs

variable {e : Engine} {w₀ : EngineState} {besides : List Entry → Prop} {n : Nat}

/-- The tables and the observers are the same. -/
def SameEntries (w w' : EngineState) : Prop := SameTables w w' ∧ w'.observers = w.observers

/-- A call that leaves what the chronicle tells of. -/
theorem books_plain {t : Call α} (ht : t.Alters SameEntries) :
    Books e w₀ besides n (fun l _ => ∀ y ∈ l, ¬ y.deed.Final) (t.plain Entry) := by
  induction t with
  | done a => exact books_done (List.forall_mem_nil _)
  | fail f => exact books_fail (List.forall_mem_nil _)
  | look k ih => exact fun x m hlock hm hx => ih m.world (ht m.world) x m hlock hm hx
  | update f next ih =>
    intro x m hlock hm hx
    obtain ⟨hsame, hobservers⟩ := ht.1 m.world
    refine ih ht.2 x { m with world := f m.world } hlock { hm with fact := ?_ } hx
    exact ⟨hm.fact.1.same hsame hobservers, hm.fact.2⟩
  | report r next ih => exact (ih ht).report r
  | pause k ih =>
    intro x m hlock hm hx
    refine ⟨x, hm, fun m' hlock' hm' signal _ => ?_⟩
    exact ih signal (ht signal) x m' (hlock'.trans hlock)
      ⟨hm', hm.keeps.trans hlock'.symm, hm.live⟩ hx
  | acquire key next ih => exact ht.elim
  | release key next ih => exact ht.elim

theorem alters_unheard {t : Call α} (ht : t.Alters SameEntries) :
    (unheard t).Alters SameEntries :=
  ht.bind fun _ _ => trivial

theorem alters_changeRegistry (f : Registry → Except Failure α × Registry) :
    (changeRegistry f).Alters SameEntries := by
  refine fun w => ⟨fun v => ⟨⟨rfl, rfl, rfl⟩, rfl⟩, ?_⟩
  cases (f w.registry).1 <;> trivial

theorem alters_logOf (id : String) : (logOf id).Alters SameEntries := by
  refine (alters_known id _).bind fun d _ => (alters_known id _).bind fun i _ => ?_
  cases auditLog d i <;> trivial

theorem alters_list (status : Option Status) : (Engine.list status).Alters SameEntries :=
  fun _ => trivial

/-- **Requests keep the ledger**, if events do. -/
theorem Request.books (hsilently : Silently besides) (id : String)
    (hsend : ∀ event, Books e w₀ besides n (fun l r => Concludes n l r ∧ SendScript n id event l r)
      (sendWithinBy e n (e.nesting + 1) id event)) (r : Request) :
    Books e w₀ besides n (fun l a => Concludes n l a ∧ r.Script n id l a) (requestBy e n id r) := by
  intro x m hlock hm hx
  have hreplace : ∀ f, ((replaceContextBy n id f).bind fun i => .done (Answer.stored i)).Follows
      (bookkeeping e w₀ besides) n (Does n x fun l a => Concludes n l a ∧
        ∃ a', a = a'.map .stored ∧ ServedScript n id .recontexted l a') m := by
    intro f
    refine (Does.map (follows_replaceContextBy hlock hm hx hsilently f)).mono fun m' a h => ?_
    refine h.mono fun l hl => ?_
    obtain ⟨a', rfl, hl⟩ := hl
    exact ⟨(hl.concludes fun _ _ => not_false).map _, a', rfl, hl⟩
  cases r with
  | send event =>
    refine (Does.map (hsend event x m hlock hm hx)).mono fun m' a h => h.mono fun l hl => ?_
    obtain ⟨a', rfl, hl⟩ := hl
    exact ⟨hl.1.map _, a', rfl, hl.2⟩
  | canFire event =>
    refine (Does.map (follows_canFireBy hlock hm hx hsilently)).mono fun m' a h => ?_
    refine h.mono fun l hl => ?_
    obtain ⟨a', rfl, hl⟩ := hl
    exact ⟨(hl.concludes fun _ _ => not_false).map _, a', rfl, hl⟩
  | update updater => exact hreplace _
  | set c => exact hreplace _

/-- The post of a job before its first turn. -/
def Job.post (j : Job) : Post := { hold := j.stake.hold }

/-- **Jobs keep the ledger**, if events do. -/
theorem Job.follows (hsilently : Silently besides)
    (hsend : ∀ id event, Books e w₀ besides n
      (fun l r => Concludes n l r ∧ SendScript n id event l r)
      (sendWithinBy e n (e.nesting + 1) id event))
    (j : Job) {m : Moment (bookkeeping e w₀ besides)} (hlock : m.lock = none)
    (hm : m.Rests n j.post) :
    (j.chronicled e n).Follows (bookkeeping e w₀ besides) n (Does n j.post (j.Script n)) m := by
  cases j with
  | start bid c abandoned =>
    have hstart := follows_startBy hlock hm rfl hsilently rfl bid.name bid.version c bid.given
    refine Does.map ?_
    cases abandoned with
    | true => exact hstart.cancelledAtPause trivial
    | false => exact hstart
  | request id r => exact Does.map (r.books hsilently id (hsend id) _ m hlock hm rfl)
  | subscribe name =>
    let y : Entry := ⟨n, none, .subscribed name⟩
    have hnote := fits_note (y := y) hm rfl hsilently rfl rfl trivial fun _ _ => trivial
    exact ⟨hlock, _, [y], hnote, fun z hz => (List.mem_singleton.1 hz).symm ▸ not_false⟩
  | unsubscribe name =>
    let y : Entry := ⟨n, none, .unsubscribed name⟩
    have hnote := fits_note (y := y) hm rfl hsilently rfl rfl trivial fun _ _ => trivial
    exact ⟨hlock, _, [y], hnote, fun z hz => (List.mem_singleton.1 hz).symm ▸ not_false⟩
  | register d => exact books_plain (alters_unheard (alters_changeRegistry _)) _ m hlock hm rfl
  | registerDocument doc hs =>
    exact books_plain (alters_unheard (alters_changeRegistry _)) _ m hlock hm rfl
  | unregister name version =>
    exact books_plain (alters_unheard (alters_changeRegistry _)) _ m hlock hm rfl
  | snapshot id => exact books_plain (alters_unheard (alters_known id _)) _ m hlock hm rfl
  | definition id => exact books_plain (alters_unheard (alters_known id _)) _ m hlock hm rfl
  | log id => exact books_plain (alters_unheard (alters_logOf id)) _ m hlock hm rfl
  | list status => exact books_plain (alters_unheard (alters_list status)) _ m hlock hm rfl

/-- The post of a call by its number. -/
def postOf (jobs : List Job) (n : Nat) : Post := (jobs[n]?).elim { hold := .visitor } Job.post

theorem postOf_hold (jobs : List Job) (n : Nat) :
    (postOf jobs n).hold = .visitor ∨ (postOf jobs n).hold = .seeker := by
  unfold postOf
  cases jobs[n]? with
  | none => exact .inl rfl
  | some j => exact j.stake_hold

theorem postOf_standing (jobs : List Job) (n : Nat) : (postOf jobs n).standing = .outside := by
  unfold postOf
  cases jobs[n]? <;> rfl

theorem postOf_deeds (jobs : List Job) (n : Nat) : (postOf jobs n).deeds = [] := by
  unfold postOf
  cases jobs[n]? <;> rfl

/-- The jobs, which keep the ledger and leave their entries in the chronicle. -/
def bookkeepers (e : Engine) (w₀ : EngineState) (besides : List Entry → Prop)
    (hsilently : Silently besides)
    (hsend : ∀ n id event, Books e w₀ besides n
      (fun l r => Concludes n l r ∧ SendScript n id event l r)
      (sendWithinBy e n (e.nesting + 1) id event))
    (jobs : List Job) : Pact (bookkeeping e w₀ besides) Result where
  calls := e.chronicledJobs jobs
  stake := postOf jobs
  agreed n x r := ∀ j, jobs[n]? = some j → j.Script n x.deeds r
  unlocked n := by
    show (postOf jobs n).lock = none
    unfold Post.lock
    rw [postOf_standing]
  live n := by
    show (postOf jobs n).Live
    unfold Post.Live
    rw [postOf_deeds]
    exact List.forall_mem_nil _
  follows {n t} hn m hlock hm := by
    obtain ⟨j, hj, rfl⟩ := (getElem?_chronicledJobs e jobs).1 hn
    have hpost : postOf jobs n = j.post := by
      unfold postOf
      rw [hj]
      rfl
    rw [hpost] at hm
    have hrests : m.Rests n j.post := ⟨hm, hlock.symm, List.forall_mem_nil _⟩
    refine (Job.follows hsilently (hsend n) j hlock hrests).mono fun m' r h => ?_
    obtain ⟨hlock', hold, l, hfits, hl⟩ := h
    refine ⟨hlock', _, hfits, rfl, fun j' hj' => ?_⟩
    cases hj.symm.trans hj'
    exact hl

/-- Before all calls the ledger is empty. -/
theorem ledger_first (hw : w₀.Tidy) (jobs : List Job) : Ledger e w₀ (postOf jobs) w₀ [] where
  claims := claims_first (g := fun n => { hold := (postOf jobs n).hold }) hw (postOf_hold jobs)
  sees n := by
    rw [postOf_standing]
    trivial
  snapshots _ := rfl
  observers := rfl
  legal := .nil
  own n := by
    rw [postOf_deeds]
    rfl

/-- A call that has made a final entry has ended. -/
theorem ended_with_script {hsilently : Silently besides}
    {hsend : ∀ n id event, Books e w₀ besides n
      (fun l r => Concludes n l r ∧ SendScript n id event l r)
      (sendWithinBy e n (e.nesting + 1) id event)}
    {jobs : List Job} {g : Nat → Post} {owner : String → Option Nat}
    {s : Schedule Realm.chronicled Result} {y : Entry}
    (h : (bookkeepers e w₀ besides hsilently hsend jobs).Kept g owner [] s)
    (hy : y ∈ (g n).deeds) (hfinal : y.deed.Final) :
    ∃ j r, jobs[n]? = some j ∧ (n, r) ∈ s.finished ∧ j.Script n (g n).deeds r := by
  have hcalls : (bookkeepers e w₀ besides hsilently hsend jobs).calls.length = jobs.length :=
    List.length_mapIdx
  have hn : n < (bookkeepers e w₀ besides hsilently hsend jobs).calls.length := by
    by_contra hn
    have habsent : g n = postOf jobs n := h.absent n (Nat.le_of_not_lt hn)
    rw [habsent, postOf_deeds] at hy
    cases hy
  have hlive : ¬ (g n).Live := fun hlive => hlive y hy hfinal
  obtain ⟨r, hr⟩ := h.ended_of_not_live hn hlive
  obtain ⟨j, hj⟩ : ∃ j, jobs[n]? = some j := ⟨_, List.getElem?_eq_getElem (hcalls ▸ hn)⟩
  exact ⟨j, r, hj, hr, (h.finished _ hr).1 j hj⟩

end Jobs

end Engine

end Workflow
