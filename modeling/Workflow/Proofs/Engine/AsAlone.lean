import Workflow.Proofs.Engine.Apart
import Workflow.Proofs.Engine.Solo

/-!
# Calls go as they do alone

Each call on an instance is followed turn by turn, beside the same call in the world of the
instance, where only the calls on it are made (`Engine.separation`).

**Work** (`follows_mirrored`). While a call works on an instance, nobody else touches the arenas of
it. So each step of the work finds, and leaves, the contexts as the same step does alone.

**Courses** (`Engine.Course`). What is left of a call after its work leaves the world as it is: an
answer is put together, and observers are told.

Main results: `request_apart` and `start_apart`. Calls end as they do alone, but for starts that are
turned away.
-/

namespace Workflow

open Activity Environment

namespace Engine

variable {e : Engine} {w₀ : EngineState} {jobs : List Job} {owner : Nat → String} {n : Nat}
  {id : String} {j : Job} {y : Entry} {x : Place} {m : Moment (separation e w₀ jobs owner)}
  {starts : Bool} {l : Nat → Nat → Prop} {b : EngineState} {v : Environment} {β γ : Type}
  {f : Failure}

/-- The arena was there before all calls, and belongs to the id. -/
def Owned (w₀ : EngineState) (owner : Nat → String) (id : String) (a : Nat) : Prop :=
  a < w₀.env.contexts.arenas.size ∧ owner a = id

/-! ## The course of a call -/

/-- A call on an instance consists of work on it, and of what is left then. That leaves the world
as it is, and ends as it must while the observers are the same. -/
structure Course (e : Engine) (w₀ : EngineState) (jobs : List Job) (n : Nat) (id : String) (j : Job)
    (t : Call β) (rest : β → Call Result) (ending : β → Except Failure Result) : Prop where
  job : jobs[n]? = some j
  subject : j.subject? = some id
  call : j.call e = t.bind rest
  closes : ∀ b w, w.observers = w₀.observers →
    ((rest b).run w).answer = ending b ∧ ((rest b).run w).world = w

/-- The call was served. Its work gave what it gives alone, and there what is left of the call has
come to its end. -/
def Comes (id : String) (B : (Nat → Nat → Prop) → β → β → Prop)
    (ending : β → Except Failure Result) (n : Nat) (m : Moment (separation e w₀ jobs owner))
    (r : Except Failure β) : Prop :=
  ∃ l r', m.Fits n (Place.served id l (r'.bind ending)) ∧ Agree Eq (B l) r r'

/-- Wherever the id is taken, the call is turned away. -/
def Barred (e : Engine) (w₀ : EngineState) (id : String) (j : Job) : Prop :=
  ∀ b : EngineState, b.registry = w₀.registry → id ∈ b.reserved →
    ((j.call e).run b).answer = .error (idTaken id) ∧ ((j.call e).run b).world = b

/-- What is agreed on how a call ends: as it does alone, or it was a start that was turned away. -/
def Agreed (e : Engine) (w₀ : EngineState) (jobs : List Job) (n : Nat) (x : Place)
    (r : Except Failure Result) : Prop :=
  ∃ j id, jobs[n]? = some j ∧ j.subject? = some id ∧
    ((∃ l r', x = .served id l r' ∧ Agree Eq (Result.Alike l) r r') ∨
      (x = .turnedAway id ∧ r = .error (idTaken id) ∧ e.Barred w₀ id j))

theorem Agreed.not_inside {r : Except Failure Result} (h : e.Agreed w₀ jobs n x r) :
    x.inside? = none := by
  obtain ⟨_, _, -, -, ⟨_, _, rfl, -⟩ | ⟨rfl, -⟩⟩ := h <;> rfl

theorem linked_of_fits (hm : m.Fits n (Place.inside id starts l b v)) : Linked l m.world.env v := by
  obtain ⟨links, hapart, -⟩ := hm.fact
  exact hapart.fits_self.2.2.1

/-- Without a lock, a call may let others in where it fits. -/
theorem rests_of_fits (hm : m.Fits n x) (hlock : m.lock = none) (hx : x.lock = none) :
    m.Rests n x :=
  { hm with keeps := hx.trans hlock.symm, live := trivial }

/-- After the others have had their turns, the call may let them in again. -/
theorem rests_again {m' : Moment (separation e w₀ jobs owner)} (hm : m.Rests n x)
    (hlock : m'.lock = m.lock) (hm' : m'.Fits n x) : m'.Rests n x :=
  { hm' with keeps := hm.keeps.trans hlock.symm, live := trivial }

theorem fits_unlocked (hm : m.Fits n x) : Moment.Fits n x { m with lock := none } :=
  ⟨hm.fact, nofun⟩

theorem fits_unserved (hm : m.Fits n x) (hy : ∀ id, y.served? id = none) :
    Moment.Fits n x { m with log := .inr y :: m.log } := by
  obtain ⟨links, hapart, hrolled⟩ := hm.fact
  refine ⟨⟨links, ?_, ?_⟩, hm.sole⟩
  · rw [marks_inr, alone_note hy]
    exact hapart
  · rw [marks_inr]
    exact hrolled.note hy

section Course

variable {t : Call β} {rest : β → Call Result} {ending : β → Except Failure Result}
  {B : (Nat → Nat → Prop) → β → β → Prop} {r r' : Except Failure β}

theorem Course.run (h : Course e w₀ jobs n id j t rest ending)
    (hw : (t.run b).world.observers = w₀.observers) :
    ((j.call e).run b).answer = (t.run b).answer.bind ending ∧
      ((j.call e).run b).world = (t.run b).world := by
  rw [h.call]
  cases ht : (t.run b).answer with
  | ok a =>
    rw [run_bind_of_ok ht]
    exact h.closes a _ hw
  | error f =>
    rw [run_bind_of_error ht]
    exact ⟨rfl, rfl⟩

/-- A call is served without working on an instance, and alone it changes nothing either. -/
theorem comes_missed (h : Course e w₀ jobs n id j t rest ending) (hm : m.Fits n x)
    (hx : x.inside? = none) (hx' : x.served? = none) (hid : y.id = some id)
    (hy : y.served? id = some n)
    (hrun : ∀ l, Matches l id m.world b → (t.run b).answer = .error f ∧ (t.run b).world = b)
    (hb : b = (e.alone w₀ jobs id (marks m.log)).2) :
    Comes id B ending n { m with log := .inr y :: m.log } (.error f) := by
  obtain ⟨links, hapart, hrolled⟩ := hm.fact
  have hmatches : Matches (links id) id m.world b := hb ▸ hapart.stored id
  obtain ⟨hanswer, hworld⟩ := hrun _ hmatches
  have hobservers : (t.run b).world.observers = w₀.observers :=
    (congrArg _ hworld).trans (hmatches.observers.trans hapart.observers)
  obtain ⟨hcall, hcallworld⟩ := h.run hobservers
  refine ⟨fun _ _ => False, .error f, ⟨⟨links, ?_, ?_⟩, hm.sole⟩, .error rfl⟩
  · rw [marks_inr, alone_serve hid hy h.job, ← hb, hcallworld, hworld, hb, Function.update_eq_self]
    exact hapart.place hx rfl fun _ _ h => h.elim
  · have hserved := hrolled.serve hx' h.job h.subject hid hy fun _ _ => False
    rw [← hb, hcall, hanswer] at hserved
    rw [marks_inr]
    exact hserved

/-- A call that works on an instance is served. -/
theorem comes_served {w' : EngineState} (h : Course e w₀ jobs n id j t rest ending)
    (hm : m.Fits n (Place.inside id starts l b v)) (hid : y.id = some id) (hy : y.served? id = some n)
    (hw : Spares id m.world w')
    (hmatches : Matches l id m.world b → Matches l id w' (t.run b).world)
    (henv : (t.run b).world.env = v) (hrun : (t.run b).answer = r') (hr : Agree Eq (B l) r r') :
    Comes id B ending n { m with world := w', log := .inr y :: m.log } r := by
  obtain ⟨links, hapart, hrolled⟩ := hm.fact
  obtain ⟨hl, hb, -, -⟩ := hapart.fits_self
  change b = (e.alone w₀ jobs id (marks m.log)).2 at hb
  have hstored : Matches (links id) id m.world (e.alone w₀ jobs id (marks m.log)).2 :=
    hapart.stored id
  rw [← hl, ← hb] at hstored
  have hafter := hmatches hstored
  have hobservers : (t.run b).world.observers = w₀.observers :=
    hafter.observers.trans (hw.observers.trans hapart.observers)
  obtain ⟨hcall, hcallworld⟩ := h.run hobservers
  refine ⟨l, r', ⟨⟨links, ?_, ?_⟩, hm.sole⟩, hr⟩
  · rw [marks_inr, alone_serve hid hy h.job, ← hb, hcallworld]
    exact hapart.close hw hafter henv
  · have hserved := hrolled.serve rfl h.job h.subject hid hy l
    rw [← hb, hcall, hrun] at hserved
    rw [marks_inr]
    exact hserved

end Course

/-! ## Work on an instance -/

/-- **Work on an instance goes as it does alone**, whatever the others do meanwhile. -/
theorem follows_mirrored {B : β → γ → Prop} {t : Activity Realm.flow β}
    {u : Activity Realm.flow γ} (hmirrors : Mirrors (Linked l) B t u)
    (halters : t.Alters (SameOff fun a => ∃ c, l a c))
    (hm : m.Rests n (Place.inside id starts l b v)) :
    ((within t).plain Entry).Follows (separation e w₀ jobs owner) n (fun m' r =>
      m'.lock = m.lock ∧ m'.Rests n (Place.inside id starts l b (u.run v).world) ∧
        Agree Eq B r (u.run v).answer) m := by
  induction hmirrors generalizing m v with
  | done hab => exact ⟨rfl, hm, .ok hab⟩
  | fail f => exact ⟨rfl, hm, .error rfl⟩
  | look _ ih => exact ih _ _ (linked_of_fits hm.toFits) (halters _) hm
  | @update f g t u hW _ ih =>
    refine ih halters.2 (m := { m with world := { m.world with env := f m.world.env } }) ?_
    obtain ⟨links, hapart, hrolled⟩ := hm.fact
    have hstep := hapart.step (halters.1 m.world.env) (hW _ _ (linked_of_fits hm.toFits))
    have hrolled' : Rolled e w₀ jobs
        (Function.update m.stakes n (Place.inside id starts l b (g v))) (marks m.log) :=
      hrolled.place rfl rfl nofun hrolled.inside_self
    exact { hm with fact := ⟨links, hstep, hrolled'⟩ }
  | report _ ih => exact ih halters (m := { m with log := .inl _ :: m.log }) { hm with fact := hm.fact }
  | pause _ ih =>
    refine ⟨_, hm, fun m' hlock hm' signal hsignal => ?_⟩
    obtain rfl : signal = .resume := hsignal
    exact (ih .resume (halters .resume) (rests_again hm hlock hm')).mono
      fun m'' r h => ⟨h.1.trans hlock, h.2⟩

/-! ## Calls on a stored instance -/

section Served

variable {rest : β → Call Result} {ending : β → Except Failure Result}
  {B : (Nat → Nat → Prop) → β → β → Prop}
  {work : Definition → Instance → Activity Realm.flow β} {after : β → Option Instance}
  {deed : Instance → β → Deed} {d : Definition} {i : Instance} {c : β}

/-- The work has given something, and what is to be stored is stored. -/
theorem comes_done (h : Course e w₀ jobs n id j (served id work after) rest ending)
    (hfaithful : Faithful (Owned w₀ owner id) B work after)
    (hd : b.definitions.get? id = some d) (hi : b.instances.get? id = some i)
    (hm : m.Fits n (Place.inside id false l b ((work d i).run b.env).world))
    (hagree : Agree Eq (B l) (.ok c) ((work d i).run b.env).answer) (hid : y.id = some id)
    (hy : y.served? id = some n) :
    Comes id B ending n
      { m with world := Ledger.storing id (after c) m.world, log := .inr y :: m.log } (.ok c) := by
  obtain ⟨c', hanswer, hcc⟩ := hagree.of_ok
  obtain ⟨hrun, hworld⟩ := served_run_ok after hd hi hanswer
  obtain ⟨links, hapart, -⟩ := hm.fact
  refine comes_served h hm hid hy (.storing _) (fun hmatches => ?_) ?_ hrun (.ok hcc)
  · rw [hworld]
    exact (hmatches.work _).storing (hfaithful.after l c c' hcc) hapart.fits_self.2.2.2
  · rw [hworld]
    exact (Spares.storing _).env

/-- The work has failed, and nothing is stored. -/
theorem comes_gaveUp (h : Course e w₀ jobs n id j (served id work after) rest ending)
    (hd : b.definitions.get? id = some d) (hi : b.instances.get? id = some i)
    (hm : m.Fits n (Place.inside id false l b ((work d i).run b.env).world))
    (hagree : Agree Eq (B l) (.error f) ((work d i).run b.env).answer) (hid : y.id = some id)
    (hy : y.served? id = some n) :
    Comes id B ending n { m with log := .inr y :: m.log } (.error f) := by
  obtain ⟨f', hanswer, rfl⟩ := hagree.of_error
  obtain ⟨hrun, hworld⟩ := served_run_error after hd hi hanswer
  refine comes_served h hm hid hy (.storing none) (fun hmatches => ?_) (congrArg _ hworld) hrun
    (.error rfl)
  rw [hworld]
  exact hmatches.work _

/-- Under the lock the work is done, and its result is stored, as alone. -/
theorem work_apart (h : Course e w₀ jobs n id j (served id work after) rest ending)
    (hfaithful : Faithful (Owned w₀ owner id) B work after)
    (hdeed : ∀ before b, (deed before b).serves) (hlock : m.lock = some id)
    (hm : m.Fits n (Place.before id d)) :
    (((instanceOf id).plain Entry).bind fun before =>
      noting (fun f => ⟨n, some id, .gaveUp before f⟩) (within (work d before)) fun b =>
      match after b with
      | some j => .update (EngineState.setInstance id j) (mark ⟨n, some id, deed before b⟩ (.done b))
      | none => mark ⟨n, some id, deed before b⟩ (.done b)).Follows (separation e w₀ jobs owner) n
      (fun m' r => m'.lock = some id ∧ Comes id B ending n m' r) m := by
  obtain ⟨links, hapart, hrolled⟩ := hm.fact
  obtain ⟨i, i', hi, hi', halike, hd, hinside⟩ := hapart.goIn (hm.sole id hlock)
  let base : EngineState := (e.alone w₀ jobs id (marks m.log)).2
  change base.instances.get? id = some i' at hi'
  change base.definitions.get? id = some d at hd
  have hrests : m.Rests n (Place.inside id false (links id) base base.env) := by
    refine { sole := hm.sole, keeps := hlock.symm, live := trivial, fact := ⟨links, hinside, ?_⟩ }
    refine hrolled.place rfl rfl nofun fun id' hid' => ?_
    cases hid'
    exact ⟨j, h.job, h.subject⟩
  have hinstance : ((instanceOf id).plain Entry).Follows (separation e w₀ jobs owner) n
      (fun m' r => m' = m ∧ r = .ok i) m := by
    refine follows_known (fun k hk => ⟨rfl, ?_⟩) fun hnone => ?_
    · exact congrArg _ (Option.some.inj (hk.symm.trans hi))
    · rw [hi] at hnone
      cases hnone
  refine hinstance.bind (fun m' before hbefore => ?_) fun m' f hf => ?_
  · obtain ⟨rfl, hbefore⟩ := hbefore
    cases hbefore
    have hown : ∀ a, Owned w₀ owner id a → links id a a := fun a ha => ha.2 ▸ hapart.given a ha.1
    have halters : (work d i).Alters (SameOff fun a => ∃ c, links id a c) :=
      (hfaithful.touches d i).mono fun _ _ h => h.mono fun a ha => ⟨_, ha ▸ halike.ctx.arena⟩
    have hwork := follows_mirrored (hfaithful.mirrors _ hown d i i' halike) halters hrests
    refine follows_noting hwork (fun m₁ c hc => ?_) fun m₁ f hf => ?_
    · obtain ⟨hlock₁, hm₁, hagree⟩ := hc
      have hcomes := comes_done h hfaithful hd hi' hm₁.toFits hagree rfl (served?_self (hdeed i c))
      cases hafter : after c with
      | none =>
        rw [hafter] at hcomes
        exact ⟨hlock₁.trans hlock, hcomes⟩
      | some k =>
        rw [hafter] at hcomes
        exact ⟨hlock₁.trans hlock, hcomes⟩
    · obtain ⟨hlock₁, hm₁, hagree⟩ := hf
      exact ⟨hlock₁.trans hlock,
        comes_gaveUp h hd hi' hm₁.toFits hagree rfl (served?_self rfl)⟩
  · cases hf.2

/-- **A call works on a stored instance under its lock**, and is served as alone. -/
theorem servedBy_apart (h : Course e w₀ jobs n id j (served id work after) rest ending)
    (hfaithful : Faithful (Owned w₀ owner id) B work after)
    (hdeed : ∀ before b, (deed before b).serves) (hlock : m.lock = none)
    (hm : m.Rests n Place.outside) :
    (servedBy n id work after deed).Follows (separation e w₀ jobs owner) n
      (fun m' r => m'.lock = none ∧ Comes id B ending n m' r) m := by
  have hdefinition : ((definitionOf id).plain Entry).Follows (separation e w₀ jobs owner) n
      (fun m' r => m' = m ∧ ((∃ d, r = .ok d ∧ m.world.definitions.get? id = some d) ∨
        (r = .error (.instanceNotFound id) ∧ m.world.definitions.get? id = none))) m :=
    follows_known (fun d hd => ⟨rfl, .inl ⟨d, rfl, hd⟩⟩) fun hd => ⟨rfl, .inr ⟨rfl, hd⟩⟩
  refine follows_noting hdefinition (fun m' d hd => ?_) fun m' f hf => ?_
  · obtain ⟨rfl, ⟨d, hrd, hd⟩ | ⟨hrd, -⟩⟩ := hd <;> cases hrd
    obtain ⟨links, hapart, hrolled⟩ := hm.fact
    have hbefore : m'.Rests n (Place.before id d) :=
      { sole := hm.sole
        keeps := hlock.symm
        live := trivial
        fact := ⟨links, hapart.place rfl rfl hd, hrolled.place rfl rfl nofun nofun⟩ }
    refine Follows.locked hlock hbefore (fun m₁ => work_apart h hfaithful hdeed)
      fun m₁ r hr => ⟨hr.1, rfl, ?_⟩
    obtain ⟨l, r', hfits, hrr'⟩ := hr.2
    exact ⟨l, r', fits_unlocked hfits, hrr'⟩
  · obtain ⟨rfl, ⟨d, hrf, -⟩ | ⟨hrf, hd⟩⟩ := hf <;> cases hrf
    refine ⟨hlock, comes_missed h hm.toFits rfl rfl rfl (served?_self rfl) (fun l hl => ?_) rfl⟩
    rw [served_run_missing (hl.definitions.trans hd)]
    exact ⟨rfl, rfl⟩

end Served

/-! ## Observers are told -/

section Told

variable {sendBy : String → String → MarkedCall Dispatch} {notice : Notice} {names : List String}
  {r : Reaction}

theorem performBy_apart (hr : r.Quiet) (hm : m.Rests n x) :
    (performBy n sendBy r).Follows (separation e w₀ jobs owner) n
      (fun m' a => m'.lock = m.lock ∧ m'.Rests n x ∧ a = r.ending) m := by
  induction r generalizing m with
  | done => exact ⟨rfl, hm, rfl⟩
  | fail f => exact ⟨rfl, hm, rfl⟩
  | note v next ih => exact ih hr (m := { m with log := .inl _ :: m.log }) { hm with fact := hm.fact }
  | yield next ih =>
    refine ⟨x, hm, fun m' hlock hm' signal hsignal => ?_⟩
    obtain rfl : signal = .resume := hsignal
    exact (ih hr (rests_again hm hlock hm')).mono fun m'' a h => ⟨h.1.trans hlock, h.2⟩
  | subscribe name next ih => exact hr.elim
  | unsubscribe name next ih => exact hr.elim
  | send id event k ih => exact hr.elim

/-- A reaction is contained, unless it breaks off. -/
theorem contained_apart (hr : r.Quiet) (hm : m.Rests n x) :
    (performBy n sendBy r).contained.Follows (separation e w₀ jobs owner) n
      (fun m' a => m'.lock = m.lock ∧ m'.Rests n x ∧
        r.abort? = match a with
          | .ok _ => none
          | .error f => some f) m := by
  refine (performBy_apart hr hm).contained (fun m' u h => ⟨h.1, h.2.1, ?_⟩)
    fun m' f h => ⟨h.1, h.2.1, ?_⟩
  · unfold Reaction.abort?
    rw [← h.2.2]
  · unfold Reaction.abort?
    rw [← h.2.2]
    dsimp only
    split <;> rfl

/-- Observers that make no calls are told, and their verdict is known. -/
theorem tellAllBy_apart (hquiet : ∀ name ∈ names, (e.reactionOf name notice).Quiet)
    (hm : m.Rests n x) :
    (tellAllBy e n id sendBy notice names).Follows (separation e w₀ jobs owner) n
      (fun m' a => m'.lock = m.lock ∧ m'.Rests n x ∧ a = e.verdict notice names) m := by
  induction names generalizing m with
  | nil => exact ⟨rfl, hm, rfl⟩
  | cons name rest ih =>
    obtain ⟨hname, hrest⟩ := List.forall_mem_cons.1 hquiet
    let y : Entry := ⟨n, some id, .told name notice⟩
    have hnoted : Moment.Rests n x { m with log := .inr y :: m.log } :=
      { hm with toFits := fits_unserved hm.toFits fun _ => if_neg fun h => nomatch h.2 }
    refine (contained_apart hname hnoted).bind (fun m₁ a h => ?_) fun m₁ f h => ?_
    · obtain ⟨hlock, hm₁, habort⟩ := h
      unfold verdict
      rw [habort]
      have hnext : ∀ log, Moment.Rests n x { m₁ with log := log } →
          (tellAllBy e n id sendBy notice rest).Follows (separation e w₀ jobs owner) n
            (fun m' a => m'.lock = m.lock ∧ m'.Rests n x ∧ a = e.verdict notice rest)
            { m₁ with log := log } :=
        fun log hlog => (ih hrest hlog).mono fun m₂ a h => ⟨h.1.trans hlock, h.2⟩
      cases a with
      | ok u => exact hnext m₁.log hm₁
      | error f => exact hnext (.inl _ :: m₁.log) { hm₁ with fact := hm₁.fact }
    · obtain ⟨hlock, hm₁, habort⟩ := h
      unfold verdict
      rw [habort]
      exact ⟨hlock, hm₁, rfl⟩

/-- The observers are those that there were before all calls. -/
theorem observers_of_fits (hm : m.Fits n x) : m.world.observers = w₀.observers := by
  obtain ⟨links, hapart, -⟩ := hm.fact
  exact hapart.observers

theorem announceBy_apart (himpartial : ∀ name ∈ w₀.observers, Impartial (e.reactionOf name))
    (event : String) (before : Instance) (out : Dispatch) (hm : m.Rests n x) :
    (announceBy e n id sendBy event before out).Follows (separation e w₀ jobs owner) n
      (fun m' a => m'.lock = m.lock ∧ m'.Rests n x ∧
        a = e.announced w₀.observers event before out) m := by
  unfold announceBy announced
  split
  · show (tellAllBy e n id sendBy _ m.world.observers).Follows _ n _ m
    rw [observers_of_fits hm.toFits]
    exact tellAllBy_apart (fun name hname => (himpartial name hname).quiet _) hm
  · exact ⟨rfl, hm, rfl⟩

end Told

/-! ## Requests -/

section Requests

/-- A call that was served ends. -/
theorem ends_served {r r' : Except Failure Result} (hj : jobs[n]? = some j)
    (hsubject : j.subject? = some id) (hlock : m.lock = none) (hm : m.Fits n (Place.served id l r'))
    (hr : Agree Eq (Result.Alike l) r r') : m.Ends n (e.Agreed w₀ jobs n) r :=
  ⟨hlock, _, hm, rfl, j, id, hj, hsubject, .inl ⟨l, r', rfl, hr⟩⟩

theorem ends_of_comes {B : (Nat → Nat → Prop) → β → β → Prop} {t : Call β} {g : β → Result}
    {r : Except Failure β}
    (h : Course e w₀ jobs n id j t (fun b => .done (g b)) fun b => .ok (g b))
    (hg : ∀ l b b', B l b b' → Result.Alike l (g b) (g b')) (hlock : m.lock = none)
    (hm : Comes id B (fun b => .ok (g b)) n m r) : m.Ends n (e.Agreed w₀ jobs n) (r.map g) := by
  obtain ⟨l, r', hm, hr⟩ := hm
  refine ends_served h.job h.subject hlock hm ?_
  cases hr with
  | ok hbb => exact .ok (hg l _ _ hbb)
  | error hff => exact .error hff

/-- A request that answers with what its work gives. -/
theorem served_apart {B : (Nat → Nat → Prop) → β → β → Prop}
    {work : Definition → Instance → Activity Realm.flow β} {after : β → Option Instance}
    {q : Request} (deed : Instance → β → Deed) (g : β → Answer)
    (hfaithful : Faithful (Owned w₀ owner id) B work after)
    (hdeed : ∀ before b, (deed before b).serves)
    (hg : ∀ l b b', B l b b' → Answer.Alike l (g b) (g b'))
    (hcall : q.call e id = (served id work after).bind fun b => .done (g b))
    (hcallBy : requestBy e n id q = (servedBy n id work after deed).bind fun b => .done (g b))
    (hj : jobs[n]? = some (.request id q)) (hlock : m.lock = none) (hm : m.Rests n Place.outside) :
    ((Job.request id q).chronicled e n).Follows (separation e w₀ jobs owner) n
      (Moment.Ends n (e.Agreed w₀ jobs n)) m := by
  have hcourse : Course e w₀ jobs n id (.request id q) (served id work after)
      (fun b => .done (.answered (g b))) fun b => .ok (.answered (g b)) := by
    refine ⟨hj, rfl, ?_, fun _ _ _ => ⟨rfl, rfl⟩⟩
    show (q.call e id).bind _ = _
    rw [hcall, Activity.bind_assoc]
    rfl
  show ((requestBy e n id q).bind _).Follows _ n _ m
  rw [hcallBy, Activity.bind_assoc]
  have hends : ∀ (m' : Moment (separation e w₀ jobs owner)) (r : Except Failure β),
      m'.lock = none ∧ Comes id B (fun b => .ok (.answered (g b))) n m' r →
        Moment.Ends n (e.Agreed w₀ jobs n) m' (r.map fun b => .answered (g b)) :=
    fun m' r h => ends_of_comes hcourse (fun l b b' h => .answered (hg l b b' h)) h.1 h.2
  exact (servedBy_apart hcourse hfaithful hdeed hlock hm).bind (fun m' b => hends m' (.ok b))
    fun m' f => hends m' (.error f)

/-- After an event was dispatched, it is told. -/
theorem send_course (himpartial : ∀ name ∈ w₀.observers, Impartial (e.reactionOf name))
    {event : String} (hj : jobs[n]? = some (.request id (.send event))) :
    Course e w₀ jobs n id (.request id (.send event))
      (served id (e.dispatching event) fun x => some x.2.reached)
      (fun x => (e.announce (e.sendWithin e.nesting) event x.1 x.2).bind fun _ =>
        .done (.answered (.dispatched x.2)))
      fun x => (e.announced w₀.observers event x.1 x.2).map fun _ =>
        .answered (.dispatched x.2) := by
  refine ⟨hj, rfl, ?_, fun x w hw => ?_⟩
  · rw [← dispatch_eq]
    show (((e.dispatch id event).bind _).bind _).bind _ = _
    simp only [Activity.bind_assoc]
    rfl
  · rw [← hw]
    exact announce_closes (fun name hname => himpartial name (hw ▸ hname)) event x.1 x.2 _

/-- **Events are served as alone**, and what their observers do makes no difference. -/
theorem send_apart (himpartial : ∀ name ∈ w₀.observers, Impartial (e.reactionOf name))
    {event : String} (hj : jobs[n]? = some (.request id (.send event))) (hlock : m.lock = none)
    (hm : m.Rests n Place.outside) :
    ((Job.request id (.send event)).chronicled e n).Follows (separation e w₀ jobs owner) n
      (Moment.Ends n (e.Agreed w₀ jobs n)) m := by
  have hcallBy : (Job.request id (.send event)).chronicled e n =
      (dispatchBy e n id event).bind fun x =>
        (announceBy e n id (sendWithinBy e n e.nesting) event x.1 x.2).bind fun _ =>
          .done (.answered (.dispatched x.2)) := by
    show (((dispatchBy e n id event).bind _).bind _).bind _ = _
    simp only [Activity.bind_assoc]
    rfl
  rw [hcallBy]
  refine (servedBy_apart (send_course himpartial hj) (faithful_dispatching event) (fun _ _ => rfl)
    hlock hm).bind (fun m₁ x h => ?_) fun m₁ f h => ?_
  · obtain ⟨hlock₁, l, r', hm₁, hr⟩ := h
    obtain ⟨x', rfl, hbefore, hout⟩ := hr.of_ok
    let answer : Except Failure Result :=
      (e.announced w₀.observers event x'.1 x'.2).map fun _ => .answered (.dispatched x'.2)
    have hends : ∀ (m₂ : Moment (separation e w₀ jobs owner)) (u : Except Failure Unit),
        (m₂.lock = m₁.lock ∧ m₂.Rests n (Place.served id l answer) ∧
          u = e.announced w₀.observers event x.1 x.2) →
        Moment.Ends n (e.Agreed w₀ jobs n) m₂ (u.map fun _ => .answered (.dispatched x.2)) := by
      rintro m₂ u ⟨hlock₂, hm₂, rfl⟩
      exact ends_served hj rfl (hlock₂.trans hlock₁) hm₂.toFits
        (announced_agree himpartial event hbefore hout)
    exact (announceBy_apart himpartial event x.1 x.2 (rests_of_fits hm₁ hlock₁ rfl)).bind
      (fun m₂ u => hends m₂ (.ok u)) fun m₂ f => hends m₂ (.error f)
  · obtain ⟨hlock₁, l, r', hm₁, hr⟩ := h
    obtain ⟨f', rfl, rfl⟩ := hr.of_error
    exact ends_served hj rfl hlock₁ hm₁ (.error rfl)

/-- **Requests are served as alone.** -/
theorem request_apart (himpartial : ∀ name ∈ w₀.observers, Impartial (e.reactionOf name))
    {q : Request} (hq : ∀ c, q = .set c → Owned w₀ owner id c.arena)
    (hj : jobs[n]? = some (.request id q)) (hlock : m.lock = none) (hm : m.Rests n Place.outside) :
    ((Job.request id q).chronicled e n).Follows (separation e w₀ jobs owner) n
      (Moment.Ends n (e.Agreed w₀ jobs n)) m := by
  cases q with
  | send event => exact send_apart himpartial hj hlock hm
  | canFire event =>
    refine served_apart (.asked event) .fires (faithful_canFire event)
      (fun _ _ => rfl) (fun l b b' h => ?_) ?_ rfl hj hlock hm
    · subst h
      exact .fires b
    · rw [← e.canFire_eq]
      rfl
  | update updater =>
    refine served_apart .recontexted .stored
      (faithful_recontexting (f := updating updater) (touches_copy updater)
        fun links _ c c' h => updating_mirrors updater h)
      (fun _ _ => rfl) (fun l i i' h => .stored h) ?_ rfl hj hlock hm
    rw [← replaceContext_eq]
    rfl
  | set c =>
    refine served_apart .recontexted .stored
      (faithful_recontexting (f := fun _ => .done c) (fun _ => trivial)
        fun links hown _ _ _ => .done ⟨rfl, hown c.arena (hq c rfl)⟩)
      (fun _ _ => rfl) (fun l i i' h => .stored h) ?_ rfl hj hlock hm
    rw [← replaceContext_eq]
    rfl

end Requests

/-! ## Starts -/

section Starts

variable {d : Definition} {c : Option Context}

/-- A start goes as alone on a context that is alike. -/
theorem settling_apart {a a' : Context} (ha : a.Alike l a')
    (hm : m.Rests n (Place.inside id true l b v)) :
    ((within (d.startAndSettle e.limits a (some id))).plain Entry).Follows
      (separation e w₀ jobs owner) n (fun m' r => m'.lock = m.lock ∧ ∃ l', m'.Rests n
        (Place.inside id true l' b ((d.startAndSettle e.limits a' (some id)).run v).world) ∧
          Agree Eq (Instance.Alike l') r ((d.startAndSettle e.limits a' (some id)).run v).answer)
      m := by
  refine (follows_mirrored (Definition.startAndSettle_mirrors ha d e.limits id) ?_ hm).mono
    fun m' r h => ⟨h.1, l, h.2⟩
  exact (Definition.touches_startAndSettle d e.limits a (some id)).mono fun _ _ h =>
    h.mono fun _ hn => ⟨_, hn ▸ ha.arena⟩

/-- A context that is given is used, or a new one, which stands for the one that is made alone. -/
theorem initiating_apart (hc : ∀ a, c = some a → l a.arena a.arena)
    (hm : m.Rests n (Place.inside id true l b v)) :
    ((within (e.initiating d c id)).plain Entry).Follows (separation e w₀ jobs owner) n
      (fun m' r => m'.lock = m.lock ∧ ∃ l',
        m'.Rests n (Place.inside id true l' b ((e.initiating d c id).run v).world) ∧
          Agree Eq (Instance.Alike l') r ((e.initiating d c id).run v).answer) m := by
  cases c with
  | some a => exact settling_apart ⟨rfl, hc a rfl⟩ hm
  | none =>
    let content : Value := .object []
    let l' : Nat → Nat → Prop := withNew l m.world.env v
    have hnew : Moment.Rests n (Place.inside id true l' b (v.allocate content))
        { m with world := { m.world with env := m.world.env.allocate content } } := by
      obtain ⟨links, hapart, hrolled⟩ := hm.fact
      have hrolled' : Rolled e w₀ jobs
          (Function.update m.stakes n (Place.inside id true l' b (v.allocate content)))
            (marks m.log) :=
        hrolled.place rfl rfl nofun hrolled.inside_self
      exact { hm with fact := ⟨_, hapart.allocate content, hrolled'⟩ }
    have ha : (m.world.env.contexts.allocate content).1.Alike l' (v.contexts.allocate content).1 :=
      ⟨rfl, .inr ⟨rfl, rfl⟩⟩
    exact settling_apart ha hnew

variable {name version : Value}

/-- Once the id is reserved, the instance is stored under it, or the id is given up, as alone. -/
theorem startReservedBy_apart
    (h : Course e w₀ jobs n id j (e.start name version c (some id)) (fun i => .done (.started i))
      fun i => .ok (.started i))
    (hd : b.registry.find name version = .ok d) (hid : id ∉ b.reserved)
    (hc : ∀ a, c = some a → l a.arena a.arena) (hlock : m.lock = none)
    (hm : m.Rests n (Place.inside id true l b b.env)) :
    (startReservedBy e n d c id).Follows (separation e w₀ jobs owner) n (fun m' r =>
      m'.lock = none ∧ Comes id Instance.Alike (fun i => .ok (.started i)) n m' r) m := by
  unfold startReservedBy
  refine Follows.attempt (initiating_apart hc hm) fun m₁ r hr => ?_
  obtain ⟨hlock₁, l', hm₁, hagree⟩ := hr
  obtain ⟨links, hapart, -⟩ := hm₁.fact
  obtain ⟨-, -, -, hnone, hreserved⟩ := hapart.fits_self
  cases r with
  | ok i =>
    obtain ⟨i', hanswer, hij⟩ := hagree.of_ok
    obtain ⟨hrun, hworld⟩ := start_run_ok hd hid hanswer
    have hundefined : m₁.world.definitions.get? id = none := by
      have htables := (hapart.stored id).tables
      rw [hnone] at htables
      exact Option.not_isSome_iff_eq_none.1 (by rw [htables]; exact Bool.false_ne_true)
    refine ⟨hlock₁.trans hlock, comes_served (m := m₁) h hm₁.toFits rfl (served?_self rfl)
      (.store hundefined d i) (fun hmatches => ?_) (congrArg _ hworld) hrun (.ok hij)⟩
    rw [hworld]
    exact (hmatches.work _).store hij hreserved d
  | error f =>
    obtain ⟨f', hanswer, rfl⟩ := hagree.of_error
    obtain ⟨hrun, hworld⟩ := start_run_error hd hid hanswer
    refine ⟨hlock₁.trans hlock, comes_served (m := m₁) h hm₁.toFits rfl (served?_self rfl) .free
      (fun hmatches => ?_) (congrArg _ hworld) hrun (.error rfl)⟩
    rw [hworld]
    exact (hmatches.work _).free hnone

/-- A start is turned away. -/
theorem turnedAway_of_fits (hm : m.Fits n Place.outside) :
    Moment.Fits n (Place.turnedAway id)
      { m with log := .inr ⟨n, some id, .refused false⟩ :: m.log } := by
  have hnoted := fits_unserved (y := ⟨n, some id, .refused false⟩) hm
    fun _ => if_neg fun h => nomatch h.2
  obtain ⟨links, hapart, hrolled⟩ := hnoted.fact
  refine ⟨⟨links, hapart.place rfl rfl trivial, ?_⟩, hm.sole⟩
  refine hrolled.place rfl rfl (fun id' hid' => ?_) nofun
  cases hid'
  rw [marks_inr]
  exact List.mem_append_right _ (List.mem_singleton.2 rfl)

/-- **Starts are served as alone**, unless they are turned away. -/
theorem startBy_apart
    (h : Course e w₀ jobs n id j (e.start name version c (some id)) (fun i => .done (.started i))
      fun i => .ok (.started i))
    (hc : ∀ a, c = some a → Owned w₀ owner id a.arena) (hlock : m.lock = none)
    (hm : m.Rests n Place.outside) :
    (startBy e n name version c (some id)).Follows (separation e w₀ jobs owner) n (fun m' r =>
      m'.lock = none ∧ (Comes id Instance.Alike (fun i => .ok (.started i)) n m' r ∨
        m'.Fits n (Place.turnedAway id) ∧ r = .error (idTaken id) ∧
          ∃ d, w₀.registry.find name version = .ok d)) m := by
  have hasked : ((askRegistry (·.find name version)).plain Entry).Follows
      (separation e w₀ jobs owner) n
      (fun m' r => m' = m ∧ m.world.registry.find name version = r) m := by
    show (plain Entry (Activity.ofExcept (m.world.registry.find name version))).Follows _ n _ m
    cases m.world.registry.find name version <;> exact ⟨rfl, rfl⟩
  refine follows_noting hasked (fun m' d hd => ?_) fun m' f hf => ?_
  · obtain ⟨rfl, hd⟩ := hd
    have hfind : ∀ l b, Matches l id m'.world b → b.registry.find name version = .ok d :=
      fun l b hb => hb.registry ▸ hd
    show Follows _ n _ m' (if id ∈ m'.world.reserved then _ else _)
    split
    next htaken =>
      cases hcontains : m'.world.instances.contains id with
      | true =>
        refine ⟨hlock, .inl (comes_missed h hm.toFits rfl rfl rfl (served?_self rfl)
          (fun l hl => start_run_taken (hfind l _ hl) ?_) rfl)⟩
        exact hl.settled.2 (hl.isSome.trans hcontains)
      | false =>
        obtain ⟨links, hapart, -⟩ := hm.fact
        exact ⟨hlock, .inr ⟨turnedAway_of_fits hm.toFits, rfl, d, hapart.registry ▸ hd⟩⟩
    next hfree =>
      obtain ⟨links, hapart, hrolled⟩ := hm.fact
      obtain ⟨hbase, hreserved⟩ := hapart.reserve hfree
      refine (startReservedBy_apart (m := { m' with world := m'.world.reserve id }) (l := links id) h
        (hfind _ _ (hapart.stored id)) hbase (fun a ha => ?_) hlock ?_).mono
          fun m'' r h => ⟨h.1, .inl h.2⟩
      · have howned := hc a ha
        exact howned.2 ▸ hapart.given a.arena howned.1
      · refine { sole := hm.sole, keeps := hm.keeps, live := trivial, fact := ⟨links, hreserved, ?_⟩ }
        refine hrolled.place rfl rfl nofun fun id' hid' => ?_
        cases hid'
        exact ⟨j, h.job, h.subject⟩
  · obtain ⟨rfl, hf⟩ := hf
    exact ⟨hlock, .inl (comes_missed h hm.toFits rfl rfl rfl (served?_self rfl)
      (fun l hl => start_run_unknown (hl.registry ▸ hf)) rfl)⟩

theorem start_apart {bid : Bid} (hbid : bid.given = some id)
    (hc : ∀ a, c = some a → Owned w₀ owner id a.arena)
    (hj : jobs[n]? = some (.start bid c false)) (hlock : m.lock = none)
    (hm : m.Rests n Place.outside) :
    ((Job.start bid c false).chronicled e n).Follows (separation e w₀ jobs owner) n
      (Moment.Ends n (e.Agreed w₀ jobs n)) m := by
  have hcourse : Course e w₀ jobs n id (.start bid c false)
      (e.start bid.name bid.version c (some id)) (fun i => .done (.started i))
      fun i => .ok (.started i) := by
    refine ⟨hj, hbid, ?_, fun _ _ _ => ⟨rfl, rfl⟩⟩
    rw [← hbid]
    rfl
  have hends : ∀ (m' : Moment (separation e w₀ jobs owner)) (r : Except Failure Instance),
      m'.lock = none ∧ (Comes id Instance.Alike (fun i => .ok (.started i)) n m' r ∨
        m'.Fits n (Place.turnedAway id) ∧ r = .error (idTaken id) ∧
          ∃ d, w₀.registry.find bid.name bid.version = .ok d) →
      Moment.Ends n (e.Agreed w₀ jobs n) m' (r.map .started) := by
    rintro m' r ⟨hlock, hcomes | ⟨hm, rfl, d, hd⟩⟩
    · exact ends_of_comes hcourse (fun l i i' h => .started h) hlock hcomes
    · refine ⟨hlock, _, hm, rfl, _, id, hj, hbid, .inr ⟨rfl, rfl, fun b hregistry hid => ?_⟩⟩
      obtain ⟨hanswer, hworld⟩ := start_run_taken (e := e) (c := c) (hregistry ▸ hd) hid
      rw [hcourse.call, run_bind_of_error hanswer]
      exact ⟨rfl, hworld⟩
  show ((startBy e n bid.name bid.version c bid.given).bind _).Follows _ n _ m
  rw [hbid]
  exact (startBy_apart hcourse hc hlock hm).bind (fun m' i => hends m' (.ok i))
    fun m' f => hends m' (.error f)

end Starts

end Engine

end Workflow
