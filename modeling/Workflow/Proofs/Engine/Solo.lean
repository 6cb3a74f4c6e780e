import Workflow.Proofs.Engine.Ledger
import Workflow.Proofs.Engine.Linear
import Workflow.Proofs.Run.Alike

/-!
# Calls alone

What the calls on an instance do when they run alone, and what they do alike wherever the instance
is alike.

**Runs** (`served_run_ok`, `start_run_ok` and their like). A served call runs its work on the stored
snapshot, and stores what it gives; a start stores its instance, or leaves nothing but what its
hooks did.

**Faithful work** (`Engine.Faithful`). It touches the context of its snapshot only, and goes alike
on snapshots that are alike. So do events, questions and changes of contexts.

**Impartial observers** (`Engine.Impartial`). They make no calls, and notices that are alike do not
make a difference to whether they break off, and by which failure (`verdict`).
-/

namespace Workflow

open Activity Environment

/-! ## Reactions without calls -/

namespace Reaction

/-- How a reaction ends that makes no calls. -/
def ending : Reaction → Except Failure Unit
  | .done | .send _ _ _ => .ok ()
  | .fail f => .error f
  | .note _ next | .yield next | .subscribe _ next | .unsubscribe _ next => next.ending

/-- The failure by which it breaks off, if that is not contained. -/
def abort? (r : Reaction) : Option Failure :=
  match r.ending with
  | .error f => if f.isContained then none else some f
  | .ok _ => none

end Reaction

/-- Notices of the same event, on snapshots that are alike. -/
structure Notice.Alike (links : Nat → Nat → Prop) (n n' : Notice) : Prop where
  source : n.source = n'.source
  target : n.target = n'.target
  event : n.event = n'.event
  reached : n.reached.Alike links n'.reached

namespace Engine

variable {e : Engine} {w : EngineState} {id : String} {α β : Type}

/-! ## Runs -/

theorem known_run {table : EngineState → Dict String α} {a : α} (h : (table w).get? id = some a) :
    (known id table).run w = ⟨.ok a, w, []⟩ := by
  unfold known
  simp only [run]
  rw [h]
  rfl

theorem known_run_none {table : EngineState → Dict String α} (h : (table w).get? id = none) :
    (known id table).run w = ⟨.error (.instanceNotFound id), w, []⟩ := by
  unfold known
  simp only [run]
  rw [h]
  rfl

section Served

variable {d : Definition} {i : Instance} {work : Definition → Instance → Activity Realm.flow β}
  {after : β → Option Instance} {b : β} {f : Failure}

theorem served_run_missing (hd : w.definitions.get? id = none) :
    (served id work after).run w = ⟨.error (.instanceNotFound id), w, []⟩ := by
  unfold served
  rw [run_bind, definitionOf, known_run_none hd]
  rfl

/-- What is left of a served call once definition and snapshot are found. -/
theorem served_run (hd : w.definitions.get? id = some d) (hi : w.instances.get? id = some i) :
    (served id work after).run w = ((within (work d i)).bind fun b =>
      match after b with
      | some j => .update (EngineState.setInstance id j) (.done b)
      | none => .done b).run w := by
  unfold served
  rw [run_bind, definitionOf, known_run hd]
  simp only [Outcome.andThen]
  rw [run_locked, run_bind, instanceOf, known_run hi]
  rfl

theorem served_run_ok (after : β → Option Instance) (hd : w.definitions.get? id = some d)
    (hi : w.instances.get? id = some i) (hb : ((work d i).run w.env).answer = .ok b) :
    ((served id work after).run w).answer = .ok b ∧
      ((served id work after).run w).world =
        Ledger.storing id (after b) { w with env := ((work d i).run w.env).world } := by
  obtain ⟨hanswer, hworld⟩ := within_run (work d i) w
  rw [served_run hd hi, run_bind_of_ok (hanswer.trans hb), hworld]
  cases after b <;> exact ⟨rfl, rfl⟩

theorem served_run_error (after : β → Option Instance) (hd : w.definitions.get? id = some d)
    (hi : w.instances.get? id = some i) (hf : ((work d i).run w.env).answer = .error f) :
    ((served id work after).run w).answer = .error f ∧
      ((served id work after).run w).world = { w with env := ((work d i).run w.env).world } := by
  obtain ⟨hanswer, hworld⟩ := within_run (work d i) w
  rw [served_run hd hi, run_bind_of_error (hanswer.trans hf)]
  exact ⟨rfl, hworld⟩

end Served

section Start

variable {d : Definition} {i : Instance} {name version : Value} {c : Option Context} {f : Failure}

theorem start_run_unknown (hf : w.registry.find name version = .error f) :
    ((e.start name version c (some id)).run w).answer = .error f ∧
      ((e.start name version c (some id)).run w).world = w := by
  unfold start askRegistry
  simp only [Activity.bind, run]
  rw [hf]
  exact ⟨rfl, rfl⟩

theorem start_run_taken (hd : w.registry.find name version = .ok d) (hid : id ∈ w.reserved) :
    ((e.start name version c (some id)).run w).answer = .error (idTaken id) ∧
      ((e.start name version c (some id)).run w).world = w := by
  unfold start askRegistry
  simp only [Activity.bind, run]
  rw [hd]
  simp only [Activity.ofExcept, Activity.bind, within, idOrIssued, lift, run, if_pos hid, and_self]

/-- The work of a start, on the given context or a new one. -/
def initiating (e : Engine) (d : Definition) (c : Option Context) (id : String) :
    Activity Realm.flow Instance :=
  (contextOrNew c).bind fun c => d.startAndSettle e.limits c (some id)

/-- A start, once its id is reserved. -/
theorem start_run (hd : w.registry.find name version = .ok d) (hid : id ∉ w.reserved) :
    (e.start name version c (some id)).run w =
      (((within (e.initiating d c id)).orElseUndo (EngineState.free id)).bind fun i =>
        .update (EngineState.store id d i) (.done i)).run (w.reserve id) := by
  unfold start askRegistry
  simp only [Activity.bind, run]
  rw [hd]
  simp only [Activity.ofExcept, Activity.bind, within, idOrIssued, lift, run, if_neg hid]
  rfl

/-- A start without an id goes as one with the id that is issued for it. -/
theorem start_run_issued (hd : w.registry.find name version = .ok d) :
    (e.start name version c none).run w =
      (e.start name version c (some (issuedId (w.env.issued + 1)))).run
        { w with env := { w.env with issued := w.env.issued + 1 } } := by
  unfold start askRegistry
  simp only [Activity.bind, run]
  rw [hd]
  rfl

theorem start_run_ok (hd : w.registry.find name version = .ok d) (hid : id ∉ w.reserved)
    (hi : ((e.initiating d c id).run w.env).answer = .ok i) :
    ((e.start name version c (some id)).run w).answer = .ok i ∧
      ((e.start name version c (some id)).run w).world =
        ({ w with env := ((e.initiating d c id).run w.env).world }.reserve id).store id d i := by
  obtain ⟨hanswer, hworld⟩ := within_run (e.initiating d c id) (w.reserve id)
  obtain ⟨hanswer', hworld'⟩ := run_orElseUndo_of_ok (EngineState.free id) (hanswer.trans hi)
  rw [start_run hd hid, run_bind_of_ok hanswer']
  refine ⟨rfl, ?_⟩
  show EngineState.store id d i _ = _
  rw [hworld', hworld]
  rfl

/-- A start that fails leaves nothing but what its hooks did. -/
theorem start_run_error (hd : w.registry.find name version = .ok d) (hid : id ∉ w.reserved)
    (hf : ((e.initiating d c id).run w.env).answer = .error f) :
    ((e.start name version c (some id)).run w).answer = .error f ∧
      ((e.start name version c (some id)).run w).world =
        { w with env := ((e.initiating d c id).run w.env).world } := by
  obtain ⟨hanswer, hworld⟩ := within_run (e.initiating d c id) (w.reserve id)
  obtain ⟨hanswer', hworld'⟩ := run_orElseUndo_of_error (EngineState.free id) (hanswer.trans hf)
  rw [start_run hd hid, run_bind_of_error hanswer']
  refine ⟨rfl, ?_⟩
  dsimp only
  rw [hworld', hworld]
  simp [EngineState.free, EngineState.reserve]

end Start

/-! ## Faithful work -/

/-- Answers that are alike. -/
inductive Answer.Alike (links : Nat → Nat → Prop) : Answer → Answer → Prop
  | dispatched {out out' : Dispatch} : out.Alike links out' →
      Alike links (.dispatched out) (.dispatched out')
  | fires (b : Bool) : Alike links (.fires b) (.fires b)
  | stored {i j : Instance} : i.Alike links j → Alike links (.stored i) (.stored j)

/-- Results that are alike. -/
inductive Result.Alike (links : Nat → Nat → Prop) : Result → Result → Prop
  | started {i j : Instance} : i.Alike links j → Alike links (.started i) (.started j)
  | answered {a b : Answer} : a.Alike links b → Alike links (.answered a) (.answered b)
  | other : Alike links .other .other

theorem Result.Alike.mono {links links' : Nat → Nat → Prop} {r r' : Result} (h : r.Alike links r')
    (hlinks : ∀ n m, links n m → links' n m) : r.Alike links' r' := by
  cases h with
  | started h => exact .started (h.mono hlinks)
  | answered h =>
    cases h with
    | dispatched h => exact .answered (.dispatched (h.mono hlinks))
    | fires b => exact .answered (.fires b)
    | stored h => exact .answered (.stored (h.mono hlinks))
  | other => exact .other

/-- The work touches the context of its snapshot only, and goes alike on snapshots that are alike,
if the arenas of `own` stand for themselves. What it gives is then related by `B`, and the
snapshots to be stored are alike. -/
structure Faithful (own : Nat → Prop) (B : (Nat → Nat → Prop) → β → β → Prop)
    (work : Definition → Instance → Activity Realm.flow β) (after : β → Option Instance) : Prop where
  touches : ∀ d i, Touches i.ctx (work d i)
  mirrors : ∀ links, (∀ a, own a → links a a) → ∀ d i j, i.Alike links j →
    Mirrors (Linked links) (B links) (work d i) (work d j)
  after : ∀ links b b', B links b b' → Option.Rel (Instance.Alike links) (after b) (after b')

section Faithful

variable {own : Nat → Prop}

theorem faithful_dispatching (event : String) :
    Faithful own (fun links (x y : Instance × Dispatch) =>
      x.1.Alike links y.1 ∧ x.2.Alike links y.2) (e.dispatching event)
      fun x => some x.2.reached where
  touches d i := (Instance.touches_send d e.limits i event).bind fun _ _ => trivial
  mirrors _ _ d _ _ h :=
    (Instance.send_mirrors h d e.limits event).bind fun _ _ hout => .done ⟨h, hout⟩
  after _ _ _ h := .some h.2.reached

theorem faithful_canFire (event : String) :
    Faithful own (fun _ => Eq) (fun d i => i.canFire d event) fun _ => none where
  touches d i := Instance.touches_canFire d i event
  mirrors _ _ d _ _ h := Instance.canFire_mirrors h d event
  after _ _ _ _ := .none

/-- What gives a context touches the old one only, and goes alike on contexts that are alike. -/
theorem faithful_recontexting {f : Context → Activity Realm.flow Context}
    (htouches : ∀ c, Touches c (f c))
    (hmirrors : ∀ links, (∀ a, own a → links a a) → ∀ c c', c.Alike links c' →
      Mirrors (Linked links) (Context.Alike links) (f c) (f c')) :
    Faithful own Instance.Alike (fun _ => recontexting id f) some where
  touches d i := by
    unfold recontexting
    split
    · exact (htouches i.ctx).bind fun _ _ => trivial
    · trivial
  mirrors links hown d i j h := by
    unfold recontexting
    rw [← h.isRunning]
    split
    · exact (hmirrors links hown i.ctx j.ctx h.ctx).bind fun _ _ hc => .done { h with ctx := hc }
    · rw [h.status]
      exact .fail _
  after _ _ _ h := .some h

/-- An updater goes alike on copies of contexts that are alike. -/
theorem updating_mirrors {links : Nat → Nat → Prop} {c c' : Context}
    (updater : Datum → Activity Realm.hook HookAnswer) (hc : c.Alike links c') :
    Mirrors (Linked links) (Context.Alike links) (updating updater c) (updating updater c') := by
  have hcopy : Mirrors (Linked links) (Context.Alike links) (copyContext c) (copyContext c') := by
    refine .look fun w v hw => ?_
    rw [hw.arena _ _ hc.arena, hc.root]
    exact .update (fun w v hw => hw.setArena hc.arena _) (.done ⟨rfl, hc.arena⟩)
  refine hcopy.bind fun copy copy' h => ?_
  rw [h.root]
  refine Mirrors.bind (.lift Empty.elim (fun _ _ hw => hw.arena _ _ h.arena)
    (fun _ _ a hw => hw.setArena h.arena a) _) fun _ _ _ => .done h

end Faithful

/-! ## Impartial observers -/

/-- The observer makes no calls, and breaks off alike on notices that are alike. -/
def Impartial (react : Notice → Reaction) : Prop :=
  ∀ n n', n.Alike (fun _ _ => True) n' → (react n).Quiet ∧ (react n).abort? = (react n').abort?

theorem Impartial.quiet {react : Notice → Reaction} (h : Impartial react) (n : Notice) :
    (react n).Quiet :=
  (h n n ⟨rfl, rfl, rfl, .refl trivial⟩).1

/-- How the telling of observers ends. -/
def verdict (e : Engine) (n : Notice) : List String → Except Failure Unit
  | [] => .ok ()
  | name :: rest =>
    match (e.reactionOf name n).abort? with
    | some f => .error f
    | none => e.verdict n rest

/-- How the telling of an outcome ends. -/
def announced (e : Engine) (names : List String) (event : String) (before : Instance)
    (out : Dispatch) : Except Failure Unit :=
  if isNews before out then
    e.verdict ⟨before.current, out.reached.current, event, out.reached⟩ names
  else .ok ()

section Impartial

variable {links : Nat → Nat → Prop} {names : List String} {n n' : Notice} {before before' : Instance}
  {out out' : Dispatch} {r : Reaction} {send : String → String → Call Dispatch}
  {I : EngineState → Prop}

theorem endsIn_perform (hr : r.Quiet) : (perform send r).EndsIn I r.ending := by
  induction r with
  | done => rfl
  | fail f => rfl
  | note v next ih => exact ih hr
  | yield next ih => exact ih hr
  | subscribe name next ih => exact hr.elim
  | unsubscribe name next ih => exact hr.elim
  | send id event k ih => exact hr.elim

theorem endsIn_tellAll (hquiet : ∀ name ∈ names, (e.reactionOf name n).Quiet) :
    (e.tellAll send n names).EndsIn I (e.verdict n names) := by
  induction names with
  | nil => rfl
  | cons name rest ih =>
    obtain ⟨hname, hrest⟩ := List.forall_mem_cons.1 hquiet
    have hreaction : (perform send (e.reactionOf name n)).contained.EndsIn I _ :=
      (endsIn_perform hname).contained
    unfold verdict Reaction.abort?
    cases hending : (e.reactionOf name n).ending with
    | ok u =>
      rw [hending] at hreaction
      exact hreaction.bind_ok (ih hrest)
    | error f =>
      rw [hending] at hreaction
      dsimp only at hreaction ⊢
      by_cases hf : f.isContained
      · rw [if_pos hf] at hreaction ⊢
        exact hreaction.bind_ok (ih hrest)
      · rw [if_neg hf] at hreaction ⊢
        exact hreaction.bind_error

theorem verdict_alike (himpartial : ∀ name ∈ names, Impartial (e.reactionOf name))
    (h : n.Alike (fun _ _ => True) n') : e.verdict n names = e.verdict n' names := by
  induction names with
  | nil => rfl
  | cons name rest ih =>
    obtain ⟨hname, hrest⟩ := List.forall_mem_cons.1 himpartial
    unfold verdict
    rw [(hname n n' h).2, ih hrest]

theorem isNews_alike (hbefore : before.Alike links before') (hout : out.Alike links out') :
    isNews before out = isNews before' out' := by
  unfold isNews
  rw [hout.transitioned, hout.reached.current, hbefore.current]

theorem announced_alike (himpartial : ∀ name ∈ names, Impartial (e.reactionOf name))
    (event : String) (hbefore : before.Alike links before') (hout : out.Alike links out') :
    e.announced names event before out = e.announced names event before' out' := by
  unfold announced
  rw [isNews_alike hbefore hout]
  split
  · exact verdict_alike himpartial
      ⟨hbefore.current, hout.reached.current, rfl, hout.reached.mono fun _ _ _ => trivial⟩
  · rfl

/-- Where outcomes that are alike are told, the answers are alike. -/
theorem announced_agree (himpartial : ∀ name ∈ names, Impartial (e.reactionOf name))
    (event : String) (hbefore : before.Alike links before') (hout : out.Alike links out') :
    Agree Eq (Result.Alike links)
      ((e.announced names event before out).map fun _ => .answered (.dispatched out))
      ((e.announced names event before' out').map fun _ => .answered (.dispatched out')) := by
  rw [announced_alike himpartial event hbefore hout]
  cases e.announced names event before' out' with
  | ok u => exact .ok (.answered (.dispatched hout))
  | error f => exact .error rfl

/-- Alone, observers are told and the world stays as it is. -/
theorem announce_run (himpartial : ∀ name ∈ w.observers, Impartial (e.reactionOf name))
    (event : String) (before : Instance) (out : Dispatch) :
    ((e.announce send event before out).run w).answer =
        e.announced w.observers event before out ∧
      ((e.announce send event before out).run w).world = w := by
  unfold announce announced
  split
  · refine (endsIn_tellAll (I := fun _ => True) fun name hname => ?_).run trivial
    exact (himpartial name hname).quiet _
  · exact ⟨rfl, rfl⟩

/-- What is told before an answer is given may take its place. -/
theorem announce_closes (himpartial : ∀ name ∈ w.observers, Impartial (e.reactionOf name))
    (event : String) (before : Instance) (out : Dispatch) (a : α) :
    (((e.announce send event before out).bind fun _ => .done a).run w).answer =
        (e.announced w.observers event before out).map (fun _ => a) ∧
      (((e.announce send event before out).bind fun _ => .done a).run w).world = w := by
  obtain ⟨hanswer, hworld⟩ : ((e.announce send event before out).run w).answer =
      e.announced w.observers event before out ∧
        ((e.announce send event before out).run w).world = w :=
    announce_run himpartial event before out
  cases hverdict : e.announced w.observers event before out with
  | ok u =>
    rw [run_bind_of_ok (hanswer.trans hverdict)]
    exact ⟨rfl, hworld⟩
  | error f =>
    rw [run_bind_of_error (hanswer.trans hverdict)]
    exact ⟨rfl, hworld⟩

end Impartial

end Engine

end Workflow
