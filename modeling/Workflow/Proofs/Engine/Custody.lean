import Workflow.Proofs.Activity.InStep
import Workflow.Proofs.Run.Footprint

/-!
# Snapshots in custody

An engine changes what it has stored in few ways: it stores what a start gives, replaces a snapshot
by what an event makes of it, and gives a snapshot another context. So a property of single
snapshots that these ways keep is one of all that an engine ever stores.

**Custody** (`Engine.Custody`). An invariant of engine states, what it says of each snapshot, and
that it is kept so. What starts add is of no concern where only events are sent (`Engine.Lasting`).

Main results: the calls on an engine keep such an invariant wherever other calls may come in
(`Engine.Calm`), whatever observers do.
-/

namespace Workflow

open Activity

namespace Engine

/-- An invariant of engine states that events keep, and what it says of snapshots under an id. -/
structure Lasting (I : EngineState → Prop) (H : String → Instance → Prop) : Prop where
  held : ∀ {w id i}, I w → w.instances.get? id = some i → H id i
  put : ∀ {w id i}, I w → H id i → I (w.setInstance id i)
  /-- Nothing is said about the registry, the ids that are taken and the observers. -/
  aside : ∀ {w w' : EngineState}, I w → w'.instances = w.instances →
    w'.definitions = w.definitions → w'.env = w.env → I w'
  sent : ∀ {id i} d limits event, H id i →
    Steady I (fun out : Dispatch => H id out.reached) (Engine.within (i.send d limits event))

/-- An invariant that all calls keep. -/
structure Custody (I : EngineState → Prop) (H : String → Instance → Prop) : Prop extends
    Lasting I H where
  define : ∀ {w} id d, I w → I { w with definitions := w.definitions.insert id d }
  within : ∀ {α : Type} {t : Activity Realm.flow α}, t.Alters Environment.SameReading →
    Steady I (fun _ => True) (within t)
  started : ∀ (d : Definition) limits c id, Steady I (H id)
    (Engine.within ((contextOrNew c).bind fun c => d.startAndSettle limits c (some id)))
  recontext : ∀ {id i} c, H id i → H id { i with ctx := c }

variable {I : EngineState → Prop} {H : String → Instance → Prop} {e : Engine} {α β : Type}

/-- The call keeps the invariant, wherever other calls may come in. -/
abbrev Calm (I : EngineState → Prop) (t : Call α) : Prop := Steady I (fun _ => True) t

theorem Calm.done (a : α) : Calm I (.done a : Call α) := Steady.done trivial

theorem Calm.bind {t : Call α} {g : α → Call β} (ht : Calm I t) (hg : ∀ a, Calm I (g a)) :
    Calm I (t.bind g) :=
  Steady.bind ht fun a _ => hg a

theorem Calm.ofExcept (r : Except Failure α) : Calm I (Activity.ofExcept r : Call α) :=
  Steady.ofExcept fun _ _ => trivial

/-! ## Questions -/

theorem calm_known (id : String) (table : EngineState → Dict String α) :
    Calm I (known id table) := by
  refine Steady.look fun s _ => ?_
  split
  · exact Calm.done _
  · exact Steady.fail _

theorem calm_definitionOf (id : String) : Calm I (definitionOf id) := calm_known id _

theorem calm_instanceOf (id : String) : Calm I (instanceOf id) := calm_known id _

theorem calm_askRegistry (f : Registry → Except Failure α) : Calm I (askRegistry f) :=
  Steady.look fun _ _ => Calm.ofExcept _

theorem calm_logOf (id : String) : Calm I (logOf id) :=
  (calm_definitionOf id).bind fun _ => (calm_instanceOf id).bind fun _ => .ofExcept _

theorem calm_list (status : Option Status) : Calm I (list status) :=
  Steady.look fun _ _ => Calm.done _

namespace Lasting

variable (h : Lasting I H)
include h

theorem instanceOf (id : String) : Steady I (H id) (instanceOf id) := by
  refine .look fun s hs => ?_
  split
  next i hi => exact .done (h.held hs hi)
  · exact .fail _

theorem changeRegistry (f : Registry → Except Failure α × Registry) : Calm I (changeRegistry f) :=
  Steady.look fun _ _ => Steady.update (fun _ hs => h.aside hs rfl rfl rfl) (Calm.ofExcept _)

theorem subscribe (name : String) : Calm I (subscribe name) :=
  Steady.update (fun _ hs => h.aside hs rfl rfl rfl) (Calm.done ())

theorem unsubscribe (name : String) : Calm I (unsubscribe name) :=
  Steady.update (fun _ hs => h.aside hs rfl rfl rfl) (Calm.done ())

theorem dispatch (e : Engine) (id event : String) :
    Steady I (fun x : Instance × Dispatch => H id x.2.reached) (e.dispatch id event) := by
  refine Steady.bind (calm_definitionOf id) fun d _ => Steady.locked ?_
  refine (h.instanceOf id).bind fun before hbefore => ?_
  refine (h.sent d e.limits event hbefore).bind fun out hout => ?_
  exact Steady.update (fun _ hs => h.put hs hout) (Steady.done hout)

theorem perform {send : String → String → Call Dispatch}
    (hsend : ∀ id event, Calm I (send id event)) (r : Reaction) : Calm I (perform send r) := by
  induction r with
  | done => exact .done ()
  | fail f => exact Steady.fail f
  | note v next ih => exact Steady.report ih
  | yield next ih => exact Calm.bind steady_yield fun _ => ih
  | subscribe name next ih => exact Steady.update (fun _ hs => h.aside hs rfl rfl rfl) ih
  | unsubscribe name next ih => exact Steady.update (fun _ hs => h.aside hs rfl rfl rfl) ih
  | send id event k ih => exact (hsend id event).bind fun outcome => ih outcome

theorem tellAll {send : String → String → Call Dispatch}
    (hsend : ∀ id event, Calm I (send id event)) (n : Notice) (names : List String) :
    Calm I (e.tellAll send n names) := by
  induction names with
  | nil => exact .done ()
  | cons name rest ih =>
    refine (h.perform hsend _).contained.bind fun r _ => ?_
    cases r with
    | ok u => exact ih
    | error f => exact Steady.report ih

theorem announce {send : String → String → Call Dispatch}
    (hsend : ∀ id event, Calm I (send id event)) (event : String) (before : Instance)
    (outcome : Dispatch) : Calm I (e.announce send event before outcome) := by
  unfold Engine.announce
  split
  · exact Steady.look fun s _ => h.tellAll hsend _ s.observers
  · exact .done ()

theorem sendWithin (depth : Nat) (id event : String) :
    Steady I (fun out : Dispatch => H id out.reached) (e.sendWithin depth id event) := by
  induction depth generalizing id event with
  | zero => exact Steady.fail _
  | succ depth ih =>
    refine (h.dispatch e id event).bind fun x hx => ?_
    have hsend : ∀ id event, Calm I (e.sendWithin depth id event) := fun id event =>
      (ih id event).mono fun _ _ => trivial
    exact Steady.bind (h.announce hsend event x.1 x.2) fun _ _ => Steady.done hx

/-- **Events keep the invariant**, and all that observers send on. -/
theorem send (id event : String) :
    Steady I (fun out : Dispatch => H id out.reached) (e.send id event) :=
  h.sendWithin _ id event

end Lasting

namespace Custody

variable (h : Custody I H)
include h

theorem start (e : Engine) (name version : Value) (c : Option Context) (id : Option String) :
    Steady I (fun i => ∃ id, H id i) (e.start name version c id) := by
  refine Steady.bind (calm_askRegistry _) fun d _ => ?_
  have hissued : Calm I (Engine.within (idOrIssued id)) := by
    refine h.within ?_
    cases id with
    | none => exact fun _ => ⟨fun _ => rfl, trivial⟩
    | some id => trivial
  refine Steady.bind hissued fun id _ => Steady.look fun s _ => ?_
  split
  · exact .fail _
  refine Steady.update (fun _ hs => h.aside hs rfl rfl rfl) ?_
  have hfree : ∀ s, I s → I (s.free id) := fun _ hs => h.aside hs rfl rfl rfl
  refine ((h.started d e.limits c id).orElseUndo hfree).bind fun i hi => ?_
  exact Steady.update (fun _ hs => h.define id d (h.put hs hi)) (.done ⟨id, hi⟩)

theorem canFire (id event : String) : Calm I (e.canFire id event) := by
  refine (calm_definitionOf id).bind fun d => Steady.locked ?_
  refine (calm_instanceOf id).bind fun i => h.within ?_
  exact Instance.canFire_alters (fun _ _ => rfl) d event

/-! ## Contexts -/

theorem replaceContext (id : String) {f : Context → Activity Realm.flow Context}
    (hf : ∀ c, (f c).Alters Environment.SameReading) :
    Steady I (H id) (replaceContext id f) := by
  refine Steady.bind (calm_definitionOf id) fun _ _ => Steady.locked ?_
  have hrunning : Steady I (H id) (runningInstance id) := by
    refine (h.instanceOf id).bind fun i hi => ?_
    split
    · exact .done hi
    · exact .fail _
  refine hrunning.bind fun i hi => Steady.bind (h.within (hf i.ctx)) fun c _ => ?_
  have hj := h.recontext c hi
  exact Steady.update (fun _ hs => h.put hs hj) (Steady.done hj)

theorem updateContext (id : String) (updater : Datum → Activity Realm.hook HookAnswer) :
    Steady I (H id) (updateContext id updater) := by
  refine h.replaceContext id fun c => ?_
  have hcopy : (copyContext c).Alters Environment.SameReading := fun _ => ⟨fun _ => rfl, trivial⟩
  refine hcopy.bind fun copy _ => ?_
  exact Alters.bind (Alters.lift Empty.elim (fun _ _ => rfl) _) fun _ _ => trivial

theorem setContext (id : String) (c : Context) : Steady I (H id) (setContext id c) :=
  h.replaceContext id fun _ => trivial

end Custody

end Engine

end Workflow
