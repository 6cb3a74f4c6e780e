import Workflow.Proofs.Engine.Custody
import Workflow.Proofs.Run.History

/-!
# Sound engine states

A stored snapshot names the id it is stored under, and its history is in order and ends with the
occupied state (`Instance.Held`). An engine state is sound if all its snapshots are so
(`EngineState.Sound`).

All calls keep engine states sound wherever other calls may come in, so every state is that an
engine ever comes to (`Engine.sound_custody`).

**Observers** that neither pause nor send events are prompt (`Reaction.Prompt`). Then nothing comes
between a dispatch and what its caller does next: the snapshot that the dispatch gave is still the
stored one (`Engine.send_inStep`).
-/

namespace Workflow

open Activity

/-- The snapshot may stand under an id. -/
structure Instance.Held (id : String) (i : Instance) : Prop where
  id : i.id = id
  recorded : ∃ d, i.Chronicled d

/-- All stored snapshots are held rightly. -/
def EngineState.Sound (s : EngineState) : Prop :=
  ∀ id i, s.instances.get? id = some i → i.Held id

variable {d : Definition} {i j : Instance} {event : Value} {id : String} {limits : Limits}

/-! ## Snapshots -/

theorem Instance.Held.moves (hm : Moves d i event j) (h : i.Held id) : j.Held id := by
  obtain ⟨d', hd'⟩ := h.recorded
  refine ⟨?_, d', hd'.moves hm⟩
  obtain ⟨moment, -, -, -, -, -, -⟩ := hm
  exact h.id

theorem Instance.Held.operation (ho : i.Operation d j) (h : i.Held id) : j.Held id := by
  refine ho.keeps (P := Held id) (fun hm hi => hi.moves hm) (fun e _ hi => ?_) (fun c hi => ?_) h
  · obtain ⟨d', hd'⟩ := hi.recorded
    exact ⟨hi.id, d', hd'.failed e⟩
  · obtain ⟨d', hd'⟩ := hi.recorded
    exact ⟨hi.id, d', hd'.recontext c⟩

theorem Instance.Held.started {c : Context}
    (h : (d.startAndSettle limits c (some id)).CanEnd (.ok i)) : i.Held id := by
  obtain ⟨i₀, hi₀, h⟩ := canEnd_bind_ok h
  obtain ⟨name, hname, hi₀⟩ := canEnd_bind_ok hi₀
  cases hname
  obtain ⟨moment, -, hi₀⟩ := canEnd_bind_ok hi₀
  obtain ⟨-, -, hi₀⟩ := canEnd_bind_ok hi₀
  obtain rfl : i₀ = d.fresh c id moment.text := Except.ok.inj hi₀
  exact Held.operation (.settle h) ⟨rfl, d, .fresh c id moment.text⟩

namespace EngineState

variable {s : EngineState}

theorem Sound.setInstance (h : s.Sound) (hi : i.Held id) : (s.setInstance id i).Sound := by
  intro id' i' hi'
  unfold EngineState.setInstance at hi'
  rw [Dict.get?_insert] at hi'
  split at hi'
  next hid =>
    subst hid
    cases hi'
    exact hi
  next => exact h id' i' hi'

/-- An engine without instances is sound. -/
theorem sound_of_empty (h : s.instances = {}) : s.Sound := by
  intro id i hi
  rw [h] at hi
  cases hi

end EngineState

/-- The reaction neither pauses nor sends events. -/
def Reaction.Prompt : Reaction → Prop
  | .done | .fail _ => True
  | .note _ next | .subscribe _ next | .unsubscribe _ next => next.Prompt
  | .yield _ | .send _ _ _ => False

namespace Engine

variable {e : Engine}

theorem steady_within {α : Type} (t : Activity Realm.flow α) :
    Steady EngineState.Sound (fun a => t.CanEnd (.ok a)) (within t) :=
  .lift Empty.elim (fun _ _ hs => hs) t

/-- **All that an engine stores is held rightly.** -/
theorem sound_custody : Custody EngineState.Sound Instance.Held where
  held hs hi := hs _ _ hi
  put hs hi := hs.setInstance hi
  define _ _ hs := hs
  aside hs hinstances _ _ _ _ hi := hs _ _ (hinstances ▸ hi)
  within _ := (steady_within _).mono fun _ _ => trivial
  started d limits c id := (steady_within _).mono fun i hi => by
    obtain ⟨c', -, hi⟩ := canEnd_bind_ok hi
    exact .started hi
  sent d limits event hi := (steady_within _).mono fun out hout => hi.operation (.send hout)
  recontext c hi := by
    obtain ⟨d', hd'⟩ := hi.recorded
    exact ⟨hi.id, d', hd'.recontext c⟩

/-! ## Events -/

/-- The answer's snapshot is the stored one. -/
def Stored {α : Type} (id : String) (reached : α → Instance) (a : α) (s : EngineState) : Prop :=
  s.instances.get? id = some (reached a) ∧ (reached a).Held id

/-- A dispatch leaves its outcome stored. -/
theorem dispatch_inStep (e : Engine) {s : EngineState} (hs : s.Sound) (id event : String) :
    InStep EngineState.Sound (EndsWith EngineState.Sound (Stored id fun x => x.2.reached)) s
      (e.dispatch id event) (e.dispatch id event) := by
  have hdefinition := calm_definitionOf (I := EngineState.Sound) id s hs
  refine hdefinition.bind (fun d v hv => ?_) fun f v hv => .error hv.world f
  refine .locked hv.world fun v hv => ?_
  have hbefore := sound_custody.instanceOf id v hv
  refine hbefore.bind (fun before v hv => ?_) fun f v hv => .error hv.world f
  have hsend := steady_within (before.send d e.limits event) v hv.world
  refine hsend.bind (fun out v hout => ?_) fun f v hv => .error hv.world f
  have hheld : out.reached.Held id :=
    (hv.answer before rfl).operation (.send (hout.answer out rfl))
  refine .update (.done (.ok (hout.world.setInstance hheld) ⟨?_, hheld⟩))
  unfold EngineState.setInstance
  rw [Dict.get?_insert, if_pos rfl]

/-- The observers that the engine can be told to call are prompt. -/
def PromptObservers (e : Engine) : Prop := ∀ o ∈ e.directory, ∀ n, (o.react n).Prompt

theorem PromptObservers.reactionOf (h : e.PromptObservers) (name : String) (n : Notice) :
    (e.reactionOf name n).Prompt := by
  unfold Engine.reactionOf
  split
  next o ho => exact h o (List.mem_of_find?_eq_some ho) n
  · trivial

/-- An ending with the same instances as before. -/
def SameInstances {α : Type} (before : EngineState) (_ : Except Failure α) (s : EngineState) :
    Prop :=
  s.instances = before.instances

/-- What prompt observers do leaves all instances as they are. -/
theorem perform_inStep {send : String → String → Call Dispatch} {r : Reaction} (hr : r.Prompt)
    {before s : EngineState} (hs : s.instances = before.instances) :
    InStep EngineState.Sound (SameInstances before) s (perform send r) (perform send r) := by
  induction r generalizing s with
  | done => exact .done hs
  | fail f => exact .fail hs
  | note v next ih => exact .report (ih hr hs)
  | yield next ih => exact hr.elim
  | subscribe name next ih => exact .update (ih hr hs)
  | unsubscribe name next ih => exact .update (ih hr hs)
  | send id' event k ih => exact hr.elim

theorem tellAll_inStep (he : e.PromptObservers) {send : String → String → Call Dispatch}
    {n : Notice} (told : List String) {before s : EngineState}
    (hs : s.instances = before.instances) :
    InStep EngineState.Sound (SameInstances before) s (e.tellAll send n told)
      (e.tellAll send n told) := by
  induction told generalizing s with
  | nil => exact .done hs
  | cons name rest ih =>
    have hreaction : InStep EngineState.Sound (SameInstances before) s
        (perform send (e.reactionOf name n)).contained
        (perform send (e.reactionOf name n)).contained :=
      (perform_inStep (he.reactionOf name n) hs).contained (fun _ _ hv => hv) fun _ _ hv => hv
    refine hreaction.bind (fun r v hv => ?_) fun _ _ hv => hv
    cases r with
    | ok u => exact ih hv
    | error f => exact .report (ih hv)

theorem announce_inStep (he : e.PromptObservers) (send : String → String → Call Dispatch)
    (event : String) (before : Instance) (out : Dispatch) (s : EngineState) :
    InStep EngineState.Sound (SameInstances s) s (e.announce send event before out)
      (e.announce send event before out) := by
  unfold announce
  split
  · exact .look (tellAll_inStep he s.observers rfl)
  · exact .done rfl

/-- **With prompt observers, the snapshot that sending gave is still the stored one** when its
caller goes on. -/
theorem send_inStep (he : e.PromptObservers) {s : EngineState} (hs : s.Sound)
    (id event : String) :
    InStep EngineState.Sound (EndsWith EngineState.Sound (Stored id Dispatch.reached)) s
      (e.send id event) (e.send id event) := by
  have hdispatch := dispatch_inStep e hs id event
  refine hdispatch.bind (fun x v hx => ?_) fun f v hv => .error hv.world f
  obtain ⟨hstored, hheld⟩ := hx.answer x rfl
  have sound_of_same : ∀ {v' : EngineState}, v'.instances = v.instances → v'.Sound := by
    intro v' hsame id' i hi
    rw [hsame] at hi
    exact hx.world id' i hi
  have hannounce := announce_inStep he (e.sendWithin e.nesting) event x.1 x.2 v
  refine hannounce.bind (fun _ v' hsame => .done ?_) fun f v' hsame => .error (sound_of_same hsame) f
  exact .ok (sound_of_same hsame) ⟨hsame ▸ hstored, hheld⟩

end Engine

end Workflow
