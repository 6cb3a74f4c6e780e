import Workflow.Api.Application
import Workflow.Proofs.Engine.Jobs

/-!
# Errands

Calls on an engine and requests to interfaces before it come in together, in any number and mixed in
any way (`Api.underway`).

**Gifts** (`Errand.gift`). An errand may give a context to an instance: one that came with it, or
one that it makes when it begins. Of no other context does it have a stake.

Main results: `Errand.kept`, that requests go by the rules of the engine as its own calls do, and
`underway_ruled`.
-/

namespace Workflow.Api

open Activity
open Engine (Call Job Stake Serves rules ClaimsOf)

/-- What is asked of an engine, directly or through an interface. -/
inductive Errand where
  | job (j : Job)
  | http (m : Mount) (r : Request)

/-- What comes back. -/
inductive Reply where
  | result (r : Engine.Result)
  | response (r : Response)

/-- What a request asks for, if there is such a thing. -/
def Mount.action? (m : Mount) (r : Request) : Option Action :=
  (m.route? r.path).bind (·.action? r.method)

namespace Action

/-- The first stake of a request for an action. -/
def stake : Action → Stake
  | .startInstance => { hold := .seeker }
  | _ => { hold := .visitor }

/-- The context that an action gives to an instance, if it has made one. -/
def gift (made : Option Nat) (r : Request) : Action → Option (Option String × Nat)
  | .startInstance => made.map (none, ·)
  | .changeContext id =>
    match r.object?.bind ContextOrder.read? with
    | some order => if order.merge then none else made.map (some id, ·)
    | none => none
  | _ => none

end Action

namespace Errand

/-- The call of an errand. -/
def call (e : Engine) : Errand → Call Reply
  | .job j => (j.call e).bind fun r => .done (.result r)
  | .http m r => (m.respond e r).bind fun r => .done (.response r)

/-- The first stake of an errand. -/
def stake : Errand → Stake
  | .job j => j.stake
  | .http m r => ((m.action? r).map Action.stake).getD { hold := .visitor }

/-- The context that an errand gives to an instance, by its arena, with the id of the instance if
that is stored already. The errand may have made the context. -/
def gift (made : Option Nat) : Errand → Option (Option String × Nat)
  | .job j => j.gift made
  | .http m r => (m.action? r).bind (Action.gift made r)

/-- The duty of an errand that begins in a world. -/
def duty (w : EngineState) : Errand → Duty rules Reply
  | .job j => ⟨(j.duty w).during, fun _ _ => True⟩
  | .http m r => ⟨(·.Gives ((Errand.http m r).gift (some w.env.size))), fun _ _ => True⟩

end Errand

/-! ## Requests -/

section Requests

variable {e : Engine} {gift : Option (Option String × Nat)} {x : Stake} {w : EngineState}
  {α β : Type}

/-- The call goes by the rules, if its contexts are those of a gift, and has no lock in the end. -/
def Keeps (gift : Option (Option String × Nat)) (x : Stake) (w : EngineState) (t : Call α) : Prop :=
  t.Abides rules (·.Gives gift) (fun lock _ _ _ => lock = none) none x w

theorem keeps_of_serves {t : Call α} (ht : Serves none x w t) (hx : x.Gives gift) :
    Keeps gift x w t :=
  (Abides.weaken ht fun _ hy => hy ▸ hx).mono fun _ _ _ _ h => h.1

theorem Keeps.bind {t : Call α} {g : α → Call β} (ht : Keeps gift x w t)
    (hg : ∀ y a v, Keeps gift y v (g a)) : Keeps gift x w (t.bind g) := by
  refine Abides.bind ht (fun lock y a v h => ?_) fun _ _ _ _ h => h
  subst h
  exact hg y a v

theorem Keeps.answering {t : Call Response} (ht : Keeps gift x w t)
    (foreseen : Failure → Option Response) : Keeps gift x w (answering t foreseen) := by
  refine Keeps.bind (Abides.contained ht (fun _ _ _ _ h => h) fun _ _ _ _ h => h) fun y r v => ?_
  cases r <;> rfl

theorem keeps_detail (i : Instance) : Keeps gift x w (detail i) := by
  refine Keeps.bind ?_ fun _ _ _ => Keeps.bind (Abides.ofExcept rfl) fun _ _ _ => rfl
  show Keeps gift x w ((Engine.known i.id _).bind _)
  have hknown : ∀ {α : Type} (y : Stake) (v : EngineState) (table : EngineState → Dict String α),
      Keeps gift y v (Engine.known i.id table) := by
    intro α y v table
    unfold Keeps Engine.known
    simp only [Activity.Abides]
    split <;> rfl
  refine (hknown x w _).bind fun y d v => (hknown y v _).bind fun y i v => ?_
  exact Abides.ofExcept rfl

theorem keeps_startInstance (r : Request) :
    Keeps (some (none, w.env.size)) { hold := .seeker } w (Serve.startInstance e r) := by
  unfold Serve.startInstance
  split
  · rfl
  next order _ =>
    refine Engine.newContext_abides _ fun c v hc => ?_
    have hstart : Keeps (some (none, w.env.size)) { hold := .seeker, hands := [c.arena] } v
        (e.start (.text order.definition) (Value.ofOption (order.version.map .int)) (some c)
          order.id) := by
      refine Abides.mono (Engine.start_abides ⟨_, _, order.id⟩ rfl (fun c' hc' => ?_)
        fun y _ hoffers hhands => ?_) fun _ _ _ _ h => h.1
      · cases hc'
        exact List.mem_singleton.2 rfl
      · refine ⟨fun a ha => ?_, by rw [hoffers]; exact nofun⟩
        rcases hhands a ha with hmem | ⟨hnone, -⟩
        · rw [List.mem_singleton.1 hmem, hc]
        · cases hnone
    refine hstart.bind fun y i v => ?_
    exact Keeps.bind (keeps_detail i) fun _ _ _ => rfl

theorem keeps_changeContext (id : String) (r : Request) :
    Keeps ((Action.changeContext id).gift (some w.env.size) r) { hold := .visitor } w
      (Serve.changeContext id r) := by
  unfold Serve.changeContext Action.gift
  cases r.object?.bind ContextOrder.read? with
  | none => rfl
  | some order =>
    refine Keeps.bind ?_ fun y i v => Keeps.bind (keeps_detail i) fun _ _ _ => rfl
    dsimp only
    split
    · exact keeps_of_serves (Engine.serves_updateContext rfl _) ⟨nofun, nofun⟩
    · -- The new context is on offer for the instance.
      refine ⟨{ hold := .visitor, offers := [(id, w.env.size)] },
        .offer id ⟨rfl, rfl, rfl⟩ ⟨_, rfl⟩, ?_⟩
      refine keeps_of_serves (Engine.serves_setContext rfl (List.mem_singleton.2 rfl)) ⟨nofun, ?_⟩
      intro id' a ha
      cases List.mem_singleton.1 ha
      rfl

/-- **What an action does goes by the rules.** -/
theorem keeps_serve (a : Action) (r : Request) :
    Keeps (a.gift (some w.env.size) r) a.stake w (a.serve e r) := by
  have hvisit : ∀ {β : Type} {gift} {t : Call β}, Serves none { hold := .visitor } w t →
      Keeps gift { hold := .visitor } w t := fun ht => keeps_of_serves ht ⟨nofun, nofun⟩
  cases a with
  | startInstance => exact (keeps_startInstance r).answering _
  | changeContext id => exact (keeps_changeContext id r).answering _
  | listDefinitions =>
    refine (hvisit ?_).answering _
    unfold Serve.listDefinitions
    split
    · exact .done _
    · exact (Engine.serves_askRegistry _).bind fun _ _ => .done _
  | showDefinition id =>
    refine (hvisit ?_).answering _
    unfold Serve.showDefinition
    split
    · exact .done _
    · exact (Engine.serves_askRegistry _).bind fun _ _ => .done _
  | showDefinitionGraph id =>
    refine (hvisit ((Engine.serves_askRegistry _).bind fun d v => ?_)).answering _
    dsimp only
    split
    · exact (Serves.ofExcept _).bind fun _ _ => .done _
    split <;> exact .done _
  | listInstances =>
    refine (hvisit ?_).answering _
    unfold Serve.listInstances
    dsimp only
    split
    · exact (Engine.serves_list _).bind fun _ _ => .done _
    split
    · exact (Engine.serves_list _).bind fun _ _ => .done _
    · exact .done _
  | showInstance id =>
    refine (Keeps.bind (hvisit (Engine.serves_known id _)) fun y i v => ?_).answering _
    exact Keeps.bind (keeps_detail i) fun _ _ _ => rfl
  | sendEvent id =>
    refine Keeps.answering ?_ _
    unfold Serve.sendEvent
    split
    · rfl
    · refine Keeps.bind (hvisit (Engine.serves_send rfl id _)) fun y out v => ?_
      exact Keeps.bind (keeps_detail _) fun _ _ _ => rfl
  | askEvent id event =>
    refine (hvisit ((Engine.serves_canFire event).attempt fun answer v => ?_)).answering _
    split
    · exact .done _
    · exact (Serves.ofExcept _).bind fun _ _ => .done _
    · exact .fail _
  | showInstanceGraph id =>
    refine (hvisit ?_).answering _
    refine (Engine.serves_known id _).bind fun i v => (Engine.serves_known id _).bind fun d v => ?_
    exact (Serves.ofExcept _).bind fun _ _ => .done _

/-- **What a request asks for goes by the rules.** -/
theorem keeps_respond (m : Mount) (r : Request) :
    Keeps ((Errand.http m r).gift (some w.env.size)) (Errand.http m r).stake w (m.respond e r) := by
  show Keeps ((m.action? r).bind _) (((m.action? r).map Action.stake).getD _) w (m.respond e r)
  unfold Mount.respond Mount.action?
  cases m.route? r.path with
  | none => rfl
  | some route =>
    cases haction : route.action? r.method with
    | none =>
      simp only [haction, Option.bind_some]
      rfl
    | some a =>
      simp only [haction, Option.bind_some, Option.map_some, Option.getD_some]
      unfold Mount.perform
      split
      · rfl
      split
      · exact keeps_serve a r
      · rfl

end Requests

/-! ## Errands under way -/

namespace Errand

/-- **Every errand keeps to its duty.** -/
theorem kept (e : Engine) (x : Errand) (w : EngineState) :
    (x.duty w).Kept none x.stake w (x.call e) := by
  cases x with
  | job j =>
    refine Abides.bind (j.kept e w) (fun _ _ _ _ h => ?_) fun _ _ _ _ h => ?_
    · exact ⟨h.1, trivial⟩
    · exact ⟨h.1, trivial⟩
  | http m r =>
    refine Abides.bind (keeps_respond m r) (fun _ _ _ _ h => ?_) fun _ _ _ _ h => ?_
    · exact ⟨h, trivial⟩
    · exact ⟨h, trivial⟩

/-- An errand under the rules. -/
def undertaking (e : Engine) (x : Errand) : Undertaking rules Reply :=
  ⟨x.call e, x.stake, x.duty, x.kept e⟩

theorem stake_hold (x : Errand) : x.stake.hold = .visitor ∨ x.stake.hold = .seeker := by
  cases x with
  | job j => exact j.stake_hold
  | http m r =>
    show (((m.action? r).map Action.stake).getD _).hold = _ ∨
      (((m.action? r).map Action.stake).getD _).hold = _
    cases m.action? r with
    | none => exact .inl rfl
    | some a =>
      cases a with
      | startInstance => exact .inr rfl
      | _ => exact .inl rfl

/-- An errand that has not begun has no contexts but the one that came with it. -/
theorem stake_gives (x : Errand) : x.stake.Gives (x.gift none) := by
  cases x with
  | job j => exact j.stake_gives none
  | http m r =>
    show (((m.action? r).map Action.stake).getD _).Gives _
    cases m.action? r with
    | none => exact ⟨nofun, nofun⟩
    | some a => cases a <;> exact ⟨nofun, nofun⟩

/-- An errand that has begun has no contexts but its gift. -/
theorem during_gives {x : Errand} {w : EngineState} {y : Stake} (h : (x.duty w).during y) :
    y.Gives (x.gift (some w.env.size)) := by
  cases x with
  | job j => exact j.during_gives h
  | http m r => exact h

end Errand

/-- The errands at the same time, with turns at the given places. -/
def underway (e : Engine) (w : EngineState) (errands : List Errand) (places : List Nat) :
    Schedule Realm.engine Reply :=
  (Schedule.start w (errands.map (Errand.call e))).turns places

theorem underway_concat {e : Engine} {w : EngineState} {errands : List Errand} (places : List Nat)
    (place : Nat) :
    underway e w errands (places ++ [place]) = (underway e w errands places).turn place :=
  List.foldl_append ..

/-- The errands of a schedule, with their stakes. -/
abbrev Underway (e : Engine) (w : EngineState) (errands : List Errand) (γ : Ghost rules)
    (s : Schedule Realm.engine Reply) : Prop :=
  Ruled (errands.map (Errand.undertaking e)) γ { hold := .visitor } (fun _ => True) (ClaimsOf w) [] s

variable {e : Engine} {w : EngineState}

/-- **However their turns are mixed, the errands keep to the rules.** -/
theorem underway_ruled (hw : w.Tidy) (errands : List Errand) (places : List Nat) :
    ∃ γ, Underway e w errands γ (underway e w errands places) ∧
      ∀ n, γ.begun n = (underway e w errands []).begins n places := by
  have hcalls : errands.map (Errand.call e) =
      (errands.map (Errand.undertaking e)).map Undertaking.call := by
    rw [List.map_map]
    rfl
  have hruled := Engine.ruled_claims hw (errands.map (Errand.undertaking e)) (fun u hu => ?_) places
  · rw [← hcalls] at hruled
    exact hruled
  · obtain ⟨x, -, rfl⟩ := List.mem_map.1 hu
    exact x.stake_hold

end Workflow.Api
