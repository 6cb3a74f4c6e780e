import Workflow.Engine.Basic
import Workflow.Proofs.Schedule.Served

/-!
# The calls on an instance are linearizable

Events, questions and context changes come in for one stored instance at the same time
(`Engine.Request`). They take their turns in any order, and hooks and updaters pause where they
like.

**Linearized** (`Engine.Linearized`). Each call is answered, and the instance is left, as if the
calls had come one after the other, in the order in which they got the lock of the instance.

**Observers** are told after the lock has been given back. What they then do on the engine is not
covered by it: an event that an observer sends is served after those that were waiting before
(`not_linearized_order`). Observers that make no calls of their own do no harm (`Reaction.Quiet`).

Main result: `calls_linearized`. Each call has the shape of a guarded call, so the general result on
calls under one lock applies.
-/

namespace Workflow

open Activity

/-- The reaction makes no calls on the engine. -/
def Reaction.Quiet : Reaction → Prop
  | .done | .fail _ => True
  | .note _ next | .yield next => next.Quiet
  | .subscribe _ _ | .unsubscribe _ _ | .send _ _ _ => False

namespace Engine

/-- A call on a stored instance. -/
inductive Request where
  | send (event : String)
  | canFire (event : String)
  | update (updater : Datum → Activity Realm.hook HookAnswer)
  | set (c : Context)

/-- What a call answers. -/
inductive Answer where
  | dispatched (out : Dispatch)
  | fires (b : Bool)
  | stored (i : Instance)
  deriving DecidableEq

/-- The call that a request makes. -/
def Request.call (e : Engine) (id : String) : Request → Call Answer
  | .send event => (e.send id event).bind fun out => .done (.dispatched out)
  | .canFire event => (e.canFire id event).bind fun b => .done (.fires b)
  | .update updater => (updateContext id updater).bind fun i => .done (.stored i)
  | .set c => (setContext id c).bind fun i => .done (.stored i)

/-- The requests at the same time, with turns at the given places. -/
def together (e : Engine) (id : String) (w : EngineState) (requests : List Request)
    (places : List Nat) : Schedule Realm.engine Answer :=
  (Schedule.start w (requests.map (Request.call e id))).turns places

/-- The requests one after the other, in the order in which they first got the lock in a
schedule. -/
def inOrder (e : Engine) (id : String) (w : EngineState) (requests : List Request)
    (s : Schedule Realm.engine Answer) : List (Nat × Except Failure Answer) × EngineState :=
  serve (requests.map (Request.call e id)) (s.takers id).eraseDups w

/-- In a schedule the requests are answered, and when all is done the instance is left, as if they
had come one after the other. -/
structure Linearized (e : Engine) (id : String) (w : EngineState) (requests : List Request)
    (s : Schedule Realm.engine Answer) : Prop where
  answers : ∀ x ∈ s.finished, x ∈ (inOrder e id w requests s).1
  ended : s.ready = [] → ∀ n < requests.length, ∃ r, (n, r) ∈ s.finished
  snapshot : s.ready = [] →
    s.world.instances.get? id = (inOrder e id w requests s).2.instances.get? id
  content : s.ready = [] → ∀ i, s.world.instances.get? id = some i →
    s.world.env.read i.ctx = (inOrder e id w requests s).2.env.read i.ctx

/-! ## Observers -/

variable {e : Engine} {id : String} {d : Definition} {names : List String}

/-- The instance has its definition, and the observers are these. -/
def Serving (id : String) (d : Definition) (names : List String) (s : EngineState) : Prop :=
  s.definitions.get? id = some d ∧ s.observers = names

theorem quiet_perform {send : String → String → Call Dispatch} {r : Reaction} (hr : r.Quiet) :
    Quiet (Serving id d names) (perform send r) := by
  induction r with
  | done => exact .done ()
  | fail f => exact .fail f
  | note v next ih => exact .report _ (ih hr)
  | yield next ih => exact ih hr
  | subscribe name next ih => exact hr.elim
  | unsubscribe name next ih => exact hr.elim
  | send id' event k ih => exact hr.elim

theorem quiet_tellAll {send : String → String → Call Dispatch} {n : Notice}
    {told : List String} (hquiet : ∀ name ∈ told, (e.reactionOf name n).Quiet) :
    Quiet (Serving id d names) (e.tellAll send n told) := by
  induction told with
  | nil => exact .done ()
  | cons name rest ih =>
    obtain ⟨hname, hrest⟩ := List.forall_mem_cons.1 hquiet
    refine (quiet_perform hname).contained.bind fun r => ?_
    cases r with
    | ok u => exact ih hrest
    | error f => exact .report _ (ih hrest)

theorem quiet_announce {send : String → String → Call Dispatch} {event : String}
    {before : Instance} {outcome : Dispatch}
    (hquiet : ∀ name ∈ names, ∀ n, (e.reactionOf name n).Quiet) :
    Quiet (Serving id d names) (e.announce send event before outcome) := by
  unfold announce
  split
  · let n : Notice := ⟨before.current, outcome.reached.current, event, outcome.reached⟩
    have hall : ∀ name ∈ names, (e.reactionOf name n).Quiet := fun name hname => hquiet name hname n
    obtain ⟨r, hr⟩ : Quiet (Serving id d names) (e.tellAll send n names) := quiet_tellAll hall
    refine ⟨r, fun s hs => ?_⟩
    show (e.tellAll send n s.observers).EndsIn (Serving id d names) r
    rw [hs.2]
    exact hr
  · exact .done ()

/-! ## Calls -/

theorem within_known {α : Type} (I : EngineState → Prop) (table : EngineState → Dict String α) :
    (known id table).Within I := by
  intro s _
  dsimp only
  split <;> trivial

theorem within_within {α : Type} (t : Activity Realm.flow α) :
    (within t).Within (Serving id d names) :=
  .lift Empty.elim (fun _ _ hs => hs) t

/-- A call that looks its definition up and then works under the lock is guarded. -/
theorem guarded_locked {α β : Type} {f : Definition → Call β} {g : β → Call α} {body : Call β}
    (hf : f d = locked id body) (hbody : body.Within (Serving id d names))
    (hg : ∀ b, Quiet (Serving id d names) (g b)) :
    Guarded (Serving id d names) id (((definitionOf id).bind f).bind g) := by
  refine ⟨_, critical id body g, rfl, fun s hs => ?_, β, body, g, rfl, hbody, hg⟩
  dsimp only
  rw [hs.1]
  show (f d).bind g = _
  rw [hf]
  exact locked_bind id body g

theorem guarded_send (hquiet : ∀ name ∈ names, ∀ n, (e.reactionOf name n).Quiet)
    (event : String) : Guarded (Serving id d names) id ((Request.send event).call e id) := by
  have hcall : (Request.send event).call e id = (e.dispatch id event).bind fun x =>
      ((e.announce (e.sendWithin e.nesting) event x.1 x.2).bind fun _ => .done x.2).bind
        fun out => .done (.dispatched out) :=
    Activity.bind_assoc (e.dispatch id event) _ _
  rw [hcall]
  refine guarded_locked rfl ?_ fun x => ?_
  · refine (within_known _ _).bind fun before => (within_within _).bind fun outcome => ?_
    exact ⟨fun _ hs => hs, trivial⟩
  · exact ((quiet_announce hquiet).bind fun _ => .done _).bind fun _ => .done _

theorem guarded_canFire (event : String) :
    Guarded (Serving id d names) id ((Request.canFire event).call e id) :=
  guarded_locked rfl ((within_known _ _).bind fun _ => within_within _) fun _ => .done _

/-- Both ways to change a context. -/
theorem guarded_replaceContext (f : Context → Activity Realm.flow Context) :
    Guarded (Serving id d names) id
      ((replaceContext id f).bind fun i => .done (Answer.stored i)) := by
  refine guarded_locked rfl ?_ fun _ => .done _
  refine Within.bind ?_ fun i => (within_within _).bind fun c => ⟨fun _ hs => hs, trivial⟩
  refine (within_known _ _).bind fun i => ?_
  split <;> trivial

theorem Request.guarded (hquiet : ∀ name ∈ names, ∀ n, (e.reactionOf name n).Quiet)
    (r : Request) : Guarded (Serving id d names) id (r.call e id) := by
  cases r with
  | send event => exact guarded_send hquiet event
  | canFire event => exact guarded_canFire event
  | update updater =>
    unfold Request.call updateContext
    exact guarded_replaceContext _
  | set c =>
    unfold Request.call setContext
    exact guarded_replaceContext _

/-! ## All calls -/

/-- A list without repetitions is not made shorter. -/
theorem eraseDups_of_nodup {l : List Nat} (h : l.Nodup) : l.eraseDups = l := by
  induction l with
  | nil => rfl
  | cons a l ih =>
    obtain ⟨ha, hl⟩ := List.nodup_cons.1 h
    have hfilter : (l.filter fun b => !b == a) = l := by
      refine List.filter_eq_self.2 fun b hb => ?_
      have hne : b ≠ a := fun hba => ha (hba ▸ hb)
      simp [hne]
    rw [List.eraseDups_cons, hfilter, ih hl]

/-- **The calls on a stored instance are linearizable**, if the observers make no calls. Each call
gets the lock once, and when all is done the whole world is as if the calls had come one after the
other. -/
theorem calls_linearized {w : EngineState} (hd : w.definitions.get? id = some d)
    (hquiet : ∀ name ∈ w.observers, ∀ n, (e.reactionOf name n).Quiet) (requests : List Request)
    (places : List Nat) :
    let s := e.together id w requests places
    e.Linearized id w requests s ∧ (s.takers id).Nodup ∧
      (s.ready = [] → s.world = (e.inOrder id w requests s).2) := by
  intro s
  have hguarded : ∀ t ∈ requests.map (Request.call e id),
      Guarded (Serving id d w.observers) id t := by
    intro t ht
    obtain ⟨r, -, rfl⟩ := List.mem_map.1 ht
    exact r.guarded hquiet
  obtain ⟨hnodup, hanswers, hend⟩ := turns_served ⟨hd, rfl⟩ hguarded places
  change (s.takers id).Nodup at hnodup
  have horder : e.inOrder id w requests s =
      serve (requests.map (Request.call e id)) (s.takers id) w := by
    unfold inOrder
    rw [eraseDups_of_nodup hnodup]
  have hworld : s.ready = [] → s.world = (e.inOrder id w requests s).2 := by
    intro hready
    rw [horder]
    exact (hend hready).2
  refine ⟨⟨?_, ?_, ?_, ?_⟩, hnodup, hworld⟩
  · rw [horder]
    exact hanswers
  · intro hready n hn
    exact (hend hready).1 n (by rwa [List.length_map])
  · intro hready
    rw [← hworld hready]
  · intro hready i _
    rw [← hworld hready]

/-! ## A market stall -/

/-- Sells the first item: the hook sees the stock, pauses, and then takes the item off. -/
def sellFirst : Hook where
  name := "sell_first"
  body root := .look fun a =>
    Activity.yield.bind fun _ =>
    match root, a.cell? root with
    | .ref n, some (.list (item :: rest)) =>
      .update (fun a => a.setCell n (.list rest)) (.done (.datum item))
    | _, _ => .fail (.runtime "sold out")

/-- A stall that sells one item for each event, and closes at the end of the day. -/
def stall : Definition where
  id := .text "stall"
  initial := "open"
  states := Dict.ofList [
    ("open", { id := "open", transitions := [
      { target := .text "open", event := .text "sell", action := some sellFirst },
      { target := .text "closed", event := .text "close" }] }),
    ("closed", { id := "closed", kind := .terminal })]

/-- A stall with two items. -/
def stallOpen : Instance := stall.fresh ⟨0, .ref 0⟩ "corner" (Instant.text ⟨0⟩)

/-- A world with the stall, and with observers by name. -/
def market (observers : List String) : EngineState where
  env := {
    contexts := ⟨#[⟨#[.list [.text "cup", .text "lamp"]]⟩]⟩
    clock := { reading := fun n => ⟨n⟩ } }
  instances := Dict.ofList [("corner", stallOpen)]
  definitions := Dict.ofList [("corner", stall)]
  observers := observers

/-- An engine that knows an observer who takes note of each dispatch and pauses. -/
def watched : Engine := { directory := [Observer.ofSteps "watch" [.yield]] }

/-- Two sales and a question at the same time. -/
def rush : List Request := [.send "sell", .canFire "close", .send "sell"]

theorem calls_linearized_stall :
    let s := watched.together "corner" (market ["watch"]) rush [2, 0, 1, 0, 0, 1, 0, 0]
    (market ["watch"]).definitions.get? "corner" = some stall ∧
      (∀ name ∈ (market ["watch"]).observers, ∀ n, (watched.reactionOf name n).Quiet) ∧
      s.ready = [] ∧ watched.Linearized "corner" (market ["watch"]) rush s ∧
      s.takers "corner" = [2, 0, 1] ∧ s.world.env.read stallOpen.ctx = .list [] ∧
      s.world = (watched.inOrder "corner" (market ["watch"]) rush s).2 := by
  intro s
  have hready : s.ready = [] := rfl
  have hd : (market ["watch"]).definitions.get? "corner" = some stall := rfl
  have hquiet : ∀ name ∈ (market ["watch"]).observers, ∀ n, (watched.reactionOf name n).Quiet := by
    intro name hname n
    cases List.mem_singleton.1 hname
    trivial
  obtain ⟨hlinearized, -, hworld⟩ := calls_linearized hd hquiet rush [2, 0, 1, 0, 0, 1, 0, 0]
  exact ⟨hd, hquiet, hready, hlinearized, rfl, rfl, hworld hready⟩

/-! ## An observer that sends events -/

/-- Pauses once. -/
def charge : Hook where
  name := "charge"
  body _ := Activity.yield.bind fun _ => .done (.datum .null)

/-- An order that is paid, and then shipped or cancelled. -/
def order : Definition where
  id := .text "order"
  initial := "placed"
  states := Dict.ofList [
    ("placed", { id := "placed", transitions := [
      { target := .text "paid", event := .text "pay", action := some charge }] }),
    ("paid", { id := "paid", transitions := [
      { target := .text "shipped", event := .text "ship" },
      { target := .text "cancelled", event := .text "cancel" }] }),
    ("shipped", { id := "shipped" }),
    ("cancelled", { id := "cancelled" })]

/-- An engine that knows an observer who has the order shipped on any news of it. -/
def shipping : Engine := { directory := [Observer.ofSteps "clerk" [.send "A1" "ship"]] }

/-- A world with the order and the observer. -/
def orders : EngineState where
  env := { clock := { reading := fun n => ⟨n⟩ } }
  instances := Dict.ofList [("A1", order.fresh ⟨0, .null⟩ "A1" (Instant.text ⟨0⟩))]
  definitions := Dict.ofList [("A1", order)]
  observers := ["clerk"]

/-- Which requests made a move. -/
def moves (answers : List (Nat × Except Failure Answer)) : List (Nat × Bool) :=
  answers.map fun x => (x.1, match x.2 with
    | .ok (.dispatched out) => out.transitioned
    | _ => false)

/-- The cancellation waits while the order is paid, and so comes before the event that the observer
sends. One after the other, the order is shipped before the cancellation comes. -/
theorem not_linearized_order :
    let s := shipping.together "A1" orders [.send "pay", .send "cancel"] [0, 0, 0, 0, 0, 0, 0]
    orders.definitions.get? "A1" = some order ∧ s.ready = [] ∧
      ¬ shipping.Linearized "A1" orders [.send "pay", .send "cancel"] s := by
  intro s
  refine ⟨rfl, rfl, fun h => ?_⟩
  have htogether : (1, true) ∈ moves s.finished := by decide +kernel
  have horder : moves (shipping.inOrder "A1" orders [.send "pay", .send "cancel"] s).1 =
      [(0, true), (1, false)] := by decide +kernel
  obtain ⟨x, hx, hmoved⟩ := List.mem_map.1 htogether
  have hmem : (1, true) ∈ moves (shipping.inOrder "A1" orders [.send "pay", .send "cancel"] s).1 :=
    List.mem_map.2 ⟨x, h.answers x hx, hmoved⟩
  rw [horder] at hmem
  exact absurd hmem (by decide)

end Engine

end Workflow
