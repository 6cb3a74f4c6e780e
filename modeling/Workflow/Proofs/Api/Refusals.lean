import Workflow.Hook.Script
import Workflow.Proofs.Api.Raised

/-!
# Refusals amid other requests

The requests to the routes of the instances are judged by the engine that they find, whatever other
errands are under way, and whatever hooks and observers do.

**Handled requests** (`Handled`). A request is refused with 404 exactly if something is missing when
it begins, and with 409 exactly if something is in the way. If it is refused, none of its turns has
done anything: no hook and no observer was called, the clock was not read, and all that is stored,
registered and reserved was left as it was. What hooks raise is never a refusal. For a start this
takes that the failures of its hooks can be told (`Action.Spoken`).

Main result: `request_handled`. Where versions have no order, or what a hook raises cannot be told,
the answer to a start may be another one (`not_refused_mixed`).
-/

namespace Workflow.Api

open Activity
open Engine (Onward)

/-- The reply is a refusal. -/
abbrev Refused (reply : Except Failure Reply) : Prop := Refuses 404 reply ∨ Refuses 409 reply

section

variable (e : Engine) (w : EngineState) (errands : List Errand)

/-- How the request `n` to the routes of the instances fares, with turns at the given places. -/
structure Handled (n : Nat) (m : Mount) (r : Request) (a : Action) (places : List Nat) : Prop where
  /-- It is judged by the world in which it began, and a context by that in which it is to be changed:
  a refusal comes in the turn in which the snapshot is looked at. -/
  judged : ∀ place reply, (underway e w errands places).next? place = some n →
    (n, reply) ∈ (underway e w errands (places ++ [place])).finished →
    ∃ begun, (underway e w errands []).begins n (places ++ [place]) = some begun ∧
      (a.Spoken r begun → Judged (a.Missing r begun)
        (a.InTheWay r begun (underway e w errands (places ++ [place])).world) reply)
  /-- A request that is refused has done nothing. -/
  stoodBack : ∀ reply, (n, reply) ∈ (underway e w errands places).finished →
    (∀ begun, (underway e w errands []).begins n places = some begun → a.Spoken r begun) →
    Refused reply → Schedule.AllIdle Untouched n (underway e w errands []) places
  /-- What can be seen at once is answered in the first turn. -/
  prompt : ∀ place, (underway e w errands places).next? place = some n →
    (underway e w errands []).begins n places = none →
    let now := (underway e w errands places).world
    a.Missing r now ∨ a = .startInstance ∧ a.InTheWay r now now →
    ∃ reply, (n, reply) ∈ (underway e w errands (places ++ [place])).finished
  /-- If no errand is ready any more, it has been answered. -/
  answered : (underway e w errands places).ready = [] →
    ∃ reply, (n, reply) ∈ (underway e w errands places).finished
  /-- What hooks raise shows in the answer, if the request has the engine for itself. -/
  revealed : a.Reveals e r (underway e w errands places).world fun response =>
    (((Errand.http m r).call e).run (underway e w errands places).world).answer =
      .ok (.response response)

end

variable {reading : Nat → Instant} {e : Engine} {w : EngineState} {errands : List Errand} {n : Nat}
  {m : Mount} {r : Request} {a : Action}

theorem endsAmid_reply {others : EngineState → EngineState → Prop} {v v' : EngineState}
    {reply : Except Failure Reply}
    (h : ((a.work e r).attempt.bind fun x => ofExcept (a.reply x)).EndsAmid others v reply v') :
    ∃ x, (a.work e r).EndsAmid others v x v' ∧ reply = a.reply x := by
  obtain ⟨x, u, hx, hreply⟩ := EndsAmid.attempt h
  obtain ⟨rfl, rfl⟩ := endsAmid_ofExcept.1 hreply
  exact ⟨x, hx, rfl⟩

theorem standsBack_reply {v : EngineState} (hgoes : a.Goes reading e r v) (hspoken : a.Spoken r v) :
    ((a.work e r).attempt.bind fun x => ofExcept (a.reply x)).StandsBack (Onward reading) Untouched
      Refused v := by
  refine (hgoes.standsBack hspoken).attempt (fun x v _ => ?_) fun x v _ hrefusal reply v' hreply => ?_
  · exact (tacit_ofExcept _ v).standsBack
  · rw [(endsAmid_ofExcept.1 hreply).1]
    exact hrefusal

section

variable (htidy : w.Tidy) (hkept : w.WellKept reading) (hengine : a.resource = .engine)
  (hread : a.Readable r)
include htidy hkept hengine hread

/-- **Wherever turns have led**, requests about instances go as they should. -/
theorem underway_goes (places : List Nat) :
    a.Goes reading e r (underway e w errands places).world := by
  obtain ⟨γ, hruled, -⟩ := underway_ruled (e := e) htidy errands places
  refine a.goes hengine hread ?_ hruled.fits.tables
  exact underway_custody (Engine.wellKept_custody reading) hkept errands places

theorem begins_goes {places : List Nat} {v : EngineState}
    (h : (underway e w errands []).begins n places = some v) : a.Goes reading e r v := by
  obtain ⟨before, hbefore⟩ := Schedule.world_of_begins h
  exact hbefore ▸ underway_goes htidy hkept hengine hread before

/-- **Requests about instances are handled as they should be**, however their turns are mixed with
those of other errands. -/
theorem request_handled (hreading : ∀ n, (reading n).Writable)
    (hn : errands[n]? = some (.http m r)) (ha : m.action? r = some a)
    (hresource : m.resource? a.resource.name = some a.resource) (places : List Nat) :
    Handled e w errands n m r a places := by
  have hcall := call_of_action (e := e) ha hresource
  have hkeeping := underway_keeping (e := e) htidy hkept errands
  have hn' : (errands.map (Errand.call e))[n]? =
      some ((a.work e r).attempt.bind fun x => ofExcept (a.reply x)) := by
    rw [List.getElem?_map, hn, ← hcall]
    rfl
  constructor
  · intro place reply hnext hreply
    rw [underway_concat] at hreply ⊢
    obtain ⟨begun, hbegun, hends⟩ := hkeeping.endsAmid_of_turn hn' hnext hreply
    obtain ⟨x, hx, rfl⟩ := endsAmid_reply hends
    have hgoes : a.Goes reading e r begun := begins_goes htidy hkept hengine hread hbegun
    exact ⟨begun, hbegun, fun hspoken => hgoes.judged hspoken x _ hx⟩
  · intro reply hreply hspoken hrefused
    refine Schedule.stoodBack_turns (P := Refused) hkeeping untouched_among hn' (fun v hv => ?_)
      hreply hrefused
    exact standsBack_reply (begins_goes htidy hkept hengine hread hv) (hspoken v hv)
  · intro place hnext hunbegun now hseen
    obtain ⟨t, hplace, heq⟩ := Schedule.turn_of_next hnext
    have hfollowed : Schedule.Followed _ _ n _ ((underway e w errands []).begins n places) :=
      hkeeping.followed hn' places
    rw [hunbegun] at hfollowed
    cases hfollowed.left.ready t (List.mem_of_getElem? hplace)
    have hunbroken : ((a.work e r).attempt.bind fun x => ofExcept (a.reply x)).Unbroken now :=
      ((underway_goes htidy hkept hengine hread places).prompt hseen).attempt.bind fun _ _ =>
        unbroken_ofExcept _ _
    let s := { underway e w errands places with
      ready := (underway e w errands places).ready.eraseIdx place }
    have hfinished := (Schedule.advance_unbroken (s := s) n hunbroken).2.2
    rw [underway_concat, heq, hfinished]
    exact ⟨_, List.mem_cons_self⟩
  · intro hready
    obtain ⟨γ, hruled, -⟩ := underway_ruled (e := e) htidy errands places
    refine hruled.ended hready n ?_
    rw [List.length_map]
    exact (List.getElem?_eq_some_iff.1 hn).1
  · have hnow := underway_custody (e := e) (Engine.wellKept_custody reading) hkept errands places
    refine (a.reveals hnow hreading).mono fun response hresponse => ?_
    rw [hcall, run_bind, run_attempt, hresponse]
    rfl

end

/-! ## A loan at a desk -/

/-- The desk is out of books just when the loan begins. -/
def fetch : Hook := .ofSteps "fetch" true [.yield]

/-- The book does not come back. -/
def shelve : Hook := .ofSteps "shelve" false [.raise (.value "lost")]

/-- A loan that begins in a state, with what is done when the book is fetched and when it is
shelved. -/
def loanFrom (initial : String) (fetching shelving : Hook) : Definition where
  id := .text "loan"
  version := .int 1
  initial := initial
  states := Dict.ofList [
    ("asked", { id := "asked", kind := .auto, transitions := [
      { target := .text "lent", action := some fetching }] }),
    ("lent", { id := "lent", transitions := [
      { target := .text "returned", event := .text "return", action := some shelving }] }),
    ("returned", { id := "returned", kind := .terminal })]

def loan : Definition := loanFrom "asked" fetch shelve

section Hooks

variable {initial : String}

theorem loanFrom_state {key : String} {s : State}
    (hs : (loanFrom initial fetch shelve).state? key = some s) :
    s.onExit = none ∧ s.onEnter = none ∧ ∀ t ∈ s.transitions, t.guard = none ∧
      (t.action = some fetch ∨ t.action = some shelve) ∧ ∃ target, t.target = .text target := by
  have hmem := Dict.get?_ofList_mem hs
  simp only [List.mem_cons, List.not_mem_nil, or_false, Prod.mk.injEq] at hmem
  rcases hmem with ⟨-, rfl⟩ | ⟨-, rfl⟩ | ⟨-, rfl⟩ <;> simp

theorem loanFrom_hook {h : Hook} (hh : (loanFrom initial fetch shelve).HasHook h) :
    h = fetch ∨ h = shelve := by
  cases hh with
  | guard hs ht hg => cases ((loanFrom_state hs).2.2 _ ht).1.symm.trans hg
  | action hs ht ha =>
    rcases ((loanFrom_state hs).2.2 _ ht).2.1 with hfetch | hshelve
    · exact .inl (Option.some.inj (ha.symm.trans hfetch))
    · exact .inr (Option.some.inj (ha.symm.trans hshelve))
  | exit hs he => cases (loanFrom_state hs).1.symm.trans he
  | entry hs he => cases (loanFrom_state hs).2.1.symm.trans he

theorem loanFrom_tame : (loanFrom initial fetch shelve).Tame Hook.Caught where
  hooks h hh := by
    rcases loanFrom_hook hh with rfl | rfl
    · exact fun _ _ _ hf => nomatch hf
    · intro c e f hf
      cases hf
      rfl
  targets hs ht f := by
    obtain ⟨-, -, target, htarget⟩ := (loanFrom_state hs).2.2 _ ht
    rw [htarget]
    nofun

theorem loanFrom_told : (loanFrom initial fetch shelve).Told := by
  intro h hh c f hf
  rcases loanFrom_hook hh with rfl | rfl
  · obtain ⟨signal, hf⟩ := hf
    cases signal <;> cases hf
    nofun
  · cases hf
    exact fun _ => rfl

end Hooks

/-- A desk at which nobody has been yet. -/
def loanDesk : EngineState := { env := { clock := { reading := fun _ => ⟨0⟩ } } }

/-- The request to lend a book. -/
def askForLoan (version : String) : Request where
  method := "POST"
  path := "/workflows/instances"
  body := "\x7b\"definition_id\": \"loan\", \"instance_id\": \"L1\", \"version\": " ++ version ++ "\x7d"

/-- The request to take the book back. -/
def returnLoan : Request where
  method := "POST"
  path := "/workflows/instances/L1/events"
  body := "\x7b\"event\": \"return\"\x7d"

/-- The loan is asked for twice, and returned. Then somebody wants to change it, and somebody looks
for another one. -/
def loanErrands : List Errand :=
  [.job (.register loan), .http {} (askForLoan "1"), .http {} (askForLoan "1"), .http {} returnLoan,
    .http {}
      { method := "PUT", path := "/workflows/instances/L1/context",
        body := "\x7b\"context\": \x7b\x7d\x7d" },
    .http {} { method := "GET", path := "/workflows/instances/L2" }]

/-- The statuses of the responses, the latest first. -/
def statuses (s : Schedule Realm.engine Reply) : List (Nat × Nat) :=
  s.finished.filterMap fun x => match x.2 with
    | .ok (.response response) => some (x.1, response.status)
    | _ => none

/-- An engine that bounds the moves of its instances, and has someone to take note of them. -/
def library : Engine where
  limits := { bound := some 9 }
  directory := [Observer.ofSteps "librarian" []]

/-- A book that has been lent. -/
def lentBook : Instance :=
  (loanFrom "lent" fetch shelve).fresh ⟨0, .null⟩ "L1" (Instant.text ⟨0⟩)

/-- A desk that has lent it. -/
def lentDesk : EngineState where
  env := { clock := { reading := fun _ => ⟨0⟩ }, contexts := ⟨#[⟨#[]⟩]⟩ }
  instances := Dict.ofList [("L1", lentBook)]
  definitions := Dict.ofList [("L1", loanFrom "lent" fetch shelve)]
  reserved := ["L1"]
  observers := ["librarian"]

theorem loanDesk_tidy : loanDesk.Tidy := ⟨rfl, by decide, fun _ => Iff.rfl⟩

theorem lentDesk_wellKept : lentDesk.WellKept fun _ => ⟨0⟩ := by
  refine ⟨rfl, fun id i hi => ?_⟩
  cases List.mem_singleton.1 (Dict.get?_ofList_mem hi)
  exact ⟨⟨rfl, _, .fresh ..⟩, [0], rfl⟩

theorem library_discreet : library.Discreet lentDesk.definitions := by
  refine Engine.discreet_of_contained (fun o ho n => ?_) (fun id d hd => ?_) nofun
  · cases List.mem_singleton.1 ho
    trivial
  · cases List.mem_singleton.1 (Dict.get?_ofList_mem hd)
    exact loanFrom_tame

/-- The loan is handled amid the other errands. Where the book has been lent already, and a
librarian is told of what becomes of it, the answer to its return shows why it is not shelved. -/
theorem request_handled_loan :
    let places := [0, 0, 0, 3, 0, 0, 0]
    loanDesk.Tidy ∧ loanDesk.WellKept (fun _ => ⟨0⟩) ∧ loan.Told ∧
      Handled {} loanDesk loanErrands 2 {} (askForLoan "1") .startInstance places ∧
      Handled {} loanDesk loanErrands 3 {} returnLoan (.sendEvent "L1") places ∧
      statuses (underway {} loanDesk loanErrands places) =
        [(5, 404), (4, 409), (3, 200), (1, 201), (2, 409)] ∧
      lentDesk.Tidy ∧ lentDesk.WellKept (fun _ => ⟨0⟩) ∧ library.Discreet lentDesk.definitions ∧
      ShowsRaised lentBook.ctx lentDesk.env
        (lentBook.send (loanFrom "lent" fetch shelve) library.limits "return")
        (fun f response => ∃ (transitioned : Bool) (b : Value), FailedView f b ∧ response =
          .ok (.object [("transitioned", .bool transitioned), ("instance", b)]))
        (fun response => (((Errand.http {} returnLoan).call library).run lentDesk).answer =
          .ok (.response response)) := by
  intro places
  have hkept : loanDesk.WellKept (fun _ => ⟨0⟩) := EngineState.wellKept_of_empty rfl rfl
  have hreading : ∀ n : Nat, Instant.Writable ((fun _ => ⟨0⟩ : Nat → Instant) n) := fun _ =>
    show Instant.Writable ⟨0⟩ by decide
  have hlent : lentDesk.Tidy := ⟨rfl, by decide, fun _ => Iff.rfl⟩
  refine ⟨loanDesk_tidy, hkept, loanFrom_told, ?_, ?_, by decide +kernel, hlent, lentDesk_wellKept,
    library_discreet, ?_⟩
  · exact request_handled loanDesk_tidy hkept rfl (by decide +kernel) hreading rfl
      (by decide +kernel) (by decide +kernel) places
  · exact request_handled loanDesk_tidy hkept rfl (by decide +kernel) hreading rfl
      (by decide +kernel) (by decide +kernel) places
  · have hhandled : Handled library lentDesk [.http {} returnLoan] 0 {} returnLoan (.sendEvent "L1")
        [] := request_handled hlent lentDesk_wellKept rfl (by decide +kernel) hreading rfl
      (by decide +kernel) (by decide +kernel) []
    exact hhandled.revealed _ _ "return" rfl rfl (by decide +kernel) library_discreet

/-- The loan has two versions that have no order. The second start leaves it open which is meant. -/
def mixedErrands : List Errand :=
  [.job (.register loan), .job (.register { loan with version := .text "x" }),
    .http {} (askForLoan "1"), .http {} (askForLoan "null")]

/-- The loan is asked for, and returned, with these hooks. -/
def hookedErrands (fetching shelving : Hook) : List Errand :=
  [.job (.register (loanFrom "asked" fetching shelving)), .http {} (askForLoan "1"),
    .http {} returnLoan]

/-- The workflow is registered and the id is in use, but which version is meant cannot be told, and
the answer is not a refusal. If a hook fails in a way that cannot be told, a start for an id that is
free is refused, and an event is answered neither with the outcome nor with a refusal. -/
theorem not_refused_mixed :
    let s := underway {} loanDesk mixedErrands [0, 0, 0, 1]
    (loanDesk.Tidy ∧ s.world.registry.Registers (.text "loan") .null ∧
      ((askForLoan "null").object?.bind StartOrder.read?).map
        (fun o => (o.definition, o.id, o.version)) = some ("loan", some "L1", none) ∧
      "L1" ∈ s.world.instances.keys ∧ s.next? 0 = some 3 ∧
      statuses (s.turn 0) = [(3, 500), (2, 201)]) ∧
    tooLong.isContained ∧
    statuses (underway {} loanDesk (hookedErrands (declined tooLong) shelve) [0, 0]) = [(1, 409)] ∧
    statuses (underway {} loanDesk (hookedErrands fetch (declined tooLong)) [0, 0, 1, 0]) =
      [(2, 500), (1, 201)] := by
  intro s
  refine ⟨⟨loanDesk_tidy, ?_, by decide +kernel, by decide +kernel, by decide +kernel, by decide +kernel⟩,
    rfl, by decide +kernel, by decide +kernel⟩
  have hshelf : (s.world.registry.shelves.get? (.text "loan")).map (·.entries.isEmpty) =
      some false := by decide +kernel
  obtain ⟨shelf, hshelf, hentries⟩ := Option.map_eq_some_iff.1 hshelf
  refine ⟨_, shelf, rfl, hshelf, ?_, .inl rfl⟩
  simpa using hentries

end Workflow.Api
