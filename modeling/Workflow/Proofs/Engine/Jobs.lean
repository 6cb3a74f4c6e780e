import Workflow.Proofs.Engine.Abiding

/-!
# Jobs for an engine

The calls that can be made on an engine at the same time (`Engine.Job`), in any number and mixed in
any way (`Engine.atWork`).

Each has a duty under the rules of the engine (`Job.undertaking`). So at every moment the stakes are
as the rules want them (`atWork_ruled`), which is what results about all interleavings are drawn
from.
-/

namespace Workflow

open Activity

namespace Engine

/-- A call on an engine. -/
inductive Job where
  /-- Starts an instance; an abandoned start is cancelled where it first pauses. -/
  | start (bid : Bid) (c : Option Context) (abandoned : Bool)
  | request (id : String) (r : Request)
  | register (d : Definition)
  | registerDocument (doc : Value) (hs : Handlers)
  | unregister (name version : Value)
  | subscribe (name : String)
  | unsubscribe (name : String)
  | snapshot (id : String)
  | definition (id : String)
  | log (id : String)
  | list (status : Option Status)

/-- What a job gives. -/
inductive Result where
  | started (i : Instance)
  | answered (a : Answer)
  /-- Something of no interest here. -/
  | other

/-- A start, or what is left of it. -/
def starting (abandoned : Bool) (t : Call Instance) : Call Result :=
  (if abandoned then t.cancelledAtPause else t).bind fun i => .done (.started i)

/-- A call whose answer is of no interest here. -/
def unheard {α : Type} (t : Call α) : Call Result := t.bind fun _ => .done .other

/-- All contexts of a stake are those of a gift. -/
structure Stake.Gives (gift : Option (Option String × Nat)) (x : Stake) : Prop where
  hands : ∀ a ∈ x.hands, gift = some (none, a)
  offers : ∀ id a, (id, a) ∈ x.offers → gift = some (some id, a)

namespace Job

/-- The call of a job. -/
def call (e : Engine) : Job → Call Result
  | .start bid c abandoned => starting abandoned (e.start bid.name bid.version c bid.given)
  | .request id r => (r.call e id).bind fun a => .done (.answered a)
  | .register d => unheard (Engine.register d)
  | .registerDocument doc hs => unheard (Engine.registerDocument doc hs)
  | .unregister name version => unheard (Engine.unregister name version)
  | .subscribe name => unheard (Engine.subscribe name)
  | .unsubscribe name => unheard (Engine.unsubscribe name)
  | .snapshot id => unheard (instanceOf id)
  | .definition id => unheard (definitionOf id)
  | .log id => unheard (logOf id)
  | .list status => unheard (Engine.list status)

/-- The first stake of a job. -/
def stake : Job → Stake
  | .start _ c _ => { hold := .seeker, hands := (c.map (·.arena)).toList }
  | .request id r => { hold := .visitor, offers := r.offers id }
  | _ => { hold := .visitor }

theorem stake_hold (j : Job) : j.stake.hold = .visitor ∨ j.stake.hold = .seeker := by
  cases j with
  | start => exact .inr rfl
  | _ => exact .inl rfl

/-- The context that a job gives to an instance, by its arena, with the id of the instance if that
is stored already. A start may have made the context. -/
def gift (made : Option Nat) : Job → Option (Option String × Nat)
  | .start _ c _ => ((c.map (·.arena)).or made).map (none, ·)
  | .request id (.set c) => some (some id, c.arena)
  | _ => none

/-- The duty of a job that begins in a world. -/
def duty (j : Job) (w : EngineState) : Duty rules Result :=
  match j with
  | .start bid c abandoned =>
    ⟨fun x => bid.Holds w x ∧ x.Gives ((Job.start bid c abandoned).gift (some w.env.size)),
      fun x r => ∃ r' : Except Failure Instance, r = r'.map .started ∧ bid.Ends w x r'⟩
  | j => ⟨(· = j.stake), fun x _ => x = j.stake⟩

end Job

theorem Serves.unheard {α : Type} {x : Stake} {w : EngineState} {t : Call α}
    (ht : Serves none x w t) : Serves none x w (Engine.unheard t) :=
  ht.bind fun _ _ => .done _

/-- **Every job keeps to its duty.** -/
theorem Job.kept (e : Engine) (j : Job) (w : EngineState) :
    (j.duty w).Kept none j.stake w (j.call e) := by
  cases j with
  | start bid c abandoned =>
    let during := ((Job.start bid c abandoned).duty w).during
    have hstart : (e.start bid.name bid.version c bid.given).Abides rules during
        (fun lock y r _ => lock = none ∧ bid.Ends w y r) none
          (Job.start bid c abandoned).stake w := by
      refine start_abides bid rfl (fun c' hc' => ?_)
        fun y hy hoffers hhands => ⟨hy, fun a ha => ?_, by rw [hoffers]; exact nofun⟩
      · subst hc'
        exact List.mem_singleton.2 rfl
      · rcases hhands a ha with hmem | ⟨rfl, rfl⟩
        · cases c with
          | none => exact absurd hmem List.not_mem_nil
          | some c =>
            cases List.mem_singleton.1 hmem
            rfl
        · rfl
    have hcut : (if abandoned then (e.start bid.name bid.version c bid.given).cancelledAtPause
        else e.start bid.name bid.version c bid.given).Abides rules during
          (fun lock y r _ => lock = none ∧ bid.Ends w y r) none
            (Job.start bid c abandoned).stake w := by
      cases abandoned with
      | true => exact hstart.cancelledAtPause
      | false => exact hstart
    refine hcut.bind (fun lock y i v h => ?_) fun lock y f v h => ?_
    · exact ⟨h.1, .ok i, rfl, h.2⟩
    · exact ⟨h.1, .error f, rfl, h.2⟩
  | request id r => exact (serves_request rfl r (List.Subset.refl _)).bind fun _ _ => .done _
  | register d => exact (serves_changeRegistry _).unheard
  | registerDocument doc hs => exact (serves_changeRegistry _).unheard
  | unregister name version => exact (serves_changeRegistry _).unheard
  | subscribe name => exact (serves_subscribe name).unheard
  | unsubscribe name => exact (serves_unsubscribe name).unheard
  | snapshot id => exact (serves_known id _).unheard
  | definition id => exact (serves_known id _).unheard
  | log id => exact (serves_logOf id).unheard
  | list status => exact (serves_list status).unheard

theorem Job.stake_gives (j : Job) (made : Option Nat) : j.stake.Gives (j.gift made) := by
  cases j with
  | start bid c abandoned =>
    refine ⟨fun a ha => ?_, nofun⟩
    cases c with
    | none => exact absurd ha List.not_mem_nil
    | some c =>
      cases List.mem_singleton.1 ha
      rfl
  | request id r =>
    refine ⟨nofun, fun id' a ha => ?_⟩
    cases r with
    | set c =>
      cases List.mem_singleton.1 ha
      rfl
    | _ => exact absurd ha List.not_mem_nil
  | _ => exact ⟨nofun, nofun⟩

/-- A job has no contexts but its gift. -/
theorem Job.during_gives {j : Job} {w : EngineState} {x : Stake} (h : (j.duty w).during x) :
    x.Gives (j.gift (some w.env.size)) := by
  cases j with
  | start bid c abandoned => exact h.2
  | _ =>
    cases h
    exact Job.stake_gives _ _

/-- A job under the rules. -/
def Job.undertaking (e : Engine) (j : Job) : Undertaking rules Result :=
  ⟨j.call e, j.stake, j.duty, j.kept e⟩

/-- The jobs at the same time, with turns at the given places. -/
def atWork (e : Engine) (w : EngineState) (jobs : List Job) (places : List Nat) :
    Schedule Realm.engine Result :=
  (Schedule.start w (jobs.map (Job.call e))).turns places

/-- The jobs of a schedule, with their stakes. -/
abbrev AtWork (e : Engine) (w : EngineState) (jobs : List Job) (γ : Ghost rules)
    (s : Schedule Realm.engine Result) : Prop :=
  Ruled (jobs.map (Job.undertaking e)) γ { hold := .visitor } (fun _ => True) (ClaimsOf w) [] s

variable {e : Engine} {w : EngineState}

theorem map_call (jobs : List Job) :
    jobs.map (Job.call e) = (jobs.map (Job.undertaking e)).map Undertaking.call := by
  rw [List.map_map]
  rfl

/-- **However their turns are mixed, the jobs keep to the rules.** -/
theorem atWork_ruled (hw : w.Tidy) (jobs : List Job) (places : List Nat) :
    ∃ γ, AtWork e w jobs γ (e.atWork w jobs places) ∧
      ∀ n, γ.begun n = (e.atWork w jobs []).begins n places := by
  have hruled := ruled_claims hw (jobs.map (Job.undertaking e)) (fun u hu => ?_) places
  · rw [← map_call] at hruled
    exact hruled
  · obtain ⟨j, -, rfl⟩ := List.mem_map.1 hu
    exact j.stake_hold

end Engine

end Workflow
