import Workflow.Proofs.Hook.Calls
import Workflow.Proofs.Run.Candidates
import Workflow.Proofs.Run.Twins

/-!
# The rounds of a dispatch

A dispatch goes in rounds. The first is for the event, each later one for an auto state that was
reached. A round tries guards, and then makes at most one move.

**Blocks** (`Block`). The hooks that a round calls, in order, and the mark of the visit that it adds
to the history, if it comes to that.

**Guards** (`Selects`) are tried in the order of the transitions, up to the first that passes or
raises. **Moves** (`Crosses`) call the exit hook, the action and the entry hook, as far as they are
there, up to the first that raises; the visit is added before the entry hook. `Round` puts the two
together, `Settles` the rounds of settling, and `Dispatches` those of a whole dispatch.

Main result: `send_calls`. The hooks that a dispatch calls are those of its blocks, nothing is
called after the first raise, and the blocks add the visits, one each, but for the last, which may
add none.
-/

namespace Workflow

open Activity

/-- Why a part of a dispatch has no answer: a setback, or a failure that leaves the dispatch. -/
inductive Halt where
  | setback (s : Setback)
  | failure (f : Failure)

/-- A hook that fails is a setback, unless something escapes who is to blame it. -/
def HookFailure.halt (h : HookFailure) : Halt :=
  match h.cause.escape with
  | none => .setback (.hook h)
  | some f => .failure f

/-- A part of a dispatch ends with an answer, or halts. -/
def ending {α : Type} : Except Failure (Except Setback α) → Except Halt α
  | .ok (.ok a) => .ok a
  | .ok (.error s) => .error (.setback s)
  | .error f => .error (.failure f)

/-- The ending of a part where only hooks are setbacks. -/
def hookEnding {α : Type} (r : Except Failure (Except HookFailure α)) : Except Halt α :=
  ending (r.map (·.mapError .hook))

namespace Instance

variable {d : Definition} {i j : Instance} {t : Transition} {ts : List Transition} {event : Value}
  {limits : Limits} {c : Context} {cs cs' : List HookCall}

/-! ## Rounds -/

/-- What a round does: the hooks it calls, and the mark of the visit it adds. -/
structure Block where
  calls : List HookCall
  entry : Option (String × Value × Value) := none

/-- The calls of guards that said no. -/
def refusals (ts : List Transition) : List HookCall :=
  ts.filterMap fun t => t.guard.map (.guard · (.ok false))

/-- The call of the guard that passes; a transition without one is open. -/
def permit (t : Transition) : List HookCall := t.guard.toList.map (.guard · (.ok true))

/-- The call of a hook, where there is one, that goes well. -/
def carriedOut (role : HookRole) (hook : Option Hook) : List HookCall :=
  hook.toList.map (.effect role · (.ok ()))

/-- The guards that are called where transitions are tried in order, and which one is selected. -/
inductive Selects (i : Instance) :
    List Transition → List HookCall → Except Halt (Option Transition) → Prop
  | nothing {ts : List Transition} : (∀ t ∈ ts, t.guard.isSome) →
      Selects i ts (refusals ts) (.ok none)
  | chosen {refused : List Transition} (t : Transition) (rest : List Transition) :
      (∀ r ∈ refused, r.guard.isSome) →
      Selects i (refused ++ t :: rest) (refusals refused ++ permit t) (.ok (some t))
  | raises {refused : List Transition} (t : Transition) (rest : List Transition) {guard : Hook}
      {f : Failure} : (∀ r ∈ refused, r.guard.isSome) → t.guard = some guard →
      Selects i (refused ++ t :: rest) (refusals refused ++ [.guard guard (.error f)])
        (.error (HookFailure.halt ⟨.guard, i.current, f, i⟩))

/-- The hooks that a move calls, the mark of the visit that it adds, and its ending. -/
inductive Crosses (i : Instance) (t : Transition) (source target : State) (event : Value) :
    List HookCall → Option (String × Value × Value) → Except Halt Instance → Prop
  | exit {hook : Hook} {f : Failure} : source.onExit = some hook →
      Crosses i t source target event [.effect .onExit hook (.error f)] none
        (.error (HookFailure.halt ⟨.onExit, source.id, f, i⟩))
  | action {hook : Hook} {f : Failure} : t.action = some hook →
      Crosses i t source target event
        (carriedOut .onExit source.onExit ++ [.effect .action hook (.error f)]) none
        (.error (HookFailure.halt ⟨.action, source.id, f, i⟩))
  | entry {hook : Hook} {f : Failure} (moment : String) : target.onEnter = some hook →
      Crosses i t source target event
        (carriedOut .onExit source.onExit ++ carriedOut .action t.action ++
          [.effect .onEnter hook (.error f)])
        (some (target.id, t.id, event))
        (.error (HookFailure.halt ⟨.onEnter, target.id, f, i.moved t target event moment⟩))
  | moved (moment : String) :
      Crosses i t source target event
        (carriedOut .onExit source.onExit ++ carriedOut .action t.action ++
          carriedOut .onEnter target.onEnter)
        (some (target.id, t.id, event)) (.ok (i.moved t target event moment))

/-- One round of a snapshot in a known state, with the transitions that are tried and the bound, if
it is met. The answer is the moved snapshot, if anything was selected. -/
inductive Round (d : Definition) (i : Instance) (source : State) (event : Value) (met : Option Int)
    (ts : List Transition) : Block → Except Halt (Option Instance) → Prop
  | rests {cs : List HookCall} : Selects i ts cs (.ok none) →
      Round d i source event met ts ⟨cs, none⟩ (.ok none)
  | raises {cs : List HookCall} {halt : Halt} : Selects i ts cs (.error halt) →
      Round d i source event met ts ⟨cs, none⟩ (.error halt)
  | stalled {cs : List HookCall} {t : Transition} {n : Int} : Selects i ts cs (.ok (some t)) →
      met = some n →
      Round d i source event met ts ⟨cs, none⟩ (.error (.setback (.stalled source.id n)))
  | astray {cs : List HookCall} {t : Transition} : Selects i ts cs (.ok (some t)) → met = none →
      d.target? t.target = .ok none →
      Round d i source event met ts ⟨cs, none⟩ (.error (.setback (.stateNotFound t.target d.id)))
  | unkeyed {cs : List HookCall} {t : Transition} {f : Failure} :
      Selects i ts cs (.ok (some t)) → met = none → d.target? t.target = .error f →
      Round d i source event met ts ⟨cs, none⟩ (.error (.failure f))
  | crosses {cs cs' : List HookCall} {t : Transition} {target : State}
      {entry : Option (String × Value × Value)} {r : Except Halt Instance} :
      Selects i ts cs (.ok (some t)) → met = none → d.target? t.target = .ok (some target) →
      Crosses i t source target event cs' entry r →
      Round d i source event met ts ⟨cs ++ cs', entry⟩ (r.map some)

/-- What a round that does not go on leaves of the snapshot. -/
inductive Closes (i : Instance) : Except Halt (Option Instance) → Except Failure Instance → Prop
  | rests : Closes i (.ok none) (.ok i)
  | stops (s : Setback) : Closes i (.error (.setback s)) (.ok ((s.reached i).failed s.cause))
  | leaves (f : Failure) : Closes i (.error (.failure f)) (.error f)

/-- The rounds of settling, after a number of moves and with a number of rounds to go. Each is that
of an auto state. -/
inductive Settles (d : Definition) (bound : Option Int) :
    Nat → Nat → Instance → List Block → Except Failure Instance → Prop
  | exhausted (steps : Nat) (i : Instance) : Settles d bound 0 steps i [] (.error .exhausted)
  | finished {rounds steps : Nat} {i : Instance} : i.status ≠ .running →
      Settles d bound (rounds + 1) steps i [] (.ok i)
  | lost {rounds steps : Nat} {i : Instance} : i.status = .running → d.state? i.current = none →
      Settles d bound (rounds + 1) steps i []
        (.ok (i.failed (.stateNotFound (.text i.current) d.id)))
  | waits {rounds steps : Nat} {i : Instance} {source : State} : i.status = .running →
      d.state? i.current = some source → source.kind ≠ .auto ∨ source.autoTransitions = [] →
      Settles d bound (rounds + 1) steps i [] (.ok i)
  | ends {rounds steps : Nat} {i : Instance} {source : State} {b : Block}
      {r : Except Halt (Option Instance)} {a : Except Failure Instance} : i.status = .running →
      d.state? i.current = some source → source.kind = .auto →
      Round d i source .null (boundMet bound steps) source.autoTransitions b r → Closes i r a →
      Settles d bound (rounds + 1) steps i [b] a
  | goes {rounds steps : Nat} {i j : Instance} {source : State} {b : Block} {bs : List Block}
      {a : Except Failure Instance} : i.status = .running →
      d.state? i.current = some source → source.kind = .auto →
      Round d i source .null (boundMet bound steps) source.autoTransitions b (.ok (some j)) →
      Settles d bound rounds (steps + 1) j bs a →
      Settles d bound (rounds + 1) steps i (b :: bs) a

/-- The rounds of a dispatch: the one for the event, and after a move those of settling. -/
inductive Dispatches (d : Definition) (limits : Limits) (i : Instance) (event : String) :
    List Block → Except Failure Dispatch → Prop
  | idle : i.status ≠ .running ∨ d.state? i.current = none →
      Dispatches d limits i event [] (.ok ⟨i, false⟩)
  | ends {source : State} {b : Block} {r : Except Halt (Option Instance)}
      {a : Except Failure Instance} : i.status = .running → d.state? i.current = some source →
      Round d i source (.text event) none (source.transitionsFor event) b r → Closes i r a →
      Dispatches d limits i event [b] (a.map (⟨·, false⟩))
  | goes {source : State} {j : Instance} {b : Block} {bs : List Block}
      {a : Except Failure Instance} : i.status = .running → d.state? i.current = some source →
      Round d i source (.text event) none (source.transitionsFor event) b (.ok (some j)) →
      Settles d limits.bound limits.budget 0 j bs a →
      Dispatches d limits i event (b :: bs) (a.map (⟨·, true⟩))

/-- The call of a guard that is tried, where there is one, and what comes of it. -/
inductive Passes (i : Instance) (t : Transition) : List HookCall → Except Halt Bool → Prop
  | free : t.guard = none → Passes i t [] (.ok true)
  | judged {guard : Hook} {passed : Bool} : t.guard = some guard →
      Passes i t [.guard guard (.ok passed)] (.ok passed)
  | raises {guard : Hook} {f : Failure} : t.guard = some guard →
      Passes i t [.guard guard (.error f)] (.error (HookFailure.halt ⟨.guard, i.current, f, i⟩))

/-- The call of a hook of a move, where there is one, and what comes of it. -/
inductive Performs (role : HookRole) (state : String) (hook : Option Hook) (reached : Instance) :
    List HookCall → Except Halt Unit → Prop
  | well : Performs role state hook reached (carriedOut role hook) (.ok ())
  | raises {h : Hook} {f : Failure} : hook = some h →
      Performs role state hook reached [.effect role h (.error f)]
        (.error (HookFailure.halt ⟨role, state, f, reached⟩))

end Instance

/-! ## Rules for parts that may halt -/

namespace Calling

variable {α β : Type} {c : Context} {t : Activity Realm.flow α}

/-- What a hook is at fault for is blamed on it. -/
theorem blamed {P : List HookCall → Except Failure α → Prop}
    {Q : List HookCall → Except Halt β → Prop} (role : HookRole) (state : String)
    (reached : Instance) (f : α → β) (ht : Calling c P t)
    (hok : ∀ cs a, P cs (.ok a) → Q cs (.ok (f a)))
    (herror : ∀ cs e, P cs (.error e) →
      Q cs (.error (HookFailure.halt ⟨role, state, e, reached⟩))) :
    Calling c (fun cs r => Q cs (hookEnding r))
      (t.caught.bind fun r => .done ((Instance.blame role state reached r).map f)) := by
  have hcaught : Calling c (fun cs r =>
      Q cs (hookEnding (r.map fun r => (Instance.blame role state reached r).map f)))
      t.caught := by
    refine ht.caught hok (fun cs e he hescape => ?_) fun cs e g he hescape => ?_
    · have hQ := herror cs e he
      simp only [HookFailure.halt, hescape] at hQ
      exact hQ
    · have hQ := herror cs e he
      simp only [HookFailure.halt, hescape] at hQ
      exact hQ
  refine hcaught.bind (fun cs r hr => .done ?_) fun cs e he => he
  rw [List.append_nil]
  exact hr

/-- **A part goes on where the one before has an answer**; otherwise it halts as that one does. -/
theorem whenOk {P : List HookCall → Except Halt α → Prop}
    {Q : List HookCall → Except Halt β → Prop} {t : Activity Realm.flow (Except HookFailure α)}
    {g : α → Activity Realm.flow (Except HookFailure β)}
    (ht : Calling c (fun cs r => P cs (hookEnding r)) t)
    (hok : ∀ cs a, P cs (.ok a) → Calling c (fun cs' r => Q (cs ++ cs') (hookEnding r)) (g a))
    (hhalt : ∀ cs halt, P cs (.error halt) → Q cs (.error halt)) :
    Calling c (fun cs r => Q cs (hookEnding r)) (t.whenOk g) := by
  refine ht.bind (fun cs r hr => ?_) fun cs f hf => hhalt cs _ hf
  cases r with
  | ok a => exact hok cs a hr
  | error h =>
    refine .done ?_
    rw [List.append_nil]
    exact hhalt cs _ hr

end Calling

namespace Instance

variable {d : Definition} {i j : Instance} {t : Transition} {ts : List Transition} {event : Value}
  {limits : Limits} {c : Context} {cs cs' : List HookCall}

/-! ## Guards -/

theorem passes_calling (i : Instance) (t : Transition) :
    Calling i.ctx (fun cs r => Passes i t cs (hookEnding r)) (i.passes t) := by
  unfold passes
  split
  next hg => exact .done (.free hg)
  next guard hg =>
    have htest : Calling i.ctx (fun cs r => cs = [.guard guard r]) (i.testGuard guard) :=
      .test guard
    have hblamed : Calling i.ctx (fun cs r => Passes i t cs (hookEnding r))
        ((i.testGuard guard).caught.bind fun r =>
          .done ((blame .guard i.current i r).map fun passed => passed)) := by
      refine htest.blamed .guard i.current i (fun passed => passed) (fun cs passed h => ?_)
        fun cs f h => ?_
      · exact h ▸ .judged hg
      · exact h ▸ .raises hg
    have hsame : ∀ r, (blame .guard i.current i r).map (fun passed : Bool => passed) =
        blame .guard i.current i r := by
      rintro (f | passed) <;> rfl
    simpa only [hsame] using hblamed

theorem Selects.refused {guard : Hook} {r : Except Halt (Option Transition)}
    (hg : t.guard = some guard) (h : Selects i ts cs r) :
    Selects i (t :: ts) (.guard guard (.ok false) :: cs) r := by
  have hrefused : ∀ ts, refusals (t :: ts) = .guard guard (.ok false) :: refusals ts := by
    intro ts
    simp [refusals, hg]
  have hcons : ∀ ts : List Transition, (∀ r ∈ ts, r.guard.isSome) →
      ∀ r ∈ t :: ts, r.guard.isSome := fun ts h =>
    List.forall_mem_cons.2 ⟨by rw [hg]; rfl, h⟩
  cases h with
  | nothing h =>
    rw [← hrefused]
    exact .nothing (hcons _ h)
  | chosen u rest h =>
    have hchosen : Selects i _ _ _ := .chosen u rest (hcons _ h)
    rw [hrefused] at hchosen
    exact hchosen
  | @raises _ u rest _ f h hguard =>
    have hraises : Selects i _ (_ ++ [.guard _ (.error f)]) _ := .raises u rest (hcons _ h) hguard
    rw [hrefused] at hraises
    exact hraises

theorem Selects.first (i : Instance) (t : Transition) (rest : List Transition) :
    Selects i (t :: rest) (permit t) (.ok (some t)) := by
  have hnone : ∀ r ∈ ([] : List Transition), r.guard.isSome := nofun
  exact .chosen t rest hnone

theorem Selects.firstRaises {guard : Hook} {f : Failure} (hg : t.guard = some guard) :
    Selects i (t :: ts) [.guard guard (.error f)]
      (.error (HookFailure.halt ⟨.guard, i.current, f, i⟩)) := by
  have hnone : ∀ r ∈ ([] : List Transition), r.guard.isSome := nofun
  exact .raises t ts hnone hg

/-- **Selecting calls guards up to the first that does not say no.** -/
theorem select_calling (i : Instance) (ts : List Transition) :
    Calling i.ctx (fun cs r => Selects i ts cs (hookEnding r)) (i.select ts) := by
  induction ts with
  | nil => exact .done (.nothing nofun)
  | cons t rest ih =>
    refine (passes_calling i t).whenOk (Q := Selects i (t :: rest)) (fun cs passed h => ?_)
      fun cs halt h => ?_
    · cases h with
      | free hg =>
        have hpermit : permit t = [] := by simp [permit, hg]
        refine .done ?_
        rw [List.append_nil, ← hpermit]
        exact .first i t rest
      | @judged guard _ hg =>
        cases passed with
        | true =>
          have hpermit : permit t = [.guard guard (.ok true)] := by simp [permit, hg]
          refine .done ?_
          rw [List.append_nil, ← hpermit]
          exact .first i t rest
        | false => exact ih.mono fun cs r h => h.refused hg
    · cases h with
      | raises hg => exact .firstRaises hg

/-! ## Moves -/

theorem runHook_calling (i : Instance) (role : HookRole) (state : String) (hook : Option Hook)
    (reached : Instance) :
    Calling i.ctx (fun cs r => Performs role state hook reached cs (hookEnding r))
      (i.runHook role state hook reached) := by
  cases hook with
  | none => exact .done .well
  | some hook =>
    refine (Calling.call role hook).blamed role state reached (fun _ => ()) (fun cs a h => ?_)
      fun cs e h => ?_
    · exact h ▸ .well
    · exact h ▸ .raises rfl

/-- **A move calls its hooks up to the first that raises**, and adds the visit before the last. -/
theorem moveBetween_calling (i : Instance) (t : Transition) (source target : State)
    (event : Value) :
    Calling i.ctx (fun cs r => ∃ entry, Crosses i t source target event cs entry (hookEnding r))
      (i.moveBetween t source target event) := by
  refine (runHook_calling i .onExit source.id source.onExit i).whenOk
    (Q := fun cs r => ∃ entry, Crosses i t source target event cs entry r)
    (fun exit _ h => ?_) fun cs halt h => ?_
  rotate_left
  · cases h with
    | raises hh => exact ⟨none, .exit hh⟩
  cases h
  refine (runHook_calling i .action source.id t.action i).whenOk
    (Q := fun cs r => ∃ entry, Crosses i t source target event
      (carriedOut .onExit source.onExit ++ cs) entry r)
    (fun action _ h => ?_) fun cs halt h => ?_
  rotate_left
  · cases h with
    | raises hh => exact ⟨none, .action hh⟩
  cases h
  refine .readClock_bind fun moment => .log_bind _ _ ?_
  refine (runHook_calling i .onEnter target.id target.onEnter _).whenOk
    (Q := fun cs r => ∃ entry, Crosses i t source target event
      (carriedOut .onExit source.onExit ++ (carriedOut .action t.action ++ cs)) entry r)
    (fun entry _ h => ?_) fun cs halt h => ?_
  · cases h
    refine .done ⟨some (target.id, t.id, event), ?_⟩
    rw [List.append_nil, ← List.append_assoc]
    exact .moved moment.text
  · cases h with
    | raises hh =>
      refine ⟨some (target.id, t.id, event), ?_⟩
      rw [← List.append_assoc]
      exact .entry moment.text hh

/-- The move of a round, after the guards that selected its transition. -/
theorem move_calling {source : State} (hs : d.state? i.current = some source)
    (hsel : Selects i ts cs (.ok (some t))) :
    Calling i.ctx (fun cs' r => ∃ entry,
      Round d i source event none ts ⟨cs ++ cs', entry⟩ ((ending r).map some))
      (move d i t event) := by
  unfold move
  rw [hs]
  dsimp only
  split
  next f hf =>
    refine .fail ⟨none, ?_⟩
    rw [List.append_nil]
    exact .unkeyed hsel rfl hf
  next hnone =>
    refine .done ⟨none, ?_⟩
    rw [List.append_nil]
    exact .astray hsel rfl hnone
  next target htarget =>
    refine (moveBetween_calling i t source target event).bind (fun cs' r h => .done ?_)
      fun cs' f h => ?_
    · obtain ⟨entry, h⟩ := h
      refine ⟨entry, ?_⟩
      rw [List.append_nil]
      exact .crosses hsel rfl htarget h
    · obtain ⟨entry, h⟩ := h
      exact ⟨entry, .crosses hsel rfl htarget h⟩

/-- A round that goes on has moved along the transition that was selected, and has added the
visit. -/
theorem Round.goes {source : State} {met : Option Int} {b : Block}
    (h : Round d i source event met ts b (.ok (some j))) :
    ∃ t target moment, j = i.moved t target event moment ∧
      b.entry = some (target.id, t.id, event) ∧ d.target? t.target = .ok (some target) ∧
      ∃ guards later, b.calls = guards ++ later ∧ Selects i ts guards (.ok (some t)) := by
  generalize hr : Except.ok (some j) = r at h
  cases h with
  | @crosses _ _ t target _ r hsel _ htarget hcross =>
    cases r with
    | error halt => cases hr
    | ok k =>
      cases hr
      cases hcross with
      | moved moment => exact ⟨t, target, moment, rfl, rfl, htarget, _, _, rfl, hsel⟩
  | _ => cases hr

/-! ## Operations -/

theorem markFailed_calling {P : List HookCall → Except Failure Instance → Prop} {s : Setback}
    (h : P [] (.ok ((s.reached i).failed s.cause))) : Calling c P (i.markFailed s) := by
  have hfailed : Calling c P (.done ((s.reached i).failed s.cause)) := .done h
  cases s <;> exact hfailed.logFailure_bind _ _ _

theorem refuseWith_calling {P : List HookCall → Except Failure Dispatch → Prop} {s : Setback}
    (h : P [] (.ok ⟨(s.reached i).failed s.cause, false⟩)) : Calling c P (i.refuseWith s) := by
  refine (markFailed_calling (P := fun cs a => P cs (a.map (⟨·, false⟩))) h).bind
    (fun cs j hj => .done ?_) fun cs f hf => hf
  rw [List.append_nil]
  exact hj

theorem rest_calling {P : List HookCall → Except Failure Instance → Prop} {steps : Nat}
    (h : P [] (.ok i)) : Calling c P (i.rest steps) := by
  unfold rest
  split
  · exact .log_bind _ _ (.done h)
  · exact .done h

/-- **Settling goes in rounds.** -/
theorem settleFrom_calling (d : Definition) (bound : Option Int) (rounds steps : Nat)
    (i : Instance) :
    Calling i.ctx (fun cs a => ∃ bs : List Block, cs = bs.flatMap (·.calls) ∧
      Settles d bound rounds steps i bs a) (settleFrom d bound rounds steps i) := by
  induction rounds generalizing steps i with
  | zero => exact .fail ⟨[], rfl, .exhausted steps i⟩
  | succ rounds ih =>
    unfold settleFrom
    split
    next hr => exact rest_calling ⟨[], rfl, .finished hr⟩
    next hr =>
    have hr : i.status = .running := by simpa using hr
    split
    next hs => exact markFailed_calling ⟨[], rfl, .lost hr hs⟩
    next source hs =>
    split
    next hwaits => exact rest_calling ⟨[], rfl, .waits hr hs (by simpa using hwaits)⟩
    next hauto =>
    have hk : source.kind = .auto := by simp_all
    have ends : ∀ {b r a},
        Round d i source .null (boundMet bound steps) source.autoTransitions b r →
        Closes i r a → ∃ bs : List Block, b.calls = bs.flatMap (·.calls) ∧
          Settles d bound (rounds + 1) steps i bs a := fun {b} _ _ hb ha =>
      ⟨[b], by simp, .ends hr hs hk hb ha⟩
    refine (select_calling i source.autoTransitions).bind (fun cs r hsel => ?_)
      fun cs f hsel => ends (.raises hsel) (.leaves f)
    rcases r with f | _ | t
    · refine markFailed_calling ?_
      rw [List.append_nil]
      exact ends (.raises hsel) (.stops _)
    · refine rest_calling ?_
      rw [List.append_nil]
      exact ends (.rests hsel) .rests
    dsimp only
    split
    next n hmet =>
      refine markFailed_calling ?_
      rw [List.append_nil]
      exact ends (.stalled hsel hmet) (.stops _)
    next hmet =>
    rw [hmet] at ends
    refine (move_calling hs hsel).bind (fun cs' r h => ?_) fun cs' f h => ?_
    · obtain ⟨entry, h⟩ := h
      rcases r with s | next
      · refine markFailed_calling ?_
        rw [List.append_nil]
        exact ends h (.stops s)
      · have hctx : next.ctx = i.ctx := by
          obtain ⟨t, target, moment, rfl, -⟩ := h.goes
          rfl
        have hrest := ih (steps + 1) next
        rw [hctx] at hrest
        refine hrest.mono fun later a hlater => ?_
        obtain ⟨bs, rfl, hsettles⟩ := hlater
        rw [← hmet] at h
        exact ⟨_ :: bs, (List.append_assoc ..).symm, .goes hr hs hk h hsettles⟩
    · obtain ⟨entry, h⟩ := h
      exact ends h (.leaves f)

/-- **A dispatch goes in rounds**: one for the event, and those of settling. -/
theorem send_calling (d : Definition) (limits : Limits) (i : Instance) (event : String) :
    Calling i.ctx (fun cs a => ∃ bs : List Block, cs = bs.flatMap (·.calls) ∧
      Dispatches d limits i event bs a) (i.send d limits event) := by
  unfold send
  split
  next hr => exact .done ⟨[], rfl, .idle (.inl hr)⟩
  next hr =>
  have hr : i.status = .running := by simpa using hr
  split
  next hs => exact .done ⟨[], rfl, .idle (.inr hs)⟩
  next source hs =>
  have ends : ∀ {b r a}, Round d i source (.text event) none (source.transitionsFor event) b r →
      Closes i r a → ∃ bs : List Block, b.calls = bs.flatMap (·.calls) ∧
        Dispatches d limits i event bs (a.map (⟨·, false⟩)) := fun {b} _ _ hb ha =>
    ⟨[b], by simp, .ends hr hs hb ha⟩
  have untried : source.transitionsFor event = [] →
      Calling i.ctx (fun cs a => ∃ bs : List Block, cs = bs.flatMap (·.calls) ∧
        Dispatches d limits i event bs a) i.refuse := by
    intro hnone
    have hrests : Round d i source (.text event) none (source.transitionsFor event) ⟨[], none⟩
        (.ok none) := by
      rw [hnone]
      exact .rests (.nothing nofun)
    exact .done (ends hrests .rests)
  split
  next hempty =>
    refine untried ?_
    simp [State.transitionsFor, List.isEmpty_iff.1 hempty]
  split
  next hempty => exact .log_bind _ _ (untried (List.isEmpty_iff.1 hempty))
  refine (select_calling i (source.transitionsFor event)).bind (fun cs r hsel => ?_)
    fun cs f hsel => ends (.raises hsel) (.leaves f)
  rcases r with f | _ | t
  · refine refuseWith_calling ?_
    rw [List.append_nil]
    exact ends (.raises hsel) (.stops _)
  · refine .done ?_
    rw [List.append_nil]
    exact ends (.rests hsel) .rests
  refine (move_calling hs hsel).bind (fun cs' r h => ?_) fun cs' f h => ?_
  · obtain ⟨entry, h⟩ := h
    rcases r with s | next
    · refine refuseWith_calling ?_
      rw [List.append_nil]
      exact ends h (.stops s)
    · have hctx : next.ctx = i.ctx := by
        obtain ⟨t, target, moment, rfl, -⟩ := h.goes
        rfl
      have hsettle := settleFrom_calling d limits.bound limits.budget 0 next
      rw [hctx] at hsettle
      have goes : ∀ {later a}, (∃ bs : List Block, later = bs.flatMap (·.calls) ∧
          Settles d limits.bound limits.budget 0 next bs a) →
          ∃ bs : List Block, cs ++ (cs' ++ later) = bs.flatMap (·.calls) ∧
            Dispatches d limits i event bs (a.map (⟨·, true⟩)) := by
        rintro _ a ⟨bs, rfl, hsettles⟩
        exact ⟨_ :: bs, (List.append_assoc ..).symm, .goes hr hs h hsettles⟩
      refine hsettle.bind (fun later settled h => .done ?_) fun later f h => goes h
      rw [List.append_nil]
      exact goes h
  · obtain ⟨entry, h⟩ := h
    exact ends h (.leaves f)

/-! ## What the blocks account for -/

/-- No call but the last has raised. -/
def OnlyLastRaises (cs : List HookCall) : Prop := ∀ c ∈ cs.dropLast, c.raised? = none

/-- No call has raised. -/
def AllWell (cs : List HookCall) : Prop := ∀ c ∈ cs, c.raised? = none

theorem AllWell.append (h : AllWell cs) (h' : AllWell cs') : AllWell (cs ++ cs') :=
  List.forall_mem_append.2 ⟨h, h'⟩

theorem AllWell.onlyLast (h : AllWell cs) : OnlyLastRaises cs :=
  fun c hc => h c ((List.dropLast_sublist cs).mem hc)

theorem AllWell.then_last (h : AllWell cs) (h' : OnlyLastRaises cs') :
    OnlyLastRaises (cs ++ cs') := by
  cases cs' with
  | nil =>
    rw [List.append_nil]
    exact h.onlyLast
  | cons c rest =>
    unfold OnlyLastRaises
    rw [List.dropLast_append_of_ne_nil (List.cons_ne_nil c rest)]
    exact List.forall_mem_append.2 ⟨h, h'⟩

theorem onlyLast_singleton (call : HookCall) : OnlyLastRaises [call] := nofun

theorem allWell_refusals (ts : List Transition) : AllWell (refusals ts) := by
  intro call hc
  obtain ⟨t, -, ht⟩ := List.mem_filterMap.1 hc
  obtain ⟨guard, -, rfl⟩ := Option.map_eq_some_iff.1 ht
  rfl

theorem allWell_permit (t : Transition) : AllWell (permit t) := by
  intro call hc
  obtain ⟨guard, -, rfl⟩ := List.mem_map.1 hc
  rfl

theorem allWell_carriedOut (role : HookRole) (hook : Option Hook) :
    AllWell (carriedOut role hook) := by
  intro call hc
  obtain ⟨h, -, rfl⟩ := List.mem_map.1 hc
  rfl

theorem Selects.allWell {selected : Option Transition} (h : Selects i ts cs (.ok selected)) :
    AllWell cs := by
  cases h with
  | nothing => exact allWell_refusals ts
  | chosen t => exact (allWell_refusals _).append (allWell_permit t)

theorem Selects.onlyLast {r : Except Halt (Option Transition)} (h : Selects i ts cs r) :
    OnlyLastRaises cs := by
  cases h with
  | nothing => exact (allWell_refusals ts).onlyLast
  | chosen t => exact ((allWell_refusals _).append (allWell_permit t)).onlyLast
  | raises => exact (allWell_refusals _).then_last (onlyLast_singleton _)

theorem Crosses.allWell {source target : State} {entry : Option (String × Value × Value)}
    (h : Crosses i t source target event cs entry (.ok j)) : AllWell cs := by
  cases h with
  | moved =>
    have hbefore := (allWell_carriedOut .onExit source.onExit).append
      (allWell_carriedOut .action t.action)
    exact hbefore.append (allWell_carriedOut .onEnter target.onEnter)

theorem Crosses.onlyLast {source target : State} {entry : Option (String × Value × Value)}
    {r : Except Halt Instance} (h : Crosses i t source target event cs entry r) :
    OnlyLastRaises cs := by
  have hbefore := (allWell_carriedOut .onExit source.onExit).append
    (allWell_carriedOut .action t.action)
  cases h with
  | exit => exact onlyLast_singleton _
  | action => exact (allWell_carriedOut _ _).then_last (onlyLast_singleton _)
  | entry => exact hbefore.then_last (onlyLast_singleton _)
  | moved => exact (hbefore.append (allWell_carriedOut .onEnter target.onEnter)).onlyLast

theorem Round.allWell {source : State} {met : Option Int} {b : Block}
    (h : Round d i source event met ts b (.ok (some j))) : AllWell b.calls := by
  generalize hr : Except.ok (some j) = r at h
  cases h with
  | @crosses _ _ _ _ _ r hsel _ _ hcross =>
    cases r with
    | error halt => cases hr
    | ok k => exact hsel.allWell.append hcross.allWell
  | _ => cases hr

theorem Round.onlyLast {source : State} {met : Option Int} {b : Block}
    {r : Except Halt (Option Instance)} (h : Round d i source event met ts b r) :
    OnlyLastRaises b.calls := by
  cases h with
  | rests hsel | raises hsel | stalled hsel | astray hsel | unkeyed hsel => exact hsel.onlyLast
  | crosses hsel _ _ hcross => exact hsel.allWell.then_last hcross.onlyLast

/-! ## Visits -/

theorem halt_of_caught {h : HookFailure} (hc : h.cause.escape = none) :
    h.halt = .setback (.hook h) := by
  simp [HookFailure.halt, hc]

theorem halt_setback {h : HookFailure} {s : Setback} (heq : h.halt = .setback s) :
    s = .hook h := by
  unfold HookFailure.halt at heq
  split at heq <;> cases heq
  rfl

/-- Selecting halts where a guard has raised. -/
theorem Selects.error {halt : Halt} (h : Selects i ts cs (.error halt)) :
    ∃ guard f, cs.getLast? = some (.guard guard (.error f)) ∧
      halt = HookFailure.halt ⟨.guard, i.current, f, i⟩ := by
  cases h with
  | @raises _ t rest guard f =>
    exact ⟨guard, f, by rw [List.getLast?_append]; rfl, rfl⟩

/-- A move halts where a hook has raised: before the target is entered, or its entry hook. -/
theorem Crosses.error {source target : State} {entry : Option (String × Value × Value)}
    {halt : Halt} (h : Crosses i t source target event cs entry (.error halt)) :
    ∃ (f : HookFailure) (hook : Hook), halt = f.halt ∧
      cs.getLast? = some (.effect f.role hook (.error f.cause)) ∧
      (f.role ≠ .onEnter ∧ f.reached = i ∧ entry = none ∨
        f.role = .onEnter ∧ target.onEnter = some hook ∧ entry = some (target.id, t.id, event) ∧
          ∃ moment, f.reached = i.moved t target event moment) := by
  cases h with
  | @exit hook => exact ⟨_, hook, rfl, rfl, .inl ⟨nofun, rfl, rfl⟩⟩
  | @action hook =>
    exact ⟨_, hook, rfl, by rw [List.getLast?_append]; rfl, .inl ⟨nofun, rfl, rfl⟩⟩
  | @entry hook f moment henter =>
    exact ⟨_, hook, rfl, by rw [List.getLast?_append]; rfl,
      .inr ⟨rfl, henter, rfl, moment, rfl⟩⟩

/-- A round that stops has reached the snapshot with the visit that it added, if it did. -/
theorem Round.marks {source : State} {met : Option Int} {b : Block} {s : Setback}
    (h : Round d i source event met ts b (.error (.setback s))) :
    (s.reached i).history.map Visit.mark = i.history.map Visit.mark ++ b.entry.toList := by
  generalize hr : Except.error (Halt.setback s) = r at h
  cases h with
  | rests | unkeyed => cases hr
  | stalled | astray =>
    cases hr
    exact (List.append_nil _).symm
  | raises hsel =>
    obtain ⟨guard, f, -, rfl⟩ := hsel.error
    obtain rfl := halt_setback (Except.error.inj hr).symm
    exact (List.append_nil _).symm
  | @crosses _ _ _ _ _ r hsel _ _ hcross =>
    cases r with
    | ok k => cases hr
    | error halt =>
      obtain ⟨f, hook, rfl, -, hreached⟩ := hcross.error
      obtain rfl := halt_setback (Except.error.inj hr).symm
      show f.reached.history.map Visit.mark = _
      obtain ⟨-, heq, rfl⟩ | ⟨-, -, rfl, moment, heq⟩ := hreached
      · rw [heq]
        exact (List.append_nil _).symm
      · rw [heq]
        exact i.moved_marks _ _ _ moment

/-- Blocks account for what becomes of a snapshot: nothing is called after the first raise, and they
add the visits, one each, but for the last, which may add none. -/
structure Accounts (i : Instance) (bs : List Block) (a : Except Failure Instance) : Prop where
  raises : OnlyLastRaises (bs.flatMap (·.calls))
  entries : ∀ b ∈ bs.dropLast, b.entry.isSome
  marks : ∀ k, a = .ok k →
    k.history.map Visit.mark = i.history.map Visit.mark ++ bs.filterMap (·.entry)

theorem Accounts.nil {a : Except Failure Instance}
    (h : ∀ k, a = .ok k → k.history = i.history) : Accounts i [] a :=
  ⟨nofun, nofun, fun k hk => by rw [h k hk, List.filterMap_nil, List.append_nil]⟩

/-- A round that does not go on accounts for the end. -/
theorem Round.accounts {source : State} {met : Option Int} {b : Block}
    {r : Except Halt (Option Instance)} {a : Except Failure Instance}
    (h : Round d i source event met ts b r) (ha : Closes i r a) : Accounts i [b] a := by
  have hcalls : [b].flatMap (·.calls) = b.calls := List.flatMap_singleton ..
  have hentry : [b].filterMap (·.entry) = b.entry.toList := by
    cases hb : b.entry <;> simp [hb]
  refine ⟨hcalls ▸ h.onlyLast, nofun, fun k hk => ?_⟩
  rw [hentry]
  cases ha with
  | rests =>
    cases hk
    generalize hr : Except.ok none = r at h
    cases h with
    | rests => exact (List.append_nil _).symm
    | @crosses _ _ _ _ _ r => cases r <;> cases hr
    | _ => cases hr
  | stops s =>
    cases hk
    exact h.marks
  | leaves => cases hk

/-- A round that goes on comes before those of what it has reached. -/
theorem Round.accounts_then {source : State} {met : Option Int} {b : Block} {bs : List Block}
    {a : Except Failure Instance} (h : Round d i source event met ts b (.ok (some j)))
    (ha : Accounts j bs a) : Accounts i (b :: bs) a := by
  obtain ⟨t, target, moment, rfl, hb, -⟩ := h.goes
  refine ⟨h.allWell.then_last ha.raises, fun b' hb' => ?_, fun k hk => ?_⟩
  · cases bs with
    | nil => cases hb'
    | cons b'' bs =>
      rcases List.mem_cons.1 hb' with rfl | hb'
      · rw [hb]
        rfl
      · exact ha.entries b' hb'
  · rw [ha.marks k hk, moved_marks, List.append_assoc, List.filterMap_cons_some hb]
    rfl

theorem Settles.accounts {bound : Option Int} {rounds steps : Nat} {bs : List Block}
    {a : Except Failure Instance} (h : Settles d bound rounds steps i bs a) :
    Accounts i bs a := by
  induction h with
  | exhausted => exact .nil nofun
  | finished | waits | lost =>
    refine .nil fun k hk => ?_
    cases hk
    rfl
  | ends _ _ _ hb ha => exact hb.accounts ha
  | goes _ _ _ hb _ ih => exact hb.accounts_then ih

theorem Dispatches.accounts {name : String} {bs : List Block} {a : Except Failure Dispatch}
    (h : Dispatches d limits i name bs a) : Accounts i bs (a.map (·.reached)) := by
  cases h with
  | idle =>
    refine .nil fun k hk => ?_
    cases hk
    rfl
  | @ends _ _ _ a _ _ hb ha =>
    have hmap : (a.map (Dispatch.mk · false)).map (·.reached) = a := by cases a <;> rfl
    rw [hmap]
    exact hb.accounts ha
  | @goes _ _ _ _ a _ _ hb hsettles =>
    have hmap : (a.map (Dispatch.mk · true)).map (·.reached) = a := by cases a <;> rfl
    rw [hmap]
    exact hb.accounts_then hsettles.accounts

/-- **The hooks that a dispatch calls**, round after round. They are called in the order of the
blocks, each in the world that the one before has left; none comes after a raise; and the blocks add
the visits in order, one each, but for the last, which may add none. -/
theorem send_calls (d : Definition) (limits : Limits) (i : Instance) (event : String)
    (e : Environment) : ∃ bs : List Block,
      Dispatches d limits i event bs ((i.send d limits event).run e).answer ∧
      CallChain i.ctx e (bs.flatMap (·.calls)) ((i.send d limits event).run e).world ∧
      calls ((i.send d limits event).run e).reports =
        (bs.flatMap (·.calls)).map (·.hook.name) ∧
      (∀ c ∈ (bs.flatMap (·.calls)).dropLast, c.raised? = none) ∧
      (∀ b ∈ bs.dropLast, b.entry.isSome) ∧
      ∀ out, ((i.send d limits event).run e).answer = .ok out →
        out.reached.history.map Visit.mark =
          i.history.map Visit.mark ++ bs.filterMap (·.entry) := by
  obtain ⟨cs, hchain, hnames, bs, rfl, hdispatches⟩ := send_calling d limits i event e
  have haccounts := hdispatches.accounts
  refine ⟨bs, hdispatches, hchain, hnames, haccounts.raises, haccounts.entries, fun out hout => ?_⟩
  rw [hout] at haccounts
  exact haccounts.marks out.reached rfl

end Instance

end Workflow
