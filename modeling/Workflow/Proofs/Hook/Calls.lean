import Workflow.Proofs.Hook.Seen
import Workflow.Run.Move

/-!
# Hook calls in order

Which hooks a piece of work calls, in which order, and what comes of each call.

**Calls** (`HookCall`). A guard is called for its truth, every other hook for its effect. A call
carries its result; a call that failed is the hook's raise.

**Chains** (`CallChain`). Calls on one context, each in the world that the one before has left. So
a guard judges what the hooks before it have made of the context. Besides, only the clock is read.

**Rules** (`Calling`). Work makes its calls in a chain, and what they are and how the work ends is
told by a relation. There is a rule for each way of putting work together, so the calls of a whole
operation are read off its parts.
-/

namespace Workflow

open Activity

/-! ## The record -/

/-- The hook that a record says was called. -/
def Record.called? : Record → Option String
  | .called hook => some hook
  | _ => none

/-- The hooks that were called, in order. -/
def calls (records : List Record) : List String := records.filterMap Record.called?

theorem calls_append (earlier later : List Record) :
    calls (earlier ++ later) = calls earlier ++ calls later :=
  List.filterMap_append

variable {α β : Type} {c : Context} {e e₁ e₂ : Environment}

/-- What a hook itself reports are notes. -/
theorem calls_lift (t : Activity Realm.hook α) (n : Nat) (e : Environment) :
    calls ((t.lift (Realm.hookIn n)).run e).reports = [] := by
  induction t generalizing e with
  | done a => rfl
  | fail f => rfl
  | look k ih => exact ih _ e
  | update f next ih => exact ih _
  | report r next ih => exact ih e
  | pause k ih => exact ih .resume e
  | acquire key next ih => exact ih e
  | release key next ih => exact ih e

/-- A call records one hook. -/
theorem Hook.calls_call (h : Hook) (c : Context) (e : Environment) :
    calls ((h.call c).run e).reports = [h.name] :=
  congrArg (h.name :: ·) (calls_lift _ _ e)

theorem Hook.calls_test (h : Hook) (c : Context) (e : Environment) :
    calls ((h.test c).run e).reports = [h.name] := by
  unfold Hook.test
  cases hr : ((h.call c).run e).answer with
  | error f =>
    rw [run_bind_of_error hr]
    exact h.calls_call c e
  | ok answer =>
    rw [run_bind_of_ok hr, calls_append, h.calls_call]
    simp only [run, run_ofExcept]
    rfl

/-! ## Calls and chains -/

/-- A call of a hook, with what came of it. -/
inductive HookCall where
  /-- A guard, and whether it passed. -/
  | guard (hook : Hook) (verdict : Except Failure Bool)
  /-- A hook that is called for its effect. -/
  | effect (role : HookRole) (hook : Hook) (result : Except Failure Unit)

namespace HookCall

def hook : HookCall → Hook
  | .guard hook _ => hook
  | .effect _ hook _ => hook

/-- The part that the hook plays. -/
def role : HookCall → HookRole
  | .guard .. => .guard
  | .effect role .. => role

/-- What the hook raised, if it did. -/
def raised? : HookCall → Option Failure
  | .guard _ (.error f) | .effect _ _ (.error f) => some f
  | _ => none

/-- The call is made in the first world, comes to its result there, and leaves the second. -/
inductive Happens (c : Context) : HookCall → Environment → Environment → Prop
  | guard (hook : Hook) (e : Environment) :
      Happens c (.guard hook ((hook.test c).run e).answer) e ((hook.test c).run e).world
  | effect (role : HookRole) (hook : Hook) (e : Environment) :
      Happens c (.effect role hook (((hook.call c).run e).answer.map fun _ => ())) e
        ((hook.call c).run e).world

end HookCall

/-- Calls on a context, one after the other; the clock may be read before each and at the end. -/
inductive CallChain (c : Context) : Environment → List HookCall → Environment → Prop
  | stop (e : Environment) : CallChain c e [] e
  | tick {e e' : Environment} {cs : List HookCall} :
      CallChain c e.tick cs e' → CallChain c e cs e'
  | call {e e₁ e' : Environment} {call : HookCall} {cs : List HookCall} :
      call.Happens c e e₁ → CallChain c e₁ cs e' → CallChain c e (call :: cs) e'

theorem CallChain.append {cs cs' : List HookCall} (h : CallChain c e cs e₁)
    (h' : CallChain c e₁ cs' e₂) : CallChain c e (cs ++ cs') e₂ := by
  induction h with
  | stop => exact h'
  | tick _ ih => exact .tick (ih h')
  | call hc _ ih => exact .call hc (ih h')

/-! ## Rules -/

/-- Wherever it runs, the work makes its calls in a chain and records them in order; the relation
tells them and the ending. -/
def Calling (c : Context) (Q : List HookCall → Except Failure α → Prop)
    (t : Activity Realm.flow α) : Prop :=
  ∀ e, ∃ cs, CallChain c e cs (t.run e).world ∧
    calls (t.run e).reports = cs.map (·.hook.name) ∧ Q cs (t.run e).answer

namespace Calling

variable {P : List HookCall → Except Failure α → Prop} {Q : List HookCall → Except Failure β → Prop}
  {t : Activity Realm.flow α} {g : α → Activity Realm.flow β}

theorem done {a : α} (h : P [] (.ok a)) : Calling c P (.done a) :=
  fun e => ⟨[], .stop e, rfl, h⟩

theorem fail {f : Failure} (h : P [] (.error f)) : Calling c P (.fail f) :=
  fun e => ⟨[], .stop e, rfl, h⟩

theorem mono {P' : List HookCall → Except Failure α → Prop} (ht : Calling c P t)
    (h : ∀ cs r, P cs r → P' cs r) : Calling c P' t := by
  intro e
  obtain ⟨cs, hchain, hnames, hP⟩ := ht e
  exact ⟨cs, hchain, hnames, h cs _ hP⟩

/-- **The calls of a sequence are those of its parts**; after a failure there are no more. -/
theorem bind (ht : Calling c P t)
    (hok : ∀ cs a, P cs (.ok a) → Calling c (fun cs' r => Q (cs ++ cs') r) (g a))
    (herror : ∀ cs f, P cs (.error f) → Q cs (.error f)) : Calling c Q (t.bind g) := by
  intro e
  obtain ⟨cs, hchain, hnames, hP⟩ := ht e
  cases hr : (t.run e).answer with
  | error f =>
    rw [run_bind_of_error hr]
    exact ⟨cs, hchain, hnames, herror cs f (hr ▸ hP)⟩
  | ok a =>
    obtain ⟨cs', hchain', hnames', hQ⟩ := hok cs a (hr ▸ hP) (t.run e).world
    rw [run_bind_of_ok hr]
    refine ⟨cs ++ cs', hchain.append hchain', ?_, hQ⟩
    rw [calls_append, hnames, hnames', List.map_append]

/-- A failure that is caught becomes an answer; the calls stay the same. -/
theorem caught (ht : Calling c P t)
    {P' : List HookCall → Except Failure (Except Failure α) → Prop}
    (hok : ∀ cs a, P cs (.ok a) → P' cs (.ok (.ok a)))
    (hcaught : ∀ cs f, P cs (.error f) → f.escape = none → P' cs (.ok (.error f)))
    (hescape : ∀ cs f g, P cs (.error f) → f.escape = some g → P' cs (.error g)) :
    Calling c P' t.caught := by
  intro e
  obtain ⟨cs, hchain, hnames, hP⟩ := ht e
  rw [run_caught]
  cases hr : (t.run e).answer with
  | ok a => exact ⟨cs, hchain, hnames, hok cs a (hr ▸ hP)⟩
  | error f =>
    refine ⟨cs, hchain, hnames, ?_⟩
    dsimp only
    cases hf : f.escape with
    | none => exact hcaught cs f (hr ▸ hP) hf
    | some g => exact hescape cs f g (hr ▸ hP) hf

/-- A message in the log is no call. -/
theorem log_bind {g : Unit → Activity Realm.flow β} (level : Level) (message : String)
    (h : Calling c Q (g ())) : Calling c Q ((log level message).bind g) :=
  h

theorem logFailure_bind {g : Unit → Activity Realm.flow β} (level : Level) (message : String)
    (f : Failure) (h : Calling c Q (g ())) : Calling c Q ((logFailure level message f).bind g) := by
  unfold logFailure
  split
  · exact h.log_bind _ _
  · exact h

/-- Nor is reading the clock. -/
theorem readClock_bind {g : Instant → Activity Realm.flow β}
    (h : ∀ moment, Calling c Q (g moment)) : Calling c Q (readClock.bind g) := by
  intro e
  obtain ⟨cs, hchain, hnames, hQ⟩ := h e.clock.now e.tick
  exact ⟨cs, .tick hchain, hnames, hQ⟩

theorem test (guard : Hook) :
    Calling c (fun cs r => cs = [.guard guard r]) (guard.test c) :=
  fun e => ⟨_, .call (.guard guard e) (.stop _), guard.calls_test c e, rfl⟩

theorem call (role : HookRole) (hook : Hook) :
    Calling c (fun cs r => cs = [.effect role hook (r.map fun _ => ())]) (hook.call c) :=
  fun e => ⟨_, .call (.effect role hook e) (.stop _), hook.calls_call c e, rfl⟩

end Calling

end Workflow
