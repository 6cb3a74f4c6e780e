import Workflow.Activity.Basic
import Workflow.Context.Basic
import Workflow.Failure.Wording
import Workflow.Time.Instant

/-!
# Hooks

Guards, actions, and entry and exit hooks are named activities on the arena of one context. By
their realm they can change that arena, pause, leave notes and fail, and can do nothing else: no
clock, no lock, no other context.

**Realms.** `Realm.hook` is that of hooks; `Realm.flow` is that of the operations on single
instances, whose world (`Environment`) has all contexts, the clock and the count of issued ids.

**Calls.** `Hook.call` records the hook's name and waits for its work on the arena of the context.
-/

namespace Workflow

/-- The realm of hooks: one arena, no locks, and notes. -/
abbrev Realm.hook : Realm := ⟨Arena, Empty, Value⟩

/-- What a hook answers. -/
inductive HookAnswer where
  | datum (d : Datum)
  /-- A value whose truth cannot be told. -/
  | untestable (message : String)
  deriving DecidableEq, Repr

/-- The truth of an answer, or the failure to tell it. -/
def HookAnswer.truth (a : Arena) : HookAnswer → Except Failure Bool
  | .datum d => .ok (a.truthy d)
  | .untestable message => .error (.value message)

/-- A guard, an action, or an entry or exit hook. -/
structure Hook where
  name : String
  /-- The work, given the context. -/
  body : Datum → Activity Realm.hook HookAnswer

/-! ## The world of single instances -/

/-- What operations on instances share: the contexts, the clock, and the number of ids issued. -/
structure Environment where
  contexts : Contexts := default
  clock : Clock
  issued : Nat := 0

/-- How grave a log message is. -/
inductive Level where
  | debug
  | info
  | warning
  | error
  deriving DecidableEq, Repr

/-- What operations leave behind besides their answers. -/
inductive Record where
  /-- A hook was called. -/
  | called (hook : String)
  /-- A note that a hook or an observer left. -/
  | noted (note : Value)
  /-- A message in the log. -/
  | logged (level : Level) (message : String)
  deriving DecidableEq, Repr

/-- The realm of operations on single instances. -/
abbrev Realm.flow : Realm := ⟨Environment, Empty, Record⟩

namespace Environment

def arena (n : Nat) (e : Environment) : Arena := e.contexts.arena n

def setArena (n : Nat) (a : Arena) (e : Environment) : Environment :=
  { e with contexts := e.contexts.setArena n a }

/-- The environment after one clock reading. -/
def tick (e : Environment) : Environment := { e with clock := e.clock.next }

/-- The content of a context as it is now. -/
def read (e : Environment) (c : Context) : Value := e.contexts.read c

end Environment

/-- The realm of hooks as part of that of flows: the arena is that of the given number. -/
def Realm.hookIn (arena : Nat) : Realm.Embedding Realm.hook Realm.flow where
  get := Environment.arena arena
  put := Environment.setArena arena
  key := nofun
  report := .noted

/-- Calls a hook with a context. -/
def Hook.call (hook : Hook) (c : Context) : Activity Realm.flow HookAnswer :=
  .report (.called hook.name) ((hook.body c.root).awaited.lift (Realm.hookIn c.arena))

/-- Writes a log message. -/
def log (level : Level) (message : String) : Activity Realm.flow Unit :=
  .tell (.logged level message)

/-- Writes a log message that ends with a failure as it is quoted; there is none if that goes
wrong. -/
def logFailure (level : Level) (message : String) (f : Failure) : Activity Realm.flow Unit :=
  match f.unquoted with
  | none => log level (message ++ f.quoted)
  | some _ => .done ()

/-- Puts a value into a context of its own. -/
def newContext (v : Value) : Activity Realm.flow Context :=
  .look fun e =>
    let (c, contexts) := e.contexts.allocate v
    .update (fun e => { e with contexts }) (.done c)

/-- Reads the clock. -/
def readClock : Activity Realm.flow Instant :=
  .look fun e => .update Environment.tick (.done e.clock.now)

end Workflow
