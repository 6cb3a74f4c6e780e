import Workflow.Context.Arena

/-!
# Contexts

The caller's data of an instance. A context is a datum of some arena; every context that a caller
hands in gets an arena of its own, so two contexts share cells only if one was made from the
other.
-/

namespace Workflow

/-- A context: its arena, by number, and the datum in it. -/
structure Context where
  arena : Nat
  root : Datum
  deriving DecidableEq, Repr, Inhabited

/-- The arenas of all contexts. -/
structure Contexts where
  arenas : Array Arena := #[]
  deriving DecidableEq, Repr

namespace Contexts

instance : Inhabited Contexts := ⟨⟨#[]⟩⟩

def arena (cs : Contexts) (n : Nat) : Arena := cs.arenas.getD n default

def setArena (cs : Contexts) (n : Nat) (a : Arena) : Contexts := ⟨cs.arenas.setIfInBounds n a⟩

/-- Puts a value into an arena of its own. -/
def allocate (cs : Contexts) (v : Value) : Context × Contexts :=
  let (root, a) := Arena.store default v
  (⟨cs.arenas.size, root⟩, ⟨cs.arenas.push a⟩)

/-- The content of a context as it is now. -/
def read (cs : Contexts) (c : Context) : Value := (cs.arena c.arena).load c.root

end Contexts

end Workflow
