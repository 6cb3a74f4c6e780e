import Workflow.Json.Value

/-!
# Arenas

A context is a value that hooks change in place, and several snapshots may hold the same one.
So lists and objects live in the cells of an arena and are held by reference.

**The state** (`Arena`). A sequence of cells; a cell is a list or an object of data, and a datum
is a plain value or a reference to a cell. Cells are added at the end and are never removed.

**In and out.** `Arena.store` puts a JSON value into fresh cells, and `Arena.load` reads a datum
back with all that it refers to.

Two data of one arena may share cells; data of different arenas never do.
-/

namespace Workflow

/-- A plain value, or a reference to a list or an object. -/
inductive Datum where
  | null
  | bool (b : Bool)
  | int (i : Int)
  | float (x : Binary64)
  | text (s : String)
  | ref (cell : Nat)
  deriving DecidableEq, Repr, Inhabited

/-- A list or an object. -/
inductive Cell where
  | list (items : List Datum)
  | object (members : List (String × Datum))
  deriving DecidableEq, Repr

/-- Cells in the order in which they were added. -/
structure Arena where
  cells : Array Cell := #[]
  deriving DecidableEq, Repr

namespace Arena

instance : Inhabited Arena := ⟨⟨#[]⟩⟩

/-- The cell that a datum refers to. -/
def cell? (a : Arena) : Datum → Option Cell
  | .ref n => a.cells[n]?
  | _ => none

/-- Adds a cell and gives the reference to it. -/
def add (a : Arena) (c : Cell) : Datum × Arena := (.ref a.cells.size, ⟨a.cells.push c⟩)

/-- Replaces the cell of a reference. -/
def setCell (a : Arena) (n : Nat) (c : Cell) : Arena := ⟨a.cells.setIfInBounds n c⟩

mutual

/-- Puts a value into fresh cells. -/
def store (a : Arena) : Value → Datum × Arena
  | .null => (.null, a)
  | .bool b => (.bool b, a)
  | .int i => (.int i, a)
  | .float x => (.float x, a)
  | .text s => (.text s, a)
  | .list items =>
    let (items, a) := storeItems a items
    a.add (.list items)
  | .object members =>
    let (members, a) := storeMembers a members
    a.add (.object members)

def storeItems (a : Arena) : List Value → List Datum × Arena
  | [] => ([], a)
  | v :: rest =>
    let (d, a) := store a v
    let (ds, a) := storeItems a rest
    (d :: ds, a)

def storeMembers (a : Arena) : List (String × Value) → List (String × Datum) × Arena
  | [] => ([], a)
  | (name, v) :: rest =>
    let (d, a) := store a v
    let (ds, a) := storeMembers a rest
    ((name, d) :: ds, a)

end

/-- Reads a datum with all that it refers to, through at most `depth` references. -/
def loadWithin (a : Arena) : Nat → Datum → Value
  | _, .null => .null
  | _, .bool b => .bool b
  | _, .int i => .int i
  | _, .float x => .float x
  | _, .text s => .text s
  | 0, .ref _ => .null
  | depth + 1, .ref n =>
    match a.cells[n]? with
    | some (.list items) => .list (items.map (loadWithin a depth))
    | some (.object members) => .object (members.map fun (k, d) => (k, loadWithin a depth d))
    | none => .null

/-- Reads a datum. Data that are not cyclic are never deeper than the number of cells. -/
def load (a : Arena) (d : Datum) : Value := a.loadWithin a.cells.size d

/-- The truth of a datum: null, false, the zeros and whatever is empty count as false. -/
def truthy (a : Arena) (d : Datum) : Bool :=
  match d with
  | .ref n =>
    match a.cells[n]? with
    | some (.list items) => !items.isEmpty
    | some (.object members) => !members.isEmpty
    | none => false
  | d => (a.load d).truthy

/-- A copy of the outermost list or object; what it refers to stays shared. -/
def shallowCopy (a : Arena) (d : Datum) : Datum × Arena :=
  match a.cell? d with
  | some c => a.add c
  | none => (d, a)

end Arena

end Workflow
