import Workflow.Document.Compile

/-!
# The registry

Definitions by id and version. Each id has a shelf with its versions; the latest is the one with the
greatest version.

An id or a version is any value that can be a key, equal numbers being one key. A version keeps
the notation in which it was first registered. Versions of one id are put in order when they are
numbers, or when they are texts; a choice among versions that have no order fails.

Registering first checks the definition, then makes room for its id, and then stores it under its
version.
-/

namespace Workflow

/-- A definition on a shelf. -/
structure Edition where
  /-- The version in the notation in which it was first registered. -/
  version : Value
  definition : Definition

/-- The versions of one workflow. -/
abbrev Shelf := Dict Key Edition

/-- Definitions by id and version. -/
structure Registry where
  shelves : Dict Key Shelf := {}

namespace Registry

instance : Inhabited Registry := ⟨{}⟩

/-- The key that a value is. -/
def keyOf (v : Value) : Except Failure Key :=
  match v.key? with
  | some k => .ok k
  | none => .error (.malformed .noKey)

/-! ## The order of versions -/

/-- Puts a version before the first one that is greater. -/
def insertInOrder (e : Key × Edition) : List (Key × Edition) →
    Except Failure (List (Key × Edition))
  | [] => .ok [e]
  | f :: rest =>
    match e.1.before? f.1 with
    | none => .error (.malformed .unordered)
    | some true => .ok (e :: f :: rest)
    | some false => (insertInOrder e rest).map (f :: ·)

/-- The versions in ascending order. -/
def inOrder : List (Key × Edition) → Except Failure (List (Key × Edition))
  | [] => .ok []
  | e :: rest => do insertInOrder e (← inOrder rest)

/-- The entry with the greatest version, given the greatest so far. -/
def latestOf (best : Key × Edition) : List (Key × Edition) → Except Failure (Key × Edition)
  | [] => .ok best
  | e :: rest =>
    match best.1.before? e.1 with
    | none => .error (.malformed .unordered)
    | some less => latestOf (if less then e else best) rest

/-- The latest version of a shelf. -/
def latest (s : Shelf) : Except Failure Definition :=
  match s.entries with
  | [] => .error (.malformed .noVersions)
  | e :: rest => (latestOf e rest).map (·.2.definition)

/-! ## Questions -/

/-- The shelf of a workflow. -/
def shelf? (r : Registry) (name : Value) : Except Failure (Option Shelf) := do
  return r.shelves.get? (← keyOf name)

/-- A definition of a workflow: that of a version, or with null the latest. -/
def find (r : Registry) (name version : Value) : Except Failure Definition := do
  match ← r.shelf? name with
  | none => throw (.workflowNotFound name .null)
  | some shelf =>
    if shelf.isEmpty then throw (.workflowNotFound name .null)
    else if version = .null then latest shelf
    else
      match shelf.get? (← keyOf version) with
      | some edition => return edition.definition
      | none => throw (.workflowNotFound name version)

/-- Whether a workflow, or with a version that version of it, is registered. -/
def has (r : Registry) (name version : Value) : Except Failure Bool := do
  match ← r.shelf? name with
  | none => return false
  | some shelf => if version = .null then return true else return shelf.contains (← keyOf version)

/-- The versions of a workflow, ascending. -/
def versions (r : Registry) (name : Value) : Except Failure (List Value) := do
  match ← r.shelf? name with
  | none => throw (.workflowNotFound name .null)
  | some shelf => return (← inOrder shelf.entries).map (·.2.version)

/-- The latest version of each workflow. -/
def listLatest (r : Registry) : Except Failure (List Definition) := r.shelves.values.mapM latest

/-- All versions of all workflows, ascending for each. -/
def listAll (r : Registry) : Except Failure (List Definition) := do
  let shelves ← r.shelves.values.mapM fun shelf => inOrder shelf.entries
  return shelves.flatten.map (·.2.definition)

/-! ## Changes -/

/-- The shelf with a definition under its version, in place of one that is there. -/
def shelve (shelf : Shelf) (key : Key) (d : Definition) : Shelf :=
  shelf.insert key ⟨((shelf.get? key).map (·.version)).getD d.version, d⟩

/-- Registers a definition, in place of one with the same id and version. -/
def register (r : Registry) (d : Definition) : Except Failure Unit × Registry :=
  match d.check, keyOf d.id with
  | .error e, _ => (.error e, r)
  | .ok _, .error e => (.error e, r)
  | .ok _, .ok name =>
    let shelf : Shelf := (r.shelves.get? name).getD {}
    match keyOf d.version with
    | .error e => (.error e, ⟨r.shelves.insert name shelf⟩)
    | .ok version => (.ok (), ⟨r.shelves.insert name (shelve shelf version d)⟩)

/-- Compiles a document and registers the definition. -/
def registerDocument (r : Registry) (doc : Value) (hs : Handlers) :
    Except Failure Definition × Registry :=
  match compileDocument doc hs with
  | .error e => (.error e, r)
  | .ok d =>
    match r.register d with
    | (.error e, r) => (.error e, r)
    | (.ok _, r) => (.ok d, r)

/-- Removes a workflow, or with a version that version of it. A workflow goes with its last
version. -/
def unregister (r : Registry) (name version : Value) : Except Failure Unit × Registry :=
  match keyOf name with
  | .error e => (.error e, r)
  | .ok name =>
    match r.shelves.get? name with
    | none => (.ok (), r)
    | some shelf =>
      if version = .null then (.ok (), ⟨r.shelves.erase name⟩)
      else
        match keyOf version with
        | .error e => (.error e, r)
        | .ok version =>
          let shelf := shelf.erase version
          if shelf.isEmpty then (.ok (), ⟨r.shelves.erase name⟩)
          else (.ok (), ⟨r.shelves.insert name shelf⟩)

end Registry

end Workflow
