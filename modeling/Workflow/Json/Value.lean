import Workflow.Decimal.Shortest
import Workflow.Dict

/-!
# JSON values

Documents, contexts and answers are JSON values. Whole numbers and binary64 numbers are kept
apart, and the members of an object stay in the order in which they were written.

**Equality** is structural and decidable: `1`, `1.0` and `true` are three values.

**Keys** (`Value.key?`). As keys of a table those three are one: a key forgets the difference
between equal numbers. Lists and objects are no keys.

**Truth** (`Value.truthy`). Null, false, the zeros and whatever is empty count as false.
-/

namespace Workflow

/-- A JSON value. -/
inductive Value where
  | null
  | bool (b : Bool)
  | int (i : Int)
  | float (x : Binary64)
  | text (s : String)
  | list (items : List Value)
  | object (members : List (String × Value))
  deriving Inhabited, Repr

namespace Value

/-! ## Equality -/

mutual

/-- Structural equality. -/
def same : Value → Value → Bool
  | .null, .null => true
  | .bool a, .bool b => decide (a = b)
  | .int a, .int b => decide (a = b)
  | .float a, .float b => decide (a = b)
  | .text a, .text b => decide (a = b)
  | .list a, .list b => sameItems a b
  | .object a, .object b => sameMembers a b
  | _, _ => false

def sameItems : List Value → List Value → Bool
  | [], [] => true
  | a :: as, b :: bs => same a b && sameItems as bs
  | _, _ => false

def sameMembers : List (String × Value) → List (String × Value) → Bool
  | [], [] => true
  | (k, a) :: as, (l, b) :: bs => decide (k = l) && same a b && sameMembers as bs
  | _, _ => false

end

mutual

theorem same_iff : (a b : Value) → (same a b = true ↔ a = b)
  | .null, b => by cases b <;> simp [same]
  | .bool x, b => by cases b <;> simp [same]
  | .int x, b => by cases b <;> simp [same]
  | .float x, b => by cases b <;> simp [same]
  | .text x, b => by cases b <;> simp [same]
  | .list xs, b => by
    cases b <;> simp [same]
    next ys => exact sameItems_iff xs ys
  | .object xs, b => by
    cases b <;> simp [same]
    next ys => exact sameMembers_iff xs ys

theorem sameItems_iff : (as bs : List Value) → (sameItems as bs = true ↔ as = bs)
  | [], bs => by cases bs <;> simp [sameItems]
  | a :: as, bs => by
    cases bs with
    | nil => simp [sameItems]
    | cons b bs => simp [sameItems, same_iff a b, sameItems_iff as bs]

theorem sameMembers_iff :
    (as bs : List (String × Value)) → (sameMembers as bs = true ↔ as = bs)
  | [], bs => by cases bs <;> simp [sameMembers]
  | (k, a) :: as, bs => by
    cases bs with
    | nil => simp [sameMembers]
    | cons b bs =>
      obtain ⟨l, b⟩ := b
      simp [sameMembers, same_iff a b, sameMembers_iff as bs]

end

instance : DecidableEq Value := fun a b => decidable_of_iff _ (same_iff a b)

/-! ## Members -/

/-- The member of that name, of an object. -/
def get? (v : Value) (name : String) : Option Value :=
  match v with
  | .object members => Dict.find name members
  | _ => none

/-- The member of that name, null if the object has none. -/
def getD (v : Value) (name : String) : Value := (v.get? name).getD .null

/-- The object of the given members: of two with one name the later value counts, in the place
of the earlier. -/
def ofMembers (members : List (String × Value)) : Value :=
  .object (members.foldl (fun done e => Dict.put e.1 e.2 done) [])

/-- The text that a value is, if it is one. -/
def text? : Value → Option String
  | .text s => some s
  | _ => none

/-- A value that is there or not, null standing for one that is not. -/
def ofOption : Option Value → Value
  | none => .null
  | some v => v

/-! ## Truth and keys -/

def truthy : Value → Bool
  | .null => false
  | .bool b => b
  | .int i => i ≠ 0
  | .float (.finite _ significand _) => significand ≠ 0
  | .float _ => true
  | .text s => s ≠ ""
  | .list items => !items.isEmpty
  | .object members => !members.isEmpty

end Value

/-- What a value is as the key of a table. -/
inductive Key where
  | null
  | whole (i : Int)
  | binary (x : Binary64)
  | text (s : String)
  deriving DecidableEq, Repr

/-- The key that a value is; equal numbers are one key, and a list or an object is none. -/
def Value.key? : Value → Option Key
  | .null => some .null
  | .bool b => some (.whole (if b then 1 else 0))
  | .int i => some (.whole i)
  | .float x => some (match x.toInt? with | some i => .whole i | none => .binary x)
  | .text s => some (.text s)
  | .list _ | .object _ => none

/-- Whether the first key comes before the second. Numbers are ordered by size and texts by their
characters; a number and a text are not ordered, and null is ordered with nothing. -/
def Key.before? : Key → Key → Option Bool
  | .text s, .text t => some (decide (s < t))
  | a, b =>
    match extent? a, extent? b with
    | some p, some q => some (p.compare q == .lt)
    | _, _ => none
where
  extent? : Key → Option Extent
    | .whole i => some (.ofInt i)
    | .binary x => Extent.ofBinary64? x
    | _ => none

end Workflow
