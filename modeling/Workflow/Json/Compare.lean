import Workflow.Failure.Basic

/-!
# Comparing JSON values

Numbers compare by size in every notation, and true and false count as one and zero. Texts compare
by their characters. Lists compare by the first items that are not alike, and then by length. All
other pairs have no order.
-/

namespace Workflow.Value

/-- The sum of two numbers: whole if both are, otherwise rounded once. -/
def sum? : Value → Value → Option Value
  | .int i, .int j => some (.int (i + j))
  | .int i, .float y => some (.float (.add (.ofInt i) y))
  | .float x, .int j => some (.float (.add x (.ofInt j)))
  | .float x, .float y => some (.float (.add x y))
  | _, _ => none

def isNumber : Value → Bool
  | .int _ | .float _ => true
  | _ => false

/-- Whether a value compares as a number. -/
def isNumeric : Value → Bool
  | .bool _ | .int _ | .float _ => true
  | _ => false

/-- The place of a number, or of a truth value, on the line. -/
def extent? : Value → Option Extent
  | .bool b => some (.ofInt (if b then 1 else 0))
  | .int i => some (.ofInt i)
  | .float x => Extent.ofBinary64? x
  | _ => none

/-- How two numbers compare. -/
def compareNumbers? (v w : Value) : Option Ordering :=
  match v.extent?, w.extent? with
  | some p, some q => some (p.compare q)
  | _, _ => none

/-- Whether the first number is less than the second. -/
def lessThan (v w : Value) : Bool := compareNumbers? v w == some .lt

/-- Whether two values are of one kind; truth values, whole numbers and other numbers are three. -/
def sameKind : Value → Value → Bool
  | .null, .null | .bool _, .bool _ | .int _, .int _ | .float _, .float _ | .text _, .text _
  | .list _, .list _ | .object _, .object _ => true
  | _, _ => false

mutual

/-- Whether two values are equal, with equal numbers equal in every notation and without regard to
the order of members. -/
def alike : Value → Value → Bool
  | .null, .null => true
  | .text s, .text t => s == t
  | .list xs, .list ys => alikeItems xs ys
  | .object xs, .object ys => xs.length == ys.length && alikeMembers xs ys
  | v, w => compareNumbers? v w == some .eq

def alikeItems : List Value → List Value → Bool
  | [], [] => true
  | v :: vs, w :: ws => alike v w && alikeItems vs ws
  | _, _ => false

def alikeMembers : List (String × Value) → List (String × Value) → Bool
  | [], _ => true
  | (name, v) :: rest, ws =>
    (match Dict.find name ws with
      | some w => alike v w
      | none => false) && alikeMembers rest ws

end

/-- The name of the kind of a value, as messages give it. -/
def kindName : Value → String
  | .null => "NoneType"
  | .bool _ => "bool"
  | .int _ => "int"
  | .float _ => "float"
  | .text _ => "str"
  | .list _ => "list"
  | .object _ => "dict"

/-- The failure of a comparison of values that have no order. -/
def notOrdered (v w : Value) : Failure :=
  .type ("'<=' not supported between instances of '" ++ v.kindName ++ "' and '" ++ w.kindName ++
    "'")

mutual

/-- Whether the first value is at most the second. -/
def atMost : Value → Value → Except Failure Bool
  | .text s, .text t => .ok (decide (s ≤ t))
  | .list xs, .list ys => atMostItems xs ys
  | v, w =>
    if v.isNumeric && w.isNumeric then
      .ok (compareNumbers? v w == some .lt || compareNumbers? v w == some .eq)
    else .error (notOrdered v w)

def atMostItems : List Value → List Value → Except Failure Bool
  | [], _ => .ok true
  | _ :: _, [] => .ok false
  | v :: vs, w :: ws => if alike v w then atMostItems vs ws else atMost v w

end

end Workflow.Value
