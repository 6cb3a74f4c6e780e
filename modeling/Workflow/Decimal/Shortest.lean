import Workflow.Decimal.Binary64

/-!
# The shortest decimal that reads back

A binary64 number is written with the fewest decimal digits that still lie nearer to it than
to any other number of the format; of several such decimals the one nearest to the number is
taken.

**The interval.** The rational numbers that round to a given number lie between the middles
to its two neighbours. Both ends belong to it exactly when the significand is even.

**The search** (`Binary64.shortest`). For one digit, two digits and so on up to seventeen, the
two grid points around the number are tried; the first grid with a point in the interval
gives the digits.

**The form** (`NumberForm`). Where positional notation ends, and how an exponent is written,
is one record; `NumberForm.plain` is the form that documents use.
-/

namespace Workflow

/-- `digits * 10 ^ power`. -/
structure Decimal where
  digits : Nat
  power : Int
  deriving DecidableEq, Repr

namespace Decimal

def toRat (d : Decimal) : Rat :=
  if 0 ≤ d.power then ((d.digits * Nat.pow 10 d.power.toNat : Nat) : Rat)
  else mkRat d.digits (Nat.pow 10 (-d.power).toNat)

/-- Moves the zeros at the end of the digits into the power; `fuel` bounds their number. -/
def trim : Nat → Decimal → Decimal
  | 0, d => d
  | fuel + 1, d =>
    if d.digits ≠ 0 ∧ d.digits % 10 = 0 then trim fuel ⟨d.digits / 10, d.power + 1⟩ else d

end Decimal

namespace Binary64

/-- The power of ten of the leading digit of a positive rational number. -/
def leadingPower (q : Rat) : Int :=
  let whole := q.floor.toNat
  if 0 < whole then ((Nat.toDigits 10 whole).length : Int) - 1
  else
    let place := (List.range 400).find? (fun j => decide (q.den ≤ q.num.natAbs * Nat.pow 10 j))
    Int.negOfNat (place.getD 400)

/-- The middles to the two neighbours of a positive number. -/
def interval (significand : Nat) (exponent : Int) : Rat × Rat :=
  let unit : Rat :=
    if 0 ≤ exponent then (Nat.pow 2 exponent.toNat : Rat)
    else mkRat 1 (Nat.pow 2 (-exponent).toNat)
  let lowGap : Rat := mkRat 1 (if significand = Nat.pow 2 52 ∧ exponent > -1074 then 4 else 2)
  let middle : Rat := significand
  ⟨(middle - lowGap) * unit, (middle + mkRat 1 2) * unit⟩

/-- The grid point of `count` digits nearest to `q` among the two around it, if one of them
lies in the interval. -/
def gridPoint? (q low high : Rat) (closed : Bool) (power : Int) : Option Decimal :=
  let inside (d : Decimal) : Bool :=
    let v := d.toRat
    if closed then decide (low ≤ v ∧ v ≤ high) else decide (low < v ∧ v < high)
  let scaled : Rat := if 0 ≤ power then q / (Nat.pow 10 power.toNat : Rat)
    else q * (Nat.pow 10 (-power).toNat : Rat)
  let below : Decimal := ⟨scaled.floor.toNat, power⟩
  let above : Decimal := ⟨scaled.floor.toNat + 1, power⟩
  match inside below, inside above with
  | true, true =>
    let toBelow := q - below.toRat
    let toAbove := above.toRat - q
    if toBelow < toAbove then some below
    else if toAbove < toBelow then some above
    else if below.digits % 2 = 0 then some below else some above
  | true, false => some below
  | false, true => some above
  | false, false => none

/-- The shortest decimal that rounds to the positive number `significand * 2 ^ exponent`. -/
def shortest (significand : Nat) (exponent : Int) : Decimal :=
  match toRat? (.finite false significand exponent) with
  | none => ⟨0, 0⟩
  | some q =>
    let (low, high) := interval significand exponent
    let closed := significand % 2 = 0
    let lead := leadingPower q
    let found := (List.range 17).findSome? fun (n : Nat) =>
      gridPoint? q low high closed (lead - (n : Int))
    (found.getD ⟨0, 0⟩).trim 20

end Binary64

/-- How a decimal is laid out: the range of exponents written positionally, and the texts of
the special values. -/
structure NumberForm where
  /-- The least position of the point, counted from the first digit, without an exponent. -/
  leastPoint : Int
  /-- The greatest position of the point without an exponent. -/
  greatestPoint : Int
  /-- The least number of digits of an exponent. -/
  exponentDigits : Nat
  infinity : String
  notANumber : String
  deriving Repr

namespace NumberForm

/-- The form of numbers in documents and messages: positional from `0.0001` to below `10 ^ 16`,
always with a digit after the point, otherwise with a signed exponent of two digits or more. -/
def plain : NumberForm := ⟨-3, 16, 2, "Infinity", "NaN"⟩

private def zeros (n : Nat) : String := String.ofList (List.replicate n '0')

/-- The digits of a positive decimal with a point or an exponent. -/
def layOut (form : NumberForm) (d : Decimal) : String :=
  let digits := Nat.toDigits 10 d.digits
  let point : Int := (digits.length : Int) + d.power
  if form.leastPoint ≤ point ∧ point ≤ form.greatestPoint then
    if point ≤ 0 then "0." ++ zeros (-point).toNat ++ String.ofList digits
    else if digits.length ≤ point.toNat then
      String.ofList digits ++ zeros (point.toNat - digits.length) ++ ".0"
    else
      String.ofList (digits.take point.toNat) ++ "." ++ String.ofList (digits.drop point.toNat)
  else
    let exponent := point - 1
    let size := toString exponent.natAbs
    let mark := (if exponent < 0 then "e-" else "e+") ++ zeros (form.exponentDigits - size.length)
    match digits with
    | [] => ""
    | [first] => String.ofList [first] ++ mark ++ size
    | first :: rest => String.ofList [first] ++ "." ++ String.ofList rest ++ mark ++ size

/-- The text of a number. -/
def text (form : NumberForm) : Binary64 → String
  | .nan => form.notANumber
  | .infinite negative => (if negative then "-" else "") ++ form.infinity
  | .finite negative 0 _ => if negative then "-0.0" else "0.0"
  | .finite negative significand exponent =>
    (if negative then "-" else "") ++ form.layOut (Binary64.shortest significand exponent)

end NumberForm

/-- The decimal text of a number, the shortest that reads back. -/
def Binary64.text (x : Binary64) : String := NumberForm.plain.text x

end Workflow
