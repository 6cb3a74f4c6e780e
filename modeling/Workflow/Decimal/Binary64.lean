/-!
# Binary64 numbers, exactly

A number of the format binary64 is a sign, a significand and a power of two, or one of the
special values. No operation here rounds twice: sums and products are taken exactly, as
rational numbers, and rounded once to the nearest number of the format.

**Rounding** (`Binary64.round`). Of the two neighbours of a quotient the nearer one is taken,
and of two equally near ones the one with the even significand.

**Order** (`Extent`). Numbers, whole numbers included, compare by the place they take on the
line that the two infinities close.
-/

namespace Workflow

/-- A number of the format binary64. In a finite one the significand is below `2 ^ 53`, and it
is at least `2 ^ 52` unless the exponent is the least one, `-1074`. -/
inductive Binary64 where
  | finite (negative : Bool) (significand : Nat) (exponent : Int)
  | infinite (negative : Bool)
  | nan
  deriving DecidableEq, Repr, Inhabited

/-- The quotient of two natural numbers, rounded to the nearest natural number, a half to the
even one. -/
def roundQuotient (num den : Nat) : Nat :=
  let quotient := num / den
  let twice := 2 * (num % den)
  if twice < den then quotient
  else if den < twice then quotient + 1
  else if quotient % 2 = 0 then quotient else quotient + 1

namespace Binary64

/-- The zero of the given sign. -/
def zero (negative : Bool) : Binary64 := .finite negative 0 (-1074)

/-- The rounded value of `num / (den * 2 ^ exponent)`. -/
def significandAt (num den : Nat) (exponent : Int) : Nat :=
  if 0 ≤ exponent then roundQuotient num (den * Nat.pow 2 exponent.toNat)
  else roundQuotient (num * Nat.pow 2 (-exponent).toNat) den

/-- The least exponent at which `num / den` has a significand of at most 53 bits. -/
def exponentOf (num den : Nat) : Int :=
  let low : Int := (num.log2 : Int) - (den.log2 : Int) - 53
  let fits : Bool :=
    if 0 ≤ low then num < den * Nat.pow 2 low.toNat * Nat.pow 2 53
    else num * Nat.pow 2 (-low).toNat < den * Nat.pow 2 53
  max (if fits then low else low + 1) (-1074)

/-- The number nearest to `num / den`, with the given sign. -/
def round (negative : Bool) (num den : Nat) : Binary64 :=
  if num = 0 then zero negative
  else
    let exponent := exponentOf num den
    let significand := significandAt num den exponent
    if significand = Nat.pow 2 53 then
      if exponent + 1 > 971 then .infinite negative
      else .finite negative (Nat.pow 2 52) (exponent + 1)
    else if exponent > 971 then .infinite negative
    else .finite negative significand exponent

/-- The number nearest to a rational number. -/
def ofRat (q : Rat) : Binary64 := round (q < 0) q.num.natAbs q.den

/-- The number nearest to a whole number. -/
def ofInt (i : Int) : Binary64 := round (i < 0) i.natAbs 1

/-- The exact value of a finite number. -/
def toRat? : Binary64 → Option Rat
  | .finite negative significand exponent =>
    let magnitude : Rat :=
      if 0 ≤ exponent then ((significand * Nat.pow 2 exponent.toNat : Nat) : Rat)
      else mkRat significand (Nat.pow 2 (-exponent).toNat)
    some (if negative then -magnitude else magnitude)
  | .infinite _ | .nan => none

/-- The sum, rounded once. Two zeros add up to a negative zero only if both are negative. -/
def add : Binary64 → Binary64 → Binary64
  | .nan, _ | _, .nan => .nan
  | .infinite a, .infinite b => if a = b then .infinite a else .nan
  | .infinite a, _ => .infinite a
  | _, .infinite b => .infinite b
  | .finite a 0 _, .finite b 0 _ => zero (a && b)
  | x@(.finite ..), y@(.finite ..) =>
    match x.toRat?, y.toRat? with
    | some p, some q => ofRat (p + q)
    | _, _ => .nan

/-- The product with a rational factor, rounded once. -/
def scale (x : Binary64) (factor : Rat) : Binary64 :=
  match x.toRat? with
  | some q => ofRat (q * factor)
  | none => x

/-- The whole number that a finite number is, if it is one. -/
def toInt? (x : Binary64) : Option Int :=
  x.toRat?.bind fun q => if q.den = 1 then some q.num else none

end Binary64

/-- A place on the line of numbers, closed at both ends. -/
inductive Extent where
  | below
  | at (q : Rat)
  | above
  deriving DecidableEq, Repr

namespace Extent

def ofInt (i : Int) : Extent := .at i

/-- The place of a number; `nan` has none. -/
def ofBinary64? : Binary64 → Option Extent
  | .infinite negative => some (if negative then .below else .above)
  | x => x.toRat?.map .at

def compare : Extent → Extent → Ordering
  | .below, .below | .above, .above => .eq
  | .below, _ => .lt
  | _, .below => .gt
  | .above, _ => .gt
  | _, .above => .lt
  | .at p, .at q => if p < q then .lt else if p = q then .eq else .gt

end Extent

end Workflow
