import Workflow.Json.Value

/-!
# Reading JSON text

The grammar is that of RFC 8259: no leading zeros, no raw control characters in a text, nothing
after the value but blanks. A number with neither a point nor an exponent is whole and is read
exactly; any other one becomes the nearest binary64 number, and one beyond their range is refused.
A name that an object repeats keeps its first place and takes its last value.

A reader takes the characters that are left and gives back those after what it read; the
natural number that bounds the nesting starts at the length of the text.
-/

namespace Workflow.Json

def isBlank (c : Char) : Bool := c = ' ' || c = '\t' || c = '\n' || c = '\r'

def skipBlanks (cs : List Char) : List Char := cs.dropWhile isBlank

/-- Whether the character is one of the ten digits. -/
def isDigit (c : Char) : Bool := '0' ≤ c && c ≤ '9'

/-- The number that decimal digits write. -/
def ofDigits (cs : List Char) : Nat := cs.foldl (fun n c => 10 * n + (c.toNat - 48)) 0

def hexDigit? (c : Char) : Option Nat :=
  if '0' ≤ c && c ≤ '9' then some (c.toNat - 48)
  else if 'a' ≤ c && c ≤ 'f' then some (c.toNat - 87)
  else if 'A' ≤ c && c ≤ 'F' then some (c.toNat - 55)
  else none

/-! ## Texts -/

/-- Four hexadecimal digits. -/
def readUnit : List Char → Option (Nat × List Char)
  | a :: b :: c :: d :: rest => do
    let a ← hexDigit? a
    let b ← hexDigit? b
    let c ← hexDigit? c
    let d ← hexDigit? d
    return (4096 * a + 256 * b + 16 * c + d, rest)
  | _ => none

/-- The character after `\u`: one unit, or two that form a pair. A unit that belongs to a pair
may not stand alone. -/
def readEscapedChar (cs : List Char) : Option (Char × List Char) := do
  let (high, rest) ← readUnit cs
  if 0xD800 ≤ high ∧ high < 0xDC00 then
    match rest with
    | '\\' :: 'u' :: rest =>
      let (low, rest) ← readUnit rest
      if 0xDC00 ≤ low ∧ low < 0xE000 then
        return (Char.ofNat (0x10000 + (high - 0xD800) * 0x400 + (low - 0xDC00)), rest)
      else none
    | _ => none
  else if 0xDC00 ≤ high ∧ high < 0xE000 then none
  else return (Char.ofNat high, rest)

/-- The characters up to the closing quote; `fuel` bounds their number. -/
def readChars : Nat → List Char → List Char → Option (List Char × List Char)
  | 0, _, _ => none
  | fuel + 1, done, cs =>
    match cs with
    | '"' :: rest => some (done.reverse, rest)
    | '\\' :: 'u' :: rest =>
      match readEscapedChar rest with
      | some (c, rest) => readChars fuel (c :: done) rest
      | none => none
    | '\\' :: c :: rest =>
      let meant : Option Char :=
        match c with
        | '"' => some '"'
        | '\\' => some '\\'
        | '/' => some '/'
        | 'b' => some '\x08'
        | 'f' => some '\x0c'
        | 'n' => some '\n'
        | 'r' => some '\r'
        | 't' => some '\t'
        | _ => none
      match meant with
      | some c => readChars fuel (c :: done) rest
      | none => none
    | c :: rest => if c.toNat < 32 then none else readChars fuel (c :: done) rest
    | [] => none

/-- A text, after its opening quote. -/
def readText (fuel : Nat) (cs : List Char) : Option (String × List Char) :=
  (readChars fuel [] cs).map fun (done, rest) => (String.ofList done, rest)

/-! ## Numbers -/

/-- The whole part of a number: a zero, or digits that do not start with one. -/
def readWhole (cs : List Char) : Option (List Char × List Char) :=
  match cs with
  | '0' :: rest => some (['0'], rest)
  | _ =>
    match cs.takeWhile isDigit with
    | [] => none
    | digits => some (digits, cs.dropWhile isDigit)

/-- The digits after a point, if there is one. -/
def readFraction (cs : List Char) : Option (Option (List Char) × List Char) :=
  match cs with
  | '.' :: rest =>
    match rest.takeWhile isDigit with
    | [] => none
    | digits => some (some digits, rest.dropWhile isDigit)
  | _ => some (none, cs)

/-- The power of ten after an exponent mark, if there is one. -/
def readPower (cs : List Char) : Option (Option Int × List Char) :=
  let digitsOf (negative : Bool) (cs : List Char) : Option (Option Int × List Char) :=
    match cs.takeWhile isDigit with
    | [] => none
    | digits =>
      let n : Int := ofDigits digits
      some (some (if negative then -n else n), cs.dropWhile isDigit)
  match cs with
  | c :: rest =>
    if c = 'e' || c = 'E' then
      match rest with
      | '-' :: rest => digitsOf true rest
      | '+' :: rest => digitsOf false rest
      | _ => digitsOf false rest
    else some (none, cs)
  | [] => some (none, cs)

/-- The binary64 number nearest to `digits * 10 ^ power`; powers that are out of reach are not
computed. -/
def nearest (negative : Bool) (digits : Nat) (power : Int) : Binary64 :=
  if digits = 0 then .zero negative
  else
    let size : Int := (Nat.toDigits 10 digits).length + power
    if size > 400 then .infinite negative
    else if size < -400 then .zero negative
    else if 0 ≤ power then .round negative (digits * Nat.pow 10 power.toNat) 1
    else .round negative digits (Nat.pow 10 (-power).toNat)

def readNumber (cs : List Char) : Option (Value × List Char) := do
  let (negative, cs) :=
    match cs with
    | '-' :: rest => (true, rest)
    | _ => (false, cs)
  let (whole, cs) ← readWhole cs
  let (fraction, cs) ← readFraction cs
  let (power, cs) ← readPower cs
  match fraction, power with
  | none, none =>
    let n : Int := ofDigits whole
    return (.int (if negative then -n else n), cs)
  | _, _ =>
    let fraction := fraction.getD []
    let shift : Int := power.getD 0 - (fraction.length : Int)
    match nearest negative (ofDigits (whole ++ fraction)) shift with
    | .infinite _ => none
    | x => return (.float x, cs)

/-! ## Values -/

mutual

/-- A value; the number bounds the nesting together with the length. -/
def readValue : Nat → List Char → Option (Value × List Char)
  | 0, _ => none
  | fuel + 1, cs =>
    match skipBlanks cs with
    | 'n' :: 'u' :: 'l' :: 'l' :: rest => some (.null, rest)
    | 't' :: 'r' :: 'u' :: 'e' :: rest => some (.bool true, rest)
    | 'f' :: 'a' :: 'l' :: 's' :: 'e' :: rest => some (.bool false, rest)
    | '"' :: rest => (readText fuel rest).map fun (s, rest) => (.text s, rest)
    | '[' :: rest =>
      match skipBlanks rest with
      | ']' :: rest => some (.list [], rest)
      | rest => (readItems fuel [] rest).map fun (items, rest) => (.list items, rest)
    | '\x7b' :: rest =>
      match skipBlanks rest with
      | '\x7d' :: rest => some (.object [], rest)
      | rest => (readMembers fuel [] rest).map fun (ms, rest) => (Value.ofMembers ms, rest)
    | cs => readNumber cs

/-- The items of a list up to its closing bracket. -/
def readItems : Nat → List Value → List Char → Option (List Value × List Char)
  | 0, _, _ => none
  | fuel + 1, done, cs =>
    match readValue fuel cs with
    | none => none
    | some (v, rest) =>
      match skipBlanks rest with
      | ',' :: rest => readItems fuel (v :: done) rest
      | ']' :: rest => some ((v :: done).reverse, rest)
      | _ => none

/-- The members of an object up to its closing brace. -/
def readMembers : Nat → List (String × Value) → List Char →
    Option (List (String × Value) × List Char)
  | 0, _, _ => none
  | fuel + 1, done, cs =>
    match skipBlanks cs with
    | '"' :: rest =>
      match readText fuel rest with
      | none => none
      | some (name, rest) =>
        match skipBlanks rest with
        | ':' :: rest =>
          match readValue fuel rest with
          | none => none
          | some (v, rest) =>
            match skipBlanks rest with
            | ',' :: rest => readMembers fuel ((name, v) :: done) rest
            | '\x7d' :: rest => some (((name, v) :: done).reverse, rest)
            | _ => none
        | _ => none
    | _ => none

end

/-- The value that a whole text writes. -/
def read? (s : String) : Option Value :=
  let cs := s.toList
  match readValue (cs.length + 1) cs with
  | some (v, rest) => if (skipBlanks rest).isEmpty then some v else none
  | none => none

end Workflow.Json
