import Workflow.Decimal.Shortest
import Workflow.Time.Instant

/-!
# Reading timestamps

Texts in the forms of ISO 8601: a date, and after one character of any kind a time of day, and
after that an offset from universal time. A timestamp without an offset tells local time.

**The date** has dashes or none, with month and day or with a numbered week (`W`) and its day.
**The time** has hours, minutes, seconds and a fraction, each of which may be missing with all
that follow it, with colons or none; digits of the fraction after the sixth are dropped. **The
offset** is `Z`, or a sign and a time of day.

`Timestamp.since?` is the time that passed between two timestamps. There is none between local
time and a timestamp with an offset.
-/

namespace Workflow

/-- A moment as read: its time of day and date in microseconds, and the offset, if given. -/
structure Timestamp where
  micros : Int
  offset : Option Int
  deriving DecidableEq, Repr

namespace Timestamp

def isDigit (c : Char) : Bool := '0' ≤ c && c ≤ '9'

/-- The number that the first `count` characters write, if all of them are digits. -/
def digits? (count : Nat) (cs : List Char) : Option (Nat × List Char) :=
  let head := cs.take count
  if head.length = count && head.all isDigit then
    some (head.foldl (fun n c => 10 * n + (c.toNat - 48)) 0, cs.drop count)
  else none

/-! ## The date -/

/-- The number of characters of the date at the start of a timestamp. -/
def dateLength (cs : List Char) : Nat :=
  if cs.length = 7 then 7
  else if cs[4]? = some '-' then
    if cs[5]? = some 'W' then
      if cs[8]? = some '-' then
        if cs.length > 10 && (cs[10]?.map isDigit).getD false then 8 else 10
      else 8
    else 10
  else if cs[4]? = some 'W' then
    let stop := 7 + ((cs.drop 7).takeWhile isDigit).length
    if stop < 9 then stop else if stop % 2 = 0 then 7 else 8
  else 8

/-- The date that the given characters write. -/
def date? (cs : List Char) : Option Date := do
  let (year, cs) ← digits? 4 cs
  let dashed := cs.head? = some '-'
  let cs := if dashed then cs.tail else cs
  match cs with
  | 'W' :: cs =>
    let (week, cs) ← digits? 2 cs
    match cs with
    | [] => Date.ofWeek? year week 1
    | c :: rest =>
      if dashed && c != '-' then none
      else
        let (day, _) ← digits? 1 (if dashed then rest else cs)
        Date.ofWeek? year week day
  | _ =>
    let (month, cs) ← digits? 2 cs
    if dashed && cs.head? != some '-' then none
    else
      let (day, _) ← digits? 2 (if dashed then cs.tail else cs)
      return ⟨year, month, day⟩

/-! ## The time of day -/

/-- Hours, minutes, seconds and microseconds, and whether something was left over. -/
structure Parts where
  hours : Nat := 0
  minutes : Nat := 0
  seconds : Nat := 0
  micros : Nat := 0
  leftOver : Bool := false
  deriving DecidableEq, Repr

/-- The fraction of a second, in microseconds. -/
def fraction? (p : Parts) (cs : List Char) : Option Parts := do
  let count := min cs.length 6
  let (n, rest) ← digits? count cs
  let after := rest.dropWhile isDigit
  return { p with micros := n * Nat.pow 10 (6 - count), leftOver := !after.isEmpty }

/-- What follows two digits: the end, one character too many, the next two digits, or the
fraction. -/
inductive AfterPair where
  | finished (leftOver : Bool)
  | pair (rest : List Char)
  | fraction (rest : List Char)
  | malformed

def afterPair (colons : Bool) : List Char → AfterPair
  | [] => .finished false
  | [c] => if c.toNat < 128 then .finished true else .malformed
  | c :: rest =>
    if colons && c = ':' then .pair rest
    else if c = '.' || c = ',' then .fraction rest
    else if colons then .malformed
    else .pair (c :: rest)

/-- The parts of a time of day. -/
def parts? (cs : List Char) : Option Parts := do
  let (hours, cs) ← digits? 2 cs
  let colons := cs.head? = some ':'
  match afterPair colons cs with
  | .malformed => none
  | .finished leftOver => return { hours, leftOver }
  | .fraction cs => fraction? { hours } cs
  | .pair cs =>
    let (minutes, cs) ← digits? 2 cs
    match afterPair colons cs with
    | .malformed => none
    | .finished leftOver => return { hours, minutes, leftOver }
    | .fraction cs => fraction? { hours, minutes } cs
    | .pair cs =>
      let (seconds, cs) ← digits? 2 cs
      match afterPair colons cs with
      | .malformed => none
      | .finished leftOver => return { hours, minutes, seconds, leftOver }
      | .fraction cs | .pair cs => fraction? { hours, minutes, seconds } cs

def Parts.toMicros (p : Parts) : Nat :=
  ((p.hours * 60 + p.minutes) * 60 + p.seconds) * 1000000 + p.micros

/-- A time within one day. -/
def Parts.isValid (p : Parts) : Bool := p.hours < 24 && p.minutes < 60 && p.seconds < 60

/-- The offset after its sign; it is shorter than a day. -/
def offset? (negative : Bool) (cs : List Char) : Option Int := do
  let p ← parts? cs
  if p.leftOver || microsPerDay ≤ p.toMicros then none
  else return if negative then -(p.toMicros : Int) else p.toMicros

/-- A time of day with its offset. -/
def timeAndOffset? (cs : List Char) : Option (Parts × Option Int) := do
  let isMark (c : Char) : Bool := c = '+' || c = '-' || c = 'Z'
  let p ← parts? (cs.takeWhile (!isMark ·))
  match cs.dropWhile (!isMark ·) with
  | [] => if p.leftOver then none else return (p, none)
  | 'Z' :: rest => if rest.isEmpty then return (p, some 0) else none
  | mark :: rest =>
    let offset ← offset? (mark = '-') rest
    return (p, some offset)

/-! ## Whole timestamps -/

/-- The timestamp that a text writes. -/
def read? (s : String) : Option Timestamp := do
  let cs := s.toList
  if cs.length < 7 then none
  else
    let length := dateLength cs
    let date ← date? (cs.take length)
    let (time, offset) ←
      match cs.drop length with
      | [] => some ({}, none)
      | [_] => none
      | _ :: rest => timeAndOffset? rest
    if date.isValid && time.isValid then
      return ⟨(date.toDays * microsPerDay + time.toMicros : Nat), offset⟩
    else none

/-- The microseconds from `earlier` to `later`. -/
def since? (later earlier : Timestamp) : Option Int :=
  match later.offset, earlier.offset with
  | none, none => some (later.micros - earlier.micros)
  | some p, some q => some ((later.micros - p) - (earlier.micros - q))
  | _, _ => none

/-- The instant of a timestamp; local time is taken as universal time. -/
def toInstant (t : Timestamp) : Instant := ⟨t.micros - t.offset.getD 0⟩

end Timestamp

/-- A number of microseconds as milliseconds: first taken to seconds, then multiplied by a
thousand, each time with one rounding. -/
def millisOfMicros (micros : Int) : Binary64 :=
  (Binary64.ofRat (mkRat micros 1000000)).scale 1000

end Workflow
