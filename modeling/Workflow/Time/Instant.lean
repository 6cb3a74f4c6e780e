import Workflow.Time.Calendar

/-!
# Instants

A moment as a number of microseconds, counted in universal time from the beginning of the
year 1, and its text `YYYY-MM-DDTHH:MM:SS.ffffff+00:00`. The fraction has six digits, and is left
out together with its point when it is zero.

**The clock** gives one instant per reading. `Clock.steady` moves on by steps that repeat.
-/

namespace Workflow

/-- A moment of universal time. -/
structure Instant where
  micros : Int
  deriving DecidableEq, Repr

/-- Microseconds of a day. -/
def microsPerDay : Nat := 86400000000

namespace Instant

/-- A number in decimal, filled up with zeros on the left. -/
def padded (width n : Nat) : List Char :=
  let digits := Nat.toDigits 10 n
  List.replicate (width - digits.length) '0' ++ digits

/-- The time of day of a number of microseconds within the day. -/
def timeText (micros : Nat) : List Char :=
  let seconds := micros / 1000000
  let fraction := micros % 1000000
  padded 2 (seconds / 3600) ++ ':' :: padded 2 (seconds / 60 % 60) ++ ':' ::
    padded 2 (seconds % 60) ++ if fraction = 0 then [] else '.' :: padded 6 fraction

/-- The date as `YYYY-MM-DD`. -/
def dateText (d : Date) : List Char :=
  padded 4 d.year ++ '-' :: padded 2 d.month ++ '-' :: padded 2 d.day

/-- The text of an instant that is not before the year 1. -/
def text (t : Instant) : String :=
  let micros := t.micros.toNat
  String.ofList (dateText (Date.ofDays (micros / microsPerDay)) ++ 'T' ::
    timeText (micros % microsPerDay) ++ "+00:00".toList)

end Instant

/-- A clock: the instant that each reading gives, and the number of readings taken. -/
structure Clock where
  reading : Nat → Instant
  taken : Nat := 0

namespace Clock

/-- A clock that starts at an instant and moves on after each reading, by the given steps in
turn; without steps it stands still. -/
def steady (start : Instant) (steps : List Int) : Clock where
  reading n :=
    let cycles := n / steps.length
    let whole := (cycles : Int) * sum steps
    ⟨start.micros + whole + sum (steps.take (n % steps.length))⟩
where
  sum (steps : List Int) : Int := steps.foldr (· + ·) 0

/-- The next reading. -/
def now (c : Clock) : Instant := c.reading c.taken

/-- The clock after a reading. -/
def next (c : Clock) : Clock := { c with taken := c.taken + 1 }

end Clock

end Workflow
