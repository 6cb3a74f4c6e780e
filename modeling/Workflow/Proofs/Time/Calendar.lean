import Mathlib.Algebra.Group.Nat.Defs
import Workflow.Time.Calendar

/-!
# Days and dates

The days of the years 1 to 9999 are those with a number below 3652059, and each of them has its
date.

**Years** (`yearAndRest_spec`). The cycles, centuries and spans of four years that `yearAndRest`
takes off are those whose leap days `daysBeforeYear` counts. Only a leap year has a day 365 after
its first, because the last year of a span is leap unless the span ends a century, and the last span
of a century is a day short unless the century ends a cycle.

**Months** (`monthAndDay_spec`). The month of a day is the one in which the lengths of the months
before it are used up.

Main results: `isValid_ofDays` and `toDays_ofDays`. The date of a day is in the calendar, and its
number is that of the day.
-/

namespace Workflow.Date

/-- The number of days in the years 1 to 9999. -/
def dayCount : Nat := 3652059

/-! ## Years -/

/-- The days of a year. -/
def yearLength (year : Nat) : Nat := if isLeap year then 366 else 365

theorem isLeap_of_span {cycles centuries spans : Nat} (hs : spans ≤ 24)
    (h : spans < 24 ∨ centuries = 3) :
    isLeap (400 * cycles + 100 * centuries + 4 * spans + 3 + 1) = true := by
  unfold isLeap
  simp only [Bool.and_eq_true, Bool.or_eq_true, beq_iff_eq, bne_iff_ne]
  omega

/-- **A day is found in its year.** -/
theorem yearAndRest_spec (days : Nat) :
    1 ≤ (yearAndRest days).1 ∧ (yearAndRest days).2 < yearLength (yearAndRest days).1 ∧
      daysBeforeYear (yearAndRest days).1 + (yearAndRest days).2 = days := by
  unfold yearAndRest
  dsimp only
  generalize hcycles : days / 146097 = cycles
  generalize hinCycle : days % 146097 = inCycle
  generalize hcenturies : min (inCycle / 36524) 3 = centuries
  generalize hinCentury : inCycle - centuries * 36524 = inCentury
  generalize hspans : inCentury / 1461 = spans
  generalize hinSpan : inCentury % 1461 = inSpan
  generalize hyears : min (inSpan / 365) 3 = years
  have hdays : days = 146097 * cycles + inCycle := by omega
  have hcycle : inCycle = 36524 * centuries + inCentury ∧ centuries ≤ 3 ∧
      (inCentury < 36524 ∨ centuries = 3 ∧ inCentury = 36524) := by omega
  have hcentury : inCentury = 1461 * spans + inSpan ∧ spans ≤ 24 ∧ inSpan < 1461 := by omega
  have hspan : years ≤ 3 ∧ 365 * years ≤ inSpan ∧
      (inSpan - years * 365 < 365 ∨ years = 3 ∧ inSpan = 1460) := by omega
  refine ⟨by omega, ?_, ?_⟩
  · rcases hspan.2.2 with hrest | ⟨rfl, hlast⟩
    · exact Nat.lt_of_lt_of_le hrest (by unfold yearLength; split <;> omega)
    · rw [yearLength, isLeap_of_span hcentury.2.1 (by omega), if_pos rfl, hlast]
      omega
  · have hquarter : (400 * cycles + 100 * centuries + 4 * spans + years) / 4 =
        100 * cycles + 25 * centuries + spans := by omega
    have hhundredth : (400 * cycles + 100 * centuries + 4 * spans + years) / 100 =
        4 * cycles + centuries := by omega
    have hlast : (400 * cycles + 100 * centuries + 4 * spans + years) / 400 = cycles := by omega
    unfold daysBeforeYear
    rw [Nat.add_sub_cancel]
    dsimp only
    rw [hquarter, hhundredth, hlast]
    omega

theorem yearAndRest_le {days : Nat} (h : days < dayCount) : (yearAndRest days).1 ≤ 9999 := by
  unfold yearAndRest dayCount at *
  dsimp only
  omega

/-! ## Months -/

/-- The days before each part of a list of lengths, and within it. -/
theorem monthAndDay_spec {lengths : List Nat} {rest : Nat} (month : Nat)
    (h : rest < lengths.foldr (· + ·) 0) :
    ∃ k day, monthAndDay month lengths rest = (month + k, day + 1) ∧ k < lengths.length ∧
      day < lengths.getD k 0 ∧ (lengths.take k).foldr (· + ·) 0 + day = rest := by
  induction lengths generalizing month rest with
  | nil => exact absurd h (Nat.not_lt_zero rest)
  | cons length lengths ih =>
    unfold monthAndDay
    split
    next hin => exact ⟨0, rest, rfl, Nat.succ_pos _, hin, Nat.zero_add rest⟩
    next hout =>
      have hout : length ≤ rest := Nat.le_of_not_lt hout
      have hrest : rest - length < lengths.foldr (· + ·) 0 :=
        (Nat.sub_lt_iff_lt_add' hout).2 h
      obtain ⟨k, day, heq, hk, hday, hsum⟩ := ih (month + 1) hrest
      refine ⟨k + 1, day, ?_, Nat.succ_lt_succ hk, hday, ?_⟩
      · rw [heq, Nat.add_right_comm, Nat.add_assoc]
      · rw [List.take_succ_cons, List.foldr_cons, Nat.add_assoc, hsum, Nat.add_sub_cancel' hout]

theorem monthLengths_length (year : Nat) : (monthLengths year).length = 12 := rfl

theorem monthLengths_sum (year : Nat) :
    (monthLengths year).foldr (· + ·) 0 = yearLength year := by
  unfold monthLengths yearLength
  split <;> rfl

theorem monthLengths_le {year length : Nat} (h : length ∈ monthLengths year) : length ≤ 31 := by
  unfold monthLengths at h
  simp only [List.mem_cons, List.not_mem_nil, or_false] at h
  split at h <;> omega

theorem monthLengths_getD_le (year k : Nat) : (monthLengths year).getD k 0 ≤ 31 := by
  rw [List.getD_eq_getElem?_getD]
  cases h : (monthLengths year)[k]? with
  | none => exact Nat.zero_le 31
  | some length => exact monthLengths_le (List.mem_of_getElem? h)

/-! ## Dates -/

theorem isValid_iff {d : Date} :
    d.isValid = true ↔ 1 ≤ d.year ∧ d.year ≤ 9999 ∧ 1 ≤ d.month ∧ d.month ≤ 12 ∧ 1 ≤ d.day ∧
      d.day ≤ (monthLengths d.year).getD (d.month - 1) 0 := by
  unfold isValid
  simp only [Bool.and_eq_true, decide_eq_true_eq, and_assoc]

/-- The numbers of a date of the calendar take four digits, two and two. -/
theorem lt_of_isValid {d : Date} (h : d.isValid = true) :
    d.year < 10 ^ 4 ∧ d.month < 10 ^ 2 ∧ d.day < 10 ^ 2 := by
  have hparts := isValid_iff.1 h
  have hlength : (monthLengths d.year).getD (d.month - 1) 0 ≤ 31 := monthLengths_getD_le ..
  omega

/-- The parts of a date, as they come from the day. -/
theorem ofDays_spec (days : Nat) :
    (ofDays days).year = (yearAndRest days).1 ∧ 1 ≤ (ofDays days).month ∧
      (ofDays days).month ≤ 12 ∧ 1 ≤ (ofDays days).day ∧
      (ofDays days).day ≤ (monthLengths (ofDays days).year).getD ((ofDays days).month - 1) 0 ∧
      (ofDays days).toDays = days := by
  obtain ⟨-, hrest, hdays⟩ := yearAndRest_spec days
  obtain ⟨k, day, hmonth, hk, hday, hsum⟩ := monthAndDay_spec 1 (monthLengths_sum _ ▸ hrest)
  have heq : ofDays days = ⟨(yearAndRest days).1, k + 1, day + 1⟩ := by
    unfold ofDays
    dsimp only
    rw [hmonth, Nat.add_comm 1 k]
  rw [heq]
  rw [monthLengths_length] at hk
  refine ⟨rfl, Nat.succ_pos k, hk, Nat.succ_pos day, hday, ?_⟩
  unfold toDays daysBeforeMonth
  dsimp only
  rw [Nat.add_sub_cancel, Nat.add_sub_cancel, Nat.add_assoc, hsum, hdays]

/-- **The date of a day of the years 1 to 9999 is in the calendar.** -/
theorem isValid_ofDays {days : Nat} (h : days < dayCount) : (ofDays days).isValid = true := by
  obtain ⟨hyear, hm, hm', hd, hd', -⟩ := ofDays_spec days
  have hfirst : 1 ≤ (ofDays days).year := hyear ▸ (yearAndRest_spec days).1
  have hlast : (ofDays days).year ≤ 9999 := hyear ▸ yearAndRest_le h
  exact isValid_iff.2 ⟨hfirst, hlast, hm, hm', hd, hd'⟩

/-- **The date of a day has the number of the day.** -/
theorem toDays_ofDays (days : Nat) : (ofDays days).toDays = days := by
  obtain ⟨-, -, -, -, -, hdays⟩ := ofDays_spec days
  exact hdays

/-- The last day of February of a leap year at the end of a cycle. -/
example : ofDays 730178 = ⟨2000, 2, 29⟩ ∧ toDays ⟨2000, 2, 29⟩ = 730178 := by decide

end Workflow.Date
