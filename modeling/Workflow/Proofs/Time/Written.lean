import Workflow.Proofs.Time.Calendar
import Workflow.Time.Timestamp

/-!
# Reading an instant's own text

The text of an instant of the years 1 to 9999 (`Instant.Writable`) reads back as that instant, told
in universal time.

**Digits** (`digits?_padded`). A number below `10 ^ width` takes exactly `width` characters, all of
them digits, and these are read as the number, whatever follows.

**Marks.** The offset begins at the first sign or `Z`. A time of day is written with digits, colons
and a point, so that is the sign of the offset.

Main result: `read?_text`. So the time between two texts is the difference of their instants
(`since?_text`).
-/

namespace Workflow

open Timestamp

namespace Instant

/-- The instant lies in the years 1 to 9999. -/
def Writable (t : Instant) : Prop := 0 ≤ t.micros ∧ t.micros < Date.dayCount * microsPerDay

instance (t : Instant) : Decidable t.Writable := inferInstanceAs (Decidable (_ ∧ _))

/-! ## Digits -/

theorem length_padded {width n : Nat} (hw : 0 < width) (h : n < 10 ^ width) :
    (padded width n).length = width := by
  have hle : (Nat.toDigits 10 n).length ≤ width := (Nat.length_toDigits_le_iff (by decide) hw).2 h
  unfold padded
  rw [List.length_append, List.length_replicate, Nat.sub_add_cancel hle]

theorem isDigit_of_mem_padded {width n : Nat} {c : Char} (h : c ∈ padded width n) :
    isDigit c = true := by
  unfold padded at h
  rcases List.mem_append.1 h with h | h
  · rw [List.eq_of_mem_replicate h]
    rfl
  · have hc : c.isDigit = true := Nat.isDigit_of_mem_toDigits (by decide) (by decide) h
    simpa [Char.isDigit, isDigit, Char.le_def] using hc

theorem ofDigitChars_padded (width n : Nat) : Nat.ofDigitChars 10 (padded width n) 0 = n := by
  unfold padded
  dsimp only
  rw [Nat.ofDigitChars_append, Nat.ofDigitChars_replicate_zero, Nat.mul_zero,
    Nat.ofDigitChars_ten_toDigits]

/-- **A padded number is read as the number, whatever follows.** -/
theorem digits?_padded {width n : Nat} (hw : 0 < width) (h : n < 10 ^ width) (rest : List Char) :
    digits? width (padded width n ++ rest) = some (n, rest) := by
  have hlength : (padded width n).length = width := length_padded hw h
  have hhead : (padded width n ++ rest).take width = padded width n := List.take_left' hlength
  have htail : (padded width n ++ rest).drop width = rest := List.drop_left' hlength
  have hdigits : (padded width n).all isDigit = true :=
    List.all_eq_true.2 fun c hc => isDigit_of_mem_padded hc
  have hvalue : (padded width n).foldl (fun n c => 10 * n + (c.toNat - 48)) 0 = n :=
    ofDigitChars_padded width n
  unfold digits?
  dsimp only
  rw [hhead, htail, hlength, hdigits, hvalue]
  simp

theorem padded_cons {width n : Nat} (hw : 0 < width) (h : n < 10 ^ width) :
    ∃ c cs, padded width n = c :: cs ∧ isDigit c = true := by
  have hlength : (padded width n).length = width := length_padded hw h
  cases hcs : padded width n with
  | nil =>
    rw [hcs] at hlength
    exact absurd hlength.symm (Nat.ne_of_gt hw)
  | cons c cs => exact ⟨c, cs, rfl, isDigit_of_mem_padded (hcs ▸ List.mem_cons_self)⟩

/-! ## Dates -/

variable {d : Date}

theorem date?_dateText (hyear : d.year < 10 ^ 4) (hmonth : d.month < 10 ^ 2)
    (hday : d.day < 10 ^ 2) : date? (dateText d) = some d := by
  obtain ⟨c, cs, hcs, hc⟩ := padded_cons (by decide) hmonth
  have hweek : c ≠ 'W' := by
    rintro rfl
    cases hc
  have hm : digits? 2 (c :: (cs ++ '-' :: padded 2 d.day)) =
      some (d.month, '-' :: padded 2 d.day) := by
    rw [← List.cons_append, ← hcs]
    exact digits?_padded (by decide) hmonth _
  have hd : digits? 2 (padded 2 d.day) = some (d.day, []) := by
    simpa using digits?_padded (by decide) hday []
  unfold date? dateText
  simp only [List.append_assoc, List.cons_append]
  rw [digits?_padded (by decide) hyear, hcs]
  simp [hm, hd, hweek]

/-! ## Times of day -/

/-- The parts of the time of day of a number of microseconds. -/
def timeParts (micros : Nat) : Parts where
  hours := micros / 1000000 / 3600
  minutes := micros / 1000000 / 60 % 60
  seconds := micros / 1000000 % 60
  micros := micros % 1000000

theorem timeParts_toMicros (micros : Nat) : (timeParts micros).toMicros = micros := by
  unfold Parts.toMicros timeParts
  dsimp only
  omega

theorem timeParts_isValid {micros : Nat} (h : micros < microsPerDay) :
    (timeParts micros).isValid = true := by
  unfold microsPerDay at h
  unfold Parts.isValid timeParts
  simp only [Bool.and_eq_true, decide_eq_true_eq]
  omega

theorem afterPair_colon {n : Nat} (h : n < 10 ^ 2) (rest : List Char) :
    afterPair true (':' :: (padded 2 n ++ rest)) = .pair (padded 2 n ++ rest) := by
  obtain ⟨c, cs, hcs, -⟩ := padded_cons (by decide) h
  rw [hcs]
  rfl

theorem afterPair_point {n : Nat} (h : n < 10 ^ 6) :
    afterPair true ('.' :: padded 6 n) = .fraction (padded 6 n) := by
  obtain ⟨c, cs, hcs, -⟩ := padded_cons (by decide) h
  rw [hcs]
  rfl

theorem fraction?_padded {n : Nat} (h : n < 10 ^ 6) (p : Parts) :
    fraction? p (padded 6 n) = some { p with micros := n, leftOver := false } := by
  have hread : digits? 6 (padded 6 n) = some (n, []) := by
    simpa using digits?_padded (by decide) h []
  unfold fraction?
  rw [length_padded (by decide) h]
  simp [hread]

/-- What follows the seconds: nothing, or the fraction. -/
theorem parts?_timeText {micros : Nat} (h : micros < microsPerDay) :
    parts? (timeText micros) = some (timeParts micros) := by
  have hhours : micros / 1000000 / 3600 < 10 ^ 2 := by
    unfold microsPerDay at h
    omega
  have hminutes : micros / 1000000 / 60 % 60 < 10 ^ 2 := by omega
  have hseconds : micros / 1000000 % 60 < 10 ^ 2 := by omega
  have hfraction : micros % 1000000 < 10 ^ 6 := by omega
  unfold parts? timeText
  simp only [List.append_assoc, List.cons_append]
  rw [digits?_padded (by decide) hhours]
  simp only [Option.bind_eq_bind, Option.bind_some, List.head?_cons, decide_true,
    afterPair_colon hminutes]
  rw [digits?_padded (by decide) hminutes]
  simp only [Option.bind_some, afterPair_colon hseconds]
  rw [digits?_padded (by decide) hseconds]
  simp only [Option.bind_some]
  unfold timeParts
  by_cases hzero : micros % 1000000 = 0
  · rw [if_pos hzero, hzero]
    rfl
  · rw [if_neg hzero, afterPair_point hfraction]
    exact fraction?_padded hfraction _

/-! ## Offsets -/

/-- A character that may begin an offset. -/
def isMark (c : Char) : Bool := c = '+' || c = '-' || c = 'Z'

theorem isMark_of_isDigit {c : Char} (h : isDigit c = true) : isMark c = false := by
  have hne : c ≠ '+' ∧ c ≠ '-' ∧ c ≠ 'Z' := by
    refine ⟨?_, ?_, ?_⟩ <;> rintro rfl <;> cases h
  simp [isMark, hne]

/-- No character of a time of day begins an offset. -/
theorem isMark_of_mem_timeText {micros : Nat} {c : Char} (h : c ∈ timeText micros) :
    isMark c = false := by
  unfold timeText at h
  simp only [List.mem_append, List.mem_cons] at h
  rcases h with ((h | rfl | h) | rfl | h) | h
  · exact isMark_of_isDigit (isDigit_of_mem_padded h)
  · rfl
  · exact isMark_of_isDigit (isDigit_of_mem_padded h)
  · rfl
  · exact isMark_of_isDigit (isDigit_of_mem_padded h)
  · split at h
    · cases h
    · rcases List.mem_cons.1 h with rfl | h
      · rfl
      · exact isMark_of_isDigit (isDigit_of_mem_padded h)

theorem timeAndOffset?_timeText {micros : Nat} (h : micros < microsPerDay) :
    timeAndOffset? (timeText micros ++ "+00:00".toList) = some (timeParts micros, some 0) := by
  have hplain : ∀ c ∈ timeText micros, (!isMark c) = true := fun c hc => by
    rw [isMark_of_mem_timeText hc]
    rfl
  have hbefore : (timeText micros ++ "+00:00".toList).takeWhile (!isMark ·) = timeText micros := by
    rw [List.takeWhile_append_of_pos hplain]
    exact List.append_nil _
  have hafter : (timeText micros ++ "+00:00".toList).dropWhile (!isMark ·) =
      '+' :: ['0', '0', ':', '0', '0'] := by
    rw [List.dropWhile_append_of_pos hplain]
    rfl
  have hoffset : offset? false ['0', '0', ':', '0', '0'] = some 0 := by decide +kernel
  unfold isMark at hbefore hafter
  unfold timeAndOffset?
  dsimp only
  rw [hbefore, hafter, parts?_timeText h]
  simp [hoffset]

/-! ## Whole texts -/

theorem length_dateText (hyear : d.year < 10 ^ 4) (hmonth : d.month < 10 ^ 2)
    (hday : d.day < 10 ^ 2) : (dateText d).length = 10 := by
  unfold dateText
  simp only [List.length_append, List.length_cons, length_padded (by decide : 0 < 4) hyear,
    length_padded (by decide : 0 < 2) hmonth, length_padded (by decide : 0 < 2) hday]

/-- The date is one with dashes and without a week. -/
theorem dateLength_dateText (hyear : d.year < 10 ^ 4) (hmonth : d.month < 10 ^ 2)
    (hday : d.day < 10 ^ 2) (rest : List Char) : dateLength (dateText d ++ rest) = 10 := by
  obtain ⟨c, cs, hcs, hc⟩ := padded_cons (by decide) hmonth
  have hlength : (dateText d ++ rest).length ≠ 7 := by
    rw [List.length_append, length_dateText hyear hmonth hday]
    omega
  have hfour : (padded 4 d.year).length = 4 := length_padded (by decide) hyear
  have hdash : (dateText d ++ rest)[4]? = some '-' := by
    unfold dateText
    simp only [List.append_assoc, List.cons_append]
    rw [List.getElem?_append_right (Nat.le_of_eq hfour), hfour]
    rfl
  have hweek : (dateText d ++ rest)[5]? = some c := by
    unfold dateText
    simp only [List.append_assoc, List.cons_append]
    rw [List.getElem?_append_right (by omega), hfour, hcs]
    rfl
  unfold dateLength
  rw [if_neg hlength, if_pos hdash, if_neg]
  rw [hweek]
  rintro h
  cases h
  cases hc

/-- The days before a writable instant. -/
theorem Writable.days_lt {t : Instant} (h : t.Writable) :
    t.micros.toNat / microsPerDay < Date.dayCount := by
  obtain ⟨hpos, hlt⟩ := h
  rw [Nat.div_lt_iff_lt_mul (by decide)]
  exact (Int.toNat_lt hpos).2 (Int.natCast_mul .. ▸ hlt)

/-- **The text of a writable instant reads as that instant.** -/
theorem read?_text {t : Instant} (h : t.Writable) :
    Timestamp.read? t.text = some ⟨t.micros, some 0⟩ := by
  have hvalid : (Date.ofDays (t.micros.toNat / microsPerDay)).isValid = true :=
    Date.isValid_ofDays h.days_lt
  have htime : t.micros.toNat % microsPerDay < microsPerDay := Nat.mod_lt _ (by decide)
  obtain ⟨hyear, hmonth, hday⟩ := Date.lt_of_isValid hvalid
  have hlength : (dateText (Date.ofDays (t.micros.toNat / microsPerDay))).length = 10 :=
    length_dateText hyear hmonth hday
  have hmicros : (t.micros.toNat / microsPerDay * microsPerDay + t.micros.toNat % microsPerDay : Nat)
      = t.micros := by
    rw [Nat.div_add_mod']
    exact Int.toNat_of_nonneg h.1
  unfold Timestamp.read? text
  dsimp only
  rw [String.toList_ofList, List.append_assoc, if_neg, dateLength_dateText hyear hmonth hday]
  · rw [List.take_left' hlength, List.drop_left' hlength, date?_dateText hyear hmonth hday]
    simp only [List.cons_append, Option.bind_eq_bind, Option.bind_some]
    split
    next heq => cases heq
    next heq =>
      have hempty : timeText (t.micros.toNat % microsPerDay) ++ "+00:00".toList = [] :=
        (List.cons.inj heq).2
      exact absurd (List.append_eq_nil_iff.1 hempty).2 (by decide +kernel)
    next heq =>
      obtain ⟨-, rfl⟩ := List.cons.inj heq
      rw [timeAndOffset?_timeText htime, Option.bind_some, hvalid, timeParts_isValid htime,
        Date.toDays_ofDays, timeParts_toMicros, hmicros]
      rfl
  · rw [List.length_append, hlength]
    omega

/-- The last microsecond of a leap day, with a fraction, and the moment after it, without. -/
example : text ⟨63844847999999999⟩ = "2024-02-29T23:59:59.999999+00:00" ∧
    text ⟨63844848000000000⟩ = "2024-03-01T00:00:00+00:00" := by decide +kernel

/-- The time between two texts is the difference of their instants. -/
theorem since?_text (t u : Instant) :
    Timestamp.since? ⟨u.micros, some 0⟩ ⟨t.micros, some 0⟩ = some (u.micros - t.micros) := by
  show some (u.micros - 0 - (t.micros - 0)) = some (u.micros - t.micros)
  rw [Int.sub_zero, Int.sub_zero]

end Instant

end Workflow
