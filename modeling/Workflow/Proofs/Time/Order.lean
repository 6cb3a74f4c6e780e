import Mathlib.Data.String.Basic
import Workflow.Proofs.Time.Written

/-!
# The order of timestamps

Texts of writable instants are in the same order as the instants themselves. Texts are compared
character by character.

**Dates** (`Date.Before`). One date is before another by its year, then by its month, then by its
day. A month is over before the next one begins, and so is a year, leap or not; so dates come in the
order of their days.

**Digits** (`padded_append_lt`). Numbers padded to one width are in the order of their texts, and
what follows them counts only if they are equal.

**Fractions** (`fraction_lt`). A fraction of zero is left out, so the lengths of two texts may
differ. Where one text goes on with the offset and the other with a fraction, the sign of the
offset meets the point, which is greater.

Main result: `text_lt_text_iff`.
-/

namespace Workflow

namespace Date

variable {d d' : Date} {year year' : Nat}

/-! ## Dates -/

/-- By the year, then by the month, then by the day. -/
def Before (d d' : Date) : Prop :=
  d.year < d'.year ∨ d.year = d'.year ∧
    (d.month < d'.month ∨ d.month = d'.month ∧ d.day < d'.day)

theorem before_trichotomy (d d' : Date) : d.Before d' ∨ d = d' ∨ d'.Before d := by
  obtain ⟨year, month, day⟩ := d
  obtain ⟨year', month', day'⟩ := d'
  unfold Before
  rw [Date.mk.injEq]
  dsimp only
  omega

/-- A part of a list of lengths is over before a later one begins. -/
theorem take_sum_add_le (lengths : List Nat) {k l : Nat} (h : k < l) :
    (lengths.take k).foldr (· + ·) 0 + lengths.getD k 0 ≤ (lengths.take l).foldr (· + ·) 0 := by
  induction lengths generalizing k l with
  | nil => simp
  | cons length lengths ih =>
    obtain _ | l := l
    · exact absurd h (Nat.not_lt_zero k)
    cases k with
    | zero => simp
    | succ k =>
      have hrest := ih (Nat.lt_of_succ_lt_succ h)
      rw [List.take_succ_cons, List.take_succ_cons, List.foldr_cons, List.foldr_cons,
        List.getD_cons_succ, Nat.add_assoc]
      exact Nat.add_le_add_left hrest length

theorem daysBeforeYear_succ (hyear : 1 ≤ year) :
    daysBeforeYear (year + 1) = daysBeforeYear year + yearLength year := by
  obtain ⟨y, rfl⟩ : ∃ y, year = y + 1 := ⟨year - 1, by omega⟩
  have hle : y / 100 ≤ y / 4 := by omega
  have hnested : ((y + 1) % 400 = 0 → (y + 1) % 100 = 0) ∧
      ((y + 1) % 100 = 0 → (y + 1) % 4 = 0) := by omega
  unfold daysBeforeYear yearLength isLeap
  simp only [Nat.add_sub_cancel, Nat.succ_div, Nat.dvd_iff_mod_eq_zero, Bool.and_eq_true,
    Bool.or_eq_true, beq_iff_eq, bne_iff_ne]
  -- Whether the remainders are zero is all that matters.
  generalize (y + 1) % 4 = quarter at *
  generalize (y + 1) % 100 = hundredth at *
  generalize (y + 1) % 400 = cycle at *
  split_ifs <;> omega

/-- A year is over before a later one begins. -/
theorem daysBeforeYear_add_le (hyear : 1 ≤ year) (h : year < year') :
    daysBeforeYear year + yearLength year ≤ daysBeforeYear year' := by
  induction h with
  | refl => exact Nat.le_of_eq (daysBeforeYear_succ hyear).symm
  | step h ih =>
    rw [daysBeforeYear_succ (Nat.le_trans hyear (Nat.le_of_lt h))]
    exact Nat.le_trans ih (Nat.le_add_right ..)

/-- A date of the calendar comes before every later year. -/
theorem toDays_lt_daysBeforeYear (hd : d.isValid = true) (h : d.year < year') :
    d.toDays < daysBeforeYear year' := by
  obtain ⟨hfirst, -, hmonth⟩ := isValid_iff.1 hd
  have hmonths := take_sum_add_le (monthLengths d.year) (k := d.month - 1) (l := 12) (by omega)
  have hyear : (monthLengths d.year).take 12 = monthLengths d.year := rfl
  rw [hyear, monthLengths_sum] at hmonths
  have hover := daysBeforeYear_add_le hfirst h
  unfold toDays daysBeforeMonth
  omega

/-- **Dates of the calendar come in the order of their days.** -/
theorem toDays_lt_of_before (hd : d.isValid = true) (hd' : d'.isValid = true)
    (h : d.Before d') : d.toDays < d'.toDays := by
  rcases h with hyear | ⟨hyear, hrest⟩
  · refine Nat.lt_of_lt_of_le (toDays_lt_daysBeforeYear hd hyear) ?_
    unfold toDays
    omega
  have hparts := isValid_iff.1 hd
  have hparts' := isValid_iff.1 hd'
  unfold toDays daysBeforeMonth
  rw [← hyear]
  rcases hrest with hmonth | ⟨hmonth, hday⟩
  · have hover := take_sum_add_le (monthLengths d.year) (k := d.month - 1) (l := d'.month - 1)
      (by omega)
    omega
  · rw [← hmonth]
    omega

theorem before_of_lt {days days' : Nat} (h : days < days') (hin : days' < dayCount) :
    (ofDays days).Before (ofDays days') := by
  have hd : (ofDays days).isValid = true := isValid_ofDays (Nat.lt_trans h hin)
  have hd' : (ofDays days').isValid = true := isValid_ofDays hin
  rcases before_trichotomy (ofDays days) (ofDays days') with hb | heq | hb
  · exact hb
  · have hdays := congrArg toDays heq
    rw [toDays_ofDays, toDays_ofDays] at hdays
    exact absurd hdays (Nat.ne_of_lt h)
  · have hdays := toDays_lt_of_before hd' hd hb
    rw [toDays_ofDays, toDays_ofDays] at hdays
    exact absurd hdays (Nat.lt_asymm h)

end Date

namespace Instant

variable {d d' : Date} {m n width : Nat} {r s : List Char}

/-! ## Digits -/

/-- Of lists of one length, what follows them does not change the order. -/
theorem append_lt_append {as bs : List Char} (hlength : as.length = bs.length) (h : as < bs)
    (r s : List Char) : as ++ r < bs ++ s := by
  induction as generalizing bs with
  | nil =>
    cases bs with
    | nil => exact absurd h (List.not_lt_nil [])
    | cons b bs => cases hlength
  | cons a as ih =>
    cases bs with
    | nil => cases hlength
    | cons b bs =>
      rw [List.cons_append, List.cons_append, List.cons_lt_cons_iff]
      rcases List.cons_lt_cons_iff.1 h with hhead | ⟨hhead, htail⟩
      · exact .inl hhead
      · exact .inr ⟨hhead, ih (Nat.succ.inj hlength) htail⟩

theorem digitChar_lt (h : m < n) (hn : n < 10) : m.digitChar < n.digitChar := by
  rw [Char.lt_def, UInt32.lt_iff_toNat_lt]
  show m.digitChar.toNat < n.digitChar.toNat
  rw [Nat.toNat_digitChar_of_lt_ten hn, Nat.toNat_digitChar_of_lt_ten (Nat.lt_trans h hn)]
  omega

/-- The last digit of a padded number. -/
theorem padded_succ (hw : 0 < width) (n : Nat) :
    padded (width + 1) n = padded width (n / 10) ++ [Nat.digitChar (n % 10)] := by
  unfold padded
  dsimp only
  by_cases hn : n < 10
  · obtain ⟨k, rfl⟩ : ∃ k, width = k + 1 := ⟨width - 1, by omega⟩
    rw [Nat.div_eq_of_lt hn, Nat.mod_eq_of_lt hn, Nat.toDigits_of_lt_base hn,
      Nat.toDigits_of_lt_base (by decide)]
    show List.replicate (k + 1) '0' ++ _ = List.replicate k '0' ++ ['0'] ++ _
    rw [List.replicate_succ']
  · rw [Nat.toDigits_of_base_le (by decide) (Nat.le_of_not_lt hn), List.length_append,
      List.length_singleton, Nat.add_sub_add_right, List.append_assoc]

/-- **Padded numbers are in the order of their texts.** -/
theorem padded_lt (hw : 0 < width) (h : m < n) (hn : n < 10 ^ width) :
    padded width m < padded width n := by
  induction width, hw using Nat.le_induction generalizing m n with
  | base =>
    rw [Nat.pow_one] at hn
    unfold padded
    rw [Nat.toDigits_of_lt_base hn, Nat.toDigits_of_lt_base (Nat.lt_trans h hn)]
    exact List.cons_lt_cons_iff.2 (.inl (digitChar_lt h hn))
  | succ width hw ih =>
    have hdiv : n / 10 < 10 ^ width := by
      rw [Nat.pow_succ] at hn
      omega
    rw [padded_succ hw, padded_succ hw]
    -- The numbers without their last digits are in order, or only the last digits differ.
    rcases Nat.lt_or_eq_of_le (Nat.div_le_div_right (c := 10) (Nat.le_of_lt h)) with hlt | heq
    · have hlength : (padded width (m / 10)).length = (padded width (n / 10)).length := by
        rw [length_padded hw hdiv, length_padded hw (Nat.lt_trans hlt hdiv)]
      exact append_lt_append hlength (ih hlt hdiv) ..
    · rw [heq]
      have hdigit : m % 10 < n % 10 := by omega
      exact List.append_left_lt
        (List.cons_lt_cons_iff.2 (.inl (digitChar_lt hdigit (Nat.mod_lt _ (by decide)))))

/-- **What follows padded numbers counts only if they are equal.** -/
theorem padded_append_lt (hw : 0 < width) (hn : n < 10 ^ width) (h : m < n ∨ m = n ∧ r < s) :
    padded width m ++ r < padded width n ++ s := by
  rcases h with hlt | ⟨rfl, hrest⟩
  · have hlength : (padded width m).length = (padded width n).length := by
      rw [length_padded hw hn, length_padded hw (Nat.lt_trans hlt hn)]
    exact append_lt_append hlength (padded_lt hw hlt hn) r s
  · exact List.append_left_lt hrest

/-- The same after a mark. -/
theorem mark_append_lt (c : Char) (hw : 0 < width) (hn : n < 10 ^ width)
    (h : m < n ∨ m = n ∧ r < s) : c :: (padded width m ++ r) < c :: (padded width n ++ s) :=
  List.cons_lt_cons_self.2 (padded_append_lt hw hn h)

/-! ## Dates and times of day -/

theorem dateText_append_lt (hd' : d'.isValid = true) (h : d.Before d' ∨ d = d' ∧ r < s) :
    dateText d ++ r < dateText d' ++ s := by
  rcases h with hb | ⟨rfl, hrest⟩
  · obtain ⟨hyear, hmonth, hday⟩ := Date.lt_of_isValid hd'
    unfold dateText
    simp only [List.append_assoc, List.cons_append]
    refine padded_append_lt (by decide) hyear (hb.imp_right (And.imp_right fun hb => ?_))
    refine mark_append_lt '-' (by decide) hmonth (hb.imp_right (And.imp_right fun hb => ?_))
    exact mark_append_lt '-' (by decide) hday (.inl hb)
  · exact List.append_left_lt hrest

/-- Fractions with the offset that follows them. -/
theorem fraction_lt (h : m < n) (hn : n < 10 ^ 6) :
    (if m = 0 then [] else '.' :: padded 6 m) ++ "+00:00".toList <
      (if n = 0 then [] else '.' :: padded 6 n) ++ "+00:00".toList := by
  rw [if_neg (Nat.ne_of_gt (Nat.zero_lt_of_lt h))]
  by_cases hm : m = 0
  · rw [if_pos hm]
    -- Here the sign meets the point.
    exact List.cons_lt_cons_iff.2 (.inl (by decide))
  · rw [if_neg hm]
    exact mark_append_lt '.' (by decide) hn (.inl h)

theorem timeText_append_lt (h : m < n) (hn : n < microsPerDay) :
    timeText m ++ "+00:00".toList < timeText n ++ "+00:00".toList := by
  unfold microsPerDay at hn
  unfold timeText
  simp only [List.append_assoc, List.cons_append]
  refine padded_append_lt (by decide) (by omega) ?_
  refine (Nat.lt_or_eq_of_le (by omega)).imp_right fun hhours => ⟨hhours, ?_⟩
  refine mark_append_lt ':' (by decide) (by omega) ?_
  refine (Nat.lt_or_eq_of_le (by omega)).imp_right fun hminutes => ⟨hminutes, ?_⟩
  refine mark_append_lt ':' (by decide) (by omega) ?_
  refine (Nat.lt_or_eq_of_le (by omega)).imp_right fun hseconds => ⟨hseconds, ?_⟩
  exact fraction_lt (by omega) (by omega)

/-! ## Whole texts -/

variable {t u : Instant}

theorem toList_text (t : Instant) :
    t.text.toList = dateText (Date.ofDays (t.micros.toNat / microsPerDay)) ++
      'T' :: (timeText (t.micros.toNat % microsPerDay) ++ "+00:00".toList) := by
  unfold text
  dsimp only
  rw [String.toList_ofList, List.append_assoc, List.cons_append]

theorem text_lt_text (ht : t.Writable) (hu : u.Writable) (h : t.micros < u.micros) :
    t.text < u.text := by
  have hlt : t.micros.toNat < u.micros.toNat := by
    have hpos := ht.1
    omega
  rw [String.lt_iff_toList_lt, toList_text, toList_text]
  refine dateText_append_lt (Date.isValid_ofDays hu.days_lt) ?_
  rcases Nat.lt_or_eq_of_le (Nat.div_le_div_right (c := microsPerDay) (Nat.le_of_lt hlt)) with
    hday | hday
  · exact .inl (Date.before_of_lt hday hu.days_lt)
  · have htime : t.micros.toNat % microsPerDay < u.micros.toNat % microsPerDay := by
      unfold microsPerDay at hday ⊢
      omega
    exact .inr ⟨congrArg Date.ofDays hday,
      List.cons_lt_cons_self.2 (timeText_append_lt htime (Nat.mod_lt _ (by decide)))⟩

/-- **Texts are in the order of time.** -/
theorem text_lt_text_iff (ht : t.Writable) (hu : u.Writable) :
    t.text < u.text ↔ t.micros < u.micros := by
  refine ⟨fun h => ?_, text_lt_text ht hu⟩
  rcases Int.lt_trichotomy t.micros u.micros with hlt | heq | hgt
  · exact hlt
  · obtain ⟨_⟩ := t
    obtain ⟨_⟩ := u
    cases heq
    exact absurd h (lt_irrefl _)
  · exact absurd h (lt_asymm (text_lt_text hu ht hgt))

end Instant

end Workflow
