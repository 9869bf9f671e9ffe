import PandaPay.CardRewards.Cycles

/-!
# v2 windows tile the calendar

Every period sorts the days of the years 1000 to 9999 into windows that tile: the windows are the blocks
of an increasing sequence of days, months in groups, anniversaries or statement dates. Texts of dates
are compared and read back, which needs years of four digits: a statement cycle that begins in the year
999 has no start.

## Main definitions

* `InYears`: the days of the years 1000 to 9999
* `Datable`: the days from the year 101 on
* `Counts`: the days that a period counts
* `anniversary`, `cycleStart`: the first days of card years and statement cycles

## Main results

* `parseDate_dateText`, `dateText_lt_iff`: texts of dates
* `blocks_anniversary`, `blocks_cycleStart`: card years and statement cycles
* `windowBoundsV2_tiling`: the windows of every period
-/

namespace PandaPay.CardRewards

open Gregorian

/-! ### Texts of dates -/

theorem decimal_two_digits {n : ℕ} (h₀ : 10 ≤ n) (h₁ : n < 100) :
    decimal n = [digitUnit (n / 10), digitUnit (n % 10)] := by
  rw [decimal, if_neg (by omega), Nat.digits_of_two_le_of_pos (by norm_num) (by omega),
    Nat.digits_of_lt 10 _ (by omega) (by omega)]
  rfl

theorem decimal_four_digits {n : ℕ} (h₀ : 1000 ≤ n) (h₁ : n < 10000) :
    decimal n = [digitUnit (n / 1000), digitUnit (n / 100 % 10), digitUnit (n / 10 % 10),
      digitUnit (n % 10)] := by
  rw [decimal, if_neg (by omega), Nat.digits_of_two_le_of_pos (by norm_num) (by omega),
    Nat.digits_of_two_le_of_pos (by norm_num) (by omega),
    Nat.digits_of_two_le_of_pos (by norm_num) (by omega),
    Nat.digits_of_lt 10 _ (by omega) (by omega)]
  have h2 : n / 10 / 10 = n / 100 := by omega
  have h3 : n / 10 / 10 / 10 = n / 1000 := by omega
  rw [h3, h2]
  rfl

/-- A number of at most two digits on two places. -/
theorem pad_eq {n : ℕ} (h : n < 100) : pad n = [digitUnit (n / 10), digitUnit (n % 10)] := by
  have hsigned : signedDecimal (n : ℤ) = decimal n := by simp [signedDecimal]
  rw [pad, hsigned]
  by_cases hn : n < 10
  · have hdecimal : decimal n = [digitUnit n] := by
      interval_cases n <;> decide
    rw [hdecimal, Nat.div_eq_of_lt hn, Nat.mod_eq_of_lt hn]
    rfl
  · rw [decimal_two_digits (not_lt.mp hn) h]
    rfl

/-- The days of the years 1000 to 9999. -/
def InYears : Set ℤ := {d | monthStart (12 * 1000) ≤ d ∧ d < monthStart (12 * 10000)}

theorem monthOf_mem {d : ℤ} (h : d ∈ InYears) : 12 * 1000 ≤ monthOf d ∧ monthOf d < 12 * 10000 := by
  obtain ⟨hle, hlt⟩ := blocks_monthStart.mem d
  have hmono := blocks_monthStart.strictMono
  constructor
  · have : 12 * 1000 < monthOf d + 1 := hmono.lt_iff_lt.mp (h.1.trans_lt hlt)
    omega
  · exact hmono.lt_iff_lt.mp (hle.trans_lt h.2)

/-- The day of the month is one of the month. -/
theorem utcDate_mem (d : ℤ) : 1 ≤ utcDate d ∧ utcDate d ≤ monthLength (monthOf d) := by
  obtain ⟨hle, hlt⟩ := blocks_monthStart.mem d
  rw [monthStart_succ] at hlt
  unfold utcDate
  omega

theorem monthOf_eq (d : ℤ) : monthOf d = 12 * yearOf d + utcMonth d := by
  unfold yearOf utcMonth
  omega

theorem utcMonth_mem (d : ℤ) : 0 ≤ utcMonth d ∧ utcMonth d < 12 := by
  unfold utcMonth
  omega

/-- The digits of a date of four-digit years. -/
theorem dateText_eq {d : ℤ} (h : d ∈ InYears) : ∃ y m k : ℕ, (yearOf d = y ∧ utcMonth d + 1 = m ∧
      utcDate d = k) ∧ (1000 ≤ y ∧ y < 10000) ∧ (1 ≤ m ∧ m ≤ 12) ∧ (1 ≤ k ∧ k ≤ 31) ∧
    dateText d = [digitUnit (y / 1000), digitUnit (y / 100 % 10), digitUnit (y / 10 % 10),
      digitUnit (y % 10), hyphen, digitUnit (m / 10), digitUnit (m % 10), hyphen,
      digitUnit (k / 10), digitUnit (k % 10)] := by
  obtain ⟨hlow, hhigh⟩ := monthOf_mem h
  have hmonth := utcMonth_mem d
  have hmonthOf := monthOf_eq d
  have hdate := utcDate_mem d
  have hlength := (monthLength_mem (monthOf d)).2
  obtain ⟨y, hy⟩ := Int.eq_ofNat_of_zero_le (show 0 ≤ yearOf d by omega)
  obtain ⟨m, hm⟩ := Int.eq_ofNat_of_zero_le (show 0 ≤ utcMonth d + 1 by omega)
  obtain ⟨k, hk⟩ := Int.eq_ofNat_of_zero_le (show 0 ≤ utcDate d by omega)
  refine ⟨y, m, k, ⟨hy, hm, hk⟩, by omega, by omega, by omega, ?_⟩
  have hsigned : signedDecimal (y : ℤ) = decimal y := by simp [signedDecimal]
  rw [dateText, hy, hm, hk, hsigned, decimal_four_digits (by omega) (by omega), pad_eq (by omega),
    pad_eq (by omega)]
  rfl

theorem unsignedValue_two {a b : ℕ} (ha : a < 10) (hb : b < 10) :
    unsignedValue [digitUnit a, digitUnit b] = 10 * a + b := by
  simp [unsignedValue, Nat.ofDigits, digitValue_digitUnit, ha, hb]
  omega

theorem unsignedValue_four {a b c d : ℕ} (ha : a < 10) (hb : b < 10) (hc : c < 10) (hd : d < 10) :
    unsignedValue [digitUnit a, digitUnit b, digitUnit c, digitUnit d] =
      1000 * a + 100 * b + 10 * c + d := by
  simp [unsignedValue, Nat.ofDigits, digitValue_digitUnit, ha, hb, hc, hd]
  omega

/-- The text of a day is read back. -/
theorem parseDate_dateText {d : ℤ} (h : d ∈ InYears) : parseDate (dateText d) = some d := by
  obtain ⟨y, m, k, ⟨hy, hm, hk⟩, hyear, hmonth, hday, htext⟩ := dateText_eq h
  have hdigit : ∀ n, isDigit (digitUnit (n % 10)) = true := fun n =>
    isDigit_digitUnit (Nat.mod_lt n (by norm_num))
  have hy4 : digitsValue [digitUnit (y / 1000), digitUnit (y / 100 % 10), digitUnit (y / 10 % 10),
      digitUnit (y % 10)] = some (y : ℤ) := by
    rw [digitsValue, if_pos, unsignedValue_four (by omega) (by omega) (by omega) (by omega)]
    · congr 2
      omega
    · simp [hdigit, isDigit_digitUnit (show y / 1000 < 10 by omega)]
  have htwo : ∀ n < 100, digitsValue [digitUnit (n / 10), digitUnit (n % 10)] = some (n : ℤ) := by
    intro n hn
    rw [digitsValue, if_pos, unsignedValue_two (by omega) (by omega)]
    · congr 2
      omega
    · simp [hdigit, isDigit_digitUnit (show n / 10 < 10 by omega)]
  rw [parseDate, htext, if_pos (by simp)]
  simp only [List.take_succ_cons, List.take_zero, List.drop_succ_cons, List.drop_zero, hy4,
    htwo m (by omega), htwo k (by omega)]
  rw [if_pos (by omega)]
  have hmonthOf := monthOf_eq d
  rw [hy, show utcMonth d = m - 1 by omega] at hmonthOf
  rw [← hmonthOf, ← hk, utcDate]
  congr 1
  omega

theorem digitUnit_lt_iff {a b : ℕ} (ha : a < 10) (hb : b < 10) :
    digitUnit a < digitUnit b ↔ a < b := by
  rw [Fin.lt_def, val_digitUnit ha, val_digitUnit hb]
  omega

theorem digitUnit_inj {a b : ℕ} (ha : a < 10) (hb : b < 10) :
    digitUnit a = digitUnit b ↔ a = b := by
  rw [Fin.ext_iff, val_digitUnit ha, val_digitUnit hb]
  omega

theorem two_digits_lt_iff {a b : ℕ} (ha : a < 100) (hb : b < 100) (s t : JsString) :
    digitUnit (a / 10) :: digitUnit (a % 10) :: s < digitUnit (b / 10) :: digitUnit (b % 10) :: t ↔
      a < b ∨ a = b ∧ s < t := by
  simp only [List.cons_lt_cons_iff, digitUnit_lt_iff (show a / 10 < 10 by omega) (show b / 10 < 10 by omega),
    digitUnit_lt_iff (show a % 10 < 10 by omega) (show b % 10 < 10 by omega),
    digitUnit_inj (show a / 10 < 10 by omega) (show b / 10 < 10 by omega),
    digitUnit_inj (show a % 10 < 10 by omega) (show b % 10 < 10 by omega)]
  by_cases h : s < t <;> simp only [h, and_true, and_false, or_false] <;> omega

/-- Texts of dates are in the order of their days. -/
theorem dateText_lt_iff {d e : ℤ} (hd : d ∈ InYears) (he : e ∈ InYears) :
    dateText d < dateText e ↔ d < e := by
  obtain ⟨y, m, k, ⟨hy, hm, hk⟩, hyear, hmonth, hday, htext⟩ := dateText_eq hd
  obtain ⟨y', m', k', ⟨hy', hm', hk'⟩, hyear', hmonth', hday', htext'⟩ := dateText_eq he
  have hlex : dateText d < dateText e ↔
      y < y' ∨ y = y' ∧ (m < m' ∨ m = m' ∧ k < k') := by
    have hcentury : ∀ n : ℕ, n / 1000 = n / 100 / 10 := by omega
    have htens : ∀ n : ℕ, n / 10 % 10 = n % 100 / 10 := by omega
    have hunits : ∀ n : ℕ, n % 10 = n % 100 % 10 := by omega
    rw [htext, htext', hcentury y, hcentury y', htens y, htens y', hunits y, hunits y',
      two_digits_lt_iff (by omega) (by omega), two_digits_lt_iff (by omega) (by omega),
      List.cons_lt_cons_iff, two_digits_lt_iff (by omega) (by omega), List.cons_lt_cons_iff,
      two_digits_lt_iff (by omega) (by omega)]
    simp only [lt_irrefl, false_or, true_and, and_false, or_false]
    omega
  rw [hlex]
  have hmono := blocks_monthStart.strictMono
  have hMd := monthOf_eq d
  have hMe := monthOf_eq e
  obtain ⟨hdle, hdlt⟩ := blocks_monthStart.mem d
  obtain ⟨hele, helt⟩ := blocks_monthStart.mem e
  rcases lt_trichotomy (monthOf d) (monthOf e) with hlt | heq | hgt
  · refine iff_of_true (by omega) ?_
    exact hdlt.trans_le ((hmono.monotone (show monthOf d + 1 ≤ monthOf e by omega)).trans hele)
  · have hstart : monthStart (monthOf d) = monthStart (monthOf e) := by rw [heq]
    unfold utcDate at hk hk'
    omega
  · refine iff_of_false (by omega) (not_lt.mpr (le_of_lt ?_))
    exact helt.trans_le ((hmono.monotone (show monthOf e + 1 ≤ monthOf d by omega)).trans hdle)

/-! ### Calendar periods -/

theorem dateUtc_eq {y : ℤ} (hy : 100 ≤ y) (m d : ℤ) :
    dateUtc y m d = monthStart (12 * y + m) + d - 1 := by
  rw [dateUtc, if_neg (by omega)]

theorem lastDayOfMonth_eq {y : ℤ} (hy : 100 ≤ y) (m : ℤ) :
    lastDayOfMonth y m = monthLength (12 * y + m) := by
  have hlast : dateUtc y (m + 1) 0 = monthStart (12 * y + m + 1) - 1 := by
    rw [dateUtc_eq hy, add_zero, ← add_assoc]
  have hlength := monthLength_mem (12 * y + m)
  have hsucc := monthStart_succ (12 * y + m)
  have hmonth : monthOf (monthStart (12 * y + m + 1) - 1) = 12 * y + m :=
    blocks_monthStart.eq_of_mem (by omega) (by omega)
  rw [lastDayOfMonth, hlast, utcDate, hmonth]
  omega

/-- The last day of a month. -/
theorem dateUtc_lastDayOfMonth {y : ℤ} (hy : 100 ≤ y) (m : ℤ) :
    dateUtc y m (lastDayOfMonth y m) = monthStart (12 * y + m + 1) - 1 := by
  rw [dateUtc_eq hy, lastDayOfMonth_eq hy, monthStart_succ]

/-- The days whose year `Date.UTC` takes as it is, with the year before. -/
def Datable : Set ℤ := {d | 100 < yearOf d}

/-- The bounds that a function of instants gives tile the days in `S`. -/
def TiledBy (S : Set ℤ) (f : ℤ → Bounds) : Prop :=
  ∃ lo hi, Tiling S lo hi ∧
    ∀ ref, utcDay ref ∈ S → f ref = ⟨dateText (lo (utcDay ref)), dateText (hi (utcDay ref))⟩

theorem TiledBy.mono {S T : Set ℤ} {f : ℤ → Bounds} (h : TiledBy T f) (hST : S ⊆ T) :
    TiledBy S f := by
  obtain ⟨lo, hi, htiling, hf⟩ := h
  exact ⟨lo, hi, htiling.mono hST, fun ref hd => hf ref (hST hd)⟩

theorem yearOf_mem {d : ℤ} (h : d ∈ InYears) : 1000 ≤ yearOf d ∧ yearOf d < 10000 := by
  have := monthOf_mem h
  unfold yearOf
  omega

theorem inYears_subset_datable : InYears ⊆ Datable := by
  intro d hd
  have := yearOf_mem hd
  show 100 < yearOf d
  omega

theorem calendarMonthBounds_tiled : TiledBy Datable calendarMonthBounds := by
  refine ⟨_, _, blocks_monthStart.tiling Datable, fun ref hd => ?_⟩
  have hyear : 100 < yearOf (utcDay ref) := hd
  rw [calendarMonthBounds, dateUtc_eq (by omega), dateUtc_lastDayOfMonth (by omega), ← monthOf_eq,
    add_sub_cancel_right]

theorem calendarQuarterBounds_tiled : TiledBy Datable calendarQuarterBounds := by
  refine ⟨_, _, (blocks_monthStart.every (show (0 : ℤ) < 3 by norm_num) 0).tiling Datable,
    fun ref hd => ?_⟩
  have hyear : 100 < yearOf (utcDay ref) := hd
  have hmonth := utcMonth_mem (utcDay ref)
  have hsum := monthOf_eq (utcDay ref)
  have hfirst : 12 * yearOf (utcDay ref) + utcMonth (utcDay ref) / 3 * 3 =
      3 * ((monthOf (utcDay ref) - 0) / 3) + 0 := by
    omega
  have hlast : 12 * yearOf (utcDay ref) + (utcMonth (utcDay ref) / 3 * 3 + 2) + 1 =
      3 * ((monthOf (utcDay ref) - 0) / 3 + 1) + 0 := by
    omega
  rw [calendarQuarterBounds, dateUtc_eq (by omega), dateUtc_lastDayOfMonth (by omega),
    add_sub_cancel_right, hfirst, hlast]

theorem calendarHalfYearBounds_tiled : TiledBy Datable calendarHalfYearBounds := by
  refine ⟨_, _, (blocks_monthStart.every (show (0 : ℤ) < 6 by norm_num) 0).tiling Datable,
    fun ref hd => ?_⟩
  have hyear : 100 < yearOf (utcDay ref) := hd
  have hmonth := utcMonth_mem (utcDay ref)
  have hsum := monthOf_eq (utcDay ref)
  have hfirst : 12 * yearOf (utcDay ref) + (if utcMonth (utcDay ref) < 6 then 0 else 6) =
      6 * ((monthOf (utcDay ref) - 0) / 6) + 0 := by
    split_ifs <;> omega
  have hlast : 12 * yearOf (utcDay ref) + ((if utcMonth (utcDay ref) < 6 then 0 else 6) + 5) + 1 =
      6 * ((monthOf (utcDay ref) - 0) / 6 + 1) + 0 := by
    split_ifs <;> omega
  rw [calendarHalfYearBounds, dateUtc_eq (by omega), dateUtc_lastDayOfMonth (by omega),
    add_sub_cancel_right, hfirst, hlast]

/-- The last of the 31 days of a month, for January, March, December and the others. -/
theorem dateUtc_31 {y m : ℤ} (hy : 100 ≤ y) (hm : m = 2 ∨ m = 11) :
    dateUtc y m 31 = monthStart (12 * y + (m + 1)) - 1 := by
  have hlength : monthLength (12 * y + m) = 31 := by
    rcases hm with rfl | rfl <;> rw [monthLength_eq y (by norm_num) (by norm_num)] <;> rfl
  rw [dateUtc_eq hy, ← add_assoc, monthStart_succ, hlength]

theorem calendarYearBounds_tiled : TiledBy Datable calendarYearBounds := by
  refine ⟨_, _, (blocks_monthStart.every (show (0 : ℤ) < 12 by norm_num) 0).tiling Datable,
    fun ref hd => ?_⟩
  have hyear : 100 < yearOf (utcDay ref) := hd
  have hmonth := utcMonth_mem (utcDay ref)
  have hsum := monthOf_eq (utcDay ref)
  rw [calendarYearBounds, dateUtc_eq (by omega), dateUtc_31 (by omega) (.inr rfl),
    add_sub_cancel_right]
  congr 4 <;> omega

theorem fiscalYearBounds_tiled : TiledBy Datable fiscalYearBounds := by
  refine ⟨_, _, (blocks_monthStart.every (show (0 : ℤ) < 12 by norm_num) 3).tiling Datable,
    fun ref hd => ?_⟩
  have hyear : 100 < yearOf (utcDay ref) := hd
  have hmonth := utcMonth_mem (utcDay ref)
  have hsum := monthOf_eq (utcDay ref)
  have hstart : 100 ≤ if 3 ≤ utcMonth (utcDay ref) then yearOf (utcDay ref)
      else yearOf (utcDay ref) - 1 := by
    split_ifs <;> omega
  rw [fiscalYearBounds, dateUtc_eq hstart, dateUtc_31 (by omega) (.inl rfl), add_sub_cancel_right]
  congr 4 <;> split_ifs <;> omega

/-! ### Card years -/

/-- The first day of the card year that begins in the year `k`. -/
def anniversary (anchor k : ℤ) : ℤ := monthStart (12 * k + utcMonth anchor) + utcDate anchor - 1

/-- The year in which the card year of a day begins. -/
def anniversaryYear (anchor d : ℤ) : ℤ :=
  if d < anniversary anchor (yearOf d) then yearOf d - 1 else yearOf d

/-- A 29th of February falls on the 1st of March in other years, which still is one day a year. -/
theorem blocks_anniversary (anchor : ℤ) : Blocks (anniversary anchor) (anniversaryYear anchor) := by
  have hmono := blocks_monthStart.strictMono
  have hmonth := utcMonth_mem anchor
  have hdate := utcDate_mem anchor
  have hlength := (monthLength_mem (monthOf anchor)).2
  have hwithin : ∀ k, monthStart (12 * k) ≤ anniversary anchor k ∧
      anniversary anchor k < monthStart (12 * (k + 1)) := by
    intro k
    have hstart := hmono.monotone (show 12 * k ≤ 12 * k + utcMonth anchor by omega)
    refine ⟨by unfold anniversary; omega, ?_⟩
    by_cases hdecember : utcMonth anchor = 11
    · have hlast := monthLength_eq k (show (0 : ℤ) ≤ 11 by norm_num) (by norm_num)
      have hnext := monthStart_succ (12 * k + 11)
      rw [show 12 * k + 11 + 1 = 12 * (k + 1) by omega] at hnext
      norm_num at hlast
      unfold anniversary
      rw [hdecember]
      omega
    · -- two months are longer than any day of the month
      have hnext := monthStart_succ (12 * k + utcMonth anchor)
      have hnext' := monthStart_succ (12 * k + utcMonth anchor + 1)
      have h₁ := monthLength_mem (12 * k + utcMonth anchor)
      have h₂ := monthLength_mem (12 * k + utcMonth anchor + 1)
      have := hmono.monotone (show 12 * k + utcMonth anchor + 1 + 1 ≤ 12 * (k + 1) by omega)
      unfold anniversary
      omega
  constructor
  · intro k
    exact (hwithin k).2.trans_le (hwithin (k + 1)).1
  · intro d
    obtain ⟨hle, hlt⟩ := blocks_monthStart.mem d
    have hyear : monthStart (12 * yearOf d) ≤ d ∧ d < monthStart (12 * (yearOf d + 1)) := by
      have hsum := monthOf_eq d
      have hmonth := utcMonth_mem d
      exact ⟨(hmono.monotone (by omega)).trans hle, hlt.trans_le (hmono.monotone (by omega))⟩
    unfold anniversaryYear
    split_ifs with hbefore
    · have := (hwithin (yearOf d - 1)).2
      rw [sub_add_cancel] at this ⊢
      exact ⟨(this.trans_le hyear.1).le, hbefore⟩
    · exact ⟨not_lt.mp hbefore, hyear.2.trans_le (hwithin (yearOf d + 1)).1⟩

theorem anniversaryYearBounds_tiled {text : JsString} {anchor : ℤ} (h : parseDate text = some anchor) :
    TiledBy Datable fun ref => anniversaryYearBounds ref text := by
  refine ⟨_, _, (blocks_anniversary anchor).tiling Datable, fun ref hd => ?_⟩
  have hyear : 100 < yearOf (utcDay ref) := hd
  have hbefore : ref < dateUtc (yearOf (utcDay ref)) (utcMonth anchor) (utcDate anchor) * dayMs ↔
      utcDay ref < anniversary anchor (yearOf (utcDay ref)) := by
    rw [dateUtc_eq (by omega), utcDay, Int.ediv_lt_iff_lt_mul (by norm_num [dayMs])]
    rfl
  simp only [anniversaryYearBounds, h, hbefore, anniversaryYear]
  split_ifs
  · rw [dateUtc_eq (by omega), dateUtc_eq (by omega)]
    congr 2
    unfold anniversary
    omega
  · rw [dateUtc_eq (by omega), dateUtc_eq (by omega)]
    congr 2
    unfold anniversary
    omega

/-! ### Statement cycles -/

/-- The first day of the statement cycle that ends in the month `k`. -/
def cycleStart (statementDay k : ℤ) : ℤ :=
  monthStart (k - 1) + min statementDay (monthLength (k - 1))

/-- The month in which the statement cycle of a day ends. -/
def cycleMonth (statementDay d : ℤ) : ℤ :=
  if cycleStart statementDay (monthOf d + 1) ≤ d then monthOf d + 1 else monthOf d

theorem cycleStart_mem {statementDay : ℤ} (h : 1 ≤ statementDay) (k : ℤ) :
    monthStart (k - 1) < cycleStart statementDay k ∧ cycleStart statementDay k ≤ monthStart k := by
  have hlength := monthLength_mem (k - 1)
  have hsucc := monthStart_succ (k - 1)
  rw [sub_add_cancel] at hsucc
  unfold cycleStart
  omega

theorem blocks_cycleStart {statementDay : ℤ} (h : 1 ≤ statementDay) :
    Blocks (cycleStart statementDay) (cycleMonth statementDay) := by
  have hmem := cycleStart_mem h
  constructor
  · intro k
    have := (hmem (k + 1)).1
    rw [add_sub_cancel_right] at this
    exact (hmem k).2.trans_lt this
  · intro d
    obtain ⟨hle, hlt⟩ := blocks_monthStart.mem d
    unfold cycleMonth
    split_ifs with hafter
    · have := (hmem (monthOf d + 1 + 1)).1
      rw [add_sub_cancel_right] at this
      exact ⟨hafter, hlt.trans this⟩
    · exact ⟨(hmem (monthOf d)).2.trans hle, not_le.mp hafter⟩

/-- The statement date of a month is the day before the next cycle. -/
theorem statementDateIn_eq {year m statementDay : ℤ} (hy : 100 ≤ year + m / 12) :
    statementDateIn year m statementDay = dateText (cycleStart statementDay (12 * year + m + 1) - 1) := by
  have hmonth : 12 * (year + m / 12) + m % 12 = 12 * year + m + 1 - 1 := by omega
  rw [statementDateIn, dateUtc_eq hy, lastDayOfMonth_eq hy, hmonth]
  rfl

/-- The days behind the first statement date of the year 1000. -/
def AfterFirstStatement (statementDay : ℤ) : Set ℤ :=
  {d | d ∈ InYears ∧ cycleStart statementDay (12 * 1000 + 1) ≤ d}

theorem statementCycleBoundsV2_tiled {statementDay : ℤ} (h : 1 ≤ statementDay) :
    TiledBy (AfterFirstStatement statementDay) fun ref => statementCycleBoundsV2 ref statementDay := by
  refine ⟨_, _, (blocks_cycleStart h).tiling _, fun ref hd => ?_⟩
  obtain ⟨hin, hfirst⟩ := hd
  have hyear := yearOf_mem hin
  have hmonth := utcMonth_mem (utcDay ref)
  have hsum := monthOf_eq (utcDay ref)
  have hmono := (blocks_cycleStart h).strictMono
  have hday := blocks_monthStart.mem (utcDay ref)
  -- the text of the statement date of this month comes before the day's when its day does
  have hthis : cycleStart statementDay (monthOf (utcDay ref) + 1) - 1 ∈ InYears := by
    have hmem := cycleStart_mem h (monthOf (utcDay ref) + 1)
    rw [add_sub_cancel_right] at hmem
    have hM := monthOf_mem hin
    have hlow := blocks_monthStart.strictMono.monotone hM.1
    have hhigh := blocks_monthStart.strictMono.monotone (show monthOf (utcDay ref) + 1 ≤ 12 * 10000 by omega)
    exact ⟨by omega, by omega⟩
  have hcompare : statementDateIn (yearOf (utcDay ref)) (utcMonth (utcDay ref)) statementDay <
      dateText (utcDay ref) ↔ cycleStart statementDay (monthOf (utcDay ref) + 1) ≤ utcDay ref := by
    rw [statementDateIn_eq (by omega), ← hsum, dateText_lt_iff hthis hin]
    omega
  have hend : (if statementDateIn (yearOf (utcDay ref)) (utcMonth (utcDay ref)) statementDay <
      dateText (utcDay ref) then utcMonth (utcDay ref) + 1 else utcMonth (utcDay ref)) =
      cycleMonth statementDay (utcDay ref) - 12 * yearOf (utcDay ref) := by
    unfold cycleMonth
    split_ifs <;> first | omega | (exfalso; tauto)
  -- the statement date before the cycle is in a year that is read back
  have hcycle := (blocks_cycleStart h).mem (utcDay ref)
  have hprevious : cycleStart statementDay (cycleMonth statementDay (utcDay ref)) - 1 ∈ InYears := by
    have hlater : 12 * 1000 + 1 < cycleMonth statementDay (utcDay ref) + 1 :=
      hmono.lt_iff_lt.mp (hfirst.trans_lt hcycle.2)
    have hle := hmono.monotone (show 12 * 1000 + 1 ≤ cycleMonth statementDay (utcDay ref) by omega)
    have hmem := cycleStart_mem h (12 * 1000 + 1)
    rw [add_sub_cancel_right] at hmem
    exact ⟨by omega, (by omega : _ < utcDay ref).trans hin.2⟩
  have hrange : (cycleStart statementDay (cycleMonth statementDay (utcDay ref)) - 1 + 1).natAbs ≤
      100000000 := by
    have hlow : monthStart (12 * 1000) = -354285 := by decide
    have hhigh : monthStart (12 * 10000) = 2932897 := by decide
    obtain ⟨h₁, h₂⟩ := hprevious
    omega
  have hmonths : 12000 ≤ cycleMonth statementDay (utcDay ref) := by
    unfold cycleMonth
    have := monthOf_mem hin
    split_ifs <;> omega
  have hindex : ∀ k, 12 * yearOf (utcDay ref) + (cycleMonth statementDay (utcDay ref) -
      12 * yearOf (utcDay ref) - k) + 1 = cycleMonth statementDay (utcDay ref) + 1 - k := by
    intro k
    omega
  have hindex' := hindex 0
  rw [sub_zero, sub_zero] at hindex'
  simp only [statementCycleBoundsV2, hend]
  rw [statementDateIn_eq (by omega), statementDateIn_eq (by omega), hindex 1, hindex',
    add_sub_cancel_right, addDays, parseDate_dateText hprevious]
  simp only [sub_add_cancel] at hrange ⊢
  rw [if_pos hrange]

/-! ### Windows -/

/-- The days that a period counts. Lifetime windows begin in 1970, and statement cycles with the first
whose statement date before it has a year of four digits. -/
def Counts (period : Period) (opts : WindowOptions) : Set ℤ :=
  {d | d ∈ InYears ∧ (period = .lifetime → 0 ≤ d) ∧
    (period = .statementCycle ∨ (period = .annual ∧ opts.anchor = some .statementCycle) →
      ∀ statementDay, opts.cycleDay = some statementDay → d ∈ AfterFirstStatement statementDay)}

/-- The lifetime window, by its days. -/
theorem lifetimeBounds_eq :
    lifetimeBounds = ⟨dateText 0, dateText (monthStart (12 * 10000) - 1)⟩ := by
  decide +kernel

/-- What `windowBoundsV2` returns for a period, but for the mark, tiles the days it counts. -/
theorem bounds_tiled (period : Period) {opts : WindowOptions}
    (hanchor : ∀ text, opts.anchorDate = some text → ∃ day ∈ InYears, text = dateText day)
    (hdays : opts.windowDays = none) :
    ∃ f approximate, TiledBy (Counts period opts) f ∧
      ∀ occurredAt, utcDay (istShift occurredAt) ∈ Counts period opts →
        windowBoundsV2 period occurredAt opts = some ⟨f (istShift occurredAt), approximate⟩ := by
  have hin : Counts period opts ⊆ Datable := fun d hd => inYears_subset_datable hd.1
  by_cases hcard : period = .annual ∧ opts.anchor = some .cardAnniversary
  · cases hdate : opts.anchorDate with
    | none =>
      refine ⟨calendarYearBounds, true, calendarYearBounds_tiled.mono hin, fun t _ => ?_⟩
      simp only [windowBoundsV2, hdays, if_pos hcard, hdate]
    | some text =>
      obtain ⟨day, hday, rfl⟩ := hanchor text hdate
      refine ⟨_, opts.anchorApproximate, (anniversaryYearBounds_tiled (parseDate_dateText hday)).mono hin, fun t _ => ?_⟩
      simp only [windowBoundsV2, hdays, if_pos hcard, hdate]
  by_cases hstatement : period = .statementCycle ∨
      (period = .annual ∧ opts.anchor = some .statementCycle)
  · cases hday : opts.cycleDay with
    | none =>
      refine ⟨calendarMonthBounds, true, calendarMonthBounds_tiled.mono hin, fun t _ => ?_⟩
      simp only [windowBoundsV2, hdays, if_neg hcard, if_pos hstatement, hday]
    | some statementDay =>
      have hpositive : 1 ≤ statementDay := by
        unfold WindowOptions.cycleDay at hday
        obtain ⟨given, hgiven, rfl⟩ := Option.map_eq_some_iff.mp hday
        have := (Option.filter_eq_some_iff.mp hgiven).2
        rw [decide_eq_true_eq] at this
        omega
      refine ⟨_, false, (statementCycleBoundsV2_tiled hpositive).mono ?_, fun t _ => ?_⟩
      · exact fun d hd => hd.2.2 hstatement statementDay hday
      · simp only [windowBoundsV2, hdays, if_neg hcard, if_pos hstatement, hday]
  · refine ⟨fun ref => periodBounds period ref opts.anchor, false, ?_, fun t _ => ?_⟩
    · cases period with
      | statementCycle => exact absurd (.inl rfl) hstatement
      | calendarMonth => exact calendarMonthBounds_tiled.mono hin
      | quarter => exact calendarQuarterBounds_tiled.mono hin
      | halfYear => exact calendarHalfYearBounds_tiled.mono hin
      | annual =>
        cases hkind : opts.anchor with
        | none => exact calendarYearBounds_tiled.mono hin
        | some anchor =>
          cases anchor with
          | cardAnniversary => exact absurd ⟨rfl, hkind⟩ hcard
          | calendarYear => exact calendarYearBounds_tiled.mono hin
          | fiscalYear => exact fiscalYearBounds_tiled.mono hin
          | statementCycle => exact absurd (.inr ⟨rfl, hkind⟩) hstatement
      | lifetime =>
        refine ⟨fun _ => 0, fun _ => monthStart (12 * 10000) - 1, tiling_const ?_, fun ref _ => ?_⟩
        · intro d hd
          have := hd.1.2
          exact ⟨hd.2.1 rfl, by omega⟩
        · exact lifetimeBounds_eq
    · simp only [windowBoundsV2, hdays, if_neg hcard, if_neg hstatement]

/-- **v2 windows tile the calendar.** For every period but a welcome window, the window of a day that
the period counts contains it, two days have the same window or disjoint ones, and the day after a
window starts the next. The lifetime window is one for all days. A welcome window that ends before the
year 10000 is one interval: the days in it have it and the others none. -/
theorem windowBoundsV2_tiling (period : Period) (opts : WindowOptions)
    (hanchor : ∀ text, opts.anchorDate = some text → ∃ day ∈ InYears, text = dateText day) :
    (opts.windowDays = none →
      (∃ lo hi approximate, Tiling (Counts period opts) lo hi ∧
        ∀ occurredAt, utcDay (istShift occurredAt) ∈ Counts period opts →
          windowBoundsV2 period occurredAt opts =
            some ⟨⟨dateText (lo (utcDay (istShift occurredAt))),
              dateText (hi (utcDay (istShift occurredAt)))⟩, approximate⟩) ∧
      (period = .lifetime → ∀ occurredAt,
        windowBoundsV2 period occurredAt opts = some ⟨lifetimeBounds, false⟩)) ∧
    (∀ days first, opts.windowDays = some days → opts.anchorDate = some (dateText first) →
      first ∈ InYears → 0 < days → first + (days - 1) ∈ InYears →
      ∀ occurredAt, utcDay (istShift occurredAt) ∈ InYears →
        windowBoundsV2 period occurredAt opts =
          if first ≤ utcDay (istShift occurredAt) ∧ utcDay (istShift occurredAt) ≤ first + (days - 1) then
            some ⟨⟨dateText first, dateText (first + (days - 1))⟩, opts.anchorApproximate⟩
          else none) := by
  refine ⟨fun hdays => ⟨?_, ?_⟩, ?_⟩
  · obtain ⟨f, approximate, ⟨lo, hi, htiling, hf⟩, hwindow⟩ := bounds_tiled period hanchor hdays
    refine ⟨lo, hi, approximate, htiling, fun t ht => ?_⟩
    rw [hwindow t ht, hf _ ht]
  · rintro rfl t
    simp [windowBoundsV2, hdays, periodBounds]
  · intro days first hdays hdate hfirst hpositive hlast t ht
    have hrange : (first + (days - 1)).natAbs ≤ 100000000 := by
      have hlow : monthStart (12 * 1000) = -354285 := by decide
      have hhigh : monthStart (12 * 10000) = 2932897 := by decide
      obtain ⟨h₁, h₂⟩ := hlast
      omega
    simp only [windowBoundsV2, hdays, hdate, if_neg (not_le.mpr hpositive), addDays,
      parseDate_dateText hfirst, if_pos hrange, dateText_lt_iff ht hfirst, dateText_lt_iff hlast ht]
    split_ifs <;> first | rfl | omega

/-- A card with an anniversary on 29 February 2024 and the statement day 31, in its card years. -/
theorem windowBoundsV2_tiling_leap :
    ∃ lo hi approximate, Tiling (Counts .annual
        { statementDay := some 31, anchor := some .cardAnniversary,
          anchorDate := some (js "2024-02-29") }) lo hi ∧
      ∀ occurredAt, utcDay (istShift occurredAt) ∈ Counts .annual
          { statementDay := some 31, anchor := some .cardAnniversary,
            anchorDate := some (js "2024-02-29") } →
        windowBoundsV2 .annual occurredAt
            { statementDay := some 31, anchor := some .cardAnniversary,
              anchorDate := some (js "2024-02-29") } =
          some ⟨⟨dateText (lo (utcDay (istShift occurredAt))),
            dateText (hi (utcDay (istShift occurredAt)))⟩, approximate⟩ := by
  refine ((windowBoundsV2_tiling .annual _ ?_).1 rfl).1
  intro text htext
  obtain rfl := Option.some.inj htext
  exact ⟨19782, ⟨by decide, by decide⟩, by decide +kernel⟩

/-- The lifetime window leaves the days before 1970 out, and the statement cycle of 5 January 1000
has no start. -/
theorem not_every_day_covered :
    (windowBoundsV2 .lifetime (-86400000) {} = some ⟨lifetimeBounds, false⟩ ∧
      dateText (utcDay (istShift (-86400000))) < lifetimeBounds.start) ∧
    dateText (utcDay (istShift (-354281 * dayMs))) = js "1000-01-05" ∧
      windowBoundsV2 .statementCycle (-354281 * dayMs) { statementDay := some 10 } =
        some ⟨⟨invalidDateText, js "1000-01-10"⟩, false⟩ := by
  decide +kernel

end PandaPay.CardRewards
