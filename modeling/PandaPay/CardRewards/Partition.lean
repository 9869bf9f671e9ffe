import PandaPay.CardRewards.Windows

/-!
# v1 windows and the calendar

The windows of v1 cards still key fee waivers. They tile the calendar but for statement cycles: the start
of a cycle is the statement day, clamped to its month, and the end is the day before the clamped statement
day of the next month, or its first day at least. A month shorter than the statement day loses its
last day, which is counted to the cycle that ended the day before, and with the statement day 1 two cycles
share the first of a month.

## Main definitions

* `Bounds.days`: the days of a window
* `SameOrDisjoint`: two windows that a partition can have
* `Reached`, `Apart`: where windows contain their days, and where they do not overlap

## Main results

* `periodBoundsWith_partition_iff`: where v1 windows partition the days
-/

namespace PandaPay.CardRewards

open Gregorian

/-! ### The days of a window -/

/-- The days from the first date of a window to its last. -/
def Bounds.days (b : Bounds) : Set ℤ :=
  {d | ∃ lo hi, b = ⟨dateText lo, dateText hi⟩ ∧ lo ≤ d ∧ d ≤ hi}

theorem signedDecimal_injective : Function.Injective signedDecimal :=
  Function.LeftInverse.injective signedValue_signedDecimal

theorem pad_injOn : Set.InjOn pad (Set.Ico 0 100) := by
  rintro a ⟨ha, ha'⟩ b ⟨hb, hb'⟩ hpad
  obtain ⟨m, rfl⟩ := Int.eq_ofNat_of_zero_le ha
  obtain ⟨n, rfl⟩ := Int.eq_ofNat_of_zero_le hb
  rw [pad_eq (by omega), pad_eq (by omega)] at hpad
  simp only [List.cons.injEq, and_true] at hpad
  obtain ⟨htens, hunits⟩ := hpad
  rw [digitUnit_inj (by omega) (by omega)] at htens hunits
  omega

theorem length_pad {n : ℤ} (h : n ∈ Set.Ico 0 100) : (pad n).length = 2 := by
  obtain ⟨m, rfl⟩ := Int.eq_ofNat_of_zero_le h.1
  have := h.2
  rw [pad_eq (by omega)]
  rfl

/-- A date is read from its text. -/
theorem dateText_injective : Function.Injective dateText := by
  intro d e htext
  have hmonth : ∀ n, utcMonth n + 1 ∈ Set.Ico (0 : ℤ) 100 := fun n => by
    have := utcMonth_mem n
    exact ⟨by omega, by omega⟩
  have hdate : ∀ n, utcDate n ∈ Set.Ico (0 : ℤ) 100 := fun n => by
    have := utcDate_mem n
    have := (monthLength_mem (monthOf n)).2
    exact ⟨by omega, by omega⟩
  obtain ⟨hy, hrest⟩ := List.append_inj' htext (by simp [length_pad, hmonth, hdate])
  obtain ⟨hm, hd⟩ := List.append_inj (List.cons.inj hrest).2 (by simp [length_pad, hmonth])
  have hyear := signedDecimal_injective hy
  have hmonths := pad_injOn (hmonth d) (hmonth e) hm
  have hdates := pad_injOn (hdate d) (hdate e) (List.cons.inj hd).2
  have hmonthOf : monthOf d = monthOf e := by
    rw [monthOf_eq d, monthOf_eq e]
    omega
  unfold utcDate at hdates
  rw [hmonthOf] at hdates
  omega

theorem days_dateText (lo hi : ℤ) : (⟨dateText lo, dateText hi⟩ : Bounds).days = Set.Icc lo hi := by
  ext d
  constructor
  · rintro ⟨lo', hi', heq, hlo, hhi⟩
    obtain ⟨h₁, h₂⟩ := Bounds.mk.inj heq
    rw [dateText_injective h₁, dateText_injective h₂]
    exact ⟨hlo, hhi⟩
  · rintro ⟨hlo, hhi⟩
    exact ⟨lo, hi, rfl, hlo, hhi⟩

/-- Two windows are one, or have no day in common. -/
def SameOrDisjoint (b c : Bounds) : Prop := b = c ∨ Disjoint b.days c.days

theorem sameOrDisjoint_dateText {lo hi lo' hi' : ℤ}
    (h : (lo = lo' ∧ hi = hi') ∨ hi < lo' ∨ hi' < lo) :
    SameOrDisjoint ⟨dateText lo, dateText hi⟩ ⟨dateText lo', dateText hi'⟩ := by
  rcases h with ⟨rfl, rfl⟩ | hbefore | hafter
  · exact .inl rfl
  · refine .inr ?_
    rw [days_dateText, days_dateText, Set.disjoint_left]
    exact fun d hd hd' => absurd (hd'.1.trans hd.2) (not_le.mpr hbefore)
  · refine .inr ?_
    rw [days_dateText, days_dateText, Set.disjoint_left]
    exact fun d hd hd' => absurd (hd.1.trans hd'.2) (not_le.mpr hafter)

/-- Bounds that tile partition the days. -/
theorem TiledBy.partition {S : Set ℤ} {f : ℤ → Bounds} (h : TiledBy S f) :
    (∀ ref, utcDay ref ∈ S → utcDay ref ∈ (f ref).days) ∧
      ∀ ref ref', utcDay ref ∈ S → utcDay ref' ∈ S → SameOrDisjoint (f ref) (f ref') := by
  obtain ⟨lo, hi, htiling, hf⟩ := h
  constructor
  · intro ref hd
    rw [hf ref hd, days_dateText]
    exact htiling.mem _ hd
  · intro ref ref' hd hd'
    rw [hf ref hd, hf ref' hd']
    exact sameOrDisjoint_dateText (htiling.same_or_disjoint _ hd _ hd')

/-! ### Statement cycles -/

/-- The month in which the v1 cycle of a day begins. -/
def startMonth (statementDay d : ℤ) : ℤ :=
  if utcDate d < statementDay then monthOf d - 1 else monthOf d

/-- The statement day of the month `k`, clamped to it. -/
def statementDate (statementDay k : ℤ) : ℤ := monthStart k + min statementDay (monthLength k) - 1

/-- The last day of the v1 cycle that ends in the month `k`. -/
def lastDate (statementDay k : ℤ) : ℤ :=
  monthStart k + max (min statementDay (monthLength k) - 1) 1 - 1

theorem statementCycleBounds_eq (statementDay : ℤ) {ref : ℤ} (hd : utcDay ref ∈ Datable) :
    statementCycleBounds ref statementDay =
      ⟨dateText (statementDate statementDay (startMonth statementDay (utcDay ref))),
        dateText (lastDate statementDay (startMonth statementDay (utcDay ref) + 1))⟩ := by
  have hyear : 100 < yearOf (utcDay ref) := hd
  have hsum := monthOf_eq (utcDay ref)
  have hmonth := utcMonth_mem (utcDay ref)
  have hfirst : ∀ y m, 100 ≤ y → dateUtc y m (min statementDay (lastDayOfMonth y m)) =
      statementDate statementDay (12 * y + m) := fun y m hy => by
    rw [dateUtc_eq hy, lastDayOfMonth_eq hy]
    rfl
  have hlast : ∀ y m, 100 ≤ y → dateUtc y m (max (min statementDay (lastDayOfMonth y m) - 1) 1) =
      lastDate statementDay (12 * y + m) := fun y m hy => by
    rw [dateUtc_eq hy, lastDayOfMonth_eq hy]
    rfl
  unfold statementCycleBounds startMonth
  dsimp only
  by_cases hbefore : utcDate (utcDay ref) < statementDay
  · by_cases hjanuary : utcMonth (utcDay ref) = 0
    · have hdecember : 12 * (yearOf (utcDay ref) - 1) + 11 = monthOf (utcDay ref) - 1 := by omega
      have hnext : 12 * (yearOf (utcDay ref) - 1 + 1) + 0 = monthOf (utcDay ref) - 1 + 1 := by omega
      simp only [if_pos hbefore, if_pos hjanuary, if_true]
      rw [hfirst _ _ (by omega), hlast _ _ (by omega), hdecember, hnext]
    · have hprevious : 12 * yearOf (utcDay ref) + (utcMonth (utcDay ref) - 1) =
          monthOf (utcDay ref) - 1 := by omega
      have hnext : 12 * yearOf (utcDay ref) + (utcMonth (utcDay ref) - 1 + 1) =
          monthOf (utcDay ref) - 1 + 1 := by omega
      have hlate : ¬ utcMonth (utcDay ref) - 1 = 11 := by omega
      simp only [if_pos hbefore, if_neg hjanuary, if_neg hlate]
      rw [hfirst _ _ (by omega), hlast _ _ (by omega), hprevious, hnext]
  · by_cases hdecember : utcMonth (utcDay ref) = 11
    · have hnext : 12 * (yearOf (utcDay ref) + 1) + 0 = monthOf (utcDay ref) + 1 := by omega
      simp only [if_neg hbefore, if_pos hdecember]
      rw [hfirst _ _ (by omega), hlast _ _ (by omega), ← hsum, hnext]
    · have hnext : 12 * yearOf (utcDay ref) + (utcMonth (utcDay ref) + 1) =
          monthOf (utcDay ref) + 1 := by omega
      simp only [if_neg hbefore, if_neg hdecember]
      rw [hfirst _ _ (by omega), hlast _ _ (by omega), ← hsum, hnext]

theorem statementDate_mem {statementDay : ℤ} (h : 1 ≤ statementDay) (k : ℤ) :
    monthStart k ≤ statementDate statementDay k ∧ statementDate statementDay k < monthStart (k + 1) := by
  have hlength := monthLength_mem k
  have hsucc := monthStart_succ k
  unfold statementDate
  omega

/-- A cycle ends the day before the next begins, but for the statement day 1. -/
theorem lastDate_eq {statementDay : ℤ} (h : 2 ≤ statementDay) (k : ℤ) :
    lastDate statementDay k = statementDate statementDay k - 1 := by
  have hlength := monthLength_mem k
  unfold lastDate statementDate
  omega

theorem statementDate_one (k : ℤ) : statementDate 1 k = monthStart k := by
  have hlength := monthLength_mem k
  unfold statementDate
  omega

theorem lastDate_one (k : ℤ) : lastDate 1 k = monthStart k := by
  have hlength := monthLength_mem k
  unfold lastDate
  omega

/-- The last day of a month that is shorter than the statement day is in no cycle. -/
theorem mem_cycle_iff {statementDay : ℤ} (h : 1 ≤ statementDay) (d : ℤ) :
    d ∈ Set.Icc (statementDate statementDay (startMonth statementDay d))
        (lastDate statementDay (startMonth statementDay d + 1)) ↔
      statementDay ≤ monthLength (monthOf d) ∨ utcDate d < monthLength (monthOf d) := by
  have hdate := utcDate_mem d
  have hday : d = monthStart (monthOf d) + utcDate d - 1 := by unfold utcDate; omega
  have hthis := statementDate_mem h (monthOf d)
  have hprevious := statementDate_mem h (monthOf d - 1)
  have hnext := statementDate_mem h (monthOf d + 1)
  rw [sub_add_cancel] at hprevious
  have hsucc := monthStart_succ (monthOf d)
  rw [Set.mem_Icc]
  unfold startMonth
  split_ifs with hbefore
  · -- the cycle began in the month before: it ends with the statement day of this month
    rw [sub_add_cancel, lastDate_eq (by omega)]
    unfold statementDate at hprevious ⊢
    omega
  · by_cases hone : statementDay = 1
    · subst hone
      rw [statementDate_one, lastDate_one]
      omega
    · rw [lastDate_eq (by omega)]
      unfold statementDate at hnext ⊢
      omega

/-- Two cycles are one or have no day in common, but for neighbours with the statement day 1. -/
theorem cycles_apart_iff {statementDay : ℤ} (h : 1 ≤ statementDay) (d e : ℤ) :
    SameOrDisjoint
        ⟨dateText (statementDate statementDay (startMonth statementDay d)),
          dateText (lastDate statementDay (startMonth statementDay d + 1))⟩
        ⟨dateText (statementDate statementDay (startMonth statementDay e)),
          dateText (lastDate statementDay (startMonth statementDay e + 1))⟩ ↔
      (statementDay = 1 → monthOf e ≠ monthOf d + 1 ∧ monthOf d ≠ monthOf e + 1) := by
  have hmono := blocks_monthStart.strictMono
  by_cases hone : statementDay = 1
  · subst hone
    have hmonth : ∀ n, startMonth 1 n = monthOf n := fun n => if_neg (by
      have := utcDate_mem n
      omega)
    simp only [hmonth, statementDate_one, lastDate_one, forall_const]
    constructor
    · -- the first of a month is in the cycle that it ends, too
      intro hsame
      have hshared : ∀ k, ¬ SameOrDisjoint ⟨dateText (monthStart k), dateText (monthStart (k + 1))⟩
          ⟨dateText (monthStart (k + 1)), dateText (monthStart (k + 1 + 1))⟩ := by
        rintro k (heq | hdisjoint)
        · have hstart := dateText_injective (Bounds.mk.inj heq).1
          exact absurd hstart (blocks_monthStart.lt_succ k).ne
        · rw [days_dateText, days_dateText, Set.disjoint_left] at hdisjoint
          exact hdisjoint ⟨(blocks_monthStart.lt_succ k).le, le_rfl⟩
            ⟨le_rfl, (blocks_monthStart.lt_succ (k + 1)).le⟩
      constructor
      · intro hnext
        rw [hnext] at hsame
        exact hshared _ hsame
      · intro hnext
        rw [hnext] at hsame
        exact hshared _ (hsame.imp Eq.symm fun hdisjoint => hdisjoint.symm)
    · rintro ⟨hnext, hprevious⟩
      refine sameOrDisjoint_dateText ?_
      rcases lt_trichotomy (monthOf d) (monthOf e) with hlt | heq | hgt
      · exact .inr (.inl (hmono (by omega)))
      · rw [heq]
        exact .inl ⟨rfl, rfl⟩
      · exact .inr (.inr (hmono (by omega)))
  · refine iff_of_true (sameOrDisjoint_dateText ?_) fun h => absurd h hone
    have hlast : ∀ k, lastDate statementDay k = statementDate statementDay k - 1 :=
      lastDate_eq (by omega)
    have hincreasing : StrictMono (statementDate statementDay) := strictMono_int_of_lt_succ fun k =>
      (statementDate_mem h k).2.trans_le (statementDate_mem h (k + 1)).1
    rw [hlast, hlast]
    rcases lt_trichotomy (startMonth statementDay d) (startMonth statementDay e) with hlt | heq | hgt
    · have := hincreasing.monotone (show startMonth statementDay d + 1 ≤ startMonth statementDay e by omega)
      exact .inr (.inl (by omega))
    · rw [heq]
      exact .inl ⟨rfl, rfl⟩
    · have := hincreasing.monotone (show startMonth statementDay e + 1 ≤ startMonth statementDay d by omega)
      exact .inr (.inr (by omega))

/-! ### v1 windows -/

/-- The cycle of a statement is counted, by the period or by the anchor of a year. -/
def ByCycle (period : Period) (opts : PeriodOptions) : Prop :=
  period = .statementCycle ∨ period = .annual ∧ opts.anchor = some .statementCycle

/-- The days that their windows contain. -/
def Reached (period : Period) (opts : PeriodOptions) (d : ℤ) : Prop :=
  (period = .lifetime → 0 ≤ d ∧ d < monthStart (12 * 10000)) ∧
    (ByCycle period opts → ∀ statementDay, opts.statementDay = some statementDay →
      statementDay ≤ monthLength (monthOf d) ∨ utcDate d < monthLength (monthOf d))

/-- The days whose windows are one or do not overlap. -/
def Apart (period : Period) (opts : PeriodOptions) (d e : ℤ) : Prop :=
  ByCycle period opts → opts.statementDay = some 1 →
    monthOf e ≠ monthOf d + 1 ∧ monthOf d ≠ monthOf e + 1

theorem periodBoundsWith_byCycle {period : Period} {opts : PeriodOptions} (h : ByCycle period opts)
    (ref : ℤ) : periodBoundsWith period ref opts = statementCycleBoundsOn ref opts.statementDay := by
  rcases h with rfl | ⟨rfl, hanchor⟩
  · rfl
  · simp only [periodBoundsWith, hanchor]

/-- Every other period but the lifetime tiles the calendar. -/
theorem periodBoundsWith_tiled {period : Period} {opts : PeriodOptions} (hcycle : ¬ ByCycle period opts)
    (hlifetime : period ≠ .lifetime)
    (hanchor : ∀ text, opts.anchorDate = some text → text ≠ [] → (parseDate text).isSome) :
    TiledBy Datable fun ref => periodBoundsWith period ref opts := by
  cases period with
  | lifetime => exact absurd rfl hlifetime
  | statementCycle => exact absurd (.inl rfl) hcycle
  | calendarMonth => exact calendarMonthBounds_tiled
  | quarter => exact calendarQuarterBounds_tiled
  | halfYear => exact calendarHalfYearBounds_tiled
  | annual =>
    cases hkind : opts.anchor with
    | none => simpa only [periodBoundsWith, hkind] using calendarYearBounds_tiled
    | some anchor =>
      cases anchor with
      | calendarYear => simpa only [periodBoundsWith, hkind] using calendarYearBounds_tiled
      | fiscalYear => simpa only [periodBoundsWith, hkind] using fiscalYearBounds_tiled
      | statementCycle => exact absurd (.inr ⟨rfl, hkind⟩) hcycle
      | cardAnniversary =>
        cases hdate : opts.anchorDate.filter (· ≠ []) with
        | none => simpa only [periodBoundsWith, hkind, hdate] using calendarYearBounds_tiled
        | some text =>
          obtain ⟨htext, hempty⟩ := Option.filter_eq_some_iff.mp hdate
          obtain ⟨day, hday⟩ := Option.isSome_iff_exists.mp
            (hanchor text htext (by simpa using hempty))
          simpa only [periodBoundsWith, hkind, hdate] using anniversaryYearBounds_tiled hday

/-- The lifetime window has the days from 1970 to 9999. -/
theorem days_lifetimeBounds : lifetimeBounds.days = Set.Icc 0 (monthStart (12 * 10000) - 1) := by
  rw [lifetimeBounds_eq, days_dateText]

/-- **Where v1 windows partition the days.** For every period and every statement day, the window of a day
contains it, but for lifetime windows before 1970 or after 9999 and for the last day of a month that is
shorter than the statement day; two windows are the same or disjoint, but for the cycles of neighbouring
months with the statement day 1. -/
theorem periodBoundsWith_partition_iff (period : Period) (opts : PeriodOptions)
    (hstatement : ∀ statementDay, opts.statementDay = some statementDay → 1 ≤ statementDay)
    (hanchor : ∀ text, opts.anchorDate = some text → text ≠ [] → (parseDate text).isSome)
    (ref ref' : ℤ) (hd : utcDay ref ∈ Datable) (hd' : utcDay ref' ∈ Datable) :
    (utcDay ref ∈ (periodBoundsWith period ref opts).days ↔ Reached period opts (utcDay ref)) ∧
      (SameOrDisjoint (periodBoundsWith period ref opts) (periodBoundsWith period ref' opts) ↔
        Apart period opts (utcDay ref) (utcDay ref')) := by
  by_cases hcycle : ByCycle period opts
  · have hlifetime : period ≠ .lifetime := by
      rcases hcycle with rfl | ⟨rfl, -⟩ <;> nofun
    rw [periodBoundsWith_byCycle hcycle, periodBoundsWith_byCycle hcycle]
    cases hday : opts.statementDay with
    | none =>
      obtain ⟨hmem, hapart⟩ := calendarMonthBounds_tiled.partition
      refine ⟨iff_of_true (hmem ref hd) ⟨fun h => absurd h hlifetime, fun _ day h => ?_⟩,
        iff_of_true (hapart ref ref' hd hd') fun _ h => ?_⟩
      · exact absurd (hday.symm.trans h) nofun
      · exact absurd (hday.symm.trans h) nofun
    | some statementDay =>
      have hpositive := hstatement statementDay hday
      have hon : ∀ t, statementCycleBoundsOn t (some statementDay) =
          statementCycleBounds t statementDay := fun t => by
        simp [statementCycleBoundsOn, Option.filter, show statementDay ≠ 0 by omega]
      rw [hon, hon, statementCycleBounds_eq _ hd, statementCycleBounds_eq _ hd', days_dateText,
        mem_cycle_iff hpositive, cycles_apart_iff hpositive]
      constructor
      · simp [Reached, hlifetime, hcycle, hday]
      · simp [Apart, hcycle, hday]
  · by_cases hlifetime : period = .lifetime
    · subst hlifetime
      refine ⟨?_, iff_of_true (.inl rfl) fun h => absurd h hcycle⟩
      show utcDay ref ∈ lifetimeBounds.days ↔ _
      rw [days_lifetimeBounds, Set.mem_Icc]
      unfold Reached
      simp only [forall_const, hcycle, IsEmpty.forall_iff, and_true]
      omega
    · obtain ⟨hmem, hapart⟩ := (periodBoundsWith_tiled hcycle hlifetime hanchor).partition
      exact ⟨iff_of_true (hmem ref hd) ⟨fun h => absurd h hlifetime, fun h => absurd h hcycle⟩,
        iff_of_true (hapart ref ref' hd hd') fun h => absurd h hcycle⟩

/-- The 30th of April 2025 with the statement day 31, and the cycles of January and February 2025 with the
statement day 1. -/
theorem periodBoundsWith_partition_april :
    (utcDay (20208 * dayMs) ∈ (periodBoundsWith .statementCycle (20208 * dayMs)
          { statementDay := some 31 }).days ↔
        Reached .statementCycle { statementDay := some 31 } (utcDay (20208 * dayMs))) ∧
      (SameOrDisjoint (periodBoundsWith .statementCycle (20208 * dayMs) { statementDay := some 31 })
          (periodBoundsWith .statementCycle (20129 * dayMs) { statementDay := some 31 }) ↔
        Apart .statementCycle { statementDay := some 31 } (utcDay (20208 * dayMs))
          (utcDay (20129 * dayMs))) :=
  periodBoundsWith_partition_iff .statementCycle { statementDay := some 31 }
    (fun day h => by obtain rfl := Option.some.inj h; norm_num) nofun (20208 * dayMs) (20129 * dayMs)
    (show 100 < yearOf (utcDay (20208 * dayMs)) by decide)
    (show 100 < yearOf (utcDay (20129 * dayMs)) by decide)

/-- With the statement day 31, the window of 30 April 2025 ends on the 29th; with the statement day 1, the
windows of 15 January and 10 February share the 1st of February. -/
theorem not_partition :
    (¬ ∀ (period : Period) (opts : PeriodOptions) (ref : ℤ),
      (∀ day, opts.statementDay = some day → 1 ≤ day ∧ day ≤ 31) → utcDay ref ∈ Datable →
        utcDay ref ∈ (periodBoundsWith period ref opts).days) ∧
    ¬ ∀ (period : Period) (opts : PeriodOptions) (ref ref' : ℤ),
      (∀ day, opts.statementDay = some day → 1 ≤ day ∧ day ≤ 31) → utcDay ref ∈ Datable →
        utcDay ref' ∈ Datable →
        SameOrDisjoint (periodBoundsWith period ref opts) (periodBoundsWith period ref' opts) := by
  constructor
  · intro h
    have hmem := h .statementCycle { statementDay := some 31 } (20208 * dayMs)
      (fun day h => by obtain rfl := Option.some.inj h; norm_num)
      (show 100 < yearOf (utcDay (20208 * dayMs)) by decide)
    have hbounds : periodBoundsWith .statementCycle (20208 * dayMs) { statementDay := some 31 } =
        ⟨dateText 20178, dateText 20207⟩ := by decide +kernel
    rw [hbounds, days_dateText] at hmem
    exact absurd hmem.2 (by decide)
  · intro h
    have hapart := h .statementCycle { statementDay := some 1 } (20103 * dayMs) (20129 * dayMs)
      (fun day h => by obtain rfl := Option.some.inj h; norm_num)
      (show 100 < yearOf (utcDay (20103 * dayMs)) by decide)
      (show 100 < yearOf (utcDay (20129 * dayMs)) by decide)
    have hjanuary : periodBoundsWith .statementCycle (20103 * dayMs) { statementDay := some 1 } =
        ⟨dateText 20089, dateText 20120⟩ := by decide +kernel
    have hfebruary : periodBoundsWith .statementCycle (20129 * dayMs) { statementDay := some 1 } =
        ⟨dateText 20120, dateText 20148⟩ := by decide +kernel
    rw [hjanuary, hfebruary] at hapart
    rcases hapart with heq | hdisjoint
    · exact absurd (dateText_injective (Bounds.mk.inj heq).1) (by norm_num)
    · rw [days_dateText, days_dateText, Set.disjoint_left] at hdisjoint
      exact hdisjoint (a := 20120) ⟨by norm_num, by norm_num⟩ ⟨by norm_num, by norm_num⟩

end PandaPay.CardRewards
