import PandaPay.CardRewards.Windows
import PandaPay.Library.WhileLoop
import PandaPay.PortableBackup.Sessions

/-!
# The next expected charge

`nextExpectedAfter` of `recurring.js`, which rolls the date of the last charge of a recurring payment
forward to the first one after today. A `Date` at midnight is its day, or `none` when it is invalid: a
`Date` reaches a hundred million days from the epoch.

## Main definitions

* `utcDayStart`, `nextExpectedAfter`: the functions of the source
* `charge`: the day of a charge, a number of cycles after another

## Main results

* `advance_charge`: each advance of the loop is one cycle from the anchor, clamped or not
* `nextExpectedAfter_first`: the loop ends at the first charge after today
-/

namespace PandaPay.Recurring

open Gregorian CardRewards
open PortableBackup (jsTrim isJsWhiteSpace)

/-! ### Dates -/

/-- The farthest day of a `Date`. -/
def farthestDay : ℤ := 100000000

/-- A `Date` at midnight: its day, or an invalid date. -/
abbrev Midnight := Option ℤ

/-- The `Date` of a day. -/
def midnight (day : ℤ) : Midnight := if day.natAbs ≤ farthestDay then some day else none

/-- `new Date(Date.UTC(year, month, date))`. -/
def dateAt (year month date : ℤ) : Midnight := midnight (dateUtc year month date)

/-- What `utcDayStart` is called with. -/
inductive DateValue where
  /-- `null` or `undefined`. -/
  | missing
  /-- A `Date`, by its local year, month and date, or an invalid one. -/
  | date (fields : Option (ℤ × ℤ × ℤ))
  | text (text : JsString)

/-- `/^(\d{4})-(\d{2})-(\d{2})/`: the numbers of a text that begins with a date. -/
def calendarDay (text : JsString) : Option (ℤ × ℤ × ℤ) :=
  if 10 ≤ text.length ∧ text[4]? = some hyphen ∧ text[7]? = some hyphen then
    match digitsValue (text.take 4), digitsValue ((text.drop 5).take 2),
      digitsValue ((text.drop 8).take 2) with
    | some y, some m, some d => some (y, m, d)
    | _, _, _ => none
  else none

/-- `utcDayStart(value)`, in milliseconds where the date is valid. `parse` reads the texts that do not
begin with a date, as `new Date` does. -/
def utcDayStart (parse : JsString → Option ℤ) : DateValue → Option (Option ℤ)
  | .missing => none
  | .date fields => fields.map fun (y, m, d) => (dateAt y m d).map (· * dayMs)
  | .text text =>
    let text := jsTrim text
    if text = [] then none
    else
      match calendarDay text with
      | some (y, m, d) => some ((dateAt y (m - 1) d).map (· * dayMs))
      | none => (parse text).map some

/-- `new Date(Date.UTC(year, month + 1, 0)).getUTCDate()`. -/
def lastDayOf (year month : ℤ) : Option ℤ := (dateAt year (month + 1) 0).map utcDate

/-- `advance()`, for a cadence of whole days. -/
def advance (cadenceDays anchorDay : ℤ) (next : Midnight) : Midnight :=
  next.bind fun day =>
    if 350 ≤ cadenceDays then
      let year := yearOf day + 1
      let month := utcMonth day
      (lastDayOf year month).bind fun lastDay => dateAt year month (min anchorDay lastDay)
    else if 26 ≤ cadenceDays ∧ cadenceDays ≤ 32 then
      let year := yearOf day
      let month := utcMonth day + 1
      (lastDayOf year month).bind fun lastDay => dateAt year month (min anchorDay lastDay)
    else midnight (day + cadenceDays)

/-- `nextExpectedAfter(date, cadenceDays, now)`, with at most so many rounds of its loop. -/
def nextExpectedAfter (parse : JsString → Option ℤ) (rounds : ℕ) (date : DateValue)
    (cadenceDays now : ℤ) : Option (Option Midnight) :=
  match utcDayStart parse date with
  | none => some none
  | some start =>
    let next := start.map utcDay
    let anchorDay := (next.map utcDate).getD 0
    let today := utcDay now
    (whileLoop (fun next : Midnight => next.any (· ≤ today)) (advance cadenceDays anchorDay) rounds
      (advance cadenceDays anchorDay next)).map some

/-! ### Charges -/

/-- A date of a month, or its last day if the month is shorter. -/
def dayOfMonth (M date : ℤ) : ℤ := monthStart M + min date (monthLength M) - 1

/-- The day of the charge that is `k` cycles after another. A cycle is a year, a month, or the cadence. -/
def charge (anchor cadenceDays : ℤ) (k : ℕ) : ℤ :=
  if 350 ≤ cadenceDays then dayOfMonth (12 * (yearOf anchor + k) + utcMonth anchor) (utcDate anchor)
  else if 26 ≤ cadenceDays ∧ cadenceDays ≤ 32 then dayOfMonth (monthOf anchor + k) (utcDate anchor)
  else anchor + k * cadenceDays

/-- The day of a month is one of it. -/
theorem dayOfMonth_mem {date : ℤ} (h : 1 ≤ date) (M : ℤ) :
    monthStart M ≤ dayOfMonth M date ∧ dayOfMonth M date < monthStart (M + 1) := by
  have hlength := monthLength_mem M
  rw [monthStart_succ]
  unfold dayOfMonth
  omega

theorem monthOf_dayOfMonth {date : ℤ} (h : 1 ≤ date) (M : ℤ) : monthOf (dayOfMonth M date) = M :=
  blocks_monthStart.eq_of_mem (dayOfMonth_mem h M).1 (dayOfMonth_mem h M).2

/-- A day is that date of its month. -/
theorem dayOfMonth_monthOf (day : ℤ) : dayOfMonth (monthOf day) (utcDate day) = day := by
  have hdate := utcDate_mem day
  unfold dayOfMonth
  rw [min_eq_left hdate.2]
  unfold utcDate
  omega

theorem charge_zero (anchor cadenceDays : ℤ) : charge anchor cadenceDays 0 = anchor := by
  unfold charge
  split_ifs
  · rw [Nat.cast_zero, add_zero, ← monthOf_eq, dayOfMonth_monthOf]
  · rw [Nat.cast_zero, add_zero, dayOfMonth_monthOf]
  · simp

/-- Months are at most 31 days long. -/
theorem monthStart_add_le (M : ℤ) (n : ℕ) : monthStart (M + n) ≤ monthStart M + 31 * n := by
  induction n with
  | zero => simp
  | succ n ih =>
    have hlength := (monthLength_mem (M + n)).2
    rw [Nat.cast_succ, ← add_assoc, monthStart_succ]
    omega

/-- A charge in another month is later, but not by more than the months take. -/
theorem dayOfMonth_add {date : ℤ} (h : 1 ≤ date) (M : ℤ) {n : ℕ} (hn : 0 < n) :
    dayOfMonth M date < dayOfMonth (M + n) date ∧
      monthStart (M + n + 1) ≤ dayOfMonth M date + 31 * (n + 1) := by
  have hmem := dayOfMonth_mem h M
  have hmem' := dayOfMonth_mem h (M + n)
  have hnext := blocks_monthStart.strictMono.monotone (show M + 1 ≤ M + n by omega)
  have hlast := monthStart_add_le M (n + 1)
  rw [Nat.cast_succ, ← add_assoc] at hlast
  exact ⟨hmem.2.trans_le (hnext.trans hmem'.1), by omega⟩

/-- A cycle goes forward, by at most 403 days. The last day of the month it goes to is no farther. -/
theorem charge_succ {cadenceDays : ℤ} (h₁ : 6 ≤ cadenceDays) (h₂ : cadenceDays ≤ 400) (anchor : ℤ)
    (k : ℕ) : charge anchor cadenceDays k < charge anchor cadenceDays (k + 1) ∧
      charge anchor cadenceDays (k + 1) ≤ charge anchor cadenceDays k + 403 := by
  have hdate := (utcDate_mem anchor).1
  unfold charge
  split_ifs with hyearly hmonthly
  · have hindex : 12 * (yearOf anchor + ((k + 1 : ℕ) : ℤ)) + utcMonth anchor =
        12 * (yearOf anchor + k) + utcMonth anchor + (12 : ℕ) := by
      push_cast
      ring
    have hadd := dayOfMonth_add hdate (12 * (yearOf anchor + k) + utcMonth anchor)
      (show 0 < 12 by norm_num)
    have hmem := dayOfMonth_mem hdate (12 * (yearOf anchor + k) + utcMonth anchor + (12 : ℕ))
    rw [hindex]
    exact ⟨hadd.1, by push_cast at hadd hmem ⊢; omega⟩
  · have hindex : monthOf anchor + ((k + 1 : ℕ) : ℤ) = monthOf anchor + k + (1 : ℕ) := by
      push_cast
      ring
    have hadd := dayOfMonth_add hdate (monthOf anchor + k) (show 0 < 1 by norm_num)
    have hmem := dayOfMonth_mem hdate (monthOf anchor + k + (1 : ℕ))
    rw [hindex]
    exact ⟨hadd.1, by push_cast at hadd hmem ⊢; omega⟩
  · push_cast
    constructor <;> linarith

/-! ### The loop -/

/-- The days that the loop may advance from: those of years that `Date.UTC` reads as they are, far enough
from the end of the dates. -/
def Reaching (day : ℤ) : Prop := monthStart (12 * 100) ≤ day ∧ day ≤ farthestDay - 500

/-- The year 100 is within the reach of a `Date`. -/
theorem neg_farthestDay_le : -farthestDay ≤ monthStart (12 * 100) := by decide

theorem yearOf_of_reaching {day : ℤ} (h : Reaching day) : 100 ≤ yearOf day := by
  have hmonth : 12 * 100 < monthOf day + 1 :=
    blocks_monthStart.strictMono.lt_iff_lt.mp (h.1.trans_lt (blocks_monthStart.mem day).2)
  unfold yearOf
  omega

theorem midnight_of_le {day : ℤ} (hlow : -farthestDay ≤ day) (hhigh : day ≤ farthestDay) :
    midnight day = some day := by
  unfold farthestDay at hlow hhigh
  rw [midnight, if_pos]
  unfold farthestDay
  omega

/-- A date of a month that is not too far is found, or the last day of the month if it is shorter. -/
theorem dateAt_min {year month date : ℤ} (hyear : 100 ≤ year) (hmonth : 0 ≤ month) (hdate : 1 ≤ date)
    (hlast : monthStart (12 * year + month + 1) ≤ farthestDay) :
    ((lastDayOf year month).bind fun lastDay => dateAt year month (min date lastDay)) =
      some (dayOfMonth (12 * year + month) date) := by
  have hmono := blocks_monthStart.strictMono.monotone
  have hfirst : -farthestDay ≤ monthStart (12 * year + month) :=
    neg_farthestDay_le.trans (hmono (by omega))
  have hmem := dayOfMonth_mem hdate (12 * year + month)
  have hsucc := hmono (show 12 * year + month ≤ 12 * year + month + 1 by omega)
  have hlastDay : lastDayOf year month = some (monthLength (12 * year + month)) := by
    have hday : dateUtc year (month + 1) 0 = monthStart (12 * year + month + 1) - 1 := by
      rw [dateUtc_eq hyear, add_zero, ← add_assoc]
    rw [lastDayOf, dateAt, hday, midnight_of_le (by omega) (by omega), ← hday]
    exact congrArg some (lastDayOfMonth_eq hyear month)
  rw [hlastDay, Option.bind_some, dateAt, dateUtc_eq hyear]
  exact midnight_of_le (by unfold dayOfMonth at hmem; omega) (by unfold dayOfMonth at hmem; omega)

/-- **The loop does not drift.** It advances from a charge to the next one of the anchor, also where a
short month clamped it. -/
theorem advance_charge {anchor cadenceDays : ℤ} (h₁ : 6 ≤ cadenceDays) (h₂ : cadenceDays ≤ 400) {k : ℕ}
    (hreach : Reaching (charge anchor cadenceDays k)) :
    advance cadenceDays (utcDate anchor) (some (charge anchor cadenceDays k)) =
      some (charge anchor cadenceDays (k + 1)) := by
  have hdate := (utcDate_mem anchor).1
  have hyear := yearOf_of_reaching hreach
  have hmonth := utcMonth_mem (charge anchor cadenceDays k)
  have hsum := monthOf_eq (charge anchor cadenceDays k)
  have hcharge := charge_succ h₁ h₂ anchor k
  obtain ⟨hlow, hhigh⟩ := hreach
  unfold farthestDay at hhigh
  rw [advance, Option.bind_some]
  split_ifs with hyearly hmonthly
  · have hnow : charge anchor cadenceDays k =
        dayOfMonth (12 * (yearOf anchor + k) + utcMonth anchor) (utcDate anchor) := if_pos hyearly
    have hnext : charge anchor cadenceDays (k + 1) =
        dayOfMonth (12 * (yearOf anchor + (k + 1 : ℕ)) + utcMonth anchor) (utcDate anchor) :=
      if_pos hyearly
    have hindex := monthOf_dayOfMonth hdate (12 * (yearOf anchor + k) + utcMonth anchor)
    have hlast := (dayOfMonth_add hdate (12 * (yearOf anchor + k) + utcMonth anchor)
      (show 0 < 12 by norm_num)).2
    rw [← hnow] at hindex hlast
    rw [hnext]
    have hmonths : 12 * (yearOf (charge anchor cadenceDays k) + 1) +
        utcMonth (charge anchor cadenceDays k) =
          12 * (yearOf anchor + (k + 1 : ℕ)) + utcMonth anchor := by
      push_cast
      omega
    refine (dateAt_min (by omega) hmonth.1 hdate ?_).trans (by rw [hmonths])
    rw [hmonths]
    unfold farthestDay
    push_cast at hlast ⊢
    rw [show 12 * (yearOf anchor + (k + 1)) + utcMonth anchor + 1 =
      12 * (yearOf anchor + k) + utcMonth anchor + 12 + 1 by ring]
    omega
  · have hnow : charge anchor cadenceDays k = dayOfMonth (monthOf anchor + k) (utcDate anchor) := by
      rw [charge, if_neg hyearly, if_pos hmonthly]
    have hnext : charge anchor cadenceDays (k + 1) =
        dayOfMonth (monthOf anchor + (k + 1 : ℕ)) (utcDate anchor) := by
      rw [charge, if_neg hyearly, if_pos hmonthly]
    have hindex := monthOf_dayOfMonth hdate (monthOf anchor + k)
    have hlast := (dayOfMonth_add hdate (monthOf anchor + k) (show 0 < 1 by norm_num)).2
    rw [← hnow] at hindex hlast
    rw [hnext]
    have hmonths : 12 * yearOf (charge anchor cadenceDays k) +
        (utcMonth (charge anchor cadenceDays k) + 1) = monthOf anchor + (k + 1 : ℕ) := by
      push_cast
      omega
    refine (dateAt_min hyear (by omega) hdate ?_).trans (by rw [hmonths])
    rw [hmonths]
    unfold farthestDay
    push_cast at hlast ⊢
    rw [← add_assoc]
    omega
  · have hnow : charge anchor cadenceDays k + cadenceDays = charge anchor cadenceDays (k + 1) := by
      rw [charge, if_neg hyearly, if_neg hmonthly, charge, if_neg hyearly, if_neg hmonthly]
      push_cast
      ring
    rw [hnow]
    exact midnight_of_le (neg_farthestDay_le.trans (hlow.trans hcharge.1.le))
      (by unfold farthestDay; omega)

/-- There is a first charge after any day. -/
theorem exists_first_charge {cadenceDays : ℤ} (h₁ : 6 ≤ cadenceDays) (h₂ : cadenceDays ≤ 400)
    (anchor today : ℤ) : ∃ n, (∀ k < n, charge anchor cadenceDays (k + 1) ≤ today) ∧
      today < charge anchor cadenceDays (n + 1) := by
  have hgrows : ∀ k : ℕ, anchor + k ≤ charge anchor cadenceDays k := by
    intro k
    induction k with
    | zero => rw [charge_zero, Nat.cast_zero, add_zero]
    | succ k ih =>
      have hnext := (charge_succ h₁ h₂ anchor k).1
      push_cast
      omega
  have hafter : ∃ n, today < charge anchor cadenceDays (n + 1) := by
    refine ⟨(today - anchor).toNat, ?_⟩
    have hnext := hgrows ((today - anchor).toNat + 1)
    push_cast at hnext
    omega
  exact ⟨Nat.find hafter, fun k hk => not_lt.mp (Nat.find_min hafter hk), Nat.find_spec hafter⟩

/-- **The next expected charge.** From any date of the year 100 on, up to 500 days before the end of the
dates, and for any cadence of 6 to 400 days, the loop ends, and what is returned is the first charge after
today. -/
theorem nextExpectedAfter_first (parse : JsString → Option ℤ) {date : DateValue}
    {start cadenceDays now : ℤ} (hstart : utcDayStart parse date = some (some start))
    (hreach : Reaching (utcDay start)) (h₁ : 6 ≤ cadenceDays) (h₂ : cadenceDays ≤ 400)
    (hnow : utcDay now ≤ farthestDay - 500) :
    ∃ next n, IsLeast {day | ∃ k ≥ 1, day = charge (utcDay start) cadenceDays k ∧ utcDay now < day} next ∧
      ∀ rounds > n, nextExpectedAfter parse rounds date cadenceDays now = some (some (some next)) := by
  obtain ⟨n, hbefore, hafter⟩ := exists_first_charge h₁ h₂ (utcDay start) (utcDay now)
  have hmono : StrictMono (charge (utcDay start) cadenceDays) :=
    strictMono_nat_of_lt_succ fun k => (charge_succ h₁ h₂ _ k).1
  have hreaches : ∀ k, k ≤ n → Reaching (charge (utcDay start) cadenceDays k) := by
    intro k hk
    have hlow := hmono.monotone k.zero_le
    rw [charge_zero] at hlow
    refine ⟨hreach.1.trans hlow, ?_⟩
    cases k with
    | zero =>
      rw [charge_zero]
      exact hreach.2
    | succ k => exact (hbefore k hk).trans hnow
  have hadvance : ∀ k, k ≤ n → advance cadenceDays (utcDate (utcDay start))
      (some (charge (utcDay start) cadenceDays k)) =
        some (charge (utcDay start) cadenceDays (k + 1)) :=
    fun k hk => advance_charge h₁ h₂ (hreaches k hk)
  refine ⟨charge (utcDay start) cadenceDays (n + 1), n, ⟨⟨n + 1, n.succ_pos, rfl, hafter⟩, ?_⟩, ?_⟩
  · rintro day ⟨k, hk, rfl, hlater⟩
    refine hmono.monotone (Nat.succ_le_of_lt (lt_of_not_ge fun hle => ?_))
    have hearlier := hbefore (k - 1) (by omega)
    rw [Nat.sub_add_cancel hk] at hearlier
    omega
  · intro rounds hrounds
    have hfirst := hadvance 0 n.zero_le
    rw [charge_zero] at hfirst
    have hloop : whileLoop (fun next : Midnight => next.any (· ≤ utcDay now))
        (advance cadenceDays (utcDate (utcDay start))) rounds
        (some (charge (utcDay start) cadenceDays (0 + 1))) =
          some (some (charge (utcDay start) cadenceDays (n + 1))) :=
      whileLoop_of_sequence (f := fun k => some (charge (utcDay start) cadenceDays (k + 1)))
        (fun k hk => hadvance (k + 1) hk) (fun k hk => by simpa using hbefore k hk)
        (by simpa using hafter) hrounds
    unfold nextExpectedAfter
    rw [hstart]
    dsimp only [Option.map_some, Option.getD_some]
    rw [hfirst, hloop]
    rfl

/-- A rent of 31 January 2026, on 28 February. -/
theorem nextExpectedAfter_first_rent : ∃ next n,
    IsLeast {day | ∃ k ≥ 1, day = charge (utcDay (20484 * dayMs)) 30 k ∧ utcDay (20512 * dayMs) < day} next ∧
      ∀ rounds > n, nextExpectedAfter (fun _ => none) rounds (.text (js "2026-01-31")) 30
        (20512 * dayMs) = some (some (some next)) :=
  nextExpectedAfter_first _
    (show utcDayStart _ (.text (js "2026-01-31")) = some (some (20484 * dayMs)) by decide +kernel)
    ⟨by decide, by decide⟩ (by norm_num) (by norm_num) (by decide)

/-- It is expected on 31 March next, though February clamps it. -/
example : nextExpectedAfter (fun _ => none) 3 (.text (js "2026-01-31")) 30 (20512 * dayMs) =
    some (some (some 20543)) := by decide +kernel

/-- A yearly charge of 5 September 275759 is next expected a year later, which is a `Date`, but the end of
that month is not: an invalid date is returned. -/
theorem not_nextExpectedAfter_first :
    ¬ ∀ (parse : JsString → Option ℤ) (date : DateValue) (start cadenceDays now : ℤ),
      utcDayStart parse date = some (some start) → 6 ≤ cadenceDays → cadenceDays ≤ 400 →
        ∃ next n,
          IsLeast {day | ∃ k ≥ 1, day = charge (utcDay start) cadenceDays k ∧ utcDay now < day} next ∧
            ∀ rounds > n,
              nextExpectedAfter parse rounds date cadenceDays now = some (some (some next)) := by
  intro h
  obtain ⟨next, n, -, hnext⟩ := h (fun _ => none) (.date (some (275759, 8, 5))) (99999626 * dayMs) 365 0
    (by decide +kernel) (by norm_num) (by norm_num)
  have hinvalid : nextExpectedAfter (fun _ => none) (n + 1) (.date (some (275759, 8, 5))) 365 0 =
      some (some none) := by
    have hadvance : advance 365 5 (some 99999626) = none := by decide +kernel
    unfold nextExpectedAfter
    rw [show utcDayStart (fun _ => none) (.date (some (275759, 8, 5))) =
      some (some (99999626 * dayMs)) by decide +kernel]
    dsimp only [Option.map_some, Option.getD_some]
    rw [show utcDay (99999626 * dayMs) = 99999626 by decide,
      show utcDate 99999626 = 5 by decide, hadvance]
    rfl
  have hequal := (hnext (n + 1) n.lt_succ_self).symm.trans hinvalid
  cases hequal

end PandaPay.Recurring
