import PandaPay.Json.Decimal
import PandaPay.Library.Gregorian

/-!
# The windows of caps and milestones

The windows that `cycles.js` counts a transaction in. An instant is in milliseconds; the
dates at midnight that the functions compute are numbered days, and dates are exchanged as texts.

## Main definitions

* `dateText`, `parseDate`: the text of a day, and reading it
* `periodBounds`, `anniversaryYearBounds`, `statementCycleBoundsV2`: the bounds of a period
* `statementCycleBounds`, `periodBoundsWith`: the windows of v1 cards
* `windowBoundsV2`: the window of a transaction
-/

namespace PandaPay.CardRewards

open Gregorian

/-! ### Dates -/

/-- The milliseconds of a day. -/
def dayMs : ℤ := 86400000

/-- The day of an instant. -/
def utcDay (ms : ℤ) : ℤ := ms / dayMs

/-- `getUTCMonth()`, from 0 on. -/
def utcMonth (day : ℤ) : ℤ := monthOf day % 12

/-- `getUTCDate()`. -/
def utcDate (day : ℤ) : ℤ := day - monthStart (monthOf day) + 1

/-- `Date.UTC(y, m, d)`, which reads the years 0 to 99 as 1900 to 1999. -/
def dateUtc (y m d : ℤ) : ℤ :=
  monthStart (12 * (if 0 ≤ y ∧ y ≤ 99 then 1900 + y else y) + m) + d - 1

/-- `pad(n)`: at least two digits. -/
def pad (n : ℤ) : JsString :=
  List.replicate (2 - (signedDecimal n).length) (digitUnit 0) ++ signedDecimal n

/-- The code unit of the hyphen. -/
def hyphen : CodeUnit := 45

/-- `toDateOnly(d)` of a day. -/
def dateText (day : ℤ) : JsString :=
  signedDecimal (yearOf day) ++ hyphen :: (pad (utcMonth day + 1) ++ hyphen :: pad (utcDate day))

/-- `toDateOnly` of an invalid date. -/
def invalidDateText : JsString := js "NaN-NaN-NaN"

/-- The number that some digits denote. -/
def digitsValue (digits : JsString) : Option ℤ :=
  if digits.all isDigit then some (unsignedValue digits) else none

/-- The day of a text `YYYY-MM-DD`, as `new Date` reads it alone or before a time. -/
def parseDate (text : JsString) : Option ℤ :=
  if text.length = 10 ∧ text[4]? = some hyphen ∧ text[7]? = some hyphen then
    match digitsValue (text.take 4), digitsValue ((text.drop 5).take 2), digitsValue (text.drop 8) with
    | some y, some m, some d =>
      if 1 ≤ m ∧ m ≤ 12 ∧ 1 ≤ d ∧ d ≤ 31 then some (monthStart (12 * y + (m - 1)) + d - 1) else none
    | _, _, _ => none
  else none

/-- `istShift(value)`: its UTC fields are the wall clock of India. -/
def istShift (ms : ℤ) : ℤ := ms + (5 * 60 + 30) * 60 * 1000

/-- `lastDayOfMonth(year, monthIndex0)`. -/
def lastDayOfMonth (year monthIndex0 : ℤ) : ℤ := utcDate (dateUtc year (monthIndex0 + 1) 0)

/-- `addDays(dateOnly, days)`. A `Date` reaches a hundred million days from the epoch. -/
def addDays (dateOnly : JsString) (days : ℤ) : JsString :=
  match parseDate dateOnly with
  | none => invalidDateText
  | some day => if (day + days).natAbs ≤ 100000000 then dateText (day + days) else invalidDateText

/-! ### Periods -/

/-- The first and the last date of a window. -/
structure Bounds where
  start : JsString
  «end» : JsString
  deriving DecidableEq

/-- `calendarMonthBounds(ref)`. -/
def calendarMonthBounds (ref : ℤ) : Bounds :=
  let y := yearOf (utcDay ref)
  let m := utcMonth (utcDay ref)
  ⟨dateText (dateUtc y m 1), dateText (dateUtc y m (lastDayOfMonth y m))⟩

/-- `calendarQuarterBounds(ref)`. -/
def calendarQuarterBounds (ref : ℤ) : Bounds :=
  let y := yearOf (utcDay ref)
  let qStartMonth := utcMonth (utcDay ref) / 3 * 3
  ⟨dateText (dateUtc y qStartMonth 1),
    dateText (dateUtc y (qStartMonth + 2) (lastDayOfMonth y (qStartMonth + 2)))⟩

/-- `calendarHalfYearBounds(ref)`. -/
def calendarHalfYearBounds (ref : ℤ) : Bounds :=
  let y := yearOf (utcDay ref)
  let hStartMonth := if utcMonth (utcDay ref) < 6 then 0 else 6
  ⟨dateText (dateUtc y hStartMonth 1),
    dateText (dateUtc y (hStartMonth + 5) (lastDayOfMonth y (hStartMonth + 5)))⟩

/-- `calendarYearBounds(ref)`. -/
def calendarYearBounds (ref : ℤ) : Bounds :=
  let y := yearOf (utcDay ref)
  ⟨dateText (dateUtc y 0 1), dateText (dateUtc y 11 31)⟩

/-- `fiscalYearBounds(ref)`: the year of India begins in April. -/
def fiscalYearBounds (ref : ℤ) : Bounds :=
  let y := yearOf (utcDay ref)
  let startYear := if 3 ≤ utcMonth (utcDay ref) then y else y - 1
  ⟨dateText (dateUtc startYear 3 1), dateText (dateUtc (startYear + 1) 2 31)⟩

/-- `anniversaryYearBounds(ref, anchorDate)`. -/
def anniversaryYearBounds (ref : ℤ) (anchorDate : JsString) : Bounds :=
  match parseDate anchorDate with
  | none => ⟨invalidDateText, invalidDateText⟩
  | some anchor =>
    let month := utcMonth anchor
    let day := utcDate anchor
    let y := yearOf (utcDay ref)
    let startYear := if ref < dateUtc y month day * dayMs then y - 1 else y
    ⟨dateText (dateUtc startYear month day), dateText (dateUtc (startYear + 1) month (day - 1))⟩

/-- `LIFETIME_BOUNDS`. -/
def lifetimeBounds : Bounds := ⟨js "1970-01-01", js "9999-12-31"⟩

/-- The periods of caps and milestones, `cap_period`. -/
inductive Period where
  | statementCycle
  | calendarMonth
  | quarter
  | halfYear
  | annual
  | lifetime
  deriving DecidableEq

/-- `KNOWN_ANCHORS`. -/
inductive Anchor where
  | cardAnniversary
  | calendarYear
  | fiscalYear
  | statementCycle
  deriving DecidableEq

/-- `periodBounds(period, ref, { anchor })`, without a statement day and an anchor date. -/
def periodBounds (period : Period) (ref : ℤ) (anchor : Option Anchor) : Bounds :=
  match period with
  | .lifetime => lifetimeBounds
  | .statementCycle => calendarMonthBounds ref
  | .calendarMonth => calendarMonthBounds ref
  | .quarter => calendarQuarterBounds ref
  | .halfYear => calendarHalfYearBounds ref
  | .annual =>
    match anchor with
    | some .fiscalYear => fiscalYearBounds ref
    | some .statementCycle => calendarMonthBounds ref
    | some .cardAnniversary | some .calendarYear | none => calendarYearBounds ref

/-! ### v1 windows -/

/-- `statementCycleBounds(ref, statementDay)`, for a statement day. -/
def statementCycleBounds (ref statementDay : ℤ) : Bounds :=
  let y := yearOf (utcDay ref)
  let m := utcMonth (utcDay ref)
  let (startYear, startMonth) :=
    if utcDate (utcDay ref) < statementDay then if m = 0 then (y - 1, 11) else (y, m - 1) else (y, m)
  let (endYear, endMonth) := if startMonth = 11 then (startYear + 1, 0) else (startYear, startMonth + 1)
  let clampedStartDay := min statementDay (lastDayOfMonth startYear startMonth)
  let clampedEndDay := min statementDay (lastDayOfMonth endYear endMonth) - 1
  ⟨dateText (dateUtc startYear startMonth clampedStartDay),
    dateText (dateUtc endYear endMonth (max clampedEndDay 1))⟩

/-- `statementCycleBounds(ref, statementDay)`: no statement day is none, or 0. -/
def statementCycleBoundsOn (ref : ℤ) (statementDay : Option ℤ) : Bounds :=
  match statementDay.filter (· ≠ 0) with
  | none => calendarMonthBounds ref
  | some day => statementCycleBounds ref day

/-- The options of `periodBounds`. -/
structure PeriodOptions where
  statementDay : Option ℤ := none
  anchor : Option Anchor := none
  anchorDate : Option JsString := none

/-- `periodBounds(period, occurredAt, opts)`, with every option. An empty anchor date is none. -/
def periodBoundsWith (period : Period) (occurredAt : ℤ) (opts : PeriodOptions) : Bounds :=
  match period with
  | .lifetime => lifetimeBounds
  | .statementCycle => statementCycleBoundsOn occurredAt opts.statementDay
  | .calendarMonth => calendarMonthBounds occurredAt
  | .quarter => calendarQuarterBounds occurredAt
  | .halfYear => calendarHalfYearBounds occurredAt
  | .annual =>
    match opts.anchor, opts.anchorDate.filter (· ≠ []) with
    | some .cardAnniversary, some anchorDate => anniversaryYearBounds occurredAt anchorDate
    | some .fiscalYear, _ => fiscalYearBounds occurredAt
    | some .statementCycle, _ => statementCycleBoundsOn occurredAt opts.statementDay
    | _, _ => calendarYearBounds occurredAt

/-! ### v2 windows -/

/-- `statementDateIn(year, monthIndex0, statementDay)`. -/
def statementDateIn (year monthIndex0 statementDay : ℤ) : JsString :=
  let y := year + monthIndex0 / 12
  let m := monthIndex0 % 12
  dateText (dateUtc y m (min statementDay (lastDayOfMonth y m)))

/-- `statementCycleBoundsV2(ref, statementDay)`. The dates are compared as texts. -/
def statementCycleBoundsV2 (ref statementDay : ℤ) : Bounds :=
  let y := yearOf (utcDay ref)
  let m := utcMonth (utcDay ref)
  let day := dateText (utcDay ref)
  let thisMonth := statementDateIn y m statementDay
  let endMonth := if thisMonth < day then m + 1 else m
  let previous := statementDateIn y (endMonth - 1) statementDay
  ⟨addDays previous 1, statementDateIn y endMonth statementDay⟩

/-- The options of `windowBoundsV2`. An unknown anchor is `none`, and an anchor date is a text that
`calendarDay` returns as it is, which is what `cardAnchorDate` and `cardIssueAnchorDate` give. -/
structure WindowOptions where
  statementDay : Option ℤ := none
  anchor : Option Anchor := none
  anchorDate : Option JsString := none
  anchorApproximate : Bool := false
  windowDays : Option ℤ := none

/-- A window, as it is returned. -/
structure CapWindow extends Bounds where
  approximate : Bool
  deriving DecidableEq

/-- The statement day that counts. -/
def WindowOptions.cycleDay (opts : WindowOptions) : Option ℤ :=
  (opts.statementDay.filter fun day => 1 ≤ day).map fun day => min day 31

/-- `windowBoundsV2(period, occurredAt, opts)`. -/
def windowBoundsV2 (period : Period) (occurredAt : ℤ) (opts : WindowOptions) : Option CapWindow :=
  let ref := istShift occurredAt
  match opts.windowDays with
  | some days =>
    match opts.anchorDate with
    | none => none
    | some start =>
      if days ≤ 0 then none
      else
        let last := addDays start (days - 1)
        let day := dateText (utcDay ref)
        if day < start ∨ last < day then none else some ⟨⟨start, last⟩, opts.anchorApproximate⟩
  | none =>
    if period = .annual ∧ opts.anchor = some .cardAnniversary then
      match opts.anchorDate with
      | none => some ⟨calendarYearBounds ref, true⟩
      | some anchorDate => some ⟨anniversaryYearBounds ref anchorDate, opts.anchorApproximate⟩
    else if period = .statementCycle ∨ (period = .annual ∧ opts.anchor = some .statementCycle) then
      match opts.cycleDay with
      | none => some ⟨calendarMonthBounds ref, true⟩
      | some statementDay => some ⟨statementCycleBoundsV2 ref statementDay, false⟩
    else some ⟨periodBounds period ref opts.anchor, false⟩

end PandaPay.CardRewards
