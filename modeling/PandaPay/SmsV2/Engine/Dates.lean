import PandaPay.Library.Gregorian
import PandaPay.Library.Patterns
import PandaPay.SmsV2.Engine.Amounts

/-!
# Dates in texts

How the rules read a date (`parseDate` of `engine/transforms.dart`): in several formats, each also with a time behind
it, or without the time that it has. A printed time is the time of India; instants are in microseconds. The cache of
compiled formats is left out.

## Main definitions

* `parseDate`, `defaultDateFormats`: the functions of the source
* `printDate`: the text of a date in a format

## Main results

* `date_parsing_unambiguous`: a printed date is read back, whichever format is tried first, and what is read is a day
  of the calendar
-/

namespace PandaPay.SmsV2

open Gregorian
open PortableBackup (isJsWhiteSpace)

/-! ### Formats -/

/-- What a format prints of a date. -/
inductive DateField where
  | yyyy | MMM | yy | MM | dd | HH | mm | ss
  deriving DecidableEq

/-- The letters of a field in a format. -/
def DateField.letters : DateField → JsString
  | .yyyy => js "yyyy"
  | .MMM => js "MMM"
  | .yy => js "yy"
  | .MM => js "MM"
  | .dd => js "dd"
  | .HH => js "HH"
  | .mm => js "mm"
  | .ss => js "ss"

/-- The fields in the order in which they are looked for. -/
def dateFields : List DateField := [.yyyy, .MMM, .yy, .MM, .dd, .HH, .mm, .ss]

/-- `[A-Za-z]`. -/
def isLetter (c : CodeUnit) : Bool := (65 ≤ c.val ∧ c.val ≤ 90) ∨ (97 ≤ c.val ∧ c.val ≤ 122)

/-- The groups of the fields: `\d{4}`, `[A-Za-z]{3}` and `\d{2}`. -/
def dateClasses : FieldClasses CodeUnit DateField where
  width
    | .yyyy => 4
    | .MMM => 3
    | _ => 2
  fits
    | .MMM, c => isLetter c
    | _, c => isDigit c

/-- The pieces of a format behind some letters that belong to a field. -/
def datePiecesFrom : ℕ → JsString → List (Piece CodeUnit DateField)
  | _, [] => []
  | skip + 1, _ :: format => datePiecesFrom skip format
  | 0, c :: format =>
    match dateFields.find? fun f => f.letters.isPrefixOf (c :: format) with
    | some tok => .field tok :: datePiecesFrom (tok.letters.length - 1) format
    | none => .literal c :: datePiecesFrom 0 format

/-- The expression that `_tryFormat` makes of a format. -/
def datePieces (format : JsString) : List (Piece CodeUnit DateField) := datePiecesFrom 0 format

/-! ### Reading -/

/-- A date and a time, by their numbers. -/
structure CivilTime where
  year : ℕ := 0
  month : ℕ := 0
  day : ℕ := 0
  hh : ℕ := 0
  mm : ℕ := 0
  ss : ℕ := 0
  deriving DecidableEq

/-- `_months`. -/
def months : List (JsString × ℕ) :=
  [(js "jan", 1), (js "feb", 2), (js "mar", 3), (js "apr", 4), (js "may", 5), (js "jun", 6), (js "jul", 7),
    (js "aug", 8), (js "sep", 9), (js "oct", 10), (js "nov", 11), (js "dec", 12)]

/-- The switch of `_tryFormat` over the fields. -/
def readField (t : CivilTime) : DateField × JsString → Option CivilTime
  | (.yyyy, v) => some { t with year := unsignedValue v }
  | (.yy, v) => some { t with year := 2000 + unsignedValue v }
  | (.MMM, v) => (months.lookup (v.map foldCase)).map fun n => { t with month := n }
  | (.MM, v) => some { t with month := unsignedValue v }
  | (.dd, v) => some { t with day := unsignedValue v }
  | (.HH, v) => some { t with hh := unsignedValue v }
  | (.mm, v) => some { t with mm := unsignedValue v }
  | (.ss, v) => some { t with ss := unsignedValue v }

namespace CivilTime

variable (t : CivilTime)

/-- The number of the month, for the calendar. -/
def monthNumber : ℤ := 12 * t.year + (t.month - 1)

/-- The day of `DateTime.utc`, which carries over the ends of months. -/
def utcDayNumber : ℤ := monthStart t.monthNumber + t.day - 1

/-- The microseconds of a day. -/
def dayMicros : ℤ := 24 * 60 * 60 * 1000000

/-- `istOffset`. -/
def istOffset : ℤ := (5 * 60 + 30) * 60 * 1000000

/-- `DateTime.utc(year, month, day, hh, mm, ss).subtract(istOffset)`. -/
def istInstant : ℤ :=
  t.utcDayNumber * dayMicros + ((t.hh * 60 + t.mm) * 60 + t.ss : ℕ) * 1000000 - istOffset

/-- The end of `_tryFormat`: the instant, unless it is on another day. -/
def instant? : Option ℤ :=
  if t.month < 1 ∨ t.month > 12 ∨ t.day < 1 ∨ t.hh > 23 ∨ t.mm > 59 ∨ t.ss > 59 then none
  else
    let utcMonth := monthOf t.utcDayNumber % 12 + 1
    let utcDay := t.utcDayNumber - monthStart (monthOf t.utcDayNumber) + 1
    if utcMonth ≠ t.month ∨ utcDay ≠ t.day then none
    else some t.istInstant

/-- A day of the calendar, and a time of the day. -/
structure IsCivil : Prop where
  month : 1 ≤ t.month ∧ t.month ≤ 12
  day : 1 ≤ t.day ∧ (t.day : ℤ) ≤ monthLength t.monthNumber
  time : t.hh ≤ 23 ∧ t.mm ≤ 59 ∧ t.ss ≤ 59

end CivilTime

/-- What `_tryFormat` makes of the groups. -/
def readDate (fields : List (DateField × JsString)) : Option ℤ :=
  (fields.foldlM readField {}).bind CivilTime.instant?

/-- `_tryFormat(text, format)`. -/
def tryFormat (text format : JsString) : Option ℤ := (matchPieces dateClasses (datePieces format) text).bind readDate

/-- What stands before the hour in a format, if there is one. -/
def beforeHour : JsString → Option JsString
  | [] => none
  | c :: format => if (js "HH").isPrefixOf (c :: format) then some [] else (beforeHour format).map (c :: ·)

/-- The times that may follow a format without one. -/
def timeSuffixes : List JsString := [js " HH:mm:ss", js " HH:mm", js ":HH:mm:ss", js " HH.mm.ss"]

/-- `format.substring(0, i).replaceFirst(RegExp(r'[\s:T]+$'), '')`. -/
def dropTimeMark (format : JsString) : JsString :=
  (format.reverse.dropWhile fun c => isJsWhiteSpace c || c = 58 || c = 84).reverse

/-- `_parseOne(text, format)`. -/
def parseOne (text format : JsString) : Option ℤ :=
  match tryFormat text format with
  | some d => some d
  | none =>
    match beforeHour format with
    | none => timeSuffixes.findSome? fun suffix => tryFormat text (format ++ suffix)
    | some before =>
      let base := dropTimeMark before
      if base ≠ [] then tryFormat text base else none

/-- `parseDate(text, formats)`. -/
def parseDate (text : JsString) (formats : List JsString) : Option ℤ := formats.findSome? (parseOne (trim text))

/-- `_defaultDateFormats`. -/
def defaultDateFormats : List JsString :=
  [js "dd-MM-yyyy", js "dd-MM-yy", js "dd/MM/yyyy", js "dd/MM/yy", js "ddMMMyy", js "dd-MMM-yy", js "dd-MMM-yyyy",
    js "dd MMM yyyy", js "dd MMM yy", js "yyyy-MM-dd:HH:mm:ss", js "yyyy-MM-dd"]

/-! ### Printing -/

/-- A number in so many digits. -/
def fixedDecimal : ℕ → ℕ → JsString
  | 0, _ => []
  | width + 1, n => fixedDecimal width (n / 10) ++ [digitUnit (n % 10)]

/-- The text of a field, with the name of the month as it is written. -/
def printField (month : JsString) (t : CivilTime) : DateField → JsString
  | .yyyy => fixedDecimal 4 t.year
  | .yy => fixedDecimal 2 t.year
  | .MMM => month
  | .MM => fixedDecimal 2 t.month
  | .dd => fixedDecimal 2 t.day
  | .HH => fixedDecimal 2 t.hh
  | .mm => fixedDecimal 2 t.mm
  | .ss => fixedDecimal 2 t.ss

/-- The text of a date in a format. -/
def printDate (month : JsString) (t : CivilTime) (format : JsString) : JsString :=
  writePieces (printField month t) (datePieces format)

/-- The date with the part of the time that a format prints. -/
def CivilTime.shown (t : CivilTime) (format : JsString) : CivilTime :=
  { t with
    hh := if .HH ∈ fieldsOf (datePieces format) then t.hh else 0
    mm := if .mm ∈ fieldsOf (datePieces format) then t.mm else 0
    ss := if .ss ∈ fieldsOf (datePieces format) then t.ss else 0 }

/-- A month in letters, in any case. -/
def WritesMonth (month : JsString) (n : ℕ) : Prop :=
  month.length = 3 ∧ month.all isLetter = true ∧ months.lookup (month.map foldCase) = some n

/-- What may be printed behind a format: a time, where it has none. -/
def printedSuffixes (format : JsString) : List JsString :=
  match beforeHour format with
  | none => [] :: timeSuffixes
  | some _ => [[]]

/-! ### The formats that are tried -/

/-- The formats that `_parseOne` tries, in order. -/
def formatsTried (format : JsString) : List JsString :=
  format ::
    match beforeHour format with
    | none => timeSuffixes.map (format ++ ·)
    | some before => if dropTimeMark before ≠ [] then [dropTimeMark before] else []

theorem parseOne_eq (text format : JsString) :
    parseOne text format = (formatsTried format).findSome? (tryFormat text) := by
  rw [parseOne, formatsTried, List.findSome?_cons]
  cases tryFormat text format with
  | some d => rfl
  | none =>
    cases beforeHour format with
    | none =>
      have hmap : (timeSuffixes.map (format ++ ·)).findSome? (tryFormat text) =
          timeSuffixes.findSome? fun suffix => tryFormat text (format ++ suffix) := List.findSome?_map
      exact hmap.symm
    | some before =>
      by_cases hbase : dropTimeMark before = []
      · simp only [hbase, ne_eq, not_true_eq_false, if_false, List.findSome?_nil]
      · simp only [ne_eq, hbase, not_false_eq_true, if_true]
        cases htry : tryFormat text (dropTimeMark before) <;> simp only [List.findSome?_cons, htry, List.findSome?_nil]

theorem parseDate_eq (text : JsString) (formats : List JsString) :
    parseDate text formats = (formats.flatMap formatsTried).findSome? (tryFormat (trim text)) := by
  rw [parseDate]
  induction formats with
  | nil => rfl
  | cons format formats ih =>
    rw [List.findSome?_cons, ih, parseOne_eq, List.flatMap_cons, List.findSome?_append]
    cases (formatsTried format).findSome? (tryFormat (trim text)) <;> rfl

theorem mem_formatsTried {format suffix : JsString} (h : suffix ∈ printedSuffixes format) :
    format ++ suffix ∈ formatsTried format := by
  rw [printedSuffixes] at h
  rw [formatsTried]
  cases hhour : beforeHour format with
  | none =>
    rw [hhour] at h
    rcases List.mem_cons.mp h with rfl | h
    · rw [List.append_nil]
      exact List.mem_cons_self
    · exact List.mem_cons_of_mem format (List.mem_map_of_mem h)
  | some before =>
    rw [hhour] at h
    rw [List.mem_singleton.mp h, List.append_nil]
    exact List.mem_cons_self

/-! ### Fields -/

theorem length_fixedDecimal (width n : ℕ) : (fixedDecimal width n).length = width := by
  induction width generalizing n with
  | zero => rfl
  | succ width ih => rw [fixedDecimal, List.length_append, ih, List.length_singleton]

theorem isDigit_fixedDecimal (width n : ℕ) : (fixedDecimal width n).all isDigit = true := by
  induction width generalizing n with
  | zero => rfl
  | succ width ih =>
    rw [fixedDecimal, List.all_append, ih, Bool.true_and, List.all_cons, List.all_nil, Bool.and_true]
    exact isDigit_digitUnit (Nat.mod_lt n (by norm_num))

theorem unsignedValue_fixedDecimal (width n : ℕ) : unsignedValue (fixedDecimal width n) = n % 10 ^ width := by
  induction width generalizing n with
  | zero => exact (Nat.mod_one n).symm
  | succ width ih =>
    have hdigit : unsignedValue [digitUnit (n % 10)] = n % 10 := by
      have := digitValue_digitUnit (Nat.mod_lt n (by norm_num : 0 < 10))
      simp [unsignedValue, this]
    rw [fixedDecimal, unsignedValue_append, ih, hdigit, List.length_singleton, pow_one, pow_succ, Nat.mul_comm (10 ^ width),
      Nat.mod_mul]
    ring

section Print

variable {t : CivilTime} {month : JsString}

/-- A field of a date copied into another. -/
def copyField (t acc : CivilTime) : DateField → CivilTime
  | .yyyy => { acc with year := t.year }
  | .yy => { acc with year := t.year }
  | .MMM => { acc with month := t.month }
  | .MM => { acc with month := t.month }
  | .dd => { acc with day := t.day }
  | .HH => { acc with hh := t.hh }
  | .mm => { acc with mm := t.mm }
  | .ss => { acc with ss := t.ss }

/-- A printed field is read back, in the years of the century. -/
theorem readField_printField (ht : t.IsCivil) (hyear : 2000 ≤ t.year ∧ t.year ≤ 2099) (hmonth : WritesMonth month t.month)
    (acc : CivilTime) (f : DateField) : readField acc (f, printField month t f) = some (copyField t acc f) := by
  have hday : t.day ≤ 31 := by
    have := (monthLength_mem t.monthNumber).2
    have := ht.day.2
    omega
  obtain ⟨-, hmonth12⟩ := ht.month
  obtain ⟨hhh, hmm, hss⟩ := ht.time
  have hsmall : ∀ n : ℕ, n < 10 ^ 2 → unsignedValue (fixedDecimal 2 n) = n := fun n hn => by
    rw [unsignedValue_fixedDecimal, Nat.mod_eq_of_lt hn]
  cases f with
  | yyyy => rw [printField, readField, copyField, unsignedValue_fixedDecimal, Nat.mod_eq_of_lt (by omega)]
  | yy =>
    have hcentury : 2000 + t.year % 10 ^ 2 = t.year := by omega
    rw [printField, readField, copyField, unsignedValue_fixedDecimal, hcentury]
  | MMM => rw [printField, readField, copyField, hmonth.2.2, Option.map_some]
  | MM => rw [printField, readField, copyField, hsmall _ (by omega)]
  | dd => rw [printField, readField, copyField, hsmall _ (by omega)]
  | HH => rw [printField, readField, copyField, hsmall _ (by omega)]
  | mm => rw [printField, readField, copyField, hsmall _ (by omega)]
  | ss => rw [printField, readField, copyField, hsmall _ (by omega)]

/-- What is copied of a date is what its fields print. -/
theorem foldl_copyField (t acc : CivilTime) (fields : List DateField) :
    fields.foldl (copyField t) acc =
      { year := if .yyyy ∈ fields ∨ .yy ∈ fields then t.year else acc.year
        month := if .MMM ∈ fields ∨ .MM ∈ fields then t.month else acc.month
        day := if .dd ∈ fields then t.day else acc.day
        hh := if .HH ∈ fields then t.hh else acc.hh
        mm := if .mm ∈ fields then t.mm else acc.mm
        ss := if .ss ∈ fields then t.ss else acc.ss } := by
  induction fields generalizing acc with
  | nil => simp
  | cons f fields ih =>
    rw [List.foldl_cons, ih]
    cases f <;> simp [copyField]

theorem foldlM_readField (ht : t.IsCivil) (hyear : 2000 ≤ t.year ∧ t.year ≤ 2099) (hmonth : WritesMonth month t.month)
    (acc : CivilTime) (fields : List DateField) :
    (fields.map fun f => (f, printField month t f)).foldlM readField acc = some (fields.foldl (copyField t) acc) := by
  induction fields generalizing acc with
  | nil => rfl
  | cons f fields ih =>
    rw [List.map_cons, List.foldlM_cons, readField_printField ht hyear hmonth, List.foldl_cons]
    exact ih _

/-- A format that prints a day. -/
def PrintsDay (format : JsString) : Prop :=
  (.yyyy ∈ fieldsOf (datePieces format) ∨ .yy ∈ fieldsOf (datePieces format)) ∧
    (.MMM ∈ fieldsOf (datePieces format) ∨ .MM ∈ fieldsOf (datePieces format)) ∧ .dd ∈ fieldsOf (datePieces format)

instance (format : JsString) : Decidable (PrintsDay format) := inferInstanceAs (Decidable (_ ∧ _ ∧ _))

theorem CivilTime.IsCivil.shown (ht : t.IsCivil) (format : JsString) : (t.shown format).IsCivil where
  month := ht.month
  day := ht.day
  time := by
    obtain ⟨hhh, hmm, hss⟩ := ht.time
    refine ⟨?_, ?_, ?_⟩ <;> rw [CivilTime.shown] <;> dsimp only <;> split_ifs <;> omega

/-- A day of the calendar is on no other day. -/
theorem CivilTime.IsCivil.instant?_eq (ht : t.IsCivil) : t.instant? = some t.istInstant := by
  obtain ⟨hone, htwelve⟩ := ht.month
  obtain ⟨hday, hlength⟩ := ht.day
  obtain ⟨hhh, hmm, hss⟩ := ht.time
  have hmonth : monthOf t.utcDayNumber = t.monthNumber := by
    refine blocks_monthStart.eq_of_mem ?_ ?_
    · rw [CivilTime.utcDayNumber]
      omega
    · rw [CivilTime.utcDayNumber, monthStart_succ]
      omega
  rw [CivilTime.instant?, if_neg (by omega)]
  dsimp only
  rw [hmonth, if_neg]
  rw [CivilTime.utcDayNumber, CivilTime.monthNumber]
  omega

/-- Printed fields make the date that the format prints. -/
theorem readDate_printField (ht : t.IsCivil) (hyear : 2000 ≤ t.year ∧ t.year ≤ 2099) (hmonth : WritesMonth month t.month)
    {format : JsString} (hformat : PrintsDay format) :
    readDate ((fieldsOf (datePieces format)).map fun f => (f, printField month t f)) =
      some (t.shown format).istInstant := by
  have hshown : (fieldsOf (datePieces format)).foldl (copyField t) {} = t.shown format := by
    rw [foldl_copyField, if_pos hformat.1, if_pos hformat.2.1, if_pos hformat.2.2]
    rfl
  rw [readDate, foldlM_readField ht hyear hmonth, hshown]
  exact (ht.shown format).instant?_eq

theorem matchPieces_printDate (hmonth : WritesMonth month t.month) (format : JsString) :
    matchPieces dateClasses (datePieces format) (printDate month t format) =
      some ((fieldsOf (datePieces format)).map fun f => (f, printField month t f)) := by
  refine matchPieces_writePieces _ (fun f _ => ?_) fun f _ => ?_
  · cases f <;> first | exact length_fixedDecimal _ _ | exact hmonth.1
  · cases f <;> first | exact isDigit_fixedDecimal _ _ | exact hmonth.2.1

end Print

/-! ### Shapes -/

/-- Digits and letters are of one kind each, and other characters of their own. -/
def dateKind (c : CodeUnit) : CodeUnit := if isDigit c then 48 else if isLetter c then 65 else c

/-- The kind of the characters of a field. -/
def fieldKind : DateField → CodeUnit
  | .MMM => 65
  | _ => 48

theorem dateKind_of_fits (f : DateField) (c : CodeUnit) (h : dateClasses.fits f c = true) : dateKind c = fieldKind f := by
  cases f with
  | MMM =>
    have hdigit : isDigit c = false := by
      simp only [dateClasses, isLetter, decide_eq_true_eq] at h
      simp only [isDigit, decide_eq_false_iff_not]
      omega
    rw [dateKind, hdigit, if_neg Bool.false_ne_true]
    exact if_pos h
  | _ => exact if_pos h

/-- The shape of the texts that a format reads. -/
def dateShape (format : JsString) : JsString := shape dateClasses dateKind fieldKind (datePieces format)

/-- The formats that are tried with the list of the engine print a day, begin and end with a digit, and no two of them
read texts of one shape differently. -/
theorem printsDay_default : ∀ f ∈ defaultDateFormats.flatMap formatsTried,
    PrintsDay f ∧ (dateShape f).head? = some 48 ∧ (dateShape f).getLast? = some 48 := by
  decide +kernel

theorem separated_default : ∀ f ∈ defaultDateFormats.flatMap formatsTried,
    ∀ g ∈ defaultDateFormats.flatMap formatsTried, dateShape f = dateShape g → datePieces f = datePieces g := by
  decide +kernel

theorem isWhiteSpace_of_dateKind {c : CodeUnit} (h : dateKind c = 48) : isWhiteSpace c = false := by
  have hdigit : 48 ≤ c.val ∧ c.val ≤ 57 := by
    by_contra hno
    have hdigit : isDigit c = false := decide_eq_false hno
    rw [dateKind, hdigit, if_neg Bool.false_ne_true] at h
    split_ifs at h
    · exact absurd h (by decide)
    · exact hno (h ▸ by decide)
  simp only [isWhiteSpace, decide_eq_false_iff_not]
  simp only [List.mem_cons, List.not_mem_nil, or_false]
  omega

/-- A text that begins and ends with a digit has no white space around it. -/
theorem trim_of_shape {text : JsString} (hfirst : (text.map dateKind).head? = some 48)
    (hlast : (text.map dateKind).getLast? = some 48) : trim text = text := by
  refine trim_eq_self (fun c hc => ?_) fun c hc => ?_
  · rw [List.head?_map, Option.mem_def.mp hc] at hfirst
    exact isWhiteSpace_of_dateKind (Option.some.inj hfirst)
  · rw [List.getLast?_map, Option.mem_def.mp hc] at hlast
    exact isWhiteSpace_of_dateKind (Option.some.inj hlast)

/-! ### Results -/

/-- A printed date is read back, whichever format is tried first. -/
theorem parseDate_printDate {t : CivilTime} (ht : t.IsCivil) (hyear : 2000 ≤ t.year ∧ t.year ≤ 2099)
    {month : JsString} (hmonth : WritesMonth month t.month) {format suffix : JsString}
    (hformat : format ∈ defaultDateFormats) (hsuffix : suffix ∈ printedSuffixes format) :
    parseDate (printDate month t (format ++ suffix)) defaultDateFormats =
      some (t.shown (format ++ suffix)).istInstant := by
  have htried : format ++ suffix ∈ defaultDateFormats.flatMap formatsTried :=
    List.mem_flatMap.mpr ⟨format, hformat, mem_formatsTried hsuffix⟩
  obtain ⟨hprints, hfirst, hlast⟩ := printsDay_default _ htried
  have hmatch := matchPieces_printDate hmonth (format ++ suffix)
  have hshape : (printDate month t (format ++ suffix)).map dateKind = dateShape (format ++ suffix) :=
    map_kind_of_matchPieces dateKind_of_fits hmatch
  rw [parseDate_eq, trim_of_shape (hshape ▸ hfirst) (hshape ▸ hlast)]
  exact findSome?_eq_of_shape dateClasses dateKind_of_fits separated_default htried hmatch
    (readDate_printField ht hyear hmonth hprints)

/-- An instant is read off a day of the calendar only. -/
theorem CivilTime.isCivil_of_instant? {t : CivilTime} {instant : ℤ} (h : t.instant? = some instant) :
    t.IsCivil ∧ instant = t.istInstant := by
  rw [CivilTime.instant?] at h
  split_ifs at h with hrange
  dsimp only at h
  split_ifs at h with hcarried
  push Not at hrange hcarried
  obtain ⟨-, hday⟩ := hcarried
  -- the day counts from the first of its own month, so that nothing was carried over
  have hmonth : monthStart (monthOf t.utcDayNumber) = monthStart t.monthNumber := by
    have hnumber : t.utcDayNumber = monthStart t.monthNumber + t.day - 1 := rfl
    omega
  have hlt := (blocks_monthStart.mem t.utcDayNumber).2
  rw [blocks_monthStart.strictMono.injective hmonth, monthStart_succ] at hlt
  have hlength : (t.day : ℤ) ≤ monthLength t.monthNumber := by
    rw [CivilTime.utcDayNumber] at hlt
    omega
  exact ⟨⟨⟨by omega, by omega⟩, ⟨by omega, hlength⟩, ⟨by omega, by omega, by omega⟩⟩, (Option.some.inj h).symm⟩

/-- What is read is a day of the calendar. -/
theorem isCivil_of_parseDate {text : JsString} {formats : List JsString} {instant : ℤ}
    (h : parseDate text formats = some instant) : ∃ format ∈ formats.flatMap formatsTried, ∃ fields t,
      matchPieces dateClasses (datePieces format) (trim text) = some fields ∧ fields.foldlM readField {} = some t ∧
      t.IsCivil ∧ instant = t.istInstant := by
  rw [parseDate_eq] at h
  obtain ⟨format, hformat, htry⟩ := List.exists_of_findSome?_eq_some h
  obtain ⟨fields, hfields, hread⟩ := Option.bind_eq_some_iff.mp htry
  obtain ⟨t, ht, hinstant⟩ := Option.bind_eq_some_iff.mp hread
  exact ⟨format, hformat, fields, t, hfields, ht, CivilTime.isCivil_of_instant? hinstant⟩

/-- **Reading dates is unambiguous.** A date of this century, printed in a format of the list and perhaps with a time
behind it, is read back with the whole list; and what is read, with any formats, is a day of the calendar. -/
theorem date_parsing_unambiguous :
    (∀ (t : CivilTime) (month format suffix : JsString), t.IsCivil → 2000 ≤ t.year ∧ t.year ≤ 2099 →
        WritesMonth month t.month → format ∈ defaultDateFormats → suffix ∈ printedSuffixes format →
        parseDate (printDate month t (format ++ suffix)) defaultDateFormats =
          some (t.shown (format ++ suffix)).istInstant) ∧
      ∀ (text : JsString) (formats : List JsString) (instant : ℤ), parseDate text formats = some instant →
        ∃ format ∈ formats.flatMap formatsTried, ∃ fields t,
          matchPieces dateClasses (datePieces format) (trim text) = some fields ∧
          fields.foldlM readField {} = some t ∧ t.IsCivil ∧ instant = t.istInstant :=
  ⟨fun _ _ _ _ ht hyear hmonth hformat hsuffix => parseDate_printDate ht hyear hmonth hformat hsuffix,
    fun _ _ _ h => isCivil_of_parseDate h⟩

/-- The leap day of 2024, with the month in mixed case and a time behind the date. -/
def leapDay : CivilTime := { year := 2024, month := 2, day := 29, hh := 23, mm := 45 }

theorem isCivil_leapDay : leapDay.IsCivil := ⟨by decide, by decide, by decide⟩

theorem date_parsing_unambiguous_leapDay :
    parseDate (js "29-fEb-24 23:45") defaultDateFormats = some leapDay.istInstant ∧
      ∃ t : CivilTime, t.IsCivil ∧ leapDay.istInstant = t.istInstant := by
  have hread : parseDate (js "29-fEb-24 23:45") defaultDateFormats = some leapDay.istInstant :=
    date_parsing_unambiguous.1 leapDay (js "fEb") (js "dd-MMM-yy") (js " HH:mm") isCivil_leapDay (by decide)
      ⟨by decide, by decide, by decide⟩ (by decide) (by decide)
  obtain ⟨_, _, _, t, _, _, ht, hinstant⟩ := date_parsing_unambiguous.2 _ _ _ hread
  exact ⟨hread, t, ht, hinstant⟩

end PandaPay.SmsV2
