import PandaPay.ForeignPayments.Exchange
import PandaPay.Json.Numeral
import PandaPay.Library.Rounding

/-!
# Texts of foreign amounts

The amounts of `foreign_exchange.js` and of `foreign_money.dart` as the texts that they are exchanged in:
the server and the app read the same texts and write the same ones. A reference estimate is the product,
rounded half up to whole paise.

## Main definitions

* `decimalMatch`: the digits of a decimal text
* `canonicalDecimal`, `originalAmountText`, `inrAmountText`, `convertToInrText`: the server
* `canonicalForeignAmount`: the app

## Main results

* `originalAmountText_eq`: the server and the app read an amount alike
* `convertToInrText_eq`: an estimate is the rounded product
* `foreign_money_exact`: what both promise of foreign amounts
-/

namespace PandaPay.ForeignPayments

open PortableBackup (jsTrim isJsWhiteSpace)
open JsonNumber (trimZeros trimZeros_append_zeros trimZeros_eq_self EndsNonzero)

/-! ### Decimal texts -/

/-- The digits of a decimal text before its point and after it. -/
structure DecimalText where
  whole : JsString
  fraction : JsString
  deriving DecidableEq

/-- `/^(\d{1,16})(?:\.(\d{1,n}))?$/`. -/
def decimalMatch (maxFraction : ℕ) (text : JsString) : Option DecimalText :=
  let whole := text.takeWhile isDigit
  if 1 ≤ whole.length ∧ whole.length ≤ 16 then
    match text.dropWhile isDigit with
    | [] => some ⟨whole, []⟩
    | point :: fraction =>
      if point.val = 46 ∧ fraction.all isDigit ∧ 1 ≤ fraction.length ∧ fraction.length ≤ maxFraction then
        some ⟨whole, fraction⟩
      else none
  else none

/-- The canonical text: no zeros in front, and none after the last digit of a fraction. -/
def DecimalText.canonical (d : DecimalText) : JsString :=
  let fraction := trimZeros d.fraction
  decimal (unsignedValue d.whole) ++ if fraction = [] then [] else 46 :: fraction

/-! ### The server -/

/-- `canonicalDecimal(value, maxScale)`. -/
def canonicalDecimal (value : JsString) (maxScale : ℕ) : Option JsString :=
  match decimalMatch 14 (jsTrim value) with
  | none => none
  | some d => if d.fraction.length ≤ maxScale then some d.canonical else none

/-- `currency ? currencyPrecision(currency) : 4`. -/
def precisionOf : Option JsString → Option ℕ
  | none | some [] => some 4
  | some currency => currencyPrecision currency

/-- `originalAmount(value, currency)`, as a text. -/
def originalAmountText (value : JsString) (currency : Option JsString) : Option JsString :=
  match precisionOf currency, canonicalDecimal value 4 with
  | some precision, some normalized =>
    match decimalParts normalized precision with
    | none => none
    | some parsed =>
      if 0 < parsed.coefficient ∧ parsed.coefficient ≤ 9999999999999999 then
        canonicalDecimal normalized precision
      else none
  | _, _ => none

/-- `minorToInr(value)`. -/
def minorToInr (value : ℤ) : JsString :=
  let minor := decimal (value.natAbs % 100)
  (if value < 0 then [45] else []) ++ decimal (value.natAbs / 100) ++
    46 :: (List.replicate (2 - minor.length) 48 ++ minor)

/-- `inrAmount(value)`, as a text. -/
def inrAmountText (value : JsString) : Option JsString :=
  match decimalParts value 2 with
  | none => none
  | some parsed =>
    if 0 < parsed.coefficient ∧ parsed.units 2 ≤ maxInrMinor then some (minorToInr (parsed.units 2))
    else none

/-- `convertToInr(amount, rate)`, of texts. -/
def convertToInrText (amount rate : JsString) : Option JsString :=
  match decimalParts amount 4, decimalParts rate 14 with
  | some a, some r =>
    if 0 < a.coefficient ∧ 0 < r.coefficient then
      let numerator := a.coefficient * r.coefficient * 100
      let denominator := 10 ^ (a.scale + r.scale)
      let paise := (numerator + denominator / 2) / denominator
      if 0 < paise ∧ paise ≤ maxInrMinor then some (minorToInr paise) else none
    else none
  | _, _ => none

/-! ### The app -/

/-- `currencyMinorUnits`. -/
def currencyMinorUnits : List (String × ℕ) := [
  ("AED", 2), ("AFN", 2), ("ALL", 2), ("AMD", 2), ("AOA", 2), ("ARS", 2), ("AUD", 2), ("AWG", 2),
  ("AZN", 2), ("BAM", 2), ("BBD", 2), ("BDT", 2), ("BHD", 3), ("BIF", 0), ("BMD", 2), ("BND", 2),
  ("BOB", 2), ("BOV", 2), ("BRL", 2), ("BSD", 2), ("BTN", 2), ("BWP", 2), ("BYN", 2), ("BZD", 2),
  ("CAD", 2), ("CDF", 2), ("CHE", 2), ("CHF", 2), ("CHW", 2), ("CLF", 4), ("CLP", 0), ("CNY", 2),
  ("COP", 2), ("COU", 2), ("CRC", 2), ("CUP", 2), ("CVE", 2), ("CZK", 2), ("DJF", 0), ("DKK", 2),
  ("DOP", 2), ("DZD", 2), ("EGP", 2), ("ERN", 2), ("ETB", 2), ("EUR", 2), ("FJD", 2), ("FKP", 2),
  ("GBP", 2), ("GEL", 2), ("GHS", 2), ("GIP", 2), ("GMD", 2), ("GNF", 0), ("GTQ", 2), ("GYD", 2),
  ("HKD", 2), ("HNL", 2), ("HTG", 2), ("HUF", 2), ("IDR", 2), ("ILS", 2), ("INR", 2), ("IQD", 3),
  ("IRR", 2), ("ISK", 0), ("JMD", 2), ("JOD", 3), ("JPY", 0), ("KES", 2), ("KGS", 2), ("KHR", 2),
  ("KMF", 0), ("KPW", 2), ("KRW", 0), ("KWD", 3), ("KYD", 2), ("KZT", 2), ("LAK", 2), ("LBP", 2),
  ("LKR", 2), ("LRD", 2), ("LSL", 2), ("LYD", 3), ("MAD", 2), ("MDL", 2), ("MGA", 2), ("MKD", 2),
  ("MMK", 2), ("MNT", 2), ("MOP", 2), ("MRU", 2), ("MUR", 2), ("MVR", 2), ("MWK", 2), ("MXN", 2),
  ("MXV", 2), ("MYR", 2), ("MZN", 2), ("NAD", 2), ("NGN", 2), ("NIO", 2), ("NOK", 2), ("NPR", 2),
  ("NZD", 2), ("OMR", 3), ("PAB", 2), ("PEN", 2), ("PGK", 2), ("PHP", 2), ("PKR", 2), ("PLN", 2),
  ("PYG", 0), ("QAR", 2), ("RON", 2), ("RSD", 2), ("RUB", 2), ("RWF", 0), ("SAR", 2), ("SBD", 2),
  ("SCR", 2), ("SDG", 2), ("SEK", 2), ("SGD", 2), ("SHP", 2), ("SLE", 2), ("SOS", 2), ("SRD", 2),
  ("SSP", 2), ("STN", 2), ("SVC", 2), ("SYP", 2), ("SZL", 2), ("THB", 2), ("TJS", 2), ("TMT", 2),
  ("TND", 3), ("TOP", 2), ("TRY", 2), ("TTD", 2), ("TWD", 2), ("TZS", 2), ("UAH", 2), ("UGX", 0),
  ("USD", 2), ("USN", 2), ("UYI", 0), ("UYU", 2), ("UYW", 4), ("UZS", 2), ("VED", 2), ("VES", 2),
  ("VND", 0), ("VUV", 0), ("WST", 2), ("XAD", 2), ("XAF", 0), ("XCD", 2), ("XCG", 2), ("XOF", 0),
  ("XPF", 0), ("YER", 2), ("ZAR", 2), ("ZMW", 2), ("ZWG", 2)
  ]

/-- `currencyMinorUnits[code]`. -/
def minorUnitsOf (code : JsString) : Option ℕ :=
  (currencyMinorUnits.find? fun entry => js entry.1 = code).map Prod.snd

/-- `isForeignCurrency(code)`. -/
def Dart.isForeignCurrency (code : JsString) : Bool := code ≠ js "INR" && (minorUnitsOf code).isSome

/-- `canonicalForeignAmount(value, currency)`, of a text. -/
def canonicalForeignAmount (value : JsString) (currency : Option JsString) : Option JsString :=
  if currency.any fun code => !Dart.isForeignCurrency code then none
  else
    match decimalMatch 4 (trim value) with
    | none => none
    | some d =>
      let whole := decimal (unsignedValue d.whole)
      let fraction := trimZeros d.fraction
      if (currency.elim 4 fun code => (minorUnitsOf code).getD 0) < fraction.length then none
      else if whole = js "0" ∧ fraction = [] then none
      else if 9999999999999999 < unsignedValue (whole ++ fraction) then none
      else some (if fraction = [] then whole else whole ++ 46 :: fraction)

/-- Both tables have the same currencies with the same digits. -/
theorem minorUnitsOf_eq (code : JsString) : minorUnitsOf code = currencyPrecision code := by
  have hdart : ∀ entry ∈ currencyMinorUnits, currencyPrecision (js entry.1) = some entry.2 := by
    decide +kernel
  have hserver : ∀ units ∈ minorUnits, ∀ code ∈ units.2, (minorUnitsOf (js code)).isSome := by
    decide +kernel
  cases hcode : minorUnitsOf code with
  | some n =>
    obtain ⟨entry, hentry, rfl⟩ := Option.map_eq_some_iff.mp hcode
    have hequal : js entry.1 = code := by simpa using List.find?_some hentry
    rw [← hequal, hdart entry (List.mem_of_find?_eq_some hentry)]
  | none =>
    rw [eq_comm, currencyPrecision, Option.map_eq_none_iff, List.find?_eq_none]
    intro units hunits hany
    obtain ⟨name, hname, hequal⟩ := List.any_eq_true.mp hany
    have hsome := hserver units hunits name hname
    rw [of_decide_eq_true hequal, hcode] at hsome
    cases hsome

/-! ### Reading and writing -/

namespace DecimalText

variable {d : DecimalText} {n : ℕ}

/-- The text of the digits. -/
def text (d : DecimalText) : JsString := d.whole ++ if d.fraction = [] then [] else 46 :: d.fraction

/-- What `decimalParts` makes of the digits. -/
def parts (d : DecimalText) : DecimalParts := ⟨unsignedValue (d.whole ++ d.fraction), d.fraction.length⟩

/-- The digits of the canonical text. -/
def trimmed (d : DecimalText) : DecimalText := ⟨decimal (unsignedValue d.whole), trimZeros d.fraction⟩

/-- Digits in the numbers that are read. -/
structure Fits (n : ℕ) (d : DecimalText) : Prop where
  whole : ∀ c ∈ d.whole, isDigit c = true
  fraction : ∀ c ∈ d.fraction, isDigit c = true
  whole_pos : 1 ≤ d.whole.length
  whole_le : d.whole.length ≤ 16
  fraction_le : d.fraction.length ≤ n

theorem canonical_eq (d : DecimalText) : d.canonical = d.trimmed.text := rfl

end DecimalText

/-- The match finds the digits that a text is made of. -/
theorem decimalMatch_eq_some_iff {n : ℕ} {text : JsString} {d : DecimalText} :
    decimalMatch n text = some d ↔ d.Fits n ∧ d.text = text := by
  constructor
  · intro h
    unfold decimalMatch at h
    dsimp only at h
    split_ifs at h with hlength
    have hdigits : ∀ c ∈ text.takeWhile isDigit, isDigit c = true := fun c hc => List.mem_takeWhile_imp hc
    have hsplit := List.takeWhile_append_dropWhile (p := isDigit) (l := text)
    split at h
    · rename_i hrest
      obtain rfl := Option.some.inj h
      rw [hrest] at hsplit
      exact ⟨⟨hdigits, by simp, hlength.1, hlength.2, by simp⟩, hsplit⟩
    · rename_i point fraction hrest
      split_ifs at h with hfraction
      obtain rfl := Option.some.inj h
      obtain ⟨hpoint, hall, hpos, hle⟩ := hfraction
      rw [hrest] at hsplit
      obtain rfl : point = 46 := Fin.ext hpoint
      refine ⟨⟨hdigits, List.all_eq_true.mp hall, hlength.1, hlength.2, hle⟩, ?_⟩
      rw [DecimalText.text, if_neg (List.ne_nil_of_length_pos hpos)]
      exact hsplit
  · rintro ⟨hfits, rfl⟩
    obtain ⟨hwhole, hfraction, hpos, hle, hlength⟩ := hfits
    have hpoint : ∀ c ∈ (if d.fraction = [] then [] else 46 :: d.fraction).head?, isDigit c = false := by
      intro c hc
      split_ifs at hc
      · cases hc
      · obtain rfl : (46 : CodeUnit) = c := by simpa using hc
        decide
    obtain ⟨htake, hdrop⟩ := takeWhile_isDigit_append hwhole hpoint
    unfold decimalMatch DecimalText.text
    dsimp only
    rw [htake, hdrop, if_pos ⟨hpos, hle⟩]
    obtain ⟨whole, fraction⟩ := d
    by_cases hempty : fraction = []
    · subst hempty
      rfl
    · rw [if_neg hempty]
      exact if_pos ⟨rfl, List.all_eq_true.mpr hfraction, List.length_pos_iff.mpr hempty, hlength⟩

/-- Shorter fractions are a part of the matches. -/
theorem decimalMatch_of_le {n m : ℕ} (h : n ≤ m) (text : JsString) :
    decimalMatch n text = (decimalMatch m text).filter fun d => d.fraction.length ≤ n := by
  refine Option.ext fun d => ?_
  rw [Option.filter_eq_some_iff, decimalMatch_eq_some_iff, decimalMatch_eq_some_iff, decide_eq_true_eq]
  constructor
  · rintro ⟨⟨h₁, h₂, h₃, h₄, h₅⟩, htext⟩
    exact ⟨⟨⟨h₁, h₂, h₃, h₄, h₅.trans h⟩, htext⟩, h₅⟩
  · rintro ⟨⟨⟨h₁, h₂, h₃, h₄, -⟩, htext⟩, h₅⟩
    exact ⟨⟨h₁, h₂, h₃, h₄, h₅⟩, htext⟩

/-- `decimalParts` reads the digits that match. -/
theorem decimalParts_eq (value : JsString) (maxScale : ℕ) :
    decimalParts value maxScale =
      ((decimalMatch 14 (jsTrim value)).filter fun d => d.fraction.length ≤ maxScale).map
        DecimalText.parts := by
  unfold decimalParts decimalMatch
  dsimp only
  split_ifs
  · cases hrest : (jsTrim value).dropWhile isDigit with
    | nil => simp [DecimalText.parts]
    | cons point fraction =>
      dsimp only
      by_cases hlong : point.val = 46 ∧ fraction.all isDigit ∧ 1 ≤ fraction.length ∧ fraction.length ≤ 14
      · rw [if_pos hlong]
        by_cases hscale : fraction.length ≤ maxScale
        · rw [if_pos ⟨hlong.1, hlong.2.1, hlong.2.2.1, hlong.2.2.2, hscale⟩]
          simp [hscale, DecimalText.parts]
        · rw [if_neg fun h => hscale h.2.2.2.2]
          simp [not_le.mp hscale]
      · rw [if_neg hlong, if_neg fun h => hlong ⟨h.1, h.2.1, h.2.2.1, h.2.2.2.1⟩]
        rfl
  · rfl

theorem canonicalDecimal_eq (value : JsString) (maxScale : ℕ) :
    canonicalDecimal value maxScale =
      ((decimalMatch 14 (jsTrim value)).filter fun d => d.fraction.length ≤ maxScale).map
        DecimalText.canonical := by
  unfold canonicalDecimal
  cases decimalMatch 14 (jsTrim value) with
  | none => rfl
  | some d =>
    by_cases hd : d.fraction.length ≤ maxScale
    · simp [hd]
    · simp [hd, not_le.mp hd]

/-! ### Trimming -/

theorem trimZeros_trimZeros (s : JsString) : trimZeros (trimZeros s) = trimZeros s := by
  unfold JsonNumber.trimZeros
  rw [List.reverse_reverse, List.dropWhile_idempotent]

theorem mem_of_mem_trimZeros {s : JsString} {c : CodeUnit} (h : c ∈ trimZeros s) : c ∈ s := by
  obtain ⟨k, hs⟩ := trimZeros_append_zeros s
  rw [hs]
  exact List.mem_append_left _ h

theorem length_trimZeros_le (s : JsString) : (trimZeros s).length ≤ s.length := by
  obtain ⟨k, hs⟩ := trimZeros_append_zeros s
  have hlength := congrArg List.length hs
  rw [List.length_append] at hlength
  omega

/-- Nothing is dropped of a text without what is dropped. -/
theorem dropWhile_eq_self {p : CodeUnit → Bool} {s : JsString} (h : ∀ c ∈ s, p c = false) :
    s.dropWhile p = s := by
  cases s with
  | nil => rfl
  | cons c s => exact List.dropWhile_cons_of_neg (by simp [h c])

theorem isWhiteSpace_of_digit {c : CodeUnit} (h : isDigit c = true ∨ c = 46) : isWhiteSpace c = false := by
  rcases h with h | rfl
  · simp only [isDigit, decide_eq_true_eq] at h
    simp only [isWhiteSpace, decide_eq_false_iff_not, List.mem_cons, List.not_mem_nil, or_false]
    omega
  · decide

namespace DecimalText

variable {d : DecimalText} {n : ℕ} (h : d.Fits n)
include h

theorem Fits.mono {m : ℕ} (hnm : n ≤ m) : d.Fits m :=
  ⟨h.whole, h.fraction, h.whole_pos, h.whole_le, h.fraction_le.trans hnm⟩

/-- The canonical digits are as few. -/
theorem Fits.trimmed : d.trimmed.Fits n where
  whole := isDigit_of_isUnsigned (isUnsigned_decimal _)
  fraction c hc := h.fraction c (mem_of_mem_trimZeros hc)
  whole_pos := by
    obtain ⟨c, cs, hc, -⟩ := val_head_decimal (unsignedValue d.whole)
    rw [DecimalText.trimmed, hc, List.length_cons]
    omega
  whole_le := by
    refine length_decimal_le (by norm_num) ?_
    refine lt_of_lt_of_le ?_ (Nat.pow_le_pow_right (by norm_num) h.whole_le)
    have hlt : ∀ x ∈ d.whole.reverse.map digitValue, x < 10 := by
      intro x hx
      obtain ⟨c, hc, rfl⟩ := List.mem_map.mp hx
      exact digitValue_lt (h.whole c (List.mem_reverse.mp hc))
    have hbound := Nat.ofDigits_lt_base_pow_length (by norm_num) hlt
    rwa [List.length_map, List.length_reverse] at hbound
  fraction_le := (length_trimZeros_le _).trans h.fraction_le

/-- No white space stands in the text. -/
theorem Fits.isWhiteSpace_text : ∀ c ∈ d.text, isWhiteSpace c = false := by
  intro c hc
  refine isWhiteSpace_of_digit ?_
  rcases List.mem_append.mp hc with hc | hc
  · exact .inl (h.whole c hc)
  · split_ifs at hc
    · exact absurd hc List.not_mem_nil
    · rcases List.mem_cons.mp hc with rfl | hc
      · exact .inr rfl
      · exact .inl (h.fraction c hc)

theorem Fits.jsTrim_text : jsTrim d.text = d.text := by
  have hnone : ∀ c ∈ d.text, isJsWhiteSpace c = false := by
    intro c hc
    rw [PortableBackup.isJsWhiteSpace, h.isWhiteSpace_text c hc, Bool.false_and]
  rw [PortableBackup.jsTrim, dropWhile_eq_self hnone,
    dropWhile_eq_self fun c hc => hnone c (List.mem_reverse.mp hc), List.reverse_reverse]

theorem Fits.trim_text : trim d.text = d.text := by
  rw [trim, dropWhile_eq_self h.isWhiteSpace_text,
    dropWhile_eq_self fun c hc => h.isWhiteSpace_text c (List.mem_reverse.mp hc), List.reverse_reverse]

/-- The text of digits that fit is read as them. -/
theorem Fits.decimalMatch_text : decimalMatch n (jsTrim d.text) = some d := by
  rw [h.jsTrim_text]
  exact decimalMatch_eq_some_iff.mpr ⟨h, rfl⟩

end DecimalText

/-! ### The numbers of texts -/

/-- The number of a decimal. -/
def DecimalParts.value (p : DecimalParts) : ℚ := p.coefficient / 10 ^ p.scale

theorem DecimalText.value_parts (d : DecimalText) :
    d.parts.value = unsignedValue d.whole + unsignedValue d.fraction / 10 ^ d.fraction.length := by
  have hpos : (10 : ℚ) ^ d.fraction.length ≠ 0 := by positivity
  rw [DecimalParts.value, DecimalText.parts, unsignedValue_append]
  push_cast
  rw [add_div, mul_div_cancel_right₀ _ hpos]

/-- Trimming keeps the number. -/
theorem DecimalText.value_trimmed (d : DecimalText) : d.trimmed.parts.value = d.parts.value := by
  obtain ⟨k, hfraction⟩ := trimZeros_append_zeros d.fraction
  have hlength := congrArg List.length hfraction
  have hvalue := congrArg unsignedValue hfraction
  rw [List.length_append, List.length_replicate] at hlength
  rw [unsignedValue_append_zeros] at hvalue
  rw [value_parts, value_parts, DecimalText.trimmed, unsignedValue_decimal, hvalue, hlength, pow_add]
  push_cast
  rw [mul_div_mul_right _ _ (by positivity)]

/-- Trimmed digits are none, or do not end with a zero. -/
theorem trimZeros_eq_nil_or (s : JsString) : trimZeros s = [] ∨ EndsNonzero (trimZeros s) := by
  by_cases hne : s.reverse.dropWhile (fun c => decide (c.val = 48)) = []
  · exact .inl (by rw [JsonNumber.trimZeros, hne, List.reverse_nil])
  · obtain ⟨c, cs, hc⟩ := List.exists_cons_of_ne_nil hne
    have hhead := List.head_dropWhile_not (fun c : CodeUnit => decide (c.val = 48)) hne
    simp only [hc, List.head_cons] at hhead
    exact .inr ⟨cs.reverse, c, by rw [JsonNumber.trimZeros, hc, List.reverse_cons], by simpa using hhead⟩

/-- The number of a canonical text is zero for `0` alone. -/
theorem DecimalText.Fits.coefficient_trimmed {d : DecimalText} {n : ℕ} (h : d.Fits n) :
    d.trimmed.parts.coefficient = 0 ↔
      decimal (unsignedValue d.whole) = js "0" ∧ trimZeros d.fraction = [] := by
  have hzero : decimal (unsignedValue d.whole) = js "0" ↔ unsignedValue d.whole = 0 :=
    ⟨fun h => decimal_injective (h.trans (by decide)), fun h => by rw [h]; decide⟩
  have hfraction : unsignedValue (trimZeros d.fraction) = 0 ↔ trimZeros d.fraction = [] := by
    constructor
    · intro hvalue
      refine (trimZeros_eq_nil_or d.fraction).resolve_right ?_
      rintro ⟨t, c, ht, hc⟩
      have hdigit := h.fraction c (mem_of_mem_trimZeros (ht ▸ List.mem_append_right t (List.mem_singleton_self c)))
      rw [ht, unsignedValue_append] at hvalue
      have hlast : unsignedValue [c] = digitValue c := by simp [unsignedValue]
      simp only [isDigit, decide_eq_true_eq] at hdigit
      unfold digitValue at hlast
      omega
    · rintro h
      rw [h]
      rfl
  have hpow : 0 < 10 ^ (trimZeros d.fraction).length := by positivity
  rw [hzero, ← hfraction]
  change unsignedValue (decimal (unsignedValue d.whole) ++ trimZeros d.fraction) = 0 ↔ _
  rw [unsignedValue_append, unsignedValue_decimal, Nat.add_eq_zero_iff, Nat.mul_eq_zero]
  exact and_congr_left fun _ => ⟨fun h => h.resolve_right hpow.ne', .inl⟩

/-! ### The server and the app -/

theorem DecimalText.trimmed_trimmed (d : DecimalText) : d.trimmed.trimmed = d.trimmed := by
  rw [DecimalText.trimmed, DecimalText.trimmed, unsignedValue_decimal, trimZeros_trimZeros]

/-- Digits that are an amount of a currency with so many digits after its point. -/
def DecimalText.Acceptable (precision : ℕ) (d : DecimalText) : Prop :=
  d.trimmed.fraction.length ≤ precision ∧ 0 < d.trimmed.parts.coefficient ∧
    d.trimmed.parts.coefficient ≤ 9999999999999999

instance (precision : ℕ) (d : DecimalText) : Decidable (d.Acceptable precision) :=
  inferInstanceAs (Decidable (_ ∧ _ ∧ _))

theorem decimalMatch_canonical {d : DecimalText} (h : d.Fits 4) :
    decimalMatch 14 (jsTrim d.canonical) = some d.trimmed :=
  (h.trimmed.mono (by norm_num)).decimalMatch_text

/-- What the server reads of an amount. -/
theorem originalAmountText_eq (value : JsString) (currency : Option JsString) :
    originalAmountText value currency = (decimalMatch 4 (jsTrim value)).bind fun d =>
      (precisionOf currency).bind fun precision =>
        if d.Acceptable precision then some d.canonical else none := by
  unfold originalAmountText
  rw [canonicalDecimal_eq, ← decimalMatch_of_le (by norm_num)]
  cases hmatch : decimalMatch 4 (jsTrim value) with
  | none => cases precisionOf currency <;> rfl
  | some d =>
    cases precisionOf currency with
    | none => rfl
    | some precision =>
      have hfits := (decimalMatch_eq_some_iff.mp hmatch).1
      simp only [Option.map_some, Option.bind_some, decimalParts_eq, canonicalDecimal_eq,
        decimalMatch_canonical hfits, Option.filter_some]
      by_cases hlength : d.trimmed.fraction.length ≤ precision
      · have hcanonical : d.trimmed.canonical = d.canonical := by
          rw [DecimalText.canonical_eq, DecimalText.canonical_eq, d.trimmed_trimmed]
        simp [hlength, DecimalText.Acceptable, hcanonical]
      · simp [hlength, DecimalText.Acceptable]

/-- What the app reads of an amount. -/
theorem canonicalForeignAmount_eq (value : JsString) {currency : JsString}
    (hforeign : Dart.isForeignCurrency currency = true) {precision : ℕ}
    (hprecision : currencyPrecision currency = some precision) :
    canonicalForeignAmount value (some currency) = (decimalMatch 4 (trim value)).bind fun d =>
      if d.Acceptable precision then some d.canonical else none := by
  unfold canonicalForeignAmount
  rw [Option.any_some, hforeign, Bool.not_true, if_neg Bool.false_ne_true]
  cases hmatch : decimalMatch 4 (trim value) with
  | none => rfl
  | some d =>
    have hfits := (decimalMatch_eq_some_iff.mp hmatch).1
    have hpositive : (decimal (unsignedValue d.whole) = js "0" ∧ trimZeros d.fraction = []) ↔
        ¬ 0 < d.trimmed.parts.coefficient := by
      rw [← hfits.coefficient_trimmed, Nat.pos_iff_ne_zero, not_not]
    have htext : (if trimZeros d.fraction = [] then decimal (unsignedValue d.whole) else
        decimal (unsignedValue d.whole) ++ 46 :: trimZeros d.fraction) = d.canonical := by
      unfold DecimalText.canonical
      dsimp only
      split_ifs
      · rw [List.append_nil]
      · rfl
    simp only [Option.elim_some, minorUnitsOf_eq, hprecision, Option.getD_some, hpositive, htext,
      Option.bind_some]
    change (if precision < d.trimmed.fraction.length then none
      else if ¬ 0 < d.trimmed.parts.coefficient then none
      else if 9999999999999999 < d.trimmed.parts.coefficient then none else some d.canonical) = _
    by_cases hlength : precision < d.trimmed.fraction.length
    · rw [if_pos hlength, if_neg fun h : d.Acceptable precision => absurd hlength (not_lt.mpr h.1)]
    rw [if_neg hlength]
    by_cases hpos : 0 < d.trimmed.parts.coefficient
    · rw [if_neg (not_not.mpr hpos)]
      by_cases hle : 9999999999999999 < d.trimmed.parts.coefficient
      · rw [if_pos hle, if_neg fun h : d.Acceptable precision => absurd hle (not_lt.mpr h.2.2)]
      · rw [if_neg hle, if_pos (show d.Acceptable precision from ⟨not_lt.mp hlength, hpos, not_lt.mp hle⟩)]
    · rw [if_pos hpos, if_neg fun h : d.Acceptable precision => hpos h.2.1]

/-- A text that begins and ends with what Dart keeps is kept by JavaScript. -/
theorem jsTrim_of_trim {value : JsString} (h : trim value = value) : jsTrim value = value := by
  have hkeep : ∀ {s : JsString}, s.dropWhile isWhiteSpace = s → s.dropWhile isJsWhiteSpace = s := by
    intro s hs
    cases s with
    | nil => rfl
    | cons c s =>
      refine List.dropWhile_cons_of_neg fun hc => ?_
      have hspace : isWhiteSpace c = true := (Bool.and_eq_true_iff.mp hc).1
      rw [List.dropWhile_cons_of_pos hspace] at hs
      have hlength := (List.dropWhile_suffix (l := s) isWhiteSpace).length_le
      rw [hs, List.length_cons] at hlength
      omega
  have hlength := congrArg List.length h
  rw [trim, List.length_reverse] at hlength
  have hfirst := List.dropWhile_suffix (l := value) isWhiteSpace
  have hlast := List.dropWhile_suffix (l := (value.dropWhile isWhiteSpace).reverse) isWhiteSpace
  have hlasts := hlast.length_le
  rw [List.length_reverse] at hlasts
  have hstart : value.dropWhile isWhiteSpace = value :=
    hfirst.eq_of_length (le_antisymm hfirst.length_le (hlength.symm.le.trans hlasts))
  rw [hstart] at hlast hlength
  have hend : value.reverse.dropWhile isWhiteSpace = value.reverse :=
    hlast.eq_of_length (by rw [hlength, List.length_reverse])
  rw [PortableBackup.jsTrim, hkeep hstart, hkeep hend, List.reverse_reverse]

/-- **Amounts are read alike.** -/
theorem originalAmountText_eq_canonicalForeignAmount {value currency : JsString}
    (hforeign : Dart.isForeignCurrency currency = true) (hspace : trim value = value) :
    originalAmountText value (some currency) = canonicalForeignAmount value (some currency) := by
  obtain ⟨hne, hsome⟩ := Bool.and_eq_true_iff.mp hforeign
  rw [minorUnitsOf_eq] at hsome
  obtain ⟨precision, hprecision⟩ := Option.isSome_iff_exists.mp hsome
  have hprecisionOf : precisionOf (some currency) = some precision := by
    cases currency with
    | nil => cases hprecision.symm.trans (show currencyPrecision [] = none by decide +kernel)
    | cons c cs => exact hprecision
  rw [originalAmountText_eq, canonicalForeignAmount_eq value hforeign hprecision, hprecisionOf, hspace,
    jsTrim_of_trim hspace]
  rfl

/-- **Amounts are canonical.** What the server reads of an amount denotes the same number, and both read it
as it is. -/
theorem originalAmountText_canonical {value text currency : JsString}
    (hforeign : Dart.isForeignCurrency currency = true)
    (h : originalAmountText value (some currency) = some text) :
    (∃ p q, decimalParts value 4 = some p ∧ decimalParts text 4 = some q ∧ q.value = p.value) ∧
      originalAmountText text (some currency) = some text ∧
      canonicalForeignAmount text (some currency) = some text := by
  rw [originalAmountText_eq] at h
  obtain ⟨d, hmatch, h⟩ := Option.bind_eq_some_iff.mp h
  obtain ⟨precision, hprecision, h⟩ := Option.bind_eq_some_iff.mp h
  split_ifs at h with haccept
  obtain rfl := Option.some.inj h
  have hfits := (decimalMatch_eq_some_iff.mp hmatch).1
  have hparts : ∀ {v : JsString} {e : DecimalText}, decimalMatch 4 (jsTrim v) = some e →
      decimalParts v 4 = some e.parts := by
    intro v e he
    rw [decimalParts_eq, ← decimalMatch_of_le (by norm_num), he, Option.map_some]
  have hcanonical : decimalMatch 4 (jsTrim d.canonical) = some d.trimmed :=
    hfits.trimmed.decimalMatch_text
  have hfixed : originalAmountText d.canonical (some currency) = some d.canonical := by
    have haccept' : d.trimmed.Acceptable precision := by
      unfold DecimalText.Acceptable
      rw [d.trimmed_trimmed]
      exact haccept
    have htext : d.trimmed.canonical = d.canonical := by
      rw [DecimalText.canonical_eq, DecimalText.canonical_eq, d.trimmed_trimmed]
    rw [originalAmountText_eq, hcanonical, hprecision, Option.bind_some, Option.bind_some,
      if_pos haccept', htext]
  refine ⟨⟨_, _, hparts hmatch, hparts hcanonical, d.value_trimmed⟩, hfixed, ?_⟩
  have hspace : trim d.canonical = d.canonical := hfits.trimmed.trim_text
  rw [← originalAmountText_eq_canonicalForeignAmount hforeign hspace, hfixed]

/-! ### Estimates -/

/-- The text of an amount in paise is read as it is. -/
theorem decimalParts_minorToInr {paise : ℕ} (h : paise ≤ maxInrMinor) :
    decimalParts (minorToInr paise) 2 = some ⟨paise, 2⟩ := by
  have hdigits : ∀ n, ∀ c ∈ decimal n, isDigit c = true := fun n =>
    isDigit_of_isUnsigned (isUnsigned_decimal n)
  set minor := decimal (paise % 100) with hminor
  have hshort : minor.length ≤ 2 := length_decimal_le (by norm_num) (Nat.mod_lt _ (by norm_num))
  set d : DecimalText := ⟨decimal (paise / 100), List.replicate (2 - minor.length) 48 ++ minor⟩ with hd
  have hlength : d.fraction.length = 2 := by
    rw [hd, List.length_append, List.length_replicate]
    omega
  have hne : d.fraction ≠ [] := List.ne_nil_of_length_pos (by omega)
  have hfits : d.Fits 2 := by
    refine ⟨hdigits _, fun c hc => ?_, ?_, ?_, hlength.le⟩
    · rcases List.mem_append.mp hc with hc | hc
      · obtain rfl := List.eq_of_mem_replicate hc
        decide
      · exact hdigits _ c hc
    · obtain ⟨c, cs, hc, -⟩ := val_head_decimal (paise / 100)
      rw [hd, hc, List.length_cons]
      omega
    · refine length_decimal_le (by norm_num) ?_
      unfold maxInrMinor at h
      omega
  have htext : minorToInr paise = d.text := by
    rw [minorToInr, if_neg (by omega), Int.natAbs_natCast, List.nil_append, DecimalText.text, if_neg hne]
  have hvalue : d.parts = ⟨paise, 2⟩ := by
    rw [DecimalText.parts, hlength, unsignedValue_append, hlength, unsignedValue_zeros_append,
      unsignedValue_decimal, hminor, unsignedValue_decimal]
    congr 1
    omega
  rw [htext, decimalParts_eq, (hfits.mono (show 2 ≤ 14 by norm_num)).decimalMatch_text,
    Option.filter_some, decide_eq_true hlength.le, if_pos rfl, Option.map_some, hvalue]

/-- Adding a half of a power of ten before dividing by it rounds half up. -/
theorem round_div_pow (numerator k : ℕ) :
    round ((numerator : ℚ) / 10 ^ k) = ((numerator + 10 ^ k / 2) / 10 ^ k : ℕ) := by
  have hpos : (0 : ℚ) < 10 ^ k := by positivity
  have hdiv := Nat.div_add_mod (numerator + 10 ^ k / 2) (10 ^ k)
  have hmod := Nat.mod_lt (numerator + 10 ^ k / 2) (show 0 < 10 ^ k by positivity)
  set paise := (numerator + 10 ^ k / 2) / 10 ^ k
  have hnat : 2 * (10 ^ k * paise) ≤ 2 * numerator + 10 ^ k ∧
      2 * numerator < 2 * (10 ^ k * paise) + 10 ^ k := by
    cases k with
    | zero =>
      simp only [pow_zero, one_mul] at hdiv hmod ⊢
      omega
    | succ k =>
      rw [pow_succ] at hdiv hmod ⊢
      omega
  have hlow : (2 * (10 ^ k * paise) : ℚ) ≤ 2 * numerator + 10 ^ k := by exact_mod_cast hnat.1
  have hhigh : (2 * numerator : ℚ) < 2 * (10 ^ k * paise) + 10 ^ k := by exact_mod_cast hnat.2
  refine round_eq_iff.mpr ⟨?_, ?_⟩
  · rw [le_div_iff₀ hpos]
    push_cast
    linarith
  · rw [div_lt_iff₀ hpos]
    push_cast
    linarith

/-- The product of an amount and a rate, in paise. -/
def inrProduct (a r : DecimalParts) : ℚ := 100 * (a.value * r.value)

/-- **An estimate is the product, rounded half up**, where that is an amount in rupees. -/
theorem convertToInrText_eq {amount rate : JsString} {a r : DecimalParts}
    (ha : decimalParts amount 4 = some a) (hr : decimalParts rate 14 = some r)
    (hapos : 0 < a.coefficient) (hrpos : 0 < r.coefficient) :
    convertToInrText amount rate =
      if 1 ≤ round (inrProduct a r) ∧ round (inrProduct a r) ≤ maxInrMinor then
        some (minorToInr (round (inrProduct a r))) else none := by
  have hproduct : inrProduct a r =
      ((a.coefficient * r.coefficient * 100 : ℕ) : ℚ) / 10 ^ (a.scale + r.scale) := by
    unfold inrProduct DecimalParts.value
    push_cast
    rw [pow_add]
    field_simp
  unfold convertToInrText
  rw [ha, hr]
  dsimp only
  rw [if_pos ⟨hapos, hrpos⟩, hproduct, round_div_pow]
  norm_cast

/-- An estimate, as the number of its paise. -/
theorem exists_paise_of_convertToInrText {amount rate text : JsString}
    (h : convertToInrText amount rate = some text) :
    ∃ a r, decimalParts amount 4 = some a ∧ decimalParts rate 14 = some r ∧ ∃ paise : ℕ,
      0 < paise ∧ paise ≤ maxInrMinor ∧ (paise : ℤ) = round (inrProduct a r) ∧ text = minorToInr paise := by
  have hsaved := h
  unfold convertToInrText at h
  split at h
  · rename_i a r ha hr
    split_ifs at h with hpos
    rw [convertToInrText_eq ha hr hpos.1 hpos.2] at hsaved
    split_ifs at hsaved with hbounds
    obtain ⟨paise, hpaise⟩ := Int.eq_ofNat_of_zero_le (show 0 ≤ round (inrProduct a r) by omega)
    refine ⟨a, r, ha, hr, paise, by omega, by omega, hpaise.symm, ?_⟩
    rw [← Option.some.inj hsaved, hpaise]
  · cases h

theorem DecimalParts.value_nonneg (p : DecimalParts) : 0 ≤ p.value := by
  unfold DecimalParts.value
  positivity

theorem inrProduct_mono {a a' r r' : DecimalParts} (ha : a.value ≤ a'.value) (hr : r.value ≤ r'.value) :
    inrProduct a r ≤ inrProduct a' r' := by
  have hproduct := mul_le_mul ha hr r.value_nonneg a'.value_nonneg
  unfold inrProduct
  linarith

/-- An estimate is an amount in rupees. -/
theorem inrAmountText_of_convertToInrText {amount rate text : JsString}
    (h : convertToInrText amount rate = some text) : inrAmountText text = some text := by
  obtain ⟨-, -, -, -, paise, hpos, hmax, -, rfl⟩ := exists_paise_of_convertToInrText h
  have hunits : DecimalParts.units ⟨paise, 2⟩ 2 = paise := by simp [DecimalParts.units]
  unfold inrAmountText
  rw [decimalParts_minorToInr hmax]
  dsimp only
  rw [hunits, if_pos ⟨hpos, hmax⟩]

/-- More of a currency, or a higher rate, is not estimated as less. -/
theorem convertToInrText_mono {amount amount' rate rate' text text' : JsString} {a a' r r' : DecimalParts}
    (ha : decimalParts amount 4 = some a) (ha' : decimalParts amount' 4 = some a')
    (hr : decimalParts rate 14 = some r) (hr' : decimalParts rate' 14 = some r')
    (hamount : a.value ≤ a'.value) (hrate : r.value ≤ r'.value)
    (h : convertToInrText amount rate = some text) (h' : convertToInrText amount' rate' = some text') :
    ∃ m m', decimalParts text 2 = some m ∧ decimalParts text' 2 = some m' ∧ m.value ≤ m'.value := by
  obtain ⟨b, s, hb, hs, paise, -, hmax, hround, rfl⟩ := exists_paise_of_convertToInrText h
  obtain ⟨b', s', hb', hs', paise', -, hmax', hround', rfl⟩ := exists_paise_of_convertToInrText h'
  obtain rfl := Option.some.inj (ha.symm.trans hb)
  obtain rfl := Option.some.inj (ha'.symm.trans hb')
  obtain rfl := Option.some.inj (hr.symm.trans hs)
  obtain rfl := Option.some.inj (hr'.symm.trans hs')
  refine ⟨_, _, decimalParts_minorToInr hmax, decimalParts_minorToInr hmax', ?_⟩
  have hle : (paise : ℤ) ≤ paise' := by
    rw [hround, hround']
    exact round_mono (inrProduct_mono hamount hrate)
  have hle' : (paise : ℚ) ≤ paise' := by exact_mod_cast hle
  unfold DecimalParts.value
  linarith

/-- **Foreign money is exact.** The server and the app read a text without white space at its ends alike.
What they read of an amount denotes the same number and is read as it is. An estimate is the product
rounded half up to whole paise, where that is an amount in rupees; it grows with the amount and with the
rate, and is read as it is. -/
theorem foreign_money_exact :
    (∀ value currency, Dart.isForeignCurrency currency = true → trim value = value →
      originalAmountText value (some currency) = canonicalForeignAmount value (some currency)) ∧
    (∀ value currency text, Dart.isForeignCurrency currency = true →
      originalAmountText value (some currency) = some text →
        (∃ p q, decimalParts value 4 = some p ∧ decimalParts text 4 = some q ∧ q.value = p.value) ∧
        originalAmountText text (some currency) = some text ∧
        canonicalForeignAmount text (some currency) = some text) ∧
    (∀ amount rate a r, decimalParts amount 4 = some a → decimalParts rate 14 = some r →
      0 < a.coefficient → 0 < r.coefficient →
        convertToInrText amount rate =
          (if 1 ≤ round (inrProduct a r) ∧ round (inrProduct a r) ≤ maxInrMinor then
            some (minorToInr (round (inrProduct a r))) else none) ∧
        |inrProduct a r - round (inrProduct a r)| ≤ 1 / 2) ∧
    (∀ amount amount' rate rate' text text' a a' r r',
      decimalParts amount 4 = some a → decimalParts amount' 4 = some a' →
      decimalParts rate 14 = some r → decimalParts rate' 14 = some r' →
      a.value ≤ a'.value → r.value ≤ r'.value →
      convertToInrText amount rate = some text → convertToInrText amount' rate' = some text' →
        ∃ m m', decimalParts text 2 = some m ∧ decimalParts text' 2 = some m' ∧ m.value ≤ m'.value) ∧
    ∀ amount rate text, convertToInrText amount rate = some text → inrAmountText text = some text := by
  refine ⟨fun value currency hforeign hspace => ?_, fun value currency text hforeign h => ?_,
    fun amount rate a r ha hr hapos hrpos => ⟨?_, abs_sub_round _⟩, ?_, ?_⟩
  · exact originalAmountText_eq_canonicalForeignAmount hforeign hspace
  · exact originalAmountText_canonical hforeign h
  · exact convertToInrText_eq ha hr hapos hrpos
  · intro amount amount' rate rate' text text' a a' r r' ha ha' hr hr' hamount hrate h h'
    exact convertToInrText_mono ha ha' hr hr' hamount hrate h h'
  · intro amount rate text h
    exact inrAmountText_of_convertToInrText h

/-- An amount of 12.50 euros, as it is read, and its estimate. -/
theorem foreign_money_exact_euros :
    originalAmountText (js "012.50") (some (js "EUR")) = canonicalForeignAmount (js "012.50") (some (js "EUR")) ∧
      inrAmountText (js "1140.43") = some (js "1140.43") :=
  ⟨foreign_money_exact.1 _ _ (by decide +kernel) (by decide +kernel),
    foreign_money_exact.2.2.2.2 (js "12.5") (js "91.2345") _ (by decide +kernel)⟩

end PandaPay.ForeignPayments
