import PandaPay.PortableBackup.Sessions
import PandaPay.SharedExpenses.Bill

/-!
# Amounts in foreign currencies

Amounts are decimal texts, which `decimalParts` reads. An original amount is kept in ten-thousandths
of its currency, as in a column `numeric(26,4)`, and an amount in rupees in paise.

## Main definitions

* `decimalParts`: the decimal that a text denotes
* `originalAmount`, `inrAmount`: an amount that a request gives
* `convertToInr`: a reference estimate
-/

namespace PandaPay.ForeignPayments

open PortableBackup (jsTrim)

/-! ### Currencies -/

/-- The currencies of `currency_minor_units.json` by the digits after their decimal point. -/
def minorUnits : List (ℕ × List String) := [
  (0, [
    "BIF", "CLP", "DJF", "GNF", "ISK", "JPY", "KMF", "KRW", "PYG", "RWF", "UGX", "UYI", 
    "VND", "VUV", "XAF", "XOF", "XPF"]),
  (2, [
    "AED", "AFN", "ALL", "AMD", "AOA", "ARS", "AUD", "AWG", "AZN", "BAM", "BBD", "BDT", 
    "BMD", "BND", "BOB", "BOV", "BRL", "BSD", "BTN", "BWP", "BYN", "BZD", "CAD", "CDF", 
    "CHE", "CHF", "CHW", "CNY", "COP", "COU", "CRC", "CUP", "CVE", "CZK", "DKK", "DOP", 
    "DZD", "EGP", "ERN", "ETB", "EUR", "FJD", "FKP", "GBP", "GEL", "GHS", "GIP", "GMD", 
    "GTQ", "GYD", "HKD", "HNL", "HTG", "HUF", "IDR", "ILS", "INR", "IRR", "JMD", "KES", 
    "KGS", "KHR", "KPW", "KYD", "KZT", "LAK", "LBP", "LKR", "LRD", "LSL", "MAD", "MDL", 
    "MGA", "MKD", "MMK", "MNT", "MOP", "MRU", "MUR", "MVR", "MWK", "MXN", "MXV", "MYR", 
    "MZN", "NAD", "NGN", "NIO", "NOK", "NPR", "NZD", "PAB", "PEN", "PGK", "PHP", "PKR", 
    "PLN", "QAR", "RON", "RSD", "RUB", "SAR", "SBD", "SCR", "SDG", "SEK", "SGD", "SHP", 
    "SLE", "SOS", "SRD", "SSP", "STN", "SVC", "SYP", "SZL", "THB", "TJS", "TMT", "TOP", 
    "TRY", "TTD", "TWD", "TZS", "UAH", "USD", "USN", "UYU", "UZS", "VED", "VES", "WST", 
    "XAD", "XCD", "XCG", "YER", "ZAR", "ZMW", "ZWG"]),
  (3, [
    "BHD", "IQD", "JOD", "KWD", "LYD", "OMR", "TND"]),
  (4, [
    "CLF", "UYW"])
  ]

/-- `currencyPrecision(currency)`. -/
def currencyPrecision (currency : JsString) : Option ℕ :=
  (minorUnits.find? fun units => units.2.any fun code => js code = currency).map (·.1)

/-! ### Decimals -/

/-- A coefficient and the number of its digits after the point. -/
structure DecimalParts where
  coefficient : ℕ
  scale : ℕ
  deriving DecidableEq

/-- `decimalParts(value, maxScale)` of a string, and of a number through its text. -/
def decimalParts (value : JsString) (maxScale : ℕ) : Option DecimalParts :=
  let text := jsTrim value
  let whole := text.takeWhile isDigit
  if 1 ≤ whole.length ∧ whole.length ≤ 16 then
    match text.dropWhile isDigit with
    | [] => some ⟨unsignedValue whole, 0⟩
    | point :: fraction =>
      if point.val = 46 ∧ fraction.all isDigit ∧ 1 ≤ fraction.length ∧ fraction.length ≤ 14 ∧
          fraction.length ≤ maxScale then
        some ⟨unsignedValue (whole ++ fraction), fraction.length⟩
      else none
  else none

/-- The decimal as a number of units, of which `scale` digits stand after the point. -/
def DecimalParts.units (p : DecimalParts) (scale : ℕ) : ℕ := p.coefficient * 10 ^ (scale - p.scale)

/-- The digits of a number of units, of which `scale` stand after the point: how a `numeric` column
is printed. -/
def fixedText (scale units : ℕ) : JsString :=
  decimal (units / 10 ^ scale) ++
    46 :: (List.range scale).reverse.map fun i => digitUnit (units / 10 ^ i % 10)

/-! ### Amounts -/

/-- The digits after the point that a number of ten-thousandths needs. -/
def fractionDigits (units : ℕ) : ℕ := ((List.range 4).find? fun s => 10 ^ (4 - s) ∣ units).getD 4

/-- `originalAmount(value, currency)` of an amount in ten-thousandths. -/
def originalUnits (units : ℕ) (currency : Option JsString) : Option ℕ :=
  let precision := match currency with
    | none | some [] => some 4
    | some currency => currencyPrecision currency
  let coefficient := units / 10 ^ (4 - fractionDigits units)
  match precision with
  | none => none
  | some precision =>
    if fractionDigits units ≤ precision ∧ 0 < coefficient ∧ coefficient ≤ 9999999999999999 then
      some units
    else none

/-- `originalAmount(value, currency)`: the amount in ten-thousandths. -/
def originalAmount (value : JsString) (currency : Option JsString) : Option ℕ :=
  match decimalParts value 4 with
  | none => none
  | some parts => originalUnits (parts.units 4) currency

/-- `MAX_INR_MINOR`. -/
def maxInrMinor : ℕ := 999999999999

/-- `inrAmount(value)`: the amount in paise. -/
def inrAmount (value : JsString) : Option ℕ :=
  match decimalParts value 2 with
  | none => none
  | some parts => if 0 < parts.units 2 ∧ parts.units 2 ≤ maxInrMinor then some (parts.units 2) else none

/-- `convertToInr(amount, rate)` of an amount in ten-thousandths, rounded to the nearest paisa. -/
def convertToInr (units : ℕ) (rate : DecimalParts) : Option ℕ :=
  let denominator := 10 ^ (4 + rate.scale)
  let paise := (units * rate.coefficient * 100 + denominator / 2) / denominator
  if 0 < units ∧ 0 < rate.coefficient ∧ 0 < paise ∧ paise ≤ maxInrMinor then some paise else none

end PandaPay.ForeignPayments
