import PandaPay.Json.Decimal
import PandaPay.Library.Rounding

/-!
# What spend accrues

`accrue` of `reward_math_v2.js`. Numbers are exact: an amount or a rate is the rational that its decimal
text denotes, so the guard against binary errors only shows in what it does to exact values.

## Main definitions

* `RewardUnit`, `Currency`: what a rate pays in
* `round2`, `exactDecimal`, `divHalfUp`: the roundings
* `accrue`: what some spend earns at a rate

## Main results

* `accrue_nonneg`
-/

namespace PandaPay.CardRewards

/-! ### Units -/

/-- A text that names one of the values `α`, or none of them. -/
inductive Named (α : Type) where
  | known (a : α)
  | other (text : JsString)
  deriving DecidableEq

/-- The field is set to a text that names no value. -/
def Named.isOther {α : Type} : Option (Named α) → Bool
  | some (.other _) => true
  | _ => false

/-- `reward_unit`. -/
inductive RewardUnit where
  | cashbackPercent
  | pointsPer100
  | pointsPer150
  | pointsPer200
  | milesPer100
  | flatPoints
  | discountPercent
  deriving DecidableEq

inductive Currency where
  | points
  | cashback
  deriving DecidableEq

/-- `POINTS_UNITS`, `CASHBACK_UNITS`. -/
def RewardUnit.currency : RewardUnit → Currency
  | .cashbackPercent | .discountPercent => .cashback
  | _ => .points

/-- `currencyOf(unit)`. -/
def currencyOf : Option (Named RewardUnit) → Option Currency
  | some (.known unit) => some unit.currency
  | _ => none

/-- `UNIT_BLOCK`. -/
def RewardUnit.block : RewardUnit → Option ℚ
  | .pointsPer100 | .milesPer100 => some 100
  | .pointsPer150 => some 150
  | .pointsPer200 => some 200
  | _ => none

/-- `unit || null`: an empty text is no unit. -/
def presentUnit (unit : Option (Named RewardUnit)) : Option (Named RewardUnit) :=
  unit.filter (· ≠ .other [])

/-- `accrual_rounding`. -/
inductive Rounding where
  | floor
  | round
  | none
  | pointsHalfUp
  | pointsFloor
  deriving DecidableEq

/-- `cashback_rounding`. -/
inductive CashbackRounding where
  | paise
  | rupeeFloor
  | rupeeHalfUp
  deriving DecidableEq

/-! ### Roundings -/

/-- `PAISE_EPS`. -/
def paiseEps : ℚ := 1 / 1000000

/-- `round2(value)` of a value that is not negative. -/
def round2 (value : ℚ) : ℚ := roundOnto 100 paiseEps value

/-- `exactDecimal(value)`: the value as a fraction with at most eight decimals. -/
def exactDecimal (value : ℚ) : ℤ × ℤ :=
  let isExact (dp : ℕ) : Bool :=
    |value * 10 ^ dp - round (value * 10 ^ dp)| ≤ 1 / 10 ^ 9 * max 1 |value * 10 ^ dp|
  match (List.range 9).find? isExact with
  | some dp => (round (value * 10 ^ dp), 10 ^ dp)
  | none => (round (value * 10 ^ 8), 10 ^ 8)

/-- `divHalfUp(n, d)`. -/
def divHalfUp (n d : ℤ) : ℤ := (2 * n + d) / (2 * d)

/-- Cashback on `paise`, at `rateNum / rateDen` percent. -/
def cashbackOn (cashbackRounding : CashbackRounding) (paise rateNum rateDen : ℤ) : ℚ :=
  let n := paise * rateNum
  let toPaise := 100 * rateDen
  match cashbackRounding with
  | .rupeeFloor => (n / (toPaise * 100) : ℤ)
  | .rupeeHalfUp => divHalfUp n (toPaise * 100)
  | .paise => (divHalfUp n toPaise : ℚ) / 100

/-- The points on `spend` at `rate` for each `block`. A block of less than half a paisa does not exist
in the catalogue, whose blocks have two decimals. -/
def pointsOn (rounding : Rounding) (rate spend block : ℚ) : ℚ :=
  let spendPaise := round (spend * 100)
  let blockPaise := round (block * 100)
  let (rateNum, rateDen) := exactDecimal rate
  match rounding with
  | .none => spend / block * rate
  | .pointsFloor => (spendPaise * rateNum / (blockPaise * rateDen) : ℤ)
  | .pointsHalfUp => divHalfUp (spendPaise * rateNum) (blockPaise * rateDen)
  | .round => divHalfUp spendPaise blockPaise * rate
  | .floor => (spendPaise / blockPaise : ℤ) * rate

/-- The block that counts: an override, else that of the unit. -/
def blockOf (unit : Named RewardUnit) (blockOverride : Option ℚ) : Option ℚ :=
  (blockOverride.filter (0 < ·)).or
    (match unit with
      | .known unit => unit.block
      | .other _ => none)

/-- `accrue(unit, rate, spend, blockOverride, rounding, cashbackRounding)`. -/
def accrue (unit : Option (Named RewardUnit)) (rate : Option ℚ) (spend : ℚ) (blockOverride : Option ℚ)
    (rounding : Rounding) (cashbackRounding : CashbackRounding) : ℚ :=
  match presentUnit unit, rate with
  | some unit, some r =>
    if r ≤ 0 ∨ spend ≤ 0 then 0
    else if currencyOf (some unit) = some .cashback then
      cashbackOn cashbackRounding (round (spend * 100)) (exactDecimal r).1 (exactDecimal r).2
    else if unit = .known .flatPoints then r
    else
      match blockOf unit blockOverride with
      | some block => pointsOn rounding r spend block
      | none => 0
  | _, _ => 0

/-! ### Signs -/

theorem paiseEps_nonneg : 0 ≤ paiseEps := by norm_num [paiseEps]

theorem paiseEps_lt : paiseEps < 1 / 2 := by norm_num [paiseEps]

theorem onGrid_round2 (value : ℚ) : OnGrid 100 (round2 value) := onGrid_roundOnto _ _ _

theorem round2_of_onGrid {value : ℚ} (h : OnGrid 100 value) : round2 value = value :=
  roundOnto_of_onGrid (by norm_num) paiseEps_nonneg paiseEps_lt h

theorem round2_le {value bound : ℚ} (h : value ≤ bound) (hbound : OnGrid 100 bound) :
    round2 value ≤ bound :=
  roundOnto_le (by norm_num) paiseEps_nonneg paiseEps_lt h hbound

theorem round2_nonneg {value : ℚ} (h : 0 ≤ value) : 0 ≤ round2 value :=
  le_roundOnto (by norm_num) paiseEps_nonneg paiseEps_lt h .zero

theorem round_nonneg {x : ℚ} (h : 0 ≤ x) : 0 ≤ round x := by
  rw [round_eq]
  exact Int.floor_nonneg.mpr (by linarith)

theorem exactDecimal_nonneg {value : ℚ} (h : 0 ≤ value) :
    0 ≤ (exactDecimal value).1 ∧ 0 ≤ (exactDecimal value).2 := by
  unfold exactDecimal
  dsimp only
  split
  · exact ⟨round_nonneg (by positivity), by positivity⟩
  · exact ⟨round_nonneg (by positivity), by positivity⟩

theorem divHalfUp_nonneg {n d : ℤ} (hn : 0 ≤ n) (hd : 0 ≤ d) : 0 ≤ divHalfUp n d :=
  Int.ediv_nonneg (by omega) (by omega)

theorem cashbackOn_nonneg {mode : CashbackRounding} {paise rateNum rateDen : ℤ} (hpaise : 0 ≤ paise)
    (hnum : 0 ≤ rateNum) (hden : 0 ≤ rateDen) : 0 ≤ cashbackOn mode paise rateNum rateDen := by
  have hn : 0 ≤ paise * rateNum := Int.mul_nonneg hpaise hnum
  unfold cashbackOn
  cases mode with
  | paise => exact div_nonneg (by exact_mod_cast divHalfUp_nonneg hn (by omega)) (by norm_num)
  | rupeeFloor => exact Int.cast_nonneg (Int.ediv_nonneg hn (by omega))
  | rupeeHalfUp => exact Int.cast_nonneg (divHalfUp_nonneg hn (by omega))

theorem pointsOn_nonneg {mode : Rounding} {rate spend block : ℚ} (hrate : 0 ≤ rate) (hspend : 0 ≤ spend)
    (hblock : 0 ≤ block) : 0 ≤ pointsOn mode rate spend block := by
  have hpaise : 0 ≤ round (spend * 100) := round_nonneg (by positivity)
  have hblockPaise : 0 ≤ round (block * 100) := round_nonneg (by positivity)
  obtain ⟨hnum, hden⟩ := exactDecimal_nonneg hrate
  have hn : 0 ≤ round (spend * 100) * (exactDecimal rate).1 := Int.mul_nonneg hpaise hnum
  have hd : 0 ≤ round (block * 100) * (exactDecimal rate).2 := Int.mul_nonneg hblockPaise hden
  unfold pointsOn
  cases mode with
  | none => positivity
  | pointsFloor => exact Int.cast_nonneg (Int.ediv_nonneg hn hd)
  | pointsHalfUp => exact Int.cast_nonneg (divHalfUp_nonneg hn hd)
  | round => exact mul_nonneg (by exact_mod_cast divHalfUp_nonneg hpaise hblockPaise) hrate
  | floor => exact mul_nonneg (by exact_mod_cast Int.ediv_nonneg hpaise hblockPaise) hrate

theorem blockOf_pos {unit : Named RewardUnit} {blockOverride : Option ℚ} {block : ℚ}
    (h : blockOf unit blockOverride = some block) : 0 < block := by
  rcases Option.or_eq_some_iff.mp h with hoverride | ⟨-, hunit⟩
  · simpa using (Option.filter_eq_some_iff.mp hoverride).2
  · match unit with
    | .known unit => cases unit <;> simp [RewardUnit.block] at hunit <;> norm_num [← hunit]
    | .other _ => simp at hunit

/-- Nothing accrues below zero. -/
theorem accrue_nonneg (unit : Option (Named RewardUnit)) (rate : Option ℚ) (spend : ℚ)
    (blockOverride : Option ℚ) (rounding : Rounding) (cashbackRounding : CashbackRounding) :
    0 ≤ accrue unit rate spend blockOverride rounding cashbackRounding := by
  unfold accrue
  split
  · rename_i u r _ _
    split_ifs with hzero hcashback hflat
    · exact le_refl 0
    · push Not at hzero
      obtain ⟨hnum, hden⟩ := exactDecimal_nonneg hzero.1.le
      have hspend : 0 ≤ spend := hzero.2.le
      exact cashbackOn_nonneg (round_nonneg (by positivity)) hnum hden
    · push Not at hzero
      exact hzero.1.le
    · push Not at hzero
      split
      · rename_i block hblock
        exact pointsOn_nonneg hzero.1.le hzero.2.le (blockOf_pos hblock).le
      · exact le_refl 0
  · exact le_refl 0

end PandaPay.CardRewards
