import PandaPay.CardRewards.Engine.Caps

/-!
# Rules, on the phone

How `reward_engine_v2.dart` chooses the rule a transaction earns under. Money is in paise, and a rate is the
rational that its decimal text denotes. The catalogue is parsed: what the parser dropped is listed by the
card. The merchant directory, lower case and the days of the time zone are arguments.

## Main definitions

* `RewardRule`, `CapRule`, `CardProduct`, `RecommendationContext`: what the engine reads
* `accrue`: what some spend earns at a rate
* `rewardRuleAppliesV2`: whether a rule applies
* `selectRule`: the rule, or the exclusion
-/

namespace PandaPay.CardRewards.Dart

/-! ### The catalogue -/

/-- `RewardRule`. -/
structure RewardRule where
  id : JsString
  categoryId : Option JsString := none
  merchantPattern : Option JsString := none
  rail : Option Rail := none
  unit : RewardUnit
  rate : ℚ
  minTxn : Option ℤ := none
  maxTxn : Option ℤ := none
  excludedCategoryIds : List JsString := []
  effectiveFrom : Option ℤ := none
  effectiveTo : Option ℤ := none
  priority : ℤ := 100
  role : Option RuleRole := none
  merchantSlugs : List JsString := []
  platformSlugs : List JsString := []
  mccInclude : List JsString := []
  mccExclude : List JsString := []
  exceptMerchantSlugs : List JsString := []
  exceptPlatformSlugs : List JsString := []
  blockInr : Option ℤ := none
  minEngineVersion : ℤ := 1
  maxEngineVersion : Option ℤ := none
  displayNote : Option JsString := none
  deriving DecidableEq

namespace RewardRule

variable (rule : RewardRule)

/-- `isV1Only`. -/
def isV1Only : Bool := rule.maxEngineVersion = some 1

/-- `effectiveRole`. -/
def effectiveRole : RuleRole := rule.role.getD .earn

/-- `marksV2`. -/
def marksV2 : Bool :=
  rule.role.any (· ≠ .earn) || rule.merchantSlugs ≠ [] || rule.platformSlugs ≠ [] ||
    rule.mccInclude ≠ [] || rule.mccExclude ≠ [] || rule.exceptMerchantSlugs ≠ [] ||
    rule.exceptPlatformSlugs ≠ [] || (rule.role = some .exclusion && rule.maxTxn.isSome) ||
    rule.blockInr.isSome || 2 ≤ rule.minEngineVersion || rule.maxEngineVersion.isSome

end RewardRule

/-- `CapRule`. -/
structure CapRule where
  id : JsString
  rewardRuleId : Option JsString := none
  categoryId : Option JsString := none
  capValue : ℤ
  measure : CapMeasure
  postCapUnit : Option RewardUnit := none
  postCapRate : Option ℚ := none
  capKind : Option CapKind := none
  capAmount : Option ℚ := none
  scope : CapScope := .targets
  targets : List JsString := []
  parentCapId : Option JsString := none
  postCapBehavior : Option PostCap := none
  deriving DecidableEq

/-- What the engine reads of a `CardProduct`. -/
structure CardProduct where
  pointValueInr : ℚ := 0
  rewardRules : List RewardRule := []
  capRules : List CapRule := []
  baseRewardUnit : Option RewardUnit := none
  baseRewardRate : Option ℚ := none
  excludedCategoryIds : List JsString := []
  accrualRounding : Option Rounding := none
  cashbackRounding : Option CashbackRounding := none
  /-- The caps and the rules that the parser dropped, and why. -/
  skippedCaps : List (JsString × JsString) := []
  skippedRules : List (JsString × JsString) := []
  skippedExclusionRule : Bool := false
  wireV2Shaped : Bool := false

namespace CardProduct

variable (card : CardProduct)

/-- `isV2Shaped`. -/
def isV2Shaped : Bool :=
  card.wireV2Shaped || card.accrualRounding.isSome || card.cashbackRounding.isSome ||
    card.rewardRules.any RewardRule.marksV2 || card.capRules.any (·.capKind.isSome)

/-- `excludesCategory(categoryId)`. -/
def excludesCategory (categoryId : Option JsString) : Bool :=
  categoryId.any (· ∈ card.excludedCategoryIds)

end CardProduct

/-- What the engine reads of a `RecommendationContext`. -/
structure RecommendationContext where
  amount : ℤ
  categoryId : Option JsString := none
  mcc : Option JsString := none
  vpa : Option JsString := none
  rail : Rail := .unknown
  merchantName : Option JsString := none
  now : Option ℤ := none
  platform : Option JsString := none
  merchantSlug : Option JsString := none

/-! ### Accrual -/

/-- `_accrue(unit, rate, spendPaise, rounding, cashbackRounding, blockInr)`. The fraction of the rate is in
lowest terms: a quotient does not depend on its terms. -/
def accrue (unit : RewardUnit) (rate : ℚ) (spendPaise : ℤ) (rounding : Rounding)
    (cashbackRounding : CashbackRounding) (blockInr : Option ℤ) : ℚ :=
  if spendPaise ≤ 0 ∨ rate ≤ 0 then 0
  else
    match unit with
    | .cashbackPercent | .discountPercent => cashbackOn cashbackRounding spendPaise rate.num rate.den
    | .flatPoints => rate
    | unit =>
      let block : ℚ := ((blockInr.filter (0 < ·)).map (fun block : ℤ => (block : ℚ))).getD (unit.block.getD 1)
      let blockPaise := round (block * 100)
      match rounding with
      | .floor => (spendPaise / blockPaise : ℤ) * rate
      | .round => divHalfUp spendPaise blockPaise * rate
      | .none => spendPaise * rate / blockPaise
      | .pointsFloor => (spendPaise * rate.num / (blockPaise * rate.den) : ℤ)
      | .pointsHalfUp => divHalfUp (spendPaise * rate.num) (blockPaise * rate.den)

/-- `_round2(x)`. -/
def round2 (x : ℚ) : ℚ := if x < 0 then -CardRewards.round2 (-x) else CardRewards.round2 x

/-- `_Modes`. -/
structure Modes where
  pointValue : ℚ
  rounding : Rounding
  cashbackRounding : CashbackRounding
  baseUnit : Option RewardUnit
  baseRate : Option ℚ
  amountPaise : ℤ

/-- `_Modes(card, amount)`. -/
def modesOf (card : CardProduct) (amount : ℤ) : Modes where
  pointValue := card.pointValueInr
  rounding := card.accrualRounding.getD .floor
  cashbackRounding := card.cashbackRounding.getD .paise
  baseUnit := card.baseRewardUnit
  baseRate := card.baseRewardRate
  amountPaise := amount

namespace Modes

variable (modes : Modes)

/-- The base unit and the base rate, if the card has both. -/
def base : Option (RewardUnit × ℚ) := modes.baseUnit.bind fun unit => modes.baseRate.map (unit, ·)

/-- `baseCurrency`. -/
def baseCurrency : Option Currency := modes.base.map fun base => base.1.currency

def accrue (unit : RewardUnit) (rate : ℚ) (paise : ℤ) (blockInr : Option ℤ := none) : ℚ :=
  Dart.accrue unit rate paise modes.rounding modes.cashbackRounding blockInr

/-- `baseAccrual(paise)`. -/
def baseAccrual (paise : ℤ) : ℚ := modes.base.elim 0 fun base => modes.accrue base.1 base.2 paise

/-- `inRupees(unit, accrual)`. -/
def inRupees (unit : RewardUnit) (accrual : ℚ) : ℚ :=
  if unit.currency = .points then accrual * modes.pointValue else accrual

/-- `eligibleFor(rule)`. -/
def eligibleFor (rule : Option RewardRule) : ℤ :=
  match rule.bind RewardRule.maxTxn with
  | some maxTxn => if modes.amountPaise ≤ maxTxn then modes.amountPaise else max 0 maxTxn
  | none => modes.amountPaise

/-- `preCapValuePaise(rule)`. -/
def preCapValuePaise (rule : RewardRule) : ℤ :=
  let eligible := modes.eligibleFor (some rule)
  let own := modes.accrue rule.unit rule.rate eligible rule.blockInr
  let above := modes.amountPaise - eligible
  let value := modes.inRupees rule.unit own +
    if 0 < above then modes.base.elim 0 fun base => modes.inRupees base.1 (modes.baseAccrual above) else 0
  round (round2 value * 100)

end Modes

/-! ### Whether a rule applies -/

/-- `_cleanMcc(mcc)`. -/
def cleanMcc (mcc : Option JsString) : Option JsString := (mcc.map trim).filter (· ≠ [])

section Applies

variable (host : Host) (rule : RewardRule) (context : RecommendationContext) (lineage : List JsString)

/-- Step 1: the effective dates. -/
def RewardRule.inForce : Bool :=
  context.now.all fun now =>
    rule.effectiveFrom.all (· ≤ now) && rule.effectiveTo.all fun day => now < host.nextDay (host.startOfDay day)

/-- Steps 3 and 4: the category. -/
def RewardRule.takesCategory : Bool :=
  (rule.categoryId = none || rule.categoryId = context.categoryId) &&
    context.categoryId.all (· ∉ rule.excludedCategoryIds)

/-- Step 5: the merchant. -/
def RewardRule.takesMerchant : Bool :=
  if rule.merchantSlugs ≠ [] then rule.merchantSlugs.any (· ∈ lineage)
  else
    (rule.merchantPattern.filter fun pattern => trim pattern ≠ []).all fun pattern =>
      context.merchantName.any fun merchant =>
        host.normalizeMerchant pattern <:+: host.normalizeMerchant merchant

/-- Step 6, and the exceptions: the platform. -/
def RewardRule.takesPlatform : Bool :=
  (rule.platformSlugs = [] || context.platform.any (· ∈ rule.platformSlugs)) &&
    !rule.exceptMerchantSlugs.any (· ∈ lineage) && context.platform.all (· ∉ rule.exceptPlatformSlugs)

/-- Steps 7 and 8: the merchant category code. -/
def RewardRule.takesMcc : Bool :=
  (rule.mccInclude = [] ||
      match cleanMcc context.mcc with
      | some mcc => rule.mccInclude.any fun m => trim m = mcc
      | none => rule.categoryId.isSome) &&
    (cleanMcc context.mcc).all fun mcc => !rule.mccExclude.any fun m => trim m = mcc

/-- Step 9: the rail. -/
def RewardRule.takesRail : Bool :=
  rule.rail = none || (context.rail ≠ .unknown && rule.rail = some context.rail)

/-- Step 10: the amount. -/
def RewardRule.takesAmount : Bool :=
  rule.minTxn.all (· ≤ context.amount) &&
    (rule.effectiveRole ≠ .exclusion || rule.maxTxn.all (context.amount < ·))

/-- `rewardRuleAppliesV2(rule, context, merchantLineage)`. -/
def rewardRuleAppliesV2 : Bool :=
  !rule.isV1Only && rule.inForce host context && rule.effectiveRole ≠ .info && rule.takesCategory context &&
    rule.takesMerchant host context lineage && rule.takesPlatform context lineage && rule.takesMcc context &&
    rule.takesRail context && rule.takesAmount context

end Applies

/-! ### Which rule is chosen -/

/-- `_Selection`. -/
structure Selection where
  excluded : Bool
  exclusionRule : Option RewardRule := none
  rule : Option RewardRule := none
  deriving DecidableEq

/-- What `byPriority` compares, smallest first: the priority, the value in paise, the id. -/
def rank (modes : Modes) (rule : RewardRule) : ℤ ×ₗ ℤᵒᵈ ×ₗ JsString :=
  toLex (rule.priority, toLex (.toDual (modes.preCapValuePaise rule), rule.id))

/-- The rules by priority. -/
def byPriority (modes : Modes) (rules : List RewardRule) : List RewardRule :=
  rules.insertionSort fun a b => rank modes a ≤ rank modes b

/-- `_selectRule(modes, card, context, lineage)`. -/
def selectRule (host : Host) (modes : Modes) (card : CardProduct) (context : RecommendationContext)
    (lineage : List JsString) : Selection :=
  let applicable := card.rewardRules.filter fun rule => rewardRuleAppliesV2 host rule context lineage
  let exclusions := applicable.filter fun rule => rule.effectiveRole = .exclusion
  match (byPriority modes exclusions).head? with
  | some rule => { excluded := true, exclusionRule := some rule }
  | none =>
    if card.excludesCategory context.categoryId then { excluded := true }
    else
      let earning := applicable.filter fun rule => rule.effectiveRole = .base || rule.effectiveRole = .earn
      { excluded := false, rule := (byPriority modes earning).head? }

end PandaPay.CardRewards.Dart
