import PandaPay.CardRewards.Dart.UnknownCaps
import PandaPay.Library.Grouping
import PandaPay.Library.Sorting

/-!
# Recommendations

`RecommendationEngine` of `engine.dart`: what a spend is worth on each card, and the cards by that. Cards of the
first version are valued by the first rule that applies, by its priority, and else by their base rate. Cards of the
second version are valued by `computeRewardV2`. The lines for the reader and the itemised arithmetic are left out.

## Main definitions

* `RankedCard`, `RankedSnapshot`, `SpendContext`: what the engine reads
* `Runtime`: the texts that tell equal rules apart, and the sort by priority
* `RecommendationEngine.evaluate`: the recommendation of a card
* `RecommendationEngine.rank`: the recommendations, the best first
-/

namespace PandaPay.CardRewards.Dart

/-! ### The catalogue -/

/-- `ForexRule`. -/
structure ForexRule where
  markupPercent : ℚ
  gstOnMarkup : Bool := true

/-- `effectiveMarkupFraction()`. -/
def ForexRule.effectiveMarkupFraction (rule : ForexRule) : ℚ :=
  if rule.gstOnMarkup then rule.markupPercent / 100 * (1 + 18 / 100) else rule.markupPercent / 100

/-- What the engine reads of a `FuelSurchargeRule`. -/
structure FuelSurchargeRule where
  waiverPercent : ℚ
  minTxn : Option ℤ := none
  maxTxn : Option ℤ := none

/-- What the engine reads of a `MilestoneRule`. -/
structure MilestoneRule where
  id : JsString
  thresholdSpend : ℤ
  rewardValue : ℤ
  windowDays : Option ℤ := none

/-- What the ranking reads of a `CardProduct`. -/
structure RankedCard extends CardProduct where
  id : JsString
  isUpiLinkable : Bool := false
  milestoneRules : List MilestoneRule := []
  forexRule : Option ForexRule := none
  fuelRule : Option FuelSurchargeRule := none

/-- `CardSnapshot`. -/
structure RankedSnapshot where
  product : RankedCard
  capRemaining : JsString → Option ℤ := fun _ => none
  milestoneProgress : JsString → Option ℤ := fun _ => none
  forcedOverrideCardId : Option JsString := none
  capConsumed : JsString → Option ℚ := fun _ => none
  unknownCapIds : List JsString := []

/-- What the engine of the second version reads of it. -/
def RankedSnapshot.native (snapshot : RankedSnapshot) : CardSnapshot where
  product := snapshot.product.toCardProduct
  capRemaining := snapshot.capRemaining
  capConsumed := snapshot.capConsumed
  unknownCapIds := snapshot.unknownCapIds

/-- `snapshot.forcedOverrideCardId == card.id`. -/
def RankedSnapshot.isForced (snapshot : RankedSnapshot) : Bool :=
  snapshot.forcedOverrideCardId = some snapshot.product.id

/-- `RecommendationContext`. -/
structure SpendContext extends RecommendationContext where
  categorySlug : Option JsString := none
  isP2P : Bool := false
  travelMode : Bool := false

/-- `isFuel`. -/
def SpendContext.isFuel (context : SpendContext) : Bool :=
  context.categorySlug = some (js "fuel") || context.categoryId = some (js "fuel") ||
    context.mcc = some (js "5541") || context.mcc = some (js "5542")

/-- `RecommendationEngine`. -/
structure RecommendationEngine where
  milestoneMaterialFraction : ℚ := 1 / 2
  merchantDirectory : Option MerchantDirectory := none

/-- What the engine rests on: rules with one identity key count once, and the sort of rules by their priority leaves
those of one priority in an order of its own. -/
structure Runtime where
  host : Host
  rewardRuleIdentityKey : RewardRule → JsString
  capRuleIdentityKey : CapRule → JsString
  milestoneRuleIdentityKey : MilestoneRule → JsString
  prioritySort : Sorting.{0} ℤ

/-! ### Amounts -/

/-- `x.round()`: halves are rounded away from zero. -/
def roundAway (x : ℚ) : ℤ := if x < 0 then -round (-x) else round x

/-- `money * factor`. -/
def times (paise : ℤ) (factor : ℚ) : ℤ := roundAway (paise * factor)

/-- `Money.fromRupees(rupees)`. -/
def fromRupees (rupees : ℚ) : ℤ := roundAway (rupees * 100)

/-- `baseRatePerRupee`. -/
def CardProduct.baseRatePerRupee (card : CardProduct) : ℚ :=
  match card.baseRewardUnit, card.baseRewardRate with
  | some unit, some rate => ratePerRupee unit rate card.pointValueInr none
  | _, _ => 0

/-! ### Which rule applies -/

section Applies

variable (host : Host) (rule : RewardRule) (context : RecommendationContext)

/-- The merchant, by the pattern alone. -/
def RewardRule.takesPattern : Bool :=
  (rule.merchantPattern.filter fun pattern => trim pattern ≠ []).all fun pattern =>
    context.merchantName.any fun merchant => host.normalizeMerchant pattern <:+: host.normalizeMerchant merchant

/-- The rail. One that was not captured fits. -/
def RewardRule.allowsRail : Bool := rule.rail = none || context.rail = .unknown || rule.rail = some context.rail

/-- `ruleApplies(rule, context)`. -/
def ruleApplies : Bool :=
  rule.takesCategory context && rule.takesPattern host context && rule.allowsRail context &&
    rule.minTxn.all (· ≤ context.amount) && rule.inForce host context

end Applies

/-- `fuelRuleApplies(rule, amount)`. -/
def fuelRuleApplies (rule : FuelSurchargeRule) (amount : ℤ) : Bool :=
  rule.minTxn.all (· < amount) && rule.maxTxn.all (amount ≤ ·)

/-- The rules of a card that apply, by priority. -/
def matchingRules (rt : Runtime) (card : CardProduct) (context : RecommendationContext) : List RewardRule :=
  if card.excludesCategory context.categoryId then []
  else rt.prioritySort.sort RewardRule.priority
    ((firstBy rt.rewardRuleIdentityKey card.rewardRules).filter fun rule => ruleApplies rt.host rule context)

/-- The cap of a rule, or of the category of the spend. -/
def capRuleOf (rt : Runtime) (card : CardProduct) (rule : RewardRule) (context : RecommendationContext) :
    Option CapRule :=
  (firstBy rt.capRuleIdentityKey card.capRules).find? fun cap =>
    cap.rewardRuleId = some rule.id || (cap.categoryId.isSome && cap.categoryId = context.categoryId)

/-! ### The value of a spend -/

section Value

variable (engine : RecommendationEngine) (rt : Runtime) (context : SpendContext) (snapshot : RankedSnapshot)

/-- `Recommendation.confidence`. -/
inductive Confidence where
  | estimated
  | confirmed
  deriving DecidableEq

/-- `Recommendation`. -/
structure Recommendation where
  card : RankedCard
  expectedValue : ℤ
  confidence : Confidence := .estimated
  exclusionReason : Option JsString := none
  isOverride : Bool := false
  effectiveRatePerRupee : Option ℚ := none
  reward : Option RewardEvaluation := none

/-- `isExcluded`. -/
def Recommendation.isExcluded (r : Recommendation) : Bool := r.exclusionReason.isSome

/-- A card that is not recommended. -/
def excludedBy (card : RankedCard) (reason : JsString) : Recommendation where
  card := card
  expectedValue := 0
  exclusionReason := some reason

/-- The surcharge on the fuel is waived. -/
def fuelApplies : Bool := context.isFuel && snapshot.product.fuelRule.any (fuelRuleApplies · context.amount)

/-- `waiverFraction`. -/
def waiverFraction : ℚ :=
  if fuelApplies context snapshot then (snapshot.product.fuelRule.map fun rule => rule.waiverPercent / 100).getD 0
  else 0

/-- `waiverValue`. -/
def waiverValue : ℤ := times context.amount (waiverFraction context snapshot)

/-- `forexCost`. -/
def forexCost : ℤ :=
  if context.travelMode then
    (snapshot.product.forexRule.map fun rule => times context.amount rule.effectiveMarkupFraction).getD 0
  else 0

/-- What a spend adds towards a milestone, where it covers enough of what is missing. -/
def bonusOf (milestone : MilestoneRule) : ℤ :=
  let remaining := milestone.thresholdSpend - (snapshot.milestoneProgress milestone.id).getD 0
  if milestone.windowDays.isSome ∨ remaining ≤ 0 then 0
  else if (context.amount / remaining : ℚ) < engine.milestoneMaterialFraction then 0
  else times milestone.rewardValue ((min context.amount remaining : ℤ) / milestone.thresholdSpend)

/-- `milestoneBonus`. -/
def milestoneBonus : ℤ :=
  ((firstBy rt.milestoneRuleIdentityKey snapshot.product.milestoneRules).map
    (bonusOf engine context snapshot)).sum

/-- A value less the forex markup, with the waiver and the bonus. -/
def adjusted (value : ℤ) : ℤ :=
  value - forexCost context snapshot + waiverValue context snapshot + milestoneBonus engine rt context snapshot

/-! ### Cards of the first version -/

/-- `resolvePostCapRate(capRule, rule, card)`. -/
def resolvePostCapRate (capRule : CapRule) (rule : RewardRule) (card : CardProduct) : ℚ :=
  match capRule.postCapRate with
  | none => card.baseRatePerRupee
  | some rate => ratePerRupee (capRule.postCapUnit.getD rule.unit) rate card.pointValueInr none

/-- What a spend earns under a cap, before and after it is reached. -/
def cappedValue (capRule : CapRule) (bonusEligible : ℤ) (baseRate postRate : ℚ) : ℤ :=
  let remaining := (snapshot.capRemaining capRule.id).getD capRule.capValue
  match capRule.measure with
  | .spendAmount =>
    if bonusEligible ≤ remaining then times bonusEligible baseRate
    else if remaining ≤ 0 then times bonusEligible postRate
    else times remaining baseRate + times (bonusEligible - remaining) postRate
  | .rewardValue =>
    if remaining ≤ 0 then times bonusEligible postRate
    else if baseRate ≤ 0 then times bonusEligible baseRate
    else
      let preCapSpend := fromRupees (remaining / 100 / baseRate)
      if bonusEligible ≤ preCapSpend then times bonusEligible baseRate
      else remaining + times (bonusEligible - preCapSpend) postRate
  | .txnCount => if (1 : ℚ) ≤ remaining / 100 then times bonusEligible baseRate else times bonusEligible postRate

/-- The part of a spend that a rule takes. -/
def bonusEligibleOf (rule : RewardRule) (amount : ℤ) : ℤ :=
  match rule.maxTxn with
  | some maxTxn => if maxTxn < amount then maxTxn else amount
  | none => amount

/-- What a spend earns under a rule. -/
def ruleValue (rule : RewardRule) : ℤ :=
  let card := snapshot.product
  let baseRate := ratePerRupee rule.unit rule.rate card.pointValueInr none
  let bonusEligible := bonusEligibleOf rule context.amount
  let value :=
    match capRuleOf rt card.toCardProduct rule context.toRecommendationContext with
    | some capRule =>
      cappedValue snapshot capRule bonusEligible baseRate (resolvePostCapRate capRule rule card.toCardProduct)
    | none => times bonusEligible baseRate
  value + times (context.amount - bonusEligible) card.baseRatePerRupee

/-- A card without a rule that applies: the base rate. -/
def evaluateBase : Recommendation :=
  let card := snapshot.product
  let isCategoryExcluded := card.excludesCategory context.categoryId
  let rate := if isCategoryExcluded then 0 else card.baseRatePerRupee
  if fuelApplies context snapshot then
    { card := card
      expectedValue := times context.amount rate + waiverValue context snapshot
      effectiveRatePerRupee := some (if 0 < rate then rate else waiverFraction context snapshot) }
  else if rate ≤ 0 then
    excludedBy card (if isCategoryExcluded then js "This card doesn't earn rewards on this kind of spend."
      else js "No applicable reward rule.")
  else
    { card := card
      expectedValue := times context.amount rate
      effectiveRatePerRupee := some rate }

/-- A card with a rule. -/
def evaluateRule (rule : RewardRule) : Recommendation :=
  let card := snapshot.product
  let baseRate := ratePerRupee rule.unit rule.rate card.pointValueInr none
  { card := card
    expectedValue := adjusted engine rt context snapshot (ruleValue rt context snapshot rule)
    isOverride := snapshot.isForced
    effectiveRatePerRupee :=
      if 0 < baseRate then some baseRate
      else if fuelApplies context snapshot then some (waiverFraction context snapshot)
      else none }

/-- A card of the first version. -/
def evaluateV1 : Recommendation :=
  let card := snapshot.product
  if card.excludesCategory context.categoryId && (!context.isFuel || card.fuelRule.isNone) then
    excludedBy card (js "This card doesn't earn rewards on this kind of spend.")
  else
    match (matchingRules rt card.toCardProduct context.toRecommendationContext).head? with
    | none => evaluateBase context snapshot
    | some rule => evaluateRule engine rt context snapshot rule

/-! ### Cards of the second version -/

/-- `earnsNothing`. -/
def RewardEvaluation.earnsNothing (reward : RewardEvaluation) : Bool :=
  reward.excluded || (reward.rule.isNone && reward.ratePerRupee ≤ 0) || reward.currency.isNone

/-- `_evaluateV2(context, snapshot)`. -/
def evaluateV2 : Recommendation :=
  let card := snapshot.product
  let reward :=
    rewardWithUnknownCaps rt.host snapshot.native context.toRecommendationContext engine.merchantDirectory
  if reward.earnsNothing then
    if fuelApplies context snapshot then
      { card := card
        expectedValue := waiverValue context snapshot
        isOverride := snapshot.isForced
        effectiveRatePerRupee := some (waiverFraction context snapshot)
        reward := some reward }
    else
      { card := card
        expectedValue := 0
        exclusionReason := some (
          if reward.excluded then
            (reward.rule.bind RewardRule.note).getD (js "This card doesn't earn rewards on this kind of spend.")
          else js "No applicable reward rule.")
        isOverride := snapshot.isForced
        reward := some reward }
  else
    { card := card
      expectedValue := adjusted engine rt context snapshot (fromRupees reward.valueInr)
      isOverride := snapshot.isForced
      effectiveRatePerRupee :=
        if 0 < reward.ratePerRupee then some reward.ratePerRupee
        else if fuelApplies context snapshot then some (waiverFraction context snapshot)
        else none
      reward := some reward }

/-! ### Ranking -/

/-- `_evaluate(context, snapshot)`. -/
def RecommendationEngine.evaluate : Recommendation :=
  let card := snapshot.product
  if context.rail = .upiQr && !card.isUpiLinkable then
    excludedBy card (js "Not usable via UPI — swipe this instead.")
  else if context.isP2P then excludedBy card (js "Credit cards can't be used for personal transfers.")
  else if card.isV2Shaped then evaluateV2 engine rt context snapshot
  else evaluateV1 engine rt context snapshot

/-- What the comparator of `rank` goes by: overrides first, excluded cards last and among themselves in any order,
then the value, the confidence and the id. -/
abbrev RankKey := Bool ×ₗ Bool ×ₗ ℤᵒᵈ ×ₗ Bool ×ₗ JsString

/-- The key of a recommendation, the smallest first. -/
def Recommendation.rankKey (r : Recommendation) : RankKey :=
  toLex (!r.isOverride, toLex (r.isExcluded,
    if r.isExcluded then toLex (OrderDual.toDual 0, toLex (false, []))
    else toLex (OrderDual.toDual r.expectedValue, toLex (decide (r.confidence = .estimated), r.card.id))))

/-- The recommendations of snapshots, each with its snapshot, the best first. -/
def RecommendationEngine.ranked (sorting : Sorting.{0} RankKey) (snapshots : List RankedSnapshot) :
    List (RankedSnapshot × Recommendation) :=
  sorting.sort (fun entry => entry.2.rankKey) (snapshots.map fun s => (s, engine.evaluate rt context s))

/-- `rank(context, cards)`. -/
def RecommendationEngine.rank (sorting : Sorting.{0} RankKey) (snapshots : List RankedSnapshot) : List Recommendation :=
  (engine.ranked rt context sorting snapshots).map Prod.snd

end Value

end PandaPay.CardRewards.Dart
