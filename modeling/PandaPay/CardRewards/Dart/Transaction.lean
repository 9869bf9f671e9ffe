import PandaPay.CardRewards.Dart.Rules

/-!
# The reward of a transaction, on the phone

`computeRewardV2` of `reward_engine_v2.dart`: the spend is split by the caps on it, what each part earns is
accrued and rounded on its own, and the caps on rewards cut it. The lines for the reader are left out.

## Main definitions

* `applicableCaps`, `resolveCaps`: the caps of a transaction, in native units
* `Pricing`: the rule and the caps of a transaction, and what they make of it step by step
* `computeRewardV2`: the result
-/

namespace PandaPay.CardRewards.Dart

/-! ### Caps -/

/-- `_AppliedCap`, before the transaction moves it. -/
structure AppliedCap where
  cap : CapRule
  kind : CapKind
  legacy : Bool
  amount : ℚ
  consumed : ℚ
  behavior : PostCap

/-- `remaining`. -/
def AppliedCap.remaining (c : AppliedCap) : ℚ := if 0 < c.amount - c.consumed then c.amount - c.consumed else 0

/-- `_behaviorOf(cap)`. -/
def behaviorOf (cap : CapRule) : PostCap :=
  match cap.postCapBehavior, cap.postCapRate with
  | some behavior, _ => behavior
  | none, none => .baseRate
  | none, some rate => if rate = 0 then .zero else .customRate

/-- The caps by id, the first of each. -/
def capsById (caps : List CapRule) : InsertionMap JsString CapRule :=
  caps.foldl (fun byId cap => if (byId.get? cap.id).isSome then byId else byId.set cap.id cap) .empty

/-- A cap counts a transaction for itself, and not for a cap below it. -/
def CapRule.counts (cap : CapRule) (ruleId categoryId : Option JsString) : Bool :=
  match cap.scope with
  | .card => true
  | .targets =>
    if cap.targets ≠ [] then ruleId.any (· ∈ cap.targets)
    else
      match cap.rewardRuleId with
      | some id => ruleId = some id
      | none => cap.categoryId.isSome && cap.categoryId = categoryId

/-- The walk over the parents of a cap. Each of its steps sees one more of the caps. -/
def parentsOf (byId : InsertionMap JsString CapRule) : ℕ → List JsString → Option JsString → List JsString
  | steps + 1, seen, some parent =>
    if parent ∈ seen then []
    else
      match byId.get? parent with
      | none => []
      | some cap => parent :: parentsOf byId steps (parent :: seen) cap.parentCapId
  | _, _, _ => []

/-- `_applicableCaps(card, rule, context)`. -/
def applicableCaps (card : CardProduct) (ruleId categoryId : Option JsString) : List CapRule :=
  let byId := capsById card.capRules
  let direct := byId.values.filter fun cap => cap.counts ruleId categoryId
  let selected := direct.flatMap fun cap => cap.id :: parentsOf byId byId.size [cap.id] cap.parentCapId
  byId.values.filter fun cap => cap.id ∈ selected

/-- The kind and the amount of a cap, if it can be enforced. -/
def nativeCap (modes : Modes) (ruleCurrency : Currency) (cap : CapRule) : Option (CapKind × ℚ) :=
  let rupees : ℚ := cap.capValue / 100
  match cap.capKind with
  | some kind => cap.capAmount.map (kind, ·)
  | none =>
    match cap.measure with
    | .spendAmount => some (.eligibleSpend, rupees)
    | .txnCount => some (.txnCount, rupees)
    | .rewardValue =>
      if ruleCurrency = .cashback then some (.totalCashback, rupees)
      else if 0 < modes.pointValue then some (.totalPoints, rupees / modes.pointValue)
      else none

/-- A cap of a transaction, if it can be enforced. -/
def applyCap (modes : Modes) (ruleCurrency : Currency) (consumed : JsString → ℚ) (cap : CapRule) :
    Option AppliedCap :=
  (nativeCap modes ruleCurrency cap).map fun native =>
    ⟨cap, native.1, cap.capKind.isNone, native.2, consumed cap.id, behaviorOf cap⟩

/-- `cap_skipped:<id>:<reason>`, where a cap cannot be enforced. -/
def skipOf (modes : Modes) (ruleCurrency : Currency) (cap : CapRule) : Option JsString :=
  if (nativeCap modes ruleCurrency cap).isSome then none
  else some (skipEntry cap.id (if cap.capKind.isNone then js "point_value_zero" else js "cap_amount_null"))

/-! ### Steps -/

/-- What a transaction that earns is priced with. -/
structure Pricing where
  modes : Modes
  /-- The rule; none for the implicit base rule. -/
  rule : Option RewardRule
  ruleUnit : RewardUnit
  ruleRate : ℚ
  caps : List AppliedCap

/-- The caps on the bonus, and on all that is earned, in a currency. -/
def bonusKind : Currency → CapKind
  | .points => .bonusPoints
  | .cashback => .bonusCashback

def totalKind : Currency → CapKind
  | .points => .totalPoints
  | .cashback => .totalCashback

namespace Pricing

variable (p : Pricing)

def ruleCurrency : Currency := p.ruleUnit.currency

/-- `isBaseRole`. -/
def isBaseRole : Bool := p.rule.all fun rule => rule.effectiveRole = .base

def capsOf (kind : CapKind) : List AppliedCap := p.caps.filter (·.kind = kind)

def eligiblePaise : ℤ := p.modes.eligibleFor p.rule

def overMaxPaise : ℤ := p.modes.amountPaise - p.eligiblePaise

/-- Step 1: the spend below the eligible-spend caps, and the tightest of these, the first of them. -/
def tightest : ℤ × Option AppliedCap :=
  (p.capsOf .eligibleSpend).foldl (fun best cap =>
    let remainingPaise := round (cap.remaining * 100)
    if remainingPaise < best.1 then (remainingPaise, some cap) else best) (p.eligiblePaise, none)

/-- Step 2: an exhausted transaction-count cap. -/
def forcing : Option AppliedCap := (p.capsOf .txnCount).find? fun cap => cap.remaining < 1

def rulePaise : ℤ := if p.forcing.isSome then 0 else p.tightest.1

def overflowPaise : ℤ := p.eligiblePaise - p.rulePaise

/-- The cap that decides what the overflow earns. -/
def overflowCap : Option AppliedCap := p.forcing.or p.tightest.2

/-- Step 3: what the rule earns on its spend. -/
def ruleAccrual : ℚ := p.modes.accrue p.ruleUnit p.ruleRate p.rulePaise (p.rule.bind RewardRule.blockInr)

/-- The part of it that the base rate would pay. -/
def basePart : ℚ :=
  if p.isBaseRole then p.ruleAccrual
  else if p.modes.baseCurrency = some p.ruleCurrency then
    if p.modes.baseAccrual p.rulePaise < p.ruleAccrual then p.modes.baseAccrual p.rulePaise else p.ruleAccrual
  else 0

def bonus : ℚ := p.ruleAccrual - p.basePart

/-- What some spend earns at the base rate, if the card has one. -/
def basePieces (paise : ℤ) : List (Currency × ℚ) :=
  p.modes.baseCurrency.toList.map fun currency => (currency, p.modes.baseAccrual paise)

/-- What the spend above the caps earns. -/
def overflowPieces : List (Currency × ℚ) :=
  match p.overflowCap with
  | none => []
  | some c =>
    if p.overflowPaise ≤ 0 then []
    else
      match c.behavior with
      | .baseRate => p.basePieces p.overflowPaise
      | .zero => []
      | .customRate =>
        let unit := c.cap.postCapUnit.getD p.ruleUnit
        [(unit.currency, p.modes.accrue unit (c.cap.postCapRate.getD 0) p.overflowPaise
          (if c.cap.postCapUnit.isNone then p.rule.bind RewardRule.blockInr else none))]

/-- What the spend above the maximum of the rule earns. -/
def overMaxPieces : List (Currency × ℚ) := if 0 < p.overMaxPaise then p.basePieces p.overMaxPaise else []

def pieces : List (Currency × ℚ) := p.overflowPieces ++ p.overMaxPieces

/-- `accrued`. -/
def accrued (currency : Currency) : Bool :=
  (0 < p.rulePaise && p.ruleCurrency = currency) || p.pieces.any (·.1 = currency)

/-- What of the spend of the rule is paid in a currency, as base part and as bonus. -/
def baseIn (currency : Currency) : ℚ := if p.ruleCurrency = currency then p.basePart else 0

def bonusIn (currency : Currency) : ℚ := if p.ruleCurrency = currency then p.bonus else 0

def piecesIn (currency : Currency) : ℚ := ((p.pieces.filter (·.1 = currency)).map Prod.snd).sum

def bonusCaps (currency : Currency) : List AppliedCap := p.capsOf (bonusKind currency)

def totalCaps (currency : Currency) : List AppliedCap := p.capsOf (totalKind currency)

/-- The least of a value and of what is left of some caps. -/
def leastOf (value : ℚ) (caps : List AppliedCap) : ℚ :=
  caps.foldl (fun least cap => if cap.remaining < least then cap.remaining else least) value

/-- Step 4: the bonus that its caps allow. -/
def allowedBonus (currency : Currency) : ℚ := leastOf (p.bonusIn currency) (p.bonusCaps currency)

/-- Step 5: what is earned in a currency, before the caps on its total. -/
def beforeTotal (currency : Currency) : ℚ :=
  p.baseIn currency + p.allowedBonus currency + p.piecesIn currency

/-- Step 6: what is earned in a currency. -/
def allowedTotal (currency : Currency) : ℚ := leastOf (p.beforeTotal currency) (p.totalCaps currency)

/-- `cut`. -/
def cut (currency : Currency) : ℚ := p.beforeTotal currency - p.allowedTotal currency

/-- Step 7: what a cap is consumed by. -/
def deltaOf (c : AppliedCap) : ℚ :=
  match c.kind with
  | .bonusPoints => max 0 (p.allowedBonus .points - p.cut .points)
  | .bonusCashback => max 0 (p.allowedBonus .cashback - p.cut .cashback)
  | .totalPoints => p.allowedTotal .points
  | .totalCashback => p.allowedTotal .cashback
  | .eligibleSpend => p.rulePaise / 100
  | .txnCount => if p.forcing.isSome then 0 else 1

/-- `capDeltas`. -/
def capDeltas : InsertionMap JsString ℚ :=
  p.caps.foldl (fun deltas c =>
    if round2 (p.deltaOf c) ≠ 0 then deltas.set c.cap.id (round2 (p.deltaOf c)) else deltas) .empty

/-- A cap on the bonus or on the total of a currency cuts it. -/
def cutsIn (currency : Currency) (c : AppliedCap) : Bool :=
  (c.kind = bonusKind currency && p.allowedBonus currency < p.bonusIn currency &&
      c.remaining ≤ p.allowedBonus currency) ||
    (c.kind = totalKind currency && 0 < p.cut currency && c.remaining ≤ p.allowedTotal currency)

/-- `limiting`. -/
def limiting (c : AppliedCap) : Bool :=
  p.tightest.2.any (·.cap.id = c.cap.id) || p.forcing.any (·.cap.id = c.cap.id) ||
    p.cutsIn .points c || p.cutsIn .cashback c

/-- `shows(c)`. -/
def shows (currency : Currency) : Bool := p.modes.baseCurrency = some currency || p.accrued currency

end Pricing

/-! ### Results -/

/-- How the merchant was identified. -/
inductive MerchantMatchSource where
  | context
  | vpa
  | alias
  deriving DecidableEq

/-- `MerchantMatch`. -/
structure MerchantMatch where
  slug : JsString
  source : MerchantMatchSource
  lineage : List JsString
  deriving DecidableEq

/-- `MerchantDirectory`. -/
structure MerchantDirectory where
  lineage : JsString → List JsString
  /-- `resolve(merchantName, vpa)`. -/
  resolve : Option JsString → Option JsString → Option MerchantMatch

/-- `RewardCapUsage`. -/
structure RewardCapUsage where
  cap : CapRule
  kind : CapKind
  legacy : Bool
  amount : ℚ
  consumedBefore : ℚ
  remainingBefore : ℚ
  delta : ℚ
  limiting : Bool

/-- `RewardEvaluation`, without the lines for the reader. -/
structure RewardEvaluation where
  excluded : Bool
  rule : Option RewardRule := none
  currency : Option Currency := none
  points : Option ℚ := none
  cashbackInr : Option ℚ := none
  valueInr : ℚ := 0
  capDeltas : InsertionMap JsString ℚ := .empty
  caps : List RewardCapUsage := []
  reasons : List JsString := []
  assumptions : List JsString := []
  merchant : Option MerchantMatch := none
  ratePerRupee : ℚ := 0
  ruleSpend : ℤ := 0
  overflowSpend : ℤ := 0
  overMaxSpend : ℤ := 0

/-- A result in which nothing is earned. -/
def nothingIn (currency : Option Currency) (excluded : Bool) : RewardEvaluation where
  excluded := excluded
  currency := currency
  points := if currency = some .points then some 0 else none
  cashbackInr := if currency = some .cashback then some 0 else none

/-- `_ratePerRupee(unit, rate, pointValueInr, blockInr)`. -/
def ratePerRupee (unit : RewardUnit) (rate pointValue : ℚ) (blockInr : Option ℤ) : ℚ :=
  match unit with
  | .cashbackPercent | .discountPercent => rate / 100
  | .flatPoints => 0
  | unit =>
    rate * pointValue /
      ((blockInr.filter (0 < ·)).map (fun block : ℤ => (block : ℚ))).getD (unit.block.getD 1)

/-- A text when a condition holds. -/
def noteIf (c : Bool) (text : String) : List JsString := if c then [js text] else []

/-- `displayNote`, unless it is blank. -/
def RewardRule.note (rule : RewardRule) : Option JsString := rule.displayNote.filter fun note => trim note ≠ []

/-- `_resolveMerchant(context, directory, assumptions)`, and what it assumes. -/
def resolveMerchant (context : RecommendationContext) (directory : Option MerchantDirectory) :
    Option MerchantMatch × List JsString :=
  match (context.merchantSlug.map trim).filter (· ≠ []) with
  | some slug => (some ⟨slug, .context, (directory.map (·.lineage slug)).getD [slug]⟩, [])
  | none =>
    match directory.bind fun dir => dir.resolve context.merchantName context.vpa with
    | none => (none, [])
    | some merchant => (some merchant,
        [if merchant.source = .vpa then js "merchant_resolved_by_vpa" else js "merchant_resolved_by_alias"])

/-- `_result(…)`: the result of a priced transaction. -/
def Pricing.result (p : Pricing) (skipReasons assumptions : List JsString)
    (merchant : Option MerchantMatch) : RewardEvaluation where
  excluded := false
  rule := p.rule
  currency := some p.ruleCurrency
  points := if p.shows .points then some (round2 (p.allowedTotal .points)) else none
  cashbackInr := if p.shows .cashback then some (round2 (p.allowedTotal .cashback)) else none
  valueInr := round2 (p.allowedTotal .points * p.modes.pointValue + p.allowedTotal .cashback)
  capDeltas := p.capDeltas
  caps := p.caps.map fun c =>
    ⟨c.cap, c.kind, c.legacy, c.amount, c.consumed, c.remaining, (p.capDeltas.get? c.cap.id).getD 0,
      p.limiting c⟩
  reasons := (p.rule.bind RewardRule.note).toList ++ skipReasons ++
    noteIf (0 < p.overMaxPaise) "above_max_txn" ++
    noteIf (p.forcing.isNone && p.rulePaise < p.eligiblePaise) "spend_cap_reached" ++
    noteIf p.forcing.isSome "txn_count_cap_reached" ++
    noteIf (p.allowedBonus .points < p.bonusIn .points || p.allowedBonus .cashback < p.bonusIn .cashback)
      "bonus_cap_reached" ++
    noteIf (0 < p.cut .points || 0 < p.cut .cashback) "total_cap_reached"
  assumptions := assumptions
  merchant := merchant
  ratePerRupee :=
    Dart.ratePerRupee p.ruleUnit p.ruleRate p.modes.pointValue (p.rule.bind RewardRule.blockInr)
  ruleSpend := p.rulePaise
  overflowSpend := p.overflowPaise
  overMaxSpend := p.overMaxPaise

section Compute

variable (host : Host) (card : CardProduct) (context : RecommendationContext) (consumed : JsString → ℚ)
  (directory : Option MerchantDirectory)

/-- What a transaction is priced with under a rule, if the rule or the card has a rate. -/
def pricingOf (rule : Option RewardRule) : Option Pricing :=
  let modes := modesOf card context.amount
  ((rule.map RewardRule.unit).or modes.baseUnit).bind fun ruleUnit =>
    ((rule.map RewardRule.rate).or modes.baseRate).map fun ruleRate =>
      { modes := modes
        rule := rule
        ruleUnit := ruleUnit
        ruleRate := ruleRate
        caps := (applicableCaps card (rule.map RewardRule.id) context.categoryId).filterMap
          (applyCap modes ruleUnit.currency consumed) }

/-- `computeRewardV2(card, context, capConsumedBefore, directory)`. `consumed` is what `capConsumedBefore`
has of each cap, or zero. -/
def computeRewardV2 : RewardEvaluation :=
  let modes := modesOf card context.amount
  let unparsed := noteIf card.skippedExclusionRule "exclusion_unparsed"
  let ruleSkips := card.skippedRules.map fun skipped => js "rule_skipped:" ++ skipped.1 ++ js ":" ++ skipped.2
  if context.amount ≤ 0 then
    { nothingIn modes.baseCurrency false with
      reasons := js "non_positive_amount" :: ruleSkips
      assumptions := unparsed }
  else
    let (merchant, resolved) := resolveMerchant context directory
    let selection := selectRule host modes card context ((merchant.map MerchantMatch.lineage).getD [])
    if selection.excluded then
      let exclusion := selection.exclusionRule
      { nothingIn (modes.baseCurrency.or (exclusion.map fun rule => rule.unit.currency)) true with
        rule := exclusion
        reasons := ((exclusion.bind RewardRule.note).getD
          (if exclusion.isSome then js "excluded_by_rule" else js "excluded_category")) :: ruleSkips
        assumptions := unparsed ++ resolved
        merchant := merchant }
    else
      match pricingOf card context consumed selection.rule with
      | none =>
        { excluded := false
          reasons := js "no_applicable_rule" :: ruleSkips
          assumptions := unparsed ++ resolved
          merchant := merchant }
      | some p =>
        let capSkips := card.skippedCaps.map fun skipped => skipEntry skipped.1 skipped.2
        let unenforced := (applicableCaps card (selection.rule.map RewardRule.id) context.categoryId).filterMap
          (skipOf modes p.ruleCurrency)
        p.result (ruleSkips ++ capSkips ++ unenforced)
          (unparsed ++ resolved ++ noteIf selection.rule.isNone "implicit_base_rule") merchant

end Compute

end PandaPay.CardRewards.Dart
