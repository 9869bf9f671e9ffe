import PandaPay.CardRewards.Engine.Caps

/-!
# The reward of a transaction

`computeTransactionRewardV2` of `reward_math_v2.js` for a card of the second version: the spend is split
by the caps on it, what each part earns is accrued and rounded on its own, and the caps on rewards cut it.

## Main definitions

* `Pricing`: the rule and the caps of a transaction, and what they make of it step by step
* `Reward`: what is returned
* `computeTransactionRewardV2`
-/

namespace PandaPay.CardRewards

/-! ### Steps -/

/-- What a transaction that is not excluded is priced with. -/
structure Pricing where
  modes : CardModes
  rule : RewardRule
  /-- The rule earns the base rate: it is a base rule, or none applied. -/
  isBase : Bool
  caps : List AppliedCap
  /-- What is consumed of each cap before the transaction. -/
  consumed : JsString → ℚ
  amount : ℚ

namespace Pricing

variable (p : Pricing)

/-- `cardCur`. -/
def cardCurrency : Option Currency := currencyOf p.modes.baseUnit

/-- `ruleCur`. -/
def ruleCurrency : Option Currency := currencyOf p.rule.unit

/-- `remaining(cap)`. -/
def remaining (cap : AppliedCap) : ℚ := max 0 (cap.amount - p.consumed cap.id)

def capsOf (kind : CapKind) : List AppliedCap := p.caps.filter (·.kind = kind)

/-- The eligible spend. -/
def eligible : ℚ := p.rule.eligible p.amount

def overMax : ℚ := p.amount - p.eligible

/-- Step 1: the eligible-spend cap with the least left, the first of them. -/
def tightest : Option AppliedCap :=
  (p.capsOf .eligibleSpend).foldl (fun binding cap =>
    match binding with
    | none => some cap
    | some best => if p.remaining cap < p.remaining best then some cap else some best) none

/-- The eligible spend below the eligible-spend caps. -/
def cappedSpend : ℚ :=
  match p.tightest with
  | some cap => min p.eligible (p.remaining cap)
  | none => p.eligible

/-- Step 2: an exhausted transaction-count cap. -/
def forcing : Option AppliedCap := (p.capsOf .txnCount).find? fun cap => p.remaining cap < 1

/-- The spend the rule pays for. -/
def ruleSpend : ℚ := if p.forcing.isSome then 0 else p.cappedSpend

def overflow : ℚ := p.eligible - p.ruleSpend

/-- The cap that decides what the overflow earns. -/
def binding : Option AppliedCap := p.forcing.or p.tightest

/-- Step 3: what the rule earns on its spend. -/
def ruleAccrual : ℚ := p.modes.accrueAt p.rule.unit p.rule.rate p.ruleSpend p.rule.blockInr.get

/-- The part of it that the base rate would pay. -/
def basePart : ℚ :=
  if p.isBase then p.ruleAccrual
  else if p.ruleCurrency.isSome ∧ p.ruleCurrency = p.cardCurrency then
    min p.ruleAccrual (p.modes.accrueBase p.ruleSpend)
  else 0

def bonus : ℚ := p.ruleAccrual - p.basePart

/-- What the spend above the caps earns, with its currency. -/
def overflowPieces : List (Option Currency × ℚ) :=
  if 0 < p.overflow then
    match p.binding with
    | none => [(p.cardCurrency, p.modes.accrueBase p.overflow)]
    | some cap =>
      match cap.behavior with
      | .baseRate => [(p.cardCurrency, p.modes.accrueBase p.overflow)]
      | .zero => []
      | .customRate =>
        match cap.postUnit with
        | none => [(p.ruleCurrency,
            p.modes.accrueAt p.rule.unit cap.postRate p.overflow p.rule.blockInr.get)]
        | some unit => [(currencyOf (some unit),
            p.modes.accrueAt (some unit) cap.postRate p.overflow none)]
  else []

/-- What the spend above the maximum of the rule earns. -/
def overMaxPieces : List (Option Currency × ℚ) :=
  if 0 < p.overMax then [(p.cardCurrency, p.modes.accrueBase p.overMax)] else []

def pieces : List (Option Currency × ℚ) := p.overflowPieces ++ p.overMaxPieces

/-- A currency is accrued in when some spend above zero is paid in it. -/
def accrued (currency : Currency) : Bool :=
  (0 < p.ruleSpend && p.ruleCurrency = some currency) || p.pieces.any (·.1 = some currency)

/-- Step 4: the caps on the bonus, in the currency of the rule. -/
def bonusCaps : List AppliedCap :=
  match p.ruleCurrency with
  | some .points => p.capsOf .bonusPoints
  | some .cashback => p.capsOf .bonusCashback
  | none => []

/-- The least of a value and of what is left of some caps. -/
def leastOf (value : ℚ) (caps : List AppliedCap) : ℚ :=
  caps.foldl (fun least cap => min least (p.remaining cap)) value

def allowedBonus : ℚ := p.leastOf p.bonus p.bonusCaps

/-- Step 5: what is earned in a currency, before the caps on its total. -/
def earned (currency : Currency) : ℚ :=
  (if p.ruleCurrency = some currency then p.basePart + p.allowedBonus else 0) +
    ((p.pieces.filter (·.1 = some currency)).map Prod.snd).sum

/-- Step 6: the caps on all that is earned in a currency. -/
def totalCaps : Currency → List AppliedCap
  | .points => p.capsOf .totalPoints
  | .cashback => p.capsOf .totalCashback

/-- What is earned in a currency. -/
def allowedTotal (currency : Currency) : ℚ := p.leastOf (p.earned currency) (p.totalCaps currency)

/-- `cut`. -/
def cut (currency : Currency) : ℚ := p.earned currency - p.allowedTotal currency

/-- Step 7: the bonus that counts against its caps. -/
def bonusDelta : ℚ := max 0 (p.allowedBonus - (p.ruleCurrency.elim 0 p.cut))

/-- What each cap is consumed by. -/
def consumption : List (JsString × ℚ) :=
  (p.bonusCaps.map fun cap => (cap.id, p.bonusDelta)) ++
    ((p.totalCaps .points).map fun cap => (cap.id, p.allowedTotal .points)) ++
    ((p.totalCaps .cashback).map fun cap => (cap.id, p.allowedTotal .cashback)) ++
    ((p.capsOf .eligibleSpend).map fun cap => (cap.id, p.ruleSpend)) ++
    (p.capsOf .txnCount).map fun cap => (cap.id, if p.forcing.isSome then 0 else 1)

/-- `capDeltas`: the consumption that is not zero. -/
def capDeltas : InsertionMap JsString ℚ :=
  p.consumption.foldl (fun deltas entry =>
    if round2 entry.2 = 0 then deltas else deltas.set entry.1 (round2 entry.2)) .empty

/-- Whether the result shows a currency. -/
def shows (currency : Currency) : Bool := p.cardCurrency = some currency || p.accrued currency

end Pricing

/-! ### Results -/

/-- The result of `computeTransactionRewardV2`, without the name of the engine. -/
structure Reward where
  points : Option ℚ := none
  cashbackInr : Option ℚ := none
  valueInr : ℚ := 0
  ruleId : Option JsString := none
  capDeltas : InsertionMap JsString ℚ := .empty
  excluded : Bool := false
  reasons : List JsString := []
  assumptions : List JsString := []

/-- A text when a condition holds. -/
def noteIf (c : Bool) (text : String) : List JsString := if c then [js text] else []

/-- `display_note`, unless it is empty. -/
def RewardRule.note (rule : RewardRule) : Option JsString := rule.displayNote.filter (· ≠ [])

/-- A result in which nothing is earned. -/
def shape (currency : Option Currency) : Reward where
  points := if currency = some .points then some 0 else none
  cashbackInr := if currency = some .cashback then some 0 else none

/-- What is assumed about the transaction before a rule is chosen. -/
def contextAssumptions (rules : List RewardRule) (c : ResolvedContext) : List JsString :=
  let earning := rules.filter fun rule => !isV1Only rule &&
    (rule.role = .known .earn || rule.role = .known .base)
  (if c.merchantResolvedVia = some (js "alias") then [js "merchant_resolved_by_alias"]
    else if c.merchantResolvedVia = some (js "vpa") then [js "merchant_resolved_by_vpa"]
    else noteIf (c.resolvedMerchantSlug = none &&
      ((c.merchantName.any (· ≠ [])) || c.merchantVpa.any (· ≠ []))) "merchant_unresolved") ++
    noteIf (c.rail = .unknown && earning.any (·.rail.isSome)) "rail_unknown" ++
    noteIf (c.platform = none && earning.any (·.platformSlugs.list ≠ [])) "platform_unknown"

/-- `rule_skipped:<id>:<reason>`. -/
def SkippedRule.entry (skipped : SkippedRule) : JsString :=
  js "rule_skipped:" ++ skipped.id.getD (js "null") ++ js ":" ++ skipped.reason

/-- The reasons of a priced transaction, in the order they are pushed. -/
def Pricing.reasons (p : Pricing) (ruleSkips capSkips : List JsString) : List JsString :=
  p.rule.note.toList ++ ruleSkips ++ noteIf (0 < p.overMax) "above_max_txn" ++ capSkips ++
    noteIf (p.cappedSpend < p.eligible) "spend_cap_reached" ++
    noteIf p.forcing.isSome "txn_count_cap_reached" ++
    noteIf (p.allowedBonus < p.bonus) "bonus_cap_reached" ++
    noteIf (0 < p.cut .points) "total_cap_reached" ++ noteIf (0 < p.cut .cashback) "total_cap_reached"

/-- What is assumed about a priced transaction. -/
def Pricing.assumptions (p : Pricing) (c : ResolvedContext) (implicit : Bool) : List JsString :=
  noteIf implicit "implicit_base_rule" ++
    noteIf (p.rule.mccInclude.list ≠ [] && c.mcc = none) "mcc_unknown_category_stand_in" ++
    noteIf (p.caps.any (·.legacy)) "legacy_cap_converted" ++
    noteIf (p.shows .points && 0 < p.allowedTotal .points && p.modes.pointValue ≤ 0)
      "point_value_unknown"

/-- Step 8: the result of a priced transaction. -/
def Pricing.reward (p : Pricing) : Reward where
  points := if p.shows .points then some (round2 (p.allowedTotal .points)) else none
  cashbackInr := if p.shows .cashback then some (round2 (p.allowedTotal .cashback)) else none
  valueInr := round2 (p.allowedTotal .points * p.modes.pointValue + p.allowedTotal .cashback)
  ruleId := p.rule.id
  capDeltas := p.capDeltas

section Compute

variable (host : Host) (card : Card) (rules : List RewardRule) (caps : List CapRule)

/-- What a transaction is priced with under a rule. -/
def pricingOf (consumed : JsString → ℚ) (c : ResolvedContext) (rule : RewardRule) (implicit : Bool) :
    Pricing where
  modes := cardModes card
  rule := rule
  isBase := implicit || rule.role = .known .base
  caps := (applicableCaps card caps rule c.categoryId).caps
  consumed := consumed
  amount := c.amount

/-- `computeTransactionRewardV2` of a context with the chain of its merchant. -/
def computeResolved (consumed : JsString → ℚ) (c : ResolvedContext) : Reward :=
  let assumptions := contextAssumptions rules c
  let cardCurrency := currencyOf (cardModes card).baseUnit
  if c.amount ≤ 0 then
    { shape cardCurrency with
      reasons := [js "non_positive_amount"]
      assumptions := assumptions }
  else
    let pick := pickRuleV2 host rules c card
    let ruleSkips := pick.skippedRules.map SkippedRule.entry
    let assumptions := assumptions ++ noteIf (pick.skippedRules.any (·.exclusion)) "exclusion_unparsed"
    match pick.choice with
    | .excluded rule =>
      { shape (cardCurrency.or (rule.bind fun rule => currencyOf rule.unit)) with
        ruleId := rule.bind RewardRule.id
        excluded := true
        reasons := ((rule.bind RewardRule.note).getD
          (if rule.isSome then js "excluded_by_rule" else js "excluded_category")) :: ruleSkips
        assumptions := assumptions }
    | .earns rule implicit =>
      let p := pricingOf card caps consumed c rule implicit
      { p.reward with
        reasons := p.reasons ruleSkips (applicableCaps card caps rule c.categoryId).skipped
        assumptions := assumptions ++ p.assumptions c implicit }

/-- `computeTransactionRewardV2`, for a card of the second version. `consumed` is what `capConsumedBefore`
has of each cap, or zero. -/
def computeTransactionRewardV2 (directory : Option Directory) (consumed : JsString → ℚ) (ctx : Context) :
    Reward :=
  computeResolved host card rules caps consumed (resolveContext directory ctx)

end Compute

end PandaPay.CardRewards
