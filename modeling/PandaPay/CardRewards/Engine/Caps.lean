import PandaPay.CardRewards.Cycles
import PandaPay.CardRewards.Engine.Rules
import PandaPay.Library.IndexBy

/-!
# Caps

Which caps of a card a transaction counts against, in native units: points, rupees of cashback, rupees of
spend, or a count. A cap of the first version gets its unit from the rule of the transaction.

## Main definitions

* `CapRule`, `AppliedCap`: a cap of the catalogue, and as it applies
* `normalizeCap`: a cap in native units, or why it is left out
* `applicableCaps`: the caps of a transaction
-/

namespace PandaPay.CardRewards

/-- `cap_measure`. -/
inductive CapMeasure where
  | rewardValue
  | spendAmount
  | txnCount
  deriving DecidableEq

/-- `CAP_KINDS`. -/
inductive CapKind where
  | bonusPoints
  | totalPoints
  | bonusCashback
  | totalCashback
  | eligibleSpend
  | txnCount
  deriving DecidableEq

/-- `POST_CAP`. -/
inductive PostCap where
  | baseRate
  | zero
  | customRate
  deriving DecidableEq

/-- `scope` of a cap. -/
inductive CapScope where
  | targets
  | card
  deriving DecidableEq

/-- A row of `cap_rules` with its targets. -/
structure CapRule where
  id : JsString
  rewardRuleId : Option JsString := none
  categoryId : Option JsString := none
  measure : Named CapMeasure
  period : Period
  anchor : Option Anchor := none
  capValue : Option ℚ := none
  postCapUnit : Option (Named RewardUnit) := none
  postCapRate : Option ℚ := none
  capKind : Option (Named CapKind) := none
  capAmount : Option ℚ := none
  scope : Option (Named CapScope) := none
  parentCapId : Option JsString := none
  postCapBehavior : Option (Named PostCap) := none
  targets : List JsString := []

/-- A cap in native units. -/
structure AppliedCap where
  id : JsString
  kind : CapKind
  amount : ℚ
  behavior : PostCap
  postUnit : Option (Named RewardUnit)
  postRate : Option ℚ
  legacy : Bool

/-- `isV2Card(card, rules, caps)`. -/
def isV2Card (card : Card) (rules : List RewardRule) (caps : List CapRule) : Bool :=
  card.accrualRounding.isSome || card.cashbackRounding.isSome || caps.any (·.capKind.isSome) ||
    rules.any ruleIsV2

/-! ### Native units -/

/-- `postCapBehavior(cap)`. -/
def postCapBehavior (cap : CapRule) : Option PostCap :=
  match cap.postCapBehavior with
  | some (.known behavior) => some behavior
  | some (.other _) => none
  | none =>
    match cap.postCapRate with
    | none => some .baseRate
    | some rate => some (if rate = 0 then .zero else .customRate)

/-- The kind and the amount of a cap, or why it cannot be enforced. -/
def nativeCap (cap : CapRule) (rule : RewardRule) (card : Card) : Except JsString (CapKind × ℚ) :=
  match cap.capKind with
  | some (.other _) => .error (js "unknown_cap_kind")
  | some (.known kind) =>
    match cap.capAmount with
    | some amount => .ok (kind, amount)
    | none => .error (js "missing_cap_amount")
  | none =>
    match cap.capValue, cap.measure with
    | none, _ => .error (js "missing_cap_value")
    | some value, .known .spendAmount => .ok (.eligibleSpend, value)
    | some value, .known .txnCount => .ok (.txnCount, value)
    | some value, .known .rewardValue =>
      match currencyOf rule.unit with
      | some .cashback => .ok (.totalCashback, value)
      | some .points =>
        let pointValue := card.pointValueInr.getD 0
        if 0 < pointValue then .ok (.totalPoints, value / pointValue)
        else .error (js "no_point_value")
      | none => .error (js "unknown_rule_currency")
    | some _, .other _ => .error (js "unknown_measure")

/-- `normalizeCap(cap, rule, card)`. -/
def normalizeCap (cap : CapRule) (rule : RewardRule) (card : Card) : Except JsString AppliedCap := do
  let (kind, amount) ← nativeCap cap rule card
  match postCapBehavior cap with
  | none => .error (js "unknown_post_cap_behavior")
  | some behavior =>
    return {
      id := cap.id
      kind := kind
      amount := amount
      behavior := behavior
      postUnit := presentUnit cap.postCapUnit
      postRate := cap.postCapRate
      legacy := cap.capKind.isNone }

/-! ### The caps of a transaction -/

/-- `scope == null ? 'targets' : scope`. -/
def CapRule.scopeOf (cap : CapRule) : Named CapScope := cap.scope.getD (.known .targets)

/-- Whether a cap counts a transaction for itself, and not for a cap below it. -/
def CapRule.counts (cap : CapRule) (ruleId categoryId : Option JsString) : Bool :=
  match cap.scopeOf with
  | .other _ => false
  | .known .card => true
  | .known .targets =>
    if cap.targets ≠ [] then ruleId.any (· ∈ cap.targets)
    else
      match cap.rewardRuleId with
      | some id => ruleId = some id
      | none => cap.categoryId.isSome && cap.categoryId = categoryId

/-- The walk over the parents of a chosen cap. Each of its steps chooses one more of the caps. -/
def addParents (byId : InsertionMap JsString CapRule) :
    ℕ → List JsString → Option JsString → List JsString
  | 0, chosen, _ => chosen
  | steps + 1, chosen, parent =>
    match parent.bind byId.get? with
    | none => chosen
    | some cap =>
      if cap.id ∈ chosen then chosen else addParents byId steps (chosen ++ [cap.id]) cap.parentCapId

/-- The ids of the caps that count a transaction, and of those above them. -/
def chosenCaps (caps : List CapRule) (ruleId categoryId : Option JsString) : List JsString :=
  let byId := indexBy CapRule.id id caps
  let direct := (caps.filter fun cap => cap.counts ruleId categoryId).map CapRule.id
  direct.foldl (fun chosen id =>
    addParents byId caps.length chosen ((byId.get? id).bind CapRule.parentCapId)) direct

/-- `cap_skipped:<cap_id>:<reason>`. -/
def skipEntry (id reason : JsString) : JsString := js "cap_skipped:" ++ id ++ js ":" ++ reason

/-- `applicableCaps` returns the caps and notes those that cannot be enforced. -/
structure ApplicableCaps where
  caps : List AppliedCap
  skipped : List JsString

/-- `applicableCaps({ card, capRules, rule, ctx, skipped })`. -/
def applicableCaps (card : Card) (capRules : List CapRule) (rule : RewardRule)
    (categoryId : Option JsString) : ApplicableCaps :=
  let chosen := chosenCaps capRules rule.id categoryId
  let readable := capRules.filter fun cap => cap.id ∈ chosen && !Named.isOther cap.scope
  let unknown := (capRules.filter fun cap => Named.isOther cap.scope).map fun cap =>
    skipEntry cap.id (js "unknown_scope")
  let unenforced := readable.filterMap fun cap =>
    match normalizeCap cap rule card with
    | .ok _ => none
    | .error reason => some (skipEntry cap.id reason)
  { caps := readable.filterMap fun cap => (normalizeCap cap rule card).toOption
    skipped := (unknown ++ unenforced).reverse.dedup.reverse }

end PandaPay.CardRewards
