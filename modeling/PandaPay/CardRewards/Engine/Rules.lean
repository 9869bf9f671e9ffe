import PandaPay.CardRewards.Engine.Accrual
import PandaPay.Json.Value
import Mathlib.Data.List.Infix
import Mathlib.Data.List.Sort

/-!
# Rules

How `reward_math_v2.js` chooses the rule a transaction earns under. What the functions take from the
catalogue and from their callers is typed: a text that should name a value may name none (`Named`), and a
list or a number may be something else (`Wire`).

The merchant directory, the letters of the host and the days of its time zone are arguments.

## Main definitions

* `RewardRule`, `Card`, `Context`: what the engine reads
* `isV2Card`: whether a card is priced by this engine
* `ruleAppliesV2`: whether a rule applies
* `pickRuleV2`: the rule, or the exclusion
-/

namespace PandaPay.CardRewards

/-! ### The catalogue -/

/-- A field: null, a value, or something that is no value of the type. -/
inductive Wire (α : Type) where
  | null
  | value (a : α)
  | unreadable
  deriving DecidableEq

namespace Wire

variable {α : Type}

/-- The value of a field, if it has one. -/
def get : Wire α → Option α
  | value a => some a
  | _ => none

/-- `arr(value)`. -/
def list (field : Wire (List α)) : List α := field.get.getD []

/-- `hasValue(value)`. -/
def hasValue : Wire (List α) → Bool
  | null => false
  | value list => !list.isEmpty
  | unreadable => true

end Wire

/-- `rule_role`. -/
inductive RuleRole where
  | base
  | earn
  | exclusion
  | info
  deriving DecidableEq

/-- `txn_rail`. -/
inductive Rail where
  | upiQr
  | swipe
  | online
  | contactless
  | atm
  | emi
  | unknown
  deriving DecidableEq

/-- A row of `reward_rules`. -/
structure RewardRule where
  id : Option JsString := none
  ruleRole : Option (Named RuleRole) := none
  unit : Option (Named RewardUnit) := none
  rate : Option ℚ := none
  blockInr : Wire ℚ := .null
  minTxnInr : Option ℚ := none
  maxTxnInr : Option ℚ := none
  categoryId : Option JsString := none
  excludedCategories : List JsString := []
  merchantSlugs : Wire (List JsString) := .null
  platformSlugs : Wire (List JsString) := .null
  mccInclude : Wire (List JsString) := .null
  mccExclude : Wire (List JsString) := .null
  exceptMerchantSlugs : Wire (List JsString) := .null
  exceptPlatformSlugs : Wire (List JsString) := .null
  merchantPattern : Option JsString := none
  rail : Option (Named Rail) := none
  /-- Instants in milliseconds. -/
  effectiveFrom : Option ℤ := none
  effectiveTo : Option ℤ := none
  priority : Option ℚ := none
  minEngineVersion : Option ℚ := none
  maxEngineVersion : Wire ℚ := .null
  displayNote : Option JsString := none
  deriving DecidableEq

/-- What the engine reads of a card. -/
structure Card where
  pointValueInr : Option ℚ := none
  baseRewardUnit : Option (Named RewardUnit) := none
  baseRewardRate : Option ℚ := none
  excludedCategories : List JsString := []
  accrualRounding : Option (Named Rounding) := none
  cashbackRounding : Option (Named CashbackRounding) := none
  deriving DecidableEq

/-- `roleOf(rule)`. -/
def RewardRule.role (rule : RewardRule) : Named RuleRole := rule.ruleRole.getD (.known .earn)

/-- `LIST_FIELDS`. -/
def RewardRule.listFields (rule : RewardRule) : List (JsString × Wire (List JsString)) :=
  [(js "merchant_slugs", rule.merchantSlugs), (js "platform_slugs", rule.platformSlugs),
    (js "mcc_include", rule.mccInclude), (js "mcc_exclude", rule.mccExclude),
    (js "except_merchant_slugs", rule.exceptMerchantSlugs),
    (js "except_platform_slugs", rule.exceptPlatformSlugs)]

/-- `isV1Only(rule)`. -/
def isV1Only (rule : RewardRule) : Bool := rule.maxEngineVersion = .value 1

/-- `ruleProblem(rule)`: why a rule cannot be applied as written. -/
def ruleProblem (rule : RewardRule) : Option JsString :=
  if Named.isOther rule.ruleRole then some (js "unknown_rule_role")
  else if Named.isOther rule.unit then some (js "unknown_unit")
  else if Named.isOther rule.rail then some (js "unknown_rail")
  else
    match rule.listFields.find? fun field => field.2 = .unreadable with
    | some field => some (js "unparseable_" ++ field.1)
    | none =>
      if rule.blockInr = .unreadable then some (js "unparseable_block_inr")
      else if rule.maxEngineVersion = .unreadable then some (js "unparseable_max_engine_version")
      else none

/-- `ruleIsV2(rule)`. -/
def ruleIsV2 (rule : RewardRule) : Bool :=
  rule.ruleRole ∈ [some (.known .base), some (.known .exclusion), some (.known .info)] ||
    Named.isOther rule.ruleRole || rule.listFields.any (·.2.hasValue) ||
    (rule.ruleRole = some (.known .exclusion) && rule.maxTxnInr.isSome) ||
    rule.blockInr ≠ .null || rule.maxEngineVersion ≠ .null || rule.minEngineVersion = some 2

/-! ### The transaction -/

/-- `normalizeContext(ctx)`. -/
structure Context where
  amount : ℚ
  occurred : Option ℤ := none
  categoryId : Option JsString := none
  mcc : Option JsString := none
  merchantName : Option JsString := none
  merchantVpa : Option JsString := none
  merchantSlug : Option JsString := none
  platform : Option JsString := none
  rail : Rail := .unknown

/-- A context with the chain of its merchant. -/
structure ResolvedContext extends Context where
  resolvedMerchantSlug : Option JsString
  merchantResolvedVia : Option JsString
  merchantChain : List JsString

/-- `merchant_directory.js` for a directory that is loaded. -/
structure Directory where
  /-- `resolveMerchant(dir, name, vpa)`: the slug, and what it was found by. -/
  resolveMerchant : Option JsString → Option JsString → Option (JsString × JsString)
  /-- `ancestors(dir, slug)`. -/
  ancestors : JsString → List JsString

/-- What the engine takes from its host: lower case, and the days of the local time zone. -/
structure Host where
  toLowerCase : JsString → JsString
  startOfDay : ℤ → ℤ
  /-- `d.setDate(d.getDate() + 1)`. -/
  nextDay : ℤ → ℤ

/-- `normalizeMerchant(value)`. -/
def Host.normalizeMerchant (host : Host) (text : JsString) : JsString :=
  (host.toLowerCase text).filter fun c => isDigit c || (97 ≤ c.val && c.val ≤ 122)

/-- `resolveContext(ctx, directory)`. -/
def resolveContext (directory : Option Directory) (ctx : Context) : ResolvedContext :=
  let given := ctx.merchantSlug.map fun slug => (slug, js "given")
  let found := given.or (directory.bind fun dir => dir.resolveMerchant ctx.merchantName ctx.merchantVpa)
  { ctx with
    resolvedMerchantSlug := found.map Prod.fst
    merchantResolvedVia := found.map Prod.snd
    merchantChain := match found with
      | some (slug, _) => slug :: (directory.map (·.ancestors slug)).getD []
      | none => [] }

/-! ### Whether a rule applies -/

section Applies

variable (host : Host) (rule : RewardRule) (c : ResolvedContext)

/-- Step 1: the effective dates. -/
def RewardRule.inForce : Bool :=
  match c.occurred with
  | none => true
  | some when =>
    (rule.effectiveFrom.all fun day => host.startOfDay day ≤ when) &&
      rule.effectiveTo.all fun day => when < host.nextDay (host.startOfDay day)

/-- Steps 3 and 4: the category. -/
def RewardRule.takesCategory : Bool :=
  (rule.categoryId = none || rule.categoryId = c.categoryId) &&
    c.categoryId.all fun category => category ∉ rule.excludedCategories

/-- Step 5: the merchant. An unknown one never matches. -/
def RewardRule.takesMerchant : Bool :=
  if rule.merchantSlugs.list ≠ [] then c.merchantChain.any (· ∈ rule.merchantSlugs.list)
  else
    match rule.merchantPattern.filter fun pattern => trim pattern ≠ [] with
    | none => true
    | some pattern =>
      (c.merchantName.filter (· ≠ [])).any fun name =>
        host.normalizeMerchant pattern <:+: host.normalizeMerchant name

/-- Step 6, and the exceptions: the platform. -/
def RewardRule.takesPlatform : Bool :=
  (rule.platformSlugs.list = [] || c.platform.any (· ∈ rule.platformSlugs.list)) &&
    (c.merchantChain.all (· ∉ rule.exceptMerchantSlugs.list)) &&
    c.platform.all (· ∉ rule.exceptPlatformSlugs.list)

/-- Steps 7 and 8: the merchant category code. A category stands in for an unknown one. -/
def RewardRule.takesMcc : Bool :=
  (rule.mccInclude.list = [] ||
      match c.mcc with
      | some mcc => mcc ∈ rule.mccInclude.list
      | none => rule.categoryId.isSome) &&
    c.mcc.all (· ∉ rule.mccExclude.list)

/-- Step 9: the rail. -/
def RewardRule.takesRail : Bool :=
  rule.rail = none || (c.rail ≠ .unknown && rule.rail = some (.known c.rail))

/-- Step 10: the amount. An exclusion with a maximum applies only below it. -/
def RewardRule.takesAmount : Bool :=
  (rule.minTxnInr.all (· ≤ c.amount)) &&
    (rule.role ≠ .known .exclusion || rule.maxTxnInr.all (c.amount < ·))

/-- `ruleAppliesV2(rule, ctx)`. -/
def ruleAppliesV2 : Bool :=
  !isV1Only rule && ruleProblem rule = none && rule.role ≠ .known .info &&
    rule.inForce host c && rule.takesCategory c && rule.takesMerchant host c && rule.takesPlatform c &&
    rule.takesMcc c && rule.takesRail c && rule.takesAmount c

end Applies

/-! ### Which rule is chosen -/

/-- `cardModes(card)`. -/
structure CardModes where
  pointValue : ℚ
  rounding : Rounding
  cashbackRounding : CashbackRounding
  baseUnit : Option (Named RewardUnit)
  baseRate : Option ℚ

def cardModes (card : Card) : CardModes where
  pointValue := card.pointValueInr.getD 0
  rounding := match card.accrualRounding with
    | some (.known rounding) => rounding
    | _ => .floor
  cashbackRounding := match card.cashbackRounding with
    | none => .paise
    | some (.known rounding) => rounding
    | some (.other _) => .rupeeFloor
  baseUnit := presentUnit card.baseRewardUnit
  baseRate := card.baseRewardRate

namespace CardModes

variable (modes : CardModes)

/-- `accrueAt` of a card. -/
def accrueAt (unit : Option (Named RewardUnit)) (rate : Option ℚ) (spend : ℚ) (block : Option ℚ) : ℚ :=
  accrue unit rate spend block modes.rounding modes.cashbackRounding

/-- What spend earns at the rate of the card. -/
def accrueBase (spend : ℚ) : ℚ := modes.accrueAt modes.baseUnit modes.baseRate spend none

/-- `valueOf(amount, currency, pointValue)`. -/
def valueOf (amount : ℚ) : Option Currency → ℚ
  | some .points => amount * modes.pointValue
  | some .cashback => amount
  | none => 0

end CardModes

/-- The spend a rule pays for: up to its maximum. -/
def RewardRule.eligible (rule : RewardRule) (amount : ℚ) : ℚ :=
  match rule.maxTxnInr with
  | some maxTxn => if maxTxn < amount then max 0 maxTxn else amount
  | none => amount

/-- `preCapValue(rule, ctx, modes)`. -/
def preCapValue (rule : RewardRule) (amount : ℚ) (modes : CardModes) : ℚ :=
  if presentUnit rule.unit = none ∨ rule.rate = none then 0
  else
    let eligible := rule.eligible amount
    modes.valueOf (modes.accrueAt rule.unit rule.rate eligible rule.blockInr.get) (currencyOf rule.unit) +
      modes.valueOf (modes.accrueBase (amount - eligible)) (currencyOf modes.baseUnit)

/-- What `byPriority` compares, smallest first: the priority, the value in paise, the id. -/
def rank (rule : RewardRule) (amount : ℚ) (modes : CardModes) : ℚ ×ₗ ℤᵒᵈ ×ₗ JsString :=
  toLex (rule.priority.getD 100,
    toLex (.toDual (round (preCapValue rule amount modes * 100 + paiseEps)), rule.id.getD []))

/-- `byPriority(rules, ctx, modes)`. -/
def byPriority (rules : List RewardRule) (amount : ℚ) (modes : CardModes) : List RewardRule :=
  rules.insertionSort fun a b => rank a amount modes ≤ rank b amount modes

/-- `implicitBaseRule(card)`. -/
def implicitBaseRule (card : Card) : RewardRule where
  ruleRole := some (.known .base)
  unit := presentUnit card.baseRewardUnit
  rate := card.baseRewardRate

/-- A rule that was left out, and why. -/
structure SkippedRule where
  id : Option JsString
  reason : JsString
  exclusion : Bool

/-- What the rules say to a transaction. -/
inductive Choice where
  /-- An exclusion rule, or an excluded category of the card. -/
  | excluded (rule : Option RewardRule)
  /-- The rule that earns; no rule applied if it is `implicit`. -/
  | earns (rule : RewardRule) (implicit : Bool)

/-- `pickRuleV2` returns its choice and the rules it left out. -/
structure Pick where
  choice : Choice
  skippedRules : List SkippedRule

/-- `pickRuleV2(rules, ctx, card)`. -/
def pickRuleV2 (host : Host) (rules : List RewardRule) (c : ResolvedContext) (card : Card) : Pick :=
  let modes := cardModes card
  let v2Rules := rules.filter fun rule => !isV1Only rule
  let applicable := v2Rules.filter fun rule => ruleAppliesV2 host rule c
  let exclusions := applicable.filter fun rule => rule.role = .known .exclusion
  let earners := applicable.filter fun rule => rule.role = .known .base || rule.role = .known .earn
  { choice :=
      match (byPriority exclusions c.amount modes).head? with
      | some rule => .excluded (some rule)
      | none =>
        if c.categoryId.any (· ∈ card.excludedCategories) then .excluded none
        else
          match (byPriority earners c.amount modes).head? with
          | some rule => .earns rule false
          | none => .earns (implicitBaseRule card) true
    skippedRules := v2Rules.filterMap fun rule => (ruleProblem rule).map fun reason =>
      ⟨rule.id, reason, rule.ruleRole = some (.known .exclusion)⟩ }

end PandaPay.CardRewards
