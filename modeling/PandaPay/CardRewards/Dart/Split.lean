import PandaPay.CardRewards.Dart.Recommendation
import PandaPay.Library.WhileLoop

/-!
# Splitting a spend over several cards

`SplitOptimizer` and `compareRails` of `calculators.dart`. A spend is placed chunk by chunk: each chunk goes to the
card where a rupee of it is worth most, with what was placed on the card before counted against its caps, as long as
the card has some of its ceiling left. Snapshots are objects of their own, also where they hold the same.

## Main definitions

* `withReducedCaps`: a snapshot, with a part of the spend counted against its caps
* `fillStep`: the body of the loop
* `optimize`: the plan
* `compareRails`: the best card by UPI and by swipe
-/

namespace PandaPay.CardRewards.Dart

/-- The context of a part of a spend. The platform and the slug of the merchant are left out. -/
def partContext (base : SpendContext) (amount : ℤ) : SpendContext where
  amount := amount
  categoryId := base.categoryId
  categorySlug := base.categorySlug
  mcc := base.mcc
  vpa := base.vpa
  rail := base.rail
  isP2P := base.isP2P
  travelMode := base.travelMode
  merchantName := base.merchantName
  now := base.now

section Split

variable (engine : RecommendationEngine) (rt : Runtime) (sorting : Sorting.{0} RankKey) (base : SpendContext)

/-- `engine.rank(context, [snapshot]).first`. -/
def RecommendationEngine.rankAlone (context : SpendContext) (snapshot : RankedSnapshot) : Option Recommendation :=
  (engine.rank rt context sorting [snapshot]).head?

/-! ### Caps -/

/-- `_withNativeCapsConsumed(snapshot, consumed, baseContext)`. -/
def withNativeCapsConsumed (snapshot : RankedSnapshot) (consumed : ℤ) : RankedSnapshot :=
  let allocated := computeRewardV2 rt.host snapshot.product.toCardProduct
    (partContext base consumed).toRecommendationContext snapshot.native.fresh engine.merchantDirectory
  let countCapIds := (allocated.caps.filter fun usage => usage.kind = .txnCount).map fun usage => usage.cap.id
  let next : InsertionMap JsString ℚ := allocated.capDeltas.entries.foldl (fun next entry =>
    if entry.1 ∈ countCapIds then next else next.set entry.1 ((next.get? entry.1).getD 0 + entry.2))
    snapshot.native.v2CapConsumed
  { product := snapshot.product
    capConsumed := next.get?
    unknownCapIds := snapshot.unknownCapIds
    milestoneProgress := snapshot.milestoneProgress
    forcedOverrideCardId := snapshot.forcedOverrideCardId }

/-- What a part of the spend takes from a cap of the first version. -/
def consumedDelta (card : CardProduct) (rule : RewardRule) (capRule : CapRule) (consumed : ℤ) : ℤ :=
  let bonusEligible := bonusEligibleOf rule consumed
  if capRule.measure = .spendAmount then bonusEligible
  else times bonusEligible (ratePerRupee rule.unit rule.rate card.pointValueInr none)

/-- A snapshot with a part of the spend counted against a cap of the first version. -/
def withReducedCap (snapshot : RankedSnapshot) (rule : RewardRule) (capRule : CapRule) (consumed : ℤ) :
    RankedSnapshot :=
  let delta := consumedDelta snapshot.product.toCardProduct rule capRule consumed
  if capRule.measure = .txnCount ∨ delta ≤ 0 then snapshot
  else
    let after := (snapshot.capRemaining capRule.id).getD capRule.capValue - delta
    { product := snapshot.product
      capRemaining := Function.update snapshot.capRemaining capRule.id (some (if after < 0 then 0 else after))
      milestoneProgress := snapshot.milestoneProgress
      forcedOverrideCardId := snapshot.forcedOverrideCardId }

/-- `_withReducedCaps(snapshot, consumed, baseContext)`. -/
def withReducedCaps (snapshot : RankedSnapshot) (consumed : ℤ) : RankedSnapshot :=
  let card := snapshot.product
  let context := partContext base consumed
  if consumed = 0 then snapshot
  else if card.isV2Shaped then withNativeCapsConsumed engine rt base snapshot consumed
  else if card.excludesCategory context.categoryId && (!context.isFuel || card.fuelRule.isNone) then snapshot
  else
    match (matchingRules rt card.toCardProduct context.toRecommendationContext).head? with
    | none => snapshot
    | some rule =>
      match capRuleOf rt card.toCardProduct rule context.toRecommendationContext with
      | none => snapshot
      | some capRule => withReducedCap snapshot rule capRule consumed

/-! ### The loop -/

/-- A card to place a part of the spend on, and its entry in `snapshotCeilings`. -/
structure SplitCard where
  snapshot : RankedSnapshot
  snapshotCeiling : Option ℤ := none

/-- The most that a card may take. -/
def ceilingOf (utilizationCeiling : JsString → Option ℤ) (card : SplitCard) : ℤ :=
  (card.snapshotCeiling.or (utilizationCeiling card.snapshot.product.id)).getD (2 ^ 50)

/-- A card of the plan: what is left of its ceiling, and what is placed on it. -/
structure Row where
  card : SplitCard
  remaining : ℤ
  allocated : ℤ := 0

/-- What a card offers for a chunk. -/
structure Offer where
  index : ℕ
  value : ℤ
  chunk : ℤ

/-- What a card offers, if it takes a chunk at all. -/
def offerOf (stepAmount : ℤ) (row : Row) (index : ℕ) : Option Offer :=
  if row.remaining ≤ 0 then none
  else
    let chunk := if row.remaining < stepAmount then row.remaining else stepAmount
    match engine.rankAlone rt sorting (partContext base chunk)
        (withReducedCaps engine rt base row.card.snapshot row.allocated) with
    | none => none
    | some r => if r.isExcluded then none else some ⟨index, r.expectedValue, chunk⟩

/-- A product of integers, of 64 bits. -/
def wrap64 (n : ℤ) : ℤ := n.bmod (2 ^ 64)

/-- The offer that is worth more for a rupee, the first of equal ones. -/
def betterOffer (a b : Offer) : Offer := if wrap64 (b.value * a.chunk) ≤ wrap64 (a.value * b.chunk) then a else b

/-- `marginal.entries.reduce(…)`. -/
def bestOffer : List Offer → Option Offer
  | [] => none
  | offer :: offers => some (offers.foldl betterOffer offer)

/-- The state of the loop. -/
structure Filling where
  rows : List Row
  placed : ℤ := 0
  /-- The loop was left by a `break`. -/
  stopped : Bool := false

/-- The chunk that is to be placed. -/
def stepAmountOf (total stepSize placed : ℤ) : ℤ := if total - placed < stepSize then total - placed else stepSize

/-- What the cards offer. -/
def offersOf (stepAmount : ℤ) (rows : List Row) : List Offer :=
  rows.zipIdx.filterMap fun entry => offerOf engine rt sorting base stepAmount entry.1 entry.2

/-- A chunk is placed on a card. -/
def Row.place (row : Row) (chunk : ℤ) : Row :=
  { row with allocated := row.allocated + chunk, remaining := row.remaining - chunk }

/-- The body of the loop. -/
def fillStep (total stepSize : ℤ) (s : Filling) : Filling :=
  let stepAmount := stepAmountOf total stepSize s.placed
  if stepAmount = 0 then { s with stopped := true }
  else
    match bestOffer (offersOf engine rt sorting base stepAmount s.rows) with
    | none => { s with stopped := true }
    | some offer =>
      { rows := s.rows.modify offer.index fun row => row.place offer.chunk
        placed := s.placed + offer.chunk }

/-- Whether the loop goes on. -/
def fillTest (total : ℤ) (s : Filling) : Bool := s.placed < total && !s.stopped

/-! ### The plan -/

/-- `SplitAllocation`. -/
structure SplitAllocation where
  card : RankedCard
  amount : ℤ
  expectedValue : ℤ

/-- The part of the plan that a card has. -/
def allocationOf (row : Row) : Option SplitAllocation :=
  if row.allocated = 0 then none
  else
    (engine.rankAlone rt sorting (partContext base row.allocated)
        (withReducedCaps engine rt base row.card.snapshot 0)).map fun r =>
      ⟨row.card.snapshot.product, row.allocated, r.expectedValue⟩

/-- Why there is no plan: the number of steps is not positive, or the loop has not ended. -/
inductive SplitFailure where
  | stepCount
  | rounds
  deriving DecidableEq

/-- `stepSize`. -/
def stepSizeOf (total stepCount : ℤ) : ℤ := ⌈(total / stepCount : ℚ)⌉

/-- `optimize(totalAmount, baseContext, cards, utilizationCeiling, snapshotCeilings, stepCount)`, with so many
rounds of the loop. -/
def optimize (rounds : ℕ) (total : ℤ) (cards : List SplitCard) (utilizationCeiling : JsString → Option ℤ)
    (stepCount : ℤ) : Except SplitFailure (List SplitAllocation) :=
  if stepCount ≤ 0 then .error .stepCount
  else if cards.isEmpty ∨ total ≤ 0 then .ok []
  else
    let rows := cards.map fun card => { card := card, remaining := ceilingOf utilizationCeiling card }
    match whileLoop (fillTest total) (fillStep engine rt sorting base total (stepSizeOf total stepCount)) rounds
        { rows := rows } with
    | none => .error .rounds
    | some s => .ok (s.rows.filterMap (allocationOf engine rt sorting base))

/-! ### Rails -/

/-- The context of a rail. The slugs, the platform and whether the spend is a transfer are left out. -/
def railContext (rail : Rail) : SpendContext where
  amount := base.amount
  categoryId := base.categoryId
  mcc := base.mcc
  vpa := base.vpa
  rail := rail
  travelMode := base.travelMode
  merchantName := base.merchantName
  now := base.now

/-- The first card that is not excluded, or else the first one. -/
def topOf (results : List Recommendation) : Option Recommendation :=
  (results.find? fun r => !r.isExcluded).or results.head?

/-- `RailComparison`. -/
structure RailComparison where
  upiTop : Recommendation
  swipeTop : Recommendation
  delta : ℤ

/-- `compareRails(engine, baseContext, cards)`, if there are cards. -/
def compareRails (cards : List RankedSnapshot) : Option RailComparison :=
  (topOf (engine.rank rt (railContext base .upiQr) sorting cards)).bind fun upiTop =>
    (topOf (engine.rank rt (railContext base .swipe) sorting cards)).map fun swipeTop =>
      ⟨upiTop, swipeTop, swipeTop.expectedValue - upiTop.expectedValue⟩

end Split

end PandaPay.CardRewards.Dart
