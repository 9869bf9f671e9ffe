import PandaPay.CardRewards.Recording.Replay
import PandaPay.Library.Tally

/-!
# Rebuilding fee waivers

How `card_state_v2.js` plans and writes the fee waivers of a card from its transactions, and how
`index.js` records the fee waivers of a card of the first version.

## Main definitions

* `FeeCard`: what fee waivers need of a card
* `feeWaiverWindows`, `planFeeWaivers`: the windows of a day, and the plan for them
* `applyFeeWaiverRebuild`: a plan is written
* `applyFeeWaivers`: a spend is recorded, or reversed, on a card of the first version
-/

namespace PandaPay.CardRewards

/-- What fee waivers need of a card: `{ userCardId, cardProductId, statementDay }`. -/
structure FeeCard where
  userCardId : JsString
  cardProductId : JsString
  statementDay : Option ℤ

/-- A card of the second version, for its fee waivers. -/
def UserCard.feeCard (v2 : UserCard) : FeeCard := ⟨v2.userCardId, v2.cardProductId, v2.statementDay⟩

/-- The rules of a product. -/
def Server.feeWaiverRulesOf (server : Server) (cardProductId : JsString) : List FeeWaiverRule :=
  server.feeWaiverRules.filter fun rule => rule.cardProductId = cardProductId

/-- A rule does not leave the category of a spend out. -/
def FeeWaiverRule.takes (rule : FeeWaiverRule) (categoryId : Option JsString) : Bool :=
  (presentText categoryId).all (· ∉ rule.excludedCategories)

/-! ### Windows -/

/-- A rule with a window. -/
structure FeeWindow extends Bounds where
  rule : FeeWaiverRule

/-- `key(w.rule.id, w.start)`. -/
def FeeWindow.key (w : FeeWindow) : JsString × JsString := (w.rule.id, w.start)

/-- `feeWaiverWindows(rules, asOf, statementDay)`. -/
def feeWaiverWindows (rules : List FeeWaiverRule) (asOf : ℤ) (statementDay : Option ℤ) : List FeeWindow :=
  rules.map fun rule => ⟨periodBoundsOn rule.period asOf statementDay, rule⟩

/-! ### The plan -/

/-- What `planFeeWaivers` is called with. A user card is given for a card of the second version. -/
structure FeeWaiverInput where
  windows : List FeeWindow
  transactions : List (JsString × StoredTransaction)
  statementDay : Option ℤ := none
  excludedOf : Option (StoredTransaction → Bool) := none
  existingRows : List ((JsString × JsString) × FeeWaiverState) := []
  userCardId : Option JsString := none

/-- A planned row. -/
structure FeeWaiverRow where
  ruleId : JsString
  periodStart : JsString
  periodEnd : JsString
  qualifiedSpend : ℚ
  threshold : ℚ
  waived : Bool

/-- A row before and after: what it counts, and whether the fee is waived. -/
structure FeeWaiverDiff where
  ruleId : JsString
  periodStart : JsString
  before : Option (ℚ × Bool)
  after : ℚ × Bool

/-- `planFeeWaivers` returns this. -/
structure FeeWaiverPlan where
  rows : List FeeWaiverRow
  toWrite : List FeeWaiverRow
  diff : List FeeWaiverDiff
  recordUpdates : List (JsString × Option Record)

namespace FeeWaiverInput

variable (input : FeeWaiverInput)

/-- The transactions by time and id. -/
def ordered : List (JsString × StoredTransaction) :=
  input.transactions.insertionSort fun a b => toLex (a.2.occurredAt, a.1) ≤ toLex (b.2.occurredAt, b.1)

/-- A window counts an eligible spend: the spend's own window begins with it. -/
def counts (txn : StoredTransaction) (w : FeeWindow) : Bool :=
  (periodBoundsOn w.rule.period txn.occurredAt input.statementDay).start = w.start &&
    w.rule.takes txn.categoryId

/-- The entries of a transaction. -/
def entries (txn : StoredTransaction) : List FeeWaiverEntry :=
  if txn.isEligible && !(input.excludedOf.any fun excluded => excluded txn) then
    (input.windows.filter (input.counts txn)).map fun w =>
      ⟨w.rule.id, w.start, w.end, round2 txn.amountInr⟩
  else []

/-- What the entries of a transaction add to which total. -/
def postings (txn : StoredTransaction) : List ((JsString × JsString) × ℚ) :=
  (input.entries txn).map fun e => ((e.id, e.start), e.delta)

/-- `totals`, before the loop. Its keys stay. -/
def noTotals : InsertionMap (JsString × JsString) ℚ := indexBy FeeWindow.key (fun _ => 0) input.windows

/-- `totals`. -/
def totals : InsertionMap (JsString × JsString) ℚ :=
  input.ordered.foldl (fun totals t => tally totals (input.postings t.2)) input.noTotals

/-- The sections of the record of a transaction after the rebuild. -/
def rebuiltSections (txn : StoredTransaction) : RecordSection → List RecordEntry
  | .caps => txn.cardStateV2.elim [] Record.caps
  | .milestones => txn.cardStateV2.elim [] Record.milestones
  | .feeWaivers =>
    ((txn.cardStateV2.elim [] Record.feeWaivers).filter fun e =>
        !(input.noTotals.get? (e.id, e.start)).isSome) ++
      (input.entries txn).map FeeWaiverEntry.recordEntry

/-- The record of a transaction, if it changes. -/
def recordUpdate (userCardId : JsString) (t : JsString × StoredTransaction) :
    Option (JsString × Option Record) :=
  let next := toRecord userCardId fun name => (input.rebuiltSections t.2 name).map RecordEntry.rounded
  if canonical next = canonical t.2.cardStateV2 then none else some (t.1, next)

/-- The planned row of a window. -/
def row (w : FeeWindow) : FeeWaiverRow :=
  let qualified := round2 (amountAt input.totals w.key)
  { ruleId := w.rule.id
    periodStart := w.start
    periodEnd := w.end
    qualifiedSpend := qualified
    threshold := w.rule.thresholdSpendInr
    waived := w.rule.thresholdSpendInr ≤ qualified }

/-- `existing.get(k)`. -/
def existing (k : JsString × JsString) : Option FeeWaiverState :=
  (indexBy Prod.fst Prod.snd input.existingRows).get? k

/-- `same`, for a stored row. -/
def isSame (before : FeeWaiverState) (row : FeeWaiverRow) : Bool :=
  sameNumber (some before.qualifiedSpend) (some row.qualifiedSpend) &&
    before.waivedAt.isSome = row.waived && before.periodEnd = row.periodEnd

/-- The row of a window is written. -/
def changes (w : FeeWindow) : Bool :=
  match input.existing w.key with
  | none => (input.row w).qualifiedSpend ≠ 0
  | some before => !isSame before (input.row w)

/-- `planFeeWaivers({ windows, transactions, statementDay, excludedOf, existingRows, userCardId })`. -/
def planFeeWaivers : FeeWaiverPlan where
  rows := input.windows.map input.row
  toWrite := (input.windows.filter input.changes).map input.row
  diff := (input.windows.filter input.changes).map fun w =>
    { ruleId := w.rule.id
      periodStart := w.start
      before := (input.existing w.key).map fun before => (before.qualifiedSpend, before.waivedAt.isSome)
      after := ((input.row w).qualifiedSpend, (input.row w).waived) }
  recordUpdates := input.userCardId.elim [] fun userCardId =>
    input.ordered.filterMap (input.recordUpdate userCardId)

end FeeWaiverInput

/-! ### Writing a plan -/

namespace CardStates

variable (now : ℤ) (s : CardStates)

/-- The stored rows of some rules of a card, as `planFeeWaiverRebuild` reads them. -/
def feeWaiverRows (userCardId : JsString) (rules : List FeeWaiverRule) :
    List ((JsString × JsString) × FeeWaiverState) :=
  (s.feeWaiverStates.entries.filter fun entry =>
      entry.1.userCardId = userCardId && entry.1.ruleId ∈ rules.map FeeWaiverRule.id).map fun entry =>
    ((entry.1.ruleId, entry.1.periodStart), entry.2)

/-- A planned row is written, and settled. -/
def writeFeeWaiver (userCardId : JsString) (r : FeeWaiverRow) : CardStates :=
  let k : RowKey := ⟨userCardId, r.ruleId, r.periodStart⟩
  { s with
    feeWaiverStates := s.feeWaiverStates.set k <|
      settleFeeWaiver now
        { periodEnd := r.periodEnd
          qualifiedSpend := r.qualifiedSpend
          waivedAt := (s.feeWaiverStates.get? k).bind FeeWaiverState.waivedAt } r.threshold }

/-- `applyFeeWaiverRebuild(client, userId, card, plan)`. -/
def applyFeeWaiverRebuild (userCardId : JsString) (plan : FeeWaiverPlan) : CardStates :=
  let written := plan.toWrite.foldl (fun s r => s.writeFeeWaiver now userCardId r) s
  plan.recordUpdates.foldl (fun s update =>
    s.updateTransaction update.1 fun txn => { txn with cardStateV2 := update.2 }) written

end CardStates

/-! ### The first version -/

/-- The fee waivers of `applyTransactionState(client, userId, userCard, { … sign })` of a card of the first
version: `sign` is 1, or -1 to reverse. -/
def applyFeeWaivers (server : Server) (now : ℤ) (card : FeeCard) (txn : StoredTransaction) (sign : ℚ)
    (rows : InsertionMap RowKey FeeWaiverState) : InsertionMap RowKey FeeWaiverState :=
  let rules := (server.feeWaiverRulesOf card.cardProductId).filter fun rule => rule.takes txn.categoryId
  (feeWaiverCounting server now).giveAll rows <| rules.map fun rule =>
    let bounds := periodBoundsOn rule.period txn.occurredAt card.statementDay
    ⟨⟨card.userCardId, rule.id, bounds.start⟩, bounds.end, txn.amountInr * sign⟩

end PandaPay.CardRewards
