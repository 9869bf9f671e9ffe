import PandaPay.CardRewards.Recording.Records
import PandaPay.Library.Counting

/-!
# Recording a transaction

The rows of `cap_states`, `milestone_states` and `fee_waiver_states` of one profile, and how
`card_state_v2.js` applies a transaction to them and reverses it. Amounts are kept in two decimals.

Not modelled: the times of updates, and the bounds of the columns.

## Main definitions

* `CardStates`: the rows, the transactions and the points ledger
* `reverseRecord`: what a record added is subtracted
* `applyTransactionV2`, `reverseTransactionV2`
-/

namespace PandaPay.CardRewards

/-! ### Rows -/

/-- The key of a row: a user card, one of its rules, and the start of a period. -/
structure RowKey where
  userCardId : JsString
  ruleId : JsString
  periodStart : JsString
  deriving DecidableEq

/-- `numeric(14,2)`: the hundredth next to a number that is not negative. -/
def numeric2 (x : ℚ) : ℚ := roundOnto 100 0 x

/-- A row of `cap_states`. `cap_kind` is null in a row of the first version. -/
structure CapState where
  periodEnd : JsString
  consumed : ℚ
  capValueSnapshot : ℚ
  capKind : Option CapKind
  capAmount : Option ℚ
  approximateWindow : Bool

/-- A row of `milestone_states`. -/
structure MilestoneState where
  periodEnd : JsString
  qualifiedSpend : ℚ
  approximateWindow : Bool

/-- A row of `fee_waiver_states`. -/
structure FeeWaiverState where
  periodEnd : JsString
  qualifiedSpend : ℚ
  waivedAt : Option ℤ

/-- What is upserted into `cap_states`. -/
structure CapUpsert where
  key : RowKey
  periodEnd : JsString
  delta : ℚ
  capValueSnapshot : ℚ
  capKind : CapKind
  capAmount : ℚ
  approximateWindow : Bool

/-- What is upserted into `milestone_states`. -/
structure MilestoneUpsert where
  key : RowKey
  periodEnd : JsString
  delta : ℚ
  approximateWindow : Bool

/-- What is upserted into `fee_waiver_states`. -/
structure FeeWaiverUpsert where
  key : RowKey
  periodEnd : JsString
  delta : ℚ

/-- How `cap_states` counts. -/
def capCounting : Counting RowKey CapUpsert CapState ℚ where
  key := CapUpsert.key
  delta := CapUpsert.delta
  amount := CapState.consumed
  take _ row delta := { row with consumed := max 0 (row.consumed - delta) }
  give row e :=
    { periodEnd := e.periodEnd
      consumed := max 0 (row.elim 0 CapState.consumed + e.delta)
      capValueSnapshot := row.elim e.capValueSnapshot CapState.capValueSnapshot
      capKind := some e.capKind
      capAmount := some (numeric2 e.capAmount)
      approximateWindow := e.approximateWindow }
  amount_take _ _ _ := rfl
  amount_give _ _ := rfl

/-- How `milestone_states` counts. -/
def milestoneCounting : Counting RowKey MilestoneUpsert MilestoneState ℚ where
  key := MilestoneUpsert.key
  delta := MilestoneUpsert.delta
  amount := MilestoneState.qualifiedSpend
  take _ row delta := { row with qualifiedSpend := max 0 (row.qualifiedSpend - delta) }
  give row e :=
    { periodEnd := e.periodEnd
      qualifiedSpend := max 0 (row.elim 0 MilestoneState.qualifiedSpend + e.delta)
      approximateWindow := e.approximateWindow }
  amount_take _ _ _ := rfl
  amount_give _ _ := rfl

/-- `settleFeeWaiver(client, state, threshold)`: waived at or above the threshold, not waived below. -/
def settleFeeWaiver (now : ℤ) (state : FeeWaiverState) (threshold : ℚ) : FeeWaiverState :=
  { state with
    waivedAt := if threshold ≤ state.qualifiedSpend then state.waivedAt.or (some now) else none }

/-- The threshold of a rule. -/
def Server.threshold (server : Server) (ruleId : JsString) : ℚ :=
  ((server.feeWaiverRules.find? fun rule => rule.id = ruleId).map FeeWaiverRule.thresholdSpendInr).getD 0

/-- How `fee_waiver_states` counts, at a time. -/
def feeWaiverCounting (server : Server) (now : ℤ) : Counting RowKey FeeWaiverUpsert FeeWaiverState ℚ where
  key := FeeWaiverUpsert.key
  delta := FeeWaiverUpsert.delta
  amount := FeeWaiverState.qualifiedSpend
  take k row delta :=
    settleFeeWaiver now { row with qualifiedSpend := max 0 (row.qualifiedSpend - delta) }
      (server.threshold k.ruleId)
  give row e :=
    settleFeeWaiver now
      { periodEnd := row.elim e.periodEnd FeeWaiverState.periodEnd
        qualifiedSpend := max 0 (row.elim 0 FeeWaiverState.qualifiedSpend + e.delta)
        waivedAt := row.bind FeeWaiverState.waivedAt } (server.threshold e.key.ruleId)
  amount_take _ _ _ := rfl
  amount_give _ _ := rfl

/-! ### States -/

/-- A stored transaction. -/
structure StoredTransaction extends SpendRow where
  status : JsString
  instrument : JsString
  entryKind : JsString
  isBackfill : Bool
  expectedValueInr : Option ℚ
  expectedPoints : Option ℚ
  expectedCashbackInr : Option ℚ
  cardStateV2 : Option Record

/-- A row of `points_ledger`. -/
structure LedgerRow where
  userCardId : JsString
  transactionId : JsString
  deltaPoints : ℚ
  occurredAt : ℤ

/-- What recording reads and writes of one profile. -/
structure CardStates where
  capStates : InsertionMap RowKey CapState
  milestoneStates : InsertionMap RowKey MilestoneState
  feeWaiverStates : InsertionMap RowKey FeeWaiverState
  transactions : InsertionMap JsString StoredTransaction
  pointsLedger : List LedgerRow

/-- What `applyTransactionV2` is called with. Only amounts above zero are stored. -/
structure ApplyArgs where
  txnId : JsString
  amount : ℚ
  amount_pos : 0 < amount
  occurred : ℤ
  categoryId : Option JsString
  merchantName : Option JsString
  rail : Option Rail

namespace Record

variable (record : Record)

/-- What a section of a record says was added to which row. -/
def postings (name : RecordSection) : List (RowKey × ℚ) :=
  (record.entries name).map fun e => (⟨record.userCardId, e.id, e.start⟩, e.delta)

end Record

/-- What the record of a transaction says it added. -/
def StoredTransaction.postings (txn : StoredTransaction) (name : RecordSection) : List (RowKey × ℚ) :=
  txn.cardStateV2.elim [] fun record => record.postings name

namespace CardStates

variable (server : Server) (now : ℤ) (s : CardStates)

/-- `reverseRecord(client, profileId, record)`. A row that is gone has nothing to undo. -/
def reverseRecord (record : Record) : CardStates :=
  { s with
    capStates := capCounting.takeAll s.capStates (record.postings .caps)
    milestoneStates := milestoneCounting.takeAll s.milestoneStates (record.postings .milestones)
    feeWaiverStates :=
      (feeWaiverCounting server now).takeAll s.feeWaiverStates (record.postings .feeWaivers) }

/-- `DELETE FROM points_ledger WHERE transaction_id = $1`. -/
def withoutLedger (txnId : JsString) : CardStates :=
  { s with pointsLedger := s.pointsLedger.filter (·.transactionId ≠ txnId) }

/-- The record that a transaction carries. -/
def recordOf (txnId : JsString) : Option Record :=
  (s.transactions.get? txnId).bind StoredTransaction.cardStateV2

/-- Undo whatever a transaction still carries. -/
def undo (txnId : JsString) : CardStates :=
  match s.recordOf txnId with
  | none => s
  | some record => (s.reverseRecord server now record).withoutLedger txnId

/-- An update of a transaction. -/
def updateTransaction (txnId : JsString) (f : StoredTransaction → StoredTransaction) : CardStates :=
  match s.transactions.get? txnId with
  | none => s
  | some txn => { s with transactions := s.transactions.set txnId (f txn) }

/-- What `readCapRows` reads for a cap of a user card in a period. -/
def consumedOf (userCardId capId start : JsString) : ℚ :=
  capCounting.amountIn s.capStates ⟨userCardId, capId, start⟩

/-- `stale` of `readCapRows`: a planned cap has a row of the first version. -/
def stale (v2 : UserCard) (plan : CapPlan) : Bool :=
  plan.caps.any fun planned =>
    (s.capStates.get? ⟨v2.userCardId, planned.1.id, planned.2.start⟩).any (·.capKind.isNone)

/-- The upserts of some entries of caps. -/
def capUpserts (v2 : UserCard) (entries : List CapEntry) : List CapUpsert :=
  entries.map fun e =>
    { key := ⟨v2.userCardId, e.id, e.start⟩
      periodEnd := e.end
      delta := e.delta
      capValueSnapshot := ((v2.capById e.id).bind CapRule.capValue).getD 0
      capKind := e.kind
      capAmount := e.amount
      approximateWindow := e.approximate }

def milestoneUpserts (v2 : UserCard) (entries : List MilestoneEntry) : List MilestoneUpsert :=
  entries.map fun e => ⟨⟨v2.userCardId, e.id, e.start⟩, e.end, e.delta, e.approximate⟩

def feeWaiverUpserts (v2 : UserCard) (entries : List FeeWaiverEntry) : List FeeWaiverUpsert :=
  entries.map fun e => ⟨⟨v2.userCardId, e.id, e.start⟩, e.end, e.delta⟩

/-- The spend that a call applies: what the call says, and what is stored. -/
def spendRow (args : ApplyArgs) : SpendRow where
  amountInr := args.amount
  occurredAt := args.occurred
  categoryId := args.categoryId
  merchantName := args.merchantName
  merchantVpa := (s.transactions.get? args.txnId).bind fun txn => txn.merchantVpa
  mcc := (s.transactions.get? args.txnId).bind fun txn => txn.mcc
  rail := args.rail

/-- What a transaction adds to the rows: the entries of its caps, milestones and fee waivers. -/
structure Additions where
  outcome : Outcome
  milestones : List MilestoneEntry
  feeWaivers : List FeeWaiverEntry

/-- The record of what is added. -/
def Additions.record (added : Additions) (v2 : UserCard) : Option Record :=
  toRecord v2.userCardId (sectionsOf added.outcome.capEntries added.milestones added.feeWaivers)

/-- What a call adds, for the consumption so far. -/
def additions (v2 : UserCard) (args : ApplyArgs) (row : SpendRow) (plan : CapPlan) : Additions :=
  let outcome := computeTransactionV2 server v2 (s.consumedOf v2.userCardId) plan
  { outcome := outcome
    milestones := milestoneEntries v2 (transactionContext row) outcome.excluded
    feeWaivers :=
      feeWaiverEntries server v2 args.amount args.occurred args.categoryId outcome.excluded }

/-- `ledgerRows(outcome)`, as they are inserted. -/
def ledgerRows (v2 : UserCard) (args : ApplyArgs) (outcome : Outcome) : List LedgerRow :=
  if 0 < outcome.native then [⟨v2.userCardId, args.txnId, outcome.native, args.occurred⟩] else []

/-- The rows, the transaction and the ledger with what a call adds. -/
def add (v2 : UserCard) (args : ApplyArgs) (added : Additions) : CardStates :=
  let counted : CardStates :=
    { s with
      capStates := capCounting.giveAll s.capStates (capUpserts v2 added.outcome.capEntries)
      milestoneStates := milestoneCounting.giveAll s.milestoneStates (milestoneUpserts v2 added.milestones)
      feeWaiverStates :=
        (feeWaiverCounting server now).giveAll s.feeWaiverStates (feeWaiverUpserts v2 added.feeWaivers)
      pointsLedger := s.pointsLedger ++ ledgerRows v2 args added.outcome }
  counted.updateTransaction args.txnId fun txn =>
    { txn with
      expectedValueInr := some added.outcome.value
      expectedPoints := some added.outcome.native
      expectedCashbackInr := added.outcome.cashback
      cardStateV2 := added.record v2 }

/-- `applyTransactionV2(client, userId, v2, args)`. `rebuildCardState` is called where a planned cap has a
row of the first version. -/
def applyTransactionV2
    (rebuildCardState : UserCard → ℤ → List JsString → CardStates → CardStates) (v2 : UserCard)
    (args : ApplyArgs) : CardStates :=
  let undone := s.undo server now args.txnId
  let row := s.spendRow args
  let plan := capPlan server v2 (transactionContext row)
  let ready :=
    if undone.stale v2 plan then rebuildCardState v2 args.occurred [args.txnId] undone else undone
  ready.add server now v2 args (ready.additions server v2 args row plan)

/-- `reverseTransactionV2(client, userId, v2, args)`. -/
def reverseTransactionV2 (txnId : JsString) : CardStates :=
  let reversed := match s.recordOf txnId with
    | none => s
    | some record => s.reverseRecord server now record
  (reversed.updateTransaction txnId fun txn =>
    { txn with
      expectedValueInr := some 0
      expectedPoints := some 0
      expectedCashbackInr := txn.expectedCashbackInr.map fun _ => 0
      cardStateV2 := none }).withoutLedger txnId

end CardStates

end PandaPay.CardRewards
