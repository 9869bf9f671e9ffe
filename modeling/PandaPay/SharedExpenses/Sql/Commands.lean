import PandaPay.SharedExpenses.Sql.Schema

/-!
# Expenses and settlements in the database

`submit_proposal`, which records a revision of an expense with everybody whose part it touches, and
`respond_expense`, which records a reviewer's decision, both try to accept the revision;
`report_settlement`, with which a member reports a payment, and `respond_settlement`, with which its
receiver confirms or rejects it. What is accepted or confirmed is posted to the ledger: `_post_pair`
writes one journal line and carries it into the pair and member balances, the trigger
`_update_totals` follows the accepted head of an expense, and `_accept_revision` makes a revision the
head once everybody concerned has approved it. A payload is taken with its ids cast to `uuid`; the
shape of the other fields of a proposal (title, date, closed keys) is checked by neither of the
results here and left out.

## Main definitions

* `postPair`: `_post_pair`
* `updateTotals`: `_update_totals`
* `acceptRevision`: `_accept_revision`
* `Proposal`, `submitProposal`: `submit_proposal`
* `ExpenseResponse`, `respondExpense`: `respond_expense`
* `SettlementReport`, `reportSettlement`: `report_settlement`
* `SettlementResponse`, `respondSettlement`: `respond_settlement`
-/

namespace PandaPay.SharedExpenses.Sql

/-- The bound on balances and totals. -/
def maxMinor : ℕ := 9007199254740991

def invalidPair : SqlError := ⟨"invalid_pair", "22023"⟩

def aggregateLimitExceeded : SqlError := ⟨"aggregate_limit_exceeded", "22003"⟩

def revisionHeadConflict : SqlError := ⟨"revision_head_conflict", "40001"⟩

/-! ### Journal lines -/

/-- `INSERT INTO member_balances .. ON CONFLICT .. DO UPDATE`: add to a member's balance. -/
def addBalance (ctx member : Uuid) (amount : ℤ) (balances : InsertionMap (Uuid × Uuid) ℤ) :
    Sql (InsertionMap (Uuid × Uuid) ℤ) := do
  let balance := (balances.get? (ctx, member)).getD 0 + amount
  failIf (balance.natAbs > maxMinor) checkViolation
  return balances.set (ctx, member) balance

/-- Write a pair balance; a pair that is settled has no row. -/
def writePair (ctx low high : Uuid) (value : ℤ) (pairs : InsertionMap (Uuid × Uuid × Uuid) ℤ) :
    Sql (InsertionMap (Uuid × Uuid × Uuid) ℤ) :=
  if value = 0 then return pairs.erase (ctx, low, high)
  else do
    failIf (value.natAbs > maxMinor) checkViolation
    return pairs.set (ctx, low, high) value

/-- `_post_pair`: one line of an effect. -/
def postPair (members : InsertionMap (Uuid × Uuid) MemberRow) (ctx effect : Uuid) (line : ℕ)
    (low high : Uuid) (amount : ℤ) (kind : JournalKind) (origin : Uuid) (ledger : Ledger) :
    Sql Ledger := do
  failIf (low ≥ high ∨ amount = 0) invalidPair
  failIf (line > 399 ∨ amount.natAbs > maxMinor) checkViolation
  failIf ((ctx, low) ∉ members.keys ∨ (ctx, high) ∉ members.keys) foreignKeyViolation
  let journal ← insertRow ledger.journal (ctx, effect, line) ⟨low, high, amount, kind, origin⟩
  let value := (ledger.pairBalances.get? (ctx, low, high)).getD 0 + amount
  let pairBalances ← writePair ctx low high value ledger.pairBalances
  let memberBalances ← addBalance ctx low amount ledger.memberBalances
  let memberBalances ← addBalance ctx high (-amount) memberBalances
  return ⟨journal, pairBalances, memberBalances⟩

/-- `SELECT sum(abs(balance_minor)) FROM pair_balances WHERE context_id = ctx`. -/
def grossMinor (ledger : Ledger) (ctx : Uuid) : ℕ :=
  ledger.pairBalances.sum fun key value => if key.1 = ctx then value.natAbs else 0

/-! ### Totals -/

namespace Db

/-- The total of a revision, and whether it counts as an expense; nothing without a revision. -/
def headTotal (db : Db) (ctx : Uuid) (head : Option Uuid) : ℤ × ℤ :=
  match head.bind fun revision => db.revisions.get? (ctx, revision) with
  | some row => (row.totalMinor, if row.isVoid then 0 else 1)
  | none => (0, 0)

/-- What each member paid and shares in a revision. -/
def headShares (db : Db) (ctx : Uuid) (head : Option Uuid) : List (Uuid × (ℤ × ℤ)) :=
  match head with
  | some revision => (db.revisionRows ctx revision).map fun row =>
      (row.1, (row.2.paidMinor, row.2.shareMinor))
  | none => []

end Db

/-- Whether a total fits its column. -/
def fits (n : ℤ) : Bool := 0 ≤ n ∧ n ≤ maxMinor

/-- `UPDATE context_totals ..`, and `INSERT` where there is no row. -/
def addContextTotal (ctx : Uuid) (change : ℤ × ℤ) (totals : InsertionMap Uuid ContextTotal) :
    Sql (InsertionMap Uuid ContextTotal) := do
  let old := (totals.get? ctx).getD ⟨0, 0⟩
  let new : ContextTotal := ⟨old.totalMinor + change.1, old.expenseCount + change.2⟩
  failIf ((fits new.totalMinor && fits new.expenseCount) = false) checkViolation
  return totals.set ctx new

/-- `UPDATE member_totals ..`, and `INSERT` where there is no row. -/
def addMemberTotal (ctx : Uuid) (totals : InsertionMap (Uuid × Uuid) MemberTotal)
    (change : Uuid × (ℤ × ℤ)) : Sql (InsertionMap (Uuid × Uuid) MemberTotal) := do
  let old := (totals.get? (ctx, change.1)).getD ⟨0, 0⟩
  let new : MemberTotal := ⟨old.paidMinor + change.2.1, old.shareMinor + change.2.2⟩
  failIf ((fits new.paidMinor && fits new.shareMinor) = false) checkViolation
  return totals.set (ctx, change.1) new

/-- `_update_totals`: the trigger on a change of the accepted head. -/
def updateTotals (db : Db) (ctx : Uuid) (old new : Option Uuid) : Sql Totals := do
  if old = new then return db.totals
  else
    let contextTotals ← addContextTotal ctx (db.headTotal ctx new - db.headTotal ctx old)
      db.totals.contextTotals
    let changes := groupSums (db.headShares ctx new ++
      (db.headShares ctx old).map fun row => (row.1, -row.2))
    let memberTotals ← changes.foldlM (addMemberTotal ctx) db.totals.memberTotals
    return ⟨contextTotals, memberTotals⟩

/-! ### Acceptance -/

/-- What `_accept_revision` returns. -/
inductive Status where
  | accepted
  | awaitingApproval
  | awaitingActivation
  | awaitingSourceAuthorization
  deriving DecidableEq

/-- A projected edge with a sign, as the amount of its pair. -/
def signedEdge (sign : ℤ) (edge : Obligation) : (Uuid × Uuid) × ℤ :=
  ((min edge.debtorId edge.creditorId, max edge.debtorId edge.creditorId),
    edge.amountMinor * sign * if edge.creditorId < edge.debtorId then 1 else -1)

/-- The lines of an effect: the pair amounts of the new edges less those of the old ones. -/
def effectLines (new old : List Obligation) : List ((Uuid ×ₗ Uuid) × ℤ) :=
  (groupSums ((new.map (signedEdge 1) ++ old.map (signedEdge (-1))).map fun row =>
    (toLex row.1, row.2))).filter (·.2 ≠ 0)

/-- Post the lines of an effect, numbered from zero. -/
def postLines (members : InsertionMap (Uuid × Uuid) MemberRow) (ctx effect : Uuid)
    (kind : JournalKind) (origin : Uuid) (lines : List ((Uuid ×ₗ Uuid) × ℤ)) (ledger : Ledger) :
    Sql Ledger :=
  lines.zipIdx.foldlM (fun ledger line => postPair members ctx effect line.2
    (ofLex line.1.1).1 (ofLex line.1.1).2 line.1.2 kind origin ledger) ledger

namespace Db

/-- The edges of a revision of an expense; none without a revision. -/
def edgesOf (db : Db) (ctx expense : Uuid) (head : Option Uuid) : List Obligation :=
  match head.bind fun revision => db.revisions.get? (ctx, revision) with
  | some row => if row.expenseId = expense then row.projectedEdges else []
  | none => []

/-- Whether a member's reviewer has approved the revision with this hash. -/
def approved (db : Db) (profile ctx revision : Uuid) (hash : JsString)
    (row : Uuid × RevisionMemberRow) : Bool :=
  match db.reviewProfile profile ctx row.1 row.2.approverProfileId,
      db.approvals.get? (ctx, revision, row.1) with
  | some reviewer, some approval => approval.actorProfileId = reviewer ∧
      approval.revisionHash = hash ∧ approval.decision = .approve
  | _, _ => false

/-- `_accept_revision`, called by a profile. -/
def acceptRevision (db : Db) (profile ctx expense revision : Uuid) : Sql (Db × Status) := do
  match db.expenses.get? (ctx, expense), db.revisions.get? (ctx, revision) with
  | some e, some r =>
    failIf (r.expenseId ≠ expense) noDataFound
    if e.acceptedRevisionId = some revision then return (db, .accepted)
    else
      failIf (e.acceptedRevisionId ≠ r.expectedHeadRevisionId) revisionHeadConflict
      if (db.revisionRows ctx revision).any fun row =>
          row.2.approvalRequired && !db.approved profile ctx revision r.revisionHash row then
        return (db, .awaitingApproval)
      else if db.settings.acceptedWritesEnabled = false then return (db, .awaitingActivation)
      else if r.sourceLinks ≠ [] then return (db, .awaitingSourceAuthorization)
      else
        let lines := effectLines r.projectedEdges (db.edgesOf ctx expense e.acceptedRevisionId)
        let ledger ← postLines db.members ctx revision .revision revision lines db.ledger
        failIf (grossMinor ledger ctx > maxMinor) aggregateLimitExceeded
        failIf (e.headVersion + 1 > maxMinor) checkViolation
        let totals ← updateTotals db ctx e.acceptedRevisionId (some revision)
        let head := { e with
          acceptedRevisionId := some revision
          headVersion := e.headVersion + 1 }
        return ({ db with
          expenses := db.expenses.set (ctx, expense) head
          ledger := ledger
          totals := totals }, .accepted)
  | _, _ => .error noDataFound

end Db

/-! ### Proposals and responses -/

def invalidVoid : SqlError := ⟨"invalid_void", "22023"⟩

def contextMemberLimit : SqlError := ⟨"context_member_limit", "22023"⟩

def sourceOverallocated : SqlError := ⟨"source_overallocated", "22023"⟩

def revisionNotAuthorized : SqlError := ⟨"revision_not_authorized", "42501"⟩

def approvalConflict : SqlError := ⟨"approval_conflict", "55000"⟩

/-- The payload of `submit_proposal`, with the SHA-256 digest of its text. -/
structure Proposal where
  contextId : Uuid
  expenseId : Uuid
  revisionId : Uuid
  expectedHeadRevisionId : Option Uuid
  void : Bool
  snapshot : Json
  bill : Option Json
  sources : List SourceLink
  digest : JsString

/-- The payload of `respond_expense`. -/
structure ExpenseResponse where
  contextId : Uuid
  expenseId : Uuid
  revisionId : Uuid
  decision : Decision

/-- The contributors of a bill that has been validated. -/
def billPayers (bill : Option Json) : List Uuid :=
  match bill with
  | some bill => (bill.get "contributions").items.map fun row => stringOf (row.get "memberId")
  | none => []

/-- The projection of a proposal: nothing for a void. -/
def projectProposal (p : Proposal) : Sql Projection :=
  if p.void then do
    failIf (p.snapshot.isNull = false ∨ p.expectedHeadRevisionId = none ∨ p.sources ≠ []) invalidVoid
    return ⟨0, [], []⟩
  else projectSnapshot p.snapshot

/-- The part of a member in a projection. -/
def positionOf (projected : Projection) (member : Uuid) : Option Position :=
  projected.positions.find? (·.memberId = member)

/-- The row of `revision_members` for a member of the context, when the new revision, the previous
one or the bill involves the member. -/
def revisionMember (projected : Projection) (previous : Option RevisionMemberRow) (payers : List Uuid)
    (member : Uuid) (m : MemberRow) : Option RevisionMemberRow :=
  let position := positionOf projected member
  let paid := (position.map (·.paidMinor)).getD 0
  let share := (position.map (·.shareMinor)).getD 0
  if position.isSome || previous.isSome || payers.contains member then
    some {
      approverProfileId := m.profileId
      paidMinor := paid
      shareMinor := share
      approvalRequired := paid > 0 || share > 0 || (previous.map (·.paidMinor)).getD 0 > 0 ||
        (previous.map (·.shareMinor)).getD 0 > 0 || (previous.map (·.approvalRequired)).getD false ||
        payers.contains member }
  else none

namespace Db

/-- The checks on source links: the payer's own account, and no more than the payer paid. -/
def sourcesOverallocated (db : Db) (ctx : Uuid) (projected : Projection)
    (sources : List SourceLink) : Bool :=
  sources.any fun s =>
    ((db.members.get? (ctx, s.payerMemberId)).bind (·.profileId) ≠ some s.ownerAccountId : Bool) ||
      (((sources.filter (·.payerMemberId = s.payerMemberId)).map (·.amountMinor)).sum >
        ((positionOf projected s.payerMemberId).map (·.paidMinor)).getD 0 : Bool)

/-- The rows of `revision_members` of a proposal. -/
def proposalMembers (db : Db) (p : Proposal) (projected : Projection) :
    List ((Uuid × Uuid × Uuid) × RevisionMemberRow) :=
  db.members.entries.filterMap fun e =>
    if e.1.1 = p.contextId then
      let previous := p.expectedHeadRevisionId.bind fun head =>
        db.revisionMembers.get? (p.contextId, head, e.1.2)
      (revisionMember projected previous (billPayers p.bill) e.1.2 e.2).map fun row =>
        ((p.contextId, p.revisionId, e.1.2), row)
    else none

/-- `submit_proposal` up to the acceptance: the state with the revision recorded. -/
def recordProposal (db : Db) (profile : Uuid) (p : Proposal) : Sql Db := do
  db.actor profile
  db.requireProposals
  failIf (db.canReadContext profile p.contextId = false) contextNotAuthorized
  let _ ← db.lockContext p.contextId
  let projected ← projectProposal p
  match p.bill with
  | some bill =>
    failIf (p.void = true) invalidBill
    validateBill bill p.snapshot
    failIf ((billPayers p.bill).any fun id =>
      !db.memberIn p.contextId id [.active, .invited]) memberNotAuthorized
  | none => pure ()
  let old := (db.expenses.get? (p.contextId, p.expenseId)).getD ⟨profile, none, 0⟩
  failIf (old.acceptedRevisionId ≠ p.expectedHeadRevisionId) revisionHeadConflict
  failIf (db.countMembers p.contextId (fun _ => true) > 200) contextMemberLimit
  failIf (projected.positions.any fun row =>
    !db.memberIn p.contextId row.memberId [.active, .invited]) memberNotAuthorized
  failIf (db.sourcesOverallocated p.contextId projected p.sources = true) sourceOverallocated
  let revisions ← insertRow db.revisions (p.contextId, p.revisionId) {
    expenseId := p.expenseId
    authorProfileId := profile
    expectedHeadRevisionId := p.expectedHeadRevisionId
    revisionHash := p.digest
    totalMinor := projected.totalMinor
    isVoid := p.void
    sourceLinks := p.sources
    projectedEdges := projected.obligations }
  let rows := db.proposalMembers p projected
  let revisionMembers ← rows.foldlM (fun table row => insertRow table row.1 row.2)
    db.revisionMembers
  -- the author approves for the members that are the author's own, and for nobody else
  let own := rows.filter fun row => row.2.approverProfileId = some profile ∧ row.2.approvalRequired
  let approvals ← own.foldlM (fun table row =>
    insertRow table row.1 (⟨profile, p.digest, .approve⟩ : ApprovalRow)) db.approvals
  return { db with
    expenses := db.expenses.set (p.contextId, p.expenseId) old
    revisions := revisions
    revisionMembers := revisionMembers
    approvals := approvals }

/-- `submit_proposal`. -/
def submitProposal (db : Db) (profile : Uuid) (p : Proposal) : Sql (Db × Status) := do
  let recorded ← db.recordProposal profile p
  recorded.acceptRevision profile p.contextId p.expenseId p.revisionId

/-- The rows of a revision for which a profile decides. -/
def reviewedRows (db : Db) (profile ctx revision : Uuid) : List (Uuid × RevisionMemberRow) :=
  (db.revisionRows ctx revision).filter fun row => row.2.approvalRequired ∧
    db.reviewProfile profile ctx row.1 row.2.approverProfileId = some profile

/-- `respond_expense` up to the acceptance: the state with the decision recorded. -/
def recordResponse (db : Db) (profile : Uuid) (p : ExpenseResponse) : Sql Db := do
  db.actor profile
  db.requireProposals
  failIf (db.canReadContext profile p.contextId = false) contextNotAuthorized
  let _ ← db.lockContext p.contextId
  match db.revisions.get? (p.contextId, p.revisionId) with
  | some r =>
    failIf (r.expenseId ≠ p.expenseId) revisionNotAuthorized
    let rows := db.reviewedRows profile p.contextId p.revisionId
    failIf (rows = []) revisionNotAuthorized
    failIf (db.approvals.entries.any fun e => e.1.1 = p.contextId ∧ e.1.2.1 = p.revisionId ∧
      e.2.actorProfileId = profile ∧ e.2.decision ≠ p.decision) approvalConflict
    -- `ON CONFLICT DO NOTHING`: a decision that is there stays
    let approvals := rows.foldl (fun table row =>
      if (p.contextId, p.revisionId, row.1) ∈ table.keys then table
      else table.set (p.contextId, p.revisionId, row.1) ⟨profile, r.revisionHash, p.decision⟩)
      db.approvals
    return { db with approvals := approvals }
  | none => .error revisionNotAuthorized

/-- `respond_expense`. A rejection accepts nothing. -/
def respondExpense (db : Db) (profile : Uuid) (p : ExpenseResponse) : Sql Db := do
  let recorded ← db.recordResponse profile p
  match p.decision with
  | .reject => return recorded
  | .approve => do
    let (accepted, _) ← recorded.acceptRevision profile p.contextId p.expenseId p.revisionId
    return accepted

end Db

/-! ### Settlements -/

def invalidSettlement : SqlError := ⟨"invalid_settlement", "22023"⟩

def settlementMemberNotAuthorized : SqlError := ⟨"settlement_member_not_authorized", "42501"⟩

def receiverConfirmationRequired : SqlError := ⟨"receiver_confirmation_required", "42501"⟩

def settlementTerminalConflict : SqlError := ⟨"settlement_terminal_conflict", "55000"⟩

/-- The payload of `report_settlement`. -/
structure SettlementReport where
  contextId : Uuid
  settlementId : Uuid
  payerMemberId : Uuid
  receiverMemberId : Uuid
  amountMinor : ℕ

/-- The payload of `respond_settlement`; the id of the event is drawn at random. -/
structure SettlementResponse where
  contextId : Uuid
  settlementId : Uuid
  decision : SettlementKind
  eventId : Uuid

namespace Db

/-- Whether a member can be party to a new settlement: active, with an account. -/
def canSettle (db : Db) (ctx member : Uuid) : Bool :=
  match db.members.get? (ctx, member) with
  | some m => m.state = .active && m.profileId.isSome
  | none => false

/-- `report_settlement`. -/
def reportSettlement (db : Db) (profile : Uuid) (p : SettlementReport) : Sql Db := do
  db.actor profile
  db.requireProposals
  failIf (p.payerMemberId = p.receiverMemberId ∨ p.amountMinor = 0 ∨ p.amountMinor > 1000000000)
    invalidSettlement
  failIf (db.canReadContext profile p.contextId = false) contextNotAuthorized
  let _ ← db.lockContext p.contextId
  failIf ((db.canSettle p.contextId p.payerMemberId && db.canSettle p.contextId p.receiverMemberId) =
    false) settlementMemberNotAuthorized
  let reports ← insertRow db.reports (p.contextId, p.settlementId)
    ⟨profile, p.payerMemberId, p.receiverMemberId, p.amountMinor⟩
  return { db with reports := reports }

/-- The terminal event of a settlement. -/
def terminalEvent (db : Db) (ctx settlement : Uuid) : Option SettlementEventRow :=
  (db.settlementEvents.entries.find? fun e =>
    e.1.1 = ctx ∧ e.2.settlementId = settlement).map Prod.snd

/-- What a confirmation posts to the pair: the payment counts towards the payer. -/
def paymentAmount (report : ReportRow) : ℤ :=
  report.amountMinor * if report.payerMemberId ≤ report.receiverMemberId then 1 else -1

/-- The confirmation or rejection of a reported settlement that has no terminal event yet. -/
def closeSettlement (db : Db) (profile : Uuid) (p : SettlementResponse) (report : ReportRow) :
    Sql Db := do
  failIf (p.decision = .confirmed ∧
    (db.settings.acceptedWritesEnabled && db.settings.settlementsEnabled) = false) featureDisabled
  let events ← insertRow db.settlementEvents (p.contextId, p.eventId)
    ⟨p.settlementId, profile, p.decision, report.amountMinor⟩
  match p.decision with
  | .rejected => return { db with settlementEvents := events }
  | .confirmed => do
    let low := min report.payerMemberId report.receiverMemberId
    let high := max report.payerMemberId report.receiverMemberId
    let ledger ← postPair db.members p.contextId p.eventId 0 low high (paymentAmount report)
      .settlement p.settlementId db.ledger
    failIf (grossMinor ledger p.contextId > maxMinor) aggregateLimitExceeded
    return { db with
      settlementEvents := events
      ledger := ledger }

/-- `respond_settlement`. -/
def respondSettlement (db : Db) (profile : Uuid) (p : SettlementResponse) : Sql Db := do
  db.actor profile
  db.requireProposals
  failIf (db.canReadContext profile p.contextId = false) contextNotAuthorized
  let _ ← db.lockContext p.contextId
  match db.reports.get? (p.contextId, p.settlementId) with
  | none => .error receiverConfirmationRequired
  | some report =>
    failIf (db.anyMember p.contextId (fun id m => id = report.receiverMemberId ∧
      m.profileId = some profile ∧ m.state = .active) = false) receiverConfirmationRequired
    match db.terminalEvent p.contextId p.settlementId with
    | some old =>
      -- a repeated answer changes nothing
      failIf (old.kind ≠ p.decision) settlementTerminalConflict
      return db
    | none => db.closeSettlement profile p report

end Db

end PandaPay.SharedExpenses.Sql
