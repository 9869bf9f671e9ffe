import PandaPay.SharedExpenses.Sql.Snapshot

/-!
# The shared-expense schema

The tables of the schema `shared_expenses` that its functions read, each a map from primary key to
row. Ids are the canonical texts of `uuid`s, whose order is that of the type.

Not modelled: operation receipts, by which a repeated call returns its first result and has no
effect; the event feeds, which nothing here reads; and the tables that are only ever written
(`obligation_edges`, `private_cost_facts`, `settlement_allocations`).

## Main definitions

* `Db`: a state of the schema
* `insertRow`: insertion under a primary key
* `canReadContext`, `reviewProfile`: who is a member, and who reviews for one
-/

namespace PandaPay.SharedExpenses.Sql

/-- The canonical text of a `uuid`. -/
abbrev Uuid := JsString

/-! ### Rows -/

/-- The feature flags of the table `settings`. -/
structure Settings where
  readsEnabled : Bool
  proposalsEnabled : Bool
  acceptedWritesEnabled : Bool
  settlementsEnabled : Bool

inductive ContextKind where
  | group
  | direct
  deriving DecidableEq

inductive ContextState where
  | active
  | archived
  deriving DecidableEq

structure ContextRow where
  kind : ContextKind
  createdBy : Uuid
  state : ContextState

inductive Role where
  | owner
  | member
  deriving DecidableEq

inductive MemberState where
  | invited
  | active
  | declined
  | left
  | erased
  deriving DecidableEq

structure MemberRow where
  profileId : Option Uuid
  role : Role
  state : MemberState

structure ExpenseRow where
  createdBy : Uuid
  acceptedRevisionId : Option Uuid
  headVersion : ℕ

/-- A source link of a proposal: how much of a payer's part a transaction funds. -/
structure SourceLink where
  payerMemberId : Uuid
  amountMinor : ℕ
  ownerAccountId : Uuid

structure RevisionRow where
  expenseId : Uuid
  authorProfileId : Uuid
  expectedHeadRevisionId : Option Uuid
  revisionHash : JsString
  totalMinor : ℕ
  isVoid : Bool
  sourceLinks : List SourceLink
  projectedEdges : List Obligation

structure RevisionMemberRow where
  approverProfileId : Option Uuid
  paidMinor : ℕ
  shareMinor : ℕ
  approvalRequired : Bool

inductive Decision where
  | approve
  | reject
  deriving DecidableEq

structure ApprovalRow where
  actorProfileId : Uuid
  revisionHash : JsString
  decision : Decision

structure ReportRow where
  reporterProfileId : Uuid
  payerMemberId : Uuid
  receiverMemberId : Uuid
  amountMinor : ℕ

inductive SettlementKind where
  | confirmed
  | rejected
  deriving DecidableEq

structure SettlementEventRow where
  settlementId : Uuid
  actorProfileId : Uuid
  kind : SettlementKind
  amountMinor : ℕ

inductive JournalKind where
  | revision
  | settlement
  deriving DecidableEq

structure JournalRow where
  lowMemberId : Uuid
  highMemberId : Uuid
  balanceMinor : ℤ
  kind : JournalKind
  originId : Uuid

structure ContextTotal where
  totalMinor : ℤ
  expenseCount : ℤ

structure MemberTotal where
  paidMinor : ℤ
  shareMinor : ℤ

/-! ### Tables -/

/-- The tables `journal_entries`, by context, effect and line; `pair_balances`, by context, low and
high member; and `member_balances`, by context and member. -/
structure Ledger where
  journal : InsertionMap (Uuid × Uuid × ℕ) JournalRow
  pairBalances : InsertionMap (Uuid × Uuid × Uuid) ℤ
  memberBalances : InsertionMap (Uuid × Uuid) ℤ

/-- The tables `context_totals` and `member_totals`. -/
structure Totals where
  contextTotals : InsertionMap Uuid ContextTotal
  memberTotals : InsertionMap (Uuid × Uuid) MemberTotal

/-- A state of the schema. A key starts with the context wherever there is one. -/
structure Db where
  settings : Settings
  /-- The ids of `public.profiles`. -/
  profiles : List Uuid
  contexts : InsertionMap Uuid ContextRow
  members : InsertionMap (Uuid × Uuid) MemberRow
  /-- `member_identity_bindings`: the profile bound to a member. -/
  bindings : InsertionMap (Uuid × Uuid) Uuid
  expenses : InsertionMap (Uuid × Uuid) ExpenseRow
  revisions : InsertionMap (Uuid × Uuid) RevisionRow
  /-- `revision_members`, by context, revision and member. -/
  revisionMembers : InsertionMap (Uuid × Uuid × Uuid) RevisionMemberRow
  /-- `revision_approvals`, by context, revision and member. -/
  approvals : InsertionMap (Uuid × Uuid × Uuid) ApprovalRow
  reports : InsertionMap (Uuid × Uuid) ReportRow
  /-- `settlement_events`, by context and event. -/
  settlementEvents : InsertionMap (Uuid × Uuid) SettlementEventRow
  ledger : Ledger
  totals : Totals

/-- The schema after its migrations: one row of settings, all of them off. -/
def Db.initial : Db where
  settings := ⟨false, false, false, false⟩
  profiles := []
  contexts := .empty
  members := .empty
  bindings := .empty
  expenses := .empty
  revisions := .empty
  revisionMembers := .empty
  approvals := .empty
  reports := .empty
  settlementEvents := .empty
  ledger := ⟨.empty, .empty, .empty⟩
  totals := ⟨.empty, .empty⟩

/-! ### Exceptions -/

def uniqueViolation : SqlError := ⟨"unique_violation", "23505"⟩

def foreignKeyViolation : SqlError := ⟨"foreign_key_violation", "23503"⟩

def checkViolation : SqlError := ⟨"check_violation", "23514"⟩

/-- What `INTO STRICT` raises when there is no row. -/
def noDataFound : SqlError := ⟨"query returned no rows", "P0002"⟩

def authenticationRequired : SqlError := ⟨"authentication_required", "42501"⟩

def featureDisabled : SqlError := ⟨"feature_disabled", "55000"⟩

def contextNotAuthorized : SqlError := ⟨"context_not_authorized", "42501"⟩

def contextNotActive : SqlError := ⟨"context_not_active", "55000"⟩

def membershipConflict : SqlError := ⟨"membership_conflict", "23505"⟩

def memberNotAuthorized : SqlError := ⟨"member_not_authorized", "42501"⟩

/-! ### Statements the functions share -/

/-- `INSERT INTO table`: a row under a new key. -/
def insertRow {κ ν : Type} [DecidableEq κ] (table : InsertionMap κ ν) (key : κ) (row : ν) :
    Sql (InsertionMap κ ν) := do
  failIf (key ∈ table.keys) uniqueViolation
  return table.set key row

namespace Db

/-- `_actor`. -/
def actor (db : Db) (profile : Uuid) : Sql Unit :=
  failIf (profile ∉ db.profiles) authenticationRequired

/-- `_require_proposals`. -/
def requireProposals (db : Db) : Sql Unit :=
  failIf ((db.settings.readsEnabled && db.settings.proposalsEnabled) = false) featureDisabled

/-- `SELECT .. FROM contexts WHERE context_id = ctx AND state = 'active' FOR UPDATE`. -/
def lockContext (db : Db) (ctx : Uuid) : Sql ContextRow :=
  match db.contexts.get? ctx with
  | some row => do
    failIf (row.state ≠ .active) contextNotActive
    return row
  | none => .error contextNotActive

/-- `SELECT .. FROM members WHERE context_id = ctx AND profile_id = profile`. -/
def memberOf (db : Db) (ctx profile : Uuid) : Option (Uuid × MemberRow) :=
  (db.members.entries.find? fun e => e.1.1 = ctx ∧ e.2.profileId = some profile).map fun e =>
    (e.1.2, e.2)

/-- `EXISTS(SELECT FROM members WHERE context_id = ctx AND ..)`. -/
def anyMember (db : Db) (ctx : Uuid) (p : Uuid → MemberRow → Bool) : Bool :=
  db.members.entries.any fun e => e.1.1 = ctx && p e.1.2 e.2

/-- `(SELECT count(*) FROM members WHERE context_id = ctx AND ..)`. -/
def countMembers (db : Db) (ctx : Uuid) (p : MemberRow → Bool) : ℕ :=
  db.members.entries.countP fun e => e.1.1 = ctx && p e.2

/-- Whether the profile is the active owner of the context. -/
def isOwner (db : Db) (ctx profile : Uuid) : Bool :=
  db.anyMember ctx fun _ m => m.profileId = some profile ∧ m.role = .owner ∧ m.state = .active

/-- Whether the member is in one of these states. -/
def memberIn (db : Db) (ctx member : Uuid) (states : List MemberState) : Bool :=
  match db.members.get? (ctx, member) with
  | some m => m.state ∈ states
  | none => false

/-- `_can_read_context`. -/
def canReadContext (db : Db) (profile ctx : Uuid) : Bool :=
  db.settings.readsEnabled &&
    db.anyMember ctx fun _ m => m.profileId = some profile ∧ m.state = .active

/-- The profile bound to a member, if it is still the member's and active. -/
def boundProfile (db : Db) (ctx member : Uuid) : Option Uuid :=
  match db.bindings.get? (ctx, member), db.members.get? (ctx, member) with
  | some p, some m => if m.profileId = some p ∧ m.state = .active then some p else none
  | _, _ => none

/-- `_review_profile`: who reviews for a member, as the calling profile sees it. -/
def reviewProfile (db : Db) (profile ctx member : Uuid) (frozen : Option Uuid) : Option Uuid :=
  if db.canReadContext profile ctx then frozen.or (db.boundProfile ctx member) else none

/-- The rows of `revision_members` of a revision, with their members. -/
def revisionRows (db : Db) (ctx revision : Uuid) : List (Uuid × RevisionMemberRow) :=
  (db.revisionMembers.entries.filter fun e => e.1.1 = ctx ∧ e.1.2.1 = revision).map fun e =>
    (e.1.2.2, e.2)

end Db

end PandaPay.SharedExpenses.Sql
