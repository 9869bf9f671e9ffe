import PandaPay.SharedExpenses.Sql.Schema

/-!
# Contexts and members in the database

The functions that create contexts and members and move members between states: `create_context`,
`invite_member`, `respond_membership`, `remove_member`, and of the invitations what they do to
members. An invitation (its token, phone number and expiry) is not modelled: binding and refusing
one are taken to be possible at any time, for any profile.

`leave_context`, `transfer_owner` and `take_over_ownership` each read the caller's row before they
ask for the lock on the context and do the rest while they hold the lock, so a call is two steps:
`begin` reads, and the waiting call that it returns is committed later, in whatever state the
schema is by then.

## Main definitions

* `createContext`, `inviteMember`, `respondMembership`, `removeMember`
* `bindInvitation`: `_bind_invitation`
* `claimGroupLink`, `refuseRequest`: requests to join through a group link, and their refusal
* `Call`: a call that waits for the lock, with what it has read
* `beginTransfer`, `beginTakeOver`, `beginLeave`: the reads
* `commitTransfer`, `commitTakeOver`, `commitLeave`: the part under the lock
-/

namespace PandaPay.SharedExpenses.Sql

def membershipNotAuthorized : SqlError := ⟨"membership_not_authorized", "42501"⟩

def contextMemberLimitReached : SqlError := ⟨"context_member_limit", "22023"⟩

def memberHasExpenses : SqlError := ⟨"member_has_expenses", "55000"⟩

def invitationConflict : SqlError := ⟨"invitation_conflict", "55000"⟩

namespace Db

/-- Insert a member under the unique keys of `members`: its id and, if it has one, its profile. -/
def insertMember (db : Db) (ctx member : Uuid) (row : MemberRow) :
    Sql (InsertionMap (Uuid × Uuid) MemberRow) := do
  failIf (row.profileId.isSome && (db.anyMember ctx fun _ m => m.profileId = row.profileId))
    uniqueViolation
  insertRow db.members (ctx, member) row

/-- `create_context`; the id of the first member is drawn at random. -/
def createContext (db : Db) (profile ctx : Uuid) (kind : ContextKind) (member : Uuid) : Sql Db := do
  db.actor profile
  db.requireProposals
  let contexts ← insertRow db.contexts ctx ⟨kind, profile, .active⟩
  let members ← db.insertMember ctx member ⟨some profile, .owner, .active⟩
  return { db with
    contexts := contexts
    members := members }

/-- `invite_member`: by the owner, perhaps for a profile. -/
def inviteMember (db : Db) (profile ctx member : Uuid) (target : Option Uuid) : Sql Db := do
  db.actor profile
  db.requireProposals
  failIf (db.isOwner ctx profile = false) contextNotAuthorized
  let context ← db.lockContext ctx
  failIf (db.countMembers ctx (fun _ => true) ≥ if context.kind = .direct then 2 else 200)
    contextMemberLimitReached
  failIf (target.any (· ∉ db.profiles)) membershipConflict
  let members ← (db.insertMember ctx member ⟨target, .member, .invited⟩).mapError
    fun _ => membershipConflict
  return { db with members := members }

/-- `respond_membership`: by the invited profile. -/
def respondMembership (db : Db) (profile ctx member : Uuid) (accept : Bool) : Sql Db := do
  db.actor profile
  db.requireProposals
  let _ ← db.lockContext ctx
  match db.members.get? (ctx, member) with
  | some m =>
    failIf (m.profileId ≠ some profile) membershipNotAuthorized
    failIf (m.state ≠ .invited) membershipConflict
    let row := { m with state := if accept then .active else .declined }
    return { db with members := db.members.set (ctx, member) row }
  | none => .error membershipNotAuthorized

/-- `_bind_invitation`: an invited member joins as `profile`. -/
def bindInvitation (db : Db) (profile ctx member : Uuid) : Sql Db := do
  db.actor profile
  db.requireProposals
  let _ ← db.lockContext ctx
  match db.members.get? (ctx, member) with
  | some m =>
    failIf (m.state ≠ .invited ∨ (m.profileId.isSome ∧ m.profileId ≠ some profile)) invitationConflict
    failIf (db.anyMember ctx fun id m => m.profileId = some profile ∧ id ≠ member) invitationConflict
    failIf (db.bindings.entries.any fun e => e.1.1 = ctx ∧ e.2 = profile) uniqueViolation
    let bindings ← (insertRow db.bindings (ctx, member) profile).mapError fun _ => invitationConflict
    let row := { m with
      profileId := some profile
      state := .active }
    return { db with
      bindings := bindings
      members := db.members.set (ctx, member) row }
  | none => .error noDataFound

/-- `_claim_group_link`: a request to join a group, as an invited member without a profile. -/
def claimGroupLink (db : Db) (profile ctx member : Uuid) : Sql Db := do
  db.actor profile
  db.requireProposals
  let context ← db.lockContext ctx
  failIf (context.kind ≠ .group) contextNotActive
  failIf (db.memberOf ctx profile).isSome membershipConflict
  failIf (db.countMembers ctx (fun m => m.state ≠ .declined) ≥ 200) contextMemberLimitReached
  let members ← db.insertMember ctx member ⟨none, .member, .invited⟩
  return { db with members := members }

/-- `respond_invitation` with a refusal: a request through the group link is declined. -/
def refuseRequest (db : Db) (profile ctx member : Uuid) : Sql Db := do
  db.actor profile
  db.requireProposals
  failIf (db.isOwner ctx profile = false) contextNotAuthorized
  let _ ← db.lockContext ctx
  match db.members.get? (ctx, member) with
  | some m =>
    if m.profileId = none ∧ m.state = .invited then
      return { db with members := db.members.set (ctx, member) { m with state := .declined } }
    else return db
  | none => return db

/-- `remove_member`: by the owner, of a member that has not joined and has no expense. -/
def removeMember (db : Db) (profile ctx member : Uuid) : Sql Db := do
  db.actor profile
  db.requireProposals
  failIf (db.isOwner ctx profile = false) contextNotAuthorized
  let _ ← db.lockContext ctx
  match db.members.get? (ctx, member) with
  | some m =>
    failIf (m.state ≠ .invited ∨ m.profileId ≠ none ∨ m.role = .owner) membershipConflict
    failIf (db.revisionMembers.entries.any fun e => e.1.1 = ctx ∧ e.1.2.2 = member) memberHasExpenses
    return { db with members := db.members.set (ctx, member) { m with state := .declined } }
  | none => .error membershipConflict

end Db

/-! ### Leaving and handing over a context -/

def ownerCannotLeave : SqlError := ⟨"owner_cannot_leave", "55000"⟩

def settleFirst : SqlError := ⟨"settle_first", "55000"⟩

def ownerStillPresent : SqlError := ⟨"owner_still_present", "55000"⟩

/-- A call of an ownership operation that waits for the lock. -/
inductive Call where
  /-- `transfer_owner(ctx, target)`, called by the owner. -/
  | transfer (profile ctx target : Uuid)
  /-- `take_over_ownership(ctx)`, with the id of the caller's member. -/
  | takeOver (profile ctx me : Uuid)
  /-- `leave_context(ctx)`, with the id and the role of the caller's member. -/
  | leave (profile ctx me : Uuid) (role : Role)
  deriving DecidableEq

namespace Db

/-- The reads of `transfer_owner`. -/
def beginTransfer (db : Db) (profile ctx target : Uuid) : Sql Call := do
  db.actor profile
  db.requireProposals
  failIf (db.isOwner ctx profile = false) contextNotAuthorized
  return .transfer profile ctx target

/-- The caller's active row. -/
def activeMember (db : Db) (ctx profile : Uuid) : Sql (Uuid × MemberRow) :=
  match db.memberOf ctx profile with
  | some m => do
    failIf (m.2.state ≠ .active) membershipNotAuthorized
    return m
  | none => .error membershipNotAuthorized

/-- The reads of `take_over_ownership`. -/
def beginTakeOver (db : Db) (profile ctx : Uuid) : Sql Call := do
  db.actor profile
  db.requireProposals
  let me ← db.activeMember ctx profile
  return .takeOver profile ctx me.1

/-- The reads of `leave_context`. -/
def beginLeave (db : Db) (profile ctx : Uuid) : Sql Call := do
  db.actor profile
  db.requireProposals
  let me ← db.activeMember ctx profile
  return .leave profile ctx me.1 me.2.role

/-- `UPDATE members SET role = role WHERE context_id = ctx AND ..`. -/
def setRole (db : Db) (ctx : Uuid) (role : Role) (p : Uuid → MemberRow → Bool) : Db :=
  { db with members := db.members.mapValues fun key m =>
      if key.1 = ctx ∧ p key.2 m then { m with role := role } else m }

/-- `transfer_owner` under the lock. That the caller is the owner is not checked again. -/
def commitTransfer (db : Db) (profile ctx target : Uuid) : Sql Db := do
  let _ ← db.lockContext ctx
  match db.members.get? (ctx, target) with
  | some t =>
    failIf (t.state ≠ .active ∨ t.profileId = none ∨ t.profileId = some profile) membershipConflict
    let db := db.setRole ctx .member fun _ m => m.profileId = some profile
    let db := db.setRole ctx .owner fun id _ => id = target
    -- the event names the caller, whose account has to be there still
    db.actor profile
    return db
  | none => .error membershipConflict

/-- `take_over_ownership` under the lock, when no owner with an account is left. -/
def commitTakeOver (db : Db) (profile ctx me : Uuid) : Sql Db := do
  let _ ← db.lockContext ctx
  failIf (db.anyMember ctx fun _ m => m.role = .owner ∧ m.state = .active ∧ m.profileId.isSome)
    ownerStillPresent
  let db := db.setRole ctx .member fun _ m => m.role = .owner
  let db := db.setRole ctx .owner fun id _ => id = me
  db.actor profile
  return db

/-- Whether a member has a part in an expense that has no accepted revision. -/
def hasUnaccepted (db : Db) (ctx member : Uuid) : Bool :=
  db.revisionMembers.entries.any fun e => e.1.1 = ctx && e.1.2.2 = member &&
    match db.revisions.get? (ctx, e.1.2.1) with
    | some r => (match db.expenses.get? (ctx, r.expenseId) with
      | some expense => expense.acceptedRevisionId.isNone
      | none => false)
    | none => false

/-- `leave_context` under the lock. The role is the one that was read before. -/
def commitLeave (db : Db) (profile ctx me : Uuid) (role : Role) : Sql Db := do
  let _ ← db.lockContext ctx
  failIf (role = .owner) ownerCannotLeave
  failIf ((db.ledger.memberBalances.get? (ctx, me)).getD 0 ≠ 0 ∨ db.hasUnaccepted ctx me = true)
    settleFirst
  db.actor profile
  return { db with members := db.members.mapValues fun key m =>
    if key = (ctx, me) then { m with state := .left } else m }

/-- A waiting call gets the lock. -/
def commit (db : Db) : Call → Sql Db
  | .transfer profile ctx target => db.commitTransfer profile ctx target
  | .takeOver profile ctx me => db.commitTakeOver profile ctx me
  | .leave profile ctx me role => db.commitLeave profile ctx me role

end Db

end PandaPay.SharedExpenses.Sql
