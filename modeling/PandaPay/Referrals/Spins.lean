import PandaPay.Referrals.Schema

/-!
# Spins

`commit_reward_spin`, which turns an entitlement into credit: the reservation is settled and the
amount drawn is issued, in one step under the lock on the campaign. A repeated call returns the
spin that was committed.

## Main definitions

* `SpinCall`: the arguments of a call
* `Db.award`: the credit of an amount to an account, with its ledger row
* `Db.commitRewardSpin`: `commit_reward_spin`
-/

namespace PandaPay.Referrals

/-- The arguments of `commit_reward_spin`, with the session, the clock and the ids drawn. -/
structure SpinCall where
  caller : Option Uuid
  now : Timestamp
  entitlementId : Uuid
  outcomeId : String
  amountPaise : ℤ
  spinId : Uuid
  ledgerEntryId : Uuid
  deriving DecidableEq

/-- What `commit_reward_spin` returns. -/
structure SpinResult where
  entitlementId : Uuid
  spinId : Uuid
  outcomeId : String
  amountPaise : ℤ
  ledgerEntryId : Option Uuid
  committedAt : Timestamp
  replayed : Bool

/-- Add to the credit of a profile. -/
def creditRow (user : Uuid) (amount : ℤ) (k : Uuid) (account : CreditAccountRow) :
    CreditAccountRow :=
  if k = user then ⟨account.availablePaise + amount, account.version + 1⟩ else account

namespace Db

/-- The spin of an entitlement. -/
def spinOf (db : Db) (entitlement : Uuid) : Option (Uuid × SpinRow) :=
  db.spins.entries.find? fun e => e.2.entitlementId = entitlement

/-- The ledger row of a spin. -/
def ledgerEntryOf (db : Db) (spin : Uuid) : Option Uuid :=
  (db.creditLedger.entries.find? fun e => e.2.sourceId = spin).map Prod.fst

/-- Whether the campaign offers this prize to the role. -/
def offersPrize (db : Db) (key : VersionKey) (role : Role) (outcome : String) (amount : ℤ) : Bool :=
  (db.versions.get? key).any fun version => (version.prizeDistribution.prizes role).any fun prize =>
    prize.id = outcome ∧ (prize.amountPaise : ℤ) = amount

/-- `UPDATE credit_accounts` for the account of a profile, opened if there is none. -/
def credit (db : Db) (user : Uuid) (amount : ℤ) : Db :=
  let db := db.openCreditAccount user
  { db with creditAccounts := db.creditAccounts.mapValues (creditRow user amount) }

/-- `INSERT INTO reward_spins`. -/
def insertSpin (db : Db) (id : Uuid) (row : SpinRow) : Sql Db := do
  failIf (db.spins.values.any (·.entitlementId = row.entitlementId) = true) .uniqueViolation
  let spins ← insertRow db.spins id row
  return { db with spins := spins }

/-- `INSERT INTO credit_ledger`. -/
def insertLedgerRow (db : Db) (id : Uuid) (row : CreditLedgerRow) : Sql Db := do
  failIf (db.creditLedger.values.any (·.idempotencyKey = row.idempotencyKey) = true)
    .uniqueViolation
  let ledger ← insertRow db.creditLedger id row
  return { db with creditLedger := ledger }

/-- The reservation is settled, its campaign issues the amount and the entitlement is claimed. -/
def settleReservation (db : Db) (c : SpinCall) (entitlement : EntitlementRow)
    (reservation : ReservationRow) : Db :=
  let key := (entitlement.attributionId, entitlement.beneficiaryRole)
  let db := { db with
    reservations := db.reservations.set key { reservation with state := .settled c.amountPaise } }
  let db := db.updateCampaign entitlement.campaignVersion fun state => { state with
    reservedPaise := state.reservedPaise - reservation.reservedPaise
    issuedPaise := state.issuedPaise + c.amountPaise }
  { db with
    entitlements := db.entitlements.set c.entitlementId { entitlement with state := .claimed } }

/-- Everything a new spin writes. A prize of zero completes the spin without a movement of money. -/
def settleSpin (db : Db) (c : SpinCall) (user : Uuid) (entitlement : EntitlementRow)
    (reservation : ReservationRow) : Sql Db := do
  let spin : SpinRow :=
    ⟨c.entitlementId, user, c.outcomeId, c.amountPaise, entitlement.campaignVersion, c.now⟩
  if 0 < c.amountPaise then
    let db ← (db.credit user c.amountPaise).insertSpin c.spinId spin
    let db ← db.insertLedgerRow c.ledgerEntryId
      ⟨user, c.amountPaise, c.spinId, "award:" ++ c.entitlementId⟩
    return db.settleReservation c entitlement reservation
  else
    let db ← db.insertSpin c.spinId spin
    return db.settleReservation c entitlement reservation

/-- The part for an entitlement without a spin. -/
def newSpin (db : Db) (c : SpinCall) (user : Uuid) (entitlement : EntitlementRow) :
    Sql (Db × Option SpinResult) := do
  failIf (entitlement.state = .held ∨
    (db.campaigns.get? entitlement.campaignVersion).any (·.fulfillmentPaused) = true) .rewardHeld
  failIf (entitlement.state ≠ .ready ∨
    ((db.attributions.get? entitlement.attributionId).bind (·.qualifiedAt)).isNone) .rewardNotReady
  failIf (c.amountPaise < 0 ∨ 50000 < c.amountPaise) .invalidRewardOutcome
  failIf (db.offersPrize entitlement.campaignVersion entitlement.beneficiaryRole c.outcomeId
    c.amountPaise = false) .invalidRewardOutcome
  match db.reservations.get? (entitlement.attributionId, entitlement.beneficiaryRole) with
  | none => .error .rewardReservationInvalid
  | some reservation =>
    failIf (reservation.state ≠ .reserved ∨ reservation.reservedPaise < c.amountPaise)
      .rewardReservationInvalid
    let db ← db.settleSpin c user entitlement reservation
    return (db, some
      { entitlementId := c.entitlementId
        spinId := c.spinId
        outcomeId := c.outcomeId
        amountPaise := c.amountPaise
        ledgerEntryId := if 0 < c.amountPaise then some c.ledgerEntryId else none
        committedAt := c.now
        replayed := false })

/-- `commit_reward_spin`. -/
def commitRewardSpin (db : Db) (c : SpinCall) : Sql (Db × Option SpinResult) :=
  match c.caller with
  | none => .error .membershipRequired
  | some user => do
    failIf (db.isMember (some user) = false) .membershipRequired
    match db.entitlements.get? c.entitlementId with
    | none => return (db, none)
    | some entitlement =>
      if entitlement.beneficiaryId ≠ user then return (db, none)
      else
        match db.spinOf c.entitlementId with
        | some (spinId, spin) =>
          return (db, some
            { entitlementId := c.entitlementId
              spinId := spinId
              outcomeId := spin.outcomeId
              amountPaise := spin.amountPaise
              ledgerEntryId := db.ledgerEntryOf spinId
              committedAt := spin.committedAt
              replayed := true })
        | none => db.newSpin c user entitlement

end Db

end PandaPay.Referrals
