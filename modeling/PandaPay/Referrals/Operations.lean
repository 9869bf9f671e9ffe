import PandaPay.Referrals.Schema

/-!
# Operations

`expire_referral_reservations`, with which the worker releases the reservations of referrals whose
time is over, and `set_admin_referral_hold`, with which an operator pauses parts of the programme
and lifts the pause again.

## Main definitions

* `ExpiryCall`, `Db.expireReferralReservations`: `expire_referral_reservations`
* `HoldCall`, `Db.setAdminReferralHold`: `set_admin_referral_hold`
-/

namespace PandaPay.Referrals

/-! ### Expiry -/

/-- The arguments of `expire_referral_reservations`, with the clock and the attributions that are
skipped since others have locked them. -/
structure ExpiryCall where
  now : Timestamp
  limit : ℕ
  locked : List Uuid

/-- What `expire_referral_reservations` returns. -/
structure ExpiryResult where
  processed : ℕ
  releasedPaise : ℤ

/-- Release what is reserved for an attribution. -/
def releaseRow (attribution : Uuid) (k : Uuid × Role) (row : ReservationRow) : ReservationRow :=
  if k.1 = attribution ∧ row.state = .reserved then { row with state := .released } else row

/-- Disqualify an attribution that has not qualified. -/
def disqualifyRow (attribution : Uuid) (now : Timestamp) (k : Uuid) (row : AttributionRow) :
    AttributionRow :=
  if k = attribution ∧ row.disqualifiedAt = none ∧ row.qualifiedAt = none then { row with
    disqualifiedAt := some now
    disqualificationReason := some "qualification_window_expired"
    currentStreakDays := 0 }
  else row

namespace Db

/-- Whether an attribution has not qualified in time, the lifetime of receipts included. -/
def isOverdue (db : Db) (now : Timestamp) (attr : AttributionRow) : Bool :=
  match attr.enrollment with
  | some e => attr.qualifiedAt = none && attr.disqualifiedAt = none &&
      (db.versions.get? e.campaignVersion).any fun version =>
        e.deadlineAt + seconds version.receiptLifetimeSeconds ≤ now
  | none => false

/-- The campaigns with overdue attributions, in order. -/
def overdueCampaigns (db : Db) (now : Timestamp) : List VersionKey :=
  ((db.attributions.values.filter (db.isOverdue now)).filterMap fun attr =>
    attr.enrollment.map Enrollment.campaignVersion).dedup.insertionSort (· ≤ ·)

/-- The overdue attributions of a campaign that are not locked, in order. -/
def overdueAttributions (db : Db) (c : ExpiryCall) (key : VersionKey) : List Uuid :=
  ((db.attributions.entries.filter fun e => db.isOverdue c.now e.2 &&
    (e.2.enrollment.map Enrollment.campaignVersion = some key) && !(e.1 ∈ c.locked)).map
      Prod.fst).insertionSort (· ≤ ·)

/-- `SELECT coalesce(sum(reserved_paise), 0) FROM reward_reservations ..`. -/
def reservedFor (db : Db) (attribution : Uuid) : ℤ :=
  db.reservations.sum fun k row =>
    if k.1 = attribution ∧ row.state = ReservationState.reserved then row.reservedPaise else 0

/-- The body of the loop over the attributions of a campaign. -/
def expireAttribution (now : Timestamp) (key : VersionKey) (state : Db × ExpiryResult)
    (attribution : Uuid) : Db × ExpiryResult :=
  let db := state.1
  let release := db.reservedFor attribution
  let db := { db with reservations := db.reservations.mapValues (releaseRow attribution) }
  let db := if 0 < release then
      db.updateCampaign key fun state => { state with reservedPaise := state.reservedPaise - release }
    else db
  let db := { db with attributions := db.attributions.mapValues (disqualifyRow attribution now) }
  (db, ⟨state.2.processed + 1, state.2.releasedPaise + max release 0⟩)

/-- The body of the loop over the campaigns. -/
def expireCampaign (c : ExpiryCall) (state : Db × ExpiryResult) (key : VersionKey) :
    Db × ExpiryResult :=
  if c.limit ≤ state.2.processed ∨ key ∉ state.1.campaigns.keys then state
  else
    ((state.1.overdueAttributions c key).take (c.limit - state.2.processed)).foldl
      (expireAttribution c.now key) state

/-- `expire_referral_reservations`. -/
def expireReferralReservations (db : Db) (c : ExpiryCall) : Sql (Db × ExpiryResult) := do
  failIf (c.limit < 1 ∨ 500 < c.limit) .invalidExpiryLimit
  return (db.overdueCampaigns c.now).foldl (expireCampaign c) (db, ⟨0, 0⟩)

end Db

/-! ### Holds -/

/-- The arguments of `set_admin_referral_hold`, and whether the session is an administrator's. -/
structure HoldCall where
  isAdmin : Bool
  scope : HoldScope
  paused : Bool
  reason : String

/-- What `set_admin_referral_hold` returns. -/
structure HoldResult where
  target : String
  before : Setting
  after : Setting

/-- The switch of a campaign that a scope is about. -/
def CampaignState.switch (state : CampaignState) : HoldScope → Bool
  | .enrollment => state.enrollmentOpen
  | .fulfillment => state.fulfillmentPaused
  | _ => state.redemptionPaused

/-- Set the switch a scope is about. -/
def CampaignState.withSwitch (state : CampaignState) (value : Bool) : HoldScope → CampaignState
  | .enrollment => { state with enrollmentOpen := value }
  | .fulfillment => { state with fulfillmentPaused := value }
  | .redemption => { state with redemptionPaused := value }
  | .admission => state

/-- The setting of a scope while a hold is on. -/
def HoldScope.pausedSetting : HoldScope → Setting
  | .admission => .mode .pausedNew
  | .enrollment => .flag false
  | _ => .flag true

namespace Db

/-- What a scope is about now, and its setting. -/
def currentSetting (db : Db) : HoldScope → Sql (String × Setting)
  | .admission => return ("global", .mode db.settings.admissionMode)
  | scope =>
    match db.settings.activeCampaignVersion with
    | none => .error .campaignUnavailable
    | some key =>
      match db.campaigns.get? key with
      | none => .error .campaignUnavailable
      | some state => return (key, .flag (state.switch scope))

/-- Write a setting. The stored setting of a hold has the kind of its scope. -/
def writeSetting (db : Db) (scope : HoldScope) (target : String) : Setting → Sql Db
  | .mode admissionMode =>
    if scope = .admission then
      return { db with settings := { db.settings with admissionMode := admissionMode } }
    else .error .notNullViolation
  | .flag value =>
    if scope = .admission then .error .notNullViolation
    else return db.updateCampaign target fun state => state.withSwitch value scope

/-- `INSERT INTO referral_operator_holds .. ON CONFLICT .. DO UPDATE`. -/
def putHold (db : Db) (scope : HoldScope) (target : String) (hold : HoldRow) : Db :=
  { db with holds := db.holds.set (scope, target) hold }

/-- The setting to return to: a hold that is on keeps the setting from before it. -/
def originalSetting (db : Db) (scope : HoldScope) (target : String) (current : Setting) : Setting :=
  match db.holds.get? (scope, target) with
  | some hold => if hold.active then hold.originalState else current
  | none => current

/-- `set_admin_referral_hold`. -/
def setAdminReferralHold (db : Db) (c : HoldCall) : Sql (Db × HoldResult) := do
  failIf (c.isAdmin = false) .adminRequired
  failIf ((btrim c.reason).length < 10 ∨ 500 < (btrim c.reason).length) .invalidReferralHold
  let (target, current) ← db.currentSetting c.scope
  if c.paused then
    let db := db.putHold c.scope target ⟨db.originalSetting c.scope target current, true⟩
    let db ← db.writeSetting c.scope target c.scope.pausedSetting
    return (db, ⟨target, current, c.scope.pausedSetting⟩)
  else
    match db.holds.get? (c.scope, target) with
    | none => .error .referralHoldNotActive
    | some hold =>
      failIf (hold.active = false) .referralHoldNotActive
      let db ← db.writeSetting c.scope target hold.originalState
      return (db.putHold c.scope target { hold with active := false },
        ⟨target, current, hold.originalState⟩)

end Db

end PandaPay.Referrals
