import PandaPay.Referrals.Schema

/-!
# Engagement days

`record_engagement_day`, which records a day on which an invited profile was active and, once there
have been enough days in a row, qualifies the referral and grants both sides an entitlement. The
function chooses the attribution before it asks for the lock on the campaign, so a call is two
steps: `chooseAttribution` reads, and `recordDay` does the rest while it holds the lock.

## Main definitions

* `EngagementCall`: the arguments of a call
* `Db.chooseAttribution`, `Db.recordDay`: the two steps
* `Db.recordEngagementDay`: `record_engagement_day`
* `streaks`: the loop over the days
-/

namespace PandaPay.Referrals

/-- The arguments of `record_engagement_day`, with the session, the clock and the ids drawn. -/
structure EngagementCall where
  caller : Option Uuid
  now : Timestamp
  receiptId : String
  sourceAction : String
  serverActivityAt : Timestamp
  inviterEntitlementId : Uuid
  refereeEntitlementId : Uuid
  deriving DecidableEq

/-- What `record_engagement_day` returns. -/
inductive EngagementResult where
  | noActiveReferral
  | replayed (activityDate : Date) (progressDays requiredDays : ℕ) (qualified : Bool)
  | recorded (inserted : Bool) (activityDate : Date) (progressDays bestStreakDays requiredDays : ℕ)
      (qualified : Bool)

/-! ### Streaks -/

/-- The variables of the loop over the days: the day before, the run that ends there, the best. -/
structure Streaks where
  last : Option Date
  run : ℕ
  best : ℕ

def Streaks.step (s : Streaks) (day : Date) : Streaks :=
  let run := if s.last.any (day = · + 1) then s.run + 1 else 1
  ⟨some day, run, max s.best run⟩

/-- The loop over the distinct days, in order. -/
def streaks (days : List Date) : Streaks := days.foldl Streaks.step ⟨none, 0, 0⟩

/-- The run that is not over on the day `today`. -/
def Streaks.current (s : Streaks) (today : Date) : ℕ :=
  if s.last.any (today - 1 ≤ ·) then s.run else 0

/-- Record the streaks of an attribution. -/
def streakRow (attribution : Uuid) (current best : ℕ) (k : Uuid) (row : AttributionRow) :
    AttributionRow :=
  if k = attribution then { row with
    currentStreakDays := current
    bestStreakDays := max row.bestStreakDays best }
  else row

/-- Qualify an attribution that has not qualified. -/
def qualifyRow (attribution : Uuid) (time : Timestamp) (k : Uuid) (row : AttributionRow) :
    AttributionRow :=
  if k = attribution then
    if row.qualifiedAt = none then { row with qualifiedAt := some time } else row
  else row

@[simp] theorem qualifyRow_enrollment (attribution : Uuid) (time : Timestamp) (k : Uuid)
    (row : AttributionRow) : (qualifyRow attribution time k row).enrollment = row.enrollment := by
  unfold qualifyRow
  split_ifs <;> rfl

@[simp] theorem qualifyRow_disqualifiedAt (attribution : Uuid) (time : Timestamp) (k : Uuid)
    (row : AttributionRow) :
    (qualifyRow attribution time k row).disqualifiedAt = row.disqualifiedAt := by
  unfold qualifyRow
  split_ifs <;> rfl

/-- The streaks decide nothing by themselves. -/
theorem streakRow_eq (attribution : Uuid) (current best : ℕ) (k : Uuid) (row : AttributionRow) :
    (streakRow attribution current best k row).enrollment = row.enrollment ∧
      (streakRow attribution current best k row).qualifiedAt = row.qualifiedAt ∧
      (streakRow attribution current best k row).disqualifiedAt = row.disqualifiedAt := by
  unfold streakRow
  split_ifs <;> exact ⟨rfl, rfl, rfl⟩

theorem qualifyRow_self_qualifiedAt (attribution : Uuid) (time : Timestamp) (row : AttributionRow) :
    (qualifyRow attribution time attribution row).qualifiedAt ≠ none := by
  unfold qualifyRow
  rw [if_pos rfl]
  split_ifs with hnone
  · simp
  · exact hnone

namespace Db

/-- The attribution a profile can still qualify. -/
def activeAttribution (db : Db) (user : Uuid) : Option (Uuid × AttributionRow) :=
  db.attributions.entries.find? fun e =>
    e.2.refereeId = user ∧ e.2.enrollment.isSome ∧ e.2.qualifiedAt = none ∧ e.2.disqualifiedAt = none

/-- The reads before the lock: the checks, and the attribution. -/
def chooseAttribution (db : Db) (c : EngagementCall) : Sql (Option (Uuid × Uuid)) :=
  match c.caller with
  | none => .error .membershipRequired
  | some user => do
    failIf (db.isMember (some user) = false) .membershipRequired
    failIf (c.receiptId.length < 16 ∨ 120 < c.receiptId.length ∨
      c.sourceAction ∉ ["home_summary", "card_action", "transaction_action"] ∨
      c.now + seconds 30 < c.serverActivityAt) .activityReceiptInvalid
    return (db.activeAttribution user).map fun e => (user, e.1)

/-- `INSERT INTO engagement_days .. ON CONFLICT DO NOTHING`, and whether it inserted. -/
def insertDay (db : Db) (receipt : String) (row : EngagementDayRow) : Db × Bool :=
  if receipt ∈ db.engagementDays.keys ∨ db.engagementDays.values.any (fun day =>
      day.profileId = row.profileId ∧ day.campaignVersion = row.campaignVersion ∧
        day.localDate = row.localDate) = true then (db, false)
  else ({ db with engagementDays := db.engagementDays.set receipt row }, true)

/-- The distinct days of a profile within its window, in order. -/
def daysOf (db : Db) (user : Uuid) (attr : AttributionRow) (e : Enrollment) : List Date :=
  ((db.engagementDays.values.filter fun day => day.profileId = user ∧
      day.campaignVersion = e.campaignVersion ∧ attr.joinedAt ≤ day.serverActivityAt ∧
        day.serverActivityAt < e.deadlineAt).map EngagementDayRow.localDate).dedup.insertionSort
    (· ≤ ·)

/-- `UPDATE referral_attributions` with the streaks of an attribution. -/
def updateStreaks (db : Db) (attribution : Uuid) (current best : ℕ) : Db :=
  { db with attributions := db.attributions.mapValues (streakRow attribution current best) }

/-- `INSERT INTO reward_entitlements .. ON CONFLICT (attribution_id, beneficiary_role) DO NOTHING`. -/
def insertEntitlement (db : Db) (id : Uuid) (row : EntitlementRow) : Sql Db :=
  if db.entitlements.values.any (fun old => old.attributionId = row.attributionId ∧
      old.beneficiaryRole = row.beneficiaryRole) = true then return db
  else do
    let entitlements ← insertRow db.entitlements id row
    return { db with entitlements := entitlements }

/-- The referral is qualified and both sides earn an entitlement, held while the campaign is
paused. -/
def qualify (db : Db) (c : EngagementCall) (attribution : Uuid) (attr : AttributionRow)
    (e : Enrollment) (paused : Bool) : Sql Db := do
  let state := if paused then .held else .ready
  let db := { db with
    attributions := db.attributions.mapValues (qualifyRow attribution c.serverActivityAt) }
  let db ← db.insertEntitlement c.inviterEntitlementId
    ⟨attribution, attr.inviterId, .inviter, e.campaignVersion, state⟩
  db.insertEntitlement c.refereeEntitlementId
    ⟨attribution, attr.refereeId, .referee, e.campaignVersion, state⟩

/-- Record the streaks of an attribution; it qualifies if the best is long enough and it has not
qualified before. -/
def applyStreaks (db : Db) (c : EngagementCall) (attribution : Uuid) (attr : AttributionRow)
    (e : Enrollment) (requiredDays : ℕ) (paused : Bool) (days : Streaks) : Sql Db :=
  let db := db.updateStreaks attribution (days.current (localDate c.now)) days.best
  if requiredDays ≤ days.best ∧ attr.qualifiedAt = none then db.qualify c attribution attr e paused
  else .ok db

/-- The part for a receipt that has not been recorded. -/
def recordReceipt (db : Db) (c : EngagementCall) (user attribution : Uuid) (attr : AttributionRow)
    (e : Enrollment) (version : CampaignVersion) : Sql (Db × EngagementResult) := do
  let paused := (db.campaigns.get? e.campaignVersion).any (·.fulfillmentPaused)
  let date := localDate c.serverActivityAt
  let (db, inserted) := db.insertDay c.receiptId
    ⟨user, e.campaignVersion, date, c.serverActivityAt, c.sourceAction⟩
  let days := streaks (db.daysOf user attr e)
  let db ← db.applyStreaks c attribution attr e version.requiredConsecutiveDays paused days
  let reached : Bool := version.requiredConsecutiveDays ≤ days.best
  return (db, .recorded inserted date
    (if reached then version.requiredConsecutiveDays else days.current (localDate c.now)) days.best
    version.requiredConsecutiveDays reached)

/-- The part under the lock. The attribution is read again, but not whether it can still qualify. -/
def recordDay (db : Db) (c : EngagementCall) (user attribution : Uuid) :
    Sql (Db × EngagementResult) :=
  match db.attributions.get? attribution with
  | none => .error .notNullViolation
  | some attr =>
    match attr.enrollment with
    | none => .error .notNullViolation
    | some e =>
      match db.versions.get? e.campaignVersion with
      | none => .error .notNullViolation
      | some version => do
        failIf (c.serverActivityAt < attr.joinedAt ∨ e.deadlineAt ≤ c.serverActivityAt)
          .activityOutsideWindow
        match db.engagementDays.get? c.receiptId with
        | some day =>
          failIf (day.profileId ≠ user) .activityReceiptInvalid
          return (db, .replayed (localDate c.serverActivityAt) attr.currentStreakDays
            version.requiredConsecutiveDays attr.qualifiedAt.isSome)
        | none => db.recordReceipt c user attribution attr e version

/-- `record_engagement_day` as one step. -/
def recordEngagementDay (db : Db) (c : EngagementCall) : Sql (Db × EngagementResult) := do
  match ← db.chooseAttribution c with
  | none => return (db, .noActiveReferral)
  | some (user, attribution) => db.recordDay c user attribution

end Db

end PandaPay.Referrals
