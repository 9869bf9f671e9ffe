import PandaPay.Library.Checked
import PandaPay.Library.InsertionMap

/-!
# The referral schema

The tables of the schema `promotions` that the referral functions read, each a map from primary key
to row. Ids are the canonical texts of `uuid`s; instants are in microseconds.

Not modelled: contact details, consents and accepted terms, which are only ever written; the audit
log; and the outbox of notifications, which nothing here reads.

## Main definitions

* `Distribution`: the prizes of a campaign, which satisfy `distribution_is_valid`
* `Db`: a state of the schema
* `insertRow`: insertion under a primary key
* `accessState`, `isMember`: whether a profile may use the product
-/

namespace PandaPay.Referrals

/-- The canonical text of a `uuid`. -/
abbrev Uuid := String

/-- The key of a version of a campaign. -/
abbrev VersionKey := String

/-- Microseconds since the epoch. -/
abbrev Timestamp := ℤ

/-- Days since the epoch. -/
abbrev Date := ℤ

def seconds (n : ℤ) : ℤ := n * 1000000

/-- The date in the zone `Asia/Kolkata`, the only one a campaign may have. -/
def localDate (t : Timestamp) : Date := (t + seconds 19800) / seconds 86400

/-! ### Campaigns -/

/-- `beneficiary_role`. -/
inductive Role where
  | inviter
  | referee
  deriving DecidableEq

structure Prize where
  id : String
  amountPaise : ℕ
  weight : ℕ
  deriving DecidableEq

/-- What `distribution_is_valid` asks of the prizes of one role. -/
def prizesValid (prizes : List Prize) : Bool :=
  prizes ≠ [] && (prizes.map Prize.id).Nodup &&
    (prizes.all fun p => 1 ≤ p.id.length && p.id.length ≤ 80 && 0 < p.weight &&
      p.amountPaise ≤ 50000) && (prizes.map Prize.weight).sum ≤ 2147483647

/-- `prize_distribution`. -/
structure Distribution where
  prizes : Role → List Prize
  valid : ∀ role, prizesValid (prizes role) = true

/-- `max_prize_paise`. -/
def Distribution.maxPrizePaise (d : Distribution) (role : Role) : ℤ :=
  (((d.prizes role).map Prize.amountPaise).foldr max 0 : ℕ)

theorem Distribution.maxPrizePaise_nonneg (d : Distribution) (role : Role) :
    0 ≤ d.maxPrizePaise role := Int.natCast_nonneg _

/-- A row of `campaign_versions`. -/
structure CampaignVersion where
  requiredConsecutiveDays : ℕ
  qualificationWindowDays : ℕ
  receiptLifetimeSeconds : ℕ
  termsVersion : String
  inviterCapEnrollments : Option ℕ
  prizeDistribution : Distribution

/-- A row of `campaign_state`. -/
structure CampaignState where
  enrollmentOpen : Bool
  fulfillmentPaused : Bool
  redemptionPaused : Bool
  totalBudgetPaise : ℤ
  issuedPaise : ℤ
  reservedPaise : ℤ
  enrollmentCap : Option ℕ
  enrollmentCount : ℕ

/-! ### Access -/

inductive AdmissionMode where
  | open
  | inviteOnly
  | pausedNew
  deriving DecidableEq

/-- The row of `access_settings`. -/
structure AccessSettings where
  admissionMode : AdmissionMode
  activeCampaignVersion : Option VersionKey

inductive MemberState where
  | active
  | suspended
  deriving DecidableEq

inductive AdmissionSource where
  | legacy
  | invite
  | open
  | operator
  deriving DecidableEq

structure MembershipRow where
  state : MemberState
  admissionSource : AdmissionSource

/-- A row of `public.profiles`. -/
structure ProfileRow where
  onboardingCompletedAt : Option Timestamp

structure InvitationCodeRow where
  ownerProfileId : Uuid
  active : Bool

/-! ### Referrals and rewards -/

/-- The columns `campaign_version` and `deadline_at` of an attribution, which both are there exactly
when it is `reward_eligible`. -/
structure Enrollment where
  campaignVersion : VersionKey
  deadlineAt : Timestamp
  deriving DecidableEq

structure AttributionRow where
  inviterId : Uuid
  refereeId : Uuid
  invitationCode : String
  joinedAt : Timestamp
  enrollment : Option Enrollment
  ineligibleReason : Option String
  currentStreakDays : ℕ
  bestStreakDays : ℕ
  qualifiedAt : Option Timestamp
  disqualifiedAt : Option Timestamp
  disqualificationReason : Option String
  deriving DecidableEq

/-- The state of a reservation, with the amount awarded where there is one. -/
inductive ReservationState where
  | reserved
  | settled (awardedPaise : ℤ)
  | released
  deriving DecidableEq

structure ReservationRow where
  beneficiaryId : Uuid
  campaignVersion : VersionKey
  reservedPaise : ℤ
  state : ReservationState
  deriving DecidableEq

structure EngagementDayRow where
  profileId : Uuid
  campaignVersion : VersionKey
  localDate : Date
  serverActivityAt : Timestamp
  sourceAction : String

inductive EntitlementState where
  | ready
  | claimed
  | held
  | revoked
  | expired
  deriving DecidableEq

structure EntitlementRow where
  attributionId : Uuid
  beneficiaryId : Uuid
  beneficiaryRole : Role
  campaignVersion : VersionKey
  state : EntitlementState
  deriving DecidableEq

structure SpinRow where
  entitlementId : Uuid
  beneficiaryId : Uuid
  outcomeId : String
  amountPaise : ℤ
  campaignVersion : VersionKey
  committedAt : Timestamp
  deriving DecidableEq

structure CreditAccountRow where
  availablePaise : ℤ
  version : ℕ
  deriving DecidableEq

/-- A row of `credit_ledger`. An award is the only event type the functions here write. -/
structure CreditLedgerRow where
  profileId : Uuid
  availableDeltaPaise : ℤ
  sourceId : Uuid
  idempotencyKey : String
  deriving DecidableEq

/-! ### Holds -/

inductive HoldScope where
  | admission
  | enrollment
  | fulfillment
  | redemption
  deriving DecidableEq

/-- The column `original_state` of a hold: the setting from before it. -/
inductive Setting where
  | mode (admissionMode : AdmissionMode)
  | flag (value : Bool)
  deriving DecidableEq

structure HoldRow where
  originalState : Setting
  active : Bool
  deriving DecidableEq

/-! ### Tables -/

/-- A state of the schema. -/
structure Db where
  settings : AccessSettings
  profiles : InsertionMap Uuid ProfileRow
  memberships : InsertionMap Uuid MembershipRow
  invitationCodes : InsertionMap String InvitationCodeRow
  versions : InsertionMap VersionKey CampaignVersion
  campaigns : InsertionMap VersionKey CampaignState
  /-- `inviter_campaign_caps`: how many an inviter has enrolled in a campaign. -/
  inviterCaps : InsertionMap (VersionKey × Uuid) ℕ
  /-- `eligibility_claims`, by campaign, kind, key version and fingerprint: who has used them. -/
  eligibilityClaims : InsertionMap (VersionKey × String × String × String) Uuid
  attributions : InsertionMap Uuid AttributionRow
  /-- `reward_reservations`, by attribution and role. -/
  reservations : InsertionMap (Uuid × Role) ReservationRow
  /-- `engagement_days`, by receipt. -/
  engagementDays : InsertionMap String EngagementDayRow
  entitlements : InsertionMap Uuid EntitlementRow
  spins : InsertionMap Uuid SpinRow
  creditAccounts : InsertionMap Uuid CreditAccountRow
  creditLedger : InsertionMap Uuid CreditLedgerRow
  /-- `referral_operator_holds`, by scope and target. -/
  holds : InsertionMap (HoldScope × String) HoldRow

/-! ### Exceptions -/

/-- What the functions raise. -/
inductive Raised where
  | sessionInvalid
  | accountSuspended
  | admissionPaused
  | invitationRequired
  | requiredTermsMissing
  | invitationUnavailable
  | inviterNotEligible
  | offerChanged
  | identityProofInvalid
  | rewardIdentityAlreadyUsed
  | membershipRequired
  | activityReceiptInvalid
  | activityOutsideWindow
  | rewardHeld
  | rewardNotReady
  | invalidRewardOutcome
  | rewardReservationInvalid
  | invalidExpiryLimit
  | adminRequired
  | invalidReferralHold
  | campaignUnavailable
  | referralHoldNotActive
  | uniqueViolation
  | notNullViolation
  deriving DecidableEq

/-- A computation that can raise an exception. -/
abbrev Sql (α : Type) := Except Raised α

/-- `btrim`. -/
def btrim (s : String) : String :=
  String.ofList ((s.toList.dropWhile (· = ' ')).reverse.dropWhile (· = ' ')).reverse

/-- `INSERT INTO table`: a row under a new key. -/
def insertRow {κ ν : Type} [DecidableEq κ] (table : InsertionMap κ ν) (key : κ) (row : ν) :
    Sql (InsertionMap κ ν) := do
  failIf (key ∈ table.keys) .uniqueViolation
  return table.set key row

/-- `INSERT INTO table .. ON CONFLICT DO NOTHING`. -/
def insertIfNew {κ ν : Type} [DecidableEq κ] (table : InsertionMap κ ν) (key : κ) (row : ν) :
    InsertionMap κ ν :=
  if key ∈ table.keys then table else table.set key row

theorem insertRow_eq_ok {κ ν : Type} [DecidableEq κ] {table table' : InsertionMap κ ν} {key : κ}
    {row : ν} : insertRow table key row = .ok table' ↔
      table.get? key = none ∧ table' = table.set key row := by
  unfold insertRow
  rw [failIf_bind_eq_ok, pure_eq_ok, Except.ok.injEq, InsertionMap.get?_eq_none_iff, eq_comm]

/-- The row is there afterwards, with what was there before or the inserted one. -/
theorem get?_insertIfNew {κ ν : Type} [DecidableEq κ] (table : InsertionMap κ ν) (j key : κ)
    (row : ν) : (insertIfNew table key row).get? j =
      if j = key then some ((table.get? key).getD row) else table.get? j := by
  unfold insertIfNew
  split
  · rename_i hkey
    obtain ⟨old, hold⟩ := Option.isSome_iff_exists.mp (InsertionMap.mem_keys_iff.mp hkey)
    split
    · rename_i hj
      rw [hj, hold, Option.getD_some]
    · rfl
  · rename_i hkey
    rw [InsertionMap.get?_set, InsertionMap.get?_eq_none_iff.mpr hkey, Option.getD_none]

/-! ### Who may do what -/

inductive AccessState where
  | suspended
  | active
  | activationPending
  | paused
  | requiresInvite
  deriving DecidableEq

namespace Db

/-- `current_access_state` of a signed-in profile. -/
def accessState (db : Db) (profile : Uuid) : AccessState :=
  match db.memberships.get? profile with
  | some member =>
    match member.state with
    | .suspended => .suspended
    | .active => .active
  | none =>
    if profile ∈ db.profiles.keys then
      if db.settings.admissionMode = .open then .active else .activationPending
    else if db.settings.admissionMode = .pausedNew then .paused
    else .requiresInvite

/-- `current_user_is_member`; nobody without a session is. -/
def isMember (db : Db) (caller : Option Uuid) : Bool :=
  caller.any fun profile => db.accessState profile = .active

/-- `INSERT INTO credit_accounts (profile_id) .. ON CONFLICT DO NOTHING`. -/
def openCreditAccount (db : Db) (profile : Uuid) : Db :=
  { db with creditAccounts := insertIfNew db.creditAccounts profile ⟨0, 0⟩ }

/-- `UPDATE campaign_state .. WHERE version_key = key`. -/
def updateCampaign (db : Db) (key : VersionKey) (f : CampaignState → CampaignState) : Db :=
  { db with campaigns := db.campaigns.mapValues fun k state => if k = key then f state else state }

end Db

end PandaPay.Referrals
