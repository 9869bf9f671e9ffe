import PandaPay.Referrals.Schema

/-!
# Activation

`activate_current_user`, which admits a new profile and, if it came with an invitation and the
campaign has room, enrolls the referral: the greatest prizes of both sides are reserved.

## Main definitions

* `ActivationCall`: the arguments of a call
* `offerOf`: the part that decides whether the referral is enrolled
* `enroll`: the part that reserves the prizes
* `activateCurrentUser`: `activate_current_user`
-/

namespace PandaPay.Referrals

/-- An element of `p_identity_claims`. -/
structure IdentityClaim where
  kind : Option String
  keyVersion : Option String
  fingerprint : Option String

/-- The arguments of `activate_current_user`, with the session, the clock and the ids drawn. -/
structure ActivationCall where
  caller : Option Uuid
  now : Timestamp
  invitationCode : Option String
  expectedCampaignVersion : Option VersionKey
  termsVersion : Option String
  acceptRewardTerms : Bool
  acceptAccessOnly : Bool
  /-- `p_identity_claims`; nothing when it is not an array. -/
  identityClaims : Option (List IdentityClaim)
  productTermsVersion : Option String
  acceptProductTerms : Bool
  attributionId : Uuid

/-- `nullif(btrim(s), '')`. -/
def nonblank (s : Option String) : Option String := (s.map btrim).filter (· ≠ "")

/-- `upper(btrim(coalesce(p_invitation_code, '')))`. -/
def normalizedCode (code : Option String) : String := (btrim (code.getD "")).toUpper

/-- The pattern `^[a-f0-9]{64}$`. -/
def isFingerprint (s : String) : Bool :=
  s.length = 64 && s.toList.all fun c => ('a' ≤ c && c ≤ 'f') || ('0' ≤ c && c ≤ '9')

/-- What the first loop over the claims refuses. A comparison with a missing kind is `NULL`, which
is no reason to refuse. -/
def IdentityClaim.malformed (claim : IdentityClaim) : Bool :=
  claim.kind.any (· ∉ ["email", "phone"]) || claim.keyVersion.getD "" = "" ||
    !isFingerprint (claim.fingerprint.getD "")

/-- What is offered to a referral that is to be enrolled. -/
structure Offer where
  key : VersionKey
  version : CampaignVersion

def Offer.maxInviter (offer : Offer) : ℤ := offer.version.prizeDistribution.maxPrizePaise .inviter

def Offer.maxReferee (offer : Offer) : ℤ := offer.version.prizeDistribution.maxPrizePaise .referee

def Offer.pairMax (offer : Offer) : ℤ := offer.maxInviter + offer.maxReferee

namespace Db

/-- Whether somebody has used a claim in a campaign. -/
def claimUsed (db : Db) (key : VersionKey) (claim : IdentityClaim) : Bool :=
  claim.kind.any fun kind => (key, kind, claim.keyVersion.getD "", claim.fingerprint.getD "") ∈
    db.eligibilityClaims.keys

/-- One insertion of the second loop over the claims; counts those that were new. -/
def insertClaim (key : VersionKey) (user : Uuid)
    (state : InsertionMap (VersionKey × String × String × String) Uuid × ℕ) (claim : IdentityClaim) :
    Sql (InsertionMap (VersionKey × String × String × String) Uuid × ℕ) :=
  match claim.kind with
  | none => .error .notNullViolation
  | some kind =>
    let row := (key, kind, claim.keyVersion.getD "", claim.fingerprint.getD "")
    if row ∈ state.1.keys then return state else return (state.1.set row user, state.2 + 1)

/-- `DELETE FROM eligibility_claims WHERE profile_id = user AND campaign_version = key`. -/
def dropClaims (db : Db) (user : Uuid) (key : VersionKey) : Db :=
  { db with eligibilityClaims := db.eligibilityClaims.filter fun k owner =>
      !(owner = user && k.1 = key) }

/-- Whether the claims establish a new identity. They are used up then, and not kept otherwise. -/
def claimIdentity (db : Db) (c : ActivationCall) (user : Uuid) (key : VersionKey)
    (claims : List IdentityClaim) : Sql (Db × Bool) := do
  failIf (claims.any IdentityClaim.malformed = true) .identityProofInvalid
  if claims = [] ∨ claims.any (db.claimUsed key) = true then
    failIf (c.acceptAccessOnly = false) .rewardIdentityAlreadyUsed
    return (db.dropClaims user key, false)
  else
    let inserted ← claims.foldlM (insertClaim key user) (db.eligibilityClaims, 0)
    let claimed := { db with eligibilityClaims := inserted.1 }
    if inserted.2 = claims.length then return (claimed, true)
    else
      failIf (c.acceptAccessOnly = false) .rewardIdentityAlreadyUsed
      return (claimed.dropClaims user key, false)

/-- Without an offer the caller is admitted if access alone is enough. -/
def accessOnly (db : Db) (c : ActivationCall) : Sql (Db × Option Offer) := do
  failIf (c.acceptAccessOnly = false) .offerChanged
  return (db, none)

/-- Whether the campaign has no room for another referral. -/
def isFull (state : CampaignState) (offer : Offer) (quota : ℕ) : Bool :=
  state.enrollmentCap.any (· ≤ state.enrollmentCount) ||
    state.totalBudgetPaise - state.issuedPaise - state.reservedPaise < offer.pairMax ||
    offer.version.inviterCapEnrollments.any (· ≤ quota)

/-- The offer of an open campaign, when it has room and the caller's identity is new. -/
def openOffer (db : Db) (c : ActivationCall) (user inviter : Uuid) (state : CampaignState)
    (offer : Offer) : Sql (Db × Option Offer) := do
  let db := { db with inviterCaps := insertIfNew db.inviterCaps (offer.key, inviter) 0 }
  if isFull state offer ((db.inviterCaps.get? (offer.key, inviter)).getD 0) then db.accessOnly c
  else
    match c.identityClaims with
    | none => .error .identityProofInvalid
    | some claims =>
      let (db, eligible) ← db.claimIdentity c user offer.key claims
      return (db, if eligible then some offer else none)

/-- The offer the caller accepts, if the referral is to be enrolled. -/
def offerOf (db : Db) (c : ActivationCall) (user inviter : Uuid) : Sql (Db × Option Offer) :=
  match db.settings.activeCampaignVersion with
  | some key =>
    if c.acceptRewardTerms = true ∧ c.expectedCampaignVersion = some key then
      match db.versions.get? key, db.campaigns.get? key with
      | some version, some state =>
        if state.enrollmentOpen = true ∧
            (nonblank c.termsVersion).getD "invite-access-v1" = version.termsVersion then
          db.openOffer c user inviter state ⟨key, version⟩
        else db.accessOnly c
      | _, _ => db.accessOnly c
    else db.accessOnly c
  | none => db.accessOnly c

/-- The owner of an invitation, who must be a member. -/
def inviterOf (db : Db) (user : Uuid) (code : String) : Sql Uuid :=
  match db.invitationCodes.get? code with
  | none => .error .invitationUnavailable
  | some row => do
    let inviter := row.ownerProfileId
    failIf (row.active = false ∨ inviter = user) .invitationUnavailable
    failIf (¬ ((db.memberships.get? inviter).any (·.state = .active) = true ∨
      db.settings.admissionMode = .open ∧ inviter ∈ db.profiles.keys)) .invitationUnavailable
    failIf ((db.profiles.get? inviter).any (·.onboardingCompletedAt.isSome) = false)
      .inviterNotEligible
    return inviter

/-- The new profile with its membership and its credit account. -/
def createProfile (db : Db) (user : Uuid) (source : AdmissionSource) : Sql Db := do
  let profiles ← insertRow db.profiles user ⟨none⟩
  let memberships ← insertRow db.memberships user ⟨.active, source⟩
  return { db with
    profiles := profiles
    memberships := memberships }.openCreditAccount user

/-- The deadline of an enrollment made now. -/
def deadline (now : Timestamp) (version : CampaignVersion) : Timestamp :=
  now + seconds (86400 * version.qualificationWindowDays)

/-- `INSERT INTO referral_attributions`. -/
def insertAttribution (db : Db) (c : ActivationCall) (user inviter : Uuid) (code : String)
    (enrollment : Option Enrollment) : Sql Db := do
  failIf (db.attributions.values.any (·.refereeId = user) = true) .uniqueViolation
  let attributions ← insertRow db.attributions c.attributionId
    { inviterId := inviter
      refereeId := user
      invitationCode := code
      joinedAt := c.now
      enrollment := enrollment
      ineligibleReason := if enrollment.isSome then none else some "access_only"
      currentStreakDays := 0
      bestStreakDays := 0
      qualifiedAt := none
      disqualifiedAt := none
      disqualificationReason := none }
  return { db with attributions := attributions }

/-- Reserve the greatest prizes of both sides and enroll the referral. -/
def enroll (db : Db) (c : ActivationCall) (user inviter : Uuid) (code : String) (offer : Offer) :
    Sql Db := do
  let db := db.updateCampaign offer.key fun state => { state with
    reservedPaise := state.reservedPaise + offer.pairMax
    enrollmentCount := state.enrollmentCount + 1 }
  let db := { db with inviterCaps := db.inviterCaps.mapValues fun k n =>
    if k = (offer.key, inviter) then n + 1 else n }
  let db ← db.insertAttribution c user inviter code
    (some ⟨offer.key, deadline c.now offer.version⟩)
  let reservations ← insertRow db.reservations (c.attributionId, .inviter)
    ⟨inviter, offer.key, offer.maxInviter, .reserved⟩
  let reservations ← insertRow reservations (c.attributionId, .referee)
    ⟨user, offer.key, offer.maxReferee, .reserved⟩
  return { db with reservations := reservations }

end Db

/-- The member `referral` of the result. -/
structure ActivatedReferral where
  id : Uuid
  campaignVersion : Option VersionKey
  deadlineAt : Option Timestamp
  requiredConsecutiveDays : Option ℕ

/-- What `activate_current_user` returns. -/
structure Activated where
  source : AdmissionSource
  referral : Option ActivatedReferral

namespace Db

/-- The admission of a new profile. -/
def admitProfile (db : Db) (c : ActivationCall) (user : Uuid) : Sql (Db × Activated) := do
  let mode := db.settings.admissionMode
  let code := normalizedCode c.invitationCode
  failIf (mode = .pausedNew) .admissionPaused
  failIf (mode = .inviteOnly ∧ code = "") .invitationRequired
  failIf ((mode = .inviteOnly ∨ code ≠ "") ∧
    (c.acceptProductTerms = false ∨ nonblank c.productTermsVersion = none)) .requiredTermsMissing
  if code = "" then
    let db ← db.createProfile user .open
    return (db, ⟨.open, none⟩)
  else
    let inviter ← db.inviterOf user code
    let (db, offer) ← db.offerOf c user inviter
    let db ← db.createProfile user .invite
    let db ← match offer with
      | some offer => db.enroll c user inviter code offer
      | none => db.insertAttribution c user inviter code none
    return (db, ⟨.invite, some
      { id := c.attributionId
        campaignVersion := offer.map Offer.key
        deadlineAt := offer.map fun offer => deadline c.now offer.version
        requiredConsecutiveDays := offer.map fun offer => offer.version.requiredConsecutiveDays }⟩)

/-- `activate_current_user`. -/
def activateCurrentUser (db : Db) (c : ActivationCall) : Sql (Db × Activated) :=
  match c.caller with
  | none => .error .sessionInvalid
  | some user =>
    match db.memberships.get? user with
    | some member =>
      match member.state with
      | .suspended => .error .accountSuspended
      | .active => .ok (db.openCreditAccount user, ⟨member.admissionSource, none⟩)
    | none =>
      -- an account from before invitations becomes a member as it is
      if user ∈ db.profiles.keys then
        let db := { db with memberships := db.memberships.set user ⟨.active, .legacy⟩ }
        .ok (db.openCreditAccount user, ⟨.legacy, none⟩)
      else db.admitProfile c user

end Db

end PandaPay.Referrals
