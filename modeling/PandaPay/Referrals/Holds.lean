import PandaPay.Referrals.Runs

/-!
# Held rewards

A reward that is earned while the fulfillment of its campaign is paused is held. Lifting the pause
changes the switch of the campaign and no entitlement, so what is held then stays held. Where a pause
is lifted only when nothing is held, no reward of an unpaused campaign is, and none is refused for it.

## Main definitions

* `Unheld`: campaigns whose fulfillment is not paused hold no reward
* `Db.liftsPause`: a call that lifts a pause of fulfillment

## Main results

* `unheld`: campaigns hold no reward where no pause is lifted too early
-/

namespace PandaPay.Referrals

/-- A campaign has no held reward. -/
def NoneHeld (r : Rewards) (key : VersionKey) : Prop :=
  ∀ k row, r.entitlements.get? k = some row → row.campaignVersion = key → row.state ≠ .held

/-- A campaign whose fulfillment is not paused has no held reward. -/
def Unheld (r : Rewards) : Prop :=
  ∀ key state, r.campaigns.get? key = some state → state.fulfillmentPaused = false → NoneHeld r key

theorem Effect.keeps_unheld {Live : Option Timestamp → Prop} {r r' : Rewards}
    (h : Effect Live NoneHeld r r') (hr : Unheld r) : Unheld r' := by
  cases h with
  | openAccount | refer | progress | qualify | award => exact hr
  | enroll =>
    refine InsertionMap.forall_get?_mapValues fun key state hstate hunpaused => ?_
    refine hr key state hstate ?_
    split_ifs at hunpaused <;> exact hunpaused
  | @grant id new _ _ _ _ _ _ _ _ hstate =>
    intro key state hcampaign hunpaused
    refine InsertionMap.forall_get?_set (hr key state hcampaign hunpaused) ?_
    rintro rfl hheld
    rcases hstate with hready | ⟨-, other, hother, hpaused⟩
    · rw [hheld] at hready
      cases hready
    · obtain rfl : state = other := Option.some.inj (hcampaign.symm.trans hother)
      rw [hunpaused] at hpaused
      cases hpaused
  | settle =>
    refine InsertionMap.forall_get?_mapValues fun key state hstate hunpaused => ?_
    refine InsertionMap.forall_get?_set (hr key state hstate ?_) (fun _ => by simp)
    split_ifs at hunpaused <;> exact hunpaused
  | expire =>
    split_ifs
    · refine InsertionMap.forall_get?_mapValues fun key state hstate hunpaused => ?_
      refine hr key state hstate ?_
      split_ifs at hunpaused <;> exact hunpaused
    · exact hr
  | switch key scope value hlift =>
    refine InsertionMap.forall_get?_mapValues fun k state hstate hunpaused => ?_
    split_ifs at hunpaused with hk
    · cases scope with
      | fulfillment => exact hk ▸ hlift rfl hunpaused
      | admission | enrollment | redemption => exact hr k state hstate hunpaused
    · exact hr k state hstate hunpaused

/-! ### Runs -/

namespace Db

/-- The campaign whose pause of fulfillment a call lifts. -/
def liftsPause (db : Db) : Call → Option VersionKey
  | .hold c =>
    match db.settings.activeCampaignVersion with
    | some key =>
      if c.scope = .fulfillment ∧ c.paused = false ∧
        (db.holds.get? (.fulfillment, key)).any (fun hold =>
          hold.active && hold.originalState = .flag false) = true then some key
      else none
    | none => none
  | _ => none

/-- A call lifts no pause of a campaign that holds rewards. -/
def liftsInTime (db : Db) (call : Call) : Bool :=
  (db.liftsPause call).all fun key => db.entitlements.entries.all fun e =>
    !(e.2.campaignVersion = key && e.2.state = .held)

/-- Every pause that a run lifts is lifted in time. -/
def allLiftsInTime : Db → List Call → Bool
  | _, [] => true
  | db, call :: calls => db.liftsInTime call && allLiftsInTime (db.apply call) calls

theorem lifts_of_inTime {db : Db} {call : Call} (h : db.liftsInTime call = true) :
    Lifts NoneHeld db call := by
  rintro c db' ⟨target, before, after⟩ rfl hok hscope hpaused hafter
  have hlifts : db.liftsPause (.hold c) = some target := by
    unfold setAdminReferralHold at hok
    rw [failIf_bind_eq_ok, failIf_bind_eq_ok] at hok
    obtain ⟨⟨key, current⟩, hcurrent, hok⟩ := bind_eq_ok.mp hok.2.2
    rw [hscope] at hcurrent
    unfold currentSetting at hcurrent
    dsimp only at hcurrent hok
    rw [hpaused, if_neg Bool.false_ne_true, hscope] at hok
    cases hactive : db.settings.activeCampaignVersion with
    | none =>
      rw [hactive] at hcurrent
      cases hcurrent
    | some active =>
      rw [hactive] at hcurrent
      dsimp only at hcurrent
      cases hstate : db.campaigns.get? active with
      | none =>
        rw [hstate] at hcurrent
        cases hcurrent
      | some state =>
        rw [hstate] at hcurrent
        cases hcurrent
        cases hhold : db.holds.get? (.fulfillment, key) with
        | none =>
          rw [hhold] at hok
          cases hok
        | some hold =>
          rw [hhold] at hok
          dsimp only at hok
          rw [failIf_bind_eq_ok, Bool.not_eq_false] at hok
          obtain ⟨written, -, hresult⟩ := bind_eq_ok.mp hok.2
          rw [pure_eq_ok, Except.ok.injEq, Prod.mk.injEq, HoldResult.mk.injEq] at hresult
          obtain ⟨-, rfl, -, hreturned⟩ := hresult
          dsimp only at hafter
          simp [liftsPause, hactive, hscope, hpaused, hhold, hok.1, hreturned, hafter]
  unfold liftsInTime at h
  rw [hlifts, Option.all_some, List.all_eq_true] at h
  intro k row hrow hkey hheld
  have hentry := h (k, row) (InsertionMap.get?_eq_some_iff.mp hrow)
  simp [hkey, hheld] at hentry

end Db

/-- What no effect breaks when pauses are lifted in time. -/
theorem unheld_of_run {db : Db} (hdb : Unheld db.rewards) {calls : List Call}
    (hintime : db.allLiftsInTime calls = true) : Unheld (db.run calls).rewards := by
  induction calls generalizing db with
  | nil => exact hdb
  | cons call calls ih =>
    rw [Db.allLiftsInTime, Bool.and_eq_true] at hintime
    refine ih ?_ hintime.2
    exact Effects.invariant (fun _ _ hr heffect => Effect.keeps_unheld heffect hr) hdb
      (@Db.apply_effects (fun _ => True) NoneHeld db call trivial (Db.lifts_of_inTime hintime.1))

/-! ### Spins -/

section Spins

variable {db : Db} {c : SpinCall} {user : Uuid} {e : Raised}

theorem insertRow_eq_error {κ ν : Type} [DecidableEq κ] {table : InsertionMap κ ν} {key : κ} {row : ν}
    (h : insertRow table key row = .error e) : e = .uniqueViolation := by
  unfold insertRow at h
  rw [bind_eq_error, failIf_eq_error] at h
  rcases h with ⟨-, h⟩ | ⟨_, -, h⟩
  · exact h.symm
  · cases h

theorem insertSpin_eq_error {id : Uuid} {row : SpinRow} (h : db.insertSpin id row = .error e) :
    e = .uniqueViolation := by
  unfold Db.insertSpin at h
  rw [bind_eq_error, failIf_eq_error] at h
  rcases h with ⟨-, h⟩ | ⟨_, -, h⟩
  · exact h.symm
  · rcases bind_eq_error.mp h with h | ⟨_, -, h⟩
    · exact insertRow_eq_error h
    · cases h

theorem insertLedgerRow_eq_error {id : Uuid} {row : CreditLedgerRow}
    (h : db.insertLedgerRow id row = .error e) : e = .uniqueViolation := by
  unfold Db.insertLedgerRow at h
  rw [bind_eq_error, failIf_eq_error] at h
  rcases h with ⟨-, h⟩ | ⟨_, -, h⟩
  · exact h.symm
  · rcases bind_eq_error.mp h with h | ⟨_, -, h⟩
    · exact insertRow_eq_error h
    · cases h

theorem settleSpin_eq_error {entitlement : EntitlementRow} {reservation : ReservationRow}
    (h : db.settleSpin c user entitlement reservation = .error e) : e = .uniqueViolation := by
  unfold Db.settleSpin at h
  dsimp only at h
  split_ifs at h
  · rcases bind_eq_error.mp h with h | ⟨spun, -, h⟩
    · exact insertSpin_eq_error h
    · rcases bind_eq_error.mp h with h | ⟨_, -, h⟩
      · exact insertLedgerRow_eq_error h
      · cases h
  · rcases bind_eq_error.mp h with h | ⟨_, -, h⟩
    · exact insertSpin_eq_error h
    · cases h

/-- Only a held entitlement or a pause makes a new spin fail as held. -/
theorem held_of_newSpin {entitlement : EntitlementRow}
    (h : db.newSpin c user entitlement = .error .rewardHeld) : entitlement.state = .held ∨
      (db.campaigns.get? entitlement.campaignVersion).any (·.fulfillmentPaused) = true := by
  unfold Db.newSpin at h
  rw [bind_eq_error, failIf_eq_error] at h
  rcases h with ⟨hheld, -⟩ | ⟨_, -, h⟩
  · exact hheld
  rw [bind_eq_error, failIf_eq_error] at h
  rcases h with ⟨-, h⟩ | ⟨_, -, h⟩
  · cases h
  rw [bind_eq_error, failIf_eq_error] at h
  rcases h with ⟨-, h⟩ | ⟨_, -, h⟩
  · cases h
  rw [bind_eq_error, failIf_eq_error] at h
  rcases h with ⟨-, h⟩ | ⟨_, -, h⟩
  · cases h
  cases hreservation : db.reservations.get?
      (entitlement.attributionId, entitlement.beneficiaryRole) with
  | none =>
    rw [hreservation] at h
    cases h
  | some reservation =>
    rw [hreservation] at h
    dsimp only at h
    rw [bind_eq_error, failIf_eq_error] at h
    rcases h with ⟨-, h⟩ | ⟨_, -, h⟩
    · cases h
    · rcases bind_eq_error.mp h with h | ⟨_, -, h⟩
      · exact absurd (settleSpin_eq_error h) nofun
      · cases h

theorem held_of_commitRewardSpin (h : db.commitRewardSpin c = .error .rewardHeld) :
    ∃ row, db.entitlements.get? c.entitlementId = some row ∧ (row.state = .held ∨
      (db.campaigns.get? row.campaignVersion).any (·.fulfillmentPaused) = true) := by
  unfold Db.commitRewardSpin at h
  cases hcaller : c.caller with
  | none =>
    rw [hcaller] at h
    cases h
  | some user =>
    rw [hcaller] at h
    dsimp only at h
    rw [bind_eq_error, failIf_eq_error] at h
    rcases h with ⟨-, h⟩ | ⟨_, -, h⟩
    · cases h
    cases hrow : db.entitlements.get? c.entitlementId with
    | none =>
      rw [hrow] at h
      cases h
    | some row =>
      rw [hrow] at h
      dsimp only at h
      split_ifs at h
      · cases h
      · cases hspin : db.spinOf c.entitlementId with
        | some spin =>
          rw [hspin] at h
          cases h
        | none =>
          rw [hspin] at h
          exact ⟨row, rfl, held_of_newSpin h⟩

end Spins

/-- A pause, a reward earned during it, and the pause is lifted. -/
def heldCalls : List Call :=
  [arunJoins, .hold ⟨true, .fulfillment, true, "checking the prizes"⟩, .record (arunActive 1 1),
    .hold ⟨true, .fulfillment, false, "prizes are checked"⟩]

end PandaPay.Referrals
