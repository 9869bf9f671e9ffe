import PandaPay.Referrals.Effects

/-!
# The functions refine their effects

Each of the referral functions, where it raises no exception, does to promises and payments what a
sequence of effects does.

## Main definitions

* `Effects`: a sequence of effects

## Main results

* `Db.activateCurrentUser_effects`, `Db.recordDay_effects`, `Db.commitRewardSpin_effects`,
  `Db.expireReferralReservations_effects`, `Db.setAdminReferralHold_effects`
-/

namespace PandaPay.Referrals

/-- A sequence of effects. -/
abbrev Effects (Live : Option Timestamp → Prop) (Lift : Rewards → VersionKey → Prop) :
    Rewards → Rewards → Prop :=
  Relation.ReflTransGen (Effect Live Lift)

variable {Live : Option Timestamp → Prop} {Lift : Rewards → VersionKey → Prop}

namespace Db

variable {db db' : Db}

theorem openCreditAccount_effects (db : Db) (user : Uuid) :
    Effects Live Lift db.rewards (db.openCreditAccount user).rewards :=
  .single (.openAccount user)

/-! ### Activation -/

section Activation

variable {c : ActivationCall} {user inviter : Uuid}

theorem accessOnly_eq_ok {offer : Option Offer} (h : db.accessOnly c = .ok (db', offer)) :
    db' = db ∧ offer = none := by
  unfold accessOnly at h
  rw [failIf_bind_eq_ok, pure_eq_ok, Except.ok.injEq, Prod.mk.injEq] at h
  exact ⟨h.2.1.symm, h.2.2.symm⟩

theorem claimIdentity_rewards {key : VersionKey} {claims : List IdentityClaim} {eligible : Bool}
    (h : db.claimIdentity c user key claims = .ok (db', eligible)) : db'.rewards = db.rewards := by
  unfold claimIdentity at h
  rw [failIf_bind_eq_ok] at h
  have h := h.2
  split_ifs at h
  · rw [failIf_bind_eq_ok, pure_eq_ok, Except.ok.injEq, Prod.mk.injEq] at h
    rw [← h.2.1]
    rfl
  · obtain ⟨inserted, -, h⟩ := bind_eq_ok.mp h
    split_ifs at h
    · rw [pure_eq_ok, Except.ok.injEq, Prod.mk.injEq] at h
      rw [← h.1]
      rfl
    · rw [failIf_bind_eq_ok, pure_eq_ok, Except.ok.injEq, Prod.mk.injEq] at h
      rw [← h.2.1]
      rfl

/-- Whether the campaign of an offer can reserve its prizes. -/
def HasRoom (r : Rewards) (offer : Offer) : Prop :=
  ∀ state, r.campaigns.get? offer.key = some state →
    offer.pairMax ≤ state.totalBudgetPaise - state.issuedPaise - state.reservedPaise

theorem openOffer_eq_ok {state : CampaignState} {offer : Offer} {accepted : Option Offer}
    (hstate : db.campaigns.get? offer.key = some state)
    (h : db.openOffer c user inviter state offer = .ok (db', accepted)) :
    db'.rewards = db.rewards ∧ ∀ o, accepted = some o → HasRoom db.rewards o := by
  unfold openOffer at h
  dsimp only at h
  split_ifs at h with hfull
  · obtain ⟨rfl, rfl⟩ := accessOnly_eq_ok h
    refine ⟨rfl, fun o ho => ?_⟩
    cases ho
  · cases hclaims : c.identityClaims with
    | none =>
      rw [hclaims] at h
      cases h
    | some claims =>
      rw [hclaims] at h
      obtain ⟨⟨mid, eligible⟩, hmid, h⟩ := bind_eq_ok.mp h
      rw [pure_eq_ok, Except.ok.injEq, Prod.mk.injEq] at h
      obtain ⟨rfl, rfl⟩ := h
      have hsame := claimIdentity_rewards hmid
      refine ⟨hsame, fun o ho s hs => ?_⟩
      have hoffer : offer = o := by
        cases eligible
        · cases ho
        · exact Option.some.inj ho
      subst hoffer
      obtain rfl : s = state := Option.some.inj (hs.symm.trans hstate)
      by_contra hlt
      rw [not_le] at hlt
      exact hfull (by simp [isFull, hlt])

theorem offerOf_eq_ok {offer : Option Offer} (h : db.offerOf c user inviter = .ok (db', offer)) :
    db'.rewards = db.rewards ∧ ∀ o, offer = some o → HasRoom db.rewards o := by
  have haccess : ∀ {offer}, db.accessOnly c = .ok (db', offer) →
      db'.rewards = db.rewards ∧ ∀ o, offer = some o → HasRoom db.rewards o := by
    intro offer h
    obtain ⟨rfl, rfl⟩ := accessOnly_eq_ok h
    exact ⟨rfl, nofun⟩
  unfold offerOf at h
  cases hkey : db.settings.activeCampaignVersion with
  | none =>
    rw [hkey] at h
    exact haccess h
  | some key =>
    rw [hkey] at h
    dsimp only at h
    split_ifs at h
    · cases hversion : db.versions.get? key with
      | none =>
        rw [hversion] at h
        exact haccess h
      | some version =>
        cases hstate : db.campaigns.get? key with
        | none =>
          rw [hversion, hstate] at h
          exact haccess h
        | some state =>
          rw [hversion, hstate] at h
          dsimp only at h
          split_ifs at h
          · exact openOffer_eq_ok hstate h
          · exact haccess h
    · exact haccess h

theorem createProfile_effects {source : AdmissionSource}
    (h : db.createProfile user source = .ok db') : Effects Live Lift db.rewards db'.rewards := by
  unfold createProfile at h
  obtain ⟨profiles, -, h⟩ := bind_eq_ok.mp h
  obtain ⟨memberships, -, h⟩ := bind_eq_ok.mp h
  rw [pure_eq_ok, Except.ok.injEq] at h
  rw [← h]
  exact .single (.openAccount user)

theorem createProfile_campaigns {source : AdmissionSource}
    (h : db.createProfile user source = .ok db') : db'.rewards.campaigns = db.rewards.campaigns := by
  unfold createProfile at h
  obtain ⟨profiles, -, h⟩ := bind_eq_ok.mp h
  obtain ⟨memberships, -, h⟩ := bind_eq_ok.mp h
  rw [pure_eq_ok, Except.ok.injEq] at h
  rw [← h]
  rfl

theorem insertAttribution_eq_ok {code : String} {enrollment : Option Enrollment}
    (h : db.insertAttribution c user inviter code enrollment = .ok db') :
    ∃ row : AttributionRow, row.enrollment = enrollment ∧ row.qualifiedAt = none ∧
      db.attributions.get? c.attributionId = none ∧
      db' = { db with attributions := db.attributions.set c.attributionId row } := by
  unfold insertAttribution at h
  rw [failIf_bind_eq_ok] at h
  obtain ⟨attributions, hrow, h⟩ := bind_eq_ok.mp h.2
  obtain ⟨hnew, rfl⟩ := insertRow_eq_ok.mp hrow
  rw [pure_eq_ok, Except.ok.injEq] at h
  exact ⟨_, rfl, rfl, hnew, h.symm⟩

theorem enroll_effects {code : String} {offer : Offer} (hroom : HasRoom db.rewards offer)
    (h : db.enroll c user inviter code offer = .ok db') :
    Effects Live Lift db.rewards db'.rewards := by
  unfold enroll at h
  dsimp only at h
  obtain ⟨mid, hmid, h⟩ := bind_eq_ok.mp h
  obtain ⟨row, henrollment, hqualified, hnew, rfl⟩ := insertAttribution_eq_ok hmid
  obtain ⟨one, hone, h⟩ := bind_eq_ok.mp h
  obtain ⟨hinviter, rfl⟩ := insertRow_eq_ok.mp hone
  obtain ⟨two, htwo, h⟩ := bind_eq_ok.mp h
  obtain ⟨hreferee, rfl⟩ := insertRow_eq_ok.mp htwo
  rw [pure_eq_ok, Except.ok.injEq] at h
  rw [InsertionMap.get?_set_of_ne _ _ (by simp)] at hreferee
  rw [← h]
  have hprize := offer.version.prizeDistribution.maxPrizePaise_nonneg
  exact .single (@Effect.enroll Live Lift db.rewards c.attributionId row _
    ⟨inviter, offer.key, offer.maxInviter, .reserved⟩
    ⟨user, offer.key, offer.maxReferee, .reserved⟩ hnew henrollment hqualified
    ⟨rfl, rfl, hprize .inviter⟩ ⟨rfl, rfl, hprize .referee⟩ ⟨hinviter, hreferee⟩ hroom)

theorem admit_effects {result : Activated} (h : db.admitProfile c user = .ok (db', result)) :
    Effects Live Lift db.rewards db'.rewards := by
  unfold admitProfile at h
  dsimp only at h
  rw [failIf_bind_eq_ok, failIf_bind_eq_ok, failIf_bind_eq_ok] at h
  have h := h.2.2.2
  split_ifs at h
  · obtain ⟨mid, hmid, h⟩ := bind_eq_ok.mp h
    rw [pure_eq_ok, Except.ok.injEq, Prod.mk.injEq] at h
    rw [← h.1]
    exact createProfile_effects hmid
  · obtain ⟨inviter, -, h⟩ := bind_eq_ok.mp h
    obtain ⟨⟨offered, offer⟩, hoffer, h⟩ := bind_eq_ok.mp h
    obtain ⟨created, hcreated, h⟩ := bind_eq_ok.mp h
    obtain ⟨hsame, hroom⟩ := offerOf_eq_ok hoffer
    have hcreate : Effects Live Lift db.rewards created.rewards :=
      hsame ▸ createProfile_effects hcreated
    cases offer with
    | none =>
      obtain ⟨referred, hreferred, h⟩ := bind_eq_ok.mp h
      rw [pure_eq_ok, Except.ok.injEq, Prod.mk.injEq] at h
      obtain ⟨row, henrollment, hqualified, hnew, rfl⟩ := insertAttribution_eq_ok hreferred
      rw [← h.1]
      exact hcreate.tail (.refer hnew henrollment hqualified)
    | some offer =>
      obtain ⟨referred, hreferred, h⟩ := bind_eq_ok.mp h
      rw [pure_eq_ok, Except.ok.injEq, Prod.mk.injEq] at h
      rw [← h.1]
      refine hcreate.trans (enroll_effects ?_ hreferred)
      intro state hstate
      rw [createProfile_campaigns hcreated, hsame] at hstate
      exact hroom offer rfl state hstate

theorem activateCurrentUser_effects {result : Activated}
    (h : db.activateCurrentUser c = .ok (db', result)) :
    Effects Live Lift db.rewards db'.rewards := by
  unfold activateCurrentUser at h
  cases hcaller : c.caller with
  | none =>
    rw [hcaller] at h
    cases h
  | some user =>
    rw [hcaller] at h
    dsimp only at h
    cases hmember : db.memberships.get? user with
    | some member =>
      rw [hmember] at h
      dsimp only at h
      cases hstate : member.state with
      | suspended =>
        rw [hstate] at h
        cases h
      | active =>
        rw [hstate] at h
        cases h
        exact openCreditAccount_effects db user
    | none =>
      rw [hmember] at h
      dsimp only at h
      split_ifs at h
      · cases h
        exact .single (.openAccount user)
      · exact admit_effects h

end Activation

/-! ### Engagement days -/

section Engagement

variable {c : EngagementCall} {user attribution : Uuid}

theorem insertDay_rewards (db : Db) (receipt : String) (row : EngagementDayRow) :
    (db.insertDay receipt row).1.rewards = db.rewards := by
  unfold insertDay
  split_ifs <;> rfl

/-- A side that has an entitlement keeps it; else it earns the new one. -/
theorem insertEntitlement_effects {id : Uuid} {row : EntitlementRow} {attr : AttributionRow}
    {e : Enrollment} (hattr : db.attributions.get? row.attributionId = some attr)
    (henrollment : attr.enrollment = some e) (hcampaign : row.campaignVersion = e.campaignVersion)
    (hqualified : attr.qualifiedAt ≠ none)
    (hstate : row.state = .ready ∨ row.state = .held ∧
      ∃ state, db.campaigns.get? row.campaignVersion = some state ∧ state.fulfillmentPaused = true)
    (h : db.insertEntitlement id row = .ok db') :
    Effects Live Lift db.rewards db'.rewards ∧ db'.attributions = db.attributions ∧
      db'.campaigns = db.campaigns := by
  unfold insertEntitlement at h
  split_ifs at h with hany
  · rw [pure_eq_ok, Except.ok.injEq] at h
    subst h
    exact ⟨.refl, rfl, rfl⟩
  · obtain ⟨entitlements, hrow, h⟩ := bind_eq_ok.mp h
    obtain ⟨hnew, rfl⟩ := insertRow_eq_ok.mp hrow
    rw [pure_eq_ok, Except.ok.injEq] at h
    subst h
    refine ⟨.single (.grant hattr henrollment hcampaign hqualified hnew ?_ hstate), rfl, rfl⟩
    intro k old hold hsame
    apply hany
    rw [List.any_eq_true]
    exact ⟨old, InsertionMap.mem_values_iff.mpr ⟨k, hold⟩, decide_eq_true hsame⟩

theorem qualify_effects {attr : AttributionRow} {e : Enrollment} {paused : Bool}
    (hattr : db.attributions.get? attribution = some attr) (henrollment : attr.enrollment = some e)
    (hlive : Live attr.disqualifiedAt)
    (hpaused : paused = true → ∃ state, db.campaigns.get? e.campaignVersion = some state ∧
      state.fulfillmentPaused = true)
    {known : AttributionRow} (h : db.qualify c attribution known e paused = .ok db') :
    Effects Live Lift db.rewards db'.rewards := by
  unfold qualify at h
  dsimp only at h
  obtain ⟨mid, hmid, h⟩ := bind_eq_ok.mp h
  have hqualify := @Effect.qualify Live Lift db.rewards attribution attr c.serverActivityAt hattr hlive
  have hstate : ∀ state : EntitlementState, state = (if paused then .held else .ready) →
      state = .ready ∨ state = .held ∧ ∃ state, db.campaigns.get? e.campaignVersion = some state ∧
        state.fulfillmentPaused = true := by
    rintro state rfl
    cases paused
    · exact .inl rfl
    · exact .inr ⟨rfl, hpaused rfl⟩
  -- the attribution is qualified when the two entitlements are inserted
  have hattr' : (db.attributions.mapValues (qualifyRow attribution c.serverActivityAt)).get?
      attribution = some (qualifyRow attribution c.serverActivityAt attribution attr) := by
    rw [InsertionMap.get?_mapValues, hattr, Option.map_some]
  have henrollment' :
      (qualifyRow attribution c.serverActivityAt attribution attr).enrollment = some e := by
    rw [qualifyRow_enrollment, henrollment]
  have hqualified := qualifyRow_self_qualifiedAt attribution c.serverActivityAt attr
  obtain ⟨hfirst, hattributions, hcampaigns⟩ := insertEntitlement_effects hattr' henrollment' rfl
    hqualified (hstate _ rfl) hmid
  have hattr'' := (congrArg (·.get? attribution) hattributions).trans hattr'
  rw [← show mid.campaigns = db.campaigns from hcampaigns] at hstate
  exact .head hqualify (hfirst.trans (insertEntitlement_effects hattr'' henrollment' rfl hqualified
    (hstate _ rfl) h).1)

theorem applyStreaks_effects {attr : AttributionRow} {e : Enrollment} {requiredDays : ℕ}
    {paused : Bool} {days : Streaks} (hattr : db.attributions.get? attribution = some attr)
    (henrollment : attr.enrollment = some e)
    (hlive : requiredDays ≤ days.best → attr.qualifiedAt = none → Live attr.disqualifiedAt)
    (hpaused : paused = true → ∃ state, db.campaigns.get? e.campaignVersion = some state ∧
      state.fulfillmentPaused = true)
    (h : db.applyStreaks c attribution attr e requiredDays paused days = .ok db') :
    Effects Live Lift db.rewards db'.rewards := by
  unfold applyStreaks at h
  dsimp only at h
  have hstreak := streakRow_eq attribution (days.current (localDate c.now)) days.best
  have hprogress : Effect Live Lift db.rewards (db.updateStreaks attribution
      (days.current (localDate c.now)) days.best).rewards := @Effect.progress _ _ db.rewards _ hstreak
  obtain ⟨henroll, -, hdisqualified⟩ := hstreak attribution attr
  split_ifs at h with hreached
  · refine .head hprogress (qualify_effects ?_ (henroll.trans henrollment) ?_ hpaused h)
    · rw [updateStreaks, InsertionMap.get?_mapValues, hattr, Option.map_some]
    · rw [hdisqualified]
      exact hlive hreached.1 hreached.2
  · cases h
    exact .single hprogress

theorem recordReceipt_effects {attr : AttributionRow} {e : Enrollment} {version : CampaignVersion}
    {result : EngagementResult} (hattr : db.attributions.get? attribution = some attr)
    (henrollment : attr.enrollment = some e)
    (hlive : attr.qualifiedAt = none → Live attr.disqualifiedAt)
    (h : db.recordReceipt c user attribution attr e version = .ok (db', result)) :
    Effects Live Lift db.rewards db'.rewards := by
  unfold recordReceipt at h
  dsimp only at h
  obtain ⟨last, hlast, h⟩ := bind_eq_ok.mp h
  rw [pure_eq_ok, Except.ok.injEq, Prod.mk.injEq] at h
  have hsame := insertDay_rewards db c.receiptId
    ⟨user, e.campaignVersion, localDate c.serverActivityAt, c.serverActivityAt, c.sourceAction⟩
  rw [← h.1, ← hsame]
  refine applyStreaks_effects ?_ henrollment (fun _ => hlive) ?_ hlast
  · exact (congrArg (·.attributions.get? attribution) hsame).trans hattr
  · intro hpaused
    obtain ⟨state, hstate, hflag⟩ := (Option.any_eq_true _ _).mp hpaused
    exact ⟨state, (congrArg (·.campaigns.get? e.campaignVersion) hsame).trans hstate, hflag⟩

/-- The part under the lock. Where it qualifies an attribution, `Live` has to allow that. -/
theorem recordDay_effects {result : EngagementResult}
    (hlive : ∀ attr, db.attributions.get? attribution = some attr → attr.qualifiedAt = none →
      Live attr.disqualifiedAt)
    (h : db.recordDay c user attribution = .ok (db', result)) :
    Effects Live Lift db.rewards db'.rewards := by
  unfold recordDay at h
  cases hattr : db.attributions.get? attribution with
  | none =>
    rw [hattr] at h
    cases h
  | some attr =>
    rw [hattr] at h
    dsimp only at h
    cases henrollment : attr.enrollment with
    | none =>
      rw [henrollment] at h
      cases h
    | some e =>
      rw [henrollment] at h
      dsimp only at h
      cases hversion : db.versions.get? e.campaignVersion with
      | none =>
        rw [hversion] at h
        cases h
      | some version =>
        rw [hversion] at h
        dsimp only at h
        rw [failIf_bind_eq_ok] at h
        have h := h.2
        cases hday : db.engagementDays.get? c.receiptId with
        | some day =>
          rw [hday] at h
          dsimp only at h
          rw [failIf_bind_eq_ok, pure_eq_ok, Except.ok.injEq, Prod.mk.injEq] at h
          rw [h.2.1]
        | none =>
          rw [hday] at h
          exact recordReceipt_effects hattr henrollment (hlive attr hattr) h

/-- An attribution that is chosen can qualify when it is chosen. -/
theorem chooseAttribution_eq_ok (h : db.chooseAttribution c = .ok (some (user, attribution))) :
    ∃ attr, db.attributions.get? attribution = some attr ∧ attr.refereeId = user ∧
      attr.enrollment.isSome ∧ attr.qualifiedAt = none ∧ attr.disqualifiedAt = none := by
  unfold chooseAttribution at h
  cases hcaller : c.caller with
  | none =>
    rw [hcaller] at h
    cases h
  | some caller =>
    rw [hcaller] at h
    dsimp only at h
    rw [failIf_bind_eq_ok, failIf_bind_eq_ok, pure_eq_ok, Except.ok.injEq,
      Option.map_eq_some_iff] at h
    obtain ⟨-, -, ⟨k, attr⟩, hfind, heq⟩ := h
    obtain ⟨rfl, rfl⟩ := Prod.mk.inj heq
    unfold activeAttribution at hfind
    have hmem := InsertionMap.get?_eq_some_iff.mpr (List.mem_of_find?_eq_some hfind)
    have hopen := List.find?_some hfind
    exact ⟨attr, hmem, of_decide_eq_true hopen⟩

theorem recordEngagementDay_effects {result : EngagementResult} (hlive : Live none)
    (h : db.recordEngagementDay c = .ok (db', result)) :
    Effects Live Lift db.rewards db'.rewards := by
  unfold recordEngagementDay at h
  obtain ⟨chosen, hchosen, h⟩ := bind_eq_ok.mp h
  cases chosen with
  | none =>
    rw [pure_eq_ok, Except.ok.injEq, Prod.mk.injEq] at h
    rw [h.1]
  | some chosen =>
    obtain ⟨attr, hattr, -, -, -, hnone⟩ := chooseAttribution_eq_ok hchosen
    refine recordDay_effects (fun attr' hattr' _ => ?_) h
    obtain rfl : attr = attr' := Option.some.inj (hattr.symm.trans hattr')
    rw [hnone]
    exact hlive

end Engagement

/-! ### Spins -/

section Spins

variable {c : SpinCall} {user : Uuid}

theorem insertSpin_eq_ok {id : Uuid} {row : SpinRow} (h : db.insertSpin id row = .ok db') :
    db.spins.get? id = none ∧ db' = { db with spins := db.spins.set id row } ∧
      ∀ k old, db.spins.get? k = some old → old.entitlementId ≠ row.entitlementId := by
  unfold insertSpin at h
  rw [failIf_bind_eq_ok] at h
  obtain ⟨spins, hrow, hok⟩ := bind_eq_ok.mp h.2
  obtain ⟨hnew, rfl⟩ := insertRow_eq_ok.mp hrow
  rw [pure_eq_ok, Except.ok.injEq] at hok
  refine ⟨hnew, hok.symm, fun k old hold hsame => h.1 ?_⟩
  rw [List.any_eq_true]
  exact ⟨old, InsertionMap.mem_values_iff.mpr ⟨k, hold⟩, decide_eq_true hsame⟩

theorem insertLedgerRow_eq_ok {id : Uuid} {row : CreditLedgerRow}
    (h : db.insertLedgerRow id row = .ok db') :
    db.creditLedger.get? id = none ∧
      db' = { db with creditLedger := db.creditLedger.set id row } := by
  unfold insertLedgerRow at h
  rw [failIf_bind_eq_ok] at h
  obtain ⟨ledger, hrow, hok⟩ := bind_eq_ok.mp h.2
  obtain ⟨hnew, rfl⟩ := insertRow_eq_ok.mp hrow
  rw [pure_eq_ok, Except.ok.injEq] at hok
  exact ⟨hnew, hok.symm⟩

theorem settleSpin_effects {entitlement : EntitlementRow} {reservation : ReservationRow}
    (hnonneg : 0 ≤ c.amountPaise)
    (hentitlement : db.entitlements.get? c.entitlementId = some entitlement)
    (hready : entitlement.state = .ready)
    (hreservation : db.reservations.get? (entitlement.attributionId, entitlement.beneficiaryRole) =
      some reservation) (hreserved : reservation.state = .reserved)
    (hcovered : c.amountPaise ≤ reservation.reservedPaise)
    (h : db.settleSpin c user entitlement reservation = .ok db') :
    Effects Live Lift db.rewards db'.rewards := by
  unfold settleSpin at h
  dsimp only at h
  split_ifs at h with hpositive
  · obtain ⟨spun, hspun, h⟩ := bind_eq_ok.mp h
    obtain ⟨hnew, rfl, hfirst⟩ := insertSpin_eq_ok hspun
    obtain ⟨paid, hpaid, h⟩ := bind_eq_ok.mp h
    obtain ⟨hfree, rfl⟩ := insertLedgerRow_eq_ok hpaid
    rw [pure_eq_ok, Except.ok.injEq] at h
    have haward := @Effect.award Live Lift db.rewards c.ledgerEntryId
      ⟨user, c.amountPaise, c.spinId, "award:" ++ c.entitlementId⟩ hpositive hfree
    refine .head haward (.single ?_)
    rw [← h]
    exact @Effect.settle Live Lift _ c.spinId
      ⟨c.entitlementId, user, c.outcomeId, c.amountPaise, entitlement.campaignVersion, c.now⟩
      entitlement reservation hnonneg hentitlement hready rfl hreservation hreserved hcovered hnew
      hfirst
  · obtain ⟨spun, hspun, h⟩ := bind_eq_ok.mp h
    obtain ⟨hnew, rfl, hfirst⟩ := insertSpin_eq_ok hspun
    rw [pure_eq_ok, Except.ok.injEq] at h
    rw [← h]
    exact .single (@Effect.settle Live Lift db.rewards c.spinId
      ⟨c.entitlementId, user, c.outcomeId, c.amountPaise, entitlement.campaignVersion, c.now⟩
      entitlement reservation hnonneg hentitlement hready rfl hreservation hreserved hcovered hnew
      hfirst)

theorem commitRewardSpin_effects {result : Option SpinResult}
    (h : db.commitRewardSpin c = .ok (db', result)) :
    Effects Live Lift db.rewards db'.rewards := by
  unfold commitRewardSpin at h
  cases hcaller : c.caller with
  | none =>
    rw [hcaller] at h
    cases h
  | some user =>
    rw [hcaller] at h
    dsimp only at h
    rw [failIf_bind_eq_ok] at h
    have h := h.2
    cases hentitlement : db.entitlements.get? c.entitlementId with
    | none =>
      rw [hentitlement] at h
      cases h
      exact .refl
    | some entitlement =>
      rw [hentitlement] at h
      dsimp only at h
      split_ifs at h
      · cases h
        exact .refl
      · cases hspin : db.spinOf c.entitlementId with
        | some spin =>
          rw [hspin] at h
          cases h
          exact .refl
        | none =>
          rw [hspin] at h
          dsimp only at h
          unfold newSpin at h
          rw [failIf_bind_eq_ok, failIf_bind_eq_ok, failIf_bind_eq_ok, failIf_bind_eq_ok] at h
          obtain ⟨-, hready, hamount, -, h⟩ := h
          cases hreservation : db.reservations.get?
              (entitlement.attributionId, entitlement.beneficiaryRole) with
          | none =>
            rw [hreservation] at h
            cases h
          | some reservation =>
            rw [hreservation] at h
            dsimp only at h
            rw [failIf_bind_eq_ok] at h
            obtain ⟨hreserved, h⟩ := h
            obtain ⟨last, hlast, h⟩ := bind_eq_ok.mp h
            rw [pure_eq_ok, Except.ok.injEq, Prod.mk.injEq] at h
            rw [← h.1]
            rw [not_or, not_not] at hready hreserved
            rw [not_or, not_lt] at hamount
            exact settleSpin_effects hamount.1 hentitlement hready.1 hreservation hreserved.1
              (not_lt.mp hreserved.2) hlast

end Spins

/-! ### Expiry -/

section Expiry

/-- An attribution that the loop may expire. -/
def Expirable (key : VersionKey) (r : Rewards) (id : Uuid) : Prop :=
  ∃ attr e, r.attributions.get? id = some attr ∧ attr.enrollment = some e ∧
    e.campaignVersion = key ∧ attr.qualifiedAt = none

theorem expireAttribution_rewards (now : Timestamp) (key : VersionKey) (state : Db × ExpiryResult)
    (id : Uuid) : (expireAttribution now key state id).1.rewards =
      { (if 0 < state.1.rewards.reservedFor id then
          state.1.rewards.updateCampaign key fun s => { s with
            reservedPaise := s.reservedPaise - state.1.rewards.reservedFor id }
        else state.1.rewards) with
        reservations := state.1.rewards.reservations.mapValues (releaseRow id)
        attributions := state.1.rewards.attributions.mapValues (disqualifyRow id now) } := by
  unfold expireAttribution
  dsimp only
  have hsum : state.1.reservedFor id = state.1.rewards.reservedFor id := rfl
  rw [hsum]
  split_ifs <;> rfl

theorem expirable_expireAttribution {now : Timestamp} {key : VersionKey} {state : Db × ExpiryResult}
    {id other : Uuid} (h : Expirable key state.1.rewards other) :
    Expirable key (expireAttribution now key state id).1.rewards other := by
  obtain ⟨attr, e, hattr, henrollment, hkey, hqualified⟩ := h
  refine ⟨disqualifyRow id now other attr, e, ?_, ?_, hkey, ?_⟩
  · rw [expireAttribution_rewards]
    exact (InsertionMap.get?_mapValues _ _ _).trans (by rw [hattr, Option.map_some])
  · unfold disqualifyRow
    split_ifs <;> exact henrollment
  · unfold disqualifyRow
    split_ifs <;> exact hqualified

theorem expireAttributions_effects {now : Timestamp} {key : VersionKey} {ids : List Uuid}
    {state : Db × ExpiryResult} (h : ∀ id ∈ ids, Expirable key state.1.rewards id) :
    Effects Live Lift state.1.rewards (ids.foldl (expireAttribution now key) state).1.rewards := by
  induction ids generalizing state with
  | nil => exact .refl
  | cons id ids ih =>
    rw [List.forall_mem_cons] at h
    obtain ⟨⟨attr, e, hattr, henrollment, rfl, hqualified⟩, hrest⟩ := h
    have hfirst := @Effect.expire Live Lift _ id attr e now hattr henrollment hqualified
    rw [← expireAttribution_rewards] at hfirst
    rw [List.foldl_cons]
    exact .head hfirst (ih fun other hother => expirable_expireAttribution (hrest other hother))

theorem expirable_of_mem_overdue {c : ExpiryCall} {key : VersionKey} {id : Uuid}
    (h : id ∈ db.overdueAttributions c key) : Expirable key db.rewards id := by
  unfold overdueAttributions at h
  rw [List.mem_insertionSort, List.mem_map] at h
  obtain ⟨⟨k, attr⟩, hmem, rfl⟩ := h
  rw [List.mem_filter, Bool.and_eq_true, Bool.and_eq_true, decide_eq_true_eq,
    Option.map_eq_some_iff] at hmem
  obtain ⟨hmem, ⟨hoverdue, e, henrollment, hkey⟩, -⟩ := hmem
  refine ⟨attr, e, InsertionMap.get?_eq_some_iff.mpr hmem, henrollment, hkey, ?_⟩
  unfold isOverdue at hoverdue
  rw [henrollment] at hoverdue
  simp only [Bool.and_eq_true, decide_eq_true_eq] at hoverdue
  exact hoverdue.1.1

theorem expireCampaign_effects {c : ExpiryCall} {key : VersionKey} (state : Db × ExpiryResult) :
    Effects Live Lift state.1.rewards (expireCampaign c state key).1.rewards := by
  unfold expireCampaign
  split_ifs
  · exact .refl
  · exact expireAttributions_effects fun id hid =>
      expirable_of_mem_overdue (List.mem_of_mem_take hid)

theorem expireReferralReservations_effects {c : ExpiryCall} {result : ExpiryResult}
    (h : db.expireReferralReservations c = .ok (db', result)) :
    Effects Live Lift db.rewards db'.rewards := by
  unfold expireReferralReservations at h
  rw [failIf_bind_eq_ok, pure_eq_ok, Except.ok.injEq] at h
  have hloop : ∀ (keys : List VersionKey) (state : Db × ExpiryResult),
      Effects Live Lift state.1.rewards (keys.foldl (expireCampaign c) state).1.rewards := by
    intro keys
    induction keys with
    | nil => exact fun _ => .refl
    | cons key keys ih =>
      intro state
      rw [List.foldl_cons]
      exact (expireCampaign_effects state).trans (ih _)
  have hrun := hloop (db.overdueCampaigns c.now) (db, ⟨0, 0⟩)
  rw [h.2] at hrun
  exact hrun

end Expiry

/-! ### Holds -/

section Holds

variable {c : HoldCall}

theorem writeSetting_effects {scope : HoldScope} {target : String} {setting : Setting}
    (hlift : scope = .fulfillment → setting = .flag false → Lift db.rewards target)
    (h : db.writeSetting scope target setting = .ok db') :
    Effects Live Lift db.rewards db'.rewards := by
  unfold writeSetting at h
  cases setting with
  | mode admissionMode =>
    dsimp only at h
    split_ifs at h
    cases h
    exact .refl
  | flag value =>
    dsimp only at h
    split_ifs at h
    cases h
    exact .single (.switch target scope value fun hscope hvalue => hlift hscope (by rw [hvalue]))

/-- Of the calls that lift a pause of fulfillment `Lift` is asked. -/
theorem setAdminReferralHold_effects {result : HoldResult}
    (hlift : c.scope = .fulfillment → c.paused = false → result.after = .flag false →
      Lift db.rewards result.target)
    (h : db.setAdminReferralHold c = .ok (db', result)) :
    Effects Live Lift db.rewards db'.rewards := by
  unfold setAdminReferralHold at h
  rw [failIf_bind_eq_ok, failIf_bind_eq_ok] at h
  obtain ⟨⟨target, current⟩, -, h⟩ := bind_eq_ok.mp h.2.2
  dsimp only at h
  cases hpaused : c.paused with
  | true =>
    rw [hpaused, if_pos rfl] at h
    obtain ⟨last, hlast, h⟩ := bind_eq_ok.mp h
    rw [pure_eq_ok, Except.ok.injEq, Prod.mk.injEq] at h
    rw [← h.1]
    refine @writeSetting_effects _ _ (db.putHold _ _ _) _ _ _ _ (fun hscope hsetting => ?_) hlast
    rw [hscope] at hsetting
    cases hsetting
  | false =>
    rw [hpaused, if_neg Bool.false_ne_true] at h
    cases hhold : db.holds.get? (c.scope, target) with
    | none =>
      rw [hhold] at h
      cases h
    | some hold =>
      rw [hhold] at h
      dsimp only at h
      rw [failIf_bind_eq_ok] at h
      obtain ⟨last, hlast, h⟩ := bind_eq_ok.mp h.2
      rw [pure_eq_ok, Except.ok.injEq, Prod.mk.injEq] at h
      rw [← h.2] at hlift
      have heffects := @writeSetting_effects Live Lift db last c.scope target hold.originalState
        (fun hscope => hlift hscope hpaused) hlast
      rw [← h.1]
      exact heffects

end Holds

end Db

end PandaPay.Referrals
