import PandaPay.Referrals.Runs

/-!
# The budget and the credit ledger

After every run of the referral functions a campaign's counters are the sums of its reservations and
spins, within its budget; an account holds what its ledger rows add up to; and an entitlement is
claimed by exactly one spin, for at most what was reserved.

## Main definitions

* `Linked`: rows refer to rows that are there
* `Budgeted`, `Accounted`, `SpunOnce`: the parts of the invariant

## Main results

* `budget_and_ledger`: the invariant holds after every run
-/

namespace PandaPay.Referrals

variable {Live : Option Timestamp → Prop} {Lift : Rewards → VersionKey → Prop} {r r' : Rewards}

/-- What a reservation reserves in a campaign. -/
def reservedShare (key : VersionKey) (row : ReservationRow) : ℤ :=
  if row.campaignVersion = key ∧ row.state = .reserved then row.reservedPaise else 0

/-- What a spin issues in a campaign. -/
def issuedShare (key : VersionKey) (spin : SpinRow) : ℤ :=
  if spin.campaignVersion = key then spin.amountPaise else 0

/-- What a ledger row credits to a profile. -/
def creditedShare (user : Uuid) (row : CreditLedgerRow) : ℤ :=
  if row.profileId = user then row.availableDeltaPaise else 0

namespace Rewards

/-- What is reserved in a campaign. -/
def reservedIn (r : Rewards) (key : VersionKey) : ℤ := r.reservations.sum fun _ => reservedShare key

/-- What the spins of a campaign have issued. -/
def issuedIn (r : Rewards) (key : VersionKey) : ℤ := r.spins.sum fun _ => issuedShare key

/-- What the ledger rows of a profile add up to. -/
def creditedTo (r : Rewards) (user : Uuid) : ℤ := r.creditLedger.sum fun _ => creditedShare user

end Rewards

/-! ### Rows refer to rows that are there -/

/-- Reservations and entitlements belong to enrolled attributions of their campaign, and a spin to a
claimed entitlement. -/
structure Linked (r : Rewards) : Prop where
  reservation : ∀ k row, r.reservations.get? k = some row →
    ∃ attr e, r.attributions.get? k.1 = some attr ∧ attr.enrollment = some e ∧
      row.campaignVersion = e.campaignVersion ∧ 0 ≤ row.reservedPaise
  entitlement : ∀ k row, r.entitlements.get? k = some row →
    ∃ attr e, r.attributions.get? row.attributionId = some attr ∧ attr.enrollment = some e ∧
      row.campaignVersion = e.campaignVersion ∧ attr.qualifiedAt ≠ none
  spin : ∀ k spin, r.spins.get? k = some spin →
    ∃ row, r.entitlements.get? spin.entitlementId = some row ∧ row.state = .claimed

/-- An attribution stays, with its enrollment, and qualified once it is. -/
theorem Effect.attribution (h : Effect Live Lift r r') {k : Uuid} {attr : AttributionRow}
    (hattr : r.attributions.get? k = some attr) :
    ∃ attr', r'.attributions.get? k = some attr' ∧ attr'.enrollment = attr.enrollment ∧
      (attr.qualifiedAt ≠ none → attr'.qualifiedAt ≠ none) := by
  have hset : ∀ {id : Uuid} {row : AttributionRow}, r.attributions.get? id = none →
      ∃ attr', (r.attributions.set id row).get? k = some attr' ∧
        attr'.enrollment = attr.enrollment ∧
          (attr.qualifiedAt ≠ none → attr'.qualifiedAt ≠ none) := by
    intro id row hnew
    refine ⟨attr, ?_, rfl, fun h => h⟩
    rw [InsertionMap.get?_set_of_ne _ _ ?_, hattr]
    rintro rfl
    rw [hattr] at hnew
    cases hnew
  have hmap : ∀ {f : Uuid → AttributionRow → AttributionRow}, (f k attr).enrollment =
      attr.enrollment → (attr.qualifiedAt ≠ none → (f k attr).qualifiedAt ≠ none) →
        ∃ attr', (r.attributions.mapValues f).get? k = some attr' ∧
          attr'.enrollment = attr.enrollment ∧
            (attr.qualifiedAt ≠ none → attr'.qualifiedAt ≠ none) := by
    intro f henrollment hqualified
    refine ⟨f k attr, ?_, henrollment, hqualified⟩
    rw [InsertionMap.get?_mapValues, hattr, Option.map_some]
  cases h with
  | openAccount | grant | award | settle | switch => exact ⟨attr, hattr, rfl, id⟩
  | refer hnew => exact hset hnew
  | enroll hnew => exact hset hnew
  | progress hf => exact hmap (hf k attr).1 fun h => (hf k attr).2.1 ▸ h
  | qualify time =>
    refine hmap (qualifyRow_enrollment ..) fun h => ?_
    unfold qualifyRow
    split_ifs <;> simp_all
  | expire now =>
    apply hmap
    · unfold disqualifyRow
      split_ifs <;> rfl
    · intro h
      unfold disqualifyRow
      split_ifs <;> exact h

/-- An effect that leaves the entitlements of claimed spins alone keeps rows linked. -/
theorem Effect.linked (h : Effect Live Lift r r') (hr : Linked r) : Linked r' := by
  -- what the old rows refer to is still there
  have hreservation : ∀ k row, r.reservations.get? k = some row →
      ∃ attr e, r'.attributions.get? k.1 = some attr ∧ attr.enrollment = some e ∧
        row.campaignVersion = e.campaignVersion ∧ 0 ≤ row.reservedPaise := by
    intro k row hrow
    obtain ⟨attr, e, hattr, henrollment, hcampaign, hnonneg⟩ := hr.reservation k row hrow
    obtain ⟨attr', hattr', hsame, -⟩ := h.attribution hattr
    exact ⟨attr', e, hattr', hsame.trans henrollment, hcampaign, hnonneg⟩
  have hentitlement : ∀ k row, r.entitlements.get? k = some row →
      ∃ attr e, r'.attributions.get? row.attributionId = some attr ∧ attr.enrollment = some e ∧
        row.campaignVersion = e.campaignVersion ∧ attr.qualifiedAt ≠ none := by
    intro k row hrow
    obtain ⟨attr, e, hattr, henrollment, hcampaign, hqualified⟩ := hr.entitlement k row hrow
    obtain ⟨attr', hattr', hsame, hstill⟩ := h.attribution hattr
    exact ⟨attr', e, hattr', hsame.trans henrollment, hcampaign, hstill hqualified⟩
  cases h with
  | openAccount | refer | progress | qualify | award | switch =>
    exact ⟨hreservation, hentitlement, hr.spin⟩
  | enroll hnew henrollment _ hinviter hreferee =>
    refine ⟨?_, hentitlement, hr.spin⟩
    refine InsertionMap.forall_get?_set (InsertionMap.forall_get?_set hreservation ?_) ?_
    · exact ⟨_, _, InsertionMap.get?_set_self .., henrollment, hinviter.1, hinviter.2.2⟩
    · exact ⟨_, _, InsertionMap.get?_set_self .., henrollment, hreferee.1, hreferee.2.2⟩
  | @grant id row attr e hattr henrollment hcampaign hqualified hnew =>
    refine ⟨hreservation, InsertionMap.forall_get?_set hentitlement
      ⟨attr, e, hattr, henrollment, hcampaign, hqualified⟩, ?_⟩
    intro k spin hspin
    obtain ⟨old, hold, hclaimed⟩ := hr.spin k spin hspin
    refine ⟨old, (InsertionMap.get?_set_of_ne _ _ ?_).trans hold, hclaimed⟩
    intro hsame
    rw [← hsame, hold] at hnew
    cases hnew
  | @settle id spin entitlement reservation _ hold _ hcampaign hreserved =>
    refine ⟨InsertionMap.forall_get?_set hreservation ?_,
      InsertionMap.forall_get?_set hentitlement ?_, InsertionMap.forall_get?_set ?_ ?_⟩
    · exact hreservation _ reservation hreserved
    · exact hentitlement _ entitlement hold
    · intro k old hspin
      obtain ⟨row, hrow, hclaimed⟩ := hr.spin k old hspin
      by_cases hsame : old.entitlementId = spin.entitlementId
      · exact ⟨{ entitlement with state := .claimed },
          by rw [hsame]; exact InsertionMap.get?_set_self .., rfl⟩
      · exact ⟨row, (InsertionMap.get?_set_of_ne _ _ hsame).trans hrow, hclaimed⟩
    · exact ⟨_, InsertionMap.get?_set_self .., rfl⟩
  | expire =>
    refine ⟨?_, ?_, ?_⟩
    · refine InsertionMap.forall_get?_mapValues fun k row hrow => ?_
      obtain ⟨attr, e, hattr, henrollment, hcampaign⟩ := hreservation k row hrow
      refine ⟨attr, e, hattr, henrollment, ?_⟩
      unfold releaseRow
      split_ifs <;> exact hcampaign
    · split_ifs at hentitlement ⊢ <;> exact hentitlement
    · split_ifs <;> exact hr.spin

/-! ### The budget -/

/-- The counters of a campaign are the sums of its reservations and spins, within its budget. -/
def Budgeted (r : Rewards) : Prop :=
  ∀ key state, r.campaigns.get? key = some state →
    state.reservedPaise = r.reservedIn key ∧ state.issuedPaise = r.issuedIn key ∧
      state.issuedPaise + state.reservedPaise ≤ state.totalBudgetPaise

/-- An enrollment reserves both prizes in its campaign. -/
theorem sum_reserve {id : Uuid} {key : VersionKey} {inviter referee : ReservationRow}
    (hinviter : inviter.campaignVersion = key ∧ inviter.state = .reserved)
    (hreferee : referee.campaignVersion = key ∧ referee.state = .reserved)
    (hfree : r.reservations.get? (id, .inviter) = none ∧ r.reservations.get? (id, .referee) = none)
    (k : VersionKey) :
    ((r.reservations.set (id, .inviter) inviter).set (id, .referee) referee).sum
      (fun _ => reservedShare k) = r.reservedIn k +
        if k = key then inviter.reservedPaise + referee.reservedPaise else 0 := by
  have hfree' : (r.reservations.set (id, .inviter) inviter).get? (id, .referee) = none := by
    rw [InsertionMap.get?_set_of_ne _ _ (by simp), hfree.2]
  rw [InsertionMap.sum_set_of_get?_eq_none hfree', InsertionMap.sum_set_of_get?_eq_none hfree.1,
    reservedShare, reservedShare, hinviter.1, hinviter.2, hreferee.1, hreferee.2, Rewards.reservedIn]
  by_cases hkey : k = key
  · simp [hkey, add_assoc]
  · simp [hkey, Ne.symm hkey]

/-- A settled reservation reserves nothing. -/
theorem sum_settle {k : Uuid × Role} {row : ReservationRow} {campaign : VersionKey}
    (hrow : r.reservations.get? k = some row) (hstate : row.state = .reserved)
    (hcampaign : row.campaignVersion = campaign) (amount : ℤ) (key : VersionKey) :
    (r.reservations.set k { row with state := .settled amount }).sum (fun _ => reservedShare key) +
      (if key = campaign then row.reservedPaise else 0) = r.reservedIn key := by
  subst hcampaign
  have hset := InsertionMap.sum_set r.reservations (fun _ => reservedShare key) k
    { row with state := .settled amount }
  rw [hrow, Option.elim_some] at hset
  simpa [reservedShare, hstate, eq_comm, Rewards.reservedIn] using hset

/-- A spin issues its amount in its campaign. -/
theorem sum_issue {id : Uuid} {spin : SpinRow} (hnew : r.spins.get? id = none) (key : VersionKey) :
    (r.spins.set id spin).sum (fun _ => issuedShare key) =
      r.issuedIn key + if key = spin.campaignVersion then spin.amountPaise else 0 := by
  rw [InsertionMap.sum_set_of_get?_eq_none hnew, Rewards.issuedIn]
  simp only [issuedShare, eq_comm]

/-- What is released for an attribution is taken from the reservations of its campaign. -/
theorem sum_release {id : Uuid} {e : Enrollment} {attr : AttributionRow} (hr : Linked r)
    (hattr : r.attributions.get? id = some attr) (henrollment : attr.enrollment = some e)
    (key : VersionKey) :
    (r.reservations.mapValues (releaseRow id)).sum (fun _ => reservedShare key) +
      (if key = e.campaignVersion then r.reservedFor id else 0) = r.reservedIn key := by
  have hfor : (if key = e.campaignVersion then r.reservedFor id else 0) =
      r.reservations.sum fun k row => if key = e.campaignVersion ∧ k.1 = id ∧ row.state = .reserved
        then row.reservedPaise else 0 := by
    unfold Rewards.reservedFor
    split_ifs with hkey
    · simp [hkey]
    · simp [hkey, InsertionMap.sum]
  rw [InsertionMap.sum_mapValues, hfor, ← InsertionMap.sum_add]
  unfold Rewards.reservedIn
  refine InsertionMap.sum_congr fun k row hmem => ?_
  unfold releaseRow
  by_cases hid : k.1 = id
  · obtain ⟨attr', e', hattr', henrollment', hcampaign, -⟩ :=
      hr.reservation k row (InsertionMap.get?_eq_some_iff.mpr hmem)
    rw [hid, hattr] at hattr'
    obtain rfl := Option.some.inj hattr'
    obtain rfl : e = e' := Option.some.inj (henrollment.symm.trans henrollment')
    by_cases hstate : row.state = .reserved
    · simp [reservedShare, hid, hstate, hcampaign, eq_comm]
    · simp [hid, hstate]
  · simp [hid]

theorem reservedFor_nonneg (hr : Linked r) (id : Uuid) : 0 ≤ r.reservedFor id := by
  refine List.sum_nonneg fun x hx => ?_
  obtain ⟨e, he, rfl⟩ := List.mem_map.mp hx
  obtain ⟨-, -, -, -, -, hnonneg⟩ := hr.reservation e.1 e.2 (InsertionMap.get?_eq_some_iff.mpr he)
  dsimp only
  split_ifs
  · exact hnonneg
  · exact le_rfl

theorem Effect.budgeted (h : Effect Live Lift r r') (hlinked : Linked r) (hr : Budgeted r) :
    Budgeted r' := by
  cases h with
  | openAccount | refer | progress | qualify | grant | award => exact hr
  | enroll _ _ _ hinviter hreferee hfree hroom =>
    have hsum := sum_reserve ⟨hinviter.1, hinviter.2.1⟩ ⟨hreferee.1, hreferee.2.1⟩ hfree
    refine InsertionMap.forall_get?_mapValues fun key state hstate => ?_
    obtain ⟨hreserved, hissued, hbudget⟩ := hr key state hstate
    have hsum := hsum key
    rw [Rewards.reservedIn]
    split_ifs at hsum ⊢ with hkey
    · have hfits := hroom state (hkey ▸ hstate)
      refine ⟨?_, hissued, ?_⟩ <;> dsimp only <;> omega
    · exact ⟨by rw [hreserved, hsum, add_zero], hissued, hbudget⟩
  | @settle id spin entitlement reservation hnonneg hentitlement _ hcampaign hreservation hstate
      hcovered hnew =>
    obtain ⟨attr, e, hattr, henrollment, hown, -⟩ := hlinked.reservation _ _ hreservation
    obtain ⟨attr', e', hattr', henrollment', hown', -⟩ := hlinked.entitlement _ _ hentitlement
    obtain rfl : attr = attr' := Option.some.inj (hattr.symm.trans hattr')
    obtain rfl : e = e' := Option.some.inj (henrollment.symm.trans henrollment')
    refine InsertionMap.forall_get?_mapValues fun key state hrow => ?_
    obtain ⟨hreserved, hissued, hbudget⟩ := hr key state hrow
    have hreservedSum :=
      sum_settle hreservation hstate (hown.trans hown'.symm) spin.amountPaise key
    have hissuedSum := @sum_issue r id spin hnew key
    rw [hcampaign] at hissuedSum
    rw [Rewards.reservedIn, Rewards.issuedIn]
    split_ifs at hreservedSum hissuedSum ⊢ with hkey
    · refine ⟨?_, ?_, ?_⟩ <;> dsimp only <;> omega
    · exact ⟨by rw [hreserved, ← hreservedSum, add_zero], by rw [hissued, hissuedSum, add_zero],
        hbudget⟩
  | @expire id attr e _ hattr henrollment =>
    have hsum := sum_release hlinked hattr henrollment
    have hnonneg := reservedFor_nonneg hlinked id
    split_ifs with hrelease
    · refine InsertionMap.forall_get?_mapValues fun key state hstate => ?_
      obtain ⟨hreserved, hissued, hbudget⟩ := hr key state hstate
      have hsum := hsum key
      rw [Rewards.reservedIn]
      split_ifs at hsum ⊢ with hkey
      · refine ⟨?_, hissued, ?_⟩ <;> dsimp only <;> omega
      · exact ⟨by rw [hreserved, ← hsum, add_zero], hissued, hbudget⟩
    · intro key state hstate
      obtain ⟨hreserved, hissued, hbudget⟩ := hr key state hstate
      have hsum := hsum key
      rw [show r.reservedFor id = 0 by omega, ite_self, add_zero] at hsum
      exact ⟨hreserved.trans hsum.symm, hissued, hbudget⟩
  | switch key scope value =>
    refine InsertionMap.forall_get?_mapValues fun k state hstate => ?_
    have hkept := hr k state hstate
    split_ifs
    · cases scope <;> exact hkept
    · exact hkept

/-! ### The credit ledger -/

/-- An account holds what its ledger rows add up to, and no row is without its account. -/
structure Accounted (r : Rewards) : Prop where
  available : ∀ user account, r.creditAccounts.get? user = some account →
    account.availablePaise = r.creditedTo user ∧ 0 ≤ account.availablePaise
  unopened : ∀ user, r.creditAccounts.get? user = none → r.creditedTo user = 0

/-- An account that is opened has no ledger rows yet. -/
theorem Accounted.open {user : Uuid} (hr : Accounted r) (owner : Uuid) (account : CreditAccountRow)
    (h : (insertIfNew r.creditAccounts user ⟨0, 0⟩).get? owner = some account) :
    account.availablePaise = r.creditedTo owner ∧ 0 ≤ account.availablePaise := by
  rw [get?_insertIfNew] at h
  split_ifs at h with howner
  · cases hold : r.creditAccounts.get? user with
    | none =>
      rw [hold, Option.getD_none, Option.some.injEq] at h
      subst h howner
      exact ⟨(hr.unopened owner hold).symm, le_rfl⟩
    | some old =>
      rw [hold, Option.getD_some, Option.some.injEq] at h
      subst h howner
      exact hr.available owner old hold
  · exact hr.available owner account h

theorem Effect.accounted (h : Effect Live Lift r r') (hr : Accounted r) : Accounted r' := by
  cases h with
  | refer | enroll | progress | qualify | grant | settle | switch => exact ⟨hr.available, hr.unopened⟩
  | expire =>
    split_ifs <;> exact ⟨hr.available, hr.unopened⟩
  | openAccount user =>
    refine ⟨hr.open, fun owner hnone => ?_⟩
    dsimp only at hnone
    rw [get?_insertIfNew] at hnone
    split_ifs at hnone
    exact hr.unopened owner hnone
  | @award id row hpositive hnew =>
    have hsum : ∀ user, (r.creditLedger.set id row).sum (fun _ => creditedShare user) =
        r.creditedTo user + if user = row.profileId then row.availableDeltaPaise else 0 := by
      intro user
      rw [InsertionMap.sum_set_of_get?_eq_none hnew, Rewards.creditedTo]
      simp only [creditedShare, eq_comm]
    refine ⟨?_, ?_⟩
    · refine InsertionMap.forall_get?_mapValues fun user account haccount => ?_
      obtain ⟨havailable, hnonneg⟩ := hr.open user account haccount
      have hsum := hsum user
      rw [Rewards.creditedTo]
      unfold creditRow
      split_ifs at hsum ⊢ with howner
      · refine ⟨?_, ?_⟩ <;> dsimp only <;> omega
      · exact ⟨by rw [havailable, hsum, add_zero], hnonneg⟩
    · intro user hnone
      rw [InsertionMap.get?_mapValues, Option.map_eq_none_iff, get?_insertIfNew] at hnone
      split_ifs at hnone with howner
      rw [Rewards.creditedTo, hsum, hr.unopened user hnone, if_neg howner, add_zero]

/-! ### Spins -/

/-- An entitlement is claimed by exactly one spin, for at most what was reserved. -/
structure SpunOnce (r : Rewards) : Prop where
  claimed : ∀ k row, r.entitlements.get? k = some row → row.state = .claimed →
    ∃ id spin, r.spins.get? id = some spin ∧ spin.entitlementId = k
  unique : ∀ id id' spin spin', r.spins.get? id = some spin → r.spins.get? id' = some spin' →
    spin.entitlementId = spin'.entitlementId → id = id'
  covered : ∀ id spin, r.spins.get? id = some spin →
    ∃ row reservation, r.entitlements.get? spin.entitlementId = some row ∧
      r.reservations.get? (row.attributionId, row.beneficiaryRole) = some reservation ∧
        0 ≤ spin.amountPaise ∧ spin.amountPaise ≤ reservation.reservedPaise

theorem Effect.spunOnce (h : Effect Live Lift r r') (hr : SpunOnce r) : SpunOnce r' := by
  cases h with
  | openAccount | refer | progress | qualify | award | switch =>
    exact ⟨hr.claimed, hr.unique, hr.covered⟩
  | @enroll id row e inviter referee _ _ _ _ _ hfree =>
    refine ⟨hr.claimed, hr.unique, fun k spin hspin => ?_⟩
    obtain ⟨row, reservation, hrow, hreservation, hbounds⟩ := hr.covered k spin hspin
    refine ⟨row, reservation, hrow, ?_, hbounds⟩
    have hne : ∀ role, r.reservations.get? (id, role) = none →
        (row.attributionId, row.beneficiaryRole) ≠ (id, role) := by
      intro role hnone hsame
      rw [hsame, hnone] at hreservation
      cases hreservation
    exact (InsertionMap.get?_set_of_ne _ _ (hne .referee hfree.2)).trans
      ((InsertionMap.get?_set_of_ne _ _ (hne .inviter hfree.1)).trans hreservation)
  | @grant id row _ _ _ _ _ _ hnew _ hstate =>
    refine ⟨InsertionMap.forall_get?_set hr.claimed fun hclaimed => ?_, hr.unique, fun k spin hspin => ?_⟩
    · rcases hstate with hready | ⟨hheld, -⟩
      · rw [hclaimed] at hready
        cases hready
      · rw [hclaimed] at hheld
        cases hheld
    · obtain ⟨old, reservation, hold, hreservation, hbounds⟩ := hr.covered k spin hspin
      refine ⟨old, reservation, (InsertionMap.get?_set_of_ne _ _ ?_).trans hold, hreservation, hbounds⟩
      intro hsame
      rw [← hsame, hold] at hnew
      cases hnew
  | @settle id spin entitlement reservation hnonneg hentitlement _ _ hreservation _ hcovered hnew
      hfirst =>
    have hkeep : ∀ {k old}, r.spins.get? k = some old → (r.spins.set id spin).get? k = some old := by
      intro k old hold
      refine (InsertionMap.get?_set_of_ne _ _ ?_).trans hold
      rintro rfl
      rw [hold] at hnew
      cases hnew
    refine ⟨InsertionMap.forall_get?_set ?_ ?_, ?_, InsertionMap.forall_get?_set ?_ ?_⟩
    · intro k row hrow hclaimed
      obtain ⟨id', old, hold, hof⟩ := hr.claimed k row hrow hclaimed
      exact ⟨id', old, hkeep hold, hof⟩
    · intro _
      exact ⟨id, spin, InsertionMap.get?_set_self .., rfl⟩
    · intro i j one two hone htwo hsame
      dsimp only at hone htwo
      rw [InsertionMap.get?_set] at hone htwo
      split_ifs at hone htwo with hi hj hj
      · rw [hi, hj]
      · cases hone
        exact absurd hsame.symm (hfirst j two htwo)
      · cases htwo
        exact absurd hsame (hfirst i one hone)
      · exact hr.unique i j one two hone htwo hsame
    · intro k old hold
      obtain ⟨row, reserved, hrow, hreserved, hbounds⟩ := hr.covered k old hold
      have hrow' := (InsertionMap.get?_set_of_ne r.entitlements
        { entitlement with state := .claimed } (hfirst k old hold)).trans hrow
      by_cases hkey : (row.attributionId, row.beneficiaryRole) =
          (entitlement.attributionId, entitlement.beneficiaryRole)
      · rw [hkey, hreservation] at hreserved
        cases hreserved
        exact ⟨row, { reservation with state := .settled spin.amountPaise }, hrow',
          by rw [hkey]; exact InsertionMap.get?_set_self .., hbounds⟩
      · exact ⟨row, reserved, hrow', (InsertionMap.get?_set_of_ne _ _ hkey).trans hreserved, hbounds⟩
    · exact ⟨{ entitlement with state := .claimed },
        { reservation with state := .settled spin.amountPaise }, InsertionMap.get?_set_self ..,
        InsertionMap.get?_set_self .., hnonneg, hcovered⟩
  | @expire id =>
    have hreserved : ∀ k row, r.reservations.get? k = some row →
        ∃ row', (r.reservations.mapValues (releaseRow id)).get? k = some row' ∧
          row'.reservedPaise = row.reservedPaise := by
      intro k row hrow
      refine ⟨releaseRow id k row, by rw [InsertionMap.get?_mapValues, hrow, Option.map_some], ?_⟩
      unfold releaseRow
      split_ifs <;> rfl
    have hcovered : ∀ k spin, r.spins.get? k = some spin →
        ∃ row reservation, r.entitlements.get? spin.entitlementId = some row ∧
          (r.reservations.mapValues (releaseRow id)).get?
            (row.attributionId, row.beneficiaryRole) = some reservation ∧
              0 ≤ spin.amountPaise ∧ spin.amountPaise ≤ reservation.reservedPaise := by
      intro k spin hspin
      obtain ⟨row, reservation, hrow, hreservation, hbounds⟩ := hr.covered k spin hspin
      obtain ⟨released, hreleased, hsame⟩ := hreserved _ _ hreservation
      exact ⟨row, released, hrow, hreleased, hsame ▸ hbounds⟩
    split_ifs <;> exact ⟨hr.claimed, hr.unique, hcovered⟩

/-! ### Runs -/

/-- The invariant holds before anything has been promised. -/
theorem Db.Initial.invariant {db : Db} (h : db.Initial) :
    Linked db.rewards ∧ Budgeted db.rewards ∧ Accounted db.rewards ∧ SpunOnce db.rewards := by
  rw [h.rewards_eq]
  refine ⟨⟨nofun, nofun, nofun⟩, ?_, ⟨nofun, fun _ _ => rfl⟩, ⟨nofun, nofun, nofun⟩⟩
  intro key state hstate
  obtain ⟨hissued, hreserved, hbudget⟩ := h.campaigns key state hstate
  refine ⟨hreserved, hissued, ?_⟩
  rw [hissued, hreserved, add_zero]
  exact hbudget

/-- After every run of the functions the counters of a campaign are the sums of its reservations and
spins, within its budget; an account holds the sum of its ledger rows; and an entitlement has at most
one spin, has one exactly when it is claimed, for at most what was reserved for it. -/
theorem budget_and_ledger {db : Db} (hinitial : db.Initial) (calls : List Call) :
    let r := (db.run calls).rewards
    (∀ key state, r.campaigns.get? key = some state →
      state.reservedPaise = r.reservedIn key ∧ state.issuedPaise = r.issuedIn key ∧
        state.issuedPaise + state.reservedPaise ≤ state.totalBudgetPaise) ∧
    (∀ user account, r.creditAccounts.get? user = some account →
      account.availablePaise = r.creditedTo user ∧ 0 ≤ account.availablePaise) ∧
    (∀ id id' spin spin', r.spins.get? id = some spin → r.spins.get? id' = some spin' →
      spin.entitlementId = spin'.entitlementId → id = id') ∧
    (∀ k row, r.entitlements.get? k = some row →
      (row.state = .claimed ↔ ∃ id spin, r.spins.get? id = some spin ∧ spin.entitlementId = k)) ∧
    ∀ id spin, r.spins.get? id = some spin →
      ∃ row reservation, r.entitlements.get? spin.entitlementId = some row ∧
        r.reservations.get? (row.attributionId, row.beneficiaryRole) = some reservation ∧
          spin.amountPaise ≤ reservation.reservedPaise := by
  intro r
  have hinvariant : Linked r ∧ Budgeted r ∧ Accounted r ∧ SpunOnce r := by
    refine Db.run_induction (P := fun r => Linked r ∧ Budgeted r ∧ Accounted r ∧ SpunOnce r)
      ?_ ?_ calls
    · rintro r r' ⟨hlinked, hbudgeted, haccounted, hspun⟩ heffect
      exact ⟨heffect.linked hlinked, heffect.budgeted hlinked hbudgeted,
        heffect.accounted haccounted, heffect.spunOnce hspun⟩
    · exact hinitial.invariant
  obtain ⟨hlinked, hbudgeted, haccounted, hspun⟩ := hinvariant
  refine ⟨hbudgeted, haccounted.available, hspun.unique, fun k row hrow => ?_, fun id spin hspin => ?_⟩
  · refine ⟨hspun.claimed k row hrow, ?_⟩
    rintro ⟨id, spin, hspin, rfl⟩
    obtain ⟨row', hrow', hclaimed⟩ := hlinked.spin id spin hspin
    rw [hrow] at hrow'
    cases hrow'
    exact hclaimed
  · obtain ⟨row, reservation, hrow, hreservation, -, hbound⟩ := hspun.covered id spin hspin
    exact ⟨row, reservation, hrow, hreservation, hbound⟩

theorem budget_and_ledger_pilot :
    Budgeted (pilot.run [arunJoins, .record (arunActive 1 1), arunSpins]).rewards ∧
      (pilot.run [arunJoins, .record (arunActive 1 1), arunSpins]).creditAccounts.get? "arun" =
        some ⟨500, 1⟩ :=
  ⟨(budget_and_ledger pilot_initial _).1, by decide +kernel⟩

end PandaPay.Referrals
