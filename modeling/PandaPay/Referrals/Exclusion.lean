import PandaPay.Referrals.Budget

/-!
# Qualification against expiry

A call of `record_engagement_day` chooses the attribution before it gets the lock. An expiry in
between disqualifies the attribution and releases its reservations, and the call, which checks under
the lock only that the attribution has not qualified, qualifies it all the same. Where no call gets
the lock too late, an attribution never is both, and what has been earned can be paid.

## Main definitions

* `Exclusive`, `Payable`: the two properties
* `Backed`: what is reserved for an attribution that is not disqualified

## Main results

* `exclusive_and_payable`: the properties hold where no call resumes after an expiry
-/

namespace PandaPay.Referrals

variable {Lift : Rewards → VersionKey → Prop} {r r' : Rewards}

/-- No attribution is both qualified and disqualified. -/
def Exclusive (r : Rewards) : Prop :=
  ∀ k attr, r.attributions.get? k = some attr →
    ¬ (attr.qualifiedAt ≠ none ∧ attr.disqualifiedAt ≠ none)

/-- For every entitlement that is not claimed there still is a reservation. -/
def Payable (r : Rewards) : Prop :=
  ∀ k row, r.entitlements.get? k = some row → row.state ≠ .claimed →
    ∃ reservation, r.reservations.get? (row.attributionId, row.beneficiaryRole) = some reservation ∧
      reservation.state = .reserved

/-- For each side of an attribution that is not disqualified something is reserved, until it has
claimed its entitlement. -/
def Backed (r : Rewards) : Prop :=
  ∀ k attr, r.attributions.get? k = some attr → attr.enrollment ≠ none →
    attr.disqualifiedAt = none → ∀ role,
      (∃ row, r.reservations.get? (k, role) = some row ∧ row.state = .reserved) ∨
        ∃ id row, r.entitlements.get? id = some row ∧ row.attributionId = k ∧
          row.beneficiaryRole = role ∧ row.state = .claimed

/-- A side of an attribution has at most one entitlement. -/
def OnePerSide (r : Rewards) : Prop :=
  ∀ k k' row row', r.entitlements.get? k = some row → r.entitlements.get? k' = some row' →
    row.attributionId = row'.attributionId → row.beneficiaryRole = row'.beneficiaryRole → k = k'

/-- What is reserved for a side that has not claimed its entitlement is there to pay it. -/
theorem Payable.of_backed (hlinked : Linked r) (hexclusive : Exclusive r) (hbacked : Backed r)
    (hone : OnePerSide r) : Payable r := by
  intro k row hrow hunclaimed
  obtain ⟨attr, e, hattr, henrollment, -, hqualified⟩ := hlinked.entitlement k row hrow
  have hlive : attr.disqualifiedAt = none :=
    not_not.mp fun hdisqualified => hexclusive _ attr hattr ⟨hqualified, hdisqualified⟩
  rcases hbacked _ attr hattr (by rw [henrollment]; simp) hlive row.beneficiaryRole with
    hreserved | ⟨id, other, hother, hside, hrole, hclaimed⟩
  · exact hreserved
  · obtain rfl := hone id k other row hother hrow hside hrole
    rw [hrow] at hother
    cases hother
    exact absurd hclaimed hunclaimed

/-! ### Steps -/

theorem Effect.exclusive (h : Effect (· = none) Lift r r') (hr : Exclusive r) : Exclusive r' := by
  cases h with
  | openAccount | grant | award | settle | switch => exact hr
  | refer _ _ hqualified | enroll _ _ hqualified =>
    exact InsertionMap.forall_get?_set hr fun h => h.1 hqualified
  | progress hf =>
    refine InsertionMap.forall_get?_mapValues fun k attr hattr => ?_
    rw [(hf k attr).2.1, (hf k attr).2.2]
    exact hr k attr hattr
  | @qualify id attr time hattr hlive =>
    refine InsertionMap.forall_get?_mapValues fun k row hrow => ?_
    rw [qualifyRow_disqualifiedAt]
    by_cases hk : k = id
    · rw [hk, hattr] at hrow
      cases hrow
      exact fun h => h.2 hlive
    · rw [qualifyRow, if_neg hk]
      exact hr k row hrow
  | expire =>
    refine InsertionMap.forall_get?_mapValues fun k row hrow => ?_
    unfold disqualifyRow
    split_ifs with hopen
    · exact fun h => h.1 hopen.2.2
    · exact hr k row hrow

theorem Effect.onePerSide {Live : Option Timestamp → Prop} (h : Effect Live Lift r r')
    (hr : OnePerSide r) : OnePerSide r' := by
  cases h with
  | openAccount | refer | enroll | progress | qualify | award | switch => exact hr
  | expire =>
    split_ifs <;> exact hr
  | @grant id new _ _ _ _ _ _ hnew hfirst =>
    intro k k' row row' hrow hrow' hside hrole
    dsimp only at hrow hrow'
    rw [InsertionMap.get?_set] at hrow hrow'
    split_ifs at hrow hrow' with hk hk' hk'
    · rw [hk, hk']
    · cases hrow
      exact absurd ⟨hside.symm, hrole.symm⟩ (hfirst k' row' hrow')
    · cases hrow'
      exact absurd ⟨hside, hrole⟩ (hfirst k row hrow)
    · exact hr k k' row row' hrow hrow' hside hrole
  | @settle id spin entitlement reservation _ hentitlement =>
    -- the sides are those from before
    have hold : ∀ k row, (r.entitlements.set spin.entitlementId
        { entitlement with state := .claimed }).get? k = some row →
          ∃ old, r.entitlements.get? k = some old ∧ old.attributionId = row.attributionId ∧
            old.beneficiaryRole = row.beneficiaryRole :=
      InsertionMap.forall_get?_set (fun k row hrow => ⟨row, hrow, rfl, rfl⟩)
        ⟨entitlement, hentitlement, rfl, rfl⟩
    intro k k' row row' hrow hrow' hside hrole
    obtain ⟨old, hold₁, hside₁, hrole₁⟩ := hold k row hrow
    obtain ⟨old', hold₂, hside₂, hrole₂⟩ := hold k' row' hrow'
    exact hr k k' old old' hold₁ hold₂ (by rw [hside₁, hside₂, hside]) (by rw [hrole₁, hrole₂, hrole])

/-- A claimed entitlement stays claimed, on its side. -/
theorem Effect.claimed {Live : Option Timestamp → Prop} (h : Effect Live Lift r r') {k : Uuid}
    {row : EntitlementRow} (hrow : r.entitlements.get? k = some row) (hclaimed : row.state = .claimed) :
    r'.entitlements.get? k = some row := by
  cases h with
  | openAccount | refer | enroll | progress | qualify | award | switch => exact hrow
  | expire =>
    split_ifs <;> exact hrow
  | grant _ _ _ _ hnew =>
    refine (InsertionMap.get?_set_of_ne _ _ ?_).trans hrow
    rintro rfl
    rw [hrow] at hnew
    cases hnew
  | settle _ hentitlement hready =>
    refine (InsertionMap.get?_set_of_ne _ _ ?_).trans hrow
    rintro rfl
    rw [hrow] at hentitlement
    cases hentitlement
    rw [hclaimed] at hready
    cases hready

theorem Effect.backed {Live : Option Timestamp → Prop} (h : Effect Live Lift r r')
    (hr : Backed r) : Backed r' := by
  -- an entitlement that has been claimed backs its side whatever happens
  have hpaid : ∀ {k role}, (∃ id row, r.entitlements.get? id = some row ∧ row.attributionId = k ∧
      row.beneficiaryRole = role ∧ row.state = .claimed) →
        ∃ id row, r'.entitlements.get? id = some row ∧ row.attributionId = k ∧
          row.beneficiaryRole = role ∧ row.state = .claimed := by
    rintro k role ⟨id, row, hrow, hside, hrole, hclaimed⟩
    exact ⟨id, row, h.claimed hrow hclaimed, hside, hrole, hclaimed⟩
  cases h with
  | openAccount | award | switch => exact hr
  | grant =>
    intro k attr hattr henrollment hlive role
    exact (hr k attr hattr henrollment hlive role).imp_right hpaid
  | refer _ hnone =>
    exact InsertionMap.forall_get?_set hr fun henrollment => absurd hnone henrollment
  | @enroll id row e inviter referee hnew _ _ hinviter hreferee =>
    refine InsertionMap.forall_get?_set ?_ ?_
    · intro k attr hattr henrollment hlive role
      refine (hr k attr hattr henrollment hlive role).imp_left ?_
      rintro ⟨old, hold, hstate⟩
      have hk : k ≠ id := by
        rintro rfl
        rw [hattr] at hnew
        cases hnew
      refine ⟨old, ?_, hstate⟩
      exact (InsertionMap.get?_set_of_ne _ _ (by simp [hk])).trans
        ((InsertionMap.get?_set_of_ne _ _ (by simp [hk])).trans hold)
    · intro _ _ role
      left
      cases role with
      | inviter =>
        exact ⟨inviter, (InsertionMap.get?_set_of_ne _ _ (by simp)).trans
          (InsertionMap.get?_set_self ..), hinviter.2.1⟩
      | referee => exact ⟨referee, InsertionMap.get?_set_self .., hreferee.2.1⟩
  | progress hf =>
    refine InsertionMap.forall_get?_mapValues fun k attr hattr => ?_
    rw [(hf k attr).1, (hf k attr).2.2]
    exact hr k attr hattr
  | qualify =>
    refine InsertionMap.forall_get?_mapValues fun k attr hattr => ?_
    rw [qualifyRow_enrollment, qualifyRow_disqualifiedAt]
    exact hr k attr hattr
  | @settle id spin entitlement reservation _ hentitlement =>
    intro k attr hattr henrollment hlive role
    by_cases hside : (k, role) = (entitlement.attributionId, entitlement.beneficiaryRole)
    · obtain ⟨rfl, rfl⟩ := Prod.mk.inj hside
      exact .inr ⟨spin.entitlementId, { entitlement with state := .claimed },
        InsertionMap.get?_set_self .., rfl, rfl, rfl⟩
    · refine (hr k attr hattr henrollment hlive role).imp ?_ hpaid
      rintro ⟨row, hrow, hstate⟩
      exact ⟨row, (InsertionMap.get?_set_of_ne _ _ hside).trans hrow, hstate⟩
  | @expire id attr e now hattr _ hqualified =>
    refine InsertionMap.forall_get?_mapValues fun k row hrow henrollment hlive role => ?_
    by_cases hk : k = id
    · -- the attribution itself is disqualified now
      subst hk
      rw [hattr] at hrow
      cases hrow
      unfold disqualifyRow at hlive
      split_ifs at hlive with hopen
      exact absurd ⟨rfl, hlive, hqualified⟩ hopen
    · rw [disqualifyRow, if_neg fun h => hk h.1] at henrollment hlive
      refine (hr k row hrow henrollment hlive role).imp ?_ ?_
      · rintro ⟨old, hold, hstate⟩
        refine ⟨old, ?_, hstate⟩
        dsimp only
        rw [InsertionMap.get?_mapValues, hold, Option.map_some, releaseRow, if_neg fun h => hk h.1]
      · intro hclaimed
        split_ifs <;> exact hclaimed

/-! ### Runs -/

namespace System

/-- A call that gets the lock with a move finds its attribution as it chose it: unless it has
qualified, it is not disqualified. -/
def resumesInTime (s : System) (m : Move) : Bool :=
  ((s.granted m).bind fun w => s.db.attributions.get? w.attribution).all fun attr =>
    attr.qualifiedAt.isSome || attr.disqualifiedAt.isNone

/-- Every move of a run resumes in time. -/
def allInTime : System → List Move → Bool
  | _, [] => true
  | s, m :: moves => s.resumesInTime m && allInTime (s.move m) moves

theorem resumes_of_inTime {s : System} {m : Move} (h : s.resumesInTime m = true) :
    s.Resumes (· = none) m := by
  intro w hw attr hattr hqualified
  unfold resumesInTime at h
  rw [hw, Option.bind_some, hattr] at h
  simpa [hqualified] using h

/-- What the effects of moves in time keep holds after a run of them. -/
theorem run_induction {P : Rewards → Prop}
    (hstep : ∀ r r', P r → Effect (· = none) (fun _ _ => True) r r' → P r') {s : System}
    (hs : P s.db.rewards) {moves : List Move} (h : s.allInTime moves = true) :
    P (s.run moves).db.rewards := by
  induction moves generalizing s with
  | nil => exact hs
  | cons m moves ih =>
    rw [allInTime, Bool.and_eq_true] at h
    refine ih ?_ h.2
    exact Effects.invariant hstep hs
      (move_effects rfl (fun _ _ _ _ _ _ _ _ _ _ => trivial) (resumes_of_inTime h.1))

end System

/-- In every run in which no call of `record_engagement_day` gets the lock after its attribution has
been disqualified, no attribution is both qualified and disqualified, and every entitlement that is
not claimed can be paid. -/
theorem exclusive_and_payable {s : System} (hinitial : s.db.Initial) {moves : List Move}
    (hintime : s.allInTime moves = true) :
    Exclusive (s.run moves).db.rewards ∧ Payable (s.run moves).db.rewards := by
  have hrun := @System.run_induction (fun r => Linked r ∧ Exclusive r ∧ Backed r ∧ OnePerSide r)
    ?_ s ?_ moves hintime
  · obtain ⟨hlinked, hexclusive, hbacked, hone⟩ := hrun
    exact ⟨hexclusive, .of_backed hlinked hexclusive hbacked hone⟩
  · rintro r r' ⟨hlinked, hexclusive, hbacked, hone⟩ heffect
    exact ⟨heffect.linked hlinked, heffect.exclusive hexclusive, heffect.backed hbacked,
      heffect.onePerSide hone⟩
  · refine ⟨hinitial.invariant.1, ?_⟩
    rw [hinitial.rewards_eq]
    exact ⟨nofun, nofun, nofun⟩

/-- `"arun"` hands in a receipt of his last second just before the lifetime of receipts is over. -/
def lastReceipt : EngagementCall := arunActive (seconds 86429) (seconds 86399)

/-- The expiry as soon as the lifetime of receipts is over. -/
def expiry : Call := .expire ⟨seconds 86430, 50, []⟩

theorem exclusive_and_payable_pilot :
    (⟨pilot, []⟩ : System).allInTime
        [.call arunJoins, .begin lastReceipt, .finish 0, .call expiry] = true ∧
      Exclusive ((⟨pilot, []⟩ : System).run
        [.call arunJoins, .begin lastReceipt, .finish 0, .call expiry]).db.rewards :=
  have hintime : (⟨pilot, []⟩ : System).allInTime
      [.call arunJoins, .begin lastReceipt, .finish 0, .call expiry] = true := by decide +kernel
  ⟨hintime, (exclusive_and_payable pilot_initial hintime).1⟩

/-- The expiry comes between the reads of the call and its lock: `"arun"` qualifies after he has been
disqualified. -/
theorem not_exclusive_and_payable :
    ¬ ∀ (s : System) (moves : List Move), s.db.Initial →
      Exclusive (s.run moves).db.rewards ∧ Payable (s.run moves).db.rewards := by
  intro h
  have hboth : (((⟨pilot, []⟩ : System).run
      [.call arunJoins, .begin lastReceipt, .call expiry, .finish 0]).db.attributions.get?
        "referral").any (fun attr => attr.qualifiedAt.isSome && attr.disqualifiedAt.isSome) =
          true := by decide +kernel
  obtain ⟨attr, hattr, hboth⟩ := (Option.any_eq_true _ _).mp hboth
  rw [Bool.and_eq_true, Option.isSome_iff_ne_none, Option.isSome_iff_ne_none] at hboth
  exact (h ⟨pilot, []⟩ _ pilot_initial).1 "referral" attr hattr hboth

end PandaPay.Referrals
