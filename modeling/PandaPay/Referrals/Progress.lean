import PandaPay.Referrals.Runs
import PandaPay.Referrals.Streaks

/-!
# The progress of a referral

What an invited profile's calls of `record_engagement_day` make of its attribution: in whatever order receipts
arrive, its streaks and its qualification are those of the set of days that are recorded.

## Main definitions

* `Db.recordAll`: the state after calls of `record_engagement_day`
* `Joined`: a profile has just accepted an invitation with rewards
* `Tracks`: what its calls keep

## Main results

* `Tracks.step`: a call keeps it
* `referral_streak`: the streaks agree with the rules of the API, and the order of receipts does not matter
-/

namespace PandaPay.Referrals

namespace Db

/-- The state after calls of `record_engagement_day`; one that raises leaves it as it was. -/
def recordAll (db : Db) (calls : List EngagementCall) : Db := db.run (calls.map .record)

/-- The local dates that are stored for a profile in a campaign. -/
def storedDates (db : Db) (user : Uuid) (campaign : VersionKey) : List Date :=
  (db.engagementDays.values.filter fun day => day.profileId = user ∧ day.campaignVersion = campaign).map
    EngagementDayRow.localDate

/-- The entitlements of an attribution. -/
def entitlementsFor (db : Db) (attribution : Uuid) : List EntitlementRow :=
  db.entitlements.values.filter fun row => row.attributionId = attribution

/-- Every call returns. -/
def Accepts (db : Db) : List EngagementCall → Prop
  | [] => True
  | c :: calls => (∃ result, db.recordEngagementDay c = .ok result) ∧ (db.apply (.record c)).Accepts calls

/-- A profile has just accepted an invitation with rewards. An attribution is the only one of its profile, and days
are required, as the schema has it. -/
structure Joined (db : Db) (user attribution : Uuid) (e : Enrollment) (version : CampaignVersion) : Prop where
  row : ∃ attr, db.attributions.get? attribution = some attr ∧ attr.refereeId = user ∧ attr.enrollment = some e ∧
    attr.currentStreakDays = 0 ∧ attr.bestStreakDays = 0 ∧ attr.qualifiedAt = none ∧ attr.disqualifiedAt = none
  only : ∀ k row, db.attributions.get? k = some row → row.refereeId = user → k = attribution
  required : 1 ≤ version.requiredConsecutiveDays ∧ version.requiredConsecutiveDays ≤ 30
  version : db.versions.get? e.campaignVersion = some version
  days : ∀ receipt row, db.engagementDays.get? receipt = some row → row.profileId ≠ user
  entitlements : ∀ id row, db.entitlements.get? id = some row → row.attributionId ≠ attribution

theorem recordAll_append (db : Db) (calls : List EngagementCall) (c : EngagementCall) :
    db.recordAll (calls ++ [c]) = (db.recordAll calls).apply (.record c) := by
  rw [recordAll, List.map_append, run, List.foldl_append]
  rfl

theorem apply_of_ok {db db' : Db} {c : EngagementCall} {result : EngagementResult}
    (h : db.recordEngagementDay c = .ok (db', result)) : db.apply (.record c) = db' := by
  have hcall : db.call (.record c) = .ok db' := congrArg (Prod.fst <$> ·) h
  rw [apply, hcall]
  rfl

theorem apply_of_error {db : Db} {c : EngagementCall} {e : Raised} (h : db.recordEngagementDay c = .error e) :
    db.apply (.record c) = db := by
  have hcall : db.call (.record c) = .error e := congrArg (Prod.fst <$> ·) h
  rw [apply, hcall]
  rfl

theorem accepts_append {db : Db} {calls : List EngagementCall} {c : EngagementCall} :
    db.Accepts (calls ++ [c]) ↔ db.Accepts calls ∧ ∃ result, (db.recordAll calls).recordEngagementDay c = .ok result := by
  induction calls generalizing db with
  | nil => exact ⟨fun h => ⟨trivial, h.1⟩, fun h => ⟨h.2, trivial⟩⟩
  | cons d calls ih =>
    rw [List.cons_append, Accepts, Accepts, ih, and_assoc]
    rfl

end Db

/-! ### One call -/

section Call

variable {db db' : Db} {c : EngagementCall} {user attribution : Uuid} {attr : AttributionRow} {e : Enrollment}

theorem mem_storedDates {campaign : VersionKey} {day : Date} : day ∈ db.storedDates user campaign ↔
    ∃ receipt row, db.engagementDays.get? receipt = some row ∧ row.profileId = user ∧
      row.campaignVersion = campaign ∧ row.localDate = day := by
  rw [Db.storedDates, List.mem_map]
  simp only [List.mem_filter, InsertionMap.mem_values_iff, decide_eq_true_eq]
  constructor
  · rintro ⟨row, ⟨⟨receipt, hreceipt⟩, hprofile, hcampaign⟩, hday⟩
    exact ⟨receipt, row, hreceipt, hprofile, hcampaign, hday⟩
  · rintro ⟨receipt, row, hreceipt, hprofile, hcampaign, hday⟩
    exact ⟨row, ⟨⟨receipt, hreceipt⟩, hprofile, hcampaign⟩, hday⟩

/-- The row of a call. -/
def dayRow (c : EngagementCall) (user : Uuid) (campaign : VersionKey) : EngagementDayRow :=
  ⟨user, campaign, localDate c.serverActivityAt, c.serverActivityAt, c.sourceAction⟩

/-- A new receipt adds its day, if that is not there yet. -/
theorem mem_storedDates_insertDay {campaign : VersionKey} (hnew : db.engagementDays.get? c.receiptId = none)
    {day : Date} : day ∈ (db.insertDay c.receiptId (dayRow c user campaign)).1.storedDates user campaign ↔
      day = localDate c.serverActivityAt ∨ day ∈ db.storedDates user campaign := by
  rw [Db.insertDay]
  split_ifs with hthere
  · rw [iff_or_self]
    rintro rfl
    rcases hthere with hkey | hday
    · exact absurd hkey (InsertionMap.get?_eq_none_iff.mp hnew)
    · obtain ⟨row, hrow, hsame⟩ := List.any_eq_true.mp hday
      obtain ⟨receipt, hreceipt⟩ := InsertionMap.mem_values_iff.mp hrow
      obtain ⟨hprofile, hcampaign, hdate⟩ := of_decide_eq_true hsame
      exact mem_storedDates.mpr ⟨receipt, row, hreceipt, hprofile, hcampaign, hdate⟩
  · rw [mem_storedDates, mem_storedDates]
    constructor
    · rintro ⟨receipt, row, hreceipt, hprofile, hcampaign, hday⟩
      rw [InsertionMap.get?_set] at hreceipt
      split_ifs at hreceipt with heq
      · rw [← Option.some.inj hreceipt] at hday
        exact .inl hday.symm
      · exact .inr ⟨receipt, row, hreceipt, hprofile, hcampaign, hday⟩
    · rintro (rfl | ⟨receipt, row, hreceipt, hprofile, hcampaign, hday⟩)
      · exact ⟨c.receiptId, dayRow c user campaign, InsertionMap.get?_set_self _ _ _, rfl, rfl, rfl⟩
      · have hne : receipt ≠ c.receiptId := by
          rintro rfl
          rw [hnew] at hreceipt
          cases hreceipt
        exact ⟨receipt, row, (InsertionMap.get?_set_of_ne _ _ hne).trans hreceipt, hprofile, hcampaign, hday⟩

/-- The rows after a new receipt. -/
theorem get?_insertDay {receipt receipt' : String} {row row' : EngagementDayRow}
    (h : (db.insertDay receipt row).1.engagementDays.get? receipt' = some row') :
    receipt' = receipt ∧ row' = row ∨ db.engagementDays.get? receipt' = some row' := by
  rw [Db.insertDay] at h
  split_ifs at h with hthere
  · exact .inr h
  · rw [InsertionMap.get?_set] at h
    split_ifs at h with heq
    · exact .inl ⟨heq, (Option.some.inj h).symm⟩
    · exact .inr h

theorem insertDay_eq (db : Db) (receipt : String) (row : EngagementDayRow) :
    ∃ engagementDays, (db.insertDay receipt row).1 = { db with engagementDays } := by
  rw [Db.insertDay]
  split_ifs
  · exact ⟨db.engagementDays, rfl⟩
  · exact ⟨_, rfl⟩

/-- An entitlement is inserted if its side has none. -/
theorem insertEntitlement_eq_ok {id : Uuid} {row : EntitlementRow}
    (hnone : ∀ old ∈ db.entitlementsFor row.attributionId, old.beneficiaryRole ≠ row.beneficiaryRole)
    (h : db.insertEntitlement id row = .ok db') :
    ∃ entitlements, db' = { db with entitlements } ∧
      db'.entitlementsFor row.attributionId = db.entitlementsFor row.attributionId ++ [row] := by
  rw [Db.insertEntitlement] at h
  split_ifs at h with hany
  · obtain ⟨old, hold, hsame⟩ := List.any_eq_true.mp hany
    obtain ⟨hattribution, hrole⟩ := of_decide_eq_true hsame
    exact absurd hrole (hnone old (List.mem_filter.mpr ⟨hold, decide_eq_true hattribution⟩))
  · obtain ⟨entitlements, hrow, h⟩ := bind_eq_ok.mp h
    obtain ⟨hnew, rfl⟩ := insertRow_eq_ok.mp hrow
    rw [pure_eq_ok, Except.ok.injEq] at h
    subst h
    refine ⟨_, rfl, ?_⟩
    have hvalues : (db.entitlements.set id row).values = db.entitlements.values ++ [row] := by
      rw [InsertionMap.values, InsertionMap.entries_set_of_notMem row (InsertionMap.get?_eq_none_iff.mp hnew),
        List.map_append]
      rfl
    have hkeep : [row].filter (fun old => old.attributionId = row.attributionId) = [row] :=
      List.filter_eq_self.mpr fun old hold => decide_eq_true (congrArg _ (List.mem_singleton.mp hold))
    rw [Db.entitlementsFor, Db.entitlementsFor, hvalues, List.filter_append, hkeep]

/-- What the streaks of a call leave: the counters, and with enough days the qualification and both entitlements. -/
theorem applyStreaks_eq_ok {requiredDays : ℕ} {paused : Bool} {days : Streaks}
    (hrow : db.attributions.get? attribution = some attr) (hqualified : attr.qualifiedAt = none)
    (hnone : db.entitlementsFor attribution = [])
    (h : db.applyStreaks c attribution attr e requiredDays paused days = .ok db') :
    db'.attributions.get? attribution = some { attr with
        currentStreakDays := days.current (localDate c.now)
        bestStreakDays := max attr.bestStreakDays days.best
        qualifiedAt := if requiredDays ≤ days.best then some c.serverActivityAt else none } ∧
      (∀ k, k ≠ attribution → db'.attributions.get? k = db.attributions.get? k) ∧
      (db'.engagementDays = db.engagementDays ∧ db'.versions = db.versions) ∧
      (db'.entitlementsFor attribution).map (·.beneficiaryRole) =
        if requiredDays ≤ days.best then [.inviter, .referee] else [] := by
  have hstreak : ∀ k, (db.attributions.mapValues
      (streakRow attribution (days.current (localDate c.now)) days.best)).get? k =
        (db.attributions.get? k).map (streakRow attribution (days.current (localDate c.now)) days.best k) :=
    fun k => InsertionMap.get?_mapValues _ _ k
  have hother : ∀ (k : Uuid) (o : Option AttributionRow), k ≠ attribution →
      o.map (streakRow attribution (days.current (localDate c.now)) days.best k) = o := by
    intro k o hk
    cases o with
    | none => rfl
    | some row => exact congrArg some (if_neg hk)
  rw [Db.applyStreaks] at h
  by_cases hreached : requiredDays ≤ days.best
  · rw [if_pos ⟨hreached, hqualified⟩, Db.qualify] at h
    obtain ⟨mid, hmid, h⟩ := bind_eq_ok.mp h
    obtain ⟨entitlements, hmid', hfirst⟩ := insertEntitlement_eq_ok
      (fun old hold => absurd (hnone ▸ hold) List.not_mem_nil) hmid
    have hrole : ∀ old ∈ mid.entitlementsFor attribution, old.beneficiaryRole ≠ Role.referee := by
      intro old hold
      rw [hfirst] at hold
      rcases List.mem_append.mp hold with hold | hold
      · exact absurd (hnone ▸ hold) List.not_mem_nil
      · rw [List.mem_singleton.mp hold]
        exact fun hrole => by cases hrole
    obtain ⟨entitlements', hdb', hsecond⟩ := insertEntitlement_eq_ok hrole h
    subst hmid' hdb'
    refine ⟨?_, fun k hk => ?_, ⟨rfl, rfl⟩, ?_⟩
    · rw [if_pos hreached]
      refine (InsertionMap.get?_mapValues _ _ attribution).trans ?_
      rw [Db.updateStreaks, hstreak, hrow, Option.map_some, Option.map_some, streakRow, if_pos rfl, qualifyRow,
        if_pos rfl]
      exact congrArg some (if_pos hqualified)
    · refine (InsertionMap.get?_mapValues _ _ k).trans ?_
      rw [Db.updateStreaks, hstreak, hother k _ hk]
      cases db.attributions.get? k with
      | none => rfl
      | some row => exact congrArg some (if_neg hk)
    · rw [if_pos hreached, hsecond, hfirst, List.map_append, List.map_append]
      exact congrArg (fun l : List EntitlementRow => l.map EntitlementRow.beneficiaryRole ++ [.inviter] ++ [.referee])
        hnone
  · rw [if_neg fun hboth => hreached hboth.1] at h
    cases h
    refine ⟨?_, fun k hk => ?_, ⟨rfl, rfl⟩, ?_⟩
    · rw [if_neg hreached, Db.updateStreaks, hstreak, hrow, Option.map_some, streakRow, if_pos rfl, ← hqualified]
    · rw [Db.updateStreaks, hstreak, hother k _ hk]
    · rw [if_neg hreached]
      exact congrArg (List.map _) hnone

end Call

/-! ### What calls keep -/

/-- What calls of `record_engagement_day` keep of an attribution: its days come from the calls, and its counters,
its qualification and its entitlements are those of its days. -/
structure Tracks (db : Db) (user attribution : Uuid) (e : Enrollment) (version : CampaignVersion)
    (calls : List EngagementCall) (attr : AttributionRow) : Prop where
  row : db.attributions.get? attribution = some attr
  referee : attr.refereeId = user
  enrollment : attr.enrollment = some e
  live : attr.disqualifiedAt = none
  only : ∀ k row, db.attributions.get? k = some row → row.refereeId = user → k = attribution
  required : 1 ≤ version.requiredConsecutiveDays ∧ version.requiredConsecutiveDays ≤ 30
  versionRow : db.versions.get? e.campaignVersion = some version
  days : ∀ receipt row, db.engagementDays.get? receipt = some row → row.profileId = user →
    (attr.joinedAt ≤ row.serverActivityAt ∧ row.serverActivityAt < e.deadlineAt) ∧
      ∃ c ∈ calls, c.receiptId = receipt ∧ row.localDate = localDate c.serverActivityAt
  best : attr.bestStreakDays = (streaks (distinctDates (db.storedDates user e.campaignVersion))).best
  qualified : attr.qualifiedAt.isSome = decide (version.requiredConsecutiveDays ≤ attr.bestStreakDays)
  entitlements : (db.entitlementsFor attribution).map (·.beneficiaryRole) =
    if version.requiredConsecutiveDays ≤ attr.bestStreakDays then [.inviter, .referee] else []
  current : (∀ day, day ∉ db.storedDates user e.campaignVersion) ∨ ∃ c ∈ calls, attr.currentStreakDays =
    (streaks (distinctDates (db.storedDates user e.campaignVersion))).current (localDate c.now)

section Tracks

variable {db db' : Db} {c : EngagementCall} {calls : List EngagementCall} {user attribution : Uuid}
  {attr : AttributionRow} {e : Enrollment} {version : CampaignVersion} {result : EngagementResult}

theorem Db.Joined.tracks (h : db.Joined user attribution e version) : ∃ attr, Tracks db user attribution e version [] attr := by
  obtain ⟨attr, hrow, hreferee, henrollment, -, hbest, hqualified, hlive⟩ := h.row
  have hdays : ∀ day, day ∉ db.storedDates user e.campaignVersion := by
    intro day hday
    obtain ⟨receipt, row, hreceipt, hprofile, -⟩ := mem_storedDates.mp hday
    exact h.days receipt row hreceipt hprofile
  have hnone : db.entitlementsFor attribution = [] := by
    refine List.filter_eq_nil_iff.mpr fun row hrow hsame => ?_
    obtain ⟨id, hid⟩ := InsertionMap.mem_values_iff.mp hrow
    exact h.entitlements id row hid (of_decide_eq_true hsame)
  have hnotyet : ¬ version.requiredConsecutiveDays ≤ attr.bestStreakDays := by
    rw [hbest]
    have := h.required.1
    omega
  refine ⟨attr,
    { row := hrow
      referee := hreferee
      enrollment := henrollment
      live := hlive
      only := h.only
      required := h.required
      versionRow := h.version
      days := fun receipt row hreceipt hprofile => absurd hprofile (h.days receipt row hreceipt)
      best := ?_
      qualified := ?_
      entitlements := ?_
      current := .inl hdays }⟩
  · have hempty : db.storedDates user e.campaignVersion = [] := List.eq_nil_iff_forall_not_mem.mpr hdays
    rw [hbest, hempty]
    rfl
  · rw [hqualified, decide_eq_false hnotyet]
    rfl
  · rw [if_neg hnotyet, hnone]
    rfl

/-- What a call by the profile does: nothing once the attribution is qualified, and nothing for a receipt that is
recorded; a new receipt is recorded with the streaks. -/
theorem Tracks.recordEngagementDay_eq_ok (h : Tracks db user attribution e version calls attr)
    (hcaller : c.caller = some user) (hok : db.recordEngagementDay c = .ok (db', result)) :
    attr.qualifiedAt ≠ none ∧ db' = db ∨
      attr.qualifiedAt = none ∧ (attr.joinedAt ≤ c.serverActivityAt ∧ c.serverActivityAt < e.deadlineAt) ∧
        ((∃ row, db.engagementDays.get? c.receiptId = some row ∧ row.profileId = user) ∧ db' = db ∨
          db.engagementDays.get? c.receiptId = none ∧ ∃ paused,
            (db.insertDay c.receiptId (dayRow c user e.campaignVersion)).1.applyStreaks c attribution attr e
              version.requiredConsecutiveDays paused
              (streaks ((db.insertDay c.receiptId (dayRow c user e.campaignVersion)).1.daysOf user attr e)) =
              .ok db') := by
  rw [Db.recordEngagementDay] at hok
  obtain ⟨chosen, hchosen, hok⟩ := bind_eq_ok.mp hok
  have hentry : (attribution, attr) ∈ db.attributions.entries := InsertionMap.get?_eq_some_iff.mp h.row
  cases chosen with
  | none =>
    rw [pure_eq_ok, Except.ok.injEq, Prod.mk.injEq] at hok
    refine .inl ⟨fun hnone => ?_, hok.1.symm⟩
    -- the attribution would have been found
    rw [Db.chooseAttribution, hcaller] at hchosen
    dsimp only at hchosen
    rw [failIf_bind_eq_ok, failIf_bind_eq_ok, pure_eq_ok, Except.ok.injEq, Option.map_eq_none_iff,
      Db.activeAttribution, List.find?_eq_none] at hchosen
    refine hchosen.2.2 _ hentry (decide_eq_true ⟨h.referee, ?_, hnone, h.live⟩)
    rw [h.enrollment]
    rfl
  | some chosen =>
    obtain ⟨user', attribution'⟩ := chosen
    have huser : user' = user := by
      rw [Db.chooseAttribution, hcaller] at hchosen
      dsimp only at hchosen
      rw [failIf_bind_eq_ok, failIf_bind_eq_ok, pure_eq_ok, Except.ok.injEq, Option.map_eq_some_iff] at hchosen
      obtain ⟨-, -, entry, -, heq⟩ := hchosen
      exact (Prod.mk.inj heq).1.symm
    subst huser
    obtain ⟨attr', hattr', hreferee', -, hqualified', -⟩ := Db.chooseAttribution_eq_ok hchosen
    obtain rfl := h.only attribution' attr' hattr' hreferee'
    obtain rfl := Option.some.inj (h.row.symm.trans hattr')
    refine .inr ⟨hqualified', ?_⟩
    simp only [Db.recordDay, h.row, h.enrollment, h.versionRow] at hok
    rw [failIf_bind_eq_ok] at hok
    obtain ⟨hwindow, hok⟩ := hok
    push Not at hwindow
    refine ⟨hwindow, ?_⟩
    cases hday : db.engagementDays.get? c.receiptId with
    | some day =>
      rw [hday] at hok
      dsimp only at hok
      rw [failIf_bind_eq_ok, not_not, pure_eq_ok, Except.ok.injEq, Prod.mk.injEq] at hok
      exact .inl ⟨⟨day, rfl, hok.1⟩, hok.2.1.symm⟩
    | none =>
      rw [hday] at hok
      rw [Db.recordReceipt] at hok
      obtain ⟨last, hlast, hok⟩ := bind_eq_ok.mp hok
      rw [pure_eq_ok, Except.ok.injEq, Prod.mk.injEq] at hok
      obtain rfl := hok.1
      exact .inr ⟨rfl, _, hlast⟩

/-- More calls, of which nothing is kept. -/
theorem Tracks.mono (h : Tracks db user attribution e version calls attr) {calls' : List EngagementCall}
    (hsub : ∀ c ∈ calls, c ∈ calls') : Tracks db user attribution e version calls' attr :=
  { h with
    days := fun receipt row hreceipt hprofile => by
      obtain ⟨hwindow, c, hc, hrow⟩ := h.days receipt row hreceipt hprofile
      exact ⟨hwindow, c, hsub c hc, hrow⟩
    current := h.current.imp_right fun ⟨c, hc, hcurrent⟩ => ⟨c, hsub c hc, hcurrent⟩ }

/-- The days that the database counts are those that are stored. -/
theorem daysOf_eq (hdays : ∀ receipt row, db.engagementDays.get? receipt = some row → row.profileId = user →
      attr.joinedAt ≤ row.serverActivityAt ∧ row.serverActivityAt < e.deadlineAt) :
    db.daysOf user attr e = distinctDates (db.storedDates user e.campaignVersion) := by
  refine distinctDates_congr fun day => ?_
  rw [mem_storedDates, List.mem_map]
  simp only [List.mem_filter, InsertionMap.mem_values_iff, decide_eq_true_eq]
  constructor
  · rintro ⟨row, ⟨⟨receipt, hreceipt⟩, hprofile, hcampaign, -⟩, hday⟩
    exact ⟨receipt, row, hreceipt, hprofile, hcampaign, hday⟩
  · rintro ⟨receipt, row, hreceipt, hprofile, hcampaign, hday⟩
    exact ⟨row, ⟨⟨receipt, hreceipt⟩, hprofile, hcampaign, hdays receipt row hreceipt hprofile⟩, hday⟩

/-- A call with a new receipt: its day is stored, and the counters are computed anew. -/
theorem Tracks.step_new (h : Tracks db user attribution e version calls attr) (hqualified : attr.qualifiedAt = none)
    (hwindow : attr.joinedAt ≤ c.serverActivityAt ∧ c.serverActivityAt < e.deadlineAt)
    (hnew : db.engagementDays.get? c.receiptId = none) {paused : Bool}
    (hok : (db.insertDay c.receiptId (dayRow c user e.campaignVersion)).1.applyStreaks c attribution attr e
      version.requiredConsecutiveDays paused
      (streaks ((db.insertDay c.receiptId (dayRow c user e.campaignVersion)).1.daysOf user attr e)) = .ok db') :
    ∃ attr', Tracks db' user attribution e version (calls ++ [c]) attr' ∧
      attr'.currentStreakDays =
        (streaks (distinctDates (db'.storedDates user e.campaignVersion))).current (localDate c.now) ∧
      localDate c.serverActivityAt ∈ db'.storedDates user e.campaignVersion ∧
      ∀ day ∈ db.storedDates user e.campaignVersion, day ∈ db'.storedDates user e.campaignVersion := by
  obtain ⟨engagementDays, hinserted⟩ := insertDay_eq db c.receiptId (dayRow c user e.campaignVersion)
  have hstored : ∀ day, day ∈ ({ db with engagementDays } : Db).storedDates user e.campaignVersion ↔
      day = localDate c.serverActivityAt ∨ day ∈ db.storedDates user e.campaignVersion := fun day => by
    rw [← hinserted]
    exact mem_storedDates_insertDay hnew
  have hrows : ∀ receipt row, engagementDays.get? receipt = some row → row.profileId = user →
      (attr.joinedAt ≤ row.serverActivityAt ∧ row.serverActivityAt < e.deadlineAt) ∧
        ∃ d ∈ calls ++ [c], d.receiptId = receipt ∧ row.localDate = localDate d.serverActivityAt := by
    intro receipt row hreceipt hprofile
    have hget : (db.insertDay c.receiptId (dayRow c user e.campaignVersion)).1.engagementDays.get? receipt =
        some row := by rw [hinserted]; exact hreceipt
    rcases get?_insertDay hget with ⟨rfl, rfl⟩ | hold
    · exact ⟨hwindow, c, List.mem_append_right _ (List.mem_singleton_self c), rfl, rfl⟩
    · obtain ⟨hin, d, hd, hrow⟩ := h.days receipt row hold hprofile
      exact ⟨hin, d, List.mem_append_left _ hd, hrow⟩
  have hdaysOf : ({ db with engagementDays } : Db).daysOf user attr e =
      distinctDates (({ db with engagementDays } : Db).storedDates user e.campaignVersion) :=
    daysOf_eq fun receipt row hreceipt hprofile => (hrows receipt row hreceipt hprofile).1
  have hnotyet : ¬ version.requiredConsecutiveDays ≤ attr.bestStreakDays := by
    intro hle
    have := h.qualified
    rw [hqualified, decide_eq_true hle] at this
    cases this
  have hnone : ({ db with engagementDays } : Db).entitlementsFor attribution = [] := by
    have := h.entitlements
    rw [if_neg hnotyet, List.map_eq_nil_iff] at this
    exact this
  rw [hinserted, hdaysOf] at hok
  have hrow' : ({ db with engagementDays } : Db).attributions.get? attribution = some attr := h.row
  obtain ⟨hrow, hothers, ⟨hdays, hversions⟩, hentitlements⟩ :=
    applyStreaks_eq_ok hrow' hqualified hnone hok
  have hsame : db'.storedDates user e.campaignVersion =
      ({ db with engagementDays } : Db).storedDates user e.campaignVersion := by
    rw [Db.storedDates, hdays, Db.storedDates]
  have hbest : attr.bestStreakDays ≤
      (streaks (distinctDates (({ db with engagementDays } : Db).storedDates user e.campaignVersion))).best := by
    rw [h.best]
    exact best_mono fun day hday => (hstored day).mpr (.inr hday)
  have hcurrent : (streaks (distinctDates (({ db with engagementDays } : Db).storedDates user
        e.campaignVersion))).current (localDate c.now) =
      (streaks (distinctDates (db'.storedDates user e.campaignVersion))).current (localDate c.now) := by
    rw [hsame]
  have htracks : Tracks db' user attribution e version (calls ++ [c]) _ :=
    { row := hrow
      referee := h.referee
      enrollment := h.enrollment
      live := h.live
      only := fun k row hk hreferee => by
        by_contra hne
        rw [hothers k hne] at hk
        exact hne (h.only k row hk hreferee)
      required := h.required
      versionRow := by
        rw [hversions]
        exact h.versionRow
      days := fun receipt row hreceipt hprofile => by
        rw [hdays] at hreceipt
        exact hrows receipt row hreceipt hprofile
      best := by
        rw [hsame]
        exact max_eq_right hbest
      qualified := by
        dsimp only
        rw [max_eq_right hbest]
        split_ifs with hreached
        · rw [decide_eq_true hreached]
          rfl
        · rw [decide_eq_false hreached]
          rfl
      entitlements := by
        dsimp only
        rw [max_eq_right hbest]
        exact hentitlements
      current := .inr ⟨c, List.mem_append_right _ (List.mem_singleton_self c), hcurrent⟩ }
  rw [← hsame] at hstored
  exact ⟨_, htracks, hcurrent, (hstored _).mpr (.inl rfl), fun day hday => (hstored day).mpr (.inr hday)⟩

/-- What a call by the profile leads to. -/
structure Outcome (db db' : Db) (user attribution : Uuid) (e : Enrollment) (c : EngagementCall)
    (attr attr' : AttributionRow) : Prop where
  qualified : attr.qualifiedAt ≠ none → db' = db ∧ attr' = attr
  kept : ∀ day ∈ db.storedDates user e.campaignVersion, day ∈ db'.storedDates user e.campaignVersion
  stored : attr.qualifiedAt = none → localDate c.serverActivityAt ∈ db'.storedDates user e.campaignVersion ∨
    ∃ row, db.engagementDays.get? c.receiptId = some row ∧ row.profileId = user
  replayed : attr.qualifiedAt = none → db.engagementDays.get? c.receiptId ≠ none → db' = db ∧ attr' = attr
  recorded : attr.qualifiedAt = none → db.engagementDays.get? c.receiptId = none → attr'.currentStreakDays =
    (streaks (distinctDates (db'.storedDates user e.campaignVersion))).current (localDate c.now)

/-- **A call keeps it.** -/
theorem Tracks.step (h : Tracks db user attribution e version calls attr) (hcaller : c.caller = some user)
    (hok : db.recordEngagementDay c = .ok (db', result)) :
    ∃ attr', Tracks db' user attribution e version (calls ++ [c]) attr' ∧
      Outcome db db' user attribution e c attr attr' := by
  have hsub : ∀ d ∈ calls, d ∈ calls ++ [c] := fun d hd => List.mem_append_left _ hd
  rcases h.recordEngagementDay_eq_ok hcaller hok with
    ⟨hqualified, rfl⟩ | ⟨hqualified, hwindow, ⟨⟨row, hrow, hprofile⟩, rfl⟩ | ⟨hnew, paused, hstreaks⟩⟩
  · exact ⟨attr, h.mono hsub, fun _ => ⟨rfl, rfl⟩, fun _ hday => hday, fun hnone => absurd hnone hqualified,
      fun hnone => absurd hnone hqualified, fun hnone => absurd hnone hqualified⟩
  · refine ⟨attr, h.mono hsub, fun hnone => absurd hqualified hnone, fun _ hday => hday,
      fun _ => .inr ⟨row, hrow, hprofile⟩, fun _ _ => ⟨rfl, rfl⟩, fun _ hnone => ?_⟩
    rw [hrow] at hnone
    cases hnone
  · obtain ⟨attr', htracks, hcurrent, hstored, hkept⟩ := h.step_new hqualified hwindow hnew hstreaks
    exact ⟨attr', htracks, fun hnone => absurd hqualified hnone, hkept, fun _ => .inl hstored,
      fun _ hsome => absurd hnew hsome, fun _ _ => hcurrent⟩

end Tracks

/-! ### Runs of calls -/

section Runs

variable {db : Db} {calls calls' : List EngagementCall} {user attribution : Uuid} {e : Enrollment}
  {version : CampaignVersion}

theorem Db.Joined.tracks_recordAll (h : db.Joined user attribution e version) (hcallers : ∀ c ∈ calls, c.caller = some user) :
    ∃ attr, Tracks (db.recordAll calls) user attribution e version calls attr := by
  induction calls using List.reverseRecOn with
  | nil => exact h.tracks
  | append_singleton calls c ih =>
    obtain ⟨attr, htracks⟩ := ih fun d hd => hcallers d (List.mem_append_left _ hd)
    rw [Db.recordAll_append]
    cases hcall : (db.recordAll calls).recordEngagementDay c with
    | error error =>
      rw [Db.apply_of_error hcall]
      exact ⟨attr, htracks.mono fun d hd => List.mem_append_left _ hd⟩
    | ok result =>
      rw [Db.apply_of_ok hcall]
      obtain ⟨attr', htracks', -⟩ :=
        htracks.step (hcallers c (List.mem_append_right _ (List.mem_singleton_self c))) hcall
      exact ⟨attr', htracks'⟩

/-- One receipt states one time. -/
def OneTimePerReceipt (calls : List EngagementCall) : Prop :=
  ∀ c ∈ calls, ∀ d ∈ calls, c.receiptId = d.receiptId → c.serverActivityAt = d.serverActivityAt

/-- As long as the attribution does not qualify, the day of every receipt is stored. -/
theorem Db.Joined.stored_of_accepts (h : db.Joined user attribution e version)
    (hcallers : ∀ c ∈ calls, c.caller = some user) (haccepts : db.Accepts calls) (hone : OneTimePerReceipt calls)
    {attr : AttributionRow} (htracks : Tracks (db.recordAll calls) user attribution e version calls attr)
    (hqualified : attr.qualifiedAt = none) :
    ∀ c ∈ calls, localDate c.serverActivityAt ∈ (db.recordAll calls).storedDates user e.campaignVersion := by
  induction calls using List.reverseRecOn generalizing attr with
  | nil => exact fun c hc => absurd hc List.not_mem_nil
  | append_singleton calls c ih =>
    obtain ⟨haccepts, ⟨db', result⟩, hcall⟩ := Db.accepts_append.mp haccepts
    have hcallers' : ∀ d ∈ calls, d.caller = some user := fun d hd => hcallers d (List.mem_append_left _ hd)
    have hc : c ∈ calls ++ [c] := List.mem_append_right _ (List.mem_singleton_self c)
    obtain ⟨attr₀, htracks₀⟩ := h.tracks_recordAll hcallers'
    obtain ⟨attr₁, htracks₁, houtcome⟩ := htracks₀.step (hcallers c hc) hcall
    rw [Db.recordAll_append, Db.apply_of_ok hcall] at htracks ⊢
    obtain rfl := Option.some.inj (htracks.row.symm.trans htracks₁.row)
    have hnone : attr₀.qualifiedAt = none := by
      by_contra hsome
      exact hsome ((houtcome.qualified hsome).2 ▸ hqualified)
    have hearlier := ih hcallers' haccepts
      (fun d hd d' hd' => hone d (List.mem_append_left _ hd) d' (List.mem_append_left _ hd')) htracks₀ hnone
    intro d hd
    rcases List.mem_append.mp hd with hd | hd
    · exact houtcome.kept _ (hearlier d hd)
    · rw [List.mem_singleton.mp hd]
      rcases houtcome.stored hnone with hstored | ⟨row, hrow, hprofile⟩
      · exact hstored
      · -- the receipt was handed in before, with the same time
        obtain ⟨-, d', hd', hid, -⟩ := htracks₀.days _ row hrow hprofile
        rw [← hone d' (List.mem_append_left _ hd') c hc hid]
        exact houtcome.kept _ (hearlier d' hd')

/-- A receipt of a call. -/
def EngagementCall.receipt (c : EngagementCall) : String × Timestamp := (c.receiptId, c.serverActivityAt)

/-- What qualifies an attribution qualifies it in any order. -/
theorem Db.Joined.qualified_of_qualified (h : db.Joined user attribution e version)
    (hcallers' : ∀ c ∈ calls', c.caller = some user)
    (haccepts : db.Accepts calls') (hone : OneTimePerReceipt calls')
    (hsub : ∀ c ∈ calls, ∃ d ∈ calls', d.receipt = c.receipt) {attr attr' : AttributionRow}
    (htracks : Tracks (db.recordAll calls) user attribution e version calls attr)
    (htracks' : Tracks (db.recordAll calls') user attribution e version calls' attr')
    (hqualified : attr.qualifiedAt ≠ none) : attr'.qualifiedAt ≠ none := by
  intro hnone
  have hstored := h.stored_of_accepts hcallers' haccepts hone htracks' hnone
  have hdates : ∀ day ∈ (db.recordAll calls).storedDates user e.campaignVersion,
      day ∈ (db.recordAll calls').storedDates user e.campaignVersion := by
    intro day hday
    obtain ⟨receipt, row, hreceipt, hprofile, -, rfl⟩ := mem_storedDates.mp hday
    obtain ⟨-, c, hc, -, hdate⟩ := htracks.days receipt row hreceipt hprofile
    obtain ⟨d, hd, heq⟩ := hsub c hc
    have htime : d.serverActivityAt = c.serverActivityAt := congrArg Prod.snd heq
    rw [hdate, ← htime]
    exact hstored d hd
  have hreached : version.requiredConsecutiveDays ≤ attr.bestStreakDays :=
    of_decide_eq_true (htracks.qualified.symm.trans (Option.isSome_iff_ne_none.mpr hqualified))
  have hbest : attr.bestStreakDays ≤ attr'.bestStreakDays := by
    rw [htracks.best, htracks'.best]
    exact best_mono hdates
  have hfalse := htracks'.qualified
  rw [hnone, decide_eq_true (hreached.trans hbest)] at hfalse
  cases hfalse

end Runs

/-! ### The streak of a referral -/

/-- An attribution agrees with the rules of the API: its best streak, whether it is qualified, and its entitlements. -/
structure AgreesWithRules (db : Db) (user attribution : Uuid) (campaign : VersionKey) (requiredDays : ℕ)
    (attr : AttributionRow) : Prop where
  row : db.attributions.get? attribution = some attr
  best : ∀ today,
    attr.bestStreakDays = (evaluateConsecutiveDates (db.storedDates user campaign) today).bestStreak
  qualified : hasQualifiedRun (db.storedDates user campaign) requiredDays = some attr.qualifiedAt.isSome
  entitlements : (db.entitlementsFor attribution).map (·.beneficiaryRole) =
    if attr.qualifiedAt.isSome then [.inviter, .referee] else []

/-- An attribution is qualified. -/
def Qualified (db : Db) (attribution : Uuid) : Prop :=
  ∃ attr, db.attributions.get? attribution = some attr ∧ attr.qualifiedAt ≠ none

theorem Tracks.agrees {db : Db} {user attribution : Uuid} {e : Enrollment} {version : CampaignVersion}
    {calls : List EngagementCall} {attr : AttributionRow} (h : Tracks db user attribution e version calls attr) :
    AgreesWithRules db user attribution e.campaignVersion version.requiredConsecutiveDays attr where
  row := h.row
  best today := h.best.trans (evaluateConsecutiveDates_bestStreak _ today).symm
  qualified := by rw [hasQualifiedRun_eq h.required, h.qualified, h.best]
  entitlements := by
    rw [h.entitlements, h.qualified]
    simp only [decide_eq_true_eq]

/-- **The streak of a referral is that of its days, in whatever order they come.** The current streak agrees where a
call records a receipt; where it repeats one, if the streak is not over and the clock has not gone back. -/
theorem referral_streak {db : Db} {user attribution : Uuid} {e : Enrollment} {version : CampaignVersion}
    (h : db.Joined user attribution e version) :
    (∀ calls, (∀ c ∈ calls, c.caller = some user) → ∃ attr, AgreesWithRules (db.recordAll calls) user attribution
        e.campaignVersion version.requiredConsecutiveDays attr) ∧
      (∀ calls calls', (∀ c ∈ calls, c.caller = some user) → (∀ c ∈ calls', c.caller = some user) →
        db.Accepts calls → db.Accepts calls' → OneTimePerReceipt calls →
        (∀ r, r ∈ calls.map EngagementCall.receipt ↔ r ∈ calls'.map EngagementCall.receipt) →
        (Qualified (db.recordAll calls) attribution ↔ Qualified (db.recordAll calls') attribution)) ∧
      ∀ calls c db' result, (∀ d ∈ calls, d.caller = some user) → c.caller = some user →
        (db.recordAll calls).recordEngagementDay c = .ok (db', result) → ¬ Qualified (db.recordAll calls) attribution →
        (∀ day ∈ db'.storedDates user e.campaignVersion, day ≤ localDate c.now) →
        ((db.recordAll calls).engagementDays.get? c.receiptId ≠ none →
          (∃ day ∈ db'.storedDates user e.campaignVersion, localDate c.now - 1 ≤ day) ∧
            ∀ d ∈ calls, localDate d.now ≤ localDate c.now) →
        ∃ attr', db'.attributions.get? attribution = some attr' ∧ attr'.currentStreakDays =
          (evaluateConsecutiveDates (db'.storedDates user e.campaignVersion) (localDate c.now)).currentStreak := by
  refine ⟨fun calls hcallers => ?_, fun calls calls' hcallers hcallers' haccepts haccepts' hone hsame => ?_,
    fun calls c db' result hcallers hcaller hok hnot htoday hrepeat => ?_⟩
  · obtain ⟨attr, htracks⟩ := h.tracks_recordAll hcallers
    exact ⟨attr, htracks.agrees⟩
  · have hsub : ∀ c ∈ calls, ∃ d ∈ calls', d.receipt = c.receipt := fun c hc =>
      List.mem_map.mp ((hsame _).mp (List.mem_map_of_mem hc))
    have hsub' : ∀ c ∈ calls', ∃ d ∈ calls, d.receipt = c.receipt := fun c hc =>
      List.mem_map.mp ((hsame _).mpr (List.mem_map_of_mem hc))
    have hone' : OneTimePerReceipt calls' := by
      intro c hc d hd hid
      obtain ⟨c', hc', hcreceipt⟩ := hsub' c hc
      obtain ⟨d', hd', hdreceipt⟩ := hsub' d hd
      obtain ⟨hcid, hctime⟩ := Prod.mk.inj hcreceipt
      obtain ⟨hdid, hdtime⟩ := Prod.mk.inj hdreceipt
      rw [← hctime, ← hdtime]
      exact hone c' hc' d' hd' (by rw [hcid, hdid, hid])
    obtain ⟨attr, htracks⟩ := h.tracks_recordAll hcallers
    obtain ⟨attr', htracks'⟩ := h.tracks_recordAll hcallers'
    constructor
    · rintro ⟨row, hrow, hqualified⟩
      obtain rfl := Option.some.inj (htracks.row.symm.trans hrow)
      exact ⟨attr', htracks'.row, h.qualified_of_qualified hcallers' haccepts' hone' hsub htracks htracks' hqualified⟩
    · rintro ⟨row, hrow, hqualified⟩
      obtain rfl := Option.some.inj (htracks'.row.symm.trans hrow)
      exact ⟨attr, htracks.row, h.qualified_of_qualified hcallers haccepts hone hsub' htracks' htracks hqualified⟩
  · obtain ⟨attr, htracks⟩ := h.tracks_recordAll hcallers
    have hnone : attr.qualifiedAt = none := by
      by_contra hsome
      exact hnot ⟨attr, htracks.row, hsome⟩
    obtain ⟨attr', htracks', houtcome⟩ := htracks.step hcaller hok
    refine ⟨attr', htracks'.row, ?_⟩
    rw [evaluateConsecutiveDates_currentStreak htoday]
    by_cases hnew : (db.recordAll calls).engagementDays.get? c.receiptId = none
    · exact houtcome.recorded hnone hnew
    · obtain ⟨⟨day, hday, hnear⟩, hclock⟩ := hrepeat hnew
      obtain ⟨rfl, rfl⟩ := houtcome.replayed hnone hnew
      -- the counters are those of an earlier call with the same days
      rcases htracks.current with hempty | ⟨d, hd, hcurrent⟩
      · exact absurd hday (hempty day)
      · rw [hcurrent, current_eq_run hday hnear, current_eq_run hday]
        exact (sub_le_sub_right (hclock d hd) 1).trans hnear

/-! ### A campaign of three days -/

section Pilot

/-- Three days in a month qualify. -/
def monthlyVersion : CampaignVersion :=
  { pilotVersion with requiredConsecutiveDays := 3, qualificationWindowDays := 30 }

/-- The end of the month. -/
def monthlyEnrollment : Enrollment := ⟨"pilot", seconds (86400 * 30)⟩

/-- `"arun"` has accepted the invitation of `"meera"`. -/
def arunJoined : Db :=
  { pilot with
    versions := InsertionMap.empty.set "pilot" monthlyVersion
    memberships := pilot.memberships.set "arun" ⟨.active, .invite⟩
    attributions := InsertionMap.empty.set "referral"
      { inviterId := "meera"
        refereeId := "arun"
        invitationCode := "MEERA1"
        joinedAt := 0
        enrollment := some monthlyEnrollment
        ineligibleReason := none
        currentStreakDays := 0
        bestStreakDays := 0
        qualifiedAt := none
        disqualifiedAt := none
        disqualificationReason := none } }

/-- The receipt of the first day, handed in some days later. -/
def firstDay (days : ℤ) : EngagementCall := arunActive (1 + seconds (86400 * days)) 1

theorem joined_arun : arunJoined.Joined "arun" "referral" monthlyEnrollment monthlyVersion where
  row := ⟨_, InsertionMap.get?_set_self _ _ _, rfl, rfl, rfl, rfl, rfl, rfl⟩
  only := InsertionMap.forall_get?_set nofun fun _ => rfl
  required := by decide
  version := InsertionMap.get?_set_self _ _ _
  days := nofun
  entitlements := nofun

/-- After the first day the best streak is one day. -/
theorem referral_streak_arun : ∃ attr, AgreesWithRules (arunJoined.recordAll [firstDay 0]) "arun" "referral" "pilot" 3
    attr := (referral_streak joined_arun).1 [firstDay 0] fun c hc => by
  rw [List.mem_singleton.mp hc]
  rfl

/-- The receipt of the first day is repeated after the streak is over: the current streak stays at one day. -/
theorem referral_streak_repeated :
    ((arunJoined.recordAll [firstDay 0]).recordEngagementDay (firstDay 5)).toOption.isSome = true ∧
      ¬ Qualified (arunJoined.recordAll [firstDay 0]) "referral" ∧
      (arunJoined.recordAll [firstDay 0, firstDay 5]).storedDates "arun" "pilot" = [0] ∧
      (localDate (firstDay 5).now = 5 ∧ evaluateConsecutiveDates [0] 5 = ⟨0, 1, some 0⟩) ∧
      ((arunJoined.recordAll [firstDay 0, firstDay 5]).attributions.get? "referral").map (·.currentStreakDays) =
        some 1 := by
  refine ⟨by decide +kernel, ?_, by decide +kernel, by decide, by decide +kernel⟩
  rintro ⟨attr, hattr, hqualified⟩
  have hnone : ((arunJoined.recordAll [firstDay 0]).attributions.get? "referral").map (·.qualifiedAt) = some none := by
    decide +kernel
  rw [hattr, Option.map_some] at hnone
  exact hqualified (Option.some.inj hnone)

end Pilot

end PandaPay.Referrals
