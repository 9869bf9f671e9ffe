import PandaPay.Referrals.Refinement

/-!
# Runs of the referral functions

Calls arrive in any order, with any arguments and clocks; one that raises leaves the state as it
was. In a run of `Call`s every call is one step. In a run of `Move`s a call of
`record_engagement_day` may also be two steps, with anything in between.

## Main definitions

* `Call`, `Db.apply`, `Db.run`: calls, each one step
* `System`, `Move`, `System.move`: calls that wait for the lock on the campaign
* `Db.Initial`: nothing has been promised yet

## Main results

* `Db.apply_effects`, `System.move_effects`: a step has its effects
* `Db.run_induction`: what every effect keeps holds after every run
-/

namespace PandaPay.Referrals

/-- A call of one of the functions. -/
inductive Call where
  | activate (c : ActivationCall)
  | record (c : EngagementCall)
  | spin (c : SpinCall)
  | expire (c : ExpiryCall)
  | hold (c : HoldCall)

namespace Db

/-- What a call does to the schema. -/
def call (db : Db) : Call → Sql Db
  | .activate c => Prod.fst <$> db.activateCurrentUser c
  | .record c => Prod.fst <$> db.recordEngagementDay c
  | .spin c => Prod.fst <$> db.commitRewardSpin c
  | .expire c => Prod.fst <$> db.expireReferralReservations c
  | .hold c => Prod.fst <$> db.setAdminReferralHold c

/-- The state after a call; an exception leaves it as it was. -/
def orElse (db : Db) : Sql Db → Db
  | .ok db' => db'
  | .error _ => db

def apply (db : Db) (c : Call) : Db := db.orElse (db.call c)

def run (db : Db) (calls : List Call) : Db := calls.foldl apply db

/-- Nothing has been promised yet, and no campaign has issued or reserved anything. -/
structure Initial (db : Db) : Prop where
  campaigns : ∀ key state, db.campaigns.get? key = some state →
    state.issuedPaise = 0 ∧ state.reservedPaise = 0 ∧ 0 ≤ state.totalBudgetPaise
  attributions : db.attributions = .empty
  reservations : db.reservations = .empty
  entitlements : db.entitlements = .empty
  spins : db.spins = .empty
  creditAccounts : db.creditAccounts = .empty
  creditLedger : db.creditLedger = .empty

theorem Initial.rewards_eq {db : Db} (h : db.Initial) :
    db.rewards = ⟨db.campaigns, .empty, .empty, .empty, .empty, .empty, .empty⟩ := by
  unfold Db.rewards
  rw [h.attributions, h.reservations, h.entitlements, h.spins, h.creditAccounts, h.creditLedger]

end Db

/-- A call of `record_engagement_day` that waits for the lock, with what it has chosen. -/
structure WaitingRecord where
  call : EngagementCall
  user : Uuid
  attribution : Uuid
  deriving DecidableEq

/-- The schema with the calls that wait. -/
structure System where
  db : Db
  waiting : List WaitingRecord

inductive Move where
  /-- A call as one step. -/
  | call (c : Call)
  /-- A call of `record_engagement_day` makes its reads. -/
  | begin (c : EngagementCall)
  /-- A call that waits gets the lock. -/
  | finish (i : ℕ)

namespace System

/-- The call that a move gives the lock to, with the state it finds. -/
def granted (s : System) : Move → Option WaitingRecord
  | .finish i => s.waiting[i]?
  | _ => none

def move (s : System) : Move → System
  | .call c => { s with db := s.db.apply c }
  | .begin c =>
    match s.db.chooseAttribution c with
    | .ok (some (user, attribution)) => { s with waiting := s.waiting ++ [⟨c, user, attribution⟩] }
    | _ => s
  | .finish i =>
    match s.waiting[i]? with
    | some w =>
      ⟨s.db.orElse (Prod.fst <$> s.db.recordDay w.call w.user w.attribution), s.waiting.eraseIdx i⟩
    | none => s

def run (s : System) (moves : List Move) : System := moves.foldl move s

end System

/-! ### The effects of a step -/

variable {Live : Option Timestamp → Prop} {Lift : Rewards → VersionKey → Prop}

theorem map_fst_eq_ok {α β : Type} {x : Sql (α × β)} {a : α} (h : Prod.fst <$> x = .ok a) :
    ∃ b, x = .ok (a, b) := by
  cases x with
  | error e => cases h
  | ok y => exact ⟨y.2, congrArg _ (Prod.ext (Except.ok.inj h) rfl)⟩

namespace Db

theorem orElse_effects {db : Db} {x : Sql Db}
    (h : ∀ db', x = .ok db' → Effects Live Lift db.rewards db'.rewards) :
    Effects Live Lift db.rewards (db.orElse x).rewards := by
  cases x with
  | error e => exact .refl
  | ok db' => exact h db' rfl

/-- Of the calls that lift a pause of fulfillment `Lift` is asked. -/
def Lifts (Lift : Rewards → VersionKey → Prop) (db : Db) (call : Call) : Prop :=
  ∀ c db' result, call = .hold c → db.setAdminReferralHold c = .ok (db', result) →
    c.scope = .fulfillment → c.paused = false → result.after = .flag false →
      Lift db.rewards result.target

theorem apply_effects {db : Db} {call : Call} (hlive : Live none) (hlift : Lifts Lift db call) :
    Effects Live Lift db.rewards (db.apply call).rewards := by
  apply orElse_effects
  intro db' h
  cases call with
  | activate c =>
    obtain ⟨result, h⟩ := map_fst_eq_ok h
    exact activateCurrentUser_effects h
  | record c =>
    obtain ⟨result, h⟩ := map_fst_eq_ok h
    exact recordEngagementDay_effects hlive h
  | spin c =>
    obtain ⟨result, h⟩ := map_fst_eq_ok h
    exact commitRewardSpin_effects h
  | expire c =>
    obtain ⟨result, h⟩ := map_fst_eq_ok h
    exact expireReferralReservations_effects h
  | hold c =>
    obtain ⟨result, h⟩ := map_fst_eq_ok h
    exact setAdminReferralHold_effects (hlift c db' result rfl h) h

end Db

/-- Of the attribution a waiting call qualifies `Live` is asked. -/
def System.Resumes (Live : Option Timestamp → Prop) (s : System) (m : Move) : Prop :=
  ∀ w, s.granted m = some w → ∀ attr, s.db.attributions.get? w.attribution = some attr →
    attr.qualifiedAt = none → Live attr.disqualifiedAt

theorem System.move_effects {s : System} {m : Move} (hlive : Live none)
    (hlift : ∀ c, m = .call c → s.db.Lifts Lift c) (hresumes : s.Resumes Live m) :
    Effects Live Lift s.db.rewards (s.move m).db.rewards := by
  cases m with
  | call c => exact Db.apply_effects hlive (hlift c rfl)
  | begin c =>
    unfold System.move
    dsimp only
    split <;> exact .refl
  | finish i =>
    unfold System.move
    dsimp only
    cases hw : s.waiting[i]? with
    | none => exact .refl
    | some w =>
      apply Db.orElse_effects
      intro db' h
      obtain ⟨result, h⟩ := map_fst_eq_ok h
      exact Db.recordDay_effects (hresumes w hw) h

/-! ### Invariants -/

/-- What every effect keeps, every sequence of effects keeps. -/
theorem Effects.invariant {P : Rewards → Prop} {r r' : Rewards}
    (hstep : ∀ r r', P r → Effect Live Lift r r' → P r') (hr : P r) (h : Effects Live Lift r r') :
    P r' := by
  induction h with
  | refl => exact hr
  | tail _ heffect ih => exact hstep _ _ ih heffect

/-- What every effect keeps holds after every run. -/
theorem Db.run_induction {P : Rewards → Prop}
    (hstep : ∀ r r', P r → Effect (fun _ => True) (fun _ _ => True) r r' → P r') {db : Db}
    (hdb : P db.rewards) (calls : List Call) : P (db.run calls).rewards := by
  induction calls generalizing db with
  | nil => exact hdb
  | cons call calls ih =>
    apply ih
    exact Effects.invariant hstep hdb (Db.apply_effects trivial fun _ _ _ _ _ _ _ _ => trivial)

/-! ### A small programme -/

section Pilot

/-- A campaign that qualifies after one day and has prizes of five rupees. -/
def pilotVersion : CampaignVersion where
  requiredConsecutiveDays := 1
  qualificationWindowDays := 1
  receiptLifetimeSeconds := 30
  termsVersion := "terms"
  inviterCapEnrollments := none
  prizeDistribution := ⟨fun _ => [⟨"five", 500, 1⟩], fun _ => by decide⟩

/-- The campaign is open, and `"meera"` can invite. -/
def pilot : Db where
  settings := ⟨.open, some "pilot"⟩
  profiles := InsertionMap.empty.set "meera" ⟨some 0⟩
  memberships := InsertionMap.empty.set "meera" ⟨.active, .open⟩
  invitationCodes := InsertionMap.empty.set "MEERA1" ⟨"meera", true⟩
  versions := InsertionMap.empty.set "pilot" pilotVersion
  campaigns := InsertionMap.empty.set "pilot" ⟨true, false, true, 100000, 0, 0, none, 0⟩
  inviterCaps := .empty
  eligibilityClaims := .empty
  attributions := .empty
  reservations := .empty
  engagementDays := .empty
  entitlements := .empty
  spins := .empty
  creditAccounts := .empty
  creditLedger := .empty
  holds := .empty

theorem pilot_initial : pilot.Initial where
  campaigns := InsertionMap.forall_get?_set nofun (by decide)
  attributions := rfl
  reservations := rfl
  entitlements := rfl
  spins := rfl
  creditAccounts := rfl
  creditLedger := rfl

/-- `"arun"` accepts the invitation of `"meera"`. -/
def arunJoins : Call := .activate
  { caller := some "arun"
    now := 0
    invitationCode := some "meera1"
    expectedCampaignVersion := some "pilot"
    termsVersion := some "terms"
    acceptRewardTerms := true
    acceptAccessOnly := false
    identityClaims := some [⟨some "email", some "k1",
      some "aaaaaaaaaaaaaaaaaaaaaaaaaaaaaaaaaaaaaaaaaaaaaaaaaaaaaaaaaaaaaaaa"⟩]
    productTermsVersion := some "product"
    acceptProductTerms := true
    attributionId := "referral" }

/-- `"arun"` hands in a receipt that he was active. -/
def arunActive (now activity : Timestamp) : EngagementCall where
  caller := some "arun"
  now := now
  receiptId := "receipt-receipt-1"
  sourceAction := "home_summary"
  serverActivityAt := activity
  inviterEntitlementId := "for-meera"
  refereeEntitlementId := "for-arun"

/-- `"arun"` draws five rupees. -/
def arunSpins : Call := .spin
  { caller := some "arun"
    now := 2
    entitlementId := "for-arun"
    outcomeId := "five"
    amountPaise := 500
    spinId := "spin"
    ledgerEntryId := "entry" }

end Pilot

end PandaPay.Referrals
