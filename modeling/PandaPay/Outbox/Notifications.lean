import PandaPay.Library.Keyset
import PandaPay.Outbox.Worker

/-!
# The outbox of notifications

The schema `notification_delivery` with the tables of the inbox it reads. A trigger on the outbox
keeps the number of rows that are pending or leased, for each profile and in all, and the number of
all rows. It writes the counters only, so it may run at each row of a statement.

Not modelled: `allowed`, which only reads, and the columns of the inbox that delivery does not read.

## Main definitions

* `Row`, `Db`: the tables
* `Db.track`: `track_queue_count`
* `Db.insertRow`, `Db.updateRow`, `Db.deleteRow`: writes of the outbox, with the trigger
* `Db.enqueue`, `Db.claim`, `Db.finish`: the functions
* `Db.deleteNotifications`, `Db.deleteProfile`: deletions that cascade to the outbox
* `Call`, `Db.apply`, `Db.run`: calls, each one step
-/

namespace PandaPay.Outbox.Notifications

/-! ### Tables -/

inductive Category where
  | location
  | caps
  | milestones
  | feeWaivers
  | bills
  | expiry
  | monthlyReport
  | needsReview
  | transactions
  | budgetWarning
  | budgetExceeded
  | streak
  | cardAdded
  deriving DecidableEq

inductive Severity where
  | info
  | good
  | urgent
  deriving DecidableEq

/-- The columns of a notification that a change of gives it a new version. -/
structure Content where
  category : Category
  severity : Severity
  title : String
  body : Option String
  deepLink : Option String
  deriving DecidableEq

/-- A row of `public.notifications`. -/
structure NotificationRow where
  profileId : Uuid
  deliveryVersion : Uuid
  content : Content

/-- A row of `public.profiles`. -/
structure ProfileRow where
  deletionRequestedAt : Option Timestamp

/-- A row of `public.notification_preferences`. -/
structure Preferences where
  categoryLocation : Bool
  categoryCaps : Bool
  categoryMilestones : Bool
  categoryFeeWaivers : Bool
  categoryBills : Bool
  categoryExpiry : Bool
  categoryMonthlyReport : Bool
  categoryNeedsReview : Bool
  categoryTransactions : Bool
  categoryBudgetWarning : Bool
  categoryBudgetExceeded : Bool

/-- Whether the preferences let a category through; the last two have no column. -/
def Preferences.allows (pref : Preferences) : Category → Bool
  | .location => pref.categoryLocation
  | .caps => pref.categoryCaps
  | .milestones => pref.categoryMilestones
  | .feeWaivers => pref.categoryFeeWaivers
  | .bills => pref.categoryBills
  | .expiry => pref.categoryExpiry
  | .monthlyReport => pref.categoryMonthlyReport
  | .needsReview => pref.categoryNeedsReview
  | .transactions => pref.categoryTransactions
  | .budgetWarning => pref.categoryBudgetWarning
  | .budgetExceeded => pref.categoryBudgetExceeded
  | .streak => true
  | .cardAdded => true

/-- A row of `revisions`: the content of a notification at one version. -/
structure RevisionRow where
  notificationId : Uuid
  deliveryVersion : Uuid
  profileId : Uuid
  content : Content
  createdAt : Timestamp

/-- The values of `state` a row does not leave. -/
inductive Ending where
  | delivered
  | dead
  | suppressed
  deriving DecidableEq

/-- The columns of a row that is over. -/
structure Completion where
  state : Ending
  completedAt : Timestamp
  terminalExpiresAt : Timestamp
  deriving DecidableEq

/-- A row of `outbox`. -/
structure Row where
  notificationId : Uuid
  revisionId : Uuid
  profileId : Uuid
  phase : Phase Lease Completion
  attempts : ℕ
  availableAt : Timestamp
  createdAt : Timestamp
  lastErrorCode : Option String
  deriving DecidableEq

/-- The row of `global_queue_count`. -/
structure GlobalQueueCount where
  pending : ℕ
  retained : ℕ

/-- A state of the tables. -/
structure Db where
  profiles : InsertionMap Uuid ProfileRow
  preferences : InsertionMap Uuid Preferences
  notifications : InsertionMap Uuid NotificationRow
  revisions : InsertionMap Uuid RevisionRow
  outbox : InsertionMap Uuid Row
  profileQueueCounts : InsertionMap Uuid ℕ
  globalQueueCount : GlobalQueueCount

/-- What the functions raise. -/
inductive Raised where
  | notificationRetainedStorageFull
  | notificationProfileQueueFull
  | notificationGlobalQueueFull
  | notificationOutboxRecipientImmutable
  | notificationEnqueueDenied
  | notificationPayloadInvalid
  | invalidNotificationClaim
  | invalidNotificationFinalization
  | uniqueViolation
  | foreignKeyViolation
  deriving DecidableEq

/-- A computation that can raise an exception. -/
abbrev Sql (α : Type) := Except Raised α

/-! ### The counters -/

/-- The row is pending or leased. -/
def Row.isActive (row : Row) : Bool := !row.phase.isOver

/-- `INSERT .. ON CONFLICT (profile_id) DO UPDATE SET pending = pending + 1 WHERE pending < 500`. -/
def countProfile (counts : InsertionMap Uuid ℕ) (profile : Uuid) : Sql (InsertionMap Uuid ℕ) :=
  match counts.get? profile with
  | none => return counts.set profile 1
  | some pending => do
    failIf (500 ≤ pending) .notificationProfileQueueFull
    return counts.set profile (pending + 1)

/-- `UPDATE .. SET pending = pending - 1 WHERE pending > 0`, and a row with none pending is
deleted. -/
def uncountProfile (counts : InsertionMap Uuid ℕ) (profile : Uuid) : InsertionMap Uuid ℕ :=
  match counts.get? profile with
  | none => counts
  | some pending =>
    if pending - 1 = 0 then counts.erase profile else counts.set profile (pending - 1)

/-- The counter of all rows. -/
def trackRetained (count : GlobalQueueCount) (old new : Option Row) : Sql GlobalQueueCount :=
  if old.isNone then do
    failIf (10000 ≤ count.retained) .notificationRetainedStorageFull
    return { count with retained := count.retained + 1 }
  else if new.isNone then
    return { count with retained := count.retained - 1 }
  else return count

namespace Db

/-- A row of the profile becomes active. -/
def countActive (db : Db) (profile : Uuid) : Sql Db := do
  let counts ← countProfile db.profileQueueCounts profile
  failIf (10000 ≤ db.globalQueueCount.pending) .notificationGlobalQueueFull
  return { db with
    profileQueueCounts := counts
    globalQueueCount := { db.globalQueueCount with pending := db.globalQueueCount.pending + 1 } }

/-- An active row of the profile is no longer so. -/
def uncountActive (db : Db) (profile : Uuid) : Db := { db with
  profileQueueCounts := uncountProfile db.profileQueueCounts profile
  globalQueueCount := { db.globalQueueCount with pending := db.globalQueueCount.pending - 1 } }

/-- The counters of active rows. -/
def trackActive (db : Db) (old new : Option Row) : Sql Db :=
  match old.filter Row.isActive, new.filter Row.isActive with
  | none, some new => db.countActive new.profileId
  | some old, none => return db.uncountActive old.profileId
  | some old, some new => do
    failIf (old.profileId ≠ new.profileId) .notificationOutboxRecipientImmutable
    return db
  | none, none => return db

/-- `track_queue_count`, with the row before and after the write. -/
def track (db : Db) (old new : Option Row) : Sql Db := do
  let count ← trackRetained db.globalQueueCount old new
  { db with globalQueueCount := count }.trackActive old new

/-! ### Writes of the outbox -/

def insertRow (db : Db) (id : Uuid) (row : Row) : Sql Db := do
  failIf (id ∈ db.outbox.keys) .uniqueViolation
  { db with outbox := db.outbox.set id row }.track none (some row)

def updateRow (f : Uuid → Row → Row) (db : Db) (id : Uuid) : Sql Db :=
  match db.outbox.get? id with
  | none => return db
  | some row => { db with outbox := db.outbox.set id (f id row) }.track (some row) (some (f id row))

def deleteRow (db : Db) (id : Uuid) : Sql Db :=
  match db.outbox.get? id with
  | none => return db
  | some row => { db with outbox := db.outbox.erase id }.track (some row) none

def updateRows (db : Db) (ids : List Uuid) (f : Uuid → Row → Row) : Sql Db :=
  ids.foldlM (updateRow f) db

def deleteRows (db : Db) (ids : List Uuid) : Sql Db := ids.foldlM deleteRow db

/-- The ids of the rows that satisfy a condition. -/
def idsWhere (db : Db) (p : Row → Bool) : List Uuid :=
  (db.outbox.entries.filter fun e => p e.2).map Prod.fst

/-- The first rows that satisfy a condition, longest available first. -/
def firstIds (db : Db) (p : Row → Bool) (limit : ℕ) : List Uuid :=
  selectKeys db.outbox (fun _ row => p row)
    (fun id row => toLex (row.availableAt, toLex (row.createdAt, id))) limit

/-! ### Cascades -/

/-- `DELETE FROM revisions`. -/
def deleteRevisions (db : Db) (p : Uuid → RevisionRow → Bool) : Sql Db := do
  let after ← db.deleteRows
    (db.idsWhere fun row => (db.revisions.get? row.revisionId).any (p row.revisionId))
  return { after with revisions := after.revisions.filter fun id revision => !p id revision }

/-- `DELETE FROM notifications`. -/
def deleteNotifications (db : Db) (p : Uuid → NotificationRow → Bool) : Sql Db := do
  let gone := fun id => (db.notifications.get? id).any (p id)
  let after ← db.deleteRevisions fun _ revision => gone revision.notificationId
  let after ← after.deleteRows (after.idsWhere fun row => gone row.notificationId)
  return { after with notifications := after.notifications.filter fun id row => !p id row }

/-- `DELETE FROM profiles`. -/
def deleteProfile (db : Db) (profile : Uuid) : Sql Db := do
  let after ← db.deleteNotifications fun _ row => row.profileId = profile
  let after ← after.deleteRevisions fun _ revision => revision.profileId = profile
  let after ← after.deleteRows (after.idsWhere fun row => row.profileId = profile)
  return { after with
    profiles := after.profiles.erase profile
    preferences := after.preferences.erase profile }

end Db

/-! ### The inbox -/

namespace Db

/-- A profile is created, or its `deletion_requested_at` set. -/
def putProfile (db : Db) (profile : Uuid) (row : ProfileRow) : Db :=
  { db with profiles := db.profiles.set profile row }

def putPreferences (db : Db) (profile : Uuid) (row : Preferences) : Sql Db := do
  failIf (profile ∉ db.profiles.keys) .foreignKeyViolation
  return { db with preferences := db.preferences.set profile row }

/-- A notification is inserted or updated, with the trigger `bump_version`. -/
def putNotification (db : Db) (id profile : Uuid) (content : Content) (drawn : Uuid) : Sql Db := do
  failIf (profile ∉ db.profiles.keys) .foreignKeyViolation
  let version := match db.notifications.get? id with
    | some old => if old.content = content then old.deliveryVersion else drawn
    | none => drawn
  return { db with notifications := db.notifications.set id ⟨profile, version, content⟩ }

end Db

/-! ### Enqueueing -/

/-- The argument of `enqueue`, with the session, the clock and the ids that are drawn. -/
structure EnqueueCall where
  now : Timestamp
  caller : Option Uuid
  notificationId : Uuid
  revisionId : Uuid
  outboxId : Uuid

/-- The bounds on a content that is to be delivered. -/
def Content.isDeliverable (content : Content) : Bool :=
  1 ≤ content.title.utf8ByteSize && content.title.utf8ByteSize ≤ 512 &&
    content.body.all (·.utf8ByteSize ≤ 4096) && content.deepLink.all (·.utf8ByteSize ≤ 1024)

namespace Db

/-- The revision of the version of a notification, which is inserted if there is none. -/
def enqueueRevision (db : Db) (c : EnqueueCall) (n : NotificationRow) : Sql (Db × Uuid) :=
  match db.revisions.entries.find? fun e => e.2.deliveryVersion = n.deliveryVersion with
  | some (id, _) => return (db, id)
  | none => do
    failIf (n.content.isDeliverable = false) .notificationPayloadInvalid
    failIf (c.revisionId ∈ db.revisions.keys) .uniqueViolation
    let revision := ⟨c.notificationId, n.deliveryVersion, n.profileId, n.content, c.now⟩
    return ({ db with revisions := db.revisions.set c.revisionId revision }, c.revisionId)

/-- `enqueue`. -/
def enqueue (db : Db) (c : EnqueueCall) : Sql Db :=
  match db.notifications.get? c.notificationId with
  | none => .error .notificationEnqueueDenied
  | some n => do
    failIf (some n.profileId ≠ c.caller) .notificationEnqueueDenied
    let (after, revision) ← db.enqueueRevision c n
    let row := ⟨c.notificationId, revision, n.profileId, .waiting, 0, c.now, c.now, none⟩
    if after.outbox.values.any (·.revisionId = revision) then return after
    else after.insertRow c.outboxId row

end Db

/-! ### Claiming -/

/-- The arguments of `claim`, with the clock and the lease token that is drawn for a row. -/
structure ClaimCall where
  now : Timestamp
  workerId : Option String
  limit : Option ℤ
  leaseSeconds : Option ℤ
  leaseToken : Uuid → Uuid

/-- What a claim returns of a row. -/
structure ClaimedNotification where
  id : Uuid
  notificationId : Uuid
  revisionId : Uuid
  profileId : Uuid
  content : Content
  leaseToken : Uuid
  attempts : ℕ

namespace Row

/-- The row may be deleted. -/
def isSpent (now : Timestamp) (row : Row) : Bool :=
  row.phase.outcome?.any (·.terminalExpiresAt ≤ now)

/-- The row is pending, or leased under a lease that has run out. -/
def isIdle (now : Timestamp) (row : Row) : Bool := row.isActive && lapsed now row.phase

/-- The row is over. -/
def finish (now : Timestamp) (ending : Ending) (errorCode : Option String) (row : Row) : Row :=
  { row with phase := .ended ⟨ending, now, now + days 180⟩, lastErrorCode := errorCode }

/-- The row under a new lease. -/
def claim (lease : Lease) (row : Row) : Row :=
  { row with phase := .held lease, attempts := row.attempts + 1, lastErrorCode := none }

end Row

namespace Db

/-- The profile is there and not about to be deleted. -/
def isLive (db : Db) (profile : Uuid) : Bool :=
  (db.profiles.get? profile).any (·.deletionRequestedAt.isNone)

/-- The account is gone, or the preferences of its owner are against the notification. -/
def isUnwanted (db : Db) (row : Row) : Bool :=
  !db.isLive row.profileId || (db.revisions.get? row.revisionId).any fun n =>
    (db.preferences.get? n.profileId).any fun pref => !pref.allows n.content.category

/-- The row may be claimed. -/
def isCandidate (db : Db) (now : Timestamp) (row : Row) : Bool :=
  (match row.phase with
    | .waiting => decide (row.availableAt ≤ now)
    | .held lease => decide (lease.leaseUntil ≤ now)
    | .ended _ => false) && row.attempts < attemptLimit && db.isLive row.profileId &&
    (db.revisions.get? row.revisionId).any fun n =>
      (db.preferences.get? row.profileId).all fun pref => pref.allows n.content.category

/-- Rows that have been over for long are deleted. -/
def purgeRows (db : Db) (now : Timestamp) : Sql Db :=
  db.deleteRows (selectKeys db.outbox (fun _ row => row.isSpent now)
    (fun id row => toLex ((row.phase.outcome?.map Completion.terminalExpiresAt).getD 0, id)) 250)

/-- Old revisions without a row are deleted. -/
def purgeRevisions (db : Db) (now : Timestamp) : Sql Db :=
  let ids := selectKeys db.revisions
    (fun id revision => revision.createdAt ≤ now - days 180 &&
      !db.outbox.values.any (·.revisionId = id))
    (fun id revision => toLex (revision.createdAt, id)) 250
  db.deleteRevisions fun id _ => id ∈ ids

def suppressRows (db : Db) (now : Timestamp) : Sql Db :=
  db.updateRows (db.firstIds (fun row => row.isIdle now && db.isUnwanted row) 250)
    fun _ => Row.finish now .suppressed (some "preference_or_account_disabled")

/-- The rows without attempts left are dead. -/
def exhaustRows (db : Db) (now : Timestamp) : Sql Db :=
  db.updateRows (db.firstIds (fun row => row.isIdle now && attemptLimit ≤ row.attempts) 250)
    fun _ => Row.finish now .dead (some "attempt_limit")

/-- What the claim returns of a row that it has leased. -/
def claimed (db : Db) (token : Uuid) (id : Uuid) : Option ClaimedNotification := do
  let row ← db.outbox.get? id
  let revision ← db.revisions.get? row.revisionId
  return ⟨id, row.notificationId, row.revisionId, row.profileId, revision.content, token,
    row.attempts⟩

/-- The part of a claim after the checks. -/
def claimRows (db : Db) (now : Timestamp) (limit : ℕ) (lease : Uuid → Lease) :
    Sql (Db × List ClaimedNotification) := do
  let db ← db.purgeRows now
  let db ← db.purgeRevisions now
  let db ← db.suppressRows now
  let db ← db.exhaustRows now
  let ids := db.firstIds (db.isCandidate now) limit
  let db ← db.updateRows ids fun id => Row.claim (lease id)
  return (db, ids.filterMap fun id => db.claimed (lease id).token id)

/-- `claim`. -/
def claim (db : Db) (c : ClaimCall) : Sql (Db × List ClaimedNotification) :=
  match c.workerId, c.limit, c.leaseSeconds with
  | some worker, some limit, some leaseSeconds => do
    failIf (isWorkerId worker = false ∨ limit < 1 ∨ 10 < limit ∨ leaseSeconds < 60 ∨
      900 < leaseSeconds) .invalidNotificationClaim
    db.claimRows c.now limit.toNat fun id =>
      ⟨c.leaseToken id, c.now + seconds leaseSeconds, worker⟩
  | _, _, _ => .error .invalidNotificationClaim

end Db

/-! ### Finishing -/

/-- The arguments of `finish`, with the clock. -/
structure FinishCall where
  now : Timestamp
  id : Option Uuid
  token : Option Uuid
  success : Option Bool
  error : Option String
  permanent : Option Bool

/-- What `finish` answers. -/
inductive Answer where
  | leaseLost
  | delivered
  | dead
  | pending (retryAfterSeconds : ℕ)
  deriving DecidableEq

/-- The row waits for the next attempt. -/
def Row.requeue (now : Timestamp) (errorCode : String) (row : Row) : Row :=
  { row with
    phase := .waiting
    availableAt := now + seconds (retrySeconds row.attempts)
    lastErrorCode := some errorCode }

namespace Db

/-- The row that is leased under this token, while the lease runs. -/
def leasedRow (db : Db) (now : Timestamp) (id token : Uuid) : Option Row :=
  (db.outbox.get? id).filter fun row =>
    row.phase.lease?.any fun lease => lease.token = token ∧ now < lease.leaseUntil

/-- The part of `finish` that has found its row. -/
def finishRow (db : Db) (c : FinishCall) (id : Uuid) (success permanent : Bool) (row : Row) :
    Sql (Db × Answer) :=
  if success then do
    let db ← db.updateRow (fun _ row => row.finish c.now .delivered row.lastErrorCode) id
    return (db, .delivered)
  else
    let errorCode := errorCodeOr "notification_error" c.error
    if permanent || attemptLimit ≤ row.attempts then do
      let db ← db.updateRow (fun _ => Row.finish c.now .dead (some errorCode)) id
      return (db, .dead)
    else do
      let db ← db.updateRow (fun _ => Row.requeue c.now errorCode) id
      return (db, .pending (retrySeconds row.attempts))

/-- `finish`. -/
def finish (db : Db) (c : FinishCall) : Sql (Db × Answer) :=
  match c.id, c.token, c.success, c.permanent with
  | some id, some token, some success, some permanent =>
    match db.leasedRow c.now id token with
    | none => return (db, .leaseLost)
    | some row => db.finishRow c id success permanent row
  | _, _, _, _ => .error .invalidNotificationFinalization

end Db

/-! ### Runs -/

inductive Call where
  | enqueue (c : EnqueueCall)
  | claim (c : ClaimCall)
  | finish (c : FinishCall)
  | putProfile (profile : Uuid) (row : ProfileRow)
  | putPreferences (profile : Uuid) (row : Preferences)
  | putNotification (id profile : Uuid) (content : Content) (drawn : Uuid)
  | deleteNotification (id : Uuid)
  | deleteProfile (profile : Uuid)

namespace Db

/-- Nothing has been enqueued yet. -/
structure Initial (db : Db) : Prop where
  outbox : db.outbox = .empty
  profileQueueCounts : db.profileQueueCounts = .empty
  globalQueueCount : db.globalQueueCount = ⟨0, 0⟩

def call (db : Db) : Call → Sql Db
  | .enqueue c => db.enqueue c
  | .claim c => Prod.fst <$> db.claim c
  | .finish c => Prod.fst <$> db.finish c
  | .putProfile profile row => .ok (db.putProfile profile row)
  | .putPreferences profile row => db.putPreferences profile row
  | .putNotification id profile content drawn => db.putNotification id profile content drawn
  | .deleteNotification id => db.deleteNotifications fun j _ => j = id
  | .deleteProfile profile => db.deleteProfile profile

/-- The state after a call; an exception leaves it as it was. -/
def apply (db : Db) (c : Call) : Db :=
  match db.call c with
  | .ok db' => db'
  | .error _ => db

def run (db : Db) (calls : List Call) : Db := calls.foldl apply db

end Db

end PandaPay.Outbox.Notifications
