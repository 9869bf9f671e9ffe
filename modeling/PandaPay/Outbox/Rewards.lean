import PandaPay.Library.Keyset
import PandaPay.Outbox.Worker

/-!
# The outbox of reward events

The tables `reward_outbox` and `reward_outbox_attempts` and the functions that work them off. A row
is leased or over exactly when its lease or its result is there, which the checks on the table say
and the type of `Row.phase` keeps. Every function is one step; nobody else holds a row lock.

Not modelled: the heartbeats of the workers, and `delivered_at`, which nothing writes.

## Main definitions

* `Row`, `Attempt`, `Db`: the tables
* `Db.enqueue`: the insertions of the functions that promise a reward
* `Db.claim`: `claim_reward_outbox`
* `Db.finalize`: `finalize_reward_outbox`
* `Call`, `Db.apply`, `Db.run`: calls, each one step
-/

namespace PandaPay.Outbox.Rewards

/-- A `jsonb` value, as its text. -/
abbrev Jsonb := String

/-- `jsonb_typeof(document) = 'object'`. -/
def isObject (document : Jsonb) : Bool := document.toList.head? = some '\x7b'

/-! ### Tables -/

/-- What `result` says of a row that is over. -/
inductive Result where
  /-- What the worker handed in. -/
  | worker (document : Jsonb)
  /-- `status` and `reason` say that the event has expired, with 86400 `graceSeconds`. -/
  | expired (expiresAt : Timestamp)
  /-- `status` is `dead`. -/
  | dead (reason : String) (attempts : ℕ)
  deriving DecidableEq

/-- The values of `state` a row does not leave. -/
inductive Ending where
  | delivered
  | dead
  | expired
  deriving DecidableEq

/-- The columns of a row that is over. -/
structure Completion where
  state : Ending
  completedAt : Timestamp
  result : Result
  deriving DecidableEq

/-- A row of `reward_outbox`. -/
structure Row where
  eventKey : String
  eventType : String
  beneficiaryId : Option Uuid
  payload : Jsonb
  phase : Phase Lease Completion
  attempts : ℕ
  availableAt : Timestamp
  createdAt : Timestamp
  expiresAt : Timestamp
  lastAttemptAt : Option Timestamp
  lastErrorCode : Option String
  deriving DecidableEq

/-- The values of `status` an attempt is closed with. -/
inductive Closing where
  | delivered
  | retry
  | dead
  | expired
  deriving DecidableEq

/-- `status` and `finished_at`, which is there unless the status is `leased`. -/
inductive AttemptState where
  | leased
  | closed (closing : Closing) (finishedAt : Timestamp)
  deriving DecidableEq

/-- A row of `reward_outbox_attempts`. -/
structure Attempt where
  outboxId : Uuid
  attemptNumber : ℕ
  leaseToken : Uuid
  workerId : String
  claimedAt : Timestamp
  state : AttemptState
  errorCode : Option String
  result : Option Jsonb
  deriving DecidableEq

/-- A state of the tables. -/
structure Db where
  outbox : InsertionMap Uuid Row
  attempts : InsertionMap Uuid Attempt

/-- What the functions raise. -/
inductive Raised where
  | invalidWorkerClaim
  | invalidWorkerFinalization
  | invalidWorkerResult
  | uniqueViolation
  deriving DecidableEq

/-- A computation that can raise an exception. -/
abbrev Sql (α : Type) := Except Raised α

namespace Attempt

def isLeased (a : Attempt) : Bool := a.state = .leased

/-- The attempt with a status that closes it. -/
def close (closing : Closing) (now : Timestamp) (errorCode : Option String) (a : Attempt) :
    Attempt :=
  { a with state := .closed closing now, errorCode := errorCode }

end Attempt

namespace Db

/-- `UPDATE reward_outbox .. WHERE id` is one of `ids`. -/
def updateRows (db : Db) (ids : List Uuid) (f : Row → Row) : Db :=
  { db with outbox := db.outbox.mapValues fun id row => if id ∈ ids then f row else row }

/-- `UPDATE reward_outbox_attempts .. WHERE p AND status = 'leased'`. -/
def updateAttempts (db : Db) (p : Attempt → Bool) (f : Attempt → Attempt) : Db :=
  { db with attempts := db.attempts.mapValues fun _ a => if p a && a.isLeased then f a else a }

/-- The ids of the rows that satisfy a condition. -/
def idsWhere (db : Db) (p : Row → Bool) : List Uuid :=
  (db.outbox.entries.filter fun e => p e.2).map Prod.fst

end Db

/-! ### Enqueueing -/

structure EnqueueCall where
  now : Timestamp
  id : Uuid
  eventKey : String
  eventType : String
  beneficiaryId : Option Uuid
  payload : Jsonb

/-- The row with the defaults of its columns. -/
def EnqueueCall.row (c : EnqueueCall) : Row where
  eventKey := c.eventKey
  eventType := c.eventType
  beneficiaryId := c.beneficiaryId
  payload := c.payload
  phase := .waiting
  attempts := 0
  availableAt := c.now
  createdAt := c.now
  expiresAt := c.now + days 30
  lastAttemptAt := none
  lastErrorCode := none

/-- `INSERT INTO reward_outbox .. ON CONFLICT (event_key) DO NOTHING`. -/
def Db.enqueue (db : Db) (c : EnqueueCall) : Sql Db :=
  if db.outbox.values.any (·.eventKey = c.eventKey) then return db
  else do
    failIf (c.id ∈ db.outbox.keys) .uniqueViolation
    return { db with outbox := db.outbox.set c.id c.row }

/-! ### Claiming -/

/-- The arguments of `claim_reward_outbox`, with the clock and, for a row that is claimed, the lease
token and the id of the attempt that are drawn. -/
structure ClaimCall where
  now : Timestamp
  workerId : Option String
  limit : Option ℤ
  leaseSeconds : Option ℤ
  leaseToken : Uuid → Uuid
  attemptId : Uuid → Uuid

/-- What a claim returns of a row. -/
structure ClaimedEvent where
  id : Uuid
  eventKey : String
  eventType : String
  beneficiaryId : Option Uuid
  payload : Jsonb
  attemptNumber : ℕ
  leaseToken : Uuid
  leaseUntil : Timestamp
  expiresAt : Timestamp
  withinExpiryGrace : Bool

namespace Row

/-- The row is due to expire: nobody works on it, and the grace window is over. -/
def isExpiring (now : Timestamp) (row : Row) : Bool :=
  !row.phase.isOver && lapsed now row.phase && row.expiresAt + hours 24 ≤ now

def expire (now : Timestamp) (row : Row) : Row :=
  { row with
    phase := .ended ⟨.expired, now, .expired row.expiresAt⟩
    lastErrorCode := some "event_expired" }

/-- The last attempt the row may have has lapsed. -/
def isExhausted (now : Timestamp) (row : Row) : Bool :=
  !row.phase.isOver && lapsed now row.phase && attemptLimit ≤ row.attempts &&
    now < row.expiresAt + hours 24

def exhaust (now : Timestamp) (row : Row) : Row :=
  { row with
    phase := .ended ⟨.dead, now, .dead "attempt_limit" row.attempts⟩
    lastErrorCode := some (row.lastErrorCode.getD "attempt_limit") }

/-- The row may be claimed. -/
def isCandidate (now : Timestamp) (row : Row) : Bool :=
  (match row.phase with
    | .waiting => decide (row.availableAt ≤ now)
    | .held lease => decide (lease.leaseUntil ≤ now)
    | .ended _ => false) && row.attempts < attemptLimit && now < row.expiresAt + hours 24

/-- The row under a new lease. -/
def claim (now : Timestamp) (lease : Lease) (row : Row) : Row :=
  { row with
    phase := .held lease
    attempts := row.attempts + 1
    lastAttemptAt := some now
    lastErrorCode := none }

/-- What the claim returns of the row, once it is leased. -/
def claimed (now : Timestamp) (id : Uuid) (lease : Lease) (row : Row) : ClaimedEvent :=
  { id := id
    eventKey := row.eventKey
    eventType := row.eventType
    beneficiaryId := row.beneficiaryId
    payload := row.payload
    attemptNumber := row.attempts
    leaseToken := lease.token
    leaseUntil := lease.leaseUntil
    expiresAt := row.expiresAt
    withinExpiryGrace := row.expiresAt < now }

end Row

namespace Db

/-- The rows that are due expire, with their attempts. -/
def expireRows (db : Db) (now : Timestamp) : Db :=
  let ids := db.idsWhere (·.isExpiring now)
  (db.updateRows ids (·.expire now)).updateAttempts (fun a => a.outboxId ∈ ids)
    (·.close .expired now (some "event_expired"))

/-- The rows without attempts left are dead, with their attempts. -/
def exhaustRows (db : Db) (now : Timestamp) : Db :=
  let ids := db.idsWhere (·.isExhausted now)
  (db.updateRows ids (·.exhaust now)).updateAttempts (fun a => a.outboxId ∈ ids)
    fun a => a.close .dead now (some (a.errorCode.getD "attempt_limit"))

/-- The rows to claim. -/
def candidates (db : Db) (now : Timestamp) (limit : ℕ) : List Uuid :=
  selectKeys db.outbox (fun _ row => row.isCandidate now)
    (fun id row => toLex (row.availableAt, toLex (row.createdAt, id))) limit

/-- `claimed` and `recovered_attempts`: the rows are leased, and the attempts whose lease has run out
are closed. -/
def leaseRows (db : Db) (now : Timestamp) (ids : List Uuid) (lease : Uuid → Lease) : Db :=
  let outbox := db.outbox.mapValues fun id row =>
    if id ∈ ids then row.claim now (lease id) else row
  { db with outbox := outbox }.updateAttempts (fun a => a.outboxId ∈ ids)
    (·.close .retry now (some "lease_expired"))

/-- `INSERT INTO reward_outbox_attempts`. -/
def insertAttempt (db : Db) (id : Uuid) (a : Attempt) : Sql Db := do
  failIf (id ∈ db.attempts.keys) .uniqueViolation
  failIf (db.attempts.values.any (·.leaseToken = a.leaseToken) = true) .uniqueViolation
  failIf (db.attempts.values.any (fun b =>
    b.outboxId = a.outboxId ∧ b.attemptNumber = a.attemptNumber) = true) .uniqueViolation
  return { db with attempts := db.attempts.set id a }

/-- `inserted_attempts`, for one of the rows. -/
def openAttempt (now : Timestamp) (worker : String) (attemptId : Uuid → Uuid) (lease : Uuid → Lease)
    (db : Db) (id : Uuid) : Sql Db :=
  match db.outbox.get? id with
  | none => return db
  | some row => db.insertAttempt (attemptId id)
    { outboxId := id
      attemptNumber := row.attempts
      leaseToken := (lease id).token
      workerId := worker
      claimedAt := now
      state := .leased
      errorCode := none
      result := none }

/-- The part of a claim after the checks. -/
def claimRows (db : Db) (now : Timestamp) (worker : String) (limit : ℕ) (attemptId : Uuid → Uuid)
    (lease : Uuid → Lease) : Sql (Db × List ClaimedEvent) := do
  let db := (db.expireRows now).exhaustRows now
  let ids := db.candidates now limit
  let db ← ids.foldlM (openAttempt now worker attemptId lease) (db.leaseRows now ids lease)
  return (db, ids.filterMap fun id => (db.outbox.get? id).map (·.claimed now id (lease id)))

/-- `claim_reward_outbox`. -/
def claim (db : Db) (c : ClaimCall) : Sql (Db × List ClaimedEvent) :=
  match c.workerId, c.limit, c.leaseSeconds with
  | some worker, some limit, some leaseSeconds => do
    failIf (isWorkerId worker = false ∨ limit < 1 ∨ 100 < limit ∨ leaseSeconds < 15 ∨
      900 < leaseSeconds) .invalidWorkerClaim
    db.claimRows c.now worker limit.toNat c.attemptId fun id =>
      ⟨c.leaseToken id, c.now + seconds leaseSeconds, worker⟩
  | _, _, _ => .error .invalidWorkerClaim

end Db

/-! ### Finalizing -/

/-- The arguments of `finalize_reward_outbox`, with the clock. -/
structure FinalizeCall where
  now : Timestamp
  eventId : Option Uuid
  leaseToken : Option Uuid
  succeeded : Option Bool
  result : Option Jsonb
  errorCode : Option String
  permanent : Option Bool

/-- What `finalize_reward_outbox` answers. -/
inductive Answer where
  | leaseLost
  | delivered
  | dead (attempts : ℕ)
  | pending (attempts retryAfterSeconds : ℕ)
  deriving DecidableEq

namespace Row

def deliver (now : Timestamp) (document : Jsonb) (row : Row) : Row :=
  { row with phase := .ended ⟨.delivered, now, .worker document⟩, lastErrorCode := none }

def bury (now : Timestamp) (errorCode : String) (row : Row) : Row :=
  { row with
    phase := .ended ⟨.dead, now, .dead errorCode row.attempts⟩
    lastErrorCode := some errorCode }

def requeue (now : Timestamp) (errorCode : String) (row : Row) : Row :=
  { row with
    phase := .waiting
    availableAt := now + seconds (retrySeconds row.attempts)
    lastErrorCode := some errorCode }

end Row

namespace Db

/-- The row that is leased under this token. -/
def leasedRow (db : Db) (id token : Uuid) : Option Row :=
  (db.outbox.get? id).filter fun row => row.phase.lease?.any fun lease => lease.token = token

/-- The updates of the row and of the attempt under its token. -/
def settle (db : Db) (id token : Uuid) (f : Row → Row) (g : Attempt → Attempt) : Db :=
  (db.updateRows [id] f).updateAttempts (fun a => a.outboxId = id && a.leaseToken = token) g

/-- The part of a finalization that has found its row. -/
def finalizeRow (db : Db) (c : FinalizeCall) (id token : Uuid) (succeeded : Bool) (row : Row) :
    Db × Answer :=
  if succeeded then
    let document := c.result.getD "null"
    (db.settle id token (·.deliver c.now document) fun a =>
      { a.close .delivered c.now none with result := some document }, .delivered)
  else
    let errorCode := errorCodeOr "worker_error" c.errorCode
    if c.permanent.getD false || attemptLimit ≤ row.attempts then
      (db.settle id token (·.bury c.now errorCode) (·.close .dead c.now (some errorCode)),
        .dead row.attempts)
    else
      (db.settle id token (·.requeue c.now errorCode) (·.close .retry c.now (some errorCode)),
        .pending row.attempts (retrySeconds row.attempts))

/-- `finalize_reward_outbox`. -/
def finalize (db : Db) (c : FinalizeCall) : Sql (Db × Answer) :=
  match c.eventId, c.leaseToken, c.succeeded with
  | some id, some token, some succeeded => do
    failIf (succeeded = true ∧ (c.result.all fun document =>
      !isObject document || 16384 < document.utf8ByteSize) = true) .invalidWorkerResult
    match db.leasedRow id token with
    | none => return (db, .leaseLost)
    | some row => return db.finalizeRow c id token succeeded row
  | _, _, _ => .error .invalidWorkerFinalization

end Db

/-! ### Runs -/

inductive Call where
  | enqueue (c : EnqueueCall)
  | claim (c : ClaimCall)
  | finalize (c : FinalizeCall)

namespace Db

/-- Nothing has been enqueued yet. -/
def initial : Db := ⟨.empty, .empty⟩

def call (db : Db) : Call → Sql Db
  | .enqueue c => db.enqueue c
  | .claim c => Prod.fst <$> db.claim c
  | .finalize c => Prod.fst <$> db.finalize c

/-- The state after a call; an exception leaves it as it was. -/
def apply (db : Db) (c : Call) : Db :=
  match db.call c with
  | .ok db' => db'
  | .error _ => db

def run (db : Db) (calls : List Call) : Db := calls.foldl apply db

end Db

end PandaPay.Outbox.Rewards
