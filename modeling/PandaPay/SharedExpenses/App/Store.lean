import PandaPay.SharedExpenses.App.Commands
import PandaPay.Library.Trace

/-!
# The app's shared-expense store

`SharedExpensesStore` of `features/shared_expenses/storage/shared_store.dart`: the tables of one
account on the device, and the operations that write to them. Every operation runs inside one
savepoint. Every statement of the store names its own account, so the tables hold the rows of that
account only.

## Main definitions

* `Store`: the tables
* `enqueue`, `claim`, `complete`, `fail`, `resumeAuthentication`: the command queue
* `projections`, `applyPage`, `revokeContext`: the copy of the server's records
* `Call`, `perform`: the store as a machine

## Main results

* `perform_of_error`: an operation that throws leaves the tables as they were
-/

namespace PandaPay.SharedExpenses.App

open Dart

/-- `SharedCommandState`. -/
inductive SharedCommandState where
  | pending
  | sending
  | retry
  | conflict
  | awaitingAuth
  | rejected
  | committed
  deriving DecidableEq

/-- A row of `shared_commands`, which is keyed by the operation. -/
structure CommandRow where
  contextId : JsString
  kind : JsString
  requestJson : JsString
  requestHash : JsString
  state : SharedCommandState := .pending
  createdAt : ℤ
  attempts : ℤ := 0
  nextAttempt : ℤ := 0
  leaseId : Option JsString := none
  leaseExpires : ℤ := 0
  errorCode : Option JsString := none
  deriving DecidableEq

/-- A row of `shared_operation_receipts`. -/
structure ReceiptRow where
  requestHash : JsString
  receiptJson : JsString
  deriving DecidableEq

/-- The key of a row of `shared_projections`. -/
structure ProjectionKey where
  contextId : JsString
  entity : JsString
  id : JsString
  deriving DecidableEq

/-- A row of `shared_projections`. -/
structure ProjectionRow where
  revision : ℤ
  payload : JsString
  deleted : Bool
  deriving DecidableEq

/-- The tables, by primary key. -/
structure Store where
  commands : InsertionMap JsString CommandRow
  /-- `(operation_id, depends_on)`. -/
  dependencies : InsertionMap (JsString × JsString) Unit
  /-- `(operation_id, source_key)`, with `resolved`. -/
  sourceDependencies : InsertionMap (JsString × JsString) Bool
  receipts : InsertionMap JsString ReceiptRow
  /-- `operation_id`, with `context_id` and `payload`. -/
  provisional : InsertionMap JsString (JsString × JsString)
  projections : InsertionMap ProjectionKey ProjectionRow
  syncState : InsertionMap JsString JsString

/-- The tables of a new account. -/
def Store.empty : Store := ⟨.empty, .empty, .empty, .empty, .empty, .empty, .empty⟩

/-- `throw const SharedLocalException(code)`. -/
abbrev localError (code : String) : StoreException := .sharedLocal code

/-- `INSERT INTO` a table, whose primary key must be new. -/
def insertRow {κ ν : Type} [DecidableEq κ] (table : InsertionMap κ ν) (key : κ) (row : ν) :
    Throwing (InsertionMap κ ν) := do
  failIf (table.get? key).isSome .sqlite
  return table.set key row

/-- `SharedQueuedCommand`. -/
structure SharedQueuedCommand where
  command : SharedCommand
  state : SharedCommandState
  attempts : ℤ
  errorCode : Option JsString

/-- `SharedCommandClaim`. -/
structure SharedCommandClaim where
  command : SharedCommand
  leaseId : JsString
  deriving DecidableEq

/-- The key of the tombstone of a context in `shared_sync_state`. -/
def revokedKey (contextId : JsString) : JsString := js "revoked:" ++ contextId

/-- `isContextRevoked`. -/
def isContextRevoked (s : Store) (contextId : JsString) : Bool :=
  (s.syncState.get? (revokedKey contextId)).isSome

/-- `cursor`. -/
def cursor (s : Store) : Option JsString := s.syncState.get? (js "cursor")

section Sha256

variable (sha256 : JsString → JsString)

/-- `_command`: the command of a row. -/
def storedCommand (row : CommandRow) : Throwing SharedCommand := do
  let value ← jsonDecode row.requestJson
  let command ← SharedCommand.fromJson sha256 value
  failIf (command.requestHash ≠ row.requestHash ∨ command.contextId ≠ row.contextId)
    (localError "stored_command_corrupt")
  return command

/-- `operation`. -/
def operation (s : Store) (operationId : JsString) : Throwing (Option SharedQueuedCommand) :=
  match s.commands.get? operationId with
  | none => pure none
  | some row => do
    let command ← storedCommand sha256 row
    return some ⟨command, row.state, row.attempts, row.errorCode⟩

/-! ### Enqueueing -/

/-- The check of one dependency of a command. -/
def checkDependency (s : Store) (operationId id : JsString) : Throwing Unit := do
  failIf (isUuid id = false ∨ id = operationId) (localError "invalid_dependency")
  let queued ← operation sha256 s id
  failIf queued.isNone (localError "invalid_dependency")

/-- The row a command is inserted as. -/
def newRow (command : SharedCommand) (createdAt : ℤ) : CommandRow where
  contextId := command.contextId
  kind := command.kind
  requestJson := command.canonicalJson
  requestHash := command.requestHash
  createdAt := createdAt

/-- The inserts of `_enqueue`. -/
def insertCommand (command : SharedCommand) (dependsOn sourceDependencies : List JsString)
    (overlay : Option JsString) (createdAt : ℤ) (s : Store) : Throwing Store := do
  let commands ← insertRow s.commands command.operationId (newRow command createdAt)
  let dependencies ← dependsOn.foldlM (fun table id =>
    insertRow table (command.operationId, id) ()) s.dependencies
  let sources ← sourceDependencies.foldlM (fun table key =>
    insertRow table (command.operationId, key) false) s.sourceDependencies
  let provisional ← overlay.toList.foldlM (fun table text =>
    insertRow table command.operationId (command.contextId, text)) s.provisional
  return { s with
    commands := commands, dependencies := dependencies, sourceDependencies := sources,
    provisional := provisional }

/-- `_enqueue`. -/
def enqueue (command : SharedCommand) (dependsOn sourceDependencies : List JsString)
    (provisional : Option DartMap) (createdAt : ℤ) (s : Store) : Throwing Store := do
  failIf (dependsOn.length > 100 ∨ sourceDependencies.length > 100 ∨ ¬ dependsOn.Nodup ∨
    ¬ sourceDependencies.Nodup) (localError "dependency_limit")
  match ← operation sha256 s command.operationId with
  | some existing => do
    failIf (existing.command.canonicalJson ≠ command.canonicalJson) (localError "operation_reuse")
    return s
  | none => do
    dependsOn.forM (checkDependency sha256 s command.operationId)
    failIf (∃ key ∈ sourceDependencies, key = [] ∨ key.length > 256)
      (localError "invalid_source_dependency")
    let overlay ← provisional.mapM fun value => canonicalText (.map value.entries)
    insertCommand command dependsOn sourceDependencies overlay createdAt s

/-- `enqueueFriendSetup`. -/
def enqueueFriendSetup (context member : SharedCommand) (s : Store) : Throwing Store := do
  failIf (context.kind ≠ js "context.create" ∨ member.kind ≠ js "member.invite" ∨
    context.contextId ≠ member.contextId) (localError "invalid_friend_setup")
  let s ← enqueue sha256 context [] [] none 0 s
  enqueue sha256 member [context.operationId] [] none 0 s

/-- `resolveSourceDependency`. -/
def resolveSourceDependency (key : JsString) (s : Store) : Store :=
  { s with sourceDependencies :=
      s.sourceDependencies.mapValues fun k resolved => if k.2 = key then true else resolved }

/-! ### Sending -/

/-- Whether the query of `claim` finds a row. -/
def claimable (s : Store) (now : ℤ) (operationId : JsString) (row : CommandRow) : Bool :=
  row.nextAttempt ≤ now &&
  (row.state = .pending || row.state = .retry || (row.state = .sending && row.leaseExpires ≤ now)) &&
  !(s.sourceDependencies.entries.any fun d => d.1.1 = operationId && d.2 = false) &&
  !isContextRevoked s row.contextId &&
  !(s.dependencies.keys.any fun d => d.1 = operationId && (s.receipts.get? d.2).isNone)

/-- `ORDER BY created_at, operation_id LIMIT 1`. -/
def nextClaimable (s : Store) (now : ℤ) : Option (JsString × CommandRow) :=
  ((s.commands.entries.filter fun e => claimable s now e.1 e.2).insertionSort fun a b =>
    a.2.createdAt < b.2.createdAt ∨ a.2.createdAt = b.2.createdAt ∧ a.1 ≤ b.1).head?

/-- A byte as two hexadecimal digits. -/
def hexByte (byte : Fin 256) : JsString := [hexUnit (byte.val / 16), hexUnit (byte.val % 16)]

/-- The name of a lease: the label of the worker and sixteen random bytes. -/
def leaseToken (leaseId : JsString) (random : Fin 16 → Fin 256) : JsString :=
  leaseId ++ js ":" ++ (List.ofFn random).flatMap hexByte

/-- The update of `claim`: the row of the command is leased. -/
def leaseRow (operationId token : JsString) (expires : ℤ) (id : JsString) (row : CommandRow) :
    CommandRow :=
  if id = operationId then
    { row with state := .sending, leaseId := some token, leaseExpires := expires }
  else row

/-- `claim`. -/
def claim (now : ℤ) (leaseId : JsString) (leaseDurationMs : ℤ) (random : Fin 16 → Fin 256)
    (s : Store) : Throwing (Option SharedCommandClaim × Store) := do
  failIf (leaseId = [] ∨ leaseId.length > 128 ∨ leaseDurationMs < 1 ∨ leaseDurationMs > 300000)
    (localError "invalid_lease")
  match nextClaimable s now with
  | none => return (none, s)
  | some (_, row) => do
    let command ← storedCommand sha256 row
    let token := leaseToken leaseId random
    let commands := s.commands.mapValues
      (leaseRow command.operationId token (now + leaseDurationMs))
    return (some ⟨command, token⟩, { s with commands := commands })

/-- `_owns`. -/
def owns (s : Store) (claim : SharedCommandClaim) : Bool :=
  match s.commands.get? claim.command.operationId with
  | some row => row.state = .sending && row.leaseId = some claim.leaseId &&
      row.requestHash = claim.command.requestHash
  | none => false

end Sha256

/-! ### Projections -/

/-- The key of a record. -/
def SharedProjection.key (record : SharedProjection) : ProjectionKey :=
  ⟨record.contextId, record.entity, record.id⟩

/-- The row of a record. -/
def SharedProjection.row (record : SharedProjection) : ProjectionRow :=
  ⟨record.revision, record.canonicalJson, record.deleted⟩

/-- Two rows of one revision that differ. -/
def conflicts (old new : ProjectionRow) : Bool :=
  old.revision = new.revision && (old.payload ≠ new.payload || old.deleted ≠ new.deleted)

/-- The write of one record: a row is only replaced by a newer one. -/
def mergeRecord (table : InsertionMap ProjectionKey ProjectionRow) (record : SharedProjection) :
    Throwing (InsertionMap ProjectionKey ProjectionRow) :=
  match table.get? record.key with
  | none => pure (table.set record.key record.row)
  | some old => do
    failIf (conflicts old record.row) (localError "projection_revision_conflict")
    if old.revision ≥ record.revision then return table
    return table.set record.key record.row

/-- The name a record has in the set of those seen. -/
def SharedProjection.seenKey (record : SharedProjection) : JsString :=
  record.contextId ++ js ":" ++ record.entity ++ js ":" ++ record.id

/-- The body of the loop of `_projections`, with the records seen so far. -/
def projectionsStep (acc : List JsString × InsertionMap ProjectionKey ProjectionRow)
    (record : SharedProjection) :
    Throwing (List JsString × InsertionMap ProjectionKey ProjectionRow) := do
  failIf (record.seenKey ∈ acc.1) (localError "duplicate_projection")
  let table ← mergeRecord acc.2 record
  return (record.seenKey :: acc.1, table)

/-- `_projections`. -/
def projections (records : List SharedProjection) (s : Store) : Throwing Store := do
  let acc ← records.foldlM projectionsStep ([], s.projections)
  return { s with projections := acc.2 }

section Sha256

variable (sha256 : JsString → JsString)

/-! ### Answers -/

/-- The update of `complete`: the row of the command is committed. -/
def commitRow (operationId id : JsString) (row : CommandRow) : CommandRow :=
  if id = operationId then
    { row with state := .committed, leaseId := none, leaseExpires := 0, errorCode := none }
  else row

/-- The tables once a command is committed. -/
def commitCommand (receipt : SharedOperationReceipt) (s : Store) : Store :=
  { s with
    commands := s.commands.mapValues (commitRow receipt.operationId)
    provisional := s.provisional.erase receipt.operationId }

/-- `complete`. -/
def complete (claim : SharedCommandClaim) (receipt : SharedOperationReceipt)
    (records : List SharedProjection) (s : Store) : Throwing (Bool × Store) :=
  if owns s claim = false ∨ isContextRevoked s claim.command.contextId then return (false, s)
  else do
    failIf (receipt.operationId ≠ claim.command.operationId ∨ receipt.kind ≠ claim.command.kind ∨
      receipt.requestHash ≠ claim.command.requestHash ∨
      receipt.contextId ≠ claim.command.contextId) (localError "receipt_mismatch")
    failIf (records.length > 100 ∨ ∃ row ∈ records, row.contextId ≠ receipt.contextId)
      (localError "projection_scope")
    let receiptJson ← receipt.toJson >>= fun value => canonicalText value 262144
    match s.receipts.get? receipt.operationId with
    | some retained => do
      failIf (retained.requestHash ≠ receipt.requestHash ∨ retained.receiptJson ≠ receiptJson)
        (localError "receipt_conflict")
      let s ← projections records s
      return (true, commitCommand receipt s)
    | none => do
      let s ← projections records s
      let receipts ← insertRow s.receipts receipt.operationId ⟨receipt.requestHash, receiptJson⟩
      return (true, commitCommand receipt { s with receipts := receipts })

/-- The state a failed attempt leaves a command in. -/
def failedState (statusCode : Option ℤ) (retryable : Bool) : SharedCommandState :=
  let transient : Bool := retryable || match statusCode with
    | none => true
    | some code => code = 408 || code = 429 || code ≥ 500
  if statusCode = some 409 ∧ retryable = false then .conflict
  else if statusCode = some 401 then .awaitingAuth
  else if transient then .retry
  else .rejected

/-- The update of `fail`: the row of the command has failed once more. -/
def failRow (operationId : JsString) (state : SharedCommandState) (attempts nextAttempt : ℤ)
    (errorCode id : JsString) (row : CommandRow) : CommandRow :=
  if id = operationId then
    { row with
      state := state, attempts := attempts, nextAttempt := nextAttempt, leaseId := none,
      leaseExpires := 0, errorCode := some errorCode }
  else row

/-- `fail`. -/
def fail (claim : SharedCommandClaim) (statusCode : Option ℤ) (retryable : Bool) (now : ℤ)
    (s : Store) : Throwing Store :=
  if owns s claim = false then return s
  else do
    match ← operation sha256 s claim.command.operationId with
    | none => .error .typeError
    | some queued =>
      let attempts := queued.attempts + 1
      let delay := 5000 * 2 ^ (min (max attempts 0) 6).toNat
      let errorCode := match statusCode with
        | none => js "network_unavailable"
        | some code => js "http_" ++ signedDecimal code
      return { s with commands := s.commands.mapValues (failRow claim.command.operationId
        (failedState statusCode retryable) attempts (now + delay) errorCode) }

/-- The update of `resumeAuthentication`: a row that waits for authentication is retried. -/
def resumeRow (_ : JsString) (row : CommandRow) : CommandRow :=
  if row.state = .awaitingAuth then { row with state := .retry, nextAttempt := 0, errorCode := none }
  else row

/-- `resumeAuthentication`. -/
def resumeAuthentication (s : Store) : Store :=
  { s with commands := s.commands.mapValues resumeRow }

/-! ### Pages -/

/-- Delete the records of a context and set its tombstone. -/
def revoke (s : Store) (contextId : JsString) : Store :=
  { s with
    projections := s.projections.filter fun key _ => key.contextId ≠ contextId
    syncState := s.syncState.set (revokedKey contextId) (js "1") }

/-- Remove the tombstone of a context. -/
def grant (s : Store) (contextId : JsString) : Store :=
  { s with syncState := s.syncState.erase (revokedKey contextId) }

/-- Store the cursor of a page. -/
def setCursor (next : Option JsString) (s : Store) : Store :=
  { s with syncState := match next with
    | none => s.syncState.erase (js "cursor")
    | some value => s.syncState.set (js "cursor") value }

/-- `applyPage`. -/
def applyPage (page : SharedChangePage) (expectedCursor : Option JsString) (s : Store) :
    Throwing Store := do
  failIf (cursor s ≠ expectedCursor) (localError "cursor_changed")
  failIf (page.hasMore ∧ page.nextCursor = expectedCursor) (localError "cursor_not_advancing")
  let s ← projections page.records (page.revokedContextIds.foldl revoke s)
  return setCursor page.nextCursor (page.grantedContextIds.foldl grant s)

/-- `revokeContext`. -/
def revokeContext (contextId : JsString) (s : Store) : Throwing Store := do
  failIf (isUuid contextId = false) (localError "invalid_context")
  return revoke s contextId

/-! ### The store as a machine -/

/-- An operation of the store with its arguments. -/
inductive Operation where
  | enqueue (command : {c : SharedCommand // c.Built sha256})
      (dependsOn sourceDependencies : List JsString) (provisional : Option DartMap) (createdAt : ℤ)
  | enqueueFriendSetup (context member : {c : SharedCommand // c.Built sha256})
  | resolveSourceDependency (key : JsString)
  | claim (now : ℤ) (leaseId : JsString) (leaseDurationMs : ℤ) (random : Fin 16 → Fin 256)
  | complete (claim : SharedCommandClaim) (receipt : SharedOperationReceipt)
      (records : List SharedProjection)
  | fail (claim : SharedCommandClaim) (statusCode : Option ℤ) (retryable : Bool) (now : ℤ)
  | resumeAuthentication
  | applyPage (page : SharedChangePage) (expectedCursor : Option JsString)
  | revokeContext (contextId : JsString)

/-- What an operation returns. -/
inductive Reply where
  | done
  | claimed (claim : Option SharedCommandClaim)
  | completed (accepted : Bool)
  deriving DecidableEq

/-- A call of the store: the operation, whether an account recovery is running, and whether the
account is still the current one. -/
structure Call where
  operation : Operation sha256
  isRecovering : Bool := false
  isCurrent : Bool := true

variable {sha256}

/-- The action of an operation inside its savepoint. -/
def action : Operation sha256 → Store → Throwing (Reply × Store)
  | .enqueue command dependsOn sourceDependencies provisional createdAt, s => do
    let s ← enqueue sha256 command dependsOn sourceDependencies provisional createdAt s
    return (.done, s)
  | .enqueueFriendSetup context member, s => do
    let s ← enqueueFriendSetup sha256 context member s
    return (.done, s)
  | .resolveSourceDependency key, s => return (.done, resolveSourceDependency key s)
  | .claim now leaseId leaseDurationMs random, s => do
    let (result, s) ← claim sha256 now leaseId leaseDurationMs random s
    return (.claimed result, s)
  | .complete claim receipt records, s => do
    let (result, s) ← complete claim receipt records s
    return (.completed result, s)
  | .fail claim statusCode retryable now, s => do
    let s ← fail sha256 claim statusCode retryable now s
    return (.done, s)
  | .resumeAuthentication, s => return (.done, resumeAuthentication s)
  | .applyPage page expectedCursor, s => do
    let s ← applyPage page expectedCursor s
    return (.done, s)
  | .revokeContext contextId, s => do
    let s ← revokeContext contextId s
    return (.done, s)

/-- `_write`: run the action inside a savepoint, which is rolled back when the action throws. -/
def perform (s : Store) (call : Call sha256) : Throwing Reply × Store :=
  if call.isRecovering then (.error .recoveryBusy, s)
  else if call.isCurrent = false then (.error (localError "account_changed"), s)
  else match action call.operation s with
    | .ok (reply, s') => (.ok reply, s')
    | .error e => (.error e, s)

/-- An operation that throws leaves the tables as they were. -/
theorem perform_of_error {s : Store} {call : Call sha256} {e : StoreException}
    (h : (perform s call).1 = .error e) : (perform s call).2 = s := by
  unfold perform at h ⊢
  split_ifs <;> try rfl
  rename_i hrecovering hcurrent
  rw [if_neg hrecovering, if_neg hcurrent] at h
  cases haction : action call.operation s with
  | ok result => rw [haction] at h; cases h
  | error e => rfl

/-- An operation that returns has run its action. -/
theorem action_of_perform_ok {s : Store} {call : Call sha256} {reply : Reply}
    (h : (perform s call).1 = .ok reply) :
    action call.operation s = .ok (reply, (perform s call).2) := by
  unfold perform at h ⊢
  split_ifs at h ⊢
  cases haction : action call.operation s with
  | ok result => rw [haction] at h; cases h; rfl
  | error e => rw [haction] at h; cases h

end Sha256

end PandaPay.SharedExpenses.App
