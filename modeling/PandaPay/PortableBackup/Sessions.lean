import PandaPay.Json.Value
import PandaPay.Library.Keyset
import PandaPay.Library.Newest
import PandaPay.PortableBackup.Ndjson

/-!
# Restore sessions

Creating a restore session, uploading the sections of a backup to it and cancelling it. Each call is
one transaction, which is rolled back when it throws. Instants are in milliseconds.

The manifest and the request are parsed values, of which the fields that are read are kept. An
identifier that `gen_random_uuid` draws is an argument.

Not modelled: `created_at` and `uploaded_at` of staged rows, `updated_at`, `snapshot_at` and
`committed_at`, which nothing reads but the response.

## Main definitions

* `RestoreSession`, `Db`: the staging tables, the ledger of committed backups and the live tables
* `validateManifest`: the checks on a manifest
* `createRestoreSession`, `uploadRestoreSection`, `cancelRestore`: three of the calls
-/

namespace PandaPay.PortableBackup

/-! ### Requests -/

/-- What a manifest says of a section; a number is missing unless it is a safe integer. -/
structure Declaration where
  count : Option ℤ
  bytes : Option ℤ
  sha256 : Option JsString

/-- A manifest. -/
structure Manifest where
  /-- `account_binding ?? account_id`. -/
  accountBinding : Option JsString
  formatVersion : Option ℤ
  schemaVersion : JsString
  complete : Bool
  backupId : Option JsString
  /-- `snapshot_revision || server_revision || ''`. -/
  revision : JsString
  sections : List (String × Declaration)

/-- The body of a request to create a session. -/
structure CreateInput where
  backupId : Option JsString
  idempotencyKey : Option JsString
  snapshotRevision : Option JsString
  manifest : Option Manifest

/-- `sectionDeclaration(manifest, name)`. -/
def sectionDeclaration (manifest : Manifest) (name : String) : Option Declaration :=
  (manifest.sections.find? fun s => s.1 = name).map Prod.snd

/-- The groups of a UUID: `v` is the digit of the version, `n` the one of the variant. -/
def uuidPattern : String := "xxxxxxxx-xxxx-vxxx-nxxx-xxxxxxxxxxxx"

/-- The code unit may stand at a place of the pattern. -/
def fitsPattern (p : Char) (c : CodeUnit) : Bool :=
  if p = '-' then c.val = 45
  else if p = 'v' then 49 ≤ c.val ∧ c.val ≤ 53
  else if p = 'n' then c.val ∈ [56, 57, 97, 98]
  else (48 ≤ c.val ∧ c.val ≤ 57) ∨ (97 ≤ c.val ∧ c.val ≤ 102)

/-- `assertUuid(value, code)`: the UUID in lower case. -/
def assertUuid (value : Option JsString) (code : String) : Except Raised JsString :=
  match value with
  | none => .error (.bad code)
  | some value =>
    let lower := value.map lowerUnit
    if lower.length = 36 ∧ (uuidPattern.toList.zip lower).all fun pc => fitsPattern pc.1 pc.2 then
      .ok lower
    else .error (.bad code)

/-- What `trim` removes in JavaScript. -/
def isJsWhiteSpace (c : CodeUnit) : Bool := isWhiteSpace c && c.val ≠ 133

/-- `s.trim()`. -/
def jsTrim (s : JsString) : JsString :=
  ((s.dropWhile isJsWhiteSpace).reverse.dropWhile isJsWhiteSpace).reverse

/-- `Number(schemaVersion.match(/\d+/)?.[0] || 0)`. -/
def schemaMajor (schemaVersion : JsString) : ℕ :=
  unsignedValue ((schemaVersion.dropWhile fun c => !isDigit c).takeWhile isDigit)

/-- A declared number that is not negative. -/
def isCount (n : Option ℤ) : Bool := n.any fun n => 0 ≤ n

/-- The declaration passes the checks. -/
def Declaration.isValid (d : Declaration) : Bool :=
  isCount d.count && isCount d.bytes && d.sha256.any isSha256

/-- What `validateManifest` returns. -/
structure Metadata where
  formatVersion : ℤ
  schemaVersion : JsString
  snapshotRevision : JsString

/-- The revision of a snapshot: the one requested, else the one of the manifest. -/
def snapshotRevisionOf (requested : Option JsString) (manifest : Manifest) : JsString :=
  jsTrim ((requested.filter (· ≠ [])).getD manifest.revision)

/-- Whether the manifest declares a section as it must. -/
def declares (manifest : Manifest) (s : PortableSection) : Bool :=
  match sectionDeclaration manifest s.name with
  | none => s.optionalForLegacy
  | some d => d.isValid

/-- `validateManifest`. -/
def validateManifest (manifest : Option Manifest) (backupId profileId : JsString)
    (snapshotRevision : Option JsString) : Except Raised (Manifest × Metadata) :=
  match manifest with
  | none => .error (.bad "manifest_required")
  | some manifest => do
    failIf (manifest.accountBinding ≠ some profileId) (.restore "account_mismatch" 409 .none)
    failIf (manifest.formatVersion ≠ some 1 ∨ schemaMajor manifest.schemaVersion ≠ 1)
      (.bad "unsupported_backup_version")
    failIf (manifest.complete = false) (.restore "backup_incomplete" 409 .none)
    if manifest.backupId.any (· ≠ []) then do
      let declared ← assertUuid manifest.backupId "invalid_backup_id"
      failIf (declared ≠ backupId) (.bad "backup_id_mismatch")
    failIf (snapshotRevisionOf snapshotRevision manifest = []) (.bad "snapshot_revision_required")
    match portableSections.find? fun s => !declares manifest s with
    | some s => .error (.restore "manifest_section_invalid" 422 (.inSection s.name))
    | none =>
      return (manifest, ⟨1, manifest.schemaVersion, snapshotRevisionOf snapshotRevision manifest⟩)

/-! ### Tables -/

/-- `portable_restore_sessions.state`. -/
inductive SessionState where
  | staging
  | conflict
  | committed
  | cancelled
  | expired
  deriving DecidableEq

/-- The `result` of a commit. -/
structure RestoreResult where
  inserted : ℕ
  noOps : ℕ
  backupId : JsString
  serverRevision : JsString
  deriving DecidableEq

/-- A row of `portable_restore_sessions`. -/
structure RestoreSession where
  id : JsString
  profileId : JsString
  backupId : JsString
  idempotencyKey : JsString
  metadata : Metadata
  manifest : Manifest
  state : SessionState
  previewRevision : Option JsString
  result : Option RestoreResult
  createdAt : ℤ
  expiresAt : ℤ

/-- A row of `portable_restore_sections`. -/
structure StagedSection where
  sessionId : JsString
  profileId : JsString
  sectionName : String
  receivedCount : ℕ
  receivedBytes : ℕ
  receivedSha256 : JsString

/-- A row of `portable_restore_records`. -/
structure StagedRecord where
  sessionId : JsString
  profileId : JsString
  sectionName : String
  ordinal : ℕ
  stableId : JsString
  record : Json
  canonicalSha256 : JsString

/-- A row of `portable_backup_ledger`. -/
structure LedgerRow where
  profileId : JsString
  backupId : JsString
  sessionId : JsString
  result : RestoreResult

/-- The database: the tables of the restore, the live tables as `to_jsonb` shows their rows, and the
last `server_seq` of each profile. -/
structure Db where
  sessions : List RestoreSession
  sections : List StagedSection
  records : List StagedRecord
  ledger : List LedgerRow
  tables : String → List Json
  serverSeq : JsString → ℕ

namespace Db

/-- The row of `portable_restore_sessions` with this identifier. -/
def session? (db : Db) (profileId id : JsString) : Option RestoreSession :=
  db.sessions.find? fun s => s.id = id ∧ s.profileId = profileId

/-- `UPDATE portable_restore_sessions … WHERE id = $1`. -/
def updateSession (db : Db) (id : JsString) (f : RestoreSession → RestoreSession) : Db :=
  { db with sessions := db.sessions.map fun s => if s.id = id then f s else s }

/-- The row of `portable_backup_ledger` for a backup. -/
def committed? (db : Db) (profileId backupId : JsString) : Option LedgerRow :=
  db.ledger.find? fun l => l.profileId = profileId ∧ l.backupId = backupId

/-- The newest session of a profile with this key or backup. -/
def newestSession (db : Db) (profileId idempotencyKey backupId : JsString) :
    Option RestoreSession :=
  newest RestoreSession.createdAt (db.sessions.filter fun s =>
    s.profileId = profileId ∧ (s.idempotencyKey = idempotencyKey ∨ s.backupId = backupId))

/-- A row that one of the unique keys of `portable_restore_sessions` keeps out. -/
def hasSession (db : Db) (new : RestoreSession) : Bool :=
  db.sessions.any fun s => s.id = new.id ∨
    (s.profileId = new.profileId ∧
      (s.backupId = new.backupId ∨ s.idempotencyKey = new.idempotencyKey))

end Db

/-! ### Calls -/

/-- `sessionResponse`; a committed backup without its session has no `expires_at`. -/
structure SessionResponse where
  sessionId : JsString
  backupId : JsString
  state : SessionState
  expiresAt : Option ℤ

/-- `sessionResponse(row)`. -/
def RestoreSession.response (row : RestoreSession) : SessionResponse :=
  ⟨row.id, row.backupId, row.state, some row.expiresAt⟩

/-- What `createRestoreSession` returns. -/
structure CreateResponse where
  session : SessionResponse
  resumed : Bool
  result : Option RestoreResult

/-- `SESSION_TTL_HOURS`. -/
def sessionTtlHours : ℤ := 24

/-- What a request to create a session asks for, once it is checked. -/
structure CreateRequest where
  backupId : JsString
  idempotencyKey : JsString
  manifest : Manifest
  metadata : Metadata

/-- The checks of `createRestoreSession`. -/
def checkCreate (profileId : JsString) (input : CreateInput) : Except Raised CreateRequest := do
  let backupId ← assertUuid
    ((input.backupId.filter (· ≠ [])).or (input.manifest.bind Manifest.backupId))
    "invalid_backup_id"
  let key := jsTrim (input.idempotencyKey.getD [])
  failIf (key = [] ∨ 200 < key.length) (.bad "idempotency_key_required")
  let (manifest, metadata) ←
    validateManifest input.manifest backupId profileId input.snapshotRevision
  return ⟨backupId, key, manifest, metadata⟩

/-- The row that `createRestoreSession` inserts. -/
def CreateRequest.newSession (request : CreateRequest) (profileId id : JsString) (now : ℤ) :
    RestoreSession where
  id := id
  profileId := profileId
  backupId := request.backupId
  idempotencyKey := request.idempotencyKey
  metadata := request.metadata
  manifest := request.manifest
  state := .staging
  previewRevision := none
  result := none
  createdAt := now
  expiresAt := now + sessionTtlHours * 3600000

namespace Db

/-- `createRestoreSession` past its checks. -/
def findOrCreate (db : Db) (now : ℤ) (profileId id : JsString) (request : CreateRequest) :
    Except Raised (CreateResponse × Db) :=
  match db.newestSession profileId request.idempotencyKey request.backupId with
  | some row => do
    failIf (row.backupId ≠ request.backupId)
      (.restore "restore_session_identity_conflict" 409 .none)
    return (⟨row.response, true, none⟩, db)
  | none =>
    match db.committed? profileId request.backupId with
    | some l => .ok (⟨⟨l.sessionId, request.backupId, .committed, none⟩, true, some l.result⟩, db)
    | none =>
      let new := request.newSession profileId id now
      -- `ON CONFLICT DO NOTHING`, and another look at what was there
      if db.hasSession new then
        match db.newestSession profileId request.idempotencyKey request.backupId with
        | some row =>
          if row.backupId = request.backupId then .ok (⟨row.response, true, none⟩, db)
          else .error (.restore "restore_session_identity_conflict" 409 .none)
        | none => .error (.restore "restore_session_identity_conflict" 409 .none)
      else .ok (⟨new.response, false, none⟩, { db with sessions := db.sessions ++ [new] })

/-- `createRestoreSession`. -/
def createRestoreSession (db : Db) (now : ℤ) (profileId id : JsString) (input : CreateInput) :
    Except Raised (CreateResponse × Db) := do
  let request ← checkCreate profileId input
  db.findOrCreate now profileId id request

/-- `loadSession`. The state `expired` that it writes is rolled back with the error. -/
def loadSession (db : Db) (now : ℤ) (profileId sessionId : JsString) :
    Except Raised RestoreSession := do
  let id ← assertUuid (some sessionId) "invalid_session_id"
  match db.session? profileId id with
  | none => .error (.restore "restore_session_not_found" 404 .none)
  | some row => do
    failIf (row.state = .staging ∧ row.expiresAt ≤ now) (.restore "restore_session_expired" 410 .none)
    return row

/-- The row of `portable_restore_sections` for a section of a session. -/
def stagedSection? (db : Db) (sessionId : JsString) (sectionName : String) :
    Option StagedSection :=
  db.sections.find? fun s => s.sessionId = sessionId ∧ s.sectionName = sectionName

/-- The declaration says what was read. -/
def matchesDeclaration (manifest : Manifest) (sectionName : String) (parsed : ParsedSection) :
    Bool :=
  (sectionDeclaration manifest sectionName).any fun d =>
    d.count = some (parsed.count : ℤ) && d.bytes = some (parsed.bytes : ℤ) &&
      d.sha256 = some parsed.sha256

/-- The rows of `portable_restore_records` of a section that was read; `jsonb` is what the column
`record` makes of a value. -/
def stagedRecords (jsonb : Json → Json) (sessionId profileId : JsString) (sectionName : String)
    (parsed : ParsedSection) : List StagedRecord :=
  parsed.records.map fun r =>
    ⟨sessionId, profileId, sectionName, r.ordinal, r.stableId, jsonb r.record, r.canonicalSha256⟩

/-- What `uploadRestoreSection` returns. -/
structure UploadResponse where
  sessionId : JsString
  sectionName : String
  idempotent : Bool
  count : ℕ
  sha256 : JsString

section Upload

variable (sha256 : JsString → JsString) (jsonb : Json → Json)

/-- `uploadRestoreSection`. -/
def uploadRestoreSection (db : Db) (now : ℤ) (profileId sessionId : JsString) (sectionName : String)
    (text : JsString) : Except Raised (UploadResponse × Db) := do
  let parsed ← parseSectionNdjson sha256 text sectionName profileId
  let session ← db.loadSession now profileId sessionId
  failIf (session.state ≠ .staging) (.restore "restore_session_not_writable" 409 .none)
  failIf (matchesDeclaration session.manifest sectionName parsed = false)
    (.restore "section_digest_mismatch" 422 (.inSection sectionName))
  match db.stagedSection? session.id sectionName with
  | some staged => do
    failIf (staged.receivedSha256 ≠ parsed.sha256 ∨ staged.receivedCount ≠ parsed.count)
      (.restore "section_upload_conflict" 409 (.inSection sectionName))
    return (⟨session.id, sectionName, true, parsed.count, parsed.sha256⟩, db)
  | none =>
    return (⟨session.id, sectionName, false, parsed.count, parsed.sha256⟩,
      { db with
        sections := db.sections ++
          [⟨session.id, profileId, sectionName, parsed.count, parsed.bytes, parsed.sha256⟩]
        records := db.records ++ stagedRecords jsonb session.id profileId sectionName parsed })

end Upload

/-- `cancelRestore`. -/
def cancelRestore (db : Db) (now : ℤ) (profileId sessionId : JsString) :
    Except Raised (SessionResponse × Db) := do
  let session ← db.loadSession now profileId sessionId
  failIf (session.state = .committed) (.restore "restore_already_committed" 409 .none)
  return (⟨session.id, session.backupId, .cancelled, some session.expiresAt⟩,
    db.updateSession session.id fun s => { s with state := .cancelled })

end Db

end PandaPay.PortableBackup
