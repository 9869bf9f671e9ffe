import PandaPay.Library.Trace
import PandaPay.PortableBackup.Sessions

/-!
# Preview and commit of a restore

The plan of a restore, which tells the staged records that are missing in the live tables from those
that are there and those that differ, and the commit that inserts the missing ones. Each call is one
transaction that runs by itself.

What PostgreSQL and the migrations of the live tables make of a row is a parameter: the types of the
columns and their defaults, the triggers before an insert, the policies, the keys and the references.

## Main definitions

* `Postgres`: what the database does with rows and keys
* `Db.currentRecord`, `Db.buildRestorePlan`: the plan
* `Db.insertRecord`, `Db.commitRestore`, `Db.previewRestore`: the commit and the preview
* `System`, `step`: the calls of the restore beside other writers, in time
-/

namespace PandaPay.PortableBackup

/-- What PostgreSQL does with rows and keys of the live tables. -/
structure Postgres where
  /-- A value as a `jsonb` column returns it. -/
  jsonb : Json → Json
  /-- A parameter compared with a column, as the column shows it. -/
  toKey : String → String → JsString → Except String JsString
  /-- The row that an `INSERT` of these columns proposes. -/
  rowOf : Tables → String → List (JsString × Json) → Except String Json
  /-- One of the unique keys of a table has the same value in two rows. -/
  collides : String → Json → Json → Bool
  /-- The references of an inserted row. -/
  references : Tables → String → Json → Except String Unit

/-- An error of a statement. -/
def ofDatabase {α : Type} : Except String α → Except Raised α
  | .ok a => .ok a
  | .error message => .error (.database message)

/-! ### The plan -/

section Plan

variable (pg : Postgres)

/-- The rows that `existingRecordQuery` asks for. -/
def existingRow (tables : Tables) (profileId : JsString) (s : PortableSection)
    (stableId : JsString) : Except String (Option Json) :=
  if s.name = "transaction_tag_links" then
    match stableId.splitOn 58 with
    | transactionId :: tagId :: _ => do
      let transactionId ← pg.toKey s.table "transaction_id" transactionId
      let tagId ← pg.toKey s.table "tag_id" tagId
      return (tables s.table).find? fun t => columnIs t "profile_id" profileId &&
        columnIs t "transaction_id" transactionId && columnIs t "tag_id" tagId
    | _ => return none
  else if s.name = "transaction_splits" then do
    let id ← pg.toKey s.table "id" stableId
    return (tables s.table).find? fun t => columnIs t "id" id && ownsTransaction tables profileId t
  else if s.name = "settings" then
    return (tables s.table).find? fun t => columnIs t "profile_id" profileId
  else if s.name = "profile" then
    return (tables s.table).find? fun t => columnIs t "id" profileId
  else do
    let identity := if s.name = "foreign_payment_sources" then "source_key" else "id"
    let id ← pg.toKey s.table identity stableId
    return (tables s.table).find? fun t => columnIs t identity id &&
      columnIs t "profile_id" profileId

/-- `currentRecord`. -/
def currentRecord (tables : Tables) (profileId : JsString) (s : PortableSection)
    (stableId : JsString) : Except Raised (Option Json) := do
  let row ← ofDatabase (existingRow pg tables profileId s stableId)
  return row.map portableRecord

/-- What `buildRestorePlan` returns. -/
structure RestorePlan where
  missingSections : List String
  noops : List PlanItem
  missing : List PlanItem
  conflicts : List PlanItem
  serverRevision : JsString

/-- A staged record with its section. -/
abbrev Staged := PortableSection × StagedRecord

/-- The entry of a staged record in a plan. -/
def planItem (r : Staged) : PlanItem := ⟨r.1.name, r.2.stableId⟩

/-- The staged record goes where the row that is there, if any, puts it. -/
def RestorePlan.add (plan : RestorePlan) (r : Staged) (current : Option Json) : RestorePlan :=
  match current with
  | none => { plan with missing := plan.missing ++ [planItem r] }
  | some current =>
    if canonicalJson r.2.record = canonicalJson current then
      { plan with noops := plan.noops ++ [planItem r] }
    else { plan with conflicts := plan.conflicts ++ [planItem r] }

namespace Db

/-- The staged records of a section, by ordinal. -/
def recordsOf (db : Db) (session : RestoreSession) (profileId : JsString) (s : PortableSection) :
    List Staged :=
  (sortBy StagedRecord.ordinal (db.records.filter fun r =>
    r.sessionId = session.id ∧ r.profileId = profileId ∧ r.sectionName = s.name)).map (s, ·)

/-- A section was staged. -/
def isStaged (db : Db) (session : RestoreSession) (profileId : JsString) (name : String) : Bool :=
  db.sections.any fun s =>
    s.sessionId = session.id ∧ s.profileId = profileId ∧ s.sectionName = name

/-- The last `server_seq` of a profile, as a text. -/
def serverRevision (db : Db) (profileId : JsString) : JsString := decimal (db.serverSeq profileId)

/-- The sections that have to be uploaded yet. -/
def missingSections (db : Db) (session : RestoreSession) (profileId : JsString) : List String :=
  ((portableSections.filter fun s =>
      !s.optionalForLegacy || (sectionDeclaration session.manifest s.name).isSome).map
    PortableSection.name).filter fun name => !db.isStaged session profileId name

/-- `buildRestorePlan`. -/
def buildRestorePlan (db : Db) (session : RestoreSession) (profileId : JsString) :
    Except Raised RestorePlan :=
  ((portableSections.filter fun s => db.isStaged session profileId s.name).flatMap
      (db.recordsOf session profileId)).foldlM
    (fun plan r => do
      let current ← currentRecord pg db.tables profileId r.1 r.2.stableId
      return plan.add r current)
    ⟨db.missingSections session profileId, [], [], [], db.serverRevision profileId⟩

end Db

end Plan

/-- `assertNoConflicts`. -/
def assertNoConflicts (plan : RestorePlan) : Except Raised Unit :=
  failIf (plan.missingSections ≠ [] ∨ plan.conflicts ≠ [])
    (.restore "restore_conflict" 409 (.conflict plan.missingSections plan.conflicts))

/-! ### The commit -/

/-- `^[a-z_][a-z0-9_]*$`. -/
def isColumnName : JsString → Bool
  | [] => false
  | c :: cs =>
    (97 ≤ c.val && c.val ≤ 122 || c.val = 95) &&
      cs.all fun d => 97 ≤ d.val && d.val ≤ 122 || d.val = 95 || isDigit d

/-- The columns and values of `insertRecordQuery`. -/
def insertFields (record : Json) : List (JsString × Json) :=
  match record with
  | .obj fields => Json.sortFields (fields.filter fun f => isColumnName f.1 && !isExcluded f.1)
  | _ => []

/-- The tables with one more row in one of them. -/
def Tables.insert (tables : Tables) (table : String) (row : Json) : Tables :=
  fun t => if t = table then tables t ++ [row] else tables t

/-- `sessionResponse(session, { state: 'committed' })`. -/
def RestoreSession.committedResponse (session : RestoreSession) : SessionResponse :=
  ⟨session.id, session.backupId, .committed, some session.expiresAt⟩

/-- What `commitRestore` returns. -/
structure CommitResponse where
  session : SessionResponse
  result : RestoreResult
  idempotent : Bool

/-- What `previewRestore` returns. -/
structure PreviewResponse where
  session : SessionResponse
  plan : Option RestorePlan
  result : Option RestoreResult

section Commit

variable (pg : Postgres)

/-- `INSERT … ON CONFLICT DO NOTHING` of a record, with the number of rows so far. -/
def insertRecord (state : Tables × ℕ) (r : Staged) : Except Raised (Tables × ℕ) := do
  failIf (insertFields r.2.record = []) (.restore "record_empty" 422 (.inSection r.1.name))
  let row ← ofDatabase (pg.rowOf state.1 r.1.table (insertFields r.2.record))
  if (state.1 r.1.table).any (pg.collides r.1.table row) then return state
  else do
    ofDatabase (pg.references (state.1.insert r.1.table row) r.1.table row)
    return (state.1.insert r.1.table row, state.2 + 1)

namespace Db

/-- The staged records that a plan found missing, in the order they are inserted in. -/
def missingRecords (db : Db) (session : RestoreSession) (profileId : JsString)
    (plan : RestorePlan) : List Staged :=
  (portableSections.flatMap (db.recordsOf session profileId)).filter fun r =>
    planItem r ∈ plan.missing

/-- The database after a commit that left these live tables. -/
def recordCommit (db : Db) (session : RestoreSession) (profileId : JsString) (tables : Tables)
    (result : RestoreResult) : Db :=
  updateSession
    { db with tables, ledger := db.ledger ++ [⟨profileId, session.backupId, session.id, result⟩] }
    session.id fun s => { s with state := .committed, result := some result }

/-- `commitRestore`. -/
def commitRestore (db : Db) (now : ℤ) (profileId sessionId : JsString)
    (previewRevision : Option JsString) : Except Raised (CommitResponse × Db) := do
  let session ← db.loadSession now profileId sessionId
  match db.committed? profileId session.backupId with
  | some l => return (⟨session.committedResponse, l.result, true⟩, db)
  | none => do
    failIf (session.state ≠ .staging) (.restore "restore_session_not_committable" 409 .none)
    failIf (previewRevision.getD [] = [] ∨ previewRevision ≠ session.previewRevision)
      (.restore "preview_required_or_stale" 409 .none)
    failIf (some (db.serverRevision profileId) ≠ session.previewRevision)
      (.restore "preview_required_or_stale" 409 .none)
    let plan ← db.buildRestorePlan pg session profileId
    assertNoConflicts plan
    let (tables, inserted) ←
      (db.missingRecords session profileId plan).foldlM (insertRecord pg) (db.tables, 0)
    let result : RestoreResult :=
      ⟨inserted, plan.noops.length, session.backupId, db.serverRevision profileId⟩
    failIf (db.ledger.any fun l => l.sessionId = session.id)
      (.database "portable_backup_ledger_session_id_key")
    return (⟨session.committedResponse, result, false⟩,
      db.recordCommit session profileId tables result)

/-- `previewRestore`. -/
def previewRestore (db : Db) (now : ℤ) (profileId sessionId : JsString) :
    Except Raised (PreviewResponse × Db) := do
  let session ← db.loadSession now profileId sessionId
  if session.state = .committed then return (⟨session.response, none, session.result⟩, db)
  else do
    failIf (session.state ≠ .staging) (.restore "restore_session_not_previewable" 409 .none)
    let plan ← db.buildRestorePlan pg session profileId
    return (⟨session.response, some plan, none⟩,
      db.updateSession session.id fun s => { s with previewRevision := some plan.serverRevision })

end Db

end Commit

/-! ### Runs -/

/-- The database and the time. -/
structure System where
  db : Db
  now : ℤ

/-- What can happen: the calls of the restore, writes of others to the live tables, and time
passing. -/
inductive Call where
  | create (profileId id : JsString) (input : CreateInput)
  | upload (profileId sessionId : JsString) (sectionName : String) (text : JsString)
  | preview (profileId sessionId : JsString)
  | commit (profileId sessionId : JsString) (previewRevision : Option JsString)
  | cancel (profileId sessionId : JsString)
  | write (tables : Tables) (serverSeq : JsString → ℕ)
  | advance (milliseconds : ℕ)

/-- What a call returns. -/
inductive Response where
  | created (r : CreateResponse)
  | uploaded (r : Db.UploadResponse)
  | previewed (r : PreviewResponse)
  | committed (r : CommitResponse)
  | cancelled (r : SessionResponse)
  | none

/-- `inTransaction`: what a call did is kept if it did not throw. -/
def System.inTransaction {α : Type} (s : System) (wrap : α → Response)
    (run : Except Raised (α × Db)) : Except Raised Response × System :=
  match run with
  | .error e => (.error e, s)
  | .ok (a, db) => (.ok (wrap a), { s with db })

section Step

variable (sha256 : JsString → JsString) (pg : Postgres)

/-- One call. -/
def step (s : System) : Call → Except Raised Response × System
  | .create profileId id input =>
    s.inTransaction .created (s.db.createRestoreSession s.now profileId id input)
  | .upload profileId sessionId sectionName text =>
    s.inTransaction .uploaded
      (s.db.uploadRestoreSection sha256 pg.jsonb s.now profileId sessionId sectionName text)
  | .preview profileId sessionId =>
    s.inTransaction .previewed (s.db.previewRestore pg s.now profileId sessionId)
  | .commit profileId sessionId previewRevision =>
    s.inTransaction .committed (s.db.commitRestore pg s.now profileId sessionId previewRevision)
  | .cancel profileId sessionId =>
    s.inTransaction .cancelled (s.db.cancelRestore s.now profileId sessionId)
  | .write tables serverSeq => (.ok .none, { s with db := { s.db with tables, serverSeq } })
  | .advance milliseconds => (.ok .none, { s with now := s.now + milliseconds })

end Step

end PandaPay.PortableBackup
