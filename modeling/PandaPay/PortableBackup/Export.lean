import PandaPay.PortableBackup.Ndjson
import PandaPay.Library.Reader

/-!
# Exporting a snapshot

`exportSnapshot`, which reads the rows of a profile page by page, writes each as a line of the stream
and sums up every section in the footer. All queries see one snapshot of the database.

What the clock and the connection do is a parameter: at every write and query they may end the export
with an error.

## Main definitions

* `sectionPage`: the query of `sqlForSection`
* `exportPages`: the loop over the pages of a section
* `exportSnapshot`: the lines that are written, and what is declared of the sections
* `sectionLines`, `sectionText`: the lines of a section in the stream
-/

namespace PandaPay.PortableBackup

/-- The rows that a section takes from its table. -/
def isExported (tables : Tables) (profileId : JsString) (s : PortableSection) (row : Json) : Bool :=
  match s.filter with
  | .ownId => columnIs row "id" profileId
  | .profileId => columnIs row "profile_id" profileId
  | .profileIdNotDeleted =>
    columnIs row "profile_id" profileId && (property? row "deleted_at").all Json.isNull
  | .ownerTransaction => ownsTransaction tables profileId row

/-- The columns that the rows of a section are ordered by. -/
def orderKey (s : PortableSection) (row : Json) : List JsString := s.orderBy.map (columnText row)

/-- The rows of a profile in a section. -/
def profileRows (tables : Tables) (profileId : JsString) (s : PortableSection) : List Json :=
  (tables s.table).filter (isExported tables profileId s)

/-- The records that the query of `sqlForSection` returns. -/
def sectionPage (tables : Tables) (profileId : JsString) (s : PortableSection) (batchSize : ℕ)
    (cursor : Option JsString) (offset : ℕ) : List Json :=
  match s.cursor with
  | some column =>
    ((sortBy (orderKey s) ((profileRows tables profileId s).filter fun row =>
      cursor.all (· < columnText row column))).take batchSize).map portableRecord
  | none =>
    (((sortBy (orderKey s) (profileRows tables profileId s)).drop offset).take batchSize).map
      portableRecord

/-! ### Writing -/

/-- Why an export fails. -/
inductive ExportFailure where
  /-- A `PortableBackupExportError`. -/
  | export (code : String)
  /-- The loop over the pages did not come to an end. -/
  | unfinished
  deriving DecidableEq

/-- The options of an export. -/
structure ExportOptions where
  batchSize : ℕ
  maxOutputBytes : ℕ
  maxRecords : ℕ
  /-- The error that ends the export after so many chunks, if any. -/
  interrupt : ℕ → Option String

/-- `MAX_BATCH_SIZE`. -/
def maxBatchSize : ℕ := 2000

/-- What was written. -/
structure Written where
  chunks : List JsString
  outputBytes : ℕ
  totalRecords : ℕ

/-- What is summed up of a section, with the text that its digest was updated with. -/
structure SectionSum where
  count : ℕ
  bytes : ℕ
  hashed : JsString

/-- Where the export is in a section. -/
structure Paging where
  written : Written
  sum : SectionSum
  cursor : Option JsString
  offset : ℕ

/-- What a footer declares of a section. -/
structure SectionStats where
  count : ℕ
  plaintextBytes : ℕ
  sha256 : JsString
  deriving DecidableEq

/-- `envelopeLine(value)`. -/
def envelopeLine (value : Json) : JsString := canonicalJson value ++ js "\n"

/-- The value of a line that carries a record. -/
def recordEnvelope (sectionName : String) (record : Json) : Json :=
  .obj [(js "type", .str (js "record")), (js "section", .str (js sectionName)),
    (js "record", record)]

section Write

variable (options : ExportOptions)

/-- The clock and the connection let the export go on. -/
def proceed (written : Written) : Except ExportFailure Unit :=
  match options.interrupt written.chunks.length with
  | some code => .error (.export code)
  | none => .ok ()

/-- `writeChunk`. -/
def writeChunk (written : Written) (chunk : JsString) : Except ExportFailure Written := do
  proceed options written
  failIf (options.maxOutputBytes < written.outputBytes + utf8Length chunk)
    (.export "export_limit_exceeded")
  return { written with
    chunks := written.chunks ++ [chunk]
    outputBytes := written.outputBytes + utf8Length chunk }

/-- Whether a value is an object. -/
def isObject : Json → Bool
  | .obj _ => true
  | _ => false

/-- The sum of a section with one more line. -/
def SectionSum.add (sum : SectionSum) (line : JsString) : SectionSum :=
  ⟨sum.count + 1, sum.bytes + utf8Length line, sum.hashed ++ line⟩

/-- The text of a property that is a string. -/
def textProperty (record : Json) (column : String) : Option JsString :=
  match property? record column with
  | some (.str text) => some text
  | _ => none

/-- One record of a section. -/
def exportRecord (s : PortableSection) (p : Paging) (record : Json) :
    Except ExportFailure Paging := do
  proceed options p.written
  failIf (options.maxRecords ≤ p.written.totalRecords) (.export "export_limit_exceeded")
  failIf (isObject record = false) (.export "section_record_invalid")
  let written ← writeChunk options
    { p.written with totalRecords := p.written.totalRecords + 1 }
    (envelopeLine (recordEnvelope s.name record))
  return { p with
    written
    sum := p.sum.add (canonicalJson record ++ js "\n")
    cursor :=
      match s.cursor with
      | some column => textProperty record column
      | none => p.cursor }

end Write

/-! ### Sections -/

section Export

variable (sha256 : JsString → JsString) (options : ExportOptions) (tables : Tables)
  (profileId : JsString)

/-- The loop over the pages of a section, `fuel` of them at most. -/
def exportPages (s : PortableSection) : ℕ → Paging → Except ExportFailure Paging
  | 0, _ => .error .unfinished
  | fuel + 1, p => do
    proceed options p.written
    let rows := sectionPage tables profileId s options.batchSize p.cursor p.offset
    let p ← rows.foldlM (exportRecord options s) p
    if rows.length < options.batchSize then return p
    else do
      failIf (s.cursor.isSome ∧ p.cursor = none) (.export "section_cursor_missing")
      exportPages s fuel
        (if s.cursor.isSome then p else { p with offset := p.offset + rows.length })

/-- One section, with what the footer declares of it. There are no more full pages than rows. -/
def exportSection (written : Written) (s : PortableSection) :
    Except ExportFailure (Written × SectionStats) := do
  let p ← exportPages options tables profileId s ((profileRows tables profileId s).length + 1)
    ⟨written, ⟨0, 0, []⟩, none, 0⟩
  return (p.written, ⟨p.sum.count, p.sum.bytes, sha256 p.sum.hashed⟩)

/-! ### The stream -/

/-- `readSnapshotMetadata`, and the other values of the header and footer. -/
structure ExportMetadata where
  accountId : JsString
  backupId : JsString
  snapshotAt : JsString
  snapshotRevision : JsString
  durationMs : ℕ

/-- The number of something. -/
def numberJson (n : ℕ) : Json := .num (.int n)

/-- The value of the first line. -/
def headerJson (metadata : ExportMetadata) : Json :=
  .obj [(js "type", .str (js "header")),
    (js "media_type", .str (js "application/vnd.pandapay.portable-backup+ndjson")),
    (js "format_version", numberJson 1), (js "schema_version", numberJson 1),
    (js "backup_id", .str metadata.backupId), (js "account_id", .str metadata.accountId),
    (js "snapshot_at", .str metadata.snapshotAt),
    (js "snapshot_revision", .str metadata.snapshotRevision),
    (js "sections", .arr (portableSections.map fun s => .str (js s.name))),
    (js "complete", .bool false)]

/-- What the footer says of a section. -/
def statsJson (stats : SectionStats) : Json :=
  .obj [(js "count", numberJson stats.count),
    (js "plaintext_bytes", numberJson stats.plaintextBytes), (js "sha256", .str stats.sha256)]

/-- The value of the last line. -/
def footerJson (metadata : ExportMetadata) (sections : List (String × SectionStats)) : Json :=
  .obj [(js "type", .str (js "footer")), (js "complete", .bool true),
    (js "sections", .obj (sections.map fun s => (js s.1, statsJson s.2))),
    (js "total_records", numberJson (sections.map fun s => s.2.count).sum),
    (js "total_plaintext_bytes", numberJson (sections.map fun s => s.2.plaintextBytes).sum),
    (js "duration_ms", numberJson metadata.durationMs)]

/-- What an export wrote and declared. -/
structure Exported where
  chunks : List JsString
  sections : List (String × SectionStats)

/-- `exportSnapshot`. -/
def exportSnapshot (metadata : ExportMetadata) : Except ExportFailure Exported := do
  failIf (profileId = []) (.export "account_required")
  failIf (options.batchSize < 1 ∨ maxBatchSize < options.batchSize) (.export "invalid_batch_size")
  failIf (options.maxOutputBytes < 1 ∨ options.maxRecords < 1) (.export "invalid_export_timeout")
  let written ← writeChunk options ⟨[], 0, 0⟩ (envelopeLine (headerJson metadata))
  let (written, sections) ← portableSections.foldlM
    (fun (state : Written × List (String × SectionStats)) s => do
      let (written, stats) ← exportSection sha256 options tables profileId state.1 s
      return (written, state.2 ++ [(s.name, stats)]))
    (written, [])
  let written ← writeChunk options written (envelopeLine (footerJson metadata sections))
  return ⟨written.chunks, sections⟩

end Export

/-! ### Reading the stream -/

/-- The line carries a record of a section. -/
def isRecordOf (sectionName : String) (line : JsString) : Bool :=
  match Json.parse line with
  | some value => columnIs value "type" (js "record") && columnIs value "section" (js sectionName)
  | none => false

/-- The lines of a section in a stream. -/
def sectionLines (sectionName : String) (stream : JsString) : List JsString :=
  (stream.splitOn 10).filter (isRecordOf sectionName)

/-- The lines of a section as they are uploaded. -/
def sectionText (sectionName : String) (stream : JsString) : JsString :=
  (sectionLines sectionName stream).flatMap (· ++ js "\n")

end PandaPay.PortableBackup
