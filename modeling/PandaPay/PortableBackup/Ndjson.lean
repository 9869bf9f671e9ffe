import PandaPay.Json.Printer
import PandaPay.Library.Checked
import PandaPay.PortableBackup.Contract

/-!
# Reading a section

`parseSectionNdjson`, which reads the uploaded lines of a section, checks whose records they are and
computes what the manifest declares of them.

`sha256` is the digest of the UTF-8 bytes of a text, in hexadecimal digits.

## Main definitions

* `Raised`, `Details`: what the restore throws
* `stableId`: the identity of a record in its section
* `normalizeRecord`: a record in canonical form with its identity
* `parseSectionNdjson`: the records of a section with their count, bytes and digest
-/

namespace PandaPay.PortableBackup

/-! ### Errors -/

/-- An entry of a restore plan. -/
structure PlanItem where
  sectionName : String
  id : JsString
  deriving DecidableEq

/-- The `details` of a `PortableRestoreError`. -/
inductive Details where
  | none
  | ordinal (n : ℕ)
  | inSection (name : String)
  | record (name : String) (ordinal : ℕ)
  | duplicate (name : String) (id : JsString)
  | conflict (missingSections : List String) (conflicts : List PlanItem)

/-- What the restore throws. -/
inductive Raised where
  /-- A `PortableRestoreError`. -/
  | restore (code : String) (status : ℕ) (details : Details)
  /-- A `SyntaxError` of `JSON.parse`. -/
  | syntaxError
  /-- An error of a statement. -/
  | database (message : String)

/-- `new PortableRestoreError(code)`. -/
def Raised.bad (code : String) : Raised := .restore code 400 .none

/-- `MAX_SECTION_BYTES`. -/
def maxSectionBytes : ℕ := 64 * 1024 * 1024

/-- `MAX_SECTION_RECORDS`. -/
def maxSectionRecords : ℕ := 200000

/-! ### Records -/

/-- Whether a value counts as true in a condition. -/
def truthy : Json → Bool
  | .null => false
  | .bool b => b
  | .num n => n ≠ .int 0 ∧ n ≠ .negZero
  | .str s => s ≠ []
  | .arr _ => true
  | .obj _ => true

mutual

/-- `String(value)`. -/
def toStr : Json → JsString
  | .null => js "null"
  | .bool b => js (if b then "true" else "false")
  | .num n => n.toText
  | .str s => s
  | .arr items => Json.joinComma (itemTexts items)
  | .obj _ => js "[object Object]"

/-- The texts of elements that are joined; `null` has none. -/
def itemTexts : List Json → List JsString
  | [] => []
  | item :: items => (if item.isNull then [] else toStr item) :: itemTexts items

end

/-- `^[0-9a-f]{64}$`. -/
def isSha256 (s : JsString) : Bool :=
  s.length = 64 && s.all fun c => (48 ≤ c.val ∧ c.val ≤ 57) ∨ (97 ≤ c.val ∧ c.val ≤ 102)

/-- A property that is a truthy value. -/
def truthy? (record : Json) (key : String) : Option Json := (property? record key).filter truthy

/-- `stableId(sectionName, record, ordinal)`. -/
def stableId (sectionName : String) (record : Json) (ordinal : ℕ) : Except Raised JsString :=
  if sectionName = "foreign_payment_sources" then
    match property? record "source_key" with
    | some (.str key) =>
      if isSha256 key then .ok key else .error (.restore "record_id_required" 422 .none)
    | _ => .error (.restore "record_id_required" 422 .none)
  else if sectionName = "transaction_tag_links" then
    match truthy? record "transaction_id", truthy? record "tag_id" with
    | some transaction, some tag => .ok (toStr transaction ++ js ":" ++ toStr tag)
    | _, _ => .error (.restore "record_id_required" 422 .none)
  else if sectionName = "settings" then
    match truthy? record "profile_id" with
    | some profile => .ok (toStr profile)
    | none => .error (.restore "record_id_required" 422 (.record sectionName ordinal))
  else
    match property? record "id" with
    | some (.str id) =>
      if id = [] then .error (.restore "record_id_required" 422 (.record sectionName ordinal))
      else .ok id
    | _ => .error (.restore "record_id_required" 422 (.record sectionName ordinal))

/-- A record that is not of another profile. -/
def ownedBy (record : Json) (profileId : JsString) : Bool :=
  match property? record "profile_id" with
  | none => true
  | some value => value.isStr profileId

/-- `normalizeRecord(record, profileId, sectionName, ordinal)`: the canonical record and its
identity. -/
def normalizeRecord (record : Json) (profileId : JsString) (sectionName : String) (ordinal : ℕ) :
    Except Raised (Json × JsString) :=
  match record with
  | .obj _ => do
    failIf (ownedBy record profileId = false)
      (.restore "record_ownership_mismatch" 409 (.record sectionName ordinal))
    match Json.parse (canonicalJson record) with
    | none => .error .syntaxError
    | some canonical => do
      let id ← stableId sectionName canonical ordinal
      return (canonical, id)
  | _ => .error (.restore "record_invalid" 422 (.record sectionName ordinal))

/-! ### Sections -/

/-- A record that was read from a section. -/
structure ParsedRecord where
  ordinal : ℕ
  stableId : JsString
  record : Json
  canonicalSha256 : JsString

/-- What was read from the lines of a section so far: the records, and the text that the digest was
updated with. -/
structure Reading where
  records : List ParsedRecord
  hashed : JsString
  bytes : ℕ

/-- A section that was read. -/
structure ParsedSection where
  records : List ParsedRecord
  count : ℕ
  bytes : ℕ
  sha256 : JsString

/-- The record of a line: the line is the record itself or an envelope around it. -/
def lineRecord (sectionName : String) (ordinal : ℕ) (parsed : Json) : Except Raised Json :=
  match property? parsed "type" with
  | some type =>
    if type.isStr (js "record") then do
      failIf ((property? parsed "section").any (·.isStr (js sectionName)) = false)
        (.restore "section_name_mismatch" 422 (.ordinal ordinal))
      match property? parsed "record" with
      | some record => return record
      | none => .error (.restore "record_invalid" 422 (.ordinal ordinal))
    else return parsed
  | none => return parsed

section Parse

variable (sha256 : JsString → JsString)

/-- One line of a section. -/
def readLine (sectionName : String) (profileId : JsString) (reading : Reading)
    (line : JsString × ℕ) : Except Raised Reading :=
  if line.1 = [] then return reading
  else
    match Json.parse line.1 with
    | none => .error (.restore "section_invalid_ndjson" 422 (.ordinal line.2))
    | some parsed => do
      let inputRecord ← lineRecord sectionName line.2 parsed
      let (record, id) ← normalizeRecord inputRecord profileId sectionName reading.records.length
      failIf (id ∈ reading.records.map ParsedRecord.stableId)
        (.restore "duplicate_record_id" 409 (.duplicate sectionName id))
      let canonicalLine := canonicalJson record ++ js "\n"
      failIf (maxSectionRecords < reading.records.length + 1) (.restore "section_record_limit" 413 .none)
      return {
        records := reading.records ++
          [⟨reading.records.length, id, record, sha256 canonicalLine⟩]
        hashed := reading.hashed ++ canonicalLine
        bytes := reading.bytes + utf8Length canonicalLine }

/-- `parseSectionNdjson(input, sectionName, profileId)`. -/
def parseSectionNdjson (text : JsString) (sectionName : String) (profileId : JsString) :
    Except Raised ParsedSection := do
  failIf ((sectionByName sectionName).isNone) (.restore "unknown_section" 404 .none)
  failIf (maxSectionBytes < utf8Length text) (.restore "section_too_large" 413 .none)
  failIf (0 ∈ text) (.restore "section_invalid_utf8" 422 .none)
  let reading ← (text.splitOn 10).zipIdx.foldlM (readLine sha256 sectionName profileId) ⟨[], [], 0⟩
  return ⟨reading.records, reading.records.length, reading.bytes, sha256 reading.hashed⟩

end Parse

end PandaPay.PortableBackup
