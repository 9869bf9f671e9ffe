import PandaPay.SharedExpenses.Feed.Query
import PandaPay.Library.Checked
import PandaPay.Json.Printer

/-!
# Pulling the projection feed

`pullProjectionChanges` of `api/src/shared_expenses/queries.js`: one page of the feed, and a client
that follows the cursors. A cursor is the pair of texts in it; its encoding as a token, which also
holds the scope it was made for, is not modelled.

## Main definitions

* `Cursor`, `decodeCursor`: the cursor and the keyset it stands for
* `consume`: the loop over the rows of a page
* `pullProjectionChanges`
* `Fetches`: the pages a client receives
-/

namespace PandaPay.SharedExpenses.Feed

/-- What a pull can throw: `v.fail(code, field)` or `new Error(code)`. -/
structure PullError where
  code : String
  field : Option String := none
  deriving DecidableEq

/-- A cursor: the texts of a sequence and of a record key. -/
abbrev Cursor := JsString × JsString

/-- `v.fail('INVALID_CURSOR','after')`. -/
def invalidCursor : PullError := ⟨"INVALID_CURSOR", some "after"⟩

/-- `request.limit`. -/
def pageLimit (limit : Option JsString) : Except PullError ℕ :=
  match limit with
  | none => pure 50
  | some s => do
    failIf (isUnsigned s = false ∨ s = js "0" ∨ s.length > 3 ∨ unsignedValue s > 100)
      ⟨"INVALID_INPUT", some "query.limit"⟩
    return unsignedValue s

/-- `sequence`. -/
def sequence (value : JsString) : Except PullError ℕ := do
  failIf (isUnsigned value = false ∨ unsignedValue value > 9007199254740991) invalidCursor
  return unsignedValue value

/-- A `uuid` at the start of a text, and the rest. -/
def readUuid (s : JsString) : Option (Uuid × JsString) :=
  if h : isUuid (s.take 36) = true then some (⟨s.take 36, h⟩, s.drop 36) else none

/-- `:` and a `uuid` as often as a text has them. -/
def readIds : ℕ → JsString → Option (List Uuid)
  | 0, s => if s = [] then some [] else none
  | n + 1, s =>
    if (js ":").isPrefixOf s then
      match readUuid (s.drop 1) with
      | some (id, rest) => (readIds n rest).map (id :: ·)
      | none => none
    else none

/-- The branch and the ids of a record key. -/
def readKey (text : JsString) : Option (RecordKind × List Uuid) :=
  RecordKind.all.findSome? fun kind =>
    if (js kind.name).isPrefixOf text then
      (readIds kind.arity (text.drop (js kind.name).length)).map (kind, ·)
    else none

/-- The parameters a cursor stands for. -/
def decodeCursor (cursor : Option Cursor) : Except PullError Keyset :=
  match cursor with
  | none => pure ⟨0, -1, []⟩
  | some (sequenceText, keyText) => do
    failIf (sequenceText.length > 128 ∨ keyText.length > 128) invalidCursor
    let afterSequence ← sequence sequenceText
    match readKey keyText with
    | some (kind, ids) => return ⟨afterSequence, kind.rank, ids⟩
    | none => .error invalidCursor

/-- `encodeCursor(scope,[row.profile_sequence,row.record_key])`. -/
def cursorOf (r : FeedRecord) : Cursor := (decimal r.profileSequence, r.key.text)

section Page

-- `JSON.stringify`
variable (stringify : Json → JsString)

/-- The object a row is sent as, unless it is a marker only. -/
def FeedRecord.toJson (r : FeedRecord) : Option Json :=
  r.entity.map fun entity => object [("entity", .str (js entity)), ("id", .str r.id),
    ("contextId", .str r.contextId.val), ("revision", .str r.revision), ("payload", r.payload),
    ("deleted", .bool r.deleted)]

/-- The bytes a row counts for. -/
def FeedRecord.size (r : FeedRecord) : ℕ :=
  match r.toJson with
  | some value => utf8Length (stringify value)
  | none => 64

/-- The loop over the rows of a page: the rows that fit. -/
def consume (bytes : ℕ) : List FeedRecord → Except PullError (List FeedRecord)
  | [] => pure []
  | r :: rows => do
    failIf (r.size stringify > 262144) ⟨"shared_projection_record_too_large", none⟩
    if bytes + r.size stringify > 1900000 then return []
    let rest ← consume (bytes + r.size stringify) rows
    return r :: rest

/-- A page: the rows it was made from, the cursor after them and whether there is more. -/
structure Page where
  changes : List FeedRecord
  nextCursor : Option Cursor
  hasMore : Bool

/-- `records`. -/
def Page.records (page : Page) : List FeedRecord := page.changes.filter fun r => r.entity.isSome

/-- The contexts whose rows have a marker. -/
def Page.marked (page : Page) (marker : String) : List Uuid :=
  ((page.changes.filter fun r => r.marker = some marker).map FeedRecord.contextId).dedup

/-- `revokedContextIds`. -/
def Page.revokedContextIds (page : Page) : List Uuid := page.marked "revoked"

/-- `grantedContextIds`: a revocation wins over a grant in the same page. -/
def Page.grantedContextIds (page : Page) : List Uuid :=
  (page.marked "granted").filter fun id => id ∉ page.revokedContextIds

variable (db : Db) (actorId : Uuid)

/-- `pullProjectionChanges`. -/
def pullProjectionChanges (limit : Option JsString) (after : Option Cursor) :
    Except PullError Page := do
  let limit ← pageLimit limit
  let k ← decodeCursor after
  let rows := projectionFeed db actorId k (limit + 1)
  let changes ← consume stringify 0 (rows.take limit)
  return {
    changes := changes
    nextCursor := match changes.getLast? with
      | some r => some (cursorOf r)
      | none => after
    hasMore := changes.length < rows.length || (!rows.isEmpty && streamMore db actorId k) }

/-- The pages a client receives that starts at a cursor and follows the cursors until a page says
that there is no more. -/
inductive Fetches (limit : Option JsString) : Option Cursor → List Page → Prop
  | last {after : Option Cursor} {page : Page} :
      pullProjectionChanges stringify db actorId limit after = .ok page → page.hasMore = false →
      Fetches limit after [page]
  | more {after : Option Cursor} {page : Page} {pages : List Page} :
      pullProjectionChanges stringify db actorId limit after = .ok page → page.hasMore = true →
      Fetches limit page.nextCursor pages → Fetches limit after (page :: pages)

end Page

/-! ### What there is to receive -/

/-- The changes of one event in key order. -/
def changesOf (db : Db) (actorId : Uuid) (p : VisibleEvent) : List FeedRecord :=
  RecordKind.all.flatMap fun kind => sortBy (fun r => r.key.ids) (candidates db actorId p kind)

/-- The visible changes, by sequence and record key. -/
def visibleChanges (db : Db) (actorId : Uuid) : List FeedRecord :=
  (stream db actorId).flatMap (changesOf db actorId)

/-- A client that pulls pages of a size receives every visible change exactly once and in order, and
each page but the last makes progress. -/
def Lossless (stringify : Json → JsString) (db : Db) (actorId : Uuid) (limit : Option JsString) :
    Prop :=
  ∃ pages, Fetches stringify db actorId limit none pages ∧
    pages.flatMap Page.changes = visibleChanges db actorId ∧
    ∀ page ∈ pages, page.hasMore = true → page.changes ≠ []

end PandaPay.SharedExpenses.Feed
