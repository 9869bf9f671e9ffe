import PandaPay.SharedExpenses.Sql.Snapshot
import PandaPay.Library.Keyset

/-!
# The projection feed

The query `PROJECTION_FEED_SQL` of `api/src/shared_expenses/queries.js`, which reads the changes of
one profile in pages. The tables are those that the row policies let the actor see.

## Main definitions

* `RecordKey`, `RecordKey.text`: the keys of the records
* `Db`: the tables
* `VisibleEvent`, `candidates`: the events of the profile and the records of each
* `projectionFeed`: the query
-/

namespace PandaPay.SharedExpenses.Feed

open Sql (textValue)

/-- The canonical text of a `uuid`; the order of the type is that of the texts. -/
abbrev Uuid := {s : JsString // isUuid s = true}

/-! ### Keys -/

/-- The branches of the query. -/
inductive RecordKind where
  | context
  | member
  | expense
  | revision
  | balance
  | cost
  | activity
  | revoked
  | granted
  deriving DecidableEq

namespace RecordKind

/-- The branches in the order of the query. -/
def all : List RecordKind :=
  [context, member, expense, revision, balance, cost, activity, revoked, granted]

/-- What a record key starts with. -/
def name : RecordKind → String
  | context => "00_context"
  | member => "10_member"
  | expense => "20_expense"
  | revision => "21_revision"
  | balance => "30_balance"
  | cost => "40_cost"
  | activity => "50_activity"
  | revoked => "90_revoked"
  | granted => "99_granted"

/-- `Number(match[1].slice(0,2))`. -/
def rank : RecordKind → ℕ
  | context => 0
  | member => 10
  | expense => 20
  | revision => 21
  | balance => 30
  | cost => 40
  | activity => 50
  | revoked => 90
  | granted => 99

/-- How many ids a record key has. -/
def arity : RecordKind → ℕ
  | balance => 2
  | _ => 1

end RecordKind

/-- A record key: its branch and the one or two ids that follow. -/
structure RecordKey where
  kind : RecordKind
  ids : List Uuid
  arity : ids.length = kind.arity
  deriving DecidableEq

/-- The key of a record with one id. -/
def oneId (kind : RecordKind) (id : Uuid) (h : kind.arity = 1 := by rfl) : RecordKey :=
  ⟨kind, [id], h.symm⟩

/-- The text of a record key. -/
def RecordKey.text (key : RecordKey) : JsString :=
  js key.kind.name ++ key.ids.flatMap fun id => js ":" ++ id.val

/-! ### Tables -/

structure ContextEventRow where
  eventId : Uuid
  kind : JsString
  originId : Uuid
  actorProfileId : Uuid
  payload : Json
  createdAt : JsString

structure ContextRow where
  kind : JsString
  name : JsString
  createdBy : Uuid
  currency : JsString
  state : JsString
  committedSequence : ℕ
  createdAt : JsString

structure MemberRow where
  profileId : Option Uuid
  role : JsString
  state : JsString
  displayName : Option JsString

structure ExpenseRow where
  createdBy : Uuid
  acceptedRevisionId : Option Uuid
  headVersion : ℕ

structure RevisionRow where
  expenseId : Uuid
  authorProfileId : Uuid
  expectedHeadRevisionId : Option Uuid
  revisionHash : JsString
  projectionVersion : JsString
  title : JsString
  occurredOn : JsString
  currency : JsString
  totalMinor : ℕ
  isVoid : Bool
  snapshot : Json
  bill : Json
  projectedEdges : Json

structure JournalRow where
  contextId : Uuid
  originId : Uuid
  lowMemberId : Uuid
  highMemberId : Uuid

structure CostRow where
  revisionId : Uuid
  memberId : Uuid
  currency : JsString
  shareMinor : ℕ
  sourceLinkedMinor : ℕ
  occurredOn : JsString

/-- The tables by primary key, as the actor sees them. A profile is in a context at most once. -/
structure Db where
  /-- The stream of the actor: the context and the sequence in it of every event. -/
  profileEvents : InsertionMap ℕ (Uuid × ℕ)
  contextEvents : InsertionMap (Uuid × ℕ) ContextEventRow
  contexts : InsertionMap Uuid ContextRow
  members : InsertionMap (Uuid × Uuid) MemberRow
  expenses : InsertionMap (Uuid × Uuid) ExpenseRow
  revisions : InsertionMap (Uuid × Uuid) RevisionRow
  pairBalances : InsertionMap (Uuid × Uuid × Uuid) ℤ
  journalEntries : List JournalRow
  /-- The cost facts of the actor. -/
  privateCostFacts : InsertionMap (Uuid × Uuid) CostRow
  /-- The names of `phone_directory`. -/
  phoneDirectory : InsertionMap Uuid (Option JsString)
  /-- `CHECK(sequence BETWEEN 1 AND 9007199254740991)`. -/
  sequence_bounds : ∀ sequence ∈ profileEvents.keys, 1 ≤ sequence ∧ sequence ≤ 9007199254740991

/-- A row of the CTE `visible`. -/
structure VisibleEvent where
  profileSequence : ℕ
  contextId : Uuid
  contextSequence : ℕ
  event : Option ContextEventRow
  context : Option ContextRow
  me : Option (Uuid × MemberRow)

/-- A row of the CTE `records`. -/
structure FeedRecord where
  profileSequence : ℕ
  key : RecordKey
  entity : Option String
  id : JsString
  contextId : Uuid
  revision : JsString
  payload : Json
  deleted : Bool
  marker : Option String

section Query

variable (db : Db) (actorId : Uuid)

/-! ### Labels -/

/-- `NULLIF(btrim(text),'')`. -/
def trimmed (text : Option JsString) : Option JsString :=
  match text with
  | none => none
  | some s =>
    let t := ((s.dropWhile (· = 32)).reverse.dropWhile (· = 32)).reverse
    if t = [] then none else some t

/-- The name a profile chose. -/
def directoryName (profileId : Uuid) : Option JsString :=
  trimmed ((db.phoneDirectory.get? profileId).getD none)

/-- `_context_label`. -/
def contextLabel (context : ContextRow) : JsString :=
  if context.kind = js "direct" ∧ context.createdBy ≠ actorId then
    (directoryName db context.createdBy).getD (js "PandaPay friend")
  else context.name

/-- `_member_label`. -/
def memberLabel (displayName : Option JsString) (profileId : Option Uuid) : Option JsString :=
  match trimmed displayName, profileId with
  | some name, _ => some name
  | none, none => some (js "Former member")
  | none, some profileId => directoryName db profileId

/-! ### Events -/

/-- A row of `selected_events` with what `visible` joins to it. -/
def visible (sequence : ℕ) (contextId : Uuid) (contextSequence : ℕ) : VisibleEvent where
  profileSequence := sequence
  contextId := contextId
  contextSequence := contextSequence
  event := db.contextEvents.get? (contextId, contextSequence)
  context := db.contexts.get? contextId
  me := (db.members.entries.find? fun e =>
    e.1.1 = contextId ∧ e.2.profileId = some actorId).map fun e => (e.1.2, e.2)

/-- The events of the stream, oldest first. -/
def stream : List VisibleEvent :=
  (sortBy Prod.fst db.profileEvents.entries).map fun e => visible db actorId e.1 e.2.1 e.2.2

namespace VisibleEvent

variable (p : VisibleEvent)

/-- `readable`. -/
def readable : Bool := p.context.isSome

/-- `revision`. -/
def revision : JsString :=
  decimal ((p.context.map ContextRow.committedSequence).getD p.contextSequence)

/-- `full_grant`; an unknown value counts as false wherever it is used. -/
def fullGrant : Bool :=
  match p.me, p.event with
  | some (memberId, me), some event =>
    me.state = js "active" &&
      (event.kind = js "context.created" || (event.kind = js "membership.responded" &&
        event.originId = memberId && textValue (event.payload.get "accepted") = some (js "true")))
  | _, _ => false

/-- `(event_payload->>'expenseId')::uuid`; a text that is no `uuid` is not cast. -/
def expenseId : Option Uuid :=
  match p.event with
  | none => none
  | some event =>
    match textValue (event.payload.get "expenseId") with
    | some s => if h : isUuid s = true then some ⟨s, h⟩ else none
    | none => none

/-- Whether the event is of one of the kinds. -/
def isKind (kinds : List String) : Bool :=
  match p.event with
  | some event => event.kind ∈ kinds.map js
  | none => false

/-- A record of the event. -/
def record (key : RecordKey) (entity : Option String) (id : JsString) (payload : Json)
    (deleted : Bool := false) (marker : Option String := none) : FeedRecord :=
  ⟨p.profileSequence, key, entity, id, p.contextId, p.revision, payload, deleted, marker⟩

end VisibleEvent

/-! ### Records -/

/-- A text or `null`. -/
def nullable (text : Option JsString) : Json := (text.map Json.str).getD .null

/-- `jsonb_build_object`. -/
def object (fields : List (String × Json)) : Json := .obj (fields.map fun f => (js f.1, f.2))

/-- The object of an accepted revision. -/
def acceptedObject (id : Uuid) (r : RevisionRow) : Json :=
  object [("revisionId", .str id.val), ("title", .str r.title), ("occurredOn", .str r.occurredOn),
    ("currency", .str r.currency), ("totalMinor", .str (decimal r.totalMinor)),
    ("void", .bool r.isVoid), ("snapshot", r.snapshot), ("bill", r.bill),
    ("projectionVersion", .str r.projectionVersion)]

/-- The pairs whose balance an event reports: all of the context after a grant, else those that the
event itself touched. -/
def balancePairs (p : VisibleEvent) : List (Uuid × Uuid) :=
  if p.fullGrant then
    (db.pairBalances.keys.filter fun k => k.1 = p.contextId).map Prod.snd
  else
    ((db.journalEntries.filter fun j =>
      j.contextId = p.contextId ∧ (p.event.map ContextEventRow.originId) = some j.originId).map
        fun j => (j.lowMemberId, j.highMemberId)).dedup

/-- The records of one branch for an event, before the keyset condition. -/
def candidates (p : VisibleEvent) : RecordKind → List FeedRecord
  | .context =>
    match p.context with
    | none => []
    | some c => [p.record (oneId .context p.contextId) (some "contexts") p.contextId.val
        (object [("contextId", .str p.contextId.val), ("kind", .str c.kind),
          ("name", .str (contextLabel db actorId c)), ("currency", .str c.currency),
          ("state", .str c.state), ("membershipState", nullable (p.me.map fun m => m.2.state)),
          ("committedSequence", .str p.revision), ("createdAt", .str c.createdAt)])]
  | .member =>
    if p.readable = false then [] else
    (db.members.entries.filter fun e => e.1.1 = p.contextId ∧
      (p.fullGrant = true ∨ p.event.map ContextEventRow.originId = some e.1.2)).map fun e =>
        p.record (oneId .member e.1.2) (some "members") e.1.2.val
          (object [("contextId", .str p.contextId.val), ("memberId", .str e.1.2.val),
            ("profileId", nullable (e.2.profileId.map Subtype.val)), ("role", .str e.2.role),
            ("state", .str e.2.state),
            ("displayName", nullable (memberLabel db e.2.displayName e.2.profileId))])
  | .expense =>
    if p.readable = false then [] else
    (db.expenses.entries.filter fun e => e.1.1 = p.contextId ∧
      (p.fullGrant = true ∨ p.expenseId = some e.1.2)).map fun e =>
        let accepted := match e.2.acceptedRevisionId with
          | none => .null
          | some id => match db.revisions.get? (p.contextId, id) with
            | some r => if r.expenseId = e.1.2 then acceptedObject id r else .null
            | none => .null
        p.record (oneId .expense e.1.2) (some "expenses") e.1.2.val
          (object [("recordType", .str (js "head")), ("contextId", .str p.contextId.val),
            ("expenseId", .str e.1.2.val), ("createdBy", .str e.2.createdBy.val),
            ("acceptedRevisionId", nullable (e.2.acceptedRevisionId.map Subtype.val)),
            ("headVersion", .str (decimal e.2.headVersion)), ("accepted", accepted)])
  | .revision =>
    match p.event with
    | none => []
    | some event =>
      if p.readable = false ∨ (js "expense.").isPrefixOf event.kind = false then [] else
      match db.revisions.get? (p.contextId, event.originId) with
      | none => []
      | some r => [p.record (oneId .revision event.originId) (some "expenses")
          (r.expenseId.val ++ js ":" ++ event.originId.val)
          (object [("recordType", .str (js "revision")), ("contextId", .str p.contextId.val),
            ("expenseId", .str r.expenseId.val), ("revisionId", .str event.originId.val),
            ("authorProfileId", .str r.authorProfileId.val),
            ("expectedHeadRevisionId", nullable (r.expectedHeadRevisionId.map Subtype.val)),
            ("revisionHash", .str r.revisionHash), ("projectionVersion", .str r.projectionVersion),
            ("title", .str r.title), ("occurredOn", .str r.occurredOn),
            ("currency", .str r.currency), ("totalMinor", .str (decimal r.totalMinor)),
            ("void", .bool r.isVoid), ("snapshot", r.snapshot), ("bill", r.bill),
            ("projectedEdges", r.projectedEdges)])]
  | .balance =>
    if p.readable = false ∨
        (p.fullGrant = false ∧ p.isKind ["expense.accepted", "settlement.confirmed"] = false) then []
    else (balancePairs db p).map fun pair =>
      let balance := db.pairBalances.get? (p.contextId, pair)
      p.record ⟨.balance, [pair.1, pair.2], rfl⟩ (some "balances")
        (pair.1.val ++ js ":" ++ pair.2.val)
        (object [("contextId", .str p.contextId.val), ("currency", .str (js "INR")),
          ("lowMemberId", .str pair.1.val), ("highMemberId", .str pair.2.val),
          ("balanceMinor", .str (signedDecimal (balance.getD 0)))]) balance.isNone
  | .cost =>
    if p.readable = false then [] else
    (db.privateCostFacts.entries.filter fun e => e.1.1 = p.contextId ∧
      (p.fullGrant = true ∨ p.expenseId = some e.1.2)).map fun e =>
        p.record (oneId .cost e.1.2) (some "personal_cost") e.1.2.val
          (object [("contextId", .str p.contextId.val), ("expenseId", .str e.1.2.val),
            ("revisionId", .str e.2.revisionId.val), ("memberId", .str e.2.memberId.val),
            ("currency", .str e.2.currency), ("shareMinor", .str (decimal e.2.shareMinor)),
            ("sourceLinkedMinor", .str (decimal e.2.sourceLinkedMinor)),
            ("occurredOn", .str e.2.occurredOn)])
  | .activity =>
    match p.event with
    | none => []
    | some event =>
      if p.readable = false then [] else
      [p.record (oneId .activity event.eventId) (some "activity") event.eventId.val
        (object [("contextId", .str p.contextId.val), ("eventId", .str event.eventId.val),
          ("kind", .str event.kind), ("originId", .str event.originId.val),
          ("actorProfileId", .str event.actorProfileId.val), ("payload", event.payload),
          ("sequence", .str (decimal p.contextSequence)), ("createdAt", .str event.createdAt)])]
  | .revoked =>
    if p.readable then [] else
    [p.record (oneId .revoked p.contextId) (some "contexts") p.contextId.val (object []) true
      (some "revoked")]
  | .granted =>
    if p.fullGrant && p.readable then
      [p.record (oneId .granted p.contextId) none p.contextId.val (object []) false (some "granted")]
    else []

/-! ### The query -/

/-- The parameters of the keyset condition: `$2`, `$5` and `$6`, `$7`. -/
structure Keyset where
  afterSequence : ℕ
  rank : ℤ
  ids : List Uuid

/-- The keyset condition of a branch. -/
def Keyset.admits (k : Keyset) (r : FeedRecord) : Bool :=
  k.afterSequence < r.profileSequence || k.rank < r.key.kind.rank ||
    (k.rank = r.key.kind.rank && k.ids < r.key.ids)

/-- One branch for an event: the first `limit` admitted records by id. The branches with at most one
record have no limit of their own. -/
def branch (k : Keyset) (limit : ℕ) (p : VisibleEvent) (kind : RecordKind) : List FeedRecord :=
  (sortBy (fun r => r.key.ids) ((candidates db actorId p kind).filter k.admits)).take limit

/-- `selected_events`: a window of ten events. -/
def selectedEvents (k : Keyset) : List VisibleEvent :=
  ((stream db actorId).filter fun p => k.afterSequence ≤ p.profileSequence).take 10

/-- What the last `ORDER BY` compares. The name `profile_sequence` is that of an output column
there, which is the text of the number. -/
def FeedRecord.order (r : FeedRecord) : JsString ×ₗ JsString :=
  toLex (decimal r.profileSequence, r.key.text)

/-- `PROJECTION_FEED_SQL`: the rows of a page, and one more. -/
def projectionFeed (k : Keyset) (limit : ℕ) : List FeedRecord :=
  (sortBy FeedRecord.order ((selectedEvents db actorId k).flatMap fun p =>
    RecordKind.all.flatMap (branch db actorId k limit p))).take limit

/-- `stream_more`: the stream goes on after the window. -/
def streamMore (k : Keyset) : Bool :=
  match ((selectedEvents db actorId k).map VisibleEvent.profileSequence).max? with
  | none => false
  | some last => (stream db actorId).any fun p => last < p.profileSequence

end Query

end PandaPay.SharedExpenses.Feed
