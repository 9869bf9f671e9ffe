import PandaPay.Library.LastWriter
import PandaPay.Sync.Schema

/-!
# A device that edits and pushes

A device keeps its edits in a queue until the server has accepted them. Edits of one row are merged into its first
queued change that is not being pushed. A queue works on the rows of one account, in the order of `client_seq`,
which never goes back.

Next to it is a server that keeps for each field the write with the greatest clock. Pushes run one at a time; what
was sent may arrive at any later time and several times, also after the device has given up waiting, and its result
counts only while the push runs. A deletion writes to no field here.

Not modelled: insertions, which are never merged; the device id and the cursor.

## Main definitions

* `SyncChange`, `SyncChange.write`: what is sent of a queued change, and what it writes to a field
* `Queue`: the queued changes of an account
* `Queue.enqueueUpdate`, `Queue.enqueueDelete`: a local edit and a local deletion
* `Queue.pending`, `Queue.claim`, `Queue.release`, `Queue.remove`, `Queue.recordFailure`,
  `Queue.reject`: what a push does with the queue
* `Queue.restart`: the constructor
* `LocalEdit`, `lastEdit`: what the user did, and the last value given to a field
* `Device`, `Device.Step`, `Device.Reachable`: a device and what can happen to it
* `Device.register`: a field on the server
* `Device.Accounted`: where the last edit of a field is
-/

namespace PandaPay.Sync

variable {J : Type}

/-! ### The queue -/

/-- A row that is synced, by the name of its table. -/
structure Target where
  entity : String
  entityId : Uuid
  deriving DecidableEq

/-- A local edit that the server has not accepted. -/
structure SyncChange (J : Type) extends Target where
  op : SyncOp
  payload : InsertionMap String J
  fieldClocks : InsertionMap String ℤ
  clientSeq : ℕ

/-- A row of `sync_pending_changes`. -/
structure PendingChange (J : Type) extends SyncChange J where
  createdAt : ℤ
  attempts : ℕ
  lastError : Option String
  inFlight : Bool

/-- The rows of an account, and the last `client_seq` that was drawn. -/
structure Queue (J : Type) where
  rows : List (PendingChange J)
  sequence : ℕ

/-- What a change writes to a field; a field without a clock has the clock 0. -/
def SyncChange.write (c : SyncChange J) (field : String) : Option (Stamped ℤ J) :=
  (c.payload.get? field).map fun value => ⟨(c.fieldClocks.get? field).getD 0, value⟩

/-- `map..addAll(entries)`. -/
def addAll {ν : Type} (map : InsertionMap String ν) (entries : List (String × ν)) :
    InsertionMap String ν :=
  entries.foldl (fun map e => map.set e.1 e.2) map

/-- `{for (final k in fields.keys) k: clockMs}`. -/
def clocksFor (fields : InsertionMap String J) (clockMs : ℤ) : List (String × ℤ) :=
  fields.keys.map fun field => (field, clockMs)

/-- The row with other values and clocks, to be tried anew. -/
def PendingChange.withFields (row : PendingChange J) (payload : InsertionMap String J)
    (fieldClocks : InsertionMap String ℤ) : PendingChange J :=
  { row with payload := payload, fieldClocks := fieldClocks, attempts := 0, lastError := none }

namespace Queue

/-- The queued changes. -/
def changes (q : Queue J) : List (SyncChange J) := q.rows.map PendingChange.toSyncChange

/-- `maxAttempts`. -/
def maxAttempts : ℕ := 5

/-- The queue with one more row, under the next `client_seq`. -/
def insert (q : Queue J) (target : Target) (op : SyncOp) (payload : InsertionMap String J)
    (fieldClocks : InsertionMap String ℤ) (createdAt : ℤ) : Queue J where
  rows := q.rows ++ [⟨⟨target, op, payload, fieldClocks, q.sequence + 1⟩, createdAt, 0, none, false⟩]
  sequence := q.sequence + 1

/-- The rows with this `client_seq` are updated. -/
def update (q : Queue J) (clientSeq : ℕ) (f : PendingChange J → PendingChange J) : Queue J :=
  { q with rows := q.rows.map fun row => if row.clientSeq = clientSeq then f row else row }

/-- An edit of the row may be merged into the change. -/
def coalesces (target : Target) (row : PendingChange J) : Bool :=
  row.toTarget = target && row.op = .update && !row.inFlight

/-- `enqueueUpdate`. -/
def enqueueUpdate (q : Queue J) (target : Target) (fields : InsertionMap String J) (clockMs : ℤ) :
    Queue J :=
  if fields.entries.isEmpty then q
  else
    match q.rows.find? (coalesces target) with
    | none => q.insert target .update fields (addAll .empty (clocksFor fields clockMs)) clockMs
    | some existing => q.update existing.clientSeq fun row =>
      row.withFields (addAll existing.payload fields.entries)
        (addAll existing.fieldClocks (clocksFor fields clockMs))

/-- `enqueueDelete`. -/
def enqueueDelete (q : Queue J) (target : Target) (clockMs : ℤ) : Queue J :=
  { q with rows := q.rows.filter fun row => !(row.toTarget = target && !row.inFlight) }.insert target
    .delete .empty .empty clockMs

/-- `pending`. -/
def pending (q : Queue J) (limit : ℕ) : List (SyncChange J) :=
  ((q.rows.filter fun row => row.attempts < maxAttempts && !row.inFlight).take limit).map
    PendingChange.toSyncChange

/-- The rows of these changes are marked. -/
def mark (q : Queue J) (inFlight : Bool) (changes : List (SyncChange J)) : Queue J :=
  changes.foldl (fun q change => q.update change.clientSeq fun row =>
    { row with inFlight := inFlight }) q

/-- `claim`. -/
def claim (q : Queue J) (changes : List (SyncChange J)) : Queue J := q.mark true changes

/-- `release`. -/
def release (q : Queue J) (changes : List (SyncChange J)) : Queue J := q.mark false changes

/-- `remove`. -/
def remove (q : Queue J) (clientSeq : ℕ) : Queue J :=
  { q with rows := q.rows.filter fun row => row.clientSeq ≠ clientSeq }

/-- `recordFailure`. -/
def recordFailure (q : Queue J) (clientSeq : ℕ) (error : String) : Queue J :=
  q.update clientSeq fun row =>
    { row with attempts := row.attempts + 1, lastError := some error }

/-- `reject`. -/
def reject (q : Queue J) (clientSeq : ℕ) (error : String) : Queue J :=
  q.update clientSeq fun row => { row with attempts := maxAttempts, lastError := some error }

/-- The constructor takes every change back. -/
def restart (q : Queue J) : Queue J :=
  { q with rows := q.rows.map fun row => { row with inFlight := false } }

end Queue

/-! ### The device -/

/-- An edit or a deletion by the user; a deletion with the `client_seq` of its change. -/
inductive LocalEdit (J : Type) where
  | update (target : Target) (fields : InsertionMap String J) (clockMs : ℤ)
  | delete (target : Target) (clockMs : ℤ) (clientSeq : ℕ)

/-- A write that the server has applied: of this device, or of another one. -/
inductive Applied (J : Type) where
  | change (c : SyncChange J)
  | remote (target : Target) (field : String) (write : Stamped ℤ J)

def LocalEdit.clockMs : LocalEdit J → ℤ
  | update _ _ clockMs => clockMs
  | delete _ clockMs _ => clockMs

/-- What an edit gives to a field of a row. -/
def LocalEdit.write (target : Target) (field : String) : LocalEdit J → Option (Stamped ℤ J)
  | update target' fields clockMs =>
    if target' = target then (fields.get? field).map fun value => ⟨clockMs, value⟩ else none
  | delete _ _ _ => none

/-- The last value the user gave to a field of a row, with its clock. -/
def lastEdit (target : Target) (field : String) (edits : List (LocalEdit J)) :
    Option (Stamped ℤ J) :=
  edits.foldl (fun last edit => (edit.write target field).or last) none

/-- What the server makes of an applied change for a field of a row. -/
def Applied.write (target : Target) (field : String) : Applied J → Option (Stamped ℤ J)
  | change c => if c.toTarget = target ∧ c.op = .update then c.write field else none
  | remote target' field' write => if target' = target ∧ field' = field then some write else none

/-- A device with what it has done so far, and the server. `sent` is the push that runs. -/
structure Device (J : Type) where
  queue : Queue J
  sent : List (SyncChange J)
  posted : List (SyncChange J)
  edits : List (LocalEdit J)
  acknowledged : List (SyncChange J)
  applied : List (Applied J)

namespace Device

/-- A device of a new account. -/
def fresh : Device J := ⟨⟨[], 0⟩, [], [], [], [], []⟩

/-- What can happen; the clock of each edit is later than those before it. -/
inductive Step (s : Device J) : Device J → Prop
  | enqueueUpdate (target : Target) (fields : InsertionMap String J) (clockMs : ℤ)
      (hclock : ∀ edit ∈ s.edits, edit.clockMs < clockMs) :
      Step s { s with
        queue := s.queue.enqueueUpdate target fields clockMs
        edits := s.edits ++ [.update target fields clockMs] }
  | enqueueDelete (target : Target) (clockMs : ℤ)
      (hclock : ∀ edit ∈ s.edits, edit.clockMs < clockMs) :
      Step s { s with
        queue := s.queue.enqueueDelete target clockMs
        edits := s.edits ++ [.delete target clockMs (s.queue.sequence + 1)] }
  | push (limit : ℕ) (hidle : s.sent = []) :
      Step s { s with
        queue := s.queue.claim (s.queue.pending limit)
        sent := s.queue.pending limit
        posted := s.posted ++ s.queue.pending limit }
  | apply (c : SyncChange J) (hposted : c ∈ s.posted) :
      Step s { s with applied := s.applied ++ [.change c] }
  | remote (target : Target) (field : String) (write : Stamped ℤ J) :
      Step s { s with applied := s.applied ++ [.remote target field write] }
  | acknowledge (c : SyncChange J) (hsent : c ∈ s.sent) (happlied : .change c ∈ s.applied) :
      Step s { s with
        queue := s.queue.remove c.clientSeq
        acknowledged := s.acknowledged ++ [c] }
  | recordFailure (c : SyncChange J) (hsent : c ∈ s.sent) (error : String) :
      Step s { s with queue := s.queue.recordFailure c.clientSeq error }
  | reject (c : SyncChange J) (hsent : c ∈ s.sent) (error : String) :
      Step s { s with queue := s.queue.reject c.clientSeq error }
  | release : Step s { s with queue := s.queue.release s.sent, sent := [] }
  | restart : Step s { s with queue := s.queue.restart, sent := [] }

/-- The states that a device of a new account can come to. -/
def Reachable (s : Device J) : Prop := Relation.ReflTransGen Step fresh s

/-- The writes to a field of a row, in the order in which the server has applied them. -/
def writes (s : Device J) (target : Target) (field : String) : List (Stamped ℤ J) :=
  s.applied.filterMap (Applied.write target field)

/-- The field on the server: of the writes to it, the one with the greatest clock. -/
def register (s : Device J) (target : Target) (field : String) : Option (Stamped ℤ J) :=
  match s.writes target field with
  | [] => none
  | first :: rest => some (first.latest rest)

/-- A queued change has the write. -/
def Queued (s : Device J) (target : Target) (field : String) (w : Stamped ℤ J) : Prop :=
  ∃ c ∈ s.queue.changes, c.toTarget = target ∧ c.op = .update ∧ c.write field = some w

/-- The server has acknowledged a change that has the write. -/
def Acknowledged (s : Device J) (target : Target) (field : String) (w : Stamped ℤ J) : Prop :=
  ∃ c ∈ s.acknowledged, c.toTarget = target ∧ c.op = .update ∧ c.write field = some w

/-- The user has deleted the row after the write, and the deletion is queued or acknowledged. -/
def Deleted (s : Device J) (target : Target) (w : Stamped ℤ J) : Prop :=
  ∃ clockMs clientSeq, .delete target clockMs clientSeq ∈ s.edits ∧ w.stamp < clockMs ∧
    ∃ c, (c ∈ s.queue.changes ∨ c ∈ s.acknowledged) ∧ c.clientSeq = clientSeq ∧
      c.toTarget = target ∧ c.op = .delete

/-- The last edit of a field is queued, was dropped by a deletion, or was acknowledged; and no other
edit of the field has a greater clock. -/
structure Accounted (s : Device J) (target : Target) (field : String) (w : Stamped ℤ J) : Prop where
  somewhere : s.Queued target field w ∨ s.Deleted target w ∨ s.Acknowledged target field w
  greatest : ∀ edit ∈ s.edits, ∀ w', edit.write target field = some w' → w'.stamp ≤ w.stamp

/-- Another device has a write of the field that is later: its clock is greater, or is the same and
the server has applied it later. -/
def LaterElsewhere (s : Device J) (target : Target) (field : String) (w : Stamped ℤ J) : Prop :=
  ∃ later, .remote target field later ∈ s.applied ∧ s.register target field = some later ∧
    (w.stamp < later.stamp ∨ w.stamp = later.stamp ∧
      ∃ before after, s.writes target field = before ++ later :: after ∧ w ∈ before)

end Device

end PandaPay.Sync
