import PandaPay.Library.Reader
import PandaPay.Sync.ApplyChange

/-!
# Pulling changes

`sync_pull` and `sync_ack`, which hand a device the changes of the others, beside calls of
`sync_apply_change_v2` that run at the same time. A call locks its row and works on what is
committed; it draws a `server_seq` when it inserts its change, and others see the change from its
commit on. Numbers of calls that are rolled back are lost.

Not modelled: `last_pushed_at` and `last_pulled_at`. Each profile of a device is there, as
`user_devices` refers to it.

## Main definitions

* `Server`: the committed tables and the calls that are to commit
* `Server.call`, `Server.commit`, `Server.rollback`: the two halves of a call
* `Server.syncPull`, `Server.syncAck`: `sync_pull` and `sync_ack`
* `System`, `System.run`: a server with the devices that read from it
-/

namespace PandaPay.Sync

variable {J V : Type}

/-- A row of `change_log` under its `server_seq`. -/
structure Logged (J : Type) where
  serverSeq : ℤ
  change : ChangeLogRow J

/-- A row of `sync_cursors`. -/
structure SyncCursor where
  profileId : Uuid
  lastServerSeq : ℤ

/-- A call that has inserted its change and has not committed: what it leaves in the row it has
locked, and what it adds. -/
structure OpenCall (J V : Type) where
  row : Entity × Uuid
  written : Option (Row V)
  conflicts : List (ConflictRow J)
  logged : Logged J

/-- The committed tables, the next `server_seq` and the calls that are to commit. -/
structure Server (J V : Type) where
  rows : InsertionMap (Entity × Uuid) (Row V)
  userDevices : InsertionMap Uuid Uuid
  userCategories : InsertionMap Uuid UserCategoryRow
  changeLog : List (Logged J)
  syncConflicts : List (ConflictRow J)
  syncCursors : InsertionMap Uuid SyncCursor
  nextServerSeq : ℤ
  openCalls : List (OpenCall J V)

/-- What `sync_pull` and `sync_ack` raise. -/
inductive SyncRaised where
  | accessDenied
  | invalidAcknowledgement
  deriving DecidableEq

namespace Server

/-- What is committed, as a call sees it. -/
def db (s : Server J V) : Db J V where
  rows := s.rows
  userDevices := s.userDevices
  userCategories := s.userCategories
  changeLog := (sortBy Logged.serverSeq s.changeLog).map Logged.change
  syncConflicts := s.syncConflicts

/-! ### Calls -/

/-- An open call has locked the row that the call is about. -/
def isLocked (s : Server J V) (c : ChangeCall J) : Bool :=
  s.openCalls.any fun o => o.row.1.name = c.entity && o.row.2 = c.entityId

/-- What a call has done that started from `before` and left `after`. -/
def openCall (s : Server J V) (after : Db J V) (row : Entity × Uuid) (change : ChangeLogRow J) :
    OpenCall J V where
  row := row
  written := after.rows.get? row
  conflicts := after.syncConflicts.drop s.syncConflicts.length
  logged := ⟨s.nextServerSeq, change⟩

/-- The rows with what a call leaves in one of them. -/
def writeRow (rows : InsertionMap (Entity × Uuid) (Row V)) (key : Entity × Uuid)
    (written : Option (Row V)) : InsertionMap (Entity × Uuid) (Row V) :=
  match written with
  | none => rows.erase key
  | some row => rows.set key row

section Call

variable (pg : Conversions J V) [DecidableEq J] (admits : Db J V → Entity → Uuid → Row V → Bool)

/-- A call up to the end of `sync_apply_change_v2`; it waits while its row is locked. -/
def call (s : Server J V) (c : ChangeCall J) : Server J V :=
  if s.isLocked c then s
  else
    match s.db.syncApplyChangeV2 pg admits c with
    | .error _ => s
    | .ok (after, _) =>
      match Entity.ofName c.entity, after.changeLog.drop s.changeLog.length with
      | some entity, change :: _ =>
        { s with
          nextServerSeq := s.nextServerSeq + 1
          openCalls := s.openCalls ++ [s.openCall after (entity, c.entityId) change] }
      | _, _ => s

end Call

/-- The open calls but the one with this number. -/
def without (s : Server J V) (serverSeq : ℤ) : List (OpenCall J V) :=
  s.openCalls.filter fun o => o.logged.serverSeq ≠ serverSeq

/-- The call with this number commits. -/
def commit (s : Server J V) (serverSeq : ℤ) : Server J V :=
  match s.openCalls.find? fun o => o.logged.serverSeq = serverSeq with
  | none => s
  | some o =>
    { s with
      rows := writeRow s.rows o.row o.written
      syncConflicts := s.syncConflicts ++ o.conflicts
      changeLog := s.changeLog ++ [o.logged]
      openCalls := s.without serverSeq }

/-- The call with this number is rolled back. -/
def rollback (s : Server J V) (serverSeq : ℤ) : Server J V :=
  { s with openCalls := s.without serverSeq }

/-! ### Pulls -/

/-- The checks that `sync_pull` and `sync_ack` share. -/
def checkAccess (s : Server J V) (caller profile device : Option Uuid) :
    Except SyncRaised (Uuid × Uuid) :=
  match profile, device with
  | some profile, some device =>
    if caller ≠ some profile ∨ s.userDevices.get? device ≠ some profile then .error .accessDenied
    else return (profile, device)
  | _, _ => .error .accessDenied

/-- The committed changes of a profile by other devices. -/
def changesFor (s : Server J V) (profile device : Uuid) : List (Logged J) :=
  s.changeLog.filter fun l => l.change.profileId = profile ∧ l.change.deviceId ≠ device

/-- `least(greatest(p_limit, 1), 1000)`. -/
def pullLimit (limit : ℤ) : ℕ := (min (max limit 1) 1000).toNat

/-- `sync_pull`. -/
def syncPull (s : Server J V) (caller profile device : Option Uuid) (since limit : ℤ) :
    Except SyncRaised (List (Logged J)) := do
  let (profile, device) ← s.checkAccess caller profile device
  return page Logged.serverSeq (pullLimit limit) since (s.changesFor profile device)

/-- The server with this cursor of a device. -/
def withCursor (s : Server J V) (device : Uuid) (cursor : SyncCursor) : Server J V :=
  { s with syncCursors := s.syncCursors.set device cursor }

/-- `sync_ack`. -/
def syncAck (s : Server J V) (caller profile device : Option Uuid) (serverSeq : ℤ) :
    Except SyncRaised (Server J V) := do
  let (profile, device) ← s.checkAccess caller profile device
  failIf (serverSeq < 0) .invalidAcknowledgement
  match s.syncCursors.get? device with
  | none => return s.withCursor device ⟨profile, serverSeq⟩
  | some cursor => do
    failIf (cursor.profileId ≠ profile) .accessDenied
    return s.withCursor device ⟨cursor.profileId, max cursor.lastServerSeq serverSeq⟩

/-- How far a device has acknowledged, from 0 on. -/
def cursorOf (s : Server J V) (device : Uuid) : ℤ :=
  ((s.syncCursors.get? device).map SyncCursor.lastServerSeq).getD 0

end Server

/-! ### Devices -/

/-- What a device was given, and the `latestServerSeq` of its last pull. -/
structure Inbox (J : Type) where
  received : List (Logged J)
  latestServerSeq : ℤ

/-- A server with the devices that read from it. -/
structure System (J V : Type) where
  server : Server J V
  inboxes : Uuid → Inbox J

/-- What can happen. -/
inductive Action (J : Type) where
  | call (c : ChangeCall J)
  | commit (serverSeq : ℤ)
  | rollback (serverSeq : ℤ)
  | pull (caller profile : Option Uuid) (device : Uuid) (limit : ℤ)
  | ack (caller profile : Option Uuid) (device : Uuid)

namespace System

/-- A device is given a batch, read after `since`. -/
def receive (s : System J V) (device : Uuid) (since : ℤ) (batch : List (Logged J)) : System J V :=
  let inbox : Inbox J :=
    ⟨(s.inboxes device).received ++ batch, lastKey Logged.serverSeq since batch⟩
  { s with inboxes := Function.update s.inboxes device inbox }

variable (pg : Conversions J V) [DecidableEq J] (admits : Db J V → Entity → Uuid → Row V → Bool)

/-- One step; a pull reads after the cursor of its device, and an acknowledgement is of the last
change that the device was given. -/
def step (s : System J V) : Action J → System J V
  | .call c => { s with server := s.server.call pg admits c }
  | .commit serverSeq => { s with server := s.server.commit serverSeq }
  | .rollback serverSeq => { s with server := s.server.rollback serverSeq }
  | .pull caller profile device limit =>
    let since := s.server.cursorOf device
    match s.server.syncPull caller profile (some device) since limit with
    | .ok batch => s.receive device since batch
    | .error _ => s
  | .ack caller profile device =>
    match s.server.syncAck caller profile (some device) (s.inboxes device).latestServerSeq with
    | .ok server => { s with server := server }
    | .error _ => s

def run (s : System J V) (actions : List (Action J)) : System J V := actions.foldl (step pg admits) s

end System

end PandaPay.Sync
