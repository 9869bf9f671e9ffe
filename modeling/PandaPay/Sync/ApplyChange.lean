import PandaPay.Sync.Schema

/-!
# Applying a change

`sync_apply_change_v2`, which merges a change of a row field by field: a field of the change wins
unless the newest change of the row in the log has a greater clock for it. The row is locked first,
so a call is one step.

## Main definitions

* `ChangeCall`: the arguments of a call
* `mergeField`, `mergeFields`: which fields of a change win
* `Db.validateTransactionUserCategory`: the trigger on transactions
* `Db.syncApplyChangeV2`: `sync_apply_change_v2`
* `Db.apply`, `Db.run`: calls, each one step
-/

namespace PandaPay.Sync

variable {J V : Type}

/-- What `(field_clocks ->> field)::bigint` makes of the clock of a field. -/
inductive Clock where
  | null
  | bigint (n : ℤ)
  | malformed
  deriving DecidableEq

/-- The arguments of `sync_apply_change_v2`, with the session. A document that is not an object is
`none`. -/
structure ChangeCall (J : Type) where
  caller : Option Uuid
  profile : Option Uuid
  device : Option Uuid
  entity : String
  entityId : Uuid
  op : SyncOp
  payload : Option (InsertionMap String J)
  fieldClocks : Option (InsertionMap String Clock)
  clientSeq : ℤ

/-- What `sync_apply_change_v2` returns. -/
structure Outcome where
  applied : Bool
  conflicts : ℕ
  reason : Option String
  deriving DecidableEq

/-- The outcome of a change that is not applied. -/
def Outcome.refused (reason : String) : Outcome := ⟨false, 0, some reason⟩

/-- A change of a row that is there: what the merge works on. -/
structure Change (J : Type) where
  profile : Uuid
  device : Uuid
  entity : Entity
  entityId : Uuid
  payload : InsertionMap String J
  fieldClocks : InsertionMap String Clock

/-- A field of a change that wins, with its clock. -/
structure Won (J : Type) where
  field : String
  value : J
  clock : ℤ

/-! ### The merge -/

/-- `COALESCE((p_field_clocks ->> field)::bigint, 0)`. -/
def clockOf (clocks : InsertionMap String Clock) (field : String) : Sql ℤ :=
  match clocks.get? field with
  | none => return 0
  | some .null => return 0
  | some (.bigint n) => return n
  | some .malformed => .error .conversionFailed

/-- The clock a field has, where none is 0. -/
def clockIn (clocks : InsertionMap String ℤ) (field : String) : ℤ := (clocks.get? field).getD 0

variable (pg : Conversions J V)

/-- The amount has a part of less than a paisa, or is no number. -/
def Numeric.isFractionalPaise : Numeric → Bool
  | .value q => (q * 100).den ≠ 1
  | _ => true

def Numeric.isPositive : Numeric → Bool
  | .value q => 0 < q
  | .infinity => true
  | _ => false

variable [DecidableEq J]

/-- The check on a financial amount. -/
def checkAmount (entity : Entity) (field : String) (value : J) : Sql PUnit :=
  if (entity = .transactions ∧ field = "amount_inr" ∨
      entity = .userCards ∧ field = "credit_limit_inr") ∧ value ≠ pg.null then
    match pg.numeric value with
    | none => .error .conversionFailed
    | some n => do
      failIf (n.isFractionalPaise = true) .fractionalPaise
      failIf (entity = .userCards ∧ n.isPositive = false) .creditLimitNotPositive
  else return ⟨⟩

/-- One field of a change: it wins or loses, and may leave a conflict behind. -/
def mergeField (change : Change J) (clocks : InsertionMap String ℤ) (row : Row V) (field : String) :
    Sql (Option (Won J) × Option (ConflictRow J)) :=
  match change.payload.get? field with
  | none => return (none, none)
  | some value => do
    let incoming ← clockOf change.fieldClocks field
    let existing := clockIn clocks field
    let server := pg.toJsonb (row.values field)
    let conflict := fun chosen => (⟨change.profile, change.entity.name, change.entityId, field,
      value, server, chosen, change.device⟩ : ConflictRow J)
    if incoming < existing then return (none, some (conflict server))
    else do
      checkAmount pg change.entity field value
      if incoming = existing ∧ 0 < existing ∧ server ≠ value then
        return (some ⟨field, value, incoming⟩, some (conflict value))
      else return (some ⟨field, value, incoming⟩, none)

/-- The fields of a change that win, with the conflicts. -/
def mergeFields (change : Change J) (clocks : InsertionMap String ℤ) (row : Row V) :
    List String → Sql (List (Won J) × List (ConflictRow J))
  | [] => return ([], [])
  | field :: fields => do
    let (won, conflict) ← mergeField pg change clocks row field
    let (wons, conflicts) ← mergeFields change clocks row fields
    return (won.toList ++ wons, conflict.toList ++ conflicts)

/-- The columns after `UPDATE .. SET` of the fields that have won. -/
def populateAll (entity : Entity) : List (Won J) → (String → V) → Sql (String → V)
  | [], values => return values
  | won :: wons, values =>
    match pg.populate entity won.field won.value with
    | none => .error .conversionFailed
    | some v => populateAll entity wons (Function.update values won.field v)

/-- The clocks with those of the fields that have won. -/
def mergeClocks (clocks : InsertionMap String ℤ) (wons : List (Won J)) : InsertionMap String ℤ :=
  wons.foldl (fun clocks won => clocks.set won.field won.clock) clocks

namespace Db

/-! ### The update of a row -/

/-- The trigger `trg_transactions_user_category`: the category follows a private category that has a
parent. -/
def validateTransactionUserCategory (db : Db J V) (row : Row V) : Sql (Row V) :=
  let categorized := fun category => { row with
    values := Function.update row.values "category_id" (pg.uuidColumn category) }
  match pg.uuidOf (row.values "user_category_id") with
  | none => .ok row
  | some id =>
    match (db.userCategories.get? id).filter (·.profileId = row.profileId) with
    | none => .error .userCategoryNotOwned
    | some category =>
      if category.parentCategoryId.isSome then .ok (categorized category.parentCategoryId)
      else if category.parentUserCategoryId.isSome then .ok (categorized none)
      else .ok row

/-- What the triggers make of the row that is written. -/
def beforeUpdate (db : Db J V) (entity : Entity) (wons : List (Won J)) (row : Row V) :
    Sql (Row V) :=
  if entity = .transactions ∧
      wons.any (fun won => won.field = "category_id" || won.field = "user_category_id") = true then
    db.validateTransactionUserCategory pg row
  else return row

/-- The card that an override is moved to belongs to the profile. -/
def checkOverrideCard (db : Db J V) (change : Change J) (wons : List (Won J)) : Sql PUnit :=
  match wons.find? fun won => change.entity = .cardOverrides ∧ won.field = "user_card_id" with
  | none => return ⟨⟩
  | some won =>
    if won.value = pg.null then return ⟨⟩
    else
      match pg.uuid won.value with
      | none => .error .conversionFailed
      | some card => failIf (((db.rows.get? (.userCards, card)).any fun row =>
          row.profileId = change.profile) = false) .cardNotOwned

/-- The row with the fields that have won; `admits` are the constraints on the tables. -/
def updatedRow (db : Db J V) (admits : Db J V → Entity → Uuid → Row V → Bool) (change : Change J)
    (row : Row V) (wons : List (Won J)) : Sql (Row V) := do
  db.checkOverrideCard pg change wons
  let values ← populateAll pg change.entity wons row.values
  let row ← db.beforeUpdate pg change.entity wons ⟨row.profileId, values⟩
  failIf (admits db change.entity change.entityId row = false) .constraintViolation
  return row

/-- The log with one more change. -/
def logChange (db : Db J V) (change : Change J) (op : SyncOp) (payload : InsertionMap String J)
    (clocks : InsertionMap String ℤ) (clientSeq : ℤ) : Db J V :=
  { db with changeLog := db.changeLog ++
    [⟨change.profile, change.device, change.entity.name, change.entityId, op, payload, clocks,
      clientSeq⟩] }

/-! ### The change -/

/-- The part of a deletion that has found its row: a card is archived. -/
def applyDelete (db : Db J V) (change : Change J) (row : Row V) (clientSeq : ℤ) : Db J V :=
  let key := (change.entity, change.entityId)
  let rows := if change.entity = .userCards then
      db.rows.set key { row with values := Function.update row.values "is_archived" pg.archived }
    else db.rows.erase key
  { db with rows := rows }.logChange change .delete .empty .empty clientSeq

/-- The part of an update that has found its row. -/
def applyUpdate (db : Db J V) (admits : Db J V → Entity → Uuid → Row V → Bool) (change : Change J)
    (row : Row V) (clientSeq : ℤ) : Sql (Db J V × Outcome) := do
  let clocks := db.newestClocks change.profile change.entity.name change.entityId
  let (wons, conflicts) ← mergeFields pg change clocks row change.entity.fields
  let outcome := ⟨true, conflicts.length, none⟩
  let db := { db with syncConflicts := db.syncConflicts ++ conflicts }
  if wons.isEmpty then return (db.logChange change .update change.payload clocks clientSeq, outcome)
  else do
    let row ← db.updatedRow pg admits change row wons
    let db := { db with rows := db.rows.set (change.entity, change.entityId) row }
    return (db.logChange change .update change.payload (mergeClocks clocks wons) clientSeq, outcome)

/-- The checks of the session and of the documents, in their order. -/
def checkCall (db : Db J V) (c : ChangeCall J) : Except String (Change J) :=
  match Entity.ofName c.entity with
  | none => .error "unknown_entity"
  | some entity =>
    match c.profile, c.device with
    | some profile, some device =>
      if c.caller ≠ some profile ∨ db.userDevices.get? device ≠ some profile then
        .error "not_found"
      else
        match c.payload, c.fieldClocks with
        | some payload, some fieldClocks =>
          .ok ⟨profile, device, entity, c.entityId, payload, fieldClocks⟩
        | _, _ => .error "malformed"
    | _, _ => .error "not_found"

/-- The row a change is about. -/
def rowOf (db : Db J V) (change : Change J) : Option (Row V) :=
  (db.rows.get? (change.entity, change.entityId)).filter (·.profileId = change.profile)

/-- `sync_apply_change_v2`. -/
def syncApplyChangeV2 (db : Db J V) (admits : Db J V → Entity → Uuid → Row V → Bool)
    (c : ChangeCall J) : Sql (Db J V × Outcome) :=
  match db.checkCall c with
  | .error reason => return (db, .refused reason)
  | .ok change => do
    failIf (change.entity = .transactions ∧ c.op = .delete) .transactionDeleteRequiresDomainRoute
    failIf (change.entity = .transactions ∧ "status" ∈ change.payload.keys)
      .transactionStatusRequiresDomainRoute
    match db.rowOf change with
    | none => return (db, .refused "not_found")
    | some row =>
      if c.op = .delete then
        return (db.applyDelete pg change row c.clientSeq, ⟨true, 0, none⟩)
      else db.applyUpdate pg admits change row c.clientSeq

/-! ### Runs -/

variable (admits : Db J V → Entity → Uuid → Row V → Bool)

/-- The state after a call; an exception leaves it as it was. -/
def apply (db : Db J V) (c : ChangeCall J) : Db J V :=
  match db.syncApplyChangeV2 pg admits c with
  | .ok (db', _) => db'
  | .error _ => db

def run (db : Db J V) (calls : List (ChangeCall J)) : Db J V := calls.foldl (apply pg admits) db

end Db

end PandaPay.Sync
