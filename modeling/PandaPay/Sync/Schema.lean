import PandaPay.Library.Checked
import PandaPay.Library.InsertionMap

/-!
# The tables of generic sync

The rows that devices edit, the log of their changes and what decides a conflict. A row is its
columns by name, of which only those that may be synced are ever written here. What PostgreSQL does
to convert a `jsonb` value to the type of a column and back is a parameter.

Not modelled: `archived_at` and `updated_at`, which are only ever written.

## Main definitions

* `Entity`, `Entity.fields`: what is synced
* `Conversions`: the conversions between `jsonb` values and columns
* `Db`: a state of the tables
* `Db.newestClocks`: the clocks of the newest change of a row
-/

namespace PandaPay.Sync

/-- The canonical text of a `uuid`. -/
abbrev Uuid := String

/-- The tables whose rows are synced by generic changes. -/
inductive Entity where
  | transactions
  | userCards
  | cardOverrides
  deriving DecidableEq

namespace Entity

/-- The name of the table. -/
def name : Entity → String
  | transactions => "transactions"
  | userCards => "user_cards"
  | cardOverrides => "card_overrides"

/-- The table of this name. -/
def ofName (name : String) : Option Entity :=
  [transactions, userCards, cardOverrides].find? fun e => e.name = name

/-- The columns that may be synced. -/
def fields : Entity → List String
  | transactions => ["user_card_id", "amount_inr", "occurred_at", "merchant_name", "merchant_vpa",
      "mcc", "category_id", "user_category_id", "rail", "instrument", "entry_kind", "note"]
  | userCards => ["nickname", "is_default", "is_archived", "sort_order", "credit_limit_inr",
      "statement_day", "due_day", "anniversary_on", "opened_on", "autopay_mode",
      "statement_day_source", "due_day_source"]
  | cardOverrides => ["user_card_id", "scope", "vpa", "merchant_name", "category_id",
      "reason_note", "is_enabled"]

theorem nodup_fields (e : Entity) : e.fields.Nodup := by
  cases e <;> decide

theorem eq_of_ofName {name : String} {e : Entity} (h : ofName name = some e) : e.name = name := by
  have hname := List.find?_some h
  exact of_decide_eq_true hname

theorem ofName_name (e : Entity) : ofName e.name = some e := by
  cases e <;> decide

end Entity

/-- `sync_op`. -/
inductive SyncOp where
  | insert
  | update
  | delete
  deriving DecidableEq

/-- A value of the type `numeric`. -/
inductive Numeric where
  | nan
  | infinity
  | negInfinity
  | value (q : ℚ)

/-- How `jsonb` values `J` are converted to values `V` of columns and back. A conversion that
raises is `none`. -/
structure Conversions (J V : Type) where
  /-- `'null'::jsonb`. -/
  null : J
  /-- `(document ->> key)::numeric`, of the value there. -/
  numeric : J → Option Numeric
  /-- `(document ->> key)::uuid`, of the value there. -/
  uuid : J → Option Uuid
  /-- The column of `jsonb_populate_record`. -/
  populate : Entity → String → J → Option V
  /-- The value of the column in `to_jsonb` of a row. -/
  toJsonb : V → J
  /-- A column of type `uuid`. -/
  uuidColumn : Option Uuid → V
  uuidOf : V → Option Uuid
  /-- The column `is_archived` of an archived card. -/
  archived : V

/-- A row of one of the tables. -/
structure Row (V : Type) where
  profileId : Uuid
  values : String → V

/-- A row of `change_log`. -/
structure ChangeLogRow (J : Type) where
  profileId : Uuid
  deviceId : Uuid
  entity : String
  entityId : Uuid
  op : SyncOp
  payload : InsertionMap String J
  fieldClocks : InsertionMap String ℤ
  clientSeq : ℤ

/-- A row of `sync_conflicts`. -/
structure ConflictRow (J : Type) where
  profileId : Uuid
  entity : String
  entityId : Uuid
  field : String
  localValue : J
  serverValue : J
  chosenValue : J
  deviceId : Uuid

/-- A row of `user_categories`. -/
structure UserCategoryRow where
  profileId : Uuid
  parentCategoryId : Option Uuid
  parentUserCategoryId : Option Uuid

/-- A state of the tables. -/
structure Db (J V : Type) where
  rows : InsertionMap (Entity × Uuid) (Row V)
  /-- `user_devices`: whose each device is. -/
  userDevices : InsertionMap Uuid Uuid
  userCategories : InsertionMap Uuid UserCategoryRow
  /-- In the order of `server_seq`. -/
  changeLog : List (ChangeLogRow J)
  syncConflicts : List (ConflictRow J)

/-- What is raised. -/
inductive Raised where
  | transactionDeleteRequiresDomainRoute
  | transactionStatusRequiresDomainRoute
  | fractionalPaise
  | creditLimitNotPositive
  | cardNotOwned
  | userCategoryNotOwned
  | conversionFailed
  | constraintViolation
  deriving DecidableEq

/-- A computation that can raise an exception. -/
abbrev Sql (α : Type) := Except Raised α

namespace Db

variable {J V : Type}

/-- The changes of a row that are in the log. -/
def changesOf (db : Db J V) (profile : Uuid) (entity : String) (id : Uuid) :
    List (ChangeLogRow J) :=
  db.changeLog.filter fun change =>
    change.profileId = profile ∧ change.entity = entity ∧ change.entityId = id

/-- The clocks of the newest change of a row. -/
def newestClocks (db : Db J V) (profile : Uuid) (entity : String) (id : Uuid) :
    InsertionMap String ℤ :=
  ((db.changesOf profile entity id).getLast?.map ChangeLogRow.fieldClocks).getD .empty

end Db

end PandaPay.Sync
