import PandaPay.ForeignPayments.Exchange
import PandaPay.Library.Checked

/-!
# Foreign payments

The rows of `foreign_payments` and `foreign_payment_sources` of one profile, with the checks of their
tables, and the rest of its data, which the calls only read. Times are in microseconds; the driver
returns a column `timestamptz` as a `Date`, which `Date.parse` reads to the second.

Not modelled: the audit events, `last_refreshed_at`, `created_at` and `updated_at`; and the trigger
`sync_foreign_payment_ledger_state`, as the ledger is edited by other calls.

## Main definitions

* `Payment`: a row, whose `Details` are the columns of `EDITABLE`
* `Ledger`: the cards, categories and transactions of the profile
* `Db`: the rows of both tables
* `Db.updatePayment`, `Db.insertPayment`: the two statements that write a payment
-/

namespace PandaPay.ForeignPayments

/-! ### Rows -/

inductive Status where
  | awaitingAmount
  | awaitingRate
  | estimated
  | confirmed
  | ignored
  deriving DecidableEq

inductive Direction where
  | spend
  | refund
  deriving DecidableEq

inductive Instrument where
  | creditCard
  | debitCard
  | upiBank
  | wallet
  | cash
  | other
  deriving DecidableEq

inductive ConfirmationSource where
  | user
  | sms
  | statement
  deriving DecidableEq

/-- A reference rate: `rate`, `rate_date` and `rate_source`. -/
structure ReferenceRate where
  rate : DecimalParts
  rateDate : JsString
  rateSource : JsString
  deriving DecidableEq

/-- The columns of `EDITABLE`. -/
structure Details where
  originalCurrency : Option JsString
  /-- In ten-thousandths. -/
  originalAmount : Option ℕ
  occurredAt : ℤ
  merchantName : Option JsString
  cardLast4 : Option JsString
  accountLast4 : Option JsString
  userCardId : Option JsString
  categoryId : Option JsString
  userCategoryId : Option JsString
  categoryName : Option JsString
  direction : Direction
  reference : Option JsString
  refundOfId : Option JsString
  instrument : Option Instrument
  deriving DecidableEq

/-- What `valuationFor` decides. -/
structure Valuation where
  valuationStatus : Status
  /-- In paise. -/
  estimatedInr : Option ℕ
  referenceRate : Option ReferenceRate
  deriving DecidableEq

/-- A row of `foreign_payments`. -/
structure Payment extends Details, Valuation where
  id : JsString
  sourceKey : JsString
  /-- In paise. -/
  billedInr : Option ℕ
  transactionId : Option JsString
  confirmationSource : Option ConfirmationSource
  userModified : Bool
  revision : ℕ
  deriving DecidableEq

/-! ### The ledger -/

structure Card where
  id : JsString
  last4 : Option JsString
  cardType : Option JsString

structure Category where
  id : JsString
  name : JsString

inductive EntryKind where
  | spend
  | income
  | investment
  | transfer
  | refund
  deriving DecidableEq

/-- A transaction with what the query of `transactionCandidates` joins to it. -/
structure Transaction where
  id : JsString
  active : Bool
  /-- What `inrAmount` reads of `amount_inr`. -/
  amountInr : Option ℕ
  entryKind : EntryKind
  userCardId : Option JsString
  cardLast4 : Option JsString
  sourceAccountLast4 : Option JsString
  /-- What `Date.parse` reads of `occurred_at`, in milliseconds. -/
  occurredAt : ℤ
  source : JsString
  sourceKey : Option JsString
  /-- The source keys of its observations. -/
  sourceKeys : List JsString
  /-- The bank references of its observations, in upper case without hyphens. -/
  bankReferences : List JsString
  deriving DecidableEq

/-- What a call reads of the profile. -/
structure Ledger where
  cards : List Card
  spendCategories : List Category
  /-- Those that are not archived. -/
  userCategories : List Category
  /-- The latest first. -/
  transactions : List Transaction

/-- A transaction of the profile by its id. -/
def Ledger.transaction? (ledger : Ledger) (id : JsString) : Option Transaction :=
  ledger.transactions.find? fun t => t.id = id

/-! ### Errors -/

/-- How a call fails. -/
inductive Raised where
  /-- A `ForeignPaymentError`. -/
  | failed (status : ℕ) (code : String)
  /-- PostgreSQL refuses a statement. -/
  | database (constraint : String)
  /-- Any other exception. -/
  | thrown (message : String)
  deriving DecidableEq

/-- `fail(code)`. -/
def Raised.bad (code : String) : Raised := .failed 400 code

/-! ### Tables -/

/-- The payments by their id, and the ids of payments by the source keys that are aliases of them. -/
structure Db where
  payments : InsertionMap JsString Payment
  sources : InsertionMap JsString JsString

namespace Db

def empty : Db := ⟨.empty, .empty⟩

/-- The first payment with a property. -/
def find? (db : Db) (p : Payment → Bool) : Option Payment := db.payments.values.find? p

/-- `WHERE transaction_id=$2`. -/
def linkedTo (db : Db) (transactionId : JsString) : Option Payment :=
  db.find? fun p => p.transactionId = some transactionId

/-- `sourcePayment(client, userId, key)`. -/
def sourcePayment (db : Db) (key : JsString) : Option Payment :=
  match db.sources.get? key with
  | some id => db.payments.get? id
  | none => db.find? fun p => p.sourceKey = key

/-- The grammar `HASH`. -/
def isHash (key : JsString) : Bool := PortableBackup.isSha256 key

/-- `addSourceAlias(client, userId, id, key)`. -/
def addSourceAlias (db : Db) (id key : JsString) : Db :=
  if isHash key then { db with sources := db.sources.set key id } else db

/-- A `uuid` as its column prints it. -/
def toUuid (id : Option JsString) : Option JsString := id.map (·.map PortableBackup.lowerUnit)

/-- The row as its table stores it. -/
def stored (p : Payment) : Payment := { p with
  userCardId := toUuid p.userCardId
  categoryId := toUuid p.categoryId
  userCategoryId := toUuid p.userCategoryId
  refundOfId := toUuid p.refundOfId }

/-- The constraints of `foreign_payments` that a row of these types can break. -/
def checkRow (db : Db) (ledger : Ledger) (row : Payment) : Except Raised Unit := do
  failIf (row.instrument = none) (.database "instrument")
  failIf (row.valuationStatus = .estimated ∧ (row.originalAmount = none ∨
    row.originalCurrency = none ∨ row.estimatedInr = none ∨ row.referenceRate = none))
    (.database "estimated")
  failIf (row.valuationStatus = .confirmed ∧ (row.billedInr = none ∨ row.transactionId = none ∨
    row.confirmationSource = none)) (.database "confirmed")
  failIf (db.payments.values.any fun p => p.id ≠ row.id ∧ row.transactionId.isSome ∧
    p.transactionId = row.transactionId) (.database "foreign_payments_confirmed_transaction")
  failIf (row.transactionId.any fun id => (ledger.transaction? id).isNone) (.database "transaction_id")

/-- `updatePayment(client, userId, before, patch, kind)`. -/
def updatePayment (db : Db) (ledger : Ledger) (before : Payment) (patch : Payment → Payment) :
    Except Raised (Payment × Db) :=
  match db.payments.get? before.id with
  | none => .error (.thrown "TypeError")
  | some row => do
    let row := stored { patch row with revision := row.revision + 1 }
    db.checkRow ledger row
    return (row, { db with payments := db.payments.set before.id row })

/-- `INSERT INTO foreign_payments`, with the keys of the table. -/
def insertPayment (db : Db) (ledger : Ledger) (row : Payment) : Except Raised (Payment × Db) := do
  let row := stored row
  failIf ((db.payments.get? row.id).isSome) (.database "foreign_payments_pkey")
  failIf ((db.find? fun p => p.sourceKey = row.sourceKey).isSome) (.database "source_key")
  db.checkRow ledger row
  return (row, { db with payments := db.payments.set row.id row })

end Db

end PandaPay.ForeignPayments
