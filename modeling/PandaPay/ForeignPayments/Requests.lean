import PandaPay.ForeignPayments.Schema

/-!
# Requests about foreign payments

A request is an object with typed fields. Times and words are read already: a time is an instant or
malformed, a word one of its enumeration or another one. Fields of a type that is not theirs are
refused by the same checks as malformed texts.

## Main definitions

* `Body`: the object of a request
* `validateInput`: the first field that is not accepted
* `normalizeInput`: the columns that a request sets
* `valuationFor`: the reference estimate of a payment
-/

namespace PandaPay.ForeignPayments

open PortableBackup (jsTrim lowerUnit)

/-- A field of an object. -/
inductive Field (α : Type) where
  | absent
  | null
  | value (a : α)
  deriving DecidableEq

namespace Field

variable {α β : Type}

/-- The value, if it is there and not `null`. -/
def get? : Field α → Option α
  | value a => some a
  | absent | null => none

/-- The column of a row as a field. -/
def ofColumn : Option α → Field α
  | some a => value a
  | none => null

def map (f : α → β) : Field α → Field β
  | absent => absent
  | null => null
  | value a => value (f a)

/-- The field in the place of a column. -/
def orElse : Field α → Option α → Option α
  | absent, a => a
  | null, _ => none
  | value a, _ => some a

/-- The field, left out when it is `null`. -/
def nonNull : Field α → Field α
  | null => absent
  | f => f

/-- The field is there. -/
def isPresent : Field α → Bool
  | absent => false
  | null | value _ => true

/-- The field is there and not a value with the property. -/
def isPresentWithout (p : α → Bool) : Field α → Bool
  | absent => false
  | null => true
  | value a => !p a

end Field

/-- The object of a request. -/
structure Body where
  sourceKey : Field JsString := .absent
  /-- A malformed time is `value none`. -/
  occurredAt : Field (Option ℤ) := .absent
  originalCurrency : Field JsString := .absent
  originalAmount : Field JsString := .absent
  merchantName : Field JsString := .absent
  cardLast4 : Field JsString := .absent
  accountLast4 : Field JsString := .absent
  userCardId : Field JsString := .absent
  categoryId : Field JsString := .absent
  userCategoryId : Field JsString := .absent
  categoryName : Field JsString := .absent
  /-- Any other word is `value none`, here and below. -/
  direction : Field (Option Direction) := .absent
  reference : Field JsString := .absent
  refundOfId : Field JsString := .absent
  instrument : Field (Option Instrument) := .absent
  valuationStatus : Field (Option Status) := .absent
  transactionId : Field JsString := .absent
  expectedRevision : Field ℤ := .absent
  billedInr : Field JsString := .absent
  confirmationSource : Field (Option ConfirmationSource) := .absent
  /-- The keys that are not fields of a payment. -/
  otherKeys : List String := []

/-! ### Grammars -/

/-- The grammar `UUID`. -/
def isUuid (s : JsString) : Bool := SharedExpenses.isUuid (s.map lowerUnit)

/-- The grammar `^\d{4}$`. -/
def isLast4 (s : JsString) : Bool := s.length = 4 && s.all isDigit

/-- The grammar `^[A-Za-z0-9-]{6,40}$`. -/
def isReference (s : JsString) : Bool :=
  6 ≤ s.length && s.length ≤ 40 && s.all fun c => SharedExpenses.isAlphanumeric c || c.val = 45

/-- A name is more than white space and at most `max` code units long. -/
def isName (max : ℕ) (s : JsString) : Bool := jsTrim s ≠ [] && s.length ≤ max

/-- `CURRENCIES.has(currency)` of a foreign currency. -/
def isForeignCurrency (currency : JsString) : Bool :=
  (currencyPrecision currency).isSome && currency ≠ js "INR"

/-- The statuses that a request may set. -/
def isSettable : Option Status → Bool
  | some .ignored | some .awaitingAmount => true
  | _ => false

/-- The keys of a message, which stays on the device. -/
def rawKeys : List String := ["body", "sms_body", "raw_sms", "sender", "raw_body"]

/-- `validateInput(body, { partial })`. -/
def validateInput (body : Body) (patching : Bool) : Option String :=
  let checks : List (Bool × String) := [
    (!patching && !(body.sourceKey.get?.any Db.isHash), "invalid_source_key"),
    (!patching && !(body.occurredAt.get?.any Option.isSome), "invalid_occurred_at"),
    (body.occurredAt.isPresentWithout Option.isSome, "invalid_occurred_at"),
    (body.originalCurrency.get?.any fun c => !isForeignCurrency c, "invalid_original_currency"),
    (body.originalAmount.get?.any fun a => (originalAmount a body.originalCurrency.get?).isNone,
      "invalid_original_amount"),
    (body.userCardId.get?.any fun id => !isUuid id, "invalid_user_card_id"),
    (body.categoryId.get?.any fun id => !isUuid id, "invalid_category_id"),
    (body.userCategoryId.get?.any fun id => !isUuid id, "invalid_user_category_id"),
    (body.transactionId.get?.any fun id => !isUuid id, "invalid_transaction_id"),
    (body.refundOfId.get?.any fun id => !isUuid id, "invalid_refund_of_id"),
    (body.cardLast4.get?.any fun s => !isLast4 s, "invalid_card_last4"),
    (body.accountLast4.get?.any fun s => !isLast4 s, "invalid_account_last4"),
    (body.merchantName.get?.any fun s => !isName 200 s, "invalid_merchant_name"),
    (body.categoryName.get?.any fun s => !isName 100 s, "invalid_category_name"),
    (body.reference.get?.any fun s => !isReference s, "invalid_reference"),
    (body.direction.isPresentWithout Option.isSome, "invalid_direction"),
    (body.instrument.get?.any Option.isNone, "invalid_instrument"),
    (body.valuationStatus.isPresentWithout isSettable, "status_is_server_managed"),
    (body.expectedRevision.isPresentWithout fun n => 1 ≤ n ∧ n ≤ 2 ^ 53 - 1,
      "invalid_expected_revision"),
    (body.billedInr.get?.any fun a => (inrAmount a).isNone, "invalid_billed_inr"),
    (body.confirmationSource.get?.any Option.isNone, "invalid_confirmation_source"),
    (rawKeys.any fun key => body.otherKeys.contains key, "raw_sms_not_accepted")]
  (checks.find? (·.1)).map (·.2)

/-! ### Columns -/

/-- A code unit with an ASCII letter in upper case, for `toUpperCase` of a reference. -/
def upperUnit (c : CodeUnit) : CodeUnit :=
  if 97 ≤ c.val ∧ c.val ≤ 122 then Fin.ofNat _ (c.val - 32) else c

/-- What `normalizeInput` leaves of an object. -/
structure Edits where
  originalCurrency : Field JsString
  originalAmount : Field ℕ
  occurredAt : Field ℤ
  merchantName : Field JsString
  cardLast4 : Field JsString
  accountLast4 : Field JsString
  userCardId : Field JsString
  categoryId : Field JsString
  userCategoryId : Field JsString
  categoryName : Field JsString
  direction : Field Direction
  reference : Field JsString
  refundOfId : Field JsString
  instrument : Field Instrument

/-- A field whose reading may fail, which it does not after `validateInput`. -/
def Field.read {α β : Type} (f : α → Option β) : Field α → Field β
  | absent => absent
  | null => null
  | value a => ofColumn (f a)

/-- `normalizeInput(body)`. -/
def normalizeInput (body : Body) : Edits where
  originalCurrency := body.originalCurrency.map jsTrim
  originalAmount := body.originalAmount.read fun a => originalAmount a body.originalCurrency.get?
  occurredAt := body.occurredAt.read id
  merchantName := body.merchantName.map jsTrim
  cardLast4 := body.cardLast4.map jsTrim
  accountLast4 := body.accountLast4.map jsTrim
  userCardId := body.userCardId.map jsTrim
  categoryId := body.categoryId.map jsTrim
  userCategoryId := body.userCategoryId.map jsTrim
  categoryName := body.categoryName.map jsTrim
  direction := body.direction.read id
  reference := body.reference.map fun s => (jsTrim s).map upperUnit
  refundOfId := body.refundOfId.map jsTrim
  instrument := body.instrument.read id

/-- `{ ...before, ...edits }`. -/
def Edits.onto (e : Edits) (before : Details) : Details where
  originalCurrency := e.originalCurrency.orElse before.originalCurrency
  originalAmount := e.originalAmount.orElse before.originalAmount
  occurredAt := (e.occurredAt.get?).getD before.occurredAt
  merchantName := e.merchantName.orElse before.merchantName
  cardLast4 := e.cardLast4.orElse before.cardLast4
  accountLast4 := e.accountLast4.orElse before.accountLast4
  userCardId := e.userCardId.orElse before.userCardId
  categoryId := e.categoryId.orElse before.categoryId
  userCategoryId := e.userCategoryId.orElse before.userCategoryId
  categoryName := e.categoryName.orElse before.categoryName
  direction := (e.direction.get?).getD before.direction
  reference := e.reference.orElse before.reference
  refundOfId := e.refundOfId.orElse before.refundOfId
  instrument := e.instrument.orElse before.instrument

/-- The fields of `edits` that are not `null`. -/
def Edits.withoutNull (e : Edits) : Edits :=
  { e with
    originalCurrency := e.originalCurrency.nonNull
    originalAmount := e.originalAmount.nonNull
    merchantName := e.merchantName.nonNull
    cardLast4 := e.cardLast4.nonNull
    accountLast4 := e.accountLast4.nonNull
    userCardId := e.userCardId.nonNull
    categoryId := e.categoryId.nonNull
    userCategoryId := e.userCategoryId.nonNull
    categoryName := e.categoryName.nonNull
    reference := e.reference.nonNull
    refundOfId := e.refundOfId.nonNull
    instrument := e.instrument.nonNull }

/-- `normalizeInput(record)` of a record. -/
def Details.normalized (d : Details) : Details :=
  { d with
    originalCurrency := d.originalCurrency.map jsTrim
    originalAmount := d.originalAmount.bind fun units => originalUnits units d.originalCurrency
    merchantName := d.merchantName.map jsTrim
    cardLast4 := d.cardLast4.map jsTrim
    accountLast4 := d.accountLast4.map jsTrim
    userCardId := d.userCardId.map jsTrim
    categoryId := d.categoryId.map jsTrim
    userCategoryId := d.userCategoryId.map jsTrim
    categoryName := d.categoryName.map jsTrim
    reference := d.reference.map fun s => (jsTrim s).map upperUnit
    refundOfId := d.refundOfId.map jsTrim }

/-- The columns of a row without values, for a new payment at a time. -/
def Details.blank (occurredAt : ℤ) : Details where
  originalCurrency := none
  originalAmount := none
  occurredAt := occurredAt
  merchantName := none
  cardLast4 := none
  accountLast4 := none
  userCardId := none
  categoryId := none
  userCategoryId := none
  categoryName := none
  direction := .spend
  reference := none
  refundOfId := none
  instrument := some .other

/-- `{ ...payment, ...details, valuation_status: undefined }` as an object to validate. -/
def Payment.toBody (p : Payment) : Body where
  sourceKey := .value p.sourceKey
  occurredAt := .value (some p.occurredAt)
  originalCurrency := .ofColumn p.originalCurrency
  originalAmount := .ofColumn (p.originalAmount.map (fixedText 4))
  merchantName := .ofColumn p.merchantName
  cardLast4 := .ofColumn p.cardLast4
  accountLast4 := .ofColumn p.accountLast4
  userCardId := .ofColumn p.userCardId
  categoryId := .ofColumn p.categoryId
  userCategoryId := .ofColumn p.userCategoryId
  categoryName := .ofColumn p.categoryName
  direction := .value (some p.direction)
  reference := .ofColumn p.reference
  refundOfId := .ofColumn p.refundOfId
  instrument := .ofColumn (p.instrument.map some)
  transactionId := .ofColumn p.transactionId
  billedInr := .ofColumn (p.billedInr.map (fixedText 2))
  confirmationSource := .ofColumn (p.confirmationSource.map some)

/-! ### Valuation -/

/-- A payment that waits. -/
def Valuation.waiting (status : Status) : Valuation := ⟨status, none, none⟩

/-- `valuationFor(record, referenceRate)`. -/
def valuationFor (d : Details) (referenceRate : Option ReferenceRate) : Valuation :=
  match d.originalCurrency, d.originalAmount with
  | some _, some units =>
    match referenceRate with
    | none => .waiting .awaitingRate
    | some rate =>
      match convertToInr units rate.rate with
      | some paise => ⟨.estimated, some paise, some rate⟩
      | none => .waiting .awaitingRate
  | _, _ => .waiting .awaitingAmount

end PandaPay.ForeignPayments
