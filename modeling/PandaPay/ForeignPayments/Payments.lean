import PandaPay.ForeignPayments.Requests

/-!
# The calls on foreign payments

The functions of `foreign_payments.js` that create, edit, settle and dismiss a payment. A call runs in
one transaction under the lock of its profile and reads a ledger of its own, as the ledger is edited
between the calls. What the canonical writer of transactions answers is an argument of the call.

## Main definitions

* `Db.attachTransaction`, `Db.reconcilePayment`: linking a transaction
* `Db.upsertForeignPayment`, `Db.patchForeignPayment`, `Db.confirmForeignPayment`,
  `Db.reconcileStatementForeignPayment`: the calls
* `step`: the machine of the calls
-/

namespace PandaPay.ForeignPayments

open PortableBackup (jsTrim lowerUnit)

/-! ### What a payment refers to -/

/-- `validateOwnedFields(client, userId, record)`: the record with the name of its category. -/
def Db.validateOwnedFields (db : Db) (ledger : Ledger) (id : Option JsString) (d : Details) :
    Except Raised Details := do
  match d.userCardId with
  | none => pure ()
  | some cardId =>
    match ledger.cards.find? fun c => some c.id = Db.toUuid (some cardId) with
    | none => .error (.failed 404 "user_card_not_found")
    | some card =>
      match d.cardLast4, card.last4.filter (· ≠ []) with
      | some seen, some saved => failIf (seen ≠ jsTrim saved) (.failed 409 "card_evidence_conflict")
      | _, _ => pure ()
  let d ← match d.categoryId with
    | none => pure d
    | some categoryId =>
      match ledger.spendCategories.find? fun c => some c.id = Db.toUuid (some categoryId) with
      | none => .error (.failed 404 "category_not_found")
      | some category => pure { d with categoryName := some category.name }
  let d ← match d.userCategoryId with
    | none => pure d
    | some categoryId =>
      match ledger.userCategories.find? fun c => some c.id = Db.toUuid (some categoryId) with
      | none => .error (.failed 404 "user_category_not_found")
      | some category => pure { d with categoryName := some category.name }
  match d.refundOfId with
  | none => pure d
  | some parentId =>
    failIf (d.direction ≠ .refund ∨ some parentId = id) (.bad "invalid_refund_link")
    match db.payments.get? (parentId.map lowerUnit) with
    | none => .error (.failed 404 "original_foreign_payment_not_found")
    | some parent =>
      failIf (parent.direction ≠ .spend) (.failed 404 "original_foreign_payment_not_found")
      return d

/-! ### Matching -/

/-- `Date.parse` of a `Date`, whose text ends with the seconds, in milliseconds. -/
def dateParse (micros : ℤ) : ℤ := micros / 1000000 * 1000

/-- At most seven days lie between two times in milliseconds. -/
def isNearby (a b : ℤ) : Bool := (a - b).natAbs ≤ 7 * 86400000

/-- A reference with its hyphens left out. -/
def withoutHyphens (reference : JsString) : JsString := reference.filter fun c => c.val ≠ 45

/-- `upper(replace(reference, '-', ''))`. -/
def bankReference (reference : JsString) : JsString := (withoutHyphens reference).map upperUnit

/-- Both are known and differ. -/
def conflicts (a b : Option JsString) : Bool := a.isSome && b.isSome && a ≠ b

/-- The kind of the transaction that settles a payment. -/
def Direction.entryKind : Direction → EntryKind
  | .refund => .transfer
  | .spend => .spend

/-- `safeAutomaticMatch(payment, transaction, sourceKeys)`. -/
def safeAutomaticMatch (p : Payment) (t : Transaction) (sourceKeys : List JsString) : Bool :=
  if t.active = false ∨ t.amountInr = none then false
  else if t.entryKind ≠ p.direction.entryKind then false
  else if conflicts p.userCardId t.userCardId then false
  else if conflicts p.cardLast4 ((t.cardLast4.filter (· ≠ [])).map jsTrim) then false
  else if conflicts p.accountLast4 t.sourceAccountLast4 then false
  else if p.billedInr.isSome ∧ p.billedInr ≠ t.amountInr then false
  else
    let exactSource := t.sourceKey.any sourceKeys.contains || t.sourceKeys.any sourceKeys.contains
    if exactSource ∧ p.billedInr.isSome then true
    else
      let exactReference := p.reference.any fun r =>
        bankReference r ≠ [] && t.bankReferences.contains (bankReference r)
      exactReference && p.userCardId.isSome && p.userCardId = t.userCardId &&
        isNearby (dateParse p.occurredAt) t.occurredAt

/-- `transactionCandidates(client, userId, record)`. -/
def Db.transactionCandidates (db : Db) (ledger : Ledger) (p : Payment) : List Transaction :=
  let sourceKeys := p.sourceKey :: (db.sources.entries.filter fun e => e.2 = p.id).map (·.1)
  let reference := (p.reference.map withoutHyphens).filter (· ≠ [])
  let rows := ledger.transactions.filter fun t => t.active &&
    (t.sourceKey.any sourceKeys.contains || t.sourceKeys.any sourceKeys.contains ||
      reference.any t.bankReferences.contains)
  (rows.take 20).filter fun t => safeAutomaticMatch p t sourceKeys

/-! ### Settlement -/

namespace Db

variable (db : Db) (ledger : Ledger)

/-- `attachTransaction(client, userId, payment, transaction, source, { userModified })`. -/
def attachTransaction (p : Payment) (t : Transaction) (source : ConfirmationSource)
    (userModified : Bool) : Except Raised (Payment × Db) :=
  match p.transactionId with
  | some linked => do
    failIf (linked ≠ t.id ∨ p.billedInr ≠ t.amountInr) (.failed 409 "confirmation_conflict")
    return (p, db)
  | none =>
    match (db.linkedTo t.id).filter fun existing => existing.id ≠ p.id with
    | some existing => do
      let (_, db) ← (db.addSourceAlias existing.id p.sourceKey).updatePayment ledger p fun row =>
        { row with valuationStatus := .ignored }
      return (existing, db)
    | none => db.updatePayment ledger p fun row => { row with
        valuationStatus := .confirmed
        billedInr := t.amountInr
        transactionId := some t.id
        confirmationSource := some source
        userModified := p.userModified || userModified }

/-- `reconcilePayment(client, userId, payment)`: the payment after it. -/
def reconcilePayment (p : Payment) : Except Raised (Payment × Db) :=
  if p.valuationStatus = .ignored ∨ p.valuationStatus = .confirmed then .ok (p, db)
  else
    match db.transactionCandidates ledger p with
    | [t] => db.attachTransaction ledger p t
        (if t.source = js "statement" then .statement else .sms) false
    | _ => .ok (p, db)

/-! ### Calls -/

/-- `if (error) fail(error)`. -/
def failOn (error : Option String) : Except Raised Unit :=
  match error with
  | none => .ok ()
  | some code => .error (.bad code)

/-- The amount that an SMS states with a payment. -/
def smsBilledInr (body : Body) : Option ℕ :=
  if body.confirmationSource.get? = some (some .sms) then body.billedInr.get?.bind inrAmount else none

/-- A replay adds the amount that an SMS states to a payment without one. -/
def addBilledInr (existing : Payment) (body : Body) : Except Raised (Payment × Db) :=
  if existing.userModified = false ∧ existing.valuationStatus ≠ .ignored ∧
      existing.valuationStatus ≠ .confirmed ∧ (smsBilledInr body).isSome ∧
      existing.billedInr = none then
    db.updatePayment ledger existing fun row => { row with billedInr := smsBilledInr body }
  else .ok (existing, db)

/-- The branch of `upsertForeignPayment` for a source that is known. -/
def replayPayment (existing : Payment) (body : Body) (rate : Option ReferenceRate) :
    Except Raised (Payment × Db) := do
  let (existing, db) ← db.addBilledInr ledger existing body
  if existing.userModified ∨ existing.valuationStatus = .ignored ∨
      existing.valuationStatus = .confirmed ∨ existing.valuationStatus = .estimated then
    db.reconcilePayment ledger existing
  else do
    let merged ← db.validateOwnedFields ledger (some existing.id)
      ((normalizeInput body).withoutNull.onto existing.toDetails)
    let (existing, db) ← db.updatePayment ledger existing fun row => { row with
      toDetails := merged.normalized
      toValuation := valuationFor merged rate }
    db.reconcilePayment ledger existing

/-- The branch of `upsertForeignPayment` for a new source, under the id `newId`. -/
def createPayment (newId key : JsString) (body : Body) (rate : Option ReferenceRate) :
    Except Raised (Payment × Db) := do
  let record ← db.validateOwnedFields ledger none
    ((normalizeInput body).onto (.blank ((body.occurredAt.get?.bind id).getD 0)))
  let (existing, db) ← db.insertPayment ledger { record, valuationFor record rate with
    id := newId
    sourceKey := key
    billedInr := smsBilledInr body
    transactionId := none
    confirmationSource := none
    userModified := false
    revision := 1 }
  let db := db.addSourceAlias existing.id key
  db.reconcilePayment ledger existing

/-- `upsertForeignPayment(client, userId, body, { referenceRate })`. -/
def upsertForeignPayment (newId : JsString) (body : Body) (rate : Option ReferenceRate) :
    Except Raised (Payment × Db) := do
  failOn (validateInput body false)
  let key := body.sourceKey.get?.getD []
  match db.sourcePayment key with
  | some existing => db.replayPayment ledger existing body rate
  | none => db.createPayment ledger newId key body rate

/-- `loadPayment(client, userId, id)`, of a payment that must be there. -/
def loadPayment (id : JsString) : Except Raised Payment :=
  match db.payments.get? (id.map lowerUnit) with
  | some p => .ok p
  | none => .error (.failed 404 "foreign_payment_not_found")

/-- `originalsChanged`: an original column is given with another text than it has. -/
def originalsChanged (before : Payment) (body : Body) : Bool :=
  (body.originalCurrency.isPresent && body.originalCurrency.get? ≠ before.originalCurrency) ||
    (body.originalAmount.isPresent &&
      body.originalAmount.get? ≠ before.originalAmount.map (fixedText 4)) ||
    -- the text of a `Date` is never that of a request
    body.occurredAt.isPresent

/-- The columns of the valuation that a patch sets. -/
def patchedValuation (before : Payment) (merged : Details) (body : Body)
    (rate : Option ReferenceRate) : Valuation :=
  if body.valuationStatus = .value (some .ignored) then
    { before.toValuation with valuationStatus := .ignored }
  else if originalsChanged before body ∨ before.valuationStatus = .ignored then
    valuationFor merged rate
  else if before.valuationStatus = .awaitingRate ∧ rate.isSome then valuationFor merged rate
  else before.toValuation

/-- `patchForeignPayment(client, userId, id, body, { referenceRate })`. -/
def patchForeignPayment (id : JsString) (body : Body) (rate : Option ReferenceRate) :
    Except Raised (Payment × Db) := do
  failOn (validateInput body true)
  let before ← db.loadPayment id
  failIf (body.expectedRevision.isPresent ∧
    body.expectedRevision.get? ≠ some (before.revision : ℤ)) (.failed 409 "revision_conflict")
  failIf (before.valuationStatus = .confirmed) (.failed 409 "edit_confirmed_transaction_in_ledger")
  let edited := (normalizeInput body).onto before.toDetails
  failOn (validateInput { before with toDetails := edited }.toBody false)
  let merged ← db.validateOwnedFields ledger (some before.id) edited
  let named := body.categoryId.isPresent || body.userCategoryId.isPresent
  db.updatePayment ledger before fun row => { row with
    toDetails := { edited with
      categoryName := if named then merged.categoryName.filter (· ≠ []) else edited.categoryName }
    toValuation := patchedValuation before merged body rate
    userModified := true }

/-- The body of a confirmation. -/
structure Confirmation where
  billedInr : Option JsString
  transactionId : Option JsString := none
  userCardId : Option JsString := none
  /-- Any other word is `some none`. -/
  confirmationSource : Option (Option ConfirmationSource) := none

/-- What `confirmForeignPayment` hands to the writer of transactions. -/
structure Posting where
  userCardId : Option JsString
  amount : ℕ
  occurred : ℤ
  categoryId : Option JsString
  userCategoryId : Option JsString
  instrument : Instrument
  entryKind : EntryKind
  merchantName : Option JsString
  backfill : Bool
  accountLast4 : Option JsString
  foreignPaymentId : JsString
  originalCurrency : Option JsString
  originalAmount : Option ℕ
  direction : Direction
  refundOfId : Option JsString
  bankReference : Option JsString

/-- What the writer answers. -/
structure Outcome where
  status : ℕ
  transaction : Option Transaction

/-- What a confirmation finds around it: the clock in milliseconds and the writer of transactions. -/
structure Surroundings where
  now : ℤ
  insertTransactionAndUpdateState : Option (Posting → Outcome)

/-- The instrument of the transaction that settles a payment. -/
def settlingInstrument (p : Payment) : Instrument :=
  let instrument := p.instrument.getD (if p.accountLast4.isSome then .upiBank else .other)
  match p.userCardId with
  | none => instrument
  | some cardId =>
    match (ledger.cards.find? fun c => some c.id = toUuid (some cardId)).bind (·.cardType) with
    | none => instrument
    | some cardType =>
      if cardType = js "credit" then .creditCard
      else if cardType = js "debit" then .debitCard
      else instrument

/-- The arguments of the writer. -/
def posting (now : ℤ) (p : Payment) (billed : ℕ) : Posting where
  userCardId := p.userCardId
  amount := billed
  occurred := p.occurredAt
  categoryId := p.categoryId
  userCategoryId := p.userCategoryId
  instrument := settlingInstrument ledger p
  entryKind := p.direction.entryKind
  merchantName := p.merchantName
  backfill := 86400000 < now - dateParse p.occurredAt
  accountLast4 := p.accountLast4
  foreignPaymentId := p.id
  originalCurrency := p.originalCurrency
  originalAmount := p.originalAmount
  direction := p.direction
  refundOfId := p.refundOfId
  bankReference := p.reference

/-- The transaction that a confirmation names. -/
def namedTransaction (record : Payment) (billed : ℕ) (source : ConfirmationSource)
    (id : JsString) : Except Raised Transaction :=
  match ledger.transaction? (id.map lowerUnit) with
  | none => .error (.failed 404 "transaction_not_found")
  | some t => do
    failIf (t.active = false) (.failed 404 "transaction_not_found")
    failIf (t.amountInr ≠ some billed) (.failed 409 "billed_amount_conflict")
    failIf (t.entryKind ≠ record.direction.entryKind) (.failed 409 "transaction_direction_conflict")
    failIf (conflicts record.userCardId t.userCardId) (.failed 409 "card_evidence_conflict")
    failIf (source ≠ .user ∧
      ((db.transactionCandidates ledger record).all fun row => row.id ≠ t.id) = true)
      (.failed 409 "settlement_evidence_required")
    return t

/-- The transaction that a confirmation finds or lets the writer create, with the ledger after it. -/
def foundTransaction (around : Surroundings) (record : Payment) (billed : ℕ)
    (source : ConfirmationSource) : Except Raised (Transaction × Ledger) :=
  match db.transactionCandidates ledger record with
  | [t] => .ok (t, ledger)
  | _ :: _ :: _ => .error (.failed 409 "ambiguous_settlement")
  | [] => do
    failIf (source ≠ .user) (.failed 409 "settlement_evidence_required")
    match around.insertTransactionAndUpdateState with
    | none => .error (.thrown "canonical_transaction_writer_required")
    | some writer =>
      let outcome := writer (posting ledger around.now record billed)
      match outcome.transaction with
      | none => .error (.failed 409 "settlement_requires_duplicate_review")
      | some t =>
        failIf ((outcome.status ≠ 200 ∧ outcome.status ≠ 201) ∨ t.active = false)
          (.failed 409 "settlement_requires_duplicate_review")
        failIf (t.amountInr ≠ some billed) (.failed 409 "billed_amount_conflict")
        return (t, { ledger with transactions := t :: ledger.transactions })

/-- The amount that a confirmation states. -/
def Confirmation.amount (body : Confirmation) : Except Raised ℕ :=
  match body.billedInr.bind inrAmount with
  | none => .error (.bad "invalid_billed_inr")
  | some billed => .ok billed

/-- Who confirms. -/
def Confirmation.source (body : Confirmation) : Except Raised ConfirmationSource :=
  match body.confirmationSource with
  | none => .ok .user
  | some none => .error (.bad "invalid_confirmation_source")
  | some (some source) => .ok source

/-- The transaction that settles a payment, with the ledger after it. -/
def settlingTransaction (around : Surroundings) (record : Payment) (billed : ℕ)
    (source : ConfirmationSource) (transactionId : Option JsString) :
    Except Raised (Transaction × Ledger) :=
  match transactionId with
  | some id => do
    let t ← db.namedTransaction ledger record billed source id
    return (t, ledger)
  | none => db.foundTransaction ledger around record billed source

/-- The card that the user chose is stored in the same transaction as the confirmation. -/
def saveCard (current : Payment) (userCardId : Option JsString) : Except Raised (Payment × Db) :=
  if userCardId ≠ current.userCardId then
    db.updatePayment ledger current fun row => { row with
      userCardId := userCardId
      userModified := true }
  else .ok (current, db)

/-- `confirmForeignPayment(client, userId, id, body, { insertTransactionAndUpdateState })`. -/
def confirmForeignPayment (around : Surroundings) (id : JsString) (body : Confirmation) :
    Except Raised (Payment × Db) := do
  let billed ← body.amount
  failIf (body.transactionId.any fun id => !isUuid id) (.bad "invalid_transaction_id")
  failIf (body.userCardId.any fun id => !isUuid id) (.bad "invalid_user_card_id")
  let source ← body.source
  let current ← db.loadPayment id
  if current.valuationStatus = .confirmed then do
    failIf (current.billedInr ≠ some billed ∨
      (body.transactionId.isSome ∧ body.transactionId ≠ current.transactionId))
      (.failed 409 "confirmation_conflict")
    return (current, db)
  else do
    failIf (current.valuationStatus = .ignored) (.failed 409 "restore_payment_before_confirming")
    failIf (conflicts body.userCardId current.userCardId) (.failed 409 "card_evidence_conflict")
    let record := { current with
      userCardId := body.userCardId.or current.userCardId
      billedInr := some billed }
    let details ← db.validateOwnedFields ledger (some record.id) record.toDetails
    let record := { record with toDetails := details }
    let (t, ledger) ← db.settlingTransaction ledger around record billed source body.transactionId
    let (record, db) ← db.saveCard ledger current record.userCardId
    db.attachTransaction ledger record t source (source = .user)

/-- What an import of a statement knows of one of its lines. -/
structure Evidence where
  transactionId : Option JsString
  billedInr : JsString
  sourceKey : Option JsString
  foreignSourceKey : Option JsString
  originalCurrency : Field JsString
  originalAmount : Option JsString
  /-- In milliseconds. -/
  occurredAt : ℤ
  merchantName : Option JsString
  userCardId : Option JsString
  cardLast4 : Option JsString
  accountLast4 : Option JsString
  bankReference : Option JsString
  entryKind : EntryKind

/-- The transaction of the evidence. -/
def Evidence.transaction (e : Evidence) (id : JsString) : Transaction where
  id := id
  active := true
  amountInr := inrAmount e.billedInr
  entryKind := e.entryKind
  userCardId := e.userCardId
  cardLast4 := none
  sourceAccountLast4 := none
  occurredAt := e.occurredAt
  source := js "statement"
  sourceKey := e.sourceKey
  sourceKeys := []
  bankReferences := (e.bankReference.map ForeignPayments.bankReference).toList

/-- `originalAmount(evidence.originalAmount, currency)`. -/
def Evidence.originalUnits (e : Evidence) (currency : Option JsString) : Option ℕ :=
  e.originalAmount.bind fun amount => ForeignPayments.originalAmount amount currency

/-- `originalAmount(payment.original_amount, payment.original_currency)`. -/
def originalUnitsOf (p : Payment) : Option ℕ :=
  p.originalAmount.bind fun units => originalUnits units p.originalCurrency

/-- The original amount of the evidence is that of a payment. -/
def Evidence.sameOriginal (e : Evidence) (p : Payment) : Bool :=
  e.originalCurrency = .ofColumn p.originalCurrency &&
    e.originalUnits e.originalCurrency.get? = originalUnitsOf p

/-- `direct`: the payment of the source that the evidence claims, when the evidence fits it. -/
def directPayment (e : Evidence) : Option Payment :=
  ((e.foreignSourceKey.filter isHash).bind db.sourcePayment).filter fun p =>
    e.sameOriginal p && e.userCardId.isSome && e.userCardId = p.userCardId &&
      isNearby e.occurredAt (dateParse p.occurredAt)

/-- The payments with the bank reference of the evidence. -/
def referencedPayments (e : Evidence) (t : Transaction) : List Payment :=
  match e.bankReference, e.userCardId with
  | some reference, some cardId =>
    db.payments.values.filter fun p =>
      p.valuationStatus ≠ .confirmed && p.valuationStatus ≠ .ignored &&
        p.reference.map ForeignPayments.bankReference =
          some (ForeignPayments.bankReference reference) &&
        p.userCardId = some cardId && safeAutomaticMatch p t [p.sourceKey] &&
        (e.originalCurrency.get?.isNone || e.originalCurrency.get? = p.originalCurrency) &&
        (e.originalAmount.isNone ||
          e.originalUnits (e.originalCurrency.get?.or p.originalCurrency) = originalUnitsOf p)
  | _, _ => []

/-- The request that an import makes of a line with an original amount. -/
def Evidence.toBody (e : Evidence) (key : JsString) : Body where
  sourceKey := .value key
  originalCurrency := e.originalCurrency
  originalAmount := .ofColumn e.originalAmount
  occurredAt := .value (some (e.occurredAt * 1000))
  merchantName := .ofColumn e.merchantName
  userCardId := .ofColumn e.userCardId
  cardLast4 := .ofColumn e.cardLast4
  accountLast4 := .ofColumn e.accountLast4
  reference := .ofColumn e.bankReference
  direction := .value (some (if e.entryKind = .transfer then .refund else .spend))

/-- `reconcileStatementForeignPayment(client, userId, evidence)`. -/
def reconcileStatementForeignPayment (newId : JsString) (e : Evidence) :
    Except Raised (Option Payment × Db) :=
  match e.transactionId, inrAmount e.billedInr with
  | some transactionId, some _ =>
    let t := e.transaction transactionId
    match db.linkedTo transactionId with
    | some known => .ok (some known, db)
    | none =>
      let pending := match db.directPayment e with
        | some direct => [direct]
        | none => db.referencedPayments e t
      match pending with
      | [p] => do
        let db := match e.sourceKey with
          | some key => db.addSourceAlias p.id key
          | none => db
        let (p, db) ← db.attachTransaction ledger p t .statement false
        return (some p, db)
      | _ :: _ :: _ => .ok (none, db)
      | [] =>
        match e.originalCurrency.get?, e.originalUnits e.originalCurrency.get?,
            e.sourceKey.filter isHash with
        | some _, some _, some key => do
          let (p, db) ← db.upsertForeignPayment ledger newId (e.toBody key) none
          if p.valuationStatus = .ignored then return (some p, db)
          else do
            let (p, db) ← db.attachTransaction ledger p t .statement false
            return (some p, db)
        | _, _, _ => .ok (none, db)
  | _, _ => .ok (none, db)

end Db

/-! ### The machine -/

/-- A call, with the id that an insertion draws. -/
inductive Call where
  | upsert (newId : JsString) (body : Body) (rate : Option ReferenceRate)
  | patch (id : JsString) (body : Body) (rate : Option ReferenceRate)
  | confirm (around : Db.Surroundings) (id : JsString) (body : Db.Confirmation)
  | reconcile (id : JsString)
  | statement (newId : JsString) (evidence : Db.Evidence)

/-- A call with the ledger that it reads. -/
structure Request where
  ledger : Ledger
  call : Call

/-- What a call does when it succeeds. -/
def Db.run (db : Db) (request : Request) : Except Raised (Option Payment × Db) :=
  match request.call with
  | .upsert newId body rate => do
    let (p, db) ← db.upsertForeignPayment request.ledger newId body rate
    return (some p, db)
  | .patch id body rate => do
    let (p, db) ← db.patchForeignPayment request.ledger id body rate
    return (some p, db)
  | .confirm around id body => do
    let (p, db) ← db.confirmForeignPayment request.ledger around id body
    return (some p, db)
  | .reconcile id => do
    let p ← db.loadPayment id
    let (p, db) ← db.reconcilePayment request.ledger p
    return (some p, db)
  | .statement newId evidence => db.reconcileStatementForeignPayment request.ledger newId evidence

/-- A call that fails leaves the tables as they were. -/
def step (db : Db) (request : Request) : Except Raised (Option Payment) × Db :=
  match db.run request with
  | .ok (p, db) => (.ok p, db)
  | .error raised => (.error raised, db)

end PandaPay.ForeignPayments
