import PandaPay.CardBills.Evidence

/-!
# Payments towards bills

The second half of `deriveCardBills` of `card_bill_ledger.dart`: which card a payment belongs to, and which of
its bills it settles.

## Main definitions

* `explicitCard`: the card that a payment names
* `attribution`: the payments by card, and those that are left
* `attached`: a ledger with the payments of its card
* `deriveCardBills`: the ledgers
-/

namespace PandaPay.CardBills

inductive TxnEntryKind where
  | spend | income | investment | transfer | refund | unknown
  deriving DecidableEq

structure TransactionEntry where
  id : JsString
  amount : ℤ
  occurredAt : DateTime
  merchantName : Option JsString := none
  note : Option JsString := none
  userCardId : Option JsString := none
  cardLast4 : Option JsString := none
  entryKind : TxnEntryKind
  status : JsString
  deriving DecidableEq

/-! ### Bills -/

namespace CardBill

variable (bill : CardBill)

/-- `isPaid`: all of the amount, up to one rupee. -/
def isPaid : Bool := bill.amountDue.any fun due => 0 < due && 0 < bill.paidToward && due - 100 ≤ bill.paidToward

/-- `(due.paise * 0.02).ceil() + 100`. -/
def headroom (due : ℤ) : ℤ := ⌈(due : ℚ) * 2 / 100⌉ + 100

/-- `_fits(bill, amount)`. -/
def fits (amount : ℤ) : Bool :=
  bill.amountDue.any fun due => due - headroom due ≤ amount && amount ≤ due + headroom due

/-- `_fitsOrPartial(bill, amount)`. -/
def fitsOrPartial (amount : ℤ) : Bool :=
  bill.amountDue.any fun due =>
    let floor := bill.minimumDue.getD (due.tdiv 10)
    amount ≤ due + headroom due && floor - ⌈(floor : ℚ) * 5 / 100⌉ ≤ amount

/-- `settle(bill, [txn])`. -/
def settle (txn : TransactionEntry) : CardBill :=
  { bill with
    paidToward := bill.paidToward + txn.amount
    lastPaymentAt := match bill.lastPaymentAt with
      | none => some txn.occurredAt
      | some last => if last.micros < txn.occurredAt.micros then some txn.occurredAt else some last }

/-- `_windowCovers(bill, when)`. -/
def windowCovers (host : Host) (when : DateTime) : Bool :=
  (host.dayOf bill.statementDate).micros ≤ when.micros &&
    when.micros < (host.addDays (host.dayOf (bill.dueDate.getD bill.statementDate)) 31).micros

end CardBill

/-! ### The payments of a card -/

/-- The two bills of a ledger that payments settle. -/
inductive Slot where
  | current | previous
  deriving DecidableEq

namespace CardBillLedger

variable (ledger : CardBillLedger)

/-- The bill in a slot. -/
def bill : Slot → Option CardBill
  | .current => ledger.current
  | .previous => ledger.previous

/-- `[current, previous].whereType<CardBill>()`. -/
def bills : List CardBill := ledger.current.toList ++ ledger.previous.toList

/-- Whether the amount is closer to what is due of the previous bill. -/
def closerToPrevious (amount : ℤ) : Bool :=
  (ledger.previous.bind (·.amountDue)).any fun before =>
    (ledger.current.bind (·.amountDue)).any fun due => |amount - before| < |amount - due|

/-- The bill that `_attached` settles with a payment, if any. -/
def slotOf (host : Host) (txn : TransactionEntry) : Option Slot :=
  match ledger.previous.or ledger.current with
  | none => none
  | some oldest =>
    if txn.occurredAt.micros < (host.dayOf oldest.statementDate).micros then none
    else
      let beforeCurrent := ledger.current.any fun b => txn.occurredAt.micros < b.statementDate.micros
      let fitsPrevious := ledger.previous.any fun b => !b.isPaid && b.fitsOrPartial txn.amount
      let fitsCurrent := ledger.current.any fun b => !b.isPaid && b.fitsOrPartial txn.amount
      let preferPrevious := !fitsCurrent || ledger.closerToPrevious txn.amount
      if beforeCurrent || fitsPrevious && (ledger.current.isNone || preferPrevious) then
        ledger.previous.map fun _ => .previous
      else ledger.current.map fun _ => .current

/-- The ledger with a payment settled in a slot. -/
def credit (txn : TransactionEntry) : Slot → CardBillLedger
  | .current => { ledger with current := ledger.current.map (·.settle txn) }
  | .previous => { ledger with previous := ledger.previous.map (·.settle txn) }

/-- A round of the loop of `_attached`. -/
def attach (host : Host) (txn : TransactionEntry) : CardBillLedger :=
  (ledger.slotOf host txn).elim ledger (ledger.credit txn)

end CardBillLedger

/-- `_attached(ledger, txns)`. -/
def attached (sorting : Sorting ℤ) (host : Host) (ledger : CardBillLedger) (txns : List TransactionEntry) :
    CardBillLedger :=
  (sorting.sort (·.occurredAt.micros) txns).foldl (·.attach host) ledger

/-! ### The card of a payment -/

section Attribution

variable (host : Host)

/-- `isCardBillPaymentTxn(txn)`. -/
def isCardBillPaymentTxn (txn : TransactionEntry) : Bool :=
  let merchant := txn.merchantName.getD []
  let note := txn.note.getD []
  txn.status = js "active" && txn.entryKind = .transfer &&
    (host.billPaymentVerb merchant || host.billPaymentVerb note) &&
    (host.cardWord merchant || host.cardWord note)

/-- `_mentionedLast4(txn)`. -/
def mentionedLast4 (txn : TransactionEntry) : Option JsString :=
  host.endingDigits (txn.merchantName.getD [] ++ js " " ++ txn.note.getD [])

/-- `_explicitCard(cards, txn)`. -/
def explicitCard (cards : List UserCard) (txn : TransactionEntry) : Option UserCard :=
  match txn.cardLast4 with
  | some last4 =>
    let hits := cards.filter fun c => c.last4 = some last4
    match hits with
    | [hit] => some hit
    | hits => hits.find? fun c => some c.id = txn.userCardId
  | none =>
    match mentionedLast4 host txn with
    | some mentioned => single? (cards.filter fun c => c.last4 = some mentioned)
    | none =>
      match txn.userCardId with
      | some userCardId => cards.find? (·.id = userCardId)
      | none => none

/-- Whether a payment names a card, known or not. -/
def namesSomeCard (txn : TransactionEntry) : Bool :=
  txn.cardLast4 ≠ none || txn.userCardId ≠ none || mentionedLast4 host txn ≠ none

variable (cards : List UserCard) (ledgers : InsertionMap JsString CardBillLedger)

/-- `byWindow`. -/
def byWindow (txn : TransactionEntry) : List UserCard :=
  cards.filter fun card =>
    (ledgers.get? card.id).any fun ledger => ledger.bills.any (·.windowCovers host txn.occurredAt)

/-- The state of the loop over the payments. -/
structure Attribution where
  seenPayments : List JsString := []
  attributed : InsertionMap JsString (List TransactionEntry) := .empty
  residual : List TransactionEntry := []

namespace Attribution

variable (a : Attribution)

/-- `attributed.putIfAbsent(card.id, () => []).add(txn)`. -/
def assign (card : UserCard) (txn : TransactionEntry) : Attribution :=
  { a with attributed := a.attributed.upsert card.id [] (· ++ [txn]) }

/-- A round of the loop. -/
def step (now : DateTime) (txn : TransactionEntry) : Attribution :=
  if txn.id ∈ a.seenPayments then a
  else
    let a := { a with seenPayments := a.seenPayments ++ [txn.id] }
    if txn.amount ≤ 0 ∨ now.micros < txn.occurredAt.micros then a
    else
      match explicitCard host cards txn with
      | some card => a.assign card txn
      | none =>
        -- an explicit but unknown card never falls back to another one
        if namesSomeCard host txn then a
        else
          match byWindow host cards ledgers txn with
          | [card] => a.assign card txn
          | _ => { a with residual := a.residual ++ [txn] }

end Attribution

/-- `byAmount`: the cards with one bill that is not paid, which the payments together fit. -/
def byAmount (residual : List TransactionEntry) : List UserCard :=
  cards.filter fun card =>
    let candidates := ((ledgers.get? card.id).elim [] CardBillLedger.bills).filter fun b => !b.isPaid
    (single? candidates).any fun b => b.fits (residual.map (·.amount)).sum

/-- The payments by card: `attributed`. -/
def attribution (now : DateTime) (payments : List TransactionEntry) :
    InsertionMap JsString (List TransactionEntry) :=
  let a := (payments.filter (isCardBillPaymentTxn host)).foldl (Attribution.step host cards ledgers · now) {}
  if a.residual = [] then a.attributed
  else
    match byAmount cards ledgers a.residual with
    | [card] => a.attributed.upsert card.id [] (· ++ a.residual)
    | _ => a.attributed

end Attribution

/-- `deriveCardBills(cards, evidence, payments, now)`. -/
def deriveCardBills (sorting : Sorting ℤ) (host : Host) (cards : List UserCard)
    (evidence : List CardBillEvidence) (payments : List TransactionEntry) (now : DateTime) :
    InsertionMap JsString CardBillLedger :=
  let ledgers := openLedgers sorting host cards evidence now
  updateAll (attached sorting host) ledgers (attribution host cards ledgers now payments)

end PandaPay.CardBills
