import PandaPay.Library.IndexBy
import PandaPay.SmsV2.Contract

/-!
# The ledger projector

The ledger row of an event, and the totals of a period over such rows. Merchant keys, the
normalisation of merchant texts and the digest of an entry id are arguments.

## Main definitions

* `LedgerEntry`, `CategoryDecision`, `Totals`
* `Projector.project`: the rows of an event
* `totals`: the totals of the half-open period `[from, to)`
-/

namespace PandaPay.SmsV2

/-! ### Values -/

inductive CategorySource where
  | user | shared | catalogue | mcc | historyConfirmed | ai | fallback
  deriving DecidableEq

structure CategoryDecision where
  slug : JsString
  source : CategorySource
  ruleId : Option JsString := none
  confidence : ℚ
  deriving DecidableEq

inductive LedgerEndpoint where
  | instrument (instrumentId : JsString)
  | external (counterpartyKey : JsString)
  | ownUnresolved (kind : InstrumentKind)
  deriving DecidableEq

inductive LedgerUnit where
  | inr | points
  deriving DecidableEq

structure LedgerEntry where
  entryId : JsString
  eventId : JsString
  «from» : LedgerEndpoint
  «to» : LedgerEndpoint
  amountMinor : ℤ
  unit : LedgerUnit
  occurredAt : ℤ
  category : Option JsString := none
  categorySource : Option CategorySource := none
  countsAsTransaction : Bool
  isSpend : Bool
  isIncome : Bool
  isInvestment : Bool
  deriving DecidableEq

/-- A fact, with whether the user stated it. -/
structure LedgerFact extends Fact where
  /-- `provenance.engine == Engine.user`. -/
  byUser : Bool := false

/-- An instrument, with the names it goes by. -/
structure OwnInstrument extends Instrument where
  displayName : JsString
  productNames : List JsString := []

/-! ### Events -/

/-- `spendEventTypes`. -/
def EventType.isSpend : EventType → Bool
  | .purchase | .subscriptionCharge | .fee | .emi | .billPayment | .atmWithdrawal | .p2pOut => true
  | _ => false

/-- `incomeEventTypes`. -/
def EventType.isIncome : EventType → Bool
  | .income | .p2pIn | .cashback | .dividend => true
  | _ => false

/-- `ownTransferEventTypes`. -/
def EventType.isOwnTransfer : EventType → Bool
  | .ownTransfer | .cardBillPayment | .walletTopup => true
  | _ => false

/-- `moneyLegRoles`. -/
def LegRole.isMoney : LegRole → Bool
  | .debitLeg | .creditLeg | .charge | .reversal => true
  | _ => false

inductive TransactionKind where
  | spend | income | refund | investment | transfer
  deriving DecidableEq

/-- `transactionKindForEvent(event)`. -/
def transactionKindForEvent (event : Event) : Option TransactionKind :=
  if event.status = .ambiguous ∨ event.type = .unknown then none
  else if event.type = .ipoApplication ∧ ¬ (event.legs.any fun l => l.role = .debitLeg) then none
  else if event.type.isSpend then some .spend
  else if event.type.isIncome then some .income
  else if event.type = .refund then some .refund
  else if event.type = .investment ∨ event.type = .ipoApplication then some .investment
  else if event.type.isOwnTransfer ∨ event.type = .investmentWithdrawal then some .transfer
  else none

/-- Money comes in: the credit leg is the one that counts. -/
def EventType.isInward (type : EventType) : Bool :=
  type.isIncome || type = .refund || type = .investmentWithdrawal

/-- The facts by their id. -/
abbrev FactMap := InsertionMap JsString LedgerFact

/-- The legs that move money, with their facts. -/
def movementsOf (event : Event) (facts : FactMap) : List (EventLeg × LedgerFact) :=
  event.legs.filterMap fun leg =>
    ((facts.get? leg.factId).filter fun f => leg.role.isMoney && f.isMovement && !f.evidenceOnly).map
      fun f => (leg, f)

/-- The first movement in a direction. -/
def movementIn (direction : Direction) (movements : List (EventLeg × LedgerFact)) :
    Option LedgerFact :=
  (movements.find? fun m => m.2.direction? = some direction).map (·.2)

/-! ### The rows of an event -/

/-- `instrumentForFact(fact, instruments)`. -/
def instrumentForFact (fact : LedgerFact) (instruments : InsertionMap JsString OwnInstrument)
    (instrumentIdByFactId : InsertionMap JsString JsString) : Option OwnInstrument :=
  match instrumentIdByFactId.get? fact.factId with
  | some resolved => instruments.get? resolved
  | none =>
    match fact.instrument with
    | none => none
    | some m =>
      match m.issuerSlug with
      | none => none
      | some slug =>
        match instruments.values.filter fun i => i.issuerSlug = slug &&
            (m.kind.isNone || some i.kind = m.kind) &&
            (m.maskDigits.isNone || i.maskDigits = m.maskDigits) with
        | [i] => some i
        | _ => none

/-- `MerchantKeyer`, with `normalizeMerchantText` and the digest of an entry id. -/
structure MerchantKeyer where
  keyFor : Option Counterparty → Option JsString
  personRuleKey : Option Counterparty → Option JsString
  normalizeMerchantText : JsString → JsString
  sha256 : JsString → JsString

/-- What `DefaultLedgerProjector` is made with. -/
structure Projector where
  categoryByEvent : InsertionMap JsString CategoryDecision
  instrumentIdByFactId : InsertionMap JsString JsString
  keyer : MerchantKeyer

namespace Projector

variable (projector : Projector)

/-- `own(fact, fallback)`. -/
def own (instruments : InsertionMap JsString OwnInstrument) (fact : Option LedgerFact)
    (fallback : InstrumentKind) : LedgerEndpoint :=
  match fact.bind fun f => instrumentForFact f instruments projector.instrumentIdByFactId with
  | none => .ownUnresolved (((fact.bind (·.instrument)).bind (·.kind)).getD fallback)
  | some instrument => .instrument instrument.instrumentId

/-- The name of the counterparty of the anchor, normalised. -/
def counterpartyKey (counterparty : Option Counterparty) : JsString :=
  let key := (projector.keyer.keyFor counterparty).getD
    ((projector.keyer.personRuleKey counterparty).getD
      (projector.keyer.normalizeMerchantText
        (((counterparty.bind (·.name)).or (counterparty.bind (·.vpa))).getD (js "UNKNOWN"))))
  if key = [] then js "UNKNOWN" else key

/-- `uniqueTarget(kind)`: the only instrument of a kind that the anchor names. -/
def uniqueTarget (instruments : InsertionMap JsString OwnInstrument) (anchor : LedgerFact)
    (kind : InstrumentKind) : Option OwnInstrument :=
  let normalize := projector.keyer.normalizeMerchantText
  let name := normalize (((anchor.counterparty.bind (·.name))).getD [])
  let mask := anchor.counterparty.bind (·.accountMask)
  match instruments.values.filter fun i =>
      i.kind = kind && i.status ≠ .rejected &&
        (!anchor.byUser || name = [] || name = normalize i.issuerSlug ||
          name = normalize i.displayName) &&
        (if mask.isSome then i.maskDigits = mask
        else name ≠ [] && (name = normalize i.issuerSlug || name = normalize i.displayName ||
          i.productNames.any fun n => name = normalize n)) with
  | [i] => some i
  | _ => none

/-- `project(event, factsById, instrumentsById, category)`. -/
def project (event : Event) (facts : FactMap) (instruments : InsertionMap JsString OwnInstrument)
    (category : Option CategoryDecision) : List LedgerEntry :=
  if transactionKindForEvent event = none then []
  else
    let movements := movementsOf event facts
    match movements with
    | [] => []
    | first :: _ =>
      if movements.any fun m =>
          (instrumentForFact m.2 instruments projector.instrumentIdByFactId).any
            fun i => i.status = .rejected then []
      else
        let debit := movementIn .debit movements
        let credit := movementIn .credit movements
        let inward := event.type.isInward
        let anchor := (if inward then credit else debit).getD first.2
        match anchor.amount .posted with
        | none => []
        | some posted =>
          if posted.unit ≠ js "INR" ∨ posted.minor ≤ 0 then []
          else
            let external := LedgerEndpoint.external (projector.counterpartyKey anchor.counterparty)
            let transfer := event.type.isOwnTransfer
            let spend := event.type.isSpend
            let refund : Bool := event.type = .refund
            let investment : Bool := event.type = .investment || event.type = .ipoApplication ||
              event.type = .investmentWithdrawal
            let fallbackTarget : InstrumentKind :=
              if event.type = .cardBillPayment then .creditCard
              else if event.type = .walletTopup then .wallet
              else .bankAccount
            let broker :=
              if investment then projector.uniqueTarget instruments anchor .broker else none
            let destination :=
              if transfer && credit.isNone then
                projector.uniqueTarget instruments anchor fallbackTarget
              else none
            let brokerOr : LedgerEndpoint := match broker with
              | none => external
              | some i => .instrument i.instrumentId
            let amount :=
              if event.type = .ipoApplication then
                (((movements.filter fun m =>
                  m.1.role = .debitLeg && m.2.direction? = some .debit).flatMap fun m =>
                    m.2.amounts.filter fun a => a.role = .posted && a.unit = js "INR").map
                  (·.minor)).sum
              else posted.minor
            let decision := category.getD
              { slug := js "other", source := .fallback, confidence := 0 }
            [{ entryId := projector.keyer.sha256 (event.eventId ++ js "|0")
               eventId := event.eventId
               «from» :=
                 if transfer then projector.own instruments debit .bankAccount
                 else if inward then brokerOr
                 else projector.own instruments (some anchor) .bankAccount
               «to» :=
                 if transfer then
                   match destination with
                   | none => projector.own instruments credit fallbackTarget
                   | some i => .instrument i.instrumentId
                 else if inward then projector.own instruments (some anchor) .bankAccount
                 else brokerOr
               amountMinor := amount
               unit := .inr
               occurredAt := event.occurredAt
               category := if spend || refund then some decision.slug else none
               categorySource := if spend || refund then some decision.source else none
               countsAsTransaction := !transfer
               isSpend := spend
               isIncome := event.type.isIncome
               isInvestment := investment }]

end Projector

/-! ### Totals -/

structure Totals where
  spendMinor : ℤ
  refundMinor : ℤ
  incomeMinor : ℤ
  investmentMinor : ℤ
  transactionCount : ℕ
  byCategory : InsertionMap JsString ℤ

/-- What the loop of `totals` has added up. -/
structure Running where
  spend : ℤ := 0
  refunds : ℤ := 0
  income : ℤ := 0
  investment : ℤ := 0
  counts : InsertionMap JsString Unit := .empty
  byCategory : InsertionMap JsString ℤ := .empty

/-- `byCategory.update(category, (v) => v + amount, ifAbsent: () => amount)`. -/
def addToCategory (byCategory : InsertionMap JsString ℤ) (category : JsString) (amount : ℤ) :
    InsertionMap JsString ℤ :=
  byCategory.set category ((byCategory.get? category).getD 0 + amount)

/-- `purchaseByFact`: the spend event that a fact is a money leg of. -/
def purchaseByFact (events : List Event) : InsertionMap JsString JsString :=
  indexBy (·.1) (·.2) ((events.filter fun e => e.type.isSpend).flatMap fun e =>
    (e.legs.filter fun l => l.role.isMoney).map fun l => (l.factId, e.eventId))

/-- `categories`: the category of the rows of an event. -/
def categoriesOf (rows : List LedgerEntry) : InsertionMap JsString JsString :=
  indexBy (·.1) (·.2) (rows.filterMap fun e => e.category.map fun c => (e.eventId, c))

/-- The category that the amount of a refund is taken from. -/
def refundCategory (categoryByEvent : InsertionMap JsString CategoryDecision)
    (purchases categories : InsertionMap JsString JsString) (event : Event) (row : LedgerEntry) :
    JsString :=
  let original := event.legs.findSome? fun l =>
    if l.role = .original then (purchases.get? l.factId).bind categories.get? else none
  ((original.or row.category).or ((categoryByEvent.get? event.eventId).map (·.slug))).getD (js "other")

/-- A row of a period counts. -/
def inPeriod (start stop : ℤ) (event : Event) (row : LedgerEntry) : Bool :=
  event.status ≠ .ambiguous && event.type ≠ .unknown && row.unit = .inr &&
    start ≤ row.occurredAt && row.occurredAt < stop

/-- A row that counts is added up. -/
def Running.add (categoryOfRefund : Event → LedgerEntry → JsString) (acc : Running) (event : Event)
    (row : LedgerEntry) : Running :=
  let acc := if row.countsAsTransaction then { acc with counts := acc.counts.set row.eventId () } else acc
  let acc := if row.isSpend then { acc with
      spend := acc.spend + row.amountMinor
      byCategory := addToCategory acc.byCategory (row.category.getD (js "other")) row.amountMinor }
    else acc
  let acc := if event.type = .refund then { acc with
      refunds := acc.refunds + row.amountMinor
      spend := acc.spend - row.amountMinor
      byCategory := addToCategory acc.byCategory (categoryOfRefund event row) (-row.amountMinor) }
    else acc
  let acc := if row.isIncome then { acc with income := acc.income + row.amountMinor } else acc
  if row.isInvestment then { acc with
    investment := acc.investment +
      if event.type = .investmentWithdrawal then -row.amountMinor else row.amountMinor }
  else acc

/-- The body of the loop over the rows. -/
def Running.step (eventsById : InsertionMap JsString Event)
    (categoryOfRefund : Event → LedgerEntry → JsString) (start stop : ℤ) (acc : Running)
    (row : LedgerEntry) : Running :=
  match eventsById.get? row.eventId with
  | none => acc
  | some event => if inPeriod start stop event row then acc.add categoryOfRefund event row else acc

/-- `totals(entries, events, from, to)`. The error is the one of a period that ends before it begins. -/
def totals (categoryByEvent : InsertionMap JsString CategoryDecision) (entries : List LedgerEntry)
    (events : List Event) (start stop : ℤ) : Except String Totals :=
  if stop < start then .error "to precedes from"
  else
    let rows := (indexBy (·.entryId) id entries).values
    let eventsById := indexBy (·.eventId) id events
    let acc := rows.foldl (Running.step eventsById (refundCategory categoryByEvent
      (purchaseByFact eventsById.values) (categoriesOf rows)) start stop) {}
    .ok {
      spendMinor := acc.spend
      refundMinor := acc.refunds
      incomeMinor := acc.income
      investmentMinor := acc.investment
      transactionCount := acc.counts.size
      byCategory := acc.byCategory }

end PandaPay.SmsV2
