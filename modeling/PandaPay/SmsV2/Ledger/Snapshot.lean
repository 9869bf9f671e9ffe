import PandaPay.SmsV2.Ledger.Projector

/-!
# The ledger snapshot

The category decisions of a list of events and their ledger rows. A refund takes the decision of the
purchase that owns its original fact; decisions are remembered by event, and locked ones are there
from the start. The rules of the category resolver, the merchant keys and the pattern search are
arguments.

## Main definitions

* `moneyFactForEvent`: the fact that supplies the merchant
* `ownerByFact`: the spend event of a fact
* `SnapshotContext.decide`: the decision of an event
* `SnapshotContext.project`: the decisions and the rows of a list of events
-/

namespace PandaPay.SmsV2

/-! ### Categories -/

/-- What the resolver sees of an event; the rules and the confirmed history are its own. -/
structure CategoryInput where
  counterparty : Option Counterparty
  senderBrand : JsString

/-- `DefaultCategoryResolver` with the rules it is given. -/
structure CategoryResolver where
  /-- `resolve(input)`. -/
  resolve : CategoryInput → CategoryDecision
  /-- The best rule of the user for the merchant or the payee. -/
  userRule : CategoryInput → Option CategoryDecision

/-- `_fallback`. -/
def CategoryDecision.fallback : CategoryDecision where
  slug := js "other"
  source := .fallback
  confidence := 0

/-- `categorisedEventTypes`. -/
def EventType.isCategorised : EventType → Bool
  | .purchase | .subscriptionCharge | .fee | .emi | .billPayment | .atmWithdrawal | .p2pOut
  | .refund => true
  | _ => false

/-- `decide(eventType, input, linkedPurchase)`. -/
def CategoryResolver.decide (resolver : CategoryResolver) (eventType : EventType)
    (input : CategoryInput) (linkedPurchase : Option CategoryDecision) : Option CategoryDecision :=
  if ¬ eventType.isCategorised then none
  else if eventType = .refund ∧ linkedPurchase.isSome then linkedPurchase
  else if eventType ≠ .p2pOut then some (resolver.resolve input)
  else some ((resolver.userRule input).getD .fallback)

/-! ### The bundle -/

structure CounterpartyPurpose where
  vpaPattern : Option JsString := none
  namePattern : Option JsString := none
  /-- `targetInstrument?.issuerSlug`. -/
  targetIssuer : Option JsString := none

structure SenderEntry where
  brand : JsString
  issuerSlug : Option JsString := none
  /-- `walletSpendVisibility == WalletSpendVisibility.partial`. -/
  partialWallet : Bool := false

structure ParserRule where
  id : JsString
  senders : List JsString

/-- What `LedgerSnapshot.project` is given besides the events and the locked categories. -/
structure SnapshotContext where
  factsById : FactMap
  instrumentsById : InsertionMap JsString OwnInstrument
  counterpartyPurposes : List CounterpartyPurpose
  senders : List SenderEntry
  rules : List ParserRule
  senderBySource : InsertionMap JsString JsString
  instrumentIdByFactId : InsertionMap JsString JsString
  /-- `RegExp(pattern, caseSensitive: false).hasMatch(text)`. -/
  hasMatch : JsString → JsString → Bool
  resolver : CategoryResolver
  keyer : MerchantKeyer

/-! ### Facts of an event -/

/-- The money fact supplies the merchant, never an original purchase, a mandate, a hold or a duplicate
receipt of the same event. -/
def moneyFactForEvent (event : Event) (facts : FactMap) : Option LedgerFact :=
  let candidates := movementsOf event facts
  (movementIn (if event.type.isInward then .credit else .debit) candidates).or
    (candidates.head?.map (·.2))

/-- The facts that a spend event claims: its own id, its money legs and the movements it names as
`original`. -/
def claimedBy (facts : FactMap) (event : Event) : List JsString :=
  event.eventId :: (event.legs.filter fun leg => leg.role.isMoney ||
    (leg.role = .original && (facts.get? leg.factId).any fun f => f.isMovement)).map (·.factId)

/-- `ownerByFact`: a later spend event that claims a fact replaces an earlier one. -/
def ownerByFact (facts : FactMap) (list : List Event) : InsertionMap JsString Event :=
  indexBy (·.1) (·.2) ((list.filter fun event => event.type.isSpend).flatMap fun event =>
    (claimedBy facts event).map fun id => (id, event))

/-! ### Decisions -/

/-- What `decide` remembers. -/
structure Decided where
  categories : InsertionMap JsString CategoryDecision
  counterparties : InsertionMap JsString (Option Counterparty)

namespace SnapshotContext

variable (ctx : SnapshotContext)

/-- The counterparty of the money fact. The merchant of a load of a partial wallet is the brand of the
wallet. -/
def counterpartyOf (event : Event) (fact : LedgerFact) : Option Counterparty :=
  let cp := fact.counterparty
  if event.type = .purchase ∧ fact.purpose? = some .walletTopup then
    match ctx.counterpartyPurposes.find? fun rule =>
        (rule.vpaPattern.any fun p => (cp.bind (·.vpa)).any fun vpa => ctx.hasMatch p vpa) ||
          rule.namePattern.any fun p => (cp.bind (·.name)).any fun name => ctx.hasMatch p name with
    | none => cp
    | some rule =>
      match ctx.senders.find? fun s => s.issuerSlug = rule.targetIssuer && s.partialWallet with
      | none => cp
      | some sender => some { name := some sender.brand, kind := some .merchant }
  else cp

/-- The sender that the money fact came from. -/
def senderOf (fact : LedgerFact) : JsString :=
  let rule := ctx.rules.find? fun r => r.id = fact.ruleId
  ((ctx.senderBySource.get? fact.sourceKey).or
    (rule.bind fun r => r.senders.find? fun s => s ≠ js "*")).getD []

/-- The input of the resolver. -/
def categoryInput (event : Event) (fact : LedgerFact) : CategoryInput where
  counterparty := ctx.counterpartyOf event fact
  senderBrand := ctx.senderOf fact

/-- The end of `decide`: the decision that is remembered, or the resolver's. -/
def settle (event : Event) (fact : LedgerFact) (linked : Option CategoryDecision) (st : Decided) :
    Option CategoryDecision × Decided :=
  let st := { st with
    counterparties := st.counterparties.set event.eventId (ctx.counterpartyOf event fact) }
  match st.categories.get? event.eventId with
  | some decision => (some decision, st)
  | none =>
    match ctx.resolver.decide event.type (ctx.categoryInput event fact) linked with
    | some value => (some value, { st with categories := st.categories.set event.eventId value })
    | none => (none, st)

/-- `decide` of an event that is no refund. -/
def decidePurchase (event : Event) (st : Decided) : Option CategoryDecision × Decided :=
  match moneyFactForEvent event ctx.factsById with
  | none => (none, st)
  | some fact => ctx.settle event fact none st

/-- The owner of the first original fact that has one. -/
def linkedPurchase (owners : InsertionMap JsString Event) (event : Event) : Option Event :=
  event.legs.findSome? fun leg => if leg.role = .original then owners.get? leg.factId else none

/-- `decide(event)`. The owner of a fact is a spend event, so the decision of a refund looks no further
than that of its purchase. -/
def decide (owners : InsertionMap JsString Event) (event : Event) (st : Decided) :
    Option CategoryDecision × Decided :=
  match moneyFactForEvent event ctx.factsById with
  | none => (none, st)
  | some fact =>
    match if event.type = .refund then linkedPurchase owners event else none with
    | none => ctx.settle event fact none st
    | some purchase =>
      let (linked, st) := ctx.decidePurchase purchase st
      ctx.settle event fact linked st

/-! ### Snapshots -/

structure Snapshot where
  entries : List LedgerEntry
  events : List Event
  categoryByEvent : InsertionMap JsString CategoryDecision

/-- The rows of an event. A load of a partial wallet goes to the merchant of its category. -/
def rowsOf (st : Decided) (event : Event) : List LedgerEntry :=
  let projector : Projector := {
    categoryByEvent := st.categories
    instrumentIdByFactId := ctx.instrumentIdByFactId
    keyer := ctx.keyer }
  let projected := projector.project event ctx.factsById ctx.instrumentsById
    (st.categories.get? event.eventId)
  let topup := event.type = .purchase ∧
    (moneyFactForEvent event ctx.factsById).bind (·.purpose?) = some .walletTopup
  match projected, ctx.keyer.keyFor ((st.counterparties.get? event.eventId).join) with
  | [entry], some key => if topup ∧ key ≠ [] then [{ entry with «to» := .external key }] else [entry]
  | rows, _ => rows

/-- What the decisions of a list of events leave. -/
def decideAll (lockedCategories : InsertionMap JsString CategoryDecision) (list : List Event) :
    Decided :=
  list.foldl (fun st event => (ctx.decide (ownerByFact ctx.factsById list) event st).2)
    { categories := lockedCategories, counterparties := .empty }

/-- `LedgerSnapshot.project(events, …)`. -/
def project (lockedCategories : InsertionMap JsString CategoryDecision) (list : List Event) :
    Snapshot :=
  let st := ctx.decideAll lockedCategories list
  { entries := list.flatMap (ctx.rowsOf st)
    events := list
    categoryByEvent := st.categories }

end SnapshotContext

end PandaPay.SmsV2
