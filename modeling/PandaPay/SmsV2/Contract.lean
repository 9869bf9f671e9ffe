import PandaPay.Json.Value
import PandaPay.Library.InsertionMap

/-!
# Facts, events and link rules

The values of `packages/pandapay_domain/lib/src/sms_v2/contract` that the event linker reads and
writes. A time is its number of microseconds. Fields that the linker does not read are left out.

## Main definitions

* `Fact`: one thing a message states
* `Event`, `EventLeg`: one real-world thing, and the facts that state it
* `LinkRule`, `Instrument`
-/

namespace PandaPay.SmsV2

/-! ### Enumerations -/

inductive AmountRole where
  | posted | held | released | scheduled | dueTotal | dueMinimum | outstanding | availableBalance
  | availableCredit | creditLimit | ceiling | pointsEarned | pointsRedeemed | pointsBalance
  | cashValue
  deriving DecidableEq

inductive InstrumentKind where
  | bankAccount | creditCard | debitCard | prepaidCard | wallet | broker | loan | payLater
  deriving DecidableEq

inductive InstrumentStatus where
  | detected | confirmed | rejected | archived
  deriving DecidableEq

inductive CounterpartyKind where
  | merchant | person | own | bank | unknown
  deriving DecidableEq

inductive FactType where
  | movement | attempt | hold | balanceSnapshot | limitChange | billDue | mandate | reward
  | instrumentHint | info
  deriving DecidableEq

inductive Direction where
  | debit | credit
  deriving DecidableEq

inductive MovementPurpose where
  | purchase | p2p | atm | salary | interest | refund | cashback | reversal | fee | emi
  | cardPayment | walletTopup | investment | billPayment | tax | transfer | dividend | unknown
  deriving DecidableEq

inductive HoldPhase where
  | placed | released | converted
  deriving DecidableEq

inductive HoldPurpose where
  | ipoAsba | upiMandateBlock | preauth | lien | other
  deriving DecidableEq

inductive MandatePhase where
  | created | modified | paused | resumed | revoked | expired
  deriving DecidableEq

inductive MandatePurpose where
  | ipo | subscription | bill | sip | loan | other
  deriving DecidableEq

inductive EventType where
  | purchase | refund | cashback | income | p2pOut | p2pIn | ownTransfer | cardBillPayment
  | walletTopup | investment | ipoApplication | investmentWithdrawal | dividend | atmWithdrawal
  | fee | emi | billPayment | subscriptionCharge | unknown
  deriving DecidableEq

inductive EventStatus where
  | complete | awaitingLeg | ambiguous | userConfirmed
  deriving DecidableEq

inductive LegRole where
  | debitLeg | creditLeg | holdPlaced | holdReleased | holdConverted | original | reversal | charge
  | duplicateNotice
  deriving DecidableEq

inductive ReferenceMode where
  | ignore | prefer | require
  deriving DecidableEq

inductive SingleLeg where
  | complete | awaitingLeg | review
  deriving DecidableEq

/-! ### Facts -/

/-- Original currency amount of a foreign spend. -/
structure OriginalAmount where
  minor : ℤ
  currency : JsString
  deriving DecidableEq

structure Amount where
  role : AmountRole
  minor : ℤ
  unit : JsString
  original : Option OriginalAmount := none
  deriving DecidableEq

/-- `foreign`: the foreign amount this message stated, if any. -/
def Amount.foreign (a : Amount) : Option OriginalAmount :=
  if a.unit = js "INR" then a.original
  else if a.unit = js "POINTS" then none
  else some ⟨a.minor, a.unit⟩

structure InstrumentMention where
  kind : Option InstrumentKind := none
  issuerSlug : Option JsString := none
  maskDigits : Option JsString := none
  deriving DecidableEq

structure Counterparty where
  name : Option JsString := none
  vpa : Option JsString := none
  kind : Option CounterpartyKind := none
  accountMask : Option JsString := none
  deriving DecidableEq

/-- The `attrs` of a fact, by type. -/
inductive FactAttrs where
  | movement (direction : Direction) (purpose : MovementPurpose) (mandateRef : Option JsString)
      (evidenceOnly : Option Bool)
  | attempt
  | hold (phase : HoldPhase) (purpose : HoldPurpose) (issueName : Option JsString)
  | balanceSnapshot
  | limitChange
  | billDue
  | mandate (phase : MandatePhase) (merchantName : Option JsString) (oneTime : Option Bool)
      (mandatePurpose : Option MandatePurpose)
  | reward
  | instrumentHint
  | info
  deriving DecidableEq

/-- One thing a message states. -/
structure Fact where
  factId : JsString
  sourceKey : JsString
  observedAt : ℤ
  occurredAt : Option ℤ := none
  instrument : Option InstrumentMention := none
  counterparty : Option Counterparty := none
  amounts : List Amount := []
  references : List (JsString × JsString) := []
  /-- `provenance.ruleId`. -/
  ruleId : JsString
  confidence : ℚ := 1
  attrs : FactAttrs
  deriving DecidableEq

namespace Fact

def factType (f : Fact) : FactType :=
  match f.attrs with
  | .movement .. => .movement
  | .attempt => .attempt
  | .hold .. => .hold
  | .balanceSnapshot => .balanceSnapshot
  | .limitChange => .limitChange
  | .billDue => .billDue
  | .mandate .. => .mandate
  | .reward => .reward
  | .instrumentHint => .instrumentHint
  | .info => .info

/-- The amount with a role. -/
def amount (f : Fact) (role : AmountRole) : Option Amount := f.amounts.find? fun a => a.role = role

/-- The time to use for ordering: `occurredAt`, else `observedAt`. -/
def effectiveAt (f : Fact) : ℤ := f.occurredAt.getD f.observedAt

/-- `direction` of a movement. -/
def direction? (f : Fact) : Option Direction :=
  match f.attrs with
  | .movement direction _ _ _ => some direction
  | _ => none

/-- `purpose` of a movement. -/
def purpose? (f : Fact) : Option MovementPurpose :=
  match f.attrs with
  | .movement _ purpose _ _ => some purpose
  | _ => none

/-- `mandateRef` of a movement. -/
def mandateRef (f : Fact) : Option JsString :=
  match f.attrs with
  | .movement _ _ mandateRef _ => mandateRef
  | _ => none

/-- `f is MovementFact`. -/
def isMovement (f : Fact) : Bool := f.factType = .movement

/-- `f is HoldFact && f.phase == phase`. -/
def isHold (f : Fact) (phase : HoldPhase) : Bool :=
  match f.attrs with
  | .hold p _ _ => p = phase
  | _ => false

/-- `f is MovementFact && f.evidenceOnly == true`: a receipt. -/
def evidenceOnly (f : Fact) : Bool :=
  match f.attrs with
  | .movement _ _ _ evidenceOnly => evidenceOnly = some true
  | _ => false

end Fact

/-! ### Events -/

/-- A fact's role inside an event. -/
structure EventLeg where
  factId : JsString
  role : LegRole
  deriving DecidableEq

/-- One real-world thing, possibly stated by several messages. -/
structure Event where
  eventId : JsString
  type : EventType
  status : EventStatus
  legs : List EventLeg
  linkRuleId : Option JsString
  confidence : ℚ
  occurredAt : ℤ
  amountMinor : ℤ
  deriving DecidableEq

/-! ### Rules and instruments -/

/-- A purpose a leg can ask for. The names of the two enumerations have none in common. -/
inductive Purpose where
  | movement (purpose : MovementPurpose)
  | hold (purpose : HoldPurpose)
  deriving DecidableEq

structure LinkLegMatch where
  factType : Option FactType := none
  direction : Option Direction := none
  purpose : Option (List Purpose) := none
  instrumentKind : Option (List InstrumentKind) := none
  phase : Option (List HoldPhase) := none
  evidenceOnly : Option Bool := none
  deriving DecidableEq

structure LinkLeg where
  role : LegRole
  pattern : LinkLegMatch
  deriving DecidableEq

/-- How legs are joined. The window is `_hours(windowHours)`, in microseconds. -/
structure LinkJoin where
  amountTolerancePct : Option ℚ := none
  window : ℕ
  reference : Option ReferenceMode := none
  deriving DecidableEq

structure LinkRule where
  id : JsString
  eventType : EventType
  legs : List LinkLeg
  join : LinkJoin
  singleLeg : SingleLeg
  priority : ℤ
  deriving DecidableEq

structure Instrument where
  instrumentId : JsString
  kind : InstrumentKind
  issuerSlug : JsString
  maskDigits : Option JsString
  status : InstrumentStatus
  deriving DecidableEq

end PandaPay.SmsV2
