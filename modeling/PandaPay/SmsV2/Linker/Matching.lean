import PandaPay.SmsV2.Contract
import PandaPay.Json.Value

/-!
# What the linker asks about facts

The tests of `rule_driven_linker.dart` that look at facts, rules and the context of a call, but at
no event: whether a fact matches a leg, whether two facts can be legs of one event, and what a fact
becomes on its own. The caches of the source are left out.

## Main definitions

* `LinkRuleKind`, `LinkRule.kind`
* `Env`: what a call is made with
* `legMatches`, `amountOk`, `pairOk`, `standsAlone`, `fallback`: the tests
* `build`: the event that legs make
-/

namespace PandaPay.SmsV2

/-! ### Rules -/

/-- What a link rule means to the matching code. -/
inductive LinkRuleKind where
  | ipo | mandateCharge | cardBill | walletTopup | refund | ownTransfer | receipt
  | duplicateNotice | feeCharge | generic
  deriving DecidableEq

namespace LinkRule

/-- `linkRuleKindOf`. -/
def kind (rule : LinkRule) : LinkRuleKind :=
  match rule.legs.find? fun leg => leg.role = .duplicateNotice with
  | some leg => if leg.pattern.evidenceOnly = some true then .receipt else .duplicateNotice
  | none =>
    if rule.eventType = .fee ∧ rule.legs.any (fun l => l.role = .charge) ∧
        rule.legs.any (fun l => l.role = .original) then .feeCharge
    else
      match rule.eventType with
      | .ipoApplication => .ipo
      | .subscriptionCharge => .mandateCharge
      | .cardBillPayment => .cardBill
      | .walletTopup => .walletTopup
      | .refund => .refund
      | .ownTransfer => .ownTransfer
      | _ => .generic

/-- The first leg with a role. -/
def legOf (rule : LinkRule) (role : LegRole) : Option LinkLeg :=
  rule.legs.find? fun l => l.role = role

/-- `rule.join.amountTolerancePct ?? 0`. -/
def tolerance (rule : LinkRule) : ℚ := rule.join.amountTolerancePct.getD 0

/-- The order in which rules are tried. -/
def before (a b : LinkRule) : Prop := b.priority < a.priority ∨ a.priority = b.priority ∧ a.id ≤ b.id

instance : DecidableRel before := fun a b => by
  unfold before
  infer_instance

end LinkRule

/-- Debit purposes a mandate can charge. -/
def mandateChargePurposes : List MovementPurpose := [.purchase, .unknown, .billPayment, .p2p]

/-- `_moneyRoles`. -/
def moneyRoles : List LegRole := [.debitLeg, .creditLeg, .charge, .reversal]

/-! ### A call -/

/-- A payee of top-ups; its patterns are the predicates they stand for. -/
structure TopupTarget where
  vpa : Option (JsString → Bool)
  name : Option (JsString → Bool)
  issuerSlug : JsString

/-- A `RuleDrivenLinker`, and the case mapping of the platform. -/
structure Linker where
  partialWalletIssuers : List JsString := []
  topups : List TopupTarget := []
  toUpperCase : JsString → JsString

/-- What only a `RuleLinkContext` has. -/
structure RuleLinkPart where
  instrumentIdByFactId : InsertionMap JsString JsString := .empty
  knownEvents : List Event := []

/-- A `LinkContext`, or a `RuleLinkContext`. -/
structure LinkContext where
  recentFacts : List Fact
  openEvents : List Event
  instrumentsById : InsertionMap JsString Instrument
  rulePart : Option RuleLinkPart

/-- What a call is made with: the context, the sorted rules and the facts by id. -/
structure Env where
  linker : Linker
  context : LinkContext
  rules : List LinkRule
  now : ℤ
  facts : InsertionMap JsString Fact

namespace Fact

/-! ### Amounts, times and references -/

/-- The amount a fact moves, with its unit. -/
def priced (f : Fact) : Option Amount :=
  match f.attrs with
  | .movement .. => f.amount .posted
  | .hold .. => (f.amount .held).or (f.amount .released)
  | .mandate .. => f.amount .ceiling
  | .attempt => (f.amount .posted).or (f.amount .scheduled)
  | _ => none

/-- The rupee amount a fact moves. -/
def principal (f : Fact) : Option ℤ :=
  match f.priced with
  | some a => if a.unit = js "INR" then some a.minor else none
  | none => none

/-- `_latest`. -/
def latest (f : Fact) : ℤ := max f.effectiveAt f.observedAt

/-- The smaller of the printed-time and the received-time distances. -/
def distance (a b : Fact) : ℤ :=
  min |a.effectiveAt - b.effectiveAt| |a.observedAt - b.observedAt|

/-- `_within`. -/
def within (a b : Fact) (window : ℤ) : Bool := distance a b ≤ window

/-- `_refs`. -/
def refs (f : Fact) : List JsString := f.references.map Prod.snd ++ f.mandateRef.toList

/-- Both carry the same kind of reference and the values differ. -/
def conflictingRefs (a b : Fact) : Bool :=
  a.references.any fun e => b.references.any fun e' => e'.1 = e.1 ∧ e'.2 ≠ e.2

def sharesRef (a b : Fact) : Bool := b.refs.any fun r => r ∈ a.refs

/-- `_order`: by time, then by id. -/
def orderLe (a b : Fact) : Prop :=
  a.effectiveAt < b.effectiveAt ∨ a.effectiveAt = b.effectiveAt ∧ a.factId ≤ b.factId

instance : DecidableRel orderLe := fun a b => by
  unfold orderLe
  infer_instance

/-- `_arrival`: by the time of receipt, then by id. -/
def arrivalLe (a b : Fact) : Prop :=
  a.observedAt < b.observedAt ∨ a.observedAt = b.observedAt ∧ a.factId ≤ b.factId

instance : DecidableRel arrivalLe := fun a b => by
  unfold arrivalLe
  infer_instance

/-! ### Names -/

/-- The other side's name. -/
def party (f : Fact) : Option JsString :=
  let named := f.counterparty.bind Counterparty.name
  let name :=
    match f.attrs with
    | .mandate _ merchantName _ _ => merchantName.or named
    | .hold _ _ issueName => issueName.or named
    | _ => named
  match name.filter fun s => trim s ≠ [] with
  | some s => some s
  | none =>
    match f.counterparty.bind Counterparty.vpa with
    | some vpa => if vpa.any (·.val = 64) then some (vpa.takeWhile (·.val ≠ 64)) else none
    | none => none

/-- One-time and IPO mandates. -/
def isIpoMandate (f : Fact) : Bool :=
  match f.attrs with
  | .mandate _ _ oneTime mandatePurpose => oneTime = some true || mandatePurpose = some .ipo
  | _ => false

/-- Mandates for investments and loans. -/
def isSipOrLoan (f : Fact) : Bool :=
  match f.attrs with
  | .mandate _ _ _ mandatePurpose => mandatePurpose = some .sip || mandatePurpose = some .loan
  | _ => false

/-- `phase` of a mandate. -/
def mandatePhase (f : Fact) : Option MandatePhase :=
  match f.attrs with
  | .mandate phase _ _ _ => some phase
  | _ => none

/-- The purpose a leg compares. -/
def legPurpose (f : Fact) : Option Purpose :=
  match f.attrs with
  | .movement _ purpose _ _ => some (.movement purpose)
  | .hold _ purpose _ => some (.hold purpose)
  | _ => none

/-- `phase` of a hold. -/
def holdPhase (f : Fact) : Option HoldPhase :=
  match f.attrs with
  | .hold phase _ _ => some phase
  | _ => none

end Fact

/-- `_noise`. -/
def noise : List JsString :=
  [js "LTD", js "LIMITED", js "PVT", js "PRIVATE", js "IPO", js "INDIA", js "IN", js "THE",
    js "CO", js "INC"]

/-- The character class `[A-Z0-9]`. -/
def isNameUnit (c : CodeUnit) : Bool := (48 ≤ c.val ∧ c.val ≤ 57) ∨ (65 ≤ c.val ∧ c.val ≤ 90)

/-- The keys names are indexed by: `T:` the first word, `P:` the first five letters, `R:` a
reference. -/
inductive PartyKey where
  | token (word : JsString)
  | compact (letters : JsString)
  | reference (value : JsString)
  deriving DecidableEq

namespace Env

variable (env : Env)

/-- The words `_key` joins with blanks. -/
def key (name : Option JsString) : List JsString :=
  match name with
  | none => []
  | some s => ((env.linker.toUpperCase s).splitOnP fun c => !isNameUnit c).filter fun t =>
      t ≠ [] ∧ t ∉ noise

/-- Index keys under which two names that `sameParty` would match share one. -/
def partyKeys (name : Option JsString) : List PartyKey :=
  match env.key name with
  | [] => []
  | word :: words => [.token word, .compact ((word :: words).flatten.take 5)]

/-- `_sameParty`. -/
def sameParty (a b : Option JsString) : Bool :=
  match env.key a, env.key b with
  | x :: xs, y :: ys =>
    let cx := (x :: xs).flatten
    let cy := (y :: ys).flatten
    cx = cy || (5 ≤ cx.length && 5 ≤ cy.length && (cy.isPrefixOf cx || cx.isPrefixOf cy)) ||
      (4 ≤ x.length && x = y)
  | _, _ => false

def namesCompatible (a b : Option JsString) : Bool :=
  env.key a = [] || env.key b = [] || env.sameParty a b

/-! ### Instruments -/

/-- The instrument of a fact: the one it resolved to, else the only one its mention fits. -/
def inst (f : Fact) : Option Instrument :=
  match env.context.rulePart.bind fun p => p.instrumentIdByFactId.get? f.factId with
  | some id => env.context.instrumentsById.get? id
  | none =>
    match f.instrument with
    | none => none
    | some m =>
      if m.issuerSlug = none ∨ (m.maskDigits = none ∧ m.kind = none) then none
      else
        match env.context.instrumentsById.values.filter fun i =>
          some i.issuerSlug = m.issuerSlug ∧ i.status ≠ .rejected ∧
            (m.kind = none ∨ m.kind = some i.kind) ∧
            (m.maskDigits = none ∨ i.maskDigits = m.maskDigits) with
        | [i] => some i
        | _ => none

def instId (f : Fact) : Option JsString := (env.inst f).map Instrument.instrumentId

def instKind (f : Fact) : Option InstrumentKind :=
  ((env.inst f).map Instrument.kind).or (f.instrument.bind InstrumentMention.kind)

/-- The issuer of the instrument of a fact, or the one it mentions. -/
def issuerSlug (f : Fact) : Option JsString :=
  ((env.inst f).map Instrument.issuerSlug).or (f.instrument.bind InstrumentMention.issuerSlug)

def sameInstrument (a b : Fact) : Bool := (env.instId a).isSome && env.instId a = env.instId b

end Env

/-- `_maskMatch`. -/
def maskMatch (a b : JsString) : Bool := b.isSuffixOf a || a.isSuffixOf b

/-- The destination named by a mask is the instrument with the other, or one is not known. -/
def maskOk (mask instrumentMask : Option JsString) : Bool :=
  match mask, instrumentMask with
  | some a, some b => maskMatch a b
  | _, _ => true

namespace Env

variable (env : Env)

/-- `_ownMask`: the mask is that of another bank account of the user. -/
def ownMask (mask : Option JsString) (f : Fact) : Bool :=
  match mask with
  | none => false
  | some mask => env.context.instrumentsById.values.any fun i =>
      i.kind = .bankAccount && i.status ≠ .rejected && some i.instrumentId ≠ env.instId f &&
        (match i.maskDigits with
          | some digits => maskMatch mask digits
          | none => false)

/-- `_isOwnDebit`; `_isOwnCredit` is the same. -/
def isOwn (f : Fact) : Bool :=
  f.counterparty.bind Counterparty.kind = some .own ||
    env.ownMask (f.counterparty.bind Counterparty.accountMask) f

/-- Whether a pattern is there and matches a text that is there. -/
def hits (pattern : Option (JsString → Bool)) (text : Option JsString) : Bool :=
  match pattern, text with
  | some p, some s => p s
  | _, _ => false

/-- `_topupIssuer`. -/
def topupIssuer (f : Fact) : Option JsString :=
  match f.counterparty with
  | none => none
  | some cp => (env.linker.topups.find? fun t => hits t.vpa cp.vpa || hits t.name cp.name).map
      TopupTarget.issuerSlug

/-- `_isPartialWalletFact`: wallet activity only. -/
def isPartialWalletFact (f : Fact) : Bool :=
  match env.issuerSlug f with
  | none => false
  | some issuer => issuer ∈ env.linker.partialWalletIssuers &&
      (env.instKind f = none || env.instKind f = some .wallet)

/-- `_intoPartialWallet`. -/
def intoPartialWallet (legs : List EventLeg) : Bool :=
  legs.any fun l =>
    match env.facts.get? l.factId with
    | none => false
    | some f =>
      f.purpose? = some .walletTopup &&
        (match if f.direction? = some .debit then env.topupIssuer f else env.issuerSlug f with
          | some issuer => issuer ∈ env.linker.partialWalletIssuers
          | none => false)

/-! ### Tests -/

/-- `_legMatches`. -/
def legMatches (rule : LinkRule) (leg : LinkLeg) (f : Fact) : Bool :=
  let m := leg.pattern
  (m.factType = none || m.factType = some f.factType) &&
  (m.direction = none || (f.isMovement && f.direction? = m.direction)) &&
  (match m.purpose with
    | none => true
    | some purposes =>
      match f.legPurpose with
      | some p => p ∈ purposes
      | none => false) &&
  (match m.instrumentKind with
    | none => true
    | some kinds =>
      match env.instKind f with
      | some k => k ∈ kinds
      | none => false) &&
  (match m.phase with
    | none => true
    | some phases =>
      match f.holdPhase with
      | some p => p ∈ phases
      | none => false) &&
  (m.evidenceOnly = none || m.evidenceOnly = some f.evidenceOnly) &&
  (if rule.kind = .mandateCharge ∧ leg.role = .charge then
    f.direction? = some .debit &&
      (match f.purpose? with
        | some p => p ∈ mandateChargePurposes
        | none => false) &&
      (f.mandateRef.isSome || f.party.isSome)
  else true)

/-- `_isReference`. -/
def isReference (role : LegRole) : Bool := role = .holdPlaced || role = .original

/-- `_amountOk`. -/
def amountOk (rule : LinkRule) (role : LegRole) (f : Fact) (otherRole : LegRole) (g : Fact) : Bool :=
  match f.priced, g.priced with
  | some pa, some pb =>
    if pa.unit ≠ pb.unit then rule.tolerance ≥ 100 ∧ rule.kind ≠ .refund
    else if rule.tolerance ≥ 100 then
      if isReference otherRole then pa.minor ≤ pb.minor
      else if isReference role then pb.minor ≤ pa.minor
      else true
    else if rule.tolerance = 0 then pa.minor = pb.minor
    else (|pa.minor - pb.minor| : ℚ) * 100 ≤ (max pa.minor pb.minor : ℤ) * rule.tolerance
  | _, _ => rule.tolerance ≥ 100

/-- `_debitCredit`. -/
def debitCredit (role : LegRole) (f g : Fact) : Fact × Fact :=
  if role = .debitLeg then (f, g) else (g, f)

/-- `_pairOk`, on the totals already refunded. -/
def pairOk (refunded : InsertionMap JsString ℤ) (rule : LinkRule) (role : LegRole) (f : Fact)
    (otherRole : LegRole) (g : Fact) : Bool :=
  let (d, c) := debitCredit role f g
  let mask (x : Fact) := x.counterparty.bind Counterparty.accountMask
  let digits (x : Fact) := (env.inst x).bind Instrument.maskDigits
  match rule.kind with
  | .cardBill => !env.sameInstrument d c && maskOk (mask d) (digits c)
  | .walletTopup =>
    match env.topupIssuer d, env.issuerSlug c with
    | some target, some into => target = into
    | _, _ => true
  | .ownTransfer => !env.sameInstrument d c && maskOk (mask d) (digits c) &&
      maskOk (mask c) (digits d) && (env.isOwn d || env.isOwn c)
  | .refund =>
    let refund := if otherRole = .original then f else g
    let purchase := if otherRole = .original then g else f
    (env.instId refund).isSome && env.instId refund = env.instId purchase &&
      env.namesCompatible refund.party purchase.party &&
      !(purchase.effectiveAt > refund.effectiveAt && purchase.observedAt > refund.observedAt) &&
      (match purchase.principal with
        | some cap => (refunded.get? purchase.factId).getD 0 + refund.principal.getD 0 ≤ cap
        | none => true)
  | .ipo =>
    (match env.instId f, env.instId g with
      | some x, some y => x = y
      | _, _ => true) && env.namesCompatible f.party g.party
  | _ => true

/-- `_standsAlone`. -/
def standsAlone (rule : LinkRule) (role : LegRole) (f : Fact) : Bool :=
  match rule.kind with
  | .cardBill | .walletTopup => role = .debitLeg || role = .creditLeg
  | .ipo => role = .holdPlaced
  | .ownTransfer => (role = .debitLeg || role = .creditLeg) && env.isOwn f
  | .mandateCharge | .refund | .receipt | .duplicateNotice | .feeCharge => false
  | .generic => (rule.legs.head?.map LinkLeg.role) = some role &&
      (role = .debitLeg || role = .creditLeg || role = .holdPlaced)

/-! ### Events -/

/-- `_typeFor`. -/
def typeFor (rule : LinkRule) (legs : List EventLeg) : EventType :=
  if rule.eventType = .walletTopup ∧ env.intoPartialWallet legs then .purchase else rule.eventType

/-- The type of a movement on its own. -/
def movementType (f : Fact) (debit : Bool) (purpose : MovementPurpose) : EventType :=
  match purpose with
  | .purchase => if debit then .purchase else .unknown
  | .p2p => if debit then .p2pOut else .p2pIn
  | .salary | .interest => if debit then .unknown else .income
  | .refund | .reversal => if debit then .unknown else .refund
  | .cashback => if debit then .unknown else .cashback
  | .atm => if debit then .atmWithdrawal else .unknown
  | .fee => if debit then .fee else .refund
  | .emi => if debit then .emi else .unknown
  | .billPayment => if debit then .billPayment else .refund
  | .tax => if debit then .billPayment else .income
  | .cardPayment => .cardBillPayment
  | .walletTopup =>
    if env.intoPartialWallet [⟨f.factId, if debit then .debitLeg else .creditLeg⟩] then .purchase
    else .walletTopup
  | .investment => if debit then .investment else .investmentWithdrawal
  | .dividend => if debit then .unknown else .dividend
  | .transfer =>
    if debit then (if env.isOwn f then .ownTransfer else .p2pOut)
    else (if env.isOwn f then .ownTransfer else .p2pIn)
  | .unknown => .unknown

/-- `_fallback`: a one-fact event typed by purpose and direction. -/
def fallback (f : Fact) : Option (EventType × LegRole × EventStatus) :=
  match f.attrs with
  | .movement direction purpose mandateRef evidenceOnly =>
    let debit : Bool := direction = .debit
    if evidenceOnly = some true then none
    else if debit ∧ mandateRef.isSome ∧ purpose ∈ mandateChargePurposes then
      some (.subscriptionCharge, .charge, .complete)
    else some (env.movementType f debit purpose, if debit then .debitLeg else .creditLeg, .complete)
  | .hold phase purpose _ =>
    if purpose ≠ .ipoAsba ∧ purpose ≠ .upiMandateBlock then none
    else
      match phase with
      | .placed => some (.ipoApplication, .holdPlaced, .awaitingLeg)
      | .released => some (.ipoApplication, .holdReleased, .complete)
      | .converted => some (.ipoApplication, .holdConverted, .awaitingLeg)
  | _ => none

/-- The facts of the legs that have one of the roles. -/
def legFacts (roles : List LegRole) (legs : List EventLeg) : List Fact :=
  (legs.filter fun l => l.role ∈ roles).filterMap fun l => env.facts.get? l.factId

/-- `_statusFor`. -/
def statusFor (rule : LinkRule) (legs : List EventLeg) : EventStatus :=
  if rule.kind ≠ .ipo then .complete
  else
    let minorOf (role : AmountRole) (f : Fact) := ((f.amount role).map Amount.minor).or f.principal
    let held := (env.legFacts [.holdPlaced] legs).getLast?.bind (minorOf .held)
    let debited := ((env.legFacts [.debitLeg] legs).map fun f => f.principal.getD 0).sum
    let released := ((env.legFacts [.holdReleased] legs).map fun f =>
      (minorOf .released f).getD 0).sum
    match held with
    | none => if env.legFacts [.debitLeg, .holdReleased] legs = [] then .awaitingLeg else .complete
    | some held => if debited + released ≥ held then .complete else .awaitingLeg

/-- The earliest fact; of several with the same time, the first. -/
def earliest : List Fact → Option Fact
  | [] => none
  | f :: fs =>
    some (fs.foldl (fun money g => if g.effectiveAt < money.effectiveAt then g else money) f)

/-- `_build`: amount and time from the earliest money leg (for an IPO, the debits only). -/
def build (eventId : JsString) (type : EventType) (status : EventStatus) (legs : List EventLeg)
    (ruleId : Option JsString) (prior : Option Event := none) : Event :=
  let debits := env.legFacts [.debitLeg] legs
  let money := earliest (if type = .ipoApplication then debits else env.legFacts moneyRoles legs)
  let anchor := env.facts.get? eventId
  let seen := legs.filterMap fun l => env.facts.get? l.factId
  let confidence :=
    if seen = [] then (prior.map Event.confidence).getD 0
    else seen.foldl (fun c f => min f.confidence c) 1
  { eventId := eventId
    type := type
    status := status
    legs := legs
    linkRuleId := ruleId
    confidence := max 0 (min confidence 1)
    occurredAt := (((money.map Fact.effectiveAt).or (prior.map Event.occurredAt)).or
      (anchor.map Fact.effectiveAt)).getD env.now
    amountMinor :=
      if type = .ipoApplication then (debits.map fun f => f.principal.getD 0).sum
      else
        match money with
        | some f => (f.principal.or (prior.map Event.amountMinor)).getD 0
        | none => ((prior.map Event.amountMinor).or (anchor.bind Fact.principal)).getD 0 }

end Env

end PandaPay.SmsV2
