import PandaPay.SmsV2.Linker.Run

/-!
# How events change

The parts of `rule_driven_linker.dart` that put an event: the joins, the facts that arrive after
those that depend on them, and the receipts.

## Main definitions

* `join`, `joinDuplicate`, `ambiguous`: what becomes of the candidates for a fact
* `lateHold`, `lateOriginal`, `lateFeeOriginal`, `lateMandate`, `lateFundingDebit`: late arrivals
* `afterMoney`, `processReceipt`: receipts
* `attachIpoMandates`
-/

namespace PandaPay.SmsV2

/-- `kReceiptConfirmedRuleId`. -/
def receiptConfirmedRuleId : JsString := js "USER-RECEIPT-CONFIRMED"

namespace Env

variable (env : Env)

/-- `_ruleById`. -/
def ruleById (id : Option JsString) : Option LinkRule :=
  id.bind fun id => env.rules.find? fun r => r.id = id

/-- `_firstOf`. -/
def firstOf (kind : LinkRuleKind) : Option LinkRule := env.rules.find? fun r => r.kind = kind

end Env

section Joins

variable (env : Env) (s : Run)

/-! ### Joins -/

/-- The legs of an event a fact joins: the leg of a one-leg event made without a rule takes the role
the rule gives it. -/
def joinedLegs (e : Event) (c : Cand) (newLeg : EventLeg) : List EventLeg :=
  e.legs.map (fun l =>
    if e.linkRuleId = none ∧ e.legs.length = 1 ∧ l.factId = c.fact.factId then ⟨l.factId, c.role⟩
    else l) ++ [newLeg]

/-- The event `e` with the fact `f` joined to it. -/
def joinedEvent (rule : LinkRule) (role : LegRole) (f : Fact) (c : Cand) (e : Event) : Event :=
  let legs := joinedLegs e c ⟨f.factId, role⟩
  env.build e.eventId (env.typeFor rule legs) (env.statusFor rule legs) legs (some rule.id) (some e)

/-- The legs of the event of two facts. A shared reference never anchors, otherwise the fact seen
first does. -/
def pairLegsOf (role : LegRole) (f : Fact) (c : Cand) : List EventLeg :=
  if c.role = .original then [⟨f.factId, role⟩, ⟨c.fact.factId, c.role⟩]
  else [⟨c.fact.factId, c.role⟩, ⟨f.factId, role⟩]

/-- The event two facts make. -/
def pairEvent (rule : LinkRule) (role : LegRole) (f : Fact) (c : Cand) : Event :=
  let legs := pairLegsOf role f c
  env.build (if c.role = .original then f.factId else c.fact.factId) (env.typeFor rule legs)
    (env.statusFor rule legs) legs (some rule.id)

/-- `_join`, and the event's id. -/
def join (rule : LinkRule) (role : LegRole) (f : Fact) (c : Cand) : Run × JsString :=
  match c.eventId with
  | some eventId =>
    match s.events.get? eventId with
    | none => (s, eventId)
    | some e =>
      let joined := joinedEvent env rule role f c e
      let s := s.put joined
      (if rule.kind = .refund then { s with refunded := countRefund env s.refunded joined } else s,
        joined.eventId)
  | none =>
    let e := pairEvent env rule role f c
    let s := s.put e
    (if rule.kind = .refund then
      { s with refunded := s.refunded.upsert c.fact.factId 0 fun v => v + f.principal.getD 0 }
    else s, e.eventId)

/-- Whether a second notice `f` takes the money leg of `g`: the notice that names the account keeps
it, else the one that comes first in time. -/
def swaps (f g : Fact) : Bool :=
  if (env.instId g).isNone ≠ (env.instId f).isNone then (env.instId g).isNone
  else f.effectiveAt < g.effectiveAt ∨ (f.effectiveAt = g.effectiveAt ∧ f.factId < g.factId)

/-- The event `e` with a second notice of the payment of `c`. -/
def duplicateEvent (rule : LinkRule) (f : Fact) (c : Cand) (e : Event) : Event :=
  let swap := swaps env f c.fact
  let legs := e.legs.map (fun l =>
    if swap ∧ l.factId = c.fact.factId then ⟨l.factId, .duplicateNotice⟩ else l) ++
      [⟨f.factId, if swap then c.role else .duplicateNotice⟩]
  let type :=
    if e.type = .unknown then ((env.fallback f).map fun fb => fb.1).getD e.type else e.type
  env.build e.eventId type e.status legs (e.linkRuleId.or (some rule.id)) (some e)

/-- `_joinDuplicate`. -/
def joinDuplicate (rule : LinkRule) (f : Fact) (c : Cand) : Run :=
  match c.eventId.bind s.events.get? with
  | none => s
  | some e => s.put (duplicateEvent env rule f c e)

/-- `_ambiguousReview`. -/
def ambiguousReview (rule : LinkRule) (f : Fact) (cands : List Cand) (eventId : Option JsString) :
    Run :=
  let review : ReviewItem := {
    reviewId := js "link:ambiguous:" ++ f.factId
    reason := "ambiguous_link"
    eventId := eventId
    factId := f.factId
    linkRuleId := rule.id
    candidates := cands.map fun c => (c.eventId, c.fact.factId, c.role) }
  { s with reviews := s.reviews.set review.reviewId review }

/-- `_ambiguous`, and the event's id. -/
def ambiguous (rule : LinkRule) (role : LegRole) (f : Fact) (cands : List Cand) : Run × JsString :=
  let legs : List EventLeg := [⟨f.factId, role⟩]
  let type :=
    if rule.kind = .receipt ∨ rule.kind = .duplicateNotice then
      ((env.fallback f).map fun fb => fb.1).getD .unknown
    else env.typeFor rule legs
  let e := env.build f.factId type .ambiguous legs (some rule.id)
  (ambiguousReview (s.put e) rule f cands (some e.eventId), e.eventId)

/-- `_singleLegReview`. -/
def singleLegReview (rule : LinkRule) (f : Fact) (e : Event) : Run :=
  let review : ReviewItem := {
    reviewId := js "link:single:" ++ f.factId
    reason := "missing_leg"
    eventId := some e.eventId
    factId := f.factId
    linkRuleId := rule.id }
  { s with reviews := s.reviews.set review.reviewId review }

/-! ### Receipts -/

/-- An event with one more notice. -/
def withNotice (rule : LinkRule) (e : Event) (r : Fact) : Event :=
  env.build e.eventId e.type e.status (e.legs ++ [⟨r.factId, .duplicateNotice⟩])
    (e.linkRuleId.or (some rule.id)) (some e)

/-- Whether a receipt may be one of the debit `f`. -/
def receiptFor (rule : LinkRule) (f r : Fact) : Bool :=
  r.isMovement && r.evidenceOnly && r.direction? = some .debit &&
    !((s.eventOfFact.get? r.factId).isSome || r.factId ∈ s.ambiguousReceipts) &&
    !(r.sourceKey = f.sourceKey || env.isPartialWalletFact r) && f.within r rule.join.window

/-- The receipt that joins the event of the debit `f`, with the rule and the event. -/
def noticeOf (f : Fact) (eventId : JsString) : Option (LinkRule × Event × Fact) :=
  if f.direction? ≠ some .debit ∨ f.evidenceOnly then none
  else
    match env.firstOf .receipt, f.principal, s.events.get? eventId with
    | some rule, some a, some e =>
      let role := (e.legs.find? fun l => l.factId = f.factId).map EventLeg.role
      if isLocked e ∨ (role ≠ some .debitLeg ∧ role ≠ some .charge) then none
      else
        let receipts := (((s.byAmount.get? a).getD []).filter (receiptFor env s rule f)).map
          fun r => (⟨none, r, .duplicateNotice⟩ : Cand)
        -- receipts never count, so the closest one is good enough
        let list := (narrow env s rule f receipts).insertionSort fun x y =>
          f.distance x.fact < f.distance y.fact ∨
            (f.distance x.fact = f.distance y.fact ∧ x.fact.factId ≤ y.fact.factId)
        list.head?.map fun c => (rule, e, c.fact)
    | _, _, _ => none

/-- `_afterMoney`: receipts already seen for a debit join its event. -/
def afterMoney (f : Fact) (eventId : JsString) : Run :=
  match noticeOf env s f eventId with
  | some (rule, e, r) => s.put (withNotice env rule e r)
  | none => s

/-- Whether the user answered that the receipt `r` is the payment `f`. -/
def confirmedReceipt (rule : LinkRule) (f r : Fact) : Bool :=
  r.isMovement && r.evidenceOnly && r.direction? = some .debit && r.sourceKey ≠ f.sourceKey &&
    f.within r rule.join.window &&
    (match s.eventOf r with
      | some e => e.status = .userConfirmed && e.legs.any fun l => l.role ∈ moneyRoles &&
          (env.facts.get? l.factId).any fun g => g.ruleId = receiptConfirmedRuleId
      | none => false)

/-- `_lateFundingDebit`. -/
def lateFundingDebit (f : Fact) : Option Run :=
  match env.firstOf .receipt, f.principal with
  | some rule, some a =>
    if ((s.byAmount.get? a).getD []).any (confirmedReceipt env s rule f) then
      some (s.put (env.build f.factId .unknown .complete [⟨f.factId, .duplicateNotice⟩]
        (some rule.id)))
    else none
  | _, _ => none

/-- The body of the loop of `_processReceipt`. -/
def receiptStep (rule : LinkRule) (f : Fact) (byEvent : InsertionMap JsString Cand) (g : Fact) :
    InsertionMap JsString Cand :=
  if g.isMovement = false ∨ g.direction? ≠ some .debit ∨ g.evidenceOnly ∨ g.factId ∉ s.processed ∨
      g.sourceKey = f.sourceKey ∨ f.within g rule.join.window = false then byEvent
  else
    match s.eventOfFact.get? g.factId with
    | none => byEvent
    | some eventId =>
      match s.events.get? eventId with
      | none => byEvent
      | some e =>
        if (byEvent.get? eventId).isSome ∨ isLocked e then byEvent
        else
          match e.legs.find? fun l => l.factId = g.factId with
          | none => byEvent
          | some l =>
            if l.role ≠ .debitLeg ∧ l.role ≠ .charge then byEvent
            else byEvent.set eventId ⟨some eventId, g, l.role⟩

/-- The debits a receipt may confirm. -/
def receiptCandidates (rule : LinkRule) (f : Fact) (a : ℤ) : List Cand :=
  narrow env s rule f (((s.byAmount.get? a).getD []).foldl (receiptStep s rule f) .empty).values

/-- `_processReceipt`: a receipt joins the debit it confirms. -/
def processReceipt (f : Fact) : Run :=
  if env.isPartialWalletFact f then s
  else
    match env.firstOf .receipt, f.principal with
    | some rule, some a =>
      match receiptCandidates env s rule f a with
      | [] => s
      | [c] =>
        match c.eventId.bind s.events.get? with
        | some e => s.put (withNotice env rule e f)
        | none => s
      | list =>
        ambiguousReview { s with ambiguousReceipts := addTo s.ambiguousReceipts f.factId } rule f
          list none
    | _, _ => s

/-! ### Late arrivals -/

/-- `_standsWithoutHold`: an event a late hold may join. -/
def standsWithoutHold (e : Event) : Bool :=
  !isLocked e && !(e.legs.any fun l => l.role = .holdPlaced || l.role = .original) &&
    (e.linkRuleId = none ||
      (match (env.ruleById e.linkRuleId).map LinkRule.kind with
        | some kind => kind = .duplicateNotice || kind = .receipt
        | none => false)) &&
    (e.legs.filter fun l => l.role ≠ .duplicateNotice).length = 1

/-- Whether a placed hold and another fact fit the rule. -/
def fitsHold (rule : LinkRule) (hold g : Fact) (role : LegRole) : Bool :=
  hold.within g rule.join.window && Env.amountOk rule .holdPlaced hold role g &&
    env.pairOk s.refunded rule .holdPlaced hold role g

/-- The role in which a fact already seen depends on the hold `f`. -/
def dependentRole (rule : LinkRule) (f g : Fact) : Option LegRole :=
  if g.factId = f.factId ∨ g.sourceKey = f.sourceKey ∨ g.factId ∉ s.processed then none
  else
    match s.eventOf g with
    | none => none
    | some e => (rule.legs.find? fun leg => leg.role ≠ .holdPlaced && leg.role ≠ .original &&
        env.legMatches rule leg g && fitsHold env s rule f g leg.role &&
        standsWithoutHold env e).map LinkLeg.role

/-- Whether an open hold other than `f` fits a dependent: the ambiguity a batch reports. -/
def otherHold (rule : LinkRule) (f g : Fact) (role : LegRole) (h : Fact) : Bool :=
  h.isHold .placed && h.factId ≠ f.factId && h.factId ∈ s.processed && h.sourceKey ≠ f.sourceKey &&
    (match s.eventOf h with
      | some e => e.status = .awaitingLeg && e.legs.length = 1
      | none => false) &&
    fitsHold env s rule h g role

/-- The facts already seen that depend on the hold `f`, oldest first. -/
def dependents (rule : LinkRule) (f : Fact) : List (Fact × LegRole) :=
  let start := f.effectiveAt - slack
  let stop := f.effectiveAt + (rule.join.window + slack)
  let pool := rangeOf s.byType .hold start stop ++ rangeOf s.byType .movement start stop
  let found := (pool.filterMap fun g => (dependentRole env s rule f g).map fun role => (g, role)
    ).insertionSort fun a b => a.1.orderLe b.1
  found.filter fun c =>
    match f.principal with
    | none => true
    | some held => c.1.principal.getD 0 ≤ held

/-- The event a late hold joins: that of the debit, else that of the first dependent. -/
def holdBase (rule : LinkRule) (f : Fact) : Option Event :=
  match dependents env s rule f with
  | [] => none
  | first :: rest =>
    if (rangeOf s.byType .hold (first.1.effectiveAt - (rule.join.window + slack))
        (first.1.effectiveAt + slack)).any (otherHold env s rule f first.1 first.2) then none
    else s.eventOf (((first :: rest).find? fun c => c.2 = .debitLeg).getD first).1

/-- The event `e` with the hold `f` it came from. -/
def heldEvent (rule : LinkRule) (f : Fact) (e : Event) : Event :=
  let legs := e.legs ++ [⟨f.factId, .holdPlaced⟩]
  env.build e.eventId (env.typeFor rule legs) (env.statusFor rule legs) legs (some rule.id) (some e)

/-- `_lateHold`. -/
def lateHold (f : Fact) : Option Run :=
  if f.isHold .placed = false then none
  else
    match env.firstOf .ipo with
    | none => none
    | some rule => (holdBase env s rule f).map fun e => s.put (heldEvent env rule f e)

/-- The facts of a list by id, the first of each. -/
def firstById (facts : List Fact) : List Fact :=
  (facts.foldl (fun (m : InsertionMap JsString Fact) g => putIfAbsent m g.factId g) .empty).values

/-- Joins the fact `f` as the `original` of the event of `g`, which has the role `role` there. -/
def joinOriginal (rule : LinkRule) (f : Fact) (role : LegRole) (s : Run) (g : Fact) : Run :=
  match s.eventOfFact.get? g.factId with
  | some eventId => (join env s rule .original f ⟨some eventId, g, role⟩).1
  | none => s

/-- Whether a refund that stands alone fits the purchase `f`. -/
def refundOf (rule : LinkRule) (reversal : LinkLeg) (f g : Fact) : Bool :=
  g.factId ≠ f.factId && g.sourceKey ≠ f.sourceKey && g.factId ∈ s.processed &&
    env.legMatches rule reversal g && f.within g rule.join.window &&
    Env.amountOk rule .original f .reversal g &&
    (match s.eventOf g with
      | some e => joinable rule e .original
      | none => false)

/-- The refunds that stand alone and fit the purchase `f`. -/
def lateRefunds (rule : LinkRule) (f : Fact) : List Fact :=
  if f.direction? ≠ some .debit ∨ f.evidenceOnly then []
  else
    match rule.legOf .original, rule.legOf .reversal, env.instId f, f.principal with
    | some leg, some reversal, some _, some _ =>
      if env.legMatches rule leg f = false then []
      else
        let pool := firstById (rangeOf s.byType .movement (f.effectiveAt - slack)
          (f.effectiveAt + (rule.join.window + slack)))
        (pool.filter (refundOf env s rule reversal f)).insertionSort Fact.orderLe
    | _, _, _, _ => []

/-- The body of the last loop of `_lateOriginal`: the running refunded total counts each join. -/
def refundStep (rule : LinkRule) (f : Fact) (s : Run) (g : Fact) : Run :=
  if env.pairOk s.refunded rule .original f .reversal g then joinOriginal env rule f .reversal s g
  else s

/-- `_lateOriginal`: a purchase that arrived after a refund of it. -/
def lateOriginal (f : Fact) : Run :=
  match env.firstOf .refund with
  | none => s
  | some rule => (lateRefunds env s rule f).foldl (refundStep env rule f) s

/-- Whether a fee that stands alone was charged on the transaction `p`. -/
def feeOf (rule : LinkRule) (chargeLeg : LinkLeg) (p g : Fact) : Bool :=
  g.sourceKey ≠ p.sourceKey && g.factId ∈ s.processed && env.legMatches rule chargeLeg g &&
    (match s.eventOf g with
      | some e => e.type = .fee && joinable rule e .original
      | none => false) &&
    (feeTransaction env s rule g (some p)).map Fact.factId = some p.factId

/-- The fees that stand alone and were charged on the transaction `p`. -/
def lateFees (rule : LinkRule) (p : Fact) : List Fact :=
  if p.direction? ≠ some .debit ∨ p.evidenceOnly then []
  else
    match rule.legOf .original, rule.legOf .charge, env.instId p with
    | some originalLeg, some chargeLeg, some i =>
      if env.legMatches rule originalLeg p = false then []
      else
        let pool := rangeOf s.byInstrument i (p.effectiveAt - slack)
          (p.effectiveAt + (rule.join.window + slack))
        (pool.filter (feeOf env s rule chargeLeg p)).insertionSort Fact.orderLe
    | _, _, _ => []

/-- `_lateFeeOriginal`: a transaction that arrived after a fee charged on it. -/
def lateFeeOriginal (p : Fact) : Run :=
  match env.firstOf .feeCharge with
  | none => s
  | some rule => (lateFees env s rule p).foldl (joinOriginal env rule p .charge) s

/-- Whether an event may take a mandate that arrives after its charge `g`. -/
def takesMandate (g : Fact) (e : Event) : Bool :=
  !isLocked e && !(e.legs.any fun l => l.role = .original || l.role = .charge) &&
    ((e.type = .subscriptionCharge && e.legs.length = 1) || e.linkRuleId = none ||
      (env.ruleById e.linkRuleId).isSome) &&
    (e.legs.find? fun l => l.factId = g.factId).map EventLeg.role = some .debitLeg &&
    e.legs.all fun l => l.role = .debitLeg || l.role = .duplicateNotice

/-- The event `e` as the charge `g` of a mandate. -/
def chargedEvent (rule : LinkRule) (g mandate : Fact) (e : Event) : Event :=
  let legs := e.legs.map (fun l => if l.factId = g.factId then ⟨g.factId, .charge⟩ else l) ++
    [⟨mandate.factId, .original⟩]
  env.build e.eventId (env.typeFor rule legs) .complete legs (some rule.id) (some e)

/-- The body of the last loop of `_lateMandate`. -/
def chargeStep (rule : LinkRule) (leg : LinkLeg) (s : Run) (g : Fact) : Run :=
  match s.eventOf g, mandateCandidates env s rule g with
  | some e, c :: _ =>
    if env.legMatches rule leg g ∧ takesMandate env g e then
      s.put (chargedEvent env rule g c.fact e)
    else s
  | _, _ => s

/-- The debits of the mandate `m` that arrived before it. -/
def lateCharges (rule : LinkRule) (m : Fact) : List Fact :=
  let keys := env.partyKeys m.party ++ m.references.map fun r => PartyKey.reference r.2
  let pool := keys.dedup.flatMap fun k => rangeOf s.debitsByKey k (m.effectiveAt - slack)
    (m.effectiveAt + (rule.join.window + slack))
  (byId (pool.filter fun g => g.isMovement && g.sourceKey ≠ m.sourceKey &&
    g.factId ∈ s.processed && (s.eventOf g).isSome)).insertionSort Fact.orderLe

/-- `_lateMandate`: a mandate that arrived after its charges. -/
def lateMandate (m : Fact) : Run :=
  match env.firstOf .mandateCharge with
  | none => s
  | some rule =>
    if m.isIpoMandate ∨ m.isSipOrLoan then s
    else
      match rule.legOf .charge with
      | none => s
      | some leg => (lateCharges env s rule m).foldl (chargeStep env rule leg) s

/-! ### IPO mandates -/

/-- Whether a mandate came in the message of a hold. -/
def sameMessage (placed m : Fact) : Bool := placed.sourceKey = m.sourceKey

/-- Whether a mandate states the block a hold is. -/
def sameBlock (placed m : Fact) : Bool :=
  (env.instId placed).isSome && env.instId placed = env.instId m &&
    placed.principal = (m.amount .ceiling).map Amount.minor && placed.distance m ≤ day

/-- The placed hold of an event that may take an IPO mandate. -/
def openHold (e : Event) : Option Fact :=
  if e.type ≠ .ipoApplication ∨ e.status = .userConfirmed ∨
      (e.legs.any fun l => l.role = .original) then none
  else (e.legs.find? fun l => l.role = .holdPlaced).bind fun l => env.facts.get? l.factId

/-- The loop of `_attachIpoMandates` over the events: the first event with the mandate's message, else
the last with its block. -/
def ipoTarget (m : Fact) : List Event → Option Event → Option Event
  | [], target => target
  | e :: es, target =>
    match openHold env e with
    | none => ipoTarget m es target
    | some placed =>
      if sameMessage placed m then some e
      else ipoTarget m es (if sameBlock env placed m then some e else target)

/-- The event `e` with the mandate its hold came from. -/
def mandatedEvent (m : Fact) (e : Event) : Event :=
  env.build e.eventId e.type e.status (e.legs ++ [⟨m.factId, .original⟩]) e.linkRuleId (some e)

/-- The body of the outer loop of `_attachIpoMandates`. -/
def attachStep (s : Run) (m : Fact) : Run :=
  match ipoTarget env m s.events.values none with
  | none => s
  | some target => s.put (mandatedEvent env m target)

/-- `_attachIpoMandates`. -/
def attachIpoMandates : Run := s.pendingIpoMandates.foldl (attachStep env) s

end Joins

end PandaPay.SmsV2
