import PandaPay.SmsV2.Ledger.ProjectionWriter

/-!
# The transaction of an event on the server

`projection.js`: the transaction that a stored event with its ledger rows becomes, and how it compares with that of the
phone. Ids of the database are UUIDs and never empty, so that `id || null` is the id. Of a stored time the
milliseconds are read.

## Main definitions

* `projectEvent`
* `TransactionCore`: what both transactions have
* `AccountData.MappedAlike`: where the two mappings meet

## Main results

* `transactions_alike_iff`: phone and server project an event alike exactly where the mappings meet
* `transactions_not_alike`: a purchase with a prepaid card
-/

namespace PandaPay.SmsV2

/-! ### Stored values -/

/-- `wire`. -/
def Rail.wire : Rail → JsString
  | .upi => js "upi"
  | .card => js "card"
  | .imps => js "imps"
  | .neft => js "neft"
  | .rtgs => js "rtgs"
  | .cheque => js "cheque"
  | .nach => js "nach"
  | .wallet => js "wallet"
  | .cash => js "cash"
  | .unknown => js "unknown"

/-- A stored ledger row. -/
structure StoredEntry where
  entryId : JsString
  occurredAt : ℤ
  unit : LedgerUnit
  fromInstrumentId : Option JsString
  fromExternal : Option JsString
  toInstrumentId : Option JsString
  toExternal : Option JsString
  category : Option JsString

def LedgerEndpoint.instrumentId? : LedgerEndpoint → Option JsString
  | .instrument id => some id
  | _ => none

def LedgerEndpoint.externalKey? : LedgerEndpoint → Option JsString
  | .external key => some key
  | _ => none

/-- The stored copy of a row. -/
def LedgerEntry.stored (row : LedgerEntry) : StoredEntry where
  entryId := row.entryId
  occurredAt := row.occurredAt
  unit := row.unit
  fromInstrumentId := row.from.instrumentId?
  fromExternal := row.from.externalKey?
  toInstrumentId := row.to.instrumentId?
  toExternal := row.to.externalKey?
  category := row.category

/-- What is read of a stored instrument. -/
structure StoredInstrument where
  kind : InstrumentKind
  userCardId : Option JsString
  status : InstrumentStatus

/-- The anchor fact of an event: the fact with its id. -/
structure Anchor where
  sourceKey : JsString
  /-- `payload->'attrs'->>'rail'`. -/
  rail : Option JsString

/-- `text || null`. -/
def truthy (text : Option JsString) : Option JsString := text.filter (· ≠ [])

/-! ### The mapping -/

/-- `ipoConverted(legs)`. -/
def ipoConverted (legs : List EventLeg) : Bool :=
  legs.any fun l => l.role = .holdConverted || l.role = .debitLeg

/-- `ENTRY_KIND_BY_TYPE`. -/
def entryKindByType : EventType → Option TransactionKind
  | .purchase | .subscriptionCharge | .fee | .emi | .billPayment | .atmWithdrawal | .p2pOut => some .spend
  | .refund => some .refund
  | .cashback | .income | .p2pIn | .dividend => some .income
  | .investment => some .investment
  | .ownTransfer | .cardBillPayment | .walletTopup | .investmentWithdrawal => some .transfer
  | .ipoApplication | .unknown => none

/-- `entryKindFor(event)`. -/
def entryKindFor (event : Event) : Option TransactionKind :=
  if event.status = .ambiguous then none
  else if event.type = .ipoApplication then if ipoConverted event.legs then some .investment else none
  else entryKindByType event.type

/-- `INFLOW_TYPES`. -/
def EventType.isInflow : EventType → Bool
  | .refund | .cashback | .income | .p2pIn | .dividend | .investmentWithdrawal => true
  | _ => false

/-- `instrumentEnumFor(instrumentKind, rail)`. -/
def instrumentEnumFor (kind : Option InstrumentKind) (rail : Option JsString) : TxnInstrument :=
  match kind with
  | some .creditCard => .creditCard
  | some .debitCard | some .prepaidCard => .debitCard
  | some .bankAccount => .upiBank
  | some .wallet | some .payLater => .wallet
  | some .broker | some .loan => .other
  | none => if rail = some (js "cash") then .cash else .other

/-- `railEnumFor(eventType, factRail)`. -/
def railEnumFor (type : EventType) (factRail : Option JsString) : TxnRail :=
  if type = .atmWithdrawal ∨ factRail = some (js "atm") then .atm
  else if type = .emi then .emi
  else if factRail = some (js "upi") then .upiQr
  else .unknown

/-- `paymentMethodFor(factRail)`. -/
def paymentMethodFor (factRail : Option JsString) : Option JsString :=
  if factRail = some (js "upi") then some (js "upi") else none

/-- `byTimeThenId(a, b)` is not positive. -/
def StoredEntry.before (a b : StoredEntry) : Prop :=
  a.occurredAt / 1000 < b.occurredAt / 1000 ∨
    (a.occurredAt / 1000 = b.occurredAt / 1000 ∧ a.entryId ≤ b.entryId)

instance : DecidableRel StoredEntry.before := fun _ _ => inferInstanceAs (Decidable (_ ∨ _))

/-- The transaction of an event. The amount is in paise. -/
structure ServerTransaction where
  eventId : JsString
  entryKind : TransactionKind
  amountMinor : ℤ
  occurredAt : ℤ
  merchantName : Option JsString
  categorySlug : Option JsString
  userCardId : Option JsString
  instrument : TxnInstrument
  rail : TxnRail
  paymentMethod : Option JsString
  sourceKey : Option JsString
  deriving DecidableEq

/-- A row names a rejected instrument. -/
def StoredEntry.namesRejected (instruments : InsertionMap JsString StoredInstrument) (e : StoredEntry) : Bool :=
  [e.fromInstrumentId, e.toInstrumentId].any fun id =>
    (id.bind instruments.get?).any fun i => i.status = .rejected

/-- `projectEvent({ event, ledger, instruments, anchor })`. -/
def projectEvent (event : Event) (ledger : List StoredEntry) (instruments : InsertionMap JsString StoredInstrument)
    (anchor : Option Anchor) : Option ServerTransaction :=
  match entryKindFor event with
  | none => none
  | some entryKind =>
    if ¬ event.amountMinor > 0 then none
    -- a transaction must be backed by the ledger
    else if ¬ ledger.any fun e => e.unit = .inr then none
    else if ledger.any fun e => e.namesRejected instruments then none
    else
      let inflow := event.type.isInflow
      let entries := (ledger.filter fun e => e.unit = .inr).insertionSort StoredEntry.before
      let merchant := entries.findSome? fun e => truthy (if inflow then e.fromExternal else e.toExternal)
      let instrumentId := entries.findSome? fun e => if inflow then e.toInstrumentId else e.fromInstrumentId
      let category := entries.findSome? fun e => truthy e.category
      let instrument := instrumentId.bind instruments.get?
      let rail := truthy (anchor.bind (·.rail))
      let method := instrumentEnumFor (instrument.map (·.kind)) rail
      some {
        eventId := event.eventId
        entryKind := entryKind
        amountMinor := event.amountMinor
        occurredAt := event.occurredAt
        merchantName := merchant.map (·.take 200)
        categorySlug := category
        -- only a credit or debit card row may carry a user card
        userCardId := if method.isCard then instrument.bind (·.userCardId) else none
        instrument := method
        rail := railEnumFor event.type rail
        paymentMethod := paymentMethodFor rail
        sourceKey := anchor.map (·.sourceKey) }

/-! ### What phone and server have -/

/-- What both transactions of an event have. -/
structure TransactionCore where
  entryKind : TransactionKind
  amountMinor : ℤ
  instrument : TxnInstrument
  userCardId : Option JsString
  rail : TxnRail
  deriving DecidableEq

def TransactionEntry.core (t : TransactionEntry) : TransactionCore :=
  ⟨t.entryKind, t.amount, t.instrument, t.userCardId, t.rail⟩

def ServerTransaction.core (t : ServerTransaction) : TransactionCore :=
  ⟨t.entryKind, t.amountMinor, t.instrument, t.userCardId, t.rail⟩

def InstrumentRecord.stored (i : InstrumentRecord) : StoredInstrument := ⟨i.kind, i.userCardId, i.status⟩

namespace AccountData

variable (data : AccountData)

/-- The instruments as the server has them. -/
def storedInstruments : InsertionMap JsString StoredInstrument :=
  indexBy (fun i => i.instrumentId) (fun i => i.stored) data.instruments

/-- The rail of the anchor fact of an event, if that is a movement. -/
def anchorRail (event : Event) : Option Rail :=
  (data.railedById.get? event.eventId).bind fun f => if f.isMovement then some f.rail else none

/-- The anchor fact of an event as the server has it. -/
def anchor (event : Event) : Option Anchor :=
  (data.railedById.get? event.eventId).map fun f =>
    ⟨f.sourceKey, (if f.isMovement then some f.rail else none).map Rail.wire⟩

/-- What `DefaultLedgerProjector` makes of an event of the account. -/
def entriesOf (keyer : MerchantKeyer) (categoryByEvent : InsertionMap JsString CategoryDecision) (event : Event)
    (category : Option CategoryDecision) : List LedgerEntry :=
  ({ categoryByEvent, instrumentIdByFactId := data.instrumentIdByFactId, keyer } : Projector).project event
    data.factsById data.instrumentsById category

/-- Money moved between the user's own instruments, and no message says where it came from. -/
def WithoutDebit (event : Event) : Prop :=
  event.type.isOwnTransfer = true ∧ movementIn .debit (movementsOf event data.factsById) = none

instance (event : Event) : Decidable (data.WithoutDebit event) := inferInstanceAs (Decidable (_ ∧ _))

/-- The mappings meet at the row of an event with its money fact. -/
structure MappedAlike (event : Event) (row : LedgerEntry) (fact : RailedFact) : Prop where
  amount : 0 < event.amountMinor ∧ row.amountMinor = event.amountMinor
  /-- No instrument is known, and the anchor fact is not about cash. -/
  cash : data.instrumentFor fact.toLedgerFact = none → data.anchorRail event ≠ some .cash
  /-- An instrument is known. The server reads it off the end of the row that money came from. -/
  kind : ∀ i, data.instrumentFor fact.toLedgerFact = some i →
    if data.WithoutDebit event then
      data.anchorRail event ≠ some .cash ∧ i.kind ∉ [.creditCard, .debitCard, .bankAccount, .wallet]
    else i.kind ≠ .prepaidCard ∧ i.kind ≠ .payLater
  rail : event.type ≠ .atmWithdrawal ∧ event.type ≠ .emi ∧
    (data.anchorRail event = some .upi ↔ fact.rail = .upi)

end AccountData

/-! ### The mappings compared -/

theorem Rail.wire_injective : Function.Injective Rail.wire := by
  intro r s h
  cases r <;> cases s <;> simp_all [wire]

theorem Rail.wire_ne_atm (r : Rail) : r.wire ≠ js "atm" := by
  cases r <;> simp [wire]

theorem Rail.wire_ne_nil (r : Rail) : r.wire ≠ [] := by
  cases r <;> decide

/-- What is an event on the phone is one of the same kind on the server. -/
theorem entryKindFor_of_transactionKindForEvent {event : Event} {kind : TransactionKind}
    (h : transactionKindForEvent event = some kind) : entryKindFor event = some kind := by
  rw [transactionKindForEvent] at h
  split at h
  · cases h
  · rename_i hstatus
    rw [not_or] at hstatus
    rw [entryKindFor, if_neg hstatus.1]
    split at h
    · cases h
    · rename_i hipo
      by_cases htype : event.type = .ipoApplication
      · have hleg : ipoConverted event.legs = true := by
          have hdebit : (event.legs.any fun l => l.role = .debitLeg) = true :=
            not_not.mp fun hnone => hipo ⟨htype, hnone⟩
          obtain ⟨leg, hmem, hrole⟩ := List.any_eq_true.mp hdebit
          exact List.any_eq_true.mpr ⟨leg, hmem, by rw [hrole, Bool.or_true]⟩
        rw [htype] at h
        rw [if_pos htype, if_pos hleg, ← h]
        rfl
      · rw [if_neg htype, ← h]
        cases htype : event.type <;> simp_all [entryKindByType, EventType.isSpend, EventType.isIncome,
          EventType.isOwnTransfer]

theorem EventType.isInflow_eq (type : EventType) : type.isInflow = type.isInward := by
  cases type <;> rfl

/-- The instruments that the two mappings name belong to one class. -/
theorem methodOf_eq_iff {kind : Option InstrumentKind} {rail : Option Rail} :
    methodOf kind = instrumentEnumFor kind (rail.map Rail.wire) ↔
      (kind = none → rail ≠ some .cash) ∧ kind ≠ some .prepaidCard ∧ kind ≠ some .payLater := by
  cases kind with
  | none =>
    have hcash : rail.map Rail.wire = some (js "cash") ↔ rail = some .cash :=
      Option.map_injective Rail.wire_injective |>.eq_iff (b := some .cash)
    simp only [methodOf, instrumentEnumFor, hcash]
    by_cases h : rail = some .cash <;> simp [h]
  | some kind => cases kind <;> simp [methodOf, instrumentEnumFor]

/-- Where the server knows no instrument, its class is that of a kind with no class of its own. -/
theorem methodOf_eq_none_iff {kind : Option InstrumentKind} {rail : Option Rail} :
    methodOf kind = instrumentEnumFor none (rail.map Rail.wire) ↔ rail ≠ some .cash ∧
      ∀ k, kind = some k → k ∉ [InstrumentKind.creditCard, .debitCard, .bankAccount, .wallet] := by
  have hcash : rail.map Rail.wire = some (js "cash") ↔ rail = some .cash :=
    Option.map_injective Rail.wire_injective |>.eq_iff (b := some .cash)
  simp only [instrumentEnumFor, hcash]
  cases kind with
  | none => by_cases h : rail = some .cash <;> simp [methodOf, h]
  | some kind => by_cases h : rail = some .cash <;> cases kind <;> simp [methodOf, h]

/-- The rails that the two mappings name agree. -/
theorem railOf_eq_iff {type : EventType} {rail : Rail} {anchorRail : Option Rail} :
    railOf rail = railEnumFor type (anchorRail.map Rail.wire) ↔
      type ≠ .atmWithdrawal ∧ type ≠ .emi ∧ (anchorRail = some .upi ↔ rail = .upi) := by
  have hupi : anchorRail.map Rail.wire = some (js "upi") ↔ anchorRail = some .upi :=
    Option.map_injective Rail.wire_injective |>.eq_iff (b := some .upi)
  have hatm : anchorRail.map Rail.wire ≠ some (js "atm") := by
    intro h
    obtain ⟨r, -, hr⟩ := Option.map_eq_some_iff.mp h
    exact Rail.wire_ne_atm r hr
  have hrail : rail = .upi ∧ railOf .upi = .upiQr ∨ railOf rail = .unknown ∧ rail ≠ .upi := by
    cases rail <;> simp [railOf]
  simp only [railEnumFor, hupi, hatm, or_false]
  by_cases htype : type = .atmWithdrawal
  · rcases hrail with ⟨hr, hclass⟩ | ⟨hclass, hr⟩ <;> simp [htype, hr, hclass]
  · by_cases hemi : type = .emi
    · rcases hrail with ⟨hr, hclass⟩ | ⟨hclass, hr⟩ <;> simp [hemi, hr, hclass]
    · by_cases hanchor : anchorRail = some .upi
      · rcases hrail with ⟨hr, hclass⟩ | ⟨hclass, hr⟩ <;> simp [htype, hemi, hanchor, hr, hclass]
      · rcases hrail with ⟨hr, hclass⟩ | ⟨hclass, hr⟩ <;> simp [htype, hemi, hanchor, hr, hclass]

theorem truthy_map_wire (rail : Option Rail) : truthy (rail.map Rail.wire) = rail.map Rail.wire := by
  cases rail with
  | none => rfl
  | some r => exact Option.filter_some_pos (decide_eq_true r.wire_ne_nil)

/-! ### The transactions of a row -/

namespace AccountData

variable {data : AccountData} {keyer : MerchantKeyer} {categoryByEvent : InsertionMap JsString CategoryDecision}
  {event : Event} {row : LedgerEntry} {fact : RailedFact}

theorem get?_storedInstruments (id : JsString) :
    data.storedInstruments.get? id = (data.recordsById.get? id).map (·.stored) :=
  get?_indexBy_eq_map id

/-- The server finds the instrument of an own end, if the end names one. -/
theorem stored_of_own (fact? : Option LedgerFact) (fallback : InstrumentKind) :
    ((({ categoryByEvent, instrumentIdByFactId := data.instrumentIdByFactId, keyer } : Projector).own
      data.instrumentsById fact? fallback).instrumentId?).bind data.storedInstruments.get? =
        (fact?.bind data.instrumentFor).map (·.stored) := by
  cases fact? with
  | none => rfl
  | some fact =>
    simp only [Projector.own, Option.bind_some, ← map_instrumentFor]
    cases h : data.instrumentFor fact with
    | none => rfl
    | some i =>
      rw [Option.map_some]
      change data.storedInstruments.get? i.instrumentId = some i.stored
      rw [get?_storedInstruments, get?_of_instrumentFor h, Option.map_some]

/-- An accepted end is not rejected on the server. -/
theorem not_rejected_of_accepted {e : LedgerEndpoint} (h : e.Accepted data.instrumentsById) :
    ((e.instrumentId?.bind data.storedInstruments.get?).any fun i => i.status = .rejected) = false := by
  cases e with
  | external key => rfl
  | ownUnresolved kind => rfl
  | instrument id =>
    obtain ⟨key, own, hget, hid, hstatus⟩ := h id rfl
    obtain ⟨hkey, hrecord⟩ := get?_recordsById hget
    obtain ⟨i, hi, rfl⟩ := Option.map_eq_some_iff.mp hrecord
    change ((data.storedInstruments.get? id).any fun i => i.status = .rejected) = false
    rw [get?_storedInstruments, ← hid, hkey, hi]
    exact decide_eq_false hstatus

/-- The instrument that the server reads off the row of an event. -/
def serverInstrument (data : AccountData) (event : Event) (fact : RailedFact) : Option InstrumentRecord :=
  if data.WithoutDebit event then none else data.instrumentFor fact.toLedgerFact

theorem core_transactionForEvent {taxonomy : Taxonomy} {category : Option CategoryDecision} {kind : TransactionKind}
    (hkind : transactionKindForEvent event = some kind) (hfact : data.moneyFact event = some fact)
    (hunit : row.unit = .inr) :
    (transactionForEvent taxonomy event [row] data category).map (·.core) =
      some { entryKind := kind
             amountMinor := row.amountMinor
             instrument := methodOf ((data.instrumentFor fact.toLedgerFact).map (·.kind))
             userCardId := if (methodOf ((data.instrumentFor fact.toLedgerFact).map (·.kind))).isCard then
               (data.instrumentFor fact.toLedgerFact).bind (·.userCardId) else none
             rail := railOf fact.rail } := by
  have hrow : [row].find? (fun e => e.unit = .inr) = some row := List.find?_cons_of_pos (by simpa using hunit)
  rw [transactionForEvent, hkind, hfact, hrow]
  rfl

theorem core_projectEvent {kind : TransactionKind} {instrument : Option InstrumentRecord}
    (hkind : transactionKindForEvent event = some kind) (hunit : row.unit = .inr)
    (hfrom : row.from.Accepted data.instrumentsById) (hto : row.to.Accepted data.instrumentsById)
    (hown : (row.ownEndpoint event.type).instrumentId?.bind data.storedInstruments.get? =
      instrument.map (·.stored)) :
    (projectEvent event [row.stored] data.storedInstruments (data.anchor event)).map (·.core) =
      if 0 < event.amountMinor then
        some { entryKind := kind
               amountMinor := event.amountMinor
               instrument := instrumentEnumFor (instrument.map (·.kind)) ((data.anchorRail event).map Rail.wire)
               userCardId :=
                 if (instrumentEnumFor (instrument.map (·.kind)) ((data.anchorRail event).map Rail.wire)).isCard then
                   instrument.bind (·.userCardId) else none
               rail := railEnumFor event.type ((data.anchorRail event).map Rail.wire) }
      else none := by
  have hrejected : row.stored.namesRejected data.storedInstruments = false := by
    rw [StoredEntry.namesRejected, List.any_cons, List.any_cons, List.any_nil, Bool.or_false]
    exact Bool.or_eq_false_iff.mpr ⟨not_rejected_of_accepted hfrom, not_rejected_of_accepted hto⟩
  have hrail : truthy ((data.anchor event).bind (·.rail)) = (data.anchorRail event).map Rail.wire := by
    rw [← truthy_map_wire, anchor, anchorRail]
    cases data.railedById.get? event.eventId <;> rfl
  have hinstrument : ([row.stored].findSome? fun e =>
      if event.type.isInflow then e.toInstrumentId else e.fromInstrumentId).bind data.storedInstruments.get? =
        instrument.map (·.stored) := by
    rw [← hown, LedgerEntry.ownEndpoint, EventType.isInflow_eq, List.findSome?_singleton]
    split <;> rfl
  have hentries : ([row.stored].filter fun e => e.unit = .inr).insertionSort StoredEntry.before = [row.stored] := by
    have hstored : row.stored.unit = .inr := hunit
    simp [hstored]
  rw [projectEvent, entryKindFor_of_transactionKindForEvent hkind]
  by_cases hamount : 0 < event.amountMinor
  · have hany : ([row.stored].any fun e => e.unit = .inr) = true := by
      rw [List.any_cons, Bool.or_eq_true]
      exact .inl (decide_eq_true hunit)
    simp only [hamount, hany, hentries, hrail, hinstrument, hrejected, List.any_cons, List.any_nil, not_true,
      if_false, if_true, Bool.or_false, Bool.false_eq_true, Option.map_some, Option.map_map]
    cases instrument <;> rfl
  · simp only [hamount, not_false_iff, if_true, if_false, Option.map_none]

/-- The user's own end of a row is that of the money fact, unless a transfer has no debit. -/
theorem ownFact_eq {money : LedgerFact} (h : moneyFactForEvent event data.factsById = some money) :
    (if event.type.isOwnTransfer then movementIn .debit (movementsOf event data.factsById) else some money) =
      if data.WithoutDebit event then none else some money := by
  by_cases htransfer : event.type.isOwnTransfer = true
  · rw [if_pos htransfer]
    rw [moneyFactForEvent, EventType.isInward_of_isOwnTransfer htransfer, if_neg Bool.false_ne_true] at h
    cases hdebit : movementIn .debit (movementsOf event data.factsById) with
    | none => rw [if_pos ⟨htransfer, hdebit⟩]
    | some debit =>
      rw [hdebit, Option.some_or] at h
      rw [← h, if_neg fun hwithout => by simp [hwithout.2] at hdebit]
  · rw [if_neg htransfer, if_neg fun hwithout => htransfer hwithout.1]

/-- The transactions of a row agree exactly where the mappings meet. -/
theorem core_eq_iff {kind : TransactionKind} :
    some (TransactionCore.mk kind row.amountMinor (methodOf ((data.instrumentFor fact.toLedgerFact).map (·.kind)))
        (if (methodOf ((data.instrumentFor fact.toLedgerFact).map (·.kind))).isCard then
          (data.instrumentFor fact.toLedgerFact).bind (·.userCardId) else none) (railOf fact.rail)) =
      (if 0 < event.amountMinor then
        some (TransactionCore.mk kind event.amountMinor
          (instrumentEnumFor ((serverInstrument data event fact).map (·.kind))
            ((data.anchorRail event).map Rail.wire))
          (if (instrumentEnumFor ((serverInstrument data event fact).map (·.kind))
              ((data.anchorRail event).map Rail.wire)).isCard then
            (serverInstrument data event fact).bind (·.userCardId) else none)
          (railEnumFor event.type ((data.anchorRail event).map Rail.wire)))
      else none) ↔ data.MappedAlike event row fact := by
  have hmethod : methodOf ((data.instrumentFor fact.toLedgerFact).map (·.kind)) =
      instrumentEnumFor ((serverInstrument data event fact).map (·.kind)) ((data.anchorRail event).map Rail.wire) ↔
      (data.instrumentFor fact.toLedgerFact = none → data.anchorRail event ≠ some .cash) ∧
        ∀ i, data.instrumentFor fact.toLedgerFact = some i → if data.WithoutDebit event then
          data.anchorRail event ≠ some .cash ∧ i.kind ∉ [InstrumentKind.creditCard, .debitCard, .bankAccount, .wallet]
        else i.kind ≠ .prepaidCard ∧ i.kind ≠ .payLater := by
    by_cases hdebit : data.WithoutDebit event
    · rw [serverInstrument, if_pos hdebit, Option.map_none, methodOf_eq_none_iff]
      cases data.instrumentFor fact.toLedgerFact <;> simp [hdebit]
    · rw [serverInstrument, if_neg hdebit, methodOf_eq_iff]
      cases data.instrumentFor fact.toLedgerFact <;> simp [hdebit]
  -- the user's card follows the instrument
  have hcard (h : methodOf ((data.instrumentFor fact.toLedgerFact).map (·.kind)) =
      instrumentEnumFor ((serverInstrument data event fact).map (·.kind)) ((data.anchorRail event).map Rail.wire)) :
      (if (methodOf ((data.instrumentFor fact.toLedgerFact).map (·.kind))).isCard then
          (data.instrumentFor fact.toLedgerFact).bind (·.userCardId) else none) =
        if (instrumentEnumFor ((serverInstrument data event fact).map (·.kind))
            ((data.anchorRail event).map Rail.wire)).isCard then
          (serverInstrument data event fact).bind (·.userCardId) else none := by
    rw [← h]
    by_cases hdebit : data.WithoutDebit event
    · have hno : (methodOf ((data.instrumentFor fact.toLedgerFact).map (·.kind))).isCard = false := by
        rw [h, serverInstrument, if_pos hdebit, Option.map_none, instrumentEnumFor]
        split <;> rfl
      rw [hno, if_neg Bool.false_ne_true, if_neg Bool.false_ne_true]
    · rw [serverInstrument, if_neg hdebit]
  constructor
  · intro h
    obtain ⟨hpositive, hcore⟩ := Option.some_eq_ite_none_right.mp h
    obtain ⟨-, hamount, hkind, -, hrail⟩ := TransactionCore.mk.injEq .. ▸ Option.some.inj hcore
    exact ⟨⟨hpositive, hamount⟩, (hmethod.mp hkind).1, (hmethod.mp hkind).2, railOf_eq_iff.mp hrail⟩
  · intro h
    rw [if_pos h.amount.1, h.amount.2, hcard (hmethod.mpr ⟨h.cash, h.kind⟩), hmethod.mpr ⟨h.cash, h.kind⟩,
      railOf_eq_iff.mpr h.rail]

end AccountData

/-- Phone and server project an event alike exactly where the mappings meet at its row, if it has one. -/
theorem transactions_alike_iff (taxonomy : Taxonomy) (keyer : MerchantKeyer)
    (categoryByEvent : InsertionMap JsString CategoryDecision) (data : AccountData) (event : Event)
    (category : Option CategoryDecision) :
    (transactionForEvent taxonomy event (data.entriesOf keyer categoryByEvent event category) data category).map
        (·.core) =
      (projectEvent event ((data.entriesOf keyer categoryByEvent event category).map (·.stored))
        data.storedInstruments (data.anchor event)).map (·.core) ↔
    ∀ row ∈ data.entriesOf keyer categoryByEvent event category, ∀ fact, data.moneyFact event = some fact →
      data.MappedAlike event row fact := by
  rcases Projector.project_cases ({ categoryByEvent, instrumentIdByFactId := data.instrumentIdByFactId, keyer } :
    Projector) event data.factsById data.instrumentsById category with hnone | ⟨row, money, hone, hrow⟩
  · -- without a row both have nothing
    rw [AccountData.entriesOf, hnone]
    have hphone : transactionForEvent taxonomy event [] data category = none := by
      rw [transactionForEvent]
      split
      · rename_i h
        cases h
      · rfl
    have hserver : projectEvent event [] data.storedInstruments (data.anchor event) = none := by
      rw [projectEvent]
      split
      · rfl
      · split <;> rfl
    exact iff_of_true (by rw [hphone, List.map_nil, hserver]; rfl) (by simp)
  · obtain ⟨kind, hkind⟩ := Option.ne_none_iff_exists'.mp hrow.kind
    obtain ⟨fact, hfact, hmoney⟩ := Option.map_eq_some_iff.mp ((data.map_moneyFact event).trans hrow.money)
    have hinstrument : (row.ownEndpoint event.type).instrumentId?.bind data.storedInstruments.get? =
        (AccountData.serverInstrument data event fact).map (·.stored) := by
      rw [hrow.endpoint, AccountData.stored_of_own, AccountData.ownFact_eq hrow.money,
        AccountData.serverInstrument, hmoney]
      split <;> rfl
    rw [AccountData.entriesOf, hone, List.map_singleton, AccountData.core_transactionForEvent hkind hfact hrow.unit,
      AccountData.core_projectEvent hkind hrow.unit hrow.from hrow.to hinstrument]
    refine AccountData.core_eq_iff.trans ?_
    simp [hfact]

/-- A purchase with a prepaid card: the phone knows no such class, the server has it as a debit card. -/
def prepaidPurchase : AccountData × Event :=
  ({ facts := [{
        factId := js "f", sourceKey := js "s", observedAt := 0, ruleId := js "r", rail := .card
        attrs := .movement .debit .purchase none none
        amounts := [{ role := .posted, minor := 5000, unit := js "INR" }]
        instrument := some { kind := some .prepaidCard, issuerSlug := some (js "bank") } }]
     instruments := [{
        instrumentId := js "i", kind := .prepaidCard, issuerSlug := js "bank", maskDigits := none
        status := .confirmed, displayName := js "Bank", firstSeenAt := 0, lastSeenAt := 0, evidenceCount := 1 }]
     instrumentIdByFactId := .empty },
   { eventId := js "f", type := .purchase, status := .complete, legs := [⟨js "f", .debitLeg⟩], linkRuleId := none
     confidence := 1, occurredAt := 0, amountMinor := 5000 })

/-- A purchase with a prepaid card is no debit card purchase on the phone. -/
theorem transactions_not_alike : ¬ ∀ (taxonomy : Taxonomy) (keyer : MerchantKeyer)
    (categoryByEvent : InsertionMap JsString CategoryDecision) (data : AccountData) (event : Event)
    (category : Option CategoryDecision), (∀ i ∈ data.instruments, i.status ≠ .rejected) →
    (transactionForEvent taxonomy event (data.entriesOf keyer categoryByEvent event category) data category).map
        (·.core) =
      (projectEvent event ((data.entriesOf keyer categoryByEvent event category).map (·.stored))
        data.storedInstruments (data.anchor event)).map (·.core) := by
  intro h
  have halike := h ⟨fun _ => none, fun _ => none⟩ ⟨fun _ => none, fun _ => none, id, id⟩ .empty prepaidPurchase.1
    prepaidPurchase.2 none (by decide)
  revert halike
  decide +kernel

end PandaPay.SmsV2
