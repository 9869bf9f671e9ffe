import PandaPay.SmsV2.Instruments.Instrument
import PandaPay.SmsV2.Ledger.Snapshot

/-!
# The transaction of an event on the phone

`transactionForEvent` of `projection_writer.dart`: the transaction that an event with its ledger rows becomes. The
facts and the instruments of the account are lists; the maps by id are made from them. The taxonomy is an argument.

## Main definitions

* `RailedFact`, `AccountData`: the facts of an account with their rails, and its instruments
* `transactionForEvent`

## Main results

* `AccountData.map_moneyFact`, `AccountData.map_instrumentFor`: the money leg and its instrument with all their
  fields are those of the projector
-/

namespace PandaPay.SmsV2

/-! ### Values -/

/-- `Rail`: how money moved. -/
inductive Rail where
  | upi | card | imps | neft | rtgs | cheque | nach | wallet | cash | unknown
  deriving DecidableEq

/-- `TxnInstrument`: what paid for a transaction. -/
inductive TxnInstrument where
  | creditCard | debitCard | cash | upiBank | wallet | other
  deriving DecidableEq

/-- `TxnRail`. -/
inductive TxnRail where
  | upiQr | swipe | online | contactless | atm | emi | unknown
  deriving DecidableEq

/-- The transaction of an event. The amount is in paise. -/
structure TransactionEntry where
  id : JsString
  eventId : JsString
  pipelineVersion : ℕ
  sourceKey : JsString
  amount : ℤ
  occurredAt : ℤ
  merchantName : Option JsString
  merchantVpa : Option JsString
  categoryId : Option JsString
  categoryName : Option JsString
  instrument : TxnInstrument
  entryKind : TransactionKind
  userCardId : Option JsString
  cardLast4 : Option JsString
  accountLast4 : Option JsString
  cardDisplayName : Option JsString
  rail : TxnRail
  paymentMethod : Option JsString
  source : JsString
  smsReceivedAt : ℤ
  status : JsString
  deriving DecidableEq

/-- A fact, with the rail of a movement. -/
structure RailedFact extends LedgerFact where
  /-- `rail`. Only a movement has one. -/
  rail : Rail := .unknown

/-- An instrument as the projector reads it. -/
def InstrumentRecord.own (i : InstrumentRecord) : OwnInstrument where
  toInstrument := i.toInstrument
  displayName := i.displayName
  productNames := i.aliases.productNames

/-- The facts and the instruments of an account, and the instruments its facts were resolved to. -/
structure AccountData where
  facts : List RailedFact
  instruments : List InstrumentRecord
  instrumentIdByFactId : InsertionMap JsString JsString

namespace AccountData

variable (data : AccountData)

/-- `factsById`, with the rails. -/
def railedById : InsertionMap JsString RailedFact := indexBy (fun f => f.factId) id data.facts

/-- `factsById`. -/
def factsById : FactMap := indexBy (fun f => f.factId) (fun f => f.toLedgerFact) data.facts

/-- `instrumentsById`, with all fields. -/
def recordsById : InsertionMap JsString InstrumentRecord :=
  indexBy (fun i => i.instrumentId) id data.instruments

/-- `instrumentsById`. -/
def instrumentsById : InsertionMap JsString OwnInstrument :=
  indexBy (fun i => i.instrumentId) (fun i => i.own) data.instruments

/-- `moneyFactForEvent(event, facts)`, with its rail. -/
def moneyFact (event : Event) : Option RailedFact :=
  (moneyFactForEvent event data.factsById).bind fun f => data.railedById.get? f.factId

/-- `instrumentForFact(fact, instruments)`, with all fields. -/
def instrumentFor (fact : LedgerFact) : Option InstrumentRecord :=
  (instrumentForFact fact data.instrumentsById data.instrumentIdByFactId).bind fun i =>
    data.recordsById.get? i.instrumentId

end AccountData

/-! ### What the money leg names -/

theorem mem_movementsOf {event : Event} {facts : FactMap} {m : EventLeg × LedgerFact}
    (h : m ∈ movementsOf event facts) : ∃ id, facts.get? id = some m.2 := by
  obtain ⟨leg, -, hleg⟩ := List.mem_filterMap.mp h
  obtain ⟨fact, hfact, rfl⟩ := Option.map_eq_some_iff.mp hleg
  exact ⟨leg.factId, (Option.filter_eq_some_iff.mp hfact).1⟩

theorem mem_of_movementIn {direction : Direction} {movements : List (EventLeg × LedgerFact)} {fact : LedgerFact}
    (h : movementIn direction movements = some fact) : ∃ m ∈ movements, m.2 = fact := by
  obtain ⟨m, hm, rfl⟩ := Option.map_eq_some_iff.mp h
  exact ⟨m, List.mem_of_find?_eq_some hm, rfl⟩

theorem mem_of_moneyFactForEvent {event : Event} {facts : FactMap} {fact : LedgerFact}
    (h : moneyFactForEvent event facts = some fact) : ∃ m ∈ movementsOf event facts, m.2 = fact := by
  rcases Option.or_eq_some_iff.mp h with h | ⟨-, h⟩
  · exact mem_of_movementIn h
  · obtain ⟨m, hm, rfl⟩ := Option.map_eq_some_iff.mp h
    exact ⟨m, List.mem_of_head? hm, rfl⟩

theorem get?_of_instrumentForFact {fact : LedgerFact} {instruments : InsertionMap JsString OwnInstrument}
    {ids : InsertionMap JsString JsString} {i : OwnInstrument}
    (h : instrumentForFact fact instruments ids = some i) : ∃ id, instruments.get? id = some i := by
  rw [instrumentForFact] at h
  split at h
  · rename_i resolved _
    exact ⟨resolved, h⟩
  · split at h
    · cases h
    · split at h
      · cases h
      · split at h
        · rename_i only honly
          cases h
          have hmem : i ∈ [i] := List.mem_singleton_self i
          rw [← honly] at hmem
          exact InsertionMap.mem_values_iff.mp (List.mem_filter.mp hmem).1
        · cases h

/-! ### The endpoints of a row -/

/-- The end of a row that is the user's own: where money comes in, the end it goes to. -/
def LedgerEntry.ownEndpoint (row : LedgerEntry) (type : EventType) : LedgerEndpoint :=
  if type.isInward then row.to else row.from

/-- An endpoint names no rejected instrument. -/
def LedgerEndpoint.Accepted (instruments : InsertionMap JsString OwnInstrument) (e : LedgerEndpoint) : Prop :=
  ∀ id, e = .instrument id → ∃ key i, instruments.get? key = some i ∧ i.instrumentId = id ∧ i.status ≠ .rejected

theorem EventType.isInward_of_isOwnTransfer {type : EventType} (h : type.isOwnTransfer = true) :
    type.isInward = false := by
  cases type <;> simp_all [isOwnTransfer, isInward, isIncome]

namespace Projector

variable {projector : Projector} {instruments : InsertionMap JsString OwnInstrument}

theorem accepted_own {fact : Option LedgerFact} {fallback : InstrumentKind}
    (h : ∀ f, fact = some f → ∀ i, instrumentForFact f instruments projector.instrumentIdByFactId = some i →
      i.status ≠ .rejected) : (projector.own instruments fact fallback).Accepted instruments := by
  intro id hid
  rw [own] at hid
  split at hid
  · cases hid
  · rename_i i hi
    cases hid
    obtain ⟨f, hf, hfor⟩ := Option.bind_eq_some_iff.mp hi
    obtain ⟨key, hkey⟩ := get?_of_instrumentForFact hfor
    exact ⟨key, i, hkey, rfl, h f hf i hfor⟩

theorem accepted_uniqueTarget {anchor : LedgerFact} {kind : InstrumentKind} {i : OwnInstrument}
    (h : projector.uniqueTarget instruments anchor kind = some i) :
    (LedgerEndpoint.instrument i.instrumentId).Accepted instruments := by
  intro id hid
  cases hid
  rw [uniqueTarget] at h
  split at h
  · rename_i only honly
    cases h
    have hmem : i ∈ [i] := List.mem_singleton_self i
    rw [← honly] at hmem
    obtain ⟨hvalue, hpass⟩ := List.mem_filter.mp hmem
    simp only [Bool.and_eq_true, decide_eq_true_eq] at hpass
    obtain ⟨key, hkey⟩ := InsertionMap.mem_values_iff.mp hvalue
    exact ⟨key, i, hkey, rfl, hpass.1.1.2⟩
  · cases h

/-- What the row of an event is made of: the money leg, and on the user's own side its instrument, or that of the
debit for a transfer. -/
structure RowOf (projector : Projector) (event : Event) (facts : FactMap)
    (instruments : InsertionMap JsString OwnInstrument) (fact : LedgerFact) (row : LedgerEntry) : Prop where
  kind : transactionKindForEvent event ≠ none
  money : moneyFactForEvent event facts = some fact
  unit : row.unit = .inr
  endpoint : row.ownEndpoint event.type = projector.own instruments
    (if event.type.isOwnTransfer then movementIn .debit (movementsOf event facts) else some fact) .bankAccount
  «from» : row.from.Accepted instruments
  «to» : row.to.Accepted instruments

/-- The money fact is the anchor of the row. -/
theorem moneyFact_of_movementsOf {event : Event} {facts : FactMap} {first : EventLeg × LedgerFact}
    {rest : List (EventLeg × LedgerFact)} (h : movementsOf event facts = first :: rest) :
    moneyFactForEvent event facts = some
      ((if event.type.isInward then movementIn .credit (first :: rest) else movementIn .debit (first :: rest)).getD
        first.2) := by
  rw [moneyFactForEvent, h, List.head?_cons, Option.map_some, Option.or_some]
  cases event.type.isInward <;> rfl

/-- An event has one row or none. -/
theorem project_cases (projector : Projector) (event : Event) (facts : FactMap)
    (instruments : InsertionMap JsString OwnInstrument) (category : Option CategoryDecision) :
    projector.project event facts instruments category = [] ∨
      ∃ row fact, projector.project event facts instruments category = [row] ∧
        projector.RowOf event facts instruments fact row := by
  rw [project]
  split
  · exact .inl rfl
  · rename_i hkind
    cases hmovements : movementsOf event facts with
    | nil => exact .inl rfl
    | cons first rest =>
      simp only
      split
      · exact .inl rfl
      · rename_i hrejected
        split
        · exact .inl rfl
        · split
          · exact .inl rfl
          · have haccepted : ∀ m ∈ first :: rest, ∀ i,
                instrumentForFact m.2 instruments projector.instrumentIdByFactId = some i → i.status ≠ .rejected := by
              intro m hm i hi hstatus
              exact hrejected (List.any_eq_true.mpr ⟨m, hm, by simp [hi, hstatus]⟩)
            have hdirection (direction : Direction) : ∀ f, movementIn direction (first :: rest) = some f → ∀ i,
                instrumentForFact f instruments projector.instrumentIdByFactId = some i → i.status ≠ .rejected := by
              intro f hf
              obtain ⟨m, hm, rfl⟩ := mem_of_movementIn hf
              exact haccepted m hm
            have hanchor (direction : Direction) :
                ∀ f, some ((movementIn direction (first :: rest)).getD first.2) = some f → ∀ i,
                instrumentForFact f instruments projector.instrumentIdByFactId = some i → i.status ≠ .rejected := by
              rintro f ⟨⟩
              cases hfound : movementIn direction (first :: rest) with
              | none => exact haccepted first (List.mem_cons_self ..)
              | some f => exact hdirection direction f hfound
            refine .inr ⟨_, _, rfl, hkind, moneyFact_of_movementsOf hmovements, rfl, ?_, ?_, ?_⟩
            · rw [LedgerEntry.ownEndpoint, hmovements]
              by_cases htransfer : event.type.isOwnTransfer = true
              · simp only [EventType.isInward_of_isOwnTransfer htransfer, htransfer, if_true, Bool.false_eq_true,
                  if_false]
              · simp only [if_neg htransfer]
                split <;> rfl
            · simp only
              split
              · exact accepted_own (hdirection .debit)
              · split
                · split
                  · intro id hid
                    cases hid
                  · rename_i i hi
                    exact accepted_uniqueTarget (Option.ite_none_right_eq_some.mp hi).2
                · exact accepted_own (hanchor .debit)
            · simp only
              split
              · split
                · exact accepted_own (hdirection .credit)
                · rename_i i hi
                  exact accepted_uniqueTarget (Option.ite_none_right_eq_some.mp hi).2
              · split
                · exact accepted_own (hanchor .credit)
                · split
                  · intro id hid
                    cases hid
                  · rename_i i hi
                    exact accepted_uniqueTarget (Option.ite_none_right_eq_some.mp hi).2

end Projector

namespace AccountData

variable {data : AccountData}

/-- The money fact with its rail is the money fact. -/
theorem map_moneyFact (data : AccountData) (event : Event) :
    (data.moneyFact event).map (·.toLedgerFact) = moneyFactForEvent event data.factsById := by
  cases h : moneyFactForEvent event data.factsById with
  | none => rw [moneyFact, h]; rfl
  | some fact =>
    obtain ⟨m, hm, rfl⟩ := mem_of_moneyFactForEvent h
    obtain ⟨id, hid⟩ := mem_movementsOf hm
    rw [factsById, get?_indexBy_eq_map] at hid
    obtain ⟨railed, hrailed, hfact⟩ := Option.map_eq_some_iff.mp hid
    have hkey : m.2.factId = id := hfact ▸ key_of_get?_indexBy (fun f : RailedFact => f.factId) hrailed
    rw [moneyFact, h, Option.bind_some, hkey, railedById, hrailed, Option.map_some, hfact]

theorem get?_recordsById {id : JsString} {i : OwnInstrument} (h : data.instrumentsById.get? id = some i) :
    i.instrumentId = id ∧ (data.recordsById.get? id).map (·.own) = some i := by
  rw [instrumentsById, get?_indexBy_eq_map] at h
  obtain ⟨record, hrecord, rfl⟩ := Option.map_eq_some_iff.mp h
  refine ⟨key_of_get?_indexBy (fun i : InstrumentRecord => i.instrumentId) hrecord, ?_⟩
  rw [recordsById, hrecord, Option.map_some]

/-- The instrument of a fact with all its fields is the instrument of the fact. -/
theorem map_instrumentFor (data : AccountData) (fact : LedgerFact) : (data.instrumentFor fact).map (·.own) =
    instrumentForFact fact data.instrumentsById data.instrumentIdByFactId := by
  cases h : instrumentForFact fact data.instrumentsById data.instrumentIdByFactId with
  | none => rw [instrumentFor, h]; rfl
  | some i =>
    obtain ⟨id, hid⟩ := get?_of_instrumentForFact h
    obtain ⟨hkey, hrecord⟩ := get?_recordsById hid
    rw [instrumentFor, h, Option.bind_some, hkey, hrecord]

/-- The record of an instrument is under its id. -/
theorem get?_of_instrumentFor {fact : LedgerFact} {i : InstrumentRecord} (h : data.instrumentFor fact = some i) :
    data.recordsById.get? i.instrumentId = some i := by
  obtain ⟨own, -, hget⟩ := Option.bind_eq_some_iff.mp h
  have hkey : i.instrumentId = own.instrumentId :=
    key_of_get?_indexBy (fun i : InstrumentRecord => i.instrumentId) hget
  rw [hkey, hget]

end AccountData

/-! ### The transaction -/

/-- The name and the ids that the app has for a category. -/
structure Taxonomy where
  /-- `TaxonomyRegistry.v1.categoryIdForSlug(slug, categoryIdBySlug)`. -/
  categoryIdForSlug : JsString → Option JsString
  /-- `TaxonomyRegistry.v1.categoryFor(slug)?.displayName`. -/
  displayName : JsString → Option JsString

/-- The `method` that an instrument of a kind pays by. -/
def methodOf : Option InstrumentKind → TxnInstrument
  | some .creditCard => .creditCard
  | some .debitCard => .debitCard
  | some .bankAccount => .upiBank
  | some .wallet => .wallet
  | _ => .other

/-- `rail` of a transaction. -/
def railOf : Rail → TxnRail
  | .upi => .upiQr
  | _ => .unknown

/-- A transaction of this instrument may carry a user's card. -/
def TxnInstrument.isCard (method : TxnInstrument) : Bool := method = .creditCard || method = .debitCard

/-- `row.to` if it is external, else `row.from`. -/
def LedgerEntry.external (row : LedgerEntry) : Option JsString :=
  match row.to, row.from with
  | .external key, _ => some key
  | _, .external key => some key
  | _, _ => none

/-- The merchant that a transaction shows. -/
def merchantOf (event : Event) (fact : LedgerFact) (row : LedgerEntry) : Option JsString :=
  let printed := fact.counterparty.bind (·.name)
  -- a card bill is a payment to the user's own card, however it was paid
  if event.type = .cardBillPayment then some (js "Credit card payment")
  else if event.type = .ownTransfer ∧ printed = none then some (js "Transfer between your accounts")
  else if fact.purpose? = some .walletTopup ∧ event.type = .purchase then row.external
  else printed.or row.external

/-- The last four digits of a mask. -/
def last4 (mask : JsString) : JsString := if mask.length > 4 then mask.drop (mask.length - 4) else mask

/-- `transactionForEvent(event, entries, facts, instruments)`. -/
def transactionForEvent (taxonomy : Taxonomy) (event : Event) (entries : List LedgerEntry)
    (data : AccountData) (category : Option CategoryDecision) : Option TransactionEntry :=
  match transactionKindForEvent event, data.moneyFact event, entries.find? fun e => e.unit = .inr with
  | some kind, some fact, some row =>
    let instrument := data.instrumentFor fact.toLedgerFact
    let method := methodOf (instrument.map (·.kind))
    let slug := (category.map (·.slug)).or row.category
    let last := (instrument.bind (·.maskDigits)).map last4
    some {
      id := js "v2:" ++ event.eventId
      eventId := event.eventId
      pipelineVersion := 2
      sourceKey := ((data.factsById.get? event.eventId).map (·.sourceKey)).getD fact.sourceKey
      amount := row.amountMinor
      occurredAt := row.occurredAt
      merchantName := merchantOf event fact.toLedgerFact row
      merchantVpa := fact.counterparty.bind (·.vpa)
      categoryId := slug.bind taxonomy.categoryIdForSlug
      categoryName := slug.bind taxonomy.displayName
      instrument := method
      entryKind := kind
      userCardId := if method.isCard then instrument.bind (·.userCardId) else none
      cardLast4 := if method.isCard then last else none
      accountLast4 := if method = .upiBank then last else none
      cardDisplayName := instrument.map (·.displayName)
      rail := railOf fact.rail
      paymentMethod := if fact.rail = .upi then some (js "upi") else none
      source := js "sms"
      smsReceivedAt := fact.observedAt
      status := js "active" }
  | _, _, _ => none

end PandaPay.SmsV2
