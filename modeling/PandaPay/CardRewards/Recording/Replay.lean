import PandaPay.CardRewards.Recording.States

/-!
# Replaying the ledger

How `card_state_v2.js` plans the rebuild of a card: which periods it replays, what rows, records and
expected values the stored transactions give, and how they differ from what is stored. Days are texts and
are compared as texts.

## Main definitions

* `rebuildRange`, `rebuildPeriods`: the days and the periods of a rebuild
* `replayCaps`, `replayMilestones`: the rows that the transactions give
* `planReplay`: the plan
-/

namespace PandaPay.CardRewards

/-! ### The range of a rebuild -/

/-- `monthStart(day)`. -/
def monthStartText (day : JsString) : JsString := day.take 8 ++ js "01"

/-- The days of a cap rebuild, and those that only seed it. -/
structure CapRange where
  start : JsString
  «end» : JsString
  seedFrom : JsString
  seedTo : JsString

/-- The window of a milestone that is rebuilt. -/
structure MilestoneRange extends CapWindow where
  id : JsString

/-- `rebuildRange` returns this. -/
structure RebuildRange where
  asOf : JsString
  caps : Option CapRange
  milestones : List MilestoneRange
  loadFrom : Option JsString
  loadTo : Option JsString

/-- The options of a rebuild. `asOf` is an instant; `since` and `floor` are days. -/
structure RebuildOptions where
  asOf : ℤ
  since : Option JsString := none
  caps : Bool := true
  milestones : Bool := false
  expected : Bool := false
  floor : Option JsString := none

/-- The window of a day, from the windows of the instants. An invalid date has invalid bounds, and no
welcome window. -/
def windowOn (period : Period) (windowDays : Option ℤ) (window : ℤ → Option CapWindow) (day : JsString) :
    Option CapWindow :=
  match parseDate day with
  | some d => window (d * dayMs)
  | none =>
    if windowDays.isSome then none
    else
      (window 0).map fun w =>
        if period = .lifetime then w else { w with start := invalidDateText, «end» := invalidDateText }

namespace UserCard

variable (v2 : UserCard)

/-- `capWindow(v2, cap, day)`, for a day. -/
def capWindowOn (cap : CapRule) (day : JsString) : Option CapWindow :=
  windowOn cap.period none (v2.capWindow cap) day

/-- `milestoneWindow(v2, m, day)`, for a day. -/
def milestoneWindowOn (milestone : MilestoneRule) (day : JsString) : Option CapWindow :=
  windowOn milestone.period milestone.windowDays (v2.milestoneWindow milestone) day

/-- The windows of the caps of the card on a day. -/
def capWindowsOn (day : JsString) : List CapWindow := v2.caps.filterMap fun cap => v2.capWindowOn cap day

/-- The days of the cap rebuild of `rebuildRange`. -/
def capRange (options : RebuildOptions) (day : JsString) (atFloor : JsString → JsString) : CapRange :=
  let start := (v2.capWindowsOn day).foldl (fun start window => min start window.start) day
  let «end» := v2.caps.foldl (fun last cap =>
    if cap.period = .lifetime then last
    else ((v2.capWindowOn cap day).map fun window => max last window.end).getD last) day
  let start := if options.expected then min start (monthStartText day) else start
  let start := atFloor ((options.since.map fun since => min start since).getD start)
  { start := start
    «end» := «end»
    seedFrom := atFloor ((v2.capWindowsOn start).foldl (fun first window => min first window.start) start)
    seedTo := (v2.capWindowsOn «end»).foldl (fun last window => max last window.end) «end» }

/-- `rebuildRange(v2, options)`. -/
def rebuildRange (options : RebuildOptions) : RebuildRange :=
  let day := istDay options.asOf
  let floorDay := options.floor.map fun floor => min floor day
  let atFloor (d : JsString) : JsString := (floorDay.map fun floor => max d floor).getD d
  let caps := if options.caps || options.expected then some (v2.capRange options day atFloor) else none
  let milestones := if options.milestones then
    v2.milestones.filterMap fun milestone =>
      (v2.milestoneWindowOn milestone day).map fun window => ⟨window, milestone.id⟩
    else []
  { asOf := day
    caps := caps
    milestones := milestones
    loadFrom := milestones.foldl (fun first window =>
      some ((first.map fun first => min first (atFloor window.start)).getD (atFloor window.start)))
      (caps.map CapRange.seedFrom)
    loadTo := milestones.foldl (fun last window =>
      some ((last.map fun last => max last window.end).getD window.end)) (caps.map CapRange.seedTo) }

/-- `capPeriodsBetween(v2, cap, start, end)`, for at most so many periods, from a window on. -/
def capPeriodsFrom (cap : CapRule) («end» : JsString) : ℕ → Option CapWindow → List CapWindow
  | steps + 1, some window =>
    window :: if «end» ≤ window.end then []
      else capPeriodsFrom cap «end» steps (v2.capWindowOn cap (addDays window.end 1))
  | _, _ => []

/-- `MAX_PERIODS_PER_CAP`. -/
def maxPeriodsPerCap : ℕ := 5000

/-- `rebuildPeriods(v2, range)`: the periods of each cap, but none behind its own period at `asOf`. -/
def rebuildPeriods (range : RebuildRange) : List (CapRule × CapWindow) :=
  match range.caps with
  | none => []
  | some caps => v2.caps.flatMap fun cap =>
      let own := (v2.capWindowOn cap range.asOf).map CapWindow.toBounds
      let last := min caps.end ((own.map Bounds.end).getD caps.end)
      (v2.capPeriodsFrom cap last maxPeriodsPerCap (v2.capWindowOn cap caps.start)).map fun window =>
        (cap, window)

end UserCard

/-! ### Rows -/

/-- `sameNumber(a, b)`. -/
def sameNumber : Option ℚ → Option ℚ → Bool
  | some x, some y => |x - y| < 5 / 1000
  | none, none => true
  | _, _ => false

/-- `capNativeAmount(cap, kind, card)`. -/
def capNativeAmount (cap : CapRule) (kind : CapKind) (card : Card) : Option ℚ :=
  if cap.capKind.isSome then cap.capAmount
  else
    match cap.capValue with
    | none => none
    | some value =>
      if cap.measure = .known .rewardValue ∧ (kind = .totalPoints ∨ kind = .bonusPoints) then
        let pointValue := card.pointValueInr.getD 0
        if 0 < pointValue then some (value / pointValue) else none
      else some value

/-- What an entry adds to the row of its period. -/
structure SlotEntry where
  key : RowKey
  delta : ℚ
  kind : Option CapKind
  /-- The amount of its cap, where the entry knows it. -/
  amount : Option ℚ

/-- A replayed entry, as it is added to its row. -/
def CapEntry.slotEntry (e : CapEntry) (userCardId : JsString) : SlotEntry :=
  ⟨⟨userCardId, e.id, e.start⟩, e.delta, some e.kind, some e.amount⟩

/-- An entry of a record, as it is added to its row. -/
def RecordEntry.slotEntry (e : RecordEntry) (userCardId : JsString) : SlotEntry :=
  ⟨⟨userCardId, e.id, e.start⟩, e.delta, e.kind, none⟩

namespace UserCard

variable (v2 : UserCard)

/-- What a row has for `cap_value_snapshot`. -/
def capSnapshot (capId : JsString) : ℚ := ((v2.capById capId).bind CapRule.capValue).getD 0

/-- The rows that are rebuilt, before the replay. -/
def slots (range : RebuildRange) : InsertionMap RowKey CapState :=
  (v2.rebuildPeriods range).foldl (fun rows period =>
    rows.set ⟨v2.userCardId, period.1.id, period.2.start⟩
      { periodEnd := period.2.end
        consumed := 0
        capValueSnapshot := period.1.capValue.getD 0
        capKind := none
        capAmount := none
        approximateWindow := period.2.approximate }) .empty

/-- A row after an entry is added to it: the first entry of a kind gives it its kind. -/
def addedTo (row : CapState) (e : SlotEntry) : CapState :=
  let row := { row with consumed := row.consumed + e.delta }
  match row.capKind, e.kind with
  | none, some kind =>
    { row with
      capKind := some kind
      capAmount := e.amount.or ((v2.capById e.key.ruleId).bind fun cap => capNativeAmount cap kind v2.card) }
  | _, _ => row

/-- `addToCapRow(e)`, where there is a row. -/
def addToCapRow (rows : InsertionMap RowKey CapState) (e : SlotEntry) : InsertionMap RowKey CapState :=
  match rows.get? e.key with
  | some row => rows.set e.key (v2.addedTo row e)
  | none => rows

/-- A replayed entry is added to its row. A period that was not enumerated gets one. -/
def addReplayed (rows : InsertionMap RowKey CapState) (e : CapEntry) : InsertionMap RowKey CapState :=
  let key : RowKey := ⟨v2.userCardId, e.id, e.start⟩
  if (rows.get? key).isSome then v2.addToCapRow rows (e.slotEntry v2.userCardId)
  else
    rows.set key
      { periodEnd := e.end
        consumed := e.delta
        capValueSnapshot := v2.capSnapshot e.id
        capKind := some e.kind
        capAmount := some e.amount
        approximateWindow := e.approximate }

end UserCard

/-! ### The replay -/

/-- What `planReplay` is called with, besides the card. -/
structure ReplayInput where
  range : RebuildRange
  transactions : List (JsString × StoredTransaction)
  expected : Bool := false
  excludeTxnIds : List JsString := []
  existingCapRows : List (RowKey × CapState) := []
  existingMilestoneRows : List (RowKey × MilestoneState) := []

/-- `isEligible(t)`, but for the transactions that are left out. -/
def StoredTransaction.isEligible (txn : StoredTransaction) : Bool :=
  txn.status = js "active" && txn.instrument = js "credit_card" && txn.entryKind = js "spend" &&
    !txn.isBackfill

namespace ReplayInput

variable (input : ReplayInput)

/-- `isEligible(t)`. -/
def isEligible (t : JsString × StoredTransaction) : Bool := t.2.isEligible && t.1 ∉ input.excludeTxnIds

/-- The transactions by time and id. -/
def ordered : List (JsString × StoredTransaction) :=
  input.transactions.insertionSort fun a b => toLex (a.2.occurredAt, a.1) ≤ toLex (b.2.occurredAt, b.1)

end ReplayInput

/-- What a rebuild sets of the expected values of a transaction. -/
structure ExpectedUpdate where
  id : JsString
  occurredAt : ℤ
  native : ℚ
  value : ℚ
  points : Option ℚ
  cashback : Option ℚ

/-- What the replay of the caps has so far. -/
structure CapReplay where
  rows : InsertionMap RowKey CapState
  /-- `newCapEntries`. -/
  entries : InsertionMap JsString (List CapEntry)
  expectedUpdates : List ExpectedUpdate

section Replay

variable (server : Server) (v2 : UserCard) (input : ReplayInput)

/-- The price of a stored transaction in the replay. -/
def replayedOutcome (rows : InsertionMap RowKey CapState) (txn : StoredTransaction) : Outcome :=
  computeTransactionV2 server v2
    (fun id start => (rows.get? ⟨v2.userCardId, id, start⟩).elim 0 CapState.consumed)
    (capPlan server v2 (transactionContext txn.toSpendRow))

/-- The expected values of a transaction are those of an outcome. -/
def hasExpected (txn : StoredTransaction) (outcome : Outcome) : Bool :=
  sameNumber txn.expectedPoints (some outcome.native) &&
    sameNumber txn.expectedValueInr (some outcome.value) &&
    sameNumber txn.expectedCashbackInr outcome.cashback

/-- The replay of one transaction. One outside of the window only seeds. -/
def replayTransaction (caps : CapRange) (replay : CapReplay) (t : JsString × StoredTransaction) :
    CapReplay :=
  if !input.isEligible t then replay
  else if istDay t.2.occurredAt < caps.start ∨ caps.end < istDay t.2.occurredAt then
    { replay with
      rows := (t.2.cardStateV2.elim [] Record.caps).foldl (fun rows e =>
        v2.addToCapRow rows (e.slotEntry v2.userCardId)) replay.rows }
  else
    let outcome := replayedOutcome server v2 replay.rows t.2
    { rows := outcome.capEntries.foldl v2.addReplayed replay.rows
      entries := replay.entries.set t.1 outcome.capEntries
      expectedUpdates := replay.expectedUpdates ++
        if input.expected && !hasExpected t.2 outcome then
          [⟨t.1, t.2.occurredAt, outcome.native, outcome.value, outcome.points, outcome.cashback⟩]
        else [] }

/-- The replay of the caps. -/
def replayCaps : CapReplay :=
  let start : CapReplay := ⟨v2.slots input.range, .empty, []⟩
  match input.range.caps with
  | none => start
  | some caps => input.ordered.foldl (replayTransaction server v2 input caps) start

/-- What the replay of the milestones has so far. -/
structure MilestoneReplay where
  rows : InsertionMap RowKey MilestoneState
  /-- `newMilestoneEntries`. -/
  entries : InsertionMap JsString (List MilestoneEntry)

/-- The rows of milestones that are rebuilt, before the replay. -/
def milestoneSlots (range : RebuildRange) : InsertionMap RowKey MilestoneState :=
  range.milestones.foldl (fun rows window =>
    rows.set ⟨v2.userCardId, window.id, window.start⟩ ⟨window.end, 0, window.approximate⟩) .empty

/-- The entries of a transaction for the milestones that are rebuilt. -/
def replayedMilestones (rows : InsertionMap RowKey MilestoneState) (txn : StoredTransaction) :
    List MilestoneEntry :=
  let ctx := transactionContext txn.toSpendRow
  (milestoneEntries v2 ctx (capPlan server v2 ctx).excluded).filter fun e =>
    (rows.get? ⟨v2.userCardId, e.id, e.start⟩).isSome

def addMilestone (rows : InsertionMap RowKey MilestoneState) (e : MilestoneEntry) :
    InsertionMap RowKey MilestoneState :=
  match rows.get? ⟨v2.userCardId, e.id, e.start⟩ with
  | some row => rows.set ⟨v2.userCardId, e.id, e.start⟩
      { row with qualifiedSpend := row.qualifiedSpend + e.delta }
  | none => rows

/-- The replay of the milestones of one transaction. -/
def replayMilestone (replay : MilestoneReplay) (t : JsString × StoredTransaction) : MilestoneReplay :=
  if !input.isEligible t then replay
  else
    let entries := replayedMilestones server v2 replay.rows t.2
    ⟨entries.foldl (addMilestone v2) replay.rows, replay.entries.set t.1 entries⟩

/-- The replay of the milestones. -/
def replayMilestones : MilestoneReplay :=
  let start : MilestoneReplay := ⟨milestoneSlots v2 input.range, .empty⟩
  if start.rows.size = 0 then start
  else input.ordered.foldl (replayMilestone server v2 input) start

/-! ### Records -/

/-- `supersededCapEntry(e)`, for the rows that are rebuilt. -/
def supersededCapEntry (rows : InsertionMap RowKey CapState) (e : RecordEntry) : Bool :=
  (rows.get? ⟨v2.userCardId, e.id, e.start⟩).isSome ||
    input.range.caps.any fun caps => (v2.capById e.id).isSome && e.start ≤ caps.end &&
      caps.start ≤ (if e.end = [] then e.start else e.end)

/-- The window of a milestone that is rebuilt. -/
def milestoneWindowById (range : RebuildRange) (id : JsString) : Option MilestoneRange :=
  (indexBy MilestoneRange.id (fun window => window) range.milestones).get? id

/-- `supersededMilestoneEntry(e)`, for the rows that are rebuilt. -/
def supersededMilestoneEntry (rows : InsertionMap RowKey MilestoneState) (e : RecordEntry) : Bool :=
  (rows.get? ⟨v2.userCardId, e.id, e.start⟩).isSome ||
    (milestoneWindowById input.range e.id).any fun window => e.start ≤ window.end &&
      window.start ≤ (if e.end = [] then e.start else e.end)

/-- The sections of the record of a transaction after the rebuild. -/
def rebuiltSections (caps : CapReplay) (milestones : MilestoneReplay) (t : JsString × StoredTransaction) :
    RecordSection → List RecordEntry
  | .caps =>
    let old := t.2.cardStateV2.elim [] Record.caps
    if input.range.caps.isSome && ((caps.entries.get? t.1).isSome || !input.isEligible t) then
      (old.filter fun e => !supersededCapEntry v2 input caps.rows e) ++
        if input.isEligible t then ((caps.entries.get? t.1).getD []).map CapEntry.recordEntry else []
    else old
  | .milestones =>
    let old := t.2.cardStateV2.elim [] Record.milestones
    if milestones.rows.size ≠ 0 && ((milestones.entries.get? t.1).isSome || !input.isEligible t) then
      (old.filter fun e => !supersededMilestoneEntry v2 input milestones.rows e) ++
        if input.isEligible t then ((milestones.entries.get? t.1).getD []).map MilestoneEntry.recordEntry
        else []
    else old
  | .feeWaivers => t.2.cardStateV2.elim [] Record.feeWaivers

/-- `recordEntry(e)` of an entry of a record. -/
def RecordEntry.rounded (e : RecordEntry) : RecordEntry := { e with delta := round2 e.delta }

/-- `toRecord(v2.userCardId, sections)`. -/
def rebuiltRecord (sections : RecordSection → List RecordEntry) : Option Record :=
  toRecord v2.userCardId fun name => (sections name).map RecordEntry.rounded

/-- `canonical(record)`, as a record. -/
def canonical (record : Option Record) : Option Record :=
  record.map fun record =>
    ⟨record.userCardId, sortEntries (record.caps.map RecordEntry.rounded),
      sortEntries (record.milestones.map RecordEntry.rounded),
      sortEntries (record.feeWaivers.map RecordEntry.rounded)⟩

/-- The records that change. -/
def recordUpdates (caps : CapReplay) (milestones : MilestoneReplay) : List (JsString × Option Record) :=
  (input.ordered.filter fun t => t.1 ∉ input.excludeTxnIds).filterMap fun t =>
    let next := rebuiltRecord v2 (rebuiltSections v2 input caps milestones t)
    if canonical next = canonical t.2.cardStateV2 then none else some (t.1, next)

/-! ### The plan -/

/-- A row before and after a rebuild: what it counts, and the kind of a cap. -/
structure RowDiff where
  key : RowKey
  before : Option (ℚ × Option CapKind)
  after : Option (ℚ × Option CapKind)

/-- `planReplay` returns this, without what it was called with. -/
structure ReplayPlan where
  capRows : List (RowKey × CapState)
  capsToDelete : List RowKey
  milestoneRows : List (RowKey × MilestoneState)
  milestonesToDelete : List RowKey
  txnRecordUpdates : List (JsString × Option Record)
  txnExpectedUpdates : List ExpectedUpdate
  capDiff : List RowDiff
  milestoneDiff : List RowDiff

/-- A rebuilt row, as it is planned. -/
def plannedCap (row : CapState) : CapState :=
  { row with consumed := round2 row.consumed, capAmount := row.capAmount.map round2 }

/-- A rebuilt row of a milestone, as it is planned. -/
def plannedMilestone (row : MilestoneState) : MilestoneState :=
  { row with qualifiedSpend := round2 row.qualifiedSpend }

/-- The planned rows: those that count something. -/
def plannedCaps (rows : InsertionMap RowKey CapState) : List (RowKey × CapState) :=
  (rows.entries.map fun entry => (entry.1, plannedCap entry.2)).filter fun entry => 0 < entry.2.consumed

def plannedMilestones (rows : InsertionMap RowKey MilestoneState) : List (RowKey × MilestoneState) :=
  (rows.entries.map fun entry => (entry.1, plannedMilestone entry.2)).filter fun entry =>
    0 < entry.2.qualifiedSpend

/-- A row of a cap is planned as it is stored. -/
def sameCap (before after : CapState) : Bool :=
  sameNumber (some before.consumed) (some after.consumed) && before.capKind = after.capKind &&
    sameNumber before.capAmount after.capAmount && before.approximateWindow = after.approximateWindow &&
    before.periodEnd = after.periodEnd

/-- A row of a milestone is planned as it is stored. -/
def sameMilestone (before after : MilestoneState) : Bool :=
  sameNumber (some before.qualifiedSpend) (some after.qualifiedSpend) &&
    before.approximateWindow = after.approximateWindow && before.periodEnd = after.periodEnd

/-- What a diff says of a row of a cap. -/
def CapState.told (row : CapState) : ℚ × Option CapKind := (row.consumed, row.capKind)

/-- What a diff says of a row of a milestone. -/
def MilestoneState.told (row : MilestoneState) : ℚ × Option CapKind := (row.qualifiedSpend, none)

/-- The stored rows of caps that overlap the window and are not rebuilt. -/
def overlappingCaps (rows : InsertionMap RowKey CapState) : List (RowKey × CapState) :=
  input.existingCapRows.filter fun entry => input.range.caps.any fun caps =>
    (rows.get? entry.1).isNone && (v2.capById entry.1.ruleId).isSome &&
      entry.1.periodStart ≤ caps.end && caps.start ≤ entry.2.periodEnd

/-- The stored rows of milestones that overlap a rebuilt window. -/
def overlappingMilestones : List (RowKey × MilestoneState) :=
  input.existingMilestoneRows.filter fun entry =>
    (milestoneWindowById input.range entry.1.ruleId).any fun window =>
      entry.1.periodStart ≤ window.end && window.start ≤ entry.2.periodEnd

/-- The rebuilt rows that are planned other than stored: the key, the stored row and the planned one. -/
def changedRows {ρ : Type} (keys : List RowKey) (existing planned : RowKey → Option ρ)
    (same : ρ → ρ → Bool) : List (RowKey × Option ρ × Option ρ) :=
  keys.filterMap fun k =>
    match existing k, planned k with
    | none, none => none
    | some before, some after => if same before after then none else some (k, some before, some after)
    | before, after => some (k, before, after)

/-- The entry of a list under a key, the last one. -/
def entryAt {ρ : Type} (entries : List (RowKey × ρ)) (k : RowKey) : Option ρ :=
  (indexBy Prod.fst Prod.snd entries).get? k

/-- The diff of a row. -/
def diffOf {ρ : Type} (told : ρ → ℚ × Option CapKind) (change : RowKey × Option ρ × Option ρ) : RowDiff :=
  ⟨change.1, change.2.1.map told, change.2.2.map told⟩

/-- `planReplay({ v2, directory, range, transactions, expected, … })`. -/
def planReplay : ReplayPlan :=
  let caps := replayCaps server v2 input
  let milestones := replayMilestones server v2 input
  let capRows := plannedCaps caps.rows
  let milestoneRows := plannedMilestones milestones.rows
  let moved := overlappingCaps v2 input caps.rows
  let changedCaps := changedRows caps.rows.keys (entryAt input.existingCapRows) (entryAt capRows) sameCap
  let inScope := overlappingMilestones input
  let movedMilestones := inScope.filter fun entry => (milestones.rows.get? entry.1).isNone
  let changedMilestones :=
    changedRows milestones.rows.keys (entryAt inScope) (entryAt milestoneRows) sameMilestone
  { capRows := capRows
    capsToDelete := moved.map Prod.fst ++
      (changedCaps.filter fun change => change.2.1.isSome && change.2.2.isNone).map Prod.fst
    milestoneRows := milestoneRows
    milestonesToDelete := movedMilestones.map Prod.fst ++
      (changedMilestones.filter fun change => change.2.1.isSome && change.2.2.isNone).map Prod.fst
    txnRecordUpdates := recordUpdates v2 input caps milestones
    txnExpectedUpdates := caps.expectedUpdates
    capDiff := (moved.map fun entry => ⟨entry.1, some entry.2.told, none⟩) ++
      changedCaps.map (diffOf CapState.told)
    milestoneDiff := (movedMilestones.map fun entry => ⟨entry.1, some entry.2.told, none⟩) ++
      changedMilestones.map (diffOf MilestoneState.told) }

end Replay

end PandaPay.CardRewards
