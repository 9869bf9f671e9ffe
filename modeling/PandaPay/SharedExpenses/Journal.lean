import PandaPay.SharedExpenses.Domain

/-!
# The journal of a shared-expense context

The functions of `api/src/shared_expenses/journal.js`: an accepted expense revision or a confirmed
settlement becomes a balance delta, and a delta is applied to the current projection of its
context. A projection lists the members with their balances and the pairs with what the one owes
the other.

## Main definitions

* `State`: members and pairs while they are being summed
* `parseEnvelope`, `output`: reading and writing a projection
* `expenseRevisionDelta`, `settlementDelta`, `applyBalanceDelta`
* `allocateSettlement`
-/

namespace PandaPay.SharedExpenses

def MAX_MEMBERS : ℕ := 200

def MAX_PAIRS : ℕ := MAX_MEMBERS * (MAX_MEMBERS - 1) / 2

/-- A value of the map `pairs`. -/
structure PairRow where
  low : JsString
  high : JsString
  amount : ℤ
  deriving DecidableEq

/-- `empty(contextId)` and what is added to it. -/
structure State where
  contextId : JsString
  members : InsertionMap JsString ℤ
  pairs : InsertionMap JsString PairRow

/-- `empty`. -/
def State.empty (contextId : JsString) : State := ⟨contextId, .empty, .empty⟩

/-- A projection or a delta as it crosses the wire. -/
structure Envelope where
  contextId : JsString
  members : List (JsString × ℤ)
  pairs : List ((JsString × JsString) × ℤ)
  deriving DecidableEq

/-- The object `output` returns. -/
def Envelope.toJson (envelope : Envelope) : Json :=
  object [("contextId", .str envelope.contextId), ("currency", text "INR"),
    ("members", .arr (envelope.members.map fun row =>
      object [("memberId", .str row.1), ("balanceMinor", signedMinor row.2)])),
    ("pairs", .arr (envelope.pairs.map fun row =>
      object [("lowMemberId", .str row.1.1), ("highMemberId", .str row.1.2),
        ("balanceMinor", signedMinor row.2)]))]

/-- `bounded`. -/
def bounded (value : ℤ) (field : String) : Checked ℤ := do
  failIf (value > MAX_AGGREGATE_MINOR ∨ value < -MAX_AGGREGATE_MINOR)
    (err .aggregateLimitExceeded field)
  return value

/-- `signed`. -/
def signed (value : Json) (field : String) : Checked ℤ :=
  match value with
  | .str s => do
    failIf (s.length > 17 ∨ isSigned s = false) (err .invalidBalance field)
    bounded (signedValue s) field
  | _ => .error (err .invalidBalance field)

/-- `scope`, with the context id it has checked. -/
def scope (input : Json) : Checked JsString := do
  let contextId ← member (input.get "contextId") "contextId"
  currency (input.get "currency")
  return contextId

/-- `pairKey`: the member grammar excludes the colon. -/
def pairKey (low high : JsString) : JsString := low ++ js ":" ++ high

/-- `addMember`. -/
def addMember (state : State) (id : JsString) (amount : ℤ) : Checked State := do
  let value ← bounded ((state.members.get? id).getD 0 + amount) "members"
  return { state with members := state.members.set id value }

/-- `addPair`. -/
def addPair (state : State) (creditor debtor : JsString) (amount : ℤ) : Checked State := do
  let low := if creditor < debtor then creditor else debtor
  let high := if creditor < debtor then debtor else creditor
  let key := pairKey low high
  let delta := if creditor = low then amount else -amount
  let current := ((state.pairs.get? key).map PairRow.amount).getD 0
  let value ← bounded (current + delta) "pairs"
  return { state with pairs := state.pairs.set key ⟨low, high, value⟩ }

/-- `[...state.pairs.values()].reduce((sum,row)=>sum+|row.amount|)`. -/
def grossMinor (pairs : InsertionMap JsString PairRow) : ℤ :=
  (pairs.values.map fun row => if row.amount < 0 then -row.amount else row.amount).sum

/-- The comparator of the output pairs. -/
def PairRow.le (a b : PairRow) : Prop :=
  if a.low < b.low then True else if a.low > b.low then False else a.high ≤ b.high

instance : DecidableRel PairRow.le := fun a b => by
  unfold PairRow.le
  infer_instance

/-- `output`. -/
def output (state : State) (omitZeroMembers : Bool := false) : Checked Envelope := do
  let _ ← bounded (grossMinor state.pairs) "grossMinor"
  let nonzero := state.pairs.values.filter (·.amount ≠ 0)
  let paired := nonzero.flatMap fun row => [row.low, row.high]
  let members := state.members.sorted.filter fun entry =>
    !omitZeroMembers ∨ entry.2 ≠ 0 ∨ entry.1 ∈ paired
  let pairs := (nonzero.insertionSort PairRow.le).map fun row => ((row.low, row.high), row.amount)
  return ⟨state.contextId, members, pairs⟩

/-- The body of the member loop of `parseEnvelope`. -/
def parseMember (field : String) (members : InsertionMap JsString ℤ) (entry : Json × ℕ) :
    Checked (InsertionMap JsString ℤ) := do
  let (row, i) := entry
  let path := s!"{field}.members[{i}]"
  record row ["memberId", "balanceMinor"] path
  let id ← member (row.get "memberId") s!"{path}.memberId"
  failIf (id ∈ members.keys) (err .duplicateMember s!"{path}.memberId")
  let value ← signed (row.get "balanceMinor") s!"{path}.balanceMinor"
  return members.set id value

/-- The body of the pair loop of `parseEnvelope`, with the map `incidence`. -/
def parsePair (field : String)
    (acc : InsertionMap JsString PairRow × InsertionMap JsString ℤ) (entry : Json × ℕ) :
    Checked (InsertionMap JsString PairRow × InsertionMap JsString ℤ) := do
  let (pairs, incidence) := acc
  let (row, i) := entry
  let path := s!"{field}.pairs[{i}]"
  record row ["lowMemberId", "highMemberId", "balanceMinor"] path
  let low ← member (row.get "lowMemberId") s!"{path}.lowMemberId"
  let high ← member (row.get "highMemberId") s!"{path}.highMemberId"
  failIf (low ≥ high) (err .invalidBalancePair path)
  let key := pairKey low high
  let amount ← signed (row.get "balanceMinor") s!"{path}.balanceMinor"
  failIf (key ∈ pairs.keys) (err .invalidBalancePair path)
  let incidence := incidence.set low ((incidence.get? low).getD 0 + amount)
  let incidence := incidence.set high ((incidence.get? high).getD 0 - amount)
  return (pairs.set key ⟨low, high, amount⟩, incidence)

/-- `!Array.isArray(value) || value.length > max`. -/
def list (value : Json) (max : ℕ) (code : ErrorCode) (field : String) : Checked (List Json) :=
  match value with
  | .arr items => do
    failIf (items.length > max) (err code field)
    return items
  | _ => .error (err code field)

/-- `parseEnvelope`. -/
def parseEnvelope (input : Json) (field : String) : Checked State := do
  record input ["contextId", "currency", "members", "pairs"] field
  let contextId ← scope input
  let memberRows ← list (input.get "members") MAX_MEMBERS .invalidParticipantCount s!"{field}.members"
  let pairRows ← list (input.get "pairs") MAX_PAIRS .invalidBalancePair s!"{field}.pairs"
  let members ← memberRows.zipIdx.foldlM (parseMember field) .empty
  let (pairs, incidence) ← pairRows.zipIdx.foldlM (parsePair field) (.empty, .empty)
  failIf ((unionKeys incidence.keys members.keys).any fun id =>
      id ∉ members.keys ∨ some ((incidence.get? id).getD 0) ≠ members.get? id)
    (err .balanceMismatch field)
  let _ ← bounded (grossMinor pairs) "grossMinor"
  return ⟨contextId, members, pairs⟩

/-- The pass of the loop of `expenseRevisionDelta` over one snapshot. The balances and amounts it
parses are the ones `projectExpense` has just printed. -/
def addSnapshot (result : State) (snapshot : Json) (sign : ℤ) : Checked State := do
  if snapshot.isNull then return result
  let projected ← projectExpense snapshot
  let result ← projected.positions.foldlM
    (fun state row => addMember state row.memberId (row.balanceMinor * sign)) result
  projected.obligations.foldlM
    (fun state edge => addPair state edge.creditorId edge.debtorId (edge.amountMinor * sign)) result

/-- `expenseRevisionDelta`. -/
def expenseRevisionDelta (input : Json) : Checked Envelope := do
  record input ["contextId", "currency", "previous", "next"] "$"
  let contextId ← scope input
  failIf ((input.get "previous").isNull ∧ (input.get "next").isNull) (err .invalidInput "$")
  let result ← addSnapshot (.empty contextId) (input.get "previous") (-1)
  let result ← addSnapshot result (input.get "next") 1
  output result true

/-- `settlementDelta`. -/
def settlementDelta (input : Json) : Checked Envelope := do
  record input ["contextId", "currency", "payerId", "receiverId", "amountMinor", "direction"] "$"
  let contextId ← scope input
  let payer ← member (input.get "payerId") "payerId"
  let receiver ← member (input.get "receiverId") "receiverId"
  failIf (payer = receiver) (err .invalidSettlement "receiverId")
  let direction := input.get "direction"
  failIf ([js "confirm", js "reverse"].any direction.isStr = false)
    (err .invalidSettlementDirection "direction")
  let paid ← amount (input.get "amountMinor") "amountMinor" MAX_EXPENSE_MINOR true
  let amount : ℤ := paid * (if direction.isStr (js "confirm") then 1 else -1)
  let result ← addMember (.empty contextId) payer amount
  let result ← addMember result receiver (-amount)
  let result ← addPair result payer receiver amount
  output result true

/-- `applyBalanceDelta`. -/
def applyBalanceDelta (input : Json) : Checked Envelope := do
  record input ["current", "delta"] "$"
  let current ← parseEnvelope (input.get "current") "current"
  let delta ← parseEnvelope (input.get "delta") "delta"
  failIf (current.contextId ≠ delta.contextId) (err .contextMismatch "delta.contextId")
  let current ← delta.members.entries.foldlM (fun state e => addMember state e.1 e.2) current
  failIf (current.members.size > MAX_MEMBERS) (err .invalidParticipantCount "members")
  let current ← delta.pairs.values.foldlM
    (fun state row => addPair state row.low row.high row.amount) current
  output current

/-! ### Settling obligations in order -/

/-- The result of `allocateSettlement`. -/
structure SettlementAllocation where
  allocations : List (JsString × ℕ)
  creditMinor : ℕ
  deriving DecidableEq

/-- The object `allocateSettlement` returns. -/
def SettlementAllocation.toJson (result : SettlementAllocation) : Json :=
  object [("allocations", .arr (result.allocations.map fun row =>
      object [("obligationId", .str row.1), ("amountMinor", minor row.2)])),
    ("creditMinor", minor result.creditMinor)]

/-- The body of the obligation loop of `allocateSettlement`. -/
def obligationRow (rows : InsertionMap JsString ℕ) (entry : Json × ℕ) :
    Checked (InsertionMap JsString ℕ) := do
  let (row, i) := entry
  let path := s!"obligations[{i}]"
  record row ["obligationId", "outstandingMinor"] path
  let id ← member (row.get "obligationId") s!"{path}.obligationId"
  failIf (id ∈ rows.keys) (err .duplicateMember s!"{path}.obligationId")
  let outstanding ← amount (row.get "outstandingMinor") s!"{path}.outstandingMinor"
    MAX_AGGREGATE_MINOR false .aggregateLimitExceeded
  return rows.set id outstanding

/-- The loop over `allocationOrder`: what is allocated, and what remains. -/
def settleInOrder (rows : InsertionMap JsString ℕ) :
    ℕ → List JsString → List (JsString × ℕ) × ℕ
  | remaining, [] => ([], remaining)
  | remaining, id :: ids =>
    let available := (rows.get? id).getD 0
    let amount := if available < remaining then available else remaining
    let (allocations, credit) := settleInOrder rows (remaining - amount) ids
    (if amount > 0 then (id, amount) :: allocations else allocations, credit)

/-- `allocateSettlement`. -/
def allocateSettlement (input : Json) : Checked SettlementAllocation := do
  record input ["amountMinor", "obligations", "allocationOrder"] "$"
  let total ← amount (input.get "amountMinor") "amountMinor" MAX_EXPENSE_MINOR true
  count (input.get "obligations") 100 .invalidObligationCount "obligations"
  let rows ← (input.get "obligations").items.zipIdx.foldlM obligationRow .empty
  let allocationOrder ← order (input.get "allocationOrder") rows.keys "allocationOrder"
  let (allocations, creditMinor) := settleInOrder rows total allocationOrder
  return ⟨allocations, creditMinor⟩

end PandaPay.SharedExpenses
