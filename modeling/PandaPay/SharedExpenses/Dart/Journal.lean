import PandaPay.SharedExpenses.Dart.Domain
import PandaPay.SharedExpenses.Journal

/-!
# The journal in Dart

The app's own implementation of the shared-expense journal, translated from `journal.dart` of
`packages/pandapay_domain/lib/src/shared_expenses`. Its map of pairs is keyed by the pair of ids,
where the API's is keyed by one string.

## Main definitions

* `State`: members and pairs while they are being summed
* `parseEnvelope`, `output`
* `expenseRevisionDelta`, `settlementDelta`, `applyBalanceDelta`, `allocateSettlement`
-/

namespace PandaPay.SharedExpenses.Dart

/-- `_State`. -/
structure State where
  contextId : JsString
  members : InsertionMap JsString ℤ
  pairs : InsertionMap (JsString × JsString) ℤ

/-- A new `_State`. -/
def State.empty (contextId : JsString) : State := ⟨contextId, .empty, .empty⟩

/-- `_bounded`. -/
def bounded (value : ℤ) (field : String) : Checked ℤ := do
  failIf (value > maxAggregateMinor ∨ value < -maxAggregateMinor)
    (err .aggregateLimitExceeded field)
  return value

/-- `_signed`. -/
def signed (value : Json) (field : String) : Checked ℤ :=
  match value with
  | .str s => do
    failIf (s.length > 17 ∨ isSigned s = false) (err .invalidBalance field)
    bounded (signedValue s) field
  | _ => .error (err .invalidBalance field)

/-- `_scope`, with the context id it has checked. -/
def scope (input : Json) : Checked JsString := do
  let contextId ← member (input.get "contextId") "contextId"
  currency (input.get "currency")
  return contextId

/-- `_addMember`. -/
def addMember (state : State) (id : JsString) (amount : ℤ) : Checked State := do
  let value ← bounded ((state.members.get? id).getD 0 + amount) "members"
  return { state with members := state.members.set id value }

/-- `_addPair`. -/
def addPair (state : State) (creditor debtor : JsString) (amount : ℤ) : Checked State := do
  let low := if creditor < debtor then creditor else debtor
  let high := if creditor < debtor then debtor else creditor
  let key := (low, high)
  let delta := if creditor = low then amount else -amount
  let value ← bounded ((state.pairs.get? key).getD 0 + delta) "pairs"
  return { state with pairs := state.pairs.set key value }

/-- `state.pairs.values.fold(_zero, (sum, amount) => sum + amount.abs())`. -/
def grossMinor (pairs : InsertionMap (JsString × JsString) ℤ) : ℤ :=
  pairs.values.foldl (fun sum amount => sum + |amount|) 0

/-- The comparator of the output pairs: by the first id, then by the second. -/
def pairLe (a b : (JsString × JsString) × ℤ) : Prop :=
  if a.1.1 ≠ b.1.1 then a.1.1 < b.1.1 else a.1.2 ≤ b.1.2

instance : DecidableRel pairLe := fun a b => by
  unfold pairLe
  infer_instance

/-- `_output`. -/
def output (state : State) (omitZeroMembers : Bool := false) : Checked Envelope := do
  let _ ← bounded (grossMinor state.pairs) "grossMinor"
  let pairs := (state.pairs.entries.filter (·.2 ≠ 0)).insertionSort pairLe
  let paired := pairs.flatMap fun row => [row.1.1, row.1.2]
  let members := state.members.keys.insertionSort (· ≤ ·)
  return ⟨state.contextId,
    (members.filter fun id =>
      !omitZeroMembers ∨ state.members.get? id ≠ some 0 ∨ id ∈ paired).map fun id =>
        (id, (state.members.get? id).getD 0),
    pairs⟩

/-- The map `_output` returns. -/
def envelopeJson (envelope : Envelope) : Json :=
  object [("contextId", .str envelope.contextId), ("currency", text "INR"),
    ("members", .arr (envelope.members.map fun row =>
      object [("memberId", .str row.1), ("balanceMinor", signedMinor row.2)])),
    ("pairs", .arr (envelope.pairs.map fun row =>
      object [("lowMemberId", .str row.1.1), ("highMemberId", .str row.1.2),
        ("balanceMinor", signedMinor row.2)]))]

/-- The body of the member loop of `_parseEnvelope`. -/
def parseMember (field : String) (members : InsertionMap JsString ℤ) (entry : Json × ℕ) :
    Checked (InsertionMap JsString ℤ) := do
  let (row, i) := entry
  let path := s!"{field}.members[{i}]"
  record row ["memberId", "balanceMinor"] s!"{field}.members[{i}]"
  let id ← member (row.get "memberId") s!"{path}.memberId"
  failIf (id ∈ members.keys) (err .duplicateMember s!"{path}.memberId")
  let value ← signed (row.get "balanceMinor") s!"{path}.balanceMinor"
  return members.set id value

/-- The body of the pair loop of `_parseEnvelope`, with the map `incidence`. -/
def parsePair (field : String)
    (acc : InsertionMap (JsString × JsString) ℤ × InsertionMap JsString ℤ) (entry : Json × ℕ) :
    Checked (InsertionMap (JsString × JsString) ℤ × InsertionMap JsString ℤ) := do
  let (pairs, incidence) := acc
  let (row, i) := entry
  let path := s!"{field}.pairs[{i}]"
  record row ["lowMemberId", "highMemberId", "balanceMinor"] s!"{field}.pairs[{i}]"
  let low ← member (row.get "lowMemberId") s!"{path}.lowMemberId"
  let high ← member (row.get "highMemberId") s!"{path}.highMemberId"
  failIf (low ≥ high) (err .invalidBalancePair path)
  let key := (low, high)
  let amount ← signed (row.get "balanceMinor") s!"{path}.balanceMinor"
  failIf (key ∈ pairs.keys) (err .invalidBalancePair path)
  let pairs := pairs.set key amount
  let incidence := incidence.set low ((incidence.get? low).getD 0 + amount)
  let incidence := incidence.set high ((incidence.get? high).getD 0 - amount)
  return (pairs, incidence)

/-- `value is! List || value.length > max`. -/
def list (value : Json) (max : ℕ) (code : ErrorCode) (field : String) : Checked (List Json) :=
  match value with
  | .arr items => do
    failIf (items.length > max) (err code field)
    return items
  | _ => .error (err code field)

/-- `_parseEnvelope`. -/
def parseEnvelope (input : Json) (field : String) : Checked State := do
  record input ["contextId", "currency", "members", "pairs"] field
  let contextId ← scope input
  let memberRows ← list (input.get "members") 200 .invalidParticipantCount s!"{field}.members"
  let pairRows ← list (input.get "pairs") 19900 .invalidBalancePair s!"{field}.pairs"
  let members ← memberRows.zipIdx.foldlM (parseMember field) .empty
  let (pairs, incidence) ← pairRows.zipIdx.foldlM (parsePair field) (.empty, .empty)
  failIf ((unionKeys incidence.keys members.keys).any fun id =>
      id ∉ members.keys ∨ some ((incidence.get? id).getD 0) ≠ members.get? id)
    (err .balanceMismatch field)
  let _ ← bounded (grossMinor pairs) "grossMinor"
  return ⟨contextId, members, pairs⟩

/-- The pass of the loop of `expenseRevisionDelta` over `(snapshot, sign)`. -/
def addSnapshot (result : State) (entry : Json × ℤ) : Checked State := do
  if entry.1.isNull then return result
  let projected ← projected entry.1
  let result ← projected.positions.foldlM
    (fun state row => addMember state row.memberId (row.balanceMinor * entry.2)) result
  projected.obligations.foldlM
    (fun state edge => addPair state edge.creditorId edge.debtorId (edge.amountMinor * entry.2))
    result

/-- What `expenseRevisionDelta` returns, before it is printed. -/
def revisionDelta (input : Json) : Checked Envelope := do
  record input ["contextId", "currency", "previous", "next"]
  let contextId ← scope input
  failIf ((input.get "previous").isNull ∧ (input.get "next").isNull) (err .invalidInput "$")
  let result ← [(input.get "previous", (-1 : ℤ)), (input.get "next", (1 : ℤ))].foldlM addSnapshot
    (.empty contextId)
  output result true

/-- `expenseRevisionDelta`. -/
def expenseRevisionDelta (input : Json) : Checked Json := do
  let result ← revisionDelta input
  return envelopeJson result

/-- What `settlementDelta` returns, before it is printed. -/
def paymentDelta (input : Json) : Checked Envelope := do
  record input ["contextId", "currency", "payerId", "receiverId", "amountMinor", "direction"]
  let contextId ← scope input
  let payer ← member (input.get "payerId") "payerId"
  let receiver ← member (input.get "receiverId") "receiverId"
  failIf (payer = receiver) (err .invalidSettlement "receiverId")
  failIf ([js "confirm", js "reverse"].any (input.get "direction").isStr = false)
    (err .invalidSettlementDirection "direction")
  let minor ← amount (input.get "amountMinor") "amountMinor" none true
  let amount := (minor : ℤ) * if (input.get "direction").isStr (js "confirm") then 1 else -1
  let result ← addMember (.empty contextId) payer amount
  let result ← addMember result receiver (-amount)
  let result ← addPair result payer receiver amount
  output result true

/-- `settlementDelta`. -/
def settlementDelta (input : Json) : Checked Json := do
  let result ← paymentDelta input
  return envelopeJson result

/-- What `applyBalanceDelta` returns, before it is printed. -/
def applied (input : Json) : Checked Envelope := do
  record input ["current", "delta"]
  let current ← parseEnvelope (input.get "current") "current"
  let delta ← parseEnvelope (input.get "delta") "delta"
  failIf (current.contextId ≠ delta.contextId) (err .contextMismatch "delta.contextId")
  let current ← delta.members.entries.foldlM (fun state entry => addMember state entry.1 entry.2)
    current
  failIf (current.members.size > 200) (err .invalidParticipantCount "members")
  let current ← delta.pairs.entries.foldlM
    (fun state entry => addPair state entry.1.1 entry.1.2 entry.2) current
  output current

/-- `applyBalanceDelta`. -/
def applyBalanceDelta (input : Json) : Checked Json := do
  let result ← applied input
  return envelopeJson result

/-! ### Settling obligations in order -/

/-- The body of the obligation loop of `allocateSettlement`. -/
def obligationRow (rows : InsertionMap JsString ℕ) (entry : Json × ℕ) :
    Checked (InsertionMap JsString ℕ) := do
  let (row, i) := entry
  let path := s!"obligations[{i}]"
  record row ["obligationId", "outstandingMinor"] s!"obligations[{i}]"
  let id ← member (row.get "obligationId") s!"{path}.obligationId"
  failIf (id ∈ rows.keys) (err .duplicateMember s!"{path}.obligationId")
  let outstanding ← amount (row.get "outstandingMinor") s!"{path}.outstandingMinor"
    (some maxAggregateMinor) false .aggregateLimitExceeded
  return rows.set id outstanding

/-- The body of the loop over `allocationOrder`: what is allocated so far, and what remains. -/
def settleOne (rows : InsertionMap JsString ℕ) (acc : List (JsString × ℕ) × ℕ) (id : JsString) :
    List (JsString × ℕ) × ℕ :=
  let (allocations, remaining) := acc
  let available := (rows.get? id).getD 0
  let amount := if available < remaining then available else remaining
  (if amount > 0 then allocations ++ [(id, amount)] else allocations, remaining - amount)

/-- `allocateSettlement`. -/
def allocateSettlement (input : Json) : Checked Json := do
  record input ["amountMinor", "obligations", "allocationOrder"]
  let total ← amount (input.get "amountMinor") "amountMinor" none true
  let items ← count (input.get "obligations") 100 .invalidObligationCount "obligations"
  let rows ← items.zipIdx.foldlM obligationRow .empty
  let _ ← order (input.get "allocationOrder") rows.keys "allocationOrder"
  let (allocations, remaining) :=
    (castStrings (input.get "allocationOrder")).foldl (settleOne rows) ([], total)
  return object [("allocations", .arr (allocations.map fun row =>
      object [("obligationId", .str row.1), ("amountMinor", minor row.2)])),
    ("creditMinor", minor remaining)]

end PandaPay.SharedExpenses.Dart
