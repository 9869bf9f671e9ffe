import PandaPay.SharedExpenses.Domain

/-!
# Allocation and projection in Dart

The app's own implementation of the shared-expense domain, translated from `validation.dart` and
`domain.dart` of `packages/pandapay_domain/lib/src/shared_expenses`. Its loops run over indices and
push onto lists. It shares with the API only the JSON values, the error type and the grammars of
numerals and member names, whose regular expressions are the same text in both languages.

## Main definitions

* `record`, `amount`, `member`, `currency`, `count`, `order`: the field checks
* `allocateSharedExpense`, `projectSharedExpense`, `sharedPersonalCost`
-/

namespace PandaPay.SharedExpenses.Dart

/-! ### Field checks -/

def maxExpenseMinor : ℕ := 1000000000

def maxAggregateMinor : ℕ := 9007199254740991

/-- `record`: a map that has every required key and no key that is neither required nor
optional. -/
def record (value : Json) (required : List String) (field : String := "$")
    (code : ErrorCode := .invalidInput) (optional : List String := []) : Checked Unit :=
  match value with
  | .obj fields =>
    failIf (required.any (fun key => !value.hasOwn key) ∨
      fields.any (fun f => !(required.map js).contains f.1 && !(optional.map js).contains f.1))
      (err code field)
  | _ => .error (err code field)

/-- `amount`. -/
def amount (value : Json) (field : String) (max : Option ℕ := none) (positive : Bool := false)
    (overflow : ErrorCode := .amountLimitExceeded) : Checked ℕ :=
  match value with
  | .str s => do
    failIf (s.length > 16 ∨ isUnsigned s = false) (err .invalidAmount field)
    let parsed := unsignedValue s
    failIf (positive = true ∧ parsed = 0) (err .invalidAmount field)
    failIf (parsed > max.getD maxExpenseMinor) (err overflow field)
    return parsed
  | _ => .error (err .invalidAmount field)

/-- `member`. -/
def member (value : Json) (field : String) : Checked JsString :=
  match value with
  | .str s => do
    failIf (s.length > 64 ∨ isMemberName s = false) (err .invalidMemberId field)
    return s
  | _ => .error (err .invalidMemberId field)

/-- `currency`. -/
def currency (value : Json) : Checked Unit :=
  failIf (value.isStr (js "INR") = false) (err .unsupportedCurrency "currency")

/-- `count`, which returns the list it has checked. -/
def count (value : Json) (max : ℕ) (code : ErrorCode) (field : String) : Checked (List Json) :=
  match value with
  | .arr items => do
    failIf (items = [] ∨ items.length > max) (err code field)
    return items
  | _ => .error (err code field)

/-- `{for (var i = 0; i < value.length; i++) value[i] as String: i}`. -/
def ranksOf (ids : List JsString) : InsertionMap JsString ℕ :=
  ids.zipIdx.foldl (fun ranks entry => ranks.set entry.1 entry.2) .empty

/-- `(value as List).cast<String>()`. -/
def castStrings (value : Json) : List JsString := (Json.strings? value.items).getD []

/-- `order`: the rank of each member. A list with an element that is no string fails whatever the
size of its set is. -/
def order (value : Json) (members : List JsString) (field : String) :
    Checked (InsertionMap JsString ℕ) :=
  match value with
  | .arr items =>
    match Json.strings? items with
    | some ids => do
      failIf (ids.length ≠ members.length ∨ ids.dedup.length ≠ ids.length ∨
        ids.any (fun id => !members.contains id)) (err .invalidTieOrder field)
      return ranksOf ids
    | none => .error (err .invalidTieOrder field)
  | _ => .error (err .invalidTieOrder field)

/-! ### Allocation -/

/-- The body of the loop of `_allocationRows`, on the set `ids` and the list `result`. -/
def allocationRow (mode : Json) (acc : List JsString × List AllocationRow) (entry : Json × ℕ) :
    Checked (List JsString × List AllocationRow) := do
  let (ids, result) := acc
  let (row, index) := entry
  let exact := mode.isStr (js "exact")
  let equal := mode.isStr (js "equal")
  let field := s!"participants[{index}]"
  record row (if equal then ["memberId"] else ["memberId", if exact then "amountMinor" else "weight"])
    field
  let id ← member (row.get "memberId") s!"{field}.memberId"
  failIf (id ∈ ids) (err .duplicateMember s!"{field}.memberId")
  let ids := ids ++ [id]
  if exact then
    let value ← amount (row.get "amountMinor") s!"{field}.amountMinor"
    return (ids, result ++ [⟨id, value⟩])
  else if equal then
    return (ids, result ++ [⟨id, 1⟩])
  else
    match row.get "weight" with
    | .str weight => do
      failIf (weight.length > 7 ∨ isUnsigned weight = false) (err .invalidWeight s!"{field}.weight")
      let parsed := unsignedValue weight
      failIf (parsed > if mode.isStr (js "percentage") then 10000 else 1000000)
        (err .invalidWeight s!"{field}.weight")
      return (ids, result ++ [⟨id, parsed⟩])
    | _ => .error (err .invalidWeight s!"{field}.weight")

/-- `_allocationRows`. -/
def allocationRows (input : Json) : Checked (List AllocationRow) := do
  let rows ← count (input.get "participants") 50 .invalidParticipantCount "participants"
  let (_, result) ← rows.zipIdx.foldlM (allocationRow (input.get "mode")) ([], [])
  return result

/-- The comparator of the leftover: `b.remainder.compareTo(a.remainder)` unless the remainders are
equal. -/
def before (ranks : InsertionMap JsString ℕ) (a b : Calculated) : Prop :=
  if a.remainder = b.remainder then (ranks.get? a.id).getD 0 ≤ (ranks.get? b.id).getD 0
  else b.remainder ≤ a.remainder

instance (ranks : InsertionMap JsString ℕ) : DecidableRel (before ranks) := fun a b => by
  unfold before
  infer_instance

/-- `calculated[i].value += BigInt.one`. -/
def addOne (calculated : List Calculated) (i : ℕ) : List Calculated :=
  calculated.modify i fun row => { row with value := row.value + 1 }

/-- `{'memberId': row.id, 'amountMinor': row.value.toString()}`. -/
def allocationJson (id : JsString) (value : ℕ) : Json :=
  object [("memberId", .str id), ("amountMinor", minor value)]

/-- `allocateSharedExpense`. -/
def allocateSharedExpense (input : Json) : Checked Json := do
  record input ["currency", "totalMinor", "mode", "participants", "tieOrder"]
  currency (input.get "currency")
  let total ← amount (input.get "totalMinor") "totalMinor" none true
  let mode := input.get "mode"
  failIf (modes.any mode.isStr = false) (err .invalidMode "mode")
  let rows ← allocationRows input
  let ranks ← order (input.get "tieOrder") (rows.map (·.id)) "tieOrder"
  let sum := rows.foldl (fun s row => s + row.value) 0
  let allocations ←
    if mode.isStr (js "exact") then do
      failIf (sum ≠ total) (err .allocationTotalMismatch "participants")
      pure ((rows.insertionSort fun a b => a.id ≤ b.id).map fun row =>
        allocationJson row.id row.value)
    else do
      failIf (sum = 0 ∨ (mode.isStr (js "percentage") = true ∧ sum ≠ 10000))
        (err .invalidWeight "participants")
      let calculated := rows.map fun row =>
        (⟨row.id, total * row.value / sum, total * row.value % sum⟩ : Calculated)
      let remaining := total - calculated.foldl (fun s row => s + row.value) 0
      let calculated := calculated.insertionSort (before ranks)
      let calculated := (List.range remaining).foldl addOne calculated
      pure ((calculated.insertionSort fun a b => a.id ≤ b.id).map fun row =>
        allocationJson row.id row.value)
  return object [("currency", text "INR"), ("totalMinor", minor total),
    ("allocations", .arr allocations)]

/-! ### Projection -/

/-- The body of the loop of `_moneyRows`. -/
def moneyRow (field : String) (result : InsertionMap JsString ℕ) (entry : Json × ℕ) :
    Checked (InsertionMap JsString ℕ) := do
  let (row, i) := entry
  record row ["memberId", "amountMinor"] s!"{field}[{i}]"
  let id ← member (row.get "memberId") s!"{field}[{i}].memberId"
  failIf (id ∈ result.keys) (err .duplicateMember s!"{field}[{i}].memberId")
  let value ← amount (row.get "amountMinor") s!"{field}[{i}].amountMinor"
  return result.set id value

/-- `_moneyRows`. -/
def moneyRows (value : Json) (field : String) (max : ℕ) (code : ErrorCode) :
    Checked (InsertionMap JsString ℕ) := do
  let rows ← count value max code field
  rows.zipIdx.foldlM (moneyRow field) .empty

/-- The loop that fills `creditors` and `debtors`. -/
def splitByBalance (balance : JsString → ℤ) (ids : List JsString) :
    List (JsString × ℤ) × List (JsString × ℤ) :=
  ids.foldl (fun (creditors, debtors) id =>
    (if balance id > 0 then creditors ++ [(id, balance id)] else creditors,
      if balance id < 0 then debtors ++ [(id, -balance id)] else debtors)) ([], [])

/-- The loop over the indices `d` and `c`, with the amounts still open in place. -/
def obligationLoop : ℕ → List (JsString × ℤ) → List (JsString × ℤ) → ℕ → ℕ → List Obligation
  | 0, _, _, _, _ => []
  | passes + 1, debtors, creditors, d, c =>
    match debtors[d]?, creditors[c]? with
    | some debit, some credit =>
      let amount := if debit.2 < credit.2 then debit.2 else credit.2
      let debtors := debtors.set d (debit.1, debit.2 - amount)
      let creditors := creditors.set c (credit.1, credit.2 - amount)
      ⟨debit.1, credit.1, amount⟩ :: obligationLoop passes debtors creditors
        (if debit.2 - amount = 0 then d + 1 else d) (if credit.2 - amount = 0 then c + 1 else c)
    | _, _ => []

/-- What `projectSharedExpense` returns, before it is printed. -/
def projected (input : Json) : Checked Projection := do
  record input ["currency", "totalMinor", "contributions", "shares", "memberOrder"]
  currency (input.get "currency")
  let total ← amount (input.get "totalMinor") "totalMinor" none true
  let paid ← moneyRows (input.get "contributions") "contributions" 8 .invalidPayerCount
  let shares ← moneyRows (input.get "shares") "shares" 50 .invalidParticipantCount
  failIf (paid.values.foldl (· + ·) 0 ≠ total) (err .contributionTotalMismatch "contributions")
  failIf (shares.values.foldl (· + ·) 0 ≠ total) (err .allocationTotalMismatch "shares")
  let members := unionKeys paid.keys shares.keys
  let _ ← order (input.get "memberOrder") members "memberOrder"
  let balance := fun id => ((paid.get? id).getD 0 : ℤ) - ((shares.get? id).getD 0 : ℤ)
  let positions := (members.insertionSort (· ≤ ·)).map fun id =>
    (⟨id, (paid.get? id).getD 0, (shares.get? id).getD 0, balance id⟩ : Position)
  let (creditors, debtors) := splitByBalance balance (castStrings (input.get "memberOrder"))
  let obligations := obligationLoop (debtors.length + creditors.length) debtors creditors 0 0
  return ⟨total, positions, obligations⟩

/-- The map `projectSharedExpense` returns. -/
def projectionJson (result : Projection) : Json :=
  object [("currency", text "INR"), ("totalMinor", minor result.totalMinor),
    ("positions", .arr (result.positions.map fun row =>
      object [("memberId", .str row.memberId), ("paidMinor", minor row.paidMinor),
        ("shareMinor", minor row.shareMinor), ("balanceMinor", signedMinor row.balanceMinor)])),
    ("obligations", .arr (result.obligations.map fun row =>
      object [("debtorId", .str row.debtorId), ("creditorId", .str row.creditorId),
        ("amountMinor", signedMinor row.amountMinor)]))]

/-- `projectSharedExpense`. -/
def projectSharedExpense (input : Json) : Checked Json := do
  let result ← projected input
  return projectionJson result

/-! ### Personal cost -/

/-- `sharedPersonalCost`. -/
def sharedPersonalCost (input : Json) : Checked Json := do
  record input ["sourceAmountMinor", "linkedAmountMinor", "shareMinor"]
  let source ← amount (input.get "sourceAmountMinor") "sourceAmountMinor"
  let linked ← amount (input.get "linkedAmountMinor") "linkedAmountMinor"
  let share ← amount (input.get "shareMinor") "shareMinor" (some maxAggregateMinor) false
    .aggregateLimitExceeded
  failIf (linked > source) (err .sourceOverallocated "linkedAmountMinor")
  let residual := source - linked
  let cost := residual + share
  failIf (cost > maxAggregateMinor) (err .aggregateLimitExceeded "shareMinor")
  return object [("residualMinor", minor residual), ("costMinor", minor cost)]

/-- `sharedMoneyFromMinor`, in paise. -/
def sharedMoneyFromMinor (value : Json) : Checked ℕ :=
  amount value "amountMinor" (some maxAggregateMinor) false .aggregateLimitExceeded

end PandaPay.SharedExpenses.Dart
