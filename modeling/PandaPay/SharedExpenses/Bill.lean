import PandaPay.SharedExpenses.Domain

/-!
# Bill metadata

`validateBill` of `api/src/shared_expenses/bill.js`: the full bill behind a shared expense, whose
allocation has to come out as the shares of the snapshot.

## Main definitions

* `isUuid`: the grammar of the ids the server gives out
* `validateBill`
-/

namespace PandaPay.SharedExpenses

/-- The character class `[0-9a-f]`. -/
def isHexDigit (c : CodeUnit) : Bool := isDigit c || (97 ≤ c.val ∧ c.val ≤ 102 : Bool)

/-- The grammar `^[0-9a-f]{8}-[0-9a-f]{4}-[0-9a-f]{4}-[0-9a-f]{4}-[0-9a-f]{12}$`. -/
def isUuid (s : JsString) : Bool :=
  s.length = 36 && s.zipIdx.all fun c =>
    if c.2 ∈ [8, 13, 18, 23] then c.1.val = 45 else isHexDigit c.1

/-- `BigInt(value)` of a numeral. Both snapshots it is applied to have been projected, so their
amounts are numerals. -/
def bigInt : Json → ℕ
  | .str s => unsignedValue s
  | _ => 0

/-- The string a projected snapshot has in a field. -/
def stringOf : Json → JsString
  | .str s => s
  | _ => []

/-- The body of the loop over the contributions of a bill. -/
def billRow (full : InsertionMap JsString ℕ) (entry : Json × ℕ) :
    Checked (InsertionMap JsString ℕ) := do
  let (row, index) := entry
  let field := s!"payload.bill.contributions[{index}]"
  record row ["memberId", "amountMinor"] field
  match row.get "memberId" with
  | .str id => do
    failIf (isUuid id = false) (err .invalidMemberId s!"{field}.memberId")
    failIf (id ∈ full.keys) (err .duplicateMember s!"{field}.memberId")
    let value ← amount (row.get "amountMinor") s!"{field}.amountMinor" MAX_EXPENSE_MINOR true
    return full.set id value
  | _ => .error (err .invalidMemberId s!"{field}.memberId")

/-- `{currency: 'INR', totalMinor: snapshot.totalMinor, ...bill.allocation}`. -/
def allocationInput (totalMinor allocation : Json) : Json :=
  match allocation with
  | .obj fields => .obj ((js "currency", text "INR") :: (js "totalMinor", totalMinor) :: fields)
  | _ => object [("currency", text "INR"), ("totalMinor", totalMinor)]

/-- `new Map(snapshot.shares.map(row => [row.memberId, row.amountMinor]))`. -/
def shareTexts (snapshot : Json) : InsertionMap JsString JsString :=
  (snapshot.get "shares").items.foldl (fun shares row =>
    shares.set (stringOf (row.get "memberId")) (stringOf (row.get "amountMinor"))) .empty

/-- `validateBill`. -/
def validateBill (bill snapshot : Json) : Checked Json := do
  record bill ["currency", "totalMinor", "contributions", "allocation"] "payload.bill"
  currency (bill.get "currency")
  let total ← amount (bill.get "totalMinor") "payload.bill.totalMinor" MAX_EXPENSE_MINOR true
  failIf (total < bigInt (snapshot.get "totalMinor"))
    (err .billTotalMismatch "payload.bill.totalMinor")
  count (bill.get "contributions") 8 .invalidPayerCount "payload.bill.contributions"
  let full ← (bill.get "contributions").items.zipIdx.foldlM billRow .empty
  failIf (full.values.sum ≠ total) (err .billTotalMismatch "payload.bill.contributions")
  failIf ((snapshot.get "contributions").items.any fun row =>
      (full.get? (stringOf (row.get "memberId"))).getD 0 < bigInt (row.get "amountMinor"))
    (err .billContributionMismatch "payload.bill.contributions")
  record (bill.get "allocation") ["mode", "participants", "tieOrder"] "payload.bill.allocation"
  let result ← allocateExpense (allocationInput (snapshot.get "totalMinor") (bill.get "allocation"))
  let actual := shareTexts snapshot
  failIf (result.allocations.length ≠ actual.size ∨
      result.allocations.any (fun row => actual.get? row.1 ≠ some (decimal row.2)))
    (err .billAllocationMismatch "payload.bill.allocation")
  return bill

end PandaPay.SharedExpenses
