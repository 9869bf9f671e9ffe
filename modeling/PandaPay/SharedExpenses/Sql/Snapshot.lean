import PandaPay.SharedExpenses.Bill
import PandaPay.Library.GroupBy

/-!
# Snapshots and bills in the database

What the database functions of the shared-expense schema do with `jsonb` values and numbers. A
comparison with a missing value is `NULL`, which `IF` takes for false: a check then passes.

Then `shared_expenses._project_snapshot`: the checks on a snapshot, and its positions and obligations.
The obligations come out of one query, which lays the creditors' and the debtors' balances end to
end along a line and takes the overlaps of their intervals. Last `shared_expenses._validate_bill`: the
checks on a bill, whose allocation has to come out as the shares of the snapshot. The largest
remainders are found by a window function over the remainders.

## Main definitions

* `SqlError`, `Sql`: exceptions and computations that raise them
* `textValue`, `differs`: the operator `->>` and comparisons of its result
* `closed`: `_closed`
* `isNumeral`, `isPositiveNumeral`: the numerals the functions match
* `Numeric`, `numericDiv`: division of the type `numeric`
* `Interval`, `edgeIntervals`: balances laid end to end, and their overlaps
* `projectSnapshot`: `_project_snapshot`
* `billAmounts`: the amounts an allocation comes out as
* `validateBill`: `_validate_bill`
-/

namespace PandaPay.SharedExpenses

/-- What `RAISE EXCEPTION message USING ERRCODE = errcode` raises. -/
structure SqlError where
  message : String
  errcode : String
  deriving DecidableEq

/-- A computation that can raise an exception. -/
abbrev Sql (α : Type) := Except SqlError α

namespace Sql

/-- `value #>> '{}'`: the text of a value, or `NULL`. The texts of fractions, arrays and objects are
not spelled out: no comparison these functions make asks more of one than that it is none of a few
words. -/
def textValue : Json → Option JsString
  | .null => none
  | .bool b => some (js (if b then "true" else "false"))
  | .num (.int z) => some (signedDecimal z)
  | .num .negZero => some (js "-0")
  | .num (.fraction digits places) => some (signedDecimal digits ++ js "e-" ++ decimal places)
  | .str s => some s
  | .arr _ => some (js "[]")
  | .obj _ => some (js "\x7b\x7d")

/-- `value #>> '{}' <> word`, which is no reason to raise when the value is `null`. -/
def differs (value : Json) (word : String) : Bool :=
  match textValue value with
  | none => false
  | some t => t ≠ js word

/-- `_closed`: an object that has exactly these keys. -/
def closed (value : Json) (keys : List String) : Bool :=
  match value with
  | .obj fields => keys.all value.hasOwn && fields.all fun f => (keys.map js).contains f.1
  | _ => false

/-- The pattern `^(0|[1-9][0-9]{0,k})$`. -/
def isNumeral (k : ℕ) (s : JsString) : Bool := isUnsigned s && s.length ≤ k + 1

/-- The pattern `^[1-9][0-9]{0,k}$`. -/
def isPositiveNumeral (k : ℕ) (s : JsString) : Bool := isNumeral k s && s ≠ js "0"

/-! ### Numbers of type `numeric` -/

/-- A number of type `numeric` that is not negative: `digits / 10 ^ scale`. -/
structure Numeric where
  digits : ℕ
  scale : ℕ
  deriving DecidableEq

/-- `floor(x)`. -/
def Numeric.floor (x : Numeric) : ℕ := x.digits / 10 ^ x.scale

/-- The position of the first digit of a number stored in base 10000. -/
def numericWeight (n : ℕ) : ℕ := Nat.log 10000 n

/-- The first digit of a number stored in base 10000. -/
def firstDigit (n : ℕ) : ℕ := n / 10000 ^ numericWeight n

/-- The scale of a quotient of integers: enough for sixteen significant digits. -/
def divScale (a b : ℕ) : ℕ :=
  let weight : ℤ := numericWeight a - numericWeight b - if firstDigit a ≤ firstDigit b then 1 else 0
  min (16 - 4 * weight).toNat 1000

/-- `a / b` for integers of type `numeric`: the quotient rounded to its scale. -/
def numericDiv (a b : ℕ) : Numeric :=
  ⟨(2 * (a * 10 ^ divScale a b) + b) / (2 * b), divScale a b⟩

end Sql

end PandaPay.SharedExpenses

namespace PandaPay.SharedExpenses.Sql

def invalidSnapshot : SqlError := ⟨"invalid_snapshot", "22023"⟩

def snapshotTotalMismatch : SqlError := ⟨"snapshot_total_mismatch", "22023"⟩

def invalidMemberOrder : SqlError := ⟨"invalid_member_order", "22023"⟩

/-- An array of `low` to `high` elements. -/
def arrayBetween (value : Json) (low high : ℕ) (e : SqlError) : Sql (List Json) :=
  match value with
  | .arr items => do
    failIf (items.length < low ∨ items.length > high) e
    return items
  | _ => .error e

/-- The checks on `totalMinor`. -/
def snapshotTotal (value : Json) : Sql ℕ :=
  match value with
  | .str s => do
    failIf (isPositiveNumeral 9 s = false) invalidSnapshot
    failIf (unsignedValue s > 1000000000) invalidSnapshot
    return unsignedValue s
  | _ => .error invalidSnapshot

/-- The checks on a row of `contributions` or `shares`, with the id and the amount that the queries
take from it. -/
def snapshotRow (row : Json) : Sql (JsString × ℕ) := do
  failIf (closed row ["memberId", "amountMinor"] = false) invalidSnapshot
  match row.get "memberId", row.get "amountMinor" with
  | .str id, .str amount =>
    failIf (isUuid id = false) invalidSnapshot
    failIf (isNumeral 9 amount = false) invalidSnapshot
    failIf (unsignedValue amount > 1000000000) invalidSnapshot
    return (id, unsignedValue amount)
  | _, _ => .error invalidSnapshot

/-- The checks on `memberOrder`. -/
def snapshotOrder (items : List Json) : Sql (List JsString) :=
  match Json.strings? items with
  | some ids => do
    failIf (ids.any (isUuid · = false) ∨ ¬ ids.Nodup) invalidMemberOrder
    return ids
  | none => .error invalidMemberOrder

/-- `coalesce(amount, 0)` of the row with this id. -/
def amountOf (rows : List (JsString × ℕ)) (id : JsString) : ℕ :=
  (InsertionMap.lookup id rows).getD 0

/-- `paid p FULL JOIN shares s USING(id)`, in id order. -/
def joinedPositions (paid shares : List (JsString × ℕ)) : List Position :=
  (((paid ++ shares).map Prod.fst).dedup.insertionSort (· ≤ ·)).map fun id =>
    ⟨id, amountOf paid id, amountOf shares id, (amountOf paid id : ℤ) - amountOf shares id⟩

/-- A row of `ordered`. -/
structure OrderedRow where
  id : JsString
  balance : ℤ
  rank : ℕ
  deriving DecidableEq

/-- `positions p JOIN memberOrder WITH ORDINALITY o ON o.id = p.memberId`. -/
def orderedRows (positions : List Position) (memberOrder : List JsString) : List OrderedRow :=
  memberOrder.zipIdx.flatMap fun o =>
    (positions.filter (·.memberId = o.1)).map fun p => ⟨o.1, p.balanceMinor, o.2⟩

/-- A row of `creditors` or `debtors`: the stretch of the line that its amount takes up. -/
structure Interval where
  id : JsString
  startAt : ℤ
  endAt : ℤ
  deriving DecidableEq

/-- `sum(amount) OVER (ORDER BY rank) - amount` and `sum(amount) OVER (ORDER BY rank)`. -/
def intervals (amount : OrderedRow → ℤ) (rows : List OrderedRow) : List Interval :=
  rows.map fun row =>
    let endAt := runningSum OrderedRow.rank amount rows row
    ⟨row.id, endAt - amount row, endAt⟩

/-- A row of `edge_intervals`. -/
structure EdgeInterval where
  debtor : JsString
  creditor : JsString
  rank : ℤ
  amount : ℤ
  deriving DecidableEq

/-- `debtors d CROSS JOIN creditors c`, where the intervals overlap. -/
def edgeIntervals (debtors creditors : List Interval) : List EdgeInterval :=
  debtors.flatMap fun d => creditors.filterMap fun c =>
    if min d.endAt c.endAt > max d.startAt c.startAt then
      some ⟨d.id, c.id, max d.startAt c.startAt, min d.endAt c.endAt - max d.startAt c.startAt⟩
    else none

/-- The list `obligations`, `ORDER BY rank`. -/
def joinedObligations (rows : List OrderedRow) : List Obligation :=
  let creditors := intervals (·.balance) (rows.filter (·.balance > 0))
  let debtors := intervals (-·.balance) (rows.filter (·.balance < 0))
  ((edgeIntervals debtors creditors).insertionSort fun a b => a.rank ≤ b.rank).map fun e =>
    ⟨e.debtor, e.creditor, e.amount⟩

/-- `_project_snapshot`. -/
def projectSnapshot (snapshot : Json) : Sql Projection := do
  failIf (closed snapshot ["currency", "totalMinor", "contributions", "shares", "memberOrder"] =
    false) invalidSnapshot
  failIf (differs (snapshot.get "currency") "INR" = true) invalidSnapshot
  let total ← snapshotTotal (snapshot.get "totalMinor")
  let contributions ← arrayBetween (snapshot.get "contributions") 1 8 invalidSnapshot
  let shares ← arrayBetween (snapshot.get "shares") 1 50 invalidSnapshot
  let memberOrder ← arrayBetween (snapshot.get "memberOrder") 1 58 invalidSnapshot
  let paid ← contributions.mapM snapshotRow
  let shares ← shares.mapM snapshotRow
  failIf (¬ (paid.map Prod.fst).Nodup ∨ ¬ (shares.map Prod.fst).Nodup ∨
    (paid.map Prod.snd).sum ≠ total ∨ (shares.map Prod.snd).sum ≠ total) snapshotTotalMismatch
  let order ← snapshotOrder memberOrder
  let ids := (paid ++ shares).map Prod.fst
  failIf (ids.dedup.length ≠ order.length ∨ order.any (!ids.contains ·)) invalidMemberOrder
  let positions := joinedPositions paid shares
  return ⟨total, positions, joinedObligations (orderedRows positions order)⟩

/-! ### Bills -/

def invalidBill : SqlError := ⟨"invalid_bill", "22023"⟩

/-- The checks on a row of the contributions, with the id and the amount that the queries take from
it. -/
def billContribution (row : Json) : Sql (JsString × ℕ) := do
  failIf (closed row ["memberId", "amountMinor"] = false) invalidBill
  match row.get "memberId", row.get "amountMinor" with
  | .str id, .str amount =>
    failIf (isUuid id = false) invalidBill
    failIf (isPositiveNumeral 9 amount = false) invalidBill
    failIf (unsignedValue amount > 1000000000) invalidBill
    return (id, unsignedValue amount)
  | _, _ => .error invalidBill

/-- The keys of a participant in a mode. -/
def participantKeys (mode : JsString) : List String :=
  if mode = js "equal" then ["memberId"]
  else if mode = js "exact" then ["memberId", "amountMinor"]
  else ["memberId", "weight"]

/-- The checks on a participant, with the id and the weight that the queries take from it. -/
def billParticipant (mode : JsString) (row : Json) : Sql (JsString × ℕ) := do
  failIf (closed row (participantKeys mode) = false) invalidBill
  match row.get "memberId" with
  | .str id => do
    failIf (isUuid id = false) invalidBill
    if mode = js "exact" then
      match row.get "amountMinor" with
      | .str amount => do
        failIf (isNumeral 9 amount = false ∨ unsignedValue amount > 1000000000) invalidBill
        return (id, unsignedValue amount)
      | _ => .error invalidBill
    else if mode = js "percentage" ∨ mode = js "shares" then
      match row.get "weight" with
      | .str weight => do
        failIf (isNumeral 6 weight = false ∨
          unsignedValue weight > if mode = js "percentage" then 10000 else 1000000) invalidBill
        return (id, unsignedValue weight)
      | _ => .error invalidBill
    else return (id, 1)
  | _ => .error invalidBill

/-- A row of `bases`. -/
structure BaseRow where
  id : JsString
  rank : ℕ
  amount : ℕ
  remainder : ℕ
  deriving DecidableEq

/-- The order `remainder DESC, rank`. -/
def BaseRow.upTo (a b : BaseRow) : Prop :=
  a.remainder > b.remainder ∨ (a.remainder = b.remainder ∧ a.rank ≤ b.rank)

instance : DecidableRel BaseRow.upTo := fun a b => by
  unfold BaseRow.upTo
  infer_instance

/-- The rows of `weights` and `bases`: each participant with its rank in the tie order, its amount
rounded down and the remainder. -/
def baseRows (mode : JsString) (shared weightTotal : ℕ) (participants : List (JsString × ℕ))
    (tieOrder : List JsString) : List BaseRow :=
  participants.flatMap fun p => (tieOrder.zipIdx.filter (·.1 = p.1)).map fun t =>
    if mode = js "exact" then ⟨p.1, t.2, p.2, 0⟩
    else ⟨p.1, t.2, (numericDiv (shared * p.2) weightTotal).floor, shared * p.2 % weightTotal⟩

/-- The amounts of `ranked`: the leftover goes to the first rows in order, one each. -/
def billAmounts (shared : ℕ) (rows : List BaseRow) : List (JsString × JsString) :=
  let leftover : ℤ := (shared : ℤ) - (rows.map (·.amount)).sum
  rows.map fun row =>
    (row.id, decimal (row.amount + if (rowNumber BaseRow.upTo rows row : ℤ) ≤ leftover then 1 else 0))

/-- `jsonb_object_agg(key, value)`: of rows with one key the last counts. -/
def objectAgg (rows : List (JsString × JsString)) : List (JsString × JsString) :=
  (rows.foldl (fun object row => InsertionMap.assign row.1 row.2 object) []).insertionSort
    fun a b => a.1 ≤ b.1

/-- The rows of `s->'shares'`, of a projected snapshot. -/
def shareRows (snapshot : Json) : List (JsString × JsString) :=
  (snapshot.get "shares").items.map fun row =>
    (stringOf (row.get "memberId"), stringOf (row.get "amountMinor"))

/-- `_validate_bill`. -/
def validateBill (bill snapshot : Json) : Sql Unit := do
  failIf (closed bill ["currency", "totalMinor", "contributions", "allocation"] = false) invalidBill
  failIf (textValue (bill.get "currency") ≠ some (js "INR")) invalidBill
  let total ← match bill.get "totalMinor" with
    | .str s => do
      failIf (isPositiveNumeral 9 s = false) invalidBill
      pure (unsignedValue s)
    | _ => .error invalidBill
  let shared := bigInt (snapshot.get "totalMinor")
  failIf (total > 1000000000 ∨ total < shared) invalidBill
  let contributions ← arrayBetween (bill.get "contributions") 1 8 invalidBill
  let full ← contributions.mapM billContribution
  failIf (¬ (full.map Prod.fst).Nodup ∨ (full.map Prod.snd).sum ≠ total) invalidBill
  failIf ((snapshot.get "contributions").items.any fun row =>
    amountOf full (stringOf (row.get "memberId")) < bigInt (row.get "amountMinor")) invalidBill
  let allocation := bill.get "allocation"
  failIf (closed allocation ["mode", "participants", "tieOrder"] = false) invalidBill
  match textValue (allocation.get "mode") with
  | none => .error invalidBill
  | some mode =>
    failIf (mode ∉ modes) invalidBill
    let participants ← arrayBetween (allocation.get "participants") 1 50 invalidBill
    match allocation.get "tieOrder" with
    | .arr ties =>
      let rows ← participants.mapM (billParticipant mode)
      failIf (¬ (rows.map Prod.fst).Nodup ∨ ties.length ≠ rows.length) invalidBill
      match Json.strings? ties with
      | none => .error invalidBill
      | some tieOrder =>
        failIf (¬ tieOrder.Nodup ∨ tieOrder.any fun id => !(rows.map Prod.fst).contains id)
          invalidBill
        let weightTotal := (rows.map Prod.snd).sum
        failIf (weightTotal ≤ 0 ∨ (mode = js "percentage" ∧ weightTotal ≠ 10000) ∨
          (mode = js "exact" ∧ weightTotal ≠ shared)) invalidBill
        let actual := billAmounts shared (baseRows mode shared weightTotal rows tieOrder)
        failIf (objectAgg actual ≠ objectAgg (shareRows snapshot)) invalidBill
    | _ => .error invalidBill

end PandaPay.SharedExpenses.Sql
