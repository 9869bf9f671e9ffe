import PandaPay.SharedExpenses.Validation
import PandaPay.Library.InsertionMap

/-!
# Allocation and projection of one shared expense

The functions of `api/src/shared_expenses/domain.js`: `allocateExpense` divides a total by
largest remainders, `projectExpense` turns who paid and who owes into obligations by running two
pointers over the debtors and the creditors.

## Main definitions

* `allocationRows`, `allocateExpense`
* `moneyRows`, `obligationLoop`, `projectExpense`

## Main results

* `projectExpense_eq_ok`: what a successful projection has checked
* `isMember_of_obligation`: a projection names member ids only
-/

namespace PandaPay.SharedExpenses

/-- A JSON string. -/
def text (s : String) : Json := .str (js s)

/-- `n.toString()` as a JSON string. -/
def minor (n : ℕ) : Json := .str (decimal n)

/-- `z.toString()` as a JSON string. -/
def signedMinor (z : ℤ) : Json := .str (signedDecimal z)

/-- An object with literal keys. -/
def object (fields : List (String × Json)) : Json :=
  .obj (fields.map fun f => (js f.1, f.2))

/-! ### Allocation -/

/-- A participant: a member id with its exact amount or its weight. -/
structure AllocationRow where
  id : JsString
  value : ℕ
  deriving DecidableEq

/-- The body of the loop of `allocationRows`. -/
def allocationRow (mode : Json) (ids : List JsString) (index : ℕ) (row : Json) :
    Checked AllocationRow := do
  let field := s!"participants[{index}]"
  let exact := mode.isStr (js "exact")
  let equal := mode.isStr (js "equal")
  record row (if equal then ["memberId"] else ["memberId", if exact then "amountMinor" else "weight"])
    field
  let id ← member (row.get "memberId") s!"{field}.memberId"
  failIf (id ∈ ids) (err .duplicateMember s!"{field}.memberId")
  if exact then
    let value ← amount (row.get "amountMinor") s!"{field}.amountMinor"
    return ⟨id, value⟩
  else if equal then
    return ⟨id, 1⟩
  else
    let bound := if mode.isStr (js "percentage") then 10000 else 1000000
    match row.get "weight" with
    | .str weight => do
      failIf (weight.length > 7 ∨ isUnsigned weight = false) (err .invalidWeight s!"{field}.weight")
      failIf (unsignedValue weight > bound) (err .invalidWeight s!"{field}.weight")
      return ⟨id, unsignedValue weight⟩
    | _ => .error (err .invalidWeight s!"{field}.weight")

/-- The rows from position `index` on; `ids` are the ids already seen. -/
def allocationRowsFrom (mode : Json) (ids : List JsString) (index : ℕ) :
    List Json → Checked (List AllocationRow)
  | [] => return []
  | row :: rest => do
    let first ← allocationRow mode ids index row
    let others ← allocationRowsFrom mode (ids ++ [first.id]) (index + 1) rest
    return first :: others

/-- `allocationRows`. -/
def allocationRows (input : Json) : Checked (List AllocationRow) := do
  let rows := input.get "participants"
  count rows 50 .invalidParticipantCount "participants"
  allocationRowsFrom (input.get "mode") [] 0 rows.items

/-- A participant's share rounded down, and the remainder of the division. -/
structure Calculated where
  id : JsString
  value : ℕ
  remainder : ℕ
  deriving DecidableEq

/-- The comparator of the leftover: larger remainders first, then the tie order. -/
def Calculated.before (ranks : List JsString) (a b : Calculated) : Prop :=
  if a.remainder = b.remainder then ranks.idxOf a.id ≤ ranks.idxOf b.id
  else a.remainder > b.remainder

instance (ranks : List JsString) : DecidableRel (Calculated.before ranks) := fun a b => by
  unfold Calculated.before
  infer_instance

/-- `for (let i = 0; i < n; i++) calculated[i].value += 1n`. -/
def addOneEach : ℕ → List Calculated → List Calculated
  | n + 1, row :: rows => { row with value := row.value + 1 } :: addOneEach n rows
  | _, rows => rows

/-- The result of `allocateExpense`: each member with its amount, in id order. -/
structure Allocation where
  totalMinor : ℕ
  allocations : List (JsString × ℕ)
  deriving DecidableEq

/-- The object `allocateExpense` returns. -/
def Allocation.toJson (result : Allocation) : Json :=
  object [("currency", text "INR"), ("totalMinor", minor result.totalMinor),
    ("allocations", .arr (result.allocations.map fun row =>
      object [("memberId", .str row.1), ("amountMinor", minor row.2)]))]

/-- The modes of an allocation. -/
def modes : List JsString := [js "equal", js "exact", js "percentage", js "shares"]

/-- `allocateExpense`. -/
def allocateExpense (input : Json) : Checked Allocation := do
  record input ["currency", "totalMinor", "mode", "participants", "tieOrder"] "$"
  currency (input.get "currency")
  let total ← amount (input.get "totalMinor") "totalMinor" MAX_EXPENSE_MINOR true
  let mode := input.get "mode"
  failIf (modes.any mode.isStr = false) (err .invalidMode "mode")
  let rows ← allocationRows input
  let ranks ← order (input.get "tieOrder") (rows.map (·.id)) "tieOrder"
  let sum := (rows.map (·.value)).sum
  if mode.isStr (js "exact") then do
    failIf (sum ≠ total) (err .allocationTotalMismatch "participants")
    let sorted := rows.insertionSort fun a b => a.id ≤ b.id
    return ⟨total, sorted.map fun row => (row.id, row.value)⟩
  else do
    failIf (sum = 0 ∨ (mode.isStr (js "percentage") = true ∧ sum ≠ 10000))
      (err .invalidWeight "participants")
    let calculated := rows.map fun row =>
      (⟨row.id, total * row.value / sum, total * row.value % sum⟩ : Calculated)
    let remaining := total - (calculated.map (·.value)).sum
    let ordered := calculated.insertionSort (Calculated.before ranks)
    let sorted := (addOneEach remaining ordered).insertionSort fun a b => a.id ≤ b.id
    return ⟨total, sorted.map fun row => (row.id, row.value)⟩

/-! ### Projection -/

/-- The body of the loop of `moneyRows`. -/
def moneyRow (field : String) (result : InsertionMap JsString ℕ) (entry : Json × ℕ) :
    Checked (InsertionMap JsString ℕ) := do
  let (row, index) := entry
  record row ["memberId", "amountMinor"] s!"{field}[{index}]"
  let id ← member (row.get "memberId") s!"{field}[{index}].memberId"
  failIf (id ∈ result.keys) (err .duplicateMember s!"{field}[{index}].memberId")
  let value ← amount (row.get "amountMinor") s!"{field}[{index}].amountMinor"
  return result.set id value

/-- `moneyRows`. -/
def moneyRows (rows : Json) (field : String) (max : ℕ) (code : ErrorCode) :
    Checked (InsertionMap JsString ℕ) := do
  count rows max code field
  rows.items.zipIdx.foldlM (moneyRow field) .empty

/-- `new Set([...a, ...b])` of two lists without repetition. -/
def unionKeys (a b : List JsString) : List JsString := a ++ b.filter (· ∉ a)

/-- One member's part in an expense. -/
structure Position where
  memberId : JsString
  paidMinor : ℕ
  shareMinor : ℕ
  balanceMinor : ℤ
  deriving DecidableEq

/-- One debtor's debt to one creditor. -/
structure Obligation where
  debtorId : JsString
  creditorId : JsString
  amountMinor : ℤ
  deriving DecidableEq

/-- The result of `projectExpense`. -/
structure Projection where
  totalMinor : ℕ
  positions : List Position
  obligations : List Obligation
  deriving DecidableEq

/-- The object `projectExpense` returns. -/
def Projection.toJson (result : Projection) : Json :=
  object [("currency", text "INR"), ("totalMinor", minor result.totalMinor),
    ("positions", .arr (result.positions.map fun row =>
      object [("memberId", .str row.memberId), ("paidMinor", minor row.paidMinor),
        ("shareMinor", minor row.shareMinor), ("balanceMinor", signedMinor row.balanceMinor)])),
    ("obligations", .arr (result.obligations.map fun row =>
      object [("debtorId", .str row.debtorId), ("creditorId", .str row.creditorId),
        ("amountMinor", signedMinor row.amountMinor)]))]

/-- The two-pointer loop over debtors and creditors, each with the amount still open. Every pass
closes a row, so as many passes as there are rows reach the end of a list. -/
def obligationLoop : ℕ → List (JsString × ℤ) → List (JsString × ℤ) → List Obligation
  | passes + 1, debit :: debtors, credit :: creditors =>
    let amount := if debit.2 < credit.2 then debit.2 else credit.2
    let debit' := (debit.1, debit.2 - amount)
    let credit' := (credit.1, credit.2 - amount)
    ⟨debit.1, credit.1, amount⟩ ::
      obligationLoop passes (if debit'.2 = 0 then debtors else debit' :: debtors)
        (if credit'.2 = 0 then creditors else credit' :: creditors)
  | _, _, _ => []

/-- `(paid.get(id) || 0n) - (shares.get(id) || 0n)`. -/
def balanceOf (paid shares : InsertionMap JsString ℕ) (id : JsString) : ℤ :=
  ((paid.get? id).getD 0 : ℤ) - ((shares.get? id).getD 0 : ℤ)

/-- The list `positions`. -/
def positionRows (paid shares : InsertionMap JsString ℕ) (members : List JsString) :
    List Position :=
  (members.insertionSort (· ≤ ·)).map fun id =>
    ⟨id, (paid.get? id).getD 0, (shares.get? id).getD 0, balanceOf paid shares id⟩

/-- The list `creditors` after the loop over `memberOrder`. -/
def creditorRows (paid shares : InsertionMap JsString ℕ) (memberOrder : List JsString) :
    List (JsString × ℤ) :=
  (memberOrder.filter fun id => balanceOf paid shares id > 0).map fun id =>
    (id, balanceOf paid shares id)

/-- The list `debtors` after the loop over `memberOrder`. -/
def debtorRows (paid shares : InsertionMap JsString ℕ) (memberOrder : List JsString) :
    List (JsString × ℤ) :=
  (memberOrder.filter fun id => balanceOf paid shares id < 0).map fun id =>
    (id, -balanceOf paid shares id)

/-- `projectExpense`. -/
def projectExpense (input : Json) : Checked Projection := do
  record input ["currency", "totalMinor", "contributions", "shares", "memberOrder"] "$"
  currency (input.get "currency")
  let total ← amount (input.get "totalMinor") "totalMinor" MAX_EXPENSE_MINOR true
  let paid ← moneyRows (input.get "contributions") "contributions" 8 .invalidPayerCount
  let shares ← moneyRows (input.get "shares") "shares" 50 .invalidParticipantCount
  failIf (paid.values.sum ≠ total) (err .contributionTotalMismatch "contributions")
  failIf (shares.values.sum ≠ total) (err .allocationTotalMismatch "shares")
  let members := unionKeys paid.keys shares.keys
  let memberOrder ← order (input.get "memberOrder") members "memberOrder"
  let debtors := debtorRows paid shares memberOrder
  let creditors := creditorRows paid shares memberOrder
  return ⟨total, positionRows paid shares members,
    obligationLoop (debtors.length + creditors.length) debtors creditors⟩

/-! ### Money rows -/

theorem moneyRow_eq_ok {field : String} {result result' : InsertionMap JsString ℕ}
    {entry : Json × ℕ} (h : moneyRow field result entry = .ok result') :
    ∃ id value, isMember id = true ∧ id ∉ result.keys ∧ value ≤ MAX_EXPENSE_MINOR ∧
      result' = result.set id value := by
  simp only [moneyRow, ↓failIf_bind_eq_ok, bind_eq_ok, pure_eq_ok, Except.ok.injEq] at h
  obtain ⟨-, -, id, hid, hnew, value, hvalue, rfl⟩ := h
  obtain ⟨-, -, -, -, -, -, hmax⟩ := amount_eq_ok.mp hvalue
  exact ⟨id, value, (member_eq_ok.mp hid).2, hnew, hmax, rfl⟩

theorem isMember_of_mem_moneyRows {rows : Json} {field : String} {max : ℕ} {code : ErrorCode}
    {result : InsertionMap JsString ℕ} (h : moneyRows rows field max code = .ok result) :
    ∀ id ∈ result.keys, isMember id = true := by
  simp only [moneyRows, bind_eq_ok] at h
  obtain ⟨-, -, h⟩ := h
  refine foldlM_induction (P := fun m => ∀ id ∈ m.keys, isMember id = true) ?_ (by simp) h
  intro s entry s' _ hs hstep
  obtain ⟨id, value, hid, -, -, rfl⟩ := moneyRow_eq_ok hstep
  intro j hj
  rcases InsertionMap.mem_keys_set.mp hj with rfl | hj
  · exact hid
  · exact hs j hj

theorem mem_unionKeys {a b : List JsString} {id : JsString} :
    id ∈ unionKeys a b ↔ id ∈ a ∨ id ∈ b := by
  simp only [unionKeys, List.mem_append, List.mem_filter, decide_eq_true_eq]
  tauto

/-! ### Projections -/

/-- What a successful projection has checked, and what it returns. -/
theorem projectExpense_eq_ok {input : Json} {result : Projection} :
    projectExpense input = .ok result ↔
      record input ["currency", "totalMinor", "contributions", "shares", "memberOrder"] "$" =
        .ok () ∧
      currency (input.get "currency") = .ok () ∧
      ∃ total, amount (input.get "totalMinor") "totalMinor" MAX_EXPENSE_MINOR true = .ok total ∧
      ∃ paid, moneyRows (input.get "contributions") "contributions" 8 .invalidPayerCount =
        .ok paid ∧
      ∃ shares, moneyRows (input.get "shares") "shares" 50 .invalidParticipantCount =
        .ok shares ∧
      paid.values.sum = total ∧ shares.values.sum = total ∧
      ∃ ids, order (input.get "memberOrder") (unionKeys paid.keys shares.keys) "memberOrder" =
        .ok ids ∧
      result = ⟨total, positionRows paid shares (unionKeys paid.keys shares.keys),
        obligationLoop ((debtorRows paid shares ids).length + (creditorRows paid shares ids).length)
          (debtorRows paid shares ids) (creditorRows paid shares ids)⟩ := by
  simp only [projectExpense, ↓failIf_bind_eq_ok, bind_eq_ok, pure_eq_ok, Except.ok.injEq, not_not]
  constructor
  · rintro ⟨⟨⟩, hr, ⟨⟩, hc, total, ht, paid, hp, shares, hs, h₁, h₂, ids, ho, rfl⟩
    exact ⟨hr, hc, total, ht, paid, hp, shares, hs, h₁, h₂, ids, ho, rfl⟩
  · rintro ⟨hr, hc, total, ht, paid, hp, shares, hs, h₁, h₂, ids, ho, rfl⟩
    exact ⟨(), hr, (), hc, total, ht, paid, hp, shares, hs, h₁, h₂, ids, ho, rfl⟩

theorem mem_of_mem_rest {p : Prop} [Decidable p] {id a : JsString} {x y : ℤ}
    {rest : List (JsString × ℤ)}
    (h : id ∈ (if p then rest else (a, x) :: rest).map Prod.fst) :
    id ∈ ((a, y) :: rest).map Prod.fst := by
  split at h
  · exact List.mem_cons_of_mem _ h
  · exact h

/-- The parties of an obligation are taken from the two lists. -/
theorem mem_obligationLoop {passes : ℕ} {debtors creditors : List (JsString × ℤ)}
    {edge : Obligation} (h : edge ∈ obligationLoop passes debtors creditors) :
    edge.debtorId ∈ debtors.map Prod.fst ∧ edge.creditorId ∈ creditors.map Prod.fst := by
  induction passes generalizing debtors creditors with
  | zero => simp [obligationLoop] at h
  | succ passes ih =>
    match debtors, creditors with
    | [], _ => simp [obligationLoop] at h
    | _ :: _, [] => simp [obligationLoop] at h
    | debit :: ds, credit :: cs =>
      rw [obligationLoop, List.mem_cons] at h
      rcases h with rfl | h
      · simp
      · obtain ⟨hd, hc⟩ := ih h
        exact ⟨mem_of_mem_rest hd, mem_of_mem_rest hc⟩

/-- A projection's obligations name member ids. -/
theorem isMember_of_obligation {input : Json} {result : Projection}
    (h : projectExpense input = .ok result) {edge : Obligation}
    (hedge : edge ∈ result.obligations) :
    isMember edge.creditorId = true ∧ isMember edge.debtorId = true := by
  obtain ⟨-, -, total, -, paid, hp, shares, hs, -, -, ids, ho, rfl⟩ := projectExpense_eq_ok.mp h
  have hmem : ∀ id ∈ ids, isMember id = true := fun id hid => by
    rcases mem_unionKeys.mp ((order_eq_ok.mp ho).2.2.2 id hid) with h | h
    · exact isMember_of_mem_moneyRows hp id h
    · exact isMember_of_mem_moneyRows hs id h
  obtain ⟨hd, hc⟩ := mem_obligationLoop hedge
  simp only [debtorRows, creditorRows, List.map_map, List.mem_map, List.mem_filter,
    Function.comp_apply] at hd hc
  obtain ⟨d, ⟨hd, -⟩, hde⟩ := hd
  obtain ⟨c, ⟨hc, -⟩, hce⟩ := hc
  exact ⟨hce ▸ hmem c hc, hde ▸ hmem d hd⟩

end PandaPay.SharedExpenses
