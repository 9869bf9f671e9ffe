import PandaPay.Json.Decimal
import PandaPay.Library.Checked

/-!
# Field checks of the shared-expense API

The checks of `api/src/shared_expenses/validation.js`, on which every pure function of the
shared-expense API is built. Each either returns the checked value or fails with a stable error
code and the path of the field at fault.

## Main definitions

* `ErrorCode`, `SharedExpenseError`, `fail`
* `record`, `amount`, `member`, `currency`, `order`, `count`: the checks
* `isMember`: the grammar of member ids
-/

namespace PandaPay.SharedExpenses

/-- The stable error codes of the shared-expense functions. -/
inductive ErrorCode where
  | invalidInput | invalidAmount | amountLimitExceeded | aggregateLimitExceeded
  | invalidMemberId | duplicateMember | unsupportedCurrency | invalidTieOrder
  | invalidParticipantCount | invalidPayerCount | invalidMode | invalidWeight
  | allocationTotalMismatch | contributionTotalMismatch
  | invalidBalance | invalidBalancePair | balanceMismatch | contextMismatch
  | invalidSettlement | invalidSettlementDirection | invalidObligationCount
  | billTotalMismatch | billContributionMismatch | billAllocationMismatch
  | payloadTooLarge | sourceOverallocated
  deriving DecidableEq

/-- The text a code carries in the source. -/
def ErrorCode.text : ErrorCode → String
  | invalidInput => "INVALID_INPUT"
  | invalidAmount => "INVALID_AMOUNT"
  | amountLimitExceeded => "AMOUNT_LIMIT_EXCEEDED"
  | aggregateLimitExceeded => "AGGREGATE_LIMIT_EXCEEDED"
  | invalidMemberId => "INVALID_MEMBER_ID"
  | duplicateMember => "DUPLICATE_MEMBER"
  | unsupportedCurrency => "UNSUPPORTED_CURRENCY"
  | invalidTieOrder => "INVALID_TIE_ORDER"
  | invalidParticipantCount => "INVALID_PARTICIPANT_COUNT"
  | invalidPayerCount => "INVALID_PAYER_COUNT"
  | invalidMode => "INVALID_MODE"
  | invalidWeight => "INVALID_WEIGHT"
  | allocationTotalMismatch => "ALLOCATION_TOTAL_MISMATCH"
  | contributionTotalMismatch => "CONTRIBUTION_TOTAL_MISMATCH"
  | invalidBalance => "INVALID_BALANCE"
  | invalidBalancePair => "INVALID_BALANCE_PAIR"
  | balanceMismatch => "BALANCE_MISMATCH"
  | contextMismatch => "CONTEXT_MISMATCH"
  | invalidSettlement => "INVALID_SETTLEMENT"
  | invalidSettlementDirection => "INVALID_SETTLEMENT_DIRECTION"
  | invalidObligationCount => "INVALID_OBLIGATION_COUNT"
  | billTotalMismatch => "BILL_TOTAL_MISMATCH"
  | billContributionMismatch => "BILL_CONTRIBUTION_MISMATCH"
  | billAllocationMismatch => "BILL_ALLOCATION_MISMATCH"
  | payloadTooLarge => "PAYLOAD_TOO_LARGE"
  | sourceOverallocated => "SOURCE_OVERALLOCATED"

/-- What a failed check reports: a stable code and the path of the field. -/
structure SharedExpenseError where
  code : ErrorCode
  field : String
  deriving DecidableEq

/-- A computation that can fail with a `SharedExpenseError`. -/
abbrev Checked (α : Type) := Except SharedExpenseError α

/-- The error `fail(code, field)` throws. -/
abbrev err (code : ErrorCode) (field : String) : SharedExpenseError := ⟨code, field⟩

def MAX_EXPENSE_MINOR : ℕ := 1000000000

def MAX_AGGREGATE_MINOR : ℕ := 9007199254740991

/-- `record`: a plain object that has every key of `keys` and no key outside `keys` and
`optional`. -/
def record (value : Json) (keys : List String) (field : String) (code : ErrorCode := .invalidInput)
    (optional : List String := []) : Checked Unit :=
  match value with
  | .obj fields =>
    failIf (keys.any (fun key => !value.hasOwn key) ∨
      fields.any (fun f => !((keys ++ optional).map js).contains f.1)) (err code field)
  | _ => .error (err code field)

/-- `amount`: a canonical unsigned numeral of at most 16 digits, at most `max`. -/
def amount (value : Json) (field : String) (max : ℕ := MAX_EXPENSE_MINOR)
    (positive : Bool := false) (overflow : ErrorCode := .amountLimitExceeded) : Checked ℕ :=
  match value with
  | .str s => do
    failIf (s.length > 16 ∨ isUnsigned s = false) (err .invalidAmount field)
    let parsed := unsignedValue s
    failIf (positive = true ∧ parsed = 0) (err .invalidAmount field)
    failIf (parsed > max) (err overflow field)
    return parsed
  | _ => .error (err .invalidAmount field)

/-- The character class `[A-Za-z0-9]`. -/
def isAlphanumeric (c : CodeUnit) : Bool :=
  isDigit c ∨ (65 ≤ c.val ∧ c.val ≤ 90) ∨ (97 ≤ c.val ∧ c.val ≤ 122)

/-- The grammar `^[A-Za-z0-9][A-Za-z0-9_-]*$`. -/
def isMemberName : JsString → Bool
  | [] => false
  | c :: cs => isAlphanumeric c && cs.all fun d => isAlphanumeric d || d.val = 95 || d.val = 45

/-- What `member` accepts: a member name of at most 64 code units. -/
def isMember (s : JsString) : Bool := s.length ≤ 64 && isMemberName s

/-- `member`: a member id. -/
def member (value : Json) (field : String) : Checked JsString :=
  match value with
  | .str s => do
    failIf (s.length > 64 ∨ isMemberName s = false) (err .invalidMemberId field)
    return s
  | _ => .error (err .invalidMemberId field)

/-- `currency`: only rupees. -/
def currency (value : Json) : Checked Unit :=
  failIf (value.isStr (js "INR") = false) (err .unsupportedCurrency "currency")

/-- `order`: a list of all of `members`, each once. The returned list stands for the rank map:
a member's rank is its position. An element that is no string fails whatever the size of the
`Set` is, so the sizes are compared on strings. -/
def order (value : Json) (members : List JsString) (field : String) : Checked (List JsString) :=
  match value with
  | .arr items =>
    match Json.strings? items with
    | some ids => do
      failIf (ids.length ≠ members.length ∨ ¬ ids.Nodup ∨ ids.any (fun id => !members.contains id))
        (err .invalidTieOrder field)
      return ids
    | none => .error (err .invalidTieOrder field)
  | _ => .error (err .invalidTieOrder field)

/-- `count`: an array of 1 to `max` elements. -/
def count (value : Json) (max : ℕ) (code : ErrorCode) (field : String) : Checked Unit :=
  match value with
  | .arr items => failIf (items.length < 1 ∨ items.length > max) (err code field)
  | _ => .error (err code field)

/-! ### What a passed check says -/

theorem member_eq_ok {value : Json} {field : String} {id : JsString} :
    member value field = .ok id ↔ value = .str id ∧ isMember id = true := by
  cases value with
  | str s =>
    simp only [member, failIf_bind_eq_ok, pure_eq_ok, Except.ok.injEq, Json.str.injEq, isMember,
      Bool.and_eq_true, decide_eq_true_eq, not_or, Bool.not_eq_false, not_lt]
    constructor
    · rintro ⟨h, hs⟩
      exact ⟨hs, hs ▸ h⟩
    · rintro ⟨hs, h⟩
      exact ⟨hs ▸ h, hs⟩
  | _ => simp [member]

theorem currency_eq_ok {value : Json} {u : Unit} :
    currency value = .ok u ↔ value = .str (js "INR") := by
  unfold currency
  rw [failIf_eq_ok, Bool.not_eq_false]
  cases value <;> simp [Json.isStr]

theorem amount_eq_ok {value : Json} {field : String} {max : ℕ} {positive : Bool}
    {overflow : ErrorCode} {n : ℕ} :
    amount value field max positive overflow = .ok n ↔
      ∃ s, value = .str s ∧ s.length ≤ 16 ∧ isUnsigned s = true ∧ unsignedValue s = n ∧
        (positive = true → n ≠ 0) ∧ n ≤ max := by
  cases value with
  | str s =>
    simp only [amount, failIf_bind_eq_ok, pure_eq_ok, Except.ok.injEq, Json.str.injEq, not_or,
      Bool.not_eq_false, not_lt, not_and]
    constructor
    · rintro ⟨⟨hl, hs⟩, hp, hm, rfl⟩
      exact ⟨s, rfl, hl, hs, rfl, hp, hm⟩
    · rintro ⟨t, rfl, hl, hs, rfl, hp, hm⟩
      exact ⟨⟨hl, hs⟩, hp, hm, rfl⟩
  | _ => simp [amount]

theorem order_eq_ok {value : Json} {members ids : List JsString} {field : String} :
    order value members field = .ok ids ↔
      value = .arr (ids.map .str) ∧ ids.length = members.length ∧ ids.Nodup ∧
        ∀ id ∈ ids, id ∈ members := by
  cases value with
  | arr items =>
    simp only [order, Json.arr.injEq]
    cases hs : Json.strings? items with
    | none =>
      simp only [reduceCtorEq, false_iff, not_and]
      rintro rfl
      rw [Json.strings?_map_str] at hs
      exact absurd hs (by simp)
    | some rows =>
      rw [Json.strings?_eq_some_iff] at hs
      subst hs
      simp only [failIf_bind_eq_ok, pure_eq_ok, Except.ok.injEq, not_or, not_not,
        List.any_eq_true, Bool.not_eq_true', List.contains_eq_mem, decide_eq_false_iff_not,
        not_exists, not_and]
      have hinj : Function.Injective (List.map Json.str) :=
        List.map_injective_iff.mpr fun _ _ h => Json.str.inj h
      constructor
      · rintro ⟨⟨hl, hn, hm⟩, rfl⟩
        exact ⟨rfl, hl, hn, hm⟩
      · rintro ⟨he, hl, hn, hm⟩
        cases hinj he
        exact ⟨⟨hl, hn, hm⟩, rfl⟩
  | _ => simp [order]

theorem count_eq_ok {value : Json} {max : ℕ} {code : ErrorCode} {field : String} {u : Unit} :
    count value max code field = .ok u ↔
      ∃ items, value = .arr items ∧ 1 ≤ items.length ∧ items.length ≤ max := by
  cases value with
  | arr items =>
    simp only [count, failIf_eq_ok, not_or, not_lt, Json.arr.injEq]
    constructor
    · intro h
      exact ⟨items, rfl, h⟩
    · rintro ⟨_, hi, h⟩
      exact hi ▸ h
  | _ => simp [count]

end PandaPay.SharedExpenses
