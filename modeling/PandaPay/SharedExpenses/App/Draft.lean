import PandaPay.SharedExpenses.Bill
import PandaPay.SharedExpenses.Dart.Domain
import PandaPay.Json.Value

/-!
# The draft of a shared expense

`SharedExpenseDraft.evaluate` of `features/shared_expenses/composer/shared_draft.dart`: the check of
what was typed into the editor, and the snapshot and bill it would send.

## Main definitions

* `SharedDecimalInput.parse`: amounts and percentages as they are typed
* `SharedExpenseDraft`, `SharedExpenseDraft.evaluate`
-/

namespace PandaPay.SharedExpenses.App

open Dart

/-! ### Amounts as they are typed -/

inductive SharedInputState where
  | empty
  | incomplete
  | valid
  | invalid
  deriving DecidableEq

structure SharedDecimalInput where
  state : SharedInputState
  units : Option ℕ := none
  deriving DecidableEq

namespace SharedDecimalInput

def isValid (input : SharedDecimalInput) : Bool := input.state = .valid

/-- The fraction after the digits of a text, if the text has the form
`^[0-9]+(?:\.[0-9]{1,precision})?$`. -/
def fraction (precision : ℕ) : JsString → Option JsString
  | [] => some []
  | point :: digits =>
    if point.val = 46 ∧ 1 ≤ digits.length ∧ digits.length ≤ precision ∧
      digits.all isDigit = true then some digits else none

/-- `SharedDecimalInput.parse`. The precision and the largest value are literals in all calls, within
the range outside of which the source throws an `ArgumentError`. -/
def parse (raw : JsString) (precision : ℕ := 2) (maxUnits : ℕ := 1000000000)
    (allowZero : Bool := true) : SharedDecimalInput :=
  if raw.length > 32 then ⟨.invalid, none⟩
  else
    let text := trim raw
    if text = [] then ⟨.empty, none⟩
    else
      let whole := text.takeWhile isDigit
      let rest := text.dropWhile isDigit
      if whole = [] then ⟨.invalid, none⟩
      else if precision > 0 ∧ rest = js "." then ⟨.incomplete, none⟩
      else
        match fraction precision rest with
        | none => ⟨.invalid, none⟩
        | some digits =>
          -- `padRight(precision, '0')` multiplies the fraction by the places it lacks
          let amount := unsignedValue whole * 10 ^ precision +
            unsignedValue digits * 10 ^ (precision - digits.length)
          if amount > maxUnits ∨ (allowZero = false ∧ amount = 0) then ⟨.invalid, none⟩
          else ⟨.valid, some amount⟩

end SharedDecimalInput

/-! ### Drafts -/

inductive SharedSplitMode where
  | equal
  | exact
  | percentage
  | shares
  deriving DecidableEq

/-- `mode.name`. -/
def SharedSplitMode.name : SharedSplitMode → String
  | equal => "equal"
  | exact => "exact"
  | percentage => "percentage"
  | shares => "shares"

inductive SharedEntryKind where
  | unlinkedCash
  | someoneElsePaid
  | newOwnPayment
  | existingOwnPayment
  deriving DecidableEq

inductive SharedDraftBlocker where
  | sourceFundingUnavailable
  | sourceAdmissionPending
  | unconfirmedValuation
  deriving DecidableEq

structure SharedPayerInput where
  fullText : JsString
  sharedText : JsString
  deriving DecidableEq

/-- What a draft reads of a `SharedExpenseSourceReference`. -/
structure SourceReference where
  ownerAccountId : JsString
  canonicalTransactionId : Option JsString
  sourceVersion : Option JsString
  deriving DecidableEq

/-- `Money`, in paise. -/
abbrev Money := ℤ

structure SharedDraftPreview where
  billTotal : Money
  sharedTotal : Money
  yourFullPaid : Money
  yourSharedPaid : Money
  yourResidual : Money
  yourShare : Money
  yourPersonalCost : Money
  yourBalance : Money
  shares : InsertionMap JsString Money
  financialSnapshot : Json
  billMetadata : Json

/-- The errors by field. -/
abbrev Errors := InsertionMap JsString String

structure SharedDraftEvaluation where
  errors : Errors
  blockers : List SharedDraftBlocker
  preview : Option SharedDraftPreview

structure SharedExpenseDraft where
  ownMemberId : JsString
  ownAccountId : JsString
  billText : JsString
  sharedText : JsString
  memberOrder : List JsString
  participants : List JsString
  payers : InsertionMap JsString SharedPayerInput
  mode : SharedSplitMode := .equal
  splitInputs : InsertionMap JsString JsString := .empty
  entryKind : SharedEntryKind := .unlinkedCash
  source : Option SourceReference := none
  lockedOwnPaid : Option Money := none
  confirmedValuation : Bool := true

/-! ### Checks -/

/-- `if (p) errors[field] = text`. -/
def report (p : Prop) [Decidable p] (field : JsString) (text : String) (errors : Errors) : Errors :=
  if p then errors.set field text else errors

/-- `amount`: the units typed into a field, and an error if there are none. -/
def amountOf (raw field : JsString) (positive : Bool) (errors : Errors) : Option ℕ × Errors :=
  let input := SharedDecimalInput.parse raw 2 1000000000 (!positive)
  (input.units, report (input.isValid = false) field
    (if positive then "Enter a positive amount with at most two decimal places."
      else "Enter an amount with at most two decimal places.") errors)

/-- What each payer paid of the bill and of the shared amount. -/
structure Payments where
  fullPaid : InsertionMap JsString ℕ := .empty
  sharedPaid : InsertionMap JsString ℕ := .empty
  errors : Errors

/-- `if (value != null) map[key] = value`. -/
def setSome {ν : Type} (map : InsertionMap JsString ν) (key : JsString) : Option ν →
    InsertionMap JsString ν
  | some value => map.set key value
  | none => map

/-- The body of the loop over the payers. -/
def payerStep (acc : Payments) (entry : JsString × SharedPayerInput) : Payments :=
  let (full, errors) := amountOf entry.2.fullText (js "paid:" ++ entry.1) true acc.errors
  let (part, errors) := amountOf entry.2.sharedText (js "sharedPaid:" ++ entry.1) false errors
  ⟨setSome acc.fullPaid entry.1 full, setSome acc.sharedPaid entry.1 part,
    report (∃ f ∈ full, ∃ p ∈ part, p > f) (js "sharedPaid:" ++ entry.1)
      "Shared contribution exceeds this person's payment." errors⟩

namespace SharedExpenseDraft

variable (d : SharedExpenseDraft)

/-- The checks on the members, the participants and the payers. -/
def checkPeople (errors : Errors) : Errors :=
  let errors := report (d.memberOrder = [] ∨ d.memberOrder.length > 200 ∨
      d.memberOrder.dedup.length ≠ d.memberOrder.length ∨ d.memberOrder.all isUuid = false ∨
      d.ownMemberId ∉ d.memberOrder ∨ isUuid d.ownAccountId = false) (js "members")
    "Refresh the people in this split before continuing." errors
  let errors := report (d.participants = [] ∨ d.participants.length > 50 ∨
      d.participants.dedup.length ≠ d.participants.length ∨
      ¬ ∀ id ∈ d.participants, id ∈ d.memberOrder) (js "participants")
    "Choose between 1 and 50 current members, once each." errors
  report (d.payers.size = 0 ∨ d.payers.size > 8 ∨ ¬ ∀ id ∈ d.payers.keys, id ∈ d.memberOrder)
    (js "payers") "Choose between 1 and 8 current payers." errors

/-- The checks on the totals of the payments. -/
def checkTotals (bill shared : Option ℕ) (paid : Payments) : Errors :=
  let errors := report (paid.fullPaid.size = d.payers.size ∧
      ∃ total ∈ bill, paid.fullPaid.values.foldl (· + ·) 0 ≠ total) (js "paidTotal")
    "Payments must add up to the bill total." paid.errors
  report (paid.sharedPaid.size = d.payers.size ∧
      ∃ total ∈ shared, paid.sharedPaid.values.foldl (· + ·) 0 ≠ total) (js "sharedPaidTotal")
    "Shared contributions must add up to the shared amount." errors

/-- Whether a payment of one's own is linked to the expense. -/
def linked : Bool :=
  d.source.isSome || d.entryKind = .existingOwnPayment || d.entryKind = .newOwnPayment

/-- The grammar `^[a-f0-9]{64}$`. -/
def isHash (s : JsString) : Bool := s.length = 64 && s.all isHexDigit

/-- `blockers`. -/
def blockers (sourceFundingEnabled : Bool) : List SharedDraftBlocker :=
  (if d.linked ∧ sourceFundingEnabled = false then [.sourceFundingUnavailable] else []) ++
  (if d.linked ∧ ((d.source.bind SourceReference.canonicalTransactionId) = none ∨
      isHash ((d.source.bind SourceReference.sourceVersion).getD []) = false ∨
      d.lockedOwnPaid = none) then [.sourceAdmissionPending] else []) ++
  (if d.confirmedValuation then [] else [.unconfirmedValuation])

/-- The checks on one's own payment, `ownFull`. -/
def checkSource (ownFull : ℕ) (errors : Errors) : Errors :=
  let errors := report (d.entryKind = .someoneElsePaid ∧ ownFull ≠ 0) (js "payerIntent")
    "Choose who paid. Your payment must be zero when someone else paid." errors
  let errors := report (d.linked = true ∧ ∃ ref ∈ d.source, ref.ownerAccountId ≠ d.ownAccountId)
    (js "source") "Choose your own payment." errors
  report (d.linked = true ∧ ∃ locked ∈ d.lockedOwnPaid, locked ≠ ownFull ∨ ownFull = 0)
    (js "sourceAmount") "Your contribution must match the current linked payment." errors

/-- The body of the loop over the participants: the row of a member. -/
def splitRow (id : JsString) (errors : Errors) : Json × Errors :=
  let raw := (d.splitInputs.get? id).getD []
  let member := ("memberId", Json.str id)
  match d.mode with
  | .equal => (object [member], errors)
  | .exact =>
    let (parsed, errors) := amountOf raw (js "split:" ++ id) false errors
    (object (member :: (parsed.map fun n => ("amountMinor", minor n)).toList), errors)
  | .percentage =>
    let parsed := SharedDecimalInput.parse raw 2 10000
    (object (member :: (parsed.units.map fun n => ("weight", minor n)).toList),
      report (parsed.isValid = false) (js "split:" ++ id) "Enter a percentage from 0 to 100." errors)
  | .shares =>
    let parsed := SharedDecimalInput.parse raw 0 1000000
    (object (member :: (parsed.units.map fun n => ("weight", minor n)).toList),
      report (parsed.isValid = false) (js "split:" ++ id) "Enter whole shares from 0 to 1000000."
        errors)

/-- `allocationInputs`. -/
def splitRows (errors : Errors) : List JsString → List Json × Errors
  | [] => ([], errors)
  | id :: ids =>
    let (row, errors) := d.splitRow id errors
    let (rows, errors) := splitRows errors ids
    (row :: rows, errors)

/-! ### The preview -/

/-- The participants in the order of the members. -/
def selected : List JsString := d.memberOrder.filter fun id => id ∈ d.participants

/-- The rows of those who paid something. -/
def contributionRows (paid : InsertionMap JsString ℕ) : Json :=
  .arr ((d.memberOrder.filter fun id => (paid.get? id).getD 0 > 0).map fun id =>
    allocationJson id ((paid.get? id).getD 0))

/-- `mode`, `participants` and `tieOrder`. -/
def allocation (rows : List Json) : Json :=
  object [("mode", text d.mode.name), ("participants", .arr rows),
    ("tieOrder", .arr (d.selected.map .str))]

/-- What the `try` block makes of a draft without errors. -/
def previewOf (bill shared : ℕ) (paid : Payments) (rows : List Json) : Checked SharedDraftPreview := do
  let ownFull := (paid.fullPaid.get? d.ownMemberId).getD 0
  let ownShared := (paid.sharedPaid.get? d.ownMemberId).getD 0
  let allocation ← allocateSharedExpense (object [("currency", text "INR"),
    ("totalMinor", minor shared), ("mode", text d.mode.name), ("participants", .arr rows),
    ("tieOrder", .arr (d.selected.map .str))])
  let allocations := (allocation.get "allocations").items
  let shares ← allocations.foldlM (fun (shares : InsertionMap JsString Money) row => do
    let money ← sharedMoneyFromMinor (row.get "amountMinor")
    return shares.set (stringOf (row.get "memberId")) money) .empty
  let snapshot := object [("currency", text "INR"), ("totalMinor", minor shared),
    ("contributions", d.contributionRows paid.sharedPaid), ("shares", .arr allocations),
    ("memberOrder", .arr ((d.memberOrder.filter fun id => id ∈ d.participants ∨
      (paid.sharedPaid.get? id).getD 0 > 0).map .str))]
  let _ ← projectSharedExpense snapshot
  let share := (shares.get? d.ownMemberId).getD 0
  let cost ← sharedPersonalCost (object [("sourceAmountMinor", minor ownFull),
    ("linkedAmountMinor", minor ownShared), ("shareMinor", signedMinor share)])
  let yourResidual ← sharedMoneyFromMinor (cost.get "residualMinor")
  let yourPersonalCost ← sharedMoneyFromMinor (cost.get "costMinor")
  return {
    billTotal := bill
    sharedTotal := shared
    yourFullPaid := ownFull
    yourSharedPaid := ownShared
    yourResidual := yourResidual
    yourShare := share
    yourPersonalCost := yourPersonalCost
    yourBalance := ownShared - share
    shares := shares
    financialSnapshot := snapshot
    billMetadata := object [("currency", text "INR"), ("totalMinor", minor bill),
      ("contributions", d.contributionRows paid.fullPaid), ("allocation", d.allocation rows)] }

/-- The error when the `try` block throws. -/
def splitTotalError : String :=
  match d.mode with
  | .exact => "Shares must add up to the shared amount."
  | .percentage => "Percentages must add up to 100%."
  | _ => "Enter at least one positive share."

/-- `evaluate`. -/
def evaluate (sourceFundingEnabled : Bool := false) : SharedDraftEvaluation :=
  let errors := d.checkPeople .empty
  let (bill, errors) := amountOf d.billText (js "bill") true errors
  let (shared, errors) := amountOf d.sharedText (js "shared") true errors
  let errors := report (∃ b ∈ bill, ∃ s ∈ shared, s > b) (js "shared")
    "Shared amount exceeds the bill total." errors
  let paid := d.payers.entries.foldl payerStep { errors := errors }
  let errors := d.checkTotals bill shared paid
  let errors := d.checkSource ((paid.fullPaid.get? d.ownMemberId).getD 0) errors
  let (rows, errors) := d.splitRows errors d.selected
  let blockers := d.blockers sourceFundingEnabled
  match errors.entries, bill, shared with
  | [], some bill, some shared =>
    match d.previewOf bill shared paid rows with
    | .ok preview => ⟨errors, blockers, some preview⟩
    | .error _ => ⟨errors.set (js "splitTotal") d.splitTotalError, blockers, none⟩
  | _, _, _ => ⟨errors, blockers, none⟩

end SharedExpenseDraft

end PandaPay.SharedExpenses.App
