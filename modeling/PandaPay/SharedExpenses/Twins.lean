import PandaPay.SharedExpenses.Twins.Journal

/-!
# The two implementations side by side

The API runs the JavaScript functions, the app the Dart ones. Both take and return JSON, so each
function of the domain is one function of the twin that runs it.

## Main definitions

* `Twin`: the two implementations, and their functions from JSON to JSON
* `Twin.accepts`: whether a twin reads a projection

## Main results

* `twins_agree`: on every input the twins return the same value or the same error
-/

namespace PandaPay.SharedExpenses

/-- The two implementations of the shared-expense domain. -/
inductive Twin where
  | javascript
  | dart
  deriving DecidableEq

namespace Twin

/-- `allocateExpense` and `allocateSharedExpense`. -/
def allocateExpense : Twin → Json → Checked Json
  | javascript, input => (SharedExpenses.allocateExpense input).map Allocation.toJson
  | dart, input => Dart.allocateSharedExpense input

/-- `projectExpense` and `projectSharedExpense`. -/
def projectExpense : Twin → Json → Checked Json
  | javascript, input => (SharedExpenses.projectExpense input).map Projection.toJson
  | dart, input => Dart.projectSharedExpense input

/-- `expenseRevisionDelta`. -/
def expenseRevisionDelta : Twin → Json → Checked Json
  | javascript, input => (SharedExpenses.expenseRevisionDelta input).map Envelope.toJson
  | dart, input => Dart.expenseRevisionDelta input

/-- `settlementDelta`. -/
def settlementDelta : Twin → Json → Checked Json
  | javascript, input => (SharedExpenses.settlementDelta input).map Envelope.toJson
  | dart, input => Dart.settlementDelta input

/-- `applyBalanceDelta`. -/
def applyBalanceDelta : Twin → Json → Checked Json
  | javascript, input => (SharedExpenses.applyBalanceDelta input).map Envelope.toJson
  | dart, input => Dart.applyBalanceDelta input

/-- `allocateSettlement`. -/
def allocateSettlement : Twin → Json → Checked Json
  | javascript, input => (SharedExpenses.allocateSettlement input).map SettlementAllocation.toJson
  | dart, input => Dart.allocateSettlement input

/-- Whether a twin's `parseEnvelope` reads a projection as `current`. -/
def accepts : Twin → Json → Bool
  | javascript, projection => (SharedExpenses.parseEnvelope projection "current").isOk
  | dart, projection => (Dart.parseEnvelope projection "current").isOk

theorem bind_pure_eq_map {α β : Type} (x : Checked α) (f : α → β) :
    (x >>= fun a => pure (f a)) = x.map f := by
  cases x <;> rfl

theorem expenseRevisionDelta_eq (twin : Twin) (input : Json) :
    twin.expenseRevisionDelta input = (Dart.revisionDelta input).map Envelope.toJson := by
  cases twin with
  | javascript => rw [expenseRevisionDelta, Dart.revisionDelta_eq]
  | dart => exact bind_pure_eq_map _ _

theorem settlementDelta_eq (twin : Twin) (input : Json) :
    twin.settlementDelta input = (Dart.paymentDelta input).map Envelope.toJson := by
  cases twin with
  | javascript => rw [settlementDelta, Dart.paymentDelta_eq]
  | dart => exact bind_pure_eq_map _ _

theorem applyBalanceDelta_eq (twin : Twin) (input : Json) :
    twin.applyBalanceDelta input = (Dart.applied input).map Envelope.toJson := by
  cases twin with
  | javascript => rw [applyBalanceDelta, Dart.applied_eq]
  | dart => exact bind_pure_eq_map _ _

theorem projectExpense_eq (twin : Twin) (input : Json) :
    twin.projectExpense input = (SharedExpenses.projectExpense input).map Projection.toJson := by
  cases twin with
  | javascript => rfl
  | dart => rw [projectExpense, Dart.projectSharedExpense_eq, bind_pure_eq_map]

theorem accepts_eq (twin : Twin) (projection : Json) :
    twin.accepts projection = (Dart.parseEnvelope projection "current").isOk := by
  have h := Dart.parseEnvelope_agree projection "current"
  cases twin with
  | dart => rfl
  | javascript =>
    rw [accepts]
    cases hd : Dart.parseEnvelope projection "current" <;>
      cases hj : SharedExpenses.parseEnvelope projection "current" <;>
      rw [hd, hj] at h <;> first | rfl | exact h.elim

end Twin

/-- On every JSON input the functions of the two twins return the same JSON value, or fail with the
same error code at the same field. -/
theorem twins_agree (input : Json) :
    Twin.dart.allocateExpense input = Twin.javascript.allocateExpense input ∧
    Twin.dart.projectExpense input = Twin.javascript.projectExpense input ∧
    Twin.dart.expenseRevisionDelta input = Twin.javascript.expenseRevisionDelta input ∧
    Twin.dart.settlementDelta input = Twin.javascript.settlementDelta input ∧
    Twin.dart.applyBalanceDelta input = Twin.javascript.applyBalanceDelta input ∧
    Twin.dart.allocateSettlement input = Twin.javascript.allocateSettlement input := by
  refine ⟨?_, ?_, ?_, ?_, ?_, ?_⟩
  · exact (Dart.allocateSharedExpense_eq input).trans (Twin.bind_pure_eq_map _ _)
  · exact (Twin.dart.projectExpense_eq input).trans (Twin.javascript.projectExpense_eq input).symm
  · rw [Twin.expenseRevisionDelta_eq, Twin.expenseRevisionDelta_eq]
  · rw [Twin.settlementDelta_eq, Twin.settlementDelta_eq]
  · rw [Twin.applyBalanceDelta_eq, Twin.applyBalanceDelta_eq]
  · exact (Dart.allocateSettlement_eq input).trans (Twin.bind_pure_eq_map _ _)

end PandaPay.SharedExpenses
