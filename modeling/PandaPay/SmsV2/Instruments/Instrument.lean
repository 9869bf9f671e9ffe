import Mathlib.Data.Prod.Lex
import Mathlib.Order.WithBot
import PandaPay.SmsV2.Contract

/-!
# Instruments

The instruments of `contract/instrument.dart`, and what they say of a balance, of points and of a limit: a value
with the time of its observation.

## Main definitions

* `InstrumentRecord`: an instrument with all its fields
* `Reading`, `LimitReading`: a value and its time
-/

namespace PandaPay.SmsV2

/-- `InstrumentAliases`. -/
structure InstrumentAliases where
  senders : List JsString := []
  vpas : List JsString := []
  productNames : List JsString := []
  deriving DecidableEq

inductive CreditLimitSource where
  | sms | user
  deriving DecidableEq

/-- An instrument with what is known of it. -/
structure InstrumentRecord extends Instrument where
  maskLength : Option ℤ := none
  displayName : JsString
  userCardId : Option JsString := none
  parentInstrumentId : Option JsString := none
  aliases : InstrumentAliases := {}
  creditLimitMinor : Option ℤ := none
  creditLimitSource : Option CreditLimitSource := none
  creditLimitAt : Option ℤ := none
  availableMinor : Option ℤ := none
  availableAt : Option ℤ := none
  pointsBalance : Option ℤ := none
  pointsAt : Option ℤ := none
  firstSeenAt : ℤ
  lastSeenAt : ℤ
  evidenceCount : ℤ

/-- A value that was observed, with the time. -/
@[ext] structure Reading where
  minor : Option ℤ
  at_ : Option ℤ
  deriving DecidableEq

/-- The instant of a time. A missing one is before all others. -/
def instant : Option ℤ → WithBot ℤ
  | none => ⊥
  | some t => t

theorem instant_lt_some_iff {o : Option ℤ} {t : ℤ} : instant o < instant (some t) ↔ (o.all fun s => s < t) = true := by
  cases o with
  | none => exact iff_of_true (WithBot.bot_lt_coe t) rfl
  | some s => exact WithBot.coe_lt_coe.trans decide_eq_true_iff.symm

theorem some_lt_instant_iff {o : Option ℤ} {t : ℤ} : instant (some t) < instant o ↔ (o.any fun s => t < s) = true := by
  cases o with
  | none => exact iff_of_false not_lt_bot Bool.false_ne_true
  | some s => exact WithBot.coe_lt_coe.trans decide_eq_true_iff.symm

/-- The time of a reading, for comparison. -/
def Reading.time (r : Reading) : WithBot ℤ := instant r.at_

/-- A limit, with the time and whether the user entered it. -/
@[ext] structure LimitReading extends Reading where
  byUser : Bool
  deriving DecidableEq

/-- What limits go by: one of the user before others, then the time. -/
def LimitReading.rank (r : LimitReading) : Bool ×ₗ WithBot ℤ := toLex (r.byUser, r.time)

namespace InstrumentRecord

variable (i : InstrumentRecord)

def available : Reading := ⟨i.availableMinor, i.availableAt⟩

def points : Reading := ⟨i.pointsBalance, i.pointsAt⟩

def limit : Reading := ⟨i.creditLimitMinor, i.creditLimitAt⟩

/-- The limit was entered by the user. -/
def limitByUser : Bool := i.creditLimitSource = some .user

/-- The balance, if there is one. -/
def available? : Option Reading := if i.availableMinor = none then none else some i.available

/-- The points, if there are any. -/
def points? : Option Reading := if i.pointsBalance = none then none else some i.points

/-- The limit, if there is one. -/
def limit? : Option LimitReading :=
  if i.creditLimitMinor = none then none else some ⟨i.limit, i.limitByUser⟩

end InstrumentRecord

end PandaPay.SmsV2
