import Mathlib.Order.Bounds.Basic
import PandaPay.Json.Value
import PandaPay.Library.Registers
import PandaPay.SmsV2.Instruments.Instrument

/-!
# Facts of an instrument

What facts change of an instrument on the phone (`instruments/apply_fact.dart`): the balance, the points, the
credit limit, when it was seen, and its other names. What Dart makes of letters in lower case is given.

## Main definitions

* `applyFact`: an instrument and its limit history after a fact
* `PhoneFolds`: what several facts make of an instrument

## Main results

* `phoneFolds_of_perm`: facts may come in any order
-/

namespace PandaPay.SmsV2

/-! ### Facts -/

inductive LimitChangeReason where
  | increase | decrease | assigned
  deriving DecidableEq

inductive InstrumentHintKind where
  | cardIssued | cardActivated | accountOpened | productName | linkedUpi
  deriving DecidableEq

/-- What the type of a fact adds. -/
inductive FactDetail where
  | balanceSnapshot (asOf : ℤ)
  | limitChange (previousMinor : Option ℤ) (reason : LimitChangeReason)
  | instrumentHint (hint : InstrumentHintKind)
  | other

/-- A fact, with what is read of it for its instrument. -/
structure InstrumentFact where
  observedAt : ℤ
  occurredAt : Option ℤ := none
  amounts : List Amount := []
  /-- `instrument?.productName`. -/
  productName : Option JsString := none
  /-- `counterparty?.vpa`. -/
  vpa : Option JsString := none
  detail : FactDetail

namespace InstrumentFact

/-- The amount with a role. -/
def amount (f : InstrumentFact) (role : AmountRole) : Option Amount := f.amounts.find? fun a => a.role = role

/-- `effectiveAt`. -/
def effectiveAt (f : InstrumentFact) : ℤ := f.occurredAt.getD f.observedAt

end InstrumentFact

/-- `LimitChangeRecord`. -/
structure LimitChangeRecord where
  minor : ℤ
  previousMinor : Option ℤ
  at_ : ℤ
  reason : LimitChangeReason

/-- `maxLimitHistory`. -/
def maxLimitHistory : ℕ := 5

/-- `InstrumentUpdate`. -/
structure InstrumentUpdate where
  instrument : InstrumentRecord
  limitHistory : List LimitChangeRecord

/-! ### Applying a fact -/

/-- The first part of `_applyBalance(i, fact)`: the balance. -/
def applyAvailable (i : InstrumentRecord) (fact : InstrumentFact) (asOf : ℤ) : InstrumentRecord :=
  match (fact.amount .availableBalance).or (fact.amount .availableCredit) with
  | none => i
  | some available =>
    if i.availableAt.all fun stored => stored < asOf then
      { i with availableMinor := some available.minor, availableAt := some asOf }
    else i

/-- The second part of `_applyBalance(i, fact)`: the points. -/
def applyPoints (i : InstrumentRecord) (fact : InstrumentFact) (asOf : ℤ) : InstrumentRecord :=
  match fact.amount .pointsBalance with
  | none => i
  | some points =>
    if i.pointsAt.all fun stored => stored < asOf then
      { i with pointsBalance := some points.minor, pointsAt := some asOf }
    else i

/-- `_applyBalance(i, fact)`. -/
def applyBalance (i : InstrumentRecord) (fact : InstrumentFact) (asOf : ℤ) : InstrumentRecord :=
  applyPoints (applyAvailable i fact asOf) fact asOf

/-- `_applyLimit(i, fact, history)`. -/
def applyLimit (i : InstrumentRecord) (fact : InstrumentFact) (previousMinor : Option ℤ) (reason : LimitChangeReason)
    (history : List LimitChangeRecord) : InstrumentUpdate :=
  match fact.amount .creditLimit with
  | none => ⟨i, history⟩
  | some limit =>
    if i.creditLimitSource = some .user then ⟨i, history⟩
    else
      let «at» := fact.effectiveAt
      if i.creditLimitAt.any fun stored => «at» < stored then ⟨i, history⟩
      else
        let next :=
          { i with
            creditLimitMinor := some limit.minor
            creditLimitSource := some .sms
            creditLimitAt := some «at» }
        if i.creditLimitMinor = some limit.minor then ⟨next, history⟩
        else
          let all := history ++ [⟨limit.minor, previousMinor.or i.creditLimitMinor, «at», reason⟩]
          ⟨next, all.drop (all.length - maxLimitHistory)⟩

/-- `_applyHint(i, fact)`. -/
def applyHint (toLowerCase : JsString → JsString) (i : InstrumentRecord) (fact : InstrumentFact)
    (hint : InstrumentHintKind) : InstrumentRecord :=
  let productNames :=
    match (fact.productName.map trim).filter (· ≠ []) with
    | some product =>
      if i.aliases.productNames.any fun p => toLowerCase p = toLowerCase product then i.aliases.productNames
      else i.aliases.productNames ++ [product]
    | none => i.aliases.productNames
  let vpas :=
    match if hint = .linkedUpi then (fact.vpa.map fun vpa => toLowerCase (trim vpa)).filter (· ≠ []) else none with
    | some vpa => if vpa ∈ i.aliases.vpas then i.aliases.vpas else i.aliases.vpas ++ [vpa]
    | none => i.aliases.vpas
  { i with aliases := { i.aliases with vpas, productNames } }

/-- The brand of the sender among the names of its instrument. -/
def addSender (i : InstrumentRecord) (senderBrand : Option JsString) : InstrumentRecord :=
  match (senderBrand.map trim).filter (· ≠ []) with
  | some brand =>
    if brand ∈ i.aliases.senders then i
    else { i with aliases := { i.aliases with senders := i.aliases.senders ++ [brand] } }
  | none => i

/-- The switch of `applyFact` over the types of facts. -/
def applyDetail (toLowerCase : JsString → JsString) (i : InstrumentRecord) (fact : InstrumentFact)
    (history : List LimitChangeRecord) : InstrumentUpdate :=
  match fact.detail with
  | .balanceSnapshot asOf => ⟨applyBalance i fact asOf, history⟩
  | .limitChange previousMinor reason => applyLimit i fact previousMinor reason history
  | .instrumentHint hint => ⟨applyHint toLowerCase i fact hint, history⟩
  | .other => ⟨i, history⟩

/-- `applyFact(instrument, fact, …)`. -/
def applyFact (toLowerCase : JsString → JsString) (update : InstrumentUpdate) (fact : InstrumentFact)
    (senderBrand : Option JsString) : InstrumentUpdate :=
  let applied := applyDetail toLowerCase update.instrument fact update.limitHistory
  let next := addSender applied.instrument senderBrand
  { applied with
    instrument :=
      { next with
        firstSeenAt := if fact.observedAt < next.firstSeenAt then fact.observedAt else next.firstSeenAt
        lastSeenAt := if next.lastSeenAt < fact.observedAt then fact.observedAt else next.lastSeenAt
        evidenceCount := next.evidenceCount + 1 } }

/-- An instrument after facts, each with the brand of its sender. -/
def applyFacts (toLowerCase : JsString → JsString) (update : InstrumentUpdate)
    (facts : List (InstrumentFact × Option JsString)) : InstrumentUpdate :=
  facts.foldl (fun update fact => applyFact toLowerCase update fact.1 fact.2) update

/-! ### What a fact observes -/

namespace InstrumentFact

variable (f : InstrumentFact)

/-- The balance that a fact states. -/
def available? : Option Reading :=
  match f.detail with
  | .balanceSnapshot asOf =>
    ((f.amount .availableBalance).or (f.amount .availableCredit)).map fun a => ⟨some a.minor, some asOf⟩
  | _ => none

/-- The points that a fact states. -/
def points? : Option Reading :=
  match f.detail with
  | .balanceSnapshot asOf => (f.amount .pointsBalance).map fun a => ⟨some a.minor, some asOf⟩
  | _ => none

/-- The limit that a fact states. -/
def limit? : Option Reading :=
  match f.detail with
  | .limitChange _ _ => (f.amount .creditLimit).map fun a => ⟨some a.minor, some f.effectiveAt⟩
  | _ => none

end InstrumentFact

section Steps

variable {toLowerCase : JsString → JsString} {i : InstrumentRecord} {f : InstrumentFact}
  {history : List LimitChangeRecord} {update : InstrumentUpdate} {senderBrand : Option JsString} {asOf : ℤ}

/-- The brand of the sender changes names only. -/
theorem addSender_eq (i : InstrumentRecord) (senderBrand : Option JsString) :
    ∃ aliases, addSender i senderBrand = { i with aliases } := by
  rw [addSender]
  cases (senderBrand.map trim).filter (· ≠ []) with
  | none => exact ⟨i.aliases, rfl⟩
  | some brand =>
    by_cases h : brand ∈ i.aliases.senders
    · exact ⟨i.aliases, if_pos h⟩
    · exact ⟨_, if_neg h⟩

theorem available_applyAvailable :
    some (applyAvailable i f asOf).available = firstOf Reading.time (some i.available)
      (((f.amount .availableBalance).or (f.amount .availableCredit)).map fun a => ⟨some a.minor, some asOf⟩) := by
  rw [applyAvailable]
  cases (f.amount .availableBalance).or (f.amount .availableCredit) with
  | none => rfl
  | some a =>
    by_cases h : (i.availableAt.all fun stored => stored < asOf) = true
    · exact (congrArg (fun i : InstrumentRecord => some i.available) (if_pos h)).trans
        (if_pos (instant_lt_some_iff.mpr h)).symm
    · exact (congrArg (fun i : InstrumentRecord => some i.available) (if_neg h)).trans
        (if_neg (mt instant_lt_some_iff.mp h)).symm

theorem points_applyPoints :
    some (applyPoints i f asOf).points = firstOf Reading.time (some i.points)
      ((f.amount .pointsBalance).map fun a => ⟨some a.minor, some asOf⟩) := by
  rw [applyPoints]
  cases f.amount .pointsBalance with
  | none => rfl
  | some a =>
    by_cases h : (i.pointsAt.all fun stored => stored < asOf) = true
    · exact (congrArg (fun i : InstrumentRecord => some i.points) (if_pos h)).trans
        (if_pos (instant_lt_some_iff.mpr h)).symm
    · exact (congrArg (fun i : InstrumentRecord => some i.points) (if_neg h)).trans
        (if_neg (mt instant_lt_some_iff.mp h)).symm

/-- The balance is left alone by points, and points by the balance. -/
theorem applyPoints_eq (i : InstrumentRecord) (f : InstrumentFact) (asOf : ℤ) :
    ∃ pointsBalance pointsAt, applyPoints i f asOf = { i with pointsBalance, pointsAt } := by
  rw [applyPoints]
  cases f.amount .pointsBalance with
  | none => exact ⟨i.pointsBalance, i.pointsAt, rfl⟩
  | some a =>
    by_cases h : (i.pointsAt.all fun stored => stored < asOf) = true
    · exact ⟨_, _, if_pos h⟩
    · exact ⟨i.pointsBalance, i.pointsAt, if_neg h⟩

theorem applyAvailable_eq (i : InstrumentRecord) (f : InstrumentFact) (asOf : ℤ) :
    ∃ availableMinor availableAt, applyAvailable i f asOf = { i with availableMinor, availableAt } := by
  rw [applyAvailable]
  cases (f.amount .availableBalance).or (f.amount .availableCredit) with
  | none => exact ⟨i.availableMinor, i.availableAt, rfl⟩
  | some a =>
    by_cases h : (i.availableAt.all fun stored => stored < asOf) = true
    · exact ⟨_, _, if_pos h⟩
    · exact ⟨i.availableMinor, i.availableAt, if_neg h⟩

/-- A balance changes what is known of the balance and of points only. -/
theorem applyBalance_eq (i : InstrumentRecord) (f : InstrumentFact) (asOf : ℤ) :
    ∃ availableMinor availableAt pointsBalance pointsAt, applyBalance i f asOf =
      { i with availableMinor, availableAt, pointsBalance, pointsAt } := by
  obtain ⟨availableMinor, availableAt, havailable⟩ := applyAvailable_eq i f asOf
  obtain ⟨pointsBalance, pointsAt, hpoints⟩ := applyPoints_eq (applyAvailable i f asOf) f asOf
  exact ⟨availableMinor, availableAt, pointsBalance, pointsAt, by rw [applyBalance, hpoints, havailable]⟩

theorem available_applyBalance :
    (applyBalance i f asOf).available = (applyAvailable i f asOf).available := by
  obtain ⟨pointsBalance, pointsAt, hpoints⟩ := applyPoints_eq (applyAvailable i f asOf) f asOf
  rw [applyBalance, hpoints]
  rfl

theorem points_applyBalance :
    some (applyBalance i f asOf).points = firstOf Reading.time (some i.points)
      ((f.amount .pointsBalance).map fun a => ⟨some a.minor, some asOf⟩) := by
  obtain ⟨availableMinor, availableAt, havailable⟩ := applyAvailable_eq i f asOf
  rw [applyBalance, points_applyPoints, havailable]
  rfl

variable (i f history) in
/-- A change of the limit changes what is known of the limit only. -/
theorem applyLimit_eq (previousMinor : Option ℤ) (reason : LimitChangeReason) :
    ∃ creditLimitMinor creditLimitSource creditLimitAt, (applyLimit i f previousMinor reason history).instrument =
      { i with creditLimitMinor, creditLimitSource, creditLimitAt } := by
  rw [applyLimit]
  cases f.amount .creditLimit with
  | none => exact ⟨_, _, _, rfl⟩
  | some limit =>
    simp only
    split_ifs
    · exact ⟨i.creditLimitMinor, i.creditLimitSource, i.creditLimitAt, rfl⟩
    · exact ⟨i.creditLimitMinor, i.creditLimitSource, i.creditLimitAt, rfl⟩
    · exact ⟨_, _, _, rfl⟩
    · exact ⟨_, _, _, rfl⟩

/-- A limit that the user entered is not changed. -/
theorem applyLimit_of_user (h : i.creditLimitSource = some .user) (previousMinor : Option ℤ)
    (reason : LimitChangeReason) : (applyLimit i f previousMinor reason history).instrument = i := by
  rw [applyLimit]
  cases f.amount .creditLimit with
  | none => rfl
  | some limit =>
    simp only
    rw [if_pos h]

theorem limit_applyLimit (h : i.creditLimitSource ≠ some .user) (previousMinor : Option ℤ)
    (reason : LimitChangeReason) :
    some (applyLimit i f previousMinor reason history).instrument.limit = lastOf Reading.time (some i.limit)
        ((f.amount .creditLimit).map fun a => ⟨some a.minor, some f.effectiveAt⟩) ∧
      (applyLimit i f previousMinor reason history).instrument.creditLimitSource ≠ some .user := by
  rw [applyLimit]
  cases f.amount .creditLimit with
  | none => exact ⟨rfl, h⟩
  | some limit =>
    simp only
    rw [if_neg h]
    by_cases hearlier : (i.creditLimitAt.any fun stored => f.effectiveAt < stored) = true
    · rw [if_pos hearlier]
      exact ⟨(if_pos (some_lt_instant_iff.mpr hearlier)).symm, h⟩
    · rw [if_neg hearlier]
      have hreading : lastOf Reading.time (some i.limit) (some ⟨some limit.minor, some f.effectiveAt⟩) =
          some ⟨some limit.minor, some f.effectiveAt⟩ := if_neg (mt some_lt_instant_iff.mp hearlier)
      split_ifs
      · exact ⟨hreading.symm, by simp⟩
      · exact ⟨hreading.symm, by simp⟩

/-- What `applyFact` does besides the switch. -/
theorem applyFact_eq (toLowerCase : JsString → JsString) (update : InstrumentUpdate) (f : InstrumentFact)
    (senderBrand : Option JsString) : ∃ aliases evidenceCount,
    (applyFact toLowerCase update f senderBrand).instrument =
      { (applyDetail toLowerCase update.instrument f update.limitHistory).instrument with
        aliases
        firstSeenAt := min f.observedAt
          (applyDetail toLowerCase update.instrument f update.limitHistory).instrument.firstSeenAt
        lastSeenAt := max (applyDetail toLowerCase update.instrument f update.limitHistory).instrument.lastSeenAt
          f.observedAt
        evidenceCount } := by
  obtain ⟨aliases, haliases⟩ :=
    addSender_eq (applyDetail toLowerCase update.instrument f update.limitHistory).instrument senderBrand
  refine ⟨aliases, (applyDetail toLowerCase update.instrument f update.limitHistory).instrument.evidenceCount + 1, ?_⟩
  rw [applyFact]
  simp only [haliases]
  congr 1
  · rw [min_def]
    split_ifs <;> omega
  · rw [max_def]
    split_ifs <;> omega

variable (toLowerCase i f history) in
/-- The switch leaves alone when an instrument was seen. -/
theorem seen_applyDetail :
    (applyDetail toLowerCase i f history).instrument.firstSeenAt = i.firstSeenAt ∧
      (applyDetail toLowerCase i f history).instrument.lastSeenAt = i.lastSeenAt := by
  rw [applyDetail]
  cases f.detail with
  | balanceSnapshot asOf =>
    obtain ⟨_, _, _, _, hbalance⟩ := applyBalance_eq i f asOf
    simp only [hbalance, and_self]
  | limitChange previousMinor reason =>
    obtain ⟨_, _, _, hlimit⟩ := applyLimit_eq i f history previousMinor reason
    simp only [hlimit, and_self]
  | instrumentHint hint => exact ⟨rfl, rfl⟩
  | other => exact ⟨rfl, rfl⟩

theorem available_applyDetail : some (applyDetail toLowerCase i f history).instrument.available =
    firstOf Reading.time (some i.available) f.available? := by
  rw [applyDetail, InstrumentFact.available?]
  cases f.detail with
  | balanceSnapshot asOf => exact (congrArg some available_applyBalance).trans available_applyAvailable
  | limitChange previousMinor reason =>
    obtain ⟨_, _, _, hlimit⟩ := applyLimit_eq i f history previousMinor reason
    simp only [hlimit, InstrumentRecord.available]
    rfl
  | instrumentHint hint => rfl
  | other => rfl

theorem points_applyDetail : some (applyDetail toLowerCase i f history).instrument.points =
    firstOf Reading.time (some i.points) f.points? := by
  rw [applyDetail, InstrumentFact.points?]
  cases f.detail with
  | balanceSnapshot asOf => exact points_applyBalance
  | limitChange previousMinor reason =>
    obtain ⟨_, _, _, hlimit⟩ := applyLimit_eq i f history previousMinor reason
    simp only [hlimit, InstrumentRecord.points]
    rfl
  | instrumentHint hint => rfl
  | other => rfl

/-- A limit of messages is replaced by one that is not earlier. -/
theorem limit_applyDetail (h : i.creditLimitSource ≠ some .user) :
    some (applyDetail toLowerCase i f history).instrument.limit =
        lastOf Reading.time (some i.limit) f.limit? ∧
      (applyDetail toLowerCase i f history).instrument.creditLimitSource ≠ some .user := by
  rw [applyDetail, InstrumentFact.limit?]
  cases f.detail with
  | balanceSnapshot asOf =>
    obtain ⟨_, _, _, _, hbalance⟩ := applyBalance_eq i f asOf
    simp only [hbalance, InstrumentRecord.limit]
    exact ⟨rfl, h⟩
  | limitChange previousMinor reason => exact limit_applyLimit h previousMinor reason
  | instrumentHint hint => exact ⟨rfl, h⟩
  | other => exact ⟨rfl, h⟩

/-- A limit of the user stays. -/
theorem limit_applyDetail_of_user (h : i.creditLimitSource = some .user) :
    (applyDetail toLowerCase i f history).instrument.limit = i.limit ∧
      (applyDetail toLowerCase i f history).instrument.creditLimitSource = some .user := by
  rw [applyDetail]
  cases f.detail with
  | balanceSnapshot asOf =>
    obtain ⟨_, _, _, _, hbalance⟩ := applyBalance_eq i f asOf
    simp only [hbalance, InstrumentRecord.limit]
    exact ⟨trivial, h⟩
  | limitChange previousMinor reason =>
    simp only [applyLimit_of_user h]
    exact ⟨trivial, h⟩
  | instrumentHint hint => exact ⟨rfl, h⟩
  | other => exact ⟨rfl, h⟩

end Steps

/-! ### Several facts -/

section Runs

variable {toLowerCase : JsString → JsString} {facts : List (InstrumentFact × Option JsString)}
  (update : InstrumentUpdate)

/-- What is observed goes through the registers one by one. -/
theorem available_applyFacts : some (applyFacts toLowerCase update facts).instrument.available =
    (facts.map fun f => f.1.available?).foldl (firstOf Reading.time) (some update.instrument.available) := by
  induction facts generalizing update with
  | nil => rfl
  | cons f facts ih =>
    obtain ⟨_, _, hfact⟩ := applyFact_eq toLowerCase update f.1 f.2
    have hstep : some (applyFact toLowerCase update f.1 f.2).instrument.available =
        firstOf Reading.time (some update.instrument.available) f.1.available? := by
      rw [hfact]
      exact available_applyDetail
    rw [applyFacts, List.foldl_cons, List.map_cons, List.foldl_cons, ← hstep]
    exact ih _

theorem points_applyFacts : some (applyFacts toLowerCase update facts).instrument.points =
    (facts.map fun f => f.1.points?).foldl (firstOf Reading.time) (some update.instrument.points) := by
  induction facts generalizing update with
  | nil => rfl
  | cons f facts ih =>
    obtain ⟨_, _, hfact⟩ := applyFact_eq toLowerCase update f.1 f.2
    have hstep : some (applyFact toLowerCase update f.1 f.2).instrument.points =
        firstOf Reading.time (some update.instrument.points) f.1.points? := by
      rw [hfact]
      exact points_applyDetail
    rw [applyFacts, List.foldl_cons, List.map_cons, List.foldl_cons, ← hstep]
    exact ih _

theorem limit_applyFacts (h : update.instrument.creditLimitSource ≠ some .user) :
    some (applyFacts toLowerCase update facts).instrument.limit =
      (facts.map fun f => f.1.limit?).foldl (lastOf Reading.time) (some update.instrument.limit) := by
  induction facts generalizing update with
  | nil => rfl
  | cons f facts ih =>
    obtain ⟨_, _, hfact⟩ := applyFact_eq toLowerCase update f.1 f.2
    have hdetail : some (applyDetail toLowerCase update.instrument f.1 update.limitHistory).instrument.limit =
          lastOf Reading.time (some update.instrument.limit) f.1.limit? ∧
        (applyDetail toLowerCase update.instrument f.1 update.limitHistory).instrument.creditLimitSource ≠
          some .user := limit_applyDetail h
    have hstep : some (applyFact toLowerCase update f.1 f.2).instrument.limit =
        lastOf Reading.time (some update.instrument.limit) f.1.limit? := by
      rw [hfact]
      exact hdetail.1
    rw [applyFacts, List.foldl_cons, List.map_cons, List.foldl_cons, ← hstep]
    refine ih _ ?_
    rw [hfact]
    exact hdetail.2

/-- No fact changes a limit that the user entered. -/
theorem limit_applyFacts_of_user (h : update.instrument.creditLimitSource = some .user) :
    (applyFacts toLowerCase update facts).instrument.limit = update.instrument.limit ∧
      (applyFacts toLowerCase update facts).instrument.creditLimitSource = some .user := by
  induction facts generalizing update with
  | nil => exact ⟨rfl, h⟩
  | cons f facts ih =>
    obtain ⟨_, _, hfact⟩ := applyFact_eq toLowerCase update f.1 f.2
    have hdetail : (applyDetail toLowerCase update.instrument f.1 update.limitHistory).instrument.limit =
          update.instrument.limit ∧
        (applyDetail toLowerCase update.instrument f.1 update.limitHistory).instrument.creditLimitSource =
          some .user := limit_applyDetail_of_user h
    have hrest := ih (applyFact toLowerCase update f.1 f.2) (by rw [hfact]; exact hdetail.2)
    refine ⟨hrest.1.trans ?_, hrest.2⟩
    rw [hfact]
    exact hdetail.1

theorem seen_applyFacts :
    IsLeast {t | t = update.instrument.firstSeenAt ∨ ∃ f ∈ facts, f.1.observedAt = t}
        (applyFacts toLowerCase update facts).instrument.firstSeenAt ∧
      IsGreatest {t | t = update.instrument.lastSeenAt ∨ ∃ f ∈ facts, f.1.observedAt = t}
        (applyFacts toLowerCase update facts).instrument.lastSeenAt := by
  induction facts generalizing update with
  | nil =>
    refine ⟨⟨.inl rfl, ?_⟩, ⟨.inl rfl, ?_⟩⟩ <;> rintro t (rfl | ⟨f, hf, -⟩)
    · exact le_refl _
    · exact absurd hf List.not_mem_nil
    · exact le_refl _
    · exact absurd hf List.not_mem_nil
  | cons f facts ih =>
    obtain ⟨_, _, hfact⟩ := applyFact_eq toLowerCase update f.1 f.2
    obtain ⟨hfirst, hlast⟩ := seen_applyDetail toLowerCase update.instrument f.1 update.limitHistory
    obtain ⟨⟨hleast, hlower⟩, ⟨hgreatest, hupper⟩⟩ := ih (applyFact toLowerCase update f.1 f.2)
    have hmin : (applyFact toLowerCase update f.1 f.2).instrument.firstSeenAt =
        min f.1.observedAt update.instrument.firstSeenAt := by rw [hfact, ← hfirst]
    have hmax : (applyFact toLowerCase update f.1 f.2).instrument.lastSeenAt =
        max update.instrument.lastSeenAt f.1.observedAt := by rw [hfact, ← hlast]
    rw [hmin] at hleast hlower
    rw [hmax] at hgreatest hupper
    refine ⟨⟨?_, ?_⟩, ⟨?_, ?_⟩⟩
    · rcases hleast with hleast | ⟨g, hg, hobserved⟩
      · rcases min_choice f.1.observedAt update.instrument.firstSeenAt with hchoice | hchoice
        · exact .inr ⟨f, List.mem_cons_self, hchoice.symm.trans hleast.symm⟩
        · exact .inl (hleast.trans hchoice)
      · exact .inr ⟨g, List.mem_cons_of_mem f hg, hobserved⟩
    · have hle := hlower (.inl rfl)
      rintro t (rfl | ⟨g, hg, rfl⟩)
      · exact hle.trans (min_le_right _ _)
      · rcases List.mem_cons.mp hg with rfl | hg
        · exact hle.trans (min_le_left _ _)
        · exact hlower (.inr ⟨g, hg, rfl⟩)
    · rcases hgreatest with hgreatest | ⟨g, hg, hobserved⟩
      · rcases max_choice update.instrument.lastSeenAt f.1.observedAt with hchoice | hchoice
        · exact .inl (hgreatest.trans hchoice)
        · exact .inr ⟨f, List.mem_cons_self, hchoice.symm.trans hgreatest.symm⟩
      · exact .inr ⟨g, List.mem_cons_of_mem f hg, hobserved⟩
    · have hle := hupper (.inl rfl)
      rintro t (rfl | ⟨g, hg, rfl⟩)
      · exact (le_max_left _ _).trans hle
      · rcases List.mem_cons.mp hg with rfl | hg
        · exact (le_max_right _ _).trans hle
        · exact hupper (.inr ⟨g, hg, rfl⟩)

end Runs

/-- The times of the observations of a value, with that of the instrument, are distinct. -/
structure DistinctTimes (i : InstrumentRecord) (facts : List (InstrumentFact × Option JsString)) : Prop where
  available : ((i.available :: facts.filterMap fun f => f.1.available?).map Reading.time).Nodup
  points : ((i.points :: facts.filterMap fun f => f.1.points?).map Reading.time).Nodup
  limit : ((i.limit :: facts.filterMap fun f => f.1.limit?).map Reading.time).Nodup

/-- What several facts make of an instrument: the newest of what was observed. -/
structure PhoneFolds (i : InstrumentRecord) (facts : List (InstrumentFact × Option JsString))
    (m : InstrumentRecord) : Prop where
  available : some m.available = newest Reading.time (i.available :: facts.filterMap fun f => f.1.available?)
  points : some m.points = newest Reading.time (i.points :: facts.filterMap fun f => f.1.points?)
  limit : i.creditLimitSource ≠ some .user →
    some m.limit = newest Reading.time (i.limit :: facts.filterMap fun f => f.1.limit?)
  userLimit : i.creditLimitSource = some .user → m.limit = i.limit ∧ m.creditLimitSource = some .user
  firstSeen : IsLeast {t | t = i.firstSeenAt ∨ ∃ f ∈ facts, f.1.observedAt = t} m.firstSeenAt
  lastSeen : IsGreatest {t | t = i.lastSeenAt ∨ ∃ f ∈ facts, f.1.observedAt = t} m.lastSeenAt

/-- A register that goes through observations in any order holds the newest one. -/
theorem foldl_eq_newest_of_perm {pick : Option Reading → Option Reading → Option Reading}
    (hpick : Picks Reading.time pick) {r : Reading} {obs : InstrumentFact × Option JsString → Option Reading}
    {facts facts' : List (InstrumentFact × Option JsString)}
    (hnodup : ((r :: facts.filterMap obs).map Reading.time).Nodup) (hperm : facts'.Perm facts) :
    (facts'.map obs).foldl pick (some r) = newest Reading.time (r :: facts.filterMap obs) := by
  have hmem : ∀ a, a ∈ r :: facts'.filterMap obs ↔ a ∈ r :: facts.filterMap obs := fun a =>
    ((hperm.filterMap obs).cons r).mem_iff
  have htop := hpick.holdsTop (some r) (facts'.map obs)
  rw [List.filterMap_cons_some (show id (some r) = some r from rfl), List.filterMap_map, Function.id_comp] at htop
  have hinj : ∀ a ∈ r :: facts.filterMap obs, ∀ b ∈ r :: facts.filterMap obs, a.time = b.time → a = b :=
    fun a ha b hb h => List.inj_on_of_nodup_map hnodup ha hb h
  have hinj' : ∀ a ∈ r :: facts'.filterMap obs, ∀ b ∈ r :: facts'.filterMap obs, a.time = b.time → a = b :=
    fun a ha b hb h => hinj a ((hmem a).mp ha) b ((hmem b).mp hb) h
  rw [htop.eq_newest (fun _ _ h => h) hinj' fun a _ b _ _ h => h]
  exact newest_congr hmem hinj'

/-- **Facts may come in any order.** -/
theorem phoneFolds_of_perm (toLowerCase : JsString → JsString) (update : InstrumentUpdate)
    {facts facts' : List (InstrumentFact × Option JsString)} (hdistinct : DistinctTimes update.instrument facts)
    (hperm : facts'.Perm facts) :
    PhoneFolds update.instrument facts (applyFacts toLowerCase update facts').instrument where
  available := (available_applyFacts update).trans
    (foldl_eq_newest_of_perm picks_firstOf hdistinct.available hperm)
  points := (points_applyFacts update).trans (foldl_eq_newest_of_perm picks_firstOf hdistinct.points hperm)
  limit h := (limit_applyFacts update h).trans (foldl_eq_newest_of_perm picks_lastOf hdistinct.limit hperm)
  userLimit h := limit_applyFacts_of_user update h
  firstSeen := by
    have hseen : IsLeast {t | t = update.instrument.firstSeenAt ∨ ∃ f ∈ facts', f.1.observedAt = t}
        (applyFacts toLowerCase update facts').instrument.firstSeenAt := (seen_applyFacts update).1
    simpa only [hperm.mem_iff] using hseen
  lastSeen := by
    have hseen : IsGreatest {t | t = update.instrument.lastSeenAt ∨ ∃ f ∈ facts', f.1.observedAt = t}
        (applyFacts toLowerCase update facts').instrument.lastSeenAt := (seen_applyFacts update).2
    simpa only [hperm.mem_iff] using hseen

end PandaPay.SmsV2
