import Mathlib.Data.Rat.Floor
import PandaPay.Library.Best
import PandaPay.Transactions.References

/-!
# Duplicate transactions

`evaluateDuplicate` and `bestDuplicate` of `transaction_dedup.js`. A row has each field under either of its two
names; times are in milliseconds and scores in thousandths. What Unicode makes of a merchant's name is given.

## Main definitions

* `evaluateDuplicate`, `bestDuplicate`: the functions of the source
* `HasReferenceEvidence`, `HasSmsEvidence`: the evidence that matches automatically
* `HasCappedEvidence`: the other evidence whose score reaches the cap

## Main results

* `evaluateDuplicate_comm`: either row may come first
* `duplicate_detection_iff`: exactly where no capped evidence comes before it, the one automatic match is selected
-/

namespace PandaPay.Transactions

/-! ### Rows -/

/-- A text with something in it. -/
def truthy (v : Option JsString) : Bool := v.any (· ≠ [])

/-- `v || fallback`. -/
def orElse (v : Option JsString) (fallback : JsString) : JsString :=
  match v with
  | some s => if s = [] then fallback else s
  | none => fallback

/-- `sourceFamily(source)`. -/
def sourceFamily (source : Option JsString) : JsString :=
  if source = some (js "sms") ∨ source = some (js "sms_bulk") then js "sms"
  else if source = some (js "statement") then js "statement"
  else if source = some (js "imported") then js "imported"
  else orElse source (js "manual")

/-- A transaction. Times and the amount are `none` where there is no finite number. -/
structure DedupRow where
  entryKind : Option JsString := none
  source : Option JsString := none
  bankReference : Option JsString := none
  merchantName : Option JsString := none
  instrument : Option JsString := none
  userCardId : Option JsString := none
  accountLast4 : Option JsString := none
  amount : Option ℚ := none
  occurred : Option ℤ := none
  observedAt : Option ℤ := none
  transactionTimePrecise : Bool := false
  deriving DecidableEq

namespace DedupRow

variable (row : DedupRow)

/-- `entryKind || 'spend'`. -/
def kind : JsString := orElse row.entryKind (js "spend")

/-- `instrument || 'credit_card'`. -/
def instrumentKind : JsString := orElse row.instrument (js "credit_card")

/-- `sourceFamily(row.source)`. -/
def family : JsString := sourceFamily row.source

/-- `referenceOf(row)`. -/
def reference : Option JsString := referenceOf row.bankReference row.merchantName

/-- `comparisonTime(row, sourceFamily(row.source))`. -/
def comparisonTime : Option ℤ :=
  if row.family = js "sms" ∧ row.transactionTimePrecise ∧ row.occurred ≠ none then row.occurred
  else if row.family = js "sms" ∧ row.observedAt ≠ none then row.observedAt
  else row.occurred

end DedupRow

/-! ### Merchants -/

/-- What Unicode makes of texts: lower case, and the letters and numbers of a text. -/
structure UnicodeText where
  toLowerCase : JsString → JsString
  lettersAndNumbers : JsString → JsString

/-- `normalizeMerchant(value)`. -/
def normalizeMerchant (u : UnicodeText) (value : Option JsString) : JsString :=
  u.lettersAndNumbers (u.toLowerCase (value.getD []))

/-- `merchantMatch`. -/
inductive MerchantMatch where
  | missing | exact | contained | different
  deriving DecidableEq

namespace MerchantMatch

/-- The word for a match. -/
def text : MerchantMatch → JsString
  | missing => js "missing"
  | exact => js "exact"
  | contained => js "contained"
  | different => js "different"

/-- The score of a match. -/
def score : MerchantMatch → ℕ
  | missing => 60
  | exact => 350
  | contained => 300
  | different => 0

end MerchantMatch

/-- Names that say nothing. -/
def emptyNames : List JsString := [js "unknown", js "unknownmerchant", js "other", js "na"]

/-- `compareMerchants(left, right)`, of normalized names. -/
def compareNames (a b : JsString) : Option MerchantMatch :=
  if a = [] ∨ b = [] ∨ a ∈ emptyNames ∨ b ∈ emptyNames then some .missing
  else if a = b then some .exact
  else if 5 ≤ min a.length b.length ∧ (b <:+: a ∨ a <:+: b) then some .contained
  else none

/-- `compareMerchants(left, right)`. -/
def compareMerchants (u : UnicodeText) (left right : Option JsString) : Option MerchantMatch :=
  compareNames (normalizeMerchant u left) (normalizeMerchant u right)

/-! ### Matches -/

/-- What `evaluateDuplicate` returns. -/
structure DuplicateMatch where
  score : ℕ
  automatic : Bool
  amountDifference : ℚ
  timeDifferenceMinutes : ℤ
  merchantMatch : MerchantMatch
  sourceFamilies : JsString × JsString
  reason : JsString
  deriving DecidableEq

/-- Two texts that are there and differ. -/
def conflicting (x y : Option JsString) : Bool := truthy x && truthy y && x ≠ y

section Evidence

variable (incoming candidate : DedupRow)

/-- `sameReference`. -/
def sameReference : Bool := truthy incoming.reference && incoming.reference = candidate.reference

/-- `sameSmsFamily`. -/
def sameSmsFamily : Bool := incoming.family = js "sms" && candidate.family = js "sms"

/-- The rows cannot be one spend: by their kinds, references, sources, instruments, cards or accounts. -/
def contradicts : Bool :=
  incoming.kind ≠ candidate.kind ||
  conflicting incoming.reference candidate.reference ||
  (incoming.kind ≠ js "spend" && !sameReference incoming candidate) ||
  (incoming.family = candidate.family && incoming.family ≠ js "imported" && !sameReference incoming candidate &&
    !sameSmsFamily incoming candidate) ||
  (incoming.instrumentKind ≠ candidate.instrumentKind && incoming.instrumentKind ≠ js "other" &&
    candidate.instrumentKind ≠ js "other") ||
  conflicting incoming.userCardId candidate.userCardId ||
  conflicting incoming.accountLast4 candidate.accountLast4

/-- Both rows have a card. -/
def bothCards : Bool := truthy incoming.userCardId && truthy candidate.userCardId

/-- `Math.abs(Number(incoming.amount) - Number(candidate.amount))`. -/
def amountDifference : Option ℚ :=
  match incoming.amount, candidate.amount with
  | some x, some y => some |x - y|
  | _, _ => none

/-- The distance of two times, if both are known. -/
def timeApart (x y : Option ℤ) : Option ℤ :=
  match x, y with
  | some x, some y => some |x - y|
  | _, _ => none

/-- `Math.round(ms / 60000)`. -/
def minutes (ms : ℤ) : ℤ := (ms + 30000) / 60000

/-- `AMOUNT_TOLERANCE_INR`. -/
def amountTolerance : ℚ := 5 / 1000

/-- `MAX_TIME_DISTANCE_MS`. -/
def maxTimeDistance : ℤ := 10 * 60 * 1000

/-- `MAX_SMS_NOTIFICATION_DISTANCE_MS`. -/
def maxSmsNotificationDistance : ℤ := 15 * 60 * 1000

/-- `REVIEW_THRESHOLD`. -/
def reviewThreshold : ℕ := 720

variable (u : UnicodeText)

/-- The match of two alerts about one swipe. -/
def smsMatch (amountDifference : ℚ) : Option DuplicateMatch :=
  match timeApart incoming.observedAt candidate.observedAt with
  | none => none
  | some apart =>
    if maxSmsNotificationDistance < apart ∨ 5 / 1000 ≤ amountDifference ∨
        compareMerchants u incoming.merchantName candidate.merchantName ≠ some .exact ∨
        ¬ bothCards incoming candidate ∨ incoming.userCardId ≠ candidate.userCardId then none
    else
      some
        { score := 998
          automatic := true
          amountDifference := 0
          timeDifferenceMinutes := minutes apart
          merchantMatch := .exact
          sourceFamilies := (candidate.family, incoming.family)
          reason := js "same SMS card, amount and merchant within 15 minutes of notification delivery" }

/-- The score of evidence that is not exact. -/
def fuzzyScore (amountDifference : ℚ) (apart : ℤ) (merchants : MerchantMatch) : ℕ :=
  let score := (if amountDifference < 5 / 1000 then 240 else 200) + merchants.score
  let score :=
    if bothCards incoming candidate then score + 200
    else if truthy incoming.userCardId || truthy candidate.userCardId then score + 50
    else score
  let score :=
    if apart ≤ 10 * 60 * 1000 then score + 250
    else if apart ≤ 2 * 60 * 60 * 1000 then score + 200
    else if apart ≤ 24 * 60 * 60 * 1000 then score + 120
    else score + 80
  let score := if incoming.family ≠ candidate.family then score + 50 else score
  min 999 score

/-- The match of evidence that is not exact. -/
def fuzzyMatch (amountDifference : ℚ) (apart : ℤ) (merchants : MerchantMatch) : Option DuplicateMatch :=
  let score := fuzzyScore incoming candidate amountDifference apart merchants
  if score < reviewThreshold then none
  else
    some
      { score
        automatic := false
        amountDifference := (⌊amountDifference * 100 + 1 / 2⌋ : ℚ) / 100
        timeDifferenceMinutes := minutes apart
        merchantMatch := merchants
        sourceFamilies := (candidate.family, incoming.family)
        reason := (js "; ").intercalate
          [js "exact amount", js "merchant " ++ merchants.text,
            if bothCards incoming candidate then js "same card" else js "card unavailable on one channel",
            js "within " ++ decimal (minutes apart).toNat ++ js " minutes",
            candidate.family ++ js "+" ++ incoming.family] }

/-- The match of rows by the times that they compare. -/
def timedMatch (amountDifference : ℚ) : Option DuplicateMatch :=
  match timeApart incoming.comparisonTime candidate.comparisonTime with
  | none => none
  | some apart =>
    let merchants := compareMerchants u incoming.merchantName candidate.merchantName
    if maxTimeDistance < apart ∧ ¬ sameReference incoming candidate then none
    else if sameReference incoming candidate then
      if 5 / 1000 ≤ amountDifference then none
      else
        some
          { score := 999
            automatic := true
            amountDifference := 0
            timeDifferenceMinutes := minutes apart
            merchantMatch := merchants.getD .different
            sourceFamilies := (candidate.family, incoming.family)
            reason := js "same bank reference and exact amount; no conflicting account" }
    else
      match merchants with
      | none => none
      | some merchants => fuzzyMatch incoming candidate amountDifference apart merchants

/-- `evaluateDuplicate(incoming, candidate)`. -/
def evaluateDuplicate : Option DuplicateMatch :=
  if contradicts incoming candidate then none
  else
    match amountDifference incoming candidate with
    | none => none
    | some difference =>
      if amountTolerance < difference then none
      else if sameSmsFamily incoming candidate ∧ ¬ sameReference incoming candidate then
        smsMatch incoming candidate u difference
      else timedMatch incoming candidate u difference

end Evidence

/-! ### Selection -/

/-- A candidate that matches. -/
structure RankedMatch where
  candidate : DedupRow
  match_ : DuplicateMatch
  deriving DecidableEq

/-- The comparator of `bestDuplicate` keeps two items in their order. -/
def RankedMatch.Precedes (left right : RankedMatch) : Prop :=
  right.match_.score < left.match_.score ∨ right.match_.score = left.match_.score ∧
    left.match_.timeDifferenceMinutes ≤ right.match_.timeDifferenceMinutes

instance : DecidableRel RankedMatch.Precedes := fun _ _ => inferInstanceAs (Decidable (_ ∨ _))

/-- The candidates that match. -/
def matchesOf (u : UnicodeText) (incoming : DedupRow) (candidates : List DedupRow) : List RankedMatch :=
  candidates.filterMap fun candidate => (evaluateDuplicate incoming candidate u).map (⟨candidate, ·⟩)

/-- `bestDuplicate(incoming, candidates)`. -/
def bestDuplicate (u : UnicodeText) (incoming : DedupRow) (candidates : List DedupRow) : Option RankedMatch :=
  let ranked := (matchesOf u incoming candidates).insertionSort RankedMatch.Precedes
  ranked.head?.map fun selected =>
    if selected.match_.automatic ∧ 1 < (ranked.filter (·.match_.automatic)).length then
      { selected with
        match_ :=
          { selected.match_ with
            automatic := false
            reason := selected.match_.reason ++ js "; multiple possible transactions" } }
    else selected

/-! ### Either row may come first -/

section Comm

variable (a b : DedupRow) (u : UnicodeText)

theorem conflicting_comm (x y : Option JsString) : conflicting x y = conflicting y x := by
  rw [conflicting, conflicting, Bool.and_comm (truthy x), decide_eq_decide.mpr ne_comm]

theorem sameReference_comm : sameReference a b = sameReference b a := by
  rw [sameReference, sameReference]
  by_cases h : a.reference = b.reference
  · rw [h]
  · rw [decide_eq_false h, decide_eq_false (Ne.symm h), Bool.and_false, Bool.and_false]

theorem sameSmsFamily_comm : sameSmsFamily a b = sameSmsFamily b a := Bool.and_comm _ _

theorem bothCards_comm : bothCards a b = bothCards b a := Bool.and_comm _ _

theorem contradicts_comm : contradicts a b = contradicts b a := by
  have hinstrument : (decide (a.instrumentKind ≠ b.instrumentKind) && decide (a.instrumentKind ≠ js "other") &&
        decide (b.instrumentKind ≠ js "other")) =
      (decide (b.instrumentKind ≠ a.instrumentKind) && decide (b.instrumentKind ≠ js "other") &&
        decide (a.instrumentKind ≠ js "other")) := by
    rw [decide_eq_decide.mpr ne_comm, Bool.and_right_comm]
  rw [contradicts, contradicts, sameReference_comm, sameSmsFamily_comm, conflicting_comm a.reference,
    conflicting_comm a.userCardId, conflicting_comm a.accountLast4, hinstrument]
  by_cases hkind : a.kind = b.kind
  · by_cases hfamily : a.family = b.family
    · rw [hkind, hfamily]
    · rw [hkind, decide_eq_false hfamily, decide_eq_false (Ne.symm hfamily)]
      simp only [Bool.false_and]
  · rw [decide_eq_true hkind, decide_eq_true (Ne.symm hkind)]
    simp only [Bool.true_or]

theorem amountDifference_comm : amountDifference a b = amountDifference b a := by
  rw [amountDifference, amountDifference]
  cases a.amount <;> cases b.amount <;> first | rfl | exact congrArg some (abs_sub_comm _ _)

theorem timeApart_comm (x y : Option ℤ) : timeApart x y = timeApart y x := by
  cases x <;> cases y <;> first | rfl | exact congrArg some (abs_sub_comm _ _)

theorem compareNames_comm (x y : JsString) : compareNames x y = compareNames y x := by
  rw [compareNames, compareNames]
  refine if_congr ?_ rfl (if_congr eq_comm rfl (if_congr ?_ rfl rfl))
  · constructor <;> rintro (h | h | h | h) <;> simp only [h, true_or, or_true]
  · rw [min_comm, or_comm]

theorem compareMerchants_comm (x y : Option JsString) : compareMerchants u x y = compareMerchants u y x :=
  compareNames_comm _ _

/-- What a match says: its score, and whether it is automatic. -/
def DuplicateMatch.verdict (m : DuplicateMatch) : ℕ × Bool := (m.score, m.automatic)

theorem smsMatch_comm (d : ℚ) :
    (smsMatch a b u d).map DuplicateMatch.verdict = (smsMatch b a u d).map DuplicateMatch.verdict := by
  rw [smsMatch, smsMatch, timeApart_comm, compareMerchants_comm, bothCards_comm]
  cases timeApart b.observedAt a.observedAt with
  | none => rfl
  | some apart =>
    have hcard : (a.userCardId ≠ b.userCardId) = (b.userCardId ≠ a.userCardId) := propext ne_comm
    simp only [hcard]
    split_ifs <;> rfl

theorem fuzzyScore_comm (d : ℚ) (apart : ℤ) (merchants : MerchantMatch) :
    fuzzyScore a b d apart merchants = fuzzyScore b a d apart merchants := by
  have hfamily : (a.family ≠ b.family) = (b.family ≠ a.family) := propext ne_comm
  simp only [fuzzyScore, bothCards_comm a b, Bool.or_comm (truthy a.userCardId), hfamily]

theorem fuzzyMatch_comm (d : ℚ) (apart : ℤ) (merchants : MerchantMatch) :
    (fuzzyMatch a b d apart merchants).map DuplicateMatch.verdict =
      (fuzzyMatch b a d apart merchants).map DuplicateMatch.verdict := by
  rw [fuzzyMatch, fuzzyMatch, fuzzyScore_comm]
  split_ifs <;> rfl

theorem timedMatch_comm (d : ℚ) :
    (timedMatch a b u d).map DuplicateMatch.verdict = (timedMatch b a u d).map DuplicateMatch.verdict := by
  rw [timedMatch, timedMatch, timeApart_comm, compareMerchants_comm, sameReference_comm]
  cases timeApart b.comparisonTime a.comparisonTime with
  | none => rfl
  | some apart =>
    dsimp only
    split_ifs
    · rfl
    · rfl
    · rfl
    · cases compareMerchants u b.merchantName a.merchantName with
      | none => rfl
      | some merchants => exact fuzzyMatch_comm a b d apart merchants

/-- **Either row may come first.** -/
theorem evaluateDuplicate_comm :
    (evaluateDuplicate a b u).map DuplicateMatch.verdict = (evaluateDuplicate b a u).map DuplicateMatch.verdict := by
  rw [evaluateDuplicate, evaluateDuplicate, contradicts_comm, amountDifference_comm, sameSmsFamily_comm,
    sameReference_comm]
  by_cases hcontradicts : contradicts b a = true
  · rw [if_pos hcontradicts, if_pos hcontradicts]
  · rw [if_neg hcontradicts, if_neg hcontradicts]
    cases amountDifference b a with
    | none => rfl
    | some d =>
      dsimp only
      split_ifs
      · rfl
      · exact smsMatch_comm a b u d
      · exact timedMatch_comm a b u d

end Comm

/-! ### Evidence -/

section Verdicts

variable (incoming candidate : DedupRow) (u : UnicodeText)

/-- The minutes between the times that two rows compare. -/
def minutesApart : ℤ := minutes ((timeApart incoming.comparisonTime candidate.comparisonTime).getD 0)

/-- One bank reference and one amount. -/
structure HasReferenceEvidence : Prop where
  compatible : contradicts incoming candidate = false
  reference : sameReference incoming candidate = true
  amount : ∃ d, amountDifference incoming candidate = some d ∧ d < 5 / 1000
  times : ∃ apart, timeApart incoming.comparisonTime candidate.comparisonTime = some apart

/-- One card, amount and merchant, in messages delivered shortly after each other. -/
structure HasSmsEvidence : Prop where
  compatible : contradicts incoming candidate = false
  reference : sameReference incoming candidate = false
  sms : sameSmsFamily incoming candidate = true
  amount : ∃ d, amountDifference incoming candidate = some d ∧ d < 5 / 1000
  times : ∃ apart, timeApart incoming.observedAt candidate.observedAt = some apart ∧ apart ≤ maxSmsNotificationDistance
  merchant : compareMerchants u incoming.merchantName candidate.merchantName = some .exact
  cards : bothCards incoming candidate = true ∧ incoming.userCardId = candidate.userCardId

/-- Other evidence whose score reaches the cap: both cards are known, and the merchants are the same, or one contains
the other and the sources are independent. -/
structure HasCappedEvidence : Prop where
  compatible : contradicts incoming candidate = false
  reference : sameReference incoming candidate = false
  sms : sameSmsFamily incoming candidate = false
  amount : ∃ d, amountDifference incoming candidate = some d ∧ d ≤ amountTolerance
  times : ∃ apart, timeApart incoming.comparisonTime candidate.comparisonTime = some apart ∧ apart ≤ maxTimeDistance
  cards : bothCards incoming candidate = true
  merchant : compareMerchants u incoming.merchantName candidate.merchantName = some .exact ∨
    compareMerchants u incoming.merchantName candidate.merchantName = some .contained ∧
      incoming.family ≠ candidate.family

variable {incoming candidate u}

/-- The score within the time that other evidence has. -/
theorem fuzzyScore_eq {d : ℚ} {apart : ℤ} (hapart : apart ≤ maxTimeDistance) (merchants : MerchantMatch) :
    fuzzyScore incoming candidate d apart merchants = min 999
      ((if d < 5 / 1000 then 240 else 200) + merchants.score +
        (if bothCards incoming candidate then 200
          else if truthy incoming.userCardId || truthy candidate.userCardId then 50 else 0) + 250 +
        if incoming.family ≠ candidate.family then 50 else 0) := by
  have htime : apart ≤ 10 * 60 * 1000 := hapart
  rw [fuzzyScore]
  simp only [if_pos htime]
  split_ifs <;> rfl

/-- The cap is reached by both cards with the same merchant, or with a contained one from another source. -/
theorem fuzzyScore_of_capped {d : ℚ} {apart : ℤ} {merchants : MerchantMatch} (hapart : apart ≤ maxTimeDistance)
    (hcards : bothCards incoming candidate = true)
    (hmerchants : merchants = .exact ∨ merchants = .contained ∧ incoming.family ≠ candidate.family) :
    fuzzyScore incoming candidate d apart merchants = 999 := by
  rw [fuzzyScore_eq hapart, if_pos hcards]
  rcases hmerchants with rfl | ⟨rfl, hfamily⟩
  · simp only [MerchantMatch.score]
    split_ifs <;> rfl
  · rw [if_pos hfamily]
    simp only [MerchantMatch.score]
    split_ifs <;> rfl

theorem fuzzyScore_le {d : ℚ} {apart : ℤ} {merchants : MerchantMatch} (hapart : apart ≤ maxTimeDistance)
    (hdifferent : merchants ≠ .different)
    (h : ¬ (bothCards incoming candidate = true ∧
      (merchants = .exact ∨ merchants = .contained ∧ incoming.family ≠ candidate.family))) :
    fuzzyScore incoming candidate d apart merchants ≤ 990 := by
  rw [fuzzyScore_eq hapart]
  refine (min_le_right _ _).trans ?_
  cases merchants with
  | missing =>
    simp only [MerchantMatch.score]
    split_ifs <;> norm_num
  | exact =>
    have hcards : ¬ bothCards incoming candidate = true := fun hcards => h ⟨hcards, .inl rfl⟩
    rw [if_neg hcards]
    simp only [MerchantMatch.score]
    split_ifs <;> norm_num
  | contained =>
    simp only [MerchantMatch.score]
    by_cases hcards : bothCards incoming candidate = true
    · have hfamily : ¬ incoming.family ≠ candidate.family := fun hfamily => h ⟨hcards, .inr ⟨rfl, hfamily⟩⟩
      rw [if_neg hfamily]
      split_ifs <;> norm_num
    · rw [if_neg hcards]
      split_ifs <;> norm_num
  | different => exact absurd rfl hdifferent

theorem compareMerchants_ne_different {x y : Option JsString} {merchants : MerchantMatch}
    (h : compareMerchants u x y = some merchants) : merchants ≠ .different := by
  rw [compareMerchants, compareNames] at h
  split_ifs at h <;> obtain rfl := Option.some.inj h <;> decide

/-- A bank reference matches automatically. -/
theorem evaluateDuplicate_of_reference (h : HasReferenceEvidence incoming candidate) :
    ∃ m, evaluateDuplicate incoming candidate u = some m ∧ m.score = 999 ∧ m.automatic = true ∧
      m.timeDifferenceMinutes = minutesApart incoming candidate := by
  obtain ⟨d, hd, hlt⟩ := h.amount
  obtain ⟨apart, hapart⟩ := h.times
  rw [evaluateDuplicate, if_neg (by rw [h.compatible]; exact Bool.false_ne_true), hd]
  dsimp only
  rw [if_neg (show ¬ amountTolerance < d from not_lt.mpr (le_of_lt hlt)), if_neg (fun hsms => hsms.2 h.reference),
    timedMatch, hapart]
  dsimp only
  rw [if_neg (fun hfar => hfar.2 h.reference), if_pos h.reference, if_neg (not_le.mpr hlt)]
  refine ⟨_, rfl, rfl, rfl, ?_⟩
  rw [minutesApart, hapart]
  rfl

/-- Two alerts about one swipe match automatically. -/
theorem evaluateDuplicate_of_sms (h : HasSmsEvidence incoming candidate u) :
    ∃ m, evaluateDuplicate incoming candidate u = some m ∧ m.score = 998 ∧ m.automatic = true := by
  obtain ⟨d, hd, hlt⟩ := h.amount
  obtain ⟨apart, hapart, hnear⟩ := h.times
  have hreference : ¬ sameReference incoming candidate = true := by
    rw [h.reference]
    exact Bool.false_ne_true
  rw [evaluateDuplicate, if_neg (by rw [h.compatible]; exact Bool.false_ne_true), hd]
  dsimp only
  rw [if_neg (show ¬ amountTolerance < d from not_lt.mpr (le_of_lt hlt)), if_pos ⟨h.sms, hreference⟩, smsMatch,
    hapart]
  dsimp only
  rw [if_neg]
  · exact ⟨_, rfl, rfl, rfl⟩
  · rintro (hfar | hamount | hmerchant | hcards | hcard)
    · exact absurd hnear (not_le.mpr hfar)
    · exact absurd hlt (not_lt.mpr hamount)
    · exact hmerchant h.merchant
    · exact hcards h.cards.1
    · exact hcard h.cards.2

/-- Capped evidence matches with the score of a bank reference. -/
theorem evaluateDuplicate_of_capped (h : HasCappedEvidence incoming candidate u) :
    ∃ m, evaluateDuplicate incoming candidate u = some m ∧ m.score = 999 ∧ m.automatic = false ∧
      m.timeDifferenceMinutes = minutesApart incoming candidate := by
  obtain ⟨d, hd, hle⟩ := h.amount
  obtain ⟨apart, hapart, hnear⟩ := h.times
  obtain ⟨merchants, hmerchants, hkind⟩ : ∃ merchants,
      compareMerchants u incoming.merchantName candidate.merchantName = some merchants ∧
        (merchants = .exact ∨ merchants = .contained ∧ incoming.family ≠ candidate.family) := by
    rcases h.merchant with hexact | ⟨hcontained, hfamily⟩
    · exact ⟨.exact, hexact, .inl rfl⟩
    · exact ⟨.contained, hcontained, .inr ⟨rfl, hfamily⟩⟩
  have hscore := fuzzyScore_of_capped (d := d) hnear h.cards hkind
  rw [evaluateDuplicate, if_neg (by rw [h.compatible]; exact Bool.false_ne_true), hd]
  dsimp only
  rw [if_neg (not_lt.mpr hle), if_neg (fun hsms => absurd (h.sms.symm.trans hsms.1) Bool.false_ne_true), timedMatch,
    hapart]
  dsimp only
  rw [if_neg (fun hfar => absurd hnear (not_le.mpr hfar.1)),
    if_neg (by rw [h.reference]; exact Bool.false_ne_true), hmerchants]
  dsimp only
  rw [fuzzyMatch, hscore, if_neg (by decide)]
  refine ⟨_, rfl, rfl, rfl, ?_⟩
  rw [minutesApart, hapart]
  rfl

/-- A match has one of the three kinds of evidence, or a lower score. -/
theorem evaluateDuplicate_cases {m : DuplicateMatch} (h : evaluateDuplicate incoming candidate u = some m) :
    HasReferenceEvidence incoming candidate ∨ HasSmsEvidence incoming candidate u ∨
      HasCappedEvidence incoming candidate u ∨ m.automatic = false ∧ m.score ≤ 990 := by
  have hcompatible : contradicts incoming candidate = false := by
    by_contra htrue
    rw [evaluateDuplicate, if_pos (Bool.eq_true_of_not_eq_false htrue)] at h
    cases h
  rw [evaluateDuplicate, if_neg (by rw [hcompatible]; exact Bool.false_ne_true)] at h
  cases hd : amountDifference incoming candidate with
  | none =>
    rw [hd] at h
    cases h
  | some d =>
    rw [hd] at h
    dsimp only at h
    split_ifs at h with htolerance hsms
    · rw [smsMatch] at h
      cases hapart : timeApart incoming.observedAt candidate.observedAt with
      | none =>
        rw [hapart] at h
        cases h
      | some apart =>
        rw [hapart] at h
        dsimp only at h
        split_ifs at h with hall
        push Not at hall
        obtain ⟨hnear, hamount, hmerchant, hcards, hcard⟩ := hall
        exact .inr (.inl ⟨hcompatible, eq_false_of_ne_true hsms.2, hsms.1, ⟨d, hd, hamount⟩, ⟨apart, hapart, hnear⟩,
          hmerchant, hcards, hcard⟩)
    · rw [timedMatch] at h
      cases hapart : timeApart incoming.comparisonTime candidate.comparisonTime with
      | none =>
        rw [hapart] at h
        cases h
      | some apart =>
        rw [hapart] at h
        dsimp only at h
        split_ifs at h with hfar hreference hamount
        · exact .inl ⟨hcompatible, hreference, ⟨d, hd, not_le.mp hamount⟩, apart, hapart⟩
        · cases hmerchants : compareMerchants u incoming.merchantName candidate.merchantName with
          | none =>
            rw [hmerchants] at h
            cases h
          | some merchants =>
            rw [hmerchants] at h
            dsimp only at h
            have hnear : apart ≤ maxTimeDistance := not_lt.mp fun hlt => hfar ⟨hlt, hreference⟩
            by_cases hcapped : bothCards incoming candidate = true ∧
                (merchants = .exact ∨ merchants = .contained ∧ incoming.family ≠ candidate.family)
            · refine .inr (.inr (.inl ⟨hcompatible, eq_false_of_ne_true hreference, ?_, ⟨d, hd, not_lt.mp htolerance⟩,
                ⟨apart, hapart, hnear⟩, hcapped.1, ?_⟩))
              · exact eq_false_of_ne_true fun htrue => hsms ⟨htrue, hreference⟩
              · rw [hmerchants]
                rcases hcapped.2 with rfl | ⟨rfl, hfamily⟩
                · exact .inl rfl
                · exact .inr ⟨rfl, hfamily⟩
            · refine .inr (.inr (.inr ?_))
              have hle := fuzzyScore_le (d := d) hnear (compareMerchants_ne_different hmerchants) hcapped
              have hscore : ¬ fuzzyScore incoming candidate d apart merchants < reviewThreshold := by
                intro hlt
                rw [fuzzyMatch, if_pos hlt] at h
                cases h
              rw [fuzzyMatch, if_neg hscore] at h
              obtain rfl := Option.some.inj h
              exact ⟨rfl, hle⟩

/-- The evidence that matches automatically. -/
def HasExactEvidence (incoming candidate : DedupRow) (u : UnicodeText) : Prop :=
  HasReferenceEvidence incoming candidate ∨ HasSmsEvidence incoming candidate u

/-- A candidate matches automatically. -/
def MatchesAutomatically (incoming candidate : DedupRow) (u : UnicodeText) : Prop :=
  ∃ m, evaluateDuplicate incoming candidate u = some m ∧ m.automatic = true

theorem matchesAutomatically_iff : MatchesAutomatically incoming candidate u ↔ HasExactEvidence incoming candidate u := by
  constructor
  · rintro ⟨m, hm, hautomatic⟩
    rcases evaluateDuplicate_cases hm with h | h | h | h
    · exact .inl h
    · exact .inr h
    · obtain ⟨m', hm', -, hfalse, -⟩ := evaluateDuplicate_of_capped h
      obtain rfl := Option.some.inj (hm.symm.trans hm')
      exact absurd (hautomatic.symm.trans hfalse) Bool.false_ne_true.symm
    · exact absurd (hautomatic.symm.trans h.1) Bool.false_ne_true.symm
  · rintro (h | h)
    · obtain ⟨m, hm, -, hautomatic, -⟩ := evaluateDuplicate_of_reference (u := u) h
      exact ⟨m, hm, hautomatic⟩
    · obtain ⟨m, hm, -, hautomatic⟩ := evaluateDuplicate_of_sms h
      exact ⟨m, hm, hautomatic⟩

end Verdicts

/-! ### The one automatic match -/

section Selection

variable {u : UnicodeText} {incoming : DedupRow} {candidates before after : List DedupRow} {a : DedupRow}

/-- The only candidate that matches automatically, among others. -/
def OnlyAutomatic (u : UnicodeText) (incoming : DedupRow) (before : List DedupRow) (a : DedupRow)
    (after : List DedupRow) : Prop :=
  MatchesAutomatically incoming a u ∧ ∀ c ∈ before ++ after, ¬ MatchesAutomatically incoming c u

/-- What a detection of duplicates should do: either row may come first, a match stays automatic only if it is the
only automatic one, and the only automatic one is selected. -/
structure PicksExact (u : UnicodeText) (incoming : DedupRow) (candidates : List DedupRow) : Prop where
  symmetric : ∀ b c, (evaluateDuplicate b c u).map DuplicateMatch.verdict =
    (evaluateDuplicate c b u).map DuplicateMatch.verdict
  only : ∀ s, bestDuplicate u incoming candidates = some s → s.match_.automatic = true →
    ∃ before a after, candidates = before ++ a :: after ∧ OnlyAutomatic u incoming before a after
  selected : ∀ before a after, candidates = before ++ a :: after → OnlyAutomatic u incoming before a after →
    (bestDuplicate u incoming candidates).map (·.candidate) = some a

/-- No capped evidence comes before the only exact evidence: it is that of a bank reference, and closer in time, or
as close and earlier in the list. -/
def ExactComesFirst (u : UnicodeText) (incoming : DedupRow) (candidates : List DedupRow) : Prop :=
  ∀ before a after, candidates = before ++ a :: after → HasExactEvidence incoming a u →
    (∀ c ∈ before ++ after, ¬ HasExactEvidence incoming c u) →
    (∀ f ∈ before, HasCappedEvidence incoming f u →
      HasReferenceEvidence incoming a ∧ minutesApart incoming a < minutesApart incoming f) ∧
    ∀ f ∈ after, HasCappedEvidence incoming f u →
      HasReferenceEvidence incoming a ∧ minutesApart incoming a ≤ minutesApart incoming f

theorem mem_matchesOf {item : RankedMatch} : item ∈ matchesOf u incoming candidates ↔
    item.candidate ∈ candidates ∧ evaluateDuplicate incoming item.candidate u = some item.match_ := by
  rw [matchesOf, List.mem_filterMap]
  constructor
  · rintro ⟨c, hc, hmap⟩
    obtain ⟨m, hm, rfl⟩ := Option.map_eq_some_iff.mp hmap
    exact ⟨hc, hm⟩
  · rintro ⟨hc, hm⟩
    exact ⟨item.candidate, hc, by rw [hm]; rfl⟩

variable (before after) in
theorem matchesOf_split {m : DuplicateMatch} (hm : evaluateDuplicate incoming a u = some m) :
    matchesOf u incoming (before ++ a :: after) =
      matchesOf u incoming before ++ ⟨a, m⟩ :: matchesOf u incoming after := by
  rw [matchesOf, List.filterMap_append, List.filterMap_cons_some (by rw [hm]; rfl)]
  rfl

theorem RankedMatch.precedes_total (x y : RankedMatch) : x.Precedes y ∨ y.Precedes x := by
  rw [RankedMatch.Precedes, RankedMatch.Precedes]
  omega

theorem RankedMatch.precedes_trans (x y z : RankedMatch) (hxy : x.Precedes y) (hyz : y.Precedes z) : x.Precedes z := by
  rw [RankedMatch.Precedes] at hxy hyz ⊢
  omega

/-- What is selected comes before what stood before it, and ties with what stood behind it are in its favour. -/
theorem exists_of_bestDuplicate {s : RankedMatch} (h : bestDuplicate u incoming candidates = some s) :
    ∃ item, s.candidate = item.candidate ∧
      (s.match_.automatic = true → item.match_.automatic = true ∧
        ((matchesOf u incoming candidates).filter (·.match_.automatic)).length ≤ 1) ∧
      ∃ l r, matchesOf u incoming candidates = l ++ item :: r ∧ (∀ x ∈ l, ¬ x.Precedes item) ∧
        ∀ x ∈ r, item.Precedes x := by
  obtain ⟨item, hitem, hs⟩ := Option.map_eq_some_iff.mp h
  have hcount : (((matchesOf u incoming candidates).insertionSort RankedMatch.Precedes).filter
      (·.match_.automatic)).length = ((matchesOf u incoming candidates).filter (·.match_.automatic)).length :=
    ((List.perm_insertionSort _ _).filter _).length_eq
  rw [hcount] at hs
  refine ⟨item, ?_, fun hautomatic => ?_,
    exists_split_of_head?_insertionSort RankedMatch.precedes_total RankedMatch.precedes_trans hitem⟩
  · split_ifs at hs <;> rw [← hs]
  · split_ifs at hs with hseveral
    · rw [← hs] at hautomatic
      exact absurd hautomatic Bool.false_ne_true
    · rw [← hs] at hautomatic
      exact ⟨hautomatic, not_lt.mp fun hlt => hseveral ⟨hautomatic, hlt⟩⟩

variable (u incoming candidates) in
theorem bestDuplicate_isSome (h : matchesOf u incoming candidates ≠ []) :
    ∃ s, bestDuplicate u incoming candidates = some s := by
  cases hsort : (matchesOf u incoming candidates).insertionSort RankedMatch.Precedes with
  | nil =>
    have hlength := List.length_insertionSort RankedMatch.Precedes (matchesOf u incoming candidates)
    rw [hsort, List.length_nil] at hlength
    exact absurd (List.length_eq_zero_iff.mp hlength.symm) h
  | cons item items =>
    rw [bestDuplicate, hsort]
    exact ⟨_, rfl⟩

/-- A match stays automatic only if it is the only automatic one. -/
theorem onlyAutomatic_of_bestDuplicate {s : RankedMatch} (h : bestDuplicate u incoming candidates = some s)
    (hautomatic : s.match_.automatic = true) :
    ∃ before a after, candidates = before ++ a :: after ∧ OnlyAutomatic u incoming before a after := by
  obtain ⟨item, -, hcount, l, r, hsplit, -⟩ := exists_of_bestDuplicate h
  obtain ⟨hitem, hone⟩ := hcount hautomatic
  obtain ⟨hmem, hmatch⟩ := mem_matchesOf.mp (hsplit ▸ List.mem_append_right l List.mem_cons_self)
  obtain ⟨before, after, rfl⟩ := List.append_of_mem hmem
  refine ⟨before, item.candidate, after, rfl, ⟨item.match_, hmatch, hitem⟩, ?_⟩
  have hfilter : ((⟨item.candidate, item.match_⟩ : RankedMatch) :: matchesOf u incoming after).filter
      (·.match_.automatic) = item :: (matchesOf u incoming after).filter (·.match_.automatic) :=
    List.filter_cons_of_pos hitem
  rw [matchesOf_split _ _ hmatch, List.filter_append, hfilter, List.length_append, List.length_cons] at hone
  rintro c hc ⟨m, hm, hm'⟩
  have hnone : ∀ l : List DedupRow, ((matchesOf u incoming l).filter (·.match_.automatic)).length = 0 → c ∉ l := by
    intro l hl hcl
    have hin : (⟨c, m⟩ : RankedMatch) ∈ (matchesOf u incoming l).filter (·.match_.automatic) :=
      List.mem_filter.mpr ⟨mem_matchesOf.mpr ⟨hcl, hm⟩, hm'⟩
    rw [List.length_eq_zero_iff.mp hl] at hin
    exact List.not_mem_nil hin
  rcases List.mem_append.mp hc with hc | hc
  · exact hnone before (by omega) hc
  · exact hnone after (by omega) hc

/-- Two ways to split a list: at one place, or one before the other. -/
theorem split_cases {α : Type*} {l₁ l₂ r₁ r₂ : List α} {x y : α} (h : l₁ ++ x :: r₁ = l₂ ++ y :: r₂) :
    x = y ∨ (y ∈ l₁ ∧ x ∈ r₂) ∨ (y ∈ r₁ ∧ x ∈ l₂) := by
  induction l₁ generalizing l₂ with
  | nil =>
    cases l₂ with
    | nil => exact .inl (List.cons.inj h).1
    | cons z l₂ =>
      obtain ⟨rfl, rfl⟩ := List.cons.inj h
      exact .inr (.inr ⟨List.mem_append_right l₂ List.mem_cons_self, List.mem_cons_self⟩)
  | cons z l₁ ih =>
    cases l₂ with
    | nil =>
      obtain ⟨rfl, rfl⟩ := List.cons.inj h
      exact .inr (.inl ⟨List.mem_cons_self, List.mem_append_right l₁ List.mem_cons_self⟩)
    | cons z' l₂ =>
      rcases ih (List.cons.inj h).2 with h | ⟨hy, hx⟩ | ⟨hy, hx⟩
      · exact .inl h
      · exact .inr (.inl ⟨List.mem_cons_of_mem z hy, hx⟩)
      · exact .inr (.inr ⟨hy, List.mem_cons_of_mem z' hx⟩)

/-- An item that is not automatic comes after exact evidence, unless it reaches the cap. -/
theorem score_lt_of_not_capped {m n : DuplicateMatch} {f : DedupRow} (ha : HasExactEvidence incoming a u)
    (hm : evaluateDuplicate incoming a u = some m) (hf : ¬ HasExactEvidence incoming f u)
    (hn : evaluateDuplicate incoming f u = some n) (hcapped : ¬ HasCappedEvidence incoming f u) :
    n.score < m.score := by
  have hlow : n.score ≤ 990 := by
    rcases evaluateDuplicate_cases hn with h | h | h | h
    · exact absurd (.inl h) hf
    · exact absurd (.inr h) hf
    · exact absurd h hcapped
    · exact h.2
  have hhigh : 998 ≤ m.score := by
    rcases ha with h | h
    · obtain ⟨m', hm', hscore, -⟩ := evaluateDuplicate_of_reference (u := u) h
      rw [Option.some.inj (hm.symm.trans hm'), hscore]
      norm_num
    · obtain ⟨m', hm', hscore, -⟩ := evaluateDuplicate_of_sms h
      rw [Option.some.inj (hm.symm.trans hm'), hscore]
  omega

/-- Where exact evidence comes first, what has it is selected. -/
theorem selected_of_exactComesFirst (hfirst : ExactComesFirst u incoming (before ++ a :: after))
    (honly : OnlyAutomatic u incoming before a after) :
    (bestDuplicate u incoming (before ++ a :: after)).map (·.candidate) = some a := by
  have hexact := matchesAutomatically_iff.mp honly.1
  have hothers : ∀ c ∈ before ++ after, ¬ HasExactEvidence incoming c u := fun c hc h =>
    honly.2 c hc (matchesAutomatically_iff.mpr h)
  obtain ⟨hbefore, hafter⟩ := hfirst before a after rfl hexact hothers
  obtain ⟨m, hm, -⟩ := honly.1
  have hmatches := matchesOf_split before after hm
  obtain ⟨s, hs⟩ := bestDuplicate_isSome u incoming (before ++ a :: after)
    (by rw [hmatches]; exact List.append_ne_nil_of_right_ne_nil _ (List.cons_ne_nil _ _))
  obtain ⟨item, hcandidate, -, l, r, hsplit, hl, hr⟩ := exists_of_bestDuplicate hs
  rw [hs, Option.map_some, hcandidate]
  rcases split_cases (hmatches.symm.trans hsplit) with heq | ⟨hin, hlate⟩ | ⟨hin, hearly⟩
  · rw [← heq]
  · -- an item from before would have to come first
    obtain ⟨hmem, hn⟩ := mem_matchesOf.mp hin
    have hprecedes := hr _ hlate
    rw [RankedMatch.Precedes] at hprecedes
    dsimp only at hprecedes
    by_cases hcapped : HasCappedEvidence incoming item.candidate u
    · obtain ⟨hreference, hlt⟩ := hbefore _ hmem hcapped
      obtain ⟨m', hm', hscore, -, hminutes⟩ := evaluateDuplicate_of_reference (u := u) hreference
      obtain ⟨n', hn', hscore', -, hminutes'⟩ := evaluateDuplicate_of_capped hcapped
      obtain rfl := Option.some.inj (hm.symm.trans hm')
      rw [Option.some.inj (hn.symm.trans hn')] at hprecedes
      omega
    · have := score_lt_of_not_capped hexact hm (hothers _ (List.mem_append_left after hmem)) hn hcapped
      omega
  · -- nor does one from behind come before it
    obtain ⟨hmem, hn⟩ := mem_matchesOf.mp hin
    have hprecedes := hl _ hearly
    rw [RankedMatch.Precedes] at hprecedes
    dsimp only at hprecedes
    by_cases hcapped : HasCappedEvidence incoming item.candidate u
    · obtain ⟨hreference, hle⟩ := hafter _ hmem hcapped
      obtain ⟨m', hm', hscore, -, hminutes⟩ := evaluateDuplicate_of_reference (u := u) hreference
      obtain ⟨n', hn', hscore', -, hminutes'⟩ := evaluateDuplicate_of_capped hcapped
      obtain rfl := Option.some.inj (hm.symm.trans hm')
      rw [Option.some.inj (hn.symm.trans hn')] at hprecedes
      omega
    · have := score_lt_of_not_capped hexact hm (hothers _ (List.mem_append_right before hmem)) hn hcapped
      omega

/-- Where what has the only exact evidence is selected, it comes first. -/
theorem exactComesFirst_of_selected
    (hselected : ∀ before a after, candidates = before ++ a :: after → OnlyAutomatic u incoming before a after →
      (bestDuplicate u incoming candidates).map (·.candidate) = some a) : ExactComesFirst u incoming candidates := by
  rintro before a after rfl hexact hothers
  have hnot : ∀ c ∈ before ++ after, ¬ MatchesAutomatically incoming c u := fun c hc h =>
    hothers c hc (matchesAutomatically_iff.mp h)
  have honly : OnlyAutomatic u incoming before a after := ⟨matchesAutomatically_iff.mpr hexact, hnot⟩
  obtain ⟨m, hm, hautomatic⟩ := honly.1
  obtain ⟨s, hs, hsa⟩ := Option.map_eq_some_iff.mp (hselected before a after rfl honly)
  obtain ⟨item, hcandidate, -, l, r, hsplit, hl, hr⟩ := exists_of_bestDuplicate hs
  have hmatches := matchesOf_split before after hm
  have hitem : item = ⟨a, m⟩ := by
    have hmem : item ∈ matchesOf u incoming (before ++ a :: after) := hsplit ▸ List.mem_append_right l List.mem_cons_self
    have hitem := (mem_matchesOf.mp hmem).2
    have hca : item.candidate = a := hcandidate.symm.trans hsa
    rw [hca, hm] at hitem
    cases item with
    | mk c n =>
      rw [RankedMatch.mk.injEq]
      exact ⟨hca, (Option.some.inj hitem).symm⟩
  -- the automatic match is at one place only
  have hfresh : ∀ l : List DedupRow, (∀ c ∈ l, c ∈ before ++ after) → (⟨a, m⟩ : RankedMatch) ∉ matchesOf u incoming l :=
    fun l hsub hin => hnot a (hsub a (mem_matchesOf.mp hin).1) ⟨m, hm, hautomatic⟩
  rw [hmatches, hitem] at hsplit
  obtain ⟨rfl, -, rfl⟩ := (List.append_cons_inj_of_notMem
    (hfresh before fun c hc => List.mem_append_left after hc)
    (hfresh after fun c hc => List.mem_append_right before hc)).mp hsplit
  rw [hitem] at hl hr
  -- exact evidence that a capped match does not beat is that of a reference
  have hreference : ∀ n : DuplicateMatch, n.score = 999 → n.score ≤ m.score → HasReferenceEvidence incoming a := by
    intro n hscore hle
    refine hexact.resolve_right fun hsms => ?_
    obtain ⟨m', hm', hscore', -⟩ := evaluateDuplicate_of_sms hsms
    rw [Option.some.inj (hm.symm.trans hm'), hscore'] at hle
    omega
  refine ⟨fun f hf hcapped => ?_, fun f hf hcapped => ?_⟩
  · obtain ⟨n, hn, hscore, -, hminutes⟩ := evaluateDuplicate_of_capped hcapped
    have hprecedes := hl ⟨f, n⟩ (mem_matchesOf.mpr ⟨hf, hn⟩)
    rw [RankedMatch.Precedes] at hprecedes
    dsimp only at hprecedes
    have href := hreference n hscore (by omega)
    obtain ⟨m', hm', hscore', -, hminutes'⟩ := evaluateDuplicate_of_reference (u := u) href
    obtain rfl := Option.some.inj (hm.symm.trans hm')
    exact ⟨href, by omega⟩
  · obtain ⟨n, hn, hscore, -, hminutes⟩ := evaluateDuplicate_of_capped hcapped
    have hprecedes := hr ⟨f, n⟩ (mem_matchesOf.mpr ⟨hf, hn⟩)
    rw [RankedMatch.Precedes] at hprecedes
    dsimp only at hprecedes
    have href := hreference n hscore (by omega)
    obtain ⟨m', hm', hscore', -, hminutes'⟩ := evaluateDuplicate_of_reference (u := u) href
    obtain rfl := Option.some.inj (hm.symm.trans hm')
    exact ⟨href, by omega⟩

end Selection

/-- **Duplicate detection picks exact evidence exactly where it comes first.** -/
theorem duplicate_detection_iff (u : UnicodeText) (incoming : DedupRow) (candidates : List DedupRow) :
    PicksExact u incoming candidates ↔ ExactComesFirst u incoming candidates := by
  refine ⟨fun h => exactComesFirst_of_selected h.selected, fun hfirst => ?_⟩
  exact
    { symmetric := fun b c => evaluateDuplicate_comm b c u
      only := fun s hs hautomatic => onlyAutomatic_of_bestDuplicate hs hautomatic
      selected := by
        rintro before a after rfl honly
        exact selected_of_exactComesFirst hfirst honly }

/-! ### A capped score comes before a message -/

/-- A purchase as it is reported by a message. -/
def alert : DedupRow where
  source := some (js "sms")
  merchantName := some (js "swiggy")
  userCardId := some (js "card")
  amount := some 499
  occurred := some 0
  observedAt := some 60000

/-- The same message once more, a minute later. -/
def repeatedAlert : DedupRow := { alert with source := some (js "sms_bulk"), observedAt := some 120000 }

/-- A purchase of a statement, with the same card, amount and merchant. -/
def statementRow : DedupRow := { alert with source := some (js "statement"), observedAt := none }

/-- Letters in lower case stay as they are. -/
def plainText : UnicodeText where
  toLowerCase := id
  lettersAndNumbers := id

/-- The statement is selected, and not automatically, although the message matches automatically. -/
theorem duplicate_detection_fails :
    OnlyAutomatic plainText alert [] repeatedAlert [statementRow] ∧
      (bestDuplicate plainText alert [repeatedAlert, statementRow]).map (·.candidate) = some statementRow ∧
      ¬ PicksExact plainText alert [repeatedAlert, statementRow] := by
  have hstatement : ¬ MatchesAutomatically alert statementRow plainText := by
    rintro ⟨m, hm, hautomatic⟩
    have hfalse : (evaluateDuplicate alert statementRow plainText).map (·.automatic) = some false := by decide +kernel
    rw [hm, Option.map_some, hautomatic] at hfalse
    cases hfalse
  have hrepeated : MatchesAutomatically alert repeatedAlert plainText := by
    have htrue : (evaluateDuplicate alert repeatedAlert plainText).map (·.automatic) = some true := by decide +kernel
    obtain ⟨m, hm, hautomatic⟩ := Option.map_eq_some_iff.mp htrue
    exact ⟨m, hm, hautomatic⟩
  have honly : OnlyAutomatic plainText alert [] repeatedAlert [statementRow] :=
    ⟨hrepeated, fun c hc => by rw [List.mem_singleton.mp hc]; exact hstatement⟩
  have hselected : (bestDuplicate plainText alert [repeatedAlert, statementRow]).map (·.candidate) =
      some statementRow := by decide +kernel
  refine ⟨honly, hselected, fun h => ?_⟩
  have hother := h.selected [] repeatedAlert [statementRow] rfl honly
  rw [hselected] at hother
  exact absurd (Option.some.inj hother) (by decide)

end PandaPay.Transactions
