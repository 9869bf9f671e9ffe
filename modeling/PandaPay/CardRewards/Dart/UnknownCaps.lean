import PandaPay.CardRewards.Dart.Transaction
import PandaPay.Library.Best
import Mathlib.Data.Nat.Bitwise

/-!
# Caps whose consumption is not known

How the phone prices a transaction on a card with unknown caps: each of them is taken as it was read, or as
used up, and the state with the lowest value counts. Up to six caps, every state of this kind is tried;
beyond, those that differ from one of the extremes in one cap at most.

## Main definitions

* `CardSnapshot`, `consumedWith`: what is known of a card, and a state of its unknown caps
* `rewardWithUnknownCaps`: the result that counts

## Main results

* `consumedWith_apply`: what a state is, for caps with distinct ids
* `unknown_caps_corners`: the value is at most that of each state that is tried
* `not_unknown_caps_between`: a state between them may be worth less
-/

namespace PandaPay.CardRewards.Dart

/-! ### States -/

/-- What the engine reads of a `CardSnapshot`. -/
structure CardSnapshot where
  product : CardProduct
  capRemaining : JsString → Option ℤ := fun _ => none
  capConsumed : JsString → Option ℚ := fun _ => none
  unknownCapIds : List JsString := []

namespace CardSnapshot

variable (snapshot : CardSnapshot)

/-- `v2CapConsumed`. -/
def v2CapConsumed : InsertionMap JsString ℚ :=
  snapshot.product.capRules.foldl (fun out cap =>
    match snapshot.capConsumed cap.id, snapshot.capRemaining cap.id with
    | some direct, _ => out.set cap.id direct
    | none, some remaining => out.set cap.id (max 0 ((cap.capValue - remaining : ℤ) / 100))
    | none, none => out) .empty

/-- What is consumed of a cap as it was read. -/
def fresh (id : JsString) : ℚ := (snapshot.v2CapConsumed.get? id).getD 0

/-- The unknown caps, in catalogue order. -/
def unknown : List CapRule := snapshot.product.capRules.filter (·.id ∈ snapshot.unknownCapIds)

/-- `_kCapUsedUp`. -/
def capUsedUp : ℚ := 10 ^ 12

/-- `usedUpAt(i)`: the consumption that makes a cap used up. -/
def usedUpAt (cap : CapRule) : ℚ :=
  if cap.capAmount.getD capUsedUp < snapshot.fresh cap.id then snapshot.fresh cap.id
  else cap.capAmount.getD capUsedUp

/-- The consumption with some of the unknown caps used up. -/
def consumedWith (usedUp : ℕ → Bool) : JsString → ℚ :=
  snapshot.unknown.zipIdx.foldl (fun consumed entry =>
    if usedUp entry.2 then Function.update consumed entry.1.id (snapshot.usedUpAt entry.1) else consumed)
    snapshot.fresh

end CardSnapshot

/-- `mask & (1 << i) != 0`. -/
def usesUp (mask : BitVec 64) (i : ℕ) : Bool := mask &&& (1#64 <<< i) ≠ 0#64

/-- `_kMaxUnknownCapsExhaustive`. -/
def maxUnknownCapsExhaustive : ℕ := 6

/-- The masks that are tried for `k` unknown caps. -/
def masks (k : ℕ) : List (BitVec 64) :=
  if k ≤ maxUnknownCapsExhaustive then (List.range (1 <<< k)).map (BitVec.ofNat 64)
  else
    let all := (1#64 <<< k) - 1#64
    (0#64 :: all :: (List.range k).flatMap fun i =>
      [1#64 <<< i, all &&& ~~~(1#64 <<< i)]).reverse.dedup.reverse

/-- A lower value comes first; among equals, more caps used up. -/
def lower (a b : RewardEvaluation × ℕ) : Ordering := (cmp a.1.valueInr b.1.valueInr).then (cmp b.2 a.2)

section Reward

variable (host : Host) (snapshot : CardSnapshot) (context : RecommendationContext)
  (directory : Option MerchantDirectory)

/-- `evaluate(consumed)`. -/
def evaluate (consumed : JsString → ℚ) : RewardEvaluation :=
  computeRewardV2 host snapshot.product context consumed directory

/-- The results of the states that are tried, each with the number of caps that are used up. -/
def triedResults : List (RewardEvaluation × ℕ) :=
  let k := snapshot.unknown.length
  (masks k).map fun mask => (evaluate host snapshot context directory (snapshot.consumedWith (usesUp mask)),
    (List.range k).countP (usesUp mask))

/-- `_rewardWithUnknownCaps(snapshot, context)`. -/
def rewardWithUnknownCaps : RewardEvaluation :=
  if snapshot.unknown.isEmpty then evaluate host snapshot context directory snapshot.fresh
  else
    match best lower (triedResults host snapshot context directory) with
    | some (result, _) => result
    | none => evaluate host snapshot context directory snapshot.fresh

end Reward

/-! ### Masks -/

theorem usesUp_eq {mask : BitVec 64} {i : ℕ} (h : i < 64) : usesUp mask i = mask.getLsbD i := by
  unfold usesUp
  rw [← BitVec.twoPow_eq, BitVec.and_twoPow]
  cases hbit : mask.getLsbD i with
  | false => simp
  | true =>
    have hne : BitVec.twoPow 64 i ≠ 0#64 := fun hzero => by
      have hi := congrArg (fun x : BitVec 64 => x.getLsbD i) hzero
      simp [h] at hi
    simp [hne]

/-- `(1 << k) - 1`. -/
theorem getLsbD_all {k i : ℕ} (hi : i < 64) : ((1#64 <<< k) - 1#64).getLsbD i = decide (i < k) := by
  have hall : (1#64 <<< k) - 1#64 = BitVec.ofNat 64 (2 ^ k - 1) := by
    have hshift : 1#64 <<< k = BitVec.ofNat 64 (2 ^ k) := by
      apply BitVec.eq_of_toNat_eq
      simp [Nat.shiftLeft_eq]
    rw [hshift]
    exact BitVec.ofNat_sub_ofNat_of_le _ _ (by norm_num) Nat.one_le_two_pow
  rw [hall, BitVec.getLsbD_ofNat, Nat.testBit_two_pow_sub_one]
  simp [hi]

theorem mem_masks {k : ℕ} (hk : maxUnknownCapsExhaustive < k) {mask : BitVec 64} :
    mask ∈ masks k ↔ mask = 0#64 ∨ mask = (1#64 <<< k) - 1#64 ∨
      ∃ i < k, mask = 1#64 <<< i ∨ mask = ((1#64 <<< k) - 1#64) &&& ~~~(1#64 <<< i) := by
  unfold masks
  rw [if_neg (not_le.mpr hk), List.mem_reverse, List.mem_dedup, List.mem_reverse]
  simp only [List.mem_cons, List.mem_flatMap, List.mem_range, List.not_mem_nil, or_false]

/-- Up to six caps, every state has its mask. -/
theorem exists_mask {k : ℕ} (hk : k ≤ maxUnknownCapsExhaustive) (usedUp : ℕ → Bool) :
    ∃ mask ∈ masks k, ∀ i < k, usesUp mask i = usedUp i := by
  let bits := Nat.ofBits fun i : Fin k => usedUp i
  refine ⟨BitVec.ofNat 64 bits, ?_, fun i hi => ?_⟩
  · unfold masks
    rw [if_pos hk, Nat.one_shiftLeft]
    exact List.mem_map_of_mem (List.mem_range.mpr (Nat.ofBits_lt_two_pow _))
  · have hi64 : i < 64 := hi.trans_le (hk.trans (by decide))
    rw [usesUp_eq hi64, BitVec.getLsbD_ofNat, Nat.testBit_ofBits_lt _ i hi]
    simp [hi64]

/-- Beyond, the states that differ from one of the extremes in one cap at most have theirs. -/
theorem exists_mask_near {k : ℕ} (hk : maxUnknownCapsExhaustive < k) (hk64 : k ≤ 64) (all : Bool) (j : ℕ)
    {usedUp : ℕ → Bool} (h : ∀ i < k, i ≠ j → usedUp i = all) :
    ∃ mask ∈ masks k, ∀ i < k, usesUp mask i = usedUp i := by
  have hbit : ∀ {i}, i < k → (1#64 <<< j).getLsbD i = decide (j = i) := fun {i} hi => by
    rw [← BitVec.twoPow_eq, BitVec.getLsbD_twoPow]
    by_cases hij : j = i
    · simp [hij, hi.trans_le hk64]
    · simp [hij]
  by_cases hj : j < k ∧ usedUp j = !all
  · have hstate : ∀ i < k, usedUp i = if j = i then !all else all := fun i hi => by
      split_ifs with hij
      · rw [← hij, hj.2]
      · exact h i hi (Ne.symm hij)
    cases all with
    | false =>
      refine ⟨1#64 <<< j, (mem_masks hk).mpr (.inr (.inr ⟨j, hj.1, .inl rfl⟩)), fun i hi => ?_⟩
      rw [usesUp_eq (hi.trans_le hk64), hbit hi, hstate i hi]
      by_cases hij : j = i <;> simp [hij]
    | true =>
      refine ⟨_, (mem_masks hk).mpr (.inr (.inr ⟨j, hj.1, .inr rfl⟩)), fun i hi => ?_⟩
      have hi64 := hi.trans_le hk64
      rw [usesUp_eq hi64, BitVec.getLsbD_and, getLsbD_all hi64, BitVec.getLsbD_not, hbit hi, hstate i hi]
      by_cases hij : j = i <;> simp [hij, hi, hi64]
  · have hstate : ∀ i < k, usedUp i = all := fun i hi => by
      by_cases hij : i = j
      · subst hij
        cases hused : usedUp i <;> cases all <;> simp_all
      · exact h i hi hij
    cases all with
    | false =>
      refine ⟨0#64, (mem_masks hk).mpr (.inl rfl), fun i hi => ?_⟩
      rw [usesUp_eq (hi.trans_le hk64), hstate i hi, BitVec.getLsbD_zero]
    | true =>
      refine ⟨_, (mem_masks hk).mpr (.inr (.inl rfl)), fun i hi => ?_⟩
      rw [usesUp_eq (hi.trans_le hk64), hstate i hi, getLsbD_all (hi.trans_le hk64), decide_eq_true hi]

theorem masks_ne_nil (k : ℕ) : masks k ≠ [] := by
  by_cases hk : k ≤ maxUnknownCapsExhaustive
  · obtain ⟨mask, hmask, -⟩ := exists_mask hk fun _ => false
    exact List.ne_nil_of_mem hmask
  · exact List.ne_nil_of_mem ((mem_masks (not_le.mp hk)).mpr (.inl rfl))

/-! ### Results -/

theorem lower_rankedBy : RankedBy lower fun a => toLex (a.1.valueInr, OrderDual.toDual a.2) := by
  intro a b
  unfold lower
  rw [Ordering.then_eq_lt, cmp_eq_lt_iff, cmp_eq_eq_iff, cmp_eq_lt_iff, Prod.Lex.toLex_lt_toLex]
  rfl

namespace CardSnapshot

variable {snapshot : CardSnapshot}

theorem consumedWith_congr {usedUp usedUp' : ℕ → Bool}
    (h : ∀ i < snapshot.unknown.length, usedUp i = usedUp' i) :
    snapshot.consumedWith usedUp = snapshot.consumedWith usedUp' := by
  unfold consumedWith
  refine List.foldl_ext _ _ _ fun consumed entry hentry => ?_
  rw [h entry.2 (List.snd_lt_of_mem_zipIdx hentry)]

section Apply

variable (hids : (snapshot.unknown.map CapRule.id).Nodup) (usedUp : ℕ → Bool)
include hids

/-- What a state is, for caps with distinct ids. -/
theorem consumedWith_apply :
    (∀ i cap, snapshot.unknown[i]? = some cap → snapshot.consumedWith usedUp cap.id =
      if usedUp i then snapshot.usedUpAt cap else snapshot.fresh cap.id) ∧
    ∀ id, id ∉ snapshot.unknown.map CapRule.id → snapshot.consumedWith usedUp id = snapshot.fresh id := by
  let step (consumed : JsString → ℚ) (entry : CapRule × ℕ) : JsString → ℚ :=
    if usedUp entry.2 then Function.update consumed entry.1.id (snapshot.usedUpAt entry.1) else consumed
  have hstep : ∀ consumed entry id, id ≠ entry.1.id → step consumed entry id = consumed id := by
    intro consumed entry id hid
    unfold step
    split_ifs
    · exact Function.update_of_ne hid _ _
    · rfl
  have hrest : ∀ (entries : List (CapRule × ℕ)) consumed id, id ∉ entries.map (·.1.id) →
      entries.foldl step consumed id = consumed id := by
    intro entries
    induction entries with
    | nil => exact fun _ _ _ => rfl
    | cons entry entries ih =>
      intro consumed id hid
      obtain ⟨hne, hid⟩ := not_or.mp (mt List.mem_cons.mpr hid)
      rw [List.foldl_cons, ih _ _ hid, hstep _ _ _ hne]
  have hentries : ∀ (entries : List (CapRule × ℕ)) consumed, (entries.map (·.1.id)).Nodup →
      ∀ entry ∈ entries, entries.foldl step consumed entry.1.id =
        if usedUp entry.2 then snapshot.usedUpAt entry.1 else consumed entry.1.id := by
    intro entries
    induction entries with
    | nil => exact fun _ _ _ h => absurd h List.not_mem_nil
    | cons first entries ih =>
      intro consumed hnodup entry hentry
      obtain ⟨hnotMem, hnodup⟩ := List.nodup_cons.mp hnodup
      rw [List.foldl_cons]
      rcases List.mem_cons.mp hentry with rfl | hentry
      · rw [hrest _ _ _ hnotMem]
        unfold step
        split_ifs
        · rw [Function.update_self]
        · rfl
      · have hne : entry.1.id ≠ first.1.id := fun heq => hnotMem (List.mem_map.mpr ⟨entry, hentry, heq⟩)
        rw [ih _ hnodup entry hentry, hstep _ _ _ hne]
  have hzip : snapshot.unknown.zipIdx.map (·.1.id) = snapshot.unknown.map CapRule.id := by
    rw [show (fun entry : CapRule × ℕ => entry.1.id) = CapRule.id ∘ Prod.fst from rfl, ← List.map_map,
      List.zipIdx_map_fst]
  constructor
  · intro i cap hcap
    exact hentries _ _ (hzip ▸ hids) (cap, i) (List.mem_zipIdx_iff_getElem?.mpr hcap)
  · intro id hid
    exact hrest _ _ _ (hzip ▸ hid)

theorem consumedWith_eq {truth : JsString → ℚ}
    (hunknown : ∀ i cap, snapshot.unknown[i]? = some cap →
      truth cap.id = if usedUp i then snapshot.usedUpAt cap else snapshot.fresh cap.id)
    (hknown : ∀ id, id ∉ snapshot.unknown.map CapRule.id → truth id = snapshot.fresh id) :
    snapshot.consumedWith usedUp = truth := by
  obtain ⟨hcaps, hothers⟩ := consumedWith_apply hids usedUp
  funext id
  by_cases hid : id ∈ snapshot.unknown.map CapRule.id
  · obtain ⟨cap, hcap, rfl⟩ := List.mem_map.mp hid
    obtain ⟨i, hi⟩ := List.mem_iff_getElem?.mp hcap
    rw [hcaps i cap hi, hunknown i cap hi]
  · rw [hothers id hid, hknown id hid]

/-- A cap has one position at most. -/
theorem exists_position (id : JsString) :
    ∃ j, ∀ (i : ℕ) (cap : CapRule), snapshot.unknown[i]? = some cap → i ≠ j → cap.id ≠ id := by
  by_cases hid : id ∈ snapshot.unknown.map CapRule.id
  · obtain ⟨j, hj⟩ := List.mem_iff_getElem?.mp hid
    refine ⟨j, fun i cap hi hne heq => hne ?_⟩
    have hi' : (snapshot.unknown.map CapRule.id)[i]? = some id := by
      rw [List.getElem?_map, hi, ← heq]
      rfl
    exact (List.getElem?_inj (List.getElem?_eq_some_iff.mp hi').1 hids).mp (hi'.trans hj.symm)
  · exact ⟨0, fun i cap hi _ heq => hid (heq ▸ List.mem_map_of_mem (List.mem_of_getElem? hi))⟩

end Apply

end CardSnapshot

section Reward

variable (host : Host) (snapshot : CardSnapshot) (context : RecommendationContext)
  (directory : Option MerchantDirectory)

/-- The result is that of a state, and no state that is tried is worth less. -/
theorem rewardWithUnknownCaps_spec :
    (∃ usedUp, rewardWithUnknownCaps host snapshot context directory =
      evaluate host snapshot context directory (snapshot.consumedWith usedUp)) ∧
    ∀ usedUp : ℕ → Bool, (∃ mask ∈ masks snapshot.unknown.length,
        ∀ i < snapshot.unknown.length, usesUp mask i = usedUp i) →
      (rewardWithUnknownCaps host snapshot context directory).valueInr ≤
        (evaluate host snapshot context directory (snapshot.consumedWith usedUp)).valueInr := by
  unfold rewardWithUnknownCaps
  by_cases hunknown : snapshot.unknown.isEmpty = true
  · have hfresh : ∀ usedUp, snapshot.consumedWith usedUp = snapshot.fresh := fun usedUp => by
      unfold CardSnapshot.consumedWith
      rw [List.isEmpty_iff.mp hunknown]
      rfl
    rw [if_pos hunknown]
    exact ⟨⟨fun _ => false, by rw [hfresh]⟩, fun usedUp _ => by rw [hfresh]⟩
  · rw [if_neg hunknown]
    cases hbest : best lower (triedResults host snapshot context directory) with
    | none =>
      rw [best_eq_none_iff lower_rankedBy] at hbest
      exact absurd (List.map_eq_nil_iff.mp hbest) (masks_ne_nil _)
    | some result =>
      obtain ⟨hmem, hle⟩ := best_eq_some lower_rankedBy hbest
      obtain ⟨mask, -, rfl⟩ := List.mem_map.mp hmem
      refine ⟨⟨usesUp mask, rfl⟩, fun usedUp ⟨mask', hmask', hbits⟩ => ?_⟩
      have hrank := hle _ (List.mem_map_of_mem hmask')
      rw [← CardSnapshot.consumedWith_congr hbits]
      rcases Prod.Lex.toLex_le_toLex.mp hrank with hlt | heq
      · exact hlt.le
      · exact heq.1.le

end Reward

/-! ### What is not known -/

namespace CardSnapshot

variable (snapshot : CardSnapshot)

/-- A consumption with the known caps as they are, and each unknown cap between what was read and used up. -/
structure MayBe (truth : JsString → ℚ) : Prop where
  unknown : ∀ cap ∈ snapshot.unknown, snapshot.fresh cap.id ≤ truth cap.id ∧
    truth cap.id ≤ snapshot.usedUpAt cap
  known : ∀ id, id ∉ snapshot.unknown.map CapRule.id → truth id = snapshot.fresh id

/-- Each unknown cap is as it was read, or used up. -/
def IsCorner (truth : JsString → ℚ) : Prop :=
  ∀ cap ∈ snapshot.unknown, truth cap.id = snapshot.fresh cap.id ∨ truth cap.id = snapshot.usedUpAt cap

variable {snapshot} in
theorem mayBe_of_isCorner {truth : JsString → ℚ} (h : snapshot.IsCorner truth)
    (hknown : ∀ id, id ∉ snapshot.unknown.map CapRule.id → truth id = snapshot.fresh id) :
    snapshot.MayBe truth := by
  refine ⟨fun cap hcap => ?_, hknown⟩
  have hle : snapshot.fresh cap.id ≤ snapshot.usedUpAt cap := by
    unfold usedUpAt
    split_ifs with hless
    · exact le_refl _
    · exact not_lt.mp hless
  rcases h cap hcap with heq | heq
  · exact ⟨heq.ge, heq.le.trans hle⟩
  · exact ⟨hle.trans heq.ge, heq.le⟩

/-- The unknown caps, but for one, are all as they were read, or all used up. -/
def IsNearExtreme (truth : JsString → ℚ) : Prop :=
  ∃ id, ∃ all : Bool, ∀ cap ∈ snapshot.unknown, cap.id ≠ id →
    truth cap.id = if all then snapshot.usedUpAt cap else snapshot.fresh cap.id

end CardSnapshot

section Corners

variable (host : Host) (snapshot : CardSnapshot) (context : RecommendationContext)
  (directory : Option MerchantDirectory)

/-- The value is at most that of each corner for up to six unknown caps, and of each corner that is near an
extreme for up to 64 of them. It is that of a corner. -/
theorem unknown_caps_corners (hids : (snapshot.product.capRules.map CapRule.id).Nodup) :
    (∃ truth, snapshot.MayBe truth ∧ snapshot.IsCorner truth ∧
      rewardWithUnknownCaps host snapshot context directory =
        computeRewardV2 host snapshot.product context truth directory) ∧
    ∀ truth, snapshot.MayBe truth → snapshot.IsCorner truth →
      (snapshot.unknown.length ≤ 6 ∨ snapshot.unknown.length ≤ 64 ∧ snapshot.IsNearExtreme truth) →
      (rewardWithUnknownCaps host snapshot context directory).valueInr ≤
        (computeRewardV2 host snapshot.product context truth directory).valueInr := by
  have hids : (snapshot.unknown.map CapRule.id).Nodup := (List.filter_sublist.map CapRule.id).nodup hids
  obtain ⟨⟨usedUp, hresult⟩, hle⟩ := rewardWithUnknownCaps_spec host snapshot context directory
  constructor
  · obtain ⟨hcaps, hothers⟩ := CardSnapshot.consumedWith_apply hids usedUp
    have hcorner : snapshot.IsCorner (snapshot.consumedWith usedUp) := fun cap hcap => by
      obtain ⟨i, hi⟩ := List.mem_iff_getElem?.mp hcap
      rw [hcaps i cap hi]
      split_ifs
      · exact .inr rfl
      · exact .inl rfl
    exact ⟨_, CardSnapshot.mayBe_of_isCorner hcorner hothers, hcorner, hresult⟩
  · intro truth hmay hcorner htried
    -- the positions of the caps that are used up
    have hstate : ∀ usedUp : ℕ → Bool, (∀ i cap, snapshot.unknown[i]? = some cap →
        truth cap.id = if usedUp i then snapshot.usedUpAt cap else snapshot.fresh cap.id) →
        (∃ mask ∈ masks snapshot.unknown.length, ∀ i < snapshot.unknown.length, usesUp mask i = usedUp i) →
        (rewardWithUnknownCaps host snapshot context directory).valueInr ≤
          (computeRewardV2 host snapshot.product context truth directory).valueInr := by
      intro usedUp hunknown hmask
      have := hle usedUp hmask
      rwa [CardSnapshot.consumedWith_eq hids usedUp hunknown hmay.known] at this
    -- a cap is as the others are, or it is the other way round
    let usedUp (all : Bool) (i : ℕ) : Bool :=
      match snapshot.unknown[i]? with
      | some cap =>
        if truth cap.id = if all then snapshot.usedUpAt cap else snapshot.fresh cap.id then all else !all
      | none => all
    have hunknown : ∀ all i cap, snapshot.unknown[i]? = some cap →
        truth cap.id = if usedUp all i then snapshot.usedUpAt cap else snapshot.fresh cap.id := by
      intro all i cap hi
      have hcap := hcorner cap (List.mem_of_getElem? hi)
      unfold usedUp
      simp only [hi]
      by_cases heq : truth cap.id = if all then snapshot.usedUpAt cap else snapshot.fresh cap.id
      · rw [if_pos heq]
        exact heq
      · rw [if_neg heq]
        cases all with
        | true => exact hcap.resolve_right heq
        | false => exact hcap.resolve_left heq
    by_cases hk : snapshot.unknown.length ≤ 6
    · exact hstate (usedUp false) (hunknown false) (exists_mask hk _)
    · obtain ⟨hk64, id, all, hothers⟩ := htried.resolve_left hk
      obtain ⟨j, hj⟩ := CardSnapshot.exists_position hids id
      refine hstate (usedUp all) (hunknown all)
        (exists_mask_near (not_le.mp hk) hk64 all j fun i hi hne => ?_)
      have hget := List.getElem?_eq_getElem hi
      unfold usedUp
      simp only [hget]
      rw [if_pos (hothers _ (List.getElem_mem hi) (hj i _ hget hne))]

end Corners

/-- A cap of 200 rupees on the spend of a card. -/
def firstTwoHundred : CapRule where
  id := js "first"
  capValue := 20000
  measure := .spendAmount
  scope := .card
  capKind := some .eligibleSpend
  capAmount := some 200

/-- A card that pays a point of a rupee for each hundred rupees, and 5 points for each hundred of the first
200 rupees. What is consumed of the 200 rupees is not known. -/
def firstRupees : CardSnapshot where
  product := {
    pointValueInr := 1
    baseRewardUnit := some .pointsPer100
    baseRewardRate := some 1
    rewardRules := [{ id := js "five", unit := .pointsPer100, rate := 5 }]
    capRules := [firstTwoHundred] }
  unknownCapIds := [js "first"]

/-- A spend of 199 rupees, with the first rupees used up. -/
theorem unknown_caps_corners_first :
    (rewardWithUnknownCaps ⟨id, id, id⟩ firstRupees { amount := 19900 } none).valueInr ≤
      (computeRewardV2 ⟨id, id, id⟩ firstRupees.product { amount := 19900 }
        (firstRupees.consumedWith fun _ => true) none).valueInr := by
  have hids : (firstRupees.product.capRules.map CapRule.id).Nodup := List.nodup_singleton _
  have hunknown : (firstRupees.unknown.map CapRule.id).Nodup := (List.filter_sublist.map CapRule.id).nodup hids
  obtain ⟨hcaps, hothers⟩ := CardSnapshot.consumedWith_apply hunknown fun _ => true
  have hcorner : firstRupees.IsCorner (firstRupees.consumedWith fun _ => true) := fun cap hcap => by
    obtain ⟨i, hi⟩ := List.mem_iff_getElem?.mp hcap
    exact .inr (hcaps i cap hi)
  exact (unknown_caps_corners ⟨id, id, id⟩ firstRupees { amount := 19900 } none hids).2 _
    (CardSnapshot.mayBe_of_isCorner hcorner hothers) hcorner (.inl (by decide))

/-- Where half of a block is left of the first rupees, neither part of 199 rupees fills a block: a point is
promised, and none is paid. -/
theorem not_unknown_caps_between :
    ¬ ∀ (host : Host) (snapshot : CardSnapshot) (context : RecommendationContext)
      (directory : Option MerchantDirectory) (truth : JsString → ℚ),
      (snapshot.product.capRules.map CapRule.id).Nodup → snapshot.MayBe truth →
        (rewardWithUnknownCaps host snapshot context directory).valueInr ≤
          (computeRewardV2 host snapshot.product context truth directory).valueInr := by
  intro h
  have hle := h ⟨id, id, id⟩ firstRupees { amount := 19900 } none
    (fun id => if id = js "first" then 1005 / 10 else 0) (List.nodup_singleton _)
    ⟨by decide +kernel, fun id hid => if_neg fun heq : id = js "first" => hid (by rw [heq]; decide +kernel)⟩
  exact absurd hle (by decide +kernel)

end PandaPay.CardRewards.Dart
