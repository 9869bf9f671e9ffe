import PandaPay.CardRewards.Dart.Override
import PandaPay.CardRewards.Dart.Split

/-!
# What a split plan is worth, and that it is one

Whether the engine excludes a card does not depend on what its caps have left, so what was placed on a card before
does not turn a chunk away. Each round of the loop places a chunk, within the ceiling of its card, or is the last one.

The engine may exclude a card for an amount and not for each of the chunks that make it up: the waiver of a fuel
surcharge has a highest amount.

## Main results

* `isExcluded_congr`: exclusion depends on the context and the product alone
* `Filling.Sound.fillStep`: what a round preserves
* `split_partition`: the loop ends, and the plan places the spend as far as the cards take it
* `split_values`: each part of the plan is worth what the engine says, for contexts without a platform and a slug
-/

namespace PandaPay.CardRewards.Dart

/-! ### Exclusion -/

section Exclusion

variable {host : Host} {card : CardProduct} {spend : RecommendationContext} {directory : Option MerchantDirectory}

/-- Two states of the caps lead to pricings that differ in the caps only. -/
theorem pricingOf_caps (card : CardProduct) (spend : RecommendationContext) (consumed consumed' : JsString → ℚ)
    (rule : Option RewardRule) :
    (pricingOf card spend consumed rule = none ∧ pricingOf card spend consumed' rule = none) ∨
      ∃ p caps, pricingOf card spend consumed rule = some p ∧
        pricingOf card spend consumed' rule = some { p with caps := caps } := by
  unfold pricingOf
  dsimp only
  cases (rule.map RewardRule.unit).or (modesOf card spend.amount).baseUnit with
  | none => exact .inl ⟨rfl, rfl⟩
  | some ruleUnit =>
    cases (rule.map RewardRule.rate).or (modesOf card spend.amount).baseRate with
    | none => exact .inl ⟨rfl, rfl⟩
    | some ruleRate => exact .inr ⟨_, _, rfl, rfl⟩

/-- Whether something is earned does not depend on the caps. -/
theorem earnsNothing_computeRewardV2 (consumed consumed' : JsString → ℚ) :
    (computeRewardV2 host card spend consumed directory).earnsNothing =
      (computeRewardV2 host card spend consumed' directory).earnsNothing := by
  unfold computeRewardV2
  dsimp only
  by_cases hamount : spend.amount ≤ 0
  · rw [if_pos hamount, if_pos hamount]
  rw [if_neg hamount, if_neg hamount]
  by_cases hexcluded : (selectRule host (modesOf card spend.amount) card spend
      (((resolveMerchant spend directory).1.map MerchantMatch.lineage).getD [])).excluded = true
  · rw [if_pos hexcluded, if_pos hexcluded]
  rw [if_neg hexcluded, if_neg hexcluded]
  rcases pricingOf_caps card spend consumed consumed'
    (selectRule host (modesOf card spend.amount) card spend
      (((resolveMerchant spend directory).1.map MerchantMatch.lineage).getD [])).rule with ⟨h, h'⟩ | ⟨p, caps, h, h'⟩
  · rw [h, h']
  · rw [h, h']
    rfl

theorem earnsNothing_rewardWithUnknownCaps {snapshot snapshot' : CardSnapshot}
    (h : snapshot.product = snapshot'.product) :
    (rewardWithUnknownCaps host snapshot spend directory).earnsNothing =
      (rewardWithUnknownCaps host snapshot' spend directory).earnsNothing := by
  obtain ⟨usedUp, hused⟩ := (rewardWithUnknownCaps_spec host snapshot spend directory).1
  obtain ⟨usedUp', hused'⟩ := (rewardWithUnknownCaps_spec host snapshot' spend directory).1
  rw [hused, hused']
  unfold Dart.evaluate
  rw [h]
  exact earnsNothing_computeRewardV2 _ _

end Exclusion

section Excluded

variable {engine : RecommendationEngine} {rt : Runtime} {context : SpendContext} {snapshot snapshot' : RankedSnapshot}

theorem evaluateV2_isExcluded : (evaluateV2 engine rt context snapshot).isExcluded =
    ((rewardWithUnknownCaps rt.host snapshot.native context.toRecommendationContext
      engine.merchantDirectory).earnsNothing && !fuelApplies context snapshot) := by
  unfold evaluateV2
  dsimp only
  cases (rewardWithUnknownCaps rt.host snapshot.native context.toRecommendationContext
    engine.merchantDirectory).earnsNothing <;> cases fuelApplies context snapshot <;> rfl

/-- Whether the engine excludes a card depends on the context and the product alone. -/
theorem isExcluded_congr (h : snapshot.product = snapshot'.product) :
    (engine.evaluate rt context snapshot).isExcluded = (engine.evaluate rt context snapshot').isExcluded := by
  have hfuel : fuelApplies context snapshot = fuelApplies context snapshot' := by
    unfold fuelApplies
    rw [h]
  have hbase : (evaluateBase context snapshot).isExcluded = (evaluateBase context snapshot').isExcluded := by
    unfold evaluateBase
    rw [hfuel, h]
    dsimp only
    split_ifs <;> rfl
  unfold RecommendationEngine.evaluate
  rw [h]
  dsimp only
  split_ifs
  · rfl
  · rfl
  · rw [evaluateV2_isExcluded, evaluateV2_isExcluded, hfuel,
      earnsNothing_rewardWithUnknownCaps (show snapshot.native.product = snapshot'.native.product from
        congrArg RankedCard.toCardProduct h)]
  · unfold evaluateV1
    rw [h]
    dsimp only
    split_ifs
    · rfl
    · cases (matchingRules rt snapshot'.product.toCardProduct context.toRecommendationContext).head? with
      | none => exact hbase
      | some rule => rfl

end Excluded

section Plan

variable {engine : RecommendationEngine} {rt : Runtime} {sorting : Sorting.{0} RankKey} {base : SpendContext}

/-- A card alone gets its own recommendation. -/
theorem rank_singleton (context : SpendContext) (snapshot : RankedSnapshot) :
    engine.rank rt context sorting [snapshot] = [engine.evaluate rt context snapshot] := by
  have hperm := sorting.perm (fun entry : RankedSnapshot × Recommendation => entry.2.rankKey)
    [(snapshot, engine.evaluate rt context snapshot)]
  unfold RecommendationEngine.rank RecommendationEngine.ranked
  rw [List.map_singleton, List.perm_singleton.mp hperm]
  rfl

theorem rankAlone_eq (context : SpendContext) (snapshot : RankedSnapshot) :
    engine.rankAlone rt sorting context snapshot = some (engine.evaluate rt context snapshot) := by
  unfold RecommendationEngine.rankAlone
  rw [rank_singleton]
  rfl

theorem withReducedCaps_product (snapshot : RankedSnapshot) (consumed : ℤ) :
    (withReducedCaps engine rt base snapshot consumed).product = snapshot.product := by
  unfold withReducedCaps
  dsimp only
  split_ifs
  · rfl
  · rfl
  · rfl
  · split
    · rfl
    split
    · rfl
    unfold withReducedCap
    dsimp only
    split_ifs <;> rfl

/-! ### Offers -/

/-- A card turns a chunk down when nothing is left of its ceiling, or when the engine excludes it for the chunk. -/
theorem offerOf_eq_none {stepAmount : ℤ} {row : Row} {index : ℕ} :
    offerOf engine rt sorting base stepAmount row index = none ↔ row.remaining ≤ 0 ∨
      (engine.evaluate rt (partContext base (min row.remaining stepAmount)) row.card.snapshot).isExcluded = true := by
  unfold offerOf
  dsimp only
  rw [rankAlone_eq, ← min_def_lt]
  dsimp only
  rw [isExcluded_congr (withReducedCaps_product row.card.snapshot row.allocated)]
  split_ifs with hremaining hexcluded
  · exact iff_of_true rfl (.inl hremaining)
  · exact iff_of_true rfl (.inr hexcluded)
  · exact iff_of_false (fun h => nomatch h) (not_or.mpr ⟨hremaining, hexcluded⟩)

theorem offerOf_eq_some {stepAmount : ℤ} {row : Row} {index : ℕ} {offer : Offer}
    (h : offerOf engine rt sorting base stepAmount row index = some offer) :
    offer.index = index ∧ offer.chunk = min row.remaining stepAmount := by
  unfold offerOf at h
  dsimp only at h
  rw [rankAlone_eq, ← min_def_lt] at h
  dsimp only at h
  split_ifs at h
  cases h
  exact ⟨rfl, rfl⟩

theorem mem_offersOf {stepAmount : ℤ} {rows : List Row} {offer : Offer}
    (h : offer ∈ offersOf engine rt sorting base stepAmount rows) :
    ∃ row, rows[offer.index]? = some row ∧ 0 < row.remaining ∧ offer.chunk = min row.remaining stepAmount ∧
      (engine.evaluate rt (partContext base offer.chunk) row.card.snapshot).isExcluded = false := by
  obtain ⟨⟨row, index⟩, hentry, hoffer⟩ := List.mem_filterMap.mp h
  obtain ⟨hindex, hchunk⟩ := offerOf_eq_some hoffer
  have htaken := mt offerOf_eq_none.mpr (Option.ne_none_iff_exists'.mpr ⟨offer, hoffer⟩)
  rw [not_or, not_le, Bool.not_eq_true, ← hchunk] at htaken
  exact ⟨row, hindex ▸ List.mem_zipIdx_iff_getElem?.mp hentry, htaken.1, hchunk, htaken.2⟩

theorem offersOf_eq_nil {stepAmount : ℤ} {rows : List Row}
    (h : offersOf engine rt sorting base stepAmount rows = []) : ∀ row ∈ rows, row.remaining ≤ 0 ∨
      (engine.evaluate rt (partContext base (min row.remaining stepAmount)) row.card.snapshot).isExcluded = true := by
  intro row hrow
  obtain ⟨index, hindex⟩ := List.mem_iff_getElem?.mp hrow
  exact offerOf_eq_none.mp
    (List.filterMap_eq_nil_iff.mp h (row, index) (List.mem_zipIdx_iff_getElem?.mpr hindex))

theorem bestOffer_eq_none {offers : List Offer} (h : bestOffer offers = none) : offers = [] := by
  cases offers with
  | nil => rfl
  | cons offer offers => cases h

/-- The best offer is one of the offers. -/
theorem mem_of_bestOffer {offers : List Offer} {offer : Offer} (h : bestOffer offers = some offer) :
    offer ∈ offers := by
  have hfold : ∀ (rest : List Offer) first, rest.foldl betterOffer first ∈ first :: rest := by
    intro rest
    induction rest with
    | nil => exact fun _ => List.mem_cons_self
    | cons second rest ih =>
      intro first
      rw [List.foldl_cons]
      rcases List.mem_cons.mp (ih (betterOffer first second)) with heq | hmem
      · rw [heq]
        unfold betterOffer
        split_ifs
        · exact List.mem_cons_self
        · exact List.mem_cons_of_mem _ List.mem_cons_self
      · exact List.mem_cons_of_mem _ (List.mem_cons_of_mem _ hmem)
  cases offers with
  | nil => cases h
  | cons first rest =>
    cases h
    exact hfold rest first

/-! ### A round -/

section Round

variable (engine rt base) (utilizationCeiling : JsString → Option ℤ) (total stepSize : ℤ) (cards : List SplitCard)

/-- What is placed on a card was placed in chunks for which the engine does not exclude it, within the ceiling. -/
structure Row.IsFilled (row : Row) : Prop where
  ceiling : row.remaining + row.allocated = ceilingOf utilizationCeiling row.card
  within : 0 < row.allocated → 0 ≤ row.remaining
  chunks : ∃ chunks : List ℤ, chunks.sum = row.allocated ∧ ∀ chunk ∈ chunks, 0 < chunk ∧
    (engine.evaluate rt (partContext base chunk) row.card.snapshot).isExcluded = false

/-- What holds before each round. -/
structure Filling.Sound (sorting : Sorting.{0} RankKey) (s : Filling) : Prop where
  cards : s.rows.map Row.card = cards
  filled : ∀ row ∈ s.rows, row.IsFilled engine rt base utilizationCeiling
  placed : (s.rows.map Row.allocated).sum = s.placed
  atMost : s.placed ≤ total
  stopped : s.stopped = true →
    offersOf engine rt sorting base (stepAmountOf total stepSize s.placed) s.rows = []

variable {engine rt base utilizationCeiling total stepSize cards}

theorem Row.IsFilled.nonneg {row : Row} (h : row.IsFilled engine rt base utilizationCeiling) : 0 ≤ row.allocated := by
  obtain ⟨chunks, hsum, hchunks⟩ := h.chunks
  rw [← hsum]
  exact List.sum_nonneg fun chunk hchunk => (hchunks chunk hchunk).1.le

/-- A chunk is placed on a card that takes it. -/
theorem Row.IsFilled.place {row : Row} (h : row.IsFilled engine rt base utilizationCeiling) {chunk : ℤ}
    (hpos : 0 < chunk) (hle : chunk ≤ row.remaining)
    (hin : (engine.evaluate rt (partContext base chunk) row.card.snapshot).isExcluded = false) :
    (row.place chunk).IsFilled engine rt base utilizationCeiling where
  ceiling := by
    have := h.ceiling
    unfold Row.place
    dsimp only
    omega
  within := fun _ => by
    unfold Row.place
    dsimp only
    omega
  chunks := by
    obtain ⟨chunks, hsum, hchunks⟩ := h.chunks
    refine ⟨chunks ++ [chunk], ?_, ?_⟩
    · rw [List.sum_append, hsum, List.sum_singleton]
      rfl
    · intro c hc
      rcases List.mem_append.mp hc with hc | hc
      · exact hchunks c hc
      · rw [List.mem_singleton.mp hc]
        exact ⟨hpos, hin⟩

theorem stepAmountOf_pos {placed : ℤ} (hsize : 0 < stepSize) (h : placed < total) :
    0 < stepAmountOf total stepSize placed ∧ stepAmountOf total stepSize placed ≤ total - placed := by
  unfold stepAmountOf
  split_ifs <;> omega

variable (engine rt sorting base) in
/-- A round places a chunk within the spend, or is the last one as no card takes a chunk. -/
theorem fillStep_cases {s : Filling} (hsize : 0 < stepSize) (h : s.placed < total) :
    (offersOf engine rt sorting base (stepAmountOf total stepSize s.placed) s.rows = [] ∧
      fillStep engine rt sorting base total stepSize s = { s with stopped := true }) ∨
    ∃ before row after chunk, s.rows = before ++ row :: after ∧ 0 < chunk ∧ chunk ≤ row.remaining ∧
      chunk ≤ total - s.placed ∧
      (engine.evaluate rt (partContext base chunk) row.card.snapshot).isExcluded = false ∧
      fillStep engine rt sorting base total stepSize s =
        { rows := before ++ row.place chunk :: after, placed := s.placed + chunk } := by
  obtain ⟨hpos, hle⟩ := stepAmountOf_pos hsize h
  unfold fillStep
  dsimp only
  rw [if_neg hpos.ne']
  cases hbest : bestOffer (offersOf engine rt sorting base (stepAmountOf total stepSize s.placed) s.rows) with
  | none => exact .inl ⟨bestOffer_eq_none hbest, rfl⟩
  | some offer =>
    obtain ⟨row, hrow, hremaining, hchunk, hin⟩ := mem_offersOf (mem_of_bestOffer hbest)
    obtain ⟨before, row', after, hrows, hlength, hmodify⟩ := List.exists_of_modify
      (fun row : Row => row.place offer.chunk) (List.getElem?_eq_some_iff.mp hrow).1
    have hrow' : row' = row := by
      rw [hrows, ← hlength, List.getElem?_append_right le_rfl, Nat.sub_self] at hrow
      exact Option.some.inj hrow
    subst hrow'
    refine .inr ⟨before, row', after, offer.chunk, hrows, ?_, ?_, ?_, hin, ?_⟩
    · rw [hchunk]
      exact lt_min hremaining hpos
    · rw [hchunk]
      exact min_le_left _ _
    · rw [hchunk]
      exact (min_le_right _ _).trans hle
    · dsimp only
      rw [hmodify]

/-- What a round preserves. -/
theorem Filling.Sound.fillStep {s : Filling}
    (h : s.Sound engine rt base utilizationCeiling total stepSize cards sorting) (hsize : 0 < stepSize)
    (htest : fillTest total s = true) :
    (fillStep engine rt sorting base total stepSize s).Sound engine rt base utilizationCeiling total stepSize cards
      sorting := by
  have hplaced : s.placed < total := of_decide_eq_true (Bool.and_eq_true_iff.mp htest).1
  rcases fillStep_cases engine rt sorting base hsize hplaced with
    ⟨hnone, hstep⟩ | ⟨before, row, after, chunk, hrows, hpos, hle, htotal, hin, hstep⟩
  · rw [hstep]
    exact { h with stopped := fun _ => hnone }
  · have hfilled := h.filled
    have hcards := h.cards
    have hsum := h.placed
    rw [hrows] at hfilled hcards hsum
    rw [hstep]
    constructor
    · rw [← hcards]
      simp [Row.place]
    · intro r hr
      rcases List.mem_append.mp hr with hr | hr
      · exact hfilled r (List.mem_append_left _ hr)
      rcases List.mem_cons.mp hr with rfl | hr
      · exact (hfilled row (by simp)).place hpos hle hin
      · exact hfilled r (List.mem_append_right _ (List.mem_cons_of_mem _ hr))
    · dsimp only
      rw [← hsum]
      simp [Row.place]
      ring
    · dsimp only
      omega
    · exact fun h => nomatch h

/-- The loop ends in a sound state. -/
theorem whileLoop_fillStep (hsize : 0 < stepSize) {s : Filling}
    (h : s.Sound engine rt base utilizationCeiling total stepSize cards sorting) {rounds : ℕ}
    (hrounds : (total - s.placed).toNat < rounds) :
    ∃ t, whileLoop (fillTest total) (Dart.fillStep engine rt sorting base total stepSize) rounds s = some t ∧
      t.Sound engine rt base utilizationCeiling total stepSize cards sorting ∧ fillTest total t = false := by
  let measure (s : Filling) : ℕ := if s.stopped then 0 else (total - s.placed).toNat
  have hle : measure s ≤ (total - s.placed).toNat := by
    unfold measure
    split_ifs
    · exact Nat.zero_le _
    · exact le_rfl
  refine whileLoop_ends measure (fun x hx htest => hx.fillStep hsize htest) ?_ h (hle.trans_lt hrounds)
  intro x hx htest
  obtain ⟨hplaced, hgoes⟩ := Bool.and_eq_true_iff.mp htest
  have hplaced : x.placed < total := of_decide_eq_true hplaced
  have hgoes : x.stopped = false := by simpa using hgoes
  rcases fillStep_cases engine rt sorting base hsize hplaced with
    ⟨-, hstep⟩ | ⟨before, row, after, chunk, -, hpos, -, htotal, -, hstep⟩
  · rw [hstep]
    simp only [measure, hgoes, if_true]
    simp only [Bool.false_eq_true, if_false]
    omega
  · rw [hstep]
    simp only [measure, hgoes, Bool.false_eq_true, if_false]
    omega

end Round

/-! ### The plan -/

section Optimize

variable (engine rt sorting base) {total stepCount : ℤ} (cards : List SplitCard)
  (utilizationCeiling : JsString → Option ℤ)

/-- What the cards get that get something. -/
def planOf (rows : List Row) : List SplitAllocation :=
  (rows.filter (·.allocated ≠ 0)).map fun row =>
    { card := row.card.snapshot.product
      amount := row.allocated
      expectedValue := (engine.evaluate rt (partContext base row.allocated) row.card.snapshot).expectedValue }

variable {engine rt sorting base}

theorem filterMap_allocationOf (sorting : Sorting.{0} RankKey) (rows : List Row) :
    rows.filterMap (allocationOf engine rt sorting base) = planOf engine rt base rows := by
  unfold planOf
  rw [← List.filterMap_eq_map, List.filterMap_filter]
  refine List.filterMap_congr fun row _ => ?_
  unfold allocationOf
  rw [rankAlone_eq]
  by_cases hrow : row.allocated = 0
  · rw [if_pos hrow, if_neg (by simpa using hrow)]
  · rw [if_neg hrow, if_pos (by simpa using hrow)]
    rfl

/-- What is in the plan is what was placed. -/
theorem sum_planOf (rows : List Row) :
    ((planOf engine rt base rows).map SplitAllocation.amount).sum = (rows.map Row.allocated).sum := by
  induction rows with
  | nil => rfl
  | cons row rows ih =>
    rw [List.map_cons, List.sum_cons, ← ih]
    unfold planOf
    by_cases hrow : row.allocated = 0
    · rw [List.filter_cons_of_neg (by simpa using hrow), hrow, zero_add]
    · rw [List.filter_cons_of_pos (by simpa using hrow), List.map_cons, List.map_cons, List.sum_cons]

/-- The plan is of the rows that the loop ends with. -/
theorem optimize_eq (sorting : Sorting.{0} RankKey) (hsteps : 0 < stepCount) (htotal : 0 < total) {rounds : ℕ}
    (hrounds : total.toNat < rounds) :
    ∃ s : Filling, s.Sound engine rt base utilizationCeiling total (stepSizeOf total stepCount) cards sorting ∧
      fillTest total s = false ∧
      optimize engine rt sorting base rounds total cards utilizationCeiling stepCount =
        .ok (planOf engine rt base s.rows) := by
  have hsize : 0 < stepSizeOf total stepCount :=
    Int.ceil_pos.mpr (div_pos (Int.cast_pos.mpr htotal) (Int.cast_pos.mpr hsteps))
  unfold optimize
  rw [if_neg (not_le.mpr hsteps)]
  cases hcards : cards with
  | nil =>
    refine ⟨{ rows := [], stopped := true }, ?_, by simp [fillTest], by rw [if_pos (.inl rfl)]; rfl⟩
    exact ⟨rfl, fun row hrow => absurd hrow List.not_mem_nil, rfl, htotal.le, fun _ => rfl⟩
  | cons card rest =>
    rw [← hcards, if_neg (by rw [hcards]; simpa using htotal)]
    dsimp only
    let start : Filling := { rows := cards.map fun card => ⟨card, ceilingOf utilizationCeiling card, 0⟩ }
    have hstart : start.Sound engine rt base utilizationCeiling total (stepSizeOf total stepCount) cards sorting := by
      constructor
      · simp [start, Function.comp_def]
      · intro row hrow
        obtain ⟨c, -, rfl⟩ := List.mem_map.mp hrow
        exact ⟨add_zero _, fun h => absurd h (lt_irrefl 0), [], rfl, fun _ h => absurd h List.not_mem_nil⟩
      · simp [start, Function.comp_def]
      · exact htotal.le
      · exact fun h => nomatch h
    obtain ⟨s, hloop, hs, htest⟩ := whileLoop_fillStep hsize hstart (by simpa [start] using hrounds)
    refine ⟨s, hs, htest, ?_⟩
    rw [hloop, ← filterMap_allocationOf sorting]

end Optimize

end Plan

/-- For a positive spend and number of steps, the loop ends. Each part of the plan is positive and within the ceiling
of its card, together they are at most the spend, and they are all of it unless for each card the ceiling is used up
or the engine excludes the card for the chunk that would be next. -/
theorem split_partition (engine : RecommendationEngine) (rt : Runtime) (sorting : Sorting.{0} RankKey)
    (base : SpendContext) (cards : List SplitCard) (utilizationCeiling : JsString → Option ℤ) {total stepCount : ℤ}
    (htotal : 0 < total) (hsteps : 0 < stepCount) {rounds : ℕ} (hrounds : total.toNat < rounds) :
    ∃ rows : List Row, rows.map Row.card = cards ∧
      optimize engine rt sorting base rounds total cards utilizationCeiling stepCount =
        .ok (planOf engine rt base rows) ∧
      (∀ allocation ∈ planOf engine rt base rows, 0 < allocation.amount) ∧
      (∀ row ∈ rows, row.allocated ≠ 0 → row.allocated ≤ ceilingOf utilizationCeiling row.card) ∧
      let placed := ((planOf engine rt base rows).map SplitAllocation.amount).sum
      placed ≤ total ∧
        (placed = total ∨ ∀ row ∈ rows,
          let left := ceilingOf utilizationCeiling row.card - row.allocated
          let chunk := min left (stepAmountOf total (stepSizeOf total stepCount) placed)
          left ≤ 0 ∨ (engine.evaluate rt (partContext base chunk) row.card.snapshot).isExcluded = true) := by
  obtain ⟨s, hs, htest, hplan⟩ := optimize_eq cards utilizationCeiling sorting hsteps htotal hrounds
  refine ⟨s.rows, hs.cards, hplan, ?_, ?_, ?_⟩
  · intro allocation hallocation
    obtain ⟨row, hrow, rfl⟩ := List.mem_map.mp hallocation
    obtain ⟨hrow, hne⟩ := List.mem_filter.mp hrow
    exact lt_of_le_of_ne (hs.filled row hrow).nonneg (Ne.symm (of_decide_eq_true hne))
  · intro row hrow hne
    have hfilled := hs.filled row hrow
    have hceiling := hfilled.ceiling
    have hwithin := hfilled.within (lt_of_le_of_ne hfilled.nonneg hne.symm)
    omega
  · dsimp only
    rw [sum_planOf, hs.placed]
    refine ⟨hs.atMost, ?_⟩
    unfold fillTest at htest
    rcases Bool.and_eq_false_iff.mp htest with hfull | hstopped
    · have := of_decide_eq_false hfull
      exact .inl (le_antisymm hs.atMost (not_lt.mp this))
    · refine .inr fun row hrow => ?_
      rw [← (hs.filled row hrow).ceiling, add_sub_cancel_right]
      exact offersOf_eq_nil (hs.stopped (by simpa using hstopped)) row hrow

theorem split_partition_dinner :
    ∃ allocations, optimize {} plainRuntime .insertion dinner 100001 100000
        [{ snapshot := { product := diner }, snapshotCeiling := some 30000 }] (fun _ => none) 20 = .ok allocations ∧
      ∀ allocation ∈ allocations, 0 < allocation.amount := by
  obtain ⟨rows, -, hplan, hpos, -⟩ := split_partition {} plainRuntime .insertion dinner
    [{ snapshot := { product := diner }, snapshotCeiling := some 30000 }] (fun _ => none)
    (by decide : (0 : ℤ) < 100000) (by decide : (0 : ℤ) < 20) (by decide : (100000 : ℤ).toNat < 100001)
  exact ⟨_, hplan, hpos⟩

/-! ### Values -/

section Values

variable {engine : RecommendationEngine} {rt : Runtime} {sorting : Sorting.{0} RankKey} {base : SpendContext}

/-- Nothing is left out of a context without a platform and a slug. -/
theorem partContext_eq (hplatform : base.platform = none) (hslug : base.merchantSlug = none) (amount : ℤ) :
    partContext base amount = { base with amount := amount } := by
  cases base with
  | mk spend categorySlug isP2P travelMode =>
    cases spend
    cases hplatform
    cases hslug
    rfl

/-- The slug of the category counts where it says that the spend is on fuel. -/
theorem evaluate_congr {context context' : SpendContext}
    (hspend : context.toRecommendationContext = context'.toRecommendationContext)
    (hp2p : context.isP2P = context'.isP2P) (htravel : context.travelMode = context'.travelMode)
    (hfuel : context.isFuel = context'.isFuel) (snapshot : RankedSnapshot) :
    engine.evaluate rt context snapshot = engine.evaluate rt context' snapshot := by
  obtain ⟨spend, categorySlug, isP2P, travelMode⟩ := context
  obtain ⟨spend', categorySlug', isP2P', travelMode'⟩ := context'
  cases hspend
  cases hp2p
  cases htravel
  have hbonus : bonusOf engine ⟨spend, categorySlug, isP2P, travelMode⟩ snapshot =
      bonusOf engine ⟨spend, categorySlug', isP2P, travelMode⟩ snapshot := rfl
  have happlies : fuelApplies ⟨spend, categorySlug, isP2P, travelMode⟩ snapshot =
      fuelApplies ⟨spend, categorySlug', isP2P, travelMode⟩ snapshot := by
    unfold fuelApplies
    rw [hfuel]
  simp only [RecommendationEngine.evaluate, evaluateV1, evaluateV2, evaluateBase, evaluateRule, adjusted, ruleValue,
    milestoneBonus, forexCost, waiverValue, waiverFraction, hfuel, hbonus, happlies]

theorem rank_congr {context context' : SpendContext}
    (h : ∀ snapshot, engine.evaluate rt context snapshot = engine.evaluate rt context' snapshot)
    (snapshots : List RankedSnapshot) :
    engine.rank rt context sorting snapshots = engine.rank rt context' sorting snapshots := by
  unfold RecommendationEngine.rank RecommendationEngine.ranked
  simp only [h]

theorem railContext_spend (hplatform : base.platform = none) (hslug : base.merchantSlug = none) (rail : Rail) :
    (railContext base rail).toRecommendationContext =
      ({ base with rail := rail } : SpendContext).toRecommendationContext := by
  cases base with
  | mk spend categorySlug isP2P travelMode =>
    cases spend
    cases hplatform
    cases hslug
    rfl

theorem railContext_isFuel
    (hfuel : base.categorySlug = some (js "fuel") → ({ base with categorySlug := none } : SpendContext).isFuel = true)
    (rail : Rail) : (railContext base rail).isFuel = ({ base with rail := rail } : SpendContext).isFuel := by
  have hwithout : (railContext base rail).isFuel = ({ base with categorySlug := none } : SpendContext).isFuel := rfl
  rw [hwithout]
  by_cases hcategory : base.categorySlug = some (js "fuel")
  · rw [hfuel hcategory]
    simp [SpendContext.isFuel, hcategory]
  · simp [SpendContext.isFuel, hcategory]

variable (engine rt sorting base) in
/-- The rows of the plan, whatever the total is. -/
theorem exists_rows (cards : List SplitCard) (utilizationCeiling : JsString → Option ℤ) {total stepCount : ℤ}
    (hsteps : 0 < stepCount) {rounds : ℕ} (hrounds : total.toNat < rounds) :
    ∃ rows : List Row, rows.map Row.card = cards ∧
      (∀ row ∈ rows, row.IsFilled engine rt base utilizationCeiling) ∧
      optimize engine rt sorting base rounds total cards utilizationCeiling stepCount =
        .ok (planOf engine rt base rows) := by
  by_cases htotal : 0 < total
  · obtain ⟨s, hs, -, hplan⟩ := optimize_eq cards utilizationCeiling sorting hsteps htotal hrounds
    exact ⟨s.rows, hs.cards, hs.filled, hplan⟩
  · refine ⟨cards.map fun card => ⟨card, ceilingOf utilizationCeiling card, 0⟩, ?_, ?_, ?_⟩
    · rw [List.map_map]
      exact List.map_id cards
    · intro row hrow
      obtain ⟨card, -, rfl⟩ := List.mem_map.mp hrow
      exact ⟨add_zero _, fun h => absurd h (lt_irrefl 0), [], rfl, fun _ h => absurd h List.not_mem_nil⟩
    · unfold optimize planOf
      rw [if_neg (not_le.mpr hsteps), if_pos (.inr (not_lt.mp htotal)), List.filter_map]
      simp

end Values

/-- For a context without a platform and a merchant slug, each part of the plan is worth what the engine gives its card
alone for the context with the part as its amount, and each chunk that a card gets is one for which the engine does
not exclude it. The comparison of the rails is by the ranking for the context with the rail, where the spend is not a
transfer, and is on fuel not by the slug of its category alone. -/
theorem split_values (engine : RecommendationEngine) (rt : Runtime) (sorting : Sorting.{0} RankKey)
    (base : SpendContext) (hplatform : base.platform = none) (hslug : base.merchantSlug = none) :
    (∀ (cards : List SplitCard) (utilizationCeiling : JsString → Option ℤ) (total stepCount : ℤ) (rounds : ℕ),
      0 < stepCount → total.toNat < rounds → ∃ rows : List Row, rows.map Row.card = cards ∧
        (∃ allocations, optimize engine rt sorting base rounds total cards utilizationCeiling stepCount =
            .ok allocations ∧
          List.Forall₂ (fun row allocation => allocation.card = row.card.snapshot.product ∧
              allocation.amount = row.allocated ∧
              (engine.rank rt { base with amount := allocation.amount } sorting [row.card.snapshot]).map
                Recommendation.expectedValue = [allocation.expectedValue])
            (rows.filter (·.allocated ≠ 0)) allocations) ∧
        ∀ row ∈ rows, ∃ chunks : List ℤ, chunks.sum = row.allocated ∧ ∀ chunk ∈ chunks, 0 < chunk ∧
          ∀ r ∈ engine.rank rt { base with amount := chunk } sorting [row.card.snapshot], r.isExcluded = false) ∧
    (base.isP2P = false →
      (base.categorySlug = some (js "fuel") → ({ base with categorySlug := none } : SpendContext).isFuel = true) →
      ∀ cards : List RankedSnapshot, compareRails engine rt sorting base cards =
        (topOf (engine.rank rt { base with rail := .upiQr } sorting cards)).bind fun upiTop =>
          (topOf (engine.rank rt { base with rail := .swipe } sorting cards)).map fun swipeTop =>
            ⟨upiTop, swipeTop, swipeTop.expectedValue - upiTop.expectedValue⟩) := by
  constructor
  · intro cards utilizationCeiling total stepCount rounds hsteps hrounds
    obtain ⟨rows, hcards, hfilled, hplan⟩ := exists_rows engine rt sorting base cards utilizationCeiling
      hsteps hrounds
    refine ⟨rows, hcards, ⟨_, hplan, ?_⟩, ?_⟩
    · unfold planOf
      rw [List.forall₂_map_right_iff]
      refine List.forall₂_same.mpr fun row _ => ⟨rfl, rfl, ?_⟩
      rw [rank_singleton, ← partContext_eq hplatform hslug]
      rfl
    · intro row hrow
      obtain ⟨chunks, hsum, hchunks⟩ := (hfilled row hrow).chunks
      refine ⟨chunks, hsum, fun chunk hchunk => ⟨(hchunks chunk hchunk).1, fun r hr => ?_⟩⟩
      rw [rank_singleton, ← partContext_eq hplatform hslug, List.mem_singleton] at hr
      rw [hr]
      exact (hchunks chunk hchunk).2
  · intro hp2p hfuel cards
    have hrank : ∀ rail, engine.rank rt (railContext base rail) sorting cards =
        engine.rank rt { base with rail := rail } sorting cards := by
      intro rail
      refine rank_congr (fun snapshot => evaluate_congr ?_ ?_ ?_ ?_ snapshot) cards
      · exact railContext_spend hplatform hslug rail
      · exact hp2p.symm
      · rfl
      · exact railContext_isFuel hfuel rail
    unfold compareRails
    rw [hrank, hrank]

theorem split_values_dinner :
    (∃ allocations, optimize {} plainRuntime .insertion dinner 100001 100000
        [{ snapshot := { product := plain } }, { snapshot := { product := diner } }] (fun _ => none) 20 =
          .ok allocations) ∧
      compareRails {} plainRuntime .insertion dinner [{ product := plain }, { product := diner }] =
        (topOf (RecommendationEngine.rank {} plainRuntime { dinner with rail := .upiQr } .insertion
          [{ product := plain }, { product := diner }])).bind fun upiTop =>
          (topOf (RecommendationEngine.rank {} plainRuntime { dinner with rail := .swipe } .insertion
            [{ product := plain }, { product := diner }])).map fun swipeTop =>
            ⟨upiTop, swipeTop, swipeTop.expectedValue - upiTop.expectedValue⟩ := by
  obtain ⟨hparts, hrails⟩ := split_values {} plainRuntime .insertion dinner rfl rfl
  obtain ⟨rows, -, ⟨allocations, hplan, -⟩, -⟩ := hparts
    [{ snapshot := { product := plain } }, { snapshot := { product := diner } }] (fun _ => none) 100000 20 100001
    (by decide) (by decide)
  exact ⟨⟨allocations, hplan⟩, hrails rfl (fun h => absurd h (by decide)) _⟩

/-- A stop for petrol. -/
def petrol : SpendContext := { amount := 500000, categoryId := some (js "fuel"), rail := .swipe }

/-- A card that waives the surcharge on fuel for up to four thousand rupees. -/
def fuelCard : RankedCard where
  id := js "fuel"
  fuelRule := some { waiverPercent := 1, maxTxn := some 400000 }

/-- The petrol for five thousand rupees is placed on the card in two halves. The engine excludes the card for all
of it. -/
theorem excluded_card_in_plan :
    ¬ ∀ (engine : RecommendationEngine) (rt : Runtime) (sorting : Sorting.{0} RankKey) (base : SpendContext)
      (cards : List SplitCard) (utilizationCeiling : JsString → Option ℤ) (total stepCount : ℤ) (rounds : ℕ)
      (allocations : List SplitAllocation),
      optimize engine rt sorting base rounds total cards utilizationCeiling stepCount = .ok allocations →
        ∀ allocation ∈ allocations, ∃ card ∈ cards, allocation.card.id = card.snapshot.product.id ∧
          (engine.evaluate rt { base with amount := allocation.amount } card.snapshot).isExcluded = false := by
  intro h
  have hplan : (optimize {} plainRuntime .insertion petrol 3 500000 [{ snapshot := { product := fuelCard } }]
      (fun _ => none) 2).toOption.map (·.map SplitAllocation.amount) = some [500000] := by
    decide +kernel
  cases hresult : optimize {} plainRuntime .insertion petrol 3 500000 [{ snapshot := { product := fuelCard } }]
      (fun _ => none) 2 with
  | error e =>
    rw [hresult] at hplan
    cases hplan
  | ok allocations =>
    rw [hresult] at hplan
    have hamounts : allocations.map SplitAllocation.amount = [500000] := Option.some.inj hplan
    obtain ⟨allocation, hallocation, hamount⟩ := List.mem_map.mp (hamounts ▸ List.mem_singleton_self (500000 : ℤ))
    obtain ⟨card, hcard, -, hin⟩ := h _ _ _ _ _ _ _ _ _ _ hresult allocation hallocation
    rw [List.mem_singleton.mp hcard, hamount] at hin
    exact absurd hin (by decide +kernel)

end PandaPay.CardRewards.Dart
