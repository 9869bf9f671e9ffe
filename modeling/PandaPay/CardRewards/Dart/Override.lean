import PandaPay.CardRewards.Dart.Recommendation

/-!
# Overrides

A card that is forced for a spend is to come first. Recommendations by a rule, and those of cards of the second
version, say whether their card is forced. Those by the base rate do not, and are ranked like any other.

## Main results

* `override_wins_iff`: a forced card comes before the others exactly where its recommendation is not by the base rate
-/

namespace PandaPay.CardRewards.Dart

variable {engine : RecommendationEngine} {rt : Runtime} {context : SpendContext} {snapshot : RankedSnapshot}

theorem evaluateV2_isOverride : (evaluateV2 engine rt context snapshot).isOverride = snapshot.isForced := by
  unfold evaluateV2
  dsimp only
  split_ifs <;> rfl

theorem evaluateBase_isOverride : (evaluateBase context snapshot).isOverride = false := by
  unfold evaluateBase
  dsimp only
  split_ifs <;> rfl

/-- A recommendation that is marked is of a forced card. -/
theorem isForced_of_isOverride (h : (engine.evaluate rt context snapshot).isOverride = true) :
    snapshot.isForced = true := by
  unfold RecommendationEngine.evaluate at h
  dsimp only at h
  split_ifs at h
  · cases h
  · cases h
  · rwa [evaluateV2_isOverride] at h
  · unfold evaluateV1 at h
    dsimp only at h
    split_ifs at h
    · cases h
    split at h
    · rw [evaluateBase_isOverride] at h
      cases h
    · exact h

/-- A recommendation that is not excluded is not turned away at the gates. -/
theorem evaluate_eq_of_not_excluded (h : (engine.evaluate rt context snapshot).isExcluded = false) :
    engine.evaluate rt context snapshot =
      if snapshot.product.isV2Shaped then evaluateV2 engine rt context snapshot
      else match (matchingRules rt snapshot.product.toCardProduct context.toRecommendationContext).head? with
        | none => evaluateBase context snapshot
        | some rule => evaluateRule engine rt context snapshot rule := by
  unfold RecommendationEngine.evaluate at h ⊢
  dsimp only at h ⊢
  by_cases hupi : (decide (context.rail = Rail.upiQr) && !snapshot.product.isUpiLinkable) = true
  · rw [if_pos hupi] at h
    cases h
  rw [if_neg hupi] at h ⊢
  by_cases hp2p : context.isP2P = true
  · rw [if_pos hp2p] at h
    cases h
  rw [if_neg hp2p] at h ⊢
  by_cases hv2 : snapshot.product.isV2Shaped = true
  · rw [if_pos hv2, if_pos hv2]
  rw [if_neg hv2] at h
  rw [if_neg hv2, if_neg hv2]
  unfold evaluateV1 at h ⊢
  dsimp only at h ⊢
  split_ifs at h with hcategory
  · cases h
  · refine (if_neg hcategory).trans ?_
    rfl

/-- A rule of the card applies, or the card is of the second version. -/
def MarksOverride (rt : Runtime) (context : SpendContext) (card : RankedCard) : Prop :=
  card.isV2Shaped = true ∨ matchingRules rt card.toCardProduct context.toRecommendationContext ≠ []

/-- A forced card that is not valued by its base rate is marked. -/
theorem isOverride_of_marks (hforced : snapshot.isForced = true)
    (hin : (engine.evaluate rt context snapshot).isExcluded = false)
    (hmarks : MarksOverride rt context snapshot.product) :
    (engine.evaluate rt context snapshot).isOverride = true := by
  rw [evaluate_eq_of_not_excluded hin]
  split_ifs with hv2
  · rw [evaluateV2_isOverride, hforced]
  · obtain ⟨rule, rules, hrules⟩ := List.exists_cons_of_ne_nil (hmarks.resolve_left hv2)
    rw [hrules]
    exact hforced

/-- Valued by its base rate, a card has the same recommendation whether it is forced or not. -/
theorem evaluate_unforced (hmarks : ¬ MarksOverride rt context snapshot.product) :
    engine.evaluate rt context { snapshot with forcedOverrideCardId := none } =
      engine.evaluate rt context snapshot := by
  unfold MarksOverride at hmarks
  push Not at hmarks
  obtain ⟨hv1, hnone⟩ := hmarks
  simp only [RecommendationEngine.evaluate, evaluateV1, if_neg hv1, hnone, List.head?_nil]
  rfl

/-- Two cards that are in order stay as they are. -/
theorem ranked_pair {s t : RankedSnapshot}
    (h : (engine.evaluate rt context s).rankKey ≤ (engine.evaluate rt context t).rankKey) :
    engine.ranked rt context .insertion [s, t] =
      [(s, engine.evaluate rt context s), (t, engine.evaluate rt context t)] := by
  simp [RecommendationEngine.ranked, Sorting.insertion, sortBy, h]

/-- Two cards that are not in order are swapped. -/
theorem ranked_swap {s t : RankedSnapshot}
    (h : ¬ (engine.evaluate rt context s).rankKey ≤ (engine.evaluate rt context t).rankKey) :
    engine.ranked rt context .insertion [s, t] =
      [(t, engine.evaluate rt context t), (s, engine.evaluate rt context s)] := by
  simp [RecommendationEngine.ranked, Sorting.insertion, sortBy, h]

/-- What comes before an override is one. -/
theorem isOverride_of_rankKey_le {a b : Recommendation} (hle : a.rankKey ≤ b.rankKey) (hb : b.isOverride = true) :
    a.isOverride = true := by
  have hfirst : (!a.isOverride) ≤ (!b.isOverride) := by
    rcases Prod.Lex.toLex_le_toLex.mp hle with hlt | heq
    · exact hlt.le
    · exact heq.1.le
  rw [hb] at hfirst
  cases ha : a.isOverride with
  | true => rfl
  | false =>
    rw [ha] at hfirst
    exact absurd hfirst (by decide)

/-- A forced card with a recommendation comes before every card that is not forced, in every list and however the
sort orders ties, exactly where the card is of the second version or one of its rules applies. -/
theorem override_wins_iff (engine : RecommendationEngine) (rt : Runtime) (context : SpendContext)
    (snapshot : RankedSnapshot) (hforced : snapshot.isForced = true)
    (hin : (engine.evaluate rt context snapshot).isExcluded = false) :
    (∀ (sorting : Sorting.{0} RankKey) (snapshots : List RankedSnapshot), snapshot ∈ snapshots →
        (engine.ranked rt context sorting snapshots).Pairwise fun a b => b.1 = snapshot → a.1.isForced = true) ↔
      MarksOverride rt context snapshot.product := by
  constructor
  · intro hwins
    by_contra hmarks
    -- the same card, not forced, is listed first and is worth the same
    let twin : RankedSnapshot := { snapshot with forcedOverrideCardId := none }
    have htwin : twin.isForced = false := rfl
    have hsame : engine.evaluate rt context twin = engine.evaluate rt context snapshot := evaluate_unforced hmarks
    have hfirst := hwins .insertion [twin, snapshot] (by simp)
    rw [ranked_pair (congrArg Recommendation.rankKey hsame).le, List.pairwise_pair] at hfirst
    rw [hfirst rfl] at htwin
    cases htwin
  · intro hmarks sorting snapshots _
    have hsorted := sorting.pairwise (fun entry : RankedSnapshot × Recommendation => entry.2.rankKey)
      (snapshots.map fun s => (s, engine.evaluate rt context s))
    have hentry : ∀ entry ∈ engine.ranked rt context sorting snapshots,
        entry.2 = engine.evaluate rt context entry.1 := by
      intro entry hentry
      obtain ⟨s, -, rfl⟩ := List.mem_map.mp ((sorting.perm _ _).mem_iff.mp hentry)
      rfl
    refine List.Pairwise.imp_of_mem ?_ hsorted
    intro a b ha hb hle hsnapshot
    have hmark := isOverride_of_marks hforced hin hmarks
    rw [← hsnapshot, ← hentry b hb] at hmark
    have hmark' := isOverride_of_rankKey_le hle hmark
    rw [hentry a ha] at hmark'
    exact isForced_of_isOverride hmark'

/-- A dinner for a thousand rupees. -/
def dinner : SpendContext := { amount := 100000, categoryId := some (js "dining"), rail := .swipe }

/-- A card with five percent on dinners. -/
def diner : RankedCard where
  id := js "diner"
  rewardRules := [{ id := js "five", categoryId := some (js "dining"), unit := .cashbackPercent, rate := 5 }]

/-- A card with one percent on everything. -/
def plain : RankedCard where
  id := js "plain"
  baseRewardUnit := some .cashbackPercent
  baseRewardRate := some 1

/-- Rules with one id are one, and the sort is stable. -/
def plainRuntime : Runtime := ⟨⟨id, id, (· + 86400000)⟩, RewardRule.id, CapRule.id, MilestoneRule.id, .insertion⟩

theorem override_wins_iff_diner :
    (RecommendationEngine.ranked {} plainRuntime dinner .insertion
        [{ product := plain }, { product := diner, forcedOverrideCardId := some (js "diner") }]).Pairwise
      fun a b => b.1 = { product := diner, forcedOverrideCardId := some (js "diner") } → a.1.isForced = true :=
  (override_wins_iff {} plainRuntime dinner { product := diner, forcedOverrideCardId := some (js "diner") }
    (by decide) (by decide +kernel)).mpr
    (.inr fun h => absurd (congrArg List.length h) (by decide +kernel)) .insertion _ (by simp)

/-- The plain card is forced for the dinner, and the other one comes first. -/
theorem override_by_base_rate_loses :
    ¬ ∀ (engine : RecommendationEngine) (rt : Runtime) (context : SpendContext) (sorting : Sorting.{0} RankKey)
      (snapshots : List RankedSnapshot), ∀ snapshot ∈ snapshots, snapshot.isForced = true →
        (engine.evaluate rt context snapshot).isExcluded = false →
          (engine.ranked rt context sorting snapshots).Pairwise fun a b => b.1 = snapshot → a.1.isForced = true := by
  intro h
  have hpair := h {} plainRuntime dinner .insertion
    [{ product := plain, forcedOverrideCardId := some (js "plain") }, { product := diner }] _ List.mem_cons_self
    (by decide) (by decide +kernel)
  rw [ranked_swap (by decide +kernel), List.pairwise_pair] at hpair
  exact absurd (hpair rfl) (by decide)

end PandaPay.CardRewards.Dart
