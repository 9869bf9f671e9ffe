import PandaPay.CardRewards.Engine.Transaction
import PandaPay.CardRewards.Dart.Transaction
import PandaPay.Library.Keyset

/-!
# The choice of a rule does not depend on the order of the rules

The rules that apply are sorted by priority, value and id. Rules with distinct ids never tie, so both engines
choose the same rule for the same rules in any order, and rules that do not apply are not there for them.

## Main definitions

* `SameMoney`, `Dart.SameMoney`: results with the same money and the same consumption of caps

## Main results

* `choice_congr`, `Dart.selectRule_congr`: the choice, for the same applicable rules
* `rule_choice`: the order of the rules, and rules that do not apply
-/

namespace PandaPay.CardRewards

/-- The rules that pass a condition, in another order and with others that do not pass it. -/
theorem filter_perm_of_added {α : Type} {p : α → Bool} {l l' added : List α} (h : l'.Perm (l ++ added))
    (hadded : ∀ a ∈ added, p a = false) : (l'.filter p).Perm (l.filter p) := by
  have hnone : added.filter p = [] :=
    List.filter_eq_nil_iff.mpr fun a ha => by rw [hadded a ha]; exact Bool.false_ne_true
  have hfilter := h.filter p
  rwa [List.filter_append, hnone, List.append_nil] at hfilter

/-! ### The server -/

/-- `idKey(rule)`. -/
def idKey (rule : RewardRule) : JsString := rule.id.getD []

/-- Results with the same money and the same consumption of caps. -/
structure SameMoney (r r' : Reward) : Prop where
  points : r'.points = r.points
  cashbackInr : r'.cashbackInr = r.cashbackInr
  valueInr : r'.valueInr = r.valueInr
  capDeltas : r'.capDeltas = r.capDeltas

section Server

variable {host : Host} {card : Card} {rules rules' added : List RewardRule} {c : ResolvedContext}

theorem byPriority_congr (hids : (rules.map idKey).Nodup) (hperm : rules.Perm rules') (amount : ℚ)
    (modes : CardModes) : byPriority rules amount modes = byPriority rules' amount modes := by
  refine insertionSort_congr (fun rule => rank rule amount modes) (fun _ _ => Iff.rfl) hperm ?_
  intro a ha b hb hrank
  exact List.inj_on_of_nodup_map hids ha hb (congrArg (fun r => (ofLex (ofLex r).2).2) hrank)

theorem applicable_eq (rules : List RewardRule) :
    (rules.filter fun rule => !isV1Only rule).filter (fun rule => ruleAppliesV2 host rule c) =
      rules.filter fun rule => ruleAppliesV2 host rule c := by
  rw [List.filter_filter]
  refine List.filter_congr fun rule _ => ?_
  unfold ruleAppliesV2
  cases isV1Only rule <;> simp

/-- The choice sees of the rules those that apply. -/
theorem choice_congr (hids : (rules.map idKey).Nodup)
    (hperm : (rules'.filter fun rule => ruleAppliesV2 host rule c).Perm
      (rules.filter fun rule => ruleAppliesV2 host rule c)) :
    (pickRuleV2 host rules' c card).choice = (pickRuleV2 host rules c card).choice := by
  have hkept : ∀ p : RewardRule → Bool,
      (((rules.filter fun rule => ruleAppliesV2 host rule c).filter p).map idKey).Nodup := fun p =>
    ((List.filter_sublist.trans List.filter_sublist).map idKey).nodup hids
  have hsort := fun p : RewardRule → Bool =>
    byPriority_congr (hkept p) ((hperm.filter p).symm) c.amount (cardModes card)
  unfold pickRuleV2
  dsimp only
  rw [applicable_eq, applicable_eq, hsort, hsort]

/-- What is earned depends on the choice. -/
theorem sameMoney_of_choice {caps : List CapRule} {consumed : JsString → ℚ}
    (h : (pickRuleV2 host rules' c card).choice = (pickRuleV2 host rules c card).choice) :
    SameMoney (computeResolved host card rules caps consumed c)
      (computeResolved host card rules' caps consumed c) := by
  unfold computeResolved
  dsimp only
  split_ifs
  · exact ⟨rfl, rfl, rfl, rfl⟩
  · rw [h]
    cases (pickRuleV2 host rules c card).choice <;> exact ⟨rfl, rfl, rfl, rfl⟩

theorem isV2Card_of_added {caps : List CapRule} (h : isV2Card card rules caps = true)
    (hperm : rules'.Perm (rules ++ added)) : isV2Card card rules' caps = true := by
  unfold isV2Card at h ⊢
  rw [hperm.any_eq, List.any_append]
  simp only [Bool.or_eq_true] at h ⊢
  tauto

end Server

/-! ### The phone -/

namespace Dart

/-- Results with the same money and the same consumption of caps. -/
structure SameMoney (r r' : RewardEvaluation) : Prop where
  points : r'.points = r.points
  cashbackInr : r'.cashbackInr = r.cashbackInr
  valueInr : r'.valueInr = r.valueInr
  capDeltas : r'.capDeltas = r.capDeltas

section Phone

variable {host : Host} {card : CardProduct} {rules' added : List RewardRule}
  {context : RecommendationContext}

theorem byPriority_congr {rules rules' : List RewardRule} (hids : (rules.map RewardRule.id).Nodup)
    (hperm : rules.Perm rules') (modes : Modes) : byPriority modes rules = byPriority modes rules' := by
  refine insertionSort_congr (rank modes) (fun _ _ => Iff.rfl) hperm ?_
  intro a ha b hb hrank
  exact List.inj_on_of_nodup_map hids ha hb (congrArg (fun r => (ofLex (ofLex r).2).2) hrank)

/-- The choice sees of the rules those that apply. -/
theorem selectRule_congr {lineage : List JsString} (modes : Modes)
    (hids : (card.rewardRules.map RewardRule.id).Nodup)
    (hperm : (rules'.filter fun rule => rewardRuleAppliesV2 host rule context lineage).Perm
      (card.rewardRules.filter fun rule => rewardRuleAppliesV2 host rule context lineage)) :
    selectRule host modes { card with rewardRules := rules' } context lineage =
      selectRule host modes card context lineage := by
  have hkept : ∀ p : RewardRule → Bool,
      (((card.rewardRules.filter fun rule => rewardRuleAppliesV2 host rule context lineage).filter p).map
        RewardRule.id).Nodup := fun p =>
    ((List.filter_sublist.trans List.filter_sublist).map RewardRule.id).nodup hids
  have hsort := fun p : RewardRule → Bool => byPriority_congr (hkept p) ((hperm.filter p).symm) modes
  unfold selectRule
  dsimp only
  rw [hsort, hsort]
  rfl

/-- The merchant of a transaction and those above it. -/
def lineageOf (context : RecommendationContext) (directory : Option MerchantDirectory) : List JsString :=
  ((resolveMerchant context directory).1.map MerchantMatch.lineage).getD []

/-- What is earned depends on the choice. -/
theorem sameMoney_of_selection {consumed : JsString → ℚ} {directory : Option MerchantDirectory}
    (h : selectRule host (modesOf card context.amount) { card with rewardRules := rules' } context
        (lineageOf context directory) =
      selectRule host (modesOf card context.amount) card context (lineageOf context directory)) :
    SameMoney (computeRewardV2 host card context consumed directory)
      (computeRewardV2 host { card with rewardRules := rules' } context consumed directory) := by
  have hmodes : modesOf { card with rewardRules := rules' } context.amount = modesOf card context.amount := rfl
  have hpricing : ∀ rule, pricingOf { card with rewardRules := rules' } context consumed rule =
      pricingOf card context consumed rule := fun _ => rfl
  unfold computeRewardV2
  dsimp only
  rw [hmodes, ← lineageOf, h]
  by_cases hamount : context.amount ≤ 0
  · rw [if_pos hamount, if_pos hamount]
    exact ⟨rfl, rfl, rfl, rfl⟩
  · rw [if_neg hamount, if_neg hamount]
    split
    · exact ⟨rfl, rfl, rfl, rfl⟩
    · rw [hpricing]
      split <;> exact ⟨rfl, rfl, rfl, rfl⟩

theorem isV2Shaped_of_added (h : card.isV2Shaped = true) (hperm : rules'.Perm (card.rewardRules ++ added)) :
    CardProduct.isV2Shaped { card with rewardRules := rules' } = true := by
  unfold CardProduct.isV2Shaped at h ⊢
  dsimp only
  rw [hperm.any_eq, List.any_append]
  simp only [Bool.or_eq_true] at h ⊢
  tauto

end Phone

end Dart

/-! ### Both -/

/-- Rules with distinct ids are chosen from in any order, and a card of the second version earns the same
with rules that do not apply: those of the first version, those that only inform, and others. -/
theorem rule_choice :
    (∀ (host : Host) (rules rules' : List RewardRule) (c : ResolvedContext) (card : Card),
      (rules.map idKey).Nodup → rules'.Perm rules →
        (pickRuleV2 host rules' c card).choice = (pickRuleV2 host rules c card).choice) ∧
    (∀ (host : Host) (card : Card) (rules rules' added : List RewardRule) (caps : List CapRule)
        (directory : Option Directory) (consumed : JsString → ℚ) (ctx : Context),
      isV2Card card rules caps = true → (rules.map idKey).Nodup → rules'.Perm (rules ++ added) →
      (∀ rule ∈ added, isV1Only rule = true ∨ rule.role = .known .info ∨
        ruleAppliesV2 host rule (resolveContext directory ctx) = false) →
        isV2Card card rules' caps = true ∧
          SameMoney (computeTransactionRewardV2 host card rules caps directory consumed ctx)
            (computeTransactionRewardV2 host card rules' caps directory consumed ctx)) ∧
    (∀ (host : Host) (modes : Dart.Modes) (card : Dart.CardProduct) (rules' : List Dart.RewardRule)
        (context : Dart.RecommendationContext) (lineage : List JsString),
      (card.rewardRules.map Dart.RewardRule.id).Nodup → rules'.Perm card.rewardRules →
        Dart.selectRule host modes { card with rewardRules := rules' } context lineage =
          Dart.selectRule host modes card context lineage) ∧
    ∀ (host : Host) (card : Dart.CardProduct) (rules' added : List Dart.RewardRule)
        (context : Dart.RecommendationContext) (consumed : JsString → ℚ)
        (directory : Option Dart.MerchantDirectory),
      card.isV2Shaped = true → (card.rewardRules.map Dart.RewardRule.id).Nodup →
      rules'.Perm (card.rewardRules ++ added) →
      (∀ rule ∈ added, rule.isV1Only = true ∨ rule.effectiveRole = .info ∨
        Dart.rewardRuleAppliesV2 host rule context (Dart.lineageOf context directory) = false) →
        Dart.CardProduct.isV2Shaped { card with rewardRules := rules' } = true ∧
          Dart.SameMoney (Dart.computeRewardV2 host card context consumed directory)
            (Dart.computeRewardV2 host { card with rewardRules := rules' } context consumed directory) := by
  refine ⟨fun host rules rules' c card hids hperm => ?_,
    fun host card rules rules' added caps directory consumed ctx hv2 hids hperm hadded => ?_,
    fun host modes card rules' context lineage hids hperm => ?_,
    fun host card rules' added context consumed directory hv2 hids hperm hadded => ?_⟩
  · exact choice_congr hids (hperm.filter _)
  · refine ⟨isV2Card_of_added hv2 hperm, sameMoney_of_choice (choice_congr hids ?_)⟩
    refine filter_perm_of_added hperm fun rule hrule => ?_
    rcases hadded rule hrule with hv1 | hinfo | hnot
    · simp [ruleAppliesV2, hv1]
    · simp [ruleAppliesV2, hinfo]
    · exact hnot
  · exact Dart.selectRule_congr modes hids (hperm.filter _)
  · refine ⟨Dart.isV2Shaped_of_added hv2 hperm, ?_⟩
    refine Dart.sameMoney_of_selection (Dart.selectRule_congr _ hids ?_)
    refine filter_perm_of_added hperm fun rule hrule => ?_
    rcases hadded rule hrule with hv1 | hinfo | hnot
    · simp [Dart.rewardRuleAppliesV2, hv1]
    · simp [Dart.rewardRuleAppliesV2, hinfo]
    · exact hnot

/-- A rule that pays 5 percent, one that pays 2 percent, and one of the first version. -/
def fivePercent : RewardRule := { id := some (js "five"), unit := some (.known .cashbackPercent), rate := some 5 }

def twoPercent : RewardRule := { id := some (js "two"), unit := some (.known .cashbackPercent), rate := some 2 }

def oldPercent : RewardRule := { fivePercent with id := some (js "old"), maxEngineVersion := .value 1 }

/-- The same rules, on the phone. -/
def twoRules : Dart.CardProduct where
  rewardRules := [{ id := js "five", unit := .cashbackPercent, rate := 5 },
    { id := js "two", unit := .cashbackPercent, rate := 2 }]
  cashbackRounding := some .paise

/-- Two rules in either order, and a rule of the first version. -/
theorem rule_choice_swapped :
    (pickRuleV2 ⟨id, id, id⟩ [twoPercent, fivePercent] (resolveContext none { amount := 100 }) {}).choice =
        (pickRuleV2 ⟨id, id, id⟩ [fivePercent, twoPercent] (resolveContext none { amount := 100 }) {}).choice ∧
      SameMoney
        (computeTransactionRewardV2 ⟨id, id, id⟩ { cashbackRounding := some (.known .paise) } [fivePercent] [] none
          (fun _ => 0) { amount := 100 })
        (computeTransactionRewardV2 ⟨id, id, id⟩ { cashbackRounding := some (.known .paise) }
          [fivePercent, oldPercent] [] none (fun _ => 0) { amount := 100 }) ∧
      Dart.selectRule ⟨id, id, id⟩ (Dart.modesOf twoRules 10000)
          { twoRules with rewardRules := twoRules.rewardRules.reverse } { amount := 10000 } [] =
        Dart.selectRule ⟨id, id, id⟩ (Dart.modesOf twoRules 10000) twoRules { amount := 10000 } [] ∧
      Dart.SameMoney (Dart.computeRewardV2 ⟨id, id, id⟩ twoRules { amount := 10000 } (fun _ => 0) none)
        (Dart.computeRewardV2 ⟨id, id, id⟩
          { twoRules with rewardRules := twoRules.rewardRules ++
            [{ id := js "old", unit := .cashbackPercent, rate := 5, maxEngineVersion := some 1 }] }
          { amount := 10000 } (fun _ => 0) none) :=
  ⟨rule_choice.1 _ _ _ _ _ (by decide) (.swap _ _ _),
    (rule_choice.2.1 _ _ _ _ [oldPercent] _ _ _ _ rfl (by decide) (.refl _)
      fun _ h => .inl (by rw [List.mem_singleton.mp h]; rfl)).2,
    rule_choice.2.2.1 _ _ _ _ _ _ (by decide) (List.reverse_perm _),
    (rule_choice.2.2.2 _ _ _ [_] _ _ _ rfl (by decide) (.refl _)
      fun _ h => .inl (by rw [List.mem_singleton.mp h]; rfl)).2⟩

end PandaPay.CardRewards
