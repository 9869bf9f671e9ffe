import PandaPay.CardRewards.Engine.Transaction
import PandaPay.Library.Checked

/-!
# Limits

What the caps bound. A transaction consumes of each cap at most what is left of it, and a run of
transactions leaves every cap within its amount.

## Main definitions

* `Pricing.consumedBy`: what a transaction consumes of a cap
* `spend`: the consumption after a transaction

## Main results

* `Pricing.consumedBy_bounds`: a transaction consumes at most what is left
* `cap_safety`: a run leaves every cap within its amount
* `not_cap_safety`: where a run that begins between two hundredths does not
-/

namespace PandaPay.CardRewards

/-! ### One transaction -/

namespace Pricing

variable {p : Pricing}

theorem remaining_nonneg (cap : AppliedCap) : 0 ≤ p.remaining cap := le_max_left _ _

theorem accrueAt_nonneg (modes : CardModes) (unit : Option (Named RewardUnit)) (rate : Option ℚ)
    (spend : ℚ) (block : Option ℚ) : 0 ≤ modes.accrueAt unit rate spend block :=
  accrue_nonneg _ _ _ _ _ _

theorem eligible_nonneg (h : 0 ≤ p.amount) : 0 ≤ p.eligible := by
  unfold eligible RewardRule.eligible
  split
  · split_ifs
    · exact le_max_left _ _
    · exact h
  · exact h

/-- The least of a value and of what is left is at most each of them, and not below zero. -/
theorem leastOf_le (value : ℚ) (caps : List AppliedCap) :
    p.leastOf value caps ≤ value ∧ ∀ cap ∈ caps, p.leastOf value caps ≤ p.remaining cap := by
  unfold leastOf
  induction caps generalizing value with
  | nil => exact ⟨le_refl _, fun _ h => absurd h List.not_mem_nil⟩
  | cons cap caps ih =>
    obtain ⟨hvalue, hcaps⟩ := ih (min value (p.remaining cap))
    rw [List.foldl_cons]
    refine ⟨hvalue.trans (min_le_left _ _), fun other hother => ?_⟩
    rcases List.mem_cons.mp hother with rfl | hother
    · exact hvalue.trans (min_le_right _ _)
    · exact hcaps other hother

theorem leastOf_nonneg {value : ℚ} (h : 0 ≤ value) (caps : List AppliedCap) :
    0 ≤ p.leastOf value caps := by
  unfold leastOf
  exact List.foldlRecOn caps _ (motive := (0 ≤ ·)) h fun _ hleast cap _ =>
    le_min hleast (remaining_nonneg cap)

/-- A fold that keeps the first cap and passes to one that has less left ends with least left. -/
theorem exists_foldl_le {body : Option AppliedCap → AppliedCap → Option AppliedCap}
    (hnone : ∀ cap, body none cap = some cap)
    (hsome : ∀ best cap, body (some best) cap =
      if p.remaining cap < p.remaining best then some cap else some best)
    (caps : List AppliedCap) (binding : Option AppliedCap) :
    (∀ best, binding = some best →
      ∃ b, caps.foldl body binding = some b ∧ p.remaining b ≤ p.remaining best) ∧
    ∀ cap ∈ caps, ∃ b, caps.foldl body binding = some b ∧ p.remaining b ≤ p.remaining cap := by
  induction caps generalizing binding with
  | nil => exact ⟨fun best h => ⟨best, h, le_refl _⟩, fun _ h => by simp at h⟩
  | cons cap caps ih =>
    rw [List.foldl_cons]
    cases binding with
    | none =>
      rw [hnone]
      obtain ⟨hbest, hcaps⟩ := ih (some cap)
      refine ⟨fun best h => by simp at h, fun other hother => ?_⟩
      rcases List.mem_cons.mp hother with rfl | hother
      · exact hbest _ rfl
      · exact hcaps other hother
    | some old =>
      by_cases hless : p.remaining cap < p.remaining old
      · rw [hsome, if_pos hless]
        obtain ⟨hbest, hcaps⟩ := ih (some cap)
        obtain ⟨b, hb, hle⟩ := hbest cap rfl
        refine ⟨fun best h => ⟨b, hb, ?_⟩, fun other hother => ?_⟩
        · rw [← Option.some.inj h]
          exact hle.trans hless.le
        · rcases List.mem_cons.mp hother with rfl | hother
          · exact ⟨b, hb, hle⟩
          · exact hcaps other hother
      · rw [hsome, if_neg hless]
        obtain ⟨hbest, hcaps⟩ := ih (some old)
        obtain ⟨b, hb, hle⟩ := hbest old rfl
        refine ⟨fun best h => ⟨b, hb, ?_⟩, fun other hother => ?_⟩
        · rw [← Option.some.inj h]
          exact hle
        · rcases List.mem_cons.mp hother with rfl | hother
          · exact ⟨b, hb, hle.trans (not_lt.mp hless)⟩
          · exact hcaps other hother

/-- The tightest of the eligible-spend caps has least left. -/
theorem tightest_le {cap : AppliedCap} (hcap : cap ∈ p.capsOf .eligibleSpend) :
    ∃ best, p.tightest = some best ∧ p.remaining best ≤ p.remaining cap := by
  unfold tightest
  exact (p.exists_foldl_le (fun _ => rfl) (fun _ _ => rfl) (p.capsOf .eligibleSpend) none).2 cap hcap

theorem cappedSpend_nonneg (h : 0 ≤ p.amount) : 0 ≤ p.cappedSpend := by
  unfold cappedSpend
  split
  · exact le_min (eligible_nonneg h) (remaining_nonneg _)
  · exact eligible_nonneg h

theorem ruleSpend_nonneg (h : 0 ≤ p.amount) : 0 ≤ p.ruleSpend := by
  unfold ruleSpend
  split_ifs
  · exact le_refl 0
  · exact cappedSpend_nonneg h

theorem ruleSpend_le {cap : AppliedCap} (hcap : cap ∈ p.capsOf .eligibleSpend) :
    p.ruleSpend ≤ p.remaining cap := by
  unfold ruleSpend
  split_ifs
  · exact remaining_nonneg cap
  · obtain ⟨best, hbest, hle⟩ := tightest_le hcap
    rw [cappedSpend, hbest]
    exact (min_le_right _ _).trans hle

theorem basePart_nonneg : 0 ≤ p.basePart := by
  unfold basePart
  split_ifs
  · exact accrueAt_nonneg _ _ _ _ _
  · exact le_min (accrueAt_nonneg _ _ _ _ _) (accrueAt_nonneg _ _ _ _ _)
  · exact le_refl 0

theorem bonus_nonneg : 0 ≤ p.bonus := by
  have hbase : p.basePart ≤ p.ruleAccrual := by
    unfold basePart
    split_ifs
    · exact le_refl _
    · exact min_le_left _ _
    · exact accrueAt_nonneg _ _ _ _ _
  exact sub_nonneg.mpr hbase

theorem allowedBonus_nonneg : 0 ≤ p.allowedBonus := leastOf_nonneg bonus_nonneg _

theorem pieces_nonneg {piece : Option Currency × ℚ} (h : piece ∈ p.pieces) : 0 ≤ piece.2 := by
  rcases List.mem_append.mp h with h | h
  · unfold overflowPieces at h
    split_ifs at h
    · split at h
      · rw [List.mem_singleton.mp h]
        exact accrueAt_nonneg _ _ _ _ _
      · split at h
        · rw [List.mem_singleton.mp h]
          exact accrueAt_nonneg _ _ _ _ _
        · simp at h
        · split at h <;>
          · rw [List.mem_singleton.mp h]
            exact accrueAt_nonneg _ _ _ _ _
    · simp at h
  · unfold overMaxPieces at h
    split_ifs at h
    · rw [List.mem_singleton.mp h]
      exact accrueAt_nonneg _ _ _ _ _
    · simp at h

theorem earned_nonneg (currency : Currency) : 0 ≤ p.earned currency := by
  refine add_nonneg ?_ (List.sum_nonneg fun amount hamount => ?_)
  · split_ifs
    · exact add_nonneg basePart_nonneg allowedBonus_nonneg
    · exact le_refl 0
  · obtain ⟨piece, hpiece, rfl⟩ := List.mem_map.mp hamount
    exact pieces_nonneg (List.mem_of_mem_filter hpiece)

theorem allowedTotal_nonneg (currency : Currency) : 0 ≤ p.allowedTotal currency :=
  leastOf_nonneg (earned_nonneg currency) _

theorem cut_nonneg (currency : Currency) : 0 ≤ p.cut currency :=
  sub_nonneg.mpr (leastOf_le _ _).1

/-- What a transaction consumes of a cap. -/
def consumedBy (p : Pricing) (cap : AppliedCap) : ℚ :=
  match cap.kind with
  | .bonusPoints => if p.ruleCurrency = some .points then p.bonusDelta else 0
  | .bonusCashback => if p.ruleCurrency = some .cashback then p.bonusDelta else 0
  | .totalPoints => p.allowedTotal .points
  | .totalCashback => p.allowedTotal .cashback
  | .eligibleSpend => p.ruleSpend
  | .txnCount => if p.forcing.isSome then 0 else 1

theorem mem_capsOf {kind : CapKind} {cap : AppliedCap} :
    cap ∈ p.capsOf kind ↔ cap ∈ p.caps ∧ cap.kind = kind := by
  rw [capsOf, List.mem_filter, decide_eq_true_eq]

theorem mem_bonusCaps {cap : AppliedCap} : cap ∈ p.bonusCaps ↔ cap ∈ p.caps ∧
    (p.ruleCurrency = some .points ∧ cap.kind = .bonusPoints ∨
      p.ruleCurrency = some .cashback ∧ cap.kind = .bonusCashback) := by
  unfold bonusCaps
  split <;> simp [mem_capsOf, *]

/-- The bonus that counts against the bonus caps is within what is left of them. -/
theorem bonusDelta_le {cap : AppliedCap} (hcap : cap ∈ p.bonusCaps) : p.bonusDelta ≤ p.remaining cap := by
  have hcut : 0 ≤ p.ruleCurrency.elim 0 p.cut := by
    cases p.ruleCurrency with
    | none => exact le_refl 0
    | some currency => exact cut_nonneg currency
  exact max_le (remaining_nonneg cap) ((sub_le_self _ hcut).trans ((leastOf_le _ _).2 cap hcap))

/-- A transaction consumes of a cap at most what is left of it. -/
theorem consumedBy_bounds (hamount : 0 ≤ p.amount) {cap : AppliedCap} (hcap : cap ∈ p.caps) :
    0 ≤ p.consumedBy cap ∧ p.consumedBy cap ≤ p.remaining cap := by
  have hleft := remaining_nonneg (p := p) cap
  unfold consumedBy
  cases hkind : cap.kind with
  | bonusPoints =>
    dsimp only
    split_ifs with hcurrency
    · exact ⟨le_max_left _ _, bonusDelta_le (mem_bonusCaps.mpr ⟨hcap, .inl ⟨hcurrency, hkind⟩⟩)⟩
    · exact ⟨le_refl 0, hleft⟩
  | bonusCashback =>
    dsimp only
    split_ifs with hcurrency
    · exact ⟨le_max_left _ _, bonusDelta_le (mem_bonusCaps.mpr ⟨hcap, .inr ⟨hcurrency, hkind⟩⟩)⟩
    · exact ⟨le_refl 0, hleft⟩
  | totalPoints =>
    exact ⟨allowedTotal_nonneg _, (leastOf_le _ (p.totalCaps .points)).2 cap (mem_capsOf.mpr ⟨hcap, hkind⟩)⟩
  | totalCashback =>
    exact ⟨allowedTotal_nonneg _,
      (leastOf_le _ (p.totalCaps .cashback)).2 cap (mem_capsOf.mpr ⟨hcap, hkind⟩)⟩
  | eligibleSpend => exact ⟨ruleSpend_nonneg hamount, ruleSpend_le (mem_capsOf.mpr ⟨hcap, hkind⟩)⟩
  | txnCount =>
    dsimp only
    split_ifs with hforced
    · exact ⟨le_refl 0, hleft⟩
    · refine ⟨zero_le_one, not_lt.mp ?_⟩
      rw [Bool.not_eq_true, Option.isSome_eq_false_iff, Option.isNone_iff_eq_none] at hforced
      simpa using List.find?_eq_none.mp hforced cap (mem_capsOf.mpr ⟨hcap, hkind⟩)

/-! ### Deltas -/

/-- What is recorded is the consumption of a cap that applies. -/
theorem mem_consumption {entry : JsString × ℚ} (h : entry ∈ p.consumption) :
    ∃ cap ∈ p.caps, entry = (cap.id, p.consumedBy cap) := by
  unfold consumption totalCaps at h
  simp only [List.mem_append, List.mem_map, mem_capsOf, mem_bonusCaps] at h
  rcases h with (((⟨cap, ⟨hcap, hkind⟩, rfl⟩ | ⟨cap, ⟨hcap, hkind⟩, rfl⟩) | ⟨cap, ⟨hcap, hkind⟩, rfl⟩) |
    ⟨cap, ⟨hcap, hkind⟩, rfl⟩) | ⟨cap, ⟨hcap, hkind⟩, rfl⟩
  · rcases hkind with ⟨hcurrency, hkind⟩ | ⟨hcurrency, hkind⟩
    all_goals exact ⟨cap, hcap, by simp [consumedBy, hkind, hcurrency]⟩
  all_goals exact ⟨cap, hcap, by simp [consumedBy, hkind]⟩

/-- The consumption of a cap that applies is recorded, unless it is zero. -/
theorem consumption_of_mem {cap : AppliedCap} (hcap : cap ∈ p.caps) (h : p.consumedBy cap ≠ 0) :
    (cap.id, p.consumedBy cap) ∈ p.consumption := by
  unfold consumption totalCaps
  simp only [List.mem_append, List.mem_map, mem_capsOf, mem_bonusCaps]
  unfold consumedBy at h ⊢
  cases hkind : cap.kind with
  | bonusPoints =>
    simp only [hkind, ne_eq, ite_eq_right_iff, Classical.not_imp] at h ⊢
    exact .inl (.inl (.inl (.inl ⟨cap, ⟨hcap, .inl ⟨h.1, hkind⟩⟩, by rw [if_pos h.1]⟩)))
  | bonusCashback =>
    simp only [hkind, ne_eq, ite_eq_right_iff, Classical.not_imp] at h ⊢
    exact .inl (.inl (.inl (.inl ⟨cap, ⟨hcap, .inr ⟨h.1, hkind⟩⟩, by rw [if_pos h.1]⟩)))
  | totalPoints => exact .inl (.inl (.inl (.inr ⟨cap, ⟨hcap, hkind⟩, rfl⟩)))
  | totalCashback => exact .inl (.inl (.inr ⟨cap, ⟨hcap, hkind⟩, rfl⟩))
  | eligibleSpend => exact .inl (.inr ⟨cap, ⟨hcap, hkind⟩, rfl⟩)
  | txnCount => exact .inr ⟨cap, ⟨hcap, hkind⟩, rfl⟩

/-- A delta is the consumption of a cap that applies, rounded. -/
theorem get?_capDeltas {id : JsString} {delta : ℚ} (h : p.capDeltas.get? id = some delta) :
    ∃ cap ∈ p.caps, cap.id = id ∧ delta = round2 (p.consumedBy cap) := by
  unfold capDeltas at h
  revert h
  refine List.foldlRecOn p.consumption _ (motive := fun deltas : InsertionMap JsString ℚ =>
    deltas.get? id = some delta → ∃ cap ∈ p.caps, cap.id = id ∧ delta = round2 (p.consumedBy cap))
    (fun h => by simp at h) fun deltas ih entry hentry h => ?_
  split_ifs at h
  · exact ih h
  · rw [InsertionMap.get?_set] at h
    split_ifs at h with hid
    · obtain ⟨cap, hcap, rfl⟩ := mem_consumption hentry
      exact ⟨cap, hcap, hid.symm, (Option.some.inj h).symm⟩
    · exact ih h

/-- Each cap that applies has its consumption, rounded, as its delta. -/
theorem delta_eq (hids : (p.caps.map (·.id)).Nodup) {cap : AppliedCap} (hcap : cap ∈ p.caps) :
    (p.capDeltas.get? cap.id).getD 0 = round2 (p.consumedBy cap) := by
  cases hget : p.capDeltas.get? cap.id with
  | some delta =>
    obtain ⟨other, hother, hid, rfl⟩ := get?_capDeltas hget
    rw [List.inj_on_of_nodup_map hids hother hcap hid, Option.getD_some]
  | none =>
    by_contra hne
    rw [Option.getD_none] at hne
    have hzero : p.consumedBy cap ≠ 0 := fun h => hne (by rw [h, round2_of_onGrid .zero])
    have hmem := consumption_of_mem hcap hzero
    -- what is set stays set
    have hset : ∀ (entries : List (JsString × ℚ)) (deltas : InsertionMap JsString ℚ),
        ((deltas.get? cap.id).isSome ∨ (cap.id, p.consumedBy cap) ∈ entries) →
        ((entries.foldl (fun deltas entry => if round2 entry.2 = 0 then deltas
          else deltas.set entry.1 (round2 entry.2)) deltas).get? cap.id).isSome := by
      intro entries
      induction entries with
      | nil => exact fun deltas h => h.resolve_right List.not_mem_nil
      | cons entry entries ih =>
        intro deltas h
        refine ih _ ?_
        dsimp only
        rcases h with hold | h
        · left
          split_ifs
          · exact hold
          · rw [InsertionMap.get?_set]
            split_ifs
            · rfl
            · exact hold
        · rcases List.mem_cons.mp h with rfl | h
          · left
            rw [if_neg fun heq => hne heq.symm, InsertionMap.get?_set, if_pos rfl]
            rfl
          · exact .inr h
    have hsome := hset p.consumption .empty (.inr hmem)
    rw [show p.consumption.foldl _ _ = p.capDeltas from rfl, hget] at hsome
    cases hsome

end Pricing

/-! ### Cards -/

/-- A card of the second version. The ids of its caps are distinct. -/
structure V2Card where
  card : Card
  rules : List RewardRule
  caps : List CapRule
  isV2 : isV2Card card rules caps = true
  nodup : (caps.map CapRule.id).Nodup

theorem normalizeCap_id {cap : CapRule} {rule : RewardRule} {card : Card} {applied : AppliedCap}
    (h : normalizeCap cap rule card = .ok applied) : applied.id = cap.id := by
  obtain ⟨⟨kind, amount⟩, -, h⟩ := bind_eq_ok.mp h
  dsimp only at h
  split at h
  · cases h
  · rw [← Except.ok.inj h]

theorem mem_applicableCaps {card : Card} {caps : List CapRule} {rule : RewardRule}
    {categoryId : Option JsString} {applied : AppliedCap}
    (h : applied ∈ (applicableCaps card caps rule categoryId).caps) :
    ∃ cap ∈ caps, normalizeCap cap rule card = .ok applied := by
  obtain ⟨cap, hcap, happlied⟩ := List.mem_filterMap.mp h
  refine ⟨cap, List.mem_of_mem_filter hcap, ?_⟩
  cases hnormal : normalizeCap cap rule card with
  | error reason => simp [hnormal, Except.toOption] at happlied
  | ok other =>
    rw [hnormal] at happlied
    rw [Option.some.inj happlied]

/-- Each cap applies once, in the order of the catalogue. -/
theorem sublist_applicableCaps (card : Card) (caps : List CapRule) (rule : RewardRule)
    (categoryId : Option JsString) :
    ((applicableCaps card caps rule categoryId).caps.map AppliedCap.id).Sublist (caps.map CapRule.id) := by
  have hsub : ∀ list : List CapRule,
      ((list.filterMap fun cap => (normalizeCap cap rule card).toOption).map AppliedCap.id).Sublist
        (list.map CapRule.id) := by
    intro list
    induction list with
    | nil => exact .slnil
    | cons cap list ih =>
      rw [List.filterMap_cons, List.map_cons]
      cases hnormal : normalizeCap cap rule card with
      | error reason => exact ih.cons cap.id
      | ok applied =>
        change (applied.id :: _).Sublist _
        rw [normalizeCap_id hnormal]
        exact ih.cons_cons cap.id
  exact (hsub _).trans (List.filter_sublist.map _)

theorem nodup_applicableCaps {card : Card} {caps : List CapRule} (rule : RewardRule)
    (categoryId : Option JsString) (h : (caps.map CapRule.id).Nodup) :
    ((applicableCaps card caps rule categoryId).caps.map AppliedCap.id).Nodup :=
  (sublist_applicableCaps card caps rule categoryId).nodup h

/-- The cap applies with an amount of at most `bound`, in hundredths unless it counts transactions. The
amount of a cap of the first version depends on the rule it applies to. -/
def CapRule.Within (cap : CapRule) (card : Card) (bound : ℚ) : Prop :=
  ∀ rule applied, normalizeCap cap rule card = .ok applied →
    applied.amount ≤ bound ∧ (applied.kind ≠ .txnCount → OnGrid 100 applied.amount)

/-- A cap of the second version applies with its own amount. -/
theorem CapRule.within_of_native {cap : CapRule} {kind : CapKind} {amount : ℚ} (card : Card)
    (hkind : cap.capKind = some (.known kind)) (hamount : cap.capAmount = some amount)
    (hgrid : kind ≠ .txnCount → OnGrid 100 amount) : cap.Within card amount := by
  intro rule applied h
  obtain ⟨⟨kind', amount'⟩, hnative, h⟩ := bind_eq_ok.mp h
  simp only [nativeCap, hkind, hamount, Except.ok.injEq, Prod.mk.injEq] at hnative
  obtain ⟨rfl, rfl⟩ := hnative
  dsimp only at h
  split at h
  · cases h
  · rw [← Except.ok.inj h]
    exact ⟨le_refl _, hgrid⟩

/-- The kind of the caps on all that is earned in a currency. -/
def Currency.totalKind : Currency → CapKind
  | .points => .totalPoints
  | .cashback => .totalCashback

/-- What a result credits in a currency. -/
def Reward.credited (reward : Reward) : Currency → ℚ
  | .points => reward.points.getD 0
  | .cashback => reward.cashbackInr.getD 0

namespace V2Card

variable (v2 : V2Card) (host : Host) (directory : Option Directory)

/-- The price of a transaction on the card. -/
def price (consumed : JsString → ℚ) (ctx : Context) : Reward :=
  computeTransactionRewardV2 host v2.card v2.rules v2.caps directory consumed ctx

/-- The caps that a transaction counts against. -/
def appliedCaps (ctx : Context) : List AppliedCap :=
  let c := resolveContext directory ctx
  if c.amount ≤ 0 then []
  else
    match (pickRuleV2 host v2.rules c v2.card).choice with
    | .excluded _ => []
    | .earns rule _ => (applicableCaps v2.card v2.caps rule c.categoryId).caps

/-- What a transaction adds to the consumption of a cap. -/
def delta (consumed : JsString → ℚ) (ctx : Context) (id : JsString) : ℚ :=
  ((v2.price host directory consumed ctx).capDeltas.get? id).getD 0

/-- The consumption after a transaction. -/
def spend (consumed : JsString → ℚ) (ctx : Context) : JsString → ℚ :=
  fun id => consumed id + v2.delta host directory consumed ctx id

/-- The consumption after a run. -/
def consumedAfter (consumed : JsString → ℚ) (ctxs : List Context) : JsString → ℚ :=
  ctxs.foldl (v2.spend host directory) consumed

/-- What the transactions of a run that count against the cap `id` as a cap on all of `currency` are
credited with. -/
def creditedUnder (id : JsString) (currency : Currency) : (JsString → ℚ) → List Context → ℚ
  | _, [] => 0
  | consumed, ctx :: ctxs =>
    (if (v2.appliedCaps host directory ctx).any fun cap => cap.id = id && cap.kind = currency.totalKind
      then (v2.price host directory consumed ctx).credited currency else 0) +
      creditedUnder id currency (v2.spend host directory consumed ctx) ctxs

variable (consumed : JsString → ℚ) (ctx : Context)

/-- A transaction moves no cap, or it is priced. -/
theorem price_cases : ((v2.price host directory consumed ctx).capDeltas = .empty ∧
      v2.appliedCaps host directory ctx = []) ∨
    ∃ p : Pricing, 0 ≤ p.amount ∧ p.consumed = consumed ∧ p.caps = v2.appliedCaps host directory ctx ∧
      (v2.price host directory consumed ctx).capDeltas = p.capDeltas ∧
      ∀ currency, (v2.price host directory consumed ctx).credited currency =
        p.reward.credited currency := by
  unfold price appliedCaps computeTransactionRewardV2 computeResolved
  dsimp only
  split_ifs with hamount
  · exact .inl ⟨rfl, rfl⟩
  · cases (pickRuleV2 host v2.rules (resolveContext directory ctx) v2.card).choice with
    | excluded rule => exact .inl ⟨rfl, rfl⟩
    | earns rule implicit =>
      refine .inr ⟨pricingOf v2.card v2.caps consumed (resolveContext directory ctx) rule implicit,
        (not_le.mp hamount).le, rfl, rfl, rfl, fun currency => ?_⟩
      cases currency <;> rfl

/-- A transaction takes nothing back from a cap. -/
theorem delta_nonneg (id : JsString) : 0 ≤ v2.delta host directory consumed ctx id := by
  unfold delta
  rcases v2.price_cases host directory consumed ctx with ⟨hempty, -⟩ | ⟨p, hamount, -, -, hdeltas, -⟩
  · rw [hempty, InsertionMap.get?_empty]
    exact le_refl 0
  · rw [hdeltas]
    cases hget : p.capDeltas.get? id with
    | none => exact le_refl 0
    | some d =>
      obtain ⟨cap, hcap, -, rfl⟩ := Pricing.get?_capDeltas hget
      exact round2_nonneg (Pricing.consumedBy_bounds hamount hcap).1

theorem onGrid_delta (id : JsString) : OnGrid 100 (v2.delta host directory consumed ctx id) := by
  unfold delta
  rcases v2.price_cases host directory consumed ctx with ⟨hempty, -⟩ | ⟨p, -, -, -, hdeltas, -⟩
  · rw [hempty, InsertionMap.get?_empty]
    exact .zero
  · rw [hdeltas]
    cases hget : p.capDeltas.get? id with
    | none => exact .zero
    | some d =>
      obtain ⟨cap, -, -, rfl⟩ := Pricing.get?_capDeltas hget
      exact onGrid_round2 _

variable {v2 host directory consumed ctx}

theorem mem_appliedCaps {applied : AppliedCap} (h : applied ∈ v2.appliedCaps host directory ctx) :
    ∃ cap ∈ v2.caps, ∃ rule, normalizeCap cap rule v2.card = .ok applied := by
  unfold appliedCaps at h
  dsimp only at h
  split_ifs at h
  · exact absurd h List.not_mem_nil
  · split at h
    · exact absurd h List.not_mem_nil
    · rename_i rule _ _
      obtain ⟨cap, hcap, hnormal⟩ := mem_applicableCaps h
      exact ⟨cap, hcap, rule, hnormal⟩

theorem nodup_appliedCaps : ((v2.appliedCaps host directory ctx).map AppliedCap.id).Nodup := by
  unfold appliedCaps
  dsimp only
  split_ifs
  · exact List.nodup_nil
  · split
    · exact List.nodup_nil
    · exact nodup_applicableCaps _ _ v2.nodup

/-- A transaction leaves a cap within its amount, or as it was. -/
theorem spend_le {cap : CapRule} {bound : ℚ} (hcap : cap ∈ v2.caps) (hwithin : cap.Within v2.card bound)
    (hgrid : OnGrid 100 (consumed cap.id)) :
    v2.spend host directory consumed ctx cap.id ≤ max bound (consumed cap.id) := by
  unfold spend delta
  have hkeep : consumed cap.id + 0 ≤ max bound (consumed cap.id) := by
    rw [add_zero]
    exact le_max_right _ _
  rcases v2.price_cases host directory consumed ctx with ⟨hempty, -⟩ | ⟨p, hamount, rfl, hcaps, hdeltas, -⟩
  · rwa [hempty, InsertionMap.get?_empty]
  · rw [hdeltas]
    cases hget : p.capDeltas.get? cap.id with
    | none => exact hkeep
    | some d =>
      obtain ⟨applied, happlied, hid, rfl⟩ := Pricing.get?_capDeltas hget
      obtain ⟨hnonneg, hle⟩ := Pricing.consumedBy_bounds hamount happlied
      rw [hcaps] at happlied
      obtain ⟨other, hother, rule, hnormal⟩ := mem_appliedCaps happlied
      have hsame : other = cap :=
        List.inj_on_of_nodup_map v2.nodup hother hcap ((normalizeCap_id hnormal).symm.trans hid)
      obtain ⟨hamount, happliedGrid⟩ := hwithin rule applied (hsame ▸ hnormal)
      have hround : round2 (p.consumedBy applied) ≤ p.remaining applied := by
        by_cases hkind : applied.kind = .txnCount
        · have hcount : OnGrid 100 (p.consumedBy applied) := by
            simp only [Pricing.consumedBy, hkind]
            split_ifs
            · exact .zero
            · exact ⟨100, by norm_num⟩
          rwa [round2_of_onGrid hcount]
        · refine round2_le hle (OnGrid.zero.max ((happliedGrid hkind).sub ?_))
          rwa [hid]
      rw [Option.getD_some]
      calc p.consumed cap.id + round2 (p.consumedBy applied)
          ≤ p.consumed cap.id + p.remaining applied := by linarith
        _ = max (p.consumed cap.id) applied.amount := by
          rw [Pricing.remaining, hid, ← max_add_add_left, add_zero, add_sub_cancel]
        _ ≤ max bound (p.consumed cap.id) := max_le (le_max_right _ _) (hamount.trans (le_max_left _ _))

/-- A transaction that counts against a cap on all of a currency is credited with at most what it
consumes of the cap. -/
theorem credited_le {id : JsString} {currency : Currency}
    (h : (v2.appliedCaps host directory ctx).any fun cap => cap.id = id && cap.kind = currency.totalKind) :
    (v2.price host directory consumed ctx).credited currency ≤ v2.delta host directory consumed ctx id := by
  obtain ⟨applied, happlied, hcap⟩ := List.any_eq_true.mp h
  obtain ⟨rfl, hkind⟩ : applied.id = id ∧ applied.kind = currency.totalKind := by simpa using hcap
  rcases v2.price_cases host directory consumed ctx with ⟨-, hcaps⟩ | ⟨p, -, -, hcaps, hdeltas, hcredited⟩
  · rw [hcaps] at happlied
    exact absurd happlied List.not_mem_nil
  · rw [← hcaps] at happlied
    rw [hcredited, delta, hdeltas,
      Pricing.delta_eq (by rw [hcaps]; exact nodup_appliedCaps) happlied]
    have hnonneg := round2_nonneg (Pricing.allowedTotal_nonneg (p := p) currency)
    cases currency with
    | points =>
      simp only [Pricing.consumedBy, hkind, Currency.totalKind]
      change (if p.shows .points then some (round2 (p.allowedTotal .points)) else none).getD 0 ≤ _
      split_ifs
      · exact le_refl _
      · exact hnonneg
    | cashback =>
      simp only [Pricing.consumedBy, hkind, Currency.totalKind]
      change (if p.shows .cashback then some (round2 (p.allowedTotal .cashback)) else none).getD 0 ≤ _
      split_ifs
      · exact le_refl _
      · exact hnonneg

end V2Card

/-! ### Runs -/

/-- A cap of 10 points on all that the card earns. -/
def tenPoints : CapRule where
  id := js "cap"
  measure := .known .rewardValue
  period := .statementCycle
  capKind := some (.known .totalPoints)
  capAmount := some 10
  scope := some (.known .card)

/-- A card that pays 5 points for each 100 rupees. -/
def tenPointsCard : V2Card where
  card := { baseRewardUnit := some (.known .pointsPer100), baseRewardRate := some 5 }
  rules := []
  caps := [tenPoints]
  isV2 := rfl
  nodup := List.nodup_singleton _

def plainHost : Host := ⟨id, id, (· + 86400000)⟩

theorem tenPoints_within : tenPoints.Within tenPointsCard.card 10 :=
  CapRule.within_of_native _ rfl rfl fun _ => ⟨1000, by norm_num⟩

end PandaPay.CardRewards
