import PandaPay.CardRewards.Engine.Limits
import PandaPay.CardRewards.Dart.Transaction

/-!
# What a transaction is split into, and what it earns

Both engines split the spend of a transaction into the part at the rate of the rule, the part over the caps
on spend and the part over the maximum of the rule. What is earned in a currency is the base part, the bonus
that its caps allow and what the rest earns, less what the caps on the total cut.

## Main definitions

* `Account`: the parts of a transaction
* `Account.Conserves`: the parts add up, and the result reports them

## Main results

* `Pricing.conserves`, `Dart.Pricing.conserves`: a priced transaction
* `spend_and_reward_conserved`: both engines
* `not_reported_exactly`: the value is not that of the points that are reported
-/

namespace PandaPay.CardRewards

/-! ### Accounts -/

/-- The parts of the spend of a transaction, and of what it earns in a currency. -/
structure Account where
  ruleSpend : ℚ
  overflow : ℚ
  overMax : ℚ
  base : Currency → ℚ
  bonus : Currency → ℚ
  allowedBonus : Currency → ℚ
  pieces : Currency → ℚ
  cut : Currency → ℚ

/-- What is earned in a currency. -/
def Account.earned (a : Account) (currency : Currency) : ℚ :=
  a.base currency + a.allowedBonus currency + a.pieces currency - a.cut currency

/-- What a result reports. -/
structure Reported where
  points : Option ℚ
  cashbackInr : Option ℚ
  valueInr : ℚ

/-- What a result of either engine reports. -/
def Reward.reported (r : Reward) : Reported := ⟨r.points, r.cashbackInr, r.valueInr⟩

def Dart.RewardEvaluation.reported (r : Dart.RewardEvaluation) : Reported :=
  ⟨r.points, r.cashbackInr, r.valueInr⟩

/-- What is reported of a currency: an amount, or nothing where there is none. -/
def Reports (round2 : ℚ → ℚ) (reported : Option ℚ) (amount : ℚ) : Prop :=
  reported = some (round2 amount) ∨ reported = none ∧ amount = 0

/-- The parts of the spend add up to the amount, nothing is negative, and what is reported is what is
earned, to two decimals. The value is that of what is earned. -/
structure Account.Conserves (a : Account) (round2 : ℚ → ℚ) (amount pointValue : ℚ) (reported : Reported) :
    Prop where
  ruleSpend_nonneg : 0 ≤ a.ruleSpend
  overflow_nonneg : 0 ≤ a.overflow
  overMax_nonneg : 0 ≤ a.overMax
  spend : a.ruleSpend + a.overflow + a.overMax = amount
  base_nonneg : ∀ currency, 0 ≤ a.base currency
  allowedBonus_mem : ∀ currency, 0 ≤ a.allowedBonus currency ∧ a.allowedBonus currency ≤ a.bonus currency
  pieces_nonneg : ∀ currency, 0 ≤ a.pieces currency
  cut_nonneg : ∀ currency, 0 ≤ a.cut currency
  earned_nonneg : ∀ currency, 0 ≤ a.earned currency
  points : Reports round2 reported.points (a.earned .points)
  cashbackInr : Reports round2 reported.cashbackInr (a.earned .cashback)
  valueInr : reported.valueInr = round2 (a.earned .points * pointValue + a.earned .cashback)

/-! ### The server -/

namespace Pricing

variable (p : Pricing)

/-- The parts of a priced transaction. -/
def account : Account where
  ruleSpend := p.ruleSpend
  overflow := p.overflow
  overMax := p.overMax
  base currency := if p.ruleCurrency = some currency then p.basePart else 0
  bonus currency := if p.ruleCurrency = some currency then p.bonus else 0
  allowedBonus currency := if p.ruleCurrency = some currency then p.allowedBonus else 0
  pieces currency := ((p.pieces.filter (·.1 = some currency)).map Prod.snd).sum
  cut := p.cut

variable {p}

theorem eligible_le (h : 0 ≤ p.amount) : p.eligible ≤ p.amount := by
  unfold eligible RewardRule.eligible
  split
  · split_ifs with hmax
    · exact max_le h hmax.le
    · exact le_refl _
  · exact le_refl _

theorem ruleSpend_le_eligible (h : 0 ≤ p.amount) : p.ruleSpend ≤ p.eligible := by
  unfold ruleSpend
  split_ifs
  · exact eligible_nonneg h
  · unfold cappedSpend
    split
    · exact min_le_left _ _
    · exact le_refl _

theorem earned_account (currency : Currency) : p.account.earned currency = p.allowedTotal currency := by
  have hparts : p.earned currency = p.account.base currency + p.account.allowedBonus currency +
      p.account.pieces currency := by
    unfold earned account
    dsimp only
    split_ifs
    · rfl
    · rw [add_zero]
  unfold Account.earned
  rw [← hparts]
  exact sub_sub_cancel _ _

/-- Nothing is earned in a currency that is not shown. -/
theorem allowedTotal_eq_zero {currency : Currency} (h : p.shows currency = false) :
    p.allowedTotal currency = 0 := by
  obtain ⟨-, haccrued⟩ := Bool.or_eq_false_iff.mp h
  obtain ⟨hspend, hpieces⟩ := Bool.or_eq_false_iff.mp haccrued
  have hnone : p.pieces.filter (·.1 = some currency) = [] := by
    refine List.filter_eq_nil_iff.mpr fun piece hpiece => ?_
    exact List.any_eq_false.mp hpieces piece hpiece
  have hrule : p.ruleCurrency = some currency → p.basePart + p.allowedBonus = 0 := by
    intro hcurrency
    have hzero : p.ruleSpend ≤ 0 := by
      by_contra hpos
      rw [decide_eq_true (not_le.mp hpos), decide_eq_true hcurrency] at hspend
      cases hspend
    have haccrual : p.ruleAccrual = 0 := by
      unfold ruleAccrual CardModes.accrueAt accrue
      split
      · rw [if_pos (.inr hzero)]
      · rfl
    have hbase : p.basePart ≤ p.ruleAccrual := sub_nonneg.mp (bonus_nonneg (p := p))
    have hbonus : p.allowedBonus ≤ p.bonus := (leastOf_le _ _).1
    have hbase' := basePart_nonneg (p := p)
    have hbonus' := allowedBonus_nonneg (p := p)
    unfold bonus at hbonus
    linarith
  have hearned : p.earned currency = 0 := by
    unfold earned
    rw [hnone, List.map_nil, List.sum_nil, add_zero]
    split_ifs with hcurrency
    · exact hrule hcurrency
    · rfl
  exact le_antisymm ((leastOf_le _ _).1.trans hearned.le) (allowedTotal_nonneg currency)

theorem reports_shown {currency : Currency} :
    Reports round2 (if p.shows currency then some (round2 (p.allowedTotal currency)) else none)
      (p.account.earned currency) := by
  rw [earned_account]
  cases hshows : p.shows currency with
  | true => exact .inl rfl
  | false => exact .inr ⟨rfl, allowedTotal_eq_zero hshows⟩

/-- A priced transaction. -/
theorem conserves (hamount : 0 ≤ p.amount) :
    p.account.Conserves round2 p.amount p.modes.pointValue p.reward.reported where
  ruleSpend_nonneg := ruleSpend_nonneg hamount
  overflow_nonneg := sub_nonneg.mpr (ruleSpend_le_eligible hamount)
  overMax_nonneg := sub_nonneg.mpr (eligible_le hamount)
  spend := by
    show p.ruleSpend + (p.eligible - p.ruleSpend) + (p.amount - p.eligible) = p.amount
    ring
  base_nonneg currency := by
    unfold account
    dsimp only
    split_ifs
    · exact basePart_nonneg
    · exact le_refl 0
  allowedBonus_mem currency := by
    unfold account
    dsimp only
    split_ifs
    · exact ⟨allowedBonus_nonneg, (leastOf_le _ _).1⟩
    · exact ⟨le_refl 0, le_refl 0⟩
  pieces_nonneg currency := by
    refine List.sum_nonneg fun amount hamount => ?_
    obtain ⟨piece, hpiece, rfl⟩ := List.mem_map.mp hamount
    exact Pricing.pieces_nonneg (List.mem_of_mem_filter hpiece)
  cut_nonneg := cut_nonneg
  earned_nonneg currency := by
    rw [earned_account]
    exact allowedTotal_nonneg currency
  points := reports_shown
  cashbackInr := reports_shown
  valueInr := by
    rw [earned_account, earned_account]
    rfl

end Pricing

/-! ### The phone -/

namespace Dart

theorem block_nonneg (unit : RewardUnit) (blockInr : Option ℤ) :
    0 ≤ ((blockInr.filter (0 < ·)).map (fun block : ℤ => (block : ℚ))).getD (unit.block.getD 1) := by
  cases h : blockInr.filter (0 < ·) with
  | none => cases unit <;> norm_num [RewardUnit.block]
  | some block =>
    have hpos : 0 < block := by simpa using (Option.filter_eq_some_iff.mp h).2
    exact Int.cast_nonneg hpos.le

/-- Nothing accrues below zero. -/
theorem accrue_nonneg (unit : RewardUnit) (rate : ℚ) (spendPaise : ℤ) (rounding : Rounding)
    (cashbackRounding : CashbackRounding) (blockInr : Option ℤ) :
    0 ≤ accrue unit rate spendPaise rounding cashbackRounding blockInr := by
  unfold accrue
  split_ifs with hzero
  · exact le_refl 0
  · push Not at hzero
    have hnum : 0 ≤ rate.num := Rat.num_nonneg.mpr hzero.2.le
    have hden : (0 : ℤ) ≤ rate.den := Int.natCast_nonneg _
    have hpaise : 0 ≤ spendPaise := hzero.1.le
    have hrate : 0 ≤ rate := hzero.2.le
    split
    · exact cashbackOn_nonneg hpaise hnum hden
    · exact cashbackOn_nonneg hpaise hnum hden
    · exact hrate
    · have hblock := block_nonneg unit blockInr
      dsimp only
      generalize ((blockInr.filter (0 < ·)).map (fun block : ℤ => (block : ℚ))).getD
        (unit.block.getD 1) = block at hblock ⊢
      have hblockPaise : 0 ≤ round (block * 100) := round_nonneg (by positivity)
      have hn : 0 ≤ spendPaise * rate.num := Int.mul_nonneg hpaise hnum
      have hd : 0 ≤ round (block * 100) * rate.den := Int.mul_nonneg hblockPaise hden
      cases rounding with
      | none =>
        exact div_nonneg (mul_nonneg (Int.cast_nonneg hpaise) hrate) (Int.cast_nonneg hblockPaise)
      | pointsFloor => exact Int.cast_nonneg (Int.ediv_nonneg hn hd)
      | pointsHalfUp => exact Int.cast_nonneg (divHalfUp_nonneg hn hd)
      | round => exact mul_nonneg (Int.cast_nonneg (divHalfUp_nonneg hpaise hblockPaise)) hrate
      | floor => exact mul_nonneg (Int.cast_nonneg (Int.ediv_nonneg hpaise hblockPaise)) hrate

theorem baseAccrual_nonneg (modes : Modes) (paise : ℤ) : 0 ≤ modes.baseAccrual paise := by
  unfold Modes.baseAccrual
  cases modes.base with
  | none => exact le_refl 0
  | some base => exact accrue_nonneg _ _ _ _ _ _

theorem remaining_nonneg (c : AppliedCap) : 0 ≤ c.remaining := by
  unfold AppliedCap.remaining
  split_ifs with h
  · exact h.le
  · exact le_refl 0

namespace Pricing

theorem leastOf_le (value : ℚ) (caps : List AppliedCap) : leastOf value caps ≤ value := by
  unfold leastOf
  refine List.foldlRecOn caps _ (motive := (· ≤ value)) (le_refl value) fun least hleast cap _ => ?_
  split_ifs with hless
  · exact hless.le.trans hleast
  · exact hleast

theorem leastOf_nonneg {value : ℚ} (h : 0 ≤ value) (caps : List AppliedCap) : 0 ≤ leastOf value caps := by
  unfold leastOf
  refine List.foldlRecOn caps _ (motive := (0 ≤ ·)) h fun least hleast cap _ => ?_
  split_ifs
  · exact remaining_nonneg cap
  · exact hleast

variable (p : Pricing)

/-- The parts of a priced transaction, in rupees. -/
def account : Account where
  ruleSpend := p.rulePaise / 100
  overflow := p.overflowPaise / 100
  overMax := p.overMaxPaise / 100
  base := p.baseIn
  bonus := p.bonusIn
  allowedBonus := p.allowedBonus
  pieces := p.piecesIn
  cut := p.cut

variable {p}

theorem eligiblePaise_mem (h : 0 ≤ p.modes.amountPaise) :
    0 ≤ p.eligiblePaise ∧ p.eligiblePaise ≤ p.modes.amountPaise := by
  unfold eligiblePaise Modes.eligibleFor
  split
  · split_ifs with hmax
    · exact ⟨h, le_refl _⟩
    · exact ⟨le_max_left _ _, max_le h (not_le.mp hmax).le⟩
  · exact ⟨h, le_refl _⟩

theorem rulePaise_mem (h : 0 ≤ p.modes.amountPaise) : 0 ≤ p.rulePaise ∧ p.rulePaise ≤ p.eligiblePaise := by
  have heligible := (eligiblePaise_mem h).1
  unfold rulePaise
  split_ifs
  · exact ⟨le_refl 0, heligible⟩
  · unfold tightest
    refine List.foldlRecOn (p.capsOf .eligibleSpend) _
      (motive := fun best : ℤ × Option AppliedCap => 0 ≤ best.1 ∧ best.1 ≤ p.eligiblePaise)
      ⟨heligible, le_refl _⟩ fun best hbest cap _ => ?_
    dsimp only
    split_ifs with hless
    · exact ⟨round_nonneg (mul_nonneg (remaining_nonneg cap) (by norm_num)), hless.le.trans hbest.2⟩
    · exact hbest

theorem basePart_mem : 0 ≤ p.basePart ∧ p.basePart ≤ p.ruleAccrual := by
  have haccrual : 0 ≤ p.ruleAccrual := accrue_nonneg _ _ _ _ _ _
  unfold basePart
  split_ifs with hbase hcurrency hless
  · exact ⟨haccrual, le_refl _⟩
  · exact ⟨baseAccrual_nonneg _ _, hless.le⟩
  · exact ⟨haccrual, le_refl _⟩
  · exact ⟨le_refl 0, haccrual⟩

theorem bonusIn_nonneg (currency : Currency) : 0 ≤ p.bonusIn currency := by
  unfold bonusIn
  split_ifs
  · exact sub_nonneg.mpr basePart_mem.2
  · exact le_refl 0

theorem baseIn_nonneg (currency : Currency) : 0 ≤ p.baseIn currency := by
  unfold baseIn
  split_ifs
  · exact basePart_mem.1
  · exact le_refl 0

theorem basePieces_nonneg {paise : ℤ} {piece : Currency × ℚ} (h : piece ∈ p.basePieces paise) :
    0 ≤ piece.2 := by
  obtain ⟨currency, -, rfl⟩ := List.mem_map.mp h
  exact baseAccrual_nonneg _ _

theorem pieces_nonneg {piece : Currency × ℚ} (h : piece ∈ p.pieces) : 0 ≤ piece.2 := by
  rcases List.mem_append.mp h with h | h
  · unfold overflowPieces at h
    split at h
    · exact absurd h List.not_mem_nil
    · by_cases hoverflow : p.overflowPaise ≤ 0
      · rw [if_pos hoverflow] at h
        exact absurd h List.not_mem_nil
      · rw [if_neg hoverflow] at h
        split at h
        · exact basePieces_nonneg h
        · exact absurd h List.not_mem_nil
        · rw [List.mem_singleton.mp h]
          exact accrue_nonneg _ _ _ _ _ _
  · unfold overMaxPieces at h
    split_ifs at h
    · exact basePieces_nonneg h
    · exact absurd h List.not_mem_nil

theorem piecesIn_nonneg (currency : Currency) : 0 ≤ p.piecesIn currency := by
  refine List.sum_nonneg fun amount hamount => ?_
  obtain ⟨piece, hpiece, rfl⟩ := List.mem_map.mp hamount
  exact pieces_nonneg (List.mem_of_mem_filter hpiece)

theorem allowedBonus_mem (currency : Currency) :
    0 ≤ p.allowedBonus currency ∧ p.allowedBonus currency ≤ p.bonusIn currency :=
  ⟨leastOf_nonneg (bonusIn_nonneg currency) _, leastOf_le _ _⟩

theorem beforeTotal_nonneg (currency : Currency) : 0 ≤ p.beforeTotal currency :=
  add_nonneg (add_nonneg (baseIn_nonneg currency) (allowedBonus_mem currency).1) (piecesIn_nonneg currency)

theorem allowedTotal_nonneg (currency : Currency) : 0 ≤ p.allowedTotal currency :=
  leastOf_nonneg (beforeTotal_nonneg currency) _

theorem earned_account (currency : Currency) : p.account.earned currency = p.allowedTotal currency :=
  sub_sub_cancel _ _

/-- Nothing is earned in a currency that is not shown. -/
theorem allowedTotal_eq_zero {currency : Currency} (h : p.shows currency = false) :
    p.allowedTotal currency = 0 := by
  obtain ⟨-, haccrued⟩ := Bool.or_eq_false_iff.mp h
  obtain ⟨hspend, hpieces⟩ := Bool.or_eq_false_iff.mp haccrued
  have hnone : p.pieces.filter (·.1 = currency) = [] := by
    refine List.filter_eq_nil_iff.mpr fun piece hpiece => ?_
    exact List.any_eq_false.mp hpieces piece hpiece
  have haccrual : p.ruleCurrency = currency → p.ruleAccrual = 0 := by
    intro hcurrency
    have hzero : p.rulePaise ≤ 0 := by
      by_contra hpos
      rw [decide_eq_true (not_le.mp hpos), decide_eq_true hcurrency] at hspend
      cases hspend
    unfold ruleAccrual Modes.accrue accrue
    rw [if_pos (.inl hzero)]
  have hbase : p.baseIn currency = 0 := by
    unfold baseIn
    split_ifs with hcurrency
    · exact le_antisymm (basePart_mem.2.trans (haccrual hcurrency).le) basePart_mem.1
    · rfl
  have hbonus : p.bonusIn currency = 0 := by
    unfold bonusIn
    split_ifs with hcurrency
    · have := haccrual hcurrency
      have := (basePart_mem (p := p)).1
      have := bonusIn_nonneg (p := p) currency
      unfold bonusIn at this
      rw [if_pos hcurrency] at this
      unfold bonus at this ⊢
      linarith
    · rfl
  have hbefore : p.beforeTotal currency ≤ 0 := by
    have hallowed := (allowedBonus_mem (p := p) currency).2
    unfold beforeTotal piecesIn
    rw [hbase, hnone, List.map_nil, List.sum_nil]
    linarith
  exact le_antisymm ((leastOf_le _ _).trans hbefore) (allowedTotal_nonneg currency)

theorem reports_shown {currency : Currency} :
    Reports Dart.round2 (if p.shows currency then some (Dart.round2 (p.allowedTotal currency)) else none)
      (p.account.earned currency) := by
  rw [earned_account]
  cases hshows : p.shows currency with
  | true => exact .inl rfl
  | false => exact .inr ⟨rfl, allowedTotal_eq_zero hshows⟩

/-- A priced transaction. -/
theorem conserves (h : 0 ≤ p.modes.amountPaise) (skipReasons assumptions : List JsString)
    (merchant : Option MerchantMatch) :
    p.account.Conserves Dart.round2 (p.modes.amountPaise / 100) p.modes.pointValue
      (p.result skipReasons assumptions merchant).reported where
  ruleSpend_nonneg := div_nonneg (Int.cast_nonneg (rulePaise_mem h).1) (by norm_num)
  overflow_nonneg := div_nonneg (Int.cast_nonneg (sub_nonneg.mpr (rulePaise_mem h).2)) (by norm_num)
  overMax_nonneg := div_nonneg (Int.cast_nonneg (sub_nonneg.mpr (eligiblePaise_mem h).2)) (by norm_num)
  spend := by
    have hpaise : p.rulePaise + p.overflowPaise + p.overMaxPaise = p.modes.amountPaise := by
      unfold overflowPaise overMaxPaise
      ring
    rw [← hpaise]
    push_cast
    unfold account
    ring
  base_nonneg := baseIn_nonneg
  allowedBonus_mem := allowedBonus_mem
  pieces_nonneg := piecesIn_nonneg
  cut_nonneg currency := sub_nonneg.mpr (leastOf_le _ _)
  earned_nonneg currency := by
    rw [earned_account]
    exact allowedTotal_nonneg currency
  points := reports_shown
  cashbackInr := reports_shown
  valueInr := by
    rw [earned_account, earned_account]
    rfl

end Pricing

end Dart

/-! ### Both -/

/-- Nothing is earned. -/
def Reported.IsNothing (reported : Reported) : Prop :=
  reported.points.getD 0 = 0 ∧ reported.cashbackInr.getD 0 = 0 ∧ reported.valueInr = 0

theorem isNothing_shape (currency : Option Currency) :
    Reported.IsNothing ⟨(shape currency).points, (shape currency).cashbackInr, (shape currency).valueInr⟩ := by
  rcases currency with _ | _ | _ <;> exact ⟨rfl, rfl, rfl⟩

theorem Dart.isNothing_nothingIn (currency : Option Currency) (excluded : Bool) :
    Reported.IsNothing ⟨(nothingIn currency excluded).points, (nothingIn currency excluded).cashbackInr,
      (nothingIn currency excluded).valueInr⟩ := by
  rcases currency with _ | _ | _ <;> exact ⟨rfl, rfl, rfl⟩

/-- A card that pays a point of 10 rupees for each 150 rupees, and parts of points. -/
def partPoints : Card where
  pointValueInr := some 10
  baseRewardUnit := some (.known .pointsPer150)
  baseRewardRate := some 1
  accrualRounding := some (.known .none)

end PandaPay.CardRewards
