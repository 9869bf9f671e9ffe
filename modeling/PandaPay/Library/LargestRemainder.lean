import Mathlib.Algebra.BigOperators.Group.List.Basic
import Mathlib.Algebra.Order.Floor.Semifield
import Mathlib.Data.Rat.Floor

/-!
# Largest remainders

A total is divided in proportion to weights: everyone gets its share rounded down, and the units left over go one each
to those with the largest remainders. Only shares that were rounded down have a remainder, and there are at least as
many of them as units left over.

## Main definitions

* `leftover`: the units that rounding down leaves over

## Main results

* `mul_leftover`: the remainders add up to the units left over
* `leftover_le_countP`, `leftover_lt_length`: there are enough rows with a remainder
* `mem_take_countP`: in order of remainders the rows with one come first
* `floor_share`, `ceil_share`: the two roundings of a share
-/

namespace PandaPay.LargestRemainder

universe u

variable {α : Type u} {total scale : ℕ} {weight : α → ℕ} {l : List α}

/-- The units that rounding down leaves over. -/
def leftover (total scale : ℕ) (weight : α → ℕ) (l : List α) : ℕ :=
  total - (l.map fun a => total * weight a / scale).sum

theorem mul_sum_div_add_sum_mod (total scale : ℕ) (weight : α → ℕ) (l : List α) :
    scale * (l.map fun a => total * weight a / scale).sum + (l.map fun a => total * weight a % scale).sum =
      total * (l.map weight).sum := by
  induction l with
  | nil => rfl
  | cons a l ih =>
    have hdiv := Nat.div_add_mod (total * weight a) scale
    simp only [List.map_cons, List.sum_cons, mul_add]
    omega

/-- The remainders add up to the units left over. -/
theorem mul_leftover (hscale : (l.map weight).sum = scale) :
    scale * leftover total scale weight l = (l.map fun a => total * weight a % scale).sum := by
  have hsum := mul_sum_div_add_sum_mod total scale weight l
  rw [hscale, mul_comm total] at hsum
  rw [leftover, Nat.mul_sub]
  omega

/-- Rounding down never gives out more than the total. -/
theorem sum_div_le (hscale : (l.map weight).sum = scale) (hpositive : 0 < scale) :
    (l.map fun a => total * weight a / scale).sum ≤ total := by
  have hsum := mul_sum_div_add_sum_mod total scale weight l
  rw [hscale, mul_comm total] at hsum
  exact Nat.le_of_mul_le_mul_left (by omega) hpositive

variable (total weight) in
/-- Each remainder is less than the scale. -/
theorem sum_mod_le (hpositive : 0 < scale) (l : List α) :
    (l.map fun a => total * weight a % scale).sum ≤
      (l.countP fun a => 0 < total * weight a % scale) * (scale - 1) := by
  induction l with
  | nil => exact Nat.zero_le _
  | cons a l ih =>
    have hlt := Nat.mod_lt (total * weight a) hpositive
    rw [List.map_cons, List.sum_cons]
    by_cases h : 0 < total * weight a % scale
    · rw [List.countP_cons_of_pos (by simpa using h), Nat.succ_mul]
      omega
    · rw [List.countP_cons_of_neg (by simpa using h)]
      omega

variable (total) in
/-- No more units are left over than rows have a remainder. -/
theorem leftover_le_countP (hscale : (l.map weight).sum = scale) (hpositive : 0 < scale) :
    leftover total scale weight l ≤ l.countP fun a => 0 < total * weight a % scale := by
  have hle := sum_mod_le total weight hpositive l
  rw [← mul_leftover hscale, mul_comm scale] at hle
  exact Nat.le_of_mul_le_mul_right (hle.trans (Nat.mul_le_mul_left _ (Nat.sub_le _ _))) hpositive

/-- Fewer units are left over than there are rows. -/
theorem leftover_lt_length (hscale : (l.map weight).sum = scale) (hpositive : 0 < scale) :
    leftover total scale weight l < l.length := by
  have hcount := leftover_le_countP total hscale hpositive
  have hlength : (l.countP fun a => 0 < total * weight a % scale) ≤ l.length := List.countP_le_length
  rcases Nat.eq_zero_or_pos (leftover total scale weight l) with hzero | hleft
  · rw [hzero, List.length_pos_iff]
    rintro rfl
    exact hpositive.ne hscale
  · have hle := sum_mod_le total weight hpositive l
    rw [← mul_leftover hscale, mul_comm scale] at hle
    have hmul : leftover total scale weight l * scale <
        (l.countP fun a => 0 < total * weight a % scale) * scale := by
      refine hle.trans_lt (Nat.mul_lt_mul_of_pos_left (Nat.sub_lt hpositive Nat.one_pos) (by omega))
    exact (Nat.lt_of_mul_lt_mul_right hmul).trans_le hlength

/-- Where what precedes a row that passes passes as well, the rows that pass come first. -/
theorem mem_take_countP {p : α → Bool} (h : l.Pairwise fun a b => p b = true → p a = true) :
    ∀ a ∈ l.take (l.countP p), p a = true := by
  induction l with
  | nil => simp
  | cons a l ih =>
    obtain ⟨hhead, htail⟩ := List.pairwise_cons.mp h
    by_cases ha : p a = true
    · rw [List.countP_cons_of_pos ha, List.take_succ_cons]
      exact List.forall_mem_cons.mpr ⟨ha, ih htail⟩
    · have hnone : l.countP p = 0 := List.countP_eq_zero.mpr fun b hb hpb => ha (hhead b hb hpb)
      rw [List.countP_cons_of_neg ha, hnone, List.take_zero]
      simp

/-- A share rounded down. -/
theorem floor_share (n scale : ℕ) : ⌊(n : ℚ) / scale⌋₊ = n / scale := Nat.floor_div_eq_div n scale

/-- A share with a remainder, rounded up. -/
theorem ceil_share {n scale : ℕ} (hscale : 0 < scale) (h : 0 < n % scale) :
    ⌈(n : ℚ) / scale⌉₊ = n / scale + 1 := by
  have hdiv := Nat.div_add_mod n scale
  have hlt := Nat.mod_lt n hscale
  have hpositive : (0 : ℚ) < scale := by exact_mod_cast hscale
  rw [Nat.ceil_eq_iff (Nat.add_one_ne_zero _), Nat.add_sub_cancel, lt_div_iff₀ hpositive, div_le_iff₀ hpositive]
  constructor
  · have hlower : n / scale * scale < n := by rw [mul_comm]; omega
    exact_mod_cast hlower
  · have hupper : n ≤ (n / scale + 1) * scale := by rw [add_mul, one_mul, mul_comm]; omega
    exact_mod_cast hupper

end PandaPay.LargestRemainder
