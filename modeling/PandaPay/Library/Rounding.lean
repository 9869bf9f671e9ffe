import Mathlib.Algebra.Order.Round
import Mathlib.Algebra.Order.Field.Rat
import Mathlib.Data.Rat.Floor
import Mathlib.Tactic.Linarith

/-!
# Rounding onto a grid

The multiples of `1 / scale`, and rounding half up onto them. A slack lifts what lies just below a half.

## Main definitions

* `OnGrid scale x`: `x` is a multiple of `1 / scale`
* `roundOnto scale slack x`: the multiple nearest to `x`

## Main results

* `roundOnto_of_onGrid`: a multiple stays
* `roundOnto_le`, `le_roundOnto`: rounding passes no multiple
-/

namespace PandaPay

variable {scale : ℕ} {slack x y : ℚ}

/-- `x` is a multiple of `1 / scale`. -/
def OnGrid (scale : ℕ) (x : ℚ) : Prop := ∃ k : ℤ, x = k / scale

namespace OnGrid

theorem zero : OnGrid scale 0 := ⟨0, by simp⟩

theorem intCast (hscale : 0 < scale) (k : ℤ) : OnGrid scale k :=
  ⟨k * scale, by rw [Int.cast_mul, Int.cast_natCast, mul_div_cancel_right₀]; positivity⟩

theorem add (hx : OnGrid scale x) (hy : OnGrid scale y) : OnGrid scale (x + y) := by
  obtain ⟨k, rfl⟩ := hx
  obtain ⟨l, rfl⟩ := hy
  exact ⟨k + l, by rw [Int.cast_add, add_div]⟩

theorem sub (hx : OnGrid scale x) (hy : OnGrid scale y) : OnGrid scale (x - y) := by
  obtain ⟨k, rfl⟩ := hx
  obtain ⟨l, rfl⟩ := hy
  exact ⟨k - l, by rw [Int.cast_sub, sub_div]⟩

theorem max (hx : OnGrid scale x) (hy : OnGrid scale y) : OnGrid scale (max x y) := by
  rcases max_choice x y with h | h <;> rw [h]
  · exact hx
  · exact hy

theorem sum {α : Type*} {list : List α} {f : α → ℚ} (h : ∀ a ∈ list, OnGrid scale (f a)) :
    OnGrid scale (list.map f).sum := by
  induction list with
  | nil => exact zero
  | cons a list ih =>
    rw [List.map_cons, List.sum_cons]
    exact (h a List.mem_cons_self).add (ih fun b hb => h b (List.mem_cons_of_mem a hb))

end OnGrid

/-- The multiple of `1 / scale` nearest to `x`, where a half, and what lies `slack` of a multiple below
it, goes up. -/
def roundOnto (scale : ℕ) (slack x : ℚ) : ℚ := round (x * scale + slack) / scale

theorem onGrid_roundOnto (scale : ℕ) (slack x : ℚ) : OnGrid scale (roundOnto scale slack x) :=
  ⟨_, rfl⟩

theorem round_mono {x y : ℚ} (h : x ≤ y) : round x ≤ round y := by
  rw [round_eq, round_eq]
  exact Int.floor_mono (by linarith)

theorem roundOnto_mono (h : x ≤ y) : roundOnto scale slack x ≤ roundOnto scale slack y := by
  have hscaled : x * scale + slack ≤ y * scale + slack := by gcongr
  exact div_le_div_of_nonneg_right (by exact_mod_cast round_mono hscaled) (Nat.cast_nonneg scale)

section Slack

variable (hscale : 0 < scale) (hslack : 0 ≤ slack) (hhalf : slack < 1 / 2)
include hscale hslack hhalf

/-- A multiple stays. -/
theorem roundOnto_of_onGrid (h : OnGrid scale x) : roundOnto scale slack x = x := by
  obtain ⟨k, rfl⟩ := h
  have hne : (scale : ℚ) ≠ 0 := by positivity
  have hround : round ((k : ℚ) + slack) = k := round_eq_iff.mpr ⟨by linarith, by linarith⟩
  rw [roundOnto, div_mul_cancel₀ _ hne, hround]

/-- Rounding does not go above a multiple. -/
theorem roundOnto_le (h : x ≤ y) (hy : OnGrid scale y) : roundOnto scale slack x ≤ y :=
  (roundOnto_mono h).trans_eq (roundOnto_of_onGrid hscale hslack hhalf hy)

/-- Rounding does not go below a multiple. -/
theorem le_roundOnto (h : y ≤ x) (hy : OnGrid scale y) : y ≤ roundOnto scale slack x :=
  (roundOnto_of_onGrid hscale hslack hhalf hy).symm.trans_le (roundOnto_mono h)

end Slack

end PandaPay
