import PandaPay.Library.Tally

/-!
# Balances and the rows behind them

A table of balances is kept by adding to the balance of a key, and by dropping the row of a key whose balance comes
to nothing. What is added up over the rows of such a table, by any function that respects differences, changes by
what the function makes of the amount added.

## Main definitions

* `keep m k a`: `m` with the balance `a` under `k`, and no row for nothing

## Main results

* `sum_set_sub`, `sum_erase_sub`: what an assignment and a deletion change a sum by
* `sum_set_amountAt`, `sum_keep`: what is added to a balance is added to every sum
* `ne_zero_of_keep`: no row holds nothing
* `sum_eq_elim`: a sum in which one key counts
-/

namespace PandaPay

universe u v w

variable {κ : Type u} {ν : Type w} {M N : Type v} [DecidableEq κ] [AddCommGroup M] [AddCommGroup N]

namespace InsertionMap

/-- An assignment changes a sum by the new summand less the old one. -/
theorem sum_set_sub (m : InsertionMap κ ν) (f : κ → ν → N) (k : κ) (v : ν) :
    (m.set k v).sum f = m.sum f + (f k v - (m.get? k).elim 0 (f k)) := by
  rw [← add_sub_assoc, ← sum_set, add_sub_cancel_right]

/-- A deletion takes the summand away. -/
theorem sum_erase_sub (m : InsertionMap κ ν) (f : κ → ν → N) (k : κ) :
    (m.erase k).sum f = m.sum f - (m.get? k).elim 0 (f k) := by
  rw [← sum_erase m f k, add_sub_cancel_right]

/-- Where only the row of one key counts, the sum is its summand. -/
theorem sum_eq_elim {m : InsertionMap κ ν} {f : κ → ν → N} {k : κ} (h : ∀ j w, j ≠ k → f j w = 0) :
    m.sum f = (m.get? k).elim 0 (f k) := by
  rw [← sum_erase m f k, add_eq_right]
  apply sum_eq_zero
  intro j w hmem
  exact h j w (by simpa using (List.mem_filter.mp hmem).2)

end InsertionMap

/-- `m` with the balance `a` under `k`; a balance of nothing has no row. -/
def keep [DecidableEq M] (m : InsertionMap κ M) (k : κ) (a : M) : InsertionMap κ M :=
  if a = 0 then m.erase k else m.set k a

variable {m : InsertionMap κ M} {f : κ → M → N}

section Sum

variable (hf : ∀ k a b, f k (a - b) = f k a - f k b)
include hf

omit [DecidableEq κ] in
theorem apply_zero_of_sub (k : κ) : f k 0 = 0 := by
  have h := hf k 0 0
  rwa [sub_zero, sub_self] at h

omit [DecidableEq κ] in
theorem apply_add_of_sub (k : κ) (a b : M) : f k (a + b) = f k a + f k b := by
  have h := hf k (a + b) b
  rw [add_sub_cancel_right] at h
  rw [h, sub_add_cancel]

theorem elim_eq_apply_amountAt (k : κ) : (m.get? k).elim 0 (f k) = f k (amountAt m k) := by
  rw [amountAt]
  cases m.get? k
  · exact (apply_zero_of_sub hf k).symm
  · rfl

/-- What is added to the amount of a key is added to every sum that respects differences. -/
theorem sum_set_amountAt (k : κ) (a : M) : (m.set k (amountAt m k + a)).sum f = m.sum f + f k a := by
  rw [InsertionMap.sum_set_sub, elim_eq_apply_amountAt hf, apply_add_of_sub hf, add_sub_cancel_left]

/-- So it is where a balance of nothing has no row. -/
theorem sum_keep [DecidableEq M] (k : κ) (a : M) : (keep m k (amountAt m k + a)).sum f = m.sum f + f k a := by
  rw [keep]
  split_ifs with h
  · -- the row goes, and what it held was the opposite of what is added
    have hnew := apply_add_of_sub hf k (amountAt m k) a
    rw [h, apply_zero_of_sub hf] at hnew
    rw [InsertionMap.sum_erase_sub, elim_eq_apply_amountAt hf, sub_eq_add_neg,
      neg_eq_of_add_eq_zero_right hnew.symm]
  · exact sum_set_amountAt hf k a

end Sum

/-- A sum in which a key does not count is as it was. -/
theorem sum_keep_of_zero {A : Type*} [AddCommMonoid A] [DecidableEq M] {g : κ → M → A} {k : κ}
    (hg : ∀ a, g k a = 0) (a : M) : (keep m k a).sum g = m.sum g := by
  have hnone : (m.get? k).elim 0 (g k) = 0 := by
    cases m.get? k
    · rfl
    · exact hg _
  rw [keep]
  split_ifs
  · rw [← InsertionMap.sum_erase m g k, hnone, add_zero]
  · have hset := InsertionMap.sum_set m g k a
    rwa [hnone, hg, add_zero, add_zero] at hset

variable [DecidableEq M]

/-- No row holds nothing, when none did. -/
theorem ne_zero_of_keep (h : ∀ j b, m.get? j = some b → b ≠ 0) {k : κ} {a : M} {j : κ} {b : M}
    (hj : (keep m k a).get? j = some b) : b ≠ 0 := by
  rw [keep] at hj
  split_ifs at hj with hzero
  · rw [InsertionMap.get?_erase] at hj
    split_ifs at hj
    exact h j b hj
  · rw [InsertionMap.get?_set] at hj
    split_ifs at hj with hk
    · exact Option.some.inj hj ▸ hzero
    · exact h j b hj

/-- A row that is there after a balance is kept was there before or is the row of the balance. -/
theorem mem_keys_of_keep {k : κ} {a : M} {j : κ} (hj : j ∈ (keep m k a).keys) : j = k ∨ j ∈ m.keys := by
  rw [keep] at hj
  split_ifs at hj with hzero
  · rw [InsertionMap.mem_keys_iff, InsertionMap.get?_erase] at hj
    split_ifs at hj with hk
    · simp at hj
    · exact .inr (InsertionMap.mem_keys_iff.mpr hj)
  · exact InsertionMap.mem_keys_set.mp hj

end PandaPay
