import Mathlib

/-!
# The proleptic Gregorian calendar

A calendar sorts the days, numbered by the integers, into windows. The windows between consecutive
terms of an increasing sequence tile: each day is in its window, two windows are the same or disjoint,
and the day after a window starts the next one. This is kept when only some of the days are looked at.

Days are numbered from 1 January 1970 and months from January of the year 0, so that the month `m`,
counted from 0, of the year `y` is `12 * y + m`. The number of the first day of a month has a closed
form, as years that begin in March end with the leap day.

## Main definitions

* `Tiling S lo hi`: the windows `[lo d, hi d]` of the days in `S` tile
* `Blocks b index`: each day lies in the block of `b` with its index
* `monthStart`: the first day of a month
* `monthOf`, `yearOf`: the month and the year of a day
* `monthLength`: the days of a month

## Main results

* `Blocks.tiling`: the blocks of an increasing sequence tile
* `Blocks.eq_of_mem`: the index of a day is the only block it lies in
* `blocks_monthStart`: every day lies in its month
* `monthLength_eq`: how long the months are
-/

namespace PandaPay

/-- The windows `[lo d, hi d]` of the days in `S` tile them. -/
structure Tiling (S : Set ℤ) (lo hi : ℤ → ℤ) : Prop where
  mem : ∀ d ∈ S, lo d ≤ d ∧ d ≤ hi d
  same_or_disjoint : ∀ d ∈ S, ∀ e ∈ S, (lo d = lo e ∧ hi d = hi e) ∨ hi d < lo e ∨ hi e < lo d
  next : ∀ d ∈ S, hi d + 1 ∈ S → lo (hi d + 1) = hi d + 1

/-- Every day lies in the block `[b (index d), b (index d + 1))`. -/
structure Blocks (b index : ℤ → ℤ) : Prop where
  lt_succ : ∀ k, b k < b (k + 1)
  mem : ∀ d, b (index d) ≤ d ∧ d < b (index d + 1)

theorem Tiling.mono {S T : Set ℤ} {lo hi : ℤ → ℤ} (h : Tiling T lo hi) (hST : S ⊆ T) :
    Tiling S lo hi where
  mem d hd := h.mem d (hST hd)
  same_or_disjoint d hd e he := h.same_or_disjoint d (hST hd) e (hST he)
  next d hd hnext := h.next d (hST hd) (hST hnext)

/-- One window for all days tiles those in it, if the day after it is none of them. -/
theorem tiling_const {S : Set ℤ} {a b : ℤ} (hS : ∀ d ∈ S, a ≤ d ∧ d ≤ b) :
    Tiling S (fun _ => a) fun _ => b where
  mem := hS
  same_or_disjoint _ _ _ _ := .inl ⟨rfl, rfl⟩
  next d hd hnext := by
    have := (hS (b + 1) hnext).2
    omega

namespace Blocks

variable {b index : ℤ → ℤ}

theorem strictMono (h : Blocks b index) : StrictMono b := strictMono_int_of_lt_succ h.lt_succ

/-- The index of a day is the only block it lies in. -/
theorem eq_of_mem (h : Blocks b index) {d k : ℤ} (hle : b k ≤ d) (hlt : d < b (k + 1)) :
    index d = k := by
  obtain ⟨hle', hlt'⟩ := h.mem d
  have h₁ : k < index d + 1 := h.strictMono.lt_iff_lt.mp (lt_of_le_of_lt hle hlt')
  have h₂ : index d < k + 1 := h.strictMono.lt_iff_lt.mp (lt_of_le_of_lt hle' hlt)
  omega

theorem tiling (h : Blocks b index) (S : Set ℤ) :
    Tiling S (fun d => b (index d)) fun d => b (index d + 1) - 1 where
  mem d _ := by
    obtain ⟨hle, hlt⟩ := h.mem d
    exact ⟨hle, by omega⟩
  same_or_disjoint d _ e _ := by
    rcases lt_trichotomy (index d) (index e) with hlt | heq | hgt
    · have := h.strictMono.monotone (show index d + 1 ≤ index e by omega)
      exact .inr (.inl (by omega))
    · rw [heq]
      exact .inl ⟨rfl, rfl⟩
    · have := h.strictMono.monotone (show index e + 1 ≤ index d by omega)
      exact .inr (.inr (by omega))
  next d _ _ := by
    have hnext : index (b (index d + 1) - 1 + 1) = index d + 1 := by
      refine h.eq_of_mem (by omega) ?_
      have := h.lt_succ (index d + 1)
      omega
    rw [hnext]
    omega

/-- The blocks that start at every `n`-th term, from the `r`-th on. -/
theorem every (h : Blocks b index) {n : ℤ} (hn : 0 < n) (r : ℤ) :
    Blocks (fun k => b (n * k + r)) fun d => (index d - r) / n where
  lt_succ k := h.strictMono (by linarith)
  mem d := by
    obtain ⟨hle, hlt⟩ := h.mem d
    have hdiv := Int.mul_ediv_add_emod (index d - r) n
    have hnonneg := Int.emod_nonneg (index d - r) hn.ne'
    have hmod := Int.emod_lt_of_pos (index d - r) hn
    constructor
    · exact (h.strictMono.monotone (by linarith)).trans hle
    · refine hlt.trans_le (h.strictMono.monotone ?_)
      linarith

end Blocks

end PandaPay

namespace PandaPay.Gregorian

/-- The days before March of the year `y`, from March of the year 0 on. -/
def marchStart (y : ℤ) : ℤ := 365 * y + y / 4 - y / 100 + y / 400

/-- The first day of the month `M`. -/
def monthStart (M : ℤ) : ℤ := marchStart ((M - 2) / 12) + (153 * ((M - 2) % 12) + 2) / 5 - 719468

/-- The month of a day. -/
def monthOf (n : ℤ) : ℤ :=
  -- months have 146097 / 4800 days on average
  let guess := 4800 * (n + 719468) / 146097 + 2
  if n < monthStart guess then guess - 1 else if monthStart (guess + 1) ≤ n then guess + 1 else guess

/-- The year of a day. -/
def yearOf (n : ℤ) : ℤ := monthOf n / 12

/-- The number of the days of a month. -/
def monthLength (M : ℤ) : ℤ := monthStart (M + 1) - monthStart M

def isLeap (y : ℤ) : Bool := y % 4 = 0 ∧ (y % 100 ≠ 0 ∨ y % 400 = 0)

theorem monthStart_epoch : monthStart (12 * 1970) = 0 := by decide

/-- The year that ends with February of `y + 1` has 365 days, or 366. -/
theorem marchStart_succ (y : ℤ) :
    marchStart (y + 1) = marchStart y + 365 + if isLeap (y + 1) then 1 else 0 := by
  have h4 : (y + 1) / 4 = y / 4 + if (y + 1) % 4 = 0 then 1 else 0 := by split <;> omega
  have h100 : (y + 1) / 100 = y / 100 + if (y + 1) % 100 = 0 then 1 else 0 := by split <;> omega
  have h400 : (y + 1) / 400 = y / 400 + if (y + 1) % 400 = 0 then 1 else 0 := by split <;> omega
  simp only [marchStart, h4, h100, h400, isLeap, decide_eq_true_eq]
  split_ifs <;> omega

/-- The length of a month from its place in the year that begins in March. -/
theorem monthLength_of_march (M : ℤ) :
    monthLength M = if (M - 2) % 12 = 11 then 28 + if isLeap ((M - 2) / 12 + 1) then 1 else 0
      else (153 * ((M - 2) % 12) + 155) / 5 - (153 * ((M - 2) % 12) + 2) / 5 := by
  unfold monthLength monthStart
  split_ifs with hm hleap
  · have hyear : (M + 1 - 2) / 12 = (M - 2) / 12 + 1 := by omega
    have hmonth : (M + 1 - 2) % 12 = 0 := by omega
    rw [hyear, hmonth, hm, marchStart_succ, if_pos hleap]
    omega
  · have hyear : (M + 1 - 2) / 12 = (M - 2) / 12 + 1 := by omega
    have hmonth : (M + 1 - 2) % 12 = 0 := by omega
    rw [hyear, hmonth, hm, marchStart_succ, if_neg hleap]
    omega
  · have hyear : (M + 1 - 2) / 12 = (M - 2) / 12 := by omega
    have hmonth : (M + 1 - 2) % 12 = (M - 2) % 12 + 1 := by omega
    rw [hyear, hmonth]
    omega

theorem monthLength_mem (M : ℤ) : 28 ≤ monthLength M ∧ monthLength M ≤ 31 := by
  rw [monthLength_of_march]
  split_ifs <;> omega

theorem monthStart_succ (M : ℤ) : monthStart (M + 1) = monthStart M + monthLength M := by
  unfold monthLength
  omega

/-- How long the months are: the month `m`, counted from 0, of the year `y`. -/
theorem monthLength_eq (y : ℤ) {m : ℤ} (h₀ : 0 ≤ m) (h₁ : m < 12) :
    monthLength (12 * y + m) =
      if m = 1 then (if isLeap y then 29 else 28)
      else if m = 3 ∨ m = 5 ∨ m = 8 ∨ m = 10 then 30 else 31 := by
  rw [monthLength_of_march]
  obtain ⟨hmonth, hyear⟩ : (12 * y + m - 2) % 12 = (m + 10) % 12 ∧
      (12 * y + m - 2) / 12 + 1 = if m < 2 then y else y + 1 := by
    constructor
    · omega
    · split <;> omega
  rw [hmonth, hyear]
  by_cases hfebruary : m = 1
  · subst hfebruary
    cases hleap : isLeap y <;> simp [hleap]
  · interval_cases m <;> simp at hfebruary ⊢

/-- Every day lies in its month. -/
theorem blocks_monthStart : Blocks monthStart monthOf where
  lt_succ M := by
    have := (monthLength_mem M).1
    rw [monthStart_succ]
    omega
  mem n := by
    have hguess : monthStart (4800 * (n + 719468) / 146097 + 2 - 1) ≤ n ∧
        n < monthStart (4800 * (n + 719468) / 146097 + 2 + 1 + 1) := by
      unfold monthStart marchStart
      omega
    unfold monthOf
    dsimp only
    split_ifs with hbelow habove
    · exact ⟨hguess.1, by simpa using hbelow⟩
    · exact ⟨habove, hguess.2⟩
    · exact ⟨not_lt.mp hbelow, not_le.mp habove⟩

end PandaPay.Gregorian
