import Mathlib.Data.List.Basic
import Mathlib.Tactic.Ring
import Mathlib.Tactic.Common

/-!
# Big-endian bytes

The last bytes of a number, the most significant one first.

## Main definitions

* `beBytes value length`: the last `length` bytes of a number
* `beValue`: the number that bytes denote

## Main results

* `beValue_beBytes`: the bytes of a number denote it, up to their length
* `beBytes_eq_iff`: when two numbers have the same last bytes
-/

namespace PandaPay

/-- The last `length` bytes of a number. -/
def beBytes (value : ℕ) : ℕ → List UInt8
  | 0 => []
  | length + 1 => beBytes (value / 256) length ++ [UInt8.ofNat value]

/-- The number that bytes denote. -/
def beValue (bytes : List UInt8) : ℕ := bytes.foldl (fun value b => value * 256 + b.toNat) 0

@[simp] theorem length_beBytes (value length : ℕ) : (beBytes value length).length = length := by
  induction length generalizing value with
  | zero => rfl
  | succ length ih => rw [beBytes, List.length_append, ih, List.length_singleton]

theorem beValue_append_singleton (bytes : List UInt8) (b : UInt8) :
    beValue (bytes ++ [b]) = beValue bytes * 256 + b.toNat := by
  rw [beValue, List.foldl_append]
  rfl

/-- The bytes of a number denote it, up to their length. -/
theorem beValue_beBytes (value length : ℕ) : beValue (beBytes value length) = value % 256 ^ length := by
  induction length generalizing value with
  | zero => rw [pow_zero, Nat.mod_one, beBytes, beValue, List.foldl_nil]
  | succ length ih =>
    have hbyte : (UInt8.ofNat value).toNat = value % 256 := UInt8.toNat_ofNat'
    rw [beBytes, beValue_append_singleton, ih, hbyte, pow_succ', Nat.mod_mul]
    ring

theorem beBytes_mod (value length : ℕ) : beBytes (value % 256 ^ length) length = beBytes value length := by
  induction length generalizing value with
  | zero => rfl
  | succ length ih =>
    have hdiv : value % 256 ^ (length + 1) / 256 = value / 256 % 256 ^ length := by
      rw [pow_succ', Nat.mod_mul_right_div_self]
    have hbyte : UInt8.ofNat (value % 256 ^ (length + 1)) = UInt8.ofNat value := by
      apply UInt8.toNat_inj.mp
      rw [UInt8.toNat_ofNat', UInt8.toNat_ofNat', pow_succ']
      exact Nat.mod_mul_right_mod value 256 (256 ^ length)
    rw [beBytes, beBytes, hdiv, ih, hbyte]

/-- When two numbers have the same last bytes. -/
theorem beBytes_eq_iff {m n length : ℕ} :
    beBytes m length = beBytes n length ↔ m % 256 ^ length = n % 256 ^ length := by
  constructor
  · intro h
    rw [← beValue_beBytes, h, beValue_beBytes]
  · intro h
    rw [← beBytes_mod, h, beBytes_mod]

/-- Numbers that fit are told apart by their bytes. -/
theorem beBytes_inj {m n length : ℕ} (hm : m < 256 ^ length) (hn : n < 256 ^ length) :
    beBytes m length = beBytes n length ↔ m = n := by
  rw [beBytes_eq_iff, Nat.mod_eq_of_lt hm, Nat.mod_eq_of_lt hn]

end PandaPay
