import PandaPay.Json.Value

/-!
# Decimal numerals

Money crosses the wire as decimal strings. This file has the two grammars the shared code
matches, `^(0|[1-9][0-9]*)$` and `^(0|-?[1-9][0-9]*)$`, the numbers they denote, the printer,
and the round trips between them.

## Main definitions

* `isUnsigned`, `unsignedValue`, `decimal`: unsigned numerals
* `isSigned`, `signedValue`, `signedDecimal`: signed numerals

## Main results

* `isUnsigned_decimal`, `unsignedValue_decimal`, `decimal_unsignedValue`: printing and reading
  are inverse on canonical unsigned numerals
* `isSigned_signedDecimal`, `signedValue_signedDecimal`: reading back a signed numeral
* `length_decimal_le`, `length_signedDecimal_le`: a bound on the number bounds the text
-/

namespace PandaPay

/-- The character class `[0-9]`. -/
def isDigit (c : CodeUnit) : Bool := 48 ≤ c.val ∧ c.val ≤ 57

/-- The code unit of a digit. -/
def digitUnit (d : ℕ) : CodeUnit := Fin.ofNat _ (d + 48)

/-- The digit a code unit denotes. -/
def digitValue (c : CodeUnit) : ℕ := c.val - 48

/-- The grammar `^(0|[1-9][0-9]*)$`. -/
def isUnsigned : JsString → Bool
  | [] => false
  | c :: cs => (c.val = 48 ∧ cs = []) ∨ (49 ≤ c.val ∧ c.val ≤ 57 ∧ cs.all isDigit)

/-- The grammar `^(0|-?[1-9][0-9]*)$`. -/
def isSigned : JsString → Bool
  | [] => false
  | c :: cs => if c.val = 45 then isUnsigned cs && !(cs = [digitUnit 0]) else isUnsigned (c :: cs)

/-- The number a string of digits denotes. -/
def unsignedValue (s : JsString) : ℕ := Nat.ofDigits 10 (s.reverse.map digitValue)

/-- The number a string of digits with an optional minus sign denotes. -/
def signedValue : JsString → ℤ
  | [] => 0
  | c :: cs => if c.val = 45 then -(unsignedValue cs : ℤ) else unsignedValue (c :: cs)

/-- The canonical numeral of a natural number. -/
def decimal (n : ℕ) : JsString :=
  if n = 0 then [digitUnit 0] else (Nat.digits 10 n).reverse.map digitUnit

/-- The canonical numeral of an integer. -/
def signedDecimal (z : ℤ) : JsString :=
  if z < 0 then 45 :: decimal z.natAbs else decimal z.natAbs

theorem val_digitUnit {d : ℕ} (h : d < 10) : (digitUnit d).val = d + 48 := by
  have : d + 48 < 65536 := by omega
  simp [digitUnit, Fin.ofNat, Nat.mod_eq_of_lt this]

theorem isDigit_digitUnit {d : ℕ} (h : d < 10) : isDigit (digitUnit d) = true := by
  simp only [isDigit, val_digitUnit h, decide_eq_true_eq]
  omega

theorem digitValue_digitUnit {d : ℕ} (h : d < 10) : digitValue (digitUnit d) = d := by
  simp [digitValue, val_digitUnit h]

theorem digitUnit_digitValue {c : CodeUnit} (h : isDigit c = true) :
    digitUnit (digitValue c) = c := by
  simp only [isDigit, decide_eq_true_eq] at h
  refine Fin.ext ?_
  rw [digitUnit, digitValue, Fin.val_ofNat, Nat.sub_add_cancel h.1]
  exact Nat.mod_eq_of_lt c.isLt

theorem digitValue_lt {c : CodeUnit} (h : isDigit c = true) : digitValue c < 10 := by
  simp only [isDigit, decide_eq_true_eq] at h
  unfold digitValue
  omega

/-- A positive number's numeral starts with a digit from 1 to 9 and goes on with digits. -/
theorem decimal_of_pos {n : ℕ} (h : 0 < n) : ∃ c cs, decimal n = c :: cs ∧
    49 ≤ c.val ∧ c.val ≤ 57 ∧ cs.all isDigit = true := by
  have hn : n ≠ 0 := h.ne'
  have hne : Nat.digits 10 n ≠ [] := Nat.digits_ne_nil_iff_ne_zero.mpr hn
  have hlt : ∀ d ∈ Nat.digits 10 n, d < 10 := fun d hd => Nat.digits_lt_base (by norm_num) hd
  have hlast : (Nat.digits 10 n).getLast hne ≠ 0 := Nat.getLast_digit_ne_zero 10 hn
  refine ⟨digitUnit ((Nat.digits 10 n).getLast hne),
    (Nat.digits 10 n).dropLast.reverse.map digitUnit, ?_, ?_, ?_, ?_⟩
  · rw [decimal, if_neg hn]
    conv_lhs => rw [← List.dropLast_append_getLast hne]
    simp
  · rw [val_digitUnit (hlt _ (List.getLast_mem hne))]
    omega
  · rw [val_digitUnit (hlt _ (List.getLast_mem hne))]
    have := hlt _ (List.getLast_mem hne)
    omega
  · refine List.all_eq_true.mpr fun c hc => ?_
    obtain ⟨d, hd, rfl⟩ := List.mem_map.mp hc
    exact isDigit_digitUnit (hlt d (List.mem_of_mem_dropLast (List.mem_reverse.mp hd)))

theorem isUnsigned_decimal (n : ℕ) : isUnsigned (decimal n) = true := by
  rcases Nat.eq_zero_or_pos n with rfl | h
  · decide
  · obtain ⟨c, cs, hc, h₁, h₂, h₃⟩ := decimal_of_pos h
    simp [hc, isUnsigned, h₁, h₂, h₃]

theorem unsignedValue_decimal (n : ℕ) : unsignedValue (decimal n) = n := by
  rcases Nat.eq_zero_or_pos n with rfl | h
  · decide
  · rw [decimal, if_neg h.ne', unsignedValue, ← List.map_reverse, List.reverse_reverse,
      List.map_map]
    conv_rhs => rw [← Nat.ofDigits_digits 10 n]
    refine congrArg _ (List.map_congr_left (fun d hd => ?_) |>.trans (List.map_id _))
    exact digitValue_digitUnit (Nat.digits_lt_base (by norm_num) hd)

theorem decimal_injective : Function.Injective decimal := fun m n h => by
  rw [← unsignedValue_decimal m, h, unsignedValue_decimal]

theorem isDigit_of_isUnsigned {s : JsString} (h : isUnsigned s = true) :
    ∀ c ∈ s, isDigit c = true := by
  cases s with
  | nil => simp
  | cons c cs =>
    simp only [isUnsigned, decide_eq_true_eq] at h
    rcases h with ⟨hc, rfl⟩ | ⟨h₁, h₂, h₃⟩
    · simp [isDigit, hc]
    · intro d hd
      rcases List.mem_cons.mp hd with rfl | hd
      · simp only [isDigit, decide_eq_true_eq]
        omega
      · exact List.all_eq_true.mp h₃ d hd

/-- A canonical numeral is the numeral of the number it denotes. -/
theorem decimal_unsignedValue {s : JsString} (h : isUnsigned s = true) :
    decimal (unsignedValue s) = s := by
  have hdigit := isDigit_of_isUnsigned h
  cases s with
  | nil => simp [isUnsigned] at h
  | cons c cs =>
    simp only [isUnsigned, decide_eq_true_eq] at h
    rcases h with ⟨hc, rfl⟩ | ⟨h₁, h₂, -⟩
    · have : c = digitUnit 0 := Fin.ext (by rw [hc, val_digitUnit (by norm_num)])
      subst this
      decide
    · have hlt : ∀ d ∈ ((c :: cs).reverse.map digitValue), d < 10 := by
        intro d hd
        obtain ⟨e, he, rfl⟩ := List.mem_map.mp hd
        exact digitValue_lt (hdigit e (List.mem_reverse.mp he))
      have hlast : ∀ hne : (c :: cs).reverse.map digitValue ≠ [],
          ((c :: cs).reverse.map digitValue).getLast hne ≠ 0 := by
        intro hne
        simp only [List.reverse_cons, List.map_append, List.map_cons, List.map_nil,
          List.getLast_append_singleton]
        unfold digitValue
        omega
      have hdigits := Nat.digits_ofDigits 10 (by norm_num) _ hlt hlast
      have hpos : unsignedValue (c :: cs) ≠ 0 := by
        intro h0
        rw [← unsignedValue, h0] at hdigits
        simp at hdigits
      rw [decimal, if_neg hpos, unsignedValue, hdigits, ← List.map_reverse, List.reverse_reverse,
        List.map_map]
      refine (List.map_congr_left fun d hd => ?_).trans (List.map_id _)
      exact digitUnit_digitValue (hdigit d hd)

/-- A number below `10 ^ k` has at most `k` digits. -/
theorem length_decimal_le {n k : ℕ} (hk : 0 < k) (h : n < 10 ^ k) : (decimal n).length ≤ k := by
  unfold decimal
  split
  · exact hk
  · rw [List.length_map, List.length_reverse]
    exact (Nat.digits_length_le_iff (by norm_num) _).mpr h

theorem val_head_decimal (n : ℕ) : ∃ c cs, decimal n = c :: cs ∧ c.val ≠ 45 := by
  rcases Nat.eq_zero_or_pos n with rfl | h
  · exact ⟨digitUnit 0, [], by decide, by decide⟩
  · obtain ⟨c, cs, hc, h₁, -⟩ := decimal_of_pos h
    exact ⟨c, cs, hc, by omega⟩

theorem isSigned_signedDecimal (z : ℤ) : isSigned (signedDecimal z) = true := by
  unfold signedDecimal
  split
  · rename_i h
    have hpos : 0 < z.natAbs := by omega
    obtain ⟨c, cs, hc, h₁, -⟩ := decimal_of_pos hpos
    have hne : decimal z.natAbs ≠ [digitUnit 0] := by
      intro h0
      rw [hc] at h0
      have : c.val = (digitUnit 0).val := congrArg Fin.val (List.cons.inj h0).1
      rw [val_digitUnit (by norm_num)] at this
      omega
    simp [isSigned, isUnsigned_decimal, hne]
  · obtain ⟨c, cs, hc, hne⟩ := val_head_decimal z.natAbs
    have hu := isUnsigned_decimal z.natAbs
    rw [hc] at hu ⊢
    simp [isSigned, hne, hu]

theorem signedValue_signedDecimal (z : ℤ) : signedValue (signedDecimal z) = z := by
  unfold signedDecimal
  split
  · simp only [signedValue, Fin.isValue, Fin.coe_ofNat_eq_mod, Nat.reduceMod, if_true,
      unsignedValue_decimal]
    omega
  · obtain ⟨c, cs, hc, hne⟩ := val_head_decimal z.natAbs
    have hv := unsignedValue_decimal z.natAbs
    rw [hc] at hv ⊢
    simp only [signedValue, if_neg hne, hv]
    omega

theorem length_signedDecimal_le {z : ℤ} {k : ℕ} (hk : 0 < k) (h : z.natAbs < 10 ^ k) :
    (signedDecimal z).length ≤ k + 1 := by
  have := length_decimal_le hk h
  unfold signedDecimal
  split <;> simp <;> omega

end PandaPay
