import PandaPay.Json.Stringify

/-!
# Reading back the numerals that JavaScript prints

`String(x)` writes the digits of a number with zeros around them, a point between them, or an
exponent after them. `JSON.parse` reads each of these as the number.

## Main definitions

* `JsonNumber.Shortest`: a number in the form that numerals are read as
* `JsonNumber.printed`: the number that is read back, `0` for `-0`

## Main results

* `readNumber_toText`: the text of a number is read back
-/

namespace PandaPay

/-! ### Digits -/

theorem unsignedValue_append (s t : JsString) :
    unsignedValue (s ++ t) = unsignedValue s * 10 ^ t.length + unsignedValue t := by
  rw [unsignedValue, List.reverse_append, List.map_append, Nat.ofDigits_append, List.length_map,
    List.length_reverse, unsignedValue, unsignedValue]
  ring

theorem unsignedValue_zeros (k : ℕ) : unsignedValue (List.replicate k 48) = 0 := by
  induction k with
  | zero => rfl
  | succ k ih =>
    rw [List.replicate_succ', unsignedValue_append, ih]
    rfl

theorem unsignedValue_append_zeros (s : JsString) (k : ℕ) :
    unsignedValue (s ++ List.replicate k 48) = unsignedValue s * 10 ^ k := by
  rw [unsignedValue_append, unsignedValue_zeros, List.length_replicate, Nat.add_zero]

theorem unsignedValue_zeros_append (k : ℕ) (s : JsString) :
    unsignedValue (List.replicate k 48 ++ s) = unsignedValue s := by
  rw [unsignedValue_append, unsignedValue_zeros, Nat.zero_mul, Nat.zero_add]

/-- Digits followed by something else are taken as a whole. -/
theorem takeWhile_isDigit_append {digits rest : JsString} (hd : ∀ c ∈ digits, isDigit c = true)
    (hrest : ∀ c ∈ rest.head?, isDigit c = false) :
    (digits ++ rest).takeWhile isDigit = digits ∧ (digits ++ rest).dropWhile isDigit = rest := by
  have htail : rest.takeWhile isDigit = [] ∧ rest.dropWhile isDigit = rest := by
    cases rest with
    | nil => exact ⟨rfl, rfl⟩
    | cons c r =>
      have hc : ¬ isDigit c = true := by simp [hrest c rfl]
      exact ⟨List.takeWhile_cons_of_neg hc, List.dropWhile_cons_of_neg hc⟩
  rw [List.takeWhile_append_of_pos hd, List.dropWhile_append_of_pos hd, htail.1, htail.2,
    List.append_nil]
  exact ⟨rfl, rfl⟩

namespace JsonNumber

/-- Only zeros are trimmed. -/
theorem trimZeros_append_zeros (s : JsString) : ∃ k, s = trimZeros s ++ List.replicate k 48 := by
  have hsplit := @List.takeWhile_append_dropWhile CodeUnit (fun c => decide (c.val = 48)) s.reverse
  have hzeros : ∃ k, s.reverse.takeWhile (fun c => decide (c.val = 48)) = List.replicate k 48 := by
    refine ⟨_, List.eq_replicate_iff.mpr ⟨rfl, fun c hc => Fin.ext ?_⟩⟩
    have := List.mem_takeWhile_imp hc
    exact of_decide_eq_true this
  obtain ⟨k, hk⟩ := hzeros
  refine ⟨k, ?_⟩
  conv_lhs => rw [← List.reverse_reverse s, ← hsplit, List.reverse_append, hk,
    List.reverse_replicate]
  rfl

/-- Digits that do not end with a zero. -/
def EndsNonzero (s : JsString) : Prop := ∃ t c, s = t ++ [c] ∧ c.val ≠ 48

theorem trimZeros_eq_self {s : JsString} (h : EndsNonzero s) : trimZeros s = s := by
  obtain ⟨t, c, rfl, hc⟩ := h
  rw [trimZeros, List.reverse_append, List.reverse_singleton, List.singleton_append,
    List.dropWhile_cons_of_neg (by simpa using hc), List.reverse_cons, List.reverse_reverse]

theorem EndsNonzero.append {s : JsString} (h : EndsNonzero s) (t : JsString) :
    EndsNonzero (t ++ s) := by
  obtain ⟨u, c, rfl, hc⟩ := h
  exact ⟨t ++ u, c, by rw [List.append_assoc], hc⟩

/-- Trimming the digits of a positive number leaves some that do not end with a zero. -/
theorem endsNonzero_trimZeros {s : JsString} (h : unsignedValue s ≠ 0) :
    EndsNonzero (trimZeros s) := by
  obtain ⟨k, hs⟩ := trimZeros_append_zeros s
  have hne : s.reverse.dropWhile (fun c => decide (c.val = 48)) ≠ [] := by
    intro hnil
    rw [hs, trimZeros, hnil, List.reverse_nil, List.nil_append, unsignedValue_zeros] at h
    exact h rfl
  obtain ⟨c, cs, hc⟩ := List.exists_cons_of_ne_nil hne
  refine ⟨cs.reverse, c, by rw [trimZeros, hc, List.reverse_cons], ?_⟩
  have := List.head_dropWhile_not (fun c : CodeUnit => decide (c.val = 48)) hne
  simp only [hc, List.head_cons] at this
  simpa using this

/-- The digits of a number that ten does not divide. -/
theorem endsNonzero_decimal {n : ℕ} (h : ¬ 10 ∣ n) : EndsNonzero (decimal n) := by
  have hpos : unsignedValue (decimal n) ≠ 0 := by
    rw [unsignedValue_decimal]
    rintro rfl
    exact h (dvd_zero 10)
  obtain ⟨k, hs⟩ := trimZeros_append_zeros (decimal n)
  have hk : k = 0 := by
    by_contra hk
    apply h
    rw [← unsignedValue_decimal n, hs, unsignedValue_append_zeros]
    exact Dvd.dvd.mul_left (dvd_pow_self 10 hk) _
  rw [hs, hk, List.replicate_zero, List.append_nil]
  exact endsNonzero_trimZeros hpos

/-! ### Numerals -/

/-- The digits after a point. -/
def pointText (f : JsString) : JsString := if f = [] then [] else js "." ++ f

/-- An exponent with its sign. -/
def exponentText : Option ℤ → JsString
  | none => []
  | some e => js (if e < 0 then "e-" else "e+") ++ decimal e.natAbs

/-- A minus sign. -/
def signText (negative : Bool) : JsString := if negative then js "-" else []

def sign (negative : Bool) : ℤ := if negative then -1 else 1

/-- What follows a numeral starts with no digit, point or exponent. -/
theorem head_exponentText {e : Option ℤ} {rest : JsString} (h : Json.Stops rest) :
    ∀ c ∈ (exponentText e ++ rest).head?, isDigit c = false ∧ c.val ≠ 46 := by
  intro c hc
  cases e with
  | none =>
    cases rest with
    | nil => cases hc
    | cons d r =>
      have hd := h d r rfl
      cases hc
      simp only [isDigit, decide_eq_false_iff_not]
      omega
  | some e =>
    unfold exponentText at hc
    dsimp only at hc
    split at hc <;> cases hc <;> decide

theorem readExponent_signed (negative : Bool) {digits rest : JsString} (hne : digits ≠ [])
    (htake : (digits ++ rest).takeWhile isDigit = digits)
    (hdrop : (digits ++ rest).dropWhile isDigit = rest) :
    readExponent (101 :: (if negative then 45 else 43) :: (digits ++ rest)) =
      some (sign negative * unsignedValue digits, rest) := by
  cases negative <;> simp [readExponent, sign, htake, hdrop, hne]

theorem readExponent_exponentText (e : Option ℤ) {rest : JsString} (h : Json.Stops rest) :
    readExponent (exponentText e ++ rest) = some (e.getD 0, rest) := by
  cases e with
  | none => exact Json.readExponent_of_stops h
  | some e =>
    obtain ⟨htake, hdrop⟩ :=
      Json.takeWhile_isDigit (isDigit_of_isUnsigned (isUnsigned_decimal e.natAbs)) h
    have hne : decimal e.natAbs ≠ [] := by
      obtain ⟨c, cs, hc, -⟩ := val_head_decimal e.natAbs
      simp [hc]
    have hread := readExponent_signed (decide (e < 0)) hne htake hdrop
    have htext : exponentText (some e) ++ rest =
        101 :: (if decide (e < 0) then 45 else 43) :: (decimal e.natAbs ++ rest) := by
      by_cases he : e < 0 <;> simp [exponentText, he] <;> rfl
    rw [htext, hread, unsignedValue_decimal, sign]
    refine congrArg some (Prod.ext ?_ rfl)
    simp only [decide_eq_true_eq, Option.getD_some]
    split <;> omega

/-- A numeral made of its parts is read as the number they denote. -/
theorem readNumber_parts (negative : Bool) {w f : JsString} {e : Option ℤ}
    (hw : isUnsigned w = true) (hf : ∀ c ∈ f, isDigit c = true) {rest : JsString}
    (h : Json.Stops rest) :
    readNumber (signText negative ++ (w ++ (pointText f ++ (exponentText e ++ rest)))) =
      some (numberOf negative w f (e.getD 0), rest) := by
  have hexponent := head_exponentText (e := e) h
  have hdigits := isDigit_of_isUnsigned hw
  -- what follows the whole part
  have hpoint : ∀ c ∈ (pointText f ++ (exponentText e ++ rest)).head?, isDigit c = false := by
    intro c hc
    unfold pointText at hc
    split at hc
    · exact (hexponent c hc).1
    · cases hc
      decide
  obtain ⟨hwtake, hwdrop⟩ := takeWhile_isDigit_append hdigits hpoint
  have hfraction : readFraction (pointText f ++ (exponentText e ++ rest)) =
      some (f, exponentText e ++ rest) := by
    unfold pointText
    split
    · rename_i hnil
      rw [hnil, List.nil_append]
      cases htail : exponentText e ++ rest with
      | nil => rfl
      | cons c r =>
        rw [readFraction, if_neg (hexponent c (by rw [htail]; rfl)).2]
    · rename_i hne
      obtain ⟨htake, hdrop⟩ := takeWhile_isDigit_append hf fun c hc => (hexponent c hc).1
      have htext : js "." ++ f ++ (exponentText e ++ rest) =
          46 :: (f ++ (exponentText e ++ rest)) := rfl
      rw [htext, readFraction, if_pos (by decide), htake, hdrop, if_neg hne]
  obtain ⟨c, cs, hc⟩ : ∃ c cs, w = c :: cs := by
    cases w with
    | nil => cases hw
    | cons c cs => exact ⟨c, cs, rfl⟩
  have hminus : c.val ≠ 45 := by
    have := hdigits c (by rw [hc]; exact List.mem_cons_self)
    simp only [isDigit, decide_eq_true_eq] at this
    omega
  have hhead : ((signText negative ++ (w ++ (pointText f ++ (exponentText e ++ rest)))).head?.any
      (·.val = 45)) = negative := by
    cases negative
    · rw [hc]
      simp [signText, hminus]
    · rfl
  have htail : (if negative = true then
        (signText negative ++ (w ++ (pointText f ++ (exponentText e ++ rest)))).tail
      else signText negative ++ (w ++ (pointText f ++ (exponentText e ++ rest)))) =
      w ++ (pointText f ++ (exponentText e ++ rest)) := by
    cases negative <;> rfl
  unfold readNumber
  simp only [hhead, htail, hwtake, hwdrop, hw, hfraction, readExponent_exponentText e h,
    Option.bind_eq_bind, Option.bind_some, Bool.true_eq_false, if_false]
  rfl

/-! ### Printed numbers -/

/-- The number with the digits `s` before the point, moved to the place `n`. -/
def scaled (negative : Bool) (s : JsString) (n : ℤ) : JsonNumber :=
  if s.length ≤ n then .int (sign negative * unsignedValue s * 10 ^ (n - s.length).toNat)
  else .fraction (sign negative * unsignedValue s) (s.length - n).toNat

/-- Digits with a point, or an exponent, are read at their place. -/
theorem numberOf_eq_scaled {w f z s : JsString} {e : ℤ} (hparts : w ++ f = z ++ s)
    (hz : ∀ c ∈ z, c = 48) (hs : EndsNonzero s) (hvalue : unsignedValue s ≠ 0)
    (hplain : ¬ (f = [] ∧ e = 0)) (negative : Bool) :
    numberOf negative w f e = scaled negative s (s.length - f.length + e) := by
  have hall : unsignedValue (z ++ s) = unsignedValue s := by
    rw [List.eq_replicate_iff.mpr ⟨rfl, hz⟩, unsignedValue_zeros_append]
  have htrim : ((z ++ s).reverse.dropWhile fun c => decide (c.val = 48)).reverse = z ++ s :=
    trimZeros_eq_self (hs.append z)
  unfold numberOf
  simp only [hparts, htrim, hall, if_neg hvalue, if_neg hplain, Nat.sub_self, Nat.cast_zero]
  rw [scaled, sign]
  have hplace : (s.length : ℤ) ≤ s.length - f.length + e ↔ 0 ≤ e - f.length + 0 := by omega
  simp only [hplace]
  split
  · congr 3
    omega
  · congr 1
    omega

/-- The parts of a printed number, and the number they denote. -/
theorem digitsText_parts {s : JsString} {c : CodeUnit} {cs : JsString} (hcons : s = c :: cs)
    (hc : 49 ≤ c.val ∧ c.val ≤ 57) (hdigits : ∀ d ∈ s, isDigit d = true) (hs : EndsNonzero s)
    (hvalue : unsignedValue s ≠ 0) (n : ℤ) :
    ∃ w f e, digitsText s n = w ++ (pointText f ++ exponentText e) ∧ isUnsigned w = true ∧
      (∀ d ∈ f, isDigit d = true) ∧
      ∀ negative, numberOf negative w f (e.getD 0) = scaled negative s n := by
  have hlen : s.length = cs.length + 1 := by rw [hcons, List.length_cons]
  have htakeDigits : ∀ k, 0 < k → isUnsigned (s.take k) = true := by
    intro k hk
    obtain ⟨k, rfl⟩ := Nat.exists_eq_succ_of_ne_zero hk.ne'
    rw [hcons, List.take_succ_cons]
    simp only [isUnsigned, decide_eq_true_eq]
    refine .inr ⟨hc.1, hc.2, List.all_eq_true.mpr fun d hd => hdigits d ?_⟩
    rw [hcons]
    exact List.mem_cons_of_mem _ (List.mem_of_mem_take hd)
  unfold digitsText
  split
  · -- zeros after the digits
    rename_i hn
    refine ⟨s ++ List.replicate (n.toNat - s.length) 48, [], none, ?_, ?_, ?_, ?_⟩
    · simp [pointText, exponentText]
    · rw [hcons, List.cons_append]
      simp only [isUnsigned, decide_eq_true_eq]
      refine .inr ⟨hc.1, hc.2, List.all_eq_true.mpr fun d hd => ?_⟩
      rcases List.mem_append.mp hd with hd | hd
      · exact hdigits d (by rw [hcons]; exact List.mem_cons_of_mem _ hd)
      · rw [List.eq_of_mem_replicate hd]
        rfl
    · intro d hd
      cases hd
    · intro negative
      have hne : unsignedValue (s ++ List.replicate (n.toNat - s.length) 48) ≠ 0 := by
        rw [unsignedValue_append_zeros]
        exact Nat.mul_ne_zero hvalue (pow_ne_zero _ (by decide))
      unfold numberOf
      simp only [List.append_nil, if_neg hne, Option.getD_none, and_self, if_true]
      rw [scaled, if_pos hn.1, unsignedValue_append_zeros, sign]
      have hexp : (n - s.length).toNat = n.toNat - s.length := by omega
      rw [hexp]
      push_cast
      ring_nf
  · split
    · -- a point between the digits
      rename_i hn hpoint
      have hdrop : s.drop n.toNat ≠ [] := by
        rw [ne_eq, List.drop_eq_nil_iff]
        omega
      refine ⟨s.take n.toNat, s.drop n.toNat, none, ?_, htakeDigits _ (by omega), ?_, ?_⟩
      · simp [pointText, exponentText, hdrop]
      · exact fun d hd => hdigits d (List.mem_of_mem_drop hd)
      · intro negative
        have hparts : s.take n.toNat ++ s.drop n.toNat = [] ++ s := List.take_append_drop _ _
        rw [numberOf_eq_scaled hparts (by simp) hs hvalue (fun h => hdrop h.1) negative,
          List.length_drop, Option.getD_none]
        congr 1
        omega
    · split
      · -- zeros before the digits
        rename_i hn hpoint hsmall
        refine ⟨js "0", List.replicate (-n).toNat 48 ++ s, none, ?_, rfl, ?_, ?_⟩
        · have hne : List.replicate (-n).toNat 48 ++ s ≠ [] := by
            rw [hcons]
            exact List.append_ne_nil_of_right_ne_nil _ (List.cons_ne_nil _ _)
          rw [pointText, if_neg hne, exponentText, List.append_nil]
          rfl
        · intro d hd
          rcases List.mem_append.mp hd with hd | hd
          · rw [List.eq_of_mem_replicate hd]
            rfl
          · exact hdigits d hd
        · intro negative
          have hparts : js "0" ++ (List.replicate (-n).toNat 48 ++ s) =
              List.replicate ((-n).toNat + 1) 48 ++ s := rfl
          rw [numberOf_eq_scaled hparts (fun _ => List.eq_of_mem_replicate) hs hvalue
            (by rw [hcons]; simp) negative, List.length_append, List.length_replicate,
            Option.getD_none]
          congr 1
          omega
      · -- an exponent
        rename_i hn hpoint hsmall
        refine ⟨s.take 1, s.drop 1, some (n - 1), ?_, htakeDigits 1 one_pos, ?_, ?_⟩
        · have hdrop : s.drop 1 = [] ↔ s.length = 1 := by
            rw [List.drop_eq_nil_iff]
            omega
          simp only [pointText, hdrop, exponentText, List.append_assoc]
        · exact fun d hd => hdigits d (List.mem_of_mem_drop hd)
        · intro negative
          have hparts : s.take 1 ++ s.drop 1 = [] ++ s := List.take_append_drop _ _
          have hexp : n - 1 ≠ 0 := by omega
          rw [Option.getD_some, numberOf_eq_scaled hparts (by simp) hs hvalue (fun h => hexp h.2)
            negative, List.length_drop]
          congr 1
          omega

/-- A number in the form that numerals are read as: a fraction has no zero at the end of its
digits. -/
def Shortest : JsonNumber → Prop
  | .int _ => True
  | .negZero => True
  | .fraction d places => 0 < places ∧ ¬ 10 ∣ d.natAbs

/-- The number that is read back, `0` for `-0`. -/
def printed : JsonNumber → JsonNumber
  | .negZero => .int 0
  | n => n

theorem toText_printed (n : JsonNumber) : n.printed.toText = n.toText := by
  cases n <;> rfl

theorem absText_of_ne {m : ℕ} (h : m ≠ 0) (places : ℕ) :
    absText m places = digitsText (trimZeros (decimal m)) ((decimal m).length - places) :=
  if_neg h

/-- The text of a number: a sign, and the parts of the number they denote. -/
theorem toText_parts {x : JsonNumber} (h : x.Shortest) :
    ∃ negative w f e, x.toText = signText negative ++ (w ++ (pointText f ++ exponentText e)) ∧
      isUnsigned w = true ∧ (∀ d ∈ f, isDigit d = true) ∧
      numberOf negative w f (e.getD 0) = x.printed := by
  -- the digits of a positive number, without the zeros at their end
  have hpositive : ∀ (m : ℕ) (n : ℤ), m ≠ 0 →
      ∃ w f e, digitsText (trimZeros (decimal m)) n = w ++ (pointText f ++ exponentText e) ∧
        isUnsigned w = true ∧ (∀ d ∈ f, isDigit d = true) ∧
        ∀ negative, numberOf negative w f (e.getD 0) = scaled negative (trimZeros (decimal m)) n := by
    intro m n hm
    obtain ⟨k, hk⟩ := trimZeros_append_zeros (decimal m)
    have hvalue : unsignedValue (decimal m) ≠ 0 := by rwa [unsignedValue_decimal]
    have hends := endsNonzero_trimZeros hvalue
    have htrimmed : unsignedValue (trimZeros (decimal m)) ≠ 0 := by
      intro hzero
      rw [hk, unsignedValue_append_zeros, hzero, Nat.zero_mul] at hvalue
      exact hvalue rfl
    obtain ⟨c, cs, hc, hlow, hhigh, -⟩ := decimal_of_pos (Nat.pos_of_ne_zero hm)
    have hne : trimZeros (decimal m) ≠ [] := by
      obtain ⟨t, d, ht, -⟩ := hends
      rw [ht]
      simp
    obtain ⟨c', cs', hcons⟩ := List.exists_cons_of_ne_nil hne
    have hhead : c' = c := by
      have := hk
      rw [hcons, List.cons_append] at this
      exact (List.cons.inj (hc.symm.trans this)).1.symm
    refine digitsText_parts hcons (hhead ▸ ⟨hlow, hhigh⟩) ?_ hends htrimmed n
    intro d hd
    refine isDigit_of_isUnsigned (isUnsigned_decimal m) d ?_
    rw [hk]
    exact List.mem_append_left _ hd
  cases x with
  | negZero => exact ⟨false, js "0", [], none, rfl, rfl, by simp, rfl⟩
  | int z =>
    by_cases hz : z = 0
    · subst hz
      exact ⟨false, js "0", [], none, rfl, rfl, by simp, rfl⟩
    · obtain ⟨w, f, e, htext, hw, hf, hnumber⟩ :=
        hpositive z.natAbs ((decimal z.natAbs).length - (0 : ℕ)) (by omega)
      refine ⟨decide (z < 0), w, f, e, ?_, hw, hf, ?_⟩
      · rw [toText, absText_of_ne (by omega), htext, signText]
        simp only [decide_eq_true_eq]
      · obtain ⟨k, hk⟩ := trimZeros_append_zeros (decimal z.natAbs)
        have hlength := congrArg List.length hk
        rw [List.length_append, List.length_replicate] at hlength
        have hvalue := congrArg unsignedValue hk
        rw [unsignedValue_decimal, unsignedValue_append_zeros] at hvalue
        change _ = JsonNumber.int z
        rw [hnumber, scaled, if_pos (by omega), sign, mul_assoc]
        have hexp : ((decimal z.natAbs).length - (0 : ℕ) -
            ((trimZeros (decimal z.natAbs)).length : ℤ)).toNat = k := by omega
        rw [hexp, show (unsignedValue (trimZeros (decimal z.natAbs)) : ℤ) * 10 ^ k = z.natAbs by
          exact_mod_cast hvalue.symm]
        simp only [decide_eq_true_eq, JsonNumber.int.injEq]
        split <;> omega
  | fraction d places =>
    obtain ⟨hplaces, hten⟩ := h
    have hd : d.natAbs ≠ 0 := by
      rintro hzero
      exact hten (hzero ▸ dvd_zero 10)
    obtain ⟨w, f, e, htext, hw, hf, hnumber⟩ :=
      hpositive d.natAbs ((decimal d.natAbs).length - places) hd
    refine ⟨decide (d < 0), w, f, e, ?_, hw, hf, ?_⟩
    · rw [toText, absText_of_ne hd, htext, signText]
      simp only [decide_eq_true_eq]
    · change _ = JsonNumber.fraction d places
      rw [hnumber, trimZeros_eq_self (endsNonzero_decimal hten), scaled, if_neg (by omega),
        unsignedValue_decimal, sign]
      simp only [decide_eq_true_eq, JsonNumber.fraction.injEq]
      constructor
      · split <;> omega
      · omega

/-- The text of a number is read back. -/
theorem readNumber_toText {x : JsonNumber} (hx : x.Shortest) {rest : JsString}
    (h : Json.Stops rest) : readNumber (x.toText ++ rest) = some (x.printed, rest) := by
  obtain ⟨negative, w, f, e, htext, hw, hf, hnumber⟩ := toText_parts hx
  rw [htext, ← hnumber, ← readNumber_parts negative hw hf h]
  simp only [List.append_assoc]

/-- The text of a number starts with a minus sign or a digit. -/
theorem head_toText {x : JsonNumber} (hx : x.Shortest) :
    ∃ c cs, x.toText = c :: cs ∧ (c.val = 45 ∨ isDigit c = true) := by
  obtain ⟨negative, w, f, e, htext, hw, -, -⟩ := toText_parts hx
  rw [htext]
  cases negative with
  | true => exact ⟨45, _, rfl, .inl rfl⟩
  | false =>
    cases w with
    | nil => cases hw
    | cons c cs => exact ⟨c, _, rfl, .inr (isDigit_of_isUnsigned hw c List.mem_cons_self)⟩

end JsonNumber

end PandaPay
