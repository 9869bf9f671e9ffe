import PandaPay.Json.RoundTrip

/-!
# What `JSON.parse` accepts

A value that was read has numbers in their form and objects with distinct keys: it is readable again.

## Main results

* `JsonNumber.shortest_of_readNumber`: the form of the numbers that are read
* `Json.readable_of_parse`: what is read is readable
-/

namespace PandaPay

namespace JsonNumber

theorem digitValue_ne_zero {c : CodeUnit} (hc : isDigit c = true) (hne : c.val ≠ 48) :
    digitValue c ≠ 0 := by
  simp only [isDigit, decide_eq_true_eq] at hc
  unfold digitValue
  omega

/-- Ten does not divide a number whose last digit is no zero. -/
theorem not_dvd_of_endsNonzero {s : JsString} (h : EndsNonzero s)
    (hdigits : ∀ c ∈ s, isDigit c = true) : ¬ 10 ∣ unsignedValue s := by
  obtain ⟨t, c, rfl, hne⟩ := h
  have hc := hdigits c (by simp)
  have hlast : unsignedValue [c] = digitValue c := by simp [unsignedValue]
  rw [unsignedValue_append, hlast, List.length_singleton, pow_one]
  have hlt := digitValue_lt hc
  have hpos := digitValue_ne_zero hc hne
  omega

/-- The number of a numeral has its form. -/
theorem shortest_numberOf {negative : Bool} {whole fraction : JsString} (exponent : ℤ)
    (hwhole : ∀ c ∈ whole, isDigit c = true) (hfraction : ∀ c ∈ fraction, isDigit c = true) :
    (numberOf negative whole fraction exponent).Shortest := by
  have hdigits : ∀ c ∈ trimZeros (whole ++ fraction), isDigit c = true := by
    intro c hc
    have hmem : c ∈ whole ++ fraction :=
      List.mem_reverse.mp ((List.dropWhile_sublist _).subset (List.mem_reverse.mp hc))
    rcases List.mem_append.mp hmem with h | h
    · exact hwhole c h
    · exact hfraction c h
  unfold numberOf
  dsimp only
  split
  · split <;> trivial
  rename_i hvalue
  split
  · trivial
  split
  · trivial
  rename_i hscale
  have hdvd := not_dvd_of_endsNonzero (endsNonzero_trimZeros hvalue) hdigits
  refine ⟨by omega, ?_⟩
  rw [Int.natAbs_mul, Int.natAbs_natCast]
  cases negative
  · simpa [trimZeros] using hdvd
  · simpa [trimZeros] using hdvd

theorem isDigit_of_takeWhile {s : JsString} {c : CodeUnit} (hc : c ∈ s.takeWhile isDigit) :
    isDigit c = true :=
  List.mem_takeWhile_imp hc

theorem isDigit_of_readFraction {s fraction rest : JsString}
    (h : readFraction s = some (fraction, rest)) : ∀ c ∈ fraction, isDigit c = true := by
  unfold readFraction at h
  split at h
  · split at h
    · split at h
      · cases h
      · cases h
        exact fun c hc => isDigit_of_takeWhile hc
    · cases h
      exact fun c hc => absurd hc List.not_mem_nil
  · cases h
    exact fun c hc => absurd hc List.not_mem_nil

/-- The form of the numbers that are read. -/
theorem shortest_of_readNumber {s rest : JsString} {n : JsonNumber}
    (h : readNumber s = some (n, rest)) : n.Shortest := by
  unfold readNumber at h
  generalize s.head?.any (·.val = 45) = negative at h
  dsimp only at h
  generalize (if negative = true then s.tail else s) = t at h
  split at h
  · cases h
  obtain ⟨⟨fraction, s'⟩, hfraction, h⟩ := Option.bind_eq_some_iff.mp h
  obtain ⟨⟨exponent, s''⟩, -, h⟩ := Option.bind_eq_some_iff.mp h
  cases h
  exact shortest_numberOf exponent (fun c hc => isDigit_of_takeWhile hc)
    (isDigit_of_readFraction hfraction)

end JsonNumber

namespace Json

variable {read : JsString → Option (Json × JsString)}

theorem readable_of_readItems (hread : ∀ s v rest, read s = some (v, rest) → Readable v) {fuel : ℕ}
    {s rest : JsString} {items : List Json} (h : readItems read fuel s = some (items, rest)) :
    ∀ item ∈ items, Readable item := by
  induction fuel generalizing s rest items with
  | zero => cases h
  | succ fuel ih =>
    obtain ⟨⟨item, s'⟩, hitem, h⟩ := Option.bind_eq_some_iff.mp h
    dsimp only at h
    split at h
    · cases h
    split at h
    · obtain ⟨⟨items, rest⟩, hitems, h⟩ := Option.bind_eq_some_iff.mp h
      cases h
      exact List.forall_mem_cons.mpr ⟨hread _ _ _ hitem, ih hitems⟩
    split at h
    · cases h
      exact List.forall_mem_singleton.mpr (hread _ _ _ hitem)
    · cases h

theorem readable_of_readFields (hread : ∀ s v rest, read s = some (v, rest) → Readable v)
    {fuel : ℕ} {s rest : JsString} {fields : List (JsString × Json)}
    (h : readFields read fuel s = some (fields, rest)) : ∀ f ∈ fields, Readable f.2 := by
  induction fuel generalizing s rest fields with
  | zero => cases h
  | succ fuel ih =>
    unfold readFields at h
    split at h
    · cases h
    split at h
    · obtain ⟨⟨key, s₁⟩, -, h⟩ := Option.bind_eq_some_iff.mp h
      dsimp only at h
      split at h
      · cases h
      split at h
      · obtain ⟨⟨value, s₂⟩, hvalue, h⟩ := Option.bind_eq_some_iff.mp h
        dsimp only at h
        split at h
        · cases h
        split at h
        · obtain ⟨⟨fields, rest⟩, hfields, h⟩ := Option.bind_eq_some_iff.mp h
          cases h
          exact List.forall_mem_cons.mpr ⟨hread _ _ _ hvalue, ih hfields⟩
        split at h
        · cases h
          exact List.forall_mem_singleton.mpr (hread _ _ _ hvalue)
        · cases h
      · cases h
    · cases h

/-- An object has distinct keys, however often they were given. -/
theorem readable_ofFields {fields : List (JsString × Json)} (h : ∀ f ∈ fields, Readable f.2) :
    Readable (ofFields fields) := by
  have hfold : ∀ (object : List (JsString × Json)), (object.map Prod.fst).Nodup →
      (∀ f ∈ object, Readable f.2) →
      Readable (.obj (fields.foldl
        (fun object field => InsertionMap.assign field.1 field.2 object) object)) := by
    induction fields with
    | nil => exact fun object hnodup hobject => .obj object hnodup hobject
    | cons field fields ih =>
      intro object hnodup hobject
      refine ih (fun f hf => h f (List.mem_cons_of_mem _ hf)) _
        (InsertionMap.nodup_map_fst_assign _ _ hnodup) fun f hf => ?_
      have hmap := @InsertionMap.mem_entries_set _ _ _ ⟨object, hnodup⟩ field.1 field.2 f hf
      rcases hmap with rfl | hf
      · exact h field List.mem_cons_self
      · exact hobject f hf
  exact hfold [] List.nodup_nil fun f hf => absurd hf List.not_mem_nil

theorem readable_of_readWord {word s rest : JsString} {value v : Json} (hvalue : Readable value)
    (h : readWord word value s = some (v, rest)) : Readable v := by
  unfold readWord at h
  split at h
  · cases h
    exact hvalue
  · cases h

theorem readable_of_readValue {fuel : ℕ} {s rest : JsString} {v : Json}
    (h : readValue fuel s = some (v, rest)) : Readable v := by
  induction fuel generalizing s rest v with
  | zero => cases h
  | succ fuel ih =>
    have hread : ∀ s v rest, readValue fuel s = some (v, rest) → Readable v := fun _ _ _ h => ih h
    unfold readValue at h
    split at h
    · cases h
    split at h
    · obtain ⟨_, -, h⟩ := Option.map_eq_some_iff.mp h
      cases h
      exact .str _
    split at h
    · -- an array
      split at h
      · cases h
      split at h
      · cases h
        exact .arr [] fun item hitem => absurd hitem List.not_mem_nil
      · obtain ⟨r, hr, h⟩ := Option.map_eq_some_iff.mp h
        cases h
        exact .arr _ (readable_of_readItems hread hr)
    split at h
    · -- an object
      split at h
      · cases h
      split at h
      · cases h
        exact .obj [] List.nodup_nil fun f hf => absurd hf List.not_mem_nil
      · obtain ⟨r, hr, h⟩ := Option.map_eq_some_iff.mp h
        cases h
        exact readable_ofFields (readable_of_readFields hread hr)
    split at h
    · exact readable_of_readWord .null h
    split at h
    · exact readable_of_readWord (.bool true) h
    split at h
    · exact readable_of_readWord (.bool false) h
    · obtain ⟨r, hr, h⟩ := Option.map_eq_some_iff.mp h
      cases h
      exact .num _ (JsonNumber.shortest_of_readNumber hr)

/-- What is read is readable. -/
theorem readable_of_parse {text : JsString} {v : Json} (h : parse text = some v) : Readable v := by
  unfold parse at h
  split at h
  · rename_i value rest hread
    split at h
    · cases h
      exact readable_of_readValue hread
    · cases h
  · cases h

end Json

end PandaPay
