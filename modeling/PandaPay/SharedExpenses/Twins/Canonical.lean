import PandaPay.SharedExpenses.Canonical
import PandaPay.SharedExpenses.Dart.Canonical

/-!
# The two printers of canonical JSON

A command is hashed by its canonical text, in the app before it is sent and in the API when it
arrives. The texts are the same wherever both printers accept a value; they part only over numbers.
The absolute value of the least 64-bit integer overflows in Dart, so that it passes for a safe
integer there; and a double with an integral value is no `int`, though it is a safe integer to
JavaScript.

## Main definitions

* `Dart.SoundText`: the text of a value is read back, has the same text again, determines the
  value up to key order, and is printed by both printers
* `Dart.NumbersAgree`: the numbers of a value are no reason for only one printer to refuse it

## Main results

* `Dart.soundText_iff`: exactly which values have a sound text
-/

namespace PandaPay.SharedExpenses.Dart

open Json

/-- The text of a value is read back as the same value, which is printed alike; it is the text of
no value that differs by more than key order; and both printers print it. -/
structure SoundText (value : DartValue) : Prop where
  parse_back : ∀ text, canonicalJson value.toJson = .ok text → ∃ again, parse text = some again ∧
    Reorder value.toJson again ∧ canonicalJson again = .ok text
  injective : ∀ (other : Json) text text', other.Distinct → canonicalJson value.toJson = .ok text →
    canonicalJson other = .ok text' → (text = text' ↔ Reorder value.toJson other)
  twins : ∀ text, sharedCanonicalJson value = .ok text ↔ canonicalJson value.toJson = .ok text

/-- The least 64-bit integer. -/
def leastInt : DartNumber := .int (BitVec.intMin 64)

/-- If the least integer is among the numbers, Dart refuses another one; if a double with a safe
integral value is, JavaScript refuses some number. -/
def NumbersAgree (value : DartValue) : Prop :=
  (leastInt ∈ value.numbers 17 → ∃ n ∈ value.numbers 17, isSafeInt n = false) ∧
  ((∃ x, .double x ∈ value.numbers 17 ∧ isSafeNumber x = true) →
    ∃ n ∈ value.numbers 17, isSafeNumber n.toJson = false)

theorem isSafeNumber_leastInt : isSafeNumber leastInt.toJson = false := by decide

/-- But for the least one, the printers accept the same `int`s. -/
theorem isSafeInt_int {n : BitVec 64} (h : n ≠ BitVec.intMin 64) :
    isSafeInt (.int n) = isSafeNumber (DartNumber.int n).toJson := by
  have habs := BitVec.toInt_abs_eq_natAbs_of_ne_intMin h
  simp only [isSafeInt, isSafeNumber, DartNumber.toJson, habs]
  exact decide_eq_decide.mpr (by omega)

/-- Both printers accept the numbers of a value, or neither does, exactly when the numbers agree. -/
theorem numbersAgree_iff (value : DartValue) :
    NumbersAgree value ↔ ((∀ n ∈ value.numbers 17, isSafeInt n = true) ↔
      ∀ n ∈ value.numbers 17, isSafeNumber n.toJson = true) := by
  constructor
  · rintro ⟨hleast, hdouble⟩
    constructor
    · intro hdart n hn
      cases n with
      | double x => exact Bool.noConfusion (hdart _ hn)
      | int n =>
        have hne : n ≠ BitVec.intMin 64 := by
          rintro rfl
          obtain ⟨m, hm, hbad⟩ := hleast hn
          rw [hdart m hm] at hbad
          exact Bool.noConfusion hbad
        rw [← isSafeInt_int hne]
        exact hdart _ hn
    · intro hjs n hn
      have hsafe := hjs n hn
      cases n with
      | double x =>
        obtain ⟨m, hm, hbad⟩ := hdouble ⟨x, hn, hsafe⟩
        rw [hjs m hm] at hbad
        exact Bool.noConfusion hbad
      | int n =>
        have hne : n ≠ BitVec.intMin 64 := by
          rintro rfl
          exact Bool.noConfusion (isSafeNumber_leastInt.symm.trans hsafe)
        rw [isSafeInt_int hne]
        exact hsafe
  · intro h
    constructor
    · intro hleast
      by_contra! hall
      have hdart : ∀ n ∈ value.numbers 17, isSafeInt n = true :=
        fun n hn => Bool.eq_true_of_not_eq_false (hall n hn)
      exact Bool.noConfusion (isSafeNumber_leastInt.symm.trans (h.mp hdart _ hleast))
    · rintro ⟨x, hx, -⟩
      by_contra! hall
      have hjs : ∀ n ∈ value.numbers 17, isSafeNumber n.toJson = true :=
        fun n hn => Bool.eq_true_of_not_eq_false (hall n hn)
      exact Bool.noConfusion (h.mpr hjs _ hx)

/-- The printers accept and print a value alike exactly when its numbers agree, or the limits rule
it out in both. -/
theorem twins_iff (value : DartValue) :
    (∀ text, sharedCanonicalJson value = .ok text ↔ canonicalJson value.toJson = .ok text) ↔
      (WithinLimits MAX_COMMAND_BYTES value.toJson → NumbersAgree value) := by
  have hdart := fun text => @sharedCanonicalJson_eq_ok 65536 value text
  rw [numbersAgree_iff]
  simp only [hdart, canonicalJson_eq_ok, DartValue.numbers_toJson, List.forall_mem_map,
    MAX_COMMAND_BYTES]
  constructor
  · intro h hlimits
    have htext := h (textOf 17 value.toJson)
    simpa only [hlimits, true_and, and_true] using htext
  · intro h text
    refine and_congr_left fun _ => and_congr_right fun hlimits => ?_
    exact h hlimits

/-- A value has a sound text exactly when its numbers agree, or the limits on depth, lengths, keys,
bytes and nodes rule it out. -/
theorem soundText_iff {value : DartValue} (hd : value.toJson.Distinct) :
    SoundText value ↔ (WithinLimits MAX_COMMAND_BYTES value.toJson → NumbersAgree value) := by
  rw [← twins_iff]
  constructor
  · exact fun h => h.twins
  · intro htwins
    constructor
    · intro text h
      refine ⟨sortKeys 17 value.toJson, parse_canonicalJson hd h, reorder_sortKeys _ _, ?_⟩
      rw [canonicalJson_sortKeys, h]
    · exact fun other text text' hd' h h' => canonicalJson_eq_iff hd hd' h h'
    · exact htwins

/-- A command without numbers has a sound text. -/
theorem soundText_command :
    SoundText (.map [(js "title", .str (js "Trip")), (js "members", .list [.null])]) := by
  refine (soundText_iff ?_).mpr fun _ => ?_
  · refine .obj _ (by decide) ?_
    rintro f hf
    rcases List.mem_pair.mp hf with rfl | rfl
    · exact .str _
    · exact .arr _ fun item hitem => List.mem_singleton.mp hitem ▸ .null
  · constructor
    · exact fun h => nomatch h
    · rintro ⟨x, hx, -⟩
      exact nomatch hx

/-- Dart prints the least integer, which JavaScript refuses; JavaScript prints the double one,
which Dart refuses. -/
theorem not_soundText_leastInt : ¬ SoundText (.num leastInt) ∧
    ¬ SoundText (.num (.double (.int 1))) := by
  constructor
  · intro h
    have htext := (h.twins (js "-9223372036854775808")).mp rfl
    exact nomatch htext
  · intro h
    have htext := (h.twins (js "1")).mpr rfl
    exact nomatch htext

end PandaPay.SharedExpenses.Dart
