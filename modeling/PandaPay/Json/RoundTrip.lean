import PandaPay.Json.Numeral
import PandaPay.Json.Reorder

/-!
# Reading back what `JSON.stringify` prints

`JSON.parse` reads the text of a value as the value, but for `-0`, which is printed as `0`.

## Main definitions

* `Json.Readable`: a value whose objects have distinct keys and whose numbers are in their form
* `Json.printed`: the value that is read back

## Main results

* `Json.parse_stringify`: the text of a value is read back
* `Json.stringify_printed`: what is read back has the same text
* `Json.le_of_mem_stringify`: a text has no control characters
-/

namespace PandaPay.Json

/-- A value whose objects have distinct keys and whose numbers are in the form that numerals are
read as. -/
inductive Readable : Json → Prop
  | null : Readable .null
  | bool (b : Bool) : Readable (.bool b)
  | num (n : JsonNumber) : n.Shortest → Readable (.num n)
  | str (s : JsString) : Readable (.str s)
  | arr (items : List Json) : (∀ item ∈ items, Readable item) → Readable (.arr items)
  | obj (fields : List (JsString × Json)) : (fields.map Prod.fst).Nodup →
      (∀ f ∈ fields, Readable f.2) → Readable (.obj fields)

mutual

/-- The value that is read back: `-0` is printed as `0`. -/
def printed : Json → Json
  | .null => .null
  | .bool b => .bool b
  | .num n => .num n.printed
  | .str s => .str s
  | .arr items => .arr (printedItems items)
  | .obj fields => .obj (printedFields fields)

/-- The elements of an array that is read back. -/
def printedItems : List Json → List Json
  | [] => []
  | item :: items => printed item :: printedItems items

/-- The fields of an object that is read back. -/
def printedFields : List (JsString × Json) → List (JsString × Json)
  | [] => []
  | field :: fields => (field.1, printed field.2) :: printedFields fields

end

theorem printed_arr (items : List Json) : printed (.arr items) = .arr (items.map printed) := by
  have : printedItems items = items.map printed := by
    induction items with
    | nil => rfl
    | cons item items ih => rw [printedItems, ih, List.map_cons]
  rw [printed, this]

theorem printed_obj (fields : List (JsString × Json)) :
    printed (.obj fields) = .obj (fields.map fun f => (f.1, printed f.2)) := by
  have : printedFields fields = fields.map fun f => (f.1, printed f.2) := by
    induction fields with
    | nil => rfl
    | cons field fields ih => rw [printedFields, ih, List.map_cons]
  rw [printed, this]

/-- What is read back has the same text. -/
theorem stringify_printed (value : Json) : stringify (printed value) = stringify value := by
  induction value using induct with
  | hnull => rfl
  | hbool b => rfl
  | hnum n => exact n.toText_printed
  | hstr s => rfl
  | harr items ih =>
    rw [printed_arr, stringify_arr, stringify_arr, List.map_map]
    exact congrArg (fun texts => js "[" ++ joinComma texts ++ js "]") (List.map_congr_left ih)
  | hobj fields ih =>
    rw [printed_obj, stringify_obj, stringify_obj, List.map_map]
    refine congrArg (fun texts => js "\x7b" ++ joinComma texts ++ js "\x7d")
      (List.map_congr_left fun f hf => ?_)
    simp only [Function.comp_apply, ih f hf]

/-! ### Reading -/

theorem startsValue_stringify {value : Json} (h : Readable value) :
    StartsValue (stringify value) := by
  cases h with
  | null => exact ⟨110, js "ull", rfl, by decide⟩
  | bool b =>
    cases b
    · exact ⟨102, js "alse", rfl, by decide⟩
    · exact ⟨116, js "rue", rfl, by decide⟩
  | num n hn =>
    obtain ⟨c, cs, hc, hhead⟩ := JsonNumber.head_toText hn
    refine ⟨c, cs, hc, ?_⟩
    simp only [isDigit, decide_eq_true_eq] at hhead
    omega
  | str s => exact ⟨34, s.flatMap escapeUnit ++ [34], rfl, by decide⟩
  | arr items => exact ⟨91, joinComma (stringifyItems items) ++ js "]", rfl, by decide⟩
  | obj fields => exact ⟨123, joinComma (stringifyFields fields) ++ js "\x7d", rfl, by decide⟩

theorem length_stringify_item {items : List Json} {item : Json} (h : item ∈ items) :
    (stringify item).length + 2 ≤ (stringify (.arr items)).length := by
  have := length_le_joinComma (List.mem_map_of_mem (f := stringify) h)
  simp only [stringify_arr, List.length_append]
  have h₁ : (js "[").length = 1 := by decide
  have h₂ : (js "]").length = 1 := by decide
  omega

theorem length_stringify_field {fields : List (JsString × Json)} {f : JsString × Json}
    (h : f ∈ fields) : (stringify f.2).length + 2 ≤ (stringify (.obj fields)).length := by
  have := length_le_joinComma (List.mem_map_of_mem
    (f := fun f : JsString × Json => quote f.1 ++ js ":" ++ stringify f.2) h)
  simp only [stringify_obj, List.length_append] at this ⊢
  have h₁ : (js "\x7b").length = 1 := by decide
  have h₂ : (js "\x7d").length = 1 := by decide
  omega

/-- Reading the text of a value leaves what follows the text. -/
theorem readValue_stringify {value : Json} (h : Readable value) :
    ∀ {fuel : ℕ}, (stringify value).length ≤ fuel → ∀ {rest : JsString}, Stops rest →
      readValue fuel (stringify value ++ rest) = some (printed value, rest) := by
  induction h with
  | null =>
    intro fuel hfuel rest hrest
    obtain ⟨fuel, rfl⟩ := Nat.exists_eq_add_of_le' (le_trans (by decide : 1 ≤ 4) hfuel)
    rw [readValue.eq_def]
    simp only [(startsValue_stringify .null).skipSpace_append rest]
    rfl
  | bool b =>
    intro fuel hfuel rest hrest
    have hpos : 1 ≤ (stringify (.bool b)).length := by cases b <;> decide
    obtain ⟨fuel, rfl⟩ := Nat.exists_eq_add_of_le' (le_trans hpos hfuel)
    rw [readValue.eq_def]
    simp only [(startsValue_stringify (.bool b)).skipSpace_append rest]
    cases b <;> rfl
  | num n hn =>
    intro fuel hfuel rest hrest
    have hread := JsonNumber.readNumber_toText hn hrest
    obtain ⟨c, cs, hc, hhead⟩ := JsonNumber.head_toText hn
    simp only [isDigit, decide_eq_true_eq] at hhead
    have hpos : 1 ≤ (stringify (.num n)).length := by
      rw [stringify, hc, List.length_cons]
      omega
    obtain ⟨fuel, rfl⟩ := Nat.exists_eq_add_of_le' (le_trans hpos hfuel)
    rw [readValue.eq_def]
    simp only [(startsValue_stringify (.num n hn)).skipSpace_append rest]
    simp only [stringify]
    rw [hc, List.cons_append] at hread ⊢
    simp only [hread]
    rw [if_neg (by omega), if_neg (by omega), if_neg (by omega), if_neg (by omega),
      if_neg (by omega), if_neg (by omega)]
    rfl
  | str s =>
    intro fuel hfuel rest hrest
    have hpos : 1 ≤ (stringify (.str s)).length := by
      rw [stringify, quote, List.length_cons]
      omega
    obtain ⟨fuel, rfl⟩ := Nat.exists_eq_add_of_le' (le_trans hpos hfuel)
    rw [readValue.eq_def]
    simp only [(startsValue_stringify (.str s)).skipSpace_append rest]
    simp only [stringify, quote, List.cons_append, readChars_quote]
    rfl
  | arr items hitems ih =>
    intro fuel hfuel rest hrest
    have hpos : 1 ≤ (stringify (.arr items)).length := by
      rw [stringify_arr, List.append_assoc, List.length_append]
      exact Nat.le_add_right_of_le (by decide)
    obtain ⟨fuel, rfl⟩ := Nat.exists_eq_add_of_le' (le_trans hpos hfuel)
    rw [printed_arr]
    cases items with
    | nil => rfl
    | cons item items =>
      rw [stringify_arr]
      apply readValue_arr (startsValue_stringify (hitems item List.mem_cons_self))
      intro v hv rest hrest
      have := length_stringify_item hv
      exact ih v hv (by omega) hrest
  | obj fields hnodup hfields ih =>
    intro fuel hfuel rest hrest
    have hpos : 1 ≤ (stringify (.obj fields)).length := by
      rw [stringify_obj, List.append_assoc, List.length_append]
      exact Nat.le_add_right_of_le (by decide)
    obtain ⟨fuel, rfl⟩ := Nat.exists_eq_add_of_le' (le_trans hpos hfuel)
    have hobj : ofFields (fields.map fun f => (f.1, printed f.2)) = printed (.obj fields) := by
      rw [printed_obj]
      apply ofFields_of_nodup
      rwa [List.map_map]
    have hread : ∀ f ∈ fields, ∀ rest, Stops rest →
        readValue fuel (stringify f.2 ++ rest) = some (printed f.2, rest) := by
      intro f hf rest hrest
      have := length_stringify_field hf
      exact ih f hf (by omega) hrest
    rw [← hobj]
    cases fields with
    | nil => rfl
    | cons f fields =>
      rw [stringify_obj]
      exact readValue_obj hread rest

/-- The text of a value is read back. -/
theorem parse_stringify {value : Json} (h : Readable value) :
    parse (stringify value) = some (printed value) := by
  have hnil : Stops [] := fun _ _ h => nomatch h
  have hread := readValue_stringify h le_rfl hnil
  rw [List.append_nil] at hread
  rw [parse, hread]
  rfl

/-! ### Code units -/

/-- A literal without control characters. -/
theorem le_of_mem_js {s : String} (h : (js s).all (fun c => 32 ≤ c.val) = true) :
    ∀ d ∈ js s, 32 ≤ d.val :=
  fun d hd => of_decide_eq_true (List.all_eq_true.mp h d hd)

theorem le_of_mem_escapeUnit {c d : CodeUnit} (h : d ∈ escapeUnit c) : 32 ≤ d.val := by
  unfold escapeUnit at h
  split_ifs at h with h34 h92 h8 h12 h10 h13 h9 h32
  · simp only [List.mem_cons, List.not_mem_nil, or_false] at h
    rcases h with rfl | rfl <;> decide
  · simp only [List.mem_cons, List.not_mem_nil, or_false] at h
    rcases h with rfl | rfl <;> decide
  · simp only [List.mem_cons, List.not_mem_nil, or_false] at h
    rcases h with rfl | rfl <;> decide
  · simp only [List.mem_cons, List.not_mem_nil, or_false] at h
    rcases h with rfl | rfl <;> decide
  · simp only [List.mem_cons, List.not_mem_nil, or_false] at h
    rcases h with rfl | rfl <;> decide
  · simp only [List.mem_cons, List.not_mem_nil, or_false] at h
    rcases h with rfl | rfl <;> decide
  · simp only [List.mem_cons, List.not_mem_nil, or_false] at h
    rcases h with rfl | rfl <;> decide
  · have h₁ := val_hexUnit (d := c.val / 16) (by omega)
    have h₂ := val_hexUnit (d := c.val % 16) (by omega)
    simp only [List.mem_cons, List.not_mem_nil, or_false] at h
    rcases h with rfl | rfl | rfl | rfl | rfl | rfl
    · decide
    · decide
    · decide
    · decide
    · rw [h₁]
      split <;> omega
    · rw [h₂]
      split <;> omega
  · rw [List.mem_singleton.mp h]
    omega

theorem le_of_mem_quote {s : JsString} {d : CodeUnit} (h : d ∈ quote s) : 32 ≤ d.val := by
  rcases List.mem_cons.mp h with rfl | h
  · decide
  · rcases List.mem_append.mp h with h | h
    · obtain ⟨c, -, hc⟩ := List.mem_flatMap.mp h
      exact le_of_mem_escapeUnit hc
    · rw [List.mem_singleton.mp h]
      decide

theorem mem_joinComma {texts : List JsString} {d : CodeUnit} (h : d ∈ joinComma texts) :
    d = 44 ∨ ∃ text ∈ texts, d ∈ text := by
  cases texts with
  | nil => cases h
  | cons text texts =>
    rcases List.mem_append.mp h with h | h
    · exact .inr ⟨text, List.mem_cons_self, h⟩
    · obtain ⟨t, ht, h⟩ := List.mem_flatMap.mp h
      rcases List.mem_append.mp h with h | h
      · exact .inl (List.mem_singleton.mp h)
      · exact .inr ⟨t, List.mem_cons_of_mem _ ht, h⟩

theorem le_of_mem_toText {x : JsonNumber} (hx : x.Shortest) {d : CodeUnit} (h : d ∈ x.toText) :
    32 ≤ d.val := by
  obtain ⟨negative, w, f, e, htext, hw, hf, -⟩ := JsonNumber.toText_parts hx
  have hdigit : ∀ c : CodeUnit, isDigit c = true → 32 ≤ c.val := by
    intro c hc
    simp only [isDigit, decide_eq_true_eq] at hc
    omega
  rw [htext] at h
  simp only [List.mem_append] at h
  rcases h with h | h | h | h
  · cases negative
    · cases h
    · rw [List.mem_singleton.mp h]
      decide
  · exact hdigit d (isDigit_of_isUnsigned hw d h)
  · unfold JsonNumber.pointText at h
    split at h
    · cases h
    · rcases List.mem_append.mp h with h | h
      · rw [List.mem_singleton.mp h]
        decide
      · exact hdigit d (hf d h)
  · cases e with
    | none => cases h
    | some e =>
      rcases List.mem_append.mp h with h | h
      · split at h
        · exact le_of_mem_js (by decide) d h
        · exact le_of_mem_js (by decide) d h
      · exact hdigit d (isDigit_of_isUnsigned (isUnsigned_decimal _) d h)

/-- A text has no control characters. -/
theorem le_of_mem_stringify {value : Json} (h : Readable value) {d : CodeUnit}
    (hd : d ∈ stringify value) : 32 ≤ d.val := by
  -- the brackets around a text whose parts have none
  have hwrap : ∀ {l r : JsString} {texts : List JsString}, (∀ c ∈ l, 32 ≤ c.val) →
      (∀ c ∈ r, 32 ≤ c.val) → (∀ text ∈ texts, ∀ c ∈ text, 32 ≤ c.val) →
      ∀ c ∈ l ++ joinComma texts ++ r, 32 ≤ c.val := by
    intro l r texts hl hr htexts c hc
    rcases List.mem_append.mp hc with hc | hc
    · rcases List.mem_append.mp hc with hc | hc
      · exact hl c hc
      · rcases mem_joinComma hc with rfl | ⟨text, htext, hc⟩
        · decide
        · exact htexts text htext c hc
    · exact hr c hc
  induction h generalizing d with
  | null => exact le_of_mem_js (by decide) d hd
  | bool b =>
    cases b
    · exact le_of_mem_js (by decide) d hd
    · exact le_of_mem_js (by decide) d hd
  | num n hn => exact le_of_mem_toText hn hd
  | str s => exact le_of_mem_quote hd
  | arr items hitems ih =>
    rw [stringify_arr] at hd
    refine hwrap (le_of_mem_js (by decide)) (le_of_mem_js (by decide)) (fun text htext c hc => ?_) d hd
    obtain ⟨item, hitem, rfl⟩ := List.mem_map.mp htext
    exact ih item hitem hc
  | obj fields hnodup hfields ih =>
    rw [stringify_obj] at hd
    refine hwrap (le_of_mem_js (by decide)) (le_of_mem_js (by decide)) (fun text htext c hc => ?_) d hd
    obtain ⟨f, hf, rfl⟩ := List.mem_map.mp htext
    rcases List.mem_append.mp hc with hc | hc
    · rcases List.mem_append.mp hc with hc | hc
      · exact le_of_mem_quote hc
      · rw [List.mem_singleton.mp hc]
        decide
    · exact ih f hf hc

end PandaPay.Json
