import PandaPay.Json.Decimal
import PandaPay.Library.InsertionMap

/-!
# JSON text

Reading JSON text, as `JSON.parse` does, and the canonical text of a value: no white space, object
keys in code unit order. Both standard libraries write strings with the same escapes.

## Main definitions

* `quote`: a string with its escapes and quotes
* `Json.parse`: reading a text
* `Json.textOf`: the canonical text of a value
* `Json.sortKeys`: a value with the keys of every object in order
* `Json.Plain`: a value of bounded depth, with distinct keys and integral numbers

## Main results

* `readChars_quote`: a quoted string is read back
* `Json.parse_textOf`: the canonical text is read back as the value with its keys in order
-/

namespace PandaPay

/-! ### Strings -/

/-- The code unit of a lower-case hexadecimal digit. -/
def hexUnit (d : ℕ) : CodeUnit := if d < 10 then digitUnit d else Fin.ofNat _ (87 + d)

/-- The value of a hexadecimal digit, in either case. -/
def hexValue (c : CodeUnit) : Option ℕ :=
  if 48 ≤ c.val ∧ c.val ≤ 57 then some (c.val - 48)
  else if 97 ≤ c.val ∧ c.val ≤ 102 then some (c.val - 87)
  else if 65 ≤ c.val ∧ c.val ≤ 70 then some (c.val - 55)
  else none

/-- How a code unit of a well-formed string is written between quotes. -/
def escapeUnit (c : CodeUnit) : JsString :=
  if c.val = 34 then [92, 34]
  else if c.val = 92 then [92, 92]
  else if c.val = 8 then [92, 98]
  else if c.val = 12 then [92, 102]
  else if c.val = 10 then [92, 110]
  else if c.val = 13 then [92, 114]
  else if c.val = 9 then [92, 116]
  else if c.val < 32 then [92, 117, 48, 48, hexUnit (c.val / 16), hexUnit (c.val % 16)]
  else [c]

/-- `JSON.stringify(s)` and `jsonEncode(s)` of a string without lone surrogates. -/
def quote (s : JsString) : JsString := 34 :: (s.flatMap escapeUnit ++ [34])

/-- The code unit that stands after a backslash for `c`. -/
def unescape (c : CodeUnit) : Option CodeUnit :=
  if c.val = 34 ∨ c.val = 92 ∨ c.val = 47 then some c
  else if c.val = 98 then some 8
  else if c.val = 102 then some 12
  else if c.val = 110 then some 10
  else if c.val = 114 then some 13
  else if c.val = 116 then some 9
  else none

/-- The code unit four hexadecimal digits denote. -/
def hexUnit4 (a b c d : CodeUnit) : Option CodeUnit := do
  let a ← hexValue a
  let b ← hexValue b
  let c ← hexValue c
  let d ← hexValue d
  return Fin.ofNat _ (((a * 16 + b) * 16 + c) * 16 + d)

/-- The string up to the closing quote, and what follows it. -/
def readChars : JsString → Option (JsString × JsString)
  | [] => none
  | c :: rest =>
    if c.val = 34 then some ([], rest)
    else if c.val = 92 then
      match rest with
      | [] => none
      | e :: rest =>
        if e.val = 117 then
          match rest with
          | w :: x :: y :: z :: rest => do
            let unit ← hexUnit4 w x y z
            let (s, rest) ← readChars rest
            return (unit :: s, rest)
          | _ => none
        else do
          let unit ← unescape e
          let (s, rest) ← readChars rest
          return (unit :: s, rest)
    else if c.val < 32 then none
    else do
      let (s, rest) ← readChars rest
      return (c :: s, rest)

theorem val_hexUnit {d : ℕ} (h : d < 16) :
    (hexUnit d).val = if d < 10 then 48 + d else 87 + d := by
  unfold hexUnit
  split
  · rename_i hd
    rw [val_digitUnit hd, add_comm]
  · rw [Fin.val_ofNat]
    omega

theorem hexValue_hexUnit {d : ℕ} (h : d < 16) : hexValue (hexUnit d) = some d := by
  have hval := val_hexUnit h
  unfold hexValue
  split_ifs at hval with hd
  · rw [if_pos (by omega)]
    exact congrArg some (by omega)
  · rw [if_neg (by omega), if_pos (by omega)]
    exact congrArg some (by omega)

/-- The escape of a control character is read back. -/
theorem hexUnit4_control {c : CodeUnit} (h : c.val < 32) :
    hexUnit4 48 48 (hexUnit (c.val / 16)) (hexUnit (c.val % 16)) = some c := by
  have h0 : hexValue 48 = some 0 := rfl
  have h₁ := hexValue_hexUnit (d := c.val / 16) (by omega)
  have h₂ := hexValue_hexUnit (d := c.val % 16) (by omega)
  simp only [hexUnit4, h0, h₁, h₂, Option.bind_eq_bind, Option.bind_some, Option.pure_def]
  refine congrArg some (Fin.ext ?_)
  rw [Fin.val_ofNat]
  omega

/-- Each escape is read back as its code unit. -/
theorem readChars_escapeUnit (c : CodeUnit) (rest : JsString) :
    readChars (escapeUnit c ++ rest) = (readChars rest).map fun r => (c :: r.1, r.2) := by
  unfold escapeUnit
  -- the escapes with a letter: the code unit is determined by its value
  have letter : ∀ e d : CodeUnit, e.val ≠ 117 → unescape e = some d → c = d →
      readChars ([92, e] ++ rest) = (readChars rest).map fun r => (c :: r.1, r.2) := by
    rintro e d he hd rfl
    rw [List.cons_append, List.cons_append, List.nil_append, readChars.eq_def]
    simp only [hd, if_neg he]
    cases readChars rest <;> rfl
  split_ifs with h34 h92 h8 h12 h10 h13 h9 h32
  · exact letter 34 34 (by decide) rfl (Fin.ext h34)
  · exact letter 92 92 (by decide) rfl (Fin.ext h92)
  · exact letter 98 8 (by decide) rfl (Fin.ext h8)
  · exact letter 102 12 (by decide) rfl (Fin.ext h12)
  · exact letter 110 10 (by decide) rfl (Fin.ext h10)
  · exact letter 114 13 (by decide) rfl (Fin.ext h13)
  · exact letter 116 9 (by decide) rfl (Fin.ext h9)
  · simp only [List.cons_append, List.nil_append, readChars, hexUnit4_control h32]
    cases readChars rest <;> rfl
  · rw [List.cons_append, List.nil_append, readChars.eq_def]
    simp only [if_neg h34, if_neg h92, if_neg h32]
    cases readChars rest <;> rfl

/-- A quoted string is read back, up to its closing quote. -/
theorem readChars_quote (s rest : JsString) :
    readChars (s.flatMap escapeUnit ++ [34] ++ rest) = some (s, rest) := by
  induction s with
  | nil =>
    rw [List.flatMap_nil, List.nil_append, List.singleton_append, readChars.eq_def]
    rfl
  | cons c s ih =>
    rw [List.flatMap_cons, List.append_assoc, List.append_assoc, readChars_escapeUnit,
      ← List.append_assoc, ih]
    rfl

/-! ### Numbers -/

/-- The number a numeral denotes: `whole.fraction` times ten to the `exponent`. A double rounds it,
but no integer up to 2^53. -/
def numberOf (negative : Bool) (whole fraction : JsString) (exponent : ℤ) : JsonNumber :=
  let trimmed := ((whole ++ fraction).reverse.dropWhile (·.val = 48)).reverse
  let scale := exponent - fraction.length + ((whole ++ fraction).length - trimmed.length : ℕ)
  let sign : ℤ := if negative then -1 else 1
  if unsignedValue (whole ++ fraction) = 0 then (if negative then .negZero else .int 0)
  else if fraction = [] ∧ exponent = 0 then .int (sign * unsignedValue whole)
  else if 0 ≤ scale then .int (sign * unsignedValue trimmed * 10 ^ scale.toNat)
  else .fraction (sign * unsignedValue trimmed) (-scale).toNat

/-- The digits after a decimal point, if there is one. -/
def readFraction : JsString → Option (JsString × JsString)
  | c :: rest =>
    if c.val = 46 then
      if rest.takeWhile isDigit = [] then none
      else some (rest.takeWhile isDigit, rest.dropWhile isDigit)
    else some ([], c :: rest)
  | [] => some ([], [])

/-- The exponent, if there is one. -/
def readExponent : JsString → Option (ℤ × JsString)
  | c :: rest =>
    if c.val = 101 ∨ c.val = 69 then
      let negative := rest.head?.any (·.val = 45)
      let rest := if rest.head?.any (fun d => d.val = 43 ∨ d.val = 45) then rest.tail else rest
      let digits := rest.takeWhile isDigit
      if digits = [] then none
      else some ((if negative then -1 else 1) * unsignedValue digits, rest.dropWhile isDigit)
    else some (0, c :: rest)
  | [] => some (0, [])

/-- A numeral, and what follows it. -/
def readNumber (s : JsString) : Option (JsonNumber × JsString) := do
  let negative := s.head?.any (·.val = 45)
  let s := if negative then s.tail else s
  let whole := s.takeWhile isDigit
  if isUnsigned whole = false then none
  else
    let (fraction, s) ← readFraction (s.dropWhile isDigit)
    let (exponent, s) ← readExponent s
    return (numberOf negative whole fraction exponent, s)

namespace Json

/-! ### Values -/

/-- What follows white space. -/
def skipSpace (s : JsString) : JsString :=
  s.dropWhile fun c => c.val = 32 ∨ c.val = 9 ∨ c.val = 10 ∨ c.val = 13

/-- A keyword, and what follows it. -/
def readWord (word : JsString) (value : Json) (s : JsString) : Option (Json × JsString) :=
  if word.isPrefixOf s then some (value, s.drop word.length) else none

/-- Elements up to the closing bracket, read by `read`. -/
def readItems (read : JsString → Option (Json × JsString)) :
    ℕ → JsString → Option (List Json × JsString)
  | 0, _ => none
  | fuel + 1, s => do
    let (item, s) ← read s
    match skipSpace s with
    | [] => none
    | c :: rest =>
      if c.val = 44 then do
        let (items, rest) ← readItems read fuel rest
        return (item :: items, rest)
      else if c.val = 93 then some ([item], rest)
      else none

/-- Fields up to the closing brace, their values read by `read`. -/
def readFields (read : JsString → Option (Json × JsString)) :
    ℕ → JsString → Option (List (JsString × Json) × JsString)
  | 0, _ => none
  | fuel + 1, s =>
    match skipSpace s with
    | [] => none
    | c :: rest =>
      if c.val = 34 then do
        let (key, rest) ← readChars rest
        match skipSpace rest with
        | [] => none
        | c :: rest =>
          if c.val = 58 then do
            let (value, rest) ← read rest
            match skipSpace rest with
            | [] => none
            | c :: rest =>
              if c.val = 44 then do
                let (fields, rest) ← readFields read fuel rest
                return ((key, value) :: fields, rest)
              else if c.val = 125 then some ([(key, value)], rest)
              else none
          else none
      else none

/-- The object with these fields; of fields with one key the last counts. -/
def ofFields (fields : List (JsString × Json)) : Json :=
  .obj (fields.foldl (fun object field => InsertionMap.assign field.1 field.2 object) [])

/-- A value nested at most `fuel` deep, and what follows it. -/
def readValue : ℕ → JsString → Option (Json × JsString)
  | 0, _ => none
  | fuel + 1, s =>
    match skipSpace s with
    | [] => none
    | c :: rest =>
      if c.val = 34 then (readChars rest).map fun r => (.str r.1, r.2)
      else if c.val = 91 then
        match skipSpace rest with
        | [] => none
        | d :: rest' =>
          if d.val = 93 then some (.arr [], rest')
          else (readItems (readValue fuel) rest.length rest).map fun r => (.arr r.1, r.2)
      else if c.val = 123 then
        match skipSpace rest with
        | [] => none
        | d :: rest' =>
          if d.val = 125 then some (.obj [], rest')
          else (readFields (readValue fuel) rest.length rest).map fun r => (ofFields r.1, r.2)
      else if c.val = 110 then readWord (js "null") .null (c :: rest)
      else if c.val = 116 then readWord (js "true") (.bool true) (c :: rest)
      else if c.val = 102 then readWord (js "false") (.bool false) (c :: rest)
      else (readNumber (c :: rest)).map fun r => (.num r.1, r.2)

/-- `JSON.parse`: a value, with nothing but white space around it. No value nests deeper than its
text is long. -/
def parse (text : JsString) : Option Json :=
  match readValue text.length text with
  | some (value, rest) => if skipSpace rest = [] then some value else none
  | none => none

/-! ### Canonical text -/

/-- `texts.join(',')`. -/
def joinComma : List JsString → JsString
  | [] => []
  | text :: texts => text ++ texts.flatMap (js "," ++ ·)

/-- The fields of an object in key order. -/
def sortFields {V : Type} (fields : List (JsString × V)) : List (JsString × V) :=
  fields.insertionSort fun a b => a.1 ≤ b.1

/-- The canonical text of a value nested less than `levels` deep whose numbers are integers. -/
def textOf : ℕ → Json → JsString
  | 0, _ => []
  | _ + 1, .null => js "null"
  | _ + 1, .bool b => js (if b then "true" else "false")
  | _ + 1, .num (.int z) => signedDecimal z
  | _ + 1, .num _ => []
  | _ + 1, .str s => quote s
  | levels + 1, .arr items => js "[" ++ joinComma (items.map (textOf levels)) ++ js "]"
  | levels + 1, .obj fields =>
    js "\x7b" ++ joinComma ((sortFields fields).map fun f =>
      quote f.1 ++ js ":" ++ textOf levels f.2) ++ js "\x7d"

/-- The value with the keys of every object in order. -/
def sortKeys : ℕ → Json → Json
  | 0, value => value
  | levels + 1, .arr items => .arr (items.map (sortKeys levels))
  | levels + 1, .obj fields => .obj ((sortFields fields).map fun f => (f.1, sortKeys levels f.2))
  | _ + 1, value => value

/-- A value nested less than `levels` deep, with distinct keys in every object and integral
numbers. -/
def Plain : ℕ → Json → Prop
  | 0, _ => False
  | _ + 1, .num n => ∃ z, n = .int z
  | levels + 1, .arr items => ∀ item ∈ items, Plain levels item
  | levels + 1, .obj fields => (fields.map Prod.fst).Nodup ∧ ∀ f ∈ fields, Plain levels f.2
  | _ + 1, _ => True

/-! ### Reading back the canonical text -/

/-- What can follow a value inside a text: nothing, a comma or a closing bracket or brace. -/
def Stops (rest : JsString) : Prop :=
  ∀ c r, rest = c :: r → c.val = 44 ∨ c.val = 93 ∨ c.val = 125

theorem skipSpace_of_stops {rest : JsString} (h : Stops rest) : skipSpace rest = rest := by
  cases rest with
  | nil => rfl
  | cons c r =>
    have hc := h c r rfl
    refine List.dropWhile_cons_of_neg ?_
    simp only [decide_eq_true_eq]
    omega

theorem takeWhile_isDigit {digits rest : JsString} (hd : ∀ c ∈ digits, isDigit c = true)
    (h : Stops rest) :
    (digits ++ rest).takeWhile isDigit = digits ∧ (digits ++ rest).dropWhile isDigit = rest := by
  have hrest : rest.takeWhile isDigit = [] ∧ rest.dropWhile isDigit = rest := by
    cases rest with
    | nil => exact ⟨rfl, rfl⟩
    | cons c r =>
      have hc := h c r rfl
      have hn : ¬ isDigit c = true := by
        simp only [isDigit, decide_eq_true_eq]
        omega
      exact ⟨List.takeWhile_cons_of_neg hn, List.dropWhile_cons_of_neg hn⟩
  rw [List.takeWhile_append_of_pos hd, List.dropWhile_append_of_pos hd, hrest.1, hrest.2,
    List.append_nil]
  exact ⟨rfl, rfl⟩

theorem readFraction_of_stops {rest : JsString} (h : Stops rest) :
    readFraction rest = some ([], rest) := by
  cases rest with
  | nil => rfl
  | cons c r =>
    have hc := h c r rfl
    rw [readFraction, if_neg (by omega)]

theorem readExponent_of_stops {rest : JsString} (h : Stops rest) :
    readExponent rest = some (0, rest) := by
  cases rest with
  | nil => rfl
  | cons c r =>
    have hc := h c r rfl
    rw [readExponent, if_neg (by omega)]

/-- The numeral of an integer denotes it. -/
theorem numberOf_decimal (z : ℤ) :
    numberOf (decide (z < 0)) (decimal z.natAbs) [] 0 = .int z := by
  simp only [numberOf, List.append_nil, unsignedValue_decimal, decide_eq_true_eq]
  by_cases hz : z = 0
  · simp [hz]
  · rw [if_neg (by omega), if_pos ⟨trivial, trivial⟩]
    refine congrArg JsonNumber.int ?_
    split <;> omega

theorem val_head_signedDecimal (z : ℤ) : ∃ c cs, signedDecimal z = c :: cs ∧
    (c.val = 45 ∨ isDigit c = true) := by
  unfold signedDecimal
  split
  · exact ⟨45, decimal z.natAbs, rfl, .inl rfl⟩
  · obtain ⟨c, cs, hc, -⟩ := val_head_decimal z.natAbs
    have hdigit := isDigit_of_isUnsigned (isUnsigned_decimal z.natAbs)
    rw [hc] at hdigit
    exact ⟨c, cs, hc, .inr (hdigit c List.mem_cons_self)⟩

/-- The numeral of an integer is read back. -/
theorem readNumber_signedDecimal (z : ℤ) {rest : JsString} (h : Stops rest) :
    readNumber (signedDecimal z ++ rest) = some (.int z, rest) := by
  have hunsigned := isUnsigned_decimal z.natAbs
  obtain ⟨htake, hdrop⟩ := takeWhile_isDigit (isDigit_of_isUnsigned hunsigned) h
  have hsign : (signedDecimal z ++ rest).head?.any (·.val = 45) = decide (z < 0) ∧
      (if z < 0 then (signedDecimal z ++ rest).tail else signedDecimal z ++ rest) =
        decimal z.natAbs ++ rest := by
    by_cases hz : z < 0
    · rw [signedDecimal, if_pos hz, if_pos hz]
      exact ⟨by simp [hz], rfl⟩
    · obtain ⟨c, cs, hc, hne⟩ := val_head_decimal z.natAbs
      rw [signedDecimal, if_neg hz, if_neg hz, hc]
      exact ⟨by simp [hz, hne], rfl⟩
  simp only [readNumber, hsign.1, decide_eq_true_eq, hsign.2, htake, hdrop, hunsigned,
    readFraction_of_stops h, readExponent_of_stops h, Option.bind_eq_bind, Option.bind_some,
    Bool.true_eq_false, if_false, numberOf_decimal]
  rfl

theorem joinComma_cons (text : JsString) (texts : List JsString) :
    joinComma (text :: texts) = text ++ texts.flatMap (js "," ++ ·) := rfl

/-- What the first code unit of a canonical text is not: white space, a closing bracket or brace. -/
def StartsValue (text : JsString) : Prop :=
  ∃ c cs, text = c :: cs ∧ c.val ≠ 32 ∧ c.val ≠ 9 ∧ c.val ≠ 10 ∧ c.val ≠ 13 ∧ c.val ≠ 93 ∧
    c.val ≠ 125

theorem startsValue_textOf {levels : ℕ} {value : Json} (h : Plain levels value) :
    StartsValue (textOf levels value) := by
  cases levels with
  | zero => exact h.elim
  | succ levels =>
    cases value with
    | null => exact ⟨110, js "ull", rfl, by decide⟩
    | bool b =>
      cases b
      · exact ⟨102, js "alse", rfl, by decide⟩
      · exact ⟨116, js "rue", rfl, by decide⟩
    | num n =>
      obtain ⟨z, rfl⟩ := h
      obtain ⟨c, cs, hc, hhead⟩ := val_head_signedDecimal z
      refine ⟨c, cs, hc, ?_⟩
      simp only [isDigit, decide_eq_true_eq] at hhead
      omega
    | str s => exact ⟨34, s.flatMap escapeUnit ++ [34], rfl, by decide⟩
    | arr items =>
      exact ⟨91, joinComma (items.map (textOf levels)) ++ js "]", rfl, by decide⟩
    | obj fields =>
      exact ⟨123, joinComma ((sortFields fields).map fun f =>
        quote f.1 ++ js ":" ++ textOf levels f.2) ++ js "\x7d", rfl, by decide⟩

theorem StartsValue.skipSpace_append {text : JsString} (h : StartsValue text) (rest : JsString) :
    skipSpace (text ++ rest) = text ++ rest := by
  obtain ⟨c, cs, rfl, hc⟩ := h
  refine List.dropWhile_cons_of_neg ?_
  simp only [decide_eq_true_eq]
  omega

theorem stops_comma (rest : JsString) : Stops (44 :: rest) := by
  rintro c r h
  cases h
  exact .inl rfl

theorem stops_bracket (rest : JsString) : Stops (93 :: rest) := by
  rintro c r h
  cases h
  exact .inr (.inl rfl)

theorem stops_brace (rest : JsString) : Stops (125 :: rest) := by
  rintro c r h
  cases h
  exact .inr (.inr rfl)

theorem length_joinComma_cons (text : JsString) (texts : List JsString) :
    texts.length + text.length ≤ (joinComma (text :: texts)).length := by
  rw [joinComma_cons, List.length_append, List.length_flatMap, add_comm]
  refine Nat.add_le_add_left ?_ _
  calc texts.length = (texts.map fun _ => 1).sum := by simp
    _ ≤ (texts.map fun t => (js "," ++ t).length).sum := by
        refine List.sum_le_sum fun t _ => ?_
        rw [List.length_append]
        exact Nat.le_add_right_of_le (by decide)

theorem length_le_joinComma {text : JsString} {texts : List JsString} (h : text ∈ texts) :
    text.length ≤ (joinComma texts).length := by
  cases texts with
  | nil => simp at h
  | cons t ts =>
    rw [joinComma_cons, List.length_append, List.length_flatMap]
    rcases List.mem_cons.mp h with rfl | hts
    · exact Nat.le_add_right _ _
    · have hmem : (js "," ++ text).length ∈ ts.map fun t => (js "," ++ t).length :=
        List.mem_map_of_mem hts
      have := List.single_le_sum (by simp) _ hmem
      rw [List.length_append] at this
      omega

section Lists

variable {α : Type} {text : α → JsString} {read : JsString → Option (Json × JsString)}

/-- Elements whose texts are read back are read back from the text of their array. -/
theorem readItems_joinComma {value : α → Json} {x : α} {xs : List α}
    (hread : ∀ y ∈ x :: xs, ∀ rest, Stops rest → read (text y ++ rest) = some (value y, rest))
    {fuel : ℕ} (hfuel : xs.length < fuel) (rest : JsString) :
    readItems read fuel (joinComma ((x :: xs).map text) ++ 93 :: rest) =
      some ((x :: xs).map value, rest) := by
  induction xs generalizing x fuel with
  | nil =>
    obtain ⟨fuel, rfl⟩ := Nat.exists_eq_succ_of_ne_zero hfuel.ne_bot
    rw [readItems.eq_def]
    have hx := hread x List.mem_cons_self _ (stops_bracket rest)
    simp only [List.map_cons, List.map_nil, joinComma_cons, List.flatMap_nil, List.append_nil, hx,
      Option.bind_eq_bind, Option.bind_some, skipSpace_of_stops (stops_bracket rest)]
    rfl
  | cons y ys ih =>
    obtain ⟨fuel, rfl⟩ := Nat.exists_eq_succ_of_ne_zero hfuel.ne_bot
    rw [List.length_cons, Nat.succ_lt_succ_iff] at hfuel
    have hrest := ih (fun z hz => hread z (List.mem_cons_of_mem _ hz)) hfuel
    have htext : joinComma ((x :: y :: ys).map text) ++ 93 :: rest =
        text x ++ 44 :: (joinComma ((y :: ys).map text) ++ 93 :: rest) := by
      simp only [List.map_cons, joinComma_cons, List.flatMap_cons, List.append_assoc]
      rfl
    rw [htext, readItems.eq_def]
    simp only [hread x List.mem_cons_self _ (stops_comma _), Option.bind_eq_bind,
      Option.bind_some, skipSpace_of_stops (stops_comma _)]
    rw [if_pos (by decide), hrest]
    rfl

/-- Fields whose values are read back are read back from the text of their object. -/
theorem readFields_joinComma {value : α → Json} {k : α → JsString} {x : α} {xs : List α}
    (hread : ∀ y ∈ x :: xs, ∀ rest, Stops rest → read (text y ++ rest) = some (value y, rest))
    {fuel : ℕ} (hfuel : xs.length < fuel) (rest : JsString) :
    readFields read fuel
        (joinComma ((x :: xs).map fun y => quote (k y) ++ js ":" ++ text y) ++ 125 :: rest) =
      some ((x :: xs).map fun y => (k y, value y), rest) := by
  -- one field, up to what follows its value
  have hfield : ∀ (y : α) (tail : JsString), quote (k y) ++ js ":" ++ text y ++ tail =
      34 :: ((k y).flatMap escapeUnit ++ [34] ++ 58 :: (text y ++ tail)) := by
    intro y tail
    simp only [quote, List.append_assoc, List.cons_append]
    rfl
  have hcolon : ∀ tail : JsString, skipSpace (58 :: tail) = 58 :: tail := fun _ => rfl
  have hquote : ∀ tail : JsString, skipSpace (34 :: tail) = 34 :: tail := fun _ => rfl
  induction xs generalizing x fuel with
  | nil =>
    obtain ⟨fuel, rfl⟩ := Nat.exists_eq_succ_of_ne_zero hfuel.ne_bot
    rw [List.map_singleton, joinComma_cons, List.flatMap_nil, List.append_nil, hfield,
      readFields.eq_def]
    simp only [hquote, readChars_quote, hcolon, hread x List.mem_cons_self _ (stops_brace rest),
      Option.bind_eq_bind, Option.bind_some, skipSpace_of_stops (stops_brace rest)]
    rfl
  | cons y ys ih =>
    obtain ⟨fuel, rfl⟩ := Nat.exists_eq_succ_of_ne_zero hfuel.ne_bot
    rw [List.length_cons, Nat.succ_lt_succ_iff] at hfuel
    have hrest := ih (fun z hz => hread z (List.mem_cons_of_mem _ hz)) hfuel
    have htext : joinComma ((x :: y :: ys).map fun y => quote (k y) ++ js ":" ++ text y) ++
          125 :: rest =
        quote (k x) ++ js ":" ++ text x ++
          44 :: (joinComma ((y :: ys).map fun y => quote (k y) ++ js ":" ++ text y) ++
            125 :: rest) := by
      simp only [List.map_cons, joinComma_cons, List.flatMap_cons, List.append_assoc]
      rfl
    rw [htext, hfield, readFields.eq_def]
    simp only [hquote, readChars_quote, hcolon, hread x List.mem_cons_self _ (stops_comma _),
      Option.bind_eq_bind, Option.bind_some, skipSpace_of_stops (stops_comma _)]
    rw [if_pos (by decide), if_pos (by decide), if_pos (by decide), hrest]
    rfl

end Lists

/-- Distinct keys: no field overwrites another. -/
theorem ofFields_of_nodup {fields : List (JsString × Json)} (h : (fields.map Prod.fst).Nodup) :
    ofFields fields = .obj fields := by
  have hfold : ∀ before, ((before ++ fields).map Prod.fst).Nodup →
      fields.foldl (fun object field => InsertionMap.assign field.1 field.2 object) before =
        before ++ fields := by
    clear h
    induction fields with
    | nil => simp
    | cons f fs ih =>
      intro before hnodup
      have hnew : f.1 ∉ before.map Prod.fst := by
        rw [List.map_append, List.nodup_append] at hnodup
        exact fun hf => hnodup.2.2 _ hf _ List.mem_cons_self rfl
      rw [List.foldl_cons, InsertionMap.assign_of_notMem _ hnew, ih _ (by simpa using hnodup),
        List.append_assoc, List.singleton_append]
  exact congrArg Json.obj (hfold [] h)

theorem perm_sortFields {V : Type} (fields : List (JsString × V)) :
    (sortFields fields).Perm fields :=
  List.perm_insertionSort _ _

theorem length_textOf_item {levels : ℕ} {items : List Json} {item : Json} (h : item ∈ items) :
    (textOf levels item).length + 2 ≤ (textOf (levels + 1) (.arr items)).length := by
  have := length_le_joinComma (List.mem_map_of_mem (f := textOf levels) h)
  simp only [textOf, List.length_append]
  have h₁ : (js "[").length = 1 := by decide
  have h₂ : (js "]").length = 1 := by decide
  omega

theorem length_textOf_field {levels : ℕ} {fields : List (JsString × Json)}
    {f : JsString × Json} (h : f ∈ sortFields fields) :
    (textOf levels f.2).length + 2 ≤ (textOf (levels + 1) (.obj fields)).length := by
  have := length_le_joinComma (List.mem_map_of_mem
    (f := fun f : JsString × Json => quote f.1 ++ js ":" ++ textOf levels f.2) h)
  simp only [textOf, List.length_append] at this ⊢
  have h₁ : (js "\x7b").length = 1 := by decide
  have h₂ : (js "\x7d").length = 1 := by decide
  omega

/-- An array is read back when its elements are. -/
theorem readValue_arr {text : Json → JsString} {value : Json → Json} {fuel : ℕ} {item : Json}
    {items : List Json} (hstart : StartsValue (text item))
    (hread : ∀ v ∈ item :: items, ∀ rest, Stops rest →
      readValue fuel (text v ++ rest) = some (value v, rest)) (rest : JsString) :
    readValue (fuel + 1) (js "[" ++ joinComma ((item :: items).map text) ++ js "]" ++ rest) =
      some (.arr ((item :: items).map value), rest) := by
  obtain ⟨d, ds, hd, hhead⟩ := hstart
  have htext : js "[" ++ joinComma ((item :: items).map text) ++ js "]" ++ rest =
      91 :: (joinComma ((item :: items).map text) ++ 93 :: rest) := by
    simp only [List.append_assoc]
    rfl
  -- the first element keeps the array from being read as empty
  have hinner : ∃ ds, joinComma ((item :: items).map text) ++ 93 :: rest = d :: ds := by
    rw [List.map_cons, joinComma_cons, hd]
    exact ⟨_, rfl⟩
  have hlen : items.length < (joinComma ((item :: items).map text) ++ 93 :: rest).length := by
    have := length_joinComma_cons (text item) (items.map text)
    rw [← List.map_cons, List.length_map] at this
    rw [List.length_append, List.length_cons]
    omega
  have hitems := readItems_joinComma hread hlen rest
  obtain ⟨ds, hinner⟩ := hinner
  have hspace : skipSpace (d :: ds) = d :: ds := by
    apply List.dropWhile_cons_of_neg
    simp only [decide_eq_true_eq]
    omega
  rw [htext, readValue.eq_def]
  rw [hinner] at hitems ⊢
  have hopen : skipSpace (91 :: d :: ds) = 91 :: d :: ds := rfl
  simp only [hopen, hspace, if_neg hhead.2.2.2.2.1, hitems]
  rfl

/-- An object is read back when its values are. -/
theorem readValue_obj {text : Json → JsString} {value : Json → Json} {fuel : ℕ}
    {f : JsString × Json} {fields : List (JsString × Json)}
    (hread : ∀ g ∈ f :: fields, ∀ rest, Stops rest →
      readValue fuel (text g.2 ++ rest) = some (value g.2, rest)) (rest : JsString) :
    readValue (fuel + 1) (js "\x7b" ++
        joinComma ((f :: fields).map fun g => quote g.1 ++ js ":" ++ text g.2) ++ js "\x7d" ++
          rest) =
      some (ofFields ((f :: fields).map fun g => (g.1, value g.2)), rest) := by
  have htext : js "\x7b" ++
      joinComma ((f :: fields).map fun g => quote g.1 ++ js ":" ++ text g.2) ++ js "\x7d" ++ rest =
        123 :: (joinComma ((f :: fields).map fun g => quote g.1 ++ js ":" ++ text g.2) ++
          125 :: rest) := by
    simp only [List.append_assoc]
    rfl
  have hinner : ∃ ds, joinComma ((f :: fields).map fun g => quote g.1 ++ js ":" ++ text g.2) ++
      125 :: rest = 34 :: ds := by
    rw [List.map_cons, joinComma_cons, quote]
    exact ⟨_, rfl⟩
  have hlen : fields.length < (joinComma ((f :: fields).map fun g =>
      quote g.1 ++ js ":" ++ text g.2) ++ 125 :: rest).length := by
    have := length_joinComma_cons (quote f.1 ++ js ":" ++ text f.2)
      (fields.map fun g => quote g.1 ++ js ":" ++ text g.2)
    rw [List.length_map] at this
    rw [List.map_cons, List.length_append, List.length_cons]
    omega
  have hfields := readFields_joinComma (k := Prod.fst) hread hlen rest
  obtain ⟨ds, hinner⟩ := hinner
  have hspace : skipSpace (34 :: ds) = 34 :: ds := rfl
  have hopen : skipSpace (123 :: 34 :: ds) = 123 :: 34 :: ds := rfl
  rw [htext, readValue.eq_def]
  rw [hinner] at hfields ⊢
  simp only [hopen, hspace, hfields]
  rfl

/-- Reading the canonical text of a value gives the value with its keys in order, and leaves what
follows the text. -/
theorem readValue_textOf {levels fuel : ℕ} {value : Json} (h : Plain levels value)
    (hfuel : (textOf levels value).length ≤ fuel) {rest : JsString} (hrest : Stops rest) :
    readValue fuel (textOf levels value ++ rest) = some (sortKeys levels value, rest) := by
  induction levels generalizing value fuel rest with
  | zero => exact h.elim
  | succ levels ih =>
    have hstart := startsValue_textOf h
    have hspace := hstart.skipSpace_append rest
    -- a text is not empty, so there is fuel for one step
    have hpos : fuel ≠ 0 := by
      obtain ⟨c, cs, hc, -⟩ := hstart
      rw [hc, List.length_cons] at hfuel
      omega
    obtain ⟨fuel, rfl⟩ := Nat.exists_eq_succ_of_ne_zero hpos
    cases value with
    | null =>
      rw [readValue.eq_def]
      simp only [hspace]
      rfl
    | bool b =>
      rw [readValue.eq_def]
      simp only [hspace]
      cases b <;> rfl
    | num n =>
      obtain ⟨z, rfl⟩ := h
      have hread := readNumber_signedDecimal z hrest
      obtain ⟨c, cs, hc, hhead⟩ := val_head_signedDecimal z
      simp only [isDigit, decide_eq_true_eq] at hhead
      rw [readValue.eq_def]
      simp only [hspace]
      simp only [textOf]
      rw [hc, List.cons_append] at hread ⊢
      simp only [hread]
      rw [if_neg (by omega), if_neg (by omega), if_neg (by omega), if_neg (by omega),
        if_neg (by omega), if_neg (by omega)]
      rfl
    | str s =>
      rw [readValue.eq_def]
      simp only [hspace]
      simp only [textOf, quote, List.cons_append, readChars_quote]
      rfl
    | arr items =>
      cases items with
      | nil => rfl
      | cons item items =>
        apply readValue_arr (startsValue_textOf (h item List.mem_cons_self))
        intro v hv rest hrest
        have := @length_textOf_item levels _ _ hv
        exact ih (h v hv) (by omega) hrest
    | obj fields =>
      obtain ⟨hnodup, hfields⟩ := h
      have hobj : ofFields ((sortFields fields).map fun f => (f.1, sortKeys levels f.2)) =
          sortKeys (levels + 1) (.obj fields) := by
        apply ofFields_of_nodup
        rw [List.map_map]
        exact ((perm_sortFields fields).map Prod.fst).nodup_iff.mpr hnodup
      have hsorted : ∀ f ∈ sortFields fields, ∀ rest, Stops rest →
          readValue fuel (textOf levels f.2 ++ rest) = some (sortKeys levels f.2, rest) := by
        intro f hf rest hrest
        have := @length_textOf_field levels _ _ hf
        exact ih (hfields f ((perm_sortFields fields).subset hf)) (by omega) hrest
      rw [← hobj, textOf]
      cases hs : sortFields fields with
      | nil => rfl
      | cons f fs => exact readValue_obj (hs ▸ hsorted) rest

/-- The canonical text of a value is read back as the value with its keys in order. -/
theorem parse_textOf {levels : ℕ} {value : Json} (h : Plain levels value) :
    parse (textOf levels value) = some (sortKeys levels value) := by
  have hnil : Stops [] := fun _ _ h => nomatch h
  have hread := readValue_textOf h le_rfl hnil
  rw [List.append_nil] at hread
  rw [parse, hread]
  rfl

end Json

end PandaPay
