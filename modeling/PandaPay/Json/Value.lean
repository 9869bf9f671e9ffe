import Mathlib

/-!
# JSON values

The values both the API and the app compute on. A string is its UTF-16 code units, as in
JavaScript and Dart; an object is the list of its fields in insertion order. A number is kept by
value: integral, negative zero, or a fraction (any other number), which is all that the shared
code ever asks of one.

## Main definitions

* `CodeUnit`, `JsString`, `js`: UTF-16 strings and the encoding of string literals
* `Json`: JSON values
* `Json.get`, `Json.hasOwn`, `Json.items`: field access, field presence and array elements
* `isWhiteSpace`, `trim`: Dart's `trim`

## Main results

* `js_inj`: a literal is determined by its code units
-/

namespace PandaPay

/-- A UTF-16 code unit. -/
abbrev CodeUnit := Fin 65536

-- Named, so that the definitions of all modules share these proofs.

instance CodeUnit.instNeZero : NeZero 65536 := ⟨by decide⟩

instance CodeUnit.instLawfulBEq : LawfulBEq CodeUnit := inferInstance

/-- A string as JavaScript and Dart see it: its UTF-16 code units, with lone surrogates allowed.
The order on lists is the code unit order both languages sort by. -/
abbrev JsString := List CodeUnit

instance JsString.instLawfulBEq : LawfulBEq JsString := inferInstance

/-- The UTF-16 code units of one character. -/
def encodeUtf16 (c : Char) : JsString :=
  if c.toNat < 0x10000 then [Fin.ofNat _ c.toNat]
  else [Fin.ofNat _ (0xd800 + (c.toNat - 0x10000) / 0x400),
    Fin.ofNat _ (0xdc00 + (c.toNat - 0x10000) % 0x400)]

/-- The code units of a string literal. -/
def js (s : String) : JsString := s.toList.flatMap encodeUtf16

/-- Two encoded characters with the same code units are the same: a code unit outside the
surrogate range stands for itself, a pair of surrogates for the ten bits in each. -/
theorem encodeUtf16_append_inj {c d : Char} {s t : JsString}
    (h : encodeUtf16 c ++ s = encodeUtf16 d ++ t) : c = d ∧ s = t := by
  have hc : c.toNat < 0xd800 ∨ (0xdfff < c.toNat ∧ c.toNat < 0x110000) := c.valid
  have hd : d.toNat < 0xd800 ∨ (0xdfff < d.toNat ∧ d.toNat < 0x110000) := d.valid
  have key : c.toNat = d.toNat ∧ s = t := by
    unfold encodeUtf16 at h
    split at h <;> split at h <;>
      simp only [List.cons_append, List.nil_append, List.cons.injEq, Fin.ext_iff,
        Fin.val_ofNat] at h
    · exact ⟨by omega, h.2⟩
    · omega
    · omega
    · exact ⟨by omega, h.2.2⟩
  exact ⟨Char.toNat_inj.mp key.1, key.2⟩

theorem encodeUtf16_ne_nil (c : Char) : encodeUtf16 c ≠ [] := by
  unfold encodeUtf16
  split <;> simp

theorem flatMap_encodeUtf16_injective :
    Function.Injective fun cs : List Char => cs.flatMap encodeUtf16 := by
  intro cs
  induction cs with
  | nil =>
    rintro (_ | ⟨d, ds⟩) h
    · rfl
    · simp [encodeUtf16_ne_nil] at h
  | cons c cs ih =>
    rintro (_ | ⟨d, ds⟩) h
    · simp [encodeUtf16_ne_nil] at h
    · obtain ⟨rfl, hrest⟩ := encodeUtf16_append_inj h
      rw [ih hrest]

/-- A literal is determined by its code units. -/
@[simp] theorem js_inj {s t : String} : js s = js t ↔ s = t :=
  ⟨fun h => String.toList_inj.mp (flatMap_encodeUtf16_injective h), congrArg js⟩

/-- A JSON number by value. -/
inductive JsonNumber where
  /-- An integral value: a Dart `int` where it fits in 64 bits, a double in JavaScript. -/
  | int (n : ℤ)
  /-- The double `-0`. -/
  | negZero
  /-- A value that is not integral: `digits / 10 ^ places`. -/
  | fraction (digits : ℤ) (places : ℕ)
  deriving DecidableEq

/-- A JSON value. -/
inductive Json where
  | null
  | bool (b : Bool)
  | num (n : JsonNumber)
  | str (s : JsString)
  | arr (items : List Json)
  | obj (fields : List (JsString × Json))

namespace Json

/-- The first value listed under `key`. -/
def fieldOf (key : JsString) : List (JsString × Json) → Option Json
  | [] => none
  | f :: fs => if f.1 = key then some f.2 else fieldOf key fs

/-- The field `key` of an object. The shared code reads a field only after it has checked that
the object has it, so what a missing field reads as does not matter; it reads as `null` here. -/
def get (value : Json) (key : String) : Json :=
  match value with
  | obj fields => (fieldOf (js key) fields).getD null
  | _ => null

/-- Whether an object has the field `key`. -/
def hasOwn (value : Json) (key : String) : Bool :=
  match value with
  | obj fields => (fieldOf (js key) fields).isSome
  | _ => false

/-- The elements of an array. -/
def items : Json → List Json
  | arr items => items
  | _ => []

/-- The string elements of a list, when every element is a string. -/
def strings? : List Json → Option (List JsString)
  | [] => some []
  | str s :: rest => (strings? rest).map (s :: ·)
  | _ :: _ => none

/-- Whether a value is the string `s`. -/
def isStr (value : Json) (s : JsString) : Bool :=
  match value with
  | str t => t = s
  | _ => false

/-- Whether a value is `null`. -/
def isNull : Json → Bool
  | null => true
  | _ => false

theorem strings?_map_str (ids : List JsString) : strings? (ids.map str) = some ids := by
  induction ids with
  | nil => rfl
  | cons id ids ih => simp [strings?, ih]

theorem strings?_eq_some_iff {values : List Json} {ids : List JsString} :
    strings? values = some ids ↔ values = ids.map str := by
  constructor
  · intro h
    induction values generalizing ids with
    | nil => simp_all [strings?]
    | cons value values ih =>
      cases value with
      | str s =>
        obtain ⟨rest, hrest, rfl⟩ := Option.map_eq_some_iff.mp h
        simp [ih hrest]
      | _ => simp [strings?] at h
  · rintro rfl
    exact strings?_map_str ids

end Json

/-! ### Dart's `trim` -/

/-- What `String.trim` removes: white space and the byte order mark. -/
def isWhiteSpace (c : CodeUnit) : Bool :=
  (9 ≤ c.val ∧ c.val ≤ 13) ∨ (8192 ≤ c.val ∧ c.val ≤ 8202) ∨
    c.val ∈ [32, 133, 160, 5760, 8232, 8233, 8239, 8287, 12288, 65279]

/-- `s.trim()`. -/
def trim (s : JsString) : JsString :=
  ((s.dropWhile isWhiteSpace).reverse.dropWhile isWhiteSpace).reverse

end PandaPay
