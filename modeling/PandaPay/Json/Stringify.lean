import PandaPay.Json.Text

/-!
# `JSON.stringify`

How JavaScript prints the values that `JSON.parse` returns. A double is named by the shortest decimal
that is read back as it, which is the one JavaScript prints; the fields of an object are in the order
of its own keys.

## Main definitions

* `JsonNumber.toText`: `String(x)`
* `JsonNumber.toFixed`: `x.toFixed(places)`
* `Json.ownOrder`: fields in the order of an object's own keys
* `Json.stringify`: `JSON.stringify(value)`

## Main results

* `Json.induct`: induction on the elements of arrays and the fields of objects
* `Json.stringify_arr`, `Json.stringify_obj`: how the elements and fields are put together
-/

namespace PandaPay

namespace JsonNumber

/-! ### Numbers -/

/-- The text of `0.s × 10 ^ n`, for the digits `s` of a number; the last of them is not zero. -/
def digitsText (s : JsString) (n : ℤ) : JsString :=
  if s.length ≤ n ∧ n ≤ 21 then s ++ List.replicate (n.toNat - s.length) 48
  else if 0 < n ∧ n ≤ 21 then s.take n.toNat ++ js "." ++ s.drop n.toNat
  else if -6 < n ∧ n ≤ 0 then js "0." ++ List.replicate (-n).toNat 48 ++ s
  else
    s.take 1 ++ (if s.length = 1 then [] else js "." ++ s.drop 1) ++
      js (if n - 1 < 0 then "e-" else "e+") ++ decimal (n - 1).natAbs

/-- The digits without the zeros at their end. -/
def trimZeros (s : JsString) : JsString := (s.reverse.dropWhile (·.val = 48)).reverse

/-- The text of `n / 10 ^ places`. -/
def absText (n places : ℕ) : JsString :=
  if n = 0 then js "0"
  else digitsText (trimZeros (decimal n)) ((decimal n).length - places)

/-- `String(x)`. -/
def toText : JsonNumber → JsString
  | .int z => (if z < 0 then js "-" else []) ++ absText z.natAbs 0
  | .negZero => js "0"
  | .fraction d places => (if d < 0 then js "-" else []) ++ absText d.natAbs places

/-- The value of the double nearest to a positive decimal, the even one of two. -/
def nearestDouble (x : ℚ) : ℚ :=
  let unit : ℚ := 2 ^ max (Int.log 2 x - 52) (-1074)
  let low := ⌊x / unit⌋
  let rest := x / unit - low
  unit * (if rest < 1 / 2 ∨ (rest = 1 / 2 ∧ low % 2 = 0) then low else low + 1)

/-- `x.toFixed(places)` of a double below 10 ^ 21. -/
def toFixed (places : ℕ) : JsonNumber → JsString
  | .int z => (if z < 0 then js "-" else []) ++ fixedText (z.natAbs * 10 ^ places)
  | .negZero => fixedText 0
  | .fraction d p =>
    (if d < 0 then js "-" else []) ++
      fixedText ⌊nearestDouble (d.natAbs / 10 ^ p) * 10 ^ places + 1 / 2⌋.toNat
where
  /-- The digits of `n / 10 ^ places`, all `places` of them. -/
  fixedText (n : ℕ) : JsString :=
    let digits := decimal n
    let padded := List.replicate (places + 1 - digits.length) 48 ++ digits
    if places = 0 then padded
    else padded.take (padded.length - places) ++ js "." ++ padded.drop (padded.length - places)

end JsonNumber

namespace Json

/-! ### Objects -/

/-- An own key that JavaScript lists before the others, by value. -/
def isArrayIndex (key : JsString) : Bool := isUnsigned key && unsignedValue key < 2 ^ 32 - 1

/-- Fields in the order of an object's own keys: array indices by value, then the others as they
were added. -/
def ownOrder {V : Type} (fields : List (JsString × V)) : List (JsString × V) :=
  (fields.filter fun f => isArrayIndex f.1).insertionSort
      (fun f g => unsignedValue f.1 ≤ unsignedValue g.1) ++
    fields.filter fun f => !isArrayIndex f.1

theorem perm_ownOrder {V : Type} (fields : List (JsString × V)) : (ownOrder fields).Perm fields :=
  ((List.perm_insertionSort _ _).append_right _).trans (List.filter_append_perm _ _)

/-! ### Texts -/

mutual

/-- `JSON.stringify(value)`. -/
def stringify : Json → JsString
  | .null => js "null"
  | .bool b => js (if b then "true" else "false")
  | .num n => n.toText
  | .str s => quote s
  | .arr items => js "[" ++ joinComma (stringifyItems items) ++ js "]"
  | .obj fields => js "\x7b" ++ joinComma (stringifyFields fields) ++ js "\x7d"

/-- The texts of the elements of an array. -/
def stringifyItems : List Json → List JsString
  | [] => []
  | item :: items => stringify item :: stringifyItems items

/-- The texts of the fields of an object. -/
def stringifyFields : List (JsString × Json) → List JsString
  | [] => []
  | field :: fields => (quote field.1 ++ js ":" ++ stringify field.2) :: stringifyFields fields

end

theorem stringifyItems_eq (items : List Json) : stringifyItems items = items.map stringify := by
  induction items with
  | nil => rfl
  | cons item items ih => rw [stringifyItems, ih, List.map_cons]

theorem stringifyFields_eq (fields : List (JsString × Json)) :
    stringifyFields fields = fields.map fun f => quote f.1 ++ js ":" ++ stringify f.2 := by
  induction fields with
  | nil => rfl
  | cons field fields ih => rw [stringifyFields, ih, List.map_cons]

theorem stringify_arr (items : List Json) :
    stringify (.arr items) = js "[" ++ joinComma (items.map stringify) ++ js "]" := by
  rw [stringify, stringifyItems_eq]

theorem stringify_obj (fields : List (JsString × Json)) :
    stringify (.obj fields) =
      js "\x7b" ++ joinComma (fields.map fun f => quote f.1 ++ js ":" ++ stringify f.2) ++
        js "\x7d" := by
  rw [stringify, stringifyFields_eq]

/-! ### Induction -/

/-- Induction on the elements of arrays and the fields of objects. -/
theorem induct {P : Json → Prop} (hnull : P .null) (hbool : ∀ b, P (.bool b))
    (hnum : ∀ n, P (.num n)) (hstr : ∀ s, P (.str s))
    (harr : ∀ items, (∀ item ∈ items, P item) → P (.arr items))
    (hobj : ∀ fields : List (JsString × Json), (∀ f ∈ fields, P f.2) → P (.obj fields)) :
    ∀ value, P value
  | .null => hnull
  | .bool b => hbool b
  | .num n => hnum n
  | .str s => hstr s
  | .arr items =>
    harr items fun item hitem =>
      have := List.sizeOf_lt_of_mem hitem
      induct hnull hbool hnum hstr harr hobj item
  | .obj fields =>
    hobj fields fun f hf =>
      have := List.sizeOf_lt_of_mem hf
      have : sizeOf f.2 < sizeOf f := by cases f; simp +arith
      induct hnull hbool hnum hstr harr hobj f.2
  termination_by value => sizeOf value

end Json

end PandaPay
