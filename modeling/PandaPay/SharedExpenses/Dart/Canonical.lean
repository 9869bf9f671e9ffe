import PandaPay.Json.Printer

/-!
# Canonical JSON in Dart

The app's own printer of canonical JSON, `sharedCanonicalJson` of
`features/shared_expenses/data/shared_commands.dart`, which hashes a command before it is sent. In
Dart an integer is a 64-bit `int`, and a number written with a fraction or an exponent a `double`
whatever its value is.

## Main definitions

* `DartValue`: the values `jsonDecode` returns
* `DartValue.toJson`: the JSON value one stands for
* `visit`, `sharedCanonicalJson`: the restricted printer

## Main results

* `sharedCanonicalJson_eq_ok`: what it accepts and prints
-/

namespace PandaPay.SharedExpenses.Dart

open Json

/-- A Dart `num`. -/
inductive DartNumber where
  | int (n : BitVec 64)
  | double (value : JsonNumber)

/-- A Dart value made of what JSON can express; a map has its entries in insertion order. -/
inductive DartValue where
  | null
  | bool (b : Bool)
  | num (n : DartNumber)
  | str (s : JsString)
  | list (items : List DartValue)
  | map (entries : List (JsString × DartValue))

/-- The number a `num` stands for. -/
def DartNumber.toJson : DartNumber → JsonNumber
  | int n => .int n.toInt
  | double value => value

namespace DartValue

mutual

/-- The JSON value a Dart value stands for. -/
def toJson : DartValue → Json
  | null => .null
  | bool b => .bool b
  | num n => .num n.toJson
  | str s => .str s
  | list items => .arr (itemsToJson items)
  | map entries => .obj (entriesToJson entries)

/-- The elements of a list as JSON values. -/
def itemsToJson : List DartValue → List Json
  | [] => []
  | item :: items => item.toJson :: itemsToJson items

/-- The entries of a map as fields. -/
def entriesToJson : List (JsString × DartValue) → List (JsString × Json)
  | [] => []
  | (key, value) :: entries => (key, value.toJson) :: entriesToJson entries

end

/-- The numbers in a value nested less than `levels` deep. -/
def numbers : ℕ → DartValue → List DartNumber
  | 0, _ => []
  | _ + 1, num n => [n]
  | levels + 1, list items => items.flatMap (numbers levels)
  | levels + 1, map entries => entries.flatMap fun e => numbers levels e.2
  | _ + 1, _ => []

theorem itemsToJson_eq_map (items : List DartValue) : itemsToJson items = items.map toJson := by
  induction items with
  | nil => rfl
  | cons item items ih => rw [itemsToJson, ih, List.map_cons]

theorem entriesToJson_eq_map (entries : List (JsString × DartValue)) :
    entriesToJson entries = entries.map fun e => (e.1, e.2.toJson) := by
  induction entries with
  | nil => rfl
  | cons e entries ih => rw [entriesToJson, ih, List.map_cons]

/-- The numbers of a value are those of the JSON value it stands for. -/
theorem numbers_toJson (levels : ℕ) (value : DartValue) :
    Json.numbers levels value.toJson = (value.numbers levels).map DartNumber.toJson := by
  induction levels generalizing value with
  | zero => rfl
  | succ levels ih =>
    cases value with
    | list items =>
      rw [toJson, itemsToJson_eq_map, Json.numbers, numbers, List.flatMap_map, List.map_flatMap]
      exact List.flatMap_congr fun item _ => ih item
    | map entries =>
      rw [toJson, entriesToJson_eq_map, Json.numbers, numbers, List.flatMap_map, List.map_flatMap]
      exact List.flatMap_congr fun e _ => ih e.2
    | _ => rfl

end DartValue

/-- What `throw const FormatException(message)` throws. -/
structure FormatException where
  message : String
  deriving DecidableEq

/-- `append`: write a text. -/
def append (maxBytes : ℕ) (text : JsString) : Output → Except FormatException Output :=
  write maxBytes ⟨"JSON byte limit exceeded"⟩ text

/-- `if (i > 0) append(',')`. -/
def appendComma (maxBytes : ℕ) (i : ℕ) : Output → Except FormatException Output :=
  separate maxBytes ⟨"JSON byte limit exceeded"⟩ i

/-- `_validString`: no surrogate stands alone. -/
def validString : JsString → Except FormatException Unit
  | [] => pure ()
  | unit :: units =>
    if isHighSurrogate unit then
      match units with
      | [] => .error ⟨"Invalid JSON string"⟩
      | next :: rest =>
        if isLowSurrogate next then validString rest else .error ⟨"Invalid JSON string"⟩
    else if isLowSurrogate unit then .error ⟨"Invalid JSON string"⟩
    else validString units

/-- `input is int && input.abs() <= 9007199254740991`. The absolute value of the least `int`
overflows to itself. -/
def isSafeInt : DartNumber → Bool
  | .int n => n.abs.toInt ≤ 9007199254740991
  | .double _ => false

/-- `visit`: write a value at depth `17 - levels`. -/
def visit (maxBytes : ℕ) : ℕ → DartValue → Output → Except FormatException Output
  | 0, _, _ => .error ⟨"JSON structure limit exceeded"⟩
  | levels + 1, input, out => do
    let out ← enter ⟨"JSON structure limit exceeded"⟩ out
    match input with
    | .null => append maxBytes (js "null") out
    | .bool b => append maxBytes (js (if b then "true" else "false")) out
    | .num n =>
      failIf (isSafeInt n = false) ⟨"Unsupported JSON value"⟩
      append maxBytes (numberText n.toJson) out
    | .str s =>
      failIf (s.length > maxBytes) ⟨"JSON byte limit exceeded"⟩
      validString s
      append maxBytes (quote s) out
    | .list items =>
      failIf (items.length > 1000) ⟨"JSON array limit exceeded"⟩
      let out ← append maxBytes (js "[") out
      let out ← items.zipIdx.foldlM (fun out item => do
        let out ← appendComma maxBytes item.2 out
        visit maxBytes levels item.1 out) out
      append maxBytes (js "]") out
    | .map entries =>
      failIf (entries.length > 128) ⟨"JSON object limit exceeded"⟩
      -- every key is checked before the first one is written
      failIf (entries.any fun e => e.1.length > 128 ∨ isKeyName e.1 = false) ⟨"Invalid JSON key"⟩
      let out ← append maxBytes (js "\x7b") out
      let out ← (sortFields entries).zipIdx.foldlM (fun out entry => do
        let out ← appendComma maxBytes entry.2 out
        let out ← append maxBytes (quote entry.1.1) out
        let out ← append maxBytes (js ":") out
        visit maxBytes levels entry.1.2 out) out
      append maxBytes (js "\x7d") out

/-- `sharedCanonicalJson`: the canonical text of a value. -/
def sharedCanonicalJson (value : DartValue) (maxBytes : ℕ := 65536) :
    Except FormatException JsString := do
  let out ← visit maxBytes 17 value 0
  return out.parts

/-! ### What is accepted -/

section Accepted

variable {maxBytes : ℕ}

/-- The checks on a value that do not count what is written. -/
def Visible (maxBytes levels : ℕ) (value : DartValue) : Prop :=
  Shape maxBytes levels value.toJson ∧ ∀ n ∈ value.numbers levels, isSafeInt n = true

theorem validString_eq (s : JsString) :
    validString s = failIf (validUnicode s = false) ⟨"Invalid JSON string"⟩ := by
  fun_induction validString s <;> rw [validUnicode.eq_def] <;> simp_all [pure_eq_ok]

theorem emits_append (text : JsString) :
    Emits (Output.Within maxBytes) True (Output.ofText text) (append maxBytes text) :=
  emits_write _ text

theorem emits_appendComma {P : Prop} {p : Output} {f : Output → Except FormatException Output}
    (h : Emits (Output.Within maxBytes) P p f) (i : ℕ) :
    Emits (Output.Within maxBytes) P (p.element i) fun out => appendComma maxBytes i out >>= f :=
  emits_element h _ i

/-- Visiting a value that passes the checks writes its piece, if the limits allow. -/
theorem emits_visit (levels : ℕ) (value : DartValue) :
    Emits (Output.Within maxBytes) (Visible maxBytes levels value) (piece levels value.toJson)
      (visit maxBytes levels value) := by
  induction levels generalizing value with
  | zero =>
    refine (Emits.error (p := 0) _).congr ?_ fun _ => rfl
    simp [Visible, Shape]
  | succ levels ih =>
    have hdown : ∀ a b : Output, (a + b).Within maxBytes → a.Within maxBytes :=
      Output.within_of_add
    cases value with
    | null =>
      refine (Emits.append hdown (emits_enter _) (emits_append (js "null"))).congr ?_ fun _ => rfl
      simp [Visible, Shape, DartValue.toJson, DartValue.numbers]
    | bool b =>
      refine (Emits.append hdown (emits_enter _) (emits_append _)).congr ?_ fun _ => rfl
      simp [Visible, Shape, DartValue.toJson, DartValue.numbers]
    | num n =>
      refine (Emits.append hdown (emits_enter _) (Emits.guard fun _ => emits_append _)).congr ?_
        fun _ => rfl
      simp [Visible, Shape, DartValue.toJson, DartValue.numbers]
    | str s =>
      have hstring : visit maxBytes (levels + 1) (.str s) = fun out =>
          enter ⟨"JSON structure limit exceeded"⟩ out >>= fun out =>
            failIf (s.length > maxBytes) ⟨"JSON byte limit exceeded"⟩ >>= fun _ =>
              failIf (validUnicode s = false) ⟨"Invalid JSON string"⟩ >>= fun _ =>
                append maxBytes (quote s) out := by
        funext out
        rw [← validString_eq]
        rfl
      rw [hstring]
      refine (Emits.append hdown (emits_enter _) (Emits.guard fun _ => Emits.guard fun _ =>
        emits_append _)).congr ?_ fun _ => rfl
      simp [Visible, Shape, DartValue.toJson, DartValue.numbers]
    | list items =>
      have hloop : Emits (Output.Within maxBytes) (∀ item ∈ items, Visible maxBytes levels item)
          (.separated (items.map fun item => piece levels item.toJson))
          fun out => items.zipIdx.foldlM (fun out item =>
            appendComma maxBytes item.2 out >>= visit maxBytes levels item.1) out :=
        emits_separated fun item _ i => emits_appendComma (ih item) i
      refine (Emits.append hdown (emits_enter _) (Emits.guard (c := items.length > 1000) fun _ =>
        Emits.append hdown (emits_append _) (Emits.append hdown hloop (emits_append _)))).congr ?_
          fun _ => ?_
      · simp only [Visible, Shape, DartValue.toJson, DartValue.itemsToJson_eq_map,
          DartValue.numbers, List.forall_mem_flatMap, List.forall_mem_map, List.length_map]
        grind
      · rw [DartValue.toJson, piece, DartValue.itemsToJson_eq_map, List.map_map]
        rfl
    | map entries =>
      have hloop : Emits (Output.Within maxBytes)
          (∀ e ∈ sortFields entries, Visible maxBytes levels e.2)
          (.separated ((sortFields entries).map fun e =>
            .ofText (quote e.1) + (.ofText (js ":") + piece levels e.2.toJson)))
          fun out => (sortFields entries).zipIdx.foldlM
            (fun out (entry : (JsString × DartValue) × ℕ) =>
              appendComma maxBytes entry.2 out >>= fun out =>
              append maxBytes (quote entry.1.1) out >>= fun out =>
              append maxBytes (js ":") out >>= visit maxBytes levels entry.1.2) out := by
        refine emits_separated fun e _ i => ?_
        have hentry := Emits.append hdown (emits_append (quote e.1))
          (Emits.append hdown (emits_append (js ":")) (ih e.2))
        refine (emits_appendComma hentry i).congr ?_ fun _ => rfl
        simp
      refine (Emits.append hdown (emits_enter _) (Emits.guard (c := entries.length > 128) fun _ =>
        Emits.guard fun _ => Emits.append hdown (emits_append _)
          (Emits.append hdown hloop (emits_append _)))).congr ?_ fun _ => ?_
      · simp only [Visible, Shape, DartValue.toJson, DartValue.entriesToJson_eq_map,
          DartValue.numbers, List.forall_mem_flatMap, List.forall_mem_map, List.length_map,
          (perm_sortFields entries).mem_iff, List.any_eq_true, decide_eq_true_eq]
        grind
      · rw [DartValue.toJson, piece, DartValue.entriesToJson_eq_map, sortFields_map, List.map_map]
        rfl

/-- What `sharedCanonicalJson` accepts and prints. -/
theorem sharedCanonicalJson_eq_ok {value : DartValue} {text : JsString} :
    sharedCanonicalJson value maxBytes = .ok text ↔
      (WithinLimits maxBytes value.toJson ∧ ∀ n ∈ value.numbers 17, isSafeInt n = true) ∧
        text = textOf 17 value.toJson := by
  have hzero : Output.Within maxBytes 0 := ⟨Nat.zero_le _, Nat.zero_le _⟩
  have hvisit := fun out => emits_visit 17 value 0 out hzero
  simp only [sharedCanonicalJson, bind_eq_ok, hvisit, zero_add, pure_eq_ok, Except.ok.injEq,
    Visible, WithinLimits]
  constructor
  · rintro ⟨out, ⟨⟨hshape, hnumbers⟩, hwithin, rfl⟩, rfl⟩
    exact ⟨⟨⟨hshape, hwithin⟩, hnumbers⟩, parts_piece 17 value.toJson⟩
  · rintro ⟨⟨⟨hshape, hwithin⟩, hnumbers⟩, rfl⟩
    exact ⟨piece 17 value.toJson, ⟨⟨hshape, hnumbers⟩, hwithin, rfl⟩, parts_piece 17 value.toJson⟩

end Accepted

end PandaPay.SharedExpenses.Dart
