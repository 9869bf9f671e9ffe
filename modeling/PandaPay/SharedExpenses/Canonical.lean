import PandaPay.Json.Printer
import PandaPay.SharedExpenses.Validation

/-!
# Canonical JSON of the shared-expense API

`canonicalJson` of `api/src/shared_expenses/canonical.js`, whose text is hashed to compare
commands. A JSON value is a tree, so the source's set of ancestors, which refuses cyclic objects,
never refuses one.

## Main definitions

* `visit`, `canonicalJson`: the restricted printer

## Main results

* `canonicalJson_eq_ok`: what it accepts and prints
* `parse_canonicalJson`, `canonicalJson_sortKeys`, `canonicalJson_eq_iff`: the text is read back
  as the same value, which has the same text, and determines the value up to key order
-/

namespace PandaPay.SharedExpenses

open Json

def MAX_COMMAND_BYTES : ℕ := 65536

/-- `append`: write a text. -/
def append (text : JsString) : Output → Checked Output :=
  write MAX_COMMAND_BYTES (err .payloadTooLarge "$") text

/-- `if(i)append(',')`. -/
def appendComma (i : ℕ) : Output → Checked Output :=
  separate MAX_COMMAND_BYTES (err .payloadTooLarge "$") i

/-- `Number.isSafeInteger(input) && !Object.is(input, -0)`. -/
def isSafeNumber : JsonNumber → Bool
  | .int z => z.natAbs ≤ 9007199254740991
  | _ => false

/-- `visit`: write a value at depth `17 - levels`. -/
def visit : ℕ → Json → Output → Checked Output
  | 0, _, _ => .error (err .invalidInput "$")
  | levels + 1, input, out => do
    let out ← enter (err .invalidInput "$") out
    match input with
    | .null => append (js "null") out
    | .bool b => append (js (if b then "true" else "false")) out
    | .num n =>
      failIf (isSafeNumber n = false) (err .invalidInput "$")
      append (numberText n) out
    | .str s =>
      failIf (s.length > MAX_COMMAND_BYTES) (err .payloadTooLarge "$")
      failIf (validUnicode s = false) (err .invalidInput "$")
      append (quote s) out
    | .arr items =>
      failIf (items.length > 1000) (err .invalidInput "$")
      let out ← append (js "[") out
      let out ← items.zipIdx.foldlM (fun out item => do
        let out ← appendComma item.2 out
        visit levels item.1 out) out
      append (js "]") out
    | .obj fields =>
      let entries := sortFields fields
      failIf (entries.length > 128) (err .invalidInput "$")
      let out ← append (js "\x7b") out
      let out ← entries.zipIdx.foldlM (fun out entry => do
        let key := entry.1.1
        failIf (key.length > 128 ∨ isKeyName key = false) (err .invalidInput "$")
        let out ← appendComma entry.2 out
        let out ← append (quote key) out
        let out ← append (js ":") out
        visit levels entry.1.2 out) out
      append (js "\x7d") out

/-- `canonicalJson`: the canonical text of a value. -/
def canonicalJson (value : Json) : Checked JsString := do
  let out ← visit 17 value 0
  return out.parts

/-! ### What is accepted -/

/-- The checks on a value that do not count what is written. -/
def Visible (levels : ℕ) (value : Json) : Prop :=
  Shape MAX_COMMAND_BYTES levels value ∧ ∀ n ∈ numbers levels value, isSafeNumber n = true

theorem emits_append (text : JsString) :
    Emits (Output.Within MAX_COMMAND_BYTES) True (Output.ofText text) (append text) :=
  emits_write _ text

theorem emits_appendComma {P : Prop} {p : Output} {f : Output → Checked Output}
    (h : Emits (Output.Within MAX_COMMAND_BYTES) P p f) (i : ℕ) :
    Emits (Output.Within MAX_COMMAND_BYTES) P (p.element i)
      fun out => appendComma i out >>= f :=
  emits_element h _ i

/-- Visiting a value that passes the checks writes its piece, if the limits allow. -/
theorem emits_visit (levels : ℕ) (value : Json) :
    Emits (Output.Within MAX_COMMAND_BYTES) (Visible levels value) (piece levels value)
      (visit levels value) := by
  induction levels generalizing value with
  | zero =>
    refine (Emits.error (p := 0) _).congr ?_ fun _ => rfl
    simp [Visible, Shape]
  | succ levels ih =>
    have hdown : ∀ a b : Output, (a + b).Within MAX_COMMAND_BYTES → a.Within MAX_COMMAND_BYTES :=
      Output.within_of_add
    cases value with
    | null =>
      refine (Emits.append hdown (emits_enter _) (emits_append (js "null"))).congr ?_ fun _ => rfl
      simp [Visible, Shape, numbers]
    | bool b =>
      refine (Emits.append hdown (emits_enter _) (emits_append _)).congr ?_ fun _ => rfl
      simp [Visible, Shape, numbers]
    | num n =>
      refine (Emits.append hdown (emits_enter _) (Emits.guard fun _ => emits_append _)).congr ?_
        fun _ => rfl
      simp [Visible, Shape, numbers]
    | str s =>
      refine (Emits.append hdown (emits_enter _) (Emits.guard fun _ => Emits.guard fun _ =>
        emits_append _)).congr ?_ fun _ => rfl
      simp [Visible, Shape, numbers]
    | arr items =>
      have hloop : Emits (Output.Within MAX_COMMAND_BYTES) (∀ item ∈ items, Visible levels item)
          (.separated (items.map (piece levels))) fun out => items.zipIdx.foldlM (fun out item =>
            appendComma item.2 out >>= visit levels item.1) out :=
        emits_separated fun item _ i => emits_appendComma (ih item) i
      refine (Emits.append hdown (emits_enter _) (Emits.guard (c := items.length > 1000) fun _ =>
        Emits.append hdown (emits_append _) (Emits.append hdown hloop (emits_append _)))).congr ?_
          fun _ => rfl
      simp only [Visible, Shape, numbers, List.forall_mem_flatMap]
      grind
    | obj fields =>
      have hloop : Emits (Output.Within MAX_COMMAND_BYTES)
          (∀ f ∈ sortFields fields, (f.1.length ≤ 128 ∧ isKeyName f.1 = true) ∧ Visible levels f.2)
          (.separated ((sortFields fields).map fun f =>
            .ofText (quote f.1) + (.ofText (js ":") + piece levels f.2)))
          fun out => (sortFields fields).zipIdx.foldlM (fun out (entry : (JsString × Json) × ℕ) =>
            failIf (entry.1.1.length > 128 ∨ isKeyName entry.1.1 = false)
              (err .invalidInput "$") >>= fun _ =>
            appendComma entry.2 out >>= fun out =>
            append (quote entry.1.1) out >>= fun out =>
            append (js ":") out >>= visit levels entry.1.2) out := by
        refine emits_separated fun f _ i => ?_
        have hentry := Emits.append hdown (emits_append (quote f.1))
          (Emits.append hdown (emits_append (js ":")) (ih f.2))
        refine (Emits.guard (c := f.1.length > 128 ∨ isKeyName f.1 = false) fun _ =>
          emits_appendComma hentry i).congr ?_ fun _ => rfl
        simp
      refine (Emits.append hdown (emits_enter (err .invalidInput "$")) (Emits.guard (c := (sortFields fields).length > 128)
        (e := err .invalidInput "$") fun _ => Emits.append hdown (emits_append (js "\x7b"))
          (Emits.append hdown hloop (emits_append (js "\x7d"))))).congr ?_ fun _ => rfl
      simp only [Visible, Shape, numbers, List.forall_mem_flatMap, (perm_sortFields fields).mem_iff,
        (perm_sortFields fields).length_eq]
      grind

/-- What `canonicalJson` accepts and prints. -/
theorem canonicalJson_eq_ok {value : Json} {text : JsString} :
    canonicalJson value = .ok text ↔
      (WithinLimits MAX_COMMAND_BYTES value ∧ ∀ n ∈ numbers 17 value, isSafeNumber n = true) ∧
        text = textOf 17 value := by
  have hzero : Output.Within MAX_COMMAND_BYTES 0 := ⟨Nat.zero_le _, Nat.zero_le _⟩
  have hvisit := fun out => emits_visit 17 value 0 out hzero
  simp only [canonicalJson, bind_eq_ok, hvisit, zero_add, pure_eq_ok, Except.ok.injEq, Visible,
    WithinLimits]
  constructor
  · rintro ⟨out, ⟨⟨hshape, hnumbers⟩, hwithin, rfl⟩, rfl⟩
    exact ⟨⟨⟨hshape, hwithin⟩, hnumbers⟩, parts_piece 17 value⟩
  · rintro ⟨⟨⟨hshape, hwithin⟩, hnumbers⟩, rfl⟩
    exact ⟨piece 17 value, ⟨⟨hshape, hnumbers⟩, hwithin, rfl⟩, parts_piece 17 value⟩

/-! ### The text and its value -/

theorem plain_of_visible {levels : ℕ} {value : Json} (hd : Distinct value)
    (h : Visible levels value) : Plain levels value := by
  induction levels generalizing value with
  | zero => exact h.1
  | succ levels ih =>
    cases hd with
    | num n =>
      have hsafe := h.2 n (List.mem_singleton_self n)
      cases n with
      | int z => exact ⟨z, rfl⟩
      | _ => exact Bool.noConfusion hsafe
    | arr items hitems =>
      intro item hitem
      refine ih (hitems item hitem) ⟨h.1.2 item hitem, fun n hn => h.2 n ?_⟩
      exact List.mem_flatMap.mpr ⟨item, hitem, hn⟩
    | obj fields hnodup hfields =>
      refine ⟨hnodup, fun f hf => ih (hfields f hf) ⟨(h.1.2 f hf).2, fun n hn => h.2 n ?_⟩⟩
      exact List.mem_flatMap.mpr ⟨f, hf, hn⟩
    | _ => trivial

/-- The printer does not see the order of the keys. -/
theorem visit_sortKeys (levels : ℕ) (value : Json) :
    visit levels (sortKeys levels value) = visit levels value := by
  induction levels generalizing value with
  | zero => rfl
  | succ levels ih =>
    cases value with
    | arr items =>
      funext out
      simp only [sortKeys, visit, List.length_map, List.zipIdx_map, List.foldlM_map, Prod.map, ih,
        id_eq]
    | obj fields =>
      funext out
      simp only [sortKeys, visit, sortFields_sortKeys, List.length_map, List.zipIdx_map,
        List.foldlM_map, Prod.map, ih, id_eq]
    | _ => rfl

theorem canonicalJson_sortKeys (value : Json) :
    canonicalJson (sortKeys 17 value) = canonicalJson value := by
  rw [canonicalJson, canonicalJson, visit_sortKeys]

section Accepted

variable {value other : Json} {text text' : JsString}

theorem plain_of_canonicalJson (hd : Distinct value) (h : canonicalJson value = .ok text) :
    Plain 17 value := by
  obtain ⟨⟨⟨hshape, -⟩, hnumbers⟩, -⟩ := canonicalJson_eq_ok.mp h
  exact plain_of_visible hd ⟨hshape, hnumbers⟩

/-- Parsing the text gives the value back, with its keys in order. -/
theorem parse_canonicalJson (hd : Distinct value) (h : canonicalJson value = .ok text) :
    parse text = some (sortKeys 17 value) := by
  rw [(canonicalJson_eq_ok.mp h).2]
  exact parse_textOf (plain_of_canonicalJson hd h)

/-- Two accepted values have one text exactly when they are equal up to key order. -/
theorem canonicalJson_eq_iff (hd : Distinct value) (hd' : Distinct other)
    (h : canonicalJson value = .ok text) (h' : canonicalJson other = .ok text') :
    text = text' ↔ Reorder value other := by
  rw [(canonicalJson_eq_ok.mp h).2, (canonicalJson_eq_ok.mp h').2]
  exact textOf_eq_iff (plain_of_canonicalJson hd h) (plain_of_canonicalJson hd' h')

end Accepted

end PandaPay.SharedExpenses
