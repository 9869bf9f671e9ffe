import PandaPay.Json.Reorder
import PandaPay.Library.Checked

/-!
# Printing under limits

What the two printers of canonical JSON share: the output with its byte and node counters, the
steps that write to it, and the limits on a value. Both printers visit a value in the same order,
and both stop as soon as a counter passes its limit.

## Main definitions

* `Output`: a text with the bytes and nodes counted for it
* `write`, `separate`, `enter`: append a text or a comma, count a node
* `Json.piece`: what printing a value adds to the output
* `Json.Shape`, `Json.WithinLimits`: the limits on everything but the numbers

## Main results

* `emits_write`, `emits_enter`, `emits_separated`: the steps of a printer add their piece
* `Json.parts_piece`: the text of a piece is the canonical text
-/

namespace PandaPay

/-! ### Strings -/

/-- The surrogates that start a pair. -/
def isHighSurrogate (c : CodeUnit) : Bool := 0xd800 ≤ c.val ∧ c.val ≤ 0xdbff

/-- The surrogates that end a pair. -/
def isLowSurrogate (c : CodeUnit) : Bool := 0xdc00 ≤ c.val ∧ c.val ≤ 0xdfff

/-- `Buffer.byteLength(s, 'utf8')` and `utf8.encode(s).length`: a surrogate pair takes four bytes,
a lone surrogate the three of the replacement character. -/
def utf8Length : JsString → ℕ
  | [] => 0
  | c :: rest =>
    if c.val < 0x80 then 1 + utf8Length rest
    else if c.val < 0x800 then 2 + utf8Length rest
    else if isHighSurrogate c then
      match rest with
      | [] => 3
      | d :: after => if isLowSurrogate d then 4 + utf8Length after else 3 + utf8Length (d :: after)
    else 3 + utf8Length rest

/-- `validUnicode`: no surrogate stands alone. -/
def validUnicode : JsString → Bool
  | [] => true
  | unit :: rest =>
    if isHighSurrogate unit then
      match rest with
      | [] => false
      | next :: after => if isLowSurrogate next then validUnicode after else false
    else if isLowSurrogate unit then false
    else validUnicode rest

/-- The character class `[A-Za-z]`. -/
def isLetter (c : CodeUnit) : Bool := (65 ≤ c.val ∧ c.val ≤ 90) ∨ (97 ≤ c.val ∧ c.val ≤ 122)

/-- The grammar `^[A-Za-z][A-Za-z0-9_]*$`. -/
def isKeyName : JsString → Bool
  | [] => false
  | c :: cs => isLetter c && cs.all fun d => isLetter d || isDigit d || d.val = 95

/-! ### Output -/

/-- A text, its bytes in UTF-8 and the nodes visited for it. -/
@[ext]
structure Output where
  parts : JsString
  bytes : ℕ
  nodes : ℕ

namespace Output

instance : Zero Output := ⟨⟨[], 0, 0⟩⟩

instance : Add Output := ⟨fun a b => ⟨a.parts ++ b.parts, a.bytes + b.bytes, a.nodes + b.nodes⟩⟩

@[simp] theorem parts_zero : (0 : Output).parts = [] := rfl

@[simp] theorem parts_add (a b : Output) : (a + b).parts = a.parts ++ b.parts := rfl

@[simp] theorem bytes_add (a b : Output) : (a + b).bytes = a.bytes + b.bytes := rfl

@[simp] theorem nodes_add (a b : Output) : (a + b).nodes = a.nodes + b.nodes := rfl

instance : AddMonoid Output where
  add_assoc a b c := Output.ext (List.append_assoc _ _ _) (add_assoc _ _ _) (add_assoc _ _ _)
  zero_add a := Output.ext rfl (zero_add _) (zero_add _)
  add_zero a := Output.ext (List.append_nil _) rfl rfl
  nsmul := nsmulRec

/-- At most `maxBytes` bytes and 8192 nodes. -/
def Within (maxBytes : ℕ) (out : Output) : Prop := out.bytes ≤ maxBytes ∧ out.nodes ≤ 8192

theorem within_of_add {maxBytes : ℕ} (a b : Output) (h : Within maxBytes (a + b)) :
    Within maxBytes a := by
  obtain ⟨hbytes, hnodes⟩ := h
  rw [bytes_add] at hbytes
  rw [nodes_add] at hnodes
  exact ⟨by omega, by omega⟩

/-- A text that has been written. -/
def ofText (text : JsString) : Output := ⟨text, utf8Length text, 0⟩

/-- A node that has been entered. -/
def node : Output := ⟨[], 0, 1⟩

/-- Pieces with commas between them. -/
def separated : List Output → Output
  | [] => 0
  | piece :: pieces => piece + (pieces.map (ofText (js ",") + ·)).sum

end Output

section Steps

variable {ε : Type} {maxBytes : ℕ}

/-- Append a text, unless the output then has more than `maxBytes` bytes. -/
def write (maxBytes : ℕ) (e : ε) (text : JsString) (out : Output) : Except ε Output := do
  failIf (out.bytes + utf8Length text > maxBytes) e
  return { out with parts := out.parts ++ text, bytes := out.bytes + utf8Length text }

/-- Count a node, unless there are 8192 already. -/
def enter (e : ε) (out : Output) : Except ε Output := do
  failIf (out.nodes + 1 > 8192) e
  return { out with nodes := out.nodes + 1 }

/-- A comma before every element of a list but the first. -/
def separate (maxBytes : ℕ) (e : ε) (i : ℕ) (out : Output) : Except ε Output :=
  if i > 0 then write maxBytes e (js ",") out else pure out

theorem emits_write (e : ε) (text : JsString) :
    Emits (Output.Within maxBytes) True (Output.ofText text) (write maxBytes e text) := by
  intro out out' hout
  have hadd : out + Output.ofText text =
      { out with parts := out.parts ++ text, bytes := out.bytes + utf8Length text } := rfl
  rw [write, failIf_bind_eq_ok, pure_eq_ok, Except.ok.injEq, hadd]
  constructor
  · rintro ⟨hbytes, rfl⟩
    exact ⟨trivial, ⟨not_lt.mp hbytes, hout.2⟩, rfl⟩
  · rintro ⟨-, ⟨hbytes, -⟩, rfl⟩
    exact ⟨not_lt.mpr hbytes, rfl⟩

theorem emits_enter (e : ε) : Emits (Output.Within maxBytes) True Output.node (enter e) := by
  intro out out' hout
  have hadd : out + Output.node = { out with nodes := out.nodes + 1 } :=
    Output.ext (List.append_nil _) rfl rfl
  rw [enter, failIf_bind_eq_ok, pure_eq_ok, Except.ok.injEq, hadd]
  constructor
  · rintro ⟨hnodes, rfl⟩
    exact ⟨trivial, ⟨hout.1, not_lt.mp hnodes⟩, rfl⟩
  · rintro ⟨-, ⟨-, hnodes⟩, rfl⟩
    exact ⟨not_lt.mpr hnodes, rfl⟩

/-- What the `i`-th element of a list adds: a comma stands before all but the first. -/
def Output.element (piece : Output) (i : ℕ) : Output :=
  if i > 0 then Output.ofText (js ",") + piece else piece

theorem Output.sum_element {α : Type} (p : α → Output) (xs : List α) :
    (xs.zipIdx.map fun x => (p x.1).element x.2).sum = separated (xs.map p) := by
  have htail : ∀ (ys : List α) (k : ℕ), 0 < k →
      ((ys.zipIdx k).map fun x => (p x.1).element x.2) =
        (ys.map p).map (ofText (js ",") + ·) := by
    intro ys
    induction ys with
    | nil => intro k _; rfl
    | cons y ys ih =>
      intro k hk
      rw [List.zipIdx_cons, List.map_cons, ih (k + 1) (by omega), element, if_pos hk]
      rfl
  cases xs with
  | nil => rfl
  | cons x xs =>
    rw [List.zipIdx_cons, List.map_cons, List.sum_cons, htail xs (0 + 1) Nat.one_pos]
    rfl

/-- Write an element after the comma that separates it from the one before. -/
theorem emits_element {P : Prop} {p : Output} {f : Output → Except ε Output}
    (h : Emits (Output.Within maxBytes) P p f) (e : ε) (i : ℕ) :
    Emits (Output.Within maxBytes) P (p.element i)
      fun out => separate maxBytes e i out >>= f := by
  unfold Output.element separate
  split
  · exact (Emits.append Output.within_of_add (emits_write e _) h).congr (iff_of_eq (true_and _)) fun _ => rfl
  · exact h

/-- A loop over a list whose passes each write an element. -/
theorem emits_separated {α : Type} {P : α → Prop} {p : α → Output}
    {body : Output → α × ℕ → Except ε Output} {xs : List α}
    (h : ∀ x ∈ xs, ∀ i, Emits (Output.Within maxBytes) (P x) ((p x).element i)
      fun out => body out (x, i)) :
    Emits (Output.Within maxBytes) (∀ x ∈ xs, P x) (Output.separated (xs.map p))
      fun out => xs.zipIdx.foldlM body out := by
  have hmem : ∀ x ∈ xs.zipIdx, x.1 ∈ xs := fun x hx => List.fst_mem_of_mem_zipIdx hx
  refine (Emits.foldlM Output.within_of_add (P := fun x : α × ℕ => P x.1)
    (p := fun x => (p x.1).element x.2) fun x hx => h x.1 (hmem x hx) x.2).congr ?_ fun _ =>
      Output.sum_element p xs
  constructor
  · intro hall x hx
    rw [← List.zipIdx_map_fst 0 xs] at hx
    obtain ⟨y, hy, rfl⟩ := List.mem_map.mp hx
    exact hall y hy
  · exact fun hall x hx => hall x.1 (hmem x hx)

end Steps

namespace Json

/-! ### Limits -/

/-- The depth, length and key limits on a value nested less than `levels` deep. -/
def Shape (maxBytes : ℕ) : ℕ → Json → Prop
  | 0, _ => False
  | _ + 1, .str s => s.length ≤ maxBytes ∧ validUnicode s = true
  | levels + 1, .arr items => items.length ≤ 1000 ∧ ∀ item ∈ items, Shape maxBytes levels item
  | levels + 1, .obj fields => fields.length ≤ 128 ∧
      ∀ f ∈ fields, (f.1.length ≤ 128 ∧ isKeyName f.1 = true) ∧ Shape maxBytes levels f.2
  | _ + 1, _ => True

/-- The numbers in a value nested less than `levels` deep. -/
def numbers : ℕ → Json → List JsonNumber
  | 0, _ => []
  | _ + 1, .num n => [n]
  | levels + 1, .arr items => items.flatMap (numbers levels)
  | levels + 1, .obj fields => fields.flatMap fun f => numbers levels f.2
  | _ + 1, _ => []

/-- The text of a number, when it is an integer. -/
def numberText : JsonNumber → JsString
  | .int z => signedDecimal z
  | _ => []

/-- What printing a value adds to the output. -/
def piece : ℕ → Json → Output
  | 0, _ => 0
  | _ + 1, .null => .node + .ofText (js "null")
  | _ + 1, .bool b => .node + .ofText (js (if b then "true" else "false"))
  | _ + 1, .num n => .node + .ofText (numberText n)
  | _ + 1, .str s => .node + .ofText (quote s)
  | levels + 1, .arr items =>
    .node + (.ofText (js "[") + (.separated (items.map (piece levels)) + .ofText (js "]")))
  | levels + 1, .obj fields =>
    .node + (.ofText (js "\x7b") + (.separated ((sortFields fields).map fun f =>
      .ofText (quote f.1) + (.ofText (js ":") + piece levels f.2)) + .ofText (js "\x7d")))

/-- The limits on a value apart from those on its numbers: depth, lengths, keys, bytes, nodes. -/
def WithinLimits (maxBytes : ℕ) (value : Json) : Prop :=
  Shape maxBytes 17 value ∧ (piece 17 value).Within maxBytes

theorem parts_separated (pieces : List Output) :
    (Output.separated pieces).parts = joinComma (pieces.map Output.parts) := by
  have hsum : ∀ ps : List Output, ((ps.map (Output.ofText (js ",") + ·)).sum).parts =
      (ps.map Output.parts).flatMap (js "," ++ ·) := by
    intro ps
    induction ps with
    | nil => rfl
    | cons p ps ih =>
      rw [List.map_cons, List.sum_cons, Output.parts_add, ih]
      rfl
  cases pieces with
  | nil => rfl
  | cons p ps => rw [Output.separated, Output.parts_add, hsum]; rfl

/-- The text of a piece is the canonical text. -/
theorem parts_piece (levels : ℕ) (value : Json) : (piece levels value).parts = textOf levels value := by
  induction levels generalizing value with
  | zero => rfl
  | succ levels ih =>
    cases value with
    | num n => cases n <;> rfl
    | arr items =>
      simp only [piece, textOf, Output.parts_add, parts_separated, List.map_map, Function.comp_def,
        ih, List.append_assoc]
      rfl
    | obj fields =>
      simp only [piece, textOf, Output.parts_add, parts_separated, List.map_map, Function.comp_def,
        ih, List.append_assoc]
      rfl
    | _ => rfl

end Json

end PandaPay
