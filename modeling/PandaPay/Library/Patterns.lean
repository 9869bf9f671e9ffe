import Mathlib.Data.List.Basic

/-!
# Patterns of fixed width

A pattern is a list of letters that stand for themselves and of fields, each of so many letters of one class. What
kind each letter of a text is of says which patterns the text can match: patterns of different shapes have no text
in common.

## Main definitions

* `Piece`, `matchPieces`: patterns, and the fields of a text that matches one
* `writePieces`: the text with given fields
* `shape`: the kinds of the letters of a pattern

## Main results

* `matchPieces_writePieces`: written fields are read back
* `map_kind_of_matchPieces`: a text that matches has the shape of its pattern
* `findSome?_eq_of_shape`: among patterns that differ in shape, their order does not matter
-/

namespace PandaPay

universe u v w

variable {α : Type u} {φ : Type v} {κ : Type w}

/-- A letter that stands for itself, or a field. -/
inductive Piece (α : Type u) (φ : Type v) where
  | literal (c : α)
  | field (f : φ)
  deriving DecidableEq

/-- The classes of the fields: how many letters, and which. -/
structure FieldClasses (α : Type u) (φ : Type v) where
  width : φ → ℕ
  fits : φ → α → Bool

/-- The fields of a pattern. -/
def fieldsOf (pieces : List (Piece α φ)) : List φ :=
  pieces.filterMap fun
    | .literal _ => none
    | .field f => some f

variable [DecidableEq α] (classes : FieldClasses α φ)

/-- The fields of a text that matches a pattern from its beginning to its end. -/
def matchPieces : List (Piece α φ) → List α → Option (List (φ × List α))
  | [], [] => some []
  | [], _ :: _ => none
  | .literal _ :: _, [] => none
  | .literal c :: pieces, d :: text => if d = c then matchPieces pieces text else none
  | .field f :: pieces, text =>
    if (text.take (classes.width f)).length = classes.width f ∧ (text.take (classes.width f)).all (classes.fits f) then
      (matchPieces pieces (text.drop (classes.width f))).map ((f, text.take (classes.width f)) :: ·)
    else none

/-- The text of a pattern with given fields. -/
def writePieces (write : φ → List α) (pieces : List (Piece α φ)) : List α :=
  pieces.flatMap fun
    | .literal c => [c]
    | .field f => write f

/-- The kinds of the letters of a pattern. -/
def shape (kind : α → κ) (kindOf : φ → κ) (pieces : List (Piece α φ)) : List κ :=
  pieces.flatMap fun
    | .literal c => [kind c]
    | .field f => List.replicate (classes.width f) (kindOf f)

section Match

variable {classes} {kind : α → κ} {kindOf : φ → κ}

/-- Written fields are read back. -/
theorem matchPieces_writePieces {write : φ → List α} (pieces : List (Piece α φ))
    (hwidth : ∀ f ∈ fieldsOf pieces, (write f).length = classes.width f)
    (hfits : ∀ f ∈ fieldsOf pieces, (write f).all (classes.fits f) = true) :
    matchPieces classes pieces (writePieces write pieces) = some ((fieldsOf pieces).map fun f => (f, write f)) := by
  induction pieces with
  | nil => rfl
  | cons piece pieces ih =>
    cases piece with
    | literal c => exact (if_pos rfl).trans (ih hwidth hfits)
    | field f =>
      have hrest := ih (fun g hg => hwidth g (List.mem_cons_of_mem f hg)) fun g hg => hfits g (List.mem_cons_of_mem f hg)
      have htext : writePieces write (.field f :: pieces) = write f ++ writePieces write pieces := rfl
      have hf := hwidth f List.mem_cons_self
      have htake : (write f ++ writePieces write pieces).take (classes.width f) = write f := by
        rw [← hf, List.take_left]
      have hdrop : (write f ++ writePieces write pieces).drop (classes.width f) = writePieces write pieces := by
        rw [← hf, List.drop_left]
      rw [htext, matchPieces, htake, hdrop, if_pos ⟨hf, hfits f List.mem_cons_self⟩, hrest]
      rfl

/-- A text that matches has the shape of its pattern. -/
theorem map_kind_of_matchPieces (hkind : ∀ f c, classes.fits f c = true → kind c = kindOf f)
    {pieces : List (Piece α φ)} {text : List α} {fields : List (φ × List α)}
    (h : matchPieces classes pieces text = some fields) : text.map kind = shape classes kind kindOf pieces := by
  induction pieces generalizing text fields with
  | nil =>
    cases text with
    | nil => rfl
    | cons d text => cases h
  | cons piece pieces ih =>
    cases piece with
    | literal c =>
      cases text with
      | nil => cases h
      | cons d text =>
        rw [matchPieces] at h
        split_ifs at h with hd
        rw [List.map_cons, ih h, hd]
        rfl
    | field f =>
      rw [matchPieces] at h
      split_ifs at h with hf
      obtain ⟨rest, hrest, -⟩ := Option.map_eq_some_iff.mp h
      have hfield : (text.take (classes.width f)).map kind = List.replicate (classes.width f) (kindOf f) := by
        refine List.eq_replicate_iff.mpr ⟨by rw [List.length_map, hf.1], fun k hk => ?_⟩
        obtain ⟨c, hc, rfl⟩ := List.mem_map.mp hk
        exact hkind f c (List.all_eq_true.mp hf.2 c hc)
      calc text.map kind
          = (text.take (classes.width f)).map kind ++ (text.drop (classes.width f)).map kind := by
            rw [← List.map_append, List.take_append_drop]
        _ = List.replicate (classes.width f) (kindOf f) ++ shape classes kind kindOf pieces := by
            rw [hfield, ih hrest]

end Match

/-- The first result is the only one there is. -/
theorem findSome?_eq_of_forall {β : Type*} {γ : Type*} {f : β → Option γ} {l : List β} {b : γ}
    (hall : ∀ x ∈ l, f x = none ∨ f x = some b) (hsome : ∃ x ∈ l, f x = some b) : l.findSome? f = some b := by
  cases hfind : l.findSome? f with
  | none =>
    obtain ⟨x, hx, hb⟩ := hsome
    exact absurd (List.findSome?_eq_none_iff.mp hfind x hx) (by rw [hb]; exact Option.some_ne_none b)
  | some c =>
    obtain ⟨x, hx, hc⟩ := List.exists_of_findSome?_eq_some hfind
    exact (hall x hx).elim (fun hnone => absurd (hnone.symm.trans hc) (Option.some_ne_none c).symm) fun hb =>
      hc.symm.trans hb

/-- Among patterns that differ in shape, their order does not matter: a text is read by the one that it was
written in. -/
theorem findSome?_eq_of_shape {β : Type*} {γ : Type*} {kind : α → κ} {kindOf : φ → κ}
    (hkind : ∀ f c, classes.fits f c = true → kind c = kindOf f) {patternOf : β → List (Piece α φ)}
    {read : List (φ × List α) → Option γ} {l : List β}
    (hseparated : ∀ p ∈ l, ∀ q ∈ l, shape classes kind kindOf (patternOf p) = shape classes kind kindOf (patternOf q) →
      patternOf p = patternOf q)
    {text : List α} {fields : List (φ × List α)} {b : γ} {p : β} (hp : p ∈ l)
    (hmatch : matchPieces classes (patternOf p) text = some fields) (hread : read fields = some b) :
    l.findSome? (fun q => (matchPieces classes (patternOf q) text).bind read) = some b := by
  refine findSome?_eq_of_forall (fun q hq => ?_) ⟨p, hp, by rw [hmatch]; exact hread⟩
  cases hother : matchPieces classes (patternOf q) text with
  | none => exact .inl rfl
  | some others =>
    have hshape := (map_kind_of_matchPieces hkind hmatch).symm.trans (map_kind_of_matchPieces hkind hother)
    rw [← hseparated p hp q hq hshape, hmatch] at hother
    rw [← Option.some.inj hother]
    exact .inr hread

end PandaPay
