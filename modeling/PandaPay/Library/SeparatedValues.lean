import Mathlib.Data.List.Basic

/-!
# Separated values

Records of fields as a text: fields are separated by a comma and records end with a line feed, with a carriage
return before it or not. A field that contains one of these, or a quote, stands in quotes, with its own quotes
doubled. What is written so is read back.

## Main definitions

* `Delimiters`: the letters with a meaning
* `Delimiters.writeField`, `Delimiters.writeRecords`: fields and records as a text
* `Delimiters.read`: the records of a text

## Main results

* `Delimiters.read_writeRecords`: written records are read back; one without fields has an empty one then
-/

namespace PandaPay

universe u

/-- The letters with a meaning. -/
structure Delimiters (α : Type u) where
  comma : α
  quote : α
  lineFeed : α
  carriageReturn : α
  /-- They differ. -/
  nodup : [comma, quote, lineFeed, carriageReturn].Nodup

/-- Where a reader is: before a field, in a plain or in a quoted one, behind a quote in a quoted one, or behind a
carriage return. -/
inductive ReadMode where
  | start | plain | quoted | quote | carriageReturn
  deriving DecidableEq

/-- What a reader has read: the records, the fields of the record that it is in, and the text of the field. -/
structure ReadState (α : Type u) where
  records : List (List (List α)) := []
  fields : List (List α) := []
  text : List α := []
  mode : ReadMode := .start

namespace ReadState

variable {α : Type u} (s : ReadState α)

/-- The field ends. -/
def endField : ReadState α := { s with fields := s.fields ++ [s.text], text := [], mode := .start }

/-- The record ends, with its last field. -/
def endRecord : ReadState α := { records := s.records ++ [s.fields ++ [s.text]] }

/-- The letter belongs to the field. -/
def push (c : α) (mode : ReadMode) : ReadState α := { s with text := s.text ++ [c], mode := mode }

/-- The records at the end of the text. The last one may end without a line feed. -/
def finish : Option (List (List (List α))) :=
  match s.mode with
  | .quoted | .carriageReturn => none
  | .start => some (if s.fields.isEmpty then s.records else s.endRecord.records)
  | .plain | .quote => some s.endRecord.records

end ReadState

namespace Delimiters

variable {α : Type u} [DecidableEq α] (d : Delimiters α)

/-! ### Writing -/

/-- Whether a letter has a meaning. -/
def special (c : α) : Bool := c = d.comma || c = d.quote || c = d.lineFeed || c = d.carriageReturn

/-- A text with its quotes doubled. -/
def doubled (text : List α) : List α := text.flatMap fun c => if c = d.quote then [d.quote, d.quote] else [c]

/-- A field, in quotes where it needs them. -/
def writeField (text : List α) : List α :=
  if text.any d.special then d.quote :: (d.doubled text ++ [d.quote]) else text

/-- The fields of a record. -/
def writeRecord (fields : List (List α)) : List α := [d.comma].intercalate (fields.map d.writeField)

/-- Records, each with a line feed behind it. -/
def writeRecords (records : List (List (List α))) : List α :=
  records.flatMap fun fields => d.writeRecord fields ++ [d.lineFeed]

/-! ### Reading -/

/-- A letter outside of quotes that ends a field. -/
def separate (s : ReadState α) (c : α) : Option (ReadState α) :=
  if c = d.comma then some s.endField
  else if c = d.lineFeed then some s.endRecord
  else if c = d.carriageReturn then some { s with mode := .carriageReturn }
  else none

/-- Reads a letter, if the text can go on with it. -/
def step (s : ReadState α) (c : α) : Option (ReadState α) :=
  match s.mode with
  | .start => if c = d.quote then some { s with mode := .quoted } else (d.separate s c).or (some (s.push c .plain))
  | .plain => if c = d.quote then none else (d.separate s c).or (some (s.push c .plain))
  | .quoted => some (if c = d.quote then { s with mode := .quote } else s.push c .quoted)
  | .quote => if c = d.quote then some (s.push c .quoted) else d.separate s c
  | .carriageReturn => if c = d.lineFeed then some s.endRecord else none

/-- The records of a text, if it is well formed. -/
def read (text : List α) : Option (List (List (List α))) := (text.foldlM d.step {}).bind ReadState.finish

/-! ### What is written is read back -/

variable {d}

omit [DecidableEq α] in
theorem comma_ne_quote : d.comma ≠ d.quote := fun h => by simpa [h] using d.nodup

omit [DecidableEq α] in
theorem lineFeed_ne_quote : d.lineFeed ≠ d.quote := fun h => by simpa [h] using d.nodup

omit [DecidableEq α] in
theorem lineFeed_ne_comma : d.lineFeed ≠ d.comma := fun h => by simpa [h] using d.nodup

theorem foldlM_append {s t : ReadState α} {l : List α} (h : l.foldlM d.step s = some t) (l' : List α) :
    (l ++ l').foldlM d.step s = l'.foldlM d.step t := by
  rw [List.foldlM_append, h]
  rfl

/-- A field may end in this mode. -/
def Closed (mode : ReadMode) : Prop := mode = .start ∨ mode = .plain ∨ mode = .quote

theorem step_comma {s : ReadState α} (h : Closed s.mode) : d.step s d.comma = some s.endField := by
  rcases h with h | h | h <;> simp [step, separate, h, comma_ne_quote]

theorem step_lineFeed {s : ReadState α} (h : Closed s.mode) : d.step s d.lineFeed = some s.endRecord := by
  rcases h with h | h | h <;> simp [step, separate, h, lineFeed_ne_quote, lineFeed_ne_comma]

/-- A text without letters with a meaning is a plain field. -/
theorem foldlM_plain {s : ReadState α} (h : s.mode = .start ∨ s.mode = .plain) {text : List α}
    (hplain : text.any d.special = false) :
    ∃ mode, (mode = .start ∨ mode = .plain) ∧
      text.foldlM d.step s = some { s with text := s.text ++ text, mode := mode } := by
  induction text generalizing s with
  | nil => exact ⟨s.mode, h, by simp⟩
  | cons c text ih =>
    rw [List.any_cons, Bool.or_eq_false_iff] at hplain
    have hstep : d.step s c = some (s.push c .plain) := by
      have hc := hplain.1
      simp only [special, Bool.or_eq_false_iff, decide_eq_false_iff_not] at hc
      rcases h with h | h <;> simp [step, separate, h, hc]
    obtain ⟨mode, hmode, hrun⟩ := ih (s := s.push c .plain) (.inr rfl) hplain.2
    refine ⟨mode, hmode, ?_⟩
    rw [List.foldlM_cons, hstep]
    simpa [ReadState.push] using hrun

/-- Doubled quotes are those of the field. -/
theorem foldlM_doubled {s : ReadState α} (h : s.mode = .quoted) (text : List α) :
    (d.doubled text).foldlM d.step s = some { s with text := s.text ++ text } := by
  induction text generalizing s with
  | nil => simp [doubled]
  | cons c text ih =>
    have hrun := ih (s := s.push c .quoted) rfl
    have hfirst : (if c = d.quote then [d.quote, d.quote] else [c]).foldlM d.step s =
        some (s.push c .quoted) := by
      split_ifs with hc
      · simp [step, h, hc, ReadState.push]
      · simp [step, h, hc]
    rw [doubled, List.flatMap_cons]
    refine (foldlM_append hfirst _).trans (hrun.trans ?_)
    simp [ReadState.push, h]

/-- A written field is read. -/
theorem foldlM_writeField {s : ReadState α} (hmode : s.mode = .start) (htext : s.text = []) (text : List α) :
    ∃ mode, Closed mode ∧ (d.writeField text).foldlM d.step s = some { s with text := text, mode := mode } := by
  unfold writeField
  split_ifs with hspecial
  · refine ⟨.quote, .inr (.inr rfl), ?_⟩
    have hopen : d.step s d.quote = some { s with mode := .quoted } := by simp [step, hmode]
    rw [List.foldlM_cons, hopen]
    refine (foldlM_append (foldlM_doubled rfl text) _).trans ?_
    simp [step, htext]
  · obtain ⟨mode, h, hrun⟩ := foldlM_plain (.inl hmode) (Bool.eq_false_iff.mpr hspecial)
    refine ⟨mode, h.imp_right .inl, ?_⟩
    rw [hrun, htext, List.nil_append]

/-- A record without fields is read as one with an empty field. -/
def asRead (fields : List (List α)) : List (List α) := if fields.isEmpty then [[]] else fields

/-- A written record is read. -/
theorem foldlM_writeRecord {s : ReadState α} (hmode : s.mode = .start) (htext : s.text = [])
    (fields : List (List α)) :
    (d.writeRecord fields ++ [d.lineFeed]).foldlM d.step s =
      some { records := s.records ++ [s.fields ++ asRead fields] } := by
  induction fields generalizing s with
  | nil =>
    have hend : d.step s d.lineFeed = some s.endRecord := step_lineFeed (.inl hmode)
    simp [writeRecord, hend, ReadState.endRecord, htext, asRead]
  | cons text fields ih =>
    obtain ⟨mode, hclosed, hrun⟩ := foldlM_writeField (d := d) hmode htext text
    cases fields with
    | nil =>
      have hend : d.step { s with text := text, mode := mode } d.lineFeed = some _ := step_lineFeed hclosed
      simp only [writeRecord, List.map_cons, List.map_nil, List.intercalate_singleton]
      refine (foldlM_append hrun _).trans ?_
      simp [hend, ReadState.endRecord, asRead]
    | cons text' fields =>
      have hcomma : d.step { s with text := text, mode := mode } d.comma = some _ := step_comma hclosed
      have hrest := ih (s := { s with fields := s.fields ++ [text], text := [], mode := .start }) rfl rfl
      have hsplit : d.writeRecord (text :: text' :: fields) ++ [d.lineFeed] =
          d.writeField text ++ d.comma :: (d.writeRecord (text' :: fields) ++ [d.lineFeed]) := by
        simp [writeRecord, List.intercalate_cons_cons]
      rw [hsplit]
      refine (foldlM_append hrun _).trans ?_
      rw [List.foldlM_cons, hcomma]
      refine Eq.trans hrest ?_
      simp [asRead]

/-- Written records are read back. -/
theorem read_writeRecords (records : List (List (List α))) :
    d.read (d.writeRecords records) = some (records.map asRead) := by
  have hrun : ∀ s : ReadState α, s.mode = .start → s.text = [] → s.fields = [] →
      (d.writeRecords records).foldlM d.step s = some { records := s.records ++ records.map asRead } := by
    induction records with
    | nil =>
      rintro ⟨records, fields, text, mode⟩ rfl rfl rfl
      simp [writeRecords]
    | cons fields records ih =>
      intro s hmode htext hfields
      rw [writeRecords, List.flatMap_cons]
      refine (foldlM_append (foldlM_writeRecord hmode htext fields) _).trans ?_
      refine (ih _ rfl rfl rfl).trans ?_
      simp [hfields]
  rw [read, hrun {} rfl rfl rfl]
  simp [ReadState.finish]

end Delimiters

end PandaPay
