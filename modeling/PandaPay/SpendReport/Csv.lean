import PandaPay.Json.Value
import PandaPay.Library.SeparatedValues

/-!
# The spend report as comma separated values

The export writes a header and rows of cells. A text that a spreadsheet would take for a formula gets an
apostrophe in front, and what contains a comma, a quote or a line break stands in quotes. How a number is written
is a parameter.

## Main definitions

* `csvField`, `csvRow`, `csvDocument`: the writer
* `readDocument`: a reader of the document
* `shown`: what a cell shows

## Main results

* `csvDocument_read_back`: the document is read as what its cells show, and no field of it starts a formula
-/

namespace PandaPay.SpendReport

variable {ν : Type}

/-- A value of a cell. -/
inductive Cell (ν : Type) where
  | undefined
  | null
  | text (text : JsString)
  | number (number : ν)

/-! ### The writer -/

/-- `/^[=+\-@\t\r]/`. -/
def startsFormula : JsString → Bool
  | [] => false
  | c :: _ => c ∈ js "=+-@\t\r"

/-- `/[",\n\r]/`. -/
def needsQuotes (text : JsString) : Bool := text.any fun c => c ∈ js "\",\n\r"

/-- `String(value)`, of a value that is there. -/
def Cell.string (numberText : ν → JsString) : Cell ν → Option JsString
  | .undefined | .null => none
  | .text s => some s
  | .number n => some (numberText n)

/-- One field, with the guard against formulas. -/
def csvField (numberText : ν → JsString) (value : Cell ν) : JsString :=
  match value.string numberText with
  | none => []
  | some text =>
    let text := if startsFormula text then js "'" ++ text else text
    if needsQuotes text then
      js "\"" ++ text.flatMap (fun c => if c = 34 then js "\"\"" else [c]) ++ js "\""
    else text

/-- One row. -/
def csvRow (numberText : ν → JsString) (values : List (Cell ν)) : JsString :=
  (js ",").intercalate (values.map (csvField numberText))

/-- The byte order mark. -/
def byteOrderMark : CodeUnit := 0xfeff

/-- A whole document. -/
def csvDocument (numberText : ν → JsString) (header : List (Cell ν)) (rows : List (List (Cell ν))) : JsString :=
  let lines := csvRow numberText header :: rows.map (csvRow numberText)
  byteOrderMark :: ((js "\n").intercalate lines ++ js "\n")

/-! ### The reader -/

/-- The letters with a meaning. -/
def csvDelimiters : Delimiters CodeUnit where
  comma := 44
  quote := 34
  lineFeed := 10
  carriageReturn := 13
  nodup := by decide

/-- The records of a document, behind its byte order mark. -/
def readDocument : JsString → Option (List (List JsString))
  | [] => csvDelimiters.read []
  | c :: text => csvDelimiters.read (if c = byteOrderMark then text else c :: text)

/-- What a cell shows: its text, with an apostrophe in front where it would start a formula. -/
def shown (numberText : ν → JsString) (value : Cell ν) : JsString :=
  match value.string numberText with
  | none => []
  | some text => if startsFormula text then js "'" ++ text else text

/-! ### The writer writes what the cells show -/

variable {numberText : ν → JsString}

theorem needsQuotes_eq (text : JsString) : needsQuotes text = text.any csvDelimiters.special := by
  unfold needsQuotes
  congr 1
  funext c
  have hletters : js "\",\n\r" = [34, 44, 10, 13] := by decide
  have hspecial : csvDelimiters.special c = (decide (c = 44) || decide (c = 34) || decide (c = 10) ||
      decide (c = 13)) := rfl
  rw [hletters, hspecial, Bool.eq_iff_iff]
  simp only [List.mem_cons, List.not_mem_nil, or_false, decide_eq_true_eq, Bool.or_eq_true]
  tauto

theorem csvField_eq (value : Cell ν) :
    csvField numberText value = csvDelimiters.writeField (shown numberText value) := by
  have hquote : js "\"" = [34] := by decide
  have hquotes : js "\"\"" = [34, 34] := by decide
  unfold csvField shown
  cases value.string numberText with
  | none => rfl
  | some text =>
    dsimp only
    rw [needsQuotes_eq, hquote, hquotes]
    rfl

theorem csvRow_eq (values : List (Cell ν)) :
    csvRow numberText values = csvDelimiters.writeRecord (values.map (shown numberText)) := by
  have hcomma : js "," = [44] := by decide
  unfold csvRow Delimiters.writeRecord
  rw [hcomma, List.map_map]
  congr 1
  exact List.map_congr_left fun value _ => csvField_eq value

/-- A line feed between the lines and one at the end are one behind each line. -/
theorem intercalate_lineFeed (c : CodeUnit) (line : JsString) (lines : List JsString) :
    [c].intercalate (line :: lines) ++ [c] = (line :: lines).flatMap fun line => line ++ [c] := by
  induction lines generalizing line with
  | nil => simp
  | cons line' lines ih =>
    rw [List.intercalate_cons_cons, List.append_assoc, List.append_assoc, ih line']
    simp

theorem csvDocument_eq (header : List (Cell ν)) (rows : List (List (Cell ν))) :
    csvDocument numberText header rows = byteOrderMark ::
      csvDelimiters.writeRecords ((header :: rows).map fun values => values.map (shown numberText)) := by
  have hfeed : js "\n" = [10] := by decide
  unfold csvDocument Delimiters.writeRecords
  dsimp only
  rw [hfeed, intercalate_lineFeed, List.flatMap_map, ← List.map_cons, List.flatMap_map]
  congr 2
  funext values
  rw [csvRow_eq]
  rfl

theorem startsFormula_shown (value : Cell ν) : startsFormula (shown numberText value) = false := by
  unfold shown
  cases value.string numberText with
  | none => rfl
  | some text =>
    dsimp only
    split_ifs with h
    · have happend : js "'" ++ text = 39 :: text := by
        rw [show js "'" = [39] by decide, List.singleton_append]
      rw [happend]
      show decide ((39 : CodeUnit) ∈ js "=+-@\t\r") = false
      decide
    · exact Bool.eq_false_iff.mpr h

/-! ### The document is read back -/

/-- What a reader is to find of a row: what its cells show, and one empty field where it has none. -/
def record (numberText : ν → JsString) (values : List (Cell ν)) : List JsString :=
  Delimiters.asRead (values.map (shown numberText))

theorem readDocument_csvDocument (header : List (Cell ν)) (rows : List (List (Cell ν))) :
    readDocument (csvDocument numberText header rows) = some ((header :: rows).map (record numberText)) := by
  rw [csvDocument_eq]
  show csvDelimiters.read (if byteOrderMark = byteOrderMark then _ else _) = _
  rw [if_pos rfl, Delimiters.read_writeRecords, List.map_map]
  rfl

theorem length_record (values : List (Cell ν)) : (record numberText values).length = max 1 values.length := by
  unfold record Delimiters.asRead
  cases values with
  | nil => rfl
  | cons value values => simp

theorem startsFormula_record {values : List (Cell ν)} {field : JsString} (h : field ∈ record numberText values) :
    startsFormula field = false := by
  unfold record Delimiters.asRead at h
  split_ifs at h
  · rw [List.mem_singleton.mp h]
    rfl
  · obtain ⟨value, -, rfl⟩ := List.mem_map.mp h
    exact startsFormula_shown value

/-- A reader finds the header and the rows, each cell as it is shown, and a header or a row without cells as one
empty field. No field starts a formula, and neither the number of the rows nor that of the fields of a row
depends on what the cells contain. -/
theorem csvDocument_read_back (numberText : ν → JsString) (header : List (Cell ν)) (rows : List (List (Cell ν))) :
    ∃ records, readDocument (csvDocument numberText header rows) = some records ∧
      records = (header :: rows).map (fun values => if values.isEmpty then [[]] else values.map (shown numberText)) ∧
      (∀ record ∈ records, ∀ field ∈ record, startsFormula field = false) ∧
      records.map List.length = (header :: rows).map fun values => max 1 values.length := by
  refine ⟨_, readDocument_csvDocument header rows, ?_, ?_, ?_⟩
  · refine List.map_congr_left fun values _ => ?_
    simp [record, Delimiters.asRead]
  · intro fields hfields field hfield
    obtain ⟨values, -, rfl⟩ := List.mem_map.mp hfields
    exact startsFormula_record hfield
  · rw [List.map_map]
    exact List.map_congr_left fun values _ => length_record values

/-- A row without cells is written like one with an empty cell: no reader tells them apart. -/
theorem row_without_cells_lost :
    ¬ ∃ read : JsString → Option (List (List JsString)),
      ∀ (header : List (Cell ℕ)) (rows : List (List (Cell ℕ))),
        read (csvDocument (fun n => js (toString n)) header rows) =
          some ((header :: rows).map fun values => values.map (shown fun n => js (toString n))) := by
  rintro ⟨read, h⟩
  have hlost := h [.text (js "Date")] [[]]
  have hempty := h [.text (js "Date")] [[.null]]
  have hsame : csvDocument (fun n : ℕ => js (toString n)) [.text (js "Date")] [[]] =
      csvDocument (fun n : ℕ => js (toString n)) [.text (js "Date")] [[.null]] := by
    simp [csvDocument, csvRow, csvField, Cell.string]
  rw [hsame, hempty] at hlost
  simp [shown, Cell.string] at hlost

end PandaPay.SpendReport
