import PandaPay.Json.RoundTrip
import PandaPay.PortableBackup.Contract

/-!
# The canonical form of a record

The canonical text of a record is read back as its canonical form, and the canonical form has the
same canonical text: whoever reads an exported record and prints it again gets the bytes that were
exported.

## Main definitions

* `canonical`: what the canonical text of a value is read back as

## Main results

* `parse_canonicalJson`: reading the canonical text
* `canonicalJson_canonical`: printing what was read
* `fieldOf_canonical`: the fields of what was read
-/

namespace PandaPay.PortableBackup

open Json

/-! ### Objects -/

theorem ownOrder_map {V W : Type} (g : V → W) (fields : List (JsString × V)) :
    ownOrder (fields.map fun f => (f.1, g f.2)) = (ownOrder fields).map fun f => (f.1, g f.2) := by
  unfold ownOrder
  rw [List.map_append, List.filter_map, List.filter_map]
  congr 1
  exact (List.map_insertionSort (fun a b : JsString × V => unsignedValue a.1 ≤ unsignedValue b.1)
    (fun a b : JsString × W => unsignedValue a.1 ≤ unsignedValue b.1) (fun f => (f.1, g f.2)) _
    fun _ _ _ _ => Iff.rfl).symm

/-- The fields of a canonical object, in the order they are added. -/
def addedFields (fields : List (JsString × Json)) : List (JsString × Json) :=
  (sortFields fields).filter fun f => !isDropped f.1

theorem addedFields_subset {fields : List (JsString × Json)} {f : JsString × Json}
    (h : f ∈ ownOrder (addedFields fields)) : f ∈ fields :=
  (perm_sortFields fields).subset (List.mem_filter.mp ((perm_ownOrder _).subset h)).1

theorem nodup_addedFields {fields : List (JsString × Json)} (h : (fields.map Prod.fst).Nodup) :
    ((addedFields fields).map Prod.fst).Nodup :=
  (((perm_sortFields fields).map Prod.fst).nodup_iff.mpr h).sublist
    (List.filter_sublist.map Prod.fst)

/-- The fields of a canonical object are added in this order again. -/
theorem addedFields_ownOrder {fields : List (JsString × Json)}
    (h : (fields.map Prod.fst).Nodup) (g : Json → Json) :
    addedFields ((ownOrder (addedFields fields)).map fun f => (f.1, g f.2)) =
      (addedFields fields).map fun f => (f.1, g f.2) := by
  have hsorted : sortFields (addedFields fields) = addedFields fields :=
    ((List.pairwise_insertionSort _ _).filter _).insertionSort_eq
  have hkept : (addedFields fields).filter (fun f => !isDropped f.1) = addedFields fields :=
    List.filter_eq_self.mpr fun f hf => (List.mem_filter.mp hf).2
  have horder : sortFields (ownOrder (addedFields fields)) = addedFields fields := by
    rw [← hsorted]
    refine (sortFields_eq_of_perm ?_ ?_)
    · rw [hsorted]
      exact perm_ownOrder _
    · rw [hsorted]
      exact ((perm_ownOrder _).map Prod.fst).nodup_iff.mpr (nodup_addedFields h)
  rw [addedFields, sortFields_map, horder, List.filter_map]
  exact congrArg (List.map _) hkept

theorem canonicalize_arr {fieldName : JsString} (h : isDecimalField fieldName = false)
    (items : List Json) :
    canonicalize fieldName (.arr items) = .arr (items.map (canonicalize fieldName)) := by
  rw [canonicalize, h, canonicalizeItems_eq]
  rfl

theorem canonicalize_obj {fieldName : JsString} (h : isDecimalField fieldName = false)
    (fields : List (JsString × Json)) : canonicalize fieldName (.obj fields) =
      .obj (ownOrder (addedFields (fields.map fun f => (f.1, canonicalize f.1 f.2)))) := by
  rw [canonicalize, h, canonicalizeFields_eq]
  rfl

/-! ### Reading and printing -/

theorem readable_decimalString {value : Json} (h : Readable value) :
    Readable (decimalString value) := by
  unfold decimalString
  split
  · exact .str _
  · exact h

/-- The canonical form of a value is one that is read back. -/
theorem readable_canonicalize {value : Json} (h : Readable value) (fieldName : JsString) :
    Readable (canonicalize fieldName value) := by
  induction h generalizing fieldName with
  | null => exact .null
  | bool b => exact .bool b
  | num n hn =>
    rw [canonicalize]
    split
    · exact readable_decimalString (.num n hn)
    · exact .num n hn
  | str s => exact .str s
  | arr items hitems ih =>
    cases hdecimal : isDecimalField fieldName with
    | true =>
      rw [canonicalize, hdecimal]
      exact .arr items hitems
    | false =>
      rw [canonicalize_arr hdecimal]
      refine .arr _ fun item hitem => ?_
      obtain ⟨i, hi, rfl⟩ := List.mem_map.mp hitem
      exact ih i hi fieldName
  | obj fields hnodup hfields ih =>
    cases hdecimal : isDecimalField fieldName with
    | true =>
      rw [canonicalize, hdecimal]
      exact .obj fields hnodup hfields
    | false =>
      have hkeys : ((fields.map fun f => (f.1, canonicalize f.1 f.2)).map Prod.fst).Nodup := by
        rwa [List.map_map]
      rw [canonicalize_obj hdecimal]
      refine .obj _ (((perm_ownOrder _).map Prod.fst).nodup_iff.mpr (nodup_addedFields hkeys)) ?_
      intro f hf
      obtain ⟨g, hg, rfl⟩ := List.mem_map.mp (addedFields_subset hf)
      exact ih g hg g.1

/-- A canonical form that was printed and read is canonical. -/
theorem canonicalize_printed {value : Json} (h : Readable value) (fieldName : JsString) :
    canonicalize fieldName (printed (canonicalize fieldName value)) =
      printed (canonicalize fieldName value) := by
  induction h generalizing fieldName with
  | null => rfl
  | bool b => rfl
  | num n hn =>
    rw [canonicalize]
    split
    · rfl
    · rename_i hdecimal
      rw [printed, canonicalize, if_neg hdecimal]
  | str s => rfl
  | arr items hitems ih =>
    cases hdecimal : isDecimalField fieldName with
    | true =>
      have hraw : canonicalize fieldName (.arr items) = .arr items := by
        rw [canonicalize, hdecimal]
        rfl
      rw [hraw, printed_arr, canonicalize, hdecimal]
      rfl
    | false =>
      rw [canonicalize_arr hdecimal, printed_arr, canonicalize_arr hdecimal]
      simp only [List.map_map]
      exact congrArg Json.arr (List.map_congr_left fun item hitem => ih item hitem fieldName)
  | obj fields hnodup hfields ih =>
    cases hdecimal : isDecimalField fieldName with
    | true =>
      have hraw : canonicalize fieldName (.obj fields) = .obj fields := by
        rw [canonicalize, hdecimal]
        rfl
      rw [hraw, printed_obj, canonicalize, hdecimal]
      rfl
    | false =>
      have hkeys : ((fields.map fun f => (f.1, canonicalize f.1 f.2)).map Prod.fst).Nodup := by
        rwa [List.map_map]
      -- the values are canonical, so only the order of the fields is left
      have hvalues : ∀ f ∈ ownOrder (addedFields (fields.map fun f => (f.1, canonicalize f.1 f.2))),
          canonicalize f.1 (printed f.2) = printed f.2 := by
        intro f hf
        obtain ⟨g, hg, rfl⟩ := List.mem_map.mp (addedFields_subset hf)
        exact ih g hg g.1
      rw [canonicalize_obj hdecimal, printed_obj, canonicalize_obj hdecimal, List.map_map]
      have hmap : (ownOrder (addedFields (fields.map fun f => (f.1, canonicalize f.1 f.2)))).map
            ((fun f => (f.1, canonicalize f.1 f.2)) ∘ fun f => (f.1, printed f.2)) =
          (ownOrder (addedFields (fields.map fun f => (f.1, canonicalize f.1 f.2)))).map
            fun f => (f.1, printed f.2) :=
        List.map_congr_left fun f hf => congrArg (Prod.mk f.1) (hvalues f hf)
      rw [hmap, addedFields_ownOrder hkeys, ownOrder_map]

/-- What the canonical text of a value is read back as. -/
def canonical (value : Json) : Json := printed (canonicalize [] value)

/-- The canonical text is read back as the canonical form. -/
theorem parse_canonicalJson {value : Json} (h : Readable value) :
    parse (canonicalJson value) = some (canonical value) :=
  parse_stringify (readable_canonicalize h [])

/-- The canonical form has the same canonical text. -/
theorem canonicalJson_canonical {value : Json} (h : Readable value) :
    canonicalJson (canonical value) = canonicalJson value := by
  rw [canonicalJson, canonical, canonicalize_printed h, stringify_printed, canonicalJson]

/-! ### Fields -/

theorem fieldOf_map (g : JsString → Json → Json) (key : JsString)
    (fields : List (JsString × Json)) :
    fieldOf key (fields.map fun f => (f.1, g f.1 f.2)) = (fieldOf key fields).map (g key) := by
  induction fields with
  | nil => rfl
  | cons f fields ih =>
    by_cases hkey : f.1 = key
    · rw [List.map_cons, fieldOf, fieldOf, if_pos hkey, if_pos hkey, ← hkey]
      rfl
    · rw [List.map_cons, fieldOf, fieldOf, if_neg hkey, if_neg hkey, ih]

theorem fieldOf_filter {key : JsString} {p : JsString × Json → Bool}
    {fields : List (JsString × Json)} (h : ∀ v, p (key, v) = true) :
    fieldOf key (fields.filter p) = fieldOf key fields := by
  induction fields with
  | nil => rfl
  | cons f fields ih =>
    by_cases hkey : f.1 = key
    · have hp : p f = true := by rw [← Prod.mk.eta (p := f), hkey]; exact h f.2
      rw [List.filter_cons, if_pos hp, fieldOf, fieldOf, if_pos hkey, if_pos hkey]
    · by_cases hp : p f = true
      · rw [List.filter_cons, if_pos hp, fieldOf, fieldOf, if_neg hkey, if_neg hkey, ih]
      · rw [List.filter_cons, if_neg hp, fieldOf, if_neg hkey, ih]

theorem fieldOf_eq_some {key : JsString} {fields : List (JsString × Json)} {v : Json}
    (hnodup : (fields.map Prod.fst).Nodup) : fieldOf key fields = some v ↔ (key, v) ∈ fields := by
  induction fields with
  | nil => simp [fieldOf]
  | cons f fields ih =>
    rw [List.map_cons, List.nodup_cons] at hnodup
    rw [fieldOf, List.mem_cons]
    split
    · rename_i hkey
      subst hkey
      have hrest : (f.1, v) ∉ fields := fun hmem => hnodup.1 (List.mem_map.mpr ⟨_, hmem, rfl⟩)
      simp only [hrest, or_false, Option.some.injEq, Prod.ext_iff, true_and]
      exact eq_comm
    · rename_i hkey
      rw [ih hnodup.2]
      refine ⟨.inr, fun h => h.resolve_left fun heq => hkey ?_⟩
      rw [← heq]

/-- Distinct keys: the order of the fields does not matter. -/
theorem fieldOf_perm {key : JsString} {fields fields' : List (JsString × Json)}
    (h : fields.Perm fields') (hnodup : (fields.map Prod.fst).Nodup) :
    fieldOf key fields = fieldOf key fields' := by
  refine Option.ext fun v => ?_
  rw [fieldOf_eq_some hnodup, fieldOf_eq_some ((h.map Prod.fst).nodup_iff.mp hnodup), h.mem_iff]

/-- The fields of an object in canonical form. -/
theorem fieldOf_canonical {fields : List (JsString × Json)} (hnodup : (fields.map Prod.fst).Nodup)
    {key : JsString} (hkey : isDropped key = false) :
    ∃ fields', canonical (.obj fields) = .obj fields' ∧
      fieldOf key fields' = (fieldOf key fields).map fun v => printed (canonicalize key v) := by
  have hkeys : ((fields.map fun f => (f.1, canonicalize f.1 f.2)).map Prod.fst).Nodup := by
    rwa [List.map_map]
  refine ⟨_, by rw [canonical, canonicalize_obj rfl, printed_obj], ?_⟩
  rw [fieldOf_map fun _ v => printed v]
  have hown := @fieldOf_perm key _ _ (perm_ownOrder _).symm (nodup_addedFields hkeys)
  rw [← hown, addedFields, fieldOf_filter fun _ => by simp [hkey],
    ← fieldOf_perm (perm_sortFields _).symm hkeys, fieldOf_map, Option.map_map]
  rfl

end PandaPay.PortableBackup
