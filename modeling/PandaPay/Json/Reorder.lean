import PandaPay.Json.Text

/-!
# Equality up to the order of object keys

Two values are the same to a reader of JSON when they differ only in the order of the keys of
their objects. The canonical text is the same for two values exactly when they are.

## Main definitions

* `Json.Distinct`: a value whose objects have distinct keys, as every object has
* `Json.Reorder`: equality up to the order of object keys, at any depth

## Main results

* `Json.reorder_sortKeys`: sorting the keys only reorders
* `Json.textOf_eq_iff`: canonical texts are equal exactly when the values are up to key order
-/

namespace PandaPay.Json

/-- A value whose objects have distinct keys. -/
inductive Distinct : Json → Prop
  | null : Distinct .null
  | bool (b : Bool) : Distinct (.bool b)
  | num (n : JsonNumber) : Distinct (.num n)
  | str (s : JsString) : Distinct (.str s)
  | arr (items : List Json) : (∀ item ∈ items, Distinct item) → Distinct (.arr items)
  | obj (fields : List (JsString × Json)) : (fields.map Prod.fst).Nodup →
      (∀ f ∈ fields, Distinct f.2) → Distinct (.obj fields)

/-- Equality up to the order of object keys: the fields of any object inside a value may be
permuted. -/
inductive Reorder : Json → Json → Prop
  | refl (v : Json) : Reorder v v
  | symm {v w : Json} : Reorder v w → Reorder w v
  | trans {u v w : Json} : Reorder u v → Reorder v w → Reorder u w
  | perm {fs gs : List (JsString × Json)} : fs.Perm gs → Reorder (.obj fs) (.obj gs)
  | item (before after : List Json) {v w : Json} : Reorder v w →
      Reorder (.arr (before ++ v :: after)) (.arr (before ++ w :: after))
  | field (before after : List (JsString × Json)) (key : JsString) {v w : Json} : Reorder v w →
      Reorder (.obj (before ++ (key, v) :: after)) (.obj (before ++ (key, w) :: after))

/-! ### Sorting the keys reorders -/

theorem Reorder.arr_map {g : Json → Json} {items : List Json}
    (h : ∀ item ∈ items, Reorder item (g item)) : Reorder (.arr items) (.arr (items.map g)) := by
  have hprefix : ∀ before, Reorder (.arr (before ++ items)) (.arr (before ++ items.map g)) := by
    induction items with
    | nil => intro before; exact .refl _
    | cons item items ih =>
      intro before
      have hrest := ih (fun v hv => h v (List.mem_cons_of_mem _ hv)) (before ++ [g item])
      rw [List.append_assoc, List.append_assoc] at hrest
      exact (Reorder.item before items (h item List.mem_cons_self)).trans hrest
  exact hprefix []

theorem Reorder.obj_map {g : Json → Json} {fields : List (JsString × Json)}
    (h : ∀ f ∈ fields, Reorder f.2 (g f.2)) :
    Reorder (.obj fields) (.obj (fields.map fun f => (f.1, g f.2))) := by
  have hprefix : ∀ before, Reorder (.obj (before ++ fields))
      (.obj (before ++ fields.map fun f => (f.1, g f.2))) := by
    induction fields with
    | nil => intro before; exact .refl _
    | cons f fields ih =>
      intro before
      have hrest := ih (fun v hv => h v (List.mem_cons_of_mem _ hv)) (before ++ [(f.1, g f.2)])
      rw [List.append_assoc, List.append_assoc] at hrest
      exact (Reorder.field before fields f.1 (h f List.mem_cons_self)).trans hrest
  exact hprefix []

theorem reorder_sortKeys (levels : ℕ) (value : Json) : Reorder value (sortKeys levels value) := by
  induction levels generalizing value with
  | zero => exact .refl _
  | succ levels ih =>
    cases value with
    | arr items => exact .arr_map fun item _ => ih item
    | obj fields =>
      have hperm : Reorder (.obj fields) (.obj (sortFields fields)) :=
        .perm (perm_sortFields fields).symm
      exact hperm.trans (.obj_map fun f _ => ih f.2)
    | _ => exact .refl _

/-! ### Reordered values have one sorted form -/

/-- Distinct keys can be sorted in one way only. -/
theorem sortFields_eq_of_perm {V : Type} {fs gs : List (JsString × V)} (h : fs.Perm gs)
    (hnodup : (fs.map Prod.fst).Nodup) : sortFields fs = sortFields gs := by
  have hperm : (sortFields fs).Perm (sortFields gs) :=
    (perm_sortFields fs).trans (h.trans (perm_sortFields gs).symm)
  refine hperm.eq_of_pairwise ?_ (List.pairwise_insertionSort _ _) (List.pairwise_insertionSort _ _)
  intro a b ha hb hab hba
  have hkey : a.1 = b.1 := le_antisymm hab hba
  have ha' := (perm_sortFields fs).subset ha
  have hb' := (perm_sortFields fs).subset (hperm.symm.subset hb)
  exact List.inj_on_of_nodup_map hnodup ha' hb' hkey

theorem sortFields_map {V W : Type} (g : V → W) (fields : List (JsString × V)) :
    sortFields (fields.map fun f => (f.1, g f.2)) =
      (sortFields fields).map fun f => (f.1, g f.2) :=
  (List.map_insertionSort (fun a b : JsString × V => a.1 ≤ b.1)
    (fun a b : JsString × W => a.1 ≤ b.1) (fun f => (f.1, g f.2)) fields fun _ _ _ _ => Iff.rfl).symm

/-- Reordering keeps a value plain, and changes nothing once the keys are sorted. -/
theorem Reorder.sortKeys_eq {v w : Json} (h : Reorder v w) (levels : ℕ) :
    (Plain levels v ↔ Plain levels w) ∧
      (Plain levels v → sortKeys levels v = sortKeys levels w) := by
  induction h generalizing levels with
  | refl v => exact ⟨Iff.rfl, fun _ => rfl⟩
  | symm _ ih => exact ⟨(ih levels).1.symm, fun hw => ((ih levels).2 ((ih levels).1.mpr hw)).symm⟩
  | trans _ _ ih₁ ih₂ =>
    refine ⟨(ih₁ levels).1.trans (ih₂ levels).1, fun hu => ?_⟩
    exact ((ih₁ levels).2 hu).trans ((ih₂ levels).2 ((ih₁ levels).1.mp hu))
  | perm hperm =>
    cases levels with
    | zero => exact ⟨Iff.rfl, fun h => h.elim⟩
    | succ levels =>
      refine ⟨and_congr (hperm.map Prod.fst).nodup_iff ?_, fun hv => ?_⟩
      · exact forall_congr' fun f => by rw [hperm.mem_iff]
      · rw [sortKeys, sortKeys, sortFields_eq_of_perm hperm hv.1]
  | item before after _ ih =>
    cases levels with
    | zero => exact ⟨Iff.rfl, fun h => h.elim⟩
    | succ levels =>
      have hplain := (ih levels).1
      refine ⟨?_, fun hv => ?_⟩
      · simp only [Plain, List.forall_mem_append, List.forall_mem_cons, hplain]
      · have hitem := (ih levels).2 (hv _ (by simp))
        simp only [sortKeys, List.map_append, List.map_cons, hitem]
  | field before after key _ ih =>
    cases levels with
    | zero => exact ⟨Iff.rfl, fun h => h.elim⟩
    | succ levels =>
      have hplain := (ih levels).1
      refine ⟨?_, fun hv => ?_⟩
      · simp only [Plain, List.map_append, List.map_cons, List.forall_mem_append,
          List.forall_mem_cons, hplain]
      · have hvalue := (ih levels).2 (hv.2 _ (List.mem_append_right _ List.mem_cons_self))
        rw [sortKeys, sortKeys, ← sortFields_map, ← sortFields_map]
        simp only [List.map_append, List.map_cons, hvalue]

/-! ### Canonical texts -/

theorem sortFields_sortFields {V : Type} (fields : List (JsString × V)) :
    sortFields (sortFields fields) = sortFields fields :=
  (List.pairwise_insertionSort _ _).insertionSort_eq

/-- The keys of a sorted value are in order already. -/
theorem sortFields_sortKeys (levels : ℕ) (fields : List (JsString × Json)) :
    sortFields ((sortFields fields).map fun f => (f.1, sortKeys levels f.2)) =
      (sortFields fields).map fun f => (f.1, sortKeys levels f.2) := by
  rw [sortFields_map, sortFields_sortFields]

theorem textOf_sortKeys (levels : ℕ) (value : Json) :
    textOf levels (sortKeys levels value) = textOf levels value := by
  induction levels generalizing value with
  | zero => rfl
  | succ levels ih =>
    cases value with
    | arr items => simp [sortKeys, textOf, ih, Function.comp_def]
    | obj fields => simp [sortKeys, textOf, sortFields_sortKeys, ih, Function.comp_def]
    | num n => cases n <;> rfl
    | _ => rfl

/-- Canonical texts are equal exactly when the values are, up to the order of object keys. -/
theorem textOf_eq_iff {levels : ℕ} {v w : Json} (hv : Plain levels v) (hw : Plain levels w) :
    textOf levels v = textOf levels w ↔ Reorder v w := by
  constructor
  · intro h
    have hsorted : sortKeys levels v = sortKeys levels w := by
      have := parse_textOf hv
      rw [h, parse_textOf hw] at this
      exact (Option.some_inj.mp this).symm
    exact ((reorder_sortKeys levels v).trans (hsorted ▸ .refl _)).trans
      (reorder_sortKeys levels w).symm
  · intro h
    rw [← textOf_sortKeys, (h.sortKeys_eq levels).2 hv, textOf_sortKeys]

end PandaPay.Json
