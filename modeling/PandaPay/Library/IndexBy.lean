import PandaPay.Library.Checked
import PandaPay.Library.InsertionMap

/-!
# Maps from lists

The map that assigning the elements of a list one after the other builds: the last element of a key
wins. Where elements of one key agree, the order of the list does not matter.

## Main definitions

* `indexBy key val l`: the map from `key a` to `val a` of the elements of a list

## Main results

* `get?_indexBy`: a lookup finds the last element with the key
* `entries_indexBy`: distinct keys are listed in the order of the list
* `get?_indexBy_perm`: lookups do not depend on the order where the values of a key agree
* `entries_of_foldlM_set`: a loop that fails on a key it has seen lists the elements in their order
-/

namespace PandaPay

universe u v w

variable {α : Type u} {κ : Type v} {ν : Type w} [DecidableEq κ] {key : α → κ} {val : α → ν} {l : List α}

/-- The map from `key a` to `val a` of the elements of a list, where later elements replace earlier
ones of the same key. -/
def indexBy (key : α → κ) (val : α → ν) (l : List α) : InsertionMap κ ν :=
  l.foldl (fun m a => m.set (key a) (val a)) .empty

theorem indexBy_append_singleton (l : List α) (a : α) :
    indexBy key val (l ++ [a]) = (indexBy key val l).set (key a) (val a) := by
  rw [indexBy, List.foldl_append]
  rfl

/-- A lookup finds the last element with the key. -/
theorem get?_indexBy (k : κ) :
    (indexBy key val l).get? k = (l.filter fun a => key a = k).getLast?.map val := by
  induction l using List.reverseRecOn with
  | nil => rfl
  | append_singleton l a ih =>
    rw [indexBy_append_singleton, InsertionMap.get?_set, List.filter_append]
    by_cases hk : k = key a
    · simp [hk]
    · simp [hk, Ne.symm hk, ih]

theorem exists_of_get?_indexBy {k : κ} {v : ν} (h : (indexBy key val l).get? k = some v) :
    ∃ a ∈ l, key a = k ∧ val a = v := by
  rw [get?_indexBy, Option.map_eq_some_iff] at h
  obtain ⟨a, ha, rfl⟩ := h
  obtain ⟨hmem, hkey⟩ := List.mem_filter.mp (List.mem_of_getLast? ha)
  exact ⟨a, hmem, by simpa using hkey, rfl⟩

theorem get?_indexBy_eq_none_iff {k : κ} :
    (indexBy key val l).get? k = none ↔ ∀ a ∈ l, key a ≠ k := by
  rw [get?_indexBy, Option.map_eq_none_iff, List.getLast?_eq_none_iff, List.filter_eq_nil_iff]
  simp

/-- The values of a map are those of the elements that the map to them holds. -/
theorem get?_indexBy_eq_map (k : κ) :
    (indexBy key val l).get? k = ((indexBy key id l).get? k).map val := by
  rw [get?_indexBy, get?_indexBy, Option.map_id, id]

variable (key) in
theorem key_of_get?_indexBy {k : κ} {a : α} (h : (indexBy key id l).get? k = some a) : key a = k := by
  obtain ⟨b, -, hkey, rfl⟩ := exists_of_get?_indexBy h
  exact hkey

/-- A lookup finds the value that all elements with the key have. -/
theorem get?_indexBy_of_mem {a : α} (ha : a ∈ l)
    (hagree : ∀ b ∈ l, key b = key a → val b = val a) :
    (indexBy key val l).get? (key a) = some (val a) := by
  cases h : (indexBy key val l).get? (key a) with
  | none => exact absurd rfl (get?_indexBy_eq_none_iff.mp h a ha)
  | some v =>
    obtain ⟨b, hb, hkey, rfl⟩ := exists_of_get?_indexBy h
    rw [hagree b hb hkey]

/-- Lookups do not depend on the order of the list where the values of a key agree. -/
theorem get?_indexBy_perm {l' : List α} (hperm : l.Perm l')
    (hagree : ∀ a ∈ l, ∀ b ∈ l, key a = key b → val a = val b) (k : κ) :
    (indexBy key val l).get? k = (indexBy key val l').get? k := by
  cases h : (indexBy key val l).get? k with
  | none =>
    refine Eq.symm (get?_indexBy_eq_none_iff.mpr fun a ha => ?_)
    exact get?_indexBy_eq_none_iff.mp h a (hperm.mem_iff.mpr ha)
  | some v =>
    obtain ⟨a, ha, rfl, rfl⟩ := exists_of_get?_indexBy h
    refine Eq.symm (get?_indexBy_of_mem (hperm.mem_iff.mp ha) fun b hb hkey => ?_)
    exact hagree b (hperm.mem_iff.mpr hb) a ha hkey

/-- Distinct keys are listed in the order of the list. -/
theorem entries_indexBy (h : (l.map key).Nodup) :
    (indexBy key val l).entries = l.map fun a => (key a, val a) := by
  induction l using List.reverseRecOn with
  | nil => rfl
  | append_singleton l a ih =>
    rw [List.map_append, List.nodup_append'] at h
    obtain ⟨hl, -, hdisjoint⟩ := h
    have hnew : key a ∉ (indexBy key val l).keys := by
      rw [InsertionMap.keys, ih hl, List.map_map]
      exact fun hmem => hdisjoint hmem (by simp)
    rw [indexBy_append_singleton, InsertionMap.entries_set_of_notMem _ hnew, ih hl, List.map_append]
    rfl

/-- The values are those of the keys, in their order. -/
theorem values_eq_filterMap_keys (m : InsertionMap κ ν) : m.values = m.keys.filterMap m.get? := by
  rw [InsertionMap.values, InsertionMap.keys, List.filterMap_map]
  have hget : ∀ e ∈ m.entries, (m.get? ∘ Prod.fst) e = some e.2 := fun e he =>
    InsertionMap.get?_eq_some_iff.mpr he
  rw [List.filterMap_congr hget, List.filterMap_eq_map']

theorem values_indexBy (h : (l.map key).Nodup) : (indexBy key val l).values = l.map val := by
  rw [InsertionMap.values, entries_indexBy h, List.map_map]
  rfl

/-- A loop that fails on a key it has seen lists the elements in their order. -/
theorem entries_of_foldlM_set {ε : Type u} {α κ ν : Type v} [DecidableEq κ] (key : α → κ) (val : α → ν)
    {body : InsertionMap κ ν → α → Except ε (InsertionMap κ ν)} {l : List α}
    (hstep : ∀ m a m', a ∈ l → body m a = .ok m' → key a ∉ m.keys ∧ m' = m.set (key a) (val a))
    {m m' : InsertionMap κ ν} (h : l.foldlM body m = .ok m') :
    m'.entries = m.entries ++ l.map fun a => (key a, val a) := by
  induction l generalizing m with
  | nil =>
    rw [List.foldlM_nil, pure_eq_ok, Except.ok.injEq] at h
    rw [← h, List.map_nil, List.append_nil]
  | cons a l ih =>
    rw [List.foldlM_cons, bind_eq_ok] at h
    obtain ⟨next, hnext, h⟩ := h
    obtain ⟨hnew, rfl⟩ := hstep m a next List.mem_cons_self hnext
    rw [ih (fun m b m' hb => hstep m b m' (List.mem_cons_of_mem _ hb)) h,
      InsertionMap.entries_set_of_notMem _ hnew, List.append_assoc, List.singleton_append, List.map_cons]

end PandaPay
