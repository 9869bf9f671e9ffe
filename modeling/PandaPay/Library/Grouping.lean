import Mathlib.Data.List.Perm.Subperm
import PandaPay.Library.InsertionMap

/-!
# Rows in groups

Loops over rows that file each under a key, and that pass over a row whose key they have seen; a loop over the
groups that changes another map; and the row of a list that has one.

## Main definitions

* `collect key rows`: the rows by key, those without one left out
* `firstBy key rows`: the first row of each key
* `updateAll f m updates`: a map with its values changed by those of another
* `single? rows`: the row of a list of one row

## Main results

* `getD_collect`: the rows of a group are in the order of all
* `flatMap_filter_subperm`: no row is in two groups
* `get?_updateAll`: a value is changed by what the other map has for its key
* `firstBy_perm`: where rows of one key are equal, another order leaves the same ones
-/

namespace PandaPay

universe u v

variable {α : Type u} {κ : Type v} [DecidableEq κ]

section Collect

/-- The rows by key. A row without a key is left out. -/
def collect (key : α → Option κ) (rows : List α) : InsertionMap κ (List α) :=
  rows.foldl (fun m a => (key a).elim m fun k => m.upsert k [] (· ++ [a])) .empty

variable {key : α → Option κ} {rows : List α}

@[simp] theorem collect_nil : collect key [] = .empty := rfl

theorem collect_append_singleton (rows : List α) (a : α) :
    collect key (rows ++ [a]) =
      (key a).elim (collect key rows) fun k => (collect key rows).upsert k [] (· ++ [a]) := by
  rw [collect, List.foldl_append]
  rfl

theorem get?_upsert {m : InsertionMap κ (List α)} {j k : κ} {d : List α} {f : List α → List α} :
    (m.upsert k d f).get? j = if j = k then some (f ((m.get? k).getD d)) else m.get? j :=
  InsertionMap.get?_set _ _ _ _

/-- The rows of a group are in the order of all. -/
theorem getD_collect (k : κ) :
    ((collect key rows).get? k).getD [] = rows.filter fun a => key a = some k := by
  induction rows using List.reverseRecOn with
  | nil => rfl
  | append_singleton rows a ih =>
    rw [collect_append_singleton, List.filter_append]
    cases hkey : key a with
    | none => simp [hkey, ih]
    | some j =>
      rw [Option.elim_some, get?_upsert]
      by_cases hj : k = j
      · subst hj
        simp [hkey, ih]
      · simp [hkey, hj, Ne.symm hj, ih]

theorem flatMap_subperm {β ι : Type*} {f g : ι → List β} (h : ∀ i, (f i).Subperm (g i)) (is : List ι) :
    (is.flatMap f).Subperm (is.flatMap g) := by
  induction is with
  | nil => exact List.nil_subperm
  | cons i is ih => exact (h i).append ih

/-- No row is in two groups. -/
theorem flatMap_filter_subperm (key : α → Option κ) (rows : List α) {keys : List κ} (hkeys : keys.Nodup) :
    (keys.flatMap fun k => rows.filter fun a => key a = some k).Subperm rows := by
  induction keys generalizing rows with
  | nil => exact List.nil_subperm
  | cons k keys ih =>
    obtain ⟨hk, hkeys⟩ := List.nodup_cons.mp hkeys
    -- the other groups are those of the rows outside the first
    have hothers : (keys.flatMap fun j => rows.filter fun a => key a = some j) =
        keys.flatMap fun j => (rows.filter fun a => !decide (key a = some k)).filter
          fun a => key a = some j := by
      refine List.flatMap_congr fun j hj => ?_
      rw [List.filter_filter]
      refine List.filter_congr fun a _ => ?_
      have hjk : j ≠ k := fun h => hk (h ▸ hj)
      by_cases ha : key a = some j
      · simp [ha, hjk]
      · simp [ha]
    rw [List.flatMap_cons, hothers]
    exact ((List.subperm_append_left _).mpr (ih _ hkeys)).trans
      (List.filter_append_perm (fun a => decide (key a = some k)) rows).subperm

/-- The rows of a key among those of several keys. -/
theorem filter_flatMap {β : Type*} (keyOf : β → κ) {f : κ → List β} (hf : ∀ k, ∀ b ∈ f k, keyOf b = k)
    {keys : List κ} (hkeys : keys.Nodup) (k : κ) :
    (keys.flatMap f).filter (fun b => keyOf b = k) = if k ∈ keys then f k else [] := by
  induction keys with
  | nil => rfl
  | cons j keys ih =>
    obtain ⟨hj, hkeys⟩ := List.nodup_cons.mp hkeys
    rw [List.flatMap_cons, List.filter_append, ih hkeys]
    by_cases hk : k = j
    · subst hk
      have hall : (f k).filter (fun b => keyOf b = k) = f k :=
        List.filter_eq_self.mpr fun b hb => decide_eq_true (hf k b hb)
      simp [hall, hj]
    · have hnone : (f j).filter (fun b => keyOf b = k) = [] :=
        List.filter_eq_nil_iff.mpr fun b hb h => hk ((of_decide_eq_true h).symm.trans (hf j b hb))
      simp [hnone, hk]

end Collect

section UpdateAll

variable {ν μ : Type*}

/-- The map with every value changed by what another map has for its key. -/
def updateAll (f : ν → μ → ν) (m : InsertionMap κ ν) (updates : InsertionMap κ μ) : InsertionMap κ ν :=
  updates.entries.foldl (fun m e => (m.get? e.1).elim m fun v => m.set e.1 (f v e.2)) m

/-- A value is changed once, by what the other map has for its key. -/
theorem get?_updateAll (f : ν → μ → ν) (m : InsertionMap κ ν) (updates : InsertionMap κ μ) (k : κ) :
    (updateAll f m updates).get? k =
      (m.get? k).map fun v => (updates.get? k).elim v (f v) := by
  have hfold : ∀ es : List (κ × μ), (es.map Prod.fst).Nodup → ∀ m : InsertionMap κ ν,
      (es.foldl (fun m e => (m.get? e.1).elim m fun v => m.set e.1 (f v e.2)) m).get? k =
        (m.get? k).map fun v => (InsertionMap.lookup k es).elim v (f v) := by
    intro es hnodup
    induction es with
    | nil => intro m; simp [InsertionMap.lookup]
    | cons e es ih =>
      intro m
      obtain ⟨he, hes⟩ := List.nodup_cons.mp hnodup
      rw [List.foldl_cons, ih hes]
      by_cases hk : e.1 = k
      · -- the key does not occur again
        subst hk
        rw [InsertionMap.lookup_eq_none_iff.mpr he]
        cases hget : m.get? e.1 with
        | none => simp [hget]
        | some v => simp [InsertionMap.lookup]
      · have hget : ((m.get? e.1).elim m fun v => m.set e.1 (f v e.2)).get? k = m.get? k := by
          cases m.get? e.1 with
          | none => rfl
          | some v => exact InsertionMap.get?_set_of_ne m _ (Ne.symm hk)
        rw [hget, InsertionMap.lookup, if_neg hk]
  exact hfold updates.entries updates.nodup_keys m

end UpdateAll

section Single

/-- The row of a list of one row. -/
def single? : List α → Option α
  | [a] => some a
  | _ => none

variable {rows rows' : List α} {a : α}

@[simp] theorem single?_nil : single? ([] : List α) = none := rfl

@[simp] theorem single?_singleton : single? [a] = some a := rfl

theorem single?_eq_some : single? rows = some a ↔ rows = [a] := by
  constructor
  · rintro h
    match rows, h with
    | [b], h => rw [single?_singleton, Option.some.injEq] at h; rw [h]
  · rintro rfl
    rfl

theorem single?_perm (hperm : rows.Perm rows') : single? rows = single? rows' := by
  refine Option.ext fun a => ?_
  rw [single?_eq_some, single?_eq_some]
  constructor
  · rintro rfl
    exact List.perm_singleton.mp hperm.symm
  · rintro rfl
    exact List.perm_singleton.mp hperm

end Single

section FirstBy

/-- The first row of each key. -/
def firstBy (key : α → κ) (rows : List α) : List α :=
  rows.foldl (fun seen a => if key a ∈ seen.map key then seen else seen ++ [a]) []

variable {key : α → κ} {rows rows' : List α}

@[simp] theorem firstBy_nil : firstBy key [] = [] := rfl

theorem firstBy_append_singleton (rows : List α) (a : α) :
    firstBy key (rows ++ [a]) =
      if key a ∈ (firstBy key rows).map key then firstBy key rows else firstBy key rows ++ [a] := by
  rw [firstBy, List.foldl_append]
  rfl

theorem mem_of_mem_firstBy {a : α} (h : a ∈ firstBy key rows) : a ∈ rows := by
  induction rows using List.reverseRecOn with
  | nil => exact h
  | append_singleton rows b ih =>
    rw [firstBy_append_singleton] at h
    split_ifs at h with hb
    · exact List.mem_append_left _ (ih h)
    · rcases List.mem_append.mp h with ha | ha
      · exact List.mem_append_left _ (ih ha)
      · exact List.mem_append_right _ ha

theorem nodup_map_firstBy (key : α → κ) (rows : List α) : ((firstBy key rows).map key).Nodup := by
  induction rows using List.reverseRecOn with
  | nil => exact List.nodup_nil
  | append_singleton rows b ih =>
    rw [firstBy_append_singleton]
    split_ifs with hb
    · exact ih
    · rw [List.map_append, List.nodup_append]
      refine ⟨ih, List.nodup_singleton _, ?_⟩
      rintro k hk j hj rfl
      rw [List.map_singleton, List.mem_singleton] at hj
      exact hb (hj ▸ hk)

/-- Every key is that of a first row. -/
theorem key_mem_map_firstBy {a : α} (h : a ∈ rows) : key a ∈ (firstBy key rows).map key := by
  induction rows using List.reverseRecOn with
  | nil => cases h
  | append_singleton rows b ih =>
    rw [firstBy_append_singleton]
    rcases List.mem_append.mp h with ha | ha
    · split_ifs with hb
      · exact ih ha
      · rw [List.map_append]
        exact List.mem_append_left _ (ih ha)
    · rw [List.mem_singleton] at ha
      subst ha
      split_ifs with hb
      · exact hb
      · simp

/-- Where rows of one key are equal all rows are first ones. -/
theorem mem_firstBy (hkey : ∀ a ∈ rows, ∀ b ∈ rows, key a = key b → a = b) {a : α} :
    a ∈ firstBy key rows ↔ a ∈ rows := by
  refine ⟨mem_of_mem_firstBy, fun ha => ?_⟩
  have hmem : key a ∈ (firstBy key rows).map key := key_mem_map_firstBy ha
  obtain ⟨b, hb, hab⟩ := List.mem_map.mp hmem
  exact hkey b (mem_of_mem_firstBy hb) a ha hab ▸ hb

/-- Where rows of one key are equal, another order leaves the same ones. -/
theorem firstBy_perm (hperm : rows.Perm rows')
    (hkey : ∀ a ∈ rows, ∀ b ∈ rows, key a = key b → a = b) :
    (firstBy key rows).Perm (firstBy key rows') := by
  have hkey' : ∀ a ∈ rows', ∀ b ∈ rows', key a = key b → a = b := fun a ha b hb =>
    hkey a (hperm.mem_iff.mpr ha) b (hperm.mem_iff.mpr hb)
  refine (List.perm_ext_iff_of_nodup (nodup_map_firstBy key rows).of_map
    (nodup_map_firstBy key rows').of_map).mpr fun a => ?_
  rw [mem_firstBy hkey, mem_firstBy hkey', hperm.mem_iff]

end FirstBy

end PandaPay
