import Mathlib

/-!
# Maps that remember insertion order

A finite map as the list of its entries, in the order the keys were first assigned. Assigning to
a key that is present replaces its value in place; assigning to a new key appends. This is the
observable behaviour of an insertion-ordered dictionary, and, read without the order, of a table
with a primary key.

## Main definitions

* `InsertionMap κ ν`: the entries, with the proof that no key occurs twice
* `get?`, `set`, `erase`: lookup, assignment and deletion
* `sum f`: the sum of `f` over the entries
* `sorted`: the entries in key order
* `Rekeys`: two maps with the same entries under translated keys

## Main results

* `get?_set`, `get?_erase`: what a lookup reads after an update
* `sum_set`, `sum_erase`: an update changes a sum by the new value minus the old one
* `Rekeys.get?`, `Rekeys.set`: lookup and assignment under an injective translation of the keys
-/

namespace PandaPay

universe u v w

/-- A finite map that remembers the order in which its keys were first assigned. -/
structure InsertionMap (κ : Type u) (ν : Type v) where
  /-- The entries, oldest key first. -/
  entries : List (κ × ν)
  /-- No key occurs twice. -/
  nodup_keys : (entries.map Prod.fst).Nodup

/-- What a filter drops does not count when it is zero. -/
theorem sum_map_filter_of_zero {α : Type u} {M : Type w} [AddCommMonoid M] {f : α → M}
    {p : α → Bool} {l : List α} (h : ∀ a ∈ l, p a = false → f a = 0) :
    ((l.filter p).map f).sum = (l.map f).sum := by
  induction l with
  | nil => rfl
  | cons a l ih =>
    rw [List.forall_mem_cons] at h
    rw [List.map_cons, List.sum_cons, ← ih h.2]
    cases hp : p a with
    | true => rw [List.filter_cons_of_pos hp, List.map_cons, List.sum_cons]
    | false => rw [List.filter_cons_of_neg (by simp [hp]), h.1 hp, zero_add]

namespace InsertionMap

variable {κ : Type u} {ν : Type v} {M : Type w}

/-- Two maps are equal when they list the same entries. -/
@[ext] theorem ext {m n : InsertionMap κ ν} (h : m.entries = n.entries) : m = n := by
  cases m; cases n; cases h; rfl

/-- The map without entries. -/
def empty : InsertionMap κ ν := ⟨[], List.nodup_nil⟩

@[simp] theorem entries_empty : (empty : InsertionMap κ ν).entries = [] := rfl

/-- The keys, oldest first. -/
def keys (m : InsertionMap κ ν) : List κ := m.entries.map Prod.fst

/-- The values, in the order of their keys. -/
def values (m : InsertionMap κ ν) : List ν := m.entries.map Prod.snd

/-- The number of entries. -/
def size (m : InsertionMap κ ν) : ℕ := m.entries.length

@[simp] theorem keys_empty : (empty : InsertionMap κ ν).keys = [] := rfl

theorem size_eq_length_keys (m : InsertionMap κ ν) : m.size = m.keys.length := by
  simp [size, keys]

theorem nodup_entries (m : InsertionMap κ ν) : m.entries.Nodup := m.nodup_keys.of_map _

section Lookup

variable [DecidableEq κ]

/-- The first value listed under `k`. -/
def lookup (k : κ) : List (κ × ν) → Option ν
  | [] => none
  | e :: es => if e.1 = k then some e.2 else lookup k es

/-- The value under `k`, if any. -/
def get? (m : InsertionMap κ ν) (k : κ) : Option ν := lookup k m.entries

@[simp] theorem get?_empty (k : κ) : (empty : InsertionMap κ ν).get? k = none := rfl

theorem lookup_eq_none_iff {k : κ} {es : List (κ × ν)} :
    lookup k es = none ↔ k ∉ es.map Prod.fst := by
  induction es with
  | nil => simp [lookup]
  | cons e es ih =>
    by_cases he : e.1 = k
    · simp [lookup, he]
    · simp only [lookup, if_neg he, ih, List.map_cons, List.mem_cons, not_or]
      exact ⟨fun h => ⟨fun hk => he hk.symm, h⟩, fun h => h.2⟩

theorem mem_of_lookup_eq_some {k : κ} {v : ν} {es : List (κ × ν)} (h : lookup k es = some v) :
    (k, v) ∈ es := by
  induction es with
  | nil => simp [lookup] at h
  | cons e es ih =>
    by_cases he : e.1 = k
    · simp only [lookup, if_pos he, Option.some.injEq] at h
      exact List.mem_cons.mpr (.inl (Prod.ext he.symm h.symm))
    · exact List.mem_cons_of_mem _ (ih (by simpa [lookup, he] using h))

theorem lookup_eq_some_of_mem {k : κ} {v : ν} {es : List (κ × ν)}
    (hn : (es.map Prod.fst).Nodup) (h : (k, v) ∈ es) : lookup k es = some v := by
  induction es with
  | nil => simp at h
  | cons e es ih =>
    rw [List.map_cons, List.nodup_cons] at hn
    rcases List.mem_cons.mp h with rfl | h
    · simp [lookup]
    · have he : e.1 ≠ k := fun hk => hn.1 (List.mem_map.mpr ⟨(k, v), h, hk.symm⟩)
      simpa [lookup, he] using ih hn.2 h

theorem get?_eq_some_iff {m : InsertionMap κ ν} {k : κ} {v : ν} :
    m.get? k = some v ↔ (k, v) ∈ m.entries :=
  ⟨mem_of_lookup_eq_some, lookup_eq_some_of_mem m.nodup_keys⟩

theorem get?_eq_none_iff {m : InsertionMap κ ν} {k : κ} : m.get? k = none ↔ k ∉ m.keys :=
  lookup_eq_none_iff

theorem mem_keys_iff {m : InsertionMap κ ν} {k : κ} : k ∈ m.keys ↔ (m.get? k).isSome := by
  rw [Option.isSome_iff_ne_none, ne_eq, get?_eq_none_iff, not_not]

theorem mem_keys_of_get? {m : InsertionMap κ ν} {k : κ} {v : ν} (h : m.get? k = some v) :
    k ∈ m.keys := mem_keys_iff.mpr (by simp [h])

theorem mem_values_iff {m : InsertionMap κ ν} {v : ν} : v ∈ m.values ↔ ∃ k, m.get? k = some v := by
  rw [values, List.mem_map]
  constructor
  · rintro ⟨e, he, rfl⟩
    exact ⟨e.1, get?_eq_some_iff.mpr he⟩
  · rintro ⟨k, hk⟩
    exact ⟨(k, v), get?_eq_some_iff.mp hk, rfl⟩

/-- Maps with the same lookups list the same entries, up to order. -/
theorem entries_perm {m n : InsertionMap κ ν} (h : ∀ k, m.get? k = n.get? k) :
    m.entries.Perm n.entries := by
  refine (List.perm_ext_iff_of_nodup m.nodup_entries n.nodup_entries).mpr fun ⟨k, v⟩ => ?_
  rw [← get?_eq_some_iff, ← get?_eq_some_iff, h]

end Lookup

section Update

variable [DecidableEq κ]

/-- Replace the value under `k` where it stands, or append it. -/
def assign (k : κ) (v : ν) : List (κ × ν) → List (κ × ν)
  | [] => [(k, v)]
  | e :: es => if e.1 = k then (k, v) :: es else e :: assign k v es

theorem map_fst_assign (k : κ) (v : ν) (es : List (κ × ν)) :
    (assign k v es).map Prod.fst =
      if k ∈ es.map Prod.fst then es.map Prod.fst else es.map Prod.fst ++ [k] := by
  induction es with
  | nil => simp [assign]
  | cons e es ih =>
    by_cases he : e.1 = k
    · simp [assign, he]
    · have hk : k ≠ e.1 := fun h => he h.symm
      simp only [assign, if_neg he, List.map_cons, ih, List.mem_cons, hk, false_or]
      split <;> simp

theorem nodup_map_fst_assign (k : κ) (v : ν) {es : List (κ × ν)}
    (h : (es.map Prod.fst).Nodup) : ((assign k v es).map Prod.fst).Nodup := by
  rw [map_fst_assign]
  split
  · exact h
  · rename_i hk
    exact List.nodup_append.mpr ⟨h, List.nodup_singleton k, fun a ha b hb hab =>
      hk (by rw [List.mem_singleton] at hb; exact hb ▸ hab ▸ ha)⟩

/-- `m` with `v` under `k`. -/
def set (m : InsertionMap κ ν) (k : κ) (v : ν) : InsertionMap κ ν :=
  ⟨assign k v m.entries, nodup_map_fst_assign k v m.nodup_keys⟩

theorem keys_set (m : InsertionMap κ ν) (k : κ) (v : ν) :
    (m.set k v).keys = if k ∈ m.keys then m.keys else m.keys ++ [k] :=
  map_fst_assign k v m.entries

@[simp] theorem mem_keys_set {m : InsertionMap κ ν} {j k : κ} {v : ν} :
    j ∈ (m.set k v).keys ↔ j = k ∨ j ∈ m.keys := by
  rw [keys_set]
  split
  · rename_i h
    exact ⟨.inr, fun hj => hj.elim (fun hk => hk ▸ h) id⟩
  · simp [or_comm]

theorem lookup_assign (j k : κ) (v : ν) (es : List (κ × ν)) :
    lookup j (assign k v es) = if j = k then some v else lookup j es := by
  induction es with
  | nil =>
    by_cases hj : j = k
    · simp [assign, lookup, hj]
    · have hk : k ≠ j := fun h => hj h.symm
      simp [assign, lookup, hj, hk]
  | cons e es ih =>
    by_cases he : e.1 = k
    · by_cases hj : j = k
      · simp [assign, lookup, he, hj]
      · have hk : k ≠ j := fun h => hj h.symm
        simp [assign, lookup, he, hj, hk]
    · by_cases hej : e.1 = j
      · have hj : j ≠ k := fun h => he (hej.trans h)
        simp [assign, lookup, hej, hj]
      · simp [assign, lookup, he, hej, ih]

theorem get?_set (m : InsertionMap κ ν) (j k : κ) (v : ν) :
    (m.set k v).get? j = if j = k then some v else m.get? j :=
  lookup_assign j k v m.entries

theorem assign_eq_self {k : κ} {v : ν} {es : List (κ × ν)} (h : lookup k es = some v) :
    assign k v es = es := by
  induction es with
  | nil => cases h
  | cons e es ih =>
    rw [lookup] at h
    rw [assign]
    split at h
    · rename_i he
      cases h
      rw [if_pos he, ← he]
    · rename_i he
      rw [if_neg he, ih h]

/-- Assigning the value that is there changes nothing. -/
theorem set_eq_self {m : InsertionMap κ ν} {k : κ} {v : ν} (h : m.get? k = some v) :
    m.set k v = m := ext (assign_eq_self h)

@[simp] theorem get?_set_self (m : InsertionMap κ ν) (k : κ) (v : ν) :
    (m.set k v).get? k = some v := by simp [get?_set]

theorem get?_set_of_ne (m : InsertionMap κ ν) {j k : κ} (v : ν) (h : j ≠ k) :
    (m.set k v).get? j = m.get? j := by simp [get?_set, h]

/-- Every entry after an assignment is the assigned one or an old one. -/
theorem mem_entries_set {m : InsertionMap κ ν} {k : κ} {v : ν} {e : κ × ν}
    (h : e ∈ (m.set k v).entries) : e = (k, v) ∨ e ∈ m.entries := by
  obtain ⟨j, x⟩ := e
  rw [← get?_eq_some_iff, get?_set] at h
  split at h
  · rename_i hj
    exact .inl (Prod.ext hj (Option.some.inj h).symm)
  · exact .inr (get?_eq_some_iff.mp h)

theorem mem_values_set {m : InsertionMap κ ν} {k : κ} {v w : ν} (h : w ∈ (m.set k v).values) :
    w = v ∨ w ∈ m.values := by
  obtain ⟨e, he, rfl⟩ := List.mem_map.mp h
  obtain rfl | he := mem_entries_set he
  · exact .inl rfl
  · exact .inr (List.mem_map_of_mem he)

theorem assign_of_notMem {k : κ} (v : ν) {es : List (κ × ν)} (h : k ∉ es.map Prod.fst) :
    assign k v es = es ++ [(k, v)] := by
  induction es with
  | nil => rfl
  | cons e es ih =>
    rw [List.map_cons, List.mem_cons, not_or] at h
    rw [assign, if_neg fun he => h.1 he.symm, ih h.2, List.cons_append]

/-- An assignment to a new key appends. -/
theorem entries_set_of_notMem {m : InsertionMap κ ν} {k : κ} (v : ν) (h : k ∉ m.keys) :
    (m.set k v).entries = m.entries ++ [(k, v)] :=
  assign_of_notMem v h

/-- `m` without the entry under `k`. -/
def erase (m : InsertionMap κ ν) (k : κ) : InsertionMap κ ν :=
  ⟨m.entries.filter (·.1 ≠ k), m.nodup_keys.sublist (List.filter_sublist.map _)⟩

theorem get?_erase (m : InsertionMap κ ν) (j k : κ) :
    (m.erase k).get? j = if j = k then none else m.get? j := by
  split
  · rename_i h
    rw [get?_eq_none_iff, keys, erase, h]
    simp
  · rename_i h
    refine Option.ext fun v => ?_
    rw [get?_eq_some_iff, get?_eq_some_iff, erase, List.mem_filter]
    simp [h]

/-- The entries of `m` that satisfy `p`. -/
def filter (m : InsertionMap κ ν) (p : κ → ν → Bool) : InsertionMap κ ν :=
  ⟨m.entries.filter fun e => p e.1 e.2, m.nodup_keys.sublist (List.filter_sublist.map _)⟩

theorem get?_filter (m : InsertionMap κ ν) (p : κ → ν → Bool) (k : κ) :
    (m.filter p).get? k = (m.get? k).filter (p k) := by
  refine Option.ext fun v => ?_
  rw [get?_eq_some_iff, Option.filter_eq_some_iff, get?_eq_some_iff, filter, List.mem_filter]

/-- The keys of the entries that satisfy `p`. -/
theorem mem_map_filter_entries {m : InsertionMap κ ν} {p : ν → Bool} {k : κ} :
    k ∈ (m.entries.filter fun e => p e.2).map Prod.fst ↔ ∃ v, m.get? k = some v ∧ p v = true := by
  rw [List.mem_map]
  constructor
  · rintro ⟨e, he, rfl⟩
    have hfilter := List.mem_filter.mp he
    exact ⟨e.2, get?_eq_some_iff.mpr hfilter.1, hfilter.2⟩
  · rintro ⟨v, hv, hp⟩
    exact ⟨(k, v), List.mem_filter.mpr ⟨get?_eq_some_iff.mp hv, hp⟩, rfl⟩

/-- `m` with `f` applied to every value. -/
def mapValues (m : InsertionMap κ ν) (f : κ → ν → ν) : InsertionMap κ ν where
  entries := m.entries.map fun e => (e.1, f e.1 e.2)
  nodup_keys := by
    rw [List.map_map]
    exact m.nodup_keys

theorem get?_mapValues (m : InsertionMap κ ν) (f : κ → ν → ν) (k : κ) :
    (m.mapValues f).get? k = (m.get? k).map (f k) := by
  refine Option.ext fun v => ?_
  rw [get?_eq_some_iff, Option.map_eq_some_iff, mapValues, List.mem_map]
  constructor
  · rintro ⟨e, he, heq⟩
    cases heq
    exact ⟨e.2, get?_eq_some_iff.mpr he, rfl⟩
  · rintro ⟨w, hw, rfl⟩
    exact ⟨(k, w), get?_eq_some_iff.mp hw, rfl⟩

omit [DecidableEq κ] in
@[simp] theorem keys_mapValues (m : InsertionMap κ ν) (f : κ → ν → ν) :
    (m.mapValues f).keys = m.keys := by
  rw [keys, mapValues, List.map_map]
  rfl

/-- What holds of the assigned entry and of the old ones holds of every entry. -/
theorem forall_get?_set {m : InsertionMap κ ν} {P : κ → ν → Prop} {k : κ} {v : ν}
    (h : ∀ j w, m.get? j = some w → P j w) (hv : P k v) :
    ∀ j w, (m.set k v).get? j = some w → P j w := by
  intro j w hw
  rw [get?_set] at hw
  split at hw
  · rename_i hj
    rw [hj, ← Option.some.inj hw]
    exact hv
  · exact h j w hw

theorem forall_get?_mapValues {m : InsertionMap κ ν} {P : κ → ν → Prop} {f : κ → ν → ν}
    (h : ∀ j w, m.get? j = some w → P j (f j w)) :
    ∀ j w, (m.mapValues f).get? j = some w → P j w := by
  intro j w hw
  rw [get?_mapValues, Option.map_eq_some_iff] at hw
  obtain ⟨v, hv, rfl⟩ := hw
  exact h j v hv

/-- `m` with `f` of the old value, or of `d` where there is none, under `k`. -/
def upsert (m : InsertionMap κ ν) (k : κ) (d : ν) (f : ν → ν) : InsertionMap κ ν :=
  m.set k (f ((m.get? k).getD d))

end Update

section Sums

variable [AddCommMonoid M]

/-- The sum of `f` over the entries. -/
def sum (m : InsertionMap κ ν) (f : κ → ν → M) : M := (m.entries.map fun e => f e.1 e.2).sum

@[simp] theorem sum_empty (f : κ → ν → M) : (empty : InsertionMap κ ν).sum f = 0 := rfl

theorem sum_congr {m : InsertionMap κ ν} {f g : κ → ν → M}
    (h : ∀ k v, (k, v) ∈ m.entries → f k v = g k v) : m.sum f = m.sum g := by
  unfold sum
  exact congrArg List.sum (List.map_congr_left fun e he => h e.1 e.2 he)

theorem sum_eq_zero {m : InsertionMap κ ν} {f : κ → ν → M}
    (h : ∀ k v, (k, v) ∈ m.entries → f k v = 0) : m.sum f = 0 := by
  refine List.sum_eq_zero fun x hx => ?_
  obtain ⟨e, he, rfl⟩ := List.mem_map.mp hx
  exact h e.1 e.2 he

theorem sum_add (m : InsertionMap κ ν) (f g : κ → ν → M) :
    m.sum (fun k v => f k v + g k v) = m.sum f + m.sum g := by
  simp only [sum]
  exact List.sum_map_add

theorem sum_mapValues (m : InsertionMap κ ν) (g : κ → ν → ν) (f : κ → ν → M) :
    (m.mapValues g).sum f = m.sum fun k v => f k (g k v) := by
  rw [sum, sum, mapValues, List.map_map]
  rfl

variable [DecidableEq κ]

/-- The sum over the entries sees each map only through its lookups. -/
theorem sum_eq_of_get? {m n : InsertionMap κ ν} (h : ∀ k, m.get? k = n.get? k)
    (f : κ → ν → M) : m.sum f = n.sum f :=
  ((entries_perm h).map _).sum_eq

theorem sum_assign (f : κ → ν → M) (k : κ) (v : ν) (es : List (κ × ν)) :
    ((assign k v es).map fun e => f e.1 e.2).sum + (lookup k es).elim 0 (f k) =
      (es.map fun e => f e.1 e.2).sum + f k v := by
  induction es with
  | nil => simp [assign, lookup]
  | cons e es ih =>
    by_cases he : e.1 = k
    · subst he
      simp only [assign, lookup, if_pos, List.map_cons, List.sum_cons, Option.elim_some]
      abel
    · simp only [assign, lookup, if_neg he, List.map_cons, List.sum_cons]
      rw [add_assoc, ih, ← add_assoc]

/-- An assignment exchanges the old value's summand for the new value's. -/
theorem sum_set (m : InsertionMap κ ν) (f : κ → ν → M) (k : κ) (v : ν) :
    (m.set k v).sum f + (m.get? k).elim 0 (f k) = m.sum f + f k v :=
  sum_assign f k v m.entries

/-- An assignment to a new key adds its summand. -/
theorem sum_set_of_get?_eq_none {m : InsertionMap κ ν} {k : κ} (h : m.get? k = none)
    (f : κ → ν → M) (v : ν) : (m.set k v).sum f = m.sum f + f k v := by
  have hs := sum_set m f k v
  rwa [h, Option.elim_none, add_zero] at hs

theorem sum_filter_add (f : κ → ν → M) (k : κ) {es : List (κ × ν)}
    (hn : (es.map Prod.fst).Nodup) :
    ((es.filter (·.1 ≠ k)).map fun e => f e.1 e.2).sum + (lookup k es).elim 0 (f k) =
      (es.map fun e => f e.1 e.2).sum := by
  induction es with
  | nil => simp [lookup]
  | cons e es ih =>
    rw [List.map_cons, List.nodup_cons] at hn
    by_cases he : e.1 = k
    · subst he
      have hfil : es.filter (fun x => decide (x.1 ≠ e.1)) = es := by
        refine List.filter_eq_self.mpr fun x hx => decide_eq_true fun hk => hn.1 ?_
        exact List.mem_map.mpr ⟨x, hx, hk⟩
      simp only [ne_eq, decide_not] at hfil
      simp [lookup, hfil, add_comm]
    · simp only [lookup, if_neg he, ne_eq, decide_not, List.map_cons, List.sum_cons] at ih ⊢
      rw [List.filter_cons_of_pos (by simp [he]), List.map_cons, List.sum_cons, add_assoc,
        ih hn.2]

/-- A deletion removes the deleted value's summand. -/
theorem sum_erase (m : InsertionMap κ ν) (f : κ → ν → M) (k : κ) :
    (m.erase k).sum f + (m.get? k).elim 0 (f k) = m.sum f :=
  sum_filter_add f k m.nodup_keys

end Sums

/-- Summands that agree but for one key have sums that differ by those of the key. -/
theorem sum_add_of_forall_ne [AddCommMonoid M] [DecidableEq κ] {m : InsertionMap κ ν} {f g : κ → ν → M}
    {k : κ} {v : ν} (hget : m.get? k = some v) (h : ∀ j w, j ≠ k → f j w = g j w) :
    m.sum f + g k v = m.sum g + f k v := by
  have hf := sum_erase m f k
  have hg := sum_erase m g k
  have hrest : (m.erase k).sum f = (m.erase k).sum g := sum_congr fun j w hmem =>
    h j w (by simpa using (List.mem_filter.mp hmem).2)
  rw [hget, Option.elim_some] at hf hg
  rw [← hf, ← hg, hrest, add_right_comm]

theorem sum_eq_countP (m : InsertionMap κ ν) (p : ν → Bool) :
    (m.sum fun _ v => if p v = true then 1 else 0) = m.values.countP p := by
  rw [sum, values, List.countP_map, List.countP_eq_length_filter]
  induction m.entries with
  | nil => rfl
  | cons e es ih =>
    rw [List.map_cons, List.sum_cons, ih, List.filter_cons, Function.comp_apply]
    split <;> simp [Nat.add_comm]

section Sorted

variable [LinearOrder κ]

/-- The entries in key order. -/
def sorted (m : InsertionMap κ ν) : List (κ × ν) :=
  m.entries.insertionSort fun a b => a.1 ≤ b.1

theorem sorted_perm (m : InsertionMap κ ν) : m.sorted.Perm m.entries :=
  List.perm_insertionSort _ _

@[simp] theorem mem_sorted {m : InsertionMap κ ν} {e : κ × ν} : e ∈ m.sorted ↔ e ∈ m.entries :=
  m.sorted_perm.mem_iff

theorem nodup_keys_sorted (m : InsertionMap κ ν) : (m.sorted.map Prod.fst).Nodup :=
  (m.sorted_perm.map Prod.fst).nodup_iff.mpr m.nodup_keys

variable [DecidableEq κ]

/-- The sorted entries, read key by key. -/
theorem sorted_eq_map_keys (m : InsertionMap κ ν) (d : ν) :
    m.sorted = (m.keys.insertionSort (· ≤ ·)).map fun k => (k, (m.get? k).getD d) := by
  have hkeys : m.sorted.map Prod.fst = m.keys.insertionSort (· ≤ ·) :=
    List.map_insertionSort _ _ Prod.fst m.entries fun _ _ _ _ => Iff.rfl
  rw [← hkeys, List.map_map]
  refine ((List.map_congr_left fun e he => ?_).trans (List.map_id _)).symm
  have : m.get? e.1 = some e.2 := get?_eq_some_iff.mpr (mem_sorted.mp he)
  simp [this]

end Sorted

section Rekey

variable {κ' : Type u} {ν' : Type v}

/-- `n` holds the entries of `m`, in the same order, with each key and value translated. -/
def Rekeys (f : κ → κ') (g : κ → ν → ν') (m : InsertionMap κ ν) (n : InsertionMap κ' ν') : Prop :=
  n.entries = m.entries.map fun e => (f e.1, g e.1 e.2)

variable {f : κ → κ'} {g : κ → ν → ν'} {m : InsertionMap κ ν} {n : InsertionMap κ' ν'}

theorem rekeys_empty : Rekeys f g (empty : InsertionMap κ ν) (empty : InsertionMap κ' ν') := rfl

theorem Rekeys.values (h : Rekeys f g m n) : n.values = m.entries.map fun e => g e.1 e.2 := by
  rw [InsertionMap.values, h, List.map_map]
  rfl

variable [DecidableEq κ] [DecidableEq κ']

theorem lookup_map_entries {k : κ} {es : List (κ × ν)}
    (hf : ∀ j ∈ es.map Prod.fst, f j = f k → j = k) :
    lookup (f k) (es.map fun e => (f e.1, g e.1 e.2)) = (lookup k es).map (g k) := by
  induction es with
  | nil => rfl
  | cons e es ih =>
    rw [List.map_cons, List.forall_mem_cons] at hf
    by_cases he : e.1 = k
    · simp [lookup, he]
    · have hfe : f e.1 ≠ f k := fun h => he (hf.1 h)
      simp only [List.map_cons, lookup, if_neg he, if_neg hfe, ih hf.2]

theorem assign_map_entries {k : κ} {es : List (κ × ν)} (v : ν)
    (hf : ∀ j ∈ es.map Prod.fst, f j = f k → j = k) :
    assign (f k) (g k v) (es.map fun e => (f e.1, g e.1 e.2)) =
      (assign k v es).map fun e => (f e.1, g e.1 e.2) := by
  induction es with
  | nil => rfl
  | cons e es ih =>
    rw [List.map_cons, List.forall_mem_cons] at hf
    by_cases he : e.1 = k
    · simp [assign, he]
    · have hfe : f e.1 ≠ f k := fun h => he (hf.1 h)
      simp only [List.map_cons, assign, if_neg he, if_neg hfe, ih hf.2]

namespace Rekeys

/-- A lookup under a translated key reads the translated value. -/
theorem get? (h : Rekeys f g m n) {k : κ} (hf : ∀ j ∈ m.keys, f j = f k → j = k) :
    n.get? (f k) = (m.get? k).map (g k) := by
  rw [InsertionMap.get?, h]
  exact lookup_map_entries hf

theorem mem_keys (h : Rekeys f g m n) {k : κ} (hf : ∀ j ∈ m.keys, f j = f k → j = k) :
    f k ∈ n.keys ↔ k ∈ m.keys := by
  rw [mem_keys_iff, mem_keys_iff, h.get? hf, Option.isSome_map]

/-- Assigning the translated value under the translated key keeps the translation. -/
theorem set (h : Rekeys f g m n) {k : κ} (v : ν) (hf : ∀ j ∈ m.keys, f j = f k → j = k) :
    Rekeys f g (m.set k v) (n.set (f k) (g k v)) := by
  change assign (f k) (g k v) n.entries = _
  rw [h]
  exact assign_map_entries v hf

end Rekeys

end Rekey

end InsertionMap

end PandaPay
