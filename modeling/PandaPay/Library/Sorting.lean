import PandaPay.Library.Keyset

/-!
# Sorts that need not be stable

A sort by a key puts rows in the order of their keys. In what order it leaves rows of one key is its own.

## Main definitions

* `Sorting`: a sort by keys
* `Sorting.insertion`: the stable one

## Main results

* `Sorting.map_congr`: what is read of the sorted rows does not depend on their order before, where rows of one
  key agree in it
* `foldl_eq_of_map_eq`: a loop that reads the same of two lists ends in the same state
-/

namespace PandaPay

universe u v w

/-- A sort by keys. -/
structure Sorting (κ : Type v) [LinearOrder κ] where
  sort : {α : Type u} → (α → κ) → List α → List α
  perm : ∀ {α : Type u} (key : α → κ) (rows : List α), (sort key rows).Perm rows
  pairwise : ∀ {α : Type u} (key : α → κ) (rows : List α),
    (sort key rows).Pairwise fun a b => key a ≤ key b

namespace Sorting

variable {κ : Type v} [LinearOrder κ]

/-- The sort that keeps the order of rows with one key. -/
def insertion : Sorting.{u} κ where
  sort := sortBy
  perm := sortBy_perm
  pairwise := pairwise_sortBy

variable (s : Sorting.{u} κ) {α : Type u} {key : α → κ} {rows rows' : List α}

@[simp] theorem mem_sort {a : α} : a ∈ s.sort key rows ↔ a ∈ rows := (s.perm key rows).mem_iff

@[simp] theorem sort_eq_nil : s.sort key rows = [] ↔ rows = [] := by
  rw [← List.length_eq_zero_iff, (s.perm key rows).length_eq, List.length_eq_zero_iff]

/-- What is read of the sorted rows does not depend on their order before, where rows of one key agree
in it. -/
theorem map_congr {β : Type w} {f : α → β} (hperm : rows.Perm rows')
    (hf : ∀ a ∈ rows, ∀ b ∈ rows, key a = key b → f a = f b) :
    (s.sort key rows).map f = (s.sort key rows').map f := by
  have hsort : (s.sort key rows).Perm (s.sort key rows') :=
    (s.perm key rows).trans (hperm.trans (s.perm key rows').symm)
  have hmap : ∀ l : List α, l.Pairwise (fun a b => key a ≤ key b) →
      (l.map fun a => (key a, f a)).Pairwise fun x y => x.1 ≤ y.1 := fun _ h => List.pairwise_map.mpr h
  have hpairs : (s.sort key rows).map (fun a => (key a, f a)) =
      (s.sort key rows').map fun a => (key a, f a) := by
    refine (hsort.map _).eq_of_pairwise ?_ (hmap _ (s.pairwise key rows)) (hmap _ (s.pairwise key rows'))
    intro x y hx hy hxy hyx
    obtain ⟨a, ha, rfl⟩ := List.mem_map.mp hx
    obtain ⟨b, hb, rfl⟩ := List.mem_map.mp hy
    have hkey : key a = key b := le_antisymm hxy hyx
    have hb' : b ∈ rows := hperm.mem_iff.mpr (s.mem_sort.mp hb)
    exact Prod.ext hkey (hf a (s.mem_sort.mp ha) b hb' hkey)
  simpa [Function.comp_def] using congrArg (List.map Prod.snd) hpairs

/-- Where rows of one key are equal the order of the rows does not matter. -/
theorem congr (hperm : rows.Perm rows') (hkey : ∀ a ∈ rows, ∀ b ∈ rows, key a = key b → a = b) :
    s.sort key rows = s.sort key rows' := by
  simpa using s.map_congr (f := id) hperm hkey

end Sorting

/-- A loop that reads the same of two lists ends in the same state. -/
theorem foldl_eq_of_map_eq {α : Type u} {β : Type v} {γ : Type w} {f : α → γ} {step : β → α → β}
    (hstep : ∀ b a a', f a = f a' → step b a = step b a') {l l' : List α} (h : l.map f = l'.map f) (b : β) :
    l.foldl step b = l'.foldl step b := by
  induction l generalizing l' b with
  | nil =>
    rw [List.map_nil, eq_comm, List.map_eq_nil_iff] at h
    rw [h]
  | cons a l ih =>
    obtain ⟨a', l', rfl, ha, hl⟩ := List.map_eq_cons_iff.mp h.symm
    rw [List.foldl_cons, List.foldl_cons, hstep b a a' ha.symm]
    exact ih hl.symm _

end PandaPay
