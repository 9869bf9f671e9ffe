import Mathlib

/-!
# Sums by group, and window functions

`SELECT key, sum(value) .. GROUP BY key ORDER BY key` over a list of rows, and the two window functions of a query
over rows that an order by a key arranges. Both see the rows as a set: the order in which the rows are listed does
not matter.

## Main definitions

* `groupSums`: each key with the sum of its values, in key order
* `runningSum`: `sum(value) OVER (ORDER BY key)`
* `rowNumber`: `row_number() OVER (ORDER BY ..)`

## Main results

* `sum_groupSums`: an additive function sums up alike over the rows and over the groups
-/

namespace PandaPay

universe u v w

variable {κ : Type u} {M : Type v} {N : Type w} [LinearOrder κ] [AddCommMonoid M] [AddCommMonoid N]

/-- Each key with the sum of its values, in key order. -/
def groupSums (rows : List (κ × M)) : List (κ × M) :=
  ((rows.map Prod.fst).dedup.insertionSort (· ≤ ·)).map fun k =>
    (k, ((rows.filter (·.1 = k)).map Prod.snd).sum)

/-- What the rows of each key add up to is what all rows add up to. -/
theorem sum_map_dedup {α : Type*} (key : α → κ) (f : α → N) (rows : List α) {keys : List κ}
    (hnodup : keys.Nodup) (hkeys : ∀ a ∈ rows, key a ∈ keys) :
    (keys.map fun k => ((rows.filter (key · = k)).map f).sum).sum = (rows.map f).sum := by
  induction rows with
  | nil => simp
  | cons a rows ih =>
    rw [List.forall_mem_cons] at hkeys
    have hsplit : ∀ k, (((a :: rows).filter (key · = k)).map f).sum =
        (if key a = k then f a else 0) + ((rows.filter (key · = k)).map f).sum := by
      intro k
      by_cases hk : key a = k <;> simp [hk]
    have hone : (keys.map fun k => if key a = k then f a else 0).sum = f a := by
      rw [← List.sum_toFinset _ hnodup, Finset.sum_ite_eq]
      exact if_pos (List.mem_toFinset.mpr hkeys.1)
    simp only [hsplit, List.sum_map_add, ih hkeys.2, hone, List.map_cons, List.sum_cons]

/-- An additive function sums up alike over the rows and over the groups. -/
theorem sum_groupSums (rows : List (κ × M)) (F : κ → M →+ N) :
    ((groupSums rows).map fun g => F g.1 g.2).sum = (rows.map fun r => F r.1 r.2).sum := by
  have hnodup : ((rows.map Prod.fst).dedup.insertionSort (· ≤ ·)).Nodup :=
    (List.perm_insertionSort _ _).nodup_iff.mpr (List.nodup_dedup _)
  have hkeys : ∀ r ∈ rows, r.1 ∈ (rows.map Prod.fst).dedup.insertionSort (· ≤ ·) := by
    intro r hr
    rw [List.mem_insertionSort, List.mem_dedup]
    exact List.mem_map_of_mem hr
  have hgroup : ∀ k, F k ((rows.filter (·.1 = k)).map Prod.snd).sum =
      ((rows.filter (·.1 = k)).map fun r => F r.1 r.2).sum := by
    intro k
    rw [map_list_sum, List.map_map]
    refine congrArg List.sum (List.map_congr_left fun r hr => ?_)
    have hk : r.1 = k := by simpa using (List.mem_filter.mp hr).2
    rw [← hk]
    rfl
  simp only [groupSums, List.map_map, Function.comp_def, hgroup]
  exact sum_map_dedup Prod.fst (fun r => F r.1 r.2) rows hnodup hkeys

/-! ### Window functions -/

/-- `sum(value) OVER (ORDER BY key)` at `row`: the rows up to and including `row`. -/
def runningSum {α : Type u} {κ : Type v} {M : Type w} [LE κ] [DecidableLE κ] [AddCommMonoid M]
    (key : α → κ) (value : α → M) (rows : List α) (row : α) : M :=
  ((rows.filter fun r => key r ≤ key row).map value).sum

/-- At a row of a list that is in the order of its keys the running sum is the sum up to that row. -/
theorem runningSum_of_pairwise {α : Type u} {κ : Type v} {M : Type w} [LinearOrder κ] [AddCommMonoid M]
    {key : α → κ} {value : α → M} {before after : List α} {row : α}
    (h : (before ++ row :: after).Pairwise fun a b => key a < key b) :
    runningSum key value (before ++ row :: after) row = (before.map value).sum + value row := by
  obtain ⟨-, hrow, hbefore⟩ := List.pairwise_append.mp h
  have hfront : before.filter (fun r => decide (key r ≤ key row)) = before :=
    List.filter_eq_self.mpr fun r hr => decide_eq_true (hbefore r hr row List.mem_cons_self).le
  have hback : (row :: after).filter (fun r => decide (key r ≤ key row)) = [row] := by
    rw [List.filter_cons_of_pos (by simp), List.filter_eq_nil_iff.mpr]
    intro r hr
    simpa using (List.pairwise_cons.mp hrow).1 r hr
  rw [runningSum, List.filter_append, hfront, hback, List.map_append, List.sum_append, List.map_singleton,
    List.sum_singleton]

/-- `row_number() OVER (ORDER BY ..)` at `row`, for an order in which no two rows tie: how many rows
come up to and including `row`. -/
def rowNumber {α : Type u} (upTo : α → α → Prop) [DecidableRel upTo] (rows : List α) (row : α) : ℕ :=
  (rows.filter fun r => upTo r row).length

end PandaPay
