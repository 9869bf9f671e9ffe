import PandaPay.Library.Newest

/-!
# The best of several by a comparator

A loop keeps the first element that no later one beats. Comparators that go from field to field compare
ranks in a lexicographic order; elements that tie agree on what the rank determines, and so do the results
for lists with the same elements.

## Main definitions

* `best`: the element that is kept
* `RankedBy`: a comparator goes by a rank

## Main results

* `RankedBy.ascending`, `RankedBy.descending`: one more field of a rank
* `best_eq_some`: the result is in the list, and nothing in the list beats it
* `best_map_congr`: the order of the list does not matter
* `exists_split_of_head?_insertionSort`: the first of a sorted list is the first of the best ones
-/

namespace PandaPay

universe u v w

variable {α : Type u} {β : Type v} {γ : Type w}

/-- The first element that no other one comes before. -/
def best (compare : α → α → Ordering) (l : List α) : Option α :=
  l.foldl (fun best x =>
    match best with
    | none => some x
    | some b => if compare x b = .lt then some x else some b) none

section Rank

variable [LinearOrder β] [LinearOrder γ]

/-- A comparator goes by a rank. -/
def RankedBy (compare : α → α → Ordering) (rank : α → β) : Prop := ∀ a b, compare a b = .lt ↔ rank a < rank b

theorem rankedBy_cmp (f : α → β) : RankedBy (fun a b => cmp (f a) (f b)) f := fun _ _ => cmp_eq_lt_iff _ _

variable {compare : α → α → Ordering} {rank : α → γ}

/-- A field before the others, the smaller first. -/
theorem RankedBy.ascending (h : RankedBy compare rank) (f : α → β) :
    RankedBy (fun a b => (cmp (f a) (f b)).then (compare a b)) fun a => toLex (f a, rank a) := fun a b => by
  rw [Ordering.then_eq_lt, cmp_eq_lt_iff, cmp_eq_eq_iff, h a b, Prod.Lex.toLex_lt_toLex]

/-- A field before the others, the larger first. -/
theorem RankedBy.descending (h : RankedBy compare rank) (f : α → β) :
    RankedBy (fun a b => (cmp (f b) (f a)).then (compare a b)) fun a => toLex (OrderDual.toDual (f a), rank a) :=
  fun a b => by
    rw [Ordering.then_eq_lt, cmp_eq_lt_iff, cmp_eq_eq_iff, h a b, Prod.Lex.toLex_lt_toLex]
    exact or_congr_right (and_congr_left fun _ => eq_comm)

end Rank

/-- The first of a sorted list is the first of the best ones: it comes before what stood before it, and ties with
what stood behind it are in its favour. -/
theorem exists_split_of_head?_insertionSort {r : α → α → Prop} [DecidableRel r] (htotal : ∀ a b, r a b ∨ r b a)
    (htrans : ∀ a b c, r a b → r b c → r a c) {l : List α} {b : α} (h : (l.insertionSort r).head? = some b) :
    ∃ before after, l = before ++ b :: after ∧ (∀ x ∈ before, ¬ r x b) ∧ ∀ x ∈ after, r b x := by
  induction l generalizing b with
  | nil => cases h
  | cons x l ih =>
    rw [List.insertionSort_cons] at h
    cases hl : l.insertionSort r with
    | nil =>
      rw [hl, List.orderedInsert_nil] at h
      have hnil : l = [] := by rw [← List.length_eq_zero_iff, ← List.length_insertionSort r l, hl, List.length_nil]
      obtain rfl := Option.some.inj h
      refine ⟨[], l, rfl, fun _ hx => absurd hx List.not_mem_nil, fun y hy => ?_⟩
      rw [hnil] at hy
      exact absurd hy List.not_mem_nil
    | cons y ys =>
      obtain ⟨before, after, hsplit, hbefore, hafter⟩ := ih (b := y) (by rw [hl, List.head?_cons])
      have hall : ∀ z ∈ l, r y z := by
        intro z hz
        rw [hsplit, List.mem_append, List.mem_cons] at hz
        rcases hz with hz | rfl | hz
        · exact (htotal y z).resolve_right (hbefore z hz)
        · exact (htotal z z).elim id id
        · exact hafter z hz
      rw [hl, List.orderedInsert] at h
      split_ifs at h with hxy
      · obtain rfl := Option.some.inj h
        exact ⟨[], l, rfl, fun _ hz => absurd hz List.not_mem_nil, fun z hz => htrans x y z hxy (hall z hz)⟩
      · obtain rfl := Option.some.inj h
        refine ⟨x :: before, after, by rw [hsplit, List.cons_append], fun z hz => ?_, hafter⟩
        rcases List.mem_cons.mp hz with rfl | hz
        · exact hxy
        · exact hbefore z hz

variable [LinearOrder β] {compare : α → α → Ordering} {rank : α → β} (hrank : RankedBy compare rank)
include hrank

/-- The best element is the newest one by the rank, turned around. -/
theorem best_eq_newest (l : List α) : best compare l = newest (fun a => OrderDual.toDual (rank a)) l := by
  have hstep : ∀ o : Option α, ∀ x : α, (match o with
      | none => some x
      | some b => if compare x b = .lt then some x else some b) =
        newer (fun a => OrderDual.toDual (rank a)) o x := by
    intro o x
    cases o with
    | none => rfl
    | some b =>
      rw [newer]
      by_cases hlt : rank x < rank b
      · exact (if_pos ((hrank x b).mpr hlt)).trans (if_neg (mt OrderDual.toDual_le_toDual.mp (not_le.mpr hlt))).symm
      · exact (if_neg (mt (hrank x b).mp hlt)).trans
          (if_pos (OrderDual.toDual_le_toDual.mpr (not_lt.mp hlt))).symm
  rw [best, newest]
  congr 1
  funext o x
  exact hstep o x

theorem best_eq_some {l : List α} {b : α} (h : best compare l = some b) :
    b ∈ l ∧ ∀ a ∈ l, rank b ≤ rank a := by
  rw [best_eq_newest hrank] at h
  exact newest_eq_some h

theorem best_eq_none_iff {l : List α} : best compare l = none ↔ l = [] := by
  rw [best_eq_newest hrank, newest_eq_none]

/-- What elements of one rank have in common is the same for lists with the same elements. -/
theorem best_map_congr {f : α → γ} {l l' : List α} (hmem : ∀ a, a ∈ l ↔ a ∈ l')
    (heq : ∀ a ∈ l, ∀ b ∈ l, rank a = rank b → f a = f b) : (best compare l).map f = (best compare l').map f := by
  rw [best_eq_newest hrank, best_eq_newest hrank]
  exact newest_map_congr hmem fun a ha b hb h => heq a ha b hb (OrderDual.toDual_inj.mp h)

end PandaPay
