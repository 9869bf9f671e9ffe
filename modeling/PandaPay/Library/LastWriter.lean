import Mathlib

/-!
# Registers of the last writer

A register keeps the value that was written with the greatest stamp; of equal stamps the later write
wins. Writes of which no two differ under one stamp may come in any order.

## Main definitions

* `Stamped`: a value with the stamp of its write
* `Stamped.offer`: a write to a register
* `Stamped.latest`: the register after several writes

## Main results

* `Stamped.latest_mem`, `Stamped.stamp_le_latest`: the result was written, under the greatest stamp
* `Stamped.overtaken_of_ne_latest`: what a write that is not held was overtaken by
* `Stamped.latest_perm`: the order of the writes does not matter
-/

namespace PandaPay

universe u v

/-- A value with the stamp of its write. -/
@[ext] structure Stamped (β : Type u) (α : Type v) where
  stamp : β
  value : α
  deriving DecidableEq

namespace Stamped

variable {β : Type u} {α : Type v} [LinearOrder β]

/-- The register `a` after the write `x`. -/
def offer (a x : Stamped β α) : Stamped β α := if x.stamp < a.stamp then a else x

/-- The register `a` after the writes `xs`. -/
def latest (a : Stamped β α) (xs : List (Stamped β α)) : Stamped β α := xs.foldl offer a

variable {a x y : Stamped β α} {xs ys : List (Stamped β α)}

@[simp] theorem latest_nil (a : Stamped β α) : latest a [] = a := rfl

theorem latest_cons (a x : Stamped β α) (xs : List (Stamped β α)) :
    latest a (x :: xs) = latest (offer a x) xs := rfl

theorem latest_append (a : Stamped β α) (xs ys : List (Stamped β α)) :
    latest a (xs ++ ys) = latest (latest a xs) ys := List.foldl_append

theorem offer_of_lt (h : x.stamp < a.stamp) : offer a x = a := if_pos h

theorem offer_of_le (h : a.stamp ≤ x.stamp) : offer a x = x := if_neg (not_lt.mpr h)

theorem offer_mem (a x : Stamped β α) : offer a x = a ∨ offer a x = x := by
  unfold offer
  split
  · exact .inl rfl
  · exact .inr rfl

theorem stamp_le_offer_left (a x : Stamped β α) : a.stamp ≤ (offer a x).stamp := by
  unfold offer
  split
  · exact le_rfl
  · rename_i h
    exact not_lt.mp h

theorem stamp_le_offer_right (a x : Stamped β α) : x.stamp ≤ (offer a x).stamp := by
  unfold offer
  split
  · rename_i h
    exact h.le
  · exact le_rfl

/-- What the register holds was written to it, or was there. -/
theorem latest_mem (a : Stamped β α) (xs : List (Stamped β α)) : latest a xs ∈ a :: xs := by
  induction xs generalizing a with
  | nil => exact List.mem_singleton.mpr rfl
  | cons x xs ih =>
    rw [latest_cons]
    rcases List.mem_cons.mp (ih (offer a x)) with h | h
    · rw [h]
      rcases offer_mem a x with h | h <;> rw [h]
      · exact List.mem_cons_self
      · exact List.mem_cons_of_mem a List.mem_cons_self
    · exact List.mem_cons_of_mem a (List.mem_cons_of_mem x h)

/-- Its stamp is the greatest one. -/
theorem stamp_le_latest (h : x ∈ a :: xs) : x.stamp ≤ (latest a xs).stamp := by
  induction xs generalizing a x with
  | nil => rw [List.mem_singleton.mp h, latest_nil]
  | cons y xs ih =>
    rw [latest_cons]
    rcases List.mem_cons.mp h with rfl | h
    · exact (stamp_le_offer_left x y).trans (ih List.mem_cons_self)
    · rcases List.mem_cons.mp h with rfl | h
      · exact (stamp_le_offer_right a x).trans (ih List.mem_cons_self)
      · exact ih (List.mem_cons_of_mem _ h)

/-- A write that the register does not hold was overtaken: by a greater stamp, or by an equal one that
came later. -/
theorem overtaken_of_ne_latest (h : x ∈ a :: xs) (hne : latest a xs ≠ x) :
    ∃ before after, a :: xs = before ++ latest a xs :: after ∧
      (x.stamp < (latest a xs).stamp ∨ x.stamp = (latest a xs).stamp ∧ x ∈ before) := by
  induction xs using List.reverseRecOn with
  | nil => exact absurd (List.mem_singleton.mp h).symm hne
  | append_singleton xs y ih =>
    rw [latest_append, latest_cons, latest_nil] at hne ⊢
    rw [← List.cons_append] at h
    by_cases hlt : y.stamp < (latest a xs).stamp
    · rw [offer_of_lt hlt] at hne ⊢
      rcases List.mem_append.mp h with h | h
      · obtain ⟨before, after, hsplit, hover⟩ := ih h hne
        refine ⟨before, after ++ [y], ?_, hover⟩
        rw [← List.cons_append, hsplit, List.append_assoc, List.cons_append]
      · obtain ⟨before, after, hsplit⟩ := List.append_of_mem (latest_mem a xs)
        refine ⟨before, after ++ [y], ?_, .inl ?_⟩
        · rw [← List.cons_append, hsplit, List.append_assoc, List.cons_append]
        · rw [List.mem_singleton.mp h]
          exact hlt
    · rw [offer_of_le (not_lt.mp hlt)] at hne ⊢
      refine ⟨a :: xs, [], (List.cons_append).symm, ?_⟩
      rcases List.mem_append.mp h with h | h
      · rcases ((stamp_le_latest h).trans (not_lt.mp hlt)).lt_or_eq with hlt' | heq
        · exact .inl hlt'
        · exact .inr ⟨heq, h⟩
      · exact absurd (List.mem_singleton.mp h).symm hne

/-- Two writes may be swapped, unless they differ under one stamp. -/
theorem offer_right_comm (h : x.stamp = y.stamp → x = y) :
    offer (offer a x) y = offer (offer a y) x := by
  unfold offer
  grind

/-- The order of the writes does not matter. -/
theorem latest_perm (hperm : xs.Perm ys)
    (heq : ∀ x ∈ xs, ∀ y ∈ xs, x.stamp = y.stamp → x = y) (a : Stamped β α) :
    latest a xs = latest a ys :=
  hperm.foldl_eq' (fun x hx y hy _ => offer_right_comm (heq x hx y hy)) a

end Stamped

end PandaPay
