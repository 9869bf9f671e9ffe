import PandaPay.Library.InsertionMap

/-!
# Amounts added up per key

A map from keys to amounts that postings are added to. Both the amount of a key and the sum of all
amounts grow by what is posted, and neither depends on the order of the postings.

## Main definitions

* `tally m postings`: `m` with each posting added to the amount of its key
* `amountAt m k`: the amount of a key, zero where there is none

## Main results

* `amountAt_tally`, `mem_keys_tally`, `sum_tally`: what the tally of a list holds
* `get?_tally_perm`: lookups do not depend on the order of the postings
-/

namespace PandaPay

universe u v

variable {κ : Type u} {M : Type v} [DecidableEq κ] [AddCommMonoid M]

/-- The amount of a key. -/
def amountAt (m : InsertionMap κ M) (k : κ) : M := (m.get? k).getD 0

/-- A posting is added to the amount of its key. -/
def post (m : InsertionMap κ M) (posting : κ × M) : InsertionMap κ M :=
  m.upsert posting.1 0 (· + posting.2)

/-- The postings are added one after the other. -/
def tally (m : InsertionMap κ M) (postings : List (κ × M)) : InsertionMap κ M :=
  postings.foldl post m

variable {m : InsertionMap κ M} {postings : List (κ × M)}

theorem tally_append (l l' : List (κ × M)) : tally m (l ++ l') = tally (tally m l) l' :=
  List.foldl_append

theorem amountAt_post (posting : κ × M) (k : κ) :
    amountAt (post m posting) k = amountAt m k + if posting.1 = k then posting.2 else 0 := by
  rw [amountAt, post, InsertionMap.upsert, InsertionMap.get?_set]
  by_cases hk : k = posting.1
  · subst hk
    simp [amountAt]
  · simp [amountAt, hk, Ne.symm hk]

/-- The amount of a key grows by what is posted to it. -/
theorem amountAt_tally (k : κ) :
    amountAt (tally m postings) k =
      amountAt m k + (postings.map fun p => if p.1 = k then p.2 else 0).sum := by
  induction postings generalizing m with
  | nil => simp [tally]
  | cons p l ih =>
    rw [tally, List.foldl_cons, ← tally, ih, amountAt_post, List.map_cons, List.sum_cons, add_assoc]

/-- The keys are the old ones and those posted to. -/
theorem mem_keys_tally {k : κ} :
    k ∈ (tally m postings).keys ↔ k ∈ m.keys ∨ k ∈ postings.map Prod.fst := by
  induction postings generalizing m with
  | nil => simp [tally]
  | cons p l ih =>
    rw [tally, List.foldl_cons, ← tally, ih, post, InsertionMap.upsert, InsertionMap.mem_keys_set,
      List.map_cons, List.mem_cons]
    tauto

theorem sum_post (posting : κ × M) :
    (post m posting).sum (fun _ v => v) = m.sum (fun _ v => v) + posting.2 := by
  rw [post, InsertionMap.upsert]
  cases hget : m.get? posting.1 with
  | none => rw [InsertionMap.sum_set_of_get?_eq_none hget, Option.getD_none, zero_add]
  | some old =>
    -- without cancellation the old amount is split off the sum first
    have herase := InsertionMap.sum_erase m (fun _ v => v) posting.1
    have hset : (m.set posting.1 (old + posting.2)).sum (fun _ v => v) =
        (m.erase posting.1).sum (fun _ v => v) + (old + posting.2) := by
      rw [← InsertionMap.sum_erase (m.set posting.1 (old + posting.2)) (fun _ v => v) posting.1,
        InsertionMap.get?_set_self, Option.elim_some]
      congr 1
      refine InsertionMap.sum_eq_of_get? (fun k => ?_) _
      rw [InsertionMap.get?_erase, InsertionMap.get?_erase]
      split
      · rfl
      · rename_i hk
        exact InsertionMap.get?_set_of_ne m _ hk
    rw [hget, Option.elim_some] at herase
    rw [Option.getD_some, hset, ← herase, add_assoc]

/-- The sum of all amounts grows by what is posted. -/
theorem sum_tally :
    (tally m postings).sum (fun _ v => v) = m.sum (fun _ v => v) + (postings.map Prod.snd).sum := by
  induction postings generalizing m with
  | nil => simp [tally]
  | cons p l ih =>
    rw [tally, List.foldl_cons, ← tally, ih, sum_post, List.map_cons, List.sum_cons, add_assoc]

/-- A lookup is the amount of a key that is there. -/
theorem get?_eq_ite_amountAt (k : κ) : m.get? k = if k ∈ m.keys then some (amountAt m k) else none := by
  cases hget : m.get? k with
  | none => rw [if_neg (InsertionMap.get?_eq_none_iff.mp hget)]
  | some v => rw [if_pos (InsertionMap.mem_keys_of_get? hget), amountAt, hget, Option.getD_some]

/-- Lookups do not depend on the order of the postings. -/
theorem get?_tally_perm {postings' : List (κ × M)} (h : postings.Perm postings') (k : κ) :
    (tally m postings).get? k = (tally m postings').get? k := by
  rw [get?_eq_ite_amountAt, get?_eq_ite_amountAt (m := tally m postings')]
  simp only [mem_keys_tally, amountAt_tally, (h.map _).sum_eq, (h.map _).mem_iff]

end PandaPay
