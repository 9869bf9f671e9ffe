import PandaPay.Library.InsertionMap

/-!
# Pairwise debts

What parties owe each other, kept per unordered pair: the pair `(low, high)` carries a signed
amount, positive when `high` owes `low`. A sheet is what a projection of such debts shows, the
parties it lists, their net balances and the pair amounts; sheets add, so the order in which
entries are posted does not matter.

## Main definitions

* `edge creditor debtor a`: the pair amounts of one debt
* `net`: the balances that pair amounts imply
* `Sheet`: listed parties, balances and pair amounts
* `Sheet.Consistent`: the balances are those the pairs imply, among listed parties
* `InsertionMap.toFinsupp`: a map of amounts as a function

## Main results

* `net_edge`: a debt moves its amount from the debtor to the creditor
* `total_net`: net balances sum to zero
* `Sheet.Consistent.add`: consistency is kept by addition
* `card_pairs_le`: `n` parties have at most `n * (n - 1) / 2` pairs
-/

namespace PandaPay

universe u v

namespace PairLedger

variable {ι : Type u} {M : Type v} [AddCommGroup M]

/-- The balances implied by pair amounts: `low` is owed, `high` owes. -/
noncomputable def net : (ι × ι →₀ M) →+ (ι →₀ M) :=
  Finsupp.liftAddHom fun p => Finsupp.singleAddHom p.1 - Finsupp.singleAddHom p.2

@[simp] theorem net_single (p : ι × ι) (a : M) :
    net (Finsupp.single p a) = Finsupp.single p.1 a - Finsupp.single p.2 a := by
  simp [net]

/-- The sum of all balances. -/
noncomputable def total : (ι →₀ M) →+ M := Finsupp.liftAddHom fun _ => AddMonoidHom.id M

@[simp] theorem total_single (i : ι) (a : M) : total (Finsupp.single i a) = a := by
  simp [total]

/-- Net balances sum to zero. -/
theorem total_net (p : ι × ι →₀ M) : total (net p) = 0 := by
  have h : total.comp net = (0 : (ι × ι →₀ M) →+ M) :=
    Finsupp.addHom_ext fun p a => by simp
  exact DFunLike.congr_fun h p

/-- Balances vanish outside the parties of the pairs. -/
theorem net_apply_eq_zero {p : ι × ι →₀ M} {i : ι}
    (h : ∀ q ∈ p.support, q.1 ≠ i ∧ q.2 ≠ i) : net p i = 0 := by
  rw [net, Finsupp.liftAddHom_apply, Finsupp.sum_apply]
  refine Finset.sum_eq_zero fun q hq => ?_
  obtain ⟨h₁, h₂⟩ := h q hq
  simp [h₁, h₂]

section Edge

variable [LinearOrder ι]

/-- The pair amounts of one debt: the pair is written with the smaller party first, and the
amount counts towards the creditor. -/
noncomputable def edge (creditor debtor : ι) (a : M) : ι × ι →₀ M :=
  if creditor ≤ debtor then Finsupp.single (creditor, debtor) a
  else Finsupp.single (debtor, creditor) (-a)

/-- A debt moves its amount from the debtor's balance to the creditor's. -/
theorem net_edge (creditor debtor : ι) (a : M) :
    net (edge creditor debtor a) = Finsupp.single creditor a - Finsupp.single debtor a := by
  unfold edge
  split
  · simp
  · simp [Finsupp.single_neg]

end Edge

/-- What a projection of pairwise debts shows. -/
@[ext] structure Sheet (ι : Type u) (M : Type v) [AddCommGroup M] where
  /-- The parties listed. -/
  parties : Set ι
  /-- Their balances. -/
  balance : ι →₀ M
  /-- What each pair owes. -/
  pair : ι × ι →₀ M

namespace Sheet

instance : Zero (Sheet ι M) := ⟨⟨∅, 0, 0⟩⟩

noncomputable instance : Add (Sheet ι M) := ⟨fun s t => ⟨s.parties ∪ t.parties, s.balance + t.balance,
  s.pair + t.pair⟩⟩

@[simp] theorem parties_zero : (0 : Sheet ι M).parties = ∅ := rfl
@[simp] theorem balance_zero : (0 : Sheet ι M).balance = 0 := rfl
@[simp] theorem pair_zero : (0 : Sheet ι M).pair = 0 := rfl

@[simp] theorem parties_add (s t : Sheet ι M) : (s + t).parties = s.parties ∪ t.parties := rfl
@[simp] theorem balance_add (s t : Sheet ι M) : (s + t).balance = s.balance + t.balance := rfl
@[simp] theorem pair_add (s t : Sheet ι M) : (s + t).pair = s.pair + t.pair := rfl

/-- Posting is commutative and associative. -/
noncomputable instance : AddCommMonoid (Sheet ι M) where
  add_assoc s t u := Sheet.ext (Set.union_assoc _ _ _) (add_assoc _ _ _) (add_assoc _ _ _)
  zero_add s := Sheet.ext (Set.empty_union _) (zero_add _) (zero_add _)
  add_zero s := Sheet.ext (Set.union_empty _) (add_zero _) (add_zero _)
  add_comm s t := Sheet.ext (Set.union_comm _ _) (add_comm _ _) (add_comm _ _)
  nsmul := nsmulRec

/-- The balances are those the pairs imply, and only listed parties owe or are owed. -/
structure Consistent (s : Sheet ι M) : Prop where
  balance_eq : s.balance = net s.pair
  parties_of_pair : ∀ q ∈ s.pair.support, q.1 ∈ s.parties ∧ q.2 ∈ s.parties

/-- Consistency is kept by addition. -/
theorem Consistent.add {s t : Sheet ι M} (hs : s.Consistent) (ht : t.Consistent) :
    (s + t).Consistent := by
  classical
  refine ⟨?_, fun q hq => ?_⟩
  · rw [balance_add, pair_add, hs.balance_eq, ht.balance_eq, map_add]
  · rcases Finset.mem_union.mp (Finsupp.support_add hq) with h | h
    · exact ⟨.inl (hs.parties_of_pair q h).1, .inl (hs.parties_of_pair q h).2⟩
    · exact ⟨.inr (ht.parties_of_pair q h).1, .inr (ht.parties_of_pair q h).2⟩

/-- The balances of a consistent sheet sum to zero. -/
theorem Consistent.total_balance {s : Sheet ι M} (h : s.Consistent) : total s.balance = 0 := by
  rw [h.balance_eq, total_net]

/-- An unlisted party of a consistent sheet has no balance. -/
theorem Consistent.balance_eq_zero {s : Sheet ι M} (h : s.Consistent) {i : ι}
    (hi : i ∉ s.parties) : s.balance i = 0 := by
  rw [h.balance_eq]
  refine net_apply_eq_zero fun q hq => ?_
  have := h.parties_of_pair q hq
  exact ⟨fun he => hi (he ▸ this.1), fun he => hi (he ▸ this.2)⟩

end Sheet

/-- At most `n * (n - 1) / 2` ordered pairs can be made of `n` parties. -/
theorem card_pairs_le [LinearOrder ι] {parties : Finset ι} {pairs : Finset (ι × ι)}
    (h : ∀ q ∈ pairs, q.1 < q.2 ∧ q.1 ∈ parties ∧ q.2 ∈ parties) :
    pairs.card ≤ parties.card * (parties.card - 1) / 2 := by
  rw [← Nat.choose_two_right, ← Finset.card_powersetCard]
  refine Finset.card_le_card_of_injOn (fun q => {q.1, q.2}) (fun q hq => ?_) ?_
  · obtain ⟨hlt, h₁, h₂⟩ := h q hq
    refine Finset.mem_coe.mpr (Finset.mem_powersetCard.mpr ⟨?_, Finset.card_pair hlt.ne⟩)
    simp [Finset.insert_subset_iff, h₁, h₂]
  · intro p hp q hq hpq
    have hp := (h p hp).1
    have hq := (h q hq).1
    have hpq : ({p.1, p.2} : Finset ι) = {q.1, q.2} := hpq
    have h₁ : p.1 ∈ ({q.1, q.2} : Finset ι) := by rw [← hpq]; simp
    have h₂ : p.2 ∈ ({q.1, q.2} : Finset ι) := by rw [← hpq]; simp
    simp only [Finset.mem_insert, Finset.mem_singleton] at h₁ h₂
    rcases h₁ with h₁ | h₁ <;> rcases h₂ with h₂ | h₂
    · exact absurd (h₁.trans h₂.symm) hp.ne
    · exact Prod.ext h₁ h₂
    · exact absurd (h₁ ▸ h₂ ▸ hp) hq.not_gt
    · exact absurd (h₁.trans h₂.symm) hp.ne

end PairLedger

/-! ### Maps of amounts -/

namespace InsertionMap

variable {κ : Type u} {M : Type v} [AddCommGroup M]

/-- A map of amounts as a function that is zero outside its keys. -/
noncomputable def toFinsupp (m : InsertionMap κ M) : κ →₀ M := m.sum Finsupp.single

@[simp] theorem toFinsupp_empty : (empty : InsertionMap κ M).toFinsupp = 0 := rfl

theorem map_toFinsupp {N : Type*} [AddCommMonoid N] (φ : (κ →₀ M) →+ N) (m : InsertionMap κ M) :
    φ m.toFinsupp = m.sum fun k a => φ (Finsupp.single k a) := by
  rw [toFinsupp, sum, map_list_sum, List.map_map]
  rfl

section Lookup

variable [DecidableEq κ]

theorem sum_single_apply (k : κ) {es : List (κ × M)} (hn : (es.map Prod.fst).Nodup) :
    (es.map fun e => Finsupp.single e.1 e.2).sum k = (lookup k es).getD 0 := by
  induction es with
  | nil => simp [lookup]
  | cons e es ih =>
    rw [List.map_cons, List.nodup_cons] at hn
    rw [List.map_cons, List.sum_cons, Finsupp.add_apply, ih hn.2]
    by_cases he : e.1 = k
    · have hnone : lookup k es = none := lookup_eq_none_iff.mpr (he ▸ hn.1)
      simp [lookup, he, hnone]
    · simp [lookup, he]

theorem toFinsupp_apply (m : InsertionMap κ M) (k : κ) :
    m.toFinsupp k = (m.get? k).getD 0 :=
  sum_single_apply k m.nodup_keys

/-- An assignment adds the difference of the new amount and the old one. -/
theorem toFinsupp_set (m : InsertionMap κ M) (k : κ) (a : M) :
    (m.set k a).toFinsupp = m.toFinsupp + Finsupp.single k (a - (m.get? k).getD 0) := by
  have h := sum_set m Finsupp.single k a
  have hold : (m.get? k).elim (0 : κ →₀ M) (Finsupp.single k) =
      Finsupp.single k ((m.get? k).getD 0) := by
    cases m.get? k <;> simp
  rw [hold] at h
  rw [Finsupp.single_sub, toFinsupp, toFinsupp, ← add_sub_assoc, ← h, add_sub_cancel_right]

/-- Adding to the amount under a key adds to the function. -/
theorem toFinsupp_set_add (m : InsertionMap κ M) (k : κ) (a : M) :
    (m.set k ((m.get? k).getD 0 + a)).toFinsupp = m.toFinsupp + Finsupp.single k a := by
  rw [toFinsupp_set, add_sub_cancel_left]

/-- The keys and the function determine the lookups. -/
theorem get?_eq_of_toFinsupp {m n : InsertionMap κ M} (hk : ∀ k, k ∈ m.keys ↔ k ∈ n.keys)
    (h : m.toFinsupp = n.toFinsupp) (k : κ) : m.get? k = n.get? k := by
  have happly := DFunLike.congr_fun h k
  rw [toFinsupp_apply, toFinsupp_apply] at happly
  have hk := hk k
  rw [mem_keys_iff, mem_keys_iff] at hk
  cases hm : m.get? k <;> cases hn : n.get? k <;> simp_all

theorem mem_keys_of_mem_support {m : InsertionMap κ M} {k : κ} (h : k ∈ m.toFinsupp.support) :
    k ∈ m.keys := by
  by_contra hk
  rw [Finsupp.mem_support_iff, toFinsupp_apply, get?_eq_none_iff.mpr hk] at h
  exact h rfl

/-- The entries that are not zero are the graph of the function. -/
theorem mem_entries_and_ne_zero {m : InsertionMap κ M} {e : κ × M} :
    e ∈ m.entries ∧ e.2 ≠ 0 ↔ m.toFinsupp e.1 = e.2 ∧ e.2 ≠ 0 := by
  refine and_congr_left fun h => ?_
  rw [toFinsupp_apply, ← get?_eq_some_iff]
  cases hm : m.get? e.1 with
  | none => simpa using h.symm
  | some a => simp

end Lookup

end InsertionMap

end PandaPay
