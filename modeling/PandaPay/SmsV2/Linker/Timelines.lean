import PandaPay.Library.Grouping
import PandaPay.SmsV2.Linker.Order

/-!
# Timelines

A timeline is kept sorted by insertion at the place that a binary search finds, and a range is cut out at such a
place. An index files facts under keys, with a timeline for each key.

## Main definitions

* `Files`: an index has the facts under their keys, and each timeline of it is sorted

## Main results

* `Timeline.bisect_append`: a binary search finds where the facts that pass end
* `Timeline.range_eq_filter`: a range of a timeline has exactly the facts in the closed interval
* `Files.addAll`: a fact is filed under its keys
* `Files.mem_rangeOf`: what a range of an index has
-/

namespace PandaPay.SmsV2

/-! ### Sorted lists -/

section Sorted

variable {α : Type} {p : α → Bool} {l : List α}

/-- Where no element that passes comes after one that does not, those that pass are at the front. -/
theorem takeWhile_eq_filter (h : l.Pairwise fun a b => p b = true → p a = true) : l.takeWhile p = l.filter p := by
  induction l with
  | nil => rfl
  | cons a l ih =>
    obtain ⟨ha, hl⟩ := List.pairwise_cons.mp h
    cases hp : p a with
    | true => rw [List.takeWhile_cons_of_pos hp, List.filter_cons_of_pos hp, ih hl]
    | false =>
      rw [List.takeWhile_cons_of_neg (by simp [hp]), List.filter_cons_of_neg (by simp [hp])]
      refine (List.filter_eq_nil_iff.mpr fun b hb hpass => ?_).symm
      rw [ha b hb hpass] at hp
      cases hp

theorem dropWhile_eq_filter (h : l.Pairwise fun a b => p b = true → p a = true) :
    l.dropWhile p = l.filter fun a => !p a := by
  induction l with
  | nil => rfl
  | cons a l ih =>
    obtain ⟨ha, hl⟩ := List.pairwise_cons.mp h
    cases hp : p a with
    | true => rw [List.dropWhile_cons_of_pos hp, List.filter_cons_of_neg (by simp [hp]), ih hl]
    | false =>
      rw [List.dropWhile_cons_of_neg (by simp [hp]), List.filter_cons_of_pos (by simp [hp])]
      refine congrArg (a :: ·) (List.filter_eq_self.mpr fun b hb => ?_).symm
      cases hb' : p b with
      | false => rfl
      | true =>
        rw [ha b hb hb'] at hp
        cases hp

theorem filter_append_filter (h : l.Pairwise fun a b => p b = true → p a = true) :
    l.filter p ++ (l.filter fun a => !p a) = l := by
  rw [← takeWhile_eq_filter h, ← dropWhile_eq_filter h, List.takeWhile_append_dropWhile]

theorem insertIdx_append (front back : List α) (a : α) :
    (front ++ back).insertIdx front.length a = front ++ a :: back := by
  induction front with
  | nil => rfl
  | cons b front ih => exact congrArg (b :: ·) ih

end Sorted

theorem orderLe_trans {a b c : Fact} (hab : a.orderLe b) (hbc : b.orderLe c) : a.orderLe c := by
  rw [orderLe_iff] at hab hbc ⊢
  exact hab.trans hbc

theorem orderLe_total (a b : Fact) : a.orderLe b ∨ b.orderLe a := by
  rw [orderLe_iff, orderLe_iff]
  exact le_total _ _

theorem effectiveAt_le_of_orderLe {a b : Fact} (h : a.orderLe b) : a.effectiveAt ≤ b.effectiveAt := by
  rcases h with h | h
  · exact h.le
  · exact h.1.le

namespace Timeline

/-! ### The search -/

/-- A binary search finds where the facts that pass end. -/
theorem bisect_append {pass : Fact → Bool} {front back : List Fact} (hfront : ∀ g ∈ front, pass g = true)
    (hback : ∀ g ∈ back, pass g = false) {passes lo hi : ℕ} (hlo : lo ≤ front.length) (hhi : front.length ≤ hi)
    (hend : hi ≤ (front ++ back).length) (hpasses : hi - lo < passes) :
    bisect pass (front ++ back) passes lo hi = front.length := by
  induction passes generalizing lo hi with
  | zero => exact absurd hpasses (Nat.not_lt_zero _)
  | succ passes ih =>
    rw [bisect]
    by_cases hlt : lo < hi
    · rw [if_pos hlt]
      dsimp only
      rw [List.length_append] at hend
      by_cases hmid : (lo + hi) / 2 < front.length
      · have hget : (front ++ back)[(lo + hi) / 2]? = some front[(lo + hi) / 2] := by
          rw [List.getElem?_append_left hmid, List.getElem?_eq_getElem hmid]
        rw [hget, Option.map_some, Option.getD_some, hfront _ (List.getElem_mem hmid), if_pos rfl]
        exact ih (by omega) hhi (by rw [List.length_append]; omega) (by omega)
      · have hback' : (lo + hi) / 2 - front.length < back.length := by omega
        have hget : (front ++ back)[(lo + hi) / 2]? = some back[(lo + hi) / 2 - front.length] := by
          rw [List.getElem?_append_right (not_lt.mp hmid), List.getElem?_eq_getElem hback']
        rw [hget, Option.map_some, Option.getD_some, hback _ (List.getElem_mem hback'), if_neg Bool.false_ne_true]
        exact ih hlo (not_lt.mp hmid) (by rw [List.length_append]; omega) (by omega)
    · rw [if_neg hlt]
      omega

/-- The search over all of a list in which no fact that passes comes after one that does not. -/
theorem bisect_eq {pass : Fact → Bool} {items : Timeline}
    (h : items.Pairwise fun a b => pass b = true → pass a = true) :
    bisect pass items (items.length + 1) 0 items.length = (items.filter pass).length := by
  have hsplit := filter_append_filter h
  conv_lhs => rw [← hsplit]
  refine bisect_append (fun g hg => List.of_mem_filter hg) (fun g hg => ?_) (Nat.zero_le _) ?_ le_rfl ?_
  · simpa using List.of_mem_filter hg
  · rw [List.length_append]
    exact Nat.le_add_right _ _
  · omega

/-! ### Timelines -/

/-- What precedes a fact of a sorted list that comes before `f` does so too. -/
theorem pairwise_add {items : Timeline} (h : items.Pairwise Fact.orderLe) (f : Fact) :
    items.Pairwise fun a b => decide (b.orderLe f) = true → decide (a.orderLe f) = true :=
  h.imp fun hab hb => decide_eq_true (orderLe_trans hab (of_decide_eq_true hb))

/-- A fact is put after those that do not come after it. -/
theorem add_eq {items : Timeline} (h : items.Pairwise Fact.orderLe) (f : Fact) :
    items.add f = (items.filter fun g => g.orderLe f) ++ f :: items.filter fun g => !decide (g.orderLe f) := by
  have hinsert := insertIdx_append (items.filter fun g => g.orderLe f)
    (items.filter fun g => !decide (g.orderLe f)) f
  rw [filter_append_filter (pairwise_add h f)] at hinsert
  unfold add
  rw [bisect_eq (pairwise_add h f), hinsert]

theorem add_perm {items : Timeline} (h : items.Pairwise Fact.orderLe) (f : Fact) :
    (items.add f).Perm (items ++ [f]) := by
  rw [add_eq h]
  refine List.perm_middle.trans (.trans ?_ (List.perm_append_singleton f items).symm)
  rw [filter_append_filter (pairwise_add h f)]

/-- A timeline stays sorted. -/
theorem sorted_add {items : Timeline} (h : items.Pairwise Fact.orderLe) (f : Fact) :
    (items.add f).Pairwise Fact.orderLe := by
  rw [add_eq h, List.pairwise_append, List.pairwise_cons]
  refine ⟨h.filter _, ⟨fun b hb => ?_, h.filter _⟩, fun a ha b hb => ?_⟩
  · have hb := List.of_mem_filter hb
    exact (orderLe_total f b).resolve_right (by simpa using hb)
  · have ha : a.orderLe f := of_decide_eq_true (List.mem_filter.mp ha).2
    rcases List.mem_cons.mp hb with rfl | hb
    · exact ha
    · have hb := List.of_mem_filter hb
      exact orderLe_trans ha ((orderLe_total f b).resolve_right (by simpa using hb))

/-- A range of a timeline has exactly the facts in the closed interval. -/
theorem range_eq_filter {items : Timeline} (h : items.Pairwise Fact.orderLe) (start stop : ℤ) :
    items.range start stop = items.filter fun g => start ≤ g.effectiveAt && g.effectiveAt ≤ stop := by
  have hbefore : items.Pairwise fun a b => decide (b.effectiveAt < start) = true →
      decide (a.effectiveAt < start) = true :=
    h.imp fun hab hb => decide_eq_true ((effectiveAt_le_of_orderLe hab).trans_lt (of_decide_eq_true hb))
  have hupTo : (items.filter fun g => !decide (g.effectiveAt < start)).Pairwise fun a b =>
      decide (b.effectiveAt ≤ stop) = true → decide (a.effectiveAt ≤ stop) = true :=
    (h.filter _).imp fun hab hb => decide_eq_true ((effectiveAt_le_of_orderLe hab).trans (of_decide_eq_true hb))
  have hdrop : items.drop (items.filter fun g => decide (g.effectiveAt < start)).length =
      items.filter fun g => !decide (g.effectiveAt < start) := by
    conv_lhs => rw [← filter_append_filter hbefore]
    simp
  unfold range
  rw [bisect_eq hbefore, hdrop, takeWhile_eq_filter hupTo, List.filter_filter]
  refine List.filter_congr fun g _ => ?_
  rw [Bool.and_comm, ← decide_not, decide_eq_decide.mpr not_lt]

/-- Facts that are added one by one. -/
theorem foldl_add (facts : List Fact) :
    (facts.foldl add []).Pairwise Fact.orderLe ∧ (facts.foldl add []).Perm facts := by
  induction facts using List.reverseRecOn with
  | nil => exact ⟨.nil, .nil⟩
  | append_singleton facts f ih =>
    rw [List.foldl_append]
    exact ⟨sorted_add ih.1 f, (add_perm ih.1 f).trans (ih.2.append_right [f])⟩

/-- A range has exactly the facts that were added with a time in the closed interval, in order. -/
theorem range_foldl_add (facts : List Fact) (start stop : ℤ) :
    ((facts.foldl add []).range start stop).Perm
        (facts.filter fun g => start ≤ g.effectiveAt && g.effectiveAt ≤ stop) ∧
      ((facts.foldl add []).range start stop).Pairwise Fact.orderLe := by
  obtain ⟨hsorted, hperm⟩ := foldl_add facts
  rw [range_eq_filter hsorted]
  exact ⟨hperm.filter _, hsorted.filter _⟩

end Timeline

/-! ### Indexes -/

section Files

variable {κ : Type} [DecidableEq κ]

/-- An index has the facts under their keys, and each timeline of it is sorted. -/
structure Files (keys : Fact → κ → Bool) (facts : List Fact) (index : InsertionMap κ Timeline) : Prop where
  sorted : ∀ k, ((index.get? k).getD []).Pairwise Fact.orderLe
  perm : ∀ k, ((index.get? k).getD []).Perm (facts.filter fun g => keys g k)

variable {keys : Fact → κ → Bool} {facts : List Fact} {index : InsertionMap κ Timeline}

theorem Files.empty : Files keys [] (.empty : InsertionMap κ Timeline) :=
  ⟨fun _ => .nil, fun _ => .nil⟩

/-- A loop that adds a fact under several keys. -/
theorem getD_foldl_upsert {ks : List κ} (hnodup : ks.Nodup) (f : Fact) (index : InsertionMap κ Timeline) (k : κ) :
    ((ks.foldl (fun m k => m.upsert k [] fun t => Timeline.add t f) index).get? k).getD [] =
      if k ∈ ks then Timeline.add ((index.get? k).getD []) f else (index.get? k).getD [] := by
  induction ks generalizing index with
  | nil => rfl
  | cons j ks ih =>
    obtain ⟨hj, hnodup⟩ := List.nodup_cons.mp hnodup
    rw [List.foldl_cons, ih hnodup, get?_upsert]
    by_cases hk : k = j
    · subst hk
      rw [if_neg hj, if_pos rfl, if_pos List.mem_cons_self]
      rfl
    · rw [if_neg hk]
      by_cases hmem : k ∈ ks
      · rw [if_pos hmem, if_pos (List.mem_cons_of_mem _ hmem)]
      · rw [if_neg hmem, if_neg (fun h => (List.mem_cons.mp h).elim hk hmem)]

/-- A fact is filed under its keys. -/
theorem Files.addAll (h : Files keys facts index) {f : Fact} {ks : List κ} (hnodup : ks.Nodup)
    (hks : ∀ k, k ∈ ks ↔ keys f k = true) :
    Files keys (facts ++ [f]) (ks.foldl (fun m k => m.upsert k [] fun t => Timeline.add t f) index) := by
  constructor
  · intro k
    rw [getD_foldl_upsert hnodup]
    split_ifs
    · exact Timeline.sorted_add (h.sorted k) f
    · exact h.sorted k
  · intro k
    rw [getD_foldl_upsert hnodup, List.filter_append]
    by_cases hk : k ∈ ks
    · have hone : [f].filter (fun g => keys g k) = [f] := List.filter_cons_of_pos ((hks k).mp hk)
      rw [if_pos hk, hone]
      exact (Timeline.add_perm (h.sorted k) f).trans ((h.perm k).append_right _)
    · have hnone : [f].filter (fun g => keys g k) = [] := List.filter_cons_of_neg (mt (hks k).mpr hk)
      rw [if_neg hk, hnone, List.append_nil]
      exact h.perm k

/-- What a range of an index has. -/
theorem Files.mem_rangeOf (h : Files keys facts index) {k : κ} {start stop : ℤ} {g : Fact} :
    g ∈ rangeOf index k start stop ↔
      g ∈ facts ∧ keys g k = true ∧ start ≤ g.effectiveAt ∧ g.effectiveAt ≤ stop := by
  unfold rangeOf
  rw [Timeline.range_eq_filter (h.sorted k), List.mem_filter, (h.perm k).mem_iff, List.mem_filter, Bool.and_eq_true,
    decide_eq_true_eq, decide_eq_true_eq, and_assoc]

end Files

end PandaPay.SmsV2
