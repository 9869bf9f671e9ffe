import PandaPay.Library.Keyset

/-!
# Readers of a growing table

A reader takes the rows after its cursor page by page, in the order of their keys, and moves the
cursor to the last key of the page. Rows are added while it reads.

## Main definitions

* `page`: the first rows after a cursor
* `lastKey`: the cursor after a page
* `CaughtUp`: every row up to the cursor has been seen

## Main results

* `CaughtUp.page`: reading a page keeps a reader caught up
* `CaughtUp.append`: so does a new row after the cursor
* `le_of_page_eq_nil`: a reader that is given nothing has passed every row
* `lt_of_mem_page`: which keys a page leaves behind
* `sortBy_filter_gt`: in a table that stays as it is, the rows after a cursor are what is left of it
-/

namespace PandaPay

universe u v

variable {α : Type u} {κ : Type v} [LinearOrder κ]

/-- The first rows after the cursor. -/
def page (key : α → κ) (limit : ℕ) (cursor : κ) (rows : List α) : List α :=
  (sortBy key (rows.filter fun a => cursor < key a)).take limit

/-- The key of the last row of a page, or the cursor where the page is empty. -/
def lastKey (key : α → κ) (cursor : κ) (rows : List α) : κ := (rows.getLast?.map key).getD cursor

/-- Every row up to the cursor has been seen. -/
def CaughtUp (key : α → κ) (rows seen : List α) (cursor : κ) : Prop :=
  ∀ a ∈ rows, key a ≤ cursor → a ∈ seen

section Page

variable {key : α → κ} {limit : ℕ} {cursor : κ} {rows seen : List α}

theorem mem_of_mem_page {a : α} (h : a ∈ page key limit cursor rows) :
    a ∈ rows ∧ cursor < key a := by
  have hmem := mem_sortBy.mp (List.mem_of_mem_take h)
  obtain ⟨hrow, hlt⟩ := List.mem_filter.mp hmem
  exact ⟨hrow, of_decide_eq_true hlt⟩

theorem le_lastKey (h : ∀ a ∈ rows, cursor < key a) : cursor ≤ lastKey key cursor rows := by
  unfold lastKey
  cases hlast : rows.getLast? with
  | none => exact le_rfl
  | some b => exact (h b (List.mem_of_getLast? hlast)).le

/-- A row that the page leaves behind comes after the page. -/
theorem mem_page_or_le {a b : α} (ha : a ∈ rows) (hlt : cursor < key a)
    (hb : b ∈ page key limit cursor rows) : a ∈ page key limit cursor rows ∨ key b ≤ key a := by
  have hmem : a ∈ sortBy key (rows.filter fun a => cursor < key a) :=
    mem_sortBy.mpr (List.mem_filter.mpr ⟨ha, decide_eq_true hlt⟩)
  have hsorted := pairwise_sortBy key (rows.filter fun a => cursor < key a)
  rw [← List.take_append_drop limit (sortBy key _)] at hmem hsorted
  rcases List.mem_append.mp hmem with hmem | hmem
  · exact .inl hmem
  · exact .inr ((List.pairwise_append.mp hsorted).2.2 b hb a hmem)

/-- Reading a page keeps a reader caught up. -/
theorem CaughtUp.page (hkeys : ∀ a ∈ rows, ∀ b ∈ rows, key a = key b → a = b)
    (h : CaughtUp key rows seen cursor) :
    CaughtUp key rows (seen ++ page key limit cursor rows)
      (lastKey key cursor (page key limit cursor rows)) := by
  intro a ha hle
  rw [List.mem_append]
  by_cases hbefore : key a ≤ cursor
  · exact .inl (h a ha hbefore)
  rw [not_le] at hbefore
  refine .inr ?_
  unfold lastKey at hle
  cases hlast : (PandaPay.page key limit cursor rows).getLast? with
  | none =>
    rw [hlast] at hle
    exact absurd hbefore (not_lt.mpr hle)
  | some b =>
    rw [hlast] at hle
    have hb := List.mem_of_getLast? hlast
    rcases mem_page_or_le ha hbefore hb with hmem | hge
    · exact hmem
    · rw [hkeys a ha b (mem_of_mem_page hb).1 (le_antisymm hle hge)]
      exact hb

/-- A new row after the cursor keeps a reader caught up. -/
theorem CaughtUp.append {a : α} (h : CaughtUp key rows seen cursor) (ha : cursor < key a) :
    CaughtUp key (rows ++ [a]) seen cursor := by
  intro b hb hle
  rcases List.mem_append.mp hb with hb | hb
  · exact h b hb hle
  · rw [List.mem_singleton.mp hb] at hle
    exact absurd ha (not_lt.mpr hle)

theorem CaughtUp.mono {seen' : List α} {cursor' : κ} (h : CaughtUp key rows seen cursor)
    (hseen : seen ⊆ seen') (hcursor : cursor' ≤ cursor) : CaughtUp key rows seen' cursor' :=
  fun a ha hle => hseen (h a ha (hle.trans hcursor))

/-- A reader that is given nothing has passed every row. -/
theorem le_of_page_eq_nil (hlimit : 0 < limit) (h : page key limit cursor rows = []) {a : α}
    (ha : a ∈ rows) : key a ≤ cursor := by
  by_contra hlt
  rw [not_le] at hlt
  unfold page at h
  rw [List.take_eq_nil_iff] at h
  rcases h with h | h
  · omega
  · have hmem : a ∈ sortBy key (rows.filter fun a => cursor < key a) :=
      mem_sortBy.mpr (List.mem_filter.mpr ⟨ha, decide_eq_true hlt⟩)
    rw [h] at hmem
    exact absurd hmem List.not_mem_nil

/-- A page goes beyond a key only when fewer rows than its limit lie before the key. -/
theorem lt_of_mem_page {k : κ} {a : α} (ha : a ∈ page key limit cursor rows) (hk : k < key a) :
    rows.countP (fun b => cursor < key b ∧ key b < k) < limit := by
  set sorted := sortBy key (rows.filter fun b => cursor < key b) with hsorted
  have hcount : rows.countP (fun b => cursor < key b ∧ key b < k) =
      sorted.countP fun b => key b < k := by
    rw [hsorted, (sortBy_perm key _).countP_eq, List.countP_filter]
    refine List.countP_congr fun b _ => ?_
    simp [and_comm]
  obtain ⟨i, hi, rfl⟩ := List.mem_take_iff_getElem.mp ha
  rw [lt_min_iff] at hi
  -- the rows before the key all stand before the row at `i`
  have hdrop : (sorted.drop i).countP (fun b => key b < k) = 0 := by
    have hfrom : (sorted.drop i).Pairwise fun a b => key a ≤ key b := (pairwise_sortBy key _).drop
    rw [List.drop_eq_getElem_cons hi.2, List.pairwise_cons] at hfrom
    rw [List.drop_eq_getElem_cons hi.2, List.countP_eq_zero]
    intro b hb
    rw [decide_eq_true_eq, not_lt]
    rcases List.mem_cons.mp hb with rfl | hb
    · exact hk.le
    · exact hk.le.trans (hfrom.1 b hb)
  have hsplit : sorted.countP (fun b => key b < k) =
      (sorted.take i).countP (fun b => key b < k) := by
    conv_lhs => rw [← List.take_append_drop i sorted]
    rw [List.countP_append, hdrop, Nat.add_zero]
  rw [hcount, hsplit]
  have hle := @List.countP_le_length _ (fun b => decide (key b < k)) (sorted.take i)
  rw [List.length_take] at hle
  omega

/-- The rows after the key of a row are those that stand behind it. -/
theorem sortBy_filter_gt (hnodup : (rows.map key).Nodup) {before after : List α} {a : α}
    (h : sortBy key rows = before ++ a :: after) :
    sortBy key (rows.filter fun b => key a < key b) = after := by
  have hsorted := pairwise_sortBy key rows
  have hdistinct : ((sortBy key rows).map key).Nodup :=
    ((sortBy_perm key rows).map key).nodup_iff.mpr hnodup
  have hstrict : (sortBy key rows).Pairwise fun b c => key b < key c :=
    hsorted.imp₂ (fun _ _ hle hne => lt_of_le_of_ne hle hne) (List.pairwise_map.mp hdistinct)
  rw [h, List.pairwise_append, List.pairwise_cons] at hstrict
  obtain ⟨-, ⟨hafter, hrest⟩, hbefore⟩ := hstrict
  refine sortBy_eq ?_ hrest
  have hperm := (sortBy_perm key rows).filter fun b => decide (key a < key b)
  rw [h, List.filter_append, List.filter_cons, if_neg (by simp)] at hperm
  have hnone : before.filter (fun b => decide (key a < key b)) = [] := by
    refine List.filter_eq_nil_iff.mpr fun b hb => ?_
    have := hbefore b hb a List.mem_cons_self
    simp [this.le]
  have hall : after.filter (fun b => decide (key a < key b)) = after :=
    List.filter_eq_self.mpr fun b hb => decide_eq_true (hafter b hb)
  rw [hnone, hall, List.nil_append] at hperm
  exact hperm.symm

end Page

end PandaPay
