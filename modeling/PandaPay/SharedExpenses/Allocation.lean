import PandaPay.Library.LargestRemainder
import PandaPay.SharedExpenses.Bill
import PandaPay.SharedExpenses.Twins

/-!
# Fair allocations

In the modes `equal`, `percentage` and `shares` a total is divided by largest remainders. Everyone gets its exact share
rounded down or up, the amounts add up to the total, and the order in which the participants are listed does not matter.

## Main definitions

* `participantsIn`: the participants of an input with their weights
* `FairShares`: amounts that divide a total in proportion to weights
* `SameButOrder`: two inputs that list the same participants

## Main results

* `fairShares_allocate`: rounding down and giving out what is left over is fair
* `allocateExpense_perm`: the order of the participants does not matter
* `allocation_fair_and_exact`: either implementation allocates fairly
-/

namespace PandaPay.SharedExpenses

open LargestRemainder

/-! ### Inputs -/

/-- A participant of an input. In the mode `equal` all weights are one. -/
def participantOf (mode row : Json) : AllocationRow where
  id := stringOf (row.get "memberId")
  value :=
    if mode.isStr (js "exact") then bigInt (row.get "amountMinor")
    else if mode.isStr (js "equal") then 1
    else bigInt (row.get "weight")

/-- The participants of an input. -/
def participantsIn (input : Json) : List AllocationRow :=
  (input.get "participants").items.map (participantOf (input.get "mode"))

/-- The sum of the weights. -/
def weightSum (rows : List AllocationRow) : ℕ := (rows.map (·.value)).sum

/-- Amounts that divide a total in proportion to weights. -/
structure FairShares (total : ℕ) (rows : List AllocationRow) (allocations : List (JsString × ℕ)) : Prop where
  members : (allocations.map Prod.fst).Perm (rows.map (·.id))
  nodup : (rows.map (·.id)).Nodup
  exact : (allocations.map Prod.snd).sum = total
  /-- An amount is the exact share rounded down or up. -/
  near : ∀ row ∈ rows, ∀ amount, (row.id, amount) ∈ allocations →
    amount = ⌊(total * row.value : ℚ) / weightSum rows⌋₊ ∨ amount = ⌈(total * row.value : ℚ) / weightSum rows⌉₊
  zero : ∀ row ∈ rows, row.value = 0 → ∀ amount, (row.id, amount) ∈ allocations → amount = 0
  monotone : ∀ a ∈ rows, ∀ b ∈ rows, a.value < b.value → ∀ x y, (a.id, x) ∈ allocations →
    (b.id, y) ∈ allocations → x ≤ y

/-- An input that lists the same participants in another order. -/
structure SameButOrder (input input' : Json) : Prop where
  record : record input' ["currency", "totalMinor", "mode", "participants", "tieOrder"] "$" = .ok ()
  same : ∀ key ∈ ["currency", "totalMinor", "mode", "tieOrder"], input'.get key = input.get key
  participants : ∃ rows rows', input.get "participants" = .arr rows ∧ input'.get "participants" = .arr rows' ∧
    rows'.Perm rows

/-! ### Accepted participants -/

section Rows

variable {mode row : Json} {ids ids' : List JsString} {index index' : ℕ} {r : AllocationRow}

theorem record_any_field {value : Json} {keys : List String} {field field' : String} {u : Unit}
    (h : record value keys field = .ok u) : record value keys field' = .ok u := by
  cases value with
  | obj fields =>
    rw [record, failIf_eq_ok] at h ⊢
    exact h
  | _ => cases h

/-- A participant that is accepted is accepted anywhere its id is new. -/
theorem allocationRow_eq_ok (h : allocationRow mode ids index row = .ok r) :
    r = participantOf mode row ∧ r.id ∉ ids ∧
      ∀ ids' index', r.id ∉ ids' → allocationRow mode ids' index' row = .ok r := by
  simp only [allocationRow, ↓failIf_bind_eq_ok, bind_eq_ok] at h
  obtain ⟨u, hrecord, id, hid, hnew, h⟩ := h
  have hmember := member_eq_ok.mp hid
  by_cases hexact : mode.isStr (js "exact") = true
  · rw [if_pos hexact] at h
    obtain ⟨value, hvalue, h⟩ := bind_eq_ok.mp h
    cases h
    obtain ⟨text, htext, hrest⟩ := amount_eq_ok.mp hvalue
    refine ⟨?_, hnew, fun ids' index' hnew' => ?_⟩
    · rw [participantOf, if_pos hexact, hmember.1, htext, bigInt, hrest.2.2.1, stringOf]
    · simp only [allocationRow, ↓failIf_bind_eq_ok, bind_eq_ok]
      refine ⟨u, record_any_field hrecord, id, member_eq_ok.mpr hmember, hnew', ?_⟩
      rw [if_pos hexact]
      exact bind_eq_ok.mpr ⟨value, amount_eq_ok.mpr ⟨text, htext, hrest⟩, rfl⟩
  · rw [if_neg hexact] at h
    by_cases hequal : mode.isStr (js "equal") = true
    · rw [if_pos hequal] at h
      cases h
      refine ⟨?_, hnew, fun ids' index' hnew' => ?_⟩
      · rw [participantOf, if_neg hexact, if_pos hequal, hmember.1, stringOf]
      · simp only [allocationRow, ↓failIf_bind_eq_ok, bind_eq_ok]
        refine ⟨u, record_any_field hrecord, id, member_eq_ok.mpr hmember, hnew', ?_⟩
        rw [if_neg hexact, if_pos hequal]
        rfl
    · rw [if_neg hequal] at h
      cases hweight : row.get "weight" with
      | str weight =>
        rw [hweight] at h
        simp only [↓failIf_bind_eq_ok] at h
        obtain ⟨hshape, hbound, h⟩ := h
        cases h
        refine ⟨?_, hnew, fun ids' index' hnew' => ?_⟩
        · rw [participantOf, if_neg hexact, if_neg hequal, hmember.1, hweight, bigInt, stringOf]
        · simp only [allocationRow, ↓failIf_bind_eq_ok, bind_eq_ok]
          refine ⟨u, record_any_field hrecord, id, member_eq_ok.mpr hmember, hnew', ?_⟩
          rw [if_neg hexact, if_neg hequal, hweight]
          simp only [↓failIf_bind_eq_ok]
          exact ⟨hshape, hbound, rfl⟩
      | _ =>
        rw [hweight] at h
        cases h

/-- The rows are accepted where each is and the ids differ. -/
theorem allocationRowsFrom_eq_ok {items : List Json} {rows : List AllocationRow} :
    allocationRowsFrom mode ids index items = .ok rows ↔
      rows = items.map (participantOf mode) ∧
      (∀ item ∈ items, allocationRow mode [] 0 item = .ok (participantOf mode item)) ∧
      (rows.map (·.id)).Nodup ∧ ∀ r ∈ rows, r.id ∉ ids := by
  induction items generalizing ids index rows with
  | nil =>
    simp only [allocationRowsFrom, pure_eq_ok, Except.ok.injEq, List.map_nil]
    exact ⟨fun h => by subst h; simp, fun h => h.1.symm⟩
  | cons item items ih =>
    simp only [allocationRowsFrom, bind_eq_ok, pure_eq_ok, Except.ok.injEq]
    constructor
    · rintro ⟨first, hfirst, others, hothers, rfl⟩
      obtain ⟨rfl, hnew, hany⟩ := allocationRow_eq_ok hfirst
      obtain ⟨rfl, hitems, hn, hdisjoint⟩ := ih.mp hothers
      refine ⟨rfl, List.forall_mem_cons.mpr ⟨hany [] 0 (List.not_mem_nil), hitems⟩, ?_, ?_⟩
      · rw [List.map_cons, List.nodup_cons]
        refine ⟨fun hmem => ?_, hn⟩
        obtain ⟨r, hr, hid⟩ := List.mem_map.mp hmem
        exact hdisjoint r hr (by simp [hid])
      · exact List.forall_mem_cons.mpr ⟨hnew, fun r hr hmem => hdisjoint r hr (List.mem_append_left _ hmem)⟩
    · rintro ⟨rfl, hitems, hn, hdisjoint⟩
      rw [List.map_cons, List.map_cons, List.nodup_cons] at hn
      obtain ⟨hhead, htail⟩ := List.forall_mem_cons.mp hitems
      obtain ⟨-, -, hany⟩ := allocationRow_eq_ok hhead
      obtain ⟨hnew, hrest⟩ := List.forall_mem_cons.mp hdisjoint
      refine ⟨_, hany ids index hnew, _, ih.mpr ⟨rfl, htail, hn.2, fun r hr hmem => ?_⟩, rfl⟩
      rcases List.mem_append.mp hmem with hmem | hmem
      · exact hrest r hr hmem
      · exact hn.1 (List.mem_singleton.mp hmem ▸ List.mem_map_of_mem hr)

end Rows

/-! ### Sharing out -/

/-- A share rounded down, with its remainder. -/
def calculate (total scale : ℕ) (row : AllocationRow) : Calculated :=
  ⟨row.id, total * row.value / scale, total * row.value % scale⟩

/-- The rows in the order in which they receive what is left over. -/
def inTurn (total : ℕ) (ranks : List JsString) (rows : List AllocationRow) : List Calculated :=
  (rows.map (calculate total (weightSum rows))).insertionSort (Calculated.before ranks)

/-- The amounts of `allocateExpense`, in id order. -/
def shareOut (total : ℕ) (ranks : List JsString) (rows : List AllocationRow) : List (JsString × ℕ) :=
  ((addOneEach (leftover total (weightSum rows) (·.value) rows) (inTurn total ranks rows)).insertionSort
    fun a b => a.id ≤ b.id).map fun row => (row.id, row.value)

instance (ranks : List JsString) : Std.Total (Calculated.before ranks) where
  total a b := by
    unfold Calculated.before
    split <;> split <;> omega

instance (ranks : List JsString) : IsTrans Calculated (Calculated.before ranks) where
  trans a b c := by
    unfold Calculated.before
    split <;> split <;> split <;> omega

theorem addOneEach_eq (n : ℕ) (rows : List Calculated) :
    addOneEach n rows = (rows.take n).map Dart.plusOne ++ rows.drop n := by
  induction n generalizing rows with
  | zero => rfl
  | succ n ih =>
    cases rows with
    | nil => rfl
    | cons row rows => rw [addOneEach, ih, List.take_succ_cons, List.map_cons, List.drop_succ_cons]; rfl

section Shares

variable {total : ℕ} {ranks : List JsString} {rows : List AllocationRow} {id : JsString} {amount : ℕ}
  {a b : AllocationRow}

theorem inTurn_perm : (inTurn total ranks rows).Perm (rows.map (calculate total (weightSum rows))) :=
  List.perm_insertionSort ..

theorem inTurn_pairwise : (inTurn total ranks rows).Pairwise (Calculated.before ranks) :=
  List.pairwise_insertionSort ..

/-- Those who receive a unit more have a remainder. -/
theorem remainder_of_mem_take (hpositive : 0 < weightSum rows) {c : Calculated}
    (hc : c ∈ (inTurn total ranks rows).take (leftover total (weightSum rows) (·.value) rows)) :
    0 < c.remainder := by
  have hcount : (inTurn total ranks rows).countP (fun c => 0 < c.remainder) =
      rows.countP fun a => 0 < total * a.value % weightSum rows := by
    rw [inTurn_perm.countP_eq, List.countP_map]
    rfl
  have hle : leftover total (weightSum rows) (·.value) rows ≤
      (inTurn total ranks rows).countP fun c => 0 < c.remainder := by
    rw [hcount]
    exact leftover_le_countP _ rfl hpositive
  have hsorted : (inTurn total ranks rows).Pairwise fun a b =>
      decide (0 < b.remainder) = true → decide (0 < a.remainder) = true := by
    refine inTurn_pairwise.imp fun {a b} h => ?_
    unfold Calculated.before at h
    rw [decide_eq_true_eq, decide_eq_true_eq]
    split at h <;> omega
  exact of_decide_eq_true (mem_take_countP hsorted c (List.take_subset_take_left _ hle hc))

/-- An amount is a share rounded down, with a unit more for those who come first. -/
theorem mem_shareOut (h : (id, amount) ∈ shareOut total ranks rows) : ∃ row ∈ rows, row.id = id ∧
    (calculate total (weightSum rows) row ∈
        (inTurn total ranks rows).take (leftover total (weightSum rows) (·.value) rows) ∧
      amount = total * row.value / weightSum rows + 1 ∨
    calculate total (weightSum rows) row ∈
        (inTurn total ranks rows).drop (leftover total (weightSum rows) (·.value) rows) ∧
      amount = total * row.value / weightSum rows) := by
  obtain ⟨c, hc, heq⟩ := List.mem_map.mp h
  obtain ⟨rfl, rfl⟩ := Prod.mk.inj heq
  rw [List.mem_insertionSort, addOneEach_eq, List.mem_append] at hc
  have hrow {c : Calculated} (hc : c ∈ inTurn total ranks rows) :
      ∃ row ∈ rows, calculate total (weightSum rows) row = c := List.mem_map.mp (inTurn_perm.mem_iff.mp hc)
  rcases hc with hc | hc
  · obtain ⟨base, hbase, rfl⟩ := List.mem_map.mp hc
    obtain ⟨row, hmem, rfl⟩ := hrow (List.mem_of_mem_take hbase)
    exact ⟨row, hmem, rfl, .inl ⟨hbase, rfl⟩⟩
  · obtain ⟨row, hmem, rfl⟩ := hrow (List.mem_of_mem_drop hc)
    exact ⟨row, hmem, rfl, .inr ⟨hc, rfl⟩⟩

theorem map_id_addOneEach (n : ℕ) (rows : List Calculated) : (addOneEach n rows).map (·.id) = rows.map (·.id) := by
  rw [addOneEach_eq, List.map_append, List.map_map]
  change (rows.take n).map (·.id) ++ _ = _
  rw [← List.map_append, List.take_append_drop]

theorem sum_addOneEach {n : ℕ} {rows : List Calculated} (h : n ≤ rows.length) :
    ((addOneEach n rows).map (·.value)).sum = (rows.map (·.value)).sum + n := by
  have htake : ((rows.take n).map fun row => row.value + 1).sum = ((rows.take n).map (·.value)).sum + n := by
    rw [List.sum_map_add, List.map_const', List.sum_replicate, List.length_take_of_le h, smul_eq_mul, mul_one]
  rw [addOneEach_eq, List.map_append, List.sum_append, List.map_map]
  change ((rows.take n).map fun row => row.value + 1).sum + _ = _
  conv_rhs => rw [← List.take_append_drop n rows, List.map_append, List.sum_append]
  rw [htake]
  omega

theorem eq_of_id_eq (hn : (rows.map (·.id)).Nodup) (ha : a ∈ rows) (hb : b ∈ rows) (h : a.id = b.id) : a = b :=
  List.inj_on_of_nodup_map hn ha hb h

/-- Rounding down and giving out what is left over is fair. -/
theorem fairShares_shareOut (htotal : 0 < total) (hn : (rows.map (·.id)).Nodup) (hpositive : 0 < weightSum rows) :
    FairShares total rows (shareOut total ranks rows) where
  members := by
    rw [shareOut, List.map_map]
    refine ((List.perm_insertionSort ..).map _).trans ?_
    change ((addOneEach _ (inTurn total ranks rows)).map (·.id)).Perm _
    rw [map_id_addOneEach]
    refine (inTurn_perm.map _).trans (List.Perm.of_eq ?_)
    rw [List.map_map]
    rfl
  nodup := hn
  exact := by
    have hlength : leftover total (weightSum rows) (·.value) rows ≤ (inTurn total ranks rows).length := by
      rw [inTurn_perm.length_eq, List.length_map]
      exact (leftover_lt_length rfl hpositive).le
    have hfloors : ((inTurn total ranks rows).map (·.value)).sum =
        (rows.map fun a => total * a.value / weightSum rows).sum := by
      rw [(inTurn_perm.map _).sum_eq, List.map_map]
      rfl
    rw [shareOut, List.map_map, ((List.perm_insertionSort ..).map _).sum_eq]
    change ((addOneEach _ (inTurn total ranks rows)).map (·.value)).sum = total
    rw [sum_addOneEach hlength, hfloors, leftover]
    exact Nat.add_sub_cancel' (sum_div_le rfl hpositive)
  near := by
    intro row hrow amount h
    obtain ⟨other, hother, hid, hcase⟩ := mem_shareOut h
    obtain rfl := eq_of_id_eq hn hother hrow hid
    rw [← Nat.cast_mul]
    rcases hcase with ⟨htake, rfl⟩ | ⟨-, rfl⟩
    · exact .inr (ceil_share hpositive (remainder_of_mem_take hpositive htake)).symm
    · exact .inl (floor_share _ _).symm
  zero := by
    intro row hrow hzero amount h
    obtain ⟨other, hother, hid, hcase⟩ := mem_shareOut h
    obtain rfl := eq_of_id_eq hn hother hrow hid
    rcases hcase with ⟨htake, rfl⟩ | ⟨-, rfl⟩
    · have hremainder := remainder_of_mem_take hpositive htake
      rw [calculate, hzero, Nat.mul_zero, Nat.zero_mod] at hremainder
      exact absurd hremainder (lt_irrefl 0)
    · rw [hzero, Nat.mul_zero, Nat.zero_div]
  monotone := by
    intro a ha b hb hlt x y hx hy
    obtain ⟨other, hother, hid, hxcase⟩ := mem_shareOut hx
    obtain rfl := eq_of_id_eq hn hother ha hid
    obtain ⟨other', hother', hid', hycase⟩ := mem_shareOut hy
    obtain rfl := eq_of_id_eq hn hother' hb hid'
    have hmul : total * other.value < total * other'.value := Nat.mul_lt_mul_of_pos_left hlt htotal
    have hle : total * other.value / weightSum rows ≤ total * other'.value / weightSum rows :=
      Nat.div_le_div_right hmul.le
    rcases hxcase with ⟨htake, rfl⟩ | ⟨-, rfl⟩
    · rcases hycase with ⟨-, rfl⟩ | ⟨hdrop, rfl⟩
      · omega
      · -- the smaller weight came first, so its remainder is no smaller, and its share was
        have hbefore : Calculated.before ranks (calculate total (weightSum rows) other)
            (calculate total (weightSum rows) other') := by
          have hsplit : (inTurn total ranks rows).Pairwise (Calculated.before ranks) := inTurn_pairwise
          rw [← List.take_append_drop (leftover total (weightSum rows) (·.value) rows) (inTurn total ranks rows),
            List.pairwise_append] at hsplit
          exact hsplit.2.2 _ htake _ hdrop
        have hremainder : total * other'.value % weightSum rows ≤ total * other.value % weightSum rows := by
          unfold Calculated.before calculate at hbefore
          simp only at hbefore
          split at hbefore <;> omega
        have hdiv := Nat.div_add_mod (total * other.value) (weightSum rows)
        have hdiv' := Nat.div_add_mod (total * other'.value) (weightSum rows)
        rcases hle.lt_or_eq with hdivlt | heq
        · omega
        · rw [heq] at hdiv
          omega
    · rcases hycase with ⟨-, rfl⟩ | ⟨-, rfl⟩ <;> omega

end Shares

/-! ### The order of the participants -/

theorem weightSum_perm {rows rows' : List AllocationRow} (h : rows'.Perm rows) : weightSum rows' = weightSum rows :=
  (h.map _).sum_eq

theorem idxOf_eq_of_before {ranks : List JsString} {c d : Calculated} (hcd : Calculated.before ranks c d)
    (hdc : Calculated.before ranks d c) : ranks.idxOf c.id = ranks.idxOf d.id := by
  unfold Calculated.before at hcd hdc
  split at hcd <;> split at hdc <;> omega

/-- The turns do not depend on the order of the rows. -/
theorem inTurn_congr {total : ℕ} {ranks : List JsString} {rows rows' : List AllocationRow} (h : rows'.Perm rows)
    (hn : (rows.map (·.id)).Nodup) (hranks : ∀ row ∈ rows, row.id ∈ ranks) :
    inTurn total ranks rows' = inTurn total ranks rows := by
  have hperm : (inTurn total ranks rows').Perm (inTurn total ranks rows) := by
    refine inTurn_perm.trans (List.Perm.trans ?_ inTurn_perm.symm)
    rw [weightSum_perm h]
    exact h.map _
  refine List.Perm.eq_of_pairwise (fun c d hc hd hcd hdc => ?_) inTurn_pairwise inTurn_pairwise hperm
  obtain ⟨a, ha, rfl⟩ := List.mem_map.mp (inTurn_perm.mem_iff.mp (hperm.mem_iff.mp hc))
  obtain ⟨b, hb, rfl⟩ := List.mem_map.mp (inTurn_perm.mem_iff.mp hd)
  -- rows that may stand before each other have one remainder and one rank, and so one id
  have hrank : ranks.idxOf a.id = ranks.idxOf b.id := idxOf_eq_of_before hcd hdc
  rw [eq_of_id_eq hn ha hb (List.idxOf_inj (hranks a ha) |>.mp hrank)]

theorem shareOut_congr {total : ℕ} {ranks : List JsString} {rows rows' : List AllocationRow} (h : rows'.Perm rows)
    (hn : (rows.map (·.id)).Nodup) (hranks : ∀ row ∈ rows, row.id ∈ ranks) :
    shareOut total ranks rows' = shareOut total ranks rows := by
  rw [shareOut, shareOut, inTurn_congr h hn hranks, weightSum_perm h, leftover, leftover, (h.map _).sum_eq]

/-! ### The two implementations -/

/-- What a successful allocation by weights has checked, and what it returns. -/
theorem allocateExpense_eq_ok {input : Json} {result : Allocation}
    (hmode : (input.get "mode").isStr (js "exact") = false) :
    allocateExpense input = .ok result ↔
      record input ["currency", "totalMinor", "mode", "participants", "tieOrder"] "$" = .ok () ∧
      currency (input.get "currency") = .ok () ∧
      ∃ total, amount (input.get "totalMinor") "totalMinor" MAX_EXPENSE_MINOR true = .ok total ∧
      modes.any (input.get "mode").isStr = true ∧
      ∃ rows, allocationRows input = .ok rows ∧
      ∃ ranks, order (input.get "tieOrder") (rows.map (·.id)) "tieOrder" = .ok ranks ∧
      (weightSum rows ≠ 0 ∧ ((input.get "mode").isStr (js "percentage") = true → weightSum rows = 10000)) ∧
      result = ⟨total, shareOut total ranks rows⟩ := by
  have hne : ¬ (input.get "mode").isStr (js "exact") = true := by simp [hmode]
  simp only [allocateExpense, ↓failIf_bind_eq_ok, bind_eq_ok, if_neg hne, pure_eq_ok, Except.ok.injEq, not_or,
    not_and, not_not, Bool.not_eq_false]
  constructor
  · rintro ⟨⟨⟩, hrecord, ⟨⟩, hcurrency, total, htotal, hmodes, rows, hrows, ranks, hranks, hsum, rfl⟩
    exact ⟨hrecord, hcurrency, total, htotal, hmodes, rows, hrows, ranks, hranks, hsum, by
      simp only [shareOut, leftover, inTurn, List.map_map]
      rfl⟩
  · rintro ⟨hrecord, hcurrency, total, htotal, hmodes, rows, hrows, ranks, hranks, hsum, rfl⟩
    exact ⟨(), hrecord, (), hcurrency, total, htotal, hmodes, rows, hrows, ranks, hranks, hsum, by
      simp only [shareOut, leftover, inTurn, List.map_map]
      rfl⟩

/-- The order in which participants are listed does not matter. -/
theorem allocateExpense_perm {input input' : Json} {result : Allocation} (hsame : SameButOrder input input')
    (hmode : (input.get "mode").isStr (js "exact") = false) (h : allocateExpense input = .ok result) :
    allocateExpense input' = .ok result := by
  obtain ⟨hrecord, hkeys, items, items', hitems, hitems', hperm⟩ := hsame
  have hcurrency : input'.get "currency" = input.get "currency" := hkeys _ (by simp)
  have htotal : input'.get "totalMinor" = input.get "totalMinor" := hkeys _ (by simp)
  have hmodes : input'.get "mode" = input.get "mode" := hkeys _ (by simp)
  have hties : input'.get "tieOrder" = input.get "tieOrder" := hkeys _ (by simp)
  obtain ⟨-, hcur, total, htot, hmode', rows, hrows, ranks, hranks, hsum, rfl⟩ := (allocateExpense_eq_ok hmode).mp h
  simp only [allocationRows, bind_eq_ok, hitems, Json.items] at hrows
  obtain ⟨⟨⟩, hcount, hrows⟩ := hrows
  obtain ⟨rfl, haccepted, hn, -⟩ := allocationRowsFrom_eq_ok.mp hrows
  have hrowsPerm : (items'.map (participantOf (input.get "mode"))).Perm (items.map (participantOf (input.get "mode"))) :=
    hperm.map _
  have hrows' : allocationRows input' = .ok (items'.map (participantOf (input.get "mode"))) := by
    simp only [allocationRows, bind_eq_ok, hitems', Json.items, hmodes]
    refine ⟨(), ?_, allocationRowsFrom_eq_ok.mpr ⟨rfl, fun item hitem => haccepted item (hperm.mem_iff.mp hitem),
      (hrowsPerm.map _).nodup_iff.mpr hn, by simp⟩⟩
    obtain ⟨list, hlist, hlower, hupper⟩ := count_eq_ok.mp hcount
    cases hlist
    exact count_eq_ok.mpr ⟨items', rfl, by rw [hperm.length_eq]; exact hlower, by rw [hperm.length_eq]; exact hupper⟩
  have hranks' : order (input.get "tieOrder") ((items'.map (participantOf (input.get "mode"))).map (·.id)) "tieOrder" =
      .ok ranks := by
    obtain ⟨hvalue, hlength, hdistinct, hmem⟩ := order_eq_ok.mp hranks
    exact order_eq_ok.mpr ⟨hvalue, by rw [hlength, (hrowsPerm.map _).length_eq], hdistinct,
      fun id hid => (hrowsPerm.map _).mem_iff.mpr (hmem id hid)⟩
  refine (allocateExpense_eq_ok (by rw [hmodes, hmode])).mpr ⟨hrecord, by rw [hcurrency, hcur], total,
    by rw [htotal, htot], by rw [hmodes, hmode'], _, hrows', ranks, by rw [hties, hranks'],
    by rw [hmodes, weightSum_perm hrowsPerm]; exact hsum, ?_⟩
  rw [shareOut_congr hrowsPerm hn fun row hrow =>
    Dart.mem_of_order hranks _ (List.mem_map_of_mem hrow)]

/-- Whatever either implementation accepts in the modes `equal`, `percentage` and `shares`, it divides fairly, however
the participants are listed, and fewer units are left over than there are participants. -/
theorem allocation_fair_and_exact (twin : Twin) (input output : Json)
    (hmode : (input.get "mode").isStr (js "exact") = false) (h : twin.allocateExpense input = .ok output) :
    (∃ result, output = Allocation.toJson result ∧ result.totalMinor = bigInt (input.get "totalMinor") ∧
      FairShares (bigInt (input.get "totalMinor")) (participantsIn input) result.allocations) ∧
    leftover (bigInt (input.get "totalMinor")) (weightSum (participantsIn input)) (·.value) (participantsIn input) <
      (participantsIn input).length ∧
    ∀ input', SameButOrder input input' → twin.allocateExpense input' = .ok output := by
  have hjavascript (input : Json) : twin.allocateExpense input =
      (SharedExpenses.allocateExpense input).map Allocation.toJson := by
    cases twin with
    | javascript => rfl
    | dart => exact (Dart.allocateSharedExpense_eq input).trans (Twin.bind_pure_eq_map _ _)
  rw [hjavascript] at h
  cases hresult : allocateExpense input with
  | error e =>
    rw [hresult] at h
    cases h
  | ok result =>
    rw [hresult] at h
    cases h
    have hperm (input' : Json) (hsame : SameButOrder input input') := allocateExpense_perm hsame hmode hresult
    obtain ⟨-, -, total, htotal, -, rows, hrows, ranks, -, hsum, rfl⟩ := (allocateExpense_eq_ok hmode).mp hresult
    obtain ⟨text, htext, -, -, hvalue, hpositive, -⟩ := amount_eq_ok.mp htotal
    have hread : bigInt (input.get "totalMinor") = total := by rw [htext, bigInt, hvalue]
    simp only [allocationRows, bind_eq_ok] at hrows
    obtain ⟨-, -, hrows⟩ := hrows
    obtain ⟨hparticipants, -, hn, -⟩ := allocationRowsFrom_eq_ok.mp hrows
    have hin : participantsIn input = rows := hparticipants.symm
    rw [hread, hin]
    refine ⟨⟨_, rfl, rfl, ?_⟩, leftover_lt_length rfl (Nat.pos_of_ne_zero hsum.1), fun input' hsame => ?_⟩
    · exact fairShares_shareOut (Nat.pos_of_ne_zero (hpositive rfl)) hn (Nat.pos_of_ne_zero hsum.1)
    · rw [hjavascript, hperm input' hsame]
      rfl

/-- Ten paise for three shares and one. -/
def expenseByShares : Json :=
  let row (id : String) (n : ℕ) := object [("memberId", text id), ("weight", minor n)]
  object [("currency", text "INR"), ("totalMinor", minor 10), ("mode", text "shares"),
    ("participants", .arr [row "a" 3, row "b" 1]), ("tieOrder", .arr [text "b", text "a"])]

theorem allocation_fair_and_exact_ten :
    (∃ result, Allocation.toJson ⟨10, [(js "a", 7), (js "b", 3)]⟩ = Allocation.toJson result ∧
      result.totalMinor = bigInt (expenseByShares.get "totalMinor") ∧
      FairShares (bigInt (expenseByShares.get "totalMinor")) (participantsIn expenseByShares) result.allocations) ∧
    leftover (bigInt (expenseByShares.get "totalMinor")) (weightSum (participantsIn expenseByShares)) (·.value)
      (participantsIn expenseByShares) < (participantsIn expenseByShares).length ∧
    ∀ input', SameButOrder expenseByShares input' → Twin.javascript.allocateExpense input' =
      .ok (Allocation.toJson ⟨10, [(js "a", 7), (js "b", 3)]⟩) :=
  allocation_fair_and_exact .javascript expenseByShares _ (by decide) rfl

end PandaPay.SharedExpenses
