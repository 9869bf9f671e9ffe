import PandaPay.Library.IndexBy
import PandaPay.SharedExpenses.Bill
import PandaPay.SharedExpenses.Twins

/-!
# The settlement waterfall

`allocateSettlement` pays the outstanding obligations in the order of `allocationOrder`: an obligation is reached only
when those before it are paid in full, and what is left after the last is credit.

## Main definitions

* `outstandingRows`, `outstandingInOrder`: the outstanding amounts that an input states
* `Waterfall`: what an allocation makes of an amount

## Main results

* `settleInOrder_waterfall`: the loop is a waterfall
* `settlement_waterfall`: so is every allocation of either implementation
-/

namespace PandaPay.SharedExpenses

/-- The outstanding amounts of an input, by obligation. -/
def outstandingRows (input : Json) : List (JsString × ℕ) :=
  (input.get "obligations").items.map fun row =>
    (stringOf (row.get "obligationId"), bigInt (row.get "outstandingMinor"))

/-- The outstanding amounts of an input, in the order of `allocationOrder`. -/
def outstandingInOrder (input : Json) : List (JsString × ℕ) :=
  (input.get "allocationOrder").items.map fun id =>
    (stringOf id, (InsertionMap.lookup (stringOf id) (outstandingRows input)).getD 0)

/-- What an obligation is allocated. -/
def allocatedTo (allocations : List (JsString × ℕ)) (id : JsString) : ℕ :=
  ((allocations.filter fun row => row.1 = id).map Prod.snd).sum

/-- An amount is allocated to outstanding obligations one after the other. -/
structure Waterfall (total : ℕ) (outstanding : List (JsString × ℕ)) (result : SettlementAllocation) : Prop where
  conserved : (result.allocations.map Prod.snd).sum + result.creditMinor = total
  named : ∀ row ∈ result.allocations, row.1 ∈ outstanding.map Prod.fst
  bounded : ∀ row ∈ outstanding, allocatedTo result.allocations row.1 ≤ row.2
  /-- An obligation receives money only if every earlier one is paid in full. -/
  inOrder : outstanding.Pairwise fun earlier later =>
    0 < allocatedTo result.allocations later.1 → allocatedTo result.allocations earlier.1 = earlier.2
  /-- Credit is left only if every obligation is paid in full. -/
  credit : 0 < result.creditMinor → ∀ row ∈ outstanding, allocatedTo result.allocations row.1 = row.2

/-! ### The loop -/

section Loop

variable {allocations : List (JsString × ℕ)} {id other : JsString} {amount : ℕ}

/-- The allocations with one more in front, unless it is empty. -/
theorem sum_cons_allocation :
    ((if amount > 0 then (id, amount) :: allocations else allocations).map Prod.snd).sum =
      amount + (allocations.map Prod.snd).sum := by
  split
  · rw [List.map_cons, List.sum_cons]
  · omega

theorem allocatedTo_cons_of_ne (h : id ≠ other) :
    allocatedTo (if amount > 0 then (id, amount) :: allocations else allocations) other =
      allocatedTo allocations other := by
  split
  · rw [allocatedTo, List.filter_cons_of_neg (by simpa using h), allocatedTo]
  · rfl

theorem allocatedTo_of_notMem (h : id ∉ allocations.map Prod.fst) : allocatedTo allocations id = 0 := by
  have hnone : (allocations.filter fun row => row.1 = id) = [] :=
    List.filter_eq_nil_iff.mpr fun row hrow hid => h (List.mem_map.mpr ⟨row, hrow, by simpa using hid⟩)
  rw [allocatedTo, hnone, List.map_nil, List.sum_nil]

theorem allocatedTo_cons_self (h : id ∉ allocations.map Prod.fst) :
    allocatedTo (if amount > 0 then (id, amount) :: allocations else allocations) id = amount := by
  have hnone : ((allocations.filter fun row => row.1 = id).map Prod.snd).sum = 0 := allocatedTo_of_notMem h
  split
  · rw [allocatedTo, List.filter_cons_of_pos (by simp), List.map_cons, List.sum_cons, hnone, Nat.add_zero]
  · rw [allocatedTo_of_notMem h]
    omega

theorem allocatedTo_le_sum (allocations : List (JsString × ℕ)) (id : JsString) :
    allocatedTo allocations id ≤ (allocations.map Prod.snd).sum :=
  (List.filter_sublist.map Prod.snd).sum_le_sum fun _ _ => Nat.zero_le _

end Loop

/-- The loop over `allocationOrder` is a waterfall over the amounts it looks up. -/
theorem settleInOrder_waterfall (rows : InsertionMap JsString ℕ) (remaining : ℕ) {ids : List JsString}
    (hn : ids.Nodup) : Waterfall remaining (ids.map fun id => (id, (rows.get? id).getD 0))
      ⟨(settleInOrder rows remaining ids).1, (settleInOrder rows remaining ids).2⟩ := by
  induction ids generalizing remaining with
  | nil => exact ⟨by simp [settleInOrder], by simp [settleInOrder], by simp, List.Pairwise.nil, by simp⟩
  | cons id ids ih =>
    rw [List.nodup_cons] at hn
    obtain ⟨hid, hn⟩ := hn
    set available := (rows.get? id).getD 0 with havailable
    set amount := if available < remaining then available else remaining with hamount
    have hstep : settleInOrder rows remaining (id :: ids) =
        (if amount > 0 then (id, amount) :: (settleInOrder rows (remaining - amount) ids).1
          else (settleInOrder rows (remaining - amount) ids).1,
        (settleInOrder rows (remaining - amount) ids).2) := rfl
    have hrest := ih (remaining - amount) hn
    rw [hstep]
    generalize (settleInOrder rows (remaining - amount) ids).1 = allocations at hrest ⊢
    generalize (settleInOrder rows (remaining - amount) ids).2 = left at hrest ⊢
    have hconserved := hrest.conserved
    simp only at hconserved
    have hlist : allocations.map Prod.fst ⊆ ids := by
      intro other hother
      obtain ⟨row, hrow, rfl⟩ := List.mem_map.mp hother
      simpa using hrest.named row hrow
    have hnew : id ∉ allocations.map Prod.fst := fun h => hid (hlist h)
    have hother : ∀ row ∈ ids.map (fun id => (id, (rows.get? id).getD 0)), id ≠ row.1 := by
      rintro row hrow rfl
      obtain ⟨other, hmem, rfl⟩ := List.mem_map.mp hrow
      exact hid hmem
    have hle : amount ≤ available ∧ amount ≤ remaining := by
      rw [hamount]
      split <;> omega
    -- what is left over this obligation is left because it is paid in full
    have hfull (h : 0 < remaining - amount) : amount = available := by
      rw [hamount] at h ⊢
      split at h <;> simp_all
    refine ⟨?_, ?_, ?_, ?_, ?_⟩
    · simp only [sum_cons_allocation]
      omega
    · intro row hrow
      rw [List.map_cons, List.map_cons, List.mem_cons]
      simp only at hrow
      split at hrow
      · rcases List.mem_cons.mp hrow with rfl | hrow
        · exact .inl rfl
        · exact .inr (hrest.named row hrow)
      · exact .inr (hrest.named row hrow)
    · intro row hrow
      rcases List.mem_cons.mp hrow with rfl | hrow
      · simpa only [allocatedTo_cons_self hnew] using hle.1
      · simpa only [allocatedTo_cons_of_ne (hother row hrow)] using hrest.bounded row hrow
    · refine List.pairwise_cons.mpr ⟨fun later hlater hpaid => ?_, ?_⟩
      · simp only [allocatedTo_cons_of_ne (hother later hlater)] at hpaid
        have hsum := allocatedTo_le_sum allocations later.1
        simpa only [allocatedTo_cons_self hnew] using hfull (by omega)
      · refine hrest.inOrder.imp_of_mem fun {earlier later} hearlier hlater h => ?_
        simpa only [allocatedTo_cons_of_ne (hother _ hearlier), allocatedTo_cons_of_ne (hother _ hlater)] using h
    · intro hleft row hrow
      rcases List.mem_cons.mp hrow with rfl | hrow
      · simpa only [allocatedTo_cons_self hnew] using hfull (by simp only at hleft; omega)
      · simpa only [allocatedTo_cons_of_ne (hother row hrow)] using hrest.credit hleft row hrow

/-! ### The input -/

theorem obligationRow_eq_ok {rows rows' : InsertionMap JsString ℕ} {entry : Json × ℕ}
    (h : obligationRow rows entry = .ok rows') :
    stringOf (entry.1.get "obligationId") ∉ rows.keys ∧
      rows' = rows.set (stringOf (entry.1.get "obligationId")) (bigInt (entry.1.get "outstandingMinor")) := by
  simp only [obligationRow, ↓failIf_bind_eq_ok, bind_eq_ok, pure_eq_ok, Except.ok.injEq] at h
  obtain ⟨-, -, id, hid, hnew, outstanding, houtstanding, rfl⟩ := h
  obtain ⟨text, htext, -, -, hvalue, -⟩ := amount_eq_ok.mp houtstanding
  rw [(member_eq_ok.mp hid).1, htext]
  exact ⟨hnew, by rw [stringOf, bigInt, hvalue]⟩

/-- The rows are the outstanding amounts of the input. -/
theorem entries_of_obligationRows {input : Json} {rows : InsertionMap JsString ℕ}
    (h : (input.get "obligations").items.zipIdx.foldlM obligationRow .empty = .ok rows) :
    rows.entries = outstandingRows input := by
  rw [entries_of_foldlM_set (fun e : Json × ℕ => stringOf (e.1.get "obligationId"))
    (fun e => bigInt (e.1.get "outstandingMinor")) (fun _ _ _ _ => obligationRow_eq_ok) h,
    InsertionMap.entries_empty, List.nil_append, outstandingRows]
  conv_rhs => rw [← List.zipIdx_map_fst 0 (input.get "obligations").items]
  rw [List.map_map]
  rfl

/-- What a successful allocation has checked, and what it returns. -/
theorem allocateSettlement_eq_ok {input : Json} {result : SettlementAllocation}
    (h : allocateSettlement input = .ok result) :
    ∃ total rows ids, amount (input.get "amountMinor") "amountMinor" MAX_EXPENSE_MINOR true = .ok total ∧
      (input.get "obligations").items.zipIdx.foldlM obligationRow .empty = .ok rows ∧
      order (input.get "allocationOrder") rows.keys "allocationOrder" = .ok ids ∧
      result = ⟨(settleInOrder rows total ids).1, (settleInOrder rows total ids).2⟩ := by
  simp only [allocateSettlement, bind_eq_ok, pure_eq_ok, Except.ok.injEq] at h
  obtain ⟨-, -, total, htotal, -, -, rows, hrows, ids, hids, rfl⟩ := h
  exact ⟨total, rows, ids, htotal, hrows, hids, rfl⟩

/-- Whatever either implementation accepts, it allocates as a waterfall: the outstanding amounts are those that the
input states, in the order of `allocationOrder`. -/
theorem settlement_waterfall (twin : Twin) (input output : Json) (h : twin.allocateSettlement input = .ok output) :
    ∃ result, output = SettlementAllocation.toJson result ∧
      (outstandingInOrder input).Perm (outstandingRows input) ∧
      Waterfall (bigInt (input.get "amountMinor")) (outstandingInOrder input) result := by
  have hjavascript : twin.allocateSettlement input =
      (SharedExpenses.allocateSettlement input).map SettlementAllocation.toJson := by
    cases twin with
    | javascript => rfl
    | dart => exact (Dart.allocateSettlement_eq input).trans (Twin.bind_pure_eq_map _ _)
  rw [hjavascript] at h
  cases hresult : allocateSettlement input with
  | error e =>
    rw [hresult] at h
    cases h
  | ok result =>
    rw [hresult] at h
    cases h
    obtain ⟨total, rows, ids, htotal, hrows, hids, rfl⟩ := allocateSettlement_eq_ok hresult
    obtain ⟨text, htext, -, -, hvalue, -⟩ := amount_eq_ok.mp htotal
    obtain ⟨hitems, hlength, hn, hmem⟩ := order_eq_ok.mp hids
    have hentries := entries_of_obligationRows hrows
    have hlookup : outstandingInOrder input = ids.map fun id => (id, (rows.get? id).getD 0) := by
      rw [outstandingInOrder, hitems, Json.items, List.map_map, ← hentries]
      rfl
    refine ⟨_, rfl, ?_, ?_⟩
    · have hperm : ids.Perm rows.keys :=
        (List.subperm_of_subset hn hmem).perm_of_length_le hlength.ge
      rw [hlookup, ← hentries]
      refine (hperm.map _).trans (List.Perm.of_eq ?_)
      rw [InsertionMap.keys, List.map_map]
      refine (List.map_congr_left fun e he => ?_).trans (List.map_id _)
      rw [Function.comp_apply, InsertionMap.get?_eq_some_iff.mpr he, Option.getD_some, id]
    · rw [hlookup, htext, bigInt, hvalue]
      exact settleInOrder_waterfall rows total hn

/-- 700 paise against outstanding amounts of 500 and 300, the second first. -/
def settlementOf700 : Json :=
  object [("amountMinor", minor 700),
    ("obligations", .arr [
      object [("obligationId", text "a"), ("outstandingMinor", minor 500)],
      object [("obligationId", text "b"), ("outstandingMinor", minor 300)]]),
    ("allocationOrder", .arr [text "b", text "a"])]

theorem settlement_waterfall_700 : ∃ result, SettlementAllocation.toJson ⟨[(js "b", 300), (js "a", 400)], 0⟩ =
      SettlementAllocation.toJson result ∧
    (outstandingInOrder settlementOf700).Perm (outstandingRows settlementOf700) ∧
    Waterfall (bigInt (settlementOf700.get "amountMinor")) (outstandingInOrder settlementOf700) result :=
  settlement_waterfall .dart settlementOf700 _ rfl

end PandaPay.SharedExpenses
