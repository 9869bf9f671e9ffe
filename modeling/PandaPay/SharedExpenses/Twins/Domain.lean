import PandaPay.SharedExpenses.Dart.Domain

/-!
# The two domains agree

Every function of the Dart domain gives, on every JSON input, the result of its JavaScript twin:
the same value or the same error, its field path included.

## Main results

* `allocateSharedExpense_eq`: the two allocations agree
* `projected_eq`, `projectSharedExpense_eq`: the two projections agree
-/

namespace PandaPay.SharedExpenses.Dart

/-! ### Field checks -/

theorem record_eq (value : Json) (keys : List String) (field : String) (code : ErrorCode)
    (optional : List String) :
    Dart.record value keys field code optional =
      SharedExpenses.record value keys field code optional := by
  cases value with
  | obj fields =>
    refine failIf_congr (or_congr Iff.rfl ?_) _
    simp only [List.map_append, List.contains_append, Bool.not_or]
  | _ => rfl

theorem amount_eq (value : Json) (field : String) (max : Option ℕ) (positive : Bool)
    (overflow : ErrorCode) :
    Dart.amount value field max positive overflow =
      SharedExpenses.amount value field (max.getD maxExpenseMinor) positive overflow := by
  cases value <;> rfl

theorem member_eq (value : Json) (field : String) :
    Dart.member value field = SharedExpenses.member value field := by
  cases value <;> rfl

theorem currency_eq (value : Json) : Dart.currency value = SharedExpenses.currency value := rfl

/-- The Dart check also hands on the list it has checked. -/
theorem count_eq (value : Json) (max : ℕ) (code : ErrorCode) (field : String) :
    Dart.count value max code field =
      (SharedExpenses.count value max code field >>= fun _ => pure value.items) := by
  cases value with
  | arr items =>
    have h : items = [] ∨ items.length > max ↔ items.length < 1 ∨ items.length > max := by
      rw [Nat.lt_one_iff, List.length_eq_zero_iff]
    exact congrArg (· >>= fun _ => pure items) (failIf_congr h _)
  | _ => rfl

/-- The Dart check hands on the rank map of the list the JavaScript one returns. -/
theorem order_eq (value : Json) (members : List JsString) (field : String) :
    Dart.order value members field =
      (SharedExpenses.order value members field >>= fun ids => pure (ranksOf ids)) := by
  cases value with
  | arr items =>
    simp only [Dart.order, SharedExpenses.order]
    cases Json.strings? items with
    | none => rfl
    | some ids =>
      simp only [bind_assoc, pure_bind]
      refine congrArg (· >>= fun _ => pure (ranksOf ids)) (failIf_congr ?_ _)
      refine or_congr Iff.rfl (or_congr (not_congr ⟨fun h => ?_, fun h => ?_⟩) Iff.rfl)
      · exact List.dedup_eq_self.mp (List.Sublist.eq_of_length (List.dedup_sublist ids) h)
      · rw [List.dedup_eq_self.mpr h]
  | _ => rfl

theorem castStrings_map_str (ids : List JsString) : castStrings (.arr (ids.map .str)) = ids := by
  simp [castStrings, Json.items, Json.strings?_map_str]

theorem get?_foldl_ranks (ids : List JsString) (k : ℕ) (ranks : InsertionMap JsString ℕ)
    (hn : ids.Nodup) (id : JsString) :
    ((ids.zipIdx k).foldl (fun ranks entry => ranks.set entry.1 entry.2) ranks).get? id =
      if id ∈ ids then some (k + ids.idxOf id) else ranks.get? id := by
  induction ids generalizing k ranks with
  | nil => simp
  | cons x xs ih =>
    rw [List.nodup_cons] at hn
    rw [List.zipIdx_cons, List.foldl_cons, ih (k + 1) _ hn.2, InsertionMap.get?_set]
    by_cases hx : id = x
    · subst hx
      simp [hn.1]
    · have hx' : x ≠ id := fun h => hx h.symm
      simp only [List.mem_cons, hx, false_or, if_false, List.idxOf_cons_ne _ hx']
      split
      · exact congrArg some (by omega)
      · rfl

/-- A rank is a position. -/
theorem get?_ranksOf {ids : List JsString} (hn : ids.Nodup) {id : JsString} (h : id ∈ ids) :
    (ranksOf ids).get? id = some (ids.idxOf id) := by
  rw [ranksOf, get?_foldl_ranks ids 0 .empty hn id, if_pos h, zero_add]

/-! ### Allocation -/

theorem allocationRow_eq (mode : Json) (ids : List JsString) (result : List AllocationRow)
    (row : Json) (index : ℕ) :
    Dart.allocationRow mode (ids, result) (row, index) =
      (SharedExpenses.allocationRow mode ids index row >>= fun first =>
        pure (ids ++ [first.id], result ++ [first])) := by
  simp only [Dart.allocationRow, SharedExpenses.allocationRow, record_eq, member_eq, amount_eq,
    bind_assoc, Option.getD_none]
  refine congrArg _ (funext fun _ => congrArg _ (funext fun id => congrArg _ (funext fun _ => ?_)))
  split
  · simp only [bind_assoc, pure_bind]
    rfl
  · split
    · rfl
    · cases row.get "weight" <;> simp only [bind_assoc, pure_bind, error_bind]

theorem foldlM_allocationRow (mode : Json) (rows : List Json) (index : ℕ) (ids : List JsString)
    (result : List AllocationRow) :
    ((rows.zipIdx index).foldlM (Dart.allocationRow mode) (ids, result) >>= fun acc =>
        pure acc.2 : Checked (List AllocationRow)) =
      (SharedExpenses.allocationRowsFrom mode ids index rows >>= fun rest =>
        pure (result ++ rest)) := by
  induction rows generalizing index ids result with
  | nil => simp [SharedExpenses.allocationRowsFrom]
  | cons row rows ih =>
    rw [List.zipIdx_cons, List.foldlM_cons, allocationRow_eq]
    simp only [SharedExpenses.allocationRowsFrom, bind_assoc, pure_bind]
    refine congrArg _ (funext fun first => ?_)
    rw [ih (index + 1) (ids ++ [first.id]) (result ++ [first])]
    simp only [List.append_assoc, List.singleton_append]

theorem allocationRows_eq (input : Json) :
    Dart.allocationRows input = SharedExpenses.allocationRows input := by
  simp only [Dart.allocationRows, SharedExpenses.allocationRows, count_eq, bind_assoc, pure_bind]
  refine congrArg _ (funext fun _ => ?_)
  rw [foldlM_allocationRow]
  simp

/-- A row with one unit more. -/
def plusOne (row : Calculated) : Calculated := { row with value := row.value + 1 }

theorem getElem?_addOneEach (n : ℕ) (rows : List Calculated) (i : ℕ) :
    (addOneEach n rows)[i]? = if i < n then rows[i]?.map plusOne else rows[i]? := by
  induction n generalizing rows i with
  | zero => simp [addOneEach]
  | succ n ih =>
    cases rows with
    | nil => simp [addOneEach]
    | cons row rows =>
      cases i with
      | zero => simp [addOneEach, plusOne]
      | succ i => simp [addOneEach, ih]

theorem getElem?_foldl_addOne (n : ℕ) (rows : List Calculated) (i : ℕ) :
    ((List.range n).foldl addOne rows)[i]? =
      if i < n then rows[i]?.map plusOne else rows[i]? := by
  induction n with
  | zero => simp
  | succ n ih =>
    rw [List.range_succ, List.foldl_append, List.foldl_cons, List.foldl_nil, addOne,
      List.getElem?_modify, ih]
    rcases lt_trichotomy i n with h | rfl | h
    · simp [h, h.ne', Nat.lt_succ_of_lt h]
    · simp only [lt_irrefl, if_false, if_true, Nat.lt_succ_self]
      rfl
    · have hn : ¬ i < n := h.not_gt
      have hs : ¬ i < n + 1 := by omega
      simp [hn, hs, h.ne]

/-- Adding one at each of the first `n` indices is adding one to each of the first `n` rows. -/
theorem foldl_addOne (n : ℕ) (rows : List Calculated) :
    (List.range n).foldl addOne rows = addOneEach n rows :=
  List.ext_getElem? fun i => by rw [getElem?_foldl_addOne, getElem?_addOneEach]

/-- On ranked members the two comparators agree. -/
theorem before_iff {ids : List JsString} (hn : ids.Nodup) {a b : Calculated} (ha : a.id ∈ ids)
    (hb : b.id ∈ ids) : Dart.before (ranksOf ids) a b ↔ Calculated.before ids a b := by
  unfold Dart.before Calculated.before
  split
  · rw [get?_ranksOf hn ha, get?_ranksOf hn hb, Option.getD_some, Option.getD_some]
  · rename_i h
    exact ⟨fun hba => lt_of_le_of_ne hba fun he => h he.symm, le_of_lt⟩

theorem insertionSort_before {ids : List JsString} (hn : ids.Nodup) {rows : List Calculated}
    (h : ∀ row ∈ rows, row.id ∈ ids) :
    rows.insertionSort (Dart.before (ranksOf ids)) = rows.insertionSort (Calculated.before ids) := by
  have := List.map_insertionSort (Dart.before (ranksOf ids)) (Calculated.before ids) id rows
    fun a ha b hb => before_iff hn (h a ha) (h b hb)
  simpa using this

/-- A tie order lists every row's id. -/
theorem mem_of_order {value : Json} {members ids : List JsString} {field : String}
    (h : SharedExpenses.order value members field = .ok ids) : ∀ id ∈ members, id ∈ ids := by
  obtain ⟨-, hl, hi, hm⟩ := order_eq_ok.mp h
  have hp : ids.Subperm members := List.subperm_of_subset hi hm
  exact fun id hid => ((hp.perm_of_length_le hl.ge).mem_iff).mpr hid

theorem foldl_add_eq_sum (values : List ℕ) : values.foldl (· + ·) 0 = values.sum :=
  List.sum_eq_foldl.symm

theorem foldl_value {α : Type} (rows : List α) (f : α → ℕ) :
    rows.foldl (fun s row => s + f row) 0 = (rows.map f).sum := by
  rw [List.sum_eq_foldl, List.foldl_map]

/-- The two allocations agree on every input. -/
theorem allocateSharedExpense_eq (input : Json) :
    Dart.allocateSharedExpense input =
      (SharedExpenses.allocateExpense input >>= fun result => pure result.toJson) := by
  simp only [Dart.allocateSharedExpense, SharedExpenses.allocateExpense, record_eq, currency_eq,
    amount_eq, allocationRows_eq, order_eq, bind_assoc, pure_bind, Option.getD_none]
  refine congrArg _ (funext fun _ => congrArg _ (funext fun _ => congrArg _ (funext fun total =>
    congrArg _ (funext fun _ => congrArg _ (funext fun rows => ?_)))))
  refine bind_congr_of_ok fun ids hids => ?_
  have hid : ∀ row ∈ rows, row.id ∈ ids := fun row hrow =>
    mem_of_order hids _ (List.mem_map_of_mem hrow)
  have hn : ids.Nodup := (order_eq_ok.mp hids).2.2.1
  simp only [foldl_value]
  split
  · simp only [bind_assoc, pure_bind]
    refine congrArg _ (funext fun _ => congrArg pure ?_)
    simp only [Allocation.toJson, List.map_map]
    rfl
  · simp only [bind_assoc, pure_bind]
    refine congrArg _ (funext fun _ => congrArg pure ?_)
    rw [foldl_addOne, insertionSort_before hn]
    · simp only [Allocation.toJson, List.map_map]
      rfl
    · intro row hrow
      obtain ⟨r, hr, rfl⟩ := List.mem_map.mp hrow
      exact hid r hr

/-! ### Projection -/

theorem moneyRow_eq (field : String) :
    Dart.moneyRow field = SharedExpenses.moneyRow field := by
  funext result entry
  simp only [Dart.moneyRow, SharedExpenses.moneyRow, record_eq, member_eq, amount_eq,
    Option.getD_none]
  rfl

theorem moneyRows_eq (value : Json) (field : String) (max : ℕ) (code : ErrorCode) :
    Dart.moneyRows value field max code = SharedExpenses.moneyRows value field max code := by
  simp only [Dart.moneyRows, SharedExpenses.moneyRows, count_eq, moneyRow_eq, bind_assoc,
    pure_bind]

theorem foldl_split (balance : JsString → ℤ) (ids : List JsString)
    (creditors debtors : List (JsString × ℤ)) :
    ids.foldl (fun (creditors, debtors) id =>
        (if balance id > 0 then creditors ++ [(id, balance id)] else creditors,
          if balance id < 0 then debtors ++ [(id, -balance id)] else debtors))
        (creditors, debtors) =
      (creditors ++ (ids.filter fun id => balance id > 0).map fun id => (id, balance id),
        debtors ++ (ids.filter fun id => balance id < 0).map fun id => (id, -balance id)) := by
  induction ids generalizing creditors debtors with
  | nil => simp
  | cons id ids ih =>
    rw [List.foldl_cons, ih]
    by_cases hp : balance id > 0
    · have hq : ¬ balance id < 0 := by omega
      simp [hp, hq]
    · by_cases hq : balance id < 0 <;> simp [hp, hq]

/-- Pushing onto two lists is filtering twice. -/
theorem splitByBalance_eq (balance : JsString → ℤ) (ids : List JsString) :
    splitByBalance balance ids =
      ((ids.filter fun id => balance id > 0).map fun id => (id, balance id),
        (ids.filter fun id => balance id < 0).map fun id => (id, -balance id)) := by
  rw [splitByBalance, foldl_split, List.nil_append, List.nil_append]

theorem getElem?_of_drop {α : Type} {l rest : List α} {i : ℕ} {a : α}
    (h : l.drop i = a :: rest) : l[i]? = some a := by
  have := congrArg (·[0]?) h
  simpa using this

/-- Updating a row in place and moving on if it is closed. -/
theorem drop_set_step {α : Type} {l rest : List α} {i : ℕ} {a : α} (p : Prop) [Decidable p]
    (b : α) (h : l.drop i = a :: rest) :
    (l.set i b).drop (if p then i + 1 else i) = if p then rest else b :: rest := by
  split
  · rw [List.drop_set, if_pos (Nat.lt_succ_self i), ← List.drop_drop, h, List.drop_one,
      List.tail_cons]
  · rw [List.drop_set, if_neg (lt_irrefl i), h, Nat.sub_self, List.set_cons_zero]

/-- The loop over indices runs as the loop that consumes the lists. -/
theorem obligationLoop_eq (passes : ℕ) (debtors creditors : List (JsString × ℤ)) (d c : ℕ) :
    Dart.obligationLoop passes debtors creditors d c =
      SharedExpenses.obligationLoop passes (debtors.drop d) (creditors.drop c) := by
  induction passes generalizing debtors creditors d c with
  | zero => rfl
  | succ passes ih =>
    cases hd : debtors.drop d with
    | nil =>
      have : debtors[d]? = none := List.getElem?_eq_none (List.drop_eq_nil_iff.mp hd)
      simp only [Dart.obligationLoop, this, SharedExpenses.obligationLoop]
    | cons debit ds =>
      cases hc : creditors.drop c with
      | nil =>
        have : creditors[c]? = none := List.getElem?_eq_none (List.drop_eq_nil_iff.mp hc)
        simp only [Dart.obligationLoop, this, SharedExpenses.obligationLoop]
        split <;> simp_all
      | cons credit cs =>
        simp only [Dart.obligationLoop, getElem?_of_drop hd, getElem?_of_drop hc,
          SharedExpenses.obligationLoop, ih, drop_set_step _ _ hd, drop_set_step _ _ hc]

/-- The two projections agree on every input. -/
theorem projected_eq (input : Json) : Dart.projected input = SharedExpenses.projectExpense input := by
  simp only [Dart.projected, SharedExpenses.projectExpense, record_eq, currency_eq, amount_eq,
    moneyRows_eq, order_eq, bind_assoc, pure_bind, Option.getD_none, foldl_add_eq_sum]
  refine congrArg _ (funext fun _ => congrArg _ (funext fun _ => congrArg _ (funext fun total =>
    congrArg _ (funext fun paid => congrArg _ (funext fun shares => congrArg _ (funext fun _ =>
      congrArg _ (funext fun _ => ?_)))))))
  refine bind_congr_of_ok fun ids hids => ?_
  rw [(order_eq_ok.mp hids).1, castStrings_map_str, splitByBalance_eq]
  simp only [obligationLoop_eq, List.drop_zero]
  rfl

theorem projectSharedExpense_eq (input : Json) :
    Dart.projectSharedExpense input =
      (SharedExpenses.projectExpense input >>= fun result => pure result.toJson) := by
  rw [Dart.projectSharedExpense, projected_eq]
  rfl

end PandaPay.SharedExpenses.Dart
