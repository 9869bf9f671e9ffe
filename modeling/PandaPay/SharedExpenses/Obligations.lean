import PandaPay.Library.IndexBy
import PandaPay.SharedExpenses.Bill
import PandaPay.SharedExpenses.Domain
import PandaPay.SharedExpenses.Twins

/-!
# Obligations and balances

The obligations of a projection pay every balance of the expense exactly. The two pointers run to the end of both
lists, because what the debtors owe is what the creditors are owed.

## Main definitions

* `balanceIn`: the balance of a member, read off the input
* `obligationRest`, `Dart.obligationRest`: the rows that the loops leave over
* `Realises`: obligations that pay balances

## Main results

* `obligationLoop_settles`: the loop pays the debtors and the creditors exactly
* `obligations_realise_balances`: the obligations of a projection pay its balances
-/

namespace PandaPay.SharedExpenses

/-! ### Balances of an input -/

/-- The money rows of a field of an input. -/
def amountRows (rows : Json) : List (JsString × ℕ) :=
  rows.items.map fun row => (stringOf (row.get "memberId"), bigInt (row.get "amountMinor"))

/-- What a member paid less its share. -/
def balanceIn (input : Json) (id : JsString) : ℤ :=
  ((InsertionMap.lookup id (amountRows (input.get "contributions"))).getD 0 : ℤ) -
    ((InsertionMap.lookup id (amountRows (input.get "shares"))).getD 0 : ℤ)

/-- The members of an input, in the order of `memberOrder`. -/
def membersIn (input : Json) : List JsString := (input.get "memberOrder").items.map stringOf

/-- The members that owe, with what they owe. -/
def debtorsIn (input : Json) : List (JsString × ℤ) :=
  ((membersIn input).filter fun id => balanceIn input id < 0).map fun id => (id, -balanceIn input id)

/-- The members that are owed, with what they are owed. -/
def creditorsIn (input : Json) : List (JsString × ℤ) :=
  ((membersIn input).filter fun id => balanceIn input id > 0).map fun id => (id, balanceIn input id)

/-- The rows still open when the loop over debtors and creditors ends. -/
def obligationRest : ℕ → List (JsString × ℤ) → List (JsString × ℤ) →
    List (JsString × ℤ) × List (JsString × ℤ)
  | passes + 1, debit :: debtors, credit :: creditors =>
    let amount := if debit.2 < credit.2 then debit.2 else credit.2
    let debit' := (debit.1, debit.2 - amount)
    let credit' := (credit.1, credit.2 - amount)
    obligationRest passes (if debit'.2 = 0 then debtors else debit' :: debtors)
      (if credit'.2 = 0 then creditors else credit' :: creditors)
  | _, debtors, creditors => (debtors, creditors)

/-- The rows that the indices `d` and `c` have not passed when the loop ends. -/
def Dart.obligationRest : ℕ → List (JsString × ℤ) → List (JsString × ℤ) → ℕ → ℕ →
    List (JsString × ℤ) × List (JsString × ℤ)
  | passes + 1, debtors, creditors, d, c =>
    match debtors[d]?, creditors[c]? with
    | some debit, some credit =>
      let amount := if debit.2 < credit.2 then debit.2 else credit.2
      let debtors := debtors.set d (debit.1, debit.2 - amount)
      let creditors := creditors.set c (credit.1, credit.2 - amount)
      Dart.obligationRest passes debtors creditors
        (if debit.2 - amount = 0 then d + 1 else d) (if credit.2 - amount = 0 then c + 1 else c)
    | _, _ => (debtors.drop d, creditors.drop c)
  | 0, debtors, creditors, d, c => (debtors.drop d, creditors.drop c)

/-- What a member owes. -/
def owedBy (obligations : List Obligation) (id : JsString) : ℤ :=
  ((obligations.filter fun o => o.debtorId = id).map (·.amountMinor)).sum

/-- What a member is owed. -/
def owedTo (obligations : List Obligation) (id : JsString) : ℤ :=
  ((obligations.filter fun o => o.creditorId = id).map (·.amountMinor)).sum

/-- Obligations pay the balances of members exactly. -/
structure Realises (members : List JsString) (balance : JsString → ℤ) (obligations : List Obligation) : Prop where
  positive : ∀ o ∈ obligations, 0 < o.amountMinor
  parties : ∀ o ∈ obligations, o.debtorId ∈ members ∧ o.creditorId ∈ members
  distinct : ∀ o ∈ obligations, o.debtorId ≠ o.creditorId
  /-- An ordered pair occurs once. -/
  once : (obligations.map fun o => (o.debtorId, o.creditorId)).Nodup
  few : obligations.length ≤
    (members.filter fun id => balance id < 0).length + (members.filter fun id => balance id > 0).length - 1
  nobody : (∀ id ∈ members, ¬ balance id < 0) → obligations = []
  debtors : ∀ id ∈ members, balance id < 0 → owedBy obligations id = -balance id
  creditors : ∀ id ∈ members, balance id > 0 → owedTo obligations id = balance id

/-! ### The loop -/

section Loop

variable {obligations : List Obligation} {o : Obligation} {id : JsString}

theorem owedBy_cons : owedBy (o :: obligations) id =
    (if o.debtorId = id then o.amountMinor else 0) + owedBy obligations id := by
  by_cases h : o.debtorId = id <;> simp [owedBy, h]

theorem owedTo_cons : owedTo (o :: obligations) id =
    (if o.creditorId = id then o.amountMinor else 0) + owedTo obligations id := by
  by_cases h : o.creditorId = id <;> simp [owedTo, h]

theorem owedBy_of_forall_ne (h : ∀ o ∈ obligations, o.debtorId ≠ id) : owedBy obligations id = 0 := by
  have hnone : obligations.filter (fun o => o.debtorId = id) = [] :=
    List.filter_eq_nil_iff.mpr fun o ho => by simpa using h o ho
  rw [owedBy, hnone, List.map_nil, List.sum_nil]

theorem owedTo_of_forall_ne (h : ∀ o ∈ obligations, o.creditorId ≠ id) : owedTo obligations id = 0 := by
  have hnone : obligations.filter (fun o => o.creditorId = id) = [] :=
    List.filter_eq_nil_iff.mpr fun o ho => by simpa using h o ho
  rw [owedTo, hnone, List.map_nil, List.sum_nil]

/-- Obligations between debtors and creditors that pay each its amount. -/
structure Settles (debtors creditors : List (JsString × ℤ)) (obligations : List Obligation) : Prop where
  positive : ∀ o ∈ obligations, 0 < o.amountMinor
  once : (obligations.map fun o => (o.debtorId, o.creditorId)).Nodup
  few : obligations.length ≤ debtors.length + creditors.length - 1
  debtors : ∀ row ∈ debtors, owedBy obligations row.1 = row.2
  creditors : ∀ row ∈ creditors, owedTo obligations row.1 = row.2

/-- Rows with positive amounts and different ids. -/
structure OpenRows (rows : List (JsString × ℤ)) : Prop where
  positive : ∀ row ∈ rows, 0 < row.2
  nodup : (rows.map Prod.fst).Nodup

/-- The rows after part of the first is paid. -/
def payFirst (amount : ℤ) (row : JsString × ℤ) (rows : List (JsString × ℤ)) : List (JsString × ℤ) :=
  if row.2 - amount = 0 then rows else (row.1, row.2 - amount) :: rows

section PayFirst

variable {amount : ℤ} {row : JsString × ℤ} {rows : List (JsString × ℤ)}

theorem OpenRows.payFirst (h : OpenRows (row :: rows)) (hle : amount ≤ row.2) :
    OpenRows (payFirst amount row rows) := by
  obtain ⟨hpositive, hn⟩ := h
  have hrest : OpenRows rows :=
    ⟨fun r hr => hpositive r (List.mem_cons_of_mem _ hr), (List.nodup_cons.mp hn).2⟩
  rw [SharedExpenses.payFirst]
  split
  · exact hrest
  · refine ⟨fun r hr => ?_, hn⟩
    rcases List.mem_cons.mp hr with rfl | hr
    · simp only
      omega
    · exact hrest.positive r hr

theorem sum_payFirst :
    ((payFirst amount row rows).map Prod.snd).sum = ((row :: rows).map Prod.snd).sum - amount := by
  rw [payFirst]
  split <;> simp only [List.map_cons, List.sum_cons] <;> omega

/-- The first row is closed or stays. -/
theorem length_payFirst (amount : ℤ) (row : JsString × ℤ) (rows : List (JsString × ℤ)) : row.2 - amount = 0 ∧ (payFirst amount row rows).length = rows.length ∨
    row.2 - amount ≠ 0 ∧ (payFirst amount row rows).length = rows.length + 1 := by
  rw [payFirst]
  split
  · exact .inl ⟨‹_›, rfl⟩
  · exact .inr ⟨‹_›, rfl⟩

/-- A row that is closed is not met again. -/
theorem notMem_payFirst (hn : ((row :: rows).map Prod.fst).Nodup) (h : row.2 - amount = 0) :
    row.1 ∉ (payFirst amount row rows).map Prod.fst := by
  rw [payFirst, if_pos h]
  exact (List.nodup_cons.mp hn).1

/-- What is paid now and what is paid later make up the amounts. -/
theorem add_payFirst {later : JsString → ℤ} (hn : ((row :: rows).map Prod.fst).Nodup)
    (hzero : ∀ id ∉ (payFirst amount row rows).map Prod.fst, later id = 0)
    (h : ∀ r ∈ payFirst amount row rows, later r.1 = r.2) :
    ∀ r ∈ row :: rows, (if row.1 = r.1 then amount else 0) + later r.1 = r.2 := by
  intro r hr
  rcases List.mem_cons.mp hr with rfl | hr
  · rw [if_pos rfl]
    by_cases hclosed : r.2 - amount = 0
    · rw [hzero _ (notMem_payFirst hn hclosed)]
      omega
    · have hopen : (r.1, r.2 - amount) ∈ payFirst amount r rows := by
        rw [payFirst, if_neg hclosed]
        exact List.mem_cons_self
      rw [h _ hopen]
      omega
  · have hne : row.1 ≠ r.1 := fun heq =>
      (List.nodup_cons.mp hn).1 (heq ▸ List.mem_map_of_mem hr)
    have hmem : r ∈ payFirst amount row rows := by
      rw [payFirst]
      split
      · exact hr
      · exact List.mem_cons_of_mem _ hr
    rw [if_neg hne, zero_add, h r hmem]

end PayFirst

theorem OpenRows.eq_nil_of_sum {rows : List (JsString × ℤ)} (h : OpenRows rows)
    (hsum : (rows.map Prod.snd).sum = 0) : rows = [] := by
  cases rows with
  | nil => rfl
  | cons row rows =>
    have hrow := h.positive row List.mem_cons_self
    have hrest : 0 ≤ (rows.map Prod.snd).sum := List.sum_nonneg fun x hx => by
      obtain ⟨r, hr, rfl⟩ := List.mem_map.mp hx
      exact (h.positive r (List.mem_cons_of_mem _ hr)).le
    rw [List.map_cons, List.sum_cons] at hsum
    omega

theorem settles_nil : Settles [] [] [] :=
  ⟨by simp, by simp, by simp, by simp, by simp⟩

/-- One pass of the loop, which closes a row. -/
theorem Settles.cons {debit credit : JsString × ℤ} {ds cs : List (JsString × ℤ)} {amount : ℤ}
    (hd : OpenRows (debit :: ds)) (hc : OpenRows (credit :: cs)) (hpositive : 0 < amount)
    (hclosed : debit.2 - amount = 0 ∨ credit.2 - amount = 0)
    (hnames : ∀ o ∈ obligations, o.debtorId ∈ (payFirst amount debit ds).map Prod.fst ∧
      o.creditorId ∈ (payFirst amount credit cs).map Prod.fst)
    (h : Settles (payFirst amount debit ds) (payFirst amount credit cs) obligations) :
    Settles (debit :: ds) (credit :: cs) (⟨debit.1, credit.1, amount⟩ :: obligations) where
  positive := List.forall_mem_cons.mpr ⟨hpositive, h.positive⟩
  once := by
    refine List.nodup_cons.mpr ⟨fun hmem => ?_, h.once⟩
    obtain ⟨o, ho, heq⟩ := List.mem_map.mp hmem
    obtain ⟨hdebtor, hcreditor⟩ := Prod.mk.inj heq
    rcases hclosed with hclosed | hclosed
    · have hmem := (hnames o ho).1
      rw [show o.debtorId = debit.1 from hdebtor] at hmem
      exact notMem_payFirst hd.nodup hclosed hmem
    · have hmem := (hnames o ho).2
      rw [show o.creditorId = credit.1 from hcreditor] at hmem
      exact notMem_payFirst hc.nodup hclosed hmem
  few := by
    have hfew := h.few
    have hdebtors := length_payFirst amount debit ds
    have hcreditors := length_payFirst amount credit cs
    simp only [List.length_cons]
    omega
  debtors := by
    intro row hrow
    have hzero : ∀ id ∉ (payFirst amount debit ds).map Prod.fst, owedBy obligations id = 0 := fun id hid =>
      owedBy_of_forall_ne fun o ho heq => hid (heq ▸ (hnames o ho).1)
    rw [owedBy_cons]
    exact add_payFirst hd.nodup hzero h.debtors row hrow
  creditors := by
    intro row hrow
    have hzero : ∀ id ∉ (payFirst amount credit cs).map Prod.fst, owedTo obligations id = 0 := fun id hid =>
      owedTo_of_forall_ne fun o ho heq => hid (heq ▸ (hnames o ho).2)
    rw [owedTo_cons]
    exact add_payFirst hc.nodup hzero h.creditors row hrow

/-- With as much to pay as to receive, the loop pays everyone and leaves no row. -/
theorem obligationLoop_settles {passes : ℕ} {debtors creditors : List (JsString × ℤ)}
    (hd : OpenRows debtors) (hc : OpenRows creditors)
    (hsum : (debtors.map Prod.snd).sum = (creditors.map Prod.snd).sum)
    (hpasses : debtors.length + creditors.length ≤ passes) :
    Settles debtors creditors (obligationLoop passes debtors creditors) ∧
      obligationRest passes debtors creditors = ([], []) := by
  induction passes generalizing debtors creditors with
  | zero =>
    obtain rfl := List.length_eq_zero_iff.mp (by omega : debtors.length = 0)
    obtain rfl := List.length_eq_zero_iff.mp (by omega : creditors.length = 0)
    exact ⟨settles_nil, rfl⟩
  | succ passes ih =>
    match debtors, creditors with
    | [], creditors =>
      obtain rfl := hc.eq_nil_of_sum hsum.symm
      exact ⟨settles_nil, rfl⟩
    | debit :: ds, [] => exact absurd (hd.eq_nil_of_sum hsum) (List.cons_ne_nil _ _)
    | debit :: ds, credit :: cs =>
      set amount := if debit.2 < credit.2 then debit.2 else credit.2 with hamount
      have hstep : obligationLoop (passes + 1) (debit :: ds) (credit :: cs) = ⟨debit.1, credit.1, amount⟩ ::
        obligationLoop passes (payFirst amount debit ds) (payFirst amount credit cs) := rfl
      have hrest : obligationRest (passes + 1) (debit :: ds) (credit :: cs) =
        obligationRest passes (payFirst amount debit ds) (payFirst amount credit cs) := rfl
      have hle : amount ≤ debit.2 ∧ amount ≤ credit.2 ∧ (debit.2 - amount = 0 ∨ credit.2 - amount = 0) := by
        rw [hamount]
        split <;> omega
      have hpositive : 0 < amount := by
        have hdebit := hd.positive debit List.mem_cons_self
        have hcredit := hc.positive credit List.mem_cons_self
        rw [hamount]
        split <;> omega
      obtain ⟨hsettles, hend⟩ := ih (hd.payFirst hle.1) (hc.payFirst hle.2.1)
        (by rw [sum_payFirst, sum_payFirst, hsum]) (by
          have hdebtors := length_payFirst amount debit ds
          have hcreditors := length_payFirst amount credit cs
          simp only [List.length_cons] at hpasses
          omega)
      rw [hstep, hrest]
      exact ⟨hsettles.cons hd hc hpositive hle.2.2 fun o ho => mem_obligationLoop ho, hend⟩

end Loop

/-- The loop over indices leaves the rows that the loop that consumes the lists leaves. -/
theorem Dart.obligationRest_eq (passes : ℕ) (debtors creditors : List (JsString × ℤ)) (d c : ℕ) :
    Dart.obligationRest passes debtors creditors d c =
      SharedExpenses.obligationRest passes (debtors.drop d) (creditors.drop c) := by
  induction passes generalizing debtors creditors d c with
  | zero => rfl
  | succ passes ih =>
    cases hd : debtors.drop d with
    | nil =>
      have hnone : debtors[d]? = none := List.getElem?_eq_none (List.drop_eq_nil_iff.mp hd)
      simp only [Dart.obligationRest, hnone, SharedExpenses.obligationRest, hd]
    | cons debit ds =>
      cases hc : creditors.drop c with
      | nil =>
        have hnone : creditors[c]? = none := List.getElem?_eq_none (List.drop_eq_nil_iff.mp hc)
        simp only [Dart.obligationRest, Dart.getElem?_of_drop hd, hnone, SharedExpenses.obligationRest, hd, hc]
      | cons credit cs =>
        simp only [Dart.obligationRest, Dart.getElem?_of_drop hd, Dart.getElem?_of_drop hc,
          SharedExpenses.obligationRest, ih, Dart.drop_set_step _ _ hd, Dart.drop_set_step _ _ hc]

/-! ### The balances -/

/-- What a map holds, added up over a list that has all its keys. -/
theorem sum_map_getD {m : InsertionMap JsString ℕ} {ids : List JsString} (hn : ids.Nodup)
    (h : m.keys ⊆ ids) : (ids.map fun id => (m.get? id).getD 0).sum = m.values.sum := by
  have hzero : ∀ id ∈ ids, decide (id ∈ m.keys) = false → (m.get? id).getD 0 = 0 := by
    intro id _ hid
    rw [InsertionMap.get?_eq_none_iff.mpr (of_decide_eq_false hid), Option.getD_none]
  have hperm : (ids.filter fun id => id ∈ m.keys).Perm m.keys := by
    refine (List.perm_ext_iff_of_nodup (hn.filter _) m.nodup_keys).mpr fun id => ?_
    rw [List.mem_filter, decide_eq_true_eq]
    exact ⟨fun hid => hid.2, fun hid => ⟨h hid, hid⟩⟩
  rw [← sum_map_filter_of_zero hzero, (hperm.map _).sum_eq, InsertionMap.keys, List.map_map, InsertionMap.values]
  refine congrArg List.sum (List.map_congr_left fun e he => ?_)
  rw [Function.comp_apply, InsertionMap.get?_eq_some_iff.mpr he, Option.getD_some]

/-- What creditors are owed less what debtors owe is the sum of the balances. -/
theorem sum_creditors_sub_debtors (balance : JsString → ℤ) (ids : List JsString) :
    (((ids.filter fun id => balance id > 0).map fun id => balance id).sum -
      ((ids.filter fun id => balance id < 0).map fun id => -balance id).sum) = (ids.map balance).sum := by
  induction ids with
  | nil => rfl
  | cons id ids ih =>
    rcases lt_trichotomy (balance id) 0 with hneg | hzero | hpos
    · rw [List.filter_cons_of_neg (by simpa using hneg.le), List.filter_cons_of_pos (by simpa using hneg)]
      simp only [List.map_cons, List.sum_cons]
      omega
    · rw [List.filter_cons_of_neg (by simp [hzero]), List.filter_cons_of_neg (by simp [hzero])]
      simp only [List.map_cons, List.sum_cons]
      omega
    · rw [List.filter_cons_of_pos (by simpa using hpos), List.filter_cons_of_neg (by simpa using hpos.le)]
      simp only [List.map_cons, List.sum_cons]
      omega

theorem moneyRow_eq_set {field : String} {result result' : InsertionMap JsString ℕ} {entry : Json × ℕ}
    (h : moneyRow field result entry = .ok result') :
    stringOf (entry.1.get "memberId") ∉ result.keys ∧
      result' = result.set (stringOf (entry.1.get "memberId")) (bigInt (entry.1.get "amountMinor")) := by
  simp only [moneyRow, ↓failIf_bind_eq_ok, bind_eq_ok, pure_eq_ok, Except.ok.injEq] at h
  obtain ⟨-, -, id, hid, hnew, value, hvalue, rfl⟩ := h
  obtain ⟨text, htext, -, -, hparsed, -⟩ := amount_eq_ok.mp hvalue
  rw [(member_eq_ok.mp hid).1, htext]
  exact ⟨hnew, by rw [stringOf, bigInt, hparsed]⟩

/-- The money rows are those of the input. -/
theorem entries_moneyRows {rows : Json} {field : String} {max : ℕ} {code : ErrorCode}
    {result : InsertionMap JsString ℕ} (h : moneyRows rows field max code = .ok result) :
    result.entries = amountRows rows := by
  simp only [moneyRows, bind_eq_ok] at h
  obtain ⟨-, -, h⟩ := h
  rw [entries_of_foldlM_set (fun e : Json × ℕ => stringOf (e.1.get "memberId"))
    (fun e => bigInt (e.1.get "amountMinor")) (fun _ _ _ _ => moneyRow_eq_set) h,
    InsertionMap.entries_empty, List.nil_append, amountRows]
  conv_rhs => rw [← List.zipIdx_map_fst 0 rows.items]
  rw [List.map_map]
  rfl

section Rows

variable {paid shares : InsertionMap JsString ℕ} {ids : List JsString}

theorem openRows_debtorRows (hn : ids.Nodup) : OpenRows (debtorRows paid shares ids) where
  positive := by
    intro row hrow
    obtain ⟨id, hid, rfl⟩ := List.mem_map.mp hrow
    have hneg := of_decide_eq_true (List.mem_filter.mp hid).2
    simp only
    omega
  nodup := by
    rw [debtorRows, List.map_map]
    exact (List.map_id _).symm ▸ hn.filter _

theorem openRows_creditorRows (hn : ids.Nodup) : OpenRows (creditorRows paid shares ids) where
  positive := by
    intro row hrow
    obtain ⟨id, hid, rfl⟩ := List.mem_map.mp hrow
    exact of_decide_eq_true (List.mem_filter.mp hid).2
  nodup := by
    rw [creditorRows, List.map_map]
    exact (List.map_id _).symm ▸ hn.filter _

/-- What is paid and what is shared are the same total, so debtors owe what creditors are owed. -/
theorem sum_debtorRows_eq (hn : ids.Nodup) (hpaid : paid.keys ⊆ ids) (hshares : shares.keys ⊆ ids)
    (htotal : paid.values.sum = shares.values.sum) :
    ((debtorRows paid shares ids).map Prod.snd).sum = ((creditorRows paid shares ids).map Prod.snd).sum := by
  have hbalance : (ids.map fun id => balanceOf paid shares id).sum = 0 := by
    have hcast : ∀ m : InsertionMap JsString ℕ, m.keys ⊆ ids →
        (ids.map fun id => (((m.get? id).getD 0 : ℕ) : ℤ)).sum = (m.values.sum : ℕ) := by
      intro m hm
      rw [← sum_map_getD hn hm, Nat.cast_list_sum, List.map_map]
      rfl
    have hsub : (ids.map fun id => balanceOf paid shares id).sum =
        (ids.map fun id => (((paid.get? id).getD 0 : ℕ) : ℤ)).sum -
          (ids.map fun id => (((shares.get? id).getD 0 : ℕ) : ℤ)).sum :=
      Multiset.sum_map_sub (m := (ids : Multiset JsString))
    rw [hsub, hcast paid hpaid, hcast shares hshares, htotal, sub_self]
  have hsplit := sum_creditors_sub_debtors (fun id => balanceOf paid shares id) ids
  rw [hbalance] at hsplit
  rw [debtorRows, creditorRows, List.map_map, List.map_map]
  exact (sub_eq_zero.mp hsplit).symm

end Rows

/-- The obligations of whatever either implementation accepts pay the balances of the input exactly, and the loop over
debtors and creditors ends with both lists exhausted. -/
theorem obligations_realise_balances (twin : Twin) (input output : Json) (h : twin.projectExpense input = .ok output) :
    ∃ result, output = Projection.toJson result ∧
      Realises (membersIn input) (balanceIn input) result.obligations ∧
      result.obligations = obligationLoop ((debtorsIn input).length + (creditorsIn input).length)
        (debtorsIn input) (creditorsIn input) ∧
      obligationRest ((debtorsIn input).length + (creditorsIn input).length)
        (debtorsIn input) (creditorsIn input) = ([], []) ∧
      Dart.obligationRest ((debtorsIn input).length + (creditorsIn input).length)
        (debtorsIn input) (creditorsIn input) 0 0 = ([], []) := by
  rw [Twin.projectExpense_eq] at h
  cases hresult : projectExpense input with
  | error e =>
    rw [hresult] at h
    cases h
  | ok result =>
    rw [hresult] at h
    cases h
    obtain ⟨-, -, total, -, paid, hpaid, shares, hshares, hpaidTotal, hsharesTotal, ids, hids, rfl⟩ :=
      projectExpense_eq_ok.mp hresult
    obtain ⟨hitems, hlength, hn, hmem⟩ := order_eq_ok.mp hids
    have hall : ∀ id ∈ unionKeys paid.keys shares.keys, id ∈ ids := Dart.mem_of_order hids
    have hmembers : membersIn input = ids := by
      rw [membersIn, hitems, Json.items, List.map_map]
      exact List.map_id _
    have hbalance : balanceIn input = balanceOf paid shares := by
      funext id
      rw [balanceIn, ← entries_moneyRows hpaid, ← entries_moneyRows hshares]
      rfl
    have hdebtors : debtorsIn input = debtorRows paid shares ids := by
      rw [debtorsIn, hmembers, hbalance, debtorRows]
    have hcreditors : creditorsIn input = creditorRows paid shares ids := by
      rw [creditorsIn, hmembers, hbalance, creditorRows]
    rw [hmembers, hbalance, hdebtors, hcreditors]
    obtain ⟨hsettles, hrest⟩ := obligationLoop_settles (openRows_debtorRows hn) (openRows_creditorRows hn)
      (sum_debtorRows_eq hn (fun id hid => hall id (mem_unionKeys.mpr (.inl hid)))
        (fun id hid => hall id (mem_unionKeys.mpr (.inr hid))) (hpaidTotal.trans hsharesTotal.symm)) le_rfl
    have hparties : ∀ o ∈ obligationLoop ((debtorRows paid shares ids).length + (creditorRows paid shares ids).length)
        (debtorRows paid shares ids) (creditorRows paid shares ids),
        (o.debtorId ∈ ids ∧ balanceOf paid shares o.debtorId < 0) ∧
          o.creditorId ∈ ids ∧ balanceOf paid shares o.creditorId > 0 := by
      intro o ho
      obtain ⟨hdebtor, hcreditor⟩ := mem_obligationLoop ho
      simp only [debtorRows, creditorRows, List.map_map, List.mem_map, List.mem_filter, decide_eq_true_eq,
        Function.comp_apply, exists_eq_right] at hdebtor hcreditor
      exact ⟨hdebtor, hcreditor⟩
    refine ⟨_, rfl, ⟨hsettles.positive, fun o ho => ⟨(hparties o ho).1.1, (hparties o ho).2.1⟩, ?_, hsettles.once,
      ?_, ?_, ?_, ?_⟩, rfl, hrest, ?_⟩
    · intro o ho heq
      have hdebtor := (hparties o ho).1.2
      have hcreditor := (hparties o ho).2.2
      rw [heq] at hdebtor
      omega
    · simpa only [debtorRows, creditorRows, List.length_map] using hsettles.few
    · intro hnobody
      refine List.eq_nil_iff_forall_not_mem.mpr fun o ho => ?_
      exact hnobody _ (hparties o ho).1.1 (hparties o ho).1.2
    · intro id hid hneg
      exact hsettles.debtors (id, -balanceOf paid shares id)
        (List.mem_map.mpr ⟨id, List.mem_filter.mpr ⟨hid, decide_eq_true hneg⟩, rfl⟩)
    · intro id hid hpos
      exact hsettles.creditors (id, balanceOf paid shares id)
        (List.mem_map.mpr ⟨id, List.mem_filter.mpr ⟨hid, decide_eq_true hpos⟩, rfl⟩)
    · rw [Dart.obligationRest_eq]
      exact hrest

/-- One member pays 9 paise for two. -/
def expenseOf9 : Json :=
  let row (id : String) (n : ℕ) := object [("memberId", text id), ("amountMinor", minor n)]
  object [("currency", text "INR"), ("totalMinor", minor 9), ("contributions", .arr [row "a" 9]),
    ("shares", .arr [row "a" 4, row "b" 5]), ("memberOrder", .arr [text "a", text "b"])]

theorem obligations_realise_balances_nine : ∃ result, Projection.toJson ⟨9,
      [⟨js "a", 9, 4, 5⟩, ⟨js "b", 0, 5, -5⟩], [⟨js "b", js "a", 5⟩]⟩ = Projection.toJson result ∧
    Realises (membersIn expenseOf9) (balanceIn expenseOf9) result.obligations ∧
    result.obligations = obligationLoop ((debtorsIn expenseOf9).length + (creditorsIn expenseOf9).length)
      (debtorsIn expenseOf9) (creditorsIn expenseOf9) ∧
    obligationRest ((debtorsIn expenseOf9).length + (creditorsIn expenseOf9).length)
      (debtorsIn expenseOf9) (creditorsIn expenseOf9) = ([], []) ∧
    Dart.obligationRest ((debtorsIn expenseOf9).length + (creditorsIn expenseOf9).length)
      (debtorsIn expenseOf9) (creditorsIn expenseOf9) 0 0 = ([], []) :=
  obligations_realise_balances .javascript expenseOf9 _ rfl

end PandaPay.SharedExpenses
