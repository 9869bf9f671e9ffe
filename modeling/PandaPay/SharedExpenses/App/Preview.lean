import PandaPay.SharedExpenses.App.Draft
import PandaPay.SharedExpenses.Twins.Domain
import PandaPay.SharedExpenses.Domain

/-!
# What a preview promises

A draft that evaluates to a preview is one the server accepts. The checks of the draft bound what was
typed; the server then repeats the computation of the app on the same numbers.

## Main results

* `evaluate_accepted`: the snapshot and the bill of a preview pass the server's checks
-/

namespace PandaPay.SharedExpenses.App

open Dart

/-! ### Errors -/

theorem report_entries {p : Prop} [Decidable p] {field : JsString} {text : String}
    {errors : Errors} :
    (report p field text errors).entries = [] ↔ errors.entries = [] ∧ ¬ p := by
  rw [report]
  split_ifs with hp
  · have hmem : field ∈ (errors.set field text).keys := by
      rw [InsertionMap.mem_keys_iff, InsertionMap.get?_set, if_pos rfl]
      rfl
    refine iff_of_false (fun hnil => ?_) fun h => h.2 hp
    rw [InsertionMap.keys, hnil] at hmem
    cases hmem
  · exact ⟨fun h => ⟨h, hp⟩, And.left⟩

/-- What was read is within the range. -/
theorem parse_of_isValid (raw : JsString) (precision maxUnits : ℕ) (allowZero : Bool) :
    (SharedDecimalInput.parse raw precision maxUnits allowZero).isValid = true →
      ∃ n, (SharedDecimalInput.parse raw precision maxUnits allowZero).units = some n ∧
        n ≤ maxUnits ∧ (allowZero = false → n ≠ 0) := by
  unfold SharedDecimalInput.parse
  dsimp only
  split_ifs
  · exact nofun
  · exact nofun
  · exact nofun
  · exact nofun
  · split
    · exact nofun
    · split_ifs with hrange
      · exact nofun
      · rw [not_or, not_lt, not_and] at hrange
        exact fun _ => ⟨_, rfl, hrange⟩

theorem amountOf_entries {raw field : JsString} {positive : Bool} {errors : Errors}
    (h : (amountOf raw field positive errors).2.entries = []) :
    errors.entries = [] ∧ ∃ n, (amountOf raw field positive errors).1 = some n ∧
      n ≤ MAX_EXPENSE_MINOR ∧ (positive = true → n ≠ 0) := by
  rw [amountOf, report_entries, Bool.not_eq_false] at h
  obtain ⟨herrors, hvalid⟩ := h
  obtain ⟨n, hn, hle, hpositive⟩ := parse_of_isValid _ _ _ _ hvalid
  exact ⟨herrors, n, hn, hle, fun h => hpositive (by rw [h]; rfl)⟩

/-! ### Payments -/

/-- What a payer paid of the bill and of the shared amount. -/
structure PaymentRow where
  id : JsString
  full : ℕ
  part : ℕ

theorem payerStep_entries {acc : Payments} {e : JsString × SharedPayerInput}
    (h : (payerStep acc e).errors.entries = []) :
    acc.errors.entries = [] ∧ ∃ full part, 0 < full ∧ full ≤ MAX_EXPENSE_MINOR ∧ part ≤ full ∧
      (payerStep acc e).fullPaid = acc.fullPaid.set e.1 full ∧
      (payerStep acc e).sharedPaid = acc.sharedPaid.set e.1 part := by
  rw [payerStep, report_entries] at h
  obtain ⟨hpart, hexceeds⟩ := h
  obtain ⟨hfull, part, hpartEq, -, -⟩ := amountOf_entries hpart
  obtain ⟨herrors, full, hfullEq, hle, hpositive⟩ := amountOf_entries hfull
  refine ⟨herrors, full, part, Nat.pos_of_ne_zero (hpositive rfl), hle, ?_, ?_, ?_⟩
  · by_contra hlt
    exact hexceeds ⟨full, hfullEq, part, hpartEq, not_le.mp hlt⟩
  · rw [payerStep]
    simp only [hfullEq, setSome]
  · rw [payerStep]
    simp only [hpartEq, setSome]

theorem errors_of_foldl_payerStep {entries : List (JsString × SharedPayerInput)} {acc : Payments}
    (h : (entries.foldl payerStep acc).errors.entries = []) : acc.errors.entries = [] := by
  induction entries generalizing acc with
  | nil => exact h
  | cons e entries ih => exact (payerStep_entries (ih h)).1

/-- Without an error every payer has both amounts, the shared one within the full one. -/
theorem payments_of_entries {entries : List (JsString × SharedPayerInput)} {acc : Payments}
    (hnodup : (entries.map Prod.fst).Nodup)
    (hfresh : ∀ e ∈ entries, e.1 ∉ acc.fullPaid.keys ∧ e.1 ∉ acc.sharedPaid.keys)
    (h : (entries.foldl payerStep acc).errors.entries = []) :
    ∃ rows : List PaymentRow, rows.map PaymentRow.id = entries.map Prod.fst ∧
      (∀ r ∈ rows, 0 < r.full ∧ r.full ≤ MAX_EXPENSE_MINOR ∧ r.part ≤ r.full) ∧
      (entries.foldl payerStep acc).fullPaid.entries =
        acc.fullPaid.entries ++ rows.map (fun r => (r.id, r.full)) ∧
      (entries.foldl payerStep acc).sharedPaid.entries =
        acc.sharedPaid.entries ++ rows.map (fun r => (r.id, r.part)) := by
  induction entries generalizing acc with
  | nil => exact ⟨[], rfl, nofun, (List.append_nil _).symm, (List.append_nil _).symm⟩
  | cons e entries ih =>
    rw [List.forall_mem_cons] at hfresh
    rw [List.map_cons, List.nodup_cons] at hnodup
    obtain ⟨-, full, part, hpos, hmax, hle, hfull, hpart⟩ :=
      payerStep_entries (errors_of_foldl_payerStep h)
    have hnext : ∀ e' ∈ entries, e'.1 ∉ (payerStep acc e).fullPaid.keys ∧
        e'.1 ∉ (payerStep acc e).sharedPaid.keys := by
      intro e' he'
      have hne : e'.1 ≠ e.1 := by
        intro heq
        exact hnodup.1 (heq ▸ List.mem_map_of_mem he')
      obtain ⟨hnotFull, hnotPart⟩ := hfresh.2 e' he'
      rw [hfull, hpart]
      rw [InsertionMap.mem_keys_set, InsertionMap.mem_keys_set, not_or, not_or]
      exact ⟨⟨hne, hnotFull⟩, hne, hnotPart⟩
    obtain ⟨rows, hids, hrows, hfullRows, hpartRows⟩ := ih hnodup.2 hnext h
    refine ⟨⟨e.1, full, part⟩ :: rows, ?_, ?_, ?_, ?_⟩
    · rw [List.map_cons, hids, List.map_cons]
    · exact List.forall_mem_cons.mpr ⟨⟨hpos, hmax, hle⟩, hrows⟩
    · rw [List.foldl_cons, hfullRows, hfull, InsertionMap.entries_set_of_notMem _ hfresh.1.1,
        List.map_cons, List.append_assoc]
      rfl
    · rw [List.foldl_cons, hpartRows, hpart, InsertionMap.entries_set_of_notMem _ hfresh.1.2,
        List.map_cons, List.append_assoc]
      rfl

/-! ### Rows of money -/

/-- The rows of those who paid something, in member order. -/
def paidRows (memberOrder : List JsString) (paid : InsertionMap JsString ℕ) :
    List (JsString × ℕ) :=
  (memberOrder.filter fun id => (paid.get? id).getD 0 > 0).map fun id =>
    (id, (paid.get? id).getD 0)

/-- `memberId` and `amountMinor` of every row. -/
def moneyJson (rows : List (JsString × ℕ)) : List Json :=
  rows.map fun r => allocationJson r.1 r.2

theorem contributionRows_eq (d : SharedExpenseDraft) (paid : InsertionMap JsString ℕ) :
    d.contributionRows paid = .arr (moneyJson (paidRows d.memberOrder paid)) := by
  rw [SharedExpenseDraft.contributionRows, moneyJson, paidRows, List.map_map]
  rfl

section PaidRows

variable {memberOrder : List JsString} {paid : InsertionMap JsString ℕ}

theorem mem_paidRows {r : JsString × ℕ} (hkeys : ∀ id ∈ paid.keys, id ∈ memberOrder) :
    r ∈ paidRows memberOrder paid ↔ paid.get? r.1 = some r.2 ∧ 0 < r.2 := by
  simp only [paidRows, List.mem_map, List.mem_filter, decide_eq_true_eq]
  constructor
  · rintro ⟨id, ⟨-, hpos⟩, rfl⟩
    cases hget : paid.get? id with
    | none => simp [hget] at hpos
    | some n => simpa [hget] using hpos
  · rintro ⟨hget, hpos⟩
    refine ⟨r.1, ⟨hkeys _ (InsertionMap.mem_keys_of_get? hget), ?_⟩, ?_⟩
    · rw [hget]
      exact hpos
    · rw [hget]
      rfl

theorem nodup_paidRows (hnodup : memberOrder.Nodup) (paid : InsertionMap JsString ℕ) :
    ((paidRows memberOrder paid).map Prod.fst).Nodup := by
  rw [paidRows, List.map_map]
  exact (hnodup.filter _).map_on fun _ _ _ _ h => h

/-- They are the positive payments in another order. -/
theorem paidRows_perm (hnodup : memberOrder.Nodup) (hkeys : ∀ id ∈ paid.keys, id ∈ memberOrder) :
    (paidRows memberOrder paid).Perm (paid.entries.filter fun e => 0 < e.2) := by
  rw [List.perm_ext_iff_of_nodup (nodup_paidRows hnodup paid).of_map
    (paid.nodup_entries.filter _)]
  intro r
  rw [mem_paidRows hkeys, List.mem_filter, decide_eq_true_eq, InsertionMap.get?_eq_some_iff]

theorem sum_paidRows (hnodup : memberOrder.Nodup) (hkeys : ∀ id ∈ paid.keys, id ∈ memberOrder) :
    ((paidRows memberOrder paid).map Prod.snd).sum = paid.values.sum := by
  rw [((paidRows_perm hnodup hkeys).map Prod.snd).sum_eq, InsertionMap.values]
  exact sum_map_filter_of_zero fun e _ h => by simpa using h

end PaidRows

/-! ### Rows the server reads -/

theorem amount_minor {n max : ℕ} {field : String} {positive : Bool} {overflow : ErrorCode}
    (h : n ≤ max) (hmax : max < 10 ^ 16) (hpositive : positive = true → n ≠ 0) :
    SharedExpenses.amount (minor n) field max positive overflow = .ok n :=
  amount_eq_ok.mpr ⟨decimal n, rfl, length_decimal_le (by omega) (by omega), isUnsigned_decimal n,
    unsignedValue_decimal n, hpositive, h⟩

theorem memberId_allocationJson (id : JsString) (n : ℕ) :
    (allocationJson id n).get "memberId" = .str id := by
  simp [allocationJson, object, Json.get, Json.fieldOf]

theorem amountMinor_allocationJson (id : JsString) (n : ℕ) :
    (allocationJson id n).get "amountMinor" = minor n := by
  simp [allocationJson, object, Json.get, Json.fieldOf]

theorem record_allocationJson (id : JsString) (n : ℕ) (field : String) :
    SharedExpenses.record (allocationJson id n) ["memberId", "amountMinor"] field = .ok () := by
  rw [allocationJson, object, SharedExpenses.record, failIf_of_not]
  simp [Json.hasOwn, Json.fieldOf]

/-- Reading rows of money gives the rows back. -/
theorem entries_of_foldlM_moneyRow {rows : List (JsString × ℕ)} {field : String} {k : ℕ}
    {acc result : InsertionMap JsString ℕ}
    (h : ((moneyJson rows).zipIdx k).foldlM (SharedExpenses.moneyRow field) acc = .ok result) :
    result.entries = acc.entries ++ rows := by
  induction rows generalizing acc k with
  | nil =>
    cases h
    exact (List.append_nil _).symm
  | cons r rows ih =>
    rw [moneyJson, List.map_cons, List.zipIdx_cons, List.foldlM_cons] at h
    obtain ⟨next, hrow, hrest⟩ := bind_eq_ok.mp h
    rw [SharedExpenses.moneyRow] at hrow
    obtain ⟨-, -, hrow⟩ := bind_eq_ok.mp hrow
    obtain ⟨id, hid, hrow⟩ := bind_eq_ok.mp hrow
    rw [failIf_bind_eq_ok] at hrow
    obtain ⟨hfresh, hrow⟩ := hrow
    obtain ⟨n, hn, heq⟩ := bind_eq_ok.mp hrow
    cases heq
    rw [memberId_allocationJson, member_eq_ok] at hid
    obtain ⟨rfl, -⟩ := Json.str.inj hid.1
    rw [amountMinor_allocationJson, amount_eq_ok] at hn
    obtain ⟨s, hs, -, -, hvalue, -⟩ := hn
    rw [← Json.str.inj hs, unsignedValue_decimal] at hvalue
    rw [ih hrest, InsertionMap.entries_set_of_notMem _ hfresh, List.append_assoc, ← hvalue]
    rfl

/-- A bill with such rows is read, if they are of distinct members and in range. -/
theorem foldlM_billRow {rows : List (JsString × ℕ)} (k : ℕ) {acc : InsertionMap JsString ℕ}
    (hids : ∀ r ∈ rows, isUuid r.1 = true) (hamounts : ∀ r ∈ rows, 0 < r.2 ∧ r.2 ≤ MAX_EXPENSE_MINOR)
    (hnodup : (rows.map Prod.fst).Nodup) (hfresh : ∀ r ∈ rows, r.1 ∉ acc.keys) :
    ∃ full, ((moneyJson rows).zipIdx k).foldlM billRow acc = .ok full ∧
      full.entries = acc.entries ++ rows := by
  induction rows generalizing acc k with
  | nil => exact ⟨acc, rfl, (List.append_nil _).symm⟩
  | cons r rows ih =>
    rw [List.forall_mem_cons] at hids hamounts hfresh
    rw [List.map_cons, List.nodup_cons] at hnodup
    have hnext : ∀ r' ∈ rows, r'.1 ∉ (acc.set r.1 r.2).keys := by
      intro r' hr'
      have hne : r'.1 ≠ r.1 := fun heq => hnodup.1 (heq ▸ List.mem_map_of_mem hr')
      rw [InsertionMap.mem_keys_set, not_or]
      exact ⟨hne, hfresh.2 r' hr'⟩
    obtain ⟨full, hfull, hentries⟩ := ih (k + 1) hids.2 hamounts.2 hnodup.2 hnext
    refine ⟨full, ?_, ?_⟩
    · have hrow : billRow acc (allocationJson r.1 r.2, k) = .ok (acc.set r.1 r.2) := by
        simp only [billRow, record_allocationJson, ok_bind, memberId_allocationJson,
          amountMinor_allocationJson, failIf_bind_eq_ok]
        refine ⟨by rw [hids.1]; decide, hfresh.1, ?_⟩
        rw [amount_minor hamounts.1.2 (by decide) fun _ => hamounts.1.1.ne']
        rfl
      rw [moneyJson, List.map_cons, List.zipIdx_cons, List.foldlM_cons, hrow]
      exact hfull
    · rw [hentries, InsertionMap.entries_set_of_notMem _ hfresh.1, List.append_assoc]
      rfl

/-- A map that is filled with rows of distinct members has these rows. -/
theorem entries_foldl_set {ν : Type} {rows : List (JsString × ν)} {acc : InsertionMap JsString ν}
    (hnodup : (rows.map Prod.fst).Nodup) (hfresh : ∀ r ∈ rows, r.1 ∉ acc.keys) :
    (rows.foldl (fun m r => m.set r.1 r.2) acc).entries = acc.entries ++ rows := by
  induction rows generalizing acc with
  | nil => exact (List.append_nil _).symm
  | cons r rows ih =>
    rw [List.forall_mem_cons] at hfresh
    rw [List.map_cons, List.nodup_cons] at hnodup
    have hnext : ∀ r' ∈ rows, r'.1 ∉ (acc.set r.1 r.2).keys := by
      intro r' hr'
      have hne : r'.1 ≠ r.1 := fun heq => hnodup.1 (heq ▸ List.mem_map_of_mem hr')
      rw [InsertionMap.mem_keys_set, not_or]
      exact ⟨hne, hfresh.2 r' hr'⟩
    rw [List.foldl_cons, ih hnodup.2 hnext, InsertionMap.entries_set_of_notMem _ hfresh.1,
      List.append_assoc]
    rfl

/-! ### Drafts without errors -/

/-- What the checks say about a draft without errors. -/
structure Valid (d : SharedExpenseDraft) (bill shared : ℕ) (paid : Payments)
    (payers : List PaymentRow) : Prop where
  nodup_order : d.memberOrder.Nodup
  uuid : ∀ id ∈ d.memberOrder, isUuid id = true
  bill_le : bill ≤ MAX_EXPENSE_MINOR
  shared_pos : 0 < shared
  shared_le : shared ≤ bill
  nodup_ids : (payers.map PaymentRow.id).Nodup
  length_le : payers.length ≤ 8
  mem_order : ∀ r ∈ payers, r.id ∈ d.memberOrder
  bounds : ∀ r ∈ payers, 0 < r.full ∧ r.full ≤ MAX_EXPENSE_MINOR ∧ r.part ≤ r.full
  fullPaid : paid.fullPaid.entries = payers.map fun r => (r.id, r.full)
  sharedPaid : paid.sharedPaid.entries = payers.map fun r => (r.id, r.part)
  sum_full : (payers.map PaymentRow.full).sum = bill
  sum_part : (payers.map PaymentRow.part).sum = shared

theorem checkPeople_entries {d : SharedExpenseDraft}
    (h : (d.checkPeople .empty).entries = []) :
    d.memberOrder.Nodup ∧ (∀ id ∈ d.memberOrder, isUuid id = true) ∧ d.payers.size ≤ 8 ∧
      ∀ id ∈ d.payers.keys, id ∈ d.memberOrder := by
  rw [SharedExpenseDraft.checkPeople, report_entries, report_entries, report_entries] at h
  obtain ⟨⟨⟨-, hmembers⟩, -⟩, hpayers⟩ := h
  simp only [not_or, not_not, Bool.not_eq_false, List.all_eq_true, not_lt] at hmembers hpayers
  refine ⟨?_, hmembers.2.2.2.1, hpayers.2.1, hpayers.2.2⟩
  exact List.dedup_eq_self.mp ((List.dedup_sublist _).eq_of_length hmembers.2.2.1)

theorem splitRow_entries {d : SharedExpenseDraft} {id : JsString} {errors : Errors}
    (h : (d.splitRow id errors).2.entries = []) : errors.entries = [] := by
  unfold SharedExpenseDraft.splitRow at h
  cases hmode : d.mode with
  | equal => simpa [hmode] using h
  | exact =>
    simp only [hmode] at h
    exact (amountOf_entries h).1
  | percentage =>
    simp only [hmode] at h
    exact (report_entries.mp h).1
  | shares =>
    simp only [hmode] at h
    exact (report_entries.mp h).1

theorem splitRows_entries {d : SharedExpenseDraft} {ids : List JsString} {errors : Errors}
    (h : (d.splitRows errors ids).2.entries = []) : errors.entries = [] := by
  induction ids generalizing errors with
  | nil => exact h
  | cons id ids ih => exact splitRow_entries (ih h)

/-- A draft with a preview has no errors, and the preview is made of the amounts that were typed. -/
theorem evaluate_preview {d : SharedExpenseDraft} {sourceFundingEnabled : Bool}
    {preview : SharedDraftPreview}
    (h : (d.evaluate sourceFundingEnabled).preview = some preview) :
    ∃ bill shared paid payers rows, Valid d bill shared paid payers ∧
      d.previewOf bill shared paid rows = .ok preview := by
  rw [SharedExpenseDraft.evaluate] at h
  dsimp only at h
  split at h
  · rename_i bill shared herrors hbill hshared
    split at h
    · rename_i preview' hpreview
      cases h
      -- an error that is reported stays, so every check before the last has passed as well
      have hsource := splitRows_entries herrors
      rw [SharedExpenseDraft.checkSource, report_entries, report_entries, report_entries] at hsource
      obtain ⟨⟨⟨htotals, -⟩, -⟩, -⟩ := hsource
      rw [SharedExpenseDraft.checkTotals, report_entries, report_entries] at htotals
      obtain ⟨⟨hpaid, hfullTotal⟩, hsharedTotal⟩ := htotals
      have hexceeds := errors_of_foldl_payerStep hpaid
      rw [report_entries] at hexceeds
      obtain ⟨hbillErrors, s, hs, hsharedLe, hsharedPos⟩ := amountOf_entries hexceeds.1
      obtain ⟨hpeople, b, hb, hbillLe, -⟩ := amountOf_entries hbillErrors
      obtain rfl : s = shared := Option.some.inj (hs.symm.trans hshared)
      obtain rfl : b = bill := Option.some.inj (hb.symm.trans hbill)
      obtain ⟨hnodup, huuid, hsize, hkeys⟩ := checkPeople_entries hpeople
      obtain ⟨payers, hids, hbounds, hfull, hpart⟩ := payments_of_entries d.payers.nodup_keys
        (fun _ _ => ⟨by simp, by simp⟩) hpaid
      have hids' : payers.map PaymentRow.id = d.payers.keys := hids
      refine ⟨b, s, _, payers, _, ?_, hpreview⟩
      have hlength : payers.length = d.payers.size := by
        rw [InsertionMap.size_eq_length_keys, ← hids', List.length_map]
      refine ⟨hnodup, huuid, hbillLe, Nat.pos_of_ne_zero (hsharedPos rfl), ?_, ?_, ?_, ?_, hbounds,
        hfull, hpart, ?_, ?_⟩
      · by_contra hlt
        exact hexceeds.2 ⟨b, hb, s, hs, not_le.mp hlt⟩
      · rw [hids']
        exact d.payers.nodup_keys
      · rw [hlength]
        exact hsize
      · intro r hr
        refine hkeys r.id ?_
        rw [← hids']
        exact List.mem_map_of_mem hr
      · by_contra hne
        refine hfullTotal ⟨?_, b, hb, ?_⟩
        · rw [InsertionMap.size, hfull]
          simpa using hlength
        · rw [InsertionMap.values, hfull, foldl_add_eq_sum]
          simpa [Function.comp_def] using hne
      · by_contra hne
        refine hsharedTotal ⟨?_, s, hs, ?_⟩
        · rw [InsertionMap.size, hpart]
          simpa using hlength
        · rw [InsertionMap.values, hpart, foldl_add_eq_sum]
          simpa [Function.comp_def] using hne
    · cases h
  · cases h

/-! ### The preview -/

theorem allocations_toJson (result : Allocation) :
    (result.toJson.get "allocations").items = moneyJson result.allocations := by
  simp [Allocation.toJson, object, Json.get, Json.fieldOf, Json.items, moneyJson, allocationJson]

/-- The shares as money. -/
def moneyOf (rows : List (JsString × ℕ)) : List (JsString × Money) := rows.map fun r => (r.1, ↑r.2)

/-- The money of the shares, if it can be read, is theirs. -/
theorem entries_of_foldlM_money {rows : List (JsString × ℕ)} {acc result : InsertionMap JsString Money}
    (h : (moneyJson rows).foldlM (fun (shares : InsertionMap JsString Money) row => do
      let money ← sharedMoneyFromMinor (row.get "amountMinor")
      return shares.set (stringOf (row.get "memberId")) money) acc = .ok result) :
    result = (moneyOf rows).foldl (fun m r => m.set r.1 r.2) acc := by
  induction rows generalizing acc with
  | nil =>
    cases h
    rfl
  | cons r rows ih =>
    rw [moneyJson, List.map_cons, List.foldlM_cons] at h
    obtain ⟨next, hrow, hrest⟩ := bind_eq_ok.mp h
    obtain ⟨n, hn, heq⟩ := bind_eq_ok.mp hrow
    cases heq
    rw [sharedMoneyFromMinor, amountMinor_allocationJson, amount_eq, amount_eq_ok] at hn
    obtain ⟨s, hs, -, -, hvalue, -⟩ := hn
    rw [← Json.str.inj hs, unsignedValue_decimal] at hvalue
    rw [ih hrest, memberId_allocationJson, ← hvalue]
    rfl

/-- The snapshot a preview holds. -/
def snapshotOf (d : SharedExpenseDraft) (shared : ℕ) (paid : Payments) (allocations : List Json) :
    Json :=
  object [("currency", text "INR"), ("totalMinor", minor shared),
    ("contributions", d.contributionRows paid.sharedPaid), ("shares", .arr allocations),
    ("memberOrder", .arr ((d.memberOrder.filter fun id => id ∈ d.participants ∨
      (paid.sharedPaid.get? id).getD 0 > 0).map .str))]

section Snapshot

variable (d : SharedExpenseDraft) (shared : ℕ) (paid : Payments) (allocations : List Json)

theorem totalMinor_snapshotOf :
    (snapshotOf d shared paid allocations).get "totalMinor" = minor shared := by
  simp [snapshotOf, object, Json.get, Json.fieldOf]

theorem contributions_snapshotOf : (snapshotOf d shared paid allocations).get "contributions" =
    .arr (moneyJson (paidRows d.memberOrder paid.sharedPaid)) := by
  rw [← contributionRows_eq]
  simp [snapshotOf, object, Json.get, Json.fieldOf]

theorem shares_snapshotOf :
    (snapshotOf d shared paid allocations).get "shares" = .arr allocations := by
  simp [snapshotOf, object, Json.get, Json.fieldOf]

end Snapshot

/-- What a preview was computed from. -/
theorem previewOf_eq_ok {d : SharedExpenseDraft} {bill shared : ℕ} {paid : Payments}
    {rows : List Json} {preview : SharedDraftPreview}
    (h : d.previewOf bill shared paid rows = .ok preview) :
    ∃ result projection, allocateExpense (allocationInput (minor shared) (d.allocation rows)) =
        .ok result ∧
      preview.financialSnapshot = snapshotOf d shared paid (moneyJson result.allocations) ∧
      projectExpense preview.financialSnapshot = .ok projection ∧
      preview.shares = (moneyOf result.allocations).foldl (fun m r => m.set r.1 r.2) .empty ∧
      preview.billMetadata = object [("currency", text "INR"), ("totalMinor", minor bill),
        ("contributions", d.contributionRows paid.fullPaid), ("allocation", d.allocation rows)] ∧
      preview.yourBalance = ((paid.sharedPaid.get? d.ownMemberId).getD 0 : ℕ) -
        (preview.shares.get? d.ownMemberId).getD 0 := by
  unfold SharedExpenseDraft.previewOf at h
  obtain ⟨allocation, hallocation, h⟩ := bind_eq_ok.mp h
  obtain ⟨shares, hshares, h⟩ := bind_eq_ok.mp h
  obtain ⟨_, hproject, h⟩ := bind_eq_ok.mp h
  obtain ⟨cost, -, h⟩ := bind_eq_ok.mp h
  obtain ⟨yourResidual, -, h⟩ := bind_eq_ok.mp h
  obtain ⟨yourPersonalCost, -, heq⟩ := bind_eq_ok.mp h
  cases heq
  rw [allocateSharedExpense_eq] at hallocation
  obtain ⟨result, hresult, heq⟩ := bind_eq_ok.mp hallocation
  cases heq
  rw [projectSharedExpense_eq, allocations_toJson] at hproject
  obtain ⟨projection, hprojection, -⟩ := bind_eq_ok.mp hproject
  rw [allocations_toJson] at hshares
  refine ⟨result, projection, hresult, ?_, ?_, entries_of_foldlM_money hshares, rfl, rfl⟩
  · rw [allocations_toJson]
    rfl
  · rw [allocations_toJson]
    exact hprojection

section Accepted

variable {d : SharedExpenseDraft} {bill shared : ℕ} {paid : Payments} {payers : List PaymentRow}
  {rows : List Json}

theorem Valid.keys_fullPaid (hvalid : Valid d bill shared paid payers) :
    ∀ id ∈ paid.fullPaid.keys, id ∈ d.memberOrder := by
  intro id hid
  rw [InsertionMap.keys, hvalid.fullPaid, List.map_map, List.mem_map] at hid
  obtain ⟨r, hr, rfl⟩ := hid
  exact hvalid.mem_order r hr

theorem Valid.keys_sharedPaid (hvalid : Valid d bill shared paid payers) :
    ∀ id ∈ paid.sharedPaid.keys, id ∈ d.memberOrder := by
  intro id hid
  rw [InsertionMap.keys, hvalid.sharedPaid, List.map_map, List.mem_map] at hid
  obtain ⟨r, hr, rfl⟩ := hid
  exact hvalid.mem_order r hr

theorem entries_of_moneyRows {rows : List (JsString × ℕ)} {field : String} {max : ℕ}
    {code : ErrorCode} {result : InsertionMap JsString ℕ}
    (h : SharedExpenses.moneyRows (.arr (moneyJson rows)) field max code = .ok result) :
    result.entries = rows := by
  rw [SharedExpenses.moneyRows] at h
  obtain ⟨-, -, h⟩ := bind_eq_ok.mp h
  exact entries_of_foldlM_moneyRow h

/-- The server reads the same shares, and finds the same balances. -/
theorem positions_of_snapshotOf (hvalid : Valid d bill shared paid payers)
    {allocations : List (JsString × ℕ)} {projection : Projection}
    (h : projectExpense (snapshotOf d shared paid (moneyJson allocations)) = .ok projection) :
    (allocations.map Prod.fst).Nodup ∧ ∃ shares : InsertionMap JsString ℕ,
      shares.entries = allocations ∧
      (∀ position ∈ projection.positions, position.balanceMinor =
        ((paid.sharedPaid.get? position.memberId).getD 0 : ℕ) -
          ((shares.get? position.memberId).getD 0 : ℕ)) ∧
      ∀ id, id ∉ projection.positions.map Position.memberId →
        (paid.sharedPaid.get? id).getD 0 = 0 ∧ shares.get? id = none := by
  obtain ⟨-, -, total, -, paidMap, hpaid, shares, hshares, -, -, ids, -, rfl⟩ :=
    projectExpense_eq_ok.mp h
  rw [contributions_snapshotOf] at hpaid
  rw [shares_snapshotOf] at hshares
  have hpaidEntries := entries_of_moneyRows hpaid
  have hsharesEntries := entries_of_moneyRows hshares
  have hget : ∀ id, (paidMap.get? id).getD 0 = (paid.sharedPaid.get? id).getD 0 := by
    intro id
    have hiff : ∀ n, paidMap.get? id = some n ↔ paid.sharedPaid.get? id = some n ∧ 0 < n := by
      intro n
      rw [InsertionMap.get?_eq_some_iff, hpaidEntries, mem_paidRows hvalid.keys_sharedPaid]
    cases hn : paid.sharedPaid.get? id with
    | none =>
      cases hm : paidMap.get? id with
      | none => rfl
      | some m =>
        have := ((hiff m).mp hm).1
        rw [hn] at this
        cases this
    | some n =>
      rcases Nat.eq_zero_or_pos n with rfl | hpos
      · cases hm : paidMap.get? id with
        | none => rfl
        | some m =>
          have := (hiff m).mp hm
          rw [hn, Option.some.injEq] at this
          omega
      · rw [(hiff n).mpr ⟨hn, hpos⟩]
  refine ⟨by rw [← hsharesEntries]; exact shares.nodup_keys, shares, hsharesEntries, ?_, ?_⟩
  · intro position hposition
    obtain ⟨id, -, rfl⟩ := List.mem_map.mp hposition
    rw [← hget]
    rfl
  · intro id hid
    have hnot : id ∉ unionKeys paidMap.keys shares.keys := by
      intro hmem
      refine hid ?_
      rw [positionRows, List.map_map, List.mem_map]
      exact ⟨id, (List.mem_insertionSort _).mpr hmem, rfl⟩
    rw [mem_unionKeys, not_or, ← InsertionMap.get?_eq_none_iff, ← InsertionMap.get?_eq_none_iff]
      at hnot
    refine ⟨?_, hnot.2⟩
    rw [← hget, hnot.1]
    rfl

theorem Valid.payer_of_mem (hvalid : Valid d bill shared paid payers) :
    ∀ r ∈ paidRows d.memberOrder paid.fullPaid, ∃ payer ∈ payers, r = (payer.id, payer.full) := by
  intro r hr
  rw [mem_paidRows hvalid.keys_fullPaid, InsertionMap.get?_eq_some_iff, hvalid.fullPaid,
    List.mem_map] at hr
  obtain ⟨⟨payer, hpayer, heq⟩, -⟩ := hr
  exact ⟨payer, hpayer, heq.symm⟩

theorem Valid.sum_bill (hvalid : Valid d bill shared paid payers) :
    ((paidRows d.memberOrder paid.fullPaid).map Prod.snd).sum = bill := by
  rw [sum_paidRows hvalid.nodup_order hvalid.keys_fullPaid, InsertionMap.values, hvalid.fullPaid,
    List.map_map, ← hvalid.sum_full]
  rfl

theorem Valid.length_bill (hvalid : Valid d bill shared paid payers) :
    1 ≤ (paidRows d.memberOrder paid.fullPaid).length ∧
      (paidRows d.memberOrder paid.fullPaid).length ≤ 8 := by
  constructor
  · rw [Nat.one_le_iff_ne_zero, ne_eq, List.length_eq_zero_iff]
    intro hnil
    have hsum := hvalid.sum_bill
    rw [hnil] at hsum
    exact (hvalid.shared_pos.trans_le hvalid.shared_le).ne hsum
  · rw [(paidRows_perm hvalid.nodup_order hvalid.keys_fullPaid).length_eq]
    refine (List.length_filter_le _ _).trans ?_
    rw [hvalid.fullPaid, List.length_map]
    exact hvalid.length_le

/-- The server reads the full payments back. -/
theorem Valid.exists_full (hvalid : Valid d bill shared paid payers) :
    ∃ full, (moneyJson (paidRows d.memberOrder paid.fullPaid)).zipIdx.foldlM billRow .empty =
        .ok full ∧ full.entries = paidRows d.memberOrder paid.fullPaid := by
  refine @foldlM_billRow _ 0 .empty ?_ ?_ (nodup_paidRows hvalid.nodup_order _)
    fun _ _ => by simp
  · intro r hr
    obtain ⟨payer, hmem, rfl⟩ := hvalid.payer_of_mem r hr
    exact hvalid.uuid _ (hvalid.mem_order payer hmem)
  · intro r hr
    obtain ⟨payer, hmem, rfl⟩ := hvalid.payer_of_mem r hr
    exact ⟨(hvalid.bounds payer hmem).1, (hvalid.bounds payer hmem).2.1⟩

/-- Nobody shares more than was paid. -/
theorem Valid.covered (hvalid : Valid d bill shared paid payers) {full : InsertionMap JsString ℕ}
    (hfull : full.entries = paidRows d.memberOrder paid.fullPaid) :
    ∀ r ∈ paidRows d.memberOrder paid.sharedPaid, r.2 ≤ (full.get? r.1).getD 0 := by
  intro r hr
  rw [mem_paidRows hvalid.keys_sharedPaid, InsertionMap.get?_eq_some_iff, hvalid.sharedPaid,
    List.mem_map] at hr
  obtain ⟨⟨payer, hmem, heq⟩, -⟩ := hr
  obtain rfl : r = (payer.id, payer.part) := heq.symm
  have hbounds := hvalid.bounds payer hmem
  have hget : full.get? payer.id = some payer.full := by
    rw [InsertionMap.get?_eq_some_iff, hfull, mem_paidRows hvalid.keys_fullPaid,
      InsertionMap.get?_eq_some_iff, hvalid.fullPaid]
    exact ⟨List.mem_map_of_mem hmem, hbounds.1⟩
  rw [hget]
  exact hbounds.2.2

/-- The server reads the shares back. -/
theorem entries_shareTexts {allocations : List (JsString × ℕ)}
    (hnodup : (allocations.map Prod.fst).Nodup) :
    (shareTexts (snapshotOf d shared paid (moneyJson allocations))).entries =
      allocations.map fun r => (r.1, decimal r.2) := by
  have hset := @entries_foldl_set _ (allocations.map fun r => (r.1, decimal r.2)) .empty
    (by rw [List.map_map]; exact hnodup) (fun _ _ => by simp)
  rw [List.foldl_map] at hset
  rw [shareTexts, shares_snapshotOf, Json.items, moneyJson, List.foldl_map]
  simp only [memberId_allocationJson, amountMinor_allocationJson, stringOf, minor]
  exact hset

/-- The bill of a preview passes the server's checks. -/
theorem validateBill_of_valid (hvalid : Valid d bill shared paid payers) {result : Allocation}
    (hresult : allocateExpense (allocationInput (minor shared) (d.allocation rows)) = .ok result)
    (hnodup : (result.allocations.map Prod.fst).Nodup) {billMetadata : Json}
    (hmetadata : billMetadata = object [("currency", text "INR"), ("totalMinor", minor bill),
      ("contributions", d.contributionRows paid.fullPaid), ("allocation", d.allocation rows)]) :
    validateBill billMetadata (snapshotOf d shared paid (moneyJson result.allocations)) =
      .ok billMetadata := by
  have hrecord : SharedExpenses.record billMetadata
      ["currency", "totalMinor", "contributions", "allocation"] "payload.bill" = .ok () := by
    rw [hmetadata, object, SharedExpenses.record, failIf_of_not]
    simp [Json.hasOwn, Json.fieldOf]
  have hcurrency : billMetadata.get "currency" = text "INR" := by
    simp [hmetadata, object, Json.get, Json.fieldOf]
  have htotal : billMetadata.get "totalMinor" = minor bill := by
    simp [hmetadata, object, Json.get, Json.fieldOf]
  have hcontributions : billMetadata.get "contributions" =
      .arr (moneyJson (paidRows d.memberOrder paid.fullPaid)) := by
    rw [← contributionRows_eq]
    simp [hmetadata, object, Json.get, Json.fieldOf]
  have hallocation : billMetadata.get "allocation" = d.allocation rows := by
    simp [hmetadata, object, Json.get, Json.fieldOf]
  have hallocationRecord : SharedExpenses.record (d.allocation rows)
      ["mode", "participants", "tieOrder"] "payload.bill.allocation" = .ok () := by
    rw [SharedExpenseDraft.allocation, object, SharedExpenses.record, failIf_of_not]
    simp [Json.hasOwn, Json.fieldOf]
  have hcount : SharedExpenses.count (.arr (moneyJson (paidRows d.memberOrder paid.fullPaid))) 8
      .invalidPayerCount "payload.bill.contributions" = .ok () := by
    rw [count_eq_ok]
    refine ⟨_, rfl, ?_⟩
    rw [moneyJson, List.length_map]
    exact hvalid.length_bill
  obtain ⟨full, hfull, hentries⟩ := hvalid.exists_full
  have hshares := @entries_shareTexts d shared paid _ hnodup
  set snapshot := snapshotOf d shared paid (moneyJson result.allocations) with hsnapshot
  have hsnapshotTotal : snapshot.get "totalMinor" = minor shared := totalMinor_snapshotOf ..
  have hsnapshotContributions : snapshot.get "contributions" =
      .arr (moneyJson (paidRows d.memberOrder paid.sharedPaid)) := contributions_snapshotOf ..
  have hpos : bill ≠ 0 := (hvalid.shared_pos.trans_le hvalid.shared_le).ne'
  have hmismatch : ¬ (result.allocations.length ≠ (shareTexts snapshot).size ∨
      result.allocations.any (fun row => (shareTexts snapshot).get? row.1 ≠ some (decimal row.2)) =
        true) := by
    rw [InsertionMap.size, hshares, List.length_map, not_or, not_not, List.any_eq_true]
    refine ⟨rfl, ?_⟩
    rintro ⟨row, hrow, hne⟩
    rw [decide_eq_true_eq] at hne
    refine hne ?_
    rw [InsertionMap.get?_eq_some_iff, hshares]
    exact List.mem_map_of_mem hrow
  have hcontribution : ¬ ((moneyJson (paidRows d.memberOrder paid.sharedPaid)).any fun row =>
      (full.get? (stringOf (row.get "memberId"))).getD 0 < bigInt (row.get "amountMinor")) =
        true := by
    rw [moneyJson, List.any_map, List.any_eq_true]
    rintro ⟨row, hrow, hlt⟩
    rw [Function.comp_apply, memberId_allocationJson, amountMinor_allocationJson,
      decide_eq_true_eq, stringOf, minor, bigInt, unsignedValue_decimal] at hlt
    exact absurd (hvalid.covered hentries row hrow) (not_le.mpr hlt)
  have hsum : ¬ full.values.sum ≠ bill := by
    rw [InsertionMap.values, hentries, not_not]
    exact hvalid.sum_bill
  have hbill : ¬ bill < bigInt (minor shared) := by
    rw [minor, bigInt, unsignedValue_decimal, not_lt]
    exact hvalid.shared_le
  have hcurrencyOk : SharedExpenses.currency (text "INR") = .ok () := currency_eq_ok.mpr rfl
  unfold validateBill
  rw [hrecord, ok_bind, hcurrency, htotal, hcontributions, hallocation, hallocationRecord,
    hsnapshotTotal, hsnapshotContributions, hcurrencyOk, ok_bind,
    amount_minor hvalid.bill_le (by decide) fun _ => hpos, ok_bind]
  refine failIf_bind_eq_ok.mpr ⟨hbill, ?_⟩
  rw [hcount, ok_bind, Json.items, Json.items, hfull, ok_bind]
  refine failIf_bind_eq_ok.mpr ⟨hsum, failIf_bind_eq_ok.mpr ⟨hcontribution, ?_⟩⟩
  rw [ok_bind, hresult, ok_bind]
  exact failIf_bind_eq_ok.mpr ⟨hmismatch, rfl⟩

end Accepted

/-- What a preview shows is what the server makes of it: the snapshot is projected, the bill is
accepted, the shares are those of the snapshot, and the balance is the one of the projection (zero
for somebody who has no part in the expense). -/
theorem evaluate_accepted (d : SharedExpenseDraft) (sourceFundingEnabled : Bool)
    (preview : SharedDraftPreview)
    (h : (d.evaluate sourceFundingEnabled).preview = some preview) :
    ∃ projection, projectExpense preview.financialSnapshot = .ok projection ∧
      validateBill preview.billMetadata preview.financialSnapshot = .ok preview.billMetadata ∧
      (preview.financialSnapshot.get "shares").items =
        preview.shares.entries.map (fun e =>
          object [("memberId", .str e.1), ("amountMinor", signedMinor e.2)]) ∧
      (∀ position ∈ projection.positions, position.memberId = d.ownMemberId →
        preview.yourBalance = position.balanceMinor) ∧
      (d.ownMemberId ∉ projection.positions.map Position.memberId → preview.yourBalance = 0) := by
  obtain ⟨bill, shared, paid, payers, rows, hvalid, hpreview⟩ := evaluate_preview h
  obtain ⟨result, projection, hresult, hsnapshot, hproject, hshares, hmetadata, hbalance⟩ :=
    previewOf_eq_ok hpreview
  have hproject' := hproject
  rw [hsnapshot] at hproject'
  obtain ⟨hnodup, shares, hentries, hpositions, habsent⟩ := positions_of_snapshotOf hvalid hproject'
  have hmoney : preview.shares.entries = moneyOf result.allocations := by
    rw [hshares, entries_foldl_set ?_ fun _ _ => by simp]
    · rfl
    · rw [moneyOf, List.map_map]
      exact hnodup
  have hshare : ∀ id, (preview.shares.get? id).getD 0 = ((shares.get? id).getD 0 : ℕ) := by
    intro memberId
    have hrekeys : InsertionMap.Rekeys id (fun _ (n : ℕ) => (n : Money)) shares preview.shares := by
      rw [InsertionMap.Rekeys, hmoney, hentries]
      rfl
    have hget := hrekeys.get? (k := memberId) fun _ _ h => h
    rw [id_eq] at hget
    rw [hget]
    cases shares.get? memberId <;> rfl
  refine ⟨projection, hproject, ?_, ?_, ?_, ?_⟩
  · rw [hsnapshot]
    exact validateBill_of_valid hvalid hresult hnodup hmetadata
  · rw [hsnapshot, shares_snapshotOf, hmoney, moneyOf, List.map_map]
    rfl
  · intro position hposition hown
    rw [hpositions position hposition, hbalance, hshare, hown]
  · intro hnone
    obtain ⟨hpaid, hshareNone⟩ := habsent _ hnone
    rw [hbalance, hshare, hpaid, hshareNone]
    rfl

/-- Two members in the witness. -/
def aliceId : JsString := js "00000000-0000-4000-8000-00000000000a"

def bobId : JsString := js "00000000-0000-4000-8000-00000000000b"

/-- A lunch for 100.01 that one of two paid, split in equal parts. -/
def lunch : SharedExpenseDraft where
  ownMemberId := aliceId
  ownAccountId := js "00000000-0000-4000-8000-000000000001"
  billText := js "100.01"
  sharedText := js "100.01"
  memberOrder := [bobId, aliceId]
  participants := [aliceId, bobId]
  payers := InsertionMap.empty.set aliceId ⟨js "100.01", js "100.01"⟩

theorem evaluate_accepted_lunch : ∃ preview, (lunch.evaluate false).preview = some preview ∧
    validateBill preview.billMetadata preview.financialSnapshot = .ok preview.billMetadata := by
  have hpreview : (lunch.evaluate false).preview.isSome = true := by decide +kernel
  obtain ⟨preview, hsome⟩ := Option.isSome_iff_exists.mp hpreview
  obtain ⟨-, -, hbill, -⟩ := evaluate_accepted lunch false preview hsome
  exact ⟨preview, hsome, hbill⟩

/-- The odd paisa goes to the first member of the order. -/
example : (lunch.evaluate false).preview.map (fun preview => preview.yourBalance) = some 5001 := by
  decide +kernel

end PandaPay.SharedExpenses.App
