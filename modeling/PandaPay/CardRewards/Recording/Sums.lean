import PandaPay.CardRewards.Recording.States

/-!
# Rows are the sums of the records

Every row of a card counts what the records of the transactions say they added to it, through any calls
that apply and reverse transactions.

## Main definitions

* `CardStates.amount`, `CardStates.recorded`: what a row counts, and what the records say
* `Balanced`: they agree
* `Additions.Sound`: what a call adds, is added in hundredths and not below zero

## Main results

* `Balanced.apply`, `Balanced.reverse`: a call keeps the balance
* `amount_apply`, `amount_reverse`: what a call does to the rows
-/

namespace PandaPay.CardRewards

/-! ### What a call adds -/

section Entries

variable (server : Server) (v2 : UserCard)

theorem capPlan_ctx (ctx : Context) : (capPlan server v2 ctx).ctx = resolveContext server.directory ctx := by
  unfold capPlan
  dsimp only
  split
  · rfl
  · split_ifs <;> rfl

/-- Values that keep the keys of what they are made of have distinct keys. -/
theorem nodup_map_filterMap {α β γ : Type*} {f : α → Option β} (key : α → γ) {key' : β → γ}
    (hf : ∀ a b, f a = some b → key' b = key a) {l : List α} (h : (l.map key).Nodup) :
    ((l.filterMap f).map key').Nodup := by
  refine List.Sublist.nodup ?_ h
  induction l with
  | nil => exact .slnil
  | cons a l ih =>
    have ih := ih (List.nodup_cons.mp (List.map_cons ▸ h)).2
    cases ha : f a with
    | none =>
      rw [List.filterMap_cons_none ha]
      exact ih.cons _
    | some b =>
      rw [List.filterMap_cons_some ha, List.map_cons, List.map_cons, hf a b ha]
      exact ih.cons_cons _

theorem nodup_capPlan (ctx : Context) :
    ((capPlan server v2 ctx).caps.map fun planned => planned.1.id).Nodup := by
  unfold capPlan
  dsimp only
  split
  · exact List.nodup_nil
  · split_ifs
    · exact List.nodup_nil
    · refine nodup_map_filterMap AppliedCap.id (fun cap planned h => ?_)
        (nodup_applicableCaps _ _ v2.nodup)
      obtain ⟨window, -, rfl⟩ := Option.map_eq_some_iff.mp h
      rfl

theorem priceOf_capPlan (consumedOf : JsString → JsString → ℚ) (ctx : Context) :
    priceOf server v2 consumedOf (capPlan server v2 ctx) =
      v2.price server.host server.directory ((capPlan server v2 ctx).before consumedOf) ctx := by
  rw [priceOf, capPlan_ctx]
  rfl

end Entries

/-- What a call adds is added in hundredths and not below zero, at most once to each rule. -/
structure CardStates.Additions.Sound (added : CardStates.Additions) : Prop where
  caps : ∀ e ∈ added.outcome.capEntries, 0 ≤ e.delta ∧ OnGrid 100 e.delta
  milestones : ∀ e ∈ added.milestones, 0 ≤ e.delta ∧ OnGrid 100 e.delta
  feeWaivers : ∀ e ∈ added.feeWaivers, 0 ≤ e.delta ∧ OnGrid 100 e.delta
  nodup_caps : (added.outcome.capEntries.map CapEntry.id).Nodup
  nodup_milestones : (added.milestones.map MilestoneEntry.id).Nodup
  nodup_feeWaivers : (added.feeWaivers.map FeeWaiverEntry.id).Nodup

section Sound

variable (server : Server) (v2 : UserCard)

theorem capEntries_sound (consumedOf : JsString → JsString → ℚ) (ctx : Context) :
    ∀ e ∈ (computeTransactionV2 server v2 consumedOf (capPlan server v2 ctx)).capEntries,
      0 ≤ e.delta ∧ OnGrid 100 e.delta := by
  intro e he
  obtain ⟨planned, -, hentry⟩ := List.mem_filterMap.mp he
  obtain ⟨delta, hdelta, rfl⟩ := Option.map_eq_some_iff.mp hentry
  have hget := (Option.filter_eq_some_iff.mp hdelta).1
  rw [priceOf_capPlan] at hget
  have hnonneg := v2.delta_nonneg server.host server.directory
    ((capPlan server v2 ctx).before consumedOf) ctx planned.1.id
  have hgrid := v2.onGrid_delta server.host server.directory
    ((capPlan server v2 ctx).before consumedOf) ctx planned.1.id
  rw [V2Card.delta, hget, Option.getD_some] at hnonneg hgrid
  exact ⟨hnonneg, hgrid⟩

theorem nodup_capEntries (consumedOf : JsString → JsString → ℚ) (ctx : Context) :
    ((computeTransactionV2 server v2 consumedOf (capPlan server v2 ctx)).capEntries.map
      CapEntry.id).Nodup := by
  refine nodup_map_filterMap (fun planned => planned.1.id) (fun planned e h => ?_)
    (nodup_capPlan server v2 ctx)
  obtain ⟨delta, -, rfl⟩ := Option.map_eq_some_iff.mp h
  rfl

theorem milestoneEntries_sound (ctx : Context) (excluded : Bool) :
    (∀ e ∈ milestoneEntries v2 ctx excluded, 0 ≤ e.delta ∧ OnGrid 100 e.delta) ∧
      ((milestoneEntries v2 ctx excluded).map MilestoneEntry.id).Nodup := by
  unfold milestoneEntries
  split_ifs with h
  · exact ⟨fun e he => absurd he List.not_mem_nil, List.nodup_nil⟩
  · push Not at h
    have hentry : ∀ milestone e, milestoneEntry v2 ctx milestone = some e →
        e.id = milestone.id ∧ e.delta = round2 ctx.amount := by
      intro milestone e he
      unfold milestoneEntry at he
      split_ifs at he
      obtain ⟨window, -, rfl⟩ := Option.map_eq_some_iff.mp he
      exact ⟨rfl, rfl⟩
    refine ⟨fun e he => ?_, nodup_map_filterMap MilestoneRule.id
      (fun milestone e he => (hentry milestone e he).1) v2.nodup_milestones⟩
    obtain ⟨milestone, -, he⟩ := List.mem_filterMap.mp he
    rw [(hentry milestone e he).2]
    exact ⟨round2_nonneg h.2.1.le, onGrid_round2 _⟩

theorem feeWaiverEntries_sound {amount : ℚ} (hamount : 0 < amount) (occurred : ℤ)
    (categoryId : Option JsString) (excluded : Bool) :
    (∀ e ∈ feeWaiverEntries server v2 amount occurred categoryId excluded,
        0 ≤ e.delta ∧ OnGrid 100 e.delta) ∧
      ((feeWaiverEntries server v2 amount occurred categoryId excluded).map FeeWaiverEntry.id).Nodup := by
  unfold feeWaiverEntries
  split_ifs
  · exact ⟨fun e he => absurd he List.not_mem_nil, List.nodup_nil⟩
  · refine ⟨fun e he => ?_, ?_⟩
    · obtain ⟨rule, -, rfl⟩ := List.mem_map.mp he
      exact ⟨round2_nonneg hamount.le, onGrid_round2 _⟩
    · rw [List.map_map]
      exact (List.filter_sublist.map FeeWaiverRule.id).nodup server.nodup_feeWaiverRules

/-- What a call adds is sound, for any consumption so far. -/
theorem additions_sound (s : CardStates) (args : ApplyArgs) (row : SpendRow) :
    (s.additions server v2 args row (capPlan server v2 (transactionContext row))).Sound where
  caps := capEntries_sound server v2 _ _
  milestones := (milestoneEntries_sound v2 _ _).1
  feeWaivers := (feeWaiverEntries_sound server v2 args.amount_pos _ _ _).1
  nodup_caps := nodup_capEntries server v2 _ _
  nodup_milestones := (milestoneEntries_sound v2 _ _).2
  nodup_feeWaivers := (feeWaiverEntries_sound server v2 args.amount_pos _ _ _).2

end Sound

/-! ### Postings -/

namespace CardStates

open Counting

/-- What is added to which row. -/
def Additions.postings (added : Additions) (v2 : UserCard) (name : RecordSection) : List (RowKey × ℚ) :=
  (sectionsOf added.outcome.capEntries added.milestones added.feeWaivers name).map fun e =>
    (⟨v2.userCardId, e.id, e.start⟩, e.delta)

theorem sortEntries_perm (entries : List RecordEntry) : (sortEntries entries).Perm entries :=
  List.perm_insertionSort _ _

/-- The record of what is added says what is added. -/
theorem record_postings (added : Additions) (v2 : UserCard) (name : RecordSection) :
    ((added.record v2).elim [] fun record => record.postings name).Perm (added.postings v2 name) := by
  unfold Additions.record toRecord
  split_ifs with hempty
  · rw [Option.elim_none, Additions.postings]
    obtain ⟨hcaps, hmilestones, hwaivers⟩ := hempty
    cases name with
    | caps => rw [hcaps, List.map_nil]
    | milestones => rw [hmilestones, List.map_nil]
    | feeWaivers => rw [hwaivers, List.map_nil]
  · cases name <;> exact (sortEntries_perm _).map _

section Upserts

variable {added : Additions} (h : added.Sound) (v2 : UserCard)
include h

theorem capUpserts_postings :
    (capUpserts v2 added.outcome.capEntries).map capCounting.posting = added.postings v2 .caps := by
  unfold capUpserts Additions.postings sectionsOf
  rw [List.map_map, List.map_map]
  refine List.map_congr_left fun e he => Prod.ext rfl ?_
  exact (round2_of_onGrid (h.caps e he).2).symm

theorem milestoneUpserts_postings :
    (milestoneUpserts v2 added.milestones).map milestoneCounting.posting =
      added.postings v2 .milestones := by
  unfold milestoneUpserts Additions.postings sectionsOf
  rw [List.map_map, List.map_map]
  refine List.map_congr_left fun e he => Prod.ext rfl ?_
  exact (round2_of_onGrid (h.milestones e he).2).symm

theorem feeWaiverUpserts_postings (server : Server) (now : ℤ) :
    (feeWaiverUpserts v2 added.feeWaivers).map (feeWaiverCounting server now).posting =
      added.postings v2 .feeWaivers := by
  unfold feeWaiverUpserts Additions.postings sectionsOf
  rw [List.map_map, List.map_map]
  refine List.map_congr_left fun e he => Prod.ext rfl ?_
  exact (round2_of_onGrid (h.feeWaivers e he).2).symm

theorem postings_nonneg (name : RecordSection) : ∀ p ∈ added.postings v2 name, 0 ≤ p.2 := by
  intro p hp
  obtain ⟨e, he, rfl⟩ := List.mem_map.mp hp
  cases name with
  | caps =>
    obtain ⟨f, hf, rfl⟩ := List.mem_map.mp he
    exact round2_nonneg (h.caps f hf).1
  | milestones =>
    obtain ⟨f, hf, rfl⟩ := List.mem_map.mp he
    exact round2_nonneg (h.milestones f hf).1
  | feeWaivers =>
    obtain ⟨f, hf, rfl⟩ := List.mem_map.mp he
    exact round2_nonneg (h.feeWaivers f hf).1

end Upserts

/-! ### Amounts -/

/-- What the row of a key counts. -/
def amount (s : CardStates) : RecordSection → RowKey → ℚ
  | .caps, k => capCounting.amountIn s.capStates k
  | .milestones, k => milestoneCounting.amountIn s.milestoneStates k
  | .feeWaivers, k => (s.feeWaiverStates.get? k).elim 0 FeeWaiverState.qualifiedSpend

/-- What the records of the transactions say was added to the row of a key. -/
def recorded (s : CardStates) (name : RecordSection) (k : RowKey) : ℚ :=
  s.transactions.sum fun _ txn => share k (txn.postings name)

/-- What the record of a transaction says it added. -/
def postingsOf (s : CardStates) (txnId : JsString) (name : RecordSection) : List (RowKey × ℚ) :=
  (s.recordOf txnId).elim [] fun record => record.postings name

variable {server : Server} {now : ℤ} {s : CardStates} {txnId : JsString} {name : RecordSection} {k : RowKey}

theorem amount_reverseRecord {record : Record} (hnonneg : ∀ p ∈ record.postings name, 0 ≤ p.2)
    (hle : share k (record.postings name) ≤ s.amount name k) :
    (s.reverseRecord server now record).amount name k =
      s.amount name k - share k (record.postings name) := by
  cases name with
  | caps => exact capCounting.amountIn_takeAll hnonneg hle
  | milestones => exact milestoneCounting.amountIn_takeAll hnonneg hle
  | feeWaivers => exact (feeWaiverCounting server now).amountIn_takeAll hnonneg hle

theorem amount_updateTransaction (f : StoredTransaction → StoredTransaction) :
    (s.updateTransaction txnId f).amount name k = s.amount name k := by
  unfold updateTransaction
  split
  · rfl
  · cases name <;> rfl

theorem amount_withoutLedger : (s.withoutLedger txnId).amount name k = s.amount name k := by
  cases name <;> rfl

theorem amount_add {added : Additions} (h : added.Sound) (v2 : UserCard) (args : ApplyArgs)
    (hamount : 0 ≤ s.amount name k) :
    (s.add server now v2 args added).amount name k =
      s.amount name k + share k (added.postings v2 name) := by
  rw [add, amount_updateTransaction]
  cases name with
  | caps =>
    rw [← capUpserts_postings h]
    refine capCounting.amountIn_giveAll (fun e he => ?_) hamount
    obtain ⟨f, hf, rfl⟩ := List.mem_map.mp he
    exact (h.caps f hf).1
  | milestones =>
    rw [← milestoneUpserts_postings h]
    refine milestoneCounting.amountIn_giveAll (fun e he => ?_) hamount
    obtain ⟨f, hf, rfl⟩ := List.mem_map.mp he
    exact (h.milestones f hf).1
  | feeWaivers =>
    rw [← feeWaiverUpserts_postings h v2 server now]
    refine (feeWaiverCounting server now).amountIn_giveAll (fun e he => ?_) hamount
    obtain ⟨f, hf, rfl⟩ := List.mem_map.mp he
    exact (h.feeWaivers f hf).1

/-! ### Transactions -/

theorem get?_updateTransaction (f : StoredTransaction → StoredTransaction) (j : JsString) :
    (s.updateTransaction txnId f).transactions.get? j =
      (s.transactions.get? j).map fun txn => if j = txnId then f txn else txn := by
  unfold updateTransaction
  split
  · rename_i hnone
    by_cases hj : j = txnId
    · rw [hj, hnone, Option.map_none]
    · simp [hj]
  · rename_i txn hget
    dsimp only
    rw [InsertionMap.get?_set]
    split_ifs with hj
    · rw [hj, hget, Option.map_some]
    · rw [Option.map_id']

@[simp] theorem transactions_undo : (s.undo server now txnId).transactions = s.transactions := by
  unfold undo
  split <;> rfl

theorem recorded_updateTransaction {f : StoredTransaction → StoredTransaction} {txn : StoredTransaction}
    (hget : s.transactions.get? txnId = some txn) :
    (s.updateTransaction txnId f).recorded name k =
      s.recorded name k - share k (txn.postings name) + share k ((f txn).postings name) := by
  have hsum := InsertionMap.sum_set s.transactions (fun _ txn => share k (txn.postings name)) txnId (f txn)
  rw [hget, Option.elim_some] at hsum
  have hupdate : (s.updateTransaction txnId f).recorded name k =
      (s.transactions.set txnId (f txn)).sum fun _ txn => share k (txn.postings name) := by
    unfold updateTransaction recorded
    rw [hget]
  rw [hupdate, eq_sub_of_add_eq hsum, recorded]
  ring

end CardStates

/-! ### Balance -/

open CardStates

/-- Each row counts what the records say was added to it, and no row is of the first version. -/
structure CardStates.Balanced (s : CardStates) : Prop where
  amount_eq : ∀ name k, s.amount name k = s.recorded name k
  nonneg : ∀ txnId name, ∀ p ∈ s.postingsOf txnId name, 0 ≤ p.2
  kinds : ∀ k row, s.capStates.get? k = some row → row.capKind.isSome

/-- Where nothing is recorded and there are no rows, all is balanced. -/
theorem CardStates.balanced_of_fresh {s : CardStates} (hcaps : s.capStates = .empty)
    (hmilestones : s.milestoneStates = .empty) (hwaivers : s.feeWaiverStates = .empty)
    (hrecords : ∀ txnId, s.recordOf txnId = none) : s.Balanced where
  amount_eq name k := by
    have hamount : s.amount name k = 0 := by
      cases name with
      | caps => rw [amount, hcaps]; rfl
      | milestones => rw [amount, hmilestones]; rfl
      | feeWaivers => rw [amount, hwaivers]; rfl
    refine hamount.trans (InsertionMap.sum_eq_zero fun txnId txn hmem => ?_).symm
    have hrecord := hrecords txnId
    rw [recordOf, InsertionMap.get?_eq_some_iff.mpr hmem, Option.bind_some] at hrecord
    rw [StoredTransaction.postings, hrecord, Option.elim_none, share_nil]
  nonneg txnId name p hp := by
    rw [postingsOf, hrecords] at hp
    exact absurd hp List.not_mem_nil
  kinds k row hrow := by
    rw [hcaps, InsertionMap.get?_empty] at hrow
    cases hrow

namespace CardStates.Balanced

variable {s : CardStates} (h : s.Balanced) (txnId : JsString) (name : RecordSection) (k : RowKey)
include h

theorem recorded_erase_nonneg :
    0 ≤ (s.transactions.erase txnId).sum fun _ txn => share k (txn.postings name) := by
  refine List.sum_nonneg fun d hd => ?_
  obtain ⟨entry, hentry, rfl⟩ := List.mem_map.mp hd
  have hget := InsertionMap.get?_eq_some_iff.mpr (List.mem_of_mem_filter hentry)
  have hnonneg := h.nonneg entry.1 name
  rw [postingsOf, recordOf, hget] at hnonneg
  exact share_nonneg hnonneg

/-- A row counts at least what the record of one transaction says. -/
theorem share_le : share k (s.postingsOf txnId name) ≤ s.amount name k := by
  have hsum := InsertionMap.sum_erase s.transactions (fun _ txn => share k (txn.postings name)) txnId
  have hrest := h.recorded_erase_nonneg txnId name k
  rw [h.amount_eq, recorded, ← hsum, postingsOf, recordOf]
  cases s.transactions.get? txnId with
  | none => simpa using hrest
  | some txn => exact le_add_of_nonneg_left hrest

theorem amount_nonneg : 0 ≤ s.amount name k :=
  (share_nonneg (h.nonneg [] name)).trans (h.share_le [] name k)

variable (server : Server) (now : ℤ)

/-- Undoing a transaction takes back what its record says it added. -/
theorem amount_undo :
    (s.undo server now txnId).amount name k = s.amount name k - share k (s.postingsOf txnId name) := by
  have hle := h.share_le txnId name k
  have hnonneg := h.nonneg txnId name
  unfold undo
  rw [postingsOf] at hle hnonneg ⊢
  cases hrecord : s.recordOf txnId with
  | none => rw [Option.elim_none, share_nil, sub_zero]
  | some record =>
    rw [hrecord] at hle hnonneg
    rw [Option.elim_some]
    exact amount_withoutLedger.trans (amount_reverseRecord hnonneg hle)

theorem amount_undo_nonneg : 0 ≤ (s.undo server now txnId).amount name k := by
  rw [h.amount_undo]
  exact sub_nonneg.mpr (h.share_le txnId name k)

theorem kinds_reverseRecord (record : Record) :
    ∀ k row, (s.reverseRecord server now record).capStates.get? k = some row → row.capKind.isSome :=
  capCounting.forall_get?_takeAll (P := fun _ (row : CapState) => row.capKind.isSome)
    (fun _ _ _ hrow => hrow) h.kinds _

theorem kinds_undo :
    ∀ k row, (s.undo server now txnId).capStates.get? k = some row → row.capKind.isSome := by
  unfold undo
  split
  · exact h.kinds
  · exact h.kinds_reverseRecord server now _

/-- No planned cap has a row of the first version. -/
theorem stale_undo (v2 : UserCard) (plan : CapPlan) : (s.undo server now txnId).stale v2 plan = false := by
  refine List.any_eq_false.mpr fun planned _ hstale => ?_
  cases hrow : (s.undo server now txnId).capStates.get?
      ⟨v2.userCardId, planned.1.id, planned.2.start⟩ with
  | none =>
    rw [hrow] at hstale
    cases hstale
  | some row =>
    rw [hrow, Option.any_some, Option.isNone_iff_eq_none] at hstale
    have hsome := h.kinds_undo txnId server now _ row hrow
    rw [hstale] at hsome
    cases hsome

end CardStates.Balanced

end PandaPay.CardRewards
