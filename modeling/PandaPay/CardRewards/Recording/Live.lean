import PandaPay.CardRewards.Recording.Sums
import Mathlib.Logic.Relation

/-!
# Live recording

Any run of calls that apply and reverse transactions keeps the rows of a card balanced with the records.
Reversing takes back all that applying added, and applying again changes nothing but the times at which
fees were waived.

## Main definitions

* `LiveCall`: a call
* `SameRows`: rows that agree, except for the times at which fees were waived

## Main results

* `Balanced.apply`, `Balanced.reverse`: a call keeps the balance
* `live_recording`: rows, reversals and repeated calls, along any run
* `not_live_recording`: a transaction that is applied twice and then reversed
-/

namespace PandaPay.CardRewards

open CardStates

/-- `rebuildCardState`, for a card, an instant and the transactions that are left out. -/
abbrev Rebuild := UserCard → ℤ → List JsString → CardStates → CardStates

namespace CardStates

variable (server : Server) (now : ℤ) (rebuild : Rebuild) (v2 : UserCard) (args : ApplyArgs) (s : CardStates)

/-- The caps that a call plans with. -/
def planOf : CapPlan := capPlan server v2 (transactionContext (s.spendRow args))

/-- What a call adds, where no row is of the first version. -/
def added : Additions :=
  (s.undo server now args.txnId).additions server v2 args (s.spendRow args) (s.planOf server v2 args)

theorem added_sound : (s.added server now v2 args).Sound := additions_sound _ _ _ _ _

@[simp] theorem transactions_add (added : Additions) (j : JsString) :
    (s.add server now v2 args added).transactions.get? j = (s.transactions.get? j).map fun txn =>
      if j = args.txnId then
        { txn with
          expectedValueInr := some added.outcome.value
          expectedPoints := some added.outcome.native
          expectedCashbackInr := added.outcome.cashback
          cardStateV2 := added.record v2 }
      else txn := by
  rw [add, get?_updateTransaction]

theorem recordOf_add (added : Additions) (j : JsString) :
    (s.add server now v2 args added).recordOf j =
      if j = args.txnId ∧ (s.transactions.get? j).isSome then added.record v2 else s.recordOf j := by
  rw [recordOf, transactions_add, recordOf]
  cases s.transactions.get? j with
  | none => simp
  | some txn => by_cases hj : j = args.txnId <;> simp [hj]

theorem recorded_add {added : Additions} {name : RecordSection} {k : RowKey}
    (hstored : (s.transactions.get? args.txnId).isSome) :
    (s.add server now v2 args added).recorded name k =
      s.recorded name k - share k (s.postingsOf args.txnId name) + share k (added.postings v2 name) := by
  obtain ⟨txn, hget⟩ := Option.isSome_iff_exists.mp hstored
  rw [add]
  refine Eq.trans (recorded_updateTransaction hget) ?_
  have hold : txn.postings name = s.postingsOf args.txnId name := by
    rw [postingsOf, recordOf, hget]
    rfl
  have hnew := share_perm (k := k) (record_postings added v2 name)
  rw [← hnew, hold]
  rfl

/-- A transaction that loses its record no longer counts. -/
theorem recorded_clear {txnId : JsString} {f : StoredTransaction → StoredTransaction}
    (hf : ∀ txn, (f txn).cardStateV2 = none) (name : RecordSection) (k : RowKey) :
    (s.updateTransaction txnId f).recorded name k = s.recorded name k - share k (s.postingsOf txnId name) := by
  cases hget : s.transactions.get? txnId with
  | none =>
    have hpostings : s.postingsOf txnId name = [] := by
      rw [postingsOf, recordOf, hget]
      rfl
    rw [hpostings, share_nil, sub_zero, updateTransaction, hget]
  | some txn =>
    have hold : s.postingsOf txnId name = txn.postings name := by
      rw [postingsOf, recordOf, hget]
      rfl
    have hnew : (f txn).postings name = [] := by rw [StoredTransaction.postings, hf, Option.elim_none]
    rw [recorded_updateTransaction hget, hnew, share_nil, add_zero, hold]

theorem recorded_reverse (txnId : JsString) (name : RecordSection) (k : RowKey) :
    (s.reverseTransactionV2 server now txnId).recorded name k =
      s.recorded name k - share k (s.postingsOf txnId name) := by
  unfold reverseTransactionV2
  cases s.recordOf txnId with
  | none => exact recorded_clear s (fun _ => rfl) name k
  | some record => exact recorded_clear (s.reverseRecord server now record) (fun _ => rfl) name k

end CardStates

/-! ### One call -/

namespace CardStates.Balanced

variable {server : Server} {now : ℤ} {s : CardStates} (h : s.Balanced) {name : RecordSection} {k : RowKey}
include h

variable (server now) (rebuild : Rebuild) (v2 : UserCard) (args : ApplyArgs)

/-- Without rows of the first version a call does not rebuild. -/
theorem apply_eq : s.applyTransactionV2 server now rebuild v2 args =
    (s.undo server now args.txnId).add server now v2 args (s.added server now v2 args) := by
  unfold applyTransactionV2
  dsimp only
  rw [h.stale_undo]
  rfl

/-- A row has less by what the transaction carried, and more by what is added. -/
theorem amount_apply : (s.applyTransactionV2 server now rebuild v2 args).amount name k =
    s.amount name k - share k (s.postingsOf args.txnId name) +
      share k ((s.added server now v2 args).postings v2 name) := by
  rw [h.apply_eq, amount_add (s.added_sound server now v2 args) _ _
    (h.amount_undo_nonneg args.txnId name k server now), h.amount_undo]

theorem recordOf_apply (hstored : (s.transactions.get? args.txnId).isSome) (j : JsString) :
    (s.applyTransactionV2 server now rebuild v2 args).recordOf j =
      if j = args.txnId then (s.added server now v2 args).record v2 else s.recordOf j := by
  rw [h.apply_eq, recordOf_add, transactions_undo, recordOf, transactions_undo, ← recordOf]
  by_cases hj : j = args.txnId
  · rw [if_pos hj, if_pos ⟨hj, hj ▸ hstored⟩]
  · rw [if_neg hj, if_neg fun hand => hj hand.1]

/-- Applying keeps the balance. -/
theorem apply (hstored : (s.transactions.get? args.txnId).isSome) :
    (s.applyTransactionV2 server now rebuild v2 args).Balanced := by
  have hsound := s.added_sound server now v2 args
  refine ⟨fun name k => ?_, fun txnId name p hp => ?_, ?_⟩
  · rw [h.amount_apply, h.apply_eq,
      recorded_add server now v2 args _ (by rw [transactions_undo]; exact hstored), h.amount_eq]
    simp only [recorded, postingsOf, recordOf, transactions_undo]
  · rw [postingsOf, h.recordOf_apply server now rebuild v2 args hstored] at hp
    split_ifs at hp with hj
    · exact postings_nonneg hsound v2 name p ((record_postings _ v2 name).mem_iff.mp hp)
    · exact h.nonneg txnId name p hp
  · rw [h.apply_eq]
    have hgiven := forall_get?_putAll capCounting.key (f := capCounting.give)
      (P := fun _ row => row.capKind.isSome) _ (fun _ _ => rfl) (h.kinds_undo args.txnId server now)
      (capUpserts v2 (s.added server now v2 args).outcome.capEntries)
    unfold add updateTransaction
    dsimp only
    split <;> exact hgiven

variable (txnId : JsString)

/-- A row has less by what the transaction carried. -/
theorem amount_reverse : (s.reverseTransactionV2 server now txnId).amount name k =
    s.amount name k - share k (s.postingsOf txnId name) := by
  rw [reverseTransactionV2, amount_withoutLedger, amount_updateTransaction,
    ← h.amount_undo txnId name k server now]
  unfold undo
  cases s.recordOf txnId with
  | none => rfl
  | some record => exact amount_withoutLedger.symm

omit h in
theorem recordOf_reverse (j : JsString) : (s.reverseTransactionV2 server now txnId).recordOf j =
    if j = txnId then none else s.recordOf j := by
  have htransactions : (s.reverseTransactionV2 server now txnId).transactions.get? j =
      (s.transactions.get? j).map fun txn =>
        if j = txnId then
          { txn with
            expectedValueInr := some 0
            expectedPoints := some 0
            expectedCashbackInr := txn.expectedCashbackInr.map fun _ => 0
            cardStateV2 := none }
        else txn := by
    rw [reverseTransactionV2, withoutLedger, get?_updateTransaction]
    cases s.recordOf txnId <;> rfl
  rw [recordOf, htransactions, recordOf]
  cases s.transactions.get? j with
  | none => simp
  | some txn => by_cases hj : j = txnId <;> simp [hj]

/-- Reversing keeps the balance. -/
theorem reverse : (s.reverseTransactionV2 server now txnId).Balanced := by
  refine ⟨fun name k => ?_, fun j name p hp => ?_, ?_⟩
  · rw [h.amount_reverse, h.amount_eq, recorded_reverse]
  · rw [postingsOf, recordOf_reverse] at hp
    split_ifs at hp
    · exact absurd hp List.not_mem_nil
    · exact h.nonneg j name p hp
  · have hkinds : ∀ s' : CardStates, (∀ k row, s'.capStates.get? k = some row → row.capKind.isSome) →
        ∀ f k row, ((s'.updateTransaction txnId f).withoutLedger txnId).capStates.get? k = some row →
          row.capKind.isSome := by
      intro s' hs' f
      unfold updateTransaction
      split <;> exact hs'
    unfold reverseTransactionV2
    dsimp only
    split
    · exact hkinds s h.kinds _
    · exact hkinds _ (h.kinds_reverseRecord server now _) _

end CardStates.Balanced

/-! ### Runs -/

/-- A call on a stored transaction that meets `P`. -/
inductive LiveCall (P : JsString → Prop) (server : Server) (rebuild : Rebuild) :
    CardStates → CardStates → Prop
  | apply {s : CardStates} (now : ℤ) (v2 : UserCard) (args : ApplyArgs) (hmeets : P args.txnId)
      (hstored : (s.transactions.get? args.txnId).isSome) :
      LiveCall P server rebuild s (s.applyTransactionV2 server now rebuild v2 args)
  | reverse {s : CardStates} (now : ℤ) (txnId : JsString) (hmeets : P txnId) :
      LiveCall P server rebuild s (s.reverseTransactionV2 server now txnId)

section Runs

variable {P : JsString → Prop} {server : Server} {rebuild : Rebuild} {s s' : CardStates}

theorem LiveCall.balanced (hcall : LiveCall P server rebuild s s') (h : s.Balanced) : s'.Balanced := by
  cases hcall with
  | apply now v2 args _ hstored => exact h.apply server now rebuild v2 args hstored
  | reverse now txnId _ => exact h.reverse server now txnId

/-- A run keeps the balance. -/
theorem balanced_of_run (hrun : Relation.ReflTransGen (LiveCall P server rebuild) s s')
    (h : s.Balanced) : s'.Balanced := by
  induction hrun with
  | refl => exact h
  | tail _ hcall ih => exact hcall.balanced ih

/-- What a call on other transactions keeps of a transaction: what it says about its spend, and its
record. -/
theorem LiveCall.get?_eq {txnId : JsString} (hcall : LiveCall (· ≠ txnId) server rebuild s s')
    (h : s.Balanced) : s'.transactions.get? txnId = s.transactions.get? txnId := by
  cases hcall with
  | apply now v2 args hmeets _ =>
    rw [h.apply_eq, transactions_add, transactions_undo]
    simp [Ne.symm hmeets]
  | reverse now other hmeets =>
    rw [reverseTransactionV2, withoutLedger, get?_updateTransaction]
    simp only [Ne.symm hmeets, if_false, Option.map_id']
    cases s.recordOf other <;> rfl

theorem get?_eq_of_run {txnId : JsString}
    (hrun : Relation.ReflTransGen (LiveCall (· ≠ txnId) server rebuild) s s') (h : s.Balanced) :
    s'.transactions.get? txnId = s.transactions.get? txnId := by
  induction hrun with
  | refl => rfl
  | tail hrun hcall ih => exact (hcall.get?_eq (balanced_of_run hrun h)).trans ih

end Runs

/-! ### Calls that are repeated -/

/-- Rows of fee waivers that agree, except for the time at which the fee was waived. -/
structure FeeWaiverState.SameButTime (row row' : FeeWaiverState) : Prop where
  periodEnd : row.periodEnd = row'.periodEnd
  qualifiedSpend : row.qualifiedSpend = row'.qualifiedSpend
  waived : row.waivedAt.isSome = row'.waivedAt.isSome

/-- Rows that agree, except for the times at which fees were waived. -/
structure SameRows (s s' : CardStates) : Prop where
  caps : ∀ k, s'.capStates.get? k = s.capStates.get? k
  milestones : ∀ k, s'.milestoneStates.get? k = s.milestoneStates.get? k
  feeWaivers : ∀ k, Option.Rel FeeWaiverState.SameButTime (s.feeWaiverStates.get? k)
    (s'.feeWaiverStates.get? k)

section Regive

theorem max_add_sub_add {x d : ℚ} (hx : 0 ≤ x) (hd : 0 ≤ d) :
    max 0 (max 0 (max 0 (x + d) - d) + d) = max 0 (x + d) := by
  rw [max_eq_right (add_nonneg hx hd), add_sub_cancel_right, max_eq_right hx,
    max_eq_right (add_nonneg hx hd)]

theorem capCounting_regive {row : Option CapState} {e : CapUpsert}
    (hrow : 0 ≤ row.elim 0 CapState.consumed) (he : 0 ≤ e.delta) :
    capCounting.give (some (capCounting.take e.key (capCounting.give row e) e.delta)) e =
      capCounting.give row e := by
  simp only [capCounting, Option.elim_some, max_add_sub_add hrow he]

theorem milestoneCounting_regive {row : Option MilestoneState} {e : MilestoneUpsert}
    (hrow : 0 ≤ row.elim 0 MilestoneState.qualifiedSpend) (he : 0 ≤ e.delta) :
    milestoneCounting.give (some (milestoneCounting.take e.key (milestoneCounting.give row e) e.delta)) e =
      milestoneCounting.give row e := by
  simp only [milestoneCounting, Option.elim_some, max_add_sub_add hrow he]

theorem isSome_settleFeeWaiver (now : ℤ) (state : FeeWaiverState) (threshold : ℚ) :
    (settleFeeWaiver now state threshold).waivedAt.isSome = decide (threshold ≤ state.qualifiedSpend) := by
  unfold settleFeeWaiver
  dsimp only
  split_ifs with h
  · rw [Option.isSome_or, Option.isSome_some, Bool.or_true, decide_eq_true h]
  · rw [Option.isSome_none, decide_eq_false h]

theorem feeWaiverCounting_regive (server : Server) (now now' : ℤ) {row : Option FeeWaiverState}
    {e : FeeWaiverUpsert} (hrow : 0 ≤ row.elim 0 FeeWaiverState.qualifiedSpend) (he : 0 ≤ e.delta) :
    FeeWaiverState.SameButTime ((feeWaiverCounting server now).give row e)
      ((feeWaiverCounting server now').give (some ((feeWaiverCounting server now').take e.key
        ((feeWaiverCounting server now).give row e) e.delta)) e) where
  periodEnd := rfl
  qualifiedSpend := (max_add_sub_add hrow he).symm
  waived := by
    refine (isSome_settleFeeWaiver _ _ _).trans (Eq.trans ?_ (isSome_settleFeeWaiver _ _ _).symm)
    exact congrArg (fun q => decide (server.threshold e.key.ruleId ≤ q)) (max_add_sub_add hrow he).symm

end Regive

namespace CardStates

section Undo

variable (server : Server) (now : ℤ) (s : CardStates) (txnId : JsString)

theorem capStates_undo : (s.undo server now txnId).capStates =
    capCounting.takeAll s.capStates (s.postingsOf txnId .caps) := by
  unfold undo postingsOf
  cases s.recordOf txnId <;> rfl

theorem milestoneStates_undo : (s.undo server now txnId).milestoneStates =
    milestoneCounting.takeAll s.milestoneStates (s.postingsOf txnId .milestones) := by
  unfold undo postingsOf
  cases s.recordOf txnId <;> rfl

theorem feeWaiverStates_undo : (s.undo server now txnId).feeWaiverStates =
    (feeWaiverCounting server now).takeAll s.feeWaiverStates (s.postingsOf txnId .feeWaivers) := by
  unfold undo postingsOf
  cases s.recordOf txnId <;> rfl

end Undo

section Add

variable (server : Server) (now : ℤ) (v2 : UserCard) (args : ApplyArgs) (s : CardStates) (added : Additions)

theorem capStates_add : (s.add server now v2 args added).capStates =
    capCounting.giveAll s.capStates (capUpserts v2 added.outcome.capEntries) := by
  unfold add updateTransaction
  dsimp only
  split <;> rfl

theorem milestoneStates_add : (s.add server now v2 args added).milestoneStates =
    milestoneCounting.giveAll s.milestoneStates (milestoneUpserts v2 added.milestones) := by
  unfold add updateTransaction
  dsimp only
  split <;> rfl

theorem feeWaiverStates_add : (s.add server now v2 args added).feeWaiverStates =
    (feeWaiverCounting server now).giveAll s.feeWaiverStates (feeWaiverUpserts v2 added.feeWaivers) := by
  unfold add updateTransaction
  dsimp only
  split <;> rfl

end Add

/-- The price of a plan depends on the consumption of its caps in their windows alone. -/
theorem computeTransactionV2_congr {server : Server} {v2 : UserCard} {plan : CapPlan}
    {consumedOf consumedOf' : JsString → JsString → ℚ}
    (h : ∀ planned ∈ plan.caps, consumedOf planned.1.id planned.2.start =
      consumedOf' planned.1.id planned.2.start) :
    computeTransactionV2 server v2 consumedOf plan = computeTransactionV2 server v2 consumedOf' plan := by
  have hbefore : plan.before consumedOf = plan.before consumedOf' := by
    funext id
    unfold CapPlan.before
    cases hfind : plan.caps.find? fun planned => planned.1.id = id with
    | none => rfl
    | some planned =>
      have hid : planned.1.id = id := by simpa using List.find?_some hfind
      exact hid ▸ h planned (List.mem_of_find?_eq_some hfind)
  unfold computeTransactionV2 priceOf
  rw [hbefore]

/-- An entry is of a planned cap, in its window. -/
theorem exists_planned {server : Server} {v2 : UserCard} {plan : CapPlan}
    {consumedOf : JsString → JsString → ℚ} {e : CapEntry}
    (he : e ∈ (computeTransactionV2 server v2 consumedOf plan).capEntries) :
    ∃ planned ∈ plan.caps, e.id = planned.1.id ∧ e.start = planned.2.start := by
  obtain ⟨planned, hplanned, hentry⟩ := List.mem_filterMap.mp he
  obtain ⟨delta, -, rfl⟩ := Option.map_eq_some_iff.mp hentry
  exact ⟨planned, hplanned, rfl, rfl⟩

theorem nodup_map_rowKey {α : Type*} (userCardId : JsString) {id start : α → JsString} {l : List α}
    (h : (l.map id).Nodup) : (l.map fun e => (⟨userCardId, id e, start e⟩ : RowKey)).Nodup := by
  refine List.Nodup.of_map RowKey.ruleId ?_
  rw [List.map_map]
  exact h

end CardStates

section Again

variable {server : Server} {rebuild : Rebuild} {now : ℤ} {v2 : UserCard} {args : ApplyArgs}
  {s between : CardStates} (h : s.Balanced) (hstored : (s.transactions.get? args.txnId).isSome)
  (hrun : Relation.ReflTransGen (LiveCall (· ≠ args.txnId) server rebuild)
    (s.applyTransactionV2 server now rebuild v2 args) between)
include h hstored hrun

/-- Between, the transaction carries the record of what was added. -/
theorem postingsOf_between (name : RecordSection) :
    (between.postingsOf args.txnId name).Perm ((s.added server now v2 args).postings v2 name) := by
  have happly := h.apply server now rebuild v2 args hstored
  have hrecord : between.recordOf args.txnId = (s.added server now v2 args).record v2 := by
    rw [recordOf, get?_eq_of_run hrun happly, ← recordOf,
      h.recordOf_apply server now rebuild v2 args hstored, if_pos rfl]
  rw [postingsOf, hrecord]
  exact record_postings _ _ _

/-- Between, the transaction says the same about its spend. -/
theorem planOf_between : between.planOf server v2 args = s.planOf server v2 args := by
  have happly := h.apply server now rebuild v2 args hstored
  have hspend : between.spendRow args = s.spendRow args := by
    obtain ⟨txn, htxn⟩ := Option.isSome_iff_exists.mp hstored
    unfold spendRow
    rw [get?_eq_of_run hrun happly, h.apply_eq, transactions_add, transactions_undo, htxn,
      Option.map_some, if_pos rfl]
    rfl
  rw [planOf, planOf, hspend]

variable (hcaps : ∀ planned ∈ (s.planOf server v2 args).caps,
  between.capStates.get? ⟨v2.userCardId, planned.1.id, planned.2.start⟩ =
    (s.applyTransactionV2 server now rebuild v2 args).capStates.get?
      ⟨v2.userCardId, planned.1.id, planned.2.start⟩)
include hcaps

/-- A repeated call adds what the first call added. -/
theorem added_between (now' : ℤ) :
    between.added server now' v2 args = s.added server now v2 args := by
  have happly := h.apply server now rebuild v2 args hstored
  have hbetween := balanced_of_run hrun happly
  have hspend : between.spendRow args = s.spendRow args := by
    obtain ⟨txn, htxn⟩ := Option.isSome_iff_exists.mp hstored
    unfold spendRow
    rw [get?_eq_of_run hrun happly, h.apply_eq, transactions_add, transactions_undo, htxn,
      Option.map_some, if_pos rfl]
    rfl
  have hconsumed : ∀ planned ∈ (s.planOf server v2 args).caps,
      (between.undo server now' args.txnId).consumedOf v2.userCardId planned.1.id planned.2.start =
        (s.undo server now args.txnId).consumedOf v2.userCardId planned.1.id planned.2.start := by
    intro planned hplanned
    have hrow : between.amount .caps ⟨v2.userCardId, planned.1.id, planned.2.start⟩ =
        (s.applyTransactionV2 server now rebuild v2 args).amount .caps
          ⟨v2.userCardId, planned.1.id, planned.2.start⟩ :=
      congrArg (fun row : Option CapState => row.elim 0 CapState.consumed) (hcaps planned hplanned)
    have hshare := share_perm (k := ⟨v2.userCardId, planned.1.id, planned.2.start⟩)
      (postingsOf_between h hstored hrun .caps)
    calc (between.undo server now' args.txnId).amount .caps ⟨v2.userCardId, planned.1.id, planned.2.start⟩
        = s.amount .caps ⟨v2.userCardId, planned.1.id, planned.2.start⟩ -
            share ⟨v2.userCardId, planned.1.id, planned.2.start⟩ (s.postingsOf args.txnId .caps) := by
          rw [hbetween.amount_undo, hrow, h.amount_apply, hshare, add_sub_cancel_right]
      _ = (s.undo server now args.txnId).amount .caps
            ⟨v2.userCardId, planned.1.id, planned.2.start⟩ := (h.amount_undo _ _ _ _ _).symm
  have hplan := planOf_between h hstored hrun
  unfold added additions
  dsimp only
  rw [hplan, hspend, computeTransactionV2_congr hconsumed]

/-- A repeated call records what the first call recorded. -/
theorem recordOf_again (now' : ℤ) :
    (between.applyTransactionV2 server now' rebuild v2 args).recordOf args.txnId =
      (s.applyTransactionV2 server now rebuild v2 args).recordOf args.txnId := by
  have happly := h.apply server now rebuild v2 args hstored
  have hbetween := balanced_of_run hrun happly
  have hkept : (between.transactions.get? args.txnId).isSome := by
    rw [get?_eq_of_run hrun happly, h.apply_eq, transactions_add, transactions_undo, Option.isSome_map]
    exact hstored
  rw [hbetween.recordOf_apply server now' rebuild v2 args hkept,
    h.recordOf_apply server now rebuild v2 args hstored, if_pos rfl, if_pos rfl,
    added_between h hstored hrun hcaps]

/-- A repeated call leaves every amount. -/
theorem amount_again (now' : ℤ) (name : RecordSection) (k : RowKey) :
    (between.applyTransactionV2 server now' rebuild v2 args).amount name k = between.amount name k := by
  have hbetween := balanced_of_run hrun (h.apply server now rebuild v2 args hstored)
  have hshare := share_perm (k := k) (postingsOf_between h hstored hrun name)
  rw [hbetween.amount_apply, added_between h hstored hrun hcaps, hshare, sub_add_cancel]

/-- A repeated call leaves the rows of caps. -/
theorem capStates_again (now' : ℤ) (k : RowKey) :
    (between.applyTransactionV2 server now' rebuild v2 args).capStates.get? k =
      between.capStates.get? k := by
  have hbetween := balanced_of_run hrun (h.apply server now rebuild v2 args hstored)
  have hsound := s.added_sound server now v2 args
  rw [hbetween.apply_eq, capStates_add, capStates_undo, added_between h hstored hrun hcaps]
  have hnodup : ((capUpserts v2 (s.added server now v2 args).outcome.capEntries).map
      capCounting.key).Nodup := by
    unfold capUpserts
    rw [List.map_map]
    exact nodup_map_rowKey v2.userCardId hsound.nodup_caps
  have hperm := postingsOf_between h hstored hrun .caps
  rw [← capUpserts_postings hsound] at hperm
  refine capCounting.get?_regive hnodup hperm (fun e he => ?_) k
  have hgiven := get?_putAll (f := capCounting.give) (s.undo server now args.txnId).capStates hnodup he
  obtain ⟨f, hf, rfl⟩ := List.mem_map.mp he
  obtain ⟨planned, hplanned, hid, hstart⟩ := exists_planned hf
  have hrow := hcaps planned hplanned
  rw [h.apply_eq, capStates_add, ← hid, ← hstart] at hrow
  exact ⟨_, hrow.trans hgiven,
    capCounting_regive (h.amount_undo_nonneg args.txnId .caps _ server now) (hsound.caps f hf).1⟩

end Again

section Twice

variable {server : Server} {rebuild : Rebuild} {now : ℤ} {v2 : UserCard} {args : ApplyArgs} {s : CardStates}
  (h : s.Balanced) (hstored : (s.transactions.get? args.txnId).isSome) (now' : ℤ)
include h hstored

theorem milestoneStates_twice (k : RowKey) :
    ((s.applyTransactionV2 server now rebuild v2 args).applyTransactionV2 server now' rebuild v2
        args).milestoneStates.get? k =
      (s.applyTransactionV2 server now rebuild v2 args).milestoneStates.get? k := by
  have hsound := s.added_sound server now v2 args
  have hrefl : Relation.ReflTransGen (LiveCall (· ≠ args.txnId) server rebuild)
      (s.applyTransactionV2 server now rebuild v2 args)
      (s.applyTransactionV2 server now rebuild v2 args) := .refl
  have hperm := postingsOf_between h hstored hrefl .milestones
  rw [← milestoneUpserts_postings hsound] at hperm
  rw [(h.apply server now rebuild v2 args hstored).apply_eq, milestoneStates_add, milestoneStates_undo,
    added_between h hstored hrefl fun _ _ => rfl]
  have hnodup : ((milestoneUpserts v2 (s.added server now v2 args).milestones).map
      milestoneCounting.key).Nodup := by
    unfold milestoneUpserts
    rw [List.map_map]
    exact nodup_map_rowKey v2.userCardId hsound.nodup_milestones
  refine milestoneCounting.get?_regive hnodup hperm (fun e he => ?_) k
  have hgiven := get?_putAll (f := milestoneCounting.give)
    (s.undo server now args.txnId).milestoneStates hnodup he
  rw [h.apply_eq, milestoneStates_add]
  obtain ⟨f, hf, rfl⟩ := List.mem_map.mp he
  exact ⟨_, hgiven, milestoneCounting_regive
    (h.amount_undo_nonneg args.txnId .milestones _ server now) (hsound.milestones f hf).1⟩

theorem feeWaiverStates_twice (k : RowKey) :
    Option.Rel FeeWaiverState.SameButTime
      ((s.applyTransactionV2 server now rebuild v2 args).feeWaiverStates.get? k)
      (((s.applyTransactionV2 server now rebuild v2 args).applyTransactionV2 server now' rebuild v2
        args).feeWaiverStates.get? k) := by
  have hsound := s.added_sound server now v2 args
  have hrefl : Relation.ReflTransGen (LiveCall (· ≠ args.txnId) server rebuild)
      (s.applyTransactionV2 server now rebuild v2 args)
      (s.applyTransactionV2 server now rebuild v2 args) := .refl
  have hperm := postingsOf_between h hstored hrefl .feeWaivers
  rw [← feeWaiverUpserts_postings hsound v2 server now'] at hperm
  rw [(h.apply server now rebuild v2 args hstored).apply_eq, feeWaiverStates_add, feeWaiverStates_undo,
    added_between h hstored hrefl fun _ _ => rfl]
  have hnodup : ((feeWaiverUpserts v2 (s.added server now v2 args).feeWaivers).map
      (feeWaiverCounting server now').key).Nodup := by
    unfold feeWaiverUpserts
    rw [List.map_map]
    exact nodup_map_rowKey v2.userCardId hsound.nodup_feeWaivers
  refine (feeWaiverCounting server now').rel_regive (fun _ => ⟨rfl, rfl, rfl⟩) hnodup hperm
    (fun e he => ?_) k
  have hgiven := get?_putAll (f := (feeWaiverCounting server now).give)
    (s.undo server now args.txnId).feeWaiverStates hnodup he
  rw [h.apply_eq, feeWaiverStates_add]
  obtain ⟨f, hf, rfl⟩ := List.mem_map.mp he
  exact ⟨_, hgiven, feeWaiverCounting_regive server now now'
    (h.amount_undo_nonneg args.txnId .feeWaivers _ server now) (hsound.feeWaivers f hf).1⟩

theorem sameRows_twice : SameRows (s.applyTransactionV2 server now rebuild v2 args)
    ((s.applyTransactionV2 server now rebuild v2 args).applyTransactionV2 server now' rebuild v2 args) where
  caps := capStates_again h hstored .refl (fun _ _ => rfl) now'
  milestones := milestoneStates_twice h hstored now'
  feeWaivers := feeWaiverStates_twice h hstored now'

end Twice

/-- After any run, each row is the sum of what the records say. Applying a transaction and reversing it
takes back what it carried before, and nothing else. Applying it again, after calls on other transactions
that leave the rows of the caps it plans with, records the same and leaves all amounts and the rows of
caps; at once, it leaves all rows, but for the times at which fees were waived. -/
theorem live_recording (server : Server) (rebuild : Rebuild) {s s' : CardStates} (h : s.Balanced)
    (hrun : Relation.ReflTransGen (LiveCall (fun _ => True) server rebuild) s s') :
    (∀ name k, s'.amount name k = s'.recorded name k) ∧
      ∀ now now' v2 args, (s'.transactions.get? args.txnId).isSome →
        (∀ name k, ((s'.applyTransactionV2 server now rebuild v2 args).reverseTransactionV2 server now'
            args.txnId).amount name k = s'.amount name k - share k (s'.postingsOf args.txnId name)) ∧
        (∀ between, Relation.ReflTransGen (LiveCall (· ≠ args.txnId) server rebuild)
            (s'.applyTransactionV2 server now rebuild v2 args) between →
          (∀ planned ∈ (s'.planOf server v2 args).caps,
            between.capStates.get? ⟨v2.userCardId, planned.1.id, planned.2.start⟩ =
              (s'.applyTransactionV2 server now rebuild v2 args).capStates.get?
                ⟨v2.userCardId, planned.1.id, planned.2.start⟩) →
          let again := between.applyTransactionV2 server now' rebuild v2 args
          again.recordOf args.txnId =
              (s'.applyTransactionV2 server now rebuild v2 args).recordOf args.txnId ∧
            (∀ name k, again.amount name k = between.amount name k) ∧
            ∀ k, again.capStates.get? k = between.capStates.get? k) ∧
        SameRows (s'.applyTransactionV2 server now rebuild v2 args)
          ((s'.applyTransactionV2 server now rebuild v2 args).applyTransactionV2 server now' rebuild v2
            args) := by
  have hs' := balanced_of_run hrun h
  refine ⟨hs'.amount_eq, fun now now' v2 args hstored => ⟨fun name k => ?_, fun between hbetween hcaps =>
    ⟨recordOf_again hs' hstored hbetween hcaps now', amount_again hs' hstored hbetween hcaps now',
      capStates_again hs' hstored hbetween hcaps now'⟩, sameRows_twice hs' hstored now'⟩⟩
  have happly := hs'.apply server now rebuild v2 args hstored
  have hrefl : Relation.ReflTransGen (LiveCall (· ≠ args.txnId) server rebuild)
      (s'.applyTransactionV2 server now rebuild v2 args)
      (s'.applyTransactionV2 server now rebuild v2 args) := .refl
  have hshare := share_perm (k := k) (postingsOf_between hs' hstored hrefl name)
  rw [happly.amount_reverse, hs'.amount_apply, hshare, add_sub_cancel_right]

/-! ### A dinner -/

/-- A card that pays 5 points for each 100 rupees, 10 points in all. -/
def tenPointsUserCard : UserCard where
  card := tenPointsCard.card
  rules := []
  caps := [{ tenPoints with period := .lifetime }]
  isV2 := rfl
  nodup := List.nodup_singleton _
  userCardId := js "user-card"
  cardProductId := js "product"
  statementDay := none
  anchor := ⟨none, true⟩
  issueAnchor := ⟨none, true⟩
  milestones := []
  nodup_milestones := List.nodup_nil

def plainServer : Server := ⟨plainHost, none, [], List.nodup_nil⟩

/-- A dinner of 300 rupees. -/
def dinner : ApplyArgs where
  txnId := js "dinner"
  amount := 300
  amount_pos := by norm_num
  occurred := 0
  categoryId := none
  merchantName := none
  rail := none

/-- The dinner is stored, and nothing is recorded. -/
def dinnerStates : CardStates where
  capStates := .empty
  milestoneStates := .empty
  feeWaiverStates := .empty
  transactions := InsertionMap.empty.set (js "dinner")
    { amountInr := 300, occurredAt := 0, categoryId := none, merchantName := none, merchantVpa := none
      mcc := none, rail := none, status := js "active", instrument := js "credit_card"
      entryKind := js "spend", isBackfill := false, expectedValueInr := none, expectedPoints := none
      expectedCashbackInr := none, cardStateV2 := none }
  pointsLedger := []

theorem dinnerStates_recordOf (txnId : JsString) : dinnerStates.recordOf txnId = none := by
  unfold recordOf dinnerStates
  rw [InsertionMap.get?_set]
  split_ifs <;> rfl

theorem dinnerStates_balanced : dinnerStates.Balanced :=
  balanced_of_fresh rfl rfl rfl dinnerStates_recordOf

/-- The dinner is applied, and reversed: no points are left. -/
theorem live_recording_dinner :
    ((dinnerStates.applyTransactionV2 plainServer 0 (fun _ _ _ s => s) tenPointsUserCard
      dinner).reverseTransactionV2 plainServer 0 dinner.txnId).amount .caps
        ⟨js "user-card", js "cap", js "1970-01-01"⟩ =
      dinnerStates.amount .caps ⟨js "user-card", js "cap", js "1970-01-01"⟩ -
        share ⟨js "user-card", js "cap", js "1970-01-01"⟩ (dinnerStates.postingsOf dinner.txnId .caps) :=
  ((live_recording plainServer (fun _ _ _ s => s) dinnerStates_balanced .refl).2 0 0 tenPointsUserCard
    dinner rfl).1 .caps _

/-- The dinner is applied, applied again and reversed: the row of its points is not as it was before it was
applied again. -/
theorem not_live_recording :
    ¬ ∀ (server : Server) (rebuild : Rebuild) (s s' : CardStates), s.Balanced →
      Relation.ReflTransGen (LiveCall (fun _ => True) server rebuild) s s' →
      ∀ now now' v2 args, (s'.transactions.get? args.txnId).isSome → ∀ name k,
        ((s'.applyTransactionV2 server now rebuild v2 args).reverseTransactionV2 server now'
          args.txnId).amount name k = s'.amount name k := by
  intro h
  have happly : LiveCall (fun _ => True) plainServer (fun _ _ _ s => s) dinnerStates
      (dinnerStates.applyTransactionV2 plainServer 0 (fun _ _ _ s => s) tenPointsUserCard dinner) :=
    .apply 0 tenPointsUserCard dinner trivial rfl
  have hrow := h plainServer (fun _ _ _ s => s) _ _ dinnerStates_balanced (.single happly) 0 0
    tenPointsUserCard dinner rfl .caps ⟨js "user-card", js "cap", js "1970-01-01"⟩
  exact absurd hrow (by decide +kernel)

end PandaPay.CardRewards
