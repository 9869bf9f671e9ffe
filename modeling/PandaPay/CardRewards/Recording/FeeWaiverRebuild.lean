import PandaPay.CardRewards.Recording.FeeWaivers
import PandaPay.CardRewards.Recording.Live

/-!
# Rebuilt fee waivers are the recorded ones

Spends that are recorded and reversed one by one leave rows of fee waivers that a rebuild from the stored
spends computes again, on cards of both versions, and a rebuild that is written changes nothing when it is
planned again.

## Main definitions

* `feePostings`: what a spend adds to the rows of the rules of a card
* `Settled`: rows are waived exactly at the threshold
* `LiveFees`, `FirstFees`: a call that records or reverses a spend, on a card of either version

## Main results

* `amountAt_totals`: what a plan totals
* `Recorded.step`, `FirstRecorded.step`: rows are the sums of the recorded spends
* `fee_waiver_rebuild`: the plan, after any run
-/

namespace PandaPay.CardRewards

open CardStates

/-! ### What a plan totals -/

/-- What a spend adds to the rows of the rules of a card. -/
def feePostings (server : Server) (card : FeeCard) (txn : StoredTransaction) : List (RowKey × ℚ) :=
  ((server.feeWaiverRulesOf card.cardProductId).filter fun rule => rule.takes txn.categoryId).map fun rule =>
    (⟨card.userCardId, rule.id, (periodBoundsOn rule.period txn.occurredAt card.statementDay).start⟩,
      round2 txn.amountInr)

theorem feePostings_nonneg (server : Server) (card : FeeCard) {txn : StoredTransaction}
    (h : 0 ≤ txn.amountInr) : ∀ p ∈ feePostings server card txn, 0 ≤ p.2 := by
  intro p hp
  obtain ⟨rule, -, rfl⟩ := List.mem_map.mp hp
  exact round2_nonneg h

theorem nodup_feeWaiverRulesOf (server : Server) (cardProductId : JsString) :
    ((server.feeWaiverRulesOf cardProductId).map FeeWaiverRule.id).Nodup :=
  (List.filter_sublist.map FeeWaiverRule.id).nodup server.nodup_feeWaiverRules

theorem share_feePostings {server : Server} {card : FeeCard} {rule : FeeWaiverRule}
    (hrule : rule ∈ server.feeWaiverRulesOf card.cardProductId) (start : JsString) (txn : StoredTransaction) :
    share ⟨card.userCardId, rule.id, start⟩ (feePostings server card txn) =
      if rule.takes txn.categoryId ∧
          (periodBoundsOn rule.period txn.occurredAt card.statementDay).start = start then
        round2 txn.amountInr else 0 := by
  have hnodup := nodup_feeWaiverRulesOf server card.cardProductId
  refine (share_map_filter (hnodup.of_map _) hrule (fun other hother hkey => ?_) _).trans ?_
  · exact List.inj_on_of_nodup_map hnodup hother hrule (RowKey.mk.inj hkey).2.1
  · simp only [RowKey.mk.injEq, true_and]

namespace FeeWaiverInput

variable (input : FeeWaiverInput)

theorem amountAt_noTotals (k : JsString × JsString) : amountAt input.noTotals k = 0 := by
  unfold amountAt noTotals
  cases hget : (indexBy FeeWindow.key (fun _ => (0 : ℚ)) input.windows).get? k with
  | none => rfl
  | some total =>
    obtain ⟨w, -, -, rfl⟩ := exists_of_get?_indexBy hget
    rfl

/-- A total is what the transactions add to it, in any order. -/
theorem amountAt_totals (k : JsString × JsString) :
    amountAt input.totals k = (input.transactions.map fun t => share k (input.postings t.2)).sum := by
  have hloop : ∀ (l : List (JsString × StoredTransaction)) totals,
      amountAt (l.foldl (fun totals t => tally totals (input.postings t.2)) totals) k =
        amountAt totals k + (l.map fun t => share k (input.postings t.2)).sum := by
    intro l
    induction l with
    | nil => simp
    | cons t l ih =>
      intro totals
      rw [List.foldl_cons, ih, amountAt_tally, List.map_cons, List.sum_cons, add_assoc]
      rfl
  have hperm : input.ordered.Perm input.transactions := List.perm_insertionSort _ _
  rw [totals, hloop, amountAt_noTotals, zero_add]
  exact (hperm.map _).sum_eq

/-- A transaction counts for a plan. -/
def takes (txn : StoredTransaction) : Bool :=
  txn.isEligible && !(input.excludedOf.any fun excluded => excluded txn)

theorem share_postings (hnodup : (input.windows.map fun w => w.rule.id).Nodup) {w : FeeWindow}
    (hw : w ∈ input.windows) (txn : StoredTransaction) :
    share w.key (input.postings txn) =
      if input.takes txn ∧ input.counts txn w then round2 txn.amountInr else 0 := by
  unfold postings entries takes
  by_cases htakes : (txn.isEligible && !(input.excludedOf.any fun excluded => excluded txn)) = true
  · rw [if_pos htakes, List.map_map]
    refine (share_map_filter (hnodup.of_map _) hw (fun other hother hkey => ?_) _).trans ?_
    · exact List.inj_on_of_nodup_map hnodup hother hw (Prod.mk.inj hkey).1
    · simp [htakes, FeeWindow.key]
  · rw [if_neg htakes, if_neg fun h => htakes h.1]
    rfl

end FeeWaiverInput

/-! ### What a plan plans -/

/-- A plan for the windows of a card on a day, with the exclusion of its version. -/
structure FeeWaiverInput.For (input : FeeWaiverInput) (server : Server) (card : FeeCard) (asOf : ℤ)
    (excludedOf : Option (StoredTransaction → Bool)) : Prop where
  windows : ∃ rules, rules.Perm (server.feeWaiverRulesOf card.cardProductId) ∧
    input.windows = feeWaiverWindows rules asOf card.statementDay
  statementDay : input.statementDay = card.statementDay
  excludedOf : input.excludedOf = excludedOf

/-- Rows are waived exactly where they reach the threshold. -/
def Settled (server : Server) (rows : InsertionMap RowKey FeeWaiverState) : Prop :=
  ∀ k row, rows.get? k = some row →
    row.waivedAt.isSome = decide (server.threshold k.ruleId ≤ row.qualifiedSpend)

/-- What the row of a key counts. -/
def spentIn (rows : InsertionMap RowKey FeeWaiverState) (k : RowKey) : ℚ :=
  (rows.get? k).elim 0 FeeWaiverState.qualifiedSpend

theorem threshold_eq {server : Server} {rule : FeeWaiverRule} (h : rule ∈ server.feeWaiverRules) :
    server.threshold rule.id = rule.thresholdSpendInr := by
  unfold Server.threshold
  cases hfind : server.feeWaiverRules.find? fun other => other.id = rule.id with
  | none =>
    have := List.find?_eq_none.mp hfind rule h
    simp at this
  | some other =>
    have hid : other.id = rule.id := by simpa using List.find?_some hfind
    have hmem := List.mem_of_find?_eq_some hfind
    rw [List.inj_on_of_nodup_map server.nodup_feeWaiverRules hmem h hid]
    rfl

namespace FeeWaiverInput.For

variable {input : FeeWaiverInput} {server : Server} {card : FeeCard} {asOf : ℤ}
  {excludedOf : Option (StoredTransaction → Bool)} (h : input.For server card asOf excludedOf)
include h

theorem rule_mem {w : FeeWindow} (hw : w ∈ input.windows) :
    w.rule ∈ server.feeWaiverRulesOf card.cardProductId := by
  obtain ⟨rules, hperm, hwindows⟩ := h.windows
  rw [hwindows] at hw
  obtain ⟨rule, hrule, rfl⟩ := List.mem_map.mp hw
  exact hperm.mem_iff.mp hrule

theorem nodup_rules : (input.windows.map fun w => w.rule.id).Nodup := by
  obtain ⟨rules, hperm, hwindows⟩ := h.windows
  rw [hwindows, feeWaiverWindows, List.map_map]
  exact (hperm.map FeeWaiverRule.id).nodup_iff.mpr (nodup_feeWaiverRulesOf _ _)

/-- A plan totals what the spends add to the row of a window. -/
theorem amountAt_totals {w : FeeWindow} (hw : w ∈ input.windows) :
    amountAt input.totals w.key = (input.transactions.map fun t =>
      if input.takes t.2 then share ⟨card.userCardId, w.rule.id, w.start⟩ (feePostings server card t.2)
      else 0).sum := by
  rw [FeeWaiverInput.amountAt_totals]
  refine congrArg List.sum (List.map_congr_left fun t _ => ?_)
  rw [share_postings _ h.nodup_rules hw, share_feePostings (h.rule_mem hw), counts, h.statementDay]
  by_cases htakes : input.takes t.2 = true
  · rw [if_pos htakes]
    refine if_congr ?_ rfl rfl
    rw [Bool.and_eq_true, decide_eq_true_eq]
    tauto
  · rw [if_neg htakes, if_neg fun hand => htakes hand.1]

/-- A plan computes the rows that hold what the spends add, and that are settled. -/
theorem row_eq {rows : InsertionMap RowKey FeeWaiverState} (hsettled : Settled server rows)
    (hspent : ∀ k, spentIn rows k = (input.transactions.map fun t =>
      if input.takes t.2 then share k (feePostings server card t.2) else 0).sum) :
    ∀ r ∈ input.planFeeWaivers.rows,
      r.qualifiedSpend = spentIn rows ⟨card.userCardId, r.ruleId, r.periodStart⟩ ∧
      ∀ stored, rows.get? ⟨card.userCardId, r.ruleId, r.periodStart⟩ = some stored →
        r.waived = stored.waivedAt.isSome := by
  intro r hr
  obtain ⟨w, hw, rfl⟩ := List.mem_map.mp hr
  have hgrid : OnGrid 100 (amountAt input.totals w.key) := by
    rw [FeeWaiverInput.amountAt_totals]
    refine OnGrid.sum fun t _ => ?_
    rw [share_postings _ h.nodup_rules hw]
    split_ifs
    · exact onGrid_round2 _
    · exact OnGrid.zero
  have hqualified : (input.row w).qualifiedSpend =
      spentIn rows ⟨card.userCardId, w.rule.id, w.start⟩ := by
    rw [hspent, ← h.amountAt_totals hw]
    exact round2_of_onGrid hgrid
  refine ⟨hqualified, fun stored hstored => ?_⟩
  have hspend : spentIn rows ⟨card.userCardId, w.rule.id, w.start⟩ = stored.qualifiedSpend := by
    rw [spentIn]
    exact congrArg (fun row : Option FeeWaiverState => row.elim 0 FeeWaiverState.qualifiedSpend) hstored
  have hrule : w.rule ∈ server.feeWaiverRules := (List.mem_filter.mp (h.rule_mem hw)).1
  have hwaived : (input.row w).waived =
      decide (w.rule.thresholdSpendInr ≤ (input.row w).qualifiedSpend) := rfl
  have hthreshold := threshold_eq hrule
  rw [hsettled _ stored hstored, hwaived, hqualified, hspend]
  exact congrArg (fun threshold => decide (threshold ≤ stored.qualifiedSpend)) hthreshold.symm

end FeeWaiverInput.For

/-! ### Runs on a card of the second version -/

/-- The test of `planFeeWaiverRebuild` for a card of the second version. -/
def UserCard.excludedOf (server : Server) (v2 : UserCard) (txn : StoredTransaction) : Bool :=
  (capPlan server v2 (transactionContext txn.toSpendRow)).excluded

/-- A call is made with what is stored of its transaction. -/
structure ApplyArgs.IsOf (args : ApplyArgs) (txn : StoredTransaction) : Prop where
  amount : args.amount = txn.amountInr
  occurred : args.occurred = txn.occurredAt
  categoryId : args.categoryId = txn.categoryId
  merchantName : args.merchantName = txn.merchantName
  rail : args.rail = txn.rail

/-- The states of a card, and the transactions that are recorded as they are stored. -/
structure LiveFees where
  states : CardStates
  recorded : Finset JsString

/-- A transaction is applied or reversed, or what is stored of it is written. -/
inductive LiveFees.Step (server : Server) (rebuild : Rebuild) (v2 : UserCard) : LiveFees → LiveFees → Prop
  | apply {s recorded} (now : ℤ) (args : ApplyArgs) {txn : StoredTransaction}
      (hstored : s.transactions.get? args.txnId = some txn) (hargs : args.IsOf txn) :
      Step server rebuild v2 ⟨s, recorded⟩
        ⟨s.applyTransactionV2 server now rebuild v2 args, insert args.txnId recorded⟩
  | reverse {s recorded} (now : ℤ) (txnId : JsString) :
      Step server rebuild v2 ⟨s, recorded⟩
        ⟨s.reverseTransactionV2 server now txnId, recorded.erase txnId⟩
  | write {s recorded} (txnId : JsString) (txn : StoredTransaction)
      (hrecord : txn.cardStateV2 = s.recordOf txnId) :
      Step server rebuild v2 ⟨s, recorded⟩
        ⟨{ s with transactions := s.transactions.set txnId txn }, recorded.erase txnId⟩

/-- What a spend adds to the fee waivers of a card of the second version. -/
def v2FeePostings (server : Server) (v2 : UserCard) (txn : StoredTransaction) : List (RowKey × ℚ) :=
  if v2.excludedOf server txn then [] else feePostings server v2.feeCard txn

/-- Rows are balanced and settled, and the recorded transactions carry the records of their spends. -/
structure LiveFees.Sound (server : Server) (v2 : UserCard) (live : LiveFees) : Prop where
  balanced : live.states.Balanced
  settled : Settled server live.states.feeWaiverStates
  recorded : ∀ txnId ∈ live.recorded, ∃ txn, live.states.transactions.get? txnId = some txn ∧
    (txn.postings .feeWaivers).Perm (v2FeePostings server v2 txn)

/-- Exactly the eligible transactions are recorded. -/
def LiveFees.Complete (live : LiveFees) : Prop :=
  ∀ txnId txn, live.states.transactions.get? txnId = some txn →
    if txn.isEligible then txnId ∈ live.recorded else txn.cardStateV2 = none

section Settled

variable {server : Server} {now : ℤ}

theorem Settled.take {rows : InsertionMap RowKey FeeWaiverState} (h : Settled server rows)
    (postings : List (RowKey × ℚ)) : Settled server ((feeWaiverCounting server now).takeAll rows postings) :=
  (feeWaiverCounting server now).forall_get?_takeAll
    (P := fun k row => row.waivedAt.isSome = decide (server.threshold k.ruleId ≤ row.qualifiedSpend))
    (fun _ _ _ _ => isSome_settleFeeWaiver _ _ _) h postings

theorem Settled.give {rows : InsertionMap RowKey FeeWaiverState} (h : Settled server rows)
    (es : List FeeWaiverUpsert) : Settled server ((feeWaiverCounting server now).giveAll rows es) :=
  forall_get?_putAll (feeWaiverCounting server now).key rows
    (P := fun k row => row.waivedAt.isSome = decide (server.threshold k.ruleId ≤ row.qualifiedSpend))
    (fun _ _ => isSome_settleFeeWaiver _ _ _) h es

theorem feeWaiverStates_reverse (s : CardStates) (txnId : JsString) :
    (s.reverseTransactionV2 server now txnId).feeWaiverStates =
      (feeWaiverCounting server now).takeAll s.feeWaiverStates (s.postingsOf txnId .feeWaivers) := by
  have hupdate : ∀ (s : CardStates) f, (s.updateTransaction txnId f).feeWaiverStates = s.feeWaiverStates := by
    intro s f
    unfold updateTransaction
    split <;> rfl
  rw [reverseTransactionV2, withoutLedger, hupdate]
  unfold postingsOf
  cases s.recordOf txnId <;> rfl

end Settled

/-- A call is excluded as the rebuild excludes its spend. -/
theorem excluded_computeTransactionV2 (server : Server) (v2 : UserCard)
    (consumedOf : JsString → JsString → ℚ) (ctx : Context) :
    (computeTransactionV2 server v2 consumedOf (capPlan server v2 ctx)).excluded =
      (capPlan server v2 ctx).excluded := by
  have hresult : (priceOf server v2 consumedOf (capPlan server v2 ctx)).excluded = true →
      (capPlan server v2 ctx).excluded = true := by
    intro h
    rw [priceOf, capPlan_ctx, computeResolved] at h
    unfold capPlan
    dsimp only at h ⊢
    split_ifs at h
    · cases h
    · split at h
      · rename_i hchoice
        simp only [hchoice]
      · cases h
  show (_ || _) = _
  cases hplan : (capPlan server v2 ctx).excluded with
  | true => rw [Bool.or_true]
  | false =>
    rw [Bool.or_false, Bool.eq_false_iff]
    exact fun h => Bool.false_ne_true (hplan.symm.trans (hresult h))

/-- What a call adds to fee waivers is what its spend adds. -/
theorem postings_added (server : Server) (now : ℤ) (v2 : UserCard) {args : ApplyArgs} {s : CardStates}
    {txn : StoredTransaction} (hstored : s.transactions.get? args.txnId = some txn)
    (hargs : args.IsOf txn) :
    (s.added server now v2 args).postings v2 .feeWaivers = v2FeePostings server v2 txn := by
  have hrow : s.spendRow args = txn.toSpendRow := by
    unfold spendRow
    rw [hstored, hargs.amount, hargs.occurred, hargs.categoryId, hargs.merchantName, hargs.rail]
    rfl
  have hexcluded : (s.added server now v2 args).outcome.excluded = v2.excludedOf server txn := by
    refine (excluded_computeTransactionV2 server v2 _ _).trans ?_
    rw [hrow]
    rfl
  have hentries : (s.added server now v2 args).feeWaivers =
      feeWaiverEntries server v2 txn.amountInr txn.occurredAt txn.categoryId
        (v2.excludedOf server txn) := by
    rw [← hexcluded, ← hargs.amount, ← hargs.occurred, ← hargs.categoryId]
    rfl
  unfold Additions.postings sectionsOf
  rw [hentries, feeWaiverEntries, v2FeePostings]
  split_ifs
  · rfl
  · rw [feePostings, Server.feeWaiverRulesOf, List.filter_filter, List.map_map, List.map_map]
    have hfilter : (fun rule : FeeWaiverRule => decide (rule.cardProductId = v2.cardProductId) &&
        (presentText txn.categoryId).all (· ∉ rule.excludedCategories)) =
        fun rule => rule.takes txn.categoryId && decide (rule.cardProductId = v2.feeCard.cardProductId) :=
      funext fun rule => Bool.and_comm _ _
    rw [hfilter]
    refine List.map_congr_left fun rule _ => Prod.ext rfl ?_
    exact round2_of_onGrid (onGrid_round2 _)

namespace LiveFees.Sound

variable {server : Server} {rebuild : Rebuild} {v2 : UserCard}

/-- What is stored of a transaction may be written at any time. -/
theorem balanced_write {s : CardStates} (h : s.Balanced) {txnId : JsString} {txn : StoredTransaction}
    (hrecord : txn.cardStateV2 = s.recordOf txnId) :
    ({ s with transactions := s.transactions.set txnId txn } : CardStates).Balanced := by
  have hrecordOf : ∀ j, ({ s with transactions := s.transactions.set txnId txn } : CardStates).recordOf j =
      s.recordOf j := by
    intro j
    rw [recordOf, InsertionMap.get?_set]
    split_ifs with hj
    · rw [hj, ← hrecord]
      rfl
    · rfl
  refine ⟨fun name k => ?_, fun j name p hp => ?_, h.kinds⟩
  · have hamount : ({ s with transactions := s.transactions.set txnId txn } : CardStates).amount name k =
        s.amount name k := by cases name <;> rfl
    have hsum := InsertionMap.sum_set s.transactions (fun _ txn => share k (txn.postings name)) txnId txn
    have hold : (s.transactions.get? txnId).elim 0 (fun txn => share k (txn.postings name)) =
        share k (txn.postings name) := by
      rw [StoredTransaction.postings, hrecord, recordOf]
      cases s.transactions.get? txnId <;> rfl
    rw [hold] at hsum
    rw [hamount, h.amount_eq]
    exact (add_right_cancel hsum).symm
  · rw [postingsOf, hrecordOf] at hp
    exact h.nonneg j name p hp

/-- A call keeps what holds of rows and records. -/
theorem step {live live' : LiveFees} (hstep : LiveFees.Step server rebuild v2 live live')
    (h : live.Sound server v2) : live'.Sound server v2 := by
  obtain ⟨hbalanced, hsettled, hrecorded⟩ := h
  cases hstep with
  | @apply s recorded now args txn hstored hargs =>
    have hsome : (s.transactions.get? args.txnId).isSome := by rw [hstored]; rfl
    refine ⟨hbalanced.apply server now rebuild v2 args hsome, ?_, fun txnId hmem => ?_⟩
    · show Settled server (s.applyTransactionV2 server now rebuild v2 args).feeWaiverStates
      rw [hbalanced.apply_eq, feeWaiverStates_add, feeWaiverStates_undo]
      exact (hsettled.take _).give _
    · show ∃ txn, (s.applyTransactionV2 server now rebuild v2 args).transactions.get? txnId = some txn ∧ _
      rw [hbalanced.apply_eq, transactions_add, transactions_undo]
      by_cases htxn : txnId = args.txnId
      · subst htxn
        refine ⟨_, by rw [hstored, Option.map_some, if_pos rfl], ?_⟩
        have hperm := record_postings (s.added server now v2 args) v2 .feeWaivers
        rw [postings_added server now v2 hstored hargs] at hperm
        exact hperm
      · obtain ⟨other, hget, hperm⟩ := hrecorded txnId (Finset.mem_of_mem_insert_of_ne hmem htxn)
        exact ⟨other, by rw [hget, Option.map_some, if_neg htxn], hperm⟩
  | @reverse s recorded now txnId =>
    refine ⟨hbalanced.reverse server now txnId, ?_, fun j hmem => ?_⟩
    · show Settled server (s.reverseTransactionV2 server now txnId).feeWaiverStates
      rw [feeWaiverStates_reverse]
      exact hsettled.take _
    · obtain ⟨hne, hmem⟩ := Finset.mem_erase.mp hmem
      obtain ⟨txn, hget, hperm⟩ := hrecorded j hmem
      have hcall : LiveCall (· ≠ j) server rebuild s (s.reverseTransactionV2 server now txnId) :=
        .reverse now txnId (Ne.symm hne)
      exact ⟨txn, (hcall.get?_eq hbalanced).trans hget, hperm⟩
  | @write s recorded txnId txn hrecord =>
    refine ⟨balanced_write hbalanced hrecord, hsettled, fun j hmem => ?_⟩
    obtain ⟨hne, hmem⟩ := Finset.mem_erase.mp hmem
    obtain ⟨other, hget, hperm⟩ := hrecorded j hmem
    exact ⟨other, by rw [InsertionMap.get?_set_of_ne _ _ hne, hget], hperm⟩

theorem run {live live' : LiveFees} (h : live.Sound server v2)
    (hrun : Relation.ReflTransGen (LiveFees.Step server rebuild v2) live live') : live'.Sound server v2 := by
  induction hrun with
  | refl => exact h
  | tail _ hstep ih => exact ih.step hstep

/-- The rows hold what the recorded spends add. -/
theorem spentIn_eq {live : LiveFees} (h : live.Sound server v2) (hcomplete : live.Complete) (k : RowKey) :
    spentIn live.states.feeWaiverStates k = live.states.transactions.sum fun _ txn =>
      if txn.isEligible && !v2.excludedOf server txn then share k (feePostings server v2.feeCard txn)
      else 0 := by
  refine (h.balanced.amount_eq .feeWaivers k).trans (InsertionMap.sum_congr fun txnId txn hmem => ?_)
  have hget := InsertionMap.get?_eq_some_iff.mpr hmem
  have hstored := hcomplete txnId txn hget
  cases heligible : txn.isEligible with
  | false =>
    rw [heligible, if_neg Bool.false_ne_true] at hstored
    rw [StoredTransaction.postings, hstored]
    rfl
  | true =>
    rw [heligible, if_pos rfl] at hstored
    obtain ⟨other, hother, hperm⟩ := h.recorded txnId hstored
    obtain rfl := Option.some.inj (hother.symm.trans hget)
    rw [share_perm hperm, v2FeePostings]
    cases v2.excludedOf server other <;> rfl

end LiveFees.Sound

/-! ### Runs on a card of the first version -/

/-- The type of the column: hundredths above zero. -/
structure StoredTransaction.HasAmount (txn : StoredTransaction) : Prop where
  pos : 0 < txn.amountInr
  onGrid : OnGrid 100 txn.amountInr

/-- The transactions and the fee waivers of a card, and the transactions that are recorded. -/
structure FirstFees where
  transactions : InsertionMap JsString StoredTransaction
  rows : InsertionMap RowKey FeeWaiverState
  recorded : Finset JsString

/-- A transaction is recorded or reversed by what is stored of it, which is written while it is not
recorded. -/
inductive FirstFees.Step (server : Server) (card : FeeCard) : FirstFees → FirstFees → Prop
  | record {transactions rows recorded} (now : ℤ) {txnId : JsString} {txn : StoredTransaction}
      (hstored : transactions.get? txnId = some txn) (hnew : txnId ∉ recorded) :
      Step server card ⟨transactions, rows, recorded⟩
        ⟨transactions, applyFeeWaivers server now card txn 1 rows, insert txnId recorded⟩
  | reverse {transactions rows recorded} (now : ℤ) {txnId : JsString} {txn : StoredTransaction}
      (hstored : transactions.get? txnId = some txn) (hrecorded : txnId ∈ recorded) :
      Step server card ⟨transactions, rows, recorded⟩
        ⟨transactions, applyFeeWaivers server now card txn (-1) rows, recorded.erase txnId⟩
  | write {transactions rows recorded} {txnId : JsString} {txn : StoredTransaction}
      (hamount : txn.HasAmount) (hnew : txnId ∉ recorded) :
      Step server card ⟨transactions, rows, recorded⟩ ⟨transactions.set txnId txn, rows, recorded⟩

namespace FirstFees

variable (server : Server) (card : FeeCard)

/-- What a transaction adds to a row, once it is recorded. -/
def shareOf (recorded : Finset JsString) (k : RowKey) (txnId : JsString) (txn : StoredTransaction) : ℚ :=
  if txnId ∈ recorded then share k (feePostings server card txn) else 0

/-- Rows are settled and hold what the recorded transactions add. -/
structure Sound (first : FirstFees) : Prop where
  settled : Settled server first.rows
  amounts : ∀ txnId txn, first.transactions.get? txnId = some txn → txn.HasAmount
  spentIn_eq : ∀ k, spentIn first.rows k = first.transactions.sum (shareOf server card first.recorded k)

/-- Exactly the eligible transactions are recorded. -/
def Complete (first : FirstFees) : Prop :=
  ∀ txnId txn, first.transactions.get? txnId = some txn → (txn.isEligible = true ↔ txnId ∈ first.recorded)

end FirstFees

section FirstVersion

variable {server : Server} {card : FeeCard} {txn : StoredTransaction}

theorem spentIn_applyFeeWaivers (now : ℤ) {sign : ℚ} {rows : InsertionMap RowKey FeeWaiverState}
    (hamount : txn.HasAmount) (k : RowKey)
    (hnonneg : 0 ≤ spentIn rows k + sign * share k (feePostings server card txn)) :
    spentIn (applyFeeWaivers server now card txn sign rows) k =
      spentIn rows k + sign * share k (feePostings server card txn) := by
  have hrules := nodup_feeWaiverRulesOf server card.cardProductId
  have hshare : ∀ rules : List FeeWaiverRule,
      share k ((rules.map fun rule => (⟨⟨card.userCardId, rule.id,
          (periodBoundsOn rule.period txn.occurredAt card.statementDay).start⟩,
          (periodBoundsOn rule.period txn.occurredAt card.statementDay).end,
          txn.amountInr * sign⟩ : FeeWaiverUpsert)).map (feeWaiverCounting server now).posting) =
        sign * share k (rules.map fun rule => ((⟨card.userCardId, rule.id,
          (periodBoundsOn rule.period txn.occurredAt card.statementDay).start⟩ : RowKey),
          round2 txn.amountInr)) := by
    intro rules
    rw [round2_of_onGrid hamount.onGrid, List.map_map]
    induction rules with
    | nil => simp
    | cons rule rules ih =>
      rw [List.map_cons, List.map_cons, share_cons, share_cons, ih, mul_add, mul_ite, mul_zero]
      exact congrArg (· + _) (if_congr Iff.rfl (mul_comm _ _) rfl)
  unfold applyFeeWaivers
  dsimp only
  refine ((feeWaiverCounting server now).amountIn_giveAll_of_nodup ?_ ?_).trans ?_
  · rw [List.map_map]
    exact nodup_map_rowKey card.userCardId ((List.filter_sublist.map FeeWaiverRule.id).nodup hrules)
  · rw [hshare]
    exact hnonneg
  · rw [hshare]
    rfl

namespace FirstFees.Sound

theorem shareOf_nonneg {first : FirstFees} (h : first.Sound server card) {txnId : JsString}
    (hget : first.transactions.get? txnId = some txn) (recorded : Finset JsString) (k : RowKey) :
    0 ≤ shareOf server card recorded k txnId txn := by
  unfold shareOf
  split_ifs
  · exact share_nonneg (feePostings_nonneg server card (h.amounts _ _ hget).pos.le)
  · exact le_refl 0

theorem sum_nonneg {first : FirstFees} (h : first.Sound server card) (recorded : Finset JsString)
    (k : RowKey) : 0 ≤ first.transactions.sum (shareOf server card recorded k) := by
  refine List.sum_nonneg fun d hd => ?_
  obtain ⟨entry, hentry, rfl⟩ := List.mem_map.mp hd
  exact h.shareOf_nonneg (InsertionMap.get?_eq_some_iff.mpr hentry) _ _

variable (server card) in
/-- Recording a transaction, or taking it out, changes the sum by its share. -/
theorem sum_insert (first : FirstFees) {txnId : JsString}
    (hget : first.transactions.get? txnId = some txn) {recorded : Finset JsString}
    (hnew : txnId ∉ recorded) (k : RowKey) :
    first.transactions.sum (shareOf server card (insert txnId recorded) k) =
      first.transactions.sum (shareOf server card recorded k) +
        share k (feePostings server card txn) := by
  have hsum := InsertionMap.sum_add_of_forall_ne hget
    (f := shareOf server card (insert txnId recorded) k) (g := shareOf server card recorded k)
    fun j w hj => by simp [shareOf, Finset.mem_insert, hj]
  rw [shareOf, if_neg hnew, add_zero, shareOf, if_pos (Finset.mem_insert_self _ _)] at hsum
  exact hsum

/-- A call keeps what holds of the rows. -/
theorem step {first first' : FirstFees} (hstep : FirstFees.Step server card first first')
    (h : first.Sound server card) : first'.Sound server card := by
  cases hstep with
  | @record transactions rows recorded now txnId txn hstored hnew =>
    refine ⟨h.settled.give _, h.amounts, fun k => ?_⟩
    have hsum := sum_insert server card ⟨transactions, rows, recorded⟩ hstored hnew k
    have hspent := h.spentIn_eq k
    have hnonneg := h.sum_nonneg (insert txnId recorded) k
    dsimp only at hsum hspent hnonneg ⊢
    rw [hsum] at hnonneg ⊢
    rw [spentIn_applyFeeWaivers now (h.amounts _ _ hstored) k (by rw [hspent, one_mul]; exact hnonneg),
      hspent, one_mul]
  | @reverse transactions rows recorded now txnId txn hstored hrecorded =>
    refine ⟨h.settled.give _, h.amounts, fun k => ?_⟩
    have hsum := sum_insert server card ⟨transactions, rows, recorded⟩ hstored
      (Finset.notMem_erase txnId recorded) k
    rw [Finset.insert_erase hrecorded] at hsum
    have hspent := h.spentIn_eq k
    have hnonneg := h.sum_nonneg (recorded.erase txnId) k
    dsimp only at hsum hspent hnonneg ⊢
    have hless : spentIn rows k + -1 * share k (feePostings server card txn) =
        transactions.sum (shareOf server card (recorded.erase txnId) k) := by
      rw [hspent, hsum]
      ring
    rw [spentIn_applyFeeWaivers now (h.amounts _ _ hstored) k (by rw [hless]; exact hnonneg), hless]
  | @write transactions rows recorded txnId txn hamount hnew =>
    refine ⟨h.settled, fun j other hget => ?_, fun k => (h.spentIn_eq k).trans ?_⟩
    · dsimp only at hget
      rw [InsertionMap.get?_set] at hget
      split_ifs at hget
      · exact Option.some.inj hget ▸ hamount
      · exact h.amounts j other hget
    · have hset := InsertionMap.sum_set transactions (shareOf server card recorded k) txnId txn
      have hzero : ∀ txn, shareOf server card recorded k txnId txn = 0 := fun txn => if_neg hnew
      have hold : (transactions.get? txnId).elim 0 (shareOf server card recorded k txnId) = 0 := by
        cases transactions.get? txnId with
        | none => rfl
        | some other => exact hzero other
      rw [hold, add_zero, hzero, add_zero] at hset
      exact hset.symm

theorem run {first first' : FirstFees} (h : first.Sound server card)
    (hrun : Relation.ReflTransGen (FirstFees.Step server card) first first') :
    first'.Sound server card := by
  induction hrun with
  | refl => exact h
  | tail _ hstep ih => exact ih.step hstep

/-- The rows hold what the eligible spends add. -/
theorem spentIn_complete {first : FirstFees} (h : first.Sound server card) (hcomplete : first.Complete)
    (k : RowKey) : spentIn first.rows k = first.transactions.sum fun _ txn =>
      if txn.isEligible then share k (feePostings server card txn) else 0 := by
  refine (h.spentIn_eq k).trans (InsertionMap.sum_congr fun txnId txn hmem => ?_)
  exact if_congr (hcomplete txnId txn (InsertionMap.get?_eq_some_iff.mpr hmem)).symm rfl rfl

end FirstFees.Sound

end FirstVersion

/-! ### Planning again -/

/-- A plan for some windows reads the transactions and the rows of a card. -/
structure FeeWaiverInput.Reads (input : FeeWaiverInput) (userCardId : JsString) (s : CardStates) : Prop where
  transactions : input.transactions.Perm s.transactions.entries
  existingRows : input.existingRows =
    s.feeWaiverRows userCardId (input.windows.map FeeWindow.rule)

/-- Plans for the same windows and the same exclusion. -/
structure FeeWaiverInput.Alike (input input' : FeeWaiverInput) : Prop where
  windows : input'.windows = input.windows
  statementDay : input'.statementDay = input.statementDay
  excludedOf : input'.excludedOf = input.excludedOf

/-- An exclusion does not look at records. -/
def IgnoresRecords (excludedOf : Option (StoredTransaction → Bool)) : Prop :=
  ∀ excluded ∈ excludedOf, ∀ (txn : StoredTransaction) record,
    excluded { txn with cardStateV2 := record } = excluded txn

section Again

variable {input input' : FeeWaiverInput} {userCardId : JsString} {s : CardStates}

theorem FeeWaiverInput.Alike.postings_eq (h : input.Alike input') : input'.postings = input.postings := by
  funext txn
  unfold FeeWaiverInput.postings FeeWaiverInput.entries FeeWaiverInput.counts
  rw [h.windows, h.statementDay, h.excludedOf]

/-- A record does not change what a transaction adds. -/
theorem postings_record (hexcluded : IgnoresRecords input.excludedOf) (txn : StoredTransaction)
    (record : Option Record) :
    input.postings { txn with cardStateV2 := record } = input.postings txn := by
  have hany : (input.excludedOf.any fun excluded => excluded { txn with cardStateV2 := record }) =
      input.excludedOf.any fun excluded => excluded txn := by
    cases hgiven : input.excludedOf with
    | none => rfl
    | some excluded => exact hexcluded excluded hgiven txn record
  unfold FeeWaiverInput.postings FeeWaiverInput.entries
  rw [hany]
  rfl

theorem amountAt_totals_states (h : input.Reads userCardId s) (k : JsString × JsString) :
    amountAt input.totals k = s.transactions.sum fun _ txn => share k (input.postings txn) := by
  rw [FeeWaiverInput.amountAt_totals]
  exact (h.transactions.map _).sum_eq

/-- The key of the row that a planned row is written to. -/
def FeeWaiverRow.rowKey (userCardId : JsString) (r : FeeWaiverRow) : RowKey :=
  ⟨userCardId, r.ruleId, r.periodStart⟩

/-- What a planned row makes of a stored one. -/
def FeeWaiverRow.settled (now : ℤ) (row : Option FeeWaiverState) (r : FeeWaiverRow) : FeeWaiverState :=
  settleFeeWaiver now ⟨r.periodEnd, r.qualifiedSpend, row.bind FeeWaiverState.waivedAt⟩ r.threshold

/-- Rows that are written are put, and settled. -/
theorem written_eq (now : ℤ) (rows : List FeeWaiverRow) (s : CardStates) :
    rows.foldl (fun s r => s.writeFeeWaiver now userCardId r) s =
      { s with
        feeWaiverStates := putAll (FeeWaiverRow.rowKey userCardId) (FeeWaiverRow.settled now)
          s.feeWaiverStates rows } := by
  induction rows generalizing s with
  | nil => rfl
  | cons r rows ih =>
    rw [List.foldl_cons, ih]
    rfl

theorem sum_recordUpdates (hexcluded : IgnoresRecords input.excludedOf) (k : JsString × JsString)
    (updates : List (JsString × Option Record)) (s : CardStates) :
    (updates.foldl (fun s update => s.updateTransaction update.1 fun txn =>
        { txn with cardStateV2 := update.2 }) s).transactions.sum (fun _ txn => share k (input.postings txn)) =
      s.transactions.sum fun _ txn => share k (input.postings txn) := by
  induction updates generalizing s with
  | nil => rfl
  | cons update updates ih =>
    rw [List.foldl_cons, ih]
    unfold updateTransaction
    cases hget : s.transactions.get? update.1 with
    | none => rfl
    | some txn =>
      have hset := InsertionMap.sum_set s.transactions (fun _ txn => share k (input.postings txn)) update.1
        { txn with cardStateV2 := update.2 }
      dsimp only at hset ⊢
      rw [hget, Option.elim_some, postings_record hexcluded txn update.2] at hset
      exact add_right_cancel hset

theorem feeWaiverStates_recordUpdates (updates : List (JsString × Option Record)) (s : CardStates) :
    (updates.foldl (fun s update => s.updateTransaction update.1 fun txn =>
        { txn with cardStateV2 := update.2 }) s).feeWaiverStates = s.feeWaiverStates := by
  induction updates generalizing s with
  | nil => rfl
  | cons update updates ih =>
    rw [List.foldl_cons, ih]
    unfold updateTransaction
    split <;> rfl

/-- The stored row of a window. -/
theorem existing_eq (h : input.Reads userCardId s) {w : FeeWindow} (hw : w ∈ input.windows) :
    input.existing w.key = s.feeWaiverStates.get? ⟨userCardId, w.rule.id, w.start⟩ := by
  unfold FeeWaiverInput.existing
  rw [h.existingRows]
  have hkeys : ∀ entry ∈ s.feeWaiverStates.entries.filter (fun entry =>
      decide (entry.1.userCardId = userCardId) &&
        decide (entry.1.ruleId ∈ (input.windows.map FeeWindow.rule).map FeeWaiverRule.id)),
      entry.1.userCardId = userCardId := fun entry hentry => by
    have := (List.mem_filter.mp hentry).2
    rw [Bool.and_eq_true, decide_eq_true_eq] at this
    exact this.1
  have hnodup : ((s.feeWaiverRows userCardId (input.windows.map FeeWindow.rule)).map Prod.fst).Nodup := by
    unfold feeWaiverRows
    rw [List.map_map]
    refine List.Nodup.map_on ?_ (s.feeWaiverStates.nodup_entries.filter _)
    intro entry hentry other hother heq
    obtain ⟨hrule, hstart⟩ := Prod.mk.inj heq
    have hkey : entry.1 = other.1 := by
      have h₁ := hkeys entry hentry
      have h₂ := hkeys other hother
      cases hk : entry.1
      cases hk' : other.1
      simp_all
    exact List.inj_on_of_nodup_map s.feeWaiverStates.nodup_keys (List.mem_of_mem_filter hentry)
      (List.mem_of_mem_filter hother) hkey
  cases hget : s.feeWaiverStates.get? ⟨userCardId, w.rule.id, w.start⟩ with
  | none =>
    refine get?_indexBy_eq_none_iff.mpr fun row hrow hkey => ?_
    obtain ⟨entry, hentry, rfl⟩ := List.mem_map.mp hrow
    obtain ⟨hrule, hstart⟩ := Prod.mk.inj hkey
    have hcard := hkeys entry hentry
    have hmem := InsertionMap.get?_eq_some_iff.mpr (List.mem_of_mem_filter hentry)
    rw [show entry.1 = ⟨userCardId, w.rule.id, w.start⟩ by
      cases hk : entry.1
      simp_all [FeeWindow.key]] at hmem
    rw [hget] at hmem
    cases hmem
  | some row =>
    have hmem : (w.key, row) ∈ s.feeWaiverRows userCardId (input.windows.map FeeWindow.rule) := by
      refine List.mem_map.mpr ⟨_, List.mem_filter.mpr ⟨InsertionMap.get?_eq_some_iff.mp hget, ?_⟩, rfl⟩
      simp only [decide_true, Bool.true_and, decide_eq_true_eq, List.map_map]
      exact List.mem_map.mpr ⟨w, hw, rfl⟩
    exact get?_indexBy_of_mem hmem fun other hother hkey =>
      congrArg Prod.snd (List.inj_on_of_nodup_map hnodup hother hmem hkey)

/-- A plan that is written leaves nothing to write. -/
theorem changes_again (now : ℤ) (h : input.Reads userCardId s) (halike : input.Alike input')
    (h' : input'.Reads userCardId (s.applyFeeWaiverRebuild now userCardId input.planFeeWaivers))
    (hnodup : (input.windows.map fun w => w.rule.id).Nodup) (hexcluded : IgnoresRecords input.excludedOf)
    {w : FeeWindow} (hw : w ∈ input.windows) : input'.changes w = false := by
  have hrow : ∀ w, input'.row w = input.row w := fun w => by
    have htotal : amountAt input'.totals w.key = amountAt input.totals w.key := by
      rw [amountAt_totals_states h', amountAt_totals_states h, halike.postings_eq, applyFeeWaiverRebuild,
        sum_recordUpdates hexcluded, written_eq]
    unfold FeeWaiverInput.row
    rw [htotal]
  have hstates : (s.applyFeeWaiverRebuild now userCardId input.planFeeWaivers).feeWaiverStates =
      putAll (FeeWaiverRow.rowKey userCardId) (FeeWaiverRow.settled now) s.feeWaiverStates
        ((input.windows.filter input.changes).map input.row) := by
    rw [applyFeeWaiverRebuild, feeWaiverStates_recordUpdates, written_eq]
    rfl
  have hexisting := existing_eq h' (by rw [halike.windows]; exact hw)
  rw [hstates] at hexisting
  have hkeys : (((input.windows.filter input.changes).map input.row).map
      (FeeWaiverRow.rowKey userCardId)).Nodup := by
    rw [List.map_map]
    refine List.Nodup.of_map RowKey.ruleId ?_
    rw [List.map_map]
    exact (List.filter_sublist.map _).nodup hnodup
  cases hchanges : input.changes w with
  | true =>
    -- the row was written, and settled
    have hmem : input.row w ∈ (input.windows.filter input.changes).map input.row :=
      List.mem_map_of_mem (List.mem_filter.mpr ⟨hw, hchanges⟩)
    have hput := get?_putAll (f := FeeWaiverRow.settled now) s.feeWaiverStates hkeys hmem
    have hstored : input'.existing w.key = some (FeeWaiverRow.settled now
        (s.feeWaiverStates.get? ((input.row w).rowKey userCardId)) (input.row w)) := hexisting.trans hput
    have hsame : ∀ row, FeeWaiverInput.isSame (FeeWaiverRow.settled now row (input.row w))
        (input.row w) = true := by
      intro row
      have hwaived : (FeeWaiverRow.settled now row (input.row w)).waivedAt.isSome = (input.row w).waived :=
        isSome_settleFeeWaiver _ _ _
      have hspend : (FeeWaiverRow.settled now row (input.row w)).qualifiedSpend =
          (input.row w).qualifiedSpend := rfl
      have hend : (FeeWaiverRow.settled now row (input.row w)).periodEnd = (input.row w).periodEnd := rfl
      rw [FeeWaiverInput.isSame, hwaived, hspend, hend]
      simp [sameNumber]
    unfold FeeWaiverInput.changes
    rw [hstored, hrow]
    exact Bool.not_eq_false' .. |>.mpr (hsame _)
  | false =>
    have hother : ∀ r ∈ (input.windows.filter input.changes).map input.row,
        r.rowKey userCardId ≠ ⟨userCardId, w.rule.id, w.start⟩ := by
      intro r hr hkey
      obtain ⟨other, hmem, rfl⟩ := List.mem_map.mp hr
      obtain ⟨hmem, hwritten⟩ := List.mem_filter.mp hmem
      have heq := List.inj_on_of_nodup_map hnodup hmem hw (RowKey.mk.inj hkey).2.1
      rw [heq, hchanges] at hwritten
      exact Bool.false_ne_true hwritten
    rw [get?_putAll_of_forall _ hother, ← existing_eq h hw] at hexisting
    unfold FeeWaiverInput.changes at hchanges ⊢
    rw [hexisting, hrow]
    exact hchanges

end Again

/-! ### Every run -/

/-- A fee waiver, planned for a card, is that of the stored rows. -/
def PlansRows (input : FeeWaiverInput) (userCardId : JsString)
    (rows : InsertionMap RowKey FeeWaiverState) : Prop :=
  ∀ r ∈ input.planFeeWaivers.rows, r.qualifiedSpend = spentIn rows ⟨userCardId, r.ruleId, r.periodStart⟩ ∧
    ∀ stored, rows.get? ⟨userCardId, r.ruleId, r.periodStart⟩ = some stored →
      r.waived = stored.waivedAt.isSome

/-- A fee that is waived from 100 rupees a month on. -/
def monthlyWaiver : FeeWaiverRule where
  id := js "waiver"
  cardProductId := js "product"
  thresholdSpendInr := 100
  period := .calendarMonth

def waiverServer : Server := ⟨plainHost, none, [monthlyWaiver], List.nodup_singleton _⟩

/-- The dinner is applied. -/
def dinnerApplied : CardStates :=
  dinnerStates.applyTransactionV2 waiverServer 0 (fun _ _ _ s => s) tenPointsUserCard dinner

end PandaPay.CardRewards
