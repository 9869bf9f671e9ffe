import PandaPay.CardRewards.Recording.Replay
import PandaPay.CardRewards.Recording.Sums
import PandaPay.Library.Keyset

/-!
# Writing a plan

How `card_state_v2.js` writes the plan of a rebuild to the rows, the records and the expected values of a
card, and what is stored afterwards.

## Main definitions

* `applyCardRebuild`: a plan is written
* `rebuilt`: a transaction after a plan is written
* `Reads`: a plan is made from what is stored

## Main results

* `changedRows_written`: rows that are written are planned again as they are
* `ordered_again`: the transactions, after a plan is written
-/

namespace PandaPay.CardRewards

/-! ### Writing a plan -/

/-- The rows without some keys. -/
def eraseAll {ρ : Type} (table : InsertionMap RowKey ρ) (keys : List RowKey) : InsertionMap RowKey ρ :=
  keys.foldl InsertionMap.erase table

/-- The planned rows that are in a diff are upserted, and then rows are deleted. -/
def writeRows {ρ : Type} (table : InsertionMap RowKey ρ) (planned : List (RowKey × ρ)) (diff : List RowDiff)
    (toDelete : List RowKey) : InsertionMap RowKey ρ :=
  eraseAll (putAll Prod.fst (fun _ row => row.2) table
    (planned.filter fun row => row.1 ∈ diff.map RowDiff.key)) toDelete

namespace CardStates

variable (v2 : UserCard) (s : CardStates)

/-- The expected values of a transaction are set, and its estimated row of the ledger follows. -/
def setExpected (update : ExpectedUpdate) : CardStates :=
  let set := (s.updateTransaction update.id fun txn =>
    { txn with
      expectedPoints := some update.native
      expectedValueInr := some update.value
      expectedCashbackInr := update.cashback }).withoutLedger update.id
  { set with
    pointsLedger := set.pointsLedger ++
      if 0 < update.native then [⟨v2.userCardId, update.id, update.native, update.occurredAt⟩] else [] }

/-- `applyCardRebuild(client, userId, v2, plan)`. -/
def applyCardRebuild (plan : ReplayPlan) : CardStates :=
  let rows : CardStates :=
    { s with
      capStates := writeRows s.capStates plan.capRows plan.capDiff plan.capsToDelete
      milestoneStates :=
        writeRows s.milestoneStates plan.milestoneRows plan.milestoneDiff plan.milestonesToDelete }
  let recorded := plan.txnRecordUpdates.foldl (fun s update =>
    s.updateTransaction update.1 fun txn => { txn with cardStateV2 := update.2 }) rows
  plan.txnExpectedUpdates.foldl (fun s update => s.setExpected v2 update) recorded

end CardStates

/-- A plan is made from what is stored. -/
structure ReplayInput.Reads (input : ReplayInput) (s : CardStates) : Prop where
  transactions : input.transactions.Perm s.transactions.entries
  capRows : input.existingCapRows.Perm s.capStates.entries
  milestoneRows : input.existingMilestoneRows.Perm s.milestoneStates.entries

/-- Plans for the same range, with the same options. -/
structure ReplayInput.Alike (input input' : ReplayInput) : Prop where
  range : input'.range = input.range
  expected : input'.expected = input.expected
  excludeTxnIds : input'.excludeTxnIds = input.excludeTxnIds

/-! ### Rows -/

section Rows

variable {ρ : Type}

theorem get?_eraseAll (table : InsertionMap RowKey ρ) (keys : List RowKey) (k : RowKey) :
    (eraseAll table keys).get? k = if k ∈ keys then none else table.get? k := by
  induction keys generalizing table with
  | nil => simp [eraseAll]
  | cons j keys ih =>
    rw [eraseAll, List.foldl_cons, ← eraseAll, ih, InsertionMap.get?_erase]
    by_cases hk : k ∈ keys <;> by_cases hj : k = j <;> simp [hk, hj]

/-- The entries of a table are looked up as in the table. -/
theorem entryAt_of_perm {rows : List (RowKey × ρ)} {table : InsertionMap RowKey ρ}
    (h : rows.Perm table.entries) (k : RowKey) : entryAt rows k = table.get? k := by
  have hnodup : (rows.map Prod.fst).Nodup := (h.map Prod.fst).nodup_iff.mpr table.nodup_keys
  cases hget : table.get? k with
  | none =>
    refine get?_indexBy_eq_none_iff.mpr fun row hrow hkey => ?_
    have hmem := InsertionMap.get?_eq_some_iff.mpr (h.mem_iff.mp hrow)
    rw [hkey, hget] at hmem
    cases hmem
  | some row =>
    have hmem : (k, row) ∈ rows := h.mem_iff.mpr (InsertionMap.get?_eq_some_iff.mp hget)
    exact get?_indexBy_of_mem hmem fun other hother hkey =>
      congrArg Prod.snd (List.inj_on_of_nodup_map hnodup hother hmem hkey)

theorem entryAt_of_mem {rows : List (RowKey × ρ)} (hnodup : (rows.map Prod.fst).Nodup) {row : RowKey × ρ}
    (h : row ∈ rows) : entryAt rows row.1 = some row.2 :=
  get?_indexBy_of_mem h fun _ hother hkey =>
    congrArg Prod.snd (List.inj_on_of_nodup_map hnodup hother h hkey)

/-- Of the rows of a table, those in a scope. -/
def lookupIn (scope : RowKey → ρ → Bool) (table : InsertionMap RowKey ρ) (k : RowKey) : Option ρ :=
  (table.get? k).filter (scope k)

variable {keys : List RowKey} {table : InsertionMap RowKey ρ} {scope : RowKey → ρ → Bool}
  {planned : List (RowKey × ρ)} {same : ρ → ρ → Bool} {moved : List RowKey} {told : ρ → ℚ × Option CapKind}
  {diff : List RowDiff}

/-- The change of a key, if there is one. -/
theorem mem_changedRows {existing after : RowKey → Option ρ} {change : RowKey × Option ρ × Option ρ} :
    change ∈ changedRows keys existing after same ↔
      change.1 ∈ keys ∧ change.2 = (existing change.1, after change.1) ∧
        ¬ (existing change.1 = none ∧ after change.1 = none) ∧
        ∀ row row', existing change.1 = some row → after change.1 = some row' → same row row' = false := by
  obtain ⟨k, before, next⟩ := change
  unfold changedRows
  rw [List.mem_filterMap]
  constructor
  · rintro ⟨j, hj, hchange⟩
    cases hbefore : existing j with
    | none =>
      cases hnext : after j with
      | none => simp [hbefore, hnext] at hchange
      | some row =>
        simp only [hbefore, hnext, Option.some.injEq, Prod.mk.injEq] at hchange
        obtain ⟨rfl, rfl, rfl⟩ := hchange
        simp [hj, hbefore, hnext]
    | some row =>
      cases hnext : after j with
      | none =>
        simp only [hbefore, hnext, Option.some.injEq, Prod.mk.injEq] at hchange
        obtain ⟨rfl, rfl, rfl⟩ := hchange
        simp [hj, hbefore, hnext]
      | some row' =>
        simp only [hbefore, hnext] at hchange
        split_ifs at hchange with hsame
        simp only [Option.some.injEq, Prod.mk.injEq] at hchange
        obtain ⟨rfl, rfl, rfl⟩ := hchange
        simpa [hj, hbefore, hnext] using hsame
  · rintro ⟨hk, hchange, hsome, hdiffer⟩
    dsimp only at hk hchange hsome hdiffer
    obtain ⟨rfl, rfl⟩ := Prod.mk.inj hchange
    refine ⟨k, hk, ?_⟩
    cases hbefore : existing k with
    | none =>
      cases hnext : after k with
      | none => exact absurd ⟨hbefore, hnext⟩ hsome
      | some row => rfl
    | some row =>
      cases hnext : after k with
      | none => rfl
      | some row' => simp [hdiffer row row' hbefore hnext]

theorem changedRows_eq_nil_iff {existing after : RowKey → Option ρ} :
    changedRows keys existing after same = [] ↔
      ∀ k ∈ keys, (existing k = none ∧ after k = none) ∨
        ∃ row row', existing k = some row ∧ after k = some row' ∧ same row row' = true := by
  rw [List.eq_nil_iff_forall_not_mem]
  constructor
  · intro h k hk
    by_contra hnot
    push Not at hnot
    refine h (k, existing k, after k) (mem_changedRows.mpr ⟨hk, rfl, fun hnone => ?_, fun row row' h₁ h₂ => ?_⟩)
    · exact hnot.1 hnone.1 hnone.2
    · exact Bool.eq_false_iff.mpr (hnot.2 row row' h₁ h₂)
  · rintro h change hchange
    obtain ⟨hk, -, hsome, hdiffer⟩ := mem_changedRows.mp hchange
    rcases h change.1 hk with hnone | ⟨row, row', h₁, h₂, hsame⟩
    · exact hsome hnone
    · rw [hdiffer row row' h₁ h₂] at hsame
      cases hsame

section Written

variable
  (hplanned : ∀ row ∈ planned, row.1 ∈ keys ∧ scope row.1 row.2 = true)
  (hnodup : (planned.map Prod.fst).Nodup) (hmoved : ∀ k ∈ moved, k ∉ keys)
  (hdiff : ∀ k, k ∈ diff.map RowDiff.key ↔ k ∈ moved ∨
    ∃ change ∈ changedRows keys (lookupIn scope table) (entryAt planned) same, change.1 = k)
include hplanned

/-- Rows that are not planned stay, but for those that moved. -/
theorem get?_writeRows_of_notMem {k : RowKey} (hk : k ∉ keys) :
    (writeRows table planned diff (moved ++
        ((changedRows keys (lookupIn scope table) (entryAt planned) same).filter
          fun change => change.2.1.isSome && change.2.2.isNone).map Prod.fst)).get? k =
      if k ∈ moved then none else table.get? k := by
  have hdelete : k ∈ moved ++ ((changedRows keys (lookupIn scope table) (entryAt planned) same).filter
      fun change => change.2.1.isSome && change.2.2.isNone).map Prod.fst ↔ k ∈ moved := by
    rw [List.mem_append]
    refine or_iff_left fun hmem => ?_
    obtain ⟨change, hchange, rfl⟩ := List.mem_map.mp hmem
    exact hk (mem_changedRows.mp (List.mem_of_mem_filter hchange)).1
  have hstay : ∀ row ∈ planned.filter fun row => decide (row.1 ∈ diff.map RowDiff.key), row.1 ≠ k :=
    fun row hrow heq => hk (heq ▸ (hplanned row (List.mem_of_mem_filter hrow)).1)
  rw [writeRows, get?_eraseAll, get?_putAll_of_forall _ hstay]
  exact if_congr hdelete rfl rfl

include hnodup hmoved hdiff

/-- Rows that are written are planned again as they are. -/
theorem changedRows_written (hsame : ∀ row, same row row = true) :
    changedRows keys (lookupIn scope (writeRows table planned diff (moved ++
        ((changedRows keys (lookupIn scope table) (entryAt planned) same).filter
          fun change => change.2.1.isSome && change.2.2.isNone).map Prod.fst)))
      (entryAt planned) same = [] := by
  refine changedRows_eq_nil_iff.mpr fun k hk => ?_
  have hnotMoved : k ∉ moved := fun hmem => hmoved k hmem hk
  have hwritten : (planned.filter fun row => decide (row.1 ∈ diff.map RowDiff.key)).map Prod.fst |>.Nodup :=
    (List.filter_sublist.map Prod.fst).nodup hnodup
  have hdelete : k ∈ moved ++ ((changedRows keys (lookupIn scope table) (entryAt planned) same).filter
      fun change => change.2.1.isSome && change.2.2.isNone).map Prod.fst ↔
      (lookupIn scope table k).isSome = true ∧ entryAt planned k = none := by
    rw [List.mem_append, or_iff_right hnotMoved, List.mem_map]
    constructor
    · rintro ⟨change, hchange, rfl⟩
      obtain ⟨hmem, hgone⟩ := List.mem_filter.mp hchange
      obtain ⟨-, heq, -⟩ := mem_changedRows.mp hmem
      rw [heq, Bool.and_eq_true, Option.isNone_iff_eq_none] at hgone
      exact hgone
    · rintro ⟨hbefore, hafter⟩
      refine ⟨(k, lookupIn scope table k, entryAt planned k), List.mem_filter.mpr
        ⟨mem_changedRows.mpr ⟨hk, rfl, fun hnone => ?_, fun _ row' _ hrow' => ?_⟩, ?_⟩, rfl⟩
      · rw [hnone.1] at hbefore
        cases hbefore
      · rw [hafter] at hrow'
        cases hrow'
      · rw [hbefore, hafter]
        rfl
  cases hafter : entryAt planned k with
  | none =>
    refine .inl ⟨?_, rfl⟩
    have hstay : ∀ row ∈ planned.filter fun row => decide (row.1 ∈ diff.map RowDiff.key), row.1 ≠ k :=
      fun row hrow heq => by
        have hentry := entryAt_of_mem hnodup (List.mem_of_mem_filter hrow)
        rw [heq, hafter] at hentry
        cases hentry
    rw [lookupIn, writeRows, get?_eraseAll, get?_putAll_of_forall _ hstay]
    by_cases hbefore : (lookupIn scope table k).isSome = true
    · rw [if_pos (hdelete.mpr ⟨hbefore, hafter⟩)]
      rfl
    · rw [if_neg fun hmem => hbefore (hdelete.mp hmem).1]
      exact Option.not_isSome_iff_eq_none.mp hbefore
  | some row =>
    have hmem : (k, row) ∈ planned := by
      obtain ⟨entry, hentry, hkey, hrow⟩ := exists_of_get?_indexBy hafter
      rwa [show entry = (k, row) from Prod.ext hkey hrow] at hentry
    have hkept : k ∉ moved ++ ((changedRows keys (lookupIn scope table) (entryAt planned) same).filter
        fun change => change.2.1.isSome && change.2.2.isNone).map Prod.fst := fun hgone => by
      have := (hdelete.mp hgone).2
      rw [hafter] at this
      cases this
    by_cases hchanged : k ∈ diff.map RowDiff.key
    · refine .inr ⟨row, row, ?_, rfl, hsame row⟩
      have hput := get?_putAll (f := fun (_ : Option ρ) (row : RowKey × ρ) => row.2) table hwritten
        (List.mem_filter.mpr ⟨hmem, decide_eq_true hchanged⟩)
      rw [lookupIn, writeRows, get?_eraseAll, if_neg hkept, hput]
      exact Option.filter_some_pos (hplanned _ hmem).2
    · -- it was planned as it is stored
      have hstay : ∀ other ∈ planned.filter fun row => decide (row.1 ∈ diff.map RowDiff.key), other.1 ≠ k :=
        fun other hother heq => hchanged (heq ▸ of_decide_eq_true (List.mem_filter.mp hother).2)
      have hget : lookupIn scope (writeRows table planned diff (moved ++
          ((changedRows keys (lookupIn scope table) (entryAt planned) same).filter
            fun change => change.2.1.isSome && change.2.2.isNone).map Prod.fst)) k = lookupIn scope table k := by
        rw [lookupIn, writeRows, get?_eraseAll, if_neg hkept, get?_putAll_of_forall _ hstay, lookupIn]
      rw [hget]
      by_contra hnot
      push Not at hnot
      refine hchanged ((hdiff k).mpr (.inr ⟨(k, lookupIn scope table k, entryAt planned k),
        mem_changedRows.mpr ⟨hk, rfl, fun hnone => ?_, fun before next h₁ h₂ => ?_⟩, rfl⟩))
      · rw [hafter] at hnone
        cases hnone.2
      · rw [hafter] at h₂
        obtain rfl := Option.some.inj h₂
        exact Bool.eq_false_iff.mpr (hnot.2 before row h₁ rfl)

end Written

end Rows

/-! ### Transactions -/

/-- A transaction after a plan is written. -/
def rebuilt (plan : ReplayPlan) (t : JsString × StoredTransaction) : JsString × StoredTransaction :=
  let update := plan.txnExpectedUpdates.find? fun update => update.id = t.1
  (t.1, { t.2 with
    cardStateV2 := (plan.txnRecordUpdates.find? fun update => update.1 = t.1).elim t.2.cardStateV2 Prod.snd
    expectedPoints := update.elim t.2.expectedPoints fun update => some update.native
    expectedValueInr := update.elim t.2.expectedValueInr fun update => some update.value
    expectedCashbackInr := update.elim t.2.expectedCashbackInr ExpectedUpdate.cashback })

section Transactions

open CardStates

theorem transactions_setExpected (v2 : UserCard) (s : CardStates) (update : ExpectedUpdate) :
    (s.setExpected v2 update).transactions = (s.updateTransaction update.id fun txn =>
      { txn with
        expectedPoints := some update.native
        expectedValueInr := some update.value
        expectedCashbackInr := update.cashback }).transactions := rfl

/-- Updates of distinct transactions: each transaction has its own. -/
theorem get?_foldl_update {υ : Type} (id : υ → JsString) {f : υ → StoredTransaction → StoredTransaction}
    {step : CardStates → υ → CardStates}
    (hstep : ∀ s u, (step s u).transactions = (s.updateTransaction (id u) (f u)).transactions)
    {updates : List υ} (hnodup : (updates.map id).Nodup) (s : CardStates) (j : JsString) :
    (updates.foldl step s).transactions.get? j = (s.transactions.get? j).map fun txn =>
      (updates.find? fun u => id u = j).elim txn fun u => f u txn := by
  induction updates generalizing s with
  | nil => simp
  | cons u updates ih =>
    obtain ⟨hnotMem, hnodup⟩ := List.nodup_cons.mp hnodup
    rw [List.foldl_cons, ih hnodup, hstep, get?_updateTransaction, Option.map_map]
    refine congrArg (Option.map · _) (funext fun txn => ?_)
    by_cases hj : id u = j
    · have hnone : updates.find? (fun u => decide (id u = j)) = none :=
        List.find?_eq_none.mpr fun other hother heq =>
          hnotMem (List.mem_map.mpr ⟨other, hother, (of_decide_eq_true heq).trans hj.symm⟩)
      simp [hj, hnone]
    · simp [hj, Ne.symm hj]

theorem transactions_written (v2 : UserCard) (s : CardStates) {plan : ReplayPlan}
    (hrecords : (plan.txnRecordUpdates.map Prod.fst).Nodup)
    (hexpected : (plan.txnExpectedUpdates.map ExpectedUpdate.id).Nodup) (j : JsString) :
    (s.applyCardRebuild v2 plan).transactions.get? j =
      (s.transactions.get? j).map fun txn => (rebuilt plan (j, txn)).2 := by
  unfold applyCardRebuild
  dsimp only
  rw [get?_foldl_update ExpectedUpdate.id (fun s u => transactions_setExpected v2 s u) hexpected,
    get?_foldl_update Prod.fst
      (f := fun (u : JsString × Option Record) txn => { txn with cardStateV2 := u.2 })
      (fun _ _ => rfl) hrecords, Option.map_map]
  refine congrArg (Option.map · _) (funext fun txn => ?_)
  unfold rebuilt
  dsimp only [Function.comp_apply]
  cases plan.txnRecordUpdates.find? fun u => decide (u.1 = j) <;>
    cases plan.txnExpectedUpdates.find? fun u => decide (u.id = j) <;> rfl

namespace ReplayInput

variable {input input' : ReplayInput} {s : CardStates}

theorem Reads.nodup (h : input.Reads s) : (input.transactions.map Prod.fst).Nodup :=
  (h.transactions.map Prod.fst).nodup_iff.mpr s.transactions.nodup_keys

theorem ordered_perm (input : ReplayInput) : input.ordered.Perm input.transactions :=
  List.perm_insertionSort _ _

theorem nodup_ordered (h : input.Reads s) : (input.ordered.map Prod.fst).Nodup :=
  (input.ordered_perm.map Prod.fst).nodup_iff.mpr h.nodup

/-- After a plan is written, its transactions are replayed in the same order. -/
theorem ordered_again (v2 : UserCard) {plan : ReplayPlan} (h : input.Reads s)
    (h' : input'.Reads (s.applyCardRebuild v2 plan))
    (hrecords : (plan.txnRecordUpdates.map Prod.fst).Nodup)
    (hexpected : (plan.txnExpectedUpdates.map ExpectedUpdate.id).Nodup) :
    input'.ordered = input.ordered.map (rebuilt plan) := by
  have hentries : (s.applyCardRebuild v2 plan).transactions.entries.Perm
      (s.transactions.entries.map (rebuilt plan)) := by
    refine InsertionMap.entries_perm
      (n := s.transactions.mapValues fun j txn => (rebuilt plan (j, txn)).2) fun j => ?_
    rw [transactions_written v2 s hrecords hexpected, InsertionMap.get?_mapValues]
  have hperm : input'.ordered.Perm (input.ordered.map (rebuilt plan)) :=
    input'.ordered_perm.trans (h'.transactions.trans (hentries.trans
      ((h.transactions.symm.trans input.ordered_perm.symm).map (rebuilt plan))))
  refine eq_of_perm_of_pairwise (fun t : JsString × StoredTransaction => toLex (t.2.occurredAt, t.1))
    hperm ?_ (pairwise_sortBy _ _) ?_
  · refine List.Nodup.of_map (fun key => (ofLex key).2) ?_
    rw [List.map_map]
    exact nodup_ordered h'
  · rw [List.pairwise_map]
    exact pairwise_sortBy (fun t : JsString × StoredTransaction => toLex (t.2.occurredAt, t.1)) _

end ReplayInput

end Transactions

end PandaPay.CardRewards
