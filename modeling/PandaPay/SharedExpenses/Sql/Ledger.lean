import PandaPay.SharedExpenses.Sql.References
import PandaPay.Library.PairLedger

/-!
# The ledger and the totals of the schema

What the members of a context owe each other is what the accepted heads of its expenses and the confirmed payments make
them owe. The three tables of the ledger say this in three ways: the journal line by line, the pair balances added up,
the member balances netted.

A trigger keeps the totals of a context and of its members up to date, one change of an accepted head at a time. They
are what one would add up over the accepted heads, and they agree with the ledger: a member's balance is what the member
paid less its share, with the payments made and received.

## Main definitions

* `inContext`, `Ledger.journalIn`: the rows of a context, as a function
* `debts`: what edges make their parties owe
* `Db.headDebts`, `Db.payments`: what the accepted heads and the confirmed payments come to
* `Entered`: an amount that is entered in all three tables
* `LedgerSound`: what the three tables say
* `Db.headShare`: what a member paid and shares in a head
* `TotalsSound`: what the totals say
* `Db.settled`: the confirmed payments a member made less those it received
* `Db.Immutable`: every immutable record is kept

## Main results

* `postPair_entered`, `postLines_entered`: what is posted is entered
* `ledger_sound_of_run`: the ledger is sound in every state of a run
* `updateTotals_eq_ok`: a change of a head changes the totals by what it changes
* `totals_sound_of_run`: the totals are sound in every state of a run
* `balance_of_run`: so a member's balance is its totals and its payments
* `immutable_of_run`: no move rewrites an immutable record
-/

namespace PandaPay.SharedExpenses.Sql

open PairLedger

/-! ### A context of a table -/

/-- The amounts of a context, as a function that is zero where there is no row. -/
noncomputable def inContext {κ : Type} (ctx : Uuid) (table : InsertionMap (Uuid × κ) ℤ) : κ →₀ ℤ :=
  table.sum fun key a => if key.1 = ctx then Finsupp.single key.2 a else 0

/-- What the journal of a context adds up to, per pair. -/
noncomputable def Ledger.journalIn (ledger : Ledger) (ctx : Uuid) : Uuid × Uuid →₀ ℤ :=
  ledger.journal.sum fun key row =>
    if key.1 = ctx then Finsupp.single (row.lowMemberId, row.highMemberId) row.balanceMinor else 0

section Context

variable {κ : Type} [DecidableEq κ] {table : InsertionMap (Uuid × κ) ℤ}

/-- The function is the table. -/
theorem inContext_apply (ctx : Uuid) (k : κ) : inContext ctx table k = amountAt table (ctx, k) := by
  have hsum : inContext ctx table k =
      table.sum fun key a => (if key.1 = ctx then Finsupp.single key.2 a else 0 : κ →₀ ℤ) k := by
    rw [inContext, InsertionMap.sum, InsertionMap.sum, ← Finsupp.applyAddHom_apply, map_list_sum, List.map_map]
    rfl
  rw [hsum, InsertionMap.sum_eq_elim (k := (ctx, k)), amountAt]
  · cases table.get? (ctx, k) with
    | none => rfl
    | some a => simp
  · intro key a hne
    split_ifs with hctx
    · rw [Finsupp.single_apply, if_neg]
      intro hk
      exact hne (Prod.ext hctx hk)
    · rfl

omit [DecidableEq κ] in
theorem inContext_sub (ctx : Uuid) (key : Uuid × κ) (a b : ℤ) :
    (if key.1 = ctx then Finsupp.single key.2 (a - b) else 0 : κ →₀ ℤ) =
      (if key.1 = ctx then Finsupp.single key.2 a else 0) - if key.1 = ctx then Finsupp.single key.2 b else 0 := by
  split_ifs
  · exact Finsupp.single_sub _ _ _
  · exact (sub_zero 0).symm

/-- What is added to the balance of a key is added in its context. -/
theorem inContext_set (c ctx : Uuid) (k : κ) (a : ℤ) :
    inContext c (table.set (ctx, k) (amountAt table (ctx, k) + a)) =
      inContext c table + if ctx = c then Finsupp.single k a else 0 :=
  sum_set_amountAt (inContext_sub c) (ctx, k) a

theorem inContext_keep (c ctx : Uuid) (k : κ) (a : ℤ) :
    inContext c (keep table (ctx, k) (amountAt table (ctx, k) + a)) =
      inContext c table + if ctx = c then Finsupp.single k a else 0 :=
  sum_keep (inContext_sub c) (ctx, k) a

end Context

/-! ### Posting -/

/-- An amount is entered in all three tables: in the journal, for the pairs, and netted for the members. -/
structure Entered (ctx : Uuid) (amount : Uuid × Uuid →₀ ℤ) (ledger ledger' : Ledger) : Prop where
  journal : ∀ c, ledger'.journalIn c = ledger.journalIn c + if ctx = c then amount else 0
  pairs : ∀ c, inContext c ledger'.pairBalances =
    inContext c ledger.pairBalances + if ctx = c then amount else 0
  members : ∀ c, inContext c ledger'.memberBalances =
    inContext c ledger.memberBalances + if ctx = c then net amount else 0
  /-- What another context owes stays as it was. -/
  gross : ∀ c, ctx ≠ c → grossMinor ledger' c = grossMinor ledger c

section Entered

variable {ctx : Uuid} {a b : Uuid × Uuid →₀ ℤ} {ledger ledger' ledger'' : Ledger}

theorem Entered.refl (ctx : Uuid) (ledger : Ledger) : Entered ctx 0 ledger ledger := by
  constructor <;> simp

theorem Entered.trans (h : Entered ctx a ledger ledger') (h' : Entered ctx b ledger' ledger'') :
    Entered ctx (a + b) ledger ledger'' where
  journal c := by
    rw [h'.journal, h.journal, add_assoc]
    split_ifs <;> simp
  pairs c := by
    rw [h'.pairs, h.pairs, add_assoc]
    split_ifs <;> simp
  members c := by
    rw [h'.members, h.members, add_assoc]
    split_ifs <;> simp
  gross c hne := (h'.gross c hne).trans (h.gross c hne)

end Entered

/-- What the rows of the pair balances are: pairs of members in their order, with an amount that is not zero. -/
def PairRows (members : InsertionMap (Uuid × Uuid) MemberRow) (ledger : Ledger) : Prop :=
  ∀ ctx low high a, ledger.pairBalances.get? (ctx, low, high) = some a →
    low < high ∧ a ≠ 0 ∧ (ctx, low) ∈ members.keys ∧ (ctx, high) ∈ members.keys

section Post

variable {members : InsertionMap (Uuid × Uuid) MemberRow} {ctx effect : Uuid} {line : ℕ} {low high : Uuid} {amount : ℤ}
  {kind : JournalKind} {origin : Uuid} {ledger ledger' : Ledger}

/-- What `_post_pair` has checked, and the tables it leaves. -/
theorem postPair_eq_ok (h : postPair members ctx effect line low high amount kind origin ledger = .ok ledger') :
    low < high ∧ amount ≠ 0 ∧ (ctx, low) ∈ members.keys ∧ (ctx, high) ∈ members.keys ∧
      (ctx, effect, line) ∉ ledger.journal.keys ∧
      ledger'.journal = ledger.journal.set (ctx, effect, line) ⟨low, high, amount, kind, origin⟩ ∧
      ledger'.pairBalances = keep ledger.pairBalances (ctx, low, high)
        (amountAt ledger.pairBalances (ctx, low, high) + amount) ∧
      ∃ lowBalances, lowBalances = ledger.memberBalances.set (ctx, low)
        (amountAt ledger.memberBalances (ctx, low) + amount) ∧
        ledger'.memberBalances = lowBalances.set (ctx, high) (amountAt lowBalances (ctx, high) + -amount) := by
  rw [postPair] at h
  simp only [addBalance, ↓failIf_bind_eq_ok, bind_eq_ok, insertRow_eq_ok, pure_eq_ok, Except.ok.injEq, not_or,
    not_le, not_not] at h
  obtain ⟨⟨horder, hamount⟩, -, ⟨hlow, hhigh⟩, journal, ⟨hfresh, rfl⟩, pairs, hpairs, _, ⟨-, rfl⟩, _, ⟨-, rfl⟩,
    rfl⟩ := h
  refine ⟨horder, hamount, hlow, hhigh, hfresh, rfl, ?_, _, rfl, rfl⟩
  -- a pair that is settled has no row
  rw [writePair] at hpairs
  rw [keep, amountAt]
  split_ifs at hpairs ⊢ with hzero
  · exact (Except.ok.inj hpairs).symm
  · obtain ⟨-, hpairs⟩ := failIf_bind_eq_ok.mp hpairs
    exact (Except.ok.inj hpairs).symm

/-- A line is entered. -/
theorem postPair_entered (h : postPair members ctx effect line low high amount kind origin ledger = .ok ledger') :
    Entered ctx (Finsupp.single (low, high) amount) ledger ledger' := by
  obtain ⟨-, -, -, -, hfresh, hjournal, hpairs, lowBalances, hlow, hhigh⟩ := postPair_eq_ok h
  refine ⟨fun c => ?_, fun c => ?_, fun c => ?_, fun c hne => ?_⟩
  · rw [Ledger.journalIn, hjournal, InsertionMap.sum_set_of_get?_eq_none (InsertionMap.get?_eq_none_iff.mpr hfresh)]
    rfl
  · rw [hpairs, inContext_keep]
  · rw [hhigh, inContext_set, hlow, inContext_set, add_assoc, net_single]
    split_ifs
    · rw [Finsupp.single_neg, sub_eq_add_neg]
    · rw [add_zero]
  · rw [grossMinor, hpairs]
    exact sum_keep_of_zero (fun a => if_neg hne) _

theorem postPair_pairRows (h : postPair members ctx effect line low high amount kind origin ledger = .ok ledger')
    (hrows : PairRows members ledger) : PairRows members ledger' := by
  obtain ⟨horder, -, hlow, hhigh, -, -, hpairs, -⟩ := postPair_eq_ok h
  intro c l g a hrow
  rw [hpairs] at hrow
  rcases mem_keys_of_keep (InsertionMap.mem_keys_of_get? hrow) with hkey | hold
  · simp only [Prod.mk.injEq] at hkey
    obtain ⟨rfl, rfl, rfl⟩ := hkey
    refine ⟨horder, ?_, hlow, hhigh⟩
    exact ne_zero_of_keep (fun j b hb => (hrows j.1 j.2.1 j.2.2 b hb).2.1) hrow
  · obtain ⟨b, hb⟩ := Option.isSome_iff_exists.mp (InsertionMap.mem_keys_iff.mp hold)
    obtain ⟨hlt, -, hkeys⟩ := hrows c l g b hb
    exact ⟨hlt, ne_zero_of_keep (fun j b hb => (hrows j.1 j.2.1 j.2.2 b hb).2.1) hrow, hkeys⟩

variable {lines : List ((Uuid ×ₗ Uuid) × ℤ)}

/-- The lines of an effect are entered together. -/
theorem postLines_entered (h : postLines members ctx effect kind origin lines ledger = .ok ledger') :
    Entered ctx (lines.map fun line => Finsupp.single (ofLex line.1) line.2).sum ledger ledger' := by
  have hall : ∀ (start : ℕ) (ledger : Ledger), (lines.zipIdx start).foldlM (fun ledger line =>
      postPair members ctx effect line.2 (ofLex line.1.1).1 (ofLex line.1.1).2 line.1.2 kind origin ledger)
        ledger = .ok ledger' →
      Entered ctx (lines.map fun line => Finsupp.single (ofLex line.1) line.2).sum ledger ledger' := by
    clear h
    induction lines with
    | nil =>
      intro start ledger h
      obtain rfl := Except.ok.inj h
      exact Entered.refl ctx ledger
    | cons line lines ih =>
      intro start ledger h
      rw [List.zipIdx_cons, List.foldlM_cons, bind_eq_ok] at h
      obtain ⟨next, hnext, h⟩ := h
      rw [List.map_cons, List.sum_cons]
      exact (postPair_entered hnext).trans (ih (start + 1) next h)
  exact hall 0 ledger h

theorem postLines_pairRows (h : postLines members ctx effect kind origin lines ledger = .ok ledger')
    (hrows : PairRows members ledger) : PairRows members ledger' :=
  foldlM_induction (P := PairRows members) (fun _ _ _ _ hs hstep => postPair_pairRows hstep hs) hrows h

end Post

/-! ### What the members owe -/

/-- What edges make their parties owe. -/
noncomputable def debts (edges : List Obligation) : Uuid × Uuid →₀ ℤ :=
  (edges.map fun o => edge o.creditorId o.debtorId o.amountMinor).sum

/-- What the accepted heads of a context make its members owe. -/
noncomputable def Db.headDebts (db : Db) (ctx : Uuid) : Uuid × Uuid →₀ ℤ :=
  overHeads db.expenses ctx fun expense head => debts (db.edgesOf ctx expense head)

/-- What a settlement event pays: a confirmed payment counts towards its payer. -/
noncomputable def Db.paid (db : Db) (ctx : Uuid) (event : SettlementEventRow) : Uuid × Uuid →₀ ℤ :=
  if event.kind = .confirmed then
    (db.reports.get? (ctx, event.settlementId)).elim 0 fun report =>
      edge report.payerMemberId report.receiverMemberId (report.amountMinor : ℤ)
  else 0

/-- What the confirmed payments of a context come to. -/
noncomputable def Db.payments (db : Db) (ctx : Uuid) : Uuid × Uuid →₀ ℤ :=
  db.settlementEvents.sum fun key event => if key.1 = ctx then db.paid ctx event else 0

/-- A line of an effect says what its edge does. -/
theorem single_signedEdge {sign : ℤ} {o : Obligation} (h : o.debtorId ≠ o.creditorId) :
    Finsupp.single (signedEdge sign o).1 (signedEdge sign o).2 =
      sign • edge o.creditorId o.debtorId o.amountMinor := by
  rw [signedEdge, edge]
  rcases lt_or_gt_of_ne h with hlt | hlt
  · rw [if_neg hlt.not_ge, if_neg hlt.not_gt, min_eq_left hlt.le, max_eq_right hlt.le, Finsupp.smul_single]
    congr 1
    simp only [smul_eq_mul]
    ring
  · rw [if_pos hlt.le, if_pos hlt, min_eq_right hlt.le, max_eq_left hlt.le, Finsupp.smul_single]
    congr 1
    simp only [smul_eq_mul]
    ring

/-- The lines of an effect are the new debts less the old ones. -/
theorem sum_effectLines {new old : List Obligation} (hnew : ∀ o ∈ new, o.debtorId ≠ o.creditorId)
    (hold : ∀ o ∈ old, o.debtorId ≠ o.creditorId) :
    ((effectLines new old).map fun line => Finsupp.single (ofLex line.1) line.2).sum = debts new - debts old := by
  have hedges : ∀ (sign : ℤ) (edges : List Obligation), (∀ o ∈ edges, o.debtorId ≠ o.creditorId) →
      (((edges.map (signedEdge sign)).map fun row => (toLex row.1, row.2)).map fun row =>
        (Finsupp.single (ofLex row.1) row.2 : Uuid × Uuid →₀ ℤ)).sum = sign • debts edges := by
    intro sign edges hdistinct
    rw [List.map_map, List.map_map, debts, List.smul_sum, List.map_map]
    refine congrArg List.sum (List.map_congr_left fun o ho => ?_)
    exact single_signedEdge (hdistinct o ho)
  -- a line that comes to nothing is not posted
  rw [effectLines, sum_map_filter_of_zero]
  · have hgroups := sum_groupSums ((new.map (signedEdge 1) ++ old.map (signedEdge (-1))).map fun row =>
      (toLex row.1, row.2)) fun key => Finsupp.singleAddHom (ofLex key)
    simp only [Finsupp.singleAddHom_apply] at hgroups
    rw [hgroups, List.map_append, List.map_append, List.sum_append, hedges 1 new hnew, hedges (-1) old hold, one_smul,
      neg_one_smul, sub_eq_add_neg]
  · intro line _ hzero
    have hzero : line.2 = 0 := by simpa using hzero
    rw [hzero, Finsupp.single_zero]

/-- A confirmed payment is posted as it was reported. -/
theorem single_paymentAmount (report : ReportRow) :
    Finsupp.single (min report.payerMemberId report.receiverMemberId,
      max report.payerMemberId report.receiverMemberId) (Db.paymentAmount report) =
        edge report.payerMemberId report.receiverMemberId (report.amountMinor : ℤ) := by
  rw [edge, Db.paymentAmount]
  split_ifs with h
  · rw [min_eq_left h, max_eq_right h, mul_one]
  · rw [min_eq_right (not_le.mp h).le, max_eq_left (not_le.mp h).le, mul_neg_one]

/-! ### Soundness -/

/-- What the three tables of the ledger say. -/
structure LedgerSound (db : Db) : Prop where
  /-- A pair owes what the accepted heads and the confirmed payments make it owe. -/
  pairs : ∀ ctx, inContext ctx db.ledger.pairBalances = db.headDebts ctx + db.payments ctx
  /-- The journal adds up to the pair balances. -/
  journal : ∀ ctx, db.ledger.journalIn ctx = inContext ctx db.ledger.pairBalances
  /-- The member balances are the pair balances netted. -/
  members : ∀ ctx, inContext ctx db.ledger.memberBalances = net (inContext ctx db.ledger.pairBalances)
  rows : PairRows db.members db.ledger
  gross : ∀ ctx, grossMinor db.ledger ctx ≤ maxMinor

theorem ledgerSound_initial : LedgerSound Db.initial := by
  refine ⟨fun ctx => ?_, fun ctx => ?_, fun ctx => ?_, ?_, fun ctx => Nat.zero_le _⟩
  · simp [Db.initial, inContext, Db.headDebts, overHeads, Db.payments]
  · simp [Db.initial, inContext, Ledger.journalIn]
  · simp [Db.initial, inContext]
  · intro ctx low high a h
    cases h

section Keep

variable {db db' : Db} {profile : Uuid} {request : Request}

theorem PairRows.mono {members members' : InsertionMap (Uuid × Uuid) MemberRow} {ledger : Ledger}
    (h : PairRows members ledger) (hkeys : ∀ key ∈ members.keys, key ∈ members'.keys) : PairRows members' ledger := by
  intro ctx low high a hrow
  obtain ⟨hlt, hne, hlow, hhigh⟩ := h ctx low high a hrow
  exact ⟨hlt, hne, hkeys _ hlow, hkeys _ hhigh⟩

/-- Where the ledger, and what it has to say, stay the same it stays sound. -/
theorem ledgerSound_of_same (h : LedgerSound db) (hledger : db'.ledger = db.ledger)
    (hdebts : ∀ ctx, db'.headDebts ctx = db.headDebts ctx) (hpayments : ∀ ctx, db'.payments ctx = db.payments ctx)
    (hkeys : ∀ key ∈ db.members.keys, key ∈ db'.members.keys) : LedgerSound db' where
  pairs ctx := by rw [hledger, hdebts, hpayments, h.pairs]
  journal ctx := by rw [hledger, h.journal]
  members ctx := by rw [hledger, h.members]
  rows := hledger ▸ h.rows.mono hkeys
  gross ctx := by
    rw [hledger]
    exact h.gross ctx

/-- Where what is entered is what comes to be owed it stays sound. -/
theorem ledgerSound_of_entered {ctx : Uuid} {a : Uuid × Uuid →₀ ℤ} (h : LedgerSound db)
    (hentered : Entered ctx a db.ledger db'.ledger)
    (howed : ∀ c, db'.headDebts c + db'.payments c = db.headDebts c + db.payments c + if ctx = c then a else 0)
    (hrows : PairRows db'.members db'.ledger) (hgross : grossMinor db'.ledger ctx ≤ maxMinor) : LedgerSound db' where
  pairs c := by rw [hentered.pairs, h.pairs, howed]
  journal c := by rw [hentered.journal, hentered.pairs, h.journal]
  members c := by
    rw [hentered.members, hentered.pairs, h.members, map_add]
    split_ifs <;> simp
  rows := hrows
  gross c := by
    by_cases hc : ctx = c
    · rw [← hc]
      exact hgross
    · rw [hentered.gross c hc]
      exact h.gross c

theorem debts_nil : debts [] = 0 := rfl

theorem people_ledgerSound (hbooks : SameBooks db db') (hmembers : MembersStay db db') (hsound : LedgerSound db) :
    LedgerSound db' := by
  cases hbooks
  exact ⟨hsound.pairs, hsound.journal, hsound.members, hsound.rows.mono hmembers, hsound.gross⟩

/-- Recording keeps the ledger sound: it posts nothing, and no head changes. -/
theorem records_ledgerSound (h : Records profile request db db') (hdb : Linked db) (hsound : LedgerSound db) :
    LedgerSound db' := by
  cases h with
  | people hbooks henrols => exact people_ledgerSound hbooks henrols.membersStay hsound
  | propose hchecked =>
    apply ledgerSound_of_same hsound
    · rfl
    · intro ctx
      apply overHeads_propose hdb
      · intro expense
        exact debts_nil
      · intro expense
        exact debts_nil
      · intro expense revision r hr
        simp only [Db.edgesOf, Option.bind_some, hr, get?_set_of_fresh hchecked.fresh hr]
    · intro ctx
      rfl
    · intro key hkey
      exact hkey
  | decide =>
    exact ledgerSound_of_same hsound rfl (fun _ => rfl) (fun _ => rfl) fun _ hkey => hkey
  | report hfresh =>
    apply ledgerSound_of_same hsound
    · rfl
    · intro ctx
      rfl
    · intro ctx
      apply InsertionMap.sum_congr
      rintro ⟨c, event⟩ s hmem
      by_cases hc : c = ctx
      · subst hc
        -- an event is of a settlement that had been reported
        obtain ⟨report, hreport, -⟩ := hdb.event (InsertionMap.get?_eq_some_iff.mpr hmem)
        simp only [if_true, Db.paid, hreport, get?_set_of_fresh hfresh hreport]
      · simp only [hc, if_false]
    · intro key hkey
      exact hkey

/-- An answer to a settlement changes what the payments come to by what it pays. -/
theorem payments_answer {p : SettlementResponse} {s : SettlementEventRow} {ledger : Ledger}
    (hfresh : (p.contextId, p.eventId) ∉ db.settlementEvents.keys) (c : Uuid) :
    ({ db with
      settlementEvents := db.settlementEvents.set (p.contextId, p.eventId) s
      ledger := ledger } : Db).payments c = db.payments c + if p.contextId = c then db.paid c s else 0 :=
  InsertionMap.sum_set_of_get?_eq_none (InsertionMap.get?_eq_none_iff.mpr hfresh) _ _

/-- The edges of a revision are what its expense owes by it. -/
theorem edgesOf_eq {ctx expense revision : Uuid} {r : RevisionRow} (hr : db.revisions.get? (ctx, revision) = some r)
    (hexpense : r.expenseId = expense) : db.edgesOf ctx expense (some revision) = r.projectedEdges := by
  rw [Db.edgesOf, Option.bind_some, hr]
  exact if_pos hexpense

/-- Nobody owes itself by an accepted head. -/
theorem distinct_edgesOf (hdb : Linked db) {ctx expense : Uuid} {e : ExpenseRow}
    (he : db.expenses.get? (ctx, expense) = some e) :
    ∀ o ∈ db.edgesOf ctx expense e.acceptedRevisionId, o.debtorId ≠ o.creditorId := by
  intro o ho
  cases haccepted : e.acceptedRevisionId with
  | none =>
    rw [haccepted] at ho
    cases ho
  | some head =>
    obtain ⟨old, hold, hexpense⟩ := hdb.head he haccepted
    rw [haccepted, edgesOf_eq hold hexpense] at ho
    exact hdb.distinct hold o ho

/-- Posting keeps the ledger sound. -/
theorem posts_ledgerSound (h : Posts profile request db db') (hdb : Linked db) (hsound : LedgerSound db) :
    LedgerSound db' := by
  cases h with
  | nothing => exact hsound
  | @accept _ _ ctx expense revision e r ledger totals hsubject h =>
    have hentered := postLines_entered h.posted
    rw [sum_effectLines (hdb.distinct h.revisionRow) (distinct_edgesOf hdb h.expenseRow)] at hentered
    apply ledgerSound_of_entered hsound hentered
    · intro c
      have hdebts := overHeads_accept (fun expense head => debts (db.edgesOf c expense head)) c h.expenseRow revision
        (e.headVersion + 1)
      rw [Db.headDebts, Db.headDebts, add_right_comm]
      refine congrArg (· + db.payments c) (hdebts.trans ?_)
      congr 1
      split_ifs with hc
      · subst hc
        rw [edgesOf_eq h.revisionRow h.expenseId]
      · rfl
    · exact postLines_pairRows h.posted hsound.rows
    · exact h.gross
  | reject hreport hopen hfresh =>
    apply ledgerSound_of_same hsound
    · rfl
    · intro ctx
      rfl
    · intro ctx
      rw [payments_answer hfresh]
      simp [Db.paid]
    · intro key hkey
      exact hkey
  | @confirm _ p report ledger h =>
    have hentered := postPair_entered h.posted
    rw [single_paymentAmount] at hentered
    apply ledgerSound_of_entered hsound hentered
    · intro c
      rw [payments_answer h.fresh, ← add_assoc]
      congr 1
      split_ifs with hc
      · subst hc
        rw [Db.paid, if_pos rfl, h.reportRow, Option.elim_some]
      · rfl
    · exact postPair_pairRows h.posted hsound.rows
    · exact h.gross

end Keep

/-- In every state that the schema gets into the pair balances are what the accepted heads and the confirmed payments
come to, the journal adds up to them, and the member balances are the pair balances netted. -/
theorem ledger_sound_of_run (moves : List Move) : LedgerSound (final System.step System.initial moves).db :=
  invariant_of_run ledgerSound_initial people_ledgerSound records_ledgerSound posts_ledgerSound moves

/-! ### Totals -/

/-- What a member paid and shares in a head; nothing without a head. -/
def Db.headShare (db : Db) (ctx member : Uuid) (head : Option Uuid) : ℤ × ℤ :=
  (head.bind fun revision => db.revisionMembers.get? (ctx, revision, member)).elim 0 fun row =>
    (row.paidMinor, row.shareMinor)

/-- The row of a context in `context_totals`; nothing where there is none. -/
def Totals.ofContext (totals : Totals) (ctx : Uuid) : ℤ × ℤ :=
  (totals.contextTotals.get? ctx).elim 0 fun t => (t.totalMinor, t.expenseCount)

/-- The row of a member in `member_totals`; nothing where there is none. -/
def Totals.ofMember (totals : Totals) (ctx member : Uuid) : ℤ × ℤ :=
  (totals.memberTotals.get? (ctx, member)).elim 0 fun t => (t.paidMinor, t.shareMinor)

/-! ### The trigger -/

section Trigger

variable {db : Db} {ctx : Uuid}

/-- The rows of a head give a member its row. -/
theorem sum_headShares (head : Option Uuid) (member : Uuid) :
    ((db.headShares ctx head).map fun row => if row.1 = member then row.2 else 0).sum =
      db.headShare ctx member head := by
  cases head with
  | none => rfl
  | some revision =>
    have hall : ((db.headShares ctx (some revision)).map fun row => if row.1 = member then row.2 else 0).sum =
        db.revisionMembers.sum fun key row => if key.1 = ctx ∧ key.2.1 = revision ∧ key.2.2 = member then
          ((row.paidMinor : ℤ), (row.shareMinor : ℤ)) else 0 := by
      rw [InsertionMap.sum, ← sum_map_filter_of_zero
        (p := fun e : (Uuid × Uuid × Uuid) × RevisionMemberRow => decide (e.1.1 = ctx ∧ e.1.2.1 = revision)),
        Db.headShares, Db.revisionRows, List.map_map, List.map_map]
      · refine congrArg List.sum (List.map_congr_left fun e he => ?_)
        have hkey := of_decide_eq_true (List.mem_filter.mp he).2
        simp only [Function.comp_apply, hkey, true_and]
      · intro e _ he
        rw [decide_eq_false_iff_not] at he
        rw [if_neg]
        rintro ⟨hctx, hrevision, -⟩
        exact he ⟨hctx, hrevision⟩
    rw [hall, InsertionMap.sum_eq_elim (k := (ctx, revision, member)), Db.headShare, Option.bind_some]
    · cases db.revisionMembers.get? (ctx, revision, member) with
      | none => rfl
      | some row => simp
    · rintro ⟨c, r, m⟩ row hne
      rw [if_neg]
      rintro ⟨rfl, rfl, rfl⟩
      exact hne rfl

theorem addContextTotal_eq_ok {change : ℤ × ℤ} {totals totals' : InsertionMap Uuid ContextTotal}
    (h : addContextTotal ctx change totals = .ok totals') :
    ∃ new : ContextTotal, totals' = totals.set ctx new ∧ fits new.totalMinor = true ∧ fits new.expenseCount = true ∧
      (new.totalMinor, new.expenseCount) =
        ((totals.get? ctx).elim 0 fun t => (t.totalMinor, t.expenseCount)) + change := by
  simp only [addContextTotal, ↓failIf_bind_eq_ok, pure_eq_ok, Except.ok.injEq, Bool.not_eq_false,
    Bool.and_eq_true] at h
  obtain ⟨⟨htotal, hcount⟩, rfl⟩ := h
  refine ⟨_, rfl, htotal, hcount, ?_⟩
  cases totals.get? ctx with
  | none => rfl
  | some old => rfl

theorem addMemberTotal_eq_ok {change : Uuid × (ℤ × ℤ)} {totals totals' : InsertionMap (Uuid × Uuid) MemberTotal}
    (h : addMemberTotal ctx totals change = .ok totals') :
    ∃ new : MemberTotal, totals' = totals.set (ctx, change.1) new ∧ fits new.paidMinor = true ∧
      fits new.shareMinor = true ∧ (new.paidMinor, new.shareMinor) =
        ((totals.get? (ctx, change.1)).elim 0 fun t => (t.paidMinor, t.shareMinor)) + change.2 := by
  simp only [addMemberTotal, ↓failIf_bind_eq_ok, pure_eq_ok, Except.ok.injEq, Bool.not_eq_false,
    Bool.and_eq_true] at h
  obtain ⟨⟨hpaid, hshare⟩, rfl⟩ := h
  refine ⟨_, rfl, hpaid, hshare, ?_⟩
  cases totals.get? (ctx, change.1) with
  | none => rfl
  | some old => rfl

/-- What the totals of members have grown by is what the changes say of each. -/
theorem addMemberTotals_eq_ok {changes : List (Uuid × (ℤ × ℤ))}
    {totals totals' : InsertionMap (Uuid × Uuid) MemberTotal}
    (h : changes.foldlM (addMemberTotal ctx) totals = .ok totals') (c member : Uuid) :
    ((totals'.get? (c, member)).elim 0 fun t => (t.paidMinor, t.shareMinor)) =
      ((totals.get? (c, member)).elim 0 fun t => (t.paidMinor, t.shareMinor)) +
        if ctx = c then (changes.map fun change => if change.1 = member then change.2 else 0).sum else 0 := by
  have hadd := foldlM_add
    (q := fun totals : InsertionMap (Uuid × Uuid) MemberTotal =>
      ((totals.get? (c, member)).elim 0 fun t => (t.paidMinor, t.shareMinor) : ℤ × ℤ))
    (w := fun change => if ctx = c then (if change.1 = member then change.2 else 0) else 0)
    (fun s change s' _ hstep => by
      obtain ⟨new, rfl, -, -, hnew⟩ := addMemberTotal_eq_ok hstep
      simp only [InsertionMap.get?_set, Prod.mk.injEq]
      by_cases hkey : c = ctx ∧ member = change.1
      · obtain ⟨rfl, rfl⟩ := hkey
        simp only [and_self, if_true, Option.elim_some, hnew]
      · rw [if_neg hkey]
        split_ifs with hc hm
        · exact absurd ⟨hc.symm, hm.symm⟩ hkey
        · exact (add_zero _).symm
        · exact (add_zero _).symm) h
  rw [hadd]
  congr 1
  split_ifs with hc
  · rfl
  · simp

/-- A change of a head changes the totals of its context by what it changes, and no others. -/
theorem updateTotals_eq_ok {old new : Option Uuid} {totals : Totals} (h : updateTotals db ctx old new = .ok totals)
    (c : Uuid) :
    (totals.ofContext c = db.totals.ofContext c + if ctx = c then db.headTotal ctx new - db.headTotal ctx old else 0) ∧
      ∀ member, totals.ofMember c member = db.totals.ofMember c member +
        if ctx = c then db.headShare ctx member new - db.headShare ctx member old else 0 := by
  rw [updateTotals] at h
  split_ifs at h with hsame
  · obtain rfl := Except.ok.inj h
    subst hsame
    simp
  · simp only [bind_eq_ok, pure_eq_ok, Except.ok.injEq] at h
    obtain ⟨contextTotals, hcontext, memberTotals, hmembers, rfl⟩ := h
    constructor
    · obtain ⟨t, rfl, -, -, ht⟩ := addContextTotal_eq_ok hcontext
      simp only [Totals.ofContext, InsertionMap.get?_set]
      by_cases hc : ctx = c
      · subst hc
        simp only [if_true, Option.elim_some, ht]
      · rw [if_neg fun h => hc h.symm, if_neg hc, add_zero]
    · intro member
      rw [Totals.ofMember, addMemberTotals_eq_ok hmembers, Totals.ofMember]
      congr 1
      split_ifs with hc
      · -- the groups add up to the rows, and the rows to the change of the member
        have hgroups := sum_groupSums (db.headShares ctx new ++ (db.headShares ctx old).map fun row => (row.1, -row.2))
          (fun key => if key = member then AddMonoidHom.id (ℤ × ℤ) else 0)
        have happly : ∀ row : Uuid × (ℤ × ℤ), (if row.1 = member then AddMonoidHom.id (ℤ × ℤ) else 0) row.2 =
            if row.1 = member then row.2 else 0 := by
          intro row
          split_ifs <;> rfl
        simp only [happly] at hgroups
        rw [hgroups, List.map_append, List.sum_append, sum_headShares, List.map_map, sub_eq_add_neg,
          ← sum_headShares old, List.sum_neg, List.map_map]
        congr 2
        refine List.map_congr_left fun row _ => ?_
        simp only [Function.comp_apply]
        split_ifs
        · rfl
        · exact neg_zero.symm
      · rfl

end Trigger

/-! ### Soundness -/

/-- The totals are what the accepted heads add up to. -/
structure TotalsSound (db : Db) : Prop where
  context : ∀ ctx, db.totals.ofContext ctx = overHeads db.expenses ctx fun _ head => db.headTotal ctx head
  member : ∀ ctx m, db.totals.ofMember ctx m = overHeads db.expenses ctx fun _ head => db.headShare ctx m head

theorem totalsSound_initial : TotalsSound Db.initial := ⟨fun _ => rfl, fun _ _ => rfl⟩

section Keep

variable {db db' : Db} {profile : Uuid} {request : Request}

theorem people_totalsSound (hbooks : SameBooks db db') (_ : MembersStay db db') (hsound : TotalsSound db) :
    TotalsSound db' := by
  cases hbooks
  exact ⟨hsound.context, hsound.member⟩

/-- Recording keeps the totals sound: no head changes, and neither does what was recorded of one. -/
theorem records_totalsSound (h : Records profile request db db') (hdb : Linked db) (hsound : TotalsSound db) :
    TotalsSound db' := by
  cases h with
  | people hbooks henrols => exact people_totalsSound hbooks henrols.membersStay hsound
  | propose hchecked hmembers =>
    constructor
    · intro ctx
      rw [hsound.context]
      symm
      apply overHeads_propose hdb
      · intro expense
        rfl
      · intro expense
        rfl
      · intro expense revision r hr
        simp only [Db.headTotal, Option.bind_some, hr, get?_set_of_fresh hchecked.fresh hr]
    · intro ctx m
      rw [hsound.member]
      symm
      apply overHeads_propose hdb
      · intro expense
        rfl
      · intro expense
        rfl
      · intro expense revision r hr
        simp only [Db.headShare, Option.bind_some, revisionMember_of_propose hchecked hmembers hr]
  | decide => exact ⟨hsound.context, hsound.member⟩
  | report => exact ⟨hsound.context, hsound.member⟩

/-- Posting keeps the totals sound. -/
theorem posts_totalsSound (h : Posts profile request db db') (_ : Linked db) (hsound : TotalsSound db) :
    TotalsSound db' := by
  cases h with
  | nothing => exact hsound
  | accept hsubject h =>
    constructor
    · intro c
      rw [(updateTotals_eq_ok h.counted c).1, hsound.context]
      refine Eq.trans ?_ (overHeads_accept _ _ h.expenseRow _ _).symm
      congr 1
      split_ifs with hc
      · subst hc
        rfl
      · rfl
    · intro c m
      rw [(updateTotals_eq_ok h.counted c).2, hsound.member]
      refine Eq.trans ?_ (overHeads_accept _ _ h.expenseRow _ _).symm
      congr 1
      split_ifs with hc
      · subst hc
        rfl
      · rfl
  | reject => exact ⟨hsound.context, hsound.member⟩
  | confirm => exact ⟨hsound.context, hsound.member⟩

end Keep

/-- In every state that the schema gets into the totals of contexts and members are what the accepted heads add up
to. -/
theorem totals_sound_of_run (moves : List Move) : TotalsSound (final System.step System.initial moves).db :=
  invariant_of_run totalsSound_initial people_totalsSound records_totalsSound posts_totalsSound moves

/-! ### Balances and totals -/

/-- The confirmed payments a member made less those it received. -/
def Db.settled (db : Db) (ctx member : Uuid) : ℤ :=
  db.settlementEvents.sum fun key event => if key.1 = ctx ∧ event.kind = .confirmed then
    (db.reports.get? (ctx, event.settlementId)).elim 0 fun report =>
      (if report.payerMemberId = member then (report.amountMinor : ℤ) else 0) -
        if report.receiverMemberId = member then (report.amountMinor : ℤ) else 0
    else 0

section Balance

variable {db : Db} {ctx member : Uuid}

/-- Netted, the payments are those made less those received. -/
theorem net_payments : net (db.payments ctx) member = db.settled ctx member := by
  have hevent : ∀ event : SettlementEventRow, net (db.paid ctx event) member =
      if event.kind = .confirmed then (db.reports.get? (ctx, event.settlementId)).elim 0 fun report =>
        (if report.payerMemberId = member then (report.amountMinor : ℤ) else 0) -
          if report.receiverMemberId = member then (report.amountMinor : ℤ) else 0
      else 0 := by
    intro event
    rw [Db.paid]
    split_ifs
    · cases db.reports.get? (ctx, event.settlementId) with
      | none => simp
      | some report => simp [net_edge, Finsupp.single_apply]
    · simp
  rw [Db.payments, InsertionMap.sum, map_list_sum, List.map_map, ← Finsupp.applyAddHom_apply, map_list_sum,
    List.map_map, Db.settled, InsertionMap.sum]
  refine congrArg List.sum (List.map_congr_left fun e _ => ?_)
  simp only [Function.comp_apply, Finsupp.applyAddHom_apply]
  by_cases hctx : e.1.1 = ctx
  · simp only [hctx, if_true, true_and, hevent]
  · simp [hctx]

/-- Netted, the edges of a revision pay what each member paid less its share. -/
theorem net_debts (edges : List Obligation) : net (debts edges) member = owedTo edges member - owedBy edges member := by
  induction edges with
  | nil => simp [debts, owedTo, owedBy]
  | cons o edges ih =>
    rw [debts, List.map_cons, List.sum_cons, map_add, net_edge, Finsupp.add_apply, ← debts, ih, owedTo_cons,
      owedBy_cons, Finsupp.sub_apply, Finsupp.single_apply, Finsupp.single_apply]
    ring

/-- What a member paid less its share is its part. -/
theorem partOf_eq (revision : Uuid) : db.partOf ctx revision member =
    (db.headShare ctx member (some revision)).1 - (db.headShare ctx member (some revision)).2 := by
  rw [Db.partOf, Db.headShare, Option.bind_some]
  cases db.revisionMembers.get? (ctx, revision, member) <;> rfl

/-- Netted, the edges of an accepted head pay what a member paid less what it shares. -/
theorem net_edgesOf (hdb : Linked db) {expense : Uuid} {e : ExpenseRow}
    (he : db.expenses.get? (ctx, expense) = some e) :
    net (debts (db.edgesOf ctx expense e.acceptedRevisionId)) member =
      (db.headShare ctx member e.acceptedRevisionId).1 - (db.headShare ctx member e.acceptedRevisionId).2 := by
  cases haccepted : e.acceptedRevisionId with
  | none => rfl
  | some revision =>
    obtain ⟨r, hr, hexpense⟩ := hdb.head he haccepted
    rw [edgesOf_eq hr hexpense, net_debts, hdb.balanced hr, partOf_eq]

/-- Netted, the accepted heads pay what a member paid less what it shares in them. -/
theorem net_headDebts (hdb : Linked db) : net (db.headDebts ctx) member =
    (overHeads db.expenses ctx fun _ head => db.headShare ctx member head).1 -
      (overHeads db.expenses ctx fun _ head => db.headShare ctx member head).2 := by
  have hdebts := map_overHeads ((Finsupp.applyAddHom member).comp (net (M := ℤ))) db.expenses ctx fun expense head =>
    debts (db.edgesOf ctx expense head)
  have hshares := map_overHeads (AddMonoidHom.fst ℤ ℤ - AddMonoidHom.snd ℤ ℤ) db.expenses ctx fun _ head =>
    db.headShare ctx member head
  refine (hdebts.trans (overHeads_congr ?_)).trans hshares.symm
  exact fun expense e he => net_edgesOf hdb he

end Balance

/-- In every state that the schema gets into a member's balance is what it paid less its share, by the totals, with the
confirmed payments it made less those it received. -/
theorem balance_of_run (moves : List Move) (ctx member : Uuid) :
    let db := (final System.step System.initial moves).db
    amountAt db.ledger.memberBalances (ctx, member) =
      (db.totals.ofMember ctx member).1 - (db.totals.ofMember ctx member).2 + db.settled ctx member := by
  intro db
  have hledger : LedgerSound db :=
    invariant_of_run ledgerSound_initial people_ledgerSound records_ledgerSound posts_ledgerSound moves
  have htotals : TotalsSound db :=
    invariant_of_run totalsSound_initial people_totalsSound records_totalsSound posts_totalsSound moves
  rw [← inContext_apply, hledger.members, hledger.pairs, map_add, Finsupp.add_apply, net_payments,
    net_headDebts (linked_of_run moves), ← htotals.member]

/-! ### Immutable records -/

/-- The rows of a table are in another, as they were. -/
def Kept {κ ν : Type} [DecidableEq κ] (table table' : InsertionMap κ ν) : Prop :=
  ∀ key row, table.get? key = some row → table'.get? key = some row

section Kept

variable {κ ν : Type} [DecidableEq κ] {table table' table'' : InsertionMap κ ν}

theorem Kept.refl (table : InsertionMap κ ν) : Kept table table := fun _ _ h => h

theorem Kept.trans (h : Kept table table') (h' : Kept table' table'') : Kept table table'' :=
  fun _ _ hrow => h' _ _ (h _ _ hrow)

theorem Kept.of_fresh {key : κ} {row : ν} (hfresh : key ∉ table.keys) : Kept table (table.set key row) :=
  fun _ _ => get?_set_of_fresh hfresh

end Kept

/-- The rows of the tables with the trigger `shared_immutable` are in another state, as they were. -/
structure Db.Immutable (db db' : Db) : Prop where
  revisions : Kept db.revisions db'.revisions
  revisionMembers : Kept db.revisionMembers db'.revisionMembers
  approvals : Kept db.approvals db'.approvals
  reports : Kept db.reports db'.reports
  settlementEvents : Kept db.settlementEvents db'.settlementEvents
  journal : Kept db.ledger.journal db'.ledger.journal

section Immutable

variable {db db' db'' : Db} {profile : Uuid} {request : Request}

theorem Db.Immutable.refl (db : Db) : db.Immutable db := by
  constructor <;> exact .refl _

theorem Db.Immutable.trans (h : db.Immutable db') (h' : db'.Immutable db'') : db.Immutable db'' where
  revisions := h.revisions.trans h'.revisions
  revisionMembers := h.revisionMembers.trans h'.revisionMembers
  approvals := h.approvals.trans h'.approvals
  reports := h.reports.trans h'.reports
  settlementEvents := h.settlementEvents.trans h'.settlementEvents
  journal := h.journal.trans h'.journal

theorem records_immutable (h : Records profile request db db') : db.Immutable db' := by
  cases h with
  | people hbooks =>
    cases hbooks
    exact { Db.Immutable.refl db with }
  | propose hchecked hmembers happrovals =>
    exact { Db.Immutable.refl db with
      revisions := .of_fresh hchecked.fresh
      revisionMembers := fun _ _ hrow => by rw [hmembers, hrow, Option.some_or]
      approvals := fun _ _ hrow => by rw [happrovals, hrow, Option.some_or] }
  | decide _ hkept => exact { Db.Immutable.refl db with approvals := hkept }
  | report hfresh => exact { Db.Immutable.refl db with reports := .of_fresh hfresh }

theorem postPair_kept {members : InsertionMap (Uuid × Uuid) MemberRow} {ctx effect : Uuid} {line : ℕ} {low high : Uuid}
    {amount : ℤ} {kind : JournalKind} {origin : Uuid} {ledger ledger' : Ledger}
    (h : postPair members ctx effect line low high amount kind origin ledger = .ok ledger') :
    Kept ledger.journal ledger'.journal := by
  obtain ⟨-, -, -, -, hfresh, hjournal, -⟩ := postPair_eq_ok h
  rw [hjournal]
  exact .of_fresh hfresh

theorem posts_immutable (h : Posts profile request db db') : db.Immutable db' := by
  cases h with
  | nothing => exact .refl db
  | accept _ h =>
    have hjournal := foldlM_induction (P := fun ledger => Kept db.ledger.journal ledger.journal)
      (fun _ _ _ _ hs hstep => hs.trans (postPair_kept hstep)) (.refl _) h.posted
    exact { Db.Immutable.refl db with journal := hjournal }
  | reject _ _ hfresh => exact { Db.Immutable.refl db with settlementEvents := .of_fresh hfresh }
  | confirm h =>
    exact { Db.Immutable.refl db with
      settlementEvents := .of_fresh h.fresh
      journal := postPair_kept h.posted }

theorem writes_immutable {move : Move} (h : Writes move db db') : db.Immutable db' := by
  cases h with
  | request hrecords hposts => exact (records_immutable hrecords).trans (posts_immutable hposts)
  | people hbooks =>
    cases hbooks
    exact { Db.Immutable.refl db with }

end Immutable

/-- In every run what is recorded stays as it is: no move rewrites or removes an immutable record. -/
theorem immutable_of_run (s : System) (moves : List Move) : s.db.Immutable (final System.step s moves).db :=
  related_of_final (P := fun _ => True) (R := fun s s' : System => s.db.Immutable s'.db) (fun _ => .refl _)
    (fun h h' => h.trans h') trivial fun move _ s _ => ⟨trivial, writes_immutable (step_writes s move)⟩

end PandaPay.SharedExpenses.Sql
