import PandaPay.SharedExpenses.Sql.Projection
import PandaPay.SharedExpenses.Sql.Runs
import PandaPay.Library.Balances

/-!
# References between the tables

What the tables say of each other in every state that the schema gets into: the head of an expense is one of its
revisions, a part in a revision is a member's, the edges of a revision pay what its rows say that the members paid and
share, and a settlement is answered once.

## Main definitions

* `partOf`: what a member paid less its share, in a revision
* `Linked`: the references that hold
* `overHeads`: sums over the accepted heads of a context

## Main results

* `writes_linked`: every move keeps the references
* `linked_of_run`, `invariant_of_run`: so they hold in every state of a run, with whatever else every move keeps
* `overHeads_propose`, `overHeads_accept`: a proposal changes no head, an acceptance changes one
-/

namespace PandaPay.SharedExpenses.Sql

/-- What a member paid less its share, in a revision. -/
def Db.partOf (db : Db) (ctx revision member : Uuid) : ℤ :=
  (db.revisionMembers.get? (ctx, revision, member)).elim 0 fun row => (row.paidMinor : ℤ) - row.shareMinor

/-- The references between the tables hold. -/
structure Linked (db : Db) : Prop where
  head : ∀ {ctx expense e revision}, db.expenses.get? (ctx, expense) = some e → e.acceptedRevisionId = some revision →
    ∃ r, db.revisions.get? (ctx, revision) = some r ∧ r.expenseId = expense
  distinct : ∀ {ctx revision r}, db.revisions.get? (ctx, revision) = some r →
    ∀ o ∈ r.projectedEdges, o.debtorId ≠ o.creditorId
  balanced : ∀ {ctx revision r}, db.revisions.get? (ctx, revision) = some r →
    ∀ member, owedTo r.projectedEdges member - owedBy r.projectedEdges member = db.partOf ctx revision member
  revisionMember : ∀ {ctx revision member row}, db.revisionMembers.get? (ctx, revision, member) = some row →
    (∃ r, db.revisions.get? (ctx, revision) = some r) ∧ (ctx, member) ∈ db.members.keys
  approval : ∀ {ctx revision member a}, db.approvals.get? (ctx, revision, member) = some a →
    ∃ r, db.revisions.get? (ctx, revision) = some r
  event : ∀ {ctx event s}, db.settlementEvents.get? (ctx, event) = some s →
    ∃ report, db.reports.get? (ctx, s.settlementId) = some report ∧ report.amountMinor = s.amountMinor
  once : ∀ {ctx event event' s s'}, db.settlementEvents.get? (ctx, event) = some s →
    db.settlementEvents.get? (ctx, event') = some s' → s.settlementId = s'.settlementId → event = event'

theorem linked_initial : Linked Db.initial := by
  constructor <;> simp [Db.initial]

/-! ### A proposal -/

/-- Looking up a row that is derived from the row of one key. -/
theorem lookup_filterMap {κ κ' ν ν' : Type} [DecidableEq κ] [DecidableEq κ'] {f : κ → ν → Option ν'}
    {g : κ → κ'} {k : κ} {es : List (κ × ν)} (hn : (es.map Prod.fst).Nodup)
    (hg : ∀ j v, g j = g k → j ≠ k → f j v = none) :
    InsertionMap.lookup (g k) (es.filterMap fun e => (f e.1 e.2).map fun w => (g e.1, w)) =
      (InsertionMap.lookup k es).bind (f k) := by
  induction es with
  | nil => rfl
  | cons e es ih =>
    obtain ⟨j, v⟩ := e
    obtain ⟨hnew, hn⟩ := List.nodup_cons.mp hn
    have ih := ih hn
    rw [List.filterMap_cons, InsertionMap.lookup]
    by_cases hj : j = k
    · subst hj
      rw [InsertionMap.lookup_eq_none_iff.mpr hnew, Option.bind_none] at ih
      rw [if_pos rfl, Option.bind_some]
      cases f j v with
      | none => exact ih
      | some w => simp [InsertionMap.lookup]
    · rw [if_neg hj, ← ih]
      cases hf : f j v with
      | none => rfl
      | some w =>
        rw [Option.map_some, InsertionMap.lookup, if_neg]
        intro hkey
        rw [hg j v hkey hj] at hf
        cases hf

section Propose

variable {db : Db} {profile : Uuid} {p : Proposal} {projected : Projection}

/-- The row of `revision_members` that a proposal gives a member of its context. -/
def Db.proposedRow (db : Db) (p : Proposal) (projected : Projection) (member : Uuid) : Option RevisionMemberRow :=
  (db.members.get? (p.contextId, member)).bind fun m =>
    revisionMember projected (p.expectedHeadRevisionId.bind fun head =>
      db.revisionMembers.get? (p.contextId, head, member)) (billPayers p.bill) member m

/-- A proposal writes a row for every member of its context that it involves, and no other. -/
theorem lookup_proposalMembers (ctx revision member : Uuid) :
    InsertionMap.lookup (ctx, revision, member) (db.proposalMembers p projected) =
      if ctx = p.contextId ∧ revision = p.revisionId then db.proposedRow p projected member else none := by
  have hrows : db.proposalMembers p projected = db.members.entries.filterMap fun e =>
      (if e.1.1 = p.contextId then
        revisionMember projected (p.expectedHeadRevisionId.bind fun head =>
          db.revisionMembers.get? (p.contextId, head, e.1.2)) (billPayers p.bill) e.1.2 e.2
        else none).map fun row => ((p.contextId, p.revisionId, e.1.2), row) := by
    rw [Db.proposalMembers]
    refine List.filterMap_congr fun e _ => ?_
    split_ifs <;> rfl
  split_ifs with hkey
  · obtain ⟨rfl, rfl⟩ := hkey
    rw [hrows, lookup_filterMap (k := (p.contextId, member))
      (f := fun (key : Uuid × Uuid) m => if key.1 = p.contextId then
        revisionMember projected (p.expectedHeadRevisionId.bind fun head =>
          db.revisionMembers.get? (p.contextId, head, key.2)) (billPayers p.bill) key.2 m else none)
      (g := fun key => (p.contextId, p.revisionId, key.2)) db.members.nodup_keys]
    · simp only [if_true]
      rfl
    · -- a row of another context is no row of the proposal
      intro key m hkey hne
      rw [if_neg]
      intro hctx
      exact hne (Prod.ext hctx (Prod.mk.inj (Prod.mk.inj hkey).2).2)
  · rw [InsertionMap.lookup_eq_none_iff, hrows]
    intro hmem
    obtain ⟨row, hrow, heq⟩ := List.mem_map.mp hmem
    obtain ⟨e, -, he⟩ := List.mem_filterMap.mp hrow
    obtain ⟨row', -, rfl⟩ := Option.map_eq_some_iff.mp he
    obtain ⟨hctx, heq⟩ := Prod.mk.inj heq
    exact hkey ⟨hctx.symm, (Prod.mk.inj heq).1.symm⟩

theorem key_of_mem_proposalMembers {row : (Uuid × Uuid × Uuid) × RevisionMemberRow}
    (h : row ∈ db.proposalMembers p projected) : row.1 = (p.contextId, p.revisionId, row.1.2.2) := by
  obtain ⟨⟨ctx, revision, member⟩, row⟩ := row
  have hlookup := @lookup_proposalMembers db p projected ctx revision member
  by_contra hkey
  rw [if_neg fun hk => hkey (by rw [hk.1, hk.2]), InsertionMap.lookup_eq_none_iff] at hlookup
  exact hlookup (List.mem_map_of_mem h)

theorem projectProposal_balanced (h : projectProposal p = .ok projected) : Balanced projected := by
  rw [projectProposal] at h
  split_ifs at h with hvoid
  · -- a void has no positions and no obligations
    simp only [failIf_bind_eq_ok, pure_eq_ok, Except.ok.injEq] at h
    obtain ⟨-, rfl⟩ := h
    exact ⟨by simp, fun id => by simp [owedTo, owedBy]⟩
  · exact projectSnapshot_balanced h

/-- The rows of a proposal say what its positions say. -/
theorem proposedRow_part (hchecked : ProposalChecked db profile p projected) (member : Uuid) :
    ((db.proposedRow p projected member).elim 0 fun row => (row.paidMinor : ℤ) - row.shareMinor) =
      (projected.positions.find? fun q => decide (q.memberId = member)).elim 0 fun q =>
        (q.paidMinor : ℤ) - q.shareMinor := by
  cases hm : db.members.get? (p.contextId, member) with
  | none =>
    -- a position is a member's
    have hnone : projected.positions.find? (fun q => decide (q.memberId = member)) = none := by
      rw [List.find?_eq_none]
      intro q hq heq
      rw [decide_eq_true_eq] at heq
      have hin := hchecked.positions q hq
      rw [heq, Db.memberIn, hm] at hin
      cases hin
    rw [Db.proposedRow, hm, hnone]
    rfl
  | some m =>
    rw [Db.proposedRow, hm, Option.bind_some, revisionMember]
    split_ifs with hrow
    · simp only [Option.elim_some, positionOf]
      cases projected.positions.find? (fun q => decide (q.memberId = member)) <;> rfl
    · simp only [positionOf, Bool.or_eq_true, not_or, Bool.not_eq_true, Option.isSome_eq_false_iff,
        Option.isNone_iff_eq_none] at hrow
      rw [hrow.1.1]
      rfl

end Propose

/-! ### Keeping the references -/

section Linked

variable {db db' : Db} {profile : Uuid} {request : Request}

theorem people_linked (hbooks : SameBooks db db') (hmembers : MembersStay db db') (hdb : Linked db) : Linked db' := by
  cases hbooks
  refine ⟨hdb.head, hdb.distinct, hdb.balanced, fun hrow => ?_, hdb.approval, hdb.event, hdb.once⟩
  exact (hdb.revisionMember hrow).imp_right (hmembers _)

/-- What was recorded of a revision stays when another is proposed. -/
theorem revisionMember_of_propose {p : Proposal} {projected : Projection}
    {revisionMembers : InsertionMap (Uuid × Uuid × Uuid) RevisionMemberRow}
    (hchecked : ProposalChecked db profile p projected)
    (hmembers : ∀ k, revisionMembers.get? k =
      (db.revisionMembers.get? k).or (InsertionMap.lookup k (db.proposalMembers p projected)))
    {ctx revision : Uuid} {r : RevisionRow} (hr : db.revisions.get? (ctx, revision) = some r) (member : Uuid) :
    revisionMembers.get? (ctx, revision, member) = db.revisionMembers.get? (ctx, revision, member) := by
  rw [hmembers, lookup_proposalMembers, if_neg, Option.or_none]
  rintro ⟨rfl, rfl⟩
  exact hchecked.fresh (InsertionMap.mem_keys_of_get? hr)

theorem propose_linked {p : Proposal} {projected : Projection}
    {revisionMembers : InsertionMap (Uuid × Uuid × Uuid) RevisionMemberRow}
    {approvals : InsertionMap (Uuid × Uuid × Uuid) ApprovalRow} (hdb : Linked db)
    (hchecked : ProposalChecked db profile p projected)
    (hmembers : ∀ k, revisionMembers.get? k =
      (db.revisionMembers.get? k).or (InsertionMap.lookup k (db.proposalMembers p projected)))
    (happrovals : ∀ k, approvals.get? k =
      (db.approvals.get? k).or (InsertionMap.lookup k (db.ownApprovals profile p projected))) :
    Linked { db with
      expenses := db.expenses.set (p.contextId, p.expenseId)
        ((db.expenses.get? (p.contextId, p.expenseId)).getD ⟨profile, none, 0⟩)
      revisions := db.revisions.set (p.contextId, p.revisionId) (p.revisionRow profile projected)
      revisionMembers := revisionMembers
      approvals := approvals } := by
  have hbalanced := projectProposal_balanced hchecked.projection
  have hkept : ∀ {k r}, db.revisions.get? k = some r →
      (db.revisions.set (p.contextId, p.revisionId) (p.revisionRow profile projected)).get? k = some r :=
    fun h => get?_set_of_fresh hchecked.fresh h
  -- a revision that is new has no rows yet
  have hnone : ∀ member, db.revisionMembers.get? (p.contextId, p.revisionId, member) = none := by
    intro member
    by_contra hrow
    obtain ⟨row, hrow⟩ := Option.ne_none_iff_exists'.mp hrow
    obtain ⟨⟨r, hr⟩, -⟩ := hdb.revisionMember hrow
    exact hchecked.fresh (InsertionMap.mem_keys_of_get? hr)
  refine ⟨?_, ?_, ?_, ?_, ?_, hdb.event, hdb.once⟩
  · intro ctx expense e revision he haccepted
    simp only [InsertionMap.get?_set] at he
    split_ifs at he with hkey
    · obtain ⟨rfl, rfl⟩ := Prod.mk.inj hkey
      obtain rfl := Option.some.inj he
      cases hold : db.expenses.get? (p.contextId, p.expenseId) with
      | none =>
        rw [hold] at haccepted
        cases haccepted
      | some old =>
        rw [hold] at haccepted
        obtain ⟨r, hr, hexpense⟩ := hdb.head hold haccepted
        exact ⟨r, hkept hr, hexpense⟩
    · obtain ⟨r, hr, hexpense⟩ := hdb.head he haccepted
      exact ⟨r, hkept hr, hexpense⟩
  · intro ctx revision r hr
    simp only [InsertionMap.get?_set] at hr
    split_ifs at hr with hkey
    · obtain rfl := Option.some.inj hr
      exact hbalanced.distinct
    · exact hdb.distinct hr
  · intro ctx revision r hr member
    simp only [InsertionMap.get?_set] at hr
    rw [Db.partOf]
    simp only [hmembers, lookup_proposalMembers]
    split_ifs at hr with hkey
    · obtain ⟨rfl, rfl⟩ := Prod.mk.inj hkey
      obtain rfl := Option.some.inj hr
      rw [hnone, Option.none_or, if_pos ⟨rfl, rfl⟩, proposedRow_part hchecked]
      exact hbalanced.balance member
    · rw [← @lookup_proposalMembers db, ← hmembers, revisionMember_of_propose hchecked hmembers hr]
      exact hdb.balanced hr member
  · intro ctx revision member row hrow
    rw [hmembers, lookup_proposalMembers, Option.or_eq_some_iff] at hrow
    rcases hrow with hrow | ⟨-, hrow⟩
    · obtain ⟨⟨r, hr⟩, hm⟩ := hdb.revisionMember hrow
      exact ⟨⟨r, hkept hr⟩, hm⟩
    · split_ifs at hrow with hkey
      obtain ⟨rfl, rfl⟩ := hkey
      obtain ⟨m, hm, -⟩ := Option.bind_eq_some_iff.mp hrow
      exact ⟨⟨_, InsertionMap.get?_set_self _ _ _⟩, InsertionMap.mem_keys_of_get? hm⟩
  · intro ctx revision member a ha
    rw [happrovals, Option.or_eq_some_iff] at ha
    rcases ha with ha | ⟨-, ha⟩
    · obtain ⟨r, hr⟩ := hdb.approval ha
      exact ⟨r, hkept hr⟩
    · -- the author approves rows of the proposal
      obtain ⟨row, hrow, heq⟩ := List.mem_map.mp (InsertionMap.mem_of_lookup_eq_some ha)
      have hkey := key_of_mem_proposalMembers (List.mem_filter.mp hrow).1
      rw [(Prod.mk.inj heq).1] at hkey
      obtain ⟨rfl, hkey⟩ := Prod.mk.inj hkey
      obtain ⟨rfl, -⟩ := Prod.mk.inj hkey
      exact ⟨_, InsertionMap.get?_set_self _ _ _⟩

/-- Recording keeps the references. -/
theorem records_linked (h : Records profile request db db') (hdb : Linked db) : Linked db' := by
  cases h with
  | people hbooks henrols => exact people_linked hbooks henrols.membersStay hdb
  | propose hchecked hmembers happrovals => exact propose_linked hdb hchecked hmembers happrovals
  | decide hrevision hkept hnew =>
    refine ⟨hdb.head, hdb.distinct, hdb.balanced, hdb.revisionMember, ?_, hdb.event, hdb.once⟩
    intro ctx revision member a ha
    rcases hnew _ a ha with ha | ⟨hctx, hrev, -⟩
    · exact hdb.approval ha
    · simp only at hctx hrev
      rw [hctx, hrev]
      exact ⟨_, hrevision⟩
  | report hfresh =>
    refine ⟨hdb.head, hdb.distinct, hdb.balanced, hdb.revisionMember, hdb.approval, ?_, hdb.once⟩
    intro ctx event s hs
    obtain ⟨report, hreport, hamount⟩ := hdb.event hs
    exact ⟨report, get?_set_of_fresh hfresh hreport, hamount⟩

/-- A settlement without a terminal event has no event. -/
theorem ne_of_terminalEvent_eq_none {ctx settlement event : Uuid} {s : SettlementEventRow}
    (h : db.terminalEvent ctx settlement = none) (hs : db.settlementEvents.get? (ctx, event) = some s) :
    s.settlementId ≠ settlement := by
  rw [Db.terminalEvent, Option.map_eq_none_iff, List.find?_eq_none] at h
  intro heq
  exact h _ (InsertionMap.get?_eq_some_iff.mp hs) (by simp [heq])

/-- The answer to a settlement that has none keeps the references. -/
theorem answer_linked (hdb : Linked db) {p : SettlementResponse} {report : ReportRow} {actor : Uuid}
    {kind : SettlementKind} {ledger : Ledger} (hreport : db.reports.get? (p.contextId, p.settlementId) = some report)
    (hopen : db.terminalEvent p.contextId p.settlementId = none) :
    Linked { db with
      settlementEvents := db.settlementEvents.set (p.contextId, p.eventId)
        ⟨p.settlementId, actor, kind, report.amountMinor⟩
      ledger := ledger } := by
  refine ⟨hdb.head, hdb.distinct, hdb.balanced, hdb.revisionMember, hdb.approval, ?_, ?_⟩
  · intro ctx event s hs
    simp only [InsertionMap.get?_set] at hs
    split_ifs at hs with hkey
    · obtain ⟨rfl, rfl⟩ := Prod.mk.inj hkey
      obtain rfl := Option.some.inj hs
      exact ⟨report, hreport, rfl⟩
    · exact hdb.event hs
  · intro ctx event event' s s' hs hs' hsame
    simp only [InsertionMap.get?_set] at hs hs'
    split_ifs at hs hs' with hkey hkey' hkey'
    · rw [← (Prod.mk.inj hkey').2] at hkey
      exact (Prod.mk.inj hkey).2
    · obtain ⟨rfl, rfl⟩ := Prod.mk.inj hkey
      obtain rfl := Option.some.inj hs
      exact absurd hsame.symm (ne_of_terminalEvent_eq_none hopen hs')
    · obtain ⟨rfl, rfl⟩ := Prod.mk.inj hkey'
      obtain rfl := Option.some.inj hs'
      exact absurd hsame (ne_of_terminalEvent_eq_none hopen hs)
    · exact hdb.once hs hs' hsame

/-- Posting keeps the references. -/
theorem posts_linked (h : Posts profile request db db') (hdb : Linked db) : Linked db' := by
  cases h with
  | nothing => exact hdb
  | accept _ h =>
    refine ⟨?_, hdb.distinct, hdb.balanced, hdb.revisionMember, hdb.approval, hdb.event, hdb.once⟩
    intro c x e' revision' he haccepted
    simp only [InsertionMap.get?_set] at he
    split_ifs at he with hkey
    · obtain ⟨rfl, rfl⟩ := Prod.mk.inj hkey
      obtain rfl := Option.some.inj he
      obtain rfl := Option.some.inj haccepted
      exact ⟨_, h.revisionRow, h.expenseId⟩
    · exact hdb.head he haccepted
  | reject hreport hopen => exact answer_linked hdb hreport hopen
  | confirm h => exact answer_linked hdb h.reportRow h.unanswered

end Linked

/-- Every move keeps the references. -/
theorem writes_linked {db db' : Db} {move : Move} (h : Writes move db db') (hdb : Linked db) : Linked db' := by
  cases h with
  | request hrecords hposts => exact posts_linked hposts (records_linked hrecords hdb)
  | people hbooks hmembers => exact people_linked hbooks hmembers hdb

/-- The references hold in every state of a run. -/
theorem linked_of_run (moves : List Move) : Linked (final System.step System.initial moves).db :=
  invariant_of_final (P := fun s => Linked s.db) linked_initial fun move _ s hs => writes_linked (step_writes s move) hs

/-- What the people, the recording and the posting keep, of schemas with their references, holds in every state of a
run. -/
theorem invariant_of_run {P : Db → Prop} (hinitial : P Db.initial)
    (hpeople : ∀ {db db'}, SameBooks db db' → MembersStay db db' → P db → P db')
    (hrecords : ∀ {profile request db db'}, Records profile request db db' → Linked db → P db → P db')
    (hposts : ∀ {profile request db db'}, Posts profile request db db' → Linked db → P db → P db')
    (moves : List Move) : P (final System.step System.initial moves).db := by
  have hstep : ∀ {move db db'}, Writes move db db' → Linked db → P db → P db' := by
    intro move db db' h hdb hP
    cases h with
    | request hrec hpost => exact hposts hpost (records_linked hrec hdb) (hrecords hrec hdb hP)
    | people hbooks hmembers => exact hpeople hbooks hmembers hP
  have hboth : Linked (final System.step System.initial moves).db ∧ P (final System.step System.initial moves).db :=
    invariant_of_final (P := fun s => Linked s.db ∧ P s.db) ⟨linked_initial, hinitial⟩ fun move _ s hs =>
      ⟨writes_linked (step_writes s move) hs.1, hstep (step_writes s move) hs.1 hs.2⟩
  exact hboth.2

/-! ### Sums over the accepted heads -/

/-- What the accepted heads of a context add up to, by a measure of heads. -/
def overHeads {A : Type} [AddCommMonoid A] (expenses : InsertionMap (Uuid × Uuid) ExpenseRow) (ctx : Uuid)
    (measure : Uuid → Option Uuid → A) : A :=
  expenses.sum fun key e => if key.1 = ctx then measure key.2 e.acceptedRevisionId else 0

section OverHeads

variable {A : Type} [AddCommGroup A] {db : Db} {expenses : InsertionMap (Uuid × Uuid) ExpenseRow} {ctx c : Uuid}
  {measure measure' : Uuid → Option Uuid → A}

theorem overHeads_congr
    (h : ∀ expense e, expenses.get? (c, expense) = some e →
      measure expense e.acceptedRevisionId = measure' expense e.acceptedRevisionId) :
    overHeads expenses c measure = overHeads expenses c measure' := by
  apply InsertionMap.sum_congr
  rintro ⟨c', expense⟩ e hmem
  by_cases hc : c' = c
  · subst hc
    simp only [if_true, h expense e (InsertionMap.get?_eq_some_iff.mpr hmem)]
  · simp only [hc, if_false]

/-- A row of an expense changes the sum by what its head changes. -/
theorem overHeads_set (expense : Uuid) (e : ExpenseRow) :
    overHeads (expenses.set (ctx, expense) e) c measure = overHeads expenses c measure + if ctx = c then
      measure expense e.acceptedRevisionId -
        (expenses.get? (ctx, expense)).elim 0 fun old => measure expense old.acceptedRevisionId
      else 0 := by
  rw [overHeads, InsertionMap.sum_set_sub]
  congr 1
  by_cases hc : ctx = c
  · subst hc
    simp only [if_true]
  · simp only [hc, if_false]
    cases expenses.get? (ctx, expense) <;> simp

/-- A new head is counted in place of the old one. -/
theorem overHeads_accept (measure : Uuid → Option Uuid → A) (c : Uuid) {expense : Uuid} {e : ExpenseRow}
    (h : expenses.get? (ctx, expense) = some e) (revision : Uuid) (version : ℕ) :
    overHeads (expenses.set (ctx, expense) { e with
        acceptedRevisionId := some revision
        headVersion := version }) c measure =
      overHeads expenses c measure +
        if ctx = c then measure expense (some revision) - measure expense e.acceptedRevisionId else 0 := by
  rw [overHeads_set, h, Option.elim_some]

/-- A proposal changes no head, and what is measured of those that there are is as it was. -/
theorem overHeads_propose (hdb : Linked db) {profile : Uuid} {p : Proposal}
    (hnone : ∀ expense, measure expense none = 0)
    (hnone' : ∀ expense, measure' expense none = 0)
    (hsame : ∀ expense revision r, db.revisions.get? (c, revision) = some r →
      measure' expense (some revision) = measure expense (some revision)) :
    overHeads (db.expenses.set (p.contextId, p.expenseId)
        ((db.expenses.get? (p.contextId, p.expenseId)).getD ⟨profile, none, 0⟩)) c measure' =
      overHeads db.expenses c measure := by
  have hheads : ∀ expense e, db.expenses.get? (c, expense) = some e →
      measure' expense e.acceptedRevisionId = measure expense e.acceptedRevisionId := by
    intro expense e he
    cases haccepted : e.acceptedRevisionId with
    | none => rw [hnone, hnone']
    | some revision =>
      obtain ⟨r, hr, -⟩ := hdb.head he haccepted
      exact hsame expense revision r hr
  rw [overHeads_set, overHeads_congr hheads]
  cases db.expenses.get? (p.contextId, p.expenseId) with
  | none => simp [hnone']
  | some old => simp

/-- A homomorphism sums up alike. -/
theorem map_overHeads {B : Type} [AddCommGroup B] (φ : A →+ B) (expenses : InsertionMap (Uuid × Uuid) ExpenseRow)
    (c : Uuid) (measure : Uuid → Option Uuid → A) :
    φ (overHeads expenses c measure) = overHeads expenses c fun expense head => φ (measure expense head) := by
  rw [overHeads, overHeads, InsertionMap.sum, InsertionMap.sum, map_list_sum, List.map_map]
  refine congrArg List.sum (List.map_congr_left fun e _ => ?_)
  simp only [Function.comp_apply]
  split_ifs
  · rfl
  · exact map_zero φ

end OverHeads

end PandaPay.SharedExpenses.Sql
