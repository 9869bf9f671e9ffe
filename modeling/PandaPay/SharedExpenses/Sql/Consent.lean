import PandaPay.SharedExpenses.Sql.Ledger

/-!
# Consent to a revision

A revision becomes the head of its expense once everybody whose part it touches has approved it: everyone who paid or
shares something in it or in the head it replaces, and each by the profile that reviews for the member. A revision
becomes the head in place of the one it was written against, and so at most once. Nobody's balance changes otherwise,
but by payments that their receivers confirm.

## Main definitions

* `Db.headOf`: the accepted head of an expense
* `RevisionsSound`: what the rows of a revision require
* `Db.Consented`: a member's part in a revision has been approved, by a request of the reviewer
* `Lineage`: the revisions that have been the head one after the other

## Main results

* `writes_headOf`: a move leaves a head as it is, or accepts a revision
* `head_change_consented`: whoever is touched by a change of a head has consented
* `head_at_most_once`: no revision becomes the head twice
* `balance_change_consented`: a balance changes by consent or by a confirmed payment
-/

namespace PandaPay.SharedExpenses.Sql

/-- The accepted head of an expense. -/
def Db.headOf (db : Db) (ctx expense : Uuid) : Option Uuid :=
  (db.expenses.get? (ctx, expense)).bind (·.acceptedRevisionId)

/-- The context and the revision for which a request records a decision, and the decision. -/
def Request.decides : Request → Option (Uuid × Uuid × Decision)
  | .submitProposal p => some (p.contextId, p.revisionId, .approve)
  | .respondExpense p => some (p.contextId, p.revisionId, p.decision)
  | _ => none

/-! ### What a revision requires -/

/-- The revision that another is written against is one of its expense, and a member with a part in either has to
approve. -/
structure RevisionsSound (db : Db) : Prop where
  expected : ∀ {ctx revision r head}, db.revisions.get? (ctx, revision) = some r →
    r.expectedHeadRevisionId = some head → ∃ old, db.revisions.get? (ctx, head) = some old
  own : ∀ {ctx revision member row}, db.revisionMembers.get? (ctx, revision, member) = some row →
    row.paidMinor ≠ 0 ∨ row.shareMinor ≠ 0 → row.approvalRequired = true
  inherited : ∀ {ctx revision r head member previous}, db.revisions.get? (ctx, revision) = some r →
    r.expectedHeadRevisionId = some head → db.revisionMembers.get? (ctx, head, member) = some previous →
    previous.approvalRequired = true →
      ∃ row, db.revisionMembers.get? (ctx, revision, member) = some row ∧ row.approvalRequired = true

theorem revisionsSound_initial : RevisionsSound Db.initial := by
  constructor <;> simp [Db.initial]

section Sound

variable {db db' : Db} {profile : Uuid} {request : Request}

/-- A row of a proposal requires the approval of whoever has a part in it, or had to approve the head. -/
theorem required_of_proposedRow {p : Proposal} {projected : Projection} {member : Uuid} {row : RevisionMemberRow}
    (h : db.proposedRow p projected member = some row) :
    (row.paidMinor ≠ 0 ∨ row.shareMinor ≠ 0 → row.approvalRequired = true) ∧
      ∀ head previous, p.expectedHeadRevisionId = some head →
        db.revisionMembers.get? (p.contextId, head, member) = some previous → previous.approvalRequired = true →
          row.approvalRequired = true := by
  obtain ⟨m, -, hrow⟩ := Option.bind_eq_some_iff.mp h
  rw [revisionMember] at hrow
  split_ifs at hrow
  obtain rfl := Option.some.inj hrow
  constructor
  · rintro (hpaid | hshare)
    · simp [Nat.pos_of_ne_zero hpaid]
    · simp [Nat.pos_of_ne_zero hshare]
  · intro head previous hhead hprevious hrequired
    simp [hhead, hprevious, hrequired]

theorem propose_revisionsSound {p : Proposal} {projected : Projection}
    {revisionMembers : InsertionMap (Uuid × Uuid × Uuid) RevisionMemberRow}
    {approvals : InsertionMap (Uuid × Uuid × Uuid) ApprovalRow} {expenses : InsertionMap (Uuid × Uuid) ExpenseRow}
    (hdb : Linked db) (hsound : RevisionsSound db) (hchecked : ProposalChecked db profile p projected)
    (hmembers : ∀ k, revisionMembers.get? k =
      (db.revisionMembers.get? k).or (InsertionMap.lookup k (db.proposalMembers p projected))) :
    RevisionsSound { db with
      expenses := expenses
      revisions := db.revisions.set (p.contextId, p.revisionId) (p.revisionRow profile projected)
      revisionMembers := revisionMembers
      approvals := approvals } := by
  have hsame : ∀ {ctx revision r}, db.revisions.get? (ctx, revision) = some r → ∀ member,
      revisionMembers.get? (ctx, revision, member) = db.revisionMembers.get? (ctx, revision, member) :=
    fun hr => revisionMember_of_propose hchecked hmembers hr
  -- the head that a proposal is written against has been recorded
  have hhead : ∀ head, p.expectedHeadRevisionId = some head →
      ∃ old, db.revisions.get? (p.contextId, head) = some old := by
    intro head hexpected
    obtain ⟨e, he, haccepted⟩ := Option.bind_eq_some_iff.mp (hchecked.head.trans hexpected)
    obtain ⟨old, hold, -⟩ := hdb.head he haccepted
    exact ⟨old, hold⟩
  have hrow : ∀ member row, revisionMembers.get? (p.contextId, p.revisionId, member) = some row →
      db.proposedRow p projected member = some row := by
    intro member row hget
    rw [hmembers, lookup_proposalMembers, if_pos ⟨rfl, rfl⟩, Option.or_eq_some_iff] at hget
    rcases hget with hold | ⟨-, hget⟩
    · obtain ⟨⟨r, hr⟩, -⟩ := hdb.revisionMember hold
      exact absurd (InsertionMap.mem_keys_of_get? hr) hchecked.fresh
    · exact hget
  refine ⟨?_, ?_, ?_⟩
  · intro ctx revision r head hr hexpected
    simp only [InsertionMap.get?_set] at hr
    split_ifs at hr with hkey
    · obtain ⟨rfl, rfl⟩ := Prod.mk.inj hkey
      obtain rfl := Option.some.inj hr
      obtain ⟨old, hold⟩ := hhead head hexpected
      exact ⟨old, get?_set_of_fresh hchecked.fresh hold⟩
    · obtain ⟨old, hold⟩ := hsound.expected hr hexpected
      exact ⟨old, get?_set_of_fresh hchecked.fresh hold⟩
  · intro ctx revision member row hget hpart
    by_cases hkey : ctx = p.contextId ∧ revision = p.revisionId
    · obtain ⟨rfl, rfl⟩ := hkey
      exact (required_of_proposedRow (hrow member row hget)).1 hpart
    · simp only [hmembers, lookup_proposalMembers, if_neg hkey, Option.or_none] at hget
      exact hsound.own hget hpart
  · intro ctx revision r head member previous hr hexpected hprevious hrequired
    simp only [InsertionMap.get?_set] at hr
    split_ifs at hr with hkey
    · obtain ⟨rfl, rfl⟩ := Prod.mk.inj hkey
      obtain rfl := Option.some.inj hr
      obtain ⟨old, hold⟩ := hhead head hexpected
      have hprevious : db.revisionMembers.get? (p.contextId, head, member) = some previous :=
        (hsame hold member).symm.trans hprevious
      -- the member of the head is a member still, and gets a row
      obtain ⟨m, hm⟩ := Option.isSome_iff_exists.mp (InsertionMap.mem_keys_iff.mp (hdb.revisionMember hprevious).2)
      have hexpected : p.expectedHeadRevisionId = some head := hexpected
      obtain ⟨row, hproposed⟩ : ∃ row, db.proposedRow p projected member = some row := by
        rw [Db.proposedRow, hm, Option.bind_some, hexpected, Option.bind_some, hprevious, revisionMember]
        simp
      refine ⟨row, ?_, (required_of_proposedRow hproposed).2 head previous hexpected hprevious hrequired⟩
      have hnone : db.revisionMembers.get? (p.contextId, p.revisionId, member) = none := by
        by_contra hsome
        obtain ⟨row', hrow'⟩ := Option.ne_none_iff_exists'.mp hsome
        obtain ⟨⟨r, hr⟩, -⟩ := hdb.revisionMember hrow'
        exact hchecked.fresh (InsertionMap.mem_keys_of_get? hr)
      simp only [hmembers, lookup_proposalMembers, hnone, Option.none_or, and_self, if_true, hproposed]
    · obtain ⟨old, hold⟩ := hsound.expected hr hexpected
      have hprevious : db.revisionMembers.get? (ctx, head, member) = some previous :=
        (hsame hold member).symm.trans hprevious
      obtain ⟨row, hget, hneeded⟩ := hsound.inherited hr hexpected hprevious hrequired
      exact ⟨row, (hsame hr member).trans hget, hneeded⟩

theorem people_revisionsSound (hbooks : SameBooks db db') (_ : MembersStay db db') (hsound : RevisionsSound db) :
    RevisionsSound db' := by
  cases hbooks
  exact ⟨hsound.expected, hsound.own, hsound.inherited⟩

theorem records_revisionsSound (h : Records profile request db db') (hdb : Linked db) (hsound : RevisionsSound db) :
    RevisionsSound db' := by
  cases h with
  | people hbooks henrols => exact people_revisionsSound hbooks henrols.membersStay hsound
  | propose hchecked hmembers => exact propose_revisionsSound hdb hsound hchecked hmembers
  | decide => exact ⟨hsound.expected, hsound.own, hsound.inherited⟩
  | report => exact ⟨hsound.expected, hsound.own, hsound.inherited⟩

theorem posts_revisionsSound (h : Posts profile request db db') (_ : Linked db) (hsound : RevisionsSound db) :
    RevisionsSound db' := by
  cases h <;> exact ⟨hsound.expected, hsound.own, hsound.inherited⟩

theorem revisionsSound_of_run (moves : List Move) : RevisionsSound (final System.step System.initial moves).db :=
  invariant_of_run revisionsSound_initial people_revisionsSound records_revisionsSound posts_revisionsSound moves

end Sound

/-! ### Who has approved -/

/-- An approval is recorded at a request of its actor. -/
theorem writes_approvals {db db' : Db} {move : Move} (h : Writes move db db') {ctx revision member : Uuid}
    {a : ApprovalRow} (ha : db'.approvals.get? (ctx, revision, member) = some a) :
    db.approvals.get? (ctx, revision, member) = some a ∨
      ∃ request, move = .request a.actorProfileId request ∧ request.decides = some (ctx, revision, a.decision) := by
  cases h with
  | people hbooks =>
    cases hbooks
    exact .inl ha
  | @request profile request _ mid _ hrecords hposts =>
    have hmid : mid.approvals.get? (ctx, revision, member) = some a := by
      cases hposts <;> exact ha
    cases hrecords with
    | people hbooks =>
      cases hbooks
      exact .inl hmid
    | propose hchecked hmembers happrovals =>
      rw [happrovals, Option.or_eq_some_iff] at hmid
      rcases hmid with hold | ⟨-, hnew⟩
      · exact .inl hold
      · obtain ⟨row, hrow, heq⟩ := List.mem_map.mp (InsertionMap.mem_of_lookup_eq_some hnew)
        have hkey := key_of_mem_proposalMembers (List.mem_filter.mp hrow).1
        obtain ⟨hrowKey, rfl⟩ := Prod.mk.inj heq
        rw [hrowKey] at hkey
        simp only [Prod.mk.injEq] at hkey
        obtain ⟨rfl, rfl, -⟩ := hkey
        exact .inr ⟨_, rfl, rfl⟩
    | decide hrevision hkept hnew =>
      rcases hnew _ a hmid with hold | ⟨hctx, hrev, rfl⟩
      · exact .inl hold
      · simp only at hctx hrev
        subst hctx hrev
        exact .inr ⟨_, rfl, rfl⟩
    | report => exact .inl hmid

theorem final_concat (earlier : List Move) (move : Move) :
    final System.step System.initial (earlier ++ [move]) =
      ((final System.step System.initial earlier).step move).2 := final_append earlier [move]

theorem writes_concat (earlier : List Move) (move : Move) :
    Writes move (final System.step System.initial earlier).db
      (final System.step System.initial (earlier ++ [move])).db := by
  rw [final_concat]
  exact step_writes _ move

/-- Every approval has been recorded at a request of its actor. -/
theorem approval_of_run {moves : List Move} {ctx revision member : Uuid} {a : ApprovalRow}
    (h : (final System.step System.initial moves).db.approvals.get? (ctx, revision, member) = some a) :
    ∃ request, .request a.actorProfileId request ∈ moves ∧ request.decides = some (ctx, revision, a.decision) := by
  induction moves using List.reverseRecOn with
  | nil => cases h
  | append_singleton moves move ih =>
    rw [final_concat] at h
    rcases writes_approvals (step_writes _ move) h with hold | ⟨request, rfl, hdecides⟩
    · obtain ⟨request, hmem, hdecides⟩ := ih hold
      exact ⟨request, List.mem_append_left _ hmem, hdecides⟩
    · exact ⟨request, by simp, hdecides⟩

/-- A member's part in a revision has been approved, at a request of the profile that reviews for the member: the one
that was frozen with the revision, or the one bound to the member. -/
def Db.Consented (db : Db) (moves : List Move) (ctx revision member : Uuid) : Prop :=
  ∃ r row a, db.revisions.get? (ctx, revision) = some r ∧
    db.revisionMembers.get? (ctx, revision, member) = some row ∧ row.approvalRequired = true ∧
    db.approvals.get? (ctx, revision, member) = some a ∧ a.decision = .approve ∧ a.revisionHash = r.revisionHash ∧
    row.approverProfileId.or (db.boundProfile ctx member) = some a.actorProfileId ∧
    ∃ request, .request a.actorProfileId request ∈ moves ∧ request.decides = some (ctx, revision, .approve)

/-! ### How a head changes -/

section Head

variable {db db' : Db}

/-- Recording changes no head. -/
theorem headOf_of_records {profile : Uuid} {request : Request} (h : Records profile request db db')
    (ctx expense : Uuid) : db'.headOf ctx expense = db.headOf ctx expense := by
  cases h with
  | people hbooks =>
    cases hbooks
    rfl
  | @propose _ p =>
    simp only [Db.headOf, InsertionMap.get?_set]
    split_ifs with hkey
    · rw [hkey]
      cases db.expenses.get? (p.contextId, p.expenseId) <;> rfl
    · rfl
  | decide => rfl
  | report => rfl

/-- The state that an accepted revision leaves. -/
structure Accepts (db db' : Db) (ctx expense revision : Uuid) (r : RevisionRow) (profile : Uuid) : Prop where
  revisionRow : db'.revisions.get? (ctx, revision) = some r
  expenseId : r.expenseId = expense
  expected : r.expectedHeadRevisionId = db.headOf ctx expense
  notHead : db.headOf ctx expense ≠ some revision
  head : db'.headOf ctx expense = some revision
  approved : ∀ row ∈ db'.revisionRows ctx revision, row.2.approvalRequired = true →
    db'.approved profile ctx revision r.revisionHash row = true

theorem accepts_of_checked {mid : Db} {profile ctx expense revision : Uuid} {e : ExpenseRow} {r : RevisionRow}
    {ledger : Ledger} {totals : Totals} (hmid : mid.headOf ctx expense = db.headOf ctx expense)
    (h : AcceptChecked mid profile ctx expense revision e r ledger totals) :
    Accepts db { mid with
      expenses := mid.expenses.set (ctx, expense) { e with
        acceptedRevisionId := some revision
        headVersion := e.headVersion + 1 }
      ledger := ledger
      totals := totals } ctx expense revision r profile := by
  have hhead : db.headOf ctx expense = e.acceptedRevisionId := by
    rw [← hmid, Db.headOf, h.expenseRow, Option.bind_some]
  refine ⟨h.revisionRow, h.expenseId, ?_, ?_, ?_, h.approved⟩
  · rw [hhead, h.head]
  · rw [hhead]
    exact h.notHead
  · simp only [Db.headOf, InsertionMap.get?_set_self, Option.bind_some]

/-- A move leaves a head as it is, or accepts a revision that was written against it. -/
theorem writes_headOf {move : Move} (h : Writes move db db') (ctx expense : Uuid) :
    db'.headOf ctx expense = db.headOf ctx expense ∨
      ∃ revision r profile, Accepts db db' ctx expense revision r profile := by
  cases h with
  | people hbooks =>
    cases hbooks
    exact .inl rfl
  | @request profile request _ mid _ hrecords hposts =>
    have hmid := headOf_of_records hrecords ctx expense
    cases hposts with
    | nothing => exact .inl hmid
    | @accept _ _ c x revision e r ledger totals hsubject h =>
      by_cases hkey : ctx = c ∧ expense = x
      · obtain ⟨rfl, rfl⟩ := hkey
        exact .inr ⟨revision, r, profile, accepts_of_checked hmid h⟩
      · left
        rw [← hmid]
        simp only [Db.headOf, InsertionMap.get?_set, Prod.mk.injEq, if_neg hkey]
    | reject => exact .inl hmid
    | confirm => exact .inl hmid

/-- The rows of a revision are those that are asked for their approval. -/
theorem mem_revisionRows {ctx revision member : Uuid} {row : RevisionMemberRow} :
    (member, row) ∈ db.revisionRows ctx revision ↔ db.revisionMembers.get? (ctx, revision, member) = some row := by
  rw [Db.revisionRows, List.mem_map, InsertionMap.get?_eq_some_iff]
  constructor
  · rintro ⟨⟨⟨c, r, id⟩, row'⟩, hmem, heq⟩
    obtain ⟨hentry, hkey⟩ := List.mem_filter.mp hmem
    obtain ⟨rfl, rfl⟩ := Prod.mk.inj heq
    obtain ⟨rfl, rfl⟩ := of_decide_eq_true hkey
    exact hentry
  · intro hmem
    exact ⟨_, List.mem_filter.mpr ⟨hmem, by simp⟩, rfl⟩

/-- A member's part that is not nothing has a row. -/
theorem row_of_headShare {ctx revision member : Uuid} (h : db.headShare ctx member (some revision) ≠ 0) :
    ∃ row, db.revisionMembers.get? (ctx, revision, member) = some row ∧ (row.paidMinor ≠ 0 ∨ row.shareMinor ≠ 0) := by
  cases hrow : db.revisionMembers.get? (ctx, revision, member) with
  | none =>
    rw [Db.headShare, Option.bind_some, hrow] at h
    exact absurd rfl h
  | some row =>
    refine ⟨row, rfl, ?_⟩
    by_contra hnone
    rw [not_or, not_not, not_not] at hnone
    apply h
    rw [Db.headShare, Option.bind_some, hrow, Option.elim_some, hnone.1, hnone.2]
    rfl

/-- Whoever has a part in an accepted revision, or in the head that it replaces, has approved it. -/
theorem consented_of_accepts {moves : List Move} {ctx expense revision profile : Uuid} {r : RevisionRow}
    (h : Accepts db (final System.step System.initial moves).db ctx expense revision r profile) {member : Uuid}
    (hpart : (final System.step System.initial moves).db.headShare ctx member (some revision) ≠ 0 ∨
      (final System.step System.initial moves).db.headShare ctx member (db.headOf ctx expense) ≠ 0) :
    (final System.step System.initial moves).db.Consented moves ctx revision member := by
  have hsound := revisionsSound_of_run moves
  -- the part of the member, in either, requires its approval
  obtain ⟨row, hrow, hrequired⟩ : ∃ row, (final System.step System.initial moves).db.revisionMembers.get?
      (ctx, revision, member) = some row ∧ row.approvalRequired = true := by
    rcases hpart with hnew | hold
    · obtain ⟨row, hrow, hpart⟩ := row_of_headShare hnew
      exact ⟨row, hrow, hsound.own hrow hpart⟩
    · cases hhead : db.headOf ctx expense with
      | none =>
        rw [hhead] at hold
        exact absurd rfl hold
      | some head =>
        rw [hhead] at hold
        obtain ⟨previous, hprevious, hpart⟩ := row_of_headShare hold
        exact hsound.inherited h.revisionRow (h.expected.trans hhead) hprevious (hsound.own hprevious hpart)
  have happroved := h.approved _ (mem_revisionRows.mpr hrow) hrequired
  rw [Db.approved] at happroved
  split at happroved
  next reviewer a hreviewer ha =>
    rw [decide_eq_true_eq] at happroved
    obtain ⟨hactor, hhash, hdecision⟩ := happroved
    obtain ⟨request, hmem, hdecides⟩ := approval_of_run ha
    rw [hdecision] at hdecides
    refine ⟨r, row, a, h.revisionRow, hrow, hrequired, ha, hdecision, hhash, ?_, request, hmem, hdecides⟩
    rw [Db.reviewProfile] at hreviewer
    split_ifs at hreviewer
    rw [hactor]
    exact hreviewer
  next => cases happroved

end Head

/-- A move leaves the head of an expense as it is, or it replaces it by a revision that was written against it; and then
every member with a part in the new head or in the old one has consented. -/
theorem head_change_consented (earlier : List Move) (move : Move) (ctx expense : Uuid) :
    let before := (final System.step System.initial earlier).db
    let after := (final System.step System.initial (earlier ++ [move])).db
    after.headOf ctx expense = before.headOf ctx expense ∨
      ∃ revision r, after.headOf ctx expense = some revision ∧ after.revisions.get? (ctx, revision) = some r ∧
        r.expenseId = expense ∧ r.expectedHeadRevisionId = before.headOf ctx expense ∧
        ∀ member, after.headShare ctx member (some revision) ≠ 0 ∨
          after.headShare ctx member (before.headOf ctx expense) ≠ 0 →
            after.Consented (earlier ++ [move]) ctx revision member := by
  intro before after
  have hwrites : Writes move before after := writes_concat earlier move
  rcases writes_headOf hwrites ctx expense with hsame | ⟨revision, r, profile, h⟩
  · exact .inl hsame
  · refine .inr ⟨revision, r, h.head, h.revisionRow, h.expenseId, h.expected, fun member hpart => ?_⟩
    exact consented_of_accepts h hpart

/-! ### The heads of an expense -/

/-- The number of revisions that follow one another up to a head, each written against the one before. -/
inductive Lineage (revisions : InsertionMap (Uuid × Uuid) RevisionRow) (ctx : Uuid) : Option Uuid → ℕ → Prop where
  | first : Lineage revisions ctx none 0
  | next {revision : Uuid} {r : RevisionRow} {n : ℕ} (hr : revisions.get? (ctx, revision) = some r)
      (h : Lineage revisions ctx r.expectedHeadRevisionId n) : Lineage revisions ctx (some revision) (n + 1)

/-- Revisions stay, and no expense goes back to an earlier version. -/
structure Later (db db' : Db) : Prop where
  revisions : ∀ {k r}, db.revisions.get? k = some r → db'.revisions.get? k = some r
  version : ∀ {k e}, db.expenses.get? k = some e → ∃ e', db'.expenses.get? k = some e' ∧ e.headVersion ≤ e'.headVersion

/-- The version of an expense counts its heads. -/
def VersionsSound (db : Db) : Prop :=
  ∀ ctx expense e, db.expenses.get? (ctx, expense) = some e →
    Lineage db.revisions ctx e.acceptedRevisionId e.headVersion

section Lineage

variable {db db' db'' : Db} {ctx : Uuid} {revisions revisions' : InsertionMap (Uuid × Uuid) RevisionRow}

theorem Lineage.unique {head : Option Uuid} {n m : ℕ} (h : Lineage revisions ctx head n)
    (h' : Lineage revisions ctx head m) : n = m := by
  induction h generalizing m with
  | first =>
    cases h'
    rfl
  | next hr _ ih =>
    cases h' with
    | next hr' h' =>
      rw [hr, Option.some.injEq] at hr'
      subst hr'
      rw [ih h']

theorem Lineage.mono (hkept : ∀ {k r}, revisions.get? k = some r → revisions'.get? k = some r) {head : Option Uuid}
    {n : ℕ} (h : Lineage revisions ctx head n) : Lineage revisions' ctx head n := by
  induction h with
  | first => exact .first
  | next hr _ ih => exact .next (hkept hr) ih

theorem Later.refl (db : Db) : Later db db := ⟨id, fun he => ⟨_, he, le_rfl⟩⟩

theorem Later.trans (h : Later db db') (h' : Later db' db'') : Later db db'' where
  revisions hr := h'.revisions (h.revisions hr)
  version he := by
    obtain ⟨e', he', hle⟩ := h.version he
    obtain ⟨e'', he'', hle'⟩ := h'.version he'
    exact ⟨e'', he'', hle.trans hle'⟩

theorem Later.of_eq (hrevisions : db'.revisions = db.revisions) (hexpenses : db'.expenses = db.expenses) :
    Later db db' := by
  constructor
  · rw [hrevisions]
    exact id
  · rw [hexpenses]
    exact fun he => ⟨_, he, le_rfl⟩

theorem people_later (hbooks : SameBooks db db') (hsound : VersionsSound db) : Later db db' ∧ VersionsSound db' := by
  cases hbooks
  exact ⟨.of_eq rfl rfl, hsound⟩

/-- Recording adds revisions, and leaves the versions as they are. -/
theorem records_later {profile : Uuid} {request : Request} (h : Records profile request db db')
    (hsound : VersionsSound db) : Later db db' ∧ VersionsSound db' := by
  cases h with
  | people hbooks => exact people_later hbooks hsound
  | @propose _ p projected revisionMembers approvals hchecked =>
    have hkept : ∀ {k r}, db.revisions.get? k = some r →
        (db.revisions.set (p.contextId, p.revisionId) (p.revisionRow profile projected)).get? k = some r :=
      fun h => get?_set_of_fresh hchecked.fresh h
    have hexpense : ∀ {k e}, (db.expenses.set (p.contextId, p.expenseId)
        ((db.expenses.get? (p.contextId, p.expenseId)).getD ⟨profile, none, 0⟩)).get? k = some e →
        db.expenses.get? k = some e ∨ e = ⟨profile, none, 0⟩ := by
      intro k e he
      rw [InsertionMap.get?_set] at he
      split_ifs at he with hkey
      · subst hkey
        cases hold : db.expenses.get? (p.contextId, p.expenseId) with
        | none =>
          rw [hold] at he
          exact .inr (Option.some.inj he).symm
        | some old =>
          rw [hold] at he
          exact .inl he
      · exact .inl he
    refine ⟨⟨hkept, fun {k e} he => ⟨e, ?_, le_rfl⟩⟩, fun ctx expense e he => ?_⟩
    · simp only [InsertionMap.get?_set]
      split_ifs with hkey
      · subst hkey
        rw [he, Option.getD_some]
      · exact he
    · rcases hexpense he with hold | rfl
      · exact (hsound ctx expense e hold).mono hkept
      · exact .first
  | decide => exact ⟨Later.of_eq rfl rfl, hsound⟩
  | report => exact ⟨Later.of_eq rfl rfl, hsound⟩

/-- An acceptance goes on to the next version. -/
theorem posts_later {profile : Uuid} {request : Request} (h : Posts profile request db db')
    (hsound : VersionsSound db) : Later db db' ∧ VersionsSound db' := by
  cases h with
  | nothing => exact ⟨Later.refl db, hsound⟩
  | @accept _ _ c x revision e r ledger totals _ h =>
    constructor
    · refine ⟨id, fun {k old} hold => ?_⟩
      simp only [InsertionMap.get?_set]
      split_ifs with hkey
      · subst hkey
        rw [h.expenseRow, Option.some.injEq] at hold
        subst hold
        exact ⟨_, rfl, Nat.le_succ _⟩
      · exact ⟨old, hold, le_rfl⟩
    · intro ctx expense e' he'
      simp only [InsertionMap.get?_set] at he'
      split_ifs at he' with hkey
      · obtain ⟨rfl, rfl⟩ := Prod.mk.inj hkey
        obtain rfl := Option.some.inj he'
        have hlineage := hsound ctx expense e h.expenseRow
        rw [h.head] at hlineage
        exact .next h.revisionRow hlineage
      · exact hsound ctx expense e' he'
  | reject => exact ⟨Later.of_eq rfl rfl, hsound⟩
  | confirm => exact ⟨Later.of_eq rfl rfl, hsound⟩

/-- A head has the lineage that the version of its expense counts. -/
theorem lineage_headOf (hsound : VersionsSound db) {expense revision : Uuid}
    (h : db.headOf ctx expense = some revision) :
    ∃ e, db.expenses.get? (ctx, expense) = some e ∧ Lineage db.revisions ctx (some revision) e.headVersion := by
  obtain ⟨e, he, haccepted⟩ := Option.bind_eq_some_iff.mp h
  exact ⟨e, he, haccepted ▸ hsound ctx expense e he⟩

theorem writes_later {move : Move} (h : Writes move db db') (hsound : VersionsSound db) :
    Later db db' ∧ VersionsSound db' := by
  cases h with
  | people hbooks => exact people_later hbooks hsound
  | request hrecords hposts =>
    obtain ⟨hlater, hmid⟩ := records_later hrecords hsound
    obtain ⟨hlater', hdb'⟩ := posts_later hposts hmid
    exact ⟨hlater.trans hlater', hdb'⟩

end Lineage

/-- Whether a revision becomes the head of an expense at an event. -/
def becomesHead (ctx expense revision : Uuid) (e : Event System Move (Option SqlError)) : Bool :=
  e.before.db.headOf ctx expense ≠ some revision ∧ e.after.db.headOf ctx expense = some revision

/-- What happens more than once happens twice, one after the other. -/
theorem exists_two_of_one_lt_countP {α : Type} {p : α → Bool} {l : List α} (h : 1 < l.countP p) :
    ∃ a b, [a, b].Sublist l ∧ p a = true ∧ p b = true := by
  rw [List.countP_eq_length_filter] at h
  match hfilter : l.filter p, h with
  | a :: b :: rest, _ =>
    have hsub : [a, b].Sublist (l.filter p) := by
      rw [hfilter]
      exact ((List.nil_sublist rest).cons_cons b).cons_cons a
    have hmem : ∀ c ∈ [a, b], p c = true := fun c hc => (List.mem_filter.mp (hsub.subset hc)).2
    exact ⟨a, b, hsub.trans List.filter_sublist, hmem a (by simp), hmem b (by simp)⟩

/-- In every run a revision becomes the head of an expense at most once. -/
theorem head_at_most_once (moves : List Move) (ctx expense revision : Uuid) :
    (trace System.step System.initial moves).countP (becomesHead ctx expense revision) ≤ 1 := by
  have hstep : ∀ move ∈ moves, ∀ s : System, VersionsSound s.db →
      VersionsSound (s.step move).2.db ∧ Later s.db (s.step move).2.db :=
    fun move _ s hs => (writes_later (step_writes s move) hs).symm
  have hinitial : VersionsSound System.initial.db := fun _ _ _ he => by cases he
  have hkept : ∀ {e}, e ∈ trace System.step System.initial moves →
      VersionsSound e.before.db ∧ VersionsSound e.after.db :=
    fun he => invariant_of_trace (P := fun s : System => VersionsSound s.db) hinitial
      (fun move hmove s hs => (hstep move hmove s hs).1) he
  by_contra hmany
  obtain ⟨e, e', hsub, he, he'⟩ := exists_two_of_one_lt_countP (not_le.mp hmany)
  have hmem' : e' ∈ trace System.step System.initial moves := hsub.subset (by simp)
  obtain ⟨-, hafter⟩ := hkept (hsub.subset List.mem_cons_self)
  obtain ⟨hbefore', -⟩ := hkept hmem'
  have hbetween := related_of_sublist (P := fun s : System => VersionsSound s.db)
    (R := fun s s' : System => Later s.db s'.db) (fun s => Later.refl s.db) (fun h h' => h.trans h') hinitial hstep hsub
  rw [becomesHead, decide_eq_true_eq] at he he'
  -- the revision has become the head at a version, and the expense never goes back to an earlier one
  obtain ⟨row, hrow, hlineage⟩ := lineage_headOf hafter he.2
  obtain ⟨row', hrow', hle⟩ := hbetween.version hrow
  obtain ⟨earlier, later, -, hevent⟩ := exists_of_mem_trace hmem'
  have hwrites : Writes e'.call e'.before.db e'.after.db := by
    rw [hevent]
    exact step_writes _ _
  have hlater' := (writes_later hwrites hbefore').1
  rcases writes_headOf hwrites ctx expense with hsame | ⟨revision', r, profile, h⟩
  · exact he'.1 (hsame.symm.trans he'.2)
  · -- it was written against the head that it replaces, so its lineage is the longer by one
    have hrevision : revision' = revision := Option.some.inj (h.head.symm.trans he'.2)
    subst hrevision
    have hexpected : r.expectedHeadRevisionId = row'.acceptedRevisionId := by
      rw [h.expected, Db.headOf, hrow', Option.bind_some]
    have hlineage' := (hbefore' ctx expense row' hrow').mono hlater'.revisions
    rw [← hexpected] at hlineage'
    have hversion := (Lineage.next h.revisionRow hlineage').unique
      ((hlineage.mono hbetween.revisions).mono hlater'.revisions)
    omega

/-! ### How a balance changes -/

/-- The balance of a member. -/
def Db.balanceOf (db : Db) (ctx member : Uuid) : ℤ := amountAt db.ledger.memberBalances (ctx, member)

section Balance

variable {db db' : Db} {ctx member : Uuid}

theorem ledger_of_records {profile : Uuid} {request : Request} (h : Records profile request db db') :
    db'.ledger = db.ledger := by
  cases h with
  | people hbooks =>
    cases hbooks
    rfl
  | propose => rfl
  | decide => rfl
  | report => rfl

/-- An answer to a payment records nothing before it is posted. -/
theorem books_of_answer {profile : Uuid} {p : SettlementResponse} (h : Records profile (.respondSettlement p) db db') :
    db'.reports = db.reports ∧ db'.settlementEvents = db.settlementEvents := by
  cases h with
  | people hbooks =>
    cases hbooks
    exact ⟨rfl, rfl⟩

/-- What is entered for the pairs changes a balance by what it nets for the member. -/
theorem balance_of_entered {c : Uuid} {a : Uuid × Uuid →₀ ℤ} {ledger ledger' : Ledger} (h : Entered c a ledger ledger')
    (ctx member : Uuid) : amountAt ledger'.memberBalances (ctx, member) =
      amountAt ledger.memberBalances (ctx, member) + if c = ctx then PairLedger.net a member else 0 := by
  rw [← inContext_apply, ← inContext_apply, h.members, Finsupp.add_apply]
  split_ifs <;> rfl

/-- A request of the receiver confirms a reported payment that names the member and has not been answered. -/
def Confirms (db db' : Db) (move : Move) (ctx member : Uuid) : Prop :=
  ∃ profile p report, move = .request profile (.respondSettlement p) ∧ p.contextId = ctx ∧ p.decision = .confirmed ∧
    db.reports.get? (ctx, p.settlementId) = some report ∧ db.terminalEvent ctx p.settlementId = none ∧
    (report.payerMemberId = member ∨ report.receiverMemberId = member) ∧
    db'.anyMember ctx (fun id m => id = report.receiverMemberId ∧ m.profileId = some profile ∧ m.state = .active) = true

/-- A move leaves a balance as it is, or accepts a revision in which the member has a part, or confirms a payment. -/
theorem writes_balance {move : Move} (h : Writes move db db') (hdb : Linked db) (ctx member : Uuid) :
    db'.balanceOf ctx member = db.balanceOf ctx member ∨
      (∃ expense revision r profile, Accepts db db' ctx expense revision r profile ∧
        (db'.headShare ctx member (some revision) ≠ 0 ∨ db'.headShare ctx member (db.headOf ctx expense) ≠ 0)) ∨
      Confirms db db' move ctx member := by
  cases h with
  | people hbooks =>
    cases hbooks
    exact .inl rfl
  | @request profile request _ mid _ hrecords hposts =>
    have hmid := records_linked hrecords hdb
    have hsame : mid.balanceOf ctx member = db.balanceOf ctx member := by
      rw [Db.balanceOf, Db.balanceOf, ledger_of_records hrecords]
    cases hposts with
    | nothing => exact .inl hsame
    | @accept _ _ c expense revision e r ledger totals hsubject h =>
      have hentered := postLines_entered h.posted
      rw [sum_effectLines (hmid.distinct h.revisionRow) (distinct_edgesOf hmid h.expenseRow)] at hentered
      have hbalance := balance_of_entered hentered ctx member
      by_cases hc : c = ctx
      · subst hc
        have hhead := headOf_of_records hrecords c expense
        have haccepts := accepts_of_checked hhead h
        have hold : db.headOf c expense = e.acceptedRevisionId := by
          rw [← hhead, Db.headOf, h.expenseRow, Option.bind_some]
        by_cases hpart : mid.headShare c member (some revision) ≠ 0 ∨ mid.headShare c member e.acceptedRevisionId ≠ 0
        · refine .inr (.inl ⟨expense, revision, r, profile, haccepts, ?_⟩)
          rw [hold]
          exact hpart
        · -- the member has no part in either, so nothing is entered for it
          rw [not_or, not_not, not_not] at hpart
          left
          rw [if_pos rfl, map_sub, Finsupp.sub_apply, net_debts, hmid.balanced h.revisionRow,
            partOf_eq, hpart.1, net_edgesOf hmid h.expenseRow, hpart.2, sub_self, add_zero] at hbalance
          exact hbalance.trans hsame
      · left
        rw [if_neg hc, add_zero] at hbalance
        exact hbalance.trans hsame
    | reject => exact .inl hsame
    | @confirm _ p report ledger h =>
      have hentered := postPair_entered h.posted
      rw [single_paymentAmount] at hentered
      have hbalance := balance_of_entered hentered ctx member
      by_cases hnamed : p.contextId = ctx ∧ (report.payerMemberId = member ∨ report.receiverMemberId = member)
      · obtain ⟨rfl, hnamed⟩ := hnamed
        have hreport := h.reportRow
        have hopen := h.unanswered
        rw [(books_of_answer hrecords).1] at hreport
        rw [Db.terminalEvent, (books_of_answer hrecords).2] at hopen
        exact .inr (.inr ⟨profile, p, report, rfl, rfl, h.decision, hreport, hopen, hnamed, h.receiver⟩)
      · left
        refine hbalance.trans (Eq.trans ?_ hsame)
        split_ifs with hc
        · have hnot : ¬ report.payerMemberId = member ∧ ¬ report.receiverMemberId = member :=
            not_or.mp fun h => hnamed ⟨hc, h⟩
          rw [PairLedger.net_edge, Finsupp.sub_apply, Finsupp.single_apply, Finsupp.single_apply, if_neg hnot.1,
            if_neg hnot.2, sub_zero, add_zero]
          rfl
        · exact add_zero _

end Balance

/-- A member's balance changes only by the acceptance of a revision to which the member has consented, or by a payment
that names the member and that its receiver confirms. -/
theorem balance_change_consented (earlier : List Move) (move : Move) (ctx member : Uuid) :
    let before := (final System.step System.initial earlier).db
    let after := (final System.step System.initial (earlier ++ [move])).db
    after.balanceOf ctx member = before.balanceOf ctx member ∨
      (∃ expense revision, before.headOf ctx expense ≠ some revision ∧ after.headOf ctx expense = some revision ∧
        after.Consented (earlier ++ [move]) ctx revision member) ∨
      Confirms before after move ctx member := by
  intro before after
  have hwrites : Writes move before after := writes_concat earlier move
  rcases writes_balance hwrites (linked_of_run earlier) ctx member with
    hsame | ⟨expense, revision, r, profile, h, hpart⟩ | hconfirmed
  · exact .inl hsame
  · exact .inr (.inl ⟨expense, revision, h.notHead, h.head, consented_of_accepts h hpart⟩)
  · exact .inr (.inr hconfirmed)

end PandaPay.SharedExpenses.Sql
