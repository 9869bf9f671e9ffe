import PandaPay.SharedExpenses.Sql.Commands
import PandaPay.SharedExpenses.Sql.Ownership
import PandaPay.Library.Trace

/-!
# Runs of the shared-expense schema

A request that succeeds first records something (people of a context, a revision, a decision, a report of a payment)
and then posts at most one thing to the ledger (an accepted revision or a confirmed payment). Everything that holds of
the tables over time is read off these two steps.

Members call the functions of the schema in any order, an ownership call waits between its reads and its lock while
others go on, operators change the settings, and accounts come and go. A call that raises leaves the schema as it was.

## Main definitions

* `Request`, `Db.request`: the functions a member calls, each one step
* `Enrols`: what a request does to the contexts and their members
* `Records`, `Posts`: what the first and the second step of a request write
* `SameBooks`, `MembersStay`: what changes among the people of a context leave alone
* `System`, `Move`, `System.step`: the schema with the calls that wait, and what can happen next
* `Db.eraseProfile`: the deletion of an account, which leaves its members without a profile
* `Committed`: what a waiting call that is committed has checked and does
* `Writes`: what a move writes

## Main results

* `request_writes`: a request that succeeds records and then posts
* `step_writes`: every move writes what `Writes` says
-/

namespace PandaPay.SharedExpenses.Sql

/-- A function of the schema with its arguments. -/
inductive Request where
  | createContext (ctx : Uuid) (kind : ContextKind) (member : Uuid)
  | inviteMember (ctx member : Uuid) (target : Option Uuid)
  | respondMembership (ctx member : Uuid) (accept : Bool)
  | bindInvitation (ctx member : Uuid)
  | claimGroupLink (ctx member : Uuid)
  | refuseRequest (ctx member : Uuid)
  | removeMember (ctx member : Uuid)
  | submitProposal (p : Proposal)
  | respondExpense (p : ExpenseResponse)
  | reportSettlement (p : SettlementReport)
  | respondSettlement (p : SettlementResponse)

/-- A request of a profile, as one step. -/
def Db.request (db : Db) (profile : Uuid) : Request → Sql Db
  | .createContext ctx kind member => db.createContext profile ctx kind member
  | .inviteMember ctx member target => db.inviteMember profile ctx member target
  | .respondMembership ctx member accept => db.respondMembership profile ctx member accept
  | .bindInvitation ctx member => db.bindInvitation profile ctx member
  | .claimGroupLink ctx member => db.claimGroupLink profile ctx member
  | .refuseRequest ctx member => db.refuseRequest profile ctx member
  | .removeMember ctx member => db.removeMember profile ctx member
  | .submitProposal p => do
    let (db', _) ← db.submitProposal profile p
    return db'
  | .respondExpense p => db.respondExpense profile p
  | .reportSettlement p => db.reportSettlement profile p
  | .respondSettlement p => db.respondSettlement profile p

/-! ### Inserted rows -/

section Insert

variable {κ ν : Type} [DecidableEq κ] {table table' : InsertionMap κ ν}

theorem insertRow_eq_ok {key : κ} {row : ν} :
    insertRow table key row = .ok table' ↔ key ∉ table.keys ∧ table' = table.set key row := by
  rw [insertRow, failIf_bind_eq_ok, pure_eq_ok, Except.ok.injEq]
  exact and_congr_right fun _ => eq_comm

/-- A row that is inserted takes no other's place. -/
theorem get?_set_of_fresh {key k : κ} {row v : ν} (hfresh : key ∉ table.keys) (h : table.get? k = some v) :
    (table.set key row).get? k = some v := by
  rw [InsertionMap.get?_set_of_ne, h]
  rintro rfl
  exact hfresh (InsertionMap.mem_keys_of_get? h)

/-- Rows inserted one after the other are there afterwards, with those that were there before. -/
theorem get?_of_insertRows {α : Type} {key : α → κ} {value : α → ν} {rows : List α}
    (h : rows.foldlM (fun table row => insertRow table (key row) (value row)) table = .ok table') (k : κ) :
    table'.get? k =
      (table.get? k).or (InsertionMap.lookup k (rows.map fun row => (key row, value row))) := by
  induction rows generalizing table with
  | nil =>
    rw [List.foldlM_nil, pure_eq_ok, Except.ok.injEq] at h
    rw [← h, List.map_nil, InsertionMap.lookup, Option.or_none]
  | cons row rows ih =>
    rw [List.foldlM_cons, bind_eq_ok] at h
    obtain ⟨t, ht, h⟩ := h
    obtain ⟨hnew, rfl⟩ := insertRow_eq_ok.mp ht
    rw [ih h, InsertionMap.get?_set, List.map_cons, InsertionMap.lookup]
    by_cases hk : k = key row
    · rw [if_pos hk, if_pos hk.symm, hk, InsertionMap.get?_eq_none_iff.mpr hnew, Option.none_or, Option.some_or]
    · rw [if_neg hk, if_neg fun h => hk h.symm]

end Insert

/-! ### People -/

/-- Nothing changes but the settings, the profiles, the contexts and the members. -/
inductive SameBooks (db : Db) : Db → Prop where
  | intro {settings : Settings} {profiles : List Uuid} {contexts : InsertionMap Uuid ContextRow}
      {members : InsertionMap (Uuid × Uuid) MemberRow} {bindings : InsertionMap (Uuid × Uuid) Uuid} :
      SameBooks db { db with
        settings := settings
        profiles := profiles
        contexts := contexts
        members := members
        bindings := bindings }

/-- No member goes away. -/
def MembersStay (db db' : Db) : Prop := ∀ key ∈ db.members.keys, key ∈ db'.members.keys

theorem SameBooks.refl (db : Db) : SameBooks db db := .intro

theorem MembersStay.of_eq {db db' : Db} (h : db'.members = db.members) : MembersStay db db' := by
  intro key hkey
  rw [h]
  exact hkey

theorem MembersStay.of_set {db db' : Db} {key : Uuid × Uuid} {m : MemberRow} (h : db'.members = db.members.set key m) :
    MembersStay db db' := by
  intro k hk
  rw [h, InsertionMap.mem_keys_set]
  exact .inr hk

/-- What a request does to the contexts and their members. -/
inductive Enrols (db : Db) : Db → Prop where
  | nobody {db' : Db} (hcontexts : db'.contexts = db.contexts) (hmembers : db'.members = db.members) : Enrols db db'
  /-- A profile creates a context and is its owner. -/
  | create {db' : Db} {ctx member profile : Uuid} {kind : ContextKind} (hprofile : profile ∈ db.profiles)
      (hctx : ctx ∉ db.contexts.keys) (hmember : (ctx, member) ∉ db.members.keys)
      (hcontexts : db'.contexts = db.contexts.set ctx ⟨kind, profile, .active⟩)
      (hmembers : db'.members = db.members.set (ctx, member) ⟨some profile, .owner, .active⟩) : Enrols db db'
  /-- A member is invited, perhaps for a profile that no member has. -/
  | invite {db' : Db} {ctx member : Uuid} {target : Option Uuid} (hctx : ctx ∈ db.contexts.keys)
      (hmember : (ctx, member) ∉ db.members.keys)
      (htarget : ∀ profile, target = some profile → profile ∈ db.profiles ∧
        ∀ id m, db.members.get? (ctx, id) = some m → m.profileId ≠ some profile)
      (hcontexts : db'.contexts = db.contexts) (hmembers : db'.members = db.members.set (ctx, member)
        ⟨target, .member, .invited⟩) : Enrols db db'
  /-- An invited member joins or is declined. One without a profile may get one that no other member has. -/
  | answer {db' : Db} {ctx member : Uuid} {m n : MemberRow} (hm : db.members.get? (ctx, member) = some m)
      (hinvited : m.state = .invited) (hanswered : n.state = .active ∨ n.state = .declined) (hrole : n.role = m.role)
      (hprofile : n.profileId = m.profileId ∨ m.profileId = none ∧ ∃ profile, n.profileId = some profile ∧
        profile ∈ db.profiles ∧ ∀ id other, id ≠ member → db.members.get? (ctx, id) = some other →
          other.profileId ≠ some profile)
      (hcontexts : db'.contexts = db.contexts) (hmembers : db'.members = db.members.set (ctx, member) n) :
      Enrols db db'

theorem Enrols.membersStay {db db' : Db} (h : Enrols db db') : MembersStay db db' := by
  cases h with
  | nobody _ hmembers => exact .of_eq hmembers
  | create _ _ _ _ hmembers => exact .of_set hmembers
  | invite _ _ _ _ hmembers => exact .of_set hmembers
  | answer _ _ _ _ _ _ hmembers => exact .of_set hmembers

/-! ### Recording -/

/-- What `submit_proposal` has checked when it records a revision. -/
structure ProposalChecked (db : Db) (profile : Uuid) (p : Proposal) (projected : Projection) : Prop where
  projection : projectProposal p = .ok projected
  head : (db.expenses.get? (p.contextId, p.expenseId)).bind (·.acceptedRevisionId) = p.expectedHeadRevisionId
  positions : ∀ row ∈ projected.positions, db.memberIn p.contextId row.memberId [.active, .invited] = true
  fresh : (p.contextId, p.revisionId) ∉ db.revisions.keys

/-- The row of `expense_revisions` of a proposal. -/
def Proposal.revisionRow (p : Proposal) (profile : Uuid) (projected : Projection) : RevisionRow where
  expenseId := p.expenseId
  authorProfileId := profile
  expectedHeadRevisionId := p.expectedHeadRevisionId
  revisionHash := p.digest
  totalMinor := projected.totalMinor
  isVoid := p.void
  sourceLinks := p.sources
  projectedEdges := projected.obligations

/-- The rows of `revision_approvals` with which the author approves. -/
def Db.ownApprovals (db : Db) (profile : Uuid) (p : Proposal) (projected : Projection) :
    List ((Uuid × Uuid × Uuid) × ApprovalRow) :=
  ((db.proposalMembers p projected).filter fun row =>
    row.2.approverProfileId = some profile ∧ row.2.approvalRequired).map fun row =>
      (row.1, ⟨profile, p.digest, .approve⟩)

/-- The first step of a request of `profile`. -/
inductive Records (profile : Uuid) : Request → Db → Db → Prop where
  | people {request : Request} {db db' : Db} (hbooks : SameBooks db db') (henrols : Enrols db db')
      (hprofiles : db'.profiles = db.profiles) : Records profile request db db'
  | propose {db : Db} {p : Proposal} {projected : Projection}
      {revisionMembers : InsertionMap (Uuid × Uuid × Uuid) RevisionMemberRow}
      {approvals : InsertionMap (Uuid × Uuid × Uuid) ApprovalRow}
      (hchecked : ProposalChecked db profile p projected)
      (hmembers : ∀ k, revisionMembers.get? k =
        (db.revisionMembers.get? k).or (InsertionMap.lookup k (db.proposalMembers p projected)))
      (happrovals : ∀ k, approvals.get? k =
        (db.approvals.get? k).or (InsertionMap.lookup k (db.ownApprovals profile p projected))) :
      Records profile (.submitProposal p) db { db with
        expenses := db.expenses.set (p.contextId, p.expenseId)
          ((db.expenses.get? (p.contextId, p.expenseId)).getD ⟨profile, none, 0⟩)
        revisions := db.revisions.set (p.contextId, p.revisionId) (p.revisionRow profile projected)
        revisionMembers := revisionMembers
        approvals := approvals }
  | decide {db : Db} {p : ExpenseResponse} {r : RevisionRow}
      {approvals : InsertionMap (Uuid × Uuid × Uuid) ApprovalRow}
      (hrevision : db.revisions.get? (p.contextId, p.revisionId) = some r)
      (hkept : ∀ k a, db.approvals.get? k = some a → approvals.get? k = some a)
      (hnew : ∀ k a, approvals.get? k = some a → db.approvals.get? k = some a ∨
        k.1 = p.contextId ∧ k.2.1 = p.revisionId ∧ a = ⟨profile, r.revisionHash, p.decision⟩) :
      Records profile (.respondExpense p) db { db with approvals := approvals }
  | report {db : Db} {p : SettlementReport}
      (hfresh : (p.contextId, p.settlementId) ∉ db.reports.keys) :
      Records profile (.reportSettlement p) db { db with
        reports := db.reports.set (p.contextId, p.settlementId)
          ⟨profile, p.payerMemberId, p.receiverMemberId, p.amountMinor⟩ }

/-! ### Posting -/

/-- What `_accept_revision` has checked and computed when it makes a revision the head. -/
structure AcceptChecked (db : Db) (profile ctx expense revision : Uuid) (e : ExpenseRow) (r : RevisionRow)
    (ledger : Ledger) (totals : Totals) : Prop where
  expenseRow : db.expenses.get? (ctx, expense) = some e
  revisionRow : db.revisions.get? (ctx, revision) = some r
  expenseId : r.expenseId = expense
  notHead : e.acceptedRevisionId ≠ some revision
  head : e.acceptedRevisionId = r.expectedHeadRevisionId
  approved : ∀ row ∈ db.revisionRows ctx revision, row.2.approvalRequired = true →
    db.approved profile ctx revision r.revisionHash row = true
  posted : postLines db.members ctx revision .revision revision
    (effectLines r.projectedEdges (db.edgesOf ctx expense e.acceptedRevisionId)) db.ledger = .ok ledger
  gross : grossMinor ledger ctx ≤ maxMinor
  counted : updateTotals db ctx e.acceptedRevisionId (some revision) = .ok totals

/-- What `respond_settlement` has checked and computed when it confirms a payment. -/
structure ConfirmChecked (db : Db) (profile : Uuid) (p : SettlementResponse) (report : ReportRow)
    (ledger : Ledger) : Prop where
  decision : p.decision = .confirmed
  reportRow : db.reports.get? (p.contextId, p.settlementId) = some report
  receiver : db.anyMember p.contextId (fun id m => id = report.receiverMemberId ∧
    m.profileId = some profile ∧ m.state = .active) = true
  unanswered : db.terminalEvent p.contextId p.settlementId = none
  fresh : (p.contextId, p.eventId) ∉ db.settlementEvents.keys
  posted : postPair db.members p.contextId p.eventId 0 (min report.payerMemberId report.receiverMemberId)
    (max report.payerMemberId report.receiverMemberId) (Db.paymentAmount report) .settlement p.settlementId
    db.ledger = .ok ledger
  gross : grossMinor ledger p.contextId ≤ maxMinor

/-- The context, expense and revision that a request can make the head. -/
def Request.subject : Request → Option (Uuid × Uuid × Uuid)
  | .submitProposal p => some (p.contextId, p.expenseId, p.revisionId)
  | .respondExpense p => some (p.contextId, p.expenseId, p.revisionId)
  | _ => none

/-- The second step of a request of `profile`. -/
inductive Posts (profile : Uuid) : Request → Db → Db → Prop where
  | nothing {request : Request} {db : Db} : Posts profile request db db
  | accept {request : Request} {db : Db} {ctx expense revision : Uuid} {e : ExpenseRow} {r : RevisionRow}
      {ledger : Ledger} {totals : Totals} (hsubject : request.subject = some (ctx, expense, revision))
      (h : AcceptChecked db profile ctx expense revision e r ledger totals) :
      Posts profile request db { db with
        expenses := db.expenses.set (ctx, expense) { e with
          acceptedRevisionId := some revision
          headVersion := e.headVersion + 1 }
        ledger := ledger
        totals := totals }
  | reject {db : Db} {p : SettlementResponse} {report : ReportRow}
      (hreport : db.reports.get? (p.contextId, p.settlementId) = some report)
      (hopen : db.terminalEvent p.contextId p.settlementId = none)
      (hfresh : (p.contextId, p.eventId) ∉ db.settlementEvents.keys) :
      Posts profile (.respondSettlement p) db { db with
        settlementEvents := db.settlementEvents.set (p.contextId, p.eventId)
          ⟨p.settlementId, profile, .rejected, report.amountMinor⟩ }
  | confirm {db : Db} {p : SettlementResponse} {report : ReportRow} {ledger : Ledger}
      (h : ConfirmChecked db profile p report ledger) :
      Posts profile (.respondSettlement p) db { db with
        settlementEvents := db.settlementEvents.set (p.contextId, p.eventId)
          ⟨p.settlementId, profile, .confirmed, report.amountMinor⟩
        ledger := ledger }

/-! ### What each function writes -/

section Writes

variable {db db' : Db} {profile : Uuid} {request : Request}

theorem Records.of_nobody : Records profile request db db :=
  .people (SameBooks.refl db) (.nobody rfl rfl) rfl

theorem mem_profiles_of_actor {u : Unit} (h : db.actor profile = .ok u) : profile ∈ db.profiles :=
  not_not.mp (failIf_eq_ok.mp h)

theorem mem_keys_of_lockContext {ctx : Uuid} {row : ContextRow} (h : db.lockContext ctx = .ok row) :
    ctx ∈ db.contexts.keys := by
  rw [Db.lockContext] at h
  cases hrow : db.contexts.get? ctx with
  | none =>
    rw [hrow] at h
    cases h
  | some row => exact InsertionMap.mem_keys_of_get? hrow

theorem anyMember_eq_false {ctx : Uuid} {p : Uuid → MemberRow → Bool} :
    db.anyMember ctx p = false ↔ ∀ id m, db.members.get? (ctx, id) = some m → p id m = false := by
  rw [Db.anyMember, List.any_eq_false]
  constructor
  · intro h id m hm
    simpa using h _ (InsertionMap.get?_eq_some_iff.mp hm)
  · rintro h ⟨⟨c, id⟩, m⟩ hmem
    rw [Bool.and_eq_true, decide_eq_true_eq, not_and]
    rintro rfl
    rw [h id m (InsertionMap.get?_eq_some_iff.mpr hmem)]
    exact Bool.false_ne_true

/-- A member that is inserted takes no place of another, and no other's profile. -/
theorem insertMember_eq_ok {ctx member : Uuid} {row : MemberRow} {members : InsertionMap (Uuid × Uuid) MemberRow}
    (h : db.insertMember ctx member row = .ok members) :
    (ctx, member) ∉ db.members.keys ∧ members = db.members.set (ctx, member) row ∧
      ∀ profile, row.profileId = some profile → ∀ id m, db.members.get? (ctx, id) = some m →
        m.profileId ≠ some profile := by
  simp only [Db.insertMember, ↓failIf_bind_eq_ok, insertRow_eq_ok] at h
  obtain ⟨hunique, hnew, hset⟩ := h
  refine ⟨hnew, hset, fun profile hprofile id m hm heq => ?_⟩
  rw [hprofile, Option.isSome_some, Bool.true_and, Bool.not_eq_true, anyMember_eq_false] at hunique
  simpa [heq] using hunique id m hm

theorem createContext_records {ctx : Uuid} {kind : ContextKind} {member : Uuid}
    (h : db.createContext profile ctx kind member = .ok db') : Records profile request db db' := by
  simp only [Db.createContext, bind_eq_ok, insertRow_eq_ok, pure_eq_ok, Except.ok.injEq] at h
  obtain ⟨_, hactor, -, -, contexts, ⟨hctx, rfl⟩, members, hmembers, rfl⟩ := h
  obtain ⟨hmember, rfl, -⟩ := insertMember_eq_ok hmembers
  exact .people .intro (.create (mem_profiles_of_actor hactor) hctx hmember rfl rfl) rfl

theorem mapError_eq_ok {α : Type} {x : Sql α} {f : SqlError → SqlError} {a : α} (h : x.mapError f = .ok a) :
    x = .ok a := by
  cases x with
  | error e => cases h
  | ok b => exact h

theorem inviteMember_records {ctx member : Uuid} {target : Option Uuid}
    (h : db.inviteMember profile ctx member target = .ok db') : Records profile request db db' := by
  simp only [Db.inviteMember, ↓failIf_bind_eq_ok, bind_eq_ok, pure_eq_ok, Except.ok.injEq] at h
  obtain ⟨-, -, -, -, -, context, hlock, -, htarget, members, hmembers, rfl⟩ := h
  obtain ⟨hmember, rfl, hunique⟩ := insertMember_eq_ok (mapError_eq_ok hmembers)
  refine .people .intro (.invite (mem_keys_of_lockContext hlock) hmember ?_ rfl rfl) rfl
  rintro profile rfl
  exact ⟨by simpa using htarget, hunique profile rfl⟩

theorem claimGroupLink_records {ctx member : Uuid}
    (h : db.claimGroupLink profile ctx member = .ok db') : Records profile request db db' := by
  simp only [Db.claimGroupLink, ↓failIf_bind_eq_ok, bind_eq_ok, pure_eq_ok, Except.ok.injEq] at h
  obtain ⟨-, -, -, -, context, hlock, -, -, -, members, hmembers, rfl⟩ := h
  obtain ⟨hmember, rfl, -⟩ := insertMember_eq_ok hmembers
  refine .people .intro (.invite (mem_keys_of_lockContext hlock) hmember ?_ rfl rfl) rfl
  intro profile hnone
  cases hnone

theorem respondMembership_records {ctx member : Uuid} {accept : Bool}
    (h : db.respondMembership profile ctx member accept = .ok db') : Records profile request db db' := by
  simp only [Db.respondMembership, bind_eq_ok] at h
  obtain ⟨-, -, -, -, -, -, h⟩ := h
  split at h
  next m hm =>
    simp only [↓failIf_bind_eq_ok, pure_eq_ok, Except.ok.injEq, not_not] at h
    obtain ⟨-, hstate, rfl⟩ := h
    refine .people .intro (.answer
      (n := { m with state := if accept then .active else .declined }) hm hstate ?_ rfl (.inl rfl) rfl rfl) rfl
    cases accept
    · exact .inr rfl
    · exact .inl rfl
  next => cases h

theorem bindInvitation_records {ctx member : Uuid}
    (h : db.bindInvitation profile ctx member = .ok db') : Records profile request db db' := by
  simp only [Db.bindInvitation, bind_eq_ok] at h
  obtain ⟨_, hactor, -, -, -, -, h⟩ := h
  split at h
  next m hm =>
    simp only [↓failIf_bind_eq_ok, bind_eq_ok, pure_eq_ok, Except.ok.injEq, not_or, not_not, Bool.not_eq_true] at h
    obtain ⟨⟨hstate, hmine⟩, hothers, -, bindings, -, rfl⟩ := h
    refine .people .intro (.answer
      (n := { m with profileId := some profile, state := .active }) hm hstate (.inl rfl) rfl ?_ rfl rfl) rfl
    cases hprofile : m.profileId with
    | none =>
      refine .inr ⟨rfl, profile, rfl, mem_profiles_of_actor hactor, fun id other hne hother heq => ?_⟩
      simpa [heq, hne] using anyMember_eq_false.mp hothers id other hother
    | some mine =>
      left
      by_contra hne
      exact hmine ⟨by rw [hprofile]; rfl, by rw [hprofile]; exact fun h => hne h.symm⟩
  next => cases h

theorem refuseRequest_records {ctx member : Uuid}
    (h : db.refuseRequest profile ctx member = .ok db') : Records profile request db db' := by
  simp only [Db.refuseRequest, ↓failIf_bind_eq_ok, bind_eq_ok] at h
  obtain ⟨-, -, -, -, -, -, -, h⟩ := h
  split at h
  next m hm =>
    split_ifs at h with hinvited
    · obtain rfl := Except.ok.inj h
      exact .people .intro
        (.answer (n := { m with state := .declined }) hm hinvited.2 (.inr rfl) rfl (.inl rfl) rfl rfl) rfl
    · obtain rfl := Except.ok.inj h
      exact .of_nobody
  next =>
    obtain rfl := Except.ok.inj h
    exact .of_nobody

theorem removeMember_records {ctx member : Uuid}
    (h : db.removeMember profile ctx member = .ok db') : Records profile request db db' := by
  simp only [Db.removeMember, ↓failIf_bind_eq_ok, bind_eq_ok] at h
  obtain ⟨-, -, -, -, -, -, -, h⟩ := h
  split at h
  next m hm =>
    simp only [↓failIf_bind_eq_ok, pure_eq_ok, Except.ok.injEq, not_or, not_not] at h
    obtain ⟨⟨hstate, -⟩, -, rfl⟩ := h
    exact .people .intro
      (.answer (n := { m with state := .declined }) hm hstate (.inr rfl) rfl (.inl rfl) rfl rfl) rfl
  next => cases h

theorem recordProposal_records {p : Proposal} (h : db.recordProposal profile p = .ok db') :
    Records profile (.submitProposal p) db db' := by
  simp only [Db.recordProposal, ↓failIf_bind_eq_ok, bind_eq_ok] at h
  obtain ⟨-, -, -, -, -, -, -, projected, hprojected, h⟩ := h
  set old : ExpenseRow := (db.expenses.get? (p.contextId, p.expenseId)).getD ⟨profile, none, 0⟩ with hold
  -- what is done after the bill has been checked, if there is one
  have hrest : old.acceptedRevisionId = p.expectedHeadRevisionId ∧
      (∀ row ∈ projected.positions, db.memberIn p.contextId row.memberId [.active, .invited] = true) ∧
      (p.contextId, p.revisionId) ∉ db.revisions.keys ∧ ∃ revisionMembers approvals,
        (db.proposalMembers p projected).foldlM (fun table row => insertRow table row.1 row.2)
          db.revisionMembers = .ok revisionMembers ∧
        ((db.proposalMembers p projected).filter fun row =>
            row.2.approverProfileId = some profile ∧ row.2.approvalRequired).foldlM (fun table row =>
          insertRow table row.1 (⟨profile, p.digest, .approve⟩ : ApprovalRow)) db.approvals = .ok approvals ∧
        db' = { db with
          expenses := db.expenses.set (p.contextId, p.expenseId) old
          revisions := db.revisions.set (p.contextId, p.revisionId) (p.revisionRow profile projected)
          revisionMembers := revisionMembers
          approvals := approvals } := by
    split at h <;>
      simp only [↓failIf_bind_eq_ok, bind_eq_ok, insertRow_eq_ok, pure_eq_ok, Except.ok.injEq, not_not] at h
    · obtain ⟨-, -, -, -, hhead, -, hpositions, -, _, ⟨hfresh, rfl⟩, members, hmembers, approvals, happrovals, rfl⟩ := h
      exact ⟨hhead, by simpa using hpositions, hfresh, members, approvals, hmembers, happrovals, rfl⟩
    · obtain ⟨hhead, -, hpositions, -, _, ⟨hfresh, rfl⟩, members, hmembers, approvals, happrovals, rfl⟩ := h
      exact ⟨hhead, by simpa using hpositions, hfresh, members, approvals, hmembers, happrovals, rfl⟩
  obtain ⟨hhead, hpositions, hfresh, members, approvals, hmembers, happrovals, rfl⟩ := hrest
  have hchecked : ProposalChecked db profile p projected := {
    projection := hprojected
    head := by
      rw [← hhead, hold]
      cases db.expenses.get? (p.contextId, p.expenseId) <;> rfl
    positions := hpositions
    fresh := hfresh }
  refine .propose hchecked (fun k => ?_) (get?_of_insertRows happrovals)
  have hget := get?_of_insertRows hmembers k
  simpa only [Prod.mk.eta, List.map_id'] using hget

/-- `ON CONFLICT DO NOTHING`: the rows that are there stay, and the others are the new ones. -/
theorem get?_of_insertMissing {ν α : Type} {key : α → Uuid × Uuid × Uuid} {v : ν} {rows : List α}
    {table : InsertionMap (Uuid × Uuid × Uuid) ν} {k : Uuid × Uuid × Uuid} {w : ν}
    (h : (rows.foldl (fun table row => if key row ∈ table.keys then table else table.set (key row) v) table).get? k =
      some w) : table.get? k = some w ∨ w = v ∧ ∃ row ∈ rows, k = key row := by
  induction rows generalizing table with
  | nil => exact .inl h
  | cons row rows ih =>
    rw [List.foldl_cons] at h
    rcases ih h with h | ⟨hw, row', hrow', hk⟩
    · split_ifs at h
      · exact .inl h
      · rw [InsertionMap.get?_set] at h
        split_ifs at h with hk
        · exact .inr ⟨(Option.some.inj h).symm, row, List.mem_cons_self, hk⟩
        · exact .inl h
    · exact .inr ⟨hw, row', List.mem_cons_of_mem _ hrow', hk⟩

theorem get?_insertMissing {ν α : Type} {key : α → Uuid × Uuid × Uuid} {v : ν} {rows : List α}
    {table : InsertionMap (Uuid × Uuid × Uuid) ν} {k : Uuid × Uuid × Uuid} {w : ν} (h : table.get? k = some w) :
    (rows.foldl (fun table row => if key row ∈ table.keys then table else table.set (key row) v) table).get? k =
      some w := by
  induction rows generalizing table with
  | nil => exact h
  | cons row rows ih =>
    rw [List.foldl_cons]
    apply ih
    split_ifs with hkey
    · exact h
    · rw [InsertionMap.get?_set_of_ne, h]
      rintro rfl
      exact hkey (InsertionMap.mem_keys_of_get? h)

/-- A decision is recorded for the rows of its reviewer that have none. -/
theorem recordResponse_records {p : ExpenseResponse} (h : db.recordResponse profile p = .ok db') :
    Records profile (.respondExpense p) db db' := by
  simp only [Db.recordResponse, ↓failIf_bind_eq_ok, bind_eq_ok] at h
  obtain ⟨-, -, -, -, -, -, -, h⟩ := h
  split at h
  next r hr =>
    simp only [↓failIf_bind_eq_ok, pure_eq_ok, Except.ok.injEq] at h
    obtain ⟨-, -, -, rfl⟩ := h
    refine .decide hr (fun k a ha => get?_insertMissing ha) fun k a ha => ?_
    rcases get?_of_insertMissing ha with ha | ⟨rfl, row, hrow, rfl⟩
    · exact .inl ha
    · exact .inr ⟨rfl, rfl, rfl⟩
  next => cases h

theorem reportSettlement_records {p : SettlementReport} (h : db.reportSettlement profile p = .ok db') :
    Records profile (.reportSettlement p) db db' := by
  simp only [Db.reportSettlement, ↓failIf_bind_eq_ok, bind_eq_ok, pure_eq_ok, Except.ok.injEq, insertRow_eq_ok,
    not_or] at h
  obtain ⟨-, -, -, -, -, -, -, -, -, reports, ⟨hfresh, rfl⟩, rfl⟩ := h
  exact .report hfresh

theorem respondSettlement_posts {p : SettlementResponse} (h : db.respondSettlement profile p = .ok db') :
    Posts profile (.respondSettlement p) db db' := by
  simp only [Db.respondSettlement, ↓failIf_bind_eq_ok, bind_eq_ok] at h
  obtain ⟨-, -, -, -, -, -, -, h⟩ := h
  split at h
  next => cases h
  next report hreport =>
    obtain ⟨hreceiver, h⟩ := failIf_bind_eq_ok.mp h
    split at h
    next old hold =>
      obtain ⟨-, h⟩ := failIf_bind_eq_ok.mp h
      obtain rfl := Except.ok.inj h
      exact .nothing
    next hunanswered =>
      obtain ⟨-, h⟩ := failIf_bind_eq_ok.mp h
      obtain ⟨events, hevents, h⟩ := bind_eq_ok.mp h
      obtain ⟨hfresh, rfl⟩ := insertRow_eq_ok.mp hevents
      cases hdecision : p.decision with
      | rejected =>
        rw [hdecision] at h
        obtain rfl := Except.ok.inj h
        exact .reject hreport hunanswered hfresh
      | confirmed =>
        simp only [hdecision, ↓failIf_bind_eq_ok, bind_eq_ok, pure_eq_ok, Except.ok.injEq] at h
        obtain ⟨ledger, hledger, hgross, rfl⟩ := h
        exact .confirm {
          decision := hdecision
          reportRow := hreport
          receiver := by simpa using hreceiver
          unanswered := hunanswered
          fresh := hfresh
          posted := hledger
          gross := not_lt.mp hgross }

/-- `_accept_revision` leaves the schema alone or makes the revision the head. -/
theorem acceptRevision_posts {ctx expense revision : Uuid} {status : Status}
    (hsubject : request.subject = some (ctx, expense, revision))
    (h : db.acceptRevision profile ctx expense revision = .ok (db', status)) :
    Posts profile request db db' := by
  unfold Db.acceptRevision at h
  split at h
  next e r he hr =>
    obtain ⟨hexpense, h⟩ := failIf_bind_eq_ok.mp h
    by_cases hhead : e.acceptedRevisionId = some revision
    · rw [if_pos hhead] at h
      obtain ⟨rfl, -⟩ := Prod.mk.inj (Except.ok.inj h)
      exact .nothing
    rw [if_neg hhead] at h
    obtain ⟨hexpected, h⟩ := failIf_bind_eq_ok.mp h
    -- somebody has not approved, accepted writes are off, or a bank transaction is linked
    split_ifs at h with hwaiting hwrites hsources
    · obtain ⟨rfl, -⟩ := Prod.mk.inj (Except.ok.inj h)
      exact .nothing
    · obtain ⟨rfl, -⟩ := Prod.mk.inj (Except.ok.inj h)
      exact .nothing
    · obtain ⟨rfl, -⟩ := Prod.mk.inj (Except.ok.inj h)
      exact .nothing
    · simp only [↓failIf_bind_eq_ok, bind_eq_ok, pure_eq_ok, Except.ok.injEq, Prod.mk.injEq] at h
      obtain ⟨ledger, hledger, hgross, -, totals, htotals, rfl, -⟩ := h
      refine .accept hsubject {
        expenseRow := he
        revisionRow := hr
        expenseId := not_not.mp hexpense
        notHead := hhead
        head := not_not.mp hexpected
        approved := fun row hrow hrequired => ?_
        posted := hledger
        gross := not_lt.mp hgross
        counted := htotals }
      by_contra hnot
      apply hwaiting
      exact List.any_eq_true.mpr ⟨row, hrow, by simp [hrequired, hnot]⟩
  next => cases h

end Writes

/-- A request that succeeds records and then posts. -/
theorem request_writes {db db' : Db} {profile : Uuid} {request : Request}
    (h : db.request profile request = .ok db') :
    ∃ mid, Records profile request db mid ∧ Posts profile request mid db' := by
  cases request with
  | createContext ctx kind member => exact ⟨db', createContext_records h, .nothing⟩
  | inviteMember ctx member target => exact ⟨db', inviteMember_records h, .nothing⟩
  | respondMembership ctx member accept => exact ⟨db', respondMembership_records h, .nothing⟩
  | bindInvitation ctx member => exact ⟨db', bindInvitation_records h, .nothing⟩
  | claimGroupLink ctx member => exact ⟨db', claimGroupLink_records h, .nothing⟩
  | refuseRequest ctx member => exact ⟨db', refuseRequest_records h, .nothing⟩
  | removeMember ctx member => exact ⟨db', removeMember_records h, .nothing⟩
  | submitProposal p =>
    simp only [Db.request, Db.submitProposal, bind_eq_ok, pure_eq_ok, Except.ok.injEq] at h
    obtain ⟨⟨accepted, status⟩, ⟨mid, hmid, haccepted⟩, rfl⟩ := h
    exact ⟨mid, recordProposal_records hmid, acceptRevision_posts rfl haccepted⟩
  | respondExpense p =>
    simp only [Db.request, Db.respondExpense, bind_eq_ok] at h
    obtain ⟨mid, hmid, h⟩ := h
    cases hdecision : p.decision with
    | reject =>
      rw [hdecision] at h
      obtain rfl := Except.ok.inj h
      exact ⟨mid, recordResponse_records hmid, .nothing⟩
    | approve =>
      simp only [hdecision, bind_eq_ok, pure_eq_ok, Except.ok.injEq] at h
      obtain ⟨⟨accepted, status⟩, haccepted, rfl⟩ := h
      exact ⟨mid, recordResponse_records hmid, acceptRevision_posts rfl haccepted⟩
  | reportSettlement p => exact ⟨db', reportSettlement_records h, .nothing⟩
  | respondSettlement p =>
    exact ⟨db, .of_nobody, respondSettlement_posts h⟩

/-! ### The system -/

/-- An ownership function with its arguments. -/
inductive OwnershipRequest where
  | transfer (ctx target : Uuid)
  | takeOver (ctx : Uuid)
  | leave (ctx : Uuid)
  deriving DecidableEq

namespace Db

/-- The reads of an ownership function, which then waits for the lock. -/
def begin (db : Db) (profile : Uuid) : OwnershipRequest → Sql Call
  | .transfer ctx target => db.beginTransfer profile ctx target
  | .takeOver ctx => db.beginTakeOver profile ctx
  | .leave ctx => db.beginLeave profile ctx

/-- `INSERT INTO public.profiles`. -/
def signUp (db : Db) (profile : Uuid) : Db :=
  { db with profiles := if profile ∈ db.profiles then db.profiles else db.profiles ++ [profile] }

/-- `DELETE FROM public.profiles WHERE id = profile`, with `ON DELETE SET NULL` of `members.profile_id`. -/
def eraseProfile (db : Db) (profile : Uuid) : Db :=
  { db with
    profiles := db.profiles.filter (· ≠ profile)
    members := db.members.mapValues fun _ m =>
      if m.profileId = some profile then { m with profileId := none } else m }

end Db

/-- The schema with the ownership calls that wait for a lock. -/
structure System where
  db : Db
  waiting : List Call

/-- The schema after its migrations. -/
def System.initial : System := ⟨Db.initial, []⟩

inductive Move where
  /-- A member calls one of the functions that are one step. -/
  | request (profile : Uuid) (request : Request)
  /-- A member calls an ownership function, which makes its reads. -/
  | begin (profile : Uuid) (request : OwnershipRequest)
  /-- A call that waits gets the lock. -/
  | commit (i : ℕ)
  /-- An operator changes the settings. -/
  | configure (settings : Settings)
  | signUp (profile : Uuid)
  | erase (profile : Uuid)

namespace System

/-- What a move raises, and the system after it. -/
def step (s : System) : Move → Option SqlError × System
  | .request profile request =>
    match s.db.request profile request with
    | .ok db => (none, { s with db := db })
    | .error e => (some e, s)
  | .begin profile request =>
    match s.db.begin profile request with
    | .ok call => (none, { s with waiting := s.waiting ++ [call] })
    | .error e => (some e, s)
  | .commit i =>
    match s.waiting[i]? with
    | some call =>
      match s.db.commit call with
      | .ok db => (none, ⟨db, s.waiting.eraseIdx i⟩)
      | .error e => (some e, ⟨s.db, s.waiting.eraseIdx i⟩)
    | none => (none, s)
  | .configure settings => (none, { s with db := { s.db with settings := settings } })
  | .signUp profile => (none, { s with db := s.db.signUp profile })
  | .erase profile => (none, { s with db := s.db.eraseProfile profile })

end System

/-! ### Ownership calls -/

/-- The context of a call. -/
def Call.context : Call → Uuid
  | .transfer _ ctx _ => ctx
  | .takeOver _ ctx _ => ctx
  | .leave _ ctx _ _ => ctx

/-- The caller's member, where the call has read it. -/
def Call.me : Call → Option Uuid
  | .transfer _ _ _ => none
  | .takeOver _ _ me => some me
  | .leave _ _ me _ => some me

/-- A member of the context of a call after the call has been committed. -/
def Call.regroup : Call → Uuid → MemberRow → MemberRow
  | .transfer profile _ target, id, m =>
    { m with role := if id = target then .owner else if m.profileId = some profile then .member else m.role }
  | .takeOver _ _ me, id, m => { m with role := if id = me then .owner else .member }
  | .leave _ _ me _, id, m => if id = me then { m with state := .left } else m

/-- What a call checks while it holds the lock. -/
def Db.Allows (db : Db) : Call → Prop
  | .transfer profile ctx target =>
    ∃ t, db.members.get? (ctx, target) = some t ∧ t.state = .active ∧ t.profileId ≠ some profile
  | .takeOver _ ctx _ =>
    ∀ id m, db.members.get? (ctx, id) = some m → m.role = .owner → m.state = .active → m.profileId = none
  | .leave _ ctx me role =>
    role ≠ .owner ∧ (db.ledger.memberBalances.get? (ctx, me)).getD 0 = 0 ∧ db.hasUnaccepted ctx me = false

/-- What a call that is committed has checked and does: it changes members of its context, and nothing else. -/
structure Committed (call : Call) (db db' : Db) : Prop where
  context : call.context ∈ db.contexts.keys
  allowed : db.Allows call
  books : SameBooks db db'
  contexts : db'.contexts = db.contexts
  profiles : db'.profiles = db.profiles
  members : ∀ c id, db'.members.get? (c, id) =
    (db.members.get? (c, id)).map fun m => if c = call.context then call.regroup id m else m

section Commit

variable {db db' : Db} {call : Call}

theorem get?_setRole (ctx : Uuid) (role : Role) (p : Uuid → MemberRow → Bool) (c id : Uuid) :
    (db.setRole ctx role p).members.get? (c, id) = (db.members.get? (c, id)).map fun m =>
      if c = ctx ∧ p id m then { m with role := role } else m := InsertionMap.get?_mapValues _ _ _

theorem commit_committed (h : db.commit call = .ok db') : Committed call db db' := by
  cases call with
  | transfer profile ctx target =>
    simp only [Db.commit, Db.commitTransfer, bind_eq_ok] at h
    obtain ⟨context, hlock, h⟩ := h
    split at h
    next t ht =>
      simp only [↓failIf_bind_eq_ok, bind_eq_ok, pure_eq_ok, Except.ok.injEq, not_or, not_not] at h
      obtain ⟨⟨hactive, -, hother⟩, -, -, rfl⟩ := h
      refine ⟨mem_keys_of_lockContext hlock, ⟨t, ht, hactive, hother⟩, SameBooks.intro, rfl, rfl,
        fun c id => ?_⟩
      rw [get?_setRole, get?_setRole, Option.map_map]
      congr 1
      funext m
      by_cases hc : c = ctx
      · by_cases hid : id = target <;> by_cases hmine : m.profileId = some profile <;>
          simp [hc, hid, hmine, Call.context, Call.regroup]
      · simp [hc, Call.context]
    next => cases h
  | takeOver profile ctx me =>
    simp only [Db.commit, Db.commitTakeOver, ↓failIf_bind_eq_ok, bind_eq_ok, pure_eq_ok, Except.ok.injEq,
      Bool.not_eq_true, anyMember_eq_false] at h
    obtain ⟨context, hlock, hnobody, -, -, rfl⟩ := h
    refine ⟨mem_keys_of_lockContext hlock, fun id m hm hrole hactive => ?_, SameBooks.intro, rfl, rfl,
      fun c id => ?_⟩
    · simpa [hrole, hactive] using hnobody id m hm
    · rw [get?_setRole, get?_setRole, Option.map_map]
      congr 1
      funext m
      by_cases hc : c = ctx
      · -- there are two roles, so whoever was no owner is a member still
        obtain ⟨holder, role, state⟩ := m
        cases role <;> by_cases hid : id = me <;> simp [hc, hid, Call.context, Call.regroup]
      · simp [hc, Call.context]
  | leave profile ctx me role =>
    simp only [Db.commit, Db.commitLeave, ↓failIf_bind_eq_ok, bind_eq_ok, pure_eq_ok, Except.ok.injEq, not_or,
      not_not, Bool.not_eq_true] at h
    obtain ⟨context, hlock, hrole, ⟨hbalance, hpending⟩, -, -, rfl⟩ := h
    refine ⟨mem_keys_of_lockContext hlock, ⟨hrole, hbalance, hpending⟩, SameBooks.intro, rfl, rfl,
      fun c id => ?_⟩
    refine (InsertionMap.get?_mapValues _ _ _).trans ?_
    congr 1
    funext m
    by_cases hc : c = ctx <;> by_cases hid : id = me <;> simp [hc, hid, Call.context, Call.regroup]

/-- Nobody goes away. -/
theorem Committed.membersStay (h : Committed call db db') : MembersStay db db' := by
  rintro ⟨c, id⟩ hkey
  rw [InsertionMap.mem_keys_iff, h.members, Option.isSome_map, ← InsertionMap.mem_keys_iff]
  exact hkey

/-- A call keeps the profile of a member, and the state of everybody but the caller who leaves. -/
theorem regroup_profileId (call : Call) (id : Uuid) (m : MemberRow) : (call.regroup id m).profileId = m.profileId := by
  cases call <;> simp only [Call.regroup]
  split <;> rfl

theorem regroup_state (call : Call) (id : Uuid) (m : MemberRow) :
    (call.regroup id m).state = m.state ∨ call.me = some id ∧ (call.regroup id m).state = .left := by
  cases call <;> simp only [Call.regroup, true_or]
  split
  next hid => exact .inr ⟨congrArg some hid.symm, rfl⟩
  next => exact .inl rfl

end Commit

/-! ### What a move writes -/

/-- What a move writes to the schema. -/
inductive Writes : Move → Db → Db → Prop where
  | request {profile : Uuid} {request : Request} {db mid db' : Db} (hrecords : Records profile request db mid)
      (hposts : Posts profile request mid db') : Writes (.request profile request) db db'
  | people {move : Move} {db db' : Db} (hbooks : SameBooks db db') (hmembers : MembersStay db db') :
      Writes move db db'

theorem Writes.refl (move : Move) (db : Db) : Writes move db db := .people (SameBooks.refl db) (.of_eq rfl)

/-- Every move writes what `Writes` says. -/
theorem step_writes (s : System) (move : Move) : Writes move s.db (s.step move).2.db := by
  cases move with
  | request profile request =>
    simp only [System.step]
    split
    next db' h =>
      obtain ⟨mid, hrecords, hposts⟩ := request_writes h
      exact .request hrecords hposts
    next => exact .refl _ _
  | begin profile request =>
    simp only [System.step]
    split <;> exact .refl _ _
  | commit i =>
    simp only [System.step]
    split
    next call _ =>
      split
      next db' h => exact .people (commit_committed h).books (commit_committed h).membersStay
      next => exact .refl _ _
    next => exact .refl _ _
  | configure settings => exact .people .intro (.of_eq rfl)
  | signUp profile => exact .people .intro (.of_eq rfl)
  | erase profile =>
    refine .people .intro fun key hkey => ?_
    exact (InsertionMap.keys_mapValues _ _).symm ▸ hkey

end PandaPay.SharedExpenses.Sql
