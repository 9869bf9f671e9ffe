import PandaPay.PortableBackup.Restore

/-!
# What the calls of the restore do

What a successful call went through and what it leaves behind, and the invariant of the staging
tables: a backup has one session of a profile, and the ledger lists the committed ones.

## Main definitions

* `Db.Consistent`: the invariant
* `Db.KeepsCommitted`: committed sessions stay, with their result

## Main results

* `loadSession_eq_ok`, `uploadRestoreSection_eq_ok`, `commitRestore_eq_ok`, and the others: what a
  successful call did
* `step_keeps`: every call keeps the invariant and the committed sessions
-/

namespace PandaPay.PortableBackup

namespace Db

variable {sha256 : JsString → JsString} {pg : Postgres} {db db' : Db} {now : ℤ}
  {profileId sessionId : JsString}

/-! ### Successful calls -/

theorem assertUuid_eq_ok {value : JsString} {code : String} {id : JsString}
    (h : assertUuid (some value) code = .ok id) : id = value.map lowerUnit := by
  unfold assertUuid at h
  dsimp only at h
  split at h
  · cases h
    rfl
  · cases h

/-- The session that was found is still staging in time, or is no longer staging. -/
theorem loadSession_eq_ok {row : RestoreSession}
    (h : db.loadSession now profileId sessionId = .ok row) :
    row ∈ db.sessions ∧ row.profileId = profileId ∧ row.id = sessionId.map lowerUnit ∧
      (row.state = .staging → now < row.expiresAt) := by
  unfold loadSession at h
  obtain ⟨id, hid, h⟩ := bind_eq_ok.mp h
  split at h
  · cases h
  · rename_i found hfound
    obtain ⟨hlive, h⟩ := failIf_bind_eq_ok.mp h
    cases h
    have hrow := List.find?_some hfound
    simp only [decide_eq_true_eq] at hrow
    refine ⟨List.mem_of_find?_eq_some hfound, hrow.2, ?_, ?_⟩
    · rw [hrow.1, assertUuid_eq_ok hid]
    intro hstate
    by_contra hnow
    exact hlive ⟨hstate, not_lt.mp hnow⟩

/-- A session is returned because it was found, because its backup is in the ledger or because it is
new. -/
theorem findOrCreate_eq_ok {id : JsString} {request : CreateRequest} {r : CreateResponse}
    (h : db.findOrCreate now profileId id request = .ok (r, db')) :
    (∃ row, db.newestSession profileId request.idempotencyKey request.backupId = some row ∧
        row.backupId = request.backupId ∧ r.session = row.response ∧ db' = db) ∨
      (db.newestSession profileId request.idempotencyKey request.backupId = none ∧
        (db.committed? profileId request.backupId).isSome ∧ db' = db) ∨
      (db.newestSession profileId request.idempotencyKey request.backupId = none ∧
        db.hasSession (request.newSession profileId id now) = false ∧
        r.session = (request.newSession profileId id now).response ∧
        db' = { db with sessions := db.sessions ++ [request.newSession profileId id now] }) := by
  unfold findOrCreate at h
  split at h
  · rename_i row hrow
    obtain ⟨hbackup, h⟩ := failIf_bind_eq_ok.mp h
    cases h
    exact .inl ⟨row, hrow, not_not.mp hbackup, rfl, rfl⟩
  · rename_i hnone
    split at h
    · rename_i l hl
      cases h
      exact .inr (.inl ⟨hnone, by rw [hl]; rfl, rfl⟩)
    · dsimp only at h
      split at h
      · -- a key keeps the new row out, and no row was found
        cases h
      · rename_i hnew
        cases h
        exact .inr (.inr ⟨hnone, by simpa using hnew, rfl, rfl⟩)

theorem createRestoreSession_eq_ok {id : JsString} {input : CreateInput} {r : CreateResponse}
    (h : db.createRestoreSession now profileId id input = .ok (r, db')) :
    ∃ request, checkCreate profileId input = .ok request ∧
      db.findOrCreate now profileId id request = .ok (r, db') :=
  bind_eq_ok.mp h

theorem uploadRestoreSection_eq_ok {sectionName : String} {text : JsString} {r : UploadResponse}
    {jsonb : Json → Json}
    (h : db.uploadRestoreSection sha256 jsonb now profileId sessionId sectionName text =
      .ok (r, db')) :
    ∃ session parsed, db.loadSession now profileId sessionId = .ok session ∧
      session.state = .staging ∧ parseSectionNdjson sha256 text sectionName profileId = .ok parsed ∧
      matchesDeclaration session.manifest sectionName parsed = true ∧
      ((∃ staged, db.stagedSection? session.id sectionName = some staged ∧ db' = db) ∨
        (db.stagedSection? session.id sectionName = none ∧
          db' = { db with
            sections := db.sections ++
              [⟨session.id, profileId, sectionName, parsed.count, parsed.bytes, parsed.sha256⟩]
            records := db.records ++
              stagedRecords jsonb session.id profileId sectionName parsed })) := by
  unfold uploadRestoreSection at h
  obtain ⟨parsed, hparsed, h⟩ := bind_eq_ok.mp h
  obtain ⟨session, hsession, h⟩ := bind_eq_ok.mp h
  obtain ⟨hstate, h⟩ := failIf_bind_eq_ok.mp h
  obtain ⟨hmatch, h⟩ := failIf_bind_eq_ok.mp h
  refine ⟨session, parsed, hsession, not_not.mp hstate, hparsed, by simpa using hmatch, ?_⟩
  split at h
  · rename_i staged hstaged
    obtain ⟨-, h⟩ := failIf_bind_eq_ok.mp h
    cases h
    exact .inl ⟨staged, hstaged, rfl⟩
  · rename_i hstaged
    cases h
    exact .inr ⟨hstaged, rfl⟩

theorem cancelRestore_eq_ok {r : SessionResponse}
    (h : db.cancelRestore now profileId sessionId = .ok (r, db')) :
    ∃ session, db.loadSession now profileId sessionId = .ok session ∧ session.state ≠ .committed ∧
      db' = db.updateSession session.id fun s => { s with state := .cancelled } := by
  unfold cancelRestore at h
  obtain ⟨session, hsession, h⟩ := bind_eq_ok.mp h
  obtain ⟨hstate, h⟩ := failIf_bind_eq_ok.mp h
  cases h
  exact ⟨session, hsession, hstate, rfl⟩

theorem previewRestore_eq_ok {r : PreviewResponse}
    (h : db.previewRestore pg now profileId sessionId = .ok (r, db')) :
    db' = db ∨ ∃ session revision, db.loadSession now profileId sessionId = .ok session ∧
      session.state = .staging ∧
      db' = db.updateSession session.id fun s => { s with previewRevision := some revision } := by
  unfold previewRestore at h
  obtain ⟨session, hsession, h⟩ := bind_eq_ok.mp h
  split at h
  · cases h
    exact .inl rfl
  · obtain ⟨hstate, h⟩ := failIf_bind_eq_ok.mp h
    obtain ⟨plan, -, h⟩ := bind_eq_ok.mp h
    cases h
    exact .inr ⟨session, plan.serverRevision, hsession, not_not.mp hstate, rfl⟩

/-- A commit returns what the ledger has, or carries out a plan without conflicts. -/
theorem commitRestore_eq_ok {previewRevision : Option JsString} {r : CommitResponse}
    (h : db.commitRestore pg now profileId sessionId previewRevision = .ok (r, db')) :
    ∃ session, db.loadSession now profileId sessionId = .ok session ∧
      ((∃ l, db.committed? profileId session.backupId = some l ∧
          r = ⟨session.committedResponse, l.result, true⟩ ∧ db' = db) ∨
        (db.committed? profileId session.backupId = none ∧ session.state = .staging ∧
          ∃ plan tables inserted, db.buildRestorePlan pg session profileId = .ok plan ∧
            plan.missingSections = [] ∧ plan.conflicts = [] ∧
            (db.missingRecords session profileId plan).foldlM (insertRecord pg) (db.tables, 0) =
              .ok (tables, inserted) ∧
            r = ⟨session.committedResponse, ⟨inserted, plan.noops.length, session.backupId,
              db.serverRevision profileId⟩, false⟩ ∧
            db' = db.recordCommit session profileId tables r.result)) := by
  unfold commitRestore at h
  obtain ⟨session, hsession, h⟩ := bind_eq_ok.mp h
  refine ⟨session, hsession, ?_⟩
  split at h
  · rename_i l hl
    cases h
    exact .inl ⟨l, hl, rfl, rfl⟩
  · rename_i hnone
    obtain ⟨hstate, h⟩ := failIf_bind_eq_ok.mp h
    obtain ⟨-, h⟩ := failIf_bind_eq_ok.mp h
    obtain ⟨-, h⟩ := failIf_bind_eq_ok.mp h
    obtain ⟨plan, hplan, h⟩ := bind_eq_ok.mp h
    obtain ⟨_, hclean, h⟩ := bind_eq_ok.mp h
    obtain ⟨⟨tables, inserted⟩, hinsert, h⟩ := bind_eq_ok.mp h
    obtain ⟨-, h⟩ := failIf_bind_eq_ok.mp h
    cases h
    have hclean := not_or.mp (failIf_eq_ok.mp hclean)
    exact .inr ⟨hnone, not_not.mp hstate, plan, tables, inserted, hplan, not_not.mp hclean.1,
      not_not.mp hclean.2, hinsert, rfl, rfl⟩

/-! ### The invariant -/

/-- A backup has one session of a profile, and the ledger lists the committed ones. -/
structure Consistent (db : Db) : Prop where
  nodup_ids : (db.sessions.map RestoreSession.id).Nodup
  nodup_backups : (db.sessions.map fun s => (s.profileId, s.backupId)).Nodup
  ledger_session : ∀ l ∈ db.ledger, ∃ s ∈ db.sessions,
    s.profileId = l.profileId ∧ s.backupId = l.backupId ∧ s.state = .committed ∧
      s.result = some l.result
  session_ledger : ∀ s ∈ db.sessions, s.state = .committed →
    ∃ l ∈ db.ledger, l.profileId = s.profileId ∧ l.backupId = s.backupId

/-- A committed session stays, with its result. -/
def KeepsCommitted (db db' : Db) : Prop :=
  ∀ s ∈ db.sessions, s.state = .committed →
    ∃ s' ∈ db'.sessions, s'.id = s.id ∧ s'.profileId = s.profileId ∧ s'.backupId = s.backupId ∧
      s'.state = .committed ∧ s'.result = s.result

theorem KeepsCommitted.refl (db : Db) : db.KeepsCommitted db :=
  fun s hs hstate => ⟨s, hs, rfl, rfl, rfl, hstate, rfl⟩

theorem KeepsCommitted.trans {db'' : Db} (h : db.KeepsCommitted db')
    (h' : db'.KeepsCommitted db'') : db.KeepsCommitted db'' := by
  intro s hs hstate
  obtain ⟨s', hs', hid, hprofile, hbackup, hstate', hresult⟩ := h s hs hstate
  obtain ⟨s'', hs'', hid', hprofile', hbackup', hstate'', hresult'⟩ := h' s' hs' hstate'
  exact ⟨s'', hs'', hid'.trans hid, hprofile'.trans hprofile, hbackup'.trans hbackup, hstate'',
    hresult'.trans hresult⟩

/-- Rows of other tables do not matter. -/
theorem Consistent.congr (h : db.Consistent) (hsessions : db'.sessions = db.sessions)
    (hledger : db'.ledger = db.ledger) : db'.Consistent := by
  obtain ⟨hids, hbackups, hledgerSession, hsessionLedger⟩ := h
  rw [← hsessions] at hids hbackups hledgerSession hsessionLedger
  rw [← hledger] at hledgerSession hsessionLedger
  exact ⟨hids, hbackups, hledgerSession, hsessionLedger⟩

theorem KeepsCommitted.congr (h : db'.sessions = db.sessions) : db.KeepsCommitted db' := by
  intro s hs hstate
  exact ⟨s, h ▸ hs, rfl, rfl, rfl, hstate, rfl⟩

theorem mem_updateSession {id : JsString} {f : RestoreSession → RestoreSession}
    {s' : RestoreSession} : s' ∈ (db.updateSession id f).sessions ↔
      ∃ s ∈ db.sessions, (if s.id = id then f s else s) = s' :=
  List.mem_map

/-- An update keeps the columns that its function keeps. -/
theorem map_updateSession {α : Type} {id : JsString} {f : RestoreSession → RestoreSession}
    {g : RestoreSession → α} (hg : ∀ s, g (f s) = g s) :
    (db.updateSession id f).sessions.map g = db.sessions.map g := by
  rw [updateSession, List.map_map]
  refine List.map_congr_left fun s _ => ?_
  rw [Function.comp_apply]
  split
  · exact hg s
  · rfl

section Update

variable {session : RestoreSession} {f : RestoreSession → RestoreSession}

/-- Rows are told apart by their identifiers. -/
theorem Consistent.eq_of_id (h : db.Consistent) {s : RestoreSession} (hs : s ∈ db.sessions)
    (hsession : session ∈ db.sessions) (hid : s.id = session.id) : s = session :=
  List.inj_on_of_nodup_map h.nodup_ids hs hsession hid

/-- The other rows stay as they are. -/
theorem Consistent.mem_of_ne (h : db.Consistent) (hsession : session ∈ db.sessions)
    {s : RestoreSession} (hs : s ∈ db.sessions) (hne : s.state ≠ session.state) :
    s ∈ (db.updateSession session.id f).sessions := by
  refine mem_updateSession.mpr ⟨s, hs, if_neg fun hid => hne ?_⟩
  rw [h.eq_of_id hs hsession hid]

/-- Committed rows stay when another one is updated. -/
theorem Consistent.keepsCommitted_update (h : db.Consistent) (hsession : session ∈ db.sessions)
    (hstate : session.state ≠ .committed) :
    db.KeepsCommitted (db.updateSession session.id f) := by
  intro s hs hs'
  refine ⟨s, h.mem_of_ne hsession hs ?_, rfl, rfl, rfl, hs', rfl⟩
  rw [hs']
  exact hstate.symm

/-- A row that is not committed, and stays so, may change in all but its keys. -/
theorem Consistent.update (h : db.Consistent) (hsession : session ∈ db.sessions)
    (hstate : session.state ≠ .committed) (hid : ∀ s, (f s).id = s.id)
    (hkey : ∀ s, ((f s).profileId, (f s).backupId) = (s.profileId, s.backupId))
    (hf : (f session).state ≠ .committed) : (db.updateSession session.id f).Consistent := by
  refine ⟨?_, ?_, ?_, ?_⟩
  · rw [map_updateSession hid]
    exact h.nodup_ids
  · rw [map_updateSession hkey]
    exact h.nodup_backups
  · intro l hl
    obtain ⟨s, hs, hprofile, hbackup, hs', hresult⟩ := h.ledger_session l hl
    exact ⟨s, h.mem_of_ne hsession hs (hs' ▸ hstate.symm), hprofile, hbackup, hs', hresult⟩
  · intro s' hs' hcommitted
    obtain ⟨s, hs, rfl⟩ := mem_updateSession.mp hs'
    split at hcommitted
    · rename_i hid'
      rw [h.eq_of_id hs hsession hid'] at hcommitted
      exact absurd hcommitted hf
    · rename_i hid'
      rw [if_neg hid']
      exact h.session_ledger s hs hcommitted

end Update

/-- A session that no key keeps out. -/
theorem Consistent.add (h : db.Consistent) {new : RestoreSession} (hnew : db.hasSession new = false)
    (hstate : new.state ≠ .committed) :
    ({ db with sessions := db.sessions ++ [new] } : Db).Consistent := by
  have hfree : ∀ s ∈ db.sessions, s.id ≠ new.id ∧
      (s.profileId, s.backupId) ≠ (new.profileId, new.backupId) := by
    intro s hs
    have := List.any_eq_false.mp hnew s hs
    simp only [decide_eq_true_eq, not_or, not_and] at this
    refine ⟨this.1, fun heq => ?_⟩
    obtain ⟨hprofile, hbackup⟩ := Prod.mk.inj heq
    exact this.2 hprofile |>.1 hbackup
  refine ⟨?_, ?_, ?_, ?_⟩
  · rw [List.map_append, List.map_singleton, List.nodup_append]
    refine ⟨h.nodup_ids, List.nodup_singleton _, ?_⟩
    intro id hid id' hid'
    obtain ⟨s, hs, rfl⟩ := List.mem_map.mp hid
    rw [List.mem_singleton.mp hid']
    exact (hfree s hs).1
  · rw [List.map_append, List.map_singleton, List.nodup_append]
    refine ⟨h.nodup_backups, List.nodup_singleton _, ?_⟩
    intro key hkey key' hkey'
    obtain ⟨s, hs, rfl⟩ := List.mem_map.mp hkey
    rw [List.mem_singleton.mp hkey']
    exact (hfree s hs).2
  · intro l hl
    obtain ⟨s, hs, hrest⟩ := h.ledger_session l hl
    exact ⟨s, List.mem_append_left _ hs, hrest⟩
  · intro s hs hcommitted
    rcases List.mem_append.mp hs with hs | hs
    · exact h.session_ledger s hs hcommitted
    · rw [List.mem_singleton.mp hs] at hcommitted
      exact absurd hcommitted hstate

/-- A commit of a session that is staging. -/
theorem Consistent.recordCommit (h : db.Consistent) {session : RestoreSession}
    (hsession : session ∈ db.sessions) (hstate : session.state = .staging) (tables : Tables)
    (result : RestoreResult) : (db.recordCommit session session.profileId tables result).Consistent := by
  have hne : session.state ≠ .committed := by rw [hstate]; decide
  let f : RestoreSession → RestoreSession := fun s =>
    { s with state := .committed, result := some result }
  have hsessions : (db.recordCommit session session.profileId tables result).sessions =
      (db.updateSession session.id f).sessions := rfl
  refine ⟨?_, ?_, ?_, ?_⟩
  · rw [hsessions, map_updateSession (f := f) fun _ => rfl]
    exact h.nodup_ids
  · rw [hsessions, map_updateSession (f := f) fun _ => rfl]
    exact h.nodup_backups
  · intro l hl
    rw [hsessions]
    rcases List.mem_append.mp hl with hl | hl
    · obtain ⟨s, hs, hprofile, hbackup, hs', hresult⟩ := h.ledger_session l hl
      exact ⟨s, h.mem_of_ne hsession hs (hs' ▸ hne.symm), hprofile, hbackup, hs', hresult⟩
    · rw [List.mem_singleton.mp hl]
      exact ⟨f session, mem_updateSession.mpr ⟨session, hsession, if_pos rfl⟩, rfl, rfl, rfl, rfl⟩
  · intro s' hs' hcommitted
    rw [hsessions] at hs'
    obtain ⟨s, hs, rfl⟩ := mem_updateSession.mp hs'
    split at hcommitted
    · rename_i hid
      rw [if_pos hid, h.eq_of_id hs hsession hid]
      exact ⟨_, List.mem_append_right _ (List.mem_singleton_self _), rfl, rfl⟩
    · rename_i hid
      rw [if_neg hid]
      obtain ⟨l, hl, hkey⟩ := h.session_ledger s hs hcommitted
      exact ⟨l, List.mem_append_left _ hl, hkey⟩

/-! ### Every call -/

/-- What holds of the database after a call. -/
def Kept (db db' : Db) : Prop := db'.Consistent ∧ db.KeepsCommitted db'

theorem Consistent.kept_same (h : db.Consistent) : db.Kept db := ⟨h, .refl db⟩

theorem Consistent.kept_create (h : db.Consistent) {id : JsString} {input : CreateInput}
    {r : CreateResponse} (hcall : db.createRestoreSession now profileId id input = .ok (r, db')) :
    db.Kept db' := by
  obtain ⟨request, -, hcall⟩ := createRestoreSession_eq_ok hcall
  rcases findOrCreate_eq_ok hcall with ⟨_, -, -, -, rfl⟩ | ⟨-, -, rfl⟩ | ⟨-, hnew, -, rfl⟩
  · exact h.kept_same
  · exact h.kept_same
  · refine ⟨h.add hnew ?_, ?_⟩
    · intro hstate
      cases hstate
    · intro s hs hstate
      exact ⟨s, List.mem_append_left _ hs, rfl, rfl, rfl, hstate, rfl⟩

theorem Consistent.kept_upload (h : db.Consistent) {sectionName : String} {text : JsString}
    {r : UploadResponse} {jsonb : Json → Json}
    (hcall : db.uploadRestoreSection sha256 jsonb now profileId sessionId sectionName text =
      .ok (r, db')) : db.Kept db' := by
  obtain ⟨_, _, -, -, -, -, ⟨_, -, rfl⟩ | ⟨-, rfl⟩⟩ := uploadRestoreSection_eq_ok hcall
  · exact h.kept_same
  · exact ⟨h.congr rfl rfl, .congr rfl⟩

theorem Consistent.kept_cancel (h : db.Consistent) {r : SessionResponse}
    (hcall : db.cancelRestore now profileId sessionId = .ok (r, db')) : db.Kept db' := by
  obtain ⟨session, hload, hstate, rfl⟩ := cancelRestore_eq_ok hcall
  obtain ⟨hsession, -⟩ := loadSession_eq_ok hload
  refine ⟨h.update hsession hstate (fun _ => rfl) (fun _ => rfl) ?_,
    h.keepsCommitted_update hsession hstate⟩
  intro hcancelled
  cases hcancelled

theorem Consistent.kept_preview (h : db.Consistent) {r : PreviewResponse}
    (hcall : db.previewRestore pg now profileId sessionId = .ok (r, db')) : db.Kept db' := by
  rcases previewRestore_eq_ok hcall with rfl | ⟨session, revision, hload, hstate, rfl⟩
  · exact h.kept_same
  · obtain ⟨hsession, -⟩ := loadSession_eq_ok hload
    have hne : session.state ≠ .committed := by rw [hstate]; decide
    exact ⟨h.update hsession hne (fun _ => rfl) (fun _ => rfl) hne,
      h.keepsCommitted_update hsession hne⟩

theorem Consistent.kept_commit (h : db.Consistent) {previewRevision : Option JsString}
    {r : CommitResponse}
    (hcall : db.commitRestore pg now profileId sessionId previewRevision = .ok (r, db')) :
    db.Kept db' := by
  obtain ⟨session, hload, hcases⟩ := commitRestore_eq_ok hcall
  obtain ⟨hsession, rfl, -⟩ := loadSession_eq_ok hload
  rcases hcases with ⟨_, -, -, rfl⟩ | ⟨-, hstate, _, tables, _, -, -, -, -, -, rfl⟩
  · exact h.kept_same
  · have hne : session.state ≠ .committed := by rw [hstate]; decide
    refine ⟨h.recordCommit hsession hstate tables r.result, ?_⟩
    -- the sessions are those of an update
    exact (h.keepsCommitted_update hsession hne).trans (.congr rfl)

end Db

open Db

/-- Every call keeps the invariant and the committed sessions. -/
theorem step_keeps (sha256 : JsString → JsString) (pg : Postgres) {s : System}
    (h : s.db.Consistent) (c : Call) : s.db.Kept (step sha256 pg s c).2.db := by
  -- a transaction leaves the database of its call, or the one before it
  have transaction {α : Type} (wrap : α → Response) (run : Except Raised (α × Db))
      (hrun : ∀ a db', run = .ok (a, db') → s.db.Kept db') :
      s.db.Kept (s.inTransaction wrap run).2.db := by
    cases run with
    | error e => exact h.kept_same
    | ok result => exact hrun result.1 result.2 rfl
  cases c with
  | create profileId id input => exact transaction _ _ fun _ _ hcall => h.kept_create hcall
  | upload profileId sessionId sectionName text =>
    exact transaction _ _ fun _ _ hcall => h.kept_upload hcall
  | preview profileId sessionId => exact transaction _ _ fun _ _ hcall => h.kept_preview hcall
  | commit profileId sessionId previewRevision =>
    exact transaction _ _ fun _ _ hcall => h.kept_commit hcall
  | cancel profileId sessionId => exact transaction _ _ fun _ _ hcall => h.kept_cancel hcall
  | write tables serverSeq => exact ⟨h.congr rfl rfl, .congr rfl⟩
  | advance milliseconds => exact h.kept_same

end PandaPay.PortableBackup
