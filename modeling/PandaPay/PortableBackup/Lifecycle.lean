import PandaPay.PortableBackup.Calls

/-!
# The life of a restore session

Through any calls, others' writes and any passing of time, a committed session stays committed, and
sections are uploaded to sessions, and backups committed from them, while they are staging and in
time. Creating a session returns the one that is there whatever its state: the backup of a session
that was cancelled, or that ran out of time, cannot be restored any more.

## Main definitions

* `RestoreSession.Usable`: a session that is committed, or staging and in time
* `ReturnsUsable`, `FindsUsable`: a call that creates a session returns a usable one, and finds one
* `ActsOnStaging`: uploads and commits are for sessions that are staging and in time

## Main results

* `restore_session_lifecycle`: what holds at every call of every run
* `not_returns_usable`: a session is created, cancelled, and returned again
-/

namespace PandaPay.PortableBackup

/-- A session that is committed, or staging and in time. -/
def RestoreSession.Usable (s : RestoreSession) (now : ℤ) : Prop :=
  s.state = .committed ∨ (s.state = .staging ∧ now < s.expiresAt)

/-- One call of a run. -/
abbrev RestoreEvent := Event System Call (Except Raised Response)

/-- A call that creates a session fails, or returns a usable one. -/
def ReturnsUsable (e : RestoreEvent) : Prop :=
  ∀ profileId id input r, e.call = .create profileId id input → e.result = .ok (.created r) →
    ∃ s ∈ e.after.db.sessions, r.session = s.response ∧ s.Usable e.after.now

/-- The newest session under the key or the backup of a call that creates one is usable, if it is of
that backup. -/
def FindsUsable (e : RestoreEvent) : Prop :=
  ∀ profileId id input request s, e.call = .create profileId id input →
    checkCreate profileId input = .ok request →
    e.before.db.newestSession profileId request.idempotencyKey request.backupId = some s →
    s.backupId = request.backupId → s.Usable e.before.now

/-- Uploads and commits are for a session that is staging and in time; a commit may also return what
an earlier one has left, and change nothing. -/
structure ActsOnStaging (e : RestoreEvent) : Prop where
  upload : ∀ profileId sessionId sectionName text r,
    e.call = .upload profileId sessionId sectionName text → e.result = .ok (.uploaded r) →
    ∃ s ∈ e.before.db.sessions, s.id = sessionId.map lowerUnit ∧ s.profileId = profileId ∧
      s.state = .staging ∧ e.before.now < s.expiresAt
  commit : ∀ profileId sessionId previewRevision r,
    e.call = .commit profileId sessionId previewRevision → e.result = .ok (.committed r) →
    ∃ s ∈ e.before.db.sessions, s.id = sessionId.map lowerUnit ∧ s.profileId = profileId ∧
      ((r.idempotent = false ∧ s.state = .staging ∧ e.before.now < s.expiresAt) ∨
        (r.idempotent = true ∧ s.state = .committed ∧ s.result = some r.result ∧
          e.after = e.before))

/-- Nothing was restored yet. -/
def System.start (tables : Tables) (serverSeq : JsString → ℕ) (now : ℤ) : System :=
  ⟨⟨[], [], [], [], tables, serverSeq⟩, now⟩

theorem System.start_consistent (tables : Tables) (serverSeq : JsString → ℕ) (now : ℤ) :
    (System.start tables serverSeq now).db.Consistent where
  nodup_ids := List.nodup_nil
  nodup_backups := List.nodup_nil
  ledger_session := fun _ hl => absurd hl List.not_mem_nil
  session_ledger := fun _ hs => absurd hs List.not_mem_nil

namespace Db

variable {db db' : Db} {now : ℤ} {profileId : JsString}

/-- The session of a backup in the ledger. -/
theorem Consistent.exists_of_committed (h : db.Consistent) {backupId : JsString} {l : LedgerRow}
    (hl : db.committed? profileId backupId = some l) :
    ∃ s ∈ db.sessions, s.profileId = profileId ∧ s.backupId = backupId ∧ s.state = .committed ∧
      s.result = some l.result := by
  have hkey := List.find?_some hl
  simp only [decide_eq_true_eq] at hkey
  obtain ⟨s, hs, hprofile, hbackup, hrest⟩ := h.ledger_session l (List.mem_of_find?_eq_some hl)
  exact ⟨s, hs, hprofile.trans hkey.1, hbackup.trans hkey.2, hrest⟩

/-- The session of a backup is the one the ledger has it under. -/
theorem Consistent.committed_of_ledger (h : db.Consistent) {s : RestoreSession}
    (hs : s ∈ db.sessions) {l : LedgerRow}
    (hl : db.committed? s.profileId s.backupId = some l) :
    s.state = .committed ∧ s.result = some l.result := by
  obtain ⟨s', hs', hprofile, hbackup, hrest⟩ := h.exists_of_committed hl
  have heq : s' = s :=
    List.inj_on_of_nodup_map h.nodup_backups hs' hs (Prod.ext hprofile hbackup)
  rwa [heq] at hrest

theorem mem_of_newestSession {key backupId : JsString} {s : RestoreSession}
    (h : db.newestSession profileId key backupId = some s) : s ∈ db.sessions :=
  (List.mem_filter.mp (newest_eq_some h).1).1

/-- A backup in the ledger is found under its session. -/
theorem Consistent.ledger_found (h : db.Consistent) {key backupId : JsString}
    (hnone : db.newestSession profileId key backupId = none) :
    db.committed? profileId backupId = none := by
  cases hl : db.committed? profileId backupId with
  | none => rfl
  | some l =>
    obtain ⟨s, hs, hprofile, hbackup, -⟩ := h.exists_of_committed hl
    have hmem := newest_eq_none.mp hnone ▸ List.mem_filter.mpr
      ⟨hs, decide_eq_true (p := s.profileId = profileId ∧ (s.idempotencyKey = key ∨ s.backupId = backupId))
        ⟨hprofile, .inr hbackup⟩⟩
    exact absurd hmem List.not_mem_nil

end Db

section Events

variable {sha256 : JsString → JsString} {pg : Postgres} {s : System}

/-- What a transaction returned and left. -/
theorem inTransaction_eq_ok {α : Type} {wrap : α → Response} {run : Except Raised (α × Db)}
    {response : Response} (h : (s.inTransaction wrap run).1 = .ok response) :
    ∃ a db', run = .ok (a, db') ∧ wrap a = response ∧
      (s.inTransaction wrap run).2 = { s with db := db' } := by
  cases run with
  | error e => cases h
  | ok result => exact ⟨result.1, result.2, rfl, Except.ok.inj h, rfl⟩

variable (sha256 pg s)

/-- A usable session is returned exactly when one is found, or none. -/
theorem returnsUsable_iff (h : s.db.Consistent) (c : Call) :
    ReturnsUsable (eventOf (step sha256 pg) s c) ↔ FindsUsable (eventOf (step sha256 pg) s c) := by
  constructor
  · intro hreturns profileId id input request found hcall hrequest hfound hbackup
    cases hcall
    have hrun : s.db.createRestoreSession s.now profileId id input =
        .ok (⟨found.response, true, none⟩, s.db) := by
      have hfound : s.db.newestSession profileId request.idempotencyKey request.backupId =
          some found := hfound
      rw [Db.createRestoreSession, hrequest, ok_bind, Db.findOrCreate, hfound]
      exact failIf_bind_eq_ok.mpr ⟨not_not.mpr hbackup, rfl⟩
    have hstep : step sha256 pg s (.create profileId id input) =
        (.ok (.created ⟨found.response, true, none⟩), s) := by
      rw [step, hrun]
      rfl
    obtain ⟨s', -, hresponse, husable⟩ := hreturns profileId id input _ rfl (congrArg Prod.fst hstep)
    rw [eventOf_after, hstep] at husable
    simp only [RestoreSession.response, SessionResponse.mk.injEq, Option.some.injEq] at hresponse
    obtain ⟨-, -, hstate, hexpires⟩ := hresponse
    rwa [RestoreSession.Usable, ← hstate, ← hexpires] at husable
  · intro hfinds profileId id input r hcall hresult
    cases hcall
    obtain ⟨r', db', hrun, hr, hafter⟩ := inTransaction_eq_ok hresult
    cases hr
    obtain ⟨request, hrequest, hrun⟩ := Db.createRestoreSession_eq_ok hrun
    have hafter : (step sha256 pg s (.create profileId id input)).2 = { s with db := db' } := hafter
    rw [eventOf_after, hafter]
    rcases Db.findOrCreate_eq_ok hrun with ⟨found, hfound, hbackup, hresponse, rfl⟩ |
      ⟨hnone, hledger, -⟩ | ⟨-, -, hresponse, rfl⟩
    · exact ⟨found, Db.mem_of_newestSession hfound, hresponse,
        hfinds profileId id input request found rfl hrequest hfound hbackup⟩
    · rw [h.ledger_found hnone] at hledger
      cases hledger
    · refine ⟨_, List.mem_append_right _ (List.mem_singleton_self _), hresponse, .inr ⟨rfl, ?_⟩⟩
      exact lt_add_of_pos_right s.now (by decide)

theorem actsOnStaging (h : s.db.Consistent) (c : Call) :
    ActsOnStaging (eventOf (step sha256 pg) s c) := by
  constructor
  · intro profileId sessionId sectionName text r hcall hresult
    cases hcall
    obtain ⟨r', db', hrun, -, -⟩ := inTransaction_eq_ok hresult
    obtain ⟨session, _, hload, hstate, -⟩ := Db.uploadRestoreSection_eq_ok hrun
    obtain ⟨hsession, hprofile, hid, htime⟩ := Db.loadSession_eq_ok hload
    exact ⟨session, hsession, hid, hprofile, hstate, htime hstate⟩
  · intro profileId sessionId previewRevision r hcall hresult
    cases hcall
    obtain ⟨r', db', hrun, hr, hafter⟩ := inTransaction_eq_ok hresult
    cases hr
    obtain ⟨session, hload, hcases⟩ := Db.commitRestore_eq_ok hrun
    obtain ⟨hsession, rfl, hid, htime⟩ := Db.loadSession_eq_ok hload
    refine ⟨session, hsession, hid, rfl, ?_⟩
    rcases hcases with ⟨l, hl, rfl, rfl⟩ | ⟨-, hstate, _, _, _, -, -, -, -, hr, -⟩
    · obtain ⟨hcommitted, hstored⟩ := h.committed_of_ledger hsession hl
      exact .inr ⟨rfl, hcommitted, hstored, hafter⟩
    · rw [hr]
      exact .inl ⟨rfl, hstate, htime hstate⟩

end Events

/-- **The life of a restore session**: at every call of every run, creating a session returns a usable
one exactly when it finds a usable one or none, and uploads and commits are for sessions that are
staging and in time; a session that is committed stays so, with its result. -/
theorem restore_session_lifecycle (sha256 : JsString → JsString) (pg : Postgres) (tables : Tables)
    (serverSeq : JsString → ℕ) (now : ℤ) (calls : List Call) :
    (∀ e ∈ trace (step sha256 pg) (.start tables serverSeq now) calls,
      (ReturnsUsable e ↔ FindsUsable e) ∧ ActsOnStaging e) ∧
    ∀ earlier later, calls = earlier ++ later →
      (final (step sha256 pg) (.start tables serverSeq now) earlier).db.KeepsCommitted
        (final (step sha256 pg) (.start tables serverSeq now) calls).db := by
  have hstart := System.start_consistent tables serverSeq now
  have hconsistent : ∀ calls,
      (final (step sha256 pg) (.start tables serverSeq now) calls).db.Consistent := by
    intro calls
    exact @invariant_of_final _ _ _ (step sha256 pg) _ calls (fun s => s.db.Consistent) hstart
      fun c _ s hs => (step_keeps sha256 pg hs c).1
  constructor
  · intro e he
    obtain ⟨earlier, later, -, hevent⟩ := exists_of_mem_trace he
    rw [hevent]
    exact ⟨returnsUsable_iff sha256 pg _ (hconsistent earlier) _,
      actsOnStaging sha256 pg _ (hconsistent earlier) _⟩
  · rintro earlier later rfl
    rw [final_append]
    exact @related_of_final _ _ _ (step sha256 pg) _ later (fun s => s.db.Consistent)
      (fun s s' => s.db.KeepsCommitted s'.db) (fun s => .refl s.db) (fun h h' => h.trans h')
      (hconsistent earlier) fun c _ s hs => step_keeps sha256 pg hs c

section Meera

/-- The profile of Meera. -/
def meera : JsString := js "11111111-1111-4111-8111-111111111111"

/-- A backup of hers without any record. -/
def meeraManifest : Manifest where
  accountBinding := some meera
  formatVersion := some 1
  schemaVersion := js "portable-v1"
  complete := true
  backupId := some (js "22222222-2222-4222-8222-222222222222")
  revision := js "42"
  sections := portableSections.map fun s => (s.name, ⟨some 0, some 0,
    some (js "e3b0c44298fc1c149afbf4c8996fb92427ae41e4649b934ca495991b7852b855")⟩)

/-- The request to restore it. -/
def meeraCreate (id : String) (key : String) : Call :=
  .create meera (js id) ⟨none, some (js key), none, some meeraManifest⟩

/-- A database that stores rows as they are. -/
def plainPostgres : Postgres where
  jsonb := fun value => value
  toKey := fun _ _ text => .ok text
  rowOf := fun _ _ fields => .ok (.obj fields)
  collides := fun _ _ _ => false
  references := fun _ _ _ => .ok ()

/-- The state of a session that was returned. -/
def createdState? : Except Raised Response → Option SessionState
  | .ok (.created r) => some r.session.state
  | _ => none

theorem createdState?_eq_some {result : Except Raised Response} {state : SessionState}
    (h : createdState? result = some state) :
    ∃ r, result = .ok (.created r) ∧ r.session.state = state := by
  unfold createdState? at h
  split at h
  · exact ⟨_, rfl, Option.some.inj h⟩
  · cases h

/-- A session is created and cancelled, and what the next attempt at its backup returns is the
cancelled session. -/
theorem not_returns_usable :
    ¬ ∀ (sha256 : JsString → JsString) (pg : Postgres) (tables : Tables) (serverSeq : JsString → ℕ)
      (now : ℤ) (calls : List Call),
      ∀ e ∈ trace (step sha256 pg) (.start tables serverSeq now) calls, ReturnsUsable e := by
  intro h
  let session := "44444444-4444-4444-8444-444444444444"
  let calls := [meeraCreate session "first", .cancel meera (js session)]
  let retry := meeraCreate "55555555-5555-4555-8555-555555555555" "second"
  let run := step (fun _ => []) plainPostgres
  let start := System.start (fun _ => []) (fun _ => 0) 0
  have hevent : eventOf run (final run start calls) retry ∈ trace run start (calls ++ [retry]) := by
    simp [calls, trace, final]
  have hstate : createdState? (eventOf run (final run start calls) retry).result =
      some .cancelled := by
    decide +kernel
  obtain ⟨r, hresult, hcancelled⟩ := createdState?_eq_some hstate
  obtain ⟨s, -, hresponse, husable⟩ := h _ _ _ _ _ _ _ hevent _ _ _ r rfl hresult
  have hs : s.state = .cancelled := by
    rw [← hcancelled, hresponse]
    rfl
  rcases husable with hs' | ⟨hs', -⟩
  · rw [hs] at hs'
    cases hs'
  · rw [hs] at hs'
    cases hs'

end Meera

end PandaPay.PortableBackup
