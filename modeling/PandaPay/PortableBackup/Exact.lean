import PandaPay.PortableBackup.Inserts
import PandaPay.PortableBackup.Lifecycle
import PandaPay.PortableBackup.Verified

/-!
# What a commit restores

Through any calls, others' writes and any passing of time, a commit that fails leaves everything as it
was, one that succeeds keeps every row that was there, and one of a committed session returns what is
stored and changes nothing. A commit that succeeds restores every staged record exactly when the
records that its plan found missing all fit: one that collides with another row on a unique key is
skipped, and the commit reports success without it.

## Main definitions

* `stagedOf`: the staged records of a session
* `CommitExact`: what holds at a commit

## Main results

* `buildRestorePlan_cases`: what a plan without conflicts says of the staged records
* `restore_exact`: what holds at every commit of every run
* `not_restores_all`: a tag that was made anew keeps the one of the backup out
-/

namespace PandaPay.PortableBackup

open Db

/-! ### The plan -/

section Plan

variable {pg : Postgres} {db : Db} {session : RestoreSession} {profileId : JsString}

/-- The staged records of a session, in the order of the sections. -/
def stagedOf (db : Db) (session : RestoreSession) (profileId : JsString) : List Staged :=
  portableSections.flatMap (db.recordsOf session profileId)

theorem mem_recordsOf {s : PortableSection} {r : Staged} (h : r ∈ db.recordsOf session profileId s) :
    r.1 = s ∧ r.2 ∈ db.records ∧ r.2.sessionId = session.id ∧ r.2.profileId = profileId ∧
      r.2.sectionName = s.name := by
  obtain ⟨record, hrecord, rfl⟩ := List.mem_map.mp h
  obtain ⟨hmem, hkey⟩ := List.mem_filter.mp (mem_sortBy.mp hrecord)
  exact ⟨rfl, hmem, of_decide_eq_true hkey⟩

theorem mem_stagedOf {r : Staged} (h : r ∈ stagedOf db session profileId) :
    r.1 ∈ portableSections ∧ r.2 ∈ db.records ∧ r.2.sessionId = session.id ∧
      r.2.profileId = profileId ∧ r.2.sectionName = r.1.name := by
  obtain ⟨s, hs, hr⟩ := List.mem_flatMap.mp h
  obtain ⟨rfl, hrest⟩ := mem_recordsOf hr
  exact ⟨hs, hrest⟩

/-- The staged records of a session are told apart by their sections and identities. -/
theorem nodup_stagedOf (h : db.WellStaged) : ((stagedOf db session profileId).map planItem).Nodup := by
  rw [stagedOf, List.map_flatMap, List.nodup_flatMap]
  constructor
  · intro s _
    rw [recordsOf, List.map_map]
    have hsorted := (sortBy_perm StagedRecord.ordinal (db.records.filter fun r =>
      r.sessionId = session.id ∧ r.profileId = profileId ∧ r.sectionName = s.name))
    refine (hsorted.map _).nodup_iff.mpr ?_
    have hkeys := List.pairwise_map.mp h.distinct
    refine List.pairwise_map.mpr ((hkeys.filter _).imp_of_mem ?_)
    intro r r' hr hr' hne hitem
    have hr := of_decide_eq_true (List.mem_filter.mp hr).2
    have hr' := of_decide_eq_true (List.mem_filter.mp hr').2
    have hid : r.stableId = r'.stableId := congrArg PlanItem.id hitem
    exact hne (by rw [hr.1, hr'.1, hr.2.2, hr'.2.2, hid])
  · refine (List.pairwise_map.mp nodup_sectionNames).imp fun hname item hitem hitem' => ?_
    obtain ⟨r, hr, rfl⟩ := List.mem_map.mp hitem
    obtain ⟨r', hr', heq⟩ := List.mem_map.mp hitem'
    obtain ⟨rfl, -⟩ := mem_recordsOf hr
    obtain ⟨rfl, -⟩ := mem_recordsOf hr'
    exact hname (congrArg PlanItem.sectionName heq).symm

/-- A row that is found is one of the table. -/
theorem mem_of_existingRow {tables : Tables} {s : PortableSection} {stableId : JsString} {row : Json}
    (h : existingRow pg tables profileId s stableId = .ok (some row)) : row ∈ tables s.table := by
  unfold existingRow at h
  split at h
  · split at h
    · obtain ⟨_, -, h⟩ := bind_eq_ok.mp h
      obtain ⟨_, -, h⟩ := bind_eq_ok.mp h
      exact List.mem_of_find?_eq_some (Except.ok.inj h)
    · cases h
  split at h
  · obtain ⟨_, -, h⟩ := bind_eq_ok.mp h
    exact List.mem_of_find?_eq_some (Except.ok.inj h)
  split at h
  · exact List.mem_of_find?_eq_some (Except.ok.inj h)
  split at h
  · exact List.mem_of_find?_eq_some (Except.ok.inj h)
  · obtain ⟨_, -, h⟩ := bind_eq_ok.mp h
    exact List.mem_of_find?_eq_some (Except.ok.inj h)

/-- Each staged record is missing, in conflict or restored already. -/
def Planned (tables : Tables) (plan : RestorePlan) (r : Staged) : Prop :=
  planItem r ∈ plan.missing ∨ plan.conflicts ≠ [] ∨ IsRestored tables r

theorem Planned.add {tables : Tables} {plan : RestorePlan} {r : Staged} (h : Planned tables plan r)
    (q : Staged) (current : Option Json) : Planned tables (plan.add q current) r := by
  unfold RestorePlan.add
  rcases h with hmissing | hconflicts | hrestored
  · split
    · exact .inl (List.mem_append_left _ hmissing)
    · split <;> exact .inl hmissing
  · split
    · exact .inr (.inl hconflicts)
    · split
      · exact .inr (.inl hconflicts)
      · exact .inr (.inl (by simp))
  · exact .inr (.inr hrestored)

theorem planned_add {tables : Tables} {plan : RestorePlan} {r : Staged} {current : Option Json}
    (h : currentRecord pg tables profileId r.1 r.2.stableId = .ok current) :
    Planned tables (plan.add r current) r := by
  obtain ⟨row, hrow, h⟩ := bind_eq_ok.mp h
  cases h
  have hrow := ofDatabase_eq_ok hrow
  cases row with
  | none => exact .inl (List.mem_append_right _ (List.mem_singleton_self _))
  | some row =>
    rw [Option.map_some, RestorePlan.add]
    split
    · rename_i hcontent
      exact .inr (.inr ⟨row, mem_of_existingRow hrow, hcontent.symm⟩)
    · exact .inr (.inl (by simp))

/-- What a plan without conflicts says of the staged records. -/
theorem buildRestorePlan_cases (hstaged : db.WellStaged) {plan : RestorePlan}
    (h : db.buildRestorePlan pg session profileId = .ok plan) (hconflicts : plan.conflicts = []) :
    ∀ r ∈ stagedOf db session profileId, planItem r ∈ plan.missing ∨ IsRestored db.tables r := by
  have hfold : ∀ (rs : List Staged) (start : RestorePlan),
      rs.foldlM (fun plan r => do
        let current ← currentRecord pg db.tables profileId r.1 r.2.stableId
        return plan.add r current) start = .ok plan →
      ∀ r, r ∈ rs ∨ Planned db.tables start r → Planned db.tables plan r := by
    intro rs
    induction rs with
    | nil =>
      intro start h r hr
      cases h
      exact hr.resolve_left List.not_mem_nil
    | cons q rs ih =>
      intro start h r hr
      rw [List.foldlM_cons] at h
      obtain ⟨next, hnext, h⟩ := bind_eq_ok.mp h
      obtain ⟨current, hcurrent, hnext⟩ := bind_eq_ok.mp hnext
      cases hnext
      refine ih _ h r ?_
      rcases hr with hr | hr
      · rcases List.mem_cons.mp hr with rfl | hr
        · exact .inr (planned_add hcurrent)
        · exact .inl hr
      · exact .inr (hr.add q current)
  intro r hr
  obtain ⟨s, hs, hrs⟩ := List.mem_flatMap.mp hr
  have hstage : db.isStaged session profileId s.name = true := by
    obtain ⟨-, hrecord, hsession, hprofile, hname⟩ := mem_recordsOf hrs
    obtain ⟨t, ht, hkey⟩ := hstaged.staged _ hrecord
    refine List.any_eq_true.mpr ⟨t, ht, decide_eq_true ?_⟩
    rw [hkey.1, hkey.2.1, hkey.2.2]
    exact ⟨hsession, hprofile, hname⟩
  have hmem : r ∈ (portableSections.filter fun s => db.isStaged session profileId s.name).flatMap
      (db.recordsOf session profileId) :=
    List.mem_flatMap.mpr ⟨s, List.mem_filter.mpr ⟨hs, hstage⟩, hrs⟩
  rcases hfold _ _ h r (.inl hmem) with hmissing | hne | hrestored
  · exact .inl hmissing
  · exact absurd hconflicts hne
  · exact .inr hrestored

end Plan

/-! ### The commit -/

section Commit

variable {pg : Postgres} {isKey : String → JsString → Prop} {db : Db} {session : RestoreSession}
  {profileId : JsString} {plan : RestorePlan}

theorem mem_missingRecords {r : Staged} : r ∈ db.missingRecords session profileId plan ↔
    r ∈ stagedOf db session profileId ∧ planItem r ∈ plan.missing := by
  rw [missingRecords, List.mem_filter, decide_eq_true_eq]
  rfl

/-- A commit restores every staged record exactly when the missing ones fit. -/
theorem restored_iff_allFit (hkeys : pg.Keys isKey) (hstaged : db.WellStaged)
    (hform : KeysInForm isKey db.tables)
    (hplan : db.buildRestorePlan pg session profileId = .ok plan) (hconflicts : plan.conflicts = [])
    {tables : Tables} {inserted : ℕ}
    (hinserts : (db.missingRecords session profileId plan).foldlM (insertRecord pg) (db.tables, 0) =
      .ok (tables, inserted)) :
    (∀ r ∈ stagedOf db session profileId, IsRestored tables r) ↔
      pg.AllFit db.tables (db.missingRecords session profileId plan) := by
  constructor
  · intro hrestored
    refine allFit_of_isRestored hkeys hform ?_ ?_ ?_ ?_ hinserts ?_
    · exact fun r hr => (mem_stagedOf (mem_missingRecords.mp hr).1).1
    · exact fun r hr => hstaged.readable _ (mem_stagedOf (mem_missingRecords.mp hr).1).2.1
    · intro r hr
      obtain ⟨-, hrecord, -, -, hname⟩ := mem_stagedOf (mem_missingRecords.mp hr).1
      rw [← hname]
      exact hstaged.identity _ hrecord
    · exact (nodup_stagedOf hstaged).sublist (List.filter_sublist.map planItem)
    · exact fun r hr => hrestored r (mem_missingRecords.mp hr).1
  · intro hfit r hr
    rcases buildRestorePlan_cases hstaged hplan hconflicts r hr with hmissing | hrestored
    · exact isRestored_of_allFit hinserts hfit (mem_missingRecords.mpr ⟨hr, hmissing⟩)
    · exact hrestored.mono (grow_insertRecords hinserts)

/-- The identities of the rows stay in form through a commit. -/
theorem keysInForm_commit (hkeys : pg.Keys isKey) (hstaged : db.WellStaged)
    (hform : KeysInForm isKey db.tables) {tables : Tables} {inserted : ℕ}
    (hinserts : (db.missingRecords session profileId plan).foldlM (insertRecord pg) (db.tables, 0) =
      .ok (tables, inserted)) : KeysInForm isKey tables := by
  refine KeysInForm.insertRecords hform hkeys ?_ ?_ hinserts
  · exact fun r hr => (mem_stagedOf (mem_missingRecords.mp hr).1).1
  · exact fun r hr => hstaged.readable _ (mem_stagedOf (mem_missingRecords.mp hr).1).2.1

/-- Every call keeps the identities of the rows in form, if those who write do. -/
theorem keysInForm_step (sha256 : JsString → JsString) (hkeys : pg.Keys isKey) {s : System}
    (hstaged : s.db.WellStaged) (hform : KeysInForm isKey s.db.tables) (c : Call)
    (hwrites : ∀ tables serverSeq, c = .write tables serverSeq → KeysInForm isKey tables) :
    KeysInForm isKey (step sha256 pg s c).2.db.tables := by
  have transaction {α : Type} (wrap : α → Response) (run : Except Raised (α × Db))
      (hrun : ∀ a db', run = .ok (a, db') → KeysInForm isKey db'.tables) :
      KeysInForm isKey (s.inTransaction wrap run).2.db.tables := by
    cases run with
    | error e => exact hform
    | ok result => exact hrun result.1 result.2 rfl
  cases c with
  | create profileId id input =>
    refine transaction _ _ fun r db' hcall => ?_
    obtain ⟨request, -, hcall⟩ := createRestoreSession_eq_ok hcall
    rcases findOrCreate_eq_ok hcall with ⟨_, -, -, -, rfl⟩ | ⟨-, -, rfl⟩ | ⟨-, -, -, rfl⟩ <;>
      exact hform
  | upload profileId sessionId sectionName text =>
    refine transaction _ _ fun r db' hcall => ?_
    obtain ⟨_, _, -, -, -, -, ⟨_, -, rfl⟩ | ⟨-, rfl⟩⟩ := uploadRestoreSection_eq_ok hcall <;>
      exact hform
  | preview profileId sessionId =>
    refine transaction _ _ fun r db' hcall => ?_
    rcases previewRestore_eq_ok hcall with rfl | ⟨_, _, -, -, rfl⟩ <;> exact hform
  | commit profileId sessionId previewRevision =>
    refine transaction _ _ fun r db' hcall => ?_
    obtain ⟨session, -, ⟨_, -, -, rfl⟩ | ⟨-, -, _, _, _, -, -, -, hinserts, -, rfl⟩⟩ :=
      commitRestore_eq_ok hcall
    · exact hform
    · exact keysInForm_commit hkeys hstaged hform hinserts
  | cancel profileId sessionId =>
    refine transaction _ _ fun r db' hcall => ?_
    obtain ⟨session, -, -, rfl⟩ := cancelRestore_eq_ok hcall
    exact hform
  | write tables serverSeq => exact hwrites tables serverSeq rfl
  | advance milliseconds => exact hform

end Commit

/-! ### Every commit of a run -/

/-- What holds at a commit. -/
structure CommitExact (pg : Postgres) (e : RestoreEvent) (profileId sessionId : JsString) : Prop where
  /-- Every row that was there stays as it is. -/
  keeps : Tables.Grow e.before.db.tables e.after.db.tables
  /-- A commit that fails changes nothing. -/
  failed : ∀ raised, e.result = .error raised → e.after = e.before
  /-- A commit of a committed session returns its result and changes nothing. -/
  again : ∀ session, e.before.db.loadSession e.before.now profileId sessionId = .ok session →
    session.state = .committed →
    ∃ r, e.result = .ok (.committed r) ∧ session.result = some r.result ∧ e.after = e.before
  /-- A commit that succeeds restores every staged record exactly when the missing ones fit. -/
  restores : ∀ r, e.result = .ok (.committed r) → r.idempotent = false →
    ∃ session plan, e.before.db.loadSession e.before.now profileId sessionId = .ok session ∧
      e.before.db.buildRestorePlan pg session profileId = .ok plan ∧
      ((∀ staged ∈ stagedOf e.before.db session profileId, IsRestored e.after.db.tables staged) ↔
        pg.AllFit e.before.db.tables (e.before.db.missingRecords session profileId plan))

/-- The database is consistent, with the staged records and the identities of the rows in order. -/
structure System.Sound (isKey : String → JsString → Prop) (s : System) : Prop where
  consistent : s.db.Consistent
  staged : s.db.WellStaged
  form : KeysInForm isKey s.db.tables

theorem System.start_sound {isKey : String → JsString → Prop} {tables : Tables}
    (hform : KeysInForm isKey tables) (serverSeq : JsString → ℕ) (now : ℤ) :
    (System.start tables serverSeq now).Sound isKey where
  consistent := System.start_consistent tables serverSeq now
  staged := {
    distinct := List.nodup_nil
    readable := fun _ hr => absurd hr List.not_mem_nil
    identity := fun _ hr => absurd hr List.not_mem_nil
    staged := fun _ hr => absurd hr List.not_mem_nil }
  form := hform

theorem commitExact_of_sound (sha256 : JsString → JsString) {pg : Postgres}
    {isKey : String → JsString → Prop} (hkeys : pg.Keys isKey) {s : System} (h : s.Sound isKey)
    (profileId sessionId : JsString) (previewRevision : Option JsString) :
    CommitExact pg (eventOf (step sha256 pg) s (.commit profileId sessionId previewRevision))
      profileId sessionId := by
  let run := s.db.commitRestore pg s.now profileId sessionId previewRevision
  have hstep : step sha256 pg s (.commit profileId sessionId previewRevision) =
      s.inTransaction .committed run := rfl
  refine ⟨?_, ?_, ?_, ?_⟩
  · rw [eventOf_before, eventOf_after, hstep]
    cases hrun : run with
    | error e => exact .refl _
    | ok result =>
      obtain ⟨session, -, ⟨_, -, -, hdb⟩ | ⟨-, -, _, _, _, -, -, -, hinserts, -, hdb⟩⟩ :=
        commitRestore_eq_ok hrun
      · rw [System.inTransaction, hdb]
        exact .refl _
      · rw [System.inTransaction, hdb]
        exact grow_insertRecords hinserts
  · intro raised hresult
    rw [eventOf_result, hstep] at hresult
    rw [eventOf_after, hstep]
    cases hrun : run with
    | error e => rfl
    | ok result =>
      rw [hrun] at hresult
      cases hresult
  · intro session hload hstate
    obtain ⟨hmem, rfl, -⟩ := loadSession_eq_ok hload
    obtain ⟨l, hl, hprofile, hbackup⟩ := h.consistent.session_ledger session hmem hstate
    have hsome : (s.db.committed? session.profileId session.backupId).isSome := by
      rw [committed?, List.find?_isSome]
      exact ⟨l, hl, decide_eq_true ⟨hprofile, hbackup⟩⟩
    obtain ⟨l, hl⟩ := Option.isSome_iff_exists.mp hsome
    have hload : s.db.loadSession s.now session.profileId sessionId = .ok session := hload
    have hrun : run = .ok (⟨session.committedResponse, l.result, true⟩, s.db) := by
      simp only [run]
      rw [commitRestore, hload, ok_bind, hl]
      rfl
    refine ⟨_, by rw [eventOf_result, hstep, hrun, System.inTransaction], ?_, ?_⟩
    · exact (h.consistent.committed_of_ledger hmem hl).2
    · rw [eventOf_after, hstep, hrun]
      rfl
  · intro r hresult hfresh
    obtain ⟨r', db', hrun, hr, hafter⟩ := inTransaction_eq_ok hresult
    cases hr
    obtain ⟨session, hload, ⟨_, -, rfl, -⟩ |
      ⟨-, -, plan, tables, inserted, hplan, -, hconflicts, hinserts, -, rfl⟩⟩ :=
      commitRestore_eq_ok hrun
    · cases hfresh
    refine ⟨session, plan, hload, hplan, ?_⟩
    rw [eventOf_after, hstep, hafter]
    exact restored_iff_allFit hkeys h.staged h.form hplan hconflicts hinserts

/-- **What a commit restores**: at every commit of every run, the rows that were there stay, a failure
changes nothing, a second commit returns what is stored, and every staged record is restored exactly
when each missing one fits at its turn. -/
theorem restore_exact (sha256 : JsString → JsString) {pg : Postgres}
    {isKey : String → JsString → Prop} (hkeys : pg.Keys isKey) {tables : Tables}
    (hform : KeysInForm isKey tables) (serverSeq : JsString → ℕ) (now : ℤ) {calls : List Call}
    (hwrites : ∀ tables serverSeq, .write tables serverSeq ∈ calls → KeysInForm isKey tables) :
    ∀ e ∈ trace (step sha256 pg) (.start tables serverSeq now) calls,
      ∀ profileId sessionId previewRevision,
        e.call = .commit profileId sessionId previewRevision →
          CommitExact pg e profileId sessionId := by
  intro e he profileId sessionId previewRevision hcall
  obtain ⟨earlier, later, hcalls, hevent⟩ := exists_of_mem_trace he
  have hsound : (final (step sha256 pg) (.start tables serverSeq now) earlier).Sound isKey := by
    refine @invariant_of_final _ _ _ (step sha256 pg) _ earlier (fun s => s.Sound isKey)
      (System.start_sound hform serverSeq now) fun c hc s hs => ?_
    refine ⟨(step_keeps sha256 pg hs.consistent c).1, wellStaged_step sha256 hkeys.keepsJson hs.staged c,
      keysInForm_step sha256 hkeys hs.staged hs.form c ?_⟩
    rintro tables serverSeq rfl
    exact hwrites tables serverSeq (hcalls ▸ List.mem_append_left _ hc)
  rw [hevent, hcall]
  exact commitExact_of_sound sha256 hkeys hsound profileId sessionId previewRevision

/-! ### Identities -/

/-- The columns that identities are made of. -/
def identityColumns : List String := ["source_key", "transaction_id", "tag_id", "profile_id", "id"]

theorem identityColumns_kept : ∀ column ∈ identityColumns, isExcluded (js column) = false ∧
    isColumnName (js column) = true ∧ isDropped (js column) = false := by
  decide +kernel

theorem stableId_congr {sectionName : String} {record record' : Json} (n : ℕ)
    (h : ∀ column ∈ identityColumns, property? record column = property? record' column) :
    stableId sectionName record n = stableId sectionName record' n := by
  unfold stableId truthy?
  rw [h "source_key" (by decide), h "transaction_id" (by decide), h "tag_id" (by decide),
    h "profile_id" (by decide), h "id" (by decide)]

/-- The columns that are inserted keep the identity of a record. -/
theorem identityOf_insertFields {record : Json} (hrecord : Json.Readable record)
    (sectionName : String) : identityOf sectionName (contentOf (.obj (insertFields record))) =
      identityOf sectionName (canonicalJson record) := by
  have hfields : Json.Readable (.obj (insertFields record)) ∧ ∀ column ∈ identityColumns,
      property? (.obj (insertFields record)) column = property? record column := by
    cases hrecord with
    | obj fields hnodup hfields =>
      have hsub := (List.filter_sublist (p := fun f : JsString × Json =>
        isColumnName f.1 && !isExcluded f.1) (l := fields))
      have hnodup' := hnodup.sublist (hsub.map Prod.fst)
      refine ⟨.obj _ ?_ ?_, ?_⟩
      · exact ((Json.perm_sortFields _).map Prod.fst).nodup_iff.mpr hnodup'
      · exact fun f hf => hfields f (hsub.subset ((Json.perm_sortFields _).mem_iff.mp hf))
      · intro column hcolumn
        obtain ⟨hexcluded, hname, -⟩ := identityColumns_kept column hcolumn
        exact (fieldOf_perm (Json.perm_sortFields _).symm hnodup').symm.trans
          (fieldOf_filter fun v => by simp [hexcluded, hname])
    | _ => exact ⟨.obj [] List.nodup_nil (by simp), fun _ _ => rfl⟩
  have hrow := readable_portableRecord hfields.1
  rw [identityOf, identityOf, contentOf, parse_canonicalJson hrow,
    parse_canonicalJson hrecord, Option.bind_some, Option.bind_some]
  refine congrArg Except.toOption (stableId_congr 0 fun column hcolumn => ?_)
  obtain ⟨hexcluded, -, hdropped⟩ := identityColumns_kept column hcolumn
  rw [property?_canonical hrow hdropped, property?_canonical hrecord hdropped,
    property?_portableRecord hexcluded, hfields.2 column hcolumn]

section Tags

/-- The section whose rows are in a table. -/
def sectionOf (table : String) : Option PortableSection :=
  portableSections.find? fun s => s.table = table

/-- Two tags of a profile that are in use have one name. -/
def sameActiveName (row row' : Json) : Bool :=
  columnText row "profile_id" = columnText row' "profile_id" &&
    columnText row "normalized_name" = columnText row' "normalized_name" &&
    (property? row "archived_at").all Json.isNull && (property? row' "archived_at").all Json.isNull

/-- A database that stores rows as they are, under their primary keys, and in which no two tags in use
have one name. -/
def tagPostgres : Postgres where
  jsonb := fun value => value
  toKey := fun _ _ text => .ok text
  rowOf := fun _ table fields =>
    if ((sectionOf table).bind fun s => identityOf s.name (contentOf (.obj fields))).isSome then
      .ok (.obj fields)
    else .error "null value in a column of the primary key"
  collides := fun table row row' =>
    (sectionOf table).any (fun s => orderKey s row = orderKey s row') ||
      (table = "transaction_tags" && sameActiveName row row')
  references := fun _ _ _ => .ok ()

/-- A tag of Meera for her travels. -/
def travelTag (id : String) : Json :=
  .obj [(js "id", .str (js id)), (js "profile_id", .str meera), (js "name", .str (js "Travel")),
    (js "normalized_name", .str (js "travel")), (js "color", .null), (js "archived_at", .null)]

/-- She has made her tag anew. -/
def tagTables (table : String) : List Json :=
  if table = "transaction_tags" then [travelTag "77777777-7777-4777-8777-777777777777"] else []

def tagDigest : JsString := js "e3b0c44298fc1c149afbf4c8996fb92427ae41e4649b934ca495991b7852b855"

/-- The tag that is in the backup. -/
def tagText : JsString := canonicalJson (travelTag "66666666-6666-4666-8666-666666666666") ++ js "\n"

def tagManifest : Manifest :=
  { meeraManifest with
    sections := portableSections.map fun s =>
      if s.name = "transaction_tags" then
        (s.name, ⟨some 1, some (utf8Length tagText), some tagDigest⟩)
      else (s.name, ⟨some 0, some 0, some tagDigest⟩) }

def tagSession : JsString := js "44444444-4444-4444-8444-444444444444"

def tagCommit : Call := .commit meera tagSession (some (js "42"))

/-- The backup is uploaded and looked at. -/
def tagUploads : List Call :=
  [.create meera tagSession ⟨none, some (js "first"), none, some tagManifest⟩] ++
    portableSections.map (fun s =>
      .upload meera tagSession s.name (if s.name = "transaction_tags" then tagText else [])) ++
    [.preview meera tagSession]

/-- Rows are stored under the identities of their records. -/
theorem tagPostgres_keys : tagPostgres.Keys fun _ _ => True where
  keepsJson := fun _ hvalue => ⟨hvalue, rfl⟩
  rowKey := by
    intro s hs tables record row hrecord hrow
    have hsection : ∀ s ∈ portableSections,
        (sectionOf s.table).map PortableSection.name = some s.name := by decide
    have hidentity : ∀ row, (sectionOf s.table).bind (fun t => identityOf t.name (contentOf row)) =
        identityOf s.name (contentOf row) := by
      intro row
      obtain ⟨t, ht, hname⟩ := Option.map_eq_some_iff.mp (hsection s hs)
      rw [ht, Option.bind_some, hname]
    simp only [tagPostgres, hidentity] at hrow
    split at hrow
    · rename_i hkey
      cases hrow
      obtain ⟨key, hkey⟩ := Option.isSome_iff_exists.mp hkey
      refine ⟨key, hkey, trivial, fun id hid _ => ?_⟩
      rw [identityOf_insertFields hrecord, hid] at hkey
      exact (Option.some.inj hkey).symm
    · cases hrow

theorem tagTables_keys : KeysInForm (fun _ _ => True) tagTables := by
  have hkeys : ∀ s ∈ portableSections, ∀ row ∈ tagTables s.table,
      (identityOf s.name (contentOf row)).isSome = true := by
    decide +kernel
  intro s hs row hrow
  obtain ⟨key, hkey⟩ := Option.isSome_iff_exists.mp (hkeys s hs row hrow)
  exact ⟨key, hkey, trivial⟩

theorem tagUploads_write : ∀ tables serverSeq, .write tables serverSeq ∉ tagUploads ++ [tagCommit] := by
  simp [tagUploads, tagCommit]

/-- The restore of the example. -/
theorem restore_exact_tags :
    (trace (step (fun _ => tagDigest) tagPostgres) (.start tagTables (fun _ => 42) 0)
      (tagUploads ++ [tagCommit])).Forall fun e => ∀ profileId sessionId previewRevision,
        e.call = .commit profileId sessionId previewRevision →
          CommitExact tagPostgres e profileId sessionId :=
  List.forall_iff_forall_mem.mpr <|
    restore_exact (fun _ => tagDigest) tagPostgres_keys tagTables_keys (fun _ => 42) 0
      fun tables serverSeq hcall => absurd hcall (tagUploads_write tables serverSeq)

/-- Whether a commit succeeds and leaves some staged record without a row. -/
def losesRecord (e : RestoreEvent) (profileId sessionId : JsString) : Bool :=
  match e.result, e.before.db.loadSession e.before.now profileId sessionId with
  | .ok (.committed r), .ok session => !r.idempotent &&
    (stagedOf e.before.db session profileId).any fun staged =>
      (e.after.db.tables staged.1.table).all fun row =>
        contentOf row ≠ canonicalJson staged.2.record
  | _, _ => false

/-- The tag of the backup has the name of one that was made anew: its insert is skipped, and the commit
reports success. -/
theorem not_restores_all :
    ¬ ∀ (sha256 : JsString → JsString) (pg : Postgres) (isKey : String → JsString → Prop)
      (tables : Tables) (serverSeq : JsString → ℕ) (now : ℤ) (calls : List Call),
      pg.Keys isKey → KeysInForm isKey tables →
      (∀ tables serverSeq, .write tables serverSeq ∉ calls) →
      ∀ e ∈ trace (step sha256 pg) (.start tables serverSeq now) calls,
        ∀ profileId sessionId previewRevision r session,
          e.call = .commit profileId sessionId previewRevision →
          e.result = .ok (.committed r) → r.idempotent = false →
          e.before.db.loadSession e.before.now profileId sessionId = .ok session →
          ∀ staged ∈ stagedOf e.before.db session profileId, IsRestored e.after.db.tables staged := by
  intro h
  let run := step (fun _ => tagDigest) tagPostgres
  let start := System.start tagTables (fun _ => 42) 0
  let e := eventOf run (final run start tagUploads) tagCommit
  have hevent : e ∈ trace run start (tagUploads ++ [tagCommit]) :=
    eventOf_mem_trace start tagUploads tagCommit []
  have hloses : losesRecord e meera tagSession = true := by decide +kernel
  unfold losesRecord at hloses
  split at hloses
  · rename_i r session hresult hload
    obtain ⟨hfresh, hloses⟩ := (Bool.and_eq_true _ _).mp hloses
    obtain ⟨staged, hstaged, hlost⟩ := List.any_eq_true.mp hloses
    obtain ⟨row, hrow, hcontent⟩ := h _ _ _ _ _ _ _ tagPostgres_keys tagTables_keys
      tagUploads_write e hevent _ _ _ r session rfl hresult (by simpa using hfresh) hload staged hstaged
    exact of_decide_eq_true (List.all_eq_true.mp hlost row hrow) hcontent
  · cases hloses

end Tags

end PandaPay.PortableBackup
