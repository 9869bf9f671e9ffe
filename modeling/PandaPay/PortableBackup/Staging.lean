import PandaPay.Json.Accepted
import PandaPay.PortableBackup.Calls
import PandaPay.PortableBackup.Canonical

/-!
# The staged records

What `parseSectionNdjson` returns are readable records with distinct identities, and so are the
records that a session has staged: whatever else happens, they stay as they were uploaded.

## Main definitions

* `identityOf`: the identity that a record has by its canonical text
* `Reads`: the records of a section that was read
* `Postgres.KeepsJson`: what a `jsonb` column does with a value
* `Db.WellStaged`: the invariant of the staging tables

## Main results

* `parseSectionNdjson_sound`: what is read from a section
* `Db.wellStaged_step`: every call keeps the staging tables well
-/

namespace PandaPay.PortableBackup

open Json

/-- The identity that a record of a section has by its canonical text. -/
def identityOf (sectionName : String) (text : JsString) : Option JsString :=
  (Json.parse text).bind fun value => (stableId sectionName value 0).toOption

/-- The place of a record only shows in errors. -/
theorem stableId_ordinal {sectionName : String} {record : Json} {n : ℕ} {id : JsString}
    (h : stableId sectionName record n = .ok id) (m : ℕ) :
    stableId sectionName record m = .ok id := by
  unfold stableId at h ⊢
  split
  · rename_i hname
    rwa [if_pos hname] at h
  rename_i hname
  rw [if_neg hname] at h
  split
  · rename_i hname
    rwa [if_pos hname] at h
  rename_i hname
  rw [if_neg hname] at h
  split
  · rename_i hname
    rw [if_pos hname] at h
    split at h
    · exact h
    · cases h
  · rename_i hname
    rw [if_neg hname] at h
    split at h
    · split at h
      · cases h
      · rename_i hne
        rwa [if_neg hne]
    · cases h

/-! ### What is read -/

/-- Records that were read: readable, each under the identity it has, and no two under one. -/
structure Reads (sectionName : String) (records : List ParsedRecord) : Prop where
  distinct : (records.map ParsedRecord.stableId).Nodup
  readable : ∀ r ∈ records, Readable r.record
  identity : ∀ r ∈ records, identityOf sectionName (canonicalJson r.record) = some r.stableId

section Read

variable {sha256 : JsString → JsString} {sectionName : String} {profileId : JsString}

theorem readable_of_lineRecord {n : ℕ} {parsed record : Json} (hparsed : Readable parsed)
    (h : lineRecord sectionName n parsed = .ok record) : Readable record := by
  unfold lineRecord at h
  split at h
  · split at h
    · obtain ⟨-, h⟩ := failIf_bind_eq_ok.mp h
      split at h
      · rename_i value hvalue
        cases h
        cases hparsed with
        | obj fields hnodup hfields =>
          exact hfields _ ((fieldOf_eq_some hnodup).mp hvalue)
        | _ => cases hvalue
      · cases h
    · cases h
      exact hparsed
  · cases h
    exact hparsed

/-- A record in canonical form has the identity of its text. -/
theorem normalizeRecord_eq_ok {record : Json} {n : ℕ} {canonical : Json} {id : JsString}
    (hrecord : Readable record)
    (h : normalizeRecord record profileId sectionName n = .ok (canonical, id)) :
    Readable canonical ∧ identityOf sectionName (canonicalJson canonical) = some id := by
  unfold normalizeRecord at h
  split at h
  · obtain ⟨-, h⟩ := failIf_bind_eq_ok.mp h
    rw [parse_canonicalJson hrecord] at h
    obtain ⟨id', hid, h⟩ := bind_eq_ok.mp h
    cases h
    refine ⟨readable_of_parse (parse_canonicalJson hrecord), ?_⟩
    rw [canonicalJson_canonical hrecord, identityOf, parse_canonicalJson hrecord, Option.bind_some,
      stableId_ordinal hid 0]
    rfl
  · cases h

theorem reads_readLine {reading reading' : Reading} {line : JsString × ℕ}
    (hreading : Reads sectionName reading.records)
    (h : readLine sha256 sectionName profileId reading line = .ok reading') :
    Reads sectionName reading'.records := by
  unfold readLine at h
  split at h
  · cases h
    exact hreading
  split at h
  · cases h
  rename_i parsed hparsed
  obtain ⟨record, hrecord, h⟩ := bind_eq_ok.mp h
  obtain ⟨⟨canonical, id⟩, hnormal, h⟩ := bind_eq_ok.mp h
  obtain ⟨hnew, h⟩ := failIf_bind_eq_ok.mp h
  obtain ⟨-, h⟩ := failIf_bind_eq_ok.mp h
  cases h
  obtain ⟨hreadable, hidentity⟩ := normalizeRecord_eq_ok
    (readable_of_lineRecord (readable_of_parse hparsed) hrecord) hnormal
  refine ⟨?_, ?_, ?_⟩
  · rw [List.map_append, List.map_singleton]
    refine List.nodup_append.mpr ⟨hreading.distinct, List.nodup_singleton _, ?_⟩
    rintro _ hmem _ hid rfl
    rw [List.mem_singleton.mp hid] at hmem
    exact hnew hmem
  · exact List.forall_mem_append.mpr
      ⟨hreading.readable, List.forall_mem_singleton.mpr hreadable⟩
  · exact List.forall_mem_append.mpr
      ⟨hreading.identity, List.forall_mem_singleton.mpr hidentity⟩

/-- What is read from a section. -/
theorem parseSectionNdjson_sound {text : JsString} {parsed : ParsedSection}
    (h : parseSectionNdjson sha256 text sectionName profileId = .ok parsed) :
    Reads sectionName parsed.records := by
  obtain ⟨-, h⟩ := failIf_bind_eq_ok.mp h
  obtain ⟨-, h⟩ := failIf_bind_eq_ok.mp h
  obtain ⟨-, h⟩ := failIf_bind_eq_ok.mp h
  obtain ⟨reading, hreading, h⟩ := bind_eq_ok.mp h
  cases h
  have hfold : ∀ (lines : List (JsString × ℕ)) (start : Reading), Reads sectionName start.records →
      lines.foldlM (readLine sha256 sectionName profileId) start = .ok reading →
      Reads sectionName reading.records := by
    intro lines
    induction lines with
    | nil =>
      intro start hstart h
      cases h
      exact hstart
    | cons line lines ih =>
      intro start hstart h
      rw [List.foldlM_cons] at h
      obtain ⟨next, hnext, h⟩ := bind_eq_ok.mp h
      exact ih next (reads_readLine hstart hnext) h
  refine hfold _ _ ⟨?_, ?_, ?_⟩ hreading
  · exact List.nodup_nil
  · exact fun r hr => absurd hr List.not_mem_nil
  · exact fun r hr => absurd hr List.not_mem_nil

end Read

/-! ### What is staged -/

/-- What a `jsonb` column makes of a value has the same text in canonical form. -/
def Postgres.KeepsJson (pg : Postgres) : Prop :=
  ∀ value, Readable value →
    Readable (pg.jsonb value) ∧ canonicalJson (pg.jsonb value) = canonicalJson value

namespace Db

/-- The staged records are readable, each under the identity it has, no two of a section under one,
and their sections are staged. -/
structure WellStaged (db : Db) : Prop where
  distinct : (db.records.map fun r => (r.sessionId, r.sectionName, r.stableId)).Nodup
  readable : ∀ r ∈ db.records, Readable r.record
  identity : ∀ r ∈ db.records, identityOf r.sectionName (canonicalJson r.record) = some r.stableId
  staged : ∀ r ∈ db.records, ∃ s ∈ db.sections,
    s.sessionId = r.sessionId ∧ s.profileId = r.profileId ∧ s.sectionName = r.sectionName

variable {sha256 : JsString → JsString} {pg : Postgres} {db db' : Db} {now : ℤ}
  {profileId sessionId : JsString}

theorem WellStaged.congr (h : db.WellStaged) (hsections : db'.sections = db.sections)
    (hrecords : db'.records = db.records) : db'.WellStaged := by
  obtain ⟨hdistinct, hreadable, hidentity, hstaged⟩ := h
  rw [← hrecords] at hdistinct hreadable hidentity hstaged
  rw [← hsections] at hstaged
  exact ⟨hdistinct, hreadable, hidentity, hstaged⟩

theorem wellStaged_upload (hpg : pg.KeepsJson) (h : db.WellStaged) {sectionName : String}
    {text : JsString} {r : UploadResponse}
    (hcall : db.uploadRestoreSection sha256 pg.jsonb now profileId sessionId sectionName text =
      .ok (r, db')) : db'.WellStaged := by
  obtain ⟨session, parsed, -, -, hparsed, -, ⟨_, -, rfl⟩ | ⟨hnew, rfl⟩⟩ :=
    uploadRestoreSection_eq_ok hcall
  · exact h
  have hreads := parseSectionNdjson_sound hparsed
  -- the session has no record of the section yet
  have hfresh : ∀ r ∈ db.records, ¬ (r.sessionId = session.id ∧ r.sectionName = sectionName) := by
    rintro r hr ⟨hsession, hsection⟩
    obtain ⟨s, hs, hid, -, hname⟩ := h.staged r hr
    have := List.find?_eq_none.mp hnew s hs
    simp [hid, hname, hsession, hsection] at this
  have hadded : ∀ r ∈ stagedRecords pg.jsonb session.id profileId sectionName parsed,
      r.sessionId = session.id ∧ r.profileId = profileId ∧ r.sectionName = sectionName ∧
        ∃ p ∈ parsed.records, r.stableId = p.stableId ∧ r.record = pg.jsonb p.record := by
    intro r hr
    obtain ⟨p, hp, rfl⟩ := List.mem_map.mp hr
    exact ⟨rfl, rfl, rfl, p, hp, rfl, rfl⟩
  refine ⟨?_, List.forall_mem_append.mpr ⟨h.readable, fun r hr => ?_⟩,
    List.forall_mem_append.mpr ⟨h.identity, fun r hr => ?_⟩,
    List.forall_mem_append.mpr ⟨fun r hr => ?_, fun r hr => ?_⟩⟩
  · rw [List.map_append, List.nodup_append]
    refine ⟨h.distinct, ?_, ?_⟩
    · have hkeys : (stagedRecords pg.jsonb session.id profileId sectionName parsed).map
          (fun r => (r.sessionId, r.sectionName, r.stableId)) =
          (parsed.records.map ParsedRecord.stableId).map fun id =>
            (session.id, sectionName, id) := by
        rw [stagedRecords, List.map_map, List.map_map]
        rfl
      rw [hkeys]
      exact hreads.distinct.map fun _ _ heq => (Prod.mk.inj (Prod.mk.inj heq).2).2
    · intro key hkey key' hkey' heq
      obtain ⟨r, hr, rfl⟩ := List.mem_map.mp hkey
      obtain ⟨r', hr', rfl⟩ := List.mem_map.mp hkey'
      obtain ⟨hsession, -, hsection, -⟩ := hadded r' hr'
      obtain ⟨hsession', hrest⟩ := Prod.mk.inj heq
      exact hfresh r hr ⟨hsession'.trans hsession, (Prod.mk.inj hrest).1.trans hsection⟩
  · obtain ⟨-, -, -, p, hp, -, hrecord⟩ := hadded r hr
    rw [hrecord]
    exact (hpg p.record (hreads.readable p hp)).1
  · obtain ⟨-, -, hsection, p, hp, hid, hrecord⟩ := hadded r hr
    rw [hrecord, hsection, hid, (hpg p.record (hreads.readable p hp)).2]
    exact hreads.identity p hp
  · obtain ⟨s, hs, hkey⟩ := h.staged r hr
    exact ⟨s, List.mem_append_left _ hs, hkey⟩
  · obtain ⟨hsession, hprofile, hsection, -⟩ := hadded r hr
    exact ⟨_, List.mem_append_right _ (List.mem_singleton_self _), hsession.symm, hprofile.symm,
      hsection.symm⟩

/-- Every call keeps the staging tables well. -/
theorem wellStaged_step (sha256 : JsString → JsString) (hpg : pg.KeepsJson) {s : System}
    (h : s.db.WellStaged) (c : Call) : (step sha256 pg s c).2.db.WellStaged := by
  have transaction {α : Type} (wrap : α → Response) (run : Except Raised (α × Db))
      (hrun : ∀ a db', run = .ok (a, db') → db'.WellStaged) :
      (s.inTransaction wrap run).2.db.WellStaged := by
    cases run with
    | error e => exact h
    | ok result => exact hrun result.1 result.2 rfl
  cases c with
  | create profileId id input =>
    refine transaction _ _ fun r db' hcall => ?_
    obtain ⟨request, -, hcall⟩ := createRestoreSession_eq_ok hcall
    rcases findOrCreate_eq_ok hcall with ⟨_, -, -, -, rfl⟩ | ⟨-, -, rfl⟩ | ⟨-, -, -, rfl⟩
    · exact h
    · exact h
    · exact h.congr rfl rfl
  | upload profileId sessionId sectionName text =>
    exact transaction _ _ fun _ _ hcall => wellStaged_upload hpg h hcall
  | preview profileId sessionId =>
    refine transaction _ _ fun r db' hcall => ?_
    rcases previewRestore_eq_ok hcall with rfl | ⟨_, _, -, -, rfl⟩
    · exact h
    · exact h.congr rfl rfl
  | commit profileId sessionId previewRevision =>
    refine transaction _ _ fun r db' hcall => ?_
    obtain ⟨session, -, ⟨_, -, -, rfl⟩ | ⟨-, -, _, _, _, -, -, -, -, -, rfl⟩⟩ :=
      commitRestore_eq_ok hcall
    · exact h
    · exact h.congr rfl rfl
  | cancel profileId sessionId =>
    refine transaction _ _ fun r db' hcall => ?_
    obtain ⟨session, -, -, rfl⟩ := cancelRestore_eq_ok hcall
    exact h.congr rfl rfl
  | write tables serverSeq => exact h.congr rfl rfl
  | advance milliseconds => exact h

end Db

end PandaPay.PortableBackup
