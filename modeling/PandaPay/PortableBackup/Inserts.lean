import PandaPay.PortableBackup.Staging

/-!
# The inserts of a commit

`INSERT … ON CONFLICT DO NOTHING` adds a row or leaves the tables as they are, and does not say which:
a record that collides with another row on any unique key is skipped. Every record is restored exactly
when each fits at its turn.

## Main definitions

* `IsRestored`: a row with the content of a record is there
* `Postgres.Fits`, `Postgres.AllFit`: a record is there, or its row is taken in as it is
* `Postgres.Keys`, `KeysInForm`: how the identities of rows relate to those of records

## Main results

* `insertRecord_eq_ok`: what an insert does
* `isRestored_of_allFit`, `allFit_of_isRestored`: records that fit are restored, and no others
-/

namespace PandaPay.PortableBackup

/-- The content of a row, as a text. -/
def contentOf (row : Json) : JsString := canonicalJson (portableRecord row)

/-- A row with the content of a staged record is there. -/
def IsRestored (tables : Tables) (r : Staged) : Prop :=
  ∃ row ∈ tables r.1.table, contentOf row = canonicalJson r.2.record

/-- The content of a staged record is there already, or the row that is made of it has this content
and collides with no other. -/
def Postgres.Fits (pg : Postgres) (tables : Tables) (r : Staged) : Prop :=
  IsRestored tables r ∨
    ∃ row, pg.rowOf tables r.1.table (insertFields r.2.record) = .ok row ∧
      (tables r.1.table).any (pg.collides r.1.table row) = false ∧
      contentOf row = canonicalJson r.2.record

/-- Each of these records fits when it is its turn. -/
def Postgres.AllFit (pg : Postgres) (tables : Tables) (rs : List Staged) : Prop :=
  ∀ earlier r later, rs = earlier ++ r :: later →
    ∀ state, earlier.foldlM (insertRecord pg) (tables, 0) = .ok state → pg.Fits state.1 r

/-- The identities of the rows are in the form that their columns show them in. -/
def KeysInForm (isKey : String → JsString → Prop) (tables : Tables) : Prop :=
  ∀ s ∈ portableSections, ∀ row ∈ tables s.table,
    ∃ key, identityOf s.name (contentOf row) = some key ∧ isKey s.name key

/-- A row is stored under an identity in the form that its columns show, and under the identity of its
record if that is in this form. -/
structure Postgres.Keys (pg : Postgres) (isKey : String → JsString → Prop) : Prop where
  keepsJson : pg.KeepsJson
  rowKey : ∀ s ∈ portableSections, ∀ tables record row, Json.Readable record →
    pg.rowOf tables s.table (insertFields record) = .ok row →
    ∃ key, identityOf s.name (contentOf row) = some key ∧ isKey s.name key ∧
      ∀ id, identityOf s.name (canonicalJson record) = some id → isKey s.name id → key = id

variable {pg : Postgres} {tables tables' : Tables} {state state' : Tables × ℕ} {r : Staged}
  {rs : List Staged}

/-! ### One insert -/

/-- Rows are added to the tables, and none is changed or removed. -/
def Tables.Grow (tables tables' : Tables) : Prop := ∀ t, tables t <+: tables' t

theorem Tables.Grow.refl (tables : Tables) : tables.Grow tables := fun _ => List.prefix_refl _

theorem Tables.Grow.trans {tables'' : Tables} (h : tables.Grow tables') (h' : tables'.Grow tables'') :
    tables.Grow tables'' :=
  fun t => (h t).trans (h' t)

theorem Tables.grow_insert (tables : Tables) (table : String) (row : Json) :
    tables.Grow (tables.insert table row) := by
  intro t
  unfold Tables.insert
  split
  · rename_i htable
    rw [htable]
    exact List.prefix_append _ _
  · exact List.prefix_refl _

theorem IsRestored.mono (h : IsRestored tables r) (hgrow : tables.Grow tables') :
    IsRestored tables' r := by
  obtain ⟨row, hrow, hcontent⟩ := h
  exact ⟨row, (hgrow _).subset hrow, hcontent⟩

theorem mem_insert {table t : String} {row row' : Json} (h : row' ∈ tables.insert table row t) :
    row' ∈ tables t ∨ (t = table ∧ row' = row) := by
  unfold Tables.insert at h
  split at h
  · rename_i htable
    rcases List.mem_append.mp h with h | h
    · exact .inl (htable ▸ h)
    · exact .inr ⟨htable, List.mem_singleton.mp h⟩
  · exact .inl h

theorem ofDatabase_eq_ok {α : Type} {x : Except String α} {a : α} (h : ofDatabase x = .ok a) :
    x = .ok a := by
  cases x with
  | error message => cases h
  | ok b =>
    cases h
    rfl

/-- An insert adds the row that is made of a record, unless it collides with another one. -/
theorem insertRecord_eq_ok (h : insertRecord pg state r = .ok state') :
    ∃ row, pg.rowOf state.1 r.1.table (insertFields r.2.record) = .ok row ∧
      ((state.1 r.1.table).any (pg.collides r.1.table row) = true ∧ state' = state ∨
        (state.1 r.1.table).any (pg.collides r.1.table row) = false ∧
          state'.1 = state.1.insert r.1.table row) := by
  unfold insertRecord at h
  obtain ⟨-, h⟩ := failIf_bind_eq_ok.mp h
  obtain ⟨row, hrow, h⟩ := bind_eq_ok.mp h
  refine ⟨row, ofDatabase_eq_ok hrow, ?_⟩
  split at h
  · rename_i hcollides
    cases h
    exact .inl ⟨hcollides, rfl⟩
  · rename_i hfree
    obtain ⟨_, -, h⟩ := bind_eq_ok.mp h
    cases h
    exact .inr ⟨Bool.eq_false_iff.mpr hfree, rfl⟩

theorem grow_insertRecord (h : insertRecord pg state r = .ok state') : state.1.Grow state'.1 := by
  obtain ⟨row, -, ⟨-, rfl⟩ | ⟨-, htables⟩⟩ := insertRecord_eq_ok h
  · exact .refl _
  · rw [htables]
    exact Tables.grow_insert _ _ _

/-- A record that fits is restored. -/
theorem isRestored_insertRecord (h : insertRecord pg state r = .ok state')
    (hfits : pg.Fits state.1 r) : IsRestored state'.1 r := by
  rcases hfits with hthere | ⟨row, hrow, hfree, hcontent⟩
  · exact hthere.mono (grow_insertRecord h)
  · obtain ⟨row', hrow', hcases⟩ := insertRecord_eq_ok h
    cases hrow.symm.trans hrow'
    rcases hcases with ⟨hcollides, -⟩ | ⟨-, htables⟩
    · rw [hfree] at hcollides
      cases hcollides
    · refine ⟨row, ?_, hcontent⟩
      rw [htables, Tables.insert, if_pos rfl]
      exact List.mem_append_right _ (List.mem_singleton_self _)

/-- A record that does not fit is not restored by its own insert. -/
theorem not_isRestored_insertRecord (h : insertRecord pg state r = .ok state')
    (hfits : ¬ pg.Fits state.1 r) : ¬ IsRestored state'.1 r := by
  obtain ⟨hnew, hrow⟩ := not_or.mp hfits
  obtain ⟨row, hmade, ⟨-, rfl⟩ | ⟨hfree, htables⟩⟩ := insertRecord_eq_ok h
  · exact hnew
  · rintro ⟨row', hrow', hcontent⟩
    rw [htables] at hrow'
    rcases mem_insert hrow' with hrow' | ⟨-, rfl⟩
    · exact hnew ⟨row', hrow', hcontent⟩
    · exact hrow ⟨row', hmade, hfree, hcontent⟩

/-! ### All inserts -/

theorem grow_insertRecords (h : rs.foldlM (insertRecord pg) state = .ok state') :
    state.1.Grow state'.1 := by
  induction rs generalizing state with
  | nil =>
    cases h
    exact .refl _
  | cons r rs ih =>
    rw [List.foldlM_cons] at h
    obtain ⟨next, hnext, h⟩ := bind_eq_ok.mp h
    exact (grow_insertRecord hnext).trans (ih h)

/-- The states around the insert of one of the records. -/
theorem insertRecords_split {earlier later : List Staged}
    (h : (earlier ++ r :: later).foldlM (insertRecord pg) state = .ok state') :
    ∃ before after, earlier.foldlM (insertRecord pg) state = .ok before ∧
      insertRecord pg before r = .ok after ∧
      later.foldlM (insertRecord pg) after = .ok state' := by
  rw [List.foldlM_append] at h
  obtain ⟨before, hbefore, h⟩ := bind_eq_ok.mp h
  rw [List.foldlM_cons] at h
  obtain ⟨after, hafter, h⟩ := bind_eq_ok.mp h
  exact ⟨before, after, hbefore, hafter, h⟩

/-- Records that fit are restored. -/
theorem isRestored_of_allFit (h : rs.foldlM (insertRecord pg) (tables, 0) = .ok state')
    (hfit : pg.AllFit tables rs) (hr : r ∈ rs) : IsRestored state'.1 r := by
  obtain ⟨earlier, later, rfl⟩ := List.append_of_mem hr
  obtain ⟨before, after, hbefore, hinsert, hlater⟩ := insertRecords_split h
  have hrestored := isRestored_insertRecord hinsert (hfit earlier r later rfl before hbefore)
  exact hrestored.mono (grow_insertRecords hlater)

/-- A record that became restored was so by a row that was made of another one. -/
theorem exists_inserter (h : rs.foldlM (insertRecord pg) state = .ok state')
    (hbefore : ¬ IsRestored state.1 r) (hafter : IsRestored state'.1 r) :
    ∃ q ∈ rs, ∃ tables row, q.1.table = r.1.table ∧
      pg.rowOf tables q.1.table (insertFields q.2.record) = .ok row ∧
      contentOf row = canonicalJson r.2.record := by
  induction rs generalizing state with
  | nil =>
    cases h
    exact absurd hafter hbefore
  | cons q rs ih =>
    rw [List.foldlM_cons] at h
    obtain ⟨next, hnext, h⟩ := bind_eq_ok.mp h
    by_cases hrestored : IsRestored next.1 r
    · obtain ⟨row, hmade, ⟨-, rfl⟩ | ⟨-, htables⟩⟩ := insertRecord_eq_ok hnext
      · exact absurd hrestored hbefore
      · obtain ⟨row', hrow', hcontent⟩ := hrestored
        rw [htables] at hrow'
        rcases mem_insert hrow' with hrow' | ⟨htable, rfl⟩
        · exact absurd ⟨row', hrow', hcontent⟩ hbefore
        · exact ⟨q, List.mem_cons_self, _, row', htable.symm, hmade, hcontent⟩
    · obtain ⟨q', hq', hrest⟩ := ih h hrestored
      exact ⟨q', List.mem_cons_of_mem _ hq', hrest⟩

section Keys

variable {isKey : String → JsString → Prop}

/-- Inserts keep the identities of the rows in form. -/
theorem KeysInForm.insertRecords (hform : KeysInForm isKey state.1) (hkeys : pg.Keys isKey)
    (hsections : ∀ r ∈ rs, r.1 ∈ portableSections)
    (hreadable : ∀ r ∈ rs, Json.Readable r.2.record)
    (h : rs.foldlM (insertRecord pg) state = .ok state') : KeysInForm isKey state'.1 := by
  induction rs generalizing state with
  | nil =>
    cases h
    exact hform
  | cons r rs ih =>
    rw [List.foldlM_cons] at h
    obtain ⟨next, hnext, h⟩ := bind_eq_ok.mp h
    refine ih ?_ (fun q hq => hsections q (List.mem_cons_of_mem _ hq))
      (fun q hq => hreadable q (List.mem_cons_of_mem _ hq)) h
    obtain ⟨row, hmade, ⟨-, rfl⟩ | ⟨-, htables⟩⟩ := insertRecord_eq_ok hnext
    · exact hform
    · intro s hs row' hrow'
      rw [htables] at hrow'
      rcases mem_insert hrow' with hrow' | ⟨htable, rfl⟩
      · exact hform s hs row' hrow'
      · rw [← htable] at hmade
        obtain ⟨key, hkey, hisKey, -⟩ := hkeys.rowKey s hs _ _ _
          (hreadable r List.mem_cons_self) hmade
        exact ⟨key, hkey, hisKey⟩

/-- Sections are told apart by their tables. -/
theorem section_of_table : ∀ s ∈ portableSections, ∀ t ∈ portableSections, s.table = t.table →
    s.name = t.name := by
  decide

/-- Where all records are restored, each fitted. -/
theorem allFit_of_isRestored (hkeys : pg.Keys isKey) (hform : KeysInForm isKey tables)
    (hsections : ∀ r ∈ rs, r.1 ∈ portableSections)
    (hreadable : ∀ r ∈ rs, Json.Readable r.2.record)
    (hidentity : ∀ r ∈ rs, identityOf r.1.name (canonicalJson r.2.record) = some r.2.stableId)
    (hdistinct : (rs.map planItem).Nodup)
    (h : rs.foldlM (insertRecord pg) (tables, 0) = .ok state')
    (hrestored : ∀ r ∈ rs, IsRestored state'.1 r) : pg.AllFit tables rs := by
  intro earlier r later hrs state hstate
  by_contra hfits
  have hform' := KeysInForm.insertRecords hform hkeys hsections hreadable h
  rw [hrs] at h
  obtain ⟨before, after, hbefore, hinsert, hlater⟩ := insertRecords_split h
  cases hstate.symm.trans hbefore
  have hmem : ∀ q ∈ later, q ∈ rs := by
    intro q hq
    rw [hrs]
    exact List.mem_append_right _ (List.mem_cons_of_mem _ hq)
  have hr : r ∈ rs := by
    rw [hrs]
    exact List.mem_append_right _ List.mem_cons_self
  -- the content of the record came with another one
  obtain ⟨q, hq, tables₁, row, htable, hmade, hcontent⟩ := exists_inserter hlater
    (not_isRestored_insertRecord hinsert hfits) (hrestored r hr)
  have hname := section_of_table _ (hsections q (hmem q hq)) _ (hsections r hr) htable
  -- which is restored itself, so that its identity is in form
  obtain ⟨row', hrow', hcontent'⟩ := hrestored q (hmem q hq)
  obtain ⟨key', hkey', hisKey⟩ := hform' q.1 (hsections q (hmem q hq)) row' hrow'
  rw [hcontent', hidentity q (hmem q hq)] at hkey'
  cases hkey'
  obtain ⟨key, hkey, -, hid⟩ := hkeys.rowKey q.1 (hsections q (hmem q hq)) _ _ _
    (hreadable q (hmem q hq)) hmade
  rw [hid _ (hidentity q (hmem q hq)) hisKey, hcontent, hname, hidentity r hr] at hkey
  -- and the two records would have one identity
  have hitem : planItem r = planItem q := by
    rw [planItem, planItem, hname, Option.some.inj hkey]
  rw [hrs, List.map_append, List.map_cons] at hdistinct
  have hnodup := (List.nodup_append.mp hdistinct).2.1
  exact (List.nodup_cons.mp hnodup).1 (hitem ▸ List.mem_map_of_mem hq)

end Keys

end PandaPay.PortableBackup
