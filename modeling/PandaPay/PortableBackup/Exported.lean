import PandaPay.PortableBackup.Canonical
import PandaPay.PortableBackup.Export

/-!
# What an export writes

The pages of a section put together are its rows in order, each once, and the loop over them comes to
an end: the stream is the header, a line for every row of every section, and the footer.

## Main definitions

* `Snapshot`: the live tables as the schema has them
* `exportedRecords`: the records of a section
* `SectionSum.addAll`: what is summed up of them

## Main results

* `exportPages_eq_ok`, `exportPages_finishes`: the loop over the pages
* `exportSnapshot_eq_ok`, `exportSnapshot_finishes`: the whole export
-/

namespace PandaPay.PortableBackup

/-- The live tables as the schema has them: rows are objects, the columns they are ordered by are
texts and tell the rows of a profile apart. -/
structure Snapshot where
  tables : Tables
  profileId : JsString
  rows_readable : ∀ s ∈ portableSections, ∀ row ∈ tables s.table,
    isObject row = true ∧ Json.Readable row
  columns_text : ∀ s ∈ portableSections, ∀ row ∈ tables s.table, ∀ column ∈ s.orderBy,
    ∃ text, property? row column = some (.str text) ∧ text ≠ []
  keys_nodup : ∀ s ∈ portableSections, ((profileRows tables profileId s).map (orderKey s)).Nodup
  /-- `profiles` and `transaction_splits` have no column `profile_id`. -/
  no_profile_id : ∀ s ∈ portableSections, s.filter = .ownId ∨ s.filter = .ownerTransaction →
    ∀ row ∈ tables s.table, property? row "profile_id" = none
  source_keys : ∀ row ∈ tables "foreign_payment_sources",
    isSha256 (columnText row "source_key") = true
  link_ids : ∀ row ∈ tables "transaction_tag_links", 58 ∉ columnText row "transaction_id"

/-! ### The sections -/

/-- A cursor is the column that the rows are ordered by. -/
theorem orderBy_of_cursor :
    ∀ s ∈ portableSections, ∀ column ∈ s.cursor, s.orderBy = [column] := by
  decide

/-- The columns that rows are ordered by are not excluded. -/
theorem orderBy_not_excluded :
    ∀ s ∈ portableSections, ∀ column ∈ s.orderBy, isExcluded (js column) = false := by
  decide +kernel

/-- A column that is not excluded is in the record. -/
theorem property?_portableRecord {row : Json} {column : String}
    (h : isExcluded (js column) = false) :
    property? (portableRecord row) column = property? row column := by
  cases row with
  | obj fields => exact fieldOf_filter fun v => by simp [h]
  | null => rfl
  | bool b => rfl
  | num n => rfl
  | str s => rfl
  | arr items => rfl

/-- The rows of a section, in the order they are exported in. -/
def exportedRows (tables : Tables) (profileId : JsString) (s : PortableSection) : List Json :=
  sortBy (orderKey s) (profileRows tables profileId s)

/-- The records of a section. -/
def exportedRecords (tables : Tables) (profileId : JsString) (s : PortableSection) : List Json :=
  (exportedRows tables profileId s).map portableRecord

/-- The sum of a section with these records added. -/
def SectionSum.addAll (sum : SectionSum) (records : List Json) : SectionSum :=
  ⟨sum.count + records.length,
    sum.bytes + (records.map fun r => utf8Length (canonicalJson r ++ js "\n")).sum,
    sum.hashed ++ records.flatMap fun r => canonicalJson r ++ js "\n"⟩

theorem SectionSum.addAll_nil (sum : SectionSum) : sum.addAll [] = sum := by
  simp [addAll]

theorem SectionSum.addAll_cons (sum : SectionSum) (record : Json) (records : List Json) :
    sum.addAll (record :: records) =
      (sum.add (canonicalJson record ++ js "\n")).addAll records := by
  simp only [addAll, add, List.length_cons, List.map_cons, List.sum_cons, List.flatMap_cons,
    List.append_assoc, SectionSum.mk.injEq, and_true]
  omega

theorem SectionSum.addAll_append (sum : SectionSum) (records records' : List Json) :
    sum.addAll (records ++ records') = (sum.addAll records).addAll records' := by
  induction records generalizing sum with
  | nil => rw [List.nil_append, addAll_nil]
  | cons record records ih => rw [List.cons_append, addAll_cons, ih, addAll_cons]

/-- A loop fails as one of its passes does. -/
theorem foldlM_ne_error {ε : Type} {σ α : Type} {body : σ → α → Except ε σ} {e : ε}
    (hbody : ∀ s x, body s x ≠ .error e) {s : σ} {xs : List α} :
    xs.foldlM body s ≠ .error e := by
  induction xs generalizing s with
  | nil =>
    intro h
    cases h
  | cons x xs ih =>
    intro h
    rw [List.foldlM_cons] at h
    rcases bind_eq_error.mp h with h | ⟨t, -, h⟩
    · exact hbody s x h
    · exact ih h

/-! ### Pages -/

section Pages

variable {options : ExportOptions} {s : PortableSection} {p p' : Paging}

theorem exportRecord_eq_ok {record : Json} (h : exportRecord options s p record = .ok p') :
    p'.written.chunks = p.written.chunks ++ [envelopeLine (recordEnvelope s.name record)] ∧
      p'.sum = p.sum.add (canonicalJson record ++ js "\n") ∧ p'.offset = p.offset ∧
      ∀ column ∈ s.cursor, p'.cursor = textProperty record column := by
  unfold exportRecord at h
  obtain ⟨_, -, h⟩ := bind_eq_ok.mp h
  obtain ⟨-, h⟩ := failIf_bind_eq_ok.mp h
  obtain ⟨-, h⟩ := failIf_bind_eq_ok.mp h
  obtain ⟨written, hwritten, h⟩ := bind_eq_ok.mp h
  obtain ⟨_, -, hwritten⟩ := bind_eq_ok.mp hwritten
  obtain ⟨-, hwritten⟩ := failIf_bind_eq_ok.mp hwritten
  cases hwritten
  cases h
  refine ⟨rfl, rfl, rfl, ?_⟩
  intro column hcolumn
  simp only [Option.mem_def.mp hcolumn]

/-- The records of a page are written in turn. -/
theorem exportRecords_eq_ok {records : List Json}
    (h : records.foldlM (exportRecord options s) p = .ok p') :
    p'.written.chunks = p.written.chunks ++
        records.map (fun r => envelopeLine (recordEnvelope s.name r)) ∧
      p'.sum = p.sum.addAll records ∧ p'.offset = p.offset ∧
      ∀ column ∈ s.cursor, ∀ r ∈ records.getLast?, p'.cursor = textProperty r column := by
  induction records generalizing p with
  | nil =>
    cases h
    refine ⟨by simp, (SectionSum.addAll_nil _).symm, rfl, ?_⟩
    intro _ _ r hr
    cases hr
  | cons record records ih =>
    rw [List.foldlM_cons] at h
    obtain ⟨q, hq, h⟩ := bind_eq_ok.mp h
    obtain ⟨hchunks, hsum, hoffset, hcursor⟩ := exportRecord_eq_ok hq
    obtain ⟨hchunks', hsum', hoffset', hcursor'⟩ := ih h
    refine ⟨?_, ?_, hoffset'.trans hoffset, ?_⟩
    · rw [hchunks', hchunks, List.append_assoc]
      rfl
    · rw [hsum', hsum, SectionSum.addAll_cons]
    · intro column hcolumn r hr
      cases records with
      | nil =>
        cases h
        cases hr
        exact hcursor column hcolumn
      | cons record' records =>
        rw [List.getLast?_cons_cons] at hr
        exact hcursor' column hcolumn r hr

theorem proceed_ne_unfinished (written : Written) :
    proceed options written ≠ .error .unfinished := by
  intro h
  unfold proceed at h
  split at h <;> cases h

theorem writeChunk_ne_unfinished (written : Written) (chunk : JsString) :
    writeChunk options written chunk ≠ .error .unfinished := by
  intro h
  rcases bind_eq_error.mp h with h | ⟨_, -, h⟩
  · exact proceed_ne_unfinished _ h
  rcases bind_eq_error.mp h with h | ⟨_, -, h⟩
  · cases (failIf_eq_error.mp h).2
  · cases h

/-- The clock and the connection, and the limits, are all that ends the writing of a record. -/
theorem exportRecord_ne_unfinished (p : Paging) (record : Json) :
    exportRecord options s p record ≠ .error .unfinished := by
  intro h
  rcases bind_eq_error.mp h with h | ⟨_, -, h⟩
  · exact proceed_ne_unfinished _ h
  rcases bind_eq_error.mp h with h | ⟨_, -, h⟩
  · cases (failIf_eq_error.mp h).2
  rcases bind_eq_error.mp h with h | ⟨_, -, h⟩
  · cases (failIf_eq_error.mp h).2
  rcases bind_eq_error.mp h with h | ⟨_, -, h⟩
  · exact writeChunk_ne_unfinished _ _ h
  · cases h

end Pages

/-- The export stands after these rows of a section. -/
def Paging.StandsAfter (p : Paging) (s : PortableSection) (rows : List Json) : Prop :=
  match s.cursor with
  | some column => p.cursor = rows.getLast?.map (columnText · column)
  | none => p.offset = rows.length

namespace Snapshot

variable (db : Snapshot) {options : ExportOptions} {s : PortableSection} {p p' : Paging}
  {before after : List Json}

theorem mem_of_mem_exportedRows {row : Json} (h : row ∈ exportedRows db.tables db.profileId s) :
    row ∈ db.tables s.table :=
  (List.mem_filter.mp (mem_sortBy.mp h)).1

theorem textProperty_portableRecord (hs : s ∈ portableSections) {row : Json}
    (hrow : row ∈ db.tables s.table) {column : String} (hcolumn : column ∈ s.orderBy) :
    textProperty (portableRecord row) column = some (columnText row column) := by
  obtain ⟨text, htext, -⟩ := db.columns_text s hs row hrow column hcolumn
  rw [textProperty, property?_portableRecord (orderBy_not_excluded s hs column hcolumn), columnText,
    htext]

/-- The next page is what comes next. -/
theorem sectionPage_eq (hs : s ∈ portableSections)
    (hrows : exportedRows db.tables db.profileId s = before ++ after) (hp : p.StandsAfter s before)
    (n : ℕ) : sectionPage db.tables db.profileId s n p.cursor p.offset =
      (after.take n).map portableRecord := by
  unfold Paging.StandsAfter at hp
  unfold sectionPage
  revert hp
  cases hcolumn : s.cursor with
  | some column =>
    intro (hp : p.cursor = _)
    rw [hp]
    refine congrArg (fun rows => (List.take n rows).map portableRecord) ?_
    rcases List.eq_nil_or_concat before with rfl | ⟨earlier, last, rfl⟩
    · -- the first page: no cursor yet
      rw [List.nil_append] at hrows
      have hall : (profileRows db.tables db.profileId s).filter (fun row =>
          (Option.map (columnText · column) ([] : List Json).getLast?).all
            (· < columnText row column)) = profileRows db.tables db.profileId s :=
        List.filter_eq_self.mpr fun _ _ => rfl
      rw [hall]
      exact hrows
    · have hkey : ∀ row, orderKey s row = [columnText row column] := by
        intro row
        rw [orderKey, orderBy_of_cursor s hs column hcolumn]
        rfl
      rw [List.concat_eq_append, List.append_assoc, List.singleton_append] at hrows
      refine (congrArg (sortBy _) (List.filter_congr fun row _ => ?_)).trans
        (sortBy_filter_gt (db.keys_nodup s hs) hrows)
      have hlt : orderKey s last < orderKey s row ↔
          columnText last column < columnText row column := by
        rw [hkey, hkey]
        simp [List.cons_lt_cons_iff]
      rw [List.concat_eq_append, List.getLast?_append, List.getLast?_singleton]
      simp [hlt]
  | none =>
    intro (hp : p.offset = _)
    rw [hp]
    have hdrop : (sortBy (orderKey s) (profileRows db.tables db.profileId s)).drop before.length =
        after := by
      have : sortBy (orderKey s) (profileRows db.tables db.profileId s) = before ++ after := hrows
      rw [this, List.drop_left]
    rw [hdrop]

/-- After a full page the export stands behind it. -/
theorem standsAfter_page (hs : s ∈ portableSections)
    (hrows : exportedRows db.tables db.profileId s = before ++ after) (hp : p.StandsAfter s before)
    {n : ℕ} (hn : 0 < n) (hfull : n ≤ after.length)
    (h : ((after.take n).map portableRecord).foldlM (exportRecord options s) p = .ok p') :
    (if s.cursor.isSome then p' else
      { p' with offset := p'.offset + min n after.length } : Paging).StandsAfter s
        (before ++ after.take n) := by
  obtain ⟨-, -, hoffset, hcursor⟩ := exportRecords_eq_ok h
  have hne : after.take n ≠ [] := by
    rw [ne_eq, List.take_eq_nil_iff]
    rintro (rfl | rfl)
    · exact lt_irrefl 0 hn
    · exact absurd (hn.trans_le hfull) (lt_irrefl 0)
  have hmem : ∀ row ∈ after.take n, row ∈ db.tables s.table := by
    intro row hrow
    apply db.mem_of_mem_exportedRows
    rw [hrows]
    exact List.mem_append_right _ (List.mem_of_mem_take hrow)
  unfold Paging.StandsAfter at hp ⊢
  split
  · -- the cursor is the column of the last row of the page
    rename_i column hcolumn
    obtain ⟨earlier, last, hpage⟩ := (List.eq_nil_or_concat (after.take n)).resolve_left hne
    rw [List.concat_eq_append] at hpage
    rw [hpage] at hmem hcursor ⊢
    have hlast := hcursor column hcolumn (portableRecord last) (by simp)
    rw [db.textProperty_portableRecord hs (hmem last (by simp))
      (by rw [orderBy_of_cursor s hs column hcolumn]; exact List.mem_singleton_self _)] at hlast
    simp [hcolumn, hlast]
  · rename_i hcolumn
    rw [hcolumn] at hp
    dsimp only at hp
    simp [hcolumn, hoffset, hp]

/-- The rows that are left are written, each once and in order. -/
theorem exportPages_eq_ok (hs : s ∈ portableSections) (hbatch : 0 < options.batchSize) {fuel : ℕ}
    (hrows : exportedRows db.tables db.profileId s = before ++ after) (hp : p.StandsAfter s before)
    (h : exportPages options db.tables db.profileId s fuel p = .ok p') :
    p'.written.chunks = p.written.chunks ++
        (after.map portableRecord).map (fun r => envelopeLine (recordEnvelope s.name r)) ∧
      p'.sum = p.sum.addAll (after.map portableRecord) := by
  induction fuel generalizing p before after with
  | zero => cases h
  | succ fuel ih =>
    obtain ⟨_, -, h⟩ := bind_eq_ok.mp h
    obtain ⟨q, hq, h⟩ := bind_eq_ok.mp h
    rw [db.sectionPage_eq hs hrows hp] at hq h
    obtain ⟨hchunks, hsum, -, -⟩ := exportRecords_eq_ok hq
    rw [List.length_map, List.length_take] at h
    split at h
    · -- the last page
      rename_i hlast
      cases h
      have htake : after.take options.batchSize = after := List.take_of_length_le (by omega)
      rw [htake] at hchunks hsum
      exact ⟨hchunks, hsum⟩
    · rename_i hfull
      obtain ⟨-, h⟩ := failIf_bind_eq_ok.mp h
      have hsplit := List.take_append_drop options.batchSize after
      have hnext := db.standsAfter_page hs hrows hp hbatch (by omega) hq
      obtain ⟨hchunks', hsum'⟩ := ih (by rw [hrows, List.append_assoc, hsplit]) hnext h
      have hfields : ∀ n, (if s.cursor.isSome then q else { q with offset := n } : Paging).written =
          q.written ∧ (if s.cursor.isSome then q else { q with offset := n } : Paging).sum =
          q.sum := by
        intro n
        split <;> exact ⟨rfl, rfl⟩
      rw [(hfields _).1, hchunks] at hchunks'
      rw [(hfields _).2, hsum] at hsum'
      constructor
      · rw [hchunks', List.append_assoc, ← List.map_append, ← List.map_append, hsplit]
      · rw [hsum', ← SectionSum.addAll_append, ← List.map_append, hsplit]

/-- The loop over the pages comes to an end. -/
theorem exportPages_finishes (hs : s ∈ portableSections) (hbatch : 0 < options.batchSize)
    {fuel : ℕ} (hrows : exportedRows db.tables db.profileId s = before ++ after)
    (hp : p.StandsAfter s before) (hfuel : after.length < fuel) :
    exportPages options db.tables db.profileId s fuel p ≠ .error .unfinished := by
  induction fuel generalizing p before after with
  | zero => omega
  | succ fuel ih =>
    intro h
    rcases bind_eq_error.mp h with h | ⟨_, -, h⟩
    · exact proceed_ne_unfinished _ h
    rcases bind_eq_error.mp h with h | ⟨q, hq, h⟩
    · exact foldlM_ne_error (fun p record => exportRecord_ne_unfinished p record) h
    rw [db.sectionPage_eq hs hrows hp] at hq h
    rw [List.length_map, List.length_take] at h
    split at h
    · cases h
    · rename_i hfull
      rcases bind_eq_error.mp h with h | ⟨_, -, h⟩
      · cases (failIf_eq_error.mp h).2
      have hnext := db.standsAfter_page hs hrows hp hbatch (by omega) hq
      have hrest : exportedRows db.tables db.profileId s =
          before ++ after.take options.batchSize ++ after.drop options.batchSize := by
        rw [hrows, List.append_assoc, List.take_append_drop]
      refine ih hrest hnext ?_ h
      rw [List.length_drop]
      omega

/-! ### The whole export -/

/-- What the footer declares of a section. -/
def statsOf (sha256 : JsString → JsString) (s : PortableSection) : SectionStats :=
  let sum := (⟨0, 0, []⟩ : SectionSum).addAll (exportedRecords db.tables db.profileId s)
  ⟨sum.count, sum.bytes, sha256 sum.hashed⟩

/-- The lines of a section. -/
def linesOf (s : PortableSection) : List JsString :=
  (exportedRecords db.tables db.profileId s).map fun r => envelopeLine (recordEnvelope s.name r)

variable {sha256 : JsString → JsString} {metadata : ExportMetadata}

theorem standsAfter_nil (written : Written) (sum : SectionSum) (s : PortableSection) :
    (⟨written, sum, none, 0⟩ : Paging).StandsAfter s [] := by
  unfold Paging.StandsAfter
  split <;> rfl

theorem exportSection_eq_ok (hs : s ∈ portableSections) (hbatch : 0 < options.batchSize)
    {written written' : Written} {stats : SectionStats}
    (h : exportSection sha256 options db.tables db.profileId written s = .ok (written', stats)) :
    written'.chunks = written.chunks ++ db.linesOf s ∧ stats = db.statsOf sha256 s := by
  obtain ⟨p, hp, h⟩ := bind_eq_ok.mp h
  cases h
  obtain ⟨hchunks, hsum⟩ :=
    db.exportPages_eq_ok hs hbatch (List.nil_append _).symm (standsAfter_nil _ _ s) hp
  refine ⟨hchunks, ?_⟩
  rw [hsum]
  rfl

/-- The sections are written one after the other. -/
theorem exportSections_eq_ok (hbatch : 0 < options.batchSize) {sections : List PortableSection}
    (hsections : ∀ s ∈ sections, s ∈ portableSections)
    {state state' : Written × List (String × SectionStats)}
    (h : sections.foldlM (fun (state : Written × List (String × SectionStats)) s => do
      let (written, stats) ← exportSection sha256 options db.tables db.profileId state.1 s
      return (written, state.2 ++ [(s.name, stats)])) state = .ok state') :
    state'.1.chunks = state.1.chunks ++ sections.flatMap db.linesOf ∧
      state'.2 = state.2 ++ sections.map fun s => (s.name, db.statsOf sha256 s) := by
  induction sections generalizing state with
  | nil =>
    cases h
    simp
  | cons s sections ih =>
    rw [List.foldlM_cons] at h
    obtain ⟨_, hstep, h⟩ := bind_eq_ok.mp h
    obtain ⟨⟨written, stats⟩, hsection, hstep⟩ := bind_eq_ok.mp hstep
    cases hstep
    obtain ⟨hchunks, hstats⟩ :=
      db.exportSection_eq_ok (hsections s List.mem_cons_self) hbatch hsection
    obtain ⟨hchunks', hstats'⟩ := ih (fun s hs => hsections s (List.mem_cons_of_mem _ hs)) h
    constructor
    · rw [hchunks', hchunks, List.append_assoc]
      rfl
    · rw [hstats', hstats, List.append_assoc]
      rfl

theorem writeChunk_eq_ok {written written' : Written} {chunk : JsString}
    (h : writeChunk options written chunk = .ok written') :
    written'.chunks = written.chunks ++ [chunk] := by
  obtain ⟨_, -, h⟩ := bind_eq_ok.mp h
  obtain ⟨-, h⟩ := failIf_bind_eq_ok.mp h
  cases h
  rfl

/-- The stream is the header, a line for every row of every section, and the footer. -/
theorem exportSnapshot_eq_ok {exported : Exported}
    (h : exportSnapshot sha256 options db.tables db.profileId metadata = .ok exported) :
    db.profileId ≠ [] ∧
      exported.sections = portableSections.map (fun s => (s.name, db.statsOf sha256 s)) ∧
      exported.chunks = [envelopeLine (headerJson metadata)] ++
        portableSections.flatMap db.linesOf ++
        [envelopeLine (footerJson metadata exported.sections)] := by
  obtain ⟨hprofile, h⟩ := failIf_bind_eq_ok.mp h
  obtain ⟨hbatch, h⟩ := failIf_bind_eq_ok.mp h
  obtain ⟨-, h⟩ := failIf_bind_eq_ok.mp h
  obtain ⟨written, hheader, h⟩ := bind_eq_ok.mp h
  obtain ⟨⟨written', sections⟩, hsections, h⟩ := bind_eq_ok.mp h
  obtain ⟨written'', hfooter, h⟩ := bind_eq_ok.mp h
  cases h
  obtain ⟨hchunks, hstats⟩ := db.exportSections_eq_ok (by omega) (fun _ hs => hs) hsections
  dsimp only at hchunks hstats ⊢
  refine ⟨hprofile, ?_, ?_⟩
  · rw [hstats, List.nil_append]
  · rw [writeChunk_eq_ok hfooter, hchunks, writeChunk_eq_ok hheader, List.nil_append]

/-- An export comes to an end. -/
theorem exportSnapshot_finishes :
    exportSnapshot sha256 options db.tables db.profileId metadata ≠ .error .unfinished := by
  intro h
  rcases bind_eq_error.mp h with h | ⟨_, -, h⟩
  · cases (failIf_eq_error.mp h).2
  rcases bind_eq_error.mp h with h | ⟨_, hbatch, h⟩
  · cases (failIf_eq_error.mp h).2
  have hbatch : 0 < options.batchSize := by
    have := failIf_eq_ok.mp hbatch
    omega
  rcases bind_eq_error.mp h with h | ⟨_, -, h⟩
  · cases (failIf_eq_error.mp h).2
  rcases bind_eq_error.mp h with h | ⟨_, -, h⟩
  · exact writeChunk_ne_unfinished _ _ h
  rcases bind_eq_error.mp h with h | ⟨_, -, h⟩
  · -- each section comes to an end
    have hsections : ∀ sections : List PortableSection, (∀ s ∈ sections, s ∈ portableSections) →
        ∀ state, sections.foldlM (fun (state : Written × List (String × SectionStats)) s => do
          let (written, stats) ← exportSection sha256 options db.tables db.profileId state.1 s
          return (written, state.2 ++ [(s.name, stats)])) state ≠ .error .unfinished := by
      intro sections hsub state h
      induction sections generalizing state with
      | nil => cases h
      | cons s sections ih =>
        rw [List.foldlM_cons] at h
        rcases bind_eq_error.mp h with h | ⟨_, -, h⟩
        · rcases bind_eq_error.mp h with h | ⟨_, -, h⟩
          · rcases bind_eq_error.mp h with h | ⟨_, -, h⟩
            · have hlength : (exportedRows db.tables db.profileId s).length =
                  (profileRows db.tables db.profileId s).length := (sortBy_perm _ _).length_eq
              exact db.exportPages_finishes (hsub s List.mem_cons_self) hbatch
                (List.nil_append _).symm (standsAfter_nil _ _ s) (by omega) h
            · cases h
          · cases h
        · exact ih (fun s hs => hsub s (List.mem_cons_of_mem _ hs)) _ h
    exact hsections _ (fun _ hs => hs) _ h
  rcases bind_eq_error.mp h with h | ⟨_, -, h⟩
  · exact writeChunk_ne_unfinished _ _ h
  · cases h

end Snapshot

end PandaPay.PortableBackup
