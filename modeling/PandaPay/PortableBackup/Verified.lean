import PandaPay.PortableBackup.Exported
import PandaPay.PortableBackup.Sessions

/-!
# An export passes its own verification

The restore side reads the lines of a section back: it finds the records that were exported, and
computes the count, the bytes and the digest that the footer declares.

## Main definitions

* `recordId`: the identity of an exported record
* `VerifiedSection`: a section of an export is complete and passes its verification

## Main results

* `sectionLines_exported`: the lines of a section in the stream
* `readLines_eq`, `parseSectionNdjson_exported`: reading them
* `export_verifies`: every section of an export passes its verification
-/

namespace PandaPay.PortableBackup

open Json

/-! ### Lines -/

/-- Lines without a line feed in them, each with one behind it. -/
theorem splitOn_lines {lines : List JsString} (h : ∀ line ∈ lines, 10 ∉ line) :
    (lines.flatMap (· ++ js "\n")).splitOn 10 = lines ++ [[]] := by
  induction lines with
  | nil => rfl
  | cons line lines ih =>
    have hline : ∀ c ∈ line, (c == (10 : CodeUnit)) = false := by
      intro c hc
      rw [beq_eq_false_iff_ne]
      rintro rfl
      exact h line List.mem_cons_self hc
    have hsplit := List.splitOnP_append_cons_of_forall_mem hline 10 (by simp)
      (lines.flatMap (· ++ js "\n"))
    have htext : (line :: lines).flatMap (· ++ js "\n") =
        line ++ 10 :: lines.flatMap (· ++ js "\n") := by
      rw [List.flatMap_cons, List.append_assoc]
      rfl
    rw [htext, List.splitOn, hsplit, ← List.splitOn,
      ih fun line hline => h line (List.mem_cons_of_mem _ hline), List.cons_append]

/-- Texts without the separator in them: what is before it and what is behind it. -/
theorem append_sep_inj {sep : CodeUnit} {a a' b b' : JsString} (ha : sep ∉ a) (ha' : sep ∉ a')
    (h : a ++ sep :: b = a' ++ sep :: b') : a = a' ∧ b = b' := by
  have hbefore : ∀ {a b : JsString}, sep ∉ a → (a ++ sep :: b).takeWhile (· ≠ sep) = a := by
    intro a b ha
    rw [List.takeWhile_append_of_pos]
    · simp
    · intro c hc
      simpa using fun heq : c = sep => ha (heq ▸ hc)
  have heq : a = a' := by rw [← hbefore ha, h, hbefore ha']
  subst heq
  exact ⟨rfl, (List.cons.inj (List.append_cancel_left h)).2⟩

/-- Of the parts with distinct keys, one has a given key. -/
theorem flatMap_of_key {α β κ : Type} [DecidableEq κ] {key : α → κ} {f : α → List β} {xs : List α}
    {a : α} (hnodup : (xs.map key).Nodup) (ha : a ∈ xs) :
    xs.flatMap (fun x => if key x = key a then f x else []) = f a := by
  induction xs with
  | nil => cases ha
  | cons x xs ih =>
    rw [List.map_cons, List.nodup_cons] at hnodup
    rw [List.flatMap_cons]
    rcases List.mem_cons.mp ha with rfl | ha
    · have hrest : xs.flatMap (fun x => if key x = key a then f x else []) = [] := by
        refine List.flatMap_eq_nil_iff.mpr fun y hy => if_neg fun hkey => hnodup.1 ?_
        exact hkey ▸ List.mem_map_of_mem hy
      rw [if_pos rfl, hrest, List.append_nil]
    · have hne : key x ≠ key a := fun hkey => hnodup.1 (hkey ▸ List.mem_map_of_mem ha)
      rw [if_neg hne, List.nil_append, ih hnodup.2 ha]

/-- A canonical text has no line feed and no NUL. -/
theorem le_of_mem_canonicalJson {value : Json} (h : Readable value) {c : CodeUnit}
    (hc : c ∈ canonicalJson value) : 32 ≤ c.val :=
  le_of_mem_stringify (readable_canonicalize h []) hc

theorem notMem_canonicalJson {value : Json} (h : Readable value) :
    (10 : CodeUnit) ∉ canonicalJson value :=
  fun hc => absurd (le_of_mem_canonicalJson h hc) (by decide)

/-- A property of what is read from a canonical text. -/
theorem property?_canonical {value : Json} (h : Readable value) {key : String}
    (hkey : isDropped (js key) = false) : property? (canonical value) key =
      (property? value key).map fun v => printed (canonicalize (js key) v) := by
  cases h with
  | obj fields hnodup hfields =>
    obtain ⟨fields', hcanonical, hfield⟩ := fieldOf_canonical hnodup hkey
    rw [hcanonical]
    exact hfield
  | num n hn =>
    have : canonical (.num n) = .num n.printed := rfl
    rw [this]
    rfl
  | null => rfl
  | bool b => rfl
  | str s => rfl
  | arr items hitems =>
    have : canonical (.arr items) = .arr ((items.map (canonicalize [])).map printed) := by
      rw [canonical, canonicalize_arr rfl, printed_arr]
    rw [this]
    rfl

/-- A property that is a text stays as it is. -/
theorem property?_canonical_str {value : Json} (h : Readable value) {key : String}
    (hkey : isDropped (js key) = false) {text : JsString}
    (hvalue : property? value key = some (.str text)) :
    property? (canonical value) key = some (.str text) := by
  rw [property?_canonical h hkey, hvalue]
  rfl

/-! ### The lines of a section -/

theorem readable_portableRecord {row : Json} (h : Readable row) : Readable (portableRecord row) := by
  cases h with
  | obj fields hnodup hfields =>
    exact .obj _ (hnodup.sublist (List.filter_sublist.map Prod.fst))
      fun f hf => hfields f (List.mem_filter.mp hf).1
  | null => exact .null
  | bool b => exact .bool b
  | num n hn => exact .num n hn
  | str s => exact .str s
  | arr items hitems => exact .arr items hitems

theorem readable_recordEnvelope (sectionName : String) {record : Json} (h : Readable record) :
    Readable (recordEnvelope sectionName record) := by
  refine .obj _ (by simp) ?_
  simp only [List.forall_mem_cons]
  exact ⟨.str _, .str _, h, by simp⟩

theorem readable_numberJson (n : ℕ) : Readable (numberJson n) := .num _ trivial

theorem readable_headerJson (metadata : ExportMetadata) : Readable (headerJson metadata) := by
  refine .obj _ (by simp) ?_
  simp only [List.forall_mem_cons]
  refine ⟨.str _, .str _, readable_numberJson _, readable_numberJson _, .str _, .str _, .str _,
    .str _, .arr _ ?_, .bool _, by simp⟩
  intro item hitem
  obtain ⟨s, -, rfl⟩ := List.mem_map.mp hitem
  exact .str _

theorem readable_footerJson (metadata : ExportMetadata) {sections : List (String × SectionStats)}
    (hnodup : (sections.map Prod.fst).Nodup) : Readable (footerJson metadata sections) := by
  have hstats : ∀ stats, Readable (statsJson stats) := by
    intro stats
    refine .obj _ (by simp) ?_
    simp only [List.forall_mem_cons]
    exact ⟨readable_numberJson _, readable_numberJson _, .str _, by simp⟩
  have hsections : Readable (.obj (sections.map fun s => (js s.1, statsJson s.2))) := by
    refine .obj _ ?_ fun f hf => ?_
    · have hkeys : (sections.map fun s => (js s.1, statsJson s.2)).map Prod.fst =
          (sections.map Prod.fst).map js := by
        rw [List.map_map, List.map_map]
        rfl
      rw [hkeys]
      exact hnodup.map fun _ _ h => js_inj.mp h
    · obtain ⟨s, -, rfl⟩ := List.mem_map.mp hf
      exact hstats s.2
  refine .obj _ (by simp) ?_
  simp only [List.forall_mem_cons]
  exact ⟨.str _, .bool _, hsections, readable_numberJson _, readable_numberJson _,
    readable_numberJson _, by simp⟩

theorem isRecordOf_canonicalJson {value : Json} (h : Readable value) (sectionName : String) :
    isRecordOf sectionName (canonicalJson value) =
      (columnIs (canonical value) "type" (js "record") &&
        columnIs (canonical value) "section" (js sectionName)) := by
  rw [isRecordOf, parse_canonicalJson h]

/-- A line that carries a record is one of its section only. -/
theorem isRecordOf_envelope {record : Json} (h : Readable record) (name sectionName : String) :
    isRecordOf sectionName (canonicalJson (recordEnvelope name record)) =
      decide (name = sectionName) := by
  have henvelope := readable_recordEnvelope name h
  have htype : property? (canonical (recordEnvelope name record)) "type" =
      some (.str (js "record")) := property?_canonical_str henvelope rfl rfl
  have hsection : property? (canonical (recordEnvelope name record)) "section" =
      some (.str (js name)) := property?_canonical_str henvelope rfl rfl
  rw [isRecordOf_canonicalJson henvelope, columnIs, columnIs, htype, hsection]
  simp [isStr]

/-- The header and the footer carry no record. -/
theorem isRecordOf_of_type {value : Json} (h : Readable value) {type : String}
    (htype : property? value "type" = some (.str (js type))) (hne : type ≠ "record")
    (sectionName : String) : isRecordOf sectionName (canonicalJson value) = false := by
  rw [isRecordOf_canonicalJson h, columnIs, property?_canonical_str h rfl htype]
  simp [isStr, hne]

namespace Snapshot

variable (db : Snapshot) {s : PortableSection}

theorem readable_exported (hs : s ∈ portableSections) {r : Json}
    (hr : r ∈ exportedRecords db.tables db.profileId s) : Readable r := by
  obtain ⟨row, hrow, rfl⟩ := List.mem_map.mp hr
  exact readable_portableRecord (db.rows_readable s hs row (db.mem_of_mem_exportedRows hrow)).2

/-- The canonical texts of the lines of a section. -/
def textsOf (s : PortableSection) : List JsString :=
  (exportedRecords db.tables db.profileId s).map fun r => canonicalJson (recordEnvelope s.name r)

theorem linesOf_eq (s : PortableSection) :
    db.linesOf s = (db.textsOf s).map (· ++ js "\n") := by
  rw [linesOf, textsOf, List.map_map]
  rfl

/-- The lines of a section in the stream are those of its records. -/
theorem sectionLines_exported (hs : s ∈ portableSections) {sha256 : JsString → JsString}
    {options : ExportOptions} {metadata : ExportMetadata} {exported : Exported}
    (h : exportSnapshot sha256 options db.tables db.profileId metadata = .ok exported) :
    sectionLines s.name exported.chunks.flatten = db.textsOf s := by
  obtain ⟨-, hsections, hchunks⟩ := db.exportSnapshot_eq_ok h
  have hnodup : (exported.sections.map Prod.fst).Nodup := by
    rw [hsections, List.map_map]
    exact nodup_sectionNames
  have hheader := readable_headerJson metadata
  have hfooter := readable_footerJson metadata hnodup
  -- the stream line by line
  set lines := canonicalJson (headerJson metadata) ::
    (portableSections.flatMap db.textsOf ++ [canonicalJson (footerJson metadata exported.sections)])
    with hlines
  have hstream : exported.chunks.flatten = lines.flatMap (· ++ js "\n") := by
    rw [hchunks, hlines, List.flatMap_cons, List.flatMap_append, List.flatten_append,
      List.flatten_append, List.append_assoc]
    refine congrArg₂ (· ++ ·) (by simp [envelopeLine])
      (congrArg₂ (· ++ ·) ?_ (by simp [envelopeLine]))
    have hlinesOf : db.linesOf = fun t => (db.textsOf t).map (· ++ js "\n") :=
      funext db.linesOf_eq
    rw [hlinesOf, ← List.map_flatMap]
    exact List.flatMap_def.symm
  have hfeed : ∀ line ∈ lines, (10 : CodeUnit) ∉ line := by
    intro line hline
    rcases List.mem_cons.mp hline with rfl | hline
    · exact notMem_canonicalJson hheader
    rcases List.mem_append.mp hline with hline | hline
    · obtain ⟨t, ht, hline⟩ := List.mem_flatMap.mp hline
      obtain ⟨r, hr, rfl⟩ := List.mem_map.mp hline
      exact notMem_canonicalJson (readable_recordEnvelope t.name (db.readable_exported ht hr))
    · rw [List.mem_singleton.mp hline]
      exact notMem_canonicalJson hfooter
  have htexts : ∀ t ∈ portableSections, (db.textsOf t).filter (isRecordOf s.name) =
      if t.name = s.name then db.textsOf t else [] := by
    intro t ht
    have hall : ∀ text ∈ db.textsOf t, isRecordOf s.name text = decide (t.name = s.name) := by
      intro text htext
      obtain ⟨r, hr, rfl⟩ := List.mem_map.mp htext
      exact isRecordOf_envelope (db.readable_exported ht hr) t.name s.name
    split
    · rename_i hname
      refine List.filter_eq_self.mpr fun text htext => ?_
      rw [hall text htext, hname]
      exact decide_eq_true rfl
    · rename_i hname
      refine List.filter_eq_nil_iff.mpr fun text htext => ?_
      rw [hall text htext]
      simpa using hname
  have hheaderLine := isRecordOf_of_type hheader rfl (by decide) s.name
  have hfooterLine := isRecordOf_of_type hfooter rfl (by decide) s.name
  have hends : isRecordOf s.name [] = false := rfl
  rw [sectionLines, hstream, splitOn_lines hfeed, hlines]
  simp only [List.cons_append, List.filter_cons, List.filter_append, List.filter_nil, hheaderLine,
    hfooterLine, hends, Bool.false_eq_true, if_false, List.append_nil, List.filter_flatMap]
  rw [← flatMap_of_key (f := db.textsOf) nodup_sectionNames hs]
  exact List.flatMap_congr fun t ht => htexts t ht

/-! ### The records that are read -/

end Snapshot

/-- The identity of an exported record: the columns that its section is ordered by. -/
def recordId (s : PortableSection) (r : Json) : JsString := (js ":").intercalate (orderKey s r)

/-- The sections that `stableId` names are those that are not ordered by `id`. -/
theorem orderBy_of_name : ∀ s ∈ portableSections,
    s.orderBy = if s.name = "foreign_payment_sources" then ["source_key"]
      else if s.name = "transaction_tag_links" then ["transaction_id", "tag_id"]
      else if s.name = "settings" then ["profile_id"] else ["id"] := by
  decide

theorem orderBy_not_dropped :
    ∀ s ∈ portableSections, ∀ column ∈ s.orderBy, isDropped (js column) = false := by
  decide +kernel

/-- A text that is not empty counts as true. -/
theorem truthy?_of_str {record : Json} {key : String} {text : JsString}
    (h : property? record key = some (.str text)) (hne : text ≠ []) :
    truthy? record key = some (.str text) := by
  rw [truthy?, h, Option.filter_some, if_pos]
  simp [truthy, hne]

/-- The identity is taken from the columns of the section. -/
theorem stableId_of_columns {s : PortableSection} (hs : s ∈ portableSections) {record : Json}
    (hcolumns : ∀ column ∈ s.orderBy,
      property? record column = some (.str (columnText record column)) ∧
        columnText record column ≠ [])
    (hsource : s.name = "foreign_payment_sources" →
      isSha256 (columnText record "source_key") = true) (ordinal : ℕ) :
    stableId s.name record ordinal = .ok (recordId s record) := by
  have horder := orderBy_of_name s hs
  unfold stableId recordId orderKey
  split
  · rename_i hname
    rw [horder, if_pos hname, List.forall_mem_singleton] at hcolumns
    rw [hcolumns.1, horder, if_pos hname]
    dsimp only
    rw [if_pos (hsource hname)]
    simp
  rename_i hne
  rw [if_neg hne] at horder
  split
  · rename_i hname
    rw [horder, if_pos hname, List.forall_mem_cons, List.forall_mem_singleton] at hcolumns
    obtain ⟨⟨htransaction, hne⟩, htag, hne'⟩ := hcolumns
    rw [truthy?_of_str htransaction hne, truthy?_of_str htag hne', horder, if_pos hname]
    simp [toStr, List.intercalate]
  rename_i hne
  rw [if_neg hne] at horder
  split
  · rename_i hname
    rw [horder, if_pos hname, List.forall_mem_singleton] at hcolumns
    rw [truthy?_of_str hcolumns.1 hcolumns.2, horder, if_pos hname]
    simp [toStr]
  · rename_i hname
    rw [horder, if_neg hname, List.forall_mem_singleton] at hcolumns
    rw [hcolumns.1, horder, if_neg hname]
    dsimp only
    rw [if_neg hcolumns.2]
    simp

namespace Snapshot

variable (db : Snapshot) {s : PortableSection} {r : Json}

theorem orderKey_portableRecord (hs : s ∈ portableSections) (row : Json) :
    orderKey s (portableRecord row) = orderKey s row := by
  refine List.map_congr_left fun column hcolumn => ?_
  rw [columnText, columnText, property?_portableRecord (orderBy_not_excluded s hs column hcolumn)]

/-- The columns that a section is ordered by are in the canonical records. -/
theorem columns_canonical (hs : s ∈ portableSections)
    (hr : r ∈ exportedRecords db.tables db.profileId s) {column : String}
    (hcolumn : column ∈ s.orderBy) :
    property? (canonical r) column = some (.str (columnText r column)) ∧
      columnText (canonical r) column = columnText r column ∧ columnText r column ≠ [] := by
  have hread := db.readable_exported hs hr
  obtain ⟨row, hrow, rfl⟩ := List.mem_map.mp hr
  obtain ⟨text, htext, hne⟩ :=
    db.columns_text s hs row (db.mem_of_mem_exportedRows hrow) column hcolumn
  rw [← property?_portableRecord (orderBy_not_excluded s hs column hcolumn)] at htext
  have hcanonical := property?_canonical_str hread (orderBy_not_dropped s hs column hcolumn) htext
  rw [columnText, columnText, hcanonical, htext]
  exact ⟨rfl, rfl, hne⟩

theorem recordId_canonical (hs : s ∈ portableSections)
    (hr : r ∈ exportedRecords db.tables db.profileId s) :
    recordId s (canonical r) = recordId s r :=
  congrArg (js ":").intercalate
    (List.map_congr_left fun _ hcolumn => (db.columns_canonical hs hr hcolumn).2.1)

theorem stableId_exported (hs : s ∈ portableSections)
    (hr : r ∈ exportedRecords db.tables db.profileId s) (ordinal : ℕ) :
    stableId s.name (canonical r) ordinal = .ok (recordId s r) := by
  rw [← db.recordId_canonical hs hr]
  refine stableId_of_columns hs (fun column hcolumn => ?_) (fun hname => ?_) ordinal
  · obtain ⟨hproperty, hcolumnText, hne⟩ := db.columns_canonical hs hr hcolumn
    rw [hcolumnText]
    exact ⟨hproperty, hne⟩
  · have horder : s.orderBy = ["source_key"] := by rw [orderBy_of_name s hs, if_pos hname]
    have hcolumn : "source_key" ∈ s.orderBy := by simp [horder]
    rw [(db.columns_canonical hs hr hcolumn).2.1]
    obtain ⟨row, hrow, rfl⟩ := List.mem_map.mp hr
    have htable : s.table = "foreign_payment_sources" := by
      have : ∀ s ∈ portableSections, s.name = "foreign_payment_sources" →
          s.table = "foreign_payment_sources" := by decide
      exact this s hs hname
    rw [columnText, property?_portableRecord (orderBy_not_excluded s hs _ hcolumn), ← columnText]
    exact db.source_keys row (htable ▸ db.mem_of_mem_exportedRows hrow)

/-- Rows with one identity have one key. -/
theorem orderKey_of_recordId (hs : s ∈ portableSections) {row row' : Json}
    (hrow : row ∈ db.tables s.table) (hrow' : row' ∈ db.tables s.table)
    (h : recordId s row = recordId s row') : orderKey s row = orderKey s row' := by
  by_cases hname : s.name = "transaction_tag_links"
  · -- the identity of a transaction has no colon in it
    have horder : s.orderBy = ["transaction_id", "tag_id"] := by
      rw [orderBy_of_name s hs, if_neg (by rw [hname]; decide), if_pos hname]
    have htable : s.table = "transaction_tag_links" := by
      have : ∀ s ∈ portableSections, s.name = "transaction_tag_links" →
          s.table = "transaction_tag_links" := by decide
      exact this s hs hname
    have hid := db.link_ids row (htable ▸ hrow)
    have hid' := db.link_ids row' (htable ▸ hrow')
    simp only [recordId, orderKey, horder, List.map_cons, List.map_nil] at h ⊢
    have hcolon : js ":" = [58] := rfl
    have hsplit : columnText row "transaction_id" ++ 58 :: columnText row "tag_id" =
        columnText row' "transaction_id" ++ 58 :: columnText row' "tag_id" := by
      simpa [List.intercalate, hcolon] using h
    obtain ⟨htransaction, htag⟩ := append_sep_inj hid hid' hsplit
    rw [htransaction, htag]
  · have horder : ∀ s ∈ portableSections, s.name ≠ "transaction_tag_links" →
        s.orderBy.length = 1 := by decide
    obtain ⟨column, hcolumn⟩ := List.length_eq_one_iff.mp (horder s hs hname)
    simpa [recordId, orderKey, hcolumn, List.intercalate] using h

/-- The identities tell the records of a section apart. -/
theorem recordIds_nodup (hs : s ∈ portableSections) :
    ((exportedRecords db.tables db.profileId s).map (recordId s)).Nodup := by
  have hkeys := (((sortBy_perm (orderKey s) (profileRows db.tables db.profileId s)).map
    (orderKey s)).nodup_iff).mpr (db.keys_nodup s hs)
  rw [exportedRecords, List.map_map]
  refine List.pairwise_map.mpr ((List.pairwise_map.mp hkeys).imp_of_mem ?_)
  intro row row' hrow hrow' hne h
  refine hne (db.orderKey_of_recordId hs (db.mem_of_mem_exportedRows hrow)
    (db.mem_of_mem_exportedRows hrow') ?_)
  have hrecord : ∀ row, recordId s (portableRecord row) = recordId s row :=
    fun row => congrArg (js ":").intercalate (orderKey_portableRecord hs row)
  rw [← hrecord row, ← hrecord row']
  exact h

/-- A record that is exported is one of the profile. -/
theorem ownedBy_exported (hs : s ∈ portableSections)
    (hr : r ∈ exportedRecords db.tables db.profileId s) :
    ownedBy (canonical r) db.profileId = true := by
  have hread := db.readable_exported hs hr
  obtain ⟨row, hrow, rfl⟩ := List.mem_map.mp hr
  have hmem := db.mem_of_mem_exportedRows hrow
  have hexported : isExported db.tables db.profileId s row = true :=
    (List.mem_filter.mp (mem_sortBy.mp hrow)).2
  have hproperty : property? (portableRecord row) "profile_id" = property? row "profile_id" :=
    property?_portableRecord (by decide +kernel)
  have hdropped : isDropped (js "profile_id") = false := by decide +kernel
  have howner : columnIs row "profile_id" db.profileId = true →
      ownedBy (canonical (portableRecord row)) db.profileId = true := by
    intro h
    obtain ⟨value, hvalue, htext⟩ := (Option.any_eq_true ..).mp h
    cases value with
    | str text =>
      have htext : text = db.profileId := by simpa [isStr] using htext
      subst htext
      rw [ownedBy, property?_canonical_str hread hdropped (hproperty.trans hvalue)]
      simp [isStr]
    | _ => cases htext
  have hnone : property? row "profile_id" = none →
      ownedBy (canonical (portableRecord row)) db.profileId = true := by
    intro h
    rw [ownedBy, property?_canonical hread hdropped, hproperty, h]
    rfl
  unfold isExported at hexported
  split at hexported
  · rename_i hfilter
    exact hnone (db.no_profile_id s hs (.inl hfilter) row hmem)
  · exact howner hexported
  · exact howner (Bool.and_eq_true _ _ ▸ hexported).1
  · rename_i hfilter
    exact hnone (db.no_profile_id s hs (.inr hfilter) row hmem)

end Snapshot

/-! ### Reading the lines -/

/-- A section with one more record read. -/
def Reading.add (sha256 : JsString → JsString) (reading : Reading) (s : PortableSection)
    (r : Json) : Reading where
  records := reading.records ++ [⟨reading.records.length, recordId s r, canonical r,
    sha256 (canonicalJson r ++ js "\n")⟩]
  hashed := reading.hashed ++ (canonicalJson r ++ js "\n")
  bytes := reading.bytes + utf8Length (canonicalJson r ++ js "\n")

namespace Snapshot

variable (db : Snapshot) {s : PortableSection} {r : Json} {sha256 : JsString → JsString}

/-- Reading the line of a record. -/
theorem readLine_exported (hs : s ∈ portableSections)
    (hr : r ∈ exportedRecords db.tables db.profileId s) {reading : Reading}
    (hnew : recordId s r ∉ reading.records.map ParsedRecord.stableId) (n : ℕ) :
    readLine sha256 s.name db.profileId reading (canonicalJson (recordEnvelope s.name r), n) =
      if maxSectionRecords < reading.records.length + 1 then
        .error (.restore "section_record_limit" 413 .none)
      else .ok (reading.add sha256 s r) := by
  have hread := db.readable_exported hs hr
  have henvelope := readable_recordEnvelope s.name hread
  have hobject : ∃ fields, r = .obj fields := by
    obtain ⟨row, hrow, rfl⟩ := List.mem_map.mp hr
    have := (db.rows_readable s hs row (db.mem_of_mem_exportedRows hrow)).1
    cases row with
    | obj fields => exact ⟨_, rfl⟩
    | _ => cases this
  -- the record is read back in canonical form
  have htype : property? (canonical (recordEnvelope s.name r)) "type" =
      some (.str (js "record")) := property?_canonical_str henvelope rfl rfl
  have hsection : property? (canonical (recordEnvelope s.name r)) "section" =
      some (.str (js s.name)) := property?_canonical_str henvelope rfl rfl
  have hrecord : property? (canonical (recordEnvelope s.name r)) "record" =
      some (canonical r) := by
    have hproperty : property? (recordEnvelope s.name r) "record" = some r := rfl
    rw [property?_canonical henvelope rfl, hproperty, canonical, Option.map_some]
    obtain ⟨fields, rfl⟩ := hobject
    rw [@canonicalize_obj (js "record") rfl, @canonicalize_obj [] rfl]
  have hlineRecord : lineRecord s.name n (canonical (recordEnvelope s.name r)) =
      .ok (canonical r) := by
    unfold lineRecord
    rw [htype, hsection, hrecord]
    simp [isStr, failIf]
  have hnormalize : normalizeRecord (canonical r) db.profileId s.name reading.records.length =
      .ok (canonical r, recordId s r) := by
    have hcanonical : ∃ fields, canonical r = .obj fields := by
      obtain ⟨fields, rfl⟩ := hobject
      exact ⟨_, by rw [canonical, canonicalize_obj rfl, printed_obj]⟩
    have hid := db.stableId_exported hs hr reading.records.length
    have howned := db.ownedBy_exported hs hr
    have hparse : parse (canonicalJson (canonical r)) = some (canonical r) := by
      rw [canonicalJson_canonical hread, parse_canonicalJson hread]
    obtain ⟨fields, hfields⟩ := hcanonical
    rw [hfields] at hid howned hparse ⊢
    unfold normalizeRecord
    dsimp only
    rw [howned, hparse]
    dsimp only
    rw [hid]
    rfl
  have hne : canonicalJson (recordEnvelope s.name r) ≠ [] := by
    intro h
    have := parse_canonicalJson henvelope
    rw [h] at this
    cases this
  unfold readLine
  rw [if_neg hne, parse_canonicalJson henvelope]
  dsimp only
  rw [hlineRecord]
  simp only [bind, Except.bind]
  rw [hnormalize]
  dsimp only
  rw [failIf_of_not hnew]
  dsimp only
  rw [canonicalJson_canonical hread]
  by_cases hlimit : maxSectionRecords < reading.records.length + 1
  · rw [if_pos hlimit, failIf_of hlimit]
  · rw [if_neg hlimit, failIf_of_not hlimit]
    rfl

/-- The lines of a section are read in turn, as long as there are not too many. -/
theorem readLines_eq (hs : s ∈ portableSections) {rs : List Json}
    (hrs : ∀ r ∈ rs, r ∈ exportedRecords db.tables db.profileId s) {reading : Reading}
    (hnodup : (reading.records.map ParsedRecord.stableId ++ rs.map (recordId s)).Nodup)
    (hlimit : reading.records.length ≤ maxSectionRecords) (n : ℕ) :
    ((rs.map fun r => canonicalJson (recordEnvelope s.name r)).zipIdx n).foldlM
        (readLine sha256 s.name db.profileId) reading =
      if maxSectionRecords < reading.records.length + rs.length then
        .error (.restore "section_record_limit" 413 .none)
      else .ok (rs.foldl (Reading.add sha256 · s ·) reading) := by
  induction rs generalizing reading n with
  | nil =>
    rw [List.length_nil, if_neg (by omega)]
    rfl
  | cons r rs ih =>
    have hnew : recordId s r ∉ reading.records.map ParsedRecord.stableId := by
      intro hmem
      exact (List.nodup_append.mp hnodup).2.2 _ hmem _ List.mem_cons_self rfl
    rw [List.map_cons, List.zipIdx_cons, List.foldlM_cons,
      db.readLine_exported hs (hrs r List.mem_cons_self) hnew]
    by_cases hfull : maxSectionRecords < reading.records.length + 1
    · rw [if_pos hfull, if_pos (by rw [List.length_cons]; omega)]
      rfl
    · have hlength : (reading.add sha256 s r).records.length = reading.records.length + 1 := by
        simp [Reading.add]
      have hids : (reading.add sha256 s r).records.map ParsedRecord.stableId =
          reading.records.map ParsedRecord.stableId ++ [recordId s r] := by
        simp [Reading.add]
      rw [if_neg hfull]
      refine (ih (fun r hr => hrs r (List.mem_cons_of_mem _ hr)) ?_ (by omega) (n + 1)).trans ?_
      · rw [hids, List.append_assoc]
        exact hnodup
      · rw [hlength, List.length_cons, Nat.add_right_comm, Nat.add_assoc]
        rfl

end Snapshot

/-- What is summed up of the records is what the export sums up. -/
theorem Reading.foldl_add {sha256 : JsString → JsString} {s : PortableSection} {rs : List Json}
    {reading : Reading} {sum : SectionSum} (hcount : reading.records.length = sum.count)
    (hbytes : reading.bytes = sum.bytes) (hhashed : reading.hashed = sum.hashed) :
    (rs.foldl (Reading.add sha256 · s ·) reading).records.length = (sum.addAll rs).count ∧
      (rs.foldl (Reading.add sha256 · s ·) reading).bytes = (sum.addAll rs).bytes ∧
      (rs.foldl (Reading.add sha256 · s ·) reading).hashed = (sum.addAll rs).hashed := by
  induction rs generalizing reading sum with
  | nil =>
    rw [SectionSum.addAll_nil]
    exact ⟨hcount, hbytes, hhashed⟩
  | cons r rs ih =>
    rw [SectionSum.addAll_cons]
    refine ih ?_ ?_ ?_
    · simp [Reading.add, SectionSum.add, hcount]
    · simp [Reading.add, SectionSum.add, hbytes]
    · simp [Reading.add, SectionSum.add, hhashed]

/-- The records that are read, in the order of the lines. -/
theorem Reading.records_foldl_add {sha256 : JsString → JsString} {s : PortableSection}
    {rs : List Json} {reading : Reading} :
    (rs.foldl (Reading.add sha256 · s ·) reading).records.map ParsedRecord.record =
      reading.records.map ParsedRecord.record ++ rs.map canonical := by
  induction rs generalizing reading with
  | nil => simp
  | cons r rs ih =>
    rw [List.foldl_cons, ih]
    simp [Reading.add]

namespace Snapshot

variable (db : Snapshot) {s : PortableSection}

/-- The lines of a section are read back with the count, the bytes and the digest that the footer
declares, unless there is more than the restore side takes. -/
theorem parseSectionNdjson_exported (sha256 : JsString → JsString) (hs : s ∈ portableSections) :
    ∃ records : List ParsedRecord, records.map ParsedRecord.record =
        (exportedRecords db.tables db.profileId s).map canonical ∧
      parseSectionNdjson sha256 ((db.textsOf s).flatMap (· ++ js "\n")) s.name db.profileId =
        if maxSectionBytes < utf8Length ((db.textsOf s).flatMap (· ++ js "\n")) then
          .error (.restore "section_too_large" 413 .none)
        else if maxSectionRecords < (db.statsOf sha256 s).count then
          .error (.restore "section_record_limit" 413 .none)
        else .ok ⟨records, (db.statsOf sha256 s).count, (db.statsOf sha256 s).plaintextBytes,
          (db.statsOf sha256 s).sha256⟩ := by
  set rs := exportedRecords db.tables db.profileId s with hrs
  have hcanonical : ∀ text ∈ db.textsOf s, ∀ c ∈ text, 32 ≤ c.val := by
    intro text htext c hc
    obtain ⟨r, hr, rfl⟩ := List.mem_map.mp htext
    exact le_of_mem_canonicalJson (readable_recordEnvelope s.name (db.readable_exported hs hr)) hc
  have hsplit : ((db.textsOf s).flatMap (· ++ js "\n")).splitOn 10 = db.textsOf s ++ [[]] :=
    splitOn_lines fun text htext hmem => absurd (hcanonical text htext 10 hmem) (by decide)
  have hnul : (0 : CodeUnit) ∉ (db.textsOf s).flatMap (· ++ js "\n") := by
    intro hmem
    obtain ⟨text, htext, hmem⟩ := List.mem_flatMap.mp hmem
    rcases List.mem_append.mp hmem with hmem | hmem
    · exact absurd (hcanonical text htext 0 hmem) (by decide)
    · revert hmem
      decide
  have hknown : (sectionByName s.name).isNone = false := by
    have : ∀ s ∈ portableSections, (sectionByName s.name).isNone = false := by decide
    exact this s hs
  have hcount : (db.statsOf sha256 s).count = rs.length := Nat.zero_add _
  -- the lines one after the other, then the empty one behind the last line feed
  let start : Reading := ⟨[], [], 0⟩
  have hstart : (start.records.map ParsedRecord.stableId ++ rs.map (recordId s)).Nodup :=
    db.recordIds_nodup hs
  have hread := @readLines_eq db s sha256 hs rs (fun _ hr => hr) start hstart (Nat.zero_le _) 0
  obtain ⟨hlength, hbytes, hhashed⟩ :=
    @Reading.foldl_add sha256 s rs start ⟨0, 0, []⟩ rfl rfl rfl
  refine ⟨(rs.foldl (Reading.add sha256 · s ·) start).records, Reading.records_foldl_add, ?_⟩
  unfold parseSectionNdjson
  rw [failIf_of_not (by simp [hknown]), failIf_of_not hnul, hsplit, List.zipIdx_append,
    List.foldlM_append]
  by_cases hbig : maxSectionBytes < utf8Length ((db.textsOf s).flatMap (· ++ js "\n"))
  · rw [if_pos hbig, failIf_of hbig]
    rfl
  rw [if_neg hbig, failIf_of_not hbig, hcount]
  have htexts : db.textsOf s = rs.map fun r => canonicalJson (recordEnvelope s.name r) := rfl
  rw [htexts, hread]
  simp only [start, List.length_nil, Nat.zero_add]
  by_cases hlimit : maxSectionRecords < rs.length
  · rw [if_pos hlimit, if_pos hlimit]
    rfl
  · rw [if_neg hlimit, if_neg hlimit]
    simp only [bind, Except.bind, List.zipIdx_cons, List.zipIdx_nil, List.foldlM_cons,
      List.foldlM_nil, readLine, if_true, pure, Except.pure]
    rw [hlength, hbytes, hhashed, ← hcount]
    rfl

end Snapshot

/-- The manifest declares of a section what the footer does. -/
def DeclaredAs (manifest : Manifest) (sectionName : String) (stats : SectionStats) : Prop :=
  sectionDeclaration manifest sectionName =
    some ⟨some stats.count, some stats.plaintextBytes, some stats.sha256⟩

/-- A section of an export is complete and passes its verification: it has one line for each row, in
the order of the rows, and reading these lines computes the count, the bytes and the digest that the
footer declares, so that a manifest with these numbers is met. -/
structure VerifiedSection (db : Snapshot) (sha256 : JsString → JsString) (exported : Exported)
    (s : PortableSection) (rows : List Json) (stats : SectionStats) (records : List ParsedRecord) :
    Prop where
  perm : rows.Perm (profileRows db.tables db.profileId s)
  sorted : rows.Pairwise fun row row' => orderKey s row ≤ orderKey s row'
  lines : sectionLines s.name exported.chunks.flatten =
    rows.map fun row => canonicalJson (recordEnvelope s.name (portableRecord row))
  declared : (s.name, stats) ∈ exported.sections
  readBack : records.map ParsedRecord.record = rows.map fun row => canonical (portableRecord row)
  /-- More bytes or records than the restore side takes are all that it refuses. -/
  parsed : parseSectionNdjson sha256 (sectionText s.name exported.chunks.flatten) s.name
      db.profileId =
    if maxSectionBytes < utf8Length (sectionText s.name exported.chunks.flatten) then
      .error (.restore "section_too_large" 413 .none)
    else if maxSectionRecords < stats.count then .error (.restore "section_record_limit" 413 .none)
    else .ok ⟨records, stats.count, stats.plaintextBytes, stats.sha256⟩
  matched : ∀ manifest, DeclaredAs manifest s.name stats →
    Db.matchesDeclaration manifest s.name
      ⟨records, stats.count, stats.plaintextBytes, stats.sha256⟩ = true

/-- An export comes to an end, and every section of it passes its own verification. -/
theorem export_verifies (db : Snapshot) (sha256 : JsString → JsString) (options : ExportOptions)
    (metadata : ExportMetadata) :
    exportSnapshot sha256 options db.tables db.profileId metadata ≠ .error .unfinished ∧
      ∀ exported, exportSnapshot sha256 options db.tables db.profileId metadata = .ok exported →
        ∀ s ∈ portableSections, ∃ rows stats records,
          VerifiedSection db sha256 exported s rows stats records := by
  refine ⟨db.exportSnapshot_finishes, fun exported h s hs => ?_⟩
  obtain ⟨records, hrecords, hparse⟩ := db.parseSectionNdjson_exported sha256 hs
  have hlines := db.sectionLines_exported hs h
  obtain ⟨-, hsections, -⟩ := db.exportSnapshot_eq_ok h
  refine ⟨exportedRows db.tables db.profileId s, db.statsOf sha256 s, records, sortBy_perm _ _,
    pairwise_sortBy _ _, ?_, ?_, ?_, ?_, ?_⟩
  · rw [hlines, Snapshot.textsOf, exportedRecords, List.map_map]
    rfl
  · rw [hsections]
    exact List.mem_map.mpr ⟨s, hs, rfl⟩
  · rw [hrecords, exportedRecords, List.map_map]
    rfl
  · rw [sectionText, hlines]
    exact hparse
  · intro manifest hmanifest
    rw [Db.matchesDeclaration, hmanifest]
    simp

/-! ### An account -/

/-- A value without parts. -/
def isScalar : Json → Bool
  | .null | .bool _ | .str _ | .num (.int _) => true
  | .num (.fraction digits places) => 0 < places ∧ ¬ 10 ∣ digits.natAbs
  | _ => false

/-- A row whose columns are distinct and have no parts. -/
def isPlainRow : Json → Bool
  | .obj fields => (fields.map Prod.fst).Nodup && fields.all (isScalar ·.2)
  | _ => false

theorem readable_of_isScalar {value : Json} (h : isScalar value = true) : Readable value := by
  unfold isScalar at h
  split at h
  · exact .null
  · exact .bool _
  · exact .str _
  · exact .num _ trivial
  · have h := of_decide_eq_true h
    exact .num _ h
  · cases h

theorem readable_of_isPlainRow {row : Json} (h : isPlainRow row = true) :
    isObject row = true ∧ Readable row := by
  unfold isPlainRow at h
  split at h
  · obtain ⟨hnodup, hfields⟩ := (Bool.and_eq_true _ _).mp h
    refine ⟨rfl, .obj _ (of_decide_eq_true hnodup) fun f hf => readable_of_isScalar ?_⟩
    exact List.all_eq_true.mp hfields f hf
  · cases h

theorem toOption_eq_some {ε α : Type} {x : Except ε α} {a : α} :
    x.toOption = some a ↔ x = .ok a := by
  cases x <;> simp [Except.toOption]

/-- The tables of an example: an account with two transactions, beside one of somebody else. -/
def meeraTables (table : String) : List Json :=
  if table = "profiles" then
    [.obj [(js "id", .str (js "meera")), (js "name", .str (js "M\"eera\n"))]]
  else if table = "transactions" then
    [.obj [(js "id", .str (js "t2")), (js "profile_id", .str (js "meera")),
        (js "amount_inr", .num (.fraction 24905 2)), (js "note", .null)],
      .obj [(js "id", .str (js "t1")), (js "profile_id", .str (js "meera")),
        (js "amount_inr", .num (.int 120)), (js "device_id", .str (js "phone"))],
      .obj [(js "id", .str (js "t3")), (js "profile_id", .str (js "ravi"))]]
  else []

/-- The account of the example, as the schema has it. -/
def meeraSnapshot : Snapshot where
  tables := meeraTables
  profileId := js "meera"
  rows_readable := by
    have hplain : ∀ s ∈ portableSections, ∀ row ∈ meeraTables s.table, isPlainRow row = true := by
      decide +kernel
    exact fun s hs row hrow => readable_of_isPlainRow (hplain s hs row hrow)
  columns_text := by
    have htext : ∀ s ∈ portableSections, ∀ row ∈ meeraTables s.table, ∀ column ∈ s.orderBy,
        (textProperty row column).any (· ≠ []) = true := by
      decide +kernel
    intro s hs row hrow column hcolumn
    obtain ⟨text, htext, hne⟩ := (Option.any_eq_true ..).mp (htext s hs row hrow column hcolumn)
    unfold textProperty at htext
    split at htext
    · rename_i hproperty
      cases htext
      exact ⟨_, hproperty, of_decide_eq_true hne⟩
    · cases htext
  keys_nodup := by decide +kernel
  no_profile_id := by decide +kernel
  source_keys := by decide +kernel
  link_ids := by decide +kernel

/-- The example exported, a row a page. -/
theorem export_verifies_meera : ∃ exported,
    exportSnapshot id ⟨1, 100000, 1000, fun _ => none⟩ meeraTables (js "meera")
      ⟨js "meera", js "b1", js "2026-11-01", js "r1", 7⟩ = .ok exported ∧
    exported.chunks.length = 5 ∧
    ∀ s ∈ portableSections, ∃ rows stats records,
      VerifiedSection meeraSnapshot id exported s rows stats records := by
  have hrun : ((exportSnapshot id ⟨1, 100000, 1000, fun _ => none⟩ meeraTables (js "meera")
      ⟨js "meera", js "b1", js "2026-11-01", js "r1", 7⟩).toOption.any
        fun exported => exported.chunks.length = 5) = true := by decide +kernel
  obtain ⟨exported, hexported, hlength⟩ := (Option.any_eq_true ..).mp hrun
  obtain h := toOption_eq_some.mp hexported
  exact ⟨exported, h, of_decide_eq_true hlength,
    (export_verifies meeraSnapshot id _ _).2 exported h⟩

end PandaPay.PortableBackup
