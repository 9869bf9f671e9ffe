import PandaPay.Sync.Device

/-!
# The queue keeps the last edit

Each step of a device keeps the last edit of every field: in a queued change, in the hands of a
deletion that came later, or with the server. Clocks decide on the server, so the order in which
changes arrive does not matter.

## Main definitions

* `Queue.Absorbs`: what an edit does to the queue
* `Device.Kept`: the invariant of runs

## Main results

* `write_merged`: what merging an edit into a queued change makes it write
* `lastEdit_greatest`: later edits have greater clocks
* `kept_step`: every step keeps the invariant
* `keeps_last_edit`: the last edit is accounted for, and reaches the server
-/

namespace PandaPay.Sync

variable {J : Type}

/-! ### Fields of a change -/

section Fields

variable {ν : Type} {map : InsertionMap String ν} {field : String}

theorem get?_addAll {entries : List (String × ν)} (hnodup : (entries.map Prod.fst).Nodup) :
    (addAll map entries).get? field = (InsertionMap.lookup field entries).or (map.get? field) := by
  induction entries generalizing map with
  | nil => rfl
  | cons e entries ih =>
    rw [List.map_cons, List.nodup_cons] at hnodup
    rw [addAll, List.foldl_cons, ← addAll, ih hnodup.2, InsertionMap.lookup, InsertionMap.get?_set]
    by_cases he : e.1 = field
    · have hnone : InsertionMap.lookup field entries = none :=
        InsertionMap.lookup_eq_none_iff.mpr (he ▸ hnodup.1)
      rw [if_pos he, if_pos he.symm, hnone]
      rfl
    · rw [if_neg he, if_neg fun h => he h.symm]

theorem lookup_clocksFor (fields : InsertionMap String J) (clockMs : ℤ) :
    InsertionMap.lookup field (clocksFor fields clockMs) = (fields.get? field).map fun _ => clockMs := by
  unfold clocksFor InsertionMap.keys InsertionMap.get?
  induction fields.entries with
  | nil => rfl
  | cons e entries ih =>
    rw [List.map_cons, List.map_cons, InsertionMap.lookup, InsertionMap.lookup]
    split
    · rfl
    · exact ih

theorem nodup_clocksFor (fields : InsertionMap String J) (clockMs : ℤ) :
    ((clocksFor fields clockMs).map Prod.fst).Nodup := by
  unfold clocksFor
  rw [List.map_map]
  exact (List.map_id _).symm ▸ fields.nodup_keys

/-- A new change writes the fields of its edit. -/
theorem write_inserted (target : Target) (fields : InsertionMap String J) (clockMs : ℤ) (n : ℕ) :
    (⟨target, .update, fields, addAll .empty (clocksFor fields clockMs), n⟩ :
      SyncChange J).write field = (fields.get? field).map fun value => ⟨clockMs, value⟩ := by
  unfold SyncChange.write
  dsimp only
  rw [get?_addAll (nodup_clocksFor _ _), lookup_clocksFor]
  cases fields.get? field <;> rfl

/-- A change that an edit was merged into writes the fields of the edit, and its other fields as
before. -/
theorem write_merged (row existing : PendingChange J) (fields : InsertionMap String J) (clockMs : ℤ) :
    (row.withFields (addAll existing.payload fields.entries)
      (addAll existing.fieldClocks (clocksFor fields clockMs))).write field =
        ((fields.get? field).map fun value => ⟨clockMs, value⟩).or (existing.write field) := by
  unfold SyncChange.write PendingChange.withFields
  dsimp only
  rw [get?_addAll (nodup_clocksFor _ _), get?_addAll fields.nodup_keys, lookup_clocksFor,
    InsertionMap.get?]
  cases InsertionMap.lookup field fields.entries <;> rfl

end Fields

/-! ### The user's edits -/

section Edits

variable {target : Target} {field : String} {edits : List (LocalEdit J)} {w w' : Stamped ℤ J}

theorem lastEdit_append (edits : List (LocalEdit J)) (edit : LocalEdit J) :
    lastEdit target field (edits ++ [edit]) =
      (edit.write target field).or (lastEdit target field edits) := by
  rw [lastEdit, List.foldl_append]
  rfl

theorem stamp_of_write {edit : LocalEdit J} (h : edit.write target field = some w) :
    w.stamp = edit.clockMs := by
  cases edit with
  | update target' fields clockMs =>
    rw [LocalEdit.write] at h
    split at h
    · obtain ⟨_, -, rfl⟩ := Option.map_eq_some_iff.mp h
      rfl
    · cases h
  | delete => cases h

/-- The last edit was made. -/
theorem exists_of_lastEdit (h : lastEdit target field edits = some w) :
    ∃ edit ∈ edits, edit.write target field = some w := by
  induction edits using List.reverseRecOn with
  | nil => cases h
  | append_singleton edits edit ih =>
    rw [lastEdit_append, Option.or_eq_some_iff] at h
    rcases h with h | ⟨-, h⟩
    · exact ⟨edit, List.mem_append_right _ (List.mem_singleton.mpr rfl), h⟩
    · obtain ⟨edit', hmem, hwrite⟩ := ih h
      exact ⟨edit', List.mem_append_left _ hmem, hwrite⟩

/-- Where clocks increase, the last edit of a field is the one with the greatest clock. -/
theorem lastEdit_greatest (hclocks : (edits.map LocalEdit.clockMs).Pairwise (· < ·))
    {edit : LocalEdit J} (hedit : edit ∈ edits) (hwrite : edit.write target field = some w') :
    ∃ w, lastEdit target field edits = some w ∧ w'.stamp ≤ w.stamp ∧
      (w'.stamp = w.stamp → w' = w) := by
  induction edits using List.reverseRecOn with
  | nil => exact absurd hedit List.not_mem_nil
  | append_singleton edits last ih =>
    rw [List.map_append, List.pairwise_append] at hclocks
    obtain ⟨hclocks, -, hlater⟩ := hclocks
    rw [lastEdit_append]
    rcases List.mem_append.mp hedit with hedit | hedit
    · obtain ⟨w, hw, hle, heq⟩ := ih hclocks hedit
      cases hlast : last.write target field with
      | none => exact ⟨w, hw, hle, heq⟩
      | some new =>
        have hlt : w'.stamp < new.stamp := by
          rw [stamp_of_write hwrite, stamp_of_write hlast]
          exact hlater _ (List.mem_map_of_mem hedit) _ (List.mem_singleton.mpr rfl)
        exact ⟨new, rfl, hlt.le, fun h => absurd h hlt.ne⟩
    · rw [List.mem_singleton.mp hedit] at hwrite
      rw [hwrite]
      exact ⟨w', rfl, le_rfl, fun _ => rfl⟩

end Edits

/-! ### The queue -/

namespace Queue

variable {q : Queue J} {target : Target} {fields : InsertionMap String J} {clockMs : ℤ}

theorem mem_update {n : ℕ} {f : PendingChange J → PendingChange J} {row : PendingChange J} :
    row ∈ (q.update n f).rows ↔
      ∃ old ∈ q.rows, row = if old.clientSeq = n then f old else old := by
  unfold update
  simp only [List.mem_map, eq_comm]

theorem rows_mark (b : Bool) (cs : List (SyncChange J)) : (q.mark b cs).rows =
    q.rows.map fun row => if row.clientSeq ∈ cs.map SyncChange.clientSeq then
      { row with inFlight := b } else row := by
  unfold mark
  induction cs generalizing q with
  | nil => simp
  | cons c cs ih =>
    rw [List.foldl_cons, ih]
    unfold update
    dsimp only
    rw [List.map_map]
    refine List.map_congr_left fun row _ => ?_
    rw [Function.comp_apply]
    by_cases hc : row.clientSeq = c.clientSeq
    · simp [hc]
    · simp [hc]

theorem sequence_mark (b : Bool) (cs : List (SyncChange J)) :
    (q.mark b cs).sequence = q.sequence := by
  unfold mark
  induction cs generalizing q with
  | nil => rfl
  | cons c cs ih => exact ih

/-- Marks are not sent. -/
theorem changes_mark (b : Bool) (cs : List (SyncChange J)) : (q.mark b cs).changes = q.changes := by
  unfold changes
  rw [rows_mark, List.map_map]
  refine List.map_congr_left fun row _ => ?_
  rw [Function.comp_apply]
  split <;> rfl

theorem mem_changes_of_mem_pending {limit : ℕ} {c : SyncChange J} (h : c ∈ q.pending limit) :
    c ∈ q.changes := by
  obtain ⟨row, hrow, rfl⟩ := List.mem_map.mp h
  exact List.mem_map_of_mem (List.mem_filter.mp (List.mem_of_mem_take hrow)).1

/-- An edit does nothing, adds a change with a new number, or is merged into a change that is not
being pushed. -/
theorem enqueueUpdate_eq : (fields.entries = [] ∧ q.enqueueUpdate target fields clockMs = q) ∨
    q.enqueueUpdate target fields clockMs =
      q.insert target .update fields (addAll .empty (clocksFor fields clockMs)) clockMs ∨
    ∃ existing ∈ q.rows, existing.toTarget = target ∧ existing.op = .update ∧
      existing.inFlight = false ∧ q.enqueueUpdate target fields clockMs =
        q.update existing.clientSeq fun row =>
          row.withFields (addAll existing.payload fields.entries)
            (addAll existing.fieldClocks (clocksFor fields clockMs)) := by
  unfold enqueueUpdate
  split
  · rename_i hempty
    exact .inl ⟨List.isEmpty_iff.mp hempty, rfl⟩
  · refine .inr ?_
    cases hfind : q.rows.find? (coalesces target) with
    | none => exact .inl rfl
    | some existing =>
      have hmatch := List.find?_some hfind
      unfold coalesces at hmatch
      rw [Bool.and_eq_true, Bool.and_eq_true, decide_eq_true_iff, decide_eq_true_iff,
        Bool.not_eq_true'] at hmatch
      exact .inr ⟨existing, List.mem_of_find?_eq_some hfind, hmatch.1.1, hmatch.1.2, hmatch.2, rfl⟩

/-- What an edit does to the queue: its fields are in a queued change, and every other field of every
change stays; a change that is being pushed is left alone. -/
structure Absorbs (q q' : Queue J) (target : Target) (fields : InsertionMap String J)
    (clockMs : ℤ) : Prop where
  distinct : (q'.changes.map SyncChange.clientSeq).Nodup
  drawn : ∀ c ∈ q'.changes, c.clientSeq ≤ q'.sequence
  sequence_le : q.sequence ≤ q'.sequence
  carried : ∀ field value, fields.get? field = some value → ∃ c ∈ q'.changes, c.toTarget = target ∧
    c.op = .update ∧ c.write field = some ⟨clockMs, value⟩
  kept : ∀ c ∈ q.changes, ∃ c' ∈ q'.changes, c'.clientSeq = c.clientSeq ∧
    c'.toTarget = c.toTarget ∧ c'.op = c.op ∧ ∀ field w, c.write field = some w →
      c.toTarget ≠ target ∨ fields.get? field = none → c'.write field = some w
  origin : ∀ c' ∈ q'.changes, c'.op = .update → ∀ field w, c'.write field = some w →
    c'.toTarget = target ∧ (∃ value, fields.get? field = some value ∧ w = ⟨clockMs, value⟩) ∨
      ∃ c ∈ q.changes, c.toTarget = c'.toTarget ∧ c.op = .update ∧ c.write field = some w
  numbered : ∀ c' ∈ q'.changes, c'.clientSeq ≤ q.sequence →
    ∃ c ∈ q.changes, c.clientSeq = c'.clientSeq ∧ c.toTarget = c'.toTarget ∧ c.op = c'.op
  grounded : ∀ row' ∈ q'.rows, row'.clientSeq ≤ q.sequence →
    row' ∈ q.rows ∨ ∃ row ∈ q.rows, row.clientSeq = row'.clientSeq ∧ row.inFlight = false

theorem Absorbs.refl (hdistinct : (q.changes.map SyncChange.clientSeq).Nodup)
    (hdrawn : ∀ c ∈ q.changes, c.clientSeq ≤ q.sequence) (hfields : fields.entries = []) :
    q.Absorbs q target fields clockMs where
  distinct := hdistinct
  drawn := hdrawn
  sequence_le := le_rfl
  carried field value hvalue := by
    rw [InsertionMap.get?, hfields] at hvalue
    cases hvalue
  kept c hc := ⟨c, hc, rfl, rfl, rfl, fun _ _ hw _ => hw⟩
  origin c' hc' hop _ _ hw := .inr ⟨c', hc', rfl, hop, hw⟩
  numbered c' hc' _ := ⟨c', hc', rfl, rfl, rfl⟩
  grounded row' hrow' _ := .inl hrow'

theorem changes_insert (target : Target) (op : SyncOp) (payload : InsertionMap String J)
    (clocks : InsertionMap String ℤ) : (q.insert target op payload clocks clockMs).changes =
      q.changes ++ [⟨target, op, payload, clocks, q.sequence + 1⟩] := by
  unfold changes insert
  rw [List.map_append, List.map_singleton]

theorem nodup_insert (hdistinct : (q.changes.map SyncChange.clientSeq).Nodup)
    (hdrawn : ∀ c ∈ q.changes, c.clientSeq ≤ q.sequence) (target : Target) (op : SyncOp)
    (payload : InsertionMap String J) (clocks : InsertionMap String ℤ) :
    ((q.insert target op payload clocks clockMs).changes.map SyncChange.clientSeq).Nodup := by
  rw [changes_insert, List.map_append, List.nodup_append]
  refine ⟨hdistinct, List.nodup_singleton _, ?_⟩
  intro n hn m hm
  obtain ⟨c, hc, rfl⟩ := List.mem_map.mp hn
  rw [List.mem_singleton.mp hm]
  exact (Nat.lt_succ_of_le (hdrawn c hc)).ne

theorem Absorbs.insert (hdistinct : (q.changes.map SyncChange.clientSeq).Nodup)
    (hdrawn : ∀ c ∈ q.changes, c.clientSeq ≤ q.sequence) :
    q.Absorbs (q.insert target .update fields (addAll .empty (clocksFor fields clockMs)) clockMs)
      target fields clockMs where
  distinct := nodup_insert hdistinct hdrawn _ _ _ _
  drawn c hc := by
    rw [changes_insert] at hc
    rcases List.mem_append.mp hc with hc | hc
    · exact (hdrawn c hc).trans (Nat.le_succ _)
    · rw [List.mem_singleton.mp hc]
      exact le_rfl
  sequence_le := Nat.le_succ _
  carried field value hvalue := by
    refine ⟨_, ?_, rfl, rfl, (write_inserted target fields clockMs (q.sequence + 1)).trans ?_⟩
    · rw [changes_insert]
      exact List.mem_append_right _ (List.mem_singleton.mpr rfl)
    · rw [hvalue]
      rfl
  kept c hc := by
    refine ⟨c, ?_, rfl, rfl, rfl, fun _ _ hw _ => hw⟩
    rw [changes_insert]
    exact List.mem_append_left _ hc
  origin c' hc' hop field w hw := by
    rw [changes_insert] at hc'
    rcases List.mem_append.mp hc' with hc' | hc'
    · exact .inr ⟨c', hc', rfl, hop, hw⟩
    · rw [List.mem_singleton.mp hc', write_inserted, Option.map_eq_some_iff] at hw
      obtain ⟨value, hvalue, rfl⟩ := hw
      rw [List.mem_singleton.mp hc']
      exact .inl ⟨rfl, value, hvalue, rfl⟩
  numbered c' hc' hle := by
    rw [changes_insert] at hc'
    rcases List.mem_append.mp hc' with hc' | hc'
    · exact ⟨c', hc', rfl, rfl, rfl⟩
    · rw [List.mem_singleton.mp hc'] at hle
      exact absurd hle (Nat.not_succ_le_self _)
  grounded row' hrow' hle := by
    rcases List.mem_append.mp hrow' with hrow' | hrow'
    · exact .inl hrow'
    · rw [List.mem_singleton.mp hrow'] at hle
      exact absurd hle (Nat.not_succ_le_self _)

/-- Rows are told apart by their numbers. -/
theorem eq_of_clientSeq (hdistinct : (q.changes.map SyncChange.clientSeq).Nodup)
    {row row' : PendingChange J} (hrow : row ∈ q.rows) (hrow' : row' ∈ q.rows)
    (heq : row.clientSeq = row'.clientSeq) : row = row' := by
  unfold changes at hdistinct
  rw [List.map_map] at hdistinct
  exact List.inj_on_of_nodup_map hdistinct hrow hrow' heq

theorem Absorbs.merge (hdistinct : (q.changes.map SyncChange.clientSeq).Nodup)
    (hdrawn : ∀ c ∈ q.changes, c.clientSeq ≤ q.sequence) {existing : PendingChange J}
    (hexisting : existing ∈ q.rows) (htarget : existing.toTarget = target)
    (hop : existing.op = .update) (hidle : existing.inFlight = false) :
    q.Absorbs (q.update existing.clientSeq fun row =>
      row.withFields (addAll existing.payload fields.entries)
        (addAll existing.fieldClocks (clocksFor fields clockMs))) target fields clockMs := by
  set f := fun row : PendingChange J => row.withFields (addAll existing.payload fields.entries)
    (addAll existing.fieldClocks (clocksFor fields clockMs)) with hf
  have hwrite : ∀ field, (f existing).write field =
      ((fields.get? field).map fun value => ⟨clockMs, value⟩).or (existing.write field) :=
    fun _ => write_merged existing existing fields clockMs
  have hmerged : f existing ∈ (q.update existing.clientSeq f).rows :=
    mem_update.mpr ⟨existing, hexisting, (if_pos rfl).symm⟩
  have hother : ∀ row ∈ q.rows, row.clientSeq ≠ existing.clientSeq →
      row ∈ (q.update existing.clientSeq f).rows :=
    fun row hrow hne => mem_update.mpr ⟨row, hrow, (if_neg hne).symm⟩
  have hmem : ∀ row' ∈ (q.update existing.clientSeq f).rows,
      row' = f existing ∨ row' ∈ q.rows ∧ row'.clientSeq ≠ existing.clientSeq := by
    intro row' hrow'
    obtain ⟨row, hrow, rfl⟩ := mem_update.mp hrow'
    by_cases heq : row.clientSeq = existing.clientSeq
    · rw [if_pos heq, eq_of_clientSeq hdistinct hrow hexisting heq]
      exact .inl rfl
    · rw [if_neg heq]
      exact .inr ⟨hrow, heq⟩
  -- each row keeps its number, its target and its operation
  have hold : ∀ c' ∈ (q.update existing.clientSeq f).changes,
      ∃ c ∈ q.changes, c.clientSeq = c'.clientSeq ∧ c.toTarget = c'.toTarget ∧ c.op = c'.op := by
    intro c' hc'
    obtain ⟨row', hrow', rfl⟩ := List.mem_map.mp hc'
    rcases hmem row' hrow' with rfl | ⟨hrow', -⟩
    · exact ⟨_, List.mem_map_of_mem hexisting, rfl, rfl, rfl⟩
    · exact ⟨_, List.mem_map_of_mem hrow', rfl, rfl, rfl⟩
  refine ⟨?_, ?_, le_rfl, ?_, ?_, ?_, fun c' hc' _ => hold c' hc', ?_⟩
  · have hnumbers : (q.update existing.clientSeq f).changes.map SyncChange.clientSeq =
        q.changes.map SyncChange.clientSeq := by
      unfold changes update
      rw [List.map_map, List.map_map, List.map_map]
      refine List.map_congr_left fun row _ => ?_
      simp only [Function.comp_apply]
      split <;> rfl
    rw [hnumbers]
    exact hdistinct
  · intro c' hc'
    obtain ⟨c, hc, hnumber, -⟩ := hold c' hc'
    rw [← hnumber]
    exact hdrawn c hc
  · intro field value hvalue
    refine ⟨_, List.mem_map_of_mem hmerged, htarget, hop, ?_⟩
    rw [hwrite, hvalue]
    rfl
  · intro c hc
    obtain ⟨row, hrow, rfl⟩ := List.mem_map.mp hc
    by_cases heq : row.clientSeq = existing.clientSeq
    · rw [eq_of_clientSeq hdistinct hrow hexisting heq]
      refine ⟨_, List.mem_map_of_mem hmerged, rfl, rfl, rfl, ?_⟩
      intro field w hw hfield
      rw [hwrite, hfield.resolve_left fun hne => hne htarget]
      exact hw
    · exact ⟨_, List.mem_map_of_mem (hother row hrow heq), rfl, rfl, rfl, fun _ _ hw _ => hw⟩
  · intro c' hc' hop' field w hw
    obtain ⟨row', hrow', rfl⟩ := List.mem_map.mp hc'
    rcases hmem row' hrow' with rfl | ⟨hrow', -⟩
    · rw [hwrite, Option.or_eq_some_iff] at hw
      rcases hw with hw | ⟨-, hw⟩
      · obtain ⟨value, hvalue, rfl⟩ := Option.map_eq_some_iff.mp hw
        exact .inl ⟨htarget, value, hvalue, rfl⟩
      · exact .inr ⟨_, List.mem_map_of_mem hexisting, rfl, hop, hw⟩
    · exact .inr ⟨_, List.mem_map_of_mem hrow', rfl, hop', hw⟩
  · intro row' hrow' _
    rcases hmem row' hrow' with rfl | ⟨hrow', -⟩
    · exact .inr ⟨existing, hexisting, rfl, hidle⟩
    · exact .inl hrow'

/-- **What `enqueueUpdate` does.** -/
theorem absorbs_enqueueUpdate (hdistinct : (q.changes.map SyncChange.clientSeq).Nodup)
    (hdrawn : ∀ c ∈ q.changes, c.clientSeq ≤ q.sequence) :
    q.Absorbs (q.enqueueUpdate target fields clockMs) target fields clockMs := by
  rcases @enqueueUpdate_eq _ q target fields clockMs with ⟨hempty, heq⟩ | heq | ⟨existing,
    hexisting, htarget, hop, hidle, heq⟩
  · rw [heq]
    exact .refl hdistinct hdrawn hempty
  · rw [heq]
    exact .insert hdistinct hdrawn
  · rw [heq]
    exact .merge hdistinct hdrawn hexisting htarget hop hidle

end Queue

namespace Device

variable {s s' : Device J}

/-! ### The invariant -/

/-- What holds of a device at any moment. -/
structure Kept (s : Device J) : Prop where
  distinct : (s.queue.changes.map SyncChange.clientSeq).Nodup
  drawn : ∀ c ∈ s.queue.changes, c.clientSeq ≤ s.queue.sequence
  sent : ∀ c ∈ s.sent, c.clientSeq ≤ s.queue.sequence ∧ ∀ row ∈ s.queue.rows,
    row.clientSeq = c.clientSeq → row.toSyncChange = c ∧ row.inFlight = true
  clocks : (s.edits.map LocalEdit.clockMs).Pairwise (· < ·)
  made : ∀ c, c ∈ s.queue.changes ∨ c ∈ s.posted → c.op = .update → ∀ field w,
    c.write field = some w → ∃ edit ∈ s.edits, edit.write c.toTarget field = some w
  deletions : ∀ target clockMs n, .delete target clockMs n ∈ s.edits →
    n ≤ s.queue.sequence ∧ ∀ c ∈ s.queue.changes, c.clientSeq = n → c.toTarget = target
  posted : ∀ c, .change c ∈ s.applied → c ∈ s.posted
  acknowledged : ∀ c ∈ s.acknowledged, .change c ∈ s.applied
  somewhere : ∀ target field w, lastEdit target field s.edits = some w →
    s.Queued target field w ∨ s.Deleted target w ∨ s.Acknowledged target field w

theorem kept_fresh : (fresh : Device J).Kept where
  distinct := List.nodup_nil
  drawn _ hc := absurd hc List.not_mem_nil
  sent _ hc := absurd hc List.not_mem_nil
  clocks := List.Pairwise.nil
  made _ hc := absurd (hc.elim id id) List.not_mem_nil
  deletions _ _ _ h := absurd h List.not_mem_nil
  posted _ h := absurd h List.not_mem_nil
  acknowledged _ h := absurd h List.not_mem_nil
  somewhere _ _ _ h := by cases h

/-- A step that only marks rows. -/
theorem Kept.mark (h : s.Kept) {q : Queue J} {sent : List (SyncChange J)}
    (hchanges : q.changes = s.queue.changes) (hsequence : q.sequence = s.queue.sequence)
    (hsent : ∀ c ∈ sent, c.clientSeq ≤ q.sequence ∧ ∀ row ∈ q.rows,
      row.clientSeq = c.clientSeq → row.toSyncChange = c ∧ row.inFlight = true) :
    Kept { s with queue := q, sent := sent } where
  distinct := hchanges ▸ h.distinct
  drawn := by
    dsimp only
    rw [hchanges, hsequence]
    exact h.drawn
  sent := hsent
  clocks := h.clocks
  made := by
    dsimp only
    rw [hchanges]
    exact h.made
  deletions := by
    dsimp only
    rw [hchanges, hsequence]
    exact h.deletions
  posted := h.posted
  acknowledged := h.acknowledged
  somewhere := by
    unfold Queued Deleted Acknowledged
    dsimp only
    rw [hchanges]
    exact h.somewhere

/-- Changes of the queue may be posted. -/
theorem Kept.post (h : s.Kept) {cs : List (SyncChange J)} (hcs : ∀ c ∈ cs, c ∈ s.queue.changes) :
    Kept { s with posted := s.posted ++ cs } where
  distinct := h.distinct
  drawn := h.drawn
  sent := h.sent
  clocks := h.clocks
  made c hc := by
    refine h.made c ?_
    rcases hc with hc | hc
    · exact .inl hc
    · rcases List.mem_append.mp hc with hc | hc
      · exact .inr hc
      · exact .inl (hcs c hc)
  deletions := h.deletions
  posted c hc := List.mem_append_left _ (h.posted c hc)
  acknowledged := h.acknowledged
  somewhere := h.somewhere

/-- The server may apply what was posted, or another write. -/
theorem Kept.apply (h : s.Kept) {a : Applied J} (ha : ∀ c, a = .change c → c ∈ s.posted) :
    Kept { s with applied := s.applied ++ [a] } where
  distinct := h.distinct
  drawn := h.drawn
  sent := h.sent
  clocks := h.clocks
  made := h.made
  deletions := h.deletions
  posted c hc := by
    rcases List.mem_append.mp hc with hc | hc
    · exact h.posted c hc
    · exact ha c (List.mem_singleton.mp hc).symm
  acknowledged c hc := List.mem_append_left _ (h.acknowledged c hc)
  somewhere := h.somewhere

theorem pairwise_append_edit {edits : List (LocalEdit J)} {edit : LocalEdit J}
    (h : (edits.map LocalEdit.clockMs).Pairwise (· < ·))
    (hclock : ∀ e ∈ edits, e.clockMs < edit.clockMs) :
    ((edits ++ [edit]).map LocalEdit.clockMs).Pairwise (· < ·) := by
  rw [List.map_append, List.pairwise_append]
  refine ⟨h, List.pairwise_singleton _ _, ?_⟩
  intro a ha b hb
  obtain ⟨e, he, rfl⟩ := List.mem_map.mp ha
  rw [List.mem_singleton.mp hb]
  exact hclock e he

/-- An edit keeps the last edit of every field, its own included. -/
theorem Kept.absorb (h : s.Kept) {q : Queue J} {target : Target} {fields : InsertionMap String J}
    {clockMs : ℤ} (hclock : ∀ edit ∈ s.edits, edit.clockMs < clockMs)
    (habsorbs : s.queue.Absorbs q target fields clockMs) :
    Kept { s with queue := q, edits := s.edits ++ [.update target fields clockMs] } where
  distinct := habsorbs.distinct
  drawn := habsorbs.drawn
  sent c hc := by
    obtain ⟨hle, hrows⟩ := h.sent c hc
    refine ⟨hle.trans habsorbs.sequence_le, ?_⟩
    intro row' hrow' heq
    rcases habsorbs.grounded row' hrow' (heq.trans_le hle) with hrow | ⟨row, hrow, hnumber, hidle⟩
    · exact hrows row' hrow heq
    · rw [(hrows row hrow (hnumber.trans heq)).2] at hidle
      cases hidle
  clocks := pairwise_append_edit h.clocks hclock
  made c hc hop field w hw := by
    have hold : ∀ c', c' ∈ s.queue.changes ∨ c' ∈ s.posted → c'.op = .update →
        c'.write field = some w → ∃ edit ∈ s.edits ++ [.update target fields clockMs],
          edit.write c'.toTarget field = some w := by
      intro c' hc' hop' hw'
      obtain ⟨edit, hedit, hwrite⟩ := h.made c' hc' hop' field w hw'
      exact ⟨edit, List.mem_append_left _ hedit, hwrite⟩
    rcases hc with hc | hc
    · rcases habsorbs.origin c hc hop field w hw with ⟨htarget, value, hvalue, rfl⟩ |
        ⟨c', hc', htarget, hop', hw'⟩
      · refine ⟨_, List.mem_append_right _ (List.mem_singleton.mpr rfl), ?_⟩
        rw [LocalEdit.write, if_pos htarget.symm, hvalue]
        rfl
      · rw [← htarget]
        exact hold c' (.inl hc') hop' hw'
    · exact hold c (.inr hc) hop hw
  deletions target' clockMs' n hmem := by
    rcases List.mem_append.mp hmem with hmem | hmem
    · obtain ⟨hle, hrows⟩ := h.deletions target' clockMs' n hmem
      refine ⟨hle.trans habsorbs.sequence_le, ?_⟩
      intro c hc hn
      obtain ⟨c', hc', hnumber, htarget, -⟩ := habsorbs.numbered c hc (hn.trans_le hle)
      rw [← htarget]
      exact hrows c' hc' (hnumber.trans hn)
    · cases List.mem_singleton.mp hmem
  posted := h.posted
  acknowledged := h.acknowledged
  somewhere target' field w hlast := by
    rw [lastEdit_append, Option.or_eq_some_iff] at hlast
    rcases hlast with hnew | ⟨hnone, hlast⟩
    · rw [LocalEdit.write] at hnew
      split at hnew
      · rename_i htarget
        obtain ⟨value, hvalue, rfl⟩ := Option.map_eq_some_iff.mp hnew
        obtain ⟨c, hc, hctarget, hop, hw⟩ := habsorbs.carried field value hvalue
        exact .inl ⟨c, hc, hctarget.trans htarget, hop, hw⟩
      · cases hnew
    · rcases h.somewhere target' field w hlast with ⟨c, hc, htarget, hop, hw⟩ |
        ⟨clockMs', n, hmem, hlt, c, hc, hn, htarget, hop⟩ | hacknowledged
      · obtain ⟨c', hc', -, htarget', hop', hwrite⟩ := habsorbs.kept c hc
        refine .inl ⟨c', hc', htarget'.trans htarget, hop'.trans hop, hwrite field w hw ?_⟩
        rw [LocalEdit.write] at hnone
        split at hnone
        · exact .inr (Option.map_eq_none_iff.mp hnone)
        · rename_i hne
          rw [htarget]
          exact .inl fun heq => hne heq.symm
      · refine .inr (.inl ⟨clockMs', n, List.mem_append_left _ hmem, hlt, ?_⟩)
        rcases hc with hc | hc
        · obtain ⟨c', hc', hn', htarget', hop', -⟩ := habsorbs.kept c hc
          exact ⟨c', .inl hc', hn'.trans hn, htarget'.trans htarget, hop'.trans hop⟩
        · exact ⟨c, .inr hc, hn, htarget, hop⟩
      · exact .inr (.inr hacknowledged)

theorem mem_changes_enqueueDelete {target : Target} {clockMs : ℤ} {c : SyncChange J} :
    c ∈ (s.queue.enqueueDelete target clockMs).changes ↔
      (∃ row ∈ s.queue.rows, (row.toTarget = target → row.inFlight = true) ∧
        row.toSyncChange = c) ∨
      c = ⟨target, .delete, .empty, .empty, s.queue.sequence + 1⟩ := by
  unfold Queue.enqueueDelete
  rw [Queue.changes_insert, List.mem_append, List.mem_singleton]
  unfold Queue.changes
  rw [List.mem_map]
  simp only [List.mem_filter, Bool.not_eq_true', Bool.and_eq_false_imp, decide_eq_true_iff,
    Bool.not_eq_false', and_assoc]

/-- A deletion keeps the edits of the other rows, and stands for those of its own. -/
theorem Kept.delete (h : s.Kept) {target : Target} {clockMs : ℤ}
    (hclock : ∀ edit ∈ s.edits, edit.clockMs < clockMs) :
    Kept { s with
      queue := s.queue.enqueueDelete target clockMs
      edits := s.edits ++ [.delete target clockMs (s.queue.sequence + 1)] } where
  distinct := by
    refine Queue.nodup_insert ?_ ?_ _ _ _ _
    · exact h.distinct.sublist ((List.filter_sublist.map _).map _)
    · exact fun c hc => h.drawn c (List.Sublist.subset (List.filter_sublist.map _) hc)
  drawn c hc := by
    change c.clientSeq ≤ s.queue.sequence + 1
    rcases mem_changes_enqueueDelete.mp hc with ⟨row, hrow, -, rfl⟩ | rfl
    · exact (h.drawn _ (List.mem_map_of_mem hrow)).trans (Nat.le_succ _)
    · exact le_rfl
  sent c hc := by
    obtain ⟨hle, hrows⟩ := h.sent c hc
    refine ⟨hle.trans (Nat.le_succ _), ?_⟩
    intro row hrow heq
    rcases List.mem_append.mp hrow with hrow | hrow
    · exact hrows row (List.mem_filter.mp hrow).1 heq
    · rw [List.mem_singleton.mp hrow] at heq
      exact absurd (heq.trans_le hle) (Nat.not_succ_le_self _)
  clocks := pairwise_append_edit h.clocks hclock
  made c hc hop field w hw := by
    have hold : c ∈ s.queue.changes ∨ c ∈ s.posted := by
      rcases hc with hc | hc
      · rcases mem_changes_enqueueDelete.mp hc with ⟨row, hrow, -, rfl⟩ | rfl
        · exact .inl (List.mem_map_of_mem hrow)
        · cases hop
      · exact .inr hc
    obtain ⟨edit, hedit, hwrite⟩ := h.made c hold hop field w hw
    exact ⟨edit, List.mem_append_left _ hedit, hwrite⟩
  deletions target' clockMs' n hmem := by
    change n ≤ s.queue.sequence + 1 ∧ _
    rcases List.mem_append.mp hmem with hmem | hmem
    · obtain ⟨hle, hrows⟩ := h.deletions target' clockMs' n hmem
      refine ⟨hle.trans (Nat.le_succ _), ?_⟩
      intro c hc hn
      rcases mem_changes_enqueueDelete.mp hc with ⟨row, hrow, -, rfl⟩ | rfl
      · exact hrows _ (List.mem_map_of_mem hrow) hn
      · exact absurd (hn.trans_le hle) (Nat.not_succ_le_self _)
    · cases List.mem_singleton.mp hmem
      refine ⟨le_rfl, ?_⟩
      intro c hc hn
      rcases mem_changes_enqueueDelete.mp hc with ⟨row, hrow, -, rfl⟩ | rfl
      · have hle := h.drawn _ (List.mem_map_of_mem hrow)
        exact absurd (hn.symm.trans_le hle) (Nat.not_succ_le_self _)
      · rfl
  posted := h.posted
  acknowledged := h.acknowledged
  somewhere target' field w hlast := by
    rw [lastEdit_append, LocalEdit.write, Option.none_or] at hlast
    by_cases heq : target' = target
    · rw [heq] at hlast ⊢
      obtain ⟨edit, hedit, hwrite⟩ := exists_of_lastEdit hlast
      refine .inr (.inl ⟨clockMs, _, List.mem_append_right _ (List.mem_singleton.mpr rfl), ?_, _,
        .inl (mem_changes_enqueueDelete.mpr (.inr rfl)), rfl, rfl, rfl⟩)
      rw [stamp_of_write hwrite]
      exact hclock edit hedit
    · have hstays : ∀ c ∈ s.queue.changes, c.toTarget = target' →
          c ∈ (s.queue.enqueueDelete target clockMs).changes := by
        intro c hc htarget
        obtain ⟨row, hrow, rfl⟩ := List.mem_map.mp hc
        exact mem_changes_enqueueDelete.mpr
          (.inl ⟨row, hrow, fun h => absurd (htarget.symm.trans h) heq, rfl⟩)
      rcases h.somewhere target' field w hlast with ⟨c, hc, htarget, hop, hw⟩ |
        ⟨clockMs', n, hmem, hlt, c, hc, hn, htarget, hop⟩ | hacknowledged
      · exact .inl ⟨c, hstays c hc htarget, htarget, hop, hw⟩
      · exact .inr (.inl ⟨clockMs', n, List.mem_append_left _ hmem, hlt, c,
          hc.imp_left fun hc => hstays c hc htarget, hn, htarget, hop⟩)
      · exact .inr (.inr hacknowledged)

/-- What is acknowledged is what was sent, for its row was left alone. -/
theorem Kept.acknowledge (h : s.Kept) {c : SyncChange J} (hsent : c ∈ s.sent)
    (happlied : .change c ∈ s.applied) :
    Kept { s with
      queue := s.queue.remove c.clientSeq
      acknowledged := s.acknowledged ++ [c] } := by
  have hsub : List.Sublist (s.queue.remove c.clientSeq).changes s.queue.changes :=
    List.filter_sublist.map _
  have hgone : ∀ c' ∈ s.queue.changes, c' ∈ (s.queue.remove c.clientSeq).changes ∨
      c' ∈ s.acknowledged ++ [c] := by
    intro c' hc'
    obtain ⟨row, hrow, rfl⟩ := List.mem_map.mp hc'
    by_cases heq : row.clientSeq = c.clientSeq
    · rw [((h.sent c hsent).2 row hrow heq).1]
      exact .inr (List.mem_append_right _ (List.mem_singleton.mpr rfl))
    · exact .inl (List.mem_map_of_mem (List.mem_filter.mpr ⟨hrow, decide_eq_true heq⟩))
  refine ⟨h.distinct.sublist (hsub.map _), fun c' hc' => h.drawn c' (hsub.subset hc'), ?_, h.clocks,
    fun c' hc' => h.made c' (hc'.imp_left fun hc' => hsub.subset hc'), ?_, h.posted, ?_, ?_⟩
  · intro c' hc'
    obtain ⟨hle, hrows⟩ := h.sent c' hc'
    exact ⟨hle, fun row hrow => hrows row (List.mem_filter.mp hrow).1⟩
  · intro target clockMs n hmem
    obtain ⟨hle, hrows⟩ := h.deletions target clockMs n hmem
    exact ⟨hle, fun c' hc' => hrows c' (hsub.subset hc')⟩
  · intro c' hc'
    rcases List.mem_append.mp hc' with hc' | hc'
    · exact h.acknowledged c' hc'
    · rw [List.mem_singleton.mp hc']
      exact happlied
  · intro target field w hlast
    rcases h.somewhere target field w hlast with ⟨c', hc', hrest⟩ |
      ⟨clockMs, n, hmem, hlt, c', hc', hrest⟩ | ⟨c', hc', hrest⟩
    · rcases hgone c' hc' with hstays | hacknowledged
      · exact .inl ⟨c', hstays, hrest⟩
      · exact .inr (.inr ⟨c', hacknowledged, hrest⟩)
    · refine .inr (.inl ⟨clockMs, n, hmem, hlt, c', ?_, hrest⟩)
      rcases hc' with hc' | hc'
      · exact hgone c' hc'
      · exact .inr (List.mem_append_left _ hc')
    · exact .inr (.inr ⟨c', List.mem_append_left _ hc', hrest⟩)

/-! ### Steps and runs -/

/-- Updates that are not sent. -/
theorem changes_update {q : Queue J} {n : ℕ} {f : PendingChange J → PendingChange J}
    (hf : ∀ row, (f row).toSyncChange = row.toSyncChange) : (q.update n f).changes = q.changes := by
  unfold Queue.changes Queue.update
  rw [List.map_map]
  refine List.map_congr_left fun row _ => ?_
  rw [Function.comp_apply]
  split
  · exact hf row
  · rfl

theorem Kept.update (h : s.Kept) (n : ℕ) {f : PendingChange J → PendingChange J}
    (hf : ∀ row, (f row).toSyncChange = row.toSyncChange ∧ (f row).inFlight = row.inFlight) :
    Kept { s with queue := s.queue.update n f } := by
  refine h.mark (changes_update fun row => (hf row).1) rfl ?_
  intro c hc
  obtain ⟨hle, hrows⟩ := h.sent c hc
  refine ⟨hle, ?_⟩
  intro row' hrow' heq
  obtain ⟨row, hrow, rfl⟩ := Queue.mem_update.mp hrow'
  split at heq
  · rename_i hn
    rw [(hf row).1] at heq
    rw [if_pos hn, (hf row).1, (hf row).2]
    exact hrows row hrow heq
  · rename_i hn
    rw [if_neg hn]
    exact hrows row hrow heq

theorem Kept.push (h : s.Kept) (limit : ℕ) :
    Kept { s with
      queue := s.queue.claim (s.queue.pending limit)
      sent := s.queue.pending limit
      posted := s.posted ++ s.queue.pending limit } := by
  refine (h.post fun c => Queue.mem_changes_of_mem_pending).mark (Queue.changes_mark _ _)
    (Queue.sequence_mark _ _) ?_
  intro c hc
  have hchange := Queue.mem_changes_of_mem_pending hc
  refine ⟨?_, ?_⟩
  · unfold Queue.claim
    rw [Queue.sequence_mark]
    exact h.drawn c hchange
  · intro row' hrow' heq
    unfold Queue.claim at hrow'
    rw [Queue.rows_mark] at hrow'
    obtain ⟨row, hrow, rfl⟩ := List.mem_map.mp hrow'
    have hnumber : row.clientSeq = c.clientSeq := by
      split at heq <;> exact heq
    rw [if_pos (hnumber ▸ List.mem_map_of_mem hc)]
    obtain ⟨sent, hsent, rfl⟩ := List.mem_map.mp hchange
    rw [Queue.eq_of_clientSeq h.distinct hrow hsent hnumber]
    exact ⟨rfl, rfl⟩

/-- **Every step keeps the invariant.** -/
theorem kept_step (h : s.Kept) (hstep : Step s s') : s'.Kept := by
  cases hstep with
  | enqueueUpdate target fields clockMs hclock =>
    exact h.absorb hclock (Queue.absorbs_enqueueUpdate h.distinct h.drawn)
  | enqueueDelete target clockMs hclock => exact h.delete hclock
  | push limit hidle => exact h.push limit
  | apply c hposted =>
    refine h.apply fun c' heq => ?_
    cases heq
    exact hposted
  | remote target field write => exact h.apply fun c heq => by cases heq
  | acknowledge c hsent happlied => exact h.acknowledge hsent happlied
  | recordFailure c hsent error => exact h.update _ fun _ => ⟨rfl, rfl⟩
  | reject c hsent error => exact h.update _ fun _ => ⟨rfl, rfl⟩
  | release =>
    exact h.mark (Queue.changes_mark _ _) (Queue.sequence_mark _ _)
      fun c hc => absurd hc List.not_mem_nil
  | restart =>
    refine h.mark ?_ rfl fun c hc => absurd hc List.not_mem_nil
    unfold Queue.changes Queue.restart
    rw [List.map_map]
    rfl

theorem Reachable.kept (h : s.Reachable) : s.Kept := by
  induction h with
  | refl => exact kept_fresh
  | tail _ hstep ih => exact kept_step ih hstep

/-! ### The server -/

section Server

variable {target : Target} {field : String} {w : Stamped ℤ J}

/-- Of the writes of the device, the server has applied none that is later than the last edit. -/
theorem Kept.le_of_change (h : s.Kept) (hlast : lastEdit target field s.edits = some w)
    {c : SyncChange J} (hc : .change c ∈ s.applied) {w' : Stamped ℤ J}
    (hwrite : (Applied.change c).write target field = some w') :
    w'.stamp ≤ w.stamp ∧ (w'.stamp = w.stamp → w' = w) := by
  rw [Applied.write] at hwrite
  split at hwrite
  · rename_i hmatch
    obtain ⟨edit, hedit, hmade⟩ := h.made c (.inr (h.posted c hc)) hmatch.2 field w' hwrite
    rw [hmatch.1] at hmade
    obtain ⟨w₀, hw₀, hle, heq⟩ := lastEdit_greatest h.clocks hedit hmade
    rw [hlast] at hw₀
    cases hw₀
    exact ⟨hle, heq⟩
  · cases hwrite

/-- A last edit that was acknowledged is on the server, unless another device wrote later. -/
theorem Kept.register (h : s.Kept) (hlast : lastEdit target field s.edits = some w)
    (hacknowledged : s.Acknowledged target field w) :
    s.register target field = some w ∨ s.LaterElsewhere target field w := by
  obtain ⟨c, hc, htarget, hop, hw⟩ := hacknowledged
  have hmem : w ∈ s.writes target field := by
    refine List.mem_filterMap.mpr ⟨.change c, h.acknowledged c hc, ?_⟩
    rw [Applied.write, if_pos ⟨htarget, hop⟩]
    exact hw
  cases hwrites : s.writes target field with
  | nil =>
    rw [hwrites] at hmem
    exact absurd hmem List.not_mem_nil
  | cons first rest =>
    have hregister : s.register target field = some (first.latest rest) := by
      unfold Device.register
      rw [hwrites]
    by_cases heq : first.latest rest = w
    · rw [hregister, heq]
      exact .inl rfl
    refine .inr ⟨first.latest rest, ?_, hregister, ?_⟩
    · have hlatest := Stamped.latest_mem first rest
      rw [← hwrites] at hlatest
      obtain ⟨a, ha, hwrite⟩ := List.mem_filterMap.mp hlatest
      cases a with
      | change c' =>
        obtain ⟨hle, huniq⟩ := h.le_of_change hlast ha hwrite
        rw [hwrites] at hmem
        exact absurd (huniq (le_antisymm hle (Stamped.stamp_le_latest hmem))) heq
      | remote target' field' write =>
        rw [Applied.write] at hwrite
        split at hwrite
        · rename_i hmatch
          obtain ⟨rfl, rfl⟩ := hmatch
          cases hwrite
          exact ha
        · cases hwrite
    · rw [hwrites] at hmem
      obtain ⟨before, after, hsplit, hlater⟩ := Stamped.overtaken_of_ne_latest hmem heq
      refine hlater.imp_right fun htie => ⟨htie.1, before, after, ?_, htie.2⟩
      rw [hwrites]
      exact hsplit

/-- **The queue keeps the last edit of every field, and once no change of the row is queued it is on
the server**, unless the row was deleted or another device wrote later. -/
theorem keeps_last_edit (h : s.Reachable) (hlast : lastEdit target field s.edits = some w) :
    s.Accounted target field w ∧
      ((∀ c ∈ s.queue.changes, c.toTarget ≠ target) →
        s.register target field = some w ∨ s.Deleted target w ∨
          s.LaterElsewhere target field w) := by
  refine ⟨⟨h.kept.somewhere target field w hlast, ?_⟩, ?_⟩
  · intro edit hedit w' hwrite
    obtain ⟨w₀, hw₀, hle, -⟩ := lastEdit_greatest h.kept.clocks hedit hwrite
    rw [hlast] at hw₀
    cases hw₀
    exact hle
  · intro hdrained
    rcases h.kept.somewhere target field w hlast with ⟨c, hc, htarget, -⟩ | hdeleted | hacknowledged
    · exact absurd htarget (hdrained c hc)
    · exact .inr (.inl hdeleted)
    · exact (h.kept.register hlast hacknowledged).imp_right .inr

end Server

end Device

/-! ### A name that is pushed -/

section Name

def cardTarget : Target := ⟨"user_cards", "card"⟩

def travelName : InsertionMap String String := InsertionMap.empty.set "nickname" "Travel"

/-- A device on which a card was named. -/
def named : Device String :=
  ⟨Queue.enqueueUpdate ⟨[], 0⟩ cardTarget travelName 10, [], [], [.update cardTarget travelName 10],
    [], []⟩

/-- The change that is sent. -/
def travelChange : SyncChange String :=
  ⟨cardTarget, .update, travelName, addAll .empty (clocksFor travelName 10), 1⟩

/-- The device after the change was acknowledged. -/
def acknowledgedName : Device String :=
  ⟨(named.queue.claim [travelChange]).remove 1, [travelChange], [travelChange], named.edits,
    [travelChange], [.change travelChange]⟩

theorem acknowledgedName_reachable : acknowledgedName.Reachable := by
  have hnamed : Device.Step .fresh named :=
    .enqueueUpdate cardTarget travelName 10 fun _ h => absurd h List.not_mem_nil
  exact (((Relation.ReflTransGen.single hnamed).tail (.push 200 rfl)).tail
    (.apply travelChange (List.mem_singleton.mpr rfl))).tail
      (.acknowledge travelChange (List.mem_singleton.mpr rfl) (List.mem_singleton.mpr rfl))

/-- The name is on the server. -/
theorem keeps_last_edit_travel :
    acknowledgedName.register cardTarget "nickname" = some ⟨10, "Travel"⟩ ∨
      acknowledgedName.Deleted cardTarget ⟨10, "Travel"⟩ ∨
        acknowledgedName.LaterElsewhere cardTarget "nickname" ⟨10, "Travel"⟩ :=
  (Device.keeps_last_edit acknowledgedName_reachable rfl).2
    fun _ hc => absurd hc List.not_mem_nil

end Name

end PandaPay.Sync
