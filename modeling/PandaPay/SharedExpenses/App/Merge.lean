import PandaPay.SharedExpenses.App.Store
import PandaPay.Library.Newest

/-!
# Merging pulled pages

What `applyPage` does to the stored projections, over any sequence of pulled pages.

## Main definitions

* `Pull`, `pull`: one call of `applyPage`
* `rowsSince`: the rows a key had since its context was last revoked
* `SameChanges`: two sequences of pages deliver the same changes

## Main results

* `get?_applyPage`: a page offers its records to the rows that its revocations left
* `merge_safe`: revisions only grow, a conflicting page changes nothing, and the stored rows depend
  only on the set of rows delivered since the last revocation
-/

namespace PandaPay.SharedExpenses.App

variable {s s' : Store}

/-- The revision decides which of two rows is newer. -/
abbrev newestRow : List ProjectionRow → Option ProjectionRow := newest ProjectionRow.revision

/-- A page and the cursor it was pulled with. -/
structure Pull where
  page : SharedChangePage
  expectedCursor : Option JsString
  deriving DecidableEq

/-- `applyPage` inside its savepoint. -/
def pull (s : Store) (p : Pull) : Throwing Unit × Store :=
  match applyPage p.page p.expectedCursor s with
  | .ok s' => (.ok (), s')
  | .error e => (.error e, s)

/-- The rows a list of records has for a key. -/
def rowsOf (key : ProjectionKey) (records : List SharedProjection) : List ProjectionRow :=
  (records.filter fun record => record.key = key).map SharedProjection.row

/-! ### One page -/

theorem get?_mergeRecord {table table' : InsertionMap ProjectionKey ProjectionRow}
    {record : SharedProjection} (h : mergeRecord table record = .ok table') (key : ProjectionKey) :
    table'.get? key = (rowsOf key [record]).foldl (newer ProjectionRow.revision) (table.get? key) := by
  have hrows : rowsOf key [record] = if record.key = key then [record.row] else [] := by
    rw [rowsOf, List.filter_singleton]
    split_ifs <;> simp_all
  rw [mergeRecord] at h
  by_cases hkey : record.key = key
  · subst hkey
    rw [hrows, if_pos rfl, List.foldl_cons, List.foldl_nil]
    cases hold : table.get? record.key with
    | none =>
      rw [hold] at h
      cases h
      rw [InsertionMap.get?_set, if_pos rfl, newer]
    | some old =>
      rw [hold] at h
      dsimp only at h
      rw [failIf_bind_eq_ok] at h
      obtain ⟨-, h⟩ := h
      have hrevision : record.row.revision = record.revision := rfl
      rw [newer, hrevision]
      split_ifs at h with hge
      · cases h
        rw [if_pos hge, hold]
      · cases h
        rw [if_neg hge, InsertionMap.get?_set, if_pos rfl]
  · rw [hrows, if_neg hkey, List.foldl_nil]
    have hset : (table.set record.key record.row).get? key = table.get? key :=
      InsertionMap.get?_set_of_ne _ _ fun heq => hkey heq.symm
    cases hold : table.get? record.key with
    | none =>
      rw [hold] at h
      cases h
      exact hset
    | some old =>
      rw [hold] at h
      dsimp only at h
      rw [failIf_bind_eq_ok] at h
      obtain ⟨-, h⟩ := h
      split_ifs at h
      · cases h
        rfl
      · cases h
        exact hset

theorem get?_foldlM_projectionsStep {records : List SharedProjection} {seen seen' : List JsString}
    {table table' : InsertionMap ProjectionKey ProjectionRow}
    (h : records.foldlM projectionsStep (seen, table) = .ok (seen', table')) (key : ProjectionKey) :
    table'.get? key =
      (rowsOf key records).foldl (newer ProjectionRow.revision) (table.get? key) := by
  induction records generalizing seen table with
  | nil =>
    cases h
    rfl
  | cons record records ih =>
    rw [List.foldlM_cons, bind_eq_ok] at h
    obtain ⟨⟨seen₁, table₁⟩, hstep, hrest⟩ := h
    rw [projectionsStep, failIf_bind_eq_ok, bind_eq_ok] at hstep
    obtain ⟨-, table₂, hmerge, heq⟩ := hstep
    cases heq
    have hsplit : rowsOf key (record :: records) = rowsOf key [record] ++ rowsOf key records := by
      rw [rowsOf, rowsOf, rowsOf, ← List.map_append, ← List.filter_append, List.singleton_append]
    rw [ih hrest, get?_mergeRecord hmerge, hsplit, List.foldl_append]

theorem get?_revoke (s : Store) (contextIds : List JsString) (key : ProjectionKey) :
    (contextIds.foldl revoke s).projections.get? key =
      if key.contextId ∈ contextIds then none else s.projections.get? key := by
  induction contextIds generalizing s with
  | nil => rfl
  | cons contextId contextIds ih =>
    rw [List.foldl_cons, ih, revoke, InsertionMap.get?_filter]
    by_cases hlater : key.contextId ∈ contextIds
    · rw [if_pos hlater, if_pos (List.mem_cons_of_mem _ hlater)]
    · rw [if_neg hlater]
      by_cases hfirst : key.contextId = contextId
      · rw [if_pos (by simp [hfirst])]
        cases s.projections.get? key <;> simp [hfirst, Option.filter]
      · rw [if_neg (by simp [hfirst, hlater])]
        cases s.projections.get? key <;> simp [hfirst, Option.filter]

theorem projections_foldl_grant (s : Store) (contextIds : List JsString) :
    (contextIds.foldl grant s).projections = s.projections := by
  induction contextIds generalizing s with
  | nil => rfl
  | cons contextId contextIds ih => rw [List.foldl_cons, ih, grant]

/-- A page offers its records to the rows that its revocations left. -/
theorem get?_applyPage {p : Pull} (h : applyPage p.page p.expectedCursor s = .ok s')
    (key : ProjectionKey) : s'.projections.get? key =
      (rowsOf key p.page.records).foldl (newer ProjectionRow.revision)
        (if key.contextId ∈ p.page.revokedContextIds then none else s.projections.get? key) := by
  rw [applyPage, failIf_bind_eq_ok, failIf_bind_eq_ok, bind_eq_ok] at h
  obtain ⟨-, -, s₁, hprojections, h⟩ := h
  rw [projections, bind_eq_ok] at hprojections
  obtain ⟨⟨seen, table⟩, hfold, heq⟩ := hprojections
  cases heq
  cases h
  rw [← get?_revoke]
  change (p.page.grantedContextIds.foldl grant _).projections.get? key = _
  rw [projections_foldl_grant]
  exact get?_foldlM_projectionsStep hfold key

/-! ### Conflicts -/

/-- A record of the page differs from the stored row of its key and revision, in a context that the
page does not revoke. -/
def ConflictsWith (s : Store) (page : SharedChangePage) : Prop :=
  ∃ record ∈ page.records, record.contextId ∉ page.revokedContextIds ∧
    ∃ old, s.projections.get? record.key = some old ∧ conflicts old record.row = true

theorem seenKey_congr {a b : SharedProjection} (h : a.key = b.key) : a.seenKey = b.seenKey := by
  rw [SharedProjection.key, SharedProjection.key, ProjectionKey.mk.injEq] at h
  rw [SharedProjection.seenKey, SharedProjection.seenKey, h.1, h.2.1, h.2.2]

/-- Records with one among them that was seen before are not merged. -/
theorem foldlM_projectionsStep_of_seen {records : List SharedProjection} {seen : List JsString}
    {table : InsertionMap ProjectionKey ProjectionRow} {record : SharedProjection}
    (hrecord : record ∈ records) (hseen : record.seenKey ∈ seen)
    (acc : List JsString × InsertionMap ProjectionKey ProjectionRow) :
    records.foldlM projectionsStep (seen, table) ≠ .ok acc := by
  induction records generalizing seen table with
  | nil => cases hrecord
  | cons first records ih =>
    rw [List.foldlM_cons, ne_eq, bind_eq_ok]
    rintro ⟨⟨seen₁, table₁⟩, hstep, hrest⟩
    rw [projectionsStep, failIf_bind_eq_ok, bind_eq_ok] at hstep
    obtain ⟨hnew, table₂, -, heq⟩ := hstep
    cases heq
    rcases List.mem_cons.mp hrecord with rfl | hrecord
    · exact hnew hseen
    · exact ih hrecord (List.mem_cons_of_mem _ hseen) hrest

/-- Records with a conflict among them are not merged. -/
theorem foldlM_projectionsStep_of_conflict {records : List SharedProjection} {seen : List JsString}
    {table : InsertionMap ProjectionKey ProjectionRow} {record : SharedProjection}
    (hrecord : record ∈ records) {old : ProjectionRow} (hold : table.get? record.key = some old)
    (hconflict : conflicts old record.row = true)
    (acc : List JsString × InsertionMap ProjectionKey ProjectionRow) :
    records.foldlM projectionsStep (seen, table) ≠ .ok acc := by
  induction records generalizing seen table with
  | nil => cases hrecord
  | cons first records ih =>
    rw [List.foldlM_cons, ne_eq, bind_eq_ok]
    rintro ⟨⟨seen₁, table₁⟩, hstep, hrest⟩
    rw [projectionsStep, failIf_bind_eq_ok, bind_eq_ok] at hstep
    obtain ⟨-, table₂, hmerge, heq⟩ := hstep
    cases heq
    rcases List.mem_cons.mp hrecord with rfl | hrecord
    · rw [mergeRecord, hold] at hmerge
      dsimp only at hmerge
      rw [failIf_bind_eq_ok] at hmerge
      exact hmerge.1 hconflict
    by_cases hkey : first.key = record.key
    · -- the second record of a key is a duplicate
      have hseen : record.seenKey ∈ first.seenKey :: seen := by
        rw [seenKey_congr hkey]
        exact List.mem_cons_self
      exact foldlM_projectionsStep_of_seen hrecord hseen acc hrest
    · refine ih hrecord ?_ hrest
      rw [get?_mergeRecord hmerge, rowsOf, List.filter_singleton]
      simp [hkey, hold]

theorem not_applyPage_of_conflict {p : Pull} (h : ConflictsWith s p.page) :
    applyPage p.page p.expectedCursor s ≠ .ok s' := by
  obtain ⟨record, hrecord, hkept, old, hold, hconflict⟩ := h
  rw [applyPage, ne_eq, failIf_bind_eq_ok, failIf_bind_eq_ok, bind_eq_ok]
  rintro ⟨-, -, s₁, hprojections, -⟩
  rw [projections, bind_eq_ok] at hprojections
  obtain ⟨acc, hfold, -⟩ := hprojections
  have hold' : (p.page.revokedContextIds.foldl revoke s).projections.get? record.key = some old := by
    rw [get?_revoke]
    exact (if_neg hkept).trans hold
  exact foldlM_projectionsStep_of_conflict hrecord hold' hconflict acc hfold

/-! ### Sequences of pages -/

theorem pull_of_ok {p : Pull} (h : (pull s p).1 = .ok ()) :
    applyPage p.page p.expectedCursor s = .ok (pull s p).2 := by
  unfold pull at h ⊢
  cases happly : applyPage p.page p.expectedCursor s with
  | ok s' => rfl
  | error e => rw [happly] at h; cases h

theorem pull_of_error {p : Pull} {e : StoreException} (h : (pull s p).1 = .error e) :
    (pull s p).2 = s := by
  unfold pull at h ⊢
  cases happly : applyPage p.page p.expectedCursor s with
  | ok s' => rw [happly] at h; cases h
  | error e => rfl

/-- The pulls whose pages were applied. -/
def applied : Store → List Pull → List Pull
  | _, [] => []
  | s, p :: pulls =>
    match (pull s p).1 with
    | .ok () => p :: applied (pull s p).2 pulls
    | .error _ => applied (pull s p).2 pulls

/-- The rows a key has had, from the rows `rows` on, since its context was last revoked. -/
def rowsFrom (key : ProjectionKey) (rows : List ProjectionRow) : List Pull → List ProjectionRow
  | [] => rows
  | p :: pulls => rowsFrom key
    ((if key.contextId ∈ p.page.revokedContextIds then [] else rows) ++ rowsOf key p.page.records)
    pulls

/-- The rows a key has had since its context was last revoked: those of the pages applied since, and
the row stored at first when none of the pages revoked it. -/
def rowsSince (key : ProjectionKey) (s : Store) (pulls : List Pull) : List ProjectionRow :=
  rowsFrom key (s.projections.get? key).toList (applied s pulls)

/-- Equal revisions carry equal content. -/
def EqualContent (rows : List ProjectionRow) : Prop :=
  ∀ row ∈ rows, ∀ row' ∈ rows, row.revision = row'.revision → row = row'

theorem get?_final_eq_newest (key : ProjectionKey) (rows : List ProjectionRow) (pulls : List Pull)
    (h : s.projections.get? key = newestRow rows) :
    (final pull s pulls).projections.get? key = newestRow (rowsFrom key rows (applied s pulls)) := by
  induction pulls generalizing s rows with
  | nil => exact h
  | cons p pulls ih =>
    rw [final, applied]
    rcases hresult : (pull s p).1 with e | ⟨⟩
    · apply ih
      rw [pull_of_error hresult, h]
    · apply ih
      rw [get?_applyPage (pull_of_ok hresult), newestRow, newest_append]
      split_ifs
      · rfl
      · rw [h]

/-- The stored row of a key is the newest it has had since its context was last revoked. -/
theorem get?_final (s : Store) (key : ProjectionKey) (pulls : List Pull) :
    (final pull s pulls).projections.get? key = newestRow (rowsSince key s pulls) :=
  get?_final_eq_newest key _ pulls (newest_toList _ _).symm

/-- What a sequence of pulls guarantees. -/
structure MergeSafe (s : Store) (pulls : List Pull) : Prop where
  /-- No page lowers the revision of a row, unless it revokes the context of the row. -/
  monotone : ∀ e ∈ trace pull s pulls, ∀ key old, e.before.projections.get? key = some old →
    (e.result = .ok () ∧ key.contextId ∈ e.call.page.revokedContextIds) ∨
      ∃ new, e.after.projections.get? key = some new ∧ old.revision ≤ new.revision
  /-- A page with a conflicting record is refused and leaves the stored rows as they were. -/
  conflict : ∀ e ∈ trace pull s pulls, ConflictsWith e.before e.call.page →
    e.result ≠ .ok () ∧ e.after.projections = e.before.projections
  /-- When equal revisions carry equal content, the stored row of a key depends only on which rows
  it had since its context was last revoked, not on how often and in which order. -/
  orderFree : ∀ pulls' key, (∀ row, row ∈ rowsSince key s pulls ↔ row ∈ rowsSince key s pulls') →
    EqualContent (rowsSince key s pulls) →
    (final pull s pulls).projections.get? key = (final pull s pulls').projections.get? key

theorem merge_safe (s : Store) (pulls : List Pull) : MergeSafe s pulls where
  monotone := by
    intro e he key old hold
    obtain ⟨earlier, later, -, hevent⟩ := exists_of_mem_trace he
    rw [hevent] at hold ⊢
    simp only [eventOf_before, eventOf_call, eventOf_result, eventOf_after] at hold ⊢
    rcases hresult : (pull (final pull s earlier) e.call).1 with err | ⟨⟩
    · right
      rw [pull_of_error hresult]
      exact ⟨old, hold, le_rfl⟩
    by_cases hrevoked : key.contextId ∈ e.call.page.revokedContextIds
    · exact .inl ⟨rfl, hrevoked⟩
    right
    have hget := get?_applyPage (pull_of_ok hresult) key
    rw [if_neg hrevoked, hold, ← newest_toList ProjectionRow.revision (some old),
      ← newest_append] at hget
    cases hnew : (pull (final pull s earlier) e.call).2.projections.get? key with
    | none =>
      rw [hnew, eq_comm, newest_eq_none] at hget
      cases hget
    | some new =>
      rw [hnew] at hget
      exact ⟨new, rfl, (newest_eq_some hget.symm).2 old (by simp)⟩
  conflict := by
    intro e he hconflict
    obtain ⟨earlier, later, -, hevent⟩ := exists_of_mem_trace he
    rw [hevent] at hconflict ⊢
    simp only [eventOf_before, eventOf_call, eventOf_result, eventOf_after] at hconflict ⊢
    rcases hresult : (pull (final pull s earlier) e.call).1 with err | ⟨⟩
    · refine ⟨fun hok => ?_, by rw [pull_of_error hresult]⟩
      cases hok
    · exact absurd (pull_of_ok hresult) (not_applyPage_of_conflict hconflict)
  orderFree := by
    intro pulls' key hsame hequal
    rw [get?_final, get?_final]
    exact newest_congr hsame hequal

/-! ### Revocations and order -/

/-- Two sequences of pages deliver the same records, revocations and grants. -/
structure SameChanges (pulls pulls' : List Pull) : Prop where
  records : ∀ record, (∃ p ∈ pulls, record ∈ p.page.records) ↔
    ∃ p ∈ pulls', record ∈ p.page.records
  revoked : ∀ id, (∃ p ∈ pulls, id ∈ p.page.revokedContextIds) ↔
    ∃ p ∈ pulls', id ∈ p.page.revokedContextIds
  granted : ∀ id, (∃ p ∈ pulls, id ∈ p.page.grantedContextIds) ↔
    ∃ p ∈ pulls', id ∈ p.page.grantedContextIds

/-- The rows a key is stored with or offered. -/
def rowsOffered (key : ProjectionKey) (s : Store) (pulls : List Pull) : List ProjectionRow :=
  (s.projections.get? key).toList ++ pulls.flatMap fun p => rowsOf key p.page.records

/-- A context. -/
def flatmates : JsString := js "33333333-3333-4333-8333-333333333333"

/-- The record of a context. -/
def flatmatesRecord : SharedProjection where
  entity := js "contexts"
  id := flatmates
  contextId := flatmates
  revision := 1
  deleted := false
  canonicalJson := js "\x7b\x7d"

/-- A page with the record. -/
def recordPage : SharedChangePage := ⟨[flatmatesRecord], some (js "a"), false, [], []⟩

/-- A page that revokes its context. -/
def revokePage : SharedChangePage := ⟨[], some (js "b"), false, [flatmates], []⟩

/-- A record that comes after the revocation of its context stays, one that comes before does not:
the same changes leave different rows. -/
theorem not_order_independent : ¬ ∀ (s : Store) (pulls pulls' : List Pull),
    SameChanges (applied s pulls) (applied s pulls') →
    (∀ key, EqualContent (rowsOffered key s (applied s pulls))) →
    ∀ key, (final pull s pulls).projections.get? key = (final pull s pulls').projections.get? key := by
  intro h
  have happlied : applied .empty [⟨recordPage, none⟩, ⟨revokePage, some (js "a")⟩] =
      [⟨recordPage, none⟩, ⟨revokePage, some (js "a")⟩] := by decide +kernel
  have happlied' : applied .empty [⟨revokePage, none⟩, ⟨recordPage, some (js "b")⟩] =
      [⟨revokePage, none⟩, ⟨recordPage, some (js "b")⟩] := by decide +kernel
  have hsame := h .empty [⟨recordPage, none⟩, ⟨revokePage, some (js "a")⟩]
    [⟨revokePage, none⟩, ⟨recordPage, some (js "b")⟩] ?_ ?_ flatmatesRecord.key
  · exact absurd hsame (by decide +kernel)
  · rw [happlied, happlied']
    constructor <;> intro x <;> simp [recordPage, revokePage]
  · rw [happlied]
    -- only one row is ever offered
    have hone : ∀ key, ∀ row ∈ rowsOffered key .empty
        [⟨recordPage, none⟩, ⟨revokePage, some (js "a")⟩], row = flatmatesRecord.row := by
      intro key row hrow
      simp only [rowsOffered, Store.empty, InsertionMap.get?_empty, Option.toList_none,
        List.nil_append, List.mem_flatMap, rowsOf, List.mem_map, List.mem_filter] at hrow
      obtain ⟨p, hp, record, ⟨hrecord, -⟩, rfl⟩ := hrow
      rcases List.mem_cons.mp hp with rfl | hp
      · rw [List.mem_singleton.mp hrecord]
      · rw [List.mem_singleton.mp hp] at hrecord
        cases hrecord
    intro key row hrow row' hrow' _
    rw [hone key row hrow, hone key row' hrow']

end PandaPay.SharedExpenses.App
