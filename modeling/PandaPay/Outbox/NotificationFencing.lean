import PandaPay.Outbox.Notifications

/-!
# Fencing and counters of the outbox of notifications

The trigger adds to each counter what the written row counts afterwards and takes off what it
counted before, so the counters stay the sums over the rows. Rows advance, and only a retention or
a cascade deletes one.

## Main definitions

* `Db.Counted`: the counters are the numbers of rows
* `Row.Advances`, `Db.Steps`: how rows may change
* `Db.Fenced`, `Db.FencedStep`: what fencing says of a state and of a step

## Main results

* `Db.track_eq_ok`: what the trigger does to the counters
* `Db.updateRows_eq_ok`, `Db.deleteRows_eq_ok`: the rows and the counters after a statement
* `Db.apply_step`, `Db.run_sound`: every step is fenced, and every state is sound
-/

namespace PandaPay.Outbox.Notifications

/-! ### Counters -/

/-- What a row counts for a profile. -/
def Row.activeFor (profile : Uuid) (row : Row) : ℕ :=
  if row.isActive = true ∧ row.profileId = profile then 1 else 0

/-- What a row counts in all. -/
def Row.active (row : Row) : ℕ := if row.isActive then 1 else 0

namespace Db

/-- How many rows of a profile the counter says are pending or leased. -/
def pendingOf (db : Db) (profile : Uuid) : ℕ := (db.profileQueueCounts.get? profile).getD 0

/-- The counters are the numbers of rows that are pending or leased, and of all rows. -/
structure Counted (db : Db) : Prop where
  profiles : ∀ profile, db.pendingOf profile = db.outbox.sum fun _ row => row.activeFor profile
  pending : db.globalQueueCount.pending = db.outbox.sum fun _ row => row.active
  retained : db.globalQueueCount.retained = db.outbox.sum fun _ _ => 1

end Db

theorem getD_countProfile {counts counts' : InsertionMap Uuid ℕ} {profile : Uuid}
    (h : countProfile counts profile = .ok counts') (p : Uuid) :
    (counts'.get? p).getD 0 = (counts.get? p).getD 0 + if profile = p then 1 else 0 := by
  unfold countProfile at h
  split at h
  · rename_i hnone
    cases h
    rw [InsertionMap.get?_set]
    by_cases hp : profile = p
    · rw [if_pos hp.symm, if_pos hp, ← hp, hnone]
      rfl
    · rw [if_neg fun hp' => hp hp'.symm, if_neg hp, Nat.add_zero]
  · rename_i pending hsome
    rw [failIf_bind_eq_ok, pure_eq_ok, Except.ok.injEq] at h
    rw [← h.2, InsertionMap.get?_set]
    by_cases hp : profile = p
    · rw [if_pos hp.symm, if_pos hp, ← hp, hsome]
      rfl
    · rw [if_neg fun hp' => hp hp'.symm, if_neg hp, Nat.add_zero]

theorem getD_uncountProfile (counts : InsertionMap Uuid ℕ) (profile p : Uuid) :
    ((uncountProfile counts profile).get? p).getD 0 =
      (counts.get? p).getD 0 - if profile = p then 1 else 0 := by
  unfold uncountProfile
  by_cases hp : profile = p
  · subst hp
    rw [if_pos rfl]
    split
    · rename_i hnone
      rw [hnone]
      rfl
    · rename_i pending hsome
      rw [hsome]
      split
      · rename_i hzero
        rw [InsertionMap.get?_erase, if_pos rfl, Option.getD_some, hzero]
        rfl
      · rw [InsertionMap.get?_set_self]
        rfl
  · rw [if_neg hp, Nat.sub_zero]
    have hne : p ≠ profile := fun h => hp h.symm
    split
    · rfl
    · split
      · rw [InsertionMap.get?_erase, if_neg hne]
      · rw [InsertionMap.get?_set_of_ne _ _ hne]

theorem retained_trackRetained {count count' : GlobalQueueCount} {old new : Option Row}
    (h : trackRetained count old new = .ok count') (hwrite : old.isSome = true ∨ new.isSome = true)
    (hold : (old.elim 0 fun _ => 1) ≤ count.retained) :
    count'.pending = count.pending ∧
      count'.retained + (old.elim 0 fun _ => 1) = count.retained + new.elim 0 fun _ => 1 := by
  unfold trackRetained at h
  cases old with
  | none =>
    rw [Option.isNone_none, if_pos rfl, failIf_bind_eq_ok, pure_eq_ok, Except.ok.injEq] at h
    cases new with
    | none => simp at hwrite
    | some new =>
      rw [← h.2]
      exact ⟨rfl, rfl⟩
  | some old =>
    cases new with
    | none =>
      cases h
      exact ⟨rfl, Nat.sub_add_cancel hold⟩
    | some new =>
      cases h
      exact ⟨rfl, rfl⟩

theorem elim_activeFor (row : Option Row) (p : Uuid) : row.elim 0 (Row.activeFor p) =
    (row.filter Row.isActive).elim 0 fun r => if r.profileId = p then 1 else 0 := by
  cases row with
  | none => rfl
  | some r => cases hr : r.isActive <;> simp [Row.activeFor, Option.filter, hr]

theorem elim_active (row : Option Row) : row.elim 0 Row.active =
    (row.filter Row.isActive).elim 0 fun _ => 1 := by
  cases row with
  | none => rfl
  | some r => cases hr : r.isActive <;> simp [Row.active, Option.filter, hr]

/-- The part of a row that fencing is about. -/
def Row.job (row : Row) : Job Lease Completion := ⟨row.phase, row.attempts⟩

/-- A row makes steps of a job, and a row that is over stays as it is. -/
abbrev Row.Advances (row row' : Row) : Prop := Job.Follows attemptLimit Row.job row row'

namespace Db

variable {db db' db'' : Db} {old new : Option Row}

/-- What a write of a row does to the counters of active rows. -/
theorem trackActive_eq_ok (h : db.trackActive old new = .ok db')
    (hprofiles : ∀ p, old.elim 0 (Row.activeFor p) ≤ db.pendingOf p)
    (hpending : old.elim 0 Row.active ≤ db.globalQueueCount.pending) :
    db'.outbox = db.outbox ∧ db'.globalQueueCount.retained = db.globalQueueCount.retained ∧
      (∀ p, db'.pendingOf p + old.elim 0 (Row.activeFor p) =
        db.pendingOf p + new.elim 0 (Row.activeFor p)) ∧
      db'.globalQueueCount.pending + old.elim 0 Row.active =
        db.globalQueueCount.pending + new.elim 0 Row.active := by
  simp only [elim_activeFor, elim_active] at hprofiles hpending ⊢
  unfold trackActive at h
  split at h <;> rename_i hold hnew <;> rw [hold] at hprofiles hpending ⊢ <;> rw [hnew]
  · unfold countActive at h
    rw [bind_eq_ok] at h
    obtain ⟨counts, hcounts, h⟩ := h
    rw [failIf_bind_eq_ok, pure_eq_ok, Except.ok.injEq] at h
    rw [← h.2]
    exact ⟨rfl, rfl, fun p => getD_countProfile hcounts p, rfl⟩
  · cases h
    refine ⟨rfl, rfl, fun p => ?_, Nat.sub_add_cancel hpending⟩
    exact (congrArg (· + _) (getD_uncountProfile _ _ p)).trans (Nat.sub_add_cancel (hprofiles p))
  · rename_i o n
    rw [failIf_bind_eq_ok, pure_eq_ok, Except.ok.injEq, not_not] at h
    rw [← h.2]
    refine ⟨rfl, rfl, fun p => ?_, rfl⟩
    rw [Option.elim_some, Option.elim_some, h.1]
  · cases h
    exact ⟨rfl, rfl, fun _ => rfl, rfl⟩

/-- What the trigger does to the counters, where they have counted the old row. -/
theorem track_eq_ok (h : db.track old new = .ok db') (hwrite : old.isSome = true ∨ new.isSome = true)
    (hprofiles : ∀ p, old.elim 0 (Row.activeFor p) ≤ db.pendingOf p)
    (hpending : old.elim 0 Row.active ≤ db.globalQueueCount.pending)
    (hretained : (old.elim 0 fun _ => 1) ≤ db.globalQueueCount.retained) :
    db'.outbox = db.outbox ∧
      (∀ p, db'.pendingOf p + old.elim 0 (Row.activeFor p) =
        db.pendingOf p + new.elim 0 (Row.activeFor p)) ∧
      (db'.globalQueueCount.pending + old.elim 0 Row.active =
        db.globalQueueCount.pending + new.elim 0 Row.active) ∧
      db'.globalQueueCount.retained + (old.elim 0 fun _ => 1) =
        db.globalQueueCount.retained + new.elim 0 fun _ => 1 := by
  unfold track at h
  rw [bind_eq_ok] at h
  obtain ⟨count, hcount, h⟩ := h
  obtain ⟨hsame, hcounted⟩ := retained_trackRetained hcount hwrite hretained
  obtain ⟨houtbox, hkept, hprofiles', hpending'⟩ :=
    trackActive_eq_ok h hprofiles (by rw [hsame]; exact hpending)
  rw [hsame] at hpending'
  exact ⟨houtbox, hprofiles', hpending', by rw [hkept]; exact hcounted⟩

/-- The outbox after a write of one row, which the trigger has followed. -/
theorem Counted.track {outbox : InsertionMap Uuid Row} (h : db.Counted)
    (hsum : ∀ w : Row → ℕ, (outbox.sum fun _ row => w row) + old.elim 0 w =
      (db.outbox.sum fun _ row => w row) + new.elim 0 w)
    (hold : ∀ w : Row → ℕ, old.elim 0 w ≤ db.outbox.sum fun _ row => w row)
    (hwrite : old.isSome = true ∨ new.isSome = true)
    (hok : { db with outbox := outbox }.track old new = .ok db') :
    db'.outbox = outbox ∧ db'.Counted := by
  obtain ⟨houtbox, hprofiles, hpending, hretained⟩ := track_eq_ok hok hwrite
    (fun p => (hold _).trans (h.profiles p).ge) ((hold _).trans h.pending.ge)
    ((hold _).trans h.retained.ge)
  refine ⟨houtbox, ?_, ?_, ?_⟩
  · intro p
    have hp := hprofiles p
    have := hsum (Row.activeFor p)
    have hcount := h.profiles p
    rw [houtbox]
    simp only [pendingOf] at hp hcount ⊢
    omega
  · have := hsum Row.active
    have hcount := h.pending
    rw [houtbox]
    dsimp only at hpending ⊢
    omega
  · have := hsum fun _ => 1
    have hcount := h.retained
    rw [houtbox]
    dsimp only at hretained ⊢
    omega

/-! ### Writes -/

section Writes

variable {id : Uuid} {row : Row} {f : Uuid → Row → Row}

theorem insertRow_eq_ok (h : db.Counted) (hok : db.insertRow id row = .ok db') :
    db.outbox.get? id = none ∧ db'.outbox = db.outbox.set id row ∧ db'.Counted := by
  unfold insertRow at hok
  rw [failIf_bind_eq_ok] at hok
  have hnone := InsertionMap.get?_eq_none_iff.mpr hok.1
  refine ⟨hnone, h.track ?_ ?_ (.inr rfl) hok.2⟩
  · exact fun w => InsertionMap.sum_set_of_get?_eq_none hnone (fun _ row => w row) row
  · exact fun w => Nat.zero_le _

/-- What a row counts is part of the sum. -/
theorem elim_le_sum (hrow : db.outbox.get? id = some row) (w : Row → ℕ) :
    (some row).elim 0 w ≤ db.outbox.sum fun _ row => w row := by
  have h := db.outbox.sum_erase (fun _ row => w row) id
  rw [hrow] at h
  exact Nat.le.intro ((Nat.add_comm _ _).trans h)

/-- The row under `id` is rewritten, if it is there. -/
theorem updateRow_eq_ok (h : db.Counted) (hok : updateRow f db id = .ok db') :
    db'.Counted ∧ ∀ j, db'.outbox.get? j =
      (db.outbox.get? j).map fun row => if j = id then f j row else row := by
  unfold updateRow at hok
  split at hok
  · rename_i hnone
    cases hok
    refine ⟨h, fun j => ?_⟩
    by_cases hj : j = id
    · rw [hj, hnone, Option.map_none]
    · simp [hj]
  · rename_i row hrow
    have hsum : ∀ w : Row → ℕ, ((db.outbox.set id (f id row)).sum fun _ row => w row) +
        (some row).elim 0 w = (db.outbox.sum fun _ row => w row) + (some (f id row)).elim 0 w := by
      intro w
      have hset := db.outbox.sum_set (fun _ row => w row) id (f id row)
      rw [hrow] at hset
      exact hset
    obtain ⟨houtbox, hcounted⟩ := h.track hsum (elim_le_sum hrow) (.inl rfl) hok
    refine ⟨hcounted, fun j => ?_⟩
    rw [houtbox, InsertionMap.get?_set]
    by_cases hj : j = id
    · rw [if_pos hj, hj, hrow, Option.map_some, if_pos rfl]
    · simp [hj]

theorem deleteRow_eq_ok (h : db.Counted) (hok : db.deleteRow id = .ok db') :
    db'.Counted ∧ ∀ j, db'.outbox.get? j = if j = id then none else db.outbox.get? j := by
  unfold deleteRow at hok
  split at hok
  · rename_i hnone
    cases hok
    refine ⟨h, fun j => ?_⟩
    split
    · rename_i hj
      rw [hj, hnone]
    · rfl
  · rename_i row hrow
    have hsum : ∀ w : Row → ℕ, ((db.outbox.erase id).sum fun _ row => w row) +
        (some row).elim 0 w = (db.outbox.sum fun _ row => w row) + (none : Option Row).elim 0 w := by
      intro w
      have herase := db.outbox.sum_erase (fun _ row => w row) id
      rw [hrow] at herase
      exact herase
    obtain ⟨houtbox, hcounted⟩ := h.track hsum (elim_le_sum hrow) (.inl rfl) hok
    refine ⟨hcounted, fun j => ?_⟩
    rw [houtbox, InsertionMap.get?_erase]

/-- Each of the rows is rewritten once. -/
theorem updateRows_eq_ok {ids : List Uuid} (h : db.Counted) (hnodup : ids.Nodup)
    (hok : db.updateRows ids f = .ok db') : db'.Counted ∧ ∀ j, db'.outbox.get? j =
      (db.outbox.get? j).map fun row => if j ∈ ids then f j row else row := by
  unfold updateRows at hok
  induction ids generalizing db with
  | nil =>
    rw [List.foldlM_nil, pure_eq_ok, Except.ok.injEq] at hok
    rw [← hok]
    exact ⟨h, fun j => by simp⟩
  | cons id ids ih =>
    rw [List.foldlM_cons, bind_eq_ok] at hok
    obtain ⟨mid, hmid, hok⟩ := hok
    obtain ⟨hid, hnodup⟩ := List.nodup_cons.mp hnodup
    obtain ⟨hcounted, hrow⟩ := updateRow_eq_ok h hmid
    obtain ⟨hcounted', hrows⟩ := ih hcounted hnodup hok
    refine ⟨hcounted', fun j => ?_⟩
    rw [hrows, hrow, Option.map_map]
    refine congrArg (fun g => (db.outbox.get? j).map g) (funext fun row => ?_)
    by_cases hj : j = id
    · subst hj
      simp [hid]
    · simp [hj]

theorem deleteRows_eq_ok {ids : List Uuid} (h : db.Counted) (hok : db.deleteRows ids = .ok db') :
    db'.Counted ∧ ∀ j, db'.outbox.get? j = if j ∈ ids then none else db.outbox.get? j := by
  unfold deleteRows at hok
  induction ids generalizing db with
  | nil =>
    rw [List.foldlM_nil, pure_eq_ok, Except.ok.injEq] at hok
    rw [← hok]
    exact ⟨h, fun j => by simp⟩
  | cons id ids ih =>
    rw [List.foldlM_cons, bind_eq_ok] at hok
    obtain ⟨mid, hmid, hok⟩ := hok
    obtain ⟨hcounted, hrow⟩ := deleteRow_eq_ok h hmid
    obtain ⟨hcounted', hrows⟩ := ih hcounted hok
    refine ⟨hcounted', fun j => ?_⟩
    rw [hrows, hrow]
    by_cases hj : j = id <;> by_cases hmem : j ∈ ids <;> simp [hj, hmem]

end Writes

/-! ### Steps -/

/-- The outbox and its counters are the same. -/
structure SameQueue (db db' : Db) : Prop where
  outbox : db'.outbox = db.outbox
  profileQueueCounts : db'.profileQueueCounts = db.profileQueueCounts
  globalQueueCount : db'.globalQueueCount = db.globalQueueCount

/-- The rows advance, or are gone where `Gone` allows it, and the counters follow. -/
structure Steps (Gone : Row → Prop) (db db' : Db) : Prop where
  counted : db'.Counted
  rows : ∀ id row, db.outbox.get? id = some row →
    (∃ row', db'.outbox.get? id = some row' ∧ row.Advances row') ∨
      db'.outbox.get? id = none ∧ Gone row
  fresh : ∀ id, db.outbox.get? id = none → db'.outbox.get? id = none

variable {Gone Gone' : Row → Prop}

theorem SameQueue.counted (h : SameQueue db db') (hdb : db.Counted) : db'.Counted := by
  obtain ⟨hprofiles, hpending, hretained⟩ := hdb
  refine ⟨?_, ?_, ?_⟩
  · intro p
    rw [pendingOf, h.profileQueueCounts, h.outbox]
    exact hprofiles p
  · rw [h.globalQueueCount, h.outbox]
    exact hpending
  · rw [h.globalQueueCount, h.outbox]
    exact hretained

theorem SameQueue.steps (h : SameQueue db db') (hdb : db.Counted) : Steps Gone db db' where
  counted := h.counted hdb
  rows id row hrow := by
    rw [← h.outbox] at hrow
    exact .inl ⟨row, hrow, .refl row⟩
  fresh id hnone := by rw [h.outbox, hnone]

theorem Steps.refl (h : db.Counted) : Steps Gone db db := SameQueue.steps ⟨rfl, rfl, rfl⟩ h

theorem Steps.trans (h : Steps Gone db db') (h' : Steps Gone' db' db'')
    (hgone : ∀ row row' : Row, row.Advances row' → Gone' row' → Gone row) : Steps Gone db db'' where
  counted := h'.counted
  rows id row hrow := by
    rcases h.rows id row hrow with ⟨row', hrow', hadvances⟩ | ⟨hnone, hrowGone⟩
    · rcases h'.rows id row' hrow' with ⟨row'', hrow'', hadvances'⟩ | ⟨hnone, hrowGone⟩
      · exact .inl ⟨row'', hrow'', hadvances.trans hadvances'⟩
      · exact .inr ⟨hnone, hgone row row' hadvances hrowGone⟩
    · exact .inr ⟨h'.fresh id hnone, hrowGone⟩
  fresh id hnone := h'.fresh id (h.fresh id hnone)

/-- No row is gone. -/
abbrev Keeps (db db' : Db) : Prop := Steps (fun _ => False) db db'

theorem Steps.keeps (h : Steps Gone db db') (h' : Keeps db' db'') : Steps Gone db db'' :=
  h.trans h' fun _ _ _ hgone => hgone.elim

theorem mem_idsWhere {p : Row → Bool} {id : Uuid} :
    id ∈ db.idsWhere p ↔ ∃ row, db.outbox.get? id = some row ∧ p row = true := by
  rw [idsWhere]
  exact InsertionMap.mem_map_filter_entries

theorem of_mem_idsWhere {p : Row → Bool} {id : Uuid} {row : Row} (h : id ∈ db.idsWhere p)
    (hrow : db.outbox.get? id = some row) : p row = true := by
  obtain ⟨row', hrow', hp⟩ := mem_idsWhere.mp h
  rw [hrow] at hrow'
  cases hrow'
  exact hp

theorem of_mem_selectKeys {κ : Type} [LinearOrder κ] {p : Row → Bool} {order : Uuid → Row → κ}
    {limit : ℕ} {id : Uuid} {row : Row}
    (h : id ∈ selectKeys db.outbox (fun _ row => p row) order limit)
    (hrow : db.outbox.get? id = some row) : p row = true := by
  obtain ⟨row', hrow', hp⟩ := exists_of_mem_selectKeys h
  rw [hrow] at hrow'
  cases hrow'
  exact hp

/-- The rows that are deleted are gone, and nothing else happens. -/
theorem deleteRows_steps {ids : List Uuid} (h : db.Counted) (hok : db.deleteRows ids = .ok db')
    (hgone : ∀ id ∈ ids, ∀ row, db.outbox.get? id = some row → Gone row) : Steps Gone db db' := by
  obtain ⟨hcounted, hrows⟩ := deleteRows_eq_ok h hok
  refine ⟨hcounted, ?_, ?_⟩
  · intro id row hrow
    rw [hrows]
    split
    · rename_i hid
      exact .inr ⟨rfl, hgone id hid row hrow⟩
    · exact .inl ⟨row, hrow, .refl row⟩
  · intro id hnone
    rw [hrows, hnone, ite_self]

/-- The rows that are rewritten make a move. -/
theorem updateRows_steps {ids : List Uuid} {f : Uuid → Row → Row} (h : db.Counted)
    (hnodup : ids.Nodup) (hok : db.updateRows ids f = .ok db')
    (hmove : ∀ id ∈ ids, ∀ row, db.outbox.get? id = some row →
      Job.Move attemptLimit row.job (f id row).job) : Steps Gone db db' := by
  obtain ⟨hcounted, hrows⟩ := updateRows_eq_ok h hnodup hok
  refine ⟨hcounted, ?_, ?_⟩
  · intro id row hrow
    refine .inl ⟨_, by rw [hrows, hrow, Option.map_some], ?_⟩
    split
    · rename_i hid
      exact .of_move (hmove id hid row hrow)
    · exact .refl row
  · intro id hnone
    rw [hrows, hnone, Option.map_none]

/-- A row that is rewritten makes a move. -/
theorem updateRow_steps {id : Uuid} {f : Uuid → Row → Row} {row : Row} (h : db.Counted)
    (hrow : db.outbox.get? id = some row) (hok : updateRow f db id = .ok db')
    (hmove : Job.Move attemptLimit row.job (f id row).job) : Steps Gone db db' := by
  refine updateRows_steps h (List.nodup_singleton id) (f := f) ?_ ?_
  · rw [updateRows, List.foldlM_cons, hok]
    rfl
  · intro j hj row' hrow'
    rw [List.mem_singleton.mp hj, hrow] at hrow'
    cases hrow'
    rw [List.mem_singleton.mp hj]
    exact hmove

/-! ### Cascades -/

theorem deleteRevisions_steps {p : Uuid → RevisionRow → Bool} (h : db.Counted)
    (hok : db.deleteRevisions p = .ok db') (hgone : ∀ id row, db.outbox.get? id = some row →
      (db.revisions.get? row.revisionId).any (p row.revisionId) = true → Gone row) :
    Steps Gone db db' := by
  unfold deleteRevisions at hok
  rw [bind_eq_ok] at hok
  obtain ⟨mid, hmid, hok⟩ := hok
  cases hok
  have hsteps : Steps Gone db mid := deleteRows_steps h hmid fun id hid row hrow =>
    hgone id row hrow (of_mem_idsWhere hid hrow)
  exact hsteps.keeps (SameQueue.steps ⟨rfl, rfl, rfl⟩ hsteps.counted)

/-- A cascade deletes rows, and nothing else happens to them. -/
abbrev Cascades (db db' : Db) : Prop := Steps (fun _ => True) db db'

theorem Cascades.trans (h : Cascades db db') (h' : Cascades db' db'') : Cascades db db'' :=
  Steps.trans h h' fun _ _ _ _ => trivial

theorem deleteNotifications_steps {p : Uuid → NotificationRow → Bool} (h : db.Counted)
    (hok : db.deleteNotifications p = .ok db') : Cascades db db' := by
  unfold deleteNotifications at hok
  dsimp only at hok
  rw [bind_eq_ok] at hok
  obtain ⟨mid, hmid, hok⟩ := hok
  rw [bind_eq_ok] at hok
  obtain ⟨last, hlast, hok⟩ := hok
  cases hok
  have hrevisions : Cascades db mid := deleteRevisions_steps h hmid fun _ _ _ _ => trivial
  have hrows : Cascades mid last :=
    deleteRows_steps hrevisions.counted hlast fun _ _ _ _ => trivial
  exact (hrevisions.trans hrows).trans (SameQueue.steps ⟨rfl, rfl, rfl⟩ hrows.counted)

theorem deleteProfile_steps {profile : Uuid} (h : db.Counted)
    (hok : db.deleteProfile profile = .ok db') : Cascades db db' := by
  unfold deleteProfile at hok
  rw [bind_eq_ok] at hok
  obtain ⟨mid, hmid, hok⟩ := hok
  rw [bind_eq_ok] at hok
  obtain ⟨next, hnext, hok⟩ := hok
  rw [bind_eq_ok] at hok
  obtain ⟨last, hlast, hok⟩ := hok
  cases hok
  have hnotifications : Cascades db mid := deleteNotifications_steps h hmid
  have hrevisions : Cascades mid next :=
    deleteRevisions_steps hnotifications.counted hnext fun _ _ _ _ => trivial
  have hrows : Cascades next last :=
    deleteRows_steps hrevisions.counted hlast fun _ _ _ _ => trivial
  exact ((hnotifications.trans hrevisions).trans hrows).trans
    (SameQueue.steps ⟨rfl, rfl, rfl⟩ hrows.counted)

/-! ### Claims -/

section Claim

variable {now : Timestamp}

theorem purgeRows_steps (h : db.Counted) (hok : db.purgeRows now = .ok db') :
    Steps (fun row => row.isSpent now = true) db db' :=
  deleteRows_steps h hok fun _ hid _ hrow => of_mem_selectKeys hid hrow

/-- The revisions that are deleted have no row. -/
theorem purgeRevisions_steps (h : db.Counted) (hok : db.purgeRevisions now = .ok db') :
    Keeps db db' := by
  unfold purgeRevisions at hok
  refine deleteRevisions_steps h hok ?_
  intro id row hrow hp
  obtain ⟨revision, -, hid⟩ := (Option.any_eq_true _ _).mp hp
  obtain ⟨_, -, hunused⟩ := exists_of_mem_selectKeys (of_decide_eq_true hid)
  rw [Bool.and_eq_true, Bool.not_eq_true', List.any_eq_false] at hunused
  exact hunused.2 row (InsertionMap.mem_values_iff.mpr ⟨id, hrow⟩) (decide_eq_true rfl)

theorem isOver_of_isIdle {row : Row} (h : row.isIdle now = true) : row.phase.isOver = false := by
  simp only [Row.isIdle, Row.isActive, Bool.and_eq_true, Bool.not_eq_true'] at h
  exact h.1

/-- Idle rows are ended. -/
theorem finishRows_steps {p : Row → Bool} {limit : ℕ} {ending : Ending} {errorCode : Option String}
    (h : db.Counted) (hok : db.updateRows (db.firstIds (fun row => row.isIdle now && p row) limit)
      (fun _ => Row.finish now ending errorCode) = .ok db') : Keeps db db' := by
  refine updateRows_steps h nodup_selectKeys hok fun id hid row hrow => ?_
  have hidle := (Bool.and_eq_true_iff.mp (of_mem_selectKeys hid hrow)).1
  exact .finish _ (isOver_of_isIdle hidle)

theorem isOver_of_isCandidate {row : Row} (h : db.isCandidate now row = true) :
    row.phase.isOver = false ∧ row.attempts < attemptLimit := by
  simp only [isCandidate, Bool.and_eq_true, decide_eq_true_eq] at h
  obtain ⟨⟨⟨hphase, hattempts⟩, -⟩, -⟩ := h
  refine ⟨?_, hattempts⟩
  cases hrow : row.phase with
  | waiting => rfl
  | held lease => rfl
  | ended completion =>
    rw [hrow] at hphase
    cases hphase

theorem claimRows_steps {limit : ℕ} {lease : Uuid → Lease}
    {result : Db × List ClaimedNotification} (h : db.Counted)
    (hok : db.claimRows now limit lease = .ok result) :
    Steps (fun row => row.isSpent now = true) db result.1 := by
  unfold claimRows at hok
  rw [bind_eq_ok] at hok
  obtain ⟨purged, hpurged, hok⟩ := hok
  rw [bind_eq_ok] at hok
  obtain ⟨revised, hrevised, hok⟩ := hok
  rw [bind_eq_ok] at hok
  obtain ⟨suppressed, hsuppressed, hok⟩ := hok
  rw [bind_eq_ok] at hok
  obtain ⟨exhausted, hexhausted, hok⟩ := hok
  dsimp only at hok
  rw [bind_eq_ok] at hok
  obtain ⟨leased, hleased, hok⟩ := hok
  cases hok
  have hfirst := purgeRows_steps h hpurged
  have hsecond := purgeRevisions_steps hfirst.counted hrevised
  have hthird : Keeps revised suppressed := finishRows_steps hsecond.counted hsuppressed
  have hfourth : Keeps suppressed exhausted := finishRows_steps hthird.counted hexhausted
  have hfifth : Keeps exhausted leased := by
    refine updateRows_steps hfourth.counted nodup_selectKeys hleased fun id hid row hrow => ?_
    obtain ⟨hopen, hattempts⟩ := isOver_of_isCandidate (of_mem_selectKeys hid hrow)
    exact .take (lease id) hopen hattempts
  exact (((hfirst.keeps hsecond).keeps hthird).keeps hfourth).keeps hfifth

theorem claim_steps {c : ClaimCall} {result : Db × List ClaimedNotification} (h : db.Counted)
    (hok : db.claim c = .ok result) : Steps (fun row => row.isSpent c.now = true) db result.1 := by
  unfold claim at hok
  split at hok
  · rw [failIf_bind_eq_ok] at hok
    exact claimRows_steps h hok.2
  · cases hok

end Claim

/-! ### Finishing and enqueueing -/

/-- The token a row is leased under. -/
def token? (db : Db) (id : Uuid) : Option Uuid :=
  ((db.outbox.get? id).bind (·.phase.lease?)).map Lease.token

theorem leasedRow_eq_some {now : Timestamp} {id token : Uuid} {row : Row}
    (h : db.leasedRow now id token = some row) :
    db.outbox.get? id = some row ∧ row.phase.isOver = false ∧ db.token? id = some token := by
  rw [leasedRow, Option.filter_eq_some_iff, Option.any_eq_true] at h
  obtain ⟨hrow, lease, hlease, htoken⟩ := h
  refine ⟨hrow, ?_, ?_⟩
  · cases hover : row.phase.isOver with
    | false => rfl
    | true =>
      rw [Phase.lease?_eq_none_of_isOver hover] at hlease
      cases hlease
  · rw [token?, hrow, Option.bind_some, hlease, Option.map_some, (of_decide_eq_true htoken).1]

theorem finishRow_steps {c : FinishCall} {id : Uuid} {success permanent : Bool} {row : Row}
    {result : Db × Answer} (h : db.Counted) (hrow : db.outbox.get? id = some row)
    (hopen : row.phase.isOver = false)
    (hok : db.finishRow c id success permanent row = .ok result) : Keeps db result.1 := by
  unfold finishRow at hok
  split at hok
  · rw [bind_eq_ok] at hok
    obtain ⟨after, hafter, hok⟩ := hok
    cases hok
    exact updateRow_steps h hrow hafter (.finish _ hopen)
  · dsimp only at hok
    split at hok
    · rw [bind_eq_ok] at hok
      obtain ⟨after, hafter, hok⟩ := hok
      cases hok
      exact updateRow_steps h hrow hafter (.finish _ hopen)
    · rw [bind_eq_ok] at hok
      obtain ⟨after, hafter, hok⟩ := hok
      cases hok
      exact updateRow_steps h hrow hafter (.release hopen)

theorem finish_steps {c : FinishCall} {result : Db × Answer} (h : db.Counted)
    (hok : db.finish c = .ok result) : Keeps db result.1 := by
  unfold finish at hok
  split at hok
  · split at hok
    · cases hok
      exact .refl h
    · rename_i row hrow
      obtain ⟨hget, hopen, -⟩ := leasedRow_eq_some hrow
      exact finishRow_steps h hget hopen hok
  · cases hok

/-- A call with another token than the current one changes nothing. -/
theorem finish_of_ne {c : FinishCall} {result : Db × Answer}
    (h : c.id.bind db.token? ≠ c.token) (hok : db.finish c = .ok result) :
    result = (db, .leaseLost) := by
  unfold finish at hok
  split at hok
  · rename_i id token success permanent hid htoken _ _
    split at hok
    · cases hok
      rfl
    · rename_i row hrow
      refine absurd ?_ h
      rw [hid, htoken, Option.bind_some]
      exact (leasedRow_eq_some hrow).2.2
  · cases hok

theorem enqueueRevision_sameQueue {c : EnqueueCall} {n : NotificationRow} {result : Db × Uuid}
    (hok : db.enqueueRevision c n = .ok result) : SameQueue db result.1 := by
  unfold enqueueRevision at hok
  split at hok
  · cases hok
    exact ⟨rfl, rfl, rfl⟩
  · rw [failIf_bind_eq_ok, failIf_bind_eq_ok] at hok
    cases hok.2.2
    exact ⟨rfl, rfl, rfl⟩

/-- At most one row is added, without attempts. -/
theorem enqueue_eq_ok {c : EnqueueCall} (h : db.Counted) (hok : db.enqueue c = .ok db') :
    db'.Counted ∧ (db'.outbox = db.outbox ∨ ∃ id row, db.outbox.get? id = none ∧
      db'.outbox = db.outbox.set id row ∧ row.attempts = 0) := by
  unfold enqueue at hok
  split at hok
  · cases hok
  · rw [failIf_bind_eq_ok, bind_eq_ok] at hok
    obtain ⟨-, ⟨after, revision⟩, hafter, hok⟩ := hok
    have hsame := enqueueRevision_sameQueue hafter
    dsimp only at hok hsame
    split at hok
    · cases hok
      exact ⟨hsame.counted h, .inl hsame.outbox⟩
    · obtain ⟨hnone, houtbox, hcounted⟩ := insertRow_eq_ok (hsame.counted h) hok
      rw [hsame.outbox] at hnone houtbox
      exact ⟨hcounted, .inr ⟨_, _, hnone, houtbox, rfl⟩⟩

/-! ### Fencing -/

/-- The row is leased under this token. -/
def Live (db : Db) (id token : Uuid) : Prop :=
  ∃ row lease, db.outbox.get? id = some row ∧ row.phase = .held lease ∧ lease.token = token

/-- Every row has at most one live token and at most `attemptLimit` attempts, and the counters are
the numbers of rows that are pending or leased. -/
structure Fenced (db : Db) : Prop where
  live : ∀ id token token', db.Live id token → db.Live id token' → token = token'
  limit : ∀ id row, db.outbox.get? id = some row → row.attempts ≤ attemptLimit
  profiles : ∀ profile, db.pendingOf profile =
    db.outbox.values.countP fun row => row.isActive && row.profileId = profile
  pending : db.globalQueueCount.pending = db.outbox.values.countP Row.isActive

/-- The calls that may delete a row: a claim, once the row has been over for long, and what deletes
its notification or its profile. -/
def MayDelete : Call → Row → Prop
  | .claim c, row => row.isSpent c.now = true
  | .deleteNotification _, _ => True
  | .deleteProfile _, _ => True
  | _, _ => False

/-- What a step may do: a call of `finish` under another token than the current one does nothing,
attempts are counted upwards, and a row that is over stays as it is until it is deleted. -/
structure FencedStep (db : Db) (c : Call) (db' : Db) : Prop where
  fence : ∀ f, c = .finish f → f.id.bind db.token? ≠ f.token → db' = db
  rows : ∀ id row, db.outbox.get? id = some row →
    (∃ row', db'.outbox.get? id = some row' ∧ row.attempts ≤ row'.attempts ∧
      (row.phase.isOver = true → row' = row)) ∨
    db'.outbox.get? id = none ∧ MayDelete c row

/-- What holds in every state: the counters are right, and no row has too many attempts. -/
structure Sound (db : Db) : Prop where
  counted : db.Counted
  limit : ∀ id row, db.outbox.get? id = some row → row.attempts ≤ attemptLimit

theorem Sound.fenced (h : db.Sound) : db.Fenced where
  live id token token' := by
    rintro ⟨row, lease, hrow, hlease, rfl⟩ ⟨row', lease', hrow', hlease', rfl⟩
    rw [hrow] at hrow'
    cases hrow'
    rw [hlease] at hlease'
    cases hlease'
    rfl
  limit := h.limit
  profiles profile := by
    rw [h.counted.profiles, ← InsertionMap.sum_eq_countP]
    refine InsertionMap.sum_congr fun _ row _ => ?_
    simp [Row.activeFor]
  pending := by
    rw [h.counted.pending, ← InsertionMap.sum_eq_countP]
    rfl

/-- Steps keep the bound on attempts. -/
theorem Steps.sound (h : Steps Gone db db') (hdb : db.Sound) : db'.Sound where
  counted := h.counted
  limit id row' hrow' := by
    cases hrow : db.outbox.get? id with
    | none =>
      rw [h.fresh id hrow] at hrow'
      cases hrow'
    | some row =>
      rcases h.rows id row hrow with ⟨row'', hrow'', hadvances⟩ | ⟨hnone, -⟩
      · rw [hrow'] at hrow''
        cases hrow''
        exact hadvances.moves.attempts_le_limit (hdb.limit id row hrow)
      · rw [hnone] at hrow'
        cases hrow'

theorem Steps.fencedStep {c : Call} (h : Steps (MayDelete c) db db')
    (hfence : ∀ f, c = .finish f → f.id.bind db.token? ≠ f.token → db' = db) :
    db.FencedStep c db' where
  fence := hfence
  rows id row hrow := by
    rcases h.rows id row hrow with ⟨row', hrow', hadvances⟩ | hgone
    · exact .inl ⟨row', hrow', hadvances.moves.attempts_le, hadvances.ended⟩
    · exact .inr hgone

theorem Steps.imp (h : Steps Gone db db') (himp : ∀ row, Gone row → Gone' row) :
    Steps Gone' db db' where
  counted := h.counted
  rows id row hrow := (h.rows id row hrow).imp_right fun hgone => ⟨hgone.1, himp row hgone.2⟩
  fresh := h.fresh

/-- Every call but `enqueue`, which adds a row, makes steps. -/
theorem call_steps {c : Call} (h : db.Counted) (hc : ∀ e, c ≠ .enqueue e)
    (hok : db.call c = .ok db') : Steps (MayDelete c) db db' := by
  cases c with
  | enqueue e => exact absurd rfl (hc e)
  | claim c =>
    unfold call at hok
    dsimp only at hok
    cases hresult : db.claim c with
    | error e =>
      rw [hresult] at hok
      cases hok
    | ok result =>
      rw [hresult] at hok
      cases hok
      exact claim_steps h hresult
  | finish c =>
    unfold call at hok
    dsimp only at hok
    cases hresult : db.finish c with
    | error e =>
      rw [hresult] at hok
      cases hok
    | ok result =>
      rw [hresult] at hok
      cases hok
      exact (finish_steps h hresult).imp fun _ hgone => hgone.elim
  | putProfile profile row =>
    cases hok
    exact SameQueue.steps ⟨rfl, rfl, rfl⟩ h
  | putPreferences profile row =>
    unfold call at hok
    dsimp only [putPreferences] at hok
    rw [failIf_bind_eq_ok] at hok
    cases hok.2
    exact SameQueue.steps ⟨rfl, rfl, rfl⟩ h
  | putNotification id profile content drawn =>
    unfold call at hok
    dsimp only [putNotification] at hok
    rw [failIf_bind_eq_ok] at hok
    cases hok.2
    exact SameQueue.steps ⟨rfl, rfl, rfl⟩ h
  | deleteNotification id =>
    unfold call at hok
    exact deleteNotifications_steps h hok
  | deleteProfile profile =>
    unfold call at hok
    exact deleteProfile_steps h hok

theorem enqueue_step {c : EnqueueCall} (h : db.Sound) (hok : db.enqueue c = .ok db') :
    db'.Sound ∧ db.FencedStep (.enqueue c) db' := by
  obtain ⟨hcounted, hrows⟩ := enqueue_eq_ok h.counted hok
  rcases hrows with houtbox | ⟨id, row, hnone, houtbox, hattempts⟩
  · refine ⟨⟨hcounted, by rw [houtbox]; exact h.limit⟩, nofun, ?_⟩
    intro j old hold
    exact .inl ⟨old, by rw [houtbox, hold], le_rfl, fun _ => rfl⟩
  · refine ⟨⟨hcounted, ?_⟩, nofun, ?_⟩
    · rw [houtbox]
      exact InsertionMap.forall_get?_set h.limit (by rw [hattempts]; exact Nat.zero_le _)
    · intro j old hold
      have hj : j ≠ id := by
        rintro rfl
        rw [hnone] at hold
        cases hold
      refine .inl ⟨old, ?_, le_rfl, fun _ => rfl⟩
      rw [houtbox, InsertionMap.get?_set_of_ne _ _ hj, hold]

theorem apply_finish_of_ne {f : FinishCall} (h : f.id.bind db.token? ≠ f.token) :
    db.apply (.finish f) = db := by
  unfold apply call
  dsimp only
  cases hresult : db.finish f with
  | error e => rfl
  | ok result =>
    rw [finish_of_ne h hresult]
    rfl

/-- Every step is fenced. -/
theorem apply_step (h : db.Sound) (c : Call) :
    (db.apply c).Sound ∧ db.FencedStep c (db.apply c) := by
  cases hok : db.call c with
  | error e =>
    have hsame : db.apply c = db := by rw [apply, hok]
    rw [hsame]
    refine ⟨h, fun _ _ _ => rfl, fun id row hrow => ?_⟩
    exact .inl ⟨row, hrow, le_rfl, fun _ => rfl⟩
  | ok db' =>
    have happly : db.apply c = db' := by rw [apply, hok]
    by_cases hc : ∃ e, c = .enqueue e
    · obtain ⟨e, rfl⟩ := hc
      rw [happly]
      exact enqueue_step h hok
    · have hsteps := call_steps h.counted (fun e he => hc ⟨e, he⟩) hok
      rw [happly]
      refine ⟨hsteps.sound h, hsteps.fencedStep ?_⟩
      rintro f rfl hne
      rw [← happly]
      exact apply_finish_of_ne hne

theorem Initial.sound (h : db.Initial) : db.Sound where
  counted := by
    refine ⟨fun p => ?_, ?_, ?_⟩
    · rw [pendingOf, h.profileQueueCounts, h.outbox]
      rfl
    · rw [h.globalQueueCount, h.outbox]
      rfl
    · rw [h.globalQueueCount, h.outbox]
      rfl
  limit id row hrow := by
    rw [h.outbox] at hrow
    cases hrow

/-- Every state of a run is sound. -/
theorem run_sound (h : db.Sound) (calls : List Call) : (db.run calls).Sound := by
  induction calls generalizing db with
  | nil => exact h
  | cons c calls ih => exact ih (apply_step h c).1

end Db

end PandaPay.Outbox.Notifications
