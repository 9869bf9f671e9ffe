import PandaPay.Sync.Pull
import PandaPay.Sync.Runs

/-!
# What devices receive

Numbers are drawn before calls commit, so a change can become visible after a change with a greater
number. A device that has read the greater one never returns to it.

## Main definitions

* `System.NeverSkips`: no cursor has passed a change that its device was not given
* `System.PullsInOrder`: the condition on pulls
* `System.Sound`: the invariant of runs that meet it

## Main results

* `Server.db_serial`: calls that nothing interleaves are a run of `sync_apply_change_v2`
* `sound_step`: a step that meets the condition keeps the invariant
* `never_skips`: in runs of such steps nothing is skipped
* `not_never_skips`: not so when two calls commit in the other order
-/

namespace PandaPay.Sync

variable {J V : Type}

namespace Server

/-- The changes that have a number. -/
def numbered (s : Server J V) : List (Logged J) := s.changeLog ++ s.openCalls.map OpenCall.logged

/-- The server after a call has drawn the next number. -/
def opened (s : Server J V) (o : OpenCall J V) : Server J V :=
  { s with nextServerSeq := s.nextServerSeq + 1, openCalls := s.openCalls ++ [o] }

/-! ### What steps do -/

section Steps

variable {pg : Conversions J V} [DecidableEq J] {admits : Db J V → Entity → Uuid → Row V → Bool}
  {s s' : Server J V} {c : ChangeCall J} {n since limit : ℤ} {caller : Option Uuid}
  {profile device : Option Uuid}

/-- A call draws the next number, or does nothing that anybody sees. -/
theorem call_eq : s.call pg admits c = s ∨
    ∃ o, o.logged.serverSeq = s.nextServerSeq ∧ s.call pg admits c = s.opened o := by
  unfold call
  split
  · exact .inl rfl
  · split
    · exact .inl rfl
    · split
      · exact .inr ⟨_, rfl, rfl⟩
      · exact .inl rfl

omit [DecidableEq J] in
/-- A commit shows the change of an open call. -/
theorem commit_eq : s.commit n = s ∨ ∃ o ∈ s.openCalls, o.logged.serverSeq = n ∧
    (s.commit n).changeLog = s.changeLog ++ [o.logged] ∧ (s.commit n).openCalls = s.without n ∧
      (s.commit n).userDevices = s.userDevices ∧ (s.commit n).syncCursors = s.syncCursors ∧
        (s.commit n).nextServerSeq = s.nextServerSeq := by
  unfold commit
  cases hfind : s.openCalls.find? fun o => o.logged.serverSeq = n with
  | none => exact .inl rfl
  | some o =>
    have hn := List.find?_some hfind
    rw [decide_eq_true_eq] at hn
    exact .inr ⟨o, List.mem_of_find?_eq_some hfind, hn, rfl, rfl, rfl, rfl, rfl⟩

omit [DecidableEq J] in
theorem checkAccess_eq_ok {access : Uuid × Uuid} (h : s.checkAccess caller profile device = .ok access) :
    profile = some access.1 ∧ device = some access.2 ∧
      s.userDevices.get? access.2 = some access.1 := by
  unfold checkAccess at h
  split at h
  · split at h
    · cases h
    · rename_i hdenied
      rw [not_or, not_not, not_not] at hdenied
      cases h
      exact ⟨rfl, rfl, hdenied.2⟩
  · cases h

omit [DecidableEq J] in
/-- A pull hands out a page of the changes of the others. -/
theorem syncPull_eq_ok {batch : List (Logged J)}
    (h : s.syncPull caller profile device since limit = .ok batch) :
    ∃ p d, profile = some p ∧ device = some d ∧ s.userDevices.get? d = some p ∧
      batch = page Logged.serverSeq (pullLimit limit) since (s.changesFor p d) := by
  unfold syncPull at h
  rw [bind_eq_ok] at h
  obtain ⟨⟨p, d⟩, haccess, h⟩ := h
  obtain ⟨hp, hd, hdevice⟩ := checkAccess_eq_ok haccess
  cases h
  exact ⟨p, d, hp, hd, hdevice, rfl⟩

omit [DecidableEq J] in
/-- An acknowledgement moves the cursor of the device, never backwards. -/
theorem syncAck_eq_ok (h : s.syncAck caller profile device n = .ok s') :
    ∃ d cursor, device = some d ∧ s' = s.withCursor d cursor ∧
      cursor.lastServerSeq = max (s.cursorOf d) n := by
  unfold syncAck at h
  rw [bind_eq_ok] at h
  obtain ⟨⟨p, d⟩, haccess, h⟩ := h
  obtain ⟨-, hd, -⟩ := checkAccess_eq_ok haccess
  dsimp only at h
  rw [failIf_bind_eq_ok] at h
  obtain ⟨hn, h⟩ := h
  rw [not_lt] at hn
  cases hcursor : s.syncCursors.get? d with
  | none =>
    rw [hcursor] at h
    cases h
    refine ⟨d, _, hd, rfl, ?_⟩
    rw [cursorOf, hcursor]
    exact (max_eq_right hn).symm
  | some cursor =>
    rw [hcursor] at h
    dsimp only at h
    rw [failIf_bind_eq_ok] at h
    obtain ⟨-, h⟩ := h
    cases h
    refine ⟨d, _, hd, rfl, ?_⟩
    rw [cursorOf, hcursor]
    rfl

omit [DecidableEq J] in
theorem cursorOf_withCursor (s : Server J V) (d : Uuid) (cursor : SyncCursor) (d' : Uuid) :
    (s.withCursor d cursor).cursorOf d' =
      if d' = d then cursor.lastServerSeq else s.cursorOf d' := by
  unfold cursorOf withCursor
  rw [InsertionMap.get?_set]
  split <;> rfl

omit [DecidableEq J] in
theorem mem_changesFor {p d : Uuid} {l : Logged J} : l ∈ s.changesFor p d ↔
    l ∈ s.changeLog ∧ l.change.profileId = p ∧ l.change.deviceId ≠ d := by
  unfold changesFor
  rw [List.mem_filter, decide_eq_true_iff]

theorem pullLimit_pos (limit : ℤ) : 0 < pullLimit limit := by
  unfold pullLimit
  omega

end Steps

/-! ### A call on its own -/

section Alone

variable {pg : Conversions J V} [DecidableEq J] {admits : Db J V → Entity → Uuid → Row V → Bool}
  {db : Db J V} {s : Server J V} {c : ChangeCall J}

/-- A card that is archived. -/
def archivedRow (pg : Conversions J V) (row : Row V) : Row V :=
  { row with values := Function.update row.values "is_archived" pg.archived }

/-- No call is open, and the changes have numbers of their own that have been drawn. -/
structure Quiet (s : Server J V) : Prop where
  openCalls : s.openCalls = []
  distinct : (s.changeLog.map Logged.serverSeq).Nodup
  drawn : ∀ l ∈ s.changeLog, l.serverSeq < s.nextServerSeq

/-- A call that commits before anything else happens. -/
def callAlone (pg : Conversions J V) (admits : Db J V → Entity → Uuid → Row V → Bool) (s : Server J V)
    (c : ChangeCall J) : Server J V := (s.call pg admits c).commit s.nextServerSeq

/-- What a call leaves: it does nothing, or writes its row and inserts one change. -/
theorem syncApplyChangeV2_inserts {result : Db J V × Outcome}
    (h : db.syncApplyChangeV2 pg admits c = .ok result) : result.1 = db ∨
      ∃ entity row change conflicts, Entity.ofName c.entity = some entity ∧
        result.1 = { db with
          rows := writeRow db.rows (entity, c.entityId) row
          changeLog := db.changeLog ++ [change]
          syncConflicts := db.syncConflicts ++ conflicts } ∧
        result.1.rows.get? (entity, c.entityId) = row := by
  rcases Db.syncApplyChangeV2_eq_ok h with ⟨hdb, -, -⟩ | ⟨change, row, hadmit, hrow, -, hcall⟩
  · exact .inl hdb
  obtain ⟨hname, hid, -⟩ := Db.checkCall_eq_ok hadmit
  have hentity : Entity.ofName c.entity = some change.entity := by
    rw [hname, Entity.ofName_name]
  rw [Db.rowOf_eq_rowAt, Db.rowAt_eq_some] at hrow
  obtain ⟨hget, -⟩ := hrow
  rw [hid]
  rcases hcall with ⟨hop, hresult⟩ | ⟨hop, hresult⟩
  · rw [hresult]
    refine .inr ⟨change.entity, if change.entity = .userCards then some (archivedRow pg row) else none,
      ⟨change.profile, change.device, change.entity.name, change.entityId, .delete, .empty, .empty,
        c.clientSeq⟩, [], hentity, ?_, ?_⟩
    · unfold Db.applyDelete Db.logChange
      dsimp only
      rw [List.append_nil]
      split <;> rfl
    · unfold Db.applyDelete Db.logChange
      dsimp only
      split
      · exact InsertionMap.get?_set_self _ _ _
      · rw [InsertionMap.get?_erase, if_pos rfl]
  · obtain ⟨-, wons, _, final, conflicts, -, hfinal, hdb⟩ := Db.applyUpdate_eq_ok hresult
    have hrows : (if wons = [] then db.rows
        else db.rows.set (change.entity, change.entityId) final) =
          db.rows.set (change.entity, change.entityId) final := by
      split
      · rename_i hempty
        rcases hfinal with ⟨-, hrow, -⟩ | ⟨hne, -⟩
        · rw [hrow]
          exact (InsertionMap.set_eq_self hget).symm
        · exact absurd hempty hne
      · rfl
    rw [hrows] at hdb
    rw [hdb]
    exact .inr ⟨change.entity, some final, _, conflicts, hentity, rfl,
      InsertionMap.get?_set_self _ _ _⟩

omit [DecidableEq J] in
/-- The call that has just been opened is the only open one. -/
theorem find?_opened {o : OpenCall J V} (hopen : s.openCalls = []) (ho : o.logged.serverSeq = s.nextServerSeq) :
    (s.opened o).openCalls.find? (fun o => o.logged.serverSeq = s.nextServerSeq) = some o := by
  unfold opened
  rw [hopen]
  exact List.find?_cons_of_pos (decide_eq_true ho)

omit [DecidableEq J] in
theorem commit_of_quiet (h : s.Quiet) (n : ℤ) : s.commit n = s := by
  unfold commit
  rw [h.openCalls]
  rfl

omit [DecidableEq J] in
/-- What the commit of the only open call shows, where its number is the greatest. -/
theorem db_commit_opened {o : OpenCall J V} (h : s.Quiet) (ho : o.logged.serverSeq = s.nextServerSeq) :
    ((s.opened o).commit s.nextServerSeq).db = { s.db with
      rows := writeRow s.rows o.row o.written
      changeLog := s.db.changeLog ++ [o.logged.change]
      syncConflicts := s.syncConflicts ++ o.conflicts } := by
  have hsort : sortBy Logged.serverSeq (s.changeLog ++ [o.logged]) =
      sortBy Logged.serverSeq s.changeLog ++ [o.logged] := by
    refine eq_of_perm_of_pairwise Logged.serverSeq ?_ ?_ (pairwise_sortBy _ _) ?_
    · exact (sortBy_perm _ _).trans ((sortBy_perm _ _).symm.append_right _)
    · rw [((sortBy_perm _ _).map _).nodup_iff, List.map_append, List.nodup_append]
      refine ⟨h.distinct, List.nodup_singleton _, ?_⟩
      intro a ha b hb
      obtain ⟨l, hl, rfl⟩ := List.mem_map.mp ha
      rw [List.mem_singleton.mp hb, ho]
      exact (h.drawn l hl).ne
    · rw [List.pairwise_append]
      refine ⟨pairwise_sortBy _ _, List.pairwise_singleton _ _, ?_⟩
      intro l hl l' hl'
      rw [List.mem_singleton.mp hl', ho]
      exact (h.drawn l (mem_sortBy.mp hl)).le
  unfold commit
  rw [find?_opened h.openCalls ho]
  unfold db opened
  dsimp only
  rw [hsort, List.map_append, List.map_singleton]

/-- A call that nothing interleaves is `sync_apply_change_v2`. -/
theorem db_commit_call (h : s.Quiet) : (s.callAlone pg admits c).db = s.db.apply pg admits c := by
  have hfree : s.isLocked c ≠ true := by
    rw [isLocked, h.openCalls, List.any_nil]
    exact Bool.false_ne_true
  unfold callAlone call Db.apply
  rw [if_neg hfree]
  cases hsync : s.db.syncApplyChangeV2 pg admits c with
  | error e =>
    dsimp only
    rw [commit_of_quiet h]
  | ok result =>
    have hlength : s.changeLog.length = s.db.changeLog.length := by
      unfold db
      rw [List.length_map, (sortBy_perm _ _).length_eq]
    obtain ⟨after, outcome⟩ := result
    dsimp only
    rcases syncApplyChangeV2_inserts hsync with hafter | ⟨entity, row, change, conflicts, hentity,
      hafter, hrow⟩
    · dsimp only at hafter
      rw [hafter, hlength, List.drop_length]
      split
      · rename_i hnone
        cases hnone
      · rw [commit_of_quiet h]
    · dsimp only at hafter hrow
      have hlog : after.changeLog.drop s.changeLog.length = [change] := by
        rw [hafter, hlength]
        exact List.drop_left
      have hconflicts : after.syncConflicts.drop s.syncConflicts.length = conflicts := by
        rw [hafter]
        exact List.drop_left
      rw [hentity, hlog]
      refine (@db_commit_opened _ _ s (s.openCall after (entity, c.entityId) change) h rfl).trans ?_
      unfold openCall
      dsimp only
      rw [hrow, hconflicts, hafter]
      rfl

/-- It leaves no call open. -/
theorem callAlone_quiet (h : s.Quiet) : (s.callAlone pg admits c).Quiet := by
  unfold callAlone
  rcases @call_eq _ _ pg _ admits s c with hsame | ⟨o, ho, hopened⟩
  · rw [hsame, commit_of_quiet h]
    exact h
  · rw [hopened, commit, find?_opened h.openCalls ho]
    refine ⟨?_, ?_, ?_⟩
    · simp [without, opened, h.openCalls, ho]
    · simp only [opened, List.map_append, List.map_singleton, List.nodup_append, List.mem_singleton]
      refine ⟨h.distinct, List.nodup_singleton _, ?_⟩
      rintro a ha _ rfl
      obtain ⟨l, hl, rfl⟩ := List.mem_map.mp ha
      exact ho ▸ (h.drawn l hl).ne
    · intro l hl
      rcases List.mem_append.mp hl with hl | hl
      · exact (h.drawn l hl).trans (lt_add_one _)
      · rw [List.mem_singleton.mp hl, ho]
        exact lt_add_one _

/-- **Calls that nothing interleaves are a run of `sync_apply_change_v2`.** -/
theorem db_serial (h : s.Quiet) (calls : List (ChangeCall J)) :
    (calls.foldl (callAlone pg admits) s).db = s.db.run pg admits calls := by
  induction calls generalizing s with
  | nil => rfl
  | cons c calls ih =>
    rw [List.foldl_cons, ih (callAlone_quiet h), db_commit_call h]
    rfl

end Alone

end Server

namespace System

/-! ### The property and the condition -/

section Defs

/-- No cursor has passed a change, of the profile of its device and by another device, that the
device was not given; and a device that is given nothing more was given all of them. -/
structure NeverSkips (s : System J V) : Prop where
  passed : ∀ device profile, s.server.userDevices.get? device = some profile →
    CaughtUp Logged.serverSeq (s.server.changesFor profile device) (s.inboxes device).received
      (s.server.cursorOf device)
  drained : ∀ caller profile device limit,
    s.server.syncPull caller (some profile) (some device) (s.server.cursorOf device) limit =
        .ok [] →
      ∀ l ∈ s.server.changesFor profile device, l ∈ (s.inboxes device).received

/-- No open call of another device has a number that the pull of a device would go beyond: unless
changes with lesser numbers fill the page, each change that the pull can see has a lesser number. -/
def PullsInOrder (s : System J V) : Action J → Prop
  | .pull _ (some profile) device limit => ∀ o ∈ s.server.openCalls,
    o.logged.change.profileId = profile → o.logged.change.deviceId ≠ device →
      (s.server.changesFor profile device).countP (fun l =>
          s.server.cursorOf device < l.serverSeq ∧ l.serverSeq < o.logged.serverSeq) <
        Server.pullLimit limit →
      ∀ l ∈ s.server.changesFor profile device, l.serverSeq < o.logged.serverSeq
  | _ => True

variable (pg : Conversions J V) [DecidableEq J] (admits : Db J V → Entity → Uuid → Row V → Bool)

/-- Every pull of the run meets the condition. -/
def OrderedRun : System J V → List (Action J) → Prop
  | _, [] => True
  | s, a :: actions => s.PullsInOrder a ∧ OrderedRun (s.step pg admits a) actions

/-- Nothing was logged, opened or read. -/
structure Initial (s : System J V) : Prop where
  changeLog : s.server.changeLog = []
  openCalls : s.server.openCalls = []
  syncCursors : s.server.syncCursors = .empty
  nextServerSeq : 0 < s.server.nextServerSeq
  inboxes : s.inboxes = fun _ => ⟨[], 0⟩

end Defs

/-! ### The invariant -/

/-- How far a device has read: to its cursor, or to what it has still to acknowledge. -/
def reach (s : System J V) (device : Uuid) : ℤ :=
  max (s.server.cursorOf device) (s.inboxes device).latestServerSeq

/-- A device has what it has read past, and reads behind the open calls. -/
structure Reads (s : System J V) (profile device : Uuid) : Prop where
  caughtUp : CaughtUp Logged.serverSeq (s.server.changesFor profile device)
    (s.inboxes device).received (s.reach device)
  behind : ∀ o ∈ s.server.openCalls, o.logged.change.profileId = profile →
    o.logged.change.deviceId ≠ device → s.reach device < o.logged.serverSeq
  started : s.reach device < s.server.nextServerSeq

/-- What holds along runs whose pulls meet the condition. -/
structure Sound (s : System J V) : Prop where
  distinct : (s.server.numbered.map Logged.serverSeq).Nodup
  drawn : ∀ l ∈ s.server.numbered, l.serverSeq < s.server.nextServerSeq
  reads : ∀ device profile, s.server.userDevices.get? device = some profile →
    s.Reads profile device

section Sound

variable {s : System J V} {n : ℤ}

theorem Initial.sound (h : s.Initial) : s.Sound := by
  have hnumbered : s.server.numbered = [] := by
    rw [Server.numbered, h.changeLog, h.openCalls, List.map_nil, List.append_nil]
  refine ⟨?_, ?_, ?_⟩
  · rw [hnumbered]
    exact List.nodup_nil
  · rw [hnumbered]
    exact fun l hl => absurd hl List.not_mem_nil
  · intro device profile _
    have hreach : s.reach device = 0 := by
      rw [reach, Server.cursorOf, h.syncCursors, h.inboxes]
      rfl
    refine ⟨?_, ?_, ?_⟩
    · intro l hl
      rw [Server.mem_changesFor, h.changeLog] at hl
      exact absurd hl.1 List.not_mem_nil
    · rw [h.openCalls]
      exact fun o ho => absurd ho List.not_mem_nil
    · rw [hreach]
      exact h.nextServerSeq

/-- Changes are told apart by their numbers. -/
theorem Sound.eq_of_serverSeq (h : s.Sound) {l l' : Logged J} (hl : l ∈ s.server.numbered)
    (hl' : l' ∈ s.server.numbered) (heq : l.serverSeq = l'.serverSeq) : l = l' :=
  List.inj_on_of_nodup_map h.distinct hl hl' heq

theorem mem_numbered_of_changesFor {p d : Uuid} {l : Logged J} (h : l ∈ s.server.changesFor p d) :
    l ∈ s.server.numbered :=
  List.mem_append_left _ (Server.mem_changesFor.mp h).1

theorem Sound.neverSkips (h : s.Sound) : s.NeverSkips where
  passed device profile hdevice :=
    (h.reads device profile hdevice).caughtUp.mono (List.Subset.refl _) (le_max_left _ _)
  drained := by
    intro caller profile device limit hpull l hl
    obtain ⟨p, d, hp, hd, hdevice, hpage⟩ := Server.syncPull_eq_ok hpull
    cases hp
    cases hd
    have hle := le_of_page_eq_nil (Server.pullLimit_pos limit) hpage.symm hl
    exact (h.reads device profile hdevice).caughtUp l hl (hle.trans (le_max_left _ _))

/-! ### Steps -/

theorem Sound.opened (h : s.Sound) {o : OpenCall J V}
    (ho : o.logged.serverSeq = s.server.nextServerSeq) :
    Sound { s with server := s.server.opened o } := by
  have hnumbered : (s.server.opened o).numbered = s.server.numbered ++ [o.logged] := by
    unfold Server.numbered Server.opened
    rw [List.map_append, List.append_assoc]
    rfl
  refine ⟨?_, ?_, ?_⟩
  · rw [hnumbered, List.map_append, List.nodup_append]
    refine ⟨h.distinct, List.nodup_singleton _, ?_⟩
    intro a ha b hb
    obtain ⟨l, hl, rfl⟩ := List.mem_map.mp ha
    rw [List.mem_singleton.mp hb, ho]
    exact (h.drawn l hl).ne
  · rw [hnumbered]
    intro l hl
    change l.serverSeq < s.server.nextServerSeq + 1
    rcases List.mem_append.mp hl with hl | hl
    · have := h.drawn l hl
      omega
    · rw [List.mem_singleton.mp hl, ho]
      omega
  · intro device profile hdevice
    obtain ⟨hcaught, hbehind, hstarted⟩ := h.reads device profile hdevice
    refine ⟨hcaught, ?_, ?_⟩
    · intro o' ho' hprofile hother
      rcases List.mem_append.mp ho' with ho' | ho'
      · exact hbehind o' ho' hprofile hother
      · rw [List.mem_singleton.mp ho', ho]
        exact hstarted
    · exact hstarted.trans (Int.lt_succ _)

theorem mem_without {server : Server J V} {o : OpenCall J V} :
    o ∈ server.without n ↔ o ∈ server.openCalls ∧ o.logged.serverSeq ≠ n := by
  unfold Server.without
  rw [List.mem_filter, decide_eq_true_iff]

theorem Sound.rollback (h : s.Sound) : Sound { s with server := s.server.rollback n } := by
  have hsub : List.Sublist (s.server.rollback n).numbered s.server.numbered :=
    (List.Sublist.refl _).append (List.filter_sublist.map _)
  refine ⟨h.distinct.sublist (hsub.map _), fun l hl => h.drawn l (hsub.subset hl), ?_⟩
  intro device profile hdevice
  obtain ⟨hcaught, hbehind, hstarted⟩ := h.reads device profile hdevice
  exact ⟨hcaught, fun o ho => hbehind o (mem_without.mp ho).1, hstarted⟩

/-- A commit gives no change a new number. -/
theorem subperm_numbered {server : Server J V} {o : OpenCall J V} (ho : o ∈ server.openCalls)
    (hn : o.logged.serverSeq = n) :
    (server.changeLog ++ [o.logged] ++ (server.without n).map OpenCall.logged).Subperm
      server.numbered := by
  obtain ⟨before, after, hopen⟩ := List.append_of_mem ho
  have hwithout : List.Sublist ((server.without n).map OpenCall.logged)
      ((before ++ after).map OpenCall.logged) := by
    unfold Server.without
    rw [hopen, List.filter_append, List.filter_cons_of_neg (by simp [hn]), ← List.filter_append]
    exact List.filter_sublist.map _
  refine (hwithout.append_left _).subperm.trans (List.Perm.subperm ?_)
  unfold Server.numbered
  rw [hopen, List.append_assoc]
  refine List.Perm.append_left _ ?_
  simp only [List.map_append, List.map_cons, List.singleton_append]
  exact List.perm_middle.symm

/-- A change that commits comes after everything that was read. -/
theorem Sound.commit (h : s.Sound) : Sound { s with server := s.server.commit n } := by
  rcases @Server.commit_eq _ _ s.server n with heq | ⟨o, ho, hn, hlog, hopen, hdevices, hcursors,
    hnext⟩
  · rw [heq]
    exact h
  have hsub : (s.server.commit n).numbered.Subperm s.server.numbered := by
    unfold Server.numbered
    rw [hlog, hopen]
    exact subperm_numbered ho hn
  refine ⟨?_, ?_, ?_⟩
  · obtain ⟨numbers, hperm, hsublist⟩ := hsub
    exact (hperm.map _).nodup_iff.mp (h.distinct.sublist (hsublist.map _))
  · intro l hl
    change l.serverSeq < (s.server.commit n).nextServerSeq
    rw [hnext]
    exact h.drawn l (hsub.subset hl)
  · intro device profile hdevice
    change (s.server.commit n).userDevices.get? device = some profile at hdevice
    rw [hdevices] at hdevice
    obtain ⟨hcaught, hbehind, hstarted⟩ := h.reads device profile hdevice
    have hreach : reach { s with server := s.server.commit n } device = s.reach device := by
      unfold reach Server.cursorOf
      rw [hcursors]
    refine ⟨?_, ?_, ?_⟩
    · rw [hreach]
      unfold Server.changesFor
      dsimp only
      rw [hlog, List.filter_append, List.filter_singleton]
      by_cases hother : o.logged.change.profileId = profile ∧ o.logged.change.deviceId ≠ device
      · rw [decide_eq_true hother, cond_true]
        exact hcaught.append (hbehind o ho hother.1 hother.2)
      · rw [decide_eq_false hother, cond_false, List.append_nil]
        exact hcaught
    · rw [hreach]
      intro o' ho'
      change o' ∈ (s.server.commit n).openCalls at ho'
      rw [hopen] at ho'
      exact hbehind o' (mem_without.mp ho').1
    · rw [hreach]
      change s.reach device < (s.server.commit n).nextServerSeq
      rw [hnext]
      exact hstarted

theorem Sound.ack {d : Uuid} {cursor : SyncCursor} (h : s.Sound)
    (hcursor : cursor.lastServerSeq = s.reach d) :
    Sound { s with server := s.server.withCursor d cursor } := by
  refine ⟨h.distinct, h.drawn, ?_⟩
  intro device profile hdevice
  obtain ⟨hcaught, hbehind, hstarted⟩ := h.reads device profile hdevice
  have hreach : reach { s with server := s.server.withCursor d cursor } device =
      s.reach device := by
    unfold reach
    rw [Server.cursorOf_withCursor]
    split
    · rename_i heq
      rw [heq, hcursor, reach]
      exact max_eq_left (le_max_right _ _)
    · rfl
  refine ⟨?_, ?_, ?_⟩
  · rw [hreach]
    exact hcaught
  · rw [hreach]
    exact hbehind
  · rw [hreach]
    exact hstarted

theorem inboxes_receive (d : Uuid) (since : ℤ) (batch : List (Logged J)) :
    (s.receive d since batch).inboxes d =
      ⟨(s.inboxes d).received ++ batch, lastKey Logged.serverSeq since batch⟩ :=
  Function.update_self _ _ _

/-- A pull that meets the condition ends before every open call. -/
theorem Sound.received (h : s.Sound) {p d : Uuid} {caller : Option Uuid} {limit : ℤ}
    (hdevice : s.server.userDevices.get? d = some p)
    (horder : s.PullsInOrder (.pull caller (some p) d limit)) :
    Sound (s.receive d (s.server.cursorOf d) (page Logged.serverSeq (Server.pullLimit limit)
      (s.server.cursorOf d) (s.server.changesFor p d))) := by
  refine ⟨h.distinct, h.drawn, ?_⟩
  intro device profile hprofile
  obtain ⟨hcaught, hbehind, hstarted⟩ := h.reads device profile hprofile
  set batch := page Logged.serverSeq (Server.pullLimit limit) (s.server.cursorOf d)
    (s.server.changesFor p d) with hbatch
  by_cases heq : device = d
  · subst heq
    change s.server.userDevices.get? device = some profile at hprofile
    rw [hdevice] at hprofile
    cases hprofile
    have hmem : ∀ l ∈ batch, l ∈ s.server.changesFor p device ∧
        s.server.cursorOf device < l.serverSeq := fun l hl => mem_of_mem_page hl
    have hreach : (s.receive device (s.server.cursorOf device) batch).reach device =
        lastKey Logged.serverSeq (s.server.cursorOf device) batch := by
      unfold reach
      rw [inboxes_receive]
      exact max_eq_right (le_lastKey fun l hl => (hmem l hl).2)
    -- the last number of the batch is the old cursor, or that of a change in the batch
    have hlast : ∀ k, s.server.cursorOf device < k → (∀ l ∈ batch, l.serverSeq < k) →
        lastKey Logged.serverSeq (s.server.cursorOf device) batch < k := by
      intro k hcursor hall
      unfold lastKey
      cases hlast : batch.getLast? with
      | none => exact hcursor
      | some l => exact hall l (List.mem_of_getLast? hlast)
    refine ⟨?_, ?_, ?_⟩
    · rw [hreach]
      rw [inboxes_receive]
      refine CaughtUp.page ?_ (hcaught.mono (List.Subset.refl _) (le_max_left _ _))
      intro l hl l' hl'
      exact h.eq_of_serverSeq (mem_numbered_of_changesFor hl) (mem_numbered_of_changesFor hl')
    · rw [hreach]
      intro o ho hprofile hother
      refine hlast _ ((le_max_left _ _).trans_lt (hbehind o ho hprofile hother)) ?_
      intro l hl
      by_contra hge
      have hne : o.logged.serverSeq ≠ l.serverSeq := by
        have hdistinct := h.distinct
        rw [Server.numbered, List.map_append, List.nodup_append] at hdistinct
        exact (hdistinct.2.2 _ (List.mem_map_of_mem (Server.mem_changesFor.mp (hmem l hl).1).1) _
          (List.mem_map_of_mem (List.mem_map_of_mem ho))).symm
      have hlt : o.logged.serverSeq < l.serverSeq := lt_of_le_of_ne (not_lt.mp hge) hne
      exact hge (horder o ho hprofile hother (lt_of_mem_page hl hlt) l (hmem l hl).1)
    · rw [hreach]
      refine hlast _ ((le_max_left _ _).trans_lt hstarted) ?_
      exact fun l hl => h.drawn l (mem_numbered_of_changesFor (hmem l hl).1)
  · have hinbox : (s.receive d (s.server.cursorOf d) batch).inboxes device = s.inboxes device :=
      Function.update_of_ne heq _ _
    have hreach : (s.receive d (s.server.cursorOf d) batch).reach device = s.reach device := by
      unfold reach
      rw [hinbox]
      rfl
    refine ⟨?_, ?_, ?_⟩
    · rw [hreach, hinbox]
      exact hcaught
    · rw [hreach]
      exact hbehind
    · rw [hreach]
      exact hstarted

/-- **A step that meets the condition keeps the invariant.** -/
theorem sound_step {pg : Conversions J V} [DecidableEq J]
    {admits : Db J V → Entity → Uuid → Row V → Bool} {a : Action J} (h : s.Sound)
    (horder : s.PullsInOrder a) : (s.step pg admits a).Sound := by
  cases a with
  | call c =>
    rw [step]
    rcases @Server.call_eq _ _ pg _ admits s.server c with heq | ⟨o, ho, heq⟩
    · rw [heq]
      exact h
    · rw [heq]
      exact h.opened ho
  | commit n => exact h.commit
  | rollback n => exact h.rollback
  | pull caller profile device limit =>
    rw [step]
    cases hpull : s.server.syncPull caller profile (some device) (s.server.cursorOf device) limit with
    | error e => exact h
    | ok batch =>
      obtain ⟨p, d, hp, hd, hdevice, hbatch⟩ := Server.syncPull_eq_ok hpull
      cases hp
      cases hd
      rw [hbatch]
      exact h.received hdevice horder
  | ack caller profile device =>
    rw [step]
    cases hack : s.server.syncAck caller profile (some device) (s.inboxes device).latestServerSeq with
    | error e => exact h
    | ok server =>
      obtain ⟨d, cursor, hd, hserver, hcursor⟩ := Server.syncAck_eq_ok hack
      cases hd
      rw [hserver]
      exact h.ack hcursor

end Sound

/-! ### Runs -/

section Runs

variable {pg : Conversions J V} [DecidableEq J] {admits : Db J V → Entity → Uuid → Row V → Bool}
  {s : System J V} {actions : List (Action J)}

theorem sound_run (h : s.Sound) (hrun : s.OrderedRun pg admits actions) :
    (s.run pg admits actions).Sound := by
  induction actions generalizing s with
  | nil => exact h
  | cons a actions ih => exact ih (sound_step h hrun.1) hrun.2

/-- **Where pulls stay behind the calls that are to commit, no change is skipped.** -/
theorem never_skips (h : s.Initial) (hrun : s.OrderedRun pg admits actions) :
    (s.run pg admits actions).NeverSkips :=
  (sound_run h.sound hrun).neverSkips

end Runs

end System

/-! ### Two cards at once -/

section Cards

/-- The server with two cards of `"meera"`, of which nothing was synced. -/
def meeraServer : Server String String where
  rows := meeraCard.rows.set (.userCards, "second") ⟨"meera", fun _ => "null"⟩
  userDevices := meeraCard.userDevices
  userCategories := .empty
  changeLog := []
  syncConflicts := []
  syncCursors := .empty
  nextServerSeq := 1
  openCalls := []

def meeraSystem : System String String where
  server := meeraServer
  inboxes _ := ⟨[], 0⟩

/-- The phone names a card, twice. -/
theorem db_serial_meera :
    ([nickname "phone" "Travel" 10, nickname "phone" "Fuel" 11].foldl
      (Server.callAlone textColumns allAdmitted) meeraServer).db =
        meeraServer.db.run textColumns allAdmitted [nickname "phone" "Travel" 10, nickname "phone" "Fuel" 11] := by
  have hquiet : meeraServer.Quiet := ⟨rfl, List.nodup_nil, fun _ h => absurd h List.not_mem_nil⟩
  exact Server.db_serial hquiet _

/-- The phone names the second card. -/
def secondName : ChangeCall String := { nickname "phone" "Fuel" 11 with entityId := "second" }

/-- The tablet pulls and acknowledges. -/
def tabletReads : List (Action String) :=
  [.pull (some "meera") (some "meera") "tablet" 25, .ack (some "meera") (some "meera") "tablet"]

theorem meeraSystem_initial : meeraSystem.Initial where
  changeLog := rfl
  openCalls := rfl
  syncCursors := rfl
  nextServerSeq := Int.one_pos
  inboxes := rfl

/-- The second call commits first, and the tablet reads in between. -/
def lateCommit : List (Action String) :=
  [.call (nickname "phone" "Travel" 10), .call secondName, .commit 2] ++ tabletReads ++ [.commit 1]

/-- The change that commits late is never given to the tablet. -/
theorem not_never_skips : meeraSystem.Initial ∧
    ¬ (meeraSystem.run textColumns allAdmitted lateCommit).NeverSkips := by
  refine ⟨meeraSystem_initial, fun h => ?_⟩
  set s := meeraSystem.run textColumns allAdmitted lateCommit
  have hpassed := h.passed "tablet" "meera" (by decide +kernel)
  obtain ⟨l, hl, hone⟩ : ∃ l ∈ s.server.changesFor "meera" "tablet", l.serverSeq = 1 :=
    List.mem_map.mp (by decide +kernel)
  have hcursor : (1 : ℤ) ≤ s.server.cursorOf "tablet" := by decide +kernel
  have hreceived : (1 : ℤ) ∈ (s.inboxes "tablet").received.map Logged.serverSeq :=
    List.mem_map.mpr ⟨l, hpassed l hl (hone.trans_le hcursor), hone⟩
  exact absurd hreceived (by decide +kernel)

/-- The tablet is given both changes when they commit before it reads. -/
theorem never_skips_meera : (meeraSystem.run textColumns allAdmitted
    ([.call (nickname "phone" "Travel" 10), .call secondName, .commit 2, .commit 1] ++
      tabletReads)).NeverSkips := by
  refine System.never_skips meeraSystem_initial ⟨trivial, trivial, trivial, trivial, ?_, trivial,
    trivial⟩
  have hempty : (meeraSystem.run textColumns allAdmitted
      [.call (nickname "phone" "Travel" 10), .call secondName, .commit 2,
        .commit 1]).server.openCalls = [] := by
    rw [← List.isEmpty_iff]
    decide +kernel
  intro o ho
  change o ∈ (meeraSystem.run textColumns allAdmitted [.call (nickname "phone" "Travel" 10),
    .call secondName, .commit 2, .commit 1]).server.openCalls at ho
  rw [hempty] at ho
  exact absurd ho List.not_mem_nil

end Cards

end PandaPay.Sync
