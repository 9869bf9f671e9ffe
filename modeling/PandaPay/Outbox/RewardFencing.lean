import PandaPay.Outbox.Rewards
import PandaPay.Outbox.NotificationFencing

/-!
# Fencing of the outbox of reward events

Every function rewrites some rows together with their open attempts, and a claim then opens one
attempt for each row it has leased. So a row is leased exactly while it has an open attempt, which
carries the token of the lease.

## Main definitions

* `Row.Advances`, `Attempt.Advances`: how rows and attempts may change
* `Db.Rewrites`, `Db.Opens`: the two parts of a step
* `Db.Tracked todo`: leases and open attempts match, but for the rows `todo`
* `Db.Fenced`, `Db.FencedStep`: what fencing says of a state and of a step

## Main results

* `Db.apply_step`: every call keeps `Tracked`, and rows and attempts advance
* `Db.run_tracked`: leases and open attempts match after every run
* `Db.finalize_of_ne`: a call with another token than the current one changes nothing
* `Db.Tracked.fenced`, `Db.Tracked.fencedStep`: states and steps are fenced
* `outboxes_fenced`: every reachable state of either outbox and every step from it is fenced
-/

namespace PandaPay.Outbox.Rewards

/-- The part of a row that fencing is about. -/
def Row.job (row : Row) : Job Lease Completion := ⟨row.phase, row.attempts⟩

/-- A row makes steps of a job, and a row that is over stays as it is. -/
abbrev Row.Advances (row row' : Row) : Prop := Job.Follows attemptLimit Row.job row row'

/-- An attempt stays as it is or is closed. -/
def Attempt.Advances (a a' : Attempt) : Prop :=
  a' = a ∨ a.isLeased = true ∧ a'.isLeased = false ∧ a'.outboxId = a.outboxId ∧
    a'.attemptNumber = a.attemptNumber ∧ a'.leaseToken = a.leaseToken ∧ a'.workerId = a.workerId ∧
    a'.claimedAt = a.claimedAt

/-- The token a row is leased under. -/
def Db.token? (db : Db) (id : Uuid) : Option Uuid :=
  ((db.outbox.get? id).bind (·.phase.lease?)).map Lease.token

namespace Attempt

variable {a a' a'' : Attempt}

theorem Advances.trans (h : a.Advances a') (h' : a'.Advances a'') : a.Advances a'' := by
  rcases h' with rfl | ⟨hopen, h'⟩
  · exact h
  · rcases h with rfl | ⟨-, hclosed, -⟩
    · exact .inr ⟨hopen, h'⟩
    · rw [hclosed] at hopen
      cases hopen

theorem Advances.leaseToken_eq (h : a.Advances a') : a'.leaseToken = a.leaseToken := by
  rcases h with rfl | ⟨-, -, -, -, htoken, -⟩
  · rfl
  · exact htoken

/-- A closed attempt stays as it is. -/
theorem Advances.eq_of_closed (h : a.Advances a') (hclosed : a.isLeased = false) : a' = a := by
  rcases h with rfl | ⟨hopen, -⟩
  · rfl
  · rw [hclosed] at hopen
    cases hopen

theorem close_advances (closing : Closing) (now : Timestamp) (errorCode : Option String)
    (h : a.isLeased = true) : a.Advances (a.close closing now errorCode) :=
  .inr ⟨h, rfl, rfl, rfl, rfl, rfl, rfl⟩

end Attempt

namespace Db

/-! ### Rewriting rows with their attempts -/

/-- The rows `ids` are rewritten by `f`, and the open attempts that satisfy `p` by `g`. -/
def rewrite (db : Db) (ids : List Uuid) (f : Uuid → Row → Row) (p : Attempt → Bool)
    (g : Attempt → Attempt) : Db where
  outbox := db.outbox.mapValues fun id row => if id ∈ ids then f id row else row
  attempts := db.attempts.mapValues fun _ a => if p a && a.isLeased then g a else a

theorem expireRows_eq (db : Db) (now : Timestamp) :
    db.expireRows now = db.rewrite (db.idsWhere (·.isExpiring now)) (fun _ => Row.expire now)
      (fun a => a.outboxId ∈ db.idsWhere (·.isExpiring now))
      (·.close .expired now (some "event_expired")) := rfl

theorem exhaustRows_eq (db : Db) (now : Timestamp) :
    db.exhaustRows now = db.rewrite (db.idsWhere (·.isExhausted now)) (fun _ => Row.exhaust now)
      (fun a => a.outboxId ∈ db.idsWhere (·.isExhausted now))
      (fun a => a.close .dead now (some (a.errorCode.getD "attempt_limit"))) := rfl

theorem leaseRows_eq (db : Db) (now : Timestamp) (ids : List Uuid) (lease : Uuid → Lease) :
    db.leaseRows now ids lease = db.rewrite ids (fun id => Row.claim now (lease id))
      (fun a => a.outboxId ∈ ids) (·.close .retry now (some "lease_expired")) := rfl

theorem settle_eq (db : Db) (id token : Uuid) (f : Row → Row) (g : Attempt → Attempt) :
    db.settle id token f g = db.rewrite [id] (fun _ => f)
      (fun a => a.outboxId = id && a.leaseToken = token) g := rfl

/-- Rows and attempts advance, and no attempt is opened. -/
structure Rewrites (db db' : Db) : Prop where
  rows : ∀ id row, db.outbox.get? id = some row →
    ∃ row', db'.outbox.get? id = some row' ∧ row.Advances row'
  attempts : ∀ k a, db.attempts.get? k = some a →
    ∃ a', db'.attempts.get? k = some a' ∧ a.Advances a'
  fresh : ∀ k, db.attempts.get? k = none → db'.attempts.get? k = none

/-- Attempts are opened, and nothing else. -/
structure Opens (db db' : Db) : Prop where
  outbox : db'.outbox = db.outbox
  attempts : ∀ k a, db.attempts.get? k = some a → db'.attempts.get? k = some a
  fresh : ∀ k a, db'.attempts.get? k = some a → db.attempts.get? k = none → a.isLeased = true

/-- Leases and open attempts match, but for the rows `todo`, which have no open attempt yet. -/
structure Tracked (todo : List Uuid) (db : Db) : Prop where
  /-- The row of an open attempt is leased under the token of the attempt. -/
  opened : ∀ k a, db.attempts.get? k = some a → a.isLeased = true → a.outboxId ∉ todo ∧
    ∃ row lease, db.outbox.get? a.outboxId = some row ∧ row.phase.lease? = some lease ∧
      lease.token = a.leaseToken ∧ row.attempts = a.attemptNumber
  /-- A leased row has an open attempt. -/
  held : ∀ id row lease, db.outbox.get? id = some row → row.phase.lease? = some lease → id ∉ todo →
    ∃ k a, db.attempts.get? k = some a ∧ a.isLeased = true ∧ a.outboxId = id
  /-- No two attempts have one token. -/
  tokens : ∀ j k a b, db.attempts.get? j = some a → db.attempts.get? k = some b →
    a.leaseToken = b.leaseToken → j = k
  limit : ∀ id row, db.outbox.get? id = some row → row.attempts ≤ attemptLimit

theorem Rewrites.refl (db : Db) : db.Rewrites db where
  rows _ row h := ⟨row, h, .refl row⟩
  attempts _ a h := ⟨a, h, .inl rfl⟩
  fresh _ h := h

theorem Rewrites.trans {db db' db'' : Db} (h : db.Rewrites db') (h' : db'.Rewrites db'') :
    db.Rewrites db'' where
  rows id row hrow := by
    obtain ⟨row', hrow', hadvances⟩ := h.rows id row hrow
    obtain ⟨row'', hrow'', hadvances'⟩ := h'.rows id row' hrow'
    exact ⟨row'', hrow'', hadvances.trans hadvances'⟩
  attempts k a ha := by
    obtain ⟨a', ha', hadvances⟩ := h.attempts k a ha
    obtain ⟨a'', ha'', hadvances'⟩ := h'.attempts k a' ha'
    exact ⟨a'', ha'', hadvances.trans hadvances'⟩
  fresh k hk := h'.fresh k (h.fresh k hk)

section Rewrite

variable {db : Db} {ids todo : List Uuid} {f : Uuid → Row → Row} {p : Attempt → Bool}
  {g : Attempt → Attempt}

theorem get?_rewrite_outbox (id : Uuid) : (db.rewrite ids f p g).outbox.get? id =
    (db.outbox.get? id).map fun row => if id ∈ ids then f id row else row :=
  InsertionMap.get?_mapValues db.outbox _ id

theorem get?_rewrite_attempts (k : Uuid) : (db.rewrite ids f p g).attempts.get? k =
    (db.attempts.get? k).map fun a => if p a && a.isLeased then g a else a :=
  InsertionMap.get?_mapValues db.attempts _ k

theorem rewrite_rewrites (hf : ∀ id ∈ ids, ∀ row, db.outbox.get? id = some row →
    row.Advances (f id row)) (hg : ∀ a : Attempt, a.isLeased = true → a.Advances (g a)) :
    db.Rewrites (db.rewrite ids f p g) where
  rows id row hrow := by
    refine ⟨_, by rw [get?_rewrite_outbox, hrow, Option.map_some], ?_⟩
    split
    · rename_i hid
      exact hf id hid row hrow
    · exact .refl row
  attempts k a ha := by
    refine ⟨_, by rw [get?_rewrite_attempts, ha, Option.map_some], ?_⟩
    split
    · rename_i h
      exact hg a (Bool.and_eq_true_iff.mp h).2
    · exact .inl rfl
  fresh k hk := by rw [get?_rewrite_attempts, hk, Option.map_none]

/-- Leases and open attempts still match when the rewritten rows lose their lease, or are to get an
attempt, and exactly their open attempts are closed. -/
theorem Tracked.rewrite (h : db.Tracked []) (htodo : ∀ id ∈ todo, id ∈ ids)
    (hf : ∀ id ∈ ids, ∀ row, db.outbox.get? id = some row →
      ((f id row).phase.lease? = none ∨ id ∈ todo) ∧ (f id row).attempts ≤ attemptLimit)
    (hp : ∀ k a, db.attempts.get? k = some a → a.isLeased = true → (p a = true ↔ a.outboxId ∈ ids))
    (hg : ∀ a, a.isLeased = true → (g a).isLeased = false ∧ (g a).leaseToken = a.leaseToken) :
    (db.rewrite ids f p g).Tracked todo where
  opened k a' ha' hopen := by
    rw [get?_rewrite_attempts, Option.map_eq_some_iff] at ha'
    obtain ⟨a, ha, rfl⟩ := ha'
    split at hopen
    · rename_i hclosed
      rw [(hg a (Bool.and_eq_true_iff.mp hclosed).2).1] at hopen
      cases hopen
    · rename_i hkept
      rw [if_neg hkept]
      rw [hopen, Bool.and_true, hp k a ha hopen] at hkept
      obtain ⟨-, row, lease, hrow, hlease, htoken, hnumber⟩ := h.opened k a ha hopen
      refine ⟨fun hmem => hkept (htodo _ hmem), row, lease, ?_, hlease, htoken, hnumber⟩
      rw [get?_rewrite_outbox, hrow, Option.map_some, if_neg hkept]
  held id row' lease hrow' hlease hid := by
    rw [get?_rewrite_outbox, Option.map_eq_some_iff] at hrow'
    obtain ⟨row, hrow, rfl⟩ := hrow'
    split at hlease
    · rename_i hmem
      rcases (hf id hmem row hrow).1 with hnone | htodo
      · rw [hnone] at hlease
        cases hlease
      · exact absurd htodo hid
    · rename_i hmem
      obtain ⟨k, a, ha, hopen, rfl⟩ := h.held id row lease hrow hlease List.not_mem_nil
      refine ⟨k, a, ?_, hopen, rfl⟩
      rw [get?_rewrite_attempts, ha, Option.map_some, if_neg]
      rwa [hopen, Bool.and_true, hp k a ha hopen]
  tokens j k a' b' ha' hb' htoken := by
    rw [get?_rewrite_attempts, Option.map_eq_some_iff] at ha' hb'
    obtain ⟨a, ha, rfl⟩ := ha'
    obtain ⟨b, hb, rfl⟩ := hb'
    have hkeep : ∀ c : Attempt,
        (if (p c && c.isLeased) = true then g c else c).leaseToken = c.leaseToken := by
      intro c
      split
      · rename_i hc
        exact (hg c (Bool.and_eq_true_iff.mp hc).2).2
      · rfl
    rw [hkeep, hkeep] at htoken
    exact h.tokens j k a b ha hb htoken
  limit id row' hrow' := by
    rw [get?_rewrite_outbox, Option.map_eq_some_iff] at hrow'
    obtain ⟨row, hrow, rfl⟩ := hrow'
    split
    · rename_i hmem
      exact (hf id hmem row hrow).2
    · exact h.limit id row hrow

end Rewrite

/-! ### Expiry -/

theorem mem_idsWhere {db : Db} {p : Row → Bool} {id : Uuid} :
    id ∈ db.idsWhere p ↔ ∃ row, db.outbox.get? id = some row ∧ p row = true := by
  rw [idsWhere]
  exact InsertionMap.mem_map_filter_entries

theorem of_mem_idsWhere {db : Db} {p : Row → Bool} {id : Uuid} {row : Row}
    (h : id ∈ db.idsWhere p) (hrow : db.outbox.get? id = some row) : p row = true := by
  obtain ⟨row', hrow', hp⟩ := mem_idsWhere.mp h
  rw [hrow] at hrow'
  cases hrow'
  exact hp

section Ending

variable {db : Db} {p : Row → Bool} {f : Row → Row} {g : Attempt → Attempt}

/-- The rows that satisfy a condition are ended, with their attempts. -/
theorem rewrite_idsWhere_rewrites
    (hf : ∀ row, p row = true → Job.Move attemptLimit row.job (f row).job)
    (hg : ∀ a : Attempt, a.isLeased = true → a.Advances (g a)) :
    db.Rewrites (db.rewrite (db.idsWhere p) (fun _ => f) (fun a => a.outboxId ∈ db.idsWhere p) g) :=
  rewrite_rewrites (fun _ hid _ hrow => .of_move (hf _ (of_mem_idsWhere hid hrow))) hg

theorem Tracked.rewrite_idsWhere (h : db.Tracked [])
    (hf : ∀ row, p row = true → (f row).phase.lease? = none ∧ (f row).attempts = row.attempts)
    (hg : ∀ a, a.isLeased = true → (g a).isLeased = false ∧ (g a).leaseToken = a.leaseToken) :
    (db.rewrite (db.idsWhere p) (fun _ => f) (fun a => a.outboxId ∈ db.idsWhere p) g).Tracked [] := by
  refine h.rewrite (fun _ hmem => absurd hmem List.not_mem_nil) ?_ (fun _ _ _ _ => decide_eq_true_iff)
    hg
  intro id hid row hrow
  obtain ⟨hlease, hattempts⟩ := hf row (of_mem_idsWhere hid hrow)
  rw [hattempts]
  exact ⟨.inl hlease, h.limit id row hrow⟩

end Ending

theorem isOver_of_isExpiring {now : Timestamp} {row : Row} (h : row.isExpiring now = true) :
    row.phase.isOver = false := by
  simp only [Row.isExpiring, Bool.and_eq_true, Bool.not_eq_true'] at h
  exact h.1.1

theorem isOver_of_isExhausted {now : Timestamp} {row : Row} (h : row.isExhausted now = true) :
    row.phase.isOver = false := by
  simp only [Row.isExhausted, Bool.and_eq_true, Bool.not_eq_true'] at h
  exact h.1.1.1

theorem expireRows_rewrites (db : Db) (now : Timestamp) : db.Rewrites (db.expireRows now) := by
  rw [expireRows_eq]
  refine rewrite_idsWhere_rewrites ?_ fun a ha => a.close_advances _ _ _ ha
  intro row hrow
  exact .finish _ (isOver_of_isExpiring hrow)

theorem exhaustRows_rewrites (db : Db) (now : Timestamp) : db.Rewrites (db.exhaustRows now) := by
  rw [exhaustRows_eq]
  refine rewrite_idsWhere_rewrites ?_ fun a ha => a.close_advances _ _ _ ha
  intro row hrow
  exact .finish _ (isOver_of_isExhausted hrow)

theorem Tracked.expireRows {db : Db} (h : db.Tracked []) (now : Timestamp) :
    (db.expireRows now).Tracked [] := by
  rw [expireRows_eq]
  exact h.rewrite_idsWhere (fun _ _ => ⟨rfl, rfl⟩) fun _ _ => ⟨rfl, rfl⟩

theorem Tracked.exhaustRows {db : Db} (h : db.Tracked []) (now : Timestamp) :
    (db.exhaustRows now).Tracked [] := by
  rw [exhaustRows_eq]
  exact h.rewrite_idsWhere (fun _ _ => ⟨rfl, rfl⟩) fun _ _ => ⟨rfl, rfl⟩

/-! ### Leases -/

theorem isOver_of_isCandidate {now : Timestamp} {row : Row} (h : row.isCandidate now = true) :
    row.phase.isOver = false ∧ row.attempts < attemptLimit := by
  simp only [Row.isCandidate, Bool.and_eq_true, decide_eq_true_eq] at h
  obtain ⟨⟨hphase, hattempts⟩, -⟩ := h
  refine ⟨?_, hattempts⟩
  cases hrow : row.phase with
  | waiting => rfl
  | held lease => rfl
  | ended completion =>
    rw [hrow] at hphase
    cases hphase

theorem of_mem_candidates {db : Db} {now : Timestamp} {limit : ℕ} {id : Uuid} {row : Row}
    (h : id ∈ db.candidates now limit) (hrow : db.outbox.get? id = some row) :
    row.isCandidate now = true := by
  obtain ⟨row', hrow', hcandidate⟩ := exists_of_mem_selectKeys h
  rw [hrow] at hrow'
  cases hrow'
  exact hcandidate

section Lease

variable {db : Db} {now : Timestamp} {limit : ℕ} {lease : Uuid → Lease}

theorem leaseRows_rewrites :
    db.Rewrites (db.leaseRows now (db.candidates now limit) lease) := by
  rw [leaseRows_eq]
  refine rewrite_rewrites ?_ fun a ha => a.close_advances _ _ _ ha
  intro id hid row hrow
  obtain ⟨hopen, hattempts⟩ := isOver_of_isCandidate (of_mem_candidates hid hrow)
  exact .of_move (.take (lease id) hopen hattempts)

/-- The rows that are leased have no open attempt yet. -/
theorem Tracked.leaseRows (h : db.Tracked []) :
    (db.leaseRows now (db.candidates now limit) lease).Tracked (db.candidates now limit) := by
  rw [leaseRows_eq]
  refine h.rewrite (fun _ hid => hid) ?_ (fun _ _ _ _ => decide_eq_true_iff) fun _ _ => ⟨rfl, rfl⟩
  intro id hid row hrow
  exact ⟨.inr hid, (isOver_of_isCandidate (of_mem_candidates hid hrow)).2⟩

/-- The rows that are leased are so under the leases drawn for them. -/
theorem lease?_leaseRows {ids : List Uuid} {id : Uuid} {row : Row} (hid : id ∈ ids)
    (hrow : (db.leaseRows now ids lease).outbox.get? id = some row) :
    row.phase.lease? = some (lease id) := by
  rw [leaseRows_eq, get?_rewrite_outbox, Option.map_eq_some_iff] at hrow
  obtain ⟨old, -, rfl⟩ := hrow
  rw [if_pos hid]
  rfl

end Lease

/-! ### Attempts -/

theorem insertAttempt_eq_ok {db db' : Db} {id : Uuid} {a : Attempt}
    (h : db.insertAttempt id a = .ok db') :
    db.attempts.get? id = none ∧ (∀ k b, db.attempts.get? k = some b → b.leaseToken ≠ a.leaseToken) ∧
      db' = { db with attempts := db.attempts.set id a } := by
  unfold insertAttempt at h
  rw [failIf_bind_eq_ok, failIf_bind_eq_ok, failIf_bind_eq_ok, pure_eq_ok, Except.ok.injEq] at h
  obtain ⟨hid, htoken, -, hdb⟩ := h
  refine ⟨InsertionMap.get?_eq_none_iff.mpr hid, ?_, hdb.symm⟩
  intro k b hb heq
  refine htoken (List.any_eq_true.mpr ⟨b, InsertionMap.mem_values_iff.mpr ⟨k, hb⟩, ?_⟩)
  exact decide_eq_true heq

theorem Opens.refl (db : Db) : db.Opens db where
  outbox := rfl
  attempts _ _ h := h
  fresh k a h hnone := by
    rw [hnone] at h
    cases h

theorem Opens.trans {db db' db'' : Db} (h : db.Opens db') (h' : db'.Opens db'') :
    db.Opens db'' where
  outbox := h'.outbox.trans h.outbox
  attempts k a ha := h'.attempts k a (h.attempts k a ha)
  fresh k a ha hnone := by
    cases hmid : db'.attempts.get? k with
    | none => exact h'.fresh k a ha hmid
    | some b =>
      rw [h'.attempts k b hmid] at ha
      cases ha
      exact h.fresh k _ hmid hnone

section Open

variable {now : Timestamp} {worker : String} {attemptId : Uuid → Uuid} {lease : Uuid → Lease}
  {db db' : Db} {id : Uuid} {todo : List Uuid}

theorem openAttempt_opens (h : openAttempt now worker attemptId lease db id = .ok db') :
    db.Opens db' := by
  unfold openAttempt at h
  split at h
  · cases h
    exact .refl db
  · obtain ⟨hnone, -, rfl⟩ := insertAttempt_eq_ok h
    refine ⟨rfl, ?_, ?_⟩
    · intro k a ha
      have hk : k ≠ attemptId id := by
        rintro rfl
        rw [hnone] at ha
        cases ha
      rw [InsertionMap.get?_set_of_ne _ _ hk]
      exact ha
    · intro k a ha hk
      rw [InsertionMap.get?_set] at ha
      split at ha
      · cases ha
        rfl
      · rw [hk] at ha
        cases ha

/-- A row without an open attempt gets one. -/
theorem Tracked.openAttempt (h : db.Tracked (id :: todo)) (hid : id ∉ todo)
    (hlease : ∀ row, db.outbox.get? id = some row → row.phase.lease? = some (lease id))
    (hok : openAttempt now worker attemptId lease db id = .ok db') : db'.Tracked todo := by
  unfold Db.openAttempt at hok
  split at hok
  · rename_i hnone
    cases hok
    refine ⟨?_, ?_, h.tokens, h.limit⟩
    · intro k a ha hopen
      obtain ⟨hmem, hrow⟩ := h.opened k a ha hopen
      exact ⟨fun htodo => hmem (List.mem_cons_of_mem _ htodo), hrow⟩
    · intro j row l hrow hl hj
      refine h.held j row l hrow hl (List.not_mem_cons_of_ne_of_not_mem ?_ hj)
      rintro rfl
      rw [hnone] at hrow
      cases hrow
  · rename_i row hrow
    obtain ⟨hnone, hfresh, rfl⟩ := insertAttempt_eq_ok hok
    have hset : ∀ k a, db.attempts.get? k = some a → k ≠ attemptId id := by
      rintro k a ha rfl
      rw [hnone] at ha
      cases ha
    refine ⟨?_, ?_, ?_, h.limit⟩
    · refine InsertionMap.forall_get?_set ?_ ?_
      · intro k a ha hopen
        obtain ⟨hmem, hrow⟩ := h.opened k a ha hopen
        exact ⟨fun htodo => hmem (List.mem_cons_of_mem _ htodo), hrow⟩
      · exact fun _ => ⟨hid, row, lease id, hrow, hlease row hrow, rfl, rfl⟩
    · intro j row' l hrow' hl hj
      by_cases hjid : j = id
      · exact ⟨attemptId id, _, InsertionMap.get?_set_self _ _ _, rfl, hjid.symm⟩
      · obtain ⟨k, a, ha, hopen, houtbox⟩ :=
          h.held j row' l hrow' hl (List.not_mem_cons_of_ne_of_not_mem hjid hj)
        refine ⟨k, a, ?_, hopen, houtbox⟩
        exact (InsertionMap.get?_set_of_ne _ _ (hset k a ha)).trans ha
    · intro j k a b ha hb htoken
      rw [InsertionMap.get?_set] at ha hb
      split at ha <;> split at hb
      · rename_i hj hk
        exact hj.trans hk.symm
      · cases ha
        exact absurd htoken.symm (hfresh k b hb)
      · cases hb
        exact absurd htoken (hfresh j a ha)
      · exact h.tokens j k a b ha hb htoken

/-- The rows that were leased all get their attempts. -/
theorem Tracked.openAttempts {ids : List Uuid} (h : db.Tracked ids) (hnodup : ids.Nodup)
    (hlease : ∀ id ∈ ids, ∀ row, db.outbox.get? id = some row → row.phase.lease? = some (lease id))
    (hok : ids.foldlM (Db.openAttempt now worker attemptId lease) db = .ok db') :
    db'.Tracked [] ∧ db.Opens db' := by
  induction ids generalizing db with
  | nil =>
    rw [List.foldlM_nil, pure_eq_ok, Except.ok.injEq] at hok
    rw [← hok]
    exact ⟨h, .refl db⟩
  | cons id ids ih =>
    rw [List.foldlM_cons, bind_eq_ok] at hok
    obtain ⟨mid, hmid, hok⟩ := hok
    obtain ⟨hid, hnodup⟩ := List.nodup_cons.mp hnodup
    have hopens : db.Opens mid := openAttempt_opens hmid
    obtain ⟨htracked, hrest⟩ := ih
      (h.openAttempt hid (hlease id List.mem_cons_self) hmid) hnodup
      (fun j hj row hrow => hlease j (List.mem_cons_of_mem _ hj) row (by rwa [← hopens.outbox])) hok
    exact ⟨htracked, hopens.trans hrest⟩

end Open

/-! ### Every call -/

/-- What a call does: it rewrites rows, and a claim then opens attempts. -/
def Advances (db : Db) (c : Call) (db' : Db) : Prop :=
  ∃ mid, db.Rewrites mid ∧ mid.Opens db' ∧ (db' = mid ∨ ∃ cl, c = .claim cl)

theorem enqueue_eq_ok {db db' : Db} {c : EnqueueCall} (h : db.enqueue c = .ok db') :
    db' = db ∨ db.outbox.get? c.id = none ∧ db' = { db with outbox := db.outbox.set c.id c.row } := by
  unfold enqueue at h
  split at h
  · cases h
    exact .inl rfl
  · rw [failIf_bind_eq_ok, pure_eq_ok, Except.ok.injEq] at h
    exact .inr ⟨InsertionMap.get?_eq_none_iff.mpr h.1, h.2.symm⟩

theorem enqueue_step {db db' : Db} {c : EnqueueCall} (h : db.Tracked [])
    (hok : db.enqueue c = .ok db') : db'.Tracked [] ∧ db.Rewrites db' := by
  rcases enqueue_eq_ok hok with rfl | ⟨hnone, rfl⟩
  · exact ⟨h, .refl _⟩
  have hset : ∀ id row, db.outbox.get? id = some row →
      (db.outbox.set c.id c.row).get? id = some row := by
    intro id row hrow
    have hid : id ≠ c.id := by
      rintro rfl
      rw [hnone] at hrow
      cases hrow
    rw [InsertionMap.get?_set_of_ne _ _ hid]
    exact hrow
  constructor
  · refine ⟨?_, ?_, h.tokens, InsertionMap.forall_get?_set h.limit (Nat.zero_le _)⟩
    · intro k a ha hopen
      obtain ⟨hmem, row, lease, hrow, hrest⟩ := h.opened k a ha hopen
      exact ⟨hmem, row, lease, hset _ row hrow, hrest⟩
    · intro id row lease hrow
      rw [InsertionMap.get?_set] at hrow
      split at hrow
      · cases hrow
        intro hlease
        cases hlease
      · exact h.held id row lease hrow
  · exact ⟨fun id row hrow => ⟨row, hset id row hrow, .refl row⟩,
      fun k a ha => ⟨a, ha, .inl rfl⟩, fun _ hk => hk⟩

theorem claim_step {db : Db} {c : ClaimCall} {result : Db × List ClaimedEvent} (h : db.Tracked [])
    (hok : db.claim c = .ok result) :
    result.1.Tracked [] ∧ ∃ mid, db.Rewrites mid ∧ mid.Opens result.1 := by
  unfold claim at hok
  split at hok
  · rw [failIf_bind_eq_ok] at hok
    obtain ⟨-, hok⟩ := hok
    unfold claimRows at hok
    dsimp only at hok
    rw [bind_eq_ok] at hok
    obtain ⟨db', hfold, hok⟩ := hok
    cases hok
    have htracked := (h.expireRows c.now).exhaustRows c.now
    obtain ⟨hfinal, hopens⟩ := htracked.leaseRows.openAttempts nodup_selectKeys
      (fun id hid row hrow => lease?_leaseRows hid hrow) hfold
    refine ⟨hfinal, _, ?_, hopens⟩
    exact ((expireRows_rewrites db c.now).trans (exhaustRows_rewrites _ c.now)).trans
      leaseRows_rewrites
  · cases hok

theorem leasedRow_eq_some {db : Db} {id token : Uuid} {row : Row}
    (h : db.leasedRow id token = some row) :
    ∃ lease, db.outbox.get? id = some row ∧ row.phase.lease? = some lease ∧ lease.token = token := by
  rw [leasedRow, Option.filter_eq_some_iff, Option.any_eq_true] at h
  obtain ⟨hrow, lease, hlease, htoken⟩ := h
  exact ⟨lease, hrow, hlease, of_decide_eq_true htoken⟩

theorem isOver_of_lease? {row : Row} {lease : Lease} (h : row.phase.lease? = some lease) :
    row.phase.isOver = false := by
  cases hover : row.phase.isOver with
  | false => rfl
  | true =>
    rw [Phase.lease?_eq_none_of_isOver hover] at h
    cases h

section Settle

variable {db : Db} {id token : Uuid} {row : Row} {f : Row → Row} {g : Attempt → Attempt}

/-- The row under the token loses its lease, and its attempt is closed. -/
theorem settle_step (h : db.Tracked []) (hrow : db.leasedRow id token = some row)
    (hf : Job.Move attemptLimit row.job (f row).job) (hlease : (f row).phase.lease? = none)
    (hattempts : (f row).attempts = row.attempts)
    (hg : ∀ a : Attempt, a.isLeased = true → a.Advances (g a) ∧ (g a).isLeased = false) :
    (db.settle id token f g).Tracked [] ∧ db.Rewrites (db.settle id token f g) := by
  obtain ⟨lease, hget, hl, htoken⟩ := leasedRow_eq_some hrow
  rw [settle_eq]
  constructor
  · refine h.rewrite (fun _ hmem => absurd hmem List.not_mem_nil) ?_ ?_ ?_
    · intro j hj row' hrow'
      rw [List.mem_singleton.mp hj, hget] at hrow'
      cases hrow'
      rw [hattempts]
      exact ⟨.inl hlease, h.limit id row hget⟩
    · intro k a ha hopen
      obtain ⟨-, row', lease', hrow', hl', htoken', -⟩ := h.opened k a ha hopen
      rw [Bool.and_eq_true, decide_eq_true_iff, decide_eq_true_iff, List.mem_singleton]
      constructor
      · exact fun hboth => hboth.1
      · intro houtbox
        -- the open attempts of the row carry the token of its lease
        rw [houtbox, hget] at hrow'
        cases hrow'
        rw [hl] at hl'
        cases hl'
        exact ⟨houtbox, htoken'.symm.trans htoken⟩
    · exact fun a ha => ⟨(hg a ha).2, (hg a ha).1.leaseToken_eq⟩
  · refine rewrite_rewrites ?_ fun a ha => (hg a ha).1
    intro j hj row' hrow'
    rw [List.mem_singleton.mp hj, hget] at hrow'
    cases hrow'
    exact .of_move hf

end Settle

theorem finalizeRow_step {db : Db} {c : FinalizeCall} {id token : Uuid} {succeeded : Bool} {row : Row}
    (h : db.Tracked []) (hrow : db.leasedRow id token = some row) :
    (db.finalizeRow c id token succeeded row).1.Tracked [] ∧
      db.Rewrites (db.finalizeRow c id token succeeded row).1 := by
  obtain ⟨lease, -, hlease, -⟩ := leasedRow_eq_some hrow
  have hopen := isOver_of_lease? hlease
  unfold finalizeRow
  split
  · refine settle_step h hrow (.finish _ hopen) rfl rfl fun a ha => ⟨.inr ?_, rfl⟩
    exact ⟨ha, rfl, rfl, rfl, rfl, rfl, rfl⟩
  · dsimp only
    split
    · exact settle_step h hrow (.finish _ hopen) rfl rfl
        fun a ha => ⟨a.close_advances _ _ _ ha, rfl⟩
    · exact settle_step h hrow (.release hopen) rfl rfl
        fun a ha => ⟨a.close_advances _ _ _ ha, rfl⟩

theorem finalize_step {db : Db} {c : FinalizeCall} {result : Db × Answer} (h : db.Tracked [])
    (hok : db.finalize c = .ok result) : result.1.Tracked [] ∧ db.Rewrites result.1 := by
  unfold finalize at hok
  split at hok
  · rw [failIf_bind_eq_ok] at hok
    obtain ⟨-, hok⟩ := hok
    split at hok
    · cases hok
      exact ⟨h, .refl db⟩
    · rename_i row hrow
      cases hok
      exact finalizeRow_step h hrow
  · cases hok

theorem token?_of_leasedRow {db : Db} {id token : Uuid} {row : Row}
    (h : db.leasedRow id token = some row) : db.token? id = some token := by
  obtain ⟨lease, hrow, hlease, rfl⟩ := leasedRow_eq_some h
  rw [token?, hrow, Option.bind_some, hlease, Option.map_some]

/-- A call with another token than the current one changes nothing. -/
theorem finalize_of_ne {db : Db} {c : FinalizeCall} {result : Db × Answer}
    (h : c.eventId.bind db.token? ≠ c.leaseToken) (hok : db.finalize c = .ok result) :
    result = (db, .leaseLost) := by
  unfold finalize at hok
  split at hok
  · rename_i id token succeeded hid htoken _
    rw [failIf_bind_eq_ok] at hok
    obtain ⟨-, hok⟩ := hok
    split at hok
    · cases hok
      rfl
    · rename_i row hrow
      refine absurd ?_ h
      rw [hid, htoken, Option.bind_some]
      exact token?_of_leasedRow hrow
  · cases hok

theorem call_step {db db' : Db} {c : Call} (h : db.Tracked []) (hok : db.call c = .ok db') :
    db'.Tracked [] ∧ db.Advances c db' := by
  cases c with
  | enqueue c =>
    obtain ⟨htracked, hrewrites⟩ := enqueue_step h hok
    exact ⟨htracked, db', hrewrites, .refl db', .inl rfl⟩
  | claim c =>
    unfold call at hok
    dsimp only at hok
    cases hresult : db.claim c with
    | error e =>
      rw [hresult] at hok
      cases hok
    | ok result =>
      rw [hresult] at hok
      cases hok
      obtain ⟨htracked, mid, hrewrites, hopens⟩ := claim_step h hresult
      exact ⟨htracked, mid, hrewrites, hopens, .inr ⟨c, rfl⟩⟩
  | finalize c =>
    unfold call at hok
    dsimp only at hok
    cases hresult : db.finalize c with
    | error e =>
      rw [hresult] at hok
      cases hok
    | ok result =>
      rw [hresult] at hok
      cases hok
      obtain ⟨htracked, hrewrites⟩ := finalize_step h hresult
      exact ⟨htracked, _, hrewrites, .refl _, .inl rfl⟩

theorem apply_step {db : Db} (c : Call) (h : db.Tracked []) :
    (db.apply c).Tracked [] ∧ db.Advances c (db.apply c) := by
  unfold apply
  split
  · rename_i db' hok
    exact call_step h hok
  · exact ⟨h, db, .refl db, .refl db, .inl rfl⟩

theorem initial_tracked : initial.Tracked [] where
  opened _ _ h := by cases h
  held _ _ _ h := by cases h
  tokens _ _ _ _ h := by cases h
  limit _ _ h := by cases h

/-- Leases and open attempts match after every run. -/
theorem run_tracked (calls : List Call) : (initial.run calls).Tracked [] := by
  suffices h : ∀ db : Db, db.Tracked [] → (db.run calls).Tracked [] from h initial initial_tracked
  induction calls with
  | nil => exact fun db h => h
  | cons c calls ih => exact fun db h => ih (db.apply c) (apply_step c h).1

/-! ### Fencing -/

/-- The token is that of the lease on the row, or of an open attempt for it. -/
def Live (db : Db) (id token : Uuid) : Prop :=
  db.token? id = some token ∨
    ∃ k a, db.attempts.get? k = some a ∧ a.isLeased = true ∧ a.outboxId = id ∧ a.leaseToken = token

/-- Every row has at most one live token and at most `attemptLimit` attempts, and an open attempt
exactly while it is leased. -/
structure Fenced (db : Db) : Prop where
  live : ∀ id token token', db.Live id token → db.Live id token' → token = token'
  limit : ∀ id row, db.outbox.get? id = some row → row.attempts ≤ attemptLimit
  open_iff : ∀ id row, db.outbox.get? id = some row → (row.phase.lease?.isSome = true ↔
    ∃ k a, db.attempts.get? k = some a ∧ a.isLeased = true ∧ a.outboxId = id)
  open_unique : ∀ j k a b, db.attempts.get? j = some a → db.attempts.get? k = some b →
    a.isLeased = true → b.isLeased = true → a.outboxId = b.outboxId → j = k

/-- What a step may do: a finalization under another token than the current one does nothing,
attempts are counted upwards, a row that is over stays as it is, only a claim opens attempts, and an
open attempt is closed exactly when its row leaves the lease, and not again. -/
structure FencedStep (db : Db) (c : Call) (db' : Db) : Prop where
  fence : ∀ f, c = .finalize f → f.eventId.bind db.token? ≠ f.leaseToken → db' = db
  rows : ∀ id row, db.outbox.get? id = some row → ∃ row', db'.outbox.get? id = some row' ∧
    row.attempts ≤ row'.attempts ∧ (row.phase.isOver = true → row' = row)
  opened : ∀ k a, db'.attempts.get? k = some a → db.attempts.get? k = none →
    (∃ cl, c = .claim cl) ∧ a.isLeased = true ∧ db.token? a.outboxId ≠ some a.leaseToken ∧
      db'.token? a.outboxId = some a.leaseToken
  kept : ∀ k a, db.attempts.get? k = some a → ∃ a', db'.attempts.get? k = some a' ∧
    (a.isLeased = false → a' = a) ∧
    (a.isLeased = true →
      a' = a ∧ db'.token? a.outboxId = some a.leaseToken ∨
      a'.isLeased = false ∧ db'.token? a.outboxId ≠ some a.leaseToken)

section Fencing

variable {db db' : Db} {c : Call} {k id token : Uuid} {a : Attempt}

theorem token?_eq_some : db.token? id = some token ↔
    ∃ row lease, db.outbox.get? id = some row ∧ row.phase.lease? = some lease ∧
      lease.token = token := by
  simp only [token?, Option.map_eq_some_iff, Option.bind_eq_some_iff]
  constructor
  · rintro ⟨lease, ⟨row, hrow, hlease⟩, htoken⟩
    exact ⟨row, lease, hrow, hlease, htoken⟩
  · rintro ⟨row, lease, hrow, hlease, htoken⟩
    exact ⟨lease, ⟨row, hrow, hlease⟩, htoken⟩

/-- An open attempt carries the token of its row. -/
theorem Tracked.token?_of_open (h : db.Tracked []) (ha : db.attempts.get? k = some a)
    (hopen : a.isLeased = true) : db.token? a.outboxId = some a.leaseToken := by
  obtain ⟨-, row, lease, hrow, hlease, htoken, -⟩ := h.opened k a ha hopen
  exact token?_eq_some.mpr ⟨row, lease, hrow, hlease, htoken⟩

/-- The token of a row is that of an open attempt. -/
theorem Tracked.exists_of_token? (h : db.Tracked []) (htoken : db.token? id = some token) :
    ∃ k a, db.attempts.get? k = some a ∧ a.isLeased = true ∧ a.leaseToken = token := by
  obtain ⟨row, lease, hrow, hlease, -⟩ := token?_eq_some.mp htoken
  obtain ⟨k, a, ha, hopen, rfl⟩ := h.held id row lease hrow hlease List.not_mem_nil
  rw [h.token?_of_open ha hopen, Option.some.injEq] at htoken
  exact ⟨k, a, ha, hopen, htoken⟩

/-- An attempt under the token of a row is open. -/
theorem Tracked.isLeased_of_token? (h : db.Tracked []) (ha : db.attempts.get? k = some a)
    (htoken : db.token? id = some a.leaseToken) : a.isLeased = true := by
  obtain ⟨j, b, hb, hopen, hbtoken⟩ := h.exists_of_token? htoken
  rw [h.tokens j k b a hb ha hbtoken, ha] at hb
  cases hb
  exact hopen

theorem Tracked.live_iff (h : db.Tracked []) : db.Live id token ↔ db.token? id = some token := by
  constructor
  · rintro (htoken | ⟨k, a, ha, hopen, rfl, rfl⟩)
    · exact htoken
    · exact h.token?_of_open ha hopen
  · exact .inl

theorem Tracked.fenced (h : db.Tracked []) : db.Fenced where
  live id token token' htoken htoken' := by
    rw [h.live_iff] at htoken htoken'
    rw [htoken] at htoken'
    exact Option.some.inj htoken'
  limit := h.limit
  open_iff id row hrow := by
    constructor
    · intro hsome
      obtain ⟨lease, hlease⟩ := Option.isSome_iff_exists.mp hsome
      exact h.held id row lease hrow hlease List.not_mem_nil
    · rintro ⟨k, a, ha, hopen, rfl⟩
      obtain ⟨-, row', lease, hrow', hlease, -⟩ := h.opened k a ha hopen
      rw [hrow] at hrow'
      cases hrow'
      exact Option.isSome_iff_exists.mpr ⟨lease, hlease⟩
  open_unique j k a b ha hb hopen hopen' hid := by
    have htoken := h.token?_of_open ha hopen
    rw [hid, h.token?_of_open hb hopen', Option.some.injEq] at htoken
    exact h.tokens j k a b ha hb htoken.symm

/-- What happens to an attempt in a step. -/
theorem Advances.attempt (h : db.Advances c db') (ha : db.attempts.get? k = some a) :
    ∃ a', db'.attempts.get? k = some a' ∧ a.Advances a' := by
  obtain ⟨mid, hrewrites, hopens, -⟩ := h
  obtain ⟨a', ha', hadvances⟩ := hrewrites.attempts k a ha
  exact ⟨a', hopens.attempts k a' ha', hadvances⟩

/-- A new attempt is open, and its token is a new one. -/
theorem Advances.opened (h : db.Advances c db') (htracked : db.Tracked []) (htracked' : db'.Tracked [])
    (ha : db'.attempts.get? k = some a) (hnone : db.attempts.get? k = none) :
    (∃ cl, c = .claim cl) ∧ a.isLeased = true ∧ db.token? a.outboxId ≠ some a.leaseToken ∧
      db'.token? a.outboxId = some a.leaseToken := by
  have hadvances := h
  obtain ⟨mid, hrewrites, hopens, hclaim⟩ := h
  have hmid := hrewrites.fresh k hnone
  have hopen : a.isLeased = true := hopens.fresh k a ha hmid
  refine ⟨?_, hopen, ?_, htracked'.token?_of_open ha hopen⟩
  · rcases hclaim with rfl | hclaim
    · rw [hmid] at ha
      cases ha
    · exact hclaim
  · intro htoken
    -- the attempt that had the token before still has it, under another key
    obtain ⟨j, b, hb, -, hbtoken⟩ := htracked.exists_of_token? htoken
    obtain ⟨b', hb', hbadvances⟩ := hadvances.attempt hb
    have hjk := htracked'.tokens j k b' a hb' ha (hbadvances.leaseToken_eq.trans hbtoken)
    rw [hjk, hnone] at hb
    cases hb

/-- An attempt is closed exactly when its row leaves the lease. -/
theorem Advances.kept (h : db.Advances c db') (htracked' : db'.Tracked [])
    (ha : db.attempts.get? k = some a) : ∃ a', db'.attempts.get? k = some a' ∧
      (a.isLeased = false → a' = a) ∧
      (a.isLeased = true →
        a' = a ∧ db'.token? a.outboxId = some a.leaseToken ∨
        a'.isLeased = false ∧ db'.token? a.outboxId ≠ some a.leaseToken) := by
  obtain ⟨a', ha', hadvances⟩ := h.attempt ha
  refine ⟨a', ha', hadvances.eq_of_closed, fun hopen => ?_⟩
  rcases hadvances with rfl | ⟨-, hclosed, -, -, htoken, -⟩
  · exact .inl ⟨rfl, htracked'.token?_of_open ha' hopen⟩
  · refine .inr ⟨hclosed, fun hstill => ?_⟩
    rw [← htoken] at hstill
    rw [htracked'.isLeased_of_token? ha' hstill] at hclosed
    cases hclosed

theorem apply_finalize_of_ne {f : FinalizeCall} (h : f.eventId.bind db.token? ≠ f.leaseToken) :
    db.apply (.finalize f) = db := by
  unfold apply call
  dsimp only
  cases hresult : db.finalize f with
  | error e => rfl
  | ok result =>
    rw [finalize_of_ne h hresult]
    rfl

theorem Tracked.fencedStep (h : db.Tracked []) (c : Call) : db.FencedStep c (db.apply c) := by
  obtain ⟨htracked', hadvances⟩ := apply_step c h
  refine ⟨?_, ?_, ?_, ?_⟩
  · rintro f rfl hne
    exact apply_finalize_of_ne hne
  · intro id row hrow
    obtain ⟨mid, hrewrites, hopens, -⟩ := hadvances
    obtain ⟨row', hrow', hrows⟩ := hrewrites.rows id row hrow
    rw [← hopens.outbox] at hrow'
    exact ⟨row', hrow', hrows.moves.attempts_le, hrows.ended⟩
  · exact fun k a ha hnone => hadvances.opened h htracked' ha hnone
  · exact fun k a ha => hadvances.kept htracked' ha

end Fencing

end Db

end PandaPay.Outbox.Rewards

namespace PandaPay.Outbox

/-- **Every reachable state of the outboxes, and every step from it, is fenced.** -/
theorem outboxes_fenced :
    (∀ calls : List Rewards.Call, (Rewards.Db.initial.run calls).Fenced ∧
      ∀ c, (Rewards.Db.initial.run calls).FencedStep c ((Rewards.Db.initial.run calls).apply c)) ∧
    ∀ db : Notifications.Db, db.Initial → ∀ calls : List Notifications.Call,
      (db.run calls).Fenced ∧ ∀ c, (db.run calls).FencedStep c ((db.run calls).apply c) := by
  constructor
  · intro calls
    have h := Rewards.Db.run_tracked calls
    exact ⟨h.fenced, h.fencedStep⟩
  · intro db hdb calls
    have h := Notifications.Db.run_sound hdb.sound calls
    exact ⟨h.fenced, fun c => (Notifications.Db.apply_step h c).2⟩

section Meera

open Notifications

/-- The notification `"bill"` is there for `"meera"`, and nothing has been enqueued. -/
def meeraInbox : Notifications.Db where
  profiles := InsertionMap.empty.set "meera" ⟨none⟩
  preferences := .empty
  notifications := InsertionMap.empty.set "bill"
    ⟨"meera", "first", .bills, .info, "A bill is due", none, none⟩
  revisions := .empty
  outbox := .empty
  profileQueueCounts := .empty
  globalQueueCount := ⟨0, 0⟩

/-- The notification is enqueued, claimed, claimed again once the lease has run out, and finished
under the token of the first claim. -/
def meeraCalls : List Notifications.Call :=
  [.enqueue ⟨0, some "meera", "bill", "revision", "row"⟩,
    .claim ⟨seconds 1, some "worker-1", some 1, some 60, fun _ => "token-1"⟩,
    .claim ⟨seconds 90, some "worker-2", some 1, some 60, fun _ => "token-2"⟩,
    .finish ⟨seconds 91, some "row", some "token-1", some true, none, some false⟩]

/-- The late reply is of no effect: the row is leased to the second worker and counted as pending. -/
theorem outboxes_fenced_meera :
    (meeraInbox.run meeraCalls).token? "row" = some "token-2" ∧
      (meeraInbox.run meeraCalls).pendingOf "meera" = 1 ∧ (meeraInbox.run meeraCalls).Fenced :=
  ⟨by decide +kernel, by decide +kernel, (outboxes_fenced.2 meeraInbox ⟨rfl, rfl, rfl⟩ meeraCalls).1⟩

end Meera

end PandaPay.Outbox
