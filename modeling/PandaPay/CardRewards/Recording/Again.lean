import PandaPay.CardRewards.Recording.Rebuild

/-!
# A plan that is written is replayed as before

After a plan is written, the same range is replayed to the same rows and entries: the records that it
rewrote seed as before. A record that it rewrote is rewritten to itself.

## Main definitions

* `IsCanonical`: a record as it is written
* `KeepsSeed`: a transaction seeds as before
* `nextRecord`: the record of a transaction after a rebuild

## Main results

* `run_again`, `replayCaps_again`, `replayMilestones_again`: the replay, after a plan is written
* `cardStateV2_rebuilt`: the record of a transaction, after a plan is written
* `nextRecord_again`: a record that is rewritten is rewritten to itself
-/

namespace PandaPay.CardRewards

open CardStates

/-! ### The replay -/

/-- A record is as `toRecord` writes it. -/
def IsCanonical (record : Option Record) : Prop := canonical record = record

/-- What a replay has besides the expected values. -/
structure SameReplay (replay replay' : CapReplay) : Prop where
  rows : replay'.rows = replay.rows
  entries : replay'.entries = replay.entries

/-- The seed of a transaction is as before. -/
def KeepsSeed (plan : ReplayPlan) (t : JsString × StoredTransaction) : Prop :=
  (rebuilt plan t).2.cardStateV2.elim [] Record.caps = t.2.cardStateV2.elim [] Record.caps

/-- The updates of the expected values of a step. -/
def expectedOf (server : Server) (v2 : UserCard) (input : ReplayInput) (replay : CapReplay)
    (t : JsString × StoredTransaction) : List ExpectedUpdate :=
  let outcome := replayedOutcome server v2 replay.rows t.2
  if input.expected && !hasExpected t.2 outcome then
    [⟨t.1, t.2.occurredAt, outcome.native, outcome.value, outcome.points, outcome.cashback⟩]
  else []

section Again

variable {server : Server} {v2 : UserCard} {input input' : ReplayInput} (halike : input.Alike input')
include halike

theorem isEligible_again (plan : ReplayPlan) (t : JsString × StoredTransaction) :
    input'.isEligible (rebuilt plan t) = input.isEligible t := by
  unfold ReplayInput.isEligible
  rw [halike.excludeTxnIds]
  rfl

theorem replayMilestone_again (plan : ReplayPlan) (replay : MilestoneReplay)
    (t : JsString × StoredTransaction) :
    replayMilestone server v2 input' replay (rebuilt plan t) = replayMilestone server v2 input replay t := by
  unfold replayMilestone
  rw [isEligible_again halike]
  rfl

/-- The milestones are replayed as before. -/
theorem replayMilestones_again {plan : ReplayPlan} (hordered : input'.ordered = input.ordered.map (rebuilt plan)) :
    replayMilestones server v2 input' = replayMilestones server v2 input := by
  unfold replayMilestones
  dsimp only
  rw [halike.range, hordered, List.foldl_map]
  simp only [replayMilestone_again halike]

end Again

section Steps

variable {server : Server} {v2 : UserCard} {input input' : ReplayInput} {caps : CapRange}
  {replay replay' : CapReplay} {t : JsString × StoredTransaction}

/-- What a step does: nothing, a seed, or the replay of a spend. -/
theorem replayTransaction_cases (server : Server) (v2 : UserCard) (input : ReplayInput) (caps : CapRange)
    (replay : CapReplay) (t : JsString × StoredTransaction) :
    (input.isEligible t = false ∧ replayTransaction server v2 input caps replay t = replay) ∨
    (input.isEligible t = true ∧ (istDay t.2.occurredAt < caps.start ∨ caps.end < istDay t.2.occurredAt) ∧
      replayTransaction server v2 input caps replay t =
        { replay with
          rows := (t.2.cardStateV2.elim [] Record.caps).foldl (fun rows e =>
            v2.addToCapRow rows (e.slotEntry v2.userCardId)) replay.rows }) ∨
    (input.isEligible t = true ∧ ¬ (istDay t.2.occurredAt < caps.start ∨ caps.end < istDay t.2.occurredAt) ∧
      replayTransaction server v2 input caps replay t =
        { rows := (replayedOutcome server v2 replay.rows t.2).capEntries.foldl v2.addReplayed replay.rows
          entries := replay.entries.set t.1 (replayedOutcome server v2 replay.rows t.2).capEntries
          expectedUpdates := replay.expectedUpdates ++ expectedOf server v2 input replay t }) := by
  unfold replayTransaction
  cases heligible : input.isEligible t with
  | false => exact .inl ⟨rfl, rfl⟩
  | true =>
    by_cases hout : istDay t.2.occurredAt < caps.start ∨ caps.end < istDay t.2.occurredAt
    · refine .inr (.inl ⟨rfl, hout, ?_⟩)
      rw [Bool.not_true, if_neg Bool.false_ne_true, if_pos hout]
    · refine .inr (.inr ⟨rfl, hout, ?_⟩)
      rw [Bool.not_true, if_neg Bool.false_ne_true, if_neg hout]
      rfl

variable (server v2 caps) in
theorem SameReplay.step (halike : input.Alike input') {plan : ReplayPlan}
    (hseed : input.isEligible t = true →
      (istDay t.2.occurredAt < caps.start ∨ caps.end < istDay t.2.occurredAt) → KeepsSeed plan t)
    (h : SameReplay replay replay') :
    SameReplay (replayTransaction server v2 input caps replay t)
      (replayTransaction server v2 input' caps replay' (rebuilt plan t)) := by
  have heligible := isEligible_again halike plan t
  rcases replayTransaction_cases server v2 input caps replay t with
    ⟨hnot, hstep⟩ | ⟨hyes, hout, hstep⟩ | ⟨hyes, hin, hstep⟩
  · rcases replayTransaction_cases server v2 input' caps replay' (rebuilt plan t) with
      ⟨-, hstep'⟩ | ⟨hyes', -, -⟩ | ⟨hyes', -, -⟩
    · rw [hstep, hstep']
      exact h
    · rw [heligible, hnot] at hyes'
      cases hyes'
    · rw [heligible, hnot] at hyes'
      cases hyes'
  · rcases replayTransaction_cases server v2 input' caps replay' (rebuilt plan t) with
      ⟨hnot', -⟩ | ⟨-, -, hstep'⟩ | ⟨-, hin', -⟩
    · rw [heligible, hyes] at hnot'
      cases hnot'
    · rw [hstep, hstep', h.rows, hseed hyes hout]
      exact ⟨rfl, h.entries⟩
    · exact absurd hout hin'
  · rcases replayTransaction_cases server v2 input' caps replay' (rebuilt plan t) with
      ⟨hnot', -⟩ | ⟨-, hout', -⟩ | ⟨-, -, hstep'⟩
    · rw [heligible, hyes] at hnot'
      cases hnot'
    · exact absurd hout' hin
    · rw [hstep, hstep', h.rows, h.entries]
      exact ⟨rfl, rfl⟩

/-- The updates of a run: those before it, and of its transactions. -/
theorem mem_expectedUpdates_foldl {l : List (JsString × StoredTransaction)} {update : ExpectedUpdate}
    (h : update ∈ (l.foldl (replayTransaction server v2 input caps) replay).expectedUpdates) :
    update ∈ replay.expectedUpdates ∨ update.id ∈ l.map Prod.fst := by
  induction l generalizing replay with
  | nil => exact .inl h
  | cons t l ih =>
    rw [List.foldl_cons] at h
    rcases ih h with hmem | hmem
    · rcases replayTransaction_cases server v2 input caps replay t with
        ⟨-, hstep⟩ | ⟨-, -, hstep⟩ | ⟨-, -, hstep⟩
      · rw [hstep] at hmem
        exact .inl hmem
      · rw [hstep] at hmem
        exact .inl hmem
      · rw [hstep] at hmem
        rcases List.mem_append.mp hmem with hmem | hmem
        · exact .inl hmem
        · unfold expectedOf at hmem
          dsimp only at hmem
          split_ifs at hmem
          · rw [List.mem_singleton.mp hmem]
            exact .inr List.mem_cons_self
          · exact absurd hmem List.not_mem_nil
    · exact .inr (List.mem_cons_of_mem _ hmem)

theorem expectedUpdates_subset (l : List (JsString × StoredTransaction)) (replay : CapReplay) :
    replay.expectedUpdates ⊆ (l.foldl (replayTransaction server v2 input caps) replay).expectedUpdates := by
  induction l generalizing replay with
  | nil => exact fun _ h => h
  | cons t l ih =>
    refine List.Subset.trans ?_ (ih _)
    rcases replayTransaction_cases server v2 input caps replay t with
      ⟨-, hstep⟩ | ⟨-, -, hstep⟩ | ⟨-, -, hstep⟩
    · rw [hstep]
      exact fun _ h => h
    · rw [hstep]
      exact fun _ h => h
    · rw [hstep]
      exact List.subset_append_left _ _

theorem nodup_expectedUpdates {l : List (JsString × StoredTransaction)} (hl : (l.map Prod.fst).Nodup)
    (hreplay : (replay.expectedUpdates.map ExpectedUpdate.id).Nodup)
    (hnew : ∀ update ∈ replay.expectedUpdates, update.id ∉ l.map Prod.fst) :
    ((l.foldl (replayTransaction server v2 input caps) replay).expectedUpdates.map
      ExpectedUpdate.id).Nodup := by
  induction l generalizing replay with
  | nil => exact hreplay
  | cons t l ih =>
    obtain ⟨hnotMem, hl⟩ := List.nodup_cons.mp hl
    have hrest : ∀ update ∈ replay.expectedUpdates, update.id ∉ l.map Prod.fst := fun update hu hmem =>
      hnew update hu (List.mem_cons_of_mem _ hmem)
    rw [List.foldl_cons]
    rcases replayTransaction_cases server v2 input caps replay t with
      ⟨-, hstep⟩ | ⟨-, -, hstep⟩ | ⟨-, -, hstep⟩
    · rw [hstep]
      exact ih hl hreplay hrest
    · rw [hstep]
      exact ih hl hreplay hrest
    · rw [hstep]
      unfold expectedOf
      dsimp only
      split_ifs
      · refine ih hl ?_ fun update hu => ?_
        · rw [List.map_append]
          refine List.nodup_append.mpr ⟨hreplay, List.nodup_singleton _, fun a ha b hb => ?_⟩
          obtain ⟨update, hu, rfl⟩ := List.mem_map.mp ha
          rw [List.mem_singleton.mp hb]
          exact fun heq => hnew update hu (heq ▸ List.mem_cons_self)
        · rcases List.mem_append.mp hu with hu | hu
          · exact hrest update hu
          · rw [List.mem_singleton.mp hu]
            exact hnotMem
      · rw [List.append_nil]
        exact ih hl hreplay hrest

theorem sameNumber_self (x : Option ℚ) : sameNumber x x = true := by
  cases x <;> simp [sameNumber]

/-- After a plan with the updates of a run is written, a transaction of the run expects what it is replayed
to. -/
theorem expectedOf_again (halike : input.Alike input') {plan : ReplayPlan}
    {l : List (JsString × StoredTransaction)} (hl : ((t :: l).map Prod.fst).Nodup)
    (hnew : ∀ update ∈ replay.expectedUpdates, update.id ∉ (t :: l).map Prod.fst)
    {rows : InsertionMap RowKey CapState} {entries : InsertionMap JsString (List CapEntry)}
    (hplan : plan.txnExpectedUpdates = (l.foldl (replayTransaction server v2 input caps)
      ⟨rows, entries, replay.expectedUpdates ++ expectedOf server v2 input replay t⟩).expectedUpdates)
    (hrows : replay'.rows = replay.rows) :
    expectedOf server v2 input' replay' (rebuilt plan t) = [] := by
  have houtcome : replayedOutcome server v2 replay'.rows (rebuilt plan t).2 =
      replayedOutcome server v2 replay.rows t.2 := by
    rw [hrows]
    rfl
  -- the updates of the transaction are those of its step
  have hown : ∀ update ∈ plan.txnExpectedUpdates, update.id = t.1 →
      update ∈ expectedOf server v2 input replay t := by
    intro update hu hid
    rw [hplan] at hu
    rcases mem_expectedUpdates_foldl hu with hu | hu
    · rcases List.mem_append.mp hu with hu | hu
      · exact absurd (hid ▸ List.mem_cons_self) (hnew update hu)
      · exact hu
    · exact absurd (hid ▸ hu) (List.nodup_cons.mp hl).1
  unfold expectedOf
  dsimp only
  rw [halike.expected, houtcome]
  cases hexpected : input.expected with
  | false => rfl
  | true =>
    have hagain : hasExpected (rebuilt plan t).2 (replayedOutcome server v2 replay.rows t.2) = true := by
      cases hhas : hasExpected t.2 (replayedOutcome server v2 replay.rows t.2) with
      | true =>
        have hnone : plan.txnExpectedUpdates.find? (fun update => decide (update.id = t.1)) = none := by
          refine List.find?_eq_none.mpr fun update hu hid => ?_
          have hmem := hown update hu (of_decide_eq_true hid)
          unfold expectedOf at hmem
          dsimp only at hmem
          rw [hexpected, hhas] at hmem
          exact List.not_mem_nil hmem
        unfold hasExpected rebuilt
        dsimp only
        rw [hnone]
        exact hhas
      | false =>
        have hstep : expectedOf server v2 input replay t = [⟨t.1, t.2.occurredAt,
            (replayedOutcome server v2 replay.rows t.2).native,
            (replayedOutcome server v2 replay.rows t.2).value,
            (replayedOutcome server v2 replay.rows t.2).points,
            (replayedOutcome server v2 replay.rows t.2).cashback⟩] := by
          unfold expectedOf
          dsimp only
          rw [hexpected, hhas]
          rfl
        have hmem : (⟨t.1, t.2.occurredAt, (replayedOutcome server v2 replay.rows t.2).native,
            (replayedOutcome server v2 replay.rows t.2).value,
            (replayedOutcome server v2 replay.rows t.2).points,
            (replayedOutcome server v2 replay.rows t.2).cashback⟩ : ExpectedUpdate) ∈
            plan.txnExpectedUpdates := by
          rw [hplan]
          refine expectedUpdates_subset l _ (List.mem_append_right _ ?_)
          rw [hstep]
          exact List.mem_cons_self
        obtain ⟨update, hfind⟩ := Option.isSome_iff_exists.mp
          (List.find?_isSome.mpr ⟨_, hmem, decide_eq_true rfl⟩ :
            (plan.txnExpectedUpdates.find? fun update => decide (update.id = t.1)).isSome)
        have hid : update.id = t.1 := by simpa using List.find?_some hfind
        have hupdate := hown update (List.mem_of_find?_eq_some hfind) hid
        rw [hstep, List.mem_singleton] at hupdate
        unfold hasExpected rebuilt
        dsimp only
        rw [hfind, hupdate]
        simp [sameNumber_self]
    rw [hagain]
    rfl

/-- A run is replayed as before, and expects nothing else. -/
theorem run_again (halike : input.Alike input') {plan : ReplayPlan}
    {l : List (JsString × StoredTransaction)} (hl : (l.map Prod.fst).Nodup)
    (hnew : ∀ update ∈ replay.expectedUpdates, update.id ∉ l.map Prod.fst)
    (hseed : ∀ t ∈ l, input.isEligible t = true →
      (istDay t.2.occurredAt < caps.start ∨ caps.end < istDay t.2.occurredAt) → KeepsSeed plan t)
    (hplan : plan.txnExpectedUpdates =
      (l.foldl (replayTransaction server v2 input caps) replay).expectedUpdates)
    (hsame : SameReplay replay replay') (hnone : replay'.expectedUpdates = []) :
    SameReplay (l.foldl (replayTransaction server v2 input caps) replay)
        ((l.map (rebuilt plan)).foldl (replayTransaction server v2 input' caps) replay') ∧
      ((l.map (rebuilt plan)).foldl (replayTransaction server v2 input' caps) replay').expectedUpdates =
        [] := by
  induction l generalizing replay replay' with
  | nil => exact ⟨hsame, hnone⟩
  | cons t l ih =>
    have hstep := hsame.step server v2 caps halike
      (hseed t List.mem_cons_self)
    have hids := (List.nodup_cons.mp hl).1
    rw [List.map_cons, List.foldl_cons, List.foldl_cons]
    rw [List.foldl_cons] at hplan
    refine ih (List.nodup_cons.mp hl).2 (fun update hu hmem => ?_)
      (fun other hother => hseed other (List.mem_cons_of_mem t hother)) hplan hstep ?_
    · have hfirst : update ∈ ([t].foldl (replayTransaction server v2 input caps) replay).expectedUpdates := hu
      rcases mem_expectedUpdates_foldl hfirst with hold | hown
      · exact hnew update hold (List.mem_cons_of_mem _ hmem)
      · rw [List.map_singleton, List.mem_singleton] at hown
        exact hids (hown ▸ hmem)
    · rcases replayTransaction_cases server v2 input' caps replay' (rebuilt plan t) with
        ⟨-, hstep'⟩ | ⟨-, -, hstep'⟩ | ⟨heligible', hin', hstep'⟩
      · rw [hstep', hnone]
      · rw [hstep']
        exact hnone
      · rw [hstep']
        dsimp only
        rw [hnone, List.nil_append]
        rw [isEligible_again halike] at heligible'
        rcases replayTransaction_cases server v2 input caps replay t with
          ⟨hnot, -⟩ | ⟨-, hout, -⟩ | ⟨-, -, hstep⟩
        · rw [heligible'] at hnot
          cases hnot
        · exact absurd hout hin'
        · rw [hstep] at hplan
          exact expectedOf_again halike hl hnew hplan hsame.rows

end Steps

/-! ### Rows of entries -/

section Rows

variable {server : Server} {v2 : UserCard} {input : ReplayInput} {k : RowKey}

theorem isSome_set {ρ : Type} {rows : InsertionMap RowKey ρ} (j : RowKey) (row : ρ)
    (h : (rows.get? k).isSome) : ((rows.set j row).get? k).isSome := by
  rw [InsertionMap.get?_set]
  split_ifs
  · rfl
  · exact h

theorem isSome_addToCapRow {rows : InsertionMap RowKey CapState} (e : SlotEntry)
    (h : (rows.get? k).isSome) : ((v2.addToCapRow rows e).get? k).isSome := by
  unfold UserCard.addToCapRow
  split
  · exact isSome_set _ _ h
  · exact h

theorem isSome_addReplayed {rows : InsertionMap RowKey CapState} (e : CapEntry)
    (h : (rows.get? k).isSome) : ((v2.addReplayed rows e).get? k).isSome := by
  unfold UserCard.addReplayed
  dsimp only
  split_ifs
  · exact isSome_addToCapRow _ h
  · exact isSome_set _ _ h

/-- A replayed entry has a row. -/
theorem isSome_addReplayed_self (rows : InsertionMap RowKey CapState) (e : CapEntry) :
    ((v2.addReplayed rows e).get? ⟨v2.userCardId, e.id, e.start⟩).isSome := by
  unfold UserCard.addReplayed
  dsimp only
  split_ifs with hrow
  · exact isSome_addToCapRow _ hrow
  · rw [InsertionMap.get?_set_self]
    rfl

theorem isSome_foldl {ρ ε : Type} {step : InsertionMap RowKey ρ → ε → InsertionMap RowKey ρ}
    (hstep : ∀ rows e, (rows.get? k).isSome → ((step rows e).get? k).isSome) (es : List ε)
    {rows : InsertionMap RowKey ρ} (h : (rows.get? k).isSome) : ((es.foldl step rows).get? k).isSome :=
  List.foldlRecOn es step (motive := fun rows => (rows.get? k).isSome) h fun _ hrows e _ => hstep _ e hrows

theorem isSome_foldl_addReplayed {es : List CapEntry} {e : CapEntry} (he : e ∈ es)
    (rows : InsertionMap RowKey CapState) :
    ((es.foldl v2.addReplayed rows).get? ⟨v2.userCardId, e.id, e.start⟩).isSome := by
  induction es generalizing rows with
  | nil => exact absurd he List.not_mem_nil
  | cons f es ih =>
    rw [List.foldl_cons]
    rcases List.mem_cons.mp he with rfl | he
    · exact isSome_foldl (fun _ f h => isSome_addReplayed f h) es (isSome_addReplayed_self rows e)
    · exact ih he _

/-- The entries of a replay have rows, and are of spends in the window. -/
structure CapReplay.Sound (v2 : UserCard) (input : ReplayInput) (caps : CapRange)
    (l : List (JsString × StoredTransaction)) (replay : CapReplay) : Prop where
  rows : ∀ txnId es, replay.entries.get? txnId = some es → ∀ e ∈ es,
    (replay.rows.get? ⟨v2.userCardId, e.id, e.start⟩).isSome
  spends : ∀ txnId, (replay.entries.get? txnId).isSome → ∃ t ∈ l, t.1 = txnId ∧
    input.isEligible t = true ∧
    ¬ (istDay t.2.occurredAt < caps.start ∨ caps.end < istDay t.2.occurredAt)

theorem CapReplay.Sound.foldl {caps : CapRange} {l l' : List (JsString × StoredTransaction)}
    {replay : CapReplay} (h : replay.Sound v2 input caps l) (hsub : l' ⊆ l) :
    (l'.foldl (replayTransaction server v2 input caps) replay).Sound v2 input caps l := by
  refine List.foldlRecOn l' _ (motive := CapReplay.Sound v2 input caps l) h fun replay h t ht => ?_
  rcases replayTransaction_cases server v2 input caps replay t with
    ⟨-, hstep⟩ | ⟨-, -, hstep⟩ | ⟨heligible, hin, hstep⟩
  · rw [hstep]
    exact h
  · rw [hstep]
    exact ⟨fun txnId es hget e he => isSome_foldl (fun _ _ hrow => isSome_addToCapRow _ hrow) _
      (h.rows txnId es hget e he), h.spends⟩
  · rw [hstep]
    constructor
    · intro txnId es hget e he
      dsimp only at hget ⊢
      rw [InsertionMap.get?_set] at hget
      split_ifs at hget
      · obtain rfl := Option.some.inj hget
        exact isSome_foldl_addReplayed he _
      · exact isSome_foldl (fun _ f hrow => isSome_addReplayed f hrow) _ (h.rows txnId es hget e he)
    · intro txnId hsome
      dsimp only at hsome
      rw [InsertionMap.get?_set] at hsome
      split_ifs at hsome with htxn
      · exact ⟨t, hsub ht, htxn.symm, heligible, hin⟩
      · exact h.spends txnId hsome

theorem replayCaps_eq {caps : CapRange} (h : input.range.caps = some caps) :
    replayCaps server v2 input = input.ordered.foldl (replayTransaction server v2 input caps)
      ⟨v2.slots input.range, .empty, []⟩ := by
  unfold replayCaps
  rw [h]

theorem replayCaps_sound {caps : CapRange} (h : input.range.caps = some caps) :
    (replayCaps server v2 input).Sound v2 input caps input.ordered := by
  rw [replayCaps_eq h]
  refine CapReplay.Sound.foldl ⟨fun txnId es hget => ?_, fun txnId hsome => ?_⟩ (List.Subset.refl _)
  · rw [InsertionMap.get?_empty] at hget
    cases hget
  · rw [InsertionMap.get?_empty] at hsome
    cases hsome

/-- The entries of milestones have rows. -/
theorem replayMilestones_rows (txnId : JsString) {es : List MilestoneEntry}
    (hget : (replayMilestones server v2 input).entries.get? txnId = some es) :
    ∀ e ∈ es, ((replayMilestones server v2 input).rows.get? ⟨v2.userCardId, e.id, e.start⟩).isSome := by
  have hadd : ∀ (rows : InsertionMap RowKey MilestoneState) (e : MilestoneEntry) (k : RowKey),
      (rows.get? k).isSome → ((addMilestone v2 rows e).get? k).isSome := by
    intro rows e k hrow
    unfold addMilestone
    split
    · exact isSome_set _ _ hrow
    · exact hrow
  have hrun : ∀ (l : List (JsString × StoredTransaction)) (replay : MilestoneReplay),
      (∀ txnId es, replay.entries.get? txnId = some es → ∀ e ∈ es,
        (replay.rows.get? ⟨v2.userCardId, e.id, e.start⟩).isSome) →
      ∀ txnId es, (l.foldl (replayMilestone server v2 input) replay).entries.get? txnId = some es →
        ∀ e ∈ es, ((l.foldl (replayMilestone server v2 input) replay).rows.get?
          ⟨v2.userCardId, e.id, e.start⟩).isSome := by
    intro l
    induction l with
    | nil => exact fun _ h => h
    | cons t l ih =>
      intro replay h
      rw [List.foldl_cons]
      refine ih _ ?_
      unfold replayMilestone
      split_ifs
      · exact h
      · intro txnId es hget e he
        dsimp only at hget ⊢
        rw [InsertionMap.get?_set] at hget
        split_ifs at hget
        · obtain rfl := Option.some.inj hget
          exact isSome_foldl (fun rows e hrow => hadd rows e _ hrow) _ (List.mem_filter.mp he).2
        · exact isSome_foldl (fun rows e hrow => hadd rows e _ hrow) _ (h txnId es hget e he)
  unfold replayMilestones at hget ⊢
  dsimp only at hget ⊢
  split_ifs at hget ⊢
  · rw [InsertionMap.get?_empty] at hget
    cases hget
  · exact hrun _ _ (fun txnId es hget => by rw [InsertionMap.get?_empty] at hget; cases hget) txnId es hget

end Rows

/-! ### Records -/

@[simp] theorem RecordEntry.rounded_rounded (e : RecordEntry) : e.rounded.rounded = e.rounded := by
  unfold RecordEntry.rounded
  rw [round2_of_onGrid (onGrid_round2 _)]

theorem entries_toRecord (userCardId : JsString) (sections : RecordSection → List RecordEntry)
    (name : RecordSection) :
    (toRecord userCardId sections).elim [] (fun record => record.entries name) = sortEntries (sections name) := by
  unfold toRecord
  split_ifs with hempty
  · obtain ⟨hcaps, hmilestones, hwaivers⟩ := hempty
    cases name with
    | caps => rw [hcaps]; rfl
    | milestones => rw [hmilestones]; rfl
    | feeWaivers => rw [hwaivers]; rfl
  · cases name <;> rfl

theorem sortEntries_eq_nil_iff {entries : List RecordEntry} : sortEntries entries = [] ↔ entries = [] := by
  have hperm : (sortEntries entries).Perm entries := List.perm_insertionSort _ _
  constructor
  · intro h
    rw [h] at hperm
    exact hperm.nil_eq.symm
  · intro h
    rw [h]
    rfl

/-- A record sees of its sections what they are sorted to. -/
theorem toRecord_congr {userCardId : JsString} {sections sections' : RecordSection → List RecordEntry}
    (h : ∀ name, sortEntries (sections name) = sortEntries (sections' name)) :
    toRecord userCardId sections = toRecord userCardId sections' := by
  have hempty : ∀ name, sections name = [] ↔ sections' name = [] := fun name => by
    rw [← sortEntries_eq_nil_iff, h, sortEntries_eq_nil_iff]
  unfold toRecord
  rw [h, h, h]
  exact if_congr (and_congr (hempty _) (and_congr (hempty _) (hempty _))) rfl rfl

/-- A section that is rewritten is rewritten to itself. -/
theorem sortEntries_again (keep : RecordEntry → Bool) (hkeep : ∀ e, keep e.rounded = keep e)
    (new : List RecordEntry) (hnew : ∀ e ∈ new, keep e = false) (old : List RecordEntry) :
    sortEntries (((sortEntries ((old.filter keep ++ new).map RecordEntry.rounded)).filter keep ++ new).map
        RecordEntry.rounded) =
      sortEntries ((old.filter keep ++ new).map RecordEntry.rounded) :=
  sortBy_filter_append RecordEntry.rounded_rounded (fun _ => rfl) hkeep hnew old

section Sections

variable (server : Server) (v2 : UserCard) (input : ReplayInput)

/-- A rebuild rewrites the caps of the record of a transaction. -/
def rewritesCaps (t : JsString × StoredTransaction) : Bool :=
  input.range.caps.isSome &&
    (((replayCaps server v2 input).entries.get? t.1).isSome || !input.isEligible t)

/-- A rebuild rewrites the milestones of the record of a transaction. -/
def rewritesMilestones (t : JsString × StoredTransaction) : Bool :=
  (replayMilestones server v2 input).rows.size ≠ 0 &&
    (((replayMilestones server v2 input).entries.get? t.1).isSome || !input.isEligible t)

/-- What a rebuild keeps of a section. -/
def keepOf (t : JsString × StoredTransaction) : RecordSection → RecordEntry → Bool
  | .caps => fun e => !(rewritesCaps server v2 input t &&
      supersededCapEntry v2 input (replayCaps server v2 input).rows e)
  | .milestones => fun e => !(rewritesMilestones server v2 input t &&
      supersededMilestoneEntry v2 input (replayMilestones server v2 input).rows e)
  | .feeWaivers => fun _ => true

/-- What a rebuild adds to a section. -/
def newOf (t : JsString × StoredTransaction) : RecordSection → List RecordEntry
  | .caps => if rewritesCaps server v2 input t && input.isEligible t then
      (((replayCaps server v2 input).entries.get? t.1).getD []).map CapEntry.recordEntry else []
  | .milestones => if rewritesMilestones server v2 input t && input.isEligible t then
      (((replayMilestones server v2 input).entries.get? t.1).getD []).map MilestoneEntry.recordEntry else []
  | .feeWaivers => []

theorem rebuiltSections_eq (t : JsString × StoredTransaction) (name : RecordSection) :
    rebuiltSections v2 input (replayCaps server v2 input) (replayMilestones server v2 input) t name =
      (t.2.cardStateV2.elim [] fun record => record.entries name).filter (keepOf server v2 input t name) ++
        newOf server v2 input t name := by
  cases name with
  | caps =>
    unfold rebuiltSections keepOf newOf
    dsimp only
    rw [← rewritesCaps]
    cases rewritesCaps server v2 input t with
    | false => simp [Record.entries]
    | true => simp [Record.entries]
  | milestones =>
    unfold rebuiltSections keepOf newOf
    dsimp only
    rw [← rewritesMilestones]
    cases rewritesMilestones server v2 input t with
    | false => simp [Record.entries]
    | true => simp [Record.entries]
  | feeWaivers => simp [rebuiltSections, keepOf, newOf, Record.entries]

theorem keepOf_rounded (t : JsString × StoredTransaction) (name : RecordSection) (e : RecordEntry) :
    keepOf server v2 input t name e.rounded = keepOf server v2 input t name e := by
  cases name <;> rfl

/-- What is added is superseded by the rows that it was added with. -/
theorem keepOf_newOf (t : JsString × StoredTransaction) (name : RecordSection) :
    ∀ e ∈ newOf server v2 input t name, keepOf server v2 input t name e = false := by
  intro e he
  cases name with
  | caps =>
    unfold newOf at he
    dsimp only at he
    split_ifs at he with hrewrites
    · obtain ⟨f, hf, rfl⟩ := List.mem_map.mp he
      have hrewritten := (Bool.and_eq_true_iff.mp hrewrites).1
      have hcaps : input.range.caps.isSome = true := (Bool.and_eq_true_iff.mp hrewritten).1
      obtain ⟨caps, hcaps⟩ := Option.isSome_iff_exists.mp hcaps
      cases hget : (replayCaps server v2 input).entries.get? t.1 with
      | none =>
        rw [hget] at hf
        exact absurd hf List.not_mem_nil
      | some es =>
        rw [hget] at hf
        have hrow := (replayCaps_sound hcaps).rows t.1 es hget f hf
        have hsuperseded : supersededCapEntry v2 input (replayCaps server v2 input).rows f.recordEntry =
            true := Bool.or_eq_true _ _ |>.mpr (.inl hrow)
        unfold keepOf
        dsimp only
        rw [(Bool.and_eq_true_iff.mp hrewrites).1, hsuperseded]
        rfl
    · exact absurd he List.not_mem_nil
  | milestones =>
    unfold newOf at he
    dsimp only at he
    split_ifs at he with hrewrites
    · obtain ⟨f, hf, rfl⟩ := List.mem_map.mp he
      cases hget : (replayMilestones server v2 input).entries.get? t.1 with
      | none =>
        rw [hget] at hf
        exact absurd hf List.not_mem_nil
      | some es =>
        rw [hget] at hf
        have hrow := replayMilestones_rows t.1 hget f hf
        have hsuperseded : supersededMilestoneEntry v2 input (replayMilestones server v2 input).rows
            f.recordEntry = true := Bool.or_eq_true _ _ |>.mpr (.inl hrow)
        unfold keepOf
        dsimp only
        rw [(Bool.and_eq_true_iff.mp hrewrites).1, hsuperseded]
        rfl
    · exact absurd he List.not_mem_nil
  | feeWaivers => exact absurd he List.not_mem_nil

/-- The record of a transaction after the rebuild. -/
def nextRecord (t : JsString × StoredTransaction) : Option Record :=
  rebuiltRecord v2
    (rebuiltSections v2 input (replayCaps server v2 input) (replayMilestones server v2 input) t)

theorem entries_nextRecord (t : JsString × StoredTransaction) (name : RecordSection) :
    (nextRecord server v2 input t).elim [] (fun record => record.entries name) =
      sortEntries (((t.2.cardStateV2.elim [] fun record => record.entries name).filter
        (keepOf server v2 input t name) ++ newOf server v2 input t name).map RecordEntry.rounded) := by
  unfold nextRecord rebuiltRecord
  rw [entries_toRecord, rebuiltSections_eq]

end Sections

/-! ### Records that are written -/

theorem sortEntries_rounded (entries : List RecordEntry) :
    sortEntries ((sortEntries (entries.map RecordEntry.rounded)).map RecordEntry.rounded) =
      sortEntries (entries.map RecordEntry.rounded) := by
  have h := sortEntries_again (fun _ => true) (fun _ => rfl) [] (fun _ he => absurd he List.not_mem_nil) entries
  simpa only [List.filter_true, List.append_nil] using h

/-- A record of rounded entries is as it is written. -/
theorem isCanonical_toRecord (userCardId : JsString) {sections : RecordSection → List RecordEntry}
    (h : ∀ name, (sections name).map RecordEntry.rounded = sections name) :
    IsCanonical (toRecord userCardId sections) := by
  have hagain : ∀ name, sortEntries ((sortEntries (sections name)).map RecordEntry.rounded) =
      sortEntries (sections name) := fun name => by
    rw [← h name]
    exact sortEntries_rounded _
  unfold IsCanonical toRecord canonical
  split_ifs
  · rfl
  · simp only [Option.map_some, hagain]

section Written

variable {server : Server} {v2 : UserCard} {input : ReplayInput} {s : CardStates}

theorem isCanonical_nextRecord (t : JsString × StoredTransaction) :
    IsCanonical (nextRecord server v2 input t) := by
  unfold nextRecord rebuiltRecord
  refine isCanonical_toRecord v2.userCardId fun name => ?_
  rw [List.map_map]
  exact List.map_congr_left fun e _ => e.rounded_rounded

theorem mem_recordUpdates {update : JsString × Option Record} :
    update ∈ (planReplay server v2 input).txnRecordUpdates ↔
      ∃ t ∈ input.ordered, t.1 ∉ input.excludeTxnIds ∧
        canonical (nextRecord server v2 input t) ≠ canonical t.2.cardStateV2 ∧
        update = (t.1, nextRecord server v2 input t) := by
  unfold planReplay recordUpdates
  dsimp only
  rw [List.mem_filterMap]
  constructor
  · rintro ⟨t, ht, hupdate⟩
    obtain ⟨hmem, hkept⟩ := List.mem_filter.mp ht
    split_ifs at hupdate with hsame
    exact ⟨t, hmem, of_decide_eq_true hkept, hsame, (Option.some.inj hupdate).symm⟩
  · rintro ⟨t, hmem, hkept, hsame, rfl⟩
    exact ⟨t, List.mem_filter.mpr ⟨hmem, decide_eq_true hkept⟩, if_neg hsame⟩

theorem nodup_recordUpdates (h : (input.ordered.map Prod.fst).Nodup) :
    ((planReplay server v2 input).txnRecordUpdates.map Prod.fst).Nodup := by
  have hsub : ∀ l : List (JsString × StoredTransaction), ((l.filterMap fun t =>
      if canonical (nextRecord server v2 input t) = canonical t.2.cardStateV2 then none
      else some (t.1, nextRecord server v2 input t)).map Prod.fst).Sublist (l.map Prod.fst) := by
    intro l
    induction l with
    | nil => exact .slnil
    | cons t l ih =>
      rw [List.filterMap_cons]
      split_ifs
      · exact ih.cons _
      · exact ih.cons_cons _
  exact ((hsub _).trans (List.filter_sublist.map Prod.fst)).nodup h

theorem nodup_expectedUpdates_planReplay (h : (input.ordered.map Prod.fst).Nodup) :
    ((planReplay server v2 input).txnExpectedUpdates.map ExpectedUpdate.id).Nodup := by
  show ((replayCaps server v2 input).expectedUpdates.map ExpectedUpdate.id).Nodup
  cases hcaps : input.range.caps with
  | none =>
    unfold replayCaps
    rw [hcaps]
    exact List.nodup_nil
  | some caps =>
    rw [replayCaps_eq hcaps]
    exact nodup_expectedUpdates h List.nodup_nil fun _ hu => absurd hu List.not_mem_nil

/-- The record of a transaction, after a plan is written. -/
theorem cardStateV2_rebuilt (hnodup : (input.ordered.map Prod.fst).Nodup)
    (hcanonical : ∀ t ∈ input.ordered, IsCanonical t.2.cardStateV2) {t : JsString × StoredTransaction}
    (ht : t ∈ input.ordered) :
    (rebuilt (planReplay server v2 input) t).2.cardStateV2 =
      if t.1 ∈ input.excludeTxnIds then t.2.cardStateV2 else nextRecord server v2 input t := by
  unfold rebuilt
  dsimp only
  cases hfind : (planReplay server v2 input).txnRecordUpdates.find? fun update => decide (update.1 = t.1) with
  | some update =>
    obtain ⟨t', ht', hkept, -, rfl⟩ := mem_recordUpdates.mp (List.mem_of_find?_eq_some hfind)
    have hid : t'.1 = t.1 := by simpa using List.find?_some hfind
    obtain rfl := List.inj_on_of_nodup_map hnodup ht' ht hid
    rw [if_neg hkept]
    rfl
  | none =>
    split_ifs with hexcluded
    · rfl
    · by_contra hne
      have hdiffers : canonical (nextRecord server v2 input t) ≠ canonical t.2.cardStateV2 := by
        rw [isCanonical_nextRecord, hcanonical t ht]
        exact fun heq => hne heq.symm
      exact List.find?_eq_none.mp hfind _ (mem_recordUpdates.mpr ⟨t, ht, hexcluded, hdiffers, rfl⟩)
        (decide_eq_true rfl)

variable (server v2) in
/-- A transaction out of the window is not replayed. -/
theorem rewritesCaps_eq_false {caps : CapRange} (hcaps : input.range.caps = some caps)
    (hnodup : (input.ordered.map Prod.fst).Nodup) {t : JsString × StoredTransaction}
    (ht : t ∈ input.ordered) (heligible : input.isEligible t = true)
    (hout : istDay t.2.occurredAt < caps.start ∨ caps.end < istDay t.2.occurredAt) :
    rewritesCaps server v2 input t = false := by
  have hnone : (replayCaps server v2 input).entries.get? t.1 = none := by
    by_contra hsome
    obtain ⟨t', ht', hid, -, hin⟩ :=
      (replayCaps_sound hcaps).spends t.1 (Option.isSome_iff_ne_none.mpr hsome)
    exact hin (List.inj_on_of_nodup_map hnodup ht' ht hid ▸ hout)
  unfold rewritesCaps
  rw [hnone, heligible]
  simp

theorem keepsSeed_planReplay {caps : CapRange} (hcaps : input.range.caps = some caps)
    (hnodup : (input.ordered.map Prod.fst).Nodup)
    (hcanonical : ∀ t ∈ input.ordered, IsCanonical t.2.cardStateV2) {t : JsString × StoredTransaction}
    (ht : t ∈ input.ordered) (heligible : input.isEligible t = true)
    (hout : istDay t.2.occurredAt < caps.start ∨ caps.end < istDay t.2.occurredAt) :
    KeepsSeed (planReplay server v2 input) t := by
  have hrewrites := rewritesCaps_eq_false server v2 hcaps hnodup ht heligible hout
  unfold KeepsSeed
  rw [cardStateV2_rebuilt hnodup hcanonical ht]
  split_ifs
  · rfl
  · have hentries := entries_nextRecord server v2 input t .caps
    unfold keepOf newOf at hentries
    dsimp only at hentries
    rw [hrewrites] at hentries
    have hwritten : t.2.cardStateV2.elim [] Record.caps =
        sortEntries ((t.2.cardStateV2.elim [] Record.caps).map RecordEntry.rounded) := by
      have h := congrArg (fun record : Option Record => record.elim [] Record.caps) (hcanonical t ht)
      cases hrecord : t.2.cardStateV2 with
      | none => rfl
      | some record =>
        rw [hrecord] at h
        exact h.symm
    rw [hwritten]
    simpa [Record.entries] using hentries

end Written

/-! ### The replay, after a plan is written -/

section Replayed

variable {server : Server} {v2 : UserCard} {input input' : ReplayInput} {s : CardStates}
  (halike : input.Alike input')
  (hordered : input'.ordered = input.ordered.map (rebuilt (planReplay server v2 input)))
  (hnodup : (input.ordered.map Prod.fst).Nodup)
  (hcanonical : ∀ t ∈ input.ordered, IsCanonical t.2.cardStateV2)
include halike hordered hnodup hcanonical

/-- The caps are replayed as before, and nothing else is expected. -/
theorem replayCaps_again :
    SameReplay (replayCaps server v2 input) (replayCaps server v2 input') ∧
      (replayCaps server v2 input').expectedUpdates = [] := by
  cases hcaps : input.range.caps with
  | none =>
    unfold replayCaps
    rw [halike.range, hcaps]
    exact ⟨⟨rfl, rfl⟩, rfl⟩
  | some caps =>
    have hcaps' : input'.range.caps = some caps := by rw [halike.range, hcaps]
    have hplan : (planReplay server v2 input).txnExpectedUpdates =
        (input.ordered.foldl (replayTransaction server v2 input caps)
          ⟨v2.slots input.range, .empty, []⟩).expectedUpdates := by
      rw [← replayCaps_eq hcaps]
      rfl
    rw [replayCaps_eq hcaps, replayCaps_eq hcaps', hordered, halike.range]
    exact run_again halike hnodup (fun _ hu => absurd hu List.not_mem_nil)
      (fun t ht heligible hout => keepsSeed_planReplay hcaps hnodup hcanonical ht heligible hout) hplan
      ⟨rfl, rfl⟩ rfl

theorem rewritesCaps_again (t : JsString × StoredTransaction) :
    rewritesCaps server v2 input' (rebuilt (planReplay server v2 input) t) =
      rewritesCaps server v2 input t := by
  have hsame := (replayCaps_again halike hordered hnodup hcanonical).1
  unfold rewritesCaps
  rw [halike.range, hsame.entries, isEligible_again halike]
  rfl

omit hnodup hcanonical in
theorem rewritesMilestones_again (t : JsString × StoredTransaction) :
    rewritesMilestones server v2 input' (rebuilt (planReplay server v2 input) t) =
      rewritesMilestones server v2 input t := by
  unfold rewritesMilestones
  rw [replayMilestones_again halike hordered, isEligible_again halike]
  rfl

theorem keepOf_again (t : JsString × StoredTransaction) (name : RecordSection) :
    keepOf server v2 input' (rebuilt (planReplay server v2 input) t) name = keepOf server v2 input t name := by
  have hsame := (replayCaps_again halike hordered hnodup hcanonical).1
  cases name with
  | caps =>
    unfold keepOf supersededCapEntry
    rw [rewritesCaps_again halike hordered hnodup hcanonical, hsame.rows, halike.range]
  | milestones =>
    unfold keepOf supersededMilestoneEntry
    rw [rewritesMilestones_again halike hordered, replayMilestones_again halike hordered, halike.range]
  | feeWaivers => rfl

theorem newOf_again (t : JsString × StoredTransaction) (name : RecordSection) :
    newOf server v2 input' (rebuilt (planReplay server v2 input) t) name = newOf server v2 input t name := by
  have hsame := (replayCaps_again halike hordered hnodup hcanonical).1
  cases name with
  | caps =>
    unfold newOf
    rw [rewritesCaps_again halike hordered hnodup hcanonical, hsame.entries, isEligible_again halike]
    rfl
  | milestones =>
    unfold newOf
    rw [rewritesMilestones_again halike hordered, replayMilestones_again halike hordered,
      isEligible_again halike]
    rfl
  | feeWaivers => rfl

/-- A record that is rewritten is rewritten to itself. -/
theorem nextRecord_again {t : JsString × StoredTransaction} (ht : t ∈ input.ordered) :
    nextRecord server v2 input' (rebuilt (planReplay server v2 input) t) = nextRecord server v2 input t := by
  unfold nextRecord rebuiltRecord
  refine toRecord_congr fun name => ?_
  rw [rebuiltSections_eq, rebuiltSections_eq, keepOf_again halike hordered hnodup hcanonical,
    newOf_again halike hordered hnodup hcanonical, cardStateV2_rebuilt hnodup hcanonical ht]
  split_ifs
  · rfl
  · rw [entries_nextRecord]
    exact sortEntries_again _ (keepOf_rounded server v2 input t name) _ (keepOf_newOf server v2 input t name) _

/-- No record is rewritten again. -/
theorem recordUpdates_again : (planReplay server v2 input').txnRecordUpdates = [] := by
  refine List.eq_nil_iff_forall_not_mem.mpr fun update hupdate => ?_
  obtain ⟨t', ht', hkept, hdiffers, -⟩ := mem_recordUpdates.mp hupdate
  rw [hordered] at ht'
  obtain ⟨t, ht, rfl⟩ := List.mem_map.mp ht'
  rw [halike.excludeTxnIds] at hkept
  refine hdiffers ?_
  rw [nextRecord_again halike hordered hnodup hcanonical ht, cardStateV2_rebuilt hnodup hcanonical ht]
  exact congrArg canonical (if_neg hkept).symm

end Replayed

end PandaPay.CardRewards
