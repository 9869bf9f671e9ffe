import PandaPay.CardRewards.Recording.Again
import PandaPay.CardRewards.Recording.Live

/-!
# A rebuild that is repeated changes nothing

A plan is written, and the same range is planned again from what is stored then. The transactions are
replayed as before, so what is planned is what was written.

## Main results

* `milestoneRow_of_replay`: a rebuilt row of a milestone has the window of its milestone
* `rebuild_idempotent`: the plan that is made again
-/

namespace PandaPay.CardRewards

open CardStates

/-! ### Rows that are stored -/

section Stored

variable (v2 : UserCard) (s : CardStates)

/-- An update of a transaction leaves the rows. -/
theorem rows_updateTransaction (txnId : JsString) (f : StoredTransaction → StoredTransaction) :
    (s.updateTransaction txnId f).capStates = s.capStates ∧
      (s.updateTransaction txnId f).milestoneStates = s.milestoneStates := by
  unfold updateTransaction
  split
  · exact ⟨rfl, rfl⟩
  · exact ⟨rfl, rfl⟩

theorem rows_applyCardRebuild (plan : ReplayPlan) :
    (s.applyCardRebuild v2 plan).capStates =
        writeRows s.capStates plan.capRows plan.capDiff plan.capsToDelete ∧
      (s.applyCardRebuild v2 plan).milestoneStates =
        writeRows s.milestoneStates plan.milestoneRows plan.milestoneDiff plan.milestonesToDelete := by
  have hfold : ∀ {υ : Type} (step : CardStates → υ → CardStates),
      (∀ s u, (step s u).capStates = s.capStates ∧ (step s u).milestoneStates = s.milestoneStates) →
      ∀ (us : List υ) s, (us.foldl step s).capStates = s.capStates ∧
        (us.foldl step s).milestoneStates = s.milestoneStates := by
    intro υ step hstep us
    induction us with
    | nil => exact fun _ => ⟨rfl, rfl⟩
    | cons u us ih =>
      intro s
      have hrest := ih (step s u)
      exact ⟨hrest.1.trans (hstep s u).1, hrest.2.trans (hstep s u).2⟩
  unfold applyCardRebuild
  have hexpected := hfold (fun s update => s.setExpected v2 update)
    (fun s update => rows_updateTransaction s update.id _) plan.txnExpectedUpdates
  have hrecords := hfold (fun s (update : JsString × Option Record) =>
      s.updateTransaction update.1 fun txn => { txn with cardStateV2 := update.2 })
    (fun s update => rows_updateTransaction s update.1 _) plan.txnRecordUpdates
  exact ⟨(hexpected _).1.trans (hrecords _).1, (hexpected _).2.trans (hrecords _).2⟩

end Stored

/-! ### Rows that are planned -/

section Planned

variable {ρ : Type} {rows : InsertionMap RowKey ρ}

theorem nodup_planned {f : ρ → ρ} {p : RowKey × ρ → Bool} :
    (((rows.entries.map fun entry => (entry.1, f entry.2)).filter p).map Prod.fst).Nodup := by
  refine (List.filter_sublist.map Prod.fst).nodup ?_
  rw [List.map_map]
  exact rows.nodup_keys

theorem exists_row_of_planned {f : ρ → ρ} {p : RowKey × ρ → Bool} {planned : RowKey × ρ}
    (h : planned ∈ (rows.entries.map fun entry => (entry.1, f entry.2)).filter p) :
    ∃ row, rows.get? planned.1 = some row ∧ planned.2 = f row := by
  obtain ⟨entry, hentry, rfl⟩ := List.mem_map.mp (List.mem_of_mem_filter h)
  exact ⟨entry.2, InsertionMap.get?_eq_some_iff.mpr hentry, rfl⟩

/-- What a diff is about: the rows that moved, and those that changed. -/
theorem mem_map_diffOf {moved : List (RowKey × ρ)} {told : ρ → ℚ × Option CapKind}
    {changes : List (RowKey × Option ρ × Option ρ)} (k : RowKey) :
    k ∈ ((moved.map fun entry => (⟨entry.1, some (told entry.2), none⟩ : RowDiff)) ++
        changes.map (diffOf told)).map RowDiff.key ↔
      k ∈ moved.map Prod.fst ∨ ∃ change ∈ changes, change.1 = k := by
  simp [diffOf]

/-- Rows that are written are planned again as they are, and none is moved again. -/
theorem rows_again {table table' : InsertionMap RowKey ρ} {scope overlaps : RowKey → ρ → Bool}
    {same : ρ → ρ → Bool} {told : ρ → ℚ × Option CapKind} {planned moved : List (RowKey × ρ)}
    (hplanned : ∀ row ∈ planned, row.1 ∈ rows.keys ∧ scope row.1 row.2 = true)
    (hnodup : (planned.map Prod.fst).Nodup) (hsame : ∀ row, same row row = true)
    (hmoved : ∀ entry, entry ∈ moved ↔
      entry ∈ table.entries ∧ overlaps entry.1 entry.2 = true ∧ rows.get? entry.1 = none)
    (htable : table' = writeRows table planned
      ((moved.map fun entry => ⟨entry.1, some (told entry.2), none⟩) ++
        (changedRows rows.keys (lookupIn scope table) (entryAt planned) same).map (diffOf told))
      (moved.map Prod.fst ++ ((changedRows rows.keys (lookupIn scope table) (entryAt planned) same).filter
        fun change => change.2.1.isSome && change.2.2.isNone).map Prod.fst)) :
    changedRows rows.keys (lookupIn scope table') (entryAt planned) same = [] ∧
      ∀ entry ∈ table'.entries, overlaps entry.1 entry.2 = true → rows.get? entry.1 ≠ none := by
  subst htable
  constructor
  · refine changedRows_written hplanned hnodup (fun k hk => ?_) mem_map_diffOf hsame
    obtain ⟨entry, hentry, rfl⟩ := List.mem_map.mp hk
    exact InsertionMap.get?_eq_none_iff.mp ((hmoved entry).mp hentry).2.2
  · intro entry hentry hoverlaps hnone
    have hget := InsertionMap.get?_eq_some_iff.mpr hentry
    rw [get?_writeRows_of_notMem hplanned (InsertionMap.get?_eq_none_iff.mp hnone)] at hget
    split_ifs at hget with hgone
    have hstored := InsertionMap.get?_eq_some_iff.mp hget
    exact hgone (List.mem_map_of_mem ((hmoved entry).mpr ⟨hstored, hoverlaps, hnone⟩))

end Planned

/-! ### Rows of milestones -/

section Milestones

variable {server : Server} {v2 : UserCard} {input : ReplayInput}

/-- The windows of the milestones of a range: one for each, and none that is empty. -/
structure RebuildRange.Proper (range : RebuildRange) : Prop where
  nodup : (range.milestones.map MilestoneRange.id).Nodup
  le : ∀ window ∈ range.milestones, window.start ≤ window.end

/-- The ranges of a card are such: its milestones have distinct ids. -/
theorem rebuildRange_proper (v2 : UserCard) (options : RebuildOptions)
    (h : ∀ milestone ∈ v2.milestones, ∀ window,
      v2.milestoneWindowOn milestone (istDay options.asOf) = some window → window.start ≤ window.end) :
    (v2.rebuildRange options).Proper := by
  have hmilestones : (v2.rebuildRange options).milestones = if options.milestones then
      v2.milestones.filterMap fun milestone =>
        (v2.milestoneWindowOn milestone (istDay options.asOf)).map fun window => ⟨window, milestone.id⟩
      else [] := rfl
  cases hon : options.milestones with
  | true =>
    rw [hon, if_pos rfl] at hmilestones
    constructor
    · have hsub : ∀ milestones : List MilestoneRule, ((milestones.filterMap fun milestone =>
          (v2.milestoneWindowOn milestone (istDay options.asOf)).map fun window =>
            (⟨window, milestone.id⟩ : MilestoneRange)).map MilestoneRange.id).Sublist
          (milestones.map MilestoneRule.id) := by
        intro milestones
        induction milestones with
        | nil => exact .slnil
        | cons milestone milestones ih =>
          rw [List.filterMap_cons]
          cases v2.milestoneWindowOn milestone (istDay options.asOf) with
          | none => exact ih.cons _
          | some window => exact ih.cons_cons _
      rw [hmilestones]
      exact (hsub v2.milestones).nodup v2.nodup_milestones
    · intro window hwindow
      rw [hmilestones] at hwindow
      obtain ⟨milestone, hmilestone, hmap⟩ := List.mem_filterMap.mp hwindow
      obtain ⟨bounds, hbounds, rfl⟩ := Option.map_eq_some_iff.mp hmap
      exact h milestone hmilestone bounds hbounds
  | false =>
    rw [hon, if_neg Bool.false_ne_true] at hmilestones
    exact ⟨by rw [hmilestones]; exact List.nodup_nil, by rw [hmilestones]; nofun⟩

theorem milestoneWindowById_of_mem {range : RebuildRange} (h : range.Proper) {window : MilestoneRange}
    (hwindow : window ∈ range.milestones) : milestoneWindowById range window.id = some window :=
  get?_indexBy_of_mem hwindow fun _ hother hid => List.inj_on_of_nodup_map h.nodup hother hwindow hid

/-- A rebuilt row of a milestone has the window of its milestone. -/
theorem milestoneRow_of_replay {k : RowKey} {row : MilestoneState}
    (h : (replayMilestones server v2 input).rows.get? k = some row) :
    ∃ window ∈ input.range.milestones,
      k = ⟨v2.userCardId, window.id, window.start⟩ ∧ row.periodEnd = window.end := by
  let HasWindow (rows : InsertionMap RowKey MilestoneState) : Prop := ∀ k row, rows.get? k = some row →
    ∃ window ∈ input.range.milestones,
      k = ⟨v2.userCardId, window.id, window.start⟩ ∧ row.periodEnd = window.end
  have hslots : HasWindow (milestoneSlots v2 input.range) := by
    refine List.foldlRecOn input.range.milestones _ (motive := HasWindow) ?_ fun rows hrows window hwindow => ?_
    · intro k row hget
      rw [InsertionMap.get?_empty] at hget
      cases hget
    · intro k row hget
      rw [InsertionMap.get?_set] at hget
      split_ifs at hget with hk
      · obtain rfl := Option.some.inj hget
        exact ⟨window, hwindow, hk, rfl⟩
      · exact hrows k row hget
  have hadd : ∀ rows e, HasWindow rows → HasWindow (addMilestone v2 rows e) := by
    intro rows e hrows k row hget
    unfold addMilestone at hget
    split at hget
    · next before hbefore =>
      rw [InsertionMap.get?_set] at hget
      split_ifs at hget with hk
      · obtain rfl := Option.some.inj hget
        rw [hk]
        exact hrows _ before hbefore
      · exact hrows k row hget
    · exact hrows k row hget
  have hrun : HasWindow (replayMilestones server v2 input).rows := by
    unfold replayMilestones
    dsimp only
    split_ifs
    · exact hslots
    · refine List.foldlRecOn input.ordered _ (motive := fun replay : MilestoneReplay => HasWindow replay.rows)
        hslots fun replay hreplay t _ => ?_
      unfold replayMilestone
      split_ifs
      · exact hreplay
      · exact List.foldlRecOn _ _ (motive := HasWindow) hreplay fun rows hrows e _ => hadd rows e hrows
  exact hrun k row h

end Milestones

/-! ### The plan that is made again -/

/-- A plan that changes nothing. -/
structure ReplayPlan.ChangesNothing (plan : ReplayPlan) : Prop where
  capDiff : plan.capDiff = []
  milestoneDiff : plan.milestoneDiff = []
  capsToDelete : plan.capsToDelete = []
  milestonesToDelete : plan.milestonesToDelete = []
  txnRecordUpdates : plan.txnRecordUpdates = []
  txnExpectedUpdates : plan.txnExpectedUpdates = []

section Again

variable {server : Server} {v2 : UserCard} {input input' : ReplayInput} {s : CardStates}

theorem sameCap_self (row : CapState) : sameCap row row = true := by
  simp [sameCap, sameNumber_self]

theorem sameMilestone_self (row : MilestoneState) : sameMilestone row row = true := by
  simp [sameMilestone, sameNumber_self]

/-- A row of a cap overlaps the window of a rebuild. -/
def overlapsCaps (v2 : UserCard) (range : RebuildRange) (k : RowKey) (row : CapState) : Bool :=
  range.caps.any fun caps =>
    (v2.capById k.ruleId).isSome && k.periodStart ≤ caps.end && caps.start ≤ row.periodEnd

theorem mem_overlappingCaps {rows : InsertionMap RowKey CapState} {entry : RowKey × CapState} :
    entry ∈ overlappingCaps v2 input rows ↔ entry ∈ input.existingCapRows ∧
      overlapsCaps v2 input.range entry.1 entry.2 = true ∧ rows.get? entry.1 = none := by
  unfold overlappingCaps overlapsCaps
  rw [List.mem_filter]
  refine and_congr_right fun _ => ?_
  cases input.range.caps with
  | none => simp
  | some caps => simp only [Option.any_some, Bool.and_eq_true, Option.isNone_iff_eq_none]; tauto

/-- The rows of caps, planned again. -/
theorem capRows_again (hreads : input.Reads s) (halike : input.Alike input')
    (hreads' : input'.Reads (s.applyCardRebuild v2 (planReplay server v2 input)))
    (hrows : (replayCaps server v2 input').rows = (replayCaps server v2 input).rows) :
    overlappingCaps v2 input' (replayCaps server v2 input').rows = [] ∧
      changedRows (replayCaps server v2 input').rows.keys (entryAt input'.existingCapRows)
        (entryAt (plannedCaps (replayCaps server v2 input').rows)) sameCap = [] := by
  rw [hrows]
  have hscope : ∀ table : InsertionMap RowKey CapState, table.get? = lookupIn (fun _ _ => true) table :=
    fun table => funext fun k => by
      unfold lookupIn
      cases table.get? k <;> rfl
  have hexisting := (funext (entryAt_of_perm hreads.capRows)).trans (hscope s.capStates)
  have hexisting' := (funext (entryAt_of_perm hreads'.capRows)).trans (hscope _)
  have hplanned : ∀ row ∈ plannedCaps (replayCaps server v2 input).rows,
      row.1 ∈ (replayCaps server v2 input).rows.keys ∧ true = true := fun row hrow => by
    obtain ⟨before, hget, -⟩ := exists_row_of_planned hrow
    exact ⟨InsertionMap.mem_keys_of_get? hget, rfl⟩
  have hmoved : ∀ entry, entry ∈ overlappingCaps v2 input (replayCaps server v2 input).rows ↔
      entry ∈ s.capStates.entries ∧ overlapsCaps v2 input.range entry.1 entry.2 = true ∧
        (replayCaps server v2 input).rows.get? entry.1 = none := fun entry => by
    rw [mem_overlappingCaps, hreads.capRows.mem_iff]
  have hstored := hreads'.capRows
  have htable := (rows_applyCardRebuild v2 s (planReplay server v2 input)).1
  generalize (s.applyCardRebuild v2 (planReplay server v2 input)).capStates = stored
    at htable hstored hexisting'
  unfold planReplay at htable
  dsimp only at htable
  rw [hexisting] at htable
  obtain ⟨hchanged, hstays⟩ := rows_again hplanned nodup_planned sameCap_self hmoved htable
  refine ⟨List.eq_nil_iff_forall_not_mem.mpr fun entry hentry => ?_, ?_⟩
  · obtain ⟨hmem, hoverlaps, hnone⟩ := mem_overlappingCaps.mp hentry
    rw [halike.range] at hoverlaps
    exact hstays entry (hstored.mem_iff.mp hmem) hoverlaps hnone
  · rw [hexisting']
    exact hchanged

/-- A row of a milestone overlaps the window of a rebuild. -/
def overlapsMilestones (range : RebuildRange) (k : RowKey) (row : MilestoneState) : Bool :=
  (milestoneWindowById range k.ruleId).any fun window =>
    k.periodStart ≤ window.end && window.start ≤ row.periodEnd

theorem entryAt_overlappingMilestones (hreads : input.Reads s) :
    entryAt (overlappingMilestones input) = lookupIn (overlapsMilestones input.range) s.milestoneStates := by
  refine funext fun k => ?_
  have hperm : (overlappingMilestones input).Perm
      (s.milestoneStates.filter (overlapsMilestones input.range)).entries :=
    hreads.milestoneRows.filter _
  rw [entryAt_of_perm hperm, InsertionMap.get?_filter]
  rfl

/-- The rows of milestones, planned again. -/
theorem milestoneRows_again (hrange : input.range.Proper) (hreads : input.Reads s)
    (halike : input.Alike input')
    (hreads' : input'.Reads (s.applyCardRebuild v2 (planReplay server v2 input)))
    (hreplay : replayMilestones server v2 input' = replayMilestones server v2 input) :
    ((overlappingMilestones input').filter fun entry =>
        ((replayMilestones server v2 input').rows.get? entry.1).isNone) = [] ∧
      changedRows (replayMilestones server v2 input').rows.keys (entryAt (overlappingMilestones input'))
        (entryAt (plannedMilestones (replayMilestones server v2 input').rows)) sameMilestone = [] := by
  rw [hreplay]
  have hexisting := entryAt_overlappingMilestones hreads
  have hexisting' := entryAt_overlappingMilestones hreads'
  rw [halike.range] at hexisting'
  have hplanned : ∀ row ∈ plannedMilestones (replayMilestones server v2 input).rows,
      row.1 ∈ (replayMilestones server v2 input).rows.keys ∧
        overlapsMilestones input.range row.1 row.2 = true := fun row hrow => by
    obtain ⟨before, hget, hrow⟩ := exists_row_of_planned hrow
    obtain ⟨window, hwindow, hkey, hend⟩ := milestoneRow_of_replay hget
    refine ⟨InsertionMap.mem_keys_of_get? hget, ?_⟩
    have hperiodEnd : row.2.periodEnd = window.end := by
      rw [hrow]
      exact hend
    unfold overlapsMilestones
    rw [hkey, milestoneWindowById_of_mem hrange hwindow, hperiodEnd]
    simp [hrange.le window hwindow]
  have hmoved : ∀ entry, entry ∈ (overlappingMilestones input).filter (fun entry =>
        ((replayMilestones server v2 input).rows.get? entry.1).isNone) ↔
      entry ∈ s.milestoneStates.entries ∧ overlapsMilestones input.range entry.1 entry.2 = true ∧
        (replayMilestones server v2 input).rows.get? entry.1 = none := fun entry => by
    rw [List.mem_filter, Option.isNone_iff_eq_none, overlappingMilestones, List.mem_filter,
      hreads.milestoneRows.mem_iff, and_assoc]
    rfl
  have hstored := hreads'.milestoneRows
  have htable := (rows_applyCardRebuild v2 s (planReplay server v2 input)).2
  generalize (s.applyCardRebuild v2 (planReplay server v2 input)).milestoneStates = stored
    at htable hstored hexisting'
  unfold planReplay at htable
  dsimp only at htable
  rw [hexisting] at htable
  obtain ⟨hchanged, hstays⟩ := rows_again hplanned nodup_planned sameMilestone_self hmoved htable
  refine ⟨List.filter_eq_nil_iff.mpr fun entry hentry hnone => ?_, ?_⟩
  · obtain ⟨hmem, hoverlaps⟩ := List.mem_filter.mp hentry
    rw [halike.range] at hoverlaps
    exact hstays entry (hstored.mem_iff.mp hmem) hoverlaps
      (Option.isNone_iff_eq_none.mp hnone)
  · rw [hexisting']
    exact hchanged

/-- A plan is written and made again, for the same range: it changes nothing. -/
theorem rebuild_idempotent (hrange : input.range.Proper)
    (hcanonical : ∀ t ∈ input.transactions, IsCanonical t.2.cardStateV2)
    (hreads : input.Reads s) (halike : input.Alike input')
    (hreads' : input'.Reads (s.applyCardRebuild v2 (planReplay server v2 input))) :
    (planReplay server v2 input').ChangesNothing := by
  have hnodup := ReplayInput.nodup_ordered hreads
  have hcanonical : ∀ t ∈ input.ordered, IsCanonical t.2.cardStateV2 := fun t ht =>
    hcanonical t (input.ordered_perm.mem_iff.mp ht)
  have hordered := ReplayInput.ordered_again v2 hreads hreads' (nodup_recordUpdates hnodup)
    (nodup_expectedUpdates_planReplay hnodup)
  obtain ⟨hsame, hexpected⟩ := replayCaps_again halike hordered hnodup hcanonical
  obtain ⟨hmovedCaps, hchangedCaps⟩ := capRows_again hreads halike hreads' hsame.rows
  obtain ⟨hmovedMilestones, hchangedMilestones⟩ := milestoneRows_again hrange hreads halike hreads'
    (replayMilestones_again halike hordered)
  have hrecords := recordUpdates_again halike hordered hnodup hcanonical
  constructor
  · show _ ++ _ = []
    rw [hmovedCaps, hchangedCaps]
    rfl
  · show _ ++ _ = []
    rw [hmovedMilestones, hchangedMilestones]
    rfl
  · show _ ++ _ = []
    rw [hmovedCaps, hchangedCaps]
    rfl
  · show _ ++ _ = []
    rw [hmovedMilestones, hchangedMilestones]
    rfl
  · exact hrecords
  · exact hexpected

/-- What a plan is made from: all that is stored. -/
def inputOf (range : RebuildRange) (s : CardStates) : ReplayInput where
  range := range
  transactions := s.transactions.entries
  expected := true
  existingCapRows := s.capStates.entries
  existingMilestoneRows := s.milestoneStates.entries

theorem inputOf_reads (range : RebuildRange) (s : CardStates) : (inputOf range s).Reads s :=
  ⟨.refl _, .refl _, .refl _⟩

/-- A dinner is rebuilt twice. -/
theorem rebuild_idempotent_dinner :
    (planReplay plainServer tenPointsUserCard (inputOf (tenPointsUserCard.rebuildRange ⟨0, none, true, true, true, none⟩)
      (dinnerStates.applyCardRebuild tenPointsUserCard (planReplay plainServer tenPointsUserCard
        (inputOf (tenPointsUserCard.rebuildRange ⟨0, none, true, true, true, none⟩) dinnerStates))))).ChangesNothing := by
  refine rebuild_idempotent (rebuildRange_proper _ _ fun _ hmilestone => absurd hmilestone List.not_mem_nil)
    (fun t ht => ?_) (inputOf_reads _ dinnerStates) ⟨rfl, rfl, rfl⟩ (inputOf_reads _ _)
  rw [List.mem_singleton.mp ht]
  rfl

end Again

end PandaPay.CardRewards
