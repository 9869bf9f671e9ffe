import PandaPay.SmsV2.Instruments.ApplyFact

/-!
# Uploaded instruments

`mergeInstrument` of `storage.js`: an uploaded copy of an instrument merged into the stored one. Times are in
microseconds; `Date.parse` has them in milliseconds, so that of two times in one millisecond neither is later.

## Main definitions

* `mergeInstrument`
* `ServerFolds`: what several copies should make of an instrument
* `OneTimePerMillisecond`: no two times share the decisive millisecond

## Main results

* `instrument_facts_fold_iff`: phone and server end with the latest of what they are given, in any order, exactly
  where the decisive millisecond has one time
* `instrument_facts_fold_fails`: two balances of one millisecond
-/

namespace PandaPay.SmsV2

/-- `later(a, b)`. -/
def later (a b : ℤ) : Bool := b / 1000 < a / 1000

/-- `pickLatest(exVal, exAt, incVal, incAt)`: a missing value never wins. -/
def pickLatest (ex inc : Reading) : Reading :=
  if inc.minor = none then ex
  else if ex.minor = none then inc
  else if ex.at_.any fun exAt => inc.at_.all fun incAt => later exAt incAt then ex
  else inc

/-- The `limit` of `mergeInstrument`, with its source. -/
def mergeLimit (ex inc : InstrumentRecord) : Reading × Option CreditLimitSource :=
  let exUser := ex.creditLimitSource = some .user
  let incUser := inc.creditLimitSource = some .user
  -- a limit that the user entered is never overwritten by messages
  if ex.creditLimitMinor ≠ none ∧ exUser ∧ ¬ incUser then (ex.limit, ex.creditLimitSource)
  else if inc.creditLimitMinor ≠ none ∧ incUser ∧ ¬ exUser then (inc.limit, inc.creditLimitSource)
  else
    let latest := pickLatest ex.limit inc.limit
    (latest, if latest.minor = none then none
      else if latest.minor = inc.creditLimitMinor then inc.creditLimitSource else ex.creditLimitSource)

/-- `mergeInstrument(ex, inc)`. -/
def mergeInstrument (ex inc : InstrumentRecord) : InstrumentRecord :=
  let limit := mergeLimit ex inc
  let available := pickLatest ex.available inc.available
  let points := pickLatest ex.points inc.points
  { inc with
    status := if inc.status = .detected ∧ ex.status ≠ .detected then ex.status else inc.status
    creditLimitMinor := limit.1.minor
    creditLimitAt := limit.1.at_
    creditLimitSource := limit.2
    availableMinor := available.minor
    availableAt := available.at_
    pointsBalance := points.minor
    pointsAt := points.at_
    userCardId := inc.userCardId.or ex.userCardId
    parentInstrumentId := inc.parentInstrumentId.or ex.parentInstrumentId
    firstSeenAt := if later ex.firstSeenAt inc.firstSeenAt then inc.firstSeenAt else ex.firstSeenAt
    lastSeenAt := if later inc.lastSeenAt ex.lastSeenAt then inc.lastSeenAt else ex.lastSeenAt
    evidenceCount := max ex.evidenceCount inc.evidenceCount }

/-- The stored instrument after copies are uploaded one by one, the first of which is stored as it is. -/
def mergeAll (first : InstrumentRecord) (rest : List InstrumentRecord) : InstrumentRecord :=
  rest.foldl mergeInstrument first

/-! ### Milliseconds -/

/-- The time of a reading as `Date.parse` has it. -/
def Reading.millis (r : Reading) : WithBot ℤ := instant (r.at_.map (· / 1000))

/-- What limits go by on the server. -/
def LimitReading.millisRank (r : LimitReading) : Bool ×ₗ WithBot ℤ := toLex (r.byUser, r.millis)

theorem instant_le_instant {o p : Option ℤ} (h : instant o ≤ instant p) :
    instant (o.map (· / 1000)) ≤ instant (p.map (· / 1000)) := by
  cases o with
  | none => exact bot_le
  | some s =>
    cases p with
    | none => exact absurd (WithBot.bot_lt_coe s) (not_lt.mpr h)
    | some t => exact WithBot.coe_le_coe.mpr (Int.ediv_le_ediv (by norm_num) (WithBot.coe_le_coe.mp h))

theorem Reading.millis_le {a b : Reading} (h : a.time ≤ b.time) : a.millis ≤ b.millis := instant_le_instant h

theorem LimitReading.millisRank_le {a b : LimitReading} (h : a.rank ≤ b.rank) : a.millisRank ≤ b.millisRank := by
  rcases Prod.Lex.toLex_le_toLex.mp h with h | ⟨h, hle⟩
  · exact Prod.Lex.toLex_le_toLex.mpr (.inl h)
  · exact Prod.Lex.toLex_le_toLex.mpr (.inr ⟨h, Reading.millis_le hle⟩)

/-- A stored value is kept if it is later by whole milliseconds. -/
theorem millis_lt_iff {ex inc : Reading} : inc.millis < ex.millis ↔
    (ex.at_.any fun exAt => inc.at_.all fun incAt => later exAt incAt) = true := by
  rw [Reading.millis, Reading.millis]
  cases ex.at_ with
  | none => exact iff_of_false not_lt_bot Bool.false_ne_true
  | some exAt =>
    cases inc.at_ with
    | none => exact iff_of_true (WithBot.bot_lt_coe _) rfl
    | some incAt => exact WithBot.coe_lt_coe.trans decide_eq_true_iff.symm

/-- A reading with a value. -/
def Reading.present (r : Reading) : Option Reading := if r.minor = none then none else some r

theorem present_pickLatest (ex inc : Reading) :
    (pickLatest ex inc).present = lastOf Reading.millis ex.present inc.present := by
  rw [pickLatest]
  by_cases hinc : inc.minor = none
  · rw [if_pos hinc, Reading.present, Reading.present, if_pos hinc]
    exact (picks_lastOf.none_right _).symm
  · by_cases hex : ex.minor = none
    · rw [if_neg hinc, if_pos hex, Reading.present, Reading.present, if_pos hex]
      rfl
    · rw [if_neg hinc, if_neg hex]
      by_cases hlater : (ex.at_.any fun exAt => inc.at_.all fun incAt => later exAt incAt) = true
      · rw [if_pos hlater, Reading.present, Reading.present, if_neg hex, if_neg hinc]
        exact (if_pos (millis_lt_iff.mpr hlater)).symm
      · rw [if_neg hlater, Reading.present, Reading.present, if_neg hex, if_neg hinc]
        exact (if_neg (mt millis_lt_iff.mp hlater)).symm

section Merge

variable (ex inc : InstrumentRecord)

theorem available?_mergeInstrument :
    (mergeInstrument ex inc).available? = lastOf Reading.millis ex.available? inc.available? :=
  present_pickLatest ex.available inc.available

theorem points?_mergeInstrument :
    (mergeInstrument ex inc).points? = lastOf Reading.millis ex.points? inc.points? :=
  present_pickLatest ex.points inc.points

/-- The limit of a merge, by `mergeLimit`. -/
theorem limit?_mergeInstrument_eq {reading : Reading} {source : Option CreditLimitSource}
    (h : mergeLimit ex inc = (reading, source)) : (mergeInstrument ex inc).limit? =
      if reading.minor = none then none else some ⟨reading, source = some .user⟩ := by
  have hfst : (mergeInstrument ex inc).limit = (mergeLimit ex inc).1 := rfl
  have hminor : (mergeInstrument ex inc).creditLimitMinor = (mergeLimit ex inc).1.minor := rfl
  have hsource : (mergeInstrument ex inc).limitByUser = decide ((mergeLimit ex inc).2 = some .user) := rfl
  rw [InstrumentRecord.limit?, hfst, hminor]
  simp only [hsource, h]

/-- The latest of two limits of one kind, with its source. -/
theorem limit?_of_pickLatest (hkind : ex.creditLimitMinor = none ∨ inc.creditLimitMinor = none ∨
      ex.limitByUser = inc.limitByUser)
    (h : mergeLimit ex inc = (pickLatest ex.limit inc.limit,
      if (pickLatest ex.limit inc.limit).minor = none then none
      else if (pickLatest ex.limit inc.limit).minor = inc.creditLimitMinor then inc.creditLimitSource
      else ex.creditLimitSource)) :
    (mergeInstrument ex inc).limit? = lastOf LimitReading.millisRank ex.limit? inc.limit? := by
  rw [limit?_mergeInstrument_eq ex inc h]
  by_cases hinc : inc.creditLimitMinor = none
  · have hpick : pickLatest ex.limit inc.limit = ex.limit := if_pos hinc
    rw [hpick, InstrumentRecord.limit?, InstrumentRecord.limit?, if_pos hinc, picks_lastOf.none_right]
    by_cases hex : ex.creditLimitMinor = none
    · rw [if_pos hex, if_pos (show ex.limit.minor = none from hex)]
    · rw [if_neg hex, if_neg (show ex.limit.minor ≠ none from hex), if_neg (show ex.limit.minor ≠ none from hex),
        if_neg (show ex.limit.minor ≠ inc.creditLimitMinor from fun heq => hex (heq.trans hinc))]
      rfl
  · by_cases hex : ex.creditLimitMinor = none
    · have hpick : pickLatest ex.limit inc.limit = inc.limit := (if_neg hinc).trans (if_pos hex)
      rw [hpick, InstrumentRecord.limit?, InstrumentRecord.limit?, if_pos hex, picks_lastOf.none_left, if_neg hinc,
        if_neg (show inc.limit.minor ≠ none from hinc), if_neg (show inc.limit.minor ≠ none from hinc),
        if_pos (show inc.limit.minor = inc.creditLimitMinor from rfl)]
      rfl
    · have hsame : ex.limitByUser = inc.limitByUser := (hkind.resolve_left hex).resolve_left hinc
      have hrank : (⟨inc.limit, inc.limitByUser⟩ : LimitReading).millisRank <
          (⟨ex.limit, ex.limitByUser⟩ : LimitReading).millisRank ↔ inc.limit.millis < ex.limit.millis := by
        rw [LimitReading.millisRank, LimitReading.millisRank, Prod.Lex.toLex_lt_toLex, hsame]
        simp only [lt_self_iff_false, false_or, true_and]
      have hpick : pickLatest ex.limit inc.limit = if inc.limit.millis < ex.limit.millis then ex.limit else inc.limit := by
        refine ((if_neg hinc).trans (if_neg hex)).trans ?_
        simp only [millis_lt_iff]
      rw [InstrumentRecord.limit?, InstrumentRecord.limit?, if_neg hex, if_neg hinc, lastOf]
      by_cases hlt : inc.limit.millis < ex.limit.millis
      · rw [hpick, if_pos hlt, if_pos (hrank.mpr hlt), if_neg (show ex.limit.minor ≠ none from hex),
          if_neg (show ex.limit.minor ≠ none from hex)]
        split_ifs
        · exact congrArg (fun b => some (LimitReading.mk ex.limit b)) hsame.symm
        · rfl
      · rw [hpick, if_neg hlt, if_neg (mt hrank.mp hlt), if_neg (show inc.limit.minor ≠ none from hinc),
          if_neg (show inc.limit.minor ≠ none from hinc), if_pos (show inc.limit.minor = inc.creditLimitMinor from rfl)]
        rfl

theorem limit?_mergeInstrument :
    (mergeInstrument ex inc).limit? = lastOf LimitReading.millisRank ex.limit? inc.limit? := by
  by_cases hex : ex.creditLimitMinor ≠ none ∧ ex.creditLimitSource = some .user ∧ ¬ inc.creditLimitSource = some .user
  · rw [limit?_mergeInstrument_eq ex inc (if_pos hex), if_neg (show ex.limit.minor ≠ none from hex.1),
      InstrumentRecord.limit?, if_neg hex.1, InstrumentRecord.limit?]
    split_ifs with hinc
    · rfl
    · refine (if_pos (Prod.Lex.toLex_lt_toLex.mpr (.inl ?_))).symm
      rw [InstrumentRecord.limitByUser, InstrumentRecord.limitByUser, decide_eq_false hex.2.2, decide_eq_true hex.2.1]
      exact Bool.false_lt_true
  · by_cases hinc : inc.creditLimitMinor ≠ none ∧ inc.creditLimitSource = some .user ∧
        ¬ ex.creditLimitSource = some .user
    · rw [limit?_mergeInstrument_eq ex inc ((if_neg hex).trans (if_pos hinc)),
        if_neg (show inc.limit.minor ≠ none from hinc.1), InstrumentRecord.limit?, InstrumentRecord.limit?,
        if_neg hinc.1]
      split_ifs with hnone
      · rfl
      · refine (if_neg (not_lt.mpr (Prod.Lex.toLex_le_toLex.mpr (.inl ?_)))).symm
        rw [InstrumentRecord.limitByUser, InstrumentRecord.limitByUser, decide_eq_false hinc.2.2,
          decide_eq_true hinc.2.1]
        exact Bool.false_lt_true
    · refine limit?_of_pickLatest ex inc ?_ ((if_neg hex).trans (if_neg hinc))
      by_cases hnone : ex.creditLimitMinor = none
      · exact .inl hnone
      · by_cases hnone' : inc.creditLimitMinor = none
        · exact .inr (.inl hnone')
        · refine .inr (.inr ?_)
          rw [InstrumentRecord.limitByUser, InstrumentRecord.limitByUser, decide_eq_decide]
          by_contra hdiff
          tauto

theorem firstSeenAt_mergeInstrument : some (mergeInstrument ex inc).firstSeenAt =
    firstOf (fun t : ℤ => OrderDual.toDual (t / 1000)) (some ex.firstSeenAt) (some inc.firstSeenAt) := by
  by_cases h : later ex.firstSeenAt inc.firstSeenAt = true
  · exact (congrArg some (if_pos h)).trans (if_pos (OrderDual.toDual_lt_toDual.mpr (of_decide_eq_true h))).symm
  · exact (congrArg some (if_neg h)).trans
      (if_neg fun hlt => h (decide_eq_true (OrderDual.toDual_lt_toDual.mp hlt))).symm

theorem lastSeenAt_mergeInstrument : some (mergeInstrument ex inc).lastSeenAt =
    firstOf (fun t : ℤ => t / 1000) (some ex.lastSeenAt) (some inc.lastSeenAt) := by
  by_cases h : later inc.lastSeenAt ex.lastSeenAt = true
  · exact (congrArg some (if_pos h)).trans (if_pos (of_decide_eq_true h)).symm
  · exact (congrArg some (if_neg h)).trans (if_neg fun hlt => h (decide_eq_true hlt)).symm

end Merge

/-- A register of a merge goes through the copies one by one. -/
theorem mergeAll_register {α : Type*} (reg : InstrumentRecord → Option α) {pick : Option α → Option α → Option α}
    (h : ∀ ex inc, reg (mergeInstrument ex inc) = pick (reg ex) (reg inc)) (first : InstrumentRecord)
    (rest : List InstrumentRecord) : reg (mergeAll first rest) = (rest.map reg).foldl pick (reg first) := by
  rw [List.foldl_map, mergeAll]
  exact (List.foldl_hom reg fun ex inc => (h ex inc).symm).symm

/-! ### Several copies -/

/-- Copies agree on what they observed: at one time they have one value. -/
structure AgreeOnReadings (docs : List InstrumentRecord) : Prop where
  available : ∀ a ∈ docs.filterMap (·.available?), ∀ b ∈ docs.filterMap (·.available?), a.time = b.time → a = b
  points : ∀ a ∈ docs.filterMap (·.points?), ∀ b ∈ docs.filterMap (·.points?), a.time = b.time → a = b
  limit : ∀ a ∈ docs.filterMap (·.limit?), ∀ b ∈ docs.filterMap (·.limit?), a.rank = b.rank → a = b

/-- What several copies should make of an instrument: the latest of what they have. -/
structure ServerFolds (docs : List InstrumentRecord) (m : InstrumentRecord) : Prop where
  available : m.available? = newest Reading.time (docs.filterMap (·.available?))
  points : m.points? = newest Reading.time (docs.filterMap (·.points?))
  limit : m.limit? = newest LimitReading.rank (docs.filterMap (·.limit?))
  /-- Only a later limit of the user replaces one. -/
  userLimit : ∀ r ∈ docs.filterMap (·.limit?), r.byUser = true →
    ∃ s, m.limit? = some s ∧ s.byUser = true ∧ (s = r ∨ r.time < s.time)
  firstSeen : IsLeast {t | ∃ d ∈ docs, d.firstSeenAt = t} m.firstSeenAt
  lastSeen : IsGreatest {t | ∃ d ∈ docs, d.lastSeenAt = t} m.lastSeenAt

/-- The decisive millisecond has one time: of the latest readings, of the first and of the last time that the
instrument was seen. -/
structure OneTimePerMillisecond (docs : List InstrumentRecord) : Prop where
  available : OneAtTop Reading.millis Reading.time (docs.filterMap (·.available?))
  points : OneAtTop Reading.millis Reading.time (docs.filterMap (·.points?))
  limit : OneAtTop LimitReading.millisRank LimitReading.rank (docs.filterMap (·.limit?))
  firstSeen : OneAtTop (fun t : ℤ => OrderDual.toDual (t / 1000)) (fun t : ℤ => OrderDual.toDual t)
    (docs.map (·.firstSeenAt))
  lastSeen : OneAtTop (fun t : ℤ => t / 1000) id (docs.map (·.lastSeenAt))

section Seen

variable {docs : List InstrumentRecord} {first : InstrumentRecord} {rest : List InstrumentRecord}

theorem toDual_millis_le (a b : ℤ) (h : OrderDual.toDual a ≤ OrderDual.toDual b) :
    OrderDual.toDual (a / 1000) ≤ OrderDual.toDual (b / 1000) :=
  OrderDual.toDual_le_toDual.mpr (Int.ediv_le_ediv (by norm_num) (OrderDual.toDual_le_toDual.mp h))

theorem millis_le (a b : ℤ) (h : id a ≤ id b) : a / 1000 ≤ b / 1000 := Int.ediv_le_ediv (by norm_num) h

theorem firstSeenAt_mergeAll (first : InstrumentRecord) (rest : List InstrumentRecord) :
    some (mergeAll first rest).firstSeenAt = (rest.map fun d => some d.firstSeenAt).foldl
      (firstOf fun t : ℤ => OrderDual.toDual (t / 1000)) (some first.firstSeenAt) :=
  mergeAll_register (fun d => some d.firstSeenAt) firstSeenAt_mergeInstrument first rest

theorem lastSeenAt_mergeAll (first : InstrumentRecord) (rest : List InstrumentRecord) :
    some (mergeAll first rest).lastSeenAt = (rest.map fun d => some d.lastSeenAt).foldl
      (firstOf fun t : ℤ => t / 1000) (some first.lastSeenAt) :=
  mergeAll_register (fun d => some d.lastSeenAt) lastSeenAt_mergeInstrument first rest

/-- The newest time, turned around, is the least one. -/
theorem isLeast_iff_newest {t : ℤ} : IsLeast {t | ∃ d ∈ docs, d.firstSeenAt = t} t ↔
    some t = newest (fun t : ℤ => OrderDual.toDual t) (docs.filterMap fun d => some d.firstSeenAt) := by
  rw [eq_comm, newest_eq_some_iff fun a _ b _ h => OrderDual.toDual_inj.mp h, List.filterMap_eq_map']
  exact and_congr List.mem_map.symm (forall_congr' fun a => imp_congr List.mem_map.symm OrderDual.toDual_le_toDual.symm)

theorem isGreatest_iff_newest {t : ℤ} : IsGreatest {t | ∃ d ∈ docs, d.lastSeenAt = t} t ↔
    some t = newest id (docs.filterMap fun d => some d.lastSeenAt) := by
  have hnewest : newest id (docs.filterMap fun d => some d.lastSeenAt) = some t ↔
      t ∈ docs.filterMap (fun d => some d.lastSeenAt) ∧ ∀ a ∈ docs.filterMap (fun d => some d.lastSeenAt), id a ≤ id t :=
    newest_eq_some_iff fun a _ b _ h => h
  rw [eq_comm, hnewest, List.filterMap_eq_map']
  exact and_congr List.mem_map.symm (forall_congr' fun a => imp_congr List.mem_map.symm Iff.rfl)

end Seen

section Orders

variable {docs : List InstrumentRecord} (hagree : AgreeOnReadings docs)
include hagree

/-- The balance is the latest in every order exactly where the decisive millisecond has one time. -/
theorem available_orders_iff : (∀ first rest, (first :: rest).Perm docs →
      (mergeAll first rest).available? = newest Reading.time (docs.filterMap (·.available?))) ↔
    OneAtTop Reading.millis Reading.time (docs.filterMap (·.available?)) := by
  rw [← lastOf_orders_iff (fun _ _ => Reading.millis_le) hagree.available]
  simp only [mergeAll_register _ available?_mergeInstrument]

theorem points_orders_iff : (∀ first rest, (first :: rest).Perm docs →
      (mergeAll first rest).points? = newest Reading.time (docs.filterMap (·.points?))) ↔
    OneAtTop Reading.millis Reading.time (docs.filterMap (·.points?)) := by
  rw [← lastOf_orders_iff (fun _ _ => Reading.millis_le) hagree.points]
  simp only [mergeAll_register _ points?_mergeInstrument]

theorem limit_orders_iff : (∀ first rest, (first :: rest).Perm docs →
      (mergeAll first rest).limit? = newest LimitReading.rank (docs.filterMap (·.limit?))) ↔
    OneAtTop LimitReading.millisRank LimitReading.rank (docs.filterMap (·.limit?)) := by
  rw [← lastOf_orders_iff (fun _ _ => LimitReading.millisRank_le) hagree.limit]
  simp only [mergeAll_register _ limit?_mergeInstrument]

/-- Only a later limit of the user replaces one. -/
theorem limit_of_user {m : InstrumentRecord} (hm : m.limit? = newest LimitReading.rank (docs.filterMap (·.limit?)))
    {r : LimitReading} (hr : r ∈ docs.filterMap (·.limit?)) (huser : r.byUser = true) :
    ∃ s, m.limit? = some s ∧ s.byUser = true ∧ (s = r ∨ r.time < s.time) := by
  cases hnewest : newest LimitReading.rank (docs.filterMap (·.limit?)) with
  | none =>
    rw [newest_eq_none.mp hnewest] at hr
    exact absurd hr List.not_mem_nil
  | some s =>
    obtain ⟨hs, hmax⟩ := newest_eq_some hnewest
    refine ⟨s, hm.trans hnewest, ?_⟩
    rcases Prod.Lex.toLex_le_toLex.mp (hmax r hr) with hlt | ⟨heq, hle⟩
    · rw [huser] at hlt
      exact absurd hlt (not_lt.mpr (Bool.le_true s.byUser))
    · refine ⟨heq.symm.trans huser, ?_⟩
      rcases eq_or_lt_of_le hle with htime | htime
      · exact .inl (hagree.limit s hs r hr (congrArg toLex (Prod.ext heq.symm htime.symm)))
      · exact .inr htime

end Orders

theorem firstSeen_orders_iff {docs : List InstrumentRecord} : (∀ first rest, (first :: rest).Perm docs →
      IsLeast {t | ∃ d ∈ docs, d.firstSeenAt = t} (mergeAll first rest).firstSeenAt) ↔
    OneAtTop (fun t : ℤ => OrderDual.toDual (t / 1000)) (fun t : ℤ => OrderDual.toDual t)
      (docs.map (·.firstSeenAt)) := by
  rw [← List.filterMap_eq_map', ← firstOf_orders_iff toDual_millis_le fun a _ b _ h => OrderDual.toDual_inj.mp h]
  simp only [isLeast_iff_newest, firstSeenAt_mergeAll]

theorem lastSeen_orders_iff {docs : List InstrumentRecord} : (∀ first rest, (first :: rest).Perm docs →
      IsGreatest {t | ∃ d ∈ docs, d.lastSeenAt = t} (mergeAll first rest).lastSeenAt) ↔
    OneAtTop (fun t : ℤ => t / 1000) id (docs.map (·.lastSeenAt)) := by
  rw [← List.filterMap_eq_map', ← firstOf_orders_iff millis_le fun a _ b _ h => h]
  simp only [isGreatest_iff_newest, lastSeenAt_mergeAll]

/-- **Phone and server end with the latest observations, in any order, exactly where the decisive millisecond has
one time.** -/
theorem instrument_facts_fold_iff (toLowerCase : JsString → JsString) (update : InstrumentUpdate)
    (facts : List (InstrumentFact × Option JsString)) (hdistinct : DistinctTimes update.instrument facts)
    (docs : List InstrumentRecord) (hagree : AgreeOnReadings docs) :
    ((∀ facts', facts'.Perm facts →
        PhoneFolds update.instrument facts (applyFacts toLowerCase update facts').instrument) ∧
      ∀ first rest, (first :: rest).Perm docs → ServerFolds docs (mergeAll first rest)) ↔
    OneTimePerMillisecond docs := by
  refine ⟨fun ⟨_, hserver⟩ => ?_, fun hone => ⟨fun facts' => phoneFolds_of_perm toLowerCase update hdistinct, ?_⟩⟩
  · exact
      { available := (available_orders_iff hagree).mp fun first rest h => (hserver first rest h).available
        points := (points_orders_iff hagree).mp fun first rest h => (hserver first rest h).points
        limit := (limit_orders_iff hagree).mp fun first rest h => (hserver first rest h).limit
        firstSeen := firstSeen_orders_iff.mp fun first rest h => (hserver first rest h).firstSeen
        lastSeen := lastSeen_orders_iff.mp fun first rest h => (hserver first rest h).lastSeen }
  · intro first rest hperm
    have hlimit := (limit_orders_iff hagree).mpr hone.limit first rest hperm
    exact
      { available := (available_orders_iff hagree).mpr hone.available first rest hperm
        points := (points_orders_iff hagree).mpr hone.points first rest hperm
        limit := hlimit
        userLimit := fun r hr huser => limit_of_user hagree hlimit hr huser
        firstSeen := firstSeen_orders_iff.mpr hone.firstSeen first rest hperm
        lastSeen := lastSeen_orders_iff.mpr hone.lastSeen first rest hperm }

/-- A copy of an account with a balance. -/
def balanceCopy (minor : ℤ) (asOf : ℤ) : InstrumentRecord where
  instrumentId := js "account"
  kind := .bankAccount
  issuerSlug := js "hdfc"
  maskDigits := some (js "5678")
  status := .confirmed
  displayName := js "HDFC 5678"
  availableMinor := some minor
  availableAt := some asOf
  firstSeenAt := 1000000
  lastSeenAt := 1000000
  evidenceCount := 1

/-- Copies with different times agree. -/
theorem agreeOnReadings_balanceCopies {m n s t : ℤ} (h : s ≠ t) :
    AgreeOnReadings [balanceCopy m s, balanceCopy n t] where
  available a ha b hb heq := by
    have hreadings : [balanceCopy m s, balanceCopy n t].filterMap (·.available?) =
        [⟨some m, some s⟩, ⟨some n, some t⟩] := rfl
    rw [hreadings, List.mem_pair] at ha hb
    rcases ha with rfl | rfl <;> rcases hb with rfl | rfl
    · rfl
    · exact absurd (WithBot.coe_inj.mp heq) h
    · exact absurd (WithBot.coe_inj.mp heq).symm h
    · rfl
  points _ ha := absurd ha List.not_mem_nil
  limit _ ha := absurd ha List.not_mem_nil

/-- An account without facts. -/
theorem distinctTimes_nil (i : InstrumentRecord) : DistinctTimes i [] where
  available := List.nodup_singleton _
  points := List.nodup_singleton _
  limit := List.nodup_singleton _

/-- Two balances a second apart: the later one is kept in both orders. -/
theorem instrument_facts_fold_iff_seconds :
    ServerFolds [balanceCopy 50000 2000000, balanceCopy 70000 1000000]
      (mergeAll (balanceCopy 50000 2000000) [balanceCopy 70000 1000000]) := by
  refine ((instrument_facts_fold_iff id ⟨balanceCopy 50000 2000000, []⟩ [] (distinctTimes_nil _) _
    (agreeOnReadings_balanceCopies (by decide))).mpr ?_).2 _ _ (List.Perm.refl _)
  exact
    { available := fun a ha b hb _ heq => by
        have hreadings : [balanceCopy 50000 2000000, balanceCopy 70000 1000000].filterMap (·.available?) =
            [⟨some 50000, some 2000000⟩, ⟨some 70000, some 1000000⟩] := rfl
        rw [hreadings, List.mem_pair] at ha hb
        rcases ha with rfl | rfl <;> rcases hb with rfl | rfl
        · rfl
        · exact absurd heq (by decide)
        · exact absurd heq (by decide)
        · rfl
      points := fun a ha => absurd ha List.not_mem_nil
      limit := fun a ha => absurd ha List.not_mem_nil
      firstSeen := by
        have hseen : [balanceCopy 50000 2000000, balanceCopy 70000 1000000].map (·.firstSeenAt) =
            [1000000, 1000000] := rfl
        rw [hseen]
        intro a ha b hb _ _
        rw [List.mem_pair, or_self] at ha hb
        rw [ha, hb]
      lastSeen := by
        have hseen : [balanceCopy 50000 2000000, balanceCopy 70000 1000000].map (·.lastSeenAt) =
            [1000000, 1000000] := rfl
        rw [hseen]
        intro a ha b hb _ _
        rw [List.mem_pair, or_self] at ha hb
        rw [ha, hb] }

/-- Two balances half a millisecond apart: the earlier one, merged last, replaces the later one. -/
theorem instrument_facts_fold_fails :
    DistinctTimes (balanceCopy 50000 1000900) [] ∧
      AgreeOnReadings [balanceCopy 50000 1000900, balanceCopy 70000 1000400] ∧
      (mergeAll (balanceCopy 50000 1000900) [balanceCopy 70000 1000400]).available =
        ⟨some 70000, some 1000400⟩ ∧
      ¬ ServerFolds [balanceCopy 50000 1000900, balanceCopy 70000 1000400]
        (mergeAll (balanceCopy 50000 1000900) [balanceCopy 70000 1000400]) := by
  refine ⟨distinctTimes_nil _, agreeOnReadings_balanceCopies (by decide), by decide, fun h => ?_⟩
  have hnewest : newest Reading.time ([balanceCopy 50000 1000900, balanceCopy 70000 1000400].filterMap (·.available?)) =
      some ⟨some 50000, some 1000900⟩ := by decide
  have hmerged := h.available.trans hnewest
  exact absurd hmerged (by decide)

end PandaPay.SmsV2
