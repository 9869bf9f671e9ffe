import Mathlib.Data.List.Sort
import PandaPay.Referrals.Engagement

/-!
# Streaks of days

The evaluation of days of `referral_rules.js`, which is to agree with the loop of `record_engagement_day`. A date in
text is its day.

## Main definitions

* `evaluateConsecutiveDates`, `hasQualifiedRun`: the functions of the source

## Main results

* `evaluateConsecutiveDates_eq`, `hasQualifiedRun_eq`: the loops agree
* `le_best_iff`: a streak of some length is a set of days in a row, in whatever order they were recorded
-/

namespace PandaPay.Referrals

/-! ### The rules of the API -/

/-- The variables of the loop of `evaluateConsecutiveDates`. -/
structure RunLoop where
  bestStreak : ℕ := 0
  run : ℕ := 0
  previous : Option Date := none

/-- The run that a day continues or begins. -/
def runOn (run : ℕ) (previous : Option Date) (day : Date) : ℕ :=
  match previous with
  | some previous => if day - previous = 1 then run + 1 else 1
  | none => 1

def RunLoop.step (loop : RunLoop) (day : Date) : RunLoop :=
  let run := runOn loop.run loop.previous day
  ⟨max loop.bestStreak run, run, some day⟩

/-- `[...new Set(dateValues)].sort()`. -/
def distinctDates (dateValues : List Date) : List Date := dateValues.dedup.insertionSort (· ≤ ·)

/-- What `evaluateConsecutiveDates` returns. -/
structure StreakEvaluation where
  currentStreak : ℕ
  bestStreak : ℕ
  latestActivityDate : Option Date
  deriving DecidableEq

/-- `evaluateConsecutiveDates(dateValues, localToday)`. -/
def evaluateConsecutiveDates (dateValues : List Date) (localToday : Date) : StreakEvaluation :=
  let dates := distinctDates dateValues
  let loop := dates.foldl RunLoop.step {}
  let latest := dates.getLast?
  let currentStreak :=
    match latest with
    | some latest =>
      let daysBehind := localToday - latest
      if daysBehind = 0 ∨ daysBehind = 1 then loop.run else 0
    | none => 0
  ⟨currentStreak, loop.bestStreak, latest⟩

/-- The loop of `hasQualifiedRun`. -/
def qualifiedRunFrom (requiredDays : ℕ) (run : ℕ) (previous : Option Date) : List Date → Bool
  | [] => false
  | day :: days =>
    let run := runOn run previous day
    if requiredDays ≤ run then true else qualifiedRunFrom requiredDays run (some day) days

/-- `hasQualifiedRun(dateValues, requiredDays)`, or a `RangeError`. -/
def hasQualifiedRun (dateValues : List Date) (requiredDays : ℕ) : Option Bool :=
  if requiredDays < 1 ∨ 30 < requiredDays then none
  else some (qualifiedRunFrom requiredDays 0 none (distinctDates dateValues))

/-! ### The loops agree -/

theorem behind_iff {today latest : ℤ} (h : latest ≤ today) :
    (today - latest = 0 ∨ today - latest = 1) ↔ today - 1 ≤ latest := by
  omega

theorem eq_add_one_of_lt {a b : ℤ} (h : a - 1 ≤ b) (hlt : b < a) : a = b + 1 := by
  omega

theorem sub_natCast_ne {a b : ℤ} (h : a < b) (i : ℕ) : a - i ≠ b := by
  omega

theorem runOn_eq (s : Streaks) (day : Date) : runOn s.run s.last day = (s.step day).run := by
  rw [Streaks.step]
  cases s.last with
  | none => rfl
  | some last =>
    by_cases h : day = last + 1
    · exact (if_pos (sub_eq_iff_eq_add'.mpr h)).trans (if_pos (decide_eq_true h)).symm
    · exact (if_neg (mt sub_eq_iff_eq_add'.mp h)).trans (if_neg (mt of_decide_eq_true h)).symm

theorem step_best (s : Streaks) (day : Date) : (s.step day).best = max s.best (s.step day).run := rfl

theorem foldl_runLoop (days : List Date) (s : Streaks) :
    days.foldl RunLoop.step ⟨s.best, s.run, s.last⟩ =
      ⟨(days.foldl Streaks.step s).best, (days.foldl Streaks.step s).run, (days.foldl Streaks.step s).last⟩ := by
  induction days generalizing s with
  | nil => rfl
  | cons day days ih =>
    have hstep : RunLoop.step ⟨s.best, s.run, s.last⟩ day =
        ⟨(s.step day).best, (s.step day).run, (s.step day).last⟩ := by
      rw [RunLoop.step]
      simp only [runOn_eq, step_best]
      rfl
    rw [List.foldl_cons, hstep, ih, List.foldl_cons]

theorem best_le_foldl (days : List Date) (s : Streaks) : s.best ≤ (days.foldl Streaks.step s).best := by
  induction days generalizing s with
  | nil => exact le_refl _
  | cons day days ih => exact (le_max_left _ _).trans (ih (s.step day))

theorem foldl_last (days : List Date) (s : Streaks) :
    (days.foldl Streaks.step s).last = days.getLast?.or s.last := by
  induction days generalizing s with
  | nil => rfl
  | cons day days ih =>
    rw [List.foldl_cons, ih]
    cases days with
    | nil => rfl
    | cons other days => rw [List.getLast?_cons_cons, List.getLast?_cons, Option.some_or, Option.some_or]

theorem streaks_last (days : List Date) : (streaks days).last = days.getLast? := by
  rw [streaks, foldl_last, Option.or_none]

/-- Whether there is a run depends on the best one. -/
theorem qualifiedRunFrom_iff (requiredDays : ℕ) (days : List Date) (s : Streaks) (hs : s.best < requiredDays) :
    qualifiedRunFrom requiredDays s.run s.last days = true ↔ requiredDays ≤ (days.foldl Streaks.step s).best := by
  induction days generalizing s with
  | nil => exact iff_of_false Bool.false_ne_true (not_le.mpr hs)
  | cons day days ih =>
    rw [qualifiedRunFrom, runOn_eq, List.foldl_cons]
    by_cases h : requiredDays ≤ (s.step day).run
    · have hbest : requiredDays ≤ (s.step day).best := h.trans (le_max_right _ _)
      exact iff_of_true (if_pos h) (hbest.trans (best_le_foldl days _))
    · have hbest : (s.step day).best < requiredDays := max_lt hs (not_le.mp h)
      simp only [if_neg h]
      exact ih (s.step day) hbest

/-- The best streak is that of the loop of the database. -/
theorem evaluateConsecutiveDates_bestStreak (dateValues : List Date) (localToday : Date) :
    (evaluateConsecutiveDates dateValues localToday).bestStreak = (streaks (distinctDates dateValues)).best := by
  have hloop := foldl_runLoop (distinctDates dateValues) ⟨none, 0, 0⟩
  exact congrArg RunLoop.bestStreak hloop

/-- The current streak is that of the loop of the database, if no day lies ahead. -/
theorem evaluateConsecutiveDates_currentStreak {dateValues : List Date} {localToday : Date}
    (h : ∀ day ∈ dateValues, day ≤ localToday) :
    (evaluateConsecutiveDates dateValues localToday).currentStreak =
      (streaks (distinctDates dateValues)).current localToday := by
  have hloop := congrArg RunLoop.run (foldl_runLoop (distinctDates dateValues) ⟨none, 0, 0⟩)
  rw [Streaks.current, streaks_last, evaluateConsecutiveDates]
  cases hlatest : (distinctDates dateValues).getLast? with
  | none => rfl
  | some latest =>
    have hmem : latest ∈ dateValues := by
      have := List.mem_of_getLast? hlatest
      rw [distinctDates, List.mem_insertionSort, List.mem_dedup] at this
      exact this
    have hle := h latest hmem
    simp only [Option.any_some, decide_eq_true_eq]
    by_cases hnear : localToday - 1 ≤ latest
    · rw [if_pos ((behind_iff hle).mpr hnear), if_pos hnear]
      exact hloop
    · rw [if_neg (mt (behind_iff hle).mp hnear), if_neg hnear]

/-- There is a run exactly if the best one is long enough. -/
theorem hasQualifiedRun_eq {dateValues : List Date} {requiredDays : ℕ} (h : 1 ≤ requiredDays ∧ requiredDays ≤ 30) :
    hasQualifiedRun dateValues requiredDays =
      some (decide (requiredDays ≤ (streaks (distinctDates dateValues)).best)) := by
  rw [hasQualifiedRun, if_neg (by omega)]
  have hrun := qualifiedRunFrom_iff requiredDays (distinctDates dateValues) ⟨none, 0, 0⟩
    (show 0 < requiredDays by omega)
  rw [Bool.eq_iff_iff.mpr (hrun.trans decide_eq_true_iff.symm)]
  rfl

/-! ### Days in a row -/

/-- So many days in a row, up to a day. -/
def RunTo (days : List Date) (day : Date) (n : ℕ) : Prop := ∀ i : ℕ, i < n → day - i ∈ days

/-- What the loop knows of the days behind it: the run is as long as it can be, and so is the best one. -/
structure Measures (days : List Date) (s : Streaks) : Prop where
  last : s.last = days.getLast?
  run : ∀ day ∈ s.last, ∀ n, n ≤ s.run ↔ RunTo days day n
  best : ∀ n, n ≤ s.best ↔ ∃ day, RunTo days day n

theorem runTo_zero (days : List Date) (day : Date) : RunTo days day 0 := fun _ h => absurd h (Nat.not_lt_zero _)

theorem runTo_succ {days : List Date} {day : Date} {n : ℕ} :
    RunTo days day (n + 1) ↔ day ∈ days ∧ RunTo days (day - 1) n := by
  constructor
  · refine fun h => ⟨by simpa using h 0 (by omega), fun i hi => ?_⟩
    have := h (i + 1) (by omega)
    rwa [Nat.cast_succ, add_comm, ← sub_sub] at this
  · rintro ⟨hday, hrest⟩ i hi
    cases i with
    | zero => simpa using hday
    | succ i =>
      have := hrest i (by omega)
      rwa [Nat.cast_succ, add_comm, ← sub_sub]

/-- A later day is part of no run up to an earlier one. -/
theorem runTo_append {days : List Date} {last day : Date} (hday : day < last) (n : ℕ) :
    RunTo (days ++ [last]) day n ↔ RunTo days day n := by
  refine forall₂_congr fun i hi => ?_
  rw [List.mem_append, List.mem_singleton, or_iff_left (sub_natCast_ne hday i)]

/-- A run of one day or more ends at one of the days. -/
theorem RunTo.mem {days : List Date} {day : Date} {n : ℕ} (h : RunTo days day (n + 1)) : day ∈ days :=
  (runTo_succ.mp h).1

theorem measures_nil : Measures [] ⟨none, 0, 0⟩ where
  last := rfl
  run := fun _ h => by cases h
  best n := by
    constructor
    · intro h
      rw [Nat.le_zero.mp h]
      exact ⟨0, runTo_zero _ _⟩
    · rintro ⟨day, hday⟩
      cases n with
      | zero => exact le_refl _
      | succ n => exact absurd hday.mem List.not_mem_nil

/-- In order, no day is later than the last one. -/
theorem exists_getLast? {days : List Date} (hsorted : days.Pairwise (· < ·)) {day : Date} (hday : day ∈ days) :
    ∃ last, days.getLast? = some last ∧ day ≤ last := by
  obtain ⟨last, hlast⟩ : ∃ last, days.getLast? = some last :=
    Option.isSome_iff_exists.mp (List.getLast?_isSome.mpr (List.ne_nil_of_mem hday))
  obtain ⟨init, rfl⟩ := List.getLast?_eq_some_iff.mp hlast
  refine ⟨last, hlast, ?_⟩
  rcases List.mem_append.mp hday with hday | hday
  · exact le_of_lt ((List.pairwise_append.mp hsorted).2.2 _ hday last (List.mem_singleton_self last))
  · exact le_of_eq (List.mem_singleton.mp hday)

/-- One more day, later than all others. -/
theorem Measures.step {days : List Date} {s : Streaks} (h : Measures days s) (hsorted : days.Pairwise (· < ·))
    {day : Date} (hday : ∀ d ∈ days, d < day) : Measures (days ++ [day]) (s.step day) := by
  have hmem : day ∈ days ++ [day] := List.mem_append_right days (List.mem_singleton_self day)
  have hrun : ∀ n, n ≤ (s.step day).run ↔ RunTo (days ++ [day]) day n := by
    intro n
    cases n with
    | zero => exact iff_of_true (Nat.zero_le _) (runTo_zero _ _)
    | succ n =>
      rw [runTo_succ, runTo_append (sub_one_lt day), and_iff_right hmem, Streaks.step]
      by_cases hnext : s.last.any (day = · + 1) = true
      · obtain ⟨last, hlast, heq⟩ := (Option.any_eq_true _ _).mp hnext
        have hprevious : day - 1 = last := sub_eq_iff_eq_add.mpr (of_decide_eq_true heq)
        simp only [if_pos hnext, Nat.add_le_add_iff_right]
        rw [hprevious]
        exact h.run last hlast n
      · simp only [if_neg hnext]
        cases n with
        | zero => exact iff_of_true (le_refl _) (runTo_zero _ _)
        | succ n =>
          refine iff_of_false (by omega) fun hn => hnext ?_
          -- the day before would be the last one
          obtain ⟨last, hlast, hmax⟩ := exists_getLast? hsorted hn.mem
          have hlt := hday last (List.mem_of_getLast? hlast)
          rw [h.last, hlast]
          exact decide_eq_true (eq_add_one_of_lt hmax hlt)
  refine ⟨?_, fun d hd => ?_, fun n => ?_⟩
  · rw [List.getLast?_append_of_ne_nil _ (List.cons_ne_nil _ _)]
    rfl
  · obtain rfl := Option.some.inj hd
    exact hrun
  · rw [step_best, le_max_iff, h.best, hrun]
    constructor
    · rintro (⟨d, hd⟩ | hd)
      · exact ⟨d, fun i hi => List.mem_append_left _ (hd i hi)⟩
      · exact ⟨day, hd⟩
    · rintro ⟨d, hd⟩
      cases n with
      | zero => exact .inl ⟨d, runTo_zero _ _⟩
      | succ n =>
        rcases List.mem_append.mp hd.mem with hin | hin
        · exact .inl ⟨d, (runTo_append (hday d hin) _).mp hd⟩
        · rw [List.mem_singleton.mp hin] at hd
          exact .inr hd

theorem measures_streaks {days : List Date} (h : days.Pairwise (· < ·)) : Measures days (streaks days) := by
  induction days using List.reverseRecOn with
  | nil => exact measures_nil
  | append_singleton days day ih =>
    obtain ⟨hdays, -, hlast⟩ := List.pairwise_append.mp h
    rw [streaks, List.foldl_append]
    exact (ih hdays).step hdays fun d hd => hlast d hd day (List.mem_singleton_self day)

theorem pairwise_distinctDates (dateValues : List Date) : (distinctDates dateValues).Pairwise (· < ·) := by
  have hsorted := List.pairwise_insertionSort (· ≤ ·) dateValues.dedup
  have hnodup : (distinctDates dateValues).Nodup :=
    (List.perm_insertionSort (· ≤ ·) dateValues.dedup).nodup_iff.mpr (List.nodup_dedup dateValues)
  exact (hsorted.and hnodup).imp fun ⟨hle, hne⟩ => lt_of_le_of_ne hle hne

theorem mem_distinctDates {dateValues : List Date} {day : Date} : day ∈ distinctDates dateValues ↔ day ∈ dateValues := by
  rw [distinctDates, List.mem_insertionSort, List.mem_dedup]

/-- A streak of some length is a set of days in a row. -/
theorem le_best_iff {dateValues : List Date} {n : ℕ} :
    n ≤ (streaks (distinctDates dateValues)).best ↔ ∃ day, RunTo dateValues day n := by
  rw [(measures_streaks (pairwise_distinctDates dateValues)).best]
  simp only [RunTo, mem_distinctDates]

/-- More days make no shorter streak. -/
theorem best_mono {days days' : List Date} (h : ∀ d ∈ days, d ∈ days') :
    (streaks (distinctDates days)).best ≤ (streaks (distinctDates days')).best := by
  obtain ⟨day, hday⟩ := le_best_iff.mp (le_refl (streaks (distinctDates days)).best)
  exact le_best_iff.mpr ⟨day, fun i hi => h _ (hday i hi)⟩

/-- While a day is today's or yesterday's, the current streak does not depend on today. -/
theorem current_eq_run {dateValues : List Date} {today day : Date} (hday : day ∈ dateValues) (hnear : today - 1 ≤ day) :
    (streaks (distinctDates dateValues)).current today = (streaks (distinctDates dateValues)).run := by
  obtain ⟨last, hlast, hle⟩ := exists_getLast? (pairwise_distinctDates dateValues) (mem_distinctDates.mpr hday)
  rw [Streaks.current, streaks_last, hlast]
  exact if_pos (decide_eq_true (hnear.trans hle))

theorem distinctDates_congr {days days' : List Date} (h : ∀ d, d ∈ days ↔ d ∈ days') :
    distinctDates days = distinctDates days' := by
  refine List.Perm.eq_of_pairwise' (pairwise_distinctDates days) (pairwise_distinctDates days') ?_
  refine (List.perm_ext_iff_of_nodup ?_ ?_).mpr fun d => ?_
  · exact (pairwise_distinctDates days).imp fun h => ne_of_lt h
  · exact (pairwise_distinctDates days').imp fun h => ne_of_lt h
  · rw [mem_distinctDates, mem_distinctDates, h]

end PandaPay.Referrals
