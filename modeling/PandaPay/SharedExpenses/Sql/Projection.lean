import PandaPay.SharedExpenses.Obligations
import PandaPay.SharedExpenses.Sql.Snapshot

/-!
# The projection of the database

`_project_snapshot` and `projectExpense` compute one function. The database lays the balances of the creditors and of
the debtors end to end along a line and joins them where their stretches overlap; the loop of `projectExpense` walks
along the same line with two pointers. They differ only in the ids they admit and in what they make of a currency
that is `null`.

## Main definitions

* `laid start rows`: amounts laid end to end from `start` on
* `loopEdges`: the edges of the two-pointer loop, with the points of the line they start at

## Main results

* `edgeIntervals_laid`: the overlaps of two laid lists are the edges of the loop, in its order
* `projectSnapshot_eq_ok`: what `_project_snapshot` has checked, and what it returns
* `projectSnapshot_iff_projectExpense`: it accepts what `projectExpense` accepts, with the same result
-/

namespace PandaPay.SharedExpenses.Sql

/-! ### Checks -/

/-- An object with exactly these keys passes in both. -/
theorem record_eq_ok_iff {value : Json} {keys : List String} {field : String} {u : Unit} :
    record value keys field = .ok u ↔ closed value keys = true := by
  cases value with
  | obj fields => simp [record, closed, failIf_eq_ok]
  | _ => simp [record, closed]

/-- A numeral of a number below `10 ^ (k + 1)` has at most `k + 1` digits. -/
theorem isNumeral_iff {k : ℕ} {s : JsString} (h : unsignedValue s < 10 ^ (k + 1)) :
    isNumeral k s = true ↔ isUnsigned s = true := by
  rw [isNumeral, Bool.and_eq_true, and_iff_left_iff_imp]
  intro hs
  rw [decide_eq_true_eq, ← decimal_unsignedValue hs]
  exact length_decimal_le (Nat.succ_pos k) h

theorem unsignedValue_eq_zero_iff {s : JsString} (h : isUnsigned s = true) : unsignedValue s = 0 ↔ s = js "0" := by
  constructor
  · intro hzero
    rw [← decimal_unsignedValue h, hzero]
    decide
  · rintro rfl
    decide

/-- An amount of at most `max` is a numeral of at most ten digits. -/
theorem amount_eq_ok_iff {value : Json} {field : String} {positive : Bool} {n : ℕ} :
    amount value field MAX_EXPENSE_MINOR positive = .ok n ↔
      ∃ s, value = .str s ∧ isNumeral 9 s = true ∧ (positive = true → s ≠ js "0") ∧
        unsignedValue s ≤ 1000000000 ∧ unsignedValue s = n := by
  rw [amount_eq_ok]
  refine exists_congr fun s => and_congr_right fun _ => ?_
  constructor
  · rintro ⟨-, hs, rfl, hpositive, hmax⟩
    have hlt : unsignedValue s < 10 ^ (9 + 1) := lt_of_le_of_lt hmax (by decide)
    refine ⟨(isNumeral_iff hlt).mpr hs, fun hp hzero => ?_, hmax, rfl⟩
    exact hpositive hp ((unsignedValue_eq_zero_iff hs).mpr hzero)
  · rintro ⟨hs, hpositive, hmax, rfl⟩
    have hlt : unsignedValue s < 10 ^ (9 + 1) := lt_of_le_of_lt hmax (by decide)
    obtain ⟨hunsigned, hlength⟩ := (Bool.and_eq_true _ _).mp hs
    refine ⟨?_, hunsigned, rfl, fun hp hzero => ?_, hmax⟩
    · have hlength := of_decide_eq_true hlength
      omega
    · exact hpositive hp ((unsignedValue_eq_zero_iff hunsigned).mp hzero)

/-- The grammar of a `uuid` is narrower than that of a member id. -/
theorem isMember_of_isUuid {s : JsString} (h : isUuid s = true) : isMember s = true := by
  rw [isUuid, Bool.and_eq_true, decide_eq_true_eq] at h
  obtain ⟨hlength, hall⟩ := h
  have hat : ∀ c ∈ s.zipIdx, (if c.2 ∈ [8, 13, 18, 23] then decide (c.1.val = 45) else isHexDigit c.1) = true :=
    List.all_eq_true.mp hall
  cases s with
  | nil => simp at hlength
  | cons c cs =>
    have hhex : ∀ d : CodeUnit, isHexDigit d = true → isAlphanumeric d = true := by
      intro d hd
      simp only [isHexDigit, isDigit, Bool.or_eq_true, decide_eq_true_eq] at hd
      simp only [isAlphanumeric, isDigit, decide_eq_true_eq]
      omega
    have hfirst : isAlphanumeric c = true := hhex c (by simpa using hat (c, 0) (by simp))
    have hrest : ∀ d ∈ cs, (isAlphanumeric d || decide (d.val = 95) || decide (d.val = 45)) = true := by
      intro d hd
      obtain ⟨i, hi, rfl⟩ := List.mem_iff_getElem.mp hd
      have hd := hat (cs[i], i + 1) (by
        rw [List.mem_zipIdx_iff_getElem?]
        simp [hi])
      simp only at hd
      split at hd
      · rw [hd, Bool.or_true]
      · rw [hhex _ hd, Bool.true_or, Bool.true_or]
    rw [isMember, isMemberName, hfirst, Bool.true_and, Bool.and_eq_true]
    exact ⟨decide_eq_true (by omega), List.all_eq_true.mpr hrest⟩

/-! ### Rows -/

theorem snapshotRow_eq_ok {row : Json} {field field' : String} {id : JsString} {n : ℕ} :
    snapshotRow row = .ok (id, n) ↔ record row ["memberId", "amountMinor"] field = .ok () ∧
      row.get "memberId" = .str id ∧ isUuid id = true ∧ amount (row.get "amountMinor") field' = .ok n := by
  rw [record_eq_ok_iff, amount_eq_ok_iff, snapshotRow, failIf_bind_eq_ok, Bool.not_eq_false]
  apply and_congr_right
  intro _
  cases row.get "memberId" with
  | str s =>
    cases row.get "amountMinor" with
    | str t =>
      simp only [↓failIf_bind_eq_ok, pure_eq_ok, Except.ok.injEq, Prod.mk.injEq, Json.str.injEq,
        Bool.not_eq_false, not_lt, gt_iff_lt]
      constructor
      · rintro ⟨huuid, hnumeral, hmax, rfl, rfl⟩
        exact ⟨rfl, huuid, t, rfl, hnumeral, by simp, hmax, rfl⟩
      · rintro ⟨rfl, huuid, _, rfl, hnumeral, -, hmax, rfl⟩
        exact ⟨huuid, hnumeral, hmax, rfl, rfl⟩
    | _ => simp
  | _ => simp

/-- A money row is a row of the database when its id is a `uuid`. -/
theorem moneyRow_iff {field : String} {m m' : InsertionMap JsString ℕ} {row : Json} {index : ℕ} :
    (moneyRow field m (row, index) = .ok m' ∧ ∀ id ∈ m'.keys, id ∈ m.keys ∨ isUuid id = true) ↔
      ∃ id n, snapshotRow row = .ok (id, n) ∧ id ∉ m.keys ∧ m' = m.set id n := by
  simp only [moneyRow, ↓failIf_bind_eq_ok, bind_eq_ok, pure_eq_ok, Except.ok.injEq]
  constructor
  · rintro ⟨⟨⟨⟩, hrecord, id, hid, hnew, n, hn, rfl⟩, huuid⟩
    have hid' : isUuid id = true := by
      rcases huuid id (InsertionMap.mem_keys_set.mpr (.inl rfl)) with hmem | huuid
      · exact absurd hmem hnew
      · exact huuid
    exact ⟨id, n, snapshotRow_eq_ok.mpr ⟨hrecord, (member_eq_ok.mp hid).1, hid', hn⟩, hnew, rfl⟩
  · rintro ⟨id, n, hrow, hnew, rfl⟩
    obtain ⟨hrecord, hid, huuid, hn⟩ := snapshotRow_eq_ok.mp hrow
    refine ⟨⟨(), hrecord, id, member_eq_ok.mpr ⟨hid, isMember_of_isUuid huuid⟩, hnew, n, hn, rfl⟩, fun j hj => ?_⟩
    rcases InsertionMap.mem_keys_set.mp hj with rfl | hj
    · exact .inr huuid
    · exact .inl hj

theorem mapM_cons_eq_ok {ε α β : Type} {f : α → Except ε β} {a : α} {l : List α} {bs : List β} :
    (a :: l).mapM f = .ok bs ↔ ∃ b rest, f a = .ok b ∧ l.mapM f = .ok rest ∧ bs = b :: rest := by
  simp only [List.mapM_cons, bind_eq_ok, pure_eq_ok, Except.ok.injEq, eq_comm (b := bs)]
  constructor
  · rintro ⟨b, hb, rest, hrest, rfl⟩
    exact ⟨b, rest, hb, hrest, rfl⟩
  · rintro ⟨b, rest, hb, hrest, rfl⟩
    exact ⟨b, hb, rest, hrest, rfl⟩

/-- The loop over the money rows adds the rows of the database, when its ids are `uuid`s. -/
theorem foldlM_moneyRow_iff {field : String} {items : List Json} {start : ℕ} {m m' : InsertionMap JsString ℕ} :
    ((items.zipIdx start).foldlM (moneyRow field) m = .ok m' ∧
      ∀ id ∈ m'.keys, id ∈ m.keys ∨ isUuid id = true) ↔
      ∃ rows, items.mapM snapshotRow = .ok rows ∧ m'.entries = m.entries ++ rows := by
  induction items generalizing start m with
  | nil =>
    simp only [List.zipIdx_nil, List.foldlM_nil, pure_eq_ok, Except.ok.injEq, List.mapM_nil]
    constructor
    · rintro ⟨rfl, -⟩
      exact ⟨[], rfl, by simp⟩
    · rintro ⟨rows, rfl, hentries⟩
      have hsame : m = m' := InsertionMap.ext (by simp [hentries])
      exact ⟨hsame, fun id hid => .inl (hsame ▸ hid)⟩
  | cons row items ih =>
    simp only [List.zipIdx_cons, List.foldlM_cons, bind_eq_ok, mapM_cons_eq_ok]
    constructor
    · rintro ⟨⟨m₁, hrow, hrest⟩, huuid⟩
      obtain ⟨hnew, hset⟩ := moneyRow_eq_set hrow
      -- the ids of the rest are those of the whole
      have hkeys : ∀ id ∈ m₁.keys, id ∈ m'.keys := by
        intro id hid
        have hentries := entries_of_foldlM_set (fun e : Json × ℕ => stringOf (e.1.get "memberId"))
          (fun e => bigInt (e.1.get "amountMinor")) (fun _ _ _ _ => moneyRow_eq_set) hrest
        rw [InsertionMap.keys, hentries, List.map_append]
        exact List.mem_append_left _ hid
      obtain ⟨rest, hmapM, hentries⟩ := ih.mp ⟨hrest, fun id hid => (huuid id hid).imp_left fun hmem => by
        rw [hset]
        exact InsertionMap.mem_keys_set.mpr (.inr hmem)⟩
      obtain ⟨id, n, hsnapshot, hnew', rfl⟩ :=
        moneyRow_iff.mp ⟨hrow, fun id hid => huuid id (hkeys id hid)⟩
      refine ⟨(id, n) :: rest, ⟨(id, n), rest, hsnapshot, hmapM, rfl⟩, ?_⟩
      rw [hentries, InsertionMap.entries_set_of_notMem _ hnew', List.append_assoc, List.singleton_append]
    · rintro ⟨-, ⟨⟨id, n⟩, rest, hsnapshot, hmapM, rfl⟩, hentries⟩
      have hnew : id ∉ m.keys := by
        intro hmem
        have hnodup := m'.nodup_keys
        rw [hentries, List.map_append, List.map_cons] at hnodup
        exact (List.nodup_append.mp hnodup).2.2 id hmem id List.mem_cons_self rfl
      obtain ⟨hrow, huuid⟩ := (@moneyRow_iff field m _ row start).mpr ⟨id, n, hsnapshot, hnew, rfl⟩
      obtain ⟨hrest, huuid'⟩ := (@ih (start + 1) (m.set id n)).mpr ⟨rest, hmapM, by
        rw [hentries, InsertionMap.entries_set_of_notMem _ hnew, List.append_assoc, List.singleton_append]⟩
      refine ⟨⟨_, hrow, hrest⟩, fun j hj => ?_⟩
      rcases huuid' j hj with hj | hj
      · exact huuid j hj
      · exact .inr hj

theorem arrayBetween_eq_ok {value : Json} {low high : ℕ} {e : SqlError} {items : List Json} :
    arrayBetween value low high e = .ok items ↔
      value = .arr items ∧ low ≤ items.length ∧ items.length ≤ high := by
  cases value with
  | arr xs =>
    simp only [arrayBetween, ↓failIf_bind_eq_ok, pure_eq_ok, Except.ok.injEq, not_or, not_lt, Json.arr.injEq,
      gt_iff_lt]
    constructor
    · rintro ⟨h, rfl⟩
      exact ⟨rfl, h⟩
    · rintro ⟨rfl, h⟩
      exact ⟨h, rfl⟩
  | _ => simp [arrayBetween]

/-- The money rows of `projectExpense` are the rows of the database, when their ids are `uuid`s. -/
theorem moneyRows_iff (field : String) (code : ErrorCode) {value : Json} {max : ℕ} {e : SqlError}
    {m : InsertionMap JsString ℕ} :
    (moneyRows value field max code = .ok m ∧ ∀ id ∈ m.keys, isUuid id = true) ↔
      ∃ items, arrayBetween value 1 max e = .ok items ∧ items.mapM snapshotRow = .ok m.entries := by
  have hfold : ∀ items : List Json, (items.zipIdx.foldlM (moneyRow field) .empty = .ok m ∧
      ∀ id ∈ m.keys, isUuid id = true) ↔ items.mapM snapshotRow = .ok m.entries := by
    intro items
    have h := @foldlM_moneyRow_iff field items 0 .empty m
    simp only [InsertionMap.keys_empty, List.not_mem_nil, false_or, InsertionMap.entries_empty,
      List.nil_append] at h
    rw [h]
    constructor
    · rintro ⟨rows, hrows, rfl⟩
      exact hrows
    · intro hrows
      exact ⟨_, hrows, rfl⟩
  simp only [moneyRows, bind_eq_ok, count_eq_ok, arrayBetween_eq_ok]
  constructor
  · rintro ⟨⟨-, ⟨items, rfl, hlow, hhigh⟩, hrows⟩, huuid⟩
    exact ⟨items, ⟨rfl, hlow, hhigh⟩, (hfold items).mp ⟨hrows, huuid⟩⟩
  · rintro ⟨items, ⟨rfl, hlow, hhigh⟩, hrows⟩
    obtain ⟨hfold, huuid⟩ := (hfold items).mpr hrows
    exact ⟨⟨(), ⟨items, rfl, hlow, hhigh⟩, hfold⟩, huuid⟩

/-! ### The line -/

/-- Amounts laid end to end from `start` on. -/
def laid (start : ℤ) : List (JsString × ℤ) → List Interval
  | [] => []
  | row :: rows => ⟨row.1, start, start + row.2⟩ :: laid (start + row.2) rows

/-- The edges of the two-pointer loop, with the points of the line they start at. -/
def loopEdges : ℕ → ℤ → List (JsString × ℤ) → List (JsString × ℤ) → List EdgeInterval
  | passes + 1, start, debit :: debtors, credit :: creditors =>
    let amount := if debit.2 < credit.2 then debit.2 else credit.2
    ⟨debit.1, credit.1, start, amount⟩ :: loopEdges passes (start + amount)
      (payFirst amount debit debtors) (payFirst amount credit creditors)
  | _, _, _, _ => []

/-- Where two stretches overlap. -/
def overlap (d c : Interval) : Option EdgeInterval :=
  if min d.endAt c.endAt > max d.startAt c.startAt then
    some ⟨d.id, c.id, max d.startAt c.startAt, min d.endAt c.endAt - max d.startAt c.startAt⟩
  else none

theorem edgeIntervals_eq (debtors creditors : List Interval) :
    edgeIntervals debtors creditors = debtors.flatMap fun d => creditors.filterMap (overlap d) := rfl

/-- Rows in the order of their ranks are laid end to end by the running sums over the ranks. -/
theorem intervals_eq_laid {amount : OrderedRow → ℤ} {rows : List OrderedRow}
    (h : rows.Pairwise fun a b => a.rank < b.rank) :
    intervals amount rows = laid 0 (rows.map fun row => (row.id, amount row)) := by
  -- the rows before the first have been laid already
  have hsplit : ∀ before rest : List OrderedRow, before ++ rest = rows →
      (rest.map fun row => (⟨row.id, runningSum OrderedRow.rank amount rows row - amount row,
        runningSum OrderedRow.rank amount rows row⟩ : Interval)) =
      laid (before.map amount).sum (rest.map fun row => (row.id, amount row)) := by
    intro before rest
    induction rest generalizing before with
    | nil =>
      intro _
      rfl
    | cons row rest ih =>
      intro hrows
      have hsum : runningSum OrderedRow.rank amount rows row = (before.map amount).sum + amount row := by
        rw [← hrows] at h ⊢
        exact runningSum_of_pairwise h
      have hrest := ih (before ++ [row]) (by rw [← hrows, List.append_assoc, List.singleton_append])
      rw [List.map_append, List.sum_append, List.map_singleton, List.sum_singleton] at hrest
      rw [List.map_cons, List.map_cons, laid, hsum, hrest, add_sub_cancel_right]
  exact hsplit [] rows rfl

section Overlap

variable {rows debtors creditors : List (JsString × ℤ)} {start amount : ℤ} {row debit credit : JsString × ℤ}

/-- A stretch that is laid from `start` on does not begin before. -/
theorem le_startAt_of_mem_laid (h : ∀ row ∈ rows, 0 < row.2) {i : Interval} (hi : i ∈ laid start rows) :
    start ≤ i.startAt := by
  induction rows generalizing start with
  | nil => cases hi
  | cons row rows ih =>
    have hrow := h row List.mem_cons_self
    rcases List.mem_cons.mp hi with rfl | hi
    · exact le_rfl
    · exact (le_add_of_nonneg_right hrow.le).trans (ih (fun r hr => h r (List.mem_cons_of_mem _ hr)) hi)

/-- A stretch and what is left of it overlap the same, behind the part that was cut off. -/
theorem overlap_cut {id : JsString} {cut endAt : ℤ} (hcut : start ≤ cut) {i : Interval} (hi : cut ≤ i.startAt) :
    overlap ⟨id, start, endAt⟩ i = overlap ⟨id, cut, endAt⟩ i ∧
      overlap i ⟨id, start, endAt⟩ = overlap i ⟨id, cut, endAt⟩ := by
  have hmax : max start i.startAt = max cut i.startAt := by omega
  have hmax' : max i.startAt start = max i.startAt cut := by omega
  simp only [overlap, hmax, hmax', and_self]

theorem overlap_eq_none {d c : Interval} (h : d.endAt ≤ d.startAt ∨ c.endAt ≤ c.startAt) : overlap d c = none := by
  rw [overlap, if_neg]
  omega

/-- Once part of the first row is paid, its stretch begins later; an empty stretch overlaps nothing. -/
theorem edgeIntervals_payFirst (is : List Interval) :
    edgeIntervals (laid (start + amount) (payFirst amount row rows)) is =
        edgeIntervals (⟨row.1, start + amount, start + row.2⟩ :: laid (start + row.2) rows) is ∧
      edgeIntervals is (laid (start + amount) (payFirst amount row rows)) =
        edgeIntervals is (⟨row.1, start + amount, start + row.2⟩ :: laid (start + row.2) rows) := by
  rw [payFirst]
  by_cases hclosed : row.2 - amount = 0
  · have hamount : row.2 = amount := sub_eq_zero.mp hclosed
    have hnone : ∀ i : Interval, overlap ⟨row.1, start + amount, start + amount⟩ i = none ∧
        overlap i ⟨row.1, start + amount, start + amount⟩ = none := fun i =>
      ⟨overlap_eq_none (.inl le_rfl), overlap_eq_none (.inr le_rfl)⟩
    rw [if_pos hclosed, hamount]
    constructor
    · have hempty : is.filterMap (overlap ⟨row.1, start + amount, start + amount⟩) = [] :=
        List.filterMap_eq_nil_iff.mpr fun i _ => (hnone i).1
      rw [edgeIntervals_eq, edgeIntervals_eq, List.flatMap_cons, hempty, List.nil_append]
    · rw [edgeIntervals_eq, edgeIntervals_eq]
      congr 1
      funext i
      rw [List.filterMap_cons, (hnone i).2]
  · rw [if_neg hclosed, laid, add_assoc, add_sub_cancel]
    exact ⟨rfl, rfl⟩

/-- The first two stretches overlap in the first edge, and what is left of them in the others. -/
theorem edgeIntervals_step (hd : ∀ row ∈ debit :: debtors, 0 < row.2) (hc : ∀ row ∈ credit :: creditors, 0 < row.2)
    (hamount : amount = if debit.2 < credit.2 then debit.2 else credit.2) :
    edgeIntervals (laid start (debit :: debtors)) (laid start (credit :: creditors)) =
      ⟨debit.1, credit.1, start, amount⟩ ::
        edgeIntervals (laid (start + amount) (payFirst amount debit debtors))
          (laid (start + amount) (payFirst amount credit creditors)) := by
  have hle : 0 < amount ∧ amount ≤ debit.2 ∧ amount ≤ credit.2 ∧ (amount = debit.2 ∨ amount = credit.2) := by
    have hdebit := hd debit List.mem_cons_self
    have hcredit := hc credit List.mem_cons_self
    rw [hamount]
    split <;> omega
  rw [(edgeIntervals_payFirst _).1, (edgeIntervals_payFirst _).2, laid, laid]
  have hfirst : overlap ⟨debit.1, start, start + debit.2⟩ ⟨credit.1, start, start + credit.2⟩ =
      some ⟨debit.1, credit.1, start, amount⟩ := by
    have hmin : min (start + debit.2) (start + credit.2) = start + amount := by omega
    simp only [overlap, hmin, max_self, gt_iff_lt, lt_add_iff_pos_right, hle.1, if_true, add_sub_cancel_left]
  have hnone : overlap ⟨debit.1, start + amount, start + debit.2⟩ ⟨credit.1, start + amount, start + credit.2⟩ =
      none := overlap_eq_none (by simp only; omega)
  -- the later stretches begin behind the first edge
  have hcreditors : ∀ c ∈ laid (start + credit.2) creditors, start + amount ≤ c.startAt := fun c hmem =>
    (by omega : start + amount ≤ start + credit.2).trans
      (le_startAt_of_mem_laid (fun r hr => hc r (List.mem_cons_of_mem _ hr)) hmem)
  have hdebtors : ∀ d ∈ laid (start + debit.2) debtors, start + amount ≤ d.startAt := fun d hmem =>
    (by omega : start + amount ≤ start + debit.2).trans
      (le_startAt_of_mem_laid (fun r hr => hd r (List.mem_cons_of_mem _ hr)) hmem)
  have hcut : start ≤ start + amount := by omega
  rw [edgeIntervals_eq, edgeIntervals_eq, List.flatMap_cons, List.flatMap_cons,
    List.filterMap_cons_some hfirst, List.filterMap_cons_none hnone, List.cons_append]
  congr 2
  · exact List.filterMap_congr fun c hmem => (overlap_cut hcut (hcreditors c hmem)).1
  · refine List.flatMap_congr fun d hmem => ?_
    rw [List.filterMap_cons, List.filterMap_cons, (overlap_cut hcut (hdebtors d hmem)).2]

/-- The overlaps of two laid lists are the edges of the loop, in its order. -/
theorem edgeIntervals_laid {passes : ℕ} (hd : OpenRows debtors) (hc : OpenRows creditors)
    (hpasses : debtors.length + creditors.length ≤ passes) :
    edgeIntervals (laid start debtors) (laid start creditors) = loopEdges passes start debtors creditors := by
  induction passes generalizing start debtors creditors with
  | zero =>
    obtain rfl := List.length_eq_zero_iff.mp (by omega : debtors.length = 0)
    rfl
  | succ passes ih =>
    match debtors, creditors with
    | [], creditors => rfl
    | debit :: ds, [] => simp [edgeIntervals_eq, laid, loopEdges]
    | debit :: ds, credit :: cs =>
      set amount := if debit.2 < credit.2 then debit.2 else credit.2 with hamount
      have hle : amount ≤ debit.2 ∧ amount ≤ credit.2 ∧ (debit.2 - amount = 0 ∨ credit.2 - amount = 0) := by
        rw [hamount]
        split <;> omega
      rw [edgeIntervals_step hd.positive hc.positive hamount, loopEdges, ← hamount]
      congr 1
      apply ih (hd.payFirst hle.1) (hc.payFirst hle.2.1)
      have hdebtors := length_payFirst amount debit ds
      have hcreditors := length_payFirst amount credit cs
      simp only [List.length_cons] at hpasses
      omega

/-- Every edge of the loop starts where the one before it ends. -/
theorem pairwise_loopEdges (passes : ℕ) (start : ℤ) (hd : OpenRows debtors) (hc : OpenRows creditors) :
    (loopEdges passes start debtors creditors).Pairwise (fun a b => a.rank < b.rank) ∧
      ∀ e ∈ loopEdges passes start debtors creditors, start ≤ e.rank := by
  induction passes generalizing start debtors creditors with
  | zero => exact ⟨List.Pairwise.nil, by simp [loopEdges]⟩
  | succ passes ih =>
    match debtors, creditors with
    | [], creditors => exact ⟨List.Pairwise.nil, by simp [loopEdges]⟩
    | debit :: ds, [] => exact ⟨List.Pairwise.nil, by simp [loopEdges]⟩
    | debit :: ds, credit :: cs =>
      set amount := if debit.2 < credit.2 then debit.2 else credit.2 with hamount
      have hle : 0 < amount ∧ amount ≤ debit.2 ∧ amount ≤ credit.2 := by
        have hdebit := hd.positive debit List.mem_cons_self
        have hcredit := hc.positive credit List.mem_cons_self
        rw [hamount]
        split <;> omega
      obtain ⟨hpairwise, hlater⟩ := ih (start + amount) (hd.payFirst hle.2.1) (hc.payFirst hle.2.2)
      rw [loopEdges, ← hamount]
      constructor
      · refine List.pairwise_cons.mpr ⟨fun e he => ?_, hpairwise⟩
        have := hlater e he
        simp only
        omega
      · intro e he
        rcases List.mem_cons.mp he with rfl | he
        · exact le_rfl
        · have := hlater e he
          omega

theorem map_loopEdges (passes : ℕ) (start : ℤ) (debtors creditors : List (JsString × ℤ)) :
    (loopEdges passes start debtors creditors).map (fun e => (⟨e.debtor, e.creditor, e.amount⟩ : Obligation)) =
      obligationLoop passes debtors creditors := by
  induction passes generalizing start debtors creditors with
  | zero => rfl
  | succ passes ih =>
    match debtors, creditors with
    | [], creditors => rfl
    | debit :: ds, [] => rfl
    | debit :: ds, credit :: cs =>
      rw [loopEdges, List.map_cons, ih]
      rfl

end Overlap

/-! ### The projection -/

/-- Of rows with different keys one has the key of a given row. -/
theorem filter_eq_singleton {α κ : Type} [DecidableEq κ] {key : α → κ} {rows : List α}
    (hn : (rows.map key).Nodup) {a : α} (ha : a ∈ rows) : rows.filter (fun b => decide (key b = key a)) = [a] := by
  induction rows with
  | nil => cases ha
  | cons b rows ih =>
    obtain ⟨hb, hn⟩ := List.nodup_cons.mp hn
    rcases List.mem_cons.mp ha with rfl | ha
    · rw [List.filter_cons_of_pos (by simp), List.filter_eq_nil_iff.mpr]
      intro c hc
      rw [decide_eq_true_eq]
      exact fun heq => hb (heq ▸ List.mem_map_of_mem hc)
    · rw [List.filter_cons_of_neg, ih hn ha]
      rw [decide_eq_true_eq]
      exact fun heq => hb (heq ▸ List.mem_map_of_mem ha)

section Join

variable {positions : List Position} {members : List JsString} {balance : JsString → ℤ}

/-- The join finds the position of every member of the order, once. -/
theorem orderedRows_eq (balance : JsString → ℤ) (hn : (positions.map (·.memberId)).Nodup)
    (hbalance : ∀ p ∈ positions, p.balanceMinor = balance p.memberId)
    (hmem : ∀ id ∈ members, id ∈ positions.map (·.memberId)) :
    orderedRows positions members = members.zipIdx.map fun o => ⟨o.1, balance o.1, o.2⟩ := by
  rw [orderedRows, List.map_eq_flatMap]
  refine List.flatMap_congr fun o ho => ?_
  have hid : o.1 ∈ members := by
    rw [← List.zipIdx_map_fst 0 members]
    exact List.mem_map_of_mem ho
  obtain ⟨p, hp, hpid⟩ := List.mem_map.mp (hmem o.1 hid)
  have hone : positions.filter (fun q => decide (q.memberId = o.1)) = [p] := by
    rw [← hpid]
    exact filter_eq_singleton hn hp
  rw [hone, List.map_singleton, hbalance p hp, hpid]

theorem pairwise_rank_zipIdx (members : List JsString) (balance : JsString → ℤ) :
    (members.zipIdx.map fun o => (⟨o.1, balance o.1, o.2⟩ : OrderedRow)).Pairwise fun a b => a.rank < b.rank := by
  have hranks : (members.zipIdx.map Prod.snd).Pairwise (· < ·) := by
    rw [List.zipIdx_map_snd]
    exact List.pairwise_lt_range'
  exact List.pairwise_map.mpr (List.pairwise_map.mp hranks)

/-- What is read of the rows that meet a condition is read of the members that do. -/
theorem map_filter_zipIdx {α : Type} (members : List JsString) (balance : JsString → ℤ) (p : OrderedRow → Bool)
    (q : JsString → Bool) (f : OrderedRow → α) (g : JsString → α) (hp : ∀ id rank, p ⟨id, balance id, rank⟩ = q id)
    (hf : ∀ id rank, f ⟨id, balance id, rank⟩ = g id) :
    ((members.zipIdx.map fun o => (⟨o.1, balance o.1, o.2⟩ : OrderedRow)).filter p).map f =
      (members.filter q).map g := by
  conv_rhs => rw [← List.zipIdx_map_fst 0 members]
  rw [List.filter_map, List.map_map, List.filter_map, List.map_map]
  simp only [Function.comp_def, hp, hf]

end Join

section Projection

variable {paid shares : InsertionMap JsString ℕ} {ids : List JsString}

theorem map_memberId_positionRows (members : List JsString) :
    (positionRows paid shares members).map (·.memberId) = members.insertionSort (· ≤ ·) := by
  rw [positionRows, List.map_map]
  exact List.map_id _

theorem nodup_unionKeys (paid shares : InsertionMap JsString ℕ) : (unionKeys paid.keys shares.keys).Nodup := by
  refine List.nodup_append.mpr ⟨paid.nodup_keys, shares.nodup_keys.filter _, ?_⟩
  rintro a ha b hb rfl
  exact (of_decide_eq_true (List.mem_filter.mp hb).2) ha

/-- The full join has a row for every key of either side. -/
theorem dedup_append_perm (paid shares : InsertionMap JsString ℕ) :
    ((paid.entries ++ shares.entries).map Prod.fst).dedup.Perm (unionKeys paid.keys shares.keys) := by
  refine (List.perm_ext_iff_of_nodup (List.nodup_dedup _) (nodup_unionKeys paid shares)).mpr fun id => ?_
  rw [List.mem_dedup, List.map_append, List.mem_append, mem_unionKeys]
  rfl

/-- The positions of the full join are those of the loop. -/
theorem joinedPositions_eq (paid shares : InsertionMap JsString ℕ) :
    joinedPositions paid.entries shares.entries = positionRows paid shares (unionKeys paid.keys shares.keys) := by
  have hsort : ((paid.entries ++ shares.entries).map Prod.fst).dedup.insertionSort (· ≤ ·) =
      (unionKeys paid.keys shares.keys).insertionSort (· ≤ ·) := by
    have hperm := dedup_append_perm paid shares
    exact ((List.perm_insertionSort _ _).trans (hperm.trans (List.perm_insertionSort _ _).symm)).eq_of_pairwise
      (fun _ _ _ _ hab hba => le_antisymm hab hba) (List.pairwise_insertionSort _ _)
      (List.pairwise_insertionSort _ _)
  rw [joinedPositions, hsort, positionRows]
  rfl

/-- The overlaps of the positions laid out in the order of the members are the obligations of the loop. -/
theorem joinedObligations_eq (hn : ids.Nodup) (hmem : ∀ id ∈ ids, id ∈ unionKeys paid.keys shares.keys) :
    joinedObligations (orderedRows (positionRows paid shares (unionKeys paid.keys shares.keys)) ids) =
      obligationLoop ((debtorRows paid shares ids).length + (creditorRows paid shares ids).length)
        (debtorRows paid shares ids) (creditorRows paid shares ids) := by
  have hrows := orderedRows_eq (balanceOf paid shares)
    (show ((positionRows paid shares (unionKeys paid.keys shares.keys)).map (·.memberId)).Nodup by
      rw [map_memberId_positionRows]
      exact (List.perm_insertionSort _ _).nodup_iff.mpr (nodup_unionKeys paid shares))
    (by
      intro p hp
      obtain ⟨id, -, rfl⟩ := List.mem_map.mp hp
      rfl)
    (by
      intro id hid
      rw [map_memberId_positionRows, List.mem_insertionSort]
      exact hmem id hid)
  have hcreditors := map_filter_zipIdx ids (balanceOf paid shares)
    (fun row => decide (row.balance > 0)) (fun id => decide (balanceOf paid shares id > 0))
    (fun row => (row.id, row.balance)) (fun id => (id, balanceOf paid shares id)) (fun _ _ => rfl) fun _ _ => rfl
  have hdebtors := map_filter_zipIdx ids (balanceOf paid shares)
    (fun row => decide (row.balance < 0)) (fun id => decide (balanceOf paid shares id < 0))
    (fun row => (row.id, -row.balance)) (fun id => (id, -balanceOf paid shares id)) (fun _ _ => rfl) fun _ _ => rfl
  have hpairwise := pairwise_rank_zipIdx ids (balanceOf paid shares)
  have hd : OpenRows (debtorRows paid shares ids) := openRows_debtorRows hn
  have hc : OpenRows (creditorRows paid shares ids) := openRows_creditorRows hn
  rw [joinedObligations, hrows, intervals_eq_laid (hpairwise.filter _), intervals_eq_laid (hpairwise.filter _),
    hcreditors, hdebtors]
  change ((edgeIntervals (laid 0 (debtorRows paid shares ids)) (laid 0 (creditorRows paid shares ids))).insertionSort
    fun a b => a.rank ≤ b.rank).map _ = _
  have hsorted := (pairwise_loopEdges ((debtorRows paid shares ids).length + (creditorRows paid shares ids).length) 0
    hd hc).1
  rw [edgeIntervals_laid hd hc le_rfl, (hsorted.imp fun h => h.le).insertionSort_eq, map_loopEdges]

end Projection

/-! ### Acceptance -/

theorem snapshotTotal_eq_ok (field : String) {value : Json} {n : ℕ} :
    snapshotTotal value = .ok n ↔ amount value field MAX_EXPENSE_MINOR true = .ok n := by
  rw [amount_eq_ok_iff]
  cases value with
  | str s =>
    rw [snapshotTotal, failIf_bind_eq_ok, failIf_bind_eq_ok, isPositiveNumeral, Bool.not_eq_false, Bool.and_eq_true,
      decide_eq_true_eq, pure_eq_ok, Except.ok.injEq, not_lt]
    simp only [Json.str.injEq, forall_const]
    constructor
    · rintro ⟨⟨hnumeral, hzero⟩, hmax, hn⟩
      exact ⟨s, rfl, hnumeral, hzero, hmax, hn⟩
    · rintro ⟨_, rfl, hnumeral, hzero, hmax, hn⟩
      exact ⟨⟨hnumeral, hzero⟩, hmax, hn⟩
  | _ => simp [snapshotTotal]

theorem length_of_mapM_eq_ok {ε α β : Type} {f : α → Except ε β} {l : List α} {bs : List β}
    (h : l.mapM f = .ok bs) : bs.length = l.length := by
  induction l generalizing bs with
  | nil =>
    rw [List.mapM_nil, pure_eq_ok, Except.ok.injEq] at h
    subst h
    rfl
  | cons a l ih =>
    obtain ⟨b, rest, -, hrest, rfl⟩ := mapM_cons_eq_ok.mp h
    rw [List.length_cons, List.length_cons, ih hrest]

/-- An expense has one to 58 members. -/
theorem length_unionKeys_of_rows {paid shares : InsertionMap JsString ℕ} {contributions participants : Json}
    {payers sharers : List Json} {e : SqlError} (hpayers : arrayBetween contributions 1 8 e = .ok payers)
    (hpaid : payers.mapM snapshotRow = .ok paid.entries) (hsharers : arrayBetween participants 1 50 e = .ok sharers)
    (hshares : sharers.mapM snapshotRow = .ok shares.entries) :
    1 ≤ (unionKeys paid.keys shares.keys).length ∧ (unionKeys paid.keys shares.keys).length ≤ 58 := by
  have hpaidLength : paid.keys.length = payers.length := by
    rw [InsertionMap.keys, List.length_map, length_of_mapM_eq_ok hpaid]
  have hsharesLength : (shares.keys.filter (· ∉ paid.keys)).length ≤ sharers.length := by
    apply (List.length_filter_le _ _).trans
    rw [InsertionMap.keys, List.length_map, length_of_mapM_eq_ok hshares]
  obtain ⟨-, hlow, hhigh⟩ := arrayBetween_eq_ok.mp hpayers
  obtain ⟨-, -, hhigh'⟩ := arrayBetween_eq_ok.mp hsharers
  rw [unionKeys, List.length_append]
  omega

/-- A numeral does not begin with a letter. -/
theorem signedDecimal_append_ne (z : ℤ) (rest : JsString) : signedDecimal z ++ rest ≠ js "INR" := by
  intro h
  have hhead := congrArg List.head? h
  rw [show (js "INR").head? = some 73 by decide] at hhead
  rw [signedDecimal] at hhead
  split at hhead
  · simp at hhead
  · have hunsigned := isUnsigned_decimal z.natAbs
    cases hdecimal : decimal z.natAbs with
    | nil => simp [hdecimal, isUnsigned] at hunsigned
    | cons c cs =>
      have hdigit := isDigit_of_isUnsigned hunsigned c (by simp [hdecimal])
      rw [hdecimal, List.cons_append, List.head?_cons, Option.some.injEq] at hhead
      subst hhead
      exact absurd hdigit (by decide)

/-- A comparison with `INR` passes for `INR`, and for `null`. -/
theorem differs_eq_false_iff {value : Json} :
    differs value "INR" = false ∧ value ≠ .null ↔ value = .str (js "INR") := by
  cases value with
  | null => simp
  | bool b => cases b <;> simp [differs, textValue]
  | num n =>
    cases n with
    | int z => simpa [differs, textValue] using signedDecimal_append_ne z []
    | negZero => simp [differs, textValue]
    | fraction digits places =>
      simpa [differs, textValue] using signedDecimal_append_ne digits (js "e-" ++ decimal places)
  | str s => simp [differs, textValue]
  | arr items => simp [differs, textValue]
  | obj fields => simp [differs, textValue]

/-- The order of the members is the order of `projectExpense`, of `uuid`s. -/
theorem snapshotOrder_iff (field : String) {value : Json} {paid shares : InsertionMap JsString ℕ}
    {ids : List JsString} (hlow : 1 ≤ (unionKeys paid.keys shares.keys).length)
    (hhigh : (unionKeys paid.keys shares.keys).length ≤ 58) :
    (order value (unionKeys paid.keys shares.keys) field = .ok ids ∧ ∀ id ∈ ids, isUuid id = true) ↔
      ∃ items, arrayBetween value 1 58 invalidSnapshot = .ok items ∧ snapshotOrder items = .ok ids ∧
        ((paid.entries ++ shares.entries).map Prod.fst).dedup.length = ids.length ∧
        ∀ id ∈ ids, id ∈ (paid.entries ++ shares.entries).map Prod.fst := by
  have hlength := (dedup_append_perm paid shares).length_eq
  have hmem : ∀ id, id ∈ (paid.entries ++ shares.entries).map Prod.fst ↔ id ∈ unionKeys paid.keys shares.keys :=
    fun id => by rw [← (dedup_append_perm paid shares).mem_iff, List.mem_dedup]
  have horder : ∀ items, snapshotOrder items = .ok ids ↔
      items = ids.map .str ∧ (∀ id ∈ ids, isUuid id = true) ∧ ids.Nodup := by
    intro items
    rw [snapshotOrder]
    cases hs : Json.strings? items with
    | none =>
      simp only [reduceCtorEq, false_iff, not_and]
      rintro rfl
      simp [Json.strings?_map_str] at hs
    | some names =>
      rw [Json.strings?_eq_some_iff] at hs
      subst hs
      have hinj : Function.Injective (List.map Json.str) := List.map_injective_iff.mpr fun _ _ h => Json.str.inj h
      simp only [↓failIf_bind_eq_ok, pure_eq_ok, Except.ok.injEq, not_or, not_not, hinj.eq_iff, List.any_eq_true,
        decide_eq_true_eq, not_exists, not_and, Bool.not_eq_false]
      constructor
      · rintro ⟨h, rfl⟩
        exact ⟨rfl, h⟩
      · rintro ⟨rfl, h⟩
        exact ⟨h, rfl⟩
  simp only [order_eq_ok, horder, arrayBetween_eq_ok, hlength, hmem]
  constructor
  · rintro ⟨⟨rfl, hcount, hn, hsub⟩, huuid⟩
    refine ⟨_, ⟨rfl, ?_, ?_⟩, ⟨rfl, huuid, hn⟩, hcount.symm, hsub⟩
    · rw [List.length_map]
      omega
    · rw [List.length_map]
      omega
  · rintro ⟨items, ⟨rfl, -, -⟩, ⟨rfl, huuid, hn⟩, hcount, hsub⟩
    exact ⟨⟨rfl, hcount.symm, hn, hsub⟩, huuid⟩

theorem any_not_contains_eq_false {l ids : List JsString} :
    (l.any fun id => !ids.contains id) = false ↔ ∀ id ∈ l, id ∈ ids := by
  simp

/-- What `_project_snapshot` has checked, and what it returns. -/
theorem projectSnapshot_eq_ok {snapshot : Json} {result : Projection} :
    projectSnapshot snapshot = .ok result ↔
      record snapshot ["currency", "totalMinor", "contributions", "shares", "memberOrder"] "$" = .ok () ∧
      differs (snapshot.get "currency") "INR" = false ∧
      ∃ total, amount (snapshot.get "totalMinor") "totalMinor" MAX_EXPENSE_MINOR true = .ok total ∧
      ∃ paid, moneyRows (snapshot.get "contributions") "contributions" 8 .invalidPayerCount = .ok paid ∧
      ∃ shares, moneyRows (snapshot.get "shares") "shares" 50 .invalidParticipantCount = .ok shares ∧
      paid.values.sum = total ∧ shares.values.sum = total ∧
      ∃ ids, order (snapshot.get "memberOrder") (unionKeys paid.keys shares.keys) "memberOrder" = .ok ids ∧
      (∀ id ∈ unionKeys paid.keys shares.keys, isUuid id = true) ∧
      result = ⟨total, positionRows paid shares (unionKeys paid.keys shares.keys),
        obligationLoop ((debtorRows paid shares ids).length + (creditorRows paid shares ids).length)
          (debtorRows paid shares ids) (creditorRows paid shares ids)⟩ := by
  rw [projectSnapshot]
  simp only [↓failIf_bind_eq_ok, bind_eq_ok, pure_eq_ok, Except.ok.injEq, record_eq_ok_iff,
    snapshotTotal_eq_ok "totalMinor", Bool.not_eq_false, Bool.not_eq_true, not_or, not_not,
    any_not_contains_eq_false]
  apply and_congr_right
  intro _
  apply and_congr_right
  intro _
  apply exists_congr
  intro total
  apply and_congr_right
  intro _
  constructor
  · rintro ⟨payers, hpayers, sharers, hsharers, orders, horders, paid, hpaid, shares, hshares,
      ⟨hpaidNodup, hsharesNodup, hpaidSum, hsharesSum⟩, ids, hids, ⟨hcount, hsub⟩, rfl⟩
    -- rows with different ids are the entries of a map
    obtain ⟨hpaid', hpaidUuid⟩ := moneyRows_iff "contributions" .invalidPayerCount
      (m := ⟨paid, hpaidNodup⟩).mpr ⟨payers, hpayers, hpaid⟩
    obtain ⟨hshares', hsharesUuid⟩ := moneyRows_iff "shares" .invalidParticipantCount
      (m := ⟨shares, hsharesNodup⟩).mpr ⟨sharers, hsharers, hshares⟩
    have hbounds := @length_unionKeys_of_rows ⟨paid, hpaidNodup⟩ ⟨shares, hsharesNodup⟩ _ _ _ _ _
      hpayers hpaid hsharers hshares
    obtain ⟨hids', hidsUuid⟩ := (snapshotOrder_iff "memberOrder" hbounds.1 hbounds.2).mpr
      ⟨orders, horders, hids, hcount, hsub⟩
    refine ⟨⟨paid, hpaidNodup⟩, hpaid', ⟨shares, hsharesNodup⟩, hshares', hpaidSum, hsharesSum, ids, hids', ?_, ?_⟩
    · intro id hid
      exact (mem_unionKeys.mp hid).elim (hpaidUuid id) (hsharesUuid id)
    · obtain ⟨-, -, hn, hmem⟩ := order_eq_ok.mp hids'
      rw [joinedPositions_eq ⟨paid, hpaidNodup⟩ ⟨shares, hsharesNodup⟩, joinedObligations_eq hn hmem]
  · rintro ⟨paid, hpaid, shares, hshares, hpaidSum, hsharesSum, ids, hids, huuid, rfl⟩
    obtain ⟨payers, hpayers, hpaid'⟩ := (moneyRows_iff _ _ (e := invalidSnapshot)).mp
      ⟨hpaid, fun id hid => huuid id (mem_unionKeys.mpr (.inl hid))⟩
    obtain ⟨sharers, hsharers, hshares'⟩ := (moneyRows_iff _ _ (e := invalidSnapshot)).mp
      ⟨hshares, fun id hid => huuid id (mem_unionKeys.mpr (.inr hid))⟩
    have hbounds := length_unionKeys_of_rows hpayers hpaid' hsharers hshares'
    obtain ⟨-, -, hn, hmem⟩ := order_eq_ok.mp hids
    obtain ⟨orders, horders, hids', hcount, hsub⟩ := (snapshotOrder_iff _ hbounds.1 hbounds.2).mp
      ⟨hids, fun id hid => huuid id (hmem id hid)⟩
    refine ⟨payers, hpayers, sharers, hsharers, orders, horders, paid.entries, hpaid', shares.entries, hshares',
      ⟨paid.nodup_keys, shares.nodup_keys, hpaidSum, hsharesSum⟩, ids, hids', ⟨hcount, hsub⟩, ?_⟩
    rw [joinedPositions_eq, joinedObligations_eq hn hmem]

/-- The database accepts what `projectExpense` accepts of `uuid`s, with the same positions and obligations in the same
order. A currency that is `null` it accepts besides. -/
theorem projectSnapshot_iff_projectExpense (snapshot : Json) (result : Projection) :
    projectSnapshot snapshot = .ok result ∧ snapshot.get "currency" ≠ .null ↔
      projectExpense snapshot = .ok result ∧ ∀ row ∈ result.positions, isUuid row.memberId = true := by
  have hcurrency : differs (snapshot.get "currency") "INR" = false ∧ snapshot.get "currency" ≠ .null ↔
      currency (snapshot.get "currency") = .ok () := by
    rw [currency_eq_ok]
    exact differs_eq_false_iff
  have hpositions : ∀ (paid shares : InsertionMap JsString ℕ),
      (∀ row ∈ positionRows paid shares (unionKeys paid.keys shares.keys), isUuid row.memberId = true) ↔
        ∀ id ∈ unionKeys paid.keys shares.keys, isUuid id = true := by
    intro paid shares
    simp only [positionRows, List.forall_mem_map, List.mem_insertionSort]
  rw [projectSnapshot_eq_ok, projectExpense_eq_ok]
  constructor
  · rintro ⟨⟨hrecord, hdiffers, total, htotal, paid, hpaid, shares, hshares, h₁, h₂, ids, hids, huuid, rfl⟩, hnull⟩
    exact ⟨⟨hrecord, hcurrency.mp ⟨hdiffers, hnull⟩, total, htotal, paid, hpaid, shares, hshares, h₁, h₂, ids, hids,
      rfl⟩, (hpositions paid shares).mpr huuid⟩
  · rintro ⟨⟨hrecord, hinr, total, htotal, paid, hpaid, shares, hshares, h₁, h₂, ids, hids, rfl⟩, huuid⟩
    obtain ⟨hdiffers, hnull⟩ := hcurrency.mpr hinr
    exact ⟨⟨hrecord, hdiffers, total, htotal, paid, hpaid, shares, hshares, h₁, h₂, ids, hids,
      (hpositions paid shares).mp huuid, rfl⟩, hnull⟩

/-! ### What a projection makes its members owe -/

section Balances

variable {paid shares : InsertionMap JsString ℕ} {ids : List JsString}

theorem balanceOf_eq_zero {id : JsString} (h : id ∉ unionKeys paid.keys shares.keys) :
    balanceOf paid shares id = 0 := by
  rw [mem_unionKeys, not_or] at h
  rw [balanceOf, InsertionMap.get?_eq_none_iff.mpr h.1, InsertionMap.get?_eq_none_iff.mpr h.2]
  rfl

/-- An obligation goes from a member that owes to one that is owed. -/
theorem signs_of_mem_obligationLoop {passes : ℕ} {o : Obligation}
    (ho : o ∈ obligationLoop passes (debtorRows paid shares ids) (creditorRows paid shares ids)) :
    balanceOf paid shares o.debtorId < 0 ∧ 0 < balanceOf paid shares o.creditorId := by
  obtain ⟨hdebtor, hcreditor⟩ := mem_obligationLoop ho
  simp only [debtorRows, creditorRows, List.map_map, List.mem_map, List.mem_filter, decide_eq_true_eq,
    Function.comp_apply, exists_eq_right] at hdebtor hcreditor
  exact ⟨hdebtor.2, hcreditor.2⟩

/-- What a member is owed less what it owes is its balance. -/
theorem owedTo_sub_owedBy {passes : ℕ} (hn : ids.Nodup)
    (hmem : ∀ id, id ∈ ids ↔ id ∈ unionKeys paid.keys shares.keys) (htotal : paid.values.sum = shares.values.sum)
    (hpasses : (debtorRows paid shares ids).length + (creditorRows paid shares ids).length ≤ passes)
    (id : JsString) :
    owedTo (obligationLoop passes (debtorRows paid shares ids) (creditorRows paid shares ids)) id -
      owedBy (obligationLoop passes (debtorRows paid shares ids) (creditorRows paid shares ids)) id =
        balanceOf paid shares id := by
  set edges := obligationLoop passes (debtorRows paid shares ids) (creditorRows paid shares ids) with hedges
  have hsum := sum_debtorRows_eq hn (fun id hid => (hmem id).mpr (mem_unionKeys.mpr (.inl hid)))
    (fun id hid => (hmem id).mpr (mem_unionKeys.mpr (.inr hid))) htotal
  have hsettles := (obligationLoop_settles (openRows_debtorRows hn) (openRows_creditorRows hn) hsum hpasses).1
  have hnoDebt : ¬ balanceOf paid shares id < 0 → owedBy edges id = 0 := fun h =>
    owedBy_of_forall_ne fun o ho heq => h (heq ▸ (signs_of_mem_obligationLoop ho).1)
  have hnoCredit : ¬ 0 < balanceOf paid shares id → owedTo edges id = 0 := fun h =>
    owedTo_of_forall_ne fun o ho heq => h (heq ▸ (signs_of_mem_obligationLoop ho).2)
  by_cases hid : id ∈ ids
  · rcases lt_trichotomy (balanceOf paid shares id) 0 with hneg | hzero | hpos
    · have hrow : (id, -balanceOf paid shares id) ∈ debtorRows paid shares ids :=
        List.mem_map.mpr ⟨id, List.mem_filter.mpr ⟨hid, decide_eq_true hneg⟩, rfl⟩
      have howed : owedBy edges id = -balanceOf paid shares id := hsettles.debtors _ hrow
      rw [hnoCredit hneg.not_gt, howed, zero_sub, neg_neg]
    · rw [hnoCredit (by omega), hnoDebt (by omega), hzero, sub_zero]
    · have hrow : (id, balanceOf paid shares id) ∈ creditorRows paid shares ids :=
        List.mem_map.mpr ⟨id, List.mem_filter.mpr ⟨hid, decide_eq_true hpos⟩, rfl⟩
      have howed : owedTo edges id = balanceOf paid shares id := hsettles.creditors _ hrow
      rw [hnoDebt hpos.not_gt, howed, sub_zero]
  · have hzero : balanceOf paid shares id = 0 := balanceOf_eq_zero fun h => hid ((hmem id).mpr h)
    rw [hnoCredit (by omega), hnoDebt (by omega), hzero, sub_zero]

/-- The part of a member, in the positions. -/
theorem find?_positionRows (members : List JsString) (id : JsString) :
    (positionRows paid shares members).find? (fun p => decide (p.memberId = id)) =
      if id ∈ members then some ⟨id, (paid.get? id).getD 0, (shares.get? id).getD 0, balanceOf paid shares id⟩
      else none := by
  split_ifs with hid
  · have hrow : (⟨id, (paid.get? id).getD 0, (shares.get? id).getD 0, balanceOf paid shares id⟩ : Position) ∈
        positionRows paid shares members :=
      List.mem_map.mpr ⟨id, (List.mem_insertionSort _).mpr hid, rfl⟩
    cases hfind : (positionRows paid shares members).find? (fun p => decide (p.memberId = id)) with
    | none => simpa using List.find?_eq_none.mp hfind _ hrow
    | some p =>
      obtain ⟨other, -, rfl⟩ := List.mem_map.mp (List.mem_of_find?_eq_some hfind)
      have hother : other = id := by simpa using List.find?_some hfind
      rw [hother]
  · rw [List.find?_eq_none]
    rintro p hp heq
    obtain ⟨other, hother, rfl⟩ := List.mem_map.mp hp
    rw [decide_eq_true_eq] at heq
    exact hid (heq ▸ (List.mem_insertionSort _).mp hother)

end Balances

/-- What the obligations of a projection come to for a member, and what the member paid and shares. -/
structure Balanced (projected : Projection) : Prop where
  distinct : ∀ o ∈ projected.obligations, o.debtorId ≠ o.creditorId
  balance : ∀ id, owedTo projected.obligations id - owedBy projected.obligations id =
    ((projected.positions.find? fun p => decide (p.memberId = id)).elim 0 fun p => (p.paidMinor : ℤ) - p.shareMinor)

/-- The obligations of the database pay the balances of its positions. -/
theorem projectSnapshot_balanced {snapshot : Json} {result : Projection} (h : projectSnapshot snapshot = .ok result) :
    Balanced result := by
  obtain ⟨-, -, total, -, paid, -, shares, -, hpaid, hshares, ids, hids, -, rfl⟩ := projectSnapshot_eq_ok.mp h
  obtain ⟨-, -, hn, hsub⟩ := order_eq_ok.mp hids
  have hmem : ∀ id, id ∈ ids ↔ id ∈ unionKeys paid.keys shares.keys := fun id =>
    ⟨hsub id, Dart.mem_of_order hids id⟩
  refine ⟨fun o ho heq => ?_, fun id => ?_⟩
  · have hsigns := signs_of_mem_obligationLoop ho
    rw [heq] at hsigns
    omega
  · rw [owedTo_sub_owedBy hn hmem (hpaid.trans hshares.symm) le_rfl, find?_positionRows]
    split_ifs with hid
    · rfl
    · exact balanceOf_eq_zero hid

end PandaPay.SharedExpenses.Sql
