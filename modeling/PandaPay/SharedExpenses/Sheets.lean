import PandaPay.SharedExpenses.Twins
import PandaPay.Library.PairLedger

/-!
# Projections as sheets of pairwise debts

What a journal state shows is a sheet: the members it lists, their balances and the pair amounts.
Every operation of the journal adds to the sheet, and the envelope `output` writes is determined by
it. The laws of the journal follow from these facts; they are proved on the Dart state, whose map
of pairs is keyed by the pairs themselves, and hold of both twins.

## Main definitions

* `State.sheet`: the sheet a state shows
* `State.Valid`: what `parseEnvelope` guarantees of a state

## Main results

* `addMember_sheet`, `addPair_sheet`: what the two updates add
* `output_congr`: the sheet determines the output
* `parseEnvelope_valid`: a state that was read is valid
* `parseEnvelope_output`: what a valid state writes is read back with the same sheet
-/

namespace PandaPay.SharedExpenses.Dart

open PairLedger

/-- The sheet a state shows. -/
noncomputable def State.sheet (state : State) : Sheet JsString ℤ :=
  ⟨{id | id ∈ state.members.keys}, state.members.toFinsupp, state.pairs.toFinsupp⟩

/-! ### Updates -/

theorem bounded_eq_ok {value result : ℤ} {field : String} :
    Dart.bounded value field = .ok result ↔ |value| ≤ maxAggregateMinor ∧ result = value := by
  simp only [Dart.bounded, failIf_bind_eq_ok, pure_eq_ok, Except.ok.injEq, not_or, not_lt,
    gt_iff_lt, abs_le]
  constructor
  · rintro ⟨⟨h₁, h₂⟩, h⟩
    exact ⟨⟨h₂, h₁⟩, h.symm⟩
  · rintro ⟨⟨h₂, h₁⟩, h⟩
    exact ⟨⟨h₁, h₂⟩, h.symm⟩

theorem addMember_eq_ok {s t : State} {id : JsString} {amount : ℤ} :
    addMember s id amount = .ok t ↔
      |(s.members.get? id).getD 0 + amount| ≤ maxAggregateMinor ∧
      t = { s with members := s.members.set id ((s.members.get? id).getD 0 + amount) } := by
  simp only [addMember, bind_eq_ok, bounded_eq_ok, pure_eq_ok, Except.ok.injEq]
  constructor
  · rintro ⟨value, ⟨h, rfl⟩, rfl⟩
    exact ⟨h, rfl⟩
  · rintro ⟨h, rfl⟩
    exact ⟨_, ⟨h, rfl⟩, rfl⟩

/-- The sheet `addMember` adds. -/
noncomputable def memberSheet (id : JsString) (amount : ℤ) : Sheet JsString ℤ :=
  ⟨{id}, Finsupp.single id amount, 0⟩

theorem addMember_sheet {s t : State} {id : JsString} {amount : ℤ}
    (h : addMember s id amount = .ok t) : t.sheet = s.sheet + memberSheet id amount := by
  obtain ⟨-, rfl⟩ := addMember_eq_ok.mp h
  refine Sheet.ext ?_ ?_ (add_zero _).symm
  · ext j
    simp [State.sheet, memberSheet]
  · exact InsertionMap.toFinsupp_set_add s.members _ _

/-- The key `addPair` updates. -/
def pairOf (creditor debtor : JsString) : JsString × JsString :=
  if creditor ≤ debtor then (creditor, debtor) else (debtor, creditor)

/-- The amount `addPair` adds under it. -/
def orient (creditor debtor : JsString) (amount : ℤ) : ℤ :=
  if creditor ≤ debtor then amount else -amount

theorem addPair_eq_ok {s t : State} {creditor debtor : JsString} {amount : ℤ} :
    addPair s creditor debtor amount = .ok t ↔
      |(s.pairs.get? (pairOf creditor debtor)).getD 0 + orient creditor debtor amount| ≤
        maxAggregateMinor ∧
      t = ⟨s.contextId, s.members, s.pairs.set (pairOf creditor debtor)
        ((s.pairs.get? (pairOf creditor debtor)).getD 0 + orient creditor debtor amount)⟩ := by
  have hkey : (if creditor < debtor then creditor else debtor,
      if creditor < debtor then debtor else creditor) = pairOf creditor debtor := by
    unfold pairOf
    rcases lt_trichotomy creditor debtor with h | rfl | h
    · simp [h, h.le]
    · simp
    · simp [h.not_gt, h.not_ge]
  have hdelta : (if creditor = if creditor < debtor then creditor else debtor then amount
      else -amount) = orient creditor debtor amount := by
    unfold orient
    rcases lt_trichotomy creditor debtor with h | rfl | h
    · simp [h, h.le]
    · simp
    · simp [h.not_gt, h.not_ge, h.ne']
  simp only [addPair, hkey, hdelta, bind_eq_ok, bounded_eq_ok, pure_eq_ok, Except.ok.injEq]
  constructor
  · rintro ⟨value, ⟨h, rfl⟩, rfl⟩
    exact ⟨h, rfl⟩
  · rintro ⟨h, rfl⟩
    exact ⟨_, ⟨h, rfl⟩, rfl⟩

/-- The sheet `addPair` adds. -/
noncomputable def edgeSheet (creditor debtor : JsString) (amount : ℤ) : Sheet JsString ℤ :=
  ⟨∅, 0, edge creditor debtor amount⟩

theorem edge_eq_single (creditor debtor : JsString) (amount : ℤ) :
    edge creditor debtor amount =
      Finsupp.single (pairOf creditor debtor) (orient creditor debtor amount) := by
  unfold edge pairOf orient
  split <;> rfl

theorem addPair_sheet {s t : State} {creditor debtor : JsString} {amount : ℤ}
    (h : addPair s creditor debtor amount = .ok t) :
    t.sheet = s.sheet + edgeSheet creditor debtor amount := by
  obtain ⟨-, rfl⟩ := addPair_eq_ok.mp h
  refine Sheet.ext (Set.union_empty _).symm (add_zero _).symm ?_
  rw [Sheet.pair_add, edgeSheet, edge_eq_single]
  exact InsertionMap.toFinsupp_set_add s.pairs _ _

/-! ### Output -/

theorem grossMinor_eq_sum (pairs : InsertionMap (JsString × JsString) ℤ) :
    grossMinor pairs = pairs.sum fun _ amount => |amount| := by
  rw [grossMinor, InsertionMap.values, InsertionMap.sum, List.sum_eq_foldl, List.foldl_map,
    List.foldl_map]

/-- The rows of `pairs` that are not zero, in the order they are written. -/
def pairRows (pairs : InsertionMap (JsString × JsString) ℤ) :
    List ((JsString × JsString) × ℤ) :=
  (pairs.entries.filter (·.2 ≠ 0)).insertionSort pairLe

theorem mem_pairRows {pairs : InsertionMap (JsString × JsString) ℤ}
    {row : (JsString × JsString) × ℤ} :
    row ∈ pairRows pairs ↔ row ∈ pairs.entries ∧ row.2 ≠ 0 := by
  simp [pairRows]

theorem nodup_pairRows (pairs : InsertionMap (JsString × JsString) ℤ) :
    ((pairRows pairs).map Prod.fst).Nodup := by
  have hp : (pairRows pairs).Perm (pairs.entries.filter (·.2 ≠ 0)) :=
    List.perm_insertionSort _ _
  refine ((hp.map Prod.fst).nodup_iff).mpr (pairs.nodup_keys.sublist ?_)
  exact List.filter_sublist.map _

instance : IsTrans ((JsString × JsString) × ℤ) pairLe where
  trans a b c := by
    unfold pairLe
    intro hab hbc
    split at hab <;> split at hbc <;> split <;> grind

instance : Std.Total (pairLe) where
  total a b := by
    unfold pairLe
    grind

/-- Rows sorted by distinct pairs are determined by their contents. -/
theorem eq_of_perm_of_sorted {l l' : List ((JsString × JsString) × ℤ)} (h : l.Perm l')
    (hn : (l.map Prod.fst).Nodup) (hl : l.Pairwise pairLe) (hl' : l'.Pairwise pairLe) :
    l = l' := by
  refine h.eq_of_pairwise (fun a b ha hb hab hba => ?_) hl hl'
  have hkey : a.1 = b.1 := by
    unfold pairLe at hab hba
    refine Prod.ext ?_ ?_ <;> grind
  exact List.inj_on_of_nodup_map hn ha (h.mem_iff.mpr hb) hkey

/-- Zero rows do not count in a sum. -/
theorem sum_pairRows {A : Type*} [AddCommMonoid A] (f : JsString × JsString → ℤ → A)
    (h0 : ∀ q, f q 0 = 0) (pairs : InsertionMap (JsString × JsString) ℤ) :
    ((pairRows pairs).map fun row => f row.1 row.2).sum = pairs.sum f := by
  have hp : (pairRows pairs).Perm (pairs.entries.filter (·.2 ≠ 0)) :=
    List.perm_insertionSort _ _
  refine (hp.map fun row => f row.1 row.2).sum_eq.trans (sum_map_filter_of_zero fun row _ hz => ?_)
  have hz : row.2 = 0 := by simpa using hz
  rw [hz, h0]

theorem pairRows_congr {p q : InsertionMap (JsString × JsString) ℤ}
    (h : p.toFinsupp = q.toFinsupp) : pairRows p = pairRows q := by
  refine eq_of_perm_of_sorted ?_ (nodup_pairRows p) (List.pairwise_insertionSort _ _)
    (List.pairwise_insertionSort _ _)
  refine (List.perm_ext_iff_of_nodup ((nodup_pairRows p).of_map _)
    ((nodup_pairRows q).of_map _)).mpr fun row => ?_
  rw [mem_pairRows, mem_pairRows, InsertionMap.mem_entries_and_ne_zero, h,
    InsertionMap.mem_entries_and_ne_zero]

theorem grossMinor_congr {p q : InsertionMap (JsString × JsString) ℤ}
    (h : p.toFinsupp = q.toFinsupp) : grossMinor p = grossMinor q := by
  rw [grossMinor_eq_sum, grossMinor_eq_sum, ← sum_pairRows _ fun _ => abs_zero,
    ← sum_pairRows _ fun _ => abs_zero, pairRows_congr h]

theorem sort_keys_congr {m n : InsertionMap JsString ℤ} (h : ∀ k, k ∈ m.keys ↔ k ∈ n.keys) :
    m.keys.insertionSort (· ≤ ·) = n.keys.insertionSort (· ≤ ·) := by
  have hp : m.keys.Perm n.keys :=
    (List.perm_ext_iff_of_nodup m.nodup_keys n.nodup_keys).mpr h
  exact ((List.perm_insertionSort _ _).trans (hp.trans (List.perm_insertionSort _ _).symm)).eq_of_pairwise
    (fun _ _ _ _ hab hba => le_antisymm hab hba) (List.pairwise_insertionSort _ _)
    (List.pairwise_insertionSort _ _)

theorem output_def (s : State) (omitZeroMembers : Bool) :
    output s omitZeroMembers = do
      failIf (grossMinor s.pairs > maxAggregateMinor ∨ grossMinor s.pairs < -maxAggregateMinor)
        (err .aggregateLimitExceeded "grossMinor")
      return ⟨s.contextId,
        ((s.members.keys.insertionSort (· ≤ ·)).filter fun id =>
          !omitZeroMembers ∨ s.members.get? id ≠ some 0 ∨
            id ∈ (pairRows s.pairs).flatMap fun row => [row.1.1, row.1.2]).map fun id =>
              (id, (s.members.get? id).getD 0),
        pairRows s.pairs⟩ := by
  simp only [output, Dart.bounded, bind_assoc, pure_bind]
  rfl

/-- The output is determined by the context and the sheet. -/
theorem output_congr {s t : State} (hc : s.contextId = t.contextId) (h : s.sheet = t.sheet)
    (omitZeroMembers : Bool) : output s omitZeroMembers = output t omitZeroMembers := by
  have hpair : s.pairs.toFinsupp = t.pairs.toFinsupp := congrArg Sheet.pair h
  have hbalance : s.members.toFinsupp = t.members.toFinsupp := congrArg Sheet.balance h
  have hkeys : ∀ id, id ∈ s.members.keys ↔ id ∈ t.members.keys :=
    fun id => Set.ext_iff.mp (congrArg Sheet.parties h) id
  have hget : s.members.get? = t.members.get? :=
    funext (InsertionMap.get?_eq_of_toFinsupp hkeys hbalance)
  rw [output_def, output_def, pairRows_congr hpair, grossMinor_congr hpair, sort_keys_congr hkeys,
    hget, hc]

/-! ### Reading an envelope -/

/-- What `parseEnvelope` guarantees of a state. -/
structure State.Valid (s : State) : Prop where
  context : isMember s.contextId = true
  isMember : ∀ id ∈ s.members.keys, isMember id = true
  size : s.members.size ≤ 200
  pairs : ∀ q ∈ s.pairs.keys, q.1 < q.2 ∧ q.1 ∈ s.members.keys ∧ q.2 ∈ s.members.keys
  bounded : ∀ row ∈ s.members.entries, |row.2| ≤ maxAggregateMinor
  balance : s.members.toFinsupp = net s.pairs.toFinsupp
  gross : grossMinor s.pairs ≤ maxAggregateMinor

/-- A valid state shows a consistent sheet. -/
theorem State.Valid.consistent {s : State} (h : s.Valid) : s.sheet.Consistent :=
  ⟨h.balance, fun q hq => (h.pairs q (InsertionMap.mem_keys_of_mem_support hq)).2⟩

theorem signed_eq_ok {value : Json} {field : String} {z : ℤ} (h : signed value field = .ok z) :
    |z| ≤ maxAggregateMinor := by
  cases value with
  | str s =>
    simp only [signed, ↓failIf_bind_eq_ok, bounded_eq_ok] at h
    exact h.2.2 ▸ h.2.1
  | _ => simp [signed] at h

/-- A member row that was read is new, a member id, and bounded. -/
theorem parseMember_eq_ok {field : String} {m m' : InsertionMap JsString ℤ} {entry : Json × ℕ}
    (h : parseMember field m entry = .ok m') :
    ∃ id, ∃ value : ℤ, isMember id = true ∧ |value| ≤ maxAggregateMinor ∧ id ∉ m.keys ∧
      m' = m.set id value := by
  simp only [parseMember, member_eq, ↓failIf_bind_eq_ok, bind_eq_ok, pure_eq_ok,
    Except.ok.injEq] at h
  obtain ⟨-, -, id, hid, hnew, value, hvalue, rfl⟩ := h
  exact ⟨id, value, (member_eq_ok.mp hid).2, signed_eq_ok hvalue, hnew, rfl⟩

theorem parseMembers_valid {field : String} {rows : List Json} {m : InsertionMap JsString ℤ}
    (h : rows.zipIdx.foldlM (parseMember field) .empty = .ok m) :
    (∀ id ∈ m.keys, isMember id = true) ∧ ∀ row ∈ m.entries, |row.2| ≤ maxAggregateMinor := by
  refine foldlM_induction (P := fun m : InsertionMap JsString ℤ =>
    (∀ id ∈ m.keys, isMember id = true) ∧ ∀ row ∈ m.entries, |row.2| ≤ maxAggregateMinor)
    ?_ (by simp) h
  rintro m entry m' - ⟨hk, hb⟩ hstep
  obtain ⟨id, value, hid, hvalue, -, rfl⟩ := parseMember_eq_ok hstep
  refine ⟨fun j hj => ?_, fun row hrow => ?_⟩
  · rcases InsertionMap.mem_keys_set.mp hj with rfl | hj
    · exact hid
    · exact hk j hj
  · rcases InsertionMap.mem_entries_set hrow with rfl | hrow
    · exact hvalue
    · exact hb row hrow

theorem size_parseMembers {field : String} {rows : List Json} {m : InsertionMap JsString ℤ}
    (h : rows.zipIdx.foldlM (parseMember field) .empty = .ok m) : m.size = rows.length := by
  have := foldlM_add (q := InsertionMap.size) (w := fun _ : Json × ℕ => 1)
    (fun m entry m' _ hstep => ?_) h
  · simpa [InsertionMap.size] using this
  · obtain ⟨id, value, -, -, hnew, rfl⟩ := parseMember_eq_ok hstep
    simp [InsertionMap.size, InsertionMap.entries_set_of_notMem value hnew]

/-- The loop invariant of the pair loop: `incidence` holds the balances the pairs imply, and names
their parties. -/
structure PairsRead (acc : InsertionMap (JsString × JsString) ℤ × InsertionMap JsString ℤ) :
    Prop where
  lt : ∀ q ∈ acc.1.keys, q.1 < q.2
  isPair : ∀ q ∈ acc.1.keys, IsPair q
  parties : ∀ q ∈ acc.1.keys, q.1 ∈ acc.2.keys ∧ q.2 ∈ acc.2.keys
  incident : ∀ id ∈ acc.2.keys, ∃ q ∈ acc.1.keys, id = q.1 ∨ id = q.2
  balance : acc.2.toFinsupp = net acc.1.toFinsupp

theorem PairsRead.empty : PairsRead (.empty, .empty) := by
  constructor <;> simp

theorem PairsRead.set {pairs : InsertionMap (JsString × JsString) ℤ}
    {incidence : InsertionMap JsString ℤ} (h : PairsRead (pairs, incidence)) {low high : JsString}
    (amount : ℤ) (hlt : low < high) (hp : IsPair (low, high)) (hnew : (low, high) ∉ pairs.keys) :
    PairsRead (pairs.set (low, high) amount,
      (incidence.set low ((incidence.get? low).getD 0 + amount)).set high
        (((incidence.set low ((incidence.get? low).getD 0 + amount)).get? high).getD 0 - amount)) := by
  refine ⟨fun q hq => ?_, fun q hq => ?_, fun q hq => ?_, fun id hid => ?_, ?_⟩
  · rcases InsertionMap.mem_keys_set.mp hq with rfl | hq
    · exact hlt
    · exact h.lt q hq
  · rcases InsertionMap.mem_keys_set.mp hq with rfl | hq
    · exact hp
    · exact h.isPair q hq
  · simp only [InsertionMap.mem_keys_set]
    rcases InsertionMap.mem_keys_set.mp hq with rfl | hq
    · simp
    · exact ⟨.inr (.inr (h.parties q hq).1), .inr (.inr (h.parties q hq).2)⟩
  · simp only [InsertionMap.mem_keys_set] at hid ⊢
    rcases hid with rfl | rfl | hid
    · exact ⟨_, .inl rfl, .inr rfl⟩
    · exact ⟨_, .inl rfl, .inl rfl⟩
    · obtain ⟨q, hq, hid⟩ := h.incident id hid
      exact ⟨q, .inr hq, hid⟩
  · have hnone : pairs.get? (low, high) = none := InsertionMap.get?_eq_none_iff.mpr hnew
    have hbalance : incidence.toFinsupp = net pairs.toFinsupp := h.balance
    simp only [sub_eq_add_neg, InsertionMap.toFinsupp_set_add]
    rw [InsertionMap.toFinsupp_set, hnone, Option.getD_none, sub_zero, map_add, net_single,
      hbalance, Finsupp.single_neg]
    abel

theorem parsePair_read {field : String}
    {acc acc' : InsertionMap (JsString × JsString) ℤ × InsertionMap JsString ℤ}
    {entry : Json × ℕ} (h : parsePair field acc entry = .ok acc') (hacc : PairsRead acc) :
    PairsRead acc' := by
  obtain ⟨pairs, incidence⟩ := acc
  simp only [parsePair, member_eq, ↓failIf_bind_eq_ok, bind_eq_ok, pure_eq_ok,
    Except.ok.injEq] at h
  obtain ⟨-, -, low, hlow, high, hhigh, hlt, amount, -, hnew, rfl⟩ := h
  exact hacc.set amount (not_le.mp hlt) ⟨(member_eq_ok.mp hlow).2, (member_eq_ok.mp hhigh).2⟩ hnew

theorem mem_list_eq_ok {value : Json} {max : ℕ} {code : ErrorCode} {field : String}
    {items : List Json} :
    Dart.list value max code field = .ok items ↔ value = .arr items ∧ items.length ≤ max := by
  cases value with
  | arr rows =>
    simp only [Dart.list, failIf_bind_eq_ok, pure_eq_ok, Except.ok.injEq, not_lt, gt_iff_lt,
      Json.arr.injEq]
    exact ⟨fun ⟨h, he⟩ => ⟨he, he ▸ h⟩, fun ⟨he, h⟩ => ⟨he ▸ h, he⟩⟩
  | _ => simp [Dart.list]

theorem scope_eq_ok {input : Json} {contextId : JsString} :
    Dart.scope input = .ok contextId ↔
      input.get "contextId" = .str contextId ∧ isMember contextId = true ∧
        input.get "currency" = .str (js "INR") := by
  simp only [scope_eq, SharedExpenses.scope, bind_eq_ok, member_eq_ok, currency_eq_ok, pure_eq_ok,
    Except.ok.injEq, exists_const]
  constructor
  · rintro ⟨id, ⟨hid, hm⟩, hc, rfl⟩
    exact ⟨hid, hm, hc⟩
  · rintro ⟨hid, hm, hc⟩
    exact ⟨contextId, ⟨hid, hm⟩, hc, rfl⟩

/-- The last check of `parseEnvelope`: the incident members are listed with the balances the pairs
imply. -/
theorem balance_of_incidence {pairs : InsertionMap (JsString × JsString) ℤ}
    {members incidence : InsertionMap JsString ℤ} (hread : PairsRead (pairs, incidence))
    (h : ∀ id ∈ unionKeys incidence.keys members.keys,
      id ∈ members.keys ∧ some ((incidence.get? id).getD 0) = members.get? id) :
    (∀ q ∈ pairs.keys, q.1 ∈ members.keys ∧ q.2 ∈ members.keys) ∧
      members.toFinsupp = net pairs.toFinsupp := by
  refine ⟨fun q hq => ⟨?_, ?_⟩, ?_⟩
  · exact (h _ (mem_unionKeys.mpr (.inl (hread.parties q hq).1))).1
  · exact (h _ (mem_unionKeys.mpr (.inl (hread.parties q hq).2))).1
  · have hbalance : incidence.toFinsupp = net pairs.toFinsupp := hread.balance
    rw [← hbalance]
    refine Finsupp.ext fun id => ?_
    rw [InsertionMap.toFinsupp_apply, InsertionMap.toFinsupp_apply]
    by_cases hid : id ∈ unionKeys incidence.keys members.keys
    · rw [← (h id hid).2, Option.getD_some]
    · rw [mem_unionKeys, not_or] at hid
      rw [InsertionMap.get?_eq_none_iff.mpr hid.1, InsertionMap.get?_eq_none_iff.mpr hid.2]

/-- A state that was read is valid. -/
theorem parseEnvelope_valid {input : Json} {field : String} {s : State}
    (h : parseEnvelope input field = .ok s) : s.Valid := by
  simp only [parseEnvelope, ↓failIf_bind_eq_ok, bind_eq_ok, pure_eq_ok, Except.ok.injEq,
    bounded_eq_ok, scope_eq_ok, mem_list_eq_ok, List.any_eq_true, decide_eq_true_eq, not_exists,
    not_and, not_or, not_not] at h
  obtain ⟨-, -, contextId, ⟨-, hc, -⟩, memberRows, ⟨-, hsize⟩, pairRows, -, members, hm,
    ⟨pairs, incidence⟩, hp, hcheck, gross, ⟨hgross, -⟩, rfl⟩ := h
  have hread : PairsRead (pairs, incidence) :=
    foldlM_induction (fun _ _ _ _ hacc hstep => parsePair_read hstep hacc) PairsRead.empty hp
  obtain ⟨hmember, hbounded⟩ := parseMembers_valid hm
  obtain ⟨hparties, hbalance⟩ := balance_of_incidence hread hcheck
  exact ⟨hc, hmember, size_parseMembers hm ▸ hsize, fun q hq => ⟨hread.lt q hq, hparties q hq⟩,
    hbounded, hbalance, (le_abs_self _).trans hgross⟩

/-! ### Reading back what was written -/

/-- The row of a member in an envelope. -/
def memberJson (row : JsString × ℤ) : Json :=
  object [("memberId", .str row.1), ("balanceMinor", signedMinor row.2)]

/-- The row of a pair in an envelope. -/
def pairJson (row : (JsString × JsString) × ℤ) : Json :=
  object [("lowMemberId", .str row.1.1), ("highMemberId", .str row.1.2),
    ("balanceMinor", signedMinor row.2)]

theorem signed_signedMinor {z : ℤ} (h : |z| ≤ maxAggregateMinor) (field : String) :
    signed (signedMinor z) field = .ok z := by
  have hlen : (signedDecimal z).length ≤ 17 := by
    refine length_signedDecimal_le (by norm_num) ?_
    have : |z| < 10 ^ 16 := lt_of_le_of_lt h (by norm_num [maxAggregateMinor])
    rw [Int.abs_eq_natAbs] at this
    exact_mod_cast this
  simp only [signedMinor, signed, isSigned_signedDecimal, signedValue_signedDecimal]
  rw [failIf_of_not (by simpa using hlen), ok_bind, bounded_eq_ok]
  exact ⟨h, rfl⟩

theorem parseMember_memberJson {field : String} {m : InsertionMap JsString ℤ}
    {row : JsString × ℤ} (hid : isMember row.1 = true) (hnew : row.1 ∉ m.keys)
    (hb : |row.2| ≤ maxAggregateMinor) (i : ℕ) :
    parseMember field m (memberJson row, i) = .ok (m.set row.1 row.2) := by
  have hrecord : ∀ path, Dart.record (memberJson row) ["memberId", "balanceMinor"] path =
      .ok () := fun path => by
    simp [memberJson, object, Dart.record, Json.hasOwn, Json.fieldOf]
  have hget : (memberJson row).get "memberId" = .str row.1 := by
    simp [memberJson, object, Json.get, Json.fieldOf]
  have hget' : (memberJson row).get "balanceMinor" = signedMinor row.2 := by
    simp [memberJson, object, Json.get, Json.fieldOf]
  have hmember : ∀ path, Dart.member (.str row.1) path = .ok row.1 := fun path => by
    rw [member_eq, member_eq_ok]
    exact ⟨rfl, hid⟩
  simp only [parseMember, hrecord, hget, hget', hmember, ok_bind, failIf_of_not hnew,
    signed_signedMinor hb]
  rfl

/-- Rows of distinct members are read back. -/
theorem parseMembers_memberJson (field : String) (rows : List (JsString × ℤ)) (k : ℕ)
    (m : InsertionMap JsString ℤ) (hn : (m.keys ++ rows.map Prod.fst).Nodup)
    (hrows : ∀ row ∈ rows, isMember row.1 = true ∧ |row.2| ≤ maxAggregateMinor) :
    ∃ m', ((rows.map memberJson).zipIdx k).foldlM (parseMember field) m = .ok m' := by
  induction rows generalizing k m with
  | nil => exact ⟨m, rfl⟩
  | cons row rows ih =>
    have hnew : row.1 ∉ m.keys := fun hm =>
      (List.nodup_append.mp hn).2.2 row.1 hm row.1 List.mem_cons_self rfl
    have hset := InsertionMap.entries_set_of_notMem row.2 hnew
    obtain ⟨hid, hb⟩ := hrows row List.mem_cons_self
    obtain ⟨m', hm'⟩ := ih (k + 1) (m.set row.1 row.2)
      (by simpa [InsertionMap.keys, hset] using hn)
      fun row hrow => hrows row (List.mem_cons_of_mem _ hrow)
    refine ⟨m', ?_⟩
    rw [List.map_cons, List.zipIdx_cons, List.foldlM_cons, parseMember_memberJson hid hnew hb,
      ok_bind, hm']

theorem parsePair_pairJson {field : String} {pairs : InsertionMap (JsString × JsString) ℤ}
    (incidence : InsertionMap JsString ℤ) {row : (JsString × JsString) × ℤ} (hlt : row.1.1 < row.1.2)
    (hp : IsPair row.1) (hnew : row.1 ∉ pairs.keys) (hb : |row.2| ≤ maxAggregateMinor) (i : ℕ) :
    ∃ incidence', parsePair field (pairs, incidence) (pairJson row, i) =
      .ok (pairs.set row.1 row.2, incidence') := by
  have hrecord : ∀ path, Dart.record (pairJson row)
      ["lowMemberId", "highMemberId", "balanceMinor"] path = .ok () := fun path => by
    simp [pairJson, object, Dart.record, Json.hasOwn, Json.fieldOf]
  have hlow : (pairJson row).get "lowMemberId" = .str row.1.1 := by
    simp [pairJson, object, Json.get, Json.fieldOf]
  have hhigh : (pairJson row).get "highMemberId" = .str row.1.2 := by
    simp [pairJson, object, Json.get, Json.fieldOf]
  have hamount : (pairJson row).get "balanceMinor" = signedMinor row.2 := by
    simp [pairJson, object, Json.get, Json.fieldOf]
  have hmember : ∀ id path, isMember id = true → Dart.member (.str id) path = .ok id :=
    fun id path hid => by
      rw [member_eq, member_eq_ok]
      exact ⟨rfl, hid⟩
  simp only [parsePair, hrecord, hlow, hhigh, hamount, hmember _ _ hp.1, hmember _ _ hp.2, ok_bind,
    failIf_of_not (not_le.mpr hlt), failIf_of_not hnew, signed_signedMinor hb]
  exact ⟨_, rfl⟩

/-- Rows of distinct pairs are read back. -/
theorem parsePairs_pairJson (field : String) (rows : List ((JsString × JsString) × ℤ)) (k : ℕ)
    (pairs : InsertionMap (JsString × JsString) ℤ) (incidence : InsertionMap JsString ℤ)
    (hn : (pairs.keys ++ rows.map Prod.fst).Nodup)
    (hrows : ∀ row ∈ rows, row.1.1 < row.1.2 ∧ IsPair row.1 ∧ |row.2| ≤ maxAggregateMinor) :
    ∃ acc, ((rows.map pairJson).zipIdx k).foldlM (parsePair field) (pairs, incidence) =
      .ok acc := by
  induction rows generalizing k pairs incidence with
  | nil => exact ⟨_, rfl⟩
  | cons row rows ih =>
    have hnew : row.1 ∉ pairs.keys := fun hm =>
      (List.nodup_append.mp hn).2.2 row.1 hm row.1 List.mem_cons_self rfl
    have hset := InsertionMap.entries_set_of_notMem row.2 hnew
    obtain ⟨hlt, hp, hb⟩ := hrows row List.mem_cons_self
    obtain ⟨incidence', hstep⟩ := parsePair_pairJson incidence hlt hp hnew hb k
    obtain ⟨acc, hacc⟩ := ih (k + 1) (pairs.set row.1 row.2) incidence'
      (by simpa [InsertionMap.keys, hset] using hn)
      fun row hrow => hrows row (List.mem_cons_of_mem _ hrow)
    refine ⟨acc, ?_⟩
    rw [List.map_cons, List.zipIdx_cons, List.foldlM_cons, hstep, ok_bind, hacc]

/-! An envelope that is read at all is read as it was written. -/

theorem eq_of_signed_signedMinor {z value : ℤ} {field : String}
    (h : signed (signedMinor z) field = .ok value) : value = z := by
  simp only [signedMinor, signed, failIf_bind_eq_ok, bounded_eq_ok, signedValue_signedDecimal] at h
  exact h.2.2

theorem parseMember_memberJson_eq_ok {field : String} {m m' : InsertionMap JsString ℤ}
    {row : JsString × ℤ} {i : ℕ} (h : parseMember field m (memberJson row, i) = .ok m') :
    row.1 ∉ m.keys ∧ m' = m.set row.1 row.2 := by
  have hget : (memberJson row).get "memberId" = .str row.1 := by
    simp [memberJson, object, Json.get, Json.fieldOf]
  have hget' : (memberJson row).get "balanceMinor" = signedMinor row.2 := by
    simp [memberJson, object, Json.get, Json.fieldOf]
  simp only [parseMember, member_eq, hget, hget', ↓failIf_bind_eq_ok, bind_eq_ok, pure_eq_ok,
    Except.ok.injEq, member_eq_ok, Json.str.injEq] at h
  obtain ⟨-, -, id, ⟨rfl, -⟩, hnew, value, hvalue, rfl⟩ := h
  exact ⟨hnew, by rw [eq_of_signed_signedMinor hvalue]⟩

theorem entries_of_parseMembers {field : String} {rows : List (JsString × ℤ)} {k : ℕ}
    {m m' : InsertionMap JsString ℤ}
    (h : ((rows.map memberJson).zipIdx k).foldlM (parseMember field) m = .ok m') :
    m'.entries = m.entries ++ rows := by
  induction rows generalizing k m with
  | nil => simp_all [pure_eq_ok]
  | cons row rows ih =>
    rw [List.map_cons, List.zipIdx_cons, List.foldlM_cons, bind_eq_ok] at h
    obtain ⟨m₁, hstep, h⟩ := h
    obtain ⟨hnew, rfl⟩ := parseMember_memberJson_eq_ok hstep
    rw [ih h, InsertionMap.entries_set_of_notMem row.2 hnew, List.append_assoc,
      List.singleton_append]

theorem parsePair_pairJson_eq_ok {field : String}
    {acc acc' : InsertionMap (JsString × JsString) ℤ × InsertionMap JsString ℤ}
    {row : (JsString × JsString) × ℤ} {i : ℕ}
    (h : parsePair field acc (pairJson row, i) = .ok acc') :
    row.1 ∉ acc.1.keys ∧ acc'.1 = acc.1.set row.1 row.2 := by
  obtain ⟨pairs, incidence⟩ := acc
  have hlow : (pairJson row).get "lowMemberId" = .str row.1.1 := by
    simp [pairJson, object, Json.get, Json.fieldOf]
  have hhigh : (pairJson row).get "highMemberId" = .str row.1.2 := by
    simp [pairJson, object, Json.get, Json.fieldOf]
  have hamount : (pairJson row).get "balanceMinor" = signedMinor row.2 := by
    simp [pairJson, object, Json.get, Json.fieldOf]
  simp only [parsePair, member_eq, hlow, hhigh, hamount, ↓failIf_bind_eq_ok, bind_eq_ok,
    pure_eq_ok, Except.ok.injEq, member_eq_ok, Json.str.injEq] at h
  obtain ⟨-, -, low, ⟨rfl, -⟩, high, ⟨rfl, -⟩, -, value, hvalue, hnew, rfl⟩ := h
  exact ⟨hnew, by rw [eq_of_signed_signedMinor hvalue]⟩

theorem entries_of_parsePairs {field : String} {rows : List ((JsString × JsString) × ℤ)} {k : ℕ}
    {acc acc' : InsertionMap (JsString × JsString) ℤ × InsertionMap JsString ℤ}
    (h : ((rows.map pairJson).zipIdx k).foldlM (parsePair field) acc = .ok acc') :
    acc'.1.entries = acc.1.entries ++ rows := by
  induction rows generalizing k acc with
  | nil => simp_all [pure_eq_ok]
  | cons row rows ih =>
    rw [List.map_cons, List.zipIdx_cons, List.foldlM_cons, bind_eq_ok] at h
    obtain ⟨acc₁, hstep, h⟩ := h
    obtain ⟨hnew, he⟩ := parsePair_pairJson_eq_ok hstep
    rw [ih h, he, InsertionMap.entries_set_of_notMem row.2 hnew, List.append_assoc,
      List.singleton_append]

/-- An envelope that is read shows the amounts of its rows. -/
theorem sheet_of_parseEnvelope {e : Envelope} {field : String} {s : State}
    (h : parseEnvelope e.toJson field = .ok s) :
    s.sheet = ⟨{id | id ∈ e.members.map Prod.fst},
      (e.members.map fun row => Finsupp.single row.1 row.2).sum,
      (e.pairs.map fun row => Finsupp.single row.1 row.2).sum⟩ := by
  have hmembersJson : e.toJson.get "members" = .arr (e.members.map memberJson) := by
    simp [Envelope.toJson, object, Json.get, Json.fieldOf, memberJson]
  have hpairsJson : e.toJson.get "pairs" = .arr (e.pairs.map pairJson) := by
    simp [Envelope.toJson, object, Json.get, Json.fieldOf, pairJson]
  simp only [parseEnvelope, ↓failIf_bind_eq_ok, bind_eq_ok, pure_eq_ok, Except.ok.injEq,
    mem_list_eq_ok, hmembersJson, hpairsJson, Json.arr.injEq] at h
  obtain ⟨-, -, contextId, -, memberRows, ⟨rfl, -⟩, pairRows, ⟨rfl, -⟩, members, hm,
    ⟨pairs, incidence⟩, hp, -, -, -, rfl⟩ := h
  have hme := entries_of_parseMembers hm
  have hpe := entries_of_parsePairs hp
  rw [InsertionMap.entries_empty, List.nil_append] at hme hpe
  rw [State.sheet, InsertionMap.toFinsupp, InsertionMap.toFinsupp, InsertionMap.sum,
    InsertionMap.sum, InsertionMap.keys, hme, hpe]

theorem abs_le_grossMinor {pairs : InsertionMap (JsString × JsString) ℤ}
    {row : (JsString × JsString) × ℤ} (h : row ∈ pairs.entries) : |row.2| ≤ grossMinor pairs := by
  rw [grossMinor_eq_sum]
  refine List.single_le_sum (fun a ha => ?_) _ (List.mem_map_of_mem h)
  obtain ⟨row, -, rfl⟩ := List.mem_map.mp ha
  exact abs_nonneg _

theorem grossMinor_abs (pairs : InsertionMap (JsString × JsString) ℤ) :
    |grossMinor pairs| = grossMinor pairs := by
  rw [grossMinor_eq_sum]
  refine abs_of_nonneg (List.sum_nonneg fun a ha => ?_)
  obtain ⟨row, -, rfl⟩ := List.mem_map.mp ha
  exact abs_nonneg _

/-- Two hundred members have at most 19900 pairs. -/
theorem State.Valid.length_pairRows_le {s : State} (h : s.Valid) :
    (pairRows s.pairs).length ≤ 19900 := by
  have hcard : ((pairRows s.pairs).map Prod.fst).toFinset.card ≤
      s.members.keys.toFinset.card * (s.members.keys.toFinset.card - 1) / 2 := by
    refine card_pairs_le fun q hq => ?_
    obtain ⟨row, hrow, rfl⟩ := List.mem_map.mp (List.mem_toFinset.mp hq)
    simp only [List.mem_toFinset]
    exact h.pairs _ (List.mem_map_of_mem (mem_pairRows.mp hrow).1)
  have hsize : s.members.keys.length ≤ 200 := s.members.size_eq_length_keys ▸ h.size
  have hkeys : s.members.keys.toFinset.card = s.members.keys.length :=
    List.toFinset_card_of_nodup s.members.nodup_keys
  rw [List.toFinset_card_of_nodup (nodup_pairRows _), List.length_map, hkeys] at hcard
  have hmul := Nat.mul_le_mul hsize (Nat.sub_le_sub_right hsize 1)
  omega

/-- The rows a successful `output` writes. -/
theorem output_eq_ok {s : State} {e : Envelope} :
    output s = .ok e ↔ |grossMinor s.pairs| ≤ maxAggregateMinor ∧
      e = ⟨s.contextId, s.members.sorted, pairRows s.pairs⟩ := by
  rw [output_def, s.members.sorted_eq_map_keys 0]
  simp only [Bool.not_false, true_or, decide_true, List.filter_true, failIf_bind_eq_ok,
    pure_eq_ok, Except.ok.injEq, not_or, not_lt, gt_iff_lt, abs_le]
  constructor
  · rintro ⟨⟨h₁, h₂⟩, h⟩
    exact ⟨⟨h₂, h₁⟩, h.symm⟩
  · rintro ⟨⟨h₂, h₁⟩, h⟩
    exact ⟨⟨h₁, h₂⟩, h.symm⟩

theorem toFinsupp_of_entries_eq {p q : InsertionMap (JsString × JsString) ℤ}
    (h : p.entries = pairRows q) : p.toFinsupp = q.toFinsupp := by
  rw [InsertionMap.toFinsupp, InsertionMap.sum, h]
  exact sum_pairRows Finsupp.single Finsupp.single_zero q

/-- The projection a valid state writes is read back, with the same sheet. -/
theorem parseEnvelope_output {t : State} (ht : t.Valid) (field : String) :
    ∃ s, parseEnvelope (Envelope.toJson ⟨t.contextId, t.members.sorted, pairRows t.pairs⟩) field =
      .ok s ∧ s.contextId = t.contextId ∧ s.sheet = t.sheet := by
  set e : Envelope := ⟨t.contextId, t.members.sorted, pairRows t.pairs⟩
  -- the two loops
  obtain ⟨m, hm⟩ := parseMembers_memberJson field t.members.sorted 0 .empty
    (by simpa using t.members.nodup_keys_sorted) fun row hrow => by
      have hrow := InsertionMap.mem_sorted.mp hrow
      exact ⟨ht.isMember _ (List.mem_map_of_mem hrow), ht.bounded _ hrow⟩
  obtain ⟨⟨p, incidence⟩, hp⟩ := parsePairs_pairJson field (pairRows t.pairs) 0 .empty .empty
    (by simpa using nodup_pairRows t.pairs) fun row hrow => by
      have hrow := (mem_pairRows.mp hrow).1
      obtain ⟨hlt, h₁, h₂⟩ := ht.pairs _ (List.mem_map_of_mem hrow)
      exact ⟨hlt, ⟨ht.isMember _ h₁, ht.isMember _ h₂⟩, (abs_le_grossMinor hrow).trans ht.gross⟩
  have hread : PairsRead (p, incidence) :=
    foldlM_induction (fun _ _ _ _ hacc hstep => parsePair_read hstep hacc) PairsRead.empty hp
  have hme : m.entries = t.members.sorted := by simpa using entries_of_parseMembers hm
  have hpe : p.entries = pairRows t.pairs := by simpa using entries_of_parsePairs hp
  -- what they have read
  have hmget : ∀ id, m.get? id = t.members.get? id := fun id => Option.ext fun v => by
    rw [InsertionMap.get?_eq_some_iff, InsertionMap.get?_eq_some_iff, hme]
    simp
  have hkeys : ∀ id, id ∈ m.keys ↔ id ∈ t.members.keys := fun id => by
    rw [InsertionMap.mem_keys_iff, InsertionMap.mem_keys_iff, hmget]
  have hmembers : m.toFinsupp = t.members.toFinsupp := Finsupp.ext fun id => by
    rw [InsertionMap.toFinsupp_apply, InsertionMap.toFinsupp_apply, hmget]
  have hpairs : p.toFinsupp = t.pairs.toFinsupp := toFinsupp_of_entries_eq hpe
  have hbalance : incidence.toFinsupp = m.toFinsupp := by
    rw [hmembers, ht.balance, ← hpairs]
    exact hread.balance
  have hcheck : ∀ id ∈ unionKeys incidence.keys m.keys,
      id ∈ m.keys ∧ some ((incidence.get? id).getD 0) = m.get? id := by
    intro id hid
    have hmem : id ∈ m.keys := by
      rcases mem_unionKeys.mp hid with hid | hid
      · obtain ⟨q, hq, hid⟩ := hread.incident id hid
        obtain ⟨row, hrow, rfl⟩ := List.mem_map.mp hq
        rw [hpe] at hrow
        obtain ⟨-, h₁, h₂⟩ := ht.pairs _ (List.mem_map_of_mem (mem_pairRows.mp hrow).1)
        rcases hid with rfl | rfl
        · exact (hkeys _).mpr h₁
        · exact (hkeys _).mpr h₂
      · exact hid
    refine ⟨hmem, ?_⟩
    obtain ⟨v, hv⟩ := Option.isSome_iff_exists.mp (InsertionMap.mem_keys_iff.mp hmem)
    have happly := DFunLike.congr_fun hbalance id
    rw [InsertionMap.toFinsupp_apply, InsertionMap.toFinsupp_apply, hv, Option.getD_some] at happly
    rw [hv, happly]
  refine ⟨⟨t.contextId, m, p⟩, ?_, rfl, ?_⟩
  · have hrecord : Dart.record e.toJson ["contextId", "currency", "members", "pairs"] field =
        .ok () := by
      simp [Envelope.toJson, object, Dart.record, Json.hasOwn, Json.fieldOf]
    have hscope : scope e.toJson = .ok t.contextId := by
      rw [scope_eq_ok]
      simp [Envelope.toJson, object, Json.get, Json.fieldOf, ht.context, e, text]
    have hmembersJson : e.toJson.get "members" = .arr (t.members.sorted.map memberJson) := by
      simp [Envelope.toJson, object, Json.get, Json.fieldOf, e, memberJson]
    have hpairsJson : e.toJson.get "pairs" = .arr ((pairRows t.pairs).map pairJson) := by
      simp [Envelope.toJson, object, Json.get, Json.fieldOf, e, pairJson]
    have hlist : ∀ path, Dart.list (e.toJson.get "members") 200 .invalidParticipantCount path =
        .ok (t.members.sorted.map memberJson) := fun path => by
      refine mem_list_eq_ok.mpr ⟨hmembersJson, ?_⟩
      rw [List.length_map, t.members.sorted_perm.length_eq]
      exact ht.size
    have hlist' : ∀ path, Dart.list (e.toJson.get "pairs") 19900 .invalidBalancePair path =
        .ok ((pairRows t.pairs).map pairJson) := fun path =>
      mem_list_eq_ok.mpr ⟨hpairsJson, by simpa using ht.length_pairRows_le⟩
    have hgross : Dart.bounded (grossMinor p) "grossMinor" = .ok (grossMinor p) := by
      rw [bounded_eq_ok, grossMinor_congr hpairs, grossMinor_abs]
      exact ⟨ht.gross, rfl⟩
    have hany : ¬ ((unionKeys incidence.keys m.keys).any fun id =>
        id ∉ m.keys ∨ some ((incidence.get? id).getD 0) ≠ m.get? id) = true := by
      simpa using hcheck
    simp only [parseEnvelope, hrecord, hscope, hlist, hlist', hm, hp, ok_bind, failIf_of_not hany,
      hgross]
    rfl
  · refine Sheet.ext (Set.ext hkeys) hmembers hpairs

end PandaPay.SharedExpenses.Dart
