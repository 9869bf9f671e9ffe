import PandaPay.SharedExpenses.Twins.Domain
import PandaPay.SharedExpenses.Domain
import PandaPay.SharedExpenses.Dart.Journal

/-!
# The two journals agree

Every function of the Dart journal gives, on every JSON input, the result of its JavaScript twin.
The one difference in their states is the key of a pair, the two ids in Dart and one string in
JavaScript; as no member id contains a colon the string determines the ids.

## Main definitions

* `Mirrors`: a Dart state and a JavaScript state with the same members and pairs

## Main results

* `pairKey_injective`: the string key determines the pair
* `revisionDelta_eq`, `paymentDelta_eq`, `applied_eq`, `allocateSettlement_eq`
-/

namespace PandaPay.SharedExpenses

/-- No member id contains a colon. -/
theorem colon_notMem {s : JsString} (h : isMember s = true) : ∀ c ∈ s, c ≠ 58 := by
  intro c hc h58
  subst h58
  cases s with
  | nil => simp at hc
  | cons d ds =>
    simp only [isMember, isMemberName, Bool.and_eq_true, List.all_eq_true] at h
    rcases List.mem_cons.mp hc with rfl | hd
    · exact absurd h.2.1 (by decide)
    · exact absurd (h.2.2 _ hd) (by decide)

/-- The string key of a pair determines the pair. -/
theorem pairKey_injective {low high low' high' : JsString} (hl : isMember low = true)
    (hh : isMember high = true) (h : pairKey low' high' = pairKey low high) :
    low' = low ∧ high' = high := by
  have hcolon : js ":" = [58] := by decide
  simp only [pairKey, hcolon, List.append_assoc, List.singleton_append] at h
  rw [eq_comm, List.append_cons_inj_of_notMem (fun hc => colon_notMem hl _ hc rfl)
    (fun hc => colon_notMem hh _ hc rfl)] at h
  exact ⟨h.1.symm, h.2.2.symm⟩

namespace Dart

/-! ### Checks -/

theorem bounded_eq (value : ℤ) (field : String) :
    Dart.bounded value field = SharedExpenses.bounded value field := rfl

theorem signed_eq (value : Json) (field : String) :
    Dart.signed value field = SharedExpenses.signed value field := by
  cases value <;> rfl

theorem scope_eq (input : Json) : Dart.scope input = SharedExpenses.scope input := by
  simp only [Dart.scope, SharedExpenses.scope, member_eq, currency_eq]

theorem list_eq (value : Json) (max : ℕ) (code : ErrorCode) (field : String) :
    Dart.list value max code field = SharedExpenses.list value max code field := by
  cases value <;> rfl

/-! ### States -/

/-- The key JavaScript files a pair under. -/
def keyOf (pair : JsString × JsString) : JsString := pairKey pair.1 pair.2

/-- The row JavaScript files under it. -/
def rowOf (pair : JsString × JsString) (amount : ℤ) : PairRow := ⟨pair.1, pair.2, amount⟩

/-- A pair of member ids. -/
def IsPair (pair : JsString × JsString) : Prop :=
  isMember pair.1 = true ∧ isMember pair.2 = true

/-- The pairs of a JavaScript state mirror those of a Dart state. -/
structure MirrorsPairs (dart : InsertionMap (JsString × JsString) ℤ)
    (javascript : InsertionMap JsString PairRow) : Prop where
  rekeys : InsertionMap.Rekeys keyOf rowOf dart javascript
  isPair : ∀ pair ∈ dart.keys, IsPair pair

/-- A JavaScript state mirrors a Dart state. -/
structure Mirrors (dart : Dart.State) (javascript : SharedExpenses.State) : Prop where
  contextId : dart.contextId = javascript.contextId
  members : dart.members = javascript.members
  pairs : MirrorsPairs dart.pairs javascript.pairs

theorem mirrorsPairs_empty : MirrorsPairs .empty .empty :=
  ⟨InsertionMap.rekeys_empty, by simp⟩

theorem mirrors_empty (contextId : JsString) :
    Mirrors (.empty contextId) (.empty contextId) := ⟨rfl, rfl, mirrorsPairs_empty⟩

namespace MirrorsPairs

variable {d : InsertionMap (JsString × JsString) ℤ} {j : InsertionMap JsString PairRow}

theorem eq_of_keyOf_eq {pair : JsString × JsString} (hp : IsPair pair) :
    ∀ k ∈ d.keys, keyOf k = keyOf pair → k = pair := fun _ _ he => by
  obtain ⟨h₁, h₂⟩ := pairKey_injective hp.1 hp.2 he
  exact Prod.ext h₁ h₂

/-- The amount of a pair reads the same in both. -/
theorem amount_eq (h : MirrorsPairs d j) {pair : JsString × JsString} (hp : IsPair pair) :
    (j.get? (pairKey pair.1 pair.2)).map PairRow.amount = d.get? pair := by
  have hget : j.get? (pairKey pair.1 pair.2) = (d.get? pair).map (rowOf pair) :=
    h.rekeys.get? (eq_of_keyOf_eq hp)
  rw [hget, Option.map_map]
  exact congrFun Option.map_id _

theorem mem_keys (h : MirrorsPairs d j) {pair : JsString × JsString} (hp : IsPair pair) :
    keyOf pair ∈ j.keys ↔ pair ∈ d.keys :=
  h.rekeys.mem_keys (eq_of_keyOf_eq hp)

theorem set (h : MirrorsPairs d j) {pair : JsString × JsString} (hp : IsPair pair) (amount : ℤ) :
    MirrorsPairs (d.set pair amount) (j.set (keyOf pair) (rowOf pair amount)) := by
  refine ⟨h.rekeys.set amount (eq_of_keyOf_eq hp), fun k hk => ?_⟩
  rcases InsertionMap.mem_keys_set.mp hk with rfl | hk
  · exact hp
  · exact h.isPair k hk

theorem grossMinor (h : MirrorsPairs d j) :
    Dart.grossMinor d = SharedExpenses.grossMinor j := by
  rw [Dart.grossMinor, SharedExpenses.grossMinor, h.rekeys.values, InsertionMap.values,
    List.sum_eq_foldl, List.map_map, List.foldl_map, List.foldl_map]
  congr 1
  funext sum e
  simp only [Function.comp_apply, rowOf]
  split
  · rw [abs_of_neg ‹_›]
  · rw [abs_of_nonneg (not_lt.mp ‹_›)]

end MirrorsPairs

theorem addMember_agree {d : Dart.State} {j : SharedExpenses.State} (h : Mirrors d j)
    (id : JsString) (amount : ℤ) :
    Agree Mirrors (Dart.addMember d id amount) (SharedExpenses.addMember j id amount) := by
  rw [Dart.addMember, SharedExpenses.addMember, h.members, bounded_eq]
  refine (Agree.of_eq (R := Eq) (fun _ => rfl) rfl).bind fun value _ hv => ?_
  subst hv
  exact ⟨h.contextId, rfl, h.pairs⟩

theorem addPair_agree {d : Dart.State} {j : SharedExpenses.State} (h : Mirrors d j)
    {creditor debtor : JsString} (hc : isMember creditor = true) (hd : isMember debtor = true)
    (amount : ℤ) :
    Agree Mirrors (Dart.addPair d creditor debtor amount)
      (SharedExpenses.addPair j creditor debtor amount) := by
  have hp : IsPair (if creditor < debtor then creditor else debtor,
      if creditor < debtor then debtor else creditor) := by
    unfold IsPair
    split <;> simp [hc, hd]
  simp only [Dart.addPair, SharedExpenses.addPair, bounded_eq, h.pairs.amount_eq hp]
  refine (Agree.of_eq (R := Eq) (fun _ => rfl) rfl).bind fun value _ hv => ?_
  subst hv
  exact ⟨h.contextId, h.members, h.pairs.set hp value⟩

/-! ### Output -/

theorem le_rowOf_iff (a b : (JsString × JsString) × ℤ) :
    pairLe a b ↔ PairRow.le (rowOf a.1 a.2) (rowOf b.1 b.2) := by
  unfold pairLe PairRow.le rowOf
  rcases lt_trichotomy a.1.1 b.1.1 with h | h | h
  · simp [h, h.ne]
  · simp [h]
  · simp [h, h.ne', h.not_gt]

/-- The nonzero rows, in both journals. -/
theorem MirrorsPairs.nonzero {d : InsertionMap (JsString × JsString) ℤ}
    {j : InsertionMap JsString PairRow} (h : MirrorsPairs d j) :
    j.values.filter (·.amount ≠ 0) =
      (d.entries.filter (·.2 ≠ 0)).map fun e => rowOf e.1 e.2 := by
  rw [h.rekeys.values, List.filter_map]
  rfl

theorem output_eq {d : Dart.State} {j : SharedExpenses.State} (h : Mirrors d j)
    (omitZeroMembers : Bool) :
    Dart.output d omitZeroMembers = SharedExpenses.output j omitZeroMembers := by
  simp only [Dart.output, SharedExpenses.output, h.pairs.grossMinor, bounded_eq, h.contextId,
    h.members, h.pairs.nonzero]
  refine congrArg _ (funext fun _ => congrArg Except.ok ?_)
  set nonzero := d.pairs.entries.filter (·.2 ≠ 0)
  have hpairs : (nonzero.insertionSort pairLe).map (fun e => rowOf e.1 e.2) =
      (nonzero.map fun e => rowOf e.1 e.2).insertionSort PairRow.le :=
    List.map_insertionSort _ _ _ _ fun a _ b _ => le_rowOf_iff a b
  rw [← hpairs, j.members.sorted_eq_map_keys 0, List.filter_map, List.map_map, Envelope.mk.injEq]
  refine ⟨rfl, ?_, (List.map_id _).symm⟩
  refine congrArg (List.map _) (List.filter_congr fun id hid => decide_eq_decide.mpr ?_)
  have hid : id ∈ j.members.keys := (List.mem_insertionSort _).mp hid
  obtain ⟨value, hvalue⟩ := Option.isSome_iff_exists.mp (InsertionMap.mem_keys_iff.mp hid)
  simp [hvalue, rowOf]

/-! ### Reading an envelope -/

theorem parseMember_eq (field : String) :
    Dart.parseMember field = SharedExpenses.parseMember field := by
  funext members entry
  simp only [Dart.parseMember, SharedExpenses.parseMember, record_eq, member_eq, signed_eq]

theorem parsePair_agree (field : String)
    {d : InsertionMap (JsString × JsString) ℤ × InsertionMap JsString ℤ}
    {j : InsertionMap JsString PairRow × InsertionMap JsString ℤ}
    (h : MirrorsPairs d.1 j.1 ∧ d.2 = j.2) (entry : Json × ℕ) :
    Agree (fun d j => MirrorsPairs d.1 j.1 ∧ d.2 = j.2) (Dart.parsePair field d entry)
      (SharedExpenses.parsePair field j entry) := by
  obtain ⟨d, incidence⟩ := d
  obtain ⟨j, incidence'⟩ := j
  obtain ⟨h, rfl⟩ := h
  simp only [Dart.parsePair, SharedExpenses.parsePair, record_eq, member_eq, signed_eq]
  refine Agree.bind_of_eq rfl fun _ _ => Agree.bind_of_eq rfl fun low hlow =>
    Agree.bind_of_eq rfl fun high hhigh => Agree.bind_of_eq rfl fun _ _ =>
    Agree.bind_of_eq rfl fun amount _ => ?_
  have hp : IsPair (low, high) := ⟨(member_eq_ok.mp hlow).2, (member_eq_ok.mp hhigh).2⟩
  refine Agree.bind_of_eq (failIf_congr (h.mem_keys hp).symm _) fun _ _ => ?_
  exact ⟨h.set hp amount, rfl⟩

theorem parseEnvelope_agree (input : Json) (field : String) :
    Agree Mirrors (Dart.parseEnvelope input field) (SharedExpenses.parseEnvelope input field) := by
  simp only [Dart.parseEnvelope, SharedExpenses.parseEnvelope, record_eq, scope_eq, list_eq,
    parseMember_eq]
  refine Agree.bind_of_eq rfl fun _ _ => Agree.bind_of_eq rfl fun contextId _ =>
    Agree.bind_of_eq rfl fun memberRows _ => Agree.bind_of_eq rfl fun pairRows _ =>
    Agree.bind_of_eq rfl fun members _ => ?_
  refine (foldlM_agree (fun _ _ entry _ h => parsePair_agree field h entry)
    ⟨mirrorsPairs_empty, rfl⟩).bind ?_
  rintro ⟨d, incidence⟩ ⟨j, incidence'⟩ ⟨h, hi⟩
  dsimp only at h hi
  subst hi
  refine Agree.bind_of_eq rfl fun _ _ => ?_
  rw [h.grossMinor, bounded_eq]
  exact Agree.bind_of_eq rfl fun _ _ => ⟨rfl, rfl, h⟩

/-! ### Deltas -/

theorem addSnapshot_agree {d : Dart.State} {j : SharedExpenses.State} (h : Mirrors d j)
    (snapshot : Json) (sign : ℤ) :
    Agree Mirrors (Dart.addSnapshot d (snapshot, sign))
      (SharedExpenses.addSnapshot j snapshot sign) := by
  simp only [Dart.addSnapshot, SharedExpenses.addSnapshot, projected_eq]
  split
  · exact h
  refine Agree.bind_of_eq rfl fun result hresult => ?_
  refine (foldlM_agree (R := Mirrors) (fun _ _ row _ h => addMember_agree h row.memberId _) h).bind ?_
  intro d j h
  refine foldlM_agree (R := Mirrors) (fun _ _ edge hedge h => ?_) h
  obtain ⟨hc, hd⟩ := isMember_of_obligation hresult hedge
  exact addPair_agree h hc hd _

/-- The two revision deltas agree on every input. -/
theorem revisionDelta_eq (input : Json) :
    Dart.revisionDelta input = SharedExpenses.expenseRevisionDelta input := by
  simp only [Dart.revisionDelta, SharedExpenses.expenseRevisionDelta, record_eq, scope_eq,
    List.foldlM_cons, List.foldlM_nil, bind_assoc, bind_pure]
  refine congrArg _ (funext fun _ => congrArg _ (funext fun contextId =>
    congrArg _ (funext fun _ => Agree.eq ?_)))
  refine (addSnapshot_agree (mirrors_empty contextId) _ _).bind fun d j h => ?_
  exact (addSnapshot_agree h _ _).bind fun d j h => Agree.of_eq (fun _ => rfl) (output_eq h true)

/-- The two settlement deltas agree on every input. -/
theorem paymentDelta_eq (input : Json) :
    Dart.paymentDelta input = SharedExpenses.settlementDelta input := by
  simp only [Dart.paymentDelta, SharedExpenses.settlementDelta, record_eq, scope_eq, member_eq,
    amount_eq, Option.getD_none]
  refine Agree.eq ?_
  refine Agree.bind_of_eq rfl fun _ _ => Agree.bind_of_eq rfl fun contextId _ =>
    Agree.bind_of_eq rfl fun payer hpayer => Agree.bind_of_eq rfl fun receiver hreceiver =>
    Agree.bind_of_eq rfl fun _ _ => Agree.bind_of_eq rfl fun _ _ =>
    Agree.bind_of_eq rfl fun paid _ => ?_
  refine (addMember_agree (mirrors_empty contextId) _ _).bind fun d j h => ?_
  refine (addMember_agree h _ _).bind fun d j h => ?_
  refine (addPair_agree h (member_eq_ok.mp hpayer).2 (member_eq_ok.mp hreceiver).2 _).bind
    fun d j h => ?_
  exact Agree.of_eq (fun _ => rfl) (output_eq h true)

/-- The two applications agree on every input. -/
theorem applied_eq (input : Json) :
    Dart.applied input = SharedExpenses.applyBalanceDelta input := by
  simp only [Dart.applied, SharedExpenses.applyBalanceDelta, record_eq]
  refine Agree.eq (Agree.bind_of_eq rfl fun _ _ => ?_)
  refine (parseEnvelope_agree _ _).bind fun current current' hcurrent => ?_
  refine (parseEnvelope_agree _ _).bind fun delta delta' hdelta => ?_
  rw [hcurrent.contextId, hdelta.contextId, hdelta.members]
  refine Agree.bind_of_eq rfl fun _ _ => ?_
  refine (foldlM_agree (R := Mirrors) (fun _ _ entry _ h => addMember_agree h entry.1 entry.2)
    hcurrent).bind fun d j h => ?_
  rw [h.members]
  refine Agree.bind_of_eq rfl fun _ _ => ?_
  rw [hdelta.pairs.rekeys.values, List.foldlM_map]
  refine (foldlM_agree (R := Mirrors) (fun _ _ entry hentry h => ?_) h).bind
    fun d j h => Agree.of_eq (fun _ => rfl) (output_eq h false)
  obtain ⟨hl, hh⟩ := hdelta.pairs.isPair entry.1 (List.mem_map_of_mem hentry)
  exact addPair_agree h hl hh _

/-! ### Settling obligations in order -/

theorem obligationRow_eq : Dart.obligationRow = SharedExpenses.obligationRow := by
  funext rows entry
  simp only [Dart.obligationRow, SharedExpenses.obligationRow, record_eq, member_eq, amount_eq]
  rfl

theorem foldl_settleOne (rows : InsertionMap JsString ℕ) (ids : List JsString)
    (allocations : List (JsString × ℕ)) (remaining : ℕ) :
    ids.foldl (settleOne rows) (allocations, remaining) =
      (allocations ++ (settleInOrder rows remaining ids).1,
        (settleInOrder rows remaining ids).2) := by
  induction ids generalizing allocations remaining with
  | nil => simp [settleInOrder]
  | cons id ids ih =>
    simp only [List.foldl_cons, settleOne, ih, settleInOrder, Prod.mk.injEq, and_true]
    generalize (if (rows.get? id).getD 0 < remaining then _ else _ : ℕ) = amount
    by_cases h : amount > 0 <;> simp [h]

/-- The two settlement allocations agree on every input. -/
theorem allocateSettlement_eq (input : Json) :
    Dart.allocateSettlement input =
      (SharedExpenses.allocateSettlement input >>= fun result => pure result.toJson) := by
  simp only [Dart.allocateSettlement, SharedExpenses.allocateSettlement, record_eq, amount_eq,
    count_eq, order_eq, obligationRow_eq, bind_assoc, pure_bind, Option.getD_none]
  refine congrArg _ (funext fun _ => congrArg _ (funext fun total => congrArg _ (funext fun _ =>
    congrArg _ (funext fun rows => ?_))))
  refine bind_congr_of_ok fun ids hids => ?_
  rw [(order_eq_ok.mp hids).1, castStrings_map_str, foldl_settleOne]
  rfl

end Dart

end PandaPay.SharedExpenses
