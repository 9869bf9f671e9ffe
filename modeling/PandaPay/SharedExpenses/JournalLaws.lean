import PandaPay.SharedExpenses.Sheets

/-!
# The laws of the journal

A projection is the result of applying deltas to an earlier one. Its sheet is the earlier sheet
plus the sheets of the deltas, so the order of the deltas does not matter, deltas that add up to
nothing leave no trace, and every projection that is reached stays readable.

## Main definitions

* `Twin.run`: applying deltas in order
* `Twin.sheetOf`: the sheet of an envelope as a twin reads it
* `Twin.RevisionChain`: the deltas of one expense from its first revision to its removal
* `Twin.LeavesNoTrace`: what the others alone would have left is left
* `Twin.Reached`, `Envelope.Sound`: the projections of a context, and what holds of them

## Main results

* `run_order_independent`: any two orders end in the identical envelope
* `revision_chain_leaves_no_trace`: revising, voiding and reversing telescope
* `reached_sound`: every projection of a context is sound and is read again
-/

namespace PandaPay.SharedExpenses

open PairLedger

/-! ### One application -/

namespace Dart

theorem sum_memberSheet (rows : List (JsString × ℤ)) :
    (rows.map fun row => memberSheet row.1 row.2).sum =
      ⟨{id | id ∈ rows.map Prod.fst}, (rows.map fun row => Finsupp.single row.1 row.2).sum, 0⟩ := by
  induction rows with
  | nil => exact Sheet.ext (by simp) rfl rfl
  | cons row rows ih =>
    rw [List.map_cons, List.sum_cons, ih]
    refine Sheet.ext ?_ (by simp [memberSheet]) (add_zero _)
    ext id
    simp [memberSheet]

theorem sum_edgeSheet (rows : List ((JsString × JsString) × ℤ)) :
    (rows.map fun row => edgeSheet row.1.1 row.1.2 row.2).sum =
      ⟨∅, 0, (rows.map fun row => edge row.1.1 row.1.2 row.2).sum⟩ := by
  induction rows with
  | nil => rfl
  | cons row rows ih =>
    rw [List.map_cons, List.sum_cons, ih]
    exact Sheet.ext (Set.union_empty _) (add_zero _) (by simp [edgeSheet])

theorem addMembers_sheet {rows : List (JsString × ℤ)} {s t : State}
    (h : rows.foldlM (fun state row => addMember state row.1 row.2) s = .ok t) :
    t.sheet = s.sheet +
      ⟨{id | id ∈ rows.map Prod.fst}, (rows.map fun row => Finsupp.single row.1 row.2).sum, 0⟩ := by
  rw [← sum_memberSheet]
  exact foldlM_add (q := State.sheet) (fun _ _ _ _ hstep => addMember_sheet hstep) h

theorem addPairs_sheet {rows : List ((JsString × JsString) × ℤ)} {s t : State}
    (h : rows.foldlM (fun state row => addPair state row.1.1 row.1.2 row.2) s = .ok t) :
    t.sheet = s.sheet + ⟨∅, 0, (rows.map fun row => edge row.1.1 row.1.2 row.2).sum⟩ := by
  rw [← sum_edgeSheet]
  exact foldlM_add (q := State.sheet) (fun _ _ _ _ hstep => addPair_sheet hstep) h

/-- What the member loop keeps. -/
theorem addMembers_keeps {rows : List (JsString × ℤ)} {s t : State}
    (hs : ∀ row ∈ s.members.entries, |row.2| ≤ maxAggregateMinor)
    (h : rows.foldlM (fun state row => addMember state row.1 row.2) s = .ok t) :
    t.contextId = s.contextId ∧ t.pairs = s.pairs ∧
      ∀ row ∈ t.members.entries, |row.2| ≤ maxAggregateMinor := by
  refine foldlM_induction (P := fun t : State => t.contextId = s.contextId ∧ t.pairs = s.pairs ∧
    ∀ row ∈ t.members.entries, |row.2| ≤ maxAggregateMinor) ?_ ⟨rfl, rfl, hs⟩ h
  rintro t row t' - ⟨hc, hp, hb⟩ hstep
  obtain ⟨hbound, rfl⟩ := addMember_eq_ok.mp hstep
  refine ⟨hc, hp, fun row hrow => ?_⟩
  rcases InsertionMap.mem_entries_set hrow with rfl | hrow
  · exact hbound
  · exact hb row hrow

/-- What the pair loop keeps. -/
theorem addPairs_keeps {rows : List ((JsString × JsString) × ℤ)} {s t : State}
    {P : JsString × JsString → Prop} (hs : ∀ q ∈ s.pairs.keys, P q)
    (hrows : ∀ row ∈ rows, row.1.1 < row.1.2 ∧ P row.1)
    (h : rows.foldlM (fun state row => addPair state row.1.1 row.1.2 row.2) s = .ok t) :
    t.contextId = s.contextId ∧ t.members = s.members ∧ ∀ q ∈ t.pairs.keys, P q := by
  refine foldlM_induction (P := fun t : State => t.contextId = s.contextId ∧
    t.members = s.members ∧ ∀ q ∈ t.pairs.keys, P q) ?_ ⟨rfl, rfl, hs⟩ h
  rintro t row t' hrow ⟨hc, hm, hp⟩ hstep
  obtain ⟨hlt, hrowP⟩ := hrows row hrow
  obtain ⟨-, rfl⟩ := addPair_eq_ok.mp hstep
  refine ⟨hc, hm, fun q hq => ?_⟩
  rcases InsertionMap.mem_keys_set.mp hq with rfl | hq
  · simpa [pairOf, hlt.le] using hrowP
  · exact hp q hq

/-- A successful application adds the delta's sheet to the current one, and writes a valid
state. -/
theorem applied_eq_ok {input : Json} {e : Envelope} (h : applied input = .ok e) :
    ∃ current delta t : State, parseEnvelope (input.get "current") "current" = .ok current ∧
      parseEnvelope (input.get "delta") "delta" = .ok delta ∧ t.Valid ∧
      t.contextId = current.contextId ∧ t.sheet = current.sheet + delta.sheet ∧
      output t = .ok e := by
  simp only [applied, ↓failIf_bind_eq_ok, bind_eq_ok] at h
  obtain ⟨-, -, current, hcurrent, delta, hdelta, -, mid, hmid, hsize, t, ht, hout⟩ := h
  have hcv := parseEnvelope_valid hcurrent
  have hdv := parseEnvelope_valid hdelta
  obtain ⟨hmc, hmp, hmb⟩ := addMembers_keeps hcv.bounded hmid
  have hmsheet : mid.sheet = current.sheet +
      ⟨{id | id ∈ delta.members.keys}, delta.members.toFinsupp, 0⟩ := addMembers_sheet hmid
  have hparties : ∀ id, id ∈ mid.members.keys ↔
      id ∈ current.members.keys ∨ id ∈ delta.members.keys := fun id =>
    Set.ext_iff.mp (congrArg Sheet.parties hmsheet) id
  obtain ⟨htc, htm, htp⟩ := addPairs_keeps
    (P := fun q => q.1 < q.2 ∧ q.1 ∈ mid.members.keys ∧ q.2 ∈ mid.members.keys)
    (fun q hq => by
      obtain ⟨hlt, h₁, h₂⟩ := hcv.pairs q (hmp ▸ hq)
      exact ⟨hlt, (hparties _).mpr (.inl h₁), (hparties _).mpr (.inl h₂)⟩)
    (fun row hrow => by
      obtain ⟨hlt, h₁, h₂⟩ := hdv.pairs row.1 (List.mem_map_of_mem hrow)
      exact ⟨hlt, hlt, (hparties _).mpr (.inr h₁), (hparties _).mpr (.inr h₂)⟩) ht
  have hedges : (delta.pairs.entries.map fun row => edge row.1.1 row.1.2 row.2).sum =
      delta.pairs.toFinsupp := by
    refine congrArg List.sum (List.map_congr_left fun row hrow => ?_)
    obtain ⟨hlt, -⟩ := hdv.pairs row.1 (List.mem_map_of_mem hrow)
    simp [edge, hlt.le]
  have htsheet : t.sheet = current.sheet + delta.sheet := by
    rw [addPairs_sheet ht, hmsheet, hedges, add_assoc]
    refine congrArg _ (Sheet.ext (Set.union_empty _) (add_zero _) (zero_add _))
  have hgross := (output_eq_ok.mp hout).1
  refine ⟨current, delta, t, hcurrent, hdelta, ?_, htc.trans hmc, htsheet, hout⟩
  refine ⟨htc ▸ hmc ▸ hcv.context, fun id hid => ?_, htm ▸ not_lt.mp hsize, fun q hq => ?_,
    htm ▸ hmb, ?_, grossMinor_abs t.pairs ▸ hgross⟩
  · rcases (hparties id).mp (htm ▸ hid) with hid | hid
    · exact hcv.isMember id hid
    · exact hdv.isMember id hid
  · rw [htm]
    exact htp q hq
  · have := (hcv.consistent.add hdv.consistent).balance_eq
    rwa [← htsheet] at this

end Dart

/-! ### Runs -/

/-- The argument of `applyBalanceDelta`. -/
def applyInput (current delta : Json) : Json := object [("current", current), ("delta", delta)]

theorem applyInput_current (current delta : Json) :
    (applyInput current delta).get "current" = current := by
  simp [applyInput, object, Json.get, Json.fieldOf]

theorem applyInput_delta (current delta : Json) :
    (applyInput current delta).get "delta" = delta := by
  simp [applyInput, object, Json.get, Json.fieldOf]

/-- The sheet a JavaScript state shows. -/
noncomputable def State.sheet (state : State) : Sheet JsString ℤ :=
  ⟨{id | id ∈ state.members.keys}, state.members.toFinsupp,
    (state.pairs.values.map fun row => Finsupp.single (row.low, row.high) row.amount).sum⟩

theorem sheet_of_mirrors {d : Dart.State} {j : State} (h : Dart.Mirrors d j) :
    j.sheet = d.sheet := by
  rw [State.sheet, Dart.State.sheet, h.members, h.pairs.rekeys.values, List.map_map]
  rfl

namespace Twin

/-- Applying deltas in order to a projection. -/
def run (twin : Twin) (start : Json) (deltas : List Json) : Checked Json :=
  deltas.foldlM (fun current delta => twin.applyBalanceDelta (applyInput current delta)) start

/-- The sheet of an envelope as a twin reads it; an envelope it does not read shows nothing. -/
noncomputable def sheetOf (twin : Twin) (envelope : Json) (field : String) : Sheet JsString ℤ :=
  match twin with
  | javascript => (SharedExpenses.parseEnvelope envelope field).toOption.elim 0 State.sheet
  | dart => (Dart.parseEnvelope envelope field).toOption.elim 0 Dart.State.sheet

theorem sheetOf_eq (twin : Twin) (envelope : Json) (field : String) :
    twin.sheetOf envelope field =
      (Dart.parseEnvelope envelope field).toOption.elim 0 Dart.State.sheet := by
  have h := Dart.parseEnvelope_agree envelope field
  cases twin with
  | dart => rfl
  | javascript =>
    rw [sheetOf]
    cases hd : Dart.parseEnvelope envelope field <;>
      cases hj : SharedExpenses.parseEnvelope envelope field <;> rw [hd, hj] at h
    · rfl
    · exact h.elim
    · exact h.elim
    · exact sheet_of_mirrors h

theorem sheetOf_of_ok {twin : Twin} {envelope : Json} {field : String} {s : Dart.State}
    (h : Dart.parseEnvelope envelope field = .ok s) : twin.sheetOf envelope field = s.sheet := by
  rw [sheetOf_eq, h]
  rfl

/-- What a run leaves: one valid state, with the start's sheet plus the deltas' sheets. -/
structure Leaves (twin : Twin) (start : Json) (deltas : List Json) (final : Json)
    (t : Dart.State) : Prop where
  valid : t.Valid
  output : ∃ e, Dart.output t = .ok e ∧ final = e.toJson
  contextId : ∃ s, Dart.parseEnvelope start "current" = .ok s ∧ t.contextId = s.contextId
  sheet : t.sheet = twin.sheetOf start "current" + (deltas.map (twin.sheetOf · "delta")).sum
  readable : ∀ delta ∈ deltas, ∃ s, Dart.parseEnvelope delta "delta" = .ok s

/-- One application. -/
theorem applyBalanceDelta_leaves {twin : Twin} {start delta final : Json}
    (h : twin.applyBalanceDelta (applyInput start delta) = .ok final) :
    ∃ t, Leaves twin start [delta] final t := by
  rw [applyBalanceDelta_eq] at h
  cases happlied : Dart.applied (applyInput start delta) with
  | error e => simp [happlied, Except.map] at h
  | ok e =>
    obtain ⟨current, change, t, hcurrent, hchange, hvalid, hcontext, hsheet, hout⟩ :=
      Dart.applied_eq_ok happlied
    rw [applyInput_current] at hcurrent
    rw [applyInput_delta] at hchange
    rw [happlied] at h
    refine ⟨t, hvalid, ⟨e, hout, (Except.ok.inj h).symm⟩, ⟨current, hcurrent, hcontext⟩, ?_, ?_⟩
    · rw [hsheet, sheetOf_of_ok hcurrent, List.map_singleton, List.sum_singleton,
        sheetOf_of_ok hchange]
    · simpa using ⟨change, hchange⟩

/-- What was left is read again, with the same context and sheet. -/
theorem Leaves.read {twin : Twin} {start final : Json} {deltas : List Json} {t : Dart.State}
    (h : Leaves twin start deltas final t) (field : String) :
    ∃ s, Dart.parseEnvelope final field = .ok s ∧ s.contextId = t.contextId ∧
      s.sheet = t.sheet := by
  obtain ⟨e, hout, rfl⟩ := h.output
  obtain ⟨-, rfl⟩ := Dart.output_eq_ok.mp hout
  exact Dart.parseEnvelope_output h.valid field

/-- A run of at least one delta leaves a valid state. -/
theorem run_leaves {twin : Twin} {start final : Json} {deltas : List Json} (hne : deltas ≠ [])
    (h : twin.run start deltas = .ok final) : ∃ t, Leaves twin start deltas final t := by
  induction deltas generalizing start with
  | nil => exact absurd rfl hne
  | cons delta deltas ih =>
    rw [run, List.foldlM_cons, bind_eq_ok] at h
    obtain ⟨mid, hmid, h⟩ := h
    obtain ⟨t, ht⟩ := applyBalanceDelta_leaves hmid
    cases deltas with
    | nil =>
      rw [List.foldlM_nil, pure_eq_ok, Except.ok.injEq] at h
      exact ⟨t, h ▸ ht⟩
    | cons next rest =>
      obtain ⟨u, hu⟩ := ih (by simp) h
      obtain ⟨s, hs, hsc, hss⟩ := ht.read "current"
      obtain ⟨s', hs', huc⟩ := hu.contextId
      obtain ⟨start', hstart, htc⟩ := ht.contextId
      cases hs.symm.trans hs'
      refine ⟨u, hu.valid, hu.output, ⟨start', hstart, huc.trans (hsc.trans htc)⟩, ?_, ?_⟩
      · rw [hu.sheet, sheetOf_of_ok hs, hss, ht.sheet, List.map_singleton, List.sum_singleton,
          add_assoc, List.map_cons (a := delta), List.sum_cons]
      · exact List.forall_mem_cons.mpr ⟨ht.readable delta (by simp), hu.readable⟩

end Twin

/-! ### Order independence -/

/-- Two runs over the same deltas in any orders, by any twins, end in the identical envelope. -/
theorem run_order_independent (left right : Twin) (start : Json) (deltas deltas' : List Json)
    (hperm : deltas.Perm deltas') (final final' : Json) (h : left.run start deltas = .ok final)
    (h' : right.run start deltas' = .ok final') : final = final' := by
  cases hd : deltas with
  | nil =>
    subst hd
    rw [List.nil_perm] at hperm
    subst hperm
    exact Except.ok.inj (h.symm.trans h')
  | cons delta rest =>
    have hne : deltas ≠ [] := by simp [hd]
    obtain ⟨t, ht⟩ := Twin.run_leaves hne h
    obtain ⟨u, hu⟩ := Twin.run_leaves (fun he => hne (List.perm_nil.mp (he ▸ hperm))) h'
    obtain ⟨s, hs, htc⟩ := ht.contextId
    obtain ⟨s', hs', huc⟩ := hu.contextId
    cases hs.symm.trans hs'
    have hsheet : t.sheet = u.sheet := by
      rw [ht.sheet, hu.sheet]
      simp only [Twin.sheetOf_eq]
      rw [(hperm.map _).sum_eq]
    obtain ⟨e, he, rfl⟩ := ht.output
    obtain ⟨e', he', rfl⟩ := hu.output
    rw [Dart.output_congr (htc.trans huc.symm) hsheet, he', Except.ok.injEq] at he
    rw [he]

/-- The delta of a payment from `a` to `b`, and the projection after it. -/
def paymentEnvelope (amount : ℤ) : Json :=
  Envelope.toJson ⟨js "g", [(js "a", amount), (js "b", -amount)], [((js "a", js "b"), amount)]⟩

/-- The projection of a context in which nothing has happened. -/
def emptyEnvelope : Json := Envelope.toJson ⟨js "g", [], []⟩

/-- A payment of 100 and one of 140 back, in either order. -/
theorem run_order_independent_payments : ∃ final final',
    Twin.javascript.run emptyEnvelope [paymentEnvelope 100, paymentEnvelope (-140)] = .ok final ∧
    Twin.dart.run emptyEnvelope [paymentEnvelope (-140), paymentEnvelope 100] = .ok final' ∧
    final = final' := by
  have h : Twin.javascript.run emptyEnvelope [paymentEnvelope 100, paymentEnvelope (-140)] =
    .ok (paymentEnvelope (-40)) := rfl
  have h' : Twin.dart.run emptyEnvelope [paymentEnvelope (-140), paymentEnvelope 100] =
    .ok (paymentEnvelope (-40)) := rfl
  exact ⟨_, _, h, h', run_order_independent .javascript .dart _ _ _ (.swap _ _ _) _ _ h h'⟩

/-! ### Deltas that cancel -/

/-- Balances and pair amounts, without the parties listed. -/
abbrev Effect : Type := (JsString →₀ ℤ) × (JsString × JsString →₀ ℤ)

/-- The amounts of a sheet. -/
noncomputable def effect (sheet : Sheet JsString ℤ) : Effect := (sheet.balance, sheet.pair)

theorem effect_add (s t : Sheet JsString ℤ) : effect (s + t) = effect s + effect t := rfl

theorem effect_sum (sheets : List (Sheet JsString ℤ)) :
    effect sheets.sum = (sheets.map effect).sum := by
  induction sheets with
  | nil => rfl
  | cons s sheets ih => rw [List.sum_cons, effect_add, ih, List.map_cons, List.sum_cons]

/-- The amounts of one snapshot: each member's balance and each obligation. -/
noncomputable def snapshotEffect (snapshot : Json) : Effect :=
  if snapshot.isNull then 0 else
    (SharedExpenses.projectExpense snapshot).toOption.elim 0 fun result =>
      ((result.positions.map fun row => Finsupp.single row.memberId row.balanceMinor).sum,
        (result.obligations.map fun row =>
          edge row.creditorId row.debtorId row.amountMinor).sum)

theorem edge_mul (creditor debtor : JsString) (amount sign : ℤ) :
    edge creditor debtor (amount * sign) = sign • edge creditor debtor amount := by
  unfold edge
  split <;> simp [mul_comm]

theorem single_mul (id : JsString) (amount sign : ℤ) :
    Finsupp.single id (amount * sign) = sign • Finsupp.single id amount := by
  simp [mul_comm]

theorem sum_map_smul {α A : Type*} [AddCommGroup A] (rows : List α) (f : α → A) (sign : ℤ) :
    (rows.map fun row => sign • f row).sum = sign • (rows.map f).sum := by
  rw [List.smul_sum, List.map_map]
  rfl

namespace Dart

theorem addPositions_effect {rows : List Position} {sign : ℤ} {s t : State}
    (h : rows.foldlM (fun state row => addMember state row.memberId (row.balanceMinor * sign)) s =
      .ok t) :
    effect t.sheet = effect s.sheet +
      sign • ((rows.map fun row => Finsupp.single row.memberId row.balanceMinor).sum, 0) := by
  have hbalance := foldlM_add (q := fun s : State => s.sheet.balance)
    (w := fun row : Position => sign • Finsupp.single row.memberId row.balanceMinor)
    (fun s row s' _ hstep => by
      rw [addMember_sheet hstep, Sheet.balance_add, memberSheet, single_mul]) h
  have hpair := foldlM_add (q := fun s : State => s.sheet.pair) (w := fun _ : Position => 0)
    (fun s row s' _ hstep => by rw [addMember_sheet hstep, Sheet.pair_add, memberSheet]) h
  refine Prod.ext ?_ ?_
  · rw [sum_map_smul] at hbalance
    exact hbalance
  · simpa [effect] using hpair

theorem addObligations_effect {rows : List Obligation} {sign : ℤ} {s t : State}
    (h : rows.foldlM (fun state edge =>
      addPair state edge.creditorId edge.debtorId (edge.amountMinor * sign)) s = .ok t) :
    effect t.sheet = effect s.sheet + sign • (0, (rows.map fun row =>
      edge row.creditorId row.debtorId row.amountMinor).sum) := by
  have hpair := foldlM_add (q := fun s : State => s.sheet.pair)
    (w := fun row : Obligation => sign • edge row.creditorId row.debtorId row.amountMinor)
    (fun s row s' _ hstep => by
      rw [addPair_sheet hstep, Sheet.pair_add, edgeSheet, edge_mul]) h
  have hbalance := foldlM_add (q := fun s : State => s.sheet.balance) (w := fun _ : Obligation => 0)
    (fun s row s' _ hstep => by rw [addPair_sheet hstep, Sheet.balance_add, edgeSheet]) h
  refine Prod.ext ?_ ?_
  · simpa [effect] using hbalance
  · rw [sum_map_smul] at hpair
    exact hpair

/-- A snapshot counts with its sign. -/
theorem addSnapshot_effect {s t : State} {snapshot : Json} {sign : ℤ}
    (h : addSnapshot s (snapshot, sign) = .ok t) :
    effect t.sheet = effect s.sheet + sign • snapshotEffect snapshot := by
  simp only [addSnapshot, projected_eq] at h
  unfold snapshotEffect
  split at h
  · rename_i hnull
    rw [pure_eq_ok, Except.ok.injEq] at h
    rw [if_pos hnull, smul_zero, add_zero, h]
  · rename_i hnull
    simp only [bind_eq_ok] at h
    obtain ⟨result, hresult, mid, hmid, ht⟩ := h
    rw [addObligations_effect ht, addPositions_effect hmid, add_assoc, ← smul_add, if_neg hnull,
      hresult]
    simp [Except.toOption]

/-- What `output` omits has no effect. -/
theorem effect_output {t : State} {omitZeroMembers : Bool} {e : Envelope}
    (h : output t omitZeroMembers = .ok e) :
    ((e.members.map fun row => Finsupp.single row.1 row.2).sum,
      (e.pairs.map fun row => Finsupp.single row.1 row.2).sum) = effect t.sheet := by
  rw [output_def, failIf_bind_eq_ok, pure_eq_ok, Except.ok.injEq] at h
  obtain ⟨-, rfl⟩ := h
  refine Prod.ext ?_ (sum_pairRows Finsupp.single Finsupp.single_zero t.pairs)
  have hsorted : ((t.members.keys.insertionSort (· ≤ ·)).map fun id =>
      Finsupp.single id ((t.members.get? id).getD 0)).sum = t.members.toFinsupp := by
    have hperm := (t.members.sorted_perm.map fun row => Finsupp.single row.1 row.2).sum_eq
    rw [t.members.sorted_eq_map_keys 0, List.map_map] at hperm
    exact hperm
  rw [List.map_map]
  refine Eq.trans (sum_map_filter_of_zero fun id _ hz => ?_) hsorted
  -- a member is only omitted with balance zero
  have hz : t.members.get? id = some 0 := by
    simp only [decide_eq_false_iff_not, not_or, not_not] at hz
    exact hz.2.1
  simp [hz]

/-- The effect of a delta an expense revision gives. -/
theorem revisionDelta_effect {input : Json} {e : Envelope} (h : revisionDelta input = .ok e) :
    ((e.members.map fun row => Finsupp.single row.1 row.2).sum,
      (e.pairs.map fun row => Finsupp.single row.1 row.2).sum) =
    snapshotEffect (input.get "next") - snapshotEffect (input.get "previous") := by
  simp only [revisionDelta, List.foldlM_cons, List.foldlM_nil, bind_pure, bind_eq_ok] at h
  obtain ⟨-, -, contextId, -, -, -, t, ⟨mid, hprev, hnext⟩, hout⟩ := h
  have hempty : effect (State.empty contextId).sheet = 0 := rfl
  rw [effect_output hout, addSnapshot_effect hnext, addSnapshot_effect hprev, hempty]
  simp only [neg_smul, one_smul, zero_add]
  abel

/-- The effect of a delta a settlement gives. -/
theorem paymentDelta_effect {input : Json} {e : Envelope} (h : paymentDelta input = .ok e) :
    ∃ payer receiver, ∃ paid : ℕ, input.get "payerId" = .str payer ∧
      input.get "receiverId" = .str receiver ∧
      SharedExpenses.amount (input.get "amountMinor") "amountMinor" maxExpenseMinor true =
        .ok paid ∧
      ((e.members.map fun row => Finsupp.single row.1 row.2).sum,
        (e.pairs.map fun row => Finsupp.single row.1 row.2).sum) =
      ((if (input.get "direction").isStr (js "confirm") then 1 else -1) : ℤ) •
        (Finsupp.single payer (paid : ℤ) - Finsupp.single receiver (paid : ℤ),
          edge payer receiver (paid : ℤ)) := by
  simp only [paymentDelta, member_eq, amount_eq, Option.getD_none, bind_eq_ok] at h
  obtain ⟨-, -, contextId, -, payer, hpayer, receiver, hreceiver, -, -, -, -, paid, hpaid, s₁, h₁,
    s₂, h₂, s₃, h₃, hout⟩ := h
  refine ⟨payer, receiver, paid, (member_eq_ok.mp hpayer).1, (member_eq_ok.mp hreceiver).1, hpaid,
    ?_⟩
  rw [effect_output hout]
  generalize ((if (input.get "direction").isStr (js "confirm") then 1 else -1) : ℤ) = sign at *
  have hempty : (State.empty contextId).sheet = 0 := Sheet.ext (by simp [State.sheet, State.empty])
    rfl rfl
  rw [addPair_sheet h₃, addMember_sheet h₂, addMember_sheet h₁, hempty, zero_add]
  refine Prod.ext ?_ ?_
  · simp only [effect, Sheet.balance_add, memberSheet, edgeSheet, Prod.smul_fst, single_mul,
      Finsupp.single_neg, add_zero]
    rw [smul_sub, sub_eq_add_neg]
  · simp only [effect, Sheet.pair_add, memberSheet, edgeSheet, Prod.smul_snd, ← edge_mul, add_zero,
      zero_add]

end Dart

/-! ### Telescoping -/

/-- The argument of `expenseRevisionDelta`. -/
def revisionInput (contextId : JsString) (previous next : Json) : Json :=
  object [("contextId", .str contextId), ("currency", text "INR"), ("previous", previous),
    ("next", next)]

/-- The argument of `settlementDelta`. -/
def settlementInput (contextId payerId receiverId : JsString) (amountMinor : Json)
    (direction : String) : Json :=
  object [("contextId", .str contextId), ("currency", text "INR"), ("payerId", .str payerId),
    ("receiverId", .str receiverId), ("amountMinor", amountMinor), ("direction", text direction)]

/-- Two sheets with the same amounts, where the first may list more members, all with balance
zero. -/
structure SameAmounts (left right : Sheet JsString ℤ) : Prop where
  balance : left.balance = right.balance
  pair : left.pair = right.pair
  listed : right.parties ⊆ left.parties
  added : ∀ id ∈ left.parties, id ∉ right.parties → left.balance id = 0

namespace Twin

/-- The deltas of one expense after the revision `previous`: one for each of the revisions that
follow, and one for its removal. -/
inductive RevisionChain (twin : Twin) (contextId : JsString) :
    Json → List Json → List Json → Prop
  | removed {previous delta : Json}
    (last : twin.expenseRevisionDelta (revisionInput contextId previous .null) = .ok delta) :
    RevisionChain twin contextId previous [] [delta]
  | revised {previous next delta : Json} {rest deltas : List Json}
    (first : twin.expenseRevisionDelta (revisionInput contextId previous next) = .ok delta)
    (tail : RevisionChain twin contextId next rest deltas) :
    RevisionChain twin contextId previous (next :: rest) (delta :: deltas)

/-- Wherever the deltas `undone` are applied among others, what is left are the amounts of the
others: those they add to the start, those a run of the others alone leaves, and, when there are
others, the very pair rows that run writes. -/
def LeavesNoTrace (twin : Twin) (undone : List Json) : Prop :=
  ∀ (start final : Json) (others mixed : List Json), mixed.Perm (undone ++ others) →
    twin.run start mixed = .ok final →
    SameAmounts (twin.sheetOf final "current")
      (twin.sheetOf start "current" + (others.map (twin.sheetOf · "delta")).sum) ∧
    ∀ alone, twin.run start others = .ok alone →
      SameAmounts (twin.sheetOf final "current") (twin.sheetOf alone "current") ∧
      (others ≠ [] → final.get "pairs" = alone.get "pairs")

theorem sheetOf_consistent (twin : Twin) (envelope : Json) (field : String) :
    (twin.sheetOf envelope field).Consistent := by
  rw [sheetOf_eq]
  cases h : Dart.parseEnvelope envelope field with
  | error e => exact ⟨by simp [Except.toOption], by simp [Except.toOption]⟩
  | ok s => exact (Dart.parseEnvelope_valid h).consistent

theorem sum_consistent {sheets : List (Sheet JsString ℤ)} (h : ∀ s ∈ sheets, s.Consistent) :
    sheets.sum.Consistent := by
  induction sheets with
  | nil => exact ⟨by simp, by simp⟩
  | cons s sheets ih =>
    rw [List.forall_mem_cons] at h
    rw [List.sum_cons]
    exact h.1.add (ih h.2)

/-- Adding a sheet without amounts only lists members. -/
theorem sameAmounts_add {s t : Sheet JsString ℤ} (hs : effect s = 0) (ht : t.Consistent) :
    SameAmounts (s + t) t := by
  have hb : (s + t).balance = t.balance := by
    rw [Sheet.balance_add, show s.balance = 0 from congrArg Prod.fst hs, zero_add]
  have hp : (s + t).pair = t.pair := by
    rw [Sheet.pair_add, show s.pair = 0 from congrArg Prod.snd hs, zero_add]
  exact ⟨hb, hp, Set.subset_union_right, fun id _ hid => hb ▸ ht.balance_eq_zero hid⟩

/-- Deltas whose effects add up to nothing leave no trace. -/
theorem leavesNoTrace_of_effect {twin : Twin} {undone : List Json} (hne : undone ≠ [])
    (h : (∀ delta ∈ undone, ∃ s, Dart.parseEnvelope delta "delta" = .ok s) →
      (undone.map fun delta => effect (twin.sheetOf delta "delta")).sum = 0) :
    twin.LeavesNoTrace undone := by
  intro start final others mixed hperm hrun
  have hmixed : mixed ≠ [] := fun he => hne
    (List.append_eq_nil_iff.mp (List.perm_nil.mp (he ▸ hperm.symm))).1
  obtain ⟨t, ht⟩ := run_leaves hmixed hrun
  obtain ⟨s, hs, -, hst⟩ := ht.read "current"
  set rest := twin.sheetOf start "current" + (others.map (twin.sheetOf · "delta")).sum with hrest
  set gone := (undone.map (twin.sheetOf · "delta")).sum with hgone
  have hgone0 : effect gone = 0 := by
    rw [hgone, effect_sum, List.map_map]
    exact h fun delta hdelta => ht.readable delta
      (hperm.mem_iff.mpr (List.mem_append_left _ hdelta))
  have hrestc : rest.Consistent :=
    (twin.sheetOf_consistent start "current").add (sum_consistent fun s hs => by
      obtain ⟨delta, -, rfl⟩ := List.mem_map.mp hs
      exact twin.sheetOf_consistent delta "delta")
  have hfinal : t.sheet = gone + rest := by
    rw [ht.sheet, (hperm.map _).sum_eq, List.map_append, List.sum_append, hrest, hgone]
    abel
  rw [sheetOf_of_ok hs, hst, hfinal]
  refine ⟨sameAmounts_add hgone0 hrestc, fun alone halone => ?_⟩
  cases hothers : others with
  | nil =>
    subst hothers
    rw [run, List.foldlM_nil, pure_eq_ok, Except.ok.injEq] at halone
    have hstart : rest = twin.sheetOf alone "current" := by
      rw [hrest, halone, List.map_nil, List.sum_nil, add_zero]
    rw [← hstart]
    exact ⟨sameAmounts_add hgone0 hrestc, fun h => absurd rfl h⟩
  | cons other others' =>
    obtain ⟨u, hu⟩ := run_leaves (by simp [hothers]) halone
    obtain ⟨s', hs', -, hsu⟩ := hu.read "current"
    have halone : twin.sheetOf alone "current" = rest := by
      rw [sheetOf_of_ok hs', hsu, hu.sheet]
    rw [halone]
    refine ⟨sameAmounts_add hgone0 hrestc, fun _ => ?_⟩
    obtain ⟨e, he, rfl⟩ := ht.output
    obtain ⟨e', he', rfl⟩ := hu.output
    have hpairs : t.pairs.toFinsupp = u.pairs.toFinsupp := by
      have htp : t.sheet.pair = rest.pair := hfinal ▸ (sameAmounts_add hgone0 hrestc).pair
      have hup : u.sheet.pair = rest.pair := congrArg Sheet.pair hu.sheet
      exact htp.trans hup.symm
    obtain ⟨-, rfl⟩ := Dart.output_eq_ok.mp he
    obtain ⟨-, rfl⟩ := Dart.output_eq_ok.mp he'
    simp [Envelope.toJson, object, Json.get, Json.fieldOf, Dart.pairRows_congr hpairs]

theorem effect_sheetOf {twin : Twin} {e : Envelope} {field : String}
    (h : ∃ s, Dart.parseEnvelope e.toJson field = .ok s) :
    effect (twin.sheetOf e.toJson field) =
      ((e.members.map fun row => Finsupp.single row.1 row.2).sum,
        (e.pairs.map fun row => Finsupp.single row.1 row.2).sum) := by
  obtain ⟨s, hs⟩ := h
  rw [sheetOf_of_ok hs, Dart.sheet_of_parseEnvelope hs]
  rfl

/-- The effect of a revision delta that is read. -/
theorem effect_expenseRevisionDelta {twin : Twin} {contextId : JsString} {previous next delta : Json}
    (h : twin.expenseRevisionDelta (revisionInput contextId previous next) = .ok delta)
    (hread : ∃ s, Dart.parseEnvelope delta "delta" = .ok s) :
    effect (twin.sheetOf delta "delta") = snapshotEffect next - snapshotEffect previous := by
  rw [expenseRevisionDelta_eq] at h
  cases hdelta : Dart.revisionDelta (revisionInput contextId previous next) with
  | error e => simp [hdelta, Except.map] at h
  | ok e =>
    rw [hdelta] at h
    cases Except.ok.inj h
    have hnext : (revisionInput contextId previous next).get "next" = next := by
      simp [revisionInput, object, Json.get, Json.fieldOf]
    have hprevious : (revisionInput contextId previous next).get "previous" = previous := by
      simp [revisionInput, object, Json.get, Json.fieldOf]
    rw [effect_sheetOf hread, Dart.revisionDelta_effect hdelta, hnext, hprevious]

/-- The deltas of an expense from a revision on take that revision's effect back. -/
theorem effect_chain {twin : Twin} {contextId : JsString} {previous : Json}
    {snapshots deltas : List Json} (h : RevisionChain twin contextId previous snapshots deltas)
    (hread : ∀ delta ∈ deltas, ∃ s, Dart.parseEnvelope delta "delta" = .ok s) :
    (deltas.map fun delta => effect (twin.sheetOf delta "delta")).sum =
      -snapshotEffect previous := by
  induction h with
  | removed last =>
    have hnull : snapshotEffect .null = 0 := rfl
    rw [List.map_singleton, List.sum_singleton,
      effect_expenseRevisionDelta last (hread _ List.mem_cons_self), hnull, zero_sub]
  | revised first tail ih =>
    rw [List.forall_mem_cons] at hread
    rw [List.map_cons, List.sum_cons, effect_expenseRevisionDelta first hread.1, ih hread.2]
    abel

/-- A settlement delta and its reversal have opposite effects. -/
theorem effect_settlement {twin : Twin} {contextId payerId receiverId : JsString}
    {amountMinor confirmed reversed : Json}
    (hc : twin.settlementDelta (settlementInput contextId payerId receiverId amountMinor "confirm") =
      .ok confirmed)
    (hr : twin.settlementDelta (settlementInput contextId payerId receiverId amountMinor "reverse") =
      .ok reversed)
    (hread : ∀ delta ∈ [confirmed, reversed], ∃ s, Dart.parseEnvelope delta "delta" = .ok s) :
    ([confirmed, reversed].map fun delta => effect (twin.sheetOf delta "delta")).sum = 0 := by
  rw [settlementDelta_eq] at hc hr
  cases hcd : Dart.paymentDelta
      (settlementInput contextId payerId receiverId amountMinor "confirm") with
  | error e => simp [hcd, Except.map] at hc
  | ok c =>
  cases hrd : Dart.paymentDelta
      (settlementInput contextId payerId receiverId amountMinor "reverse") with
  | error e => simp [hrd, Except.map] at hr
  | ok r =>
  rw [hcd] at hc
  rw [hrd] at hr
  cases Except.ok.inj hc
  cases Except.ok.inj hr
  obtain ⟨payer, receiver, paid, hp, hv, ha, hce⟩ := Dart.paymentDelta_effect hcd
  obtain ⟨payer', receiver', paid', hp', hv', ha', hre⟩ := Dart.paymentDelta_effect hrd
  simp only [settlementInput, object, Json.get, Json.fieldOf, text, Json.isStr, js_inj,
    List.map_cons, List.map_nil, String.reduceEq, if_true, if_false, Option.getD_some,
    Json.str.injEq, decide_true, decide_false, Bool.false_eq_true] at hp hv ha hce hp' hv' ha' hre
  subst hp hv hp' hv'
  rw [ha, Except.ok.injEq] at ha'
  subst ha'
  rw [List.forall_mem_cons, List.forall_mem_cons] at hread
  rw [List.map_cons, List.map_cons, List.map_nil, List.sum_cons, List.sum_cons, List.sum_nil,
    effect_sheetOf hread.1, effect_sheetOf hread.2.1, hce, hre, one_smul, neg_smul, one_smul]
  abel

end Twin

/-- The deltas of an expense, from its first revision to its removal, leave no trace, however they
are interleaved with others; nor do a settlement delta and its reversal. -/
theorem revision_chain_leaves_no_trace (twin : Twin) :
    (∀ contextId snapshots deltas, twin.RevisionChain contextId .null snapshots deltas →
      twin.LeavesNoTrace deltas) ∧
    ∀ contextId payerId receiverId amountMinor confirmed reversed,
      twin.settlementDelta (settlementInput contextId payerId receiverId amountMinor "confirm") =
        .ok confirmed →
      twin.settlementDelta (settlementInput contextId payerId receiverId amountMinor "reverse") =
        .ok reversed →
      twin.LeavesNoTrace [confirmed, reversed] := by
  refine ⟨fun contextId snapshots deltas h => ?_, fun _ _ _ _ _ _ hc hr => ?_⟩
  · have hne : deltas ≠ [] := by cases h <;> simp
    refine Twin.leavesNoTrace_of_effect hne fun hread => ?_
    rw [Twin.effect_chain h hread, show snapshotEffect .null = 0 from rfl, neg_zero]
  · exact Twin.leavesNoTrace_of_effect (by simp) fun hread => Twin.effect_settlement hc hr hread

/-- An expense of `total` that `a` pays and `b` owes. -/
def loanSnapshot (total : String) : Json :=
  object [("currency", text "INR"), ("totalMinor", text total),
    ("contributions", .arr [object [("memberId", text "a"), ("amountMinor", text total)]]),
    ("shares", .arr [object [("memberId", text "b"), ("amountMinor", text total)]]),
    ("memberOrder", .arr [text "a", text "b"])]

/-- An expense of 100, revised to 30 and removed, around another payment of 5; and a payment of 5
taken back. -/
theorem revision_chain_leaves_no_trace_loan :
    (∃ alone, Twin.javascript.run emptyEnvelope [paymentEnvelope 5] = .ok alone ∧
      ∃ final, Twin.javascript.run emptyEnvelope [paymentEnvelope 100, paymentEnvelope (-70),
        paymentEnvelope 5, paymentEnvelope (-30)] = .ok final ∧
      final.get "pairs" = alone.get "pairs") ∧
    Twin.dart.LeavesNoTrace [paymentEnvelope 5, paymentEnvelope (-5)] := by
  have hchain : Twin.javascript.RevisionChain (js "g") .null [loanSnapshot "100", loanSnapshot "30"]
      [paymentEnvelope 100, paymentEnvelope (-70), paymentEnvelope (-30)] :=
    .revised rfl (.revised rfl (.removed rfl))
  have halone : Twin.javascript.run emptyEnvelope [paymentEnvelope 5] =
    .ok (paymentEnvelope 5) := rfl
  have hmixed : Twin.javascript.run emptyEnvelope [paymentEnvelope 100, paymentEnvelope (-70),
    paymentEnvelope 5, paymentEnvelope (-30)] = .ok (paymentEnvelope 5) := rfl
  have hc : Twin.dart.settlementDelta (settlementInput (js "g") (js "a") (js "b") (text "5")
    "confirm") = .ok (paymentEnvelope 5) := rfl
  have hr : Twin.dart.settlementDelta (settlementInput (js "g") (js "a") (js "b") (text "5")
    "reverse") = .ok (paymentEnvelope (-5)) := rfl
  have hperm : [paymentEnvelope 100, paymentEnvelope (-70), paymentEnvelope 5,
      paymentEnvelope (-30)].Perm
      ([paymentEnvelope 100, paymentEnvelope (-70), paymentEnvelope (-30)] ++ [paymentEnvelope 5]) :=
    (List.Perm.swap _ _ _).cons _ |>.cons _
  have htrace := (revision_chain_leaves_no_trace .javascript).1 _ _ _ hchain _ _ _ _ hperm hmixed
  exact ⟨⟨_, halone, _, hmixed, (htrace.2 _ halone).2 (by simp)⟩,
    (revision_chain_leaves_no_trace .dart).2 _ _ _ _ _ _ hc hr⟩

/-! ### Every projection is sound -/

/-- A member id, such as the id of a context. -/
def MemberId : Type := { id : JsString // isMember id = true }

/-- What holds of the projections of a context. -/
structure Envelope.Sound (e : Envelope) : Prop where
  members_unique : (e.members.map Prod.fst).Nodup
  balance : ∀ row ∈ e.members, row.2 =
    ((e.pairs.filter (·.1.1 = row.1)).map Prod.snd).sum -
      ((e.pairs.filter (·.1.2 = row.1)).map Prod.snd).sum
  zero_sum : (e.members.map Prod.snd).sum = 0
  pairs_unique : (e.pairs.map Prod.fst).Nodup
  pairs : ∀ row ∈ e.pairs, row.1.1 < row.1.2 ∧ row.2 ≠ 0 ∧
    row.1.1 ∈ e.members.map Prod.fst ∧ row.1.2 ∈ e.members.map Prod.fst
  gross : (e.pairs.map fun row => |row.2|).sum ≤ MAX_AGGREGATE_MINOR

namespace Dart

theorem sum_filter_eq_sum_ite (rows : List ((JsString × JsString) × ℤ))
    (p : (JsString × JsString) × ℤ → Bool) :
    ((rows.filter p).map Prod.snd).sum = (rows.map fun row => if p row then row.2 else 0).sum := by
  have hzero : ∀ row ∈ rows, p row = false → (if p row then row.2 else 0) = 0 :=
    fun row _ h => by simp [h]
  rw [← sum_map_filter_of_zero hzero]
  refine congrArg List.sum (List.map_congr_left fun row hrow => ?_)
  rw [if_pos (List.mem_filter.mp hrow).2]

/-- The balance the pairs imply, read off the rows that are written. -/
theorem net_apply_eq (pairs : InsertionMap (JsString × JsString) ℤ) (id : JsString) :
    net pairs.toFinsupp id =
      (((pairRows pairs).filter (·.1.1 = id)).map Prod.snd).sum -
        (((pairRows pairs).filter (·.1.2 = id)).map Prod.snd).sum := by
  have happly : net pairs.toFinsupp id =
      pairs.sum fun q a => (if q.1 = id then a else 0) + -if q.2 = id then a else 0 := by
    refine (pairs.map_toFinsupp ((Finsupp.applyAddHom id).comp net)).trans
      (InsertionMap.sum_congr fun q a _ => ?_)
    simp [Finsupp.single_apply, sub_eq_add_neg]
  rw [happly, ← sum_pairRows _ fun q => by simp, List.sum_map_add, sum_filter_eq_sum_ite,
    sum_filter_eq_sum_ite, sub_eq_add_neg, List.sum_neg, List.map_map]
  simp only [decide_eq_true_eq]
  rfl

theorem valid_empty {contextId : JsString} (h : isMember contextId = true) :
    (State.empty contextId).Valid where
  context := h
  isMember := by simp [State.empty]
  size := Nat.zero_le _
  pairs := by simp [State.empty]
  bounded := by simp [State.empty]
  balance := by simp [State.empty]
  gross := Int.natCast_nonneg _

/-- What a valid state writes is sound. -/
theorem State.Valid.sound {t : State} (h : t.Valid) :
    Envelope.Sound ⟨t.contextId, t.members.sorted, pairRows t.pairs⟩ := by
  refine ⟨t.members.nodup_keys_sorted, fun row hrow => ?_, ?_, nodup_pairRows _,
    fun row hrow => ?_, ?_⟩
  · have hget := InsertionMap.get?_eq_some_iff.mpr (InsertionMap.mem_sorted.mp hrow)
    have happly := t.members.toFinsupp_apply row.1
    rw [hget, Option.getD_some, h.balance, net_apply_eq] at happly
    exact happly.symm
  · have htotal := h.consistent.total_balance
    rw [State.sheet, InsertionMap.map_toFinsupp] at htotal
    simp only [total_single] at htotal
    exact ((t.members.sorted_perm.map Prod.snd).sum_eq).trans htotal
  · obtain ⟨hentry, hne⟩ := mem_pairRows.mp hrow
    obtain ⟨hlt, h₁, h₂⟩ := h.pairs _ (List.mem_map_of_mem hentry)
    have hkeys : ∀ id, id ∈ t.members.sorted.map Prod.fst ↔ id ∈ t.members.keys := fun id =>
      (t.members.sorted_perm.map Prod.fst).mem_iff
    exact ⟨hlt, hne, (hkeys _).mpr h₁, (hkeys _).mpr h₂⟩
  · have hgross := h.gross
    rw [grossMinor_eq_sum, ← sum_pairRows _ fun _ => abs_zero] at hgross
    exact hgross

end Dart

namespace Twin

/-- The deltas a twin produces for a context. -/
def Produces (twin : Twin) (contextId : MemberId) (delta : Json) : Prop :=
  ∃ input : Json, input.get "contextId" = .str contextId.val ∧
    (twin.expenseRevisionDelta input = .ok delta ∨ twin.settlementDelta input = .ok delta)

/-- The projections of a context: the empty one, and what applying a produced delta to one of them
returns. -/
inductive Reached (twin : Twin) (contextId : MemberId) : Json → Prop
  | empty : Reached twin contextId (Envelope.toJson ⟨contextId.val, [], []⟩)
  | applied {current delta next : Json} (reached : Reached twin contextId current)
    (produced : twin.Produces contextId delta)
    (applied : twin.applyBalanceDelta (applyInput current delta) = .ok next) :
    Reached twin contextId next

/-- Every projection of a context is what some valid state of the context writes. -/
theorem Reached.valid {twin : Twin} {contextId : MemberId} {projection : Json}
    (h : twin.Reached contextId projection) :
    ∃ t : Dart.State, t.Valid ∧ t.contextId = contextId.val ∧
      projection = Envelope.toJson ⟨t.contextId, t.members.sorted, Dart.pairRows t.pairs⟩ := by
  induction h with
  | empty =>
    exact ⟨.empty contextId.val, Dart.valid_empty contextId.property, rfl, rfl⟩
  | applied _ _ happlied ih =>
    obtain ⟨s, hs, hsc, rfl⟩ := ih
    obtain ⟨t, ht⟩ := applyBalanceDelta_leaves happlied
    obtain ⟨e, hout, rfl⟩ := ht.output
    obtain ⟨-, rfl⟩ := Dart.output_eq_ok.mp hout
    obtain ⟨s', hs', htc⟩ := ht.contextId
    obtain ⟨s'', hs'', hsc', -⟩ := Dart.parseEnvelope_output hs "current"
    cases hs'.symm.trans hs''
    exact ⟨t, ht.valid, htc.trans (hsc'.trans hsc), rfl⟩

end Twin

/-- Every projection of a context is sound, and is read again as the next `current`. -/
theorem reached_sound (twin : Twin) (contextId : MemberId) (projection : Json)
    (h : twin.Reached contextId projection) :
    ∃ e : Envelope, projection = e.toJson ∧ e.contextId = contextId.val ∧ e.Sound ∧
      twin.accepts projection = true := by
  obtain ⟨t, ht, htc, rfl⟩ := h.valid
  refine ⟨_, rfl, htc, ht.sound, ?_⟩
  obtain ⟨s, hs, -⟩ := Dart.parseEnvelope_output ht "current"
  rw [Twin.accepts_eq, hs]
  rfl

/-- The projection after one payment of 100. -/
theorem reached_sound_payment : ∃ e : Envelope, paymentEnvelope 100 = e.toJson ∧
    e.contextId = js "g" ∧ e.Sound ∧ Twin.javascript.accepts (paymentEnvelope 100) = true :=
  reached_sound .javascript ⟨js "g", by decide⟩ _ (.applied .empty
    ⟨settlementInput (js "g") (js "a") (js "b") (text "100") "confirm", rfl, .inr rfl⟩ rfl)

end PandaPay.SharedExpenses
