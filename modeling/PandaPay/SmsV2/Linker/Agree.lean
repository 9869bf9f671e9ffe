import PandaPay.SmsV2.Linker.Link
import PandaPay.SmsV2.Linker.Writes

/-!
# The order of the maps

Processing a fact reads the events, the index of the legs and the refunded totals by key only. Two
states that agree in their lookups find the same candidates and make the same writes, so they agree
afterwards.

## Main definitions

* `Run.Agrees ids ids' s s'`: the lookups of `s` and `s'` are the same, and all else is; their events
  are listed in the orders `ids` and `ids'`, then in one order

## Main results

* `candidates_congr`, `narrow_congr`, …: the searches
* `linkStep_agrees`: processing a fact
-/

namespace PandaPay.SmsV2

/-- The two states differ in the order of the events `ids` that were there first, and in that of the
entries of two indexes. -/
structure Run.Agrees (ids ids' : List JsString) (s s' : Run) : Prop where
  events : ∀ id, s.events.get? id = s'.events.get? id
  keys : ∃ new, s.events.keys = ids ++ new ∧ s'.events.keys = ids' ++ new
  eventOfFact : ∀ g, s.eventOfFact.get? g = s'.eventOfFact.get? g
  refunded : ∀ g, s.refunded.get? g = s'.refunded.get? g
  changed : s.changed = s'.changed
  processed : s.processed = s'.processed
  thisRun : s.thisRun = s'.thisRun
  byAmount : s.byAmount = s'.byAmount
  byType : s.byType = s'.byType
  byInstrument : s.byInstrument = s'.byInstrument
  byInstrumentParty : s.byInstrumentParty = s'.byInstrumentParty
  mandatesByKey : s.mandatesByKey = s'.mandatesByKey
  debitsByKey : s.debitsByKey = s'.debitsByKey
  reviews : s.reviews = s'.reviews
  ambiguousReceipts : s.ambiguousReceipts = s'.ambiguousReceipts
  pendingIpoMandates : s.pendingIpoMandates = s'.pendingIpoMandates

section Searches

variable {env : Env} {ids ids' : List JsString} {s s' : Run} (h : s.Agrees ids ids' s')
include h

/-! ### Searches -/

theorem eventOf_congr (g : Fact) : s.eventOf g = s'.eventOf g := by
  unfold Table.eventOf
  rw [h.eventOfFact]
  exact congrArg _ (funext h.events)

theorem pairOk_congr (rule : LinkRule) (role : LegRole) (f : Fact) (otherRole : LegRole) (g : Fact) :
    env.pairOk s.refunded rule role f otherRole g = env.pairOk s'.refunded rule role f otherRole g := by
  simp only [Env.pairOk, h.refunded]

theorem scan_congr (rule : LinkRule) (role : LegRole) (f : Fact) (other : LinkLeg) (pool : List Fact) :
    scan env s rule role f other pool = scan env s' rule role f other pool := by
  have hstep : scanStep env s rule role f other = scanStep env s' rule role f other := by
    funext acc g
    have hpasses : passes env s rule role f other g = passes env s' rule role f other g := by
      simp only [passes, h.processed, pairOk_congr h]
    have hloose : usableLoose env s g = usableLoose env s' g := by
      simp only [usableLoose, h.thisRun]
    rw [scanStep, scanStep, hpasses, hloose, h.eventOfFact]
    simp only [h.events]
  rw [scan, scan, hstep]

theorem poolOf_congr (rule : LinkRule) (other : LinkLeg) (f : Fact) :
    poolOf env s rule other f = poolOf env s' rule other f := by
  simp only [poolOf, h.byInstrumentParty, h.byAmount, h.byType]

theorem mandateCandidates_congr (rule : LinkRule) (f : Fact) :
    mandateCandidates env s rule f = mandateCandidates env s' rule f := by
  have hchargeable : chargeable env s rule f = chargeable env s' rule f := by
    funext g
    simp only [chargeable, h.processed]
  simp only [mandateCandidates, h.mandatesByKey, hchargeable]

theorem feeTransaction_congr (rule : LinkRule) (fee : Fact) (extra : Option Fact) :
    feeTransaction env s rule fee extra = feeTransaction env s' rule fee extra := by
  have hstep (leg : LinkLeg) (charged : Option OriginalAmount) :
      feeStep env s rule leg fee charged = feeStep env s' rule leg fee charged := by
    funext byTransaction g
    simp only [feeStep, h.eventOfFact, h.events]
  simp only [feeTransaction, h.byInstrument, h.processed, hstep]

theorem candidates_congr (rule : LinkRule) (leg : LinkLeg) (f : Fact) :
    candidates env s rule leg f = candidates env s' rule leg f := by
  simp only [candidates, stages, mandateCandidates_congr h, feeTransaction_congr h, poolOf_congr h,
    scan_congr h]

theorem duplicateCandidates_congr (rule : LinkRule) (f : Fact) :
    duplicateCandidates env s rule f = duplicateCandidates env s' rule f := by
  have hstep (leg : LinkLeg) : duplicateStep env s rule leg f = duplicateStep env s' rule leg f := by
    funext byEvent g
    simp only [duplicateStep, h.processed, h.eventOfFact, h.events]
  simp only [duplicateCandidates, h.byAmount, hstep]

theorem narrow_congr (rule : LinkRule) (f : Fact) (cands : List Cand) :
    narrow env s rule f cands = narrow env s' rule f cands := by
  have hfacts : candFacts env s = candFacts env s' := by
    funext c
    rw [candFacts, candFacts, show s.events.get? = s'.events.get? from funext h.events]
  simp only [narrow, hfacts]

theorem noticeOf_congr (f : Fact) (eventId : JsString) :
    noticeOf env s f eventId = noticeOf env s' f eventId := by
  have hreceipt (rule : LinkRule) : receiptFor env s rule f = receiptFor env s' rule f := by
    funext r
    simp only [receiptFor, h.eventOfFact, h.ambiguousReceipts]
  simp only [noticeOf, h.events, h.byAmount, hreceipt, narrow_congr h]

theorem receiptCandidates_congr (rule : LinkRule) (f : Fact) (a : ℤ) :
    receiptCandidates env s rule f a = receiptCandidates env s' rule f a := by
  have hstep : receiptStep s rule f = receiptStep s' rule f := by
    funext byEvent g
    simp only [receiptStep, h.processed, h.eventOfFact, h.events]
  rw [receiptCandidates, receiptCandidates, hstep, h.byAmount, narrow_congr h]

theorem confirmedReceipt_congr (rule : LinkRule) (f r : Fact) :
    confirmedReceipt env s rule f r = confirmedReceipt env s' rule f r := by
  simp only [confirmedReceipt, eventOf_congr h]

theorem dependents_congr (rule : LinkRule) (f : Fact) :
    dependents env s rule f = dependents env s' rule f := by
  have hrole : dependentRole env s rule f = dependentRole env s' rule f := by
    funext g
    simp only [dependentRole, fitsHold, h.processed, eventOf_congr h, pairOk_congr h]
  simp only [dependents, h.byType, hrole]

theorem holdBase_congr (rule : LinkRule) (f : Fact) : holdBase env s rule f = holdBase env s' rule f := by
  have hother : otherHold env s rule f = otherHold env s' rule f := by
    funext g role hold
    simp only [otherHold, fitsHold, h.processed, eventOf_congr h, pairOk_congr h]
  simp only [holdBase, dependents_congr h, h.byType, hother, eventOf_congr h]

theorem lateRefunds_congr (rule : LinkRule) (f : Fact) :
    lateRefunds env s rule f = lateRefunds env s' rule f := by
  have hrefund (leg : LinkLeg) : refundOf env s rule leg f = refundOf env s' rule leg f := by
    funext g
    simp only [refundOf, h.processed, eventOf_congr h]
  simp only [lateRefunds, h.byType, hrefund]

theorem lateFees_congr (rule : LinkRule) (p : Fact) : lateFees env s rule p = lateFees env s' rule p := by
  have hfee (leg : LinkLeg) : feeOf env s rule leg p = feeOf env s' rule leg p := by
    funext g
    simp only [feeOf, h.processed, eventOf_congr h, feeTransaction_congr h]
  simp only [lateFees, h.byInstrument, hfee]

theorem lateCharges_congr (rule : LinkRule) (m : Fact) :
    lateCharges env s rule m = lateCharges env s' rule m := by
  simp only [lateCharges, h.debitsByKey, h.processed, eventOf_congr h]

theorem firstPair_congr (f : Fact) (legs : List (LinkRule × LinkLeg)) :
    firstPair env s f legs = firstPair env s' f legs := by
  induction legs with
  | nil => rfl
  | cons leg legs ih => simp only [firstPair, candidates_congr h, narrow_congr h, ih]

theorem firstDuplicate_congr (f : Fact) (rules : List LinkRule) :
    firstDuplicate env s f rules = firstDuplicate env s' f rules := by
  induction rules with
  | nil => rfl
  | cons rule rules ih =>
    simp only [firstDuplicate, duplicateCandidates_congr h, narrow_congr h, ih]

end Searches

/-! ### Writes -/

section Writes

variable {env : Env} {ids ids' : List JsString} {s s' : Run}

namespace Run.Agrees

theorem put (h : s.Agrees ids ids' s') (e : Event) : (s.put e).Agrees ids ids' (s'.put e) where
  events id := by
    change (s.events.set _ _).get? id = (s'.events.set _ _).get? id
    rw [InsertionMap.get?_set, InsertionMap.get?_set, h.events]
  keys := by
    obtain ⟨new, hs, hs'⟩ := h.keys
    have hmem : e.eventId ∈ s.events.keys ↔ e.eventId ∈ s'.events.keys := by
      rw [InsertionMap.mem_keys_iff, InsertionMap.mem_keys_iff, h.events]
    change ∃ new, (s.events.set _ _).keys = ids ++ new ∧ (s'.events.set _ _).keys = ids' ++ new
    rw [InsertionMap.keys_set, InsertionMap.keys_set]
    by_cases hnew : e.eventId ∈ s.events.keys
    · rw [if_pos hnew, if_pos (hmem.mp hnew)]
      exact ⟨new, hs, hs'⟩
    · rw [if_neg hnew, if_neg fun hmem' => hnew (hmem.mpr hmem'), hs, hs', List.append_assoc,
        List.append_assoc]
      exact ⟨_, rfl, rfl⟩
  eventOfFact g := by
    change (mapLegs _ _).get? g = (mapLegs _ _).get? g
    rw [get?_mapLegs, get?_mapLegs, h.eventOfFact]
  refunded := h.refunded
  changed := congrArg (addTo · e.eventId) h.changed
  processed := h.processed
  thisRun := h.thisRun
  byAmount := h.byAmount
  byType := h.byType
  byInstrument := h.byInstrument
  byInstrumentParty := h.byInstrumentParty
  mandatesByKey := h.mandatesByKey
  debitsByKey := h.debitsByKey
  reviews := h.reviews
  ambiguousReceipts := h.ambiguousReceipts
  pendingIpoMandates := h.pendingIpoMandates

theorem refund (h : s.Agrees ids ids' s') {refunded refunded' : InsertionMap JsString ℤ}
    (hrefunded : ∀ g, refunded.get? g = refunded'.get? g) :
    ({ s with refunded := refunded } : Run).Agrees ids ids' { s' with refunded := refunded' } :=
  { h with refunded := hrefunded }

theorem review (h : s.Agrees ids ids' s') (review : ReviewItem) :
    ({ s with reviews := s.reviews.set review.reviewId review } : Run).Agrees ids ids'
      { s' with reviews := s'.reviews.set review.reviewId review } :=
  { h with reviews := congrArg (InsertionMap.set · review.reviewId review) h.reviews }

theorem ambiguousReceipt (h : s.Agrees ids ids' s') (id : JsString) :
    ({ s with ambiguousReceipts := addTo s.ambiguousReceipts id } : Run).Agrees ids ids'
      { s' with ambiguousReceipts := addTo s'.ambiguousReceipts id } :=
  { h with ambiguousReceipts := congrArg (addTo · id) h.ambiguousReceipts }

theorem pending (h : s.Agrees ids ids' s') (m : Fact) :
    ({ s with pendingIpoMandates := s.pendingIpoMandates ++ [m] } : Run).Agrees ids ids'
      { s' with pendingIpoMandates := s'.pendingIpoMandates ++ [m] } :=
  { h with pendingIpoMandates := congrArg (· ++ [m]) h.pendingIpoMandates }

theorem process (h : s.Agrees ids ids' s') (id : JsString) :
    ({ s with processed := s.processed ++ [id] } : Run).Agrees ids ids'
      { s' with processed := s'.processed ++ [id] } :=
  { h with processed := congrArg (· ++ [id]) h.processed }

theorem index (h : s.Agrees ids ids' s') (f : Fact) :
    (s.index env f).Agrees ids ids' (s'.index env f) := by
  constructor
  case events => exact h.events
  case keys => exact h.keys
  case eventOfFact => exact h.eventOfFact
  case refunded => exact h.refunded
  all_goals
    simp only [Run.index, h.changed, h.processed, h.thisRun, h.byAmount, h.byType, h.byInstrument,
      h.byInstrumentParty, h.mandatesByKey, h.debitsByKey, h.reviews, h.ambiguousReceipts,
      h.pendingIpoMandates]

theorem done (h : s.Agrees ids ids' s') (f : Fact) :
    (s.done env f).Agrees ids ids' (s'.done env f) := by
  have hindexed : (if f.factId ∈ s.processed then s
      else Run.index env { s with processed := s.processed ++ [f.factId] } f).Agrees ids ids'
      (if f.factId ∈ s'.processed then s'
        else Run.index env { s' with processed := s'.processed ++ [f.factId] } f) := by
    by_cases hseen : f.factId ∈ s.processed
    · rw [if_pos hseen, if_pos (h.processed ▸ hseen)]
      exact h
    · rw [if_neg hseen, if_neg (h.processed ▸ hseen)]
      exact (h.process f.factId).index f
  exact { hindexed with thisRun := congrArg (addTo · f.factId) hindexed.thisRun }

end Run.Agrees

theorem get?_upsert_congr {m m' : InsertionMap JsString ℤ} (h : ∀ g, m.get? g = m'.get? g) (k : JsString)
    (d : ℤ) (f : ℤ → ℤ) (g : JsString) : (m.upsert k d f).get? g = (m'.upsert k d f).get? g := by
  rw [InsertionMap.upsert, InsertionMap.upsert, InsertionMap.get?_set, InsertionMap.get?_set, h, h]

theorem countRefund_congr {m m' : InsertionMap JsString ℤ} (h : ∀ g, m.get? g = m'.get? g) (e : Event)
    (g : JsString) : (countRefund env m e).get? g = (countRefund env m' e).get? g := by
  unfold countRefund
  split
  · exact h g
  · dsimp only
    induction e.legs.filter fun l => l.role = .original generalizing m m' with
    | nil => exact h g
    | cons l legs ih => exact ih (get?_upsert_congr h _ _ _)

variable (h : s.Agrees ids ids' s')
include h

/-! ### Joins -/

theorem join_agrees (rule : LinkRule) (role : LegRole) (f : Fact) (c : Cand) :
    (join env s rule role f c).1.Agrees ids ids' (join env s' rule role f c).1 ∧
      (join env s rule role f c).2 = (join env s' rule role f c).2 := by
  unfold join
  cases c.eventId with
  | some eventId =>
    dsimp only
    rw [h.events]
    cases s'.events.get? eventId with
    | none => exact ⟨h, rfl⟩
    | some e =>
      dsimp only
      split
      · exact ⟨(h.put _).refund (countRefund_congr h.refunded _), rfl⟩
      · exact ⟨h.put _, rfl⟩
  | none =>
    dsimp only
    split
    · exact ⟨(h.put _).refund (get?_upsert_congr h.refunded _ _ _), rfl⟩
    · exact ⟨h.put _, rfl⟩

theorem joinDuplicate_agrees (rule : LinkRule) (f : Fact) (c : Cand) :
    (joinDuplicate env s rule f c).Agrees ids ids' (joinDuplicate env s' rule f c) := by
  unfold joinDuplicate
  rw [show s.events.get? = s'.events.get? from funext h.events]
  split
  · exact h
  · exact h.put _

theorem ambiguous_agrees (rule : LinkRule) (role : LegRole) (f : Fact) (cands : List Cand) :
    (ambiguous env s rule role f cands).1.Agrees ids ids' (ambiguous env s' rule role f cands).1 ∧
      (ambiguous env s rule role f cands).2 = (ambiguous env s' rule role f cands).2 :=
  ⟨(h.put _).review _, rfl⟩

theorem afterMoney_agrees (f : Fact) (eventId : JsString) :
    (afterMoney env s f eventId).Agrees ids ids' (afterMoney env s' f eventId) := by
  unfold afterMoney
  rw [noticeOf_congr h]
  split
  · exact h.put _
  · exact h

theorem processReceipt_agrees (f : Fact) :
    (processReceipt env s f).Agrees ids ids' (processReceipt env s' f) := by
  unfold processReceipt
  split
  · exact h
  · cases env.firstOf .receipt with
    | none => exact h
    | some rule =>
      cases f.principal with
      | none => exact h
      | some a =>
        dsimp only
        rw [receiptCandidates_congr h, show s.events.get? = s'.events.get? from funext h.events]
        rcases receiptCandidates env s' rule f a with _ | ⟨c, _ | ⟨c', cs⟩⟩
        · exact h
        · dsimp only
          cases c.eventId.bind s'.events.get? with
          | none => exact h
          | some e => exact h.put _
        · exact (h.ambiguousReceipt _).review _

/-! ### Late arrivals -/

/-- Both states are there and agree, or neither is. -/
def AgreeSome (ids ids' : List JsString) : Option Run → Option Run → Prop
  | some s, some s' => s.Agrees ids ids' s'
  | none, none => True
  | _, _ => False

theorem lateFundingDebit_agrees (f : Fact) :
    AgreeSome ids ids' (lateFundingDebit env s f) (lateFundingDebit env s' f) := by
  unfold lateFundingDebit
  cases env.firstOf .receipt with
  | none => trivial
  | some rule =>
    cases f.principal with
    | none => trivial
    | some a =>
      dsimp only
      rw [show confirmedReceipt env s rule f = confirmedReceipt env s' rule f from
        funext (confirmedReceipt_congr h rule f), h.byAmount]
      split
      · exact h.put _
      · trivial

theorem lateHold_agrees (f : Fact) : AgreeSome ids ids' (lateHold env s f) (lateHold env s' f) := by
  unfold lateHold
  split
  · trivial
  · cases env.firstOf .ipo with
    | none => trivial
    | some rule =>
      dsimp only
      rw [holdBase_congr h]
      cases holdBase env s' rule f with
      | none => trivial
      | some e => exact h.put _

theorem joinOriginal_agrees (rule : LinkRule) (f : Fact) (role : LegRole) (g : Fact) :
    (joinOriginal env rule f role s g).Agrees ids ids' (joinOriginal env rule f role s' g) := by
  unfold joinOriginal
  rw [h.eventOfFact]
  cases s'.eventOfFact.get? g.factId with
  | none => exact h
  | some eventId => exact (join_agrees h _ _ _ _).1

omit h in
/-- Steps that keep the agreement keep it along a list. -/
theorem foldl_agrees {step : Run → Fact → Run}
    (hstep : ∀ {s s' : Run}, s.Agrees ids ids' s' → ∀ g, (step s g).Agrees ids ids' (step s' g))
    (h : s.Agrees ids ids' s') (list : List Fact) :
    (list.foldl step s).Agrees ids ids' (list.foldl step s') := by
  induction list generalizing s s' with
  | nil => exact h
  | cons g list ih => exact ih (hstep h g)

theorem lateOriginal_agrees (f : Fact) :
    (lateOriginal env s f).Agrees ids ids' (lateOriginal env s' f) := by
  unfold lateOriginal
  cases env.firstOf .refund with
  | none => exact h
  | some rule =>
    dsimp only
    rw [lateRefunds_congr h]
    refine foldl_agrees (fun h g => ?_) h _
    unfold refundStep
    rw [pairOk_congr h]
    split
    · exact joinOriginal_agrees h _ _ _ _
    · exact h

theorem lateFeeOriginal_agrees (p : Fact) :
    (lateFeeOriginal env s p).Agrees ids ids' (lateFeeOriginal env s' p) := by
  unfold lateFeeOriginal
  cases env.firstOf .feeCharge with
  | none => exact h
  | some rule =>
    dsimp only
    rw [lateFees_congr h]
    exact foldl_agrees (fun h g => joinOriginal_agrees h _ _ _ g) h _

theorem lateMandate_agrees (m : Fact) :
    (lateMandate env s m).Agrees ids ids' (lateMandate env s' m) := by
  unfold lateMandate
  cases env.firstOf .mandateCharge with
  | none => exact h
  | some rule =>
    dsimp only
    split
    · exact h
    · cases rule.legOf .charge with
      | none => exact h
      | some leg =>
        dsimp only
        rw [lateCharges_congr h]
        refine foldl_agrees (fun h g => ?_) h _
        unfold chargeStep
        rw [eventOf_congr h, mandateCandidates_congr h]
        split
        · split
          · exact h.put _
          · exact h
        · exact h

/-! ### Processing -/

theorem takePair_agrees (f : Fact) (rule : LinkRule) (leg : LinkLeg) (list : List Cand) :
    (takePair env s f rule leg list).1.Agrees ids ids' (takePair env s' f rule leg list).1 ∧
      (takePair env s f rule leg list).2 = (takePair env s' f rule leg list).2 := by
  have hjoin (c : Cand) := @join_agrees env _ _ _ _ h rule leg.role f c
  have hambiguous := @ambiguous_agrees env _ _ _ _ h rule leg.role f list
  match list with
  | [] => exact ⟨h, rfl⟩
  | [c] => exact ⟨(hjoin c).1, congrArg some (hjoin c).2⟩
  | c :: d :: list =>
    unfold takePair
    dsimp only
    split
    · exact ⟨(hjoin c).1, congrArg some (hjoin c).2⟩
    · exact ⟨hambiguous.1, congrArg some hambiguous.2⟩

theorem takeDuplicate_agrees (f : Fact) (rule : LinkRule) (list : List Cand) :
    (takeDuplicate env s f rule list).Agrees ids ids' (takeDuplicate env s' f rule list) := by
  match list with
  | [] => exact (ambiguous_agrees h _ _ _ _).1
  | [c] => exact joinDuplicate_agrees h _ _ _
  | _ :: _ :: _ => exact (ambiguous_agrees h _ _ _ _).1

theorem takeAlone_agrees (f : Fact) (rule : LinkRule) (leg : LinkLeg) :
    (takeAlone env s f rule leg).1.Agrees ids ids' (takeAlone env s' f rule leg).1 ∧
      (takeAlone env s f rule leg).2 = (takeAlone env s' f rule leg).2 := by
  unfold takeAlone
  refine ⟨?_, rfl⟩
  dsimp only
  split
  · exact (h.put _).review _
  · exact h.put _

theorem takeFallback_agrees (f : Fact) :
    (takeFallback env s f).1.Agrees ids ids' (takeFallback env s' f).1 ∧
      (takeFallback env s f).2 = (takeFallback env s' f).2 := by
  unfold takeFallback
  cases env.fallback f with
  | none => exact ⟨h, rfl⟩
  | some fb => exact ⟨h.put _, rfl⟩

theorem takeUnpaired_agrees (f : Fact) :
    (takeUnpaired env s f).1.Agrees ids ids' (takeUnpaired env s' f).1 ∧
      (takeUnpaired env s f).2 = (takeUnpaired env s' f).2 := by
  unfold takeUnpaired
  rw [firstDuplicate_congr h]
  cases (if f.isMovement then firstDuplicate env s' f env.rules else none) with
  | some found => exact ⟨takeDuplicate_agrees h _ _ _, rfl⟩
  | none =>
    dsimp only
    cases firstAlone env f with
    | some found => exact takeAlone_agrees h _ _ _
    | none => exact takeFallback_agrees h f

theorem takeLate_agrees (f : Fact) : (takeLate env s f).Agrees ids ids' (takeLate env s' f) := by
  unfold takeLate
  split
  · exact lateFeeOriginal_agrees (lateOriginal_agrees h f) f
  · exact h

/-- Both calls fail in the same way, or their states agree. -/
def AgreeOk (ids ids' : List JsString) : Except LinkError Run → Except LinkError Run → Prop
  | .ok s, .ok s' => s.Agrees ids ids' s'
  | .error e, .error e' => e = e'
  | _, _ => False

/-- Both calls fail in the same way, or their states agree and they name the same event. -/
def AgreeNamed (ids ids' : List JsString) :
    Except LinkError (Run × Option JsString) → Except LinkError (Run × Option JsString) → Prop
  | .ok (s, id), .ok (s', id') => s.Agrees ids ids' s' ∧ id = id'
  | .error e, .error e' => e = e'
  | _, _ => False

theorem takeMoney_agrees (f : Fact) : AgreeNamed ids ids' (takeMoney env s f) (takeMoney env s' f) := by
  have hfunding : AgreeSome ids ids' (if f.direction? = some .debit then lateFundingDebit env s f else none)
      (if f.direction? = some .debit then lateFundingDebit env s' f else none) := by
    split
    · exact lateFundingDebit_agrees h f
    · trivial
  have hhold := @lateHold_agrees env _ _ _ _ h f
  have hlate := @takeLate_agrees env _ _ _ _ h f
  unfold takeMoney
  revert hfunding
  cases (if f.direction? = some .debit then lateFundingDebit env s f else none) with
  | some t =>
    cases (if f.direction? = some .debit then lateFundingDebit env s' f else none) with
    | some t' => exact fun hfunding => ⟨hfunding, rfl⟩
    | none => exact fun hfunding => hfunding.elim
  | none =>
    cases (if f.direction? = some .debit then lateFundingDebit env s' f else none) with
    | some t' => exact fun hfunding => hfunding.elim
    | none =>
      intro _
      dsimp only
      revert hhold
      cases lateHold env s f with
      | some t =>
        cases lateHold env s' f with
        | some t' => exact fun hhold => ⟨hhold, rfl⟩
        | none => exact fun hhold => hhold.elim
      | none =>
        cases lateHold env s' f with
        | some t' => exact fun hhold => hhold.elim
        | none =>
          intro _
          dsimp only
          rw [firstPair_congr hlate]
          cases firstPair env (takeLate env s' f) f (pairLegs env f) with
          | error e => rfl
          | ok found =>
            cases found with
            | some found => exact takePair_agrees hlate f _ _ _
            | none => exact takeUnpaired_agrees hlate f

theorem processMoney_agrees (f : Fact) :
    AgreeOk ids ids' (processMoney env s f) (processMoney env s' f) := by
  have htake := @takeMoney_agrees env _ _ _ _ h f
  unfold processMoney
  revert htake
  cases takeMoney env s f with
  | error e =>
    cases takeMoney env s' f with
    | error e' => exact id
    | ok t' => exact False.elim
  | ok t =>
    cases takeMoney env s' f with
    | error e' => exact False.elim
    | ok t' =>
      obtain ⟨t, id⟩ := t
      obtain ⟨t', id'⟩ := t'
      rintro ⟨hagrees, rfl⟩
      cases id with
      | none => exact hagrees.done f
      | some eventId => exact (afterMoney_agrees hagrees f eventId).done f

theorem process_agrees (f : Fact) : AgreeOk ids ids' (process env s f) (process env s' f) := by
  unfold process
  cases f.factType with
  | movement =>
    dsimp only
    split
    · split
      · exact (processReceipt_agrees h f).done f
      · exact h.done f
    · exact processMoney_agrees h f
  | mandate =>
    dsimp only
    split
    · exact lateMandate_agrees ((h.pending f).done f) f
    · exact lateMandate_agrees (h.done f) f
  | hold => exact processMoney_agrees h f
  | _ => exact h.done f

/-- Processing a fact does not see the order of the maps. -/
theorem linkStep_agrees (f : Fact) : AgreeOk ids ids' (linkStep env s f) (linkStep env s' f) := by
  unfold linkStep
  rw [h.eventOfFact]
  split
  · exact h.done f
  · exact process_agrees h f

theorem foldlM_agrees (list : List Fact) :
    AgreeOk ids ids' (list.foldlM (linkStep env) s) (list.foldlM (linkStep env) s') := by
  induction list generalizing s s' with
  | nil => exact h
  | cons f list ih =>
    have hstep := @linkStep_agrees env _ _ _ _ h f
    rw [List.foldlM_cons, List.foldlM_cons]
    revert hstep
    cases linkStep env s f with
    | error e =>
      cases linkStep env s' f with
      | error e' => exact id
      | ok t' => exact False.elim
    | ok t =>
      cases linkStep env s' f with
      | error e' => exact False.elim
      | ok t' => exact fun hstep => ih hstep

end Writes

end PandaPay.SmsV2
