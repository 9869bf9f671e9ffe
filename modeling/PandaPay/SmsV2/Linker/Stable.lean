import PandaPay.SmsV2.Linker.Link

/-!
# What processing keeps

Processing a fact puts events, adds to the refunded totals, raises reviews, and lists the fact. What
each of these keeps, processing keeps.

## Main definitions

* `Stable env f P`: each of the things that processing `f` does keeps `P`

## Main results

* `takeLate_stable`, `processMoney_stable`, `processReceipt_stable`, `lateMandate_stable`
* `linkStep_pending`: a step notes the fact it processes as an IPO mandate, or none
-/

namespace PandaPay.SmsV2

/-- What processing the fact `f` does one after the other keeps `P`. -/
structure Stable (env : Env) (f : Fact) (P : Run → Prop) : Prop where
  put : ∀ {s}, P s → ∀ e, P (s.put e)
  refunded : ∀ {s}, P s → ∀ refunded, P { s with refunded := refunded }
  reviews : ∀ {s}, P s → ∀ reviews, P { s with reviews := reviews }
  ambiguousReceipts : ∀ {s}, P s → ∀ receipts, P { s with ambiguousReceipts := receipts }
  done : ∀ {s}, P s → P (s.done env f)

section Stable

variable {env : Env} {s : Run} {f : Fact} {P : Run → Prop} (hP : Stable env f P)
include hP

theorem join_stable (h : P s) {rule : LinkRule} {role : LegRole} {g : Fact} {c : Cand} :
    P (join env s rule role g c).1 := by
  unfold join
  split
  · split
    · exact h
    · dsimp only
      split_ifs
      · exact hP.refunded (hP.put h _) _
      · exact hP.put h _
  · dsimp only
    split_ifs
    · exact hP.refunded (hP.put h _) _
    · exact hP.put h _

theorem ambiguous_stable (h : P s) {rule : LinkRule} {role : LegRole} {cands : List Cand} :
    P (ambiguous env s rule role f cands).1 :=
  hP.reviews (hP.put h _) _

theorem joinOriginal_stable (h : P s) {rule : LinkRule} {role : LegRole} {g : Fact} :
    P (joinOriginal env rule f role s g) := by
  unfold joinOriginal
  split
  · exact join_stable hP h
  · exact h

theorem takeLate_stable (h : P s) : P (takeLate env s f) := by
  have horiginal : P (lateOriginal env s f) := by
    unfold lateOriginal
    split
    · exact h
    · refine List.foldlRecOn _ _ (motive := P) h fun s hs g _ => ?_
      unfold refundStep
      split_ifs
      · exact joinOriginal_stable hP hs
      · exact hs
  unfold takeLate
  split_ifs
  · unfold lateFeeOriginal
    split
    · exact horiginal
    · exact List.foldlRecOn _ _ (motive := P) horiginal fun s hs g _ => joinOriginal_stable hP hs
  · exact h

theorem takePair_stable (h : P s) {rule : LinkRule} {leg : LinkLeg} {list : List Cand} :
    P (takePair env s f rule leg list).1 := by
  unfold takePair
  dsimp only
  split
  · exact join_stable hP h
  · split_ifs
    · exact join_stable hP h
    · exact ambiguous_stable hP h
  · exact h

theorem takeUnpaired_stable (h : P s) : P (takeUnpaired env s f).1 := by
  unfold takeUnpaired
  split
  · dsimp only
    unfold takeDuplicate
    split
    · unfold joinDuplicate
      split
      · exact h
      · exact hP.put h _
    · exact ambiguous_stable hP h
  · split
    · unfold takeAlone
      dsimp only
      split_ifs
      all_goals exact hP.reviews (hP.put h _) _
    · unfold takeFallback
      split
      · exact h
      · exact hP.put h _

theorem takeMoney_stable (h : P s) {s' : Run} {id : Option JsString}
    (hmoney : takeMoney env s f = .ok (s', id)) : P s' := by
  unfold takeMoney at hmoney
  split at hmoney
  next t ht =>
    obtain ⟨rfl, -⟩ : t = s' ∧ none = id := by simpa [pure_eq_ok] using hmoney
    split_ifs at ht
    unfold lateFundingDebit at ht
    split at ht
    · split_ifs at ht
      exact Option.some.inj ht ▸ hP.put h _
    · simp at ht
  next =>
    split at hmoney
    next t ht =>
      obtain ⟨rfl, -⟩ : t = s' ∧ none = id := by simpa [pure_eq_ok] using hmoney
      unfold lateHold at ht
      split_ifs at ht
      split at ht
      · simp at ht
      · obtain ⟨e, -, rfl⟩ := Option.map_eq_some_iff.mp ht
        exact hP.put h _
    next =>
      have hlate : P (takeLate env s f) := takeLate_stable hP h
      obtain ⟨choice, -, hmoney⟩ := bind_eq_ok.mp hmoney
      split at hmoney
      next rule leg list =>
        obtain rfl : (takePair env (takeLate env s f) f rule leg list).1 = s' :=
          congrArg Prod.fst (Except.ok.inj hmoney)
        exact takePair_stable hP hlate
      next =>
        obtain rfl : (takeUnpaired env (takeLate env s f) f).1 = s' :=
          congrArg Prod.fst (Except.ok.inj hmoney)
        exact takeUnpaired_stable hP hlate

theorem processMoney_stable (h : P s) {s' : Run} (hmoney : processMoney env s f = .ok s') : P s' := by
  obtain ⟨⟨t, id⟩, ht, hmoney⟩ := bind_eq_ok.mp hmoney
  have htaken := takeMoney_stable hP h ht
  rw [← Except.ok.inj hmoney]
  cases id with
  | none => exact hP.done htaken
  | some id =>
    refine hP.done ?_
    dsimp only
    unfold afterMoney
    split
    · exact hP.put htaken _
    · exact htaken

theorem processReceipt_stable (h : P s) : P (processReceipt env s f) := by
  unfold processReceipt
  split_ifs
  · exact h
  · split
    · split
      · exact h
      · split
        · exact hP.put h _
        · exact h
      · exact hP.reviews (hP.ambiguousReceipts h _) _
    · exact h

theorem chargeStep_stable (h : P s) {rule : LinkRule} {leg : LinkLeg} {g : Fact} :
    P (chargeStep env rule leg s g) := by
  unfold chargeStep
  split
  · split_ifs
    · exact hP.put h _
    · exact h
  · exact h

theorem lateMandate_stable (h : P s) : P (lateMandate env s f) := by
  unfold lateMandate
  split
  · exact h
  · split_ifs
    · exact h
    · split
      · exact h
      · exact List.foldlRecOn _ _ (motive := P) h fun s hs g _ => chargeStep_stable hP hs

/-- A step of `link` keeps what the parts of it keep. -/
theorem linkStep_stable (hpending : ∀ {s}, P s →
      P { s with pendingIpoMandates := s.pendingIpoMandates ++ [f] })
    (h : P s) {s' : Run} (hstep : linkStep env s f = .ok s') : P s' := by
  unfold linkStep at hstep
  split_ifs at hstep
  · exact Except.ok.inj hstep ▸ hP.done h
  · unfold process at hstep
    split at hstep
    · split_ifs at hstep
      · exact Except.ok.inj hstep ▸ hP.done (processReceipt_stable hP h)
      · exact Except.ok.inj hstep ▸ hP.done h
      · exact processMoney_stable hP h hstep
    · rw [← Except.ok.inj hstep]
      refine lateMandate_stable hP (hP.done ?_)
      split_ifs
      · exact hpending h
      · exact h
    · exact processMoney_stable hP h hstep
    · exact Except.ok.inj hstep ▸ hP.done h

end Stable

/-- Only the list of the IPO mandates itself changes it. -/
theorem stable_pending (env : Env) (f : Fact) (list : List Fact) :
    Stable env f fun s => s.pendingIpoMandates = list where
  put h _ := h
  refunded h _ := h
  reviews h _ := h
  ambiguousReceipts h _ := h
  done {s} h := by
    unfold Run.done
    dsimp only
    split_ifs <;> exact h

/-- A step notes the fact it processes as an IPO mandate, or none. -/
theorem linkStep_pending {env : Env} {s s' : Run} {f : Fact} (hstep : linkStep env s f = .ok s') :
    s'.pendingIpoMandates = s.pendingIpoMandates ∨
      s'.pendingIpoMandates = s.pendingIpoMandates ++ [f] := by
  have hkeep {t : Run} (ht : t.pendingIpoMandates = s.pendingIpoMandates) (h : t = s') :
      s'.pendingIpoMandates = s.pendingIpoMandates := h ▸ ht
  have hstable := stable_pending env f s.pendingIpoMandates
  unfold linkStep at hstep
  split_ifs at hstep
  · exact .inl (Except.ok.inj hstep ▸ hstable.done rfl)
  · unfold process at hstep
    split at hstep
    · split_ifs at hstep
      · exact .inl (Except.ok.inj hstep ▸ hstable.done (processReceipt_stable hstable rfl))
      · exact .inl (Except.ok.inj hstep ▸ hstable.done rfl)
      · exact .inl (processMoney_stable hstable rfl hstep)
    · rw [← Except.ok.inj hstep]
      split_ifs
      · have hnoted := stable_pending env f (s.pendingIpoMandates ++ [f])
        exact .inr (lateMandate_stable hnoted (hnoted.done rfl))
      · exact .inl (lateMandate_stable hstable (hstable.done rfl))
    · exact .inl (processMoney_stable hstable rfl hstep)
    · exact .inl (Except.ok.inj hstep ▸ hstable.done rfl)

end PandaPay.SmsV2
