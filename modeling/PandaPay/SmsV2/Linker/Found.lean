import PandaPay.SmsV2.Linker.Link

/-!
# What the searches find

A search that offers an event as a candidate has seen it: the event is known, the user has not settled
it and the candidate's fact is a leg of it. A loose candidate that is not an `original` is a leg of no
event.

## Main definitions

* `Cand.Fits`: what is known of a candidate

## Main results

* `candidates_fits`, `duplicateCandidates_fits`, `receiptCandidates_fits`: the searches for candidates
* `noticeOf_eq_some`, `holdBase_eq_some`, `refundOf_eq_true`, `feeOf_eq_true`, `ipoTarget_eq_some`:
  the searches for events
-/

namespace PandaPay.SmsV2

/-! ### Candidates -/

/-- The event `e` is known, may change, and has the fact of the candidate `c` as a leg. -/
structure Cand.Of (t : Table) (c : Cand) (e : Event) : Prop where
  mapped : t.eventOfFact.get? c.fact.factId = c.eventId
  known : c.eventId.bind t.events.get? = some e
  open_ : isLocked e = false

/-- What a search knows of a candidate. -/
def Cand.Fits (t : Table) (c : Cand) : Prop :=
  (∀ eventId, c.eventId = some eventId → c.role ≠ .original ∧ ∃ e, c.Of t e) ∧
    (c.eventId = none → c.role ≠ .original → t.eventOfFact.get? c.fact.factId = none)

theorem not_isLocked_of_joinable {rule : LinkRule} {e : Event} {role : LegRole}
    (h : joinable rule e role = true) : isLocked e = false := by
  simp only [joinable, Bool.and_eq_true, Bool.not_eq_true'] at h
  exact h.1.1

section Search

variable {env : Env} {s : Run}

/-- The candidates a search has collected fit. -/
def AllFit (t : Table) (acc : InsertionMap JsString Cand × List Cand) : Prop :=
  ∀ c, c ∈ acc.1.values ∨ c ∈ acc.2 → c.Fits t

theorem AllFit.set {t : Table} {acc : InsertionMap JsString Cand × List Cand} (h : AllFit t acc)
    {c : Cand} (hc : c.Fits t) (k : JsString) : AllFit t (acc.1.set k c, acc.2) := by
  rintro c' (hc' | hc')
  · rcases InsertionMap.mem_values_set hc' with rfl | hc'
    · exact hc
    · exact h c' (.inl hc')
  · exact h c' (.inr hc')

theorem AllFit.append {t : Table} {acc : InsertionMap JsString Cand × List Cand} (h : AllFit t acc)
    {c : Cand} (hc : c.Fits t) : AllFit t (acc.1, acc.2 ++ [c]) := by
  rintro c' (hc' | hc')
  · exact h c' (.inl hc')
  · rcases List.mem_append.mp hc' with hc' | hc'
    · exact h c' (.inr hc')
    · exact List.mem_singleton.mp hc' ▸ hc

theorem scanStep_fits {rule : LinkRule} {role : LegRole} {f : Fact} {other : LinkLeg}
    {acc : InsertionMap JsString Cand × List Cand} {g : Fact} (h : AllFit s.toTable acc) :
    AllFit s.toTable (scanStep env s rule role f other acc g) := by
  unfold scanStep
  by_cases hp : passes env s rule role f other g = false
  · rwa [if_pos hp]
  rw [if_neg hp]
  by_cases hother : other.role = .original
  · rw [if_pos hother]
    exact h.append ⟨fun _ he => by simp at he, fun _ hr => absurd hother hr⟩
  rw [if_neg hother]
  cases hmapped : s.eventOfFact.get? g.factId with
  | none =>
    dsimp only
    split_ifs
    · exact h.append ⟨fun _ he => by simp at he, fun _ _ => hmapped⟩
    · exact h
  | some eventId =>
    dsimp only
    cases he : s.events.get? eventId with
    | none => exact h
    | some e =>
      dsimp only
      split_ifs with hskip
      · exact h
      · have hjoin : joinable rule e role = true := by
          simp only [not_or] at hskip
          simpa using hskip.2
        refine h.set ⟨fun id hid => ⟨hother, e, ?_⟩, fun hnone => by simp at hnone⟩ eventId
        exact ⟨hmapped, he, not_isLocked_of_joinable hjoin⟩

theorem scan_fits {rule : LinkRule} {role : LegRole} {f : Fact} {other : LinkLeg} {pool : List Fact}
    {c : Cand} (h : c ∈ scan env s rule role f other pool) : c.Fits s.toTable := by
  have hall : AllFit s.toTable (pool.foldl (scanStep env s rule role f other) (.empty, [])) :=
    List.foldlRecOn pool _ (fun _ hc => by simp [InsertionMap.values] at hc)
      fun _ hacc _ _ => scanStep_fits hacc
  unfold scan at h
  dsimp only at h
  split_ifs at h
  · exact hall c (.inr h)
  · exact hall c (.inl h)

/-- Mandates and transactions of fees are found as an `original`. -/
theorem fits_original {t : Table} {g : Fact} : Cand.Fits t ⟨none, g, .original⟩ :=
  ⟨fun _ he => by simp at he, fun _ hr => absurd rfl hr⟩

theorem groupCandidate_eq {f : Fact} {group : List Fact} {x : ℤ × JsString × Cand}
    (h : groupCandidate f group = some x) : ∃ g, x.2.2 = ⟨none, g, .original⟩ := by
  unfold groupCandidate at h
  dsimp only at h
  split at h
  · simp at h
  · split_ifs at h
    split at h
    · split_ifs at h
      exact ⟨_, by rw [← Option.some.inj h]⟩
    · exact ⟨_, by rw [← Option.some.inj h]⟩

theorem mandateCandidates_eq {rule : LinkRule} {f : Fact} {c : Cand}
    (h : c ∈ mandateCandidates env s rule f) : ∃ g, c = ⟨none, g, .original⟩ := by
  obtain ⟨x, hx, rfl⟩ := List.mem_map.mp h
  rw [List.mem_insertionSort, List.mem_filterMap] at hx
  obtain ⟨group, -, hgroup⟩ := hx
  exact groupCandidate_eq hgroup

theorem candidates_fits {rule : LinkRule} {leg : LinkLeg} {f : Fact} {cands : List Cand} {c : Cand}
    (h : candidates env s rule leg f = .ok cands) (hc : c ∈ cands) : c.Fits s.toTable := by
  unfold candidates at h
  split at h
  · rw [failIf_bind_eq_ok] at h
    rw [← Except.ok.inj h.2] at hc
    obtain ⟨g, rfl⟩ := mandateCandidates_eq hc
    exact fits_original
  · rw [← Except.ok.inj h, Option.mem_toList, Option.map_eq_some_iff] at hc
    obtain ⟨g, -, rfl⟩ := hc
    exact fits_original
  · rw [← Except.ok.inj h] at hc
    cases hfind : (stages env s rule leg f).find? fun found => found ≠ [] with
    | none =>
      rw [hfind] at hc
      simp at hc
    | some stage =>
      rw [hfind, Option.getD_some] at hc
      obtain ⟨other, -, hother⟩ := List.mem_flatMap.mp (List.mem_of_find?_eq_some hfind)
      obtain ⟨pool, -, rfl⟩ := List.mem_map.mp hother
      exact scan_fits hc

theorem mem_of_mem_narrowStep {keep : Cand → Bool} {list : List Cand} {c : Cand}
    (h : c ∈ narrowStep keep list) : c ∈ list := by
  unfold narrowStep at h
  split_ifs at h
  · exact h
  · exact List.mem_of_mem_filter h

theorem mem_of_mem_narrow {rule : LinkRule} {f : Fact} {cands : List Cand} {c : Cand}
    (h : c ∈ narrow env s rule f cands) : c ∈ cands := by
  have skip {p : Prop} [Decidable p] {keep : Cand → Bool} {list : List Cand}
      (h : c ∈ if p then list else narrowStep keep list) : c ∈ list := by
    split_ifs at h
    · exact h
    · exact mem_of_mem_narrowStep h
  exact skip (skip (skip (skip h)))

theorem narrowStep_ne_nil {keep : Cand → Bool} {list : List Cand} (h : list ≠ []) :
    narrowStep keep list ≠ [] := by
  unfold narrowStep
  split_ifs with hskip
  · exact h
  · exact fun hnil => hskip (.inr hnil)

/-- Narrowing keeps at least one candidate. -/
theorem narrow_ne_nil {rule : LinkRule} {f : Fact} {cands : List Cand} (h : cands ≠ []) :
    narrow env s rule f cands ≠ [] := by
  have skip {p : Prop} [Decidable p] {keep : Cand → Bool} {list : List Cand} (h : list ≠ []) :
      (if p then list else narrowStep keep list) ≠ [] := by
    split_ifs
    · exact h
    · exact narrowStep_ne_nil h
  exact skip (skip (skip (skip h)))

/-! ### Events -/

/-- A pass of a search for events only adds candidates of open events. -/
def AllOpen (t : Table) (byEvent : InsertionMap JsString Cand) : Prop :=
  ∀ c ∈ byEvent.values, ∃ e l, c.Of t e ∧ l ∈ e.legs ∧ l.factId = c.fact.factId ∧ l.role = c.role ∧
    c.role ∈ [.debitLeg, .charge, .creditLeg]

theorem AllOpen.set {t : Table} {byEvent : InsertionMap JsString Cand} (h : AllOpen t byEvent)
    {eventId : JsString} {g : Fact} {e : Event} {l : EventLeg}
    (hmapped : t.eventOfFact.get? g.factId = some eventId) (he : t.events.get? eventId = some e)
    (hopen : isLocked e = false) (hl : e.legs.find? (fun l => l.factId = g.factId) = some l)
    (hrole : l.role ∈ [.debitLeg, .charge, .creditLeg]) :
    AllOpen t (byEvent.set eventId ⟨some eventId, g, l.role⟩) := by
  intro c hc
  rcases InsertionMap.mem_values_set hc with rfl | hc
  · have hid : l.factId = g.factId := by simpa using List.find?_some hl
    exact ⟨e, l, ⟨hmapped, he, hopen⟩, List.mem_of_find?_eq_some hl, hid, rfl, hrole⟩
  · exact h c hc

theorem duplicateStep_open {rule : LinkRule} {moneyLeg : LinkLeg} {f g : Fact}
    {byEvent : InsertionMap JsString Cand} (h : AllOpen s.toTable byEvent) :
    AllOpen s.toTable (duplicateStep env s rule moneyLeg f byEvent g) := by
  unfold duplicateStep
  split_ifs
  · exact h
  · split
    · exact h
    next eventId hmapped =>
      split
      · exact h
      next e he =>
        split_ifs with hskip
        · exact h
        · split
          · exact h
          next l hl =>
            dsimp only
            split_ifs with hno
            · exact h
            · simp only [not_or, not_not, Bool.not_eq_true] at hskip hno
              exact h.set hmapped he hskip.2 hl hno.1

theorem receiptStep_open {rule : LinkRule} {f g : Fact} {byEvent : InsertionMap JsString Cand}
    (h : AllOpen s.toTable byEvent) : AllOpen s.toTable (receiptStep s rule f byEvent g) := by
  unfold receiptStep
  split_ifs
  · exact h
  · split
    · exact h
    next eventId hmapped =>
      split
      · exact h
      next e he =>
        split_ifs with hskip
        · exact h
        · split
          · exact h
          next l hl =>
            split_ifs with hno
            · exact h
            · simp only [not_or, Bool.not_eq_true] at hskip
              have hrole : l.role = .debitLeg ∨ l.role = .charge := by
                by_contra hcon
                exact hno (not_or.mp hcon)
              exact h.set hmapped he hskip.2 hl (by rcases hrole with hr | hr <;> simp [hr])

theorem foldl_open {t : Table} {body : InsertionMap JsString Cand → Fact → InsertionMap JsString Cand}
    (h : ∀ byEvent g, AllOpen t byEvent → AllOpen t (body byEvent g)) (list : List Fact) :
    AllOpen t (list.foldl body .empty) :=
  List.foldlRecOn list body (fun _ hc => by simp [InsertionMap.values] at hc)
    fun byEvent hacc g _ => h byEvent g hacc

/-- A notice repeats the money leg of an open event. -/
theorem duplicateCandidates_open {rule : LinkRule} {f : Fact} {c : Cand}
    (h : c ∈ duplicateCandidates env s rule f) :
    ∃ e l, c.Of s.toTable e ∧ l ∈ e.legs ∧ l.factId = c.fact.factId ∧ l.role = c.role ∧
      c.role ∈ [.debitLeg, .charge, .creditLeg] := by
  unfold duplicateCandidates at h
  split at h
  · split_ifs at h
    · exact foldl_open (fun _ _ hacc => duplicateStep_open hacc) _ c h
    · simp at h
  · simp at h

/-- A receipt joins an open event. -/
theorem receiptCandidates_open {rule : LinkRule} {f : Fact} {a : ℤ} {c : Cand}
    (h : c ∈ receiptCandidates env s rule f a) :
    ∃ e l, c.Of s.toTable e ∧ l ∈ e.legs ∧ l.factId = c.fact.factId ∧ l.role = c.role ∧
      c.role ∈ [.debitLeg, .charge, .creditLeg] := by
  exact foldl_open (fun _ _ hacc => receiptStep_open hacc) _ c (mem_of_mem_narrow h)

/-- The receipt that joins the event of a debit is a leg of no event yet. -/
theorem noticeOf_eq_some {f r : Fact} {eventId : JsString} {rule : LinkRule} {e : Event}
    (h : noticeOf env s f eventId = some (rule, e, r)) :
    s.events.get? eventId = some e ∧ isLocked e = false ∧ r.evidenceOnly ∧ e.legs ≠ [] ∧
      s.eventOfFact.get? r.factId = none := by
  unfold noticeOf at h
  split_ifs at h
  split at h
  next rule' a e' _ _ he' =>
    dsimp only at h
    split_ifs at h with hskip
    obtain ⟨c, hc, heq⟩ := Option.map_eq_some_iff.mp h
    obtain ⟨rfl, rfl, rfl⟩ : rule' = rule ∧ e' = e ∧ c.fact = r := by simpa using heq
    simp only [not_or, Bool.not_eq_true] at hskip
    have hmem := mem_of_mem_narrow ((List.mem_insertionSort _).mp (List.mem_of_mem_head? hc))
    obtain ⟨g, hg, rfl⟩ := List.mem_map.mp hmem
    have hfor : receiptFor env s rule' f g = true := (List.mem_filter.mp hg).2
    simp only [receiptFor, Bool.and_eq_true, Bool.not_eq_true', Bool.or_eq_false_iff] at hfor
    refine ⟨he', hskip.1, hfor.1.1.1.1.2, fun hnil => ?_, by simpa using hfor.1.1.2.1⟩
    simp [hnil] at hskip
  next => simp at h

theorem eventOf_eq_some {t : Table} {g : Fact} {e : Event} (h : t.eventOf g = some e) :
    ∃ eventId, t.eventOfFact.get? g.factId = some eventId ∧ t.events.get? eventId = some e :=
  Option.bind_eq_some_iff.mp h

theorem not_isLocked_of_standsWithoutHold {e : Event} (h : standsWithoutHold env e = true) :
    isLocked e = false := by
  simp only [standsWithoutHold, Bool.and_eq_true, Bool.not_eq_true'] at h
  exact h.1.1.1

theorem dependentRole_isSome {rule : LinkRule} {f g : Fact} {role : LegRole}
    (h : dependentRole env s rule f g = some role) :
    ∃ e, s.eventOf g = some e ∧ standsWithoutHold env e := by
  unfold dependentRole at h
  split_ifs at h
  split at h
  · simp at h
  next e he =>
    obtain ⟨leg, hleg, -⟩ := Option.map_eq_some_iff.mp h
    have hfound := List.find?_some hleg
    simp only [Bool.and_eq_true] at hfound
    exact ⟨e, he, hfound.2⟩

/-- A late hold joins the event of a dependent that stands without a hold. -/
theorem holdBase_eq_some {rule : LinkRule} {f : Fact} {e : Event}
    (h : holdBase env s rule f = some e) :
    isLocked e = false ∧ ∃ eventId, s.events.get? eventId = some e := by
  unfold holdBase at h
  split at h
  · simp at h
  next first rest hdep =>
    split_ifs at h
    have hmem : ((first :: rest).find? fun c => c.2 = .debitLeg).getD first ∈ dependents env s rule f := by
      rw [hdep]
      cases hfind : (first :: rest).find? fun c => c.2 = .debitLeg with
      | none => exact List.mem_cons_self
      | some c => exact List.mem_of_find?_eq_some hfind
    have hfound := (List.mem_insertionSort _).mp (List.mem_of_mem_filter hmem)
    obtain ⟨g, -, hg⟩ := List.mem_filterMap.mp hfound
    obtain ⟨role, hrole, heq⟩ := Option.map_eq_some_iff.mp hg
    obtain ⟨e', he', hstands⟩ := dependentRole_isSome hrole
    rw [← heq, he'] at h
    obtain rfl := Option.some.inj h
    exact ⟨not_isLocked_of_standsWithoutHold hstands, (eventOf_eq_some he').imp fun _ he => he.2⟩

/-- A refund or a fee that stands alone is a leg of an open event. -/
theorem eventOf_of_mem_lateRefunds {rule : LinkRule} {f g : Fact}
    (h : g ∈ lateRefunds env s rule f) : ∃ e, s.eventOf g = some e ∧ isLocked e = false := by
  unfold lateRefunds at h
  split_ifs at h
  · simp at h
  · split at h
    · split_ifs at h
      · simp at h
      · have hfits := (List.mem_filter.mp ((List.mem_insertionSort _).mp h)).2
        simp only [refundOf, Bool.and_eq_true] at hfits
        have he := hfits.2
        split at he
        next e heq => exact ⟨e, heq, not_isLocked_of_joinable he⟩
        next => simp at he
    · simp at h

theorem eventOf_of_mem_lateFees {rule : LinkRule} {p g : Fact} (h : g ∈ lateFees env s rule p) :
    ∃ e, s.eventOf g = some e ∧ isLocked e = false := by
  unfold lateFees at h
  split_ifs at h
  · simp at h
  · split at h
    · split_ifs at h
      · simp at h
      · have hfits := (List.mem_filter.mp ((List.mem_insertionSort _).mp h)).2
        simp only [feeOf, Bool.and_eq_true] at hfits
        have he := hfits.1.2
        split at he
        next e heq =>
          simp only [Bool.and_eq_true] at he
          exact ⟨e, heq, not_isLocked_of_joinable he.2⟩
        next => simp at he
    · simp at h

theorem mem_ipoTarget {m : Fact} {es : List Event} {target : Option Event} {e : Event}
    (h : ipoTarget env m es target = some e) :
    target = some e ∨ (e ∈ es ∧ (openHold env e).isSome) := by
  induction es generalizing target with
  | nil => exact .inl h
  | cons e' es ih =>
    unfold ipoTarget at h
    cases hopen : openHold env e' with
    | none =>
      rw [hopen] at h
      exact (ih h).imp_right fun he => ⟨List.mem_cons_of_mem _ he.1, he.2⟩
    | some placed =>
      rw [hopen] at h
      have here : e' ∈ e' :: es ∧ (openHold env e').isSome := ⟨List.mem_cons_self, by simp [hopen]⟩
      dsimp only at h
      split_ifs at h
      · obtain rfl := Option.some.inj h
        exact .inr here
      · rcases ih h with heq | he
        · obtain rfl := Option.some.inj heq
          exact .inr here
        · exact .inr ⟨List.mem_cons_of_mem _ he.1, he.2⟩
      · exact (ih h).imp_right fun he => ⟨List.mem_cons_of_mem _ he.1, he.2⟩

end Search

end PandaPay.SmsV2
