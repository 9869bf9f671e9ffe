import PandaPay.SmsV2.Linker.Calls
import PandaPay.SmsV2.Linker.Stable

/-!
# The facts of a call

The indexes list facts that the call was given, and so does every candidate. With ids of their own,
the facts of a call are those the environment looks up by id.

## Main definitions

* `Run.Indexed K s`: all facts in the indexes of `s` meet `K`

## Main results

* `linkStep_indexed`, `start_indexed`: what meets `K` before the loop and in it
* `PairChoice.fact`, `noticeOf_fact`, `mandateCandidates_fact`: the facts of candidates
* `get?_facts`: the lookup of facts by id
-/

namespace PandaPay.SmsV2

/-! ### Lists of facts -/

/-- The facts listed under the keys of an index meet `K`. -/
def Lists {κ : Type} [DecidableEq κ] (K : Fact → Prop) (index : InsertionMap κ (List Fact)) : Prop :=
  ∀ k list, index.get? k = some list → ∀ g ∈ list, K g

namespace Lists

variable {κ : Type} [DecidableEq κ] {K : Fact → Prop} {index : InsertionMap κ (List Fact)}

theorem empty : Lists K (InsertionMap.empty : InsertionMap κ (List Fact)) :=
  fun _ _ h => by simp at h

theorem getD (h : Lists K index) {k : κ} {g : Fact} (hg : g ∈ (index.get? k).getD []) : K g := by
  cases hlist : index.get? k with
  | none =>
    rw [hlist] at hg
    simp at hg
  | some list =>
    rw [hlist, Option.getD_some] at hg
    exact h k list hlist g hg

theorem upsert (h : Lists K index) {add : List Fact → List Fact} {f : Fact} (hf : K f)
    (hadd : ∀ list, ∀ g ∈ add list, g = f ∨ g ∈ list) (k : κ) :
    Lists K (index.upsert k [] add) := by
  intro j list hlist g hg
  unfold InsertionMap.upsert at hlist
  rw [InsertionMap.get?_set] at hlist
  split_ifs at hlist
  · rw [← Option.some.inj hlist] at hg
    rcases hadd _ g hg with rfl | hg
    · exact hf
    · exact h.getD hg
  · exact h j list hlist g hg

end Lists

theorem mem_add {items : Timeline} {f g : Fact} (h : g ∈ items.add f) : g = f ∨ g ∈ items :=
  List.eq_or_mem_of_mem_insertIdx h

theorem mem_range {items : Timeline} {start stop : ℤ} {g : Fact} (h : g ∈ items.range start stop) :
    g ∈ items :=
  List.mem_of_mem_drop ((List.takeWhile_sublist _).subset h)

theorem Lists.rangeOf {κ : Type} [DecidableEq κ] {K : Fact → Prop} {index : InsertionMap κ Timeline}
    (h : Lists K index) {k : κ} {start stop : ℤ} {g : Fact} (hg : g ∈ rangeOf index k start stop) :
    K g :=
  h.getD (mem_range hg)

theorem mem_of_mem_byId {list : List Fact} {g : Fact} (h : g ∈ byId list) : g ∈ list := by
  have hfold : ∀ g ∈ (list.foldl (fun (m : InsertionMap JsString Fact) g => m.set g.factId g)
      .empty).values, g ∈ list := by
    refine List.foldlRecOn list _ (motive := fun m : InsertionMap JsString Fact =>
      ∀ g ∈ m.values, g ∈ list) (fun g hg => by simp [InsertionMap.values] at hg) ?_
    intro m hm f hf g hg
    rcases InsertionMap.mem_values_set hg with rfl | hg
    · exact hf
    · exact hm g hg
  exact hfold g h

/-! ### The indexes -/

/-- The facts in the indexes meet `K`. -/
structure Run.Indexed (K : Fact → Prop) (s : Run) : Prop where
  byAmount : Lists K s.byAmount
  byType : Lists K s.byType
  byInstrument : Lists K s.byInstrument
  byInstrumentParty : Lists K s.byInstrumentParty
  mandatesByKey : Lists K s.mandatesByKey
  pendingIpoMandates : ∀ m ∈ s.pendingIpoMandates, K m

section Indexed

variable {env : Env} {K : Fact → Prop} {s : Run} {f : Fact}

namespace Run.Indexed

theorem put (h : s.Indexed K) (e : Event) : (s.put e).Indexed K :=
  ⟨h.byAmount, h.byType, h.byInstrument, h.byInstrumentParty, h.mandatesByKey, h.pendingIpoMandates⟩

theorem refunded (h : s.Indexed K) (refunded : InsertionMap JsString ℤ) :
    { s with refunded := refunded }.Indexed K :=
  ⟨h.byAmount, h.byType, h.byInstrument, h.byInstrumentParty, h.mandatesByKey, h.pendingIpoMandates⟩

theorem reviews (h : s.Indexed K) (reviews : InsertionMap JsString ReviewItem) :
    { s with reviews := reviews }.Indexed K :=
  ⟨h.byAmount, h.byType, h.byInstrument, h.byInstrumentParty, h.mandatesByKey, h.pendingIpoMandates⟩

theorem ambiguousReceipts (h : s.Indexed K) (receipts : List JsString) :
    { s with ambiguousReceipts := receipts }.Indexed K :=
  ⟨h.byAmount, h.byType, h.byInstrument, h.byInstrumentParty, h.mandatesByKey, h.pendingIpoMandates⟩

theorem index (h : s.Indexed K) (hf : K f) : (s.index env f).Indexed K := by
  have hadd : ∀ list : Timeline, ∀ g ∈ list.add f, g = f ∨ g ∈ list := fun _ _ => mem_add
  refine ⟨?_, h.byType.upsert hf hadd _, ?_, ?_, ?_, h.pendingIpoMandates⟩
  · unfold Run.index
    dsimp only
    split
    · refine h.byAmount.upsert hf (fun list g hg => ?_) _
      exact (List.mem_append.mp hg).symm.imp_left List.mem_singleton.mp
    · exact h.byAmount
  · unfold Run.index
    dsimp only
    split
    · exact h.byInstrument.upsert hf hadd _
    · exact h.byInstrument
  · unfold Run.index
    dsimp only
    split
    · exact List.foldlRecOn _ _ (motive := Lists K) h.byInstrumentParty
        fun m hm k _ => hm.upsert hf hadd _
    · exact h.byInstrumentParty
  · unfold Run.index
    dsimp only
    split_ifs
    · exact List.foldlRecOn _ _ (motive := Lists K) h.mandatesByKey
        fun m hm k _ => hm.upsert hf hadd _
    · exact h.mandatesByKey

theorem processed (h : s.Indexed K) (processed : List JsString) :
    { s with processed := processed }.Indexed K :=
  ⟨h.byAmount, h.byType, h.byInstrument, h.byInstrumentParty, h.mandatesByKey, h.pendingIpoMandates⟩

theorem thisRun (h : s.Indexed K) (thisRun : List JsString) :
    { s with thisRun := thisRun }.Indexed K :=
  ⟨h.byAmount, h.byType, h.byInstrument, h.byInstrumentParty, h.mandatesByKey, h.pendingIpoMandates⟩

theorem done (h : s.Indexed K) (hf : K f) : (s.done env f).Indexed K := by
  unfold Run.done
  dsimp only
  split_ifs
  · exact h.thisRun _
  · exact ((h.processed _).index hf).thisRun _

end Run.Indexed

theorem start_indexed {recent : List Fact} (h : ∀ f ∈ recent, K f) : (start env recent).Indexed K := by
  unfold start
  refine List.foldlRecOn recent _ (motive := Run.Indexed K)
    ⟨.empty, .empty, .empty, .empty, .empty, fun m hm => ?_⟩ fun s hs f hf => (hs.processed _).index (h f hf)
  simp [startTable] at hm

/-! ### Candidates -/

theorem scan_fact {rule : LinkRule} {role : LegRole} {other : LinkLeg} {pool : List Fact} {c : Cand}
    (hpool : ∀ g ∈ pool, K g) (h : c ∈ scan env s rule role f other pool) : K c.fact := by
  have hall : ∀ c, c ∈ (pool.foldl (scanStep env s rule role f other) (.empty, [])).1.values ∨
      c ∈ (pool.foldl (scanStep env s rule role f other) (.empty, [])).2 → K c.fact := by
    refine List.foldlRecOn pool _
      (motive := fun acc : InsertionMap JsString Cand × List Cand =>
        ∀ c, c ∈ acc.1.values ∨ c ∈ acc.2 → K c.fact)
      (fun c hc => by simp [InsertionMap.values] at hc) fun acc hacc g hg => ?_
    have hset (id : JsString) (role : LegRole) : ∀ c, c ∈ (acc.1.set id ⟨some id, g, role⟩).values ∨
        c ∈ acc.2 → K c.fact := by
      rintro c (hc | hc)
      · rcases InsertionMap.mem_values_set hc with rfl | hc
        · exact hpool g hg
        · exact hacc c (.inl hc)
      · exact hacc c (.inr hc)
    have hloose (role : LegRole) : ∀ c, c ∈ acc.1.values ∨ c ∈ acc.2 ++ [⟨none, g, role⟩] →
        K c.fact := by
      rintro c (hc | hc)
      · exact hacc c (.inl hc)
      · rcases List.mem_append.mp hc with hc | hc
        · exact hacc c (.inr hc)
        · exact List.mem_singleton.mp hc ▸ hpool g hg
    unfold scanStep
    by_cases hp : passes env s rule role f other g = false
    · rwa [if_pos hp]
    rw [if_neg hp]
    by_cases hother : other.role = .original
    · rw [if_pos hother]
      exact hloose _
    rw [if_neg hother]
    cases s.eventOfFact.get? g.factId with
    | none =>
      dsimp only
      split_ifs
      · exact hloose _
      · exact hacc
    | some id =>
      dsimp only
      cases s.events.get? id with
      | none => exact hacc
      | some e =>
        dsimp only
        split_ifs
        · exact hacc
        · exact hset _ _
  unfold scan at h
  dsimp only at h
  split_ifs at h
  · exact hall c (.inr h)
  · exact hall c (.inl h)

theorem mem_poolOf (hamount : Lists K s.byAmount) (htype : Lists K s.byType) (hparty : Lists K s.byInstrumentParty)
    {rule : LinkRule} {other : LinkLeg} {pool : List Fact} (h : pool ∈ poolOf env s rule other f) :
    ∀ g ∈ pool, K g := by
  have byType {t : FactType} {start stop : ℤ} (hpool : pool ∈ [rangeOf s.byType t start stop]) :
      ∀ g ∈ pool, K g := by
    rw [List.mem_singleton.mp hpool]
    exact fun _ hg => htype.rangeOf hg
  have amount {a : ℤ} (hpool : pool ∈ [(s.byAmount.get? a).getD []]) : ∀ g ∈ pool, K g := by
    rw [List.mem_singleton.mp hpool]
    exact fun _ hg => hamount.getD hg
  have party {i : JsString} {start stop : ℤ} (hpool : pool ∈ (env.partyKeys f.party).map fun k =>
      rangeOf s.byInstrumentParty (i, k) start stop) : ∀ g ∈ pool, K g := by
    obtain ⟨k, -, rfl⟩ := List.mem_map.mp hpool
    exact fun _ hg => hparty.rangeOf hg
  unfold poolOf at h
  dsimp only at h
  split_ifs at h with hipo hexact hrefund hnone
  · rcases List.mem_append.mp h with h | h
    · split at h
      · exact party h
      · cases h
    · exact byType h
  all_goals split at h
  all_goals first
    | exact byType h
    | cases h
    | (split at h
       · exact amount h
       · cases h)
    | (rcases List.mem_append.mp h with h | h
       · split at h
         · exact party h
         · cases h
       · split at h
         · exact amount h
         · cases h)

theorem groupCandidate_fact {group : List Fact} {x : ℤ × JsString × Cand}
    (h : groupCandidate f group = some x) : x.2.2.fact ∈ group := by
  have hmem : ∀ g ∈ (group.insertionSort Fact.orderLe).filter fun g =>
      g.effectiveAt ≤ f.effectiveAt + day, g ∈ group := fun g hg =>
    (List.mem_insertionSort _).mp (List.mem_of_mem_filter hg)
  unfold groupCandidate at h
  dsimp only at h
  split at h
  · simp at h
  next last hlast =>
    have horiginal : ((((group.insertionSort Fact.orderLe).filter fun g =>
        g.effectiveAt ≤ f.effectiveAt + day).find? fun g =>
          g.mandatePhase = some .created).getD last) ∈ group := by
      cases hfind : ((group.insertionSort Fact.orderLe).filter fun g =>
          g.effectiveAt ≤ f.effectiveAt + day).find? fun g => g.mandatePhase = some .created with
      | none => exact hmem _ (List.mem_of_getLast? hlast)
      | some g => exact hmem _ (List.mem_of_find?_eq_some hfind)
    split_ifs at h
    split at h
    · split_ifs at h
      exact Option.some.inj h ▸ horiginal
    · exact Option.some.inj h ▸ horiginal

theorem mandateCandidates_fact (hs : s.Indexed K) {rule : LinkRule} {c : Cand}
    (h : c ∈ mandateCandidates env s rule f) : K c.fact := by
  obtain ⟨x, hx, rfl⟩ := List.mem_map.mp h
  rw [List.mem_insertionSort, List.mem_filterMap] at hx
  obtain ⟨group, hgroup, hx⟩ := hx
  have hgroups : Lists K ((((byId ((env.partyKeys f.party ++ f.mandateRef.toList.map
      PartyKey.reference).flatMap fun k => rangeOf s.mandatesByKey k (f.effectiveAt - (rule.join.window + slack))
        (f.effectiveAt + day))).insertionSort Fact.orderLe).filter (chargeable env s rule f)).foldl
      (fun (m : InsertionMap MandateGroup (List Fact)) g =>
        m.upsert (mandateGroup env g) [] fun l => l ++ [g]) .empty) := by
    refine List.foldlRecOn _ _ (motive := Lists K) .empty fun m hm g hg => ?_
    have hg := mem_of_mem_byId ((List.mem_insertionSort _).mp (List.mem_of_mem_filter hg))
    obtain ⟨k, -, hk⟩ := List.mem_flatMap.mp hg
    refine hm.upsert (hs.mandatesByKey.rangeOf hk) (fun list g' hg' => ?_) _
    exact (List.mem_append.mp hg').symm.imp_left List.mem_singleton.mp
  obtain ⟨k, hk⟩ := InsertionMap.mem_values_iff.mp hgroup
  exact hgroups k group hk _ (groupCandidate_fact hx)

theorem feeTransaction_fact (hs : s.Indexed K) {rule : LinkRule} {g : Fact}
    (h : feeTransaction env s rule f = some g) : K g := by
  unfold feeTransaction at h
  split_ifs at h
  split at h
  next originalLeg i _ _ =>
    dsimp only at h
    split_ifs at h
    split at h
    next g' hvalues =>
      obtain rfl := Option.some.inj h
      have hfold : ∀ g ∈ ((byId (((rangeOf s.byInstrument i
          (f.effectiveAt - (rule.join.window + slack)) (f.effectiveAt + slack)).filter fun g =>
            g.factId ∈ s.processed) ++ (none : Option Fact).toList)).foldl
          (feeStep env s rule originalLeg f ((f.amount .posted).bind Amount.original))
          .empty).values, K g := by
        refine List.foldlRecOn _ _ (motive := fun m : InsertionMap JsString Fact =>
          ∀ g ∈ m.values, K g) (fun g hg => by simp [InsertionMap.values] at hg) ?_
        intro m hm g hg g' hg'
        unfold feeStep at hg'
        dsimp only at hg'
        split_ifs at hg'
        · exact hm g' hg'
        · rcases InsertionMap.mem_values_set hg' with rfl | hg'
          · have hg := mem_of_mem_byId hg
            rw [Option.toList_none, List.append_nil] at hg
            exact hs.byInstrument.rangeOf (List.mem_of_mem_filter hg)
          · exact hm g' hg'
        · exact hm g' hg'
      exact hfold g' (hvalues ▸ List.mem_singleton_self g')
    next => simp at h
  next => simp at h

theorem candidates_fact (hs : s.Indexed K) {rule : LinkRule} {leg : LinkLeg} {cands : List Cand}
    {c : Cand} (h : candidates env s rule leg f = .ok cands) (hc : c ∈ cands) : K c.fact := by
  unfold candidates at h
  split at h
  · rw [failIf_bind_eq_ok] at h
    rw [← Except.ok.inj h.2] at hc
    exact mandateCandidates_fact hs hc
  · rw [← Except.ok.inj h, Option.mem_toList, Option.map_eq_some_iff] at hc
    obtain ⟨g, hg, rfl⟩ := hc
    exact feeTransaction_fact hs hg
  · rw [← Except.ok.inj h] at hc
    cases hfind : (stages env s rule leg f).find? fun found => found ≠ [] with
    | none =>
      rw [hfind] at hc
      simp at hc
    | some stage =>
      rw [hfind, Option.getD_some] at hc
      obtain ⟨other, -, hother⟩ := List.mem_flatMap.mp (List.mem_of_find?_eq_some hfind)
      obtain ⟨pool, hpool, rfl⟩ := List.mem_map.mp hother
      exact scan_fact (mem_poolOf hs.byAmount hs.byType hs.byInstrumentParty hpool) hc

theorem firstPair_fact (hs : s.Indexed K) {legs : List (LinkRule × LinkLeg)} {rule : LinkRule}
    {leg : LinkLeg} {list : List Cand} (h : firstPair env s f legs = .ok (some (rule, leg, list))) :
    ∀ c ∈ list, K c.fact := by
  induction legs with
  | nil => simp [firstPair] at h
  | cons head legs ih =>
    unfold firstPair at h
    obtain ⟨cands, hcands, h⟩ := bind_eq_ok.mp h
    split_ifs at h with hnil
    · exact ih h
    · obtain ⟨-, -, rfl⟩ : head.1 = rule ∧ head.2 = leg ∧ narrow env s head.1 f cands = list := by
        simpa using h
      exact fun c hc => candidates_fact hs hcands (mem_of_mem_narrow hc)

theorem noticeOf_fact (hs : s.Indexed K) {eventId : JsString} {rule : LinkRule} {e : Event} {r : Fact}
    (h : noticeOf env s f eventId = some (rule, e, r)) : K r := by
  unfold noticeOf at h
  split_ifs at h
  split at h
  next rule' a e' _ _ _ =>
    dsimp only at h
    split_ifs at h
    obtain ⟨c, hc, heq⟩ := Option.map_eq_some_iff.mp h
    obtain ⟨-, -, rfl⟩ : rule' = rule ∧ e' = e ∧ c.fact = r := by simpa using heq
    have hmem := mem_of_mem_narrow ((List.mem_insertionSort _).mp (List.mem_of_mem_head? hc))
    obtain ⟨g, hg, rfl⟩ := List.mem_map.mp hmem
    exact hs.byAmount.getD (List.mem_of_mem_filter hg)
  next => simp at h

/-! ### Steps -/

/-- A state stays indexed: a fact that is listed is known. -/
theorem stable_indexed (hf : K f) : Stable env f (Run.Indexed K) where
  put h e := h.put e
  refunded h refunded := h.refunded refunded
  reviews h reviews := h.reviews reviews
  ambiguousReceipts h receipts := h.ambiguousReceipts receipts
  done h := h.done hf

/-- The fact of a candidate that a pair rule has is one of the indexes. -/
theorem PairChoice.fact (hf : K f) (hs : s.Indexed K) {rule : LinkRule} {leg : LinkLeg}
    {list : List Cand} (h : PairChoice env s f (some (rule, leg, list))) : ∀ c ∈ list, K c.fact :=
  firstPair_fact (takeLate_stable (stable_indexed hf) hs) h.choice

/-- A step of `link` lists the fact it processes. -/
theorem linkStep_indexed (h : s.Indexed K) (hf : K f) {s' : Run}
    (hstep : linkStep env s f = .ok s') : s'.Indexed K := by
  refine linkStep_stable (stable_indexed hf) (fun {s} h => ?_) h hstep
  exact ⟨h.byAmount, h.byType, h.byInstrument, h.byInstrumentParty, h.mandatesByKey,
    List.forall_mem_append.mpr ⟨h.pendingIpoMandates, List.forall_mem_singleton.mpr hf⟩⟩

end Indexed

/-! ### Facts by id -/

theorem get?_setFacts_eq_some {list : List Fact} {m : InsertionMap JsString Fact} {id : JsString}
    {f : Fact} (hid : ∀ f ∈ list, ∀ g ∈ list, f.factId = g.factId → f = g) :
    (setFacts m list).get? id = some f ↔
      (f ∈ list ∧ f.factId = id) ∨ (m.get? id = some f ∧ ∀ g ∈ list, g.factId ≠ id) := by
  unfold setFacts
  induction list generalizing m with
  | nil => simp
  | cons g list ih =>
    have hrest : ∀ f ∈ list, ∀ g ∈ list, f.factId = g.factId → f = g := fun f hf g hg =>
      hid f (List.mem_cons_of_mem _ hf) g (List.mem_cons_of_mem _ hg)
    rw [List.foldl_cons, ih hrest, InsertionMap.get?_set, List.forall_mem_cons]
    by_cases hg : id = g.factId
    · subst hg
      rw [if_pos rfl, Option.some.injEq]
      constructor
      · rintro (⟨hf, hsame⟩ | ⟨rfl, -⟩)
        · exact .inl ⟨List.mem_cons_of_mem _ hf, hsame⟩
        · exact .inl ⟨List.mem_cons_self, rfl⟩
      · rintro (⟨hf, hsame⟩ | ⟨-, hno, -⟩)
        · obtain rfl := hid f hf g List.mem_cons_self hsame
          by_cases hmem : ∃ g ∈ list, g.factId = f.factId
          · obtain ⟨g, hg, hsame⟩ := hmem
            exact .inl ⟨hid g (List.mem_cons_of_mem _ hg) f List.mem_cons_self hsame ▸ hg, rfl⟩
          · exact .inr ⟨rfl, fun g hg hsame => hmem ⟨g, hg, hsame⟩⟩
        · exact absurd rfl hno
    · rw [if_neg hg, List.mem_cons]
      constructor
      · rintro (⟨hf, hsame⟩ | ⟨hf, hno⟩)
        · exact .inl ⟨.inr hf, hsame⟩
        · exact .inr ⟨hf, fun hsame => hg hsame.symm, hno⟩
      · rintro (⟨rfl | hf, hsame⟩ | ⟨hf, -, hno⟩)
        · exact absurd hsame.symm hg
        · exact .inl ⟨hf, hsame⟩
        · exact .inr ⟨hf, hno⟩

theorem eq_of_nodup {list : List Fact} (h : (list.map Fact.factId).Nodup) :
    ∀ f ∈ list, ∀ g ∈ list, f.factId = g.factId → f = g :=
  fun _ hf _ hg hsame => List.inj_on_of_nodup_map h hf hg hsame

section Facts

variable {store : Store} {linker : Linker} {context : LinkContext} {rules : List LinkRule} {now : ℤ}
  {incoming : List Fact}

theorem mem_recentOf {f : Fact} : f ∈ recentOf context incoming ↔
    f ∈ context.recentFacts ∧ f.factId ∉ incoming.map Fact.factId := by
  unfold recentOf
  rw [List.mem_insertionSort, List.mem_filter, decide_eq_true_eq]

/-- With ids of their own, the facts of a call are those that the environment looks up. -/
theorem get?_facts (hholds : context.Holds store) (hstored : (store.facts.map Fact.factId).Nodup)
    (hnew : NewFacts store linker context rules now incoming) {id : JsString} {f : Fact} :
    (linker.env context rules now incoming).facts.get? id = some f ↔
      f ∈ store.facts ++ incoming ∧ f.factId = id := by
  have harrivals : ∀ f, f ∈ arrivals incoming ↔ f ∈ incoming :=
    fun f => ⟨mem_of_mem_arrivals, mem_arrivals hnew.1⟩
  have hrecent : ∀ f, f ∈ recentOf context incoming ↔ f ∈ store.facts := fun f => by
    rw [mem_recentOf, hholds.facts]
    refine ⟨And.left, fun hf => ⟨hf, fun hin => ?_⟩⟩
    obtain ⟨g, hg, hsame⟩ := List.mem_map.mp hin
    exact hnew.2 g hg (hsame ▸ List.mem_map_of_mem hf)
  have hsame := eq_of_nodup hstored
  have hsame' := eq_of_nodup hnew.1
  unfold Linker.env
  rw [get?_setFacts_eq_some (by simpa only [harrivals] using hsame'),
    get?_setFacts_eq_some (by simpa only [hrecent] using hsame)]
  simp only [harrivals, hrecent, InsertionMap.get?_empty, List.mem_append]
  constructor
  · rintro (⟨hf, hid⟩ | ⟨⟨hf, hid⟩ | ⟨hno, -⟩, -⟩)
    · exact ⟨.inr hf, hid⟩
    · exact ⟨.inl hf, hid⟩
    · simp at hno
  · rintro ⟨hf | hf, hid⟩
    · refine .inr ⟨.inl ⟨hf, hid⟩, fun g hg hsame => ?_⟩
      exact hnew.2 g hg (hsame.trans hid.symm ▸ List.mem_map_of_mem hf)
    · exact .inl ⟨hf, hid⟩

/-- The facts of a call: those that it looks up by their ids. -/
def Env.Has (env : Env) (f : Fact) : Prop := env.facts.get? f.factId = some f

theorem start_has (hholds : context.Holds store) (hstored : (store.facts.map Fact.factId).Nodup)
    (hnew : NewFacts store linker context rules now incoming) :
    (start (linker.env context rules now incoming) (recentOf context incoming)).Indexed
      (linker.env context rules now incoming).Has := by
  refine start_indexed fun f hf => (get?_facts hholds hstored hnew).mpr ⟨?_, rfl⟩
  exact List.mem_append_left _ ((hholds.facts f).mp (mem_recentOf.mp hf).1)

theorem has_of_mem_arrivals (hholds : context.Holds store)
    (hstored : (store.facts.map Fact.factId).Nodup)
    (hnew : NewFacts store linker context rules now incoming) {f : Fact}
    (hf : f ∈ arrivals incoming) : (linker.env context rules now incoming).Has f :=
  (get?_facts hholds hstored hnew).mpr ⟨List.mem_append_right _ (mem_of_mem_arrivals hf), rfl⟩

/-- At every step of a call the indexes list facts of the call. -/
theorem passes_has (hholds : context.Holds store) (hstored : (store.facts.map Fact.factId).Nodup)
    (hnew : NewFacts store linker context rules now incoming) {P : Run → Fact → Prop}
    (h : Passes P (linkStep (linker.env context rules now incoming))
      (start (linker.env context rules now incoming) (recentOf context incoming))
      (arrivals incoming)) :
    Passes (fun s f => s.Indexed (linker.env context rules now incoming).Has ∧ P s f)
      (linkStep (linker.env context rules now incoming))
      (start (linker.env context rules now incoming) (recentOf context incoming))
      (arrivals incoming) :=
  h.and_invariant (fun _ _ _ hf hs hstep =>
    linkStep_indexed hs (has_of_mem_arrivals hholds hstored hnew hf) hstep)
    (start_has hholds hstored hnew)

/-- When the loop of a call ends the indexes list facts of the call. -/
theorem linkSteps_has (hholds : context.Holds store) (hstored : (store.facts.map Fact.factId).Nodup)
    (hnew : NewFacts store linker context rules now incoming) {s : Run}
    (h : (arrivals incoming).foldlM (linkStep (linker.env context rules now incoming))
      (start (linker.env context rules now incoming) (recentOf context incoming)) = .ok s) :
    s.Indexed (linker.env context rules now incoming).Has :=
  foldlM_induction (fun _ _ _ hf hs hstep =>
    linkStep_indexed hs (has_of_mem_arrivals hholds hstored hnew hf) hstep)
    (start_has hholds hstored hnew) h

end Facts

end PandaPay.SmsV2
