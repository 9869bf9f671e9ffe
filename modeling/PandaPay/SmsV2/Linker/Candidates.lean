import PandaPay.SmsV2.Linker.Indexed
import PandaPay.SmsV2.Linker.Ties
import PandaPay.SmsV2.Linker.Timelines

/-!
# The indexes lose no candidate

The linker looks for the other leg of a fact in parts of its indexes: under an amount, under names and references, or
in a range of time. The window of a rule takes the smaller of two distances in time, and the range has the printed
times with some slack. As facts are linked in the order of their receipt and no printed time is a day off, the range
has all that the window lets through.

The other leg of an IPO rule is looked for among the holds only.

## Main definitions

* `Run.IsIndexOf`: the indexes of a call have exactly some facts
* `mandatesAmong`: the candidates that mandates make

## Main results

* `linkSteps_isIndexOf`: before each step of a call the indexes have the facts that were processed
* `exists_partyKey`: names of one party share a key
* `exists_mem_poolOf`: a fact that passes is in a pool
* `indexes_lose_no_candidate`: the searches find what a scan of all facts finds
-/

namespace PandaPay.SmsV2

/-! ### What the indexes have -/

/-- The keys that a mandate is filed under. -/
def mandateKeys (env : Env) (g : Fact) : List PartyKey :=
  env.partyKeys g.party ++ g.references.map fun r => .reference r.2

/-- The indexes of a call have exactly some facts. -/
structure Run.IsIndexOf (env : Env) (facts : List Fact) (s : Run) : Prop where
  processed : ∀ id, id ∈ s.processed ↔ id ∈ facts.map Fact.factId
  byAmount : ∀ a, (s.byAmount.get? a).getD [] = facts.filter fun g => g.principal = some a
  byType : Files (fun g t => g.factType = t) facts s.byType
  byInstrumentParty : Files (fun g k => env.instId g = some k.1 && k.2 ∈ env.partyKeys g.party) facts
    s.byInstrumentParty
  mandatesByKey : Files (fun g k => g.factType = .mandate && k ∈ mandateKeys env g) facts s.mandatesByKey

section Index

variable {env : Env} {facts : List Fact} {s : Run} {f : Fact}

theorem nodup_partyKeys (name : Option JsString) : (env.partyKeys name).Nodup := by
  unfold Env.partyKeys
  split <;> simp

namespace Run.IsIndexOf

/-- A fact is listed. -/
theorem index (h : s.IsIndexOf env facts) (f : Fact) {processed : List JsString}
    (hprocessed : ∀ id, id ∈ processed ↔ id ∈ (facts ++ [f]).map Fact.factId) :
    (Run.index env { s with processed := processed } f).IsIndexOf env (facts ++ [f]) where
  processed := hprocessed
  byAmount a := by
    unfold Run.index
    dsimp only
    cases ha : f.principal with
    | none => simp [List.filter_append, ha, h.byAmount a]
    | some b =>
      dsimp only
      rw [get?_upsert]
      by_cases hab : a = b
      · simp [List.filter_append, ha, h.byAmount, hab]
      · simp [List.filter_append, ha, h.byAmount, hab, Ne.symm hab]
  byType := h.byType.addAll (List.nodup_singleton f.factType) fun t => by simp [eq_comm]
  byInstrumentParty := by
    unfold Run.index
    dsimp only
    cases hi : env.instId f with
    | none => exact h.byInstrumentParty.addAll List.nodup_nil fun k => by simp [hi]
    | some i =>
      dsimp only
      have hfold : (env.partyKeys f.party).foldl (fun m k => m.upsert (i, k) [] fun t => Timeline.add t f)
          s.byInstrumentParty = ((env.partyKeys f.party).map (Prod.mk i)).foldl
            (fun m k => m.upsert k [] fun t => Timeline.add t f) s.byInstrumentParty := by
        rw [List.foldl_map]
      rw [hfold]
      refine h.byInstrumentParty.addAll ((nodup_partyKeys _).map (Prod.mk_right_injective i)) fun k => ?_
      rw [List.mem_map, Bool.and_eq_true, decide_eq_true_eq, decide_eq_true_eq, hi, Option.some.injEq]
      constructor
      · rintro ⟨key, hkey, rfl⟩
        exact ⟨rfl, hkey⟩
      · rintro ⟨hi, hkey⟩
        exact ⟨k.2, hkey, Prod.ext hi rfl⟩
  mandatesByKey := by
    unfold Run.index
    dsimp only
    split_ifs with htype
    · exact h.mandatesByKey.addAll (List.nodup_dedup _) fun k => by
        rw [List.mem_dedup, Bool.and_eq_true, decide_eq_true_eq, decide_eq_true_eq]
        exact (and_iff_right htype).symm
    · exact h.mandatesByKey.addAll List.nodup_nil fun k => by simp [htype]

/-- Listed once, a fact is not listed again. -/
theorem thisRun (h : s.IsIndexOf env facts) (thisRun : List JsString) :
    { s with thisRun := thisRun }.IsIndexOf env facts :=
  ⟨h.processed, h.byAmount, h.byType, h.byInstrumentParty, h.mandatesByKey⟩

theorem done (h : s.IsIndexOf env facts) (hnew : f.factId ∉ s.processed) :
    (s.done env f).IsIndexOf env (facts ++ [f]) := by
  unfold Run.done
  dsimp only
  rw [if_neg hnew]
  refine (h.index f fun id => ?_).thisRun _
  rw [List.mem_append, h.processed, List.map_append, List.mem_append, List.map_singleton]

theorem done_again (h : s.IsIndexOf env facts) (hold : f.factId ∈ s.processed) :
    (s.done env f).IsIndexOf env facts := by
  unfold Run.done
  dsimp only
  rw [if_pos hold]
  exact h.thisRun _

end Run.IsIndexOf

theorem mem_processed_done : f.factId ∈ (s.done env f).processed := by
  unfold Run.done
  dsimp only
  split_ifs with h
  · exact h
  · exact List.mem_append_right _ (List.mem_singleton_self _)

/-- What is processed stays so. -/
theorem stable_processed (env : Env) (f : Fact) (id : JsString) : Stable env f fun s => id ∈ s.processed where
  put h _ := h
  refunded h _ := h
  reviews h _ := h
  ambiguousReceipts h _ := h
  done {s} h := by
    unfold Run.done
    dsimp only
    split_ifs
    · exact h
    · exact List.mem_append_left _ h

/-- After a step the fact is processed. -/
theorem linkStep_processed {s' : Run} (hstep : linkStep env s f = .ok s') : f.factId ∈ s'.processed := by
  have hmoney : ∀ {s'}, processMoney env s f = .ok s' → f.factId ∈ s'.processed := by
    intro s' h
    obtain ⟨result, -, h⟩ := bind_eq_ok.mp h
    exact Except.ok.inj h ▸ mem_processed_done
  unfold linkStep at hstep
  split_ifs at hstep
  · exact Except.ok.inj hstep ▸ mem_processed_done
  · unfold process at hstep
    split at hstep
    · split_ifs at hstep
      · exact Except.ok.inj hstep ▸ mem_processed_done
      · exact Except.ok.inj hstep ▸ mem_processed_done
      · exact hmoney hstep
    · exact Except.ok.inj hstep ▸ lateMandate_stable (stable_processed env f f.factId) mem_processed_done
    · exact hmoney hstep
    · exact Except.ok.inj hstep ▸ mem_processed_done

/-- A step lists the fact that it processes, and no other. -/
theorem linkStep_isIndexOf (h : s.IsIndexOf env facts) (hnew : f.factId ∉ s.processed) {s' : Run}
    (hstep : linkStep env s f = .ok s') : s'.IsIndexOf env (facts ++ [f]) := by
  let P (t : Run) : Prop := (t.IsIndexOf env facts ∧ f.factId ∉ t.processed) ∨ t.IsIndexOf env (facts ++ [f])
  have hkeep : ∀ {t t' : Run}, P t → t'.processed = t.processed → t'.byAmount = t.byAmount → t'.byType = t.byType →
      t'.byInstrumentParty = t.byInstrumentParty → t'.mandatesByKey = t.mandatesByKey → P t' := by
    rintro t t' ht hprocessed hamount htype hparty hmandates
    have hindex : ∀ {list}, t.IsIndexOf env list → t'.IsIndexOf env list := fun h =>
      ⟨hprocessed ▸ h.processed, hamount ▸ h.byAmount, htype ▸ h.byType, hparty ▸ h.byInstrumentParty,
        hmandates ▸ h.mandatesByKey⟩
    exact ht.imp (fun h => ⟨hindex h.1, hprocessed ▸ h.2⟩) hindex
  have hstable : Stable env f P :=
    { put := fun h _ => hkeep h rfl rfl rfl rfl rfl
      refunded := fun h _ => hkeep h rfl rfl rfl rfl rfl
      reviews := fun h _ => hkeep h rfl rfl rfl rfl rfl
      ambiguousReceipts := fun h _ => hkeep h rfl rfl rfl rfl rfl
      done := fun h => by
        rcases h with ⟨h, hnew⟩ | h
        · exact .inr (h.done hnew)
        · refine .inr (h.done_again ((h.processed _).mpr ?_))
          exact List.mem_map_of_mem (List.mem_append_right _ (List.mem_singleton_self f)) }
  rcases linkStep_stable hstable (fun h => hkeep h rfl rfl rfl rfl rfl) (.inl ⟨h, hnew⟩) hstep with ⟨-, hno⟩ | hindex
  · exact absurd (linkStep_processed hstep) hno
  · exact hindex

/-- A call begins with the recent facts. -/
theorem start_isIndexOf (env : Env) (recent : List Fact) : (start env recent).IsIndexOf env recent := by
  induction recent using List.reverseRecOn with
  | nil =>
    exact ⟨fun id => by simp [start, startTable], fun a => by simp [start, startTable], .empty, .empty, .empty⟩
  | append_singleton recent f ih =>
    unfold start at ih ⊢
    rw [List.foldl_append]
    refine ih.index f fun id => ?_
    have hadd : ∀ ids : List JsString, id ∈ addTo ids f.factId ↔ id ∈ ids ∨ id = f.factId := by
      intro ids
      unfold addTo
      split_ifs with h
      · exact ⟨.inl, fun hid => hid.elim (fun hid => hid) fun hid => hid ▸ h⟩
      · rw [List.mem_append, List.mem_singleton]
    rw [hadd, ih.processed, List.map_append, List.mem_append, List.map_singleton, List.mem_singleton]

end Index

section Calls

variable {linker : Linker} {context : LinkContext} {rules : List LinkRule} {now : ℤ} {incoming : List Fact}

/-- Before each step of a call the indexes have the recent facts and those that were linked. -/
theorem linkSteps_isIndexOf {before after : List Fact} {f : Fact} (harrivals : arrivals incoming = before ++ f :: after)
    {s : Run} (hs : before.foldlM (linkStep (linker.env context rules now incoming))
      (start (linker.env context rules now incoming) (recentOf context incoming)) = .ok s) :
    s.IsIndexOf (linker.env context rules now incoming) (recentOf context incoming ++ before) := by
  have hids : (before.map Fact.factId).Nodup := by
    have hnodup := nodup_map_arrivals incoming
    rw [harrivals, List.map_append] at hnodup
    exact hnodup.of_append_left
  have hincoming : ∀ g ∈ before, g ∈ incoming := fun g hg =>
    mem_of_mem_arrivals (harrivals ▸ List.mem_append_left _ hg)
  clear harrivals
  induction before using List.reverseRecOn generalizing s with
  | nil =>
    rw [List.append_nil, ← Except.ok.inj hs]
    exact start_isIndexOf _ _
  | append_singleton before g ih =>
    rw [List.foldlM_append] at hs
    obtain ⟨t, ht, hstep⟩ := bind_eq_ok.mp hs
    rw [List.foldlM_cons] at hstep
    obtain ⟨t', hstep, hlast⟩ := bind_eq_ok.mp hstep
    rw [← Except.ok.inj hlast, ← List.append_assoc]
    rw [List.map_append, List.nodup_append] at hids
    have hindex := ih ht hids.1 fun g hg => hincoming g (List.mem_append_left _ hg)
    refine linkStep_isIndexOf hindex ?_ hstep
    rw [hindex.processed, List.map_append, List.mem_append, not_or]
    constructor
    · intro hrecent
      obtain ⟨r, hr, hid⟩ := List.mem_map.mp hrecent
      exact (mem_recentOf.mp hr).2 (hid ▸ List.mem_map_of_mem (hincoming g (by simp)))
    · intro hbefore
      exact hids.2.2 _ hbefore _ (List.mem_singleton_self _) rfl

end Calls

/-! ### Names -/

/-- Names of one party share a key. -/
theorem exists_partyKey {env : Env} {a b : Option JsString} (h : env.sameParty a b = true) :
    ∃ k ∈ env.partyKeys a, k ∈ env.partyKeys b := by
  unfold Env.sameParty at h
  unfold Env.partyKeys
  cases ha : env.key a with
  | nil =>
    rw [ha] at h
    cases h
  | cons x xs =>
    cases hb : env.key b with
    | nil =>
      rw [ha, hb] at h
      cases h
    | cons y ys =>
      rw [ha, hb] at h
      dsimp only at h ⊢
      have hcompact (htake : (x :: xs).flatten.take 5 = (y :: ys).flatten.take 5) :
          ∃ k ∈ [PartyKey.token x, .compact ((x :: xs).flatten.take 5)],
            k ∈ [PartyKey.token y, .compact ((y :: ys).flatten.take 5)] :=
        ⟨_, List.mem_cons_of_mem _ (List.mem_singleton_self _), by
          rw [htake]
          exact List.mem_cons_of_mem _ (List.mem_singleton_self _)⟩
      rcases Bool.or_eq_true_iff.mp h with h | h
      · rcases Bool.or_eq_true_iff.mp h with h | h
        · exact hcompact (congrArg (List.take 5) (of_decide_eq_true h))
        · obtain ⟨hlong, hprefix⟩ := Bool.and_eq_true_iff.mp h
          obtain ⟨hx, hy⟩ := Bool.and_eq_true_iff.mp hlong
          have hx := of_decide_eq_true hx
          have hy := of_decide_eq_true hy
          rcases Bool.or_eq_true_iff.mp hprefix with hprefix | hprefix
          · obtain ⟨rest, hrest⟩ := List.isPrefixOf_iff_prefix.mp hprefix
            exact hcompact (hrest ▸ List.take_append_of_le_length hy)
          · obtain ⟨rest, hrest⟩ := List.isPrefixOf_iff_prefix.mp hprefix
            exact hcompact (hrest ▸ (List.take_append_of_le_length hx).symm)
      · obtain ⟨-, hsame⟩ := Bool.and_eq_true_iff.mp h
        exact ⟨.token x, List.mem_cons_self, of_decide_eq_true hsame ▸ List.mem_cons_self⟩

/-! ### Times and amounts -/

section Window

variable {f g : Fact} {window : ℕ}

/-- A fact that the window lets through is not before the range. -/
theorem start_le_of_within (h : f.within g window = true) (hf : |f.effectiveAt - f.observedAt| ≤ day)
    (hg : |g.effectiveAt - g.observedAt| ≤ day) : f.effectiveAt - (window + slack) ≤ g.effectiveAt := by
  have hwithin : f.distance g ≤ window := of_decide_eq_true h
  rw [abs_le] at hf hg
  have hslack : slack = 2 * day := rfl
  have hday : 0 ≤ day := by decide
  rcases min_le_iff.mp hwithin with hprinted | hreceived
  · have := (abs_le.mp hprinted).2
    omega
  · have := (abs_le.mp hreceived).2
    omega

/-- A fact that was received before is not after the range. -/
theorem le_stop_of_observedAt_le (h : g.observedAt ≤ f.observedAt) (hf : |f.effectiveAt - f.observedAt| ≤ day)
    (hg : |g.effectiveAt - g.observedAt| ≤ day) : g.effectiveAt ≤ f.effectiveAt + slack := by
  rw [abs_le] at hf hg
  have hslack : slack = 2 * day := rfl
  omega

end Window

theorem factType_of_legMatches {env : Env} {rule : LinkRule} {leg : LinkLeg} {g : Fact} {t : FactType}
    (h : env.legMatches rule leg g = true) (ht : leg.pattern.factType = some t) : g.factType = t := by
  unfold Env.legMatches at h
  simp only [Bool.and_eq_true] at h
  have htype := h.1.1.1.1.1.1
  rw [ht] at htype
  simpa [eq_comm] using htype

/-- Without a tolerance only the same amount is let through. -/
theorem principal_of_amountOk {rule : LinkRule} {role otherRole : LegRole} {f g : Fact}
    (h : Env.amountOk rule role f otherRole g = true) (htolerance : rule.tolerance = 0) {a : ℤ}
    (ha : f.principal = some a) : g.principal = some a := by
  have hno : ¬ rule.tolerance ≥ 100 := by
    rw [htolerance]
    norm_num
  unfold Env.amountOk at h
  unfold Fact.principal at ha ⊢
  cases hf : f.priced with
  | none =>
    rw [hf] at ha
    cases ha
  | some pa =>
    rw [hf] at ha h
    cases hg : g.priced with
    | none =>
      rw [hg] at h
      exact absurd (of_decide_eq_true h) hno
    | some pb =>
      rw [hg] at h
      dsimp only at ha h ⊢
      by_cases hunit : pa.unit ≠ pb.unit
      · rw [if_pos hunit] at h
        exact absurd (of_decide_eq_true h).1 hno
      · rw [if_neg hunit, if_neg hno, if_pos htolerance] at h
        rw [← not_not.mp hunit, ← of_decide_eq_true h]
        exact ha

/-! ### Pools -/

section Pools

variable {env : Env} {facts : List Fact} {s : Run} {f g : Fact} {rule : LinkRule} {role : LegRole} {other : LinkLeg}

/-- The tests of `_scan`, of which the first three are on ids. -/
theorem passes_iff : passes env s rule role f other g = true ↔
    g.factId ≠ f.factId ∧ g.sourceKey ≠ f.sourceKey ∧ g.factId ∈ s.processed ∧ env.legMatches rule other g = true ∧
      f.within g rule.join.window = true ∧ Env.amountOk rule role f other.role g = true ∧
      (rule.join.reference ≠ some .require ∨ f.sharesRef g = true) ∧
      env.pairOk s.refunded rule role f other.role g = true := by
  unfold passes
  simp only [Bool.and_eq_true, Bool.or_eq_true, decide_eq_true_eq, and_assoc]

/-- A fact that passes is in a pool, if its leg is one that names its type, and for an IPO one of holds. -/
theorem exists_mem_poolOf (hs : s.IsIndexOf env facts) (hkind : rule.kind ≠ .refund)
    (htype : other.pattern.factType.isSome = true) (hipo : rule.kind = .ipo → other.pattern.factType = some .hold)
    (hg : g ∈ facts) (hobserved : g.observedAt ≤ f.observedAt) (hfday : |f.effectiveAt - f.observedAt| ≤ day)
    (hgday : |g.effectiveAt - g.observedAt| ≤ day) (hpass : passes env s rule role f other g = true) :
    ∃ pool ∈ poolOf env s rule other f, g ∈ pool := by
  obtain ⟨-, -, -, hleg, hwithin, hamount, -, -⟩ := passes_iff.mp hpass
  obtain ⟨t, ht⟩ := Option.isSome_iff_exists.mp htype
  have hgt : g.factType = t := factType_of_legMatches hleg ht
  have hrange : g ∈ rangeOf s.byType t (f.effectiveAt - (rule.join.window + slack)) (f.effectiveAt + slack) :=
    hs.byType.mem_rangeOf.mpr ⟨hg, decide_eq_true hgt, start_le_of_within hwithin hfday hgday,
      le_stop_of_observedAt_le hobserved hfday hgday⟩
  unfold poolOf
  dsimp only
  by_cases hrule : rule.kind = .ipo
  · rw [if_pos hrule]
    have hhold : t = .hold := Option.some.inj (ht.symm.trans (hipo hrule))
    exact ⟨_, List.mem_append_right _ (List.mem_singleton_self _), hhold ▸ hrange⟩
  rw [if_neg hrule, ht]
  by_cases hmovement : t = .movement
  · subst hmovement
    rw [Option.filter_some_neg (by simp)]
    dsimp only
    by_cases hexact : rule.tolerance = 0 ∧ f.principal.isSome = true
    · rw [if_pos hexact]
      obtain ⟨a, ha⟩ := Option.isSome_iff_exists.mp hexact.2
      rw [ha]
      refine ⟨_, List.mem_singleton_self _, ?_⟩
      rw [hs.byAmount, List.mem_filter]
      exact ⟨hg, decide_eq_true (principal_of_amountOk hamount hexact.1 ha)⟩
    · rw [if_neg hexact, if_neg hkind]
      exact ⟨_, List.mem_singleton_self _, hrange⟩
  · rw [Option.filter_some_pos (by simpa using hmovement)]
    exact ⟨_, List.mem_singleton_self _, hrange⟩

/-- What is in a pool is one of the facts. -/
theorem mem_of_mem_poolOf (hs : s.IsIndexOf env facts) {pool : List Fact} (hpool : pool ∈ poolOf env s rule other f)
    (hg : g ∈ pool) : g ∈ facts := by
  have hfiles {κ : Type} [DecidableEq κ] {keys : Fact → κ → Bool} {index : InsertionMap κ Timeline}
      (h : Files keys facts index) : Lists (· ∈ facts) index := by
    intro k list hlist g hg
    have hperm := h.perm k
    rw [hlist, Option.getD_some] at hperm
    exact List.mem_of_mem_filter (hperm.mem_iff.mp hg)
  refine mem_poolOf ?_ (hfiles hs.byType) (hfiles hs.byInstrumentParty) hpool g hg
  intro a list hlist g hg
  have hamount := hs.byAmount a
  rw [hlist, Option.getD_some] at hamount
  exact List.mem_of_mem_filter (hamount ▸ hg)

end Pools

/-! ### Mandates -/

/-- The candidates that mandates make: one of each group, the most recently active first. -/
def mandatesAmong (env : Env) (f : Fact) (mandates : List Fact) : List Cand :=
  let groups := mandates.foldl (fun (m : InsertionMap MandateGroup (List Fact)) g =>
    m.upsert (mandateGroup env g) [] fun l => l ++ [g]) .empty
  let out := groups.values.filterMap (groupCandidate f)
  (out.insertionSort fun a b => b.1 < a.1 ∨ (a.1 = b.1 ∧ b.2.1 ≤ a.2.1)).map fun c => c.2.2

/-- The mandates among some facts that a debit may charge, by time. -/
def mandatesOf (env : Env) (s : Run) (rule : LinkRule) (f : Fact) (facts : List Fact) : List Fact :=
  ((byId (facts.filter fun g => g.factType = .mandate)).insertionSort Fact.orderLe).filter (chargeable env s rule f)

section ById

variable {list : List Fact}

theorem mem_byId (hids : ∀ f ∈ list, ∀ g ∈ list, f.factId = g.factId → f = g) {f : Fact} :
    f ∈ byId list ↔ f ∈ list := by
  refine ⟨mem_of_mem_byId, fun hf => InsertionMap.mem_values_iff.mpr ⟨f.factId, ?_⟩⟩
  exact (get?_setFacts_eq_some hids).mpr (.inl ⟨hf, rfl⟩)

theorem nodup_byId (list : List Fact) : (byId list).Nodup := by
  have hkeys : ∀ id g, (setFacts .empty list).get? id = some g → g.factId = id := by
    unfold setFacts
    refine List.foldlRecOn list _ (motive := fun m : InsertionMap JsString Fact =>
      ∀ id g, m.get? id = some g → g.factId = id) (fun id g h => by simp at h) ?_
    intro m hm f _ id g hget
    rw [InsertionMap.get?_set] at hget
    split_ifs at hget with hid
    · rw [← Option.some.inj hget, hid]
    · exact hm id g hget
  have hmap : (byId list).map Fact.factId = (setFacts .empty list).keys := by
    show (setFacts .empty list).values.map Fact.factId = _
    rw [InsertionMap.values, InsertionMap.keys, List.map_map]
    exact List.map_congr_left fun entry hentry =>
      hkeys entry.1 entry.2 (InsertionMap.get?_eq_some_iff.mpr hentry)
  exact (hmap ▸ InsertionMap.nodup_keys _ : ((byId list).map Fact.factId).Nodup).of_map

/-- What is kept of two lists is the same by time, where the lists have the same of it. -/
theorem filter_byId_congr {facts list list' : List Fact} {keep : Fact → Bool}
    (hids : ∀ f ∈ facts, ∀ g ∈ facts, f.factId = g.factId → f = g) (hlist : ∀ g ∈ list, g ∈ facts)
    (hlist' : ∀ g ∈ list', g ∈ facts) (hmem : ∀ g, keep g = true → (g ∈ list ↔ g ∈ list')) :
    ((byId list).insertionSort Fact.orderLe).filter keep = ((byId list').insertionSort Fact.orderLe).filter keep := by
  have : Std.Total Fact.orderLe := ⟨orderLe_total⟩
  have : IsTrans Fact Fact.orderLe := ⟨fun _ _ _ => orderLe_trans⟩
  have hsub : ∀ {l : List Fact}, (∀ g ∈ l, g ∈ facts) → ∀ g, g ∈ byId l ↔ g ∈ l := fun hl g =>
    mem_byId fun f hf g hg => hids f (hl f hf) g (hl g hg)
  have hnodup : ∀ l : List Fact, (((byId l).insertionSort Fact.orderLe).filter keep).Nodup := fun l =>
    ((List.perm_insertionSort _ _).nodup_iff.mpr (nodup_byId l)).filter _
  have hperm : (((byId list).insertionSort Fact.orderLe).filter keep).Perm
      (((byId list').insertionSort Fact.orderLe).filter keep) := by
    refine (List.perm_ext_iff_of_nodup (hnodup _) (hnodup _)).mpr fun g => ?_
    rw [List.mem_filter, List.mem_filter, List.mem_insertionSort, List.mem_insertionSort, hsub hlist, hsub hlist']
    exact and_congr_left (hmem g)
  refine hperm.eq_of_pairwise (fun a b ha hb hab hba => ?_) ((List.pairwise_insertionSort _ _).filter _)
    ((List.pairwise_insertionSort _ _).filter _)
  have hmemOf : ∀ {l : List Fact} {g}, g ∈ ((byId l).insertionSort Fact.orderLe).filter keep → g ∈ l := fun hg =>
    mem_of_mem_byId ((List.mem_insertionSort _).mp (List.mem_of_mem_filter hg))
  rw [orderLe_iff] at hab hba
  exact hids a (hlist a (hmemOf ha)) b (hlist' b (hmemOf hb)) (congrArg (fun k => (ofLex k).2) (le_antisymm hab hba))

end ById

section Mandates

variable {env : Env} {facts : List Fact} {s : Run} {f g : Fact} {rule : LinkRule}

/-- A mandate that a debit may charge is filed under a key of the debit. -/
theorem exists_mandateKey (h : chargeable env s rule f g = true) :
    ∃ k ∈ env.partyKeys f.party ++ f.mandateRef.toList.map PartyKey.reference, k ∈ mandateKeys env g := by
  have hname : env.sameParty g.party f.party = true →
      ∃ k ∈ env.partyKeys f.party ++ f.mandateRef.toList.map PartyKey.reference, k ∈ mandateKeys env g := by
    intro hsame
    obtain ⟨k, hk, hk'⟩ := exists_partyKey hsame
    exact ⟨k, List.mem_append_left _ hk', List.mem_append_left _ hk⟩
  unfold chargeable at h
  obtain ⟨-, h⟩ := Bool.and_eq_true_iff.mp h
  cases href : f.mandateRef with
  | none =>
    rw [href] at h hname
    exact hname h
  | some ref =>
    rw [href] at h hname
    dsimp only at h
    split_ifs at h with hnone
    · exact hname h
    · obtain ⟨r, hr, rfl⟩ := List.mem_map.mp (List.contains_iff_mem.mp h)
      exact ⟨.reference r.2, List.mem_append_right _ (List.mem_singleton_self _),
        List.mem_append_right _ (List.mem_map.mpr ⟨r, hr, rfl⟩)⟩

/-- What the search lists under the keys of a debit and in its range. -/
theorem mem_listed_iff (hs : s.IsIndexOf env facts) (hfday : |f.effectiveAt - f.observedAt| ≤ day)
    (hday : ∀ g ∈ facts, |g.effectiveAt - g.observedAt| ≤ day) (hcharge : chargeable env s rule f g = true) :
    (g ∈ (env.partyKeys f.party ++ f.mandateRef.toList.map PartyKey.reference).flatMap fun k =>
        rangeOf s.mandatesByKey k (f.effectiveAt - (rule.join.window + slack)) (f.effectiveAt + day)) ↔
      g ∈ facts.filter fun g => g.factType = .mandate := by
  rw [List.mem_flatMap, List.mem_filter]
  constructor
  · rintro ⟨k, -, hk⟩
    obtain ⟨hfacts, hkey, -⟩ := hs.mandatesByKey.mem_rangeOf.mp hk
    exact ⟨hfacts, (Bool.and_eq_true_iff.mp hkey).1⟩
  · rintro ⟨hfacts, htype⟩
    obtain ⟨k, hk, hkey⟩ := exists_mandateKey hcharge
    unfold chargeable at hcharge
    simp only [Bool.and_eq_true] at hcharge
    refine ⟨k, hk, hs.mandatesByKey.mem_rangeOf.mpr ⟨hfacts, ?_, ?_, of_decide_eq_true hcharge.1.1.2⟩⟩
    · exact Bool.and_eq_true_iff.mpr ⟨htype, decide_eq_true hkey⟩
    · exact start_le_of_within hcharge.1.2 hfday (hday g hfacts)

/-- The search for mandates finds those that a scan of all facts finds. -/
theorem mandateCandidates_eq_among (hs : s.IsIndexOf env facts)
    (hids : ∀ g ∈ facts, ∀ h ∈ facts, g.factId = h.factId → g = h)
    (hfday : |f.effectiveAt - f.observedAt| ≤ day) (hday : ∀ g ∈ facts, |g.effectiveAt - g.observedAt| ≤ day) :
    mandateCandidates env s rule f = mandatesAmong env f (mandatesOf env s rule f facts) := by
  refine congrArg (mandatesAmong env f) (filter_byId_congr hids ?_ ?_ fun g hg => mem_listed_iff hs hfday hday hg)
  · intro g hg
    obtain ⟨k, -, hk⟩ := List.mem_flatMap.mp hg
    exact (hs.mandatesByKey.mem_rangeOf.mp hk).1
  · exact fun g hg => List.mem_of_mem_filter hg

end Mandates

/-! ### A call -/

section Search

variable {linker : Linker} {context : LinkContext} {rules : List LinkRule} {now : ℤ} {incoming before after : List Fact}
  {f : Fact}

theorem observedAt_le_of_arrivals (harrivals : arrivals incoming = before ++ f :: after) {g : Fact} (hg : g ∈ before) :
    g.observedAt ≤ f.observedAt := by
  have : Std.Total Fact.arrivalLe := ⟨fun a b => by rw [arrivalLe_iff, arrivalLe_iff]; exact le_total _ _⟩
  have : IsTrans Fact Fact.arrivalLe := ⟨fun a b c => by rw [arrivalLe_iff, arrivalLe_iff, arrivalLe_iff]; exact le_trans⟩
  have hsorted : (arrivals incoming).Pairwise Fact.arrivalLe := List.pairwise_insertionSort _ _
  rw [harrivals, List.pairwise_append] at hsorted
  rcases hsorted.2.2 g hg f List.mem_cons_self with hlt | heq
  · exact hlt.le
  · exact heq.1.le

/-- Facts with one id that were processed are one. -/
theorem eq_of_factId (harrivals : arrivals incoming = before ++ f :: after)
    (hids : ∀ g ∈ context.recentFacts, ∀ h ∈ context.recentFacts, g.factId = h.factId → g = h) :
    ∀ g ∈ recentOf context incoming ++ before, ∀ h ∈ recentOf context incoming ++ before,
      g.factId = h.factId → g = h := by
  have hnodup := nodup_map_arrivals incoming
  rw [harrivals, List.map_append] at hnodup
  have hbefore : ∀ g ∈ before, g.factId ∈ incoming.map Fact.factId := fun g hg =>
    List.mem_map_of_mem (mem_of_mem_arrivals (harrivals ▸ List.mem_append_left _ hg))
  intro g hg h hh hid
  rcases List.mem_append.mp hg with hg | hg <;> rcases List.mem_append.mp hh with hh | hh
  · exact hids g (mem_recentOf.mp hg).1 h (mem_recentOf.mp hh).1 hid
  · exact absurd (hid ▸ hbefore h hh) (mem_recentOf.mp hg).2
  · exact absurd (hid ▸ hbefore g hg) (mem_recentOf.mp hh).2
  · exact List.inj_on_of_nodup_map hnodup.of_append_left hg hh hid

end Search

/-- Where the facts of a call are linked in the order of their receipt and no printed time is a day off, the indexes
lose no candidate of a fact: one that passes the tests of a scan is in a pool exactly if it was processed, for every
rule but one of refunds and every leg that names its type, for an IPO rule one of holds; and the search for mandates
finds those that a scan of all processed facts finds. Names of one party share a key, and a range of a timeline has
exactly the facts that were added with a time in it, in order. -/
theorem indexes_lose_no_candidate (linker : Linker) (context : LinkContext) (rules : List LinkRule) (now : ℤ)
    {incoming before after : List Fact} {f : Fact} (harrivals : arrivals incoming = before ++ f :: after) {s : Run}
    (hs : before.foldlM (linkStep (linker.env context rules now incoming))
      (start (linker.env context rules now incoming) (recentOf context incoming)) = .ok s)
    (hobserved : ∀ g ∈ recentOf context incoming, g.observedAt ≤ f.observedAt)
    (hday : ∀ g ∈ f :: (recentOf context incoming ++ before), |g.effectiveAt - g.observedAt| ≤ day) :
    let env := linker.env context rules now incoming
    let processed := recentOf context incoming ++ before
    s.IsIndexOf env processed ∧
      (∀ t : Run, t.IsIndexOf env processed →
        (∀ (rule : LinkRule) (role : LegRole) (other : LinkLeg), rule.kind ≠ .refund →
          other.pattern.factType.isSome = true → (rule.kind = .ipo → other.pattern.factType = some .hold) →
            ∀ g, (∃ pool ∈ poolOf env t rule other f, g ∈ pool ∧ passes env t rule role f other g = true) ↔
              g ∈ processed ∧ passes env t rule role f other g = true) ∧
        ((∀ g ∈ context.recentFacts, ∀ h ∈ context.recentFacts, g.factId = h.factId → g = h) →
          ∀ rule : LinkRule, mandateCandidates env t rule f =
            mandatesAmong env f (mandatesOf env t rule f processed))) ∧
      (∀ a b, env.sameParty a b = true → ∃ k ∈ env.partyKeys a, k ∈ env.partyKeys b) ∧
      ∀ (added : List Fact) (first last : ℤ),
        ((added.foldl Timeline.add []).range first last).Perm
            (added.filter fun g => first ≤ g.effectiveAt && g.effectiveAt ≤ last) ∧
          ((added.foldl Timeline.add []).range first last).Pairwise Fact.orderLe := by
  intro env processed
  have hfday := hday f List.mem_cons_self
  have hgday : ∀ g ∈ processed, |g.effectiveAt - g.observedAt| ≤ day := fun g hg => hday g (List.mem_cons_of_mem _ hg)
  have hreceived : ∀ g ∈ processed, g.observedAt ≤ f.observedAt := fun g hg =>
    (List.mem_append.mp hg).elim (hobserved g) (observedAt_le_of_arrivals harrivals)
  refine ⟨linkSteps_isIndexOf harrivals hs, fun t ht => ⟨?_, ?_⟩, fun a b => exists_partyKey, Timeline.range_foldl_add⟩
  · intro rule role other hkind htype hipo g
    constructor
    · rintro ⟨pool, hpool, hg, hpass⟩
      exact ⟨mem_of_mem_poolOf ht hpool hg, hpass⟩
    · rintro ⟨hg, hpass⟩
      obtain ⟨pool, hpool, hmem⟩ := exists_mem_poolOf ht hkind htype hipo hg (hreceived g hg) hfday (hgday g hg) hpass
      exact ⟨pool, hpool, hmem, hpass⟩
  · intro hids rule
    exact mandateCandidates_eq_among ht (eq_of_factId harrivals hids) hfday hgday

/-! ### A debit and a credit -/

/-- A movement of a hundred rupees. -/
def moved (id : String) (direction : Direction) (purpose : MovementPurpose) (observedAt : ℤ) : Fact where
  factId := js id
  sourceKey := js id
  observedAt := observedAt
  amounts := [{ role := .posted, minor := 10000, unit := js "INR" }]
  ruleId := js "rule"
  attrs := .movement direction purpose none none

/-- The credit was received first, and the debit is linked now. -/
def creditFirst : LinkContext where
  recentFacts := [moved "credit" .credit .investment 0]
  openEvents := []
  instrumentsById := .empty
  rulePart := none

/-- An IPO rule without holds. -/
def allotment : LinkRule where
  id := js "allotment"
  eventType := .ipoApplication
  legs := [⟨.debitLeg, { factType := some .movement, direction := some .debit }⟩,
    ⟨.creditLeg, { factType := some .movement, direction := some .credit }⟩]
  join := { amountTolerancePct := some 0, window := hours 72 }
  singleLeg := .complete
  priority := 0

/-- The same rule for transfers. -/
def transferRule : LinkRule := { allotment with eventType := .unknown }

/-- The environment of the debit. -/
def debitEnv : Env := Linker.env { toUpperCase := id } creditFirst [] 0 [moved "debit" .debit .investment 60]

theorem indexes_lose_no_candidate_credit :
    ∃ pool ∈ poolOf debitEnv (start debitEnv creditFirst.recentFacts) transferRule
        ⟨.creditLeg, { factType := some .movement, direction := some .credit }⟩ (moved "debit" .debit .investment 60),
      moved "credit" .credit .investment 0 ∈ pool := by
  obtain ⟨hindex, hsearch, -⟩ := @indexes_lose_no_candidate { toUpperCase := id } creditFirst [] 0
    [moved "debit" .debit .investment 60] [] [] (moved "debit" .debit .investment 60) rfl
    (start debitEnv creditFirst.recentFacts) rfl (by decide +kernel) (by decide +kernel)
  obtain ⟨pool, hpool, hmem, -⟩ := ((hsearch _ hindex).1 transferRule .debitLeg
    ⟨.creditLeg, { factType := some .movement, direction := some .credit }⟩ (by decide) (by decide)
    (fun h => absurd h (by decide)) (moved "credit" .credit .investment 0)).mpr ⟨by decide +kernel, by decide +kernel⟩
  exact ⟨pool, hpool, hmem⟩

/-- For an IPO rule the credit is in no pool. -/
theorem not_indexes_lose_no_candidate :
    ¬ ∀ (env : Env) (facts : List Fact) (s : Run) (f : Fact), s.IsIndexOf env facts →
      (∀ g ∈ facts, g.observedAt ≤ f.observedAt) → (∀ g ∈ f :: facts, |g.effectiveAt - g.observedAt| ≤ day) →
        ∀ (rule : LinkRule) (role : LegRole), rule.kind ≠ .refund →
          (∀ leg ∈ rule.legs, leg.pattern.factType.isSome = true) → ∀ other ∈ rule.legs, ∀ g ∈ facts,
            passes env s rule role f other g = true → ∃ pool ∈ poolOf env s rule other f, g ∈ pool := by
  intro h
  obtain ⟨pool, hpool, hmem⟩ := h debitEnv creditFirst.recentFacts (start debitEnv creditFirst.recentFacts)
    (moved "debit" .debit .investment 60) (start_isIndexOf _ _) (by decide +kernel) (by decide +kernel) allotment
    .debitLeg (by decide) (by decide) _ (List.mem_cons_of_mem _ (List.mem_singleton_self _)) _
    (List.mem_singleton_self _) (by decide +kernel)
  have hnone : ∀ pool ∈ poolOf debitEnv (start debitEnv creditFirst.recentFacts) allotment
      ⟨.creditLeg, { factType := some .movement, direction := some .credit }⟩ (moved "debit" .debit .investment 60),
      pool = [] := by
    decide +kernel
  rw [hnone pool hpool] at hmem
  exact absurd hmem List.not_mem_nil

end PandaPay.SmsV2
