import PandaPay.SmsV2.Linker.Indexed
import PandaPay.SmsV2.Linker.Rules

/-!
# Receipts never count

A receipt is evidence of a payment, and no payment itself: it becomes a notice of the event of the
payment or an `original`, anchors no event and gives no amount. Most pair rules do not ask whether a
loose fact is a receipt, so this holds as long as none of them joins one.

## Main definitions

* `EventLeg.Noted`, `Event.Sound`: what holds of the legs, the first leg and the amount of an event
* `Store.ReceiptsIdle`: the same of what is stored

## Main results

* `receipts_idle`: receipts count in no event, along any run that joins no receipt as a loose fact
* `not_receipts_idle`: a run of the shipped rules in which a receipt becomes a debit
-/

namespace PandaPay.SmsV2

/-- A leg of a known fact, in the role of a notice or of an `original` if the fact is a receipt. -/
def EventLeg.Noted (facts : JsString → Option Fact) (l : EventLeg) : Prop :=
  ∃ g, facts l.factId = some g ∧ (g.evidenceOnly → l.role = .duplicateNotice ∨ l.role = .original)

/-- The amount of the event `e` is the sum of the principal amounts of some of its facts, which are no
receipts. -/
def Event.Counted (facts : JsString → Option Fact) (e : Event) : Prop :=
  ∃ fs : List Fact, (∀ g ∈ fs, g.evidenceOnly = false ∧ ∃ id ∈ e.factIds, facts id = some g) ∧
    e.amountMinor = (fs.map fun g => g.principal.getD 0).sum

/-- No receipt counts in the event `e`. -/
structure Event.Sound (facts : JsString → Option Fact) (e : Event) : Prop where
  legs : ∀ l ∈ e.legs, l.Noted facts
  first : e.factIds.head? = some e.eventId
  anchor : ∃ g, facts e.eventId = some g ∧ g.evidenceOnly = false
  amount : e.Counted facts

theorem Event.Sound.mono {facts facts' : JsString → Option Fact} {e : Event} (h : e.Sound facts)
    (hfacts : ∀ id g, facts id = some g → facts' id = some g) : e.Sound facts' where
  legs l hl := (h.legs l hl).imp fun g hg => hg.imp_left (hfacts _ g)
  first := h.first
  anchor := h.anchor.imp fun g hg => hg.imp_left (hfacts _ g)
  amount := by
    obtain ⟨fs, hfs, hsum⟩ := h.amount
    refine ⟨fs, fun g hg => (hfs g hg).imp_right fun ⟨id, hid, hget⟩ => ?_, hsum⟩
    exact ⟨id, hid, hfacts id g hget⟩

section Build

variable {env : Env} {id : JsString} {type : EventType} {status : EventStatus} {legs : List EventLeg}
  {ruleId : Option JsString} {prior : Option Event}

theorem mem_of_earliest {list : List Fact} {f : Fact} (h : Env.earliest list = some f) : f ∈ list := by
  cases list with
  | nil => simp [Env.earliest] at h
  | cons g list =>
    rw [← Option.some.inj h]
    refine List.foldlRecOn list _ (motive := fun f => f ∈ g :: list) List.mem_cons_self ?_
    intro f hf x hx
    split_ifs
    · exact List.mem_cons_of_mem _ hx
    · exact hf

/-- The money facts of legs that are noted are no receipts. -/
theorem mem_legFacts {roles : List LegRole} {g : Fact} (hlegs : ∀ l ∈ legs, l.Noted env.facts.get?)
    (hroles : LegRole.duplicateNotice ∉ roles ∧ LegRole.original ∉ roles)
    (h : g ∈ env.legFacts roles legs) :
    g.evidenceOnly = false ∧ ∃ i ∈ legs.map EventLeg.factId, env.facts.get? i = some g := by
  unfold Env.legFacts at h
  obtain ⟨l, hl, hg⟩ := List.mem_filterMap.mp h
  obtain ⟨hl, hrole⟩ := List.mem_filter.mp hl
  have hrole : l.role ∈ roles := by simpa using hrole
  obtain ⟨g', hg', hnoted⟩ := hlegs l hl
  obtain rfl : g' = g := Option.some.inj (hg'.symm.trans hg)
  refine ⟨?_, l.factId, List.mem_map_of_mem hl, hg⟩
  by_contra hevidence
  rcases hnoted (by simpa using hevidence) with hnotice | horiginal
  · exact hroles.1 (hnotice ▸ hrole)
  · exact hroles.2 (horiginal ▸ hrole)

theorem counted_of_fact {e : Event} {facts : JsString → Option Fact} {g : Fact} {a : ℤ} {i : JsString}
    (hg : g.evidenceOnly = false) (hi : i ∈ e.factIds) (hget : facts i = some g)
    (ha : g.principal = some a) (hamount : e.amountMinor = a) : e.Counted facts :=
  ⟨[g], List.forall_mem_singleton.mpr ⟨hg, i, hi, hget⟩, by simp [hamount, ha]⟩

theorem counted_of_zero {e : Event} {facts : JsString → Option Fact} (h : e.amountMinor = 0) :
    e.Counted facts :=
  ⟨[], List.forall_mem_nil _, h⟩

theorem counted_of_prior {e e' : Event} {facts : JsString → Option Fact} (h : e.Counted facts)
    (hids : ∀ i ∈ e.factIds, i ∈ e'.factIds) (hamount : e'.amountMinor = e.amountMinor) :
    e'.Counted facts := by
  obtain ⟨fs, hfs, hsum⟩ := h
  refine ⟨fs, fun g hg => (hfs g hg).imp_right fun ⟨i, hi, hget⟩ => ⟨i, hids i hi, hget⟩, ?_⟩
  rw [hamount, hsum]

theorem counted_of_option {e : Event} {facts : JsString → Option Fact} {a : Option ℤ}
    (h : ∀ x, a = some x → e.amountMinor = x → e.Counted facts) (hamount : e.amountMinor = a.getD 0) :
    e.Counted facts := by
  cases a with
  | none => exact counted_of_zero hamount
  | some x => exact h x rfl hamount

theorem build_amountMinor_ipo (h : type = .ipoApplication) :
    (env.build id type status legs ruleId prior).amountMinor =
      ((env.legFacts [.debitLeg] legs).map fun g => g.principal.getD 0).sum := by
  subst h
  rfl

theorem build_amountMinor_of_money (h : type ≠ .ipoApplication) {f : Fact}
    (hmoney : Env.earliest (env.legFacts moneyRoles legs) = some f) :
    (env.build id type status legs ruleId prior).amountMinor =
      (f.principal.or (prior.map Event.amountMinor)).getD 0 := by
  simp only [Env.build, if_neg h, hmoney]

theorem build_amountMinor_of_none (h : type ≠ .ipoApplication)
    (hmoney : Env.earliest (env.legFacts moneyRoles legs) = none) :
    (env.build id type status legs ruleId prior).amountMinor =
      ((prior.map Event.amountMinor).or ((env.facts.get? id).bind Fact.principal)).getD 0 := by
  simp only [Env.build, if_neg h, hmoney]

/-- `_build` takes the amount from the money facts, else from the event as it was, else from the
anchor. -/
theorem build_counted (hlegs : ∀ l ∈ legs, l.Noted env.facts.get?)
    (hanchor : ∀ g, env.facts.get? id = some g → g.evidenceOnly = false)
    (hid : id ∈ legs.map EventLeg.factId) (hprior : ∀ e, prior = some e →
      e.Counted env.facts.get? ∧ ∀ i ∈ e.factIds, i ∈ legs.map EventLeg.factId) :
    (env.build id type status legs ruleId prior).Counted env.facts.get? := by
  have hfactIds : (env.build id type status legs ruleId prior).factIds = legs.map EventLeg.factId := rfl
  have hipo := @build_amountMinor_ipo env id type status legs ruleId prior
  have hsome := @build_amountMinor_of_money env id type status legs ruleId prior
  have hnone := @build_amountMinor_of_none env id type status legs ruleId prior
  generalize env.build id type status legs ruleId prior = e' at hfactIds hipo hsome hnone ⊢
  -- the amount of the event as it was
  have hold : ∀ x, prior.map Event.amountMinor = some x → e'.amountMinor = x →
      e'.Counted env.facts.get? := by
    intro x hx hamount
    obtain ⟨e, he, rfl⟩ := Option.map_eq_some_iff.mp hx
    obtain ⟨hcounted, hids⟩ := hprior e he
    exact counted_of_prior hcounted (hfactIds ▸ hids) hamount
  by_cases htype : type = .ipoApplication
  · refine ⟨env.legFacts [.debitLeg] legs, fun g hg => ?_, hipo htype⟩
    rw [hfactIds]
    exact mem_legFacts hlegs (by decide) hg
  · cases hmoney : Env.earliest (env.legFacts moneyRoles legs) with
    | some f =>
      obtain ⟨hf, i, hi, hget⟩ := mem_legFacts hlegs (by decide) (mem_of_earliest hmoney)
      refine counted_of_option (fun x hx hamount => ?_) (hsome htype hmoney)
      rcases Option.or_eq_some_iff.mp hx with hprincipal | ⟨-, hx⟩
      · exact counted_of_fact hf (hfactIds ▸ hi) hget hprincipal hamount
      · exact hold x hx hamount
    | none =>
      refine counted_of_option (fun x hx hamount => ?_) (hnone htype hmoney)
      rcases Option.or_eq_some_iff.mp hx with hx | ⟨-, hx⟩
      · exact hold x hx hamount
      · obtain ⟨g, hg, hprincipal⟩ := Option.bind_eq_some_iff.mp hx
        exact counted_of_fact (hanchor g hg) (hfactIds ▸ hid) hg hprincipal hamount

theorem build_sound (hlegs : ∀ l ∈ legs, l.Noted env.facts.get?)
    (hfirst : (legs.map EventLeg.factId).head? = some id)
    (hanchor : ∃ g, env.facts.get? id = some g ∧ g.evidenceOnly = false)
    (hprior : ∀ e, prior = some e → e.Counted env.facts.get? ∧
      ∀ i ∈ e.factIds, i ∈ legs.map EventLeg.factId) :
    (env.build id type status legs ruleId prior).Sound env.facts.get? where
  legs := hlegs
  first := hfirst
  anchor := hanchor
  amount := by
    obtain ⟨g, hg, hmoney⟩ := hanchor
    refine build_counted hlegs (fun g' hg' => ?_) (List.mem_of_mem_head? hfirst) hprior
    rw [hg] at hg'
    exact Option.some.inj hg' ▸ hmoney

/-- A sound event with legs in other roles and one more leg is sound. -/
theorem Event.Sound.extend {e : Event} (h : e.Sound env.facts.get?) {relabel : EventLeg → EventLeg}
    {new : EventLeg} (hid : ∀ l ∈ e.legs, (relabel l).factId = l.factId)
    (hrelabel : ∀ l ∈ e.legs, l.Noted env.facts.get? → (relabel l).Noted env.facts.get?)
    (hnew : new.Noted env.facts.get?) :
    (env.build e.eventId type status (e.legs.map relabel ++ [new]) ruleId (some e)).Sound
      env.facts.get? := by
  have hids : (e.legs.map relabel ++ [new]).map EventLeg.factId = e.factIds ++ [new.factId] := by
    rw [List.map_append, List.map_map]
    exact congrArg (· ++ _) (List.map_congr_left hid)
  refine build_sound (fun l hl => ?_) ?_ h.anchor fun e' he' => ?_
  · rcases List.mem_append.mp hl with hl | hl
    · obtain ⟨l', hl', rfl⟩ := List.mem_map.mp hl
      exact hrelabel l' hl' (h.legs l' hl')
    · exact List.mem_singleton.mp hl ▸ hnew
  · rw [hids, List.head?_append, h.first, Option.some_or]
  · obtain rfl := Option.some.inj he'
    refine ⟨h.amount, fun i hi => ?_⟩
    rw [hids]
    exact List.mem_append_left _ hi

theorem Event.Sound.append {e : Event} (h : e.Sound env.facts.get?) {new : EventLeg}
    (hnew : new.Noted env.facts.get?) :
    (env.build e.eventId type status (e.legs ++ [new]) ruleId (some e)).Sound env.facts.get? := by
  have hextend : (env.build e.eventId type status (e.legs.map id ++ [new]) ruleId (some e)).Sound
      env.facts.get? := h.extend (fun _ _ => rfl) (fun _ _ hl => hl) hnew
  rwa [List.map_id] at hextend

end Build

/-! ### Steps -/

/-- What a write must do: put a sound event, if the event it replaces is sound. -/
def KeepsSound (env : Env) (old : Option Event) (e' : Event) : Prop :=
  (∀ e, old = some e → e.Sound env.facts.get?) → e'.Sound env.facts.get?

section Steps

variable {env : Env} {s : Run} {f : Fact}

theorem Fact.noted (hf : env.Has f) {role : LegRole}
    (hrole : f.evidenceOnly → role = .duplicateNotice ∨ role = .original) :
    (⟨f.factId, role⟩ : EventLeg).Noted env.facts.get? :=
  ⟨f, hf, hrole⟩

theorem noted_of_money (hf : env.Has f) (hmoney : f.evidenceOnly = false) {role : LegRole} :
    (⟨f.factId, role⟩ : EventLeg).Noted env.facts.get? :=
  Fact.noted hf fun h => by simp [hmoney] at h

theorem alone_sound (hf : env.Has f) (hmoney : f.evidenceOnly = false) {type : EventType}
    {status : EventStatus} {role : LegRole} {ruleId : Option JsString} :
    (env.build f.factId type status [⟨f.factId, role⟩] ruleId).Sound env.facts.get? :=
  build_sound (List.forall_mem_singleton.mpr (noted_of_money hf hmoney)) rfl ⟨f, hf, hmoney⟩
    fun _ h => by simp at h

theorem pairEvent_sound {rule : LinkRule} {role : LegRole} {c : Cand} (hf : env.Has f)
    (hmoney : f.evidenceOnly = false) (hc : env.Has c.fact)
    (hcand : c.role ≠ .original → c.fact.evidenceOnly = false) :
    (pairEvent env rule role f c).Sound env.facts.get? := by
  have hnoted : (⟨f.factId, role⟩ : EventLeg).Noted env.facts.get? := noted_of_money hf hmoney
  have hnotedCand : (⟨c.fact.factId, c.role⟩ : EventLeg).Noted env.facts.get? := by
    refine Fact.noted hc fun hevidence => .inr ?_
    by_contra hno
    simp [hcand hno] at hevidence
  unfold pairEvent pairLegsOf
  by_cases horiginal : c.role = .original
  · simp only [if_pos horiginal]
    exact build_sound (List.forall_mem_cons.mpr ⟨hnoted, List.forall_mem_singleton.mpr hnotedCand⟩)
      rfl ⟨f, hf, hmoney⟩ fun _ h => by simp at h
  · simp only [if_neg horiginal]
    exact build_sound (List.forall_mem_cons.mpr ⟨hnotedCand, List.forall_mem_singleton.mpr hnoted⟩)
      rfl ⟨c.fact, hc, hcand horiginal⟩ fun _ h => by simp at h

/-- The only leg of a sound event is no receipt, so any role does for it. -/
theorem joinedEvent_sound {rule : LinkRule} {role : LegRole} {c : Cand} {e : Event}
    (h : e.Sound env.facts.get?) (hnew : (⟨f.factId, role⟩ : EventLeg).Noted env.facts.get?) :
    (joinedEvent env rule role f c e).Sound env.facts.get? := by
  refine h.extend (fun l _ => ?_) (fun l hl hnoted => ?_) hnew
  · split_ifs <;> rfl
  · split_ifs with hrelabel
    · obtain ⟨l', hl'⟩ := List.length_eq_one_iff.mp hrelabel.2.1
      rw [hl', List.mem_singleton] at hl
      have hfirst := h.first
      unfold Event.factIds at hfirst
      rw [hl', ← hl] at hfirst
      obtain ⟨g, hg, hmoney⟩ := h.anchor
      have hanchor : l.factId = e.eventId := Option.some.inj hfirst
      exact ⟨g, hanchor ▸ hg, fun hevidence => by simp [hmoney] at hevidence⟩
    · exact hnoted

theorem duplicateEvent_sound {rule : LinkRule} {c : Cand} {e : Event} (h : e.Sound env.facts.get?)
    (hf : env.Has f) (hmoney : f.evidenceOnly = false) :
    (duplicateEvent env rule f c e).Sound env.facts.get? := by
  refine h.extend (fun l _ => ?_) (fun l _ hnoted => ?_) (noted_of_money hf hmoney)
  · split_ifs <;> rfl
  · split_ifs
    · exact hnoted.imp fun g hg => hg.imp_right fun _ _ => .inl rfl
    · exact hnoted

theorem withNotice_sound {rule : LinkRule} {r : Fact} {e : Event} (h : e.Sound env.facts.get?)
    (hr : env.Has r) : (withNotice env rule e r).Sound env.facts.get? :=
  h.append (Fact.noted hr fun _ => .inl rfl)

theorem chargedEvent_sound {rule : LinkRule} {g m : Fact} {e : Event} (h : e.Sound env.facts.get?)
    (htakes : takesMandate env g e) (hm : env.Has m) :
    (chargedEvent env rule g m e).Sound env.facts.get? := by
  simp only [takesMandate, Bool.and_eq_true] at htakes
  obtain ⟨l', hfind, hrole⟩ := Option.map_eq_some_iff.mp (of_decide_eq_true htakes.1.2)
  have hid : l'.factId = g.factId := by simpa using List.find?_some hfind
  obtain ⟨x, hx, hnotice⟩ := h.legs l' (List.mem_of_find?_eq_some hfind)
  refine h.extend (fun l _ => ?_) (fun l _ hnoted => ?_) (Fact.noted hm fun _ => .inr rfl)
  · split_ifs with hsame
    · exact hsame.symm
    · rfl
  · split_ifs
    · refine ⟨x, hid ▸ hx, fun hevidence => ?_⟩
      have hcases := hnotice hevidence
      simp [hrole] at hcases
    · exact hnoted

theorem evidenceOnly_of_isHold {phase : HoldPhase} (h : f.isHold phase) : f.evidenceOnly = false := by
  unfold Fact.isHold at h
  unfold Fact.evidenceOnly
  cases hattrs : f.attrs <;> simp_all

/-- Where no receipt is joined as a loose fact, every branch keeps the events sound. -/
theorem JoinsOnly.allows (hf : env.Has f) (hs : s.Indexed env.Has)
    (hjoins : JoinsOnly (fun g => g.evidenceOnly = false) env s f) :
    Allows env (fun _ => True) (KeepsSound env) s f where
  incoming _ := trivial
  alone hapart _ _ _ _ _ := by
    refine alone_sound hf ?_
    rcases hapart with ⟨hjoins, -⟩ | ⟨choice, hchoice, -⟩
    · exact hjoins.2
    · exact hchoice.joins.2
  receipt _ _ _ rule _ _ e _ _ _ _ hold := withNotice_sound (hold e rfl) hf
  charges _ _ _ rule leg _ _ := by
    have hall : Passes (fun (_ : Run) (_ : Fact) => True)
        (fun s g => (.ok (chargeStep env rule leg s g) : Except Empty Run)) (s.done env f)
        (lateCharges env (s.done env f) rule f) := passes_of_forall (fun _ _ _ => trivial) _
    refine Passes.imp (fun g _ s hpass e c cs _ hcands htakes hold => ?_) (hall.and_invariant
      (Q := Run.Indexed env.Has) (fun s g s' _ hs hstep => ?_) (hs.done hf))
    · exact chargedEvent_sound (hold e rfl) htakes
        (mandateCandidates_fact hpass.1 (hcands ▸ List.mem_cons_self))
    · rw [← Except.ok.inj hstep]
      exact chargeStep_stable (stable_indexed hf) hs
  hold hhold rule e _ _ hold := (hold e rfl).append (noted_of_money hf (evidenceOnly_of_isHold hhold))
  refunds _ _ _ := passes_of_forall (fun _ _ _ _ e _ hold =>
    joinedEvent_sound (hold e rfl) (Fact.noted hf fun _ => .inr rfl)) _
  fees _ _ _ := passes_of_forall (fun _ _ _ e _ hold =>
    joinedEvent_sound (hold e rfl) (Fact.noted hf fun _ => .inr rfl)) _
  pair rule leg c cs hchoice hone := by
    have hmoney : f.evidenceOnly = false := hchoice.joins.2
    refine ⟨fun hloose => ⟨fun _ => ?_, fun _ => trivial⟩, fun e _ hold => ?_⟩
    · exact pairEvent_sound hf hmoney (hchoice.fact hf hs c List.mem_cons_self)
        (hjoins rule leg c cs hchoice hone hloose)
    · exact joinedEvent_sound (hold e rfl) (noted_of_money hf hmoney)
  duplicate hchoice _ rule c e _ _ hold := duplicateEvent_sound (hold e rfl) hf hchoice.joins.2
  notice _ s' id rule e r hmoney hnotice hold :=
    withNotice_sound (hold e rfl) (noticeOf_fact (takeMoney_stable (stable_indexed hf) hs hmoney) hnotice)

/-- Writes that keep events sound. -/
theorem Chain.sound {L : JsString → Prop} {t t' : Table} (h : Chain env L (KeepsSound env) t t')
    (ht : ∀ id e, t.events.get? id = some e → e.Sound env.facts.get?) :
    ∀ id e, t'.events.get? id = some e → e.Sound env.facts.get? := by
  refine h.induction (P := fun t => ∀ id e, t.events.get? id = some e → e.Sound env.facts.get?)
    (fun t e' ht hw id e he => ?_) ht
  rw [Table.put_events, InsertionMap.get?_set] at he
  split_ifs at he with hid
  · obtain rfl := Option.some.inj he
    rcases hw.related with hR | ⟨e, hold, -, hR⟩ | ⟨e, hold, -, rfl⟩
    · exact hR fun _ hnone => by simp at hnone
    · exact hR fun e₀ hsome => Option.some.inj hsome ▸ ht _ e hold
    · have hsound := ht _ e hold
      exact ⟨hsound.legs, hsound.first, hsound.anchor, hsound.amount⟩
  · exact ht id e he

end Steps

/-! ### Runs -/

/-- The stored fact with an id. -/
def Store.fact? (store : Store) (id : JsString) : Option Fact := store.facts.find? fun g => g.factId = id

theorem Store.fact?_eq_some {store : Store} (h : (store.facts.map Fact.factId).Nodup) {id : JsString}
    {f : Fact} : store.fact? id = some f ↔ f ∈ store.facts ∧ f.factId = id := by
  unfold fact?
  constructor
  · exact fun hfind => ⟨List.mem_of_find?_eq_some hfind, by simpa using List.find?_some hfind⟩
  · rintro ⟨hf, rfl⟩
    cases hfind : store.facts.find? fun g => g.factId = f.factId with
    | none =>
      have hno := List.find?_eq_none.mp hfind f hf
      simp at hno
    | some g =>
      have hsame : g.factId = f.factId := by simpa using List.find?_some hfind
      rw [eq_of_nodup h g (List.mem_of_find?_eq_some hfind) f hf hsame]

/-- The stored facts have ids of their own, and no receipt counts in a stored event. -/
structure Store.Sound (store : Store) : Prop where
  nodup : (store.facts.map Fact.factId).Nodup
  events : ∀ id e, store.events.get? id = some e → e.Sound store.fact?

/-- Receipts are notices or originals, anchor no event, and no amount comes from them. -/
structure Store.ReceiptsIdle (store : Store) : Prop where
  roles : ∀ f ∈ store.facts, f.evidenceOnly → ∀ id e, store.events.get? id = some e →
    ∀ l ∈ e.legs, l.factId = f.factId → l.role = .duplicateNotice ∨ l.role = .original
  first : ∀ f ∈ store.facts, f.evidenceOnly → ∀ id e, store.events.get? id = some e →
    e.factIds.head? ≠ some f.factId
  amounts : ∀ id e, store.events.get? id = some e →
    ∃ fs : List Fact, (∀ g ∈ fs, g ∈ store.facts ∧ g.evidenceOnly = false ∧ g.factId ∈ e.factIds) ∧
      e.amountMinor = (fs.map fun g => g.principal.getD 0).sum

section Runs

variable {store store' : Store}

theorem Store.Sound.receiptsIdle (h : store.Sound) : store.ReceiptsIdle where
  roles f hf hevidence id e he l hl hid := by
    obtain ⟨g, hg, hnotice⟩ := (h.events id e he).legs l hl
    obtain ⟨hmem, hsame⟩ := (Store.fact?_eq_some h.nodup).mp hg
    obtain rfl := eq_of_nodup h.nodup g hmem f hf (hsame.trans hid)
    exact hnotice hevidence
  first f hf hevidence id e he hhead := by
    have hsound := h.events id e he
    obtain ⟨g, hg, hmoney⟩ := hsound.anchor
    obtain ⟨hmem, hsame⟩ := (Store.fact?_eq_some h.nodup).mp hg
    rw [hsound.first] at hhead
    obtain rfl := eq_of_nodup h.nodup g hmem f hf (hsame.trans (Option.some.inj hhead))
    simp [hmoney] at hevidence
  amounts id e he := by
    obtain ⟨fs, hfs, hsum⟩ := (h.events id e he).amount
    refine ⟨fs, fun g hg => ?_, hsum⟩
    obtain ⟨hmoney, i, hi, hget⟩ := hfs g hg
    obtain ⟨hmem, rfl⟩ := (Store.fact?_eq_some h.nodup).mp hget
    exact ⟨hmem, hmoney, hi⟩

theorem nodup_apply {incoming : List Fact} {linker : Linker} {context : LinkContext}
    {rules : List LinkRule} {now : ℤ} (h : (store.facts.map Fact.factId).Nodup)
    (hnew : NewFacts store linker context rules now incoming) :
    ((store.facts ++ incoming).map Fact.factId).Nodup := by
  rw [List.map_append]
  refine List.Nodup.append h hnew.1 fun id hid hid' => ?_
  obtain ⟨f, hf, rfl⟩ := List.mem_map.mp hid'
  exact hnew.2 f hf hid

theorem Store.Sound.call (h : store.Sound)
    (hcall : Call (NewFactsJoin fun g => g.evidenceOnly = false) store store') : store'.Sound := by
  cases hcall with
  | link linker context rules now incoming result hholds hjoin hlink =>
    obtain ⟨s, hs, hresult⟩ := bind_eq_ok.mp hlink
    obtain rfl := Except.ok.inj hresult
    have hnodup := nodup_apply h.nodup hjoin.1
    -- the facts of the call are those stored after it
    have hfacts : (linker.env context rules now incoming).facts.get? = (store.apply incoming
        (s.result (linker.env context rules now incoming))).fact? := by
      refine funext fun id => Option.ext fun f => ?_
      rw [get?_facts hholds h.nodup hjoin.1, Store.fact?_eq_some hnodup]
      rfl
    have hallow : LinkAllows (fun _ => True) (KeepsSound (linker.env context rules now incoming))
        linker context rules now incoming := by
      refine ⟨Passes.imp (fun f hf s hpass hfree => ?_) (passes_has hholds h.nodup hjoin.1 hjoin.2),
        fun s hs => passes_of_forall (fun m hm t e _ hold => ?_) s⟩
      · exact (hpass.2 hfree).allows (has_of_mem_arrivals hholds h.nodup hjoin.1 hf) hpass.1
      · have hm := (linkSteps_has hholds h.nodup hjoin.1 hs).pendingIpoMandates m hm
        exact (hold e rfl).append (Fact.noted hm fun _ => .inr rfl)
    have hchain := linked_chain hallow hs
    refine ⟨hnodup, fun id e he => ?_⟩
    rw [hholds.get?_apply hchain] at he
    rw [← hfacts]
    refine hchain.sound (fun id e he => ?_) id e he
    rw [hholds.get?_table] at he
    refine (h.events id e he).mono fun id g hg => ?_
    obtain ⟨hmem, hid⟩ := (Store.fact?_eq_some h.nodup).mp hg
    exact (get?_facts hholds h.nodup hjoin.1).mpr ⟨List.mem_append_left _ hmem, hid⟩
  | expire linker context rules now hholds =>
    have hchain := expired_chain linker context rules now (L := fun _ => True)
      (R := KeepsSound (linker.env context rules now []))
    have hnew : NewFacts store linker context rules now [] := ⟨List.nodup_nil, List.forall_mem_nil _⟩
    have hfacts : (linker.env context rules now []).facts.get? = store.fact? := by
      refine funext fun id => Option.ext fun f => ?_
      rw [get?_facts hholds h.nodup hnew, List.append_nil, Store.fact?_eq_some h.nodup]
    have hsame : (store.apply [] (linker.expire context rules now)).fact? = store.fact? := by
      unfold Store.fact? Store.apply
      rw [List.append_nil]
    refine ⟨nodup_apply h.nodup hnew, fun id e he => ?_⟩
    have he := (hholds.get?_apply hchain id).symm.trans he
    rw [hsame, ← hfacts]
    refine hchain.sound (fun id e he => ?_) id e he
    rw [hholds.get?_table] at he
    exact hfacts ▸ h.events id e he

end Runs

/-- An empty store and the context of a call on it. -/
theorem holds_empty : (contextOf [] []).Holds {} where
  facts _ := Iff.rfl
  events := ⟨{ knownEvents := [] }, rfl, fun e => by simp⟩
  openEvents _ he := by simp [contextOf] at he

/-- A receipt for the payment of a card bill from a bank account. -/
def billReceipt : Fact where
  factId := js "receipt"
  sourceKey := js "app:receipt"
  observedAt := 1000
  instrument := some (bankAccount "1111")
  amounts := [⟨.posted, 25000, js "INR", none⟩]
  ruleId := js "bill-receipt"
  attrs := .movement .debit .cardPayment none (some true)

/-- The credit on the card. -/
def billCredit : Fact where
  factId := js "credit"
  sourceKey := js "card:credit"
  observedAt := 2000
  instrument := some { kind := some .creditCard, maskDigits := some (js "9999") }
  amounts := [⟨.posted, 25000, js "INR", none⟩]
  ruleId := js "card-credit"
  attrs := .movement .credit .cardPayment none none

/-- The event of the receipt and the credit. -/
def billEvent : Event where
  eventId := js "receipt"
  type := .cardBillPayment
  status := .complete
  legs := [⟨js "receipt", .debitLeg⟩, ⟨js "credit", .creditLeg⟩]
  linkRuleId := some (js "LINK-CARD-BILL")
  confidence := 1
  occurredAt := 1000
  amountMinor := 25000

end PandaPay.SmsV2
