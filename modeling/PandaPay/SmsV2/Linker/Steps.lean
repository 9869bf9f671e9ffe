import PandaPay.SmsV2.Linker.Writes
import PandaPay.Library.Checked

/-!
# Steps are chains of writes

Processing a fact is a chain of the writes of `Write`, provided that the facts and events it comes
across are allowed.

## Main definitions

* `Allows env L R s f`: the branches that processing `f` in the state `s` may take

## Main results

* `linkStep_chain`, `attachIpoMandates_chain`, `expireStep_chain`
-/

namespace PandaPay.SmsV2

section Late

variable {env : Env} {L : JsString → Prop} {R : Option Event → Event → Prop} {s : Run}

/-! ### Late originals -/

/-- The facts of a list are legs of events that may change. -/
def AllOpenLegs (t : Table) (found : List Fact) : Prop :=
  ∀ g ∈ found, ∃ e, t.eventOf g = some e ∧ isLocked e = false

/-- A fact that takes the fact `f` as its `original`: `f` itself stays as free as it was. -/
theorem joinOriginal_chain {rule : LinkRule} {f g : Fact} {role : LegRole} (hs : s.WellFormed)
    (hL : L f.factId) (hrole : role ≠ .original) (hopen : ∃ e, s.eventOf g = some e ∧ isLocked e = false)
    (hR : ∀ e, s.eventOf g = some e →
      R (some e) (joinedEvent env rule .original f ⟨some e.eventId, g, role⟩ e)) :
    ∃ e c, s.eventOf g = some e ∧ c.fact = g ∧
      (joinOriginal env rule f role s g).toTable =
        s.toTable.put (joinedEvent env rule .original f c e) ∧
      Write env L R s.toTable (joinedEvent env rule .original f c e) := by
  obtain ⟨e, he, hlocked⟩ := hopen
  obtain ⟨id, hmapped, hid⟩ := eventOf_eq_some he
  have hname : e.eventId = id := hs.named hid
  subst hname
  refine ⟨e, ⟨some e.eventId, g, role⟩, he, rfl, ?_, ?_⟩
  · simp only [joinOriginal, hmapped]
    exact join_toTable_of_event rfl hid
  · exact Write.joined rule .original f _ e hmapped hid hlocked hrole hL (fun h => absurd rfl h)
      (hR e he)

/-- The state of a loop that joins an `original` to several events. -/
structure LateState (env : Env) (L : JsString → Prop) (R : Option Event → Event → Prop) (t₀ : Table)
    (f : Fact) (found : List Fact) (t : Table) : Prop where
  chain : Chain env L R t₀ t
  wellFormed : t.WellFormed
  open_ : AllOpenLegs t found
  free : t₀.eventOfFact.get? f.factId = none → t.eventOfFact.get? f.factId = none

theorem LateState.joinOriginal {t₀ : Table} {rule : LinkRule} {f g : Fact} {found : List Fact}
    {role : LegRole} (h : LateState env L R t₀ f found s.toTable) (hg : g ∈ found) (hL : L f.factId)
    (hrole : role ≠ .original) (hR : ∀ e, s.eventOf g = some e →
      R (some e) (joinedEvent env rule .original f ⟨some e.eventId, g, role⟩ e)) :
    LateState env L R t₀ f found (joinOriginal env rule f role s g).toTable := by
  obtain ⟨e, c, he, hc, htable, hwrite⟩ :=
    joinOriginal_chain h.wellFormed hL hrole (h.open_ g hg) hR
  obtain ⟨id, hmapped, hid⟩ := eventOf_eq_some he
  have hname : e.eventId = id := h.wellFormed.named hid
  rw [htable]
  refine ⟨h.chain.trans (.put hwrite), h.wellFormed.put _, fun g' hg' => ?_, fun hfree => ?_⟩
  · obtain ⟨e', he', hlocked⟩ := h.open_ g' hg'
    obtain ⟨id', hmapped', hid'⟩ := eventOf_eq_some he'
    by_cases hsame : id' = id
    · refine ⟨joinedEvent env rule .original f c e, ?_, not_isLocked_joinedEvent rule .original f c e⟩
      refine Option.bind_eq_some_iff.mpr ⟨id', Table.get?_put_of_some hmapped', ?_⟩
      rw [Table.put_events, hsame, ← hname]
      exact InsertionMap.get?_set_self _ _ _
    · refine ⟨e', Option.bind_eq_some_iff.mpr ⟨id', Table.get?_put_of_some hmapped', ?_⟩, hlocked⟩
      rw [Table.put_events, joinedEvent_eventId,
        InsertionMap.get?_set_of_ne _ _ fun heq => hsame (heq.trans hname)]
      exact hid'
  · refine Table.get?_put_eq_none (h.free hfree) fun hcounts => ?_
    rcases counts_joinedEvent hcounts with hcounts | heq | ⟨-, hno⟩
    · exact h.wellFormed.mapped hid hcounts (h.free hfree)
    · rw [hc] at heq
      rw [← heq, h.free hfree] at hmapped
      simp at hmapped
    · exact hno rfl

/-- What a loop over late facts asks of `R`. -/
def JoinsAllow (env : Env) (R : Option Event → Event → Prop) (rule : LinkRule) (f : Fact)
    (role : LegRole) (s : Run) (g : Fact) : Prop :=
  ∀ e, s.eventOf g = some e →
    R (some e) (joinedEvent env rule .original f ⟨some e.eventId, g, role⟩ e)

end Late

/-! ### What is allowed -/

/-- A movement or a hold that is no receipt: the facts that make events. -/
def Fact.Joins (f : Fact) : Prop :=
  (f.factType = .movement ∨ f.factType = .hold) ∧ f.evidenceOnly = false

/-- `f` is the debit of a receipt the user confirmed. -/
def Funded (env : Env) (s : Run) (f : Fact) : Prop :=
  f.direction? = some .debit ∧ (lateFundingDebit env s f).isSome

/-- Processing `f` gets to the late originals and the pair rules. -/
structure Searches (env : Env) (s : Run) (f : Fact) : Prop where
  joins : f.Joins
  notFunded : ¬ Funded env s f
  noLateHold : lateHold env s f = none

/-- What the pair rules have for `f`. -/
structure PairChoice (env : Env) (s : Run) (f : Fact)
    (choice : Option (LinkRule × LinkLeg × List Cand)) : Prop extends Searches env s f where
  choice : firstPair env (takeLate env s f) f (pairLegs env f) = .ok choice

/-- `f` gets an event of its own: it is the debit of a confirmed receipt, or it has several candidates,
or none. -/
def Apart (env : Env) (s : Run) (f : Fact) : Prop :=
  (f.Joins ∧ Funded env s f) ∨ ∃ choice, PairChoice env s f choice ∧
    match choice with
    | some (rule, _, list) => rule.kind ≠ .mandateCharge ∧ 2 ≤ list.length
    | none => ∀ rule c, firstDuplicate env (takeLate env s f) f env.rules = some (rule, [c]) →
        f.isMovement = false

/-- The branches that processing `f` in the state `s` may take: the facts in `L` may become legs, and
`R` relates what an event was to what it becomes. -/
structure Allows (env : Env) (L : JsString → Prop) (R : Option Event → Event → Prop) (s : Run)
    (f : Fact) : Prop where
  incoming : f.Joins → L f.factId
  alone : Apart env s f → ∀ role type status ruleId,
    R none (env.build f.factId type status [⟨f.factId, role⟩] ruleId)
  receipt : f.evidenceOnly → f.direction? = some .debit → env.isPartialWalletFact f = false →
    ∀ rule a c e, env.firstOf .receipt = some rule → f.principal = some a →
      receiptCandidates env s rule f a = [c] → c.eventId.bind s.events.get? = some e →
      R (some e) (withNotice env rule e f)
  charges : f.factType = .mandate → f.isIpoMandate = false → f.isSipOrLoan = false →
    ∀ rule leg, env.firstOf .mandateCharge = some rule → rule.legOf .charge = some leg →
      Passes (fun s g => ∀ e c cs, s.eventOf g = some e → mandateCandidates env s rule g = c :: cs →
          takesMandate env g e → R (some e) (chargedEvent env rule g c.fact e))
        (fun s g => (.ok (chargeStep env rule leg s g) : Except Empty Run)) (s.done env f)
        (lateCharges env (s.done env f) rule f)
  hold : f.isHold .placed → ∀ rule e, env.firstOf .ipo = some rule →
    holdBase env s rule f = some e → R (some e) (heldEvent env rule f e)
  refunds : Searches env s f → ∀ rule, env.firstOf .refund = some rule →
    Passes (fun s g => env.pairOk s.refunded rule .original f .reversal g →
        JoinsAllow env R rule f .reversal s g)
      (fun s g => (.ok (refundStep env rule f s g) : Except Empty Run)) s (lateRefunds env s rule f)
  fees : Searches env s f → ∀ rule, env.firstOf .feeCharge = some rule →
    Passes (JoinsAllow env R rule f .charge)
      (fun s g => (.ok (joinOriginal env rule f .charge s g) : Except Empty Run))
      (lateOriginal env s f) (lateFees env (lateOriginal env s f) rule f)
  pair : ∀ rule leg c cs, PairChoice env s f (some (rule, leg, c :: cs)) →
    (cs = [] ∨ rule.kind = .mandateCharge) →
    (c.eventId = none → R none (pairEvent env rule leg.role f c) ∧
      (c.role ≠ .original → L c.fact.factId)) ∧
    ∀ e, c.eventId.bind (takeLate env s f).events.get? = some e →
      R (some e) (joinedEvent env rule leg.role f c e)
  duplicate : PairChoice env s f none → f.isMovement → ∀ rule c e,
    firstDuplicate env (takeLate env s f) f env.rules = some (rule, [c]) →
    c.eventId.bind (takeLate env s f).events.get? = some e →
    R (some e) (duplicateEvent env rule f c e)
  notice : f.Joins → ∀ s' id rule e r, takeMoney env s f = .ok (s', some id) →
    noticeOf env s' f id = some (rule, e, r) → R (some e) (withNotice env rule e r)

/-- What is asked where only new events and new legs are restricted. -/
structure NewAllows (env : Env) (L : JsString → Prop) (R : Option Event → Event → Prop) (s : Run)
    (f : Fact) : Prop where
  incoming : f.Joins → L f.factId
  alone : Apart env s f → ∀ role type status ruleId,
    R none (env.build f.factId type status [⟨f.factId, role⟩] ruleId)
  pair : ∀ rule leg c cs, PairChoice env s f (some (rule, leg, c :: cs)) →
    (cs = [] ∨ rule.kind = .mandateCharge) → c.eventId = none →
    R none (pairEvent env rule leg.role f c) ∧ (c.role ≠ .original → L c.fact.factId)

theorem NewAllows.allows {env : Env} {L : JsString → Prop} {R : Option Event → Event → Prop} {s : Run}
    {f : Fact} (h : NewAllows env L R s f) (hR : ∀ e e', R (some e) e') : Allows env L R s f where
  incoming := h.incoming
  alone := h.alone
  receipt _ _ _ _ _ _ e _ _ _ _ := hR e _
  charges _ _ _ _ _ _ _ := passes_of_forall (fun _ _ _ e _ _ _ _ _ => hR e _) _
  hold _ _ e _ _ := hR e _
  refunds _ _ _ := passes_of_forall (fun _ _ _ _ e _ => hR e _) _
  fees _ _ _ := passes_of_forall (fun _ _ _ e _ => hR e _) _
  pair rule leg c cs hchoice hone := ⟨h.pair rule leg c cs hchoice hone, fun e _ => hR e _⟩
  duplicate _ _ _ _ e _ _ := hR e _
  notice _ _ _ _ e _ _ _ := hR e _

section Steps

variable {env : Env} {L : JsString → Prop} {R : Option Event → Event → Prop} {s : Run} {f : Fact}

@[simp] theorem done_toTable : (s.done env f).toTable = s.toTable := by
  unfold Run.done Run.index
  dsimp only
  split_ifs <;> rfl

theorem lateOriginal_state (hs : s.WellFormed) (hallow : Allows env L R s f)
    (hsearch : Searches env s f) :
    Chain env L R s.toTable (lateOriginal env s f).toTable ∧
      (s.eventOfFact.get? f.factId = none →
        (lateOriginal env s f).eventOfFact.get? f.factId = none) := by
  unfold lateOriginal
  cases hrule : env.firstOf .refund with
  | none => exact ⟨.refl, id⟩
  | some rule =>
    have hloop : LateState env L R s.toTable f (lateRefunds env s rule f)
        ((lateRefunds env s rule f).foldl (refundStep env rule f) s).toTable := by
      refine foldl_of_passes (Q := fun s : Run => LateState env L R _ f _ s.toTable)
        (fun s g hg hstate hpass => ?_)
        ⟨.refl, hs, fun g hg => eventOf_of_mem_lateRefunds hg, id⟩ (hallow.refunds hsearch rule hrule)
      unfold refundStep
      split_ifs with hpair
      · exact hstate.joinOriginal hg (hallow.incoming hsearch.joins) (by decide) (hpass hpair)
      · exact hstate
    exact ⟨hloop.chain, hloop.free⟩

theorem takeLate_state (hs : s.WellFormed) (hallow : Allows env L R s f)
    (hsearch : Searches env s f) :
    Chain env L R s.toTable (takeLate env s f).toTable ∧
      (s.eventOfFact.get? f.factId = none →
        (takeLate env s f).eventOfFact.get? f.factId = none) := by
  unfold takeLate
  split_ifs
  · obtain ⟨hchain, hfree⟩ := lateOriginal_state hs hallow hsearch
    unfold lateFeeOriginal
    cases hrule : env.firstOf .feeCharge with
    | none => exact ⟨hchain, hfree⟩
    | some rule =>
      have hloop : LateState env L R (lateOriginal env s f).toTable f
          (lateFees env (lateOriginal env s f) rule f) ((lateFees env (lateOriginal env s f) rule f).foldl
            (joinOriginal env rule f .charge) (lateOriginal env s f)).toTable := by
        refine foldl_of_passes (Q := fun s : Run => LateState env L R _ f _ s.toTable)
          (fun s g hg hstate hpass => ?_)
          ⟨.refl, hchain.wellFormed hs, fun g hg => eventOf_of_mem_lateFees hg, id⟩
          (hallow.fees hsearch rule hrule)
        exact hstate.joinOriginal hg (hallow.incoming hsearch.joins) (by decide) hpass
      exact ⟨hchain.trans hloop.chain, fun h => hloop.free (hfree h)⟩
  · exact ⟨.refl, id⟩

/-! ### Money -/

theorem role_ne_original_of_standsAlone {rule : LinkRule} {role : LegRole}
    (h : env.standsAlone rule role f = true) : role ≠ .original := by
  rintro rfl
  unfold Env.standsAlone at h
  split at h <;> simp at h

theorem role_ne_original_of_fallback {type : EventType} {role : LegRole} {status : EventStatus}
    (h : env.fallback f = some (type, role, status)) : role ≠ .original := by
  rintro rfl
  unfold Env.fallback at h
  split at h
  · dsimp only at h
    split_ifs at h <;> simp at h
  · split_ifs at h
    split at h <;> simp at h
  · simp at h

/-- A movement that is no receipt always makes an event. -/
theorem fallback_ne_none (hmovement : f.isMovement) (hmoney : f.evidenceOnly = false) :
    env.fallback f ≠ none := by
  unfold Fact.isMovement Fact.factType at hmovement
  unfold Fact.evidenceOnly at hmoney
  unfold Env.fallback
  cases hattrs : f.attrs with
  | movement direction purpose mandateRef evidenceOnly =>
    rw [hattrs] at hmoney
    have hmoney : evidenceOnly ≠ some true := by simpa using hmoney
    simp only [if_neg hmoney]
    split_ifs <;> nofun
  | _ => simp [hattrs] at hmovement

theorem mem_pairLegs {rule : LinkRule} {leg : LinkLeg} (h : (rule, leg) ∈ pairLegs env f) :
    leg.role ≠ .original := by
  obtain ⟨rule', -, hleg⟩ := List.mem_flatMap.mp h
  obtain ⟨leg', hleg', heq⟩ := List.mem_map.mp hleg
  obtain ⟨rfl, rfl⟩ : rule' = rule ∧ leg' = leg := by simpa using heq
  have hkeep := (List.mem_filter.mp hleg').2
  simp only [Bool.and_eq_true, decide_eq_true_eq] at hkeep
  exact hkeep.1

theorem firstPair_fits {legs : List (LinkRule × LinkLeg)} {rule : LinkRule} {leg : LinkLeg}
    {list : List Cand} (h : firstPair env s f legs = .ok (some (rule, leg, list))) :
    (rule, leg) ∈ legs ∧ list ≠ [] ∧ ∀ c ∈ list, c.Fits s.toTable := by
  induction legs with
  | nil => simp [firstPair] at h
  | cons head legs ih =>
    unfold firstPair at h
    obtain ⟨cands, hcands, h⟩ := bind_eq_ok.mp h
    split_ifs at h with hnil
    · exact (ih h).imp_left (List.mem_cons_of_mem _)
    · obtain ⟨rfl, rfl, rfl⟩ : head.1 = rule ∧ head.2 = leg ∧ narrow env s head.1 f cands = list := by
        simpa using h
      exact ⟨List.mem_cons_self, narrow_ne_nil hnil,
        fun c hc => candidates_fits hcands (mem_of_mem_narrow hc)⟩

theorem firstDuplicate_open {rules : List LinkRule} {rule : LinkRule} {list : List Cand}
    (h : firstDuplicate env s f rules = some (rule, list)) : ∀ c ∈ list,
    ∃ e l, c.Of s.toTable e ∧ l ∈ e.legs ∧ l.factId = c.fact.factId ∧ l.role = c.role ∧
      c.role ∈ [.debitLeg, .charge, .creditLeg] := by
  induction rules with
  | nil => simp [firstDuplicate] at h
  | cons head rules ih =>
    unfold firstDuplicate at h
    dsimp only at h
    split_ifs at h
    · exact ih h
    · obtain ⟨rfl, rfl⟩ : head = rule ∧ narrow env s head f _ = list := by simpa using h
      exact fun c hc => duplicateCandidates_open (mem_of_mem_narrow hc)

theorem ambiguous_toTable {rule : LinkRule} {role : LegRole} {cands : List Cand} :
    ∃ type, (ambiguous env s rule role f cands).1.toTable =
      s.toTable.put (env.build f.factId type .ambiguous [⟨f.factId, role⟩] (some rule.id)) :=
  ⟨_, rfl⟩

theorem join_takes {rule : LinkRule} {role : LegRole} {c : Cand} (hs : s.WellFormed)
    (hL : L f.factId) (hfree : s.eventOfFact.get? f.factId = none) (hrole : role ≠ .original)
    (hc : c.Fits s.toTable)
    (hloose : c.eventId = none → R none (pairEvent env rule role f c) ∧
      (c.role ≠ .original → L c.fact.factId))
    (hR : ∀ e, c.eventId.bind s.events.get? = some e → R (some e) (joinedEvent env rule role f c e)) :
    Takes env L R f s.toTable (join env s rule role f c).1.toTable := by
  cases hid : c.eventId with
  | none =>
    rw [join_toTable_of_fact hid]
    obtain ⟨hpair, hlegs⟩ := hloose hid
    refine .put (.pair rule role f c hL hrole hfree (fun h => ⟨hlegs h, hc.2 hid h⟩) hpair) ?_
    refine ⟨⟨f.factId, role⟩, ?_, rfl, hrole⟩
    unfold pairEvent pairLegsOf
    split_ifs <;> simp
  | some id =>
    obtain ⟨hother, e, he⟩ := hc.1 id hid
    have hknown := he.known
    have hmapped := he.mapped
    rw [hid] at hknown hmapped
    have hname : e.eventId = id := hs.named hknown
    rw [join_toTable_of_event hid hknown]
    refine .put (.joined rule role f c e ?_ ?_ he.open_ hother hL (fun _ => hfree)
      (hR e he.known)) ⟨⟨f.factId, role⟩, List.mem_append_right _ (List.mem_singleton_self _), rfl, hrole⟩
    · rw [hname]
      exact hmapped
    · rw [hname]
      exact hknown

/-- What an event of one leg asks to be allowed. -/
def AloneAllows (env : Env) (R : Option Event → Event → Prop) (f : Fact) : Prop :=
  ∀ role type status ruleId, R none (env.build f.factId type status [⟨f.factId, role⟩] ruleId)

theorem alone_takes {role : LegRole} {type : EventType} {status : EventStatus}
    {ruleId : Option JsString} (hL : L f.factId) (hfree : s.eventOfFact.get? f.factId = none)
    (hrole : role ≠ .original) (hR : AloneAllows env R f) :
    Takes env L R f s.toTable
      (s.toTable.put (env.build f.factId type status [⟨f.factId, role⟩] ruleId)) :=
  .put (.alone f role type status ruleId hL hrole hfree (hR role type status ruleId))
    ⟨⟨f.factId, role⟩, List.mem_singleton_self _, rfl, hrole⟩

theorem ambiguous_takes {rule : LinkRule} {role : LegRole} {cands : List Cand} (hL : L f.factId)
    (hfree : s.eventOfFact.get? f.factId = none) (hrole : role ≠ .original)
    (hR : AloneAllows env R f) :
    Takes env L R f s.toTable (ambiguous env s rule role f cands).1.toTable := by
  obtain ⟨type, htable⟩ := @ambiguous_toTable env s f rule role cands
  rw [htable]
  exact alone_takes hL hfree hrole hR

/-- What a pair rule asks to be allowed. -/
def PairAllows (env : Env) (L : JsString → Prop) (R : Option Event → Event → Prop) (s : Run)
    (f : Fact) (rule : LinkRule) (role : LegRole) (c : Cand) : Prop :=
  (c.eventId = none → R none (pairEvent env rule role f c) ∧
    (c.role ≠ .original → L c.fact.factId)) ∧
  ∀ e, c.eventId.bind s.events.get? = some e → R (some e) (joinedEvent env rule role f c e)

theorem takePair_takes {rule : LinkRule} {leg : LinkLeg} {list : List Cand} (hs : s.WellFormed)
    (hL : L f.factId) (hfree : s.eventOfFact.get? f.factId = none) (hrole : leg.role ≠ .original)
    (hnil : list ≠ []) (hfits : ∀ c ∈ list, c.Fits s.toTable)
    (hallow : ∀ c cs, list = c :: cs → (cs = [] ∨ rule.kind = .mandateCharge) →
      PairAllows env L R s f rule leg.role c)
    (halone : rule.kind ≠ .mandateCharge → 2 ≤ list.length → AloneAllows env R f) :
    Takes env L R f s.toTable (takePair env s f rule leg list).1.toTable := by
  have hjoin {c : Cand} {cs : List Cand} (hlist : list = c :: cs)
      (hone : cs = [] ∨ rule.kind = .mandateCharge) :
      Takes env L R f s.toTable (join env s rule leg.role f c).1.toTable :=
    join_takes hs hL hfree hrole (hfits c (hlist ▸ List.mem_cons_self))
      (hallow c cs hlist hone).1 (hallow c cs hlist hone).2
  unfold takePair
  match list with
  | [] => exact absurd rfl hnil
  | [c] => exact hjoin rfl (.inl rfl)
  | c :: c' :: cs =>
    dsimp only
    split_ifs with hkind
    · exact hjoin rfl (.inr hkind)
    · exact ambiguous_takes hL hfree hrole (halone hkind (by simp))

theorem takeDuplicate_takes {rule : LinkRule} {list : List Cand} (hs : s.WellFormed)
    (hL : L f.factId) (hfree : s.eventOfFact.get? f.factId = none)
    (hopen : ∀ c ∈ list, ∃ e l, c.Of s.toTable e ∧ l ∈ e.legs ∧ l.factId = c.fact.factId ∧
      l.role = c.role ∧ c.role ∈ [.debitLeg, .charge, .creditLeg])
    (hR : ∀ c e, list = [c] → c.eventId.bind s.events.get? = some e →
      R (some e) (duplicateEvent env rule f c e))
    (halone : (∀ c, list ≠ [c]) → AloneAllows env R f) :
    Takes env L R f s.toTable (takeDuplicate env s f rule list).toTable := by
  unfold takeDuplicate
  split
  next c =>
    obtain ⟨e, l, hof, -, -, -, hrole⟩ := hopen c List.mem_cons_self
    obtain ⟨id, hid, hknown⟩ := Option.bind_eq_some_iff.mp hof.known
    have hname : e.eventId = id := hs.named hknown
    have hmapped := hof.mapped
    rw [hid] at hmapped
    simp only [joinDuplicate, hof.known]
    refine .put (.duplicate rule f c e hL hfree ?_ ?_ hof.open_ hrole (hR c e rfl hof.known))
      ⟨_, List.mem_append_right _ (List.mem_singleton_self _), rfl, ?_⟩
    · rw [hname]
      exact hmapped
    · rw [hname]
      exact hknown
    · dsimp only
      split_ifs
      · rintro horiginal
        rw [horiginal] at hrole
        simp at hrole
      · intro horiginal
        cases horiginal
  next hno => exact ambiguous_takes hL hfree (by split_ifs <;> decide) (halone hno)

theorem takeUnpaired_takes (hmoney : f.evidenceOnly = false) (hs : s.WellFormed) (hL : L f.factId)
    (hfree : s.eventOfFact.get? f.factId = none)
    (hR : f.isMovement → ∀ rule c e, firstDuplicate env s f env.rules = some (rule, [c]) →
      c.eventId.bind s.events.get? = some e → R (some e) (duplicateEvent env rule f c e))
    (halone : (∀ rule c, firstDuplicate env s f env.rules = some (rule, [c]) →
      f.isMovement = false) → AloneAllows env R f) :
    Takes env L R f s.toTable (takeUnpaired env s f).1.toTable := by
  unfold takeUnpaired
  split
  next rule list hdup =>
    split_ifs at hdup with hmovement
    refine takeDuplicate_takes hs hL hfree (firstDuplicate_open hdup)
      (fun c e hlist he => hR hmovement rule c e (hlist ▸ hdup) he) fun hno => halone fun rule' c hone => ?_
    rw [hdup] at hone
    exact absurd (congrArg Prod.snd (Option.some.inj hone)) (hno c)
  next hdup =>
    have halone : AloneAllows env R f := halone fun rule c hone => by
      split_ifs at hdup with hmovement
      · rw [hdup] at hone
        simp at hone
      · simpa using hmovement
    split
    next rule leg hfirst =>
      have hstands := List.find?_some hfirst
      simp only [Bool.and_eq_true] at hstands
      have hrole := role_ne_original_of_standsAlone hstands.2
      unfold takeAlone
      dsimp only
      split_ifs
      all_goals exact alone_takes hL hfree hrole halone
    next =>
      unfold takeFallback
      split
      next hfallback =>
        exact ⟨.refl, fun hmovement => absurd hfallback (fallback_ne_none hmovement hmoney)⟩
      next type role status hfallback =>
        exact alone_takes hL hfree (role_ne_original_of_fallback hfallback) halone

/-- Only a movement or a hold that is no receipt is processed for its money. -/
theorem takeMoney_takes {s' : Run} {id : Option JsString} (hs : s.WellFormed)
    (hallow : Allows env L R s f) (hfree : s.eventOfFact.get? f.factId = none)
    (hjoins : f.Joins) (h : takeMoney env s f = .ok (s', id)) :
    Takes env L R f s.toTable s'.toTable := by
  have hL : L f.factId := hallow.incoming hjoins
  unfold takeMoney at h
  split at h
  next t ht =>
    obtain ⟨rfl, -⟩ : t = s' ∧ none = id := by simpa [pure_eq_ok] using h
    split_ifs at ht with hdebit
    have halone := hallow.alone (.inl ⟨hjoins, hdebit, by simp [ht]⟩)
    unfold lateFundingDebit at ht
    split at ht
    · split_ifs at ht
      rw [← Option.some.inj ht]
      exact alone_takes hL hfree (by decide) halone
    · simp at ht
  next hnone =>
    split at h
    next t ht =>
      obtain ⟨rfl, -⟩ : t = s' ∧ none = id := by simpa [pure_eq_ok] using h
      unfold lateHold at ht
      split_ifs at ht with hplaced
      split at ht
      · simp at ht
      next rule hrule =>
        obtain ⟨e, he, rfl⟩ := Option.map_eq_some_iff.mp ht
        obtain ⟨hlocked, id', hid'⟩ := holdBase_eq_some he
        have hname : e.eventId = id' := hs.named hid'
        refine .put (.held rule f e hL hfree (hname ▸ hid') hlocked
          (hallow.hold (by simpa using hplaced) rule e hrule he))
          ⟨_, List.mem_append_right _ (List.mem_singleton_self _), rfl, ?_⟩
        intro horiginal
        cases horiginal
    next hhold =>
      have hsearch : Searches env s f := by
        refine ⟨hjoins, ?_, hhold⟩
        rintro ⟨hdebit, hsome⟩
        rw [if_pos hdebit] at hnone
        simp [hnone] at hsome
      obtain ⟨hlate, hkeep⟩ := takeLate_state hs hallow hsearch
      have hs' := hlate.wellFormed hs
      refine .before hlate ?_
      obtain ⟨choice, hchoice, h⟩ := bind_eq_ok.mp h
      split at h
      next rule leg list =>
        obtain ⟨hmem, hnil, hfits⟩ := firstPair_fits hchoice
        obtain rfl : (takePair env (takeLate env s f) f rule leg list).1 = s' :=
          congrArg Prod.fst (Except.ok.inj h)
        refine takePair_takes hs' hL (hkeep hfree) (mem_pairLegs hmem) hnil hfits
          (fun c cs hlist hone => ?_) fun hkind hlength => ?_
        · exact hallow.pair rule leg c cs ⟨hsearch, hlist ▸ hchoice⟩ hone
        · exact hallow.alone (.inr ⟨_, ⟨hsearch, hchoice⟩, hkind, hlength⟩)
      next =>
        obtain rfl : (takeUnpaired env (takeLate env s f) f).1 = s' :=
          congrArg Prod.fst (Except.ok.inj h)
        exact takeUnpaired_takes hjoins.2 hs' hL (hkeep hfree)
          (hallow.duplicate ⟨hsearch, hchoice⟩) fun hno =>
            hallow.alone (.inr ⟨_, ⟨hsearch, hchoice⟩, hno⟩)

theorem processMoney_takes {s' : Run} (hs : s.WellFormed) (hallow : Allows env L R s f)
    (hfree : s.eventOfFact.get? f.factId = none) (hjoins : f.Joins)
    (h : processMoney env s f = .ok s') : Takes env L R f s.toTable s'.toTable := by
  obtain ⟨⟨t, id⟩, ht, h⟩ := bind_eq_ok.mp h
  have htakes := takeMoney_takes hs hallow hfree hjoins ht
  rw [← Except.ok.inj h, done_toTable]
  cases id with
  | none => exact htakes
  | some id =>
    refine htakes.after ?_
    dsimp only
    unfold afterMoney
    split
    next rule e r hnotice =>
      obtain ⟨he, hlocked, -, hlegs, hr⟩ := noticeOf_eq_some hnotice
      have hname : e.eventId = id := (htakes.chain.wellFormed hs).named he
      exact .put (.notice rule e r hr (hname ▸ he) hlocked hlegs (hallow.notice hjoins t id rule e r ht hnotice))
    next => exact .refl

/-! ### Receipts and mandates -/

theorem processReceipt_chain (hs : s.WellFormed) (hallow : Allows env L R s f)
    (hfree : s.eventOfFact.get? f.factId = none) (hevidence : f.evidenceOnly)
    (hdebit : f.direction? = some .debit) :
    Chain env L R s.toTable (processReceipt env s f).toTable := by
  unfold processReceipt
  split_ifs with hwallet
  · exact .refl
  · split
    next rule a hrule ha =>
      split
      · exact .refl
      next c hone =>
        split
        next e he =>
          obtain ⟨e', l, hof, hl, -⟩ := receiptCandidates_open (hone ▸ List.mem_cons_self)
          obtain ⟨id, -, hid⟩ := Option.bind_eq_some_iff.mp he
          have hname : e.eventId = id := hs.named hid
          have hsame : e' = e := Option.some.inj (hof.known.symm.trans he)
          exact .put (.notice rule e f hfree (hname ▸ hid) (hsame ▸ hof.open_)
            (List.ne_nil_of_mem (hsame ▸ hl))
            (hallow.receipt hevidence hdebit (by simpa using hwallet) rule a c e hrule ha hone he))
        next => exact .refl
      next => exact .refl
    next => exact .refl

theorem lateMandate_chain (hs : s.WellFormed)
    (hR : f.isIpoMandate = false → f.isSipOrLoan = false → ∀ rule leg, env.firstOf .mandateCharge = some rule → rule.legOf .charge = some leg →
      Passes (fun s g => ∀ e c cs, s.eventOf g = some e → mandateCandidates env s rule g = c :: cs →
          takesMandate env g e → R (some e) (chargedEvent env rule g c.fact e))
        (fun s g => (.ok (chargeStep env rule leg s g) : Except Empty Run)) s
        (lateCharges env s rule f)) :
    Chain env L R s.toTable (lateMandate env s f).toTable := by
  unfold lateMandate
  split
  · exact .refl
  next rule hrule =>
    split_ifs with hskip
    · exact .refl
    · simp only [not_or, Bool.not_eq_true] at hskip
      split
      · exact .refl
      next leg hleg =>
        have hloop := foldl_of_passes
          (Q := fun t : Run => Chain env L R s.toTable t.toTable ∧ t.WellFormed)
          (fun t g _ ht hpass => ?_) ⟨.refl, hs⟩ (hR hskip.1 hskip.2 rule leg hrule hleg)
        · exact hloop.1
        · unfold chargeStep
          split
          next e c cs he hcands =>
            split_ifs with htakes
            · obtain ⟨id, -, hid⟩ := eventOf_eq_some he
              have hname : e.eventId = id := ht.2.named hid
              refine ⟨ht.1.trans (.put ?_), ht.2.put _⟩
              exact .charged rule g c.fact e (hname ▸ hid) htakes.2 (hpass e c cs he hcands htakes.2)
            · exact ht
          next => exact ht

theorem lateMandate_of_isIpoMandate (h : f.isIpoMandate = true) : lateMandate env s f = s := by
  unfold lateMandate
  split
  · rfl
  · rw [if_pos (.inl h)]

/-! ### Steps -/

/-- Only a movement can be a receipt. -/
theorem evidenceOnly_eq_false (h : f.factType ≠ .movement) : f.evidenceOnly = false := by
  unfold Fact.factType at h
  unfold Fact.evidenceOnly
  cases hattrs : f.attrs <;> simp_all

/-- A step of `link` is a chain of allowed writes. -/
theorem linkStep_chain {s' : Run} (hs : s.WellFormed)
    (hallow : s.eventOfFact.get? f.factId = none → Allows env L R s f)
    (h : linkStep env s f = .ok s') : Chain env L R s.toTable s'.toTable := by
  unfold linkStep at h
  split_ifs at h with hleg
  · rw [← Except.ok.inj h, done_toTable]
    exact .refl
  · have hfree : s.eventOfFact.get? f.factId = none := by simpa using hleg
    have hallow := hallow hfree
    unfold process at h
    split at h
    next htype =>
      split_ifs at h with hevidence hdebit
      · rw [← Except.ok.inj h, done_toTable]
        exact processReceipt_chain hs hallow hfree hevidence hdebit
      · rw [← Except.ok.inj h, done_toTable]
        exact .refl
      · exact (processMoney_takes hs hallow hfree ⟨.inl htype, by simpa using hevidence⟩ h).chain
    next htype =>
      rw [← Except.ok.inj h]
      split_ifs with hipo
      · rw [lateMandate_of_isIpoMandate hipo, done_toTable]
        exact .refl
      · have hdone : (s.done env f).toTable = s.toTable := done_toTable
        rw [← hdone]
        exact lateMandate_chain (hdone.symm ▸ hs) (hallow.charges htype)
    next htype =>
      have hjoins : f.Joins := ⟨.inr htype, evidenceOnly_eq_false (by simp [htype])⟩
      exact (processMoney_takes hs hallow hfree hjoins h).chain
    next =>
      rw [← Except.ok.inj h, done_toTable]
      exact .refl

/-- After it a movement that is no receipt is a leg. -/
theorem linkStep_mapped {s' : Run} (hs : s.WellFormed)
    (hallow : s.eventOfFact.get? f.factId = none → Allows env L R s f)
    (hmovement : f.isMovement) (hmoney : f.evidenceOnly = false) (h : linkStep env s f = .ok s') :
    s'.eventOfFact.get? f.factId ≠ none := by
  unfold linkStep at h
  split_ifs at h with hleg
  · have hdone : (s.done env f).eventOfFact = s.eventOfFact := congrArg Table.eventOfFact done_toTable
    rw [← Except.ok.inj h, hdone]
    exact Option.isSome_iff_ne_none.mp hleg
  · have hfree : s.eventOfFact.get? f.factId = none := by simpa using hleg
    have htype : f.factType = .movement := by simpa [Fact.isMovement] using hmovement
    simp only [process, htype, hmoney, Bool.false_eq_true, if_false] at h
    exact (processMoney_takes hs (hallow hfree) hfree ⟨.inl htype, hmoney⟩ h).mapped hmovement

theorem attachStep_chain {m : Fact} (hs : s.WellFormed)
    (hR : ∀ e, ipoTarget env m s.events.values none = some e → R (some e) (mandatedEvent env m e)) :
    Chain env L R s.toTable (attachStep env s m).toTable := by
  unfold attachStep
  split
  · exact .refl
  next e he =>
    rcases mem_ipoTarget he with hnone | ⟨hmem, hopen⟩
    · simp at hnone
    · obtain ⟨id, hid⟩ := InsertionMap.mem_values_iff.mp hmem
      have hname : e.eventId = id := hs.named hid
      exact .put (.mandated m e (hname ▸ hid) hopen (hR e he))

theorem attachIpoMandates_chain (hs : s.WellFormed)
    (hR : Passes (fun s m => ∀ e, ipoTarget env m s.events.values none = some e →
        R (some e) (mandatedEvent env m e))
      (fun s m => (.ok (attachStep env s m) : Except Empty Run)) s s.pendingIpoMandates) :
    Chain env L R s.toTable (attachIpoMandates env s).toTable := by
  have hloop := foldl_of_passes
    (Q := fun t : Run => Chain env L R s.toTable t.toTable ∧ t.WellFormed)
    (fun t m _ ht hpass => ?_) ⟨.refl, hs⟩ hR
  · exact hloop.1
  · have hstep : Chain env L R t.toTable (attachStep env t m).toTable := attachStep_chain ht.2 hpass
    exact ⟨ht.1.trans hstep, hstep.wellFormed ht.2⟩

/-- The events of a call to `expire` are visited as they were at its beginning. -/
theorem expireSteps_chain (es : List Event) (hnodup : (es.map Event.eventId).Nodup)
    (hknown : ∀ e ∈ es, s.events.get? e.eventId = some e) :
    Chain env L R s.toTable (es.foldl (expireStep env) s).toTable := by
  induction es generalizing s with
  | nil => exact .refl
  | cons e es ih =>
    rw [List.map_cons, List.nodup_cons] at hnodup
    rw [List.foldl_cons]
    have hstep : Chain env L R s.toTable (expireStep env s e).toTable ∧
        ∀ e' ∈ es, (expireStep env s e).events.get? e'.eventId = some e' := by
      unfold expireStep
      dsimp only
      split_ifs with hdue
      · refine ⟨.put (.expired e (hknown e List.mem_cons_self) hdue.1), fun e' he' => ?_⟩
        have hne : e'.eventId ≠ e.eventId := fun heq =>
          hnodup.1 (heq ▸ List.mem_map_of_mem he')
        have hset := InsertionMap.get?_set_of_ne s.events { e with status := .complete } hne
        exact hset.trans (hknown e' (List.mem_cons_of_mem _ he'))
      · exact ⟨.refl, fun e' he' => hknown e' (List.mem_cons_of_mem _ he')⟩
    exact hstep.1.trans (ih hnodup.2 hstep.2)

end Steps

end PandaPay.SmsV2
