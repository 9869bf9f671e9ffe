import PandaPay.Library.Memo
import PandaPay.SmsV2.Ledger.Snapshot

/-!
# Categories that refunds inherit

The decision of a refund is that of the last event of the list that claims its original fact. That is
the decision of its purchase, whatever the order of the events, exactly where no other spend event
claims the fact. A fee charged on a purchase names the fact of the purchase as `original` and claims it
too.

## Main definitions

* `ClaimsFact`, `linkedFact`: the spend events that claim a fact, and the fact a refund goes by
* `SnapshotContext.decision`: the decision of an event, read off the owners of the facts
* `SnapshotContext.Inherits`: refunds follow their purchases and the order does not matter
* `Unambiguous`: a refund goes by a fact of its purchase alone

## Main results

* `SnapshotContext.get?_decideAll`: what the decisions of a list are
* `inherits_iff`: refunds follow their purchases exactly where they are unambiguous
* `not_inherits`: a refund of a purchase that a fee was charged on
-/

namespace PandaPay.SmsV2

variable {facts : FactMap} {events list : List Event} {e r s : Event} {id : JsString}

/-! ### Who claims a fact -/

/-- A spend event claims a fact. -/
def ClaimsFact (facts : FactMap) (event : Event) (id : JsString) : Prop :=
  event.type.isSpend = true ∧ id ∈ claimedBy facts event

instance (facts : FactMap) (event : Event) (id : JsString) : Decidable (ClaimsFact facts event id) :=
  inferInstanceAs (Decidable (_ ∧ _))

/-- The first original fact of an event that a spend event claims. -/
def linkedFact (facts : FactMap) (events : List Event) (event : Event) : Option JsString :=
  event.legs.findSome? fun leg =>
    if leg.role = .original ∧ ∃ owner ∈ events, ClaimsFact facts owner leg.factId then some leg.factId
    else none

theorem mem_claims :
    (id, e) ∈ ((list.filter fun event => event.type.isSpend).flatMap fun event =>
      (claimedBy facts event).map fun id => (id, event)) ↔ e ∈ list ∧ ClaimsFact facts e id := by
  simp only [List.mem_flatMap, List.mem_filter, List.mem_map, Prod.mk.injEq, ClaimsFact]
  constructor
  · rintro ⟨event, ⟨hmem, hspend⟩, id', hid, rfl, rfl⟩
    exact ⟨hmem, hspend, hid⟩
  · rintro ⟨hmem, hspend, hid⟩
    exact ⟨e, ⟨hmem, hspend⟩, id, hid, rfl, rfl⟩

theorem claims_of_get?_ownerByFact (h : (ownerByFact facts list).get? id = some e) :
    e ∈ list ∧ ClaimsFact facts e id := by
  obtain ⟨p, hp, rfl, rfl⟩ := exists_of_get?_indexBy h
  exact mem_claims.mp hp

theorem get?_ownerByFact_eq_none_iff :
    (ownerByFact facts list).get? id = none ↔ ¬ ∃ owner ∈ list, ClaimsFact facts owner id := by
  rw [ownerByFact, get?_indexBy_eq_none_iff]
  constructor
  · rintro h ⟨owner, hmem, hclaims⟩
    exact h (id, owner) (mem_claims.mpr ⟨hmem, hclaims⟩) rfl
  · rintro h ⟨id', owner⟩ hp rfl
    exact h ⟨owner, mem_claims.mp hp⟩

/-- The last event of a list owns what it claims. -/
theorem get?_ownerByFact_append_singleton (h : ClaimsFact facts s id) :
    (ownerByFact facts (list ++ [s])).get? id = some s := by
  rw [ownerByFact, get?_indexBy, List.filter_append (p := fun e : Event => e.type.isSpend),
    List.flatMap_append, List.filter_append]
  have hlast : List.filter (fun event : Event => event.type.isSpend) [s] = [s] := by
    rw [List.filter_singleton, h.1, cond_true]
  rw [hlast, List.flatMap_singleton]
  have hne : ((claimedBy facts s).map fun id => (id, s)).filter (fun p => decide (p.1 = id)) ≠ [] := by
    refine List.ne_nil_of_mem (List.mem_filter.mpr ⟨List.mem_map_of_mem h.2, ?_⟩)
    simp
  obtain ⟨p, hp⟩ := Option.ne_none_iff_exists'.mp (mt List.getLast?_eq_none_iff.mp hne)
  rw [List.getLast?_append, hp, Option.some_or, Option.map_some]
  obtain ⟨id', -, rfl⟩ := List.mem_map.mp (List.mem_filter.mp (List.mem_of_getLast? hp)).1
  rfl

theorem linkedFact_congr (h : list.Perm events) : linkedFact facts list e = linkedFact facts events e := by
  unfold linkedFact
  simp only [h.mem_iff]

theorem exists_claims_of_linkedFact (h : linkedFact facts events e = some id) :
    ∃ owner ∈ events, ClaimsFact facts owner id := by
  obtain ⟨leg, -, hleg⟩ := List.exists_of_findSome?_eq_some h
  split at hleg
  · rename_i hcond
    cases hleg
    exact hcond.2
  · cases hleg

/-- A refund goes by the owner of its linked fact. -/
theorem linkedPurchase_eq (list : List Event) (event : Event) :
    SnapshotContext.linkedPurchase (ownerByFact facts list) event =
      (linkedFact facts list event).bind (ownerByFact facts list).get? := by
  rw [SnapshotContext.linkedPurchase, linkedFact]
  induction event.legs with
  | nil => rfl
  | cons leg legs ih =>
    rw [List.findSome?_cons, List.findSome?_cons, ih]
    by_cases horiginal : leg.role = .original
    · rw [if_pos horiginal]
      cases hget : (ownerByFact facts list).get? leg.factId with
      | none => rw [if_neg fun h => get?_ownerByFact_eq_none_iff.mp hget h.2]
      | some owner =>
        rw [if_pos ⟨horiginal, owner, claims_of_get?_ownerByFact hget⟩, Option.bind_some, hget]
    · rw [if_neg horiginal, if_neg fun h => horiginal h.1]

/-! ### Decisions without memory -/

theorem EventType.isCategorised_of_isSpend {type : EventType} (h : type.isSpend = true) :
    type.isCategorised = true := by
  cases type <;> first | rfl | cases h

theorem EventType.ne_refund_of_isSpend {type : EventType} (h : type.isSpend = true) :
    type ≠ .refund := by
  rintro rfl
  cases h

/-- The resolver always decides on a spend event. -/
theorem CategoryResolver.isSome_decide (resolver : CategoryResolver) {type : EventType}
    (h : type.isSpend = true) (input : CategoryInput) (linked : Option CategoryDecision) :
    (resolver.decide type input linked).isSome := by
  have hcategorised := EventType.isCategorised_of_isSpend h
  have hrefund := EventType.ne_refund_of_isSpend h
  rw [decide, if_neg (by simp [hcategorised]), if_neg (by simp [hrefund])]
  split <;> rfl

/-- A refund takes the linked decision, or its own. -/
theorem CategoryResolver.decide_refund (resolver : CategoryResolver) (input : CategoryInput)
    (linked : Option CategoryDecision) :
    resolver.decide .refund input linked = some (linked.getD (resolver.resolve input)) := by
  cases linked <;> rfl

namespace SnapshotContext

variable {ctx : SnapshotContext} {locked : InsertionMap JsString CategoryDecision}
  {owners owners' : InsertionMap JsString Event} {done : Event → Prop} {st : Decided}

/-- What `decide` returns for a purchase: nothing without a money fact. -/
def purchaseDecision (ctx : SnapshotContext) (locked : InsertionMap JsString CategoryDecision)
    (purchase : Event) : Option CategoryDecision :=
  (moneyFactForEvent purchase ctx.factsById).bind fun fact =>
    (locked.get? purchase.eventId).or
      (ctx.resolver.decide purchase.type (ctx.categoryInput purchase fact) none)

/-- The decision that a refund inherits. -/
def inherited (ctx : SnapshotContext) (locked : InsertionMap JsString CategoryDecision)
    (owners : InsertionMap JsString Event) (event : Event) : Option CategoryDecision :=
  (if event.type = .refund then linkedPurchase owners event else none).bind (ctx.purchaseDecision locked)

/-- The decision of an event: the locked one, or the resolver's. -/
def decision (ctx : SnapshotContext) (locked : InsertionMap JsString CategoryDecision)
    (owners : InsertionMap JsString Event) (event : Event) : Option CategoryDecision :=
  (locked.get? event.eventId).or
    ((moneyFactForEvent event ctx.factsById).bind fun fact =>
      ctx.resolver.decide event.type (ctx.categoryInput event fact) (ctx.inherited locked owners event))

theorem decision_of_spend (h : e.type.isSpend = true) :
    ctx.decision locked owners e = (locked.get? e.eventId).or
      ((moneyFactForEvent e ctx.factsById).bind fun fact =>
        ctx.resolver.decide e.type (ctx.categoryInput e fact) none) := by
  have hinherited : ctx.inherited locked owners e = none := by
    rw [inherited, if_neg (EventType.ne_refund_of_isSpend h), Option.bind_none]
  rw [decision, hinherited]

/-- What is remembered when the events `done` have been decided. -/
structure Remembers (ctx : SnapshotContext) (locked : InsertionMap JsString CategoryDecision)
    (owners : InsertionMap JsString Event) (list : List Event) (done : Event → Prop) (st : Decided) :
    Prop where
  keeps : ∀ k d, locked.get? k = some d → st.categories.get? k = some d
  others : ∀ k, (∀ e ∈ list, e.eventId ≠ k) → st.categories.get? k = locked.get? k
  categories : Memo (·.eventId) (ctx.decision locked owners) list done st.categories
  counterparties : Memo (·.eventId)
    (fun e => (moneyFactForEvent e ctx.factsById).map (ctx.counterpartyOf e)) list done
    st.counterparties

theorem Remembers.mono {done' : Event → Prop} (h : ctx.Remembers locked owners list done st)
    (hsub : ∀ e, done' e → done e) : ctx.Remembers locked owners list done' st :=
  { h with
    categories := h.categories.mono hsub
    counterparties := h.counterparties.mono hsub }

/-- An event without a money fact needs no step. -/
theorem Remembers.skip (h : ctx.Remembers locked owners list done st) (he : e ∈ list)
    (hfact : moneyFactForEvent e ctx.factsById = none) :
    ctx.Remembers locked owners list (fun e' => done e' ∨ e' = e) st := by
  refine { h with categories := ?_, counterparties := h.counterparties.skip (by rw [hfact]; rfl) }
  have hdecision : ctx.decision locked owners e = locked.get? e.eventId := by
    rw [decision, hfact, Option.bind_none, Option.or_none]
  cases hlocked : locked.get? e.eventId with
  | none => exact h.categories.skip (hdecision.trans hlocked)
  | some d => exact h.categories.hit he (h.keeps _ d hlocked)

/-- `settle` returns the decision of the event and remembers it. -/
theorem Remembers.settle {fact : LedgerFact} {linked : Option CategoryDecision}
    (hids : (list.map (·.eventId)).Nodup) (h : ctx.Remembers locked owners list done st)
    (he : e ∈ list) (hfact : moneyFactForEvent e ctx.factsById = some fact)
    (hdecision : ctx.decision locked owners e = (locked.get? e.eventId).or
      (ctx.resolver.decide e.type (ctx.categoryInput e fact) linked)) :
    (ctx.settle e fact linked st).1 = ctx.decision locked owners e ∧
      ctx.Remembers locked owners list (fun e' => done e' ∨ e' = e) (ctx.settle e fact linked st).2 := by
  have hcp := h.counterparties.set hids he (v := ctx.counterpartyOf e fact) (by rw [hfact]; rfl)
  rw [SnapshotContext.settle]
  dsimp only
  cases hget : st.categories.get? e.eventId with
  | some d =>
    exact ⟨(h.categories.sound e he d hget).symm,
      { keeps := h.keeps, others := h.others, categories := h.categories.hit he hget,
        counterparties := hcp }⟩
  | none =>
    -- what is not remembered is not locked
    have hlocked : locked.get? e.eventId = none := by
      cases hlocked : locked.get? e.eventId with
      | none => rfl
      | some d =>
        rw [h.keeps _ d hlocked] at hget
        cases hget
    rw [hlocked, Option.none_or] at hdecision
    cases hvalue : ctx.resolver.decide e.type (ctx.categoryInput e fact) linked with
    | none =>
      exact ⟨by rw [hdecision, hvalue],
        { keeps := h.keeps, others := h.others,
          categories := h.categories.skip (hdecision.trans hvalue), counterparties := hcp }⟩
    | some value =>
      refine ⟨by rw [hdecision, hvalue],
        { keeps := fun k d hk => ?_, others := fun k hk => ?_,
          categories := h.categories.set hids he (hdecision.trans hvalue), counterparties := hcp }⟩
      · rw [InsertionMap.get?_set_of_ne _ _ fun heq => ?_, h.keeps k d hk]
        rw [heq, hlocked] at hk
        cases hk
      · rw [InsertionMap.get?_set_of_ne _ _ fun heq => hk e he heq.symm, h.others k hk]

/-- The decision of a purchase, as `decide` asks for it. -/
theorem Remembers.decidePurchase (hids : (list.map (·.eventId)).Nodup)
    (h : ctx.Remembers locked owners list done st) (he : e ∈ list) (hspend : e.type.isSpend = true) :
    (ctx.decidePurchase e st).1 = ctx.purchaseDecision locked e ∧
      ctx.Remembers locked owners list done (ctx.decidePurchase e st).2 := by
  rw [SnapshotContext.decidePurchase, purchaseDecision]
  cases hfact : moneyFactForEvent e ctx.factsById with
  | none => exact ⟨rfl, h⟩
  | some fact =>
    have hdecision := @decision_of_spend e ctx locked owners hspend
    rw [hfact, Option.bind_some] at hdecision
    obtain ⟨hvalue, hst⟩ := h.settle hids he hfact hdecision
    exact ⟨hvalue.trans hdecision, hst.mono fun _ => .inl⟩

/-- `decide` remembers the decision of its event. -/
theorem Remembers.decide (hids : (list.map (·.eventId)).Nodup)
    (h : ctx.Remembers locked (ownerByFact ctx.factsById list) list done st) (he : e ∈ list) :
    ctx.Remembers locked (ownerByFact ctx.factsById list) list (fun e' => done e' ∨ e' = e)
      (ctx.decide (ownerByFact ctx.factsById list) e st).2 := by
  rw [SnapshotContext.decide]
  cases hfact : moneyFactForEvent e ctx.factsById with
  | none => exact h.skip he hfact
  | some fact =>
    have hdecision : ctx.decision locked (ownerByFact ctx.factsById list) e =
        (locked.get? e.eventId).or (ctx.resolver.decide e.type (ctx.categoryInput e fact)
          (ctx.inherited locked (ownerByFact ctx.factsById list) e)) := by
      rw [decision, hfact, Option.bind_some]
    dsimp only
    rw [inherited] at hdecision
    cases hpurchase : (if e.type = .refund then linkedPurchase (ownerByFact ctx.factsById list) e
        else none) with
    | none =>
      rw [hpurchase, Option.bind_none] at hdecision
      exact (h.settle hids he hfact hdecision).2
    | some purchase =>
      obtain ⟨hmem, hspend⟩ : purchase ∈ list ∧ purchase.type.isSpend = true := by
        split at hpurchase
        · rw [linkedPurchase_eq, Option.bind_eq_some_iff] at hpurchase
          obtain ⟨id, -, hget⟩ := hpurchase
          obtain ⟨hmem, hclaims⟩ := claims_of_get?_ownerByFact hget
          exact ⟨hmem, hclaims.1⟩
        · cases hpurchase
      rw [hpurchase, Option.bind_some] at hdecision
      obtain ⟨hlinked, hst⟩ := h.decidePurchase hids hmem hspend
      rw [← hlinked] at hdecision
      exact (hst.settle hids he hfact hdecision).2

theorem remembers_foldl (hids : (list.map (·.eventId)).Nodup) {rest : List Event} (hrest : rest ⊆ list)
    (h : ctx.Remembers locked (ownerByFact ctx.factsById list) list done st) :
    ctx.Remembers locked (ownerByFact ctx.factsById list) list (fun e => done e ∨ e ∈ rest)
      (rest.foldl (fun st event => (ctx.decide (ownerByFact ctx.factsById list) event st).2) st) := by
  induction rest generalizing done st with
  | nil => exact h.mono fun e he => he.resolve_right List.not_mem_nil
  | cons event rest ih =>
    rw [List.cons_subset] at hrest
    refine (ih hrest.2 (h.decide hids hrest.1)).mono fun e he => ?_
    rw [List.mem_cons, ← or_assoc] at he
    exact he

theorem remembers_decideAll (hids : (list.map (·.eventId)).Nodup) :
    ctx.Remembers locked (ownerByFact ctx.factsById list) list (· ∈ list) (ctx.decideAll locked list) := by
  have hstart : ctx.Remembers locked (ownerByFact ctx.factsById list) list (fun _ => False)
      { categories := locked, counterparties := .empty } := by
    refine ⟨fun _ _ h => h, fun _ _ => rfl, .start fun e _ d hd => ?_, .start fun e _ c hc => ?_⟩
    · rw [decision, hd, Option.some_or]
    · cases hc
  exact (remembers_foldl hids (List.Subset.refl list) hstart).mono fun e he => .inr he

/-- The decisions of a list are those of its events, and what is locked besides. -/
theorem get?_decideAll (hids : (list.map (·.eventId)).Nodup) (he : e ∈ list) :
    (ctx.project locked list).categoryByEvent.get? e.eventId =
      ctx.decision locked (ownerByFact ctx.factsById list) e :=
  (remembers_decideAll hids).categories.complete e he he

/-! ### Orders -/

/-- The decisions agree, and the rows up to their order. -/
structure Snapshot.Same (snapshot snapshot' : Snapshot) : Prop where
  decisions : ∀ k, snapshot.categoryByEvent.get? k = snapshot'.categoryByEvent.get? k
  entries : snapshot.entries.Perm snapshot'.entries

theorem rowsOf_congr {st st' : Decided}
    (hcategory : st.categories.get? e.eventId = st'.categories.get? e.eventId)
    (hcounterparty : st.counterparties.get? e.eventId = st'.counterparties.get? e.eventId) :
    ctx.rowsOf st e = ctx.rowsOf st' e := by
  rw [rowsOf, rowsOf, hcategory, hcounterparty]
  rfl

/-- Where the decisions do not see the order, nothing does. -/
theorem same_of_decision {list' : List Event} (hids : (list.map (·.eventId)).Nodup)
    (hperm : list.Perm list') (h : ∀ e ∈ list, ctx.decision locked (ownerByFact ctx.factsById list) e =
      ctx.decision locked (ownerByFact ctx.factsById list') e) :
    (ctx.project locked list).Same (ctx.project locked list') := by
  have hids' : (list'.map (·.eventId)).Nodup := (hperm.map _).nodup_iff.mp hids
  have hst := @remembers_decideAll list ctx locked hids
  have hst' := @remembers_decideAll list' ctx locked hids'
  have hcategory (e : Event) (he : e ∈ list) : (ctx.decideAll locked list).categories.get? e.eventId =
      (ctx.decideAll locked list').categories.get? e.eventId := by
    rw [hst.categories.complete e he he, h e he,
      hst'.categories.complete e (hperm.mem_iff.mp he) (hperm.mem_iff.mp he)]
  constructor
  · intro k
    change (ctx.decideAll locked list).categories.get? k = (ctx.decideAll locked list').categories.get? k
    by_cases hk : ∃ e ∈ list, e.eventId = k
    · obtain ⟨e, he, rfl⟩ := hk
      exact hcategory e he
    · rw [hst.others k fun e he heq => hk ⟨e, he, heq⟩,
        hst'.others k fun e he heq => hk ⟨e, hperm.mem_iff.mpr he, heq⟩]
  · have hrows : list.map (ctx.rowsOf (ctx.decideAll locked list)) =
        list.map (ctx.rowsOf (ctx.decideAll locked list')) := by
      refine List.map_congr_left fun e he => rowsOf_congr (hcategory e he) ?_
      rw [hst.counterparties.complete e he he,
        hst'.counterparties.complete e (hperm.mem_iff.mp he) (hperm.mem_iff.mp he)]
    change (list.flatMap _).Perm (list'.flatMap _)
    rw [List.flatMap_def, hrows, ← List.flatMap_def]
    exact hperm.flatMap_right _

end SnapshotContext

/-! ### Refunds of one purchase -/

/-- An original leg of `r` is a money leg of the spend event `s`. -/
def RefundOf (r s : Event) : Prop :=
  r.type = .refund ∧ s.type.isSpend = true ∧ ∃ leg ∈ r.legs, leg.role = .original ∧
    ∃ leg' ∈ s.legs, leg'.role.isMoney = true ∧ leg'.factId = leg.factId

instance (r s : Event) : Decidable (RefundOf r s) := inferInstanceAs (Decidable (_ ∧ _ ∧ _))

/-- Every fact is a leg of one event, `original` legs apart. -/
def FactsOnce (events : List Event) : Prop :=
  ∀ e ∈ events, ∀ e' ∈ events, ∀ leg ∈ e.legs, ∀ leg' ∈ e'.legs, leg.role ≠ .original →
    leg'.role ≠ .original → leg.factId = leg'.factId → e = e'

instance (events : List Event) : Decidable (FactsOnce events) :=
  inferInstanceAs (Decidable (∀ e ∈ events, ∀ e' ∈ events, ∀ leg ∈ e.legs, ∀ leg' ∈ e'.legs,
    leg.role ≠ .original → leg'.role ≠ .original → leg.factId = leg'.factId → e = e'))

/-- Whatever is locked and in whatever order the events come, a refund gets the decision of its
purchase, unless its own is locked, a locked decision stands, and the order does not matter. -/
def SnapshotContext.Inherits (ctx : SnapshotContext) (events : List Event) : Prop :=
  ∀ locked list, events.Perm list →
    (∀ r ∈ events, ∀ s ∈ events, RefundOf r s →
      (ctx.project locked list).categoryByEvent.get? r.eventId =
        (locked.get? r.eventId).or ((ctx.project locked list).categoryByEvent.get? s.eventId)) ∧
    (∀ e ∈ events, ∀ d, locked.get? e.eventId = some d →
      (ctx.project locked list).categoryByEvent.get? e.eventId = some d) ∧
    ∀ list', events.Perm list' → (ctx.project locked list).Same (ctx.project locked list')

/-- An event has a money fact. -/
def HasMoneyFact (facts : FactMap) (event : Event) : Prop := (moneyFactForEvent event facts).isSome

instance (facts : FactMap) (event : Event) : Decidable (HasMoneyFact facts event) :=
  inferInstanceAs (Decidable (_ = true))

/-- The linked fact of a refund has one claimant, and that is its purchase. -/
structure Unambiguous (facts : FactMap) (events : List Event) : Prop where
  single : ∀ r ∈ events, r.type = .refund → HasMoneyFact facts r → ∀ id ∈ linkedFact facts events r,
    ∀ s ∈ events, ∀ t ∈ events, ClaimsFact facts s id → ClaimsFact facts t id →
      HasMoneyFact facts s → s = t
  purchase : ∀ r ∈ events, ∀ s ∈ events, RefundOf r s → HasMoneyFact facts r ∧ HasMoneyFact facts s ∧
    ∀ id ∈ linkedFact facts events r, ∀ t ∈ events, ClaimsFact facts t id → t = s

variable (facts) in
theorem RefundOf.exists_linkedFact (h : RefundOf r s) (hs : s ∈ events) :
    ∃ id, linkedFact facts events r = some id := by
  obtain ⟨-, hspend, leg, hleg, horiginal, leg', hleg', hmoney, hfact⟩ := h
  have hclaims : ClaimsFact facts s leg.factId := by
    refine ⟨hspend, List.mem_cons_of_mem _ (List.mem_map.mpr ⟨leg', ?_, hfact⟩)⟩
    exact List.mem_filter.mpr ⟨hleg', by rw [hmoney, Bool.true_or]⟩
  rw [← Option.isSome_iff_exists, linkedFact, List.findSome?_isSome_iff]
  exact ⟨leg, hleg, by rw [if_pos ⟨horiginal, s, hs, hclaims⟩]; rfl⟩

theorem RefundOf.eventId_ne (hids : (events.map (·.eventId)).Nodup) (hr : r ∈ events) (hs : s ∈ events)
    (hrefund : r.type = .refund) (hspend : s.type.isSpend = true) : r.eventId ≠ s.eventId := by
  intro heq
  have hrs : r = s := List.inj_on_of_nodup_map hids hr hs heq
  rw [← hrs] at hspend
  exact EventType.ne_refund_of_isSpend hspend hrefund

namespace SnapshotContext

variable {ctx : SnapshotContext} {locked : InsertionMap JsString CategoryDecision} {t : Event}

/-- In some order of the events, a claimant of the linked fact is its owner. -/
theorem exists_order (hid : id ∈ linkedFact facts events r) (ht : t ∈ events)
    (hclaims : ClaimsFact facts t id) :
    ∃ list, events.Perm list ∧ linkedPurchase (ownerByFact facts list) r = some t := by
  have hperm : events.Perm (events.erase t ++ [t]) :=
    (List.perm_cons_erase ht).trans (List.perm_append_singleton t _).symm
  refine ⟨_, hperm, ?_⟩
  rw [linkedPurchase_eq, linkedFact_congr hperm.symm, hid, Option.bind_some,
    get?_ownerByFact_append_singleton hclaims]

/-- In every order, the linked fact has an owner among its claimants. -/
theorem exists_owner (hid : linkedFact facts events r = some id) (hperm : events.Perm list) :
    ∃ t ∈ events, ClaimsFact facts t id ∧ (ownerByFact facts list).get? id = some t := by
  cases hget : (ownerByFact facts list).get? id with
  | none =>
    obtain ⟨owner, howner, hclaims⟩ := exists_claims_of_linkedFact hid
    have hexists : ∃ owner ∈ list, ClaimsFact facts owner id := ⟨owner, hperm.mem_iff.mp howner, hclaims⟩
    exact absurd hexists (get?_ownerByFact_eq_none_iff.mp hget)
  | some t =>
    obtain ⟨ht, hclaims⟩ := claims_of_get?_ownerByFact hget
    exact ⟨t, hperm.mem_iff.mpr ht, hclaims, rfl⟩

theorem purchaseDecision_of_locked {d : CategoryDecision} (h : locked.get? e.eventId = some d) :
    ctx.purchaseDecision locked e = if HasMoneyFact ctx.factsById e then some d else none := by
  by_cases hfact : HasMoneyFact ctx.factsById e
  · rw [if_pos hfact]
    obtain ⟨fact, hfact⟩ := Option.isSome_iff_exists.mp hfact
    rw [purchaseDecision, hfact, Option.bind_some, h, Option.some_or]
  · rw [if_neg hfact]
    rw [HasMoneyFact, Option.not_isSome_iff_eq_none] at hfact
    rw [purchaseDecision, hfact, Option.bind_none]

/-- The decision of a refund that is not locked itself. -/
theorem decision_of_refund {owners : InsertionMap JsString Event} (hrefund : r.type = .refund)
    (hlocked : locked.get? r.eventId = none) :
    ctx.decision locked owners r = (moneyFactForEvent r ctx.factsById).map fun fact =>
      (ctx.inherited locked owners r).getD (ctx.resolver.resolve (ctx.categoryInput r fact)) := by
  rw [decision, hlocked, Option.none_or, hrefund]
  simp only [CategoryResolver.decide_refund]
  cases moneyFactForEvent r ctx.factsById <;> rfl

theorem inherited_of_refund {owners : InsertionMap JsString Event} (hrefund : r.type = .refund) :
    ctx.inherited locked owners r = (linkedPurchase owners r).bind (ctx.purchaseDecision locked) := by
  rw [inherited, if_pos hrefund]

/-- What a refund inherits does not see the order where its linked fact has one claimant that decides. -/
theorem inherited_congr {list' : List Event} (hrefund : r.type = .refund) (hperm : events.Perm list)
    (hperm' : events.Perm list')
    (hsingle : ∀ id ∈ linkedFact ctx.factsById events r, ∀ s ∈ events, ∀ t ∈ events,
      ClaimsFact ctx.factsById s id → ClaimsFact ctx.factsById t id → HasMoneyFact ctx.factsById s →
      s = t) :
    ctx.inherited locked (ownerByFact ctx.factsById list) r =
      ctx.inherited locked (ownerByFact ctx.factsById list') r := by
  rw [inherited_of_refund hrefund, inherited_of_refund hrefund, linkedPurchase_eq, linkedPurchase_eq,
    linkedFact_congr hperm.symm, linkedFact_congr hperm'.symm]
  cases hid : linkedFact ctx.factsById events r with
  | none => rfl
  | some id =>
    obtain ⟨s, hs, hsclaims, hsget⟩ := exists_owner hid hperm
    obtain ⟨t, ht, htclaims, htget⟩ := exists_owner hid hperm'
    rw [Option.bind_some, Option.bind_some, hsget, htget, Option.bind_some, Option.bind_some]
    by_cases hsfact : HasMoneyFact ctx.factsById s
    · rw [hsingle id hid s hs t ht hsclaims htclaims hsfact]
    by_cases htfact : HasMoneyFact ctx.factsById t
    · rw [hsingle id hid t ht s hs htclaims hsclaims htfact]
    rw [HasMoneyFact, Option.not_isSome_iff_eq_none] at hsfact htfact
    rw [purchaseDecision, purchaseDecision, hsfact, htfact, Option.bind_none, Option.bind_none]

/-- The decision of a purchase with a money fact is the one that its refunds inherit. -/
theorem purchaseDecision_eq {owners : InsertionMap JsString Event} (hspend : s.type.isSpend = true)
    (hfact : HasMoneyFact ctx.factsById s) :
    ctx.purchaseDecision locked s = ctx.decision locked owners s ∧
      (ctx.decision locked owners s).isSome := by
  obtain ⟨fact, hfact⟩ := Option.isSome_iff_exists.mp hfact
  rw [decision_of_spend hspend, purchaseDecision, hfact, Option.bind_some, Option.bind_some]
  refine ⟨rfl, ?_⟩
  rw [Option.isSome_or, ctx.resolver.isSome_decide hspend, Bool.or_true]

/-! ### Exactly the unambiguous refunds -/

theorem inherits_of_unambiguous (hids : (events.map (·.eventId)).Nodup)
    (h : Unambiguous ctx.factsById events) : ctx.Inherits events := by
  intro locked list hperm
  have hlist : (list.map (·.eventId)).Nodup := (hperm.map _).nodup_iff.mp hids
  refine ⟨fun r hr s hs hof => ?_, fun e he d hd => ?_, fun list' hperm' => ?_⟩
  · rw [get?_decideAll hlist (hperm.mem_iff.mp hr), get?_decideAll hlist (hperm.mem_iff.mp hs)]
    obtain ⟨hfactr, hfacts, honly⟩ := h.purchase r hr s hs hof
    obtain ⟨id, hid⟩ := RefundOf.exists_linkedFact ctx.factsById hof hs
    obtain ⟨t, ht, hclaims, howner⟩ := exists_owner hid hperm
    rw [honly id hid t ht hclaims] at howner
    obtain ⟨heq, hsome⟩ := @purchaseDecision_eq s ctx locked (ownerByFact ctx.factsById list) hof.2.1
      hfacts
    cases hlocked : locked.get? r.eventId with
    | some d => rw [decision, hlocked, Option.some_or, Option.some_or]
    | none =>
      obtain ⟨fact, hfact⟩ := Option.isSome_iff_exists.mp hfactr
      obtain ⟨d, hd⟩ := Option.isSome_iff_exists.mp hsome
      rw [decision_of_refund hof.1 hlocked, inherited_of_refund hof.1, linkedPurchase_eq,
        linkedFact_congr hperm.symm, hid, Option.bind_some, howner, Option.bind_some, heq, hd, hfact]
      rfl
  · rw [get?_decideAll hlist (hperm.mem_iff.mp he), decision, hd, Option.some_or]
  · refine same_of_decision hlist (hperm.symm.trans hperm') fun e he => ?_
    -- only a refund with a money fact looks at the owners
    by_cases hrefund : e.type = .refund
    · cases hfact : moneyFactForEvent e ctx.factsById with
      | none => rw [decision, decision, hfact, Option.bind_none, Option.bind_none]
      | some fact =>
        have hfacte : HasMoneyFact ctx.factsById e := by
          rw [HasMoneyFact, hfact]
          rfl
        rw [decision, decision, inherited_congr hrefund hperm hperm'
          (h.single e (hperm.mem_iff.mpr he) hrefund hfacte)]
    · rw [decision, decision, inherited, inherited, if_neg hrefund, if_neg hrefund]

/-- Another decision. -/
def other (d : CategoryDecision) (n : ℕ) : CategoryDecision := { d with confidence := d.confidence + n + 1 }

theorem other_ne (d : CategoryDecision) (n : ℕ) : other d n ≠ d := by
  intro h
  have hconfidence : d.confidence + n + 1 = d.confidence := congrArg CategoryDecision.confidence h
  have hn : (0 : ℚ) ≤ n := Nat.cast_nonneg n
  linarith

theorem other_zero_ne_one (d : CategoryDecision) : other d 0 ≠ other d 1 := by
  intro h
  have hconfidence : d.confidence + (0 : ℕ) + 1 = d.confidence + (1 : ℕ) + 1 :=
    congrArg CategoryDecision.confidence h
  norm_num at hconfidence

/-- Two purchases are locked to decisions that are not the refund's own. -/
def lockBoth (own : CategoryDecision) (t s : Event) : InsertionMap JsString CategoryDecision :=
  (InsertionMap.empty.set t.eventId (other own 1)).set s.eventId (other own 0)

theorem get?_lockBoth_refund (own : CategoryDecision) (hids : (events.map (·.eventId)).Nodup)
    (hr : r ∈ events) (ht : t ∈ events) (hs : s ∈ events) (hrefund : r.type = .refund)
    (htspend : t.type.isSpend = true) (hsspend : s.type.isSpend = true) :
    (lockBoth own t s).get? r.eventId = none := by
  rw [lockBoth, InsertionMap.get?_set_of_ne _ _ (RefundOf.eventId_ne hids hr hs hrefund hsspend),
    InsertionMap.get?_set_of_ne _ _ (RefundOf.eventId_ne hids hr ht hrefund htspend)]
  rfl

theorem get?_lockBoth_left (own : CategoryDecision) (hids : (events.map (·.eventId)).Nodup)
    (ht : t ∈ events) (hs : s ∈ events) (hne : t ≠ s) :
    (lockBoth own t s).get? t.eventId = some (other own 1) := by
  have hid : t.eventId ≠ s.eventId := fun heq => hne (List.inj_on_of_nodup_map hids ht hs heq)
  rw [lockBoth, InsertionMap.get?_set_of_ne _ _ hid, InsertionMap.get?_set_self]

theorem get?_lockBoth_right (own : CategoryDecision) (t s : Event) :
    (lockBoth own t s).get? s.eventId = some (other own 0) :=
  InsertionMap.get?_set_self _ _ _

/-- In some order of the events, a refund gets the decision of a given claimant of its linked fact. -/
theorem exists_order_decision (hids : (events.map (·.eventId)).Nodup) (hr : r ∈ events)
    (hrefund : r.type = .refund) (hlocked : locked.get? r.eventId = none)
    (hid : id ∈ linkedFact ctx.factsById events r) (ht : t ∈ events)
    (hclaims : ClaimsFact ctx.factsById t id) :
    ∃ list, events.Perm list ∧ (ctx.project locked list).categoryByEvent.get? r.eventId =
      (moneyFactForEvent r ctx.factsById).map fun fact =>
        (ctx.purchaseDecision locked t).getD (ctx.resolver.resolve (ctx.categoryInput r fact)) := by
  obtain ⟨list, hperm, hpurchase⟩ := exists_order hid ht hclaims
  refine ⟨list, hperm, ?_⟩
  rw [get?_decideAll ((hperm.map _).nodup_iff.mp hids) (hperm.mem_iff.mp hr),
    decision_of_refund hrefund hlocked, inherited_of_refund hrefund, hpurchase, Option.bind_some]

theorem unambiguous_of_inherits (hids : (events.map (·.eventId)).Nodup) (h : ctx.Inherits events) :
    Unambiguous ctx.factsById events := by
  constructor
  case single =>
    intro r hr hrefund hfact id hid s hs t ht hsclaims htclaims hsfact
    by_contra hne
    obtain ⟨fact, hfact⟩ := Option.isSome_iff_exists.mp hfact
    let own := ctx.resolver.resolve (ctx.categoryInput r fact)
    have hlocked : (lockBoth own t s).get? r.eventId = none :=
      get?_lockBoth_refund own hids hr ht hs hrefund htclaims.1 hsclaims.1
    -- with `s` last the refund gets one lock, with `t` last the other lock or its own decision
    obtain ⟨list, hperm, hdecision⟩ := exists_order_decision hids hr hrefund hlocked hid hs hsclaims
    obtain ⟨list', hperm', hdecision'⟩ := exists_order_decision hids hr hrefund hlocked hid ht htclaims
    have hsame := ((h (lockBoth own t s) list hperm).2.2 list' hperm').decisions r.eventId
    rw [hdecision, hdecision', hfact, Option.map_some, Option.map_some, Option.some.injEq,
      purchaseDecision_of_locked (get?_lockBoth_right own t s), if_pos hsfact,
      purchaseDecision_of_locked (get?_lockBoth_left own hids ht hs fun heq => hne heq.symm)] at hsame
    split at hsame
    · exact other_zero_ne_one own hsame
    · exact other_ne own 0 hsame
  case purchase =>
    intro r hr s hs hof
    have honly (id : JsString) (hid : id ∈ linkedFact ctx.factsById events r) (t : Event)
        (ht : t ∈ events) (hclaims : ClaimsFact ctx.factsById t id) :
        HasMoneyFact ctx.factsById r ∧ HasMoneyFact ctx.factsById s ∧ t = s := by
      cases hfact : moneyFactForEvent r ctx.factsById with
      | none =>
        -- a refund without a money fact gets no decision, its purchase may have one
        have hlocked : (lockBoth .fallback t s).get? r.eventId = none :=
          get?_lockBoth_refund _ hids hr ht hs hof.1 hclaims.1 hof.2.1
        obtain ⟨list, hperm, hdecision⟩ := exists_order_decision hids hr hof.1 hlocked hid ht hclaims
        obtain ⟨hinherits, hkeeps, -⟩ := h (lockBoth .fallback t s) list hperm
        have hr := hinherits r hr s hs hof
        rw [hdecision, hlocked, hkeeps s hs _ (get?_lockBoth_right _ t s), hfact] at hr
        cases hr
      | some fact =>
        let own := ctx.resolver.resolve (ctx.categoryInput r fact)
        have hlocked : (lockBoth own t s).get? r.eventId = none :=
          get?_lockBoth_refund own hids hr ht hs hof.1 hclaims.1 hof.2.1
        obtain ⟨list, hperm, hdecision⟩ := exists_order_decision hids hr hof.1 hlocked hid ht hclaims
        obtain ⟨hinherits, hkeeps, -⟩ := h (lockBoth own t s) list hperm
        have hr := hinherits r hr s hs hof
        rw [hdecision, hlocked, hkeeps s hs _ (get?_lockBoth_right own t s), hfact, Option.map_some,
          Option.none_or, Option.some.injEq] at hr
        have heq : t = s := by
          by_contra hne
          rw [purchaseDecision_of_locked (get?_lockBoth_left own hids ht hs hne)] at hr
          split at hr
          · exact other_zero_ne_one own hr.symm
          · exact other_ne own 0 hr.symm
        rw [heq, purchaseDecision_of_locked (get?_lockBoth_right own s s)] at hr
        split at hr
        · rename_i hsfact
          exact ⟨by rw [HasMoneyFact, hfact]; rfl, hsfact, heq⟩
        · exact absurd hr.symm (other_ne own 0)
    obtain ⟨id, hid⟩ := RefundOf.exists_linkedFact ctx.factsById hof hs
    obtain ⟨t, ht, hclaims⟩ := exists_claims_of_linkedFact hid
    obtain ⟨hfactr, hfacts, -⟩ := honly id hid t ht hclaims
    exact ⟨hfactr, hfacts, fun id hid t ht hclaims => (honly id hid t ht hclaims).2.2⟩

end SnapshotContext

/-- Refunds follow their purchases and the order of the events does not matter, exactly where the
refunds are unambiguous. -/
theorem inherits_iff (ctx : SnapshotContext) (events : List Event)
    (hids : (events.map (·.eventId)).Nodup) :
    ctx.Inherits events ↔ Unambiguous ctx.factsById events :=
  ⟨ctx.unambiguous_of_inherits hids, ctx.inherits_of_unambiguous hids⟩

/-! ### A fee charged on a purchase -/

namespace ChargedPurchase

def movement (factId : JsString) (direction : Direction) (purpose : MovementPurpose)
    (name : JsString) : LedgerFact where
  factId := factId
  sourceKey := factId
  observedAt := 0
  counterparty := some { name := some name }
  ruleId := js "rule"
  attrs := .movement direction purpose none none

/-- A resolver that goes by the name of the merchant. -/
def ctx : SnapshotContext where
  factsById := indexBy (·.factId) (fun fact => fact) [
    movement (js "f") .debit .purchase (js "SHOP"), movement (js "g") .debit .fee (js "BANK"),
    movement (js "h") .credit .refund (js "SHOP")]
  instrumentsById := .empty
  counterpartyPurposes := []
  senders := []
  rules := []
  senderBySource := .empty
  instrumentIdByFactId := .empty
  hasMatch _ _ := false
  resolver := {
    resolve := fun input => {
      slug := ((input.counterparty.bind (·.name)).getD [])
      source := .catalogue
      confidence := 1 }
    userRule := fun _ => none }
  keyer := {
    keyFor := fun _ => none
    personRuleKey := fun _ => none
    normalizeMerchantText := fun text => text
    sha256 := fun text => text }

def event (eventId : JsString) (type : EventType) (legs : List EventLeg) : Event where
  eventId := eventId
  type := type
  status := .complete
  legs := legs
  linkRuleId := none
  confidence := 1
  occurredAt := 0
  amountMinor := 100

def purchase : Event := event (js "p") .purchase [⟨js "f", .debitLeg⟩]

def fee : Event := event (js "q") .fee [⟨js "g", .charge⟩, ⟨js "f", .original⟩]

def refund : Event := event (js "r") .refund [⟨js "h", .creditLeg⟩, ⟨js "f", .original⟩]

end ChargedPurchase

open ChargedPurchase in
/-- A refund of a purchase that a fee was charged on gets the category of the fee. -/
theorem not_inherits :
    ¬ ∀ (ctx : SnapshotContext) (events : List Event), (events.map (·.eventId)).Nodup →
      FactsOnce events → ctx.Inherits events := by
  intro h
  have hrefund := (h ctx [purchase, fee, refund] (by decide) (by decide) .empty _ (.refl _)).1
    refund (by decide) purchase (by decide) (by decide)
  revert hrefund
  decide

open ChargedPurchase in
/-- A refund of a purchase without a fee follows the purchase. -/
theorem inherits_iff_purchase :
    ([purchase, refund].map (·.eventId)).Nodup ∧ ctx.Inherits [purchase, refund] :=
  ⟨by decide, (inherits_iff ctx [purchase, refund] (by decide)).mpr ⟨by decide, by decide⟩⟩

end PandaPay.SmsV2
