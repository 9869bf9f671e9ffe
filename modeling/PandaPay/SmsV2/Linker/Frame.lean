import PandaPay.SmsV2.Linker.Steps

/-!
# What a write changes

A write puts a new event, anchored at a fact that was no leg, or extends one event that the user has
not settled. A consistent table stays consistent, and its events only grow.

## Main definitions

* `Table.Consistent K t`: the index of the legs agrees with the events. Only the ids in `K` may be
  those of events that do not count the fact they are named after
* `Change`: the two kinds of writes
* `Table.Kept t t'`: events of `t` are in `t'`, with more legs, those the user confirmed as they were

## Main results

* `Write.change`, `Table.Consistent.put`: writes are changes, and keep a table consistent
* `Chain.kept`: chained changes keep what was there
-/

namespace PandaPay.SmsV2

/-- The fact ids of the legs of an event. -/
def Event.factIds (e : Event) : List JsString := e.legs.map EventLeg.factId

/-- An event whose legs are those of `e`, in any roles, and more. -/
structure Event.Grows (e e' : Event) : Prop where
  legs : e.factIds <+: e'.factIds
  counts : ∀ g, e.Counts g → e'.Counts g

theorem Event.Grows.refl (e : Event) : e.Grows e := ⟨List.prefix_rfl, fun _ h => h⟩

theorem Event.Grows.trans {e e' e'' : Event} (h : e.Grows e') (h' : e'.Grows e'') : e.Grows e'' :=
  ⟨h.legs.trans h'.legs, fun g hg => h'.counts g (h.counts g hg)⟩

/-- Legs in new roles, none of them an `original` that was not one before, and more legs. -/
theorem Event.Grows.of_legs {e e' : Event} {relabel : EventLeg → EventLeg} {more : List EventLeg}
    (h : e'.legs = e.legs.map relabel ++ more) (hid : ∀ l ∈ e.legs, (relabel l).factId = l.factId)
    (hrole : ∀ l ∈ e.legs, l.role ≠ .original → (relabel l).role ≠ .original) : e.Grows e' where
  legs := by
    refine ⟨more.map EventLeg.factId, ?_⟩
    unfold factIds
    rw [h, List.map_append, List.map_map]
    exact congrArg (· ++ _) (List.map_congr_left fun l hl => (hid l hl).symm)
  counts g := by
    rintro ⟨l, hl, rfl, hl'⟩
    refine ⟨relabel l, ?_, hid l hl, hrole l hl hl'⟩
    rw [h]
    exact List.mem_append_left _ (List.mem_map_of_mem hl)

theorem Event.Grows.of_append {e e' : Event} {more : List EventLeg} (h : e'.legs = e.legs ++ more) :
    e.Grows e' :=
  .of_legs (by rw [h, List.map_id] : e'.legs = e.legs.map id ++ more) (fun _ _ => rfl)
    fun _ _ h => h

/-- What an event counts after a leg is added. -/
theorem counts_of_append {e e' : Event} {l : EventLeg} (h : e'.legs = e.legs ++ [l]) {g : JsString}
    (hg : e'.Counts g) : e.Counts g ∨ g = l.factId ∧ l.role ≠ .original := by
  obtain ⟨l', hl', rfl, hrole⟩ := hg
  rw [h, List.mem_append, List.mem_singleton] at hl'
  rcases hl' with hl' | rfl
  · exact .inl ⟨l', hl', rfl, hrole⟩
  · exact .inr ⟨rfl, hrole⟩

/-! ### Consistent tables -/

/-- The index of the legs agrees with the events, and an event counts the fact it is named after
unless its id is in `K`. -/
structure Table.Consistent (K : JsString → Prop) (t : Table) : Prop extends t.WellFormed where
  sound : ∀ {g id}, t.eventOfFact.get? g = some id → ∃ e, t.events.get? id = some e ∧ e.Counts g
  anchored : ∀ {id e}, t.events.get? id = some e → t.eventOfFact.get? id = none → K id

/-- The two kinds of writes. -/
inductive Change (R : Option Event → Event → Prop) (t : Table) (e' : Event) : Prop
  | made : R none e' → e'.factIds.head? = some e'.eventId → e'.Counts e'.eventId →
      (∀ g, e'.Counts g → t.eventOfFact.get? g = none) →
      Change R t e'
  | grown (e : Event) : t.events.get? e'.eventId = some e → e.status ≠ .userConfirmed → e.Grows e' →
      (∀ g, e'.Counts g → e.Counts g ∨ t.eventOfFact.get? g = none) → Change R t e'

theorem ne_userConfirmed_of_not_isLocked {e : Event} (h : isLocked e = false) :
    e.status ≠ .userConfirmed := by
  intro hstatus
  simp [isLocked, hstatus] at h

section Write

variable {env : Env} {L K : JsString → Prop} {R : Option Event → Event → Prop} {t t' : Table}
  {e' : Event}

theorem joinedLegs_grows {rule : LinkRule} {role : LegRole} {f : Fact} {c : Cand} {e : Event}
    (hrole : c.role ≠ .original) : e.Grows (joinedEvent env rule role f c e) := by
  refine .of_legs rfl (fun l _ => ?_) fun l _ hl => ?_
  · split_ifs <;> rfl
  · split_ifs
    · exact hrole
    · exact hl

theorem counts_pairEvent {rule : LinkRule} {role : LegRole} {f : Fact} {c : Cand} {g : JsString}
    (h : (pairEvent env rule role f c).Counts g) :
    g = f.factId ∨ g = c.fact.factId ∧ c.role ≠ .original := by
  obtain ⟨l, hl, rfl, hrole⟩ := h
  have hl : l ∈ pairLegsOf role f c := hl
  unfold pairLegsOf at hl
  split_ifs at hl <;> simp only [List.mem_cons, List.not_mem_nil, or_false] at hl <;>
    rcases hl with rfl | rfl
  · exact .inl rfl
  · exact .inr ⟨rfl, hrole⟩
  · exact .inr ⟨rfl, hrole⟩
  · exact .inl rfl

/-- Every write makes an event or extends one. -/
theorem Write.change (ht : t.Consistent K) (h : Write env L R t e') : Change R t e' := by
  -- a mapped fact is counted by the event it is mapped to
  have counted {g id : JsString} {e : Event} (hg : t.eventOfFact.get? g = some id)
      (he : t.events.get? id = some e) : e.Counts g := by
    obtain ⟨e', he', hcounts⟩ := ht.sound hg
    rw [he] at he'
    exact Option.some.inj he' ▸ hcounts
  cases h with
  | alone f role type status ruleId _ hrole hfree hR =>
    refine .made hR rfl ⟨⟨f.factId, role⟩, List.mem_singleton_self _, rfl, hrole⟩ fun g hg => ?_
    obtain ⟨l, hl, rfl, -⟩ := hg
    rw [build_legs, List.mem_singleton] at hl
    rw [hl]
    exact hfree
  | pair rule role f c _ hrole hfree hother hR =>
    refine .made hR ?_ ?_ fun g hg => ?_
    · unfold Event.factIds pairEvent pairLegsOf
      simp only [build_legs, build_eventId]
      split_ifs <;> rfl
    · unfold pairEvent pairLegsOf
      by_cases horiginal : c.role = .original
      · simp only [if_pos horiginal]
        exact ⟨⟨f.factId, role⟩, List.mem_cons_self, rfl, hrole⟩
      · simp only [if_neg horiginal]
        exact ⟨⟨c.fact.factId, c.role⟩, List.mem_cons_self, rfl, horiginal⟩
    · rcases counts_pairEvent hg with rfl | ⟨rfl, hc⟩
      · exact hfree
      · exact (hother hc).2
  | joined rule role f c e hmapped he hlocked hrole _ hnew _ =>
    refine .grown e he (ne_userConfirmed_of_not_isLocked hlocked) (joinedLegs_grows hrole) fun g hg => ?_
    rcases counts_joinedEvent hg with hg | rfl | ⟨rfl, hno⟩
    · exact .inl hg
    · exact .inl (counted hmapped he)
    · exact .inr (hnew hno)
  | duplicate rule f c e _ hfree hmapped he hlocked _ _ =>
    refine .grown e he (ne_userConfirmed_of_not_isLocked hlocked) (.of_legs rfl (fun l _ => ?_) fun l _ hl => ?_)
      fun g hg => ?_
    · split_ifs <;> rfl
    · split_ifs
      · intro horiginal
        cases horiginal
      · exact hl
    · obtain ⟨l, hl, rfl, hrole⟩ := hg
      rcases List.mem_append.mp hl with hl | hl
      · obtain ⟨l', hl', rfl⟩ := List.mem_map.mp hl
        split_ifs at hrole ⊢ with hswap
        · exact .inl (hswap.2 ▸ counted hmapped he)
        · exact .inl ⟨l', hl', rfl, hrole⟩
      · rw [List.mem_singleton] at hl
        rw [hl]
        exact .inr hfree
  | notice rule e r hfree he hlocked _ _ =>
    refine .grown e he (ne_userConfirmed_of_not_isLocked hlocked) (.of_append rfl) fun g hg => ?_
    rcases counts_of_append rfl hg with hg | ⟨rfl, -⟩
    · exact .inl hg
    · exact .inr hfree
  | held rule f e _ hfree he hlocked _ =>
    refine .grown e he (ne_userConfirmed_of_not_isLocked hlocked) (.of_append rfl) fun g hg => ?_
    rcases counts_of_append rfl hg with hg | ⟨rfl, -⟩
    · exact .inl hg
    · exact .inr hfree
  | charged rule g m e he htakes _ =>
    simp only [takesMandate, Bool.and_eq_true, Bool.not_eq_true'] at htakes
    obtain ⟨l, hfind, hrole⟩ := Option.map_eq_some_iff.mp (of_decide_eq_true htakes.1.2)
    have hlid : l.factId = g.factId := by simpa using List.find?_some hfind
    have hcounts : e.Counts g.factId := ⟨l, List.mem_of_find?_eq_some hfind, hlid, by simp [hrole]⟩
    refine .grown e he (ne_userConfirmed_of_not_isLocked htakes.1.1.1.1)
      (.of_legs rfl (fun l _ => ?_) fun l _ hl => ?_) fun g' hg' => ?_
    · split_ifs with hsame
      · exact hsame.symm
      · rfl
    · split_ifs
      · intro horiginal
        cases horiginal
      · exact hl
    · obtain ⟨l', hl', rfl, hrole'⟩ := hg'
      rcases List.mem_append.mp hl' with hl' | hl'
      · obtain ⟨l'', hl'', rfl⟩ := List.mem_map.mp hl'
        split_ifs at hrole' ⊢
        · exact .inl hcounts
        · exact .inl ⟨l'', hl'', rfl, hrole'⟩
      · rw [List.mem_singleton] at hl'
        rw [hl'] at hrole'
        exact absurd rfl hrole'
  | mandated m e he hopen _ =>
    have hstatus : e.status ≠ .userConfirmed := by
      intro hconfirmed
      simp [openHold, hconfirmed] at hopen
    refine .grown e he hstatus (.of_append rfl) fun g hg => ?_
    rcases counts_of_append rfl hg with hg | ⟨-, hno⟩
    · exact .inl hg
    · exact absurd rfl hno
  | expired e he hstatus =>
    exact .grown e he (by simp [hstatus]) (.of_append (List.append_nil _).symm) fun g hg => .inl hg

/-- What `R` must say of a new event: its id is not one that an event could have without counting the
fact it is named after. -/
def Fresh (K : JsString → Prop) (old : Option Event) (e' : Event) : Prop := old = none → ¬ K e'.eventId

theorem Change.get?_eq_none (ht : t.Consistent K) (hnew : ¬ K e'.eventId) (hcounts : e'.Counts e'.eventId)
    (hfree : ∀ g, e'.Counts g → t.eventOfFact.get? g = none) : t.events.get? e'.eventId = none := by
  by_contra hsome
  obtain ⟨x, hx⟩ := Option.ne_none_iff_exists'.mp hsome
  exact hnew (ht.anchored hx (hfree _ hcounts))

/-- A change keeps a table consistent. -/
theorem Table.Consistent.put (ht : t.Consistent K) (h : Change R t e')
    (hR : ∀ e', R none e' → ¬ K e'.eventId) : (t.put e').Consistent K := by
  -- the event the change replaces, if any, counts no more than the new one
  have hgrows : ∀ e, t.events.get? e'.eventId = some e → ∀ g, e.Counts g → e'.Counts g := by
    cases h with
    | made hnew _ hcounts hfree =>
      intro e he
      rw [Change.get?_eq_none ht (hR _ hnew) hcounts hfree] at he
      simp at he
    | grown e he _ hgrows _ =>
      intro x hx
      rw [he] at hx
      exact Option.some.inj hx ▸ hgrows.counts
  refine ⟨ht.toWellFormed.put e', fun {g id} hg => ?_, fun {id x} hx hfree => ?_⟩
  · rw [Table.put_eventOfFact, get?_mapLegs] at hg
    rw [Table.put_events]
    cases hold : t.eventOfFact.get? g with
    | none =>
      rw [hold, Option.none_or] at hg
      split_ifs at hg with hcounts
      · rw [← Option.some.inj hg]
        exact ⟨e', InsertionMap.get?_set_self _ _ _, hcounts⟩
    | some id' =>
      rw [hold, Option.some_or, Option.some.injEq] at hg
      subst hg
      obtain ⟨e, he, hcounts⟩ := ht.sound hold
      by_cases hid : id' = e'.eventId
      · subst hid
        exact ⟨e', InsertionMap.get?_set_self _ _ _, hgrows e he g hcounts⟩
      · exact ⟨e, by rw [InsertionMap.get?_set_of_ne _ _ hid]; exact he, hcounts⟩
  · have hfree' : t.eventOfFact.get? id = none := by
      by_contra hsome
      obtain ⟨id', hid'⟩ := Option.ne_none_iff_exists'.mp hsome
      rw [Table.get?_put_of_some hid'] at hfree
      simp at hfree
    rw [Table.put_events, InsertionMap.get?_set] at hx
    split_ifs at hx with hid
    · -- a new event counts the fact it is named after
      subst hid
      cases h with
      | made _ _ hcounts _ =>
        rw [Table.put_eventOfFact, get?_mapLegs, if_pos hcounts] at hfree
        cases hmapped : t.eventOfFact.get? e'.eventId <;> rw [hmapped] at hfree <;> simp at hfree
      | grown e he _ _ _ => exact ht.anchored he hfree'
    · exact ht.anchored hx hfree'

/-! ### Kept events -/

/-- The events of `t` are in `t'` with more legs, and those the user confirmed as they were. -/
structure Table.Kept (t t' : Table) : Prop where
  grown : ∀ {id e}, t.events.get? id = some e → ∃ e', t'.events.get? id = some e' ∧ e.Grows e'
  confirmed : ∀ {id e}, t.events.get? id = some e → e.status = .userConfirmed →
    t'.events.get? id = some e ∧ (id ∈ t'.changed → id ∈ t.changed)

theorem Table.Kept.refl (t : Table) : t.Kept t :=
  ⟨fun {_ e} he => ⟨e, he, .refl e⟩, fun he _ => ⟨he, id⟩⟩

theorem Table.Kept.trans {t'' : Table} (h : t.Kept t') (h' : t'.Kept t'') : t.Kept t'' where
  grown he := by
    obtain ⟨e', he', hgrows⟩ := h.grown he
    obtain ⟨e'', he'', hgrows'⟩ := h'.grown he'
    exact ⟨e'', he'', hgrows.trans hgrows'⟩
  confirmed he hstatus := by
    obtain ⟨he', hchanged⟩ := h.confirmed he hstatus
    obtain ⟨he'', hchanged'⟩ := h'.confirmed he' hstatus
    exact ⟨he'', fun hid => hchanged (hchanged' hid)⟩

theorem Table.Kept.put (ht : t.Consistent K) (h : Change R t e')
    (hR : ∀ e', R none e' → ¬ K e'.eventId) : t.Kept (t.put e') := by
  have hreplaced : ∀ e, t.events.get? e'.eventId = some e →
      e.status ≠ .userConfirmed ∧ e.Grows e' := by
    cases h with
    | made hnew _ hcounts hfree =>
      intro e he
      rw [Change.get?_eq_none ht (hR _ hnew) hcounts hfree] at he
      simp at he
    | grown e he hstatus hgrows _ =>
      intro x hx
      rw [he] at hx
      exact Option.some.inj hx ▸ ⟨hstatus, hgrows⟩
  refine ⟨fun {id e} he => ?_, fun {id e} he hstatus => ?_⟩
  · by_cases hid : id = e'.eventId
    · subst hid
      exact ⟨e', InsertionMap.get?_set_self _ _ _, (hreplaced e he).2⟩
    · refine ⟨e, ?_, .refl e⟩
      rw [Table.put_events, InsertionMap.get?_set_of_ne _ _ hid]
      exact he
  · have hid : id ≠ e'.eventId := by
      rintro rfl
      exact (hreplaced e he).1 hstatus
    refine ⟨?_, fun hchanged => ?_⟩
    · rw [Table.put_events, InsertionMap.get?_set_of_ne _ _ hid]
      exact he
    · have hchanged : id ∈ addTo t.changed e'.eventId := hchanged
      unfold addTo at hchanged
      split_ifs at hchanged
      · exact hchanged
      · exact (List.mem_append.mp hchanged).resolve_right (by simpa using hid)

theorem Chain.kept (h : Chain env L R t t') (ht : t.Consistent K)
    (hR : ∀ e', R none e' → ¬ K e'.eventId) : t.Kept t' := by
  have hboth := h.induction (P := fun t' => t'.Consistent K ∧ t.Kept t')
    (fun t' e' ht' hw => ⟨ht'.1.put (hw.change ht'.1) hR,
      ht'.2.trans (.put ht'.1 (hw.change ht'.1) hR)⟩) ⟨ht, .refl t⟩
  exact hboth.2

end Write

end PandaPay.SmsV2
