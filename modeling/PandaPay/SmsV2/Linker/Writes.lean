import PandaPay.SmsV2.Linker.Found
import Mathlib.Logic.Relation

/-!
# What a call writes

Every change of the linker's events is a `_put` at one of a few places. `Write` lists these places with
what is known there, and a step of the linker is shown to be a chain of them. All that holds of the
events along any run follows from this list.

## Main definitions

* `Event.Counts`: a fact is a leg of an event other than as its `original`
* `Write env L R t e`: the places that put the event `e` when the events are those of `t`. The facts
  in `L` may become legs, and `R` relates what was there to what is put
* `Chain`: writes after one another
* `Takes`: a chain after which a movement is a leg
* `Allows`: what `L` and `R` must grant for a step to be such a chain

## Main results

* `linkStep_chain`, `attachIpoMandates_chain`, `expireStep_chain`: steps are chains
-/

namespace PandaPay.SmsV2

/-! ### Legs -/

namespace Event

/-- A fact is a leg other than as the `original`, which several events may share. -/
def Counts (e : Event) (g : JsString) : Prop := ∃ l ∈ e.legs, l.factId = g ∧ l.role ≠ .original

instance (e : Event) (g : JsString) : Decidable (e.Counts g) := by
  unfold Counts
  infer_instance

end Event

section Build

variable (env : Env) (id : JsString) (type : EventType) (status : EventStatus)
  (legs : List EventLeg) (ruleId : Option JsString) (prior : Option Event)

@[simp] theorem build_eventId : (env.build id type status legs ruleId prior).eventId = id := rfl

@[simp] theorem build_type : (env.build id type status legs ruleId prior).type = type := rfl

@[simp] theorem build_status : (env.build id type status legs ruleId prior).status = status := rfl

@[simp] theorem build_legs : (env.build id type status legs ruleId prior).legs = legs := rfl

@[simp] theorem build_linkRuleId :
    (env.build id type status legs ruleId prior).linkRuleId = ruleId := rfl

end Build

section Named

variable (env : Env) (rule : LinkRule) (role : LegRole) (f : Fact) (c : Cand) (e : Event)

@[simp] theorem joinedEvent_eventId : (joinedEvent env rule role f c e).eventId = e.eventId := rfl

@[simp] theorem duplicateEvent_eventId : (duplicateEvent env rule f c e).eventId = e.eventId := rfl

@[simp] theorem withNotice_eventId : (withNotice env rule e f).eventId = e.eventId := rfl

@[simp] theorem heldEvent_eventId : (heldEvent env rule f e).eventId = e.eventId := rfl

@[simp] theorem chargedEvent_eventId (g : Fact) :
    (chargedEvent env rule g f e).eventId = e.eventId := rfl

@[simp] theorem mandatedEvent_eventId : (mandatedEvent env f e).eventId = e.eventId := rfl

end Named

/-! ### Writes -/

/-- The places that put an event. -/
inductive Write (env : Env) (L : JsString → Prop) (R : Option Event → Event → Prop) (t : Table) :
    Event → Prop
  | alone (f : Fact) (role : LegRole) (type : EventType) (status : EventStatus)
      (ruleId : Option JsString) :
      L f.factId → role ≠ .original → t.eventOfFact.get? f.factId = none →
      R none (env.build f.factId type status [⟨f.factId, role⟩] ruleId) →
      Write env L R t (env.build f.factId type status [⟨f.factId, role⟩] ruleId)
  | pair (rule : LinkRule) (role : LegRole) (f : Fact) (c : Cand) :
      L f.factId → role ≠ .original → t.eventOfFact.get? f.factId = none →
      (c.role ≠ .original → L c.fact.factId ∧ t.eventOfFact.get? c.fact.factId = none) →
      R none (pairEvent env rule role f c) → Write env L R t (pairEvent env rule role f c)
  | joined (rule : LinkRule) (role : LegRole) (f : Fact) (c : Cand) (e : Event) :
      t.eventOfFact.get? c.fact.factId = some e.eventId → t.events.get? e.eventId = some e →
      isLocked e = false → c.role ≠ .original → L f.factId →
      (role ≠ .original → t.eventOfFact.get? f.factId = none) →
      R (some e) (joinedEvent env rule role f c e) →
      Write env L R t (joinedEvent env rule role f c e)
  | duplicate (rule : LinkRule) (f : Fact) (c : Cand) (e : Event) :
      L f.factId → t.eventOfFact.get? f.factId = none →
      t.eventOfFact.get? c.fact.factId = some e.eventId → t.events.get? e.eventId = some e →
      isLocked e = false → c.role ∈ [.debitLeg, .charge, .creditLeg] →
      R (some e) (duplicateEvent env rule f c e) → Write env L R t (duplicateEvent env rule f c e)
  | notice (rule : LinkRule) (e : Event) (r : Fact) :
      t.eventOfFact.get? r.factId = none → t.events.get? e.eventId = some e → isLocked e = false →
      e.legs ≠ [] → R (some e) (withNotice env rule e r) → Write env L R t (withNotice env rule e r)
  | held (rule : LinkRule) (f : Fact) (e : Event) :
      L f.factId → t.eventOfFact.get? f.factId = none → t.events.get? e.eventId = some e →
      isLocked e = false → R (some e) (heldEvent env rule f e) →
      Write env L R t (heldEvent env rule f e)
  | charged (rule : LinkRule) (g m : Fact) (e : Event) :
      t.events.get? e.eventId = some e → takesMandate env g e →
      R (some e) (chargedEvent env rule g m e) → Write env L R t (chargedEvent env rule g m e)
  | mandated (m : Fact) (e : Event) :
      t.events.get? e.eventId = some e → (openHold env e).isSome →
      R (some e) (mandatedEvent env m e) → Write env L R t (mandatedEvent env m e)
  | expired (e : Event) :
      t.events.get? e.eventId = some e → e.status = .awaitingLeg →
      Write env L R t { e with status := .complete }

/-- What `R` relates in a write: nothing or the event that was there, and the event that is put. A
settled event keeps its status. -/
theorem Write.related {env : Env} {L : JsString → Prop} {R : Option Event → Event → Prop} {t : Table}
    {e' : Event} (h : Write env L R t e') :
    R none e' ∨ (∃ e, t.events.get? e'.eventId = some e ∧
      (isLocked e = false ∨ e'.status = e.status) ∧ R (some e) e') ∨
      ∃ e, t.events.get? e.eventId = some e ∧ e.status = .awaitingLeg ∧
        e' = { e with status := .complete } := by
  cases h with
  | alone f role type status ruleId _ _ _ hR => exact .inl hR
  | pair rule role f c _ _ _ _ hR => exact .inl hR
  | joined rule role f c e _ he hopen _ _ _ hR => exact .inr (.inl ⟨e, he, .inl hopen, hR⟩)
  | duplicate rule f c e _ _ _ he hopen _ hR => exact .inr (.inl ⟨e, he, .inl hopen, hR⟩)
  | notice rule e r _ he hopen _ hR => exact .inr (.inl ⟨e, he, .inl hopen, hR⟩)
  | held rule f e _ _ he hopen hR => exact .inr (.inl ⟨e, he, .inl hopen, hR⟩)
  | charged rule g m e he htakes hR =>
    simp only [takesMandate, Bool.and_eq_true, Bool.not_eq_true'] at htakes
    exact .inr (.inl ⟨e, he, .inl htakes.1.1.1.1, hR⟩)
  | mandated m e he _ hR => exact .inr (.inl ⟨e, he, .inr rfl, hR⟩)
  | expired e he hstatus => exact .inr (.inr ⟨e, he, hstatus, rfl⟩)

/-- Writes after one another. -/
def Chain (env : Env) (L : JsString → Prop) (R : Option Event → Event → Prop) : Table → Table → Prop :=
  Relation.ReflTransGen fun t t' => ∃ e, Write env L R t e ∧ t' = t.put e


/-! ### The table -/

theorem get?_putIfAbsent {κ ν : Type} [DecidableEq κ] (m : InsertionMap κ ν) (k : κ) (v : ν) (g : κ) :
    (putIfAbsent m k v).get? g = (m.get? g).or (if g = k then some v else none) := by
  unfold putIfAbsent
  by_cases hg : g = k
  · subst hg
    cases hk : m.get? g <;> simp [hk]
  · rw [if_neg hg, Option.or_none]
    split_ifs
    · rfl
    · exact InsertionMap.get?_set_of_ne m v hg

theorem get?_foldl_mapLegs (id : JsString) (legs : List EventLeg) (m : InsertionMap JsString JsString)
    (g : JsString) :
    (legs.foldl (fun m l => if l.role = .original then m else putIfAbsent m l.factId id) m).get? g =
      (m.get? g).or (if ∃ l ∈ legs, l.factId = g ∧ l.role ≠ .original then some id else none) := by
  induction legs generalizing m with
  | nil => simp
  | cons l legs ih =>
    rw [List.foldl_cons, ih]
    by_cases hl : l.role = .original
    · simp [hl]
    · rw [if_neg hl, get?_putIfAbsent]
      by_cases hg : g = l.factId
      · subst hg
        cases m.get? l.factId <;> simp [hl]
      · simp [hg, Ne.symm hg]

theorem get?_mapLegs (m : InsertionMap JsString JsString) (e : Event) (g : JsString) :
    (mapLegs m e).get? g = (m.get? g).or (if e.Counts g then some e.eventId else none) := by
  unfold mapLegs Event.Counts
  exact get?_foldl_mapLegs e.eventId e.legs m g

/-- Events are listed under their ids, and what they count is known. -/
structure Table.WellFormed (t : Table) : Prop where
  named : ∀ {id e}, t.events.get? id = some e → e.eventId = id
  mapped : ∀ {id e g}, t.events.get? id = some e → e.Counts g → t.eventOfFact.get? g ≠ none

namespace Table

variable {t : Table} {e : Event}

@[simp] theorem put_events (t : Table) (e : Event) :
    (t.put e).events = t.events.set e.eventId e := rfl

@[simp] theorem put_eventOfFact (t : Table) (e : Event) :
    (t.put e).eventOfFact = mapLegs t.eventOfFact e := rfl

/-- What is known of a fact stays. -/
theorem get?_put_of_some {g id : JsString} (h : t.eventOfFact.get? g = some id) :
    (t.put e).eventOfFact.get? g = some id := by
  rw [put_eventOfFact, get?_mapLegs, h, Option.some_or]

theorem get?_put_eq_none {g : JsString} (h : t.eventOfFact.get? g = none) (hg : ¬ e.Counts g) :
    (t.put e).eventOfFact.get? g = none := by
  rw [put_eventOfFact, get?_mapLegs, h, if_neg hg, Option.or_none]

theorem WellFormed.put (h : t.WellFormed) (e : Event) : (t.put e).WellFormed where
  named {id e'} he' := by
    rw [put_events, InsertionMap.get?_set] at he'
    split_ifs at he' with hid
    · rw [hid, Option.some.inj he']
    · exact h.named he'
  mapped {id e' g} he' hg := by
    rw [put_events, InsertionMap.get?_set] at he'
    rw [put_eventOfFact, get?_mapLegs]
    split_ifs at he' with hid
    · obtain rfl := Option.some.inj he'
      rw [if_pos hg]
      cases t.eventOfFact.get? g <;> simp
    · obtain ⟨id', hid'⟩ := Option.ne_none_iff_exists'.mp (h.mapped he' hg)
      simp [hid']

end Table

/-! ### Chains -/

namespace Chain

variable {env : Env} {L : JsString → Prop} {R : Option Event → Event → Prop} {t t' t'' : Table}

theorem refl : Chain env L R t t := Relation.ReflTransGen.refl

theorem trans (h : Chain env L R t t') (h' : Chain env L R t' t'') : Chain env L R t t'' :=
  Relation.ReflTransGen.trans h h'

theorem put {e : Event} (h : Write env L R t e) : Chain env L R t (t.put e) :=
  Relation.ReflTransGen.single ⟨e, h, rfl⟩

/-- What every write preserves is preserved. -/
theorem induction {P : Table → Prop} (hstep : ∀ t e, P t → Write env L R t e → P (t.put e))
    (h : Chain env L R t t') (ht : P t) : P t' := by
  induction h with
  | refl => exact ht
  | tail _ hlast ih =>
    obtain ⟨e, he, rfl⟩ := hlast
    exact hstep _ e ih he

theorem wellFormed (h : Chain env L R t t') (ht : t.WellFormed) : t'.WellFormed :=
  h.induction (fun _ e ht _ => ht.put e) ht

/-- A fact that is a leg stays one. -/
theorem mapped (h : Chain env L R t t') {g : JsString} (hg : t.eventOfFact.get? g ≠ none) :
    t'.eventOfFact.get? g ≠ none := by
  refine h.induction (P := fun t => t.eventOfFact.get? g ≠ none) (fun t e ht _ => ?_) hg
  obtain ⟨id, hid⟩ := Option.ne_none_iff_exists'.mp ht
  rw [Table.get?_put_of_some hid]
  nofun

end Chain

/-- A chain after which a movement is a leg. -/
structure Takes (env : Env) (L : JsString → Prop) (R : Option Event → Event → Prop) (f : Fact)
    (t t' : Table) : Prop where
  chain : Chain env L R t t'
  mapped : f.isMovement → t'.eventOfFact.get? f.factId ≠ none

namespace Takes

variable {env : Env} {L : JsString → Prop} {R : Option Event → Event → Prop} {f : Fact}
  {t t' t'' : Table}

theorem put {e : Event} (h : Write env L R t e) (hcounts : e.Counts f.factId) :
    Takes env L R f t (t.put e) where
  chain := .put h
  mapped _ := by
    rw [Table.put_eventOfFact, get?_mapLegs, if_pos hcounts]
    cases t.eventOfFact.get? f.factId <;> simp

theorem before (h : Chain env L R t t') (h' : Takes env L R f t' t'') : Takes env L R f t t'' :=
  ⟨h.trans h'.chain, h'.mapped⟩

theorem after (h : Takes env L R f t t') (h' : Chain env L R t' t'') : Takes env L R f t t'' :=
  ⟨h.chain.trans h', fun hmovement => h'.mapped (h.mapped hmovement)⟩

end Takes

/-! ### Joins -/

section Joins

variable {env : Env} {L : JsString → Prop} {R : Option Event → Event → Prop} {s : Run}

theorem statusFor_eq (rule : LinkRule) (legs : List EventLeg) :
    env.statusFor rule legs = .complete ∨ env.statusFor rule legs = .awaitingLeg := by
  unfold Env.statusFor
  by_cases hkind : rule.kind ≠ .ipo
  · rw [if_pos hkind]
    exact .inl rfl
  · rw [if_neg hkind]
    dsimp only
    split
    · exact (ite_eq_or_eq _ _ _).symm
    · exact ite_eq_or_eq _ _ _

/-- An event a rule joined may change further. -/
theorem not_isLocked_joinedEvent (rule : LinkRule) (role : LegRole) (f : Fact) (c : Cand)
    (e : Event) : isLocked (joinedEvent env rule role f c e) = false := by
  have hstatus : (joinedEvent env rule role f c e).status =
      env.statusFor rule (joinedLegs e c ⟨f.factId, role⟩) := rfl
  unfold isLocked
  rw [hstatus]
  rcases @statusFor_eq env rule (joinedLegs e c ⟨f.factId, role⟩) with h | h <;> simp [h]

theorem counts_joinedEvent {rule : LinkRule} {role : LegRole} {f : Fact} {c : Cand} {e : Event}
    {g : JsString} (h : (joinedEvent env rule role f c e).Counts g) :
    e.Counts g ∨ g = c.fact.factId ∨ (g = f.factId ∧ role ≠ .original) := by
  obtain ⟨l, hl, rfl, hrole⟩ := h
  rcases List.mem_append.mp hl with hl | hl
  · obtain ⟨l', hl', rfl⟩ := List.mem_map.mp hl
    split_ifs at hrole ⊢ with hrelabel
    · exact .inr (.inl hrelabel.2.2)
    · exact .inl ⟨l', hl', rfl, hrole⟩
  · rw [List.mem_singleton] at hl
    exact .inr (.inr ⟨by rw [hl], by rwa [hl] at hrole⟩)

theorem join_toTable_of_event {rule : LinkRule} {role : LegRole} {f : Fact} {c : Cand} {id : JsString}
    {e : Event} (hc : c.eventId = some id) (he : s.events.get? id = some e) :
    (join env s rule role f c).1.toTable = s.toTable.put (joinedEvent env rule role f c e) := by
  simp only [join, hc, he]
  split_ifs <;> rfl

theorem join_toTable_of_fact {rule : LinkRule} {role : LegRole} {f : Fact} {c : Cand}
    (hc : c.eventId = none) :
    (join env s rule role f c).1.toTable = s.toTable.put (pairEvent env rule role f c) := by
  simp only [join, hc]
  split_ifs <;> rfl

end Joins

end PandaPay.SmsV2
