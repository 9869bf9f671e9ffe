import PandaPay.SmsV2.Linker.Calls

/-!
# Every payment is counted once

From an empty store, whatever the rules and the order of the facts, each movement that is no receipt is
a leg of one event, no fact is a leg of two, and an event is named after its first leg.

## Main definitions

* `Table.Partitioned`: each leg is one of a single event
* `Store.Partitioned`: the same of what is stored, with all payments in it

## Main results

* `partitioned_of_calls`: what any sequence of calls keeps
-/

namespace PandaPay.SmsV2

/-- The index lists the one event each fact is a leg of, and an event is named after its first leg. -/
structure Table.Partitioned (t : Table) : Prop extends t.Consistent fun _ => False where
  unique : ∀ {g id e}, t.events.get? id = some e → e.Counts g → t.eventOfFact.get? g = some id
  headed : ∀ {id e}, t.events.get? id = some e → e.factIds.head? = some id ∧ e.Counts id

section Write

variable {env : Env} {L : JsString → Prop} {R : Option Event → Event → Prop} {t t' : Table} {e' : Event}

theorem Table.Partitioned.put (ht : t.Partitioned) (h : Change R t e') : (t.put e').Partitioned := by
  refine ⟨ht.toConsistent.put h fun _ _ => id, fun {g id e} he hg => ?_, fun {id e} he => ?_⟩
  · rw [Table.put_events, InsertionMap.get?_set] at he
    split_ifs at he with hid
    · -- the event that was put: its legs were its own or free
      obtain rfl := Option.some.inj he
      rw [Table.put_eventOfFact, get?_mapLegs, if_pos hg, hid]
      cases h with
      | made _ _ _ hfree => rw [hfree g hg, Option.none_or]
      | grown e he _ _ hnew =>
        rcases hnew g hg with hold | hfree
        · rw [ht.unique he hold, Option.some_or]
        · rw [hfree, Option.none_or]
    · exact Table.get?_put_of_some (ht.unique he hg)
  · rw [Table.put_events, InsertionMap.get?_set] at he
    split_ifs at he with hid
    · obtain rfl := Option.some.inj he
      rw [hid]
      cases h with
      | made _ hhead hcounts _ => exact ⟨hhead, hcounts⟩
      | grown e he _ hgrows _ =>
        obtain ⟨more, hmore⟩ := hgrows.legs
        refine ⟨?_, hgrows.counts _ (ht.headed he).2⟩
        rw [← hmore, List.head?_append, (ht.headed he).1, Option.some_or]
    · exact ht.headed he

theorem Chain.partitioned (h : Chain env L R t t') (ht : t.Partitioned) : t'.Partitioned :=
  h.induction (fun _ _ ht hw => ht.put (hw.change ht.toConsistent)) ht

end Write

/-! ### The store -/

/-- Each leg is one of a single event, an event is named after its first leg, and every payment is a
leg. -/
structure Store.Partitioned (store : Store) : Prop where
  unique : ∀ {g id id' e e'}, store.events.get? id = some e → store.events.get? id' = some e' →
    e.Counts g → e'.Counts g → id = id'
  headed : ∀ {id e}, store.events.get? id = some e → e.factIds.head? = some id ∧ e.Counts id
  covered : ∀ f ∈ store.facts, f.isMovement → f.evidenceOnly = false →
    ∃ id e, store.events.get? id = some e ∧ e.Counts f.factId

theorem Store.Partitioned.table {store : Store} {context : LinkContext} (h : store.Partitioned)
    (hholds : context.Holds store) : context.table.Partitioned := by
  have hknown := known_table context
  have stored {id : JsString} {e : Event} (he : context.table.events.get? id = some e) :
      store.events.get? id = some e := hholds.get?_table id ▸ he
  have hunique : ∀ {g id e}, context.table.events.get? id = some e → e.Counts g →
      context.table.eventOfFact.get? g = some id := fun {g id e} he hg => by
    obtain ⟨id', hid'⟩ := Option.ne_none_iff_exists'.mp (hknown.mapped he hg)
    obtain ⟨e', he', hg'⟩ := hknown.sound hid'
    rw [hid', h.unique (stored he) (stored he') hg hg']
  refine ⟨⟨hknown.toWellFormed, hknown.sound, fun {id e} he hfree => ?_⟩, hunique,
    fun he => h.headed (stored he)⟩
  rw [hunique he (h.headed (stored he)).2] at hfree
  simp at hfree

/-- What a partitioned table stores is partitioned. -/
theorem Store.Partitioned.of_table {store : Store} {t : Table} (ht : t.Partitioned)
    (hget : ∀ id, store.events.get? id = t.events.get? id)
    (hcovered : ∀ f ∈ store.facts, f.isMovement → f.evidenceOnly = false →
      t.eventOfFact.get? f.factId ≠ none) : store.Partitioned where
  unique he he' hg hg' := by
    rw [hget] at he he'
    exact Option.some.inj ((ht.unique he hg).symm.trans (ht.unique he' hg'))
  headed he := by
    rw [hget] at he
    exact ht.headed he
  covered f hf hmovement hmoney := by
    obtain ⟨id, hid⟩ := Option.ne_none_iff_exists'.mp (hcovered f hf hmovement hmoney)
    obtain ⟨e, he, hcounts⟩ := ht.sound hid
    exact ⟨id, e, (hget id).trans he, hcounts⟩

theorem allows_of_true {env : Env} {s : Run} {f : Fact} :
    Allows env (fun _ => True) (fun _ _ => True) s f :=
  NewAllows.allows ⟨fun _ => trivial, fun _ _ _ _ _ => trivial,
    fun _ _ _ _ _ _ _ => ⟨trivial, fun _ => trivial⟩⟩ fun _ _ => trivial

theorem linkAllows_of_true {linker : Linker} {context : LinkContext} {rules : List LinkRule} {now : ℤ}
    {incoming : List Fact} :
    LinkAllows (fun _ => True) (fun _ _ => True) linker context rules now incoming where
  steps := passes_of_forall (fun _ _ _ _ => allows_of_true) _
  mandates _ _ := passes_of_forall (fun _ _ _ _ _ => trivial) _

/-- Every payment that is linked is a leg when the loop ends. -/
theorem linkSteps_mapped {env : Env} {s s' : Run} {facts : List Fact} (hs : s.WellFormed)
    (h : facts.foldlM (linkStep env) s = .ok s') {f : Fact} (hf : f ∈ facts) (hmovement : f.isMovement)
    (hmoney : f.evidenceOnly = false) : s'.eventOfFact.get? f.factId ≠ none := by
  induction facts generalizing s with
  | nil => simp at hf
  | cons g facts ih =>
    rw [List.foldlM_cons, bind_eq_ok] at h
    obtain ⟨t, ht, h⟩ := h
    have hallow : s.eventOfFact.get? g.factId = none →
        Allows env (fun _ => True) (fun _ _ => True) s g := fun _ => allows_of_true
    have hstep := linkStep_chain hs hallow ht
    rcases List.mem_cons.mp hf with rfl | hf
    · have hrest := linkSteps_chain (L := fun _ => True) (R := fun _ _ => True) (hstep.wellFormed hs)
        (passes_of_forall (fun _ _ _ _ => allows_of_true) _) h
      exact hrest.mapped (linkStep_mapped hs hallow hmovement hmoney ht)
    · exact ih (hstep.wellFormed hs) h hf

/-- What was a leg when a call began is one when it ends. -/
theorem Store.Partitioned.mapped {store : Store} {context : LinkContext} (h : store.Partitioned)
    (hholds : context.Holds store) {f : Fact} (hf : f ∈ store.facts) (hmovement : f.isMovement)
    (hmoney : f.evidenceOnly = false) : context.table.eventOfFact.get? f.factId ≠ none := by
  obtain ⟨id, e, he, hcounts⟩ := h.covered f hf hmovement hmoney
  exact (known_table context).mapped ((hholds.get?_table id).trans he) hcounts

theorem Store.Partitioned.call {store store' : Store} (h : store.Partitioned)
    (hcall : Call NewFacts store store') : store'.Partitioned := by
  cases hcall with
  | link linker context rules now incoming result hholds hnew hlink =>
    obtain ⟨s, hs, hresult⟩ := bind_eq_ok.mp hlink
    obtain rfl := Except.ok.inj hresult
    have hchain := linked_chain linkAllows_of_true hs
    refine .of_table (hchain.partitioned (h.table hholds))
      (hholds.get?_apply hchain) ?_
    intro f hf hmovement hmoney
    rcases List.mem_append.mp hf with hf | hf
    · exact hchain.mapped (h.mapped hholds hf hmovement hmoney)
    · obtain ⟨t, ht, hattach⟩ := bind_eq_ok.mp hs
      have hmapped := linkSteps_mapped (start_wellFormed _ _) ht (mem_arrivals hnew.1 hf) hmovement
        hmoney
      have hwell := (linkSteps_chain (L := fun _ => True) (R := fun _ _ => True)
        (start_wellFormed _ _) (passes_of_forall (fun _ _ _ _ => allows_of_true) _) ht).wellFormed
        (start_wellFormed _ _)
      rw [← Except.ok.inj hattach]
      exact (attachIpoMandates_chain (L := fun _ => True) (R := fun _ _ => True) hwell
        (passes_of_forall (fun _ _ _ _ _ => trivial) _)).mapped hmapped
  | expire linker context rules now hholds =>
    have hchain := expired_chain linker context rules now (L := fun _ => True) (R := fun _ _ => True)
    refine .of_table (hchain.partitioned (h.table hholds))
      (hholds.get?_apply hchain) ?_
    intro f hf hmovement hmoney
    have hf : f ∈ store.facts := by simpa [Store.apply] using hf
    exact hchain.mapped (h.mapped hholds hf hmovement hmoney)

/-- Every sequence of calls keeps what is stored partitioned. -/
theorem partitioned_of_reached {store : Store}
    (h : Relation.ReflTransGen (Call NewFacts) {} store) : store.Partitioned := by
  induction h with
  | refl => exact ⟨fun he => by simp at he, fun he => by simp at he, fun f hf => by simp at hf⟩
  | tail _ hcall ih => exact ih.call hcall

/-- Of the events with a leg in common there is at most one. -/
theorem Store.Partitioned.length_le_one {store : Store} (h : store.Partitioned) (g : JsString) :
    (store.events.values.filter fun e => e.Counts g).length ≤ 1 := by
  have hentries : store.events.values.filter (fun e => e.Counts g) =
      (store.events.entries.filter fun entry => entry.2.Counts g).map Prod.snd :=
    List.filter_map
  rw [hentries, List.length_map]
  have hnodup : ((store.events.entries.filter fun entry => entry.2.Counts g).map Prod.fst).Nodup :=
    store.events.nodup_keys.sublist (List.filter_sublist.map _)
  have hmem : ∀ entry ∈ store.events.entries.filter fun entry => entry.2.Counts g,
      store.events.get? entry.1 = some entry.2 ∧ entry.2.Counts g := fun entry hentry =>
    ⟨InsertionMap.get?_eq_some_iff.mpr (List.mem_of_mem_filter hentry),
      by simpa using (List.mem_filter.mp hentry).2⟩
  match hlist : store.events.entries.filter fun entry => entry.2.Counts g with
  | [] => rw [hlist]; exact Nat.zero_le 1
  | [_] => rw [hlist]; exact le_refl 1
  | a :: b :: _ =>
    rw [hlist] at hnodup hmem
    obtain ⟨ha, hga⟩ := hmem a (by simp)
    obtain ⟨hb, hgb⟩ := hmem b (by simp)
    rw [List.map_cons, List.map_cons, List.nodup_cons] at hnodup
    exact absurd (h.unique ha hb hga hgb) fun heq => hnodup.1 (heq ▸ List.mem_cons_self)

end PandaPay.SmsV2
