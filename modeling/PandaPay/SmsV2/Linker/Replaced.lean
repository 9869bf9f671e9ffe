import PandaPay.SmsV2.Linker.Calls
import PandaPay.SmsV2.Linker.Rules

/-!
# Replaced facts

A correction replaces a fact: it stays the `original` of the confirmed event, whose money is the
corrected fact. The index of the legs leaves out an `original`, so the replaced fact looks loose to the
linker. It gets no money role as long as no pair rule joins it as a loose fact.

## Main definitions

* `Store.Replaced`: a correction has replaced a fact
* `IdleLeg`, `Table.Idle`, `Store.Idle`: the fact is an `original`, or a notice beside other legs

## Main results

* `replaced_fact_idle`: along any run of such calls the fact has no money role
* `not_replaced_fact_idle`: a run in which it gets one
-/

namespace PandaPay.SmsV2

/-- A correction has replaced the stored fact `d`: it is the `original` of an event the user confirmed,
whose money is another fact, and no event has it in another role. -/
structure Store.Replaced (store : Store) (d : JsString) : Prop where
  stored : d ∈ store.facts.map Fact.factId
  confirmed : ∃ id e, store.events.get? id = some e ∧ e.status = .userConfirmed ∧
    ⟨d, .original⟩ ∈ e.legs ∧ ∃ l ∈ e.legs, l.factId ≠ d ∧ l.role ∈ moneyRoles
  original : ∀ {id e}, store.events.get? id = some e → ∀ l ∈ e.legs, l.factId = d → l.role = .original

/-- The fact `d` is an `original`, or a notice beside other legs. -/
def IdleLeg (d : JsString) (e : Event) : Prop :=
  ∀ l ∈ e.legs, l.factId = d → l.role = .original ∨ l.role = .duplicateNotice ∧ e.legs.length ≠ 1

/-- The fact `d` is idle in every event, and an event that has it as its only leg is not the one it is
counted in. -/
structure Table.Idle (d : JsString) (t : Table) : Prop where
  named : ∀ {id e}, t.events.get? id = some e → e.eventId = id
  legs : ∀ {id e}, t.events.get? id = some e → IdleLeg d e
  single : ∀ {id e}, t.events.get? id = some e → e.legs.length = 1 → (∃ l ∈ e.legs, l.factId = d) →
    t.eventOfFact.get? d ≠ some id

/-- The fact `d` is stored, and idle in every event. -/
structure Store.Idle (d : JsString) (store : Store) : Prop where
  stored : d ∈ store.facts.map Fact.factId
  legs : ∀ {id e}, store.events.get? id = some e → IdleLeg d e

section Write

variable {env : Env} {d : JsString} {R : Option Event → Event → Prop} {t t' : Table} {e' : Event}

/-- Legs that keep their facts, and one more. -/
theorem idleLeg_of_append {e : Event} {relabel : EventLeg → EventLeg} {new : EventLeg}
    (h : e'.legs = e.legs.map relabel ++ [new]) (hid : ∀ l ∈ e.legs, (relabel l).factId = l.factId)
    (hold : ∀ l ∈ e.legs, l.factId = d → (relabel l).role = .original ∨
      (relabel l).role = .duplicateNotice)
    (hnew : new.factId = d → new.role = .original ∨ new.role = .duplicateNotice ∧ e.legs ≠ []) :
    IdleLeg d e' := by
  intro l hl hd
  have hlength : e'.legs.length = e.legs.length + 1 := by rw [h]; simp
  rw [h] at hl
  rcases List.mem_append.mp hl with hl | hl
  · obtain ⟨l', hl', rfl⟩ := List.mem_map.mp hl
    have hpos : 0 < e.legs.length := List.length_pos_of_mem hl'
    refine (hold l' hl' (hid l' hl' ▸ hd)).imp_right fun hrole => ⟨hrole, by omega⟩
  · rw [List.mem_singleton] at hl
    subst hl
    refine (hnew hd).imp_right fun ⟨hrole, hne⟩ => ⟨hrole, ?_⟩
    have hpos : 0 < e.legs.length := List.length_pos_iff.mpr hne
    omega

/-- A write leaves an idle fact idle in the event it puts. -/
theorem Write.idleLeg (ht : t.Idle d) (h : Write env (fun g => g ≠ d) R t e') : IdleLeg d e' := by
  have keep {e : Event} (he : t.events.get? e.eventId = some e) : ∀ l ∈ e.legs, l.factId = d →
      l.role = .original ∨ l.role = .duplicateNotice := fun l hl hd =>
    (ht.legs he l hl hd).imp_right And.left
  cases h with
  | alone f role type status ruleId hf =>
    intro l hl hd
    rw [build_legs, List.mem_singleton] at hl
    rw [hl] at hd
    exact absurd hd hf
  | pair rule role f c hf _ _ hc _ =>
    intro l hl hd
    have hl : l ∈ pairLegsOf role f c := hl
    have hcases : l = ⟨f.factId, role⟩ ∨ l = ⟨c.fact.factId, c.role⟩ := by
      unfold pairLegsOf at hl
      split_ifs at hl <;> simp only [List.mem_cons, List.not_mem_nil, or_false] at hl
      · exact hl
      · exact hl.symm
    rcases hcases with rfl | rfl
    · exact absurd hd hf
    · by_contra hno
      exact (hc fun horiginal => hno (.inl horiginal)).1 hd
  | joined rule role f c e hmapped he _ _ hf _ _ =>
    refine idleLeg_of_append rfl (fun l _ => ?_) (fun l hl hd => ?_) fun hd => absurd hd hf
    · split_ifs <;> rfl
    · split_ifs with hrelabel
      · -- the only leg of an event is not one it counts
        have hsingle := ht.single he hrelabel.2.1 ⟨l, hl, hd⟩
        rw [← hd, hrelabel.2.2] at hsingle
        exact absurd hmapped hsingle
      · exact keep he l hl hd
  | duplicate rule f c e hf _ _ he _ _ _ =>
    refine idleLeg_of_append rfl (fun l _ => ?_) (fun l hl hd => ?_) fun hd => absurd hd hf
    · split_ifs <;> rfl
    · split_ifs
      · exact .inr rfl
      · exact keep he l hl hd
  | notice rule e r _ he _ hlegs _ =>
    refine idleLeg_of_append (by rw [List.map_id]; rfl :
      (withNotice env rule e r).legs = e.legs.map id ++ [⟨r.factId, .duplicateNotice⟩])
      (fun _ _ => rfl) (keep he) fun _ => ?_
    exact .inr ⟨rfl, hlegs⟩
  | held rule f e hf _ he _ _ =>
    exact idleLeg_of_append (by rw [List.map_id]; rfl :
      (heldEvent env rule f e).legs = e.legs.map id ++ [⟨f.factId, .holdPlaced⟩])
      (fun _ _ => rfl) (keep he) fun hd => absurd hd hf
  | charged rule g m e he htakes _ =>
    refine idleLeg_of_append rfl (fun l _ => ?_) (fun l hl hd => ?_) fun _ => .inl rfl
    · split_ifs with hsame
      · exact hsame.symm
      · rfl
    · split_ifs with hsame
      · -- the charge has the role of a debit, which an idle fact has not
        simp only [takesMandate, Bool.and_eq_true] at htakes
        obtain ⟨l', hfind, hrole⟩ := Option.map_eq_some_iff.mp (of_decide_eq_true htakes.1.2)
        have hid : l'.factId = g.factId := by simpa using List.find?_some hfind
        have hidle := keep he l' (List.mem_of_find?_eq_some hfind) (hid.trans (hsame.symm.trans hd))
        rw [hrole] at hidle
        simp at hidle
      · exact keep he l hl hd
  | mandated m e he _ _ =>
    exact idleLeg_of_append (by rw [List.map_id]; rfl :
      (mandatedEvent env m e).legs = e.legs.map id ++ [⟨m.factId, .original⟩])
      (fun _ _ => rfl) (keep he) fun _ => .inl rfl
  | expired e he _ =>
    show IdleLeg d e
    exact ht.legs he

/-- An event with the fact `d` as its only leg was there before, with the same leg. -/
theorem Write.single (h : Write env (fun g => g ≠ d) R t e') (hlength : e'.legs.length = 1)
    (hd : ∃ l ∈ e'.legs, l.factId = d) : ∃ e, t.events.get? e'.eventId = some e ∧ e.legs = e'.legs := by
  obtain ⟨l, hl, rfl⟩ := hd
  -- a leg added to no legs is another fact
  have absent {e : Event} {relabel : EventLeg → EventLeg} {new : EventLeg}
      (h : e'.legs = e.legs.map relabel ++ [new]) : new.factId = l.factId ∧ e.legs = [] := by
    have hnil : e.legs = [] := by
      rw [h] at hlength
      simpa using hlength
    rw [h, hnil, List.map_nil, List.nil_append, List.mem_singleton] at hl
    exact ⟨by rw [hl], hnil⟩
  have appended {e : Event} {new : EventLeg} (h : e'.legs = e.legs ++ [new]) :
      new.factId = l.factId ∧ e.legs = [] :=
    absent (by rw [h, List.map_id] : e'.legs = e.legs.map id ++ [new])
  cases h with
  | alone f role type status ruleId hf =>
    rw [build_legs, List.mem_singleton] at hl
    exact absurd (by rw [hl]) hf
  | pair rule role f c =>
    have htwo : (pairEvent env rule role f c).legs.length = 2 := by
      unfold pairEvent pairLegsOf
      split_ifs <;> rfl
    rw [htwo] at hlength
    simp at hlength
  | joined rule role f c e _ _ _ _ hf => exact absurd (absent rfl).1 hf
  | duplicate rule f c e hf => exact absurd (absent rfl).1 hf
  | notice rule e r _ _ _ hlegs => exact absurd (appended rfl).2 hlegs
  | held rule f e hf => exact absurd (appended rfl).1 hf
  | charged rule g m e he htakes _ =>
    simp only [takesMandate, Bool.and_eq_true] at htakes
    obtain ⟨l', hfind, -⟩ := Option.map_eq_some_iff.mp (of_decide_eq_true htakes.1.2)
    exact absurd (absent rfl).2 (List.ne_nil_of_mem (List.mem_of_find?_eq_some hfind))
  | mandated m e he hopen _ =>
    have hnil : e.legs = [] := (appended rfl).2
    unfold openHold at hopen
    split_ifs at hopen
    · simp at hopen
    · rw [hnil] at hopen
      simp at hopen
  | expired e he _ => exact ⟨e, he, rfl⟩

theorem Table.Idle.put (ht : t.Idle d) (h : Write env (fun g => g ≠ d) R t e') : (t.put e').Idle d := by
  have hlegs := h.idleLeg ht
  refine ⟨fun {id e} he => ?_, fun {id e} he => ?_, fun {id e} he hlength hd => ?_⟩
  · rw [put_events, InsertionMap.get?_set] at he
    split_ifs at he with hid
    · rw [hid, Option.some.inj he]
    · exact ht.named he
  · rw [put_events, InsertionMap.get?_set] at he
    split_ifs at he with hid
    · exact Option.some.inj he ▸ hlegs
    · exact ht.legs he
  · rw [put_events, InsertionMap.get?_set] at he
    rw [put_eventOfFact, get?_mapLegs]
    split_ifs at he with hid
    · obtain rfl := Option.some.inj he
      have hcounts : ¬ e'.Counts d := by
        rintro ⟨l, hl, hld, hrole⟩
        exact ((hlegs l hl hld).resolve_left hrole).2 hlength
      obtain ⟨e, he, hsame⟩ := h.single hlength hd
      rw [if_neg hcounts, Option.or_none, hid]
      exact ht.single he (hsame ▸ hlength) (hsame ▸ hd)
    · have hold := ht.single he hlength hd
      cases hmapped : t.eventOfFact.get? d with
      | some id' => rwa [Option.some_or, ← hmapped]
      | none =>
        rw [Option.none_or]
        split_ifs
        · exact fun heq => hid (Option.some.inj heq).symm
        · nofun

theorem Chain.idle (h : Chain env (fun g => g ≠ d) R t t') (ht : t.Idle d) : t'.Idle d :=
  h.induction (fun _ _ ht hw => ht.put hw) ht

end Write

/-! ### Runs -/

section Runs

variable {d : JsString} {store store' : Store}

theorem Store.Replaced.idle (h : store.Replaced d) : store.Idle d :=
  ⟨h.stored, fun he l hl hd => .inl (h.original he l hl hd)⟩

theorem Store.Idle.table {context : LinkContext} (h : store.Idle d) (hholds : context.Holds store) :
    context.table.Idle d := by
  have hknown := known_table context
  have hlegs : ∀ {id e}, context.table.events.get? id = some e → IdleLeg d e :=
    fun he => h.legs ((hholds.get?_table _).symm.trans he)
  refine ⟨hknown.named, hlegs, fun {id e} he hlength _ hmapped => ?_⟩
  obtain ⟨e', he', l, hl, hld, hrole⟩ := hknown.sound hmapped
  rw [he] at he'
  obtain rfl := Option.some.inj he'
  exact ((hlegs he l hl hld).resolve_left hrole).2 hlength

/-- Where no pair rule joins the fact `d`, the steps of a call are writes that do not make it a leg. -/
theorem NewFactsJoin.allows {linker : Linker} {context : LinkContext} {rules : List LinkRule} {now : ℤ}
    {incoming : List Fact} (hstored : d ∈ store.facts.map Fact.factId)
    (h : NewFactsJoin (fun g => g.factId ≠ d) store linker context rules now incoming) :
    LinkAllows (fun g => g ≠ d) (fun _ _ => True) linker context rules now incoming where
  steps := by
    refine Passes.imp (fun f hf s hjoins hfree => ?_) h.2
    refine NewAllows.allows ⟨fun _ hsame => ?_, fun _ _ _ _ _ => trivial,
      fun rule leg c cs hchoice hone hloose =>
        ⟨trivial, hjoins hfree rule leg c cs hchoice hone hloose⟩⟩ fun _ _ => trivial
    exact h.1.2 f (mem_of_mem_arrivals hf) (hsame ▸ hstored)
  mandates _ _ := passes_of_forall (fun _ _ _ _ _ => trivial) _

theorem Store.Idle.call (h : store.Idle d)
    (hcall : Call (NewFactsJoin fun g => g.factId ≠ d) store store') : store'.Idle d := by
  cases hcall with
  | link linker context rules now incoming result hholds hjoin hlink =>
    obtain ⟨s, hs, hresult⟩ := bind_eq_ok.mp hlink
    obtain rfl := Except.ok.inj hresult
    have hchain := linked_chain (hjoin.allows h.stored) hs
    have hget := hholds.get?_apply hchain
    refine ⟨?_, fun {id e} he => (hchain.idle (h.table hholds)).legs ((hget id).symm.trans he)⟩
    exact List.map_append ▸ List.mem_append_left _ h.stored
  | expire linker context rules now hholds =>
    have hchain := expired_chain linker context rules now (L := fun g => g ≠ d) (R := fun _ _ => True)
    have hget := hholds.get?_apply hchain
    refine ⟨?_, fun {id e} he => (hchain.idle (h.table hholds)).legs ((hget id).symm.trans he)⟩
    exact List.map_append ▸ List.mem_append_left _ h.stored

end Runs

/-- The credit of a transfer, after the user corrected its amount to 300 rupees. -/
def correctedCredit : Fact :=
  { transferCredit with
    factId := js "corrected"
    sourceKey := js "correction:1"
    amounts := [⟨.posted, 30000, js "INR", none⟩]
    ruleId := js "USER-CORRECTION" }

/-- The event of the transfer after the correction. -/
def correctedPair : Event where
  eventId := js "debit"
  type := .ownTransfer
  status := .userConfirmed
  legs := [⟨js "debit", .debitLeg⟩, ⟨js "credit", .original⟩, ⟨js "corrected", .creditLeg⟩]
  linkRuleId := some (js "LINK-OWN-TRANSFER")
  confidence := 1
  occurredAt := 1000
  amountMinor := 30000

/-- What is stored after the correction. -/
def correctedStore : Store where
  facts := [transferDebit, transferCredit, correctedCredit]
  events := InsertionMap.empty.set (js "debit") correctedPair
  named {id e} h := by
    rw [InsertionMap.get?_set] at h
    split_ifs at h with hid
    · rw [hid, ← Option.some.inj h]
      rfl
    · simp at h

/-- Another debit of 250 rupees to an account of the user. -/
def laterDebit : Fact :=
  { transferDebit with
    factId := js "later"
    sourceKey := js "bank:later"
    observedAt := 3000 }

/-- The event of the replaced credit and the other debit. -/
def secondTransfer : Event where
  eventId := js "credit"
  type := .ownTransfer
  status := .complete
  legs := [⟨js "credit", .creditLeg⟩, ⟨js "later", .debitLeg⟩]
  linkRuleId := some (js "LINK-OWN-TRANSFER")
  confidence := 1
  occurredAt := 2000
  amountMinor := 25000

theorem get?_correctedStore {id : JsString} {e : Event}
    (h : correctedStore.events.get? id = some e) : id = js "debit" ∧ e = correctedPair := by
  have h : (InsertionMap.empty.set (js "debit") correctedPair).get? id = some e := h
  rw [InsertionMap.get?_set] at h
  split_ifs at h with hid
  · exact ⟨hid, (Option.some.inj h).symm⟩
  · simp at h

theorem replaced_correctedStore : correctedStore.Replaced (js "credit") where
  stored := by decide
  confirmed := ⟨js "debit", correctedPair, rfl, rfl, by decide,
    ⟨js "corrected", .creditLeg⟩, by decide, by decide, by decide⟩
  original h := by
    rw [(get?_correctedStore h).2]
    decide

theorem holds_correctedStore :
    (contextOf [transferDebit, transferCredit, correctedCredit] [correctedPair]).Holds
      correctedStore where
  facts _ := Iff.rfl
  events := by
    refine ⟨{ knownEvents := [correctedPair] }, rfl, fun e => ?_⟩
    rw [List.mem_singleton]
    exact ⟨fun he => by rw [he]; rfl, fun he => (get?_correctedStore he).2⟩
  openEvents _ he := by simp [contextOf] at he

end PandaPay.SmsV2
