import PandaPay.SmsV2.Linker.Frame

/-!
# Calls in sequence

The app keeps all facts and the latest version of every event, gives both to each call, and stores what
the call returns.

## Main definitions

* `LinkAllows`: what `L` and `R` must grant for a call to `link` to be a chain of writes
* `Store`, `Store.apply`: what is stored, and storing a result
* `LinkContext.Holds`: a context that holds what is stored
* `Call P`: a call that meets `P`
* `NewFacts`, `NewFactsJoin`: the calls that are looked at

## Main results

* `linked_chain`, `expired_chain`: calls are chains of writes
* `Call.chain`: so is a call on what is stored, and what is stored after it is its table
-/

namespace PandaPay.SmsV2

/-! ### The beginning of a call -/

section Start

variable {env : Env}

theorem start_toTable (recent : List Fact) : (start env recent).toTable = env.context.table := by
  unfold start
  exact List.foldlRecOn recent _ (motive := fun s : Run => s.toTable = env.context.table) rfl
    fun s hs f _ => hs

/-- What holds of the events of a context, from the list of them. -/
structure Known (list : List Event) (t : Table) : Prop extends t.WellFormed where
  sound : ∀ {g id}, t.eventOfFact.get? g = some id → ∃ e, t.events.get? id = some e ∧ e.Counts g
  mem : ∀ {id e}, t.events.get? id = some e → e ∈ list
  listed : ∀ e ∈ list, (t.events.get? e.eventId).isSome
  unchanged : t.changed = []

theorem Known.know {list : List Event} {t : Table} (h : Known list t) (e : Event) :
    Known (list ++ [e]) (t.know e) := by
  unfold Table.know
  split_ifs with hold
  · refine ⟨h.toWellFormed, h.sound, fun he => List.mem_append_left _ (h.mem he), ?_, h.unchanged⟩
    intro e' he'
    rcases List.mem_append.mp he' with he' | he'
    · exact h.listed e' he'
    · exact List.mem_singleton.mp he' ▸ hold
  · have hput := h.toWellFormed.put e
    have hnone : t.events.get? e.eventId = none := by simpa using hold
    refine ⟨⟨hput.named, hput.mapped⟩, fun {g id} hg => ?_, fun {id e'} he' => ?_, ?_, h.unchanged⟩
    · dsimp only at hg ⊢
      rw [get?_mapLegs] at hg
      cases hmapped : t.eventOfFact.get? g with
      | none =>
        rw [hmapped, Option.none_or] at hg
        split_ifs at hg with hcounts
        · rw [← Option.some.inj hg]
          exact ⟨e, InsertionMap.get?_set_self _ _ _, hcounts⟩
      | some id' =>
        rw [hmapped, Option.some_or, Option.some.injEq] at hg
        subst hg
        obtain ⟨e', he', hcounts⟩ := h.sound hmapped
        refine ⟨e', ?_, hcounts⟩
        rw [InsertionMap.get?_set_of_ne _ _ fun hid => ?_]
        · exact he'
        · rw [hid, hnone] at he'
          simp at he'
    · dsimp only at he'
      rw [InsertionMap.get?_set] at he'
      split_ifs at he'
      · exact List.mem_append_right _ (by simp [Option.some.inj he'])
      · exact List.mem_append_left _ (h.mem he')
    · intro e' he'
      dsimp only
      rw [InsertionMap.get?_set]
      split_ifs with hid
      · rfl
      · rcases List.mem_append.mp he' with he' | he'
        · exact h.listed e' he'
        · exact absurd (congrArg Event.eventId (List.mem_singleton.mp he')) hid

theorem known_table (context : LinkContext) : Known context.known context.table := by
  have hfold : ∀ (list before : List Event) (t : Table), Known before t →
      Known (before ++ list) (list.foldl Table.know t) := by
    intro list
    induction list with
    | nil => exact fun before t ht => (List.append_nil before).symm ▸ ht
    | cons e list ih =>
      intro before t ht
      have hstep := ih (before ++ [e]) (t.know e) (ht.know e)
      rwa [List.append_assoc] at hstep
  have hempty : Known [] {} :=
    ⟨⟨fun he => by simp at he, fun he => by simp at he⟩, fun hg => by simp at hg,
      fun he => by simp at he, fun e he => by simp at he, rfl⟩
  exact hfold context.known [] {} hempty

/-- The ids of known events that do not have the fact they are named after as a leg. -/
def LinkContext.Unanchored (context : LinkContext) (id : JsString) : Prop :=
  (context.table.events.get? id).isSome ∧ context.table.eventOfFact.get? id = none

theorem consistent_table (context : LinkContext) :
    context.table.Consistent context.Unanchored := by
  have hknown := known_table context
  exact ⟨hknown.toWellFormed, hknown.sound, fun he hfree => ⟨by simp [he], hfree⟩⟩

end Start

/-! ### Calls as chains -/

section Chains

variable {L : JsString → Prop} {R : Option Event → Event → Prop} {linker : Linker}
  {context : LinkContext} {rules : List LinkRule} {now : ℤ} {incoming : List Fact}

/-- The branches that a call to `link` may take. -/
structure LinkAllows (L : JsString → Prop) (R : Option Event → Event → Prop) (linker : Linker)
    (context : LinkContext) (rules : List LinkRule) (now : ℤ) (incoming : List Fact) : Prop where
  steps : Passes (fun s f => s.eventOfFact.get? f.factId = none →
      Allows (linker.env context rules now incoming) L R s f)
    (linkStep (linker.env context rules now incoming))
    (start (linker.env context rules now incoming) (recentOf context incoming)) (arrivals incoming)
  mandates : ∀ s, (arrivals incoming).foldlM (linkStep (linker.env context rules now incoming))
      (start (linker.env context rules now incoming) (recentOf context incoming)) = .ok s →
    Passes (fun s m => ∀ e, ipoTarget (linker.env context rules now incoming) m s.events.values none = some e →
        R (some e) (mandatedEvent (linker.env context rules now incoming) m e))
    (fun s m => (.ok (attachStep (linker.env context rules now incoming) s m) : Except Empty Run))
    s s.pendingIpoMandates

/-- The loop of `link` is a chain of allowed writes. -/
theorem linkSteps_chain {env : Env} {s s' : Run} {facts : List Fact} (hs : s.WellFormed)
    (hallow : Passes (fun s f => s.eventOfFact.get? f.factId = none → Allows env L R s f)
      (linkStep env) s facts)
    (h : facts.foldlM (linkStep env) s = .ok s') : Chain env L R s.toTable s'.toTable := by
  have hloop := foldlM_of_passes
    (Q := fun t : Run => Chain env L R s.toTable t.toTable ∧ t.WellFormed)
    (fun t f t' _ ht hpass hstep => ?_) ⟨.refl, hs⟩ hallow h
  · exact hloop.1
  · have hchain := linkStep_chain ht.2 hpass hstep
    exact ⟨ht.1.trans hchain, hchain.wellFormed ht.2⟩

theorem start_wellFormed (env : Env) (recent : List Fact) : (start env recent).WellFormed := by
  rw [start_toTable]
  exact (known_table env.context).toWellFormed

/-- A call to `link` is a chain of allowed writes. -/
theorem linked_chain {s : Run} (hallow : LinkAllows L R linker context rules now incoming)
    (h : linker.linked context rules now incoming = .ok s) :
    Chain (linker.env context rules now incoming) L R context.table s.toTable := by
  obtain ⟨t, ht, h⟩ := bind_eq_ok.mp h
  have hsteps := linkSteps_chain (start_wellFormed _ _) hallow.steps ht
  have hwell := hsteps.wellFormed (start_wellFormed _ _)
  rw [start_toTable] at hsteps
  rw [← Except.ok.inj h]
  exact hsteps.trans (attachIpoMandates_chain hwell (hallow.mandates t ht))

/-- A call to `expire` is a chain of writes, whatever is allowed. -/
theorem expired_chain (linker : Linker) (context : LinkContext) (rules : List LinkRule) (now : ℤ) :
    Chain (linker.env context rules now []) L R context.table (linker.expired context rules now).toTable := by
  have hknown := known_table context
  have htable : (start (linker.env context rules now []) (recentOf context [])).toTable =
      context.table := start_toTable _
  unfold Linker.expired
  dsimp only
  rw [← htable]
  refine expireSteps_chain _ ?_ fun e he => ?_
  · have hkeys : context.table.events.values.map Event.eventId = context.table.events.keys := by
      unfold InsertionMap.values InsertionMap.keys
      rw [List.map_map]
      refine List.map_congr_left fun entry hentry => ?_
      exact hknown.named (InsertionMap.get?_eq_some_iff.mpr hentry)
    exact hkeys ▸ context.table.events.nodup_keys
  · obtain ⟨id, hid⟩ := InsertionMap.mem_values_iff.mp he
    have hname : e.eventId = id := hknown.named hid
    rw [htable, hname]
    exact hid

theorem mem_addTo {α : Type} [DecidableEq α] {set : List α} {a b : α} :
    a ∈ addTo set b ↔ a ∈ set ∨ a = b := by
  unfold addTo
  split_ifs with hb
  · exact ⟨.inl, fun h => h.elim id fun heq => heq ▸ hb⟩
  · simp

/-- An event is as it was, or listed as changed. -/
theorem Chain.unchanged {env : Env} {t t' : Table} (h : Chain env L R t t') (id : JsString) :
    t'.events.get? id = t.events.get? id ∨ (id ∈ t'.changed ∧ (t'.events.get? id).isSome) := by
  refine h.induction (P := fun t' => t'.events.get? id = t.events.get? id ∨
    (id ∈ t'.changed ∧ (t'.events.get? id).isSome)) (fun t' e ih _ => ?_) (.inl rfl)
  have hchanged : (t'.put e).changed = addTo t'.changed e.eventId := rfl
  rw [hchanged, mem_addTo, Table.put_events, InsertionMap.get?_set]
  split_ifs with hid
  · exact .inr ⟨.inr hid, rfl⟩
  · exact ih.imp_right fun hin => ⟨.inl hin.1, hin.2⟩

end Chains

/-- The facts of a list by id list the first fact of each id. -/
theorem get?_foldl_putIfAbsent (list : List Fact) (m : InsertionMap JsString Fact) (id : JsString) :
    (list.foldl (fun m g => putIfAbsent m g.factId g) m).get? id =
      (m.get? id).or (list.find? fun g => g.factId = id) := by
  induction list generalizing m with
  | nil => simp
  | cons g list ih =>
    rw [List.foldl_cons, ih, get?_putIfAbsent, List.find?_cons]
    by_cases hid : id = g.factId
    · simp only [hid, if_true, decide_true]
      cases m.get? g.factId <;> simp
    · have hid' : ¬ g.factId = id := fun h => hid h.symm
      simp [hid, hid']

/-- Incoming facts with ids of their own are all linked. -/
theorem mem_arrivals (hnodup : (incoming.map Fact.factId).Nodup) {f : Fact} (hf : f ∈ incoming) :
    f ∈ arrivals incoming := by
  refine (List.mem_insertionSort _).mpr (InsertionMap.mem_values_iff.mpr ⟨f.factId, ?_⟩)
  rw [get?_foldl_putIfAbsent, InsertionMap.get?_empty, Option.none_or]
  cases hfind : incoming.find? fun g => g.factId = f.factId with
  | none =>
    have hno := List.find?_eq_none.mp hfind f hf
    simp at hno
  | some g =>
    have hid : g.factId = f.factId := by simpa using List.find?_some hfind
    rw [List.inj_on_of_nodup_map hnodup (List.mem_of_find?_eq_some hfind) hf hid]

theorem mem_of_mem_arrivals {f : Fact} (hf : f ∈ arrivals incoming) : f ∈ incoming := by
  obtain ⟨id, hid⟩ := InsertionMap.mem_values_iff.mp ((List.mem_insertionSort _).mp hf)
  rw [get?_foldl_putIfAbsent, InsertionMap.get?_empty, Option.none_or] at hid
  exact List.mem_of_find?_eq_some hid

/-! ### What a call returns -/

section Result

variable {env : Env} {s : Run} {e : Event}

theorem mem_created : e ∈ (s.result env).created ↔
    ∃ id ∈ s.changed, (env.context.table.events.get? id).isSome = false ∧ s.events.get? id = some e := by
  unfold Run.result
  simp [List.mem_filterMap, List.mem_filter, and_assoc]

theorem mem_updated : e ∈ (s.result env).updated ↔
    ∃ id ∈ s.changed, (env.context.table.events.get? id).isSome ∧ s.events.get? id = some e := by
  unfold Run.result
  simp [List.mem_filterMap, List.mem_filter, and_assoc]

/-- All that is returned is what changed. -/
theorem mem_returned : e ∈ (s.result env).created ++ (s.result env).updated ↔
    ∃ id ∈ s.changed, s.events.get? id = some e := by
  rw [List.mem_append, mem_created, mem_updated]
  constructor
  · rintro (⟨id, hid, -, he⟩ | ⟨id, hid, -, he⟩)
    · exact ⟨id, hid, he⟩
    · exact ⟨id, hid, he⟩
  · rintro ⟨id, hid, he⟩
    cases hold : (env.context.table.events.get? id).isSome with
    | false => exact .inl ⟨id, hid, hold, he⟩
    | true => exact .inr ⟨id, hid, hold, he⟩

end Result

/-! ### What is stored -/

/-- The events of a list by id. -/
def setEvents (events : InsertionMap JsString Event) (list : List Event) :
    InsertionMap JsString Event :=
  list.foldl (fun m e => m.set e.eventId e) events

theorem get?_setEvents {events : InsertionMap JsString Event} {list : List Event} {id : JsString}
    {v : Option Event} (hin : ∀ e ∈ list, e.eventId = id → v = some e)
    (hout : (∀ e ∈ list, e.eventId ≠ id) → v = events.get? id) :
    (setEvents events list).get? id = v := by
  unfold setEvents
  induction list generalizing events with
  | nil => exact (hout fun _ h => by simp at h).symm
  | cons e list ih =>
    rw [List.forall_mem_cons] at hin
    rw [List.foldl_cons]
    refine ih hin.2 fun hno => ?_
    rw [InsertionMap.get?_set]
    split_ifs with hid
    · exact hin.1 hid.symm
    · exact hout (List.forall_mem_cons.mpr ⟨fun heq => hid heq.symm, hno⟩)

theorem named_setEvents {list : List Event} {events : InsertionMap JsString Event}
    (h : ∀ {id e}, events.get? id = some e → e.eventId = id) {id : JsString} {e : Event}
    (he : (setEvents events list).get? id = some e) : e.eventId = id := by
  unfold setEvents at he
  induction list generalizing events with
  | nil => exact h he
  | cons e' list ih =>
    refine ih (fun {id e} hid => ?_) he
    rw [InsertionMap.get?_set] at hid
    split_ifs at hid with heq
    · rw [heq, Option.some.inj hid]
    · exact h hid

/-- The facts and the latest version of every event. -/
structure Store where
  facts : List Fact := []
  events : InsertionMap JsString Event := .empty
  /-- Events are stored under their ids. -/
  named : ∀ {id e}, events.get? id = some e → e.eventId = id := by simp

/-- The store after a call. -/
def Store.apply (store : Store) (incoming : List Fact) (result : LinkResult) : Store where
  facts := store.facts ++ incoming
  events := setEvents store.events (result.created ++ result.updated)
  named h := named_setEvents store.named h

/-- A context holds what is stored. -/
structure LinkContext.Holds (context : LinkContext) (store : Store) : Prop where
  facts : ∀ f, f ∈ context.recentFacts ↔ f ∈ store.facts
  events : ∃ part, context.rulePart = some part ∧
    ∀ e, e ∈ part.knownEvents ↔ store.events.get? e.eventId = some e
  openEvents : ∀ e ∈ context.openEvents, store.events.get? e.eventId = some e

section Holds

variable {store : Store} {context : LinkContext}

/-- A call that is given what is stored knows the stored events. -/
theorem LinkContext.Holds.get?_table (h : context.Holds store) (id : JsString) :
    context.table.events.get? id = store.events.get? id := by
  have hknown := known_table context
  obtain ⟨part, hpart, hevents⟩ := h.events
  have stored {e : Event} (he : e ∈ context.known) : store.events.get? e.eventId = some e := by
    rcases List.mem_append.mp he with he | he
    · exact h.openEvents e he
    · rw [hpart] at he
      exact (hevents e).mp he
  have listed {e : Event} (he : store.events.get? e.eventId = some e) : e ∈ context.known := by
    refine List.mem_append_right _ ?_
    rw [hpart]
    exact (hevents e).mpr he
  refine Option.ext fun e => ⟨fun he => ?_, fun he => ?_⟩
  · have hstored := stored (hknown.mem he)
    rwa [hknown.named he] at hstored
  · have hname : e.eventId = id := store.named he
    have hsome := hknown.listed e (listed (hname.symm ▸ he))
    obtain ⟨e', he'⟩ := Option.isSome_iff_exists.mp hsome
    have hstored := stored (hknown.mem he')
    rw [hknown.named he', hname, he] at hstored
    rw [← hname, he', Option.some.inj hstored]

/-- What is stored after a call is what the call ended with. -/
theorem LinkContext.Holds.get?_apply {linker : Linker} {rules : List LinkRule} {now : ℤ}
    {incoming : List Fact} {L : JsString → Prop} {R : Option Event → Event → Prop} {s : Run}
    (h : context.Holds store)
    (hchain : Chain (linker.env context rules now incoming) L R context.table s.toTable)
    (id : JsString) :
    (store.apply incoming (s.result (linker.env context rules now incoming))).events.get? id =
      s.events.get? id := by
  have hknown := known_table context
  have hs : s.WellFormed := hchain.wellFormed hknown.toWellFormed
  refine get?_setEvents (fun e he hname => ?_) fun hno => ?_
  · obtain ⟨id', -, he⟩ := mem_returned.mp he
    rwa [← hname, hs.named he]
  · rw [← h.get?_table id]
    refine (hchain.unchanged id).resolve_right fun ⟨hid, hsome⟩ => ?_
    obtain ⟨e, he⟩ := Option.isSome_iff_exists.mp hsome
    exact hno e (mem_returned.mpr ⟨id, hid, he⟩) (hs.named he)

end Holds

/-! ### Sequences -/

/-- The app calls the linker with what is stored, and stores the result. The incoming facts of a call
to `link` meet `P`. -/
inductive Call (P : Store → Linker → LinkContext → List LinkRule → ℤ → List Fact → Prop)
    (store : Store) : Store → Prop
  | link (linker : Linker) (context : LinkContext) (rules : List LinkRule) (now : ℤ)
      (incoming : List Fact) (result : LinkResult) : context.Holds store →
      P store linker context rules now incoming →
      linker.link context rules now incoming = .ok result →
      Call P store (store.apply incoming result)
  | expire (linker : Linker) (context : LinkContext) (rules : List LinkRule) (now : ℤ) :
      context.Holds store → Call P store (store.apply [] (linker.expire context rules now))

/-- The incoming facts have ids of their own, which no stored fact has. -/
def NewFacts (store : Store) (_ : Linker) (_ : LinkContext) (_ : List LinkRule) (_ : ℤ)
    (incoming : List Fact) : Prop :=
  (incoming.map Fact.factId).Nodup ∧ ∀ f ∈ incoming, f.factId ∉ store.facts.map Fact.factId

/-- A loose fact that a pair rule joins with `f`, other than as its `original`, meets `P`. -/
def JoinsOnly (P : Fact → Prop) (env : Env) (s : Run) (f : Fact) : Prop :=
  ∀ rule leg c cs, PairChoice env s f (some (rule, leg, c :: cs)) →
    (cs = [] ∨ rule.kind = .mandateCharge) → c.eventId = none → c.role ≠ .original → P c.fact

/-- The loose facts that a call to `link` joins with new facts meet `P`. -/
def NewFactsJoin (P : Fact → Prop) (store : Store) (linker : Linker) (context : LinkContext)
    (rules : List LinkRule) (now : ℤ) (incoming : List Fact) : Prop :=
  NewFacts store linker context rules now incoming ∧
    Passes (fun s f => s.eventOfFact.get? f.factId = none →
        JoinsOnly P (linker.env context rules now incoming) s f)
      (linkStep (linker.env context rules now incoming))
      (start (linker.env context rules now incoming) (recentOf context incoming)) (arrivals incoming)

/-! ### A call -/

/-- A linker that knows no wallet, with names as they are. -/
def plainLinker : Linker := { toUpperCase := id }

/-- The context of a call when these facts and events are stored. -/
def contextOf (facts : List Fact) (events : List Event) : LinkContext where
  recentFacts := facts
  openEvents := []
  instrumentsById := .empty
  rulePart := some { knownEvents := events }

/-- A debit of 250 rupees at a shop. -/
def lunch : Fact where
  factId := js "lunch"
  sourceKey := js "bank:lunch"
  observedAt := 1000
  amounts := [⟨.posted, 25000, js "INR", none⟩]
  ruleId := js "bank-debit"
  attrs := .movement .debit .purchase none none

/-- The event of the debit. -/
def lunchEvent : Event where
  eventId := js "lunch"
  type := .purchase
  status := .complete
  legs := [⟨js "lunch", .debitLeg⟩]
  linkRuleId := none
  confidence := 1
  occurredAt := 1000
  amountMinor := 25000

/-- An account of a bank, by the last digits of its number. -/
def bankAccount (digits : String) : InstrumentMention where
  kind := some .bankAccount
  maskDigits := some (js digits)

/-- A debit of 250 rupees to another account of the user. -/
def transferDebit : Fact where
  factId := js "debit"
  sourceKey := js "bank:debit"
  observedAt := 1000
  instrument := some (bankAccount "1111")
  counterparty := some { kind := some .own }
  amounts := [⟨.posted, 25000, js "INR", none⟩]
  ruleId := js "bank-debit"
  attrs := .movement .debit .p2p none none

/-- The debit after the user corrected its amount to 300 rupees. -/
def correctedDebit : Fact :=
  { transferDebit with
    factId := js "corrected"
    sourceKey := js "correction:1"
    amounts := [⟨.posted, 30000, js "INR", none⟩]
    ruleId := js "USER-CORRECTION" }

/-- The credit of 250 rupees in the other account. -/
def transferCredit : Fact where
  factId := js "credit"
  sourceKey := js "bank:credit"
  observedAt := 2000
  instrument := some (bankAccount "2222")
  counterparty := some { kind := some .own }
  amounts := [⟨.posted, 25000, js "INR", none⟩]
  ruleId := js "bank-credit"
  attrs := .movement .credit .p2p none none

/-- The event of the debit after the correction: it keeps its id and has the debit as the `original`
of the corrected one. -/
def correctedTransfer : Event where
  eventId := js "debit"
  type := .ownTransfer
  status := .userConfirmed
  legs := [⟨js "debit", .original⟩, ⟨js "corrected", .debitLeg⟩]
  linkRuleId := some (js "LINK-OWN-TRANSFER")
  confidence := 1
  occurredAt := 1000
  amountMinor := 30000

/-- The event of the debit and the credit. -/
def rejoinedTransfer : Event where
  eventId := js "debit"
  type := .ownTransfer
  status := .complete
  legs := [⟨js "debit", .debitLeg⟩, ⟨js "credit", .creditLeg⟩]
  linkRuleId := some (js "LINK-OWN-TRANSFER")
  confidence := 1
  occurredAt := 1000
  amountMinor := 25000

end PandaPay.SmsV2
