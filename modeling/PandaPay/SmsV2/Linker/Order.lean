import PandaPay.Library.IndexBy
import PandaPay.Library.Keyset
import PandaPay.Library.Tally
import PandaPay.SmsV2.Linker.Agree
import PandaPay.SmsV2.Linker.Calls

/-!
# The order of the lists

A call sorts its facts and rules, so their order does not matter. The order of the known events is that
of the table they start. It only shows where an IPO mandate looks through the events: the first hold
of its message is taken, else the last hold of its block.

## Main definitions

* `LinkContext.relist`: a context with its lists replaced
* `Orderly`: ids name one fact, event and rule, and no fact is a leg of two events

## Main results

* `linkStep_relist`: processing a fact sees neither list
* `start_agrees`: permuted lists start states that agree
-/

namespace PandaPay.SmsV2

/-! ### Other lists -/

/-- The known events of a context. -/
def LinkContext.knownEvents (context : LinkContext) : List Event :=
  (context.rulePart.map RuleLinkPart.knownEvents).getD []

/-- The context with other lists of facts and events. -/
def LinkContext.relist (context : LinkContext) (recent : List Fact) (known : List Event) :
    LinkContext :=
  { context with
    recentFacts := recent
    rulePart := context.rulePart.map fun part => { part with knownEvents := known } }

def Env.relist (env : Env) (recent : List Fact) (known : List Event) : Env :=
  { env with context := env.context.relist recent known }

section Relist

variable (env : Env) (recent : List Fact) (known : List Event)

/-! What is asked about facts sees the instruments of the context only. -/

theorem candidates_relist : candidates (env.relist recent known) = candidates env := by
  obtain ⟨linker, ⟨_, _, _, part⟩, rules, now, facts⟩ := env
  cases part <;> rfl

theorem narrow_relist : narrow (env.relist recent known) = narrow env := by
  obtain ⟨linker, ⟨_, _, _, part⟩, rules, now, facts⟩ := env
  cases part <;> rfl

theorem duplicateCandidates_relist :
    duplicateCandidates (env.relist recent known) = duplicateCandidates env := by
  obtain ⟨linker, ⟨_, _, _, part⟩, rules, now, facts⟩ := env
  cases part <;> rfl

theorem firstPair_relist (s : Run) (f : Fact) (legs : List (LinkRule × LinkLeg)) :
    firstPair (env.relist recent known) s f legs = firstPair env s f legs := by
  induction legs with
  | nil => rfl
  | cons leg legs ih => simp only [firstPair, candidates_relist, narrow_relist, ih]

theorem firstDuplicate_relist (s : Run) (f : Fact) (rules : List LinkRule) :
    firstDuplicate (env.relist recent known) s f rules = firstDuplicate env s f rules := by
  induction rules with
  | nil => rfl
  | cons rule rules ih =>
    simp only [firstDuplicate, duplicateCandidates_relist, narrow_relist, ih]

theorem takeUnpaired_relist (s : Run) (f : Fact) :
    takeUnpaired (env.relist recent known) s f = takeUnpaired env s f := by
  have htakes : takeDuplicate (env.relist recent known) = takeDuplicate env ∧
      firstAlone (env.relist recent known) = firstAlone env ∧
      takeAlone (env.relist recent known) = takeAlone env ∧
      takeFallback (env.relist recent known) = takeFallback env := by
    obtain ⟨linker, ⟨_, _, _, part⟩, rules, now, facts⟩ := env
    cases part <;> exact ⟨rfl, rfl, rfl, rfl⟩
  obtain ⟨hduplicate, hfirst, halone, hfallback⟩ := htakes
  unfold takeUnpaired
  rw [firstDuplicate_relist, hduplicate, hfirst, halone, hfallback]
  rfl

theorem join_relist : join (env.relist recent known) = join env := by
  obtain ⟨linker, ⟨_, _, _, part⟩, rules, now, facts⟩ := env
  cases part <;> rfl

theorem takePair_relist : takePair (env.relist recent known) = takePair env := by
  have hambiguous : ambiguous (env.relist recent known) = ambiguous env := by
    obtain ⟨linker, ⟨_, _, _, part⟩, rules, now, facts⟩ := env
    cases part <;> rfl
  funext s f rule leg list
  simp only [takePair, join_relist, hambiguous]

theorem takeLate_relist : takeLate (env.relist recent known) = takeLate env := by
  have hsearches : lateRefunds (env.relist recent known) = lateRefunds env ∧
      lateFees (env.relist recent known) = lateFees env ∧
      (env.relist recent known).pairOk = env.pairOk := by
    obtain ⟨linker, ⟨_, _, _, part⟩, rules, now, facts⟩ := env
    cases part <;> exact ⟨rfl, rfl, rfl⟩
  obtain ⟨hrefunds, hfees, hpair⟩ := hsearches
  have hfirst : (env.relist recent known).firstOf = env.firstOf := rfl
  have hjoin : joinOriginal (env.relist recent known) = joinOriginal env := by
    funext rule f role s g
    simp only [joinOriginal, join_relist]
  have hrefund : refundStep (env.relist recent known) = refundStep env := by
    funext rule f s g
    simp only [refundStep, hpair, hjoin]
  funext s f
  simp only [takeLate, lateOriginal, lateFeeOriginal, hrefunds, hfees, hfirst, hjoin, hrefund]

theorem takeMoney_relist (s : Run) (f : Fact) :
    takeMoney (env.relist recent known) s f = takeMoney env s f := by
  have htakes : lateFundingDebit (env.relist recent known) = lateFundingDebit env ∧
      lateHold (env.relist recent known) = lateHold env ∧
      pairLegs (env.relist recent known) = pairLegs env := by
    obtain ⟨linker, ⟨_, _, _, part⟩, rules, now, facts⟩ := env
    cases part <;> exact ⟨rfl, rfl, rfl⟩
  obtain ⟨hfunding, hhold, hlegs⟩ := htakes
  unfold takeMoney
  simp only [hfunding, hhold, hlegs, takeLate_relist, takePair_relist, firstPair_relist,
    takeUnpaired_relist]

theorem linkStep_relist : linkStep (env.relist recent known) = linkStep env := by
  have hsteps : afterMoney (env.relist recent known) = afterMoney env ∧
      processReceipt (env.relist recent known) = processReceipt env ∧
      lateMandate (env.relist recent known) = lateMandate env ∧
      Run.done (env.relist recent known) = Run.done env := by
    obtain ⟨linker, ⟨_, _, _, part⟩, rules, now, facts⟩ := env
    cases part <;> exact ⟨rfl, rfl, rfl, rfl⟩
  obtain ⟨hmoney, hreceipt, hmandate, hdone⟩ := hsteps
  funext s f
  simp only [linkStep, process, processMoney, takeMoney_relist, hmoney, hreceipt, hmandate, hdone]

theorem attachStep_relist : attachStep (env.relist recent known) = attachStep env := by
  have hparts : openHold (env.relist recent known) = openHold env ∧
      sameBlock (env.relist recent known) = sameBlock env ∧
      mandatedEvent (env.relist recent known) = mandatedEvent env := by
    obtain ⟨linker, ⟨_, _, _, part⟩, rules, now, facts⟩ := env
    cases part <;> exact ⟨rfl, rfl, rfl⟩
  obtain ⟨hopen, hblock, hmandated⟩ := hparts
  have htarget (m : Fact) (es : List Event) (target : Option Event) :
      ipoTarget (env.relist recent known) m es target = ipoTarget env m es target := by
    induction es generalizing target with
    | nil => rfl
    | cons e es ih => simp only [ipoTarget, hopen, hblock, ih]
  funext s m
  simp only [attachStep, htarget, hmandated]

end Relist

/-! ### Sorted facts and rules -/

theorem orderLe_iff (f g : Fact) :
    f.orderLe g ↔ toLex (f.effectiveAt, f.factId) ≤ toLex (g.effectiveAt, g.factId) := by
  rw [Fact.orderLe, Prod.Lex.toLex_le_toLex]

theorem arrivalLe_iff (f g : Fact) :
    f.arrivalLe g ↔ toLex (f.observedAt, f.factId) ≤ toLex (g.observedAt, g.factId) := by
  rw [Fact.arrivalLe, Prod.Lex.toLex_le_toLex]

theorem before_iff (a b : LinkRule) : a.before b ↔
    toLex (OrderDual.toDual a.priority, a.id) ≤ toLex (OrderDual.toDual b.priority, b.id) := by
  rw [LinkRule.before, Prod.Lex.toLex_le_toLex]
  exact Iff.rfl

theorem insertionSort_before_congr {rules rules' : List LinkRule} (hperm : rules.Perm rules')
    (hids : (rules.map LinkRule.id).Nodup) :
    rules.insertionSort LinkRule.before = rules'.insertionSort LinkRule.before :=
  insertionSort_congr (fun rule : LinkRule => toLex (OrderDual.toDual rule.priority, rule.id))
    before_iff hperm fun _ ha _ hb hkey =>
      List.inj_on_of_nodup_map hids ha hb (congrArg (fun k => (ofLex k).2) hkey)

theorem recentOf_congr {context : LinkContext} {incoming incoming' recent : List Fact}
    (known : List Event) (hrecent : context.recentFacts.Perm recent) (hincoming : incoming.Perm incoming')
    (hfacts : ∀ f ∈ context.recentFacts, ∀ g ∈ context.recentFacts, f.factId = g.factId → f = g) :
    recentOf context incoming = recentOf (context.relist recent known) incoming' := by
  have hfilter : (fun f : Fact => decide (f.factId ∉ incoming.map Fact.factId)) =
      fun f : Fact => decide (f.factId ∉ incoming'.map Fact.factId) := by
    funext f
    rw [decide_eq_decide, (hincoming.map Fact.factId).mem_iff]
  unfold recentOf
  rw [hfilter]
  refine insertionSort_congr (fun f : Fact => toLex (f.effectiveAt, f.factId)) orderLe_iff
    (hrecent.filter _) fun f hf g hg hkey => ?_
  exact hfacts f (List.mem_of_mem_filter hf) g (List.mem_of_mem_filter hg)
    (congrArg (fun k => (ofLex k).2) hkey)

/-- The facts of a list by id, where equal ids name one fact. -/
theorem mem_firstById {list : List Fact}
    (hfacts : ∀ f ∈ list, ∀ g ∈ list, f.factId = g.factId → f = g) {f : Fact} :
    f ∈ firstById list ↔ f ∈ list := by
  unfold firstById
  rw [InsertionMap.mem_values_iff]
  simp only [get?_foldl_putIfAbsent, InsertionMap.get?_empty, Option.none_or]
  constructor
  · rintro ⟨id, hfind⟩
    exact List.mem_of_find?_eq_some hfind
  · intro hf
    refine ⟨f.factId, ?_⟩
    cases hfind : list.find? fun g => g.factId = f.factId with
    | none =>
      have hno := List.find?_eq_none.mp hfind f hf
      simp at hno
    | some g =>
      have hid : g.factId = f.factId := by simpa using List.find?_some hfind
      rw [hfacts g (List.mem_of_find?_eq_some hfind) f hf hid]

theorem nodup_map_firstById (list : List Fact) : ((firstById list).map Fact.factId).Nodup := by
  unfold firstById
  have hkeys : ∀ id g, (list.foldl (fun m g => putIfAbsent m g.factId g)
      (InsertionMap.empty : InsertionMap JsString Fact)).get? id = some g → g.factId = id := by
    intro id g hget
    rw [get?_foldl_putIfAbsent, InsertionMap.get?_empty, Option.none_or] at hget
    simpa using List.find?_some hget
  generalize (list.foldl (fun m g => putIfAbsent m g.factId g)
    (InsertionMap.empty : InsertionMap JsString Fact)) = m at hkeys
  have hmap : m.values.map Fact.factId = m.keys := by
    rw [InsertionMap.values, InsertionMap.keys, List.map_map]
    refine List.map_congr_left fun entry hentry => ?_
    exact hkeys entry.1 entry.2 (InsertionMap.get?_eq_some_iff.mpr hentry)
  rw [hmap]
  exact m.nodup_keys

theorem arrivals_congr {incoming incoming' : List Fact} (hperm : incoming.Perm incoming')
    (hfacts : ∀ f ∈ incoming, ∀ g ∈ incoming, f.factId = g.factId → f = g) :
    arrivals incoming = arrivals incoming' := by
  have hfacts' : ∀ f ∈ incoming', ∀ g ∈ incoming', f.factId = g.factId → f = g := fun f hf g hg =>
    hfacts f (hperm.mem_iff.mpr hf) g (hperm.mem_iff.mpr hg)
  have hfirst : (firstById incoming).Perm (firstById incoming') := by
    refine (List.perm_ext_iff_of_nodup (nodup_map_firstById _).of_map
      (nodup_map_firstById _).of_map).mpr fun f => ?_
    rw [mem_firstById hfacts, mem_firstById hfacts', hperm.mem_iff]
  refine insertionSort_congr (fun f : Fact => toLex (f.observedAt, f.factId)) arrivalLe_iff hfirst
    fun f hf g hg hkey => ?_
  exact hfacts f ((mem_firstById hfacts).mp hf) g ((mem_firstById hfacts).mp hg)
    (congrArg (fun k => (ofLex k).2) hkey)

/-! ### Known events -/

/-- Ids name one rule, one fact and one event, an open event may be listed twice, and no fact is a leg of
two events. -/
structure Orderly (context : LinkContext) (rules : List LinkRule) (incoming : List Fact) : Prop where
  rules : (rules.map LinkRule.id).Nodup
  facts : ∀ f ∈ context.recentFacts ++ incoming, ∀ g ∈ context.recentFacts ++ incoming,
    f.factId = g.factId → f = g
  events : (context.knownEvents.map Event.eventId).Nodup
  known : ∀ e ∈ context.known, ∀ e' ∈ context.known, e.eventId = e'.eventId → e = e'
  legs : ∀ e ∈ context.known, ∀ e' ∈ context.known, ∀ g, e.Counts g → e'.Counts g → e = e'

section Known

variable {context : LinkContext} {recent : List Fact} {known : List Event}

/-- Another order of the known events is one of all of them. -/
theorem known_relist (hknown : context.knownEvents.Perm known) :
    context.known.Perm (context.relist recent known).known := by
  obtain ⟨recentFacts, openEvents, instrumentsById, part⟩ := context
  refine List.Perm.append_left _ ?_
  cases part with
  | none => exact .refl _
  | some part => exact hknown

theorem get?_table_iff (h : ∀ e ∈ context.known, ∀ e' ∈ context.known, e.eventId = e'.eventId → e = e')
    {id : JsString} {e : Event} :
    context.table.events.get? id = some e ↔ e ∈ context.known ∧ e.eventId = id := by
  have hknown := known_table context
  constructor
  · exact fun hget => ⟨hknown.mem hget, hknown.named hget⟩
  · rintro ⟨he, rfl⟩
    obtain ⟨e', hget⟩ := Option.isSome_iff_exists.mp (hknown.listed e he)
    rw [hget, h e' (hknown.mem hget) e he (hknown.named hget)]

theorem get?_eventOfFact_iff
    (h : ∀ e ∈ context.known, ∀ e' ∈ context.known, e.eventId = e'.eventId → e = e')
    (hlegs : ∀ e ∈ context.known, ∀ e' ∈ context.known, ∀ g, e.Counts g → e'.Counts g → e = e')
    {g id : JsString} : context.table.eventOfFact.get? g = some id ↔
      ∃ e ∈ context.known, e.eventId = id ∧ e.Counts g := by
  have hknown := known_table context
  constructor
  · intro hget
    obtain ⟨e, he, hcounts⟩ := hknown.sound hget
    exact ⟨e, hknown.mem he, hknown.named he, hcounts⟩
  · rintro ⟨e, he, rfl, hcounts⟩
    have hget := (get?_table_iff h).mpr ⟨he, rfl⟩
    obtain ⟨id, hid⟩ := Option.ne_none_iff_exists'.mp (hknown.mapped hget hcounts)
    obtain ⟨e', he', hcounts'⟩ := hknown.sound hid
    rw [hid, ← hknown.named he', hlegs e' (hknown.mem he') e he g hcounts' hcounts]

/-- A table lists the events in the order they become known in. -/
theorem keys_foldl_know (list : List Event) (hnodup : (list.map Event.eventId).Nodup) (t : Table) :
    (list.foldl Table.know t).events.keys =
      t.events.keys ++ (list.map Event.eventId).filter fun id => id ∉ t.events.keys := by
  induction list generalizing t with
  | nil => rw [List.foldl_nil, List.map_nil, List.filter_nil, List.append_nil]
  | cons e list ih =>
    rw [List.map_cons, List.nodup_cons] at hnodup
    rw [List.foldl_cons, ih hnodup.2, List.map_cons]
    by_cases hold : e.eventId ∈ t.events.keys
    · rw [List.filter_cons_of_neg (by simpa using hold), Table.know,
        if_pos (InsertionMap.mem_keys_iff.mp hold)]
    · rw [List.filter_cons_of_pos (by simpa using hold), Table.know,
        if_neg fun hsome => hold (InsertionMap.mem_keys_iff.mpr hsome)]
      dsimp only
      rw [InsertionMap.keys_set, if_neg hold, List.append_assoc, List.singleton_append]
      congr 2
      refine List.filter_congr fun id hid => ?_
      have hne : id ≠ e.eventId := fun heq => hnodup.1 (heq ▸ hid)
      simp [hne]

/-- The ids of the open events, which come first. -/
def LinkContext.openIds (context : LinkContext) : List JsString :=
  (context.openEvents.foldl Table.know {}).events.keys

/-- The ids of the other known events, in their order. -/
def LinkContext.closedIds (context : LinkContext) : List JsString :=
  (context.knownEvents.map Event.eventId).filter fun id => id ∉ context.openIds

theorem keys_table (h : (context.knownEvents.map Event.eventId).Nodup) :
    context.table.events.keys = context.openIds ++ context.closedIds := by
  unfold LinkContext.table LinkContext.known
  rw [List.foldl_append]
  exact keys_foldl_know _ h _

theorem knownEvents_relist (hknown : context.knownEvents.Perm known) :
    (context.relist recent known).knownEvents = known := by
  unfold LinkContext.knownEvents at hknown ⊢
  unfold LinkContext.relist
  revert hknown
  cases context.rulePart with
  | none => exact fun hknown => (List.nil_perm.mp hknown).symm
  | some part => exact fun _ => rfl

theorem closedIds_relist (hknown : context.knownEvents.Perm known) :
    (context.relist recent known).closedIds =
      (known.map Event.eventId).filter fun id => id ∉ context.openIds := by
  unfold LinkContext.closedIds
  rw [knownEvents_relist hknown]
  rfl

theorem closedIds_perm (hknown : context.knownEvents.Perm known) :
    context.closedIds.Perm (context.relist recent known).closedIds := by
  rw [closedIds_relist hknown]
  exact (hknown.map _).filter _

end Known

/-! ### The beginning of a call -/

/-- What a stored refund adds to the totals of its purchases. -/
def refundPostings (env : Env) (e : Event) : List (JsString × ℤ) :=
  if e.type ≠ .refund then []
  else (e.legs.filter fun l => l.role = .original).map fun l =>
    (l.factId, ((env.legFacts [.reversal] e.legs).map fun f => f.principal.getD 0).sum)

theorem countRefund_eq (env : Env) (refunded : InsertionMap JsString ℤ) (e : Event) :
    countRefund env refunded e = tally refunded (refundPostings env e) := by
  unfold countRefund refundPostings
  split
  · rfl
  · rw [tally, List.foldl_map]
    rfl

theorem foldl_countRefund (env : Env) (list : List Event) (refunded : InsertionMap JsString ℤ) :
    list.foldl (countRefund env) refunded = tally refunded (list.flatMap (refundPostings env)) := by
  induction list generalizing refunded with
  | nil => rfl
  | cons e list ih => rw [List.foldl_cons, ih, countRefund_eq, List.flatMap_cons, tally_append]

section Start

variable {linker : Linker} {context : LinkContext} {rules rules' : List LinkRule} {now : ℤ}
  {incoming incoming' recent : List Fact} {known : List Event}

/-- A call with the lists in another order is made with the same rules and facts. -/
theorem env_relist (h : Orderly context rules incoming) (hrules : rules.Perm rules')
    (hrecent : context.recentFacts.Perm recent) (hincoming : incoming.Perm incoming') :
    linker.env (context.relist recent known) rules' now incoming' =
      (linker.env context rules now incoming).relist recent known := by
  have hfacts : ∀ f ∈ context.recentFacts, ∀ g ∈ context.recentFacts, f.factId = g.factId → f = g :=
    fun f hf g hg => h.facts f (List.mem_append_left _ hf) g (List.mem_append_left _ hg)
  have hincomings : ∀ f ∈ incoming, ∀ g ∈ incoming, f.factId = g.factId → f = g :=
    fun f hf g hg => h.facts f (List.mem_append_right _ hf) g (List.mem_append_right _ hg)
  unfold Linker.env Env.relist
  rw [insertionSort_before_congr hrules h.rules, recentOf_congr known hrecent hincoming hfacts,
    arrivals_congr hincoming hincomings]

theorem startTable_agrees (env : Env) (h : Orderly env.context rules incoming)
    (hknown : env.context.knownEvents.Perm known) :
    (startTable env).Agrees (env.context.openIds ++ env.context.closedIds)
      (env.context.openIds ++ (env.context.relist recent known).closedIds)
      (startTable (env.relist recent known)) := by
  have hperm := @known_relist _ recent _ hknown
  have hmem {e : Event} : e ∈ (env.context.relist recent known).known ↔ e ∈ env.context.known :=
    hperm.mem_iff.symm
  have hids : ∀ e ∈ (env.context.relist recent known).known,
      ∀ e' ∈ (env.context.relist recent known).known, e.eventId = e'.eventId → e = e' :=
    fun e he e' he' => h.known e (hmem.mp he) e' (hmem.mp he')
  have hlegs : ∀ e ∈ (env.context.relist recent known).known,
      ∀ e' ∈ (env.context.relist recent known).known, ∀ g, e.Counts g → e'.Counts g → e = e' :=
    fun e he e' he' => h.legs e (hmem.mp he) e' (hmem.mp he')
  have hevents (id : JsString) : env.context.table.events.get? id =
      (env.context.relist recent known).table.events.get? id := by
    refine Option.ext fun e => ?_
    rw [get?_table_iff h.known, get?_table_iff hids, hmem]
  have hnodup : ((env.context.relist recent known).knownEvents.map Event.eventId).Nodup := by
    rw [knownEvents_relist hknown]
    exact (hknown.map _).nodup_iff.mp h.events
  constructor
  case events => exact hevents
  case keys => exact ⟨[], (keys_table h.events).trans (List.append_nil _).symm,
    (keys_table hnodup).trans (List.append_nil _).symm⟩
  case eventOfFact =>
    intro g
    refine Option.ext fun id => ?_
    change env.context.table.eventOfFact.get? g = some id ↔
      (env.context.relist recent known).table.eventOfFact.get? g = some id
    rw [get?_eventOfFact_iff h.known h.legs, get?_eventOfFact_iff hids hlegs]
    simp only [hmem]
  case refunded =>
    intro g
    have hpostings : refundPostings (env.relist recent known) = refundPostings env := by
      obtain ⟨linker, ⟨_, _, _, part⟩, rules, now, facts⟩ := env
      cases part <;> rfl
    change (env.context.table.events.values.foldl (countRefund env) .empty).get? g =
      ((env.context.relist recent known).table.events.values.foldl
        (countRefund (env.relist recent known)) .empty).get? g
    rw [foldl_countRefund, foldl_countRefund, hpostings]
    exact get?_tally_perm (((InsertionMap.entries_perm hevents).map _).flatMap_right _) g
  case changed => exact (known_table _).unchanged.trans (known_table _).unchanged.symm
  all_goals rfl

theorem start_agrees (env : Env) (h : Orderly env.context rules incoming)
    (hknown : env.context.knownEvents.Perm known) (list : List Fact) :
    (start env list).Agrees (env.context.openIds ++ env.context.closedIds)
      (env.context.openIds ++ (env.context.relist recent known).closedIds)
      (start (env.relist recent known) list) := by
  have hindex : Run.index (env.relist recent known) = Run.index env := by
    obtain ⟨linker, ⟨_, _, _, part⟩, rules, now, facts⟩ := env
    cases part <;> rfl
  unfold start
  rw [hindex]
  refine foldl_agrees (fun {s s'} hs f => ?_) (startTable_agrees env h hknown) list
  have hprocessed : ({ s with processed := addTo s.processed f.factId } : Run).Agrees
      (env.context.openIds ++ env.context.closedIds)
      (env.context.openIds ++ (env.context.relist recent known).closedIds)
      { s' with processed := addTo s'.processed f.factId } :=
    { hs with processed := congrArg (addTo · f.factId) hs.processed }
  exact hprocessed.index f

end Start

end PandaPay.SmsV2
