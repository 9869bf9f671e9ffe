import PandaPay.Library.Tally
import PandaPay.SmsV2.Ledger.Projector

/-!
# Totals of a period

The totals are sums over the rows that count in the period, so they split where the period is split
and do not see the order of the rows. The category of a refund is looked up among all rows; the
lookup does not see their order where no fact is a money leg of two spend events and the rows of an
event name one category.

## Main definitions

* `counted`: the rows of a period that count, with their events
* `Totals.AddsUp`, `Totals.Same`: totals that are sums of others, and totals that agree
* `PurchasesDistinct`, `CategoriesAgree`: what the lookup of a refund's category rests on

## Main results

* `totals_laws`: categories sum to the spend, periods add up, and the order does not matter
* `totals_not_order_independent`: without `CategoriesAgree` the order matters
-/

namespace PandaPay.SmsV2

/-! ### Rows that count -/

/-- The rows of a period that count, with their events. -/
def counted (eventsById : InsertionMap JsString Event) (start stop : ℤ) (rows : List LedgerEntry) :
    List (Event × LedgerEntry) :=
  rows.filterMap fun row =>
    ((eventsById.get? row.eventId).filter fun event => inPeriod start stop event row).map
      fun event => (event, row)

theorem counted_singleton (eventsById : InsertionMap JsString Event) (start stop : ℤ)
    (row : LedgerEntry) : counted eventsById start stop [row] =
      match eventsById.get? row.eventId with
      | none => []
      | some event => if inPeriod start stop event row then [(event, row)] else [] := by
  rw [counted, List.filterMap_cons, List.filterMap_nil]
  cases eventsById.get? row.eventId with
  | none => rfl
  | some event => cases hin : inPeriod start stop event row <;> simp [Option.filter, hin]

/-- The rows that count in a period are those of its two parts. -/
theorem counted_perm_append (eventsById : InsertionMap JsString Event) {start mid stop : ℤ}
    (hstart : start ≤ mid) (hstop : mid ≤ stop) (rows : List LedgerEntry) :
    (counted eventsById start stop rows).Perm
      (counted eventsById start mid rows ++ counted eventsById mid stop rows) := by
  have hsplit (event : Event) (row : LedgerEntry) : inPeriod start stop event row =
      (inPeriod start mid event row || inPeriod mid stop event row) := by
    rw [Bool.eq_iff_iff]
    simp only [inPeriod, Bool.or_eq_true, Bool.and_eq_true, decide_eq_true_eq]
    grind
  have hapart (event : Event) (row : LedgerEntry) (h : inPeriod start mid event row = true) :
      inPeriod mid stop event row = false := by
    rw [Bool.eq_false_iff]
    intro hother
    simp only [inPeriod, Bool.and_eq_true, decide_eq_true_eq] at h hother
    omega
  induction rows with
  | nil => exact List.Perm.nil
  | cons row rows ih =>
    have hcons (a b : ℤ) : counted eventsById a b (row :: rows) =
        counted eventsById a b [row] ++ counted eventsById a b rows := by
      rw [counted, counted, counted, ← List.filterMap_append, List.singleton_append]
    rw [hcons, hcons, hcons]
    have hone : (counted eventsById start stop [row]).Perm
        (counted eventsById start mid [row] ++ counted eventsById mid stop [row]) := by
      rw [counted_singleton, counted_singleton, counted_singleton]
      cases eventsById.get? row.eventId with
      | none => exact List.Perm.nil
      | some event =>
        simp only [hsplit]
        cases hmid : inPeriod start mid event row with
        | true => simp [hapart event row hmid]
        | false => simp
    refine (hone.append ih).trans ?_
    simp only [List.append_assoc]
    refine List.Perm.append_left _ ?_
    rw [← List.append_assoc, ← List.append_assoc]
    exact List.perm_append_comm.append_right _

/-! ### What a row adds -/

namespace Running

variable {f : Event → LedgerEntry → JsString}

/-- What a row adds to the categories. -/
def postings (f : Event → LedgerEntry → JsString) (p : Event × LedgerEntry) : List (JsString × ℤ) :=
  (if p.2.isSpend then [(p.2.category.getD (js "other"), p.2.amountMinor)] else []) ++
    if p.1.type = .refund then [(f p.1 p.2, -p.2.amountMinor)] else []

def refundOf (p : Event × LedgerEntry) : ℤ := if p.1.type = .refund then p.2.amountMinor else 0

def incomeOf (p : Event × LedgerEntry) : ℤ := if p.2.isIncome then p.2.amountMinor else 0

def investmentOf (p : Event × LedgerEntry) : ℤ :=
  if p.2.isInvestment then
    if p.1.type = .investmentWithdrawal then -p.2.amountMinor else p.2.amountMinor
  else 0

/-- The events that the rows count for. -/
def countedIds (rows : List (Event × LedgerEntry)) : List JsString :=
  (rows.filter fun p => p.2.countsAsTransaction).map fun p => p.2.eventId

/-- A row adds what it is worth to each amount, and nothing else. -/
theorem add_eq (acc : Running) (event : Event) (row : LedgerEntry) :
    acc.add f event row = {
      spend := acc.spend + ((postings f (event, row)).map Prod.snd).sum
      refunds := acc.refunds + refundOf (event, row)
      income := acc.income + incomeOf (event, row)
      investment := acc.investment + investmentOf (event, row)
      counts := if row.countsAsTransaction then acc.counts.set row.eventId () else acc.counts
      byCategory := tally acc.byCategory (postings f (event, row)) } := by
  unfold add postings refundOf incomeOf investmentOf
  cases row.countsAsTransaction <;> cases row.isSpend <;> cases row.isIncome <;>
    cases row.isInvestment <;> by_cases hrefund : event.type = .refund <;>
    simp [hrefund, tally, post, addToCategory, InsertionMap.upsert, sub_eq_add_neg, add_assoc]

/-- What the rows that count have added up to. -/
def ofCounted (f : Event → LedgerEntry → JsString) (rows : List (Event × LedgerEntry)) : Running :=
  rows.foldl (fun acc p => acc.add f p.1 p.2) {}

/-- The loop adds the rows that count. -/
theorem foldl_step (eventsById : InsertionMap JsString Event) (start stop : ℤ)
    (rows : List LedgerEntry) :
    rows.foldl (step eventsById f start stop) {} = ofCounted f (counted eventsById start stop rows) := by
  rw [ofCounted, counted, List.foldl_filterMap]
  congr 1
  funext acc row
  rw [step]
  cases eventsById.get? row.eventId with
  | none => rfl
  | some event =>
    cases hin : inPeriod start stop event row <;> simp [Option.filter, hin]

theorem ofCounted_append_singleton (rows : List (Event × LedgerEntry)) (p : Event × LedgerEntry) :
    ofCounted f (rows ++ [p]) = (ofCounted f rows).add f p.1 p.2 := by
  rw [ofCounted, List.foldl_append]
  rfl

/-- Each amount is a sum over the rows that count. -/
theorem ofCounted_amounts (rows : List (Event × LedgerEntry)) :
    (ofCounted f rows).spend = ((rows.flatMap (postings f)).map Prod.snd).sum ∧
      (ofCounted f rows).refunds = (rows.map refundOf).sum ∧
      (ofCounted f rows).income = (rows.map incomeOf).sum ∧
      (ofCounted f rows).investment = (rows.map investmentOf).sum ∧
      (ofCounted f rows).byCategory = tally .empty (rows.flatMap (postings f)) := by
  induction rows using List.reverseRecOn with
  | nil => exact ⟨rfl, rfl, rfl, rfl, rfl⟩
  | append_singleton rows p ih =>
    obtain ⟨hspend, hrefunds, hincome, hinvestment, hcategory⟩ := ih
    rw [ofCounted_append_singleton, add_eq]
    simp only [List.flatMap_append, List.map_append, List.sum_append, List.flatMap_singleton,
      List.map_singleton, List.sum_singleton, tally_append]
    exact ⟨by rw [hspend], by rw [hrefunds], by rw [hincome], by rw [hinvestment], by rw [hcategory]⟩

theorem mem_keys_counts {rows : List (Event × LedgerEntry)} {id : JsString} :
    id ∈ (ofCounted f rows).counts.keys ↔ id ∈ countedIds rows := by
  induction rows using List.reverseRecOn with
  | nil => exact Iff.rfl
  | append_singleton rows p ih =>
    rw [ofCounted_append_singleton, add_eq]
    have hids : countedIds (rows ++ [p]) = countedIds rows ++ countedIds [p] := by
      rw [countedIds, List.filter_append, List.map_append]
      rfl
    rw [hids, List.mem_append, ← ih]
    by_cases hcounts : p.2.countsAsTransaction = true
    · simp [countedIds, hcounts, or_comm]
    · simp [countedIds, hcounts]

/-- The transactions are the different events that the rows count for. -/
theorem size_counts (rows : List (Event × LedgerEntry)) :
    (ofCounted f rows).counts.size = (countedIds rows).toFinset.card := by
  have hnodup : (ofCounted f rows).counts.keys.Nodup := (ofCounted f rows).counts.nodup_keys
  rw [InsertionMap.size_eq_length_keys, ← List.toFinset_card_of_nodup hnodup]
  congr 1
  ext id
  rw [List.mem_toFinset, List.mem_toFinset]
  exact mem_keys_counts

/-- The totals that `totals` returns. -/
def toTotals (acc : Running) : Totals where
  spendMinor := acc.spend
  refundMinor := acc.refunds
  incomeMinor := acc.income
  investmentMinor := acc.investment
  transactionCount := acc.counts.size
  byCategory := acc.byCategory

theorem spend_eq (rows : List (Event × LedgerEntry)) :
    (ofCounted f rows).spend = ((rows.flatMap (postings f)).map Prod.snd).sum :=
  (ofCounted_amounts rows).1

theorem byCategory_eq (rows : List (Event × LedgerEntry)) :
    (ofCounted f rows).byCategory = tally .empty (rows.flatMap (postings f)) :=
  (ofCounted_amounts rows).2.2.2.2

end Running

/-! ### Totals of the same rows -/

/-- `t` is `t₁` and `t₂` together, the number of transactions apart. -/
structure Totals.AddsUp (t t₁ t₂ : Totals) : Prop where
  spend : t.spendMinor = t₁.spendMinor + t₂.spendMinor
  refund : t.refundMinor = t₁.refundMinor + t₂.refundMinor
  income : t.incomeMinor = t₁.incomeMinor + t₂.incomeMinor
  investment : t.investmentMinor = t₁.investmentMinor + t₂.investmentMinor
  category : ∀ k, amountAt t.byCategory k = amountAt t₁.byCategory k + amountAt t₂.byCategory k

/-- The totals agree; the categories may be listed in another order. -/
structure Totals.Same (t t' : Totals) : Prop where
  spend : t.spendMinor = t'.spendMinor
  refund : t.refundMinor = t'.refundMinor
  income : t.incomeMinor = t'.incomeMinor
  investment : t.investmentMinor = t'.investmentMinor
  transactions : t.transactionCount = t'.transactionCount
  category : ∀ k, t.byCategory.get? k = t'.byCategory.get? k

namespace Running

variable {f : Event → LedgerEntry → JsString} {rows rows' : List (Event × LedgerEntry)}

/-- The categories hold the spend. -/
theorem sum_byCategory (rows : List (Event × LedgerEntry)) :
    (ofCounted f rows).byCategory.sum (fun _ v => v) = (ofCounted f rows).spend := by
  rw [byCategory_eq, spend_eq, sum_tally, InsertionMap.sum_empty, zero_add]

/-- The order of the rows that count does not matter. -/
theorem same_of_perm (h : rows.Perm rows') :
    (ofCounted f rows).toTotals.Same (ofCounted f rows').toTotals := by
  obtain ⟨hspend, hrefunds, hincome, hinvestment, hcategory⟩ := ofCounted_amounts (f := f) rows
  obtain ⟨hspend', hrefunds', hincome', hinvestment', hcategory'⟩ := ofCounted_amounts (f := f) rows'
  have hpostings : (rows.flatMap (postings f)).Perm (rows'.flatMap (postings f)) := h.flatMap_right _
  have hids : (countedIds rows).Perm (countedIds rows') := (h.filter _).map _
  constructor
  · exact hspend.trans (((hpostings.map _).sum_eq).trans hspend'.symm)
  · exact hrefunds.trans (((h.map _).sum_eq).trans hrefunds'.symm)
  · exact hincome.trans (((h.map _).sum_eq).trans hincome'.symm)
  · exact hinvestment.trans (((h.map _).sum_eq).trans hinvestment'.symm)
  · change (ofCounted f rows).counts.size = (ofCounted f rows').counts.size
    rw [size_counts, size_counts, List.toFinset_eq_of_perm _ _ hids]
  · intro k
    change (ofCounted f rows).byCategory.get? k = (ofCounted f rows').byCategory.get? k
    rw [hcategory, hcategory']
    exact get?_tally_perm hpostings k

/-- Rows that count in one part or the other are added up part by part. -/
theorem addsUp_append (rows rows' : List (Event × LedgerEntry)) :
    (ofCounted f (rows ++ rows')).toTotals.AddsUp (ofCounted f rows).toTotals
      (ofCounted f rows').toTotals := by
  obtain ⟨hspend, hrefunds, hincome, hinvestment, -⟩ := ofCounted_amounts (f := f) rows
  obtain ⟨hspend', hrefunds', hincome', hinvestment', -⟩ := ofCounted_amounts (f := f) rows'
  obtain ⟨hboth, hboths, hbothi, hbothv, -⟩ := ofCounted_amounts (f := f) (rows ++ rows')
  rw [List.flatMap_append, List.map_append, List.sum_append] at hboth
  rw [List.map_append, List.sum_append] at hboths hbothi hbothv
  constructor
  · exact hboth.trans (congrArg₂ _ hspend hspend').symm
  · exact hboths.trans (congrArg₂ _ hrefunds hrefunds').symm
  · exact hbothi.trans (congrArg₂ _ hincome hincome').symm
  · exact hbothv.trans (congrArg₂ _ hinvestment hinvestment').symm
  · intro k
    change amountAt (ofCounted f (rows ++ rows')).byCategory k =
      amountAt (ofCounted f rows).byCategory k + amountAt (ofCounted f rows').byCategory k
    have hempty : amountAt (InsertionMap.empty : InsertionMap JsString ℤ) k = 0 := rfl
    rw [byCategory_eq, byCategory_eq, byCategory_eq, amountAt_tally, amountAt_tally, amountAt_tally,
      List.flatMap_append, List.map_append, List.sum_append, hempty, zero_add, zero_add, zero_add]

end Running

theorem Totals.AddsUp.of_same {t t' t₁ t₂ : Totals} (h : t.Same t') (hsum : t'.AddsUp t₁ t₂) :
    t.AddsUp t₁ t₂ where
  spend := h.spend.trans hsum.spend
  refund := h.refund.trans hsum.refund
  income := h.income.trans hsum.income
  investment := h.investment.trans hsum.investment
  category k := by
    have hk := hsum.category k
    rw [amountAt, ← h.category] at hk
    exact hk

/-- Rows of different events count each for a transaction. -/
theorem map_snd_counted (eventsById : InsertionMap JsString Event) (start stop : ℤ)
    (rows : List LedgerEntry) : ((counted eventsById start stop rows).map Prod.snd).Sublist rows := by
  induction rows with
  | nil => exact List.Sublist.refl _
  | cons row rows ih =>
    have hcons : counted eventsById start stop (row :: rows) =
        counted eventsById start stop [row] ++ counted eventsById start stop rows := by
      rw [counted, counted, counted, ← List.filterMap_append, List.singleton_append]
    rw [hcons, List.map_append, counted_singleton]
    cases eventsById.get? row.eventId with
    | none => exact ih.cons row
    | some event =>
      dsimp only
      split
      · exact ih.cons_cons row
      · exact ih.cons row

theorem Running.nodup_countedIds {rows : List LedgerEntry} (h : (rows.map (·.eventId)).Nodup)
    (eventsById : InsertionMap JsString Event) (start stop : ℤ) :
    (countedIds (counted eventsById start stop rows)).Nodup := by
  have hmap (l : List (Event × LedgerEntry)) :
      (l.map fun p => p.2.eventId) = (l.map Prod.snd).map (·.eventId) := by
    rw [List.map_map]
    rfl
  refine List.Nodup.sublist (List.filter_sublist.map _) ?_
  rw [hmap]
  exact h.sublist ((map_snd_counted eventsById start stop rows).map _)

/-! ### The laws -/

/-- No fact is a money leg of two spend events. -/
def PurchasesDistinct (events : List Event) : Prop :=
  ∀ event ∈ events, ∀ event' ∈ events, event.type.isSpend = true → event'.type.isSpend = true →
    ∀ leg ∈ event.legs, ∀ leg' ∈ event'.legs, leg.role.isMoney = true → leg'.role.isMoney = true →
      leg.factId = leg'.factId → event = event'

instance (events : List Event) : Decidable (PurchasesDistinct events) :=
  inferInstanceAs (Decidable (∀ event ∈ events, ∀ event' ∈ events, event.type.isSpend = true →
    event'.type.isSpend = true → ∀ leg ∈ event.legs, ∀ leg' ∈ event'.legs, leg.role.isMoney = true →
      leg'.role.isMoney = true → leg.factId = leg'.factId → event = event'))

/-- The rows of an event that name a category name the same one. -/
def CategoriesAgree (entries : List LedgerEntry) : Prop :=
  ∀ row ∈ entries, ∀ row' ∈ entries, row.eventId = row'.eventId →
    ∀ slug ∈ row.category, ∀ slug' ∈ row'.category, slug = slug'

instance (entries : List LedgerEntry) : Decidable (CategoriesAgree entries) :=
  inferInstanceAs (Decidable (∀ row ∈ entries, ∀ row' ∈ entries, row.eventId = row'.eventId →
    ∀ slug ∈ row.category, ∀ slug' ∈ row'.category, slug = slug'))

/-- Both calls throw the same error, or their totals agree. -/
def SameResult : Except String Totals → Except String Totals → Prop
  | .ok t, .ok t' => t.Same t'
  | .error e, .error e' => e = e'
  | _, _ => False

section Laws

variable {categoryByEvent : InsertionMap JsString CategoryDecision} {entries entries' : List LedgerEntry}
  {events events' : List Event}

theorem refundCategory_congr {purchases purchases' categories categories' : InsertionMap JsString JsString}
    (hpurchases : ∀ k, purchases.get? k = purchases'.get? k)
    (hcategories : ∀ k, categories.get? k = categories'.get? k) :
    refundCategory categoryByEvent purchases categories =
      refundCategory categoryByEvent purchases' categories' := by
  have hget : categories.get? = categories'.get? := funext hcategories
  funext event row
  rw [refundCategory, refundCategory, hget]
  simp only [hpurchases]

theorem get?_purchaseByFact_perm (hdistinct : PurchasesDistinct events) (h : events.Perm events')
    (k : JsString) : (purchaseByFact events).get? k = (purchaseByFact events').get? k := by
  refine get?_indexBy_perm ((h.filter _).flatMap_right _) ?_ k
  intro a ha b hb hkey
  obtain ⟨event, hevent, ha⟩ := List.mem_flatMap.mp ha
  obtain ⟨event', hevent', hb⟩ := List.mem_flatMap.mp hb
  obtain ⟨leg, hleg, rfl⟩ := List.mem_map.mp ha
  obtain ⟨leg', hleg', rfl⟩ := List.mem_map.mp hb
  rw [List.mem_filter] at hevent hevent' hleg hleg'
  exact congrArg Event.eventId (hdistinct event hevent.1 event' hevent'.1 hevent.2 hevent'.2
    leg hleg.1 leg' hleg'.1 hleg.2 hleg'.2 hkey)

theorem get?_categoriesOf_perm (hagree : CategoriesAgree entries) (h : entries.Perm entries')
    (k : JsString) : (categoriesOf entries).get? k = (categoriesOf entries').get? k := by
  refine get?_indexBy_perm (h.filterMap _) ?_ k
  intro a ha b hb hkey
  obtain ⟨row, hrow, ha⟩ := List.mem_filterMap.mp ha
  obtain ⟨row', hrow', hb⟩ := List.mem_filterMap.mp hb
  obtain ⟨slug, hslug, rfl⟩ := Option.map_eq_some_iff.mp ha
  obtain ⟨slug', hslug', rfl⟩ := Option.map_eq_some_iff.mp hb
  exact hagree row hrow row' hrow' hkey slug hslug slug' hslug'

theorem get?_eventsById_perm (hevents : (events.map (·.eventId)).Nodup) (h : events.Perm events')
    (k : JsString) : (indexBy (·.eventId) id events).get? k = (indexBy (·.eventId) id events').get? k :=
  get?_indexBy_perm h (fun _ ha _ hb hkey => List.inj_on_of_nodup_map hevents ha hb hkey) k

/-- The totals add the rows that count. -/
theorem totals_eq (hentries : (entries.map (·.entryId)).Nodup)
    (hevents : (events.map (·.eventId)).Nodup) (start stop : ℤ) :
    totals categoryByEvent entries events start stop =
      if stop < start then .error "to precedes from"
      else .ok (Running.ofCounted
        (refundCategory categoryByEvent (purchaseByFact events) (categoriesOf entries))
        (counted (indexBy (·.eventId) id events) start stop entries)).toTotals := by
  rw [totals]
  simp only [values_indexBy hentries, values_indexBy hevents, List.map_id, Running.foldl_step]
  rfl

/-- The rows that count are found by lookups only. -/
theorem counted_perm (hevents : (events.map (·.eventId)).Nodup) (hentries : entries.Perm entries')
    (h : events.Perm events') (start stop : ℤ) :
    (counted (indexBy (·.eventId) id events) start stop entries).Perm
      (counted (indexBy (·.eventId) id events') start stop entries') := by
  unfold counted
  simp only [get?_eventsById_perm hevents h]
  exact hentries.filterMap _

/-- The amounts of the categories sum to the spend, the totals of a period are those of its parts
added up, and neither the order of the rows nor that of the events matters. -/
theorem totals_laws (categoryByEvent : InsertionMap JsString CategoryDecision)
    (entries : List LedgerEntry) (events : List Event)
    (hentries : (entries.map (·.entryId)).Nodup) (hevents : (events.map (·.eventId)).Nodup) :
    (∀ start stop t, totals categoryByEvent entries events start stop = .ok t →
      t.byCategory.sum (fun _ amount => amount) = t.spendMinor) ∧
    (∀ start mid stop, start ≤ mid → mid ≤ stop → ∃ t t₁ t₂,
      totals categoryByEvent entries events start stop = .ok t ∧
      totals categoryByEvent entries events start mid = .ok t₁ ∧
      totals categoryByEvent entries events mid stop = .ok t₂ ∧
      t.AddsUp t₁ t₂ ∧
      ((entries.map (·.eventId)).Nodup →
        t.transactionCount = t₁.transactionCount + t₂.transactionCount)) ∧
    (PurchasesDistinct events → CategoriesAgree entries →
      ∀ entries' events' start stop, entries.Perm entries' → events.Perm events' →
        SameResult (totals categoryByEvent entries events start stop)
          (totals categoryByEvent entries' events' start stop)) := by
  refine ⟨?sums, ?splits, ?orders⟩
  case sums =>
    intro start stop t ht
    rw [totals_eq hentries hevents] at ht
    split at ht
    · cases ht
    · cases ht
      exact Running.sum_byCategory _
  case splits =>
    intro start mid stop hstart hstop
    have hperm := counted_perm_append (indexBy (·.eventId) id events) hstart hstop entries
    refine ⟨_, _, _, (totals_eq hentries hevents start stop).trans (if_neg (by omega)),
      (totals_eq hentries hevents start mid).trans (if_neg (by omega)),
      (totals_eq hentries hevents mid stop).trans (if_neg (by omega)),
      .of_same (Running.same_of_perm hperm) (Running.addsUp_append _ _), fun hone => ?_⟩
    change (Running.ofCounted _ _).counts.size =
      (Running.ofCounted _ _).counts.size + (Running.ofCounted _ _).counts.size
    have hids : (Running.countedIds (counted (indexBy (·.eventId) id events) start stop entries)).Perm
        (Running.countedIds (counted (indexBy (·.eventId) id events) start mid entries) ++
          Running.countedIds (counted (indexBy (·.eventId) id events) mid stop entries)) := by
      rw [Running.countedIds, Running.countedIds, Running.countedIds, ← List.map_append,
        ← List.filter_append]
      exact (hperm.filter _).map _
    rw [Running.size_counts, Running.size_counts, Running.size_counts,
      List.toFinset_card_of_nodup (Running.nodup_countedIds hone _ _ _),
      List.toFinset_card_of_nodup (Running.nodup_countedIds hone _ _ _),
      List.toFinset_card_of_nodup (Running.nodup_countedIds hone _ _ _), hids.length_eq,
      List.length_append]
  case orders =>
    intro hdistinct hagree entries' events' start stop hperm hpermEvents
    rw [totals_eq hentries hevents, totals_eq ((hperm.map _).nodup_iff.mp hentries)
      ((hpermEvents.map _).nodup_iff.mp hevents)]
    split
    · rfl
    · rw [refundCategory_congr (get?_purchaseByFact_perm hdistinct hpermEvents)
        (get?_categoriesOf_perm hagree hperm)]
      exact Running.same_of_perm (counted_perm hevents hperm hpermEvents start stop)

end Laws

/-! ### A purchase split over two categories -/

namespace SplitPurchase

/-- A purchase and its refund. -/
def events : List Event := [
  { eventId := js "p", type := .purchase, status := .complete, legs := [⟨js "f", .debitLeg⟩],
    linkRuleId := none, confidence := 1, occurredAt := 0, amountMinor := 300 },
  { eventId := js "r", type := .refund, status := .complete,
    legs := [⟨js "g", .creditLeg⟩, ⟨js "f", .original⟩],
    linkRuleId := none, confidence := 1, occurredAt := 1, amountMinor := 100 }]

def row (entryId eventId : JsString) (amount : ℤ) (category : JsString) (isSpend : Bool) :
    LedgerEntry where
  entryId := entryId
  eventId := eventId
  «from» := .external (js "SHOP")
  «to» := .ownUnresolved .bankAccount
  amountMinor := amount
  unit := .inr
  occurredAt := 0
  category := some category
  countsAsTransaction := true
  isSpend := isSpend
  isIncome := false
  isInvestment := false

/-- The purchase has two rows. -/
def entries : List LedgerEntry := [
  row (js "1") (js "p") 100 (js "food") true,
  row (js "2") (js "p") 200 (js "travel") true,
  row (js "3") (js "r") 100 (js "food") false]

end SplitPurchase

/-- Where the rows of a purchase name two categories, the last row decides which of them a refund is
taken from. -/
theorem totals_not_order_independent :
    ¬ ∀ (categoryByEvent : InsertionMap JsString CategoryDecision)
      (entries entries' : List LedgerEntry) (events : List Event) (start stop : ℤ),
      (entries.map (·.entryId)).Nodup → (events.map (·.eventId)).Nodup → PurchasesDistinct events →
      entries.Perm entries' →
      SameResult (totals categoryByEvent entries events start stop)
        (totals categoryByEvent entries' events start stop) := by
  intro h
  have hsame := h .empty SplitPurchase.entries SplitPurchase.entries.reverse SplitPurchase.events
    0 10 (by decide) (by decide) (by decide) (List.reverse_perm _).symm
  have hfood := @Totals.Same.category _ _ hsame (js "food")
  revert hfood
  decide

/-- The laws hold of a purchase with one row and its refund. -/
theorem totals_laws_refund :
    SplitPurchase.entries.tail.map (·.eventId) = [js "p", js "r"] ∧
    ∃ t t₁ t₂, totals .empty SplitPurchase.entries.tail SplitPurchase.events 0 2 = .ok t ∧
      totals .empty SplitPurchase.entries.tail SplitPurchase.events 0 1 = .ok t₁ ∧
      totals .empty SplitPurchase.entries.tail SplitPurchase.events 1 2 = .ok t₂ ∧
      t.AddsUp t₁ t₂ ∧ t.transactionCount = t₁.transactionCount + t₂.transactionCount ∧
      t.byCategory.sum (fun _ amount => amount) = t.spendMinor ∧
      SameResult (.ok t)
        (totals .empty SplitPurchase.entries.tail.reverse SplitPurchase.events.reverse 0 2) := by
  obtain ⟨hsums, hsplits, horders⟩ := totals_laws .empty SplitPurchase.entries.tail
    SplitPurchase.events (by decide) (by decide)
  obtain ⟨t, t₁, t₂, ht, ht₁, ht₂, hsum, hcount⟩ := hsplits 0 1 2 (by decide) (by decide)
  refine ⟨by decide, t, t₁, t₂, ht, ht₁, ht₂, hsum, hcount (by decide), hsums 0 2 t ht, ?_⟩
  rw [← ht]
  exact horders (by decide) (by decide) _ _ 0 2 (List.reverse_perm _).symm (List.reverse_perm _).symm

end PandaPay.SmsV2
