import PandaPay.CardBills.Credits
import PandaPay.Library.Gregorian

/-!
# The order of the lists

Sorts compare dates only. Where no two messages of a card have one statement date, payments of one id are equal
and payments of a card that were made at one instant are alike, no list is seen in the order it has.

## Main definitions

* `Untied`: no ties that matter

## Main results

* `paymentsOf_relist`, `openLedgers_relist`: what other lists with the same elements lead to
* `card_bills_counted_once`: payments are counted once, for the card they name, in any order
* `bills_not_order_independent`: with ties the order counts
-/

namespace PandaPay.CardBills

/-- The only element of a list with a property does not depend on the order. -/
theorem find?_perm {α : Type*} {p : α → Bool} {l l' : List α} (hperm : l.Perm l')
    (hone : ∀ a ∈ l, ∀ b ∈ l, p a → p b → a = b) : l.find? p = l'.find? p := by
  cases h : l.find? p with
  | none =>
    refine Eq.symm (List.find?_eq_none.mpr fun a ha => ?_)
    exact List.find?_eq_none.mp h a (hperm.mem_iff.mpr ha)
  | some a =>
    have ha := List.mem_of_find?_eq_some h
    cases h' : l'.find? p with
    | none => exact absurd (List.find?_some h) (List.find?_eq_none.mp h' a (hperm.mem_iff.mp ha))
    | some b =>
      have hb := hperm.mem_iff.mpr (List.mem_of_find?_eq_some h')
      rw [hone a ha b hb (List.find?_some h) (List.find?_some h')]

/-! ### The messages of a card -/

section Evidence

variable (host : Host) {cards cards' candidates candidates' : List UserCard}
  {evidence evidence' : List CardBillEvidence}

theorem candidateCardsForEvidence_perm (hcards : cards.Perm cards') (orphan : CardBillEvidence) :
    (candidateCardsForEvidence host orphan cards).Perm (candidateCardsForEvidence host orphan cards') := by
  unfold candidateCardsForEvidence
  dsimp only
  have hnil : ∀ {l l' : List UserCard}, l.Perm l' → (l ≠ [] ↔ l' ≠ []) := fun h => by
    rw [ne_eq, ne_eq, ← List.length_eq_zero_iff, ← List.length_eq_zero_iff, h.length_eq]
  have hnamed := hcards.filter (familyNamesCard host orphan.family)
  have hbank := hcards.filter fun card =>
    canonicalBankSender host orphan.family <:+: lowerName host card
  by_cases hfamily : orphan.family = none ∨ orphan.family = some []
  · rw [if_pos hfamily, if_pos hfamily]
  rw [if_neg hfamily, if_neg hfamily]
  have hchosen : (if canonicalBankSender host orphan.family ∈ js "hdfc" :: aggregators then
        cards.filter (isHdfcCard host) else []).Perm
      (if canonicalBankSender host orphan.family ∈ js "hdfc" :: aggregators then
        cards'.filter (isHdfcCard host) else []) := by
    split_ifs
    · exact hcards.filter _
    · exact .refl _
  simp only [hnil hchosen, hnamed.length_eq, hnil hbank]
  generalize (if canonicalBankSender host orphan.family ∈ js "hdfc" :: aggregators then
    cards.filter (isHdfcCard host) else []) = chosen at hchosen ⊢
  generalize (if canonicalBankSender host orphan.family ∈ js "hdfc" :: aggregators then
    cards'.filter (isHdfcCard host) else []) = chosen' at hchosen ⊢
  split_ifs
  · exact hchosen
  · exact hnamed
  · exact hbank
  · exact hnamed

theorem cycleOwner_perm (hcandidates : candidates.Perm candidates') (hcards : cards.Perm cards')
    (orphan row : CardBillEvidence) :
    cycleOwner host orphan candidates cards row = cycleOwner host orphan candidates' cards' row := by
  unfold cycleOwner
  have hany : ∀ card : UserCard, candidates.any (·.id = card.id) = candidates'.any (·.id = card.id) :=
    fun card => by rw [Bool.eq_iff_iff, List.any_eq_true, List.any_eq_true]; simp only [hcandidates.mem_iff]
  simp only [single?_perm (hcards.filter fun card => card.last4 = row.cardLast4), hany]

theorem mem_of_cycleOwner {orphan row : CardBillEvidence} {card : UserCard}
    (h : cycleOwner host orphan candidates cards row = some card) : card ∈ cards := by
  unfold cycleOwner at h
  split_ifs at h
  obtain ⟨hcard, -⟩ := Option.filter_eq_some_iff.mp h
  have hmem : card ∈ cards.filter fun card => card.last4 = row.cardLast4 := by
    rw [single?_eq_some.mp hcard]
    exact List.mem_singleton_self card
  exact List.mem_of_mem_filter hmem

variable (hids : (cards.map UserCard.id).Nodup)

include hids

theorem explicitCardsForCycle_perm (hcandidates : candidates.Perm candidates') (hcards : cards.Perm cards')
    (hevidence : evidence.Perm evidence') (orphan : CardBillEvidence) :
    (explicitCardsForCycle host orphan candidates cards evidence).Perm
      (explicitCardsForCycle host orphan candidates' cards' evidence') := by
  have howners : (evidence.filterMap (cycleOwner host orphan candidates cards)).Perm
      (evidence'.filterMap (cycleOwner host orphan candidates' cards')) := by
    rw [funext (cycleOwner_perm host hcandidates hcards orphan)]
    exact hevidence.filterMap _
  have hmem : ∀ card ∈ evidence.filterMap (cycleOwner host orphan candidates cards), card ∈ cards := by
    intro card hcard
    obtain ⟨row, -, hrow⟩ := List.mem_filterMap.mp hcard
    exact mem_of_cycleOwner host hrow
  refine (InsertionMap.entries_perm fun id => ?_).map Prod.snd
  exact get?_indexBy_perm howners
    (fun a ha b hb hab => List.inj_on_of_nodup_map hids (hmem a ha) (hmem b hb) hab) id

theorem orphanTarget_perm (hcards : cards.Perm cards') (hevidence : evidence.Perm evidence')
    (orphan : CardBillEvidence) :
    orphanTarget host cards evidence orphan = orphanTarget host cards' evidence' orphan := by
  have hcandidates := candidateCardsForEvidence_perm host hcards orphan
  have hcycle := single?_perm (explicitCardsForCycle_perm host hids hcandidates hcards hevidence orphan)
  unfold orphanTarget
  dsimp only
  split_ifs
  · rfl
  · generalize candidateCardsForEvidence host orphan cards = candidates at hcandidates hcycle ⊢
    generalize candidateCardsForEvidence host orphan cards' = candidates' at hcandidates hcycle ⊢
    match candidates, candidates', hcandidates with
    | [], candidates', hcandidates => rw [List.nil_perm.mp hcandidates]
    | [card], candidates', hcandidates =>
      obtain rfl := List.singleton_perm.mp hcandidates
      rfl
    | _ :: _ :: _, _ :: _ :: _, _ => exact hcycle
    | _ :: _ :: _, [], hcandidates => exact absurd hcandidates.length_eq (by simp)
    | _ :: _ :: _, [_], hcandidates => exact absurd hcandidates.length_eq (by simp)

theorem combined_perm (hcards : cards.Perm cards') (hevidence : evidence.Perm evidence') (card : UserCard) :
    (combined host cards evidence card).Perm (combined host cards' evidence' card) := by
  unfold combined
  refine List.Perm.append ?_ ?_
  · have hown : ownEvidence cards card = ownEvidence cards' card := by
      funext e
      unfold ownEvidence
      rw [(hcards.filter fun c => c.last4 = e.cardLast4).length_eq]
    rw [hown]
    exact hevidence.filter _
  · rw [orphanAttributed, orphanAttributed, getD_collect, getD_collect,
      funext (orphanTarget_perm host hids hcards hevidence)]
    exact (hevidence.filter _).filter _

variable {sorting : Sorting ℤ} {now : DateTime}

/-- The ledgers before any payment are those of the relisted cards and messages. -/
theorem openLedgers_relist (hcards : cards.Perm cards') (hevidence : evidence.Perm evidence')
    (hdates : ∀ card ∈ cards, ∀ e ∈ combined host cards evidence card,
      ∀ e' ∈ combined host cards evidence card, e.statementDate.micros = e'.statementDate.micros → e = e')
    (id : JsString) :
    (openLedgers sorting host cards evidence now).get? id =
      (openLedgers sorting host cards' evidence' now).get? id := by
  have hledger : ∀ card ∈ cards, ledgerOf sorting host now (combined host cards evidence card) =
      ledgerOf sorting host now (combined host cards' evidence' card) := by
    intro card hcard
    have hperm := combined_perm host hids hcards hevidence card
    have hsort : newestFirst sorting (combined host cards evidence card) =
        newestFirst sorting (combined host cards' evidence' card) :=
      sorting.congr hperm fun e he e' he' hkey => hdates card hcard e he e' he' (neg_inj.mp hkey)
    have hnil : combined host cards evidence card = [] ↔ combined host cards' evidence' card = [] := by
      rw [← List.length_eq_zero_iff, hperm.length_eq, List.length_eq_zero_iff]
    unfold ledgerOf mergeCycles
    simp only [hsort, hnil]
  rw [openLedgers_eq, openLedgers_eq]
  refine get?_indexBy_perm ?_ ?_ id
  · rw [List.filterMap_congr fun card hcard => by rw [hledger card hcard]]
    exact hcards.filterMap _
  · intro a ha b hb hkey
    obtain ⟨card, hcard, ha⟩ := List.mem_filterMap.mp ha
    obtain ⟨card', hcard', hb⟩ := List.mem_filterMap.mp hb
    obtain ⟨ledger, hl, rfl⟩ := Option.map_eq_some_iff.mp ha
    obtain ⟨ledger', hl', rfl⟩ := Option.map_eq_some_iff.mp hb
    obtain rfl := List.inj_on_of_nodup_map hids hcard hcard' hkey
    exact Option.some.inj (hl.symm.trans hl')

end Evidence

/-! ### The payments of a card -/

section Payments

variable {host : Host} {cards cards' : List UserCard} {ledgers ledgers' : InsertionMap JsString CardBillLedger}
  {payments payments' : List TransactionEntry} {now : DateTime}

theorem explicitCard_perm (hids : (cards.map UserCard.id).Nodup) (hcards : cards.Perm cards')
    (txn : TransactionEntry) : explicitCard host cards txn = explicitCard host cards' txn := by
  have hone : ∀ id, ∀ a ∈ cards, ∀ b ∈ cards, a.id = id → b.id = id → a = b :=
    fun id a ha b hb hid hid' => List.inj_on_of_nodup_map hids ha hb (hid.trans hid'.symm)
  unfold explicitCard
  split
  next last4 hlast4 =>
    have hhits := hcards.filter fun c => c.last4 = some last4
    have hfind : (cards.filter fun c => c.last4 = some last4).find? (fun c => some c.id = txn.userCardId) =
        (cards'.filter fun c => c.last4 = some last4).find? fun c => some c.id = txn.userCardId := by
      refine find?_perm hhits fun a ha b hb hid hid' => ?_
      rw [decide_eq_true_eq] at hid hid'
      exact hone b.id a (List.mem_of_mem_filter ha) b (List.mem_of_mem_filter hb)
        (Option.some.inj (hid.trans hid'.symm)) rfl
    dsimp only
    generalize (cards.filter fun c => c.last4 = some last4) = hits at hhits hfind ⊢
    generalize (cards'.filter fun c => c.last4 = some last4) = hits' at hhits hfind ⊢
    match hits, hits', hhits with
    | [], hits', hhits => rw [List.nil_perm.mp hhits]
    | [hit], hits', hhits =>
      obtain rfl := List.singleton_perm.mp hhits
      rfl
    | _ :: _ :: _, _ :: _ :: _, _ => exact hfind
    | _ :: _ :: _, [], hhits => exact absurd hhits.length_eq (by simp)
    | _ :: _ :: _, [_], hhits => exact absurd hhits.length_eq (by simp)
  next =>
    split
    next mentioned _ => exact single?_perm (hcards.filter _)
    next =>
      split
      next userCardId _ =>
        refine find?_perm hcards fun a ha b hb hid hid' => ?_
        rw [decide_eq_true_eq] at hid hid'
        exact hone userCardId a ha b hb hid hid'
      next => rfl

theorem byWindow_perm (hcards : cards.Perm cards') (hledgers : ∀ id, ledgers.get? id = ledgers'.get? id)
    (txn : TransactionEntry) :
    (byWindow host cards ledgers txn).Perm (byWindow host cards' ledgers' txn) := by
  unfold byWindow
  simp only [hledgers]
  exact hcards.filter _

theorem byAmount_perm {left left' : List TransactionEntry} (hcards : cards.Perm cards')
    (hledgers : ∀ id, ledgers.get? id = ledgers'.get? id) (hleft : left.Perm left') :
    (byAmount cards ledgers left).Perm (byAmount cards' ledgers' left') := by
  unfold byAmount
  simp only [hledgers, (hleft.map (·.amount)).sum_eq]
  exact hcards.filter _

theorem eligible_perm (hpayments : payments.Perm payments')
    (hone : ∀ p ∈ payments.filter (isCardBillPaymentTxn host),
      ∀ q ∈ payments.filter (isCardBillPaymentTxn host), p.id = q.id → p = q) :
    (eligible host now payments).Perm (eligible host now payments') :=
  (firstBy_perm (hpayments.filter _) hone).filter _

theorem isResidual_perm (hcards : cards.Perm cards') (hledgers : ∀ id, ledgers.get? id = ledgers'.get? id) :
    isResidual host cards ledgers = isResidual host cards' ledgers' := by
  funext txn
  rw [isResidual, isResidual, single?_perm (byWindow_perm hcards hledgers txn)]

theorem owner_perm (hids : (cards.map UserCard.id).Nodup) (hcards : cards.Perm cards')
    (hledgers : ∀ id, ledgers.get? id = ledgers'.get? id)
    (heligible : (eligible host now payments).Perm (eligible host now payments')) :
    owner host cards ledgers now payments = owner host cards' ledgers' now payments' := by
  funext txn
  have hresidual : (residual host cards ledgers now payments).Perm
      (residual host cards' ledgers' now payments') := by
    rw [residual, residual, isResidual_perm hcards hledgers]
    exact heligible.filter _
  rw [owner, owner, target, target, isResidual_perm hcards hledgers, residualCard, residualCard,
    single?_perm (byAmount_perm hcards hledgers hresidual), explicitCard_perm hids hcards,
    single?_perm (byWindow_perm hcards hledgers txn)]

end Payments

/-! ### Everything -/

section All

variable {sorting : Sorting ℤ} {host : Host} {cards cards' : List UserCard}
  {evidence evidence' : List CardBillEvidence} {payments payments' : List TransactionEntry} {now : DateTime}

/-- No ties that matter: the messages of a card have distinct statement dates, payments of one id are equal, and
the payments of a card that were made at one instant are alike. -/
structure Untied (sorting : Sorting ℤ) (host : Host) (cards : List UserCard)
    (evidence : List CardBillEvidence) (payments : List TransactionEntry) (now : DateTime) : Prop where
  statementDate : ∀ card ∈ cards, ∀ e ∈ combined host cards evidence card,
    ∀ e' ∈ combined host cards evidence card, e.statementDate.micros = e'.statementDate.micros → e = e'
  id : ∀ p ∈ payments.filter (isCardBillPaymentTxn host),
    ∀ q ∈ payments.filter (isCardBillPaymentTxn host), p.id = q.id → p = q
  occurredAt : ∀ id, ∀ p ∈ paymentsOf sorting host cards evidence payments now id,
    ∀ q ∈ paymentsOf sorting host cards evidence payments now id,
    p.occurredAt.micros = q.occurredAt.micros → p.occurredAt = q.occurredAt ∧ p.amount = q.amount

/-- The payments of a card are those of the relisted cards, messages and payments. -/
theorem paymentsOf_relist (hids : (cards.map UserCard.id).Nodup) (hcards : cards.Perm cards')
    (hevidence : evidence.Perm evidence') (hpayments : payments.Perm payments')
    (huntied : Untied sorting host cards evidence payments now) (id : JsString) :
    (paymentsOf sorting host cards evidence payments now id).Perm
      (paymentsOf sorting host cards' evidence' payments' now id) := by
  have hledgers : ∀ id, (openLedgers sorting host cards evidence now).get? id =
      (openLedgers sorting host cards' evidence' now).get? id :=
    openLedgers_relist host hids hcards hevidence huntied.statementDate
  have heligible : (eligible host now payments).Perm (eligible host now payments') :=
    eligible_perm hpayments huntied.id
  refine (paymentsOf_perm id).trans (List.Perm.trans ?_ (paymentsOf_perm id).symm)
  rw [owner_perm hids hcards hledgers heligible]
  exact heligible.filter _

theorem mem_of_mem_combined {card : UserCard} {e : CardBillEvidence}
    (h : e ∈ combined host cards evidence card) : e ∈ evidence := by
  rcases List.mem_append.mp h with he | he
  · exact List.mem_of_mem_filter he
  · rw [orphanAttributed, getD_collect] at he
    exact List.mem_of_mem_filter (List.mem_of_mem_filter he)

theorem mem_of_mem_paymentsOf {id : JsString} {txn : TransactionEntry}
    (h : txn ∈ paymentsOf sorting host cards evidence payments now id) : txn ∈ payments :=
  List.mem_of_mem_filter (mem_of_mem_firstBy (List.mem_of_mem_filter
    (List.mem_of_mem_filter ((paymentsOf_perm id).mem_iff.mp h))))

/-- A payment is settled by its amount and its time. -/
theorem attach_congr {ledger : CardBillLedger} {txn txn' : TransactionEntry}
    (h : (txn.occurredAt, txn.amount) = (txn'.occurredAt, txn'.amount)) :
    ledger.attach host txn = ledger.attach host txn' := by
  obtain ⟨htime, hamount⟩ := Prod.mk.inj h
  have hslot : ledger.slotOf host txn = ledger.slotOf host txn' := by
    unfold CardBillLedger.slotOf
    rw [htime, hamount]
  have hcredit : ledger.credit txn = ledger.credit txn' := by
    funext slot
    cases slot <;> simp only [CardBillLedger.credit, CardBill.settle, htime, hamount]
  rw [CardBillLedger.attach, CardBillLedger.attach, hslot, hcredit]

/-- The ledgers of relisted cards, messages and payments are the same. -/
theorem deriveCardBills_relist (hids : (cards.map UserCard.id).Nodup) (hcards : cards.Perm cards')
    (hevidence : evidence.Perm evidence') (hpayments : payments.Perm payments')
    (huntied : Untied sorting host cards evidence payments now) (id : JsString) :
    (deriveCardBills sorting host cards evidence payments now).get? id =
      (deriveCardBills sorting host cards' evidence' payments' now).get? id := by
  rw [get?_deriveCardBills, get?_deriveCardBills,
    openLedgers_relist host hids hcards hevidence huntied.statementDate id]
  congr 1
  funext ledger
  unfold attached
  have hstep : ∀ (ledger : CardBillLedger) (p q : TransactionEntry),
      (p.occurredAt, p.amount) = (q.occurredAt, q.amount) → ledger.attach host p = ledger.attach host q :=
    fun _ _ _ h => attach_congr h
  refine foldl_eq_of_map_eq hstep ?_ ledger
  refine sorting.map_congr (paymentsOf_relist hids hcards hevidence hpayments huntied id) ?_
  intro p hp q hq htime
  obtain ⟨hat, hamount⟩ := huntied.occurredAt id p hp q hq htime
  exact Prod.ext hat hamount

/-- Distinct dates, ids and times tie nothing. -/
theorem untied_of_distinct (hdates : ∀ e ∈ evidence, ∀ e' ∈ evidence,
      e.statementDate.micros = e'.statementDate.micros → e = e')
    (hids : ∀ p ∈ payments, ∀ q ∈ payments, p.id = q.id → p = q)
    (htimes : ∀ p ∈ payments, ∀ q ∈ payments, p.occurredAt.micros = q.occurredAt.micros → p = q) :
    Untied sorting host cards evidence payments now where
  statementDate _ _ e he e' he' := hdates e (mem_of_mem_combined he) e' (mem_of_mem_combined he')
  id p hp q hq := hids p (List.mem_of_mem_filter hp) q (List.mem_of_mem_filter hq)
  occurredAt _ p hp q hq htime := by
    obtain rfl := htimes p (mem_of_mem_paymentsOf hp) q (mem_of_mem_paymentsOf hq) htime
    exact ⟨rfl, rfl⟩

variable (sorting host cards evidence payments now) in
/-- What is paid towards the bills is what is credited to them, a payment is credited at most once and only if it
counts, and one that names a card only to this card. -/
structure CountedOnce : Prop where
  paidToward : ∀ id ledger slot bill,
    (deriveCardBills sorting host cards evidence payments now).get? id = some ledger →
    ledger.bill slot = some bill →
    bill.paidToward = (((credits sorting host cards evidence payments now).filter fun c =>
      c.slot = slot && c.cardId = id).map (·.payment.amount)).sum
  once : ((credits sorting host cards evidence payments now).map (·.payment.id)).Nodup
  counts : ∀ c ∈ credits sorting host cards evidence payments now, c.payment ∈ eligible host now payments
  total : ((deriveCardBills sorting host cards evidence payments now).sum fun _ ledger =>
      ledger.paid .current + ledger.paid .previous) ≤
    ((eligible host now payments).map (·.amount)).sum
  named : ∀ c ∈ credits sorting host cards evidence payments now, ∀ card ∈ cards,
    Names host cards c.payment card → c.cardId = card.id
  unknown : ∀ c ∈ credits sorting host cards evidence payments now, namesSomeCard host c.payment →
    ∃ card ∈ cards, Names host cards c.payment card

variable (sorting host cards evidence payments now) in
theorem countedOnce : CountedOnce sorting host cards evidence payments now where
  paidToward _ _ slot _ hledger hbill := by
    rw [← paid_of_bill hbill]
    exact paid_eq slot hledger
  once := by
    have hsub : ((credits sorting host cards evidence payments now).map Credit.payment).Subperm
      (eligible host now payments) := credits_subperm
    obtain ⟨l, hperm, hsub⟩ := hsub
    have hnodup : (((credits sorting host cards evidence payments now).map Credit.payment).map
        TransactionEntry.id).Nodup :=
      (hperm.map _).nodup_iff.mp (nodup_map_id_eligible.sublist (hsub.map _))
    rwa [List.map_map] at hnodup
  counts c hc := credits_subperm.subset (List.mem_map_of_mem hc)
  total := sum_paid_le
  named _ hc _ hcard hnames := cardId_of_names hc hcard hnames
  unknown _ hc hnames := by
    obtain ⟨card, hcard, hname, -⟩ := exists_names_of_mem_credits hc hnames
    exact ⟨card, hcard, hname⟩

/-- **Payments are counted once, in any order.** What is paid towards the current and previous bills of all cards
is credited from distinct payments, each to one bill of one card at most, and from those that name a card to this
card only. Where nothing is tied, other orders of the cards, messages and payments lead to the same ledgers. -/
theorem card_bills_counted_once (sorting : Sorting ℤ) (host : Host) (cards : List UserCard)
    (evidence : List CardBillEvidence) (payments : List TransactionEntry) (now : DateTime)
    (hids : (cards.map UserCard.id).Nodup) :
    CountedOnce sorting host cards evidence payments now ∧
      ∀ cards' evidence' payments', cards.Perm cards' → evidence.Perm evidence' → payments.Perm payments' →
        Untied sorting host cards evidence payments now → ∀ id,
        (deriveCardBills sorting host cards evidence payments now).get? id =
          (deriveCardBills sorting host cards' evidence' payments' now).get? id :=
  ⟨countedOnce sorting host cards evidence payments now, fun _ _ _ hcards hevidence hpayments huntied id =>
    deriveCardBills_relist hids hcards hevidence hpayments huntied id⟩

end All

/-! ### Runs -/

section Runs

open Gregorian

/-- A host in UTC, for texts in lower case without digits. -/
def utc : Host where
  toLowerCase text := text
  billPaymentVerb text := js "payment" <:+: text
  cardWord text := js "card" <:+: text
  endingDigits _ := none
  year d := yearOf (d.micros / oneDay)
  month d := monthOf (d.micros / oneDay) % 12 + 1
  day d := d.micros / oneDay - monthStart (monthOf (d.micros / oneDay)) + 1
  localDate year month day := ⟨(monthStart (12 * year + month - 1) + day - 1) * oneDay, false⟩

/-- A day of the year 2026. -/
def dayOf2026 (month day : ℤ) : DateTime := utc.localDate 2026 month day

def axisCard : UserCard where
  id := js "card-a"
  last4 := some (js "8080")
  cardName := js "axis flipkart"

def iciciCard : UserCard where
  id := js "card-b"
  last4 := some (js "1234")
  cardName := js "icici amazon"

/-- A bill of the first card. -/
def axisBill (statementDate dueDate : DateTime) (amountDue : ℤ) : CardBillEvidence where
  cardLast4 := some (js "8080")
  statementDate := statementDate
  statementDateExplicit := true
  dueDate := some dueDate
  amountDue := some amountDue
  confidence := 9 / 10

/-- A payment towards a bill of the first card. -/
def axisPayment (id : JsString) (amount : ℤ) (occurredAt : DateTime) : TransactionEntry where
  id := id
  amount := amount
  occurredAt := occurredAt
  merchantName := some (js "credit card bill payment")
  cardLast4 := some (js "8080")
  entryKind := .transfer
  status := js "active"

def septemberBill : CardBillEvidence := axisBill (dayOf2026 9 18) (dayOf2026 10 5) 100000
def octoberBill : CardBillEvidence := axisBill (dayOf2026 10 18) (dayOf2026 11 2) 200000

/-- A second bill with the statement date of the other. -/
def octoberOther : CardBillEvidence := axisBill (dayOf2026 10 18) (dayOf2026 11 5) 50000

def firstPayment : TransactionEntry := axisPayment (js "p1") 100000 (dayOf2026 10 20)
def secondPayment : TransactionEntry := axisPayment (js "p2") 99000 (dayOf2026 10 21)

/-- The second payment, made on the day of the first. -/
def sameDayPayment : TransactionEntry := axisPayment (js "p2") 99000 (dayOf2026 10 20)

/-- Two cards, two bills and two payments, each in both orders. -/
theorem card_bills_counted_once_swapped :
    CountedOnce .insertion utc [axisCard, iciciCard] [septemberBill, octoberBill] [firstPayment, secondPayment]
        (dayOf2026 11 1) ∧
      ∀ id,
        (deriveCardBills .insertion utc [axisCard, iciciCard] [septemberBill, octoberBill]
          [firstPayment, secondPayment] (dayOf2026 11 1)).get? id =
        (deriveCardBills .insertion utc [iciciCard, axisCard] [octoberBill, septemberBill]
          [secondPayment, firstPayment] (dayOf2026 11 1)).get? id := by
  have h := card_bills_counted_once .insertion utc [axisCard, iciciCard] [septemberBill, octoberBill]
    [firstPayment, secondPayment] (dayOf2026 11 1) (by decide +kernel)
  refine ⟨h.1, h.2 _ _ _ (.swap _ _ _) (.swap _ _ _) (.swap _ _ _) (untied_of_distinct ?_ ?_ ?_)⟩
  · decide +kernel
  · decide +kernel
  · decide +kernel

/-- With ties the order counts: of two bills with one statement date the first listed is the current one, and
whether both of two payments of one instant go to the previous bill depends on which is listed first. -/
theorem bills_not_order_independent :
    (¬ ∀ evidence evidence' : List CardBillEvidence, evidence.Perm evidence' → ∀ id,
      (deriveCardBills .insertion utc [axisCard] evidence [] (dayOf2026 11 1)).get? id =
        (deriveCardBills .insertion utc [axisCard] evidence' [] (dayOf2026 11 1)).get? id) ∧
    ¬ ∀ payments payments' : List TransactionEntry, payments.Perm payments' → ∀ id,
      (deriveCardBills .insertion utc [axisCard] [septemberBill, octoberBill] payments
          (dayOf2026 11 1)).get? id =
        (deriveCardBills .insertion utc [axisCard] [septemberBill, octoberBill] payments'
          (dayOf2026 11 1)).get? id := by
  constructor
  · intro h
    exact absurd (h [octoberBill, octoberOther] [octoberOther, octoberBill] (.swap _ _ _) axisCard.id)
      (by decide +kernel)
  · intro h
    exact absurd (h [firstPayment, sameDayPayment] [sameDayPayment, firstPayment] (.swap _ _ _) axisCard.id)
      (by decide +kernel)

end Runs

end PandaPay.CardBills
