import PandaPay.CardBills.Payments

/-!
# What payments are credited to

A payment that counts is filed under one card at most, and its round of the loop settles one bill of this card
at most. So the bills hold what the payments bring, and no more.

## Main definitions

* `eligible`: the payments that count, each once
* `owner`: the card that a payment is filed under
* `credits`: which bill each payment settles
* `Names`: the card that a payment names

## Main results

* `getD_attribution_perm`: the payments of a card are those it owns
* `get?_deriveCardBills`: the ledger of a card
* `paidToward_eq`: a bill holds its credits
-/

namespace PandaPay.CardBills

/-! ### The payments that count -/

section Eligible

variable (host : Host) (now : DateTime)

/-- Whether a payment has an amount and has been made. -/
def counts (txn : TransactionEntry) : Bool := 0 < txn.amount && txn.occurredAt.micros ≤ now.micros

/-- The distinct payments that count: of each id the first one. -/
def eligible (payments : List TransactionEntry) : List TransactionEntry :=
  (firstBy TransactionEntry.id (payments.filter (isCardBillPaymentTxn host))).filter (counts now)

variable {host now} {payments : List TransactionEntry}

theorem nodup_map_id_eligible : ((eligible host now payments).map TransactionEntry.id).Nodup :=
  (nodup_map_firstBy _ _).sublist (List.filter_sublist.map _)

theorem pos_of_mem_eligible {txn : TransactionEntry} (h : txn ∈ eligible host now payments) :
    0 < txn.amount := by
  have hcounts := (List.mem_filter.mp h).2
  simp only [counts, Bool.and_eq_true, decide_eq_true_eq] at hcounts
  exact hcounts.1

end Eligible

/-! ### The card of a payment -/

section Owner

variable (host : Host) (cards : List UserCard) (ledgers : InsertionMap JsString CardBillLedger)

/-- The card that a payment is filed under by itself. -/
def target (txn : TransactionEntry) : Option UserCard :=
  (explicitCard host cards txn).or
    (if namesSomeCard host txn then none else single? (byWindow host cards ledgers txn))

/-- Whether a payment is left after the loop. -/
def isResidual (txn : TransactionEntry) : Bool :=
  !namesSomeCard host txn && (single? (byWindow host cards ledgers txn)).isNone

variable {host cards ledgers} {now : DateTime} {txn : TransactionEntry}

theorem namesSomeCard_of_explicitCard {card : UserCard} (h : explicitCard host cards txn = some card) :
    namesSomeCard host txn = true := by
  unfold explicitCard at h
  unfold namesSomeCard
  split at h
  next last4 hlast4 => simp [hlast4]
  next hlast4 =>
    split at h
    next mentioned hmentioned => simp [hmentioned]
    next hmentioned =>
      split at h
      next userCardId hcard => simp [hcard]
      next => cases h

theorem target_of_isResidual (h : isResidual host cards ledgers txn) :
    target host cards ledgers txn = none := by
  unfold isResidual at h
  rw [Bool.and_eq_true, Bool.not_eq_true', Option.isNone_iff_eq_none] at h
  have hexplicit : explicitCard host cards txn = none := by
    refine Option.eq_none_iff_forall_ne_some.mpr fun card hcard => ?_
    rw [namesSomeCard_of_explicitCard hcard] at h
    exact Bool.noConfusion h.1
  simp [target, hexplicit, h.1, h.2]

/-- A round of the loop files a payment under its target, or leaves it. -/
theorem step_eq (a : Attribution) :
    a.step host cards ledgers now txn =
      if txn.id ∈ a.seenPayments then a
      else if counts now txn then
        { seenPayments := a.seenPayments ++ [txn.id]
          attributed := ((target host cards ledgers txn).map UserCard.id).elim a.attributed fun id =>
            a.attributed.upsert id [] (· ++ [txn])
          residual := if isResidual host cards ledgers txn then a.residual ++ [txn] else a.residual }
      else { a with seenPayments := a.seenPayments ++ [txn.id] } := by
  unfold Attribution.step
  by_cases hseen : txn.id ∈ a.seenPayments
  · rw [if_pos hseen, if_pos hseen]
  rw [if_neg hseen, if_neg hseen]
  by_cases hcounts : counts now txn
  · have hno : ¬ (txn.amount ≤ 0 ∨ now.micros < txn.occurredAt.micros) := by
      simp only [counts, Bool.and_eq_true, decide_eq_true_eq] at hcounts
      omega
    simp only [if_neg hno, if_pos hcounts]
    cases hexplicit : explicitCard host cards txn with
    | some card =>
      have hnames := namesSomeCard_of_explicitCard hexplicit
      simp [target, isResidual, hexplicit, hnames, Attribution.assign]
    | none =>
      by_cases hnames : namesSomeCard host txn
      · simp [target, isResidual, hexplicit, hnames]
      · rw [if_neg hnames]
        -- no window, one, or several
        rcases hwindow : byWindow host cards ledgers txn with _ | ⟨card, _ | ⟨card', rest⟩⟩
        · simp [target, isResidual, hexplicit, hnames, hwindow]
        · simp [target, isResidual, hexplicit, hnames, hwindow, Attribution.assign]
        · simp [target, isResidual, hexplicit, hnames, hwindow, single?]
  · have hyes : txn.amount ≤ 0 ∨ now.micros < txn.occurredAt.micros := by
      simp only [counts, Bool.and_eq_true, decide_eq_true_eq] at hcounts
      omega
    simp only [if_pos hyes, if_neg hcounts]

/-- What the loop has done behind some payments. -/
theorem foldl_step (payments : List TransactionEntry) :
    payments.foldl (Attribution.step host cards ledgers · now) {} =
      { seenPayments := (firstBy TransactionEntry.id payments).map TransactionEntry.id
        attributed := collect (fun txn => (target host cards ledgers txn).map UserCard.id)
          ((firstBy TransactionEntry.id payments).filter (counts now))
        residual := ((firstBy TransactionEntry.id payments).filter (counts now)).filter
          (isResidual host cards ledgers) } := by
  induction payments using List.reverseRecOn with
  | nil => rfl
  | append_singleton payments txn ih =>
    rw [List.foldl_append, ih, List.foldl_cons, List.foldl_nil, step_eq, firstBy_append_singleton]
    by_cases hseen : txn.id ∈ (firstBy TransactionEntry.id payments).map TransactionEntry.id
    · simp only [if_pos hseen]
    · simp only [if_neg hseen, List.map_append, List.filter_append]
      by_cases hcounts : counts now txn
      · simp only [if_pos hcounts, List.filter_cons_of_pos hcounts, List.filter_nil,
          collect_append_singleton, List.map_singleton]
        by_cases hleft : isResidual host cards ledgers txn <;> simp [hleft]
      · simp [hcounts]

variable (host cards ledgers now) (payments : List TransactionEntry)

/-- The payments that are left after the loop. -/
def residual : List TransactionEntry :=
  (eligible host now payments).filter (isResidual host cards ledgers)

/-- The card that all the payments left together fit. -/
def residualCard : Option UserCard := single? (byAmount cards ledgers (residual host cards ledgers now payments))

/-- The id of the card that a payment is filed under. -/
def owner (txn : TransactionEntry) : Option JsString :=
  ((if isResidual host cards ledgers txn then residualCard host cards ledgers now payments
    else target host cards ledgers txn)).map UserCard.id

theorem attribution_eq :
    attribution host cards ledgers now payments =
      let filed := collect (fun txn => (target host cards ledgers txn).map UserCard.id)
        (eligible host now payments)
      let left := residual host cards ledgers now payments
      if left = [] then filed
      else
        match byAmount cards ledgers left with
        | [card] => filed.upsert card.id [] (· ++ left)
        | _ => filed := by
  unfold attribution
  rw [foldl_step]
  rfl

/-- The payments of a card: those filed under it, and those left where they fit it. -/
theorem getD_attribution (id : JsString) :
    ((attribution host cards ledgers now payments).get? id).getD [] =
      ((eligible host now payments).filter fun txn =>
        (target host cards ledgers txn).map UserCard.id = some id) ++
      if (residualCard host cards ledgers now payments).map UserCard.id = some id then
        residual host cards ledgers now payments else [] := by
  rw [attribution_eq, residualCard]
  by_cases hresidual : residual host cards ledgers now payments = []
  · simp only [hresidual, if_pos, getD_collect, ite_self, List.append_nil]
  simp only [if_neg hresidual]
  rcases byAmount cards ledgers (residual host cards ledgers now payments) with
    _ | ⟨card, _ | ⟨card', rest⟩⟩
  · simp only [single?_nil, Option.map_none, reduceCtorEq, if_false, getD_collect, List.append_nil]
  · rw [single?_singleton, Option.map_some, get?_upsert]
    by_cases hid : id = card.id
    · rw [if_pos hid, if_pos (congrArg some hid.symm), Option.getD_some, getD_collect, hid]
    · rw [if_neg hid, if_neg fun h => hid (Option.some.inj h).symm, getD_collect, List.append_nil]
  · simp only [single?, Option.map_none, reduceCtorEq, if_false, getD_collect, List.append_nil]

/-- The payments of a card are those it owns, in some order. -/
theorem getD_attribution_perm (id : JsString) :
    (((attribution host cards ledgers now payments).get? id).getD []).Perm
      ((eligible host now payments).filter fun txn => owner host cards ledgers now payments txn = some id) := by
  rw [getD_attribution]
  have hsplit := List.filter_append_perm (isResidual host cards ledgers)
    ((eligible host now payments).filter fun txn => owner host cards ledgers now payments txn = some id)
  refine List.Perm.trans ?_ hsplit
  rw [List.filter_filter, List.filter_filter]
  have htarget : ((eligible host now payments).filter fun txn =>
        (target host cards ledgers txn).map UserCard.id = some id) =
      (eligible host now payments).filter fun txn =>
        !isResidual host cards ledgers txn && decide (owner host cards ledgers now payments txn = some id) := by
    refine List.filter_congr fun txn _ => ?_
    by_cases hleft : isResidual host cards ledgers txn
    · simp [hleft, target_of_isResidual hleft]
    · simp [owner, hleft]
  have hresidual : (if (residualCard host cards ledgers now payments).map UserCard.id = some id then
        residual host cards ledgers now payments else []) =
      (eligible host now payments).filter fun txn =>
        isResidual host cards ledgers txn && decide (owner host cards ledgers now payments txn = some id) := by
    split_ifs with hcard
    · refine List.filter_congr fun txn _ => ?_
      by_cases hleft : isResidual host cards ledgers txn <;> simp [owner, hleft, hcard]
    · refine (List.filter_eq_nil_iff.mpr fun txn _ => ?_).symm
      by_cases hleft : isResidual host cards ledgers txn <;> simp [owner, hleft, hcard]
  rw [htarget, hresidual]
  exact List.perm_append_comm

end Owner

/-! ### The ledgers before any payment -/

section Open

variable (sorting : Sorting ℤ) (host : Host) (cards : List UserCard) (evidence : List CardBillEvidence)
  (now : DateTime)

/-- The ledgers before any payment, as a map from a list. -/
theorem openLedgers_eq :
    openLedgers sorting host cards evidence now =
      indexBy Prod.fst Prod.snd (cards.filterMap fun card =>
        (ledgerOf sorting host now (combined host cards evidence card)).map (card.id, ·)) := by
  rw [openLedgers, indexBy, List.foldl_filterMap]
  congr 1
  funext ledgers card
  cases ledgerOf sorting host now (combined host cards evidence card) <;> rfl

variable {sorting host cards evidence now} {id : JsString} {ledger : CardBillLedger}

/-- A ledger is that of a card. -/
theorem exists_of_get?_openLedgers (h : (openLedgers sorting host cards evidence now).get? id = some ledger) :
    ∃ card ∈ cards, card.id = id ∧
      ledgerOf sorting host now (combined host cards evidence card) = some ledger := by
  rw [openLedgers_eq] at h
  obtain ⟨e, he, hid, hledger⟩ := exists_of_get?_indexBy h
  obtain ⟨card, hcard, hsome⟩ := List.mem_filterMap.mp he
  obtain ⟨l, hl, rfl⟩ := Option.map_eq_some_iff.mp hsome
  exact ⟨card, hcard, hid, hledger ▸ hl⟩

theorem paidToward_of_mem_mergeCycles {maxAge : Option ℤ} {maxCycles : Option ℕ}
    {rows : List CardBillEvidence} {bill : CardBill}
    (h : bill ∈ mergeCycles sorting host now maxAge maxCycles rows) : bill.paidToward = 0 := by
  unfold mergeCycles at h
  dsimp only at h
  split at h
  · cases h
  · obtain ⟨cycle, -, rfl⟩ := List.mem_map.mp h
    rfl

/-- What is paid towards the bill in a slot. -/
def CardBillLedger.paid (ledger : CardBillLedger) (slot : Slot) : ℤ := (ledger.bill slot).elim 0 (·.paidToward)

theorem paid_of_bill {slot : Slot} {bill : CardBill} (h : ledger.bill slot = some bill) :
    ledger.paid slot = bill.paidToward := by
  rw [CardBillLedger.paid, h, Option.elim_some]

/-- Nothing is paid yet. -/
theorem paid_of_ledgerOf {rows : List CardBillEvidence} (h : ledgerOf sorting host now rows = some ledger)
    (slot : Slot) : ledger.paid slot = 0 := by
  unfold ledgerOf at h
  dsimp only at h
  split_ifs at h with hnone
  rw [Option.some.injEq] at h
  subst h
  cases hbill : CardBillLedger.bill _ slot with
  | none => rw [CardBillLedger.paid, hbill, Option.elim_none]
  | some bill =>
    rw [paid_of_bill hbill]
    cases slot with
    | current => exact paidToward_of_mem_mergeCycles (List.mem_of_getElem? hbill)
    | previous => exact paidToward_of_mem_mergeCycles (List.mem_of_getElem? hbill)

theorem paid_openLedgers (h : (openLedgers sorting host cards evidence now).get? id = some ledger)
    (slot : Slot) : ledger.paid slot = 0 := by
  obtain ⟨card, -, -, hledger⟩ := exists_of_get?_openLedgers h
  exact paid_of_ledgerOf hledger slot

end Open

/-! ### The bill of a payment -/

namespace CardBillLedger

variable (host : Host) (ledger : CardBillLedger)

/-- Which slot each payment is settled in, those that are not settled left out. -/
def credits : CardBillLedger → List TransactionEntry → List (Slot × TransactionEntry)
  | _, [] => []
  | ledger, txn :: txns =>
    ((ledger.slotOf host txn).map (·, txn)).toList ++ credits (ledger.attach host txn) txns

variable {host ledger} {txn : TransactionEntry} {slot : Slot}

/-- A payment is settled where there is a bill. -/
theorem bill_of_slotOf (h : ledger.slotOf host txn = some slot) : (ledger.bill slot).isSome := by
  unfold slotOf at h
  dsimp only at h
  split at h
  · cases h
  · split_ifs at h
    · obtain ⟨bill, hbill, rfl⟩ := Option.map_eq_some_iff.mp h
      exact Option.isSome_of_eq_some hbill
    · obtain ⟨bill, hbill, rfl⟩ := Option.map_eq_some_iff.mp h
      exact Option.isSome_of_eq_some hbill

/-- A round of the loop adds the amount in one slot. -/
theorem paid_attach (slot : Slot) :
    (ledger.attach host txn).paid slot =
      ledger.paid slot + if ledger.slotOf host txn = some slot then txn.amount else 0 := by
  unfold attach
  cases hslot : ledger.slotOf host txn with
  | none => simp
  | some s =>
    obtain ⟨bill, hbill⟩ := Option.isSome_iff_exists.mp (bill_of_slotOf hslot)
    rw [Option.elim_some]
    cases s <;> cases slot <;> simp_all [credit, paid, CardBillLedger.bill, CardBill.settle]

/-- A bill holds what it held and the payments settled in its slot. -/
theorem paid_foldl (txns : List TransactionEntry) (slot : Slot) :
    (txns.foldl (·.attach host) ledger).paid slot =
      ledger.paid slot + (((ledger.credits host txns).filter (·.1 = slot)).map (·.2.amount)).sum := by
  induction txns generalizing ledger with
  | nil => simp [credits]
  | cons txn txns ih =>
    rw [List.foldl_cons, ih, paid_attach, credits, List.filter_append, List.map_append, List.sum_append,
      add_assoc]
    congr 2
    cases ledger.slotOf host txn with
    | none => rfl
    | some s => by_cases hs : s = slot <;> simp [hs]

/-- Payments are settled once. -/
theorem credits_sublist (txns : List TransactionEntry) :
    ((ledger.credits host txns).map Prod.snd).Sublist txns := by
  induction txns generalizing ledger with
  | nil => exact .slnil
  | cons txn txns ih =>
    rw [credits, List.map_append]
    cases ledger.slotOf host txn with
    | none => exact ih.cons txn
    | some s => exact ih.cons_cons txn

end CardBillLedger

/-! ### All ledgers -/

/-- That a payment is settled in a bill of a card. -/
structure Credit where
  cardId : JsString
  slot : Slot
  payment : TransactionEntry
  deriving DecidableEq

section All

variable (sorting : Sorting ℤ) (host : Host) (cards : List UserCard) (evidence : List CardBillEvidence)
  (payments : List TransactionEntry) (now : DateTime)

/-- The payments of a card, in the order in which they are settled. -/
def inOrder (txns : List TransactionEntry) : List TransactionEntry :=
  sorting.sort (·.occurredAt.micros) txns

/-- The payments of a card. -/
def paymentsOf (id : JsString) : List TransactionEntry :=
  ((attribution host cards (openLedgers sorting host cards evidence now) now payments).get? id).getD []

/-- Which bill of a card each of its payments settles. -/
def creditsOf (id : JsString) : List Credit :=
  ((openLedgers sorting host cards evidence now).get? id).elim [] fun ledger =>
    (ledger.credits host (inOrder sorting (paymentsOf sorting host cards evidence payments now id))).map
      fun e => ⟨id, e.1, e.2⟩

/-- Which bill each payment settles. -/
def credits : List Credit :=
  (attribution host cards (openLedgers sorting host cards evidence now) now payments).keys.flatMap
    (creditsOf sorting host cards evidence payments now)

variable {sorting host cards evidence payments now} {id : JsString}

/-- The ledger of a card is the one before any payment, with its payments. -/
theorem get?_deriveCardBills :
    (deriveCardBills sorting host cards evidence payments now).get? id =
      ((openLedgers sorting host cards evidence now).get? id).map fun ledger =>
        attached sorting host ledger (paymentsOf sorting host cards evidence payments now id) := by
  unfold deriveCardBills paymentsOf
  rw [get?_updateAll]
  congr 1
  funext ledger
  cases (attribution host cards (openLedgers sorting host cards evidence now) now payments).get? id with
  | some txns => rfl
  | none =>
    have hnil : sorting.sort (fun txn : TransactionEntry => txn.occurredAt.micros) [] = [] :=
      sorting.sort_eq_nil.mpr rfl
    rw [Option.elim_none, Option.getD_none, attached, hnil, List.foldl_nil]

theorem cardId_of_mem_creditsOf {c : Credit} (h : c ∈ creditsOf sorting host cards evidence payments now id) :
    c.cardId = id := by
  unfold creditsOf at h
  cases hledger : (openLedgers sorting host cards evidence now).get? id with
  | none => rw [hledger] at h; cases h
  | some ledger =>
    rw [hledger, Option.elim_some] at h
    obtain ⟨e, -, rfl⟩ := List.mem_map.mp h
    rfl

/-- The payments that are settled for a card are among its payments. -/
theorem creditsOf_subperm :
    ((creditsOf sorting host cards evidence payments now id).map Credit.payment).Subperm
      (paymentsOf sorting host cards evidence payments now id) := by
  unfold creditsOf
  cases (openLedgers sorting host cards evidence now).get? id with
  | none => exact List.nil_subperm
  | some ledger =>
    rw [Option.elim_some, List.map_map]
    exact (ledger.credits_sublist _).subperm.trans (sorting.perm _ _).subperm

theorem paymentsOf_perm (id : JsString) :
    (paymentsOf sorting host cards evidence payments now id).Perm
      ((eligible host now payments).filter fun txn =>
        owner host cards (openLedgers sorting host cards evidence now) now payments txn = some id) :=
  getD_attribution_perm _ _ _ _ _ id

/-- Of the payments of a card those are listed that settle one of its bills. -/
theorem filter_credits (id : JsString) :
    (credits sorting host cards evidence payments now).filter (·.cardId = id) =
      creditsOf sorting host cards evidence payments now id := by
  have hcard : ∀ k, ∀ c ∈ creditsOf sorting host cards evidence payments now k, c.cardId = k :=
    fun _ _ => cardId_of_mem_creditsOf
  refine (filter_flatMap Credit.cardId hcard (InsertionMap.nodup_keys _) id).trans ?_
  split_ifs with hid
  · rfl
  · -- a card without payments has no credits
    have hpayments : paymentsOf sorting host cards evidence payments now id = [] := by
      rw [paymentsOf, InsertionMap.get?_eq_none_iff.mpr hid, Option.getD_none]
    have hsub : ((creditsOf sorting host cards evidence payments now id).map Credit.payment).Subperm
        (paymentsOf sorting host cards evidence payments now id) := creditsOf_subperm
    rw [hpayments, List.subperm_nil, List.map_eq_nil_iff] at hsub
    exact hsub.symm

/-- What is paid in a slot of a ledger is what is credited there. -/
theorem paid_eq {ledger : CardBillLedger} (slot : Slot)
    (hledger : (deriveCardBills sorting host cards evidence payments now).get? id = some ledger) :
    ledger.paid slot =
      (((credits sorting host cards evidence payments now).filter fun c =>
        c.slot = slot && c.cardId = id).map (·.payment.amount)).sum := by
  rw [get?_deriveCardBills, Option.map_eq_some_iff] at hledger
  obtain ⟨before, hbefore, rfl⟩ := hledger
  rw [attached, CardBillLedger.paid_foldl, paid_openLedgers hbefore, zero_add, ← List.filter_filter,
    filter_credits, creditsOf, hbefore, Option.elim_some, List.filter_map, List.map_map]
  rfl

/-- Every payment is credited once, and counts. -/
theorem credits_subperm :
    ((credits sorting host cards evidence payments now).map Credit.payment).Subperm
      (eligible host now payments) := by
  rw [credits, List.map_flatMap]
  refine (flatMap_subperm (fun id => ?_) _).trans
    (flatMap_filter_subperm
      (owner host cards (openLedgers sorting host cards evidence now) now payments)
      (eligible host now payments) (InsertionMap.nodup_keys _))
  exact creditsOf_subperm.trans (paymentsOf_perm id).subperm

/-- A payment that is credited to a card is owned by it. -/
theorem owner_of_mem_credits {c : Credit} (h : c ∈ credits sorting host cards evidence payments now) :
    owner host cards (openLedgers sorting host cards evidence now) now payments c.payment =
      some c.cardId := by
  obtain ⟨id, -, hc⟩ := List.mem_flatMap.mp h
  have hmem := creditsOf_subperm.subset (List.mem_map_of_mem hc)
  have howner := (List.mem_filter.mp ((paymentsOf_perm id).mem_iff.mp hmem)).2
  rw [cardId_of_mem_creditsOf hc]
  exact of_decide_eq_true howner

/-- The card that a payment names: by its digits, which may need its card to tell cards with the same digits
apart, else by the digits in its text, else by its card. -/
def Names (host : Host) (cards : List UserCard) (txn : TransactionEntry) (card : UserCard) : Prop :=
  match txn.cardLast4, mentionedLast4 host txn with
  | some digits, _ => card.last4 = some digits ∧
      ((∀ c ∈ cards, c.last4 = some digits → c.id = card.id) ∨ txn.userCardId = some card.id)
  | none, some digits => card.last4 = some digits ∧ ∀ c ∈ cards, c.last4 = some digits → c.id = card.id
  | none, none => txn.userCardId = some card.id

theorem Names.namesSomeCard {txn : TransactionEntry} {card : UserCard} (h : Names host cards txn card) :
    namesSomeCard host txn = true := by
  unfold Names at h
  unfold CardBills.namesSomeCard
  split at h
  next hdigits => simp [hdigits]
  next hdigits => simp [hdigits]
  next => simp [h]

/-- A payment names one card. -/
theorem Names.unique {txn : TransactionEntry} {card card' : UserCard} (hmem : card ∈ cards)
    (hmem' : card' ∈ cards) (h : Names host cards txn card) (h' : Names host cards txn card') :
    card.id = card'.id := by
  unfold Names at h h'
  cases hlast4 : txn.cardLast4 with
  | some digits =>
    simp only [hlast4] at h h'
    obtain ⟨hdigits, hsole | huser⟩ := h
    · exact (hsole card' hmem' h'.1).symm
    · obtain ⟨hdigits', hsole' | huser'⟩ := h'
      · exact hsole' card hmem hdigits
      · exact Option.some.inj (huser.symm.trans huser')
  | none =>
    cases hmentioned : mentionedLast4 host txn with
    | some digits =>
      simp only [hlast4, hmentioned] at h h'
      exact (h.2 card' hmem' h'.1).symm
    | none =>
      simp only [hlast4, hmentioned] at h h'
      exact Option.some.inj (h.symm.trans h')

/-- No other card has the digits of a single hit. -/
theorem sole_of_single {digits : JsString} {card : UserCard}
    (h : (cards.filter fun c => c.last4 = some digits) = [card]) :
    card ∈ cards ∧ card.last4 = some digits ∧ ∀ c ∈ cards, c.last4 = some digits → c.id = card.id := by
  have hmem : ∀ c, c ∈ cards ∧ c.last4 = some digits ↔ c = card := fun c => by
    have hc : c ∈ cards.filter (fun c => c.last4 = some digits) ↔ c ∈ [card] := by rw [h]
    simpa only [List.mem_filter, decide_eq_true_eq, List.mem_singleton] using hc
  obtain ⟨hcard, hdigits⟩ := (hmem card).mpr rfl
  exact ⟨hcard, hdigits, fun c hc hd => congrArg UserCard.id ((hmem c).mp ⟨hc, hd⟩)⟩

/-- The source finds the card that a payment names. -/
theorem names_of_explicitCard {txn : TransactionEntry} {card : UserCard}
    (h : explicitCard host cards txn = some card) : card ∈ cards ∧ Names host cards txn card := by
  unfold explicitCard at h
  unfold Names
  split at h
  next digits hdigits =>
    dsimp only at h
    split at h
    next hit hhits =>
      obtain rfl := Option.some.inj h
      obtain ⟨hmem, hlast4, hsole⟩ := sole_of_single hhits
      simpa only [hdigits] using ⟨hmem, hlast4, Or.inl hsole⟩
    next hits =>
      have huser := List.find?_some h
      have hmem := List.mem_filter.mp (List.mem_of_find?_eq_some h)
      simp only [decide_eq_true_eq] at huser hmem
      simpa only [hdigits] using ⟨hmem.1, hmem.2, Or.inr huser.symm⟩
  next hnone =>
    split at h
    next digits hdigits =>
      obtain ⟨hmem, hlast4, hsole⟩ := sole_of_single (single?_eq_some.mp h)
      simpa only [hnone, hdigits] using ⟨hmem, hlast4, hsole⟩
    next hdigits =>
      split at h
      next userCardId huser =>
        have hid := List.find?_some h
        simp only [decide_eq_true_eq] at hid
        simpa only [hnone, hdigits, huser, hid, and_true] using List.mem_of_find?_eq_some h
      next => cases h

/-- A payment that names a card, known or not, is credited only to the one it names. -/
theorem exists_names_of_mem_credits {c : Credit} (h : c ∈ credits sorting host cards evidence payments now)
    (hnames : namesSomeCard host c.payment = true) :
    ∃ card ∈ cards, Names host cards c.payment card ∧ c.cardId = card.id := by
  have howner := owner_of_mem_credits h
  have hleft : isResidual host cards (openLedgers sorting host cards evidence now) c.payment = false := by
    simp [isResidual, hnames]
  simp only [owner, hleft, Bool.false_eq_true, if_false, target, hnames, if_true, Option.or_none] at howner
  obtain ⟨card, hcard, hid⟩ := Option.map_eq_some_iff.mp howner
  obtain ⟨hmem, hname⟩ := names_of_explicitCard hcard
  exact ⟨card, hmem, hname, hid.symm⟩

/-- A payment is credited to no other card than the one it names. -/
theorem cardId_of_names {c : Credit} (h : c ∈ credits sorting host cards evidence payments now)
    {card : UserCard} (hcard : card ∈ cards) (hnames : Names host cards c.payment card) :
    c.cardId = card.id := by
  obtain ⟨card', hcard', hnames', hid⟩ := exists_names_of_mem_credits h hnames.namesSomeCard
  exact hid.trans (hnames'.unique hcard' hcard hnames)

/-- Every credit is one to the current bill or to the previous one. -/
theorem sum_filter_slots (cs : List Credit) (p : Credit → Bool) :
    ((cs.filter fun c => c.slot = .current && p c).map (·.payment.amount)).sum +
      ((cs.filter fun c => c.slot = .previous && p c).map (·.payment.amount)).sum =
      ((cs.filter p).map (·.payment.amount)).sum := by
  induction cs with
  | nil => rfl
  | cons c cs ih =>
    cases hp : p c with
    | false => simpa [hp] using ih
    | true =>
      cases hslot : c.slot with
      | current => simp [hp, hslot, ← ih, add_assoc]
      | previous => simp [hp, hslot, ← ih, add_left_comm]

theorem sum_le_of_subperm {α : Type*} {f : α → ℤ} {l l' : List α} (h : l.Subperm l')
    (hf : ∀ a ∈ l', 0 ≤ f a) : (l.map f).sum ≤ (l'.map f).sum := by
  obtain ⟨k, hperm, hsub⟩ := h
  rw [← (hperm.map f).sum_eq]
  refine (hsub.map f).sum_le_sum fun x hx => ?_
  obtain ⟨a, ha, rfl⟩ := List.mem_map.mp hx
  exact hf a ha

/-- What is paid towards all bills is at most what the payments that count bring. -/
theorem sum_paid_le :
    ((deriveCardBills sorting host cards evidence payments now).sum fun _ ledger =>
        ledger.paid .current + ledger.paid .previous) ≤
      ((eligible host now payments).map (·.amount)).sum := by
  generalize hmap : deriveCardBills sorting host cards evidence payments now = m
  have hentry : ∀ e ∈ m.entries, e.2.paid .current + e.2.paid .previous =
      (((credits sorting host cards evidence payments now).filter fun c => c.cardId = e.1).map
        (·.payment.amount)).sum := by
    intro e he
    have hget : (deriveCardBills sorting host cards evidence payments now).get? e.1 = some e.2 :=
      hmap ▸ InsertionMap.get?_eq_some_iff.mpr he
    rw [paid_eq .current hget, paid_eq .previous hget, sum_filter_slots]
  have hpos : ∀ txn ∈ eligible host now payments, 0 ≤ txn.amount := fun txn h =>
    (pos_of_mem_eligible h).le
  have hall : ∀ c ∈ credits sorting host cards evidence payments now, 0 ≤ c.payment.amount :=
    fun c hc => hpos _ (credits_subperm.subset (List.mem_map_of_mem hc))
  calc m.sum (fun _ ledger => ledger.paid .current + ledger.paid .previous)
      = (m.keys.map fun id => (((credits sorting host cards evidence payments now).filter fun c =>
          c.cardId = id).map (·.payment.amount)).sum).sum := by
        rw [InsertionMap.sum, List.map_congr_left hentry, InsertionMap.keys, List.map_map]
        rfl
    _ = ((m.keys.flatMap fun id => (credits sorting host cards evidence payments now).filter fun c =>
          some c.cardId = some id).map (·.payment.amount)).sum := by
        rw [List.map_flatMap, List.flatMap_def, List.sum_flatten, List.map_map]
        simp only [Option.some.injEq, Function.comp_def]
    _ ≤ ((credits sorting host cards evidence payments now).map (·.payment.amount)).sum :=
        sum_le_of_subperm (flatMap_filter_subperm _ _ m.nodup_keys) hall
    _ = (((credits sorting host cards evidence payments now).map Credit.payment).map (·.amount)).sum := by
        rw [List.map_map]
        rfl
    _ ≤ ((eligible host now payments).map (·.amount)).sum := sum_le_of_subperm credits_subperm hpos

end All

end PandaPay.CardBills
