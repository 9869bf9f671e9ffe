import PandaPay.ForeignPayments.Effects
import PandaPay.Library.Trace

/-!
# The life of a foreign payment

In every state that calls reach, a transaction is linked by at most one payment; a confirmed payment
keeps its transaction and its amount; and a replay changes no details of a payment that the user
edited. A payment that the user dismissed stays dismissed unless it is patched or the import of a
statement claims its source: that path asks no status of the payment.

## Main definitions

* `Db.LinksOnce`, `KeepsConfirmed`, `KeepsCorrected`, `KeepsDismissed`: the four properties
* `Db.revives`: the evidence of a statement settles a dismissed payment

## Main results

* `upsertForeignPayment_spec`, `patchForeignPayment_spec`, `confirmForeignPayment_spec`,
  `reconcileStatementForeignPayment_spec`: what a call writes
* `lifecycle`: the four properties, over every run
* `not_keepsDismissed`: a dismissed payment that is settled
-/

namespace PandaPay.ForeignPayments

open PortableBackup (lowerUnit)

/-! ### What the calls write -/

theorem valuationFor_ne_confirmed (d : Details) (rate : Option ReferenceRate) :
    (valuationFor d rate).valuationStatus ≠ .confirmed := by
  unfold valuationFor
  split
  · split
    · simp [Valuation.waiting]
    · split <;> simp [Valuation.waiting]
  · simp [Valuation.waiting]

theorem patchedValuation_ne_confirmed {before : Payment} (h : before.valuationStatus ≠ .confirmed)
    (merged : Details) (body : Body) (rate : Option ReferenceRate) :
    (Db.patchedValuation before merged body rate).valuationStatus ≠ .confirmed := by
  unfold Db.patchedValuation
  split
  · simp
  split
  · exact valuationFor_ne_confirmed merged rate
  split
  · exact valuationFor_ne_confirmed merged rate
  · exact h

namespace Db

variable {db db' : Db} {ledger : Ledger} {may : Permissions} {p q : Payment}

/-- An edit of a payment that is not confirmed. -/
theorem edit_spec {patch : Payment → Payment} (hp : db.Has p) (hmay : may.edits p)
    (hopen : p.valuationStatus ≠ .confirmed) (hid : (patch p).id = p.id)
    (hlink : (patch p).transactionId = p.transactionId)
    (hstatus : (patch p).valuationStatus ≠ .confirmed)
    (h : db.updatePayment ledger p patch = .ok (q, db')) :
    Effect may db db' ∧ db'.Has q := by
  refine ⟨effect_of_updatePayment hp hid h ?_, has_of_updatePayment hp hid h⟩
  obtain ⟨hrow, -, -⟩ := updatePayment_eq_ok hp h
  rw [hrow]
  exact .edit hmay hopen hlink hstatus

section Upsert

variable (hattaches : ∀ p : Payment, p.valuationStatus ≠ .ignored → may.attaches p)
  (hedits : ∀ p : Payment, p.valuationStatus ≠ .ignored → p.userModified = false → may.edits p)

include hattaches hedits

theorem replayPayment_spec {body : Body} {rate : Option ReferenceRate} (hs : db.Sound)
    (hp : db.Has p) (h : db.replayPayment ledger p body rate = .ok (q, db')) :
    Effects may db db' ∧ db'.Has q := by
  unfold replayPayment at h
  obtain ⟨⟨existing, mid⟩, hbilled, h⟩ := bind_eq_ok.mp h
  dsimp only at h
  have hmid : Effects may db mid ∧ mid.Has existing := by
    unfold addBilledInr at hbilled
    split at hbilled
    · rename_i hopen
      have hstep := edit_spec hp (hedits p hopen.2.1 hopen.1) hopen.2.2.1 rfl rfl hopen.2.2.1 hbilled
      exact ⟨.single hstep.1, hstep.2⟩
    · cases hbilled
      exact ⟨.refl, hp⟩
  obtain ⟨hpath, hexisting⟩ := hmid
  have hs' := hpath.sound hs
  split at h
  · obtain ⟨hlink, hq⟩ := reconcilePayment_spec hs' hexisting (hattaches existing) h
    exact ⟨hpath.trans hlink, hq⟩
  · rename_i hopen
    simp only [not_or, Bool.not_eq_true] at hopen
    obtain ⟨merged, -, h⟩ := bind_eq_ok.mp h
    obtain ⟨⟨edited, after⟩, hedit, h⟩ := bind_eq_ok.mp h
    obtain ⟨hstep, hhas⟩ := edit_spec hexisting (hedits existing hopen.2.1 hopen.1) hopen.2.2.1 rfl rfl
      (valuationFor_ne_confirmed merged rate) hedit
    have hpath' : Effects may db after := hpath.tail hstep
    obtain ⟨hlink, hq⟩ := reconcilePayment_spec (hpath'.sound hs) hhas (hattaches edited) h
    exact ⟨hpath'.trans hlink, hq⟩

omit hedits in
theorem createPayment_spec {newId key : JsString} {body : Body} {rate : Option ReferenceRate}
    (hs : db.Sound) (h : db.createPayment ledger newId key body rate = .ok (q, db')) :
    Effects may db db' ∧ db'.Has q := by
  unfold createPayment at h
  obtain ⟨record, -, h⟩ := bind_eq_ok.mp h
  obtain ⟨⟨row, mid⟩, hinsert, h⟩ := bind_eq_ok.mp h
  dsimp only at h
  obtain ⟨-, hstep, hrow⟩ := insertPayment_spec rfl (valuationFor_ne_confirmed record rate) hinsert
  have halias := @payments_addSourceAlias mid row.id key
  have hpath : Effects may db _ := .tail (.single hstep) (.aliases halias)
  obtain ⟨hlink, hq⟩ := reconcilePayment_spec (hpath.sound hs)
    (by rw [Has, halias]; exact hrow) (hattaches row) h
  exact ⟨hpath.trans hlink, hq⟩

theorem upsertForeignPayment_spec {newId : JsString} {body : Body} {rate : Option ReferenceRate}
    (hs : db.Sound) (h : db.upsertForeignPayment ledger newId body rate = .ok (q, db')) :
    Effects may db db' ∧ db'.Has q := by
  unfold upsertForeignPayment at h
  obtain ⟨u, -, h⟩ := bind_eq_ok.mp h
  dsimp only at h
  split at h
  · rename_i hexisting
    exact replayPayment_spec hattaches hedits hs (hs.has_of_sourcePayment hexisting) h
  · exact createPayment_spec hattaches hs h

end Upsert

theorem patchForeignPayment_spec {id : JsString} {body : Body} {rate : Option ReferenceRate}
    (hs : db.Sound) (hedits : ∀ p : Payment, p.id = id.map lowerUnit → may.edits p)
    (h : db.patchForeignPayment ledger id body rate = .ok (q, db')) : Effects may db db' := by
  unfold patchForeignPayment at h
  obtain ⟨_, -, h⟩ := bind_eq_ok.mp h
  obtain ⟨before, hbefore, h⟩ := bind_eq_ok.mp h
  obtain ⟨-, h⟩ := failIf_bind_eq_ok.mp h
  obtain ⟨hopen, h⟩ := failIf_bind_eq_ok.mp h
  obtain ⟨_, -, h⟩ := bind_eq_ok.mp h
  obtain ⟨merged, -, h⟩ := bind_eq_ok.mp h
  obtain ⟨hhas, hid⟩ := hs.has_of_loadPayment hbefore
  exact .single (edit_spec hhas (hedits before hid) hopen rfl rfl
    (patchedValuation_ne_confirmed hopen merged body rate) h).1

theorem confirmForeignPayment_spec {around : Surroundings} {id : JsString} {body : Confirmation}
    (hs : db.Sound) (hattaches : ∀ p : Payment, p.valuationStatus ≠ .ignored → may.attaches p)
    (hedits : ∀ p : Payment, p.valuationStatus ≠ .ignored → may.edits p)
    (h : db.confirmForeignPayment ledger around id body = .ok (q, db')) : Effects may db db' := by
  unfold confirmForeignPayment at h
  obtain ⟨billed, -, h⟩ := bind_eq_ok.mp h
  obtain ⟨-, h⟩ := failIf_bind_eq_ok.mp h
  obtain ⟨-, h⟩ := failIf_bind_eq_ok.mp h
  obtain ⟨source, -, h⟩ := bind_eq_ok.mp h
  obtain ⟨current, hcurrent, h⟩ := bind_eq_ok.mp h
  obtain ⟨hhas, -⟩ := hs.has_of_loadPayment hcurrent
  split at h
  · obtain ⟨-, h⟩ := failIf_bind_eq_ok.mp h
    cases h
    exact .refl
  · rename_i hconfirmed
    obtain ⟨hignored, h⟩ := failIf_bind_eq_ok.mp h
    obtain ⟨-, h⟩ := failIf_bind_eq_ok.mp h
    obtain ⟨details, -, h⟩ := bind_eq_ok.mp h
    obtain ⟨⟨t, ledger'⟩, -, h⟩ := bind_eq_ok.mp h
    obtain ⟨⟨record, mid⟩, hcard, h⟩ := bind_eq_ok.mp h
    dsimp only at h
    unfold saveCard at hcard
    split at hcard
    · -- the card that the user chose is stored first
      obtain ⟨hstep, hrecord⟩ := edit_spec hhas (hedits current hignored) hconfirmed rfl rfl hconfirmed
        hcard
      obtain ⟨hrow, -, -⟩ := updatePayment_eq_ok hhas hcard
      have hstatus : record.valuationStatus = current.valuationStatus := by rw [hrow]; rfl
      have hlink := (attachTransaction_spec (hstep.sound hs) hrecord
        (fun _ => hattaches record (hstatus ▸ hignored)) h).1
      exact .head hstep hlink
    · cases hcard
      exact (attachTransaction_spec hs hhas (fun _ => hattaches current hignored) h).1

/-- The evidence of a statement settles a dismissed payment: its source is claimed, with its original
amount, its card and a day near its own, for a transaction that no payment has. -/
def revives (db : Db) (request : Request) : Bool :=
  match request.call with
  | .statement _ e => e.transactionId.any fun id =>
      (inrAmount e.billedInr).isSome && (db.linkedTo id).isNone &&
        (request.ledger.transaction? id).isSome &&
        (db.directPayment e).any fun p => p.valuationStatus = .ignored
  | _ => false

theorem Sound.has_of_directPayment (hs : db.Sound) {e : Evidence}
    (h : db.directPayment e = some p) : db.Has p := by
  obtain ⟨h, -⟩ := Option.filter_eq_some_iff.mp h
  obtain ⟨key, -, hsource⟩ := Option.bind_eq_some_iff.mp h
  exact hs.has_of_sourcePayment hsource

theorem mem_of_referencedPayments {e : Evidence} {t : Transaction}
    (h : p ∈ db.referencedPayments e t) :
    p ∈ db.payments.values ∧ p.valuationStatus ≠ .ignored := by
  unfold referencedPayments at h
  split at h
  · obtain ⟨hmem, hfits⟩ := List.mem_filter.mp h
    simp only [Bool.and_eq_true, decide_eq_true_eq] at hfits
    exact ⟨hmem, hfits.1.1.1.1.1.2⟩
  · cases h

theorem reconcileStatementForeignPayment_spec {newId : JsString} {e : Evidence}
    {r : Option Payment} (hs : db.Sound)
    (hattaches : ∀ p : Payment, p.valuationStatus ≠ .ignored → may.attaches p)
    (hedits : ∀ p : Payment, p.valuationStatus ≠ .ignored → p.userModified = false → may.edits p)
    (hrevived : db.revives ⟨ledger, .statement newId e⟩ = true → ∀ p, may.attaches p)
    (h : db.reconcileStatementForeignPayment ledger newId e = .ok (r, db')) :
    Effects may db db' := by
  unfold reconcileStatementForeignPayment at h
  split at h
  · rename_i transactionId billed hid hbilled
    dsimp only at h
    split at h
    · cases h
      exact .refl
    · rename_i hfree
      split at h
      · -- one payment is pending: the direct one, or one with the reference
        rename_i p hpending
        obtain ⟨⟨q, after⟩, hattach, h⟩ := bind_eq_ok.mp h
        cases h
        obtain ⟨hp, hmay⟩ : db.Has p ∧
            ((ledger.transaction? transactionId).isSome = true → may.attaches p) := by
          split at hpending
          · rename_i direct hdirect
            cases hpending
            refine ⟨hs.has_of_directPayment hdirect, fun hknown => ?_⟩
            by_cases hignored : p.valuationStatus = .ignored
            · refine hrevived ?_ p
              simp [revives, hid, hbilled, hfree, hknown, hdirect, hignored]
            · exact hattaches p hignored
          · have hp := mem_of_referencedPayments (hpending ▸ List.mem_singleton_self p)
            exact ⟨hs.has_of_mem hp.1, fun _ => hattaches p hp.2⟩
        split at hattach
        · rename_i key hkey
          have halias := @payments_addSourceAlias db p.id key
          have hlink := (attachTransaction_spec (hs.of_payments halias)
            (by rw [Has, halias]; exact hp) hmay hattach).1
          exact .head (.aliases halias) hlink
        · exact (attachTransaction_spec hs hp hmay hattach).1
      · cases h
        exact .refl
      · split at h
        · obtain ⟨⟨q, mid⟩, hupsert, h⟩ := bind_eq_ok.mp h
          obtain ⟨hpath, hq⟩ := upsertForeignPayment_spec hattaches hedits hs hupsert
          dsimp only at h
          split at h
          · cases h
            exact hpath
          · rename_i hopen
            obtain ⟨⟨q', after⟩, hattach, h⟩ := bind_eq_ok.mp h
            cases h
            exact hpath.trans
              (attachTransaction_spec (hpath.sound hs) hq (fun _ => hattaches q hopen) hattach).1
        · cases h
          exact .refl
  · cases h
    exact .refl

/-! ### A dismissed payment that is settled -/

theorem checkRow_of_confirmed {row : Payment} {t : JsString} (hinstrument : row.instrument ≠ none)
    (hstatus : row.valuationStatus = .confirmed) (hbilled : row.billedInr ≠ none)
    (hlink : row.transactionId = some t) (hsource : row.confirmationSource ≠ none)
    (hfree : db.linkedTo t = none) (hknown : (ledger.transaction? t).isSome = true) :
    db.checkRow ledger row = .ok () := by
  have hunique : ¬ (db.payments.values.any fun p => p.id ≠ row.id ∧ row.transactionId.isSome ∧
      p.transactionId = row.transactionId) = true := by
    intro h
    obtain ⟨q, hq, hlinked⟩ := List.any_eq_true.mp h
    obtain ⟨k, hk⟩ := InsertionMap.mem_values_iff.mp hq
    refine not_linked_of_linkedTo hfree hk ?_
    rw [← hlink]
    simpa using (of_decide_eq_true hlinked).2.2
  unfold checkRow
  rw [failIf_of_not hinstrument, ok_bind, failIf_of_not (by simp [hstatus]), ok_bind,
    failIf_of_not (by simp [hbilled, hlink, hsource]), ok_bind, failIf_of_not hunique, ok_bind]
  exact failIf_of_not (by simpa [hlink, Option.isSome_iff_ne_none] using hknown) _

theorem updatePayment_of_checkRow {patch : Payment → Payment} (hp : db.Has p)
    (h : db.checkRow ledger (stored { patch p with revision := p.revision + 1 }) = .ok ()) :
    db.updatePayment ledger p patch =
      .ok (stored { patch p with revision := p.revision + 1 },
        ⟨db.payments.set p.id (stored { patch p with revision := p.revision + 1 }), db.sources⟩) := by
  unfold updatePayment
  rw [hp]
  dsimp only
  rw [h]
  rfl

/-- Linking a waiting payment to a transaction that no payment has succeeds. -/
theorem attachTransaction_of_free {t : Transaction} {source : ConfirmationSource} {m : Bool}
    (hs : db.Sound) (hp : db.Has p) (hopen : p.transactionId = none)
    (hfree : db.linkedTo t.id = none) (hamount : t.amountInr ≠ none)
    (hknown : (ledger.transaction? t.id).isSome = true) :
    ∃ q db', db.attachTransaction ledger p t source m = .ok (q, db') ∧
      db'.payments.get? p.id = some q ∧ q.valuationStatus = .confirmed := by
  unfold attachTransaction
  rw [hopen, hfree]
  exact ⟨_, _, updatePayment_of_checkRow hp (checkRow_of_confirmed (hs.row _ _ hp).instrument rfl hamount
    rfl (Option.some_ne_none source) hfree hknown), InsertionMap.get?_set_self .., rfl⟩

/-- Evidence that revives a payment settles one that was dismissed. -/
theorem settled_of_revives {request : Request} (hs : db.Sound) (h : db.revives request = true) :
    ∃ p q, db.Has p ∧ p.valuationStatus = .ignored ∧
      (step db request).2.payments.get? p.id = some q ∧ q.valuationStatus = .confirmed := by
  obtain ⟨ledger, call⟩ := request
  cases call with
  | statement newId e =>
    obtain ⟨id, hid, h⟩ := (Option.any_eq_true _ _).mp h
    simp only [Bool.and_eq_true, Option.isNone_iff_eq_none] at h
    obtain ⟨⟨⟨hbilled, hfree⟩, hknown⟩, hdirect⟩ := h
    obtain ⟨p, hp, hignored⟩ := (Option.any_eq_true _ _).mp hdirect
    rw [decide_eq_true_eq] at hignored
    obtain ⟨billed, hbilled⟩ := Option.isSome_iff_exists.mp hbilled
    have hhas := hs.has_of_directPayment hp
    have hopen : p.transactionId = none := by
      by_contra hlinked
      have hconfirmed := ((hs.row _ _ hhas).linked_iff).mp hlinked
      rw [hignored] at hconfirmed
      cases hconfirmed
    -- the alias that the call adds first changes no payment
    have hattach : ∀ mid : Db, mid.payments = db.payments → ∃ q db',
        mid.attachTransaction ledger p (e.transaction id) .statement false = .ok (q, db') ∧
          db'.payments.get? p.id = some q ∧ q.valuationStatus = .confirmed := by
      intro mid hmid
      refine attachTransaction_of_free (hs.of_payments hmid) (by rw [Has, hmid]; exact hhas) hopen ?_ ?_
        hknown
      · rw [linkedTo, find?, hmid]
        exact hfree
      · show inrAmount e.billedInr ≠ none
        rw [hbilled]
        exact Option.some_ne_none billed
    cases hkey : e.sourceKey with
    | none =>
      obtain ⟨q, db', hok, hq⟩ := hattach db rfl
      refine ⟨p, q, hhas, hignored, ?_⟩
      simp only [step, run, reconcileStatementForeignPayment, hid, hbilled, hfree, hp, hkey, hok, ok_bind]
      exact hq
    | some key =>
      obtain ⟨q, db', hok, hq⟩ := hattach (db.addSourceAlias p.id key) (payments_addSourceAlias p.id key)
      refine ⟨p, q, hhas, hignored, ?_⟩
      simp only [step, run, reconcileStatementForeignPayment, hid, hbilled, hfree, hp, hkey, hok, ok_bind]
      exact hq
  | upsert | patch | confirm | reconcile => cases h

/-! ### Runs -/

/-- What a call may edit and settle. -/
def permissions (db : Db) (request : Request) : Permissions where
  edits p := match request.call with
    | .patch id _ _ => p.id = id.map lowerUnit
    | .confirm _ _ _ => p.valuationStatus ≠ .ignored
    | .upsert _ _ _ | .reconcile _ | .statement _ _ =>
      p.valuationStatus ≠ .ignored ∧ p.userModified = false
  attaches p := p.valuationStatus ≠ .ignored ∨ db.revives request = true

theorem run_effects {request : Request} {r : Option Payment} (hs : db.Sound)
    (h : db.run request = .ok (r, db')) : Effects (db.permissions request) db db' := by
  obtain ⟨ledger, call⟩ := request
  have hattaches : ∀ p : Payment, p.valuationStatus ≠ .ignored →
      (db.permissions ⟨ledger, call⟩).attaches p := fun p hp => .inl hp
  unfold run at h
  cases call with
  | upsert newId body rate =>
    obtain ⟨⟨q, after⟩, hcall, h⟩ := bind_eq_ok.mp h
    cases h
    exact (upsertForeignPayment_spec hattaches (fun p hp hm => ⟨hp, hm⟩) hs hcall).1
  | patch id body rate =>
    obtain ⟨⟨q, after⟩, hcall, h⟩ := bind_eq_ok.mp h
    cases h
    exact patchForeignPayment_spec hs (fun p hp => hp) hcall
  | confirm around id body =>
    obtain ⟨⟨q, after⟩, hcall, h⟩ := bind_eq_ok.mp h
    cases h
    exact confirmForeignPayment_spec hs hattaches (fun p hp => hp) hcall
  | reconcile id =>
    obtain ⟨p, hp, h⟩ := bind_eq_ok.mp h
    obtain ⟨⟨q, after⟩, hcall, h⟩ := bind_eq_ok.mp h
    cases h
    exact (reconcilePayment_spec hs (hs.has_of_loadPayment hp).1 (hattaches p) hcall).1
  | statement newId e =>
    exact reconcileStatementForeignPayment_spec hs hattaches (fun p hp hm => ⟨hp, hm⟩)
      (fun hrevives p => .inr hrevives) h

theorem step_effects (hs : db.Sound) (request : Request) :
    Effects (db.permissions request) db (step db request).2 := by
  unfold step
  split
  · rename_i h
    exact run_effects hs h
  · exact .refl

theorem sound_final (requests : List Request) : (final step .empty requests).Sound :=
  invariant_of_final sound_empty fun request _ _ hs => (step_effects hs request).sound hs

/-- A transaction is linked by at most one payment. -/
def LinksOnce (db : Db) : Prop :=
  ∀ j k p q t, db.payments.get? j = some p → db.payments.get? k = some q →
    p.transactionId = some t → q.transactionId = some t → j = k

end Db

/-- A confirmed payment stays confirmed, with its transaction and its billed amount. -/
def KeepsConfirmed : Db → Db → Prop :=
  Keeps (fun _ p => p.valuationStatus = .confirmed) fun p => (p.transactionId, p.billedInr)

/-- A payment that the user edited keeps its details. -/
def KeepsCorrected : Db → Db → Prop :=
  Keeps (fun _ p => p.userModified = true) fun p => p.toDetails

/-- The call is a patch of the payment `k`. -/
def Call.patches (k : JsString) : Call → Prop
  | .patch id _ _ => k = id.map lowerUnit
  | _ => False

/-- A dismissed payment that the call does not patch stays dismissed. -/
def KeepsDismissed (call : Call) : Db → Db → Prop :=
  Keeps (fun k p => p.valuationStatus = .ignored ∧ ¬ call.patches k) fun _ => ()

section Kept

variable {db db' : Db} {may : Permissions}

theorem Effects.keepsConfirmed (h : Effects may db db') (hs : db.Sound) : KeepsConfirmed db db' := by
  refine h.keeps hs fun db p new hs hp hchange hconfirmed => ?_
  have hlinked : p.transactionId ≠ none := ((hs.row _ _ hp).linked_iff).mpr hconfirmed
  cases hchange with
  | edit _ hopen => exact absurd hconfirmed hopen
  | suppress hopen => exact absurd hopen hlinked
  | attach _ hopen => exact absurd hopen hlinked

theorem Effects.keepsCorrected (hedits : ∀ p, may.edits p → p.userModified = false)
    (h : Effects may db db') (hs : db.Sound) : KeepsCorrected db db' := by
  refine h.keeps hs fun db p new hs hp hchange hmodified => ?_
  cases hchange with
  | edit hmay =>
    rw [hedits p hmay] at hmodified
    cases hmodified
  | suppress _ _ _ hsame hflag => exact ⟨hflag.trans hmodified, hsame⟩
  | attach _ _ _ _ _ hsame hflag => exact ⟨hflag hmodified, hsame⟩

theorem Effects.keepsDismissed {call : Call}
    (hedits : ∀ p, may.edits p → p.valuationStatus ≠ .ignored ∨ call.patches p.id)
    (hattaches : ∀ p, may.attaches p → p.valuationStatus ≠ .ignored)
    (h : Effects may db db') (hs : db.Sound) : KeepsDismissed call db db' := by
  refine h.keeps hs fun db p new hs hp hchange hdismissed => ?_
  cases hchange with
  | edit hmay =>
    rcases hedits p hmay with hopen | hpatched
    · exact absurd hdismissed.1 hopen
    · exact absurd hpatched hdismissed.2
  | suppress _ _ hnew => exact ⟨⟨hnew, hdismissed.2⟩, rfl⟩
  | attach hmay => exact absurd hdismissed.1 (hattaches p hmay)

end Kept

/-- The dismissed payments stay so exactly when no statement revives one of them. -/
theorem keepsDismissed_step_iff {db : Db} (hs : db.Sound) (request : Request) :
    KeepsDismissed request.call db (step db request).2 ↔ db.revives request = false := by
  constructor
  · intro hkeeps
    by_contra hrevives
    rw [Bool.not_eq_false] at hrevives
    obtain ⟨p, q, hp, hignored, hq, hconfirmed⟩ := Db.settled_of_revives hs hrevives
    have hnot : ¬ request.call.patches p.id := by
      intro hpatches
      cases hcall : request.call with
      | patch id body rate => simp [Db.revives, hcall] at hrevives
      | upsert | confirm | reconcile | statement =>
        rw [hcall] at hpatches
        exact hpatches
    obtain ⟨p', hp', ⟨hkept, -⟩, -⟩ := hkeeps p.id p hp ⟨hignored, hnot⟩
    rw [Option.some.inj (hp'.symm.trans hq), hconfirmed] at hkept
    cases hkept
  · intro hrevives
    refine Effects.keepsDismissed ?_ ?_ (Db.step_effects hs request) hs
    · intro p hp
      unfold Db.permissions at hp
      dsimp only at hp
      cases hcall : request.call with
      | patch id body rate =>
        rw [hcall] at hp
        exact .inr hp
      | confirm around id body =>
        rw [hcall] at hp
        exact .inl hp
      | upsert | reconcile | statement =>
        rw [hcall] at hp
        exact .inl hp.1
    · rintro p (hp | hp)
      · exact hp
      · rw [hrevives] at hp
        cases hp

/-- The call is an upsert. -/
def Call.isUpsert : Call → Prop
  | .upsert _ _ _ => True
  | _ => False

/-- In every state that calls reach, a transaction is linked by at most one payment; a confirmed
payment keeps its transaction and amount in every continuation; an upsert keeps the details of every
payment that the user edited; and the payments that were dismissed and are not patched stay so if and
only if the call is no statement that revives one. -/
theorem lifecycle (earlier : List Request) :
    (final step .empty earlier).LinksOnce ∧
      (∀ later, KeepsConfirmed (final step .empty earlier) (final step .empty (earlier ++ later))) ∧
      ∀ request : Request,
        (request.call.isUpsert →
          KeepsCorrected (final step .empty earlier) (final step .empty (earlier ++ [request]))) ∧
        (KeepsDismissed request.call (final step .empty earlier)
            (final step .empty (earlier ++ [request])) ↔
          (final step .empty earlier).revives request = false) := by
  have hs := Db.sound_final earlier
  refine ⟨fun j k p q t => hs.linked_once, ?_, fun request => ⟨?_, ?_⟩⟩
  · intro later
    rw [final_append]
    exact related_of_final (fun _ => .refl _) (fun h h' => h.trans h') hs fun request _ db hs =>
      ⟨(Db.step_effects hs request).sound hs, (Db.step_effects hs request).keepsConfirmed hs⟩
  · intro hupsert
    rw [final_append]
    refine Effects.keepsCorrected ?_ (Db.step_effects hs request) hs
    intro p hp
    cases hcall : request.call with
    | upsert =>
      simp only [Db.permissions, hcall] at hp
      exact hp.2
    | patch | confirm | reconcile | statement =>
      rw [hcall] at hupsert
      exact hupsert.elim
  · rw [final_append]
    exact keepsDismissed_step_iff hs request

/-! ### A dismissed payment of ten dollars -/

/-- The card of the payment. -/
def travelCard : JsString := js "11111111-1111-4111-8111-111111111111"

def dinnerId : JsString := js "22222222-2222-4222-8222-222222222222"

def dinnerTransaction : JsString := js "33333333-3333-4333-8333-333333333333"

/-- The commitment of the SMS about the payment. -/
def dinnerSource : JsString := List.replicate 64 97

/-- The profile has one card and one purchase, which a statement lists. -/
def dinnerLedger : Ledger where
  cards := [⟨travelCard, some (js "4242"), some (js "credit")⟩]
  spendCategories := []
  userCategories := []
  transactions := [{
    id := dinnerTransaction
    active := true
    amountInr := some 85000
    entryKind := .spend
    userCardId := some travelCard
    cardLast4 := some (js "4242")
    sourceAccountLast4 := none
    occurredAt := 1767225600000
    source := js "statement"
    sourceKey := none
    sourceKeys := []
    bankReferences := [] }]

/-- The SMS about ten dollars is uploaded, and the user dismisses the payment. -/
def dismissedDinner : List Request := [
  ⟨dinnerLedger, .upsert dinnerId {
    sourceKey := .value dinnerSource
    occurredAt := .value (some 1767225600000000)
    originalCurrency := .value (js "USD")
    originalAmount := .value (js "10.00")
    userCardId := .value travelCard
    cardLast4 := .value (js "4242") } none⟩,
  ⟨dinnerLedger, .patch dinnerId { valuationStatus := .value (some .ignored) } none⟩]

/-- A statement has the line of the purchase, which claims the SMS. -/
def dinnerStatement : Request := ⟨dinnerLedger, .statement dinnerId {
  transactionId := some dinnerTransaction
  billedInr := js "850"
  sourceKey := some (List.replicate 64 98)
  foreignSourceKey := some dinnerSource
  originalCurrency := .value (js "USD")
  originalAmount := some (js "10")
  occurredAt := 1767225600000
  merchantName := none
  userCardId := some travelCard
  cardLast4 := none
  accountLast4 := none
  bankReference := none
  entryKind := .spend }⟩

/-- Dismissed payments do not stay dismissed in every run. -/
theorem not_keepsDismissed : ¬ ∀ earlier request, KeepsDismissed request.call
    (final step .empty earlier) (final step .empty (earlier ++ [request])) := by
  intro h
  have hkeeps := h dismissedDinner dinnerStatement
  rw [final_append] at hkeeps
  have hrevives := (keepsDismissed_step_iff (Db.sound_final dismissedDinner) dinnerStatement).mp hkeeps
  have : (final step .empty dismissedDinner).revives dinnerStatement = true := by decide +kernel
  rw [this] at hrevives
  cases hrevives

end PandaPay.ForeignPayments
