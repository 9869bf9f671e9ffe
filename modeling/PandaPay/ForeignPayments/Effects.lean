import Mathlib.Logic.Relation
import PandaPay.ForeignPayments.Payments

/-!
# What the calls write

Every call is a sequence of few writes: an alias, a new payment, an edit, the suppression of a
second payment of a transaction, and the settlement of a payment by a transaction that no other one
has. What a call may do differs only in the payments that it may edit and settle.

## Main definitions

* `Db.Sound`: the invariant of the tables
* `Change`, `Effect`: the writes
* `Keeps`: the payments with a property keep it and a value of theirs

## Main results

* `Effect.sound`, `Effect.keeps`: what the writes keep
* `attachTransaction_spec`, `reconcilePayment_spec`: what linking writes
-/

namespace PandaPay.ForeignPayments

open PortableBackup (lowerUnit)
open Relation (ReflTransGen)

theorem lowerUnit_lowerUnit (c : CodeUnit) : lowerUnit (lowerUnit c) = lowerUnit c := by
  by_cases hc : 65 ≤ c.val ∧ c.val ≤ 90
  · have hlower : lowerUnit c = Fin.ofNat _ (c.val + 32) := if_pos hc
    have hval : (lowerUnit c).val = c.val + 32 := by
      rw [hlower, Fin.val_ofNat]
      omega
    refine if_neg fun h => ?_
    omega
  · have hsame : lowerUnit c = c := if_neg hc
    rw [hsame, hsame]

namespace Db

theorem toUuid_toUuid (id : Option JsString) : toUuid (toUuid id) = toUuid id := by
  cases id with
  | none => rfl
  | some s => simp [toUuid, Function.comp_def, lowerUnit_lowerUnit]

theorem stored_stored (p : Payment) : stored (stored p) = stored p := by
  simp only [stored, toUuid_toUuid]

/-- The row of a payment. -/
def Has (db : Db) (p : Payment) : Prop := db.payments.get? p.id = some p

/-- What holds of a row under its key. -/
structure RowSound (k : JsString) (p : Payment) : Prop where
  id_eq : p.id = k
  stored_eq : stored p = p
  instrument : p.instrument ≠ none
  linked_iff : p.transactionId ≠ none ↔ p.valuationStatus = .confirmed

/-- The invariant of the tables. -/
structure Sound (db : Db) : Prop where
  row : ∀ k p, db.payments.get? k = some p → RowSound k p
  linked_once : ∀ {j k p q t}, db.payments.get? j = some p → db.payments.get? k = some q →
    p.transactionId = some t → q.transactionId = some t → j = k

theorem sound_empty : empty.Sound where
  row k p h := by cases h
  linked_once h := by cases h

variable {db db' : Db} {ledger : Ledger} {p q : Payment}

theorem Sound.has (hs : db.Sound) {k : JsString} (h : db.payments.get? k = some p) : db.Has p := by
  rw [Has, (hs.row _ _ h).id_eq]
  exact h

theorem Sound.has_of_mem (hs : db.Sound) (h : p ∈ db.payments.values) : db.Has p := by
  obtain ⟨k, hk⟩ := InsertionMap.mem_values_iff.mp h
  exact hs.has hk

theorem Sound.has_of_find? (hs : db.Sound) {f : Payment → Bool} (h : db.find? f = some p) :
    db.Has p :=
  hs.has_of_mem (List.mem_of_find?_eq_some h)

theorem Sound.has_of_linkedTo (hs : db.Sound) {t : JsString} (h : db.linkedTo t = some p) :
    db.Has p ∧ p.transactionId = some t :=
  ⟨hs.has_of_find? h, by simpa using List.find?_some h⟩

theorem not_linked_of_linkedTo {t k : JsString} (h : db.linkedTo t = none)
    (hq : db.payments.get? k = some q) : q.transactionId ≠ some t := by
  have hnone := List.find?_eq_none.mp h q (InsertionMap.mem_values_iff.mpr ⟨k, hq⟩)
  simpa using hnone

theorem Sound.has_of_sourcePayment (hs : db.Sound) {key : JsString}
    (h : db.sourcePayment key = some p) : db.Has p := by
  unfold sourcePayment at h
  split at h
  · exact hs.has h
  · exact hs.has_of_find? h

theorem Sound.has_of_loadPayment (hs : db.Sound) {id : JsString}
    (h : db.loadPayment id = .ok p) : db.Has p ∧ p.id = id.map lowerUnit := by
  unfold loadPayment at h
  split at h
  · rename_i hp
    cases h
    exact ⟨hs.has hp, (hs.row _ _ hp).id_eq⟩
  · cases h

@[simp] theorem payments_addSourceAlias (id key : JsString) :
    (db.addSourceAlias id key).payments = db.payments := by
  unfold addSourceAlias
  split <;> rfl

/-- Aliases are no part of the invariant. -/
theorem Sound.of_payments (hs : db.Sound) (h : db'.payments = db.payments) : db'.Sound where
  row := by rw [h]; exact hs.row
  linked_once := by rw [h]; exact hs.linked_once

end Db

/-! ### Writes -/

/-- Payments that a call may edit and may settle. -/
structure Permissions where
  edits : Payment → Prop
  attaches : Payment → Prop

/-- How a row is written over. -/
inductive Change (may : Permissions) (db : Db) : Payment → Payment → Prop where
  | edit {p new : Payment} (hedits : may.edits p) (hopen : p.valuationStatus ≠ .confirmed)
      (hlink : new.transactionId = p.transactionId) (hnew : new.valuationStatus ≠ .confirmed) :
      Change may db p new
  | suppress {p new : Payment} (hopen : p.transactionId = none)
      (hlink : new.transactionId = none) (hnew : new.valuationStatus = .ignored)
      (hsame : new.toDetails = p.toDetails) (hmodified : new.userModified = p.userModified) :
      Change may db p new
  | attach {p new : Payment} {t : JsString} (hattaches : may.attaches p)
      (hopen : p.transactionId = none)
      (hfree : ∀ k q, db.payments.get? k = some q → q.transactionId ≠ some t)
      (hlink : new.transactionId = some t) (hnew : new.valuationStatus = .confirmed)
      (hsame : new.toDetails = p.toDetails)
      (hmodified : p.userModified = true → new.userModified = true) : Change may db p new

/-- One write of a call. -/
inductive Effect (may : Permissions) : Db → Db → Prop where
  | aliases {db db' : Db} (h : db'.payments = db.payments) : Effect may db db'
  | insert {db db' : Db} {row : Payment} (hnew : db.payments.get? row.id = none)
      (hstored : Db.stored row = row) (hinstrument : row.instrument ≠ none)
      (hopen : row.transactionId = none) (hstatus : row.valuationStatus ≠ .confirmed)
      (h : db'.payments = db.payments.set row.id row) : Effect may db db'
  | update {db db' : Db} {p new : Payment} (hp : db.Has p) (hid : new.id = p.id)
      (hstored : Db.stored new = new) (hinstrument : new.instrument ≠ none)
      (hchange : Change may db p new) (h : db'.payments = db.payments.set p.id new) :
      Effect may db db'

/-- The writes of a call. -/
abbrev Effects (may : Permissions) : Db → Db → Prop := ReflTransGen (Effect may)

section Invariants

variable {may : Permissions} {db db' : Db}

/-- A settled row is the only one with its transaction. -/
theorem Change.linked_iff {p new : Payment} (hs : db.Sound) (hp : db.Has p)
    (h : Change may db p new) : new.transactionId ≠ none ↔ new.valuationStatus = .confirmed := by
  cases h with
  | edit _ hopen hlink hnew =>
    rw [hlink, (hs.row _ _ hp).linked_iff]
    exact iff_of_false hopen hnew
  | suppress _ hlink hnew => simp [hlink, hnew]
  | attach _ _ _ hlink hnew => simp [hlink, hnew]

/-- A row has the transaction it had, or one that was free. -/
theorem Change.link {p new : Payment} {t : JsString} (h : Change may db p new)
    (ht : new.transactionId = some t) :
    p.transactionId = some t ∨ ∀ k q, db.payments.get? k = some q → q.transactionId ≠ some t := by
  cases h with
  | edit _ _ hlink _ => exact .inl (hlink ▸ ht)
  | suppress _ hlink =>
    rw [hlink] at ht
    cases ht
  | attach _ _ hfree hlink =>
    obtain rfl := Option.some.inj (hlink.symm.trans ht)
    exact .inr hfree

/-- A row that is set is found under its id, any other row where it was. -/
theorem get?_of_set {m : InsertionMap JsString Payment} {j k : JsString} {v p : Payment}
    (h : (m.set j v).get? k = some p) : (k = j ∧ p = v) ∨ (k ≠ j ∧ m.get? k = some p) := by
  rw [InsertionMap.get?_set] at h
  split_ifs at h with hk
  · exact .inl ⟨hk, (Option.some.inj h).symm⟩
  · exact .inr ⟨hk, h⟩

theorem Effect.sound (h : Effect may db db') (hs : db.Sound) : db'.Sound := by
  cases h with
  | aliases h => exact hs.of_payments h
  | @insert row hnew hstored hinstrument hopen hstatus h =>
    have hfree : ∀ {k p t}, db'.payments.get? k = some p → p.transactionId = some t →
        db.payments.get? k = some p := by
      intro k p t hk ht
      rw [h] at hk
      rcases get?_of_set hk with ⟨-, rfl⟩ | ⟨-, hk⟩
      · rw [hopen] at ht
        cases ht
      · exact hk
    constructor
    · rw [h]
      exact InsertionMap.forall_get?_set hs.row
        ⟨rfl, hstored, hinstrument, iff_of_false (not_not.mpr hopen) hstatus⟩
    · intro j k p q t hj hk hp hq
      exact hs.linked_once (hfree hj hp) (hfree hk hq) hp hq
  | @update p new hp hid hstored hinstrument hchange h =>
    have hother : ∀ {k q t}, k ≠ p.id → db.payments.get? k = some q →
        q.transactionId = some t → new.transactionId ≠ some t := by
      intro k q t hk hq hqt hnew
      rcases hchange.link hnew with hpt | hfree
      · exact hk (hs.linked_once hq hp hqt hpt)
      · exact hfree k q hq hqt
    constructor
    · rw [h]
      exact InsertionMap.forall_get?_set hs.row
        ⟨hid, hstored, hinstrument, hchange.linked_iff hs hp⟩
    · intro j k q r t hj hk hq hr
      rw [h] at hj hk
      rcases get?_of_set hj with ⟨rfl, rfl⟩ | ⟨hjp, hj'⟩ <;>
        rcases get?_of_set hk with ⟨rfl, rfl⟩ | ⟨hkp, hk'⟩
      · rfl
      · exact absurd hq (hother hkp hk' hr)
      · exact absurd hr (hother hjp hj' hq)
      · exact hs.linked_once hj' hk' hq hr

theorem Effects.sound (h : Effects may db db') (hs : db.Sound) : db'.Sound := by
  induction h with
  | refl => exact hs
  | tail _ hstep ih => exact hstep.sound ih

/-- The payments with a property keep it, and a value of theirs. -/
def Keeps {γ : Type} (P : JsString → Payment → Prop) (g : Payment → γ) (db db' : Db) : Prop :=
  ∀ k p, db.payments.get? k = some p → P k p →
    ∃ p', db'.payments.get? k = some p' ∧ P k p' ∧ g p' = g p

variable {γ : Type} {P : JsString → Payment → Prop} {g : Payment → γ}

theorem Keeps.refl (db : Db) : Keeps P g db db := fun _ p hp hP => ⟨p, hp, hP, rfl⟩

theorem Keeps.trans {db'' : Db} (h : Keeps P g db db') (h' : Keeps P g db' db'') :
    Keeps P g db db'' := by
  intro k p hp hP
  obtain ⟨p', hp', hP', hg⟩ := h k p hp hP
  obtain ⟨p'', hp'', hP'', hg'⟩ := h' k p' hp' hP'
  exact ⟨p'', hp'', hP'', hg'.trans hg⟩

/-- What the changes of rows keep, a write keeps. -/
theorem Effect.keeps (h : Effect may db db')
    (hchange : ∀ p new, db.Has p → Change may db p new → P p.id p → P p.id new ∧ g new = g p) :
    Keeps P g db db' := by
  intro k q hq hP
  cases h with
  | aliases h => exact ⟨q, h ▸ hq, hP, rfl⟩
  | @insert row hnew _ _ _ _ h =>
    refine ⟨q, ?_, hP, rfl⟩
    rw [h, InsertionMap.get?_set_of_ne _ _ ?_]
    · exact hq
    · rintro rfl
      rw [hnew] at hq
      cases hq
  | @update p new hp hid _ _ hstep h =>
    by_cases hk : k = p.id
    · subst hk
      obtain rfl : p = q := Option.some.inj (Eq.trans (Eq.symm hp) hq)
      obtain ⟨hPnew, hg⟩ := hchange p new hp hstep hP
      exact ⟨new, by rw [h, InsertionMap.get?_set_self], hPnew, hg⟩
    · exact ⟨q, by rw [h, InsertionMap.get?_set_of_ne _ _ hk]; exact hq, hP, rfl⟩

theorem Effects.keeps (h : Effects may db db') (hs : db.Sound)
    (hchange : ∀ db p new, Db.Sound db → Db.Has db p → Change may db p new → P p.id p →
      P p.id new ∧ g new = g p) : Keeps P g db db' := by
  induction h with
  | refl => exact .refl db
  | @tail mid _ hpath hstep ih =>
    have hmid : mid.Sound := Effects.sound hpath hs
    exact ih.trans (hstep.keeps fun p new hp hc hP => hchange mid p new hmid hp hc hP)

end Invariants

/-! ### Statements -/

namespace Db

variable {db db' : Db} {ledger : Ledger} {p new : Payment}

theorem checkRow_eq_ok {row : Payment} {u : Unit} (h : db.checkRow ledger row = .ok u) :
    row.instrument ≠ none ∧
      ∀ t, row.transactionId = some t → (ledger.transaction? t).isSome = true := by
  unfold checkRow at h
  obtain ⟨hinstrument, h⟩ := failIf_bind_eq_ok.mp h
  obtain ⟨-, h⟩ := failIf_bind_eq_ok.mp h
  obtain ⟨-, h⟩ := failIf_bind_eq_ok.mp h
  obtain ⟨-, h⟩ := failIf_bind_eq_ok.mp h
  refine ⟨hinstrument, ?_⟩
  intro t ht
  have hknown := failIf_eq_ok.mp h
  rw [ht] at hknown
  simpa [Option.isSome_iff_ne_none] using hknown

theorem updatePayment_eq_ok {patch : Payment → Payment} (hp : db.Has p)
    (h : db.updatePayment ledger p patch = .ok (new, db')) :
    new = stored { patch p with revision := p.revision + 1 } ∧
      db.checkRow ledger new = .ok () ∧
      db' = { db with payments := db.payments.set p.id new } := by
  unfold updatePayment at h
  rw [hp] at h
  obtain ⟨u, hcheck, h⟩ := bind_eq_ok.mp h
  cases h
  exact ⟨rfl, hcheck, rfl⟩

/-- The new row is in the table. -/
theorem has_of_updatePayment {patch : Payment → Payment} (hp : db.Has p)
    (hid : (patch p).id = p.id) (h : db.updatePayment ledger p patch = .ok (new, db')) :
    db'.Has new := by
  obtain ⟨hnew, -, rfl⟩ := updatePayment_eq_ok hp h
  have : new.id = p.id := by rw [hnew]; exact hid
  rw [Has, this]
  exact InsertionMap.get?_set_self ..

/-- An update that is a change is a write. -/
theorem effect_of_updatePayment {may : Permissions} {patch : Payment → Payment} (hp : db.Has p)
    (hid : (patch p).id = p.id) (h : db.updatePayment ledger p patch = .ok (new, db'))
    (hchange : Change may db p new) : Effect may db db' := by
  obtain ⟨hnew, hcheck, rfl⟩ := updatePayment_eq_ok hp h
  exact .update hp (by rw [hnew]; exact hid) (by rw [hnew, stored_stored])
    (checkRow_eq_ok hcheck).1 hchange rfl

/-- A new payment that waits for its transaction is a write. -/
theorem insertPayment_spec {may : Permissions} {row : Payment} (hopen : row.transactionId = none)
    (hstatus : row.valuationStatus ≠ .confirmed)
    (h : db.insertPayment ledger row = .ok (new, db')) :
    new = stored row ∧ Effect may db db' ∧ db'.Has new := by
  unfold insertPayment at h
  obtain ⟨hnew, h⟩ := failIf_bind_eq_ok.mp h
  obtain ⟨-, h⟩ := failIf_bind_eq_ok.mp h
  obtain ⟨u, hcheck, h⟩ := bind_eq_ok.mp h
  cases h
  refine ⟨rfl, ?_, InsertionMap.get?_set_self ..⟩
  exact .insert (by simpa using hnew) (stored_stored row) (checkRow_eq_ok hcheck).1 hopen hstatus rfl

/-- What an update leaves when it touches no id: the details of the row. -/
theorem Sound.toDetails_stored (hs : db.Sound) (hp : db.Has p) {q : Payment}
    (h : q.toDetails = p.toDetails) : (stored q).toDetails = p.toDetails := by
  have hstored : (stored p).toDetails = p.toDetails := by rw [(hs.row _ _ hp).stored_eq]
  calc (stored q).toDetails
      = (stored p).toDetails := by simp only [stored, h]
    _ = p.toDetails := hstored

/-! ### Linking -/

variable {may : Permissions} {t : Transaction} {source : ConfirmationSource} {userModified : Bool}
  {q : Payment}

theorem attachTransaction_spec (hs : db.Sound) (hp : db.Has p)
    (hmay : (ledger.transaction? t.id).isSome = true → may.attaches p)
    (h : db.attachTransaction ledger p t source userModified = .ok (q, db')) :
    Effects may db db' ∧ db'.Has q := by
  unfold attachTransaction at h
  split at h
  · obtain ⟨-, h⟩ := failIf_bind_eq_ok.mp h
    cases h
    exact ⟨.refl, hp⟩
  · rename_i hopen
    split at h
    · -- another payment has the transaction
      rename_i existing hexisting
      obtain ⟨hlinked, hother⟩ := Option.filter_eq_some_iff.mp hexisting
      obtain ⟨⟨row, after⟩, hupdate, h⟩ := bind_eq_ok.mp h
      cases h
      have hpayments := @payments_addSourceAlias db q.id p.sourceKey
      have hp' : (db.addSourceAlias q.id p.sourceKey).Has p := by
        rw [Has, hpayments]
        exact hp
      have hs' := hs.of_payments hpayments
      obtain ⟨hrow, -, hafter⟩ := updatePayment_eq_ok hp' hupdate
      refine ⟨.tail (.single (.aliases hpayments)) (effect_of_updatePayment hp' rfl hupdate ?_), ?_⟩
      · rw [hrow]
        exact .suppress hopen hopen rfl (hs'.toDetails_stored hp' rfl) rfl
      · rw [Has, hafter, InsertionMap.get?_set_of_ne _ _ (by simpa using hother), hpayments]
        exact (hs.has_of_linkedTo hlinked).1
    · rename_i hfree
      have hnone : ∀ k r, db.payments.get? k = some r → r.transactionId ≠ some t.id := by
        intro k r hr ht
        have hr' := hs.has hr
        cases hlinked : db.linkedTo t.id with
        | none => exact not_linked_of_linkedTo hlinked hr ht
        | some existing =>
          obtain ⟨hhas, hlink⟩ := hs.has_of_linkedTo hlinked
          -- the linked payment is this one, which has no transaction
          rw [hlinked] at hfree
          have hsame : existing.id = p.id := by simpa [Option.filter_eq_none_iff] using hfree
          rw [Has, hsame] at hhas
          obtain rfl : p = existing := Option.some.inj (Eq.trans (Eq.symm hp) hhas)
          rw [hopen] at hlink
          cases hlink
      obtain ⟨hrow, hcheck, -⟩ := updatePayment_eq_ok hp h
      have hknown := (checkRow_eq_ok hcheck).2 t.id (by rw [hrow]; rfl)
      refine ⟨.single (effect_of_updatePayment hp rfl h ?_), has_of_updatePayment hp rfl h⟩
      rw [hrow]
      refine .attach (hmay hknown) hopen hnone rfl rfl (hs.toDetails_stored hp rfl) fun hmodified => ?_
      show (p.userModified || userModified) = true
      rw [hmodified, Bool.true_or]

theorem reconcilePayment_spec (hs : db.Sound) (hp : db.Has p)
    (hmay : p.valuationStatus ≠ .ignored → may.attaches p)
    (h : db.reconcilePayment ledger p = .ok (q, db')) : Effects may db db' ∧ db'.Has q := by
  unfold reconcilePayment at h
  split at h
  · cases h
    exact ⟨.refl, hp⟩
  · rename_i hstatus
    split at h
    · exact attachTransaction_spec hs hp
        (fun _ => hmay fun hignored => hstatus (.inl hignored)) h
    · cases h
      exact ⟨.refl, hp⟩

end Db

end PandaPay.ForeignPayments
