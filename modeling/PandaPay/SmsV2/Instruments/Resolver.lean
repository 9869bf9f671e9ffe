import Mathlib.Logic.Relation
import PandaPay.Json.Decimal
import PandaPay.Json.Value
import PandaPay.SmsV2.Instruments.Instrument

/-!
# The instrument resolver

How a mention of an account, card or wallet finds the instrument it means among the known ones, or makes a new
one (`resolveDetailed` of `instruments/instrument_resolver.dart`), and what holds over every sequence of mentions.

## Main definitions

* `DefaultInstrumentResolver.resolveDetailed`
* `Next`, `Reached`: the lists of known instruments that mentions lead to

## Main results

* `reached_distinct`: no two known instruments share issuer, kind and mask
* `resolution_unique_and_stable`: with what mentions resolve to, now and later, in any order of the known list
-/

namespace PandaPay.SmsV2

/-! ### Mentions and outcomes -/

/-- A mention with what the message says besides. -/
structure FullMention extends InstrumentMention where
  maskLength : Option ℤ := none
  productName : Option JsString := none

inductive InstrumentReviewReason where
  | ambiguous | rejected | kindUnknown
  deriving DecidableEq

inductive InstrumentNotCreatedReason where
  | noIssuer | noIdentity | emptyMention | upiAppMask | partialWallet
  deriving DecidableEq

/-- `InstrumentOutcome`. -/
inductive InstrumentOutcome where
  | resolved (instrument : InstrumentRecord) (created : Bool)
  | reviewNeeded (reason : InstrumentReviewReason) (candidates : List InstrumentRecord)
  | notCreated (reason : InstrumentNotCreatedReason)

/-! ### The resolver -/

/-- `maskFreeKinds`. -/
def InstrumentKind.isMaskFree : InstrumentKind → Bool
  | .wallet | .broker | .payLater => true
  | _ => false

/-- `kindLabel(kind)`. -/
def kindLabel : InstrumentKind → JsString
  | .bankAccount => js "account"
  | .creditCard => js "credit card"
  | .debitCard => js "debit card"
  | .prepaidCard => js "prepaid card"
  | .wallet => js "wallet"
  | .broker => js "broker account"
  | .loan => js "loan"
  | .payLater => js "pay later"

/-- `defaultDisplayName(issuerLabel, kind, maskDigits)`. -/
def defaultDisplayName (issuerLabel : JsString) (kind : InstrumentKind) (maskDigits : Option JsString) : JsString :=
  let base := issuerLabel ++ js " " ++ kindLabel kind
  match maskDigits with
  | none => base
  | some digits => base ++ js " ••" ++ digits

/-- `_cleanMask(mask)`: the mask when it is 2 to 6 digits. -/
def cleanMask (mask : Option JsString) : Option JsString :=
  mask.filter fun mask => mask.all isDigit && 2 ≤ mask.length && mask.length ≤ 6

/-- `_pick(candidates)` of candidates that are not none. -/
def pick (candidates : List InstrumentRecord) : InstrumentOutcome :=
  match candidates with
  | [only] => if only.status = .rejected then .reviewNeeded .rejected candidates else .resolved only false
  | _ => .reviewNeeded .ambiguous candidates

/-- `DefaultInstrumentResolver`. -/
structure DefaultInstrumentResolver where
  toUpperCase : JsString → JsString
  issuerLabel : JsString → JsString
  upiBrands : List JsString
  partialWallets : List JsString

namespace DefaultInstrumentResolver

variable (resolver : DefaultInstrumentResolver)

/-- `_isUpiApp(brand)`. -/
def isUpiApp (brand : Option JsString) : Bool :=
  brand.any fun brand =>
    resolver.toUpperCase brand ∈ resolver.upiBrands || js "UPI" <:+: resolver.toUpperCase brand

/-- `_create(mention, kind, issuer, mask, observedAt, senderBrand)`, with the id that is drawn. -/
def create (newId : JsString) (mention : FullMention) (kind : InstrumentKind) (issuer : JsString)
    (mask : Option JsString) (observedAt : ℤ) (senderBrand : Option JsString) : InstrumentRecord where
  instrumentId := newId
  kind := kind
  issuerSlug := issuer
  maskDigits := mask
  maskLength := mention.maskLength.filter fun length => mask.any fun mask => mask.length < length && length ≤ 32
  displayName := defaultDisplayName (resolver.issuerLabel issuer) kind mask
  status := .detected
  aliases :=
    { senders := ((senderBrand.map trim).filter (· ≠ [])).toList
      productNames := ((mention.productName.map trim).filter (· ≠ [])).toList }
  firstSeenAt := observedAt
  lastSeenAt := observedAt
  evidenceCount := 0

/-- The fourth step of `resolveDetailed`: a new instrument of a kind, where the mention can make one. -/
def createNew (newId : JsString) (mention : FullMention) (kind : InstrumentKind) (issuer : JsString)
    (mask : Option JsString) (observedAt : ℤ) (senderBrand : Option JsString) : InstrumentOutcome :=
  if mask = none ∧ ¬ kind.isMaskFree then .notCreated .noIdentity
  else if kind = .bankAccount ∧ resolver.isUpiApp senderBrand then .notCreated .upiAppMask
  else if kind = .wallet ∧ issuer ∈ resolver.partialWallets then .notCreated .partialWallet
  else .resolved (resolver.create newId mention kind issuer mask observedAt senderBrand) true

/-- `resolveDetailed(mention, known, …)`, with the id that is drawn for a new instrument. -/
def resolveDetailed (newId : JsString) (mention : FullMention) (known : List InstrumentRecord) (observedAt : ℤ)
    (senderBrand : Option JsString) : InstrumentOutcome :=
  match mention.issuerSlug.filter (· ≠ []) with
  | none => .notCreated .noIssuer
  | some issuer =>
    let sameIssuer := known.filter fun i => i.issuerSlug = issuer
    match mention.kind, cleanMask mention.maskDigits with
    | none, none => .notCreated .emptyMention
    | some kind, some mask =>
      -- the exact key
      let exact := sameIssuer.filter fun i => i.kind = kind && i.maskDigits = some mask
      if exact ≠ [] then pick exact
      else resolver.createNew newId mention kind issuer (some mask) observedAt senderBrand
    | none, some mask =>
      -- no kind: the one instrument with that issuer and mask
      let byMask := sameIssuer.filter fun i => i.maskDigits = some mask
      if byMask ≠ [] then pick byMask else .reviewNeeded .kindUnknown []
    | some kind, none =>
      -- no mask: the one instrument with that issuer and kind
      let byKind := sameIssuer.filter fun i => i.kind = kind
      if byKind ≠ [] then pick byKind
      else resolver.createNew newId mention kind issuer none observedAt senderBrand

end DefaultInstrumentResolver

/-! ### What a mention can resolve to -/

/-- What identifies an instrument of a profile. -/
def InstrumentRecord.identity (i : InstrumentRecord) : JsString × InstrumentKind × Option JsString :=
  (i.issuerSlug, i.kind, i.maskDigits)

/-- An instrument fits a mention: nothing that the mention says is different. -/
def FullMention.Fits (mention : FullMention) (i : InstrumentRecord) : Prop :=
  mention.issuerSlug = some i.issuerSlug ∧ (∀ kind ∈ mention.kind, i.kind = kind) ∧
    ∀ mask ∈ cleanMask mention.maskDigits, i.maskDigits = some mask

instance (mention : FullMention) (i : InstrumentRecord) : Decidable (mention.Fits i) :=
  inferInstanceAs (Decidable (_ ∧ (∀ kind ∈ mention.kind, _) ∧ ∀ mask ∈ cleanMask _, _))

/-- The known instruments that fit a mention. -/
def FullMention.fitting (mention : FullMention) (known : List InstrumentRecord) : List InstrumentRecord :=
  known.filter fun i => mention.Fits i

variable {resolver : DefaultInstrumentResolver} {newId : JsString} {mention : FullMention}
  {known known' : List InstrumentRecord} {observedAt : ℤ} {senderBrand : Option JsString} {i : InstrumentRecord}

/-- A mention names something: an issuer, and a kind or a mask. -/
def FullMention.Names (mention : FullMention) (issuer : JsString) : Prop :=
  mention.issuerSlug = some issuer ∧ issuer ≠ [] ∧ (mention.kind ≠ none ∨ cleanMask mention.maskDigits ≠ none)

/-- A mention that names nothing makes nothing, whatever is known. -/
theorem resolveDetailed_of_not_names (h : ∀ issuer, ¬ mention.Names issuer) :
    ∃ reason, ∀ known,
      resolver.resolveDetailed newId mention known observedAt senderBrand = .notCreated reason := by
  unfold DefaultInstrumentResolver.resolveDetailed
  cases hissuer : mention.issuerSlug.filter (· ≠ []) with
  | none => exact ⟨.noIssuer, fun _ => rfl⟩
  | some issuer =>
    obtain ⟨hslug, hne⟩ := Option.filter_eq_some_iff.mp hissuer
    have hnone := h issuer
    rw [FullMention.Names, not_and, not_and, not_or, not_not, not_not] at hnone
    obtain ⟨hkind, hmask⟩ := hnone hslug (of_decide_eq_true hne)
    rw [hkind, hmask]
    exact ⟨.emptyMention, fun _ => rfl⟩

/-- **What the resolver does.** The instruments that fit are picked from. Where there are none, a new one is made
if the mention says its kind. -/
theorem resolveDetailed_of_names {issuer : JsString} (h : mention.Names issuer) :
    resolver.resolveDetailed newId mention known observedAt senderBrand =
      if mention.fitting known ≠ [] then pick (mention.fitting known)
      else match mention.kind with
        | none => .reviewNeeded .kindUnknown []
        | some kind =>
          resolver.createNew newId mention kind issuer (cleanMask mention.maskDigits) observedAt senderBrand := by
  obtain ⟨hissuer, hne, hsome⟩ := h
  have hfilter : mention.issuerSlug.filter (· ≠ []) = some issuer := by
    rw [hissuer, Option.filter_some, if_pos (decide_eq_true hne)]
  have hfitting : ∀ p : InstrumentRecord → Bool,
      (∀ i : InstrumentRecord, p i = true ↔ (∀ kind ∈ mention.kind, i.kind = kind) ∧
        ∀ mask ∈ cleanMask mention.maskDigits, i.maskDigits = some mask) →
      (known.filter fun i => i.issuerSlug = issuer).filter p = mention.fitting known := by
    intro p hp
    rw [List.filter_filter, FullMention.fitting]
    refine List.filter_congr fun i _ => Bool.eq_iff_iff.mpr ?_
    rw [Bool.and_eq_true, hp i, decide_eq_true_iff, decide_eq_true_iff, FullMention.Fits, hissuer, and_comm,
      Option.some.injEq, eq_comm]
  rw [DefaultInstrumentResolver.resolveDetailed, hfilter]
  cases hkind : mention.kind with
  | none =>
    cases hmask : cleanMask mention.maskDigits with
    | none => exact absurd hsome (by simp [hkind, hmask])
    | some mask =>
      have hby := hfitting (fun i => i.maskDigits = some mask) fun i => by simp [hkind, hmask]
      simp only [hby]
  | some kind =>
    cases hmask : cleanMask mention.maskDigits with
    | none =>
      have hby := hfitting (fun i => i.kind = kind) fun i => by simp [hkind, hmask]
      simp only [hby]
    | some mask =>
      have hby := hfitting (fun i => i.kind = kind && i.maskDigits = some mask) fun i => by simp [hkind, hmask]
      simp only [hby]

theorem mem_fitting_iff : i ∈ mention.fitting known ↔ i ∈ known ∧ mention.Fits i := by
  rw [FullMention.fitting, List.mem_filter, decide_eq_true_iff]

/-- Only one candidate that is not rejected is picked. -/
theorem pick_eq_resolved {candidates : List InstrumentRecord} {created : Bool}
    (h : pick candidates = .resolved i created) : candidates = [i] ∧ created = false ∧ i.status ≠ .rejected := by
  unfold pick at h
  split at h
  · split_ifs at h with hstatus
    cases h
    exact ⟨rfl, rfl, hstatus⟩
  · cases h

theorem createNew_eq_resolved {kind : InstrumentKind} {issuer : JsString} {mask : Option JsString} {created : Bool}
    (h : resolver.createNew newId mention kind issuer mask observedAt senderBrand = .resolved i created) :
    created = true ∧ i = resolver.create newId mention kind issuer mask observedAt senderBrand := by
  rw [DefaultInstrumentResolver.createNew] at h
  split_ifs at h
  cases h
  exact ⟨rfl, rfl⟩

/-- A mention that resolves to something names something. -/
theorem exists_names_of_resolved {created : Bool}
    (h : resolver.resolveDetailed newId mention known observedAt senderBrand = .resolved i created) :
    ∃ issuer, mention.Names issuer := by
  by_contra hnone
  obtain ⟨reason, hreason⟩ := resolveDetailed_of_not_names (not_exists.mp hnone)
  cases (hreason known).symm.trans h

/-- A mention resolves to a known instrument only if no other one fits, and not if that one is rejected. -/
theorem resolved_known (h : resolver.resolveDetailed newId mention known observedAt senderBrand = .resolved i false) :
    mention.fitting known = [i] ∧ i.status ≠ .rejected := by
  obtain ⟨issuer, hnames⟩ := exists_names_of_resolved h
  rw [resolveDetailed_of_names hnames] at h
  split_ifs at h with hfit
  · obtain ⟨hone, -, hstatus⟩ := pick_eq_resolved h
    exact ⟨hone, hstatus⟩
  · cases hkind : mention.kind with
    | none => simp [hkind] at h
    | some kind =>
      rw [hkind] at h
      exact absurd (createNew_eq_resolved h).1 Bool.false_ne_true

/-- A new instrument has the id that was drawn, it fits the mention, and no known one has its identity. -/
theorem resolved_created (h : resolver.resolveDetailed newId mention known observedAt senderBrand = .resolved i true) :
    i.instrumentId = newId ∧ i.status = .detected ∧ mention.Fits i ∧ (∀ j ∈ known, j.identity ≠ i.identity) ∧
      ∃ issuer kind, mention.issuerSlug = some issuer ∧ mention.kind = some kind ∧
        i.identity = (issuer, kind, cleanMask mention.maskDigits) := by
  obtain ⟨issuer, hnames⟩ := exists_names_of_resolved h
  rw [resolveDetailed_of_names hnames] at h
  split_ifs at h with hfit
  · exact absurd (pick_eq_resolved h).2.1 Bool.true_eq_false_eq_False
  · cases hkind : mention.kind with
    | none => simp [hkind] at h
    | some kind =>
      rw [hkind] at h
      obtain ⟨-, rfl⟩ := createNew_eq_resolved h
      have hfits : ∀ j : InstrumentRecord, j.identity = (issuer, kind, cleanMask mention.maskDigits) →
          mention.Fits j := by
        intro j hj
        obtain ⟨hissuer, hrest⟩ := Prod.mk.injEq .. ▸ hj
        obtain ⟨hk, hm⟩ := Prod.mk.injEq .. ▸ hrest
        refine ⟨by rw [hissuer]; exact hnames.1, fun k hmem => ?_, fun mask hmem => hm.trans hmem⟩
        rw [hk]
        exact Option.some.inj (hkind.symm.trans hmem)
      refine ⟨rfl, rfl, hfits _ rfl, fun j hj heq => hfit ?_, issuer, kind, hnames.1, rfl, rfl⟩
      exact List.ne_nil_of_mem (mem_fitting_iff.mpr ⟨hj, hfits j heq⟩)

/-! ### Runs -/

/-- The known instruments, with one that was created. -/
def InstrumentOutcome.addTo (outcome : InstrumentOutcome) (known : List InstrumentRecord) : List InstrumentRecord :=
  match outcome with
  | .resolved i true => known ++ [i]
  | _ => known

/-- What can happen to the known instruments: a mention is resolved; the user, a fact or a merge changes them, but
not their identity; they are listed in another order. -/
inductive Next (resolver : DefaultInstrumentResolver) : List InstrumentRecord → List InstrumentRecord → Prop
  | mention {known : List InstrumentRecord} (newId : JsString) (mention : FullMention) (observedAt : ℤ) (senderBrand : Option JsString) :
    Next resolver known ((resolver.resolveDetailed newId mention known observedAt senderBrand).addTo known)
  | revised {known : List InstrumentRecord} (revise : InstrumentRecord → InstrumentRecord)
    (h : ∀ i, (revise i).instrumentId = i.instrumentId ∧ (revise i).identity = i.identity) :
    Next resolver known (known.map revise)
  | reordered {known known' : List InstrumentRecord} (h : known.Perm known') : Next resolver known known'

/-- What sequences of mentions lead to from no instruments. -/
def Reached (resolver : DefaultInstrumentResolver) (known : List InstrumentRecord) : Prop :=
  Relation.ReflTransGen (Next resolver) [] known

/-- No two instruments share issuer, kind and mask. -/
def Distinct (known : List InstrumentRecord) : Prop := (known.map (·.identity)).Nodup

theorem Next.distinct (h : Next resolver known known') (hdistinct : Distinct known) : Distinct known' := by
  cases h with
  | mention newId mention observedAt senderBrand =>
    cases hout : resolver.resolveDetailed newId mention known observedAt senderBrand with
    | resolved i created =>
      cases created with
      | false => exact hdistinct
      | true =>
        have hnew := (resolved_created hout).2.2.2.1
        rw [InstrumentOutcome.addTo, Distinct, List.map_append, List.nodup_append]
        refine ⟨hdistinct, List.nodup_singleton _, fun a ha b hb => ?_⟩
        obtain ⟨j, hj, rfl⟩ := List.mem_map.mp ha
        rw [List.mem_singleton.mp hb]
        exact hnew j hj
    | reviewNeeded reason candidates => exact hdistinct
    | notCreated reason => exact hdistinct
  | revised revise hrevise =>
    rw [Distinct, List.map_map]
    have hsame : known.map ((·.identity) ∘ revise) = known.map (·.identity) :=
      List.map_congr_left fun i _ => (hrevise i).2
    rwa [hsame]
  | reordered hperm => exact (hperm.map _).nodup_iff.mp hdistinct

/-- **Identities are unique** in every list that is reached. -/
theorem reached_distinct (h : Reached resolver known) : Distinct known := by
  induction h with
  | refl => exact List.nodup_nil
  | tail _ hnext ih => exact hnext.distinct ih

/-- An instrument is still known under its id and its identity. -/
def StillKnown (i : InstrumentRecord) (known : List InstrumentRecord) : Prop :=
  ∃ j ∈ known, j.instrumentId = i.instrumentId ∧ j.identity = i.identity

theorem Next.stillKnown (h : Next resolver known known') (hi : StillKnown i known) : StillKnown i known' := by
  obtain ⟨j, hj, hid, hidentity⟩ := hi
  cases h with
  | mention newId mention observedAt senderBrand =>
    refine ⟨j, ?_, hid, hidentity⟩
    cases resolver.resolveDetailed newId mention known observedAt senderBrand with
    | resolved i created =>
      cases created with
      | false => exact hj
      | true => exact List.mem_append_left _ hj
    | reviewNeeded reason candidates => exact hj
    | notCreated reason => exact hj
  | revised revise hrevise =>
    exact ⟨revise j, List.mem_map_of_mem hj, (hrevise j).1.trans hid, (hrevise j).2.trans hidentity⟩
  | reordered hperm => exact ⟨j, hperm.mem_iff.mp hj, hid, hidentity⟩

theorem stillKnown_of_reached (h : Relation.ReflTransGen (Next resolver) known known') (hi : StillKnown i known) :
    StillKnown i known' := by
  induction h with
  | refl => exact hi
  | tail _ hnext ih => exact hnext.stillKnown ih

/-- The instrument that a mention resolved to is known afterwards. -/
theorem stillKnown_addTo {created : Bool}
    (h : resolver.resolveDetailed newId mention known observedAt senderBrand = .resolved i created) :
    StillKnown i ((resolver.resolveDetailed newId mention known observedAt senderBrand).addTo known) := by
  rw [h]
  cases created with
  | true => exact ⟨i, List.mem_append_right _ (List.mem_singleton_self i), rfl, rfl⟩
  | false =>
    have hfit : i ∈ mention.fitting known := (resolved_known h).1 ▸ List.mem_singleton_self i
    exact ⟨i, (mem_fitting_iff.mp hfit).1, rfl, rfl⟩

/-- A mention with issuer, kind and mask fits one instrument at most, and resolves to it. -/
theorem resolveDetailed_of_mem (hdistinct : Distinct known) (hi : i ∈ known) {kind : InstrumentKind} {mask : JsString}
    (hkind : mention.kind = some kind) (hmask : cleanMask mention.maskDigits = some mask) (hne : i.issuerSlug ≠ [])
    (hfits : mention.Fits i) :
    resolver.resolveDetailed newId mention known observedAt senderBrand =
      if i.status = .rejected then .reviewNeeded .rejected [i] else .resolved i false := by
  have hidentity : ∀ j : InstrumentRecord, mention.Fits j → j.identity = i.identity := by
    rintro j ⟨hissuer, hk, hm⟩
    have hslug : j.issuerSlug = i.issuerSlug := Option.some.inj (hissuer.symm.trans hfits.1)
    rw [InstrumentRecord.identity, InstrumentRecord.identity, hslug, hk kind hkind, hfits.2.1 kind hkind,
      hm mask hmask, hfits.2.2 mask hmask]
  have hone : mention.fitting known = [i] := by
    have hmem : i ∈ mention.fitting known := mem_fitting_iff.mpr ⟨hi, hfits⟩
    have hnodup : ((mention.fitting known).map (·.identity)).Nodup := hdistinct.sublist (List.filter_sublist.map _)
    have hall : ∀ j ∈ mention.fitting known, j.identity = i.identity := fun j hj =>
      hidentity j (mem_fitting_iff.mp hj).2
    cases hlist : mention.fitting known with
    | nil => exact absurd hmem (hlist ▸ List.not_mem_nil)
    | cons j rest =>
      rw [hlist] at hmem hnodup hall
      cases rest with
      | nil => rw [List.mem_singleton.mp hmem]
      | cons k rest =>
        have heq : j.identity = k.identity :=
          (hall j List.mem_cons_self).trans (hall k (List.mem_cons_of_mem j List.mem_cons_self)).symm
        rw [List.map_cons, List.map_cons, heq] at hnodup
        exact absurd List.mem_cons_self (List.nodup_cons.mp hnodup).1
  rw [resolveDetailed_of_names ⟨hfits.1, hne, .inl (by rw [hkind]; exact Option.some_ne_none kind)⟩, hone,
    if_pos (List.cons_ne_nil i [])]
  rfl

/-! ### The order of the known instruments -/

/-- Two outcomes are the same but for the order of the candidates for review. -/
def InstrumentOutcome.Same : InstrumentOutcome → InstrumentOutcome → Prop
  | .reviewNeeded reason candidates, .reviewNeeded reason' candidates' =>
    reason = reason' ∧ candidates.Perm candidates'
  | a, b => a = b

theorem InstrumentOutcome.same_self (outcome : InstrumentOutcome) : outcome.Same outcome := by
  cases outcome with
  | reviewNeeded reason candidates => exact ⟨Eq.refl _, .refl _⟩
  | _ => exact Eq.refl _

theorem pick_perm {l l' : List InstrumentRecord} (h : l.Perm l') : (pick l).Same (pick l') := by
  by_cases hone : ∃ i, l = [i]
  · obtain ⟨i, rfl⟩ := hone
    rw [List.singleton_perm.mp h]
    exact InstrumentOutcome.same_self _
  · have hambiguous : ∀ l : List InstrumentRecord, (¬ ∃ i, l = [i]) → pick l = .reviewNeeded .ambiguous l := by
      intro l hl
      unfold pick
      split
      · exact absurd ⟨_, Eq.refl _⟩ hl
      · exact Eq.refl _
    have hone' : ¬ ∃ i, l' = [i] := by
      rintro ⟨i, rfl⟩
      exact hone ⟨i, List.perm_singleton.mp h⟩
    rw [hambiguous l hone, hambiguous l' hone']
    exact ⟨Eq.refl _, h⟩

/-- The order of the known instruments does not matter. -/
theorem resolveDetailed_perm (h : known.Perm known') :
    (resolver.resolveDetailed newId mention known observedAt senderBrand).Same
      (resolver.resolveDetailed newId mention known' observedAt senderBrand) := by
  by_cases hnames : ∃ issuer, mention.Names issuer
  · obtain ⟨issuer, hnames⟩ := hnames
    have hfitting : (mention.fitting known).Perm (mention.fitting known') := h.filter _
    rw [resolveDetailed_of_names hnames, resolveDetailed_of_names hnames]
    by_cases hnil : mention.fitting known = []
    · have hnil' : mention.fitting known' = [] := (hnil ▸ hfitting).nil_eq.symm
      rw [if_neg (not_not.mpr hnil), if_neg (not_not.mpr hnil')]
      exact InstrumentOutcome.same_self _
    · have hnil' : mention.fitting known' ≠ [] := fun h => hnil (h ▸ hfitting).eq_nil
      rw [if_pos hnil, if_pos hnil']
      exact pick_perm hfitting
  · obtain ⟨reason, hreason⟩ := resolveDetailed_of_not_names (not_exists.mp hnames)
    rw [hreason known, hreason known']
    exact InstrumentOutcome.same_self _

/-- **Identities are unique and stable.** In every list of known instruments that is reached no two share issuer,
kind and mask. A mention resolves to a known instrument only if no other one fits it and that one is not rejected;
it makes a new one only under an identity that no instrument has. What a mention with issuer, kind and mask
resolved to, such a mention resolves to from then on, unless it was rejected. None of this depends on the order
of the known instruments. -/
theorem resolution_unique_and_stable (resolver : DefaultInstrumentResolver) {known : List InstrumentRecord}
    (h : Reached resolver known) :
    Distinct known ∧ ∀ newId mention observedAt senderBrand,
      (∀ i, resolver.resolveDetailed newId mention known observedAt senderBrand = .resolved i false →
        mention.fitting known = [i] ∧ i.status ≠ .rejected) ∧
      (∀ i, resolver.resolveDetailed newId mention known observedAt senderBrand = .resolved i true →
        i.status = .detected ∧ ∀ j ∈ known, j.identity ≠ i.identity) ∧
      (∀ i created kind mask, mention.kind = some kind → cleanMask mention.maskDigits = some mask →
        resolver.resolveDetailed newId mention known observedAt senderBrand = .resolved i created →
        ∀ later, Relation.ReflTransGen (Next resolver)
            ((resolver.resolveDetailed newId mention known observedAt senderBrand).addTo known) later →
          ∃ j ∈ later, j.instrumentId = i.instrumentId ∧ j.identity = i.identity ∧
            ∀ newId' mention' observedAt' senderBrand', mention'.issuerSlug = mention.issuerSlug →
              mention'.kind = mention.kind → cleanMask mention'.maskDigits = cleanMask mention.maskDigits →
              resolver.resolveDetailed newId' mention' later observedAt' senderBrand' =
                if j.status = .rejected then .reviewNeeded .rejected [j] else .resolved j false) ∧
      ∀ known', known'.Perm known → (resolver.resolveDetailed newId mention known' observedAt senderBrand).Same
        (resolver.resolveDetailed newId mention known observedAt senderBrand) := by
  refine ⟨reached_distinct h, fun newId mention observedAt senderBrand => ⟨fun i hi => resolved_known hi,
    fun i hi => ?_, fun i created kind mask hkind hmask hi later hlater => ?_, fun known' hperm =>
      resolveDetailed_perm hperm⟩⟩
  · obtain ⟨-, hstatus, -, hnew, -⟩ := resolved_created hi
    exact ⟨hstatus, hnew⟩
  · have hfits : mention.Fits i := by
      cases created with
      | true => exact (resolved_created hi).2.2.1
      | false =>
        have hmem : i ∈ mention.fitting known := (resolved_known hi).1 ▸ List.mem_singleton_self i
        exact (mem_fitting_iff.mp hmem).2
    obtain ⟨issuer, hissuer, hne, -⟩ := exists_names_of_resolved hi
    obtain ⟨j, hj, hid, hidentity⟩ := stillKnown_of_reached hlater (stillKnown_addTo hi)
    obtain ⟨hslug, hrest⟩ := Prod.ext_iff.mp hidentity
    obtain ⟨hjkind, hjmask⟩ := Prod.ext_iff.mp hrest
    have hdistinct : Distinct later :=
      reached_distinct ((h.tail (.mention newId mention observedAt senderBrand)).trans hlater)
    refine ⟨j, hj, hid, hidentity, fun newId' mention' observedAt' senderBrand' hissuer' hkind' hmask' => ?_⟩
    have hfits' : mention'.Fits j := by
      refine ⟨?_, fun k hk => ?_, fun m hm => ?_⟩
      · rw [hissuer', hfits.1]
        exact congrArg some hslug.symm
      · rw [hkind'] at hk
        exact hjkind.trans (hfits.2.1 k hk)
      · rw [hmask'] at hm
        exact hjmask.trans (hfits.2.2 m hm)
    refine resolveDetailed_of_mem hdistinct hj (hkind'.trans hkind) (hmask'.trans hmask) ?_ hfits'
    have hslug' : j.issuerSlug = issuer := Option.some.inj (hfits'.1.symm.trans (hissuer'.trans hissuer))
    rw [hslug']
    exact hne

/-- A resolver without special senders. -/
def plainInstruments : DefaultInstrumentResolver where
  toUpperCase := id
  issuerLabel := id
  upiBrands := []
  partialWallets := []

/-- A mention of a card. -/
def cardMention : FullMention where
  kind := some .creditCard
  issuerSlug := some (js "hdfc")
  maskDigits := some (js "5678")

/-- The card that the first mention makes. -/
def firstCard : InstrumentRecord :=
  plainInstruments.create (js "first") cardMention .creditCard (js "hdfc") (some (js "5678")) 0 none

/-- The second mention of a card resolves to what the first one made, not to what would be made with another id. -/
theorem resolution_unique_and_stable_card :
    Distinct [firstCard] ∧ ∃ j ∈ [firstCard], j.instrumentId = firstCard.instrumentId ∧
      plainInstruments.resolveDetailed (js "second") cardMention [firstCard] 5 none =
        if j.status = .rejected then .reviewNeeded .rejected [j] else .resolved j false := by
  have hmake : plainInstruments.resolveDetailed (js "first") cardMention [] 0 none = .resolved firstCard true := rfl
  have hreached : Reached plainInstruments [firstCard] :=
    .single (.mention (js "first") cardMention 0 none)
  refine ⟨(resolution_unique_and_stable plainInstruments hreached).1, ?_⟩
  have hlater := ((resolution_unique_and_stable plainInstruments .refl).2 (js "first") cardMention 0 none).2.2.1
    firstCard true .creditCard (js "5678") rfl rfl hmake [firstCard] .refl
  obtain ⟨j, hj, hid, -, hresolve⟩ := hlater
  exact ⟨j, hj, hid, hresolve (js "second") cardMention 5 none rfl rfl rfl⟩

end PandaPay.SmsV2
