import PandaPay.SmsV2.Linker.Order
import PandaPay.SmsV2.Linker.Rules
import PandaPay.SmsV2.Linker.Stable

/-!
# Two holds for one mandate

The linker takes an IPO mandate to the first event that holds its message, else to the last one that
holds its block. Where two known events compete, the order they are given in decides. There is no other
way in which the order of the lists matters.

## Main definitions

* `targetId`: the event that takes a mandate
* `IpoTie`, `Ties`: two known events compete for a mandate
* `OrderFree`: a call returns the same for the lists in any order

## Main results

* `orderFree_iff`: a call is order free exactly where no two known events compete for a mandate
* `not_orderFree`: two holds of one block
-/

namespace PandaPay.SmsV2

/-! ### The event that takes a mandate -/

section Target

variable {env : Env} {s s' : Run} {m : Fact}

/-- The event `id` has an open hold of the message of the mandate `m`. -/
def holdsMessage (env : Env) (s : Run) (m : Fact) (id : JsString) : Bool :=
  (s.events.get? id).any fun e => (openHold env e).any fun placed => sameMessage placed m

/-- The event `id` has an open hold of the block of the mandate `m`. -/
def holdsBlock (env : Env) (s : Run) (m : Fact) (id : JsString) : Bool :=
  (s.events.get? id).any fun e => (openHold env e).any fun placed => sameBlock env placed m

/-- The event that takes the mandate `m`: the first with its message, else the last with its block. -/
def targetId (env : Env) (s : Run) (m : Fact) : Option JsString :=
  (s.events.keys.find? (holdsMessage env s m)).or (s.events.keys.reverse.find? (holdsBlock env s m))

theorem ipoTarget_eq (es : List Event) (target : Option Event) :
    ipoTarget env m es target =
      (es.find? fun e => (openHold env e).any fun placed => sameMessage placed m).or
        ((es.reverse.find? fun e => (openHold env e).any fun placed => sameBlock env placed m).or
          target) := by
  induction es generalizing target with
  | nil => rfl
  | cons e es ih =>
    rw [ipoTarget, List.find?_cons, List.reverse_cons, List.find?_append, Option.or_assoc]
    cases hopen : openHold env e with
    | none => simp [hopen, ih]
    | some placed =>
      cases hmessage : sameMessage placed m with
      | true => simp [hmessage]
      | false =>
        dsimp only
        rw [if_neg (by simp [hmessage]), ih]
        cases hblock : sameBlock env placed m <;> simp [hopen, hmessage, hblock]

/-- The loop over the events finds the event `targetId` names. -/
theorem ipoTarget_values : ipoTarget env m s.events.values none =
    (targetId env s m).bind s.events.get? := by
  rw [ipoTarget_eq, values_eq_filterMap_keys, ← List.filterMap_reverse, List.find?_filterMap,
    List.find?_filterMap, Option.or_none, targetId]
  change ((s.events.keys.find? (holdsMessage env s m)).bind s.events.get?).or
    ((s.events.keys.reverse.find? (holdsBlock env s m)).bind s.events.get?) = _
  cases hfind : s.events.keys.find? (holdsMessage env s m) with
  | none => rfl
  | some id =>
    have hholds : holdsMessage env s m id = true := List.find?_some hfind
    obtain ⟨e, he, -⟩ := (Option.any_eq_true _ _).mp hholds
    rw [Option.bind_some, Option.some_or, Option.bind_some, he, Option.some_or]

/-- The event that takes a mandate has an open hold. -/
theorem exists_of_targetId {id : JsString} (h : targetId env s m = some id) :
    ∃ e, s.events.get? id = some e ∧ (openHold env e).isSome ∧ id ∈ s.events.keys := by
  have hsome {p : Option Fact → Bool} (hp : p none = false)
      (hany : (s.events.get? id).any (fun e => p (openHold env e)) = true) :
      ∃ e, s.events.get? id = some e ∧ (openHold env e).isSome ∧ id ∈ s.events.keys := by
    obtain ⟨e, he, hholds⟩ := (Option.any_eq_true _ _).mp hany
    refine ⟨e, he, ?_, InsertionMap.mem_keys_of_get? he⟩
    cases hopen : openHold env e with
    | none =>
      rw [hopen, hp] at hholds
      cases hholds
    | some placed => rfl
  rcases Option.or_eq_some_iff.mp h with hfind | ⟨-, hfind⟩
  · have hholds : holdsMessage env s m id = true := List.find?_some hfind
    exact hsome (p := fun o => o.any fun placed => sameMessage placed m) rfl hholds
  · have hholds : holdsBlock env s m id = true := List.find?_some hfind
    exact hsome (p := fun o => o.any fun placed => sameBlock env placed m) rfl hholds

theorem holdsMessage_congr (h : ∀ id, s.events.get? id = s'.events.get? id) :
    holdsMessage env s m = holdsMessage env s' m := by
  funext id
  rw [holdsMessage, holdsMessage, h]

theorem holdsBlock_congr (h : ∀ id, s.events.get? id = s'.events.get? id) :
    holdsBlock env s m = holdsBlock env s' m := by
  funext id
  rw [holdsBlock, holdsBlock, h]

/-! ### Ties -/

/-- Two ids of a list meet `p`. -/
def TwoOf (ids : List JsString) (p : JsString → Bool) : Prop :=
  ∃ u ∈ ids, ∃ v ∈ ids, u ≠ v ∧ p u = true ∧ p v = true

/-- Two of the events `closed`, which may come in any order after the events `first` and before all
others, compete for the mandate `m`: by its message where none of `first` has it; by its block where no
event has its message and no later event its block. -/
def IpoTie (env : Env) (first closed : List JsString) (s : Run) (m : Fact) : Prop :=
  ((∀ id ∈ first, holdsMessage env s m id = false) ∧ TwoOf closed (holdsMessage env s m)) ∨
    ((∀ id ∈ s.events.keys, holdsMessage env s m id = false) ∧
      (∀ id ∈ s.events.keys, id ∉ first → id ∉ closed → holdsBlock env s m id = false) ∧
      TwoOf closed (holdsBlock env s m))

/-- An order shows in a search only if it finds two. -/
theorem find?_perm_of_not_twoOf {ids ids' : List JsString} {p : JsString → Bool} (h : ids.Perm ids')
    (hone : ¬ TwoOf ids p) : ids.find? p = ids'.find? p := by
  cases hfind : ids.find? p with
  | none =>
    refine (List.find?_eq_none.mpr fun id hid => ?_).symm
    exact List.find?_eq_none.mp hfind id (h.mem_iff.mpr hid)
  | some u =>
    have hu := List.mem_of_find?_eq_some hfind
    cases hfind' : ids'.find? p with
    | none => exact absurd (List.find?_some hfind) (List.find?_eq_none.mp hfind' u (h.mem_iff.mp hu))
    | some v =>
      by_contra hne
      have hv := h.mem_iff.mpr (List.mem_of_find?_eq_some hfind')
      exact hone ⟨u, hu, v, hv, fun heq => hne (congrArg some heq), List.find?_some hfind,
        List.find?_some hfind'⟩

theorem find?_eq_none_of_forall {ids : List JsString} {p : JsString → Bool}
    (h : ∀ id ∈ ids, p id = false) : ids.find? p = none :=
  List.find?_eq_none.mpr fun id hid => by simp [h id hid]

variable {first closed closed' : List JsString}

/-- Without a tie the order of the known events does not show. -/
theorem targetId_congr (h : s.Agrees (first ++ closed) (first ++ closed') s')
    (hperm : closed.Perm closed') (htie : ¬ IpoTie env first closed s m) :
    targetId env s m = targetId env s' m := by
  obtain ⟨new, hkeys, hkeys'⟩ := h.keys
  have hmessage : s.events.keys.find? (holdsMessage env s m) =
      s'.events.keys.find? (holdsMessage env s' m) := by
    rw [← holdsMessage_congr h.events, hkeys, hkeys', List.find?_append, List.find?_append,
      List.find?_append, List.find?_append]
    by_cases hfirst : ∀ id ∈ first, holdsMessage env s m id = false
    · rw [find?_perm_of_not_twoOf hperm fun htwo => htie (.inl ⟨hfirst, htwo⟩)]
    · cases hfind : first.find? (holdsMessage env s m) with
      | none =>
        refine absurd (fun id hid => ?_) hfirst
        simpa using List.find?_eq_none.mp hfind id hid
      | some id => rfl
  unfold targetId
  rw [← hmessage]
  cases hfind : s.events.keys.find? (holdsMessage env s m) with
  | some id => rfl
  | none =>
    rw [Option.none_or, Option.none_or, ← holdsBlock_congr h.events, hkeys, hkeys']
    simp only [List.reverse_append, List.find?_append]
    by_cases hnew : ∀ id ∈ new, holdsBlock env s m id = false
    · have hno : ∀ id ∈ s.events.keys, holdsMessage env s m id = false := fun id hid => by
        simpa using List.find?_eq_none.mp hfind id hid
      have hlater : ∀ id ∈ s.events.keys, id ∉ first → id ∉ closed → holdsBlock env s m id = false := by
        intro id hid hfirst hclosed
        rw [hkeys, List.mem_append, List.mem_append] at hid
        exact hnew id ((hid.resolve_left fun hold => hold.elim hfirst hclosed))
      have hone : ¬ TwoOf closed.reverse (holdsBlock env s m) := by
        rintro ⟨u, hu, v, hv, htwo⟩
        exact htie (.inr ⟨hno, hlater, u, List.mem_reverse.mp hu, v, List.mem_reverse.mp hv, htwo⟩)
      rw [find?_perm_of_not_twoOf
        ((List.reverse_perm _).trans (hperm.trans (List.reverse_perm _).symm)) hone]
    · cases hlast : new.reverse.find? (holdsBlock env s m) with
      | none =>
        refine absurd (fun id hid => ?_) hnew
        simpa using List.find?_eq_none.mp hlast id (List.mem_reverse.mpr hid)
      | some id => rfl

theorem attachStep_eq : attachStep env s m =
    match (targetId env s m).bind s.events.get? with
    | none => s
    | some target => s.put (mandatedEvent env m target) :=
  congrArg (fun target => match target with
    | none => s
    | some target => s.put (mandatedEvent env m target)) ipoTarget_values

theorem attachStep_agrees (h : s.Agrees (first ++ closed) (first ++ closed') s')
    (hperm : closed.Perm closed') (htie : ¬ IpoTie env first closed s m) :
    (attachStep env s m).Agrees (first ++ closed) (first ++ closed') (attachStep env s' m) := by
  rw [attachStep_eq, attachStep_eq, ← targetId_congr h hperm htie,
    show s.events.get? = s'.events.get? from funext h.events]
  cases (targetId env s m).bind s'.events.get? with
  | none => exact h
  | some target => exact h.put _

/-- Without ties all IPO mandates go to the same events. -/
theorem attachSteps_agree {pending : List Fact} (h : s.Agrees (first ++ closed) (first ++ closed') s')
    (hperm : closed.Perm closed') (htie : ∀ ms m rest, pending = ms ++ m :: rest →
      ¬ IpoTie env first closed (ms.foldl (attachStep env) s) m) :
    (pending.foldl (attachStep env) s).Agrees (first ++ closed) (first ++ closed')
      (pending.foldl (attachStep env) s') := by
  induction pending generalizing s s' with
  | nil => exact h
  | cons m pending ih =>
    refine ih (attachStep_agrees h hperm (htie [] m pending rfl)) fun ms m' rest heq => ?_
    exact htie (m :: ms) m' rest (by rw [heq, List.cons_append])

/-! ### What a tie changes -/

/-- Of two ids one is not the given one. -/
theorem TwoOf.exists_ne {ids : List JsString} {p : JsString → Bool} (h : TwoOf ids p) (t : JsString) :
    ∃ w ∈ ids, p w = true ∧ w ≠ t := by
  obtain ⟨u, hu, v, hv, hne, hpu, hpv⟩ := h
  by_cases ht : u = t
  · exact ⟨v, hv, hpv, fun heq => hne (ht.trans heq.symm)⟩
  · exact ⟨u, hu, hpu, ht⟩

theorem targetId_isSome_of_message {id : JsString} (hid : id ∈ s.events.keys)
    (h : holdsMessage env s m id = true) : (targetId env s m).isSome := by
  rw [targetId, Option.isSome_or, Bool.or_eq_true, List.find?_isSome]
  exact .inl ⟨id, hid, h⟩

theorem targetId_isSome_of_block {id : JsString} (hid : id ∈ s.events.keys)
    (h : holdsBlock env s m id = true) : (targetId env s m).isSome := by
  rw [targetId, Option.isSome_or, Bool.or_eq_true, List.find?_isSome, List.find?_isSome]
  exact .inr ⟨id, List.mem_reverse.mpr hid, h⟩

/-- The order of a list of events can be changed so that a given one comes first. -/
theorem exists_perm_first {known : List Event} {w : JsString} (hw : w ∈ known.map Event.eventId) :
    ∃ known', known.Perm known' ∧ ∃ ids, known'.map Event.eventId = w :: ids := by
  obtain ⟨e, he, rfl⟩ := List.mem_map.mp hw
  exact ⟨e :: known.erase e, List.perm_cons_erase he, _, rfl⟩

/-- … or last. -/
theorem exists_perm_last {known : List Event} {w : JsString} (hw : w ∈ known.map Event.eventId) :
    ∃ known', known.Perm known' ∧ ∃ ids, known'.map Event.eventId = ids ++ [w] := by
  obtain ⟨e, he, rfl⟩ := List.mem_map.mp hw
  refine ⟨known.erase e ++ [e], ?_, (known.erase e).map Event.eventId, by rw [List.map_append]; rfl⟩
  exact (List.perm_cons_erase he).trans (List.perm_append_singleton e _).symm

/-- With a tie, some order of the known events sends the mandate to another event. -/
theorem exists_order_of_tie {known : List Event} {new : List JsString}
    (hkeys : s.events.keys = first ++ (known.map Event.eventId).filter (· ∉ first) ++ new)
    (htie : IpoTie env first ((known.map Event.eventId).filter (· ∉ first)) s m) :
    ∃ t known', targetId env s m = some t ∧ known.Perm known' ∧
      ∀ s', s.Agrees (first ++ (known.map Event.eventId).filter (· ∉ first))
        (first ++ (known'.map Event.eventId).filter (· ∉ first)) s' →
        ∃ w, targetId env s' m = some w ∧ w ≠ t := by
  have hmem {id : JsString} (h : id ∈ (known.map Event.eventId).filter (· ∉ first)) :
      id ∈ s.events.keys := by
    rw [hkeys]
    exact List.mem_append_left _ (List.mem_append_right _ h)
  rcases htie with ⟨hfirst, htwo⟩ | ⟨hno, hlater, htwo⟩
  · obtain ⟨u, hu, hpu, -⟩ := htwo.exists_ne []
    obtain ⟨t, ht⟩ := Option.isSome_iff_exists.mp (targetId_isSome_of_message (hmem hu) hpu)
    obtain ⟨w, hw, hpw, hne⟩ := htwo.exists_ne t
    rw [List.mem_filter, decide_eq_true_eq] at hw
    obtain ⟨known', hperm, ids, hids⟩ := exists_perm_first hw.1
    refine ⟨t, known', ht, hperm, fun s' hs' => ⟨w, ?_, hne⟩⟩
    obtain ⟨new', -, hkeys'⟩ := hs'.keys
    have hfind : first.find? (holdsMessage env s' m) = none := by
      rw [← holdsMessage_congr hs'.events]
      exact find?_eq_none_of_forall hfirst
    rw [targetId, hkeys', hids, List.filter_cons_of_pos (by simpa using hw.2), List.append_assoc,
      List.find?_append, hfind, Option.none_or, List.cons_append,
      List.find?_cons_of_pos (by rw [← holdsMessage_congr hs'.events, hpw]), Option.some_or]
  · obtain ⟨u, hu, hpu, -⟩ := htwo.exists_ne []
    obtain ⟨t, ht⟩ := Option.isSome_iff_exists.mp (targetId_isSome_of_block (hmem hu) hpu)
    obtain ⟨w, hw, hpw, hne⟩ := htwo.exists_ne t
    rw [List.mem_filter, decide_eq_true_eq] at hw
    obtain ⟨known', hperm, ids, hids⟩ := exists_perm_last hw.1
    refine ⟨t, known', ht, hperm, fun s' hs' => ⟨w, ?_, hne⟩⟩
    obtain ⟨new', hkeysNew, hkeys'⟩ := hs'.keys
    have hmessage : s'.events.keys.find? (holdsMessage env s' m) = none := by
      rw [← holdsMessage_congr hs'.events]
      refine find?_eq_none_of_forall fun id hid => hno id ?_
      rw [InsertionMap.mem_keys_iff] at hid ⊢
      rwa [hs'.events]
    -- the events after the known ones hold no block of the mandate
    have hnew : new'.reverse.find? (holdsBlock env s' m) = none := by
      rw [← holdsBlock_congr hs'.events]
      refine find?_eq_none_of_forall fun id hid => ?_
      rw [List.mem_reverse] at hid
      have hnodup : s.events.keys.Nodup := s.events.nodup_keys
      rw [hkeysNew, List.nodup_append'] at hnodup
      have hapart := fun hold => hnodup.2.2 hold hid
      refine hlater id ?_ (fun hold => hapart (List.mem_append_left _ hold))
        fun hold => hapart (List.mem_append_right _ hold)
      rw [hkeysNew]
      exact List.mem_append_right _ hid
    rw [targetId, hmessage, Option.none_or, hkeys', hids, List.filter_append,
      List.filter_singleton]
    simp only [List.reverse_append, List.find?_append, hnew, Option.none_or]
    simp [hw.2, ← holdsBlock_congr hs'.events, hpw]

/-- The event `id` has the mandate `m` as its `original`. -/
def HasMandate (s : Run) (m : Fact) (id : JsString) : Prop :=
  ∃ e, s.events.get? id = some e ∧ ⟨m.factId, .original⟩ ∈ e.legs

theorem attachStep_wellFormed (h : s.WellFormed) : (attachStep env s m).WellFormed := by
  unfold attachStep
  split
  · exact h
  · exact h.put _

/-- A step changes the event `targetId` names. -/
theorem get?_attachStep (h : s.WellFormed) (id : JsString) :
    (attachStep env s m).events.get? id = if targetId env s m = some id then
      (s.events.get? id).map (mandatedEvent env m) else s.events.get? id := by
  rw [attachStep_eq]
  cases ht : targetId env s m with
  | none => rw [if_neg (by simp), Option.bind_none]
  | some t =>
    obtain ⟨e, he, -, -⟩ := exists_of_targetId ht
    have hid : (mandatedEvent env m e).eventId = t := (h.named he : e.eventId = t)
    rw [Option.bind_some, he]
    change (s.events.set _ _).get? id = _
    rw [hid, InsertionMap.get?_set]
    by_cases hsame : id = t
    · rw [if_pos hsame, if_pos (congrArg some hsame.symm), hsame, he, Option.map_some]
    · rw [if_neg hsame, if_neg fun heq => hsame (Option.some.inj heq).symm]

theorem keys_attachStep (h : s.WellFormed) : (attachStep env s m).events.keys = s.events.keys := by
  rw [attachStep_eq]
  cases ht : targetId env s m with
  | none => rfl
  | some t =>
    obtain ⟨e, he, -, -⟩ := exists_of_targetId ht
    have hid : (mandatedEvent env m e).eventId = t := (h.named he : e.eventId = t)
    rw [Option.bind_some, he]
    change (s.events.set _ _).keys = _
    rw [hid, InsertionMap.keys_set, if_pos (InsertionMap.mem_keys_of_get? he)]

theorem changed_attachStep (h : s.WellFormed) {id : JsString}
    (hid : id ∈ s.changed ∨ targetId env s m = some id) : id ∈ (attachStep env s m).changed := by
  rw [attachStep_eq]
  cases ht : targetId env s m with
  | none => exact hid.resolve_right (by simp [ht])
  | some t =>
    obtain ⟨e, he, -, -⟩ := exists_of_targetId ht
    have hname : (mandatedEvent env m e).eventId = t := (h.named he : e.eventId = t)
    rw [Option.bind_some, he]
    change id ∈ addTo s.changed _
    rw [hname, mem_addTo]
    exact hid.imp_right fun heq => by rw [ht] at heq; exact (Option.some.inj heq).symm

/-- A mandate that an event has stays. -/
theorem HasMandate.attachStep {m' : Fact} {t : JsString} (h : HasMandate s m t) (hs : s.WellFormed) :
    HasMandate (attachStep env s m') m t := by
  obtain ⟨e, he, hleg⟩ := h
  unfold HasMandate
  rw [get?_attachStep hs]
  split
  · rw [he]
    exact ⟨_, rfl, List.mem_append_left _ hleg⟩
  · exact ⟨e, he, hleg⟩

/-- A step brings no other mandate. -/
theorem hasMandate_of_attachStep {m' : Fact} {t : JsString} (h : HasMandate (attachStep env s m') m t)
    (hs : s.WellFormed) (hne : m'.factId ≠ m.factId ∨ targetId env s m' ≠ some t) : HasMandate s m t := by
  obtain ⟨e, he, hleg⟩ := h
  rw [get?_attachStep hs] at he
  split at he
  · rename_i ht
    obtain ⟨e', he', rfl⟩ := Option.map_eq_some_iff.mp he
    have hlegs : (mandatedEvent env m' e').legs = e'.legs ++ [⟨m'.factId, .original⟩] := rfl
    rw [hlegs, List.mem_append, List.mem_singleton] at hleg
    refine ⟨e', he', hleg.resolve_right fun heq => ?_⟩
    exact hne.elim (fun hid => hid (congrArg EventLeg.factId heq).symm) fun hno => hno ht
  · exact ⟨e, he, hleg⟩

/-- Mandates that go to different events in two states make the states differ for good. -/
theorem attachSteps_differ {rest : List Fact} (hs : s.WellFormed) (hs' : s'.WellFormed)
    (hevents : ∀ id, s.events.get? id = s'.events.get? id) {t : JsString} (ht : targetId env s m = some t)
    (ht' : targetId env s' m ≠ some t) (hrest : m.factId ∉ rest.map Fact.factId) :
    HasMandate ((m :: rest).foldl (attachStep env) s) m t ∧
      t ∈ ((m :: rest).foldl (attachStep env) s).changed ∧
      ¬ HasMandate ((m :: rest).foldl (attachStep env) s') m t := by
  obtain ⟨e, he, hopen, -⟩ := exists_of_targetId ht
  have hnew : HasMandate (attachStep env s m) m t := by
    unfold HasMandate
    rw [get?_attachStep hs, if_pos ht, he]
    exact ⟨_, rfl, List.mem_append_right _ List.mem_cons_self⟩
  have hno : ¬ HasMandate (attachStep env s' m) m t := by
    intro hhas
    obtain ⟨e', he', hleg⟩ := hasMandate_of_attachStep hhas hs' (.inr ht')
    rw [← hevents, he] at he'
    obtain rfl := Option.some.inj he'
    -- an open hold has no `original`
    unfold openHold at hopen
    rw [if_pos (.inr (.inr (List.any_eq_true.mpr ⟨_, hleg, by simp⟩)))] at hopen
    cases hopen
  rw [List.foldl_cons, List.foldl_cons]
  have hchanged := changed_attachStep hs (.inr ht)
  have hwell := @attachStep_wellFormed env s m hs
  have hwell' := @attachStep_wellFormed env s' m hs'
  clear hevents ht ht' he
  generalize attachStep env s m = u at hnew hchanged hwell ⊢
  generalize attachStep env s' m = u' at hno hwell' ⊢
  induction rest generalizing u u' with
  | nil => exact ⟨hnew, hchanged, hno⟩
  | cons m' rest ih =>
    rw [List.map_cons, List.mem_cons, not_or] at hrest
    exact ih hrest.2 _ (hnew.attachStep hwell) (changed_attachStep hwell (.inl hchanged))
      (attachStep_wellFormed hwell) _
      (fun hhas => hno (hasMandate_of_attachStep hhas hwell' (.inl fun heq => hrest.1 heq.symm)))
      (attachStep_wellFormed hwell')

/-- Where two known events compete for a mandate, some order of the known events ends differently. -/
theorem exists_order_differ {known : List Event} {pending : List Fact} {new : List JsString}
    (hs : s.WellFormed) (hpending : (pending.map Fact.factId).Nodup)
    (hclosed : ∀ known', known.Perm known' → ((known.map Event.eventId).filter (· ∉ first)).Perm
      ((known'.map Event.eventId).filter (· ∉ first)))
    (hkeys : s.events.keys = first ++ (known.map Event.eventId).filter (· ∉ first) ++ new)
    (htie : ∃ ms m rest, pending = ms ++ m :: rest ∧
      IpoTie env first ((known.map Event.eventId).filter (· ∉ first)) (ms.foldl (attachStep env) s) m) :
    ∃ m t known', known.Perm known' ∧ ∀ s', s'.WellFormed →
      s.Agrees (first ++ (known.map Event.eventId).filter (· ∉ first))
        (first ++ (known'.map Event.eventId).filter (· ∉ first)) s' →
      HasMandate (pending.foldl (attachStep env) s) m t ∧
        t ∈ (pending.foldl (attachStep env) s).changed ∧ t ∈ s.events.keys ∧
        ¬ HasMandate (pending.foldl (attachStep env) s') m t := by
  induction pending generalizing s with
  | nil =>
    obtain ⟨ms, m, rest, heq, -⟩ := htie
    simp at heq
  | cons m pending ih =>
    rw [List.map_cons, List.nodup_cons] at hpending
    by_cases hnow : IpoTie env first ((known.map Event.eventId).filter (· ∉ first)) s m
    · obtain ⟨t, known', ht, hperm, hother⟩ := exists_order_of_tie hkeys hnow
      refine ⟨m, t, known', hperm, fun s' hs' hagrees => ?_⟩
      obtain ⟨w, hw, hne⟩ := hother s' hagrees
      obtain ⟨hhas, hchanged, hno⟩ := attachSteps_differ hs hs' hagrees.events ht
        (by rw [hw]; exact fun heq => hne (Option.some.inj heq)) hpending.1
      obtain ⟨-, -, -, hmem⟩ := exists_of_targetId ht
      exact ⟨hhas, hchanged, hmem, hno⟩
    · have hlater : ∃ ms m' rest, pending = ms ++ m' :: rest ∧
          IpoTie env first ((known.map Event.eventId).filter (· ∉ first))
            (ms.foldl (attachStep env) (attachStep env s m)) m' := by
        obtain ⟨ms, m', rest, heq, htie⟩ := htie
        match ms, heq with
        | [], heq =>
          rw [List.nil_append, List.cons.injEq] at heq
          rw [List.foldl_nil, ← heq.1] at htie
          exact absurd htie hnow
        | m₀ :: ms, heq =>
          rw [List.cons_append, List.cons.injEq] at heq
          rw [List.foldl_cons, ← heq.1] at htie
          exact ⟨ms, m', rest, heq.2, htie⟩
      obtain ⟨m', t, known', hperm, hdiffer⟩ := ih (attachStep_wellFormed hs) hpending.2
        ((keys_attachStep hs).trans hkeys) hlater
      refine ⟨m', t, known', hperm, fun s' hs' hagrees => ?_⟩
      have hstep := attachStep_agrees hagrees (hclosed known' hperm) hnow
      have hdiffer := hdiffer _ (attachStep_wellFormed hs') hstep
      rwa [keys_attachStep hs] at hdiffer

end Target

/-! ### Order free calls -/

/-- The same events are created and updated, and the same reviews are raised. -/
structure LinkResult.Same (result result' : LinkResult) : Prop where
  created : ∀ e, e ∈ result.created ↔ e ∈ result'.created
  updated : ∀ e, e ∈ result.updated ↔ e ∈ result'.updated
  ambiguous : ∀ review, review ∈ result.ambiguous ↔ review ∈ result'.ambiguous

/-- Both calls throw the same error, or return the same. -/
def SameLinked : Except LinkError LinkResult → Except LinkError LinkResult → Prop
  | .ok result, .ok result' => result.Same result'
  | .error e, .error e' => e = e'
  | _, _ => False

/-- A call returns the same for its lists in any order. -/
def OrderFree (linker : Linker) (context : LinkContext) (rules : List LinkRule) (now : ℤ)
    (incoming : List Fact) : Prop :=
  ∀ recent known rules' incoming', context.recentFacts.Perm recent → context.knownEvents.Perm known →
    rules.Perm rules' → incoming.Perm incoming' →
    SameLinked (linker.link context rules now incoming)
      (linker.link (context.relist recent known) rules' now incoming')

/-- When the IPO mandates of a call are attached, two known events compete for one of them. -/
def Ties (linker : Linker) (context : LinkContext) (rules : List LinkRule) (now : ℤ)
    (incoming : List Fact) : Prop :=
  ∃ s, (arrivals incoming).foldlM (linkStep (linker.env context rules now incoming))
      (start (linker.env context rules now incoming) (recentOf context incoming)) = .ok s ∧
    ∃ ms m rest, s.pendingIpoMandates = ms ++ m :: rest ∧
      IpoTie (linker.env context rules now incoming) context.openIds context.closedIds
        (ms.foldl (attachStep (linker.env context rules now incoming)) s) m

section Calls

variable {linker : Linker} {context : LinkContext} {rules rules' : List LinkRule} {now : ℤ}
  {incoming incoming' recent : List Fact} {known : List Event}

/-- A call in its two parts: the loop over the facts, then the IPO mandates. -/
theorem link_eq : linker.link context rules now incoming =
    ((arrivals incoming).foldlM (linkStep (linker.env context rules now incoming))
      (start (linker.env context rules now incoming) (recentOf context incoming))).map fun s =>
        (attachIpoMandates (linker.env context rules now incoming) s).result
          (linker.env context rules now incoming) := by
  unfold Linker.link Linker.linked
  dsimp only
  cases (arrivals incoming).foldlM (linkStep (linker.env context rules now incoming))
    (start (linker.env context rules now incoming) (recentOf context incoming)) <;> rfl

/-- A call with other lists runs the same loop from another beginning. -/
theorem link_relist (h : Orderly context rules incoming) (hrules : rules.Perm rules')
    (hrecent : context.recentFacts.Perm recent) (hincoming : incoming.Perm incoming') :
    linker.link (context.relist recent known) rules' now incoming' =
      ((arrivals incoming).foldlM (linkStep (linker.env context rules now incoming))
        (start ((linker.env context rules now incoming).relist recent known)
          (recentOf context incoming))).map fun s =>
            (attachIpoMandates (linker.env context rules now incoming) s).result
              ((linker.env context rules now incoming).relist recent known) := by
  have hfacts : ∀ f ∈ context.recentFacts, ∀ g ∈ context.recentFacts, f.factId = g.factId → f = g :=
    fun f hf g hg => h.facts f (List.mem_append_left _ hf) g (List.mem_append_left _ hg)
  have hincomings : ∀ f ∈ incoming, ∀ g ∈ incoming, f.factId = g.factId → f = g :=
    fun f hf g hg => h.facts f (List.mem_append_right _ hf) g (List.mem_append_right _ hg)
  rw [link_eq, env_relist h hrules hrecent hincoming, ← recentOf_congr known hrecent hincoming hfacts,
    ← arrivals_congr hincoming hincomings, linkStep_relist]
  unfold attachIpoMandates
  rw [attachStep_relist]

variable (linker now recent)

/-- The loops of both calls fail in the same way, or end in states that agree. -/
theorem loops_agree (h : Orderly context rules incoming) (hknown : context.knownEvents.Perm known) :
    AgreeOk (context.openIds ++ context.closedIds)
      (context.openIds ++ (context.relist recent known).closedIds)
      ((arrivals incoming).foldlM (linkStep (linker.env context rules now incoming))
        (start (linker.env context rules now incoming) (recentOf context incoming)))
      ((arrivals incoming).foldlM (linkStep (linker.env context rules now incoming))
        (start ((linker.env context rules now incoming).relist recent known)
          (recentOf context incoming))) :=
  foldlM_agrees (start_agrees (linker.env context rules now incoming) h hknown _) _

/-- States that agree return the same. -/
theorem result_congr (h : Orderly context rules incoming) (hknown : context.knownEvents.Perm known)
    {ids ids' : List JsString} {s s' : Run} (hs : s.Agrees ids ids' s') :
    s.result (linker.env context rules now incoming) =
      s'.result ((linker.env context rules now incoming).relist recent known) := by
  have htable (id : JsString) : context.table.events.get? id =
      (context.relist recent known).table.events.get? id :=
    (startTable_agrees (linker.env context rules now incoming) h hknown).events id
  have hold : (linker.env context rules now incoming).context = context := rfl
  have hold' : ((linker.env context rules now incoming).relist recent known).context =
      context.relist recent known := rfl
  unfold Run.result
  simp only [hold, hold', htable, hs.changed, hs.reviews,
    show s.events.get? = s'.events.get? from funext hs.events]

variable {linker now recent}

theorem linkSteps_wellFormed {env : Env} {list : List Fact} {s s' : Run} (hs : s.WellFormed)
    (hsteps : list.foldlM (linkStep env) s = .ok s') : s'.WellFormed := by
  induction list generalizing s with
  | nil =>
    rw [List.foldlM_nil, pure_eq_ok, Except.ok.injEq] at hsteps
    exact hsteps ▸ hs
  | cons f list ih =>
    rw [List.foldlM_cons, bind_eq_ok] at hsteps
    obtain ⟨t, ht, hsteps⟩ := hsteps
    have hstable : Stable env f fun s => s.WellFormed := by
      refine ⟨fun h e => h.put e, fun h _ => h, fun h _ => h, fun h _ => h, fun {s} h => ?_⟩
      unfold Run.done
      dsimp only
      split_ifs <;> exact h
    exact ih (linkStep_stable hstable (fun h => h) hs ht) hsteps

/-- The IPO mandates a loop notes are some of its facts. -/
theorem linkSteps_pending {env : Env} {list : List Fact} {s s' : Run}
    (hsteps : list.foldlM (linkStep env) s = .ok s') :
    ∃ noted, noted.Sublist list ∧ s'.pendingIpoMandates = s.pendingIpoMandates ++ noted := by
  induction list generalizing s with
  | nil =>
    rw [List.foldlM_nil, pure_eq_ok, Except.ok.injEq] at hsteps
    exact ⟨[], .refl _, by rw [← hsteps, List.append_nil]⟩
  | cons f list ih =>
    rw [List.foldlM_cons, bind_eq_ok] at hsteps
    obtain ⟨t, ht, hsteps⟩ := hsteps
    obtain ⟨noted, hsub, hnoted⟩ := ih hsteps
    rcases linkStep_pending ht with hkept | hadded
    · exact ⟨noted, hsub.cons f, by rw [hnoted, hkept]⟩
    · exact ⟨f :: noted, hsub.cons_cons f, by rw [hnoted, hadded, List.append_assoc]; rfl⟩

theorem start_pending (env : Env) (recent : List Fact) : (start env recent).pendingIpoMandates = [] := by
  unfold start
  exact List.foldlRecOn recent _ (motive := fun s : Run => s.pendingIpoMandates = []) rfl
    fun s hs f _ => hs

theorem nodup_map_arrivals (incoming : List Fact) : ((arrivals incoming).map Fact.factId).Nodup := by
  have hperm : (arrivals incoming).Perm (firstById incoming) := List.perm_insertionSort _ _
  exact (hperm.map _).nodup_iff.mpr (nodup_map_firstById incoming)

theorem attachSteps_wellFormed {env : Env} {s : Run} (hs : s.WellFormed) (list : List Fact) :
    (list.foldl (attachStep env) s).WellFormed :=
  List.foldlRecOn list _ (motive := fun s : Run => s.WellFormed) hs fun _ hs _ _ =>
    attachStep_wellFormed hs

/-- What a call returns of the events it changed. -/
theorem mem_result_iff (env : Env) {s : Run} {e : Event} :
    (e ∈ (s.result env).created ∨ e ∈ (s.result env).updated) ↔
      ∃ id ∈ s.changed, s.events.get? id = some e := by
  unfold Run.result
  simp only [List.mem_filterMap, List.mem_filter, Bool.not_eq_true', and_assoc]
  constructor
  · rintro (⟨id, hid, -, he⟩ | ⟨id, hid, -, he⟩)
    · exact ⟨id, hid, he⟩
    · exact ⟨id, hid, he⟩
  · rintro ⟨id, hid, he⟩
    cases hold : (env.context.table.events.get? id).isSome with
    | true => exact .inr ⟨id, hid, hold, he⟩
    | false => exact .inl ⟨id, hid, hold, he⟩

theorem orderFree_of_not_ties (h : Orderly context rules incoming)
    (hties : ¬ Ties linker context rules now incoming) : OrderFree linker context rules now incoming := by
  intro recent known rules' incoming' hrecent hknown hrules hincoming
  have hloops := loops_agree linker now recent h hknown
  rw [link_eq, link_relist h hrules hrecent hincoming]
  revert hloops
  cases hs : (arrivals incoming).foldlM (linkStep (linker.env context rules now incoming))
      (start (linker.env context rules now incoming) (recentOf context incoming)) with
  | error e =>
    cases (arrivals incoming).foldlM (linkStep (linker.env context rules now incoming))
        (start ((linker.env context rules now incoming).relist recent known)
          (recentOf context incoming)) with
    | error e' => exact id
    | ok s' => exact False.elim
  | ok s =>
    cases (arrivals incoming).foldlM (linkStep (linker.env context rules now incoming))
        (start ((linker.env context rules now incoming).relist recent known)
          (recentOf context incoming)) with
    | error e' => exact False.elim
    | ok s' =>
      intro hagrees
      have hattached : (attachIpoMandates (linker.env context rules now incoming) s).Agrees
          (context.openIds ++ context.closedIds)
          (context.openIds ++ (context.relist recent known).closedIds)
          (attachIpoMandates (linker.env context rules now incoming) s') := by
        unfold attachIpoMandates
        rw [← hagrees.pendingIpoMandates]
        refine attachSteps_agree hagrees (closedIds_perm hknown) fun ms m rest hpending htie => ?_
        exact hties ⟨s, hs, ms, m, rest, hpending, htie⟩
      have hresult := result_congr linker now recent h hknown hattached
      have hsame (result result' : LinkResult) (heq : result = result') : result.Same result' :=
        heq ▸ ⟨fun _ => .rfl, fun _ => .rfl, fun _ => .rfl⟩
      exact hsame _ _ hresult

theorem not_orderFree_of_ties (h : Orderly context rules incoming)
    (hties : Ties linker context rules now incoming) : ¬ OrderFree linker context rules now incoming := by
  intro hfree
  obtain ⟨s, hs, htie⟩ := hties
  have hwell := linkSteps_wellFormed (start_wellFormed _ _) hs
  have hpending : (s.pendingIpoMandates.map Fact.factId).Nodup := by
    obtain ⟨noted, hsub, hnoted⟩ := linkSteps_pending hs
    rw [hnoted, start_pending, List.nil_append]
    exact (hsub.map _).nodup (nodup_map_arrivals incoming)
  obtain ⟨new, hkeys, -⟩ : ∃ new, s.events.keys = context.openIds ++ context.closedIds ++ new ∧ True := by
    have hself := loops_agree linker now context.recentFacts h (.refl _)
    rw [hs] at hself
    revert hself
    cases (arrivals incoming).foldlM (linkStep (linker.env context rules now incoming))
        (start ((linker.env context rules now incoming).relist context.recentFacts context.knownEvents)
          (recentOf context incoming)) with
    | error e => exact False.elim
    | ok s' =>
      intro hself
      obtain ⟨new, hkeys, -⟩ := hself.keys
      exact ⟨new, hkeys, trivial⟩
  obtain ⟨m, t, known, hknown, hdiffer⟩ := @exists_order_differ _ _ context.openIds _ _ _ hwell hpending
    (fun known' hperm => (hperm.map _).filter _) hkeys htie
  have hloops := loops_agree linker now context.recentFacts h hknown
  have hsame := hfree context.recentFacts known rules incoming (.refl _) hknown (.refl _) (.refl _)
  rw [link_eq, link_relist h (.refl _) (.refl _) (.refl _)] at hsame
  rw [hs] at hsame hloops
  revert hsame hloops
  cases hs' : (arrivals incoming).foldlM (linkStep (linker.env context rules now incoming))
      (start ((linker.env context rules now incoming).relist context.recentFacts known)
        (recentOf context incoming)) with
  | error e => exact False.elim
  | ok s' =>
    intro hagrees (hsame : LinkResult.Same _ _)
    have hwell' := linkSteps_wellFormed (start_wellFormed _ _) hs'
    rw [closedIds_relist hknown] at hagrees
    obtain ⟨⟨e, he, hleg⟩, hchanged, -, hno⟩ := hdiffer s' hwell' hagrees
    refine hno ?_
    -- the event with the mandate is returned by both calls
    have hreturned := (mem_result_iff (linker.env context rules now incoming)).mpr ⟨t, hchanged, he⟩
    obtain ⟨id, -, he'⟩ := (mem_result_iff _).mp
      (hreturned.imp (hsame.created e).mp (hsame.updated e).mp)
    unfold attachIpoMandates at he'
    have hid : id = t := by
      rw [← (attachSteps_wellFormed hwell' _).named he', ← (attachSteps_wellFormed hwell _).named he]
    rw [← hagrees.pendingIpoMandates, hid] at he'
    exact ⟨e, he', hleg⟩

end Calls

/-- The account the holds of two IPO applications are placed on. -/
def ipoAccount : Instrument where
  instrumentId := js "account"
  kind := .bankAccount
  issuerSlug := js "hdfc"
  maskDigits := some (js "1111")
  status := .confirmed

/-- A hold of 14,900 rupees on the account. -/
def ipoHold (id : String) : Fact where
  factId := js id
  sourceKey := js ("bank:" ++ id)
  observedAt := 1000
  instrument := some { kind := some .bankAccount, issuerSlug := some (js "hdfc"),
                       maskDigits := some (js "1111") }
  amounts := [⟨.held, 1490000, js "INR", none⟩]
  ruleId := js "asba-hold"
  attrs := .hold .placed .ipoAsba none

/-- The application the hold is for. -/
def ipoApplication (id : String) : Event where
  eventId := js id
  type := .ipoApplication
  status := .complete
  legs := [⟨js id, .holdPlaced⟩]
  linkRuleId := some (js "LINK-IPO")
  confidence := 1
  occurredAt := 1000
  amountMinor := 0

/-- The mandate of one of the applications. -/
def ipoMandate : Fact where
  factId := js "mandate"
  sourceKey := js "upi:mandate"
  observedAt := 2000
  instrument := some { kind := some .bankAccount, issuerSlug := some (js "hdfc"),
                       maskDigits := some (js "1111") }
  amounts := [⟨.ceiling, 1490000, js "INR", none⟩]
  ruleId := js "ipo-mandate"
  attrs := .mandate .created none (some true) (some .ipo)

/-- Two applications are known. -/
def ipoContext : LinkContext where
  recentFacts := [ipoHold "first", ipoHold "second"]
  openEvents := []
  instrumentsById := InsertionMap.empty.set (js "account") ipoAccount
  rulePart := some { knownEvents := [ipoApplication "first", ipoApplication "second"] }

/-- An application with the mandate. -/
def mandatedApplication (id : String) : Event :=
  { ipoApplication id with legs := [⟨js id, .holdPlaced⟩, ⟨js "mandate", .original⟩] }

end PandaPay.SmsV2
