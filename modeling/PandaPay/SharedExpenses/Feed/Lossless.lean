import PandaPay.SharedExpenses.Feed.Pull

/-!
# What a client of the feed receives

## Main results

* `text_lt_iff`: the order of record keys
* `decodeCursor_cursorOf`: a cursor stands for the place of its row
* `projectionFeed_eq`: the limits of the branches of the query do not matter
* `lossless_iff`: when a client receives every change, for pages of every size
-/

namespace PandaPay.SharedExpenses.Feed

/-! ### Record keys -/

/-- The name of a branch starts with the two digits of its rank. -/
theorem name_eq (kind : RecordKind) : ∃ rest, js kind.name =
    digitUnit (kind.rank / 10) :: digitUnit (kind.rank % 10) :: rest := by
  cases kind <;> exact ⟨_, rfl⟩

theorem rank_lt (kind : RecordKind) : kind.rank < 100 := by
  cases kind <;> decide

theorem rank_injective : Function.Injective RecordKind.rank := by
  intro a b h
  cases a <;> cases b <;> first | rfl | cases h

theorem digitUnit_lt_iff {c d : ℕ} (hc : c < 10) (hd : d < 10) :
    digitUnit c < digitUnit d ↔ c < d := by
  rw [Fin.lt_def, val_digitUnit hc, val_digitUnit hd]
  omega

theorem digitUnit_inj {c d : ℕ} (hc : c < 10) (hd : d < 10) (h : digitUnit c = digitUnit d) :
    c = d := by
  have := congrArg Fin.val h
  rw [val_digitUnit hc, val_digitUnit hd] at this
  omega

/-- Texts of branches with different ranks compare by rank. -/
theorem name_append_lt {a b : RecordKind} (h : a.rank < b.rank) (x y : JsString) :
    js a.name ++ x < js b.name ++ y := by
  obtain ⟨rest, ha⟩ := name_eq a
  obtain ⟨rest', hb⟩ := name_eq b
  have hlta := rank_lt a
  have hltb := rank_lt b
  rw [ha, hb, List.cons_append, List.cons_append, List.cons_append, List.cons_append,
    List.cons_lt_cons_iff, List.cons_lt_cons_iff, digitUnit_lt_iff (by omega) (by omega),
    digitUnit_lt_iff (by omega) (by omega)]
  by_cases htens : a.rank / 10 < b.rank / 10
  · exact .inl htens
  · have heq : a.rank / 10 = b.rank / 10 := by omega
    exact .inr ⟨by rw [heq], .inl (by omega)⟩

theorem length_uuid (id : Uuid) : id.val.length = 36 := by
  have h := id.property
  rw [isUuid, Bool.and_eq_true, decide_eq_true_eq] at h
  exact h.1

/-- The ids of two keys of one branch compare as their texts do. -/
theorem flatMap_ids_lt_iff {xs ys : List Uuid} (h : xs.length = ys.length) :
    (xs.flatMap fun id => js ":" ++ id.val) < (ys.flatMap fun id => js ":" ++ id.val) ↔
      xs < ys := by
  induction xs generalizing ys with
  | nil =>
    obtain rfl := List.length_eq_zero_iff.mp h.symm
    simp
  | cons x xs ih =>
    obtain ⟨y, ys, rfl⟩ := List.exists_cons_of_length_pos (by rw [← h]; simp : 0 < ys.length)
    have hlength : (js ":" ++ x.val).length = (js ":" ++ y.val).length := by
      rw [List.length_append, List.length_append, length_uuid, length_uuid]
    rw [List.flatMap_cons, List.flatMap_cons, append_lt_append_iff hlength,
      ih (Nat.succ.inj h), List.cons_lt_cons_iff, append_lt_append_iff rfl,
      List.append_cancel_left_eq]
    simp [Subtype.ext_iff]

/-- Record keys are ordered by branch, then by ids. -/
theorem text_lt_iff {a b : RecordKey} : a.text < b.text ↔
    a.kind.rank < b.kind.rank ∨ a.kind = b.kind ∧ a.ids < b.ids := by
  rcases lt_trichotomy a.kind.rank b.kind.rank with h | h | h
  · exact iff_of_true (name_append_lt h _ _) (.inl h)
  · have hkind := rank_injective h
    have hlength : a.ids.length = b.ids.length := by rw [a.arity, b.arity, hkind]
    rw [RecordKey.text, RecordKey.text, hkind, append_lt_append_iff rfl,
      flatMap_ids_lt_iff hlength]
    simp
  · refine iff_of_false (not_lt_of_gt (name_append_lt h _ _)) ?_
    rintro (hlt | ⟨hkind, -⟩)
    · omega
    · rw [hkind] at h
      exact lt_irrefl _ h

/-! ### Cursors -/

theorem readUuid_append (id : Uuid) (rest : JsString) :
    readUuid (id.val ++ rest) = some (id, rest) := by
  have htake : (id.val ++ rest).take 36 = id.val := List.take_left' (length_uuid id)
  have hdrop : (id.val ++ rest).drop 36 = rest := List.drop_left' (length_uuid id)
  rw [readUuid, dif_pos (by rw [htake]; exact id.property)]
  simp only [htake, hdrop, Subtype.coe_eta]

theorem readIds_flatMap (ids : List Uuid) :
    readIds ids.length (ids.flatMap fun id => js ":" ++ id.val) = some ids := by
  induction ids with
  | nil => rfl
  | cons id ids ih =>
    rw [List.flatMap_cons, List.length_cons, readIds, List.append_assoc]
    have hprefix : (js ":").isPrefixOf (js ":" ++ (id.val ++ ids.flatMap fun id => js ":" ++ id.val))
        = true := by
      rw [List.isPrefixOf_iff_prefix]
      exact List.prefix_append _ _
    have hdrop : (js ":" ++ (id.val ++ ids.flatMap fun id => js ":" ++ id.val)).drop 1 =
        id.val ++ ids.flatMap fun id => js ":" ++ id.val := rfl
    rw [if_pos hprefix, hdrop, readUuid_append]
    simp only [ih, Option.map_some]

/-- Only the branch of a key has a name that its text starts with. -/
theorem isPrefixOf_text {kind : RecordKind} {key : RecordKey} :
    (js kind.name).isPrefixOf key.text = true ↔ kind = key.kind := by
  rw [List.isPrefixOf_iff_prefix]
  constructor
  · intro h
    obtain ⟨rest, hkind⟩ := name_eq kind
    obtain ⟨rest', hkey⟩ := name_eq key.kind
    rw [RecordKey.text, hkind, hkey, List.cons_append, List.cons_append, List.cons_prefix_cons,
      List.cons_prefix_cons] at h
    have hlt := rank_lt kind
    have hlt' := rank_lt key.kind
    have htens := digitUnit_inj (by omega) (by omega) h.1
    have hunits := digitUnit_inj (by omega) (by omega) h.2.1
    exact rank_injective (by omega)
  · rintro rfl
    exact List.prefix_append _ _

theorem readKey_text (key : RecordKey) : readKey key.text = some (key.kind, key.ids) := by
  have hread : ∀ kind : RecordKind, (if (js kind.name).isPrefixOf key.text then
      (readIds kind.arity (key.text.drop (js kind.name).length)).map (kind, ·) else none) =
        if kind = key.kind then some (key.kind, key.ids) else none := by
    intro kind
    by_cases h : kind = key.kind
    · have hdrop : key.text.drop (js key.kind.name).length =
          key.ids.flatMap fun id => js ":" ++ id.val := List.drop_left' rfl
      rw [if_pos (isPrefixOf_text.mpr h), if_pos h, h, hdrop, ← key.arity, readIds_flatMap]
      rfl
    · rw [if_neg (fun hp => h (isPrefixOf_text.mp hp)), if_neg h]
  rw [readKey, funext hread]
  cases key.kind <;> rfl

theorem length_text_le (key : RecordKey) : key.text.length ≤ 128 := by
  have hids : ∀ ids : List Uuid,
      (ids.flatMap fun id => js ":" ++ id.val).length = 37 * ids.length := by
    intro ids
    induction ids with
    | nil => rfl
    | cons id ids ih =>
      have hcolon : (js ":").length = 1 := rfl
      rw [List.flatMap_cons, List.length_append, ih, List.length_append, length_uuid,
        List.length_cons, hcolon]
      omega
  have hname : (js key.kind.name).length ≤ 12 := by cases key.kind <;> decide
  have harity : key.kind.arity ≤ 2 := by cases key.kind <;> decide
  rw [RecordKey.text, List.length_append, hids, key.arity]
  omega

/-- A cursor stands for the place of its row. -/
theorem decodeCursor_cursorOf {r : FeedRecord} (h : r.profileSequence ≤ 9007199254740991) :
    decodeCursor (some (cursorOf r)) =
      .ok ⟨r.profileSequence, r.key.kind.rank, r.key.ids⟩ := by
  have hlength : (decimal r.profileSequence).length ≤ 16 := length_decimal_le (by omega) (by omega)
  have htext := length_text_le r.key
  rw [cursorOf, decodeCursor]
  simp only [sequence, isUnsigned_decimal, unsignedValue_decimal, readKey_text]
  rw [failIf_bind_eq_ok]
  refine ⟨by omega, ?_⟩
  rw [failIf, if_neg (by simp; omega)]
  rfl

/-! ### The changes of an event -/

section Changes

variable {db : Db} {actorId : Uuid} {p : VisibleEvent} {kind : RecordKind}

/-- The records belong to the event and to the branch, and have distinct ids. -/
structure Shaped (p : VisibleEvent) (kind : RecordKind) (records : List FeedRecord) : Prop where
  sequence : ∀ r ∈ records, r.profileSequence = p.profileSequence
  kind : ∀ r ∈ records, r.key.kind = kind
  nodup : (records.map fun r => r.key.ids).Nodup

theorem Shaped.nil : Shaped p kind [] := ⟨nofun, nofun, List.nodup_nil⟩

theorem Shaped.singleton {r : FeedRecord} (hsequence : r.profileSequence = p.profileSequence)
    (hkind : r.key.kind = kind) : Shaped p kind [r] where
  sequence := by
    intro r' hr'
    rw [List.mem_singleton.mp hr', hsequence]
  kind := by
    intro r' hr'
    rw [List.mem_singleton.mp hr', hkind]
  nodup := List.nodup_singleton _

theorem Shaped.map {α : Type} {xs : List α} {f : α → FeedRecord} (hxs : xs.Nodup)
    (hsequence : ∀ x ∈ xs, (f x).profileSequence = p.profileSequence)
    (hkind : ∀ x ∈ xs, (f x).key.kind = kind)
    (hids : ∀ x ∈ xs, ∀ y ∈ xs, (f x).key.ids = (f y).key.ids → x = y) :
    Shaped p kind (xs.map f) where
  sequence := List.forall_mem_map.mpr hsequence
  kind := List.forall_mem_map.mpr hkind
  nodup := by
    rw [List.map_map]
    exact List.Nodup.map_on hids hxs

/-- The rows of one context are told apart by the second part of their key. -/
theorem eq_of_snd_eq {ν : Type} {m : InsertionMap (Uuid × Uuid) ν} {q : (Uuid × Uuid) × ν → Prop}
    {contextId : Uuid} [DecidablePred q] {a b : (Uuid × Uuid) × ν}
    (ha : a ∈ m.entries.filter fun e => e.1.1 = contextId ∧ q e)
    (hb : b ∈ m.entries.filter fun e => e.1.1 = contextId ∧ q e) (h : a.1.2 = b.1.2) : a = b := by
  rw [List.mem_filter, decide_eq_true_eq] at ha hb
  exact List.inj_on_of_nodup_map m.nodup_keys ha.1 hb.1
    (Prod.ext (ha.2.1.trans hb.2.1.symm) h)

theorem shaped_candidates (db : Db) (actorId : Uuid) (p : VisibleEvent) (kind : RecordKind) :
    Shaped p kind (candidates db actorId p kind) := by
  cases kind with
  | context =>
    rw [candidates]
    split
    · exact .nil
    · exact .singleton rfl rfl
  | member =>
    rw [candidates]
    split_ifs
    · exact .nil
    · refine .map (db.members.nodup_entries.filter _) (fun _ _ => rfl) (fun _ _ => rfl) ?_
      intro a ha b hb hab
      exact eq_of_snd_eq ha hb (List.singleton_inj.mp hab)
  | expense =>
    rw [candidates]
    split_ifs
    · exact .nil
    · refine .map (db.expenses.nodup_entries.filter _) (fun _ _ => rfl) (fun _ _ => rfl) ?_
      intro a ha b hb hab
      exact eq_of_snd_eq ha hb (List.singleton_inj.mp hab)
  | revision =>
    rw [candidates]
    split
    · exact .nil
    · split_ifs
      · exact .nil
      · split
        · exact .nil
        · exact .singleton rfl rfl
  | balance =>
    rw [candidates]
    split_ifs
    · exact .nil
    · refine .map ?_ (fun _ _ => rfl) (fun _ _ => rfl) ?_
      · unfold balancePairs
        split_ifs
        · refine List.Nodup.map_on ?_ (db.pairBalances.nodup_keys.filter _)
          intro a ha b hb hab
          rw [List.mem_filter, decide_eq_true_eq] at ha hb
          exact Prod.ext (ha.2.trans hb.2.symm) hab
        · exact List.nodup_dedup _
      · intro a _ b _ hab
        have hids : [a.1, a.2] = [b.1, b.2] := hab
        rw [List.cons.injEq, List.singleton_inj] at hids
        exact Prod.ext hids.1 hids.2
  | cost =>
    rw [candidates]
    split_ifs
    · exact .nil
    · refine .map (db.privateCostFacts.nodup_entries.filter _) (fun _ _ => rfl) (fun _ _ => rfl) ?_
      intro a ha b hb hab
      exact eq_of_snd_eq ha hb (List.singleton_inj.mp hab)
  | activity =>
    rw [candidates]
    split
    · exact .nil
    · split_ifs
      · exact .nil
      · exact .singleton rfl rfl
  | revoked =>
    rw [candidates]
    split_ifs
    · exact .nil
    · exact .singleton rfl rfl
  | granted =>
    rw [candidates]
    split_ifs
    · exact .singleton rfl rfl
    · exact .nil

/-- The place of a record in the feed. -/
def FeedRecord.position (r : FeedRecord) : ℕ ×ₗ JsString := toLex (r.profileSequence, r.key.text)

theorem position_lt_iff {a b : FeedRecord} : a.position < b.position ↔
    a.profileSequence < b.profileSequence ∨
      a.profileSequence = b.profileSequence ∧ a.key.text < b.key.text :=
  Prod.Lex.toLex_lt_toLex

theorem order_lt_iff {a b : FeedRecord} : a.order < b.order ↔
    decimal a.profileSequence < decimal b.profileSequence ∨
      decimal a.profileSequence = decimal b.profileSequence ∧ a.key.text < b.key.text :=
  Prod.Lex.toLex_lt_toLex

theorem pairwise_rank : RecordKind.all.Pairwise fun a b => a.rank < b.rank := by decide

theorem mem_all (kind : RecordKind) : kind ∈ RecordKind.all := by cases kind <;> decide

theorem mem_changesOf {r : FeedRecord} : r ∈ changesOf db actorId p ↔
    ∃ kind, r ∈ candidates db actorId p kind := by
  simp only [changesOf, List.mem_flatMap, mem_sortBy]
  exact ⟨fun ⟨kind, _, hr⟩ => ⟨kind, hr⟩, fun ⟨kind, hr⟩ => ⟨kind, mem_all kind, hr⟩⟩

theorem sequence_of_mem_changesOf {r : FeedRecord} (h : r ∈ changesOf db actorId p) :
    r.profileSequence = p.profileSequence := by
  obtain ⟨kind, hr⟩ := mem_changesOf.mp h
  exact (shaped_candidates db actorId p kind).sequence r hr

/-- The changes of an event come in the order of their keys. -/
theorem pairwise_changesOf (db : Db) (actorId : Uuid) (p : VisibleEvent) :
    (changesOf db actorId p).Pairwise fun a b => a.key.text < b.key.text := by
  rw [changesOf, List.pairwise_flatMap]
  constructor
  · intro kind _
    have hshaped := shaped_candidates db actorId p kind
    have hsorted := pairwise_sortBy (fun r : FeedRecord => r.key.ids)
      (candidates db actorId p kind)
    have hnodup : ((sortBy (fun r : FeedRecord => r.key.ids)
        (candidates db actorId p kind)).map fun r => r.key.ids).Nodup :=
      ((sortBy_perm _ _).map _).nodup_iff.mpr hshaped.nodup
    refine (hsorted.and (List.pairwise_map.mp hnodup)).imp_of_mem ?_
    rintro a b ha hb ⟨hle, hne⟩
    rw [mem_sortBy] at ha hb
    rw [text_lt_iff]
    exact .inr ⟨(hshaped.kind a ha).trans (hshaped.kind b hb).symm, lt_of_le_of_ne hle hne⟩
  · refine pairwise_rank.imp ?_
    intro kind kind' hrank a ha b hb
    rw [mem_sortBy] at ha hb
    rw [text_lt_iff, (shaped_candidates db actorId p kind).kind a ha,
      (shaped_candidates db actorId p kind').kind b hb]
    exact .inl hrank

/-- Every event has a change: its context, or the revocation of it. -/
theorem changesOf_ne_nil (db : Db) (actorId : Uuid) (p : VisibleEvent) :
    changesOf db actorId p ≠ [] := by
  have hsome : ∃ kind, candidates db actorId p kind ≠ [] := by
    cases hcontext : p.context with
    | none => exact ⟨.revoked, by simp [candidates, VisibleEvent.readable, hcontext]⟩
    | some c => exact ⟨.context, by simp [candidates, hcontext]⟩
  obtain ⟨kind, hkind⟩ := hsome
  obtain ⟨r, hr⟩ := List.exists_mem_of_ne_nil _ hkind
  exact List.ne_nil_of_mem (mem_changesOf.mpr ⟨kind, hr⟩)

/-! ### The stream -/

/-- The events of the stream come in the order of their sequences. -/
theorem pairwise_stream (db : Db) (actorId : Uuid) :
    (stream db actorId).Pairwise fun p q => p.profileSequence < q.profileSequence := by
  have hsorted := pairwise_sortBy (Prod.fst : ℕ × Uuid × ℕ → ℕ) db.profileEvents.entries
  have hnodup : ((sortBy (Prod.fst : ℕ × Uuid × ℕ → ℕ) db.profileEvents.entries).map
      Prod.fst).Nodup := ((sortBy_perm _ _).map _).nodup_iff.mpr db.profileEvents.nodup_keys
  rw [stream, List.pairwise_map]
  exact (hsorted.and (List.pairwise_map.mp hnodup)).imp fun h => lt_of_le_of_ne h.1 h.2

theorem sequence_bounds_of_mem_stream (h : p ∈ stream db actorId) :
    1 ≤ p.profileSequence ∧ p.profileSequence ≤ 9007199254740991 := by
  obtain ⟨e, he, rfl⟩ := List.mem_map.mp h
  exact db.sequence_bounds e.1 (List.mem_map_of_mem (mem_sortBy.mp he))

/-- The visible changes come in the order of their places, so there is none twice. -/
theorem pairwise_visibleChanges (db : Db) (actorId : Uuid) :
    (visibleChanges db actorId).Pairwise fun a b => a.position < b.position := by
  rw [visibleChanges, List.pairwise_flatMap]
  constructor
  · intro p _
    refine (pairwise_changesOf db actorId p).imp_of_mem ?_
    intro a b ha hb hlt
    rw [position_lt_iff, sequence_of_mem_changesOf ha, sequence_of_mem_changesOf hb]
    exact .inr ⟨rfl, hlt⟩
  · refine (pairwise_stream db actorId).imp ?_
    intro p q hlt a ha b hb
    rw [position_lt_iff, sequence_of_mem_changesOf ha, sequence_of_mem_changesOf hb]
    exact .inl hlt

/-! ### A page of rows -/

/-- Whether a record comes after the place a keyset stands for. -/
theorem admits_iff {k : Keyset} {r : FeedRecord} : k.admits r = true ↔
    k.afterSequence < r.profileSequence ∨ k.rank < r.key.kind.rank ∨
      (k.rank = r.key.kind.rank ∧ k.ids < r.key.ids) := by
  simp [Keyset.admits, or_assoc]

/-- The rows of a window that a keyset admits. -/
def windowRows (db : Db) (actorId : Uuid) (k : Keyset) : List FeedRecord :=
  (selectedEvents db actorId k).flatMap fun p => (changesOf db actorId p).filter k.admits

theorem selectedEvents_sublist (k : Keyset) :
    (selectedEvents db actorId k).Sublist (stream db actorId) :=
  (List.take_sublist _ _).trans List.filter_sublist

theorem order_injOn {a b : FeedRecord} (h : a.order = b.order) : a.position = b.position := by
  have h' := toLex_inj.mp h
  rw [Prod.mk.injEq] at h'
  rw [FeedRecord.position, FeedRecord.position, decimal_injective h'.1, h'.2]

theorem windowRows_sublist (k : Keyset) :
    (windowRows db actorId k).Sublist (visibleChanges db actorId) := by
  refine List.Sublist.trans ?_ ((selectedEvents_sublist k).flatMap (changesOf db actorId))
  exact List.Sublist.flatMap_right _ fun _ _ => List.filter_sublist

theorem nodup_order_windowRows (k : Keyset) :
    ((windowRows db actorId k).map FeedRecord.order).Nodup := by
  have hsorted := (pairwise_visibleChanges db actorId).sublist (windowRows_sublist k)
  rw [List.nodup_iff_pairwise_ne, List.pairwise_map]
  exact hsorted.imp fun hlt heq => absurd (order_injOn heq) hlt.ne

/-- The branch for an event is a branch of the whole union, cut to its first rows. -/
theorem branch_eq (k : Keyset) (limit : ℕ) (p : VisibleEvent) (kind : RecordKind) :
    branch db actorId k limit p kind =
      (sortBy FeedRecord.order ((candidates db actorId p kind).filter k.admits)).take limit := by
  have hshaped := shaped_candidates db actorId p kind
  rw [branch]
  congr 1
  symm
  refine sortBy_eq (sortBy_perm _ _).symm ?_
  have hsorted := pairwise_sortBy (fun r : FeedRecord => r.key.ids)
    ((candidates db actorId p kind).filter k.admits)
  have hnodup : ((sortBy (fun r : FeedRecord => r.key.ids)
      ((candidates db actorId p kind).filter k.admits)).map fun r => r.key.ids).Nodup :=
    ((sortBy_perm _ _).map _).nodup_iff.mpr (hshaped.nodup.sublist (List.filter_sublist.map _))
  refine (hsorted.and (List.pairwise_map.mp hnodup)).imp_of_mem ?_
  rintro a b ha hb ⟨hle, hne⟩
  rw [mem_sortBy] at ha hb
  have ha' := List.mem_of_mem_filter ha
  have hb' := List.mem_of_mem_filter hb
  rw [order_lt_iff, hshaped.sequence a ha', hshaped.sequence b hb', text_lt_iff,
    hshaped.kind a ha', hshaped.kind b hb']
  exact .inr ⟨rfl, .inr ⟨rfl, lt_of_le_of_ne hle hne⟩⟩

/-- The limits of the branches do not matter: a page starts with the first rows of the window. -/
theorem projectionFeed_eq (k : Keyset) (limit : ℕ) : projectionFeed db actorId k limit =
    (sortBy FeedRecord.order (windowRows db actorId k)).take limit := by
  set parts := (selectedEvents db actorId k).flatMap fun p =>
    RecordKind.all.map fun kind => (p, kind) with hparts
  have hbranches : ((selectedEvents db actorId k).flatMap fun p =>
      RecordKind.all.flatMap (branch db actorId k limit p)) =
        (parts.flatMap fun i => (sortBy FeedRecord.order
          ((candidates db actorId i.1 i.2).filter k.admits)).take limit) ++ [] := by
    rw [List.append_nil, hparts, List.flatMap_assoc]
    refine List.flatMap_congr fun p _ => ?_
    rw [List.flatMap_map]
    exact List.flatMap_congr fun kind _ => branch_eq k limit p kind
  have hwindow : (parts.flatMap fun i => (candidates db actorId i.1 i.2).filter k.admits).Perm
      (windowRows db actorId k) := by
    rw [hparts, List.flatMap_assoc, windowRows]
    refine List.Perm.flatMap_left _ fun p _ => ?_
    rw [List.flatMap_map, changesOf, List.filter_flatMap]
    exact List.Perm.flatMap_left _ fun kind _ => ((sortBy_perm _ _).filter _).symm
  have hnodup : ((parts.flatMap fun i =>
      (candidates db actorId i.1 i.2).filter k.admits).map FeedRecord.order).Nodup :=
    (hwindow.map _).nodup_iff.mpr (nodup_order_windowRows k)
  rw [projectionFeed, hbranches, take_sortBy_flatMap _ _ _ _ (by rw [List.append_nil]; exact hnodup),
    List.append_nil, sortBy_congr hwindow hnodup]

/-! ### The place of a client -/

/-- The cursor after the changes received so far. -/
def cursorAfter (received : List FeedRecord) : Option Cursor := received.getLast?.map cursorOf

/-- The keyset that this cursor stands for. -/
def keysetAfter (received : List FeedRecord) : Keyset :=
  match received.getLast? with
  | none => ⟨0, -1, []⟩
  | some r => ⟨r.profileSequence, r.key.kind.rank, r.key.ids⟩

theorem sequence_bounds_of_mem {r : FeedRecord} (h : r ∈ visibleChanges db actorId) :
    ∃ p ∈ stream db actorId, r.profileSequence = p.profileSequence ∧
      r.profileSequence ≤ 9007199254740991 := by
  obtain ⟨p, hp, hr⟩ := List.mem_flatMap.mp h
  have hsequence := sequence_of_mem_changesOf hr
  exact ⟨p, hp, hsequence, hsequence ▸ (sequence_bounds_of_mem_stream hp).2⟩

variable {received rest : List FeedRecord}

theorem decodeCursor_cursorAfter (h : visibleChanges db actorId = received ++ rest) :
    decodeCursor (cursorAfter received) = .ok (keysetAfter received) := by
  rw [cursorAfter, keysetAfter]
  cases hlast : received.getLast? with
  | none => rfl
  | some r =>
    have hmem : r ∈ visibleChanges db actorId := by
      rw [h]
      exact List.mem_append_left _ (List.mem_of_getLast? hlast)
    obtain ⟨-, -, -, hbound⟩ := sequence_bounds_of_mem hmem
    exact decodeCursor_cursorOf hbound

/-- The keyset admits what comes after the changes received so far. -/
theorem filter_keysetAfter (h : visibleChanges db actorId = received ++ rest) :
    (visibleChanges db actorId).filter (fun r =>
      (keysetAfter received).afterSequence ≤ r.profileSequence ∧
        (keysetAfter received).admits r = true) = rest := by
  have hsorted := pairwise_visibleChanges db actorId
  rcases List.eq_nil_or_concat received with rfl | ⟨earlier, last, rfl⟩
  · have hall : ∀ r ∈ visibleChanges db actorId, (decide ((keysetAfter []).afterSequence ≤
        r.profileSequence ∧ (keysetAfter []).admits r = true)) = true := by
      intro r _
      rw [decide_eq_true_eq, admits_iff, keysetAfter]
      have hrank : (-1 : ℤ) < r.key.kind.rank := by omega
      exact ⟨Nat.zero_le _, .inr (.inl hrank)⟩
    rw [List.filter_eq_self.mpr hall, h, List.nil_append]
  · rw [List.concat_eq_append] at h ⊢
    have hkeyset : keysetAfter (earlier ++ [last]) =
        ⟨last.profileSequence, last.key.kind.rank, last.key.ids⟩ := by
      rw [keysetAfter, List.getLast?_concat]
    have hplace : ∀ r : FeedRecord, ((keysetAfter (earlier ++ [last])).afterSequence ≤
        r.profileSequence ∧ (keysetAfter (earlier ++ [last])).admits r = true) ↔
          last.position < r.position := by
      intro r
      rw [hkeyset, admits_iff, position_lt_iff, text_lt_iff, Nat.cast_lt, Nat.cast_inj,
        rank_injective.eq_iff]
      constructor
      · rintro ⟨hle, hlt | hafter⟩
        · exact .inl hlt
        · exact hle.lt_or_eq.imp id fun heq => ⟨heq, hafter⟩
      · rintro (hlt | ⟨heq, hafter⟩)
        · exact ⟨hlt.le, .inl hlt⟩
        · exact ⟨heq.le, .inr hafter⟩
    rw [h] at hsorted ⊢
    rw [List.pairwise_append] at hsorted
    obtain ⟨hreceived, -, hcross⟩ := hsorted
    rw [List.pairwise_append] at hreceived
    rw [List.filter_append, List.filter_eq_nil_iff.mpr, List.filter_eq_self.mpr, List.nil_append]
    · intro r hr
      rw [decide_eq_true_eq, hplace]
      exact hcross last (by simp) r hr
    · intro r hr
      rw [decide_eq_true_eq, hplace]
      rcases List.mem_append.mp hr with hr | hr
      · exact not_lt_of_gt (hreceived.2.2 r hr last (by simp))
      · rw [List.mem_singleton.mp hr]
        exact lt_irrefl _

/-- The events whose changes may still be due. -/
def eventsAfter (db : Db) (actorId : Uuid) (k : Keyset) : List VisibleEvent :=
  (stream db actorId).filter fun p => k.afterSequence ≤ p.profileSequence

theorem flatMap_filter_eq {α β : Type} (l : List α) (c : α → Bool) (f : α → List β) :
    (l.filter c).flatMap f = l.flatMap fun a => if c a = true then f a else [] := by
  induction l with
  | nil => rfl
  | cons a l ih =>
    rw [List.flatMap_cons, ← ih]
    cases hc : c a with
    | true => rw [List.filter_cons_of_pos hc, List.flatMap_cons, if_pos rfl]
    | false => rw [List.filter_cons_of_neg (by simp [hc]), if_neg (by simp), List.nil_append]

/-- What is due comes from the window and from the events after it. -/
theorem rest_eq (h : visibleChanges db actorId = received ++ rest) :
    rest = windowRows db actorId (keysetAfter received) ++
      ((eventsAfter db actorId (keysetAfter received)).drop 10).flatMap fun p =>
        (changesOf db actorId p).filter (keysetAfter received).admits := by
  set k := keysetAfter received with hk
  have hdue : rest = (eventsAfter db actorId k).flatMap fun p =>
      (changesOf db actorId p).filter k.admits := by
    rw [← filter_keysetAfter h, ← hk, visibleChanges, List.filter_flatMap, eventsAfter,
      flatMap_filter_eq]
    refine List.flatMap_congr fun p _ => ?_
    split_ifs with hafter
    · rw [decide_eq_true_eq] at hafter
      refine List.filter_congr fun r hr => ?_
      rw [sequence_of_mem_changesOf hr]
      simp [hafter]
    · rw [decide_eq_true_eq] at hafter
      refine List.filter_eq_nil_iff.mpr fun r hr => ?_
      rw [sequence_of_mem_changesOf hr]
      simp [hafter]
  rw [windowRows, selectedEvents, ← eventsAfter, ← List.flatMap_append, List.take_append_drop]
  exact hdue

theorem pairwise_eventsAfter (k : Keyset) : (eventsAfter db actorId k).Pairwise
    fun p q => p.profileSequence < q.profileSequence :=
  (pairwise_stream db actorId).sublist List.filter_sublist

/-- When the stream does not go on after a window, the window is all there is. -/
theorem drop_eq_nil_of_not_streamMore {k : Keyset} (h : streamMore db actorId k = false) :
    (eventsAfter db actorId k).drop 10 = [] := by
  by_contra hne
  obtain ⟨q, hq⟩ := List.exists_mem_of_ne_nil _ hne
  have hlong : 10 < (eventsAfter db actorId k).length := by
    have hpos := List.length_pos_of_mem hq
    rw [List.length_drop] at hpos
    omega
  have hsorted := @pairwise_eventsAfter db actorId k
  rw [← List.take_append_drop 10 (eventsAfter db actorId k), List.pairwise_append] at hsorted
  rw [streamMore, selectedEvents, ← eventsAfter] at h
  cases hmax : (((eventsAfter db actorId k).take 10).map VisibleEvent.profileSequence).max? with
  | none =>
    rw [List.max?_eq_none_iff, List.map_eq_nil_iff, List.take_eq_nil_iff] at hmax
    rcases hmax with hten | hempty
    · cases hten
    · rw [hempty] at hlong
      cases hlong
  | some last =>
    rw [hmax, List.any_eq_false] at h
    obtain ⟨p, hp, rfl⟩ := List.mem_map.mp (List.max?_mem hmax)
    have hlt := hsorted.2.2 p hp q hq
    have hstream : q ∈ stream db actorId :=
      List.mem_of_mem_filter (List.mem_of_mem_drop hq)
    exact h q hstream (by simpa using hlt)

/-- A window without rows is all there is: each of its events but the first has some. -/
theorem drop_eq_nil_of_windowRows {k : Keyset} (h : windowRows db actorId k = []) :
    (eventsAfter db actorId k).drop 10 = [] := by
  rw [windowRows, selectedEvents, ← eventsAfter, List.flatMap_eq_nil_iff] at h
  cases hevents : eventsAfter db actorId k with
  | nil => rfl
  | cons p events =>
    cases events with
    | nil => rfl
    | cons q events =>
      have hp : k.afterSequence ≤ p.profileSequence := by
        have hmem : p ∈ eventsAfter db actorId k := by rw [hevents]; exact List.mem_cons_self
        simpa using (List.mem_filter.mp hmem).2
      have hsorted := @pairwise_eventsAfter db actorId k
      rw [hevents, List.pairwise_cons] at hsorted
      have hpq := hsorted.1 q List.mem_cons_self
      have hnone := h q (by rw [hevents]; simp)
      rw [List.filter_eq_nil_iff] at hnone
      obtain ⟨r, hr⟩ := List.exists_mem_of_ne_nil _ (changesOf_ne_nil db actorId q)
      refine absurd ?_ (hnone r hr)
      rw [admits_iff, sequence_of_mem_changesOf hr]
      exact .inl (by omega)

/-! ### What a page takes -/

variable {stringify : Json → JsString} {limit : Option JsString} {n : ℕ}

/-- The loop takes a prefix of the rows, and a first row always fits. -/
theorem consume_eq {rows : List FeedRecord} (hsize : ∀ r ∈ rows, r.size stringify ≤ 262144)
    (bytes : ℕ) : ∃ m, m ≤ rows.length ∧ consume stringify bytes rows = .ok (rows.take m) ∧
      (bytes + 262144 ≤ 1900000 → rows ≠ [] → 1 ≤ m) := by
  induction rows generalizing bytes with
  | nil => exact ⟨0, le_rfl, rfl, fun _ h => absurd rfl h⟩
  | cons r rows ih =>
    rw [List.forall_mem_cons] at hsize
    by_cases hfits : bytes + r.size stringify > 1900000
    · refine ⟨0, Nat.zero_le _, ?_, fun hbytes _ => absurd hfits (by omega)⟩
      rw [consume, failIf_bind_eq_ok, if_pos hfits]
      exact ⟨by omega, rfl⟩
    · obtain ⟨m, hm, hconsume, -⟩ := ih hsize.2 (bytes + r.size stringify)
      refine ⟨m + 1, Nat.succ_le_succ hm, ?_, fun _ _ => Nat.succ_le_succ (Nat.zero_le m)⟩
      rw [consume, failIf_bind_eq_ok, if_neg hfits, hconsume]
      exact ⟨by omega, rfl⟩

/-- What the loop takes is a prefix of the rows, none of them too large. -/
theorem consume_eq_ok {rows changes : List FeedRecord} {bytes : ℕ}
    (h : consume stringify bytes rows = .ok changes) :
    (∃ m, changes = rows.take m) ∧ ∀ r ∈ changes, r.size stringify ≤ 262144 := by
  induction rows generalizing bytes changes with
  | nil =>
    cases h
    exact ⟨⟨0, rfl⟩, nofun⟩
  | cons r rows ih =>
    rw [consume, failIf_bind_eq_ok] at h
    obtain ⟨hsize, h⟩ := h
    split_ifs at h
    · cases h
      exact ⟨⟨0, rfl⟩, nofun⟩
    · obtain ⟨taken, htaken, hcons⟩ := bind_eq_ok.mp h
      cases hcons
      obtain ⟨⟨m, hm⟩, hsizes⟩ := ih htaken
      exact ⟨⟨m + 1, by rw [hm, List.take_succ_cons]⟩,
        List.forall_mem_cons.mpr ⟨by omega, hsizes⟩⟩

/-- The cursor after a page is the one after all that was received. -/
theorem nextCursor_eq (received changes : List FeedRecord) :
    (match changes.getLast? with
      | some r => some (cursorOf r)
      | none => cursorAfter received) = cursorAfter (received ++ changes) := by
  rw [cursorAfter, cursorAfter, List.getLast?_append]
  cases changes.getLast? <;> rfl

/-- The page that follows what was received. -/
theorem pull_eq_ok (hlimit : pageLimit limit = .ok n)
    (h : visibleChanges db actorId = received ++ rest) {page : Page} :
    pullProjectionChanges stringify db actorId limit (cursorAfter received) = .ok page ↔
      ∃ changes rows, rows = (sortBy FeedRecord.order
          (windowRows db actorId (keysetAfter received))).take (n + 1) ∧
        consume stringify 0 (rows.take n) = .ok changes ∧
        page = ⟨changes, cursorAfter (received ++ changes), changes.length < rows.length ||
          (!rows.isEmpty && streamMore db actorId (keysetAfter received))⟩ := by
  rw [pullProjectionChanges, hlimit]
  simp only [bind_eq_ok, Except.ok.injEq, exists_eq_left', decodeCursor_cursorAfter h,
    projectionFeed_eq, pure_eq_ok]
  constructor
  · rintro ⟨changes, hconsume, rfl⟩
    exact ⟨changes, _, rfl, hconsume,
      congrArg (Page.mk changes · _) (nextCursor_eq received changes)⟩
  · rintro ⟨changes, rows, rfl, hconsume, rfl⟩
    exact ⟨changes, hconsume,
      congrArg (Page.mk changes · _) (nextCursor_eq received changes)⟩

theorem pageLimit_pos (hlimit : pageLimit limit = .ok n) : 1 ≤ n := by
  unfold pageLimit at hlimit
  cases limit with
  | none =>
    cases hlimit
    decide
  | some s =>
    rw [failIf_bind_eq_ok] at hlimit
    obtain ⟨hcheck, heq⟩ := hlimit
    cases heq
    simp only [not_or, Bool.not_eq_false] at hcheck
    by_contra hzero
    have hvalue : unsignedValue s = 0 := by omega
    have htext := decimal_unsignedValue hcheck.1
    rw [hvalue] at htext
    exact hcheck.2.1 (htext.symm.trans (by decide))

/-! ### Sequences whose texts are in order -/

/-- The texts of the sequences are in the order of the sequences. -/
def TextsInOrder (db : Db) : Prop :=
  ∀ a ∈ db.profileEvents.keys, ∀ b ∈ db.profileEvents.keys, a < b → decimal a < decimal b

theorem mem_keys_of_mem_stream (h : p ∈ stream db actorId) :
    p.profileSequence ∈ db.profileEvents.keys := by
  obtain ⟨e, he, rfl⟩ := List.mem_map.mp h
  exact List.mem_map_of_mem (mem_sortBy.mp he)

theorem exists_of_mem_keys {a : ℕ} (h : a ∈ db.profileEvents.keys) :
    ∃ p ∈ stream db actorId, p.profileSequence = a := by
  obtain ⟨e, he, rfl⟩ := List.mem_map.mp h
  exact ⟨_, List.mem_map_of_mem (mem_sortBy.mpr he), rfl⟩

/-- Then the query returns the rows of a window in the order of their places. -/
theorem sortBy_windowRows (h : TextsInOrder db) (k : Keyset) :
    sortBy FeedRecord.order (windowRows db actorId k) = windowRows db actorId k := by
  refine sortBy_eq (.refl _) ?_
  have hsorted := (pairwise_visibleChanges db actorId).sublist (windowRows_sublist k)
  refine hsorted.imp_of_mem ?_
  intro a b ha hb hlt
  obtain ⟨p, hp, hpa, -⟩ := sequence_bounds_of_mem ((windowRows_sublist k).subset ha)
  obtain ⟨q, hq, hqb, -⟩ := sequence_bounds_of_mem ((windowRows_sublist k).subset hb)
  rw [position_lt_iff] at hlt
  rw [order_lt_iff]
  rcases hlt with hlt | ⟨heq, hlt⟩
  · left
    rw [hpa, hqb] at hlt ⊢
    exact h _ (mem_keys_of_mem_stream hp) _ (mem_keys_of_mem_stream hq) hlt
  · exact .inr ⟨by rw [heq], hlt⟩

/-- From any place on, the client receives the rest. The induction is on how much that is. -/
theorem fetches_rest (hlimit : pageLimit limit = .ok n) (htexts : TextsInOrder db)
    (hsizes : ∀ r ∈ visibleChanges db actorId, r.size stringify ≤ 262144)
    (h : visibleChanges db actorId = received ++ rest) :
    ∃ pages, Fetches stringify db actorId limit (cursorAfter received) pages ∧
      pages.flatMap Page.changes = rest ∧
      ∀ page ∈ pages, page.hasMore = true → page.changes ≠ [] := by
  induction hlength : rest.length using Nat.strong_induction_on generalizing received rest with
  | _ length ih =>
    set k := keysetAfter received with hk
    set window := windowRows db actorId k with hwindow
    have hrest := rest_eq h
    rw [← hk, ← hwindow] at hrest
    have hmem : ∀ r ∈ window, r.size stringify ≤ 262144 := fun r hr =>
      hsizes r ((windowRows_sublist k).subset hr)
    obtain ⟨m, hm, hconsume, hfirst⟩ := @consume_eq stringify
      ((window.take (n + 1)).take n)
      (fun r hr => hmem r (List.mem_of_mem_take (List.mem_of_mem_take hr))) 0
    rw [List.take_take, min_eq_left (Nat.le_succ n)] at hm hconsume hfirst
    rw [List.length_take] at hm
    have hchanges : (window.take n).take m = window.take m := by
      rw [List.take_take, min_eq_left (by omega)]
    rw [hchanges] at hconsume
    have hpage := (@pull_eq_ok db actorId received rest stringify limit n hlimit h _).mpr
      ⟨window.take m, window.take (n + 1), by rw [sortBy_windowRows htexts],
        by rw [List.take_take, min_eq_left (Nat.le_succ n)]; exact hconsume, rfl⟩
    set page : Page := _ with hpageDef
    have hlengthTake : (window.take m).length = m := by rw [List.length_take]; omega
    cases hmore : page.hasMore with
    | false =>
      -- the last page: the look-ahead row is not there and the stream does not go on
      refine ⟨[page], .last hpage hmore, ?_, ?_⟩
      · rw [hpageDef, Bool.or_eq_false_iff, decide_eq_false_iff_not, hlengthTake,
          List.length_take, Bool.and_eq_false_iff] at hmore
        have hall : window.length ≤ m := by omega
        have hdrop : (eventsAfter db actorId k).drop 10 = [] := by
          rcases hmore.2 with hempty | hstream
          · apply drop_eq_nil_of_windowRows
            rw [Bool.not_eq_false', List.isEmpty_iff, List.take_eq_nil_iff] at hempty
            rcases hempty with hzero | hnil
            · omega
            · exact hnil
          · exact drop_eq_nil_of_not_streamMore hstream
        rw [hrest, hdrop, List.flatMap_nil, List.append_nil, List.flatMap_singleton, hpageDef]
        exact List.take_of_length_le hall
      · intro page' hpage' hmore'
        rw [List.mem_singleton.mp hpage', hmore] at hmore'
        cases hmore'
    | true =>
      have hpos := pageLimit_pos hlimit
      have hne : window ≠ [] := by
        intro hnil
        rw [hpageDef] at hmore
        simp [hnil] at hmore
      have hone : 1 ≤ m := hfirst (by omega) (by
        rw [ne_eq, List.take_eq_nil_iff, not_or]
        exact ⟨by omega, hne⟩)
      have hsplit : rest = window.take m ++ (window.drop m ++
          ((eventsAfter db actorId k).drop 10).flatMap fun p =>
            (changesOf db actorId p).filter k.admits) := by
        rw [← List.append_assoc, List.take_append_drop]
        exact hrest
      have hshorter : (window.drop m ++ ((eventsAfter db actorId k).drop 10).flatMap fun p =>
          (changesOf db actorId p).filter k.admits).length < length := by
        rw [← hlength, hsplit, @List.length_append _ (window.take m), hlengthTake]
        omega
      obtain ⟨pages, hfetches, hreceived, hprogress⟩ := @ih _ hshorter
        (received ++ window.take m) _
        (by rw [h, List.append_assoc, ← hsplit]) rfl
      refine ⟨page :: pages, .more hpage hmore hfetches, ?_, ?_⟩
      · rw [List.flatMap_cons, hreceived, hpageDef]
        exact hsplit.symm
      · rw [List.forall_mem_cons]
        refine ⟨fun _ => ?_, hprogress⟩
        rw [← List.length_pos_iff, hpageDef, hlengthTake]
        omega

/-! ### What a client that loses nothing shows -/

/-- No change that a client received was too large. -/
theorem size_le_of_fetches {after : Option Cursor} {pages : List Page}
    (h : Fetches stringify db actorId limit after pages) :
    ∀ r ∈ pages.flatMap Page.changes, r.size stringify ≤ 262144 := by
  have hpage : ∀ {after : Option Cursor} {page : Page},
      pullProjectionChanges stringify db actorId limit after = .ok page →
        ∀ r ∈ page.changes, r.size stringify ≤ 262144 := by
    intro after page hpull
    rw [pullProjectionChanges] at hpull
    obtain ⟨n, -, hpull⟩ := bind_eq_ok.mp hpull
    obtain ⟨k, -, hpull⟩ := bind_eq_ok.mp hpull
    obtain ⟨changes, hconsume, heq⟩ := bind_eq_ok.mp hpull
    cases heq
    exact (consume_eq_ok hconsume).2
  induction h with
  | last hpull _ =>
    rw [List.flatMap_singleton]
    exact hpage hpull
  | more hpull _ _ ih =>
    intro r hr
    rw [List.flatMap_cons, List.mem_append] at hr
    exact hr.elim (hpage hpull r) (ih r)

/-- With one change a page, every change is at some time the first row of the window after those
before it. The induction is on the pages. -/
theorem exists_first_row {after : Option Cursor} {pages : List Page}
    (hlimit : pageLimit limit = .ok 1) (hfetches : Fetches stringify db actorId limit after pages)
    (hafter : after = cursorAfter received) (h : visibleChanges db actorId = received ++ rest)
    (hpages : pages.flatMap Page.changes = rest) {mid post : List FeedRecord} {x : FeedRecord}
    (hrest : rest = mid ++ x :: post) :
    ∃ tail, sortBy FeedRecord.order (windowRows db actorId (keysetAfter (received ++ mid))) =
      x :: tail := by
  have htake : ∀ {rows changes : List FeedRecord},
      consume stringify 0 ((rows.take 2).take 1) = .ok changes →
        changes = [] ∨ ∃ y tail, changes = [y] ∧ rows = y :: tail := by
    intro rows changes hconsume
    obtain ⟨⟨m, rfl⟩, -⟩ := consume_eq_ok hconsume
    cases rows with
    | nil => exact .inl (by simp)
    | cons y tail => cases m <;> simp
  induction hfetches generalizing received rest mid with
  | last hpull hmore =>
    subst hafter
    obtain ⟨changes, rows, rfl, hconsume, rfl⟩ := (pull_eq_ok hlimit h).mp hpull
    rw [List.flatMap_singleton] at hpages
    rcases htake hconsume with rfl | ⟨y, tail, rfl, htail⟩
    · rw [← hpages] at hrest
      simp at hrest
    · rw [← hpages, List.singleton_eq_append_iff] at hrest
      rcases hrest with ⟨rfl, hx⟩ | ⟨-, hx⟩
      · rw [(List.cons.inj hx).1, List.append_nil]
        exact ⟨tail, htail⟩
      · cases hx
  | more hpull hmore _ ih =>
    subst hafter
    obtain ⟨changes, rows, rfl, hconsume, rfl⟩ := (pull_eq_ok hlimit h).mp hpull
    rw [List.flatMap_cons] at hpages
    rcases htake hconsume with rfl | ⟨y, tail, rfl, htail⟩
    · -- a page without changes leaves the client where it was
      exact ih (by rw [List.append_nil]) h hpages hrest
    · rw [← hpages] at hrest
      cases mid with
      | nil =>
        rw [List.nil_append, List.singleton_append] at hrest
        rw [← (List.cons.inj hrest).1, List.append_nil]
        exact ⟨tail, htail⟩
      | cons y' mid =>
        rw [List.singleton_append, List.cons_append] at hrest
        obtain ⟨rfl, htailEq⟩ := List.cons.inj hrest
        have hnext := @ih (received ++ [y]) _ rfl
          (by rw [h, ← hpages, List.append_assoc]) rfl mid htailEq
        rwa [List.append_assoc, List.singleton_append] at hnext

/-- The keyset after all changes of some events starts at the last of them. -/
theorem afterSequence_flatMap {earlier later : List VisibleEvent}
    (h : stream db actorId = earlier ++ later) :
    (earlier.filter fun a => (keysetAfter (earlier.flatMap (changesOf db actorId))).afterSequence ≤
        a.profileSequence).length ≤ 1 ∧
      ∀ p ∈ later, (keysetAfter (earlier.flatMap (changesOf db actorId))).afterSequence <
        p.profileSequence := by
  have hsorted := pairwise_stream db actorId
  rw [h, List.pairwise_append] at hsorted
  rcases List.eq_nil_or_concat earlier with rfl | ⟨others, a, rfl⟩
  · refine ⟨Nat.zero_le _, fun p hp => ?_⟩
    have hmem : p ∈ stream db actorId := by rw [h]; exact hp
    exact (sequence_bounds_of_mem_stream hmem).1
  · rw [List.concat_eq_append] at hsorted ⊢
    obtain ⟨hearlier, -, hcross⟩ := hsorted
    have hsequence : (keysetAfter ((others ++ [a]).flatMap
        (changesOf db actorId))).afterSequence = a.profileSequence := by
      rw [List.flatMap_append, List.flatMap_singleton, keysetAfter, List.getLast?_append]
      cases hlast : (changesOf db actorId a).getLast? with
      | none => exact absurd (List.getLast?_eq_none_iff.mp hlast) (changesOf_ne_nil db actorId a)
      | some r => exact sequence_of_mem_changesOf (List.mem_of_getLast? hlast)
    rw [hsequence]
    refine ⟨?_, fun p hp => hcross a (by simp) p hp⟩
    rw [List.pairwise_append] at hearlier
    have hnone : (others.filter fun b => a.profileSequence ≤ b.profileSequence) = [] := by
      rw [List.filter_eq_nil_iff]
      intro b hb
      rw [decide_eq_true_eq, not_le]
      exact hearlier.2.2 b hb a (by simp)
    rw [List.filter_append, hnone, List.nil_append]
    exact List.length_filter_le _ _

/-- With one change a page, the text of the sequence of an event is before that of the next. -/
theorem decimal_lt_next (hlimit : pageLimit limit = .ok 1)
    (h : Lossless stringify db actorId limit) {q : VisibleEvent} {earlier later : List VisibleEvent}
    (hstream : stream db actorId = earlier ++ p :: q :: later) :
    decimal p.profileSequence < decimal q.profileSequence := by
  obtain ⟨pages, hfetches, hpages, -⟩ := h
  obtain ⟨x, xs, hx⟩ := List.exists_cons_of_ne_nil (changesOf_ne_nil db actorId p)
  obtain ⟨z, zs, hz⟩ := List.exists_cons_of_ne_nil (changesOf_ne_nil db actorId q)
  have hchanges : visibleChanges db actorId = earlier.flatMap (changesOf db actorId) ++
      x :: (xs ++ (z :: zs ++ later.flatMap (changesOf db actorId))) := by
    rw [visibleChanges, hstream, List.flatMap_append, List.flatMap_cons, List.flatMap_cons, hx,
      hz]
    rfl
  obtain ⟨tail, htail⟩ := @exists_first_row db actorId [] _ stringify limit none _ hlimit hfetches rfl
    rfl hpages _ _ _ hchanges
  rw [List.nil_append] at htail
  -- the window that starts at `p` has at most one event before it, so `q` is in it
  obtain ⟨hshort, hafter⟩ := afterSequence_flatMap hstream
  set k := keysetAfter (earlier.flatMap (changesOf db actorId)) with hk
  have hselected : q ∈ selectedEvents db actorId k := by
    have hp := hafter p (by simp)
    have hq := hafter q (by simp)
    rw [selectedEvents, hstream, List.filter_append, List.filter_cons_of_pos (by simp; omega),
      List.filter_cons_of_pos (by simp; omega), List.mem_take_iff_getElem]
    refine ⟨(earlier.filter fun a => k.afterSequence ≤ a.profileSequence).length + 1, ?_, ?_⟩
    · rw [List.length_append, List.length_cons, List.length_cons]
      omega
    · rw [List.getElem_append_right (by omega)]
      simp
  have hzmem : z ∈ changesOf db actorId q := by rw [hz]; exact List.mem_cons_self
  have hxmem : x ∈ changesOf db actorId p := by rw [hx]; exact List.mem_cons_self
  have hrow : z ∈ windowRows db actorId k := by
    refine List.mem_flatMap.mpr ⟨q, hselected, List.mem_filter.mpr ⟨hzmem, ?_⟩⟩
    rw [admits_iff, sequence_of_mem_changesOf hzmem]
    exact .inl (hafter q (by simp))
  have hle := key_head_le htail hrow
  have hpq : p.profileSequence < q.profileSequence := by
    have hsorted := pairwise_stream db actorId
    rw [hstream, List.pairwise_append, List.pairwise_cons] at hsorted
    exact hsorted.2.1.1 q List.mem_cons_self
  rw [← sequence_of_mem_changesOf hxmem, ← sequence_of_mem_changesOf hzmem] at hpq ⊢
  refine lt_of_le_of_ne ?_ fun heq => hpq.ne (decimal_injective heq)
  exact (Prod.Lex.toLex_le_toLex.mp hle).elim le_of_lt fun heq => heq.1.le

/-- A client that takes one change a page and loses none has seen the texts in order. -/
theorem textsInOrder_of_lossless (hlimit : pageLimit limit = .ok 1)
    (h : Lossless stringify db actorId limit) : TextsInOrder db := by
  have hsorted : (stream db actorId).Pairwise fun p q =>
      decimal p.profileSequence < decimal q.profileSequence := by
    have : IsTrans VisibleEvent fun p q =>
        decimal p.profileSequence < decimal q.profileSequence := ⟨fun _ _ _ => lt_trans⟩
    rw [← List.isChain_iff_pairwise, List.isChain_iff_forall_rel_of_append_cons_cons]
    intro p q earlier later hstream
    exact decimal_lt_next hlimit h hstream
  intro a ha b hb hlt
  obtain ⟨p, hp, rfl⟩ := @exists_of_mem_keys db actorId _ ha
  obtain ⟨q, hq, rfl⟩ := @exists_of_mem_keys db actorId _ hb
  have hself : ∀ p ∈ stream db actorId, p.profileSequence < p.profileSequence →
      decimal p.profileSequence < decimal p.profileSequence :=
    fun _ _ h => absurd h (lt_irrefl _)
  have hforward : (stream db actorId).Pairwise fun p q => p.profileSequence < q.profileSequence →
      decimal p.profileSequence < decimal q.profileSequence := by
    refine hsorted.imp ?_
    intro p q h _
    exact h
  have hbackward : (stream db actorId).Pairwise fun p q => q.profileSequence < p.profileSequence →
      decimal q.profileSequence < decimal p.profileSequence :=
    (pairwise_stream db actorId).imp fun h hgt => absurd hgt h.not_gt
  exact hforward.forall_of_forall_of_flip hself hbackward hp hq hlt

end Changes

/-! ### The condition -/

/-- Paging loses nothing, for pages of every size, if and only if the sequences have texts in their
order and no change is larger than a record may be. -/
theorem lossless_iff (stringify : Json → JsString) (db : Db) (actorId : Uuid) :
    (∀ limit n, pageLimit limit = .ok n → Lossless stringify db actorId limit) ↔
      TextsInOrder db ∧ ∀ r ∈ visibleChanges db actorId, r.size stringify ≤ 262144 := by
  constructor
  · intro h
    have hone := h (some (js "1")) 1 rfl
    refine ⟨textsInOrder_of_lossless rfl hone, ?_⟩
    obtain ⟨pages, hfetches, hpages, -⟩ := hone
    rw [← hpages]
    exact size_le_of_fetches hfetches
  · rintro ⟨htexts, hsizes⟩ limit n hlimit
    exact @fetches_rest db actorId [] _ stringify limit n hlimit htexts hsizes rfl

/-- The context in the counterexample, and the id of the profile. -/
def lostContext : Uuid := ⟨js "00000000-0000-4000-8000-000000000001", by decide⟩

/-- A profile with ten events of a context that it may no longer read. -/
def tenLostEvents : Db where
  profileEvents := ⟨(List.range 10).map fun i => (i + 1, lostContext, i + 1), by decide⟩
  contextEvents := .empty
  contexts := .empty
  members := .empty
  expenses := .empty
  revisions := .empty
  pairBalances := .empty
  journalEntries := []
  privateCostFacts := .empty
  phoneDirectory := .empty
  sequence_bounds := by decide

/-- A client that takes one change a page goes from the first event to the tenth, and is never sent
the eight between them. -/
theorem not_lossless_tenLostEvents :
    ¬ ∃ stringify, Lossless stringify tenLostEvents lostContext (some (js "1")) := by
  rintro ⟨stringify, h⟩
  have htexts := textsInOrder_of_lossless rfl h
  exact absurd (htexts 9 (by decide) 10 (by decide) (by decide)) (by decide)

end PandaPay.SharedExpenses.Feed
