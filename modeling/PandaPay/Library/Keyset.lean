import PandaPay.Library.InsertionMap

/-!
# Rows in key order

What a query with `ORDER BY key LIMIT n` returns, and why each part of a union may be cut to its own
first `n` rows before the union is ordered and cut.

## Main definitions

* `sortBy`: the rows in the order of their keys
* `selectKeys`: the keys of the first rows of a table that satisfy a condition

## Main results

* `sortBy_eq`: rows that are in order already are the result
* `filter_sortBy`, `sortBy_eq_of_filter`: rows of one key keep their order
* `take_sortBy_flatMap`: cutting the parts of a union does not change its first rows
* `append_lt_append_iff`: texts that start with blocks of one length compare block by block
-/

namespace PandaPay

universe u v w

variable {α : Type u} {κ : Type v} [LinearOrder κ]

/-- The rows in the order of their keys. -/
def sortBy (key : α → κ) (rows : List α) : List α := rows.insertionSort fun a b => key a ≤ key b

section Order

variable {key : α → κ} {rows rows' : List α}

theorem sortBy_perm (key : α → κ) (rows : List α) : (sortBy key rows).Perm rows :=
  List.perm_insertionSort _ _

theorem mem_sortBy {a : α} : a ∈ sortBy key rows ↔ a ∈ rows := (sortBy_perm key rows).mem_iff

theorem pairwise_sortBy (key : α → κ) (rows : List α) :
    (sortBy key rows).Pairwise fun a b => key a ≤ key b := by
  have : Std.Total fun a b : α => key a ≤ key b := ⟨fun a b => le_total (key a) (key b)⟩
  have : IsTrans α fun a b => key a ≤ key b := ⟨fun _ _ _ => le_trans⟩
  exact List.pairwise_insertionSort _ _

/-- Rows with distinct keys can be put in order in one way only. -/
theorem eq_of_perm_of_pairwise (key : α → κ) (hperm : rows.Perm rows') (hnodup : (rows.map key).Nodup)
    (h : rows.Pairwise fun a b => key a ≤ key b) (h' : rows'.Pairwise fun a b => key a ≤ key b) :
    rows = rows' := by
  refine hperm.eq_of_pairwise ?_ h h'
  intro a b ha hb hab hba
  exact List.inj_on_of_nodup_map hnodup ha (hperm.mem_iff.mpr hb) (le_antisymm hab hba)

theorem sortBy_congr (hperm : rows.Perm rows') (hnodup : (rows.map key).Nodup) :
    sortBy key rows = sortBy key rows' := by
  refine eq_of_perm_of_pairwise key ?_ ?_ (pairwise_sortBy key rows)
    (pairwise_sortBy key rows')
  · exact (sortBy_perm key rows).trans (hperm.trans (sortBy_perm key rows').symm)
  · exact ((sortBy_perm key rows).map key).nodup_iff.mpr hnodup

/-- A sort by a relation that compares keys sees the order of the rows only where keys are equal. -/
theorem insertionSort_congr {r : α → α → Prop} [DecidableRel r] (key : α → κ)
    (hr : ∀ a b, r a b ↔ key a ≤ key b) (hperm : rows.Perm rows')
    (hkeys : ∀ a ∈ rows, ∀ b ∈ rows, key a = key b → a = b) :
    rows.insertionSort r = rows'.insertionSort r := by
  have : Std.Total r := ⟨fun a b => by rw [hr, hr]; exact le_total _ _⟩
  have : IsTrans α r := ⟨fun a b c => by rw [hr, hr, hr]; exact le_trans⟩
  have hsorted := rows.perm_insertionSort r
  have hsorted' := rows'.perm_insertionSort r
  refine (hsorted.trans (hperm.trans hsorted'.symm)).eq_of_pairwise ?_
    (List.pairwise_insertionSort _ _) (List.pairwise_insertionSort _ _)
  intro a b ha hb hab hba
  rw [hr] at hab hba
  exact hkeys a (hsorted.mem_iff.mp ha) b (hperm.mem_iff.mpr (hsorted'.mem_iff.mp hb))
    (le_antisymm hab hba)

/-- Rows that are in order already are the result. -/
theorem sortBy_eq (hperm : rows.Perm rows') (h : rows'.Pairwise fun a b => key a < key b) :
    sortBy key rows = rows' := by
  have hnodup : (rows'.map key).Nodup :=
    List.pairwise_map.mpr (h.imp fun hlt => ne_of_lt hlt)
  refine eq_of_perm_of_pairwise key ((sortBy_perm key rows).trans hperm) ?_
    (pairwise_sortBy key rows) (h.imp fun hlt => le_of_lt hlt)
  exact (((sortBy_perm key rows).trans hperm).map key).nodup_iff.mpr hnodup

/-- Rows of one key keep their order. -/
theorem filter_sortBy (key : α → κ) (k : κ) (rows : List α) :
    (sortBy key rows).filter (key · = k) = rows.filter (key · = k) := by
  have hinsert : ∀ (a : α) (l : List α),
      (l.orderedInsert (fun a b => key a ≤ key b) a).filter (key · = k) = (a :: l).filter (key · = k) := by
    intro a l
    induction l with
    | nil => rfl
    | cons b l ih =>
      rw [List.orderedInsert_cons]
      by_cases hle : key a ≤ key b
      · rw [if_pos hle]
      · rw [if_neg hle, List.filter_cons, ih]
        have hne : key b = k → key a ≠ k := fun hb ha => hle (by rw [ha, hb])
        by_cases hb : key b = k
        · simp [hb, hne hb]
        · simp [List.filter_cons, hb]
  induction rows with
  | nil => rfl
  | cons a rows ih =>
    rw [show sortBy key (a :: rows) =
      (sortBy key rows).orderedInsert (fun a b => key a ≤ key b) a from rfl, hinsert, List.filter_cons, ih,
      List.filter_cons]

/-- Rows in order are determined by those of each key. -/
theorem eq_of_filter (h : rows.Pairwise fun a b => key a ≤ key b)
    (h' : rows'.Pairwise fun a b => key a ≤ key b)
    (hfilter : ∀ k, rows.filter (key · = k) = rows'.filter (key · = k)) : rows = rows' := by
  have hmem : ∀ a, a ∈ rows ↔ a ∈ rows' := fun a => by
    have := congrArg (a ∈ ·) (hfilter (key a))
    simpa using this
  induction rows generalizing rows' with
  | nil => exact (List.eq_nil_iff_forall_not_mem.mpr fun a ha => List.not_mem_nil ((hmem a).mpr ha)).symm
  | cons a rows ih =>
    cases rows' with
    | nil => exact absurd ((hmem a).mp List.mem_cons_self) List.not_mem_nil
    | cons b rows' =>
      have hle : key a ≤ key b := by
        rcases List.mem_cons.mp ((hmem b).mpr List.mem_cons_self) with hb | hb
        · rw [hb]
        · exact (List.pairwise_cons.mp h).1 b hb
      have hle' : key b ≤ key a := by
        rcases List.mem_cons.mp ((hmem a).mp List.mem_cons_self) with ha | ha
        · rw [ha]
        · exact (List.pairwise_cons.mp h').1 a ha
      have hkey : key b = key a := le_antisymm hle' hle
      have hhead := hfilter (key a)
      rw [List.filter_cons_of_pos (by simp), List.filter_cons_of_pos (by simpa using hkey)] at hhead
      obtain ⟨rfl, htail⟩ := List.cons.inj hhead
      have hrest : ∀ k, rows.filter (key · = k) = rows'.filter (key · = k) := fun k => by
        have hk := hfilter k
        rw [List.filter_cons, List.filter_cons] at hk
        split_ifs at hk
        · exact (List.cons.inj hk).2
        · exact hk
      rw [ih (List.pairwise_cons.mp h).2 (List.pairwise_cons.mp h').2 hrest fun a => by
        have := congrArg (a ∈ ·) (hrest (key a))
        simpa using this]

/-- Sorting sees of the order of the rows that of the rows of each key. -/
theorem sortBy_eq_of_filter (hfilter : ∀ k, rows.filter (key · = k) = rows'.filter (key · = k)) :
    sortBy key rows = sortBy key rows' :=
  eq_of_filter (pairwise_sortBy key rows) (pairwise_sortBy key rows') fun k => by
    rw [filter_sortBy, filter_sortBy, hfilter]

/-- Rows that are filtered, extended by rows that the filter drops and rewritten in order are what they are
rewritten to when that is done again. -/
theorem sortBy_filter_append {f : α → α} (hf : ∀ a, f (f a) = f a) (hkey : ∀ a, key (f a) = key a)
    {keep : α → Bool} (hkeep : ∀ a, keep (f a) = keep a) {new : List α} (hnew : ∀ a ∈ new, keep a = false)
    (old : List α) :
    sortBy key (((sortBy key ((old.filter keep ++ new).map f)).filter keep ++ new).map f) =
      sortBy key ((old.filter keep ++ new).map f) := by
  have hmap : ∀ (k : κ) (l : List α), (l.map f).filter (key · = k) = (l.filter (key · = k)).map f := by
    intro k l
    rw [List.filter_map]
    exact congrArg (List.map f) (List.filter_congr fun a _ => by rw [Function.comp_apply, hkey])
  have hkept : ∀ l : List α, (l.map f).filter keep = (l.filter keep).map f := fun l => by
    rw [List.filter_map]
    exact congrArg (List.map f) (List.filter_congr fun a _ => hkeep a)
  have hdropped : ∀ k, (new.filter (key · = k)).filter keep = [] := fun k =>
    List.filter_eq_nil_iff.mpr fun a ha => by
      rw [hnew a (List.mem_of_mem_filter ha)]
      exact Bool.false_ne_true
  have hkeepAgain : (old.filter keep).filter keep = old.filter keep := by simp [List.filter_filter]
  refine sortBy_eq_of_filter fun k => ?_
  have hold : ((sortBy key ((old.filter keep ++ new).map f)).filter keep).filter (key · = k) =
      ((old.filter keep).filter (key · = k)).map f := by
    calc ((sortBy key ((old.filter keep ++ new).map f)).filter keep).filter (key · = k)
        = (((old.filter keep ++ new).filter (key · = k)).filter keep).map f := by
          rw [List.filter_comm, filter_sortBy, hmap, hkept]
      _ = ((old.filter keep).filter (key · = k)).map f := by
          rw [List.filter_append, List.filter_append, hdropped, List.append_nil, List.filter_comm,
            hkeepAgain]
  rw [hmap, hmap, List.filter_append, List.filter_append, hold, List.map_append, List.map_append,
    List.map_map]
  exact congrArg (· ++ _) (List.map_congr_left fun a _ => hf a)

/-- Nothing is before the first row. -/
theorem key_head_le {a : α} {rest : List α} (h : sortBy key rows = a :: rest) {b : α}
    (hb : b ∈ rows) : key a ≤ key b := by
  have hsorted := pairwise_sortBy key rows
  rw [h, List.pairwise_cons] at hsorted
  rw [← @mem_sortBy _ _ _ key, h] at hb
  rcases List.mem_cons.mp hb with rfl | hb
  · exact le_rfl
  · exact hsorted.1 b hb

/-- The first `n` rows of `first ++ others` come before what is cut off `first`. -/
theorem key_le_of_mem_take {n : ℕ} {first others : List α}
    (hnodup : (((sortBy key first).take n ++ others).map key).Nodup) {a d : α}
    (ha : a ∈ (sortBy key ((sortBy key first).take n ++ others)).take n)
    (hd : d ∈ (sortBy key first).drop n) : key a ≤ key d := by
  set kept := (sortBy key first).take n with hkept
  set merged := sortBy key (kept ++ others) with hmerged
  by_contra hlt
  rw [not_le] at hlt
  obtain ⟨i, hi, rfl⟩ := List.mem_take_iff_getElem.mp ha
  have hlength : kept.length = n := by
    have hpos := List.length_pos_of_mem hd
    rw [List.length_drop] at hpos
    rw [hkept, List.length_take]
    omega
  have hsorted := pairwise_sortBy key first
  rw [← List.take_append_drop n (sortBy key first), List.pairwise_append] at hsorted
  -- every kept row is before the row `a`, so all `n` of them are among the `i < n` rows before it
  have hsub : kept ⊆ merged.take i := by
    intro p hp
    have hmem : p ∈ merged := mem_sortBy.mpr (List.mem_append_left _ hp)
    obtain ⟨j, hj, rfl⟩ := List.getElem_of_mem hmem
    rw [List.mem_take_iff_getElem]
    refine ⟨j, ?_, rfl⟩
    have hbefore : key merged[j] < key merged[i] := (hsorted.2.2 _ hp d hd).trans_lt hlt
    rw [lt_min_iff]
    refine ⟨?_, hj⟩
    by_contra hge
    rw [not_lt] at hge
    rcases hge.eq_or_lt with rfl | hgt
    · exact lt_irrefl _ hbefore
    · exact absurd hbefore (not_lt.mpr (List.pairwise_iff_getElem.mp
        (pairwise_sortBy key (kept ++ others)) i j _ hj hgt))
  have hkeptNodup : kept.Nodup := by
    rw [List.map_append] at hnodup
    exact (hnodup.of_append_left).of_map key
  have hcount := (hkeptNodup.subperm hsub).length_le
  rw [hlength, List.length_take] at hcount
  have := lt_min_iff.mp hi
  omega

/-- Cutting the first part of a union does not change the first rows of the union. -/
theorem take_sortBy_append (n : ℕ) {first others : List α}
    (hnodup : ((first ++ others).map key).Nodup) :
    (sortBy key ((sortBy key first).take n ++ others)).take n =
      (sortBy key (first ++ others)).take n := by
  set kept := (sortBy key first).take n with hkept
  set rest := (sortBy key first).drop n with hrest
  set merged := sortBy key (kept ++ others) with hmerged
  have hfirst : (kept ++ rest).Perm first := by
    rw [hkept, hrest, List.take_append_drop]
    exact sortBy_perm key first
  have hperm : (first ++ others).Perm (merged.take n ++ sortBy key (merged.drop n ++ rest)) := by
    have htail := sortBy_perm key (merged.drop n ++ rest)
    have hsplit : (merged.take n ++ sortBy key (merged.drop n ++ rest)).Perm (merged ++ rest) := by
      refine (List.Perm.append_left _ htail).trans ?_
      rw [← List.append_assoc, List.take_append_drop]
    have hmergedPerm : (merged ++ rest).Perm (kept ++ others ++ rest) :=
      List.Perm.append_right _ (sortBy_perm key _)
    refine ((hsplit.trans hmergedPerm).trans ?_).symm
    rw [List.append_assoc]
    refine (List.Perm.append_left _ List.perm_append_comm).trans ?_
    rw [← List.append_assoc]
    exact List.Perm.append_right _ hfirst
  have hkeptNodup : ((kept ++ others).map key).Nodup := by
    refine (List.Nodup.sublist (List.Sublist.map key ?_)
      ((((sortBy_perm key first).append_right others).map key).nodup_iff.mpr hnodup))
    exact List.Sublist.append (List.take_sublist n _) (List.Sublist.refl _)
  have hsorted : (merged.take n ++ sortBy key (merged.drop n ++ rest)).Pairwise
      fun a b => key a ≤ key b := by
    have hmergedSorted := pairwise_sortBy key (kept ++ others)
    rw [← hmerged, ← List.take_append_drop n merged, List.pairwise_append] at hmergedSorted
    rw [List.pairwise_append]
    refine ⟨hmergedSorted.1, pairwise_sortBy key _, fun a ha b hb => ?_⟩
    rcases List.mem_append.mp (mem_sortBy.mp hb) with hb | hb
    · exact hmergedSorted.2.2 a ha b hb
    · exact key_le_of_mem_take hkeptNodup ha hb
  have hwhole : sortBy key (first ++ others) =
      merged.take n ++ sortBy key (merged.drop n ++ rest) := by
    refine eq_of_perm_of_pairwise key ((sortBy_perm key _).trans hperm) ?_
      (pairwise_sortBy key _) hsorted
    exact ((sortBy_perm key _).map key).nodup_iff.mpr hnodup
  rw [hwhole, List.take_append, List.take_take, min_self]
  by_cases hlength : merged.length ≤ n
  · -- nothing was cut off, so nothing follows the merged rows
    have hnone : sortBy key (merged.drop n ++ rest) = [] ∨ merged.length = n := by
      rcases hlength.eq_or_lt with heq | hlt
      · exact .inr heq
      · left
        have hkeptLength : kept.length < n := by
          have hle : kept.length ≤ merged.length := by
            rw [hmerged, (sortBy_perm key _).length_eq, List.length_append]
            omega
          omega
        have hempty : rest = [] := by
          rw [hrest, List.drop_eq_nil_iff]
          rw [hkept, List.length_take] at hkeptLength
          omega
        rw [hempty, List.drop_eq_nil_of_le hlength]
        rfl
    rcases hnone with hnone | heq
    · rw [hnone, List.take_nil, List.append_nil]
    · rw [List.length_take, heq, min_self, Nat.sub_self, List.take_zero, List.append_nil]
  · rw [List.length_take, min_eq_left (by omega), Nat.sub_self, List.take_zero, List.append_nil]

/-- Cutting the parts of a union does not change its first rows. -/
theorem take_sortBy_flatMap {ι : Type w} (n : ℕ) (parts : List ι) (rowsOf : ι → List α)
    (others : List α) (hnodup : ((parts.flatMap rowsOf ++ others).map key).Nodup) :
    (sortBy key ((parts.flatMap fun i => (sortBy key (rowsOf i)).take n) ++ others)).take n =
      (sortBy key (parts.flatMap rowsOf ++ others)).take n := by
  induction parts generalizing others with
  | nil => rfl
  | cons i parts ih =>
    have hcomm : ∀ xs ys zs : List α, (xs ++ ys ++ zs).Perm (ys ++ (zs ++ xs)) := by
      intro xs ys zs
      rw [List.append_assoc]
      exact List.perm_append_comm.trans (List.append_assoc ys zs xs ▸ .refl _)
    set cut := parts.flatMap fun i => (sortBy key (rowsOf i)).take n with hcut
    have hcutSub : ∀ ys : List α, ((rowsOf i ++ (parts.flatMap rowsOf ++ ys)).map key).Nodup →
        ((rowsOf i ++ (cut ++ ys)).map key).Nodup := by
      intro ys h
      have hsub : ∃ whole, cut.Sublist whole ∧ whole.Perm (parts.flatMap rowsOf) := by
        refine ⟨parts.flatMap fun i => sortBy key (rowsOf i), ?_, ?_⟩
        · exact List.Sublist.flatMap_right _ fun i _ => List.take_sublist n _
        · exact List.Perm.flatMap_left _ fun i _ => sortBy_perm key _
      obtain ⟨whole, hsublist, hperm⟩ := hsub
      refine List.Nodup.sublist ?_ ((((hperm.append_right ys).append_left _).map key).nodup_iff.mpr h)
      exact (((hsublist.append (.refl ys))).append_left _).map key
    rw [List.flatMap_cons, List.append_assoc] at hnodup
    rw [List.flatMap_cons, List.flatMap_cons, List.append_assoc, ← hcut,
      take_sortBy_append n (hcutSub others hnodup), ← List.append_assoc,
      sortBy_congr (hcomm _ _ _) (by rw [List.append_assoc]; exact hcutSub others hnodup), ih]
    · rw [sortBy_congr (hcomm (rowsOf i) (parts.flatMap rowsOf) others).symm]
      exact (((hcomm _ _ _).map key).nodup_iff).mp (by rw [List.append_assoc]; exact hnodup)
    · exact (((hcomm _ _ _).map key).nodup_iff).mp (by rw [List.append_assoc]; exact hnodup)

end Order

/-- Texts that start with blocks of one length compare block by block. -/
theorem append_lt_append_iff {a b x y : List κ} (h : a.length = b.length) :
    a ++ x < b ++ y ↔ a < b ∨ a = b ∧ x < y := by
  induction a generalizing b with
  | nil =>
    obtain rfl := List.length_eq_zero_iff.mp h.symm
    simp
  | cons c a ih =>
    obtain ⟨d, b, rfl⟩ := List.exists_cons_of_length_pos (by rw [← h]; simp : 0 < b.length)
    have hlen : a.length = b.length := Nat.succ.inj h
    rw [List.cons_append, List.cons_append, List.cons_lt_cons_iff, List.cons_lt_cons_iff, ih hlen]
    grind

section Select

variable {ι : Type u} {ν : Type w} [DecidableEq ι]

/-- The keys of the first `limit` rows of a table that satisfy `p`. -/
def selectKeys (m : InsertionMap ι ν) (p : ι → ν → Bool) (order : ι → ν → κ) (limit : ℕ) : List ι :=
  ((sortBy (fun e => order e.1 e.2) (m.entries.filter fun e => p e.1 e.2)).take limit).map Prod.fst

variable {m : InsertionMap ι ν} {p : ι → ν → Bool} {order : ι → ν → κ} {limit : ℕ}

omit [DecidableEq ι] in
theorem nodup_selectKeys : (selectKeys m p order limit).Nodup := by
  have hnodup : ((m.entries.filter fun e => p e.1 e.2).map Prod.fst).Nodup :=
    m.nodup_keys.sublist (List.filter_sublist.map _)
  have hsorted := ((sortBy_perm (fun e => order e.1 e.2)
    (m.entries.filter fun e => p e.1 e.2)).map Prod.fst).nodup_iff.mpr hnodup
  exact hsorted.sublist ((List.take_sublist _ _).map _)

/-- A selected row satisfies the condition. -/
theorem exists_of_mem_selectKeys {k : ι} (h : k ∈ selectKeys m p order limit) :
    ∃ v, m.get? k = some v ∧ p k v = true := by
  obtain ⟨e, he, rfl⟩ := List.mem_map.mp h
  have hfilter := List.mem_filter.mp (mem_sortBy.mp (List.mem_of_mem_take he))
  exact ⟨e.2, InsertionMap.get?_eq_some_iff.mpr hfilter.1, hfilter.2⟩

end Select

end PandaPay
