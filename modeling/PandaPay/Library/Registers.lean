import PandaPay.Library.Newest

/-!
# Registers that compare coarse stamps

A merge of two registers keeps the value with the greater stamp, and one of the two where the stamps are equal. If
the stamps are coarser than the revisions that the values have, such as whole milliseconds of instants, the merge
of several registers depends on their order exactly where values of different revisions share the greatest stamp.

## Main definitions

* `firstOf`, `lastOf`: a merge that keeps the first or the last value of equal stamps
* `OneAtTop`: the values of the greatest stamp have one revision

## Main results

* `firstOf_orders_iff`, `lastOf_orders_iff`: every order leaves the newest value exactly where one revision has
  the greatest stamp
-/

namespace PandaPay

universe u v w

variable {α : Type u} {β : Type v} {γ : Type w} [LinearOrder β] [LinearOrder γ] {stamp : α → γ} {rev : α → β}

/-- The value with the greater stamp, the first of equal stamps. A missing value never wins. -/
def firstOf (stamp : α → γ) : Option α → Option α → Option α
  | none, y => y
  | x, none => x
  | some a, some b => if stamp a < stamp b then some b else some a

/-- The value with the greater stamp, the last of equal stamps. A missing value never wins. -/
def lastOf (stamp : α → γ) : Option α → Option α → Option α
  | none, y => y
  | x, none => x
  | some a, some b => if stamp b < stamp a then some a else some b

/-- A merge picks the value with the greater stamp. -/
structure Picks (stamp : α → γ) (pick : Option α → Option α → Option α) : Prop where
  none_left : ∀ y, pick none y = y
  none_right : ∀ x, pick x none = x
  either : ∀ a b, (pick (some a) (some b) = some a ∧ stamp b ≤ stamp a) ∨
    (pick (some a) (some b) = some b ∧ stamp a ≤ stamp b)

theorem picks_firstOf : Picks stamp (firstOf stamp) where
  none_left _ := rfl
  none_right x := by cases x <;> rfl
  either a b := by
    rcases lt_or_ge (stamp a) (stamp b) with h | h
    · exact .inr ⟨if_pos h, le_of_lt h⟩
    · exact .inl ⟨if_neg (not_lt.mpr h), h⟩

theorem picks_lastOf : Picks stamp (lastOf stamp) where
  none_left _ := rfl
  none_right x := by cases x <;> rfl
  either a b := by
    rcases lt_or_ge (stamp b) (stamp a) with h | h
    · exact .inl ⟨if_pos h, le_of_lt h⟩
    · exact .inr ⟨if_neg (not_lt.mpr h), h⟩

/-- What a register holds after values were merged into it: one of them, of the greatest stamp. -/
def HoldsTop (stamp : α → γ) (l : List α) (r : Option α) : Prop :=
  (∀ a, r = some a → a ∈ l ∧ ∀ b ∈ l, stamp b ≤ stamp a) ∧ (r = none → l = [])

section Fold

variable {pick : Option α → Option α → Option α} (h : Picks stamp pick)
include h

theorem Picks.holdsTop_foldl {l : List α} {r : Option α} (hr : HoldsTop stamp l r) (xs : List (Option α)) :
    HoldsTop stamp (l ++ xs.filterMap id) (xs.foldl pick r) := by
  induction xs generalizing l r with
  | nil => rwa [List.filterMap_nil, List.append_nil]
  | cons x xs ih =>
    rw [List.foldl_cons]
    cases x with
    | none =>
      rw [h.none_right]
      exact ih hr
    | some b =>
      have hcons : (some b :: xs).filterMap id = [b] ++ xs.filterMap id := rfl
      rw [hcons, ← List.append_assoc]
      refine ih ?_
      cases r with
      | none =>
        rw [h.none_left, hr.2 rfl]
        refine ⟨fun a ha => ?_, fun hnone => (nomatch hnone)⟩
        obtain rfl := Option.some.inj ha
        exact ⟨List.mem_singleton_self b, fun c hc => le_of_eq (congrArg stamp (List.mem_singleton.mp hc))⟩
      | some a =>
        obtain ⟨hmem, hmax⟩ := hr.1 a rfl
        rcases h.either a b with ⟨hpick, hle⟩ | ⟨hpick, hle⟩ <;> rw [hpick]
        · refine ⟨fun c hc => ?_, fun hnone => (nomatch hnone)⟩
          obtain rfl := Option.some.inj hc
          refine ⟨List.mem_append_left _ hmem, fun d hd => ?_⟩
          exact (List.mem_append.mp hd).elim (hmax d) fun hd => List.mem_singleton.mp hd ▸ hle
        · refine ⟨fun c hc => ?_, fun hnone => (nomatch hnone)⟩
          obtain rfl := Option.some.inj hc
          refine ⟨List.mem_append_right _ (List.mem_singleton_self b), fun d hd => ?_⟩
          rcases List.mem_append.mp hd with hd | hd
          · exact le_trans (hmax d hd) hle
          · exact le_of_eq (congrArg stamp (List.mem_singleton.mp hd))

theorem Picks.holdsTop (x : Option α) (xs : List (Option α)) :
    HoldsTop stamp ((x :: xs).filterMap id) (xs.foldl pick x) := by
  have hfirst : HoldsTop stamp x.toList x := by
    cases x with
    | none => exact ⟨fun a ha => (nomatch ha), fun _ => rfl⟩
    | some b =>
      refine ⟨fun a ha => ?_, fun hnone => (nomatch hnone)⟩
      obtain rfl := Option.some.inj ha
      exact ⟨List.mem_singleton_self b, fun c hc => le_of_eq (congrArg stamp (List.mem_singleton.mp hc))⟩
  have hall := h.holdsTop_foldl hfirst xs
  cases x <;> exact hall

end Fold

/-! ### Revisions -/

/-- The values of the greatest stamp have one revision. -/
def OneAtTop (stamp : α → γ) (rev : α → β) (l : List α) : Prop :=
  ∀ a ∈ l, ∀ b ∈ l, (∀ c ∈ l, stamp c ≤ stamp a) → stamp a = stamp b → rev a = rev b

section Revisions

variable {l : List α} (hmono : ∀ a b : α, rev a ≤ rev b → stamp a ≤ stamp b)
  (hinj : ∀ a ∈ l, ∀ b ∈ l, rev a = rev b → a = b)
include hmono hinj

/-- A value of the greatest stamp is the newest one if that stamp has one revision. -/
theorem HoldsTop.eq_newest {r : Option α} (hr : HoldsTop stamp l r) (hone : OneAtTop stamp rev l) :
    r = newest rev l := by
  cases hnewest : newest rev l with
  | none =>
    rw [newest_eq_none.mp hnewest] at hr
    cases r with
    | none => rfl
    | some a => exact absurd (hr.1 a rfl).1 List.not_mem_nil
  | some b =>
    obtain ⟨hb, hmax⟩ := newest_eq_some hnewest
    cases r with
    | none =>
      rw [hr.2 rfl] at hb
      exact absurd hb List.not_mem_nil
    | some a =>
      obtain ⟨ha, htop⟩ := hr.1 a rfl
      have hstamp : stamp a = stamp b := le_antisymm (hmono a b (hmax a ha)) (htop b hb)
      rw [hinj a ha b hb (hone a ha b hb htop hstamp)]

end Revisions

/-- Of two revisions, the older one is not the newest value. -/
theorem ne_newest_of_lt {l : List α} {a b : α} (hb : b ∈ l) (hlt : rev a < rev b) : some a ≠ newest rev l := by
  intro heq
  exact absurd ((newest_eq_some heq.symm).2 b hb) (not_le.mpr hlt)

theorem lastOf_eq_last {r : Option α} {a : α} (h : ∀ c ∈ r, stamp c ≤ stamp a) :
    lastOf stamp r (some a) = some a := by
  cases r with
  | none => rfl
  | some c => exact if_neg (not_lt.mpr (h c rfl))

theorem foldl_firstOf_eq_first {xs : List (Option α)} {a : α} (h : ∀ c, some c ∈ xs → stamp c ≤ stamp a) :
    xs.foldl (firstOf stamp) (some a) = some a := by
  induction xs with
  | nil => rfl
  | cons x xs ih =>
    have hkeep : firstOf stamp (some a) x = some a := by
      cases x with
      | none => rfl
      | some c => exact if_neg (not_lt.mpr (h c List.mem_cons_self))
    rw [List.foldl_cons, hkeep]
    exact ih fun c hc => h c (List.mem_cons_of_mem x hc)

section Orders

variable {δ : Type*} {reg : δ → Option α} {docs : List δ}
  (hmono : ∀ a b : α, rev a ≤ rev b → stamp a ≤ stamp b)
  (hinj : ∀ a ∈ docs.filterMap reg, ∀ b ∈ docs.filterMap reg, rev a = rev b → a = b)
include hmono hinj

/-- Where one revision has the greatest stamp, every order leaves the newest value. -/
theorem Picks.foldl_eq_newest {pick : Option α → Option α → Option α} (h : Picks stamp pick)
    (hone : OneAtTop stamp rev (docs.filterMap reg)) {first : δ} {rest : List δ}
    (hperm : (first :: rest).Perm docs) :
    (rest.map reg).foldl pick (reg first) = newest rev (docs.filterMap reg) := by
  have htop := h.holdsTop (reg first) (rest.map reg)
  have hvalues : (reg first :: rest.map reg).filterMap id = (first :: rest).filterMap reg := by
    rw [← List.map_cons, List.filterMap_map, Function.id_comp]
  rw [hvalues] at htop
  have hmem : ∀ a, a ∈ (first :: rest).filterMap reg ↔ a ∈ docs.filterMap reg := fun a =>
    (hperm.filterMap reg).mem_iff
  have htop' : HoldsTop stamp (docs.filterMap reg) ((rest.map reg).foldl pick (reg first)) := by
    refine ⟨fun a ha => ?_, fun hnone => ?_⟩
    · obtain ⟨hin, hmax⟩ := htop.1 a ha
      exact ⟨(hmem a).mp hin, fun b hb => hmax b ((hmem b).mpr hb)⟩
    · rw [List.eq_nil_iff_forall_not_mem]
      intro a ha
      rw [← hmem, htop.2 hnone] at ha
      exact List.not_mem_nil ha
  exact htop'.eq_newest hmono hinj hone

omit hmono hinj in
/-- Where two revisions share the greatest stamp, one of them is older, and its document can come at any place. -/
theorem oneAtTop_of_orders (h : ∀ a b : α, ∀ d ∈ docs, ∀ e ∈ docs, reg d = some a → reg e = some b →
      (∀ c ∈ docs.filterMap reg, stamp c ≤ stamp a) → ¬ rev a < rev b) :
    OneAtTop stamp rev (docs.filterMap reg) := by
  intro a ha b hb htop hstamp
  obtain ⟨d, hd, hda⟩ := List.mem_filterMap.mp ha
  obtain ⟨e, he, heb⟩ := List.mem_filterMap.mp hb
  have hab := h a b d hd e he hda heb htop
  have hba := h b a e he d hd heb hda fun c hc => hstamp ▸ htop c hc
  exact le_antisymm (not_lt.mp hba) (not_lt.mp hab)

/-- Every order leaves the newest value exactly where one revision has the greatest stamp. -/
theorem lastOf_orders_iff :
    (∀ first rest, (first :: rest).Perm docs →
      (rest.map reg).foldl (lastOf stamp) (reg first) = newest rev (docs.filterMap reg)) ↔
    OneAtTop stamp rev (docs.filterMap reg) := by
  refine ⟨fun h => oneAtTop_of_orders fun a b d hd e he hda heb htop hlt => ?_,
    fun hone first rest hperm => picks_lastOf.foldl_eq_newest hmono hinj hone hperm⟩
  -- the document of the older one comes last
  have hb : b ∈ docs.filterMap reg := List.mem_filterMap.mpr ⟨e, he, heb⟩
  obtain ⟨before, after, rfl⟩ := List.append_of_mem hd
  have hperm : ((before ++ after) ++ [d]).Perm (before ++ d :: after) := by
    rw [List.append_assoc]
    exact (List.perm_append_singleton d after).append_left before
  have hother : e ∈ before ++ after := by
    rcases List.mem_append.mp (hperm.mem_iff.mpr he) with he | he
    · exact he
    · rw [List.mem_singleton.mp he, hda] at heb
      obtain rfl := Option.some.inj heb
      exact absurd hlt (lt_irrefl _)
  obtain ⟨first, rest, hrest⟩ := List.exists_cons_of_ne_nil (List.ne_nil_of_mem hother)
  rw [hrest, List.cons_append] at hperm
  have hleft := h first (rest ++ [d]) hperm
  rw [List.map_append, List.foldl_append, List.map_singleton, List.foldl_cons, List.foldl_nil, hda] at hleft
  have hlast : lastOf stamp ((rest.map reg).foldl (lastOf stamp) (reg first)) (some a) = some a := by
    refine lastOf_eq_last fun c hc => htop c ?_
    have hlast : Picks stamp (lastOf stamp) := picks_lastOf
    have hmem := (hlast.holdsTop (reg first) (rest.map reg)).1 c hc
    rw [← List.map_cons, List.filterMap_map, Function.id_comp] at hmem
    refine (hperm.filterMap reg).mem_iff.mp ?_
    rw [← List.cons_append, List.filterMap_append]
    exact List.mem_append_left _ hmem.1
  rw [hlast] at hleft
  exact ne_newest_of_lt hb hlt hleft

/-- The same for a merge that keeps the first of equal stamps. -/
theorem firstOf_orders_iff :
    (∀ first rest, (first :: rest).Perm docs →
      (rest.map reg).foldl (firstOf stamp) (reg first) = newest rev (docs.filterMap reg)) ↔
    OneAtTop stamp rev (docs.filterMap reg) := by
  refine ⟨fun h => oneAtTop_of_orders fun a b d hd e he hda heb htop hlt => ?_,
    fun hone first rest hperm => picks_firstOf.foldl_eq_newest hmono hinj hone hperm⟩
  -- the document of the older one comes first
  have hb : b ∈ docs.filterMap reg := List.mem_filterMap.mpr ⟨e, he, heb⟩
  obtain ⟨before, after, rfl⟩ := List.append_of_mem hd
  have hperm : (d :: (before ++ after)).Perm (before ++ d :: after) := List.perm_middle.symm
  have hleft := h d (before ++ after) hperm
  rw [hda, foldl_firstOf_eq_first fun c hc => ?_] at hleft
  · exact ne_newest_of_lt hb hlt hleft
  · obtain ⟨f, hf, hfc⟩ := List.mem_map.mp hc
    exact htop c (List.mem_filterMap.mpr ⟨f, hperm.mem_iff.mp (List.mem_cons_of_mem d hf), hfc⟩)

end Orders

end PandaPay
