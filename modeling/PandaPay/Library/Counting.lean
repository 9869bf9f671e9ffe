import PandaPay.Library.InsertionMap
import Mathlib.Algebra.Order.BigOperators.Group.List
import Mathlib.Algebra.Order.Group.Lattice
import Mathlib.Algebra.Order.Group.Unbundled.Abs

/-!
# Rows that count

Tables of rows that each count something for a key. An entry is given to the row of its key, which is made
if there is none, and what an entry gave is taken back by subtracting it, but not below zero. Rows may hold
more than what they count.

## Main definitions

* `put`, `putAll`: rows that become what entries make of them
* `Counting`: what rows count, and how a row takes an entry back and is given one
* `takeAll`, `giveAll`: the entries of a list, one after the other
* `share`: what some entries hold for a key

## Main results

* `amountIn_takeAll`, `amountIn_giveAll`: amounts change by the shares, as long as rows hold what is taken
* `get?_putAll`, `get?_takeAll`: the rows, for entries of distinct keys
* `rel_regive`: taking entries back and giving them again
-/

namespace PandaPay

universe u v w x

/-! ### Rows that are put -/

section Put

variable {κ : Type u} {ε : Type v} {ρ : Type w} [DecidableEq κ] (key : ε → κ) (f : Option ρ → ε → ρ)
  (table : InsertionMap κ ρ)

/-- The row of the key of an entry becomes what `f` makes of it. -/
def put (e : ε) : InsertionMap κ ρ := table.set (key e) (f (table.get? (key e)) e)

def putAll (es : List ε) : InsertionMap κ ρ := es.foldl (put key f) table

theorem putAll_cons (e : ε) (es : List ε) :
    putAll key f table (e :: es) = putAll key f (put key f table e) es := rfl

variable {key f}

/-- Rows of keys that nothing is put to stay. -/
theorem get?_putAll_of_forall {es : List ε} {k : κ} (h : ∀ e ∈ es, key e ≠ k) :
    (putAll key f table es).get? k = table.get? k := by
  induction es generalizing table with
  | nil => rfl
  | cons e es ih =>
    rw [putAll_cons, ih _ fun f hf => h f (List.mem_cons_of_mem e hf), put,
      InsertionMap.get?_set, if_neg (Ne.symm (h e List.mem_cons_self))]

/-- Entries of distinct keys are each put to their row. -/
theorem get?_putAll {es : List ε} (hnodup : (es.map key).Nodup) {e : ε} (he : e ∈ es) :
    (putAll key f table es).get? (key e) = some (f (table.get? (key e)) e) := by
  induction es generalizing table with
  | nil => exact absurd he List.not_mem_nil
  | cons e' es ih =>
    rw [List.map_cons, List.nodup_cons] at hnodup
    rw [putAll_cons]
    rcases List.mem_cons.mp he with rfl | he
    · rw [get?_putAll_of_forall _ fun g hg heq => hnodup.1 (List.mem_map.mpr ⟨g, hg, heq⟩), put,
        InsertionMap.get?_set_self]
    · have hne : key e ≠ key e' := fun heq => hnodup.1 (heq ▸ List.mem_map_of_mem he)
      rw [ih _ hnodup.2 he, put, InsertionMap.get?_set_of_ne _ _ hne]

variable (key) in
/-- What every row that is put has holds of all rows. -/
theorem forall_get?_putAll {P : κ → ρ → Prop} (hput : ∀ row e, P (key e) (f row e))
    (h : ∀ k row, table.get? k = some row → P k row) (es : List ε) :
    ∀ k row, (putAll key f table es).get? k = some row → P k row :=
  List.foldlRecOn es _ (motive := fun t : InsertionMap κ ρ => ∀ k row, t.get? k = some row → P k row) h
    fun _ ht e _ => InsertionMap.forall_get?_set ht (hput _ e)

end Put

/-- What rows of `ρ` count for the keys of `κ`, in `M`. -/
structure Counting (κ : Type u) (ε : Type v) (ρ : Type w) (M : Type x) [AddCommGroup M]
    [LinearOrder M] where
  key : ε → κ
  delta : ε → M
  amount : ρ → M
  /-- A row, after something it was given is taken back. -/
  take : κ → ρ → M → ρ
  /-- The row of the key of an entry, if there is one, after it is given the entry. -/
  give : Option ρ → ε → ρ
  amount_take : ∀ k row d, amount (take k row d) = max 0 (amount row - d)
  amount_give : ∀ row e, amount (give row e) = max 0 (row.elim 0 amount + delta e)

namespace Counting

variable {κ : Type u} {ε : Type v} {ρ : Type w} {M : Type x} [AddCommGroup M] [LinearOrder M]
  [DecidableEq κ] (c : Counting κ ε ρ M)

/-- What an entry is taken back as. -/
def posting (e : ε) : κ × M := (c.key e, c.delta e)

/-- What the table counts for a key. -/
def amountIn (table : InsertionMap κ ρ) (k : κ) : M := (table.get? k).elim 0 c.amount

/-- Take back from the row of a key. A key without a row has nothing to take back. -/
def takeBack (table : InsertionMap κ ρ) (posting : κ × M) : InsertionMap κ ρ :=
  match table.get? posting.1 with
  | none => table
  | some row => table.set posting.1 (c.take posting.1 row posting.2)

def takeAll (table : InsertionMap κ ρ) (postings : List (κ × M)) : InsertionMap κ ρ :=
  postings.foldl c.takeBack table

def giveAll (table : InsertionMap κ ρ) (es : List ε) : InsertionMap κ ρ := putAll c.key c.give table es

end Counting

/-! ### Shares -/

section Share

variable {κ : Type u} {M : Type x} [AddCommGroup M] [DecidableEq κ] {postings : List (κ × M)} {k : κ}

/-- What some postings hold for a key. -/
def share (k : κ) (postings : List (κ × M)) : M := (postings.map fun p => if p.1 = k then p.2 else 0).sum

@[simp] theorem share_nil : share k ([] : List (κ × M)) = 0 := rfl

theorem share_cons (p : κ × M) (postings : List (κ × M)) :
    share k (p :: postings) = (if p.1 = k then p.2 else 0) + share k postings := by
  rw [share, List.map_cons, List.sum_cons, ← share]

theorem share_perm {l l' : List (κ × M)} (h : l.Perm l') : share k l = share k l' := (h.map _).sum_eq

theorem share_eq_zero (h : ∀ p ∈ postings, p.1 ≠ k) : share k postings = 0 := by
  refine List.sum_eq_zero fun d hd => ?_
  obtain ⟨p, hp, rfl⟩ := List.mem_map.mp hd
  exact if_neg (h p hp)

/-- Of the elements of a list that post to one key, at most one posts to it. -/
theorem share_map_filter {α : Type v} {l : List α} (hnodup : l.Nodup) {a : α} (ha : a ∈ l)
    {f : α → κ × M} (hinj : ∀ b ∈ l, (f b).1 = k → b = a) (p : α → Bool) :
    share k ((l.filter p).map f) = if p a ∧ (f a).1 = k then (f a).2 else 0 := by
  classical
  have hsum : ∀ l' : List α, (∀ b ∈ l', b ∈ l) → l'.Nodup →
      share k ((l'.filter p).map f) = if a ∈ l' ∧ p a ∧ (f a).1 = k then (f a).2 else 0 := by
    intro l' hsub hl'
    induction l' with
    | nil => simp
    | cons b l' ih =>
      have ih := ih (fun c hc => hsub c (List.mem_cons_of_mem b hc)) (List.nodup_cons.mp hl').2
      have hb := (List.nodup_cons.mp hl').1
      by_cases hba : b = a
      · subst hba
        have hzero : share k ((l'.filter p).map f) = 0 := by rw [ih, if_neg fun h => hb h.1]
        cases hp : p b with
        | false => simp [hp, hzero]
        | true => simp [hp, share_cons, hzero]
      · have hne : (f b).1 ≠ k := fun h => hba (hinj b (hsub b List.mem_cons_self) h)
        have hmem : (a ∈ b :: l') ↔ a ∈ l' := by simp [Ne.symm hba]
        simp only [hmem, ← ih]
        cases hp : p b with
        | false => simp [hp]
        | true => simp [hp, share_cons, hne]
  rw [hsum l (fun _ h => h) hnodup]
  simp [ha]

theorem share_nonneg [LinearOrder M] [IsOrderedAddMonoid M] (h : ∀ p ∈ postings, 0 ≤ p.2) : 0 ≤ share k postings := by
  refine List.sum_nonneg fun d hd => ?_
  obtain ⟨p, hp, rfl⟩ := List.mem_map.mp hd
  split_ifs
  · exact h p hp
  · exact le_refl 0

end Share

/-! ### Amounts -/

namespace Counting

variable {κ : Type u} {ε : Type v} {ρ : Type w} {M : Type x} [AddCommGroup M] [LinearOrder M]
  [DecidableEq κ] (c : Counting κ ε ρ M) {table : InsertionMap κ ρ} {k : κ}

theorem amountIn_set (k' : κ) (row : ρ) :
    c.amountIn (table.set k' row) k = if k' = k then c.amount row else c.amountIn table k := by
  rw [amountIn, InsertionMap.get?_set]
  by_cases hk : k = k'
  · rw [if_pos hk, if_pos hk.symm, Option.elim_some]
  · rw [if_neg hk, if_neg (Ne.symm hk), amountIn]

theorem amountIn_give (e : ε) :
    c.amountIn (put c.key c.give table e) k =
      if c.key e = k then max 0 (c.amountIn table k + c.delta e) else c.amountIn table k := by
  rw [put, amountIn_set]
  split_ifs with hk
  · rw [c.amount_give, hk, amountIn]
  · rfl

variable [IsOrderedAddMonoid M]

theorem amountIn_takeBack {posting : κ × M} (h : 0 ≤ posting.2) :
    c.amountIn (c.takeBack table posting) k =
      if posting.1 = k then max 0 (c.amountIn table k - posting.2) else c.amountIn table k := by
  unfold takeBack
  cases hrow : table.get? posting.1 with
  | none =>
    dsimp only
    split_ifs with hk
    · rw [amountIn, ← hk, hrow, Option.elim_none, zero_sub, max_eq_left (neg_nonpos.mpr h)]
    · rfl
  | some row =>
    dsimp only
    rw [amountIn_set]
    split_ifs with hk
    · rw [c.amount_take, amountIn, ← hk, hrow, Option.elim_some]
    · rfl

/-- Where the row of a key holds what is taken back, it has that much less. -/
theorem amountIn_takeAll {postings : List (κ × M)} (hnonneg : ∀ p ∈ postings, 0 ≤ p.2)
    (hle : share k postings ≤ c.amountIn table k) :
    c.amountIn (c.takeAll table postings) k = c.amountIn table k - share k postings := by
  induction postings generalizing table with
  | nil => rw [share_nil, sub_zero, takeAll, List.foldl_nil]
  | cons p postings ih =>
    have hp : 0 ≤ p.2 := hnonneg p List.mem_cons_self
    have hrest : ∀ q ∈ postings, 0 ≤ q.2 := fun q hq => hnonneg q (List.mem_cons_of_mem p hq)
    have hback : c.amountIn (c.takeBack table p) k =
        if p.1 = k then max 0 (c.amountIn table k - p.2) else c.amountIn table k :=
      c.amountIn_takeBack hp
    rw [share_cons] at hle ⊢
    rw [takeAll, List.foldl_cons, ← takeAll]
    split_ifs at hback hle ⊢ with hk
    · have hstep : c.amountIn (c.takeBack table p) k = c.amountIn table k - p.2 := by
        rw [hback, max_eq_right]
        exact sub_nonneg.mpr ((le_add_of_nonneg_right (share_nonneg hrest)).trans hle)
      rw [ih hrest (by rw [hstep]; exact le_sub_iff_add_le'.mpr hle), hstep, sub_sub]
    · rw [zero_add] at hle ⊢
      rw [ih hrest (by rwa [hback]), hback]

/-- What is given is added. -/
theorem amountIn_giveAll {es : List ε} (hnonneg : ∀ e ∈ es, 0 ≤ c.delta e)
    (hamount : 0 ≤ c.amountIn table k) :
    c.amountIn (c.giveAll table es) k = c.amountIn table k + share k (es.map c.posting) := by
  induction es generalizing table with
  | nil => exact (add_zero _).symm
  | cons e es ih =>
    have he : 0 ≤ c.delta e := hnonneg e List.mem_cons_self
    have hto : c.amountIn (put c.key c.give table e) k =
        if c.key e = k then max 0 (c.amountIn table k + c.delta e) else c.amountIn table k :=
      c.amountIn_give e
    rw [giveAll, putAll_cons, ← giveAll, List.map_cons, share_cons]
    have hstep : c.amountIn (put c.key c.give table e) k =
        c.amountIn table k + if (c.posting e).1 = k then (c.posting e).2 else 0 := by
      rw [hto]
      change (if c.key e = k then _ else _) = _ + if c.key e = k then c.delta e else 0
      split_ifs
      · exact max_eq_right (add_nonneg hamount he)
      · rw [add_zero]
    have hnext : 0 ≤ c.amountIn (put c.key c.give table e) k := by
      rw [hto]
      split_ifs
      · exact le_max_left _ _
      · exact hamount
    rw [ih (fun f hf => hnonneg f (List.mem_cons_of_mem e hf)) hnext, hstep, add_assoc]

omit [IsOrderedAddMonoid M] in
/-- What is given to distinct keys is added, where it is taken from what rows hold, too. -/
theorem amountIn_giveAll_of_nodup {es : List ε} (hnodup : (es.map c.key).Nodup)
    (hamount : 0 ≤ c.amountIn table k + share k (es.map c.posting)) :
    c.amountIn (c.giveAll table es) k = c.amountIn table k + share k (es.map c.posting) := by
  by_cases hk : ∃ e ∈ es, c.key e = k
  · obtain ⟨e, he, rfl⟩ := hk
    have hshare : share (c.key e) (es.map c.posting) = c.delta e := by
      have hpick := share_map_filter (k := c.key e) (hnodup.of_map _) he (f := c.posting)
        (fun f hf hkey => List.inj_on_of_nodup_map hnodup hf he hkey) fun _ => true
      rw [List.filter_true] at hpick
      exact hpick.trans (if_pos ⟨rfl, rfl⟩)
    rw [hshare] at hamount ⊢
    rw [amountIn, giveAll, get?_putAll _ hnodup he, Option.elim_some, c.amount_give]
    exact max_eq_right hamount
  · push Not at hk
    have hshare : share k (es.map c.posting) = 0 := share_eq_zero fun p hp => by
      obtain ⟨e, he, rfl⟩ := List.mem_map.mp hp
      exact hk e he
    rw [hshare, add_zero, amountIn, giveAll, get?_putAll_of_forall _ hk, amountIn]

end Counting

/-! ### Rows -/

namespace Counting

variable {κ : Type u} {ε : Type v} {ρ : Type w} {M : Type x} [AddCommGroup M] [LinearOrder M]
  [DecidableEq κ] (c : Counting κ ε ρ M) {table : InsertionMap κ ρ}

/-- What taking back keeps of a row holds of all rows. -/
theorem forall_get?_takeAll {P : κ → ρ → Prop} (htake : ∀ k row d, P k row → P k (c.take k row d))
    (h : ∀ k row, table.get? k = some row → P k row) (postings : List (κ × M)) :
    ∀ k row, (c.takeAll table postings).get? k = some row → P k row := by
  refine List.foldlRecOn postings _ (motive := fun t : InsertionMap κ ρ =>
    ∀ k row, t.get? k = some row → P k row) h fun t ht p _ => ?_
  unfold takeBack
  split
  · exact ht
  · rename_i old hold
    exact InsertionMap.forall_get?_set ht (htake _ _ _ (ht _ _ hold))

/-- Rows of keys that nothing is taken back from stay. -/
theorem get?_takeAll_of_forall {postings : List (κ × M)} {k : κ} (h : ∀ p ∈ postings, p.1 ≠ k) :
    (c.takeAll table postings).get? k = table.get? k := by
  induction postings generalizing table with
  | nil => rfl
  | cons p postings ih =>
    rw [takeAll, List.foldl_cons, ← takeAll, ih fun q hq => h q (List.mem_cons_of_mem p hq), takeBack]
    split
    · rfl
    · rw [InsertionMap.get?_set, if_neg (Ne.symm (h p List.mem_cons_self))]

/-- Of postings of distinct keys, each takes back from its row. -/
theorem get?_takeAll {postings : List (κ × M)} (hnodup : (postings.map Prod.fst).Nodup) {p : κ × M}
    (hp : p ∈ postings) :
    (c.takeAll table postings).get? p.1 = (table.get? p.1).map fun row => c.take p.1 row p.2 := by
  induction postings generalizing table with
  | nil => exact absurd hp List.not_mem_nil
  | cons q postings ih =>
    rw [List.map_cons, List.nodup_cons] at hnodup
    rw [takeAll, List.foldl_cons, ← takeAll]
    rcases List.mem_cons.mp hp with rfl | hp
    · rw [get?_takeAll_of_forall c fun r hr heq => hnodup.1 (List.mem_map.mpr ⟨r, hr, heq⟩), takeBack]
      cases hrow : table.get? p.1 with
      | none => simp [hrow]
      | some row => simp
    · rw [ih hnodup.2 hp, takeBack]
      have hne : p.1 ≠ q.1 := fun heq => hnodup.1 (heq ▸ List.mem_map_of_mem hp)
      split
      · rfl
      · rw [InsertionMap.get?_set, if_neg hne]

/-- Entries of distinct keys are taken back and given again: each row is as it was, up to `S`, if that is
so of the rows of the entries. -/
theorem rel_regive {S : ρ → ρ → Prop} (hrefl : ∀ row, S row row) {es : List ε}
    (hnodup : (es.map c.key).Nodup) {postings : List (κ × M)} (hperm : postings.Perm (es.map c.posting))
    (hrow : ∀ e ∈ es, ∃ row, table.get? (c.key e) = some row ∧
      S row (c.give (some (c.take (c.key e) row (c.delta e))) e)) (k : κ) :
    Option.Rel S (table.get? k) ((c.giveAll (c.takeAll table postings) es).get? k) := by
  have hpostings : (postings.map Prod.fst).Nodup := by
    rw [(hperm.map Prod.fst).nodup_iff, List.map_map]
    exact hnodup
  by_cases hk : ∃ e ∈ es, c.key e = k
  · obtain ⟨e, he, rfl⟩ := hk
    obtain ⟨row, hget, hrel⟩ := hrow e he
    have hmem : c.posting e ∈ postings := hperm.mem_iff.mpr (List.mem_map_of_mem he)
    have htake : (c.takeAll table postings).get? (c.key e) =
        some (c.take (c.key e) row (c.delta e)) := by
      rw [show c.key e = (c.posting e).1 from rfl, c.get?_takeAll hpostings hmem]
      exact congrArg (Option.map _) hget
    rw [giveAll, get?_putAll _ hnodup he, htake, hget]
    exact .some hrel
  · push Not at hk
    have htake : (c.takeAll table postings).get? k = table.get? k := by
      refine c.get?_takeAll_of_forall fun p hp => ?_
      obtain ⟨e, he, rfl⟩ := List.mem_map.mp (hperm.mem_iff.mp hp)
      exact hk e he
    rw [giveAll, get?_putAll_of_forall _ hk, htake]
    cases table.get? k with
    | none => exact .none
    | some row => exact .some (hrefl row)

/-- Entries of distinct keys are taken back and given again: each row is as it was, if that is so of the
rows of the entries. -/
theorem get?_regive {es : List ε} (hnodup : (es.map c.key).Nodup) {postings : List (κ × M)}
    (hperm : postings.Perm (es.map c.posting))
    (hrow : ∀ e ∈ es, ∃ row, table.get? (c.key e) = some row ∧
      c.give (some (c.take (c.key e) row (c.delta e))) e = row) (k : κ) :
    (c.giveAll (c.takeAll table postings) es).get? k = table.get? k := by
  have hrel : Option.Rel (· = ·) (table.get? k) ((c.giveAll (c.takeAll table postings) es).get? k) := by
    refine c.rel_regive (fun _ => rfl) hnodup hperm (fun e he => ?_) k
    obtain ⟨row, hget, hgive⟩ := hrow e he
    exact ⟨row, hget, hgive.symm⟩
  revert hrel
  generalize table.get? k = row
  generalize (c.giveAll (c.takeAll table postings) es).get? k = row'
  rintro (hrow | _)
  · rw [hrow]
  · rfl

end Counting

end PandaPay
