import Mathlib.Data.List.Chain
import Mathlib.Data.List.Nodup
import Mathlib.Logic.Relation
import Mathlib.Tactic.Common
import PandaPay.Library.WhileLoop

/-!
# Walks along parent links

Nodes are found by keys, and a node may name the key of its parent, which need not exist and may be below the node.
A walk goes from parent to parent. It stops where there is no parent, and at keys that it has seen.

## Main definitions

* `Above`: a key is that of a node above another one
* `trail`: the keys that a walk finds
* `withParents`: some keys and those above them, where later walks stop at what earlier ones found
* `ParentRow`: the parent of a row of a table

## Main results

* `mem_trail_iff`, `mem_withParents_iff`: the keys that are found, for enough steps
* `nodup_trail`, `length_trail_le`: they are distinct, and no more than the steps
* `isChain_trail`, `trail_end`: each is the parent of the one before it, and why the walk ends
* `whileLoop_trail`: the loop ends
* `above_iff`: what is above a row of a table
-/

namespace PandaPay

universe u v

variable {κ : Type u} {ν : Type v} [DecidableEq κ] (find : κ → Option ν) (up : ν → Option κ)

/-- The second key is that of the parent of the node of the first one. -/
def IsParent (k p : κ) : Prop := (find k).bind up = some p ∧ (find p).isSome

/-- A key of the node of another one, or of a node above it. -/
def Above : κ → κ → Prop := Relation.ReflTransGen (IsParent find up)

/-- The keys that a walk finds. Each of its steps marks one. -/
def trail : ℕ → List κ → Option κ → List κ
  | steps + 1, marked, some k =>
    if k ∈ marked then []
    else
      match find k with
      | none => []
      | some a => k :: trail steps (k :: marked) (up a)
  | _, _, _ => []

/-- Keys and those above them. A walk stops at what has been found before. -/
def withParents (steps : ℕ) (keys : List κ) : List κ :=
  keys.foldl (fun found k => found ++ trail find up steps found ((find k).bind up)) keys

/-- `while (k != null && exists(k) && !marked(k)) { mark(k); k = parent(k); }`. -/
def walkTest (s : List κ × Option κ) : Bool := s.2.any fun k => k ∉ s.1 && (find k).isSome

/-- The body of the loop. -/
def walkStep (s : List κ × Option κ) : List κ × Option κ := (s.1 ++ s.2.toList, (s.2.bind find).bind up)

variable {find up}

/-! ### What a walk finds -/

theorem trail_of_mem {k : κ} {marked : List κ} (h : k ∈ marked) (steps : ℕ) :
    trail find up steps marked (some k) = [] := by
  cases steps with
  | zero => rfl
  | succ steps => simp [trail, h]

theorem trail_of_find_eq_none {k : κ} (h : find k = none) (steps : ℕ) (marked : List κ) :
    trail find up steps marked (some k) = [] := by
  cases steps with
  | zero => rfl
  | succ steps => simp [trail, h]

theorem trail_of_find {k : κ} {a : ν} {marked : List κ} (hk : k ∉ marked) (h : find k = some a) (steps : ℕ) :
    trail find up (steps + 1) marked (some k) = k :: trail find up steps (k :: marked) (up a) := by
  simp [trail, hk, h]

/-- A walk looks only whether a key is marked. -/
theorem trail_congr {marked marked' : List κ} (h : ∀ k, k ∈ marked ↔ k ∈ marked') (steps : ℕ) (start : Option κ) :
    trail find up steps marked start = trail find up steps marked' start := by
  induction steps generalizing marked marked' start with
  | zero => rfl
  | succ steps ih =>
    cases start with
    | none => rfl
    | some k =>
      have hrest : ∀ a, trail find up steps (k :: marked) (up a) = trail find up steps (k :: marked') (up a) :=
        fun a => ih (fun j => by rw [List.mem_cons, List.mem_cons, h j]) (up a)
      simp only [trail, h k, hrest]

/-- What a walk finds is above its start, and was not marked. -/
theorem above_of_mem_trail {steps : ℕ} {marked : List κ} {start : Option κ} {j : κ}
    (h : j ∈ trail find up steps marked start) :
    j ∉ marked ∧ ∃ k, start = some k ∧ (find k).isSome ∧ Above find up k j := by
  induction steps generalizing marked start with
  | zero => cases h
  | succ steps ih =>
    cases start with
    | none => cases h
    | some k =>
      by_cases hk : k ∈ marked
      · rw [trail_of_mem hk] at h
        cases h
      cases ha : find k with
      | none =>
        rw [trail_of_find_eq_none ha] at h
        cases h
      | some a =>
        rw [trail_of_find hk ha] at h
        rcases List.mem_cons.mp h with rfl | h
        · exact ⟨hk, j, rfl, by simp [ha], .refl⟩
        · obtain ⟨hj, p, hp, hsome, habove⟩ := ih h
          have hparent : IsParent find up k p := ⟨by simp [ha, hp], hsome⟩
          exact ⟨fun hmem => hj (List.mem_cons_of_mem _ hmem), k, rfl, by simp [ha], .head hparent habove⟩

theorem nodup_trail (steps : ℕ) (marked : List κ) (start : Option κ) : (trail find up steps marked start).Nodup := by
  induction steps generalizing marked start with
  | zero => exact List.nodup_nil
  | succ steps ih =>
    cases start with
    | none => exact List.nodup_nil
    | some k =>
      unfold trail
      split_ifs with hk
      · exact List.nodup_nil
      cases find k with
      | none => exact List.nodup_nil
      | some a =>
        exact List.nodup_cons.mpr ⟨fun h => (above_of_mem_trail h).1 List.mem_cons_self, ih _ _⟩

theorem length_trail_le (steps : ℕ) (marked : List κ) (start : Option κ) :
    (trail find up steps marked start).length ≤ steps := by
  induction steps generalizing marked start with
  | zero => exact Nat.le_refl 0
  | succ steps ih =>
    cases start with
    | none => exact Nat.zero_le _
    | some k =>
      unfold trail
      split_ifs with hk
      · exact Nat.zero_le _
      cases find k with
      | none => exact Nat.zero_le _
      | some a => exact Nat.succ_le_succ (ih _ _)

/-- A walk goes from parent to parent. -/
theorem isChain_trail (steps : ℕ) (marked : List κ) {k : κ} {start : Option κ} (hstart : (find k).bind up = start) :
    (k :: trail find up steps marked start).IsChain fun a b => (find a).bind up = some b := by
  induction steps generalizing marked k start with
  | zero => exact .singleton k
  | succ steps ih =>
    cases start with
    | none => exact .singleton k
    | some j =>
      by_cases hj : j ∈ marked
      · rw [trail_of_mem hj]
        exact .singleton k
      cases ha : find j with
      | none =>
        rw [trail_of_find_eq_none ha]
        exact .singleton k
      | some a =>
        rw [trail_of_find hj ha]
        exact .cons_cons hstart (ih (j :: marked) (by rw [ha]; rfl))

/-- A walk that has steps left ends where there is no parent, or none that is not marked or found. -/
theorem trail_end (steps : ℕ) (marked : List κ) {k : κ} {start : Option κ} (hstart : (find k).bind up = start) :
    (trail find up steps marked start).length = steps ∨
      ∀ last ∈ (k :: trail find up steps marked start).getLast?, ∀ p, (find last).bind up = some p →
        find p = none ∨ p ∈ marked ∨ p ∈ trail find up steps marked start := by
  induction steps generalizing marked k start with
  | zero => exact .inl rfl
  | succ steps ih =>
    cases start with
    | none =>
      refine .inr fun last hlast p hp => ?_
      obtain rfl : k = last := by simpa [trail] using hlast
      rw [hstart] at hp
      cases hp
    | some j =>
      have hend : (∀ p, p = j → find p = none ∨ p ∈ marked) →
          ∀ last ∈ [k].getLast?, ∀ p, (find last).bind up = some p → find p = none ∨ p ∈ marked ∨ p ∈ [] := by
        intro h last hlast p hp
        obtain rfl : k = last := by simpa using hlast
        rw [hstart] at hp
        exact (h p (Option.some.inj hp).symm).imp_right .inl
      by_cases hj : j ∈ marked
      · rw [trail_of_mem hj]
        exact .inr (hend fun p hp => .inr (hp ▸ hj))
      cases ha : find j with
      | none =>
        rw [trail_of_find_eq_none ha]
        exact .inr (hend fun p hp => .inl (hp ▸ ha))
      | some a =>
        rw [trail_of_find hj ha]
        rcases @ih (j :: marked) j (up a) (by rw [ha]; rfl) with h | h
        · exact .inl (by rw [List.length_cons, h])
        · refine .inr fun last hlast p hp => ?_
          rw [List.getLast?_cons_cons] at hlast
          rcases h last hlast p hp with h | h | h
          · exact .inl h
          · rcases List.mem_cons.mp h with rfl | h
            · exact .inr (.inr List.mem_cons_self)
            · exact .inr (.inl h)
          · exact .inr (.inr (List.mem_cons_of_mem _ h))

/-! ### Enough steps -/

/-- The keys of nodes that are not marked. -/
def unmarked (nodes marked : List κ) : List κ := nodes.filter (· ∉ marked)

/-- To mark a node leaves fewer of them. -/
theorem length_unmarked_cons {nodes marked : List κ} {k : κ} (hnode : k ∈ nodes) (hk : k ∉ marked) :
    (unmarked nodes (k :: marked)).length < (unmarked nodes marked).length := by
  have hfilter : unmarked nodes (k :: marked) = (unmarked nodes marked).filter (· ≠ k) := by
    unfold unmarked
    rw [List.filter_filter]
    refine List.filter_congr fun j _ => ?_
    simp [List.mem_cons, not_or]
  rw [hfilter]
  refine List.length_filter_lt_length_iff_exists.mpr ⟨k, ?_, by simp⟩
  exact List.mem_filter.mpr ⟨hnode, by simpa using hk⟩

section

variable {nodes : List κ} (hnodes : ∀ k, (find k).isSome → k ∈ nodes)
include hnodes

/-- A walk with enough steps finds its start, and with each node its parent, unless they were marked. -/
theorem trail_closed {steps : ℕ} {marked : List κ} (hsteps : (unmarked nodes marked).length ≤ steps)
    (start : Option κ) :
    (∀ k, start = some k → (find k).isSome → k ∈ marked ∨ k ∈ trail find up steps marked start) ∧
      ∀ k ∈ trail find up steps marked start, ∀ p, IsParent find up k p →
        p ∈ marked ∨ p ∈ trail find up steps marked start := by
  induction steps generalizing marked start with
  | zero =>
    refine ⟨fun k _ hsome => .inl ?_, fun k hk => absurd hk List.not_mem_nil⟩
    have hempty := List.length_eq_zero_iff.mp (Nat.le_zero.mp hsteps)
    simpa using List.filter_eq_nil_iff.mp hempty k (hnodes k hsome)
  | succ steps ih =>
    cases start with
    | none => exact ⟨fun _ h _ => (nomatch h), fun _ hk => absurd hk List.not_mem_nil⟩
    | some k =>
      by_cases hk : k ∈ marked
      · rw [trail_of_mem hk]
        refine ⟨fun j hj _ => .inl ?_, fun j hj => by cases hj⟩
        rwa [← Option.some.inj hj]
      cases ha : find k with
      | none =>
        rw [trail_of_find_eq_none ha]
        refine ⟨fun j hj hsome => ?_, fun j hj => by cases hj⟩
        rw [← Option.some.inj hj, ha] at hsome
        cases hsome
      | some a =>
        have hless := length_unmarked_cons (hnodes k (by simp [ha])) hk
        obtain ⟨hstart, hclosed⟩ := @ih (k :: marked) (by omega) (up a)
        have hput : ∀ p, p ∈ k :: marked ∨ p ∈ trail find up steps (k :: marked) (up a) →
            p ∈ marked ∨ p ∈ k :: trail find up steps (k :: marked) (up a) := by
          rintro p (hp | hp)
          · rcases List.mem_cons.mp hp with rfl | hp
            · exact .inr List.mem_cons_self
            · exact .inl hp
          · exact .inr (List.mem_cons_of_mem _ hp)
        rw [trail_of_find hk ha]
        refine ⟨fun j hj _ => .inr ?_, fun j hj p hp => hput p ?_⟩
        · rw [← Option.some.inj hj]
          exact List.mem_cons_self
        · rcases List.mem_cons.mp hj with rfl | hj
          · refine hstart p ?_ hp.2
            simpa [ha] using hp.1
          · exact hclosed j hj p hp

omit [DecidableEq κ] hnodes in
/-- A closed set of keys has what is above its keys. -/
theorem mem_of_above {S : List κ} (hclosed : ∀ k ∈ S, ∀ p, IsParent find up k p → p ∈ S) {k j : κ} (hk : k ∈ S)
    (h : Above find up k j) : j ∈ S := by
  induction h with
  | refl => exact hk
  | tail _ hp ih => exact hclosed _ ih _ hp

/-- A walk from the parent of a node finds what is above the node. -/
theorem mem_trail_iff {steps : ℕ} (hsteps : nodes.length ≤ steps) {k j : κ} :
    j ∈ k :: trail find up steps [k] ((find k).bind up) ↔ Above find up k j := by
  obtain ⟨hstart, hclosed⟩ := @trail_closed _ _ _ _ up _ hnodes _ [k]
    (Nat.le_trans (List.length_filter_le _ _) hsteps) ((find k).bind up)
  have hput : ∀ p, p ∈ [k] ∨ p ∈ trail find up steps [k] ((find k).bind up) →
      p ∈ k :: trail find up steps [k] ((find k).bind up) := by
    rintro p (hp | hp)
    · rw [List.mem_singleton.mp hp]
      exact List.mem_cons_self
    · exact List.mem_cons_of_mem _ hp
  refine ⟨fun h => ?_, mem_of_above (fun i hi p hp => hput p ?_) List.mem_cons_self⟩
  · rcases List.mem_cons.mp h with rfl | h
    · exact .refl
    · obtain ⟨-, p, hp, hsome, habove⟩ := above_of_mem_trail h
      exact .head ⟨hp, hsome⟩ habove
  · rcases List.mem_cons.mp hi with rfl | hi
    · exact hstart p hp.1 hp.2
    · exact hclosed i hi p hp

/-- What is found for some keys: the keys, and what is above them. A key whose walk is still to come may lack its
parent. -/
theorem mem_withParents_iff {steps : ℕ} (hsteps : nodes.length ≤ steps) {keys : List κ} {j : κ} :
    j ∈ withParents find up steps keys ↔ ∃ k ∈ keys, Above find up k j := by
  have hrun : ∀ rest found : List κ,
      (∀ k ∈ found, k ∈ rest ∨ ∀ p, IsParent find up k p → p ∈ found) →
      (∀ i ∈ found, ∃ k ∈ keys, Above find up k i) → (∀ i ∈ rest, i ∈ keys) →
      let result := rest.foldl (fun found k => found ++ trail find up steps found ((find k).bind up)) found
      (∀ i ∈ found, i ∈ result) ∧ (∀ k ∈ result, ∀ p, IsParent find up k p → p ∈ result) ∧
        ∀ i ∈ result, ∃ k ∈ keys, Above find up k i := by
    intro rest
    induction rest with
    | nil =>
      intro found hclosed hsound _
      exact ⟨fun _ => id, fun k hk p hp => (hclosed k hk).elim (fun h => by cases h) (fun h => h p hp), hsound⟩
    | cons k rest ih =>
      intro found hclosed hsound hkeys
      obtain ⟨hstart, hnew⟩ := @trail_closed _ _ _ _ up _ hnodes _ found
        (Nat.le_trans (List.length_filter_le _ _) hsteps) ((find k).bind up)
      have hclosed' : ∀ i ∈ found ++ trail find up steps found ((find k).bind up), i ∈ rest ∨
          ∀ p, IsParent find up i p → p ∈ found ++ trail find up steps found ((find k).bind up) := by
        intro i hi
        rcases List.mem_append.mp hi with hi | hi
        · rcases hclosed i hi with h | h
          · rcases List.mem_cons.mp h with rfl | h
            · exact .inr fun p hp => List.mem_append.mpr (hstart p hp.1 hp.2)
            · exact .inl h
          · exact .inr fun p hp => List.mem_append_left _ (h p hp)
        · exact .inr fun p hp => List.mem_append.mpr (hnew i hi p hp)
      have hsound' : ∀ i ∈ found ++ trail find up steps found ((find k).bind up), ∃ k ∈ keys, Above find up k i := by
        intro i hi
        rcases List.mem_append.mp hi with hi | hi
        · exact hsound i hi
        · obtain ⟨-, p, hp, hsome, habove⟩ := above_of_mem_trail hi
          exact ⟨k, hkeys k List.mem_cons_self, .head ⟨hp, hsome⟩ habove⟩
      obtain ⟨hkeep, hresult⟩ := ih _ hclosed' hsound' fun i hi => hkeys i (List.mem_cons_of_mem _ hi)
      exact ⟨fun i hi => hkeep i (List.mem_append_left _ hi), hresult⟩
  obtain ⟨hkeep, hclosed, hsound⟩ := hrun keys keys (fun _ => .inl) (fun i hi => ⟨i, hi, .refl⟩) fun _ => id
  refine ⟨hsound j, ?_⟩
  rintro ⟨k, hk, habove⟩
  exact mem_of_above hclosed (hkeep k hk) habove

/-- The loop ends, with what the walk finds behind what was marked. -/
theorem whileLoop_trail {steps : ℕ} {marked : List κ} (hsteps : (unmarked nodes marked).length ≤ steps)
    (start : Option κ) {rounds : ℕ} (hrounds : steps < rounds) :
    ∃ last, whileLoop (walkTest find) (walkStep find up) rounds (marked, start) =
      some (marked ++ trail find up steps marked start, last) := by
  induction steps generalizing marked start rounds with
  | zero =>
    obtain ⟨rounds, rfl⟩ : ∃ r, rounds = r + 1 := ⟨rounds - 1, by omega⟩
    have hstop : walkTest find (marked, start) = false := by
      have hempty := List.length_eq_zero_iff.mp (Nat.le_zero.mp hsteps)
      cases start with
      | none => rfl
      | some k =>
        have hmarked : (find k).isSome → k ∈ marked := fun hsome => by
          simpa using List.filter_eq_nil_iff.mp hempty k (hnodes k hsome)
        cases hk : (find k).isSome <;> simp [walkTest, hk, hmarked]
    refine ⟨start, ?_⟩
    rw [whileLoop, hstop]
    simp [trail]
  | succ steps ih =>
    obtain ⟨rounds, rfl⟩ : ∃ r, rounds = r + 1 := ⟨rounds - 1, by omega⟩
    cases start with
    | none => exact ⟨none, by simp [whileLoop, walkTest, trail]⟩
    | some k =>
      by_cases hk : k ∈ marked
      · exact ⟨some k, by simp [whileLoop, walkTest, trail, hk]⟩
      cases ha : find k with
      | none => exact ⟨some k, by simp [whileLoop, walkTest, trail, ha]⟩
      | some a =>
        have hless := length_unmarked_cons (hnodes k (by simp [ha])) hk
        have hsame : ∀ i, i ∈ marked ++ [k] ↔ i ∈ k :: marked := fun i => by
          simp [or_comm]
        have hunmarked : unmarked nodes (marked ++ [k]) = unmarked nodes (k :: marked) :=
          List.filter_congr fun i _ => by simp only [hsame i]
        obtain ⟨last, hrun⟩ := @ih (marked ++ [k]) (by rw [hunmarked]; omega) (up a)
          rounds (by omega)
        have htest : walkTest find (marked, some k) = true := by simp [walkTest, hk, ha]
        have hbody : walkStep find up (marked, some k) = (marked ++ [k], up a) := by simp [walkStep, ha]
        refine ⟨last, ?_⟩
        rw [whileLoop, htest, if_pos rfl, hbody, hrun, trail_of_find hk ha, trail_congr hsame]
        simp

end

/-! ### Tables -/

/-- A row of a table that another one names as its parent. -/
def ParentRow (key : ν → κ) (up : ν → Option κ) (rows : List ν) (a b : ν) : Prop := b ∈ rows ∧ up a = some (key b)

omit [DecidableEq κ] in
/-- The keys above that of a row are those of the rows above it. -/
theorem above_iff {key : ν → κ} {rows : List ν} (hfind : ∀ k a, find k = some a ↔ a ∈ rows ∧ key a = k) {a : ν}
    (ha : a ∈ rows) {k : κ} :
    Above find up (key a) k ↔ ∃ b ∈ rows, key b = k ∧ Relation.ReflTransGen (ParentRow key up rows) a b := by
  have hrow : ∀ b ∈ rows, find (key b) = some b := fun b hb => (hfind _ b).mpr ⟨hb, rfl⟩
  constructor
  · intro h
    induction h with
    | refl => exact ⟨a, ha, rfl, .refl⟩
    | tail _ hp ih =>
      obtain ⟨b, hb, rfl, habove⟩ := ih
      obtain ⟨c, hc⟩ := Option.isSome_iff_exists.mp hp.2
      obtain ⟨hmem, rfl⟩ := (hfind _ c).mp hc
      have hup : up b = some (key c) := by simpa [hrow b hb] using hp.1
      exact ⟨c, hmem, rfl, habove.tail ⟨hmem, hup⟩⟩
  · rintro ⟨b, hb, rfl, habove⟩
    clear hb
    have hboth : Above find up (key a) (key b) ∧ b ∈ rows := by
      induction habove with
      | refl => exact ⟨.refl, ha⟩
      | tail _ hp ih =>
        refine ⟨ih.1.tail ⟨?_, by simp [hrow _ hp.1]⟩, hp.1⟩
        simpa [hrow _ ih.2] using hp.2
    exact hboth.1

end PandaPay
