import Mathlib

/-!
# The newest of several versions

A register holds one version and is overwritten by newer versions only. What it ends up with is the
newest version it was offered; when versions of one revision are equal, that depends on the set of
versions alone.

## Main definitions

* `newer`: offering a version to the register
* `newest`: the register after a list of versions

## Main results

* `newest_eq_some`: the result was offered, and nothing that was offered is newer
* `newest_congr`: lists with the same versions leave the same result
-/

namespace PandaPay

universe u v

variable {α : Type u} {β : Type v} [LinearOrder β] (rev : α → β)

/-- The register after `x` is offered to it. -/
def newer : Option α → α → Option α
  | none, x => some x
  | some a, x => if rev x ≤ rev a then some a else some x

/-- The register after the versions `xs` are offered to it in turn. -/
def newest (xs : List α) : Option α := xs.foldl (newer rev) none

@[simp] theorem newest_nil : newest rev [] = none := rfl

theorem newest_append (xs ys : List α) :
    newest rev (xs ++ ys) = ys.foldl (newer rev) (newest rev xs) :=
  List.foldl_append

theorem newest_toList (a : Option α) : newest rev a.toList = a := by
  cases a <;> rfl

variable {rev}

theorem newest_eq_none {xs : List α} : newest rev xs = none ↔ xs = [] := by
  constructor
  · intro h
    induction xs using List.reverseRecOn with
    | nil => rfl
    | append_singleton xs x _ =>
      rw [newest_append, List.foldl_cons, List.foldl_nil] at h
      cases hxs : newest rev xs with
      | none => rw [hxs] at h; cases h
      | some c =>
        rw [hxs, newer] at h
        split_ifs at h
  · rintro rfl
    rfl

/-- The result was offered, and nothing that was offered is newer. -/
theorem newest_eq_some {xs : List α} {b : α} (h : newest rev xs = some b) :
    b ∈ xs ∧ ∀ a ∈ xs, rev a ≤ rev b := by
  induction xs using List.reverseRecOn generalizing b with
  | nil => cases h
  | append_singleton xs x ih =>
    rw [newest_append, List.foldl_cons, List.foldl_nil] at h
    simp only [List.mem_append, List.mem_singleton]
    cases hxs : newest rev xs with
    | none =>
      rw [hxs] at h
      cases h
      refine ⟨.inr rfl, ?_⟩
      rintro a (ha | rfl)
      · rw [newest_eq_none.mp hxs] at ha
        exact absurd ha List.not_mem_nil
      · exact le_rfl
    | some c =>
      obtain ⟨hmem, hle⟩ := ih hxs
      rw [hxs, newer] at h
      split_ifs at h with hx
      · cases h
        refine ⟨.inl hmem, ?_⟩
        rintro a (ha | rfl)
        · exact hle a ha
        · exact hx
      · cases h
        refine ⟨.inr rfl, ?_⟩
        rintro a (ha | rfl)
        · exact le_trans (hle a ha) (le_of_not_ge hx)
        · exact le_rfl

/-- Where versions of one revision are equal, the result is the version that nothing offered is newer than. -/
theorem newest_eq_some_iff {xs : List α} {b : α} (heq : ∀ a ∈ xs, ∀ c ∈ xs, rev a = rev c → a = c) :
    newest rev xs = some b ↔ b ∈ xs ∧ ∀ a ∈ xs, rev a ≤ rev b := by
  refine ⟨newest_eq_some, fun ⟨hb, hmax⟩ => ?_⟩
  cases hxs : newest rev xs with
  | none =>
    rw [newest_eq_none.mp hxs] at hb
    exact absurd hb List.not_mem_nil
  | some c =>
    obtain ⟨hc, hmax'⟩ := newest_eq_some hxs
    rw [heq c hc b hb (le_antisymm (hmax c hc) (hmax' b hb))]

/-- What versions of one revision have in common is the same for lists with the same versions. -/
theorem newest_map_congr {γ : Type*} {f : α → γ} {xs ys : List α} (hmem : ∀ a, a ∈ xs ↔ a ∈ ys)
    (heq : ∀ a ∈ xs, ∀ b ∈ xs, rev a = rev b → f a = f b) : (newest rev xs).map f = (newest rev ys).map f := by
  cases hxs : newest rev xs with
  | none =>
    rw [newest_eq_none] at hxs
    have hys : newest rev ys = none := by
      rw [newest_eq_none, List.eq_nil_iff_forall_not_mem]
      intro a ha
      rw [← hmem, hxs] at ha
      exact List.not_mem_nil ha
    rw [hys]
  | some b =>
    obtain ⟨hb, hmax⟩ := newest_eq_some hxs
    cases hys : newest rev ys with
    | none =>
      rw [newest_eq_none] at hys
      rw [hmem, hys] at hb
      exact absurd hb List.not_mem_nil
    | some c =>
      obtain ⟨hc, hmax'⟩ := newest_eq_some hys
      have hle : rev b ≤ rev c := hmax' b ((hmem b).mp hb)
      have hge : rev c ≤ rev b := hmax c ((hmem c).mpr hc)
      rw [Option.map_some, Option.map_some, heq b hb c ((hmem c).mpr hc) (le_antisymm hle hge)]

/-- When versions of one revision are equal, lists with the same versions leave the same result. -/
theorem newest_congr {xs ys : List α} (hmem : ∀ a, a ∈ xs ↔ a ∈ ys)
    (heq : ∀ a ∈ xs, ∀ b ∈ xs, rev a = rev b → a = b) : newest rev xs = newest rev ys := by
  have := newest_map_congr (f := id) hmem heq
  rwa [Option.map_id, id, id] at this

end PandaPay
