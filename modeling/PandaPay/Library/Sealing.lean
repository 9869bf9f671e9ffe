import Mathlib.Data.List.Nodup

/-!
# Ideal authenticated encryption

What an ideal cipher with associated data opens: exactly the boxes that were sealed with the same key,
nonce and associated data, to the plaintext that was sealed in them.

## Main definitions

* `Sealing`: one use of the cipher
* `openSealed`: what the holder of a key can open

## Main results

* `exists_of_openSealed`: only sealed boxes are opened
* `openSealed_of_mem`: sealed boxes are opened, if their associated data tell them apart
-/

namespace PandaPay

universe u v w x y

/-- One use of a cipher: with what was sealed, and the box that came out. -/
structure Sealing (κ : Type u) (ν : Type v) (α : Type w) (π : Type x) (γ : Type y) where
  key : κ
  nonce : ν
  aad : α
  plain : π
  box : γ

variable {κ : Type u} {ν : Type v} {α : Type w} {π : Type x} {γ : Type y}
  [DecidableEq κ] [DecidableEq ν] [DecidableEq α] [DecidableEq γ]

/-- What is opened, when these boxes were sealed. -/
def openSealed (sealings : List (Sealing κ ν α π γ)) (key : κ) (nonce : ν) (aad : α) (box : γ) :
    Option π :=
  (sealings.find? fun s =>
    s.key = key ∧ s.nonce = nonce ∧ s.aad = aad ∧ s.box = box).map Sealing.plain

variable {sealings : List (Sealing κ ν α π γ)} {key : κ} {nonce : ν} {aad : α} {box : γ}

/-- Only sealed boxes are opened. -/
theorem exists_of_openSealed {plain : π} (h : openSealed sealings key nonce aad box = some plain) :
    ∃ s ∈ sealings, s.key = key ∧ s.nonce = nonce ∧ s.aad = aad ∧ s.box = box ∧ s.plain = plain := by
  obtain ⟨s, hs, hplain⟩ := Option.map_eq_some_iff.mp h
  have hfound := List.find?_some hs
  simp only [decide_eq_true_eq] at hfound
  obtain ⟨hkey, hnonce, haad, hbox⟩ := hfound
  exact ⟨s, List.mem_of_find?_eq_some hs, hkey, hnonce, haad, hbox, hplain⟩

/-- Sealed boxes are opened, if their associated data tell them apart. -/
theorem openSealed_of_mem (haads : (sealings.map Sealing.aad).Nodup) {s : Sealing κ ν α π γ}
    (hs : s ∈ sealings) : openSealed sealings s.key s.nonce s.aad s.box = some s.plain := by
  have hsome : (sealings.find? fun t =>
      t.key = s.key ∧ t.nonce = s.nonce ∧ t.aad = s.aad ∧ t.box = s.box).isSome := by
    rw [List.find?_isSome]
    exact ⟨s, hs, by simp⟩
  obtain ⟨t, ht⟩ := Option.isSome_iff_exists.mp hsome
  have hfound := List.find?_some ht
  simp only [decide_eq_true_eq] at hfound
  obtain ⟨-, -, haad, -⟩ := hfound
  rw [openSealed, ht, List.inj_on_of_nodup_map haads (List.mem_of_find?_eq_some ht) hs haad]
  rfl

end PandaPay
