import PandaPay.Library.InsertionMap

/-!
# Maps that remember values

A map under construction remembers, by key, values of a function that need not be defined
everywhere. What it holds is right, and it is complete for the elements that were looked at.

## Main definitions

* `Memo key f l done m`: `m` holds only values of `f`, and all values of the elements in `done`

## Main results

* `Memo.set`, `Memo.hit`, `Memo.skip`: an element is looked at: its value is assigned, is there
  already, or does not exist
-/

namespace PandaPay

universe u v w

variable {α : Type u} {κ : Type v} {ν : Type w} [DecidableEq κ]

/-- The map holds only values of `f`, and those of the elements of `done`. -/
structure Memo (key : α → κ) (f : α → Option ν) (l : List α) (done : α → Prop)
    (m : InsertionMap κ ν) : Prop where
  /-- A remembered value is the value. -/
  sound : ∀ a ∈ l, ∀ v, m.get? (key a) = some v → f a = some v
  /-- The values of the elements looked at are remembered. -/
  complete : ∀ a ∈ l, done a → m.get? (key a) = f a

namespace Memo

variable {key : α → κ} {f : α → Option ν} {l : List α} {done : α → Prop} {m : InsertionMap κ ν} {a : α}
  {v : ν}

/-- Nothing has been looked at. -/
theorem start (h : ∀ a ∈ l, ∀ v, m.get? (key a) = some v → f a = some v) :
    Memo key f l (fun _ => False) m :=
  ⟨h, fun _ _ hdone => hdone.elim⟩

theorem mono {done' : α → Prop} (h : Memo key f l done m) (hsub : ∀ b, done' b → done b) :
    Memo key f l done' m :=
  ⟨h.sound, fun b hb hdone => h.complete b hb (hsub b hdone)⟩

/-- The value is there already. -/
theorem hit (h : Memo key f l done m) (ha : a ∈ l) (hget : m.get? (key a) = some v) :
    Memo key f l (fun b => done b ∨ b = a) m := by
  refine ⟨h.sound, fun b hb hdone => hdone.elim (h.complete b hb) ?_⟩
  rintro rfl
  rw [hget, h.sound b ha v hget]

/-- There is no value. -/
theorem skip (h : Memo key f l done m) (hnone : f a = none) :
    Memo key f l (fun b => done b ∨ b = a) m := by
  refine ⟨h.sound, fun b hb hdone => hdone.elim (h.complete b hb) ?_⟩
  rintro rfl
  cases hget : m.get? (key b) with
  | none => exact hnone.symm
  | some v => exact (h.sound b hb v hget).symm

/-- The value is assigned. -/
theorem set (h : Memo key f l done m) (hkeys : (l.map key).Nodup) (ha : a ∈ l) (hv : f a = some v) :
    Memo key f l (fun b => done b ∨ b = a) (m.set (key a) v) := by
  have hassigned (b : α) (hb : b ∈ l) (hkey : key b = key a) : f b = some v := by
    rw [List.inj_on_of_nodup_map hkeys hb ha hkey, hv]
  constructor
  · intro b hb w hget
    rw [InsertionMap.get?_set] at hget
    split at hget
    · rename_i hkey
      rw [hassigned b hb hkey, hget]
    · exact h.sound b hb w hget
  · intro b hb hdone
    rw [InsertionMap.get?_set]
    split
    · rename_i hkey
      exact (hassigned b hb hkey).symm
    · rename_i hkey
      exact h.complete b hb (hdone.resolve_right fun heq => hkey (congrArg key heq))

end Memo

end PandaPay
