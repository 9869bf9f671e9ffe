import Mathlib.Tactic.Common

/-!
# Loops

A loop that takes steps as long as a test holds, for at most so many rounds.

## Main results

* `whileLoop_of_sequence`: a loop ends at the first state of a run that does not pass the test
* `whileLoop_ends`: a loop whose steps keep an invariant and lower a measure ends, with the invariant
-/

namespace PandaPay

universe u

variable {α : Type u} (test : α → Bool) (step : α → α)

/-- `while (test(x)) x = step(x)`. It is `none` when the rounds are used up. -/
def whileLoop : ℕ → α → Option α
  | 0, _ => none
  | rounds + 1, x => if test x then whileLoop rounds (step x) else some x

variable {test step}

/-- A loop that runs through a sequence ends at the first state that does not pass the test. -/
theorem whileLoop_of_sequence {f : ℕ → α} {n : ℕ} (hstep : ∀ k < n, step (f k) = f (k + 1))
    (hpass : ∀ k < n, test (f k) = true) (hstop : test (f n) = false) {rounds : ℕ} (h : n < rounds) :
    whileLoop test step rounds (f 0) = some (f n) := by
  induction n generalizing f rounds with
  | zero =>
    obtain ⟨rounds, rfl⟩ : ∃ r, rounds = r + 1 := ⟨rounds - 1, by omega⟩
    rw [whileLoop, hstop]
    rfl
  | succ n ih =>
    obtain ⟨rounds, rfl⟩ : ∃ r, rounds = r + 1 := ⟨rounds - 1, by omega⟩
    rw [whileLoop, hpass 0 (by omega), if_pos rfl, hstep 0 (by omega)]
    exact ih (f := fun k => f (k + 1)) (fun k hk => hstep (k + 1) (by omega))
      (fun k hk => hpass (k + 1) (by omega)) hstop (by omega)

/-- A loop whose steps keep an invariant and lower a measure ends, and the invariant holds then. -/
theorem whileLoop_ends {inv : α → Prop} (measure : α → ℕ) (hkeep : ∀ x, inv x → test x = true → inv (step x))
    (hfall : ∀ x, inv x → test x = true → measure (step x) < measure x) {rounds : ℕ} {x : α} (hx : inv x)
    (h : measure x < rounds) : ∃ y, whileLoop test step rounds x = some y ∧ inv y ∧ test y = false := by
  induction rounds generalizing x with
  | zero => exact absurd h (Nat.not_lt_zero _)
  | succ rounds ih =>
    rw [whileLoop]
    cases htest : test x with
    | false => exact ⟨x, rfl, hx, htest⟩
    | true => exact ih (hkeep x hx htest) (by have := hfall x hx htest; omega)

end PandaPay
