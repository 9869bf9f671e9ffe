import Mathlib.Algebra.Order.Ring.Nat
import Mathlib.Logic.Relation

/-!
# Jobs under a lease

A job waits until a worker takes it under a lease. A lease that runs out can be taken over, and each
taking counts as an attempt, of which there are only so many. A job that is over stays over.

## Main definitions

* `Phase`: a job waits, is held under a lease or is over
* `Job`: the phase of a job with the number of its attempts
* `Job.Move limit`: one step of a job that may be taken `limit` times
* `Job.Moves limit`: any number of steps
* `Job.Follows limit job`: how a record with a job may change

## Main results

* `Job.Moves.attempts_le`: attempts only go up
* `Job.Moves.attempts_le_limit`: they stay within the limit
-/

namespace PandaPay

universe u v w

/-- Where a job stands: it waits, is held under a lease `τ`, or is over with an outcome `ω`. -/
inductive Phase (τ : Type u) (ω : Type v) where
  | waiting
  | held (lease : τ)
  | ended (outcome : ω)
  deriving DecidableEq

variable {τ : Type u} {ω : Type v}

namespace Phase

/-- The lease that is held, if one is. -/
def lease? : Phase τ ω → Option τ
  | held lease => some lease
  | _ => none

/-- The outcome, if the job is over. -/
def outcome? : Phase τ ω → Option ω
  | ended outcome => some outcome
  | _ => none

def isOver (phase : Phase τ ω) : Bool := phase.outcome?.isSome

@[simp] theorem lease?_waiting : (waiting : Phase τ ω).lease? = none := rfl

@[simp] theorem lease?_held (lease : τ) : (held lease : Phase τ ω).lease? = some lease := rfl

@[simp] theorem lease?_ended (outcome : ω) : (ended outcome : Phase τ ω).lease? = none := rfl

@[simp] theorem isOver_waiting : (waiting : Phase τ ω).isOver = false := rfl

@[simp] theorem isOver_held (lease : τ) : (held lease : Phase τ ω).isOver = false := rfl

@[simp] theorem isOver_ended (outcome : ω) : (ended outcome : Phase τ ω).isOver = true := rfl

theorem lease?_eq_none_of_isOver {phase : Phase τ ω} (h : phase.isOver = true) :
    phase.lease? = none := by
  cases phase with
  | waiting => cases h
  | held lease => cases h
  | ended outcome => rfl

end Phase

/-- The phase of a job, and how often it has been taken. -/
structure Job (τ : Type u) (ω : Type v) where
  phase : Phase τ ω
  attempts : ℕ

namespace Job

/-- One step of a job that may be taken `limit` times. -/
inductive Move (limit : ℕ) : Job τ ω → Job τ ω → Prop
  /-- A worker takes the job, the first one or the next. -/
  | take {phase : Phase τ ω} {attempts : ℕ} (lease : τ) (hopen : phase.isOver = false)
      (hlimit : attempts < limit) : Move limit ⟨phase, attempts⟩ ⟨.held lease, attempts + 1⟩
  /-- The job goes back to wait. -/
  | release {phase : Phase τ ω} {attempts : ℕ} (hopen : phase.isOver = false) :
      Move limit ⟨phase, attempts⟩ ⟨.waiting, attempts⟩
  | finish {phase : Phase τ ω} {attempts : ℕ} (outcome : ω) (hopen : phase.isOver = false) :
      Move limit ⟨phase, attempts⟩ ⟨.ended outcome, attempts⟩

/-- Any number of steps. -/
def Moves (limit : ℕ) : Job τ ω → Job τ ω → Prop := Relation.ReflTransGen (Move limit)

variable {limit : ℕ} {j j' j'' : Job τ ω}

namespace Move

theorem attempts_le (h : Move limit j j') : j.attempts ≤ j'.attempts := by
  cases h with
  | take lease hopen hlimit => exact Nat.le_succ _
  | release hopen => exact le_rfl
  | finish outcome hopen => exact le_rfl

theorem attempts_le_limit (h : Move limit j j') (hj : j.attempts ≤ limit) :
    j'.attempts ≤ limit := by
  cases h with
  | take lease hopen hlimit => exact hlimit
  | release hopen => exact hj
  | finish outcome hopen => exact hj

theorem isOver_eq_false (h : Move limit j j') : j.phase.isOver = false := by
  cases h <;> assumption

end Move

namespace Moves

theorem refl (j : Job τ ω) : Moves limit j j := Relation.ReflTransGen.refl

theorem single (h : Move limit j j') : Moves limit j j' := Relation.ReflTransGen.single h

theorem trans (h : Moves limit j j') (h' : Moves limit j' j'') : Moves limit j j'' :=
  Relation.ReflTransGen.trans h h'

/-- Attempts only go up. -/
theorem attempts_le (h : Moves limit j j') : j.attempts ≤ j'.attempts := by
  induction h with
  | refl => exact le_rfl
  | tail _ hmove ih => exact ih.trans hmove.attempts_le

/-- Attempts stay within the limit. -/
theorem attempts_le_limit (h : Moves limit j j') (hj : j.attempts ≤ limit) :
    j'.attempts ≤ limit := by
  induction h with
  | refl => exact hj
  | tail _ hmove ih => exact hmove.attempts_le_limit ih

end Moves

/-- The job of a record makes steps, and the record stays as it is once its job is over. -/
structure Follows {ρ : Type w} (limit : ℕ) (job : ρ → Job τ ω) (row row' : ρ) : Prop where
  moves : Moves limit (job row) (job row')
  ended : (job row).phase.isOver = true → row' = row

namespace Follows

variable {ρ : Type w} {job : ρ → Job τ ω} {row row' row'' : ρ}

theorem refl (row : ρ) : Follows limit job row row := ⟨Moves.refl _, fun _ => rfl⟩

theorem trans (h : Follows limit job row row') (h' : Follows limit job row' row'') :
    Follows limit job row row'' where
  moves := h.moves.trans h'.moves
  ended hover := by
    have hrow := h.ended hover
    rw [hrow] at h'
    exact h'.ended hover

theorem of_move (h : Move limit (job row) (job row')) : Follows limit job row row' where
  moves := .single h
  ended hover := by
    rw [h.isOver_eq_false] at hover
    cases hover

end Follows

end Job

end PandaPay
