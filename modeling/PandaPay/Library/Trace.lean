import Mathlib.Data.List.Basic
import Mathlib.Order.Defs.Unbundled

/-!
# Traces of a machine

A machine answers every call with a result and a new state. Its trace on a list of calls is the list
of what happened at each of them.

## Main definitions

* `Event`: one call with the states around it
* `trace`, `final`: the events of a list of calls and the state they lead to

## Main results

* `invariant_of_trace`: what every step keeps holds around every event
* `related_of_sublist`: what every step goes up along relates an event to any later one
* `exists_of_cons_sublist`: an event splits the calls in those before and those after it
* `forall_trace_iff`: what every call keeps exactly if it meets a condition holds throughout exactly if all calls do
-/

namespace PandaPay

universe u v w

/-- One call of a machine with states `σ`, calls `α` and results `β`. -/
structure Event (σ : Type u) (α : Type v) (β : Type w) where
  before : σ
  call : α
  result : β
  after : σ

variable {σ : Type u} {α : Type v} {β : Type w} (step : σ → α → β × σ)

/-- What happens at the call `a` in the state `s`. -/
def eventOf (s : σ) (a : α) : Event σ α β := ⟨s, a, (step s a).1, (step s a).2⟩

/-- The events of a list of calls. -/
def trace : σ → List α → List (Event σ α β)
  | _, [] => []
  | s, a :: calls => eventOf step s a :: trace (step s a).2 calls

/-- The state a list of calls leads to. -/
def final : σ → List α → σ
  | s, [] => s
  | s, a :: calls => final (step s a).2 calls

@[simp] theorem eventOf_before (s : σ) (a : α) : (eventOf step s a).before = s := rfl

@[simp] theorem eventOf_call (s : σ) (a : α) : (eventOf step s a).call = a := rfl

@[simp] theorem eventOf_result (s : σ) (a : α) : (eventOf step s a).result = (step s a).1 := rfl

@[simp] theorem eventOf_after (s : σ) (a : α) : (eventOf step s a).after = (step s a).2 := rfl

variable {step} {s : σ} {calls : List α}

theorem final_append (earlier later : List α) :
    final step s (earlier ++ later) = final step (final step s earlier) later := by
  induction earlier generalizing s with
  | nil => rfl
  | cons a earlier ih => exact ih

/-- An event splits the calls in those before it and those after it. -/
theorem exists_of_cons_sublist {e : Event σ α β} {es : List (Event σ α β)}
    (h : (e :: es).Sublist (trace step s calls)) :
    ∃ earlier later, calls = earlier ++ e.call :: later ∧
      e = eventOf step (final step s earlier) e.call ∧ es.Sublist (trace step e.after later) := by
  induction calls generalizing s with
  | nil => cases h
  | cons a calls ih =>
    rw [trace] at h
    rcases List.cons_sublist_cons'.mp h with hlater | ⟨rfl, hes⟩
    · obtain ⟨earlier, later, rfl, he, hsub⟩ := ih hlater
      exact ⟨a :: earlier, later, rfl, he, hsub⟩
    · exact ⟨[], calls, rfl, rfl, hes⟩

theorem exists_of_mem_trace {e : Event σ α β} (h : e ∈ trace step s calls) :
    ∃ earlier later, calls = earlier ++ e.call :: later ∧
      e = eventOf step (final step s earlier) e.call := by
  obtain ⟨earlier, later, hcalls, he, -⟩ :=
    exists_of_cons_sublist (List.singleton_sublist.mpr h)
  exact ⟨earlier, later, hcalls, he⟩

/-- A call behind others is an event. -/
theorem eventOf_mem_trace (s : σ) (earlier : List α) (a : α) (later : List α) :
    eventOf step (final step s earlier) a ∈ trace step s (earlier ++ a :: later) := by
  induction earlier generalizing s with
  | nil => exact List.mem_cons_self
  | cons b earlier ih => exact List.mem_cons_of_mem _ (ih _)

section Invariant

variable {P : σ → Prop}

/-- What every call keeps holds at the end. -/
theorem invariant_of_final (hs : P s) (hstep : ∀ a ∈ calls, ∀ s, P s → P (step s a).2) :
    P (final step s calls) := by
  induction calls generalizing s with
  | nil => exact hs
  | cons a calls ih =>
    apply ih
    · exact hstep a List.mem_cons_self s hs
    · intro b hb
      exact hstep b (List.mem_cons_of_mem a hb)

/-- What every call keeps holds before and after every event. -/
theorem invariant_of_trace (hs : P s) (hstep : ∀ a ∈ calls, ∀ s, P s → P (step s a).2)
    {e : Event σ α β} (he : e ∈ trace step s calls) : P e.before ∧ P e.after := by
  obtain ⟨earlier, later, rfl, hevent⟩ := exists_of_mem_trace he
  have hbefore : P (final step s earlier) :=
    invariant_of_final hs fun a ha => hstep a (List.mem_append_left _ ha)
  rw [hevent]
  exact ⟨hbefore, hstep e.call (by simp) _ hbefore⟩

/-- If every call keeps a property exactly under some condition, the property stays exactly if every call meets it. -/
theorem forall_trace_iff {I : σ → Prop} {Q : σ → α → Prop} (hI : I s) (hs : P s)
    (hkept : ∀ a s, I s → I (step s a).2) (hstep : ∀ a s, I s → P s → (P (step s a).2 ↔ Q s a)) :
    (∀ e ∈ trace step s calls, P e.after) ↔ ∀ e ∈ trace step s calls, Q e.before e.call := by
  induction calls generalizing s with
  | nil => simp [trace]
  | cons a calls ih =>
    simp only [trace, List.forall_mem_cons, eventOf_before, eventOf_call, eventOf_after]
    -- the first call keeps the property or breaks it on both sides alike
    rw [hstep a s hI hs]
    apply and_congr_right
    intro hQ
    apply ih
    · exact hkept a s hI
    · exact (hstep a s hI hs).mpr hQ

/-- What every call goes up along, from the states the invariant holds in, relates the beginning to
the end. -/
theorem related_of_final {R : σ → σ → Prop} (hrefl : ∀ s, R s s)
    (htrans : ∀ {s t u}, R s t → R t u → R s u) (hs : P s)
    (hstep : ∀ a ∈ calls, ∀ s, P s → P (step s a).2 ∧ R s (step s a).2) :
    R s (final step s calls) := by
  induction calls generalizing s with
  | nil => exact hrefl s
  | cons a calls ih =>
    obtain ⟨hP, hR⟩ := hstep a List.mem_cons_self s hs
    exact htrans hR (ih hP fun b hb => hstep b (List.mem_cons_of_mem a hb))

/-- It also relates the states after an event and before a later one. -/
theorem related_of_sublist {R : σ → σ → Prop} (hrefl : ∀ s, R s s)
    (htrans : ∀ {s t u}, R s t → R t u → R s u) (hs : P s)
    (hstep : ∀ a ∈ calls, ∀ s, P s → P (step s a).2 ∧ R s (step s a).2) {e e' : Event σ α β}
    (h : [e, e'].Sublist (trace step s calls)) : R e.after e'.before := by
  have he : e ∈ trace step s calls := h.subset List.mem_cons_self
  have hP := (invariant_of_trace hs (fun a ha s hs => (hstep a ha s hs).1) he).2
  obtain ⟨earlier, later, rfl, -, hrest⟩ := exists_of_cons_sublist h
  obtain ⟨between, last, rfl, he', -⟩ := exists_of_cons_sublist hrest
  rw [he']
  exact related_of_final hrefl htrans hP fun a ha => hstep a (by simp [ha])

end Invariant

end PandaPay
