import Mathlib

/-!
# Computations that can fail

Inversion of `Except` computations written as a sequence of guards, and the rules for a loop
whose body can fail. Then a printer that appends piece after piece to an output, and fails as soon as
the output leaves a budget. Since nothing is ever taken back, what is within the budget at the end was
within it all along: such a printer succeeds exactly when its conditions hold and the whole output fits.

## Main definitions

* `failIf c e`: fail with `e` when `c` holds
* `Agree R`: two computations fail alike, or succeed with related results
* `Passes P body s xs`: `P` holds at every pass of a loop, of the state before it and its element
* `Emits Within P p f`: on condition `P` and within the budget, `f` appends `p`; else it fails

## Main results

* `bind_eq_ok`, `failIf_eq_ok`: what a successful computation went through
* `foldlM_induction`: what every pass of a loop preserves holds after the loop
* `foldlM_of_passes`, `foldl_of_passes`: the same where `P` holds at every pass
* `foldlM_add`: what the passes of a loop add up to
* `foldlM_agree`: related bodies give related loops
* `Emits.append`, `Emits.guard`, `Emits.foldlM`: printers one after the other, behind a check and in a loop
-/

namespace PandaPay

universe u v w

variable {ε : Type u} {α β σ τ : Type v}

/-- Fail with `e` when `c` holds. -/
def failIf (c : Prop) [Decidable c] (e : ε) : Except ε PUnit.{v + 1} :=
  if c then .error e else .ok ⟨⟩

theorem bind_eq_ok {x : Except ε α} {f : α → Except ε β} {b : β} :
    (x >>= f) = .ok b ↔ ∃ a, x = .ok a ∧ f a = .ok b := by
  cases x <;> simp [bind, Except.bind]

@[simp] theorem ok_bind (a : α) (f : α → Except ε β) : (Except.ok a >>= f) = f a := rfl

@[simp] theorem error_bind (e : ε) (f : α → Except ε β) :
    (Except.error e >>= f) = .error e := rfl

/-- The rest of a computation only matters where its first part succeeds. -/
theorem bind_congr_of_ok {x : Except ε α} {f g : α → Except ε β}
    (h : ∀ a, x = .ok a → f a = g a) : (x >>= f) = (x >>= g) := by
  cases x with
  | error e => rfl
  | ok a => exact h a rfl

theorem pure_eq_ok (a : α) : (pure a : Except ε α) = .ok a := rfl

theorem failIf_eq_ok {c : Prop} [Decidable c] {e : ε} {u : PUnit.{v + 1}} :
    failIf c e = .ok u ↔ ¬ c := by
  unfold failIf
  split <;> simp_all

theorem failIf_bind_eq_ok {c : Prop} [Decidable c] {e : ε} {f : PUnit.{v + 1} → Except ε α} {a : α} :
    (failIf c e >>= f) = .ok a ↔ ¬ c ∧ f ⟨⟩ = .ok a := by
  unfold failIf
  split <;> simp_all

theorem bind_eq_error {x : Except ε α} {f : α → Except ε β} {e : ε} :
    (x >>= f) = .error e ↔ x = .error e ∨ ∃ a, x = .ok a ∧ f a = .error e := by
  cases x <;> simp [bind, Except.bind]

theorem failIf_eq_error {c : Prop} [Decidable c] {e e' : ε} :
    (failIf c e : Except ε PUnit.{v + 1}) = .error e' ↔ c ∧ e = e' := by
  unfold failIf
  split <;> simp_all

@[simp] theorem failIf_of_not {c : Prop} [Decidable c] (h : ¬ c) (e : ε) :
    (failIf c e : Except ε PUnit.{v + 1}) = .ok ⟨⟩ := if_neg h

@[simp] theorem failIf_of {c : Prop} [Decidable c] (h : c) (e : ε) :
    (failIf c e : Except ε PUnit.{v + 1}) = .error e := if_pos h

theorem failIf_congr {c d : Prop} [Decidable c] [Decidable d] (h : c ↔ d) (e : ε) :
    (failIf c e : Except ε PUnit.{v + 1}) = failIf d e := by
  by_cases hc : c
  · rw [failIf_of hc, failIf_of (h.mp hc)]
  · rw [failIf_of_not hc, failIf_of_not fun hd => hc (h.mpr hd)]

/-- What every pass of a loop preserves holds after the loop. -/
theorem foldlM_induction {P : σ → Prop} {body : σ → α → Except ε σ} {xs : List α}
    (hstep : ∀ s x s', x ∈ xs → P s → body s x = .ok s' → P s') {s s' : σ} (hs : P s)
    (h : xs.foldlM body s = .ok s') : P s' := by
  induction xs generalizing s with
  | nil =>
    rw [List.foldlM_nil, pure_eq_ok, Except.ok.injEq] at h
    exact h ▸ hs
  | cons x xs ih =>
    rw [List.foldlM_cons, bind_eq_ok] at h
    obtain ⟨t, ht, h⟩ := h
    exact ih (fun s y s' hy => hstep s y s' (List.mem_cons_of_mem _ hy))
      (hstep s x t List.mem_cons_self hs ht) h

/-- `P` holds at every pass of a loop, of the state before it and its element. -/
def Passes (P : σ → α → Prop) (body : σ → α → Except ε σ) : σ → List α → Prop
  | _, [] => True
  | s, x :: xs => P s x ∧ ∀ s', body s x = .ok s' → Passes P body s' xs

theorem passes_of_forall {P : σ → α → Prop} {body : σ → α → Except ε σ} {xs : List α}
    (h : ∀ x ∈ xs, ∀ s, P s x) (s : σ) : Passes P body s xs := by
  induction xs generalizing s with
  | nil => trivial
  | cons x xs ih =>
    exact ⟨h x List.mem_cons_self s, fun s' _ => ih (fun y hy => h y (List.mem_cons_of_mem _ hy)) s'⟩

theorem Passes.imp {P P' : σ → α → Prop} {body : σ → α → Except ε σ} {s : σ} {xs : List α}
    (h : ∀ x ∈ xs, ∀ s, P s x → P' s x) (hp : Passes P body s xs) : Passes P' body s xs := by
  induction xs generalizing s with
  | nil => trivial
  | cons x xs ih =>
    exact ⟨h x List.mem_cons_self s hp.1,
      fun s' hs' => ih (fun y hy => h y (List.mem_cons_of_mem _ hy)) (hp.2 s' hs')⟩

/-- What every pass preserves holds at every pass. -/
theorem Passes.and_invariant {P : σ → α → Prop} {Q : σ → Prop} {body : σ → α → Except ε σ} {s : σ}
    {xs : List α} (hstep : ∀ s x s', x ∈ xs → Q s → body s x = .ok s' → Q s') (hs : Q s)
    (hp : Passes P body s xs) : Passes (fun s x => Q s ∧ P s x) body s xs := by
  induction xs generalizing s with
  | nil => trivial
  | cons x xs ih =>
    refine ⟨⟨hs, hp.1⟩, fun s' hs' => ?_⟩
    exact ih (fun s y s' hy => hstep s y s' (List.mem_cons_of_mem _ hy))
      (hstep s x s' List.mem_cons_self hs hs') (hp.2 s' hs')

/-- What every pass of a loop preserves where `P` holds is there after the loop. -/
theorem foldlM_of_passes {P : σ → α → Prop} {Q : σ → Prop} {body : σ → α → Except ε σ} {xs : List α}
    (hstep : ∀ s x s', x ∈ xs → Q s → P s x → body s x = .ok s' → Q s') {s s' : σ} (hs : Q s)
    (hp : Passes P body s xs) (h : xs.foldlM body s = .ok s') : Q s' := by
  induction xs generalizing s with
  | nil =>
    rw [List.foldlM_nil, pure_eq_ok, Except.ok.injEq] at h
    exact h ▸ hs
  | cons x xs ih =>
    rw [List.foldlM_cons, bind_eq_ok] at h
    obtain ⟨t, ht, h⟩ := h
    exact ih (fun s y s' hy => hstep s y s' (List.mem_cons_of_mem _ hy))
      (hstep s x t List.mem_cons_self hs hp.1 ht) (hp.2 t ht) h

/-- The same for a loop that cannot fail. -/
theorem foldl_of_passes {P : σ → α → Prop} {Q : σ → Prop} {body : σ → α → σ} {xs : List α}
    (hstep : ∀ s x, x ∈ xs → Q s → P s x → Q (body s x)) {s : σ} (hs : Q s)
    (hp : Passes P (fun s x => (.ok (body s x) : Except Empty σ)) s xs) : Q (xs.foldl body s) := by
  induction xs generalizing s with
  | nil => exact hs
  | cons x xs ih =>
    rw [List.foldl_cons]
    exact ih (fun s y hy => hstep s y (List.mem_cons_of_mem _ hy))
      (hstep s x List.mem_cons_self hs hp.1) (hp.2 _ rfl)

/-- A loop whose passes each add to a quantity adds the sum. -/
theorem foldlM_add {A : Type w} [AddCommMonoid A] {q : σ → A} {w : α → A}
    {body : σ → α → Except ε σ} {xs : List α}
    (hstep : ∀ s x s', x ∈ xs → body s x = .ok s' → q s' = q s + w x) {s s' : σ}
    (h : xs.foldlM body s = .ok s') : q s' = q s + (xs.map w).sum := by
  induction xs generalizing s with
  | nil =>
    rw [List.foldlM_nil, pure_eq_ok, Except.ok.injEq] at h
    simp [h]
  | cons x xs ih =>
    rw [List.foldlM_cons, bind_eq_ok] at h
    obtain ⟨t, ht, h⟩ := h
    rw [ih (fun s y s' hy => hstep s y s' (List.mem_cons_of_mem _ hy)) h,
      hstep s x t List.mem_cons_self ht, List.map_cons, List.sum_cons, add_assoc]

/-- Two computations fail alike, or succeed with related results. -/
def Agree (R : α → β → Prop) : Except ε α → Except ε β → Prop
  | .ok a, .ok b => R a b
  | .error e, .error e' => e = e'
  | _, _ => False

theorem Agree.bind {α' β' : Type v} {R : α → β → Prop} {S : α' → β' → Prop} {x : Except ε α}
    {y : Except ε β} {f : α → Except ε α'} {g : β → Except ε β'} (h : Agree R x y)
    (hfg : ∀ a b, R a b → Agree S (f a) (g b)) : Agree S (x >>= f) (y >>= g) := by
  cases x <;> cases y
  · exact h
  · exact h.elim
  · exact h.elim
  · exact hfg _ _ h

theorem Agree.of_eq {R : α → α → Prop} (hR : ∀ a, R a a) {x y : Except ε α} (h : x = y) :
    Agree R x y := by
  subst h
  cases x
  · rfl
  · exact hR _

/-- Equal first parts, then continuations that agree where the first part succeeds. -/
theorem Agree.bind_of_eq {α' β' : Type v} {S : α' → β' → Prop} {x y : Except ε α}
    {f : α → Except ε α'} {g : α → Except ε β'} (h : x = y)
    (hfg : ∀ a, y = .ok a → Agree S (f a) (g a)) : Agree S (x >>= f) (y >>= g) := by
  subst h
  cases x with
  | error e => exact rfl
  | ok a => exact hfg a rfl

theorem Agree.eq {x y : Except ε α} (h : Agree (· = ·) x y) : x = y := by
  cases x <;> cases y
  · exact congrArg _ h
  · exact h.elim
  · exact h.elim
  · exact congrArg _ h

/-- Related bodies give related loops. -/
theorem foldlM_agree {R : σ → τ → Prop} {f : σ → α → Except ε σ} {g : τ → α → Except ε τ}
    {xs : List α} (hstep : ∀ s t x, x ∈ xs → R s t → Agree R (f s x) (g t x)) {s : σ} {t : τ}
    (hst : R s t) : Agree R (xs.foldlM f s) (xs.foldlM g t) := by
  induction xs generalizing s t with
  | nil => exact hst
  | cons x xs ih =>
    rw [List.foldlM_cons, List.foldlM_cons]
    refine (hstep s t x List.mem_cons_self hst).bind fun s' t' hst' => ?_
    exact ih (fun s t y hy => hstep s t y (List.mem_cons_of_mem _ hy)) hst'

end PandaPay

namespace PandaPay

variable {M : Type} [AddMonoid M] {ε α : Type} {Within : M → Prop}

/-- Started within the budget, `f` appends `p` when `P` holds and the result is within the budget,
and fails otherwise. -/
def Emits (Within : M → Prop) (P : Prop) (p : M) (f : M → Except ε M) : Prop :=
  ∀ out out', Within out → (f out = .ok out' ↔ P ∧ Within (out + p) ∧ out' = out + p)

namespace Emits

variable {P Q : Prop} {p q : M} {f g : M → Except ε M}

theorem congr (h : Emits Within P p f) (hPQ : P ↔ Q) (hpq : P → p = q) : Emits Within Q q f := by
  intro out out' hout
  rw [h out out' hout, ← hPQ]
  exact and_congr_right fun hP => by rw [hpq hP]

/-- Nothing is appended. -/
theorem zero : Emits Within True 0 (pure : M → Except ε M) := by
  intro out out' hout
  rw [pure_eq_ok, Except.ok.injEq, add_zero]
  exact ⟨fun h => ⟨trivial, hout, h.symm⟩, fun h => h.2.2.symm⟩

/-- A printer that always fails. -/
theorem error (e : ε) : Emits Within False p fun _ => .error e := by
  intro out out' _
  simp

theorem guard {c : Prop} [Decidable c] {e : ε} (h : ¬ c → Emits Within P p f) :
    Emits Within (¬ c ∧ P) p fun out => failIf c e >>= fun _ => f out := by
  intro out out' hout
  rw [failIf_bind_eq_ok, and_assoc]
  exact and_congr_right fun hc => h hc out out' hout

/-- One printer after the other. A budget that holds of the whole holds of its first part. -/
theorem append (hdown : ∀ a b, Within (a + b) → Within a) (hf : Emits Within P p f)
    (hg : Emits Within Q q g) : Emits Within (P ∧ Q) (p + q) fun out => f out >>= g := by
  intro out out' hout
  rw [bind_eq_ok]
  constructor
  · rintro ⟨mid, hmid, hout'⟩
    obtain ⟨hP, hp, rfl⟩ := (hf out mid hout).mp hmid
    obtain ⟨hQ, hq, rfl⟩ := (hg _ out' hp).mp hout'
    rw [add_assoc] at hq ⊢
    exact ⟨⟨hP, hQ⟩, hq, rfl⟩
  · rintro ⟨⟨hP, hQ⟩, hpq, rfl⟩
    rw [← add_assoc] at hpq ⊢
    have hp := hdown _ _ hpq
    exact ⟨out + p, (hf out _ hout).mpr ⟨hP, hp, rfl⟩, (hg _ _ hp).mpr ⟨hQ, hpq, rfl⟩⟩

/-- A printer for every element of a list. -/
theorem foldlM (hdown : ∀ a b, Within (a + b) → Within a) {P : α → Prop} {p : α → M}
    {body : M → α → Except ε M} {xs : List α}
    (h : ∀ x ∈ xs, Emits Within (P x) (p x) fun out => body out x) :
    Emits Within (∀ x ∈ xs, P x) (xs.map p).sum fun out => xs.foldlM body out := by
  induction xs with
  | nil => exact zero.congr (by simp) fun _ => rfl
  | cons x xs ih =>
    have hrest := ih fun y hy => h y (List.mem_cons_of_mem _ hy)
    have hboth := append hdown (h x List.mem_cons_self) hrest
    simp only [List.foldlM_cons, List.map_cons, List.sum_cons, List.forall_mem_cons]
    exact hboth

end Emits

end PandaPay
