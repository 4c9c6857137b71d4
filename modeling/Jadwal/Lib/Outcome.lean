import Mathlib.Logic.Basic
import Mathlib.Tactic.Common

/-!
# Fallible steps

A transaction body is a function into `Except ε`: it either returns the
new state or throws, and a throw discards whatever the body had written.
The lemmas invert a successful run of such a body one statement at a time,
so that a proof about a body reads its statements in order and never
unfolds the monad.
-/

universe u v

namespace Outcome

variable {ε : Type u} {α β : Type v}

/-- Goes on only when the condition holds. -/
def ensure (c : Prop) [Decidable c] (e : ε) : Except ε PUnit.{v + 1} :=
  if c then .ok ⟨⟩ else .error e

/-- The value of an optional result, or the given error. -/
def orThrow (o : Option α) (e : ε) : Except ε α :=
  match o with
  | some a => .ok a
  | none => .error e

/-- Runs a body over a list from left to right, threading the state. -/
def forEach {σ : Type v} {γ : Type*} (xs : List γ) (s : σ)
    (body : σ → γ → Except ε σ) : Except ε σ :=
  match xs with
  | [] => .ok s
  | x :: xs => body s x >>= fun s' => forEach xs s' body

/-- A sequence returns when both parts do. -/
@[simp] theorem bind_eq_ok {x : Except ε α} {f : α → Except ε β} {b : β} :
    x >>= f = .ok b ↔ ∃ a, x = .ok a ∧ f a = .ok b := by
  cases x with
  | error e => simp [bind, Except.bind]
  | ok a => simp [bind, Except.bind]

@[simp] theorem pure_eq_ok {a b : α} :
    (pure a : Except ε α) = .ok b ↔ a = b := by
  simp [pure, Except.pure]

/-- A check that passed held. -/
@[simp] theorem ensure_eq_ok {c : Prop} [Decidable c] {e : ε}
    {u : PUnit.{v + 1}} : ensure c e = .ok u ↔ c := by
  by_cases h : c <;> simp [ensure, h]

/-- A value that was required was there. -/
@[simp] theorem orThrow_eq_ok {o : Option α} {e : ε} {a : α} :
    orThrow o e = .ok a ↔ o = some a := by
  cases o <;> simp [orThrow]

@[simp] theorem throw_eq_ok {e : ε} {a : α} :
    ¬ (throw e : Except ε α) = .ok a := by
  simp [throw, throwThe, MonadExceptOf.throw]

/-- A sequence throws in its first part, or in its second. -/
theorem bind_eq_error {x : Except ε α} {f : α → Except ε β} {e : ε} :
    x >>= f = .error e ↔ x = .error e ∨ ∃ a, x = .ok a ∧ f a = .error e := by
  cases x with
  | error e => simp [bind, Except.bind]
  | ok a => simp [bind, Except.bind]

/-- A check that throws failed, with its own error. -/
theorem ensure_eq_error {c : Prop} [Decidable c] {e e' : ε} :
    (ensure c e : Except ε PUnit.{v + 1}) = .error e' ↔ ¬ c ∧ e = e' := by
  by_cases h : c <;> simp [ensure, h]

theorem toOption_eq_some {x : Except ε α} {a : α} : x.toOption = some a ↔ x = .ok a := by
  cases x <;> simp [Except.toOption]

/-- What every body run keeps holds after the whole loop. -/
theorem forEach_invariant {σ : Type v} {γ : Type*} (I : σ → Prop)
    {xs : List γ} {body : σ → γ → Except ε σ}
    (keep : ∀ x ∈ xs, ∀ s s', I s → body s x = .ok s' → I s') :
    ∀ {s s' : σ}, forEach xs s body = .ok s' → I s → I s' := by
  induction xs with
  | nil =>
      intro s s' h hI
      simp only [forEach, Except.ok.injEq] at h
      exact h ▸ hI
  | cons x xs ih =>
      intro s s' h hI
      simp only [forEach, bind_eq_ok] at h
      obtain ⟨s₁, h₁, h₂⟩ := h
      exact ih (fun y hy => keep y (by simp [hy])) h₂
        (keep x (by simp) s s₁ hI h₁)

end Outcome
