import Mathlib.Data.List.Basic
import Mathlib.Data.List.Perm.Basic
import Mathlib.Logic.Relation

/-!
# Guarded runs

A machine is a partial step function: `step s a = some s'` when action `a`
is enabled in `s` and takes it to `s'`.  A **guarded run** is a sequence of
steps each of which meets a condition `ok` on the state before the step and
the action.  Safety of a machine under a condition is an invariant of its
guarded runs; the rules here package the induction once.
-/

universe u v

variable {σ : Type u} {α : Type v}

/-- A run from `s` to `s'` every step of which meets the condition. -/
inductive Run (step : σ → α → Option σ) (ok : σ → α → Prop) : σ → σ → Prop
  | nil (s : σ) : Run step ok s s
  | snoc {s s' s'' : σ} {a : α} (run : Run step ok s s') (guard : ok s' a)
      (fire : step s' a = some s'') : Run step ok s s''

namespace Run

variable {step : σ → α → Option σ} {ok : σ → α → Prop}

/-- What every guarded step keeps holds after every guarded run. -/
theorem invariant (I : σ → Prop)
    (keep : ∀ s a s', I s → ok s a → step s a = some s' → I s')
    {s s' : σ} (run : Run step ok s s') (h : I s) : I s' := by
  induction run with
  | nil => exact h
  | snoc _ guard fire ih => exact keep _ _ _ ih guard fire

theorem trans {s s' s'' : σ} (h : Run step ok s s') (h' : Run step ok s' s'') :
    Run step ok s s'' := by
  induction h' with
  | nil => exact h
  | snoc _ guard fire ih => exact ih.snoc guard fire

/-- A condition that implies another yields fewer runs. -/
theorem mono {ok' : σ → α → Prop} (himp : ∀ s a, ok s a → ok' s a)
    {s s' : σ} (h : Run step ok s s') : Run step ok' s s' := by
  induction h with
  | nil => exact .nil _
  | snoc _ guard fire ih => exact ih.snoc (himp _ _ guard) fire

end Run

/-- Executes a list of actions, failing when one of them is not enabled or
does not meet the condition. -/
def execAll (step : σ → α → Option σ) (ok : σ → α → Prop)
    [∀ s a, Decidable (ok s a)] : σ → List α → Option σ
  | s, [] => some s
  | s, a :: as =>
      if ok s a then (step s a).bind (fun s' => execAll step ok s' as) else none

/-- An executed list of actions is a guarded run. -/
theorem Run.of_execAll {step : σ → α → Option σ} {ok : σ → α → Prop}
    [∀ s a, Decidable (ok s a)] :
    ∀ (as : List α) {s s' : σ}, execAll step ok s as = some s' →
      Run step ok s s' := by
  intro as
  induction as with
  | nil =>
      intro s s' h
      simp only [execAll, Option.some.injEq] at h
      exact h ▸ .nil s
  | cons a as ih =>
      intro s s' h
      simp only [execAll, Option.ite_none_right_eq_some,
        Option.bind_eq_some_iff] at h
      obtain ⟨hok, s₁, h₁, h₂⟩ := h
      exact ((Run.nil s).snoc hok h₁).trans (ih h₂)

/-- An executed list of actions reaches a state that passes the test. -/
theorem Run.of_execAll_test {step : σ → α → Option σ} {ok : σ → α → Prop}
    [∀ s a, Decidable (ok s a)] {as : List α} {s : σ} {test : σ → Bool}
    (h : (execAll step ok s as).any test = true) :
    ∃ s', Run step ok s s' ∧ test s' = true := by
  cases he : execAll step ok s as with
  | none => simp [he] at h
  | some s' => exact ⟨s', .of_execAll as he, by simpa [he] using h⟩

/-! ## One of the tasks in flight -/

/-- A list, with one of its elements in front. -/
theorem perm_eraseIdx {l : List α} {i : Nat} {a : α} (h : l[i]? = some a) :
    l.Perm (a :: l.eraseIdx i) := by
  obtain ⟨hi, rfl⟩ := List.getElem?_eq_some_iff.mp h
  exact (List.getElem_cons_eraseIdx_perm hi).symm

theorem filterMap_perm_eraseIdx {β : Type u} (g : α → Option β) {l : List α} {i : Nat}
    {a : α} (h : l[i]? = some a) :
    (l.filterMap g).Perm ((g a).toList ++ (l.eraseIdx i).filterMap g) := by
  have hperm := (perm_eraseIdx h).filterMap g
  cases hg : g a with
  | none => simpa [List.filterMap_cons, hg] using hperm
  | some b => simpa [List.filterMap_cons, hg] using hperm

theorem countP_eraseIdx {l : List α} {i : Nat} {a : α} (p : α → Bool) (h : l[i]? = some a) :
    l.countP p = [a].countP p + (l.eraseIdx i).countP p := by
  rw [(perm_eraseIdx h).countP_eq p, ← List.countP_append]
  rfl
