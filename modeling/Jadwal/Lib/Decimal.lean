import Mathlib.Data.List.Basic
import Mathlib.Tactic.Common

/-!
# Printed numbers and unframed concatenation

A message that concatenates a printed number and a code, without a length
or a separator, may have several readings.  The lemmas here say which: the
decimal point splits a text in one way, and a text that commutes with a
block of zeros begins with a zero.
-/

namespace Decimal

/-- The decimal digits of a number, as it is printed. -/
abbrev digits (n : Nat) : List Char := Nat.toDigits 10 n

theorem isDigit_of_mem {n : Nat} {c : Char} (h : c ∈ digits n) : c.isDigit :=
  Nat.isDigit_of_mem_toDigits (by decide) (by decide) h

theorem point_not_mem (n : Nat) : '.' ∉ digits n := by
  intro h
  exact absurd (isDigit_of_mem h) (by decide)

/-- Only zero is printed with a leading zero. -/
theorem head_digits (n : Nat) (h : (digits n).head? = some '0') : n = 0 := by
  induction n using Nat.strongRecOn with
  | ind n ih =>
      by_cases hlt : n < 10
      · rw [digits, Nat.toDigits_of_lt_base hlt] at h
        simpa using h
      · have hle : 10 ≤ n := Nat.le_of_not_lt hlt
        rw [digits, Nat.toDigits_of_base_le (by decide) hle,
          List.head?_append_of_ne_nil _ Nat.toDigits_ne_nil] at h
        have := ih (n / 10) (by omega) h
        omega

/-- The first decimal point splits a text in one way. -/
theorem split_point {x x' y y' : List Char} (hx : '.' ∉ x) (hx' : '.' ∉ x')
    (h : x ++ '.' :: y = x' ++ '.' :: y') : x = x' ∧ y = y' := by
  induction x generalizing x' with
  | nil =>
      cases x' with
      | nil => simpa using h
      | cons c x' =>
          simp only [List.nil_append, List.cons_append, List.cons.injEq] at h
          exact absurd (by simp [← h.1]) hx'
  | cons c x ih =>
      cases x' with
      | nil =>
          simp only [List.nil_append, List.cons_append, List.cons.injEq] at h
          exact absurd (by simp [h.1]) hx
      | cons c' x' =>
          simp only [List.cons_append, List.cons.injEq] at h
          simp only [List.mem_cons, not_or] at hx hx'
          obtain ⟨rfl, rfl⟩ := ih hx.2 hx'.2 h.2
          exact ⟨by rw [h.1], rfl⟩

/-- A text of zeros, from its length and the count of other characters. -/
theorem eq_zeros {c : List Char} {k : Nat} (hlen : c.length = k)
    (hcount : c.countP (· ≠ '0') = 0) : c = List.replicate k '0' := by
  rw [List.eq_replicate_iff]
  refine ⟨hlen, fun d hd => ?_⟩
  simpa using List.countP_eq_zero.mp hcount d hd

theorem countP_zeros (k : Nat) : (List.replicate k '0').countP (· ≠ '0') = 0 := by
  simp [List.countP_replicate]

/-- Zeros moved from the end of a text to its front. -/
theorem zeros_after {x c : List Char} {k : Nat} (hk : 0 < k)
    (h : x ++ List.replicate k '0' = c ++ x) :
    c = List.replicate k '0' ∧ (x ≠ [] → x.head? = some '0') := by
  have hlen : c.length = k := by
    have := congrArg List.length h
    simp only [List.length_append, List.length_replicate] at this
    omega
  have hc : c = List.replicate k '0' := by
    refine eq_zeros hlen ?_
    have := congrArg (List.countP (· ≠ '0')) h
    rw [List.countP_append, List.countP_append, countP_zeros] at this
    omega
  refine ⟨hc, fun hx => ?_⟩
  have := congrArg List.head? h
  rw [List.head?_append_of_ne_nil _ hx, hc] at this
  rw [this]
  cases k with
  | zero => omega
  | succ k => simp [List.replicate_succ]

/-- Zeros moved from the front of a text to its end. -/
theorem zeros_before {x c : List Char} {k : Nat} (hk : 0 < k)
    (h : List.replicate k '0' ++ x = x ++ c) :
    c = List.replicate k '0' ∧ (x ≠ [] → x.head? = some '0') := by
  have hlen : c.length = k := by
    have := congrArg List.length h
    simp only [List.length_append, List.length_replicate] at this
    omega
  have hc : c = List.replicate k '0' := by
    refine eq_zeros hlen ?_
    have := congrArg (List.countP (· ≠ '0')) h
    rw [List.countP_append, List.countP_append, countP_zeros] at this
    omega
  exact ⟨hc, (zeros_after hk (hc ▸ h).symm).2⟩

end Decimal
