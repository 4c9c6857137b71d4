import Jadwal.Lib.Decimal
import Mathlib.Algebra.Order.Group.Nat
import Mathlib.Tactic.Common

/-!
# Numerals read back

Readers of printed numbers: a numeral of a fixed width, filled up with
zeros, and the digits a text begins with.  Each reader takes the front off
a text and returns the rest, so that a format is read field by field, and
each undoes its printer.
-/

namespace Decimal

/-- The number a text of digits denotes. -/
abbrev value (l : List Char) : Nat := Nat.ofDigitChars 10 l 0

@[simp] theorem value_digits (n : Nat) : value (digits n) = n := Nat.ofDigitChars_ten_toDigits

/-- The digits of a number, filled up with zeros to a width. -/
def padded (width n : Nat) : List Char :=
  List.replicate (width - (digits n).length) '0' ++ digits n

@[simp] theorem value_padded (width n : Nat) : value (padded width n) = n := by
  rw [value, padded, Nat.ofDigitChars_append, Nat.ofDigitChars_replicate_zero, Nat.mul_zero]
  exact value_digits n

theorem padded_ne_nil (width n : Nat) : padded width n ≠ [] := by
  intro h
  exact Nat.toDigits_ne_nil (List.append_eq_nil_iff.mp h).2

/-- A padded number holds digits only. -/
theorem isDigit_of_mem_padded {width n : Nat} {c : Char} (h : c ∈ padded width n) :
    c.isDigit = true := by
  rcases List.mem_append.mp h with h | h
  · rw [List.eq_of_mem_replicate h]
    decide
  · exact isDigit_of_mem h

/-- It has the width it was given, where the number fits. -/
theorem length_padded {width n : Nat} (hw : 0 < width) (h : n < 10 ^ width) :
    (padded width n).length = width := by
  have hle : (digits n).length ≤ width := (Nat.length_toDigits_le_iff (by decide) hw).mpr h
  rw [padded, List.length_append, List.length_replicate]
  omega

/-! ## Readers -/

/-- A numeral of the given width at the front of a text. -/
def readField (width : Nat) (l : List Char) : Option (Nat × List Char) :=
  if (l.take width).length = width ∧ (l.take width).all Char.isDigit then
    some (value (l.take width), l.drop width)
  else none

/-- The digits a text begins with. -/
def readDigits (l : List Char) : Option (Nat × List Char) :=
  if l.takeWhile Char.isDigit = [] then none
  else some (value (l.takeWhile Char.isDigit), l.dropWhile Char.isDigit)

/-- One given character at the front of a text. -/
def expect (c : Char) : List Char → Option (List Char)
  | [] => none
  | d :: l => if d = c then some l else none

@[simp] theorem expect_cons (c : Char) (l : List Char) : expect c (c :: l) = some l := by
  simp [expect]

/-- **A field reads back what was padded to its width.** -/
theorem readField_padded {width n : Nat} (hw : 0 < width) (h : n < 10 ^ width)
    (rest : List Char) : readField width (padded width n ++ rest) = some (n, rest) := by
  have hlen := length_padded hw h
  have htake : (padded width n ++ rest).take width = padded width n := by
    rw [List.take_append_of_le_length hlen.ge, List.take_of_length_le hlen.le]
  have hdrop : (padded width n ++ rest).drop width = rest := by
    rw [List.drop_append_of_le_length hlen.ge, List.drop_of_length_le hlen.le]
    rfl
  have hall : (padded width n).all Char.isDigit = true :=
    List.all_eq_true.mpr fun c hc => isDigit_of_mem_padded hc
  rw [readField, htake, hdrop, if_pos ⟨hlen, hall⟩, value_padded]

/-- **Digits in front of anything else are read back.** -/
theorem readDigits_append {ds rest : List Char} (hne : ds ≠ [])
    (hd : ∀ c ∈ ds, c.isDigit = true) (hr : ∀ c ∈ rest.head?, c.isDigit = false) :
    readDigits (ds ++ rest) = some (value ds, rest) := by
  have hstop : rest.takeWhile Char.isDigit = [] ∧ rest.dropWhile Char.isDigit = rest := by
    cases rest with
    | nil => exact ⟨rfl, rfl⟩
    | cons c rest =>
        have hc : c.isDigit = false := hr c rfl
        simp [hc]
  have htake : (ds ++ rest).takeWhile Char.isDigit = ds := by
    rw [List.takeWhile_append_of_pos hd, hstop.1, List.append_nil]
  have hdrop : (ds ++ rest).dropWhile Char.isDigit = rest := by
    rw [List.dropWhile_append_of_pos hd, hstop.2]
  rw [readDigits, htake, hdrop, if_neg hne]

/-- A separator and the numeral behind it. -/
def readAfter (c : Char) (width : Nat) (l : List Char) : Option (Nat × List Char) :=
  (expect c l).bind (readField width)

/-- A field after a separator is read back. -/
theorem readAfter_padded {c : Char} {width n : Nat} (hw : 0 < width) (h : n < 10 ^ width)
    (rest : List Char) :
    readAfter c width (c :: (padded width n ++ rest)) = some (n, rest) := by
  rw [readAfter, expect_cons, Option.bind_some, readField_padded hw h]

end Decimal
