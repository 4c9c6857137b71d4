import Jadwal.Lib.Numeral
import Mathlib.Data.Int.Log
import Mathlib.Data.List.TakeWhile
import Mathlib.Data.Rat.Floor
import Mathlib.Tactic.Common
import Mathlib.Tactic.FieldSimp
import Mathlib.Tactic.Linarith
import Mathlib.Tactic.NormNum
import Mathlib.Tactic.Ring

/-!
# Numbers read as doubles

A text is read as a number with a fraction and an exponent, or as an
integer of base 2, 8 or 16, and what it denotes is rounded to the nearest
double, ties to even.  A text that denotes no number, or one that rounds to
an infinity, gives none.  An integer below `2 ^ 53` that was printed is
read back as it is (`read_digits`).
-/

namespace Binary64

open Decimal (digits value isDigit_of_mem value_digits)

/-! ## Rounding -/

/-- The nearest integer, and of two the even one. -/
def roundHalfEven (q : ℚ) : ℤ :=
  if q - ⌊q⌋ < 1 / 2 then ⌊q⌋
  else if 1 / 2 < q - ⌊q⌋ then ⌊q⌋ + 1
  else if ⌊q⌋ % 2 = 0 then ⌊q⌋
  else ⌊q⌋ + 1

/-- The exponent of the last bit of the doubles next to a number. -/
def lastBit (q : ℚ) : ℤ := max (Int.log 2 |q| - 52) (-1074)

/-- The double nearest to a number, unless it is infinite. -/
def round (q : ℚ) : Option ℚ :=
  let nearest : ℚ := roundHalfEven (q / 2 ^ lastBit q) * 2 ^ lastBit q
  if |nearest| < 2 ^ 1024 then some nearest else none

theorem roundHalfEven_intCast (n : ℤ) : roundHalfEven (n : ℚ) = n := by
  simp [roundHalfEven]

/-- A multiple of the last bit is a double. -/
theorem round_of_multiple {q : ℚ} {n : ℤ} (hq : q = n * 2 ^ lastBit q) (hlt : |q| < 2 ^ 1024) :
    round q = some q := by
  have hpos : (2 : ℚ) ^ lastBit q ≠ 0 := zpow_ne_zero _ (by norm_num)
  have hn : q / 2 ^ lastBit q = n := by
    rw [div_eq_iff hpos]
    exact hq
  simp only [round, hn, roundHalfEven_intCast, ← hq, hlt, if_true]

theorem lastBit_nonpos {n : Nat} (h : n < 2 ^ 53) : lastBit n ≤ 0 := by
  have habs : |(n : ℚ)| = n := abs_of_nonneg (Nat.cast_nonneg n)
  have hlog : Int.log 2 (n : ℚ) ≤ 52 := by
    rw [Int.log_natCast]
    have hlt : Nat.log 2 n < 53 := Nat.log_lt_of_lt_pow' (by decide) h
    omega
  rw [lastBit, habs]
  omega

/-- **Integers of 53 bits are doubles.** -/
theorem round_natCast {n : Nat} (h : n < 2 ^ 53) : round n = some (n : ℚ) := by
  obtain ⟨k, hk⟩ : ∃ k : Nat, lastBit n = -k := by
    have hle := lastBit_nonpos h
    exact ⟨(-lastBit n).toNat, by omega⟩
  apply round_of_multiple (n := n * 2 ^ k)
  · rw [hk, zpow_neg, zpow_natCast]
    push_cast
    field_simp
  · rw [abs_of_nonneg (Nat.cast_nonneg n)]
    have hlt : (n : ℚ) < 2 ^ 53 := by exact_mod_cast h
    exact lt_trans hlt (pow_lt_pow_right₀ (by norm_num) (by norm_num))

/-! ## Reading -/

/-- The digit of a letter or a digit, in a base up to 16. -/
def digit? (base : Nat) (c : Char) : Option Nat :=
  let n := if c.isDigit then c.toNat - 48 else c.toLower.toNat - 87
  if (c.isDigit ∨ 'a' ≤ c.toLower ∧ c.toLower ≤ 'f') ∧ n < base then some n else none

/-- An integer of the base. -/
def readBase (base : Nat) (text : List Char) : Option ℚ :=
  if text = [] then none
  else (text.mapM (digit? base)).map (fun ds => (ds.foldl (fun n d => n * base + d) 0 : Nat))

/-- One or more digits, and no more. -/
def readWhole (text : List Char) : Option Nat :=
  if text ≠ [] ∧ text.all Char.isDigit then some (value text) else none

/-- What follows the digits of a number. -/
def readExponent : List Char → Option ℤ
  | [] => some 0
  | c :: text =>
      if c = 'e' ∨ c = 'E' then
        match text with
        | '+' :: text => (readWhole text).map Int.ofNat
        | '-' :: text => (readWhole text).map (fun n => -(n : ℤ))
        | text => (readWhole text).map Int.ofNat
      else none

/-- Digits after a point, if there is one, and the rest. -/
def readFraction : List Char → List Char × List Char
  | '.' :: text => (text.takeWhile Char.isDigit, text.dropWhile Char.isDigit)
  | text => ([], text)

/-- Digits, with a fraction or an exponent or both. -/
def readDecimal (text : List Char) : Option ℚ :=
  let whole := text.takeWhile Char.isDigit
  let (fraction, rest) := readFraction (text.dropWhile Char.isDigit)
  if whole ++ fraction = [] then none
  else
    (readExponent rest).map (fun e : ℤ =>
      (value (whole ++ fraction) : ℚ) * 10 ^ (e - (fraction.length : ℤ)))

/-- What a text denotes; the empty one denotes zero. -/
def denote : List Char → Option ℚ
  | [] => some 0
  | '+' :: text => readDecimal text
  | '-' :: text => (readDecimal text).map (- ·)
  | '0' :: c :: text =>
      if c.toLower = 'x' then readBase 16 text
      else if c.toLower = 'o' then readBase 8 text
      else if c.toLower = 'b' then readBase 2 text
      else readDecimal ('0' :: c :: text)
  | text => readDecimal text

/-- The double a text denotes, where that is finite. -/
def read (text : List Char) : Option ℚ := (denote text).bind round

theorem readDecimal_of_digits {text : List Char} (hne : text ≠ [])
    (hall : ∀ c ∈ text, c.isDigit = true) : readDecimal text = some (value text : ℚ) := by
  have htake : text.takeWhile Char.isDigit = text := List.takeWhile_eq_self_iff.mpr hall
  have hdrop : text.dropWhile Char.isDigit = [] := List.dropWhile_eq_nil_iff.mpr hall
  simp [readDecimal, htake, hdrop, readFraction, readExponent, hne]

/-- Digits denote the number they print. -/
theorem denote_of_digits {text : List Char} (hne : text ≠ [])
    (hall : ∀ c ∈ text, c.isDigit = true) : denote text = some (value text : ℚ) := by
  have hdecimal := readDecimal_of_digits hne hall
  unfold denote
  split
  case h_1 => exact absurd rfl hne
  case h_2 rest => exact absurd (hall '+' List.mem_cons_self) (by decide)
  case h_3 rest => exact absurd (hall '-' List.mem_cons_self) (by decide)
  case h_4 c rest =>
    have hc : c.isDigit = true := hall c (by simp)
    have hlower : c.toLower = c := by
      simp only [Char.isDigit, Bool.and_eq_true, decide_eq_true_eq] at hc
      unfold Char.toLower
      rw [dif_neg]
      intro hupper
      exact absurd (UInt32.le_trans hupper.1 hc.2) (by decide)
    have hne : ∀ d : Char, d.isDigit = false → c ≠ d := by
      intro d hd heq
      rw [heq, hd] at hc
      cases hc
    rw [hlower, if_neg (hne 'x' (by decide)), if_neg (hne 'o' (by decide)),
      if_neg (hne 'b' (by decide))]
    exact hdecimal
  case h_5 => exact hdecimal

/-- **A printed integer is read back.** -/
theorem read_digits {n : Nat} (h : n < 2 ^ 53) : read (digits n) = some (n : ℚ) := by
  have hall : ∀ c ∈ digits n, c.isDigit = true := fun c hc => isDigit_of_mem hc
  rw [read, denote_of_digits Nat.toDigits_ne_nil hall, value_digits, Option.bind_some,
    round_natCast h]

end Binary64
