import Mathlib.Data.List.Basic
import Mathlib.Tactic.Common

/-!
# Bytes as text

Base64url without padding, UTF-8 and hexadecimal digits.  The readers are
lenient, as those of servers are: the reader of base64 skips what is no
digit of either alphabet and drops bits that make no byte, and the reader
of UTF-8 puts a replacement character for each ill-formed part.  What is
written is read back (`decode_encode`, `decodeUtf8_encodeUtf8`).
-/

namespace Base64

/-! ## Base64url -/

/-- The digit of six bits. -/
def sextetChar (n : Nat) : Char :=
  if n < 26 then Char.ofNat (n + 65)
  else if n < 52 then Char.ofNat (n + 71)
  else if n < 62 then Char.ofNat (n - 4)
  else if n = 62 then '-'
  else '_'

/-- The six bits of a digit, of this alphabet or of plain base64. -/
def sextet? (c : Char) : Option Nat :=
  if c.isUpper then some (c.toNat - 65)
  else if c.isLower then some (c.toNat - 71)
  else if c.isDigit then some (c.toNat + 4)
  else if c = '-' ∨ c = '+' then some 62
  else if c = '_' ∨ c = '/' then some 63
  else none

/-- The six bits of three bytes. -/
def toSextets : List UInt8 → List Nat
  | a :: b :: c :: rest =>
      a.toNat / 4 :: (a.toNat % 4 * 16 + b.toNat / 16) ::
        (b.toNat % 16 * 4 + c.toNat / 64) :: c.toNat % 64 :: toSextets rest
  | [a, b] => [a.toNat / 4, a.toNat % 4 * 16 + b.toNat / 16, b.toNat % 16 * 4]
  | [a] => [a.toNat / 4, a.toNat % 4 * 16]
  | [] => []

/-- The bytes of four digits; the bits left over are dropped. -/
def ofSextets : List Nat → List UInt8
  | a :: b :: c :: d :: rest =>
      UInt8.ofNat (a * 4 + b / 16) :: UInt8.ofNat (b % 16 * 16 + c / 4) ::
        UInt8.ofNat (c % 4 * 64 + d) :: ofSextets rest
  | [a, b, c] => [UInt8.ofNat (a * 4 + b / 16), UInt8.ofNat (b % 16 * 16 + c / 4)]
  | [a, b] => [UInt8.ofNat (a * 4 + b / 16)]
  | _ => []

def encode (bytes : List UInt8) : List Char := (toSextets bytes).map sextetChar

def decode (text : List Char) : List UInt8 := ofSextets (text.filterMap sextet?)

theorem sextet?_sextetChar : ∀ n < 64, sextet? (sextetChar n) = some n := by decide

theorem toSextets_lt (bytes : List UInt8) : ∀ n ∈ toSextets bytes, n < 64 := by
  induction bytes using toSextets.induct with
  | case1 a b c rest ih =>
      have ha := a.toNat_lt
      have hb := b.toNat_lt
      have hc := c.toNat_lt
      simp only [toSextets, List.forall_mem_cons]
      exact ⟨by omega, by omega, by omega, by omega, ih⟩
  | case2 a b =>
      have ha := a.toNat_lt
      have hb := b.toNat_lt
      simp only [toSextets, List.forall_mem_cons]
      exact ⟨by omega, by omega, by omega, by simp⟩
  | case3 a =>
      have ha := a.toNat_lt
      simp only [toSextets, List.forall_mem_cons]
      exact ⟨by omega, by omega, by simp⟩
  | case4 => simp [toSextets]

theorem ofNat_eq {n : Nat} {a : UInt8} (h : n = a.toNat) : UInt8.ofNat n = a := by
  rw [h, UInt8.ofNat_toNat]

theorem ofSextets_toSextets (bytes : List UInt8) : ofSextets (toSextets bytes) = bytes := by
  induction bytes using toSextets.induct with
  | case1 a b c rest ih =>
      have hb := b.toNat_lt
      have hc := c.toNat_lt
      rw [toSextets, ofSextets, ih]
      rw [ofNat_eq (a := a) (by omega), ofNat_eq (a := b) (by omega),
        ofNat_eq (a := c) (by omega)]
  | case2 a b =>
      have hb := b.toNat_lt
      rw [toSextets, ofSextets, ofNat_eq (a := a) (by omega), ofNat_eq (a := b) (by omega)]
  | case3 a => rw [toSextets, ofSextets, ofNat_eq (a := a) (by omega)]
  | case4 => rfl

theorem filterMap_sextets {ns : List Nat} (h : ∀ n ∈ ns, n < 64) :
    (ns.map sextetChar).filterMap sextet? = ns := by
  induction ns with
  | nil => rfl
  | cons n ns ih =>
      obtain ⟨hn, hns⟩ := List.forall_mem_cons.mp h
      rw [List.map_cons, List.filterMap_cons_some (sextet?_sextetChar n hn), ih hns]

/-- **What is encoded is decoded.** -/
theorem decode_encode (bytes : List UInt8) : decode (encode bytes) = bytes := by
  rw [decode, encode, filterMap_sextets (toSextets_lt bytes), ofSextets_toSextets]

/-- An encoded text holds digits only. -/
theorem not_mem_encode {c : Char} (hc : sextet? c = none) (bytes : List UInt8) :
    c ∉ encode bytes := by
  intro h
  obtain ⟨n, hn, rfl⟩ := List.mem_map.mp h
  rw [sextet?_sextetChar n (toSextets_lt bytes n hn)] at hc
  cases hc

/-! ## UTF-8 -/

def encodeUtf8 (text : List Char) : List UInt8 := text.flatMap String.utf8EncodeChar

/-- The character that stands for what is no text. -/
def replacement : Char := Char.ofNat 0xfffd

/-- What a first byte asks for: how many bytes follow, the least and the greatest the next one
can be, and the bits it brings. -/
def lead? (b : Nat) : Option (Nat × Nat × Nat × Nat) :=
  if 0xc2 ≤ b ∧ b ≤ 0xdf then some (1, 0x80, 0xbf, b - 0xc0)
  else if b = 0xe0 then some (2, 0xa0, 0xbf, 0)
  else if b = 0xed then some (2, 0x80, 0x9f, 0xd)
  else if 0xe1 ≤ b ∧ b ≤ 0xef then some (2, 0x80, 0xbf, b - 0xe0)
  else if b = 0xf0 then some (3, 0x90, 0xbf, 0)
  else if b = 0xf4 then some (3, 0x80, 0x8f, 4)
  else if 0xf1 ≤ b ∧ b ≤ 0xf3 then some (3, 0x80, 0xbf, b - 0xf0)
  else none

/-- Reads the bytes that follow; the first that does not fit is left in place. -/
def continuation : Nat → Nat → Nat → Nat → List UInt8 → Option Nat × List UInt8
  | 0, _, _, acc, rest => (some acc, rest)
  | _ + 1, _, _, _, [] => (none, [])
  | n + 1, lo, hi, acc, b :: rest =>
      if lo ≤ b.toNat ∧ b.toNat ≤ hi then
        continuation n 0x80 0xbf (acc * 64 + b.toNat % 64) rest
      else (none, b :: rest)

/-- The character at the front of a text of bytes, and the bytes after it. -/
def decodeFirst (b : UInt8) (rest : List UInt8) : Char × List UInt8 :=
  if b.toNat < 0x80 then (Char.ofNat b.toNat, rest)
  else
    match lead? b.toNat with
    | none => (replacement, rest)
    | some (n, lo, hi, acc) =>
        ((continuation n lo hi acc rest).1.elim replacement Char.ofNat,
          (continuation n lo hi acc rest).2)

/-- No more characters than bytes. -/
def decodeChars : Nat → List UInt8 → List Char
  | 0, _ => []
  | _ + 1, [] => []
  | n + 1, b :: rest => (decodeFirst b rest).1 :: decodeChars n (decodeFirst b rest).2

def decodeUtf8 (bytes : List UInt8) : List Char := decodeChars bytes.length bytes

/-- A character is no surrogate. -/
theorem toNat_range (c : Char) : c.toNat < 0xd800 ∨ (0xdfff < c.toNat ∧ c.toNat < 0x110000) :=
  c.valid

/-- A byte that fits is taken in. -/
theorem continuation_cons {n lo hi acc : Nat} {b : UInt8} {rest : List UInt8} {m : Nat}
    (hb : b = UInt8.ofNat m) (hlo : lo ≤ m) (hhi : m ≤ hi) (hm : m < 256) :
    continuation (n + 1) lo hi acc (b :: rest) =
      continuation n 0x80 0xbf (acc * 64 + m % 64) rest := by
  have hnat : b.toNat = m := by
    rw [hb, UInt8.toNat_ofNat']
    exact Nat.mod_eq_of_lt hm
  rw [continuation, hnat, if_pos ⟨hlo, hhi⟩]

/-- A first byte with bits for more is followed by them. -/
theorem decodeFirst_lead {m n lo hi acc v : Nat} {rest after : List UInt8} (hm : m < 256)
    (hlong : 0x80 ≤ m) (hlead : lead? m = some (n, lo, hi, acc))
    (hrest : continuation n lo hi acc rest = (some v, after)) :
    decodeFirst (UInt8.ofNat m) rest = (Char.ofNat v, after) := by
  have hnat : (UInt8.ofNat m).toNat = m := by
    rw [UInt8.toNat_ofNat']
    exact Nat.mod_eq_of_lt hm
  rw [decodeFirst, hnat, if_neg (by omega), hlead]
  simp only [hrest, Option.elim_some]

/-- The first of three bytes. -/
theorem lead?_three {m x : Nat} (hm : 0xe0 ≤ m ∧ m ≤ 0xef) (hx : 0x80 ≤ x ∧ x ≤ 0xbf)
    (hfirst : m = 0xe0 → 0xa0 ≤ x) (hsurrogate : m = 0xed → x ≤ 0x9f) :
    ∃ lo hi, lead? m = some (2, lo, hi, m - 0xe0) ∧ lo ≤ x ∧ x ≤ hi := by
  unfold lead?
  rw [if_neg (by omega)]
  by_cases h0 : m = 0xe0
  · exact ⟨0xa0, 0xbf, by simp [h0], hfirst h0, hx.2⟩
  · by_cases hd : m = 0xed
    · exact ⟨0x80, 0x9f, by simp [hd], hx.1, hsurrogate hd⟩
    · rw [if_neg h0, if_neg hd, if_pos (by omega)]
      exact ⟨_, _, rfl, hx⟩

/-- The first of four bytes. -/
theorem lead?_four {m x : Nat} (hm : 0xf0 ≤ m ∧ m ≤ 0xf4) (hx : 0x80 ≤ x ∧ x ≤ 0xbf)
    (hfirst : m = 0xf0 → 0x90 ≤ x) (hlast : m = 0xf4 → x ≤ 0x8f) :
    ∃ lo hi, lead? m = some (3, lo, hi, m - 0xf0) ∧ lo ≤ x ∧ x ≤ hi := by
  unfold lead?
  rw [if_neg (by omega), if_neg (by omega), if_neg (by omega), if_neg (by omega)]
  by_cases h0 : m = 0xf0
  · exact ⟨0x90, 0xbf, by simp [h0], hfirst h0, hx.2⟩
  · by_cases h4 : m = 0xf4
    · exact ⟨0x80, 0x8f, by simp [h4], hx.1, hlast h4⟩
    · rw [if_neg h0, if_neg h4, if_pos (by omega)]
      exact ⟨_, _, rfl, hx⟩

/-- A character at the front is read back. -/
theorem decodeFirst_utf8EncodeChar (c : Char) (rest : List UInt8) :
    ∃ b bytes, String.utf8EncodeChar c = b :: bytes ∧
      decodeFirst b (bytes ++ rest) = (c, rest) := by
  have hrange := toNat_range c
  have hof : Char.ofNat c.toNat = c := Char.ofNat_toNat c
  obtain ⟨v, hv⟩ : ∃ v, c.toNat = v := ⟨_, rfl⟩
  have hval : c.val.toNat = v := hv
  rw [hv] at hrange hof
  by_cases h1 : v ≤ 0x7f
  · refine ⟨UInt8.ofNat v, [], by simp [String.utf8EncodeChar, hval, h1], ?_⟩
    have hnat : (UInt8.ofNat v).toNat = v := by
      rw [UInt8.toNat_ofNat']
      exact Nat.mod_eq_of_lt (by omega)
    rw [decodeFirst, hnat, if_pos (by omega), hof]
    rfl
  by_cases h2 : v ≤ 0x7ff
  · refine ⟨UInt8.ofNat (v / 64 % 32 + 192), [UInt8.ofNat (v % 64 + 128)],
      by simp [String.utf8EncodeChar, hval, h1, h2], ?_⟩
    have hlead : lead? (v / 64 % 32 + 192) = some (1, 0x80, 0xbf, v / 64 % 32 + 192 - 0xc0) := by
      rw [lead?, if_pos (by omega)]
    have hbits : (v / 64 % 32 + 192 - 0xc0) * 64 + (v % 64 + 128) % 64 = v := by omega
    rw [decodeFirst_lead (by omega) (by omega) hlead, hof]
    rw [List.singleton_append, continuation_cons rfl (by omega) (by omega) (by omega), hbits]
    rfl
  by_cases h3 : v ≤ 0xffff
  · refine ⟨UInt8.ofNat (v / 4096 % 16 + 224),
      [UInt8.ofNat (v / 64 % 64 + 128), UInt8.ofNat (v % 64 + 128)],
      by simp [String.utf8EncodeChar, hval, h1, h2, h3], ?_⟩
    obtain ⟨lo, hi, hlead, hlo, hhi⟩ : ∃ lo hi, lead? (v / 4096 % 16 + 224) =
        some (2, lo, hi, v / 4096 % 16 + 224 - 0xe0) ∧ lo ≤ v / 64 % 64 + 128 ∧
          v / 64 % 64 + 128 ≤ hi :=
      lead?_three (by omega) (by omega) (by omega) (by omega)
    have hbits : ((v / 4096 % 16 + 224 - 0xe0) * 64 + (v / 64 % 64 + 128) % 64) * 64 +
        (v % 64 + 128) % 64 = v := by omega
    rw [decodeFirst_lead (by omega) (by omega) hlead, hof]
    rw [List.cons_append, continuation_cons rfl hlo hhi (by omega), List.singleton_append,
      continuation_cons rfl (by omega) (by omega) (by omega), hbits]
    rfl
  · refine ⟨UInt8.ofNat (v / 262144 % 8 + 240), [UInt8.ofNat (v / 4096 % 64 + 128),
        UInt8.ofNat (v / 64 % 64 + 128), UInt8.ofNat (v % 64 + 128)],
      by simp [String.utf8EncodeChar, hval, h1, h2, h3], ?_⟩
    obtain ⟨lo, hi, hlead, hlo, hhi⟩ : ∃ lo hi, lead? (v / 262144 % 8 + 240) =
        some (3, lo, hi, v / 262144 % 8 + 240 - 0xf0) ∧ lo ≤ v / 4096 % 64 + 128 ∧
          v / 4096 % 64 + 128 ≤ hi :=
      lead?_four (by omega) (by omega) (by omega) (by omega)
    have hbits : (((v / 262144 % 8 + 240 - 0xf0) * 64 + (v / 4096 % 64 + 128) % 64) * 64 +
        (v / 64 % 64 + 128) % 64) * 64 + (v % 64 + 128) % 64 = v := by omega
    rw [decodeFirst_lead (by omega) (by omega) hlead, hof]
    rw [List.cons_append, continuation_cons rfl hlo hhi (by omega), List.cons_append,
      continuation_cons rfl (by omega) (by omega) (by omega), List.singleton_append,
      continuation_cons rfl (by omega) (by omega) (by omega), hbits]
    rfl

theorem decodeChars_encodeUtf8 (text : List Char) {n : Nat} (h : (encodeUtf8 text).length ≤ n) :
    decodeChars n (encodeUtf8 text) = text := by
  induction text generalizing n with
  | nil => cases n <;> rfl
  | cons c text ih =>
      obtain ⟨b, bytes, hbytes, hfirst⟩ := decodeFirst_utf8EncodeChar c (encodeUtf8 text)
      have hcons : encodeUtf8 (c :: text) = b :: (bytes ++ encodeUtf8 text) := by
        rw [encodeUtf8, List.flatMap_cons, hbytes]
        rfl
      rw [hcons] at h ⊢
      cases n with
      | zero => simp at h
      | succ n =>
          rw [decodeChars, hfirst]
          rw [ih]
          simp only [List.length_cons, List.length_append] at h
          omega

/-- **What is written in UTF-8 is read back.** -/
theorem decodeUtf8_encodeUtf8 (text : List Char) : decodeUtf8 (encodeUtf8 text) = text :=
  decodeChars_encodeUtf8 text (Nat.le_refl _)

/-! ## Hexadecimal digits -/

def hexChar (n : Nat) : Char := if n < 10 then Char.ofNat (n + 48) else Char.ofNat (n + 87)

def hex (bytes : List UInt8) : List Char :=
  bytes.flatMap (fun b => [hexChar (b.toNat / 16), hexChar (b.toNat % 16)])

theorem hexChar_ne : ∀ n < 16, hexChar n ≠ '|' := by decide

theorem length_hex (bytes : List UInt8) : (hex bytes).length = 2 * bytes.length := by
  induction bytes with
  | nil => rfl
  | cons b bytes ih =>
      have hcons : hex (b :: bytes) = hexChar (b.toNat / 16) :: hexChar (b.toNat % 16) ::
          hex bytes := rfl
      rw [hcons, List.length_cons, List.length_cons, ih, List.length_cons]
      omega

end Base64
