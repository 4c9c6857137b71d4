import Jadwal.Payment
import Jadwal.Lib.Decimal

/-!
# The signature of a callback

The gateway hashes the merchant id, the basket, the secret word and the
amount and code of its answer, in an order that depends on the rail, and
the service looks for a code and a spelling of the amount under which the
hash verifies (`resolveSignedErrCode`).  Nothing frames the amount and the
code, so a text may be read in two ways; `success_signed` says exactly when
a success can only be read from a success of the same rail.
-/

namespace Jadwal

open Decimal

/-! ## What is hashed -/

/-- The end of the hashed text: the amount and the code, in the order of
the rail. -/
def Rail.tail : Rail → String → String → String
  | .card, amt, ec => amt ++ ec
  | .naps, amt, ec => ec ++ amt

@[simp] theorem Rail.tail_card (amt ec : String) : Rail.card.tail amt ec = amt ++ ec := rfl

@[simp] theorem Rail.tail_naps (amt ec : String) : Rail.naps.tail amt ec = ec ++ amt := rfl

/-- The hashed text. -/
def signedText (env : Env) (basketId : String) (rail : Rail) (amt ec : String) : String :=
  env.merchantId ++ basketId ++ env.secretWord ++ rail.tail amt ec

/-- The spellings of an amount: two decimals, trimmed, integer. -/
def amountForms (amount : Cents) : List String :=
  [amount.toFixed2, amount.toText, amount.toFixed0]

/-- The codes `handleCallback` takes for a success. -/
def successCode (ec : String) : Prop := ec = "00" ∨ ec = "000"

instance (ec : String) : Decidable (successCode ec) := inferInstanceAs (Decidable (_ ∨ _))

/-- The texts the service hashes for a callback. -/
def hashedTexts (env : Env) (basketId : String) (amount : Cents) (received : String) :
    List String :=
  [received, "00", "000"].flatMap (fun ec => (amountForms amount).flatMap (fun amt =>
    [signedText env basketId .card amt ec, signedText env basketId .naps amt ec]))

/-- The response key of the gateway: the digest of the text it signs. -/
def responseKeyOf (env : Env) (basketId : String) (rail : Rail) (amt ec : String) : String :=
  env.sha256 (signedText env basketId rail amt ec)

/-- What is assumed of the digest: 64 lower-case hexadecimal digits, and
no collision of the signed text with a text the service hashes. -/
structure Digests (env : Env) (basketId : String) (amount : Cents) (received : String)
    (signed : String) : Prop where
  lower : (env.sha256 signed).toLower = env.sha256 signed
  hex : (env.sha256 signed).length = 64 ∧ (env.sha256 signed).all isHexDigit
  injective : ∀ x ∈ hashedTexts env basketId amount received,
    env.sha256 x = env.sha256 signed → x = signed

/-! ## The search, by code -/

/-- The search for one code. -/
def stage (amount : Cents) (rail : Rail) (spelling code ec : String) :
    Option (String × Rail) :=
  (amountForms amount).findSome? (fun amt =>
    if amt ++ ec = rail.tail spelling code then some (ec, .card)
    else if ec ++ amt = rail.tail spelling code then some (ec, .naps) else none)

variable {env : Env} {basketId received spelling code : String} {amount : Cents}
  {rail : Rail}

/-- Of one rail, texts agree when their tails do; the basket is the same. -/
theorem signedText_inj (env : Env) (basketId : String) {rail rail' : Rail}
    {amt amt' ec ec' : String} :
    signedText env basketId rail amt ec = signedText env basketId rail' amt' ec' ↔
      rail.tail amt ec = rail'.tail amt' ec' := by
  simp only [signedText, ← String.toList_inj, String.toList_append, List.append_assoc,
    List.append_cancel_left_eq]

/-- A hash verifies exactly when the texts agree. -/
theorem verifies_iff (h : Digests env basketId amount received
      (signedText env basketId rail spelling code))
    {ec amt : String} (hec : ec ∈ [received, "00", "000"]) (hamt : amt ∈ amountForms amount)
    (order : Rail) :
    env.sha256 (signedText env basketId order amt ec) =
        (responseKeyOf env basketId rail spelling code).toLower ↔
      order.tail amt ec = rail.tail spelling code := by
  rw [responseKeyOf, h.lower, ← signedText_inj env basketId]
  refine ⟨fun hsha => h.injective _ ?_ hsha, fun heq => by rw [heq]⟩
  refine List.mem_flatMap.mpr ⟨ec, hec, List.mem_flatMap.mpr ⟨amt, hamt, ?_⟩⟩
  cases order <;> simp

theorem findSome?_congr {α β : Type} {l : List α} {f g : α → Option β}
    (h : ∀ a ∈ l, f a = g a) : l.findSome? f = l.findSome? g := by
  induction l with
  | nil => rfl
  | cons a l ih =>
      rw [List.findSome?_cons, List.findSome?_cons, h a (by simp),
        ih fun b hb => h b (by simp [hb])]

/-- One received code, against every form of the amount. -/
theorem stage_eq (h : Digests env basketId amount received
      (signedText env basketId rail spelling code)) {ec : String}
    (hec : ec ∈ [received, "00", "000"]) :
    (amountForms amount).findSome? (fun amt =>
      [(amt ++ ec, Rail.card), (ec ++ amt, Rail.naps)].findSome? (fun (tail, rail') =>
        if env.sha256 (env.merchantId ++ basketId ++ env.secretWord ++ tail) =
            (responseKeyOf env basketId rail spelling code).toLower then some (ec, rail')
        else none)) = stage amount rail spelling code ec := by
  unfold stage
  refine findSome?_congr fun amt hamt => ?_
  have hcard := verifies_iff h hec hamt .card
  have hnaps := verifies_iff h hec hamt .naps
  simp only [signedText, Rail.tail_card, Rail.tail_naps] at hcard hnaps
  simp only [List.findSome?_cons, List.findSome?_nil, hcard, hnaps]
  by_cases hc : amt ++ ec = rail.tail spelling code
  · simp [hc]
  · by_cases hn : ec ++ amt = rail.tail spelling code <;> simp [hc, hn]

/-- **The search is three stages**: the received code, then the two
spellings of a success. -/
theorem resolve_eq (h : Digests env basketId amount received
      (signedText env basketId rail spelling code)) :
    resolveSignedErrCode env basketId amount received
        (responseKeyOf env basketId rail spelling code) =
      (stage amount rail spelling code received).or
        ((stage amount rail spelling code "00").or
          (stage amount rail spelling code "000")) := by
  have hgate : (responseKeyOf env basketId rail spelling code).length = 64 ∧
      (responseKeyOf env basketId rail spelling code).all isHexDigit := h.hex
  unfold resolveSignedErrCode
  rw [if_pos hgate]
  change [received, "00", "000"].findSome? (fun ec =>
    (amountForms amount).findSome? (fun amt => _)) = _
  rw [findSome?_congr fun ec hec => stage_eq h hec, List.findSome?_cons, List.findSome?_cons,
    List.findSome?_cons, List.findSome?_nil]
  cases stage amount rail spelling code received with
  | some r => rfl
  | none =>
      cases stage amount rail spelling code "00" with
      | some r => rfl
      | none => cases stage amount rail spelling code "000" <;> rfl

/-- What a stage finds: a spelling of the amount under which the code gives
the signed text, read as `NAPS` only when it does not read as a card's. -/
theorem stage_eq_some {ec ec' : String} {order : Rail}
    (h : stage amount rail spelling code ec = some (ec', order)) :
    ec' = ec ∧ ∃ amt ∈ amountForms amount, order.tail amt ec = rail.tail spelling code ∧
      (order = .naps → amt ++ ec ≠ rail.tail spelling code) := by
  obtain ⟨amt, hamt, hfind⟩ := List.exists_of_findSome?_eq_some h
  split at hfind
  · rename_i hcard
    simp only [Option.some.injEq, Prod.mk.injEq] at hfind
    obtain ⟨rfl, rfl⟩ := hfind
    exact ⟨rfl, amt, hamt, hcard, by simp⟩
  · rename_i hcard
    split at hfind
    · rename_i hnaps
      simp only [Option.some.injEq, Prod.mk.injEq] at hfind
      obtain ⟨rfl, rfl⟩ := hfind
      exact ⟨rfl, amt, hamt, hnaps, fun _ => hcard⟩
    · cases hfind

/-- A spelling under which a code gives the signed text is found. -/
theorem stage_isSome {ec amt : String} (hamt : amt ∈ amountForms amount) (order : Rail)
    (h : order.tail amt ec = rail.tail spelling code) :
    ∃ order', stage amount rail spelling code ec = some (ec, order') := by
  cases hs : stage amount rail spelling code ec with
  | none =>
      have hnone := List.findSome?_eq_none_iff.mp hs amt hamt
      cases order with
      | card =>
          rw [Rail.tail_card] at h
          rw [if_pos h] at hnone
          cases hnone
      | naps =>
          rw [Rail.tail_naps] at h
          rw [if_pos h] at hnone
          split at hnone <;> cases hnone
  | some r =>
      obtain ⟨ec', order'⟩ := r
      obtain ⟨rfl, _⟩ := stage_eq_some hs
      exact ⟨order', rfl⟩

/-! ## The spellings of an amount -/

/-- The decimals of a spelling: both digits, or the tenths alone. -/
def Decimals (n : Nat) (y : List Char) : Prop :=
  y = [Nat.digitChar (n / 10 % 10), Nat.digitChar (n % 10)] ∨
    (y = [Nat.digitChar (n / 10 % 10)] ∧ n % 10 = 0 ∧ n % 100 ≠ 0)

/-- The characters of a spelling: the whole number, a point and decimals, or
the number rounded to an integer. -/
def Spelled (n : Nat) (a : List Char) : Prop :=
  (∃ y, Decimals n y ∧ a = digits (n / 100) ++ '.' :: y) ∨ a = digits ((n + 50) / 100)

theorem toString_toList (k : Nat) : (toString k).toList = digits k := by
  simp [Nat.toString_eq_repr, Nat.toList_repr]

/-- One digit below ten. -/
theorem digits_lt (k : Nat) (h : k < 10) : digits k = [Nat.digitChar k] :=
  Nat.toDigits_of_lt_base h

/-- Two digits below a hundred. -/
theorem digits_two (k : Nat) (h : 10 ≤ k) (hlt : k < 100) :
    digits k = [Nat.digitChar (k / 10), Nat.digitChar (k % 10)] := by
  rw [digits, Nat.toDigits_of_base_le (by decide) h, Nat.toDigits_of_lt_base (by omega)]
  rfl

theorem digitChar_zero : Nat.digitChar 0 = '0' := rfl

/-- `toFixed(2)`, character by character. -/
theorem toFixed2_toList (n : Nat) :
    (Cents.toFixed2 (n : Int)).toList =
      digits (n / 100) ++ '.' :: [Nat.digitChar (n / 10 % 10), Nat.digitChar (n % 10)] := by
  have hsign : ¬ ((n : Int) < 0) := by omega
  have htens : n % 100 / 10 = n / 10 % 10 := by omega
  have hunits : n % 100 % 10 = n % 10 := by omega
  simp only [Cents.toFixed2, Int.natAbs_natCast, if_neg hsign, String.toList_append,
    toString_toList]
  by_cases hlt : n % 100 < 10
  · have h0 : n / 10 % 10 = 0 := by omega
    have h1 : n % 10 = n % 100 := by omega
    rw [if_pos hlt, digits_lt _ hlt, h0, h1]
    simp [digitChar_zero]
  · rw [if_neg hlt, digits_two (n % 100) (by omega) (by omega), htens, hunits]
    simp

/-- `toString()`, character by character. -/
theorem toText_toList (n : Nat) :
    (Cents.toText (n : Int)).toList =
      if n % 100 = 0 then digits (n / 100)
      else if n % 10 = 0 then digits (n / 100) ++ '.' :: [Nat.digitChar (n / 10 % 10)]
      else digits (n / 100) ++
        '.' :: [Nat.digitChar (n / 10 % 10), Nat.digitChar (n % 10)] := by
  have hsign : ¬ ((n : Int) < 0) := by omega
  have htens : n % 100 / 10 = n / 10 % 10 := by omega
  have hunits : n % 100 % 10 = n % 10 := by omega
  simp only [Cents.toText, Int.natAbs_natCast, if_neg hsign, hunits]
  by_cases hwhole : n % 100 = 0
  · rw [if_pos hwhole, if_pos hwhole, toString_toList]
  · rw [if_neg hwhole, if_neg hwhole]
    by_cases hten : n % 10 = 0
    · rw [if_pos hten, if_pos hten, String.toList_append, String.toList_append,
        toString_toList, toString_toList, htens, digits_lt (n / 10 % 10) (by omega)]
      simp
    · rw [if_neg hten, if_neg hten]
      by_cases hlt : n % 100 < 10
      · have h0 : n / 10 % 10 = 0 := by omega
        have h1 : n % 10 = n % 100 := by omega
        rw [if_pos hlt, String.toList_append, String.toList_append, toString_toList,
          toString_toList, digits_lt _ hlt, h0, h1]
        simp [digitChar_zero]
      · rw [if_neg hlt, String.toList_append, String.toList_append, toString_toList,
          toString_toList, digits_two (n % 100) (by omega) (by omega), htens, hunits]
        simp

/-- `toFixed(0)`, character by character. -/
theorem toFixed0_toList (n : Nat) :
    (Cents.toFixed0 (n : Int)).toList = digits ((n + 50) / 100) := by
  have hsign : ¬ ((n : Int) < 0) := by omega
  simp [Cents.toFixed0, hsign]

/-- What is tried for an amount spells it. -/
theorem spelled {n : Nat} {a : String} (h : a ∈ amountForms (n : Int)) :
    Spelled n a.toList := by
  simp only [amountForms, List.mem_cons, List.not_mem_nil, or_false] at h
  rcases h with rfl | rfl | rfl
  · exact .inl ⟨_, .inl rfl, toFixed2_toList n⟩
  · rw [toText_toList]
    split
    · rename_i hwhole
      right
      rw [show (n + 50) / 100 = n / 100 by omega]
    · rename_i hwhole
      split
      · rename_i hten
        exact .inl ⟨_, .inr ⟨rfl, hten, hwhole⟩, rfl⟩
      · exact .inl ⟨_, .inl rfl, rfl⟩
  · exact .inr (toFixed0_toList n)

/-! ## Which readings are possible -/

/-- The decimals of an amount are digits. -/
theorem Decimals.length {n : Nat} {y : List Char} (h : Decimals n y) :
    y.length = 1 ∨ y.length = 2 := by
  rcases h with rfl | ⟨rfl, -, -⟩ <;> simp

theorem point_not_mem_digitChar (k : Nat) (h : k < 10) : '.' ≠ Nat.digitChar k := by
  intro hp
  have hmem : '.' ∈ digits k := by rw [digits_lt k h, hp]; simp
  exact point_not_mem k hmem

/-- Decimals hold no point. -/
theorem Decimals.point_not_mem {n : Nat} {y : List Char} (h : Decimals n y) : '.' ∉ y := by
  have htens := point_not_mem_digitChar (n / 10 % 10) (by omega)
  have hunits := point_not_mem_digitChar (n % 10) (by omega)
  rcases h with rfl | ⟨rfl, -, -⟩ <;> simp [htens, hunits]

/-- Two spellings with decimals of one amount, followed by codes: the codes
agree, or one moved a zero into the other. -/
theorem Decimals.append {n : Nat} {y y' c c' : List Char} (h : Decimals n y)
    (h' : Decimals n y') (heq : y' ++ c' = y ++ c) :
    c' = c ∨
      (n % 10 = 0 ∧ n % 100 ≠ 0 ∧ ((y.length = 2 ∧ c' = '0' :: c) ∨
        (y.length = 1 ∧ c = '0' :: c'))) := by
  rcases h with rfl | ⟨rfl, hten, hwhole⟩
  · rcases h' with rfl | ⟨rfl, hten, hwhole⟩
    · left
      simpa using heq
    · right
      rw [hten] at heq
      exact ⟨hten, hwhole, .inl ⟨rfl, by simpa [digitChar_zero] using heq⟩⟩
  · rcases h' with rfl | ⟨rfl, -, -⟩
    · right
      rw [hten] at heq
      exact ⟨hten, hwhole, .inr ⟨rfl, by simpa [digitChar_zero] using heq.symm⟩⟩
    · left
      simpa using heq

/-- The end of the signed text, on either rail. -/
theorem Rail.tail_toList (order : Rail) (amt ec : String) :
    (order.tail amt ec).toList =
      match order with
      | .card => amt.toList ++ ec.toList
      | .naps => ec.toList ++ amt.toList := by
  cases order <;> simp

/-- **The readings of integers.**  A text of zeros and an integer spelling is
read as what was signed, or the spelling is `"0"`. -/
theorem integer_reading {m k : Nat} {amt ec : String} {order : Rail}
    (ha : amt.toList = digits m) (hk : 0 < k) (hec : ec.toList = List.replicate k '0')
    (h : order.tail amt ec = rail.tail amt code)
    (hcard : order = .naps → amt ++ ec ≠ rail.tail amt code) :
    code = ec ∧ (order = rail ∨ (rail = .naps ∧ order = .card ∧ amt = "0")) := by
  have htext := congrArg String.toList h
  rw [Rail.tail_toList, Rail.tail_toList] at htext
  have hne : amt.toList ≠ [] := by rw [ha]; exact Nat.toDigits_ne_nil
  cases order with
  | card =>
      cases rail with
      | card =>
          have hcode := List.append_cancel_left htext
          exact ⟨String.toList_inj.mp hcode.symm, .inl rfl⟩
      | naps =>
          simp only [hec] at htext
          obtain ⟨hcode, hhead⟩ := zeros_after hk htext
          have hm : m = 0 := head_digits m (ha ▸ hhead hne)
          refine ⟨String.toList_inj.mp (hcode.trans hec.symm), .inr ⟨rfl, rfl, ?_⟩⟩
          rw [← String.toList_inj, ha, hm]
          rfl
  | naps =>
      cases rail with
      | card =>
          simp only [hec] at htext
          obtain ⟨hcode, -⟩ := zeros_before hk htext
          have hsame : code = ec := String.toList_inj.mp (hcode.trans hec.symm)
          exact absurd (by rw [hsame, Rail.tail_card]) (hcard rfl)
      | naps =>
          have hcode := List.append_cancel_right htext
          exact ⟨String.toList_inj.mp hcode.symm, .inl rfl⟩

/-- **The readings of decimals.**  A text of zeros and a spelling with
decimals is read in the signed order, as the signed code or as one that
differs by a zero moved between the decimals and the code. -/
theorem decimal_reading {n k : Nat} {amt ec : String} {order : Rail}
    {y y' : List Char} (hy : Decimals n y) (hy' : Decimals n y')
    (hs : spelling.toList = digits (n / 100) ++ '.' :: y)
    (ha : amt.toList = digits (n / 100) ++ '.' :: y')
    (hk : 2 ≤ k) (hec : ec.toList = List.replicate k '0')
    (h : order.tail amt ec = rail.tail spelling code) :
    order = rail ∧ (code = ec ∨
      (rail = .card ∧ n % 10 = 0 ∧ n % 100 ≠ 0 ∧
        ((y.length = 2 ∧ ec.toList = '0' :: code.toList) ∨
          (y.length = 1 ∧ code.toList = '0' :: ec.toList)))) := by
  have htext := congrArg String.toList h
  rw [Rail.tail_toList, Rail.tail_toList] at htext
  have hx := Decimal.point_not_mem (n / 100)
  have hzeros : '.' ∉ ec.toList := by simp [hec]
  -- the text read has one point, so the signed code has none
  have hcode : '.' ∉ code.toList := by
    have hcount := congrArg (List.count '.') htext
    have hzero {l : List Char} (hl : '.' ∉ l) : l.count '.' = 0 := List.count_eq_zero.mpr hl
    have hleft : (digits (n / 100)).count '.' = 0 := hzero hx
    rw [← List.count_eq_zero]
    cases order <;> cases rail <;>
      simp only [hs, ha, List.count_append, List.count_cons_self, hleft, hzero hzeros,
        hzero hy.point_not_mem, hzero hy'.point_not_mem] at hcount <;> omega
  have hlen := hy.length
  have hlen' := hy'.length
  have heclen : ec.toList.length = k := by rw [hec, List.length_replicate]
  cases order with
  | card =>
      cases rail with
      | card =>
          simp only [hs, ha, List.append_assoc, List.cons_append] at htext
          obtain ⟨-, htail⟩ := split_point hx hx htext
          rcases hy.append hy' htail with hsame | ⟨hten, hwhole, hmoved⟩
          · exact ⟨rfl, .inl (String.toList_inj.mp hsame.symm)⟩
          · exact ⟨rfl, .inr ⟨rfl, hten, hwhole, hmoved⟩⟩
      | naps =>
          simp only [hs, ha, List.append_assoc, List.cons_append] at htext
          rw [← List.append_assoc] at htext
          obtain ⟨-, htail⟩ := split_point hx
            (by simp only [List.mem_append, not_or]; exact ⟨hcode, hx⟩) htext
          have hsum := congrArg List.length htail
          rw [List.length_append] at hsum
          omega
  | naps =>
      cases rail with
      | card =>
          simp only [hs, ha, List.append_assoc, List.cons_append] at htext
          rw [← List.append_assoc] at htext
          obtain ⟨htail, -⟩ := split_point
            (by simp only [List.mem_append, not_or]; exact ⟨hzeros, hx⟩) hx htext
          have hsum := congrArg List.length htail
          rw [List.length_append] at hsum
          omega
      | naps =>
          simp only [hs, ha] at htext
          rw [← List.append_assoc, ← List.append_assoc] at htext
          obtain ⟨htail, -⟩ := split_point
            (by simp only [List.mem_append, not_or]; exact ⟨hzeros, hx⟩)
            (by simp only [List.mem_append, not_or]; exact ⟨hcode, hx⟩) htext
          have hsame := List.append_cancel_right htail
          exact ⟨rfl, .inl (String.toList_inj.mp hsame.symm)⟩

/-! ## Which signed codes are kept -/

/-- What is expected of the search: a success code is found only when the
gateway signed a success code of that rail. -/
def Kept (found : Option (String × Rail)) (rail : Rail) (code : String) : Prop :=
  ∀ ec order, found = some (ec, order) → successCode ec → successCode code ∧ order = rail

/-- The received code is no success and gives the signed text itself, so that
the search ends with it. -/
def ReadsReceived (amount : Cents) (received : String) (rail : Rail)
    (spelling code : String) : Prop :=
  ¬ successCode received ∧ ∃ amt ∈ amountForms amount,
    amt ++ received = rail.tail spelling code ∨ received ++ amt = rail.tail spelling code

instance (amount : Cents) (received : String) (rail : Rail) (spelling code : String) :
    Decidable (ReadsReceived amount received rail spelling code) :=
  inferInstanceAs (Decidable (_ ∧ _))

/-- The signed codes whose text is no other success. -/
structure Unambiguous (amount : Cents) (rail : Rail) (spelling code : String) : Prop where
  /-- A code with a point does not turn an integer spelling into the decimals
  of the amount, next to a success. -/
  pointed : '.' ∈ code.toList → '.' ∉ spelling.toList →
    ∀ amt ∈ amountForms amount, '.' ∈ amt.toList → ∀ zeros, successCode zeros →
      amt ++ zeros ≠ rail.tail spelling code ∧ zeros ++ amt ≠ rail.tail spelling code
  /-- A trailing zero of the amount is not taken from, or given to, a code of
  zeros. -/
  trailing : rail = .card → amount % 10 = 0 → amount % 100 ≠ 0 →
    ¬ (spelling = amount.toFixed2 ∧ code = "0") ∧ ¬ (spelling = amount.toText ∧ code = "0000")
  /-- A `NAPS` success is not signed with a spelling that is itself a zero. -/
  zero : rail = .naps → spelling = "0" → ¬ successCode code

/-- The codes of a success are zeros. -/
theorem successCode_toList {ec : String} (h : successCode ec) :
    ∃ k, (k = 2 ∨ k = 3) ∧ ec.toList = List.replicate k '0' := by
  rcases h with rfl | rfl
  · exact ⟨2, .inl rfl, rfl⟩
  · exact ⟨3, .inr rfl, rfl⟩

theorem eq_of_toList {s t : String} (h : s.toList = t.toList) : s = t :=
  String.toList_inj.mp h

/-- A point at the end comes from the amount or from the code. -/
theorem point_tail (order : Rail) (amt ec : String) :
    '.' ∈ (order.tail amt ec).toList ↔ '.' ∈ amt.toList ∨ '.' ∈ ec.toList := by
  rw [Rail.tail_toList]
  cases order with
  | card => exact List.mem_append
  | naps => exact List.mem_append.trans Or.comm

/-- The point of a text is that of both spellings. -/
theorem point_read {amt ec : String} {order : Rail}
    (hpoint : '.' ∈ code.toList → '.' ∈ spelling.toList) (hec : '.' ∉ ec.toList)
    (h : order.tail amt ec = rail.tail spelling code) :
    '.' ∈ amt.toList ↔ '.' ∈ spelling.toList := by
  have hread := point_tail order amt ec
  have hsigned := point_tail rail spelling code
  rw [h, hsigned] at hread
  constructor
  · intro hamt
    rcases hread.mpr (.inl hamt) with hs | hc
    · exact hs
    · exact hpoint hc
  · intro hs
    exact (hread.mp (.inl hs)).resolve_right hec

/-- **The readings of a success**: the signed code, or one of the two ways a
zero changes sides. -/
theorem reading {n : Nat} {amt ec : String} {order : Rail}
    (hs : spelling ∈ amountForms (n : Int)) (ha : amt ∈ amountForms (n : Int))
    (hpoint : '.' ∈ code.toList → '.' ∈ spelling.toList) (hec : successCode ec)
    (h : order.tail amt ec = rail.tail spelling code)
    (hcard : order = .naps → amt ++ ec ≠ rail.tail spelling code) :
    (code = ec ∧ order = rail) ∨
      (code = ec ∧ rail = .naps ∧ spelling = "0") ∨
      (order = .card ∧ rail = .card ∧ n % 10 = 0 ∧ n % 100 ≠ 0 ∧
        ((spelling = Cents.toFixed2 n ∧ ec.toList = '0' :: code.toList) ∨
          (spelling = Cents.toText n ∧ code.toList = '0' :: ec.toList))) := by
  obtain ⟨k, hk, hzeros⟩ := successCode_toList hec
  have hkpos : 2 ≤ k := by omega
  have hdot : '.' ∈ amt.toList ↔ '.' ∈ spelling.toList :=
    point_read hpoint (by simp [hzeros]) h
  have hplain : ∀ m, '.' ∉ digits m := Decimal.point_not_mem
  rcases spelled hs with ⟨y, hy, hsl⟩ | hsl
  · rcases spelled ha with ⟨y', hy', hal⟩ | hal
    · obtain ⟨horder, hread⟩ := decimal_reading hy hy' hsl hal hkpos hzeros h
      rcases hread with hcode | ⟨hrail, hten, hwhole, hmoved⟩
      · exact .inl ⟨hcode, horder⟩
      · refine .inr (.inr ⟨horder.trans hrail, hrail, hten, hwhole, ?_⟩)
        rcases hmoved with ⟨hlen, hmoved⟩ | ⟨hlen, hmoved⟩
        · refine .inl ⟨eq_of_toList ?_, hmoved⟩
          rcases hy with rfl | ⟨rfl, -, -⟩
          · rw [hsl, toFixed2_toList]
          · simp at hlen
        · refine .inr ⟨eq_of_toList ?_, hmoved⟩
          rcases hy with rfl | ⟨rfl, -, -⟩
          · simp at hlen
          · rw [hsl, toText_toList, if_neg hwhole, if_pos hten]
    · have hin : '.' ∈ spelling.toList := by simp [hsl]
      rw [← hdot, hal] at hin
      exact absurd hin (hplain _)
  · rcases spelled ha with ⟨y', hy', hal⟩ | hal
    · have hin : '.' ∈ amt.toList := by simp [hal]
      rw [hdot, hsl] at hin
      exact absurd hin (hplain _)
    · obtain rfl : spelling = amt := eq_of_toList (hsl.trans hal.symm)
      obtain ⟨hcode, horder | ⟨hrail, -, hzero⟩⟩ :=
        integer_reading hal (by omega) hzeros h hcard
      · exact .inl ⟨hcode, horder⟩
      · exact .inr (.inl ⟨hcode, hrail, hzero⟩)

/-- What the search finds, it finds in one of its stages. -/
theorem found_stage {ec : String} {order : Rail}
    (h : ((stage amount rail spelling code received).or
      ((stage amount rail spelling code "00").or
        (stage amount rail spelling code "000"))) = some (ec, order)) :
    stage amount rail spelling code ec = some (ec, order) := by
  have hsame : ∀ {ec'}, stage amount rail spelling code ec' = some (ec, order) →
      stage amount rail spelling code ec = some (ec, order) := by
    intro ec' hs
    obtain ⟨rfl, -⟩ := stage_eq_some hs
    exact hs
  rcases Option.or_eq_some_iff.mp h with hr | ⟨-, h⟩
  · exact hsame hr
  · rcases Option.or_eq_some_iff.mp h with h₀ | ⟨-, h₀⟩
    · exact hsame h₀
    · exact hsame h₀

/-- The code and the spelling the gateway used are found for that code. -/
theorem stage_signed (rail : Rail) (code : String) (hs : spelling ∈ amountForms amount) :
    ∃ order, stage amount rail spelling code code = some (code, order) :=
  stage_isSome hs rail rfl

/-- **An unambiguous code is not promoted.** -/
theorem kept_of_unambiguous {n : Nat} (hs : spelling ∈ amountForms (n : Int))
    (hd : Digests env basketId (n : Int) received
      (signedText env basketId rail spelling code))
    (hu : Unambiguous (n : Int) rail spelling code) :
    Kept (resolveSignedErrCode env basketId (n : Int) received
      (responseKeyOf env basketId rail spelling code)) rail code := by
  intro ec order hfound hec
  rw [resolve_eq hd] at hfound
  obtain ⟨-, amt, ha, htail, hcard⟩ := stage_eq_some (found_stage hfound)
  have hpoint : '.' ∈ code.toList → '.' ∈ spelling.toList := by
    intro hcode
    by_contra hspelling
    -- the point of the text is then that of the spelling it is read with
    have hin := (point_tail order amt ec).mp (by rw [htail, point_tail]; exact .inr hcode)
    obtain ⟨k, -, hzeros⟩ := successCode_toList hec
    have hamt := hin.resolve_right (by simp [hzeros])
    have hnone := hu.pointed hcode hspelling amt ha hamt ec hec
    cases order with
    | card => exact hnone.1 htail
    | naps => exact hnone.2 htail
  rcases reading hs ha hpoint hec htail hcard with
    ⟨rfl, horder⟩ | ⟨rfl, hrail, hzero⟩ | ⟨horder, hrail, hten, hwhole, hmoved⟩
  · exact ⟨hec, horder⟩
  · exact absurd hec (hu.zero hrail hzero)
  · have htrailing := hu.trailing hrail (by exact_mod_cast hten) (by exact_mod_cast hwhole)
    refine ⟨?_, horder.trans hrail.symm⟩
    rcases hmoved with ⟨hfixed, hmoved⟩ | ⟨htext, hmoved⟩
    · rcases hec with rfl | rfl
      · exact absurd ⟨hfixed, eq_of_toList (by simpa using hmoved.symm)⟩ htrailing.1
      · exact .inl (eq_of_toList (by simpa using hmoved.symm))
    · rcases hec with rfl | rfl
      · exact .inr (eq_of_toList (by simpa using hmoved))
      · exact absurd ⟨htext, eq_of_toList (by simpa using hmoved)⟩ htrailing.2

/-- A received code that reads as the signed text, and is no success, ends the
search. -/
theorem kept_of_received
    (hd : Digests env basketId amount received (signedText env basketId rail spelling code))
    (hr : ReadsReceived amount received rail spelling code) :
    Kept (resolveSignedErrCode env basketId amount received
      (responseKeyOf env basketId rail spelling code)) rail code := by
  intro ec order hfound hec
  obtain ⟨hno, amt, ha, htext⟩ := hr
  have hstage : ∃ order', stage amount rail spelling code received = some (received, order') :=
    htext.elim (stage_isSome ha .card) (stage_isSome ha .naps)
  obtain ⟨order', hstage⟩ := hstage
  rw [resolve_eq hd, hstage, Option.some_or] at hfound
  obtain ⟨rfl, -⟩ := Prod.mk.inj (Option.some.inj hfound)
  exact absurd hec hno

/-- A success code that reads as the signed text is found, unless the received
code reads as it and is none. -/
theorem success_found {ec : String} {order : Rail} (hec : successCode ec)
    (hstage : stage amount rail spelling code ec = some (ec, order))
    (hreceived : ∀ o, stage amount rail spelling code received = some (received, o) →
      successCode received) :
    ∃ ec' order', ((stage amount rail spelling code received).or
      ((stage amount rail spelling code "00").or
        (stage amount rail spelling code "000"))) = some (ec', order') ∧ successCode ec' := by
  cases hr : stage amount rail spelling code received with
  | some r =>
      obtain ⟨ec', o⟩ := r
      obtain ⟨rfl, -⟩ := stage_eq_some hr
      exact ⟨ec', o, rfl, hreceived o hr⟩
  | none =>
      cases h₀ : stage amount rail spelling code "00" with
      | some r =>
          obtain ⟨ec', o⟩ := r
          obtain ⟨rfl, -⟩ := stage_eq_some h₀
          exact ⟨"00", o, rfl, .inl rfl⟩
      | none =>
          rcases hec with rfl | rfl
          · rw [h₀] at hstage
            cases hstage
          · exact ⟨"000", order, by rw [hstage]; rfl, .inr rfl⟩

/-- The readings of a `NAPS` success over the amount `"0"`: the signed code, as
a card's. -/
theorem zero_reading {n : Nat} {ec : String} {order : Rail}
    (hs : "0" ∈ amountForms (n : Int)) (hec : '.' ∉ ec.toList) (hcode : successCode code)
    (h : stage (n : Int) .naps "0" code ec = some (ec, order)) :
    ec = code ∧ order = .card := by
  obtain ⟨-, amt, ha, htail, hcard⟩ := stage_eq_some h
  obtain ⟨k, -, hzeros⟩ := successCode_toList hcode
  have hnot : '.' ∉ code.toList := by simp [hzeros]
  have hout : '.' ∉ amt.toList := fun hin =>
    absurd ((point_read (fun hc => absurd hc hnot) hec htail).mp hin) (by decide)
  obtain rfl : amt = "0" := by
    rcases spelled ha with ⟨y, -, hal⟩ | hal
    · exact absurd (by simp [hal]) hout
    · rcases spelled hs with ⟨y, -, hsl⟩ | hsl
      · have : '.' ∈ "0".toList := by simp [hsl]
        exact absurd this (by decide)
      · exact eq_of_toList (hal.trans hsl.symm)
  have hcomm : code ++ "0" = "0" ++ code := by
    apply eq_of_toList
    simp only [String.toList_append, hzeros]
    change List.replicate k '0' ++ ['0'] = '0' :: List.replicate k '0'
    rw [← List.replicate_succ', List.replicate_succ]
  cases order with
  | card =>
      rw [Rail.tail_card, Rail.tail_naps, hcomm] at htail
      have hsame := congrArg String.toList htail
      simp only [String.toList_append] at hsame
      exact ⟨eq_of_toList (List.append_cancel_left hsame), rfl⟩
  | naps =>
      rw [Rail.tail_naps, Rail.tail_naps] at htail
      have hsame := congrArg String.toList htail
      simp only [String.toList_append] at hsame
      have hec' : ec = code := eq_of_toList (List.append_cancel_right hsame)
      exact absurd (by rw [hec', Rail.tail_naps, hcomm]) (hcard rfl)

/-- `toFixed(2)` is tried. -/
theorem spelling_toFixed2 {n : Nat} : Cents.toFixed2 (n : Int) ∈ amountForms (n : Int) := by
  simp [amountForms]

/-- So is `toString()`. -/
theorem spelling_toText {n : Nat} : Cents.toText (n : Int) ∈ amountForms (n : Int) := by
  simp [amountForms]

/-- A text that reads as a success is found to be one, when the received code
does not end the search before. -/
theorem success_resolved {ec : String} {order : Rail}
    (hd : Digests env basketId amount received (signedText env basketId rail spelling code))
    (hr : ¬ ReadsReceived amount received rail spelling code) (hec : successCode ec)
    (hstage : stage amount rail spelling code ec = some (ec, order)) :
    ∃ ec' order', resolveSignedErrCode env basketId amount received
      (responseKeyOf env basketId rail spelling code) = some (ec', order') ∧ successCode ec' := by
  rw [resolve_eq hd]
  refine success_found hec hstage fun o ho => ?_
  by_contra hno
  obtain ⟨-, amt, ha, htext, -⟩ := stage_eq_some ho
  refine hr ⟨hno, amt, ha, ?_⟩
  cases o with
  | card => exact .inl htext
  | naps => exact .inr htext

/-- A card code of one or four zeros, next to an amount with a trailing zero,
gives the text of a success. -/
theorem trailing_stage {n : Nat} (hten : n % 10 = 0) (hwhole : n % 100 ≠ 0)
    (hmoved : (spelling = Cents.toFixed2 n ∧ code = "0") ∨
      (spelling = Cents.toText n ∧ code = "0000")) :
    ∃ ec order, successCode ec ∧ stage (n : Int) .card spelling code ec = some (ec, order) := by
  have hfixed := toFixed2_toList n
  have htext := toText_toList n
  rw [if_neg hwhole, if_pos hten] at htext
  rw [hten, digitChar_zero] at hfixed
  rcases hmoved with ⟨rfl, rfl⟩ | ⟨rfl, rfl⟩
  · have hsame : Rail.card.tail (Cents.toText n) "00" =
        Rail.card.tail (Cents.toFixed2 n) "0" := by
      apply eq_of_toList
      simp [hfixed, htext]
    obtain ⟨order, h⟩ := stage_isSome spelling_toText .card hsame
    exact ⟨"00", order, .inl rfl, h⟩
  · have hsame : Rail.card.tail (Cents.toFixed2 n) "000" =
        Rail.card.tail (Cents.toText n) "0000" := by
      apply eq_of_toList
      simp [hfixed, htext]
    obtain ⟨order, h⟩ := stage_isSome spelling_toFixed2 .card hsame
    exact ⟨"000", order, .inr rfl, h⟩

/-- A kept code is unambiguous, unless the received code ends the search. -/
theorem unambiguous_of_kept {n : Nat} (hs : spelling ∈ amountForms (n : Int))
    (hd : Digests env basketId (n : Int) received
      (signedText env basketId rail spelling code))
    (hr : ¬ ReadsReceived (n : Int) received rail spelling code)
    (hkept : Kept (resolveSignedErrCode env basketId (n : Int) received
      (responseKeyOf env basketId rail spelling code)) rail code) :
    Unambiguous (n : Int) rail spelling code := by
  -- a text that reads as a success was signed as a success
  have hsuccess : ∀ ec order, successCode ec →
      stage (n : Int) rail spelling code ec = some (ec, order) → successCode code := by
    intro ec order hec hstage
    obtain ⟨ec', order', hfound, hec'⟩ := success_resolved hd hr hec hstage
    exact (hkept ec' order' hfound hec').1
  refine ⟨fun hcode _ amt ha _ zeros hzeros => ?_, fun hrail hten hwhole => ?_, ?_⟩
  · have hnot : ¬ successCode code := by
      intro hsigned
      obtain ⟨k, -, hlist⟩ := successCode_toList hsigned
      simp [hlist] at hcode
    constructor
    · intro htext
      obtain ⟨order, hstage⟩ := stage_isSome ha .card htext
      exact hnot (hsuccess zeros order hzeros hstage)
    · intro htext
      obtain ⟨order, hstage⟩ := stage_isSome ha .naps htext
      exact hnot (hsuccess zeros order hzeros hstage)
  · subst hrail
    have hmoved : ¬ ((spelling = Cents.toFixed2 n ∧ code = "0") ∨
        (spelling = Cents.toText n ∧ code = "0000")) := by
      intro hmoved
      obtain ⟨ec, order, hec, hstage⟩ := trailing_stage (by exact_mod_cast hten)
        (by exact_mod_cast hwhole) hmoved
      have hcode := hsuccess ec order hec hstage
      rcases hmoved with ⟨-, rfl⟩ | ⟨-, rfl⟩
      · exact absurd hcode (by decide)
      · exact absurd hcode (by decide)
    exact not_or.mp hmoved
  · intro hrail hspelling hcode
    subst hrail hspelling
    obtain ⟨order, hstage⟩ := stage_signed .naps code hs
    obtain ⟨ec, order', hfound, hec⟩ := success_resolved hd hr hcode hstage
    have horder := (hkept ec order' hfound hec).2
    rw [resolve_eq hd] at hfound
    obtain ⟨k, -, hzeros⟩ := successCode_toList hec
    have hcard := (zero_reading hs (by simp [hzeros]) hcode (found_stage hfound)).2
    rw [hcard] at horder
    cases horder

/-- **When a callback is not promoted**: exactly when the signed code is
unambiguous, or the received code gives the signed text itself. -/
theorem success_signed {env : Env} {basketId received spelling code : String}
    {amount : Cents} {rail : Rail} (hpos : 0 < amount) (hs : spelling ∈ amountForms amount)
    (hd : Digests env basketId amount received
      (signedText env basketId rail spelling code)) :
    Kept (resolveSignedErrCode env basketId amount received
        (responseKeyOf env basketId rail spelling code)) rail code ↔
      ReadsReceived amount received rail spelling code ∨
        Unambiguous amount rail spelling code := by
  obtain ⟨n, rfl⟩ := Int.eq_ofNat_of_zero_le (Int.le_of_lt hpos)
  constructor
  · intro hkept
    by_cases hr : ReadsReceived (n : Int) received rail spelling code
    · exact .inl hr
    · exact .inr (unambiguous_of_kept hs hd hr hkept)
  · rintro (hr | hu)
    · exact kept_of_received hd hr
    · exact kept_of_unambiguous hs hd hu

/-- A digest that only tells one text from the others. -/
def markedDigest (signed text : String) : String :=
  String.ofList (List.replicate 64 (if text = signed then 'a' else 'b'))

/-- The digest of one text alone is such a digest. -/
theorem markedDigest_digests {env : Env} {basketId received signed : String} {amount : Cents}
    (h : env.sha256 = markedDigest signed) :
    Digests env basketId amount received signed where
  lower := by
    rw [h, markedDigest, if_pos rfl, String.toLower]
    apply eq_of_toList
    rw [String.toList_map, String.toList_ofList, List.map_replicate]
    rfl
  hex := by
    rw [h, markedDigest, if_pos rfl]
    refine ⟨rfl, ?_⟩
    rw [String.all_bool_eq]
    decide
  injective := by
    intro x _ hx
    rw [h, markedDigest, markedDigest, if_pos rfl] at hx
    by_contra hne
    rw [if_neg hne] at hx
    have := congrArg String.toList hx
    simp at this

/-- The environment of a gateway that signs one text. -/
def signingEnv (basketId : String) (rail : Rail) (amt ec : String) : Env where
  sha256 := markedDigest (basketId ++ "secret" ++ rail.tail amt ec)
  secretWord := "secret"
  zoneOffset := fun _ _ => some 0

/-- A failure signed over `100.50` with the code `0` is processed as a success. -/
theorem success_unsigned :
    ∃ (env : Env) (basketId received spelling code : String) (amount : Cents) (rail : Rail),
      0 < amount ∧ spelling ∈ amountForms amount ∧
      Digests env basketId amount received (signedText env basketId rail spelling code) ∧
      ¬ Kept (resolveSignedErrCode env basketId amount received
        (responseKeyOf env basketId rail spelling code)) rail code := by
  refine ⟨signingEnv "JWD-7" .card "100.50" "0", "JWD-7", "1", "100.50", "0", 10050, .card,
    by decide, by decide, markedDigest_digests rfl, fun hkept => ?_⟩
  have hu := unambiguous_of_kept (n := 10050) (by decide) (markedDigest_digests rfl)
    (by decide +kernel) hkept
  exact (hu.trailing rfl (by decide) (by decide)).1 ⟨by decide, rfl⟩

/-- A success over `100.50` is read as it was signed, and so is a failure with a
point beside an integer spelling. -/
theorem success_signed_fixed2 :
    Kept (resolveSignedErrCode (signingEnv "JWD-7" .card "100.50" "00") "JWD-7" 10050 "00"
      (responseKeyOf (signingEnv "JWD-7" .card "100.50" "00") "JWD-7" .card "100.50" "00"))
      .card "00" ∧
    Kept (resolveSignedErrCode (signingEnv "JWD-7" .card "100" "1.5") "JWD-7" 10000 "2"
      (responseKeyOf (signingEnv "JWD-7" .card "100" "1.5") "JWD-7" .card "100" "1.5"))
      .card "1.5" := by
  constructor
  · refine (success_signed (by decide) (by decide) (markedDigest_digests rfl)).mpr
      (.inr ⟨fun hcode => absurd hcode (by decide), fun _ _ _ => ⟨by decide, by decide⟩,
        by decide⟩)
  · refine (success_signed (by decide) (by decide) (markedDigest_digests rfl)).mpr
      (.inr ⟨fun _ _ amt ha _ zeros hzeros => ?_, by decide, by decide⟩)
    have hforms : amt ∈ ["100.00", "100", "100"] := ha
    rcases hzeros with rfl | rfl <;> revert amt <;> decide

end Jadwal
