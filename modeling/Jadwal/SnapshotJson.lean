import Jadwal.IsoDate
import Jadwal.Effects

/-!
# The snapshot column

The frozen copy of a booking is stored in a JSON column of its payment.
`BookingSnapshot.toJson` writes it as `buildBookingSnapshot` does: dates as
ISO texts, Decimals as texts, points as a number, missing values as `null`.
`BookingSnapshot.ofJson` reads it field by field as orphan recovery does.
A snapshot comes back as it was written (`ofJson_toJson`), so a recovered
booking is the one that was lost (`recovered_is_original`).
-/

namespace Jadwal

open Decimal Outcome

/-! ## JSON values -/

/-- A JSON value, as `JSON.parse` gives it. -/
inductive Json
  | null
  | bool (b : Bool)
  | num (q : ℚ)
  | str (s : String)
  | arr (items : List Json)
  | obj (fields : List (String × Json))

namespace Json

/-- `value.key`; a missing key reads like `null`. -/
def field (key : String) : Json → Json
  | .obj fields => (fields.lookup key).getD .null
  | _ => .null

def str? : Json → Option String
  | .str s => some s
  | _ => none

def bool? : Json → Option Bool
  | .bool b => some b
  | _ => none

def num? : Json → Option ℚ
  | .num q => some q
  | _ => none

/-- A number in an `Int` column that holds no negative values. -/
def nat? : Json → Option Nat
  | .num q => if 0 ≤ q ∧ q.den = 1 then some q.num.toNat else none
  | _ => none

/-- A number in a `Decimal(_, 2)` column. -/
def cents? : Json → Option Cents
  | .num q => some (toCents q)
  | _ => none

def arr? : Json → Option (List Json)
  | .arr items => some items
  | _ => none

def obj? : Json → Option (List (String × Json))
  | .obj fields => some fields
  | _ => none

/-- A nullable column: `value ?? undefined`. -/
def opt {α : Type} (read : Json → Option α) : Json → Option (Option α)
  | .null => some none
  | j => (read j).map some

/-- A nullable value: `value ?? null`. -/
def ofOption {α : Type} (write : α → Json) : Option α → Json
  | none => .null
  | some a => write a

@[simp] theorem nat?_num (n : Nat) : (Json.num n).nat? = some n := by
  simp [nat?]

@[simp] theorem str?_str (s : String) : (Json.str s).str? = some s := rfl

theorem cents?_num (c : Cents) : (Json.num c.toNum).cents? = some c := by
  exact congrArg some (toCents_toNum c)

/-- A nullable value is read back, when its reader undoes its writer. -/
theorem opt_ofOption {α : Type} {read : Json → Option α} {write : α → Json}
    (h : ∀ a, read (write a) = some a) (hn : ∀ a, write a ≠ .null) (o : Option α) :
    opt read (ofOption write o) = some o := by
  cases o with
  | none => rfl
  | some a =>
      have ha := h a
      have hna := hn a
      simp only [ofOption]
      cases hj : write a with
      | null => exact absurd hj hna
      | _ => simp_all [opt]

end Json

/-! ## Decimals as text -/

/-- The hundredths of a fraction, half away from zero. -/
def fractionCents (frac : List Char) : Nat :=
  value ((frac ++ ['0', '0']).take 2) + (if '5' ≤ (frac.drop 2).headD '0' then 1 else 0)

def readUnsigned (l : List Char) : Option Cents := do
  let (whole, rest) ← readDigits l
  match rest with
  | [] => return (whole * 100 : Nat)
  | '.' :: frac =>
      if frac ≠ [] ∧ frac.all Char.isDigit then return (whole * 100 + fractionCents frac : Nat)
      else none
  | _ => none

/-- A text in a `Decimal(_, 2)` column. -/
def readDecimal (text : String) : Option Cents :=
  if text.toList.head? = some '-' then (readUnsigned text.toList.tail).map (fun c => -c)
  else readUnsigned text.toList

/-- The digits after the decimal point of a printed amount. -/
def fractionText (n : Nat) : List Char :=
  if n % 100 = 0 then []
  else if n % 10 = 0 then ['.', Nat.digitChar (n / 10 % 10)]
  else ['.', Nat.digitChar (n / 10 % 10), Nat.digitChar (n % 10)]

/-- An amount as it is printed: a sign, the whole part and the fraction. -/
theorem toText_eq (c : Cents) : c.toText.toList =
    (if c < 0 then ['-'] else []) ++ (digits (c.natAbs / 100) ++ fractionText c.natAbs) := by
  have hdigits : ∀ k : Nat, (toString k).toList = digits k := fun k => by
    simp [Nat.toString_eq_repr, Nat.toList_repr]
  have hone : ∀ k < 10, digits k = [Nat.digitChar k] := fun k hk =>
    Nat.toDigits_of_lt_base hk
  have htwo : ∀ k, 10 ≤ k → k < 100 →
      digits k = [Nat.digitChar (k / 10), Nat.digitChar (k % 10)] := by
    intro k hle hlt
    rw [digits, Nat.toDigits_of_base_le (by decide) hle, Nat.toDigits_of_lt_base (by lia)]
    rfl
  have htens : c.natAbs % 100 / 10 = c.natAbs / 10 % 10 := by omega
  have hunits : c.natAbs % 100 % 10 = c.natAbs % 10 := by omega
  have hsign : ∀ s : String, (if c < 0 then "-" ++ s else s).toList =
      (if c < 0 then ['-'] else []) ++ s.toList := by
    intro s
    split <;> simp
  simp only [Cents.toText, hunits, fractionText]
  rw [hsign]
  refine congrArg _ ?_
  by_cases hwhole : c.natAbs % 100 = 0
  · rw [if_pos hwhole, if_pos hwhole, hdigits, List.append_nil]
  · rw [if_neg hwhole, if_neg hwhole]
    by_cases hten : c.natAbs % 10 = 0
    · rw [if_pos hten, if_pos hten, htens, String.toList_append, String.toList_append, hdigits,
        hdigits, hone (c.natAbs / 10 % 10) (by omega)]
      simp
    · rw [if_neg hten, if_neg hten]
      by_cases hlt : c.natAbs % 100 < 10
      · have h0 : c.natAbs / 10 % 10 = 0 := by omega
        have h1 : c.natAbs % 100 = c.natAbs % 10 := by omega
        rw [if_pos hlt, h0, String.toList_append, String.toList_append, hdigits, hdigits,
          hone _ hlt, h1]
        simp
      · rw [if_neg hlt, String.toList_append, String.toList_append, hdigits, hdigits,
          htwo (c.natAbs % 100) (by omega) (by omega), htens, hunits]
        simp

/-- Two fraction digits are the hundredths. -/
theorem fractionCents_digits {i j : Nat} (hi : i < 10) (hj : j < 10) :
    fractionCents [Nat.digitChar i, Nat.digitChar j] = 10 * i + j := by
  have hvalue : value [Nat.digitChar i, Nat.digitChar j] = 10 * i + j := by
    rw [value, Nat.ofDigitChars_cons_digitChar_of_lt_ten hi,
      Nat.ofDigitChars_cons_digitChar_of_lt_ten hj, Nat.ofDigitChars_nil]
    lia
  rw [fractionCents]
  simpa using hvalue

theorem fractionCents_digit {i : Nat} (hi : i < 10) :
    fractionCents [Nat.digitChar i] = 10 * i := by
  have hvalue : value [Nat.digitChar i, '0'] = 10 * i := by
    rw [value, Nat.ofDigitChars_cons_digitChar_of_lt_ten hi]
    simp [Nat.ofDigitChars_cons]
  rw [fractionCents]
  simpa using hvalue

/-- An amount without a sign is read back. -/
theorem readUnsigned_text (n : Nat) :
    readUnsigned (digits (n / 100) ++ fractionText n) = some (n : Int) := by
  have hstop : ∀ c ∈ (fractionText n).head?, c.isDigit = false := by
    intro c hc
    unfold fractionText at hc
    split at hc
    · cases hc
    · split at hc <;>
      · obtain rfl := Option.some.inj hc
        decide
  have hread : readDigits (digits (n / 100) ++ fractionText n) =
      some (n / 100, fractionText n) := by
    rw [readDigits_append Nat.toDigits_ne_nil (fun _ => isDigit_of_mem) hstop, value_digits]
  have hdigit : ∀ k, k < 10 → (Nat.digitChar k).isDigit = true := fun k hk => by
    rw [Nat.isDigit_digitChar]
    exact decide_eq_true hk
  have hi := hdigit (n / 10 % 10) (by lia)
  have hj := hdigit (n % 10) (by lia)
  simp only [readUnsigned, hread, Option.bind_eq_bind, Option.bind_some]
  unfold fractionText
  by_cases hwhole : n % 100 = 0
  · rw [if_pos hwhole]
    refine congrArg some ?_
    lia
  · rw [if_neg hwhole]
    by_cases hten : n % 10 = 0
    · rw [if_pos hten]
      simp only [List.all_cons, hi, List.all_nil, Bool.and_true, ne_eq, reduceCtorEq,
        not_false_eq_true, and_self, if_true, fractionCents_digit (show n / 10 % 10 < 10 by lia)]
      refine congrArg some ?_
      lia
    · rw [if_neg hten]
      simp only [List.all_cons, hi, hj, List.all_nil, Bool.and_true, ne_eq, reduceCtorEq,
        not_false_eq_true, and_self, if_true, fractionCents_digits
          (show n / 10 % 10 < 10 by lia) (show n % 10 < 10 by lia)]
      refine congrArg some ?_
      lia

/-- **A printed amount is read back.** -/
theorem readDecimal_toText (c : Cents) : readDecimal c.toText = some c := by
  have hdigit : (digits (c.natAbs / 100) ++ fractionText c.natAbs).head? ≠ some '-' := by
    rw [List.head?_append_of_ne_nil _ Nat.toDigits_ne_nil]
    intro hhead
    exact absurd (isDigit_of_mem (List.mem_of_head? hhead)) (by decide)
  rw [readDecimal, toText_eq]
  by_cases hneg : c < 0
  · rw [if_pos hneg, List.singleton_append, List.head?_cons, if_pos rfl, List.tail_cons,
      readUnsigned_text]
    refine congrArg some ?_
    lia
  · rw [if_neg hneg, List.nil_append, if_neg hdigit, readUnsigned_text]
    refine congrArg some ?_
    lia

/-! ## The snapshot -/

/-- A Decimal, as the snapshot stores it. -/
def decJson (c : Cents) : Json := .str c.toText

def decOf (j : Json) : Option Cents := j.str?.bind readDecimal

/-- A date, as the snapshot stores it. -/
def dateJson (t : Instant) : Json := .str (toISOString t)

def dateOf (j : Json) : Option Instant := j.str?.bind parseISO

/-- An identifier is a text. -/
def idJson (id : Id) : Json := .str (Nat.repr id)

def idOf (j : Json) : Option Id :=
  j.str?.bind (fun s => (readDigits s.toList).map Prod.fst)

def SelectedExtra.toJson (e : SelectedExtra) : Json :=
  .obj [("name", .str e.name), ("price", .num e.price), ("qty", .num e.qty),
    ("perPerson", .bool e.perPerson)]

def SelectedExtra.ofJson (j : Json) : Option SelectedExtra := do
  let name ← (j.field "name").str?
  let price ← (j.field "price").num?
  let qty ← (j.field "qty").nat?
  let perPerson ← (j.field "perPerson").bool?
  return ⟨name, price, qty, perPerson⟩

def extrasJson (extras : List SelectedExtra) : Json := .arr (extras.map SelectedExtra.toJson)

def extrasOf (j : Json) : Option (List SelectedExtra) :=
  j.arr?.bind (List.mapM SelectedExtra.ofJson)

def breakdownJson (breakdown : List (String × Nat)) : Json :=
  .obj (breakdown.map (fun p => (p.1, .num p.2)))

def breakdownOf (j : Json) : Option (List (String × Nat)) :=
  j.obj?.bind (List.mapM (fun p => p.2.nat?.map (fun n => (p.1, n))))

/-- `buildBookingSnapshot`, as it is stored. -/
def BookingSnapshot.toJson (s : BookingSnapshot) : Json := .obj [
  ("ref", .str s.ref),
  ("activityId", idJson s.activityId),
  ("vendorId", idJson s.vendorId),
  ("customerId", idJson s.customerId),
  ("unitNumber", Json.ofOption (fun n => .num (n : Nat)) s.unitNumber),
  ("startDatetime", dateJson s.startDatetime),
  ("endDatetime", dateJson s.endDatetime),
  ("guests", .num s.guests),
  ("bookingPhone", .str s.bookingPhone),
  ("guestBreakdown", Json.ofOption breakdownJson s.guestBreakdown),
  ("selectedExtras", Json.ofOption extrasJson s.selectedExtras),
  ("totalPrice", decJson s.totalPrice),
  ("serviceFee", decJson s.serviceFee),
  ("commissionPct", decJson s.commissionPct),
  ("commissionAmount", decJson s.commissionAmount),
  ("couponCode", Json.ofOption .str s.couponCode),
  ("couponDiscount", decJson s.couponDiscount),
  ("pointsRedeemed", .num s.pointsRedeemed.toNum),
  ("pointsDiscount", decJson s.pointsDiscount),
  ("currencyCode", .str s.currencyCode),
  ("idempotencyKey", Json.ofOption .str s.idempotencyKey),
  ("originalCreatedAt", dateJson s.originalCreatedAt),
  ("v", .num s.v)]

/-- The reads of `attemptB2OrphanRecovery`. -/
def BookingSnapshot.ofJson (j : Json) : Option BookingSnapshot := do
  let ref ← (j.field "ref").str?
  let activityId ← idOf (j.field "activityId")
  let vendorId ← idOf (j.field "vendorId")
  let customerId ← idOf (j.field "customerId")
  let unitNumber ← (j.field "unitNumber").opt Json.nat?
  let startDatetime ← dateOf (j.field "startDatetime")
  let endDatetime ← dateOf (j.field "endDatetime")
  let guests ← (j.field "guests").nat?
  let bookingPhone ← (j.field "bookingPhone").str?
  let guestBreakdown ← (j.field "guestBreakdown").opt breakdownOf
  let selectedExtras ← (j.field "selectedExtras").opt extrasOf
  let totalPrice ← decOf (j.field "totalPrice")
  let serviceFee ← decOf (j.field "serviceFee")
  let commissionPct ← decOf (j.field "commissionPct")
  let commissionAmount ← decOf (j.field "commissionAmount")
  let couponCode ← (j.field "couponCode").opt Json.str?
  let couponDiscount ← decOf (j.field "couponDiscount")
  let pointsRedeemed ← (j.field "pointsRedeemed").cents?
  let pointsDiscount ← decOf (j.field "pointsDiscount")
  let currencyCode ← (j.field "currencyCode").str?
  let idempotencyKey ← (j.field "idempotencyKey").opt Json.str?
  let originalCreatedAt ← dateOf (j.field "originalCreatedAt")
  let v ← (j.field "v").nat?
  return { ref, activityId, vendorId, customerId, unitNumber, startDatetime, endDatetime,
           guests, bookingPhone, guestBreakdown, selectedExtras, totalPrice, serviceFee,
           commissionPct, commissionAmount, couponCode, couponDiscount, pointsRedeemed,
           pointsDiscount, currencyCode, idempotencyKey, originalCreatedAt, v }

/-- **An amount is read back from its text.** -/
@[simp] theorem decOf_decJson (c : Cents) : decOf (decJson c) = some c := readDecimal_toText c

/-- An instant is read back. -/
@[simp] theorem dateOf_dateJson (t : Instant) : dateOf (dateJson t) = some t :=
  parseISO_toISOString t

@[simp] theorem idOf_idJson (id : Id) : idOf (idJson id) = some id := by
  have hread : readDigits (digits id ++ []) = some (value (digits id), []) :=
    readDigits_append Nat.toDigits_ne_nil (fun _ => isDigit_of_mem) (by simp)
  rw [List.append_nil, value_digits] at hread
  simp [idOf, idJson, Json.str?, Nat.toList_repr, hread]

/-- A list is read back, when the reader of its items undoes their writer. -/
theorem mapM_map {α β : Type} {write : α → β} {read : β → Option α}
    (h : ∀ a, read (write a) = some a) (xs : List α) :
    (xs.map write).mapM read = some xs := by
  induction xs with
  | nil => rfl
  | cons a xs ih =>
      rw [List.map_cons, List.mapM_cons, h, ih]
      rfl

/-- An extra is read back. -/
@[simp] theorem SelectedExtra.ofJson_toJson (e : SelectedExtra) : ofJson e.toJson = some e := by
  simp [ofJson, toJson, Json.field, List.lookup, Json.num?, Json.bool?]

/-- So is a list of them. -/
@[simp] theorem extrasOf_extrasJson (extras : List SelectedExtra) :
    extrasOf (extrasJson extras) = some extras :=
  mapM_map SelectedExtra.ofJson_toJson extras

/-- So is the breakdown of the guests. -/
@[simp] theorem breakdownOf_breakdownJson (breakdown : List (String × Nat)) :
    breakdownOf (breakdownJson breakdown) = some breakdown :=
  mapM_map (fun p => by simp) breakdown

/-- **A snapshot is read back as it was written.** -/
theorem ofJson_toJson (s : BookingSnapshot) : BookingSnapshot.ofJson s.toJson = some s := by
  have hunit : (Json.ofOption (fun n => .num (n : Nat)) s.unitNumber).opt Json.nat? =
      some s.unitNumber := Json.opt_ofOption Json.nat?_num (by simp) _
  have hcode : (Json.ofOption .str s.couponCode).opt Json.str? = some s.couponCode :=
    Json.opt_ofOption Json.str?_str (by simp) _
  have hkey : (Json.ofOption .str s.idempotencyKey).opt Json.str? = some s.idempotencyKey :=
    Json.opt_ofOption Json.str?_str (by simp) _
  have hguests : (Json.ofOption breakdownJson s.guestBreakdown).opt breakdownOf =
      some s.guestBreakdown :=
    Json.opt_ofOption breakdownOf_breakdownJson (by simp [breakdownJson]) _
  have hextras : (Json.ofOption extrasJson s.selectedExtras).opt extrasOf =
      some s.selectedExtras :=
    Json.opt_ofOption extrasOf_extrasJson (by simp [extrasJson]) _
  simp [BookingSnapshot.ofJson, BookingSnapshot.toJson, Json.field, List.lookup, hunit, hcode,
    hkey, hguests, hextras, Json.cents?_num]

/-! ## The recovered booking -/

/-- A new booking, once it is paid for: everything it was created with. -/
def Booking.restored (b : Booking) : Booking :=
  { b with status := .confirmed, reservedUntil := none }

/-- **A recovered booking is the booking that was lost.**  The snapshot of
every booking a creation commits is read back, and what recovery inserts
from it is the created booking, confirmed. -/
theorem recovered_is_original {env : Env} {txNow now : Instant} {db db' : Db}
    {p : PreparedBooking} {ref : String} {b : Booking}
    (h : createBookingTx env txNow db p ref = .ok (db', b)) :
    ∃ s pid, BookingSnapshot.ofJson (buildBookingSnapshot b).toJson = some s ∧
      b.paymentId = some pid ∧ recreatedBooking b.id pid s = b.restored ∧
      ∀ d d', b2Recreate now d pid (some b.id) s = .ok (d', .recreated) →
        d'.bookings.find? b.id = some b.restored := by
  obtain ⟨unitNumber, q, c⟩ := createBookingTx_created h
  have hsame : recreatedBooking b.id db.nextId (buildBookingSnapshot b) = b.restored := by
    rw [c.booking]
    rfl
  refine ⟨buildBookingSnapshot b, db.nextId, ofJson_toJson _, by rw [c.booking]; rfl, hsame,
    fun d d' hrec => ?_⟩
  rcases b2Recreate_ok hrec with ⟨hkind, _⟩ | ⟨_, ⟨hkind, _⟩ | ⟨_, r, _⟩⟩
  · cases hkind
  · cases hkind
  · have hfind := Table.find?_insert? r.inserted b.id
    have hkey : b.id = Keyed.key (recreatedBooking ((some b.id).getD d.nextId) db.nextId
        (buildBookingSnapshot b)) := rfl
    rw [hfind, if_pos hkey]
    exact congrArg some hsame

/-! A booking of the market, paid with fifty points. -/

def fiftyPoints : Option (Db × Booking) :=
  ((prepareBooking marketEnv 0 market.db 1 (marketRequest (some 50))).toOption.bind id).bind
    (fun p => (createBookingTx marketEnv 0 market.db p "R1").toOption)

/-- A booking that redeemed fifty points. -/
theorem recovered_is_original_fifty : ∃ b : Booking, b.pointsRedeemed = 5000 ∧
    ∃ s, BookingSnapshot.ofJson (buildBookingSnapshot b).toJson = some s ∧
      s.pointsRedeemed = 5000 := by
  obtain ⟨⟨db', b⟩, hrun, hpoints⟩ : ∃ r ∈ fiftyPoints, r.2.pointsRedeemed = 5000 := by
    decide +kernel
  obtain ⟨p, _, htx⟩ := Option.bind_eq_some_iff.mp hrun
  obtain ⟨s, pid, hread, _, hsame, _⟩ :=
    @recovered_is_original _ _ 0 _ _ _ _ _ (toOption_eq_some.mp htx)
  refine ⟨b, hpoints, s, hread, ?_⟩
  have := congrArg Booking.pointsRedeemed hsame
  exact this.trans hpoints

end Jadwal
