import Jadwal.Lib.Table
import Jadwal.Lib.Outcome
import Mathlib

/-!
# The data model

The tables of the booking service, one structure for each, with the
columns the modelled operations read or write.  Identifiers are naturals
(the source's UUIDs are only ever compared), instants are milliseconds
since the epoch, and every `Decimal(_, 2)` column is an integer number of
hundredths (`Cents`).  Computations that the source makes on numbers are
exact rationals; `round2` and `mathRound` are the places where they land
on the grid again.

The other unique columns (`ref`, `idempotencyKey`, the gateway ids, the
ledger's `(bookingId, source)`) are checked by the statement that writes
them, and a violation throws as it does in the database.
-/

namespace Jadwal

open Outcome

/-- A row identifier. -/
abbrev Id := Nat

/-- Milliseconds since 1970-01-01T00:00:00Z. -/
abbrev Instant := Int

/-- A `Decimal(_, 2)` column, in hundredths. -/
abbrev Cents := Int

/-- Minutes after midnight of a `HH:MM` string. -/
abbrev ClockTime := Fin 1440

instance ClockTime.instNeZero : NeZero 1440 := ⟨by decide⟩

def second : Int := 1000
def minute : Int := 60 * second
def hour : Int := 60 * minute
def day : Int := 24 * hour

/-- `Math.round`: to the nearest integer, halves upwards. -/
def mathRound (q : ℚ) : Int := ⌊q + 1 / 2⌋

/-- The number a `Decimal(_, 2)` column holds. -/
def Cents.toNum (c : Cents) : ℚ := c / 100

/-- `Math.round(x * 100) / 100`, in hundredths. -/
def toCents (q : ℚ) : Cents := mathRound (q * 100)

/-- Rounding does nothing to a number on the grid of hundredths. -/
theorem toCents_grid {q : ℚ} {c : Cents} (h : q * 100 = (c : ℚ)) : toCents q = c := by
  rw [toCents, mathRound, h, Int.floor_eq_iff]
  constructor <;> norm_num

theorem toCents_toNum (c : Cents) : toCents c.toNum = c := by
  refine toCents_grid ?_
  unfold Cents.toNum
  ring

/-- A number of hundredths as JavaScript prints it: no trailing zeros. -/
def Cents.toText (c : Cents) : String :=
  let whole := toString (c.natAbs / 100)
  let frac := c.natAbs % 100
  let digits :=
    if frac = 0 then whole
    else if frac % 10 = 0 then whole ++ "." ++ toString (frac / 10)
    else if frac < 10 then whole ++ ".0" ++ toString frac
    else whole ++ "." ++ toString frac
  if c < 0 then "-" ++ digits else digits

/-- `\s` of a regular expression, and what `trim` trims. -/
def isJsSpace (c : Char) : Bool :=
  (9 ≤ c.toNat ∧ c.toNat ≤ 13) ∨ c.toNat ∈ [0x20, 0xa0, 0x1680] ∨
    (0x2000 ≤ c.toNat ∧ c.toNat ≤ 0x200a) ∨
    c.toNat ∈ [0x2028, 0x2029, 0x202f, 0x205f, 0x3000, 0xfeff]

def trimSpace (cs : List Char) : List Char :=
  ((cs.dropWhile isJsSpace).reverse.dropWhile isJsSpace).reverse

/-- `String.prototype.trim` -/
def trimmed (s : String) : String := String.ofList (trimSpace s.toList)

/-- `text.length`, in units of 16 bits. -/
def unitLength (text : List Char) : Nat := (text.map fun c => if c.val < 0x10000 then 1 else 2).sum

/-- `slice(0, n)`, in units of 16 bits; of a pair that is cut in two nothing is kept. -/
def sliceUnits : Nat → List Char → List Char
  | _, [] => []
  | n, c :: text =>
      if unitLength [c] ≤ n then c :: sliceUnits (n - unitLength [c]) text else []

/-! ## Enumerations -/

inductive VendorStatus
  | pending | active | suspended
  deriving DecidableEq, Repr

inductive BookingType
  | hourly | daily
  deriving DecidableEq, Repr

inductive PricingModel
  | perPerson | perUnit
  deriving DecidableEq, Repr

inductive ActivityStatus
  | pending | active | inactive | blocked
  deriving DecidableEq, Repr

def ActivityStatus.text : ActivityStatus → String
  | .pending => "PENDING"
  | .active => "ACTIVE"
  | .inactive => "INACTIVE"
  | .blocked => "BLOCKED"

inductive CancelActor
  | customer | vendor | admin | system
  deriving DecidableEq, Repr

inductive BookingStatus
  | pending | confirmed | completed | cancelled
  deriving DecidableEq, Repr

inductive PaymentStatus
  | pending | success | refundPending | refunded | rejected | failed
  deriving DecidableEq, Repr

inductive PayoutStatus
  | unpaid | paid
  deriving DecidableEq, Repr

inductive DiscountType
  | percentage | fixed
  deriving DecidableEq, Repr

inductive CouponStatus
  | pending | approved | expired
  deriving DecidableEq, Repr

inductive LoyaltyLedgerSource
  | bookingRedeem | bookingEarn | cancelRefundUnpaid | cancelRefundPaid
  | cancelReverseAwarded | vendorRefundApproved | adminRefundApproved
  | adminAdjust | systemCorrection
  deriving DecidableEq, Repr

inductive LoyaltyActorType
  | customer | vendor | admin | system
  deriving DecidableEq, Repr

inductive PayoutRequestStatus
  | pending | approved | rejected | completed
  deriving DecidableEq, Repr

/-- The HTTP errors the services throw (`business` carries the code of a
`BusinessException`), and the errors of the database client (`P2002` unique
violation, `P2025` missing row, a null for a required column). -/
inductive HttpError
  | badRequest (message : String)
  | notFound (message : String)
  | conflict (message : String)
  | forbidden (message : String)
  | business (code : String) (message : String)
  | uniqueViolation (column : String)
  | recordNotFound (table : String)
  | nullColumn (column : String)
  deriving DecidableEq, Repr

/-- A transaction body: the new state, or a throw that discards its writes. -/
abbrev Tx (α : Type) := Except HttpError α

/-! ## Rows -/

structure User where
  id : Id
  loyaltyPoints : Cents := 0
  bookingOtpVerifiedAt : Option Instant := none
  deletedAt : Option Instant := none
  deriving DecidableEq, Repr

structure Vendor where
  id : Id
  userId : Id
  businessNameEn : String := ""
  bankDetails : Option String := none
  bankDetailsChangedAt : Option Instant := none
  countryId : Id
  status : VendorStatus := .pending
  commissionPct : Option Cents := none
  deletedAt : Option Instant := none
  deriving DecidableEq, Repr

structure Country where
  id : Id
  currencyCode : String := "QAR"
  serviceFeeFixed : Cents := 0
  defaultTimezone : String := "UTC"
  deriving DecidableEq, Repr

structure Category where
  id : Id
  commissionPct : Option Cents := none
  deriving DecidableEq, Repr

/-- One entry of `Activity.extraServices`, a JSON column: its price is any number. -/
structure ExtraService where
  name : String
  price : ℚ
  perPerson : Bool := false
  deriving DecidableEq, Repr

structure Activity where
  id : Id
  vendorId : Id
  countryId : Id
  categoryId : Id
  titleEn : String := ""
  pricePerPerson : Cents := 0
  durationValue : Option Nat := none
  capacity : Option Nat := none
  bookingType : BookingType := .hourly
  pricingModel : PricingModel := .perPerson
  checkInTime : Option ClockTime := none
  checkOutTime : Option ClockTime := none
  hasUnits : Bool := false
  unitCount : Nat := 0
  unitCapacity : Nat := 1
  cancellationPolicy : Option String := none
  status : ActivityStatus := .pending
  extraServices : Option (List ExtraService) := none
  activeDays : List String := []
  deletedAt : Option Instant := none
  deriving DecidableEq, Repr

structure ActivityBlock where
  id : Id
  activityId : Id
  vendorId : Id
  blockStart : Instant
  blockEnd : Instant
  deletedAt : Option Instant := none
  deriving DecidableEq, Repr

/-- `date` is the instant of the date's midnight (a `@db.Date` column). -/
structure ActivitySpecialPrice where
  id : Id
  activityId : Id
  vendorId : Id
  date : Instant
  price : Cents
  deletedAt : Option Instant := none
  deriving DecidableEq, Repr

/-- One entry of `Booking.selectedExtras`. -/
structure SelectedExtra where
  name : String
  price : ℚ
  qty : Nat
  perPerson : Bool
  deriving DecidableEq, Repr

structure Booking where
  id : Id
  ref : String
  activityId : Id
  vendorId : Id
  customerId : Id
  unitNumber : Option Nat := none
  startDatetime : Instant
  endDatetime : Instant
  guests : Nat
  bookingPhone : String := ""
  guestBreakdown : Option (List (String × Nat)) := none
  selectedExtras : Option (List SelectedExtra) := none
  totalPrice : Cents := 0
  serviceFee : Cents := 0
  commissionPct : Cents := 0
  commissionAmount : Cents := 0
  couponCode : Option String := none
  couponDiscount : Cents := 0
  pointsRedeemed : Cents := 0
  pointsDiscount : Cents := 0
  pointsAwarded : Bool := false
  currencyCode : String := "QAR"
  idempotencyKey : Option String := none
  status : BookingStatus := .pending
  reservedUntil : Option Instant := none
  paymentId : Option Id := none
  emailOtpVerifiedAt : Option Instant := none
  cancelledAt : Option Instant := none
  cancelledBy : Option CancelActor := none
  refundDecisionAt : Option Instant := none
  refundDecisionBy : Option Id := none
  refundDecisionActor : Option CancelActor := none
  refundDecisionNote : Option String := none
  createdAt : Instant
  deriving DecidableEq, Repr

/-- The frozen copy of a booking a payment carries for orphan recovery. -/
structure BookingSnapshot where
  ref : String
  activityId : Id
  vendorId : Id
  customerId : Id
  unitNumber : Option Nat
  startDatetime : Instant
  endDatetime : Instant
  guests : Nat
  bookingPhone : String
  guestBreakdown : Option (List (String × Nat))
  selectedExtras : Option (List SelectedExtra)
  totalPrice : Cents
  serviceFee : Cents
  commissionPct : Cents
  commissionAmount : Cents
  couponCode : Option String
  couponDiscount : Cents
  pointsRedeemed : Cents
  pointsDiscount : Cents
  currencyCode : String
  idempotencyKey : Option String
  originalCreatedAt : Instant
  v : Nat
  deriving DecidableEq, Repr

structure Payment where
  id : Id
  bookingId : Option Id := none
  amount : Cents
  currency : String := "QAR"
  gatewayTxnId : Option String := none
  gatewayBasketId : Option String := none
  gatewayErrCode : Option String := none
  gatewayResponseKey : Option String := none
  status : PaymentStatus := .pending
  payoutStatus : PayoutStatus := .unpaid
  paidAt : Option Instant := none
  paymentFirstInitiatedAt : Option Instant := none
  paymentInitiatedAt : Option Instant := none
  method : String
  refundAmount : Option Cents := none
  refundedAt : Option Instant := none
  bookingSnapshot : Option BookingSnapshot := none
  bookingRecreatedAt : Option Instant := none
  bankTransferRef : Option String := none
  idempotencyKey : Option String := none
  createdAt : Instant
  deriving DecidableEq, Repr

structure Coupon where
  id : Id
  code : String
  vendorId : Option Id := none
  applicableActivityIds : List Id := []
  discountType : DiscountType
  discountValue : Cents
  validFrom : Instant
  validTo : Instant
  usageLimit : Option Int := none
  usedCount : Int := 0
  minOrderAmount : Option Cents := none
  maxDiscount : Option Cents := none
  status : CouponStatus := .pending
  deriving DecidableEq, Repr

structure ClaimedCoupon where
  id : Id
  userId : Id
  couponId : Id
  used : Bool := false
  deriving DecidableEq, Repr

/-- The single row of `platform_settings`. -/
structure PlatformSettings where
  defaultCommissionPct : Cents := 1000
  deriving DecidableEq, Repr

/-- The single row of `loyalty_config`; the rates are `Decimal(10, 4)`. -/
structure LoyaltyConfig where
  pointsPerQar : ℚ := 1 / 100
  qarPerPoint : ℚ := 1
  minRedemption : Int := 1
  deriving DecidableEq, Repr

structure LoyaltyLedger where
  userId : Id
  delta : Cents
  balanceAfter : Cents
  source : LoyaltyLedgerSource
  bookingId : Option Id
  actorType : LoyaltyActorType
  actorId : Option Id
  reason : String
  deriving DecidableEq, Repr

structure PayoutRequest where
  id : Id
  vendorId : Id
  amount : Cents
  currency : String := "QAR"
  status : PayoutRequestStatus := .pending
  adminNote : Option String := none
  processedAt : Option Instant := none
  createdAt : Instant
  paymentIds : List Id := []
  deriving DecidableEq, Repr

instance : Keyed User Id := ⟨User.id⟩
instance : Keyed Vendor Id := ⟨Vendor.id⟩
instance : Keyed Country Id := ⟨Country.id⟩
instance : Keyed Category Id := ⟨Category.id⟩
instance : Keyed Activity Id := ⟨Activity.id⟩
instance : Keyed ActivityBlock Id := ⟨ActivityBlock.id⟩
instance : Keyed ActivitySpecialPrice Id := ⟨ActivitySpecialPrice.id⟩
instance : Keyed Booking Id := ⟨Booking.id⟩
instance : Keyed Payment Id := ⟨Payment.id⟩
instance : Keyed Coupon Id := ⟨Coupon.id⟩
instance : Keyed ClaimedCoupon Id := ⟨ClaimedCoupon.id⟩
instance : Keyed PayoutRequest Id := ⟨PayoutRequest.id⟩

/-! ## The database -/

/-- The state of the database.  The ledger is append-only and in order of
writing; `nextId` is the next generated row id, so an id is never given
out twice. -/
structure Db where
  nextId : Id := 0
  users : Table User := .empty
  vendors : Table Vendor := .empty
  countries : Table Country := .empty
  categories : Table Category := .empty
  activities : Table Activity := .empty
  activityBlocks : Table ActivityBlock := .empty
  specialPrices : Table ActivitySpecialPrice := .empty
  bookings : Table Booking := .empty
  payments : Table Payment := .empty
  coupons : Table Coupon := .empty
  claimedCoupons : Table ClaimedCoupon := .empty
  platformSettings : Option PlatformSettings := none
  loyaltyConfig : Option LoyaltyConfig := none
  loyaltyLedger : List LoyaltyLedger := []
  payoutRequests : Table PayoutRequest := .empty

/-- `db'` agrees with `db` outside the coupons, their claims and the loyalty
configuration: the frame of every pricing and coupon statement. -/
structure SameCore (db db' : Db) : Prop where
  nextId : db'.nextId = db.nextId
  users : db'.users = db.users
  vendors : db'.vendors = db.vendors
  countries : db'.countries = db.countries
  categories : db'.categories = db.categories
  activities : db'.activities = db.activities
  activityBlocks : db'.activityBlocks = db.activityBlocks
  specialPrices : db'.specialPrices = db.specialPrices
  bookings : db'.bookings = db.bookings
  payments : db'.payments = db.payments
  platformSettings : db'.platformSettings = db.platformSettings
  loyaltyLedger : db'.loyaltyLedger = db.loyaltyLedger
  payoutRequests : db'.payoutRequests = db.payoutRequests

theorem SameCore.refl (db : Db) : SameCore db db := by
  constructor <;> rfl

theorem SameCore.trans {db db' db'' : Db} (h : SameCore db db')
    (h' : SameCore db' db'') : SameCore db db'' where
  nextId := h'.nextId.trans h.nextId
  users := h'.users.trans h.users
  vendors := h'.vendors.trans h.vendors
  countries := h'.countries.trans h.countries
  categories := h'.categories.trans h.categories
  activities := h'.activities.trans h.activities
  activityBlocks := h'.activityBlocks.trans h.activityBlocks
  specialPrices := h'.specialPrices.trans h.specialPrices
  bookings := h'.bookings.trans h.bookings
  payments := h'.payments.trans h.payments
  platformSettings := h'.platformSettings.trans h.platformSettings
  loyaltyLedger := h'.loyaltyLedger.trans h.loyaltyLedger
  payoutRequests := h'.payoutRequests.trans h.payoutRequests

/-- Configuration and the functions the platform supplies. -/
structure Env where
  /-- `PAYMENT_ENABLED`. -/
  paymentEnabled : Bool := true
  merchantId : String := ""
  secretWord : String := ""
  /-- `createHash('sha256').update(_).digest('hex')`. -/
  sha256 : String → String
  /-- The offset in milliseconds of a zone's wall clock from UTC, when the
  zone is one `Intl.DateTimeFormat` knows. -/
  zoneOffset : String → Instant → Option Int
  /-- `BOOKING_RESERVATION_WINDOW_MINUTES`. -/
  reservationWindowMinutes : Nat := 15
  bookingMaxAdvanceMonths : Nat := 6
  availabilityMaxDayBookings : Nat := 5000
  availabilityMaxMonthBookings : Nat := 50000
  hourlyMaxSlots : Nat := 48
  maxSlotUnits : Nat := 24
  maxBookingNights : Nat := 90
  cancellationDeadlineHours : ℚ := 24
  partialRefundPercent : ℚ := 50
  pendingBookingFallbackHours : Nat := 4
  pay2mPendingGraceMinutes : Nat := 120
  loyaltyAwardDelayMinutes : Nat := 5

end Jadwal
