import Jadwal.Coupons
import Jadwal.Calendar
import Jadwal.Availability

/-!
# Pricing

The price of a booking as `createBooking`'s transaction computes it: the
base price in whole cents, the selected extras, the commission rate, one
coupon or voucher, and redeemed points.  Taking a coupon's use and loading
the loyalty configuration write to the database; nothing here touches a
booking, a payment, a balance or the ledger (`quote_frame`).
-/

namespace Jadwal

open Outcome

/-- A validated `POST /bookings` body. -/
structure CreateBookingDto where
  activityId : Id
  checkInDate : CivilDate
  slotTime : Option ClockTime := none
  slotEndTime : Option ClockTime := none
  checkOutDate : Option CivilDate := none
  guests : Nat
  bookingPhone : String := ""
  guestBreakdown : Option (List (String × Nat)) := none
  selectedExtras : List String := []
  selectedExtrasQty : List (String × Nat) := []
  couponCode : Option String := none
  voucherId : Option Id := none
  redeemPoints : Option ℚ := none
  idempotencyKey : Option String := none
  /-- `@Min(1)` of the request class. -/
  guests_pos : 1 ≤ guests := by decide

theorem one_guest : 1 ≤ 1 := Nat.le_refl 1

/-- What `createBooking` has loaded and computed before its transaction. -/
structure PreparedBooking where
  userId : Id
  dto : CreateBookingDto
  activity : Activity
  vendor : Vendor
  country : Country
  category : Option Category
  startDatetime : Instant
  endDatetime : Instant

/-- The frozen price of a booking. -/
structure Quote where
  selectedExtras : List SelectedExtra
  totalPrice : Cents
  serviceFee : Cents
  commissionPct : Cents
  commissionAmount : Cents
  couponCode : Option String
  couponDiscount : Cents
  pointsRedeemed : Cents
  pointsDiscount : Cents
  payableAmount : Cents

/-! ## Base price and extras -/

def nightCount (checkIn checkOut : CivilDate) : Nat :=
  (checkOut.toDays - checkIn.toDays).toNat

/-- The override of a date: the last row read wins, as in the source's map. -/
def specialPriceOn (db : Db) (activityId : Id) (date : Instant) : Option Cents :=
  ((db.specialPrices.select (fun s =>
    s.activityId = activityId ∧ s.deletedAt = none ∧ s.date = date)).getLast?).map
      ActivitySpecialPrice.price

/-- The first override of a date (`findFirst`). -/
def firstSpecialPriceOn (db : Db) (activityId : Id) (date : Instant) : Option Cents :=
  (db.specialPrices.first? (fun s =>
    s.activityId = activityId ∧ s.deletedAt = none ∧ s.date = date)).map
      ActivitySpecialPrice.price

/-- DAILY: the sum over the nights, each at its override or the base price. -/
def dailyPriceCents (db : Db) (activity : Activity) (checkIn checkOut : CivilDate) :
    Cents :=
  let nights := max 1 (nightCount checkIn checkOut)
  ((List.range nights).map (fun (i : Nat) =>
    (specialPriceOn db activity.id (checkIn.midnight + i * day)).getD
      activity.pricePerPerson)).sum

/-- HOURLY: pro rata per hour, times the guests for PER_PERSON. -/
def hourlyPriceCents (db : Db) (activity : Activity) (dto : CreateBookingDto)
    (startDatetime endDatetime : Instant) : Cents :=
  let effectiveCents := (firstSpecialPriceOn db activity.id dto.checkInDate.midnight).getD
    activity.pricePerPerson
  let durHours := activity.durationValue.getD 1
  let hoursBooked := max (durHours : Int)
    (mathRound (((endDatetime - startDatetime : Int) : ℚ) / (hour : ℚ)))
  let perPersonCount : Int := if activity.pricingModel = .perUnit then 1 else dto.guests
  mathRound (((effectiveCents * hoursBooked * perPersonCount : Int) : ℚ) / durHours)

def basePriceCents (db : Db) (p : PreparedBooking) : Cents :=
  match p.activity.bookingType with
  | .daily => dailyPriceCents db p.activity p.dto.checkInDate
      (p.dto.checkOutDate.getD p.dto.checkInDate)
  | .hourly => hourlyPriceCents db p.activity p.dto p.startDatetime p.endDatetime

/-- The service an extra's name denotes: the last one with a positive
price and that name, ignoring case. -/
def findExtra (services : List ExtraService) (name : String) : Option ExtraService :=
  services.reverse.find? (fun s => s.price > 0 ∧ s.name.toLower = name.toLower)

def extraQty (dto : CreateBookingDto) (name : String) (svc : ExtraService) : Nat :=
  if svc.perPerson then
    match (dto.selectedExtrasQty.lookup name).or
        (dto.selectedExtrasQty.lookup svc.name) with
    | some qty => min (max 1 qty) dto.guests
    | none => dto.guests
  else 1

/-- The selected extras, first mention of each name, in order. -/
def resolveExtras (dto : CreateBookingDto) (services : List ExtraService) :
    List String → List String → Tx (List SelectedExtra)
  | _, [] => .ok []
  | seen, name :: names =>
      if name.toLower ∈ seen then resolveExtras dto services seen names
      else do
        let svc ← orThrow (findExtra services name)
          (.badRequest "One or more selected extras are not available for this activity")
        let rest ← resolveExtras dto services (name.toLower :: seen) names
        return ⟨svc.name, svc.price, extraQty dto name svc, svc.perPerson⟩ :: rest

def selectExtras (activity : Activity) (dto : CreateBookingDto) :
    Tx (List SelectedExtra) :=
  match activity.extraServices with
  | some services => resolveExtras dto services [] dto.selectedExtras
  | none => .ok []

def extrasCents (extras : List SelectedExtra) : Cents :=
  (extras.map (fun e => mathRound (e.price * e.qty * 100))).sum

/-- Vendor override, else category override, else the platform default. -/
def commissionPctFor (db : Db) (p : PreparedBooking) : Cents :=
  match p.vendor.commissionPct with
  | some pct => pct
  | none =>
      match p.category.bind Category.commissionPct with
      | some pct => pct
      | none => (db.platformSettings.map PlatformSettings.defaultCommissionPct).getD 0

/-! ## Coupon and voucher -/

/-- The discount of a coupon on a price. -/
def couponDiscountOf (coupon : Coupon) (totalPrice : Cents) : Cents :=
  match coupon.discountType with
  | .percentage =>
      let raw := totalPrice.toNum * coupon.discountValue.toNum / 100
      toCents (match coupon.maxDiscount with
        | some cap => min raw cap.toNum
        | none => raw)
  | .fixed => min coupon.discountValue totalPrice

/-- Takes one use: the limit is asserted again in the write, and reaching
it expires the coupon. -/
def takeCouponUse (db : Db) (coupon : Coupon) (limit : Option Int)
    (limitMessage : String) : Tx Db :=
  match limit with
  | some limit => do
      ensure (∃ c ∈ db.coupons.find? coupon.id, c.usedCount < limit)
        (.badRequest limitMessage)
      let coupons := db.coupons.update coupon.id
        (fun c => { c with usedCount := c.usedCount + 1 })
      if coupon.usedCount + 1 ≥ limit then
        let expired := coupons.update coupon.id (fun c => { c with status := .expired })
        return { db with coupons := expired }
      else return { db with coupons := coupons }
  | none =>
      let coupons := db.coupons.update coupon.id
        (fun c => { c with usedCount := c.usedCount + 1 })
      .ok { db with coupons := coupons }

theorem ClaimedCoupon.key_used (c : ClaimedCoupon) :
    Keyed.key { c with used := true } = Keyed.key c := rfl

def applyVoucher (now : Instant) (db : Db) (p : PreparedBooking) (voucherId : Id)
    (totalPrice : Cents) : Tx (Db × String × Cents) := do
  let claimed ← orThrow (db.claimedCoupons.find? voucherId)
    (.badRequest "Voucher not found")
  ensure (claimed.userId = p.userId)
    (.badRequest "This voucher does not belong to you")
  ensure (¬ claimed.used) (.badRequest "This voucher has already been used")
  let coupon ← orThrow (db.coupons.find? claimed.couponId)
    (.recordNotFound "Coupon")
  ensure (coupon.status = .approved)
    (.badRequest "This voucher is no longer active")
  ensure (now ≤ coupon.validTo) (.badRequest "This voucher has expired")
  ensure (∀ limit ∈ coupon.usageLimit, coupon.usedCount < limit)
    (.badRequest "This voucher has reached its usage limit")
  ensure (coupon.applicableActivityIds = [] ∨
      p.activity.id ∈ coupon.applicableActivityIds)
    (.badRequest "This voucher is not valid for this activity")
  ensure (∀ amount ∈ coupon.minOrderAmount, amount ≤ totalPrice)
    (.badRequest ("Minimum order amount for this voucher is " ++
      (coupon.minOrderAmount.getD 0).toText))
  let claimedCoupons := db.claimedCoupons.update voucherId
    (fun c => { c with used := true }) ClaimedCoupon.key_used
  let db ← takeCouponUse { db with claimedCoupons := claimedCoupons } coupon coupon.usageLimit
    "This voucher has reached its usage limit"
  return (db, coupon.code, couponDiscountOf coupon totalPrice)

/-- A usage limit of 0 counts as no limit for a typed code. -/
def truthyLimit (limit : Option Int) : Option Int := limit.filter (fun n => n ≠ 0)

def applyCouponCode (now : Instant) (db : Db) (p : PreparedBooking)
    (couponCode : String) (totalPrice : Cents) : Tx (Db × String × Cents) := do
  let codeUpper := couponCode.toUpper
  let coupon ← orThrow (findCoupon db codeUpper) (.badRequest "Invalid coupon code")
  ensure (coupon.status = .approved) (.badRequest "This coupon is not active")
  ensure (coupon.validFrom ≤ now) (.badRequest "This coupon is not yet valid")
  ensure (now ≤ coupon.validTo) (.badRequest "This coupon has expired")
  ensure (∀ limit ∈ truthyLimit coupon.usageLimit, coupon.usedCount < limit)
    (.badRequest "This coupon has reached its usage limit")
  ensure (∀ b ∈ db.bookings.rows, ¬ (b.customerId = p.userId ∧
      b.couponCode = some codeUpper ∧ b.status ≠ .cancelled))
    (.badRequest "You have already used this coupon")
  ensure (∀ vendorId ∈ coupon.vendorId, vendorId = p.vendor.id)
    (.badRequest "This coupon is not valid for this activity")
  ensure (coupon.applicableActivityIds = [] ∨
      p.activity.id ∈ coupon.applicableActivityIds)
    (.badRequest "This coupon is not valid for this activity")
  ensure (∀ amount ∈ coupon.minOrderAmount, amount ≤ totalPrice)
    (.badRequest ("Minimum order amount for this coupon is " ++
      (coupon.minOrderAmount.getD 0).toText))
  let db ← takeCouponUse db coupon (truthyLimit coupon.usageLimit)
    "This coupon has reached its usage limit"
  return (db, codeUpper, couponDiscountOf coupon totalPrice)

/-- At most one of a voucher and a typed code. -/
def applyDiscount (now : Instant) (db : Db) (p : PreparedBooking)
    (totalPrice : Cents) : Tx (Db × Option String × Cents) :=
  match p.dto.couponCode, p.dto.voucherId with
  | some _, some _ =>
      throw (.badRequest "Cannot use both a coupon code and a voucher")
  | none, some voucherId => do
      let (db, code, discount) ← applyVoucher now db p voucherId totalPrice
      return (db, some code, discount)
  | some couponCode, none => do
      let (db, code, discount) ← applyCouponCode now db p couponCode totalPrice
      return (db, some code, discount)
  | none, none => .ok (db, none, 0)

/-! ## Points and the quote -/

/-- What redeeming points does to a price: the points taken, their value,
and whether the service fee is waived. -/
structure Redemption where
  pointsRedeemed : Cents := 0
  pointsDiscount : Cents := 0
  feeWaived : Bool := false

def redemption (config : LoyaltyConfig) (redeemPoints : ℚ)
    (afterCouponPrice : Cents) : Tx Redemption := do
  let redeemAmount := toCents redeemPoints
  ensure ((config.minRedemption : ℚ) ≤ redeemAmount.toNum)
    (.badRequest ("Minimum redemption is " ++ toString config.minRedemption ++ " points"))
  ensure (0 < config.qarPerPoint) (.badRequest "Points redemption is disabled")
  let rawDiscount := redeemAmount.toNum * config.qarPerPoint
  if afterCouponPrice.toNum ≤ rawDiscount then
    -- the points cover the activity price; the fee is waived
    return { pointsRedeemed := toCents (afterCouponPrice.toNum / config.qarPerPoint)
             pointsDiscount := afterCouponPrice
             feeWaived := true }
  else
    return { pointsRedeemed := redeemAmount
             pointsDiscount := toCents rawDiscount }

/-- The redemption of a request; the configuration row is created with its
defaults when it is missing. -/
def redeemFor (db : Db) (dto : CreateBookingDto) (afterCouponPrice : Cents) :
    Tx (Db × Redemption) :=
  match dto.redeemPoints.filter (fun points => 0 < points) with
  | some points => do
      let config := db.loyaltyConfig.getD {}
      let r ← redemption config points afterCouponPrice
      return ({ db with loyaltyConfig := some config }, r)
  | none => .ok (db, {})

def quote (now : Instant) (db : Db) (p : PreparedBooking) : Tx (Db × Quote) := do
  let extras ← selectExtras p.activity p.dto
  let totalPrice := basePriceCents db p + extrasCents extras
  let commissionPct := commissionPctFor db p
  let (db, couponCode, couponDiscount) ← applyDiscount now db p totalPrice
  let afterCouponPrice := totalPrice - couponDiscount
  let (db, r) ← redeemFor db p.dto afterCouponPrice
  let serviceFee := if r.feeWaived then 0 else p.country.serviceFeeFixed
  return (db, {
    selectedExtras := extras
    totalPrice := afterCouponPrice
    serviceFee := serviceFee
    commissionPct := commissionPct
    commissionAmount := mathRound (afterCouponPrice.toNum * commissionPct.toNum)
    couponCode := couponCode
    couponDiscount := couponDiscount
    pointsRedeemed := r.pointsRedeemed
    pointsDiscount := r.pointsDiscount
    payableAmount := max 0 (afterCouponPrice + serviceFee - r.pointsDiscount) })

/-! ## The frame of pricing -/

/-- Taking a use of a coupon leaves the bookings, the payments and the ledger alone. -/
theorem takeCouponUse_frame {db db' : Db} {coupon : Coupon} {limit : Option Int}
    {message : String} (h : takeCouponUse db coupon limit message = .ok db') :
    SameCore db db' := by
  cases limit with
  | none =>
      obtain rfl := Except.ok.inj h
      constructor <;> rfl
  | some limit =>
      simp only [takeCouponUse, bind_eq_ok] at h
      obtain ⟨_, _, h⟩ := h
      split at h <;>
        (rw [pure_eq_ok] at h
         subst h
         constructor <;> rfl)

/-- What a discount was: none was asked for, the customer's unused voucher, or a
code the customer has no live booking with. -/
inductive Discounted (db : Db) (p : PreparedBooking) (totalPrice : Cents) :
    Db × Option String × Cents → Prop
  | plain (bare : p.dto.voucherId = none) : Discounted db p totalPrice (db, none, 0)
  | voucher (voucherId : Id) (claimed : ClaimedCoupon) (coupon : Coupon) (db' : Db)
      (named : p.dto.voucherId = some voucherId)
      (given : db.claimedCoupons.find? voucherId = some claimed)
      (owner : claimed.userId = p.userId) (unused : claimed.used = false)
      (found : db.coupons.find? claimed.couponId = some coupon)
      (approved : coupon.status = .approved)
      (taken : takeCouponUse
        { db with
          claimedCoupons := db.claimedCoupons.update voucherId
            (fun c => { c with used := true }) }
        coupon coupon.usageLimit "This voucher has reached its usage limit" = .ok db') :
      Discounted db p totalPrice
        (db', some coupon.code, couponDiscountOf coupon totalPrice)
  | typed (couponCode : String) (coupon : Coupon) (db' : Db)
      (named : p.dto.couponCode = some couponCode) (bare : p.dto.voucherId = none)
      (found : findCoupon db couponCode.toUpper = some coupon)
      (approved : coupon.status = .approved)
      (fresh : ∀ b ∈ db.bookings.rows, ¬ (b.customerId = p.userId ∧
        b.couponCode = some couponCode.toUpper ∧ b.status ≠ .cancelled))
      (taken : takeCouponUse db coupon (truthyLimit coupon.usageLimit)
        "This coupon has reached its usage limit" = .ok db') :
      Discounted db p totalPrice
        (db', some couponCode.toUpper, couponDiscountOf coupon totalPrice)

/-- **What a discount comes from**, with everything that was checked for it. -/
theorem applyDiscount_cases {now : Instant} {db : Db} {p : PreparedBooking}
    {totalPrice : Cents} {r : Db × Option String × Cents}
    (h : applyDiscount now db p totalPrice = .ok r) : Discounted db p totalPrice r := by
  unfold applyDiscount at h
  split at h
  · exact absurd h throw_eq_ok
  · rename_i voucherId _ named
    simp only [applyVoucher, bind_eq_ok, pure_eq_ok, ensure_eq_ok, orThrow_eq_ok] at h
    obtain ⟨_, ⟨claimed, given, _, owner, _, unused, coupon, found, _, approved, _, _, _, _,
      _, _, _, _, db', taken, rfl⟩, rfl⟩ := h
    exact .voucher voucherId claimed coupon db' named given owner (by simpa using unused)
      found approved taken
  · rename_i couponCode named bare
    simp only [applyCouponCode, bind_eq_ok, pure_eq_ok, ensure_eq_ok, orThrow_eq_ok] at h
    obtain ⟨_, ⟨coupon, found, _, approved, _, _, _, _, _, _, _, fresh, _, _, _, _, _, _,
      db', taken, rfl⟩, rfl⟩ := h
    exact .typed couponCode coupon db' named bare found approved fresh taken
  · rename_i bare
    obtain rfl := Except.ok.inj h
    exact .plain bare

theorem applyDiscount_frame {now : Instant} {db : Db} {p : PreparedBooking}
    {totalPrice : Cents} {r : Db × Option String × Cents}
    (h : applyDiscount now db p totalPrice = .ok r) : SameCore db r.1 := by
  cases applyDiscount_cases h with
  | plain => exact SameCore.refl db
  | voucher _ _ _ _ _ _ _ _ _ _ taken =>
      refine SameCore.trans ?_ (takeCouponUse_frame taken)
      constructor <;> rfl
  | typed _ _ _ _ _ _ _ _ taken => exact takeCouponUse_frame taken

/-- At most the configuration row is new. -/
theorem redeemFor_frame {db : Db} {dto : CreateBookingDto} {price : Cents}
    {r : Db × Redemption} (h : redeemFor db dto price = .ok r) :
    SameCore db r.1 := by
  unfold redeemFor at h
  split at h
  · simp only [bind_eq_ok, pure_eq_ok] at h
    obtain ⟨_, _, rfl⟩ := h
    constructor <;> rfl
  · obtain rfl := Except.ok.inj h
    exact SameCore.refl db

/-- **Pricing touches no booking, payment, balance or ledger entry.** -/
theorem quote_frame {now : Instant} {db : Db} {p : PreparedBooking}
    {r : Db × Quote} (h : quote now db p = .ok r) : SameCore db r.1 := by
  simp only [quote, bind_eq_ok, pure_eq_ok] at h
  obtain ⟨_, _, d, hd, e, he, rfl⟩ := h
  exact (applyDiscount_frame hd).trans (redeemFor_frame he)

end Jadwal
