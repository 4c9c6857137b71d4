import Jadwal.Prices
import Jadwal.MonthView

/-!
# The price shown and the price charged

The booking page adds up a price of its own: the nights or hours from the calendar it has
loaded, the extras, a coupon `validate-coupon` has just looked at, and the points.  It says
what is left to pay in cash, whether the service fee is waived and whether the points cover
everything.  Then `createBooking` computes the price again.

The page works with exact amounts and rounds once, at the end; the server rounds the price of
an HOURLY range before the coupon and the points, and the value of the points before it
subtracts them.  `preview_charged_iff` says when that does not show.
-/

namespace Jadwal

open Outcome

/-! ## What the page sends -/

/-- `\w` of a regular expression. -/
def isWordChar (c : Char) : Bool := c.isAlphanum ∨ c = '_'

/-- The rest after a word, whatever its case. -/
def afterWord : List Char → List Char → Option (List Char)
  | [], cs => some cs
  | w :: ws, c :: cs => if c.toLower = w then afterWord ws cs else none
  | _ :: _, [] => none

/-- `/javascript:/i` -/
def afterScript (cs : List Char) : Option (List Char) := afterWord "javascript:".toList cs

/-- `/on\w+\s*=/i` -/
def afterHandler (cs : List Char) : Option (List Char) := do
  let rest ← afterWord "on".toList cs
  if rest.head?.any isWordChar then
    afterWord "=".toList ((rest.dropWhile isWordChar).dropWhile isJsSpace)
  else none

/-- `/data\s*:\s*text\/html/i` -/
def afterData (cs : List Char) : Option (List Char) := do
  let rest ← afterWord "data".toList cs
  let rest ← afterWord ":".toList (rest.dropWhile isJsSpace)
  afterWord "text/html".toList (rest.dropWhile isJsSpace)

/-- `replace(/…/g, '')`, from left to right, for so many steps. -/
def removeAll (match? : List Char → Option (List Char)) : Nat → List Char → List Char
  | 0, cs => cs
  | _ + 1, [] => []
  | fuel + 1, c :: cs =>
      match match? (c :: cs) with
      | some rest => removeAll match? fuel rest
      | none => c :: removeAll match? fuel cs

/-- The characters that turn the direction of a text. -/
def isBidiOverride (c : Char) : Bool :=
  (0x202a ≤ c.toNat ∧ c.toNat ≤ 0x202e) ∨ (0x2066 ≤ c.toNat ∧ c.toNat ≤ 0x2069) ∨
    c.toNat ∈ [0x200e, 0x200f]

def sanitize (input : String) : String :=
  let cs := input.toList.filter (fun c => ¬ isBidiOverride c ∧ c ≠ '<' ∧ c ≠ '>')
  let cs := removeAll afterScript cs.length cs
  let cs := removeAll afterHandler cs.length cs
  let cs := removeAll afterData cs.length cs
  String.ofList (trimSpace cs)

/-! ## The coupon, looked at -/

/-- What `validate-coupon` answers, as far as the page keeps it for the price. -/
structure AppliedCoupon where
  code : String
  discount : Cents
  deriving DecidableEq, Repr

/-- The discount of a coupon on an amount, to hundredths. -/
def previewDiscount (coupon : Coupon) (orderAmount : ℚ) : Cents :=
  toCents (match coupon.discountType with
    | .percentage =>
        let discount := orderAmount * coupon.discountValue.toNum / 100
        match coupon.maxDiscount with
        | some cap => min discount cap.toNum
        | none => discount
    | .fixed => min coupon.discountValue.toNum orderAmount)

def isCodeChar (c : Char) : Bool := c.isUpper ∨ c.isDigit ∨ c = '_' ∨ c = '-'

def validateCoupon (now : Instant) (db : Db) (code : String) (activityId : Id)
    (orderAmount : ℚ) : Tx AppliedCoupon := do
  ensure (code ≠ "") (.badRequest "Coupon code and activity ID are required")
  let codeUpper := String.ofList (trimSpace code.toUpper.toList)
  ensure (codeUpper ≠ "" ∧ codeUpper.toList.all isCodeChar)
    (.business "COUPON.FORMAT_INVALID" "Invalid coupon code format")
  let coupon ← orThrow (findCoupon db codeUpper)
    (.business "COUPON.INVALID" "Invalid coupon code")
  ensure (coupon.status = .approved)
    (.business "COUPON.INACTIVE" "This coupon is not active")
  ensure (coupon.validFrom ≤ now)
    (.business "COUPON.NOT_YET_VALID" "This coupon is not yet valid")
  ensure (now ≤ coupon.validTo) (.business "COUPON.EXPIRED" "This coupon has expired")
  ensure (∀ limit ∈ truthyLimit coupon.usageLimit, coupon.usedCount < limit)
    (.business "COUPON.USAGE_LIMIT" "This coupon has reached its usage limit")
  ensure (coupon.vendorId = none ∨ (db.activities.find? activityId).isSome)
    (.business "ACTIVITY.NOT_FOUND" "Activity not found")
  ensure (∀ vendorId ∈ coupon.vendorId,
      (db.activities.find? activityId).map Activity.vendorId = some vendorId)
    (.business "COUPON.NOT_FOR_ACTIVITY" "This coupon is not valid for this activity")
  ensure (coupon.applicableActivityIds = [] ∨ activityId ∈ coupon.applicableActivityIds)
    (.business "COUPON.NOT_FOR_ACTIVITY" "This coupon is not valid for this activity")
  ensure (∀ amount ∈ coupon.minOrderAmount, amount.toNum ≤ orderAmount)
    (.business "COUPON.MIN_ORDER" ("Minimum order amount is " ++
      (coupon.minOrderAmount.getD 0).toText))
  return ⟨coupon.code, previewDiscount coupon orderAmount⟩

/-! ## The page -/

def MAX_SLOT_UNITS_CLIENT : Nat := 24

/-- The points of the customer and the rates, as the page has loaded them. -/
structure LoyaltyData where
  loyaltyPoints : Cents
  qarPerPoint : ℚ
  minRedemption : Int
  deriving DecidableEq, Repr

/-- What the booking page has loaded and what the customer has chosen, no voucher. -/
structure BookingPage where
  activity : Activity
  serviceFeeFixed : Cents
  /-- The days of the loaded months. -/
  days : List CalendarDay
  guests : Nat
  guests_pos : 1 ≤ guests := by decide
  checkIn : Option CivilDate := none
  checkOut : Option CivilDate := none
  selectedDate : Option CivilDate := none
  selectedSlot : Option ClockTime := none
  selectedSlotEnd : Option ClockTime := none
  selectedExtras : List (String × Nat) := []
  appliedCoupon : Option AppliedCoupon := none
  loyaltyData : Option LoyaltyData := none
  usePoints : Bool := false
  bookingPhone : String := ""
  idempotencyKey : Option String := none

namespace BookingPage

variable (page : BookingPage)

def isHourly : Bool := page.activity.bookingType = .hourly

def price : ℚ := page.activity.pricePerPerson.toNum

/-- The price the loaded calendar has for a day; the last entry of the map counts. -/
def priceByDate (d : Int) : Option ℚ :=
  ((page.days.filter (fun day => day.date.toDays = d)).getLast?).map (fun day => day.price.toNum)

def priceLookupDate : Option CivilDate :=
  if page.isHourly then page.selectedDate else page.checkIn

def effectivePrice : ℚ :=
  (page.priceLookupDate.bind (fun date => page.priceByDate date.toDays)).getD page.price

def nights : Nat :=
  match page.checkIn, page.checkOut with
  | some checkIn, some checkOut => nightCount checkIn checkOut
  | _, _ => 0

def paidExtras : List ExtraService :=
  (page.activity.extraServices.getD []).filter (fun svc => 0 < svc.price)

def extrasTotal : ℚ :=
  (page.paidExtras.map (fun svc =>
    match page.selectedExtras.lookup svc.name with
    | some qty => svc.price * qty
    | none => 0)).sum

/-- The hours of the range, no fewer than the baseline and no more than the cap. -/
def slotHours : ℚ :=
  let baseline : ℚ := page.activity.durationValue.getD 0
  match page.selectedSlot, page.selectedSlotEnd with
  | some slot, some slotEnd =>
      if baseline ≤ 0 then baseline
      else
        let hours : ℚ := ((slotEnd.val : ℚ) - slot.val) / 60
        max baseline (min hours (MAX_SLOT_UNITS_CLIENT * baseline))
  | _, _ => baseline

/-- The price of the range or the stay, without extras. -/
def baseCost : ℚ :=
  if page.isHourly then
    let durHours : ℚ := page.activity.durationValue.getD 1
    let hours := max durHours page.slotHours
    let pricePerHour := if 0 < durHours then page.effectivePrice / durHours
      else page.effectivePrice
    if page.activity.pricingModel = .perUnit then pricePerHour * hours
    else pricePerHour * page.guests * hours
  else
    match page.checkIn with
    | some checkIn =>
        if 0 < page.nights then
          ((List.range page.nights).map (fun i : Nat =>
            (page.priceByDate (checkIn.toDays + i)).getD page.price)).sum
        else page.effectivePrice * max 1 page.nights
    | none => page.effectivePrice * max 1 page.nights

def bookingCost : ℚ := page.baseCost + page.extrasTotal

def couponPart : ℚ := (page.appliedCoupon.map (fun c => c.discount.toNum)).getD 0

def activityPayable : ℚ := max 0 (page.bookingCost - page.couponPart)

def qarPerPoint : ℚ := (page.loyaltyData.map LoyaltyData.qarPerPoint).getD 1

def requiredPoints : Cents :=
  if 0 < page.activityPayable ∧ 0 < page.qarPerPoint then
    toCents (page.activityPayable / page.qarPerPoint)
  else 0

def redeemablePoints : Cents :=
  min ((page.loyaltyData.map LoyaltyData.loyaltyPoints).getD 0) page.requiredPoints

def canUsePoints : Bool :=
  page.loyaltyData.any (fun data =>
    0 < page.qarPerPoint ∧ (data.minRedemption : ℚ) ≤ page.redeemablePoints.toNum)

/-- The switch once the page has settled: it goes off where no points can be used. -/
def pointsOn : Bool := page.usePoints && page.canUsePoints

def redeemPoints : Cents := if page.pointsOn then page.redeemablePoints else 0

/-- What the redeemed points are worth. -/
def pointsWorth : ℚ := page.redeemPoints.toNum * page.qarPerPoint

def pointsDiscount : ℚ :=
  if page.pointsOn ∧ 0 < page.redeemPoints then min page.pointsWorth page.activityPayable else 0

def serviceFeeWaived : Bool :=
  page.pointsOn ∧ page.activityPayable ≤ page.pointsDiscount ∧ 0 < page.pointsDiscount

def effectiveServiceFee : Cents := if page.serviceFeeWaived then 0 else page.serviceFeeFixed

def grossPayable : ℚ := page.bookingCost + page.effectiveServiceFee.toNum

/-- The cash the page shows as due. -/
def cashDue : Cents := toCents (max 0 (page.grossPayable - page.couponPart - page.pointsDiscount))

def isPointsOnly : Bool := page.pointsOn ∧ page.cashDue = 0 ∧ 0 < page.pointsDiscount

/-! ## Its request -/

def sentExtras : List (String × Nat) := page.selectedExtras.filter (fun e => 0 < e.2)

def redeemRequest : Option ℚ :=
  if page.pointsOn ∧ 0 < page.redeemPoints then some page.redeemPoints.toNum else none

/-- The body of the request for a date. -/
def body (date : CivilDate) : CreateBookingDto where
  activityId := page.activity.id
  checkInDate := date
  guests := page.guests
  guests_pos := page.guests_pos
  bookingPhone := page.bookingPhone
  selectedExtras := page.sentExtras.map (fun e => sanitize e.1)
  selectedExtrasQty := page.sentExtras
  couponCode := page.appliedCoupon.map AppliedCoupon.code
  redeemPoints := page.redeemRequest
  idempotencyKey := page.idempotencyKey

/-- What `submitWithPhone` sends; nothing before the range or the stay is chosen. -/
def request : Option CreateBookingDto :=
  if page.isHourly then
    match page.selectedDate, page.selectedSlot with
    | some date, some slot => some { page.body date with
        slotTime := some slot
        slotEndTime :=
          if (page.activity.durationValue.getD 0 : ℚ) < page.slotHours then page.selectedSlotEnd
          else none }
    | _, _ => none
  else
    match page.checkIn, page.checkOut with
    | some checkIn, some checkOut => some { page.body checkIn with checkOutDate := some checkOut }
    | _, _ => none

end BookingPage

/-- What a request of the page carries, whatever its window. -/
theorem BookingPage.request_body {page : BookingPage} {dto : CreateBookingDto}
    (h : page.request = some dto) :
    dto.guests = page.guests ∧ dto.selectedExtras = page.sentExtras.map (fun e => sanitize e.1) ∧
      dto.selectedExtrasQty = page.sentExtras ∧
      dto.couponCode = page.appliedCoupon.map AppliedCoupon.code ∧ dto.voucherId = none ∧
      dto.redeemPoints = page.redeemRequest := by
  unfold BookingPage.request at h
  split at h
  · split at h
    · rw [← Option.some.inj h]
      exact ⟨rfl, rfl, rfl, rfl, rfl, rfl⟩
    · cases h
  · split at h
    · rw [← Option.some.inj h]
      exact ⟨rfl, rfl, rfl, rfl, rfl, rfl⟩
    · cases h

/-- An hourly page asks for the date and the slot chosen on it. -/
theorem BookingPage.request_hourly {page : BookingPage} {dto : CreateBookingDto}
    (hhourly : page.isHourly = true) (h : page.request = some dto) :
    ∃ date slot, page.selectedDate = some date ∧ page.selectedSlot = some slot ∧
      dto.checkInDate = date ∧ dto.slotTime = some slot ∧
      dto.slotEndTime = if (page.activity.durationValue.getD 0 : ℚ) < page.slotHours then
        page.selectedSlotEnd else none := by
  simp only [BookingPage.request, hhourly, if_true] at h
  split at h
  · rename_i date slot hdate hslot
    obtain rfl := Option.some.inj h
    exact ⟨date, slot, hdate, hslot, rfl, rfl, rfl⟩
  · cases h

/-- A daily page asks for the stay chosen on it. -/
theorem BookingPage.request_daily {page : BookingPage} {dto : CreateBookingDto}
    (hdaily : page.isHourly = false) (h : page.request = some dto) :
    ∃ checkIn checkOut, page.checkIn = some checkIn ∧ page.checkOut = some checkOut ∧
      dto.checkInDate = checkIn ∧ dto.checkOutDate = some checkOut := by
  simp only [BookingPage.request, hdaily, Bool.false_eq_true, if_false] at h
  split at h
  · rename_i checkIn checkOut hin hout
    obtain rfl := Option.some.inj h
    exact ⟨checkIn, checkOut, hin, hout, rfl, rfl⟩
  · cases h

/-! ## Rounding once and rounding twice -/

/-- A whole number comes out of the rounding. -/
theorem mathRound_intCast_add (n : Int) (x : ℚ) : mathRound (n + x) = n + mathRound x := by
  rw [mathRound, mathRound, add_assoc, Int.floor_intCast_add]

/-- How far an amount is from what it is rounded to. -/
def roundingError (x : ℚ) : ℚ := x - mathRound x

/-- The errors of rounding two amounts differ by so little that rounding keeps the difference. -/
def RoundTogether (x y : ℚ) : Prop :=
  -1 / 2 ≤ roundingError x - roundingError y ∧ roundingError x - roundingError y < 1 / 2

/-- When the rounding of a difference is the difference of the roundings. -/
theorem mathRound_sub_iff (x y : ℚ) :
    mathRound (x - y) = mathRound x - mathRound y ↔ RoundTogether x y := by
  unfold RoundTogether roundingError
  rw [mathRound, Int.floor_eq_iff]
  push_cast
  constructor
  · rintro ⟨hlow, hhigh⟩
    constructor <;> linarith
  · rintro ⟨hlow, hhigh⟩
    constructor <;> linarith

/-- A whole number rounds together with everything but an odd number of halves. -/
theorem roundTogether_intCast_iff (n : Int) (y : ℚ) :
    RoundTogether n y ↔ roundingError y ≠ -1 / 2 := by
  have hlow := Int.floor_le (y + 1 / 2)
  have hhigh := Int.lt_floor_add_one (y + 1 / 2)
  have hwhole : roundingError n = 0 := by
    rw [roundingError, mathRound_intCast, sub_self]
  rw [RoundTogether, hwhole]
  unfold roundingError mathRound
  constructor
  · rintro ⟨_, hlt⟩ heq
    linarith
  · intro hne
    refine ⟨by linarith, ?_⟩
    rcases lt_or_eq_of_le hlow with hlt | heq
    · linarith
    · exact absurd (by linarith) hne

theorem mathRound_min (n : Int) (x : ℚ) : mathRound (min n x) = min n (mathRound x) := by
  rcases le_total (n : ℚ) x with hle | hle
  · rw [min_eq_left hle, mathRound_intCast, min_eq_left (le_mathRound hle)]
  · rw [min_eq_right hle, min_eq_right (mathRound_le hle)]

/-- A coupon takes the same off the exact price and off the price in whole cents, unless it is a
percentage of a price that is not whole. -/
theorem previewDiscount_eq {coupon : Coupon} {price : ℚ}
    (h : coupon.discountType = .percentage → price = (toCents price).toNum) :
    previewDiscount coupon price = couponDiscountOf coupon (toCents price) := by
  unfold previewDiscount couponDiscountOf
  cases htype : coupon.discountType with
  | percentage =>
      have hexact := h htype
      generalize (toCents price).toNum = exact at hexact ⊢
      subst hexact
      rfl
  | fixed =>
      have hscale : min coupon.discountValue.toNum price * 100 =
          min (coupon.discountValue : ℚ) (price * 100) := by
        rw [min_mul_of_nonneg _ _ (by norm_num), Cents.toNum_mul]
      simp only [toCents, hscale]
      exact mathRound_min _ _

/-! ## The page and the database -/

/-- What of a coupon makes its discount. -/
def Coupon.terms (c : Coupon) : DiscountType × Cents × Option Cents :=
  (c.discountType, c.discountValue, c.maxDiscount)

/-- The discount shown depends on the terms of the coupon alone. -/
theorem previewDiscount_terms {c c' : Coupon} (h : c.terms = c'.terms) (price : ℚ) :
    previewDiscount c price = previewDiscount c' price := by
  simp only [Coupon.terms, Prod.mk.injEq] at h
  obtain ⟨htype, hvalue, hcap⟩ := h
  simp only [previewDiscount, htype, hvalue, hcap]

/-- It is never more than the price. -/
theorem previewDiscount_le {coupon : Coupon} (hc : coupon.ValidDiscount) {price : ℚ}
    (hprice : 0 ≤ price) : previewDiscount coupon price ≤ toCents price := by
  have hscale : ∀ {amount : ℚ}, amount ≤ price → toCents amount ≤ toCents price := by
    intro amount hle
    exact mathRound_mono (by linarith)
  unfold previewDiscount
  cases htype : coupon.discountType with
  | fixed => exact hscale (min_le_right _ _)
  | percentage =>
      have hpercent := hc.percent_le htype
      have hle : price * coupon.discountValue.toNum / 100 ≤ price := by
        have hmul := mul_le_mul_of_nonneg_left hpercent hprice
        linarith
      cases coupon.maxDiscount with
      | none => exact hscale hle
      | some cap => exact hscale ((min_le_left _ _).trans hle)

/-- The page shows the database `seen`, and until the booking is created in `db` nothing that
makes up its price has changed. -/
structure BookingPage.Shows (page : BookingPage) (seen db : Db) (p : PreparedBooking) : Prop where
  activity : seen.activities.find? page.activity.id = some page.activity
  booked : p.activity = page.activity
  fee : p.country.serviceFeeFixed = page.serviceFeeFixed
  days : ∀ d ∈ page.days, ∃ env now year mon days,
    getCalendarAvailability env now seen page.activity.id year mon none = .ok days ∧ d ∈ days
  coupon : ∀ c ∈ page.appliedCoupon, ∃ now code,
    validateCoupon now seen code page.activity.id page.bookingCost = .ok c
  loyalty : ∀ data ∈ page.loyaltyData, data.qarPerPoint = db.qarPerPoint
  specials : db.specialPrices = seen.specialPrices
  coupons : ∀ code, (findCoupon db code).map Coupon.terms =
    (findCoupon seen code).map Coupon.terms

/-- What the controls of the page let a customer choose: a range or a stay in the loaded months,
and of the paid extras each once, one or, per person, up to one for each guest. -/
structure BookingPage.Chosen (page : BookingPage) : Prop where
  date : page.isHourly = true → ∀ date ∈ page.selectedDate,
    ∃ d ∈ page.days, d.date.toDays = date.toDays
  stay : ∀ checkIn ∈ page.checkIn, ∀ i < page.nights,
    ∃ d ∈ page.days, d.date.toDays = checkIn.toDays + i
  once : (page.selectedExtras.map Prod.fst).Nodup
  extras : ∀ e ∈ page.selectedExtras, ∃ svc ∈ page.paidExtras, svc.name = e.1 ∧
    1 ≤ e.2 ∧ e.2 ≤ if svc.perPerson then page.guests else 1

variable {env : Env} {now before txNow : Instant} {seen db db' db₀ : Db} {page : BookingPage}
  {p : PreparedBooking} {b : Booking} {ref : String} {userId : Id}

/-- A day of the calendar has the price of its night. -/
theorem getCalendarAvailability_price {activity : Activity} {activityId : Id} {year mon : Int}
    {unitNumber : Option Nat} {days : List CalendarDay} {d : CalendarDay}
    (h : getCalendarAvailability env now db activityId year mon unitNumber = .ok days)
    (ha : db.activities.find? activityId = some activity) (hd : d ∈ days) :
    d.price = nightPrice db activity d.date.toDays := by
  simp only [getCalendarAvailability, bind_eq_ok, orThrow_eq_ok, ensure_eq_ok, pure_eq_ok] at h
  obtain ⟨a, hfound, _, _, rfl⟩ := h
  obtain ⟨hfind, _⟩ := Option.filter_eq_some_iff.mp hfound
  obtain rfl := Option.some.inj (ha.symm.trans hfind)
  obtain ⟨i, _, rfl⟩ := List.mem_map.mp hd
  rfl

/-- A shown day has the price of its night. -/
theorem BookingPage.Shows.priceByDate (h : page.Shows seen db p) {t : Int}
    (hin : ∃ d ∈ page.days, d.date.toDays = t) :
    page.priceByDate t = some (nightPrice db page.activity t).toNum := by
  have hsame : nightPrice db page.activity t = nightPrice seen page.activity t := by
    simp only [nightPrice, specialPriceOn, h.specials]
  unfold BookingPage.priceByDate
  cases hlast : (page.days.filter (fun day => day.date.toDays = t)).getLast? with
  | none =>
      rw [List.getLast?_eq_none_iff, List.filter_eq_nil_iff] at hlast
      obtain ⟨d, hd, hdate⟩ := hin
      exact absurd (decide_eq_true hdate) (hlast d hd)
  | some d =>
      obtain ⟨hd, hdate⟩ := List.mem_filter.mp (List.mem_of_getLast? hlast)
      obtain ⟨env, now, year, mon, days, hdays, hmem⟩ := h.days d hd
      have hprice := getCalendarAvailability_price hdays h.activity hmem
      rw [of_decide_eq_true hdate] at hprice
      rw [Option.map_some, hprice, hsame]

/-! ## The base price -/

/-- A sum of cents, in units. -/
theorem sum_toNum (l : List Cents) : (l.map Cents.toNum).sum * 100 = (l.sum : ℚ) := by
  induction l with
  | nil => simp
  | cons c l ih =>
      rw [List.map_cons, List.sum_cons, List.sum_cons, add_mul, ih, Cents.toNum_mul]
      push_cast
      ring

/-- **The nights of a stay cost the same on both sides**, to the cent. -/
theorem BookingPage.Shows.baseCost_daily (h : page.Shows seen db p) (hc : page.Chosen)
    (hdaily : page.activity.bookingType = .daily)
    (hprepared : prepareBooking env before db₀ userId p.dto = .ok (some p))
    (hrequest : page.request = some p.dto) :
    page.baseCost * 100 = (basePriceCents db p : ℚ) := by
  have hhourly : page.isHourly = false := by simp [BookingPage.isHourly, hdaily]
  obtain ⟨checkIn, checkOut, hin, hout, hdates⟩ := BookingPage.request_daily hhourly hrequest
  obtain ⟨_, checkOut', hout', hlt⟩ := prepareBooking_daily hprepared (h.booked ▸ hdaily)
  obtain rfl := Option.some.inj (hdates.2.symm.trans hout')
  rw [hdates.1] at hlt
  have hnights : page.nights = nightCount checkIn checkOut := by
    simp only [BookingPage.nights, hin, hout]
  have hpos : 0 < page.nights := by
    rw [hnights, nightCount]
    omega
  have hnight : ∀ i ∈ List.range page.nights,
      (page.priceByDate (checkIn.toDays + i)).getD page.price =
        (nightPrice db page.activity (checkIn.toDays + i)).toNum := by
    intro i hi
    rw [h.priceByDate (hc.stay checkIn hin i (List.mem_range.mp hi))]
    rfl
  have hmax : max 1 page.nights = page.nights := by omega
  have hbase : basePriceCents db p = ((List.range page.nights).map (fun i : Nat =>
      nightPrice db page.activity (checkIn.toDays + i))).sum := by
    simp only [basePriceCents, h.booked, hdaily, hdates, Option.getD_some, dailyPriceCents,
      ← hnights, hmax]
    refine congrArg List.sum (List.map_congr_left fun i _ => ?_)
    unfold nightPrice CivilDate.midnight
    rw [add_mul]
  simp only [BookingPage.baseCost, hhourly, Bool.false_eq_true, if_false, hin, hpos, if_true]
  rw [List.map_congr_left hnight, hbase, ← sum_toNum, List.map_map]
  rfl

/-- The window of a prepared range: its length in minutes, and where it ends. -/
structure RangeWindow (p : PreparedBooking) (slot : ClockTime) (durationValue span : Nat) :
    Prop where
  slotted : p.dto.slotTime = some slot
  duration : p.activity.durationValue = some durationValue
  positive : durationValue ≠ 0
  length : p.endDatetime - p.startDatetime = span * minute
  ends : (p.dto.slotEndTime = none ∧ span = durationValue * 60) ∨
    ∃ slotEnd hours, p.dto.slotEndTime = some slotEnd ∧ slotEnd.val = slot.val + span ∧
      span = hours * 60

/-- An accepted hourly request has a window of slots. -/
theorem prepareBooking_hourly
    (h : prepareBooking env before db₀ userId p.dto = .ok (some p))
    (hhourly : p.activity.bookingType = .hourly) :
    ∃ slot durationValue span, RangeWindow p slot durationValue span := by
  obtain ⟨tz, hwindow⟩ : ∃ tz, hourlyWindow env before p.activity tz p.dto =
      .ok (p.startDatetime, p.endDatetime) := by
    unfold prepareBooking at h
    split at h
    · cases pure_eq_ok.mp h
    simp only [bind_eq_ok, orThrow_eq_ok, ensure_eq_ok, pure_eq_ok] at h
    obtain ⟨_, _, _, _, activity, _, _, _, country, _, _, _, _, _, _, _, _, _, _, _, _, _, window,
      hwindow, _, _, _, _, hp⟩ := h
    have hp := Option.some.inj hp
    have hactivity : activity = p.activity := congrArg PreparedBooking.activity hp
    have hstart : window.1 = p.startDatetime := congrArg PreparedBooking.startDatetime hp
    have hend : window.2 = p.endDatetime := congrArg PreparedBooking.endDatetime hp
    rw [hactivity] at hwindow
    simp only [bookingWindow, hhourly] at hwindow
    exact ⟨_, hwindow.trans (congrArg Except.ok (Prod.ext hstart hend))⟩
  simp only [hourlyWindow, bind_eq_ok, orThrow_eq_ok, ensure_eq_ok, pure_eq_ok] at hwindow
  obtain ⟨slot, hslot, _, _, _, _, durationValue, hduration, _, _, slotEndMins, hends, _, _, _, _,
    _, _, htimes⟩ := hwindow
  obtain ⟨hduration, hpositive⟩ := Option.filter_eq_some_iff.mp hduration
  have hpositive := of_decide_eq_true hpositive
  obtain ⟨hstart, hend⟩ := Prod.mk.inj htimes
  have hlength : ∀ span : Nat, slotEndMins = slot.val + span →
      p.endDatetime - p.startDatetime = span * minute := by
    intro span hspan
    rw [← hstart, ← hend, hspan, buildDatetime, buildDatetime]
    push_cast
    ring
  cases hslotEnd : p.dto.slotEndTime with
  | none =>
      rw [hslotEnd] at hends
      obtain rfl := pure_eq_ok.mp hends
      exact ⟨slot, durationValue, durationValue * 60, hslot, hduration, hpositive,
        hlength _ rfl, .inl ⟨hslotEnd, rfl⟩⟩
  | some slotEnd =>
      rw [hslotEnd] at hends
      simp only [bind_eq_ok, ensure_eq_ok, pure_eq_ok] at hends
      obtain ⟨_, _, _, hlt, _, hwhole, _, _, _, _, rfl⟩ := hends
      have hhours : slotEnd.val = slot.val + (slotEnd.val - slot.val) / 60 * 60 := by
        have hlt' : slot.val < slotEnd.val := hlt
        omega
      exact ⟨slot, durationValue, (slotEnd.val - slot.val) / 60 * 60, hslot, hduration,
        hpositive, hlength _ hhours, .inr ⟨slotEnd, _, hslotEnd, hhours, rfl⟩⟩

theorem BookingPage.le_slotHours (page : BookingPage) :
    (page.activity.durationValue.getD 0 : ℚ) ≤ page.slotHours := by
  unfold BookingPage.slotHours
  split
  · simp only
    split
    · exact le_rfl
    · exact le_max_left _ _
  · exact le_rfl

/-- The chosen range is no longer than the page counts. -/
def BookingPage.WithinCap (page : BookingPage) : Prop :=
  ∀ slot ∈ page.selectedSlot, ∀ slotEnd ∈ page.selectedSlotEnd,
    ∀ durationValue ∈ page.activity.durationValue,
      slotEnd.val ≤ slot.val + MAX_SLOT_UNITS_CLIENT * durationValue * 60

/-- **The hours of a range are the same on both sides** within the page's cap. -/
theorem BookingPage.slotHours_eq (hcap : page.WithinCap)
    {slot : ClockTime} {durationValue span : Nat} (hw : RangeWindow p slot durationValue span)
    (hbooked : p.activity = page.activity) (hhourly : page.isHourly = true)
    (hrequest : page.request = some p.dto) :
    max (durationValue : ℚ) page.slotHours = (max (durationValue : Int) (span / 60) : Int) := by
  have hduration : page.activity.durationValue = some durationValue := hbooked ▸ hw.duration
  have hhours : ∀ hours : Nat, span = hours * 60 → (span : Int) / 60 = hours := by
    intro hours hspan
    omega
  obtain ⟨_, slot', _, hslot, _, hslotted, hends⟩ := BookingPage.request_hourly hhourly hrequest
  obtain rfl := Option.some.inj (hslotted.symm.trans hw.slotted)
  have hbaseline := page.le_slotHours
  rw [hduration, Option.getD_some] at hends hbaseline
  rcases hw.ends with ⟨hnone, hspan⟩ | ⟨slotEnd, hours, hsome, hend, hspan⟩
  · -- no end is sent when the range is the baseline
    have hslotHours : page.slotHours = durationValue := by
      by_cases hlong : (durationValue : ℚ) < page.slotHours
      · rw [if_pos hlong, hnone] at hends
        simp [BookingPage.slotHours, hslot, ← hends, hduration]
      · exact le_antisymm (not_lt.mp hlong) hbaseline
    rw [hhours durationValue hspan, hslotHours, max_self, max_self]
    norm_cast
  · rw [hsome] at hends
    split at hends
    · have hpositive : ¬ (durationValue : ℚ) ≤ 0 := by
        have hpos := Nat.pos_of_ne_zero hw.positive
        exact not_le.mpr (by exact_mod_cast hpos)
      have hrange : ((slotEnd.val : ℚ) - slot'.val) / 60 = hours := by
        rw [hend, hspan]
        push_cast
        ring
      have hwithin : (hours : ℚ) ≤ MAX_SLOT_UNITS_CLIENT * durationValue := by
        have hbound := hcap _ hslot slotEnd hends.symm durationValue hduration
        have hle : hours ≤ MAX_SLOT_UNITS_CLIENT * durationValue := by omega
        exact_mod_cast hle
      have hslotHours : page.slotHours = max (durationValue : ℚ) hours := by
        simp only [BookingPage.slotHours, hslot, ← hends, hduration, Option.getD_some,
          if_neg hpositive, hrange, min_eq_left hwithin]
      rw [hhours hours hspan, hslotHours, ← max_assoc, max_self]
      norm_cast
    · cases hends

/-- The price of a range times the hours that the stored price is for. -/
def rangeProduct (db : Db) (p : PreparedBooking) : Int :=
  nightPrice db p.activity p.dto.checkInDate.toDays *
    max (p.activity.durationValue.getD 1 : Int) ((p.endDatetime - p.startDatetime) / hour) *
    if p.activity.pricingModel = .perUnit then (1 : Int) else p.dto.guests

/-- A range has a whole number of hours. -/
theorem RangeWindow.hours_eq {slot : ClockTime} {durationValue span : Nat}
    (hw : RangeWindow p slot durationValue span) :
    mathRound (((p.endDatetime - p.startDatetime : Int) : ℚ) / (hour : ℚ)) = (span : Int) / 60 ∧
      (p.endDatetime - p.startDatetime) / hour = (span : Int) / 60 := by
  obtain ⟨hours, hspan⟩ : ∃ hours : Nat, span = hours * 60 := by
    rcases hw.ends with ⟨_, hspan⟩ | ⟨_, hours, _, _, hspan⟩
    · exact ⟨_, hspan⟩
    · exact ⟨hours, hspan⟩
  have hlength : p.endDatetime - p.startDatetime = (hours : Int) * hour := by
    rw [hw.length, hspan, hour]
    push_cast
    ring
  have hspan' : (span : Int) / 60 = hours := by omega
  have hpos : hour ≠ 0 := by decide
  have hpos' : (hour : ℚ) ≠ 0 := by exact_mod_cast hpos
  rw [hlength, hspan', Int.mul_ediv_cancel _ hpos, Int.cast_mul, mul_div_cancel_right₀ _ hpos']
  exact ⟨mathRound_intCast _, rfl⟩

/-- **A range has the same exact price on both sides**, and the server rounds it, when its date
has one override at most. -/
theorem BookingPage.Shows.baseCost_hourly (h : page.Shows seen db p) (hc : page.Chosen)
    (hcap : page.WithinCap)
    (hsole : ∀ date ∈ page.selectedDate,
      firstSpecialPriceOn db page.activity.id date.midnight =
        specialPriceOn db page.activity.id date.midnight)
    (htype : page.activity.bookingType = .hourly)
    (hprepared : prepareBooking env before db₀ userId p.dto = .ok (some p))
    (hrequest : page.request = some p.dto) :
    page.baseCost * 100 = (rangeProduct db p : ℚ) / (p.activity.durationValue.getD 1 : Nat) ∧
      basePriceCents db p =
        mathRound ((rangeProduct db p : ℚ) / (p.activity.durationValue.getD 1 : Nat)) := by
  have hhourly : page.isHourly = true := by simp [BookingPage.isHourly, htype]
  obtain ⟨slot, durationValue, span, hw⟩ := prepareBooking_hourly hprepared (h.booked ▸ htype)
  have hhours := page.slotHours_eq hcap hw h.booked hhourly hrequest
  have hduration : page.activity.durationValue = some durationValue := h.booked ▸ hw.duration
  have hpos : (0 : ℚ) < durationValue := by
    have := Nat.pos_of_ne_zero hw.positive
    exact_mod_cast this
  obtain ⟨date, _, hdate, _, hin, _⟩ := BookingPage.request_hourly hhourly hrequest
  obtain ⟨hguests, _⟩ := BookingPage.request_body hrequest
  have heffective : page.effectivePrice = (nightPrice db page.activity date.toDays).toNum := by
    simp only [BookingPage.effectivePrice, BookingPage.priceLookupDate, hhourly, if_true, hdate,
      Option.bind_some, h.priceByDate (hc.date hhourly date hdate), Option.getD_some]
  have hfirst : (firstSpecialPriceOn db page.activity.id date.midnight).getD
      page.activity.pricePerPerson = nightPrice db page.activity date.toDays := by
    rw [hsole date hdate]
    rfl
  obtain ⟨hround, hlength⟩ := hw.hours_eq
  have hproduct : rangeProduct db p = nightPrice db page.activity date.toDays *
      max (durationValue : Int) ((span : Int) / 60) *
        if page.activity.pricingModel = .perUnit then (1 : Int) else page.guests := by
    simp only [rangeProduct, h.booked, hin, hduration, Option.getD_some, hlength, hguests]
  constructor
  · rw [hproduct, h.booked, hduration, Option.getD_some]
    simp only [BookingPage.baseCost, hhourly, if_true, hduration, Option.getD_some, hhours, hpos,
      heffective]
    generalize max (durationValue : Int) ((span : Int) / 60) = hours
    have hnum := Cents.toNum_mul (nightPrice db page.activity date.toDays)
    split
    · push_cast
      rw [← hnum]
      field_simp
    · push_cast
      rw [← hnum]
      field_simp
  · rw [hproduct]
    simp only [basePriceCents, h.booked, htype, hourlyPriceCents, hin, hfirst, hduration,
      Option.getD_some, hguests, hround]

/-! ## The extras -/

/-- What a choice of extras makes of one service. -/
def extraCost (chosen : List (String × Nat)) (svc : ExtraService) : ℚ :=
  match chosen.lookup svc.name with
  | some qty => svc.price * qty
  | none => 0

/-- The only paid service of a name, ignoring case. -/
def OnlyNamed (paid : List ExtraService) (name : String) (svc : ExtraService) : Prop :=
  paid.filter (fun s => s.name.toLower = name.toLower) = [svc]

/-- A service of that name is that service. -/
theorem OnlyNamed.eq {paid : List ExtraService} {name : String} {svc other : ExtraService}
    (h : OnlyNamed paid name svc) (hmem : other ∈ paid)
    (hsame : other.name.toLower = name.toLower) : other = svc := by
  have hfilter : other ∈ paid.filter (fun s => s.name.toLower = name.toLower) :=
    List.mem_filter.mpr ⟨hmem, decide_eq_true hsame⟩
  rw [h] at hfilter
  exact List.mem_singleton.mp hfilter

/-- So `findExtra` finds it. -/
theorem OnlyNamed.findExtra_eq {services : List ExtraService} {name : String}
    {svc : ExtraService} (h : OnlyNamed (services.filter (fun s => 0 < s.price)) name svc) :
    findExtra services name = some svc := by
  have hfilter : services.filter (fun s => s.price > 0 ∧ s.name.toLower = name.toLower) =
      [svc] := by
    rw [← h, List.filter_filter]
    refine List.filter_congr fun s _ => ?_
    simp [Bool.and_comm]
  rw [findExtra, ← List.head?_filter, List.filter_reverse, hfilter]
  rfl

/-- One more extra adds its cost. -/
theorem sum_extraCost_cons {paid : List ExtraService} {chosen : List (String × Nat)}
    {svc : ExtraService} {qty : Nat} (honly : OnlyNamed paid svc.name svc)
    (hnew : svc.name ∉ chosen.map Prod.fst) :
    (paid.map (extraCost ((svc.name, qty) :: chosen))).sum =
      svc.price * qty + (paid.map (extraCost chosen)).sum := by
  have hnone : chosen.lookup svc.name = none := by
    rw [List.lookup_eq_none_iff]
    intro e he
    rw [bne_iff_ne]
    intro hsame
    exact hnew (hsame ▸ List.mem_map_of_mem he)
  obtain ⟨before, after, rfl, hbefore, _, hafter⟩ := List.filter_eq_cons_iff.mp honly
  rw [List.filter_eq_nil_iff] at hafter
  have hother : ∀ s : ExtraService, ¬ decide (s.name.toLower = svc.name.toLower) = true →
      extraCost ((svc.name, qty) :: chosen) s = extraCost chosen s := by
    intro s hne
    have hbeq : (s.name == svc.name) = false := by
      rw [beq_eq_false_iff_ne]
      intro hsame
      exact hne (decide_eq_true (congrArg String.toLower hsame))
    simp only [extraCost, List.lookup_cons, hbeq]
  have hleft : before.map (extraCost ((svc.name, qty) :: chosen)) =
      before.map (extraCost chosen) :=
    List.map_congr_left fun s hs => hother s (hbefore s hs)
  have hright : after.map (extraCost ((svc.name, qty) :: chosen)) =
      after.map (extraCost chosen) :=
    List.map_congr_left fun s hs => hother s (hafter s hs)
  have hown : extraCost ((svc.name, qty) :: chosen) svc = svc.price * qty := by
    simp [extraCost]
  have hzero : extraCost chosen svc = 0 := by
    simp [extraCost, hnone]
  simp only [List.map_append, List.map_cons, List.sum_append, List.sum_cons, hleft, hright, hown,
    hzero]
  ring

/-- In a list without equal keys an entry is found under its key. -/
theorem lookup_eq_of_mem {l : List (String × Nat)} (honce : (l.map Prod.fst).Nodup)
    {e : String × Nat} (he : e ∈ l) : l.lookup e.1 = some e.2 := by
  obtain ⟨before, after, rfl⟩ := List.append_of_mem he
  rw [List.map_append, List.map_cons, List.nodup_append] at honce
  refine List.lookup_eq_some_iff.mpr ⟨before, after, rfl, ?_⟩
  intro other hother
  rw [bne_iff_ne]
  intro hsame
  exact honce.2.2 _ (List.mem_map_of_mem hother) _ List.mem_cons_self hsame.symm

/-- What the page offers for a service is what the server takes: its quantity is within the
bounds. -/
theorem extraQty_chosen {dto : CreateBookingDto} {svc : ExtraService} {e : String × Nat}
    (honce : (dto.selectedExtrasQty.map Prod.fst).Nodup) (he : e ∈ dto.selectedExtrasQty)
    (hmin : 1 ≤ e.2) (hmax : e.2 ≤ if svc.perPerson then dto.guests else 1) :
    extraQty dto e.1 svc = e.2 := by
  unfold extraQty
  rw [lookup_eq_of_mem honce he]
  split at hmax
  · rename_i hperson
    simp only [hperson, if_true, Option.some_or]
    omega
  · rename_i hperson
    rw [if_neg hperson]
    omega

/-- The extras of a request cost what the page adds up for them, where the names it can choose
tell the services apart and the prices are in whole cents. -/
theorem resolveExtras_sum {dto : CreateBookingDto} {services : List ExtraService}
    (hgrid : ∀ s ∈ services, ∃ c : Int, s.price * 100 = c)
    (honce : (dto.selectedExtrasQty.map Prod.fst).Nodup) {chosen : List (String × Nat)}
    (hnew : (chosen.map Prod.fst).Nodup) (hsent : ∀ e ∈ chosen, e ∈ dto.selectedExtrasQty)
    (hoffered : ∀ e ∈ chosen, ∃ svc ∈ services.filter (fun s => 0 < s.price), svc.name = e.1 ∧
      1 ≤ e.2 ∧ e.2 ≤ if svc.perPerson then dto.guests else 1)
    (honly : ∀ e ∈ chosen, ∃ svc, OnlyNamed (services.filter (fun s => 0 < s.price)) e.1 svc)
    {seen : List String} {extras : List SelectedExtra}
    (hseen : ∀ e ∈ chosen, e.1.toLower ∉ seen)
    (h : resolveExtras dto services seen (chosen.map Prod.fst) = .ok extras) :
    ((services.filter (fun s => 0 < s.price)).map (extraCost chosen)).sum * 100 =
      (extrasCents extras : ℚ) := by
  induction chosen generalizing seen extras with
  | nil =>
      obtain rfl := Except.ok.inj h
      rw [List.sum_eq_zero]
      · simp [extrasCents]
      · intro cost hcost
        obtain ⟨svc, _, rfl⟩ := List.mem_map.mp hcost
        rfl
  | cons e chosen ih =>
      obtain ⟨svc, hsvc, hname, hmin, hmax⟩ := hoffered e List.mem_cons_self
      obtain ⟨hfresh, hnew⟩ := List.nodup_cons.mp hnew
      have honlySvc : OnlyNamed (services.filter (fun s => 0 < s.price)) svc.name svc := by
        obtain ⟨only, honlyName⟩ := honly e List.mem_cons_self
        rw [← hname] at honlyName
        rwa [← honlyName.eq hsvc rfl] at honlyName
      rw [List.map_cons, resolveExtras, if_neg (hseen e List.mem_cons_self)] at h
      simp only [bind_eq_ok, orThrow_eq_ok, pure_eq_ok, ← hname,
        honlySvc.findExtra_eq] at h
      obtain ⟨_, hfound, rest, hrest, rfl⟩ := h
      obtain rfl := Option.some.inj hfound
      have hseen' : ∀ e' ∈ chosen, e'.1.toLower ∉ svc.name.toLower :: seen := by
        intro e' he' hmem
        rcases List.mem_cons.mp hmem with hsame | hmem
        · obtain ⟨other, hother, hname', _⟩ := hoffered e' (List.mem_cons_of_mem _ he')
          rw [← hname'] at hsame
          have hsvcs := honlySvc.eq hother hsame
          refine hfresh ?_
          rw [← hname, ← hsvcs, hname']
          exact List.mem_map_of_mem he'
        · exact hseen e' (List.mem_cons_of_mem _ he') hmem
      have hcosts := ih hnew (fun e' he' => hsent e' (List.mem_cons_of_mem _ he'))
        (fun e' he' => hoffered e' (List.mem_cons_of_mem _ he'))
        (fun e' he' => honly e' (List.mem_cons_of_mem _ he')) hseen' hrest
      have hqty := extraQty_chosen honce (hsent e List.mem_cons_self) hmin hmax
      obtain ⟨cents, hcents⟩ := hgrid svc (List.mem_filter.mp hsvc).1
      have hown : mathRound (svc.price * e.2 * 100) = cents * e.2 := by
        have hexact : svc.price * e.2 * 100 = ((cents * e.2 : Int) : ℚ) := by
          push_cast
          rw [← hcents]
          ring
        rw [hexact, mathRound_intCast]
      have hpair : e = (svc.name, e.2) := Prod.ext hname.symm rfl
      rw [hname, hqty]
      rw [hpair, sum_extraCost_cons honlySvc (hname ▸ hfresh), add_mul, hcosts]
      simp only [extrasCents, List.map_cons, List.sum_cons, hown]
      push_cast
      rw [← hcents]
      ring

/-- **The extras cost the same on both sides**, to the cent. -/
theorem BookingPage.Shows.extrasTotal_eq (h : page.Shows seen db p) (hc : page.Chosen)
    (hnames : ∀ e ∈ page.selectedExtras, sanitize e.1 = e.1)
    (honly : ∀ e ∈ page.selectedExtras, ∃ svc, OnlyNamed page.paidExtras e.1 svc)
    (hgrid : ∀ s ∈ page.activity.extraServices.getD [], ∃ c : Int, s.price * 100 = c)
    (hrequest : page.request = some p.dto) {extras : List SelectedExtra}
    (hextras : selectExtras p.activity p.dto = .ok extras) :
    page.extrasTotal * 100 = (extrasCents extras : ℚ) := by
  obtain ⟨hguests, hselected, hqty, _⟩ := BookingPage.request_body hrequest
  have hsent : page.sentExtras = page.selectedExtras := by
    rw [BookingPage.sentExtras, List.filter_eq_self]
    intro e he
    obtain ⟨_, _, _, hmin, _⟩ := hc.extras e he
    exact decide_eq_true hmin
  have hplain : p.dto.selectedExtras = page.selectedExtras.map Prod.fst := by
    rw [hselected, hsent]
    exact List.map_congr_left hnames
  rw [hsent] at hqty
  change (page.paidExtras.map (extraCost page.selectedExtras)).sum * 100 = _
  have hoffered := hc.extras
  simp only [selectExtras, h.booked, hplain] at hextras
  unfold BookingPage.paidExtras at honly hoffered ⊢
  cases hservices : page.activity.extraServices with
  | none =>
      rw [hservices] at hextras
      obtain rfl := Except.ok.inj hextras
      simp [extrasCents]
  | some services =>
      rw [hservices] at hextras
      rw [hservices, Option.getD_some] at honly hoffered hgrid
      rw [← hguests] at hoffered
      refine resolveExtras_sum hgrid ?_ hc.once ?_ hoffered honly ?_ hextras
      · rw [hqty]
        exact hc.once
      · intro e he
        rw [hqty]
        exact he
      · intro e _ hmem
        cases hmem

/-! ## The coupon -/

/-- The characters of a code are their own upper case. -/
theorem isCodeChar_toUpper {c : Char} (h : isCodeChar c = true) : c.toUpper = c := by
  have h := of_decide_eq_true h
  simp only [Char.isUpper, Char.isDigit, Char.ext_iff] at h
  unfold Char.toUpper
  split
  · rename_i hlower
    exfalso
    obtain ⟨hlow, _⟩ := hlower
    rcases h with hupper | hdigit | hline | hdash
    · have hhigh := (of_decide_eq_true hupper).2
      exact absurd (UInt32.le_trans hlow hhigh) (by decide)
    · have hhigh := of_decide_eq_true (Bool.and_eq_true_iff.mp hdigit).2
      exact absurd (UInt32.le_trans hlow hhigh) (by decide)
    · rw [hline] at hlow
      exact absurd hlow (by decide)
    · rw [hdash] at hlow
      exact absurd hlow (by decide)
  · rfl

theorem toUpper_eq_of_code {code : String} (h : code.toList.all isCodeChar = true) :
    code.toUpper = code := by
  apply String.toList_injective
  rw [String.toUpper, String.toList_map]
  refine (List.map_congr_left fun c hc => ?_).trans (List.map_id _)
  exact isCodeChar_toUpper (List.all_eq_true.mp h c hc)

/-- A code that has passed `validate-coupon` is the stored code, in upper case, and the discount
is the one of its coupon. -/
theorem validateCoupon_ok {code : String} {activityId : Id} {amount : ℚ} {c : AppliedCoupon}
    (h : validateCoupon now seen code activityId amount = .ok c) :
    ∃ coupon, findCoupon seen c.code = some coupon ∧ c.code.toUpper = c.code ∧
      c.discount = previewDiscount coupon amount := by
  simp only [validateCoupon, bind_eq_ok, orThrow_eq_ok, ensure_eq_ok, pure_eq_ok] at h
  obtain ⟨_, _, _, ⟨_, hformat⟩, coupon, hfound, _, _, _, _, _, _, _, _, _, _, _, _, _, _, _, _,
    rfl⟩ := h
  have hcode : coupon.code = String.ofList (trimSpace code.toUpper.toList) := by
    have hsame := (Table.first?_eq_some hfound).2
    exact of_decide_eq_true hsame
  refine ⟨coupon, ?_, ?_, rfl⟩
  · rw [hcode]
    exact hfound
  · rw [hcode]
    exact toUpper_eq_of_code hformat

/-- The coupon of the page takes the same off the exact price and off the price in cents; a fixed
amount always does. -/
def BookingPage.CouponAgrees (page : BookingPage) (db : Db) : Prop :=
  ∀ c ∈ page.appliedCoupon, ∀ coupon ∈ findCoupon db c.code,
    previewDiscount coupon page.bookingCost = couponDiscountOf coupon (toCents page.bookingCost)

/-- At a price of whole cents page and server agree on the coupon. -/
theorem BookingPage.couponAgrees_of_whole
    (h : page.bookingCost = (toCents page.bookingCost).toNum) : page.CouponAgrees db := by
  intro c _ coupon _
  exact previewDiscount_eq fun _ => h

/-- **The coupon takes the same off on both sides** exactly when it agrees on the exact price. -/
theorem BookingPage.Shows.couponPart_eq (h : page.Shows seen db p) (hvalid : ValidSettings db)
    (hcost : 0 ≤ page.bookingCost) (hrequest : page.request = some p.dto) {code : Option String}
    {discount : Cents} (hdiscount : applyDiscount txNow db p (toCents page.bookingCost) =
      .ok (db', code, discount)) :
    ∃ shown : Cents, page.couponPart = shown.toNum ∧ shown ≤ toCents page.bookingCost ∧
      (shown = discount ↔ page.CouponAgrees db) := by
  obtain ⟨_, _, _, hcoupon, hvoucher, _⟩ := BookingPage.request_body hrequest
  unfold applyDiscount at hdiscount
  cases happlied : page.appliedCoupon with
  | none =>
      rw [happlied, Option.map_none] at hcoupon
      simp only [hcoupon, hvoucher] at hdiscount
      obtain ⟨_, _, rfl⟩ := Prod.ext_iff.mp (Except.ok.inj hdiscount)
      refine ⟨0, by simp [BookingPage.couponPart, happlied, Cents.toNum], toCents_nonneg hcost, ?_⟩
      simp [BookingPage.CouponAgrees, happlied]
  | some c =>
      rw [happlied, Option.map_some] at hcoupon
      simp only [hcoupon, hvoucher, bind_eq_ok, pure_eq_ok] at hdiscount
      obtain ⟨⟨_, _, _⟩, happly, heq⟩ := hdiscount
      obtain ⟨rfl, _, rfl⟩ := by simpa only [Prod.mk.injEq] using heq
      simp only [applyCouponCode, bind_eq_ok, orThrow_eq_ok, ensure_eq_ok, pure_eq_ok] at happly
      obtain ⟨coupon, hfound, _, _, _, _, _, _, _, _, _, _, _, _, _, _, _, _, _, _, heq⟩ := happly
      obtain ⟨_, _, rfl⟩ := by simpa only [Prod.mk.injEq] using heq
      obtain ⟨_, _, hvalidated⟩ := h.coupon c happlied
      obtain ⟨stored, hstored, hupper, hdiscount⟩ := validateCoupon_ok hvalidated
      rw [hupper] at hfound
      have hterms : stored.terms = coupon.terms := by
        have hsame := h.coupons c.code
        rw [hfound, hstored] at hsame
        exact (Option.some.inj hsame).symm
      rw [previewDiscount_terms hterms] at hdiscount
      have hcoupon := hvalid.coupon coupon (List.mem_of_find?_eq_some hfound)
      refine ⟨c.discount, ?_, ?_, ?_⟩
      · rw [BookingPage.couponPart, happlied, Option.map_some, Option.getD_some]
      · rw [hdiscount]
        exact previewDiscount_le hcoupon hcost
      · simp [BookingPage.CouponAgrees, happlied, hfound, hdiscount]

/-! ## The price before points -/

/-- The names, the range and the overrides mean the same on both sides: the chosen extras survive
sanitising and are the only ones of their names, the range is within the page's cap, and its
date has one override at most, or equal ones. -/
structure BookingPage.Plain (page : BookingPage) (db : Db) : Prop where
  names : ∀ e ∈ page.selectedExtras, sanitize e.1 = e.1
  only : ∀ e ∈ page.selectedExtras, ∃ svc, OnlyNamed page.paidExtras e.1 svc
  cap : page.isHourly = true → page.WithinCap
  sole : page.isHourly = true → ∀ date ∈ page.selectedDate,
    firstSpecialPriceOn db page.activity.id date.midnight =
      specialPriceOn db page.activity.id date.midnight

/-- The exact price of a range comes to whole cents; the one of a stay always does. -/
def WholePrice (db : Db) (p : PreparedBooking) : Prop :=
  p.activity.bookingType = .hourly →
    ((p.activity.durationValue.getD 1 : Nat) : Int) ∣ rangeProduct db p

/-- Adding whole cents and rounding commute. -/
theorem toCents_add_toNum (x : ℚ) (c : Cents) : toCents (x + c.toNum) = toCents x + c := by
  rw [toCents, toCents, add_mul, Cents.toNum_mul, add_comm (x * 100), mathRound_intCast_add,
    add_comm]

/-- **The price before the coupon is the same on both sides** once it is rounded, and before
that when it is in whole cents. -/
theorem BookingPage.Shows.bookingCost_eq (h : page.Shows seen db p) (hc : page.Chosen)
    (hplain : page.Plain db)
    (hgrid : ∀ s ∈ page.activity.extraServices.getD [], ∃ c : Int, s.price * 100 = c)
    (hprepared : prepareBooking env before db₀ userId p.dto = .ok (some p))
    (hrequest : page.request = some p.dto) {extras : List SelectedExtra}
    (hextras : selectExtras p.activity p.dto = .ok extras) :
    toCents page.bookingCost = basePriceCents db p + extrasCents extras ∧
      (WholePrice db p → page.bookingCost = (toCents page.bookingCost).toNum) := by
  have hcost := h.extrasTotal_eq hc hplain.names hplain.only hgrid hrequest hextras
  have hextra : page.extrasTotal = (extrasCents extras).toNum := by
    unfold Cents.toNum
    linarith
  have hround : toCents page.bookingCost = toCents page.baseCost + extrasCents extras := by
    rw [BookingPage.bookingCost, hextra, toCents_add_toNum]
  -- the rounding of the whole price is the rounding of its base
  have hwhole : page.baseCost = (toCents page.baseCost).toNum →
      page.bookingCost = (toCents page.bookingCost).toNum := by
    intro hbase
    rw [hround]
    unfold Cents.toNum at hbase hextra ⊢
    rw [BookingPage.bookingCost, hextra]
    push_cast
    linarith
  cases htype : page.activity.bookingType with
  | daily =>
      have hbase := h.baseCost_daily hc htype hprepared hrequest
      have hgridded : toCents page.baseCost = basePriceCents db p := toCents_grid hbase
      refine ⟨by rw [hround, hgridded], fun _ => hwhole ?_⟩
      rw [hgridded]
      unfold Cents.toNum
      linarith
  | hourly =>
      have hhourly : page.isHourly = true := by simp [BookingPage.isHourly, htype]
      obtain ⟨hexact, hserver⟩ := h.baseCost_hourly hc (hplain.cap hhourly) (hplain.sole hhourly)
        htype hprepared hrequest
      have hrounded : toCents page.baseCost = basePriceCents db p := by
        rw [toCents, hexact, hserver]
      refine ⟨by rw [hround, hrounded], fun hdivides => hwhole ?_⟩
      obtain ⟨cents, hcents⟩ := hdivides (h.booked ▸ htype)
      rw [hcents] at hexact
      have hduration : ((p.activity.durationValue.getD 1 : Nat) : ℚ) ≠ 0 := by
        obtain ⟨_, durationValue, _, hw⟩ := prepareBooking_hourly hprepared (h.booked ▸ htype)
        rw [hw.duration, Option.getD_some]
        exact_mod_cast hw.positive
      have hgridded : page.baseCost * 100 = (cents : ℚ) := by
        rw [hexact]
        push_cast
        field_simp
      rw [toCents_grid hgridded]
      unfold Cents.toNum
      linarith

/-! ## The points -/

/-- The points asked for cover the exact price and the price in cents alike and, if they do not,
the price and what they are worth round together. -/
def BookingPage.PointsAgree (page : BookingPage) (rate : ℚ) (price : Cents)
    (redeemPoints : Option ℚ) : Prop :=
  ∀ points ∈ redeemPoints,
    (page.activityPayable ≤ points * rate ↔ price.toNum ≤ points * rate) ∧
      (points * rate < price.toNum →
        RoundTogether (page.bookingCost * 100) (points * rate * 100))

/-- The points asked for are worth an odd number of half cents. -/
def HalfCent (rate : ℚ) (redeemPoints : Option ℚ) : Prop :=
  ∃ points ∈ redeemPoints, roundingError (points * rate * 100) = -1 / 2

/-- Without a request for points nothing is redeemed or waived. -/
theorem BookingPage.unasked (h : page.redeemRequest = none) :
    page.pointsDiscount = 0 ∧ page.serviceFeeWaived = false := by
  have hnone : ¬ (page.pointsOn = true ∧ 0 < page.redeemPoints) := by
    unfold BookingPage.redeemRequest at h
    split at h
    · cases h
    · assumption
  have hzero : page.pointsDiscount = 0 := by
    rw [BookingPage.pointsDiscount, if_neg hnone]
  exact ⟨hzero, by simp [BookingPage.serviceFeeWaived, hzero]⟩

/-- A page that asks for points has something to pay for with them. -/
theorem BookingPage.asked {points : ℚ} (h : page.redeemRequest = some points) :
    page.pointsOn = true ∧ 0 < page.redeemPoints ∧ points = page.redeemPoints.toNum ∧
      0 < page.activityPayable ∧ 0 < page.qarPerPoint := by
  unfold BookingPage.redeemRequest at h
  split at h
  · rename_i hasked
    obtain ⟨hon, hpos⟩ := hasked
    have hneeded : page.redeemPoints ≤ page.requiredPoints := by
      rw [BookingPage.redeemPoints, if_pos hon]
      exact min_le_right _ _
    have hrequired : page.activityPayable > 0 ∧ page.qarPerPoint > 0 := by
      by_contra hnone
      rw [BookingPage.requiredPoints, if_neg hnone] at hneeded
      exact absurd hpos (not_lt.mpr hneeded)
    exact ⟨hon, hpos, (Option.some.inj h).symm, hrequired.1, hrequired.2⟩
  · cases h

/-- A request for points is for more than none. -/
theorem BookingPage.asked_pos {points : ℚ} (h : page.redeemRequest = some points) :
    0 < points := by
  obtain ⟨_, hpos, rfl, _⟩ := BookingPage.asked h
  have hcents : (0 : ℚ) < page.redeemPoints := by exact_mod_cast hpos
  unfold Cents.toNum
  linarith

/-- The cash of the page, rounded before the fee and the coupon. -/
theorem BookingPage.cashDue_eq {discount : Cents} (hcoupon : page.couponPart = discount.toNum) :
    page.cashDue = max 0 (toCents (page.bookingCost - page.pointsDiscount) +
      page.effectiveServiceFee - discount) := by
  have hmono : Monotone toCents := fun _ _ hle => mathRound_mono (by linarith)
  have hsplit : page.grossPayable - page.couponPart - page.pointsDiscount =
      page.bookingCost - page.pointsDiscount +
        (page.effectiveServiceFee - discount : Cents).toNum := by
    rw [BookingPage.grossPayable, hcoupon]
    unfold Cents.toNum
    push_cast
    ring
  have hzero : toCents 0 = 0 := toCents_toNum 0 ▸ by simp [Cents.toNum]
  rw [BookingPage.cashDue, hmono.map_max, hzero, hsplit, toCents_add_toNum, ← add_sub_assoc]

/-- What is left of the price after the coupon. -/
theorem BookingPage.activityPayable_eq {discount : Cents}
    (hcoupon : page.couponPart = discount.toNum) (hpos : 0 < page.activityPayable) :
    page.activityPayable = page.bookingCost - discount.toNum := by
  unfold BookingPage.activityPayable at hpos ⊢
  rw [hcoupon] at hpos ⊢
  rcases lt_max_iff.mp hpos with hzero | hrest
  · exact absurd hzero (lt_irrefl _)
  · exact max_eq_right hrest.le

section

variable {total discount : Cents} {config : LoyaltyConfig} {r : Redemption}

/-- A page that asks for points waives the fee exactly when they cover the exact price. -/
theorem BookingPage.serviceFeeWaived_iff {points : ℚ}
    (hasked : page.redeemRequest = some points)
    (hrate : page.pointsOn = true → page.qarPerPoint = config.qarPerPoint) :
    page.pointsDiscount = min (points * config.qarPerPoint) page.activityPayable ∧
      (page.serviceFeeWaived = true ↔ page.activityPayable ≤ points * config.qarPerPoint) := by
  obtain ⟨hon, hredeem, rfl, hdue, hpos⟩ := BookingPage.asked hasked
  have hdiscount : page.pointsDiscount =
      min (page.redeemPoints.toNum * config.qarPerPoint) page.activityPayable := by
    rw [BookingPage.pointsDiscount, if_pos ⟨hon, hredeem⟩, BookingPage.pointsWorth, hrate hon]
  refine ⟨hdiscount, ?_⟩
  have hworth : 0 < page.redeemPoints.toNum * config.qarPerPoint := by
    rw [← hrate hon]
    exact mul_pos (BookingPage.asked_pos hasked) hpos
  constructor
  · intro hwaived
    have hcovers := (of_decide_eq_true hwaived).2.1
    rw [hdiscount] at hcovers
    exact (le_min_iff.mp hcovers).1
  · intro hcovers
    refine decide_eq_true ⟨hon, ?_, ?_⟩
    · rw [hdiscount, min_eq_right hcovers]
    · rw [hdiscount]
      exact lt_min hworth hdue

/-- Where neither side waives the fee, the cash is the same when the price and what the points are
worth round together. -/
theorem BookingPage.cash_short_iff {worth : ℚ} (htotal : toCents page.bookingCost = total)
    (hcoupon : page.couponPart = discount.toNum) (hfee : 0 ≤ page.serviceFeeFixed)
    (hkept : page.serviceFeeWaived = false) (hpart : page.pointsDiscount = worth)
    (hrest : discount.toNum ≤ page.bookingCost - worth)
    (hworth : toCents worth ≤ total - discount) :
    max 0 (total - discount + page.serviceFeeFixed - toCents worth) = page.cashDue ↔
      RoundTogether (page.bookingCost * 100) (worth * 100) := by
  have hleft : discount ≤ toCents (page.bookingCost - worth) := by
    refine le_mathRound ?_
    have hcents := discount.toNum_mul
    linarith
  rw [← mathRound_sub_iff, ← sub_mul]
  change _ ↔ toCents _ = toCents _ - toCents _
  rw [page.cashDue_eq hcoupon, BookingPage.effectiveServiceFee, hkept, hpart, htotal]
  simp only [Bool.false_eq_true, if_false]
  lia

/-- **The fee is waived on both sides or on neither, and the cash is the same**, exactly when the
points agree, the coupon having taken the same off. -/
theorem BookingPage.points_agree_iff (htotal : toCents page.bookingCost = total)
    (hcoupon : page.couponPart = discount.toNum) (hfee : 0 ≤ page.serviceFeeFixed)
    (hrate : page.pointsOn = true → page.qarPerPoint = config.qarPerPoint)
    (h : Redeemed config page.redeemRequest (total - discount) r) :
    (page.serviceFeeWaived = r.feeWaived ∧
      max 0 (total - discount + (if r.feeWaived then 0 else page.serviceFeeFixed) -
        r.pointsDiscount) = page.cashDue) ↔
      page.PointsAgree config.qarPerPoint (total - discount) page.redeemRequest := by
  have hcash := page.cashDue_eq hcoupon
  cases h with
  | nothing unasked =>
      have hnone : page.redeemRequest = none := by
        rw [Option.eq_none_iff_forall_not_mem]
        intro points hasked
        exact absurd (unasked points hasked) (not_le.mpr (BookingPage.asked_pos hasked))
      obtain ⟨hzero, hkept⟩ := BookingPage.unasked hnone
      have hagree : page.PointsAgree config.qarPerPoint (total - discount)
          page.redeemRequest := by
        intro points hpoints
        rw [hnone] at hpoints
        cases hpoints
      refine ⟨fun _ => hagree, fun _ => ⟨hkept, ?_⟩⟩
      rw [hcash, hzero, sub_zero page.bookingCost, htotal, BookingPage.effectiveServiceFee, hkept]
      simp only [Bool.false_eq_true, if_false]
      lia
  | covers points asked pos rate enough =>
      obtain ⟨hpart, hwaived⟩ := BookingPage.serviceFeeWaived_iff asked hrate
      obtain ⟨_, _, rfl, hdue, _⟩ := BookingPage.asked asked
      rw [toCents_toNum] at enough
      constructor
      · rintro ⟨hflag, _⟩ points hpoints
        obtain rfl := Option.some.inj (asked.symm.trans hpoints)
        refine ⟨iff_of_true (hwaived.mp hflag) enough, ?_⟩
        intro hshort
        exact absurd hshort (not_lt.mpr enough)
      · intro hagree
        have hcovers := (hagree _ asked).1.mpr enough
        have hflag := hwaived.mpr hcovers
        refine ⟨hflag, ?_⟩
        have hleft : page.bookingCost - page.pointsDiscount = discount.toNum := by
          rw [hpart, min_eq_right hcovers, BookingPage.activityPayable_eq hcoupon hdue]
          ring
        rw [hcash, hleft, toCents_toNum, BookingPage.effectiveServiceFee, hflag]
        simp
  | short points asked pos rate less =>
      obtain ⟨hpart, hwaived⟩ := BookingPage.serviceFeeWaived_iff asked hrate
      obtain ⟨_, _, rfl, hdue, _⟩ := BookingPage.asked asked
      rw [toCents_toNum] at less ⊢
      have hpayable := BookingPage.activityPayable_eq hcoupon hdue
      generalize hworth : page.redeemPoints.toNum * config.qarPerPoint = worth at *
      have hsame : ¬ page.activityPayable ≤ worth →
          (max 0 (total - discount + page.serviceFeeFixed - toCents worth) = page.cashDue ↔
            RoundTogether (page.bookingCost * 100) (worth * 100)) := by
        intro hshort
        refine BookingPage.cash_short_iff htotal hcoupon hfee ?_ ?_ ?_ (toCents_le less.le)
        · exact Bool.eq_false_iff.mpr fun hflag => hshort (hwaived.mp hflag)
        · rw [hpart, min_eq_left (not_le.mp hshort).le]
        · linarith
      simp only [Bool.false_eq_true, if_false]
      constructor
      · rintro ⟨hflag, hdueSame⟩ points hpoints
        obtain rfl := Option.some.inj (asked.symm.trans hpoints)
        have hshort : ¬ page.activityPayable ≤ worth := by
          intro hcovers
          rw [hwaived.mpr hcovers] at hflag
          cases hflag
        rw [hworth]
        exact ⟨iff_of_false hshort (not_le.mpr less), fun _ => (hsame hshort).mp hdueSame⟩
      · intro hagree
        obtain ⟨hcovers, hrounds⟩ := hagree _ asked
        rw [hworth] at hcovers hrounds
        have hshort : ¬ page.activityPayable ≤ worth :=
          fun hcovered => absurd less (not_lt.mpr (hcovers.mp hcovered))
        exact ⟨Bool.eq_false_iff.mpr fun hflag => hshort (hwaived.mp hflag),
          (hsame hshort).mpr (hrounds less)⟩

/-- A coupon that does not agree shows in the cash, if no points are used. -/
theorem BookingPage.coupon_shows {shown : Cents} (htotal : toCents page.bookingCost = total)
    (hcoupon : page.couponPart = shown.toNum) (hshown : shown ≤ total) (hrest : discount ≤ total)
    (hfee : 0 ≤ page.serviceFeeFixed) (hnone : page.redeemRequest = none)
    (hdiffers : shown ≠ discount)
    (h : Redeemed config page.redeemRequest (total - discount) r) :
    max 0 (total - discount + (if r.feeWaived then 0 else page.serviceFeeFixed) -
      r.pointsDiscount) ≠ page.cashDue := by
  obtain ⟨hzero, hkept⟩ := BookingPage.unasked hnone
  have hcash := page.cashDue_eq hcoupon
  rw [hzero, sub_zero, htotal, BookingPage.effectiveServiceFee, hkept] at hcash
  rw [hnone] at h
  cases h with
  | nothing _ =>
      simp only [Bool.false_eq_true, if_false] at hcash ⊢
      lia
  | covers _ hsome => cases hsome
  | short _ hsome => cases hsome

end

/-- **On a price in whole cents the points agree** unless they pay a part of it worth an odd number
of half cents. -/
theorem BookingPage.pointsAgree_iff_of_whole {discount : Cents} {rate : ℚ}
    (hwhole : page.bookingCost = (toCents page.bookingCost).toNum)
    (hcoupon : page.couponPart = discount.toNum) :
    page.PointsAgree rate (toCents page.bookingCost - discount) page.redeemRequest ↔
      (HalfCent rate page.redeemRequest →
        coversPrice rate page.redeemRequest (toCents page.bookingCost - discount) = true) := by
  cases hrequest : page.redeemRequest with
  | none => simp [BookingPage.PointsAgree, HalfCent]
  | some points =>
      obtain ⟨_, hredeem, rfl, hdue, _⟩ := BookingPage.asked hrequest
      have hpayable : page.activityPayable =
          (toCents page.bookingCost - discount : Cents).toNum := by
        rw [BookingPage.activityPayable_eq hcoupon hdue]
        unfold Cents.toNum at hwhole ⊢
        push_cast
        linarith
      have hrounds : RoundTogether (page.bookingCost * 100)
          (page.redeemPoints.toNum * rate * 100) ↔
            roundingError (page.redeemPoints.toNum * rate * 100) ≠ -1 / 2 := by
        rw [hwhole, Cents.toNum_mul]
        exact roundTogether_intCast_iff _ _
      have hpos := BookingPage.asked_pos hrequest
      simp only [BookingPage.PointsAgree, HalfCent, coversPrice, Option.mem_def,
        Option.some.injEq, forall_eq', exists_eq_left', Option.any_some, toCents_toNum,
        decide_eq_true_eq, hpayable, hrounds, hpos, true_and]
      constructor
      · intro hagree hhalf
        by_contra hshort
        exact hagree (not_le.mp hshort) hhalf
      · intro hcovers hshort hhalf
        exact absurd hshort (not_lt.mpr (hcovers hhalf))

/-! ## Shown and charged -/

/-- No night costs less than nothing. -/
theorem nightPrice_nonneg (hvalid : ValidSettings db) {activity : Activity}
    (hprice : 0 ≤ activity.pricePerPerson) (d : Int) : 0 ≤ nightPrice db activity d := by
  rcases nightPrice_cases db activity d with ⟨s, hs, _, hnight⟩ | ⟨_, hnight⟩
  · rw [hnight]
    exact (hvalid.special s hs).le
  · rw [hnight]
    exact hprice

theorem BookingPage.Shows.bookingCost_nonneg (h : page.Shows seen db p) (hc : page.Chosen)
    (hplain : page.Plain db)
    (hgrid : ∀ s ∈ page.activity.extraServices.getD [], ∃ c : Int, s.price * 100 = c)
    (hp : p.Valid) (hvalid : ValidSettings db)
    (hprepared : prepareBooking env before db₀ userId p.dto = .ok (some p))
    (hrequest : page.request = some p.dto) {extras : List SelectedExtra}
    (hextras : selectExtras p.activity p.dto = .ok extras) : 0 ≤ page.bookingCost := by
  have hcost := h.extrasTotal_eq hc hplain.names hplain.only hgrid hrequest hextras
  have hextra : (0 : ℚ) ≤ extrasCents extras := by exact_mod_cast extrasCents_nonneg hextras
  have hbase : 0 ≤ page.baseCost * 100 := by
    cases htype : page.activity.bookingType with
    | daily =>
        rw [h.baseCost_daily hc htype hprepared hrequest]
        exact_mod_cast basePriceCents_nonneg hp hvalid
    | hourly =>
        have hhourly : page.isHourly = true := by simp [BookingPage.isHourly, htype]
        rw [(h.baseCost_hourly hc (hplain.cap hhourly) (hplain.sole hhourly) htype hprepared
          hrequest).1]
        have hproduct : 0 ≤ rangeProduct db p := by
          refine mul_nonneg (mul_nonneg (nightPrice_nonneg hvalid hp.price _) ?_) ?_
          · exact le_max_of_le_left (Int.natCast_nonneg _)
          · split <;> omega
        have hproduct' : (0 : ℚ) ≤ rangeProduct db p := by exact_mod_cast hproduct
        positivity
  rw [BookingPage.bookingCost]
  linarith

/-- What the page shows is what the booking and its payment say: the cash, the waived fee and, if
the points cover everything, a booking confirmed with nothing to pay. -/
structure BookingPage.PriceHolds (page : BookingPage) (rate : ℚ) (dto : CreateBookingDto)
    (b : Booking) (payment : Payment) : Prop where
  charged : payment.amount = page.cashDue
  waived : page.serviceFeeWaived = coversPrice rate dto.redeemPoints b.totalPrice
  fee : b.serviceFee = page.effectiveServiceFee
  covered : page.isPointsOnly = true → b.status = .confirmed ∧ payment.amount = 0

/-- The page shows the rate of the server. -/
theorem BookingPage.Shows.rate_eq (h : page.Shows seen db p) (hon : page.pointsOn = true) :
    page.qarPerPoint = db.qarPerPoint := by
  have hcan := (Bool.and_eq_true_iff.mp hon).2
  obtain ⟨data, hdata, _⟩ := (Option.any_eq_true _ _).mp hcan
  rw [BookingPage.qarPerPoint, hdata]
  exact h.loyalty data hdata

/-- What `createBooking` makes of a request of the page, from the price the page has before the
coupon. -/
structure BookingPage.Charged (page : BookingPage) (config : LoyaltyConfig) (discount : Cents)
    (r : Redemption) (b : Booking) (payment : Payment) : Prop where
  discounted : b.totalPrice = toCents page.bookingCost - discount
  bounded : discount ≤ toCents page.bookingCost
  redeemed : Redeemed config page.redeemRequest (toCents page.bookingCost - discount) r
  fee : b.serviceFee = if r.feeWaived then 0 else page.serviceFeeFixed
  amount : payment.amount = max 0 (toCents page.bookingCost - discount +
    (if r.feeWaived then 0 else page.serviceFeeFixed) - r.pointsDiscount)
  confirmed : b.status = .confirmed ↔ payment.amount = 0

/-- **What the server charges, in the terms of the page.** -/
theorem BookingPage.Shows.charged {extras : List SelectedExtra} (hshows : page.Shows seen db p)
    (hp : p.Valid) (hvalid : ValidSettings db) (hrequest : page.request = some p.dto)
    (hextras : selectExtras p.activity p.dto = .ok extras)
    (hcost : toCents page.bookingCost = basePriceCents db p + extrasCents extras)
    (h : createBookingTx env txNow db p ref = .ok (db', b)) :
    ∃ payment ∈ db'.payments.rows, b.paymentId = some payment.id ∧ ∃ db₁ code discount r,
      applyDiscount txNow db p (toCents page.bookingCost) = .ok (db₁, code, discount) ∧
        page.Charged (db.loyaltyConfig.getD {}) discount r b payment := by
  obtain ⟨unitNumber, dbq, q, hq, hb, _, hpayment, _⟩ := createBookingTx_quote h
  obtain ⟨extras', code, discount, db₁, r, hextras', hdiscount, hredeem, _, htotal, _, hpoints,
    hfee, _, hpayable⟩ := quote_ok hq
  obtain rfl := Except.ok.inj (hextras.symm.trans hextras')
  obtain ⟨_, _, _, _, _, hasked⟩ := BookingPage.request_body hrequest
  have hbounds := applyDiscount_bounds hvalid
    (add_nonneg (basePriceCents_nonneg hp hvalid) (extrasCents_nonneg hextras)) hdiscount
  have hredeemed := redeemFor_cases hredeem
  rw [applyDiscount_config hdiscount, hasked] at hredeemed
  rw [← hcost] at hdiscount hbounds hredeemed htotal
  rw [hpoints, hfee, htotal, hshows.fee] at hpayable
  rw [hshows.fee] at hfee
  have hamount : ((newPayment txNow db.nextId p.country.currencyCode q).linked b).amount =
      q.payableAmount := by
    exact newPayment_amount (by lia)
  refine ⟨_, hpayment, ?_, db₁, code, discount, r, hdiscount, ?_, hbounds.2, hredeemed, ?_,
    hamount.trans hpayable, ?_⟩
  · rw [hb]
    exact congrArg some newPayment_id.symm
  · rw [hb]
    exact htotal
  · rw [hb]
    exact hfee
  · rw [hamount, hb, newBooking_confirmed_iff]
    lia

/-- The page holds when what is charged and whether the fee is waived are what it shows. -/
theorem BookingPage.Charged.holds_iff {config : LoyaltyConfig} {discount : Cents} {r : Redemption}
    {payment : Payment} {dto : CreateBookingDto}
    (h : page.Charged config discount r b payment)
    (hasked : dto.redeemPoints = page.redeemRequest) :
    page.PriceHolds config.qarPerPoint dto b payment ↔
      page.serviceFeeWaived = r.feeWaived ∧ payment.amount = page.cashDue := by
  have hflag : r.feeWaived = coversPrice config.qarPerPoint dto.redeemPoints b.totalPrice := by
    rw [Bool.eq_iff_iff, hasked, h.discounted]
    exact h.redeemed.feeWaived_iff
  constructor
  · intro hholds
    exact ⟨hholds.waived.trans hflag.symm, hholds.charged⟩
  · rintro ⟨hwaived, hdue⟩
    refine ⟨hdue, hwaived.trans hflag, ?_, ?_⟩
    · rw [h.fee, BookingPage.effectiveServiceFee, hwaived]
    · intro hpointsOnly
      obtain ⟨_, hzero, _⟩ := of_decide_eq_true hpointsOnly
      have hnothing := hdue.trans hzero
      exact ⟨h.confirmed.mpr hnothing, hnothing⟩

/-- A priced request has priced extras. -/
theorem discountedPrice_extras {price : Cents} (h : discountedPrice now db p = .ok price) :
    ∃ extras, selectExtras p.activity p.dto = .ok extras := by
  simp only [discountedPrice, bind_eq_ok] at h
  obtain ⟨extras, hextras, _⟩ := h
  exact ⟨extras, hextras⟩

/-- **The price shown is the price charged** exactly when the coupon takes the same off the exact
price and off the price in cents, and the points agree on the two; the points are looked at only
where the coupon agrees.  A price in whole cents leaves one exception: points that pay a part of
it worth an odd number of half cents. -/
theorem preview_charged_iff {price : Cents} (hvalid₀ : ValidSettings db₀)
    (hvalid : ValidSettings db) (hshows : page.Shows seen db p) (hchosen : page.Chosen)
    (hgrid : ∀ s ∈ page.activity.extraServices.getD [], ∃ c : Int, s.price * 100 = c)
    (hplain : page.Plain db) (hround : page.CouponAgrees db ∨ page.pointsOn = false)
    (hrequest : page.request = some p.dto)
    (hprepared : prepareBooking env before db₀ userId p.dto = .ok (some p))
    (hprice : discountedPrice txNow db p = .ok price)
    (h : createBookingTx env txNow db p ref = .ok (db', b)) :
    ∃ payment ∈ db'.payments.rows, b.paymentId = some payment.id ∧
      (page.PriceHolds db.qarPerPoint p.dto b payment ↔
        page.CouponAgrees db ∧ page.PointsAgree db.qarPerPoint price p.dto.redeemPoints) ∧
      (WholePrice db p → (page.PriceHolds db.qarPerPoint p.dto b payment ↔
        (HalfCent db.qarPerPoint p.dto.redeemPoints →
          coversPrice db.qarPerPoint p.dto.redeemPoints price = true))) := by
  obtain ⟨_, _, hp⟩ := prepareBooking_valid hvalid₀ hprepared
  obtain ⟨extras, hextras⟩ := discountedPrice_extras hprice
  obtain ⟨hcost, hexact⟩ := hshows.bookingCost_eq hchosen hplain hgrid hprepared hrequest hextras
  have hcost0 := hshows.bookingCost_nonneg hchosen hplain hgrid hp hvalid hprepared hrequest hextras
  obtain ⟨payment, hpayment, hlink, db₁, code, discount, r, hdiscount, hcharged⟩ :=
    hshows.charged hp hvalid hrequest hextras hcost h
  obtain ⟨shown, hcoupon, hshown, hagree⟩ :=
    hshows.couponPart_eq hvalid hcost0 hrequest hdiscount
  obtain ⟨_, _, _, _, _, hasked⟩ := BookingPage.request_body hrequest
  have hrest : toCents page.bookingCost - discount = price := by
    rw [hcost] at hdiscount ⊢
    exact discountedPrice_eq hprice hextras hdiscount
  have hfee : 0 ≤ page.serviceFeeFixed := hshows.fee ▸ hp.fee
  have hsame : shown = discount → (page.PriceHolds db.qarPerPoint p.dto b payment ↔
      page.PointsAgree db.qarPerPoint price page.redeemRequest) := by
    rintro rfl
    have hpoints := BookingPage.points_agree_iff rfl hcoupon hfee
      hshows.rate_eq hcharged.redeemed
    rw [← hcharged.amount, hrest] at hpoints
    exact (hcharged.holds_iff hasked).trans hpoints
  refine ⟨payment, hpayment, hlink, ?_, ?_⟩
  · rw [← hagree, hasked]
    by_cases hcouponAgrees : shown = discount
    · rw [hsame hcouponAgrees, and_iff_right hcouponAgrees]
    · have hoff : page.pointsOn = false :=
        hround.resolve_left fun hagrees => hcouponAgrees (hagree.mpr hagrees)
      have hdiffers := BookingPage.coupon_shows rfl hcoupon hshown hcharged.bounded hfee
        (by simp [BookingPage.redeemRequest, hoff]) hcouponAgrees hcharged.redeemed
      rw [← hcharged.amount] at hdiffers
      exact ⟨fun hholds => absurd hholds.charged hdiffers,
        fun hcond => absurd hcond.1 hcouponAgrees⟩
  · intro hwhole
    have hcouponAgrees := hagree.mpr (BookingPage.couponAgrees_of_whole (hexact hwhole))
    rw [hsame hcouponAgrees, hasked, ← hrest]
    exact BookingPage.pointsAgree_iff_of_whole (hexact hwhole) (hcouponAgrees ▸ hcoupon)

def newYear : Instant := (CivilDate.mk 2000 1 1).midnight

/-- January 2000, as the calendar of the market has it. -/
def januaryDays (db : Db) : List CalendarDay :=
  (getCalendarAvailability marketEnv newYear db 7 2000 1 none).toOption.getD []

theorem januaryDays_ok {db : Db}
    (h : (getCalendarAvailability marketEnv newYear db 7 2000 1 none).toOption.isSome = true) :
    getCalendarAvailability marketEnv newYear db 7 2000 1 none = .ok (januaryDays db) := by
  obtain ⟨days, hdays⟩ := Option.isSome_iff_exists.mp h
  rw [januaryDays, hdays]
  exact toOption_eq_some.mp hdays

/-- The slot of the market with tea to go with it. -/
def teaActivity : Activity :=
  { marketActivity with extraServices := some [{ name := "tea", price := 5 }] }

def fifthOff : Coupon where
  id := 8
  code := "FIFTH"
  discountType := .percentage
  discountValue := 2000
  validFrom := 0
  validTo := newYear + day
  status := .approved

def teaMarket : Db :=
  { market.db with
    countries := ⟨[{ id := 5, serviceFeeFixed := 500 }], saleCountries_nodup⟩
    activities := ⟨[teaActivity], by decide⟩
    coupons := ⟨[fifthOff], by decide⟩ }

/-- A slot with tea, a fifth off, and points for the rest. -/
def teaPage : BookingPage where
  activity := teaActivity
  serviceFeeFixed := 500
  days := januaryDays teaMarket
  guests := 1
  guests_pos := one_guest
  selectedDate := some ⟨2000, 1, 2⟩
  selectedSlot := some 600
  selectedExtras := [("tea", 1)]
  appliedCoupon := some ⟨"FIFTH", 2100⟩
  loyaltyData := some ⟨20000, 1, 1⟩
  usePoints := true

def teaRequest : CreateBookingDto :=
  { teaPage.body ⟨2000, 1, 2⟩ with slotTime := some 600 }

theorem teaPage_request : teaPage.request = some teaRequest := by
  rfl

theorem teaPage_chosen : teaPage.Chosen := by
  refine ⟨?_, ?_, ?_, ?_⟩
  · intro _
    decide +kernel
  · intro checkIn hcheckIn
    cases hcheckIn
  · decide
  · decide +kernel

theorem teaPage_plain : teaPage.Plain teaMarket := by
  refine ⟨?_, ?_, ?_, ?_⟩
  · decide +kernel
  · intro e he
    obtain rfl := List.mem_singleton.mp he
    exact ⟨{ name := "tea", price := 5 }, by unfold OnlyNamed; decide +kernel⟩
  · intro _ slot _ slotEnd hslotEnd
    cases hslotEnd
  · intro _
    decide +kernel

theorem teaMarket_valid : ValidSettings teaMarket := by
  constructor <;> decide +kernel

/-- The points pay all that is left of the slot and the tea, and the page says so. -/
theorem preview_charged_tea :
    teaPage.cashDue = 0 ∧ teaPage.isPointsOnly = true ∧
      ∃ p db' b, createBookingTx marketEnv newYear teaMarket p "R" = .ok (db', b) ∧
        ∃ payment ∈ db'.payments.rows, b.paymentId = some payment.id ∧
          teaPage.PriceHolds teaMarket.qarPerPoint p.dto b payment := by
  refine ⟨by decide +kernel, by decide +kernel, ?_⟩
  obtain ⟨p, db', b, hprepared, hok, htest⟩ := @bookAt_ok newYear teaMarket 1 teaRequest
    (fun p _ _ => p.activity = teaActivity ∧ p.country.serviceFeeFixed = 500 ∧
      (discountedPrice newYear teaMarket p).toOption = some 8400) (by decide +kernel)
  obtain ⟨hactivity, hfee, hprice⟩ := of_decide_eq_true htest
  obtain ⟨_, hdto, _⟩ := prepareBooking_valid teaMarket_valid hprepared
  have hshows : teaPage.Shows teaMarket teaMarket p := by
    refine ⟨by decide +kernel, hactivity, hfee, ?_, ?_, ?_, rfl, fun _ => rfl⟩
    · intro d hd
      exact ⟨_, _, _, _, _, januaryDays_ok (by decide +kernel), hd⟩
    · intro c hc
      obtain rfl := Option.some.inj hc
      exact ⟨newYear, "fifth", toOption_eq_some.mp (by decide +kernel)⟩
    · decide +kernel
  have hgrid : ∀ s ∈ teaPage.activity.extraServices.getD [], ∃ c : Int, s.price * 100 = c := by
    intro s hs
    obtain rfl := List.mem_singleton.mp hs
    exact ⟨500, by norm_num⟩
  have hwhole : WholePrice teaMarket p := by
    intro _
    rw [hactivity]
    exact one_dvd _
  rw [← hdto] at hprepared
  have hagrees : teaPage.CouponAgrees teaMarket :=
    BookingPage.couponAgrees_of_whole (by decide +kernel)
  obtain ⟨payment, hpayment, hlink, _, hiff⟩ := preview_charged_iff teaMarket_valid
    teaMarket_valid hshows teaPage_chosen hgrid teaPage_plain (.inl hagrees)
    (hdto ▸ teaPage_request) hprepared (toOption_eq_some.mp hprice) hok
  refine ⟨p, db', b, hok, payment, hpayment, hlink, (hiff hwhole).mpr ?_⟩
  intro _
  rw [hdto]
  decide +kernel

/-- A range by the two hours, at twenty and a hundredth. -/
def rangeActivity : Activity :=
  { marketActivity with
    pricePerPerson := 2001
    durationValue := some 2 }

def thirdOff : Coupon where
  id := 8
  code := "THIRD"
  discountType := .percentage
  discountValue := 3300
  validFrom := 0
  validTo := newYear + day
  status := .approved

def rangeMarket : Db :=
  { market.db with
    activities := ⟨[rangeActivity], by decide⟩
    coupons := ⟨[thirdOff], by decide⟩ }

/-- Three hours, and a third off. -/
def rangePage : BookingPage where
  activity := rangeActivity
  serviceFeeFixed := 0
  days := januaryDays rangeMarket
  guests := 1
  guests_pos := one_guest
  selectedDate := some ⟨2000, 1, 2⟩
  selectedSlot := some 600
  selectedSlotEnd := some 780
  appliedCoupon := some ⟨"THIRD", 990⟩

def rangeRequest : CreateBookingDto :=
  { rangePage.body ⟨2000, 1, 2⟩ with
    slotTime := some 600
    slotEndTime := some 780 }

theorem rangePage_request : rangePage.request = some rangeRequest := by
  have hlong : ((rangePage.activity.durationValue.getD 0 : Nat) : ℚ) < rangePage.slotHours := by
    decide +kernel
  simp only [BookingPage.request, hlong, if_true]
  rfl

/-- The half cent of the range is rounded up before the third is taken off it, and the page takes
it off before it rounds. -/
theorem range_price_differs :
    ∃ p db' b, ValidSettings rangeMarket ∧ rangePage.Shows rangeMarket rangeMarket p ∧
      rangePage.Chosen ∧ rangePage.request = some p.dto ∧
      prepareBooking marketEnv newYear rangeMarket 1 p.dto = .ok (some p) ∧
      createBookingTx marketEnv newYear rangeMarket p "R" = .ok (db', b) ∧
      rangePage.cashDue = 2012 ∧ (∃ payment ∈ db'.payments.rows,
        b.paymentId = some payment.id ∧ payment.amount = 2011) ∧
      ∀ payment ∈ db'.payments.rows, b.paymentId = some payment.id →
        ¬ rangePage.PriceHolds rangeMarket.qarPerPoint p.dto b payment := by
  obtain ⟨p, db', b, hprepared, hok, htest⟩ := @bookAt_ok newYear rangeMarket 1 rangeRequest
    (fun p db' b => p.activity = rangeActivity ∧ p.country.serviceFeeFixed = 0 ∧
      (∃ payment ∈ db'.payments.rows, b.paymentId = some payment.id ∧ payment.amount = 2011) ∧
      ∀ payment ∈ db'.payments.rows, b.paymentId = some payment.id → payment.amount = 2011)
    (by decide +kernel)
  obtain ⟨hactivity, hfee, hcharged, hall⟩ := of_decide_eq_true htest
  have hvalid : ValidSettings rangeMarket := by
    constructor <;> decide +kernel
  obtain ⟨_, hdto, _⟩ := prepareBooking_valid hvalid hprepared
  have hshown : rangePage.cashDue = 2012 := by decide +kernel
  refine ⟨p, db', b, hvalid, ⟨by decide +kernel, hactivity, hfee, ?_, ?_, ?_, rfl, fun _ => rfl⟩,
    ⟨?_, ?_, by decide, by decide⟩, hdto ▸ rangePage_request, hdto ▸ hprepared, hok, hshown,
    hcharged, ?_⟩
  · intro d hd
    exact ⟨_, _, _, _, _, januaryDays_ok (by decide +kernel), hd⟩
  · intro c hc
    obtain rfl := Option.some.inj hc
    exact ⟨newYear, "third", toOption_eq_some.mp (by decide +kernel)⟩
  · intro data hdata
    cases hdata
  · intro _
    decide +kernel
  · intro checkIn hcheckIn
    cases hcheckIn
  · intro payment hpayment hlink hholds
    have hsame := hholds.charged
    rw [hall payment hpayment hlink, hshown] at hsame
    exact absurd hsame (by decide)

end Jadwal
