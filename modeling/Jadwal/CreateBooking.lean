import Jadwal.Pricing
import Jadwal.Loyalty

/-!
# Creating a booking

`createBooking` in two parts, as the source has it: `prepareBooking` is
what runs before the transaction (validation, the window, the duplicate
check), and `createBookingTx` is the serializable transaction.  The Redis
lock between the two fails open, so nothing here is proved from it; the
statements before the transaction and the lock come one by one in
`Jadwal.DoubleBooking`.

`Created` is the one specification of a committed creation; the modules
on capacity, payments and points read it and never unfold the transaction.
-/

namespace Jadwal

open Outcome

/-! ## Before the transaction -/

/-- The window of an HOURLY request on a given day. -/
def hourlyWindow (env : Env) (now : Instant) (activity : Activity) (tz : String)
    (dto : CreateBookingDto) : Tx (Instant × Instant) := do
  let slotTime ← orThrow dto.slotTime
    (.badRequest "slotTime is required for HOURLY activities")
  let incomplete := HttpError.badRequest "Activity time configuration is incomplete"
  let checkInTime ← orThrow activity.checkInTime incomplete
  let checkOutTime ← orThrow activity.checkOutTime incomplete
  let durationValue ← orThrow (activity.durationValue.filter (fun n => n ≠ 0)) incomplete
  ensure (slotTime.val % 30 = 0)
    (.badRequest "Slot time must be on the hour or half-hour (e.g. 09:00, 09:30)")
  let unitMins := durationValue * 60
  let maxBookingMins := env.maxSlotUnits * unitMins
  let slotEndMins ← (match dto.slotEndTime with
    | some slotEndTime => do
        ensure (slotEndTime.val % 30 = 0) (.badRequest
          "Slot end time must be on the hour or half-hour (e.g. 10:00, 10:30)")
        ensure (slotTime.val < slotEndTime.val)
          (.badRequest "Slot end time must be after slot start time")
        let span := slotEndTime.val - slotTime.val
        ensure (span % 60 = 0)
          (.badRequest "Booking length must be a whole number of hours")
        ensure (unitMins ≤ span) (.badRequest ("Booking must be at least " ++
          toString durationValue ++ " hour(s). Requested " ++ toString (span / 60) ++ "."))
        ensure (span ≤ maxBookingMins) (.badRequest ("Booking cannot exceed " ++
          toString (maxBookingMins / 60) ++ " hours. Requested " ++
          toString (span / 60) ++ "."))
        return slotEndTime.val
    | none => return slotTime.val + unitMins : Tx Nat)
  ensure (checkInTime ≤ slotTime)
    (.badRequest "This time slot is before the activity opens")
  ensure (slotEndMins ≤ checkOutTime.val)
    (.badRequest "This time slot exceeds the activity closing time")
  ensure (dto.checkInDate = todayInTimezone env tz now →
      minutesInTimezone env tz now < slotTime.val)
    (.badRequest "This time slot has already started")
  return (buildDatetime dto.checkInDate slotTime.val,
    buildDatetime dto.checkInDate slotEndMins)

/-- The window of a DAILY request: from check-in to check-out. -/
def dailyWindow (env : Env) (activity : Activity) (dto : CreateBookingDto) :
    Tx (Instant × Instant) := do
  let checkOutDate ← orThrow dto.checkOutDate
    (.badRequest "checkOutDate is required for DAILY activities")
  ensure (dto.checkInDate.midnight < checkOutDate.midnight)
    (.badRequest "Check-out date must be after check-in date")
  let nights := nightCount dto.checkInDate checkOutDate
  ensure (∀ minimum ∈ activity.durationValue, minimum ≤ nights)
    (.badRequest ("This activity requires a minimum stay of " ++
      toString (activity.durationValue.getD 0) ++ " night(s)"))
  ensure (nights ≤ env.maxBookingNights)
    (.badRequest ("A stay cannot exceed " ++ toString env.maxBookingNights ++ " nights"))
  return (buildDatetime dto.checkInDate ((activity.checkInTime.map Fin.val).getD (14 * 60)),
    buildDatetime checkOutDate ((activity.checkOutTime.map Fin.val).getD (11 * 60)))

def bookingWindow (env : Env) (now : Instant) (activity : Activity) (tz : String)
    (dto : CreateBookingDto) : Tx (Instant × Instant) :=
  match activity.bookingType with
  | .hourly => hourlyWindow env now activity tz dto
  | .daily => dailyWindow env activity dto

/-- The window vendor blocks are compared with: the nights of a stay, the
clock window of an hourly booking. -/
def blockWindow (activity : Activity) (dto : CreateBookingDto)
    (window : Instant × Instant) : Instant × Instant :=
  match activity.bookingType with
  | .daily => (dto.checkInDate.midnight, (dto.checkOutDate.getD dto.checkInDate).midnight)
  | .hourly => window

/-- The days an activity runs on; an empty list is every day. -/
def dayAllowed (activity : Activity) (date : CivilDate) : Bool :=
  activity.activeDays = [] ∨ activity.activeDays.any (fun ad =>
    ad.toUpper = date.weekday ∨ ad.toUpper.startsWith date.weekday)

/-- Validation and loading before the transaction; `none` is the replay of
an idempotency key, answered with the existing booking. -/
def prepareBooking (env : Env) (now : Instant) (db : Db) (userId : Id)
    (dto : CreateBookingDto) : Tx (Option PreparedBooking) := do
  if dto.idempotencyKey ≠ none ∧ (db.bookings.first? (fun b =>
      b.idempotencyKey = dto.idempotencyKey ∧ b.customerId = userId)).isSome then
    return none
  else
    ensure dto.checkInDate.isValid (.badRequest "Invalid check-in date")
    ensure (∀ d ∈ dto.checkOutDate, d.isValid) (.badRequest "Invalid check-out date")
    let activity ← orThrow (db.activities.find? dto.activityId)
      (.business "ACTIVITY.NOT_FOUND" "Activity not found")
    let vendor ← orThrow (db.vendors.find? activity.vendorId) (.recordNotFound "Vendor")
    let country ← orThrow (db.countries.find? activity.countryId)
      (.recordNotFound "Country")
    ensure (activity.status = .active)
      (.badRequest "Activity is not available for booking")
    ensure (vendor.status = .active) (.badRequest "This vendor is not active")
    let tz := country.defaultTimezone
    ensure ((todayInTimezone env tz now).key ≤ dto.checkInDate.key)
      (.badRequest "Cannot book a past date")
    ensure (dto.checkInDate.key ≤
        ((utcDate now).addMonthsClamped env.bookingMaxAdvanceMonths).key)
      (.badRequest ("Cannot book more than " ++ toString env.bookingMaxAdvanceMonths ++
        " month(s) in advance"))
    ensure (dayAllowed activity dto.checkInDate)
      (.badRequest ("This activity is not available on " ++ dto.checkInDate.weekday ++
        ". Available days: " ++ String.intercalate ", " activity.activeDays))
    ensure (activity.hasUnits ∨ activity.capacity ≠ some 0)
      (.badRequest "This activity has no available capacity")
    let window ← bookingWindow env now activity tz dto
    let (blockStart, blockEnd) := blockWindow activity dto window
    ensure (∀ b ∈ db.activityBlocks.rows, ¬ (b.activityId = dto.activityId ∧
        b.deletedAt = none ∧ b.blockStart < blockEnd ∧ b.blockEnd > blockStart))
      (.badRequest "This date/time is not available for booking")
    ensure (∀ b ∈ db.bookings.rows, ¬ (b.customerId = userId ∧
        b.activityId = dto.activityId ∧ b.startDatetime = window.1 ∧
        b.endDatetime = window.2 ∧ activeBookingFilter now b))
      (.conflict "You already have a booking for this time slot")
    return some {
      userId := userId
      dto := dto
      activity := activity
      vendor := vendor
      country := country
      category := db.categories.find? activity.categoryId
      startDatetime := window.1
      endDatetime := window.2 }

/-! ## Inserting rows -/

/-- `payment.create`. -/
def insertPayment (db : Db) (payment : Payment) : Tx Db := do
  let payments ← orThrow (db.payments.insert? payment) (.uniqueViolation "payments.id")
  return { db with payments := payments }

/-- `booking.create`, with the unique columns of the table. -/
def insertBooking (db : Db) (booking : Booking) : Tx Db := do
  ensure (∀ b ∈ db.bookings.rows, b.ref ≠ booking.ref) (.uniqueViolation "bookings.ref")
  ensure (booking.idempotencyKey = none ∨
      ∀ b ∈ db.bookings.rows, b.idempotencyKey ≠ booking.idempotencyKey)
    (.uniqueViolation "bookings.idempotencyKey")
  ensure (booking.paymentId = none ∨
      ∀ b ∈ db.bookings.rows, b.paymentId ≠ booking.paymentId)
    (.uniqueViolation "bookings.paymentId")
  let bookings ← orThrow (db.bookings.insert? booking) (.uniqueViolation "bookings.id")
  return { db with bookings := bookings }

/-- `payment.update({ bookingId })`: the reverse link, unique per payment. -/
def linkPayment (db : Db) (paymentId bookingId : Id)
    (snapshot : Option BookingSnapshot) : Tx Db := do
  ensure (∀ q ∈ db.payments.rows, q.id ≠ paymentId → q.bookingId ≠ some bookingId)
    (.uniqueViolation "payments.bookingId")
  let payments := db.payments.update paymentId
    (fun q => { q with bookingId := some bookingId, bookingSnapshot := snapshot })
  return { db with payments := payments }

/-- The subset of a booking's columns needed to recreate it. -/
def buildBookingSnapshot (b : Booking) : BookingSnapshot where
  ref := b.ref
  activityId := b.activityId
  vendorId := b.vendorId
  customerId := b.customerId
  unitNumber := b.unitNumber
  startDatetime := b.startDatetime
  endDatetime := b.endDatetime
  guests := b.guests
  bookingPhone := b.bookingPhone
  guestBreakdown := b.guestBreakdown
  selectedExtras := b.selectedExtras
  totalPrice := b.totalPrice
  serviceFee := b.serviceFee
  commissionPct := b.commissionPct
  commissionAmount := b.commissionAmount
  couponCode := b.couponCode
  couponDiscount := b.couponDiscount
  pointsRedeemed := b.pointsRedeemed
  pointsDiscount := b.pointsDiscount
  currencyCode := b.currencyCode
  idempotencyKey := b.idempotencyKey
  originalCreatedAt := b.createdAt
  v := 2

/-! ## The transaction -/

/-- The payment row of a new booking: settled by points when nothing is
left to charge, else pending. -/
def newPayment (txNow : Instant) (id : Id) (currency : String) (q : Quote) : Payment :=
  if q.payableAmount ≤ 0 then
    { id := id, amount := 0, currency := currency, status := .success,
      payoutStatus := .unpaid, method := "WANASA_POINTS", paidAt := some txNow,
      createdAt := txNow }
  else
    { id := id, amount := q.payableAmount, currency := currency, status := .pending,
      payoutStatus := .unpaid, method := "PENDING", createdAt := txNow }

/-- The booking row: confirmed at once when nothing is left to charge,
else a reservation that holds the seat until `reservedUntil`. -/
def newBooking (env : Env) (txNow : Instant) (id paymentId : Id) (ref : String)
    (p : PreparedBooking) (unitNumber : Option Nat) (q : Quote) : Booking where
  id := id
  ref := ref
  activityId := p.dto.activityId
  vendorId := p.vendor.id
  customerId := p.userId
  unitNumber := unitNumber
  startDatetime := p.startDatetime
  endDatetime := p.endDatetime
  guests := p.dto.guests
  bookingPhone := p.dto.bookingPhone
  guestBreakdown := p.dto.guestBreakdown
  selectedExtras := if q.selectedExtras = [] then none else some q.selectedExtras
  totalPrice := q.totalPrice
  serviceFee := q.serviceFee
  commissionPct := q.commissionPct
  commissionAmount := q.commissionAmount
  couponCode := q.couponCode
  couponDiscount := q.couponDiscount
  pointsRedeemed := q.pointsRedeemed
  pointsDiscount := q.pointsDiscount
  currencyCode := p.country.currencyCode
  idempotencyKey := p.dto.idempotencyKey
  status := if q.payableAmount ≤ 0 then .confirmed else .pending
  reservedUntil := if q.payableAmount ≤ 0 then none
    else some (txNow + env.reservationWindowMinutes * minute)
  paymentId := some paymentId
  createdAt := txNow

/-- The debit of a booking's points: nothing when none are redeemed. -/
def redeemPointsOf (db : Db) (b : Booking) (note : String) : Tx Db :=
  if b.pointsRedeemed > 0 then do
    let r ← Loyalty.redeem db
      ⟨b.customerId, b.pointsRedeemed.toNum, b.id, note⟩
    return r.db
  else .ok db

/-- The writes of a creation: the payment, the booking, the reverse link
with the snapshot of a pending booking, and the debit of its points. -/
def storeBooking (db : Db) (payment : Payment) (booking : Booking) : Tx Db := do
  let db ← insertPayment db payment
  let db ← insertBooking db booking
  let db ← linkPayment db payment.id booking.id
    (if booking.status = .pending then some (buildBookingSnapshot booking) else none)
  redeemPointsOf db booking ("Redeemed on booking " ++ booking.ref)

/-- The serializable transaction of `createBooking`. -/
def createBookingTx (env : Env) (txNow : Instant) (db : Db) (p : PreparedBooking)
    (ref : String) : Tx (Db × Booking) := do
  let unitNumber ← assignUnit p.activity
    (windowBookings env db txNow p.dto.activityId p.startDatetime p.endDatetime)
    p.startDatetime p.endDatetime p.dto.guests
  let breakdownSum := ((p.dto.guestBreakdown.getD []).map Prod.snd).sum
  ensure (p.dto.guestBreakdown = none ∨ breakdownSum = p.dto.guests)
    (.badRequest ("Guest breakdown total (" ++ toString breakdownSum ++
      ") must equal guests (" ++ toString p.dto.guests ++ ")"))
  let (db, q) ← quote txNow db p
  let booking := newBooking env txNow (db.nextId + 1) db.nextId ref p unitNumber q
  let payment := newPayment txNow db.nextId p.country.currencyCode q
  let db ← storeBooking { db with nextId := db.nextId + 2 } payment booking
  return (db, booking)

/-! ## What a committed creation does -/

/-- The ledger row a redemption on a booking writes. -/
def redeemRow (b : Booking) : LoyaltyLedger where
  userId := b.customerId
  delta := -b.pointsRedeemed
  balanceAfter := 0
  source := .bookingRedeem
  bookingId := some b.id
  actorType := .customer
  actorId := some b.customerId
  reason := ""

/-- The debit of a booking's points posts one row when there are points,
and changes nothing else. -/
theorem redeemPointsOf_ok {db db' : Db} {b : Booking} {note : String}
    (h : redeemPointsOf db b note = .ok db') :
    (b.pointsRedeemed ≤ 0 ∧ db' = db) ∨
      (0 < b.pointsRedeemed ∧ ∃ reason,
        Loyalty.Posted db db' { redeemRow b with reason := reason }) := by
  unfold redeemPointsOf at h
  split at h
  · rename_i hpos
    simp only [bind_eq_ok, pure_eq_ok] at h
    obtain ⟨r, hr, rfl⟩ := h
    obtain ⟨_, _, reason, hp⟩ := Loyalty.redeem_posts hr
    rw [Loyalty.round2_toNum] at hp
    exact Or.inr ⟨hpos, reason, hp⟩
  · rename_i hle
    exact Or.inl ⟨not_lt.mp hle, (Except.ok.inj h).symm⟩

theorem insertBooking_ok {db db' : Db} {b : Booking}
    (h : insertBooking db b = .ok db') :
    (∀ x ∈ db.bookings.rows, x.ref ≠ b.ref) ∧
      (b.idempotencyKey = none ∨
        ∀ x ∈ db.bookings.rows, x.idempotencyKey ≠ b.idempotencyKey) ∧
      (b.paymentId = none ∨ ∀ x ∈ db.bookings.rows, x.paymentId ≠ b.paymentId) ∧
      ∃ bookings, db.bookings.insert? b = some bookings ∧
        db' = { db with bookings := bookings } := by
  simp only [insertBooking, bind_eq_ok, ensure_eq_ok, orThrow_eq_ok, pure_eq_ok] at h
  obtain ⟨_, href, _, hkey, _, hpay, bookings, hins, rfl⟩ := h
  exact ⟨href, hkey, hpay, bookings, hins, rfl⟩

/-- The payment row of a stored booking. -/
def Payment.linked (q : Payment) (b : Booking) : Payment :=
  { q with
    bookingId := some b.id
    bookingSnapshot :=
      if b.status = .pending then some (buildBookingSnapshot b) else none }

/-- What the writes of a creation do: they append the booking and its
linked payment and post the redemption. -/
structure Stored (db db' : Db) (payment : Payment) (b : Booking) : Prop where
  freshBooking : ∀ x ∈ db.bookings.rows, x.id ≠ b.id
  freshPayment : ∀ x ∈ db.payments.rows, x.id ≠ payment.id
  soleBooking : b.paymentId = none ∨ ∀ x ∈ db.bookings.rows, x.paymentId ≠ b.paymentId
  soleLink : ∀ x ∈ db.payments.rows, x.bookingId ≠ some b.id
  bookings : db'.bookings.rows = db.bookings.rows ++ [b]
  payments : db'.payments.rows = db.payments.rows ++ [payment.linked b]
  points : (b.pointsRedeemed ≤ 0 ∧ db'.loyaltyLedger = db.loyaltyLedger) ∨
    (0 < b.pointsRedeemed ∧
      Loyalty.Appended db.loyaltyLedger db'.loyaltyLedger (redeemRow b))
  nextId : db'.nextId = db.nextId
  activities : db'.activities = db.activities
  payoutRequests : db'.payoutRequests = db.payoutRequests

theorem not_mem_of_fresh {α : Type} [Keyed α Id] {t t' : Table α} {a : α}
    (h : t.insert? a = some t') : ∀ x ∈ t.rows, Keyed.key x ≠ Keyed.key a := by
  intro x hx he
  exact (Table.insert?_eq_some.mp h).1 (List.mem_map.mpr ⟨x, hx, he⟩)

theorem storeBooking_stored {db db' : Db} {payment : Payment} {b : Booking}
    (h : storeBooking db payment b = .ok db') : Stored db db' payment b := by
  simp only [storeBooking, insertPayment, linkPayment, bind_eq_ok, ensure_eq_ok,
    orThrow_eq_ok, pure_eq_ok] at h
  obtain ⟨_, ⟨payments, hpay, rfl⟩, _, hb, _, ⟨_, hlink, rfl⟩, hr⟩ := h
  obtain ⟨_, _, hsole, bookings, hins, rfl⟩ := insertBooking_ok hb
  have hfresh := not_mem_of_fresh hpay
  have hrows := Table.rows_update_of_insert? hpay (fun q => { q with
    bookingId := some b.id
    bookingSnapshot :=
      if b.status = .pending then some (buildBookingSnapshot b) else none })
    (fun _ => rfl)
  have hlinks : ∀ x ∈ db.payments.rows, x.bookingId ≠ some b.id := by
    intro x hx
    exact hlink x ((Table.mem_of_insert? hpay).mpr (Or.inl hx)) (hfresh x hx)
  have hbooks := (Table.insert?_eq_some.mp hins).2
  rcases redeemPointsOf_ok hr with ⟨hle, rfl⟩ | ⟨hpos, reason, hp⟩
  · exact ⟨not_mem_of_fresh hins, hfresh, hsole, hlinks, hbooks, hrows,
      Or.inl ⟨hle, rfl⟩, rfl, rfl, rfl⟩
  · have happ := hp.appended
    obtain ⟨_, _, _, rfl⟩ := hp.moved
    refine ⟨not_mem_of_fresh hins, hfresh, hsole, hlinks, hbooks, hrows,
      Or.inr ⟨hpos, ?_⟩, rfl, rfl, rfl⟩
    obtain ⟨hne, hfree, balanceAfter, reason', hl⟩ := happ
    exact ⟨hne, hfree, balanceAfter, reason', hl⟩

/-- The frame of pricing carries over to the writes after it. -/
theorem Stored.of_sameCore {db dbq db' : Db} {payment : Payment} {b : Booking}
    {n : Id} (hc : SameCore db dbq)
    (h : Stored { dbq with nextId := n } db' payment b) :
    Stored { db with nextId := n } db' payment b where
  freshBooking := hc.bookings ▸ h.freshBooking
  freshPayment := hc.payments ▸ h.freshPayment
  soleBooking := hc.bookings ▸ h.soleBooking
  soleLink := hc.payments ▸ h.soleLink
  bookings := h.bookings.trans (by rw [hc.bookings])
  payments := h.payments.trans (by rw [hc.payments])
  points := by
    have hl : { dbq with nextId := n }.loyaltyLedger =
        { db with nextId := n }.loyaltyLedger := hc.loyaltyLedger
    exact hl ▸ h.points
  nextId := h.nextId
  activities := h.activities.trans hc.activities
  payoutRequests := h.payoutRequests.trans hc.payoutRequests

/-- A committed creation: the admission check passed on the bookings of
the window, and the new booking and payment were stored. -/
structure Created (env : Env) (txNow : Instant) (db db' : Db) (p : PreparedBooking)
    (ref : String) (unitNumber : Option Nat) (q : Quote) (b : Booking) : Prop where
  admitted : assignUnit p.activity
    (windowBookings env db txNow p.dto.activityId p.startDatetime p.endDatetime)
    p.startDatetime p.endDatetime p.dto.guests = .ok unitNumber
  booking : b = newBooking env txNow (db.nextId + 1) db.nextId ref p unitNumber q
  stored : Stored { db with nextId := db.nextId + 2 } db'
    (newPayment txNow db.nextId p.country.currencyCode q) b

theorem createBookingTx_created {env : Env} {txNow : Instant} {db db' : Db}
    {p : PreparedBooking} {ref : String} {b : Booking}
    (h : createBookingTx env txNow db p ref = .ok (db', b)) :
    ∃ unitNumber q, Created env txNow db db' p ref unitNumber q b := by
  simp only [createBookingTx, bind_eq_ok, pure_eq_ok] at h
  obtain ⟨unitNumber, hadmit, _, _, ⟨dbq, q⟩, hq, dbs, hs, heq⟩ := h
  obtain ⟨rfl, hb⟩ := Prod.mk.inj heq
  have hc : SameCore db dbq := quote_frame hq
  have hb : b = newBooking env txNow (db.nextId + 1) db.nextId ref p unitNumber q := by
    rw [← hb, ← hc.nextId]
  have hst := storeBooking_stored hs
  simp only [hc.nextId, ← hb] at hst
  exact ⟨unitNumber, q, hadmit, hb, hst.of_sameCore hc⟩

end Jadwal
