import Jadwal.Cancellation

/-!
# Status changes by vendors and administrators

`updateBookingStatus` of the vendor and of the admin service.  The two are
one function up to who acts, the guards before the transaction, whether a
paid-out booking may be cancelled, the ledger's actor, and whether the
coupon of a booking without a payment is returned.  Cancelling claims the
row on `status ≠ CANCELLED` and reads it again; every other status is a
plain update of whatever the row is by then.
-/

namespace Jadwal

open Outcome

/-- Who changes the status. -/
inductive Operator
  | vendor (userId : Id)
  | admin (userId : Id)
  deriving DecidableEq, Repr

def Operator.userId : Operator → Id
  | .vendor userId => userId
  | .admin userId => userId

def Operator.actor : Operator → CancelActor
  | .vendor _ => .vendor
  | .admin _ => .admin

/-- The actor id on the operator's ledger rows; the admin's are anonymous. -/
def Operator.ledgerId : Operator → Option Id
  | .vendor userId => some userId
  | .admin _ => none

def Operator.name : Operator → String
  | .vendor _ => "Vendor"
  | .admin _ => "Admin"

/-- What `updateBookingStatus` has read before its transaction. -/
structure StatusRead where
  operator : Operator
  booking : Booking
  newStatus : BookingStatus

/-- The vendor's lookup and guards. -/
def vendorStatusRead (env : Env) (now : Instant) (db : Db) (userId bookingId : Id)
    (newStatus : BookingStatus) : Tx StatusRead := do
  let vendor ← orThrow (db.vendors.first? (fun v => v.userId = userId))
    (.notFound "Vendor profile not found")
  ensure (vendor.status ≠ .suspended) (.forbidden "Your vendor account is suspended")
  let booking ← orThrow
    ((db.bookings.find? bookingId).filter (fun b => b.vendorId = vendor.id))
    (.notFound "Booking not found")
  ensure (newStatus ≠ .pending)
    (.forbidden "Invalid status. Allowed: CONFIRMED, COMPLETED, CANCELLED")
  ensure (newStatus = .completed → booking.endDatetime ≤
      nowInTimezone env (activityTimezone db booking.activityId) now)
    (.forbidden "Cannot complete a booking before its end time has passed")
  return ⟨.vendor userId, booking, newStatus⟩

/-- The admin's lookup and guard: only `CONFIRMED` looks at the payment. -/
def adminStatusRead (db : Db) (adminUserId bookingId : Id) (status : BookingStatus) :
    Tx StatusRead := do
  let booking ← orThrow (db.bookings.find? bookingId) (.notFound "Booking not found")
  ensure (status = .confirmed →
      ∃ q ∈ booking.paymentId.bind (fun id => db.payments.find? id), q.status = .success)
    (.badRequest "Cannot confirm a booking without a successful payment")
  return ⟨.admin adminUserId, booking, status⟩

theorem Payment.key_failed (q : Payment) :
    Keyed.key { q with status := .failed } = Keyed.key q := rfl

/-- Refunds the payment of a booking being cancelled: a captured one as
points, a pending one by failing it. -/
def refundCancelledPayment (now : Instant) (db : Db) (op : Operator) (b : Booking)
    (payment : Payment) : Tx Db :=
  match payment.status with
  | .success =>
      let config := db.loyaltyConfig.getD {}
      let payments := db.payments.update payment.id (fun q => { q with
        status := .refunded
        refundAmount := some payment.amount
        refundedAt := some now })
      let points := refundPointsOf config payment.amount
      creditRefund { db with payments := payments, loyaltyConfig := some config }
        b.customerId b.id points op.actor op.ledgerId
        (op.name ++ " cancel: " ++ payment.amount.toText ++ " refund → " ++
          points.toText ++ " points, booking " ++ b.ref)
  | .pending =>
      let payments := db.payments.update payment.id
        (fun q => { q with status := .failed }) Payment.key_failed
      .ok { db with payments := payments }
  | _ => .ok db

/-- Debits the points a booking earned, by its ledger row. -/
def reverseEarned (db : Db) (op : Operator) (b : Booking) : Tx Db :=
  if b.pointsAwarded then
    let awardedPoints := Loyalty.getEarnedPoints db b.id
    if awardedPoints > 0 then do
      let r ← Loyalty.reverseAwarded db
        ⟨b.customerId, awardedPoints.toNum, b.id, ledgerActor op.actor, op.ledgerId,
          op.name ++ " cancel of COMPLETED booking " ++ b.ref ++ " — debiting " ++
            awardedPoints.toText ++ " previously-awarded points"⟩
      updateBooking r.db b.id (fun b => { b with pointsAwarded := false })
    else .ok db
  else .ok db

/-- The money side of an operator's cancel, for a booking with a payment. -/
def settleCancelled (now : Instant) (db : Db) (op : Operator) (b : Booking)
    (payment : Payment) : Tx Db := do
  let db ← refundCancelledPayment now db op b payment
  let db ← returnPointsOf db b .cancelRefundPaid (ledgerActor op.actor) op.ledgerId
    (op.name ++ " cancel returned redeemed points on booking " ++ b.ref)
  reverseEarned db op b

/-- The row an operator's cancel claims. -/
def Operator.claim (op : Operator) (now : Instant) (b : Booking) : Booking :=
  { b with
    status := .cancelled
    cancelledAt := some now
    cancelledBy := some op.actor
    refundDecisionAt := some now
    refundDecisionBy := some op.userId
    refundDecisionActor := some op.actor }

/-- What follows the claim: the money, and the coupon.  Only the admin
returns the coupon of a booking without a payment. -/
def afterClaim (now : Instant) (db : Db) (op : Operator) (result : Booking)
    (payment : Option Payment) : Tx Db :=
  match payment with
  | some q => do
      let db ← settleCancelled now db op result q
      return refundCouponUsage now db result.couponCode result.customerId
  | none =>
      if op.actor = .admin then
        .ok (refundCouponUsage now db result.couponCode result.customerId)
      else .ok db

/-- An operator's cancel: claims the row, then works on the row as it is
now.  A row already cancelled is left alone. -/
def operatorCancel (now : Instant) (db : Db) (op : Operator) (bookingId : Id) : Tx Db := do
  let found ← orThrow (db.bookings.find? bookingId) (.recordNotFound "Booking")
  let payment := found.paymentId.bind (fun id => db.payments.find? id)
  ensure (op.actor = .vendor → ∀ q ∈ payment, q.payoutStatus ≠ .paid)
    (.forbidden ("This booking has already been paid out and can no longer be " ++
      "cancelled here. Please contact support to arrange it."))
  if found.status = .cancelled then return db
  else
    let bookings := db.bookings.update bookingId (op.claim now)
    afterClaim now { db with bookings := bookings } op (op.claim now found) payment

/-- The award of a completed booking: claims `pointsAwarded`, then earns. -/
def awardCompleted (db : Db) (b : Booking) : Tx Db :=
  let config := db.loyaltyConfig.getD {}
  let db := { db with loyaltyConfig := some config }
  let points := Loyalty.computeEarnedPoints b.totalPrice.toNum b.pointsDiscount.toNum
    config.pointsPerQar
  if points > 0 then
    match (db.bookings.find? b.id).filter (fun b => b.pointsAwarded = false) with
    | none => .ok db
    | some _ => do
        let bookings := db.bookings.update b.id (fun b => { b with pointsAwarded := true })
        let r ← Loyalty.earn { db with bookings := bookings }
          ⟨b.customerId, points.toNum, b.id,
            "Earned on booking " ++ b.ref ++ " (" ++ b.totalPrice.toText ++ ")"⟩
        return r.db
  else .ok db

/-- The transaction of `updateBookingStatus`. -/
def statusCommit (now : Instant) (db : Db) (r : StatusRead) : Tx Db :=
  if r.newStatus = .cancelled then operatorCancel now db r.operator r.booking.id
  else do
    let db ← updateBooking db r.booking.id (fun b => { b with status := r.newStatus })
    if r.newStatus = .completed ∧ ¬ r.booking.pointsAwarded then
      awardCompleted db r.booking
    else return db

end Jadwal
