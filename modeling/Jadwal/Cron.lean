import Jadwal.Status

/-!
# The scheduled jobs

The job that reaps unpaid reservations and the job that awards points and
completes past bookings.  Both scan first and write later, so a row may
have changed in between; the reaper claims each row on `PENDING` before it
returns anything, and the award claims `pointsAwarded` before it earns.
-/

namespace Jadwal

open Outcome

/-! ## Stale pending bookings -/

/-- The four cases of the reaper's scan. -/
def isStale (env : Env) (now : Instant) (db : Db) (b : Booking) : Bool :=
  let fallbackCutoff := now - env.pendingBookingFallbackHours * hour
  let paymentInitiatedCutoff := now - env.pay2mPendingGraceMinutes * minute
  let expired := ∃ reservedUntil ∈ b.reservedUntil, reservedUntil < now
  let payment := b.paymentId.bind (fun id => db.payments.find? id)
  b.status = .pending ∧
    ((b.paymentId = none ∧ expired) ∨
      ((∃ q ∈ payment, q.gatewayBasketId = none) ∧ expired) ∨
      (expired ∧ ∃ q ∈ payment, q.gatewayBasketId ≠ none ∧
        ((∃ t ∈ q.paymentFirstInitiatedAt, t < paymentInitiatedCutoff) ∨
          (q.paymentFirstInitiatedAt = none ∧
            ∃ t ∈ q.paymentInitiatedAt, t < paymentInitiatedCutoff))) ∨
      b.createdAt < fallbackCutoff)

/-- The scan of the reaper: the oldest 1000 stale reservations. -/
def staleBookings (env : Env) (now : Instant) (db : Db) : List Booking :=
  ((db.bookings.select (isStale env now db)).insertionSort
    (fun a b => a.createdAt ≤ b.createdAt)).take 1000

/-- Claims one scanned reservation by deleting it while it is still
`PENDING`, and returns what the customer put in for the one it reaped. -/
def reapOne (now : Instant) (db : Db) (b : Booking) : Tx Db :=
  match (db.bookings.find? b.id).filter (fun x => x.status = .pending) with
  | none => .ok db
  | some _ =>
      let db := { db with bookings := db.bookings.delete b.id }
      let db := refundCouponUsage now db b.couponCode b.customerId
      returnPointsOf db b .cancelRefundUnpaid .system none
        ("Stale PENDING auto-cancel — returned " ++ b.pointsRedeemed.toText ++
          " redeemed points, booking " ++ b.ref)

/-- The row of a failed payment. -/
def Payment.fail (q : Payment) : Payment := { q with status := .failed }

/-- Fails the payments of the scanned reservations that are still pending. -/
def failStalePayments (db : Db) (stale : List Booking) : Db :=
  let payments := db.payments.updateMany
    (fun q => q.status = .pending ∧ ∃ b ∈ stale, b.paymentId = some q.id) Payment.fail
  { db with payments := payments }

/-- The transaction of `runAutoCancelStalePendingBookings`. -/
def reapStale (now : Instant) (db : Db) (stale : List Booking) : Tx Db := do
  let db ← forEach stale db (reapOne now)
  return failStalePayments db stale

/-! ## Awarding and completing -/

/-- The widest offset of a zone. -/
def maxTzOffset : Int := 14 * hour

/-- Confirmed bookings without an award whose start, with the delay, has
passed on their own wall clock. -/
def awardCandidates (env : Env) (now : Instant) (db : Db) : List Booking :=
  (((db.bookings.select (fun b => b.status = .confirmed ∧ ¬ b.pointsAwarded ∧
      b.startDatetime < now + maxTzOffset)).insertionSort
    (fun a b => a.startDatetime ≤ b.startDatetime)).take 1000).filter
      (fun b => b.startDatetime + env.loyaltyAwardDelayMinutes * minute ≤
        nowInTimezone env (activityTimezone db b.activityId) now)

/-- Confirmed bookings whose end has passed on their own wall clock; the
coarse cutoff is the one computed when the job started. -/
def completeCandidates (env : Env) (now : Instant) (db : Db)
    (coarseCutoff : Instant) : List Booking :=
  db.bookings.select (fun b => b.status = .confirmed ∧ b.endDatetime < coarseCutoff ∧
    b.endDatetime ≤ nowInTimezone env (activityTimezone db b.activityId) now)

theorem Booking.key_awarded (b : Booking) :
    Keyed.key { b with pointsAwarded := true } = Keyed.key b := rfl

/-- One award of `awardLoyaltyForBookings`, from the scanned row: claims
`pointsAwarded` on a row that is not cancelled, then earns. -/
def awardOne (db : Db) (pointsPerQar : ℚ) (b : Booking) : Tx Db :=
  let points := Loyalty.computeEarnedPoints b.totalPrice.toNum b.pointsDiscount.toNum
    pointsPerQar
  if points ≤ 0 then .ok db
  else
    match (db.bookings.find? b.id).filter (fun x =>
        (x.status = .confirmed ∨ x.status = .completed) ∧ x.pointsAwarded = false) with
    | none => .ok db
    | some _ => do
        let bookings := db.bookings.update b.id (fun x => { x with pointsAwarded := true })
          Booking.key_awarded
        let r ← Loyalty.earn { db with bookings := bookings }
          ⟨b.customerId, points.toNum, b.id,
            "Earned on booking " ++ b.ref ++ " (" ++ b.totalPrice.toText ++ ")"⟩
        return r.db

/-- The row of a completed booking. -/
def Booking.complete (b : Booking) : Booking := { b with status := .completed }

/-- `CONFIRMED` to `COMPLETED` for the scanned bookings that are still
confirmed. -/
def completeConfirmed (db : Db) (scanned : List Booking) : Db :=
  let bookings := db.bookings.updateMany
    (fun b => b.status = .confirmed ∧ b.id ∈ scanned.map Booking.id) Booking.complete
  { db with bookings := bookings }

end Jadwal
