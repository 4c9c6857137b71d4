import Jadwal.Payment

/-!
# Customer cancellation and refund decisions

`cancelBooking` reads the booking and its payment, chooses one of four
ways to cancel from what it read, and runs that way in a transaction.
Three of the four re-check the payment's status in the transaction; the
hard delete of an unpaid booking re-checks nothing.
-/

namespace Jadwal

open Outcome

/-- The wall clock of an activity's country. -/
def activityTimezone (db : Db) (activityId : Id) : String :=
  (((db.activities.find? activityId).bind
    (fun a => db.countries.find? a.countryId)).map Country.defaultTimezone).getD "UTC"

/-- The refund percentage of a cancellation policy; a missing policy is
`FREE_CANCELLATION`. -/
def refundPercentOf (env : Env) (policy : Option String) (hoursUntilStart : ℚ) : ℚ :=
  let isWithinDeadline := env.cancellationDeadlineHours ≤ hoursUntilStart
  match policy with
  | some "NON_REFUNDABLE" => 0
  | some "PARTIAL_REFUND" =>
      if isWithinDeadline then min 100 (max 0 env.partialRefundPercent) else 0
  | _ => if isWithinDeadline then 100 else 0

/-- What `cancelBooking` has read before its transaction. -/
structure CancelRead where
  userId : Id
  booking : Booking
  payment : Option Payment
  suggestedRefund : Cents

/-- The lookup and guards of `cancelBooking`. -/
def cancelRead (env : Env) (now : Instant) (db : Db) (userId bookingId : Id) :
    Tx CancelRead := do
  let booking ← orThrow
    ((db.bookings.find? bookingId).filter (fun b => b.customerId = userId))
    (.notFound "Booking not found")
  ensure (booking.status ≠ .cancelled) (.badRequest "Booking is already cancelled")
  ensure (booking.status ≠ .completed) (.badRequest "Cannot cancel a completed booking")
  let nowLocal := nowInTimezone env (activityTimezone db booking.activityId) now
  ensure (nowLocal ≤ booking.startDatetime)
    (.badRequest "Cannot cancel a booking that has already started")
  let payment := booking.paymentId.bind (fun id => db.payments.find? id)
  let hoursUntilStart := ((booking.startDatetime - nowLocal : Int) : ℚ) / (hour : ℚ)
  let policy := (db.activities.find? booking.activityId).bind Activity.cancellationPolicy
  let refundPercent := refundPercentOf env policy hoursUntilStart
  let totalPaid := (payment.map Payment.amount).getD 0
  return ⟨userId, booking, payment, toCents (totalPaid.toNum * refundPercent / 100)⟩

/-- The guarded flip every soft cancel makes: the payment must still have
the status the cancel was decided on. -/
def flipPayment (db : Db) (paymentId : Id) (expected : PaymentStatus)
    (f : Payment → Payment) (message : String)
    (hf : ∀ q, Keyed.key (f q) = Keyed.key q := by intro _; rfl) : Tx Db := do
  let _ ← orThrow ((db.payments.find? paymentId).filter (fun q => q.status = expected))
    (.conflict message)
  return { db with payments := db.payments.update paymentId f hf }

/-- `booking.update`, which throws when the row is gone. -/
def updateBooking (db : Db) (bookingId : Id) (f : Booking → Booking)
    (hf : ∀ b, Keyed.key (f b) = Keyed.key b := by intro _; rfl) : Tx Db := do
  let _ ← orThrow (db.bookings.find? bookingId) (.recordNotFound "Booking")
  return { db with bookings := db.bookings.update bookingId f hf }

def stateChanged : String := "Booking state changed concurrently. Please refresh."

/-- A booking paid with points only: refunded at once. -/
def cancelPointsOnly (now : Instant) (db : Db) (r : CancelRead) (payment : Payment) :
    Tx Db := do
  let db ← flipPayment db payment.id .success (fun q => { q with
    status := .refunded, refundAmount := some 0, refundedAt := some now }) stateChanged
  let db ← updateBooking db r.booking.id (fun b => { b with
    status := .cancelled
    cancelledAt := some now
    cancelledBy := some .customer
    refundDecisionAt := some now
    refundDecisionBy := some r.userId
    refundDecisionActor := some .customer
    refundDecisionNote := some "Points-only booking — points refunded automatically" })
  let db ← returnPointsOf db r.booking .cancelRefundPaid .customer (some r.userId)
    ("Returned on customer-cancel of points-only booking " ++ r.booking.ref)
  return refundCouponUsage now db r.booking.couponCode r.userId

/-- A booking paid in cash: cancelled, the refund queued for a decision. -/
def cancelPaid (now : Instant) (db : Db) (r : CancelRead) (payment : Payment) :
    Tx Db := do
  let db ← updateBooking db r.booking.id (fun b => { b with
    status := .cancelled, cancelledAt := some now, cancelledBy := some .customer })
  let db ← flipPayment db payment.id .success (fun q => { q with
    status := .refundPending
    refundAmount := if r.suggestedRefund > 0 then some r.suggestedRefund else none })
    stateChanged
  let db ← returnPointsOf db r.booking .cancelRefundPaid .customer (some r.userId)
    ("Returned on customer-cancel of paid booking " ++ r.booking.ref)
  return refundCouponUsage now db r.booking.couponCode r.userId

/-- An unpaid booking with a gateway session in flight: kept, both rows in
the states a late capture understands. -/
def cancelInFlight (now : Instant) (db : Db) (r : CancelRead) (payment : Payment) :
    Tx Db := do
  let db ← flipPayment db payment.id .pending (fun q => { q with status := .failed })
    ("This booking changed while you were cancelling. " ++
      "Please refresh to see its current state.")
  let db := refundCouponUsage now db r.booking.couponCode r.userId
  let db ← updateBooking db r.booking.id (fun b => { b with
    status := .cancelled, cancelledAt := some now, cancelledBy := some .customer })
  returnPointsOf db r.booking .cancelRefundUnpaid .customer (some r.userId)
    ("Returned on customer-cancel with in-flight payment, booking " ++ r.booking.ref)

/-- Any other unpaid booking: the payment and the booking are deleted. -/
def cancelHardDelete (now : Instant) (db : Db) (r : CancelRead) : Tx Db := do
  let db := refundCouponUsage now db r.booking.couponCode r.userId
  let _ ← orThrow (db.bookings.find? r.booking.id) (.recordNotFound "Booking")
  let payments ← (match r.payment with
    | some payment => do
        let _ ← orThrow (db.payments.find? payment.id) (.recordNotFound "Payment")
        return db.payments.delete payment.id
    | none => return db.payments : Tx (Table Payment))
  let bookings := db.bookings.delete r.booking.id
  returnPointsOf { db with payments := payments, bookings := bookings } r.booking
    .cancelRefundUnpaid .customer (some r.userId)
    ("Returned on customer-cancel before payment, booking " ++ r.booking.ref)

/-- The ways to cancel. -/
inductive CancelPlan
  | pointsOnly (payment : Payment)
  | paid (payment : Payment)
  | inFlight (payment : Payment)
  | hardDelete

/-- The way `cancelBooking` chooses from what it has read. -/
def CancelRead.plan (r : CancelRead) : CancelPlan :=
  match r.payment with
  | none => .hardDelete
  | some payment =>
      if payment.status = .success then
        if payment.amount = 0 then .pointsOnly payment else .paid payment
      else if payment.status = .pending ∧ payment.gatewayBasketId ≠ none then
        .inFlight payment
      else .hardDelete

def cancelCommit (now : Instant) (db : Db) (r : CancelRead) : Tx Db :=
  match r.plan with
  | .pointsOnly payment => cancelPointsOnly now db r payment
  | .paid payment => cancelPaid now db r payment
  | .inFlight payment => cancelInFlight now db r payment
  | .hardDelete => cancelHardDelete now db r

/-! ## Refund decisions -/

inductive DecisionAction
  | approve | reject
  deriving DecidableEq, Repr

/-- The role a refund decision is made in. -/
inductive UserRole
  | customer | vendor | admin
  deriving DecidableEq, Repr

/-- What `recordRefundDecision` has read and resolved before its
transaction. -/
structure DecisionRead where
  userId : Id
  actor : CancelActor
  booking : Booking
  paymentId : Id
  action : DecisionAction
  finalAmount : Cents
  note : Option String

def decisionRead (db : Db) (userId : Id) (role : UserRole) (bookingId : Id)
    (action : DecisionAction) (amount : Option ℚ) (note : Option String) :
    Tx DecisionRead := do
  let booking ← orThrow (db.bookings.find? bookingId) (.notFound "Booking not found")
  let payment ← orThrow (booking.paymentId.bind (fun id => db.payments.find? id))
    (.badRequest "No payment associated with this booking")
  ensure (booking.status = .cancelled)
    (.badRequest "Refund decisions can only be recorded on cancelled bookings")
  ensure (payment.status = .refundPending)
    (.conflict "This refund request has already been decided")
  let isVendorOwner := role = .vendor ∧
    ∃ v ∈ db.vendors.find? booking.vendorId, v.userId = userId
  ensure (role = .admin ∨ isVendorOwner)
    (.forbidden "Not authorised to decide this refund")
  let finalAmount ← (match action with
    | .reject => return 0
    | .approve => do
        let amount ← orThrow amount
          (.badRequest "Amount is required when approving a refund")
        ensure (0 ≤ amount) (.badRequest "Amount cannot be negative")
        ensure (amount ≤ payment.amount.toNum)
          (.badRequest ("Amount cannot exceed the original payment of " ++
            payment.amount.toText))
        return toCents amount : Tx Cents)
  return {
    userId := userId
    actor := if role = .admin then .admin else .vendor
    booking := booking
    paymentId := payment.id
    action := action
    finalAmount := finalAmount
    note := note.map (fun n => String.ofList (sliceUnits 1000 n.toList)) }

/-- Points for an approved cash amount, at the current rate. -/
def refundPointsOf (config : LoyaltyConfig) (amount : Cents) : Cents :=
  if config.qarPerPoint > 0 then toCents (amount.toNum / config.qarPerPoint) else 0

def approvedSource (actor : CancelActor) : LoyaltyLedgerSource :=
  if actor = .admin then .adminRefundApproved else .vendorRefundApproved

def ledgerActor (actor : CancelActor) : LoyaltyActorType :=
  match actor with
  | .customer => .customer
  | .vendor => .vendor
  | .admin => .admin
  | .system => .system

/-- Credits an approved cash amount as points: nothing when it comes to
none. -/
def creditRefund (db : Db) (customerId bookingId : Id) (points : Cents)
    (actor : CancelActor) (actorId : Option Id) (note : String) : Tx Db :=
  if points > 0 then do
    let r ← Loyalty.refund db
      ⟨customerId, points.toNum, bookingId, approvedSource actor, ledgerActor actor,
        actorId, note⟩
    return r.db
  else .ok db

/-- The transaction of `recordRefundDecision`. -/
def decisionCommit (now : Instant) (db : Db) (r : DecisionRead) : Tx Db := do
  let config := db.loyaltyConfig.getD {}
  let db := { db with loyaltyConfig := some config }
  let refundPoints := if r.action = .approve ∧ r.finalAmount > 0 then
    refundPointsOf config r.finalAmount else 0
  let db ← flipPayment db r.paymentId .refundPending (fun q => { q with
    status := if r.action = .approve then .refunded else .rejected
    refundAmount := if r.action = .approve then some r.finalAmount else none
    refundedAt := some now }) "This refund request has already been decided"
  let db ← updateBooking db r.booking.id (fun b => { b with
    refundDecisionAt := some now
    refundDecisionBy := some r.userId
    refundDecisionActor := some r.actor
    refundDecisionNote := r.note })
  creditRefund db r.booking.customerId r.booking.id refundPoints r.actor (some r.userId)
    ("Refund of " ++ r.finalAmount.toText ++ " converted to " ++ refundPoints.toText ++
      " points for booking " ++ r.booking.ref)

end Jadwal
