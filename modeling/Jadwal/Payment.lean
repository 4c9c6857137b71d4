import Jadwal.CreateBooking

/-!
# Payments

`initiatePayment` and the gateway callback.  Each operation is cut where
the source cuts it: what it reads before it writes, and each transaction.
A pre-read is a value of its own type, so that another request can commit
between it and the write that relies on it.
-/

namespace Jadwal

open Outcome

/-! ## Initiating a payment -/

/-- What `initiatePayment` has read when it acquires its lock. -/
structure InitiateRead where
  bookingId : Id
  paymentId : Id
  gatewayBasketId : Option String
  storedKey : Option String
  requestKey : Option String

/-- The checks of `initiatePayment`, up to the Redis lock. -/
def initiateRead (env : Env) (now : Instant) (db : Db) (bookingId userId : Id)
    (idempotencyKey : Option String) : Tx InitiateRead := do
  ensure env.paymentEnabled (.badRequest "Payment service is not available")
  let booking ← orThrow
    ((db.bookings.find? bookingId).filter (fun b => b.customerId = userId))
    (.notFound "Booking not found")
  ensure (booking.status = .pending)
    (.badRequest "Booking is not in a payable state")
  ensure (∀ reservedUntil ∈ booking.reservedUntil, now + minute ≤ reservedUntil)
    (.badRequest "Reservation has expired. Please create a new booking.")
  ensure (booking.emailOtpVerifiedAt ≠ none)
    (.badRequest "Please verify your email before proceeding to payment.")
  let notPayable := HttpError.badRequest "This booking is not in a payable state."
  let paymentId ← orThrow booking.paymentId notPayable
  let payment ← orThrow (db.payments.find? paymentId) notPayable
  ensure (payment.status = .pending) notPayable
  -- the customer's earlier use of the key must have been for this payment
  ensure (idempotencyKey = none ∨ ∀ q ∈ db.payments.rows, q.idempotencyKey = idempotencyKey →
      (∃ b ∈ db.bookings.rows, b.paymentId = some q.id ∧ b.customerId = userId) →
      q.id = payment.id)
    (.conflict "This idempotency key was already used for a different booking.")
  return ⟨bookingId, payment.id, payment.gatewayBasketId, payment.idempotencyKey,
    idempotencyKey⟩

/-- The row of an initiated payment. -/
def Payment.initiate (now : Instant) (r : InitiateRead) (basketId : String)
    (q : Payment) : Payment :=
  { q with
    gatewayBasketId := if r.gatewayBasketId = none then some basketId
      else q.gatewayBasketId
    paymentFirstInitiatedAt := if r.gatewayBasketId = none then some now
      else q.paymentFirstInitiatedAt
    idempotencyKey := (if r.storedKey = none then r.requestKey else none).or
      q.idempotencyKey
    paymentInitiatedAt := some now }

/-- The write of `initiatePayment`: the basket id and the first-initiation
stamp are set when the pre-read found no basket, whatever the row says by
now. -/
def initiateWrite (now : Instant) (db : Db) (r : InitiateRead) (basketId : String) :
    Tx Db := do
  let _ ← orThrow (db.payments.find? r.paymentId) (.recordNotFound "Payment")
  ensure (r.gatewayBasketId ≠ none ∨ ∀ q ∈ db.payments.rows,
      q.id ≠ r.paymentId → q.gatewayBasketId ≠ some basketId)
    (.uniqueViolation "payments.gatewayBasketId")
  let newKey := if r.storedKey = none then r.requestKey else none
  ensure (newKey = none ∨ ∀ q ∈ db.payments.rows,
      q.id ≠ r.paymentId → q.idempotencyKey ≠ newKey)
    (.uniqueViolation "payments.idempotencyKey")
  let payments := db.payments.update r.paymentId (Payment.initiate now r basketId)
  return { db with payments := payments }

/-! ## The signature of a callback -/

inductive Rail
  | card | naps
  deriving DecidableEq, Repr

/-- `n.toFixed(2)` of a column value. -/
def Cents.toFixed2 (c : Cents) : String :=
  let frac := c.natAbs % 100
  (if c < 0 then "-" else "") ++ toString (c.natAbs / 100) ++ "." ++
    (if frac < 10 then "0" else "") ++ toString frac

/-- `n.toFixed(0)` of a column value. -/
def Cents.toFixed0 (c : Cents) : String :=
  (if c < 0 then "-" else "") ++ toString ((c.natAbs + 50) / 100)

def isHexDigit (c : Char) : Bool :=
  c.isDigit ∨ ('a' ≤ c ∧ c ≤ 'f') ∨ ('A' ≤ c ∧ c ≤ 'F')

/-- The code and the rail under which the response key verifies: the
received code and the two success spellings, each amount rendering, and
both orders of amount and code. -/
def resolveSignedErrCode (env : Env) (basketId : String) (amount : Cents)
    (receivedErrCode responseKey : String) : Option (String × Rail) :=
  if responseKey.length = 64 ∧ responseKey.all isHexDigit then
    [receivedErrCode, "00", "000"].findSome? (fun ec =>
      [amount.toFixed2, amount.toText, amount.toFixed0].findSome? (fun amt =>
        [(amt ++ ec, Rail.card), (ec ++ amt, Rail.naps)].findSome? (fun (tail, rail) =>
          if env.sha256 (env.merchantId ++ basketId ++ env.secretWord ++ tail) =
              responseKey.toLower then some (ec, rail)
          else none)))
  else none

/-! ## Classifying a callback -/

inductive CallbackVia
  | callback | ipn
  deriving DecidableEq, Repr

structure CallbackParams where
  errCode : String
  basketId : String
  transactionId : Option String := none
  responseKey : String := ""
  via : CallbackVia := .callback
  /-- An IPN from an allow-listed source with the feature flag on. -/
  trustedCapture : Bool := false
  deriving DecidableEq, Repr

/-- What the handler does with a callback for a payment it has found. -/
inductive Verdict
  /-- Already `SUCCESS`: answered, at most audited as a second capture. -/
  | alreadySuccess
  /-- An IPN that is untrusted or not a success: nothing. -/
  | ignored
  /-- A NAPS success: held, the reservation extended. -/
  | hold
  /-- The payment had failed and this is no success: answered. -/
  | declined
  /-- The response key does not verify: an error. -/
  | rejected
  /-- Settled in the transaction, as a success or as a failure. -/
  | settle (isSuccess : Bool)
  deriving DecidableEq, Repr

/-- The verdict of a browser callback from the resolved signature. -/
def browserVerdict (status : PaymentStatus) (resolved : Option (String × Rail)) :
    Verdict :=
  let signedSuccess := ∃ r ∈ resolved, r.1 = "00" ∨ r.1 = "000"
  let isNapsHeldSuccess := signedSuccess ∧ ∃ r ∈ resolved, r.2 = Rail.naps
  let isSuccess := signedSuccess ∧ ∃ r ∈ resolved, r.2 = Rail.card
  if status = .failed ∧ ¬ isSuccess then
    if isNapsHeldSuccess then .hold else .declined
  else if resolved = none then .rejected
  else if isNapsHeldSuccess then .hold
  else .settle (decide isSuccess)

def classifyCallback (env : Env) (payment : Payment) (params : CallbackParams) : Verdict :=
  if payment.status = .success then .alreadySuccess
  else
    match params.via with
    | .ipn =>
        if ¬ params.trustedCapture then .ignored
        else if trimmed params.errCode ∈ ["00", "000", "0000"] then .settle true
        else .ignored
    | .callback => browserVerdict payment.status
        (resolveSignedErrCode env params.basketId payment.amount params.errCode
          params.responseKey)

/-! ## Settling -/

/-- What is left to do after a success committed. -/
inductive RecoveryMode
  | b2Orphan | m6SystemCancelled | cancelledRefund
  deriving DecidableEq, Repr

/-- The committed result of the settling transaction: whether this
callback was the one that settled the payment, and the recovery it asks
for. -/
structure Settled where
  db : Db
  updated : Bool
  recovery : Option RecoveryMode := none

/-- A reservation that holds its seat until the given instant. -/
def Booking.holdUntil (extendTo : Instant) (b : Booking) : Booking :=
  { b with reservedUntil := some extendTo }

/-- `holdNapsSuccess`: extends the reservation of a pending booking to half
an hour from now, never shortening it. -/
def holdNapsSuccess (now : Instant) (db : Db) (bookingId : Option Id) : Db :=
  let extendTo := now + 30 * minute
  let bookings := db.bookings.updateMany
    (fun b => bookingId = some b.id ∧ b.status = .pending ∧
      ∃ reservedUntil ∈ b.reservedUntil, reservedUntil < extendTo)
    (Booking.holdUntil extendTo)
  { db with bookings := bookings }

/-- Returns the points redeemed on a booking: nothing when there are none. -/
def returnPointsOf (db : Db) (b : Booking) (source : LoyaltyLedgerSource)
    (actorType : LoyaltyActorType) (actorId : Option Id) (note : String) : Tx Db :=
  if b.pointsRedeemed > 0 then do
    let r ← Loyalty.refund db
      ⟨b.customerId, b.pointsRedeemed.toNum, b.id, source, actorType, actorId, note⟩
    return r.db
  else .ok db

/-- A missing or empty transaction id is stored as null. -/
def capturedTxn (params : CallbackParams) : Option String :=
  params.transactionId.filter (fun t => t ≠ "")

/-- The row of a captured payment. -/
def Payment.capture (now : Instant) (params : CallbackParams) (q : Payment) : Payment :=
  { q with
    status := .success
    gatewayTxnId := capturedTxn params
    gatewayErrCode := some params.errCode
    gatewayResponseKey := some params.responseKey
    paidAt := some now
    method := "PAY2M" }

/-- The success branch: the payment becomes `SUCCESS` from `PENDING` or
`FAILED`, and a booking that was not cancelled is confirmed. -/
def settleSuccess (now : Instant) (db : Db) (payment : Payment)
    (params : CallbackParams) : Tx Settled :=
  match (db.payments.find? payment.id).filter
      (fun q => q.status = .pending ∨ q.status = .failed) with
  | none => .ok ⟨db, false, none⟩
  | some _ => do
      let txn := capturedTxn params
      ensure (txn = none ∨ ∀ q ∈ db.payments.rows,
          q.id ≠ payment.id → q.gatewayTxnId ≠ txn)
        (.uniqueViolation "payments.gatewayTxnId")
      let payments := db.payments.update payment.id (Payment.capture now params)
      let db := { db with payments := payments }
      let bookingId ← orThrow payment.bookingId (.recordNotFound "Booking")
      match db.bookings.find? bookingId with
      | none => return ⟨db, true, some .b2Orphan⟩
      | some booking =>
          if booking.status = .cancelled then
            return ⟨db, true, some (if booking.cancelledBy = some .system then
              .m6SystemCancelled else .cancelledRefund)⟩
          else
            let bookings := db.bookings.update bookingId
              (fun b => { b with status := .confirmed })
            return ⟨{ db with bookings := bookings }, true, none⟩

/-- The row a settled success claims. -/
theorem unpaid_row {db : Db} {pid : Id} {q : Payment} (hq : db.payments.find? pid = some q)
    (hs : q.status = .pending ∨ q.status = .failed) :
    (db.payments.find? pid).filter (fun q => q.status = .pending ∨ q.status = .failed) =
      some q :=
  Option.filter_eq_some_iff.mpr ⟨hq, decide_eq_true hs⟩

/-- The failure branch: the payment becomes `FAILED` from `PENDING`, its
booking's coupon use and points are returned, and the booking is deleted. -/
def settleFailure (now : Instant) (db : Db) (payment : Payment) : Tx Settled :=
  match (db.payments.find? payment.id).filter (fun q => q.status = .pending) with
  | none => .ok ⟨db, false, none⟩
  | some _ => do
      let payments := db.payments.update payment.id
        (fun q => { q with status := .failed, idempotencyKey := none })
      let db := { db with payments := payments }
      match payment.bookingId with
      | none => return ⟨db, true, none⟩
      | some bookingId => do
          let doomed ← orThrow (db.bookings.find? bookingId) (.recordNotFound "Booking")
          let db := refundCouponUsage now db doomed.couponCode doomed.customerId
          let db ← returnPointsOf db doomed .cancelRefundUnpaid .system none
            ("Payment failed — returned " ++ doomed.pointsRedeemed.toText ++
              " redeemed points for deleted booking")
          return ⟨{ db with bookings := db.bookings.delete bookingId }, true, none⟩

def settleTx (now : Instant) (db : Db) (payment : Payment) (params : CallbackParams)
    (isSuccess : Bool) : Tx Settled :=
  if isSuccess then settleSuccess now db payment params
  else settleFailure now db payment

/-! ## Recovery after a settled success -/

/-- The row of a payment that waits for a refund decision. -/
def Payment.awaitRefund (amount : Cents) (q : Payment) : Payment :=
  { q with status := .refundPending, refundAmount := some amount }

/-- `queueB2Refund`: a captured payment without a booking waits for a
refund decision. -/
def queueB2Refund (db : Db) (paymentId : Id) (amount : Cents) : Db :=
  let payments := db.payments.updateMany
    (fun q => q.id = paymentId ∧ q.status = .success)
    (Payment.awaitRefund amount)
  { db with payments := payments }

/-- What the checks before the recovery transaction decide. -/
inductive RecoveryPlan
  | nothing
  | refund (amount : Cents) (reason : String)
  | recreate (amount : Cents) (bookingId : Option Id) (snapshot : BookingSnapshot)
  deriving DecidableEq

/-- The reads of `attemptB2OrphanRecovery` before its transaction. -/
def b2Preflight (env : Env) (now : Instant) (db : Db) (paymentId : Id) : RecoveryPlan :=
  match db.payments.find? paymentId with
  | none => .nothing
  | some fresh =>
      if fresh.bookingRecreatedAt ≠ none then .nothing
      else match fresh.bookingSnapshot with
        | none => .refund fresh.amount "NO_SNAPSHOT"
        | some snapshot =>
            if snapshot.v ≠ 2 then
              .refund fresh.amount ("UNKNOWN_SNAPSHOT_VERSION:" ++ toString snapshot.v)
            else match (db.users.find? snapshot.customerId).filter
                (fun u => u.deletedAt = none) with
              | none => .refund fresh.amount "CUSTOMER_DELETED"
              | some _ =>
                  match db.activities.find? snapshot.activityId with
                  | none => .refund fresh.amount "ACTIVITY_DELETED"
                  | some activity =>
                      let tz := ((db.countries.find? activity.countryId).map
                        Country.defaultTimezone).getD "UTC"
                      if snapshot.endDatetime ≤ nowInTimezone env tz now then
                        .refund fresh.amount "ACTIVITY_ALREADY_ENDED"
                      else if activity.status ≠ .active then
                        .refund fresh.amount ("ACTIVITY_STATUS:" ++ activity.status.text)
                      else .recreate fresh.amount fresh.bookingId snapshot

inductive RecoveryKind
  | recreated | alreadyRecovered | slotConflict
  deriving DecidableEq, Repr

/-- The booking orphan recovery re-inserts. -/
def recreatedBooking (id paymentId : Id) (s : BookingSnapshot) : Booking where
  id := id
  ref := s.ref
  activityId := s.activityId
  vendorId := s.vendorId
  customerId := s.customerId
  unitNumber := s.unitNumber
  startDatetime := s.startDatetime
  endDatetime := s.endDatetime
  guests := s.guests
  bookingPhone := s.bookingPhone
  guestBreakdown := s.guestBreakdown
  selectedExtras := s.selectedExtras
  totalPrice := s.totalPrice
  serviceFee := s.serviceFee
  commissionPct := s.commissionPct
  commissionAmount := s.commissionAmount
  couponCode := s.couponCode
  couponDiscount := s.couponDiscount
  pointsRedeemed := s.pointsRedeemed
  pointsDiscount := s.pointsDiscount
  currencyCode := s.currencyCode
  idempotencyKey := s.idempotencyKey
  status := .confirmed
  paymentId := some paymentId
  createdAt := s.originalCreatedAt

/-- The claim of orphan recovery. -/
def Payment.stampRecreated (now : Instant) (q : Payment) : Payment :=
  { q with bookingRecreatedAt := some now }

/-- The link to the recreated booking. -/
def Payment.relink (bookingId : Id) (q : Payment) : Payment :=
  { q with bookingId := some bookingId }

/-- The serializable transaction of orphan recovery.  The stamp
`bookingRecreatedAt` admits one attempt; a slot conflict keeps the stamp,
and a throw discards it with everything else. -/
def b2Recreate (now : Instant) (db : Db) (paymentId : Id) (bookingId : Option Id)
    (s : BookingSnapshot) : Tx (Db × RecoveryKind) :=
  match (db.payments.find? paymentId).filter
      (fun q => q.bookingRecreatedAt = none) with
  | none => .ok (db, .alreadyRecovered)
  | some _ => do
      let payments := db.payments.update paymentId (Payment.stampRecreated now)
      let db := { db with payments := payments }
      let slotFree := recoverySlotAvailable db now
        ⟨s.activityId, s.unitNumber, s.startDatetime, s.endDatetime, s.guests, none⟩
      if ¬ slotFree then return (db, .slotConflict)
      else
        -- the original id, or a generated one when the payment has none
        let booking := recreatedBooking (bookingId.getD db.nextId) paymentId s
        let db := { db with nextId := if bookingId = none then db.nextId + 1 else db.nextId }
        let db ← insertBooking db booking
        ensure (∀ q ∈ db.payments.rows, q.id ≠ paymentId → q.bookingId ≠ some booking.id)
          (.uniqueViolation "payments.bookingId")
        let payments := db.payments.update paymentId (Payment.relink booking.id)
        let db := reclaimCouponUsage { db with payments := payments }
          s.couponCode s.customerId
        let db ← redeemPointsOf db booking
          ("§B2 recovery re-debit of redeemed points, booking " ++ s.ref)
        return (db, .recreated)

/-- What the checks before the un-cancel transaction decide. -/
inductive UnCancelPlan
  | nothing
  | refund (amount : Cents) (reason : String)
  | unCancel (booking : Booking)
  deriving DecidableEq

/-- The reads of `attemptM6UnCancel` before its transaction. -/
def m6Preflight (env : Env) (now : Instant) (db : Db) (paymentId bookingId : Id) :
    UnCancelPlan :=
  let refundWith (reason : String) : UnCancelPlan :=
    match db.payments.find? paymentId with
    | some fresh => .refund fresh.amount reason
    | none => .nothing
  match db.bookings.find? bookingId with
  | none => refundWith "BOOKING_DISAPPEARED_MID_FLIGHT"
  | some booking =>
      if booking.status ≠ .cancelled ∨ booking.cancelledBy ≠ some .system then .nothing
      else
        let tz := (((db.activities.find? booking.activityId).bind
          (fun a => db.countries.find? a.countryId)).map Country.defaultTimezone).getD "UTC"
        if booking.endDatetime ≤ nowInTimezone env tz now then
          refundWith "ACTIVITY_ALREADY_ENDED"
        else .unCancel booking

/-- The row of a booking that is confirmed again. -/
def Booking.unCancel (b : Booking) : Booking :=
  { b with status := .confirmed, cancelledAt := none, cancelledBy := none }

/-- The serializable transaction of the un-cancel: flips the row back, and
throws when the slot of the booking read before is taken. -/
def m6UnCancel (now : Instant) (db : Db) (booking : Booking) :
    Tx (Db × RecoveryKind) :=
  match (db.bookings.find? booking.id).filter
      (fun b => b.status = .cancelled ∧ b.cancelledBy = some .system) with
  | none => .ok (db, .alreadyRecovered)
  | some _ => do
      let bookings := db.bookings.update booking.id Booking.unCancel
      let db := { db with bookings := bookings }
      let slotFree := recoverySlotAvailable db now
        ⟨booking.activityId, booking.unitNumber, booking.startDatetime,
          booking.endDatetime, booking.guests, some booking.id⟩
      ensure (slotFree ∧ ∀ a ∈ db.activities.find? booking.activityId,
          a.status ≠ .inactive) (.conflict "SLOT_CONFLICT")
      return (db, .recreated)

end Jadwal
