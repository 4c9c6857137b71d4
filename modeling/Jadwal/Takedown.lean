import Jadwal.CouponUses

/-!
# Taking an activity down

`updateActivityStatus` of the admin service.  The status is written first.  A
status that takes the activity down then cancels its bookings that have not
started: it reads them, cancels them one after the other, and last approves the
refunds still queued on the activity.  Each of these is a transaction of its
own, and what fails is counted and skipped.
-/

namespace Jadwal

open Outcome

/-- A call that takes an activity down: `INACTIVE` or `BLOCKED`, and the reason
the administrator gives. -/
structure TakedownCall where
  activityId : Id
  adminUserId : Id
  blocked : Bool
  adminReason : Option String

def cascadeMax : Nat := 1000

namespace TakedownCall

def reasonText (c : TakedownCall) : String := if c.blocked then "blocked" else "deactivated"

def refundNote (c : TakedownCall) : String :=
  match c.adminReason.filter (fun reason => reason ≠ "") with
  | some reason =>
      "Activity " ++ c.reasonText ++ " by admin: " ++ String.ofList (sliceUnits 500 reason.toList)
  | none => "Activity " ++ c.reasonText ++ " by admin"

end TakedownCall

/-- The first write: the status of the activity. -/
def setActivityStatus (db : Db) (activityId : Id) (status : ActivityStatus) : Tx Db := do
  let _ ← orThrow (db.activities.find? activityId) (.recordNotFound "Activity")
  let activities := db.activities.update activityId (fun a => { a with status := status })
  return { db with activities := activities }

/-- Pending or confirmed. -/
def Booking.Open (b : Booking) : Prop := b.status = .pending ∨ b.status = .confirmed

instance (b : Booking) : Decidable b.Open := inferInstanceAs (Decidable (_ ∨ _))

/-- The bookings of the activity that have not started by its local clock, with
their payments. -/
def futureBookings (db : Db) (activityId : Id) (nowLocal : Instant) :
    List (Booking × Option Payment) :=
  ((db.bookings.select (fun b => b.activityId = activityId ∧ b.Open ∧
    nowLocal ≤ b.startDatetime)).take cascadeMax).map
      (fun b => (b, b.paymentId.bind (fun id => db.payments.find? id)))

/-- The cancelled bookings of the activity whose refund is queued. -/
def queuedRefunds (db : Db) (activityId : Id) : List (Booking × Payment) :=
  ((db.bookings.select (fun b => b.activityId = activityId ∧ b.status = .cancelled)).filterMap
    (fun b => ((b.paymentId.bind (fun id => db.payments.find? id)).filter
      (fun q => q.status = .refundPending)).map (fun q => (b, q)))).take cascadeMax

/-- The row of a booking the cascade cancels. -/
def TakedownCall.claim (c : TakedownCall) (now : Instant) (b : Booking) : Booking :=
  { b with
    status := .cancelled
    cancelledAt := some now
    cancelledBy := some .admin
    refundDecisionAt := some now
    refundDecisionBy := some c.adminUserId
    refundDecisionActor := some .admin
    refundDecisionNote := some c.refundNote }

theorem Payment.key_refunded (now : Instant) (q x : Payment) :
    Keyed.key { x with
      status := .refunded, refundAmount := some q.amount, refundedAt := some now } =
        Keyed.key x := rfl

/-- The payment of a cancelled booking, as it was read: a captured one is
refunded as points, a pending one fails. -/
def cascadeRefund (now : Instant) (db : Db) (c : TakedownCall) (config : LoyaltyConfig)
    (b : Booking) (payment : Option Payment) : Tx Db :=
  match payment with
  | none => .ok db
  | some q =>
      match q.status with
      | .success => do
          let _ ← orThrow (db.payments.find? q.id) (.recordNotFound "Payment")
          let payments := db.payments.update q.id (fun x => { x with
            status := .refunded, refundAmount := some q.amount, refundedAt := some now })
            (Payment.key_refunded now q)
          let refundPoints := refundPointsOf config q.amount
          creditRefund { db with payments := payments } b.customerId b.id refundPoints .admin
            (some c.adminUserId) ("Cascade " ++ c.reasonText ++ ": " ++ q.amount.toText ++
              " refund → " ++ refundPoints.toText ++ " points, booking " ++ b.ref)
      | .pending => flipPayment db q.id .pending (fun x => { x with status := .failed })
          ("This booking changed while you were cancelling. " ++
            "Please refresh to see its current state.") Payment.key_failed
      | _ => .ok db

/-- The cascade's transaction on one booking: nothing when the booking is no
longer pending or confirmed. -/
def cascadeCancel (now : Instant) (db : Db) (c : TakedownCall) (config : LoyaltyConfig)
    (b : Booking) (payment : Option Payment) : Tx Db :=
  match (db.bookings.find? b.id).filter (fun x => x.Open) with
  | none => .ok db
  | some _ => do
      let bookings := db.bookings.update b.id (c.claim now)
      let db ← cascadeRefund now { db with bookings := bookings } c config b payment
      let db ← returnPointsOf db b .cancelRefundPaid .admin (some c.adminUserId)
        ("Returned redeemed points on cascade cancel for booking " ++ b.ref)
      return refundCouponUsage now db b.couponCode b.customerId

/-- The cascade's transaction on a queued refund: nothing when it has been
decided. -/
def cascadeApprove (now : Instant) (db : Db) (c : TakedownCall) (config : LoyaltyConfig)
    (b : Booking) (q : Payment) : Tx Db :=
  match (db.payments.find? q.id).filter (fun x => x.status = .refundPending) with
  | none => .ok db
  | some _ => do
      let payments := db.payments.update q.id (fun x => { x with
        status := .refunded, refundAmount := some q.amount, refundedAt := some now })
        (Payment.key_refunded now q)
      let db ← updateBooking { db with payments := payments } b.id (fun x => { x with
        refundDecisionAt := some now
        refundDecisionBy := some c.adminUserId
        refundDecisionActor := some .admin
        refundDecisionNote := some c.refundNote })
      let refundPoints := refundPointsOf config q.amount
      creditRefund db b.customerId b.id refundPoints .admin (some c.adminUserId)
        ("Auto-approved pending refund on activity " ++ c.reasonText ++ ": " ++
          q.amount.toText ++ " → " ++ refundPoints.toText ++ " points, booking " ++ b.ref)

/-! ## Calls in progress -/

/-- What a call does next, with what it has read. -/
inductive TakedownStage
  | flipped
  | listed (todo : List (Booking × Option Payment))
  | cancelling (config : LoyaltyConfig) (todo : List (Booking × Option Payment))
  | refunding (config : LoyaltyConfig) (todo : List (Booking × Payment))
  | returned

/-- A booking a call has cancelled, as it read it. -/
structure Cascaded where
  config : LoyaltyConfig
  booking : Booking
  payment : Option Payment

/-- A call, the clock it judges bookings by, and its count of failures.
`cancelled` records what it has cancelled, and `reopened` that the activity has
been made `ACTIVE` since. -/
structure Takedown where
  call : TakedownCall
  tz : String
  stage : TakedownStage := .flipped
  failed : Nat := 0
  cancelled : List Cascaded := []
  reopened : Bool := false

def TakedownStage.isReturned : TakedownStage → Bool
  | .returned => true
  | _ => false

/-- The call has returned, and reports no failure. -/
def Takedown.Succeeded (d : Takedown) : Prop := d.stage.isReturned = true ∧ d.failed = 0

instance (d : Takedown) : Decidable d.Succeeded := inferInstanceAs (Decidable (_ ∧ _))

/-- One transaction, or read, of a call. -/
def Takedown.advance (env : Env) (now : Instant) (db : Db) (d : Takedown) : Db × Takedown :=
  match d.stage with
  | .flipped =>
      let todo := futureBookings db d.call.activityId (nowInTimezone env d.tz now)
      (db, { d with stage := if todo.isEmpty then .returned else .listed todo })
  | .listed todo =>
      -- the configuration row is created on first use
      let config := db.loyaltyConfig.getD {}
      ({ db with loyaltyConfig := some config }, { d with stage := .cancelling config todo })
  | .cancelling config ((b, payment) :: todo) =>
      match cascadeCancel now db d.call config b payment with
      | .ok db' =>
          let claimed := ((db.bookings.find? b.id).filter (fun x => x.Open)).isSome
          (db', { d with
            stage := .cancelling config todo
            cancelled := if claimed then d.cancelled ++ [⟨config, b, payment⟩]
              else d.cancelled })
      | .error _ => (db, { d with stage := .cancelling config todo, failed := d.failed + 1 })
  | .cancelling config [] =>
      (db, { d with stage := .refunding config (queuedRefunds db d.call.activityId) })
  | .refunding config ((b, q) :: todo) =>
      match cascadeApprove now db d.call config b q with
      | .ok db' => (db', { d with stage := .refunding config todo })
      | .error _ => (db, { d with stage := .refunding config todo, failed := d.failed + 1 })
  | .refunding _ [] => (db, { d with stage := .returned })
  | .returned => (db, d)

/-- The system, and the calls that take activities down. -/
structure TakedownWorld where
  sys : Sys
  calls : List Takedown

inductive TakedownAction
  | act (a : Action)
  /-- The status is written; one that takes the activity down starts a cascade. -/
  | setStatus (activityId : Id) (status : ActivityStatus) (adminUserId : Id)
      (reason : Option String)
  | advance (index : Nat)

/-- The call is about an activity that is made `ACTIVE`. -/
def Takedown.reopen (activityId : Id) (d : Takedown) : Takedown :=
  { d with reopened := d.reopened || d.call.activityId = activityId }

/-- The cascade a status starts, if any. -/
def cascadeOf (db : Db) (activityId : Id) (status : ActivityStatus) (adminUserId : Id)
    (reason : Option String) : List Takedown :=
  match status with
  | .inactive => [⟨⟨activityId, adminUserId, false, reason⟩, activityTimezone db activityId,
      .flipped, 0, [], false⟩]
  | .blocked => [⟨⟨activityId, adminUserId, true, reason⟩, activityTimezone db activityId,
      .flipped, 0, [], false⟩]
  | _ => []

def TakedownWorld.step (env : Env) (w : TakedownWorld) : TakedownAction → Option TakedownWorld
  | .act a => (w.sys.step env a).map (fun s => { w with sys := s })
  | .setStatus activityId status adminUserId reason =>
      (setActivityStatus w.sys.db activityId status).toOption.map (fun db =>
        { sys := { w.sys with db := db }
          calls := (if status = .active then w.calls.map (Takedown.reopen activityId)
            else w.calls) ++ cascadeOf w.sys.db activityId status adminUserId reason })
  | .advance index =>
      (w.calls[index]?).map (fun d =>
        let r := d.advance env w.sys.now w.sys.db
        { sys := { w.sys with db := r.1 }, calls := w.calls.set index r.2 })

end Jadwal
