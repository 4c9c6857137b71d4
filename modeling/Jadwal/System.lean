import Jadwal.Cron
import Jadwal.Lib.Run

/-!
# The running system

Requests, gateway callbacks and jobs run at the same time.  One of them is
a chain of **tasks**: what it has read so far, waiting to commit its next
transaction.  `begin` is everything before the first transaction,
`Task.run` is one transaction together with what the handler does up to
the next, and a step of the system lets time pass, starts a request, or
runs any task in flight.  A task that is never run is a handler that died.

A transaction commits as a whole or not at all, so an interleaving is an
order of reads and commits.
-/

namespace Jadwal

open Outcome

/-! ## Verifying the email code -/

/-- The lookup of `verifyBookingEmailOtp`, for a request that carries the
right code. -/
def otpRead (db : Db) (userId bookingId : Id) : Tx Booking := do
  let booking ← orThrow
    ((db.bookings.find? bookingId).filter (fun b => b.customerId = userId))
    (.notFound "Booking not found")
  ensure (booking.emailOtpVerifiedAt = none) (.badRequest "Already verified")
  ensure (booking.status = .pending)
    (.badRequest "This booking does not require verification.")
  return booking

/-- The row of a booking whose email code was verified. -/
def Booking.verify (now : Instant) (b : Booking) : Booking :=
  { b with emailOtpVerifiedAt := some now }

/-- Stamps the booking as verified; after a verification the user is
stamped too, once. -/
def otpStamp (now : Instant) (db : Db) (bookingId : Id) (user : Option Id) : Tx Db := do
  let db ← updateBooking db bookingId (Booking.verify now)
  let users := db.users.updateMany
    (fun u => user = some u.id ∧ u.bookingOtpVerifiedAt = none)
    (fun u => { u with bookingOtpVerifiedAt := some now })
  return { db with users := users }

/-! ## Tasks -/

/-- What a handler in flight does next, with what it has read. -/
inductive Task
  | create (p : PreparedBooking) (ref : String)
  | stampOtp (bookingId : Id) (user : Option Id)
  | initiate (r : InitiateRead) (basketId : String)
  | hold (bookingId : Option Id)
  | settle (payment : Payment) (params : CallbackParams) (isSuccess : Bool)
  | b2Check (paymentId : Id)
  | recreate (paymentId : Id) (amount : Cents) (bookingId : Option Id)
      (snapshot : BookingSnapshot)
  | m6Check (paymentId bookingId : Id)
  | unCancel (paymentId : Id) (booking : Booking)
  | queueRefund (paymentId : Id) (amount : Cents)
  | cancel (r : CancelRead)
  | decide (r : DecisionRead)
  | update (r : StatusRead)
  | reap (stale : List Booking)
  | awardBatch (bookings : List Booking) (coarseCutoff : Option Instant)
  | award (pointsPerQar : ℚ) (todo : List Booking) (coarseCutoff : Option Instant)
  | complete (bookings : List Booking)

/-- The state after a transaction: a throw leaves it as it was. -/
def committed (db : Db) (t : Tx Db) : Db :=
  match t with
  | .ok db' => db'
  | .error _ => db

/-- The recovery a settled success goes on with. -/
def afterSettle (payment : Payment) : Option RecoveryMode → Option Task
  | some .b2Orphan => some (.b2Check payment.id)
  | some .m6SystemCancelled => payment.bookingId.map (.m6Check payment.id)
  | some .cancelledRefund => some (.queueRefund payment.id payment.amount)
  | none => none

/-- The second pass of the completion job, when the first one is over. -/
def secondPass (env : Env) (now : Instant) (db : Db) (coarseCutoff : Option Instant) :
    Option Task :=
  coarseCutoff.bind (fun cutoff =>
    match completeCandidates env now db cutoff with
    | [] => none
    | bookings => some (.complete bookings))

/-- The refund that follows a recovery that threw. -/
def refundFresh (db : Db) (paymentId : Id) : Option Task :=
  (db.payments.find? paymentId).map (fun fresh => .queueRefund paymentId fresh.amount)

/-- One transaction of a handler, and the task it leaves. -/
def Task.run (env : Env) (now : Instant) (db : Db) : Task → Db × Option Task
  | .create p ref =>
      match createBookingTx env now db p ref with
      | .error _ => (db, none)
      | .ok (db', booking) =>
          let verified := ∃ u ∈ db'.users.find? booking.customerId,
            u.bookingOtpVerifiedAt ≠ none
          (db', if booking.status = .pending ∧ verified then
            some (.stampOtp booking.id none) else none)
  | .stampOtp bookingId user => (committed db (otpStamp now db bookingId user), none)
  | .initiate r basketId => (committed db (initiateWrite now db r basketId), none)
  | .hold bookingId => (holdNapsSuccess now db bookingId, none)
  | .settle payment params isSuccess =>
      match settleTx now db payment params isSuccess with
      | .error _ => (db, none)
      | .ok settled => (settled.db, afterSettle payment settled.recovery)
  | .b2Check paymentId =>
      match b2Preflight env now db paymentId with
      | .nothing => (db, none)
      | .refund amount _ => (db, some (.queueRefund paymentId amount))
      | .recreate amount bookingId snapshot =>
          (db, some (.recreate paymentId amount bookingId snapshot))
  | .recreate paymentId amount bookingId snapshot =>
      match b2Recreate now db paymentId bookingId snapshot with
      | .error _ => (db, some (.queueRefund paymentId amount))
      | .ok (db', .slotConflict) => (db', some (.queueRefund paymentId amount))
      | .ok (db', _) => (db', none)
  | .m6Check paymentId bookingId =>
      match m6Preflight env now db paymentId bookingId with
      | .nothing => (db, none)
      | .refund amount _ => (db, some (.queueRefund paymentId amount))
      | .unCancel booking => (db, some (.unCancel paymentId booking))
  | .unCancel paymentId booking =>
      match m6UnCancel now db booking with
      | .error _ => (db, refundFresh db paymentId)
      | .ok (db', _) => (db', none)
  | .queueRefund paymentId amount => (queueB2Refund db paymentId amount, none)
  | .cancel r => (committed db (cancelCommit now db r), none)
  | .decide r => (committed db (decisionCommit now db r), none)
  | .update r => (committed db (statusCommit now db r), none)
  | .reap stale => (committed db (reapStale now db stale), none)
  | .awardBatch bookings cutoff =>
      match bookings with
      | [] => (db, secondPass env now db cutoff)
      | _ =>
          -- the configuration row is created on first use
          let config := db.loyaltyConfig.getD {}
          ({ db with loyaltyConfig := some config },
            some (.award config.pointsPerQar bookings cutoff))
  | .award _ [] cutoff => (db, secondPass env now db cutoff)
  | .award pointsPerQar (b :: todo) cutoff =>
      (committed db (awardOne db pointsPerQar b), some (.award pointsPerQar todo cutoff))
  | .complete bookings =>
      (completeConfirmed db bookings,
        some (.awardBatch (bookings.filter (fun b => b.pointsAwarded = false)) none))

/-! ## Requests -/

inductive Request
  | createBooking (userId : Id) (dto : CreateBookingDto) (ref : String)
  | verifyBookingEmailOtp (userId bookingId : Id)
  | initiatePayment (bookingId userId : Id) (idempotencyKey : Option String)
      (basketId : String)
  | handleCallback (params : CallbackParams)
  | cancelBooking (userId bookingId : Id)
  | recordRefundDecision (userId : Id) (role : UserRole) (bookingId : Id)
      (action : DecisionAction) (amount : Option ℚ) (note : Option String)
  | vendorUpdateBookingStatus (userId bookingId : Id) (newStatus : BookingStatus)
  | adminUpdateBookingStatus (adminUserId bookingId : Id) (status : BookingStatus)
  | autoCancelStalePendingBookings
  | autoCompletePastBookings

/-- The payment a callback names. -/
def findByBasket (db : Db) (basketId : String) : Option Payment :=
  db.payments.first? (fun q => q.gatewayBasketId = some basketId)

/-- The lookup and classification of `handleCallback`. -/
def callbackRead (env : Env) (db : Db) (params : CallbackParams) : Tx (Option Task) := do
  ensure env.paymentEnabled (.badRequest "Payment service is not available")
  let payment ← orThrow (findByBasket db params.basketId)
    (.badRequest "Payment not found")
  match classifyCallback env payment params with
  | .hold => return some (.hold payment.bookingId)
  | .settle isSuccess => return some (.settle payment params isSuccess)
  | .rejected => throw (.badRequest "Payment verification failed")
  | .alreadySuccess | .ignored | .declined => return none

/-- Everything a request does before its first transaction; `none` when
there is nothing to commit. -/
def Request.read (env : Env) (now : Instant) (db : Db) : Request → Tx (Option Task)
  | .createBooking userId dto ref =>
      return (← prepareBooking env now db userId dto).map (Task.create · ref)
  | .verifyBookingEmailOtp userId bookingId =>
      return some (.stampOtp (← otpRead db userId bookingId).id (some userId))
  | .initiatePayment bookingId userId key basketId =>
      return some (.initiate (← initiateRead env now db bookingId userId key) basketId)
  | .handleCallback params => callbackRead env db params
  | .cancelBooking userId bookingId =>
      return some (.cancel (← cancelRead env now db userId bookingId))
  | .recordRefundDecision userId role bookingId action amount note =>
      return some (.decide (← decisionRead db userId role bookingId action amount note))
  | .vendorUpdateBookingStatus userId bookingId newStatus =>
      return some (.update (← vendorStatusRead env now db userId bookingId newStatus))
  | .adminUpdateBookingStatus adminUserId bookingId status =>
      return some (.update (← adminStatusRead db adminUserId bookingId status))
  | .autoCancelStalePendingBookings =>
      match staleBookings env now db with
      | [] => return none
      | stale => return some (.reap stale)
  | .autoCompletePastBookings =>
      return some (.awardBatch (awardCandidates env now db) (some (now + maxTzOffset)))

/-! ## Steps -/

structure Sys where
  now : Instant
  db : Db
  inflight : List Task

inductive Action
  /-- Milliseconds pass. -/
  | tick (elapsed : Nat)
  /-- A request is read. -/
  | begin (request : Request)
  /-- A task in flight commits. -/
  | run (index : Nat)

/-- The state after the task has run. -/
def Sys.ran (env : Env) (s : Sys) (index : Nat) (t : Task) : Sys where
  now := s.now
  db := (t.run env s.now s.db).1
  inflight := s.inflight.eraseIdx index ++ (t.run env s.now s.db).2.toList

def Sys.step (env : Env) (s : Sys) : Action → Option Sys
  | .tick elapsed => some { s with now := s.now + elapsed }
  | .begin request =>
      match request.read env s.now s.db with
      | .ok (some t) => some { s with inflight := s.inflight ++ [t] }
      | _ => none
  | .run index => (s.inflight[index]?).map (s.ran env index)

/-- The task an action runs. -/
def Sys.task? (s : Sys) : Action → Option Task
  | .run index => s.inflight[index]?
  | _ => none

/-! ## Inverting a step -/

/-- **All a step can do**: let time pass, put a read task in flight, or run
one of the tasks in flight. -/
theorem Sys.step_cases {env : Env} {s s' : Sys} {a : Action}
    (h : s.step env a = some s') :
    (∃ elapsed, a = .tick elapsed ∧ s' = { s with now := s.now + (elapsed : Nat) }) ∨
      (∃ request t, a = .begin request ∧
        request.read env s.now s.db = .ok (some t) ∧
        s' = { s with inflight := s.inflight ++ [t] }) ∨
      (∃ index t, a = .run index ∧ s.inflight[index]? = some t ∧
        s' = s.ran env index t) := by
  cases a with
  | tick elapsed => exact Or.inl ⟨elapsed, rfl, (Option.some.inj h).symm⟩
  | begin request =>
      simp only [Sys.step] at h
      split at h
      · rename_i t hread
        exact Or.inr (Or.inl ⟨request, t, rfl, hread, (Option.some.inj h).symm⟩)
      · cases h
  | run index =>
      simp only [Sys.step, Option.map_eq_some_iff] at h
      obtain ⟨t, ht, rfl⟩ := h
      exact Or.inr (Or.inr ⟨index, t, rfl, ht, rfl⟩)

/-- A property of the state and the tasks in flight is kept by every step
when passing time, reads and runs keep it. -/
theorem Sys.mem_ran {env : Env} {s : Sys} {index : Nat} {t u : Task}
    (h : u ∈ (s.ran env index t).inflight) :
    u ∈ s.inflight.eraseIdx index ∨ (t.run env s.now s.db).2 = some u := by
  simpa [Sys.ran] using h

/-! ## A small marketplace

One vendor with one activity, an hourly one for one guest at a time, and
two customers with points.  The runs on fixed inputs start here. -/

def marketEnv : Env where
  sha256 := fun _ => ""
  zoneOffset := fun _ _ => some 0

def marketUsers : List User :=
  [{ id := 1, loyaltyPoints := 20000, bookingOtpVerifiedAt := some 0 },
    { id := 2, loyaltyPoints := 20000, bookingOtpVerifiedAt := some 0 },
    { id := 3 }]

def marketActivity : Activity where
  id := 7
  vendorId := 4
  countryId := 5
  categoryId := 6
  pricePerPerson := 10000
  durationValue := some 1
  capacity := some 1
  checkInTime := some 0
  checkOutTime := some 1380
  status := .active

def market : Sys where
  now := 0
  inflight := []
  db := {
    nextId := 100
    users := ⟨marketUsers, by decide⟩
    vendors := ⟨[{ id := 4, userId := 3, countryId := 5, status := .active }], by decide⟩
    countries := ⟨[{ id := 5 }], by decide⟩
    categories := ⟨[{ id := 6 }], by decide⟩
    activities := ⟨[marketActivity], by decide⟩ }

/-- A request for the slot of the next day at ten, paid with the given
points. -/
def marketRequest (redeemPoints : Option ℚ) : CreateBookingDto where
  activityId := 7
  checkInDate := ⟨1970, 1, 2⟩
  slotTime := some 600
  guests := 1
  redeemPoints := redeemPoints

/-- Prepares a request and books it. -/
def bookAt (now : Instant) (db : Db) (userId : Id) (dto : CreateBookingDto) :
    Tx (Option (PreparedBooking × Db × Booking)) := do
  let prepared ← prepareBooking marketEnv now db userId dto
  match prepared with
  | none => return none
  | some p =>
      let r ← createBookingTx marketEnv now db p "R"
      return some (p, r)

theorem bookAt_ok {now : Instant} {db : Db} {userId : Id} {dto : CreateBookingDto}
    {test : PreparedBooking → Db → Booking → Bool}
    (h : (bookAt now db userId dto).toOption.join.any (fun r => test r.1 r.2.1 r.2.2) = true) :
    ∃ p db' b, prepareBooking marketEnv now db userId dto = .ok (some p) ∧
      createBookingTx marketEnv now db p "R" = .ok (db', b) ∧ test p db' b = true := by
  obtain ⟨⟨p, db', b⟩, hr, htest⟩ := (Option.any_eq_true _ _).mp h
  have hok := toOption_eq_some.mp (Option.join_eq_some_iff.mp hr)
  simp only [bookAt, bind_eq_ok] at hok
  obtain ⟨prepared, hprepared, hok⟩ := hok
  cases prepared with
  | none => cases pure_eq_ok.mp hok
  | some p' =>
      simp only [bind_eq_ok, pure_eq_ok] at hok
      obtain ⟨r, hr, heq⟩ := hok
      obtain ⟨rfl, rfl⟩ := Prod.mk.inj (Option.some.inj heq)
      exact ⟨p', db', b, hprepared, hr, htest⟩

/-- A success the gateway sends server to server. -/
def marketIpn (basketId : String) : CallbackParams where
  errCode := "000"
  basketId := basketId
  via := .ipn
  trustedCapture := true

end Jadwal
