import Jadwal.Payment

/-!
# Payouts

A vendor requests the balance of ended bookings; an admin approves the
request, which locks payments into it oldest first, then completes or
rejects it, or takes a step back.  Marking payments paid or unpaid is
separate.  Every operation is cut into the statements it issues: a
statement reads or writes once, and returns what the handler does next
(`PayoutTask`).

The approval walks the eligible payments until the requested amount is
reached, and payments are indivisible: `approved_amount_exact` says when
the recorded amount is what the locked payments are worth.
-/

namespace Jadwal

open Outcome

/-- The settings of the payout operations. -/
structure PayoutConfig where
  /-- `MIN_PAYOUT_AMOUNT`. -/
  minimum : Cents := 1000
  /-- `PAYOUT_SETTLEMENT_BUFFER_DAYS`. -/
  bufferDays : Nat := 0
  /-- `PAYOUT_BANK_DETAILS_COOLDOWN_DAYS`. -/
  cooldownDays : ℚ := 7

/-- Bookings that ended before this instant are out of escrow. -/
def PayoutConfig.cutoff (config : PayoutConfig) (now : Instant) : Instant :=
  now - config.bufferDays * day

def PayoutRequestStatus.text : PayoutRequestStatus → String
  | .pending => "pending"
  | .approved => "approved"
  | .rejected => "rejected"
  | .completed => "completed"

/-- `PENDING` and `APPROVED`: the vendor waits for its money. -/
def PayoutRequest.inFlight (r : PayoutRequest) : Bool :=
  r.status = .pending ∨ r.status = .approved

/-- `APPROVED` and `COMPLETED`: the payments are claimed. -/
def PayoutRequest.locks (r : PayoutRequest) : Bool :=
  r.status = .approved ∨ r.status = .completed

/-- The booking of a payment, by its foreign key. -/
def Db.bookingOf (db : Db) (paymentId : Id) : Option Booking :=
  db.bookings.first? (fun b => b.paymentId = some paymentId)

/-- `status: 'SUCCESS', payoutStatus: 'UNPAID'`. -/
def Payment.payable (q : Payment) : Bool :=
  q.status = .success ∧ q.payoutStatus = .unpaid

/-- How many of the payments can still be paid out. -/
def payableCount (db : Db) (paymentIds : List Id) : Nat :=
  (db.payments.select (fun q => q.id ∈ paymentIds ∧ q.payable)).length

/-! ## Requesting a payout -/

/-- `resolveVendor`. -/
def resolveVendor (db : Db) (userId : Id) : Tx Vendor := do
  let vendor ← orThrow (db.vendors.first? (fun v => v.userId = userId))
    (.notFound "Vendor profile not found")
  ensure (vendor.status ≠ .suspended) (.forbidden "Your vendor account is suspended")
  return vendor

/-- `evaluatePayoutEligibility`, the vendor's row and its currency. -/
def eligibleVendor (db : Db) (vendorId : Id) : Tx (Vendor × String) := do
  let suspended := HttpError.business "VENDOR_SUSPENDED"
    "Your vendor account is suspended. Contact support."
  let vendor ← orThrow (db.vendors.find? vendorId) suspended
  ensure (vendor.status ≠ .suspended) suspended
  let currency := ((db.countries.find? vendor.countryId).map Country.currencyCode).getD "QAR"
  return (vendor, currency)

/-- `evaluatePayoutEligibility`, the request in flight and the bank details. -/
def eligibleInFlight (config : PayoutConfig) (now : Instant) (db : Db) (vendor : Vendor) :
    Tx Unit := do
  match db.payoutRequests.first? (fun r => r.vendorId = vendor.id ∧ r.inFlight) with
  | some r =>
      if r.status = .pending then
        throw (.business "INFLIGHT_PENDING" ("You already have a pending payout request. " ++
          "Wait for admin review before requesting another."))
      else
        throw (.business "INFLIGHT_APPROVED" ("Your previous request has been approved and " ++
          "is awaiting bank transfer. A new request will unlock once it completes."))
  | none => pure ()
  ensure (∃ details ∈ vendor.bankDetails, details ≠ "")
    (.business "NO_BANK_DETAILS"
      "Add your bank details in Settings before requesting a payout.")
  let cooldownMs : ℚ := config.cooldownDays * day
  match vendor.bankDetailsChangedAt with
  | some changed =>
      let elapsedMs : ℚ := now - changed
      let remainingHours := ⌈(cooldownMs - elapsedMs) / hour⌉
      ensure (¬ (config.cooldownDays > 0 ∧ elapsedMs < cooldownMs))
        (.business "BANK_DETAILS_RECENTLY_CHANGED" ("Bank details were updated recently. " ++
          "Payout requests are paused for ~" ++ toString remainingHours ++
          "h as a security precaution."))
  | none => pure ()

/-- `evaluatePayoutEligibility`, the payments of the vendor's requests. -/
def lockedPaymentIds (db : Db) (vendorId : Id) : List Id :=
  (db.payoutRequests.select (fun r => r.vendorId = vendorId ∧ r.locks)).flatMap
    PayoutRequest.paymentIds

/-- `evaluatePayoutEligibility`, the balance out of escrow. -/
def availableBalance (config : PayoutConfig) (now : Instant) (db : Db) (vendorId : Id)
    (currency : String) (lockedIds : List Id) : Tx Cents := do
  let rows := db.bookings.select (fun b => b.vendorId = vendorId ∧
    b.endDatetime < config.cutoff now ∧
    ∃ q ∈ b.paymentId.bind (fun id => db.payments.find? id), q.payable ∧ q.id ∉ lockedIds)
  let total : Cents := (rows.map Booking.totalPrice).sum
  let commission : Cents := (rows.map Booking.commissionAmount).sum
  let available := max 0 (toCents (total.toNum - commission.toNum))
  ensure (0 < available) (.business "NO_BALANCE"
    "No eligible cash pending. New bookings will appear here once customers pay.")
  ensure (config.minimum ≤ available) (.business "BELOW_MINIMUM"
    ("Eligible balance " ++ available.toFixed2 ++ " " ++ currency ++
      " is below the minimum payout of " ++ config.minimum.toFixed2 ++ " " ++ currency ++
      ". Keep delivering bookings — you'll unlock payout soon."))
  return available

/-- The error of a second request. -/
def inflightError : HttpError :=
  .business "INFLIGHT_PENDING" ("You already have a pending payout request. " ++
    "Wait for admin review before requesting another.")

/-- `requestPayout`, the re-check inside the serializable transaction. -/
def duplicateCheck (db : Db) (vendorId : Id) : Tx Unit :=
  ensure (db.payoutRequests.first? (fun r => r.vendorId = vendorId ∧ r.inFlight) = none)
    inflightError

/-- `requestPayout`, the insert. -/
def createPayoutRequest (now : Instant) (db : Db) (vendorId : Id) (amount : Cents)
    (currency : String) : Tx Db := do
  let row : PayoutRequest := {
    id := db.nextId
    vendorId := vendorId
    amount := amount
    currency := currency
    createdAt := now }
  let requests ← orThrow (db.payoutRequests.insert? row) (.uniqueViolation "payout_requests.id")
  return { db with payoutRequests := requests, nextId := db.nextId + 1 }

/-! ## Deleting a request -/

/-- `deletePayoutRequest`, the checks. -/
def deleteRead (db : Db) (vendorId requestId : Id) : Tx Unit := do
  let r ← orThrow (db.payoutRequests.find? requestId) (.notFound "Payout request not found")
  ensure (r.vendorId = vendorId) (.notFound "Payout request not found")
  ensure (r.status = .rejected) (.badRequest ("Only rejected payout requests can be " ++
    "cleared. This request is " ++ r.status.text ++ "."))

/-- `deletePayoutRequest`, the delete. -/
def deleteRejected (db : Db) (vendorId requestId : Id) : Tx Db := do
  let clears (r : PayoutRequest) : Bool :=
    r.id = requestId ∧ r.vendorId = vendorId ∧ r.status = .rejected
  ensure (db.payoutRequests.first? clears ≠ none)
    (.badRequest "Request state changed. Please refresh and try again.")
  return { db with payoutRequests := db.payoutRequests.deleteMany clears }

/-! ## Approving a request -/

/-- The vendor's share of a booking. -/
def Booking.vendorShare (b : Booking) : ℚ := b.totalPrice.toNum - b.commissionAmount.toNum

/-- The payments an approval may lock, oldest first, with their bookings. -/
def eligiblePayments (config : PayoutConfig) (now : Instant) (db : Db) (vendorId : Id) :
    List (Payment × Booking) :=
  ((db.payments.select Payment.payable).filterMap (fun q =>
    ((db.bookingOf q.id).filter (fun b => b.vendorId = vendorId ∧
      b.endDatetime < config.cutoff now)).map (fun b => (q, b)))).insertionSort
    (fun a b => a.1.createdAt ≤ b.1.createdAt)

/-- The greedy walk: skips what has no share for the vendor, and stops when
the requested amount is reached. -/
def lockPayments (requested : Cents) :
    List (Payment × Booking) → Cents → List Id → Cents × List Id
  | [], accumulated, locked => (accumulated, locked)
  | (q, b) :: rest, accumulated, locked =>
      if b.vendorShare ≤ 0 then lockPayments requested rest accumulated locked
      else if requested ≤ accumulated then (accumulated, locked)
      else lockPayments requested rest (toCents (accumulated.toNum + b.vendorShare))
        (locked ++ [q.id])

/-- What an approval has read. -/
structure ApproveRead where
  request : PayoutRequest
  eligible : List (Payment × Booking)
  adminNote : Option String

/-- The payments the approval locks, and what they add up to. -/
def ApproveRead.locking (r : ApproveRead) : Cents × List Id :=
  lockPayments r.request.amount r.eligible 0 []

/-- `processPayoutRequest` to `APPROVED`, the eligible payments. -/
def approveRead (config : PayoutConfig) (now : Instant) (db : Db) (request : PayoutRequest)
    (adminNote : Option String) : Tx ApproveRead := do
  let r : ApproveRead := ⟨request, eligiblePayments config now db request.vendorId, adminNote⟩
  ensure (0 < r.locking.1) (.badRequest ("No eligible payments remain for this request — " ++
    "the underlying bookings have been refunded since the request was submitted. Reject " ++
    "the request; the vendor can file a fresh one if anything is still payable."))
  return r

/-- A note without the blanks around it, when anything is left. -/
def noteOf (note : String) : Option String := if note = "" then none else some note

/-- The row of an approved request. -/
def PayoutRequest.approve (now : Instant) (r : ApproveRead) (row : PayoutRequest) :
    PayoutRequest :=
  let requested := r.request.amount
  let final := min requested r.locking.1
  let base := trimmed (r.adminNote.getD "")
  let adjustment := "[System: amount auto-adjusted from " ++ requested.toFixed2 ++ " to " ++
    final.toFixed2 ++ " — bookings were refunded after this request was submitted]"
  { row with
    status := .approved
    amount := final
    adminNote :=
      if final < requested then
        some (if base = "" then adjustment else base ++ "\n" ++ adjustment)
      else noteOf base
    paymentIds := r.locking.2
    processedAt := some now }

/-- An update of the request while it has the given status, or the error. -/
def updateRequest (db : Db) (requestId : Id) (status : PayoutRequestStatus)
    (f : PayoutRequest → PayoutRequest)
    (hf : ∀ r, (f r).id = r.id) (error : HttpError) : Tx Db := do
  let claims (r : PayoutRequest) : Bool := r.id = requestId ∧ r.status = status
  ensure (db.payoutRequests.first? claims ≠ none) error
  return { db with payoutRequests := db.payoutRequests.updateMany claims f hf }

/-- `processPayoutRequest` to `APPROVED`, the claim. -/
def approveWrite (now : Instant) (db : Db) (r : ApproveRead) : Tx Db :=
  updateRequest db r.request.id .pending (PayoutRequest.approve now r) (fun _ => rfl)
    (.conflict "This request was already processed by another admin")

/-! ## Completing and rejecting a request -/

/-- `processPayoutRequest`: the status graph of the two admin buttons. -/
def validTransition : PayoutRequestStatus → PayoutRequestStatus → Bool
  | .pending, .approved => true
  | .pending, .rejected => true
  | .approved, .completed => true
  | _, _ => false

/-- The row of a completed request. -/
def PayoutRequest.complete (now : Instant) (note : Option String) (row : PayoutRequest) :
    PayoutRequest :=
  { row with status := .completed, adminNote := note, processedAt := some now }

/-- The row of a request whose completion found payments that moved. -/
def PayoutRequest.autoRevert (note : String) (row : PayoutRequest) : PayoutRequest :=
  { row with
    status := .pending
    adminNote := some note
    paymentIds := []
    processedAt := none }

/-- The row of a rejected request. -/
def PayoutRequest.reject (now : Instant) (note : Option String) (row : PayoutRequest) :
    PayoutRequest :=
  { row with status := .rejected, adminNote := note, processedAt := some now }

/-- `processPayoutRequest` to `COMPLETED`, the way back of a request whose
payments moved. -/
def completeRevert (db : Db) (request : PayoutRequest) (adminNote : Option String)
    (drift : Nat) : Tx Db :=
  let base := trimmed ((adminNote.or request.adminNote).getD "")
  let system := "[System: payments no longer eligible (" ++ toString drift ++ " of " ++
    toString request.paymentIds.length ++ " refunded after approval). Re-evaluate.]"
  updateRequest db request.id .approved
    (PayoutRequest.autoRevert (if base = "" then system else base ++ "\n" ++ system))
    (fun _ => rfl) (.conflict "This request was already completed by another admin")

/-- `processPayoutRequest` to `COMPLETED`, the claim. -/
def completeWrite (now : Instant) (db : Db) (request : PayoutRequest)
    (adminNote : Option String) : Tx Db :=
  updateRequest db request.id .approved
    (PayoutRequest.complete now (adminNote.or request.adminNote)) (fun _ => rfl)
    (.conflict "This request was already completed by another admin")

/-- `processPayoutRequest` to `REJECTED`: the row, whatever it says by now. -/
def rejectWrite (now : Instant) (db : Db) (requestId : Id) (adminNote : Option String) :
    Tx Db := do
  let _ ← orThrow (db.payoutRequests.find? requestId) (.recordNotFound "PayoutRequest")
  let requests := db.payoutRequests.update requestId (PayoutRequest.reject now adminNote)
  return { db with payoutRequests := requests }

/-! ## Reverting a request -/

/-- `revertPayoutRequest`: where a request of a status may be taken back to. -/
def revertTargets : PayoutRequestStatus → List PayoutRequestStatus
  | .approved => [.pending]
  | .completed => [.pending, .approved]
  | .rejected => [.pending]
  | .pending => []

/-- A request that was read, and an admissible target. -/
structure RevertRead where
  request : PayoutRequest
  target : PayoutRequestStatus
  valid : target ∈ revertTargets request.status

/-- `revertPayoutRequest`, the lookup. -/
def revertRead (db : Db) (requestId : Id) (target : PayoutRequestStatus) : Tx RevertRead := do
  let request ← orThrow (db.payoutRequests.find? requestId)
    (.notFound "Payout request not found")
  if h : target ∈ revertTargets request.status then return ⟨request, target, h⟩
  else
    let valid := revertTargets request.status
    throw (.badRequest ("Cannot revert a " ++ request.status.text ++ " request to " ++
      target.text ++ ". Allowed revert targets: " ++
      (if valid = [] then "(none)"
        else String.intercalate ", " (valid.map PayoutRequestStatus.text)) ++ "."))

/-- `revertPayoutRequest`, the vendor's other request in flight. -/
def revertInFlight (db : Db) (r : RevertRead) : Tx Unit :=
  match db.payoutRequests.first? (fun x => x.vendorId = r.request.vendorId ∧ x.inFlight ∧
      x.id ≠ r.request.id) with
  | none => .ok ()
  | some x =>
      let name := ((db.vendors.find? r.request.vendorId).map Vendor.businessNameEn).getD
        "This vendor"
      .error (.badRequest (name ++ " already has a " ++ x.status.text ++
        " payout request. Resolve that one before reverting this record."))

/-- `revertPayoutRequest`, the payments of a completed request. -/
def revertCount (db : Db) (r : RevertRead) : Tx Unit :=
  ensure (r.request.status = .completed → r.request.paymentIds ≠ [] →
      payableCount db r.request.paymentIds = r.request.paymentIds.length)
    (.badRequest ("Some of the payments in this request have already been marked as paid " ++
      "on the Payments tab. Revert those payouts first, then retry."))

/-- The row of a reverted request: a lock is kept by `APPROVED` only. -/
def PayoutRequest.revert (target : PayoutRequestStatus) (row : PayoutRequest) :
    PayoutRequest :=
  { row with
    status := target
    paymentIds := if target = .pending then [] else row.paymentIds
    processedAt := if target = .pending then none else row.processedAt }

/-- `revertPayoutRequest`, the claim. -/
def revertWrite (db : Db) (r : RevertRead) : Tx Db :=
  updateRequest db r.request.id r.request.status (PayoutRequest.revert r.target)
    (fun _ => rfl) (.badRequest
      "Request state changed concurrently. Please refresh and try again.")

/-! ## Marking payments -/

/-- The names of the vendors a batch trips over, shortened. -/
def namesOf (names : List String) : String :=
  String.intercalate ", " (names.eraseDups.take 3) ++
    (if names.eraseDups.length > 3 then
      " and " ++ toString (names.eraseDups.length - 3) ++ " more" else "")

/-- The vendors of the payments of a batch. -/
def batchVendors (db : Db) (paymentIds : List Id) : List (Id × Vendor) :=
  (db.payments.select (fun q => q.id ∈ paymentIds)).filterMap (fun q =>
    ((db.bookingOf q.id).bind (fun b => db.vendors.find? b.vendorId)).map (fun v => (q.id, v)))

def VendorStatus.text : VendorStatus → String
  | .pending => "PENDING"
  | .active => "ACTIVE"
  | .suspended => "SUSPENDED"

/-- `markPayoutsPaid`, the vendors. -/
def paidVendors (db : Db) (paymentIds : List Id) : Tx (List (Id × Vendor)) := do
  let vendors := batchVendors db paymentIds
  let suspended := (vendors.filter (fun p => p.2.status ≠ .active)).map
    (fun p => p.2.businessNameEn ++ " (" ++ p.2.status.text ++ ")")
  ensure (suspended = []) (.badRequest (namesOf suspended ++
    (if suspended.eraseDups.length = 1 then " is" else " are") ++ " not currently ACTIVE. " ++
    "Reactivate the vendor (or refund the payments) before marking these paid."))
  return vendors

/-- `markPayoutsPaid`, the requests in flight. -/
def paidBlockers (db : Db) (vendors : List (Id × Vendor)) (bankTransferRef : String) :
    Tx Unit := do
  let offending := (vendors.filter (fun p =>
    db.payoutRequests.rows.any (fun r => r.vendorId = p.2.id ∧ r.status = .pending) ∨
      db.payoutRequests.rows.any (fun r => r.vendorId ∈ vendors.map (fun x => x.2.id) ∧
        r.status = .approved ∧ p.1 ∈ r.paymentIds))).map
    (fun p => p.2.businessNameEn)
  ensure (offending = []) (.badRequest (namesOf offending ++
    (if offending.eraseDups.length = 1 then " has" else " have") ++ " an in-flight payout " ++
    "request. Approve or reject on the Payout Requests page first — don't bulk-mark these " ++
    "individually."))
  ensure (trimmed bankTransferRef ≠ "") (.badRequest ("bankTransferRef is required — record " ++
    "the bank-side wire confirmation number before marking paid."))

/-- `markPayoutsPaid`, the escrow. -/
def paidEscrow (config : PayoutConfig) (now : Instant) (db : Db) (paymentIds : List Id) :
    Tx Unit := do
  let inEscrow := (db.payments.select (fun q => q.id ∈ paymentIds ∧ q.payable ∧
    ∃ b ∈ db.bookingOf q.id, config.cutoff now ≤ b.endDatetime)).map Payment.id
  let days := toString config.bufferDays
  let bufferNote :=
    if config.bufferDays > 0 then
      "their activity has not yet cleared the " ++ days ++ "-day settlement buffer"
    else "their activity has not ended yet"
  let retryNote :=
    if config.bufferDays > 0 then
      "Retry once " ++ days ++ " day(s) have passed since the activity ended."
    else "Retry once the activities have ended."
  ensure (inEscrow = []) (.badRequest (toString inEscrow.length ++ " of " ++
    toString paymentIds.length ++ " selected payment(s) are still in payout escrow — " ++
    bufferNote ++ ". No payments were changed. Paying these out now risks the customer " ++
    "cancelling before the activity starts and being refunded while the vendor already " ++
    "holds the money. " ++ retryNote ++ " Payment ids: " ++
    String.intercalate ", " ((inEscrow.take 10).map toString) ++
    (if inEscrow.length > 10 then " (+" ++ toString (inEscrow.length - 10) ++ " more)"
      else "")))

/-- The row of a payment that was wired. -/
def Payment.markPaid (now : Instant) (bankTransferRef : String) (q : Payment) : Payment :=
  { q with
    payoutStatus := .paid
    paidAt := some now
    bankTransferRef := some bankTransferRef }

/-- `markPayoutsPaid`, the update. -/
def paidWrite (config : PayoutConfig) (now : Instant) (db : Db) (paymentIds : List Id)
    (bankTransferRef : String) : Db :=
  let settles (q : Payment) : Bool := q.id ∈ paymentIds ∧ q.payable ∧
    ∃ b ∈ db.bookingOf q.id, b.endDatetime < config.cutoff now
  { db with payments :=
      db.payments.updateMany settles (Payment.markPaid now (trimmed bankTransferRef)) }

def PayoutStatus.text : PayoutStatus → String
  | .unpaid => "UNPAID"
  | .paid => "PAID"

/-- `markPayoutUnpaid`, the payment. -/
def unpaidRead (db : Db) (paymentId : Id) : Tx Unit := do
  let payment ← orThrow (db.payments.find? paymentId) (.notFound "Payment not found")
  ensure (payment.status = .success) (.badRequest "Only SUCCESS payments can be reverted")
  ensure (payment.payoutStatus = .paid) (.badRequest ("Payment is already " ++
    payment.payoutStatus.text ++ " — nothing to revert"))

/-- `markPayoutUnpaid`, the request that locks the payment. -/
def unpaidLocks (db : Db) (paymentId : Id) : Tx Unit :=
  match db.payoutRequests.first? (fun r => r.locks ∧ paymentId ∈ r.paymentIds) with
  | none => .ok ()
  | some r => .error (.badRequest ("This payment is linked to a " ++ r.status.text ++
      " payout request. Revert the request from the Payout Requests page instead."))

/-- The row of a payment that was marked paid by mistake. -/
def Payment.markUnpaid (q : Payment) : Payment :=
  { q with payoutStatus := .unpaid, paidAt := none }

/-- `markPayoutUnpaid`, the update. -/
def unpaidWrite (db : Db) (paymentId : Id) : Tx Db := do
  let reverts (q : Payment) : Bool :=
    q.id = paymentId ∧ q.status = .success ∧ q.payoutStatus = .paid
  ensure (db.payments.first? reverts ≠ none)
    (.badRequest "Payment state changed concurrently. Please refresh and try again.")
  return { db with payments := db.payments.updateMany reverts Payment.markUnpaid }

/-! ## What an approval locks -/

/-- The vendor's share in hundredths. -/
def Booking.shareCents (b : Booking) : Cents := b.totalPrice - b.commissionAmount

/-- The payments with a share for the vendor. -/
def withShare (eligible : List (Payment × Booking)) : List (Payment × Booking) :=
  eligible.filter (fun p => 0 < p.2.shareCents)

/-- The shares of a list of payments. -/
def sharesOf (eligible : List (Payment × Booking)) : Cents :=
  (eligible.map (fun p => p.2.shareCents)).sum

@[simp] theorem sharesOf_nil : sharesOf [] = 0 := rfl

@[simp] theorem sharesOf_cons (p : Payment × Booking) (rest : List (Payment × Booking)) :
    sharesOf (p :: rest) = p.2.shareCents + sharesOf rest := rfl

/-- No share, in units or in cents. -/
theorem Booking.vendorShare_nonpos {b : Booking} : b.vendorShare ≤ 0 ↔ b.shareCents ≤ 0 := by
  unfold Booking.vendorShare Booking.shareCents Cents.toNum
  rw [sub_nonpos, sub_nonpos, div_le_div_iff_of_pos_right (by norm_num)]
  exact Int.cast_le

/-- Sums of shares are on the grid: the rounding of the walk does nothing. -/
theorem toCents_add_vendorShare (accumulated : Cents) (b : Booking) :
    toCents (accumulated.toNum + b.vendorShare) = accumulated + b.shareCents := by
  have h : (accumulated.toNum + b.vendorShare) * 100 =
      ((accumulated + b.shareCents : Int) : ℚ) := by
    unfold Booking.vendorShare Booking.shareCents Cents.toNum
    push_cast
    ring
  rw [toCents, mathRound, h, Int.floor_intCast_add, Int.floor_eq_zero_iff.mpr (by norm_num),
    add_zero]

/-- **The walk locks a prefix** of the payments with a share: the shortest
one that reaches the requested amount, or all of them. -/
theorem lockPayments_prefix (requested : Cents) :
    ∀ (eligible : List (Payment × Booking)) (accumulated : Cents) (locked : List Id),
    ∃ taken rest, withShare eligible = taken ++ rest ∧
      lockPayments requested eligible accumulated locked =
        (accumulated + sharesOf taken, locked ++ taken.map (fun p => p.1.id)) ∧
      (rest ≠ [] → requested ≤ accumulated + sharesOf taken) ∧
      ∀ before p after, taken = before ++ p :: after →
        accumulated + sharesOf before < requested := by
  intro eligible
  induction eligible with
  | nil =>
      intro accumulated locked
      exact ⟨[], [], rfl, by simp [lockPayments], by simp, by simp⟩
  | cons p eligible ih =>
      intro accumulated locked
      obtain ⟨q, b⟩ := p
      by_cases hshare : b.shareCents ≤ 0
      · obtain ⟨taken, rest, hsplit, hlock, hfull, hshort⟩ := ih accumulated locked
        refine ⟨taken, rest, ?_, ?_, hfull, hshort⟩
        · rw [withShare, List.filter_cons_of_neg (by simpa using hshare)]
          exact hsplit
        · rw [lockPayments, if_pos (Booking.vendorShare_nonpos.mpr hshare)]
          exact hlock
      · have hcons : withShare ((q, b) :: eligible) = (q, b) :: withShare eligible :=
          List.filter_cons_of_pos (by simpa using hshare)
        have hnext : ¬ b.vendorShare ≤ 0 := fun h => hshare (Booking.vendorShare_nonpos.mp h)
        by_cases hreach : requested ≤ accumulated
        · refine ⟨[], (q, b) :: withShare eligible, hcons, ?_, fun _ => ?_, by simp⟩
          · rw [lockPayments, if_neg hnext, if_pos hreach]
            simp
          · simpa using hreach
        · obtain ⟨taken, rest, hsplit, hlock, hfull, hshort⟩ :=
            ih (accumulated + b.shareCents) (locked ++ [q.id])
          refine ⟨(q, b) :: taken, rest, ?_, ?_, ?_, ?_⟩
          · rw [hcons, hsplit, List.cons_append]
          · rw [lockPayments, if_neg hnext, if_neg hreach, toCents_add_vendorShare, hlock]
            simp [add_assoc]
          · intro hrest
            simpa [add_assoc] using hfull hrest
          · intro before p after hp
            cases before with
            | nil => simpa using hreach
            | cons x before =>
                rw [List.cons_append, List.cons.injEq] at hp
                obtain ⟨rfl, hp⟩ := hp
                simpa [add_assoc] using hshort before p after hp

/-- What payment ids are worth to the vendor. -/
def lockedWorth (db : Db) (paymentIds : List Id) : Cents :=
  (paymentIds.map (fun id => ((db.bookingOf id).map Booking.shareCents).getD 0)).sum

/-- An eligible payment comes with its booking. -/
theorem bookingOf_eligible {config : PayoutConfig} {now : Instant} {db : Db} {vendorId : Id}
    {p : Payment × Booking} (h : p ∈ eligiblePayments config now db vendorId) :
    db.bookingOf p.1.id = some p.2 ∧ p.1 ∈ db.payments.rows ∧ p.1.payable := by
  rw [eligiblePayments, List.mem_insertionSort, List.mem_filterMap] at h
  obtain ⟨q, hq, hmap⟩ := h
  obtain ⟨hmem, hpay⟩ := Table.mem_select.mp hq
  obtain ⟨b, hb, rfl⟩ := Option.map_eq_some_iff.mp hmap
  exact ⟨(Option.filter_eq_some_iff.mp hb).1, hmem, hpay⟩

/-- Payments with their bookings are worth the shares of the bookings. -/
theorem lockedWorth_map {db : Db} {taken : List (Payment × Booking)}
    (h : ∀ p ∈ taken, db.bookingOf p.1.id = some p.2) :
    lockedWorth db (taken.map (fun p => p.1.id)) = sharesOf taken := by
  unfold lockedWorth sharesOf
  rw [List.map_map]
  refine congrArg List.sum (List.map_congr_left fun p hp => ?_)
  simp [h p hp]

/-- The shares can be paid out exactly: some of the oldest payments add up
to the requested amount, or all of them stay within it. -/
def Exact (requested : Cents) (eligible : List (Payment × Booking)) : Prop :=
  (∃ taken rest, withShare eligible = taken ++ rest ∧ sharesOf taken = requested) ∨
    sharesOf (withShare eligible) ≤ requested

theorem sharesOf_append (xs ys : List (Payment × Booking)) :
    sharesOf (xs ++ ys) = sharesOf xs + sharesOf ys := by
  simp [sharesOf]

/-- Shares that are positive have no negative sum. -/
theorem sharesOf_nonneg {xs : List (Payment × Booking)}
    (h : ∀ p ∈ xs, 0 < p.2.shareCents) : 0 ≤ sharesOf xs := by
  refine List.sum_nonneg fun x hx => ?_
  obtain ⟨p, hp, rfl⟩ := List.mem_map.mp hx
  exact (h p hp).le

/-- The walk adds up to at most the requested amount exactly when the
shares can be paid out exactly. -/
theorem locking_le_iff (r : ApproveRead) (hpos : 0 < r.locking.1) :
    r.locking.1 ≤ r.request.amount ↔ Exact r.request.amount r.eligible := by
  obtain ⟨taken, rest, hsplit, hlock, hfull, hshort⟩ :=
    lockPayments_prefix r.request.amount r.eligible 0 []
  have hsum : r.locking.1 = sharesOf taken := by
    rw [ApproveRead.locking, hlock, zero_add]
  simp only [zero_add] at hfull hshort
  have hposShare : ∀ p ∈ withShare r.eligible, 0 < p.2.shareCents := fun p hp =>
    of_decide_eq_true (List.mem_filter.mp hp).2
  rw [hsum] at hpos ⊢
  constructor
  · intro hle
    by_cases hrest : rest = []
    · refine Or.inr ?_
      rw [hsplit, hrest, List.append_nil]
      exact hle
    · exact Or.inl ⟨taken, rest, hsplit, le_antisymm hle (hfull hrest)⟩
  · rintro (⟨taken', rest', hsplit', hexact⟩ | hall)
    · -- two prefixes of one list: the walk stopped at the shorter one
      rw [hsplit] at hsplit'
      rcases List.append_eq_append_iff.mp hsplit' with ⟨more, rfl, _⟩ | ⟨more, rfl, hmore⟩
      · rw [sharesOf_append] at hexact
        have : 0 ≤ sharesOf more := sharesOf_nonneg fun p hp =>
          hposShare p (by rw [hsplit, hsplit']; simp [hp])
        linarith
      · cases more with
        | nil => simp [hexact]
        | cons p more =>
            have := hshort taken' p more rfl
            linarith
    · rw [hsplit, sharesOf_append] at hall
      have : 0 ≤ sharesOf rest := sharesOf_nonneg fun p hp =>
        hposShare p (by rw [hsplit]; simp [hp])
      linarith

/-- What an approval has read. -/
theorem approveRead_ok {config : PayoutConfig} {now : Instant} {db : Db}
    {request : PayoutRequest} {adminNote : Option String} {r : ApproveRead}
    (h : approveRead config now db request adminNote = .ok r) :
    0 < r.locking.1 ∧ r.request = request ∧
      r.eligible = eligiblePayments config now db request.vendorId := by
  simp only [approveRead, bind_eq_ok, ensure_eq_ok, pure_eq_ok] at h
  obtain ⟨_, hpos, rfl⟩ := h
  exact ⟨hpos, rfl, rfl⟩

/-- A conditional update that returns found its row and rewrote it. -/
theorem updateRequest_ok {db db' : Db} {requestId : Id} {status : PayoutRequestStatus}
    {f : PayoutRequest → PayoutRequest} {hf : ∀ r, (f r).id = r.id} {error : HttpError}
    (h : updateRequest db requestId status f hf error = .ok db') :
    db' = { db with
      payoutRequests := db.payoutRequests.updateMany
        (fun r => r.id = requestId ∧ r.status = status) f hf } ∧
      ∃ row, db.payoutRequests.find? requestId = some row ∧ row.status = status ∧
        db'.payoutRequests.find? requestId = some (f row) := by
  simp only [updateRequest, bind_eq_ok, ensure_eq_ok, pure_eq_ok] at h
  obtain ⟨_, hfound, rfl⟩ := h
  obtain ⟨row, hrow⟩ := Option.ne_none_iff_exists'.mp hfound
  obtain ⟨hmem, hp⟩ := Table.first?_eq_some hrow
  obtain ⟨hid, hst⟩ := of_decide_eq_true hp
  have hfind : db.payoutRequests.find? requestId = some row :=
    Table.find?_eq_some.mpr ⟨hmem, hid⟩
  refine ⟨rfl, row, hfind, hst, ?_⟩
  simp only [Table.find?_updateMany, hfind, Option.map_some, hid, hst, and_self, decide_true,
    if_true]

/-- **The recorded amount is worth what it locks exactly when the eligible
shares can be paid out exactly.** -/
theorem approved_amount_exact {config : PayoutConfig} {now now' : Instant} {db db₁ db₂ : Db}
    {request : PayoutRequest} {adminNote : Option String} {r : ApproveRead}
    (hread : approveRead config now db request adminNote = .ok r)
    (hwrite : approveWrite now' db₁ r = .ok db₂) :
    ∃ row, db₂.payoutRequests.find? request.id = some row ∧ row.status = .approved ∧
      (row.amount = lockedWorth db row.paymentIds ↔
        Exact request.amount (eligiblePayments config now db request.vendorId)) := by
  obtain ⟨hpos, rfl, heligible⟩ := approveRead_ok hread
  obtain ⟨_, row, _, _, hfind⟩ := updateRequest_ok hwrite
  refine ⟨row.approve now' r, hfind, rfl, ?_⟩
  rw [← heligible, ← locking_le_iff r hpos]
  obtain ⟨taken, rest, hsplit, hlock, _, _⟩ :=
    lockPayments_prefix r.request.amount r.eligible 0 []
  have hworth : lockedWorth db (taken.map (fun p => p.1.id)) = sharesOf taken := by
    refine lockedWorth_map fun p hp => ?_
    have hmem : p ∈ withShare r.eligible := hsplit ▸ List.mem_append_left rest hp
    exact (bookingOf_eligible (heligible ▸ List.mem_of_mem_filter hmem)).1
  have hlocking : r.locking = (sharesOf taken, taken.map (fun p => p.1.id)) := by
    rw [ApproveRead.locking, hlock, zero_add, List.nil_append]
  simp only [PayoutRequest.approve, hlocking, hworth, min_eq_right_iff]

/-! The vendor of the counterexample has two ended bookings of 60.00 and asks
for 100.00. -/

def shopBooking (id paymentId : Id) : Booking where
  id := id
  ref := "JDW"
  activityId := 7
  vendorId := 4
  customerId := 1
  startDatetime := 0
  endDatetime := 1
  guests := 1
  totalPrice := 6000
  status := .completed
  paymentId := some paymentId
  createdAt := 0

def shopPayment (id : Id) : Payment where
  id := id
  amount := 6000
  status := .success
  method := "CARD"
  createdAt := 0

def shopRequest (amount : Cents) : PayoutRequest where
  id := 9
  vendorId := 4
  amount := amount
  createdAt := 0

def shop (amount : Cents) : Db where
  nextId := 100
  vendors := ⟨[{ id := 4, userId := 3, countryId := 5, status := .active, bankDetails := "iban" }],
    by decide⟩
  bookings := ⟨[shopBooking 1 11, shopBooking 2 12], by decide⟩
  payments := ⟨[shopPayment 11, shopPayment 12], by decide⟩
  payoutRequests := ⟨[shopRequest amount], by simp⟩

/-- The approval of the shop's request: the amount, and what is locked. -/
def shopApproval (amount : Cents) : Option (Cents × Cents) :=
  (approveRead {} day (shop amount) (shopRequest amount) none).toOption.bind (fun r =>
    (approveWrite day (shop amount) r).toOption.bind (fun db =>
      (db.payoutRequests.find? 9).map (fun row =>
        (row.amount, lockedWorth (shop amount) row.paymentIds))))

/-- The approval of the shop, step by step. -/
theorem shopApproval_eq_some {amount recorded worth : Cents}
    (h : shopApproval amount = some (recorded, worth)) :
    ∃ r db₂ row, approveRead {} day (shop amount) (shopRequest amount) none = .ok r ∧
      approveWrite day (shop amount) r = .ok db₂ ∧
      db₂.payoutRequests.find? 9 = some row ∧ row.amount = recorded ∧
      lockedWorth (shop amount) row.paymentIds = worth := by
  simp only [shopApproval, Option.bind_eq_some_iff, toOption_eq_some, Option.map_eq_some_iff,
    Prod.mk.injEq] at h
  obtain ⟨r, hr, db₂, hw, row, hrow, hamount, hworth⟩ := h
  exact ⟨r, db₂, row, hr, hw, hrow, hamount, hworth⟩

theorem approved_amount_exact_shop : ∃ row : PayoutRequest, row.status = .approved ∧
    (row.amount = lockedWorth (shop 12000) row.paymentIds ↔
      Exact 12000 (eligiblePayments {} day (shop 12000) 4)) := by
  obtain ⟨r, db₂, _, hread, hwrite, _⟩ :=
    shopApproval_eq_some (show shopApproval 12000 = some (12000, 12000) by decide +kernel)
  obtain ⟨row, _, hst, hiff⟩ := approved_amount_exact hread hwrite
  exact ⟨row, hst, hiff⟩

/-- Two payments of 60.00 are locked for a payout of 100.00. -/
theorem approved_amount_short :
    ∃ r db₂ row, approveRead {} day (shop 10000) (shopRequest 10000) none = .ok r ∧
      approveWrite day (shop 10000) r = .ok db₂ ∧
      db₂.payoutRequests.find? 9 = some row ∧
      row.amount ≠ lockedWorth (shop 10000) row.paymentIds := by
  obtain ⟨r, db₂, row, hread, hwrite, hrow, hamount, hworth⟩ :=
    shopApproval_eq_some (show shopApproval 10000 = some (10000, 12000) by decide +kernel)
  refine ⟨r, db₂, row, hread, hwrite, hrow, ?_⟩
  rw [hamount, hworth]
  decide

end Jadwal
