import Jadwal.Consistency

/-!
# What becomes of a capture

A success the gateway vouches for is money taken.  The handler records it
on the payment, or, when the payment has one already, compares the
transaction ids and flags a second capture.  `capture_traced` says exactly
when one of the two happens, for a payment read at any time before the
settling transaction.
-/

namespace Jadwal

open Outcome

/-! ## The answer to a callback -/

/-- The audit row `PAYMENT_DUPLICATE_CAPTURE`, which also pages the admins. -/
structure DuplicateCapture where
  paymentId : Id
  basketId : String
  recordedTxn : String
  incomingTxn : String
  amount : Cents
  currency : String
  deriving DecidableEq, Repr

/-- The transaction id on the payment, blank for none. -/
def recordedTxn (db : Db) (paymentId : Id) : String :=
  trimmed (((db.payments.find? paymentId).bind Payment.gatewayTxnId).getD "")

/-- `flagDuplicateCaptureIfDifferentTxn`: a second capture is one with
another transaction id than the recorded one; without both ids there is
nothing to compare. -/
def flagDuplicateCaptureIfDifferentTxn (db : Db) (payment : Payment) (basketId : String)
    (incomingTxnRaw : Option String) : Option DuplicateCapture :=
  let incoming := trimmed (incomingTxnRaw.getD "")
  let recorded := recordedTxn db payment.id
  if incoming = "" then none
  else if recorded = "" then none
  else if recorded = incoming then none
  else some ⟨payment.id, basketId, recorded, incoming, payment.amount, payment.currency⟩

/-- The gate of the comparison: a trusted server-to-server success, or a
success signed on the card rail. -/
def authenticSuccess (env : Env) (payment : Payment) (params : CallbackParams) : Prop :=
  match params.via with
  | .ipn => params.trustedCapture ∧ trimmed params.errCode ∈ ["00", "000", "0000"]
  | .callback => ∃ r ∈ resolveSignedErrCode env params.basketId payment.amount
      params.errCode params.responseKey, r.2 = .card ∧ (r.1 = "00" ∨ r.1 = "000")

instance (env : Env) (payment : Payment) (params : CallbackParams) :
    Decidable (authenticSuccess env payment params) := by
  unfold authenticSuccess
  cases params.via <;> infer_instance

inductive CallbackStatus
  | success | failed | pending
  deriving DecidableEq, Repr

/-- The answer, with the recovery it goes on with and the capture it flags. -/
structure CallbackAnswer where
  db : Db
  status : CallbackStatus
  error : Option String := none
  recovery : Option RecoveryMode := none
  duplicate : Option DuplicateCapture := none

/-- The answer after the settling transaction: a callback that settled
nothing looks at the payment again. -/
def answerSettled (payment : Payment) (params : CallbackParams) (isSuccess : Bool)
    (settled : Settled) : CallbackAnswer :=
  if settled.updated then
    { db := settled.db, status := if isSuccess then .success else .failed,
      recovery := settled.recovery }
  else if (settled.db.payments.find? payment.id).map Payment.status = some .success then
    { db := settled.db, status := .success,
      duplicate := if isSuccess then flagDuplicateCaptureIfDifferentTxn settled.db payment
          params.basketId params.transactionId
        else none }
  else
    { db := settled.db, status := .failed,
      error := some "Payment was previously processed" }

/-- `handleCallback`, on a payment looked up in `read` and settled in `db`. -/
def handleCallback (env : Env) (now : Instant) (read db : Db) (params : CallbackParams) :
    Tx CallbackAnswer := do
  ensure env.paymentEnabled (.badRequest "Payment service is not available")
  let payment ← orThrow (findByBasket read params.basketId)
    (.badRequest "Payment not found")
  match classifyCallback env payment params with
  | .alreadySuccess =>
      return { db := db, status := .success,
               duplicate := if authenticSuccess env payment params then
                   flagDuplicateCaptureIfDifferentTxn db payment params.basketId
                     params.transactionId
                 else none }
  | .ignored => return { db := db, status := .pending }
  | .hold => return { db := holdNapsSuccess now db payment.bookingId, status := .pending }
  | .declined =>
      return { db := db, status := .failed,
               error := some "Payment was previously declined" }
  | .rejected => throw (.badRequest "Payment verification failed")
  | .settle isSuccess =>
      return answerSettled payment params isSuccess
        (← settleTx now db payment params isSuccess)

variable {env : Env} {now : Instant} {read db : Db} {params : CallbackParams}
  {payment : Payment}

/-- **From the handler to the system**: the task a callback puts in flight commits what the handler
answers, so what is said of either is said of the other. -/
theorem handleCallback_task {isSuccess : Bool}
    (h : callbackRead env read params = .ok (some (.settle payment params isSuccess)))
    {ans : CallbackAnswer} (hans : handleCallback env now read db params = .ok ans) :
    (Task.run env now db (.settle payment params isSuccess)).1 = ans.db := by
  simp only [callbackRead, bind_eq_ok, ensure_eq_ok, orThrow_eq_ok] at h
  obtain ⟨_, henabled, p, hp, h⟩ := h
  simp only [handleCallback, bind_eq_ok, ensure_eq_ok, orThrow_eq_ok] at hans
  obtain ⟨_, _, p', hp', hans⟩ := hans
  obtain rfl : p = p' := Option.some.inj (hp.symm.trans hp')
  cases hclass : classifyCallback env p params with
  | settle b =>
      rw [hclass] at h hans
      simp only [pure_eq_ok, Option.some.injEq, Task.settle.injEq] at h
      obtain ⟨rfl, _, rfl⟩ := h
      simp only [bind_eq_ok, pure_eq_ok] at hans
      obtain ⟨settled, hs, rfl⟩ := hans
      simp only [Task.run, hs, answerSettled]
      split
      · rfl
      · split <;> rfl
  | hold => rw [hclass] at h; simp [pure, Except.pure] at h
  | alreadySuccess => rw [hclass] at h; simp [pure, Except.pure] at h
  | ignored => rw [hclass] at h; simp [pure, Except.pure] at h
  | declined => rw [hclass] at h; simp [pure, Except.pure] at h
  | rejected => rw [hclass] at h; simp at h

/-! ## Traced captures -/

/-- The transaction id of the callback is another than the recorded one. -/
def Differs (db : Db) (payment : Payment) (params : CallbackParams) : Prop :=
  trimmed (params.transactionId.getD "") ≠ "" ∧
    recordedTxn db payment.id ≠ trimmed (params.transactionId.getD "")

/-- The capture is on the payment, and its booking is confirmed or a recovery
follows. -/
def CallbackAnswer.Records (ans : CallbackAnswer) (payment : Payment)
    (params : CallbackParams) : Prop :=
  (∃ q, ans.db.payments.find? payment.id = some q ∧ q.status = .success ∧
    q.gatewayTxnId = params.transactionId) ∧
  (ans.recovery ≠ none ∨ ∃ k b, payment.bookingId = some k ∧
    ans.db.bookings.find? k = some b ∧ b.status = .confirmed)

/-- The capture is recorded, or flagged as a second one. -/
def CallbackAnswer.Traces (ans : CallbackAnswer) (payment : Payment)
    (params : CallbackParams) : Prop :=
  ans.Records payment params ∨
    ∃ d ∈ ans.duplicate, d.incomingTxn = trimmed (params.transactionId.getD "")

/-- The payment can take the capture: it is still unpaid, has a booking id,
and no other payment has the transaction id. -/
def CanRecord (db : Db) (payment : Payment) (params : CallbackParams) : Prop :=
  (∃ q, db.payments.find? payment.id = some q ∧
    (q.status = .pending ∨ q.status = .failed)) ∧ payment.bookingId ≠ none ∧
  ∀ q ∈ db.payments.rows, q.id ≠ payment.id → q.gatewayTxnId ≠ params.transactionId

/-- The payment is paid, by a capture with a transaction id. -/
def CanCompare (db : Db) (payment : Payment) : Prop :=
  (payment.status = .success ∨
    (db.payments.find? payment.id).map Payment.status = some .success) ∧
  recordedTxn db payment.id ≠ ""

/-- An authentic success is settled, unless the payment was paid when it was
read. -/
theorem classify_authentic (h : authenticSuccess env payment params)
    (hunpaid : payment.status ≠ .success) :
    classifyCallback env payment params = .settle true := by
  unfold authenticSuccess at h
  unfold classifyCallback
  rw [if_neg hunpaid]
  cases hvia : params.via with
  | ipn =>
      simp only [hvia] at h ⊢
      rw [if_neg (not_not.mpr h.1), if_pos h.2]
  | callback =>
      simp only [hvia] at h ⊢
      obtain ⟨⟨ec, order⟩, hr, hcard, hcode⟩ := h
      simp only at hcard hcode
      subst hcard
      rw [Option.mem_def] at hr
      simp [browserVerdict, hr, hcode]

theorem classify_paid (h : payment.status = .success) :
    classifyCallback env payment params = .alreadySuccess := by
  rw [classifyCallback, if_pos h]

theorem flagged_iff (hdiff : Differs db payment params) :
    (∃ d ∈ flagDuplicateCaptureIfDifferentTxn db payment params.basketId
        params.transactionId, d.incomingTxn = trimmed (params.transactionId.getD "")) ↔
      recordedTxn db payment.id ≠ "" := by
  unfold flagDuplicateCaptureIfDifferentTxn
  simp only [if_neg hdiff.1]
  constructor
  · rintro ⟨d, hd, -⟩ hblank
    rw [if_pos hblank] at hd
    cases hd
  · intro hrecorded
    rw [if_neg hrecorded, if_neg hdiff.2]
    exact ⟨_, rfl, rfl⟩

/-- A nonblank transaction id is stored as it came. -/
theorem capturedTxn_of_nonblank (h : trimmed (params.transactionId.getD "") ≠ "") :
    capturedTxn params = params.transactionId ∧ params.transactionId ≠ none := by
  cases htxn : params.transactionId with
  | none =>
      rw [htxn] at h
      exact absurd (by decide) h
  | some t =>
      rw [htxn] at h
      refine ⟨?_, by simp⟩
      have ht : t ≠ "" := by
        rintro rfl
        exact h (by decide)
      simp [capturedTxn, htxn, ht]

/-- What is recorded is not what was there before. -/
theorem Differs.not_recorded (hdiff : Differs db payment params) {q : Payment}
    (hq : db.payments.find? payment.id = some q) : q.gatewayTxnId ≠ params.transactionId := by
  intro hsame
  apply hdiff.2
  simp [recordedTxn, hq, hsame]

/-- The settling transaction of a payment that is paid or closed by then does
nothing. -/
theorem settleSuccess_closed (now : Instant) (params : CallbackParams)
    (h : ¬ ∃ q, db.payments.find? payment.id = some q ∧
      (q.status = .pending ∨ q.status = .failed)) :
    settleSuccess now db payment params = .ok ⟨db, false, none⟩ := by
  have hnone : (db.payments.find? payment.id).filter
      (fun q => q.status = .pending ∨ q.status = .failed) = none := by
    cases hq : db.payments.find? payment.id with
    | none => rfl
    | some q =>
        rw [Option.filter_some, if_neg]
        rw [decide_eq_true_eq]
        exact fun hs => h ⟨q, hq, hs⟩
  rw [settleSuccess, hnone]

/-- The settling transaction of an unpaid payment records the capture, or
throws. -/
theorem settleSuccess_records (hdiff : Differs db payment params)
    (hunpaid : ∃ q, db.payments.find? payment.id = some q ∧
      (q.status = .pending ∨ q.status = .failed)) {settled : Settled}
    (h : settleSuccess now db payment params = .ok settled) :
    settled.updated = true ∧ CanRecord db payment params ∧
      (answerSettled payment params true settled).Records payment params := by
  obtain ⟨htxn, hsome⟩ := capturedTxn_of_nonblank hdiff.1
  obtain ⟨q, hq, hs⟩ := hunpaid
  rw [settleSuccess, unpaid_row hq hs] at h
  simp only [bind_eq_ok, ensure_eq_ok, orThrow_eq_ok, htxn] at h
  obtain ⟨_, hfree, k, hk, h⟩ := h
  have hcan : CanRecord db payment params :=
    ⟨⟨q, hq, hs⟩, by simp [hk], hfree.resolve_left hsome⟩
  have hrow : (db.payments.update payment.id (Payment.capture now params)
      (fun _ => rfl)).find? payment.id = some (q.capture now params) := by
    refine (Table.find?_update _ _ _ _ _).trans ?_
    rw [if_pos rfl, hq]
    rfl
  have hcaptured : (q.capture now params).status = .success ∧
      (q.capture now params).gatewayTxnId = params.transactionId := ⟨rfl, htxn⟩
  split at h
  · obtain rfl := Except.ok.inj h
    exact ⟨rfl, hcan, ⟨_, hrow, hcaptured⟩, .inl (by simp [answerSettled])⟩
  · rename_i b hb
    split at h
    · obtain rfl := Except.ok.inj h
      exact ⟨rfl, hcan, ⟨_, hrow, hcaptured⟩, .inl (by simp [answerSettled])⟩
    · obtain rfl := Except.ok.inj h
      have hconfirmed : (db.bookings.update k (fun b => { b with status := .confirmed })
          (fun _ => rfl)).find? k = some { b with status := .confirmed } := by
        refine (Table.find?_update _ _ _ _ _).trans ?_
        rw [if_pos rfl, hb]
        rfl
      exact ⟨rfl, hcan, ⟨_, hrow, hcaptured⟩, .inr ⟨k, _, hk, hconfirmed, rfl⟩⟩

theorem settleSuccess_of_canRecord (now : Instant) (hdiff : Differs db payment params)
    (h : CanRecord db payment params) :
    ∃ settled, settleSuccess now db payment params = .ok settled := by
  obtain ⟨htxn, -⟩ := capturedTxn_of_nonblank hdiff.1
  obtain ⟨⟨q, hq, hs⟩, hk, hfree⟩ := h
  obtain ⟨k, hk⟩ := Option.ne_none_iff_exists'.mp hk
  have hopen : params.transactionId = none ∨ ∀ q ∈ db.payments.rows,
      q.id ≠ payment.id → q.gatewayTxnId ≠ params.transactionId := .inr hfree
  rw [settleSuccess, unpaid_row hq hs]
  simp only [htxn, ensure, if_pos hopen, hk, orThrow, bind, Except.bind, pure, Except.pure]
  split
  · exact ⟨_, rfl⟩
  · split <;> exact ⟨_, rfl⟩

/-- The answer of a settling transaction that did nothing: a second capture
of a paid payment is flagged, everything else is dropped. -/
theorem answerSettled_closed (hdiff : Differs db payment params) :
    (answerSettled payment params true ⟨db, false, none⟩).Traces payment params ↔
      (db.payments.find? payment.id).map Payment.status = some .success ∧
        recordedTxn db payment.id ≠ "" := by
  have hnot : ¬ (answerSettled payment params true ⟨db, false, none⟩).Records payment
      params := by
    rintro ⟨⟨q, hq, -, htxn⟩, -⟩
    have hdb : (answerSettled payment params true ⟨db, false, none⟩).db = db := by
      unfold answerSettled
      split
      · rfl
      · split <;> rfl
    rw [hdb] at hq
    exact hdiff.not_recorded hq htxn
  simp only [CallbackAnswer.Traces, hnot, false_or]
  by_cases hpaid : (db.payments.find? payment.id).map Payment.status = some .success
  · simp only [answerSettled, hpaid, if_true, if_false, Bool.false_eq_true, true_and]
    exact flagged_iff hdiff
  · simp only [answerSettled, hpaid, if_false, Bool.false_eq_true, false_and, iff_false]
    rintro ⟨d, hd, -⟩
    cases hd

/-- The answer to an authentic success: the comparison for a payment that was
read as paid, the settling transaction for any other. -/
theorem handleCallback_authentic (hfind : findByBasket read params.basketId = some payment)
    (hauth : authenticSuccess env payment params) (ans : CallbackAnswer) :
    handleCallback env now read db params = .ok ans ↔
      env.paymentEnabled = true ∧
        if payment.status = .success then
          ({ db := db, status := .success,
             duplicate := flagDuplicateCaptureIfDifferentTxn db payment params.basketId
               params.transactionId } : CallbackAnswer) = ans
        else ∃ settled, settleSuccess now db payment params = .ok settled ∧
          answerSettled payment params true settled = ans := by
  simp only [handleCallback, bind_eq_ok, ensure_eq_ok, orThrow_eq_ok, hfind,
    Option.some.injEq, exists_eq_left']
  by_cases hpaid : payment.status = .success
  · simp [classify_paid hpaid, hpaid, hauth]
  · simp only [classify_authentic hauth hpaid, hpaid, settleTx, if_true, if_false,
      bind_eq_ok, pure_eq_ok]
    constructor
    · rintro ⟨_, h⟩
      exact h
    · intro h
      exact ⟨⟨⟩, h⟩

/-- **When a capture is traced.**  An authentic success with another
transaction id than the recorded one is recorded or flagged exactly when the
service is on and the payment is unpaid and can take it, or is paid by a
capture with an id: nothing becomes of a capture for a payment that waits for
a refund, was refunded or was refused one. -/
theorem capture_traced {env : Env} {now : Instant} {read db : Db} {params : CallbackParams}
    {payment : Payment} (hfind : findByBasket read params.basketId = some payment)
    (hauth : authenticSuccess env payment params) (hdiff : Differs db payment params) :
    (∃ ans, handleCallback env now read db params = .ok ans ∧ ans.Traces payment params) ↔
      env.paymentEnabled = true ∧
        (CanCompare db payment ∨
          (payment.status ≠ .success ∧ CanRecord db payment params)) := by
  simp only [handleCallback_authentic hfind hauth]
  by_cases hpaid : payment.status = .success
  · simp only [hpaid, if_true, ne_eq, not_true, false_and, or_false, CanCompare, true_or,
      true_and]
    constructor
    · rintro ⟨ans, ⟨henabled, rfl⟩, hrec | hflag⟩
      · obtain ⟨⟨q, hq, -, htxn⟩, -⟩ := hrec
        exact absurd htxn (hdiff.not_recorded hq)
      · dsimp only at hflag
        exact ⟨henabled, (flagged_iff hdiff).mp hflag⟩
    · rintro ⟨henabled, hrecorded⟩
      refine ⟨_, ⟨henabled, rfl⟩, .inr ?_⟩
      dsimp only
      exact (flagged_iff hdiff).mpr hrecorded
  · simp only [hpaid, if_false, ne_eq, not_false_iff, true_and, CanCompare, false_or]
    by_cases hopen : ∃ q, db.payments.find? payment.id = some q ∧
        (q.status = .pending ∨ q.status = .failed)
    · constructor
      · rintro ⟨ans, ⟨henabled, settled, hs, rfl⟩, -⟩
        exact ⟨henabled, .inr (settleSuccess_records hdiff hopen hs).2.1⟩
      · rintro ⟨henabled, hcompare | hcan⟩
        · obtain ⟨q, hq, hs⟩ := hopen
          rw [hq, Option.map_some, Option.some.injEq] at hcompare
          rcases hs with hs | hs <;> rw [hs] at hcompare <;> cases hcompare.1
        · obtain ⟨settled, hs⟩ := settleSuccess_of_canRecord now hdiff hcan
          exact ⟨_, ⟨henabled, settled, hs, rfl⟩,
            .inl (settleSuccess_records hdiff hopen hs).2.2⟩
    · have hsettled := settleSuccess_closed now params hopen
      constructor
      · rintro ⟨ans, ⟨henabled, settled, hs, rfl⟩, htraced⟩
        rw [hsettled] at hs
        obtain rfl := Except.ok.inj hs
        exact ⟨henabled, .inl ((answerSettled_closed hdiff).mp htraced)⟩
      · rintro ⟨henabled, hcompare | hcan⟩
        · exact ⟨_, ⟨henabled, _, hsettled, rfl⟩,
            (answerSettled_closed hdiff).mpr hcompare⟩
        · exact absurd hcan.1 hopen

/-- A success with a transaction id, server to server. -/
def capture (txn : String) : CallbackParams :=
  { marketIpn "B1" with transactionId := some txn }

/-- Created, verified, initiated and captured. -/
def capturedRun : List Action :=
  [.begin (.createBooking 1 (marketRequest none) "R1"), .run 0, .run 0,
    .begin (.initiatePayment 101 1 none "B1"), .run 0,
    .begin (.handleCallback (capture "T1")), .run 0]

/-- A second capture of a confirmed booking is flagged. -/
theorem second_capture_flagged :
    ∃ s, Run (Sys.step marketEnv) (fun _ _ => True) market s ∧
      ∃ payment, findByBasket s.db "B1" = some payment ∧
        ∃ ans, handleCallback marketEnv s.now s.db s.db (capture "T2") = .ok ans ∧
          ans.Traces payment (capture "T2") := by
  obtain ⟨s, run, h⟩ := @Run.of_execAll_test _ _ (Sys.step marketEnv) (fun _ _ => True) _
    capturedRun market (fun s => (findByBasket s.db "B1").any (fun payment =>
      payment.status = .success ∧ recordedTxn s.db payment.id = "T1")) (by decide +kernel)
  obtain ⟨payment, hfind, htest⟩ := (Option.any_eq_true _ _).mp h
  obtain ⟨hpaid, hrecorded⟩ := of_decide_eq_true htest
  have hdiff : Differs s.db payment (capture "T2") := by
    rw [Differs, hrecorded]
    decide
  have hcompare : CanCompare s.db payment := ⟨.inl hpaid, by rw [hrecorded]; decide⟩
  have hauth : authenticSuccess marketEnv payment (capture "T2") := by
    constructor <;> decide
  exact ⟨s, run, payment, hfind, (capture_traced hfind hauth hdiff).mpr ⟨rfl, .inl hcompare⟩⟩

/-- A second capture of a booking that was cancelled and refunded is answered
as previously processed, and nothing is recorded or flagged. -/
theorem second_capture_dropped : Initial market ∧
    ∃ s, Run (Sys.step marketEnv) (fun _ _ => True) market s ∧
      ∃ payment, findByBasket s.db "B1" = some payment ∧ payment.status = .refunded ∧
        authenticSuccess marketEnv payment (capture "T2") ∧
        Differs s.db payment (capture "T2") ∧
        ∃ ans, handleCallback marketEnv s.now s.db s.db (capture "T2") = .ok ans ∧
          ans.error = some "Payment was previously processed" ∧
          ¬ ans.Traces payment (capture "T2") := by
  refine ⟨market_initial, ?_⟩
  obtain ⟨s, run, h⟩ := @Run.of_execAll_test _ _ (Sys.step marketEnv) (fun _ _ => True) _
    (capturedRun ++ [.begin (.adminUpdateBookingStatus 1 101 .cancelled), .run 0])
    market (fun s => (findByBasket s.db "B1").any (fun payment =>
      payment.status = .refunded ∧ recordedTxn s.db payment.id = "T1" ∧
      (s.db.payments.find? payment.id).map Payment.status = some .refunded))
    (by decide +kernel)
  obtain ⟨payment, hfind, htest⟩ := (Option.any_eq_true _ _).mp h
  obtain ⟨hrefunded, hrecorded, hstatus⟩ := of_decide_eq_true htest
  have hdiff : Differs s.db payment (capture "T2") := by
    rw [Differs, hrecorded]
    decide
  have hauth : authenticSuccess marketEnv payment (capture "T2") := by
    constructor <;> decide
  have hunpaid : payment.status ≠ .success := by rw [hrefunded]; decide
  have hclosed : ¬ ∃ q, s.db.payments.find? payment.id = some q ∧
      (q.status = .pending ∨ q.status = .failed) := by
    rintro ⟨q, hq, hs⟩
    rw [hq, Option.map_some, Option.some.injEq] at hstatus
    rcases hs with hs | hs <;> rw [hs] at hstatus <;> cases hstatus
  have hanswer : handleCallback marketEnv s.now s.db s.db (capture "T2") =
      .ok (answerSettled payment (capture "T2") true ⟨s.db, false, none⟩) := by
    refine (handleCallback_authentic hfind hauth _).mpr ⟨rfl, ?_⟩
    rw [if_neg hunpaid]
    exact ⟨_, settleSuccess_closed s.now (capture "T2") hclosed, rfl⟩
  refine ⟨s, run, payment, hfind, hrefunded, hauth, hdiff, _, hanswer, ?_, fun htraced => ?_⟩
  · simp [answerSettled, hstatus]
  · have := ((answerSettled_closed hdiff).mp htraced).1
    rw [hstatus] at this
    cases this

end Jadwal
