import Jadwal.Consistency
import Jadwal.Payout

/-!
# Daily reconciliation

`runReconciliation` compares what captured payments brought in with what
their bookings cost.  A customer is charged the price of the booking, plus
the service fee, less the points discount; a captured payment is worth this
charge in every state the system reaches (`Db.Priced`).  The drift is
therefore the sum of the surcharges (`drift_is_imbalance`): the service
fees less the points discounts, and the whole amount of a captured payment
that has no booking.
-/

namespace Jadwal

open Outcome

/-! ## The report -/

/-- `decimalToNumber`: a sum, rounded to hundredths. -/
def decimalToNumber (c : Cents) : Cents := toCents c.toNum

/-- What `runReconciliation` returns. -/
structure Reconciliation where
  runDate : Instant
  totalPayments : Cents
  vendorEarnings : Cents
  platformFees : Cents
  totalRefunded : Cents
  unreconciledHeld : Cents
  unreconciledCount : Nat
  drift : Cents
  passed : Bool
  deriving DecidableEq, Repr

/-- The snapshot row of a day. -/
structure ReconciliationLog where
  runDate : Instant
  totalPayments : Cents
  vendorEarnings : Cents
  platformFees : Cents
  totalRefunded : Cents
  drift : Cents
  passed : Bool
  deriving DecidableEq, Repr

instance : Keyed ReconciliationLog Instant := ⟨ReconciliationLog.runDate⟩

/-- `DRIFT_TOLERANCE`. -/
def driftTolerance : Cents := 1

/-- The bookings whose payment is captured. -/
def Db.capturedBookings (db : Db) : List Booking :=
  db.bookings.select (fun b => ∃ q ∈ db.linkedPayment b, q.status = .success)

/-- `runReconciliation`, the comparison. -/
def reconcile (now : Instant) (db : Db) : Reconciliation :=
  let totalPayments := decimalToNumber
    ((db.payments.select (fun q => q.status = .success)).map Payment.amount).sum
  let totalPriceSum := decimalToNumber (db.capturedBookings.map Booking.totalPrice).sum
  let platformFees := decimalToNumber (db.capturedBookings.map Booking.commissionAmount).sum
  let vendorEarnings := toCents (totalPriceSum.toNum - platformFees.toNum)
  let totalRefunded := decimalToNumber
    ((db.payments.select (fun q => q.status = .refunded)).map
      (fun q => q.refundAmount.getD 0)).sum
  let unreconciled := db.payments.select (fun q =>
    q.status = .refundPending ∨ q.status = .rejected)
  let drift := toCents (totalPayments.toNum - (vendorEarnings.toNum + platformFees.toNum))
  { runDate := (utcDate now).midnight
    totalPayments := totalPayments
    vendorEarnings := vendorEarnings
    platformFees := platformFees
    totalRefunded := totalRefunded
    unreconciledHeld := decimalToNumber (unreconciled.map Payment.amount).sum
    unreconciledCount := unreconciled.length
    drift := drift
    passed := |drift| ≤ driftTolerance }

def Reconciliation.log (r : Reconciliation) : ReconciliationLog where
  runDate := r.runDate
  totalPayments := r.totalPayments
  vendorEarnings := r.vendorEarnings
  platformFees := r.platformFees
  totalRefunded := r.totalRefunded
  drift := r.drift
  passed := r.passed

/-- A run: the report, the snapshot rows after the upsert, and whether the
administrators are alerted. -/
structure ReconciliationRun where
  result : Reconciliation
  logs : Table ReconciliationLog
  alerted : Bool

/-- `runReconciliation`. -/
def runReconciliation (now : Instant) (db : Db) (logs : Table ReconciliationLog) :
    ReconciliationRun :=
  let result := reconcile now db
  { result := result
    logs := (logs.insert? result.log).getD
      (logs.update result.runDate (fun row => { result.log with runDate := row.runDate }))
    alerted := ¬ result.passed }

/-! ## Charges -/

/-- What the customer is charged for a booking. -/
def Booking.charge (b : Booking) : Cents :=
  max 0 (b.totalPrice + b.serviceFee - b.pointsDiscount)

/-- What the charge adds to the price. -/
def Booking.surcharge (b : Booking) : Cents := b.charge - b.totalPrice

@[simp] theorem Booking.core_charge (b : Booking) : b.core.charge = b.charge := rfl

/-- What is charged: the price and the fee, less the points. -/
theorem quote_payable {now : Instant} {db : Db} {p : PreparedBooking} {r : Db × Quote}
    (h : quote now db p = .ok r) :
    r.2.payableAmount = max 0 (r.2.totalPrice + r.2.serviceFee - r.2.pointsDiscount) := by
  simp only [quote, bind_eq_ok, pure_eq_ok] at h
  obtain ⟨_, _, _, _, _, _, rfl⟩ := h
  rfl

variable {db db' : Db} {env : Env} {now : Instant} {G : Guard}

/-- A new booking's payment row is worth its charge. -/
theorem createBookingTx_charge {p : PreparedBooking} {ref : String} {b : Booking}
    (h : createBookingTx env now db p ref = .ok (db', b)) :
    b ∈ db'.bookings.rows ∧ ∃ q, db'.payments.rows = db.payments.rows ++ [q] ∧
      q.bookingId = some b.id ∧ q.amount = b.charge := by
  simp only [createBookingTx, bind_eq_ok, pure_eq_ok] at h
  obtain ⟨_, _, _, _, ⟨dbq, q⟩, hq, _, hs, heq⟩ := h
  obtain ⟨rfl, rfl⟩ := Prod.mk.inj heq
  have hst := storeBooking_stored hs
  have hpay : q.payableAmount = max 0 (q.totalPrice + q.serviceFee - q.pointsDiscount) :=
    quote_payable hq
  have hrows := hst.payments
  rw [show dbq.payments = db.payments from (quote_frame hq).payments] at hrows
  refine ⟨by simp [hst.bookings], _, hrows, ?_, ?_⟩
  · rfl
  · change (newPayment now dbq.nextId p.country.currencyCode q).amount =
      max 0 (q.totalPrice + q.serviceFee - q.pointsDiscount)
    rw [← hpay, newPayment]
    split
    · rename_i hle
      exact le_antisymm (hpay ▸ le_max_left _ _) hle
    · rfl

/-! ## Tasks keep amounts -/

/-- Each payment after has the id and the amount of one before, or is the
payment of a booking and worth its charge. -/
def KeepsAmounts (bs : Table Booking) (ps ps' : Table Payment) : Prop :=
  ∀ q' ∈ ps'.rows, (∃ q ∈ ps.rows, q'.id = q.id ∧ q'.amount = q.amount) ∨
    ∃ b ∈ bs.rows, q'.bookingId = some b.id ∧ q'.amount = b.charge

/-- Payments left alone keep their amounts. -/
theorem KeepsAmounts.of_eq {bs : Table Booking} {ps ps' : Table Payment} (h : ps' = ps) :
    KeepsAmounts bs ps ps' :=
  fun q hq => .inl ⟨q, h ▸ hq, rfl, rfl⟩

/-- So do payments whose amount an update keeps. -/
theorem KeepsAmounts.updateMany {bs : Table Booking} {ps : Table Payment}
    {p : Payment → Bool} {f : Payment → Payment} {hf : ∀ q, Keyed.key (f q) = Keyed.key q}
    (h : ∀ q, (f q).amount = q.amount) : KeepsAmounts bs ps (ps.updateMany p f hf) := by
  intro q' hq'
  obtain ⟨q, hq, rfl⟩ := Table.mem_updateMany.mp hq'
  refine .inl ⟨q, hq, ?_⟩
  split
  · exact ⟨hf q, h q⟩
  · exact ⟨rfl, rfl⟩

/-- Deleting a payment changes the amount of no other. -/
theorem KeepsAmounts.delete {bs : Table Booking} {ps : Table Payment} {id : Id} :
    KeepsAmounts bs ps (ps.delete id) :=
  fun q hq => .inl ⟨q, (Table.mem_delete.mp hq).1, rfl, rfl⟩

/-- Settling a payment keeps its amount. -/
theorem KeepsAmounts.of_settles {bs : Table Booking} {ps ps' : Table Payment} {id : Id}
    {status : PaymentStatus} (h : Settled.Row ps ps' id status) : KeepsAmounts bs ps ps' := by
  obtain ⟨f, hf, rfl, hset⟩ := h
  exact .updateMany hset.amount

theorem committed_amounts (tx : Tx Db)
    (h : ∀ db', tx = .ok db' → KeepsAmounts db'.bookings db.payments db'.payments) :
    KeepsAmounts (committed db tx).bookings db.payments (committed db tx).payments := by
  cases tx with
  | error e => exact .of_eq rfl
  | ok db' => exact h db' rfl

/-- A callback changes no amount. -/
theorem settleTx_amounts {payment : Payment} {params : CallbackParams} {isSuccess : Bool}
    {s : Settled} (h : settleTx now db payment params isSuccess = .ok s)
    (bs : Table Booking) : KeepsAmounts bs db.payments s.db.payments := by
  unfold settleTx at h
  split at h
  · rcases settleSuccess_ok h with ⟨hdb, _⟩ | hs
    · exact .of_eq (by rw [hdb])
    · obtain ⟨k, fp, hp, _, hset, ⟨_, _, e⟩ | ⟨_, _, _, _, e⟩ | ⟨_, _, _, _, _, _, _, _, e⟩⟩ :=
        hs.effect <;>
      · rw [e.payments]
        exact .updateMany hset.amount
  · rcases settleFailure_ok h with ⟨hdb, _⟩ | hs
    · exact .of_eq (by rw [hdb])
    · obtain ⟨fp, hp, hset, ⟨_, e⟩ | ⟨_, _, _, _, e⟩⟩ := hs.effect <;>
      · rw [e.payments]
        exact .updateMany hset.amount

/-- Neither does a recovery. -/
theorem b2Recreate_amounts {pid k : Id} {s : BookingSnapshot} {kind : RecoveryKind}
    (h : b2Recreate now db pid (some k) s = .ok (db', kind)) (bs : Table Booking) :
    KeepsAmounts bs db.payments db'.payments := by
  rcases b2Recreate_ok h with ⟨_, rfl⟩ | ⟨_, ⟨_, fp, hp, hfp, e⟩ | ⟨_, _, _, hpays⟩⟩
  · exact .of_eq rfl
  · rw [e.payments]
    exact .updateMany hfp.amount
  · obtain ⟨_, fp, hp, hps, hfp⟩ := hpays k rfl
    rw [hps]
    exact .updateMany fun q => (hfp q).2.2.2.2

/-- Neither does a cancellation. -/
theorem cancelCommit_amounts {r : CancelRead} (h : cancelCommit now db r = .ok db')
    (bs : Table Booking) : KeepsAmounts bs db.payments db'.payments := by
  have hsoft : ∀ {payment : Payment} {expected status : PaymentStatus}
      {source : LoyaltyLedgerSource},
      SoftCancelled db db' r payment.id expected status source →
      KeepsAmounts bs db.payments db'.payments := by
    intro payment expected status source hs
    obtain ⟨fb, hb, fp, hp, e, _, hset⟩ := hs.effect
    rw [e.payments]
    exact .updateMany hset.amount
  unfold cancelCommit at h
  split at h
  · exact hsoft (cancelPointsOnly_ok h)
  · exact hsoft (cancelPaid_ok h)
  · exact hsoft (cancelInFlight_ok h)
  · rw [(cancelHardDelete_ok h).2.payments]
    split
    · exact .delete
    · exact .of_eq rfl

/-- Neither does a status update. -/
theorem statusCommit_amounts (w : Wired db) (hf : Filed db) {r : StatusRead}
    (h : statusCommit now db r = .ok db') (bs : Table Booking) :
    KeepsAmounts bs db.payments db'.payments := by
  by_cases hc : r.newStatus = .cancelled
  · unfold statusCommit at h
    rw [if_pos hc] at h
    obtain ⟨found, hfound, ⟨_, rfl⟩ | ⟨live, hdo⟩⟩ := operatorCancel_ok h
    · exact .of_eq rfl
    obtain ⟨q, hbind, _, _, _, hst⟩ := hf.payment_of_live w hfound live
    obtain ⟨fb, hb, ps, es, c, e, _, _, hps, _⟩ := (hdo q hbind).effect
    rw [e.payments]
    rcases hst with ⟨hs, _⟩ | hs
    · exact .of_settles (hps.2 hs)
    · exact .of_settles (hps.1 hs)
  · obtain ⟨_, ⟨_, _, e, _⟩ | ⟨_, _, _, _, _, e, _⟩⟩ := statusCommit_mark_ok hc h <;>
      exact .of_eq e.payments

/-- Neither does the reaper. -/
theorem reapStale_amounts {stale : List Booking} (h : reapStale now db stale = .ok db')
    (bs : Table Booking) : KeepsAmounts bs db.payments db'.payments := by
  simp only [reapStale, bind_eq_ok, pure_eq_ok] at h
  obtain ⟨db₁, h₁, rfl⟩ := h
  have hp : db₁.payments = db.payments :=
    (@reapAll_dossier now 0 0 _ _ _ h₁).1.1
  have hkeep : KeepsAmounts bs db₁.payments (failStalePayments db₁ stale).payments := by
    change KeepsAmounts bs db₁.payments
      (db₁.payments.updateMany _ Payment.fail (fun _ => rfl))
    exact .updateMany fun _ => rfl
  exact hp ▸ hkeep

/-- **No task rewrites an amount**, and a new payment is worth its booking's
charge. -/
theorem Task.run_amounts (env : Env) (now : Instant) (w : Wired db) (hf : Filed db) {t : Task}
    (h : t.Relies db) :
    KeepsAmounts (t.run env now db).1.bookings db.payments (t.run env now db).1.payments := by
  cases t with
  | create p ref =>
      simp only [Task.run]
      split
      · exact .of_eq rfl
      · rename_i db' b htx
        obtain ⟨hb, q, hrows, hlink, hamount⟩ := createBookingTx_charge htx
        intro q' hq'
        rw [hrows] at hq'
        rcases List.mem_append.mp hq' with hq' | hq'
        · exact .inl ⟨q', hq', rfl, rfl⟩
        · rw [List.mem_singleton.mp hq']
          exact .inr ⟨b, hb, hlink, hamount⟩
  | stampOtp bookingId user =>
      refine committed_amounts _ fun db' htx => ?_
      simp only [otpStamp, bind_eq_ok, pure_eq_ok] at htx
      obtain ⟨db₁, hupd, rfl⟩ := htx
      exact .of_eq (updateBooking_ok hupd).2.1.payments
  | initiate r basketId =>
      refine committed_amounts _ fun db' htx => ?_
      simp only [initiateWrite, bind_eq_ok, pure_eq_ok] at htx
      obtain ⟨_, _, _, _, _, _, rfl⟩ := htx
      change KeepsAmounts _ db.payments
        (db.payments.update r.paymentId (Payment.initiate now r basketId) (fun _ => rfl))
      exact .updateMany fun _ => rfl
  | hold bookingId => exact .of_eq rfl
  | settle payment params isSuccess =>
      simp only [Task.run]
      split
      · exact .of_eq rfl
      · rename_i s htx
        exact settleTx_amounts htx _
  | recreate pid amount bookingId s =>
      obtain ⟨k, rfl, _⟩ := h
      simp only [Task.run]
      split
      · exact .of_eq rfl
      · rename_i htx
        exact b2Recreate_amounts htx _
      · rename_i htx
        exact b2Recreate_amounts htx _
  | unCancel pid booking =>
      simp only [Task.run]
      split
      · exact .of_eq rfl
      · rename_i htx
        rcases m6UnCancel_ok htx with ⟨_, rfl, _⟩ | ⟨_, _, _, _, e, _⟩
        · exact .of_eq rfl
        · exact .of_eq e.payments
  | queueRefund pid amount =>
      change KeepsAmounts _ db.payments
        (db.payments.updateMany _ (Payment.awaitRefund amount) (fun _ => rfl))
      exact .updateMany fun _ => rfl
  | cancel r => exact committed_amounts _ fun _ htx => cancelCommit_amounts htx _
  | decide r =>
      refine committed_amounts _ fun db' htx => ?_
      obtain ⟨_, _, _, fp, hp, _, _, e, _, hset, _⟩ := decisionCommit_ok htx
      rw [e.payments]
      exact .updateMany hset.amount
  | update r => exact committed_amounts _ fun _ htx => statusCommit_amounts w hf htx _
  | reap stale => exact committed_amounts _ fun _ htx => reapStale_amounts htx _
  | award rate todo cutoff =>
      cases todo with
      | nil => exact .of_eq rfl
      | cons b todo =>
          refine committed_amounts _ fun db' htx => ?_
          rcases awardOne_ok htx with rfl | hd
          · exact .of_eq rfl
          · obtain ⟨_, _, _, e, _⟩ := hd.effect
            exact .of_eq e.payments
  | complete bookings => exact .of_eq rfl
  | b2Check pid | m6Check pid k | awardBatch bookings cutoff =>
      simp only [Task.run]
      split <;> exact .of_eq rfl

/-! ## Payments are worth their booking's charge -/

/-- A payment is worth the charge of its booking, and of the booking that
recovery would re-insert. -/
def Db.Priced (db : Db) : Prop :=
  ∀ q ∈ db.payments.rows, ∀ k, q.bookingId = some k →
    (∀ b ∈ db.bookings.find? k, q.amount = b.charge) ∧
      ∀ s ∈ q.bookingSnapshot, q.amount = (recreatedBooking k q.id s).charge

/-- A move leaves the snapshot of a payment alone; its booking keeps its
core, or is the one of the snapshot. -/
theorem Move.cores {chain : Option Id} {u : Id} {balance : Id → Cents} {d d' : Dossier}
    (m : Move G chain u balance d d') {p p' : PaymentFile} (hp : d.payment = some p)
    (hp' : d'.payment = some p') :
    p'.snapshot = p.snapshot ∧ ∀ b' ∈ d'.booking, (∃ b ∈ d.booking, b'.core = b.core) ∨
      ∃ s ∈ p.snapshot, b'.core = (recreatedBooking d.id p.id s).core := by
  cases m with
  | recreate _ p₀ b s points hp₀ hb mine captured snapshot core =>
      obtain rfl : p = p' := Option.some.inj (hp.symm.trans hp')
      obtain rfl : p₀ = p := Option.some.inj (hp₀.symm.trans hp)
      refine ⟨rfl, fun b' hb' => .inr ⟨s, snapshot, ?_⟩⟩
      rw [← Option.some.inj hb', core]
  | _ =>
      simp only [Dossier.blank, Option.mem_def, Option.some.injEq, reduceCtorEq] at * <;>
        grind

/-- The payment row of a booking id is filed under it. -/
theorem Wired.dossier_payment (w : Wired db) {q : Payment} (hq : q ∈ db.payments.rows) {k : Id}
    (hk : q.bookingId = some k) (u : Id) : (db.dossier u k).payment = some q.file := by
  have hfind : db.payments.find? q.id = some q := Table.find?_key hq
  rw [(w.owns hq hk).dossier_payment u, hfind]
  rfl

/-- **A step keeps every payment at the price of its booking.** -/
theorem Db.Priced.step {chain : Option Id} (h : db.Priced) (w : Wired db) (w' : Wired db')
    (hf' : Filed db') (st : Steps G chain db db')
    (ha : KeepsAmounts db'.bookings db.payments db'.payments) : db'.Priced := by
  intro q' hq' k hk
  have hp' : (db'.dossier 0 k).payment = some q'.file := w'.dossier_payment hq' hk 0
  rcases ha q' hq' with ⟨q, hq, hid, hamount⟩ | ⟨b, hb, hlink, hamount⟩
  · have hk₀ : q.bookingId = some k := by
      rcases st.grows.payments q' hq' with ⟨q₂, hq₂, hid₂, hlink₂⟩ | ⟨hnew, _⟩
      · obtain rfl : q = q₂ := Table.key_inj hq hq₂ (hid.symm.trans hid₂)
        exact hlink₂.symm.trans hk
      · have := (w.payments q hq).1
        lia
    have hp : (db.dossier 0 k).payment = some q.file := w.dossier_payment hq hk₀ 0
    obtain ⟨hbooked, hsnap⟩ := h q hq k hk₀
    obtain ⟨hsame, hcores⟩ := (st.moves 0 k).cores hp hp'
    refine ⟨fun b' hb' => ?_, fun s hs => ?_⟩
    · have hfile : (db'.dossier 0 k).booking = some b'.file := dossier_of_find hb' 0
      rcases hcores b'.file hfile with ⟨f, hf, hcore⟩ | ⟨s, hs, hcore⟩
      · obtain ⟨b, hb, rfl⟩ := Option.map_eq_some_iff.mp hf
        rw [hamount, hbooked b hb, ← b.core_charge, ← b'.core_charge]
        exact congrArg Booking.charge hcore.symm
      · rw [hamount, hsnap s hs, ← b'.core_charge, ← Booking.core_charge]
        exact congrArg Booking.charge hcore.symm
    · have hs' : s ∈ q.bookingSnapshot := Eq.trans (Eq.symm hsame) hs
      rw [hamount, hsnap s hs']
      rfl
  · obtain rfl : b.id = k := Option.some.inj (hlink.symm.trans hk)
    have hfind : db'.bookings.find? b.id = some b := Table.find?_key hb
    refine ⟨fun b' hb' => ?_, fun s hs => ?_⟩
    · obtain rfl : b = b' := Option.some.inj (hfind.symm.trans hb')
      exact hamount
    · have hcore := ((hf' 0 b.id).depicts _ (dossier_of_find hfind 0) _ hp').2 s hs
      rw [hamount, ← b.core_charge, ← Booking.core_charge (recreatedBooking b.id q'.id s)]
      exact congrArg Booking.charge hcore.symm

/-- A step of the system changes no amount. -/
theorem Sys.step_amounts {s s' : Sys} {a : Action} (h : Consistent s)
    (hstep : s.step env a = some s') :
    KeepsAmounts s'.db.bookings s.db.payments s'.db.payments := by
  rcases Sys.step_cases hstep with ⟨elapsed, rfl, rfl⟩ | ⟨request, t, rfl, _, rfl⟩ |
    ⟨index, t, rfl, ht, rfl⟩
  · exact .of_eq rfl
  · exact .of_eq rfl
  · exact Task.run_amounts env s.now h.wired h.filed (h.relies t (List.mem_of_getElem? ht))

/-- **In every state of a run payments are worth the charge of their
bookings.** -/
theorem Initial.priced {s₀ s : Sys} (h : Initial s₀)
    (run : Run (Sys.step env) (Sys.Guarded G) s₀ s) : Consistent s ∧ s.db.Priced := by
  refine run.invariant (fun s => Consistent s ∧ s.db.Priced)
    (fun s a s' ⟨hc, hpriced⟩ hg hstep => ?_) ⟨h.consistent, ?_⟩
  · obtain ⟨hc', chain, st⟩ := hc.step hg hstep
    exact ⟨hc', hpriced.step hc.wired hc'.wired hc'.filed st (Sys.step_amounts hc hstep)⟩
  · intro q hq
    rw [h.payments] at hq
    cases hq

/-! ## The drift -/

@[simp] theorem decimalToNumber_eq (c : Cents) : decimalToNumber c = c := toCents_toNum c

/-- The captured payments. -/
def Db.captured (db : Db) : List Payment :=
  db.payments.select (fun q => q.status = .success)

/-- What a captured payment is worth above the price of its booking: all of
it, when it has none. -/
def Db.excess (db : Db) (q : Payment) : Cents :=
  match db.bookingOf q.id with
  | some b => b.surcharge
  | none => q.amount

/-- The surcharges on the captured payments. -/
def Db.imbalance (db : Db) : Cents := (db.captured.map db.excess).sum

/-- The commission cancels out of the drift. -/
theorem reconcile_drift (now : Instant) (db : Db) : (reconcile now db).drift =
    (db.captured.map Payment.amount).sum -
      (db.capturedBookings.map Booking.totalPrice).sum := by
  simp only [reconcile, decimalToNumber_eq]
  refine toCents_grid ?_
  rw [toCents_grid (c := (db.capturedBookings.map Booking.totalPrice).sum -
    (db.capturedBookings.map Booking.commissionAmount).sum)]
  · unfold Cents.toNum Db.captured
    push_cast
    ring
  · unfold Cents.toNum
    push_cast
    ring

/-- Every booking row has the payment it names, and belongs to it. -/
theorem Consistent.payment_of_row {s : Sys} (h : Consistent s) {b : Booking}
    (hb : b ∈ s.db.bookings.rows) :
    ∃ q, s.db.payments.find? q.id = some q ∧ b.paymentId = some q.id ∧
      q.bookingId = some b.id := by
  have hfind : s.db.bookings.find? b.id = some b := Table.find?_key hb
  have hfile := dossier_of_find hfind 0
  have hsound := h.filed 0 b.id
  obtain ⟨p, hp⟩ : ∃ p, (s.db.dossier 0 b.id).payment = some p := by
    cases hst : b.status with
    | pending =>
        obtain ⟨p, hp, _⟩ := hsound.reserved _ hfile hst
        exact ⟨p, hp⟩
    | confirmed =>
        obtain ⟨p, hp, _⟩ := hsound.booked _ hfile (Or.inl hst)
        exact ⟨p, hp⟩
    | completed =>
        obtain ⟨p, hp, _⟩ := hsound.booked _ hfile (Or.inr hst)
        exact ⟨p, hp⟩
    | cancelled =>
        obtain ⟨p, hp, _⟩ := hsound.cancelled _ hfile hst
        exact ⟨p, hp⟩
  obtain ⟨hname, q, hq, rfl, hown⟩ := h.filed.payment_of_booking h.wired hfind hp
  exact ⟨q, hq, hname, (hown.iff q (Table.find?_eq_some.mp hq).1).mp rfl⟩

/-- The booking of a payment is the one that names it. -/
theorem Consistent.bookingOf_iff {s : Sys} (h : Consistent s) {id : Id} {b : Booking} :
    s.db.bookingOf id = some b ↔ b ∈ s.db.bookings.rows ∧ b.paymentId = some id := by
  constructor
  · intro hb
    obtain ⟨hmem, hname⟩ := Table.first?_eq_some hb
    exact ⟨hmem, of_decide_eq_true hname⟩
  · rintro ⟨hb, hname⟩
    obtain ⟨q, hq, hid, hlink⟩ := h.payment_of_row hb
    cases hfirst : s.db.bookingOf id with
    | none => exact absurd (decide_eq_true hname) (Table.first?_eq_none.mp hfirst b hb)
    | some b₀ =>
        obtain ⟨hb₀, hname₀⟩ := Table.first?_eq_some hfirst
        obtain ⟨q₀, hq₀, hid₀, hlink₀⟩ := h.payment_of_row hb₀
        have hsame : q₀.id = q.id := by
          rw [of_decide_eq_true hname₀] at hid₀
          rw [hname] at hid
          exact Option.some.inj (hid₀.symm.trans hid)
        obtain rfl : q₀ = q := Option.some.inj (hq₀.symm.trans (hsame ▸ hq))
        have hkey : b₀.id = b.id := Option.some.inj (hlink₀.symm.trans hlink)
        rw [Table.key_inj hb₀ hb hkey]

/-- The captured bookings are the bookings of the captured payments. -/
theorem Consistent.capturedBookings_perm {s : Sys} (h : Consistent s) :
    s.db.capturedBookings.Perm (s.db.captured.filterMap (fun q => s.db.bookingOf q.id)) := by
  have hnd : s.db.capturedBookings.Nodup :=
    (List.Nodup.of_map _ s.db.bookings.nodup).sublist List.filter_sublist
  have hids : (s.db.captured.map Payment.id).Nodup :=
    s.db.payments.nodup.sublist (List.Sublist.map _ List.filter_sublist)
  have hnd' : (s.db.captured.filterMap (fun q => s.db.bookingOf q.id)).Nodup := by
    have hinj : ∀ id id' b, b ∈ s.db.bookingOf id → b ∈ s.db.bookingOf id' → id = id' := by
      intro id id' b hb hb'
      have hname := (h.bookingOf_iff.mp hb).2
      exact Option.some.inj (hname.symm.trans (h.bookingOf_iff.mp hb').2)
    have := List.Nodup.filterMap hinj hids
    rwa [List.filterMap_map] at this
  refine (List.perm_ext_iff_of_nodup hnd hnd').mpr fun b => ?_
  rw [List.mem_filterMap]
  constructor
  · intro hb
    obtain ⟨hmem, hcap⟩ := Table.mem_select.mp hb
    obtain ⟨q, hq, hst⟩ := of_decide_eq_true hcap
    obtain ⟨id, hname, hfind⟩ := Option.bind_eq_some_iff.mp hq
    obtain ⟨hrow, rfl⟩ := Table.find?_eq_some.mp hfind
    exact ⟨q, Table.mem_select.mpr ⟨hrow, decide_eq_true hst⟩,
      h.bookingOf_iff.mpr ⟨hmem, hname⟩⟩
  · rintro ⟨q, hq, hb⟩
    obtain ⟨hrow, hst⟩ := Table.mem_select.mp hq
    obtain ⟨hmem, hname⟩ := h.bookingOf_iff.mp hb
    refine Table.mem_select.mpr ⟨hmem, decide_eq_true ⟨q, ?_, of_decide_eq_true hst⟩⟩
    rw [Db.linkedPayment, hname]
    exact Table.find?_key hrow

/-- What the booking of a payment costs. -/
def Db.priceOf (db : Db) (q : Payment) : Cents :=
  ((db.bookingOf q.id).map Booking.totalPrice).getD 0

/-- The prices of the captured payments are those of their bookings. -/
theorem sum_priceOf (db : Db) (qs : List Payment) :
    (qs.map db.priceOf).sum =
      ((qs.filterMap (fun q => db.bookingOf q.id)).map Booking.totalPrice).sum := by
  induction qs with
  | nil => rfl
  | cons q qs ih =>
      rw [List.map_cons, List.sum_cons, ih, Db.priceOf]
      cases hb : db.bookingOf q.id with
      | none => simp [hb]
      | some b => simp [hb]

/-- A payment is worth the price of its booking and its excess. -/
theorem Consistent.amount_eq {s : Sys} (h : Consistent s) (hp : s.db.Priced) {q : Payment}
    (hq : q ∈ s.db.payments.rows) : q.amount = s.db.excess q + s.db.priceOf q := by
  rw [Db.excess, Db.priceOf]
  cases hb : s.db.bookingOf q.id with
  | none => simp
  | some b =>
      obtain ⟨hmem, hname⟩ := h.bookingOf_iff.mp hb
      obtain ⟨q', hq', hname', hlink⟩ := h.payment_of_row hmem
      have hid : q'.id = q.id := Option.some.inj (hname'.symm.trans hname)
      obtain rfl : q' = q := Option.some.inj (hq'.symm.trans (hid ▸ Table.find?_key hq))
      have hcharge := (hp q' hq b.id hlink).1 b (Table.find?_key hmem)
      simp [hcharge, Booking.surcharge]

/-- **The drift is the sum of the surcharges on captured payments.** -/
theorem drift_is_imbalance {s : Sys} (h : Consistent s) (hp : s.db.Priced) (now : Instant) :
    (reconcile now s.db).drift = s.db.imbalance := by
  have hamounts : (s.db.captured.map Payment.amount).sum =
      (s.db.captured.map (fun q => s.db.excess q + s.db.priceOf q)).sum := by
    refine congrArg List.sum (List.map_congr_left fun q hq => ?_)
    exact h.amount_eq hp (Table.mem_select.mp hq).1
  rw [reconcile_drift, hamounts, List.sum_map_add, sum_priceOf,
    (h.capturedBookings_perm.map Booking.totalPrice).sum_eq]
  exact add_sub_cancel_right _ _

/-! ## A changed amount -/

/-- The database with one payment's amount overwritten. -/
def Db.withAmount (db : Db) (paymentId : Id) (amount : Cents) : Db :=
  { db with payments := db.payments.update paymentId (fun q => { q with amount := amount }) }

/-- Another amount leaves the captured bookings. -/
theorem withAmount_capturedBookings (db : Db) (paymentId : Id) (amount : Cents) :
    (db.withAmount paymentId amount).capturedBookings = db.capturedBookings := by
  refine List.filter_congr fun b _ => decide_eq_decide.mpr ?_
  simp only [Db.linkedPayment, Db.withAmount, Table.find?_update]
  cases b.paymentId with
  | none => exact Iff.rfl
  | some id =>
      by_cases hid : id = paymentId
      · cases db.payments.find? id with
        | none => simp [hid]
        | some q => simp [hid]
      · simp [hid]

/-- The captured amounts, summed over the table. -/
theorem captured_sum (db : Db) : (db.captured.map Payment.amount).sum =
    db.payments.total (fun q => if q.status = .success then q.amount else 0) := by
  simp [Table.total, List.sum_map_ite, Db.captured, Table.select]

/-- Overwriting a captured payment's amount moves the drift by the change. -/
theorem withAmount_drift (now : Instant) {q : Payment} (hq : q ∈ db.payments.rows)
    (hst : q.status = .success) (amount : Cents) :
    (reconcile now (db.withAmount q.id amount)).drift =
      (reconcile now db).drift + (amount - q.amount) := by
  have hmoved := db.payments.total_update q.id (fun q => { q with amount := amount })
    (fun _ => rfl) (fun q => if q.status = .success then q.amount else 0)
    (Table.find?_key hq)
  rw [if_pos hst, if_pos hst] at hmoved
  rw [reconcile_drift, reconcile_drift, withAmount_capturedBookings, captured_sum, captured_sum]
  simp only [Db.withAmount]
  lia

/-- **The books show no drift, and a drift after any change of a captured
amount, exactly when the surcharges add up to nothing.** -/
theorem clean_books_balance {s₀ s : Sys} (h : Initial s₀)
    (run : Run (Sys.step env) Sys.SaneUpdate s₀ s) (now : Instant)
    (logs : Table ReconciliationLog) :
    ((runReconciliation now s.db logs).result.drift = 0 ∧
      ∀ q ∈ s.db.payments.rows, q.status = .success → ∀ amount, amount ≠ q.amount →
        (runReconciliation now (s.db.withAmount q.id amount) logs).result.drift ≠ 0) ↔
      s.db.imbalance = 0 := by
  obtain ⟨hc, hpriced⟩ := h.priced (run.mono fun _ _ => Sys.SaneUpdate.guarded)
  have hdrift : (runReconciliation now s.db logs).result.drift = s.db.imbalance :=
    drift_is_imbalance hc hpriced now
  rw [hdrift]
  refine ⟨fun hboth => hboth.1, fun hzero => ⟨hzero, fun q hq hst amount hne => ?_⟩⟩
  have hmoved := withAmount_drift now hq hst amount
  rw [drift_is_imbalance hc hpriced now, hzero, zero_add] at hmoved
  change (reconcile now (s.db.withAmount q.id amount)).drift ≠ 0
  rw [hmoved]
  exact sub_ne_zero.mpr hne

theorem clean_books_balance_paid : ∃ s, Run (Sys.step marketEnv) Sys.SaneUpdate market s ∧
    s.db.captured.length = 1 ∧
    (runReconciliation (2 * day) s.db Table.empty).result.drift = 0 := by
  obtain ⟨s, run, h⟩ := @Run.of_execAll_test _ _ (Sys.step marketEnv) Sys.SaneUpdate _
    paidRun market (fun s => s.db.captured.length = 1 ∧ s.db.imbalance = 0)
    (by decide +kernel)
  obtain ⟨hone, hzero⟩ := of_decide_eq_true h
  exact ⟨s, run, hone, ((clean_books_balance market_initial run (2 * day) Table.empty).mpr
    hzero).1⟩

/-! The market with a service fee of 5.00 a booking. -/

def feeMarket : Sys :=
  { market with
    db := { market.db with countries := ⟨[{ id := 5, serviceFeeFixed := 500 }], by decide⟩ } }

theorem feeMarket_initial : Initial feeMarket := by
  constructor <;> simp [feeMarket, market]

/-- One paid booking with a service fee fails the reconciliation. -/
theorem service_fee_drifts : Initial feeMarket ∧
    ∃ s, Run (Sys.step marketEnv) Sys.SaneUpdate feeMarket s ∧
      (runReconciliation (2 * day) s.db Table.empty).result.drift = 500 ∧
      (runReconciliation (2 * day) s.db Table.empty).alerted = true := by
  refine ⟨feeMarket_initial, ?_⟩
  obtain ⟨s, run, h⟩ := @Run.of_execAll_test _ _ (Sys.step marketEnv) Sys.SaneUpdate _
    paidRun feeMarket (fun s =>
      (runReconciliation (2 * day) s.db Table.empty).result.drift = 500 ∧
        (runReconciliation (2 * day) s.db Table.empty).alerted = true) (by decide +kernel)
  exact ⟨s, run, of_decide_eq_true h⟩

end Jadwal
