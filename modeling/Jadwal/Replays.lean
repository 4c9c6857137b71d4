import Jadwal.Captures
import Jadwal.Reaping

/-!
# Replayed callbacks

The gateway sends a notification more than once, and its message comes on two
ways.  A **delivery** is one callback processed to its end: the settling
transaction and the recovery it goes on with.  A delivery of a capture leaves
the payment closed to every later one with the same transaction id, whatever
the recovery decided, so a sequence of deliveries ends where the first of them
does (`replays_harmless`).

A success signed on the NAPS rail is not a capture.  It is held, and every
delivery of it extends the reservation again.
-/

namespace Jadwal

open Outcome

variable {env : Env} {now : Instant} {db db' db'' : Db} {payment : Payment}
  {params : CallbackParams}

/-! ## Deliveries -/

/-- A callback, with the instants of the transactions of its processing. -/
structure Delivery where
  params : CallbackParams
  settled : Instant
  checked : Instant
  recovered : Instant
  refunded : Instant

def Delivery.times (d : Delivery) : List Instant :=
  [d.settled, d.checked, d.recovered, d.refunded]

/-- A chain of tasks, one transaction at each instant. -/
def runChain (env : Env) : List Instant → Db → Option Task → Db × Option Task
  | [], db, next => (db, next)
  | _ :: _, db, none => (db, none)
  | now :: times, db, some t =>
      runChain env times (t.run env now db).1 (t.run env now db).2

/-- `handleCallback` with the recovery it goes on with. -/
def processCallback (env : Env) (db : Db) (d : Delivery) : Db :=
  match callbackRead env db d.params with
  | .ok next => (runChain env d.times db next).1
  | .error _ => db

def processAll (env : Env) (db : Db) (ds : List Delivery) : Db :=
  ds.foldl (processCallback env) db

@[simp] theorem runChain_none (times : List Instant) :
    runChain env times db none = (db, none) := by
  cases times <;> rfl

/-! ## A delivery is processed to its end -/

/-- The tasks of a callback. -/
def Task.OfCallback : Task → Prop
  | .hold _ => True
  | .settle _ _ _ => True
  | t => t.recovers ≠ none

/-- How many transactions a task of a callback may still take. -/
def Task.depth : Task → Nat
  | .settle _ _ _ => 4
  | .b2Check _ => 3
  | .m6Check _ _ => 3
  | .recreate _ _ _ _ => 2
  | .unCancel _ _ => 2
  | _ => 1

/-- What follows a settlement is less deep than it. -/
theorem afterSettle_depth {mode : Option RecoveryMode} {t' : Task}
    (h : afterSettle payment mode = some t') : t'.depth < 4 := by
  unfold afterSettle at h
  split at h
  · obtain rfl := Option.some.inj h
    simp [Task.depth]
  · obtain ⟨k, _, rfl⟩ := Option.map_eq_some_iff.mp h
    simp [Task.depth]
  · obtain rfl := Option.some.inj h
    simp [Task.depth]
  · cases h

theorem afterSettle_not_recreate (mode : Option RecoveryMode)
    {p : Id} {amount : Cents} {bookingId : Option Id} {s : BookingSnapshot} :
    afterSettle payment mode ≠ some (.recreate p amount bookingId s) := by
  cases mode with
  | none => simp [afterSettle]
  | some mode => cases mode <;> simp [afterSettle]

/-- A recovery goes on with the recovery of the same payment, by fewer
transactions. -/
theorem Task.next_recovers {t t' : Task} {pid : Id} (ht : t.recovers = some pid)
    (hnext : (t.run env now db).2 = some t') :
    t'.recovers = some pid ∧ t'.depth < t.depth := by
  have hrefund : ∀ amount, some (Task.queueRefund pid amount) = some t' → 1 < t.depth →
      t'.recovers = some pid ∧ t'.depth < t.depth := by
    intro amount h hdepth
    obtain rfl := Option.some.inj h
    exact ⟨rfl, hdepth⟩
  cases t with
  | b2Check p =>
      obtain rfl := Option.some.inj ht
      simp only [Task.run] at hnext
      split at hnext
      · cases hnext
      · exact hrefund _ hnext (by simp [Task.depth])
      · obtain rfl := Option.some.inj hnext
        exact ⟨rfl, by simp [Task.depth]⟩
  | recreate p amount bookingId s =>
      obtain rfl := Option.some.inj ht
      simp only [Task.run] at hnext
      split at hnext
      · exact hrefund _ hnext (by simp [Task.depth])
      · exact hrefund _ hnext (by simp [Task.depth])
      · cases hnext
  | m6Check p k =>
      obtain rfl := Option.some.inj ht
      simp only [Task.run] at hnext
      split at hnext
      · cases hnext
      · exact hrefund _ hnext (by simp [Task.depth])
      · obtain rfl := Option.some.inj hnext
        exact ⟨rfl, by simp [Task.depth]⟩
  | unCancel p b =>
      obtain rfl := Option.some.inj ht
      simp only [Task.run] at hnext
      split at hnext
      · obtain ⟨q, _, h⟩ := Option.map_eq_some_iff.mp hnext
        exact hrefund _ (congrArg some h) (by simp [Task.depth])
      · cases hnext
  | queueRefund p amount => cases hnext
  | _ => cases ht

/-- A recovery belongs to a callback. -/
theorem Task.OfCallback.of_recovers {t : Task} {pid : Id} (h : t.recovers = some pid) :
    t.OfCallback := by
  cases t <;> cases h <;> simp [Task.OfCallback, Task.recovers]

/-- What follows a statement of a callback is one of it too, and less deep. -/
theorem Task.OfCallback.next {t t' : Task} (ht : t.OfCallback)
    (hnext : (t.run env now db).2 = some t') : t'.OfCallback ∧ t'.depth < t.depth := by
  cases t with
  | settle payment params isSuccess =>
      simp only [Task.run] at hnext
      split at hnext
      · cases hnext
      · exact ⟨.of_recovers (afterSettle_recovers hnext), afterSettle_depth hnext⟩
  | hold bookingId => cases hnext
  | b2Check p | recreate p _ _ _ | m6Check p _ | unCancel p _ | queueRefund p _ =>
      exact (Task.next_recovers rfl hnext).imp_left .of_recovers
  | _ => exact absurd rfl ht

/-- **A callback comes to its end** in as many statements as it is deep. -/
theorem runChain_ends : ∀ (times : List Instant) (db : Db) (next : Option Task),
    (∀ t ∈ next, t.OfCallback ∧ t.depth ≤ times.length) →
      (runChain env times db next).2 = none
  | times, db, none, _ => by rw [runChain_none]
  | [], db, some t, h => by
      have := (h t rfl).2
      cases t <;> simp [Task.depth] at this
  | now :: times, db, some t, h => by
      refine runChain_ends times _ _ fun t' ht' => ?_
      obtain ⟨hof, hlt⟩ := (h t rfl).1.next ht'
      have := (h t rfl).2
      simp only [List.length_cons] at this
      exact ⟨hof, by lia⟩

/-- What a callback puts in flight is one of it. -/
theorem callbackRead_task {t : Task} (h : callbackRead env db params = .ok (some t)) :
    t.OfCallback := by
  simp only [callbackRead, bind_eq_ok] at h
  obtain ⟨_, _, payment, _, h⟩ := h
  split at h <;> cases h <;> trivial

/-- Four transactions are enough for any callback. -/
theorem processCallback_ends {d : Delivery} {next : Option Task}
    (h : callbackRead env db d.params = .ok next) :
    (runChain env d.times db next).2 = none := by
  refine runChain_ends d.times db next fun t ht => ?_
  obtain rfl := ht
  refine ⟨callbackRead_task h, ?_⟩
  cases t <;> simp [Task.depth, Delivery.times]

/-! ## Closed payments stay closed -/

/-- What a recovery keeps of the payments: what a lookup by basket finds, and
that a closed payment is closed. -/
structure KeepsClosed (ps ps' : Table Payment) : Prop where
  found : ∀ basketId, (ps'.first? (fun q => q.gatewayBasketId = some basketId)).map
      (fun q => (q.id, q.amount)) =
    (ps.first? (fun q => q.gatewayBasketId = some basketId)).map (fun q => (q.id, q.amount))
  closed : ∀ pid, (∀ q, ps.find? pid = some q → q.status ≠ .pending ∧ q.status ≠ .failed) →
    ∀ q, ps'.find? pid = some q → q.status ≠ .pending ∧ q.status ≠ .failed

theorem KeepsClosed.refl (ps : Table Payment) : KeepsClosed ps ps :=
  ⟨fun _ => rfl, fun _ h => h⟩

theorem KeepsClosed.of_eq {ps ps' : Table Payment} (h : ps' = ps) : KeepsClosed ps ps' :=
  h ▸ .refl ps

/-- Closed payments stay closed, over two stretches. -/
theorem KeepsClosed.trans {ps ps' ps'' : Table Payment} (h : KeepsClosed ps ps')
    (h' : KeepsClosed ps' ps'') : KeepsClosed ps ps'' :=
  ⟨fun basketId => (h'.found basketId).trans (h.found basketId),
    fun pid hclosed => h'.closed pid (h.closed pid hclosed)⟩

/-- An update that only closes keeps closed payments closed. -/
theorem KeepsClosed.updateMany {ps : Table Payment} {p : Payment → Bool}
    {f : Payment → Payment} {hf : ∀ q, Keyed.key (f q) = Keyed.key q}
    (hbasket : ∀ q, (f q).gatewayBasketId = q.gatewayBasketId)
    (hamount : ∀ q, (f q).amount = q.amount)
    (hstatus : ∀ q, (f q).status = q.status ∨
      ((f q).status ≠ .pending ∧ (f q).status ≠ .failed)) :
    KeepsClosed ps (ps.updateMany p f hf) := by
  have hid : ∀ q, (f q).id = q.id := hf
  refine ⟨fun basketId => ?_, fun pid hclosed q' hq' => ?_⟩
  · rw [Table.first?_updateMany ps p f hf _ fun q => by rw [hbasket q], Option.map_map]
    refine congrArg (fun g => Option.map g _) (funext fun q => ?_)
    simp only [Function.comp_apply]
    split
    · rw [hid, hamount]
    · rfl
  · obtain ⟨hq', hkey⟩ := Table.find?_eq_some.mp hq'
    obtain ⟨q, hq, rfl⟩ := Table.mem_updateMany.mp hq'
    by_cases hp : p q = true
    · rw [if_pos hp] at hkey ⊢
      have hold := hclosed q (Table.find?_eq_some.mpr ⟨hq, (hf q).symm.trans hkey⟩)
      rcases hstatus q with hsame | hclosed
      · rwa [hsame]
      · exact hclosed
    · rw [if_neg hp] at hkey ⊢
      exact hclosed q (Table.find?_eq_some.mpr ⟨hq, hkey⟩)

/-- A recovery opens no payment. -/
theorem b2Recreate_keepsClosed {pid : Id} {bookingId : Option Id} {s : BookingSnapshot}
    {kind : RecoveryKind} (h : b2Recreate now db pid bookingId s = .ok (db', kind)) :
    KeepsClosed db.payments db'.payments := by
  have hstamp : ∀ (ps : Table Payment) (hf : ∀ q, Keyed.key (Payment.stampRecreated now q) =
      Keyed.key q), KeepsClosed ps (ps.update pid (Payment.stampRecreated now) hf) :=
    fun ps hf => .updateMany (fun _ => rfl) (fun _ => rfl) fun _ => .inl rfl
  have hrelink : ∀ (k : Id) (ps : Table Payment) (hf : ∀ q, Keyed.key (Payment.relink k q) =
      Keyed.key q), KeepsClosed ps (ps.update pid (Payment.relink k) hf) :=
    fun k ps hf => .updateMany (fun _ => rfl) (fun _ => rfl) fun _ => .inl rfl
  unfold b2Recreate at h
  split at h
  · obtain ⟨rfl, _⟩ := Prod.mk.inj (Except.ok.inj h)
    exact .refl _
  · simp only at h
    split at h
    · obtain ⟨rfl, _⟩ := Prod.mk.inj (Except.ok.inj h)
      exact hstamp _ fun _ => rfl
    · simp only [bind_eq_ok, pure_eq_ok] at h
      obtain ⟨db₁, hins, _, _, db₂, hred, heq⟩ := h
      obtain ⟨rfl, _⟩ := Prod.mk.inj heq
      obtain ⟨_, _, _, bookings, _, rfl⟩ := insertBooking_ok hins
      rw [(redeemPointsOf_effect hred).1.payments, (reclaimCouponUsage_frame _ _ _).payments]
      exact (hstamp _ fun _ => rfl).trans (hrelink _ _ fun _ => rfl)

/-- **A recovery keeps closed payments closed.** -/
theorem Task.run_keepsClosed {t : Task} {pid : Id} (ht : t.recovers = some pid) :
    KeepsClosed db.payments (t.run env now db).1.payments := by
  cases t with
  | recreate p amount bookingId s =>
      simp only [Task.run]
      split
      · exact .refl _
      · rename_i htx
        exact b2Recreate_keepsClosed htx
      · rename_i htx
        exact b2Recreate_keepsClosed htx
  | unCancel p b =>
      simp only [Task.run]
      split
      · exact .refl _
      · rename_i htx
        rcases m6UnCancel_ok htx with ⟨_, rfl, _⟩ | ⟨_, _, _, _, e, _⟩
        · exact .refl _
        · exact .of_eq e.payments
  | queueRefund p amount =>
      change KeepsClosed db.payments
        (db.payments.updateMany _ (Payment.awaitRefund amount) (fun _ => rfl))
      refine .updateMany (fun _ => rfl) (fun _ => rfl) fun _ => .inr ?_
      simp [Payment.awaitRefund]
  | b2Check p | m6Check p k =>
      simp only [Task.run]
      split <;> exact .refl _
  | _ => cases ht

/-- The payment is linked to a booking, and a recovery that re-inserts one
takes its id. -/
structure Linked (pid k : Id) (db : Db) (next : Option Task) : Prop where
  link : ∀ q, db.payments.find? pid = some q → q.bookingId = some k
  recovers : ∀ t ∈ next, t.recovers = some pid
  recreates : ∀ t ∈ next, ∀ p amount bookingId s, t = .recreate p amount bookingId s →
    bookingId = some k

/-- It keeps the link of its payment. -/
theorem b2Recreate_linked {pid k : Id} {s : BookingSnapshot} {kind : RecoveryKind}
    (h : b2Recreate now db pid (some k) s = .ok (db', kind))
    (hlink : ∀ q, db.payments.find? pid = some q → q.bookingId = some k) :
    ∀ q, db'.payments.find? pid = some q → q.bookingId = some k := by
  intro q hq
  rcases b2Recreate_ok h with
    ⟨_, rfl⟩ | ⟨_, ⟨_, fp, hp, hsame, e⟩ | ⟨_, _, _, hrelinked⟩⟩
  · exact hlink q hq
  · rw [e.payments, Table.find?_update, if_pos rfl, Option.map_eq_some_iff] at hq
    obtain ⟨q₀, hq₀, rfl⟩ := hq
    exact (hsame.bookingId q₀).trans (hlink q₀ hq₀)
  · obtain ⟨_, fp, hp, hpayments, hfp⟩ := hrelinked k rfl
    rw [hpayments, Table.find?_update, if_pos rfl, Option.map_eq_some_iff] at hq
    obtain ⟨q₀, _, rfl⟩ := hq
    exact (hfp q₀).2.1

/-- A statement keeps the payment linked to its booking. -/
theorem Linked.run {t : Task} {pid k : Id} (h : Linked pid k db (some t)) (env : Env)
    (now : Instant) :
    Linked pid k (t.run env now db).1 (t.run env now db).2 := by
  have ht := h.recovers t rfl
  refine ⟨?_, fun t' ht' => (Task.next_recovers ht ht').1, ?_⟩
  · cases t with
    | recreate p amount bookingId s =>
        obtain rfl := Option.some.inj ht
        obtain rfl := h.recreates _ rfl _ _ _ _ rfl
        simp only [Task.run]
        split
        · exact h.link
        · rename_i htx
          exact b2Recreate_linked htx h.link
        · rename_i htx
          exact b2Recreate_linked htx h.link
    | unCancel p b =>
        simp only [Task.run]
        split
        · exact h.link
        · rename_i htx
          rcases m6UnCancel_ok htx with ⟨_, rfl, _⟩ | ⟨_, _, _, _, e, _⟩
          · exact h.link
          · rw [e.payments]
            exact h.link
    | queueRefund p amount =>
        intro q hq
        obtain ⟨c, hc⟩ : ∃ c : Payment → Bool, (queueB2Refund db p amount).payments.find? pid =
            (db.payments.find? pid).map (fun q => if c q then q.awaitRefund amount else q) :=
          ⟨_, Table.find?_updateMany _ _ (Payment.awaitRefund amount) (fun _ => rfl) pid⟩
        obtain ⟨q₀, hq₀, rfl⟩ := Option.map_eq_some_iff.mp (hc.symm.trans hq)
        split <;> exact h.link q₀ hq₀
    | b2Check p | m6Check p k =>
        simp only [Task.run]
        split <;> exact h.link
    | _ => cases ht
  · intro t' ht' p amount bookingId s heq
    subst heq
    cases t with
    | b2Check p =>
        obtain rfl := Option.some.inj ht
        simp only [Task.run] at ht'
        split at ht'
        · cases ht'
        · cases ht'
        · rename_i hplan
          cases ht'
          obtain ⟨q, hq, _, hk, _⟩ := b2Preflight_recreate hplan
          exact hk.symm.trans (h.link q hq)
    | recreate p amount bookingId s | m6Check p k | unCancel p b =>
        simp only [Task.run, refundFresh] at ht'
        split at ht' <;> simp at ht'
    | queueRefund p amount => cases ht'
    | _ => cases ht

/-- A whole callback closes payments only, and keeps the link. -/
theorem runChain_keeps {pid k : Id} (env : Env) : ∀ (times : List Instant) (db : Db)
    (next : Option Task), Linked pid k db next →
      KeepsClosed db.payments (runChain env times db next).1.payments ∧
        Linked pid k (runChain env times db next).1 (runChain env times db next).2
  | times, db, none, h => by
      rw [runChain_none]
      exact ⟨.refl _, h⟩
  | [], db, some t, h => ⟨.refl _, h⟩
  | now :: times, db, some t, h => by
      obtain ⟨hkeeps, hlinked⟩ := runChain_keeps env times _ _ (h.run env now)
      exact ⟨(t.run_keepsClosed (h.recovers t rfl)).trans hkeeps, hlinked⟩

/-! ## What one delivery does -/

/-- A success signed on the NAPS rail. -/
def heldSuccess (env : Env) (payment : Payment) (params : CallbackParams) : Prop :=
  params.via = .callback ∧ ∃ r ∈ resolveSignedErrCode env params.basketId payment.amount
    params.errCode params.responseKey, r.2 = .naps ∧ (r.1 = "00" ∨ r.1 = "000")

/-- The capture can be recorded on the payment as it stands. -/
def Settleable (env : Env) (db : Db) (payment : Payment) (txn : Option String) : Prop :=
  env.paymentEnabled = true ∧ (payment.status = .pending ∨ payment.status = .failed) ∧
    payment.bookingId ≠ none ∧
    (txn = none ∨ ∀ q ∈ db.payments.rows, q.id ≠ payment.id → q.gatewayTxnId ≠ txn)

/-- Whether a success is authentic depends on the amount alone. -/
theorem authenticSuccess_amount {q : Payment} (h : q.amount = payment.amount) :
    authenticSuccess env q params ↔ authenticSuccess env payment params := by
  unfold authenticSuccess
  rw [h]

/-- So does whether one is held. -/
theorem heldSuccess_amount {q : Payment} (h : q.amount = payment.amount) :
    heldSuccess env q params ↔ heldSuccess env payment params := by
  unfold heldSuccess
  rw [h]

/-- A success held on the NAPS rail is held, unless the payment is paid. -/
theorem classify_held (h : heldSuccess env payment params)
    (hunpaid : payment.status ≠ .success) :
    classifyCallback env payment params = .hold := by
  obtain ⟨hvia, ⟨ec, rail⟩, hr, hnaps, hcode⟩ := h
  simp only at hnaps hcode
  subst hnaps
  rw [Option.mem_def] at hr
  unfold classifyCallback
  rw [if_neg hunpaid, hvia]
  simp [browserVerdict, hr, hcode]

/-- A capture settles a payment that is not yet settled, and does nothing else. -/
theorem processCallback_capture {d : Delivery}
    (hfind : findByBasket db d.params.basketId = some payment)
    (hauth : authenticSuccess env payment d.params) :
    processCallback env db d =
      if env.paymentEnabled = true ∧ payment.status ≠ .success then
        (runChain env d.times db (some (.settle payment d.params true))).1
      else db := by
  unfold processCallback callbackRead
  rw [hfind]
  by_cases henabled : env.paymentEnabled = true
  · by_cases hpaid : payment.status = .success
    · simp [henabled, hpaid, ensure, orThrow, bind, Except.bind, pure, Except.pure,
        classify_paid hpaid]
    · simp [henabled, hpaid, ensure, orThrow, bind, Except.bind, pure, Except.pure,
        classify_authentic hauth hpaid]
  · simp [henabled, ensure, bind, Except.bind]

/-- A held success extends the hold of a payment that is not yet settled. -/
theorem processCallback_held {d : Delivery}
    (hfind : findByBasket db d.params.basketId = some payment)
    (hheld : heldSuccess env payment d.params) :
    processCallback env db d =
      if env.paymentEnabled = true ∧ payment.status ≠ .success then
        holdNapsSuccess d.settled db payment.bookingId
      else db := by
  unfold processCallback callbackRead
  rw [hfind]
  by_cases henabled : env.paymentEnabled = true
  · by_cases hpaid : payment.status = .success
    · simp [henabled, hpaid, ensure, orThrow, bind, Except.bind, pure, Except.pure,
        classify_paid hpaid]
    · simp [henabled, hpaid, ensure, orThrow, bind, Except.bind, pure, Except.pure,
        classify_held hheld hpaid, Delivery.times, runChain, Task.run]
  · simp [henabled, ensure, bind, Except.bind]

/-- The row a basket names is the row of its id. -/
theorem findByBasket_find {basketId : String} (h : findByBasket db basketId = some payment) :
    db.payments.find? payment.id = some payment :=
  Table.find?_key (Table.first?_eq_some h).1

/-- The settling transaction of a payment that can take the capture. -/
theorem settleSuccess_settles (now : Instant) (params : CallbackParams)
    (hfind : db.payments.find? payment.id = some payment)
    (h : Settleable env db payment (capturedTxn params)) :
    ∃ s, settleSuccess now db payment params = .ok s ∧
      s.db.payments = db.payments.update payment.id (Payment.capture now params)
        (fun _ => rfl) := by
  obtain ⟨_, hopen, hk, hfree⟩ := h
  obtain ⟨k, hk⟩ := Option.ne_none_iff_exists'.mp hk
  rw [settleSuccess, unpaid_row hfind hopen]
  simp only [ensure, if_pos hfree, hk, orThrow, bind, Except.bind, pure, Except.pure]
  split
  · exact ⟨_, rfl, rfl⟩
  · split <;> exact ⟨_, rfl, rfl⟩

/-- The settling transaction of a payment that cannot take the capture does
nothing, or throws. -/
theorem settle_idle (now : Instant) (params : CallbackParams)
    (hfind : db.payments.find? payment.id = some payment)
    (henabled : env.paymentEnabled = true)
    (h : ¬ Settleable env db payment (capturedTxn params)) :
    Task.run env now db (.settle payment params true) = (db, none) := by
  by_cases hopen : payment.status = .pending ∨ payment.status = .failed
  · have hthrows : ∃ e, settleSuccess now db payment params = .error e := by
      rw [settleSuccess, unpaid_row hfind hopen]
      by_cases hfree : capturedTxn params = none ∨ ∀ q ∈ db.payments.rows,
          q.id ≠ payment.id → q.gatewayTxnId ≠ capturedTxn params
      · have hk : payment.bookingId = none := by
          by_contra hk
          exact h ⟨henabled, hopen, hk, hfree⟩
        simp [ensure, hfree, hk, orThrow, bind, Except.bind]
      · simp [ensure, hfree, bind, Except.bind]
    obtain ⟨e, he⟩ := hthrows
    simp [Task.run, settleTx, he]
  · have hclosed : ¬ ∃ q, db.payments.find? payment.id = some q ∧
        (q.status = .pending ∨ q.status = .failed) := by
      rintro ⟨q, hq, hs⟩
      obtain rfl := Option.some.inj (hfind.symm.trans hq)
      exact hopen hs
    simp [Task.run, settleTx, settleSuccess_closed now params hclosed, afterSettle]

/-- The payment of the basket takes no capture with the given transaction id. -/
def Done (env : Env) (basketId : String) (payment : Payment) (txn : Option String)
    (db : Db) : Prop :=
  ∃ q, findByBasket db basketId = some q ∧ q.amount = payment.amount ∧
    q.bookingId = payment.bookingId ∧ ¬ Settleable env db q txn

/-- A capture the payment cannot take changes nothing. -/
theorem processCallback_idle {d : Delivery}
    (hfind : findByBasket db d.params.basketId = some payment)
    (hauth : authenticSuccess env payment d.params)
    (h : ¬ Settleable env db payment (capturedTxn d.params)) :
    processCallback env db d = db := by
  rw [processCallback_capture hfind hauth]
  split
  · rename_i hrun
    have hidle := settle_idle d.settled d.params (findByBasket_find hfind) hrun.1 h
    simp only [Delivery.times, runChain, hidle]
  · rfl

/-- **A capture is taken once.**  Whatever the delivery of a capture did, the
payment takes no other with its transaction id. -/
theorem processCallback_done {d : Delivery}
    (hfind : findByBasket db d.params.basketId = some payment)
    (hauth : authenticSuccess env payment d.params) :
    Done env d.params.basketId payment (capturedTxn d.params) (processCallback env db d) := by
  by_cases h : Settleable env db payment (capturedTxn d.params)
  · have hunpaid : payment.status ≠ .success := by
      rcases h.2.1 with hs | hs <;> simp [hs]
    rw [processCallback_capture hfind hauth, if_pos ⟨h.1, hunpaid⟩]
    obtain ⟨s, hs, hpayments⟩ :=
      settleSuccess_settles d.settled d.params (findByBasket_find hfind) h
    have hrun : Task.run env d.settled db (.settle payment d.params true) =
        (s.db, afterSettle payment s.recovery) := by
      simp [Task.run, settleTx, hs]
    simp only [Delivery.times, runChain, hrun]
    have hcapture : KeepsClosed db.payments s.db.payments := by
      rw [hpayments]
      exact .updateMany (fun _ => rfl) (fun _ => rfl) fun _ => .inr (by simp [Payment.capture])
    have hcaptured : s.db.payments.find? payment.id =
        some (payment.capture d.settled d.params) := by
      rw [hpayments]
      refine (Table.find?_update _ _ _ _ _).trans ?_
      rw [if_pos rfl, findByBasket_find hfind]
      rfl
    obtain ⟨k, hk⟩ := Option.ne_none_iff_exists'.mp h.2.2.1
    have hlinked : Linked payment.id k s.db (afterSettle payment s.recovery) := by
      refine ⟨fun q hq => ?_, fun t ht => afterSettle_recovers ht, ?_⟩
      · obtain rfl := Option.some.inj (hcaptured.symm.trans hq)
        exact hk
      · rintro t ht p amount bookingId snapshot rfl
        exact absurd ht (afterSettle_not_recreate _)
    obtain ⟨hchain, hlinked'⟩ := runChain_keeps env
      [d.checked, d.recovered, d.refunded] s.db _ hlinked
    have hsame := (hcapture.trans hchain).found d.params.basketId
    change (findByBasket _ _).map _ = (findByBasket _ _).map _ at hsame
    rw [hfind, Option.map_some, Option.map_eq_some_iff] at hsame
    obtain ⟨q, hq, heq⟩ := hsame
    obtain ⟨hid, hamount⟩ := Prod.mk.inj heq
    have hrow := findByBasket_find hq
    rw [hid] at hrow
    refine ⟨q, hq, hamount, (hlinked'.link q hrow).trans hk.symm, fun hagain => ?_⟩
    have hclosed := hchain.closed payment.id (fun q hq => by
      obtain rfl := Option.some.inj (hcaptured.symm.trans hq)
      simp [Payment.capture]) q hrow
    exact hagain.2.1.elim hclosed.1 hclosed.2
  · rw [processCallback_idle hfind hauth h]
    exact ⟨payment, hfind, rfl, rfl, h⟩

/-! ## Up to the reservation -/

/-- The row without its reservation, for the booking of the payment. -/
def Booking.unheld (bookingId : Option Id) (b : Booking) : Booking :=
  if bookingId = some b.id then { b with reservedUntil := none } else b

/-- The states agree but for the reservation of one booking. -/
def SameButHold (bookingId : Option Id) (db db' : Db) : Prop :=
  ∃ bookings, db' = { db with bookings := bookings } ∧
    bookings.rows.map (Booking.unheld bookingId) =
      db.bookings.rows.map (Booking.unheld bookingId)

variable {bookingId : Option Id}

theorem SameButHold.refl (bookingId : Option Id) (db : Db) : SameButHold bookingId db db :=
  ⟨db.bookings, rfl, rfl⟩

/-- The same but for the hold, over two stretches. -/
theorem SameButHold.trans (h : SameButHold bookingId db db')
    (h' : SameButHold bookingId db' db'') : SameButHold bookingId db db'' := by
  obtain ⟨bookings, rfl, hrows⟩ := h
  obtain ⟨bookings', rfl, hrows'⟩ := h'
  exact ⟨bookings', rfl, hrows'.trans hrows⟩

theorem SameButHold.payments (h : SameButHold bookingId db db') :
    db'.payments = db.payments := by
  obtain ⟨bookings, rfl, _⟩ := h
  rfl

/-- A held success changes the hold and nothing else. -/
theorem holdNapsSuccess_same (now : Instant) (db : Db) (bookingId : Option Id) :
    SameButHold bookingId db (holdNapsSuccess now db bookingId) := by
  refine ⟨_, rfl, ?_⟩
  simp only [Table.updateMany, List.map_map]
  refine List.map_congr_left fun b _ => ?_
  simp only [Function.comp_apply]
  split
  · rename_i hheld
    have hk : bookingId = some b.id := (of_decide_eq_true hheld).1
    simp [Booking.unheld, hk, Booking.holdUntil]
  · rfl

/-- The states agree but for the reservation of one booking, and that one is
still a reservation. -/
structure Extended (bookingId : Option Id) (db db' : Db) : Prop where
  same : SameButHold bookingId db db'
  pending : db' = db ∨ ∃ k b b', bookingId = some k ∧
    db.bookings.find? k = some b ∧ b.status = .pending ∧
    db'.bookings.find? k = some b' ∧ b'.status = .pending

theorem Extended.refl (bookingId : Option Id) (db : Db) : Extended bookingId db db :=
  ⟨.refl _ _, .inl rfl⟩

theorem Extended.trans (h : Extended bookingId db db') (h' : Extended bookingId db' db'') :
    Extended bookingId db db'' := by
  refine ⟨h.same.trans h'.same, ?_⟩
  rcases h.pending with rfl | ⟨k, b, b', hk, hb, hs, hb', hs'⟩
  · exact h'.pending
  · right
    rcases h'.pending with rfl | ⟨k', x, b'', hk', hx, _, hb'', hs''⟩
    · exact ⟨k, b, b', hk, hb, hs, hb', hs'⟩
    · obtain rfl := Option.some.inj (hk.symm.trans hk')
      exact ⟨k, b, b'', hk, hb, hs, hb'', hs''⟩

/-- It never shortens the hold. -/
theorem holdNapsSuccess_extends (now : Instant) (db : Db) (bookingId : Option Id) :
    Extended bookingId db (holdNapsSuccess now db bookingId) := by
  refine ⟨holdNapsSuccess_same now db bookingId, ?_⟩
  by_cases h : ∃ k b, bookingId = some k ∧ db.bookings.find? k = some b ∧ b.status = .pending
  · obtain ⟨k, b, hk, hb, hs⟩ := h
    have hfound : ∃ b', (holdNapsSuccess now db bookingId).bookings.find? k = some b' ∧
        b'.status = .pending := by
      obtain ⟨p, hp⟩ : ∃ p : Booking → Bool,
          (holdNapsSuccess now db bookingId).bookings.find? k = (db.bookings.find? k).map
            (fun b => if p b then b.holdUntil (now + 30 * minute) else b) :=
        ⟨_, Table.find?_updateMany _ _ (Booking.holdUntil (now + 30 * minute)) (fun _ => rfl) k⟩
      rw [hb, Option.map_some] at hp
      refine ⟨_, hp, ?_⟩
      split <;> exact hs
    obtain ⟨b', hb', hs'⟩ := hfound
    exact .inr ⟨k, b, b', hk, hb, hs, hb', hs'⟩
  · left
    have hnone : db.bookings.updateMany
        (fun b => bookingId = some b.id ∧ b.status = .pending ∧
          ∃ reservedUntil ∈ b.reservedUntil, reservedUntil < now + 30 * minute)
        (Booking.holdUntil (now + 30 * minute)) (fun _ => rfl) = db.bookings := by
      refine Table.ext ?_
      conv_rhs => rw [← List.map_id db.bookings.rows]
      refine List.map_congr_left fun b hb => ?_
      rw [if_neg]
      · rfl
      · intro hp
        obtain ⟨hk, hs, _⟩ := of_decide_eq_true hp
        exact h ⟨b.id, b, hk, Table.find?_key hb, hs⟩
    exact congrArg (fun bookings => { db with bookings := bookings }) hnone

/-- The settling transaction of a reservation confirms it and asks for no
recovery. -/
theorem settleSuccess_confirms {k : Id} {b : Booking} (now : Instant)
    (params : CallbackParams)
    (hfind : db.payments.find? payment.id = some payment)
    (h : Settleable env db payment (capturedTxn params)) (hk : payment.bookingId = some k)
    (hb : db.bookings.find? k = some b) (hs : b.status = .pending) :
    settleSuccess now db payment params = .ok ⟨{ db with
      payments := db.payments.update payment.id (Payment.capture now params) (fun _ => rfl)
      bookings := db.bookings.update k (fun b => { b with status := .confirmed })
        (fun _ => rfl) }, true, none⟩ := by
  obtain ⟨_, hopen, _, hfree⟩ := h
  rw [settleSuccess, unpaid_row hfind hopen]
  simp [ensure, hfree, hk, orThrow, bind, Except.bind, pure, Except.pure, hb, hs]

/-- A capture confirms a reservation alike, held once more or not. -/
theorem processCallback_congr {d : Delivery} (h : Extended payment.bookingId db db')
    (hfind : findByBasket db d.params.basketId = some payment)
    (hauth : authenticSuccess env payment d.params) :
    SameButHold payment.bookingId (processCallback env db d) (processCallback env db' d) := by
  rcases h.pending with rfl | ⟨k, b, b', hk, hb, hs, hb', hs'⟩
  · exact .refl _ _
  have hfind' : findByBasket db' d.params.basketId = some payment := by
    rw [findByBasket, h.same.payments]
    exact hfind
  have hsettleable : Settleable env db' payment (capturedTxn d.params) ↔
      Settleable env db payment (capturedTxn d.params) := by
    simp only [Settleable, h.same.payments]
  by_cases hcan : Settleable env db payment (capturedTxn d.params)
  · have hunpaid : payment.status ≠ .success := by
      rcases hcan.2.1 with hs | hs <;> simp [hs]
    have hrun := settleSuccess_confirms d.settled d.params (findByBasket_find hfind) hcan
      hk hb hs
    have hrun' := settleSuccess_confirms d.settled d.params (findByBasket_find hfind')
      (hsettleable.mpr hcan) hk hb' hs'
    rw [processCallback_capture hfind hauth, processCallback_capture hfind' hauth,
      if_pos ⟨hcan.1, hunpaid⟩, if_pos ⟨hcan.1, hunpaid⟩]
    simp only [Delivery.times, runChain, Task.run, settleTx, if_true, hrun, hrun', afterSettle]
    obtain ⟨bookings, rfl, hrows⟩ := h.same
    refine ⟨_, rfl, ?_⟩
    let confirm : Booking → Booking := fun b =>
      if decide (Keyed.key b = k) then { b with status := .confirmed } else b
    have hcomm : Booking.unheld payment.bookingId ∘ confirm =
        confirm ∘ Booking.unheld payment.bookingId := by
      funext x
      by_cases hx : x.id = k
      · simp [confirm, Booking.unheld, Keyed.key, hk, hx]
      · simp [confirm, Booking.unheld, Keyed.key, hk, hx, Ne.symm hx]
    change (bookings.rows.map confirm).map _ = (db.bookings.rows.map confirm).map _
    rw [List.map_map, List.map_map, hcomm, ← List.map_map, ← List.map_map, hrows]
  · rw [processCallback_idle hfind hauth hcan,
      processCallback_idle hfind' hauth (hsettleable.not.mpr hcan)]
    exact h.same

/-! ## Sequences -/

/-- The callbacks carry one basket and one transaction id, and a success of
either rail for the amount of the payment. -/
def Replays (env : Env) (payment : Payment) (basketId : String) (txn : Option String)
    (ds : List Delivery) : Prop :=
  ∀ d ∈ ds, d.params.basketId = basketId ∧ d.params.transactionId = txn ∧
    (authenticSuccess env payment d.params ∨ heldSuccess env payment d.params)

/-- The first capture of the sequence, processed once. -/
def processOnce (env : Env) (db : Db) (payment : Payment) (ds : List Delivery) : Db :=
  match ds.find? (fun d => authenticSuccess env payment d.params) with
  | some d => processCallback env db d
  | none => db

theorem processAll_cons (env : Env) (db : Db) (d : Delivery) (ds : List Delivery) :
    processAll env db (d :: ds) = processAll env (processCallback env db d) ds := rfl

theorem Replays.tail {basketId : String} {txn : Option String} {d : Delivery}
    {ds : List Delivery} (h : Replays env payment basketId txn (d :: ds)) :
    Replays env payment basketId txn ds :=
  fun d' hd' => h d' (List.mem_cons_of_mem _ hd')

/-- A hold finds the payments as they were. -/
theorem processCallback_of_held {d : Delivery}
    (hfind : findByBasket db d.params.basketId = some payment)
    (hheld : heldSuccess env payment d.params) :
    Extended payment.bookingId db (processCallback env db d) := by
  rw [processCallback_held hfind hheld]
  split
  · exact holdNapsSuccess_extends _ _ _
  · exact .refl _ _

/-- Once the payment takes no more captures, a replay moves the reservation
at most, and a replayed capture nothing. -/
theorem processAll_done {basketId : String} {txn : Option String} : ∀ {ds : List Delivery}
    {db : Db} {q : Payment}, findByBasket db basketId = some q →
    ¬ Settleable env db q (txn.filter (fun t => t ≠ "")) → Replays env q basketId txn ds →
    SameButHold q.bookingId db (processAll env db ds) ∧
      ((∀ d ∈ ds, authenticSuccess env q d.params) → processAll env db ds = db) := by
  intro ds
  induction ds with
  | nil => exact fun _ _ _ => ⟨.refl _ _, fun _ => rfl⟩
  | cons d ds ih =>
      intro db q hfind hdone hreplays
      obtain ⟨rfl, htxn, hsuccess⟩ := hreplays d List.mem_cons_self
      have hdone' : ¬ Settleable env db q (capturedTxn d.params) := by
        rwa [capturedTxn, htxn]
      rw [processAll_cons]
      by_cases hauth : authenticSuccess env q d.params
      · rw [processCallback_idle hfind hauth hdone']
        obtain ⟨hsame, hnone⟩ := ih hfind hdone hreplays.tail
        exact ⟨hsame, fun hall => hnone fun d' hd' => hall d' (List.mem_cons_of_mem _ hd')⟩
      · have hext := processCallback_of_held hfind (hsuccess.resolve_left hauth)
        have hfind' : findByBasket (processCallback env db d) d.params.basketId = some q := by
          rw [findByBasket, hext.same.payments]
          exact hfind
        have hdone'' : ¬ Settleable env (processCallback env db d) q
            (txn.filter (fun t => t ≠ "")) := by
          simpa only [Settleable, hext.same.payments] using hdone
        exact ⟨hext.same.trans (ih hfind' hdone'' hreplays.tail).1,
          fun hall => absurd (hall d List.mem_cons_self) hauth⟩

theorem Replays.of_amount {q : Payment} {basketId : String} {txn : Option String}
    {ds : List Delivery} (h : Replays env payment basketId txn ds)
    (hamount : q.amount = payment.amount) : Replays env q basketId txn ds := by
  intro d hd
  obtain ⟨hbasket, htxn, hsuccess⟩ := h d hd
  exact ⟨hbasket, htxn, hsuccess.imp (authenticSuccess_amount hamount).mpr
    (heldSuccess_amount hamount).mpr⟩

/-- Holds before the first capture are lost in it. -/
theorem processAll_extended {basketId : String} {txn : Option String} :
    ∀ {ds : List Delivery} {db' : Db}, findByBasket db basketId = some payment →
    Replays env payment basketId txn ds → Extended payment.bookingId db db' →
    SameButHold payment.bookingId (processOnce env db payment ds) (processAll env db' ds) := by
  intro ds
  induction ds with
  | nil => exact fun _ _ hext => hext.same
  | cons d ds ih =>
      intro db' hfind hreplays hext
      obtain ⟨rfl, htxn, hsuccess⟩ := hreplays d List.mem_cons_self
      have hfind' : findByBasket db' d.params.basketId = some payment := by
        rw [findByBasket, hext.same.payments]
        exact hfind
      rw [processAll_cons]
      by_cases hauth : authenticSuccess env payment d.params
      · have honce : processOnce env db payment (d :: ds) = processCallback env db d := by
          simp [processOnce, hauth]
        obtain ⟨q, hq, hamount, hbooking, hdone⟩ := processCallback_done hfind' hauth
        rw [capturedTxn, htxn] at hdone
        have hlater := (processAll_done hq hdone (hreplays.tail.of_amount hamount)).1
        rw [hbooking] at hlater
        rw [honce]
        exact (processCallback_congr hext hfind hauth).trans hlater
      · have honce : processOnce env db payment (d :: ds) = processOnce env db payment ds := by
          simp [processOnce, hauth]
        rw [honce]
        exact ih hfind hreplays.tail
          (hext.trans (processCallback_of_held hfind' (hsuccess.resolve_left hauth)))

/-- **Replays are harmless.**  A sequence of captures with one transaction id
ends where the first of them does, whatever recovery it took; a sequence with
successes held on the NAPS rail ends where its first capture alone does, but
for the reservation of the payment's booking. -/
theorem replays_harmless {env : Env} {db : Db} {payment : Payment} {basketId : String}
    {txn : Option String} {ds : List Delivery}
    (hfind : findByBasket db basketId = some payment)
    (h : Replays env payment basketId txn ds) :
    (∀ d rest, ds = d :: rest → (∀ d ∈ ds, authenticSuccess env payment d.params) →
      processAll env db ds = processCallback env db d) ∧
    SameButHold payment.bookingId (processOnce env db payment ds) (processAll env db ds) := by
  refine ⟨?_, processAll_extended hfind h (.refl _ _)⟩
  rintro d rest rfl hall
  obtain ⟨rfl, htxn, -⟩ := h d List.mem_cons_self
  obtain ⟨q, hq, hamount, -, hdone⟩ := processCallback_done hfind (hall d List.mem_cons_self)
  rw [capturedTxn, htxn] at hdone
  rw [processAll_cons]
  refine (processAll_done hq hdone (h.tail.of_amount hamount)).2 fun d' hd' => ?_
  exact (authenticSuccess_amount hamount).mpr (hall d' (List.mem_cons_of_mem _ hd'))

/-- A callback processed at one instant. -/
def deliveredAt (params : CallbackParams) (instant : Instant) : Delivery :=
  ⟨params, instant, instant, instant, instant⟩

/-- A reservation is reaped while its payment is at the gateway, and the capture
is delivered twice: the booking is re-inserted once. -/
theorem replays_harmless_reaped :
    ∃ s, Run (Sys.step marketEnv) (fun _ _ => True) market s ∧
      s.db.bookings.find? 101 = none ∧
      let d := deliveredAt (capture "T1") s.now
      let d' := deliveredAt (capture "T1") (s.now + minute)
      processAll marketEnv s.db [d, d'] = processCallback marketEnv s.db d ∧
        (processAll marketEnv s.db [d, d']).bookings.find? 101 ≠ none := by
  obtain ⟨s, run, htest⟩ := @Run.of_execAll_test _ _ (Sys.step marketEnv) (fun _ _ => True) _
    (abandonedRun ++ [.begin .autoCancelStalePendingBookings, .run 0]) market
    (fun s => s.db.bookings.find? 101 = none ∧ (findByBasket s.db "B1").isSome ∧
      (processCallback marketEnv s.db
        (deliveredAt (capture "T1") s.now)).bookings.find? 101 ≠ none) (by decide +kernel)
  obtain ⟨hgone, hsome, hback⟩ := of_decide_eq_true htest
  obtain ⟨payment, hfind⟩ := Option.isSome_iff_exists.mp hsome
  have hauth : authenticSuccess marketEnv payment (capture "T1") := by
    constructor <;> decide
  have hreplays : Replays marketEnv payment "B1" (some "T1")
      [deliveredAt (capture "T1") s.now, deliveredAt (capture "T1") (s.now + minute)] := by
    intro d hd
    rcases List.mem_pair.mp hd with rfl | rfl <;> exact ⟨rfl, rfl, .inl hauth⟩
  have honce := (replays_harmless hfind hreplays).1 _ _ rfl fun d hd => by
    rcases List.mem_pair.mp hd with rfl | rfl <;> exact hauth
  exact ⟨s, run, hgone, honce, by rw [honce]; exact hback⟩

/-- A signed `NAPS` success delivered again a minute later moves the reservation
once more. -/
theorem naps_replay_extends :
    ∃ s, Run (Sys.step napsEnv) (fun _ _ => True) market s ∧
      ∃ payment, findByBasket s.db "B1" = some payment ∧
        let params := { napsCallback with transactionId := some "T1" }
        let d := deliveredAt params s.now
        let d' := deliveredAt params (s.now + minute)
        Replays napsEnv payment "B1" (some "T1") [d, d'] ∧
        (processAll napsEnv s.db [d, d']).bookings.find? 101 ≠
          (processCallback napsEnv s.db d).bookings.find? 101 := by
  obtain ⟨s, run, htest⟩ := @Run.of_execAll_test _ _ (Sys.step napsEnv) (fun _ _ => True) _
    abandonedRun market (fun s => (findByBasket s.db "B1").any (fun payment =>
      payment.amount = 10000 ∧ payment.status = .pending ∧ payment.bookingId = some 101 ∧
      (holdNapsSuccess (s.now + minute) (holdNapsSuccess s.now s.db (some 101))
          (some 101)).bookings.find? 101 ≠
        (holdNapsSuccess s.now s.db (some 101)).bookings.find? 101)) (by decide +kernel)
  obtain ⟨payment, hfind, htest⟩ := (Option.any_eq_true _ _).mp htest
  obtain ⟨hamount, hst, hk, hmoved⟩ := of_decide_eq_true htest
  have hd : Digests napsEnv "B1" 10000 "00" (signedText napsEnv "B1" .naps "100" "00") :=
    markedDigest_digests rfl
  have hresolve : resolveSignedErrCode napsEnv "B1" 10000 "00"
      (responseKeyOf napsEnv "B1" .naps "100" "00") = some ("00", .naps) := by
    rw [resolve_eq hd]
    decide +kernel
  have hheld : heldSuccess napsEnv payment
      { napsCallback with transactionId := some "T1" } := by
    refine ⟨rfl, ("00", .naps), ?_, rfl, .inl rfl⟩
    rw [hamount]
    exact hresolve
  have hunpaid : napsEnv.paymentEnabled = true ∧ payment.status ≠ .success :=
    ⟨rfl, by rw [hst]; decide⟩
  refine ⟨s, run, payment, hfind, fun d hd => ?_, ?_⟩
  · rcases List.mem_pair.mp hd with rfl | rfl <;> exact ⟨rfl, rfl, .inr hheld⟩
  · rw [processAll_cons, processCallback_held hfind hheld, if_pos hunpaid, hk]
    have hfind' : findByBasket (holdNapsSuccess s.now s.db (some 101)) "B1" = some payment :=
      hfind
    change (processCallback napsEnv (holdNapsSuccess s.now s.db (some 101)) _).bookings.find? 101
      ≠ _
    rw [processCallback_held hfind' hheld, if_pos hunpaid, hk]
    exact hmoved

end Jadwal
