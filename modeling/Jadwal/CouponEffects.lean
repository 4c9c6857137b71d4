import Jadwal.Reaping

/-!
# What each transaction does to coupons

The counter of a coupon counts the bookings that use it.  A **use** is a
booking that carries a code and is not cancelled; every task either leaves
the coupon tables and the uses alone, or moves both.  `Task.run_coupons` is
the specification of all tasks at once, and nothing after this module unfolds
a transaction to see what it does to a coupon.
-/

namespace Jadwal

open Outcome

variable {db db' db'' : Db} {env : Env} {now : Instant}

/-! ## Transactions that leave the coupons alone -/

theorem SameCoupons.refl (db : Db) : SameCoupons db db := ⟨rfl, rfl⟩

/-- Leaving the coupons alone composes. -/
theorem SameCoupons.trans (h : SameCoupons db db') (h' : SameCoupons db' db'') :
    SameCoupons db db'' :=
  ⟨h'.1.trans h.1, h'.2.trans h.2⟩

/-- A posting of points leaves the coupons alone. -/
theorem Loyalty.Posted.coupons {row : LoyaltyLedger} (h : Loyalty.Posted db db' row) :
    SameCoupons db db' := by
  obtain ⟨_, _, _, rfl⟩ := h.moved
  exact ⟨rfl, rfl⟩

theorem updateBooking_coupons {id : Id} {f : Booking → Booking}
    {hf : ∀ b, Keyed.key (f b) = Keyed.key b} (h : updateBooking db id f hf = .ok db') :
    SameCoupons db db' := by
  simp only [updateBooking, bind_eq_ok, pure_eq_ok] at h
  obtain ⟨_, _, rfl⟩ := h
  exact ⟨rfl, rfl⟩

theorem flipPayment_coupons {id : Id} {expected : PaymentStatus} {f : Payment → Payment}
    {message : String} {hf : ∀ q, Keyed.key (f q) = Keyed.key q}
    (h : flipPayment db id expected f message hf = .ok db') : SameCoupons db db' := by
  simp only [flipPayment, bind_eq_ok, pure_eq_ok] at h
  obtain ⟨_, _, rfl⟩ := h
  exact ⟨rfl, rfl⟩

theorem redeemPointsOf_coupons {b : Booking} {note : String}
    (h : redeemPointsOf db b note = .ok db') : SameCoupons db db' := by
  rcases redeemPointsOf_ok h with ⟨_, rfl⟩ | ⟨_, _, hp⟩
  · exact .refl _
  · exact hp.coupons

/-- Storing a booking takes no coupon. -/
theorem storeBooking_coupons {payment : Payment} {b : Booking}
    (h : storeBooking db payment b = .ok db') : SameCoupons db db' := by
  simp only [storeBooking, insertPayment, linkPayment, bind_eq_ok, ensure_eq_ok,
    pure_eq_ok] at h
  obtain ⟨_, ⟨_, _, rfl⟩, _, hb, _, ⟨_, _, rfl⟩, hr⟩ := h
  obtain ⟨_, _, _, _, _, rfl⟩ := insertBooking_ok hb
  have hs := redeemPointsOf_coupons hr
  exact ⟨hs.1, hs.2⟩

theorem creditRefund_coupons {customerId bookingId : Id} {points : Cents}
    {actor : CancelActor} {actorId : Option Id} {note : String}
    (h : creditRefund db customerId bookingId points actor actorId note = .ok db') :
    SameCoupons db db' := by
  unfold creditRefund at h
  split at h
  · simp only [bind_eq_ok, pure_eq_ok] at h
    obtain ⟨r, hr, rfl⟩ := h
    exact (Loyalty.refund_posts hr).2.coupons
  · obtain rfl := Except.ok.inj h
    exact .refl _

/-- A decision on a refund returns no coupon. -/
theorem decisionCommit_coupons {r : DecisionRead}
    (h : decisionCommit now db r = .ok db') : SameCoupons db db' := by
  simp only [decisionCommit, bind_eq_ok] at h
  obtain ⟨db₁, hflip, db₂, hupd, hret⟩ := h
  have h₁ := flipPayment_coupons hflip
  have h₂ := updateBooking_coupons hupd
  exact SameCoupons.trans ⟨h₁.1, h₁.2⟩ (h₂.trans (creditRefund_coupons hret))

theorem refundCancelledPayment_coupons {op : Operator} {b : Booking} {payment : Payment}
    (h : refundCancelledPayment now db op b payment = .ok db') : SameCoupons db db' := by
  unfold refundCancelledPayment at h
  split at h
  · have hs := creditRefund_coupons h
    exact ⟨hs.1, hs.2⟩
  · obtain rfl := Except.ok.inj h
    exact ⟨rfl, rfl⟩
  · obtain rfl := Except.ok.inj h
    exact .refl _

theorem reverseEarned_coupons {op : Operator} {b : Booking}
    (h : reverseEarned db op b = .ok db') : SameCoupons db db' := by
  unfold reverseEarned at h
  split at h
  · simp only at h
    split at h
    · simp only [bind_eq_ok] at h
      obtain ⟨r, hr, hupd⟩ := h
      obtain ⟨_, u, _, ⟨_, hdb⟩ | ⟨_, _, hp⟩⟩ := Loyalty.reverseAwarded_posts hr
      · rw [hdb] at hupd
        exact updateBooking_coupons hupd
      · exact hp.coupons.trans (updateBooking_coupons hupd)
    · obtain rfl := Except.ok.inj h
      exact .refl _
  · obtain rfl := Except.ok.inj h
    exact .refl _

theorem settleCancelled_coupons {op : Operator} {b : Booking} {payment : Payment}
    (h : settleCancelled now db op b payment = .ok db') : SameCoupons db db' := by
  simp only [settleCancelled, bind_eq_ok] at h
  obtain ⟨db₁, h₁, db₂, h₂, h₃⟩ := h
  exact (refundCancelledPayment_coupons h₁).trans
    ((returnPointsOf_coupons h₂).trans (reverseEarned_coupons h₃))

theorem awardCompleted_coupons {b : Booking} (h : awardCompleted db b = .ok db') :
    SameCoupons db db' := by
  unfold awardCompleted at h
  simp only at h
  split at h
  · split at h
    · obtain rfl := Except.ok.inj h
      exact ⟨rfl, rfl⟩
    · simp only [bind_eq_ok, pure_eq_ok] at h
      obtain ⟨r, hr, rfl⟩ := h
      have hp := (Loyalty.earn_posts hr).2.coupons
      exact ⟨hp.1, hp.2⟩
  · obtain rfl := Except.ok.inj h
    exact ⟨rfl, rfl⟩

theorem awardOne_coupons {rate : ℚ} {b : Booking} (h : awardOne db rate b = .ok db') :
    SameCoupons db db' := by
  unfold awardOne at h
  simp only at h
  split at h
  · obtain rfl := Except.ok.inj h
    exact .refl _
  · split at h
    · obtain rfl := Except.ok.inj h
      exact .refl _
    · simp only [bind_eq_ok, pure_eq_ok] at h
      obtain ⟨r, hr, rfl⟩ := h
      have hp := (Loyalty.earn_posts hr).2.coupons
      exact ⟨hp.1, hp.2⟩

/-- A status other than `CANCELLED` returns no coupon. -/
theorem statusCommit_mark_coupons {r : StatusRead} (hne : r.newStatus ≠ .cancelled)
    (h : statusCommit now db r = .ok db') : SameCoupons db db' := by
  rw [statusCommit, if_neg hne] at h
  simp only [bind_eq_ok] at h
  obtain ⟨db₁, hupd, h⟩ := h
  refine (updateBooking_coupons hupd).trans ?_
  split at h
  · exact awardCompleted_coupons h
  · obtain rfl := Except.ok.inj h
    exact .refl _

theorem otpStamp_coupons {bookingId : Id} {user : Option Id}
    (h : otpStamp now db bookingId user = .ok db') : SameCoupons db db' := by
  simp only [otpStamp, bind_eq_ok, pure_eq_ok] at h
  obtain ⟨db₁, hupd, rfl⟩ := h
  have h₁ := updateBooking_coupons hupd
  exact ⟨h₁.1, h₁.2⟩

theorem initiateWrite_coupons {r : InitiateRead} {basketId : String}
    (h : initiateWrite now db r basketId = .ok db') : SameCoupons db db' := by
  simp only [initiateWrite, bind_eq_ok, pure_eq_ok] at h
  obtain ⟨_, _, _, _, _, _, rfl⟩ := h
  exact ⟨rfl, rfl⟩

theorem settleSuccess_coupons {payment : Payment} {params : CallbackParams} {s : Settled}
    (h : settleSuccess now db payment params = .ok s) : SameCoupons db s.db := by
  unfold settleSuccess at h
  split at h
  · obtain rfl := Except.ok.inj h
    exact .refl _
  · simp only [bind_eq_ok] at h
    obtain ⟨_, _, k, _, h⟩ := h
    split at h
    · obtain rfl := Except.ok.inj h
      exact ⟨rfl, rfl⟩
    · split at h <;>
      · obtain rfl := Except.ok.inj h
        exact ⟨rfl, rfl⟩

theorem m6UnCancel_coupons {booking : Booking} {kind : RecoveryKind}
    (h : m6UnCancel now db booking = .ok (db', kind)) : SameCoupons db db' := by
  unfold m6UnCancel at h
  split at h
  · obtain ⟨rfl, rfl⟩ := Prod.mk.inj (Except.ok.inj h)
    exact .refl _
  · simp only [bind_eq_ok, pure_eq_ok] at h
    obtain ⟨_, _, heq⟩ := h
    obtain ⟨rfl, rfl⟩ := Prod.mk.inj heq
    exact ⟨rfl, rfl⟩

/-! ## Uses -/

/-- A use of a coupon: by which booking, under which code, by whom. -/
structure CouponUse where
  bookingId : Id
  couponCode : String
  customerId : Id
  deriving DecidableEq

/-- The use a booking makes, while it is not cancelled. -/
def BookingFile.use? (b : BookingFile) : Option CouponUse :=
  if b.status = .cancelled then none
  else b.core.couponCode.map (fun code => ⟨b.core.id, code, b.core.customerId⟩)

/-- The uses of the bookings there are. -/
def usesOf (bookings : Table Booking) : List CouponUse :=
  bookings.rows.filterMap (fun b => b.file.use?)

/-- The uses without those of the given bookings. -/
def usesWithout (uses : List CouponUse) (ids : List Id) : List CouponUse :=
  uses.filter (fun u => u.bookingId ∉ ids)

/-- A booking that lives and carries a code is a use of it. -/
theorem BookingFile.use?_eq_some {b : BookingFile} {u : CouponUse} :
    b.use? = some u ↔ b.status ≠ .cancelled ∧ u.bookingId = b.core.id ∧
      b.core.couponCode = some u.couponCode ∧ u.customerId = b.core.customerId := by
  unfold BookingFile.use?
  by_cases hc : b.status = .cancelled
  · simp [hc]
  · rw [if_neg hc, Option.map_eq_some_iff]
    constructor
    · rintro ⟨code, hcode, rfl⟩
      exact ⟨hc, rfl, hcode, rfl⟩
    · rintro ⟨_, hid, hcode, hcustomer⟩
      refine ⟨u.couponCode, hcode, ?_⟩
      rw [← hid, ← hcustomer]

/-- A booking that lives on is the same use. -/
theorem BookingFile.use?_mark {b : BookingFile} (status : BookingStatus)
    (live : b.status ≠ .cancelled) (live' : status ≠ .cancelled) :
    (b.mark status).use? = b.use? := by
  simp [BookingFile.use?, BookingFile.mark, live, live']

/-- Rows that keep their use keep the uses. -/
theorem uses_updateMany {t : Table Booking} {p : Booking → Bool} {f : Booking → Booking}
    {hf : ∀ b, Keyed.key (f b) = Keyed.key b}
    (h : ∀ b ∈ t.rows, p b = true → (f b).file.use? = b.file.use?) :
    usesOf (t.updateMany p f hf) = usesOf t := by
  simp only [usesOf, Table.updateMany, List.filterMap_map]
  refine List.filterMap_congr fun b hb => ?_
  by_cases hp : p b = true
  · simp only [Function.comp_apply, hp, if_true, h b hb hp]
  · simp only [Function.comp_apply, hp, Bool.false_eq_true, if_false]

/-- An update that keeps code and life keeps the uses. -/
theorem uses_update {t : Table Booking} {k : Id} {f : Booking → Booking}
    {hf : ∀ b, Keyed.key (f b) = Keyed.key b}
    (h : ∀ b, t.find? k = some b → (f b).file.use? = b.file.use?) :
    usesOf (t.update k f hf) = usesOf t := by
  refine uses_updateMany fun b hb hk => h b ?_
  exact Table.find?_eq_some.mpr ⟨hb, of_decide_eq_true hk⟩

theorem use?_bookingId {b : Booking} {u : CouponUse} (h : b.file.use? = some u) :
    u.bookingId = b.id :=
  (BookingFile.use?_eq_some.mp h).2.1

/-- A row that is cancelled loses its use. -/
theorem uses_cancel {t : Table Booking} {k : Id} {f : Booking → Booking}
    {hf : ∀ b, Keyed.key (f b) = Keyed.key b} (h : ∀ b, (f b).status = .cancelled) :
    usesOf (t.update k f hf) = usesWithout (usesOf t) [k] := by
  simp only [usesOf, Table.update, Table.updateMany, usesWithout, List.filterMap_map,
    List.filter_filterMap]
  refine List.filterMap_congr fun b hb => ?_
  have hdead : (f b).file.use? = none := if_pos (h b)
  by_cases hk : b.id = k
  · have hkey : Keyed.key b = k := hk
    simp only [Function.comp_apply, hkey, decide_true, if_true, hdead]
    cases hu : b.file.use? with
    | none => rfl
    | some u => simp [Option.filter, use?_bookingId hu, hk]
  · have hkey : ¬ Keyed.key b = k := hk
    simp only [Function.comp_apply, hkey, decide_false, Bool.false_eq_true, if_false]
    cases hu : b.file.use? with
    | none => rfl
    | some u => simp [Option.filter, use?_bookingId hu, hk]

/-- Rows that are deleted lose their uses. -/
theorem uses_deleteMany {t : Table Booking} (ids : List Id) :
    usesOf (t.deleteMany (fun b => b.id ∈ ids)) = usesWithout (usesOf t) ids := by
  simp only [usesOf, Table.deleteMany, usesWithout, List.filter_filterMap]
  rw [← List.filterMap_eq_filter, List.filterMap_filterMap]
  refine List.filterMap_congr fun b hb => ?_
  by_cases hk : b.id ∈ ids
  · cases hu : b.file.use? with
    | none => simp [Option.guard, hk]
    | some u => simp [Option.guard, Option.filter, use?_bookingId hu, hk]
  · cases hu : b.file.use? with
    | none => simp [Option.guard, hk, hu]
    | some u => simp [Option.guard, Option.filter, use?_bookingId hu, hk, hu]

/-- Deleting a booking ends its use. -/
theorem uses_delete {t : Table Booking} {k : Id} :
    usesOf (t.delete k) = usesWithout (usesOf t) [k] := by
  rw [← uses_deleteMany]
  refine congrArg usesOf (Table.ext (List.filter_congr fun b _ => ?_))
  simp only [List.mem_singleton]
  rfl

/-! ## Transactions that return a coupon -/

/-- **A failed payment** returns the coupon of the hold it deletes, or leaves the coupons alone. -/
theorem settleFailure_coupons {payment : Payment} {s : Settled}
    (h : settleFailure now db payment = .ok s) :
    (SameCoupons db s.db ∧ s.db.bookings = db.bookings) ∨
      ∃ q k doomed, db.payments.find? payment.id = some q ∧ q.status = .pending ∧
        payment.bookingId = some k ∧ db.bookings.find? k = some doomed ∧
        s.db.bookings = db.bookings.delete k ∧
        SameCoupons (refundCouponUsage now db doomed.couponCode doomed.customerId) s.db := by
  have hok := settleFailure_ok h
  unfold settleFailure at h
  split at h
  · obtain rfl := Except.ok.inj h
    exact .inl ⟨.refl _, rfl⟩
  · rename_i q hq
    rw [Option.filter_eq_some_iff] at hq
    have hpending := of_decide_eq_true hq.2
    simp only at h
    split at h
    · obtain rfl := Except.ok.inj h
      exact .inl ⟨⟨rfl, rfl⟩, rfl⟩
    · rename_i k hk
      simp only [bind_eq_ok, orThrow_eq_ok, pure_eq_ok] at h
      obtain ⟨doomed, hd, db₂, hret, rfl⟩ := h
      have hf := refundCouponUsage_frame now
        { db with payments := db.payments.update payment.id
                    (fun q => { q with status := .failed, idempotencyKey := none }) }
        doomed.couponCode doomed.customerId
      have hb := (returnPointsOf_ok hret).1.bookings.trans hf.bookings
      have hsame : SameCoupons db
          { db with payments := db.payments.update payment.id
                      (fun q => { q with status := .failed, idempotencyKey := none }) } :=
        ⟨rfl, rfl⟩
      have hc := (refundCouponUsage_congr hsame doomed.couponCode
        doomed.customerId).trans (returnPointsOf_coupons hret)
      exact .inr ⟨q, k, doomed, hq.1, hpending, hk, hd,
        congrArg (fun t => Table.delete t k) hb, hc.1, hc.2⟩

/-- A soft cancel returns the coupon of the booking it read. -/
theorem softCancel_coupons {r : CancelRead} {payment : Payment}
    (h : cancelPointsOnly now db r payment = .ok db' ∨
      cancelPaid now db r payment = .ok db' ∨ cancelInFlight now db r payment = .ok db') :
    SameCoupons (refundCouponUsage now db r.booking.couponCode r.userId) db' := by
  rcases h with h | h | h
  · simp only [cancelPointsOnly, bind_eq_ok, pure_eq_ok] at h
    obtain ⟨db₁, hflip, db₂, hupd, db₃, hret, rfl⟩ := h
    exact refundCouponUsage_congr ((flipPayment_coupons hflip).trans
      ((updateBooking_coupons hupd).trans (returnPointsOf_coupons hret))) _ _
  · simp only [cancelPaid, bind_eq_ok, pure_eq_ok] at h
    obtain ⟨db₁, hupd, db₂, hflip, db₃, hret, rfl⟩ := h
    exact refundCouponUsage_congr ((updateBooking_coupons hupd).trans
      ((flipPayment_coupons hflip).trans (returnPointsOf_coupons hret))) _ _
  · simp only [cancelInFlight, bind_eq_ok] at h
    obtain ⟨db₁, hflip, db₂, hupd, hret⟩ := h
    exact (refundCouponUsage_congr (flipPayment_coupons hflip) _ _).trans
      ((updateBooking_coupons hupd).trans (returnPointsOf_coupons hret))

/-- A hard delete returns the coupon of its booking. -/
theorem cancelHardDelete_coupons {r : CancelRead}
    (h : cancelHardDelete now db r = .ok db') :
    SameCoupons (refundCouponUsage now db r.booking.couponCode r.userId) db' := by
  simp only [cancelHardDelete, bind_eq_ok, orThrow_eq_ok] at h
  obtain ⟨_, _, payments, _, hret⟩ := h
  have hc := returnPointsOf_coupons hret
  exact ⟨hc.1, hc.2⟩

/-- The plans that keep the row found the payment in the status they rely on. -/
theorem cancelCommit_coupons {r : CancelRead} (h : cancelCommit now db r = .ok db') :
    (∃ b, db.bookings.find? r.booking.id = some b) ∧
      SameCoupons (refundCouponUsage now db r.booking.couponCode r.userId) db' ∧
      usesOf db'.bookings = usesWithout (usesOf db.bookings) [r.booking.id] ∧
      (r.plan = .hardDelete ∨ ∃ payment q, r.payment = some payment ∧
        db.payments.find? payment.id = some q ∧ q.status = payment.status ∧
        (q.status = .pending ∨ q.status = .success)) := by
  unfold cancelCommit at h
  have hsoft : ∀ {payment : Payment} {expected status : PaymentStatus}
      {source : LoyaltyLedgerSource},
      SoftCancelled db db' r payment.id expected status source →
      usesOf db'.bookings = usesWithout (usesOf db.bookings) [r.booking.id] := by
    intro payment expected status source hs
    obtain ⟨fb, hb, fp, hp, e, hfb, _⟩ := hs.effect
    rw [e.bookings]
    exact uses_cancel fun b => congrArg BookingFile.status (hfb b)
  have hplan : ∀ payment, r.plan = .pointsOnly payment ∨ r.plan = .paid payment ∨
      r.plan = .inFlight payment → r.payment = some payment ∧
        (r.plan = .inFlight payment → payment.status = .pending) ∧
        (r.plan ≠ .inFlight payment → payment.status = .success) := by
    intro payment hp
    unfold CancelRead.plan at hp ⊢
    cases hr : r.payment with
    | none => simp [hr] at hp
    | some q =>
        simp only [hr] at hp ⊢
        split at hp <;> split at hp <;> simp_all
  cases hr : r.plan with
  | pointsOnly payment =>
      rw [hr] at h
      obtain ⟨hpay, _, hst⟩ := hplan payment (.inl hr)
      have hs := cancelPointsOnly_ok h
      obtain ⟨q, hq, hqs⟩ := hs.payment
      have hst := hst (by simp [hr])
      exact ⟨hs.booking, softCancel_coupons (.inl h), hsoft hs,
        .inr ⟨payment, q, hpay, hq, hqs.trans hst.symm, .inr hqs⟩⟩
  | paid payment =>
      rw [hr] at h
      obtain ⟨hpay, _, hst⟩ := hplan payment (.inr (.inl hr))
      have hs := cancelPaid_ok h
      obtain ⟨q, hq, hqs⟩ := hs.payment
      have hst := hst (by simp [hr])
      exact ⟨hs.booking, softCancel_coupons (.inr (.inl h)), hsoft hs,
        .inr ⟨payment, q, hpay, hq, hqs.trans hst.symm, .inr hqs⟩⟩
  | inFlight payment =>
      rw [hr] at h
      obtain ⟨hpay, hst, _⟩ := hplan payment (.inr (.inr hr))
      have hs := cancelInFlight_ok h
      obtain ⟨q, hq, hqs⟩ := hs.payment
      exact ⟨hs.booking, softCancel_coupons (.inr (.inr h)), hsoft hs,
        .inr ⟨payment, q, hpay, hq, hqs.trans (hst hr).symm, .inl hqs⟩⟩
  | hardDelete =>
      rw [hr] at h
      refine ⟨(cancelHardDelete_ok h).1, cancelHardDelete_coupons h, ?_, .inl rfl⟩
      rw [(cancelHardDelete_ok h).2.bookings]
      exact uses_delete

/-- An operator's cancel returns the coupon of the row it claims; without a
payment, only an administrator's does. -/
theorem operatorCancel_coupons {op : Operator} {k : Id}
    (h : operatorCancel now db op k = .ok db') :
    db' = db ∨ ∃ found, db.bookings.find? k = some found ∧ found.status ≠ .cancelled ∧
      usesOf db'.bookings = usesWithout (usesOf db.bookings) [k] ∧
      (SameCoupons (refundCouponUsage now db found.couponCode found.customerId) db' ∨
        (found.paymentId.bind (fun id => db.payments.find? id) = none ∧
          SameCoupons db db')) := by
  simp only [operatorCancel, bind_eq_ok, orThrow_eq_ok, ensure_eq_ok] at h
  obtain ⟨found, hfound, _, _, h⟩ := h
  split at h
  · exact .inl (Except.ok.inj h).symm
  · rename_i hc
    refine .inr ⟨found, hfound, hc, ?_⟩
    have hclaim : ∀ b, (op.claim now b).status = .cancelled := fun _ => rfl
    have hcancel : usesOf (db.bookings.update k (op.claim now) (op.claim_key now)) =
        usesWithout (usesOf db.bookings) [k] := uses_cancel hclaim
    have hsame : SameCoupons db { db with
        bookings := db.bookings.update k (op.claim now) (op.claim_key now) } := ⟨rfl, rfl⟩
    have hrefund := @refundCouponUsage_congr now _ _ hsame found.couponCode found.customerId
    cases hq : found.paymentId.bind (fun id => db.payments.find? id) with
    | some q =>
        rw [hq] at h
        simp only [afterClaim, bind_eq_ok, pure_eq_ok] at h
        obtain ⟨db₁, hs, rfl⟩ := h
        have hid : found.id = k := (Table.find?_eq_some.mp hfound).2
        have hsettled := @refundCouponUsage_congr now _ _ (settleCancelled_coupons hs)
          found.couponCode found.customerId
        refine ⟨?_, .inl (hrefund.trans hsettled)⟩
        obtain ⟨fb, hb, ps, es, c, e, hfb, _⟩ := settleCancelled_ok hs
        have hbookings := (refundCouponUsage_effect now db₁ (op.claim now found).couponCode
          (op.claim now found).customerId).bookings
        rw [hbookings, e.bookings]
        have hk : (op.claim now found).id = k := hid
        rw [hk]
        refine (congrArg usesOf
          (Table.update_update _ _ _ _ (op.claim_key now) hb)).trans ?_
        exact uses_cancel fun b => ((hfb _).2.1).trans (hclaim b)
    | none =>
        rw [hq] at h
        simp only [afterClaim] at h
        split at h
        · obtain rfl := Except.ok.inj h
          refine ⟨?_, .inl hrefund⟩
          rw [(refundCouponUsage_effect now _ _ _).bookings]
          exact hcancel
        · obtain rfl := Except.ok.inj h
          exact ⟨hcancel, .inr ⟨rfl, rfl, rfl⟩⟩

/-! ## Transactions that take a coupon -/

/-- A creation takes the coupon its booking carries. -/
theorem createBookingTx_coupons {p : PreparedBooking} {ref : String} {b : Booking}
    (h : createBookingTx env now db p ref = .ok (db', b)) :
    ∃ totalPrice r, applyDiscount now db p totalPrice = .ok r ∧ SameCoupons r.1 db' ∧
      b.couponCode = r.2.1 := by
  simp only [createBookingTx, bind_eq_ok, pure_eq_ok] at h
  obtain ⟨unitNumber, _, _, _, ⟨dbq, q⟩, hq, dbs, hs, heq⟩ := h
  obtain ⟨rfl, rfl⟩ := Prod.mk.inj heq
  simp only [quote, bind_eq_ok, pure_eq_ok] at hq
  obtain ⟨extras, _, r, hr, ⟨dbr, red⟩, hred, heq⟩ := hq
  obtain ⟨rfl, rfl⟩ := Prod.mk.inj heq
  refine ⟨_, r, hr, ?_, rfl⟩
  have hs := storeBooking_coupons hs
  refine SameCoupons.trans ?_ hs
  unfold redeemFor at hred
  split at hred
  · simp only [bind_eq_ok, pure_eq_ok] at hred
    obtain ⟨_, _, heq⟩ := hred
    obtain ⟨rfl, rfl⟩ := Prod.mk.inj heq
    exact ⟨rfl, rfl⟩
  · obtain ⟨rfl, rfl⟩ := Prod.mk.inj (Except.ok.inj hred)
    exact ⟨rfl, rfl⟩

/-- Taking a use again depends on the coupon tables alone. -/
theorem reclaimCouponUsage_congr {db₁ db₂ : Db} (h : SameCoupons db₁ db₂)
    (couponCode : Option String) (customerId : Id) :
    SameCoupons (reclaimCouponUsage db₁ couponCode customerId)
      (reclaimCouponUsage db₂ couponCode customerId) := by
  obtain ⟨hc, hk⟩ := h
  have hfind : couponCode.bind (findCoupon db₂) = couponCode.bind (findCoupon db₁) := by
    cases couponCode with
    | none => rfl
    | some code =>
        simp only [Option.bind_some, findCoupon]
        rw [hc]
  unfold reclaimCouponUsage
  rw [hfind]
  cases couponCode.bind (findCoupon db₁) with
  | none => exact ⟨hc, hk⟩
  | some coupon => exact ⟨by simp only [hc], by simp only [hk]⟩

/-- Orphan recovery takes the coupon of the snapshot when it inserts. -/
theorem b2Recreate_coupons {paymentId : Id} {bookingId : Option Id} {s : BookingSnapshot}
    {kind : RecoveryKind} (h : b2Recreate now db paymentId bookingId s = .ok (db', kind)) :
    (SameCoupons db db' ∧ db'.bookings = db.bookings) ∨
      (kind = .recreated ∧
        SameCoupons (reclaimCouponUsage db s.couponCode s.customerId) db' ∧
        db.bookings.insert? (recreatedBooking (bookingId.getD db.nextId) paymentId s) =
          some db'.bookings) := by
  unfold b2Recreate at h
  split at h
  · obtain ⟨rfl, rfl⟩ := Prod.mk.inj (Except.ok.inj h)
    exact .inl ⟨.refl _, rfl⟩
  · simp only at h
    split at h
    · obtain ⟨rfl, rfl⟩ := Prod.mk.inj (Except.ok.inj h)
      exact .inl ⟨⟨rfl, rfl⟩, rfl⟩
    · simp only [bind_eq_ok, ensure_eq_ok, pure_eq_ok] at h
      obtain ⟨db₁, hins, _, _, db₂, hred, heq⟩ := h
      obtain ⟨rfl, rfl⟩ := Prod.mk.inj heq
      obtain ⟨_, _, _, bookings, hin, rfl⟩ := insertBooking_ok hins
      refine .inr ⟨rfl, ?_, ?_⟩
      · refine SameCoupons.trans (reclaimCouponUsage_congr ?_ _ _)
          (redeemPointsOf_coupons hred)
        exact ⟨rfl, rfl⟩
      · rw [(redeemPointsOf_effect hred).1.bookings,
          (reclaimCouponUsage_frame _ _ _).bookings]
        exact hin

/-! ## All tasks -/

/-- The booking a task makes live, when it finds it cancelled. -/
def Task.revives : Task → Option Id
  | .update r => if r.newStatus = .cancelled then none else some r.booking.id
  | .unCancel _ b => some b.id
  | _ => none

/-- **What a task does to the coupons and to the uses.** -/
inductive CouponEffect (now : Instant) (db db' : Db) : Task → Prop
  | idle (t : Task) (same : SameCoupons db db')
      (uses : usesOf db'.bookings = usesOf db.bookings) : CouponEffect now db db' t
  /-- A cancelled booking is live again, and no coupon was taken for it. -/
  | revived (t : Task) (b : Booking) (found : db.bookings.find? b.id = some b)
      (dead : b.status = .cancelled) (mine : t.revives = some b.id)
      (same : SameCoupons db db') : CouponEffect now db db' t
  | created (p : PreparedBooking) (ref : String) (totalPrice : Cents)
      (r : Db × Option String × Cents) (b : Booking)
      (taken : applyDiscount now db p totalPrice = .ok r) (same : SameCoupons r.1 db')
      (code : b.couponCode = r.2.1) (customer : b.customerId = p.userId)
      (fresh : b.id = db.nextId + 1) (live : b.status ≠ .cancelled)
      (inserted : db'.bookings.rows = db.bookings.rows ++ [b]) :
      CouponEffect now db db' (.create p ref)
  | declined (payment : Payment) (params : CallbackParams) (q : Payment) (b : Booking)
      (found : db.payments.find? payment.id = some q)
      (pending : q.status = .pending) (link : payment.bookingId = some b.id)
      (doomed : db.bookings.find? b.id = some b)
      (uses : usesOf db'.bookings = usesWithout (usesOf db.bookings) [b.id])
      (same : SameCoupons (refundCouponUsage now db b.couponCode b.customerId) db') :
      CouponEffect now db db' (.settle payment params false)
  | cancelled (r : CancelRead) (row : ∃ b, db.bookings.find? r.booking.id = some b)
      (soft : r.plan = .hardDelete ∨ ∃ payment q, r.payment = some payment ∧
        db.payments.find? payment.id = some q ∧ q.status = payment.status ∧
        (q.status = .pending ∨ q.status = .success))
      (uses : usesOf db'.bookings = usesWithout (usesOf db.bookings) [r.booking.id])
      (same : SameCoupons (refundCouponUsage now db r.booking.couponCode r.userId) db') :
      CouponEffect now db db' (.cancel r)
  | operated (r : StatusRead) (b : Booking) (cancels : r.newStatus = .cancelled)
      (found : db.bookings.find? r.booking.id = some b) (live : b.status ≠ .cancelled)
      (uses : usesOf db'.bookings = usesWithout (usesOf db.bookings) [r.booking.id])
      (same : SameCoupons (refundCouponUsage now db b.couponCode b.customerId) db') :
      CouponEffect now db db' (.update r)
  /-- A vendor's cancel of a booking without a payment. -/
  | unpaid (r : StatusRead) (b : Booking) (found : db.bookings.find? b.id = some b)
      (live : b.status ≠ .cancelled)
      (unpaid : b.paymentId.bind (fun id => db.payments.find? id) = none)
      (uses : usesOf db'.bookings = usesWithout (usesOf db.bookings) [b.id])
      (same : SameCoupons db db') : CouponEffect now db db' (.update r)
  | reaped (stale claimed : List Booking) (scanned : ∀ b ∈ claimed, b ∈ stale)
      (whole : claimed ≠ [] → ∀ b ∈ stale,
        (∃ x, db.bookings.find? b.id = some x ∧ x.status = .pending) →
          b.id ∈ claimed.map Booking.id)
      (reaps : Reaps now db claimed db') : CouponEffect now db db' (.reap stale)
  | recreated (paymentId : Id) (amount : Cents) (bookingId : Option Id)
      (s : BookingSnapshot)
      (inserted : db.bookings.insert?
        (recreatedBooking (bookingId.getD db.nextId) paymentId s) = some db'.bookings)
      (same : SameCoupons (reclaimCouponUsage db s.couponCode s.customerId) db') :
      CouponEffect now db db' (.recreate paymentId amount bookingId s)

theorem CouponEffect.nothing (t : Task) : CouponEffect now db db t :=
  .idle t (.refl db) rfl

/-- A transaction that throws does nothing. -/
theorem CouponEffect.committed {t : Task} {tx : Tx Db}
    (h : ∀ db', tx = .ok db' → CouponEffect now db db' t) :
    CouponEffect now db (committed db tx) t := by
  cases htx : tx with
  | error e => exact .nothing t
  | ok db' => exact h db' htx

/-- Updates that change no status keep the uses. -/
theorem Refiles.uses {t : Table Booking} {k : Id} {fb : Booking → Booking}
    {hb : ∀ b, Keyed.key (fb b) = Keyed.key b} {g : BookingFile → BookingFile}
    (h : Refiles fb g) (hg : ∀ b, t.find? k = some b → (g b.file).use? = b.file.use?) :
    usesOf (t.update k fb hb) = usesOf t :=
  uses_update fun b hfound => by rw [h b]; exact hg b hfound

/-- Setting a status of a live booking keeps the uses. -/
theorem usesOf_mark {t : Table Booking} {k : Id} {fb : Booking → Booking}
    {hb : ∀ b, Keyed.key (fb b) = Keyed.key b} {status : BookingStatus}
    {g : BookingFile → BookingFile} (h : Refiles fb g)
    (hg : ∀ b, (g b).use? = (b.mark status).use?) (hne : status ≠ .cancelled)
    (live : ∀ b, t.find? k = some b → b.status ≠ .cancelled) :
    usesOf (t.update k fb hb) = usesOf t :=
  h.uses fun b hfound => (hg _).trans (BookingFile.use?_mark status (live b hfound) hne)

/-- **What a callback does to coupons.** -/
theorem settleTx_effect {payment : Payment} {params : CallbackParams} {isSuccess : Bool}
    {s : Settled} (h : settleTx now db payment params isSuccess = .ok s) :
    CouponEffect now db s.db (.settle payment params isSuccess) := by
  cases isSuccess with
  | true =>
      have h : settleSuccess now db payment params = .ok s := h
      refine .idle _ (settleSuccess_coupons h) ?_
      rcases settleSuccess_ok h with ⟨hdb, _⟩ | ⟨_, k, fp, hp, _, _, hcase⟩
      · rw [hdb]
      · obtain ⟨_, _, e⟩ | ⟨_, _, _, _, e⟩ | ⟨b, fb, hb, hfound, live, _, hfb, _, e⟩ := hcase
        · rw [e.bookings]
        · rw [e.bookings]
        · rw [e.bookings]
          refine usesOf_mark hfb (fun _ => rfl) (by decide) fun b' hb' => ?_
          rw [Option.some.inj (hb'.symm.trans hfound)]
          exact live
  | false =>
      have h : settleFailure now db payment = .ok s := h
      rcases settleFailure_coupons h with ⟨same, hb⟩ |
        ⟨q, k, doomed, hq, pending, link, hdoomed, hb, same⟩
      · exact .idle _ same (congrArg usesOf hb)
      · have hid : doomed.id = k := (Table.find?_eq_some.mp hdoomed).2
        subst hid
        refine .declined payment params q doomed hq pending link hdoomed ?_ same
        rw [hb]
        exact uses_delete

/-- **What a creation does to coupons.** -/
theorem createBookingTx_effect {p : PreparedBooking} {ref : String} {b : Booking}
    (h : createBookingTx env now db p ref = .ok (db', b)) :
    CouponEffect now db db' (.create p ref) := by
  obtain ⟨totalPrice, r, taken, same, code⟩ := createBookingTx_coupons h
  obtain ⟨unitNumber, q, hc⟩ := createBookingTx_created h
  have hb := hc.booking
  refine .created p ref totalPrice r b taken same code ?_ ?_ ?_ hc.stored.bookings
  · rw [hb]
    rfl
  · rw [hb]
    rfl
  · rw [hb]
    simp only [newBooking]
    split <;> simp

/-- What an un-cancel does to coupons. -/
theorem m6UnCancel_effect {paymentId : Id} {booking : Booking} {kind : RecoveryKind}
    (h : m6UnCancel now db booking = .ok (db', kind)) :
    CouponEffect now db db' (.unCancel paymentId booking) := by
  have same := m6UnCancel_coupons h
  rcases m6UnCancel_ok h with ⟨_, rfl, _⟩ | ⟨_, ⟨x, hx, dead, _⟩, _⟩
  · exact .nothing _
  · have hid : x.id = booking.id := (Table.find?_eq_some.mp hx).2
    exact .revived _ x (hid ▸ hx) dead (congrArg some hid.symm) same

/-- **What a status change does to coupons.** -/
theorem statusCommit_effect {r : StatusRead} (h : statusCommit now db r = .ok db') :
    CouponEffect now db db' (.update r) := by
  by_cases hc : r.newStatus = .cancelled
  · have h : operatorCancel now db r.operator r.booking.id = .ok db' := by
      rw [statusCommit, if_pos hc] at h
      exact h
    obtain rfl | ⟨found, hfound, live, uses, same | ⟨unpaid, same⟩⟩ := operatorCancel_coupons h
    · exact .nothing _
    · exact .operated r found hc hfound live uses same
    · have hid : found.id = r.booking.id := (Table.find?_eq_some.mp hfound).2
      rw [← hid] at hfound uses
      exact .unpaid r found hfound live unpaid uses same
  · have same := statusCommit_mark_coupons hc h
    obtain ⟨⟨x, hx⟩, hcase⟩ := statusCommit_mark_ok hc h
    have hid : x.id = r.booking.id := (Table.find?_eq_some.mp hx).2
    by_cases dead : x.status = .cancelled
    · exact .revived _ x (hid ▸ hx) dead (by simp [Task.revives, hc, hid]) same
    have live : ∀ b, db.bookings.find? r.booking.id = some b → b.status ≠ .cancelled := by
      intro b hb
      rw [Option.some.inj (hb.symm.trans hx)]
      exact dead
    refine .idle _ same ?_
    obtain ⟨fb, hb, e, hfb⟩ | ⟨_, _, fb, hb, points, e, _, hfb⟩ := hcase
    · rw [e.bookings]
      exact usesOf_mark hfb (fun _ => rfl) hc live
    · rw [e.bookings]
      exact usesOf_mark hfb (fun _ => rfl) hc live

/-- An award has no effect on uses. -/
theorem awardOne_effect {rate : ℚ} {b : Booking} (h : awardOne db rate b = .ok db') :
    usesOf db'.bookings = usesOf db.bookings := by
  rcases awardOne_ok h with rfl | ⟨_, fb, hb, points, e, _, hfb⟩
  · rfl
  · rw [e.bookings]
    exact hfb.uses fun _ _ => rfl

/-- **Every task is one of the effects.** -/
theorem Task.run_coupons (env : Env) (now : Instant) (db : Db) (t : Task) :
    CouponEffect now db (t.run env now db).1 t := by
  cases t with
  | create p ref =>
      simp only [Task.run]
      split
      · exact .nothing _
      · rename_i hok
        exact createBookingTx_effect hok
  | stampOtp bookingId user =>
      refine .committed fun db' h => .idle _ (otpStamp_coupons h) ?_
      simp only [otpStamp, bind_eq_ok, pure_eq_ok] at h
      obtain ⟨db₁, hupd, rfl⟩ := h
      rw [(updateBooking_ok hupd).2.1.bookings]
      exact uses_update fun _ _ => rfl
  | initiate r basketId =>
      refine .committed fun db' h => .idle _ (initiateWrite_coupons h) ?_
      simp only [initiateWrite, bind_eq_ok, pure_eq_ok] at h
      obtain ⟨_, _, _, _, _, _, rfl⟩ := h
      rfl
  | hold bookingId =>
      refine .idle _ ⟨rfl, rfl⟩ ?_
      simp only [Task.run, holdNapsSuccess]
      exact uses_updateMany fun _ _ _ => rfl
  | settle payment params isSuccess =>
      simp only [Task.run]
      split
      · exact .nothing _
      · rename_i hok
        exact settleTx_effect hok
  | b2Check paymentId =>
      simp only [Task.run]
      split <;> exact .nothing _
  | recreate paymentId amount bookingId s =>
      simp only [Task.run]
      split
      · exact .nothing _
      all_goals
        rename_i hok
        obtain ⟨same, hb⟩ | ⟨_, same, hins⟩ := b2Recreate_coupons hok
        · exact .idle _ same (congrArg usesOf hb)
        · exact .recreated paymentId amount bookingId s hins same
  | m6Check paymentId bookingId =>
      simp only [Task.run]
      split <;> exact .nothing _
  | unCancel paymentId booking =>
      simp only [Task.run]
      split
      · exact .nothing _
      · rename_i hok
        exact m6UnCancel_effect hok
  | queueRefund paymentId amount => exact .idle _ ⟨rfl, rfl⟩ rfl
  | cancel r =>
      refine .committed fun db' h => ?_
      obtain ⟨row, same, uses, soft⟩ := cancelCommit_coupons h
      exact .cancelled r row soft uses same
  | decide r =>
      refine .committed fun db' h => .idle _ (decisionCommit_coupons h) ?_
      obtain ⟨_, fb, hb, _, _, _, _, e, hfb, _⟩ := decisionCommit_ok h
      rw [e.bookings]
      exact hfb.uses fun _ _ => rfl
  | update r => exact .committed fun db' h => statusCommit_effect h
  | reap stale =>
      obtain ⟨claimed, reaps, scanned, whole⟩ := @reapStale_reaps db now stale
      refine .reaped stale claimed scanned (fun hne => whole fun hsame => hne ?_) reaps
      -- a claimed row is gone
      refine List.eq_nil_iff_forall_not_mem.mpr fun b hb => ?_
      obtain ⟨x, hx, _⟩ := reaps.reserved b hb
      have hgone := reaps.deleted
      rw [hsame] at hgone
      rw [hgone, Table.find?_deleteMany, Option.filter_eq_some_iff] at hx
      have hid : x.id = b.id := (Table.find?_eq_some.mp hx.1).2
      have := hx.2
      rw [hid] at this
      simp [List.mem_map_of_mem hb] at this
  | awardBatch bookings cutoff =>
      cases bookings with
      | nil => exact .nothing _
      | cons => exact .idle _ ⟨rfl, rfl⟩ rfl
  | award rate todo cutoff =>
      cases todo with
      | nil => exact .nothing _
      | cons b todo =>
          exact .committed fun db' h => .idle _ (awardOne_coupons h) (awardOne_effect h)
  | complete bookings =>
      refine .idle _ ⟨rfl, rfl⟩ ?_
      simp only [Task.run, completeConfirmed]
      refine uses_updateMany fun b _ hp => ?_
      have hb : b.status = .confirmed := (of_decide_eq_true hp).1
      simp [BookingFile.use?, Booking.file, Booking.complete, hb, Booking.core]

end Jadwal
