import Jadwal.System
import Jadwal.Dossier

/-!
# What each transaction does

One specification for each committed transaction: the two tables of rows
after it, as table statements on the tables before it, and the ledger
entries it appends.  The statements name what an update does to the file
of a row and hide every other column.  Nothing after this module unfolds a
transaction.
-/

namespace Jadwal

open Outcome

/-! ## Ledger entries -/

/-- The columns of a ledger row that accounting reads. -/
structure Entry where
  userId : Id
  delta : Cents
  source : LoyaltyLedgerSource
  bookingId : Option Id
  deriving DecidableEq

def LoyaltyLedger.entry (row : LoyaltyLedger) : Entry :=
  ⟨row.userId, row.delta, row.source, row.bookingId⟩

def Db.entries (db : Db) : List Entry := db.loyaltyLedger.map LoyaltyLedger.entry

/-- The unique index of the ledger on `(bookingId, source)`. -/
def Indexed (es : List Entry) : Prop :=
  es.Pairwise (fun e e' =>
    e.bookingId = none ∨ ¬ (e'.bookingId = e.bookingId ∧ e'.source = e.source))

/-- `db'` has the ledger of `db` with entries appended, none of which
violates the index. -/
structure Writes (db db' : Db) (es : List Entry) : Prop where
  entries : db'.entries = db.entries ++ es
  indexed : Indexed db.entries → Indexed db'.entries
  nonzero : ∀ e ∈ es, e.delta ≠ 0

/-- Nothing is written where the ledger is the same. -/
theorem Writes.none {db db' : Db} (h : db'.loyaltyLedger = db.loyaltyLedger) :
    Writes db db' [] := by
  have he : db'.entries = db.entries := congrArg (List.map _) h
  exact ⟨by simp [he], fun hi => he ▸ hi, by simp⟩

/-- Entries written one after the other. -/
theorem Writes.trans {db db' db'' : Db} {es es' : List Entry} (h : Writes db db' es)
    (h' : Writes db' db'' es') : Writes db db'' (es ++ es') :=
  ⟨by rw [h'.entries, h.entries, List.append_assoc], fun hi => h'.indexed (h.indexed hi),
    fun e he => (List.mem_append.mp he).elim (h.nonzero e) (h'.nonzero e)⟩

/-- A row that is appended is one entry. -/
theorem Loyalty.Appended.writes {db db' : Db} {row : LoyaltyLedger}
    (h : Loyalty.Appended db.loyaltyLedger db'.loyaltyLedger row) :
    Writes db db' [row.entry] := by
  obtain ⟨hne, hfree, balanceAfter, reason, hl⟩ := h
  have he : db'.entries = db.entries ++ [row.entry] := by
    simp only [Db.entries, hl, List.map_append]
    rfl
  refine ⟨he, fun hi => ?_, by simpa [LoyaltyLedger.entry] using hne⟩
  rw [he, Indexed, List.pairwise_append]
  refine ⟨hi, List.pairwise_singleton _ _, ?_⟩
  intro e hmem e' he'
  obtain rfl : e' = row.entry := by simpa using he'
  obtain ⟨old, hold, rfl⟩ := List.mem_map.mp hmem
  rcases hfree with hnone | hfree
  · refine Classical.or_iff_not_imp_left.mpr fun hsome hk => hsome ?_
    exact hk.1.symm.trans hnone
  · exact Or.inr fun hk => hfree old hold ⟨hk.1.symm, hk.2.symm⟩

/-- The entries of a return of a booking's points. -/
def returnEntries (b : Booking) (source : LoyaltyLedgerSource) : List Entry :=
  if 0 < b.pointsRedeemed then [⟨b.customerId, b.pointsRedeemed, source, some b.id⟩]
  else []

/-- The entries of the debit of a booking's points. -/
def redeemEntries (b : Booking) : List Entry :=
  if 0 < b.pointsRedeemed then
    [⟨b.customerId, -b.pointsRedeemed, .bookingRedeem, some b.id⟩]
  else []

/-! ## Effects -/

/-- The two tables after a transaction and the entries it wrote; ids are
given out by the caller. -/
structure Effect (db db' : Db) (bookings : Table Booking) (payments : Table Payment)
    (es : List Entry) : Prop where
  bookings : db'.bookings = bookings
  payments : db'.payments = payments
  writes : Writes db db' es
  nextId : db'.nextId = db.nextId
  activities : db'.activities = db.activities

/-- Effects compose, entries in order. -/
theorem Effect.trans {db db' db'' : Db} {bs bs' : Table Booking}
    {ps ps' : Table Payment} {es es' : List Entry} (h : Effect db db' bs ps es)
    (h' : Effect db' db'' bs' ps' es') : Effect db db'' bs' ps' (es ++ es') where
  bookings := h'.bookings
  payments := h'.payments
  writes := h.writes.trans h'.writes
  nextId := h'.nextId.trans h.nextId
  activities := h'.activities.trans h.activities

theorem Effect.congr {db db' : Db} {bs : Table Booking} {ps : Table Payment}
    {es es' : List Entry} (h : Effect db db' bs ps es) (he : es = es') :
    Effect db db' bs ps es' :=
  he ▸ h

/-- What touches neither bookings nor payments nor ledger has no effect. -/
theorem SameCore.effect {db db' : Db} (h : SameCore db db') :
    Effect db db' db.bookings db.payments [] :=
  ⟨h.bookings, h.payments, .none h.loyaltyLedger, h.nextId, h.activities⟩

/-- A posting has its entry as its effect. -/
theorem Loyalty.Posted.effect {db db' : Db} {row : LoyaltyLedger}
    (h : Loyalty.Posted db db' row) :
    Effect db db' db.bookings db.payments [row.entry] := by
  have hw := h.appended.writes
  obtain ⟨_, _, _, rfl⟩ := h.moved
  exact ⟨rfl, rfl, hw, rfl, rfl⟩

/-- The user's balance, 0 for a user there is not. -/
def Db.balanceOf (db : Db) (userId : Id) : Cents :=
  ((db.users.find? userId).map User.loyaltyPoints).getD 0

/-- A posting moves one balance by its delta. -/
theorem Loyalty.Posted.balanceOf {db db' : Db} {row : LoyaltyLedger}
    (h : Loyalty.Posted db db' row) (userId : Id) :
    db'.balanceOf userId =
      db.balanceOf userId + if userId = row.userId then row.delta else 0 := by
  obtain ⟨user, reason, huser, rfl⟩ := h.moved
  by_cases hu : userId = row.userId
  · subst hu
    simp [Db.balanceOf, Table.find?_update, huser]
  · simp [Db.balanceOf, Table.find?_update, hu]

/-- Returning points writes the entries of the booking and lowers no balance. -/
theorem returnPointsOf_ok {db db' : Db} {b : Booking} {source : LoyaltyLedgerSource}
    {actorType : LoyaltyActorType} {actorId : Option Id} {note : String}
    (h : returnPointsOf db b source actorType actorId note = .ok db') :
    Effect db db' db.bookings db.payments (returnEntries b source) ∧
      ∀ u, db.balanceOf u ≤ db'.balanceOf u := by
  unfold returnPointsOf at h
  split at h
  · rename_i hpos
    simp only [bind_eq_ok, pure_eq_ok] at h
    obtain ⟨r, hr, rfl⟩ := h
    obtain ⟨_, hp⟩ := Loyalty.refund_posts hr
    rw [Loyalty.round2_toNum] at hp
    refine ⟨?_, fun u => ?_⟩
    · rw [returnEntries, if_pos hpos]
      exact hp.effect
    · rw [hp.balanceOf]
      split <;> lia
  · rename_i hle
    cases h
    refine ⟨?_, fun u => le_rfl⟩
    rw [returnEntries, if_neg hle]
    exact (SameCore.refl db).effect

/-- Redeeming writes the entry of the booking, which had none before. -/
theorem redeemPointsOf_effect {db db' : Db} {b : Booking} {note : String}
    (h : redeemPointsOf db b note = .ok db') :
    Effect db db' db.bookings db.payments (redeemEntries b) ∧
      (0 < b.pointsRedeemed → ∀ e ∈ db.entries,
        ¬ (e.bookingId = some b.id ∧ e.source = .bookingRedeem)) := by
  rcases redeemPointsOf_ok h with ⟨hle, rfl⟩ | ⟨hpos, reason, hp⟩
  · have hn : ¬ 0 < b.pointsRedeemed := not_lt.mpr hle
    refine ⟨?_, fun hpos => absurd hpos hn⟩
    rw [redeemEntries, if_neg hn]
    exact (SameCore.refl db').effect
  · refine ⟨?_, fun _ e he => ?_⟩
    · rw [redeemEntries, if_pos hpos]
      exact hp.effect
    · obtain ⟨row, hrow, rfl⟩ := List.mem_map.mp he
      rcases hp.free with hnone | hfree
      · simp [redeemRow] at hnone
      · exact hfree row hrow

/-! ## Updates of rows -/

/-- What an update of a payment does to its file; it keeps the link, the
basket, the claim of orphan recovery and the amount. -/
structure Settles (f : Payment → Payment) (status : PaymentStatus) : Prop where
  file : ∀ q, (f q).file = { q.file with status := status }
  bookingId : ∀ q, (f q).bookingId = q.bookingId
  basket : ∀ q, (f q).gatewayBasketId = q.gatewayBasketId
  stamp : ∀ q, (f q).bookingRecreatedAt = q.bookingRecreatedAt
  amount : ∀ q, (f q).amount = q.amount

/-- What an update of a booking does to its file. -/
def Refiles (f : Booking → Booking) (g : BookingFile → BookingFile) : Prop :=
  ∀ b, (f b).file = g b.file

/-- Updating a booking finds it and changes nothing else. -/
theorem updateBooking_ok {db db' : Db} {id : Id} {f : Booking → Booking}
    {hf : ∀ b, Keyed.key (f b) = Keyed.key b} (h : updateBooking db id f hf = .ok db') :
    (∃ b, db.bookings.find? id = some b) ∧
      Effect db db' (db.bookings.update id f hf) db.payments [] ∧
      db'.users = db.users := by
  simp only [updateBooking, bind_eq_ok, orThrow_eq_ok, pure_eq_ok] at h
  obtain ⟨b, hb, rfl⟩ := h
  exact ⟨⟨b, hb⟩, ⟨rfl, rfl, .none rfl, rfl, rfl⟩, rfl⟩

/-- A guarded flip finds the payment in the status it expects. -/
theorem flipPayment_ok {db db' : Db} {id : Id} {expected : PaymentStatus}
    {f : Payment → Payment} {message : String}
    {hf : ∀ q, Keyed.key (f q) = Keyed.key q}
    (h : flipPayment db id expected f message hf = .ok db') :
    (∃ q, db.payments.find? id = some q ∧ q.status = expected) ∧
      Effect db db' db.bookings (db.payments.update id f hf) [] := by
  simp only [flipPayment, bind_eq_ok, orThrow_eq_ok, pure_eq_ok,
    Option.filter_eq_some_iff, decide_eq_true_eq] at h
  obtain ⟨q, hq, rfl⟩ := h
  exact ⟨⟨q, hq⟩, rfl, rfl, .none rfl, rfl, rfl⟩

/-- Returning a coupon has no effect on money. -/
theorem refundCouponUsage_effect (now : Instant) (db : Db)
    (couponCode : Option String) (customerId : Id) :
    Effect db (refundCouponUsage now db couponCode customerId) db.bookings
      db.payments [] :=
  (refundCouponUsage_frame now db couponCode customerId).effect

/-! ## The customer's cancel -/

/-- The file of a booking after a cancel that keeps it. -/
def BookingFile.cancel (b : BookingFile) : BookingFile :=
  { b with status := .cancelled, bySystem := false }

/-- A cancel that keeps the rows: the payment had the expected status. -/
structure SoftCancelled (db db' : Db) (r : CancelRead) (paymentId : Id)
    (expected status : PaymentStatus) (source : LoyaltyLedgerSource) : Prop where
  payment : ∃ q, db.payments.find? paymentId = some q ∧ q.status = expected
  booking : ∃ b, db.bookings.find? r.booking.id = some b
  effect : ∃ fb hb fp hp, Effect db db' (db.bookings.update r.booking.id fb hb)
      (db.payments.update paymentId fp hp) (returnEntries r.booking source) ∧
    Refiles fb BookingFile.cancel ∧ Settles fp status

/-- A cancellation of a booking that points paid for. -/
theorem cancelPointsOnly_ok {now : Instant} {db db' : Db} {r : CancelRead}
    {payment : Payment} (h : cancelPointsOnly now db r payment = .ok db') :
    SoftCancelled db db' r payment.id .success .refunded .cancelRefundPaid := by
  simp only [cancelPointsOnly, bind_eq_ok, pure_eq_ok] at h
  obtain ⟨db₁, hflip, db₂, hupd, db₃, hret, rfl⟩ := h
  obtain ⟨hq, e₁⟩ := flipPayment_ok hflip
  obtain ⟨hb, e₂, _⟩ := updateBooking_ok hupd
  have e₃ := (returnPointsOf_ok hret).1
  have e₄ := refundCouponUsage_effect now db₃ r.booking.couponCode r.userId
  rw [e₁.bookings] at hb
  rw [e₁.bookings, e₁.payments] at e₂
  rw [e₂.bookings, e₂.payments] at e₃
  rw [e₃.bookings, e₃.payments] at e₄
  have e := ((e₁.trans e₂).trans e₃).trans e₄
  simp only [List.nil_append, List.append_nil] at e
  exact ⟨hq, hb, _, _, _, _, e, fun b => rfl,
    fun q => rfl, fun q => rfl, fun q => rfl, fun q => rfl, fun q => rfl⟩

/-- A cancellation of a booking that was paid. -/
theorem cancelPaid_ok {now : Instant} {db db' : Db} {r : CancelRead}
    {payment : Payment} (h : cancelPaid now db r payment = .ok db') :
    SoftCancelled db db' r payment.id .success .refundPending .cancelRefundPaid := by
  simp only [cancelPaid, bind_eq_ok, pure_eq_ok] at h
  obtain ⟨db₁, hupd, db₂, hflip, db₃, hret, rfl⟩ := h
  obtain ⟨hb, e₁, _⟩ := updateBooking_ok hupd
  obtain ⟨hq, e₂⟩ := flipPayment_ok hflip
  have e₃ := (returnPointsOf_ok hret).1
  have e₄ := refundCouponUsage_effect now db₃ r.booking.couponCode r.userId
  rw [e₁.payments] at hq
  rw [e₁.bookings, e₁.payments] at e₂
  rw [e₂.bookings, e₂.payments] at e₃
  rw [e₃.bookings, e₃.payments] at e₄
  have e := ((e₁.trans e₂).trans e₃).trans e₄
  simp only [List.nil_append, List.append_nil] at e
  exact ⟨hq, hb, _, _, _, _, e, fun b => rfl,
    fun q => rfl, fun q => rfl, fun q => rfl, fun q => rfl, fun q => rfl⟩

/-- A cancellation while the payment is pending. -/
theorem cancelInFlight_ok {now : Instant} {db db' : Db} {r : CancelRead}
    {payment : Payment} (h : cancelInFlight now db r payment = .ok db') :
    SoftCancelled db db' r payment.id .pending .failed .cancelRefundUnpaid := by
  simp only [cancelInFlight, bind_eq_ok] at h
  obtain ⟨db₁, hflip, db₂, hupd, hret⟩ := h
  obtain ⟨hq, e₁⟩ := flipPayment_ok hflip
  have e₂ := refundCouponUsage_effect now db₁ r.booking.couponCode r.userId
  obtain ⟨hb, e₃, _⟩ := updateBooking_ok hupd
  have e₄ := (returnPointsOf_ok hret).1
  rw [e₂.bookings, e₁.bookings] at hb
  rw [e₁.bookings, e₁.payments] at e₂
  rw [e₂.bookings, e₂.payments] at e₃
  rw [e₃.bookings, e₃.payments] at e₄
  have e := ((e₁.trans e₂).trans e₃).trans e₄
  simp only [List.nil_append, List.append_nil] at e
  exact ⟨hq, hb, _, _, _, _, e, fun b => rfl,
    fun q => rfl, fun q => rfl, fun q => rfl, fun q => rfl, fun q => rfl⟩

/-- The hard delete removes the booking and the payment of the read, and
returns the points of the read. -/
theorem cancelHardDelete_ok {now : Instant} {db db' : Db} {r : CancelRead}
    (h : cancelHardDelete now db r = .ok db') :
    (∃ b, db.bookings.find? r.booking.id = some b) ∧
      Effect db db' (db.bookings.delete r.booking.id)
        (match r.payment with
          | some payment => db.payments.delete payment.id
          | none => db.payments)
        (returnEntries r.booking .cancelRefundUnpaid) := by
  simp only [cancelHardDelete, bind_eq_ok, orThrow_eq_ok] at h
  have e₁ := refundCouponUsage_effect now db r.booking.couponCode r.userId
  generalize refundCouponUsage now db r.booking.couponCode r.userId = db₁ at h e₁
  obtain ⟨b, hb, payments, hpay, hret⟩ := h
  rw [e₁.bookings] at hb
  have hpayments : payments = (match r.payment with
      | some payment => db.payments.delete payment.id
      | none => db.payments) := by
    rw [← e₁.payments]
    cases hr : r.payment with
    | none =>
        rw [hr] at hpay
        exact (Except.ok.inj hpay).symm
    | some payment =>
        rw [hr] at hpay
        simp only [bind_eq_ok, orThrow_eq_ok, pure_eq_ok] at hpay
        obtain ⟨_, _, rfl⟩ := hpay
        rfl
  have e₂ := (returnPointsOf_ok hret).1
  refine ⟨⟨b, hb⟩, ?_⟩
  rw [← hpayments, ← e₁.bookings]
  exact ⟨e₂.bookings, e₂.payments,
    by simpa using e₁.writes.trans ⟨e₂.writes.entries, e₂.writes.indexed, e₂.writes.nonzero⟩,
    e₂.nextId.trans e₁.nextId, e₂.activities.trans e₁.activities⟩

/-! ## Refund decisions -/

/-- Ledger entries that no dossier counts. -/
def Uncounted (es : List Entry) (bookingId : Id) : Prop :=
  ∀ e ∈ es, e.bookingId = some bookingId ∧
    (e.source = .vendorRefundApproved ∨ e.source = .adminRefundApproved)

theorem approvedSource_cases (actor : CancelActor) :
    approvedSource actor = .vendorRefundApproved ∨
      approvedSource actor = .adminRefundApproved := by
  unfold approvedSource
  split
  · exact Or.inr rfl
  · exact Or.inl rfl

/-- Crediting a refund writes entries that are no award, and lowers no balance. -/
theorem creditRefund_ok {db db' : Db} {customerId bookingId : Id} {points : Cents}
    {actor : CancelActor} {actorId : Option Id} {note : String}
    (h : creditRefund db customerId bookingId points actor actorId note = .ok db') :
    (∃ es, Effect db db' db.bookings db.payments es ∧ Uncounted es bookingId) ∧
      ∀ u, db.balanceOf u ≤ db'.balanceOf u := by
  unfold creditRefund at h
  split at h
  · rename_i hpos
    simp only [bind_eq_ok, pure_eq_ok] at h
    obtain ⟨r, hr, rfl⟩ := h
    obtain ⟨_, hp⟩ := Loyalty.refund_posts hr
    rw [Loyalty.round2_toNum] at hp
    refine ⟨⟨_, hp.effect, ?_⟩, fun u => ?_⟩
    · intro e he
      rw [List.mem_singleton] at he
      subst he
      exact ⟨rfl, approvedSource_cases actor⟩
    · rw [hp.balanceOf]
      split <;> lia
  · cases h
    exact ⟨⟨[], (SameCore.refl db).effect, by simp [Uncounted]⟩, fun u => le_rfl⟩

/-- A decision flips a queued refund and leaves the booking's file alone. -/
theorem decisionCommit_ok {now : Instant} {db db' : Db} {r : DecisionRead}
    (h : decisionCommit now db r = .ok db') :
    (∃ q, db.payments.find? r.paymentId = some q ∧ q.status = .refundPending) ∧
      ∃ fb hb fp hp es status, Effect db db' (db.bookings.update r.booking.id fb hb)
          (db.payments.update r.paymentId fp hp) es ∧
        Refiles fb id ∧ Settles fp status ∧ Uncounted es r.booking.id ∧
        (status = .refunded ∨ status = .rejected) := by
  simp only [decisionCommit, bind_eq_ok] at h
  obtain ⟨db₁, hflip, db₂, hupd, hret⟩ := h
  obtain ⟨hq, e₁⟩ := flipPayment_ok hflip
  obtain ⟨_, e₂, _⟩ := updateBooking_ok hupd
  obtain ⟨es, e₃, hes⟩ := (creditRefund_ok hret).1
  rw [e₁.bookings, e₁.payments] at e₂
  rw [e₂.bookings, e₂.payments] at e₃
  have e := (e₁.trans e₂).trans e₃
  simp only [List.nil_append] at e
  refine ⟨hq, _, _, _, _, es, if r.action = .approve then .refunded else .rejected,
    ⟨e.bookings, e.payments, ⟨e.writes.entries, e.writes.indexed, e.writes.nonzero⟩, e.nextId,
      e.activities⟩, fun b => rfl,
    ⟨fun q => rfl, fun q => rfl, fun q => rfl, fun q => rfl, fun q => rfl⟩, hes, ?_⟩
  split
  · exact Or.inl rfl
  · exact Or.inr rfl

/-! ## The operator's cancel -/

/-- The award of a booking, by the entries. -/
def awardOf (es : List Entry) (bookingId : Id) : Cents :=
  match es.reverse.find?
      (fun e => e.bookingId = some bookingId ∧ e.source = .bookingEarn) with
  | some e => e.delta
  | none => 0

/-- The points a booking earned are those of its award entries. -/
theorem getEarnedPoints_eq (db : Db) (bookingId : Id) :
    Loyalty.getEarnedPoints db bookingId = awardOf db.entries bookingId := by
  unfold Loyalty.getEarnedPoints awardOf Db.entries
  rw [← List.map_reverse, List.find?_map]
  have hsame : db.loyaltyLedger.reverse.find? ((fun e : Entry =>
      e.bookingId = some bookingId ∧ e.source = .bookingEarn) ∘ LoyaltyLedger.entry) =
      db.loyaltyLedger.reverse.find? (fun row =>
        row.bookingId = some bookingId ∧ row.source = .bookingEarn) := rfl
  rw [hsame]
  cases db.loyaltyLedger.reverse.find? (fun row =>
    row.bookingId = some bookingId ∧ row.source = .bookingEarn) <;> rfl

/-- The entries of a reversal. -/
def reverseEntries (b : Booking) (clawback : Cents) : List Entry :=
  if 0 < clawback then
    [⟨b.customerId, -clawback, .cancelReverseAwarded, some b.id⟩]
  else []

/-- A reversal claws back the award, up to the balance, and clears the
flag; a booking without an award is left alone. -/
theorem reverseEarned_ok {db db' : Db} {op : Operator} {b : Booking}
    (h : reverseEarned db op b = .ok db') :
    ∃ fb hb clawback, Effect db db' (db.bookings.update b.id fb hb) db.payments
        (reverseEntries b clawback) ∧
      (∀ x, (fb x).core = x.core ∧ (fb x).status = x.status ∧
        (fb x).cancelledBy = x.cancelledBy) ∧
      0 ≤ clawback ∧ clawback ≤ max 0 (awardOf db.entries b.id) ∧
      (b.pointsAwarded = false → clawback = 0) ∧
      (b.pointsAwarded = true →
        awardOf db.entries b.id ≤ db.balanceOf b.customerId →
        clawback = max 0 (awardOf db.entries b.id)) := by
  have hidle : Effect db db (db.bookings.update b.id id (fun _ => rfl)) db.payments
      (reverseEntries b 0) := by
    simpa [reverseEntries] using (SameCore.refl db).effect
  unfold reverseEarned at h
  simp only [getEarnedPoints_eq] at h
  split at h
  · rename_i haw
    split at h
    · rename_i hpos
      simp only [bind_eq_ok] at h
      obtain ⟨r, hr, hupd⟩ := h
      obtain ⟨_, e₂, _⟩ := updateBooking_ok hupd
      obtain ⟨_, u, hu, hcase⟩ := Loyalty.reverseAwarded_posts hr
      simp only [Loyalty.round2_toNum] at hcase
      have hbal : db.balanceOf b.customerId = u.loyaltyPoints := by
        simp only at hu
        simp [Db.balanceOf, hu]
      rcases hcase with ⟨hle, hsame⟩ | ⟨hlt, note, hp⟩
      · rw [hsame] at e₂
        have hes : reverseEntries b 0 = [] := if_neg (lt_irrefl 0)
        refine ⟨_, _, 0, e₂.congr hes.symm, fun x => ⟨rfl, rfl, rfl⟩, le_rfl,
          le_max_left _ _, fun _ => rfl, fun _ hb => ?_⟩
        rw [hbal] at hb
        rw [min_eq_left hb] at hle
        exact absurd hpos (not_lt.mpr hle)
      · have e₁ := hp.effect
        rw [e₁.bookings, e₁.payments] at e₂
        have hes : reverseEntries b (min (awardOf db.entries b.id) u.loyaltyPoints) =
            [⟨b.customerId, -min (awardOf db.entries b.id) u.loyaltyPoints,
              .cancelReverseAwarded, some b.id⟩] := if_pos hlt
        refine ⟨_, _, _, (e₁.trans e₂).congr hes.symm, fun x => ⟨rfl, rfl, rfl⟩, hlt.le,
          (min_le_left _ _).trans (le_max_right _ _), fun hf => ?_, fun _ hb => ?_⟩
        · rw [haw] at hf
          cases hf
        · rw [hbal] at hb
          rw [min_eq_left hb, max_eq_right hpos.le]
    · rename_i hle
      cases h
      refine ⟨id, fun _ => rfl, 0, hidle, fun x => ⟨rfl, rfl, rfl⟩, le_rfl,
        le_max_left _ _, fun _ => rfl, fun _ _ => ?_⟩
      rw [max_eq_left (not_lt.mp hle)]
  · rename_i haw
    cases h
    exact ⟨id, fun _ => rfl, 0, hidle, fun x => ⟨rfl, rfl, rfl⟩, le_rfl, le_max_left _ _,
      fun _ => rfl, fun ht => absurd ht haw⟩

/-- Entries that are not awards do not move the award. -/
theorem awardOf_append {es es' : List Entry} {bookingId : Id}
    (h : ∀ e ∈ es', e.source ≠ .bookingEarn) :
    awardOf (es ++ es') bookingId = awardOf es bookingId := by
  have hnone : es'.reverse.find?
      (fun e => e.bookingId = some bookingId ∧ e.source = .bookingEarn) = none := by
    rw [List.find?_eq_none]
    intro e he
    have := h e (List.mem_reverse.mp he)
    simp [this]
  simp only [awardOf, List.reverse_append, List.find?_append, hnone, Option.none_or]

/-- `ps` is `payments` with one payment settled. -/
def Settled.Row (payments ps : Table Payment) (id : Id) (status : PaymentStatus) : Prop :=
  ∃ f hf, ps = payments.update id f hf ∧ Settles f status

theorem Settled.Row.of {payments : Table Payment} {id : Id} {status : PaymentStatus}
    {f : Payment → Payment} (h : Settles f status)
    (hf : ∀ q, Keyed.key (f q) = Keyed.key q) :
    Settled.Row payments (payments.update id f hf) id status :=
  ⟨f, hf, rfl, h⟩

/-- The payments table after an operator's cancel. -/
def refundedPayments (payments ps : Table Payment) (q : Payment) : Prop :=
  (q.status = .success → Settled.Row payments ps q.id .refunded) ∧
  (q.status = .pending → Settled.Row payments ps q.id .failed)

/-- Refunding a cancelled booking writes entries that are no award, and lowers no balance. -/
theorem refundCancelledPayment_ok {now : Instant} {db db' : Db} {op : Operator}
    {b : Booking} {payment : Payment}
    (h : refundCancelledPayment now db op b payment = .ok db') :
    (∃ ps es, Effect db db' db.bookings ps es ∧ Uncounted es b.id ∧
      refundedPayments db.payments ps payment) ∧
      ∀ u, db.balanceOf u ≤ db'.balanceOf u := by
  unfold refundCancelledPayment at h
  split at h
  · rename_i hs
    obtain ⟨⟨es, e, hes⟩, hbal⟩ := creditRefund_ok h
    refine ⟨⟨_, es, ⟨e.bookings, e.payments,
      ⟨e.writes.entries, e.writes.indexed, e.writes.nonzero⟩, e.nextId, e.activities⟩, hes,
      fun _ => ?_, fun hp => ?_⟩, hbal⟩
    · refine .of ⟨?_, ?_, ?_, ?_, ?_⟩ ?_ <;> intro q <;> rfl
    · rw [hs] at hp
      cases hp
  · rename_i hs
    cases h
    refine ⟨⟨_, [], ⟨rfl, rfl, .none rfl, rfl, rfl⟩, by simp [Uncounted],
      fun hp => ?_, fun _ => ?_⟩, fun u => le_rfl⟩
    · rw [hs] at hp
      cases hp
    · refine .of ⟨?_, ?_, ?_, ?_, ?_⟩ ?_ <;> intro q <;> rfl
  · rename_i hs hp
    cases h
    exact ⟨⟨_, [], (SameCore.refl db).effect, by simp [Uncounted],
      fun h => absurd h hs, fun h => absurd h hp⟩, fun u => le_rfl⟩

/-- The money side of an operator's cancel: the cash credit, the returned
points and the clawback of the award. -/
theorem settleCancelled_ok {now : Instant} {db db' : Db} {op : Operator}
    {b : Booking} {payment : Payment}
    (h : settleCancelled now db op b payment = .ok db') :
    ∃ fb hb ps es clawback, Effect db db' (db.bookings.update b.id fb hb) ps
        (es ++ returnEntries b .cancelRefundPaid ++ reverseEntries b clawback) ∧
      (∀ x, (fb x).core = x.core ∧ (fb x).status = x.status ∧
        (fb x).cancelledBy = x.cancelledBy) ∧
      Uncounted es b.id ∧ refundedPayments db.payments ps payment ∧
      0 ≤ clawback ∧ clawback ≤ max 0 (awardOf db.entries b.id) ∧
      (b.pointsAwarded = false → clawback = 0) ∧
      (b.pointsAwarded = true →
        awardOf db.entries b.id ≤ db.balanceOf b.customerId →
        clawback = max 0 (awardOf db.entries b.id)) := by
  simp only [settleCancelled, bind_eq_ok] at h
  obtain ⟨db₁, hcredit, db₂, hret, hrev⟩ := h
  obtain ⟨⟨ps, es, e₁, hes, hps⟩, hbal₁⟩ := refundCancelledPayment_ok hcredit
  obtain ⟨e₂, hbal₂⟩ := returnPointsOf_ok hret
  obtain ⟨fb, hb, c, e₃, hfb, hc0, hcmax, hcun, hcwhole⟩ := reverseEarned_ok hrev
  rw [e₁.bookings, e₁.payments] at e₂
  rw [e₂.bookings, e₂.payments] at e₃
  have haward : awardOf db₂.entries b.id = awardOf db.entries b.id := by
    rw [e₂.writes.entries, e₁.writes.entries, awardOf_append, awardOf_append]
    · intro e he
      rcases (hes e he).2 with hs | hs <;> simp [hs]
    · intro e he
      unfold returnEntries at he
      split at he
      · rw [List.mem_singleton.mp he]
        simp
      · cases he
  rw [haward] at hcmax hcwhole
  exact ⟨fb, hb, ps, es, c, (e₁.trans e₂).trans e₃, hfb, hes, hps, hc0, hcmax, hcun,
    fun haw hle => hcwhole haw (hle.trans ((hbal₁ _).trans (hbal₂ _)))⟩

/-- An operator's cancel of a row that is not cancelled yet: the row as it
is now is cancelled, and its payment settled. -/
structure OperatorCancelled (db db' : Db) (found : Booking) (payment : Payment) :
    Prop where
  effect : ∃ fb hb ps es clawback, Effect db db' (db.bookings.update found.id fb hb) ps
      (es ++ returnEntries found .cancelRefundPaid ++ reverseEntries found clawback) ∧
    (∀ x, (fb x).core = x.core ∧ (fb x).status = .cancelled ∧
      (fb x).file.bySystem = false) ∧
    Uncounted es found.id ∧ refundedPayments db.payments ps payment ∧
    0 ≤ clawback ∧ clawback ≤ max 0 (awardOf db.entries found.id) ∧
    (found.pointsAwarded = false → clawback = 0) ∧
    (found.pointsAwarded = true →
      awardOf db.entries found.id ≤ db.balanceOf found.customerId →
      clawback = max 0 (awardOf db.entries found.id))

theorem Operator.actor_ne_system (op : Operator) : op.actor ≠ .system := by
  cases op <;> simp [Operator.actor]

theorem Operator.claim_key (op : Operator) (now : Instant) (b : Booking) :
    Keyed.key (op.claim now b) = Keyed.key b := rfl

/-- The claimed row, and what follows it. -/
theorem afterClaim_ok {now : Instant} {db db₀ db' : Db} {op : Operator}
    {found : Booking} {payment : Payment}
    (e₀ : Effect db db₀ (db.bookings.update found.id (op.claim now) (op.claim_key now))
      db.payments [])
    (hbal : ∀ u, db₀.balanceOf u = db.balanceOf u)
    (h : afterClaim now db₀ op (op.claim now found) (some payment) = .ok db') :
    OperatorCancelled db db' found payment := by
  simp only [afterClaim, bind_eq_ok, pure_eq_ok] at h
  obtain ⟨db₁, hs, rfl⟩ := h
  obtain ⟨fb, hb, ps, es, c, e₁, hfb, hes, hps, hc0, hcmax, hcun, hcwhole⟩ :=
    settleCancelled_ok hs
  have e₂ := refundCouponUsage_effect now db₁ (op.claim now found).couponCode
    (op.claim now found).customerId
  rw [e₁.bookings, e₁.payments] at e₂
  have e := (e₀.trans e₁).trans e₂
  have hentries : db₀.entries = db.entries := by simpa using e₀.writes.entries
  have hid : (op.claim now found).id = found.id := rfl
  rw [e₀.bookings, hid, Table.update_update] at e
  simp only [List.nil_append, List.append_nil] at e
  rw [hid, hentries] at hcmax hcwhole
  rw [e₀.payments] at hps
  refine ⟨_, _, ps, es, c, e, fun x => ?_, hes, hps, hc0, hcmax, hcun, fun ht hle => ?_⟩
  · refine ⟨(hfb _).1, (hfb _).2.1, ?_⟩
    simp [Booking.file, (hfb _).2.2, Operator.claim, op.actor_ne_system]
  · refine hcwhole ht ?_
    rw [hbal]
    exact hle

/-- **What an operator's cancellation does**: nothing to a cancelled booking, and otherwise one
cancellation. -/
theorem operatorCancel_ok {now : Instant} {db db' : Db} {op : Operator}
    {bookingId : Id} (h : operatorCancel now db op bookingId = .ok db') :
    ∃ found, db.bookings.find? bookingId = some found ∧
      ((found.status = .cancelled ∧ db' = db) ∨
        (found.status ≠ .cancelled ∧
          ∀ q, found.paymentId.bind (fun id => db.payments.find? id) = some q →
            OperatorCancelled db db' found q)) := by
  simp only [operatorCancel, bind_eq_ok, orThrow_eq_ok, ensure_eq_ok] at h
  obtain ⟨found, hfound, _, _, h⟩ := h
  have hid : found.id = bookingId := (Table.find?_eq_some.mp hfound).2
  refine ⟨found, hfound, ?_⟩
  split at h
  · rename_i hc
    exact Or.inl ⟨hc, (Except.ok.inj h).symm⟩
  · rename_i hc
    refine Or.inr ⟨hc, fun q hq => ?_⟩
    rw [hq] at h
    subst hid
    have e₀ : Effect db
        { db with bookings := db.bookings.update found.id (op.claim now) (op.claim_key now) }
        (db.bookings.update found.id (op.claim now) (op.claim_key now)) db.payments [] :=
      ⟨rfl, rfl, .none rfl, rfl, rfl⟩
    exact afterClaim_ok e₀ (fun _ => rfl) h

/-! ## Awards -/

/-- The entry of an award. -/
def earnEntry (b : Booking) (points : Cents) : Entry :=
  ⟨b.customerId, points, .bookingEarn, some b.id⟩

/-- The file of a booking after its award is claimed. -/
def BookingFile.award (b : BookingFile) : BookingFile := { b with awarded := true }

/-- A claim of `pointsAwarded` on a row that had none, with its entry. -/
structure Awarded (db db' : Db) (b : Booking) (P : Booking → Prop) : Prop where
  claimed : ∃ x, db.bookings.find? b.id = some x ∧ P x ∧ x.pointsAwarded = false
  effect : ∃ fb hb points, Effect db db' (db.bookings.update b.id fb hb) db.payments
    [earnEntry b points] ∧ 0 < points ∧ Refiles fb BookingFile.award

/-- Completing a booking awards it, or does nothing. -/
theorem awardCompleted_ok {db db' : Db} {b : Booking}
    (h : awardCompleted db b = .ok db') :
    Effect db db' db.bookings db.payments [] ∨ Awarded db db' b (fun _ => True) := by
  unfold awardCompleted at h
  simp only at h
  split at h
  · rename_i hpos
    split at h
    · obtain rfl := Except.ok.inj h
      exact Or.inl ⟨rfl, rfl, .none rfl, rfl, rfl⟩
    · rename_i x hx
      rw [Option.filter_eq_some_iff] at hx
      simp only [bind_eq_ok, pure_eq_ok] at h
      obtain ⟨r, hr, rfl⟩ := h
      obtain ⟨_, hp⟩ := Loyalty.earn_posts hr
      rw [Loyalty.round2_toNum] at hp
      have e := hp.effect
      refine Or.inr ⟨⟨x, hx.1, trivial, by simpa using hx.2⟩, _, ?_, _,
        ⟨e.bookings, e.payments, ⟨e.writes.entries, e.writes.indexed, e.writes.nonzero⟩, e.nextId,
          e.activities⟩, hpos, ?_⟩
      · exact fun _ => rfl
      · exact fun _ => rfl
  · obtain rfl := Except.ok.inj h
    exact Or.inl ⟨rfl, rfl, .none rfl, rfl, rfl⟩

/-- The cron job awards a booking that stands, or does nothing. -/
theorem awardOne_ok {db db' : Db} {rate : ℚ} {b : Booking}
    (h : awardOne db rate b = .ok db') :
    db' = db ∨ Awarded db db' b
      (fun x => x.status = .confirmed ∨ x.status = .completed) := by
  unfold awardOne at h
  simp only at h
  split at h
  · exact Or.inl (Except.ok.inj h).symm
  · rename_i hpos
    split at h
    · exact Or.inl (Except.ok.inj h).symm
    · rename_i x hx
      rw [Option.filter_eq_some_iff] at hx
      simp only [bind_eq_ok, pure_eq_ok] at h
      obtain ⟨r, hr, rfl⟩ := h
      obtain ⟨_, hp⟩ := Loyalty.earn_posts hr
      rw [Loyalty.round2_toNum] at hp
      have e := hp.effect
      have hx' := of_decide_eq_true hx.2
      refine Or.inr ⟨⟨x, hx.1, hx'.1, hx'.2⟩, _, ?_, _,
        ⟨e.bookings, e.payments, ⟨e.writes.entries, e.writes.indexed, e.writes.nonzero⟩, e.nextId,
          e.activities⟩, not_le.mp hpos, ?_⟩
      · exact fun _ => rfl
      · exact fun _ => rfl

/-! ## Marking a status -/

/-- The file of a booking after a plain status update. -/
def BookingFile.mark (status : BookingStatus) (b : BookingFile) : BookingFile :=
  { b with status := status }

/-- A status other than `CANCELLED` set by an operator: a plain update, and
the award of a completion when the read saw none. -/
theorem statusCommit_mark_ok {now : Instant} {db db' : Db} {r : StatusRead}
    (hne : r.newStatus ≠ .cancelled) (h : statusCommit now db r = .ok db') :
    (∃ x, db.bookings.find? r.booking.id = some x) ∧
      ((∃ fb hb, Effect db db' (db.bookings.update r.booking.id fb hb) db.payments [] ∧
          Refiles fb (BookingFile.mark r.newStatus)) ∨
        (r.newStatus = .completed ∧
          (∃ x, db.bookings.find? r.booking.id = some x ∧ x.pointsAwarded = false) ∧
          ∃ fb hb points, Effect db db' (db.bookings.update r.booking.id fb hb)
              db.payments [earnEntry r.booking points] ∧ 0 < points ∧
            Refiles fb (fun b => (b.mark r.newStatus).award))) := by
  rw [statusCommit, if_neg hne] at h
  simp only [bind_eq_ok] at h
  obtain ⟨db₁, hupd, h⟩ := h
  obtain ⟨hx, e₁, _⟩ := updateBooking_ok hupd
  refine ⟨hx, ?_⟩
  split at h
  · rename_i hc
    rcases awardCompleted_ok h with e₂ | ⟨⟨x, hx₁, _, haw⟩, fb, hb, points, e₂, hpos, hfb⟩
    · rw [e₁.bookings, e₁.payments] at e₂
      refine Or.inl ⟨_, _, (e₁.trans e₂).congr rfl, fun b => rfl⟩
    · rw [e₁.bookings, Table.find?_update, if_pos rfl, Option.map_eq_some_iff] at hx₁
      obtain ⟨x₀, hx₀, rfl⟩ := hx₁
      rw [e₁.bookings, e₁.payments] at e₂
      have e := e₁.trans e₂
      refine Or.inr ⟨hc.1, ⟨x₀, hx₀, haw⟩, _, ?_, points,
        ⟨e.bookings.trans (Table.update_update _ _ _ _ _ hb), e.payments,
          e.writes, e.nextId, e.activities⟩, hpos, fun b => ?_⟩
      · exact fun b => hb _
      · exact hfb _
  · obtain rfl := Except.ok.inj h
    exact Or.inl ⟨_, _, e₁, fun b => rfl⟩

/-! ## Settling a callback -/

/-- A settled success: the payment was unpaid, and its booking is gone,
cancelled, or confirmed by this transaction. -/
structure SettledSuccess (db : Db) (payment : Payment) (s : Settled) : Prop where
  unpaid : ∃ q, db.payments.find? payment.id = some q ∧
    (q.status = .pending ∨ q.status = .failed)
  effect : ∃ k fp hp, payment.bookingId = some k ∧ Settles fp .success ∧
    ((db.bookings.find? k = none ∧ s.recovery = some .b2Orphan ∧
        Effect db s.db db.bookings (db.payments.update payment.id fp hp) []) ∨
      (∃ b, db.bookings.find? k = some b ∧ b.status = .cancelled ∧
        s.recovery = some (if b.cancelledBy = some .system then .m6SystemCancelled
          else .cancelledRefund) ∧
        Effect db s.db db.bookings (db.payments.update payment.id fp hp) []) ∨
      (∃ b fb hb, db.bookings.find? k = some b ∧ b.status ≠ .cancelled ∧
        s.recovery = none ∧ Refiles fb (BookingFile.mark .confirmed) ∧
        (∀ x, (fb x).reservedUntil = x.reservedUntil) ∧
        Effect db s.db (db.bookings.update k fb hb)
          (db.payments.update payment.id fp hp) []))

/-- A success settles the payment, or changes nothing. -/
theorem settleSuccess_ok {now : Instant} {db : Db} {payment : Payment}
    {params : CallbackParams} {s : Settled}
    (h : settleSuccess now db payment params = .ok s) :
    (s.db = db ∧ s.recovery = none) ∨ SettledSuccess db payment s := by
  unfold settleSuccess at h
  split at h
  · obtain rfl := Except.ok.inj h
    exact Or.inl ⟨rfl, rfl⟩
  · rename_i q hq
    rw [Option.filter_eq_some_iff] at hq
    have hun := of_decide_eq_true hq.2
    simp only [bind_eq_ok, ensure_eq_ok, orThrow_eq_ok] at h
    obtain ⟨_, _, k, hk, h⟩ := h
    refine Or.inr ⟨⟨q, hq.1, hun⟩, k, Payment.capture now params, fun _ => rfl, hk,
      ⟨fun _ => rfl, fun _ => rfl, fun _ => rfl, fun _ => rfl, fun _ => rfl⟩, ?_⟩
    split at h
    · rename_i hb
      obtain rfl := Except.ok.inj h
      exact Or.inl ⟨hb, rfl, rfl, rfl, .none rfl, rfl, rfl⟩
    · rename_i b hb
      split at h
      · rename_i hc
        obtain rfl := Except.ok.inj h
        exact Or.inr (Or.inl ⟨b, hb, hc, rfl, rfl, rfl, .none rfl, rfl, rfl⟩)
      · rename_i hc
        obtain rfl := Except.ok.inj h
        exact Or.inr (Or.inr ⟨b, fun b => { b with status := .confirmed }, fun _ => rfl,
          hb, hc, rfl, fun _ => rfl, fun _ => rfl, rfl, rfl, .none rfl, rfl, rfl⟩)

/-- A settled failure: the pending payment fails and its booking goes, its
points returned. -/
structure SettledFailure (db : Db) (payment : Payment) (s : Settled) : Prop where
  pending : ∃ q, db.payments.find? payment.id = some q ∧ q.status = .pending
  recovery : s.recovery = none
  effect : ∃ fp hp, Settles fp .failed ∧
    ((payment.bookingId = none ∧
        Effect db s.db db.bookings (db.payments.update payment.id fp hp) []) ∨
      ∃ k doomed, payment.bookingId = some k ∧ db.bookings.find? k = some doomed ∧
        Effect db s.db (db.bookings.delete k) (db.payments.update payment.id fp hp)
          (returnEntries doomed .cancelRefundUnpaid))

/-- A failure settles the payment, or changes nothing. -/
theorem settleFailure_ok {now : Instant} {db : Db} {payment : Payment} {s : Settled}
    (h : settleFailure now db payment = .ok s) :
    (s.db = db ∧ s.recovery = none) ∨ SettledFailure db payment s := by
  unfold settleFailure at h
  split at h
  · obtain rfl := Except.ok.inj h
    exact Or.inl ⟨rfl, rfl⟩
  · rename_i q hq
    rw [Option.filter_eq_some_iff] at hq
    have hp := of_decide_eq_true hq.2
    simp only at h
    split at h
    · rename_i hk
      obtain rfl := Except.ok.inj h
      refine Or.inr ⟨⟨q, hq.1, hp⟩, rfl, _, ?_, ?_,
        Or.inl ⟨hk, rfl, rfl, .none rfl, rfl, rfl⟩⟩
      · exact fun _ => rfl
      · exact ⟨fun _ => rfl, fun _ => rfl, fun _ => rfl, fun _ => rfl, fun _ => rfl⟩
    · rename_i k hk
      simp only [bind_eq_ok, orThrow_eq_ok, pure_eq_ok] at h
      obtain ⟨doomed, hd, db₂, hret, rfl⟩ := h
      have e₂ := (returnPointsOf_ok hret).1
      have hf := refundCouponUsage_frame now
        { db with payments := db.payments.update payment.id
                    (fun q => { q with status := .failed, idempotencyKey := none }) }
        doomed.couponCode doomed.customerId
      have hb₂ := e₂.bookings.trans hf.bookings
      have hp₂ := e₂.payments.trans hf.payments
      have hw : Writes db db₂ (returnEntries doomed .cancelRefundUnpaid) := by
        have hw₁ : Writes db _ [] := .none hf.loyaltyLedger
        exact hw₁.trans e₂.writes
      refine Or.inr ⟨⟨q, hq.1, hp⟩, rfl, _, ?_, ?_, Or.inr ⟨k, doomed, hk, hd,
        congrArg (fun t => Table.delete t k) hb₂, hp₂, ⟨hw.entries, hw.indexed, hw.nonzero⟩,
        e₂.nextId.trans hf.nextId, e₂.activities.trans hf.activities⟩⟩
      · exact fun _ => rfl
      · exact ⟨fun _ => rfl, fun _ => rfl, fun _ => rfl, fun _ => rfl, fun _ => rfl⟩

/-! ## Recovering -/

/-- The claim of a recovery keeps the amount, and everything a file, a link
or a lookup by basket reads. -/
structure SameLink (f : Payment → Payment) : Prop where
  file : ∀ q, (f q).file = q.file
  bookingId : ∀ q, (f q).bookingId = q.bookingId
  basket : ∀ q, (f q).gatewayBasketId = q.gatewayBasketId
  amount : ∀ q, (f q).amount = q.amount

/-- The booking orphan recovery inserts into the payment's own slot. -/
structure Recreated (now : Instant) (db db' : Db) (paymentId bookingId : Id)
    (s : BookingSnapshot) : Prop where
  slotFree : recoverySlotAvailable db now
    ⟨s.activityId, s.unitNumber, s.startDatetime, s.endDatetime, s.guests, none⟩
  refFree : ∀ b ∈ db.bookings.rows, b.ref ≠ s.ref
  keyFree : s.idempotencyKey = none ∨
    ∀ b ∈ db.bookings.rows, b.idempotencyKey ≠ s.idempotencyKey
  inserted : db.bookings.insert? (recreatedBooking bookingId paymentId s) =
    some db'.bookings
  once : 0 < s.pointsRedeemed → ∀ e ∈ db.entries,
    ¬ (e.bookingId = some bookingId ∧ e.source = .bookingRedeem)
  writes : Writes db db' (redeemEntries (recreatedBooking bookingId paymentId s))
  activities : db'.activities = db.activities

/-- What the checks before orphan recovery hand to its transaction. -/
theorem b2Preflight_recreate {env : Env} {now : Instant} {db : Db} {paymentId : Id}
    {amount : Cents} {bookingId : Option Id} {s : BookingSnapshot}
    (h : b2Preflight env now db paymentId = .recreate amount bookingId s) :
    ∃ q, db.payments.find? paymentId = some q ∧ q.bookingRecreatedAt = none ∧
      q.bookingId = bookingId ∧ q.bookingSnapshot = some s := by
  unfold b2Preflight at h
  split at h
  · cases h
  rename_i q hq
  split at h
  · cases h
  rename_i hstamp
  split at h
  · cases h
  rename_i s' hs
  split at h
  · cases h
  split at h
  · cases h
  split at h
  · cases h
  simp only at h
  split at h
  · cases h
  split at h
  · cases h
  obtain ⟨_, rfl, rfl⟩ := RecoveryPlan.recreate.inj h
  exact ⟨q, hq, not_not.mp hstamp, rfl, hs⟩

/-- The un-cancel is for a row the system cancelled, and only such a row is
worth a refund. -/
theorem m6Preflight_ok (env : Env) (now : Instant) (db : Db) (paymentId bookingId : Id) :
    match m6Preflight env now db paymentId bookingId with
    | .unCancel b => db.bookings.find? bookingId = some b
    | .nothing => db.payments.find? paymentId = none ∨
        ∃ b, db.bookings.find? bookingId = some b ∧
          ¬ (b.status = .cancelled ∧ b.cancelledBy = some .system)
    | .refund _ _ => True := by
  unfold m6Preflight
  cases hb : db.bookings.find? bookingId with
  | none =>
      cases hq : db.payments.find? paymentId with
      | none => exact Or.inl rfl
      | some q => trivial
  | some b =>
      simp only
      by_cases hc : b.status ≠ .cancelled ∨ b.cancelledBy ≠ some .system
      · rw [if_pos hc]
        exact Or.inr ⟨b, rfl, fun h => hc.elim (· h.1) (· h.2)⟩
      · rw [if_neg hc]
        by_cases hover : b.endDatetime ≤ nowInTimezone env
            ((((db.activities.find? b.activityId).bind
              (fun a => db.countries.find? a.countryId)).map
                Country.defaultTimezone).getD "UTC") now
        · rw [if_pos hover]
          cases hq : db.payments.find? paymentId with
          | none => exact Or.inl rfl
          | some q => trivial
        · rw [if_neg hover]

/-- Whether a slot is free does not depend on the payments. -/
theorem recoverySlotAvailable_payments (db : Db) (payments : Table Payment)
    (now : Instant) (args : RecoveryArgs) :
    recoverySlotAvailable { db with payments := payments } now args =
      recoverySlotAvailable db now args := rfl

/-- What orphan recovery does when it returns: nothing, a stamp, or the
stamp with the booking re-inserted under the payment's booking id. -/
theorem b2Recreate_ok {now : Instant} {db db' : Db} {paymentId : Id}
    {bookingId : Option Id} {s : BookingSnapshot} {kind : RecoveryKind}
    (h : b2Recreate now db paymentId bookingId s = .ok (db', kind)) :
    (kind = .alreadyRecovered ∧ db' = db) ∨
      ((∃ q, db.payments.find? paymentId = some q ∧ q.bookingRecreatedAt = none) ∧
        ((kind = .slotConflict ∧ ∃ fp hp, SameLink fp ∧
            Effect db db' db.bookings (db.payments.update paymentId fp hp) []) ∨
          (kind = .recreated ∧
            Recreated now db db' paymentId (bookingId.getD db.nextId) s ∧
            db.nextId ≤ db'.nextId ∧
            ∀ k, bookingId = some k → db'.nextId = db.nextId ∧
              ∃ fp hp, db'.payments = db.payments.update paymentId fp hp ∧
                ∀ q, (fp q).file = q.file ∧ (fp q).bookingId = some k ∧
                  (fp q).gatewayBasketId = q.gatewayBasketId ∧
                  (fp q).bookingRecreatedAt = some now ∧ (fp q).amount = q.amount))) := by
  unfold b2Recreate at h
  split at h
  · obtain ⟨rfl, rfl⟩ := Prod.mk.inj (Except.ok.inj h)
    exact Or.inl ⟨rfl, rfl⟩
  · rename_i q hq
    rw [Option.filter_eq_some_iff] at hq
    refine Or.inr ⟨⟨q, hq.1, of_decide_eq_true hq.2⟩, ?_⟩
    simp only [recoverySlotAvailable_payments] at h
    split at h
    · obtain ⟨rfl, rfl⟩ := Prod.mk.inj (Except.ok.inj h)
      refine Or.inl ⟨rfl, Payment.stampRecreated now, fun _ => rfl,
        ⟨fun _ => rfl, fun _ => rfl, fun _ => rfl, fun _ => rfl⟩, rfl, rfl, .none rfl, rfl,
        rfl⟩
    · rename_i hslot
      simp only [bind_eq_ok, ensure_eq_ok, pure_eq_ok] at h
      obtain ⟨db₁, hins, _, _, db₂, hred, heq⟩ := h
      obtain ⟨rfl, rfl⟩ := Prod.mk.inj heq
      obtain ⟨href, hkey, _, bookings, hin, rfl⟩ := insertBooking_ok hins
      obtain ⟨e, honce⟩ := redeemPointsOf_effect hred
      have hf := reclaimCouponUsage_frame
        { db with
          nextId := if bookingId = none then db.nextId + 1 else db.nextId
          payments := (db.payments.update paymentId (Payment.stampRecreated now)).update
            paymentId (Payment.relink (bookingId.getD db.nextId))
          bookings := bookings } s.couponCode s.customerId
      refine Or.inr ⟨rfl, ⟨by simpa using hslot, href, hkey, ?_, ?_, ?_, ?_⟩, ?_, ?_⟩
      · rw [e.bookings.trans hf.bookings]
        exact hin
      · intro hpos e' he'
        have hl : ∀ d : Db, d.loyaltyLedger = db.loyaltyLedger → d.entries = db.entries :=
          fun d hd => congrArg (List.map LoyaltyLedger.entry) hd
        exact honce hpos e' ((congrArg (e' ∈ ·) (hl _ hf.loyaltyLedger)).mpr he')
      · have hw : Writes db _ [] := .none hf.loyaltyLedger
        exact hw.trans e.writes
      · exact e.activities.trans hf.activities
      · rw [e.nextId.trans hf.nextId]
        simp only
        split
        · exact Nat.le_succ _
        · exact le_rfl
      · rintro k rfl
        refine ⟨e.nextId.trans hf.nextId,
          fun q => (q.stampRecreated now).relink k, fun _ => rfl, ?_,
          fun q => ⟨rfl, rfl, rfl, rfl, rfl⟩⟩
        exact (e.payments.trans hf.payments).trans
          (Table.update_update _ _ (Payment.stampRecreated now) (Payment.relink k)
            (fun _ => rfl) (fun _ => rfl))

/-- What the un-cancel does when it returns. -/
theorem m6UnCancel_ok {now : Instant} {db db' : Db} {booking : Booking}
    {kind : RecoveryKind} (h : m6UnCancel now db booking = .ok (db', kind)) :
    (kind = .alreadyRecovered ∧ db' = db ∧
        ∀ x, db.bookings.find? booking.id = some x →
          ¬ (x.status = .cancelled ∧ x.cancelledBy = some .system)) ∨
      (kind = .recreated ∧
        (∃ x, db.bookings.find? booking.id = some x ∧ x.status = .cancelled ∧
          x.cancelledBy = some .system) ∧
        ∃ fb hb, Effect db db' (db.bookings.update booking.id fb hb) db.payments [] ∧
          Refiles fb (fun b => { b with status := .confirmed, bySystem := false }) ∧
          recoverySlotAvailable db' now
            ⟨booking.activityId, booking.unitNumber, booking.startDatetime,
              booking.endDatetime, booking.guests, some booking.id⟩ = true) := by
  unfold m6UnCancel at h
  split at h
  · rename_i hnone
    obtain ⟨rfl, rfl⟩ := Prod.mk.inj (Except.ok.inj h)
    refine Or.inl ⟨rfl, rfl, fun x hx hc => ?_⟩
    rw [hx] at hnone
    simp [hc] at hnone
  · rename_i x hx
    rw [Option.filter_eq_some_iff] at hx
    have hx' := of_decide_eq_true hx.2
    simp only [bind_eq_ok, ensure_eq_ok, pure_eq_ok] at h
    obtain ⟨_, ⟨hslot, _⟩, heq⟩ := h
    obtain ⟨rfl, rfl⟩ := Prod.mk.inj heq
    refine Or.inr ⟨rfl, ⟨x, hx.1, hx'⟩, Booking.unCancel, fun _ => rfl,
      ⟨rfl, rfl, .none rfl, rfl, rfl⟩, fun b => ?_, hslot⟩
    simp [Booking.file, Booking.core, Booking.unCancel]

/-! ## Reaping -/

/-- One claim of the reaper: nothing, or the delete of a row that is still
pending, with the points of the scan returned. -/
theorem reapOne_ok {now : Instant} {db db' : Db} {b : Booking}
    (h : reapOne now db b = .ok db') :
    ((∀ x, db.bookings.find? b.id = some x → x.status ≠ .pending) ∧ db' = db) ∨
      ((∃ x, db.bookings.find? b.id = some x ∧ x.status = .pending) ∧
        Effect db db' (db.bookings.delete b.id) db.payments
          (returnEntries b .cancelRefundUnpaid)) := by
  unfold reapOne at h
  split at h
  · rename_i hnone
    refine Or.inl ⟨fun x hx hs => ?_, (Except.ok.inj h).symm⟩
    rw [hx] at hnone
    simp [hs] at hnone
  · rename_i x hx
    rw [Option.filter_eq_some_iff] at hx
    have e₂ := (returnPointsOf_ok h).1
    have hf := refundCouponUsage_frame now
      { db with bookings := db.bookings.delete b.id } b.couponCode b.customerId
    have hw : Writes db _ [] := .none hf.loyaltyLedger
    exact Or.inr ⟨⟨x, hx.1, of_decide_eq_true hx.2⟩, e₂.bookings.trans hf.bookings,
      e₂.payments.trans hf.payments, hw.trans e₂.writes, e₂.nextId.trans hf.nextId,
      e₂.activities.trans hf.activities⟩

end Jadwal
