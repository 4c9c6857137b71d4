import Jadwal.Takedown
import Jadwal.Capacity

/-!
# What a takedown leaves behind

A call that takes an activity down is one more task of the system: its
transactions are moves on the dossiers, so the invariants of the system hold
with any number of calls in progress.  On top of them, the bookings a call has
listed cover every open booking of its activity, until something opens a booking
on an activity that is down.  Creations and recoveries can
(`takedown_complete`): neither looks at the activity in its transaction.
-/

namespace Jadwal

open Outcome

variable {G : Guard} {env : Env} {now : Instant} {db db' : Db} {chain : Option Id}

/-! ## The transactions of the cascade -/

/-- The entries of a refund in points. -/
def refundEntries (customerId bookingId : Id) (points : Cents) : List Entry :=
  if 0 < points then [⟨customerId, points, .adminRefundApproved, some bookingId⟩] else []

/-- A refund credit is no award. -/
theorem refundEntries_uncounted (customerId bookingId : Id) (points : Cents) :
    Uncounted (refundEntries customerId bookingId points) bookingId := by
  intro e he
  unfold refundEntries at he
  split at he
  · rw [List.mem_singleton.mp he]
    exact ⟨rfl, .inr rfl⟩
  · cases he

/-- A credit writes exactly its entry. -/
theorem creditRefund_entries {customerId bookingId : Id} {points : Cents}
    {actorId : Option Id} {note : String}
    (h : creditRefund db customerId bookingId points .admin actorId note = .ok db') :
    Effect db db' db.bookings db.payments (refundEntries customerId bookingId points) := by
  unfold creditRefund at h
  unfold refundEntries
  split at h
  · rename_i hpos
    simp only [bind_eq_ok, pure_eq_ok] at h
    obtain ⟨r, hr, rfl⟩ := h
    obtain ⟨_, hp⟩ := Loyalty.refund_posts hr
    rw [Loyalty.round2_toNum] at hp
    rw [if_pos hpos]
    exact hp.effect
  · rename_i hpos
    obtain rfl := Except.ok.inj h
    rw [if_neg hpos]
    exact (SameCore.refl db).effect

/-- What a cascade does to a booking it finds open: it is cancelled, its payment
settled, its points and its coupon returned. -/
structure CascadeSettles (now : Instant) (db db' : Db) (b : Booking) (q : Payment)
    (status : PaymentStatus) (es : List Entry) : Prop where
  booking : ∃ x, db.bookings.find? b.id = some x ∧ x.Open
  payment : ∃ x, db.payments.find? q.id = some x ∧ (status = .failed → x.status = .pending)
  effect : ∃ fb hb fp hp, Effect db db' (db.bookings.update b.id fb hb)
      (db.payments.update q.id fp hp) (es ++ returnEntries b .cancelRefundPaid) ∧
    Refiles fb BookingFile.cancel ∧ Settles fp status
  coupons : SameCoupons (refundCouponUsage now db b.couponCode b.customerId) db'

/-- **What the cascade does to a payment**: one settlement, with its effect on money. -/
theorem cascadeRefund_ok {c : TakedownCall} {config : LoyaltyConfig} {b : Booking}
    {q : Payment} (hq : q.status = .success ∨ q.status = .pending)
    (h : cascadeRefund now db c config b (some q) = .ok db') :
    ∃ status es fp hp, (∃ x, db.payments.find? q.id = some x ∧
        (status = .failed → x.status = .pending)) ∧
      Effect db db' db.bookings (db.payments.update q.id fp hp) es ∧ Settles fp status ∧
      SameCoupons db db' ∧
      ((q.status = .success ∧ status = .refunded ∧
          es = refundEntries b.customerId b.id (refundPointsOf config q.amount)) ∨
        (q.status = .pending ∧ status = .failed ∧ es = [])) := by
  rcases hq with hq | hq
  · simp only [cascadeRefund, hq, bind_eq_ok, orThrow_eq_ok] at h
    obtain ⟨x, hx, hcredit⟩ := h
    have e := creditRefund_entries hcredit
    refine ⟨.refunded, _, _, ?_, ⟨x, hx, by simp⟩, ⟨e.bookings, e.payments,
      ⟨e.writes.entries, e.writes.indexed, e.writes.nonzero⟩, e.nextId, e.activities⟩,
      ⟨fun _ => rfl, fun _ => rfl, fun _ => rfl, fun _ => rfl, fun _ => rfl⟩,
      ⟨(creditRefund_coupons hcredit).1, (creditRefund_coupons hcredit).2⟩,
      .inl ⟨hq, rfl, rfl⟩⟩
    exact fun _ => rfl
  · simp only [cascadeRefund, hq] at h
    obtain ⟨⟨x, hx, hpending⟩, e⟩ := flipPayment_ok h
    exact ⟨.failed, [], _, _, ⟨x, hx, fun _ => hpending⟩, e,
      ⟨fun _ => rfl, fun _ => rfl, fun _ => rfl, fun _ => rfl, fun _ => rfl⟩,
      flipPayment_coupons h, .inr ⟨hq, rfl, rfl⟩⟩

/-- **One booking of the cascade**: nothing when it is not open, and otherwise
all of it. -/
theorem cascadeCancel_ok {c : TakedownCall} {config : LoyaltyConfig} {b : Booking}
    {q : Payment} (hq : q.status = .success ∨ q.status = .pending)
    (h : cascadeCancel now db c config b (some q) = .ok db') :
    ((∀ x, db.bookings.find? b.id = some x → ¬ x.Open) ∧ db' = db) ∨
      ∃ status es, CascadeSettles now db db' b q status es ∧
        ((q.status = .success ∧ status = .refunded ∧
            es = refundEntries b.customerId b.id (refundPointsOf config q.amount)) ∨
          (q.status = .pending ∧ status = .failed ∧ es = [])) := by
  unfold cascadeCancel at h
  split at h
  · rename_i hnone
    refine .inl ⟨fun x hx hopen => ?_, (Except.ok.inj h).symm⟩
    rw [hx] at hnone
    simp [hopen] at hnone
  · rename_i x hx
    rw [Option.filter_eq_some_iff] at hx
    simp only [bind_eq_ok, pure_eq_ok] at h
    obtain ⟨db₁, hrefund, db₂, hret, rfl⟩ := h
    obtain ⟨status, es, fp, hp, hfound, e₁, hset, same, hcase⟩ := cascadeRefund_ok hq hrefund
    have e₂ := (returnPointsOf_ok hret).1
    have e₃ := refundCouponUsage_effect now db₂ b.couponCode b.customerId
    rw [e₁.bookings, e₁.payments] at e₂
    rw [e₂.bookings, e₂.payments] at e₃
    have e := (e₁.trans e₂).trans e₃
    simp only [List.append_nil] at e
    have hcoupons : SameCoupons db db₂ := same.trans (returnPointsOf_coupons hret)
    refine .inr ⟨status, es, ⟨⟨x, hx.1, of_decide_eq_true hx.2⟩, hfound,
      ⟨_, ?_, fp, hp, ⟨e.bookings, e.payments,
        ⟨e.writes.entries, e.writes.indexed, e.writes.nonzero⟩, e.nextId, e.activities⟩,
        fun _ => rfl, hset⟩, refundCouponUsage_congr hcoupons _ _⟩, hcase⟩
    exact fun _ => rfl

/-- What a cascade relies on for a booking it has listed. -/
def Listed (db : Db) (b : Booking) (q : Payment) : Prop :=
  CancelRead.Relies db ⟨b.customerId, b, some q, 0⟩

/-- A booking that was listed keeps its data. -/
theorem Listed.frozen {b : Booking} {q : Payment} (h : Listed db b q) (u : Id) :
    (db.dossier u b.id).Frozen b.core :=
  CancelRead.Relies.frozen h u

/-- The payment of a listed booking is its own. -/
theorem Listed.owns {b : Booking} {q : Payment} (h : Listed db b q) : Owns db q.id b.id := by
  obtain ⟨q', hq', own, -⟩ := CancelRead.Relies.payment h
  obtain rfl := Option.some.inj hq'
  exact own

/-- A listed payment was captured or pending. -/
theorem Listed.status {b : Booking} {q : Payment} (h : Listed db b q) :
    q.status = .success ∨ q.status = .pending := by
  obtain ⟨q', hq', -, hst⟩ := CancelRead.Relies.payment h
  obtain rfl := Option.some.inj hq'
  exact hst.symm.imp_left And.left

/-- A captured payment of a live booking stays captured. -/
theorem Listed.captured {b x : Booking} {q : Payment} (h : Listed db b q) (hf : Filed db)
    (hx : db.bookings.find? b.id = some x) (live : x.status ≠ .cancelled)
    (hq : q.status = .success) {p : Payment} (hp : db.payments.find? q.id = some p) :
    p.status = .success := by
  obtain ⟨_, q', hq', own, hread⟩ := h
  obtain rfl := Option.some.inj hq'
  obtain ⟨-, captured⟩ := hread.resolve_left (by simp [hq])
  have hpay : (db.dossier 0 b.id).payment = some p.file := by
    rw [own.dossier_payment, hp]
    rfl
  obtain ⟨f, hf', hst⟩ := (hf 0 b.id).live (dossier_of_find hx 0) live
  obtain rfl := Option.some.inj (hpay.symm.trans hf')
  exact hst.resolve_left fun hpending => ((captured 0).2 _ hpay).1 hpending.1

theorem Booking.Open.live {b : Booking} (h : b.Open) : b.status ≠ .cancelled := by
  rcases h with h | h <;> rw [h] <;> decide

/-- **A cancel of the cascade is a move.** -/
theorem CascadeSettles.steps (w : Wired db) (hf : Filed db) {b : Booking} {q : Payment}
    {status : PaymentStatus} {es : List Entry} (listed : Listed db b q)
    (guard : ∀ u, G db.balanceOf .soft (db.dossier u b.id)) (hes : Uncounted es b.id)
    (hstatus : (q.status = .success ∧ status = .refunded) ∨
      (q.status = .pending ∧ status = .failed))
    (h : CascadeSettles now db db' b q status es) : Steps G chain db db' := by
  obtain ⟨⟨x, hx, hopen⟩, ⟨p, hp, hpending⟩, ⟨fb, hb, fp, hfp, e, hfile, hset⟩, -⟩ := h
  have own := listed.owns
  have frozen := listed.frozen
  have hids : ∀ y ∈ es ++ returnEntries b .cancelRefundPaid, y.bookingId = some b.id := by
    intro y hy
    rcases List.mem_append.mp hy with hy | hy
    · exact (hes y hy).1
    · exact returnEntries_bookingId y hy
  refine e.steps w own hset.bookingId hids fun u => ?_
  have hpay : (db.dossier u b.id).payment = some p.file := by
    rw [own.dossier_payment, hp]
    rfl
  have hcore : x.core = b.core := (frozen u).2.1 _ (dossier_of_find hx u)
  rw [hp, hx, Option.map_some, Option.map_some, hset.file, hfile, Dossier.post_append,
    Dossier.post_uncounted hes, Dossier.post_return rfl (.inr rfl), ← Booking.core_dueTo,
    ← hcore]
  rcases hstatus with ⟨hs, rfl⟩ | ⟨hs, rfl⟩
  · exact .refund _ p.file x.file .refunded false hpay (dossier_of_find hx u)
      (listed.captured hf hx hopen.live hs hp) hopen.live (.inr rfl) rfl (guard u)
  · obtain ⟨f, hf', hst⟩ := (hf u _).awaited hpay (hpending rfl)
    obtain rfl := Option.some.inj ((dossier_of_find hx u).symm.trans hf')
    exact .refuse _ p.file x.file false hpay hf' (hpending rfl) hst rfl (guard u)

/-- **What an approval of the cascade does**: nothing, or one refund with its credit. -/
theorem cascadeApprove_ok {c : TakedownCall} {config : LoyaltyConfig} {b : Booking}
    {q : Payment} (h : cascadeApprove now db c config b q = .ok db') :
    db' = db ∨
      ((∃ x, db.payments.find? q.id = some x ∧ x.status = .refundPending) ∧
        SameCoupons db db' ∧
        ∃ fb hb fp hp, Effect db db' (db.bookings.update b.id fb hb)
            (db.payments.update q.id fp hp)
            (refundEntries b.customerId b.id (refundPointsOf config q.amount)) ∧
          Refiles fb id ∧ Settles fp .refunded) := by
  unfold cascadeApprove at h
  split at h
  · exact .inl (Except.ok.inj h).symm
  · rename_i x hx
    rw [Option.filter_eq_some_iff] at hx
    simp only [bind_eq_ok] at h
    obtain ⟨db₁, hupd, hcredit⟩ := h
    obtain ⟨_, e₁, _⟩ := updateBooking_ok hupd
    have e₂ := creditRefund_entries hcredit
    have hs₁ := updateBooking_coupons hupd
    have hs₂ := creditRefund_coupons hcredit
    have hw := e₁.writes.trans e₂.writes
    rw [List.nil_append] at hw
    refine .inr ⟨⟨x, hx.1, of_decide_eq_true hx.2⟩, ⟨hs₂.1.trans hs₁.1, hs₂.2.trans hs₁.2⟩,
      _, ?_, _, ?_, ⟨e₂.bookings.trans e₁.bookings, e₂.payments.trans e₁.payments,
        ⟨hw.entries, hw.indexed, hw.nonzero⟩, e₂.nextId.trans e₁.nextId,
        e₂.activities.trans e₁.activities⟩, fun _ => rfl,
      ⟨fun _ => rfl, fun _ => rfl, fun _ => rfl, fun _ => rfl, fun _ => rfl⟩⟩
    all_goals exact fun _ => rfl

/-- **An approval of the cascade is a move.** -/
theorem cascadeApprove_steps (w : Wired db) {c : TakedownCall} {config : LoyaltyConfig}
    {b : Booking} {q : Payment} (own : Owns db q.id b.id)
    (h : cascadeApprove now db c config b q = .ok db') : Steps G chain db db' := by
  rcases cascadeApprove_ok h with rfl | ⟨⟨p, hp, hqueued⟩, -, fb, hb, fp, hfp, e, hfb, hset⟩
  · exact .refl w
  have hes := refundEntries_uncounted b.customerId b.id (refundPointsOf config q.amount)
  refine e.steps w own hset.bookingId (fun x hx => (hes x hx).1) fun u => ?_
  have hpay : (db.dossier u b.id).payment = some p.file := by
    rw [own.dossier_payment, hp]
    rfl
  have hsame : (db.bookings.find? b.id).map (fun b => (fb b).file) =
      (db.dossier u b.id).booking := by
    rw [Db.dossier_booking]
    exact congrArg (Option.map · _) (funext hfb)
  rw [Dossier.post_uncounted hes, hp, Option.map_some, hset.file, hsame]
  exact .decide _ p.file .refunded hpay hqueued (.inl rfl)

/-! ## What every transaction keeps -/

/-- The entries that credit a booking's refund as points. -/
def Db.refundCredits (db : Db) (bookingId : Id) : List Entry :=
  db.entries.filter (fun e => e.bookingId = some bookingId ∧
    (e.source = .vendorRefundApproved ∨ e.source = .adminRefundApproved))

/-- The booking is cancelled, and not by the system. -/
def Dossier.Dead (d : Dossier) : Prop :=
  ∃ b ∈ d.booking, b.status = .cancelled ∧ b.bySystem = false

/-- The payment is refunded. -/
def Dossier.Refunded (d : Dossier) : Prop := ∃ p ∈ d.payment, p.status = .refunded

/-- A dossier that is dead stays dead. -/
theorem Dossier.Dead.step {u : Id} {balance : Id → Cents} {d d' : Dossier} (h : d.Dead)
    (m : Move liveDelete chain u balance d d') : d'.Dead := by
  obtain ⟨f, hf, dead, unsystem⟩ := h
  cases m <;>
    simp only [Dossier.Dead, Dossier.blank, liveDelete, Option.mem_def, Option.some.injEq,
      exists_eq_left', reduceCtorEq] at * <;>
    grind [BookingFile.Live, BookingFile.Booked]

/-- A refund is never taken back. -/
theorem Dossier.Refunded.step {u : Id} {balance : Id → Cents} {d d' : Dossier}
    (hs : d.Sound) (h : d.Refunded) (m : Move liveDelete chain u balance d d') :
    d'.Refunded := by
  obtain ⟨f, hf, refunded⟩ := h
  cases m with
  | purge _ b hb guard =>
      -- a booking that stands has a payment that is pending or captured
      obtain ⟨p, hp, hst⟩ := hs.live hb (guard rfl b hb)
      obtain rfl := Option.some.inj (hp.symm.trans hf)
      rcases hst with ⟨hst, -⟩ | hst <;>
      · rw [refunded] at hst
        cases hst
  | _ =>
      obtain ⟨_, pending, reserved, booked, _, _⟩ := hs
      simp only [Dossier.Refunded, Dossier.blank, Option.mem_def, Option.some.injEq,
        exists_eq_left', reduceCtorEq] at * <;>
      grind [BookingFile.Live, BookingFile.Booked]

/-- The columns a takedown selects a booking by. -/
def Booking.slot (b : Booking) : Id × Id × Instant := (b.id, b.activityId, b.startDatetime)

/-- Every open booking was open before, or is on the activity that was opened. -/
def KeepsOpen (opened : Option Id) (bs bs' : Table Booking) : Prop :=
  ∀ b' ∈ bs'.rows, b'.Open → opened = some b'.activityId ∨
    ∃ b ∈ bs.rows, b.Open ∧ b.slot = b'.slot

theorem KeepsOpen.refl (opened : Option Id) (bs : Table Booking) : KeepsOpen opened bs bs :=
  fun b hb hopen => .inr ⟨b, hb, hopen, rfl⟩

/-- Deleting bookings opens none. -/
theorem KeepsOpen.deleteMany {bs : Table Booking} {p : Booking → Bool} :
    KeepsOpen none bs (bs.deleteMany p) :=
  fun b hb hopen => .inr ⟨b, (Table.mem_deleteMany.mp hb).1, hopen, rfl⟩

/-- An update that leaves every row it touches open where it was, or not open. -/
theorem KeepsOpen.updateMany {bs : Table Booking} {p : Booking → Bool}
    {f : Booking → Booking} {hf : ∀ b, Keyed.key (f b) = Keyed.key b}
    (h : ∀ b ∈ bs.rows, p b = true → (f b).Open → b.Open ∧ (f b).slot = b.slot) :
    KeepsOpen none bs (bs.updateMany p f hf) := by
  intro b' hb' hopen
  obtain ⟨b, hb, rfl⟩ := Table.mem_updateMany.mp hb'
  by_cases hp : p b = true
  · rw [if_pos hp] at hopen ⊢
    obtain ⟨hold, hslot⟩ := h b hb hp hopen
    exact .inr ⟨b, hb, hold, hslot.symm⟩
  · rw [if_neg hp] at hopen ⊢
    exact .inr ⟨b, hb, hopen, rfl⟩

/-- A new booking opens its own activity only. -/
theorem KeepsOpen.append {bs bs' : Table Booking} {b : Booking}
    (h : bs'.rows = bs.rows ++ [b]) : KeepsOpen (some b.activityId) bs bs' := by
  intro b' hb' hopen
  rw [h, List.mem_append, List.mem_singleton] at hb'
  rcases hb' with hb' | rfl
  · exact .inr ⟨b', hb', hopen, rfl⟩
  · exact .inl rfl

/-- A row that is cancelled is not open. -/
theorem KeepsOpen.cancel {bs : Table Booking} {k : Id} {f : Booking → Booking}
    {hf : ∀ b, Keyed.key (f b) = Keyed.key b} (h : Refiles f BookingFile.cancel) :
    KeepsOpen none bs (bs.update k f hf) := by
  refine .updateMany fun b _ _ hopen => ?_
  have hdead : (f b).status = .cancelled := congrArg BookingFile.status (h b)
  exact absurd hdead hopen.live

/-- Updates that keep the status and the columns keep what is open. -/
theorem KeepsOpen.update {bs : Table Booking} {k : Id} {f : Booking → Booking}
    {hf : ∀ b, Keyed.key (f b) = Keyed.key b}
    (h : ∀ b, (f b).status = b.status ∧ (f b).core = b.core) :
    KeepsOpen none bs (bs.update k f hf) := by
  refine .updateMany fun b _ _ hopen => ⟨?_, ?_⟩
  · rwa [Booking.Open, (h b).1] at hopen
  · have hslot := congrArg Booking.slot (h b).2
    exact hslot

/-- What a task of the system does to open bookings and refunds: it opens at most
the one activity, and credits no refund. -/
structure Passes (opened : Option Id) (db db' : Db) : Prop where
  keeps : KeepsOpen opened db.bookings db'.bookings
  credits : ∀ k, db'.refundCredits k = db.refundCredits k
  activities : db'.activities = db.activities

theorem Passes.refl (opened : Option Id) (db : Db) : Passes opened db db :=
  ⟨.refl opened _, fun _ => rfl, rfl⟩

/-- Entries of other sources are no refund credits. -/
theorem Writes.refundCredits {es : List Entry} (h : Writes db db' es)
    (hes : ∀ e ∈ es, e.source ≠ .vendorRefundApproved ∧ e.source ≠ .adminRefundApproved)
    (k : Id) : db'.refundCredits k = db.refundCredits k := by
  rw [Db.refundCredits, h.entries, List.filter_append, Db.refundCredits]
  have hnil : es.filter (fun e => e.bookingId = some k ∧
      (e.source = .vendorRefundApproved ∨ e.source = .adminRefundApproved)) = [] := by
    refine List.filter_eq_nil_iff.mpr fun e he => ?_
    simp [hes e he]
  rw [hnil, List.append_nil]

/-- The entries of a return name its source. -/
theorem returnEntries_source {b : Booking} {source : LoyaltyLedgerSource} :
    ∀ e ∈ returnEntries b source, e.source = source := by
  intro e he
  unfold returnEntries at he
  split at he
  · rw [List.mem_singleton.mp he]
  · cases he

/-- The entries of a redemption name theirs. -/
theorem redeemEntries_source {b : Booking} :
    ∀ e ∈ redeemEntries b, e.source = .bookingRedeem := by
  intro e he
  unfold redeemEntries at he
  split at he
  · rw [List.mem_singleton.mp he]
  · cases he

/-- An effect that credits no refund. -/
theorem Effect.passes {bs : Table Booking} {ps : Table Payment} {es : List Entry}
    {opened : Option Id} (e : Effect db db' bs ps es)
    (hes : ∀ x ∈ es, x.source ≠ .vendorRefundApproved ∧ x.source ≠ .adminRefundApproved)
    (h : KeepsOpen opened db.bookings bs) : Passes opened db db' :=
  ⟨e.bookings ▸ h, e.writes.refundCredits hes, e.activities⟩

/-- A return of a cancellation is no refund credit. -/
theorem returnEntries_uncredited {b : Booking} {source : LoyaltyLedgerSource}
    (hs : source = .cancelRefundUnpaid ∨ source = .cancelRefundPaid) :
    ∀ e ∈ returnEntries b source,
      e.source ≠ .vendorRefundApproved ∧ e.source ≠ .adminRefundApproved := by
  intro e he
  rw [returnEntries_source e he]
  rcases hs with rfl | rfl <;> decide

/-! ## The tasks of the system -/

/-- The activity a task opens a booking on. -/
def Task.opens : Task → Option Id
  | .create p _ => some p.dto.activityId
  | .recreate _ _ _ s => some s.activityId
  | _ => none

/-- A creation opens the activity it is for, and credits no refund. -/
theorem createBookingTx_passes {p : PreparedBooking} {ref : String} {b : Booking}
    (h : createBookingTx env now db p ref = .ok (db', b)) :
    Passes (some p.dto.activityId) db db' := by
  obtain ⟨unit, q, c⟩ := createBookingTx_created h
  have hactivity : b.activityId = p.dto.activityId := by
    rw [c.booking]
    rfl
  refine ⟨hactivity ▸ .append c.stored.bookings, c.stored.writes.refundCredits fun e he => ?_,
    c.stored.activities⟩
  rw [redeemEntries_source e he]
  decide

/-- A success opens nothing and credits no refund. -/
theorem settleSuccess_passes (w : Wired db) (hf : Filed db) {payment : Payment} {k : Id}
    {params : CallbackParams} (hk : payment.bookingId = some k) (own : Owns db payment.id k)
    {s : Settled} (h : settleSuccess now db payment params = .ok s) :
    Passes none db s.db := by
  rcases settleSuccess_ok h with ⟨hdb, -⟩ | ⟨⟨q, hq, unpaid⟩, k', fp, hp, hk', _, hcase⟩
  · rw [hdb]
    exact .refl _ _
  obtain rfl := Option.some.inj (hk.symm.trans hk')
  obtain ⟨_, _, e⟩ | ⟨_, _, _, _, e⟩ | ⟨b, fb, hb, hfound, live, _, hfb, _, e⟩ := hcase
  · exact e.passes (by simp) (.refl _ _)
  · exact e.passes (by simp) (.refl _ _)
  -- the booking of an unpaid payment is pending
  obtain ⟨q', _, own', hq', _, hst⟩ := hf.payment_of_live w hfound live
  have hsame : q'.id = payment.id :=
    (own.iff q' (Table.find?_eq_some.mp hq').1).mpr
      ((own'.iff q' (Table.find?_eq_some.mp hq').1).mp rfl)
  obtain rfl : q = q' := by
    rw [hsame, hq] at hq'
    exact Option.some.inj hq'
  have hpending : b.status = .pending := by
    rcases hst with ⟨_, hst⟩ | hst
    · exact hst
    · rcases unpaid with h | h <;>
      · rw [hst] at h
        cases h
  refine e.passes (by simp) (.updateMany fun x hx hkey _ => ⟨?_, ?_⟩)
  · have hrow : x = b := by
      have hfind := Table.find?_key hx
      rw [of_decide_eq_true hkey, hfound] at hfind
      exact (Option.some.inj hfind).symm
    rw [hrow]
    exact .inl hpending
  · have hslot := congrArg (fun f : BookingFile => f.core.slot) (hfb x)
    exact hslot

/-- Neither does a failure. -/
theorem settleFailure_passes {payment : Payment} {s : Settled}
    (h : settleFailure now db payment = .ok s) : Passes none db s.db := by
  rcases settleFailure_ok h with ⟨hdb, -⟩ | ⟨_, _, fp, hp, _, ⟨_, e⟩ | ⟨k, doomed, _, _, e⟩⟩
  · rw [hdb]
    exact .refl _ _
  · exact e.passes (by simp) (.refl _ _)
  · exact e.passes (returnEntries_uncredited (.inl rfl)) .deleteMany

/-- A recovery opens the activity of its snapshot, and credits no refund. -/
theorem b2Recreate_passes {pid : Id} {bookingId : Option Id} {s : BookingSnapshot}
    {kind : RecoveryKind} (h : b2Recreate now db pid bookingId s = .ok (db', kind)) :
    Passes (some s.activityId) db db' := by
  rcases b2Recreate_ok h with ⟨_, rfl⟩ | ⟨_, ⟨_, _, _, _, e⟩ | ⟨_, hrec, _⟩⟩
  · exact .refl _ _
  · exact e.passes (by simp) (.refl _ _)
  · refine ⟨.append (Table.insert?_eq_some.mp hrec.inserted).2,
      hrec.writes.refundCredits fun e he => ?_, hrec.activities⟩
    rw [redeemEntries_source e he]
    decide

/-- Nothing is cancelled by the system, so there is nothing to un-cancel. -/
theorem m6UnCancel_passes (unsystem : ∀ u k, (db.dossier u k).Unsystem) {b : Booking}
    {kind : RecoveryKind} (h : m6UnCancel now db b = .ok (db', kind)) :
    Passes none db db' := by
  rcases m6UnCancel_ok h with ⟨_, rfl, _⟩ | ⟨_, ⟨x, hx, _, hsys⟩, _⟩
  · exact .refl _ _
  · have hnot : x.file.bySystem = false := unsystem 0 _ _ (dossier_of_find hx 0)
    simp [Booking.file, hsys] at hnot

/-- A cancellation opens nothing and credits no refund. -/
theorem SoftCancelled.passes {r : CancelRead} {pid : Id} {expected status : PaymentStatus}
    {source : LoyaltyLedgerSource} (h : SoftCancelled db db' r pid expected status source)
    (hs : source = .cancelRefundUnpaid ∨ source = .cancelRefundPaid) : Passes none db db' := by
  obtain ⟨fb, hb, fp, hp, e, hfile, _⟩ := h.effect
  exact e.passes (returnEntries_uncredited hs) (.cancel hfile)

theorem cancelCommit_passes {r : CancelRead} (h : cancelCommit now db r = .ok db') :
    Passes none db db' := by
  unfold cancelCommit at h
  split at h
  · exact (cancelPointsOnly_ok h).passes (.inr rfl)
  · exact (cancelPaid_ok h).passes (.inr rfl)
  · exact (cancelInFlight_ok h).passes (.inl rfl)
  · obtain ⟨_, e⟩ := cancelHardDelete_ok h
    exact e.passes (returnEntries_uncredited (.inl rfl)) .deleteMany

theorem otpStamp_passes {bookingId : Id} {user : Option Id}
    (h : otpStamp now db bookingId user = .ok db') : Passes none db db' := by
  simp only [otpStamp, bind_eq_ok, pure_eq_ok] at h
  obtain ⟨db₁, hupd, rfl⟩ := h
  obtain ⟨_, e, _⟩ := updateBooking_ok hupd
  have hpasses := e.passes (by simp) (.update fun _ => ⟨rfl, rfl⟩)
  exact ⟨hpasses.keeps, hpasses.credits, hpasses.activities⟩

theorem initiateWrite_passes {r : InitiateRead} {basketId : String}
    (h : initiateWrite now db r basketId = .ok db') : Passes none db db' := by
  simp only [initiateWrite, bind_eq_ok, orThrow_eq_ok, ensure_eq_ok, pure_eq_ok] at h
  obtain ⟨_, _, _, _, _, _, rfl⟩ := h
  exact ⟨.refl _ _, fun _ => rfl, rfl⟩

theorem holdNapsSuccess_passes (bookingId : Option Id) :
    Passes none db (holdNapsSuccess now db bookingId) := by
  refine ⟨?_, fun _ => rfl, rfl⟩
  exact @KeepsOpen.updateMany _ _ (Booking.holdUntil (now + 30 * minute)) (fun _ => rfl)
    fun _ _ _ hopen => ⟨hopen, rfl⟩

/-- Neither does the reaper. -/
theorem reapStale_passes {stale : List Booking} (h : reapStale now db stale = .ok db') :
    Passes none db db' := by
  obtain ⟨claimed, hr, -⟩ := @reapStale_reaps db now stale
  rw [h] at hr
  have hbookings := hr.deleted
  have hact := reapStale_activities h
  simp only [reapStale, bind_eq_ok, pure_eq_ok] at h
  obtain ⟨db₁, h₁, rfl⟩ := h
  refine ⟨hbookings ▸ .deleteMany, fun k => ?_, hact⟩
  change db₁.refundCredits k = db.refundCredits k
  refine forEach_invariant (fun x : Db => x.refundCredits k = db.refundCredits k)
    (fun b _ x x' hx hb => ?_) h₁ rfl
  rcases reapOne_ok hb with ⟨_, rfl⟩ | ⟨_, e⟩
  · exact hx
  · exact (e.writes.refundCredits (returnEntries_uncredited (.inl rfl)) k).trans hx

/-- **What a task opens, and what it credits**: a creation and an orphan recovery
open a booking on their activity, and nothing else opens or credits anything. -/
theorem Task.run_passes (w : Wired db) (hf : Filed db)
    (unsystem : ∀ u k, (db.dossier u k).Unsystem) {t : Task} (books : t.Books)
    (relies : t.Relies db) : Passes t.opens db (t.run env now db).1 := by
  have hcommitted : ∀ tx : Tx Db, (∀ db', tx = .ok db' → Passes none db db') →
      Passes none db (committed db tx) := by
    intro tx h
    cases tx with
    | error e => exact .refl _ _
    | ok db' => exact h db' rfl
  cases t with
  | create p ref =>
      simp only [Task.run]
      split
      · exact .refl _ _
      · rename_i htx
        exact createBookingTx_passes htx
  | stampOtp bookingId user => exact hcommitted _ fun _ h => otpStamp_passes h
  | initiate r basketId => exact hcommitted _ fun _ h => initiateWrite_passes h
  | hold bookingId => exact holdNapsSuccess_passes bookingId
  | settle payment params isSuccess =>
      obtain ⟨k, hk, own⟩ := relies
      simp only [Task.run]
      split
      · exact .refl _ _
      · rename_i htx
        cases isSuccess with
        | true => exact settleSuccess_passes w hf hk own htx
        | false => exact settleFailure_passes htx
  | b2Check p | m6Check p k =>
      simp only [Task.run]
      split <;> exact .refl _ _
  | recreate p amount bookingId s =>
      simp only [Task.run]
      split
      · exact .refl _ _
      · rename_i htx
        exact b2Recreate_passes htx
      · rename_i htx
        exact b2Recreate_passes htx
  | unCancel p b =>
      simp only [Task.run]
      split
      · exact .refl _ _
      · rename_i htx
        exact m6UnCancel_passes unsystem htx
  | queueRefund p amount => exact ⟨.refl _ _, fun _ => rfl, rfl⟩
  | cancel r => exact hcommitted _ fun _ h => cancelCommit_passes h
  | reap stale => exact hcommitted _ fun _ h => reapStale_passes h
  | _ => cases books

/-! ## Calls in progress -/

/-- The bookings a call has listed and not visited; nothing before it has read. -/
def TakedownStage.unvisited : TakedownStage → Option (List (Booking × Option Payment))
  | .flipped => none
  | .listed todo => some todo
  | .cancelling _ todo => some todo
  | .refunding _ _ => some []
  | .returned => some []

/-- The queued refunds a call has read and not visited. -/
def TakedownStage.queue : TakedownStage → List (Booking × Payment)
  | .refunding _ todo => todo
  | _ => []

/-- The booking is open on the activity, and has not started by the clock of the
call. -/
structure Takedown.Ahead (env : Env) (now : Instant) (db : Db) (d : Takedown) (b : Booking) :
    Prop where
  row : b ∈ db.bookings.rows
  isOpen : b.Open
  activity : b.activityId = d.call.activityId
  start : nowInTimezone env d.tz now ≤ b.startDatetime

/-- What stays of a booking the cascade has cancelled. -/
structure Cascaded.Holds (db : Db) (c : Cascaded) : Prop where
  frozen : ∀ u, (db.dossier u c.booking.id).Frozen c.booking.core
  dead : (db.dossier 0 c.booking.id).Dead
  refunded : ∀ q ∈ c.payment, q.status = .success → Owns db q.id c.booking.id ∧
    (db.dossier 0 c.booking.id).Refunded ∧
    db.refundCredits c.booking.id = refundEntries c.booking.customerId c.booking.id
      (refundPointsOf c.config q.amount)

/-- What a call in progress relies on, and what it guarantees: the bookings it
still has to visit cover those that are ahead. -/
structure Takedown.Holds (env : Env) (now : Instant) (db : Db) (d : Takedown) : Prop where
  relies : ∀ todo ∈ d.stage.unvisited, ∀ e ∈ todo, ∃ q, e.2 = some q ∧ Listed db e.1 q
  queued : ∀ e ∈ d.stage.queue, Owns db e.2.id e.1.id
  down : d.reopened = false →
    ∃ x, db.activities.find? d.call.activityId = some x ∧ x.status ≠ .active
  covers : d.failed = 0 → d.reopened = false → ∀ todo ∈ d.stage.unvisited, ∀ b,
    d.Ahead env now db b → ∃ e ∈ todo, e.1.id = b.id
  cancelled : ∀ c ∈ d.cancelled, c.Holds db

/-- A booking stays listed while the platform goes on. -/
theorem Listed.step {b : Booking} {q : Payment} (h : Listed db b q)
    (st : Steps G chain db db') : Listed db' b q := by
  have hr : (Task.cancel ⟨b.customerId, b, some q, 0⟩).Relies db := h
  exact hr.step st fun p hp => by cases hp

/-- What the cascade has cancelled stays cancelled. -/
theorem Cascaded.Holds.step {c : Cascaded} (h : c.Holds db) (hf : Filed db)
    (st : Steps liveDelete chain db db')
    (hcredits : ∀ k, (db.dossier 0 k).Refunded → db'.refundCredits k = db.refundCredits k) :
    c.Holds db' := by
  refine ⟨fun u => (h.frozen u).step (st.moves u _), h.dead.step (st.moves 0 _),
    fun q hq hs => ?_⟩
  obtain ⟨own, refunded, credits⟩ := h.refunded q hq hs
  exact ⟨own.step st.grows, refunded.step (hf 0 _) (st.moves 0 _),
    (hcredits _ refunded).trans credits⟩

/-- **What a call relies on survives every transaction** that opens no booking on
its activity. -/
theorem Takedown.Holds.step {now' : Instant} {d : Takedown} (h : d.Holds env now db)
    (hf : Filed db) (st : Steps liveDelete chain db db')
    (hclock : nowInTimezone env d.tz now ≤ nowInTimezone env d.tz now')
    (hdown : d.reopened = false →
      ∃ x, db'.activities.find? d.call.activityId = some x ∧ x.status ≠ .active)
    (hkeeps : d.reopened = false → ∀ b' ∈ db'.bookings.rows, b'.Open →
      b'.activityId = d.call.activityId → ∃ b ∈ db.bookings.rows, b.Open ∧ b.slot = b'.slot)
    (hcredits : ∀ k, (db.dossier 0 k).Refunded → db'.refundCredits k = db.refundCredits k) :
    d.Holds env now' db' := by
  refine ⟨fun todo htodo e he => ?_, fun e he => (h.queued e he).step st.grows, hdown,
    fun hok hdownOnly todo htodo b' hb' => ?_,
    fun c hc => (h.cancelled c hc).step hf st hcredits⟩
  · obtain ⟨q, hq, hlisted⟩ := h.relies todo htodo e he
    exact ⟨q, hq, hlisted.step st⟩
  · obtain ⟨b, hb, hopen, hslot⟩ := hkeeps hdownOnly b' hb'.row hb'.isOpen hb'.activity
    simp only [Booking.slot, Prod.mk.injEq] at hslot
    obtain ⟨hid, hactivity, hstart⟩ := hslot
    have hahead : d.Ahead env now db b :=
      ⟨hb, hopen, hactivity.trans hb'.activity, hstart ▸ hclock.trans hb'.start⟩
    obtain ⟨e, he, heq⟩ := h.covers hok hdownOnly todo htodo b hahead
    exact ⟨e, he, heq.trans hid⟩

/-- What a transaction of a call does. -/
structure Cascades (db db' : Db) : Prop where
  steps : Steps liveDelete none db db'
  keeps : KeepsOpen none db.bookings db'.bookings
  activities : db'.activities = db.activities
  credits : ∀ k, db'.refundCredits k = db.refundCredits k ∨
    (¬ (db.dossier 0 k).Refunded ∧ (db'.dossier 0 k).Refunded ∧
      ∃ es, es.length ≤ 1 ∧ db'.refundCredits k = db.refundCredits k ++ es)
  counts : ∀ exact, Counts exact db.coupons (usesOf db.bookings) →
    Counts exact db'.coupons (usesOf db'.bookings)

theorem Cascades.refl (w : Wired db) : Cascades db db :=
  ⟨.refl w, .refl _ _, rfl, fun _ => .inl rfl, fun _ h => h⟩

/-- A refund is one credit at most. -/
theorem refundEntries_length (customerId k : Id) (points : Cents) :
    (refundEntries customerId k points).length ≤ 1 := by
  unfold refundEntries
  split <;> simp

/-- The credits after a refund. -/
theorem Writes.refundCredits_refund {customerId k : Id} {points : Cents} {es : List Entry}
    (h : Writes db db' (refundEntries customerId k points ++ es))
    (hes : ∀ e ∈ es, e.source ≠ .vendorRefundApproved ∧ e.source ≠ .adminRefundApproved)
    (j : Id) : db'.refundCredits j = db.refundCredits j ++
      if j = k then refundEntries customerId k points else [] := by
  have hnil : es.filter (fun e => e.bookingId = some j ∧
      (e.source = .vendorRefundApproved ∨ e.source = .adminRefundApproved)) = [] := by
    refine List.filter_eq_nil_iff.mpr fun e he => ?_
    simp [hes e he]
  rw [Db.refundCredits, h.entries, List.filter_append, List.filter_append, hnil,
    List.append_nil, Db.refundCredits]
  refine congrArg _ ?_
  unfold refundEntries
  by_cases hj : j = k
  · subst hj
    split <;> simp
  · split <;> simp [Ne.symm hj]

/-- The file of a payment a transaction has settled. -/
theorem Owns.dossier_settled {pid k : Id} (own : Owns db' pid k) {fp : Payment → Payment}
    {hp : ∀ q, Keyed.key (fp q) = Keyed.key q} {status : PaymentStatus}
    (hpay : db'.payments = db.payments.update pid fp hp) (hset : Settles fp status)
    {p : Payment} (hfind : db.payments.find? pid = some p) (u : Id) :
    ∃ f, (db'.dossier u k).payment = some f ∧ f.status = status := by
  refine ⟨(fp p).file, ?_, by rw [hset.file]⟩
  rw [own.dossier_payment, hpay, Table.find?_update, if_pos rfl, hfind]
  rfl

/-- A payment in another status has not been refunded. -/
theorem not_refunded {k : Id} {f : PaymentFile} (hf : (db.dossier 0 k).payment = some f)
    (hs : f.status ≠ .refunded) : ¬ (db.dossier 0 k).Refunded := by
  rintro ⟨f', hf', hs'⟩
  obtain rfl := Option.some.inj (hf.symm.trans hf')
  exact hs hs'

/-- **A cancel of the cascade refunds once**: the payment was captured, so nothing
had been credited, and it is refunded now. -/
theorem CascadeSettles.cascades (w : Wired db) (hf : Filed db) {b : Booking} {q : Payment}
    {status : PaymentStatus} {es : List Entry} {config : LoyaltyConfig}
    (listed : Listed db b q) (h : CascadeSettles now db db' b q status es)
    (hcase : (q.status = .success ∧ status = .refunded ∧
        es = refundEntries b.customerId b.id (refundPointsOf config q.amount)) ∨
      (q.status = .pending ∧ status = .failed ∧ es = []))
    (hcredited : ¬ (db.dossier 0 b.id).Refunded → db.refundCredits b.id = []) :
    Cascades db db' ∧ (Cascaded.mk config b (some q)).Holds db' := by
  have hes : Uncounted es b.id := by
    rcases hcase with ⟨_, _, rfl⟩ | ⟨_, _, rfl⟩
    · exact refundEntries_uncounted _ _ _
    · simp [Uncounted]
  have st : Steps liveDelete none db db' :=
    h.steps w hf listed (fun _ he => by cases he) hes
      (hcase.imp (fun h => ⟨h.1, h.2.1⟩) (fun h => ⟨h.1, h.2.1⟩))
  obtain ⟨⟨x, hx, hopen⟩, ⟨p, hp, _⟩, ⟨fb, hb, fp, hfp, e, hfile, hset⟩, hcoupons⟩ := h
  have own := listed.owns
  have frozen := listed.frozen
  have hpay : (db.dossier 0 b.id).payment = some p.file := by
    rw [own.dossier_payment, hp]
    rfl
  have own' := own.step st.grows
  obtain ⟨f, hf', hfs⟩ := own'.dossier_settled e.payments hset hp 0
  have hnone : q.status = .success → ¬ (db.dossier 0 b.id).Refunded := fun hs =>
    not_refunded hpay (by
      have : p.file.status = .success := listed.captured hf hx hopen.live hs hp
      rw [this]
      decide)
  have hstatus : q.status = .success → status = .refunded := by
    intro hs
    rcases hcase with ⟨_, h, _⟩ | ⟨h, _, _⟩
    · exact h
    · rw [hs] at h
      cases h
  have hcredits : ∀ k, db'.refundCredits k = db.refundCredits k ++
      if k = b.id ∧ q.status = .success then
        refundEntries b.customerId b.id (refundPointsOf config q.amount) else [] := by
    intro k
    rcases hcase with ⟨hs, _, rfl⟩ | ⟨hs, _, rfl⟩
    · have := e.writes.refundCredits_refund (returnEntries_uncredited (.inr rfl)) k
      simpa [hs] using this
    · have := e.writes.refundCredits (returnEntries_uncredited (.inr rfl)) k
      simpa [hs] using this
  refine ⟨⟨st, e.bookings ▸ .cancel hfile, e.activities, fun k => ?_, fun exact hcount => ?_⟩,
    fun u => (frozen u).step (st.moves u _), ?_, ?_⟩
  · by_cases hk : k = b.id ∧ q.status = .success
    · obtain ⟨rfl, hs⟩ := hk
      refine .inr ⟨hnone hs, ⟨f, hf', hfs.trans (hstatus hs)⟩,
        refundEntries b.customerId b.id (refundPointsOf config q.amount),
        refundEntries_length _ _ _, ?_⟩
      rw [hcredits, if_pos ⟨rfl, hs⟩]
    · left
      rw [hcredits, if_neg hk, List.append_nil]
  · have hdead : ∀ y, (fb y).status = .cancelled :=
      fun y => congrArg BookingFile.status (hfile y)
    rw [hcoupons.1, e.bookings, uses_cancel hdead]
    exact hcount.refund (.inl (usesBy_read hx hopen.live frozen))
  · refine ⟨(fb x).file, ?_, ?_⟩
    · rw [Option.mem_def, Db.dossier_booking, e.bookings, Table.find?_update, if_pos rfl, hx]
      rfl
    · rw [hfile]
      exact ⟨rfl, rfl⟩
  · intro q' hq' hs
    obtain rfl := Option.some.inj hq'
    refine ⟨own', ⟨f, hf', hfs.trans (hstatus hs)⟩, ?_⟩
    rw [hcredits, if_pos ⟨rfl, hs⟩, hcredited (hnone hs), List.nil_append]

/-- **So does an approval**, of a refund that was queued. -/
theorem cascadeApprove_cascades (w : Wired db) {c : TakedownCall} {config : LoyaltyConfig}
    {b : Booking} {q : Payment} (own : Owns db q.id b.id)
    (h : cascadeApprove now db c config b q = .ok db') : Cascades db db' := by
  have st : Steps liveDelete none db db' := cascadeApprove_steps w own h
  rcases cascadeApprove_ok h with rfl | ⟨⟨p, hp, hqueued⟩, same, fb, hb, fp, hfp, e, hfb, hset⟩
  · exact .refl w
  have hpay : (db.dossier 0 b.id).payment = some p.file := by
    rw [own.dossier_payment, hp]
    rfl
  obtain ⟨f, hf', hfs⟩ := (own.step st.grows).dossier_settled e.payments hset hp 0
  have hw := e.writes
  rw [← List.append_nil (refundEntries _ _ _)] at hw
  have hcredits := hw.refundCredits_refund (by simp)
  refine ⟨st, e.bookings ▸ .update fun y => ?_, e.activities, fun k => ?_,
    fun exact hcount => ?_⟩
  · have hfile := hfb y
    exact ⟨congrArg BookingFile.status hfile, congrArg BookingFile.core hfile⟩
  · by_cases hk : k = b.id
    · subst hk
      refine .inr ⟨not_refunded hpay ?_, ⟨f, hf', hfs⟩,
        refundEntries b.customerId b.id (refundPointsOf config q.amount),
        refundEntries_length _ _ _, ?_⟩
      · have : p.file.status = .refundPending := hqueued
        rw [this]
        decide
      · rw [hcredits, if_pos rfl]
    · left
      rw [hcredits, if_neg hk, List.append_nil]
  · rw [same.1, e.bookings, hfb.uses fun _ _ => rfl]
    exact hcount

/-! ## What a call reads -/

/-- The future bookings of the activity, without the cap. -/
def allFutureBookings (db : Db) (activityId : Id) (nowLocal : Instant) : List Booking :=
  db.bookings.select (fun b => b.activityId = activityId ∧ b.Open ∧
    nowLocal ≤ b.startDatetime)

/-- What the cascade lists is open, with its own payment. -/
theorem mem_futureBookings {activityId : Id} {nowLocal : Instant}
    {e : Booking × Option Payment} (h : e ∈ futureBookings db activityId nowLocal) :
    e.1 ∈ db.bookings.rows ∧ e.1.Open ∧
      e.2 = e.1.paymentId.bind (fun id => db.payments.find? id) := by
  obtain ⟨b, hb, rfl⟩ := List.mem_map.mp h
  obtain ⟨hrow, hsel⟩ := Table.mem_select.mp (List.mem_of_mem_take hb)
  exact ⟨hrow, (of_decide_eq_true hsel).2.1, rfl⟩

/-- An open booking has the payment a cancel relies on. -/
theorem Booking.Open.listed {b : Booking} (hopen : b.Open) (w : Wired db) (hf : Filed db)
    (hb : b ∈ db.bookings.rows) :
    ∃ q, b.paymentId.bind (fun id => db.payments.find? id) = some q ∧ Listed db b q := by
  have hfind : db.bookings.find? b.id = some b := Table.find?_key hb
  obtain ⟨q, hbind, own, hq, hpay, hst⟩ := hf.payment_of_live w hfind hopen.live
  refine ⟨q, hbind, fun u => (hf u _).frozen (dossier_of_find hfind u), q, rfl, own, ?_⟩
  refine hst.imp And.left fun hs =>
    ⟨hs, fun u => ⟨(hf u _).used (dossier_of_find hfind u), ?_⟩⟩
  intro p hp
  rw [Option.mem_def, hpay u, Option.some.injEq] at hp
  have hs : p.status = .success := hp ▸ hs
  refine ⟨by simp [hs], by simp [hs], fun _ x hx => ?_⟩
  rw [Option.mem_def, dossier_of_find hfind u, Option.some.injEq] at hx
  exact hx ▸ hopen.live

/-- Every booking ahead is listed, unless the list is cut. -/
theorem Takedown.Ahead.listed {d : Takedown} {b : Booking} (h : d.Ahead env now db b)
    (cap : (allFutureBookings db d.call.activityId (nowInTimezone env d.tz now)).length ≤
      cascadeMax) :
    ∃ e ∈ futureBookings db d.call.activityId (nowInTimezone env d.tz now), e.1.id = b.id := by
  refine ⟨(b, _), List.mem_map.mpr ⟨b, ?_, rfl⟩, rfl⟩
  have hall := List.take_of_length_le cap
  refine (congrArg (b ∈ ·) hall).mpr (Table.mem_select.mpr ⟨h.row, ?_⟩)
  exact decide_eq_true ⟨h.activity, h.isOpen, h.start⟩

/-- The queued refunds are of their bookings. -/
theorem queuedRefunds_owns (w : Wired db) (hf : Filed db) {activityId : Id}
    {e : Booking × Payment} (h : e ∈ queuedRefunds db activityId) : Owns db e.2.id e.1.id := by
  obtain ⟨b, hb, he⟩ := List.mem_filterMap.mp (List.mem_of_mem_take h)
  obtain ⟨hrow, hsel⟩ := Table.mem_select.mp hb
  have hcancelled := (of_decide_eq_true hsel).2
  obtain ⟨q, hq, rfl⟩ := Option.map_eq_some_iff.mp he
  obtain ⟨hq, -⟩ := Option.filter_eq_some_iff.mp hq
  have hfind : db.bookings.find? b.id = some b := Table.find?_key hrow
  obtain ⟨p, hp, -⟩ := (hf 0 b.id).cancelled _ (dossier_of_find hfind 0) hcancelled
  obtain ⟨hname, q', hq', rfl, own⟩ := hf.payment_of_booking w hfind hp
  rw [hname, Option.bind_some, hq', Option.some.injEq] at hq
  exact hq ▸ own

/-! ## One step of a call -/

/-- No refund has been credited unless the payment is refunded, and then at most
once. -/
def CreditedOnce (db : Db) : Prop :=
  ∀ k, db.refundCredits k = [] ∨
    ((db.refundCredits k).length = 1 ∧ (db.dossier 0 k).Refunded)

/-- A refund is credited once at most, whatever the step. -/
theorem CreditedOnce.step (h : CreditedOnce db) (hf : Filed db)
    (st : Steps liveDelete chain db db')
    (hcredits : ∀ k, db'.refundCredits k = db.refundCredits k ∨
      (¬ (db.dossier 0 k).Refunded ∧ (db'.dossier 0 k).Refunded ∧
        ∃ es, es.length ≤ 1 ∧ db'.refundCredits k = db.refundCredits k ++ es)) :
    CreditedOnce db' := by
  intro k
  rcases hcredits k with hsame | ⟨hnot, hnow, es, hlen, happ⟩
  · rw [hsame]
    exact (h k).imp_right fun ⟨hone, href⟩ => ⟨hone, href.step (hf 0 k) (st.moves 0 k)⟩
  · have hnil := (h k).resolve_right fun hone => hnot hone.2
    rw [happ, hnil, List.nil_append]
    cases es with
    | nil => exact .inl rfl
    | cons e es => exact .inr ⟨by simp at hlen ⊢; exact hlen, hnow⟩

/-- A call's own transaction keeps what it relies on. -/
theorem Takedown.Holds.cascades {d : Takedown} (h : d.Holds env now db) (hf : Filed db)
    (hc : Cascades db db') : d.Holds env now db' := by
  refine h.step hf hc.steps le_rfl (fun hr => ?_) (fun _ b' hb' hopen _ => ?_) fun k href => ?_
  · rw [hc.activities]
    exact h.down hr
  · exact (hc.keeps b' hb' hopen).resolve_left (by simp)
  · exact (hc.credits k).resolve_right fun hnew => hnew.1 href

/-- **A statement of a takedown** keeps what is said of it, and of money. -/
theorem Takedown.Holds.advance {d : Takedown} (h : d.Holds env now db) (w : Wired db)
    (hf : Filed db) (hcredited : CreditedOnce db)
    (cap : d.stage = .flipped → (allFutureBookings db d.call.activityId
      (nowInTimezone env d.tz now)).length ≤ cascadeMax) :
    Cascades db (d.advance env now db).1 ∧
      (d.advance env now db).2.Holds env now (d.advance env now db).1 := by
  obtain ⟨call, tz, stage, failed, cancelled, reopened⟩ := d
  cases stage with
  | flipped =>
      simp only [Takedown.advance]
      have hlisted : ∀ e ∈ futureBookings db call.activityId (nowInTimezone env tz now),
          ∃ q, e.2 = some q ∧ Listed db e.1 q := by
        intro e he
        obtain ⟨hrow, hopen, hpay⟩ := mem_futureBookings he
        obtain ⟨q, hq, hl⟩ := hopen.listed w hf hrow
        exact ⟨q, hpay.trans hq, hl⟩
      have hcovers : ∀ b, Takedown.Ahead env now db
          ⟨call, tz, .flipped, failed, cancelled, reopened⟩ b →
          ∃ e ∈ futureBookings db call.activityId (nowInTimezone env tz now),
            e.1.id = b.id := fun b hb => hb.listed (cap rfl)
      refine ⟨.refl w, ?_⟩
      split
      · rename_i hempty
        rw [List.isEmpty_iff.mp hempty] at hcovers
        exact ⟨by simp [TakedownStage.unvisited], by simp [TakedownStage.queue], h.down,
          fun _ _ todo htodo b hb => Option.some.inj htodo ▸
            hcovers b ⟨hb.row, hb.isOpen, hb.activity, hb.start⟩, h.cancelled⟩
      · exact ⟨fun todo htodo => Option.some.inj htodo ▸ hlisted,
          by simp [TakedownStage.queue], h.down,
          fun _ _ todo htodo b hb => Option.some.inj htodo ▸
            hcovers b ⟨hb.row, hb.isOpen, hb.activity, hb.start⟩, h.cancelled⟩
  | listed todo =>
      have hc : Cascades db { db with loyaltyConfig := some (db.loyaltyConfig.getD {}) } :=
        ⟨Effect.steps_none w ⟨rfl, rfl, .none rfl, rfl, rfl⟩, .refl _ _, rfl,
          fun _ => .inl rfl, fun _ h => h⟩
      have h' := h.cascades hf hc
      exact ⟨hc, h'.relies, by simp [Takedown.advance, TakedownStage.queue], h'.down,
        fun hok hr todo htodo b hb => h'.covers hok hr todo htodo b
          ⟨hb.row, hb.isOpen, hb.activity, hb.start⟩, h'.cancelled⟩
  | cancelling config todo =>
      cases todo with
      | nil =>
          exact ⟨.refl w, by simp [Takedown.advance, TakedownStage.unvisited],
            fun e he => queuedRefunds_owns w hf he, h.down,
            fun hok hr todo htodo b hb => h.covers hok hr todo htodo b
              ⟨hb.row, hb.isOpen, hb.activity, hb.start⟩, h.cancelled⟩
      | cons e todo =>
          obtain ⟨b, payment⟩ := e
          obtain ⟨q, hq, hlisted⟩ := h.relies _ rfl _ List.mem_cons_self
          dsimp only at hq hlisted
          subst hq
          simp only [Takedown.advance]
          cases htx : cascadeCancel now db call config b (some q) with
          | error message =>
              refine ⟨.refl w, fun todo' htodo e he => ?_, by simp [TakedownStage.queue], h.down,
                fun hok => absurd hok (Nat.succ_ne_zero _), h.cancelled⟩
              obtain rfl := Option.some.inj htodo
              exact h.relies _ rfl e (List.mem_cons_of_mem _ he)
          | ok db' =>
              rcases cascadeCancel_ok hlisted.status htx with ⟨hclosed, rfl⟩ |
                ⟨status, es, hsettles, hcase⟩
              · have hclaimed : (db'.bookings.find? b.id).filter (fun x => x.Open) = none :=
                  Option.filter_eq_none_iff.mpr fun x hx => by simp [hclosed x hx]
                simp only [hclaimed]
                refine ⟨.refl w, fun todo' htodo e he => ?_, by simp [TakedownStage.queue],
                  h.down, fun hok hr todo' htodo x hx => ?_, h.cancelled⟩
                · obtain rfl := Option.some.inj htodo
                  exact h.relies _ rfl e (List.mem_cons_of_mem _ he)
                · obtain rfl := Option.some.inj htodo
                  obtain ⟨e, he, hid⟩ := h.covers hok hr _ rfl x
                    ⟨hx.row, hx.isOpen, hx.activity, hx.start⟩
                  rcases List.mem_cons.mp he with rfl | he
                  · have hfind := Table.find?_key hx.row
                    exact absurd hx.isOpen (hclosed x (by rw [← hfind]; exact congrArg _ hid))
                  · exact ⟨e, he, hid⟩
              · obtain ⟨x₀, hx₀, hopen₀⟩ := hsettles.booking
                have hclaimed : ((db.bookings.find? b.id).filter (fun x => x.Open)).isSome :=
                  by simp [hx₀, hopen₀]
                have hnil : ¬ (db.dossier 0 b.id).Refunded → db.refundCredits b.id = [] :=
                  fun hnot => (hcredited b.id).resolve_right fun hone => hnot hone.2
                obtain ⟨hc, hdone⟩ := hsettles.cascades w hf hlisted hcase hnil
                have h' := h.cascades hf hc
                rw [if_pos hclaimed]
                refine ⟨hc, fun todo' htodo e he => ?_, by simp [TakedownStage.queue],
                  h'.down, fun hok hr todo' htodo x hx => ?_, fun c hc => ?_⟩
                · obtain rfl := Option.some.inj htodo
                  exact h'.relies _ rfl e (List.mem_cons_of_mem _ he)
                · obtain rfl := Option.some.inj htodo
                  obtain ⟨e, he, hid⟩ := h'.covers hok hr _ rfl x
                    ⟨hx.row, hx.isOpen, hx.activity, hx.start⟩
                  rcases List.mem_cons.mp he with rfl | he
                  · -- the booking it has just cancelled
                    obtain ⟨f, hfile, hdead, -⟩ := hdone.dead
                    have hfind : db'.bookings.find? x.id = some x := Table.find?_key hx.row
                    rw [Option.mem_def, hid, dossier_of_find hfind 0] at hfile
                    obtain rfl := Option.some.inj hfile
                    exact absurd hdead hx.isOpen.live
                  · exact ⟨e, he, hid⟩
                · rcases List.mem_append.mp hc with hc | hc
                  · exact h'.cancelled c hc
                  · rw [List.mem_singleton.mp hc]
                    exact hdone
  | refunding config todo =>
      cases todo with
      | nil =>
          exact ⟨.refl w, by simp [Takedown.advance, TakedownStage.unvisited],
            by simp [Takedown.advance, TakedownStage.queue], h.down,
            fun hok hr todo htodo b hb => h.covers hok hr todo htodo b
              ⟨hb.row, hb.isOpen, hb.activity, hb.start⟩, h.cancelled⟩
      | cons e todo =>
          obtain ⟨b, q⟩ := e
          have own : Owns db q.id b.id := h.queued (b, q) List.mem_cons_self
          simp only [Takedown.advance]
          cases htx : cascadeApprove now db call config b q with
          | error message =>
              exact ⟨.refl w, h.relies, fun e he => h.queued e (List.mem_cons_of_mem _ he),
                h.down, fun hok => absurd hok (Nat.succ_ne_zero _), h.cancelled⟩
          | ok db' =>
              have hc := cascadeApprove_cascades w own htx
              have h' := h.cascades hf hc
              exact ⟨hc, h'.relies, fun e he => h'.queued e (List.mem_cons_of_mem _ he),
                h'.down, fun hok hr todo htodo b hb => h'.covers hok hr todo htodo b
                  ⟨hb.row, hb.isOpen, hb.activity, hb.start⟩, h'.cancelled⟩
  | returned => exact ⟨.refl w, h⟩

/-! ## Runs -/

/-- The interleavings that are considered: requests of customers and of the
gateway, and at most 1000 bookings for a call to list. -/
def TakedownWorld.InScope (env : Env) (w : TakedownWorld) : TakedownAction → Prop
  | .act (.begin request) => request.Books
  | .advance index => ∀ d ∈ w.calls[index]?, (allFutureBookings w.sys.db d.call.activityId
      (nowInTimezone env d.tz w.sys.now)).length ≤ cascadeMax
  | _ => True

/-- Passing time does not set back the clock of a call. -/
def TakedownWorld.ClocksForward (env : Env) (w : TakedownWorld) : Action → Prop
  | .tick elapsed => ∀ d ∈ w.calls, nowInTimezone env d.tz w.sys.now ≤
      nowInTimezone env d.tz (w.sys.now + (elapsed : Nat))
  | _ => True

/-- **The condition on a step**: a creation and an orphan recovery find the
activity `ACTIVE` when they commit, a hard delete finds its booking not
cancelled, and a recovery finds its coupon below the cap. -/
def TakedownWorld.OpensActive (env : Env) (w : TakedownWorld) : TakedownAction → Prop
  | .act a => (∀ t ∈ w.sys.task? a, ∀ id ∈ t.opens, ∀ x ∈ w.sys.db.activities.find? id,
      x.status = .active) ∧ w.sys.LiveDelete a ∧ w.sys.RoomToRetake a ∧ w.ClocksForward env a
  | _ => True

instance (env : Env) (w : TakedownWorld) : (a : TakedownAction) → Decidable (w.InScope env a)
  | .act (.begin request) => inferInstanceAs (Decidable request.Books)
  | .act (.tick _) => isTrue trivial
  | .act (.run _) => isTrue trivial
  | .setStatus _ _ _ _ => isTrue trivial
  | .advance index => inferInstanceAs (Decidable (∀ d ∈ w.calls[index]?, _ ≤ cascadeMax))

instance (env : Env) (w : TakedownWorld) : (a : Action) → Decidable (w.ClocksForward env a)
  | .begin _ => isTrue trivial
  | .tick _ => inferInstanceAs (Decidable (∀ d ∈ w.calls, _ ≤ _))
  | .run _ => isTrue trivial

instance (env : Env) (w : TakedownWorld) :
    (a : TakedownAction) → Decidable (w.OpensActive env a)
  | .act a => inferInstanceAs (Decidable ((∀ t ∈ w.sys.task? a, ∀ id ∈ t.opens,
      ∀ x ∈ w.sys.db.activities.find? id, x.status = .active) ∧ _ ∧ _ ∧ _))
  | .setStatus _ _ _ _ => isTrue trivial
  | .advance _ => isTrue trivial

/-- What every run keeps. -/
structure TakedownWorld.Sound (env : Env) (w : TakedownWorld) : Prop where
  books : ∀ t ∈ w.sys.inflight, t.Books
  uses : CountsUses True w.sys
  repaid : ∀ u k, (w.sys.db.dossier u k).Repaid u
  credited : CreditedOnce w.sys.db
  calls : ∀ d ∈ w.calls, d.Holds env w.sys.now w.sys.db

/-- A transaction from outside, on a system with tasks in flight. -/
theorem CountsUses.external {s : Sys} (h : CountsUses True s) (st : Steps G none s.db db')
    (counts : Counts True db'.coupons (usesOf db'.bookings)) :
    CountsUses True { s with db := db' } := by
  have hc := h.consistent
  refine ⟨⟨hc.wired.step st.grows, hc.filed.step st, fun t ht => ?_, hc.disjoint,
    fun u k p hp => ?_⟩, fun u k => (h.unsystem u k).step (st.moves u k), counts⟩
  · exact (hc.relies t ht).step st fun _ _ => by simp
  · rcases Dossier.Uncollected.before (st.moves u k) hp with hbefore | hchain
    · exact hc.collected u k p hbefore
    · cases hchain

/-- Giving a status changes the activities only. -/
theorem setActivityStatus_ok {activityId : Id} {status : ActivityStatus}
    (h : setActivityStatus db activityId status = .ok db') :
    (∃ x, db.activities.find? activityId = some x) ∧
      db' = { db with activities := db'.activities } ∧
      ∀ j x, db.activities.find? j = some x → ∃ x', db'.activities.find? j = some x' ∧
        x'.status = if j = activityId then status else x.status := by
  simp only [setActivityStatus, bind_eq_ok, orThrow_eq_ok, pure_eq_ok] at h
  obtain ⟨x, hx, rfl⟩ := h
  refine ⟨⟨x, hx⟩, rfl, fun j y hy => ?_⟩
  dsimp only
  rw [Table.find?_update]
  by_cases hj : j = activityId
  · rw [if_pos hj, hy]
    exact ⟨_, rfl, (if_pos hj).symm⟩
  · rw [if_neg hj, hy]
    exact ⟨_, rfl, (if_neg hj).symm⟩

theorem steps_of_activities (w : Wired db) (activities : Table Activity) :
    Steps G chain db { db with activities := activities } :=
  ⟨⟨le_rfl, w.bookings, fun q hq => .inl ⟨q, hq, rfl, rfl⟩, w.entries, id,
    ⟨[], (List.append_nil _).symm, by simp⟩⟩, fun _ _ => .idle _⟩

/-- A step of the platform keeps every takedown sound. -/
theorem TakedownWorld.Sound.act {w : TakedownWorld} {a : Action} {s : Sys}
    (h : w.Sound env) (scope : w.InScope env (.act a)) (ok : w.OpensActive env (.act a))
    (hstep : w.sys.step env a = some s) : TakedownWorld.Sound env { w with sys := s } := by
  obtain ⟨active, live, room, forward⟩ := ok
  have hc := h.uses.consistent
  obtain ⟨_, chain, st⟩ := hc.step live.guarded hstep
  -- what it opens is not on an activity that is down
  have hpasses : ∃ opened, Passes opened w.sys.db s.db ∧
      ∀ d ∈ w.calls, d.reopened = false → opened ≠ some d.call.activityId := by
    rcases Sys.step_db hstep with ⟨hdb, _⟩ | ⟨t, ht, hdb, _⟩
    · rw [hdb]
      exact ⟨none, .refl _ _, by simp⟩
    · have hin : t ∈ w.sys.inflight := by
        cases a with
        | run index => exact List.mem_of_getElem? ht
        | _ => cases ht
      rw [hdb]
      refine ⟨t.opens, t.run_passes hc.wired hc.filed h.uses.unsystem (h.books t hin)
        (hc.relies t hin), fun d hd hr hopens => ?_⟩
      obtain ⟨x, hx, hdown⟩ := (h.calls d hd).down hr
      exact hdown (active t ht _ hopens x hx)
  have hclock : ∀ d ∈ w.calls, nowInTimezone env d.tz w.sys.now ≤
      nowInTimezone env d.tz s.now := by
    rcases Sys.step_cases hstep with ⟨elapsed, rfl, rfl⟩ | ⟨_, _, rfl, _, rfl⟩ |
      ⟨_, _, rfl, _, rfl⟩
    · exact forward
    · exact fun _ _ => le_rfl
    · exact fun _ _ => le_rfl
  have hbooks : ∀ t ∈ s.inflight, t.Books := by
    rcases Sys.step_cases hstep with ⟨_, rfl, rfl⟩ | ⟨request, t, rfl, hread, rfl⟩ |
      ⟨index, t, rfl, ht, rfl⟩
    · exact h.books
    · intro t' ht'
      rcases List.mem_append.mp ht' with ht' | ht'
      · exact h.books t' ht'
      · rw [List.mem_singleton.mp ht']
        exact (Request.Books.read scope hread).1
    · intro t' ht'
      rcases Sys.mem_ran ht' with ht' | hnext
      · exact h.books t' (List.mem_of_mem_eraseIdx ht')
      · exact ((h.books t (List.mem_of_getElem? ht)).next hnext).1
  obtain ⟨opened, hp, hne⟩ := hpasses
  refine ⟨hbooks, h.uses.step live.sane (fun _ => ⟨live, room⟩) hstep,
    fun u k => (h.repaid u k).step (st.moves u k),
    h.credited.step hc.filed st fun k => .inl (hp.credits k), fun d hd => ?_⟩
  refine (h.calls d hd).step hc.filed st (hclock d hd) (fun hr => ?_)
    (fun hr b' hb' hopen hact => ?_) fun k _ => hp.credits k
  · rw [hp.activities]
    exact (h.calls d hd).down hr
  · exact (hp.keeps b' hb' hopen).resolve_left (hact ▸ hne d hd hr)

/-- A statement of a takedown keeps all of them sound. -/
theorem TakedownWorld.Sound.advance {w : TakedownWorld} {index : Nat} {d : Takedown}
    (h : w.Sound env) (scope : w.InScope env (.advance index))
    (hd : w.calls[index]? = some d) :
    TakedownWorld.Sound env
      { sys := { w.sys with db := (d.advance env w.sys.now w.sys.db).1 }
        calls := w.calls.set index (d.advance env w.sys.now w.sys.db).2 } := by
  have hc := h.uses.consistent
  obtain ⟨hcascades, hholds⟩ := (h.calls d (List.mem_of_getElem? hd)).advance hc.wired hc.filed
    h.credited fun _ => scope d hd
  refine ⟨h.books, h.uses.external hcascades.steps (hcascades.counts True h.uses.counts),
    fun u k => (h.repaid u k).step (hcascades.steps.moves u k),
    h.credited.step hc.filed hcascades.steps hcascades.credits, fun d' hd' => ?_⟩
  rcases List.mem_or_eq_of_mem_set hd' with hd' | rfl
  · exact (h.calls d' hd').cascades hc.filed hcascades
  · exact hholds

/-- A takedown that begins is sound. -/
theorem TakedownWorld.Sound.setStatus {w : TakedownWorld} {activityId adminUserId : Id}
    {status : ActivityStatus} {reason : Option String} (h : w.Sound env)
    (hset : setActivityStatus w.sys.db activityId status = .ok db') :
    TakedownWorld.Sound env
      { sys := { w.sys with db := db' }
        calls := (if status = .active then w.calls.map (Takedown.reopen activityId)
          else w.calls) ++ cascadeOf w.sys.db activityId status adminUserId reason } := by
  have hc := h.uses.consistent
  obtain ⟨⟨x, hx⟩, hdb, hrows⟩ := setActivityStatus_ok hset
  generalize db'.activities = activities at hdb hrows
  subst hdb
  have st : ∀ chain, Steps liveDelete chain w.sys.db
      { w.sys.db with activities := activities } :=
    fun _ => steps_of_activities hc.wired activities
  -- a call that is not about the activity, or about one that is not made active
  have hkept : ∀ d ∈ w.calls, (status = .active → d.call.activityId ≠ activityId) →
      d.Holds env w.sys.now { w.sys.db with activities := activities } := by
    intro d hd hother
    refine (h.calls d hd).step hc.filed (st none) le_rfl (fun hr => ?_)
      (fun _ b hb hopen _ => ⟨b, hb, hopen, rfl⟩) fun _ _ => rfl
    obtain ⟨y, hy, hdown⟩ := (h.calls d hd).down hr
    obtain ⟨y', hy', hst⟩ := hrows _ y hy
    refine ⟨y', hy', ?_⟩
    by_cases hid : d.call.activityId = activityId
    · rw [hst, if_pos hid]
      exact fun hactive => hother hactive hid
    · rw [hst, if_neg hid]
      exact hdown
  refine ⟨h.books, h.uses.external (st none) h.uses.counts,
    fun u k => (h.repaid u k).step ((st none).moves u k),
    h.credited.step hc.filed (st none) fun _ => .inl rfl, fun d hd => ?_⟩
  rcases List.mem_append.mp hd with hd | hd
  · by_cases hactive : status = .active
    · rw [if_pos hactive] at hd
      obtain ⟨d, hcall, rfl⟩ := List.mem_map.mp hd
      by_cases hid : d.call.activityId = activityId
      · have hd := h.calls d hcall
        have hopen : ({ d with reopened := true } : Takedown).Holds env w.sys.now w.sys.db :=
          ⟨hd.relies, hd.queued, fun hr => (by cases hr), fun _ hr => (by cases hr),
            hd.cancelled⟩
        have hsame : d.reopen activityId = { d with reopened := true } := by
          simp [Takedown.reopen, hid]
        rw [hsame]
        exact hopen.step hc.filed (st none) le_rfl (fun hr => (by cases hr))
          (fun hr => (by cases hr)) fun _ _ => rfl
      · have h' := hkept d hcall fun _ => hid
        have hsame : d.reopen activityId = d := by
          simp [Takedown.reopen, hid]
        rw [hsame]
        exact h'
    · rw [if_neg hactive] at hd
      exact hkept d hd fun hs => absurd hs hactive
  · obtain ⟨x', hx', hst⟩ := hrows _ x hx
    rw [if_pos rfl] at hst
    cases status with
    | inactive | blocked =>
        obtain rfl := List.mem_singleton.mp hd
        exact ⟨by simp [TakedownStage.unvisited], by simp [TakedownStage.queue],
          fun _ => ⟨x', hx', by rw [hst]; decide⟩, by simp [TakedownStage.unvisited], by simp⟩
    | _ => cases hd

/-- **Every step keeps every takedown sound.** -/
theorem TakedownWorld.Sound.step {w w' : TakedownWorld} {a : TakedownAction}
    (h : w.Sound env) (scope : w.InScope env a) (ok : w.OpensActive env a)
    (hstep : w.step env a = some w') : w'.Sound env := by
  cases a with
  | act a =>
      obtain ⟨s, hs, rfl⟩ := Option.map_eq_some_iff.mp hstep
      exact h.act scope ok hs
  | setStatus activityId status adminUserId reason =>
      obtain ⟨db', hdb, rfl⟩ := Option.map_eq_some_iff.mp hstep
      exact h.setStatus (toOption_eq_some.mp hdb)
  | advance index =>
      obtain ⟨d, hd, rfl⟩ := Option.map_eq_some_iff.mp hstep
      exact h.advance scope hd

/-- At the start no takedown is under way. -/
theorem Initial.takedownSound {w : TakedownWorld} (h : Initial w.sys) (idle : w.calls = [])
    (codes : ∀ c ∈ w.sys.db.coupons.rows, ∀ c' ∈ w.sys.db.coupons.rows,
      c.code = c'.code → c = c')
    (unused : ∀ c ∈ w.sys.db.coupons.rows, c.usedCount = 0) : w.Sound env := by
  refine ⟨by simp [h.inflight], h.countsUses codes unused, fun u k => ?_, fun k => .inl ?_,
    by simp [idle]⟩
  · rw [h.dossier]
    constructor <;> simp [Dossier.blank]
  · refine List.filter_eq_nil_iff.mpr fun e he => ?_
    simp [h.entries e he]

/-- What the cascade owed a booking it cancelled: the captured payment refunded
as points and the redeemed points returned, each once. -/
structure Cascaded.Settled (db : Db) (c : Cascaded) : Prop where
  cancelled : ∃ b ∈ db.bookings.find? c.booking.id, b.status = .cancelled
  refunded : ∀ q ∈ c.payment, q.status = .success →
    (∃ x ∈ db.payments.find? q.id, x.status = .refunded) ∧
      db.refundCredits c.booking.id = refundEntries c.booking.customerId c.booking.id
        (refundPointsOf c.config q.amount)
  points : db.redeemedPoints c.booking.customerId c.booking.id =
      max 0 c.booking.pointsRedeemed ∧
    db.returnedPoints c.booking.customerId c.booking.id = max 0 c.booking.pointsRedeemed

/-- **A takedown leaves nothing behind.**  A call that has returned without a
failure leaves no open booking that has not started, until the activity is
`ACTIVE` again; what any call cancelled is settled; and whoever cancelled a
booking, its points are returned, its coupon counted and its refund credited no
more than once. -/
structure TakenDown (env : Env) (w : TakedownWorld) : Prop where
  empty : ∀ d ∈ w.calls, d.Succeeded → d.reopened = false →
    ∀ b ∈ w.sys.db.bookings.rows, b.activityId = d.call.activityId →
      nowInTimezone env d.tz w.sys.now ≤ b.startDatetime → ¬ b.Open
  settled : ∀ d ∈ w.calls, ∀ c ∈ d.cancelled, c.Settled w.sys.db
  points : PointsReturned w.sys.db
  coupons : ∀ c ∈ w.sys.db.coupons.rows, c.usedCount = w.sys.db.liveUses c.code
  refunds : ∀ k, (w.sys.db.refundCredits k).length ≤ 1

/-- What the cascade has cancelled is settled, where every dossier is repaid. -/
theorem Cascaded.Holds.settled {c : Cascaded} (h : c.Holds db)
    (repaid : ∀ u k, (db.dossier u k).Repaid u) : c.Settled db := by
  obtain ⟨f, hf, dead, -⟩ := h.dead
  have hrow := hf
  rw [Option.mem_def, Db.dossier_booking, Option.map_eq_some_iff] at hrow
  obtain ⟨b, hb, rfl⟩ := hrow
  refine ⟨⟨b, hb, dead⟩, fun q hq hs => ?_, ?_⟩
  · obtain ⟨own, ⟨p, hp, hps⟩, hcredits⟩ := h.refunded q hq hs
    rw [Option.mem_def, own.dossier_payment, Option.map_eq_some_iff] at hp
    obtain ⟨x, hx, rfl⟩ := hp
    exact ⟨⟨x, hx, hps⟩, hcredits⟩
  · -- the row still has the points that were read
    have hcore := (h.frozen c.booking.customerId).2.1 _ (dossier_of_find hb _)
    have hpaid := repaid c.booking.customerId c.booking.id
    have hfile := dossier_of_find hb c.booking.customerId
    have hredeemed := hpaid.booked _ hfile
    have hreturned := hpaid.dead _ hfile dead
    have hdue : b.file.core.dueTo c.booking.customerId = max 0 c.booking.pointsRedeemed := by
      rw [hcore]
      exact if_pos rfl
    rw [Db.redeemedPoints_eq, Db.returnedPoints_eq, hreturned, hredeemed, hdue]
    exact ⟨rfl, rfl⟩

/-- A sound takedown that succeeded has cancelled everything ahead. -/
theorem TakedownWorld.Sound.takenDown {w : TakedownWorld} (h : w.Sound env) :
    TakenDown env w := by
  refine ⟨fun d hd hdone hdown b hb hact hstart hopen => ?_,
    fun d hd c hc => ((h.calls d hd).cancelled c hc).settled h.repaid, .of_repaid h.repaid,
    fun c hc => ?_, fun k => ?_⟩
  · have hunvisited : d.stage.unvisited = some [] := by
      have hreturned := hdone.1
      cases hs : d.stage with
      | returned => rfl
      | _ =>
          rw [hs] at hreturned
          cases hreturned
    obtain ⟨e, he, -⟩ := (h.calls d hd).covers hdone.2 hdown _ hunvisited b
      ⟨hb, hopen, hact, hstart⟩
    cases he
  · rw [Db.liveUses_eq]
    exact h.uses.counts.equal trivial c hc
  · rcases h.credited k with hnil | ⟨hone, -⟩
    · simp [hnil]
    · exact hone.le

/-- **Takedowns are complete in the runs where nothing opens a booking on an
activity that is down.**  For any requests of customers and the gateway, with
their recoveries, interleaved with any calls that change the status of
activities and their cascades. -/
theorem takedown_complete {env : Env} {w₀ w : TakedownWorld} (h : Initial w₀.sys)
    (idle : w₀.calls = [])
    (codes : ∀ c ∈ w₀.sys.db.coupons.rows, ∀ c' ∈ w₀.sys.db.coupons.rows,
      c.code = c'.code → c = c')
    (unused : ∀ c ∈ w₀.sys.db.coupons.rows, c.usedCount = 0)
    (run : Run (TakedownWorld.step env) (fun w a => w.InScope env a ∧ w.OpensActive env a)
      w₀ w) :
    TakenDown env w :=
  (run.invariant (TakedownWorld.Sound env)
    (fun _ _ _ hw ok hstep => hw.step ok.1 ok.2 hstep)
    (h.takedownSound idle codes unused)).takenDown

/-- A paid booking with redeemed points, taken down with its activity. -/
def takedownRun : List TakedownAction :=
  [.act (.begin (.createBooking 1 (marketRequest (some 50)) "R1")), .act (.run 0),
    .act (.run 0), .act (.begin (.initiatePayment 101 1 none "B1")), .act (.run 0),
    .act (.begin (.handleCallback (marketIpn "B1"))), .act (.run 0),
    .setStatus 7 .blocked 9 none, .advance 0, .advance 0, .advance 0, .advance 0, .advance 0]

/-- A takedown meets a booking that is paid. -/
theorem takedown_complete_paid :
    ∃ w, Run (TakedownWorld.step marketEnv)
        (fun w a => w.InScope marketEnv a ∧ w.OpensActive marketEnv a) ⟨market, []⟩ w ∧
      (∃ d ∈ w.calls, d.Succeeded ∧ d.cancelled.length = 1) ∧ TakenDown marketEnv w := by
  obtain ⟨w, run, h⟩ := @Run.of_execAll_test _ _ (TakedownWorld.step marketEnv)
    (fun w a => w.InScope marketEnv a ∧ w.OpensActive marketEnv a) _ takedownRun ⟨market, []⟩
    (fun w => ∃ d ∈ w.calls, d.Succeeded ∧ d.cancelled.length = 1) (by decide +kernel)
  exact ⟨w, run, of_decide_eq_true h,
    takedown_complete market_initial rfl (by simp [market]) (by simp [market]) run⟩

/-- A creation that read the activity before it was taken down commits after. -/
theorem booking_after_takedown : Initial market ∧
    ∃ w, Run (TakedownWorld.step marketEnv) (fun w a => w.InScope marketEnv a) ⟨market, []⟩ w ∧
      ¬ TakenDown marketEnv w := by
  refine ⟨market_initial, ?_⟩
  obtain ⟨w, run, h⟩ := @Run.of_execAll_test _ _ (TakedownWorld.step marketEnv)
    (fun w a => w.InScope marketEnv a) _
    [.act (.begin (.createBooking 1 (marketRequest none) "R1")), .setStatus 7 .inactive 9 none,
      .advance 0, .act (.run 0)] ⟨market, []⟩
    (fun w => ∃ d ∈ w.calls, d.Succeeded ∧ d.reopened = false ∧
      ∃ b ∈ w.sys.db.bookings.rows, b.activityId = d.call.activityId ∧
        nowInTimezone marketEnv d.tz w.sys.now ≤ b.startDatetime ∧ b.Open)
    (by decide +kernel)
  obtain ⟨d, hd, hdone, hdown, b, hb, hact, hstart, hopen⟩ := of_decide_eq_true h
  exact ⟨w, run, fun htaken => htaken.empty d hd hdone hdown b hb hact hstart hopen⟩

end Jadwal
