import Jadwal.Filing

/-!
# Tasks as moves

What a task in flight relies on, and the simulation: one run of a task is
one move on every dossier.  What the task read before may be out of date;
`Task.Relies` is the part of it that no other task can make untrue.
-/

namespace Jadwal

open Outcome

variable {G : Guard} {chain : Option Id} {db db' : Db}

/-! ## Reading a dossier -/

@[simp] theorem Db.dossier_id (db : Db) (u k : Id) : (db.dossier u k).id = k := rfl

/-- The file of the booking a dossier is about. -/
theorem Db.dossier_booking (db : Db) (u k : Id) :
    (db.dossier u k).booking = (db.bookings.find? k).map Booking.file := rfl

@[simp] theorem Booking.core_dueTo (b : Booking) (u : Id) : b.core.dueTo u = b.dueTo u := rfl

/-- The payment of a dossier is the one its booking owns. -/
theorem Owns.dossier_payment {pid k : Id} (own : Owns db pid k) (u : Id) :
    (db.dossier u k).payment = (db.payments.find? pid).map Payment.file := by
  rw [Db.dossier, own.paymentOf]

/-- The dossier of a payment's id is the one of the booking it belongs to. -/
theorem Owns.dossier_unique {pid k j u : Id} {p : PaymentFile} (own : Owns db pid k)
    (hp : (db.dossier u j).payment = some p) (hid : p.id = pid) : j = k := by
  obtain ⟨q, hq, rfl⟩ := Option.map_eq_some_iff.mp hp
  obtain ⟨hmem, hb⟩ := Table.first?_eq_some hq
  have hk := (own.iff q hmem).mp hid
  rw [of_decide_eq_true hb] at hk
  exact Option.some.inj hk

/-- A row found under an id is filed in its dossier. -/
theorem dossier_of_find {k : Id} {b : Booking} (h : db.bookings.find? k = some b) (u : Id) :
    (db.dossier u k).booking = some b.file := by
  rw [Db.dossier_booking, h]
  rfl

/-- The payment in a dossier is a row that belongs to the booking id. -/
theorem Wired.payment_of_dossier (w : Wired db) {u k : Id} {p : PaymentFile}
    (h : (db.dossier u k).payment = some p) :
    ∃ q, db.payments.find? p.id = some q ∧ q.file = p ∧ Owns db p.id k := by
  obtain ⟨q, hq, rfl⟩ := Option.map_eq_some_iff.mp h
  obtain ⟨hmem, hb⟩ := Table.first?_eq_some hq
  exact ⟨q, Table.find?_key hmem, rfl, w.owns hmem (of_decide_eq_true hb)⟩

/-- Every dossier is sound. -/
def Filed (db : Db) : Prop := ∀ u k, (db.dossier u k).Sound

/-- The files stay in order along steps. -/
theorem Filed.step (h : Filed db) (st : Steps G chain db db') : Filed db' :=
  fun u k => (h u k).step (st.moves u k)

/-- The payment of a live booking: captured, or awaited by a reservation. -/
theorem Dossier.Sound.live {d : Dossier} (h : d.Sound) {b : BookingFile}
    (hb : d.booking = some b) (live : b.Live) :
    ∃ p, d.payment = some p ∧
      ((p.status = .pending ∧ b.status = .pending) ∨ p.status = .success) := by
  cases hs : b.status with
  | pending =>
      obtain ⟨p, hp, hst⟩ := h.reserved b hb hs
      exact ⟨p, hp, hst.imp_left fun h => ⟨h, rfl⟩⟩
  | confirmed =>
      obtain ⟨p, hp, hst⟩ := h.booked b hb (Or.inl hs)
      exact ⟨p, hp, Or.inr hst⟩
  | completed =>
      obtain ⟨p, hp, hst⟩ := h.booked b hb (Or.inr hs)
      exact ⟨p, hp, Or.inr hst⟩
  | cancelled => exact absurd hs live

/-- A pending payment is the one of a reservation. -/
theorem Dossier.Sound.awaited {d : Dossier} (h : d.Sound) {p : PaymentFile}
    (hp : d.payment = some p) (pending : p.status = .pending) :
    ∃ b, d.booking = some b ∧ b.status = .pending :=
  h.pending p hp pending

/-- The id of a filed booking has been given out. -/
theorem Dossier.Sound.used {d : Dossier} (h : d.Sound) {b : BookingFile}
    (hb : d.booking = some b) : d.used = true := by
  cases hu : d.used with
  | true => rfl
  | false =>
      have := h.blank hu
      rw [this] at hb
      cases hb

/-- What a sound dossier has fixed stays fixed. -/
theorem Dossier.Sound.frozen {d : Dossier} (h : d.Sound) {b : BookingFile}
    (hb : d.booking = some b) : d.Frozen b.core := by
  refine ⟨h.used hb, fun b' hb' => ?_, fun p hp => h.depicts b hb p hp⟩
  rw [Option.mem_def, hb] at hb'
  rw [Option.some.inj hb']

/-- The booking names the payment of its dossier. -/
theorem Filed.payment_of_booking (w : Wired db) (hf : Filed db) {k : Id} {b : Booking}
    (hb : db.bookings.find? k = some b) {u : Id} {p : PaymentFile}
    (hp : (db.dossier u k).payment = some p) :
    b.paymentId = some p.id ∧ ∃ q, db.payments.find? p.id = some q ∧ q.file = p ∧
      Owns db p.id k :=
  ⟨((hf u k).depicts _ (dossier_of_find hb u) p hp).1, w.payment_of_dossier hp⟩

/-! ## What tasks rely on -/

/-- A captured payment whose recovery is still open. -/
structure Recovering (db : Db) (paymentId bookingId : Id) (P : BookingFile → Prop) :
    Prop where
  owns : Owns db paymentId bookingId
  isOpen : ∀ u, (db.dossier u bookingId).ChainOpen P

/-- A cancel relies on the booking it read, and, when it found the payment
captured, on that. -/
structure CancelRead.Relies (db : Db) (r : CancelRead) : Prop where
  frozen : ∀ u, (db.dossier u r.booking.id).Frozen r.booking.core
  payment : ∃ q, r.payment = some q ∧ Owns db q.id r.booking.id ∧
    (q.status = .pending ∨
      (q.status = .success ∧ ∀ u, (db.dossier u r.booking.id).Captured))

/-- What a task in flight relies on. -/
def Task.Relies (db : Db) : Task → Prop
  | .settle payment _ _ => ∃ k, payment.bookingId = some k ∧ Owns db payment.id k
  | .b2Check p => ∃ k, Recovering db p k (fun _ => False)
  | .recreate p _ bookingId s => ∃ k, bookingId = some k ∧
      Recovering db p k (fun _ => False) ∧ ∀ u, (db.dossier u k).Shows s
  | .m6Check p k => Recovering db p k (fun b => b.bySystem = true)
  | .unCancel p b => Recovering db p b.id (fun b => b.bySystem = true)
  | .queueRefund p _ => ∃ k, Recovering db p k (fun _ => True)
  | .cancel r => r.Relies db
  | .decide r => Owns db r.paymentId r.booking.id
  | .update r => ∀ u, (db.dossier u r.booking.id).Frozen r.booking.core
  | .reap stale => ∀ b ∈ stale, (∀ u, (db.dossier u b.id).Frozen b.core) ∧
      ∀ p, b.paymentId = some p → Owns db p b.id
  | _ => True

/-- The payment a task recovers. -/
def Task.recovers : Task → Option Id
  | .b2Check p => some p
  | .recreate p _ _ _ => some p
  | .m6Check p _ => some p
  | .unCancel p _ => some p
  | .queueRefund p _ => some p
  | _ => none

/-- A weaker condition on the booking is one as well. -/
theorem Recovering.mono {pid k : Id} {P Q : BookingFile → Prop}
    (h : Recovering db pid k P) (hPQ : ∀ b, P b → Q b) : Recovering db pid k Q :=
  ⟨h.owns, fun u => ⟨(h.isOpen u).1, (h.isOpen u).2.1,
    fun b hb => ((h.isOpen u).2.2 b hb).imp_right (hPQ b)⟩⟩

/-- **What another payment does leaves a recovery standing.** -/
theorem Recovering.step {pid k : Id} {P : BookingFile → Prop} (h : Recovering db pid k P)
    (st : Steps G chain db db') (other : chain ≠ some pid) : Recovering db' pid k P := by
  refine ⟨h.owns.step st.grows, fun u => (h.isOpen u).step (st.moves u k) ?_⟩
  intro p hp hc
  rw [h.owns.dossier_payment] at hp
  obtain ⟨q, hq, rfl⟩ := Option.map_eq_some_iff.mp hp
  exact other (hc.trans (congrArg some (Table.find?_eq_some.mp hq).2))

/-- The payment of an open recovery is captured. -/
theorem Recovering.captured {pid k : Id} {P : BookingFile → Prop}
    (h : Recovering db pid k P) {q : Payment} (hq : db.payments.find? pid = some q) :
    q.status = .success := by
  refine (h.isOpen 0).2.1 q.file ?_
  rw [h.owns.dossier_payment, hq]
  rfl

/-- **What a task relies on survives every other task.** -/
theorem Task.Relies.step {t : Task} (h : t.Relies db) (st : Steps G chain db db')
    (other : ∀ p, t.recovers = some p → chain ≠ some p) : t.Relies db' := by
  cases t with
  | settle payment params isSuccess =>
      obtain ⟨k, hk, own⟩ := h
      exact ⟨k, hk, own.step st.grows⟩
  | b2Check p =>
      obtain ⟨k, hr⟩ := h
      exact ⟨k, hr.step st (other p rfl)⟩
  | recreate p amount bookingId s =>
      obtain ⟨k, hk, hr, hs⟩ := h
      exact ⟨k, hk, hr.step st (other p rfl), fun u => (hs u).step (st.moves u k)⟩
  | m6Check p k => exact Recovering.step h st (other p rfl)
  | unCancel p b => exact Recovering.step h st (other p rfl)
  | queueRefund p amount =>
      obtain ⟨k, hr⟩ := h
      exact ⟨k, hr.step st (other p rfl)⟩
  | cancel r =>
      obtain ⟨frozen, q, hq, own, hst⟩ := h
      refine ⟨fun u => (frozen u).step (st.moves u _), q, hq, own.step st.grows, ?_⟩
      exact hst.imp_right fun ⟨hs, hc⟩ => ⟨hs, fun u => (hc u).step (st.moves u _)⟩
  | decide r => exact Owns.step h st.grows
  | update r => exact fun u => (h u).step (st.moves u _)
  | reap stale =>
      intro b hb
      obtain ⟨frozen, own⟩ := h b hb
      exact ⟨fun u => (frozen u).step (st.moves u _), fun p hp => (own p hp).step st.grows⟩
  | _ => trivial

/-! ## Creating -/

/-- The entries of a creation. -/
theorem Stored.writes {payment : Payment} {b : Booking} (h : Stored db db' payment b) :
    Writes db db' (redeemEntries b) := by
  unfold redeemEntries
  rcases h.points with ⟨hle, hl⟩ | ⟨hpos, happ⟩
  · rw [if_neg (not_lt.mpr hle)]
    exact .none hl
  · rw [if_pos hpos]
    exact happ.writes

/-- A redemption names its booking. -/
theorem redeemEntries_bookingId {b : Booking} :
    ∀ e ∈ redeemEntries b, e.bookingId = some b.id := by
  intro e he
  unfold redeemEntries at he
  split at he
  · rw [List.mem_singleton.mp he]
  · cases he

/-- So does a return of points. -/
theorem returnEntries_bookingId {b : Booking} {source : LoyaltyLedgerSource} :
    ∀ e ∈ returnEntries b source, e.bookingId = some b.id := by
  intro e he
  unfold returnEntries at he
  split at he
  · rw [List.mem_singleton.mp he]
  · cases he

theorem find?_append_singleton {α : Type} [Keyed α Id] {t t' : Table α} {a : α}
    (h : t'.rows = t.rows ++ [a]) (k : Id) :
    t'.find? k = (t.find? k).or (if Keyed.key a = k then some a else none) := by
  simp only [Table.find?, h, List.find?_append]
  by_cases hk : Keyed.key a = k <;> simp [hk]

/-- A creation opens the dossier of its booking. -/
theorem createBookingTx_steps {env : Env} {now : Instant} {p : PreparedBooking}
    {ref : String} {b : Booking} (w : Wired db) (hf : Filed db)
    (h : createBookingTx env now db p ref = .ok (db', b)) : Steps G chain db db' := by
  obtain ⟨unit, q, c⟩ := createBookingTx_created h
  obtain ⟨_, hb, st⟩ := c
  have hid : b.id = db.nextId + 1 := by rw [hb]; rfl
  have hpid : (newPayment now db.nextId p.country.currencyCode q).id = db.nextId := by
    unfold newPayment
    split <;> rfl
  have hw : Writes db db' (redeemEntries b) :=
    ⟨st.writes.entries, st.writes.indexed, st.writes.nonzero⟩
  have hn : db'.nextId = db.nextId + 2 := st.nextId
  refine ⟨⟨?_, ?_, ?_, ?_, hw.indexed, _, hw.entries, hw.nonzero⟩, fun u k => ?_⟩
  · lia
  · intro b' hb'
    rw [st.bookings, List.mem_append, List.mem_singleton] at hb'
    rcases hb' with hb' | rfl
    · exact (w.bookings b' hb').trans (by lia)
    · lia
  · intro q' hq'
    rw [st.payments, List.mem_append, List.mem_singleton] at hq'
    rcases hq' with hq' | rfl
    · exact Or.inl ⟨q', hq', rfl, rfl⟩
    · exact Or.inr ⟨hpid, congrArg some hid, hn.ge⟩
  · intro e he k hk
    rw [hw.entries, List.mem_append] at he
    rcases he with he | he
    · exact (w.entries e he k hk).trans (by lia)
    · have := redeemEntries_bookingId e he
      rw [hk, Option.some.injEq] at this
      lia
  -- the new booking's file, the id given out to its payment, and the rest
  have hbook := find?_append_singleton st.bookings k
  have hpay : db'.paymentOf k = (db.paymentOf k).or (if b.id = k then
      some ((newPayment now db.nextId p.country.currencyCode q).linked b) else none) := by
    simp only [Db.paymentOf, Table.first?, st.payments, List.find?_append]
    by_cases hk : b.id = k <;> simp [hk, Payment.linked]
  by_cases hk : b.id = k
  · have hblank : db.dossier u k = .blank k := by
      refine (hf u k).blank (decide_eq_false ?_)
      lia
    have hold : db.bookings.find? k = none := by
      have := congrArg Dossier.booking hblank
      exact Option.map_eq_none_iff.mp this
    have hnone : db.paymentOf k = none := by
      have := congrArg Dossier.payment hblank
      exact Option.map_eq_none_iff.mp this
    have hlt : k < db'.nextId := by lia
    rw [dossier_writes hw, hblank, hpay, hbook, hold, hnone, Dossier.post_redeem hk.symm]
    simp only [hlt, Option.none_or, if_pos hk, if_pos (show Keyed.key b = k from hk),
      Option.map_some, Dossier.blank, zero_add]
    refine .create k _ b.file _ ?_ ⟨?_, ?_⟩ ?_ ?_ rfl
    · subst hb
      by_cases hq : q.payableAmount ≤ 0
      · exact Or.inr ⟨by simp [newPayment, hq, Payment.linked, Payment.file],
          by simp [newBooking, hq, Booking.file]⟩
      · exact Or.inl ⟨by simp [newPayment, hq, Payment.linked, Payment.file],
          by simp [newBooking, hq, Booking.file]⟩
    · have hpay' : b.paymentId = some db.nextId := by rw [hb]; rfl
      simpa [Booking.file, Booking.core, Payment.file, Payment.linked, hpid] using hpay'
    · intro s hs
      simp only [Payment.file, Payment.linked, Option.mem_def,
        Option.ite_none_right_eq_some] at hs
      obtain ⟨_, hs⟩ := hs
      obtain rfl := Option.some.inj hs
      subst hb
      subst hk
      simp [Booking.file, Payment.file, Payment.linked, hpid, newBooking, Booking.core,
        recreatedBooking, buildBookingSnapshot]
    · subst hb
      rfl
    · subst hb
      rfl
  · have hother : db'.dossier u k = { db.dossier u k with used := decide (k < db'.nextId) } := by
      rw [dossier_writes hw, hpay, hbook, if_neg hk, if_neg (show ¬ Keyed.key b = k from hk),
        Option.or_none, Option.or_none]
      exact Dossier.post_other redeemEntries_bookingId (Ne.symm hk)
    rw [hother]
    by_cases hkn : k = db.nextId
    · have hblank : db.dossier u k = .blank k := by
        refine (hf u k).blank (decide_eq_false ?_)
        lia
      have hlt : k < db'.nextId := by lia
      rw [hblank, decide_eq_true hlt]
      exact .issue k
    · have hused : decide (k < db'.nextId) = (db.dossier u k).used :=
        decide_eq_decide.mpr (by lia)
      rw [hused]
      exact .idle _

/-! ## Statements the files do not see -/

/-- An update of payments that keeps their files and links. -/
theorem dossier_of_payments {p : Payment → Bool} (f : Payment → Payment)
    (hf : ∀ q, Keyed.key (f q) = Keyed.key q) (hfile : ∀ q, (f q).file = q.file)
    (hlink : ∀ q, (f q).bookingId = q.bookingId)
    (e : Effect db db' db.bookings (db.payments.updateMany p f hf) []) (u k : Id) :
    db'.dossier u k = db.dossier u k := by
  have hpay : (db'.paymentOf k).map Payment.file = (db.paymentOf k).map Payment.file := by
    rw [Db.paymentOf, e.payments, Table.first?_updateMany]
    · rw [Option.map_map]
      refine Option.map_congr fun q _ => ?_
      by_cases hp : p q <;> simp [hp, hfile]
    · intro q
      simp [hlink]
  rw [dossier_after e.writes (by rw [e.nextId]), hpay, e.bookings, Dossier.post_nil]
  rfl

/-- An update of payments that touches no file moves no dossier. -/
theorem steps_of_payments (w : Wired db) {p : Payment → Bool} (f : Payment → Payment)
    (hf : ∀ q, Keyed.key (f q) = Keyed.key q) (hfile : ∀ q, (f q).file = q.file)
    (hlink : ∀ q, (f q).bookingId = q.bookingId)
    (e : Effect db db' db.bookings (db.payments.updateMany p f hf) []) :
    Steps G chain db db' := by
  refine ⟨e.grows w (fun b hb => ⟨b, hb, rfl⟩) (.updateMany hlink) (by simp), fun u k => ?_⟩
  rw [dossier_of_payments f hf hfile hlink e]
  exact .idle _

/-- An update of bookings that keeps their files. -/
theorem steps_of_bookings (w : Wired db) {p : Booking → Bool} (f : Booking → Booking)
    (hf : ∀ b, Keyed.key (f b) = Keyed.key b) (hfile : ∀ b, (f b).file = b.file)
    (e : Effect db db' (db.bookings.updateMany p f hf) db.payments []) :
    Steps G chain db db' := by
  refine ⟨e.grows w .updateMany (fun q hq => ⟨q, hq, rfl, rfl⟩) (by simp), fun u k => ?_⟩
  have hbook : (db'.bookings.find? k).map Booking.file =
      (db.bookings.find? k).map Booking.file := by
    rw [e.bookings, Table.find?_updateMany, Option.map_map]
    refine Option.map_congr fun b _ => ?_
    by_cases hp : p b <;> simp [hp, hfile]
  rw [dossier_after e.writes (by rw [e.nextId]), Db.paymentOf, e.payments, hbook,
    Dossier.post_nil]
  exact .idle _

/-- The stamp of a code moves no dossier. -/
theorem otpStamp_steps (w : Wired db) {now : Instant} {bookingId : Id} {user : Option Id}
    (h : otpStamp now db bookingId user = .ok db') : Steps G chain db db' := by
  simp only [otpStamp, bind_eq_ok, pure_eq_ok] at h
  obtain ⟨db₁, hupd, rfl⟩ := h
  obtain ⟨_, e, _⟩ := updateBooking_ok hupd
  exact steps_of_bookings w (Booking.verify now) (fun _ => rfl) (fun _ => rfl)
    ⟨e.bookings, e.payments, ⟨e.writes.entries, e.writes.indexed, e.writes.nonzero⟩,
      e.nextId, e.activities⟩

/-- Neither does the start of a payment. -/
theorem initiateWrite_steps (w : Wired db) {now : Instant} {r : InitiateRead}
    {basketId : String} (h : initiateWrite now db r basketId = .ok db') :
    Steps G chain db db' := by
  simp only [initiateWrite, bind_eq_ok, orThrow_eq_ok, ensure_eq_ok, pure_eq_ok] at h
  obtain ⟨_, _, _, _, _, _, rfl⟩ := h
  exact steps_of_payments w (Payment.initiate now r basketId) (fun _ => rfl)
    (fun _ => rfl) (fun _ => rfl) ⟨rfl, rfl, .none rfl, rfl, rfl⟩

/-- Neither does the hold of a reported success. -/
theorem holdNapsSuccess_steps (w : Wired db) (now : Instant) (bookingId : Option Id) :
    Steps G chain db (holdNapsSuccess now db bookingId) :=
  steps_of_bookings w (Booking.holdUntil (now + 30 * minute)) (fun _ => rfl)
    (fun _ => rfl) ⟨rfl, rfl, .none rfl, rfl, rfl⟩

/-! ## Settling -/

/-- A settled success confirms the reservation, or captures for a booking
that is gone or cancelled and leaves the recovery to come. -/
theorem settleSuccess_steps (w : Wired db) (hf : Filed db) {payment : Payment} {k : Id}
    (hk : payment.bookingId = some k) (own : Owns db payment.id k) {s : Settled}
    (h : SettledSuccess db payment s) :
    Steps G (some payment.id) db s.db ∧
      ((s.recovery = none ∧ ∃ b, s.db.bookings.find? k = some b ∧ b.status ≠ .cancelled) ∨
        (s.recovery = some .b2Orphan ∧ Recovering s.db payment.id k (fun _ => False)) ∨
        (s.recovery = some .m6SystemCancelled ∧
          Recovering s.db payment.id k (fun b => b.bySystem = true)) ∨
        (s.recovery = some .cancelledRefund ∧
          Recovering s.db payment.id k (fun _ => True))) := by
  obtain ⟨⟨q, hq, unpaid⟩, k', fp, hp, hk', hfp, hcase⟩ := h
  obtain rfl : k = k' := Option.some.inj (hk.symm.trans hk')
  have hpay : ∀ u, (db.dossier u k).payment = some q.file := fun u => by
    rw [own.dossier_payment, hq]
    rfl
  have hqid : q.id = payment.id := (Table.find?_eq_some.mp hq).2
  have hnew : (db.payments.find? payment.id).map (fun q => (fp q).file) =
      some { q.file with status := .success } := by
    rw [hq, Option.map_some, hfp.file]
  -- a capture for a dead booking, whatever the recovery
  have hdead : (∀ b, db.bookings.find? k = some b → b.status = .cancelled) →
      Effect db s.db db.bookings (db.payments.update payment.id fp hp) [] →
      Steps G (some payment.id) db s.db ∧ ∀ P : BookingFile → Prop,
        (∀ b, db.bookings.find? k = some b → P b.file) →
          Recovering s.db payment.id k P := by
    intro hdead e
    have st : Steps G (some payment.id) db s.db := by
      refine e.steps_payment w own hfp.bookingId fun u => ?_
      rw [hnew]
      refine .capture _ q.file (hpay u) (congrArg some hqid.symm) unpaid fun b hb => ?_
      obtain ⟨x, hx, rfl⟩ := Option.map_eq_some_iff.mp hb
      exact hdead x hx
    refine ⟨st, fun P hP => ⟨own.step st.grows, fun u => ⟨?_, fun p hp' => ?_, fun b hb => ?_⟩⟩⟩
    · exact decide_eq_true (own.step st.grows).booking_lt
    · rw [Option.mem_def, (own.step st.grows).dossier_payment, e.payments,
        Table.find?_update, if_pos rfl, Option.map_map] at hp'
      rw [show (Payment.file ∘ fp) = fun q => (fp q).file from rfl, hnew,
        Option.some.injEq] at hp'
      rw [← hp']
    · rw [Option.mem_def, Db.dossier_booking, e.bookings] at hb
      obtain ⟨x, hx, rfl⟩ := Option.map_eq_some_iff.mp hb
      exact ⟨hdead x hx, hP x hx⟩
  rcases hcase with ⟨hnone, hrec, e⟩ | ⟨b, hb, hc, hrec, e⟩ |
    ⟨b, fb, hbk, hb, hc, hrec, hfb, _, e⟩
  · obtain ⟨st, hopen⟩ := hdead (by simp [hnone]) e
    exact ⟨st, Or.inr (Or.inl ⟨hrec, hopen _ (by simp [hnone])⟩)⟩
  · obtain ⟨st, hopen⟩ := hdead (by simp [hb, hc]) e
    by_cases hsys : b.cancelledBy = some .system
    · rw [if_pos hsys] at hrec
      exact ⟨st, Or.inr (Or.inr (Or.inl ⟨hrec, hopen _ (by simp [hb, Booking.file, hsys])⟩))⟩
    · rw [if_neg hsys] at hrec
      exact ⟨st, Or.inr (Or.inr (Or.inr ⟨hrec, hopen _ (by simp)⟩))⟩
  · refine ⟨?_, Or.inl ⟨hrec, fb b, ?_, ?_⟩⟩
    · refine e.steps w own hfp.bookingId (by simp) fun u => ?_
      obtain ⟨p, hp', hst⟩ := (hf u k).live (dossier_of_find hb u) hc
      obtain rfl := Option.some.inj ((hpay u).symm.trans hp')
      have hst : q.status = .pending ∧ b.status = .pending := by
        rcases hst with hst | hst
        · exact hst
        · have : q.status = .success := hst
          rcases unpaid with h | h <;> rw [this] at h <;> cases h
      rw [hnew, hb, Option.map_some, hfb, Dossier.post_nil]
      exact .confirm _ q.file b.file (hpay u) (dossier_of_find hb u) hst.1 hst.2
    · rw [e.bookings, Table.find?_update, if_pos rfl, hb]
      rfl
    · have := congrArg BookingFile.status (hfb b)
      simp only [Booking.file, BookingFile.mark] at this
      simp [this]

/-- A failure moves the dossier of its own payment. -/
theorem settleFailure_steps (w : Wired db) (hf : Filed db) {payment : Payment} {k : Id}
    (hk : payment.bookingId = some k) (own : Owns db payment.id k) {s : Settled}
    (h : SettledFailure db payment s) : Steps G chain db s.db := by
  obtain ⟨⟨q, hq, pending⟩, _, fp, hp, hfp, hcase⟩ := h
  rcases hcase with ⟨hnone, _⟩ | ⟨k', doomed, hk', hd, e⟩
  · rw [hk] at hnone
    cases hnone
  obtain rfl : k = k' := Option.some.inj (hk.symm.trans hk')
  have hid : doomed.id = k := (Table.find?_eq_some.mp hd).2
  refine e.steps_delete w own hfp.bookingId ?_ fun u => ?_
  · intro x hx
    rw [returnEntries_bookingId x hx, hid]
  · have hpay : (db.dossier u k).payment = some q.file := by
      rw [own.dossier_payment, hq]
      rfl
    obtain ⟨b, hb, hst⟩ := (hf u k).awaited hpay pending
    obtain rfl := Option.some.inj ((dossier_of_find hd u).symm.trans hb)
    rw [hq, Option.map_some, hfp.file, Dossier.post_return hid.symm (Or.inl rfl)]
    exact .decline _ q.file doomed.file hpay hb pending hst

/-! ## Recovering -/

/-- The payment of an open recovery, when the row is still there. -/
theorem Recovering.dossier_payment {pid k : Id} {P : BookingFile → Prop}
    (h : Recovering db pid k P) {q : Payment} (hq : db.payments.find? pid = some q) (u : Id) :
    (db.dossier u k).payment = some q.file := by
  rw [h.owns.dossier_payment, hq]
  rfl

/-- **The recreation confirms the booking it brings back**, or leaves the recovery open. -/
theorem b2Recreate_steps (w : Wired db) {now : Instant} {pid k : Id} {s : BookingSnapshot}
    {kind : RecoveryKind} (hr : Recovering db pid k (fun _ => False))
    (hs : ∀ u, (db.dossier u k).Shows s)
    (h : b2Recreate now db pid (some k) s = .ok (db', kind)) :
    Steps G (some pid) db db' ∧ ((kind = .recreated ∧ ∃ b, db'.bookings.find? k = some b ∧
      b.status = .confirmed) ∨
      (kind ≠ .recreated ∧ Recovering db' pid k (fun _ => False))) := by
  rcases b2Recreate_ok h with ⟨rfl, rfl⟩ |
    ⟨⟨q, hq, _⟩, ⟨rfl, fp, hp, hfp, e⟩ | ⟨rfl, hrec, _, hpays⟩⟩
  · exact ⟨.refl w, Or.inr ⟨by simp, hr⟩⟩
  · have st : Steps G (some pid) db db' :=
      steps_of_payments w fp hp hfp.file hfp.bookingId e
    refine ⟨st, Or.inr ⟨by simp, hr.owns.step st.grows, fun u => ?_⟩⟩
    rw [dossier_of_payments fp hp hfp.file hfp.bookingId e]
    exact hr.isOpen u
  · obtain ⟨hn, fp, hp, hpays, hfp⟩ := hpays k rfl
    rw [Option.getD_some] at hrec
    have hinsert : ∀ j, db'.bookings.find? j =
        if j = k then some (recreatedBooking k pid s) else db.bookings.find? j :=
      fun j => Table.find?_insert? hrec.inserted j
    -- the payment was linked to the booking id all along
    obtain ⟨gp, hgp, hsame, hlink, hfile⟩ : ∃ gp hgp,
        db'.payments = db.payments.update pid gp hgp ∧
        (∀ q, (gp q).bookingId = q.bookingId) ∧ ∀ q, (gp q).file = q.file := by
      refine ⟨fun q => { fp q with bookingId := q.bookingId }, hp, ?_, fun _ => rfl,
        fun q => (hfp q).1⟩
      rw [hpays]
      refine Table.update_congr fun a ha hk => ?_
      have hlink := (hr.owns.iff a ha).mp hk
      rw [hlink, ← (hfp a).2.1]
    have hpay := hr.owns.paymentOf_update hsame hlink
    have hids : ∀ e ∈ redeemEntries (recreatedBooking k pid s), e.bookingId = some k :=
      redeemEntries_bookingId
    have g : Grows db db' := by
      refine ⟨hn.ge, fun b hb => ?_, fun q' hq' => ?_, fun e he j hj => ?_,
        hrec.writes.indexed, _, hrec.writes.entries, hrec.writes.nonzero⟩
      · rw [hn]
        rcases (Table.mem_of_insert? hrec.inserted).mp hb with hb | rfl
        · exact w.bookings b hb
        · exact hr.owns.booking_lt
      · rw [hsame] at hq'
        exact Or.inl (Links.updateMany hlink q' hq')
      · rw [hn]
        rw [hrec.writes.entries, List.mem_append] at he
        rcases he with he | he
        · exact w.entries e he j hj
        · have := hids e he
          rw [hj, Option.some.injEq] at this
          exact this ▸ hr.owns.booking_lt
    refine ⟨.of_rows g hrec.writes hn hids hpay.2 (fun j hj => ?_) (fun u => ?_),
      Or.inl ⟨rfl, recreatedBooking k pid s, ?_, rfl⟩⟩
    · rw [hinsert, if_neg hj]
    · have hd := hr.dossier_payment hq u
      rw [hpay.1, hq, Option.map_some, Option.map_some, hfile, hinsert, if_pos rfl,
        Option.map_some, Dossier.post_redeem rfl]
      have hqid : q.id = pid := (Table.find?_eq_some.mp hq).2
      have hnone : (db.dossier u k).booking = none := by
        cases hb : (db.dossier u k).booking with
        | none => rfl
        | some b => exact absurd ((hr.isOpen u).2.2 b hb).2 (fun h => h)
      have hcore : (recreatedBooking k pid s).file.core =
          (recreatedBooking k q.file.id s).core := by
        rw [show q.file.id = pid from hqid]
        rfl
      have hm : Move G (some pid) u db.balanceOf (db.dossier u k) _ := .recreate _ q.file
        (recreatedBooking k pid s).file s ((recreatedBooking k pid s).dueTo u) hd hnone
        (congrArg some hqid.symm) (hr.captured hq) ((hs u).2 _ hd) hcore rfl rfl rfl rfl
        (fun hpos => ?_)
      · rw [hd] at hm
        exact hm
      · simp only [Db.dossier, neg_eq_zero]
        refine sumOf_eq_zero fun e he hk => ?_
        exact hrec.once hpos e (mem_of_entriesOf he) ⟨hk.1, List.mem_singleton.mp hk.2⟩
    · rw [hinsert, if_pos rfl]

/-- **The un-cancel leaves its booking standing.** -/
theorem m6UnCancel_steps (w : Wired db) {now : Instant} {pid : Id} {booking : Booking}
    {kind : RecoveryKind} (hr : Recovering db pid booking.id (fun b => b.bySystem = true))
    (hf : Filed db) (h : m6UnCancel now db booking = .ok (db', kind)) :
    Steps G (some pid) db db' ∧
      ∀ b, db'.bookings.find? booking.id = some b → b.status ≠ .cancelled := by
  rcases m6UnCancel_ok h with ⟨rfl, rfl, hnot⟩ | ⟨rfl, ⟨x, hx, hc, hsys⟩, fb, hb, e, hfb, _⟩
  · refine ⟨.refl w, fun b hb hc => hnot b hb ⟨hc, ?_⟩⟩
    exact of_decide_eq_true ((hr.isOpen 0).2.2 _ (dossier_of_find hb 0)).2
  · refine ⟨e.steps_booking w ⟨x, hx⟩ (by simp) fun u => ?_, fun b hb => ?_⟩
    · obtain ⟨p, hp, hst⟩ := (hf u _).cancelled _ (dossier_of_find hx u) hc
      obtain ⟨q, hq, rfl, own⟩ := w.payment_of_dossier hp
      have hpid : q.file.id = pid := by
        rw [Option.mem_def, hr.owns.dossier_payment] at hp
        obtain ⟨q', hq', hfile⟩ := Option.map_eq_some_iff.mp hp
        rw [← hfile]
        exact (Table.find?_eq_some.mp hq').2
      rw [hx, Option.map_some, hfb, Dossier.post_nil]
      exact .unCancel _ q.file x.file hp (dossier_of_find hx u) (congrArg some hpid.symm)
        ((hr.isOpen u).2.1 _ hp) hc (decide_eq_true hsys)
    · rw [e.bookings, Table.find?_update, if_pos rfl, hx, Option.map_some,
        Option.some.injEq] at hb
      have := congrArg BookingFile.status (hfb x)
      simp only [Booking.file] at this
      rw [← hb, this]
      simp

/-- A recovery that gives up queues the refund. -/
theorem queueB2Refund_steps (w : Wired db) {pid k : Id} {P : BookingFile → Prop}
    (hr : Recovering db pid k P) (amount : Cents) :
    Steps G (some pid) db (queueB2Refund db pid amount) ∧
      ∀ q, (queueB2Refund db pid amount).payments.find? pid = some q →
        q.status ≠ .success := by
  obtain ⟨hkey, hpays⟩ : ∃ hkey, (queueB2Refund db pid amount).payments =
      db.payments.update pid (Payment.awaitRefund amount) hkey := by
    refine ⟨fun _ => rfl, ?_⟩
    refine Table.updateMany_congr fun q hq => decide_eq_decide.mpr ⟨And.left, fun hid => ?_⟩
    exact ⟨hid, hr.captured (Table.find?_eq_some.mpr ⟨hq, hid⟩)⟩
  refine ⟨?_, fun q hq => ?_⟩
  · refine Effect.steps_payment w hr.owns ⟨rfl, hpays, .none rfl, rfl, rfl⟩ (fun _ => rfl)
      fun u => ?_
    cases hq : db.payments.find? pid with
    | none =>
        have hp : (db.dossier u k).payment = none := by
          rw [hr.owns.dossier_payment, hq]
          rfl
        rw [Option.map_none, ← hp]
        exact .idle _
    | some q =>
        have hp := hr.dossier_payment hq u
        have hqid : q.file.id = pid := (Table.find?_eq_some.mp hq).2
        exact .queue _ q.file hp (congrArg some hqid.symm) (hr.captured hq)
          fun b hb => ((hr.isOpen u).2.2 b hb).1
  · rw [hpays, Table.find?_update, if_pos rfl, Option.map_eq_some_iff] at hq
    obtain ⟨q₀, _, rfl⟩ := hq
    simp [Payment.awaitRefund]

/-! ## Cancelling -/

/-- The exit a cancel takes. -/
def CancelRead.exit (r : CancelRead) : Exit :=
  match r.plan with
  | .hardDelete => .hard
  | _ => .soft

/-- A cancel that keeps the rows, of a payment that was captured. -/
theorem SoftCancelled.steps_refund (w : Wired db) {r : CancelRead} {pid : Id}
    {status : PaymentStatus} {source : LoyaltyLedgerSource} (own : Owns db pid r.booking.id)
    (frozen : ∀ u, (db.dossier u r.booking.id).Frozen r.booking.core)
    (captured : ∀ u, (db.dossier u r.booking.id).Captured)
    (guard : ∀ u, G db.balanceOf .soft (db.dossier u r.booking.id))
    (hstatus : status = .refundPending ∨ status = .refunded)
    (hs : source = .cancelRefundUnpaid ∨ source = .cancelRefundPaid)
    (h : SoftCancelled db db' r pid .success status source) : Steps G chain db db' := by
  obtain ⟨⟨q, hq, hqs⟩, ⟨b, hb⟩, fb, hfb, fp, hfp, e, hfile, hset⟩ := h
  refine e.steps w own hset.bookingId returnEntries_bookingId fun u => ?_
  have hp : (db.dossier u r.booking.id).payment = some q.file := by
    rw [own.dossier_payment, hq]
    rfl
  have hcore : b.core = r.booking.core := (frozen u).2.1 _ (dossier_of_find hb u)
  rw [hq, hb, Option.map_some, Option.map_some, hset.file, hfile,
    Dossier.post_return rfl hs, ← Booking.core_dueTo, ← hcore]
  exact .refund _ q.file b.file status false hp (dossier_of_find hb u) hqs
    (((captured u).2 _ hp).2.2 hqs _ (dossier_of_find hb u)) hstatus rfl (guard u)

/-- A cancel that keeps the rows, of a payment in flight. -/
theorem SoftCancelled.steps_refuse (w : Wired db) (hf : Filed db) {r : CancelRead} {pid : Id}
    {source : LoyaltyLedgerSource} (own : Owns db pid r.booking.id)
    (frozen : ∀ u, (db.dossier u r.booking.id).Frozen r.booking.core)
    (guard : ∀ u, G db.balanceOf .soft (db.dossier u r.booking.id))
    (hs : source = .cancelRefundUnpaid ∨ source = .cancelRefundPaid)
    (h : SoftCancelled db db' r pid .pending .failed source) : Steps G chain db db' := by
  obtain ⟨⟨q, hq, hqs⟩, ⟨b, hb⟩, fb, hfb, fp, hfp, e, hfile, hset⟩ := h
  refine e.steps w own hset.bookingId returnEntries_bookingId fun u => ?_
  have hp : (db.dossier u r.booking.id).payment = some q.file := by
    rw [own.dossier_payment, hq]
    rfl
  have hcore : b.core = r.booking.core := (frozen u).2.1 _ (dossier_of_find hb u)
  obtain ⟨b', hb', hst⟩ := (hf u _).awaited hp hqs
  obtain rfl := Option.some.inj ((dossier_of_find hb u).symm.trans hb')
  rw [hq, hb, Option.map_some, Option.map_some, hset.file, hfile,
    Dossier.post_return rfl hs, ← Booking.core_dueTo, ← hcore]
  exact .refuse _ q.file b.file false hp hb' hqs hst rfl (guard u)

/-- A cancellation by the customer moves the dossier of its booking. -/
theorem cancelCommit_steps (w : Wired db) (hf : Filed db) {now : Instant} {r : CancelRead}
    (hr : r.Relies db) (guard : ∀ u, G db.balanceOf r.exit (db.dossier u r.booking.id))
    (h : cancelCommit now db r = .ok db') : Steps G chain db db' := by
  obtain ⟨frozen, q, hq, own, hst⟩ := hr
  unfold cancelCommit CancelRead.exit at *
  cases hplan : r.plan with
  | pointsOnly payment =>
      simp only [hplan] at h guard
      simp only [CancelRead.plan, hq] at hplan
      split at hplan
      · rename_i hs
        split at hplan
        · cases hplan
          have hcap := hst.resolve_left (by simp [hs])
          exact (cancelPointsOnly_ok h).steps_refund w own frozen hcap.2 guard
            (Or.inr rfl) (Or.inr rfl)
        · cases hplan
      · split at hplan <;> cases hplan
  | paid payment =>
      simp only [hplan] at h guard
      simp only [CancelRead.plan, hq] at hplan
      split at hplan
      · rename_i hs
        split at hplan
        · cases hplan
        · cases hplan
          have hcap := hst.resolve_left (by simp [hs])
          exact (cancelPaid_ok h).steps_refund w own frozen hcap.2 guard
            (Or.inl rfl) (Or.inr rfl)
      · split at hplan <;> cases hplan
  | inFlight payment =>
      simp only [hplan] at h guard
      simp only [CancelRead.plan, hq] at hplan
      split at hplan
      · split at hplan <;> cases hplan
      · split at hplan
        · cases hplan
          exact (cancelInFlight_ok h).steps_refuse w hf own frozen guard (Or.inl rfl)
        · cases hplan
  | hardDelete =>
      simp only [hplan] at h guard
      obtain ⟨⟨b, hb⟩, e⟩ := cancelHardDelete_ok h
      rw [hq] at e
      refine e.steps_purge w own returnEntries_bookingId fun u => ?_
      have hcore : b.core = r.booking.core := (frozen u).2.1 _ (dossier_of_find hb u)
      rw [Dossier.post_return rfl (Or.inl rfl), ← Booking.core_dueTo, ← hcore]
      exact .purge _ b.file (dossier_of_find hb u) (guard u)

/-! ## Deciding -/

/-- A decision moves the dossier of its own payment. -/
theorem decisionCommit_steps (w : Wired db) {now : Instant} {r : DecisionRead}
    (own : Owns db r.paymentId r.booking.id) (h : decisionCommit now db r = .ok db') :
    Steps G chain db db' := by
  obtain ⟨⟨q, hq, hqs⟩, fb, hb, fp, hp, es, status, e, hfb, hset, hes, hst⟩ :=
    decisionCommit_ok h
  refine e.steps w own hset.bookingId (fun x hx => (hes x hx).1) fun u => ?_
  have hpay : (db.dossier u r.booking.id).payment = some q.file := by
    rw [own.dossier_payment, hq]
    rfl
  have hsame : (db.bookings.find? r.booking.id).map (fun b => (fb b).file) =
      (db.dossier u r.booking.id).booking := by
    rw [Db.dossier_booking]
    exact congrArg (Option.map · _) (funext hfb)
  rw [Dossier.post_uncounted hes, hq, Option.map_some, hset.file, hsame]
  exact .decide _ q.file status hpay hqs hst

/-! ## Operators -/

/-- The one award of a booking is the sum of its awards. -/
theorem Indexed.awardOf_eq {es : List Entry} (h : Indexed es) (k : Id) :
    awardOf es k = sumOf es [.bookingEarn] k := by
  induction es using List.reverseRecOn with
  | nil => rfl
  | append_singleton es e ih =>
      rw [Indexed, List.pairwise_append] at h
      obtain ⟨hes, _, hlast⟩ := h
      by_cases he : e.bookingId = some k ∧ e.source = .bookingEarn
      · have hzero : sumOf es [.bookingEarn] k = 0 := by
          refine sumOf_eq_zero fun x hx hk => ?_
          rcases hlast x hx e (by simp) with hnone | hne
          · rw [hk.1] at hnone
            cases hnone
          · exact hne ⟨he.1.trans hk.1.symm,
              he.2.trans (List.mem_singleton.mp hk.2).symm⟩
        rw [sumOf_append, hzero, zero_add, sumOf_singleton, if_pos (by simpa using he)]
        simp [awardOf, he]
      · rw [sumOf_append, sumOf_singleton, if_neg (by simpa using he), add_zero, ← ih hes]
        simp [awardOf, he]

/-- A status other than `CANCELLED` is set soundly: on a booking that is
not cancelled, and `CONFIRMED` or `COMPLETED` only when the payment is
captured. -/
def StatusRead.Sane (db : Db) (r : StatusRead) : Prop :=
  r.newStatus ≠ .cancelled → ∀ b ∈ db.bookings.find? r.booking.id,
    b.status ≠ .cancelled ∧ (r.newStatus = .confirmed ∨ r.newStatus = .completed →
      ∃ q ∈ b.paymentId.bind (fun id => db.payments.find? id), q.status = .success)

instance (db : Db) (r : StatusRead) : Decidable (r.Sane db) :=
  inferInstanceAs (Decidable (r.newStatus ≠ .cancelled →
    ∀ b ∈ db.bookings.find? r.booking.id, b.status ≠ .cancelled ∧
      (r.newStatus = .confirmed ∨ r.newStatus = .completed →
        ∃ q ∈ b.paymentId.bind (fun id => db.payments.find? id), q.status = .success)))

/-- The payment of a live booking, as a row. -/
theorem Filed.payment_of_live (w : Wired db) (hf : Filed db) {k : Id} {b : Booking}
    (hb : db.bookings.find? k = some b) (live : b.status ≠ .cancelled) :
    ∃ q, b.paymentId.bind (fun id => db.payments.find? id) = some q ∧ Owns db q.id k ∧
      db.payments.find? q.id = some q ∧ (∀ u, (db.dossier u k).payment = some q.file) ∧
      ((q.status = .pending ∧ b.status = .pending) ∨ q.status = .success) := by
  obtain ⟨p, hp, hst⟩ := (hf 0 k).live (dossier_of_find hb 0) live
  obtain ⟨hname, q, hq, rfl, own⟩ := hf.payment_of_booking w hb hp
  have hid : q.file.id = q.id := rfl
  rw [hid] at hname hq own
  refine ⟨q, by rw [hname]; exact hq, own, hq, fun u => ?_, hst⟩
  rw [own.dossier_payment, hq]
  rfl

/-- A cancellation by an operator moves the dossier of its booking. -/
theorem operatorCancel_steps (w : Wired db) (hf : Filed db) {now : Instant} {op : Operator}
    {k : Id} (guard : ∀ u, G db.balanceOf .operator (db.dossier u k))
    (h : operatorCancel now db op k = .ok db') : Steps G chain db db' := by
  obtain ⟨found, hfound, ⟨_, rfl⟩ | ⟨live, hdo⟩⟩ := operatorCancel_ok h
  · exact .refl w
  obtain ⟨q, hbind, own, hq, hpay, hst⟩ := hf.payment_of_live w hfound live
  obtain ⟨fb, hb, ps, es, c, e, hfb, hes, hps, h0, hmax, hun, hwhole⟩ := (hdo q hbind).effect
  have hid : found.id = k := (Table.find?_eq_some.mp hfound).2
  subst hid
  -- the payment it found decides how it is settled
  obtain ⟨status, hsettled, fp, hp, rfl, hset⟩ : ∃ status,
      ((q.status = .success ∧ status = PaymentStatus.refunded) ∨
        (q.status = .pending ∧ status = PaymentStatus.failed)) ∧
      Settled.Row db.payments ps q.id status := by
    rcases hst with ⟨hs, _⟩ | hs
    · exact ⟨_, Or.inr ⟨hs, rfl⟩, hps.2 hs⟩
    · exact ⟨_, Or.inl ⟨hs, rfl⟩, hps.1 hs⟩
  have hall : ∀ x ∈ es ++ returnEntries found .cancelRefundPaid ++ reverseEntries found c,
      x.bookingId = some found.id := by
    intro x hx
    simp only [List.mem_append] at hx
    rcases hx with (hx | hx) | hx
    · exact (hes x hx).1
    · exact returnEntries_bookingId x hx
    · unfold reverseEntries at hx
      split at hx
      · rw [List.mem_singleton.mp hx]
      · cases hx
  refine e.steps w own hset.bookingId hall fun u => ?_
  have hearned : (db.dossier u found.id).earned = awardOf db.entries found.id :=
    (w.indexed.awardOf_eq _).symm
  rw [Dossier.post_append, Dossier.post_append, Dossier.post_uncounted hes,
    Dossier.post_return rfl (Or.inr rfl), Dossier.post_reverse rfl h0, hq, hfound,
    Option.map_some, Option.map_some, hset.file]
  refine .operatorCancel _ q.file found.file (fb found).file status c (hpay u)
    (dossier_of_find hfound u) live hsettled (hfb found).2.1 (hfb found).1 (hfb found).2.2
    h0 ?_ hun ?_ (guard u)
  · rw [hearned]
    exact hmax
  · rw [hearned]
    exact hwhole

/-- **A status update of an operator** moves the dossier of its booking. -/
theorem statusCommit_steps (w : Wired db) (hf : Filed db) {now : Instant} {r : StatusRead}
    (sane : r.Sane db) (guard : r.newStatus = .cancelled →
      ∀ u, G db.balanceOf .operator (db.dossier u r.booking.id))
    (h : statusCommit now db r = .ok db') : Steps G chain db db' := by
  by_cases hc : r.newStatus = .cancelled
  · unfold statusCommit at h
    rw [if_pos hc] at h
    exact operatorCancel_steps w hf (guard hc) h
  obtain ⟨⟨b, hb⟩, hcase⟩ := statusCommit_mark_ok hc h
  obtain ⟨live, hpaid⟩ := sane hc b hb
  obtain ⟨q, hbind, _, _, hpay, hst⟩ := hf.payment_of_live w hb live
  have paid : (b.file.mark r.newStatus).Booked → q.status = .success := by
    intro hbooked
    obtain ⟨q', hq', hs⟩ := hpaid hbooked
    rwa [Option.some.inj (hbind.symm.trans hq')]
  rcases hcase with ⟨fb, hfk, e, hfb⟩ | ⟨hcomp, ⟨x, hx, haw⟩, fb, hfk, points, e, hpos, hfb⟩
  · refine e.steps_booking w ⟨b, hb⟩ (by simp) fun u => ?_
    rw [hb, Option.map_some, hfb, Dossier.post_nil]
    have hm : Move G chain u db.balanceOf (db.dossier u r.booking.id) _ := .mark _ q.file
      b.file (b.file.mark r.newStatus) 0 (hpay u) (dossier_of_find hb u) live hc paid rfl rfl
      le_rfl (Or.inl ⟨rfl, rfl⟩)
    rwa [add_zero] at hm
  · obtain rfl := Option.some.inj (hb.symm.trans hx)
    refine e.steps_booking w ⟨b, hb⟩ ?_ fun u => ?_
    · intro y hy
      rw [List.mem_singleton.mp hy]
      rfl
    · rw [hb, Option.map_some, hfb, Dossier.post_earn rfl]
      exact .mark _ q.file b.file (b.file.mark r.newStatus).award points (hpay u)
        (dossier_of_find hb u) live hc paid rfl rfl hpos.le
        (Or.inr ⟨haw, rfl, paid (Or.inr hcomp)⟩)

/-! ## Jobs -/

/-- The award job writes one row for its booking. -/
theorem awardOne_steps (w : Wired db) (hf : Filed db) {rate : ℚ} {b : Booking}
    (h : awardOne db rate b = .ok db') : Steps G chain db db' := by
  rcases awardOne_ok h with rfl | ⟨⟨x, hx, hst, haw⟩, fb, hb, points, e, hpos, hfb⟩
  · exact .refl w
  refine e.steps_booking w ⟨x, hx⟩ ?_ fun u => ?_
  · intro y hy
    rw [List.mem_singleton.mp hy]
    rfl
  · obtain ⟨p, hp, hcap⟩ := (hf u b.id).booked _ (dossier_of_find hx u) hst
    rw [hx, Option.map_some, hfb, Dossier.post_earn rfl]
    exact .serve _ p x.file x.file.award points hp (dossier_of_find hx u) hst hst hcap rfl
      rfl hpos.le (Or.inr ⟨haw, rfl⟩)

/-- The cron job completes confirmed bookings and nothing else. -/
theorem completeConfirmed_steps (w : Wired db) (hf : Filed db) (scanned : List Booking) :
    Steps G chain db (completeConfirmed db scanned) := by
  have hkeep : KeepsIds db.bookings (completeConfirmed db scanned).bookings := by
    intro b' (hb' : b' ∈ (db.bookings.updateMany _ Booking.complete (fun _ => rfl)).rows)
    obtain ⟨b, hb, rfl⟩ := Table.mem_updateMany.mp hb'
    refine ⟨b, hb, ?_⟩
    split <;> rfl
  have e : Effect db (completeConfirmed db scanned) (completeConfirmed db scanned).bookings
      db.payments [] := ⟨rfl, rfl, .none rfl, rfl, rfl⟩
  refine ⟨e.grows w hkeep (fun q hq => ⟨q, hq, rfl, rfl⟩) (by simp), fun u k => ?_⟩
  rw [dossier_after e.writes (by rw [e.nextId]), Dossier.post_nil]
  have hbook : (completeConfirmed db scanned).bookings.find? k = _ :=
    Table.find?_updateMany db.bookings _ Booking.complete (fun _ => rfl) k
  rw [hbook]
  cases hb : db.bookings.find? k with
  | none =>
      have : (db.dossier u k).booking = none := by
        rw [Db.dossier_booking, hb]
        rfl
      rw [Option.map_none, Option.map_none, ← this]
      exact .idle _
  | some b =>
      rw [Option.map_some, Option.map_some]
      split
      · rename_i hc
        have hconf : b.status = .confirmed := (of_decide_eq_true hc).1
        obtain ⟨p, hp, hcap⟩ := (hf u k).booked _ (dossier_of_find hb u) (Or.inl hconf)
        have hm : Move G chain u db.balanceOf (db.dossier u k) _ := .serve _ p b.file
          { b.file with status := .completed } 0 hp (dossier_of_find hb u) (Or.inl hconf)
          (Or.inr rfl) hcap rfl rfl le_rfl (Or.inl ⟨rfl, rfl⟩)
        rwa [add_zero] at hm
      · rw [← dossier_of_find hb u]
        exact .idle _

/-- The dossier is of the booking, and the booking is a reservation. -/
def Dossier.ReservedBy (d : Dossier) (b : Booking) : Prop :=
  b.id = d.id ∧ ∃ f, d.booking = some f ∧ f.status = .pending

/-- The dossier after the reaper claimed the booking. -/
def Dossier.reapedBy (d : Dossier) (u : Id) (b : Booking) : Dossier :=
  { d with booking := none, returned := d.returned + b.dueTo u }

/-- One claim of the reaper, on the dossier of every id. -/
theorem reapOne_dossier {now : Instant} {b : Booking} (h : reapOne now db b = .ok db')
    (u k : Id) :
    (db'.payments = db.payments ∧ db'.nextId = db.nextId ∧
      KeepsIds db.bookings db'.bookings) ∧
    (∃ es, Writes db db' es ∧ ∀ x ∈ es, x.bookingId = some b.id) ∧
      (((db.dossier u k).ReservedBy b ∧
          db'.dossier u k = (db.dossier u k).reapedBy u b) ∨
        (¬ (db.dossier u k).ReservedBy b ∧ db'.dossier u k = db.dossier u k)) := by
  rcases reapOne_ok h with ⟨hnot, rfl⟩ | ⟨⟨x, hx, hst⟩, e⟩
  · refine ⟨⟨rfl, rfl, fun b hb => ⟨b, hb, rfl⟩⟩, ⟨[], .none rfl, by simp⟩,
      Or.inr ⟨?_, rfl⟩⟩
    rintro ⟨rfl, f, hf, hst⟩
    obtain ⟨x, hx, rfl⟩ := Option.map_eq_some_iff.mp hf
    exact hnot x hx hst
  · refine ⟨⟨e.payments, e.nextId, fun b' hb' => ?_⟩, ⟨_, e.writes, returnEntries_bookingId⟩,
      ?_⟩
    · rw [e.bookings] at hb'
      exact KeepsIds.delete b' hb'
    · have hpay : db'.paymentOf k = db.paymentOf k := by
        rw [Db.paymentOf, e.payments, Db.paymentOf]
      rw [dossier_after e.writes (by rw [e.nextId]), hpay, e.bookings, Table.find?_delete]
      by_cases hk : b.id = k
      · subst hk
        refine Or.inl ⟨⟨rfl, x.file, dossier_of_find hx u, hst⟩, ?_⟩
        rw [if_pos rfl, Dossier.post_return rfl (Or.inl rfl)]
        rfl
      · refine Or.inr ⟨fun h => hk h.1, ?_⟩
        rw [if_neg (Ne.symm hk), Dossier.post_other returnEntries_bookingId (Ne.symm hk)]
        rfl

/-- The claims of the reaper: each reservation of the scan that is still
pending is gone, its points returned. -/
theorem reapAll_dossier {now : Instant} {u k : Id} : ∀ {stale : List Booking} {db db' : Db},
    forEach stale db (reapOne now) = .ok db' →
    (db'.payments = db.payments ∧ db'.nextId = db.nextId ∧
      KeepsIds db.bookings db'.bookings) ∧
    (∃ es, Writes db db' es ∧ ∀ x ∈ es, ∃ b ∈ stale, x.bookingId = some b.id) ∧
      ((∃ b ∈ stale, (db.dossier u k).ReservedBy b ∧
          db'.dossier u k = (db.dossier u k).reapedBy u b) ∨
        ((∀ b ∈ stale, ¬ (db.dossier u k).ReservedBy b) ∧
          db'.dossier u k = db.dossier u k)) := by
  intro stale
  induction stale with
  | nil =>
      intro db db' h
      obtain rfl := Except.ok.inj h
      exact ⟨⟨rfl, rfl, fun b hb => ⟨b, hb, rfl⟩⟩, ⟨[], .none rfl, by simp⟩,
        Or.inr ⟨by simp, rfl⟩⟩
  | cons b stale ih =>
      intro db db' h
      simp only [forEach, bind_eq_ok] at h
      obtain ⟨db₁, h₁, h₂⟩ := h
      obtain ⟨⟨hp₁, hn₁, hk₁⟩, ⟨es₁, hw₁, hes₁⟩, hd₁⟩ := reapOne_dossier h₁ u k
      obtain ⟨⟨hp₂, hn₂, hk₂⟩, ⟨es₂, hw₂, hes₂⟩, hd₂⟩ := ih h₂
      refine ⟨⟨hp₂.trans hp₁, hn₂.trans hn₁, fun b' hb' => ?_⟩, ⟨_, hw₁.trans hw₂, ?_⟩, ?_⟩
      · obtain ⟨b₁, hb₁, hid⟩ := hk₂ b' hb'
        obtain ⟨b₀, hb₀, hid₀⟩ := hk₁ b₁ hb₁
        exact ⟨b₀, hb₀, hid.trans hid₀⟩
      · intro x hx
        rcases List.mem_append.mp hx with hx | hx
        · exact ⟨b, by simp, hes₁ x hx⟩
        · obtain ⟨b', hb', hid⟩ := hes₂ x hx
          exact ⟨b', by simp [hb'], hid⟩
      · rcases hd₁ with ⟨hres, hsame⟩ | ⟨hnot, hsame⟩
        · -- the row is gone, so no later claim finds it
          rw [hsame] at hd₂
          rcases hd₂ with ⟨_, _, ⟨_, f, hf, _⟩, _⟩ | ⟨_, hsame₂⟩
          · cases hf
          · exact Or.inl ⟨b, by simp, hres, hsame₂⟩
        · rw [hsame] at hd₂
          rcases hd₂ with ⟨b', hb', hres, hsame₂⟩ | ⟨hnone, hsame₂⟩
          · exact Or.inl ⟨b', by simp [hb'], hres, hsame₂⟩
          · refine Or.inr ⟨fun b' hb' => ?_, hsame₂⟩
            rcases List.mem_cons.mp hb' with rfl | hb'
            · exact hnot
            · exact hnone b' hb'

/-- What the reaper relies on of the rows it scanned. -/
def Reapable (db : Db) (stale : List Booking) : Prop :=
  ∀ b ∈ stale, (∀ u, (db.dossier u b.id).Frozen b.core) ∧
    ∀ p, b.paymentId = some p → Owns db p b.id

/-- The payment of a dossier after the scanned reservations' payments failed. -/
theorem failStalePayments_dossier (db : Db) (stale : List Booking) (u k : Id) :
    (failStalePayments db stale).dossier u k = { db.dossier u k with
      payment := (db.paymentOf k).map (fun q => if q.status = .pending ∧
        ∃ b ∈ stale, b.paymentId = some q.id then q.fail.file else q.file) } := by
  have hpay : (failStalePayments db stale).paymentOf k = _ :=
    Table.first?_updateMany db.payments
      (fun q => q.status = .pending ∧ ∃ b ∈ stale, b.paymentId = some q.id) Payment.fail
      (fun _ => rfl) (fun q => q.bookingId = some k) (fun _ => rfl)
  have hw : Writes db (failStalePayments db stale) [] := .none rfl
  rw [dossier_after hw Iff.rfl, Dossier.post_nil, hpay, Option.map_map]
  have hcomp : (Payment.file ∘ fun q => if decide (q.status = .pending ∧
      ∃ b ∈ stale, b.paymentId = some q.id) = true then q.fail else q) =
      fun q => if q.status = .pending ∧ ∃ b ∈ stale, b.paymentId = some q.id then
        q.fail.file else q.file := by
    funext q
    simp only [Function.comp_apply, decide_eq_true_eq]
    split <;> rfl
  rw [hcomp]
  rfl

/-- The reaper cancels what its scan has found. -/
theorem reapStale_steps (w : Wired db) (hf : Filed db) {now : Instant} {stale : List Booking}
    (hr : Reapable db stale) (guard : ∀ b ∈ stale, ∀ u, G db.balanceOf .reap (db.dossier u b.id))
    (h : reapStale now db stale = .ok db') : Steps G chain db db' := by
  simp only [reapStale, bind_eq_ok, pure_eq_ok] at h
  obtain ⟨db₁, h₁, rfl⟩ := h
  have hall : ∀ u k, _ := fun u k => @reapAll_dossier now u k _ _ _ h₁
  obtain ⟨⟨hp, hn, hkeep⟩, ⟨es, hw, hes⟩, _⟩ := hall 0 0
  refine ⟨⟨hn.ge, fun b' hb' => ?_, fun q' hq' => ?_, fun e he j hj => ?_, hw.indexed,
    _, hw.entries, hw.nonzero⟩, fun u k => ?_⟩
  · obtain ⟨b, hb, hid⟩ := hkeep b' hb'
    rw [hid]
    exact (w.bookings b hb).trans_eq hn.symm
  · change q' ∈ (db₁.payments.updateMany _ Payment.fail (fun _ => rfl)).rows at hq'
    obtain ⟨q, hq, rfl⟩ := Table.mem_updateMany.mp hq'
    rw [hp] at hq
    refine Or.inl ⟨q, hq, ?_⟩
    split <;> exact ⟨rfl, rfl⟩
  · have he' : e ∈ db₁.entries := he
    rw [hw.entries, List.mem_append] at he'
    have hlt : j < db.nextId := by
      rcases he' with he' | he'
      · exact w.entries e he' j hj
      · obtain ⟨b, hb, hid⟩ := hes e he'
        rw [hj, Option.some.injEq] at hid
        have := ((hr b hb).1 0).1
        rw [hid]
        exact of_decide_eq_true this
    exact hlt.trans_eq hn.symm
  · have hpay : db₁.paymentOf k = db.paymentOf k := by
      rw [Db.paymentOf, hp, Db.paymentOf]
    rw [failStalePayments_dossier, hpay]
    obtain ⟨_, _, ⟨b, hb, ⟨rfl, f, hfile, hst⟩, hsame⟩ | ⟨hnone, hsame⟩⟩ := hall u k
    · -- reaped: its payment is the one its row names
      obtain ⟨p, hp', _⟩ := (hf u b.id).reserved f hfile hst
      obtain ⟨q, hq, rfl⟩ := Option.map_eq_some_iff.mp hp'
      obtain ⟨_, frozen, depicts⟩ := (hr b hb).1 u
      have hname : b.paymentId = some q.id := (depicts q.file hp').1
      have hfail : (if q.status = .pending ∧ ∃ b ∈ stale, b.paymentId = some q.id then
          q.fail.file else q.file) = { q.file with
            status := if q.file.status = .pending then .failed else q.file.status } := by
        by_cases hs : q.file.status = .pending
        · rw [if_pos ⟨hs, b, hb, hname⟩, if_pos hs]
          rfl
        · rw [if_neg (fun h => hs h.1), if_neg hs]
      rw [hsame, hq, Option.map_some, hfail, Dossier.reapedBy, ← Booking.core_dueTo,
        ← frozen f hfile]
      exact .reap _ q.file f hp' hfile hst (guard b hb u)
    · have hkeep : (db.paymentOf k).map (fun q => if q.status = .pending ∧
          ∃ b ∈ stale, b.paymentId = some q.id then q.fail.file else q.file) =
          (db.dossier u k).payment := by
        refine Option.map_congr fun q hq => if_neg ?_
        rintro ⟨hs, b, hb, hname⟩
        obtain ⟨hmem, hlink⟩ := Table.first?_eq_some hq
        have hk := (((hr b hb).2 q.id hname).iff q hmem).mp rfl
        rw [of_decide_eq_true hlink, Option.some.injEq] at hk
        subst hk
        have hp' : (db.dossier u b.id).payment = some q.file := by
          rw [Db.dossier]
          exact Option.map_eq_some_iff.mpr ⟨q, hq, rfl⟩
        exact hnone b hb ⟨rfl, (hf u b.id).awaited hp' hs⟩
      rw [hsame, hkeep]
      exact .idle _

end Jadwal
