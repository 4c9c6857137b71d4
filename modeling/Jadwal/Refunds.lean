import Jadwal.Captures

/-!
# Queued refunds

A payment that waits for a refund decision is decided through its booking:
`recordRefundDecision` looks up the booking, which must be cancelled, and
its payment.  The cancels queue a refund with the booking in place.  Orphan
recovery queues one for a booking that is gone, and such a payment waits
for ever.  In runs that do not do that, every queued refund can be decided
(`queued_refunds_decidable`).
-/

namespace Jadwal

open Outcome

variable {G : Guard} {chain : Option Id} {u : Id} {balance : Id → Cents} {d d' : Dossier}
  {db db' : Db} {env : Env} {now : Instant}

/-! ## Dossiers -/

/-- A queued refund has its cancelled booking. -/
def Dossier.Queued (d : Dossier) : Prop :=
  ∀ p ∈ d.payment, p.status = .refundPending → ∃ b ∈ d.booking, b.status = .cancelled

/-- A refund queued for a booking that is gone. -/
def Dossier.Orphaned (chain : Option Id) (d d' : Dossier) : Prop :=
  ∃ p, d.payment = some p ∧ p.status = .success ∧ chain = some p.id ∧ d.booking = none ∧
    d'.payment = some { p with status := .refundPending }

/-- A move keeps queued refunds with their bookings, or queues one for a
booking that is gone. -/
theorem Dossier.Queued.step (hs : d.Sound) (h : d.Queued)
    (m : Move G chain u balance d d') : d'.Queued ∨ Dossier.Orphaned chain d d' := by
  obtain ⟨_, pending, reserved, booked, _, _⟩ := hs
  cases m with
  | queue _ p hp mine captured dead =>
      cases hb : d.booking with
      | none => exact Or.inr ⟨p, hp, captured, mine, hb, rfl⟩
      | some b =>
          exact Or.inl fun _ _ _ => ⟨b, rfl, dead b hb⟩
  | refund _ p b status bySystem hp hb captured live refunding =>
      exact Or.inl fun _ _ _ => ⟨_, rfl, rfl⟩
  | operatorCancel _ p b b' status clawback hp hb live settled cancelled =>
      exact Or.inl fun _ _ _ => ⟨b', rfl, cancelled⟩
  | _ =>
      left
      simp only [Dossier.Queued, Dossier.blank, Option.mem_def, Option.some.injEq, forall_eq',
        exists_eq_left', reduceCtorEq] at *
      grind [BookingFile.Booked, BookingFile.Live]

/-! ## Which task queues a refund -/

/-- The payment a task is about to queue a refund for. -/
def Task.refund? : Task → Option Id
  | .queueRefund p _ => some p
  | _ => none

/-- The condition on a step: the payment it queues a refund for is some
booking's, and a status update is sound. -/
structure Sys.BookedRefund (s : Sys) (a : Action) : Prop where
  booked : ∀ p ∈ (s.task? a).bind Task.refund?, ∃ b ∈ s.db.bookings.rows, b.paymentId = some p
  sane : s.SaneUpdate a

instance (s : Sys) (a : Action) : Decidable (s.BookedRefund a) :=
  decidable_of_iff ((∀ p ∈ (s.task? a).bind Task.refund?,
      ∃ b ∈ s.db.bookings.rows, b.paymentId = some p) ∧ s.SaneUpdate a)
    ⟨fun h => ⟨h.1, h.2⟩, fun h => ⟨h.booked, h.sane⟩⟩

/-- A recovery other than the queueing of a refund leaves the file of its
payment alone. -/
theorem Task.run_file (env : Env) (now : Instant) {t : Task} {p : Id}
    (hp : t.recovers = some p) (hr : t.Relies db) (hne : t.refund? = none) :
    ((t.run env now db).1.payments.find? p).map Payment.file =
      (db.payments.find? p).map Payment.file := by
  cases t with
  | b2Check pid =>
      simp only [Task.run]
      split <;> rfl
  | recreate pid amount bookingId s =>
      obtain rfl := Option.some.inj hp
      obtain ⟨k, rfl, _⟩ := hr
      have hkeep : ∀ db' kind, b2Recreate now db pid (some k) s = .ok (db', kind) →
          (db'.payments.find? pid).map Payment.file =
            (db.payments.find? pid).map Payment.file := by
        intro db' kind htx
        rcases b2Recreate_ok htx with ⟨_, rfl⟩ | ⟨_, ⟨_, fp, hfp, hlink, e⟩ | ⟨_, _, _, hpays⟩⟩
        · rfl
        · rw [e.payments, Table.find?_update, if_pos rfl, Option.map_map]
          exact congrArg (Option.map · _) (funext hlink.file)
        · obtain ⟨_, fp, hfp, hps, hfile⟩ := hpays k rfl
          rw [hps, Table.find?_update, if_pos rfl, Option.map_map]
          exact congrArg (Option.map · _) (funext fun q => (hfile q).1)
      simp only [Task.run]
      split
      · rfl
      · rename_i htx
        exact hkeep _ _ htx
      · rename_i htx
        exact hkeep _ _ htx
  | m6Check pid k =>
      simp only [Task.run]
      split <;> rfl
  | unCancel pid booking =>
      simp only [Task.run]
      split
      · rfl
      · rename_i htx
        rcases m6UnCancel_ok htx with ⟨_, rfl, _⟩ | ⟨_, _, _, _, e, _⟩
        · rfl
        · rw [e.payments]
  | queueRefund pid amount => cases hne
  | _ => cases hp

/-- **Every step that queues refunds for bookings keeps them decidable.** -/
theorem Consistent.queued_step {s s' : Sys} {a : Action} (h : Consistent s)
    (hq : ∀ u k, (s.db.dossier u k).Queued) (hg : s.BookedRefund a)
    (hstep : s.step env a = some s') : ∀ u k, (s'.db.dossier u k).Queued := by
  intro u k
  rcases Sys.step_cases hstep with ⟨elapsed, rfl, rfl⟩ | ⟨request, t, rfl, _, rfl⟩ |
    ⟨index, t, rfl, ht, rfl⟩
  · exact hq u k
  · exact hq u k
  have hrel := h.relies t (List.mem_of_getElem? ht)
  obtain ⟨chain, ran⟩ := Task.ran env s.now h.wired h.filed hrel (hg.sane.guarded t ht)
  rcases (hq u k).step (h.filed u k) (ran.steps.moves u k) with hok | horphan
  · exact hok
  obtain ⟨p, hp, hpaid, hchain, hgone, hqueued⟩ := horphan
  obtain ⟨q, hrow, rfl, own⟩ := h.wired.payment_of_dossier hp
  -- the task recovers the payment, so it is the one that queues the refund
  have hrec : t.recovers = some q.file.id := by
    rcases ran.opens with hsame | ⟨_, hunpaid⟩
    · exact hsame.symm.trans hchain
    · obtain ⟨q', hq', hne⟩ := hunpaid _ hchain
      rw [hrow] at hq'
      exact absurd hpaid (Option.some.inj hq' ▸ hne)
  cases hrefund : t.refund? with
  | none =>
      have hfile := t.run_file env s.now hrec hrel hrefund
      rw [(own.step ran.steps.grows).dossier_payment] at hqueued
      have hsame : some ({ q.file with status := .refundPending } : PaymentFile) =
          some q.file := by
        rw [← hqueued]
        exact hfile.trans (by rw [hrow]; rfl)
      have := congrArg PaymentFile.status (Option.some.inj hsame)
      rw [hpaid] at this
      cases this
  | some pid =>
      obtain rfl : pid = q.file.id := by
        cases t with
        | queueRefund p amount =>
            rw [← Option.some.inj hrefund]
            exact Option.some.inj hrec
        | _ => cases hrefund
      obtain ⟨b, hb, hname⟩ := hg.booked q.file.id (by
        have htask : s.task? (.run index) = some t := ht
        rw [htask]
        exact hrefund)
      -- the booking that names the payment is the one of the dossier
      have hfind : s.db.bookings.find? b.id = some b := Table.find?_key hb
      have hfiled := dossier_of_find hfind u
      obtain ⟨p', hp'⟩ : ∃ p', (s.db.dossier u b.id).payment = some p' := by
        by_cases hc : b.status = .cancelled
        · obtain ⟨p', hp', _⟩ := (h.filed u b.id).cancelled _ hfiled hc
          exact ⟨p', hp'⟩
        · obtain ⟨p', hp', _⟩ := (h.filed u b.id).live hfiled hc
          exact ⟨p', hp'⟩
      have hdepicts := ((h.filed u b.id).depicts _ hfiled p' hp').1
      have hid : p'.id = q.file.id := Option.some.inj (hdepicts.symm.trans hname)
      have hk : b.id = k := own.dossier_unique hp' hid
      rw [hk] at hfiled
      rw [hfiled] at hgone
      cases hgone

/-! ## Deciding -/

/-- An administrator's decision goes through: it is accepted and leaves the
payment in the given status. -/
def Decides (s : Sys) (q : Payment) (b : Booking) (action : DecisionAction)
    (amount : Option ℚ) (status : PaymentStatus) : Prop :=
  ∀ adminId note, ∃ r db', decisionRead s.db adminId .admin b.id action amount note = .ok r ∧
    decisionCommit s.now s.db r = .ok db' ∧
    (db'.payments.find? q.id).map Payment.status = some status

/-- The payment has a booking whose refund can be decided: every legal
decision is accepted, a refusal and an approval of nothing go through. -/
structure CanDecide (s : Sys) (q : Payment) (b : Booking) : Prop where
  mem : b ∈ s.db.bookings.rows
  linked : b.paymentId = some q.id
  cancelled : b.status = .cancelled
  accepted : ∀ adminId note amount, 0 ≤ amount → amount ≤ q.amount.toNum →
    ∃ r, decisionRead s.db adminId .admin b.id .approve (some amount) note = .ok r
  rejects : Decides s q b .reject none .rejected
  approves : 0 ≤ q.amount → Decides s q b .approve (some 0) .refunded

/-- What the decision reads of a cancelled booking with a queued refund. -/
theorem decisionRead_queued {b : Booking} {q : Payment} {action : DecisionAction}
    {amount : Option ℚ} {final : Cents} (adminId : Id) (note : Option String)
    (hb : db.bookings.find? b.id = some b) (hq : db.payments.find? q.id = some q)
    (linked : b.paymentId = some q.id) (cancelled : b.status = .cancelled)
    (queued : q.status = .refundPending)
    (hfinal : (action = .reject ∧ final = 0) ∨
      (action = .approve ∧ ∃ x, amount = some x ∧ 0 ≤ x ∧ x ≤ q.amount.toNum ∧
        final = toCents x)) :
    ∃ r, decisionRead db adminId .admin b.id action amount note = .ok r ∧ r.booking = b ∧
      r.paymentId = q.id ∧ r.action = action ∧ r.finalAmount = final := by
  simp only [decisionRead, bind_eq_ok, orThrow_eq_ok, ensure_eq_ok, pure_eq_ok]
  refine ⟨_, ⟨b, hb, q, by rw [linked]; exact hq, ⟨⟩, cancelled, ⟨⟩, queued, ⟨⟩, .inl trivial,
    final, ?_, rfl⟩, rfl, rfl, rfl, rfl⟩
  rcases hfinal with ⟨rfl, rfl⟩ | ⟨rfl, x, rfl, hpos, hle, rfl⟩
  · rfl
  · simp only [bind_eq_ok, orThrow_eq_ok, ensure_eq_ok, pure_eq_ok]
    exact ⟨x, rfl, ⟨⟩, hpos, ⟨⟩, hle, rfl⟩

/-- A decision that credits nothing commits. -/
theorem decisionCommit_nothing (now : Instant) {r : DecisionRead} {q : Payment} {b : Booking}
    (hq : db.payments.find? r.paymentId = some q) (queued : q.status = .refundPending)
    (hb : db.bookings.find? r.booking.id = some b) (hfinal : r.finalAmount = 0) :
    ∃ db', decisionCommit now db r = .ok db' ∧
      (db'.payments.find? r.paymentId).map Payment.status =
        some (if r.action = .approve then .refunded else .rejected) := by
  have hfilter : (db.payments.find? r.paymentId).filter
      (fun q => q.status = .refundPending) = some q := by
    rw [hq, Option.filter_some, if_pos (decide_eq_true queued)]
  have hcredit : ¬ (r.action = .approve ∧ r.finalAmount > 0) := by
    rw [hfinal]
    exact fun h => absurd h.2 (lt_irrefl _)
  obtain ⟨db', hcommit⟩ : ∃ db', decisionCommit now db r = .ok db' := by
    simp only [decisionCommit, flipPayment, updateBooking, hfilter, orThrow, hb, hcredit,
      creditRefund, if_false, gt_iff_lt, lt_irrefl, bind, Except.bind, pure, Except.pure]
    exact ⟨_, rfl⟩
  refine ⟨db', hcommit, ?_⟩
  simp only [decisionCommit, bind_eq_ok] at hcommit
  obtain ⟨db₁, hflip, db₂, hupd, hret⟩ := hcommit
  obtain ⟨_, e₁⟩ := flipPayment_ok hflip
  obtain ⟨_, e₂, _⟩ := updateBooking_ok hupd
  obtain ⟨_, e₃, _⟩ := (creditRefund_ok hret).1
  rw [e₃.payments, e₂.payments, e₁.payments]
  refine (congrArg (Option.map Payment.status) (Table.find?_update _ _ _ _ _)).trans ?_
  rw [if_pos rfl, hq]
  rfl

/-- A decision without money goes through. -/
theorem decides_nothing {s : Sys} {q : Payment} {b : Booking} {action : DecisionAction}
    {amount : Option ℚ} (hb : s.db.bookings.find? b.id = some b)
    (hq : s.db.payments.find? q.id = some q) (linked : b.paymentId = some q.id)
    (cancelled : b.status = .cancelled) (queued : q.status = .refundPending)
    (hfinal : (action = .reject ∧ (0 : Cents) = 0) ∨
      (action = .approve ∧ ∃ x, amount = some x ∧ 0 ≤ x ∧ x ≤ q.amount.toNum ∧
        (0 : Cents) = toCents x)) :
    Decides s q b action amount (if action = .approve then .refunded else .rejected) := by
  intro adminId note
  obtain ⟨r, hread, rfl, hid, rfl, hzero⟩ :=
    decisionRead_queued adminId note hb hq linked cancelled queued hfinal
  obtain ⟨db', hcommit, hstatus⟩ :=
    decisionCommit_nothing s.now (hid ▸ hq) queued hb hzero
  exact ⟨r, db', hread, hcommit, hid ▸ hstatus⟩

/-- **Every queued refund can be decided**, in every run that queues refunds
only for payments of bookings that exist. -/
theorem queued_refunds_decidable {s₀ s : Sys} (h : Initial s₀)
    (run : Run (Sys.step env) Sys.BookedRefund s₀ s) :
    ∀ q ∈ s.db.payments.rows, q.status = .refundPending → ∃ b, CanDecide s q b := by
  have hall : Consistent s ∧ ∀ u k, (s.db.dossier u k).Queued := by
    refine run.invariant (fun s => Consistent s ∧ ∀ u k, (s.db.dossier u k).Queued)
      (fun s a s' ⟨hc, hq⟩ hg hstep => ?_) ⟨h.consistent, fun u k => ?_⟩
    · exact ⟨(hc.step hg.sane.guarded hstep).1, hc.queued_step hq hg hstep⟩
    · rw [h.dossier]
      simp [Dossier.Queued, Dossier.blank]
  obtain ⟨hc, hqueued⟩ := hall
  intro q hmem queued
  have hrow : s.db.payments.find? q.id = some q := Table.find?_key hmem
  obtain ⟨_, k, hk, _⟩ := hc.wired.payments q hmem
  have own := hc.wired.owns hmem hk
  have hpay : (s.db.dossier 0 k).payment = some q.file := by
    rw [own.dossier_payment, hrow]
    rfl
  obtain ⟨file, hfile, cancelled⟩ := hqueued 0 k q.file hpay queued
  obtain ⟨b, hb, rfl⟩ := Option.map_eq_some_iff.mp hfile
  obtain ⟨hbmem, hid⟩ := Table.find?_eq_some.mp hb
  have linked : b.paymentId = some q.id :=
    ((hc.filed 0 k).depicts _ (dossier_of_find hb 0) _ hpay).1
  have hfind : s.db.bookings.find? b.id = some b := Table.find?_key hbmem
  refine ⟨b, hbmem, linked, cancelled, fun adminId note amount hpos hle => ?_, ?_,
    fun hamount => ?_⟩
  · obtain ⟨r, hread, -⟩ := decisionRead_queued adminId note hfind hrow linked
      cancelled queued (.inr ⟨rfl, amount, rfl, hpos, hle, rfl⟩)
    exact ⟨r, hread⟩
  · exact decides_nothing hfind hrow linked cancelled queued (.inl ⟨rfl, rfl⟩)
  · refine decides_nothing hfind hrow linked cancelled queued
      (.inr ⟨rfl, 0, rfl, le_rfl, ?_, ?_⟩)
    · have : (0 : ℚ) ≤ (q.amount : ℚ) := by exact_mod_cast hamount
      exact div_nonneg this (by norm_num)
    · norm_num [toCents, mathRound]

/-- A paid booking its customer cancels. -/
theorem queued_refunds_cancelled :
    ∃ s, Run (Sys.step marketEnv) Sys.BookedRefund market s ∧
      ∃ q ∈ s.db.payments.rows, q.status = .refundPending ∧ ∃ b, CanDecide s q b := by
  obtain ⟨s, run, h⟩ := @Run.of_execAll_test _ _ (Sys.step marketEnv) Sys.BookedRefund _
    (capturedRun ++ [.begin (.cancelBooking 1 101), .run 0])
    market (fun s => s.db.payments.rows.any (fun q => q.status = .refundPending))
    (by decide +kernel)
  obtain ⟨q, hq, hst⟩ := List.any_eq_true.mp h
  have hst := of_decide_eq_true hst
  exact ⟨s, run, q, hq, hst, queued_refunds_decidable market_initial run q hq hst⟩

/-- A capture that arrives when the unpaid booking has been deleted and its
day is over: the refund is queued, and there is no booking to decide it by. -/
theorem queued_refund_stuck : Initial market ∧
    ∃ s, Run (Sys.step marketEnv) (fun _ _ => True) market s ∧
      ∃ q ∈ s.db.payments.rows, q.status = .refundPending ∧ ∀ b, ¬ CanDecide s q b := by
  refine ⟨market_initial, ?_⟩
  obtain ⟨s, run, h⟩ := @Run.of_execAll_test _ _ (Sys.step marketEnv) (fun _ _ => True) _
    [.begin (.createBooking 1 (marketRequest none) "R1"), .run 0, .run 0,
      .begin (.initiatePayment 101 1 none "B1"), .run 0, .tick (3 * 86400000),
      .begin .autoCancelStalePendingBookings, .run 0,
      .begin (.handleCallback (capture "T1")), .run 0, .run 0, .run 0]
    market (fun s => s.db.payments.rows.any (fun q => q.status = .refundPending) &&
      s.db.bookings.rows.isEmpty) (by decide +kernel)
  rw [Bool.and_eq_true, List.any_eq_true, List.isEmpty_iff] at h
  obtain ⟨⟨q, hq, hst⟩, hempty⟩ := h
  refine ⟨s, run, q, hq, of_decide_eq_true hst, fun b hb => ?_⟩
  have := hb.mem
  rw [hempty] at this
  cases this

end Jadwal
