import Jadwal.Lifecycle

/-!
# The invariant of the running system

Any interleaving of the tasks keeps the database wired, every dossier
sound, what the tasks in flight rely on true, and the recoveries in flight
disjoint.  `Consistent` is that invariant and `Consistent.step` the step
lemma; the guard it needs is the one thing the status updates of vendors
and administrators do not check themselves.

On top of it, an invariant of moves is an invariant of runs
(`Consistent.run_dossiers`), and payment and booking status agree
(`statuses_agree`).
-/

namespace Jadwal

open Outcome

variable {G : Guard} {db db' : Db} {env : Env} {now : Instant}

/-! ## One run of a task -/

/-- The condition a run of the system puts on the task it runs: status
updates are sound, and exits are guarded. -/
def Task.Guarded (G : Guard) (db : Db) : Task → Prop
  | .update r => r.Sane db ∧ (r.newStatus = .cancelled →
      ∀ u, G db.balanceOf .operator (db.dossier u r.booking.id))
  | .cancel r => ∀ u, G db.balanceOf r.exit (db.dossier u r.booking.id)
  | .reap stale => ∀ b ∈ stale, ∀ u, G db.balanceOf .reap (db.dossier u b.id)
  | _ => True

/-- What one run of a task does: moves, and a successor that carries on
with the payment the task leaves uncollected. -/
structure Ran (G : Guard) (db : Db) (t : Task) (db' : Db)
    (next : Option Task) (chain : Option Id) : Prop where
  steps : Steps G chain db db'
  relies : ∀ t' ∈ next, t'.Relies db'
  carries : ∀ t' ∈ next, ∀ p, t'.recovers = some p → chain = some p
  collects : ∀ u k p, (db'.dossier u k).Uncollected p → chain = some p.id →
    ∃ t' ∈ next, t'.recovers = some p.id
  opens : chain = t.recovers ∨ (t.recovers = none ∧ ∀ p, chain = some p →
    ∃ q, db.payments.find? p = some q ∧ q.status ≠ .success)

/-- A run of a task that recovers nothing and opens no recovery. -/
theorem Ran.plain {t : Task} {next : Option Task} (ht : t.recovers = none)
    (st : Steps G none db db')
    (hnext : ∀ t' ∈ next, t'.recovers = none ∧ t'.Relies db') :
    Ran G db t db' next none where
  steps := st
  relies t' h := (hnext t' h).2
  carries t' h p hp := by
    rw [(hnext t' h).1] at hp
    cases hp
  collects u k p _ h := by cases h
  opens := Or.inl ht.symm

/-- A run of a recovery: it goes on, or leaves nothing uncollected. -/
theorem Ran.recovering {t : Task} {next : Option Task} {pid k : Id}
    (ht : t.recovers = some pid) (own : Owns db pid k) (st : Steps G (some pid) db db')
    (hnext : ∀ t' ∈ next, t'.recovers = some pid ∧ t'.Relies db')
    (closed : next = none → ∀ u p, ¬ (db'.dossier u k).Uncollected p) :
    Ran G db t db' next (some pid) where
  steps := st
  relies t' h := (hnext t' h).2
  carries t' h p hp := (hnext t' h).1.symm.trans hp
  collects u j p hp hid := by
    have hid : p.id = pid := (Option.some.inj hid).symm
    obtain rfl := (own.step st.grows).dossier_unique hp.1 hid
    cases next with
    | none => exact absurd hp (closed rfl u p)
    | some t' => exact ⟨t', rfl, hid ▸ (hnext t' rfl).1⟩
  opens := Or.inl ht.symm

/-- A transaction of its own, committed or thrown. -/
theorem committed_steps (w : Wired db) (tx : Tx Db)
    (h : ∀ db', tx = .ok db' → Steps G none db db') : Steps G none db (committed db tx) := by
  cases tx with
  | error e => exact .refl w
  | ok db' => exact h db' rfl

/-- A transaction that leaves the recoveries alone, committed or rolled back. -/
theorem Ran.committed {t : Task} (ht : t.recovers = none) (w : Wired db) (tx : Tx Db)
    (h : ∀ db', tx = .ok db' → Steps G none db db') :
    Ran G db t (Jadwal.committed db tx) none none :=
  .plain ht (committed_steps w tx h) (by simp)

/-- Without its booking a payment is not left uncollected. -/
theorem Recovering.not_uncollected {pid k : Id} (h : Recovering db pid k (fun _ => False))
    (u : Id) (p : PaymentFile) : ¬ (db.dossier u k).Uncollected p := by
  rintro ⟨_, _, b, hb, _⟩
  exact ((h.isOpen u).2.2 b hb).2

/-- The second pass of the reaper recovers nothing and relies on what it has read. -/
theorem secondPass_plain (env : Env) (now : Instant) (db : Db) (cutoff : Option Instant) :
    ∀ t' ∈ secondPass env now db cutoff, t'.recovers = none ∧ t'.Relies db := by
  intro t' ht'
  simp only [secondPass, Option.mem_def, Option.bind_eq_some_iff] at ht'
  obtain ⟨c, _, ht'⟩ := ht'
  split at ht'
  · cases ht'
  · rw [← Option.some.inj ht']
    exact ⟨rfl, trivial⟩

/-- **The settlement of a callback** hands over to the recovery of its own payment. -/
theorem settle_ran (w : Wired db) (hf : Filed db) {payment : Payment}
    {params : CallbackParams} {isSuccess : Bool} {k : Id} (hk : payment.bookingId = some k)
    (own : Owns db payment.id k) {s : Settled}
    (h : settleTx now db payment params isSuccess = .ok s) :
    ∃ chain, Ran G db (.settle payment params isSuccess) s.db
      (afterSettle payment s.recovery) chain := by
  have hidle : s.db = db ∧ s.recovery = none → ∃ chain,
      Ran G db (.settle payment params isSuccess) s.db (afterSettle payment s.recovery)
        chain := by
    rintro ⟨hdb, hrec⟩
    rw [hdb, hrec]
    exact ⟨none, .plain rfl (.refl w) (by simp [afterSettle])⟩
  unfold settleTx at h
  split at h
  · rcases settleSuccess_ok h with hid | hs
    · exact hidle hid
    obtain ⟨q, hq, unpaid⟩ := hs.unpaid
    obtain ⟨st, hcase⟩ := settleSuccess_steps w hf hk own hs
    refine ⟨some payment.id, st, ?_, ?_, ?_, Or.inr ⟨rfl, ?_⟩⟩
    · rcases hcase with ⟨hrec, _⟩ | ⟨hrec, hr⟩ | ⟨hrec, hr⟩ | ⟨hrec, hr⟩ <;>
        rw [hrec] <;> intro t' ht'
      · cases ht'
      · rw [← Option.some.inj ht']
        exact ⟨k, hr⟩
      · simp only [afterSettle, hk, Option.map_some] at ht'
        rw [← Option.some.inj ht']
        exact hr
      · rw [← Option.some.inj ht']
        exact ⟨k, hr⟩
    · rcases hcase with ⟨hrec, _⟩ | ⟨hrec, _⟩ | ⟨hrec, _⟩ | ⟨hrec, _⟩ <;>
        rw [hrec] <;> intro t' ht' p hp
      · cases ht'
      · rw [← Option.some.inj ht'] at hp
        exact hp
      · simp only [afterSettle, hk, Option.map_some] at ht'
        rw [← Option.some.inj ht'] at hp
        exact hp
      · rw [← Option.some.inj ht'] at hp
        exact hp
    · intro u j p hp hid
      rw [← hid]
      rcases hcase with ⟨_, b, hb, hc⟩ | ⟨hrec, _⟩ | ⟨hrec, _⟩ | ⟨hrec, _⟩
      · obtain rfl := (own.step st.grows).dossier_unique hp.1 (Option.some.inj hid).symm
        obtain ⟨b', hb', hcan⟩ := hp.2.2
        obtain rfl := Option.some.inj ((dossier_of_find hb u).symm.trans hb')
        exact absurd hcan hc
      · rw [hrec]
        exact ⟨_, rfl, rfl⟩
      · rw [hrec]
        simp only [afterSettle, hk, Option.map_some]
        exact ⟨_, rfl, rfl⟩
      · rw [hrec]
        exact ⟨_, rfl, rfl⟩
    · intro p hp
      rw [← Option.some.inj hp]
      refine ⟨q, hq, fun hs => ?_⟩
      rcases unpaid with h | h <;> rw [hs] at h <;> cases h
  · rcases settleFailure_ok h with hid | hs
    · exact hidle hid
    · rw [hs.recovery]
      exact ⟨none, .plain rfl (settleFailure_steps w hf hk own hs) (by simp [afterSettle])⟩

/-- The check before a lost booking is recreated changes nothing. -/
theorem b2Check_ran (w : Wired db) {pid k : Id}
    (hr : Recovering db pid k (fun _ => False)) :
    Ran G db (.b2Check pid) ((Task.b2Check pid).run env now db).1
      ((Task.b2Check pid).run env now db).2 (some pid) := by
  have hstop : Ran G db (.b2Check pid) db none (some pid) :=
    .recovering rfl hr.owns (.refl w) (by simp) fun _ => hr.not_uncollected
  have hrefund : ∀ amount, Ran G db (.b2Check pid) db (some (.queueRefund pid amount))
      (some pid) := by
    intro amount
    refine .recovering rfl hr.owns (.refl w) ?_ (by simp)
    intro t' ht'
    rw [← Option.some.inj ht']
    exact ⟨rfl, k, hr.mono fun _ => False.elim⟩
  simp only [Task.run]
  cases hplan : b2Preflight env now db pid with
  | nothing => exact hstop
  | refund amount reason => exact hrefund amount
  | recreate amount bookingId s =>
      obtain ⟨q, hq, _, hlink, hs⟩ := b2Preflight_recreate hplan
      refine .recovering rfl hr.owns (.refl w) ?_ (by simp)
      intro t' ht'
      rw [← Option.some.inj ht']
      obtain ⟨hmem, hid⟩ := Table.find?_eq_some.mp hq
      refine ⟨rfl, k, hlink.symm.trans ((hr.owns.iff q hmem).mp hid), hr,
        fun u => ⟨(hr.isOpen u).1, ?_⟩⟩
      intro p hp
      rw [hr.dossier_payment hq, Option.mem_def, Option.some.injEq] at hp
      rw [← hp]
      exact hs

/-- The recreation ends the recovery, or hands over to the refund queue. -/
theorem recreate_ran (w : Wired db) {pid k : Id} {amount : Cents} {s : BookingSnapshot}
    (hr : Recovering db pid k (fun _ => False)) (hs : ∀ u, (db.dossier u k).Shows s) :
    Ran G db (.recreate pid amount (some k) s)
      ((Task.recreate pid amount (some k) s).run env now db).1
      ((Task.recreate pid amount (some k) s).run env now db).2 (some pid) := by
  have hrefund : ∀ db', Recovering db' pid k (fun _ => False) → Steps G (some pid) db db' →
      Ran G db (.recreate pid amount (some k) s) db' (some (.queueRefund pid amount))
        (some pid) := by
    intro db' hr' st
    refine .recovering rfl hr.owns st ?_ (by simp)
    intro t' ht'
    rw [← Option.some.inj ht']
    exact ⟨rfl, k, hr'.mono fun _ => False.elim⟩
  simp only [Task.run]
  cases htx : b2Recreate now db pid (some k) s with
  | error e => exact hrefund db hr (.refl w)
  | ok r =>
      obtain ⟨db', kind⟩ := r
      obtain ⟨st, hkind⟩ := b2Recreate_steps (G := G) w hr hs htx
      cases kind with
      | slotConflict =>
          rcases hkind with ⟨h, _⟩ | ⟨_, hr'⟩
          · cases h
          · exact hrefund db' hr' st
      | alreadyRecovered =>
          rcases hkind with ⟨h, _⟩ | ⟨_, hr'⟩
          · cases h
          · exact .recovering rfl hr.owns st (by simp) fun _ => hr'.not_uncollected
      | recreated =>
          rcases hkind with ⟨_, b, hb, hc⟩ | ⟨h, _⟩
          · refine .recovering rfl hr.owns st (by simp) fun _ u p hp => ?_
            obtain ⟨_, _, b', hb', hcan⟩ := hp
            obtain rfl := Option.some.inj ((dossier_of_find hb u).symm.trans hb')
            have hcan : b.status = .cancelled := hcan
            rw [hc] at hcan
            cases hcan
          · exact absurd rfl h

/-- The refund that follows a recovery. -/
theorem Recovering.refund {t : Task} {pid k : Id} {P : BookingFile → Prop}
    (ht : t.recovers = some pid) (hr : Recovering db pid k P) (w : Wired db) (amount : Cents) :
    Ran G db t db (some (.queueRefund pid amount)) (some pid) := by
  refine .recovering ht hr.owns (.refl w) ?_ (by simp)
  intro t' ht'
  rw [← Option.some.inj ht']
  exact ⟨rfl, k, hr.mono fun _ _ => trivial⟩

/-- The check before an un-cancel changes nothing. -/
theorem m6Check_ran (w : Wired db) {pid k : Id}
    (hr : Recovering db pid k (fun b => b.bySystem = true)) :
    Ran G db (.m6Check pid k) ((Task.m6Check pid k).run env now db).1
      ((Task.m6Check pid k).run env now db).2 (some pid) := by
  have hplan := m6Preflight_ok env now db pid k
  simp only [Task.run]
  cases hp : m6Preflight env now db pid k with
  | nothing =>
      rw [hp] at hplan
      refine .recovering rfl hr.owns (.refl w) (by simp) fun _ u p hun => ?_
      rcases hplan with hnone | ⟨b, hb, hnot⟩
      · have := hun.1
        rw [hr.owns.dossier_payment, hnone] at this
        cases this
      · obtain ⟨hc, hsys⟩ := (hr.isOpen u).2.2 _ (dossier_of_find hb u)
        exact hnot ⟨hc, of_decide_eq_true hsys⟩
  | refund amount reason => exact hr.refund rfl w amount
  | unCancel b =>
      rw [hp] at hplan
      refine .recovering rfl hr.owns (.refl w) ?_ (by simp)
      intro t' ht'
      rw [← Option.some.inj ht']
      have hid : b.id = k := (Table.find?_eq_some.mp hplan).2
      refine ⟨rfl, ?_⟩
      rw [Task.Relies, hid]
      exact hr

/-- The un-cancel ends the recovery, or hands over to the refund queue. -/
theorem unCancel_ran (w : Wired db) (hf : Filed db) {pid : Id} {booking : Booking}
    (hr : Recovering db pid booking.id (fun b => b.bySystem = true)) :
    Ran G db (.unCancel pid booking) ((Task.unCancel pid booking).run env now db).1
      ((Task.unCancel pid booking).run env now db).2 (some pid) := by
  simp only [Task.run]
  cases htx : m6UnCancel now db booking with
  | error e =>
      simp only [refundFresh]
      cases hq : db.payments.find? pid with
      | none =>
          refine .recovering rfl hr.owns (.refl w) (by simp) fun _ u p hun => ?_
          have := hun.1
          rw [hr.owns.dossier_payment, hq] at this
          cases this
      | some q => exact hr.refund rfl w q.amount
  | ok r =>
      obtain ⟨db', kind⟩ := r
      obtain ⟨st, hlive⟩ := m6UnCancel_steps (G := G) w hr hf htx
      refine .recovering rfl hr.owns st (by simp) fun _ u p hun => ?_
      obtain ⟨_, _, b, hb, hc⟩ := hun
      obtain ⟨x, hx, rfl⟩ := Option.map_eq_some_iff.mp hb
      exact hlive x hx hc

/-- The refund queue is where a recovery ends at the latest. -/
theorem queueRefund_ran (w : Wired db) {pid k : Id} {amount : Cents}
    (hr : Recovering db pid k (fun _ => True)) :
    Ran G db (.queueRefund pid amount) (queueB2Refund db pid amount) none (some pid) := by
  obtain ⟨st, hpaid⟩ := queueB2Refund_steps (G := G) w hr amount
  refine .recovering rfl hr.owns st (by simp) fun _ u p hun => ?_
  obtain ⟨hp, hs, _⟩ := hun
  rw [(hr.owns.step st.grows).dossier_payment] at hp
  obtain ⟨q, hq, rfl⟩ := Option.map_eq_some_iff.mp hp
  exact hpaid q hq hs

/-- **One run of a task is one move on every dossier.** -/
theorem Task.ran (env : Env) (now : Instant) (w : Wired db) (hf : Filed db) {t : Task}
    (h : t.Relies db) (hg : t.Guarded G db) :
    ∃ chain, Ran G db t (t.run env now db).1 (t.run env now db).2 chain := by
  cases t with
  | create p ref =>
      simp only [Task.run]
      split
      · exact ⟨none, .plain rfl (.refl w) (by simp)⟩
      · rename_i db' b htx
        refine ⟨none, .plain rfl (createBookingTx_steps w hf htx) ?_⟩
        intro t' ht'
        simp only [Option.mem_def, Option.ite_none_right_eq_some] at ht'
        rw [← Option.some.inj ht'.2]
        exact ⟨rfl, trivial⟩
  | stampOtp bookingId user =>
      exact ⟨none, .committed rfl w _ fun _ htx => otpStamp_steps w htx⟩
  | initiate r basketId =>
      exact ⟨none, .committed rfl w _ fun _ htx => initiateWrite_steps w htx⟩
  | hold bookingId =>
      exact ⟨none, .plain rfl (holdNapsSuccess_steps w now bookingId) (by simp [Task.run])⟩
  | settle payment params isSuccess =>
      obtain ⟨k, hk, own⟩ := h
      simp only [Task.run]
      split
      · exact ⟨none, .plain rfl (.refl w) (by simp)⟩
      · rename_i s htx
        exact settle_ran w hf hk own htx
  | b2Check pid =>
      obtain ⟨k, hr⟩ := h
      exact ⟨_, b2Check_ran w hr⟩
  | recreate pid amount bookingId s =>
      obtain ⟨k, rfl, hr, hs⟩ := h
      exact ⟨_, recreate_ran w hr hs⟩
  | m6Check pid k => exact ⟨_, m6Check_ran w h⟩
  | unCancel pid booking => exact ⟨_, unCancel_ran w hf h⟩
  | queueRefund pid amount =>
      obtain ⟨k, hr⟩ := h
      exact ⟨_, queueRefund_ran w hr⟩
  | cancel r => exact ⟨none, .committed rfl w _ fun _ htx => cancelCommit_steps w hf h hg htx⟩
  | decide r => exact ⟨none, .committed rfl w _ fun _ htx => decisionCommit_steps w h htx⟩
  | update r =>
      exact ⟨none, .committed rfl w _ fun _ htx => statusCommit_steps w hf hg.1 hg.2 htx⟩
  | reap stale => exact ⟨none, .committed rfl w _ fun _ htx => reapStale_steps w hf h hg htx⟩
  | awardBatch bookings cutoff =>
      simp only [Task.run]
      split
      · exact ⟨none, .plain rfl (.refl w) (secondPass_plain env now db cutoff)⟩
      · refine ⟨none, .plain rfl ?_ ?_⟩
        · exact Effect.steps_none w ⟨rfl, rfl, .none rfl, rfl, rfl⟩
        · intro t' ht'
          rw [← Option.some.inj ht']
          exact ⟨rfl, trivial⟩
  | award rate todo cutoff =>
      cases todo with
      | nil => exact ⟨none, .plain rfl (.refl w) (secondPass_plain env now db cutoff)⟩
      | cons b todo =>
          refine ⟨none, .plain rfl ?_ ?_⟩
          · exact committed_steps w _ fun _ htx => awardOne_steps w hf htx
          · intro t' ht'
            rw [← Option.some.inj ht']
            exact ⟨rfl, trivial⟩
  | complete bookings =>
      refine ⟨none, .plain rfl (completeConfirmed_steps w hf bookings) ?_⟩
      intro t' ht'
      rw [← Option.some.inj ht']
      exact ⟨rfl, trivial⟩

/-! ## Reading a request -/

/-- What `cancelBooking` reads is in the database. -/
theorem cancelRead_relies (w : Wired db) (hf : Filed db) {userId bookingId : Id}
    {r : CancelRead} (h : cancelRead env now db userId bookingId = .ok r) : r.Relies db := by
  simp only [cancelRead, bind_eq_ok, orThrow_eq_ok, ensure_eq_ok, pure_eq_ok,
    Option.filter_eq_some_iff] at h
  obtain ⟨b, ⟨hb, _⟩, _, hlive, _, _, _, _, rfl⟩ := h
  have hid : b.id = bookingId := (Table.find?_eq_some.mp hb).2
  subst hid
  obtain ⟨q, hbind, own, hq, hpay, hst⟩ := hf.payment_of_live w hb hlive
  refine ⟨fun u => (hf u _).frozen (dossier_of_find hb u), q, hbind, own, ?_⟩
  refine hst.imp And.left fun hs => ⟨hs, fun u => ⟨(hf u _).used (dossier_of_find hb u), ?_⟩⟩
  intro p hp
  rw [Option.mem_def, hpay u, Option.some.injEq] at hp
  have hs : p.status = .success := hp ▸ hs
  refine ⟨by simp [hs], by simp [hs], fun _ x hx => ?_⟩
  rw [Option.mem_def, dossier_of_find hb u, Option.some.injEq] at hx
  exact hx ▸ hlive

/-- A decision is read for the payment of its booking. -/
theorem decisionRead_relies (w : Wired db) (hf : Filed db) {userId bookingId : Id}
    {role : UserRole} {action : DecisionAction} {amount : Option ℚ} {note : Option String}
    {r : DecisionRead}
    (h : decisionRead db userId role bookingId action amount note = .ok r) :
    Owns db r.paymentId r.booking.id := by
  simp only [decisionRead, bind_eq_ok, orThrow_eq_ok, ensure_eq_ok, pure_eq_ok] at h
  obtain ⟨b, hb, q, hq, _, hc, _, _, _, _, _, _, rfl⟩ := h
  have hid : b.id = bookingId := (Table.find?_eq_some.mp hb).2
  subst hid
  obtain ⟨p, hp, _⟩ := (hf 0 b.id).cancelled _ (dossier_of_find hb 0) hc
  obtain ⟨hname, q', hq', rfl, own⟩ := hf.payment_of_booking w hb hp
  rw [hname, Option.bind_some, hq', Option.some.injEq] at hq
  exact hq ▸ own

/-- The vendor reads the booking as stored. -/
theorem vendorStatusRead_booking {bookingId userId : Id} {newStatus : BookingStatus}
    {r : StatusRead} (h : vendorStatusRead env now db userId bookingId newStatus = .ok r) :
    db.bookings.find? r.booking.id = some r.booking := by
  simp only [vendorStatusRead, bind_eq_ok, orThrow_eq_ok, ensure_eq_ok, pure_eq_ok,
    Option.filter_eq_some_iff] at h
  obtain ⟨_, _, _, _, b, ⟨hb, _⟩, _, _, _, _, rfl⟩ := h
  exact Table.find?_key (Table.find?_eq_some.mp hb).1

/-- So does the administrator. -/
theorem adminStatusRead_booking {bookingId adminUserId : Id} {status : BookingStatus}
    {r : StatusRead} (h : adminStatusRead db adminUserId bookingId status = .ok r) :
    db.bookings.find? r.booking.id = some r.booking := by
  simp only [adminStatusRead, bind_eq_ok, orThrow_eq_ok, ensure_eq_ok, pure_eq_ok] at h
  obtain ⟨b, hb, _, _, rfl⟩ := h
  exact Table.find?_key (Table.find?_eq_some.mp hb).1

/-- The scan of the reaper finds what it may cancel. -/
theorem staleBookings_reapable (env : Env) (now : Instant) (w : Wired db)
    (hf : Filed db) :
    Reapable db (staleBookings env now db) := by
  intro b hb
  have hb := (List.mem_of_mem_take hb)
  rw [List.mem_insertionSort] at hb
  obtain ⟨hmem, hst⟩ := Table.mem_select.mp hb
  have hpending : b.status = .pending := (of_decide_eq_true hst).1
  have hfind : db.bookings.find? b.id = some b := Table.find?_key hmem
  refine ⟨fun u => (hf u _).frozen (dossier_of_find hfind u), fun p hp => ?_⟩
  obtain ⟨p', hp', _⟩ := (hf 0 b.id).reserved _ (dossier_of_find hfind 0) hpending
  obtain ⟨hname, _, _, _, own⟩ := hf.payment_of_booking w hfind hp'
  rw [hp, Option.some.injEq] at hname
  exact hname ▸ own

/-- A callback is settled for a payment that is there. -/
theorem callbackRead_relies (w : Wired db) {params : CallbackParams} {t : Task}
    (h : callbackRead env db params = .ok (some t)) : t.recovers = none ∧ t.Relies db := by
  simp only [callbackRead, bind_eq_ok, orThrow_eq_ok, ensure_eq_ok] at h
  obtain ⟨_, _, payment, hp, h⟩ := h
  obtain ⟨hmem, _⟩ := Table.first?_eq_some hp
  obtain ⟨_, k, hk, _⟩ := w.payments payment hmem
  split at h
  · simp only [pure_eq_ok, Option.some.injEq] at h
    rw [← h]
    exact ⟨rfl, trivial⟩
  · simp only [pure_eq_ok, Option.some.injEq] at h
    rw [← h]
    exact ⟨rfl, k, hk, w.owns hmem hk⟩
  · exact absurd h (throw_eq_ok)
  all_goals simp at h

/-- **What a request has read is what its task relies on.** -/
theorem Request.read_relies (w : Wired db) (hf : Filed db) {request : Request} {t : Task}
    (h : request.read env now db = .ok (some t)) : t.recovers = none ∧ t.Relies db := by
  cases request with
  | createBooking userId dto ref =>
      simp only [Request.read, bind_eq_ok, pure_eq_ok, Option.map_eq_some_iff] at h
      obtain ⟨_, _, _, _, rfl⟩ := h
      exact ⟨rfl, trivial⟩
  | verifyBookingEmailOtp userId bookingId =>
      simp only [Request.read, bind_eq_ok, pure_eq_ok, Option.some.injEq] at h
      obtain ⟨_, _, rfl⟩ := h
      exact ⟨rfl, trivial⟩
  | initiatePayment bookingId userId key basketId =>
      simp only [Request.read, bind_eq_ok, pure_eq_ok, Option.some.injEq] at h
      obtain ⟨_, _, rfl⟩ := h
      exact ⟨rfl, trivial⟩
  | handleCallback params => exact callbackRead_relies w h
  | cancelBooking userId bookingId =>
      simp only [Request.read, bind_eq_ok, pure_eq_ok, Option.some.injEq] at h
      obtain ⟨r, hr, rfl⟩ := h
      exact ⟨rfl, cancelRead_relies w hf hr⟩
  | recordRefundDecision userId role bookingId action amount note =>
      simp only [Request.read, bind_eq_ok, pure_eq_ok, Option.some.injEq] at h
      obtain ⟨r, hr, rfl⟩ := h
      exact ⟨rfl, decisionRead_relies w hf hr⟩
  | vendorUpdateBookingStatus userId bookingId newStatus =>
      simp only [Request.read, bind_eq_ok, pure_eq_ok, Option.some.injEq] at h
      obtain ⟨r, hr, rfl⟩ := h
      exact ⟨rfl, fun u => (hf u _).frozen
        (dossier_of_find (vendorStatusRead_booking hr) u)⟩
  | adminUpdateBookingStatus adminUserId bookingId status =>
      simp only [Request.read, bind_eq_ok, pure_eq_ok, Option.some.injEq] at h
      obtain ⟨r, hr, rfl⟩ := h
      exact ⟨rfl, fun u => (hf u _).frozen
        (dossier_of_find (adminStatusRead_booking hr) u)⟩
  | autoCancelStalePendingBookings =>
      simp only [Request.read] at h
      split at h
      · simp at h
      · rename_i stale hstale
        simp only [pure_eq_ok, Option.some.injEq] at h
        rw [← h]
        exact ⟨rfl, staleBookings_reapable env now w hf⟩
  | autoCompletePastBookings =>
      simp only [Request.read, pure_eq_ok, Option.some.injEq] at h
      rw [← h]
      exact ⟨rfl, trivial⟩

/-! ## The invariant of the system -/

/-- **The invariant**: the database is wired and its dossiers sound, every
task in flight can rely on what it does, no payment is recovered twice at a
time, and a captured payment of a cancelled booking is being recovered. -/
structure Consistent (s : Sys) : Prop where
  wired : Wired s.db
  filed : Filed s.db
  relies : ∀ t ∈ s.inflight, t.Relies s.db
  disjoint : (s.inflight.filterMap Task.recovers).Nodup
  collected : ∀ u k p, (s.db.dossier u k).Uncollected p →
    ∃ t ∈ s.inflight, t.recovers = some p.id

/-- The task an action runs meets the guard. -/
def Sys.Guarded (G : Guard) (s : Sys) (a : Action) : Prop :=
  ∀ t, s.task? a = some t → t.Guarded G s.db

/-- The payment a task in flight recovers is captured. -/
theorem Task.Relies.captured {t : Task} (h : t.Relies db) {p : Id}
    (hp : t.recovers = some p) {q : Payment} (hq : db.payments.find? p = some q) :
    q.status = .success := by
  cases t with
  | b2Check pid =>
      obtain rfl := Option.some.inj hp
      obtain ⟨k, hr⟩ := h
      exact hr.captured hq
  | recreate pid amount bookingId s =>
      obtain rfl := Option.some.inj hp
      obtain ⟨k, _, hr, _⟩ := h
      exact hr.captured hq
  | m6Check pid k =>
      obtain rfl := Option.some.inj hp
      exact Recovering.captured h hq
  | unCancel pid b =>
      obtain rfl := Option.some.inj hp
      exact Recovering.captured h hq
  | queueRefund pid amount =>
      obtain rfl := Option.some.inj hp
      obtain ⟨k, hr⟩ := h
      exact hr.captured hq
  | _ => cases hp

/-- **One step of the system keeps it consistent**, and moves every dossier along the graph. -/
theorem Consistent.step {s s' : Sys} {a : Action} (h : Consistent s) (hg : s.Guarded G a)
    (hstep : s.step env a = some s') :
    Consistent s' ∧ ∃ chain, Steps G chain s.db s'.db := by
  rcases Sys.step_cases hstep with ⟨elapsed, rfl, rfl⟩ | ⟨request, t, rfl, hread, rfl⟩ |
    ⟨index, t, rfl, ht, rfl⟩
  · exact ⟨⟨h.wired, h.filed, h.relies, h.disjoint, h.collected⟩, none, .refl h.wired⟩
  · obtain ⟨hrec, hrel⟩ := request.read_relies h.wired h.filed hread
    refine ⟨⟨h.wired, h.filed, fun t' ht' => ?_, ?_, fun u k p hp => ?_⟩, none,
      .refl h.wired⟩
    · rcases List.mem_append.mp ht' with ht' | ht'
      · exact h.relies t' ht'
      · rw [List.mem_singleton.mp ht']
        exact hrel
    · simpa [List.filterMap_append, hrec] using h.disjoint
    · obtain ⟨t', ht', hp'⟩ := h.collected u k p hp
      exact ⟨t', by simp [ht'], hp'⟩
  · have hperm := perm_eraseIdx ht
    obtain ⟨chain, ran⟩ := Task.ran env s.now h.wired h.filed
      (h.relies t (List.mem_of_getElem? ht)) (hg t ht)
    have hrest : ∀ t' ∈ s.inflight.eraseIdx index, t'.Relies s.db :=
      fun t' ht' => h.relies t' (List.mem_of_mem_eraseIdx ht')
    have hnodup := (hperm.filterMap Task.recovers).nodup_iff.mp h.disjoint
    -- no other task recovers what this one captures or recovers
    have hother : ∀ t' ∈ s.inflight.eraseIdx index, ∀ p, t'.recovers = some p →
        chain ≠ some p := by
      intro t' ht' p hp hc
      rcases ran.opens with hsame | ⟨_, hunpaid⟩
      · rw [List.filterMap_cons_some (hsame.symm.trans hc)] at hnodup
        exact (List.nodup_cons.mp hnodup).1 (List.mem_filterMap.mpr ⟨t', ht', hp⟩)
      · obtain ⟨q, hq, hs⟩ := hunpaid p hc
        exact hs ((hrest t' ht').captured hp hq)
    have hsub : (s.inflight.eraseIdx index).filterMap Task.recovers |>.Nodup :=
      hnodup.sublist ((List.sublist_cons_self _ _).filterMap _)
    refine ⟨⟨h.wired.step ran.steps.grows, h.filed.step ran.steps, fun t' ht' => ?_, ?_,
      fun u k p hp => ?_⟩, chain, ran.steps⟩
    · rcases Sys.mem_ran ht' with ht' | ht'
      · exact (hrest t' ht').step ran.steps (hother t' ht')
      · exact ran.relies t' ht'
    · simp only [Sys.ran, List.filterMap_append]
      cases hnext : (t.run env s.now s.db).2 with
      | none => simpa using hsub
      | some next =>
          cases hp : next.recovers with
          | none => simpa [hp] using hsub
          | some p =>
              have hc := ran.carries next hnext p hp
              simp only [Option.toList_some, List.filterMap_cons_some hp,
                List.filterMap_nil, List.nodup_append, List.nodup_singleton, true_and]
              refine ⟨hsub, fun x hx y hy hxy => ?_⟩
              obtain ⟨t', ht', hp'⟩ := List.mem_filterMap.mp hx
              rw [hxy, List.mem_singleton.mp hy] at hp'
              exact hother t' ht' p hp' hc
    · have hcarry : chain = some p.id →
          ∃ t' ∈ (s.ran env index t).inflight, t'.recovers = some p.id := by
        intro hc
        obtain ⟨t', ht', hp'⟩ := ran.collects u k p hp hc
        exact ⟨t', by simp [Sys.ran, Option.mem_def.mp ht'], hp'⟩
      rcases Dossier.Uncollected.before (ran.steps.moves u k) hp with hbefore | hc
      · obtain ⟨t', ht', hp'⟩ := h.collected u k p hbefore
        rcases List.mem_cons.mp (hperm.subset ht') with rfl | ht'
        · rcases ran.opens with hsame | ⟨hnone, _⟩
          · exact hcarry (hsame.trans hp')
          · rw [hp'] at hnone
            cases hnone
        · exact ⟨t', List.mem_append_left _ ht', hp'⟩
      · exact hcarry hc

/-! ## Runs -/

/-- A database without bookings, and nothing in flight. -/
structure Initial (s : Sys) : Prop where
  bookings : s.db.bookings.rows = []
  payments : s.db.payments.rows = []
  ledger : ∀ row ∈ s.db.loyaltyLedger, row.bookingId = none
  inflight : s.inflight = []

/-- At the start no ledger row names a booking. -/
theorem Initial.entries {s : Sys} (h : Initial s) : ∀ e ∈ s.db.entries, e.bookingId = none := by
  intro e he
  obtain ⟨row, hrow, rfl⟩ := List.mem_map.mp he
  exact h.ledger row hrow

/-- Nothing is filed at first. -/
theorem Initial.dossier {s : Sys} (h : Initial s) (u k : Id) :
    s.db.dossier u k = { Dossier.blank k with used := decide (k < s.db.nextId) } := by
  have hsum : ∀ es sources, (∀ e ∈ es, e ∈ s.db.entries) → sumOf es sources k = 0 := by
    intro es sources hsub
    refine sumOf_eq_zero fun e he hk => ?_
    have := h.entries e (hsub e he)
    rw [hk.1] at this
    cases this
  have hu : ∀ e ∈ entriesOf s.db.entries u, e ∈ s.db.entries := fun e he => mem_of_entriesOf he
  simp [Db.dossier, Dossier.blank, Db.paymentOf, Table.first?, Table.find?, h.bookings,
    h.payments, hsum _ _ hu, hsum s.db.entries _ (fun e he => he)]

theorem Initial.consistent {s : Sys} (h : Initial s) : Consistent s where
  wired := {
    bookings := by simp [h.bookings]
    payments := by simp [h.payments]
    sole := by simp [h.payments]
    entries := fun e he k hk => by
      rw [h.entries e he] at hk
      cases hk
    indexed := by
      refine List.pairwise_of_forall_mem_list fun e he e' _ => Or.inl (h.entries e he) }
  filed u k := by
    rw [h.dossier]
    constructor <;> simp [Dossier.blank]
  relies := by simp [h.inflight]
  disjoint := by simp [h.inflight]
  collected u k p hp := by
    have := hp.1
    rw [h.dossier] at this
    cases this

/-- **Every interleaving keeps the invariant.** -/
theorem Initial.run {s₀ s : Sys} (h : Initial s₀)
    (run : Run (Sys.step env) (Sys.Guarded G) s₀ s) : Consistent s :=
  run.invariant Consistent (fun _ _ _ hc hg hstep => (hc.step hg hstep).1) h.consistent

/-- **An invariant of moves is an invariant of runs.** -/
theorem Initial.run_dossiers {s₀ s : Sys} (h : Initial s₀)
    (run : Run (Sys.step env) (Sys.Guarded G) s₀ s) (J : Id → Dossier → Prop)
    (start : ∀ u k used, J u { Dossier.blank k with used := used })
    (keep : ∀ chain u balance d d', d.Sound → J u d → Move G chain u balance d d' → J u d') :
    ∀ u k, J u (s.db.dossier u k) := by
  have hall : Consistent s ∧ ∀ u k, J u (s.db.dossier u k) := by
    refine run.invariant (fun s => Consistent s ∧ ∀ u k, J u (s.db.dossier u k))
      (fun s a s' ⟨hc, hJ⟩ hg hstep => ?_) ⟨h.consistent, fun u k => ?_⟩
    · obtain ⟨hc', chain, st⟩ := hc.step hg hstep
      exact ⟨hc', fun u k => keep chain u _ _ _ (hc.filed u k) (hJ u k) (st.moves u k)⟩
    · rw [h.dossier]
      exact start u k _
  exact hall.2

/-! ## Payment and booking status -/

/-- The payment row a booking names. -/
def Db.linkedPayment (db : Db) (b : Booking) : Option Payment :=
  b.paymentId.bind (fun id => db.payments.find? id)

/-- A cancelled booking's payment was failed, or refunded in some way; a
captured one is being recovered. -/
def CancelledWith (s : Sys) (q : Payment) : Prop :=
  q.status = .failed ∨ q.status = .refundPending ∨ q.status = .refunded ∨
    q.status = .rejected ∨
    (q.status = .success ∧ ∃ t ∈ s.inflight, t.recovers = some q.id)

/-- The status of every booking agrees with the one of its payment. -/
structure StatusesAgree (s : Sys) : Prop where
  booked : ∀ b ∈ s.db.bookings.rows, b.status = .confirmed ∨ b.status = .completed →
    ∃ q ∈ s.db.linkedPayment b, q.status = .success
  cancelled : ∀ b ∈ s.db.bookings.rows, b.status = .cancelled →
    ∃ q ∈ s.db.linkedPayment b, CancelledWith s q

instance (s : Sys) (q : Payment) : Decidable (CancelledWith s q) :=
  inferInstanceAs (Decidable (_ ∨ _))

instance (s : Sys) : Decidable (StatusesAgree s) :=
  decidable_of_iff
    ((∀ b ∈ s.db.bookings.rows, b.status = .confirmed ∨ b.status = .completed →
      ∃ q ∈ s.db.linkedPayment b, q.status = .success) ∧
      ∀ b ∈ s.db.bookings.rows, b.status = .cancelled →
        ∃ q ∈ s.db.linkedPayment b, CancelledWith s q)
    ⟨fun h => ⟨h.1, h.2⟩, fun h => ⟨h.booked, h.cancelled⟩⟩

/-- A step leaves cancelled bookings cancelled, unless it is the un-cancel. -/
def KeepsCancelled (s : Sys) (a : Action) (s' : Sys) : Prop :=
  ∀ b ∈ s.db.bookings.rows, b.status = .cancelled → ∀ b' ∈ s'.db.bookings.rows,
    b'.id = b.id → b'.status = .cancelled ∨
      ∃ paymentId booking, s.task? a = some (.unCancel paymentId booking)

/-- The status update a task commits. -/
def Task.update? : Task → Option StatusRead
  | .update r => some r
  | _ => none

/-- The condition on a step: a status update it commits is sound. -/
def Sys.SaneUpdate (s : Sys) (a : Action) : Prop :=
  ∀ r ∈ (s.task? a).bind Task.update?, r.Sane s.db

instance (s : Sys) (a : Action) : Decidable (s.SaneUpdate a) :=
  inferInstanceAs (Decidable (∀ r ∈ (s.task? a).bind Task.update?, r.Sane s.db))

theorem Sys.SaneUpdate.guarded {s : Sys} {a : Action} (h : s.SaneUpdate a) :
    s.Guarded (fun _ _ _ => True) a := by
  intro t ht
  cases t with
  | update r => exact ⟨h r (by rw [ht]; rfl), fun _ _ => trivial⟩
  | cancel r => exact fun _ => trivial
  | reap stale => exact fun _ _ _ => trivial
  | _ => trivial

/-- A consistent system agrees on the statuses. -/
theorem Consistent.statusesAgree {s : Sys} (h : Consistent s) : StatusesAgree s := by
  refine ⟨fun b hb hst => ?_, fun b hb hst => ?_⟩
  · have hfind : s.db.bookings.find? b.id = some b := Table.find?_key hb
    obtain ⟨p, hp, hcap⟩ := (h.filed 0 b.id).booked _ (dossier_of_find hfind 0) hst
    obtain ⟨hname, q, hq, rfl, _⟩ := h.filed.payment_of_booking h.wired hfind hp
    exact ⟨q, by rw [Db.linkedPayment, hname]; exact hq, hcap⟩
  · have hfind : s.db.bookings.find? b.id = some b := Table.find?_key hb
    obtain ⟨p, hp, hnp⟩ := (h.filed 0 b.id).cancelled _ (dossier_of_find hfind 0) hst
    obtain ⟨hname, q, hq, rfl, _⟩ := h.filed.payment_of_booking h.wired hfind hp
    refine ⟨q, by rw [Db.linkedPayment, hname]; exact hq, ?_⟩
    unfold CancelledWith
    cases hs : q.status with
    | pending => exact absurd hs hnp
    | failed => simp
    | refundPending => simp
    | refunded => simp
    | rejected => simp
    | success =>
        have hun : (s.db.dossier 0 b.id).Uncollected q.file :=
          ⟨hp, hs, b.file, dossier_of_find hfind 0, hst⟩
        exact Or.inr (Or.inr (Or.inr (Or.inr ⟨rfl, h.collected 0 b.id q.file hun⟩)))

/-- Moves leave a cancelled booking cancelled, except for the un-cancel of
a captured payment. -/
theorem Move.keeps_cancelled {chain : Option Id} {u : Id} {balance : Id → Cents}
    {d d' : Dossier} (m : Move G chain u balance d d') {b b' : BookingFile}
    (hb : d.booking = some b) (hc : b.status = .cancelled) (hb' : d'.booking = some b') :
    b'.status = .cancelled ∨ ∃ p, d.payment = some p ∧ p.status = .success ∧
      chain = some p.id := by
  cases m <;> grind [Dossier.blank, BookingFile.Live, BookingFile.Booked]

/-- The recreation leaves the bookings that are there as they are. -/
theorem b2Recreate_bookings {pid : Id} {bookingId : Option Id} {s : BookingSnapshot}
    {kind : RecoveryKind} (h : b2Recreate now db pid bookingId s = .ok (db', kind)) :
    ∀ b ∈ db.bookings.rows, db'.bookings.find? b.id = some b := by
  intro b hb
  rcases b2Recreate_ok h with ⟨_, rfl⟩ | ⟨_, ⟨_, _, _, _, e⟩ | ⟨_, hrec, _⟩⟩
  · exact Table.find?_key hb
  · rw [e.bookings]
    exact Table.find?_key hb
  · exact Table.find?_eq_some.mpr ⟨(Table.mem_of_insert? hrec.inserted).mpr (Or.inl hb), rfl⟩

/-- A recovery other than the un-cancel leaves every booking alone. -/
theorem Task.run_bookings {t : Task} {p : Id} (hp : t.recovers = some p)
    (hne : ∀ booking, t ≠ .unCancel p booking) :
    ∀ b ∈ db.bookings.rows, (t.run env now db).1.bookings.find? b.id = some b := by
  intro b hb
  have hfind : db.bookings.find? b.id = some b := Table.find?_key hb
  cases t with
  | b2Check pid =>
      simp only [Task.run]
      split <;> exact hfind
  | recreate pid amount bookingId s =>
      simp only [Task.run]
      split
      · exact hfind
      · rename_i db' htx
        exact b2Recreate_bookings htx b hb
      · rename_i db' _ _ htx
        exact b2Recreate_bookings htx b hb
  | m6Check pid k =>
      simp only [Task.run]
      split <;> exact hfind
  | unCancel pid booking =>
      obtain rfl := Option.some.inj hp
      exact absurd rfl (hne booking)
  | queueRefund pid amount => exact hfind
  | _ => cases hp

/-- **A cancelled booking stays cancelled over a step**, but for the un-cancel. -/
theorem Consistent.keepsCancelled {s s' : Sys} {a : Action} (h : Consistent s)
    (hg : s.Guarded G a) (hstep : s.step env a = some s') : KeepsCancelled s a s' := by
  intro b hb hc b' hb' hid
  have hfind : s.db.bookings.find? b.id = some b := Table.find?_key hb
  have hfind' : s'.db.bookings.find? b.id = some b' := Table.find?_eq_some.mpr ⟨hb', hid⟩
  have hsame : s'.db.bookings.find? b.id = some b → b'.status = .cancelled := by
    intro h
    rw [Option.some.inj (hfind'.symm.trans h)]
    exact hc
  rcases Sys.step_cases hstep with ⟨elapsed, rfl, rfl⟩ | ⟨request, t, rfl, _, rfl⟩ |
    ⟨index, t, rfl, ht, rfl⟩
  · exact Or.inl (hsame hfind)
  · exact Or.inl (hsame hfind)
  by_cases hun : ∃ p booking, t = .unCancel p booking
  · obtain ⟨p, booking, rfl⟩ := hun
    exact Or.inr ⟨p, booking, ht⟩
  obtain ⟨chain, ran⟩ := Task.ran env s.now h.wired h.filed
    (h.relies t (List.mem_of_getElem? ht)) (hg t ht)
  rcases ran.opens with hsameChain | ⟨_, hunpaid⟩
  · cases hp : t.recovers with
    | some p =>
        exact Or.inl (hsame (t.run_bookings hp (fun x hx => hun ⟨p, x, hx⟩) b hb))
    | none =>
        refine ((ran.steps.moves 0 b.id).keeps_cancelled (dossier_of_find hfind 0) hc
          (dossier_of_find hfind' 0)).imp id ?_
        rintro ⟨p, _, _, hchain⟩
        rw [hsameChain, hp] at hchain
        cases hchain
  · refine ((ran.steps.moves 0 b.id).keeps_cancelled (dossier_of_find hfind 0) hc
      (dossier_of_find hfind' 0)).imp id ?_
    rintro ⟨p, hp, hcap, hchain⟩
    obtain ⟨q, hq, hs⟩ := hunpaid p.id hchain
    obtain ⟨q', hq', rfl, _⟩ := h.wired.payment_of_dossier hp
    rw [hq', Option.some.injEq] at hq
    exact absurd hcap (hq ▸ hs)

/-- **Payment and booking status agree in every run of sound status
updates.**  `CONFIRMED` and `COMPLETED` are paid for, `CANCELLED` is
settled or being recovered, and only the un-cancel leaves `CANCELLED`. -/
theorem statuses_agree {s₀ s : Sys} (h : Initial s₀)
    (run : Run (Sys.step env) Sys.SaneUpdate s₀ s) :
    StatusesAgree s ∧ ∀ a s', s.SaneUpdate a → s.step env a = some s' →
      KeepsCancelled s a s' := by
  have hc : Consistent s := h.run (run.mono fun _ _ => Sys.SaneUpdate.guarded)
  exact ⟨hc.statusesAgree, fun a s' hg hstep => hc.keepsCancelled hg.guarded hstep⟩

theorem market_initial : Initial market := by
  constructor <;> simp [market]

/-- A booking that is created, paid and completed. -/
def paidRun : List Action :=
  [.begin (.createBooking 1 (marketRequest none) "R1"), .run 0, .run 0,
    .begin (.initiatePayment 101 1 none "B1"), .run 0,
    .begin (.handleCallback (marketIpn "B1")), .run 0,
    .tick (2 * 86400000), .begin (.vendorUpdateBookingStatus 3 101 .completed), .run 0]

theorem statuses_agree_paid : ∃ s, Run (Sys.step marketEnv) Sys.SaneUpdate market s ∧
    s.db.bookings.rows.any (fun b => b.status = .completed) = true ∧ StatusesAgree s := by
  obtain ⟨s, run, hdone⟩ : ∃ s, Run (Sys.step marketEnv) Sys.SaneUpdate market s ∧
      s.db.bookings.rows.any (fun b => b.status = .completed) = true :=
    @Run.of_execAll_test _ _ _ _ _ paidRun market _ (by decide +kernel)
  exact ⟨s, run, hdone, (statuses_agree market_initial run).1⟩

/-- A vendor confirms a reservation that nobody paid for. -/
theorem vendor_confirms_unpaid : Initial market ∧
    ∃ s, Run (Sys.step marketEnv) (fun _ _ => True) market s ∧ ¬ StatusesAgree s := by
  refine ⟨market_initial, ?_⟩
  obtain ⟨s, run, h⟩ := @Run.of_execAll_test _ _ (Sys.step marketEnv) (fun _ _ => True) _
    [.begin (.createBooking 1 (marketRequest none) "R1"), .run 0,
      .begin (.vendorUpdateBookingStatus 3 101 .confirmed), .run 1]
    market (fun s => ¬ StatusesAgree s) (by decide +kernel)
  exact ⟨s, run, of_decide_eq_true h⟩

end Jadwal
