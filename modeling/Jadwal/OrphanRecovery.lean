import Jadwal.Baskets

/-!
# A late success on a deleted booking

The money of a booking that was deleted, by a failed callback or by the
reaper, arrives after all.  The handler settles the payment, checks the
snapshot, and re-inserts the booking under its old id in one transaction.
`late_success_recovered` says when that transaction commits, and that it
commits once for a payment.

What is left behind from the booking's first life decides the first: its
redemption is still in the ledger, and its reference and key may be taken.
The stamp `bookingRecreatedAt`, which nothing else writes, decides the
second.
-/

namespace Jadwal

open Outcome

variable {G : Guard} {chain : Option Id} {u : Id} {balance : Id → Cents} {d d' : Dossier}
  {db db' : Db} {env : Env} {now : Instant}

/-! ## Invariants of moves -/

/-- The payment has been settled one way or the other, for good. -/
def Dossier.Settled (d : Dossier) : Prop :=
  d.used ∧ ∀ p ∈ d.payment, p.status ≠ .pending ∧ p.status ≠ .failed

/-- What is settled stays so. -/
theorem Dossier.Settled.step (h : d.Settled) (m : Move G chain u balance d d') :
    d'.Settled := by
  obtain ⟨used, settled⟩ := h
  cases m <;>
    simp only [Dossier.Settled, Dossier.blank, Option.mem_def, Option.some.injEq,
      forall_eq', reduceCtorEq] at * <;>
    grind

/-- The points a snapshot shows were redeemed on its booking. -/
def Dossier.Redeemed (u : Id) (d : Dossier) : Prop :=
  ∀ p ∈ d.payment, ∀ s ∈ p.snapshot, 0 < (recreatedBooking d.id p.id s).dueTo u →
    0 < d.redeemed

/-- Nobody is owed a negative number of points. -/
theorem Booking.dueTo_nonneg (b : Booking) (u : Id) : 0 ≤ b.dueTo u := by
  unfold Booking.dueTo
  split
  · exact le_max_left _ _
  · exact le_rfl

/-- A redemption that a snapshot shows stays in the ledger. -/
theorem Dossier.Redeemed.step (h : d.Redeemed u) (m : Move G chain u balance d d') :
    d'.Redeemed u := by
  cases m with
  | create id p b points statuses depicts unawarded unsystem due =>
      rintro _ ⟨⟩ s hs hpos
      change 0 < points
      rw [due, ← depicts.2 s hs, Booking.core_dueTo]
      exact hpos
  | recreate _ p b s points hp hb mine captured snapshot core confirmed unawarded unsystem
      due once =>
      intro p' hp' s' hs' hpos
      have hold := h p' hp' s' hs' hpos
      have hnonneg : 0 ≤ points := due ▸ Booking.dueTo_nonneg _ u
      change 0 < d.redeemed + points
      lia
  | idle => exact h
  | _ =>
      simp only [Dossier.Redeemed, Dossier.blank, Option.mem_def, Option.some.injEq,
        forall_eq', reduceCtorEq] at *
      grind

/-! ## The stamp -/

/-- The payment whose recovery a task may stamp. -/
def Task.stamps : Task → Option Id
  | .recreate p _ _ _ => some p
  | _ => none

/-- The stamps after a task: as they were, except that the named payment may
have got one; a new payment has none. -/
def Stamps (fresh : Id) (mine : Option Id) (ps ps' : Table Payment) : Prop :=
  ∀ q' ∈ ps'.rows, (∃ q ∈ ps.rows, q'.id = q.id ∧
      (q'.bookingRecreatedAt = q.bookingRecreatedAt ∨
        (mine = some q.id ∧ q.bookingRecreatedAt = none))) ∨
    (fresh ≤ q'.id ∧ q'.bookingRecreatedAt = none)

/-- Payments left alone are stamped as before. -/
theorem Stamps.of_eq {fresh : Id} {mine : Option Id} {ps ps' : Table Payment}
    (h : ps' = ps) : Stamps fresh mine ps ps' :=
  fun q hq => .inl ⟨q, h ▸ hq, rfl, .inl rfl⟩

/-- So are payments whose stamp an update keeps. -/
theorem Stamps.updateMany {fresh : Id} {mine : Option Id} {ps : Table Payment}
    {p : Payment → Bool} {f : Payment → Payment} {hf : ∀ q, Keyed.key (f q) = Keyed.key q}
    (h : ∀ q, (f q).bookingRecreatedAt = q.bookingRecreatedAt) :
    Stamps fresh mine ps (ps.updateMany p f hf) := by
  intro q' hq'
  obtain ⟨q, hq, rfl⟩ := Table.mem_updateMany.mp hq'
  refine .inl ⟨q, hq, ?_, .inl ?_⟩
  · split
    · exact hf q
    · rfl
  · split
    · exact h q
    · rfl

/-- Deleting a payment stamps none. -/
theorem Stamps.delete {fresh : Id} {mine : Option Id} {ps : Table Payment} {id : Id} :
    Stamps fresh mine ps (ps.delete id) :=
  fun q hq => .inl ⟨q, (Table.mem_delete.mp hq).1, rfl, .inl rfl⟩

/-- An update of an unstamped payment, by its own recovery. -/
theorem Stamps.update {fresh : Id} {ps : Table Payment} {q₀ : Payment}
    {f : Payment → Payment} {hf : ∀ q, Keyed.key (f q) = Keyed.key q} {id : Id}
    (hfind : ps.find? id = some q₀) (hnone : q₀.bookingRecreatedAt = none) :
    Stamps fresh (some id) ps (ps.update id f hf) := by
  intro q' hq'
  obtain ⟨q, hq, rfl⟩ := Table.mem_update.mp hq'
  by_cases hid : Keyed.key q = id
  · rw [if_pos hid]
    obtain ⟨h₀, hid₀⟩ := Table.find?_eq_some.mp hfind
    obtain rfl := Table.key_inj hq h₀ (hid.trans hid₀.symm)
    exact .inl ⟨q, hq, hf q, .inr ⟨congrArg some hid.symm, hnone⟩⟩
  · rw [if_neg hid]
    exact .inl ⟨q, hq, rfl, .inl rfl⟩

theorem committed_stamps {fresh : Id} {mine : Option Id} (tx : Tx Db)
    (h : ∀ db', tx = .ok db' → Stamps fresh mine db.payments db'.payments) :
    Stamps fresh mine db.payments (committed db tx).payments := by
  cases tx with
  | error e => exact .of_eq rfl
  | ok db' => exact h db' rfl

/-- The settlement of a callback stamps no payment as recovered. -/
theorem settleTx_stamps {fresh : Id} {payment : Payment} {params : CallbackParams}
    {isSuccess : Bool} {s : Settled} (h : settleTx now db payment params isSuccess = .ok s) :
    Stamps fresh none db.payments s.db.payments := by
  unfold settleTx at h
  split at h
  · rcases settleSuccess_ok h with ⟨hdb, _⟩ | hs
    · exact .of_eq (by rw [hdb])
    · obtain ⟨k, fp, hp, _, hset, ⟨_, _, e⟩ | ⟨_, _, _, _, e⟩ | ⟨_, _, _, _, _, _, _, _, e⟩⟩ :=
        hs.effect <;>
      · rw [e.payments]
        exact .updateMany hset.stamp
  · rcases settleFailure_ok h with ⟨hdb, _⟩ | hs
    · exact .of_eq (by rw [hdb])
    · obtain ⟨fp, hp, hset, ⟨_, e⟩ | ⟨_, _, _, _, e⟩⟩ := hs.effect <;>
      · rw [e.payments]
        exact .updateMany hset.stamp

/-- The recovery stamps its own payment alone. -/
theorem b2Recreate_stamps {fresh pid k : Id} {s : BookingSnapshot} {kind : RecoveryKind}
    (h : b2Recreate now db pid (some k) s = .ok (db', kind)) :
    Stamps fresh (some pid) db.payments db'.payments := by
  rcases b2Recreate_ok h with ⟨_, rfl⟩ | ⟨⟨q, hq, hnone⟩, ⟨_, fp, hp, hfp, e⟩ | ⟨_, _, _, hpays⟩⟩
  · exact .of_eq rfl
  · rw [e.payments]
    exact .update hq hnone
  · obtain ⟨_, fp, hp, hps, hfp⟩ := hpays k rfl
    rw [hps]
    exact .update hq hnone

theorem cancelCommit_stamps {fresh : Id} {r : CancelRead}
    (h : cancelCommit now db r = .ok db') : Stamps fresh none db.payments db'.payments := by
  have hsoft : ∀ {payment : Payment} {expected status : PaymentStatus}
      {source : LoyaltyLedgerSource},
      SoftCancelled db db' r payment.id expected status source →
      Stamps fresh none db.payments db'.payments := by
    intro payment expected status source hs
    obtain ⟨fb, hb, fp, hp, e, _, hset⟩ := hs.effect
    rw [e.payments]
    exact .updateMany hset.stamp
  unfold cancelCommit at h
  split at h
  · exact hsoft (cancelPointsOnly_ok h)
  · exact hsoft (cancelPaid_ok h)
  · exact hsoft (cancelInFlight_ok h)
  · rw [(cancelHardDelete_ok h).2.payments]
    split
    · exact .delete
    · exact .of_eq rfl

theorem statusCommit_stamps {fresh : Id} (w : Wired db) (hf : Filed db) {r : StatusRead}
    (h : statusCommit now db r = .ok db') : Stamps fresh none db.payments db'.payments := by
  by_cases hc : r.newStatus = .cancelled
  · unfold statusCommit at h
    rw [if_pos hc] at h
    obtain ⟨found, hfound, ⟨_, rfl⟩ | ⟨live, hdo⟩⟩ := operatorCancel_ok h
    · exact .of_eq rfl
    obtain ⟨q, hbind, _, _, _, hst⟩ := hf.payment_of_live w hfound live
    obtain ⟨fb, hb, ps, es, c, e, _, _, hps, _⟩ := (hdo q hbind).effect
    rw [e.payments]
    have hrow : ∀ {status : PaymentStatus}, Settled.Row db.payments ps q.id status →
        Stamps fresh none db.payments ps := by
      rintro status ⟨f, hf, rfl, hset⟩
      exact .updateMany hset.stamp
    rcases hst with ⟨hs, _⟩ | hs
    · exact hrow (hps.2 hs)
    · exact hrow (hps.1 hs)
  · obtain ⟨_, ⟨_, _, e, _⟩ | ⟨_, _, _, _, _, e, _⟩⟩ := statusCommit_mark_ok hc h <;>
      exact .of_eq e.payments

theorem reapStale_stamps {fresh : Id} {stale : List Booking}
    (h : reapStale now db stale = .ok db') :
    Stamps fresh none db.payments db'.payments := by
  simp only [reapStale, bind_eq_ok, pure_eq_ok] at h
  obtain ⟨db₁, h₁, rfl⟩ := h
  have hp : db₁.payments = db.payments :=
    (@reapAll_dossier now 0 0 _ _ _ h₁).1.1
  have hkeep : Stamps fresh none db₁.payments (failStalePayments db₁ stale).payments := by
    change Stamps fresh none db₁.payments
      (db₁.payments.updateMany _ Payment.fail (fun _ => rfl))
    exact .updateMany fun _ => rfl
  exact hp ▸ hkeep

/-- **Only the recovery of a payment stamps it.** -/
theorem Task.run_stamps (env : Env) (now : Instant) (w : Wired db) (hf : Filed db) {t : Task}
    (h : t.Relies db) :
    Stamps db.nextId t.stamps db.payments (t.run env now db).1.payments := by
  cases t with
  | create p ref =>
      simp only [Task.run]
      split
      · exact .of_eq rfl
      · rename_i db' b htx
        obtain ⟨_, q, c⟩ := createBookingTx_created htx
        have hrows := c.stored.payments
        intro q' hq'
        rw [hrows] at hq'
        rcases List.mem_append.mp hq' with hq' | hq'
        · exact .inl ⟨q', hq', rfl, .inl rfl⟩
        · rw [List.mem_singleton.mp hq']
          unfold newPayment
          split <;> exact .inr ⟨le_rfl, rfl⟩
  | stampOtp bookingId user =>
      refine committed_stamps _ fun db' htx => ?_
      simp only [otpStamp, bind_eq_ok, pure_eq_ok] at htx
      obtain ⟨db₁, hupd, rfl⟩ := htx
      exact .of_eq (updateBooking_ok hupd).2.1.payments
  | initiate r basketId =>
      refine committed_stamps _ fun db' htx => ?_
      simp only [initiateWrite, bind_eq_ok, pure_eq_ok] at htx
      obtain ⟨_, _, _, _, _, _, rfl⟩ := htx
      change Stamps db.nextId none db.payments
        (db.payments.update r.paymentId (Payment.initiate now r basketId) (fun _ => rfl))
      exact .updateMany fun _ => rfl
  | hold bookingId => exact .of_eq rfl
  | settle payment params isSuccess =>
      simp only [Task.run]
      split
      · exact .of_eq rfl
      · rename_i s htx
        exact settleTx_stamps htx
  | recreate pid amount bookingId s =>
      obtain ⟨k, rfl, _⟩ := h
      simp only [Task.run]
      split
      · exact .of_eq rfl
      · rename_i htx
        exact b2Recreate_stamps htx
      · rename_i htx
        exact b2Recreate_stamps htx
  | unCancel pid booking =>
      simp only [Task.run]
      split
      · exact .of_eq rfl
      · rename_i htx
        rcases m6UnCancel_ok htx with ⟨_, rfl, _⟩ | ⟨_, _, _, _, e, _⟩
        · exact .of_eq rfl
        · exact .of_eq e.payments
  | queueRefund pid amount =>
      change Stamps db.nextId none db.payments
        (db.payments.updateMany _ (Payment.awaitRefund amount) (fun _ => rfl))
      exact .updateMany fun _ => rfl
  | cancel r => exact committed_stamps _ fun _ htx => cancelCommit_stamps htx
  | decide r =>
      refine committed_stamps _ fun db' htx => ?_
      obtain ⟨_, _, _, fp, hp, _, _, e, _, hset, _⟩ := decisionCommit_ok htx
      rw [e.payments]
      exact .updateMany hset.stamp
  | update r => exact committed_stamps _ fun _ htx => statusCommit_stamps w hf htx
  | reap stale => exact committed_stamps _ fun _ htx => reapStale_stamps htx
  | award rate todo cutoff =>
      cases todo with
      | nil => exact .of_eq rfl
      | cons b todo =>
          refine committed_stamps _ fun db' htx => ?_
          rcases awardOne_ok htx with rfl | hd
          · exact .of_eq rfl
          · obtain ⟨_, _, _, e, _⟩ := hd.effect
            exact .of_eq e.payments
  | complete bookings => exact .of_eq rfl
  | b2Check pid | m6Check pid k | awardBatch bookings cutoff =>
      simp only [Task.run]
      split <;> exact .of_eq rfl

/-- The payment an orphan recovery in flight is for. -/
def Task.reinserts : Task → Option Id
  | .b2Check p => some p
  | .recreate p _ _ _ => some p
  | _ => none

/-- A task that inserts a booking again recovers its payment. -/
theorem Task.recovers_of_reinserts {t : Task} {pid : Id} (h : t.reinserts = some pid) :
    t.recovers = some pid := by
  cases t with
  | b2Check p => exact h
  | recreate p amount bookingId s => exact h
  | _ => cases h

/-- An orphan recovery starts at a payment that was unpaid, and goes on with
one that is not stamped. -/
theorem Task.next_reinserts {t t' : Task} (hnext : (t.run env now db).2 = some t') {pid : Id}
    (h : t'.reinserts = some pid) :
    (∃ payment params isSuccess q, t = .settle payment params isSuccess ∧
        payment.id = pid ∧ db.payments.find? pid = some q ∧
        (q.status = .pending ∨ q.status = .failed)) ∨
      ∃ q, t = .b2Check pid ∧ db.payments.find? pid = some q ∧
        q.bookingRecreatedAt = none := by
  have hsecond : ∀ cutoff, secondPass env now db cutoff ≠ some t' := by
    intro cutoff hs
    obtain ⟨_, _, hs⟩ := Option.bind_eq_some_iff.mp hs
    split at hs
    · cases hs
    · obtain rfl := Option.some.inj hs
      cases h
  cases t with
  | settle payment params isSuccess =>
      simp only [Task.run] at hnext
      split at hnext
      · cases hnext
      · rename_i s htx
        unfold settleTx at htx
        split at htx
        · rcases settleSuccess_ok htx with ⟨_, hrec⟩ | hs
          · rw [hrec] at hnext
            cases hnext
          · obtain ⟨q, hq, unpaid⟩ := hs.unpaid
            have hid : payment.id = pid := by
              unfold afterSettle at hnext
              split at hnext
              · obtain rfl := Option.some.inj hnext
                exact Option.some.inj h
              · obtain ⟨_, _, rfl⟩ := Option.map_eq_some_iff.mp hnext
                cases h
              · obtain rfl := Option.some.inj hnext
                cases h
              · cases hnext
            exact .inl ⟨payment, params, isSuccess, q, rfl, hid, hid ▸ hq, unpaid⟩
        · have hrec : s.recovery = none := by
            rcases settleFailure_ok htx with ⟨_, hrec⟩ | hs
            · exact hrec
            · exact hs.recovery
          rw [hrec] at hnext
          cases hnext
  | b2Check p =>
      simp only [Task.run] at hnext
      split at hnext
      · cases hnext
      · obtain rfl := Option.some.inj hnext
        cases h
      · rename_i hplan
        obtain rfl := Option.some.inj hnext
        obtain rfl := Option.some.inj h
        obtain ⟨q, hq, hnone, _⟩ := b2Preflight_recreate hplan
        exact .inr ⟨q, rfl, hq, hnone⟩
  | create p ref =>
      simp only [Task.run] at hnext
      split at hnext
      · cases hnext
      · obtain ⟨_, hnext⟩ := Option.ite_none_right_eq_some.mp hnext
        obtain rfl := Option.some.inj hnext
        cases h
  | unCancel p b =>
      simp only [Task.run] at hnext
      split at hnext
      · obtain ⟨_, _, rfl⟩ := Option.map_eq_some_iff.mp hnext
        cases h
      · cases hnext
  | m6Check p k =>
      simp only [Task.run] at hnext
      split at hnext
      · cases hnext
      all_goals
        obtain rfl := Option.some.inj hnext
        cases h
  | recreate p amount bookingId s =>
      simp only [Task.run] at hnext
      split at hnext
      · obtain rfl := Option.some.inj hnext
        cases h
      · obtain rfl := Option.some.inj hnext
        cases h
      · cases hnext
  | awardBatch bookings cutoff =>
      simp only [Task.run] at hnext
      split at hnext
      · exact absurd hnext (hsecond cutoff)
      · obtain rfl := Option.some.inj hnext
        cases h
  | award rate todo cutoff =>
      cases todo with
      | nil => exact absurd hnext (hsecond cutoff)
      | cons b todo =>
          obtain rfl := Option.some.inj hnext
          cases h
  | complete bookings =>
      obtain rfl := Option.some.inj hnext
      cases h
  | _ => cases hnext

/-- A stamped payment is settled, and no recovery is in flight for it. -/
structure StampsSettled (s : Sys) : Prop where
  settled : ∀ q ∈ s.db.payments.rows, q.bookingRecreatedAt ≠ none →
    q.status ≠ .pending ∧ q.status ≠ .failed
  unstamped : ∀ t ∈ s.inflight, ∀ pid, t.reinserts = some pid →
    ∀ q, s.db.payments.find? pid = some q → q.bookingRecreatedAt = none

/-- A payment that is settled stays so. -/
theorem Steps.settled (w : Wired db) (st : Steps G chain db db') {q q' : Payment}
    (hq : q ∈ db.payments.rows) (hq' : q' ∈ db'.payments.rows) (hid : q'.id = q.id)
    (h : q.status ≠ .pending ∧ q.status ≠ .failed) :
    q'.status ≠ .pending ∧ q'.status ≠ .failed := by
  obtain ⟨_, k, hk, hlt⟩ := w.payments q hq
  have own := w.owns hq hk
  have hfind : db.payments.find? q.id = some q := Table.find?_key hq
  have hfind' : db'.payments.find? q.id = some q' := Table.find?_eq_some.mpr ⟨hq', hid⟩
  have hold : (db.dossier 0 k).Settled := by
    refine ⟨decide_eq_true hlt, fun p hp => ?_⟩
    rw [own.dossier_payment, hfind] at hp
    obtain rfl := Option.some.inj hp
    exact h
  refine (hold.step (st.moves 0 k)).2 q'.file ?_
  rw [(own.step st.grows).dossier_payment, hfind']
  rfl

/-- **One step keeps the stamps on settled payments.** -/
theorem StampsSettled.step {s s' : Sys} {a : Action} (h : StampsSettled s)
    (hc : Consistent s) (sane : s.SaneUpdate a) (hstep : s.step env a = some s') :
    StampsSettled s' := by
  obtain ⟨_, chain, st⟩ := hc.step sane.guarded hstep
  rcases Sys.step_cases hstep with ⟨elapsed, rfl, rfl⟩ | ⟨request, t, rfl, hread, rfl⟩ |
    ⟨index, t, rfl, ht, rfl⟩
  · exact ⟨h.settled, h.unstamped⟩
  · refine ⟨h.settled, fun t' ht' pid hp => ?_⟩
    rcases List.mem_append.mp ht' with ht' | ht'
    · exact h.unstamped t' ht' pid hp
    · have hrec := (request.read_relies hc.wired hc.filed hread).1
      rw [List.mem_singleton.mp ht'] at hp
      rw [t.recovers_of_reinserts hp] at hrec
      cases hrec
  · have hin := List.mem_of_getElem? ht
    have stamps := Task.run_stamps env s.now hc.wired hc.filed (hc.relies t hin)
    refine ⟨fun q' hq' hstamp => ?_, fun t' ht' pid hp q' hq' => ?_⟩
    · rcases stamps q' hq' with ⟨q, hq, hid, hsame | ⟨hmine, _⟩⟩ | ⟨_, hnone⟩
      · exact st.settled hc.wired hq hq' hid (h.settled q hq (hsame ▸ hstamp))
      · -- a recovery stamps a captured payment
        refine st.settled hc.wired hq hq' hid ?_
        have hrec : t.recovers = some q.id := by
          cases t with
          | recreate p amount bookingId s => exact hmine
          | _ => cases hmine
        rw [(hc.relies t hin).captured hrec (Table.find?_key hq)]
        simp
      · exact absurd hnone hstamp
    · obtain ⟨hq', hid'⟩ := Table.find?_eq_some.mp hq'
      have hid' : q'.id = pid := hid'
      rcases stamps q' hq' with ⟨q, hq, hid, hcase⟩ | ⟨_, hnone⟩
      · have hfind : s.db.payments.find? pid = some q :=
          Table.find?_eq_some.mpr ⟨hq, hid.symm.trans hid'⟩
        rcases Sys.mem_ran ht' with ht' | hnext
        · have hold := h.unstamped t' (List.mem_of_mem_eraseIdx ht') pid hp q hfind
          rcases hcase with hsame | ⟨hmine, _⟩
          · rw [hsame, hold]
          · -- the task that stamps is the only one that recovers the payment
            exfalso
            have hrec : t.recovers = some q.id := by
              cases t with
              | recreate p amount bookingId s => exact hmine
              | _ => cases hmine
            have hnodup :=
              ((perm_eraseIdx ht).filterMap Task.recovers).nodup_iff.mp hc.disjoint
            rw [List.filterMap_cons_some hrec] at hnodup
            refine (List.nodup_cons.mp hnodup).1 (List.mem_filterMap.mpr ⟨t', ht', ?_⟩)
            rw [t'.recovers_of_reinserts hp, ← hid', hid]
        · rcases Task.next_reinserts hnext hp with
            ⟨payment, params, isSuccess, q₀, rfl, _, hq₀, unpaid⟩ | ⟨q₀, rfl, hq₀, hnone⟩
          all_goals obtain rfl := Option.some.inj (hfind.symm.trans hq₀)
          · have hold : q.bookingRecreatedAt = none := by
              by_contra hne
              obtain ⟨hpending, hfailed⟩ := h.settled q hq hne
              exact unpaid.elim hpending hfailed
            rcases hcase with hsame | ⟨hmine, _⟩
            · rw [hsame, hold]
            · cases hmine
          · rcases hcase with hsame | ⟨hmine, _⟩
            · rw [hsame, hnone]
            · cases hmine
      · exact hnone

/-! ## The chain of a recovery -/

/-- A success finds its payment unpaid and its booking gone, and no other
payment has its transaction id. -/
structure Orphaned (db : Db) (payment : Payment) (params : CallbackParams) : Prop where
  unpaid : ∃ q, db.payments.find? payment.id = some q ∧
    (q.status = .pending ∨ q.status = .failed)
  gone : ∀ k, payment.bookingId = some k → db.bookings.find? k = none
  txn : capturedTxn params = none ∨ ∀ q ∈ db.payments.rows,
    q.id ≠ payment.id → q.gatewayTxnId ≠ capturedTxn params

/-- The booking of the snapshot can be recovered: the version is known, the
customer exists and has the points, the activity is active and not over, and
the slot is free. -/
structure Sys.Recoverable (env : Env) (s : Sys) (paymentId : Id)
    (snapshot : BookingSnapshot) : Prop where
  payment : ∃ q ∈ s.db.payments.find? paymentId, q.bookingSnapshot = some snapshot
  version : snapshot.v = 2
  customer : ∃ u ∈ s.db.users.find? snapshot.customerId,
    u.deletedAt = none ∧ snapshot.pointsRedeemed ≤ u.loyaltyPoints
  activity : ∃ a ∈ s.db.activities.find? snapshot.activityId, a.status = .active ∧
    nowInTimezone env (((s.db.countries.find? a.countryId).map
      Country.defaultTimezone).getD "UTC") s.now < snapshot.endDatetime
  slot : recoverySlotAvailable s.db s.now ⟨snapshot.activityId, snapshot.unitNumber,
    snapshot.startDatetime, snapshot.endDatetime, snapshot.guests, none⟩ = true

/-- The booking of the snapshot stands again under its id, confirmed and
linked with its payment, and its points are redeemed again. -/
structure Recovered (db db' : Db) (paymentId bookingId : Id) (snapshot : BookingSnapshot) :
    Prop where
  booking : ∃ b ∈ db'.bookings.find? bookingId, b.status = .confirmed ∧
    b.paymentId = some paymentId ∧ b = recreatedBooking bookingId paymentId snapshot
  payment : ∃ q ∈ db'.payments.find? paymentId, q.status = .success ∧
    q.bookingId = some bookingId
  points : db'.balanceOf snapshot.customerId =
    db.balanceOf snapshot.customerId - max 0 snapshot.pointsRedeemed

/-- No points were redeemed on the booking, and no other booking has taken its
reference or its key. -/
structure Reinsertable (db : Db) (snapshot : BookingSnapshot) : Prop where
  points : snapshot.pointsRedeemed ≤ 0
  ref : ∀ b ∈ db.bookings.rows, b.ref ≠ snapshot.ref
  key : snapshot.idempotencyKey = none ∨
    ∀ b ∈ db.bookings.rows, b.idempotencyKey ≠ snapshot.idempotencyKey

theorem settle_orphaned {payment : Payment} {params : CallbackParams}
    (h : Orphaned db payment params) (hlink : payment.bookingId ≠ none) :
    ((Task.settle payment params true).run env now db).2 = some (.b2Check payment.id) := by
  obtain ⟨k, hk⟩ := Option.ne_none_iff_exists'.mp hlink
  obtain ⟨q, hq, hs⟩ := h.unpaid
  have hsettle : settleSuccess now db payment params = .ok
      ⟨{ db with payments := db.payments.update payment.id (Payment.capture now params) },
        true, some .b2Orphan⟩ := by
    rw [settleSuccess, unpaid_row hq hs]
    simp only [ensure, if_pos h.txn, hk, orThrow, bind, Except.bind, pure, Except.pure,
      h.gone k hk]
  simp only [Task.run, settleTx, if_true, hsettle, afterSettle]

/-- The checks before the transaction pass. -/
theorem Sys.Recoverable.preflight {s : Sys} {pid : Id} {snapshot : BookingSnapshot}
    (h : s.Recoverable env pid snapshot)
    (unstamped : ∀ q, s.db.payments.find? pid = some q → q.bookingRecreatedAt = none) :
    ∃ amount bookingId, ((Task.b2Check pid).run env s.now s.db) =
      (s.db, some (.recreate pid amount bookingId snapshot)) := by
  obtain ⟨q, hq, hsnap⟩ := h.payment
  obtain ⟨u, hu, hdeleted, _⟩ := h.customer
  obtain ⟨a, ha, hactive, hover⟩ := h.activity
  have hcustomer : (s.db.users.find? snapshot.customerId).filter
      (fun u => u.deletedAt = none) = some u := by
    rw [Option.mem_def.mp hu, Option.filter_some, if_pos (decide_eq_true hdeleted)]
  have hplan : b2Preflight env s.now s.db pid =
      .recreate q.amount q.bookingId snapshot := by
    simp only [b2Preflight, Option.mem_def.mp hq, unstamped q hq, hsnap, h.version, hcustomer,
      Option.mem_def.mp ha, hactive, ne_eq, not_true_eq_false, if_false, if_neg (not_le.mpr hover)]
  exact ⟨q.amount, q.bookingId, by simp only [Task.run, hplan]⟩

/-- The payment and the booking id are free for the booking of a recovery. -/
theorem Consistent.payment_unnamed {s : Sys} (h : Consistent s) {pid k : Id}
    (hr : Recovering s.db pid k (fun _ => False)) :
    s.db.bookings.find? k = none ∧ ∀ b ∈ s.db.bookings.rows, b.paymentId ≠ some pid := by
  have hgone : s.db.bookings.find? k = none := by
    by_contra hne
    obtain ⟨b, hb⟩ := Option.ne_none_iff_exists'.mp hne
    exact ((hr.isOpen 0).2.2 b.file (dossier_of_find hb 0)).2
  refine ⟨hgone, fun b hb hname => ?_⟩
  have hfind : s.db.bookings.find? b.id = some b := Table.find?_key hb
  have hfile := dossier_of_find hfind 0
  obtain ⟨p, hp⟩ : ∃ p, (s.db.dossier 0 b.id).payment = some p := by
    have sound := h.filed 0 b.id
    cases hs : b.status with
    | pending =>
        obtain ⟨p, hp, _⟩ := sound.reserved _ hfile hs
        exact ⟨p, hp⟩
    | confirmed =>
        obtain ⟨p, hp, _⟩ := sound.booked _ hfile (.inl hs)
        exact ⟨p, hp⟩
    | completed =>
        obtain ⟨p, hp, _⟩ := sound.booked _ hfile (.inr hs)
        exact ⟨p, hp⟩
    | cancelled =>
        obtain ⟨p, hp, _⟩ := sound.cancelled _ hfile hs
        exact ⟨p, hp⟩
  obtain ⟨hnamed, q, hq, _, own⟩ := h.filed.payment_of_booking h.wired hfind hp
  obtain rfl : p.id = pid := Option.some.inj (hnamed.symm.trans hname)
  obtain ⟨hmem, hid⟩ := Table.find?_eq_some.mp hq
  have hlink := ((own.iff q hmem).mp hid).symm.trans ((hr.owns.iff q hmem).mp hid)
  rw [Option.some.inj hlink, hgone] at hfind
  cases hfind

/-- A booking is inserted where its reference, its key and its payment are free. -/
theorem insertBooking_of_free {b : Booking} {bookings : Table Booking}
    (ref : ∀ x ∈ db.bookings.rows, x.ref ≠ b.ref)
    (key : b.idempotencyKey = none ∨
      ∀ x ∈ db.bookings.rows, x.idempotencyKey ≠ b.idempotencyKey)
    (pay : b.paymentId = none ∨ ∀ x ∈ db.bookings.rows, x.paymentId ≠ b.paymentId)
    (ins : db.bookings.insert? b = some bookings) :
    insertBooking db b = .ok { db with bookings := bookings } := by
  simp only [insertBooking, ensure, if_pos ref, if_pos key, if_pos pay, ins, orThrow, bind,
    Except.bind, pure, Except.pure]

/-- **The transaction commits** for a booking without points whose columns are
free. -/
theorem b2Recreate_commits {pid k : Id} {q : Payment} {snapshot : BookingSnapshot}
    (hq : db.payments.find? pid = some q) (hnone : q.bookingRecreatedAt = none)
    (paid : q.status = .success)
    (slot : recoverySlotAvailable db now ⟨snapshot.activityId, snapshot.unitNumber,
      snapshot.startDatetime, snapshot.endDatetime, snapshot.guests, none⟩ = true)
    (hgone : db.bookings.find? k = none)
    (unnamed : ∀ b ∈ db.bookings.rows, b.paymentId ≠ some pid)
    (unlinked : ∀ x ∈ db.payments.rows, x.id ≠ pid → x.bookingId ≠ some k)
    (free : Reinsertable db snapshot) :
    ∃ db', b2Recreate now db pid (some k) snapshot = .ok (db', .recreated) ∧
      Recovered db db' pid k snapshot := by
  obtain ⟨bookings, hins⟩ : ∃ t, db.bookings.insert? (recreatedBooking k pid snapshot) =
      some t := by
    unfold Table.insert?
    rw [dif_neg]
    · exact ⟨_, rfl⟩
    · intro hmem
      obtain ⟨b, hb, hid⟩ := List.mem_map.mp hmem
      exact Table.find?_eq_none.mp hgone b hb hid
  have hfilter : (db.payments.find? pid).filter (fun q => q.bookingRecreatedAt = none) =
      some q := by
    rw [hq, Option.filter_some, if_pos (decide_eq_true hnone)]
  have hinsert : ∀ payments : Table Payment,
      insertBooking { db with payments := payments } (recreatedBooking k pid snapshot) =
        .ok { db with payments := payments, bookings := bookings } :=
    fun payments => insertBooking_of_free free.ref free.key (.inr unnamed) hins
  have hlink : ∀ x ∈ (db.payments.update pid (Payment.stampRecreated now)).rows,
      x.id ≠ pid → x.bookingId ≠ some (recreatedBooking k pid snapshot).id := by
    intro x hx hne
    obtain ⟨y, hy, rfl⟩ := Table.mem_update.mp hx
    by_cases hid : Keyed.key y = pid
    · rw [if_pos hid] at hne
      exact absurd hid hne
    · rw [if_neg hid]
      exact unlinked y hy hid
  have hpoints : ¬ (recreatedBooking k pid snapshot).pointsRedeemed > 0 :=
    not_lt.mpr free.points
  have hcommit : b2Recreate now db pid (some k) snapshot = .ok (reclaimCouponUsage { db with
      payments := (db.payments.update pid (Payment.stampRecreated now)).update pid
        (Payment.relink k)
      bookings := bookings } snapshot.couponCode snapshot.customerId, .recreated) := by
    rw [b2Recreate, hfilter]
    simp only [recoverySlotAvailable_payments, slot, not_true_eq_false, if_false,
      Option.getD_some, reduceCtorEq, hinsert, bind, Except.bind, ensure, if_pos hlink,
      redeemPointsOf, if_neg hpoints, pure, Except.pure]
    rfl
  have hf := reclaimCouponUsage_frame { db with
      payments := (db.payments.update pid (Payment.stampRecreated now)).update pid
        (Payment.relink k)
      bookings := bookings } snapshot.couponCode snapshot.customerId
  refine ⟨_, hcommit, ?_, ?_, ?_⟩
  · refine ⟨recreatedBooking k pid snapshot, ?_, rfl, rfl, rfl⟩
    rw [hf.bookings]
    have hfind := Table.find?_key ((Table.mem_of_insert? hins).mpr (.inr rfl))
    exact hfind
  · refine ⟨(q.stampRecreated now).relink k, ?_, paid, rfl⟩
    have hstamped : (db.payments.update pid (Payment.stampRecreated now)
        (fun _ => rfl)).find? pid = some (q.stampRecreated now) := by
      refine (Table.find?_update _ _ _ _ _).trans ?_
      rw [if_pos rfl, hq]
      rfl
    have hrow : ((db.payments.update pid (Payment.stampRecreated now) (fun _ => rfl)).update
        pid (Payment.relink k) (fun _ => rfl)).find? pid =
          some ((q.stampRecreated now).relink k) := by
      refine (Table.find?_update _ _ _ _ _).trans ?_
      rw [if_pos rfl, hstamped]
      rfl
    rw [hf.payments]
    exact hrow
  · have husers : ∀ d : Db, d.users = db.users →
        d.balanceOf snapshot.customerId = db.balanceOf snapshot.customerId := by
      intro d hd
      rw [Db.balanceOf, hd]
      rfl
    rw [husers _ hf.users, max_eq_left free.points, sub_zero]

/-- **The transaction commits only then**: points that were redeemed before
cannot be redeemed again. -/
theorem Recovered.reinsertable {pid k : Id} {amount : Cents} {snapshot : BookingSnapshot}
    (hgone : db.bookings.find? k = none)
    (redeemed : (db.dossier snapshot.customerId k).Redeemed snapshot.customerId)
    (shown : ∃ p ∈ (db.dossier snapshot.customerId k).payment,
      p.snapshot = some snapshot)
    (h : Recovered db ((Task.recreate pid amount (some k) snapshot).run env now db).1 pid k
      snapshot) : Reinsertable db snapshot := by
  obtain ⟨b, hb, _⟩ := h.booking
  have hsame : ∀ bookings : Table Booking, bookings = db.bookings →
      ¬ bookings.find? k = some b := by
    rintro _ rfl hfound
    rw [hgone] at hfound
    cases hfound
  simp only [Task.run] at hb
  split at hb
  · exact absurd hb (hsame _ rfl)
  · rename_i db' htx
    rcases b2Recreate_ok htx with ⟨hkind, _⟩ | ⟨_, ⟨_, _, _, _, e⟩ | ⟨hkind, _⟩⟩
    · cases hkind
    · exact absurd hb (hsame _ e.bookings)
    · cases hkind
  · rename_i db' kind hkind htx
    rcases b2Recreate_ok htx with ⟨_, rfl⟩ | ⟨_, ⟨hslot, _⟩ | ⟨_, r, _⟩⟩
    · exact absurd hb (hsame _ rfl)
    · exact absurd hslot hkind
    · refine ⟨?_, r.refFree, r.keyFree⟩
      by_contra hpos
      have hpos : 0 < snapshot.pointsRedeemed := not_le.mp hpos
      obtain ⟨p, hp, hs⟩ := shown
      have hdue : 0 < (recreatedBooking k p.id snapshot).dueTo snapshot.customerId := by
        simpa [Booking.dueTo, recreatedBooking] using hpos
      have hspent := redeemed p hp snapshot hs hdue
      -- the redemption of the first life is in the ledger
      obtain ⟨e, he, hid, hsource⟩ : ∃ e ∈ db.entries, e.bookingId = some k ∧
          e.source = .bookingRedeem := by
        by_contra hnone
        have hzero : sumOf (entriesOf db.entries snapshot.customerId) [.bookingRedeem] k = 0 := by
          refine sumOf_eq_zero fun e he hk => hnone ⟨e, mem_of_entriesOf he, hk.1, ?_⟩
          simpa using hk.2
        have hspent : 0 < -sumOf (entriesOf db.entries snapshot.customerId)
          [.bookingRedeem] k := hspent
        rw [hzero] at hspent
        simp at hspent
      exact r.once hpos e he ⟨hid, hsource⟩

/-! ## At most one recovery -/

/-- The step re-inserts the booking of the payment. -/
def Sys.Recreates (s : Sys) (a : Action) (pid : Id) : Prop :=
  ∃ amount bookingId snapshot db',
    s.task? a = some (.recreate pid amount bookingId snapshot) ∧
      b2Recreate s.now s.db pid bookingId snapshot = .ok (db', .recreated)

/-- The payment, if it is still there, was recovered. -/
def Stamped (pid : Id) (db : Db) : Prop :=
  pid < db.nextId ∧ ∀ q, db.payments.find? pid = some q → q.bookingRecreatedAt ≠ none

/-- A stamp stays over a step. -/
theorem Stamped.step {s s' : Sys} {a : Action} {pid : Id} (h : Stamped pid s.db)
    (hc : Consistent s) (sane : s.SaneUpdate a) (hstep : s.step env a = some s') :
    Stamped pid s'.db := by
  obtain ⟨_, chain, st⟩ := hc.step sane.guarded hstep
  rcases Sys.step_cases hstep with ⟨elapsed, rfl, rfl⟩ | ⟨_, _, rfl, _, rfl⟩ |
    ⟨index, t, rfl, ht, rfl⟩
  · exact h
  · exact h
  · have stamps := Task.run_stamps env s.now hc.wired hc.filed
      (hc.relies t (List.mem_of_getElem? ht))
    refine ⟨lt_of_lt_of_le h.1 st.grows.nextId, fun q' hq' => ?_⟩
    obtain ⟨hq', hid'⟩ := Table.find?_eq_some.mp hq'
    have hid' : q'.id = pid := hid'
    rcases stamps q' hq' with ⟨q, hq, hid, hcase⟩ | ⟨hfresh, _⟩
    · have hold := h.2 q (Table.find?_eq_some.mpr ⟨hq, hid.symm.trans hid'⟩)
      rcases hcase with hsame | ⟨_, hnone⟩
      · rwa [hsame]
      · exact absurd hnone hold
    · have := h.1
      lia

/-- A re-insertion leaves the stamp. -/
theorem Sys.Recreates.stamped {s s' : Sys} {a : Action} {pid : Id} (h : s.Recreates a pid)
    (hc : Consistent s) (hstep : s.step env a = some s') : Stamped pid s'.db := by
  obtain ⟨amount, bookingId, snapshot, db', ht, htx⟩ := h
  cases a with
  | run index =>
      have hin := List.mem_of_getElem? ht
      obtain ⟨k, rfl, hr, _⟩ := hc.relies _ hin
      have hs' : s'.db = db' := by
        simp only [Sys.step, Option.map_eq_some_iff] at hstep
        obtain ⟨t, ht', rfl⟩ := hstep
        obtain rfl := Option.some.inj (ht'.symm.trans ht)
        simp only [Sys.ran, Task.run, htx]
      rcases b2Recreate_ok htx with ⟨hkind, _⟩ | ⟨_, ⟨hkind, _⟩ | ⟨_, _, _, hpays⟩⟩
      · cases hkind
      · cases hkind
      · obtain ⟨hnext, fp, hp, hps, hfp⟩ := hpays k rfl
        rw [hs']
        refine ⟨hnext ▸ hr.owns.payment_lt, fun q' hq' => ?_⟩
        rw [hps, Table.find?_update, if_pos rfl] at hq'
        obtain ⟨q, _, rfl⟩ := Option.map_eq_some_iff.mp hq'
        rw [(hfp q).2.2.2.1]
        simp
  | tick elapsed => cases ht
  | begin request => cases ht

/-- A stamped payment is not recovered again. -/
theorem Stamped.not_recreates {s : Sys} {a : Action} {pid : Id} (h : Stamped pid s.db) :
    ¬ s.Recreates a pid := by
  rintro ⟨_, _, _, _, _, htx⟩
  rcases b2Recreate_ok htx with ⟨hkind, _⟩ | ⟨⟨q, hq, hnone⟩, _⟩
  · cases hkind
  · exact h.2 q hq hnone

/-! ## Runs -/

/-- At the start no payment is stamped. -/
theorem Initial.stampsSettled {s : Sys} (h : Initial s) : StampsSettled s := by
  refine ⟨fun q hq => ?_, fun t ht => ?_⟩
  · rw [h.payments] at hq
    cases hq
  · rw [h.inflight] at ht
    cases ht

/-- What every run keeps for the recovery. -/
theorem Initial.orphans {s₀ s : Sys} (h : Initial s₀)
    (run : Run (Sys.step env) Sys.SaneUpdate s₀ s) : Consistent s ∧ StampsSettled s := by
  refine run.invariant (fun s => Consistent s ∧ StampsSettled s)
    (fun s a s' ⟨hc, hs⟩ sane hstep => ?_) ⟨h.consistent, h.stampsSettled⟩
  exact ⟨(hc.step sane.guarded hstep).1, hs.step hc sane hstep⟩

/-- **A late success on a deleted booking** goes on to the recovery, whose
transaction commits exactly when the booking can be inserted again without
its points; and a payment is recovered at most once. -/
theorem late_success_recovered {s₀ : Sys} (h : Initial s₀) :
    (∀ s, Run (Sys.step env) Sys.SaneUpdate s₀ s →
      ∀ pid snapshot, s.Recoverable env pid snapshot →
        (∀ payment params, payment.id = pid → Task.settle payment params true ∈ s.inflight →
          Orphaned s.db payment params →
          ((Task.settle payment params true).run env s.now s.db).2 = some (.b2Check pid)) ∧
        (Task.b2Check pid ∈ s.inflight → ∃ amount bookingId,
          (Task.b2Check pid).run env s.now s.db =
            (s.db, some (.recreate pid amount bookingId snapshot))) ∧
        ∀ amount bookingId, Task.recreate pid amount bookingId snapshot ∈ s.inflight →
          ∃ k, bookingId = some k ∧
            (Recovered s.db
                ((Task.recreate pid amount bookingId snapshot).run env s.now s.db).1
                pid k snapshot ↔
              Reinsertable s.db snapshot)) ∧
    ∀ s a s', Run (Sys.step env) Sys.SaneUpdate s₀ s → s.SaneUpdate a →
      s.step env a = some s' → ∀ pid, s.Recreates a pid →
        ∀ s'' a', Run (Sys.step env) Sys.SaneUpdate s' s'' → ¬ s''.Recreates a' pid := by
  refine ⟨fun s run pid snapshot hr => ⟨?_, ?_, ?_⟩, ?_⟩
  · intro payment params hid hin horphan
    obtain ⟨hc, _⟩ := h.orphans run
    obtain ⟨k, hk, _⟩ := hc.relies _ hin
    rw [← hid]
    exact settle_orphaned horphan (by simp [hk])
  · intro hin
    obtain ⟨_, hs⟩ := h.orphans run
    exact hr.preflight (hs.unstamped _ hin pid rfl)
  · intro amount bookingId hin
    obtain ⟨hc, hs⟩ := h.orphans run
    obtain ⟨k, rfl, hrec, shows⟩ := hc.relies _ hin
    obtain ⟨hgone, unnamed⟩ := hc.payment_unnamed hrec
    obtain ⟨q, hq, hsnap⟩ := hr.payment
    have hfile := hrec.dossier_payment hq
    refine ⟨k, rfl, fun hrecovered => ?_, fun free => ?_⟩
    · refine hrecovered.reinsertable hgone ?_ ⟨q.file, hfile _, hsnap⟩
      exact h.run_dossiers (run.mono fun _ _ => Sys.SaneUpdate.guarded) Dossier.Redeemed
        (fun _ _ _ _ hp => by cases hp) (fun _ _ _ _ _ _ hd m => hd.step m) _ _
    · have hunlinked : ∀ x ∈ s.db.payments.rows, x.id ≠ pid → x.bookingId ≠ some k :=
        fun x hx hne hlink => hne ((hrec.owns.iff x hx).mpr hlink)
      obtain ⟨db', htx, hrecovered⟩ := @b2Recreate_commits s.db s.now pid k q snapshot hq
        (hs.unstamped _ hin pid rfl q hq) (hrec.captured hq) hr.slot hgone unnamed hunlinked
        free
      simpa only [Task.run, htx] using hrecovered
  · intro s a s' run sane hstep pid hrecreates s'' a' run'
    obtain ⟨hc, _⟩ := h.orphans run
    have hs'' : Consistent s'' ∧ Stamped pid s''.db :=
      run'.invariant (fun s => Consistent s ∧ Stamped pid s.db)
        (fun _ _ _ hI sane hstep =>
          ⟨(hI.1.step sane.guarded hstep).1, hI.2.step hI.1 sane hstep⟩)
        ⟨(hc.step sane.guarded hstep).1, hrecreates.stamped hc hstep⟩
    exact hs''.2.not_recreates

instance (s : Sys) (pid : Id) (snapshot : BookingSnapshot) :
    Decidable (s.Recoverable env pid snapshot) :=
  decidable_of_iff
    ((∃ q ∈ s.db.payments.find? pid, q.bookingSnapshot = some snapshot) ∧ snapshot.v = 2 ∧
      (∃ u ∈ s.db.users.find? snapshot.customerId,
        u.deletedAt = none ∧ snapshot.pointsRedeemed ≤ u.loyaltyPoints) ∧
      (∃ a ∈ s.db.activities.find? snapshot.activityId, a.status = .active ∧
        nowInTimezone env (((s.db.countries.find? a.countryId).map
          Country.defaultTimezone).getD "UTC") s.now < snapshot.endDatetime) ∧
      recoverySlotAvailable s.db s.now ⟨snapshot.activityId, snapshot.unitNumber,
        snapshot.startDatetime, snapshot.endDatetime, snapshot.guests, none⟩ = true)
    ⟨fun h => ⟨h.1, h.2.1, h.2.2.1, h.2.2.2.1, h.2.2.2.2⟩,
      fun h => ⟨h.payment, h.version, h.customer, h.activity, h.slot⟩⟩

instance (db : Db) (snapshot : BookingSnapshot) : Decidable (Reinsertable db snapshot) :=
  decidable_of_iff
    (snapshot.pointsRedeemed ≤ 0 ∧ (∀ b ∈ db.bookings.rows, b.ref ≠ snapshot.ref) ∧
      (snapshot.idempotencyKey = none ∨
        ∀ b ∈ db.bookings.rows, b.idempotencyKey ≠ snapshot.idempotencyKey))
    ⟨fun h => ⟨h.1, h.2.1, h.2.2⟩, fun h => ⟨h.points, h.ref, h.key⟩⟩

/-- A booking whose payment is started, that is reaped, and then paid, up to
the transaction of its recovery. -/
def reapedThenPaid (redeemPoints : Option ℚ) : List Action :=
  [.begin (.createBooking 1 (marketRequest redeemPoints) "R1"), .run 0, .run 0,
    .begin (.initiatePayment 101 1 none "B1"), .run 0, .tick (3 * 3600000),
    .begin .autoCancelStalePendingBookings, .run 0,
    .begin (.handleCallback (marketIpn "B1")), .run 0, .run 0]

/-- The recovery in flight, when there is nothing else. -/
def Sys.recovery? (s : Sys) : Option (Cents × BookingSnapshot) :=
  match s.inflight with
  | [.recreate 100 amount (some 101) snapshot] => some (amount, snapshot)
  | _ => none

/-- The recovery of the run below is in flight. -/
theorem Sys.mem_of_recovery? {s : Sys} {r : Cents × BookingSnapshot}
    (h : s.recovery? = some r) : Task.recreate 100 r.1 (some 101) r.2 ∈ s.inflight := by
  unfold Sys.recovery? at h
  split at h
  · rename_i hin
    obtain rfl := Option.some.inj h
    rw [hin]
    exact List.mem_singleton_self _
  · cases h

theorem late_success_recovered_unpointed :
    ∃ s, Run (Sys.step marketEnv) Sys.SaneUpdate market s ∧
      ∃ amount snapshot, Task.recreate 100 amount (some 101) snapshot ∈ s.inflight ∧
        Recovered s.db
          ((Task.recreate 100 amount (some 101) snapshot).run marketEnv s.now s.db).1
          100 101 snapshot := by
  obtain ⟨s, run, htest⟩ := @Run.of_execAll_test _ _ (Sys.step marketEnv) Sys.SaneUpdate _
    (reapedThenPaid none) market (fun s => ∃ r ∈ s.recovery?,
      s.Recoverable marketEnv 100 r.2 ∧ Reinsertable s.db r.2) (by decide +kernel)
  obtain ⟨⟨amount, snapshot⟩, hr, hrecoverable, free⟩ := of_decide_eq_true htest
  have hin := Sys.mem_of_recovery? hr
  obtain ⟨k, hk, hiff⟩ :=
    ((late_success_recovered market_initial).1 s run 100 snapshot hrecoverable).2.2 _ _ hin
  obtain rfl := Option.some.inj hk
  exact ⟨s, run, amount, snapshot, hin, hiff.mpr free⟩

/-- The booking was paid in part with points, which the reaper returned: the
customer has them, and the recovery cannot redeem them again. -/
theorem late_success_with_points_refunded : Initial market ∧
    ∃ s, Run (Sys.step marketEnv) Sys.SaneUpdate market s ∧
      ∃ amount snapshot, Task.recreate 100 amount (some 101) snapshot ∈ s.inflight ∧
        s.Recoverable marketEnv 100 snapshot ∧
        ¬ Recovered s.db
          ((Task.recreate 100 amount (some 101) snapshot).run marketEnv s.now s.db).1
          100 101 snapshot := by
  refine ⟨market_initial, ?_⟩
  obtain ⟨s, run, htest⟩ := @Run.of_execAll_test _ _ (Sys.step marketEnv) Sys.SaneUpdate _
    (reapedThenPaid (some 50)) market (fun s => ∃ r ∈ s.recovery?,
      s.Recoverable marketEnv 100 r.2 ∧
      ((Task.recreate 100 r.1 (some 101) r.2).run marketEnv s.now s.db).1.bookings.find? 101 =
        none) (by decide +kernel)
  obtain ⟨⟨amount, snapshot⟩, hr, hrecoverable, hgone⟩ := of_decide_eq_true htest
  refine ⟨s, run, amount, snapshot, Sys.mem_of_recovery? hr, hrecoverable, fun h => ?_⟩
  obtain ⟨b, hb, _⟩ := h.booking
  rw [hgone] at hb
  cases hb

end Jadwal
