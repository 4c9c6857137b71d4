import Jadwal.Consistency

/-!
# Captured money stays on the books

A basket id is stored on a payment when the customer is sent to the
gateway, and a capture arrives under it.  No task removes a stored basket
id, provided the two statements that rely on a basket read earlier, the
hard delete of `cancelBooking` and the store of `initiatePayment`, find
the basket they read (`baskets_kept`).
-/

namespace Jadwal

open Outcome

variable {db db' : Db} {env : Env} {now : Instant}

/-- Every stored basket id is still stored, on the same payment. -/
def KeepsBaskets (ps ps' : Table Payment) : Prop :=
  ∀ q ∈ ps.rows, ∀ basketId ∈ q.gatewayBasketId,
    ∃ q' ∈ ps'.rows, q'.id = q.id ∧ q'.gatewayBasketId = some basketId

theorem KeepsBaskets.refl (ps : Table Payment) : KeepsBaskets ps ps :=
  fun q hq _ hb => ⟨q, hq, rfl, hb⟩

/-- Payments that stay the same keep their baskets. -/
theorem KeepsBaskets.of_eq {ps ps' : Table Payment} (h : ps' = ps) : KeepsBaskets ps ps' :=
  h ▸ .refl ps

/-- Keeping the baskets composes. -/
theorem KeepsBaskets.trans {ps ps' ps'' : Table Payment} (h : KeepsBaskets ps ps')
    (h' : KeepsBaskets ps' ps'') : KeepsBaskets ps ps'' := by
  intro q hq basketId hb
  obtain ⟨q', hq', hid, hb'⟩ := h q hq basketId hb
  obtain ⟨q'', hq'', hid', hb''⟩ := h' q' hq' basketId hb'
  exact ⟨q'', hq'', hid'.trans hid, hb''⟩

/-- An update that leaves baskets alone. -/
theorem KeepsBaskets.updateMany {ps : Table Payment} {p : Payment → Bool}
    {f : Payment → Payment} {hf : ∀ q, Keyed.key (f q) = Keyed.key q}
    (h : ∀ q, (f q).gatewayBasketId = q.gatewayBasketId) :
    KeepsBaskets ps (ps.updateMany p f hf) := by
  intro q hq basketId hb
  refine ⟨_, Table.mem_updateMany.mpr ⟨q, hq, rfl⟩, ?_, ?_⟩
  · split
    · exact hf q
    · rfl
  · split
    · exact (h q).trans hb
    · exact hb

/-- A new payment takes no basket away. -/
theorem KeepsBaskets.append {ps ps' : Table Payment} {q : Payment}
    (h : ps'.rows = ps.rows ++ [q]) : KeepsBaskets ps ps' :=
  fun q hq _ hb => ⟨q, by simp [h, hq], rfl, hb⟩

/-- A delete of a payment without a basket. -/
theorem KeepsBaskets.delete {ps : Table Payment} {id : Id}
    (h : ∀ q ∈ ps.find? id, q.gatewayBasketId = none) : KeepsBaskets ps (ps.delete id) := by
  intro q hq basketId hb
  refine ⟨q, Table.mem_delete.mpr ⟨hq, fun hid => ?_⟩, rfl, hb⟩
  have := h q (Table.find?_eq_some.mpr ⟨hq, hid⟩)
  rw [Option.mem_def, this] at hb
  cases hb

/-- Settling a payment leaves its basket. -/
theorem KeepsBaskets.of_settles {ps ps' : Table Payment} {id : Id} {status : PaymentStatus}
    (h : Settled.Row ps ps' id status) : KeepsBaskets ps ps' := by
  obtain ⟨f, hf, rfl, hset⟩ := h
  exact .updateMany hset.basket

/-! ## The reads that must not be out of date -/

/-- The payment a task is about to delete, as it was read. -/
def Task.hardDelete? : Task → Option Payment
  | .cancel r =>
      match r.plan with
      | .hardDelete => r.payment
      | _ => none
  | _ => none

/-- The read of `initiatePayment` a task is about to write by. -/
def Task.initiate? : Task → Option InitiateRead
  | .initiate r _ => some r
  | _ => none

/-- The condition on a step: the payment it deletes, or stores a basket on,
has the basket that was read, and a status update is sound. -/
structure Sys.FreshBaskets (s : Sys) (a : Action) : Prop where
  deletes : ∀ p ∈ (s.task? a).bind Task.hardDelete?, ∀ q ∈ s.db.payments.find? p.id,
    q.gatewayBasketId = p.gatewayBasketId
  stores : ∀ r ∈ (s.task? a).bind Task.initiate?, ∀ q ∈ s.db.payments.find? r.paymentId,
    q.gatewayBasketId = r.gatewayBasketId
  sane : s.SaneUpdate a

instance (s : Sys) (a : Action) : Decidable (s.FreshBaskets a) :=
  decidable_of_iff
    ((∀ p ∈ (s.task? a).bind Task.hardDelete?, ∀ q ∈ s.db.payments.find? p.id,
        q.gatewayBasketId = p.gatewayBasketId) ∧
      (∀ r ∈ (s.task? a).bind Task.initiate?, ∀ q ∈ s.db.payments.find? r.paymentId,
        q.gatewayBasketId = r.gatewayBasketId) ∧ s.SaneUpdate a)
    ⟨fun h => ⟨h.1, h.2.1, h.2.2⟩, fun h => ⟨h.deletes, h.stores, h.sane⟩⟩

/-! ## Tasks keep baskets -/

/-- A basket that is stored replaces none, when the read is still fresh. -/
theorem initiateWrite_baskets {r : InitiateRead} {basketId : String}
    (fresh : ∀ q ∈ db.payments.find? r.paymentId, q.gatewayBasketId = r.gatewayBasketId)
    (h : initiateWrite now db r basketId = .ok db') :
    KeepsBaskets db.payments db'.payments := by
  simp only [initiateWrite, bind_eq_ok, orThrow_eq_ok, ensure_eq_ok, pure_eq_ok] at h
  obtain ⟨_, _, _, _, _, _, rfl⟩ := h
  change KeepsBaskets db.payments
    (db.payments.update r.paymentId (Payment.initiate now r basketId) (fun _ => rfl))
  intro q hq b hb
  refine ⟨_, Table.mem_update.mpr ⟨q, hq, rfl⟩, ?_, ?_⟩
  · split <;> rfl
  · split
    · rename_i hid
      have hread := fresh q (Table.find?_eq_some.mpr ⟨hq, hid⟩)
      rw [Option.mem_def.mp hb] at hread
      simp [Payment.initiate, ← hread, Option.mem_def.mp hb]
    · exact hb

/-- A callback that settles keeps the baskets. -/
theorem settleTx_baskets {payment : Payment} {params : CallbackParams} {isSuccess : Bool}
    {s : Settled} (h : settleTx now db payment params isSuccess = .ok s) :
    KeepsBaskets db.payments s.db.payments := by
  unfold settleTx at h
  split at h
  · rcases settleSuccess_ok h with ⟨hdb, _⟩ | hs
    · exact .of_eq (by rw [hdb])
    · obtain ⟨k, fp, hp, _, hset, ⟨_, _, e⟩ | ⟨_, _, _, _, e⟩ | ⟨_, _, _, _, _, _, _, _, e⟩⟩ :=
        hs.effect <;>
      · rw [e.payments]
        exact .updateMany hset.basket
  · rcases settleFailure_ok h with ⟨hdb, _⟩ | hs
    · exact .of_eq (by rw [hdb])
    · obtain ⟨fp, hp, hset, ⟨_, e⟩ | ⟨_, _, _, _, e⟩⟩ := hs.effect <;>
      · rw [e.payments]
        exact .updateMany hset.basket

/-- A recovery of a known booking keeps the baskets. -/
theorem b2Recreate_baskets {pid : Id} {k : Id} {s : BookingSnapshot} {kind : RecoveryKind}
    (h : b2Recreate now db pid (some k) s = .ok (db', kind)) :
    KeepsBaskets db.payments db'.payments := by
  rcases b2Recreate_ok h with ⟨_, rfl⟩ | ⟨_, ⟨_, fp, hp, hfp, e⟩ | ⟨_, _, _, hpays⟩⟩
  · exact .refl _
  · rw [e.payments]
    exact .updateMany hfp.basket
  · obtain ⟨_, fp, hp, hps, hfp⟩ := hpays k rfl
    rw [hps]
    exact .updateMany fun q => (hfp q).2.2.1

/-- A cancellation keeps the baskets. -/
theorem SoftCancelled.baskets {r : CancelRead} {pid : Id} {expected status : PaymentStatus}
    {source : LoyaltyLedgerSource} (h : SoftCancelled db db' r pid expected status source) :
    KeepsBaskets db.payments db'.payments := by
  obtain ⟨fb, hb, fp, hp, e, _, hset⟩ := h.effect
  rw [e.payments]
  exact .updateMany hset.basket

/-- A cancel deletes a payment only when it read one without a basket. -/
theorem cancelCommit_baskets {r : CancelRead} (hr : r.Relies db)
    (fresh : ∀ p ∈ (Task.cancel r).hardDelete?, ∀ q ∈ db.payments.find? p.id,
      q.gatewayBasketId = p.gatewayBasketId)
    (h : cancelCommit now db r = .ok db') : KeepsBaskets db.payments db'.payments := by
  unfold cancelCommit at h
  cases hplan : r.plan with
  | pointsOnly payment =>
      rw [hplan] at h
      exact (cancelPointsOnly_ok h).baskets
  | paid payment =>
      rw [hplan] at h
      exact (cancelPaid_ok h).baskets
  | inFlight payment =>
      rw [hplan] at h
      exact (cancelInFlight_ok h).baskets
  | hardDelete =>
      rw [hplan] at h
      obtain ⟨_, e⟩ := cancelHardDelete_ok h
      obtain ⟨q, hq, _, hst⟩ := hr.payment
      rw [hq] at e
      rw [e.payments]
      refine .delete fun x hx => ?_
      have hread : q.gatewayBasketId = none := by
        simp only [CancelRead.plan, hq] at hplan
        rcases hst with hs | ⟨hs, _⟩
        · by_contra hne
          simp [hs, hne] at hplan
        · rw [if_pos hs] at hplan
          split at hplan <;> cases hplan
      have hfresh := fresh q (by simp [Task.hardDelete?, hplan, hq]) x hx
      rw [hfresh, hread]

/-- An operator's cancellation keeps them. -/
theorem operatorCancel_baskets (w : Wired db) (hf : Filed db) {op : Operator} {k : Id}
    (h : operatorCancel now db op k = .ok db') : KeepsBaskets db.payments db'.payments := by
  obtain ⟨found, hfound, ⟨_, rfl⟩ | ⟨live, hdo⟩⟩ := operatorCancel_ok h
  · exact .refl _
  obtain ⟨q, hbind, _, _, _, hst⟩ := hf.payment_of_live w hfound live
  obtain ⟨fb, hb, ps, es, c, e, _, _, hps, _⟩ := (hdo q hbind).effect
  rw [e.payments]
  rcases hst with ⟨hs, _⟩ | hs
  · exact .of_settles (hps.2 hs)
  · exact .of_settles (hps.1 hs)

/-- So does an operator's status change. -/
theorem statusCommit_baskets (w : Wired db) (hf : Filed db) {r : StatusRead}
    (h : statusCommit now db r = .ok db') : KeepsBaskets db.payments db'.payments := by
  by_cases hc : r.newStatus = .cancelled
  · unfold statusCommit at h
    rw [if_pos hc] at h
    exact operatorCancel_baskets w hf h
  · obtain ⟨_, ⟨_, _, e, _⟩ | ⟨_, _, _, _, _, e, _⟩⟩ := statusCommit_mark_ok hc h <;>
      exact .of_eq e.payments

/-- So does the reaper. -/
theorem reapStale_baskets {stale : List Booking} (h : reapStale now db stale = .ok db') :
    KeepsBaskets db.payments db'.payments := by
  simp only [reapStale, bind_eq_ok, pure_eq_ok] at h
  obtain ⟨db₁, h₁, rfl⟩ := h
  have hp : db₁.payments = db.payments :=
    (@reapAll_dossier now 0 0 _ _ _ h₁).1.1
  have hkeep : KeepsBaskets db₁.payments (failStalePayments db₁ stale).payments := by
    change KeepsBaskets db₁.payments (db₁.payments.updateMany _ Payment.fail (fun _ => rfl))
    exact .updateMany fun _ => rfl
  exact hp ▸ hkeep

/-- A transaction that is rolled back keeps what it had. -/
theorem committed_baskets (tx : Tx Db)
    (h : ∀ db', tx = .ok db' → KeepsBaskets db.payments db'.payments) :
    KeepsBaskets db.payments (committed db tx).payments := by
  cases tx with
  | error e => exact .refl _
  | ok db' => exact h db' rfl

/-- **A task that read fresh baskets keeps every stored one.** -/
theorem Task.run_baskets (env : Env) (now : Instant) (w : Wired db) (hf : Filed db) {t : Task}
    (h : t.Relies db)
    (deletes : ∀ p ∈ t.hardDelete?, ∀ q ∈ db.payments.find? p.id,
      q.gatewayBasketId = p.gatewayBasketId)
    (stores : ∀ r ∈ t.initiate?, ∀ q ∈ db.payments.find? r.paymentId,
      q.gatewayBasketId = r.gatewayBasketId) :
    KeepsBaskets db.payments (t.run env now db).1.payments := by
  cases t with
  | create p ref =>
      simp only [Task.run]
      split
      · exact .refl _
      · rename_i db' b htx
        obtain ⟨_, _, c⟩ := createBookingTx_created htx
        exact .append c.stored.payments
  | stampOtp bookingId user =>
      refine committed_baskets _ fun db' htx => ?_
      simp only [otpStamp, bind_eq_ok, pure_eq_ok] at htx
      obtain ⟨db₁, hupd, rfl⟩ := htx
      exact .of_eq (updateBooking_ok hupd).2.1.payments
  | initiate r basketId =>
      exact committed_baskets _ fun _ htx => initiateWrite_baskets (stores r rfl) htx
  | hold bookingId => exact .refl _
  | settle payment params isSuccess =>
      simp only [Task.run]
      split
      · exact .refl _
      · rename_i s htx
        exact settleTx_baskets htx
  | b2Check pid =>
      simp only [Task.run]
      split <;> exact .refl _
  | recreate pid amount bookingId s =>
      obtain ⟨k, rfl, _⟩ := h
      simp only [Task.run]
      split
      · exact .refl _
      · rename_i htx
        exact b2Recreate_baskets htx
      · rename_i htx
        exact b2Recreate_baskets htx
  | m6Check pid k =>
      simp only [Task.run]
      split <;> exact .refl _
  | unCancel pid booking =>
      simp only [Task.run]
      split
      · exact .refl _
      · rename_i htx
        rcases m6UnCancel_ok htx with ⟨_, rfl, _⟩ | ⟨_, _, _, _, e, _⟩
        · exact .refl _
        · exact .of_eq e.payments
  | queueRefund pid amount =>
      change KeepsBaskets db.payments
        (db.payments.updateMany _ (Payment.awaitRefund amount) (fun _ => rfl))
      exact .updateMany fun _ => rfl
  | cancel r => exact committed_baskets _ fun _ htx => cancelCommit_baskets h deletes htx
  | decide r =>
      refine committed_baskets _ fun db' htx => ?_
      obtain ⟨_, _, _, fp, hp, _, _, e, _, hset, _⟩ := decisionCommit_ok htx
      rw [e.payments]
      exact .updateMany hset.basket
  | update r => exact committed_baskets _ fun _ htx => statusCommit_baskets w hf htx
  | reap stale => exact committed_baskets _ fun _ htx => reapStale_baskets htx
  | awardBatch bookings cutoff =>
      simp only [Task.run]
      split <;> exact .refl _
  | award rate todo cutoff =>
      cases todo with
      | nil => exact .refl _
      | cons b todo =>
          refine committed_baskets _ fun db' htx => ?_
          rcases awardOne_ok htx with rfl | hd
          · exact .refl _
          · obtain ⟨_, _, _, e, _⟩ := hd.effect
            exact .of_eq e.payments
  | complete bookings => exact .refl _

/-- **A step under the condition keeps every basket findable.** -/
theorem Sys.FreshBaskets.step {s s' : Sys} {a : Action} (h : Consistent s)
    (hg : s.FreshBaskets a) (hstep : s.step env a = some s') :
    KeepsBaskets s.db.payments s'.db.payments := by
  rcases Sys.step_cases hstep with ⟨elapsed, rfl, rfl⟩ | ⟨request, t, rfl, _, rfl⟩ |
    ⟨index, t, rfl, ht, rfl⟩
  · exact .refl _
  · exact .refl _
  · have htask : s.task? (.run index) = some t := ht
    refine Task.run_baskets env s.now h.wired h.filed (h.relies t (List.mem_of_getElem? ht))
      (fun p hp => hg.deletes p ?_) (fun r hr => hg.stores r ?_)
    · rw [htask]
      exact hp
    · rw [htask]
      exact hr

/-- **A stored basket id stays**: from any state of a run onwards, the
payment it is stored on keeps it, and a callback under it finds a payment. -/
theorem baskets_kept {s₀ s s' : Sys} (h : Initial s₀)
    (run : Run (Sys.step env) Sys.FreshBaskets s₀ s)
    (later : Run (Sys.step env) Sys.FreshBaskets s s') :
    ∀ q ∈ s.db.payments.rows, ∀ basketId ∈ q.gatewayBasketId,
      (∃ q' ∈ s'.db.payments.rows, q'.id = q.id ∧ q'.gatewayBasketId = some basketId) ∧
        (findByBasket s'.db basketId).isSome := by
  have hguard : ∀ s a, Sys.FreshBaskets s a → s.Guarded (fun _ _ _ => True) a :=
    fun _ _ hg => hg.sane.guarded
  have hkeep : Consistent s' ∧ KeepsBaskets s.db.payments s'.db.payments := by
    refine later.invariant (fun x => Consistent x ∧ KeepsBaskets s.db.payments x.db.payments)
      (fun x a x' ⟨hc, hk⟩ hg hstep => ?_) ⟨h.run (run.mono hguard), .refl _⟩
    exact ⟨(hc.step (hguard x a hg) hstep).1, hk.trans (hg.step hc hstep)⟩
  intro q hq basketId hb
  obtain ⟨q', hq', hid, hb'⟩ := hkeep.2 q hq basketId hb
  refine ⟨⟨q', hq', hid, hb'⟩, ?_⟩
  cases hfind : findByBasket s'.db basketId with
  | some _ => rfl
  | none =>
      have := (Table.first?_eq_none.mp hfind) q' hq'
      simp [hb'] at this

/-- Created, verified and sent to the gateway. -/
def initiatedRun : List Action :=
  [.begin (.createBooking 1 (marketRequest none) "R1"), .run 0, .run 0,
    .begin (.initiatePayment 101 1 none "B1"), .run 0]

/-- A basket is stored, the booking is cancelled, and the basket is still found. -/
theorem baskets_kept_cancelled : ∃ s s', Run (Sys.step marketEnv) Sys.FreshBaskets market s ∧
    Run (Sys.step marketEnv) Sys.FreshBaskets s s' ∧
    ∃ q ∈ s.db.payments.rows, "B1" ∈ q.gatewayBasketId ∧
      (findByBasket s'.db "B1").isSome := by
  obtain ⟨s, run, h⟩ := @Run.of_execAll_test _ _ (Sys.step marketEnv) Sys.FreshBaskets _
    initiatedRun market (fun s => (execAll (Sys.step marketEnv) Sys.FreshBaskets s
      [.begin (.cancelBooking 1 101), .run 0]).isSome &&
      s.db.payments.rows.any (fun q => q.gatewayBasketId = some "B1")) (by decide +kernel)
  rw [Bool.and_eq_true, List.any_eq_true] at h
  obtain ⟨s', hs'⟩ := Option.isSome_iff_exists.mp h.1
  obtain ⟨q, hq, hb⟩ := h.2
  have hb := of_decide_eq_true hb
  exact ⟨s, s', run, .of_execAll _ hs', q, hq, hb,
    (baskets_kept market_initial run (.of_execAll _ hs') q hq "B1" hb).2⟩

/-- The customer cancels while the payment is being initiated: the cancel
has read no basket, and deletes the payment that has one by now. -/
theorem basket_deleted : Initial market ∧
    ∃ s s', Run (Sys.step marketEnv) (fun _ _ => True) market s ∧
      Run (Sys.step marketEnv) (fun _ _ => True) s s' ∧
      (∃ q ∈ s.db.payments.rows, q.gatewayBasketId = some "B1") ∧
      s'.db.payments.rows = [] ∧ findByBasket s'.db "B1" = none := by
  refine ⟨market_initial, ?_⟩
  obtain ⟨s, run, h⟩ := @Run.of_execAll_test _ _ (Sys.step marketEnv) (fun _ _ => True) _
    [.begin (.createBooking 1 (marketRequest none) "R1"), .run 0, .run 0,
      .begin (.cancelBooking 1 101), .begin (.initiatePayment 101 1 none "B1"), .run 1]
    market (fun s => (execAll (Sys.step marketEnv) (fun _ _ => True) s [.run 0]).any
        (fun s' => s'.db.payments.rows.isEmpty && (findByBasket s'.db "B1").isNone) &&
      s.db.payments.rows.any (fun q => q.gatewayBasketId = some "B1")) (by decide +kernel)
  rw [Bool.and_eq_true, List.any_eq_true] at h
  obtain ⟨s', later, h'⟩ := Run.of_execAll_test h.1
  obtain ⟨q, hq, hb⟩ := h.2
  rw [Bool.and_eq_true, List.isEmpty_iff, Option.isNone_iff_eq_none] at h'
  exact ⟨s, s', run, later, ⟨q, hq, of_decide_eq_true hb⟩, h'⟩

end Jadwal
