import Jadwal.Consistency

/-!
# The points of a booking

What the ledger says about one booking, over whole runs: the points
redeemed on it are returned once, when it dies (`points_returned`), and
the points it earned are paid for and taken back (`points_earned`).  Both
are invariants of moves (`Dossier.Repaid`, `Dossier.Earned`), carried to
runs by the simulation.
-/

namespace Jadwal

open Outcome

variable {G : Guard} {env : Env} {chain : Option Id} {u : Id} {balance : Id → Cents}
  {d d' : Dossier}

/-! ## Sums of the ledger -/

/-- The sum of the user's ledger rows of a booking from the given sources. -/
def Db.ledgerSum (db : Db) (userId bookingId : Id) (sources : List LoyaltyLedgerSource) :
    Cents :=
  ((db.loyaltyLedger.filter (fun row => row.userId = userId ∧
    row.bookingId = some bookingId ∧ row.source ∈ sources)).map LoyaltyLedger.delta).sum

/-- The points credited back as the return of redeemed points. -/
def Db.returnedPoints (db : Db) (userId bookingId : Id) : Cents :=
  db.ledgerSum userId bookingId [.cancelRefundUnpaid, .cancelRefundPaid]

/-- The points debited as a redemption. -/
def Db.redeemedPoints (db : Db) (userId bookingId : Id) : Cents :=
  -db.ledgerSum userId bookingId [.bookingRedeem]

/-- A sum over the ledger, read from the entries of a user. -/
theorem Db.ledgerSum_eq (db : Db) (userId bookingId : Id)
    (sources : List LoyaltyLedgerSource) :
    db.ledgerSum userId bookingId sources =
      sumOf (entriesOf db.entries userId) sources bookingId := by
  unfold Db.ledgerSum Db.entries
  induction db.loyaltyLedger with
  | nil => rfl
  | cons row rows ih =>
      simp only [sumOf, entriesOf, List.map_cons, LoyaltyLedger.entry,
        List.filter_cons] at ih ⊢
      by_cases hu : row.userId = userId
      · by_cases hs : row.bookingId = some bookingId ∧ row.source ∈ sources
        · simpa [hu, hs] using ih
        · simpa [hu, hs] using ih
      · simpa [hu] using ih

/-- The points returned, read from the dossier. -/
theorem Db.returnedPoints_eq (db : Db) (u k : Id) :
    db.returnedPoints u k = (db.dossier u k).returned :=
  db.ledgerSum_eq u k _

/-- The points redeemed, read from the dossier. -/
theorem Db.redeemedPoints_eq (db : Db) (u k : Id) :
    db.redeemedPoints u k = (db.dossier u k).redeemed :=
  congrArg Neg.neg (db.ledgerSum_eq u k _)

/-! ## Redeemed points -/

/-- The redeemed points of a dossier are with the booking while it lives
and with the user once it is dead; a snapshot remembers them. -/
structure Dossier.Repaid (u : Id) (d : Dossier) : Prop where
  live : ∀ b ∈ d.booking, b.Live → d.returned = 0
  booked : ∀ b ∈ d.booking, d.redeemed = b.core.dueTo u
  dead : ∀ b ∈ d.booking, b.status = .cancelled → d.returned = d.redeemed
  gone : d.booking = none → d.returned = d.redeemed
  depicted : ∀ p ∈ d.payment, ∀ s ∈ p.snapshot,
    d.redeemed = (recreatedBooking d.id p.id s).dueTo u
  unsystem : ∀ b ∈ d.booking, b.bySystem = false

/-- The hard delete is of a booking that is not cancelled. -/
def liveDelete : Guard := fun _ e d =>
  e = .hard → ∀ b ∈ d.booking, b.status ≠ .cancelled

/-- Points are due only when some were redeemed. -/
theorem Booking.dueTo_eq_zero {b : Booking} (h : ¬ 0 < b.pointsRedeemed) (u : Id) :
    b.dueTo u = 0 := by
  unfold Booking.dueTo
  split
  · exact max_eq_left (not_lt.mp h)
  · rfl

/-- **One move keeps a dossier repaid.** -/
theorem Dossier.Repaid.step (h : d.Repaid u) (m : Move liveDelete chain u balance d d') :
    d'.Repaid u := by
  obtain ⟨live, booked, dead, gone, depicted, unsystem⟩ := h
  cases m with
  | create id p b points statuses depicts unawarded unsystem' due =>
      have hsnap : ∀ s ∈ p.snapshot, (recreatedBooking id p.id s).dueTo u =
          b.core.dueTo u := by
        intro s hs
        rw [← Booking.core_dueTo, depicts.2 s hs]
      have hlive : b.status ≠ .cancelled := by
        rcases statuses with ⟨_, h⟩ | ⟨_, h⟩ <;> rw [h] <;> simp
      constructor <;> simp only [Option.mem_def, Option.some.injEq, forall_eq',
        reduceCtorEq] <;> grind
  | recreate _ p b s points hp hb mine captured snapshot core confirmed unawarded unsystem'
      due once =>
      have hdue : b.core.dueTo u = d.redeemed := by
        rw [depicted p hp s snapshot, core]
        rfl
      -- a redemption cannot be posted twice, so there was none
      have hzero : d.redeemed = 0 ∧ points = 0 := by
        by_cases hpos : 0 < b.core.pointsRedeemed
        · exact ⟨once hpos, by rw [due, hdue, once hpos]⟩
        · have := b.core.dueTo_eq_zero hpos u
          exact ⟨by rw [← hdue, this], by rw [due, this]⟩
      have := gone hb
      constructor <;> simp only [Option.mem_def, Option.some.injEq, forall_eq',
        reduceCtorEq] at * <;> grind [BookingFile.Live]
  | _ =>
      constructor <;>
        simp only [Option.mem_def, Option.some.injEq, forall_eq', reduceCtorEq,
          Dossier.blank, liveDelete] at * <;>
        grind [BookingFile.Live, BookingFile.Booked]

/-- The hard delete a task commits, by the booking it read. -/
def Task.deletedBooking? : Task → Option Booking
  | .cancel r =>
      match r.plan with
      | .hardDelete => some r.booking
      | _ => none
  | _ => none

/-- The condition on a step: a hard delete finds its booking not cancelled,
and a status update other than a cancel is sound. -/
structure Sys.LiveDelete (s : Sys) (a : Action) : Prop where
  deletes : ∀ b ∈ (s.task? a).bind Task.deletedBooking?,
    ∀ x ∈ s.db.bookings.find? b.id, x.status ≠ .cancelled
  sane : s.SaneUpdate a

instance (s : Sys) (a : Action) : Decidable (s.LiveDelete a) :=
  decidable_of_iff
    ((∀ b ∈ (s.task? a).bind Task.deletedBooking?,
      ∀ x ∈ s.db.bookings.find? b.id, x.status ≠ .cancelled) ∧ s.SaneUpdate a)
    ⟨fun h => ⟨h.1, h.2⟩, fun h => ⟨h.deletes, h.sane⟩⟩

/-- The condition on a step, as a guard on its moves. -/
theorem Sys.LiveDelete.guarded {s : Sys} {a : Action} (h : s.LiveDelete a) :
    s.Guarded liveDelete a := by
  intro t ht
  have hsane := h.sane.guarded t ht
  cases t with
  | update r => exact ⟨hsane.1, fun _ _ he => by cases he⟩
  | cancel r =>
      intro u he b hb
      obtain ⟨x, hx, rfl⟩ := Option.map_eq_some_iff.mp hb
      refine h.deletes r.booking ?_ x hx
      unfold CancelRead.exit at he
      rw [ht, Option.bind_some]
      split at he
      · rename_i hplan
        simp only [Task.deletedBooking?, hplan, Option.mem_def]
      · cases he
  | reap stale => exact fun _ _ _ he => by cases he
  | _ => trivial

/-- The points of every booking: while it stands they are with it, once it
is cancelled or gone they have been returned, once. -/
structure PointsReturned (db : Db) : Prop where
  live : ∀ b ∈ db.bookings.rows, b.status ≠ .cancelled →
    db.returnedPoints b.customerId b.id = 0
  cancelled : ∀ b ∈ db.bookings.rows, b.status = .cancelled →
    db.returnedPoints b.customerId b.id = max 0 b.pointsRedeemed
  redeemed : ∀ b ∈ db.bookings.rows,
    db.redeemedPoints b.customerId b.id = max 0 b.pointsRedeemed
  gone : ∀ k, db.bookings.find? k = none → ∀ u,
    db.returnedPoints u k = db.redeemedPoints u k

/-- Repaid dossiers are points returned. -/
theorem PointsReturned.of_repaid {db : Db} (h : ∀ u k, (db.dossier u k).Repaid u) :
    PointsReturned db := by
  have hfile : ∀ b ∈ db.bookings.rows,
      (db.dossier b.customerId b.id).booking = some b.file := fun b hb =>
    dossier_of_find (Table.find?_key hb) _
  have hdue : ∀ b : Booking, b.core.dueTo b.customerId = max 0 b.pointsRedeemed :=
    fun b => if_pos rfl
  refine ⟨fun b hb hst => ?_, fun b hb hst => ?_, fun b hb => ?_, fun k hk u => ?_⟩
  · rw [Db.returnedPoints_eq]
    exact (h _ _).live _ (hfile b hb) hst
  · rw [Db.returnedPoints_eq, (h _ _).dead _ (hfile b hb) hst,
      (h _ _).booked _ (hfile b hb)]
    exact hdue b
  · rw [Db.redeemedPoints_eq, (h _ _).booked _ (hfile b hb)]
    exact hdue b
  · rw [Db.returnedPoints_eq, Db.redeemedPoints_eq]
    refine (h u k).gone ?_
    rw [Db.dossier_booking, hk]
    rfl

/-- **Redeemed points are returned once, exactly when the booking dies.** -/
theorem points_returned {s₀ s : Sys} (h : Initial s₀)
    (run : Run (Sys.step env) Sys.LiveDelete s₀ s) : PointsReturned s.db := by
  refine .of_repaid (h.run_dossiers (run.mono fun _ _ => Sys.LiveDelete.guarded)
    Dossier.Repaid (fun u k used => ?_) fun chain u balance d d' _ hd m => hd.step m)
  constructor <;> simp [Dossier.blank]

theorem points_returned_cancelled :
    ∃ s, Run (Sys.step marketEnv) Sys.LiveDelete market s ∧
      s.db.bookings.rows.any (fun b => b.status = .cancelled ∧ b.pointsRedeemed = 5000) ∧
      PointsReturned s.db := by
  obtain ⟨s, run, h⟩ := @Run.of_execAll_test _ _ (Sys.step marketEnv) Sys.LiveDelete _
    [.begin (.createBooking 1 (marketRequest (some 50)) "R1"), .run 0, .run 0,
      .begin (.initiatePayment 101 1 none "B1"), .run 0,
      .begin (.cancelBooking 1 101), .run 0]
    market (fun s => s.db.bookings.rows.any
      (fun b => b.status = .cancelled ∧ b.pointsRedeemed = 5000)) (by decide +kernel)
  exact ⟨s, run, h, points_returned market_initial run⟩

/-- The vendor cancels while the customer does: the customer's hard delete
returns the points a second time. -/
theorem points_returned_twice : Initial market ∧
    ∃ s, Run (Sys.step marketEnv) (fun _ _ => True) market s ∧
      s.db.redeemedPoints 1 101 = 5000 ∧ s.db.returnedPoints 1 101 = 10000 ∧
      ¬ PointsReturned s.db := by
  refine ⟨market_initial, ?_⟩
  obtain ⟨s, run, h⟩ := @Run.of_execAll_test _ _ (Sys.step marketEnv) (fun _ _ => True) _
    [.begin (.createBooking 1 (marketRequest (some 50)) "R1"), .run 0,
      .begin (.cancelBooking 1 101), .begin (.vendorUpdateBookingStatus 3 101 .cancelled),
      .run 2, .run 1]
    market (fun s => s.db.redeemedPoints 1 101 = 5000 ∧ s.db.returnedPoints 1 101 = 10000 ∧
      s.db.bookings.find? 101 = none) (by decide +kernel)
  obtain ⟨hred, hret, hgone⟩ := of_decide_eq_true h
  refine ⟨s, run, hred, hret, fun hp => ?_⟩
  have := hp.gone 101 hgone 1
  rw [hred, hret] at this
  cases this

/-! ## Earned points -/

/-- What a dossier earned is only taken back when it is dead, and all of it
is, unless the balance was too small. -/
structure Dossier.Earned (exact : Prop) (d : Dossier) : Prop where
  nonneg : 0 ≤ d.reversed
  atMost : d.reversed ≤ d.earned
  live : ∀ b ∈ d.booking, b.Live → d.reversed = 0
  unawarded : ∀ b ∈ d.booking, b.Live → b.awarded = false → d.earned = 0
  awarded : ∀ b ∈ d.booking, b.Live → b.awarded = true →
    ∀ p ∈ d.payment, p.status ≠ .pending
  gone : d.booking = none → ∀ p ∈ d.payment, d.earned = 0
  dead : exact → (∀ b ∈ d.booking, b.status = .cancelled) → d.reversed = d.earned
  unsystem : ∀ b ∈ d.booking, b.bySystem = false

/-- A customer's cancel and the reaper act on bookings without an award;
for an exact reversal an operator's cancel finds the award in the balance. -/
def awardGuard (exact : Id → Prop) : Guard := fun balance e d =>
  (e ≠ .operator → ∀ b ∈ d.booking, b.awarded = false) ∧
    (e = .operator → exact d.id →
      ∀ b ∈ d.booking, d.earned ≤ balance b.core.customerId)

/-- An award is made once, on a live booking that is paid for. -/
theorem Dossier.Earned.award {exact : Prop} {p : PaymentFile} {b b' : BookingFile}
    {award : Cents} (h : d.Earned exact) (hp : d.payment = some p) (hb : d.booking = some b)
    (live : b.Live) (live' : b'.Live) (bySystem : b'.bySystem = b.bySystem)
    (nonneg : 0 ≤ award) (awarded : (b'.awarded = b.awarded ∧ award = 0) ∨
      (b.awarded = false ∧ b'.awarded = true ∧ p.status = .success)) :
    ({ d with booking := some b', earned := d.earned + award } : Dossier).Earned exact := by
  have hatMost : d.reversed ≤ d.earned + award := by linarith [h.atMost]
  refine ⟨h.nonneg, hatMost, ?_, ?_, ?_, ?_, ?_, ?_⟩
  · rintro _ ⟨⟩ _
    exact h.live b hb live
  · rintro _ ⟨⟩ _ hb'
    rcases awarded with ⟨hsame, rfl⟩ | ⟨_, hnew, _⟩
    · exact (add_zero _).trans (h.unawarded b hb live (hsame.symm.trans hb'))
    · rw [hb'] at hnew
      cases hnew
  · rintro _ ⟨⟩ _ hb' q hq
    rcases awarded with ⟨hsame, _⟩ | ⟨_, _, hpaid⟩
    · exact h.awarded b hb live (hsame.symm.trans hb') q hq
    · obtain rfl := Option.some.inj (hp.symm.trans hq)
      simp [hpaid]
  · rintro ⟨⟩
  · exact fun _ hdead => absurd (hdead b' rfl) live'
  · rintro _ ⟨⟩
    rw [bySystem]
    exact h.unsystem b hb

/-- A live booking without an award has earned nothing. -/
theorem Dossier.Earned.unearned {exact : Prop} {b : BookingFile} (h : d.Earned exact)
    (hb : d.booking = some b) (live : b.Live) (unawarded : b.awarded = false) :
    d.earned = 0 ∧ d.reversed = 0 :=
  ⟨h.unawarded b hb live unawarded, h.live b hb live⟩

/-- A booking that earned nothing may end in any way. -/
theorem Dossier.Earned.close {exact : Prop} {d' : Dossier}
    (h : d.earned = 0 ∧ d.reversed = 0) (he : d'.earned = d.earned)
    (hr : d'.reversed = d.reversed)
    (dead : ∀ b ∈ d'.booking, b.status = .cancelled ∧ b.bySystem = false) :
    d'.Earned exact := by
  have he : d'.earned = 0 := he.trans h.1
  have hr : d'.reversed = 0 := hr.trans h.2
  refine ⟨hr.ge, (hr.trans he.symm).le, fun _ _ _ => hr, fun _ _ _ _ => he, ?_,
    fun _ _ _ => he, fun _ _ => hr.trans he.symm, fun b hb => (dead b hb).2⟩
  exact fun b hb live => absurd (dead b hb).1 live

/-- A payment may be settled in any way. -/
theorem Dossier.Earned.settle {exact : Prop} {p : PaymentFile} {status : PaymentStatus}
    (h : d.Earned exact) (hp : d.payment = some p) (hs : status ≠ .pending) :
    ({ d with payment := some { p with status := status } } : Dossier).Earned exact where
  nonneg := h.nonneg
  atMost := h.atMost
  live := h.live
  unawarded := h.unawarded
  awarded _ _ _ _ := by
    rintro _ ⟨⟩
    exact hs
  gone hb _ _ := h.gone hb p hp
  dead := h.dead
  unsystem := h.unsystem

/-- A booking that counts is live. -/
theorem BookingFile.Booked.live {b : BookingFile} (h : b.Booked) : b.Live := by
  rcases h with h | h <;> simp [BookingFile.Live, h]

/-- **One move keeps what was earned.** -/
theorem Dossier.Earned.step {exact : Id → Prop} (h : d.Earned (exact d.id))
    (m : Move (awardGuard exact) chain u balance d d') :
    d'.Earned (exact d'.id) := by
  cases m with
  | idle => exact h
  | issue id => constructor <;> simp [Dossier.blank]
  | create id p b points statuses depicts unawarded unsystem due =>
      refine ⟨le_rfl, le_rfl, fun _ _ _ => rfl, fun _ _ _ _ => rfl, ?_, fun _ _ _ => rfl,
        fun _ _ => rfl, ?_⟩
      · rintro _ ⟨⟩ _ ha
        rw [unawarded] at ha
        cases ha
      · rintro _ ⟨⟩
        exact unsystem
  | confirm _ p b hp hb pending reserved =>
      have hlive : b.Live := by simp [BookingFile.Live, reserved]
      refine ⟨h.nonneg, h.atMost, ?_, ?_, ?_, ?_, ?_, ?_⟩
      · exact fun _ _ _ => h.live b hb hlive
      · rintro _ ⟨⟩ _ ha
        exact h.unawarded b hb hlive ha
      · rintro _ _ _ _ _ ⟨⟩
        simp
      · rintro ⟨⟩
      · intro _ hdead
        exact absurd (hdead _ rfl) (by simp)
      · rintro _ ⟨⟩
        exact h.unsystem b hb
  | capture _ p hp => exact h.settle hp (by simp)
  | decide _ p status hp queued decided =>
      exact h.settle hp (by rcases decided with rfl | rfl <;> simp)
  | queue _ p hp => exact h.settle hp (by simp)
  | decline _ p b hp hb pending reserved =>
      have hlive : b.Live := by simp [BookingFile.Live, reserved]
      refine .close (d := d) (h.unearned hb hlive ?_) rfl rfl (by rintro _ ⟨⟩)
      by_contra ha
      exact h.awarded b hb hlive (by simpa using ha) p hp pending
  | reap _ p b hp hb reserved guard =>
      have hlive : b.Live := by simp [BookingFile.Live, reserved]
      exact .close (h.unearned hb hlive (guard.1 (by simp) b hb)) rfl rfl (by rintro _ ⟨⟩)
  | refuse _ p b bySystem hp hb pending reserved unsystem guard =>
      have hlive : b.Live := by simp [BookingFile.Live, reserved]
      refine .close (h.unearned hb hlive (guard.1 (by simp) b hb)) rfl rfl ?_
      rintro _ ⟨⟩
      exact ⟨rfl, unsystem⟩
  | refund _ p b status bySystem hp hb captured live refunding unsystem guard =>
      refine .close (h.unearned hb live (guard.1 (by simp) b hb)) rfl rfl ?_
      rintro _ ⟨⟩
      exact ⟨rfl, unsystem⟩
  | purge _ b hb guard =>
      by_cases hlive : b.Live
      · exact .close (h.unearned hb hlive (guard.1 (by simp) b hb)) rfl rfl (by rintro _ ⟨⟩)
      · -- a cancelled booking was settled before
        have hdead : ∀ x ∈ d.booking, x.status = .cancelled := by
          intro x hx
          obtain rfl := Option.some.inj (hb.symm.trans hx)
          exact not_not.mp hlive
        exact ⟨h.nonneg, h.atMost, by rintro _ ⟨⟩, by rintro _ ⟨⟩, by rintro _ ⟨⟩,
          by rintro _ _ ⟨⟩, fun he _ => h.dead he hdead, by rintro _ ⟨⟩⟩
  | recreate _ p b s points hp hb mine captured snapshot core confirmed unawarded unsystem =>
      have hz : d.earned = 0 := h.gone hb p hp
      have hr : d.reversed = 0 := le_antisymm (hz ▸ h.atMost) h.nonneg
      refine ⟨h.nonneg, h.atMost, fun _ _ _ => hr, fun _ _ _ _ => hz, ?_,
        fun _ _ _ => hz, fun _ _ => hr.trans hz.symm, ?_⟩
      · rintro _ ⟨⟩ _ ha
        rw [unawarded] at ha
        cases ha
      · rintro _ ⟨⟩
        exact unsystem
  | unCancel _ p b hp hb mine captured cancelled system =>
      rw [h.unsystem b hb] at system
      cases system
  | operatorCancel _ p b b' status clawback hp hb hlive settled cancelled core unsystem
      nonneg atMost unawarded whole guard =>
      have hpos : 0 ≤ d.earned := h.nonneg.trans h.atMost
      have hzero : d.reversed = 0 := h.live b hb hlive
      rw [max_eq_right hpos] at atMost whole
      refine ⟨by simpa [hzero] using nonneg, by simpa [hzero] using atMost, ?_, ?_, ?_, ?_,
        fun hexact _ => ?_, ?_⟩
      · rintro _ ⟨⟩ h
        exact absurd cancelled h
      · rintro _ ⟨⟩ h
        exact absurd cancelled h
      · rintro _ ⟨⟩ h
        exact absurd cancelled h
      · rintro ⟨⟩
      · change d.reversed + clawback = d.earned
        rw [hzero, zero_add]
        cases ha : b.awarded with
        | false => rw [unawarded ha, h.unawarded b hb hlive ha]
        | true => exact whole ha (guard.2 rfl hexact b hb)
      · rintro _ ⟨⟩
        exact unsystem
  | mark _ p b b' award hp hb live live' paid core bySystem nonneg awarded =>
      exact h.award hp hb live live' bySystem nonneg awarded
  | serve _ p b b' award hp hb booked booked' captured core bySystem nonneg awarded =>
      exact h.award hp hb booked.live booked'.live bySystem nonneg
        (awarded.imp_right fun h => ⟨h.1, h.2, captured⟩)

/-- Points are earned only on a captured payment. -/
theorem Move.earned_paid (m : Move G chain u balance d d') (h : d'.earned ≠ d.earned) :
    ∃ p, d.payment = some p ∧ p.status = .success := by
  cases m <;> grind [Dossier.blank]

/-- The rows that award points for a booking. -/
def Db.earnRows (db : Db) (bookingId : Id) : List LoyaltyLedger :=
  db.loyaltyLedger.filter (fun row => row.bookingId = some bookingId ∧
    row.source = .bookingEarn)

/-- The sum of the earned rows and the reversal rows of a booking. -/
def Db.netEarned (db : Db) (bookingId : Id) : Cents :=
  ((db.loyaltyLedger.filter (fun row => row.bookingId = some bookingId ∧
    (row.source = .bookingEarn ∨ row.source = .cancelReverseAwarded))).map
      LoyaltyLedger.delta).sum

/-- What is left of an award, read from the dossier. -/
theorem Db.netEarned_eq (db : Db) (u k : Id) :
    db.netEarned k = (db.dossier u k).earned - (db.dossier u k).reversed := by
  unfold Db.netEarned Db.dossier Db.entries
  induction db.loyaltyLedger with
  | nil => rfl
  | cons row rows ih =>
      simp only [sumOf, List.map_cons, LoyaltyLedger.entry, List.filter_cons,
        List.sum_cons, List.mem_singleton] at ih ⊢
      by_cases hk : row.bookingId = some k
      · by_cases he : row.source = .bookingEarn
        · simp [hk, he] at ih ⊢
          lia
        · by_cases hr : row.source = .cancelReverseAwarded
          · simp [hk, hr] at ih ⊢
            lia
          · simpa [hk, he, hr] using ih
      · simpa [hk] using ih

/-- The index admits one award for a booking. -/
theorem Indexed.earnRows {db : Db} (h : Indexed db.entries) (k : Id) :
    (db.earnRows k).length ≤ 1 := by
  have hp : (db.earnRows k).Pairwise (fun row row' => row.bookingId = none ∨
      ¬ (row'.bookingId = row.bookingId ∧ row'.source = row.source)) :=
    (List.pairwise_map.mp h).sublist List.filter_sublist
  have hmem : ∀ row ∈ db.earnRows k, row.bookingId = some k ∧ row.source = .bookingEarn :=
    fun row hrow => of_decide_eq_true (List.mem_filter.mp hrow).2
  match hrows : db.earnRows k with
  | [] => simp
  | [_] => simp
  | x :: y :: rest =>
      rw [hrows] at hp hmem
      obtain ⟨hx, hxs⟩ := hmem x (by simp)
      obtain ⟨hy, hys⟩ := hmem y (by simp)
      rcases (List.pairwise_cons.mp hp).1 y (by simp) with hnone | hne
      · rw [hx] at hnone
        cases hnone
      · exact absurd ⟨hy.trans hx.symm, hys.trans hxs.symm⟩ hne

/-- A first award changes what the booking earned. -/
theorem Steps.earned_of_earnRows {db db' : Db} (w : Wired db) (st : Steps G chain db db')
    {k : Id} (hnone : db.earnRows k = []) (hsome : db'.earnRows k ≠ []) (u : Id) :
    (db'.dossier u k).earned ≠ (db.dossier u k).earned := by
  obtain ⟨es, hes, hne⟩ := st.grows.appends
  have hold : ∀ e ∈ db.entries, ¬ (e.bookingId = some k ∧ e.source = .bookingEarn) := by
    intro e he hk
    obtain ⟨row, hrow, rfl⟩ := List.mem_map.mp he
    have : row ∈ db.earnRows k := List.mem_filter.mpr ⟨hrow, decide_eq_true hk⟩
    rw [hnone] at this
    cases this
  have hzero : sumOf db.entries [.bookingEarn] k = 0 :=
    sumOf_eq_zero fun e he hk => hold e he ⟨hk.1, List.mem_singleton.mp hk.2⟩
  have haward : awardOf db'.entries k = sumOf db'.entries [.bookingEarn] k :=
    (st.grows.indexed w.indexed).awardOf_eq k
  change sumOf db'.entries [.bookingEarn] k ≠ sumOf db.entries [.bookingEarn] k
  rw [hzero, ← haward]
  obtain ⟨row, hrow⟩ := List.exists_mem_of_ne_nil _ hsome
  obtain ⟨hmem, hrow⟩ := List.mem_filter.mp hrow
  unfold awardOf
  cases hfind : db'.entries.reverse.find?
      (fun e => e.bookingId = some k ∧ e.source = .bookingEarn) with
  | none =>
      rw [List.find?_eq_none] at hfind
      exact absurd hrow (hfind row.entry
        (List.mem_reverse.mpr (List.mem_map.mpr ⟨row, hmem, rfl⟩)))
  | some e =>
      have he := List.mem_reverse.mp (List.mem_of_find?_eq_some hfind)
      have hk : e.bookingId = some k ∧ e.source = .bookingEarn := by
        simpa using List.find?_some hfind
      rw [hes, List.mem_append] at he
      rcases he with he | he
      · exact absurd hk (hold e he)
      · exact hne e he

/-- The bookings a customer's cancel or the reaper ends, as they were read. -/
def Task.ended : Task → List Booking
  | .cancel r => [r.booking]
  | .reap stale => stale
  | _ => []

/-- The condition on a step: no customer's cancel and no reaping ends a
booking with an award, a status update other than a cancel is sound, and
the cancel of a covered booking finds its award in the balance. -/
structure Sys.AwardKept (covered : Id → Prop) (s : Sys) (a : Action) : Prop where
  unawarded : ∀ t ∈ s.task? a, ∀ b ∈ t.ended, ∀ x ∈ s.db.bookings.find? b.id,
    x.pointsAwarded = false
  sane : s.SaneUpdate a
  covered : ∀ r ∈ (s.task? a).bind Task.update?, r.newStatus = .cancelled →
    covered r.booking.id → ∀ x ∈ s.db.bookings.find? r.booking.id,
      Loyalty.getEarnedPoints s.db r.booking.id ≤ s.db.balanceOf x.customerId

instance (covered : Id → Prop) [DecidablePred covered] (s : Sys) (a : Action) :
    Decidable (s.AwardKept covered a) :=
  decidable_of_iff
    ((∀ t ∈ s.task? a, ∀ b ∈ t.ended, ∀ x ∈ s.db.bookings.find? b.id,
      x.pointsAwarded = false) ∧ s.SaneUpdate a ∧
      ∀ r ∈ (s.task? a).bind Task.update?, r.newStatus = .cancelled →
        covered r.booking.id → ∀ x ∈ s.db.bookings.find? r.booking.id,
          Loyalty.getEarnedPoints s.db r.booking.id ≤ s.db.balanceOf x.customerId)
    ⟨fun h => ⟨h.1, h.2.1, h.2.2⟩, fun h => ⟨h.unawarded, h.sane, h.covered⟩⟩

/-- The condition on the awards, as a guard on moves. -/
theorem Sys.AwardKept.guarded {covered : Id → Prop} {s : Sys} {a : Action}
    (hindexed : Indexed s.db.entries) (h : s.AwardKept covered a) :
    s.Guarded (awardGuard covered) a := by
  intro t ht
  have hsane := h.sane.guarded t ht
  -- an exit by the customer or the reaper finds no award
  have hended : ∀ b ∈ t.ended, ∀ u e, e ≠ .operator →
      awardGuard covered s.db.balanceOf e (s.db.dossier u b.id) := by
    refine fun b hb u e he => ⟨fun _ f hf => ?_, fun ho => absurd ho he⟩
    obtain ⟨x, hx, rfl⟩ := Option.map_eq_some_iff.mp hf
    exact h.unawarded t ht b hb x hx
  cases t with
  | update r =>
      refine ⟨hsane.1, fun hc u => ⟨fun ho => absurd rfl ho, fun _ hcov f hf => ?_⟩⟩
      obtain ⟨x, hx, rfl⟩ := Option.map_eq_some_iff.mp hf
      have := h.covered r (by rw [ht]; rfl) hc hcov x hx
      rwa [getEarnedPoints_eq, hindexed.awardOf_eq] at this
  | cancel r =>
      refine fun u => hended r.booking (List.mem_singleton_self _) u _ ?_
      unfold CancelRead.exit
      split <;> simp
  | reap stale => exact fun b hb u => hended b hb u .reap (by simp)
  | _ => trivial

/-- What a booking earned: at most one award, never taken back beyond it,
and taken back whole when a covered booking is cancelled or gone. -/
structure PointsEarned (covered : Id → Prop) (db : Db) : Prop where
  once : ∀ k, (db.earnRows k).length ≤ 1
  nonneg : ∀ k, 0 ≤ db.netEarned k
  reversed : ∀ k, covered k → (∀ b ∈ db.bookings.find? k, b.status = .cancelled) →
    db.netEarned k = 0

/-- A step that writes the award of a booking finds its payment captured. -/
def AwardsPaid (s s' : Sys) : Prop :=
  ∀ k, s.db.earnRows k = [] → s'.db.earnRows k ≠ [] →
    ∃ q ∈ s.db.payments.rows, q.bookingId = some k ∧ q.status = .success

/-- An award is written for a booking whose payment is captured. -/
theorem Steps.awards_paid {db db' : Db} (w : Wired db) (st : Steps G chain db db') {k : Id}
    (hnone : db.earnRows k = []) (hsome : db'.earnRows k ≠ []) :
    ∃ q ∈ db.payments.rows, q.bookingId = some k ∧ q.status = .success := by
  obtain ⟨p, hp, hpaid⟩ := (st.moves 0 k).earned_paid (st.earned_of_earnRows w hnone hsome 0)
  obtain ⟨q, hq, rfl, own⟩ := w.payment_of_dossier hp
  obtain ⟨hmem, hid⟩ := Table.find?_eq_some.mp hq
  exact ⟨q, hmem, (own.iff q hmem).mp hid, hpaid⟩

/-- **Points are earned for money that was paid and kept.** -/
theorem points_earned {s₀ s : Sys} (covered : Id → Prop) (h : Initial s₀)
    (run : Run (Sys.step env) (Sys.AwardKept covered) s₀ s) :
    PointsEarned covered s.db ∧ ∀ a s', s.AwardKept covered a → s.step env a = some s' →
      AwardsPaid s s' := by
  -- the run is guarded, because the index holds all along
  have hrun : Run (Sys.step env) (Sys.Guarded (awardGuard covered)) s₀ s ∧ Consistent s := by
    induction run with
    | nil => exact ⟨.nil _, h.consistent⟩
    | snoc _ hok hstep ih =>
        have hg := hok.guarded ih.2.wired.indexed
        exact ⟨ih.1.snoc hg hstep, (ih.2.step hg hstep).1⟩
  have hearned := h.run_dossiers hrun.1 (fun _ d => d.Earned (covered d.id))
    (fun u k used => by constructor <;> simp [Dossier.blank])
    fun _ _ _ _ _ _ hd m => hd.step m
  refine ⟨⟨hrun.2.wired.indexed.earnRows, fun k => ?_, fun k hk hdead => ?_⟩,
    fun a s' hok hstep k hnone hsome => ?_⟩
  · rw [s.db.netEarned_eq 0 k]
    exact sub_nonneg.mpr (hearned 0 k).atMost
  · rw [s.db.netEarned_eq 0 k, (hearned 0 k).dead hk ?_, sub_self]
    intro f hf
    obtain ⟨x, hx, rfl⟩ := Option.map_eq_some_iff.mp hf
    exact hdead x hx
  · obtain ⟨_, chain, st⟩ := hrun.2.step (hok.guarded hrun.2.wired.indexed) hstep
    exact st.awards_paid hrun.2.wired hnone hsome

theorem points_earned_reversed :
    ∃ s, Run (Sys.step marketEnv) (Sys.AwardKept (fun _ => True)) market s ∧
      (s.db.bookings.rows.any (fun b => b.status = .cancelled) ∧ s.db.earnRows 101 ≠ []) ∧
      PointsEarned (fun _ => True) s.db := by
  obtain ⟨s, run, h⟩ := @Run.of_execAll_test _ _ (Sys.step marketEnv)
    (Sys.AwardKept (fun _ => True)) _
    (paidRun ++ [.begin (.adminUpdateBookingStatus 1 101 .cancelled), .run 0])
    market (fun s => s.db.bookings.rows.any (fun b => b.status = .cancelled) ∧
      s.db.earnRows 101 ≠ []) (by decide +kernel)
  exact ⟨s, run, of_decide_eq_true h, (points_earned (fun _ => True) market_initial run).1⟩

/-- A vendor completes a booking nobody paid for, and it earns points. -/
theorem points_earned_unpaid : Initial market ∧
    ∃ s a s', Run (Sys.step marketEnv) (fun _ _ => True) market s ∧
      s.step marketEnv a = some s' ∧ ¬ AwardsPaid s s' := by
  refine ⟨market_initial, ?_⟩
  obtain ⟨s, run, h⟩ := @Run.of_execAll_test _ _ (Sys.step marketEnv) (fun _ _ => True) _
    [.begin (.createBooking 1 (marketRequest none) "R1"), .run 0, .tick (2 * 86400000),
      .begin (.vendorUpdateBookingStatus 3 101 .completed)]
    market (fun s => s.db.earnRows 101 = [] ∧
      (∀ q ∈ s.db.payments.rows, q.bookingId = some 101 → q.status ≠ .success) ∧
      ((s.step marketEnv (.run 1)).any (fun s' => s'.db.earnRows 101 ≠ []))) (by decide +kernel)
  obtain ⟨hnone, hunpaid, hstep⟩ := of_decide_eq_true h
  obtain ⟨s', hs', hsome⟩ := (Option.any_eq_true _ _).mp hstep
  refine ⟨s, _, s', run, hs', fun hp => ?_⟩
  obtain ⟨q, hq, hk, hpaid⟩ := hp 101 hnone (of_decide_eq_true hsome)
  exact hunpaid q hq hk hpaid

end Jadwal
