import Jadwal.Payment

/-!
# The file of one booking

An abstract view of the database: all it says about one booking id and one
user, as a **dossier** (the two status columns, the columns that never
change, and the points that moved), and the **moves** the services make on
a dossier.  The moves are the life cycle of a booking as the services
intend it: reserved, confirmed, cancelled, refunded, recovered.

The invariants of the services on statuses and points are invariants of
moves.  The modules after this one show that every transaction of the
services is, on every dossier, one of these moves.
-/

namespace Jadwal

/-! ## Dossiers -/

/-- The columns of a booking that no statement changes after the insert. -/
def Booking.core (b : Booking) : Booking :=
  { b with
    status := .pending
    reservedUntil := none
    pointsAwarded := false
    emailOtpVerifiedAt := none
    cancelledAt := none
    cancelledBy := none
    refundDecisionAt := none
    refundDecisionBy := none
    refundDecisionActor := none
    refundDecisionNote := none }

/-- What a dossier says about the booking row. -/
structure BookingFile where
  status : BookingStatus
  core : Booking
  awarded : Bool
  bySystem : Bool
  deriving DecidableEq

def Booking.file (b : Booking) : BookingFile :=
  ⟨b.status, b.core, b.pointsAwarded, b.cancelledBy = some .system⟩

/-- What a dossier says about the payment row. -/
structure PaymentFile where
  status : PaymentStatus
  id : Id
  snapshot : Option BookingSnapshot
  deriving DecidableEq

def Payment.file (q : Payment) : PaymentFile := ⟨q.status, q.id, q.bookingSnapshot⟩

/-- The file of a booking id, with the points one user redeemed on it and
got back, and what it earned.  `used` says that the id has been given out. -/
structure Dossier where
  id : Id
  used : Bool
  payment : Option PaymentFile
  booking : Option BookingFile
  redeemed : Cents
  returned : Cents
  earned : Cents
  reversed : Cents
  deriving DecidableEq

/-- The dossier of an id that has not been given out. -/
def Dossier.blank (id : Id) : Dossier := ⟨id, false, none, none, 0, 0, 0, 0⟩

/-- The points of a booking that its cancellation returns to the user. -/
def Booking.dueTo (b : Booking) (userId : Id) : Cents :=
  if b.customerId = userId then max 0 b.pointsRedeemed else 0

/-- The booking still stands. -/
def BookingFile.Live (b : BookingFile) : Prop := b.status ≠ .cancelled

def BookingFile.Booked (b : BookingFile) : Prop :=
  b.status = .confirmed ∨ b.status = .completed

/-- The booking names the payment, and the payment's snapshot, when it has
one, is of this booking. -/
def PaymentFile.Depicts (p : PaymentFile) (id : Id) (core : Booking) : Prop :=
  core.paymentId = some p.id ∧
    ∀ s ∈ p.snapshot, (recreatedBooking id p.id s).core = core

/-! ## Moves -/

/-- The ways out of a live booking that a guard may restrict. -/
inductive Exit
  /-- The customer's cancel, with the row kept. -/
  | soft
  /-- The customer's cancel, with the rows deleted. -/
  | hard
  /-- The reaper. -/
  | reap
  /-- The cancel of a vendor or an administrator. -/
  | operator
  deriving DecidableEq

/-- A condition on the exits, on the balances and the dossier before. -/
abbrev Guard := (Id → Cents) → Exit → Dossier → Prop

/-- A move on the dossier of a user, at the given balances, made by a task
that captures late, or recovers, the payment `chain` if any. -/
inductive Move (G : Guard) (chain : Option Id) (userId : Id)
    (balance : Id → Cents) : Dossier → Dossier → Prop
  | idle (d) : Move G chain userId balance d d
  /-- The id has been given out, to a row of another kind. -/
  | issue (id : Id) :
      Move G chain userId balance (.blank id) { Dossier.blank id with used := true }
  /-- Reserved, or confirmed at once when points pay for everything. -/
  | create (id : Id) (p : PaymentFile) (b : BookingFile) (points : Cents)
      (statuses : (p.status = .pending ∧ b.status = .pending) ∨
        (p.status = .success ∧ b.status = .confirmed))
      (depicts : p.Depicts id b.core) (unawarded : b.awarded = false)
      (unsystem : b.bySystem = false) (due : points = b.core.dueTo userId) :
      Move G chain userId balance (.blank id) ⟨id, true, some p, some b, points, 0, 0, 0⟩
  /-- The capture of a reservation. -/
  | confirm (d) (p : PaymentFile) (b : BookingFile) (hp : d.payment = some p)
      (hb : d.booking = some b) (pending : p.status = .pending)
      (reserved : b.status = .pending) :
      Move G chain userId balance d { d with
        payment := some { p with status := .success }
        booking := some { b with status := .confirmed } }
  /-- A capture for a booking that is gone or cancelled. -/
  | capture (d) (p : PaymentFile) (hp : d.payment = some p)
      (mine : chain = some p.id) (unpaid : p.status = .pending ∨ p.status = .failed)
      (dead : ∀ b ∈ d.booking, b.status = .cancelled) :
      Move G chain userId balance d { d with
        payment := some { p with status := .success } }
  /-- The gateway's refusal of a reservation. -/
  | decline (d) (p : PaymentFile) (b : BookingFile) (hp : d.payment = some p)
      (hb : d.booking = some b) (pending : p.status = .pending)
      (reserved : b.status = .pending) :
      Move G chain userId balance d { d with
        payment := some { p with status := .failed }
        booking := none
        returned := d.returned + b.core.dueTo userId }
  /-- The reaper's delete of a reservation. -/
  | reap (d) (p : PaymentFile) (b : BookingFile) (hp : d.payment = some p)
      (hb : d.booking = some b) (reserved : b.status = .pending)
      (guard : G balance .reap d) :
      Move G chain userId balance d { d with
        payment := some { p with
          status := if p.status = .pending then .failed else p.status }
        booking := none
        returned := d.returned + b.core.dueTo userId }
  /-- The customer's cancel of a reservation with a payment in flight. -/
  | refuse (d) (p : PaymentFile) (b : BookingFile) (bySystem : Bool)
      (hp : d.payment = some p) (hb : d.booking = some b)
      (pending : p.status = .pending) (reserved : b.status = .pending)
      (unsystem : bySystem = false) (guard : G balance .soft d) :
      Move G chain userId balance d { d with
        payment := some { p with status := .failed }
        booking := some { b with status := .cancelled, bySystem := bySystem }
        returned := d.returned + b.core.dueTo userId }
  /-- The customer's cancel of a paid booking. -/
  | refund (d) (p : PaymentFile) (b : BookingFile) (status : PaymentStatus)
      (bySystem : Bool) (hp : d.payment = some p) (hb : d.booking = some b)
      (captured : p.status = .success) (live : b.Live)
      (refunding : status = .refundPending ∨ status = .refunded)
      (unsystem : bySystem = false) (guard : G balance .soft d) :
      Move G chain userId balance d { d with
        payment := some { p with status := status }
        booking := some { b with status := .cancelled, bySystem := bySystem }
        returned := d.returned + b.core.dueTo userId }
  /-- The customer's cancel of a booking nobody was asked to pay for. -/
  | purge (d) (b : BookingFile) (hb : d.booking = some b) (guard : G balance .hard d) :
      Move G chain userId balance d { d with
        payment := none
        booking := none
        returned := d.returned + b.core.dueTo userId }
  /-- The decision on a queued refund. -/
  | decide (d) (p : PaymentFile) (status : PaymentStatus) (hp : d.payment = some p)
      (queued : p.status = .refundPending)
      (decided : status = .refunded ∨ status = .rejected) :
      Move G chain userId balance d { d with
        payment := some { p with status := status } }
  /-- A captured payment without a live booking is queued for a refund. -/
  | queue (d) (p : PaymentFile) (hp : d.payment = some p) (mine : chain = some p.id)
      (captured : p.status = .success) (dead : ∀ b ∈ d.booking, b.status = .cancelled) :
      Move G chain userId balance d { d with
        payment := some { p with status := .refundPending } }
  /-- Orphan recovery re-inserts the booking of the snapshot. -/
  | recreate (d) (p : PaymentFile) (b : BookingFile) (s : BookingSnapshot)
      (points : Cents) (hp : d.payment = some p) (hb : d.booking = none)
      (mine : chain = some p.id) (captured : p.status = .success)
      (snapshot : p.snapshot = some s)
      (core : b.core = (recreatedBooking d.id p.id s).core)
      (confirmed : b.status = .confirmed) (unawarded : b.awarded = false)
      (unsystem : b.bySystem = false) (due : points = b.core.dueTo userId)
      (once : 0 < b.core.pointsRedeemed → d.redeemed = 0) :
      Move G chain userId balance d { d with
        booking := some b, redeemed := d.redeemed + points }
  /-- A booking the system cancelled is confirmed again. -/
  | unCancel (d) (p : PaymentFile) (b : BookingFile) (hp : d.payment = some p)
      (hb : d.booking = some b) (mine : chain = some p.id)
      (captured : p.status = .success) (cancelled : b.status = .cancelled)
      (system : b.bySystem = true) :
      Move G chain userId balance d { d with
        booking := some { b with status := .confirmed, bySystem := false } }
  /-- A vendor's or an administrator's cancel; `clawback` is what it took
  back of the award. -/
  | operatorCancel (d) (p : PaymentFile) (b b' : BookingFile) (status : PaymentStatus)
      (clawback : Cents) (hp : d.payment = some p) (hb : d.booking = some b)
      (live : b.Live)
      (settled : (p.status = .success ∧ status = .refunded) ∨
        (p.status = .pending ∧ status = .failed))
      (cancelled : b'.status = .cancelled) (core : b'.core = b.core)
      (unsystem : b'.bySystem = false) (nonneg : 0 ≤ clawback)
      (atMost : clawback ≤ max 0 d.earned)
      (unawarded : b.awarded = false → clawback = 0)
      (whole : b.awarded = true → d.earned ≤ balance b.core.customerId →
        clawback = max 0 d.earned) (guard : G balance .operator d) :
      Move G chain userId balance d { d with
        payment := some { p with status := status }
        booking := some b'
        returned := d.returned + b.core.dueTo userId
        reversed := d.reversed + clawback }
  /-- A status set by a vendor or an administrator, with the award of a
  completion. -/
  | mark (d) (p : PaymentFile) (b b' : BookingFile) (award : Cents)
      (hp : d.payment = some p) (hb : d.booking = some b) (live : b.Live)
      (live' : b'.Live) (paid : b'.Booked → p.status = .success)
      (core : b'.core = b.core) (bySystem : b'.bySystem = b.bySystem)
      (nonneg : 0 ≤ award)
      (awarded : (b'.awarded = b.awarded ∧ award = 0) ∨
        (b.awarded = false ∧ b'.awarded = true ∧ p.status = .success)) :
      Move G chain userId balance d { d with
        booking := some b', earned := d.earned + award }
  /-- The job's completion or award of a confirmed booking. -/
  | serve (d) (p : PaymentFile) (b b' : BookingFile) (award : Cents)
      (hp : d.payment = some p) (hb : d.booking = some b) (booked : b.Booked)
      (booked' : b'.Booked) (captured : p.status = .success)
      (core : b'.core = b.core) (bySystem : b'.bySystem = b.bySystem)
      (nonneg : 0 ≤ award)
      (awarded : (b'.awarded = b.awarded ∧ award = 0) ∨
        (b.awarded = false ∧ b'.awarded = true)) :
      Move G chain userId balance d { d with
        booking := some b', earned := d.earned + award }

variable {G : Guard} {chain : Option Id} {userId : Id}
  {balance : Id → Cents} {d d' : Dossier}

/-- **What no move changes**, once the id has been given out: the id itself, and of a payment
what names it and what it depicts. -/
theorem Move.payment_kept (m : Move G chain userId balance d d') (used : d.used = true) :
    d'.id = d.id ∧ d'.used = true ∧
      ∀ p' ∈ d'.payment, ∃ p ∈ d.payment, p'.id = p.id ∧ p'.snapshot = p.snapshot := by
  cases m with
  | issue | create => cases used
  | idle => exact ⟨rfl, used, fun p hp => ⟨p, hp, rfl, rfl⟩⟩
  | purge =>
      refine ⟨rfl, used, fun p hp => ?_⟩
      cases hp
  | mark _ p | serve _ p | unCancel _ p | recreate _ p =>
      exact ⟨rfl, used, fun p' hp' => ⟨p', hp', rfl, rfl⟩⟩
  | confirm _ p _ hp | capture _ p hp | decline _ p _ hp | reap _ p _ hp | refuse _ p _ _ hp
  | refund _ p _ _ _ hp | decide _ p _ hp | queue _ p hp | operatorCancel _ p _ _ _ _ hp =>
      refine ⟨rfl, used, fun p' hp' => ⟨p, hp, ?_⟩⟩
      obtain rfl := Option.some.inj hp'
      exact ⟨rfl, rfl⟩

/-- A booking keeps its columns, or it is the one of the payment's snapshot. -/
theorem Move.core_kept (m : Move G chain userId balance d d') (used : d.used = true) :
    ∀ b' ∈ d'.booking, (∃ b ∈ d.booking, b'.core = b.core) ∨
      ∃ p ∈ d.payment, ∃ s ∈ p.snapshot, b'.core = (recreatedBooking d.id p.id s).core := by
  intro b' hb'
  cases m with
  | issue | create => cases used
  | decline | reap | purge => cases hb'
  | idle | capture | decide | queue => exact .inl ⟨b', hb', rfl⟩
  | recreate _ p b s points hp hb mine captured snapshot core =>
      obtain rfl := Option.some.inj hb'
      exact .inr ⟨p, hp, s, snapshot, core⟩
  | confirm _ _ b _ hb | refuse _ _ b _ _ hb | refund _ _ b _ _ _ hb | unCancel _ _ b _ hb =>
      obtain rfl := Option.some.inj hb'
      exact .inl ⟨b, hb, rfl⟩
  | operatorCancel _ _ b _ _ _ _ hb _ _ _ core | mark _ _ b _ _ _ hb _ _ _ core
  | serve _ _ b _ _ _ hb _ _ _ core =>
      obtain rfl := Option.some.inj hb'
      exact .inl ⟨b, hb, core⟩

/-! ## The invariant of the life cycle -/

/-- The statuses of a dossier belong together, and its payment is the one
its booking names. -/
structure Dossier.Sound (d : Dossier) : Prop where
  blank : d.used = false → d = .blank d.id
  pending : ∀ p ∈ d.payment, p.status = .pending →
    ∃ b ∈ d.booking, b.status = .pending
  reserved : ∀ b ∈ d.booking, b.status = .pending →
    ∃ p ∈ d.payment, p.status = .pending ∨ p.status = .success
  booked : ∀ b ∈ d.booking, b.Booked → ∃ p ∈ d.payment, p.status = .success
  cancelled : ∀ b ∈ d.booking, b.status = .cancelled →
    ∃ p ∈ d.payment, p.status ≠ .pending
  depicts : ∀ b ∈ d.booking, ∀ p ∈ d.payment, p.Depicts d.id b.core

/-- What a recovery in flight relies on: the money is captured, and no
booking stands for it but a cancelled one of the given kind. -/
def Dossier.ChainOpen (P : BookingFile → Prop) (d : Dossier) : Prop :=
  d.used ∧ (∀ p ∈ d.payment, p.status = .success) ∧
    ∀ b ∈ d.booking, b.status = .cancelled ∧ P b

/-- The snapshot of the payment. -/
def Dossier.Shows (s : BookingSnapshot) (d : Dossier) : Prop :=
  d.used ∧ ∀ p ∈ d.payment, p.snapshot = some s

/-- A captured payment nothing stands for but a cancelled booking. -/
def Dossier.Uncollected (d : Dossier) (p : PaymentFile) : Prop :=
  d.payment = some p ∧ p.status = .success ∧ ∃ b ∈ d.booking, b.status = .cancelled

/-- What a customer's cancel of a paid booking relies on: once captured, a
payment is refunded before its booking is cancelled. -/
def Dossier.Captured (d : Dossier) : Prop :=
  d.used ∧ (∀ p ∈ d.payment, p.status ≠ .pending ∧ p.status ≠ .failed ∧
    (p.status = .success → ∀ b ∈ d.booking, b.Live))

/-- The dossier still is of the booking that was read. -/
def Dossier.Frozen (d : Dossier) (core : Booking) : Prop :=
  d.used ∧ (∀ b ∈ d.booking, b.core = core) ∧ ∀ p ∈ d.payment, p.Depicts d.id core

/-- **Every move keeps the invariant.** -/
theorem Dossier.Sound.step (h : d.Sound) (m : Move G chain userId balance d d') :
    d'.Sound := by
  obtain ⟨blank, pending, reserved, booked, cancelled, depicts⟩ := h
  obtain ⟨id, used, payment, booking, redeemed, returned, earned, reversed⟩ := d
  cases m with
  | recreate _ p b s points hp hb mine captured snapshot core confirmed =>
      have hdepicts : p.Depicts id b.core := by
        refine ⟨by rw [core]; rfl, fun s' hs' => ?_⟩
        obtain rfl : s = s' := Option.some.inj (snapshot.symm.trans hs')
        exact core.symm
      dsimp only at *
      subst hp hb
      constructor <;>
        simp only [Option.mem_def, Option.some.injEq, forall_eq', exists_eq_left',
          reduceCtorEq, Dossier.blank, Dossier.mk.injEq] at * <;>
        grind [BookingFile.Booked]
  | mark _ p b b' award hp hb live live' paid core =>
      dsimp only at *
      subst hp hb
      simp only [Option.mem_def, Option.some.injEq, forall_eq', exists_eq_left'] at *
      -- a live booking has a pending or a captured payment
      have hpaid : p.status = .pending ∨ p.status = .success := by
        cases hs : b.status with
        | pending => exact reserved hs
        | confirmed | completed => exact Or.inr (booked (by simp [BookingFile.Booked, hs]))
        | cancelled => exact absurd hs live
      have hlive : p.status = .pending → b'.status = .pending := by
        intro hq
        cases hs : b'.status with
        | pending => rfl
        | confirmed | completed =>
            have := paid (by simp [BookingFile.Booked, hs])
            rw [hq] at this
            cases this
        | cancelled => exact absurd hs live'
      constructor <;>
        simp only [Option.mem_def, Option.some.injEq, forall_eq', exists_eq_left',
          reduceCtorEq, Dossier.blank, Dossier.mk.injEq] at * <;>
        grind [BookingFile.Live]
  | _ =>
      dsimp only at *
      subst_vars
      constructor <;>
        simp only [Option.mem_def, Option.some.injEq, forall_eq', exists_eq_left',
          reduceCtorEq, Dossier.blank, Dossier.mk.injEq] at * <;>
        grind [BookingFile.Booked, BookingFile.Live, PaymentFile.Depicts]

/-- The booking of a recovery in flight stays dead under the moves of any
other task. -/
theorem Dossier.ChainOpen.step {P : BookingFile → Prop} (h : d.ChainOpen P)
    (m : Move G chain userId balance d d') (other : ∀ p ∈ d.payment, chain ≠ some p.id) :
    d'.ChainOpen P := by
  obtain ⟨used, paid, dead⟩ := h
  cases m with
  | idle => exact ⟨used, paid, dead⟩
  | issue | create => cases used
  | confirm _ p _ hp _ pending | decline _ p _ hp _ pending | refuse _ p _ _ hp _ pending =>
      rw [paid p hp] at pending
      cases pending
  | decide _ p _ hp queued =>
      rw [paid p hp] at queued
      cases queued
  | capture _ p hp mine | queue _ p hp mine | recreate _ p _ _ _ hp _ mine
  | unCancel _ p _ hp _ mine => exact absurd mine (other p hp)
  | reap _ _ b _ hb reserved =>
      rw [(dead b hb).1] at reserved
      cases reserved
  | refund _ _ b _ _ _ hb _ live | operatorCancel _ _ b _ _ _ _ hb live
  | mark _ _ b _ _ _ hb live => exact absurd (dead b hb).1 live
  | serve _ _ b _ _ _ hb booked =>
      rcases booked with hs | hs
      · rw [(dead b hb).1] at hs
        cases hs
      · rw [(dead b hb).1] at hs
        cases hs
  | purge =>
      refine ⟨used, fun p hp => ?_, fun b hb => ?_⟩
      · cases hp
      · cases hb

theorem Dossier.Shows.step {s : BookingSnapshot} (h : d.Shows s)
    (m : Move G chain userId balance d d') : d'.Shows s := by
  obtain ⟨used, shows⟩ := h
  obtain ⟨_, used', kept⟩ := m.payment_kept used
  refine ⟨used', fun p' hp' => ?_⟩
  obtain ⟨p, hp, _, hsnapshot⟩ := kept p' hp'
  rw [hsnapshot, shows p hp]

/-- Only a task of the payment leaves it uncollected. -/
theorem Dossier.Uncollected.before {p : PaymentFile} (m : Move G chain userId balance d d')
    (h : d'.Uncollected p) : d.Uncollected p ∨ chain = some p.id := by
  obtain ⟨hp', success, b', hb', cancelled⟩ := h
  cases m with
  | idle => exact .inl ⟨hp', success, b', hb', cancelled⟩
  | issue => cases hp'
  | decline | reap | purge => cases hb'
  | capture _ p₀ _ mine =>
      obtain rfl := Option.some.inj hp'
      exact .inr mine
  | refuse | queue =>
      obtain rfl := Option.some.inj hp'
      cases success
  | refund _ _ _ _ _ _ _ _ _ refunding =>
      obtain rfl := Option.some.inj hp'
      rcases refunding with rfl | rfl
      · cases success
      · cases success
  | decide _ _ _ _ _ decided =>
      obtain rfl := Option.some.inj hp'
      rcases decided with rfl | rfl
      · cases success
      · cases success
  | operatorCancel _ _ _ _ _ _ _ _ _ settled =>
      obtain rfl := Option.some.inj hp'
      rcases settled with ⟨_, rfl⟩ | ⟨_, rfl⟩
      · cases success
      · cases success
  | create _ _ _ _ statuses =>
      obtain rfl := Option.some.inj hp'
      obtain rfl := Option.some.inj hb'
      rcases statuses with ⟨pending, _⟩ | ⟨_, confirmed⟩
      · rw [pending] at success
        cases success
      · rw [confirmed] at cancelled
        cases cancelled
  | confirm | unCancel =>
      obtain rfl := Option.some.inj hb'
      cases cancelled
  | recreate _ _ _ _ _ _ _ _ _ _ _ confirmed =>
      obtain rfl := Option.some.inj hb'
      rw [confirmed] at cancelled
      cases cancelled
  | mark _ _ _ _ _ _ _ _ live =>
      obtain rfl := Option.some.inj hb'
      exact absurd cancelled live
  | serve _ _ _ _ _ _ _ _ booked =>
      obtain rfl := Option.some.inj hb'
      rcases booked with hs | hs
      · rw [hs] at cancelled
        cases cancelled
      · rw [hs] at cancelled
        cases cancelled

theorem Dossier.Captured.step (h : d.Captured) (m : Move G chain userId balance d d') :
    d'.Captured := by
  obtain ⟨used, paid⟩ := h
  cases m with
  | idle => exact ⟨used, paid⟩
  | issue | create => cases used
  | confirm _ p _ hp _ pending | decline _ p _ hp _ pending | refuse _ p _ _ hp _ pending =>
      exact absurd pending (paid p hp).1
  | capture _ p hp _ unpaid =>
      rcases unpaid with pending | failed
      · exact absurd pending (paid p hp).1
      · exact absurd failed (paid p hp).2.1
  | reap _ p _ hp =>
      refine ⟨used, fun p' hp' => ?_⟩
      obtain rfl := Option.some.inj hp'
      obtain ⟨pending, failed, _⟩ := paid p hp
      simp only [if_neg pending]
      refine ⟨pending, failed, fun _ b hb => ?_⟩
      cases hb
  | purge =>
      refine ⟨used, fun p hp => ?_⟩
      cases hp
  | refund _ _ _ _ _ _ _ _ _ refunding =>
      refine ⟨used, fun p' hp' => ?_⟩
      obtain rfl := Option.some.inj hp'
      rcases refunding with rfl | rfl <;> simp
  | decide _ _ _ _ _ decided =>
      refine ⟨used, fun p' hp' => ?_⟩
      obtain rfl := Option.some.inj hp'
      rcases decided with rfl | rfl <;> simp
  | queue =>
      refine ⟨used, fun p' hp' => ?_⟩
      obtain rfl := Option.some.inj hp'
      simp
  | operatorCancel _ p _ _ _ _ hp _ _ settled =>
      refine ⟨used, fun p' hp' => ?_⟩
      obtain rfl := Option.some.inj hp'
      rcases settled with ⟨_, rfl⟩ | ⟨pending, _⟩
      · simp
      · exact absurd pending (paid p hp).1
  | recreate _ p _ _ _ hp _ _ _ _ _ confirmed =>
      refine ⟨used, fun p' hp' => ⟨(paid p' hp').1, (paid p' hp').2.1, fun _ b hb => ?_⟩⟩
      obtain rfl := Option.some.inj hb
      rw [BookingFile.Live, confirmed]
      decide
  | unCancel =>
      refine ⟨used, fun p' hp' => ⟨(paid p' hp').1, (paid p' hp').2.1, fun _ b hb => ?_⟩⟩
      obtain rfl := Option.some.inj hb
      simp [BookingFile.Live]
  | mark _ _ _ _ _ _ _ _ live =>
      refine ⟨used, fun p' hp' => ⟨(paid p' hp').1, (paid p' hp').2.1, fun _ b hb => ?_⟩⟩
      obtain rfl := Option.some.inj hb
      exact live
  | serve _ _ _ _ _ _ _ _ booked =>
      refine ⟨used, fun p' hp' => ⟨(paid p' hp').1, (paid p' hp').2.1, fun _ b hb => ?_⟩⟩
      obtain rfl := Option.some.inj hb
      rcases booked with hs | hs <;> simp [BookingFile.Live, hs]

/-- A row that was read and the row it is now differ in the columns that
change, even when the row was deleted and inserted again. -/
theorem Dossier.Frozen.step {core : Booking} (h : d.Frozen core)
    (m : Move G chain userId balance d d') : d'.Frozen core := by
  obtain ⟨used, frozen, depicts⟩ := h
  obtain ⟨hid, used', kept⟩ := m.payment_kept used
  refine ⟨used', fun b' hb' => ?_, fun p' hp' => ?_⟩
  · rcases m.core_kept used b' hb' with ⟨b, hb, hcore⟩ | ⟨p, hp, s, hs, hcore⟩
    · rw [hcore, frozen b hb]
    · rw [hcore, (depicts p hp).2 s hs]
  · obtain ⟨p, hp, hpid, hsnapshot⟩ := kept p' hp'
    rw [PaymentFile.Depicts, hid, hpid, hsnapshot]
    exact depicts p hp

end Jadwal
