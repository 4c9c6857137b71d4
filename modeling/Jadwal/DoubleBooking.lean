import Jadwal.Capacity

/-!
# A slot once per customer

A creation reads that its customer has no booking for the slot before it takes the lock, and
its transaction does not read it again; so the lock orders two creations that both read
nothing, and both insert.  A reservation that lapsed and is confirmed or extended late, and a
booking that a recovery brings back, look at no other booking of the customer either.
`visit_once` says that these are all: in a run in which nothing for the slot comes to stand
between the check of a creation and its commit, and nothing is brought back onto a taken slot,
no customer gets one slot twice.  A second booking for one idempotency key is refused by its
unique index in every run (`keys_unique`).
-/

namespace Jadwal

open Outcome

variable {env : Env} {now : Instant} {db db' : Db}

/-! ## Visits -/

/-- Whose booking it is, of which activity, from when to when. -/
abbrev Visit := Id × Id × Instant × Instant

def Booking.visit (b : Booking) : Visit :=
  (b.customerId, b.activityId, b.startDatetime, b.endDatetime)

def PreparedBooking.visit (p : PreparedBooking) : Visit :=
  (p.userId, p.dto.activityId, p.startDatetime, p.endDatetime)

def BookingSnapshot.visit (s : BookingSnapshot) : Visit :=
  (s.customerId, s.activityId, s.startDatetime, s.endDatetime)

/-- A reservation whose time is over. -/
def Booking.Lapsed (now : Instant) (b : Booking) : Prop :=
  b.status = .pending ∧ ∃ reservedUntil ∈ b.reservedUntil, reservedUntil < now

/-- Not cancelled, and no expired hold. -/
def Booking.Stands (now : Instant) (b : Booking) : Prop :=
  b.status ≠ .cancelled ∧ ¬ b.Lapsed now

instance (now : Instant) (b : Booking) : Decidable (b.Lapsed now) :=
  inferInstanceAs (Decidable (_ ∧ _))

instance Booking.decidableStands (now : Instant) (b : Booking) : Decidable (b.Stands now) :=
  inferInstanceAs (Decidable (_ ∧ ¬ _))

/-- A booking of the customer stands for the visit. -/
def Db.Taken (db : Db) (now : Instant) (v : Visit) : Prop :=
  ∃ b ∈ db.bookings.rows, b.Stands now ∧ b.visit = v

instance (db : Db) (now : Instant) (v : Visit) : Decidable (db.Taken now v) :=
  inferInstanceAs (Decidable (∃ b ∈ db.bookings.rows, _))

/-- No customer has two standing bookings for one slot. -/
def Db.VisitOnce (db : Db) (now : Instant) : Prop :=
  ∀ b ∈ db.bookings.rows, ∀ b' ∈ db.bookings.rows, b.Stands now → b'.Stands now →
    b.visit = b'.visit → b = b'

/-- The unique column of the idempotency keys. -/
def Db.KeysUnique (db : Db) : Prop :=
  ∀ b ∈ db.bookings.rows, ∀ b' ∈ db.bookings.rows, b.idempotencyKey ≠ none →
    b.idempotencyKey = b'.idempotencyKey → b = b'

/-- No booking carries the key. -/
def KeyFree (bs : Table Booking) (key : Option String) : Prop :=
  key = none ∨ ∀ b ∈ bs.rows, b.idempotencyKey ≠ key

instance (bs : Table Booking) (key : Option String) : Decidable (KeyFree bs key) :=
  inferInstanceAs (Decidable (_ ∨ ∀ b ∈ bs.rows, _))

/-- Time takes bookings down only. -/
theorem Booking.Stands.of_le {now' : Instant} (hle : now ≤ now') {b : Booking}
    (h : b.Stands now') : b.Stands now := by
  refine ⟨h.1, fun ⟨pending, reservedUntil, hr, hlt⟩ => h.2 ⟨pending, reservedUntil, hr, ?_⟩⟩
  exact hlt.trans_le hle

/-! ## What a transaction does to the visits -/

/-- A row after a transaction that wakes a visit at most: one there was, which stands only if
it stood or is the row that is woken, or a new one whose key was free. -/
inductive Booking.From (now : Instant) (bs : Table Booking) (k : Id) (woken : Option Visit)
    (b' : Booking) : Prop
  | kept (b : Booking) (mem : b ∈ bs.rows) (core : b'.core = b.core)
      (stood : b'.Stands now → b.Stands now ∨ (b'.id = k ∧ woken = some b'.visit))
  | inserted (mine : b'.id = k) (wakes : woken = some b'.visit)
      (key : KeyFree bs b'.idempotencyKey)

/-- A transaction wakes one visit at most. -/
def Woken (now : Instant) (bs bs' : Table Booking) (woken : Option Visit) : Prop :=
  ∃ k, ∀ b' ∈ bs'.rows, b'.From now bs k woken

theorem Woken.refl (now : Instant) (bs : Table Booking) (woken : Option Visit) :
    Woken now bs bs woken :=
  ⟨0, fun b hb => .kept b hb rfl .inl⟩

theorem Woken.of_eq {bs bs' : Table Booking} {woken : Option Visit} (h : bs' = bs) :
    Woken now bs bs' woken :=
  h ▸ .refl now bs woken

/-- A deletion wakes nothing. -/
theorem Woken.deleteMany {bs : Table Booking} {p : Booking → Bool} {woken : Option Visit} :
    Woken now bs (bs.deleteMany p) woken :=
  ⟨0, fun b hb => .kept b (Table.mem_deleteMany.mp hb).1 rfl .inl⟩

/-- An update of one booking: it stands only if it stood, or its visit is woken. -/
theorem Woken.update {bs : Table Booking} {k : Id} {f : Booking → Booking}
    {hf : ∀ b, Keyed.key (f b) = Keyed.key b} {woken : Option Visit}
    (core : ∀ b, (f b).core = b.core)
    (h : ∀ b, bs.find? k = some b → (f b).Stands now → b.Stands now ∨ woken = some b.visit) :
    Woken now bs (bs.update k f hf) woken := by
  refine ⟨k, fun b' hb' => ?_⟩
  obtain ⟨b, hb, rfl⟩ := Table.mem_update.mp hb'
  by_cases hk : Keyed.key b = k
  · rw [if_pos hk]
    refine .kept b hb (core b) fun hstands => ?_
    rcases h b (Table.find?_eq_some.mpr ⟨hb, hk⟩) hstands with hold | hwoken
    · exact .inl hold
    · have hvisit := congrArg Booking.visit (core b)
      have hvisit : (f b).visit = b.visit := hvisit
      exact .inr ⟨(hf b).trans hk, hvisit ▸ hwoken⟩
  · rw [if_neg hk]
    exact .kept b hb rfl .inl

/-- An insertion wakes the visit of its booking. -/
theorem Woken.insert {bs bs' : Table Booking} {b : Booking} (key : KeyFree bs b.idempotencyKey)
    (h : bs'.rows = bs.rows ++ [b]) : Woken now bs bs' (some b.visit) := by
  refine ⟨b.id, fun b' hb' => ?_⟩
  rw [h, List.mem_append, List.mem_singleton] at hb'
  rcases hb' with hb' | rfl
  · exact .kept b' hb' rfl .inl
  · exact .inserted rfl rfl key

/-- The columns of a visit are among those no statement changes. -/
theorem Booking.core_columns {b b' : Booking} (h : b'.core = b.core) :
    b'.id = b.id ∧ b'.visit = b.visit ∧ b'.idempotencyKey = b.idempotencyKey := by
  have hid := congrArg Booking.id h
  have hvisit := congrArg Booking.visit h
  have hkey := congrArg Booking.idempotencyKey h
  exact ⟨hid, hvisit, hkey⟩

/-- **A transaction that wakes no taken visit** keeps every visit once. -/
theorem Db.VisitOnce.woken {woken : Option Visit} (h : db.VisitOnce now)
    (w : Woken now db.bookings db'.bookings woken) (vacant : ∀ v ∈ woken, ¬ db.Taken now v) :
    db'.VisitOnce now := by
  obtain ⟨k, hrows⟩ := w
  -- every standing row is an old one that stood, or the woken row
  have hcases : ∀ b' ∈ db'.bookings.rows, b'.Stands now →
      (∃ b ∈ db.bookings.rows, b.Stands now ∧ b.id = b'.id ∧ b.visit = b'.visit) ∨
        (b'.id = k ∧ ¬ db.Taken now b'.visit) := by
    intro b' hb' hstands
    cases hrows b' hb' with
    | kept b hb core stood =>
        obtain ⟨hid, hvisit, _⟩ := Booking.core_columns core
        rcases stood hstands with hold | ⟨mine, hwoken⟩
        · exact .inl ⟨b, hb, hold, hid.symm, hvisit.symm⟩
        · exact .inr ⟨mine, vacant _ hwoken⟩
    | inserted mine wakes key => exact .inr ⟨mine, vacant _ wakes⟩
  intro b hb b' hb' hstands hstands' hvisit
  refine Table.key_inj hb hb' ?_
  rcases hcases b hb hstands with ⟨x, hx, hold, hid, hxv⟩ | ⟨mine, hfree⟩
  · rcases hcases b' hb' hstands' with ⟨x', hx', hold', hid', hxv'⟩ | ⟨_, hfree'⟩
    · have hsame : x = x' := h x hx x' hx' hold hold' (by rw [hxv, hxv', hvisit])
      exact hid.symm.trans ((congrArg Booking.id hsame).trans hid')
    · exact absurd ⟨x, hx, hold, hxv.trans hvisit⟩ hfree'
  · rcases hcases b' hb' hstands' with ⟨x', hx', hold', _, hxv'⟩ | ⟨mine', _⟩
    · exact absurd ⟨x', hx', hold', hxv'.trans hvisit.symm⟩ hfree
    · exact mine.trans mine'.symm

/-- A visit that is not woken is taken only if it was. -/
theorem Db.Taken.of_woken {woken : Option Visit} {v : Visit} (h : db'.Taken now v)
    (w : Woken now db.bookings db'.bookings woken) (other : woken ≠ some v) :
    db.Taken now v := by
  obtain ⟨b', hb', hstands, rfl⟩ := h
  obtain ⟨k, hrows⟩ := w
  cases hrows b' hb' with
  | kept b hb core stood =>
      rcases stood hstands with hold | ⟨_, hwoken⟩
      · exact ⟨b, hb, hold, (Booking.core_columns core).2.1.symm⟩
      · exact absurd hwoken other
  | inserted mine wakes key => exact absurd wakes other

/-- A visit taken later was taken before, as holds only lapse. -/
theorem Db.Taken.of_le {now' : Instant} (hle : now ≤ now') {v : Visit} (h : db.Taken now' v) :
    db.Taken now v := by
  obtain ⟨b, hb, hstands, hvisit⟩ := h
  exact ⟨b, hb, hstands.of_le hle, hvisit⟩

/-- A transaction inserts no key that is taken. -/
theorem Db.KeysUnique.woken {woken : Option Visit} (h : db.KeysUnique)
    (w : Woken now db.bookings db'.bookings woken) : db'.KeysUnique := by
  obtain ⟨k, hrows⟩ := w
  have hcases : ∀ b' ∈ db'.bookings.rows,
      (∃ b ∈ db.bookings.rows, b.id = b'.id ∧ b.idempotencyKey = b'.idempotencyKey) ∨
        (b'.id = k ∧ KeyFree db.bookings b'.idempotencyKey) := by
    intro b' hb'
    cases hrows b' hb' with
    | kept b hb core stood =>
        obtain ⟨hid, _, hkey⟩ := Booking.core_columns core
        exact .inl ⟨b, hb, hid.symm, hkey.symm⟩
    | inserted mine wakes key => exact .inr ⟨mine, key⟩
  intro b hb b' hb' hsome hkey
  refine Table.key_inj hb hb' ?_
  rcases hcases b hb with ⟨x, hx, hid, hxk⟩ | ⟨mine, hfree⟩
  · rcases hcases b' hb' with ⟨x', hx', hid', hxk'⟩ | ⟨_, hfree'⟩
    · have hsame : x = x' := h x hx x' hx' (hxk ▸ hsome) (by rw [hxk, hxk', hkey])
      exact hid.symm.trans ((congrArg Booking.id hsame).trans hid')
    · rcases hfree' with hnone | hfree'
      · exact absurd (hkey.trans hnone) hsome
      · exact absurd (hxk.trans hkey) (hfree' x hx)
  · rcases hcases b' hb' with ⟨x', hx', _, hxk'⟩ | ⟨mine', _⟩
    · rcases hfree with hnone | hfree
      · exact absurd hnone hsome
      · exact absurd (hxk'.trans hkey.symm) (hfree x' hx')
    · exact mine.trans mine'.symm

/-! ## The tasks of the system -/

/-- Several rows at once, none of which is woken. -/
theorem Woken.updateMany {bs : Table Booking} {p : Booking → Bool} {f : Booking → Booking}
    {hf : ∀ b, Keyed.key (f b) = Keyed.key b} {woken : Option Visit}
    (h : ∀ b, p b = true → (f b).core = b.core ∧ b.Stands now) :
    Woken now bs (bs.updateMany p f hf) woken := by
  refine ⟨0, fun b' hb' => ?_⟩
  obtain ⟨b, hb, rfl⟩ := Table.mem_updateMany.mp hb'
  by_cases hp : p b = true
  · rw [if_pos hp]
    exact .kept b hb (h b hp).1 fun _ => .inl (h b hp).2
  · rw [if_neg hp]
    exact .kept b hb rfl .inl

/-- A row that is cancelled does not stand. -/
theorem Woken.cancel {bs : Table Booking} {k : Id} {f : Booking → Booking}
    {hf : ∀ b, Keyed.key (f b) = Keyed.key b} {woken : Option Visit}
    (h : ∀ b, (f b).core = b.core ∧ (f b).status = .cancelled) :
    Woken now bs (bs.update k f hf) woken :=
  .update (fun b => (h b).1) fun b _ hstands => absurd (h b).2 hstands.1

/-- The row of a booking a task confirms, extends or sets the status of. -/
def Task.sets (db : Db) : Task → Option Booking
  | .hold bookingId => (bookingId.bind db.bookings.find?).filter (fun b => b.status = .pending)
  | .settle payment _ true =>
      if ∃ q ∈ db.payments.find? payment.id, q.status = .pending ∨ q.status = .failed then
        (payment.bookingId.bind db.bookings.find?).filter (fun b => b.status = .pending)
      else none
  | .unCancel _ b => (db.bookings.find? b.id).filter
      (fun b => b.status = .cancelled ∧ b.cancelledBy = some .system)
  | .update r => if r.newStatus = .cancelled then none else db.bookings.find? r.booking.id
  | _ => none

/-- The visit of the booking a task inserts, or makes stand again. -/
def Task.wakes (now : Instant) (db : Db) : Task → Option Visit
  | .create p _ => some p.visit
  | .recreate _ _ _ s =>
      if KeyFree db.bookings s.idempotencyKey ∧ recoverySlotAvailable db now
          ⟨s.activityId, s.unitNumber, s.startDatetime, s.endDatetime, s.guests, none⟩ then
        some s.visit
      else none
  | t => ((t.sets db).filter (fun b => ¬ b.Stands now)).map Booking.visit

/-- A row stands, or the task that sets it wakes its visit. -/
theorem stands_or_wakes {b : Booking} {row : Option Booking} (h : row = some b) :
    b.Stands now ∨ (row.filter (fun b => ¬ b.Stands now)).map Booking.visit = some b.visit := by
  by_cases hstands : b.Stands now
  · exact .inl hstands
  · refine .inr ?_
    rw [h]
    simp [Option.filter, hstands]

/-- What is neither cancelled nor standing is a reservation that lapsed. -/
theorem Booking.pending_of_down {b : Booking} (live : b.status ≠ .cancelled)
    (h : ¬ b.Stands now) : b.status = .pending := by
  by_contra hne
  exact h ⟨live, fun hlapsed => hne hlapsed.1⟩

/-- A committed creation found its idempotency key free. -/
theorem createBookingTx_key {txNow : Instant} {p : PreparedBooking} {ref : String} {b : Booking}
    (h : createBookingTx env txNow db p ref = .ok (db', b)) :
    KeyFree db.bookings p.dto.idempotencyKey := by
  simp only [createBookingTx, bind_eq_ok, pure_eq_ok] at h
  obtain ⟨_, _, _, _, ⟨dbq, q⟩, hq, _, hs, _⟩ := h
  have hc : SameCore db dbq := quote_frame hq
  simp only [storeBooking, insertPayment, bind_eq_ok, orThrow_eq_ok, pure_eq_ok] at hs
  obtain ⟨_, ⟨_, _, rfl⟩, _, hb, _⟩ := hs
  have hkey := (insertBooking_ok hb).2.1
  rw [← hc.bookings]
  exact hkey

/-- A creation wakes its visit. -/
theorem createBookingTx_woken {txNow : Instant} {p : PreparedBooking} {ref : String} {b : Booking}
    (h : createBookingTx env txNow db p ref = .ok (db', b)) :
    Woken now db.bookings db'.bookings (some p.visit) := by
  have hkey : KeyFree db.bookings p.dto.idempotencyKey := createBookingTx_key h
  obtain ⟨unitNumber, q, created⟩ := createBookingTx_created h
  have hvisit : b.visit = p.visit := by
    rw [created.booking]
    rfl
  have hbkey : b.idempotencyKey = p.dto.idempotencyKey := by
    rw [created.booking]
    rfl
  rw [← hvisit]
  exact .insert (hbkey ▸ hkey) created.stored.bookings

/-- A callback wakes the visit of the booking it confirms, at most. -/
theorem settleTx_woken {payment : Payment} {params : CallbackParams} {isSuccess : Bool}
    {s : Settled} (h : settleTx now db payment params isSuccess = .ok s) :
    Woken now db.bookings s.db.bookings
      ((Task.settle payment params isSuccess).wakes now db) := by
  cases isSuccess with
  | false =>
      have h : settleFailure now db payment = .ok s := h
      rcases settleFailure_ok h with ⟨hdb, _⟩ | ⟨_, _, _, _, _, ⟨_, e⟩ | ⟨_, _, _, _, e⟩⟩
      · exact .of_eq (congrArg Db.bookings hdb)
      · exact .of_eq e.bookings
      · exact e.bookings ▸ .deleteMany
  | true =>
      have h : settleSuccess now db payment params = .ok s := h
      rcases settleSuccess_ok h with ⟨hdb, _⟩ | ⟨⟨q, hq, unpaid⟩, k, _, _, hk, _, hcase⟩
      · exact .of_eq (congrArg Db.bookings hdb)
      obtain ⟨_, _, e⟩ | ⟨_, _, _, _, e⟩ | ⟨b, fb, _, hb, live, _, hfb, _, e⟩ := hcase
      · exact .of_eq e.bookings
      · exact .of_eq e.bookings
      rw [e.bookings]
      refine .update (fun x => congrArg BookingFile.core (hfb x)) fun x hx _ => ?_
      obtain rfl := Option.some.inj (hb.symm.trans hx)
      by_cases hstands : b.Stands now
      · exact .inl hstands
      have hset : (Task.settle payment params true).sets db = some b := by
        have hpending := Booking.pending_of_down live hstands
        have hopen : ∃ q ∈ db.payments.find? payment.id,
            q.status = .pending ∨ q.status = .failed := ⟨q, hq, unpaid⟩
        rw [Task.sets, if_pos hopen, hk]
        simp [Option.filter, hb, hpending]
      exact (stands_or_wakes hset)

/-- A recreation wakes the visit it brings back. -/
theorem b2Recreate_woken {pid : Id} {amount : Cents} {bookingId : Option Id}
    {s : BookingSnapshot} {kind : RecoveryKind}
    (h : b2Recreate now db pid bookingId s = .ok (db', kind)) :
    Woken now db.bookings db'.bookings ((Task.recreate pid amount bookingId s).wakes now db) := by
  rcases b2Recreate_ok h with ⟨_, rfl⟩ | ⟨_, ⟨_, _, _, _, e⟩ | ⟨_, hrec, _⟩⟩
  · exact .refl _ _ _
  · exact .of_eq e.bookings
  · have hkey : KeyFree db.bookings s.idempotencyKey := hrec.keyFree
    rw [Task.wakes, if_pos ⟨hkey, hrec.slotFree⟩]
    exact .insert hkey (Table.insert?_eq_some.mp hrec.inserted).2

/-- So does an un-cancel. -/
theorem m6UnCancel_woken {pid : Id} {b : Booking} {kind : RecoveryKind}
    (h : m6UnCancel now db b = .ok (db', kind)) :
    Woken now db.bookings db'.bookings ((Task.unCancel pid b).wakes now db) := by
  rcases m6UnCancel_ok h with ⟨_, rfl, _⟩ | ⟨_, ⟨x, hx, hdead⟩, fb, _, e, hfb, _⟩
  · exact .refl _ _ _
  · rw [e.bookings]
    refine .update (fun b => congrArg BookingFile.core (hfb b)) fun y hy _ => ?_
    obtain rfl := Option.some.inj (hx.symm.trans hy)
    refine stands_or_wakes ?_
    rw [Task.sets, hx]
    simp [Option.filter, hdead]

/-- So does the hold of a lapsed reservation. -/
theorem holdNapsSuccess_woken (bookingId : Option Id) :
    Woken now db.bookings (holdNapsSuccess now db bookingId).bookings
      ((Task.hold bookingId).wakes now db) := by
  cases bookingId with
  | none => exact .of_eq holdNapsSuccess_none
  | some k =>
      rw [holdNapsSuccess_some]
      refine .update (fun b => ?_) fun b hb hstands => ?_
      · unfold Booking.heldOn
        split <;> rfl
      · by_cases hpending : b.status = .pending
        · refine stands_or_wakes ?_
          simp [Task.sets, Option.filter, hb, hpending]
        · refine .inl ?_
          rwa [Booking.heldOn, if_neg (fun hc => hpending hc.1)] at hstands

/-- A cancellation wakes nothing. -/
theorem cancelCommit_woken {r : CancelRead} {woken : Option Visit}
    (h : cancelCommit now db r = .ok db') : Woken now db.bookings db'.bookings woken := by
  have soft : ∀ {pid expected status source},
      SoftCancelled db db' r pid expected status source →
        Woken now db.bookings db'.bookings woken := by
    intro _ _ _ _ hsoft
    obtain ⟨fb, _, _, _, e, hfb, _⟩ := hsoft.effect
    rw [e.bookings]
    exact .cancel fun b => ⟨congrArg BookingFile.core (hfb b), congrArg BookingFile.status (hfb b)⟩
  unfold cancelCommit at h
  split at h
  · exact soft (cancelPointsOnly_ok h)
  · exact soft (cancelPaid_ok h)
  · exact soft (cancelInFlight_ok h)
  · rw [(cancelHardDelete_ok h).2.bookings]
    exact .deleteMany

/-- Nor does an operator who cancels. -/
theorem operatorCancel_woken {op : Operator} {bookingId : Id} {woken : Option Visit}
    (h : operatorCancel now db op bookingId = .ok db') :
    Woken now db.bookings db'.bookings woken := by
  obtain ⟨found, hfound, ⟨_, rfl⟩ | ⟨live, hpaid⟩⟩ := operatorCancel_ok h
  · exact .refl _ _ _
  cases hq : found.paymentId.bind (fun id => db.payments.find? id) with
  | some q =>
      obtain ⟨fb, _, _, _, _, e, hfb, _⟩ := (hpaid q hq).effect
      rw [e.bookings]
      exact .cancel fun b => ⟨(hfb b).1, (hfb b).2.1⟩
  | none =>
      simp only [operatorCancel, bind_eq_ok, orThrow_eq_ok, ensure_eq_ok] at h
      obtain ⟨x, hx, _, _, h⟩ := h
      obtain rfl := Option.some.inj (hfound.symm.trans hx)
      rw [if_neg live, hq] at h
      have hrows : db'.bookings = db.bookings.update bookingId (op.claim now) := by
        unfold afterClaim at h
        simp only at h
        split at h
        · obtain rfl := Except.ok.inj h
          exact (refundCouponUsage_frame now _ _ _).bookings
        · obtain rfl := Except.ok.inj h
          rfl
      rw [hrows]
      exact .cancel fun b => ⟨rfl, rfl⟩

/-- A status update wakes the visit of its booking, at most. -/
theorem statusCommit_woken {r : StatusRead} (h : statusCommit now db r = .ok db') :
    Woken now db.bookings db'.bookings ((Task.update r).wakes now db) := by
  by_cases hc : r.newStatus = .cancelled
  · rw [statusCommit, if_pos hc] at h
    exact operatorCancel_woken h
  · have hset : ∀ b, db.bookings.find? r.booking.id = some b → b.Stands now ∨
        (Task.update r).wakes now db = some b.visit := by
      intro b hb
      refine stands_or_wakes ?_
      rw [Task.sets, if_neg hc, hb]
    obtain ⟨_, ⟨fb, _, e, hfb⟩ | ⟨_, _, fb, _, _, e, _, hfb⟩⟩ := statusCommit_mark_ok hc h
    · rw [e.bookings]
      exact .update (fun b => congrArg BookingFile.core (hfb b)) fun b hb _ => hset b hb
    · rw [e.bookings]
      exact .update (fun b => congrArg BookingFile.core (hfb b)) fun b hb _ => hset b hb

/-- A decision wakes nothing. -/
theorem decisionCommit_woken {r : DecisionRead} {woken : Option Visit}
    (h : decisionCommit now db r = .ok db') : Woken now db.bookings db'.bookings woken := by
  simp only [decisionCommit, bind_eq_ok] at h
  obtain ⟨db₁, hflip, db₂, hupd, hret⟩ := h
  obtain ⟨_, e₁⟩ := flipPayment_ok hflip
  obtain ⟨_, e₂, _⟩ := updateBooking_ok hupd
  obtain ⟨es, e₃, _⟩ := (creditRefund_ok hret).1
  rw [e₃.bookings, e₂.bookings, e₁.bookings]
  exact .update (fun _ => rfl) fun b _ hstands => .inl hstands

/-- Nor does an award. -/
theorem awardOne_woken {rate : ℚ} {b : Booking} {woken : Option Visit}
    (h : awardOne db rate b = .ok db') : Woken now db.bookings db'.bookings woken := by
  rcases awardOne_ok h with rfl | ⟨⟨x, hx, hdone, _⟩, fb, _, _, e, _, hfb⟩
  · exact .refl _ _ _
  · rw [e.bookings]
    refine .update (fun b => congrArg BookingFile.core (hfb b)) fun y hy _ => .inl ?_
    obtain rfl := Option.some.inj (hx.symm.trans hy)
    rcases hdone with hs | hs <;> simp [Booking.Stands, Booking.Lapsed, hs]

/-- Nor does the stamp of a code. -/
theorem otpStamp_woken {bookingId : Id} {user : Option Id} {woken : Option Visit}
    (h : otpStamp now db bookingId user = .ok db') :
    Woken now db.bookings db'.bookings woken := by
  simp only [otpStamp, bind_eq_ok, pure_eq_ok] at h
  obtain ⟨db₁, hupd, rfl⟩ := h
  rw [(updateBooking_ok hupd).2.1.bookings]
  exact .update (fun _ => rfl) fun b _ hstands => .inl hstands

/-- A transaction that throws wakes nothing. -/
theorem Woken.committed {tx : Tx Db} {woken : Option Visit}
    (h : ∀ db', tx = .ok db' → Woken now db.bookings db'.bookings woken) :
    Woken now db.bookings (committed db tx).bookings woken := by
  cases tx with
  | error e => exact .refl _ _ _
  | ok db' => exact h db' rfl

/-- **What a task wakes.** -/
theorem Task.run_woken (env : Env) (now : Instant) (db : Db) (t : Task) :
    Woken now db.bookings (t.run env now db).1.bookings (t.wakes now db) := by
  cases t with
  | create p ref =>
      simp only [Task.run]
      split
      · exact .refl _ _ _
      · rename_i htx
        exact createBookingTx_woken htx
  | stampOtp bookingId user => exact .committed fun _ h => otpStamp_woken h
  | initiate r basketId =>
      refine .committed fun db' h => .of_eq ?_
      simp only [initiateWrite, bind_eq_ok, pure_eq_ok] at h
      obtain ⟨_, _, _, _, _, _, rfl⟩ := h
      rfl
  | hold bookingId => exact holdNapsSuccess_woken bookingId
  | settle payment params isSuccess =>
      simp only [Task.run]
      split
      · exact .refl _ _ _
      · rename_i htx
        exact settleTx_woken htx
  | b2Check p | m6Check p k =>
      simp only [Task.run]
      split <;> exact .refl _ _ _
  | recreate p amount bookingId s =>
      simp only [Task.run]
      split
      · exact .refl _ _ _
      · rename_i htx
        exact b2Recreate_woken htx
      · rename_i htx
        exact b2Recreate_woken htx
  | unCancel p b =>
      simp only [Task.run]
      split
      · exact .refl _ _ _
      · rename_i htx
        exact m6UnCancel_woken htx
  | queueRefund p amount => exact .refl _ _ _
  | cancel r => exact .committed fun _ h => cancelCommit_woken h
  | decide r => exact .committed fun _ h => decisionCommit_woken h
  | update r => exact .committed fun _ h => statusCommit_woken h
  | reap stale =>
      obtain ⟨claimed, hreaps, _⟩ := @reapStale_reaps db now stale
      have hrows : ((Task.reap stale).run env now db).1.bookings = _ := hreaps.deleted
      rw [hrows]
      exact .deleteMany
  | awardBatch bookings cutoff =>
      simp only [Task.run]
      split <;> exact .refl _ _ _
  | award pointsPerQar todo cutoff =>
      cases todo with
      | nil => exact .refl _ _ _
      | cons b todo => exact .committed fun _ h => awardOne_woken h
  | complete bookings =>
      refine @Woken.updateMany now _ _ Booking.complete (fun _ => rfl) _ fun b hb => ⟨rfl, ?_⟩
      have hs : b.status = .confirmed := (of_decide_eq_true hb).1
      simp [Booking.Stands, Booking.Lapsed, hs]

/-! ## A creation, one statement at a time -/

/-- The lookup of the idempotency key. -/
def replayed (db : Db) (userId : Id) (dto : CreateBookingDto) : Prop :=
  dto.idempotencyKey ≠ none ∧ (db.bookings.first? (fun b =>
    b.idempotencyKey = dto.idempotencyKey ∧ b.customerId = userId)).isSome

instance (db : Db) (userId : Id) (dto : CreateBookingDto) : Decidable (replayed db userId dto) :=
  inferInstanceAs (Decidable (_ ∧ _))

/-- Loads the activity and validates the request against it. -/
def loadBooking (env : Env) (now : Instant) (db : Db) (userId : Id) (dto : CreateBookingDto) :
    Tx PreparedBooking := do
  ensure dto.checkInDate.isValid (.badRequest "Invalid check-in date")
  ensure (∀ d ∈ dto.checkOutDate, d.isValid) (.badRequest "Invalid check-out date")
  let activity ← orThrow (db.activities.find? dto.activityId)
    (.business "ACTIVITY.NOT_FOUND" "Activity not found")
  let vendor ← orThrow (db.vendors.find? activity.vendorId) (.recordNotFound "Vendor")
  let country ← orThrow (db.countries.find? activity.countryId) (.recordNotFound "Country")
  ensure (activity.status = .active) (.badRequest "Activity is not available for booking")
  ensure (vendor.status = .active) (.badRequest "This vendor is not active")
  let tz := country.defaultTimezone
  ensure ((todayInTimezone env tz now).key ≤ dto.checkInDate.key)
    (.badRequest "Cannot book a past date")
  ensure (dto.checkInDate.key ≤
      ((utcDate now).addMonthsClamped env.bookingMaxAdvanceMonths).key)
    (.badRequest ("Cannot book more than " ++ toString env.bookingMaxAdvanceMonths ++
      " month(s) in advance"))
  ensure (dayAllowed activity dto.checkInDate)
    (.badRequest ("This activity is not available on " ++ dto.checkInDate.weekday ++
      ". Available days: " ++ String.intercalate ", " activity.activeDays))
  ensure (activity.hasUnits ∨ activity.capacity ≠ some 0)
    (.badRequest "This activity has no available capacity")
  let window ← bookingWindow env now activity tz dto
  return {
    userId := userId
    dto := dto
    activity := activity
    vendor := vendor
    country := country
    category := db.categories.find? activity.categoryId
    startDatetime := window.1
    endDatetime := window.2 }

/-- No vendor block on the window. -/
def checkBlocks (db : Db) (p : PreparedBooking) : Tx Unit :=
  let (blockStart, blockEnd) := blockWindow p.activity p.dto (p.startDatetime, p.endDatetime)
  ensure (∀ b ∈ db.activityBlocks.rows, ¬ (b.activityId = p.dto.activityId ∧
      b.deletedAt = none ∧ b.blockStart < blockEnd ∧ b.blockEnd > blockStart))
    (.badRequest "This date/time is not available for booking")

/-- No active booking of the customer for the slot. -/
def checkDuplicate (now : Instant) (db : Db) (p : PreparedBooking) : Tx Unit :=
  ensure (∀ b ∈ db.bookings.rows, ¬ (b.customerId = p.userId ∧
      b.activityId = p.dto.activityId ∧ b.startDatetime = p.startDatetime ∧
      b.endDatetime = p.endDatetime ∧ activeBookingFilter now b))
    (.conflict "You already have a booking for this time slot")

/-- Read in one state, the statements are what runs before the transaction. -/
theorem prepareBooking_eq (userId : Id) (dto : CreateBookingDto) :
    prepareBooking env now db userId dto =
      if replayed db userId dto then pure none
      else do
        let p ← loadBooking env now db userId dto
        checkBlocks db p
        checkDuplicate now db p
        return some p := by
  by_cases h : replayed db userId dto
  · rw [if_pos h]
    exact if_pos h
  · rw [if_neg h]
    refine (if_neg h).trans ?_
    simp only [loadBooking, bind_assoc, pure_bind, checkBlocks, checkDuplicate]

/-- The key of the lock of a slot. -/
abbrev SlotKey := Id × CivilDate × Option ClockTime

def buildSlotKey (dto : CreateBookingDto) : SlotKey :=
  (dto.activityId, dto.checkInDate, dto.slotTime)

structure SlotLock where
  key : SlotKey
  token : Id
  expiresAt : Instant
  deriving DecidableEq

/-- `SET key token PX ttl NX`. -/
def acquire (now : Instant) (ttlMs : Nat) (locks : List SlotLock) (key : SlotKey) (token : Id) :
    Option (List SlotLock) :=
  if ∃ l ∈ locks, l.key = key ∧ now < l.expiresAt then none
  else some (⟨key, token, now + ttlMs⟩ :: locks.filter (fun l => l.key ≠ key))

/-- Deletes the lock if the token is still its own. -/
def release (locks : List SlotLock) (key : SlotKey) (token : Id) : List SlotLock :=
  locks.filter (fun l => ¬ (l.key = key ∧ l.token = token))

/-- What a call of `createBooking` has done.  After its duplicate check it carries how often
its visit had come to stand until then. -/
inductive CreateCall
  | looked (userId : Id) (dto : CreateBookingDto) (ref : String)
  | loaded (p : PreparedBooking) (ref : String)
  | unblocked (p : PreparedBooking) (ref : String)
  | checked (p : PreparedBooking) (ref : String) (seen : Nat)
  | locked (p : PreparedBooking) (ref : String) (token : Id) (txNow : Instant) (seen : Nat)
  | leaving (key : SlotKey) (token : Id)

/-- The system, with its creations statement by statement, and the visits that came to stand
(newest first). -/
structure SlotWorld where
  sys : Sys
  calls : List CreateCall
  locks : List SlotLock
  redisLockTtlMs : Nat
  wakings : List Visit := []

inductive SlotAction
  /-- A step of the system that is no creation. -/
  | system (a : Action)
  /-- A creation looks its idempotency key up. -/
  | submit (userId : Id) (dto : CreateBookingDto) (ref : String)
  /-- The next statement of a creation, which Redis answers, or the database
  commits, or not. -/
  | advance (index : Nat) (token : Id) (answers : Bool)

/-- The transaction of a creation, and the task it leaves. -/
def Sys.create (env : Env) (s : Sys) (txNow : Instant) (p : PreparedBooking) (ref : String) :
    Sys where
  now := s.now
  db := ((Task.create p ref).run env txNow s.db).1
  inflight := s.inflight ++ ((Task.create p ref).run env txNow s.db).2.toList

/-- One statement of a call; a throw ends it. -/
def CreateCall.advance (env : Env) (w : SlotWorld) (token : Id) (answers : Bool) :
    CreateCall → SlotWorld × Option CreateCall
  | .looked userId dto ref =>
      (w, (loadBooking env w.sys.now w.sys.db userId dto).toOption.map (CreateCall.loaded · ref))
  | .loaded p ref =>
      (w, (checkBlocks w.sys.db p).toOption.map (fun _ => CreateCall.unblocked p ref))
  | .unblocked p ref =>
      (w, (checkDuplicate w.sys.now w.sys.db p).toOption.map (fun _ =>
        CreateCall.checked p ref (w.wakings.count p.visit)))
  | .checked p ref seen =>
      if answers then
        match acquire w.sys.now w.redisLockTtlMs w.locks (buildSlotKey p.dto) token with
        | none => (w, none)
        | some locks => ({ w with locks := locks }, some (.locked p ref token w.sys.now seen))
      -- without Redis the lock fails open
      else (w, some (.locked p ref token w.sys.now seen))
  | .locked p ref token txNow _ =>
      (if answers then { w with sys := w.sys.create env txNow p ref } else w,
        some (.leaving (buildSlotKey p.dto) token))
  | .leaving key token =>
      (if answers then { w with locks := release w.locks key token } else w, none)

/-- The action is a creation in one piece. -/
def Action.creates : Action → Bool
  | .begin (.createBooking _ _ _) => true
  | _ => false

/-- The visit a step of the rest of the system makes stand. -/
def SlotWorld.revives (w : SlotWorld) : SlotAction → Option Visit
  | .system a => (w.sys.task? a).bind (fun t => t.wakes w.sys.now w.sys.db)
  | _ => none

/-- The creation a step commits, with what its duplicate check had seen. -/
def SlotWorld.commits (env : Env) (w : SlotWorld) : SlotAction → Option (PreparedBooking × Nat)
  | .advance index _ true =>
      match w.calls[index]? with
      | some (.locked p ref _ txNow seen) =>
          (createBookingTx env txNow w.sys.db p ref).toOption.map (fun _ => (p, seen))
      | _ => none
  | _ => none

/-- The visit a step makes stand. -/
def SlotWorld.wakes (env : Env) (w : SlotWorld) (a : SlotAction) : Option Visit :=
  ((w.commits env a).map (fun c => c.1.visit)).or (w.revives a)

/-- The state after a step, without the record of the visits. -/
def SlotWorld.moves (env : Env) (w : SlotWorld) : SlotAction → Option SlotWorld
  | .system a =>
      if a.creates then none else (w.sys.step env a).map (fun sys => { w with sys := sys })
  | .submit userId dto ref =>
      if replayed w.sys.db userId dto then none
      else some { w with calls := w.calls ++ [.looked userId dto ref] }
  | .advance index token answers => (w.calls[index]?).map (fun c =>
      { (c.advance env w token answers).1 with
        calls := w.calls.eraseIdx index ++ (c.advance env w token answers).2.toList })

def SlotWorld.step (env : Env) (w : SlotWorld) (a : SlotAction) : Option SlotWorld :=
  (w.moves env a).map (fun w' => { w' with wakings := (w.wakes env a).toList ++ w.wakings })

/-- The booking whose duplicate check a step runs. -/
def SlotWorld.checks (w : SlotWorld) : SlotAction → Option PreparedBooking
  | .advance index _ _ =>
      match w.calls[index]? with
      | some (.unblocked p _) => some p
      | _ => none
  | _ => none

/-- The condition on a step.  Between the duplicate check of a creation and its commit nothing
of its visit comes to stand; the check meets no reservation without an end, which it
overlooks; and what a recovery, a late payment or an operator brings back looks at no other
booking of the customer, so that it must find none. -/
structure SlotWorld.ChecksHold (env : Env) (w : SlotWorld) (a : SlotAction) : Prop where
  undisturbed : ∀ c ∈ w.commits env a, w.wakings.count c.1.visit = c.2
  ended : ∀ p ∈ w.checks a, ∀ b ∈ w.sys.db.bookings.rows, b.visit = p.visit →
    b.status = .pending → b.reservedUntil ≠ none
  vacant : ∀ v ∈ w.revives a, ¬ w.sys.db.Taken w.sys.now v

instance (w : SlotWorld) (a : SlotAction) : Decidable (w.ChecksHold env a) :=
  decidable_of_iff
    ((∀ c ∈ w.commits env a, w.wakings.count c.1.visit = c.2) ∧
      (∀ p ∈ w.checks a, ∀ b ∈ w.sys.db.bookings.rows, b.visit = p.visit →
        b.status = .pending → b.reservedUntil ≠ none) ∧
      ∀ v ∈ w.revives a, ¬ w.sys.db.Taken w.sys.now v)
    ⟨fun h => ⟨h.1, h.2.1, h.2.2⟩, fun h => ⟨h.undisturbed, h.ended, h.vacant⟩⟩

/-- **With nothing in between**, the statements before the lock prepare what
`prepareBooking` does. -/
theorem CreateCall.alone_eq_prepareBooking {w : SlotWorld} {userId token : Id}
    {dto : CreateBookingDto} {ref : String} {p : PreparedBooking}
    (new : ¬ replayed w.sys.db userId dto) :
    prepareBooking env w.sys.now w.sys.db userId dto = .ok (some p) ↔
      ((((CreateCall.looked userId dto ref).advance env w token true).2.bind
        (fun c => (c.advance env w token true).2)).bind
        (fun c => (c.advance env w token true).2)) =
        some (.checked p ref (w.wakings.count p.visit)) := by
  rw [prepareBooking_eq, if_neg new]
  simp only [bind_eq_ok, pure_eq_ok, Option.some.injEq]
  constructor
  · intro h
    obtain ⟨p', hload, _, hblocks, _, hduplicate, rfl⟩ := h
    simp [CreateCall.advance, hload, hblocks, hduplicate, Except.toOption]
  · intro h
    obtain ⟨c₂, h, hlast⟩ := Option.bind_eq_some_iff.mp h
    obtain ⟨c₁, hfirst, hsecond⟩ := Option.bind_eq_some_iff.mp h
    obtain ⟨p', hload, rfl⟩ := Option.map_eq_some_iff.mp hfirst
    obtain ⟨_, hblocks, rfl⟩ := Option.map_eq_some_iff.mp hsecond
    obtain ⟨_, hduplicate, hchecked⟩ := Option.map_eq_some_iff.mp hlast
    obtain ⟨rfl, -⟩ := CreateCall.checked.inj hchecked
    exact ⟨p', toOption_eq_some.mp hload, _, toOption_eq_some.mp hblocks, _,
      toOption_eq_some.mp hduplicate, rfl⟩

/-! ## Runs -/

/-- Only a creation that commits touches the database. -/
theorem CreateCall.advance_sys (env : Env) (w : SlotWorld) (index : Nat) (token : Id)
    (answers : Bool) (c : CreateCall) (hc : w.calls[index]? = some c) :
    ((c.advance env w token answers).1.sys.now = w.sys.now ∧
        Woken w.sys.now w.sys.db.bookings (c.advance env w token answers).1.sys.db.bookings
          (w.wakes env (.advance index token answers))) := by
  have hrefl : ∀ {w' : SlotWorld}, w'.sys = w.sys → w'.sys.now = w.sys.now ∧
      Woken w.sys.now w.sys.db.bookings w'.sys.db.bookings
        (w.wakes env (.advance index token answers)) := by
    intro w' hsys
    rw [hsys]
    exact ⟨rfl, .refl _ _ _⟩
  cases c with
  | looked userId dto ref => exact hrefl rfl
  | loaded p ref => exact hrefl rfl
  | unblocked p ref => exact hrefl rfl
  | checked p ref seen =>
      refine hrefl ?_
      simp only [CreateCall.advance]
      split
      · split <;> rfl
      · rfl
  | locked p ref token' txNow seen =>
      cases answers with
      | false => exact hrefl rfl
      | true =>
          refine ⟨rfl, ?_⟩
          have hwakes : w.wakes env (.advance index token true) =
              (createBookingTx env txNow w.sys.db p ref).toOption.map (fun _ => p.visit) := by
            simp [SlotWorld.wakes, SlotWorld.commits, SlotWorld.revives, hc, Function.comp_def]
          rw [hwakes]
          change Woken _ _ ((Task.create p ref).run env txNow w.sys.db).1.bookings _
          simp only [Task.run]
          split
          · exact .refl _ _ _
          · rename_i htx
            rw [htx]
            exact createBookingTx_woken htx
  | leaving key token' => cases answers <;> exact hrefl rfl

/-- **What a step wakes.** -/
theorem SlotWorld.step_woken {w w' : SlotWorld} {a : SlotAction} (h : w.step env a = some w') :
    w.sys.now ≤ w'.sys.now ∧ w'.wakings = (w.wakes env a).toList ++ w.wakings ∧
      Woken w.sys.now w.sys.db.bookings w'.sys.db.bookings (w.wakes env a) := by
  obtain ⟨w', hmoves, rfl⟩ := Option.map_eq_some_iff.mp h
  cases a with
  | system a =>
      simp only [SlotWorld.moves] at hmoves
      split at hmoves
      · cases hmoves
      obtain ⟨sys', hstep, rfl⟩ := Option.map_eq_some_iff.mp hmoves
      rcases Sys.step_cases hstep with
        ⟨elapsed, rfl, rfl⟩ | ⟨request, t, rfl, _, rfl⟩ | ⟨index, t, rfl, ht, rfl⟩
      · exact ⟨by simp, rfl, .refl _ _ _⟩
      · exact ⟨le_rfl, rfl, .refl _ _ _⟩
      · have hwakes : w.wakes env (.system (.run index)) = t.wakes w.sys.now w.sys.db := by
          simp [SlotWorld.wakes, SlotWorld.commits, SlotWorld.revives, Sys.task?, ht]
        rw [hwakes]
        exact ⟨le_rfl, rfl, t.run_woken env w.sys.now w.sys.db⟩
  | submit userId dto ref =>
      simp only [SlotWorld.moves] at hmoves
      split at hmoves
      · cases hmoves
      obtain rfl := Option.some.inj hmoves
      exact ⟨le_rfl, rfl, .refl _ _ _⟩
  | advance index token answers =>
      obtain ⟨c, hc, rfl⟩ := Option.map_eq_some_iff.mp hmoves
      obtain ⟨hnow, hwoken⟩ := c.advance_sys env w index token answers hc
      exact ⟨hnow.ge, rfl, hwoken⟩

/-- The booking a call has checked, and what its check had seen. -/
def CreateCall.seen? : CreateCall → Option (PreparedBooking × Nat)
  | .checked p _ seen => some (p, seen)
  | .locked p _ _ _ seen => some (p, seen)
  | _ => none

/-- A call has checked before its step, or its step is the check, which finds no duplicate. -/
theorem CreateCall.advance_seen {w : SlotWorld} {c c' : CreateCall} {token : Id} {answers : Bool}
    {s : PreparedBooking × Nat} (hnext : (c.advance env w token answers).2 = some c')
    (hs : c'.seen? = some s) :
    c.seen? = some s ∨ ∃ ref, c = .unblocked s.1 ref ∧ s.2 = w.wakings.count s.1.visit ∧
      checkDuplicate w.sys.now w.sys.db s.1 = .ok () := by
  cases c with
  | looked userId dto ref =>
      obtain ⟨_, _, rfl⟩ := Option.map_eq_some_iff.mp hnext
      cases hs
  | loaded p ref =>
      obtain ⟨_, _, rfl⟩ := Option.map_eq_some_iff.mp hnext
      cases hs
  | unblocked p ref =>
      obtain ⟨_, hok, rfl⟩ := Option.map_eq_some_iff.mp hnext
      obtain rfl := Option.some.inj hs
      exact .inr ⟨ref, rfl, rfl, toOption_eq_some.mp hok⟩
  | checked p ref seen =>
      refine .inl ?_
      simp only [CreateCall.advance] at hnext
      split at hnext
      · split at hnext
        · cases hnext
        · obtain rfl := Option.some.inj hnext
          exact hs
      · obtain rfl := Option.some.inj hnext
        exact hs
  | locked p ref token' txNow seen =>
      obtain rfl := Option.some.inj hnext
      cases hs
  | leaving key token' => cases hnext

/-- A call that has checked had done so before, or checks now and finds no duplicate. -/
theorem SlotWorld.step_seen {w w' : SlotWorld} {a : SlotAction} {c : CreateCall}
    {s : PreparedBooking × Nat} (h : w.step env a = some w') (hc : c ∈ w'.calls)
    (hs : c.seen? = some s) :
    (∃ c' ∈ w.calls, c'.seen? = some s) ∨
      (w.checks a = some s.1 ∧ s.2 = w.wakings.count s.1.visit ∧ w'.wakings = w.wakings ∧
        w'.sys = w.sys ∧ checkDuplicate w.sys.now w.sys.db s.1 = .ok ()) := by
  obtain ⟨w', hmoves, rfl⟩ := Option.map_eq_some_iff.mp h
  cases a with
  | system a =>
      simp only [SlotWorld.moves] at hmoves
      split at hmoves
      · cases hmoves
      obtain ⟨sys', _, rfl⟩ := Option.map_eq_some_iff.mp hmoves
      exact .inl ⟨c, hc, hs⟩
  | submit userId dto ref =>
      simp only [SlotWorld.moves] at hmoves
      split at hmoves
      · cases hmoves
      obtain rfl := Option.some.inj hmoves
      rcases List.mem_append.mp hc with hc | hc
      · exact .inl ⟨c, hc, hs⟩
      · rw [List.mem_singleton.mp hc] at hs
        cases hs
  | advance index token answers =>
      obtain ⟨c₀, hc₀, rfl⟩ := Option.map_eq_some_iff.mp hmoves
      rcases List.mem_append.mp hc with hc | hc
      · exact .inl ⟨c, List.mem_of_mem_eraseIdx hc, hs⟩
      rcases CreateCall.advance_seen (Option.mem_toList.mp hc) hs with
        hseen | ⟨ref, rfl, hcount, hok⟩
      · exact .inl ⟨c₀, List.mem_of_getElem? hc₀, hseen⟩
      · have hnone : w.wakes env (.advance index token answers) = none := by
          cases answers <;>
            simp [SlotWorld.wakes, SlotWorld.commits, SlotWorld.revives, hc₀]
        exact .inr ⟨by simp [SlotWorld.checks, hc₀], hcount, by simp [hnone], rfl, hok⟩

/-- A duplicate check that returns, and overlooks no reservation, found the visit free. -/
theorem checkDuplicate_vacant {p : PreparedBooking} (h : checkDuplicate now db p = .ok ())
    (ended : ∀ b ∈ db.bookings.rows, b.visit = p.visit → b.status = .pending →
      b.reservedUntil ≠ none) : ¬ db.Taken now p.visit := by
  intro htaken
  obtain ⟨b, hb, hstands, hvisit⟩ := htaken
  obtain ⟨hcustomer, hrest⟩ := Prod.mk.inj hvisit
  obtain ⟨hactivity, hrest⟩ := Prod.mk.inj hrest
  obtain ⟨hstart, hend⟩ := Prod.mk.inj hrest
  have hactive : activeBookingFilter now b = true := by
    cases hstatus : b.status with
    | cancelled => exact absurd hstatus hstands.1
    | confirmed => simp [activeBookingFilter, hstatus]
    | completed => simp [activeBookingFilter, hstatus]
    | pending =>
        cases hreserved : b.reservedUntil with
        | none => exact absurd hreserved (ended b hb hvisit hstatus)
        | some reservedUntil =>
            have hlive : now ≤ reservedUntil := not_lt.mp fun hlt =>
              hstands.2 ⟨hstatus, reservedUntil, hreserved, hlt⟩
            simp [activeBookingFilter, hstatus, hreserved, hlive]
  exact (ensure_eq_ok.mp h) b hb ⟨hcustomer, hactivity, hstart, hend, hactive⟩

/-- Two calls with one idempotency key never leave two bookings, in any run. -/
theorem keys_unique {w₀ w : SlotWorld} (h : w₀.sys.db.KeysUnique)
    (run : Run (SlotWorld.step env) (fun _ _ => True) w₀ w) : w.sys.db.KeysUnique :=
  run.invariant (fun w => w.sys.db.KeysUnique)
    (fun _ _ _ h _ hstep => h.woken (SlotWorld.step_woken hstep).2.2) h

/-- A creation that has checked finds its visit free as long as nothing of the visit has come
to stand. -/
structure SlotWorld.CheckedFree (w : SlotWorld) : Prop where
  past : ∀ c ∈ w.calls, ∀ s, c.seen? = some s → s.2 ≤ w.wakings.count s.1.visit
  free : ∀ c ∈ w.calls, ∀ s, c.seen? = some s → w.wakings.count s.1.visit = s.2 →
    ¬ w.sys.db.Taken w.sys.now s.1.visit

/-- **A step under the condition leaves what was checked free.** -/
theorem SlotWorld.CheckedFree.step {w w' : SlotWorld} {a : SlotAction} (h : w.CheckedFree)
    (hok : w.ChecksHold env a) (hstep : w.step env a = some w') : w'.CheckedFree := by
  obtain ⟨hnow, hwakings, hwoken⟩ := SlotWorld.step_woken hstep
  constructor
  · intro c hc s hs
    rw [hwakings, List.count_append]
    rcases SlotWorld.step_seen hstep hc hs with ⟨c', hc', hs'⟩ | ⟨_, hseen, _⟩
    · exact Nat.le_add_left_of_le (h.past c' hc' s hs')
    · exact hseen ▸ Nat.le_add_left _ _
  · intro c hc s hs hcount
    rcases SlotWorld.step_seen hstep hc hs with ⟨c', hc', hs'⟩ | ⟨hchecks, _, _, hsys, hduplicate⟩
    · -- the step made another visit stand, or none
      have hpast := h.past c' hc' s hs'
      rw [hwakings, List.count_append] at hcount
      have hother : w.wakes env a ≠ some s.1.visit := by
        intro hwakes
        rw [hwakes, Option.toList_some, List.count_singleton_self] at hcount
        omega
      intro htaken
      exact h.free c' hc' s hs' (by omega) ((htaken.of_le hnow).of_woken hwoken hother)
    · rw [hsys]
      exact checkDuplicate_vacant hduplicate (hok.ended s.1 hchecks)

/-- A step whose checks hold wakes no visit that is taken. -/
theorem SlotWorld.CheckedFree.vacant {w : SlotWorld} {a : SlotAction} (h : w.CheckedFree)
    (hok : w.ChecksHold env a) : ∀ v ∈ w.wakes env a, ¬ w.sys.db.Taken w.sys.now v := by
  intro v hv
  rcases Option.or_eq_some_iff.mp hv with hcommits | ⟨_, hrevives⟩
  · obtain ⟨s, hs, rfl⟩ := Option.map_eq_some_iff.mp hcommits
    have hcount := hok.undisturbed s hs
    unfold SlotWorld.commits at hs
    split at hs
    · split at hs
      · rename_i p ref _ txNow seen hcall
        obtain ⟨_, _, rfl⟩ := Option.map_eq_some_iff.mp hs
        exact h.free _ (List.mem_of_getElem? hcall) _ rfl hcount
      · cases hs
    · cases hs
  · exact hok.vacant v hrevives

/-- **A slot once per customer**, and a booking once per idempotency key, in every run from
an idle system in which what the creations check holds until they commit. -/
theorem visit_once {w₀ w : SlotWorld} (h : w₀.sys.db.VisitOnce w₀.sys.now)
    (keys : w₀.sys.db.KeysUnique) (idle : w₀.calls = [])
    (run : Run (SlotWorld.step env) (SlotWorld.ChecksHold env) w₀ w) :
    w.sys.db.VisitOnce w.sys.now ∧ w.sys.db.KeysUnique := by
  refine ⟨?_, keys_unique keys (run.mono fun _ _ _ => trivial)⟩
  refine (run.invariant (fun w => w.sys.db.VisitOnce w.sys.now ∧ w.CheckedFree)
    (fun w a w' hw hok hstep => ?_) ⟨h, ?_⟩).1
  · obtain ⟨hnow, _, hwoken⟩ := SlotWorld.step_woken hstep
    have hafter := hw.1.woken hwoken (hw.2.vacant hok)
    refine ⟨fun b hb b' hb' hstands hstands' hvisit => ?_, hw.2.step hok hstep⟩
    exact hafter b hb b' hb' (hstands.of_le hnow) (hstands'.of_le hnow) hvisit
  · constructor <;> simp [idle]

/-! ## A double submit -/

/-- The marketplace with room for two. -/
def slotMarket : SlotWorld where
  sys := { market with db := { market.db with
    activities := ⟨[{ marketActivity with capacity := some 2 }], by decide⟩ } }
  calls := []
  locks := []
  redisLockTtlMs := 30000

theorem slotMarket_once :
    slotMarket.sys.db.VisitOnce slotMarket.sys.now ∧ slotMarket.sys.db.KeysUnique := by
  refine ⟨fun b hb => ?_, fun b hb => ?_⟩ <;> cases hb

/-- A request submitted twice: both calls read, then each in turn takes the lock, commits and
releases it. -/
def doubleSubmit (dto : CreateBookingDto) : List SlotAction :=
  [.submit 1 dto "R1", .submit 1 dto "R2"] ++ List.replicate 6 (.advance 0 0 true) ++
    [.advance 0 1 true, .advance 1 0 true, .advance 1 0 true] ++
    [.advance 0 2 true, .advance 0 0 true, .advance 0 0 true]

theorem slot_booked_twice :
    slotMarket.sys.db.VisitOnce slotMarket.sys.now ∧ slotMarket.sys.db.KeysUnique ∧
    ∃ w, Run (SlotWorld.step marketEnv) (fun _ _ => True) slotMarket w ∧
      ¬ w.sys.db.VisitOnce w.sys.now := by
  refine ⟨slotMarket_once.1, slotMarket_once.2, ?_⟩
  obtain ⟨w, run, h⟩ := @Run.of_execAll_test _ _ (SlotWorld.step marketEnv) (fun _ _ => True) _
    (doubleSubmit (marketRequest none)) slotMarket
    (fun w => ∃ b ∈ w.sys.db.bookings.rows, ∃ b' ∈ w.sys.db.bookings.rows,
      b.Stands w.sys.now ∧ b'.Stands w.sys.now ∧ b.visit = b'.visit ∧ b.id ≠ b'.id)
    (by decide +kernel)
  obtain ⟨b, hb, b', hb', hstands, hstands', hvisit, hne⟩ := of_decide_eq_true h
  exact ⟨w, run, fun honce => hne (congrArg Booking.id
    (honce b hb b' hb' hstands hstands' hvisit))⟩

/-- The same with an idempotency key: the second insert is refused. -/
theorem visit_once_by_key :
    ∃ w, Run (SlotWorld.step marketEnv) (SlotWorld.ChecksHold marketEnv) slotMarket w ∧
      (∃ b ∈ w.sys.db.bookings.rows, b.Stands w.sys.now) ∧
      w.sys.db.VisitOnce w.sys.now ∧ w.sys.db.KeysUnique := by
  obtain ⟨w, run, h⟩ := @Run.of_execAll_test _ _ (SlotWorld.step marketEnv)
    (SlotWorld.ChecksHold marketEnv) _
    (doubleSubmit { marketRequest none with idempotencyKey := some "K" }) slotMarket
    (fun w => ∃ b ∈ w.sys.db.bookings.rows, b.Stands w.sys.now) (by decide +kernel)
  exact ⟨w, run, of_decide_eq_true h, visit_once slotMarket_once.1 slotMarket_once.2 rfl run⟩

end Jadwal
