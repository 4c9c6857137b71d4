import Jadwal.Cascade
import Jadwal.Consistency

/-!
# Deleting accounts

`deleteUser` and `deleteVendor` of the admin service look for unresolved bookings first and delete
in a transaction of their own later; what is deleted stays as a row.  A vendor goes with the
activities, which are `INACTIVE` from then on.  The system runs on meanwhile: a creation in flight
does not look at its activity again, and the gateway may still report a capture of a booking that
was cancelled.  After the deletion nothing opens a booking of those activities but a creation or
an orphan recovery that was in flight (`nothing_opens_after_deletion`), and without one of these
the vendor has no unresolved booking for ever (`deleted_vendor_resolved`).
-/

namespace Jadwal

open Outcome

variable {env : Env} {now : Instant} {db db' : Db} {aid : Id}

/-! ## The requests -/

/-- A call that has found nothing unresolved, with what it has read. -/
inductive Deletion
  | user (userId : Id)
  | vendor (vendorId userId : Id)
  deriving DecidableEq, Repr

/-- The lookups of `deleteUser`; `role` is the role on the row. -/
def deleteUserRead (db : Db) (userId : Id) (role : UserRole) : Tx (Option Deletion) := do
  let user ← orThrow (db.users.find? userId) (.notFound "User not found")
  ensure (role ≠ .admin) (.forbidden "Cannot delete admin users")
  if user.deletedAt ≠ none then return none
  else
    let asCustomer := (db.bookings.select (fun b => b.customerId = userId ∧ b.Open)).length
    let asVendor := (db.bookings.select (fun b =>
      (∃ v ∈ db.vendors.find? b.vendorId, v.userId = userId) ∧ b.Open)).length
    let totalBlocking := asCustomer + asVendor
    ensure (totalBlocking = 0) (.forbidden ("Cannot delete user: " ++ toString totalBlocking ++
      " unresolved booking(s) (" ++ toString asCustomer ++ " as customer, " ++
      toString asVendor ++ " as vendor). Cancel or refund them first."))
    return some (.user userId)

/-- The lookups of `deleteVendor`. -/
def deleteVendorRead (db : Db) (vendorId : Id) : Tx (Option Deletion) := do
  let vendor ← orThrow (db.vendors.find? vendorId) (.notFound "Vendor not found")
  if vendor.deletedAt ≠ none then return none
  else
    let blockingBookings := (db.bookings.select (fun b =>
      b.vendorId = vendorId ∧ b.Open)).length
    ensure (blockingBookings = 0) (.forbidden ("Cannot delete vendor: " ++
      toString blockingBookings ++ " unresolved booking(s) still exist. Suspend the vendor " ++
      "first to cascade-cancel and refund, then delete."))
    let blockingPayouts := (db.payments.select (fun q => q.status = .success ∧
      q.payoutStatus = .unpaid ∧
      ∃ b ∈ q.bookingId.bind db.bookings.find?, b.vendorId = vendorId)).length
    ensure (blockingPayouts = 0) (.forbidden ("Cannot delete vendor: " ++
      toString blockingPayouts ++ " completed payment(s) still owe payout. Process those " ++
      "payouts first (Payments tab → Mark as Paid), then delete."))
    let blockingPayoutRequests := (db.payoutRequests.select (fun r => r.vendorId = vendorId ∧
      (r.status = .pending ∨ r.status = .approved))).length
    ensure (blockingPayoutRequests = 0) (.forbidden ("Cannot delete vendor: " ++
      toString blockingPayoutRequests ++ " payout request(s) still in flight. Approve / " ++
      "reject / complete those first, then delete."))
    return some (.vendor vendorId vendor.userId)

/-- The row of an activity that goes with its vendor. -/
def Activity.softDelete (now : Instant) (a : Activity) : Activity :=
  { a with deletedAt := some now, status := .inactive }

def Vendor.softDelete (now : Instant) (v : Vendor) : Vendor :=
  { v with deletedAt := some now, status := .suspended, bankDetails := none }

/-- The activities and the row of a vendor. -/
def softDeleteVendor (now : Instant) (db : Db) (vendorId : Id) : Db :=
  let activities := db.activities.updateMany
    (fun a => a.vendorId = vendorId ∧ a.deletedAt = none) (Activity.softDelete now)
  let vendors := db.vendors.update vendorId (Vendor.softDelete now)
  { db with activities := activities, vendors := vendors }

/-- The account itself. -/
def softDeleteUser (now : Instant) (db : Db) (userId : Id) : Db :=
  let claimedCoupons := db.claimedCoupons.deleteMany (fun c => c.userId = userId)
  let users := db.users.update userId (fun u => { u with deletedAt := some now })
  { db with claimedCoupons := claimedCoupons, users := users }

/-- The transaction. -/
def Deletion.commit (now : Instant) (db : Db) : Deletion → Db
  | .vendor vendorId userId => softDeleteUser now (softDeleteVendor now db vendorId) userId
  | .user userId =>
      match (db.vendors.first? (fun v => v.userId = userId)).filter
          (fun v => v.deletedAt = none) with
      | some v => softDeleteUser now (softDeleteVendor now db v.id) userId
      | none => softDeleteUser now db userId

/-- The system, and the deletions that are about to commit. -/
structure DeletionWorld where
  sys : Sys
  calls : List Deletion

inductive DeletionAction
  | act (a : Action)
  | deleteUser (userId : Id) (role : UserRole)
  | deleteVendor (vendorId : Id)
  | commit (index : Nat)
  /-- An administrator sets the status of an activity. -/
  | setStatus (activityId : Id) (status : ActivityStatus)

namespace DeletionWorld

def asked (w : DeletionWorld) : Tx (Option Deletion) → Option DeletionWorld
  | .ok (some d) => some { w with calls := w.calls ++ [d] }
  | _ => none

/-- The state after a deletion. -/
def deleted (w : DeletionWorld) (d : Deletion) : DeletionWorld :=
  { w with sys := { w.sys with db := d.commit w.sys.now w.sys.db } }

def step (env : Env) (w : DeletionWorld) : DeletionAction → Option DeletionWorld
  | .act a => (w.sys.step env a).map (fun s => { w with sys := s })
  | .deleteUser userId role => w.asked (deleteUserRead w.sys.db userId role)
  | .deleteVendor vendorId => w.asked (deleteVendorRead w.sys.db vendorId)
  | .commit index => (w.calls[index]?).map (fun d =>
      { w.deleted d with calls := w.calls.eraseIdx index })
  | .setStatus activityId status => (setActivityStatus w.sys.db activityId status).toOption.map
      (fun db => { w with sys := { w.sys with db := db } })

end DeletionWorld

/-- The condition on a step: an operator's update is sound, and makes no booking pending or
confirmed that was neither. -/
def Sys.PlainUpdate (s : Sys) (a : Action) : Prop :=
  s.SaneUpdate a ∧ ∀ r ∈ (s.task? a).bind Task.update?,
    r.newStatus = .pending ∨ r.newStatus = .confirmed →
      ∀ b ∈ s.db.bookings.find? r.booking.id, b.Open

/-- And no activity that was deleted gets another status. -/
def DeletionWorld.Plain (w : DeletionWorld) : DeletionAction → Prop
  | .act a => w.sys.PlainUpdate a
  | .setStatus activityId _ => ∀ a ∈ w.sys.db.activities.find? activityId, a.deletedAt = none
  | _ => True

instance (s : Sys) (a : Action) : Decidable (s.PlainUpdate a) :=
  inferInstanceAs (Decidable (_ ∧ ∀ r ∈ (s.task? a).bind Task.update?, _ → _))

instance (w : DeletionWorld) : (a : DeletionAction) → Decidable (w.Plain a)
  | .act a => inferInstanceAs (Decidable (w.sys.PlainUpdate a))
  | .deleteUser _ _ => isTrue trivial
  | .deleteVendor _ => isTrue trivial
  | .commit _ => isTrue trivial
  | .setStatus activityId _ =>
      inferInstanceAs (Decidable (∀ a ∈ w.sys.db.activities.find? activityId, _))

/-! ## What a task opens on an inactive activity -/

/-- The activity is there, and `INACTIVE`. -/
def Db.Inactive (db : Db) (aid : Id) : Prop :=
  ∃ a, db.activities.find? aid = some a ∧ a.status = .inactive

/-- The activity was deleted. -/
def Db.Gone (db : Db) (aid : Id) : Prop :=
  ∃ a, db.activities.find? aid = some a ∧ a.status = .inactive ∧ a.deletedAt ≠ none

theorem Db.Gone.inactive (h : db.Gone aid) : db.Inactive aid := by
  obtain ⟨a, ha, hinactive, _⟩ := h
  exact ⟨a, ha, hinactive⟩

/-- Every open booking of the activity was open before, or `opened` names the activity. -/
def KeepsOpenOn (aid : Id) (opened : Option Id) (bs bs' : Table Booking) : Prop :=
  ∀ b' ∈ bs'.rows, b'.activityId = aid → b'.Open →
    opened = some aid ∨ ∃ b ∈ bs.rows, b.Open ∧ b.slot = b'.slot

/-- What holds of every activity holds of one. -/
theorem KeepsOpen.on {opened : Option Id} {bs bs' : Table Booking} (h : KeepsOpen opened bs bs') :
    KeepsOpenOn aid opened bs bs' := by
  intro b hb hof hopen
  rcases h b hb hopen with hopened | hold
  · exact .inl (hof ▸ hopened)
  · exact .inr hold

/-- An update opens nothing where each row it opens was open before. -/
theorem KeepsOpenOn.updateMany {bs : Table Booking} {p : Booking → Bool}
    {f : Booking → Booking} {hf : ∀ b, Keyed.key (f b) = Keyed.key b}
    (h : ∀ b ∈ bs.rows, p b = true → (f b).activityId = aid → (f b).Open →
      b.Open ∧ (f b).slot = b.slot) :
    KeepsOpenOn aid none bs (bs.updateMany p f hf) := by
  intro b' hb' hof hopen
  obtain ⟨b, hb, rfl⟩ := Table.mem_updateMany.mp hb'
  by_cases hp : p b = true
  · rw [if_pos hp] at hof hopen ⊢
    obtain ⟨hold, hslot⟩ := h b hb hp hof hopen
    exact .inr ⟨b, hb, hold, hslot.symm⟩
  · rw [if_neg hp] at hopen ⊢
    exact .inr ⟨b, hb, hopen, rfl⟩

/-- An un-cancel finds its activity in service. -/
theorem m6UnCancel_keeps {b : Booking} {kind : RecoveryKind}
    (hdown : b.activityId = aid → db.Inactive aid) (frozen : ∀ u, (db.dossier u b.id).Frozen b.core)
    (h : m6UnCancel now db b = .ok (db', kind)) :
    KeepsOpenOn aid none db.bookings db'.bookings ∧ db'.activities = db.activities := by
  unfold m6UnCancel at h
  split at h
  · obtain ⟨rfl, rfl⟩ := Prod.mk.inj (Except.ok.inj h)
    exact ⟨(KeepsOpen.refl _ _).on, rfl⟩
  · simp only [bind_eq_ok, ensure_eq_ok, pure_eq_ok] at h
    obtain ⟨_, ⟨_, hserved⟩, heq⟩ := h
    obtain ⟨rfl, rfl⟩ := Prod.mk.inj heq
    refine ⟨@KeepsOpenOn.updateMany _ _ _ Booking.unCancel (fun _ => rfl)
      fun x hx hkey hof _ => ?_, rfl⟩
    exfalso
    have hfile := dossier_of_find (Table.find?_key hx) 0
    rw [of_decide_eq_true hkey] at hfile
    have hcore : x.core = b.core := (frozen 0).2.1 _ hfile
    have hactivity : b.activityId = aid := (congrArg Booking.activityId hcore).symm.trans hof
    obtain ⟨a, ha, hinactive⟩ := hdown hactivity
    exact hserved a (hactivity ▸ ha) hinactive

/-- An operator's cancellation opens nothing. -/
theorem operatorCancel_keeps {op : Operator} {k : Id}
    (h : operatorCancel now db op k = .ok db') :
    KeepsOpen none db.bookings db'.bookings ∧ db'.activities = db.activities := by
  have hdead : ∀ {f : Booking → Booking} {hf : ∀ b, Keyed.key (f b) = Keyed.key b} {k : Id},
      (∀ b, (f b).status = .cancelled) →
        KeepsOpen none db.bookings (db.bookings.update k f hf) := by
    intro f hf k hcancelled
    exact .updateMany fun b _ _ hopen => absurd (hcancelled b) hopen.live
  obtain ⟨found, hfound, ⟨_, rfl⟩ | ⟨live, hpaid⟩⟩ := operatorCancel_ok h
  · exact ⟨.refl _ _, rfl⟩
  cases hq : found.paymentId.bind (fun id => db.payments.find? id) with
  | some q =>
      obtain ⟨fb, _, _, _, _, e, hfb, _⟩ := (hpaid q hq).effect
      rw [e.bookings]
      exact ⟨hdead fun b => (hfb b).2.1, e.activities⟩
  | none =>
      simp only [operatorCancel, bind_eq_ok, orThrow_eq_ok, ensure_eq_ok] at h
      obtain ⟨x, hx, _, _, h⟩ := h
      obtain rfl := Option.some.inj (hfound.symm.trans hx)
      rw [if_neg live, hq] at h
      unfold afterClaim at h
      simp only at h
      split at h
      · obtain rfl := Except.ok.inj h
        have hframe := refundCouponUsage_frame now
          { db with bookings := db.bookings.update k (op.claim now) (op.claim_key now) }
          (op.claim now found).couponCode (op.claim now found).customerId
        rw [hframe.bookings]
        exact ⟨@hdead _ (op.claim_key now) k fun b => rfl, hframe.activities⟩
      · obtain rfl := Except.ok.inj h
        exact ⟨@hdead _ (op.claim_key now) k fun b => rfl, rfl⟩

/-- A status change opens nothing that was not open, when it is plain. -/
theorem statusCommit_keeps {r : StatusRead} (h : statusCommit now db r = .ok db')
    (plain : r.newStatus = .pending ∨ r.newStatus = .confirmed →
      ∀ b ∈ db.bookings.find? r.booking.id, b.Open) :
    KeepsOpen none db.bookings db'.bookings ∧ db'.activities = db.activities := by
  by_cases hc : r.newStatus = .cancelled
  · rw [statusCommit, if_pos hc] at h
    exact operatorCancel_keeps h
  · have hmark : ∀ {fb : Booking → Booking} {hb : ∀ b, Keyed.key (fb b) = Keyed.key b},
        (∀ b, (fb b).status = r.newStatus ∧ (fb b).core = b.core) →
          KeepsOpen none db.bookings (db.bookings.update r.booking.id fb hb) := by
      intro fb hb hfb
      refine .updateMany fun b hmem hkey hopen => ?_
      rw [Booking.Open, (hfb b).1] at hopen
      have hfind := Table.find?_key hmem
      rw [of_decide_eq_true hkey] at hfind
      have hslot := congrArg Booking.slot (hfb b).2
      exact ⟨plain hopen b hfind, hslot⟩
    obtain ⟨_, ⟨fb, hb, e, hfb⟩ | ⟨_, _, fb, hb, _, e, _, hfb⟩⟩ := statusCommit_mark_ok hc h
    · rw [e.bookings]
      exact ⟨hmark fun b => ⟨congrArg BookingFile.status (hfb b),
        congrArg BookingFile.core (hfb b)⟩, e.activities⟩
    · rw [e.bookings]
      exact ⟨hmark fun b => ⟨congrArg BookingFile.status (hfb b),
        congrArg BookingFile.core (hfb b)⟩, e.activities⟩

/-- A decision on a refund opens nothing. -/
theorem decisionCommit_keeps {r : DecisionRead} (h : decisionCommit now db r = .ok db') :
    KeepsOpen none db.bookings db'.bookings ∧ db'.activities = db.activities := by
  obtain ⟨_, fb, hb, _, _, _, _, e, hfb, _⟩ := decisionCommit_ok h
  rw [e.bookings]
  exact ⟨.update fun b => ⟨congrArg BookingFile.status (hfb b),
    congrArg BookingFile.core (hfb b)⟩, e.activities⟩

/-- An award opens nothing. -/
theorem awardOne_keeps {rate : ℚ} {b : Booking} (h : awardOne db rate b = .ok db') :
    KeepsOpen none db.bookings db'.bookings ∧ db'.activities = db.activities := by
  rcases awardOne_ok h with rfl | ⟨_, fb, hb, _, e, _, hfb⟩
  · exact ⟨.refl _ _, rfl⟩
  · rw [e.bookings]
    exact ⟨.update fun b => ⟨congrArg BookingFile.status (hfb b),
      congrArg BookingFile.core (hfb b)⟩, e.activities⟩

/-- **A task opens a booking of an activity only by `Task.opens`**, or by an un-cancel, which an
inactive activity rules out. -/
theorem Task.run_keeps (w : Wired db) (hf : Filed db) {t : Task} (relies : t.Relies db)
    (hdown : ∀ p b, t = .unCancel p b → b.activityId = aid → db.Inactive aid)
    (frozen : ∀ p b, t = .unCancel p b → ∀ u, (db.dossier u b.id).Frozen b.core)
    (plain : ∀ r ∈ t.update?, r.newStatus = .pending ∨ r.newStatus = .confirmed →
      ∀ b ∈ db.bookings.find? r.booking.id, b.Open) :
    KeepsOpenOn aid t.opens db.bookings (t.run env now db).1.bookings ∧
      (t.run env now db).1.activities = db.activities := by
  have hnone : KeepsOpenOn aid none db.bookings db.bookings ∧ db.activities = db.activities :=
    ⟨(KeepsOpen.refl _ _).on, rfl⟩
  have hcommitted : ∀ tx : Tx Db, (∀ db', tx = .ok db' →
      KeepsOpen none db.bookings db'.bookings ∧ db'.activities = db.activities) →
      KeepsOpenOn aid none db.bookings (committed db tx).bookings ∧
        (committed db tx).activities = db.activities := by
    intro tx h
    cases tx with
    | error e => exact hnone
    | ok db' => exact ⟨(h db' rfl).1.on, (h db' rfl).2⟩
  cases t with
  | create p ref =>
      simp only [Task.run]
      split
      · exact ⟨(KeepsOpen.refl _ _).on, rfl⟩
      · rename_i htx
        have hpasses := createBookingTx_passes htx
        exact ⟨hpasses.keeps.on, hpasses.activities⟩
  | stampOtp bookingId user =>
      exact hcommitted _ fun _ h => ⟨(otpStamp_passes h).keeps, (otpStamp_passes h).activities⟩
  | initiate r basketId =>
      exact hcommitted _ fun _ h =>
        ⟨(initiateWrite_passes h).keeps, (initiateWrite_passes h).activities⟩
  | hold bookingId =>
      have hpasses := @holdNapsSuccess_passes now db bookingId
      exact ⟨hpasses.keeps.on, hpasses.activities⟩
  | settle payment params isSuccess =>
      obtain ⟨k, hk, own⟩ := relies
      simp only [Task.run]
      split
      · exact hnone
      · rename_i htx
        cases isSuccess with
        | true =>
            have hpasses := settleSuccess_passes w hf hk own htx
            exact ⟨hpasses.keeps.on, hpasses.activities⟩
        | false =>
            have hpasses := settleFailure_passes htx
            exact ⟨hpasses.keeps.on, hpasses.activities⟩
  | b2Check p | m6Check p k =>
      simp only [Task.run]
      split <;> exact hnone
  | recreate p amount bookingId s =>
      simp only [Task.run]
      split
      · exact ⟨(KeepsOpen.refl _ _).on, rfl⟩
      · rename_i htx
        exact ⟨(b2Recreate_passes htx).keeps.on, (b2Recreate_passes htx).activities⟩
      · rename_i htx
        exact ⟨(b2Recreate_passes htx).keeps.on, (b2Recreate_passes htx).activities⟩
  | unCancel p b =>
      simp only [Task.run]
      split
      · exact hnone
      · rename_i htx
        exact m6UnCancel_keeps (hdown p b rfl) (frozen p b rfl) htx
  | queueRefund p amount => exact hnone
  | cancel r =>
      exact hcommitted _ fun _ h =>
        ⟨(cancelCommit_passes h).keeps, (cancelCommit_passes h).activities⟩
  | decide r => exact hcommitted _ fun _ h => decisionCommit_keeps h
  | update r => exact hcommitted _ fun _ h => statusCommit_keeps h (plain r rfl)
  | reap stale =>
      exact hcommitted _ fun _ h => ⟨(reapStale_passes h).keeps, (reapStale_passes h).activities⟩
  | awardBatch bookings cutoff =>
      simp only [Task.run]
      split
      · exact hnone
      · exact hnone
  | award rate todo cutoff =>
      cases todo with
      | nil => exact hnone
      | cons b todo => exact hcommitted _ fun _ h => awardOne_keeps h
  | complete bookings =>
      refine ⟨(@KeepsOpen.updateMany _ _ Booking.complete (fun _ => rfl)
        fun b _ _ hopen => ?_).on, rfl⟩
      rcases hopen with hs | hs
      · cases hs
      · cases hs

/-! ## The tasks that come up -/

/-- A creation that goes on has read an ACTIVE activity. -/
theorem prepareBooking_served {userId : Id} {dto : CreateBookingDto} {p : PreparedBooking}
    (h : prepareBooking env now db userId dto = .ok (some p)) :
    db.activities.find? p.dto.activityId = some p.activity ∧ p.activity.status = .active := by
  unfold prepareBooking at h
  split at h
  · cases Except.ok.inj h
  · simp only [bind_eq_ok, orThrow_eq_ok, ensure_eq_ok, pure_eq_ok] at h
    obtain ⟨_, _, _, _, activity, ha, _, _, _, _, _, hactive, _, _, _, _, _, _, _, _, _, _, window,
      _, _, _, _, _, h⟩ := h
    obtain rfl := Option.some.inj h
    exact ⟨ha, hactive⟩

/-- A recovery that goes on has read an ACTIVE activity. -/
theorem b2Preflight_served {paymentId : Id} {amount : Cents} {bookingId : Option Id}
    {s : BookingSnapshot} (h : b2Preflight env now db paymentId = .recreate amount bookingId s) :
    ∃ a, db.activities.find? s.activityId = some a ∧ a.status = .active := by
  unfold b2Preflight at h
  split at h
  · cases h
  split at h
  · cases h
  split at h
  · cases h
  split at h
  · cases h
  split at h
  · cases h
  split at h
  · cases h
  rename_i a ha
  simp only at h
  split at h
  · cases h
  split at h
  · cases h
  rename_i hactive
  obtain ⟨_, _, rfl⟩ := RecoveryPlan.recreate.inj h
  exact ⟨a, ha, not_not.mp hactive⟩

/-- An un-cancel goes on with the row it has read. -/
theorem m6Preflight_read {paymentId bookingId : Id} {b : Booking}
    (h : m6Preflight env now db paymentId bookingId = .unCancel b) :
    db.bookings.find? b.id = some b := by
  have hplan := m6Preflight_ok env now db paymentId bookingId
  rw [h] at hplan
  have hid : b.id = bookingId := (Table.find?_eq_some.mp hplan).2
  rw [hid]
  exact hplan

/-- What holds of a task that was not in flight before. -/
structure Task.Fresh (db : Db) (t : Task) : Prop where
  served : ∀ aid, db.Inactive aid → t.opens ≠ some aid
  read : ∀ p b, t = .unCancel p b → db.bookings.find? b.id = some b

/-- A task that opens nothing rests on nothing it has read. -/
theorem Task.Fresh.of_idle {t : Task} (hopens : t.opens = none)
    (hother : ∀ p b, t ≠ .unCancel p b) : t.Fresh db where
  served aid _ h := by
    rw [hopens] at h
    cases h
  read p b h := absurd h (hother p b)

/-- A task that opens a booking, on an activity it has seen in service. -/
theorem Task.Fresh.of_served {t : Task} {id : Id} {a : Activity} (hopens : t.opens = some id)
    (ha : db.activities.find? id = some a) (hactive : a.status = .active) : t.Fresh db where
  served aid hdown h := by
    obtain ⟨a', ha', hinactive⟩ := hdown
    rw [hopens] at h
    obtain rfl := Option.some.inj h
    obtain rfl := Option.some.inj (ha.symm.trans ha')
    rw [hactive] at hinactive
    cases hinactive
  read p b h := by
    rw [h] at hopens
    cases hopens

/-- What a request puts in flight has just read what it rests on. -/
theorem Request.read_fresh {request : Request} {t : Task}
    (h : request.read env now db = .ok (some t)) : t.Fresh db := by
  cases request with
  | createBooking userId dto ref =>
      simp only [Request.read, bind_eq_ok, pure_eq_ok] at h
      obtain ⟨p, hp, h⟩ := h
      obtain ⟨p', rfl, rfl⟩ := Option.map_eq_some_iff.mp h
      obtain ⟨ha, hactive⟩ := prepareBooking_served hp
      exact .of_served rfl ha hactive
  | verifyBookingEmailOtp userId bookingId =>
      simp only [Request.read, bind_eq_ok, pure_eq_ok, Option.some.injEq] at h
      obtain ⟨_, _, rfl⟩ := h
      exact .of_idle rfl (by simp)
  | initiatePayment bookingId userId key basketId =>
      simp only [Request.read, bind_eq_ok, pure_eq_ok, Option.some.injEq] at h
      obtain ⟨_, _, rfl⟩ := h
      exact .of_idle rfl (by simp)
  | handleCallback params =>
      simp only [Request.read, callbackRead, bind_eq_ok, orThrow_eq_ok, ensure_eq_ok] at h
      obtain ⟨_, _, payment, _, h⟩ := h
      split at h
      · simp only [pure_eq_ok, Option.some.injEq] at h
        rw [← h]
        exact .of_idle rfl (by simp)
      · simp only [pure_eq_ok, Option.some.injEq] at h
        rw [← h]
        exact .of_idle rfl (by simp)
      · exact absurd h throw_eq_ok
      all_goals simp at h
  | cancelBooking userId bookingId =>
      simp only [Request.read, bind_eq_ok, pure_eq_ok, Option.some.injEq] at h
      obtain ⟨_, _, rfl⟩ := h
      exact .of_idle rfl (by simp)
  | recordRefundDecision userId role bookingId action amount note =>
      simp only [Request.read, bind_eq_ok, pure_eq_ok, Option.some.injEq] at h
      obtain ⟨_, _, rfl⟩ := h
      exact .of_idle rfl (by simp)
  | vendorUpdateBookingStatus userId bookingId newStatus =>
      simp only [Request.read, bind_eq_ok, pure_eq_ok, Option.some.injEq] at h
      obtain ⟨_, _, rfl⟩ := h
      exact .of_idle rfl (by simp)
  | adminUpdateBookingStatus adminUserId bookingId status =>
      simp only [Request.read, bind_eq_ok, pure_eq_ok, Option.some.injEq] at h
      obtain ⟨_, _, rfl⟩ := h
      exact .of_idle rfl (by simp)
  | autoCancelStalePendingBookings =>
      simp only [Request.read] at h
      split at h
      · simp at h
      · simp only [pure_eq_ok, Option.some.injEq] at h
        rw [← h]
        exact .of_idle rfl (by simp)
  | autoCompletePastBookings =>
      simp only [Request.read, pure_eq_ok, Option.some.injEq] at h
      rw [← h]
      exact .of_idle rfl (by simp)

/-- So has the second pass of the cron job. -/
theorem secondPass_fresh {cutoff : Option Instant} {t : Task}
    (h : secondPass env now db cutoff = some t) : t.Fresh db := by
  unfold secondPass at h
  obtain ⟨_, _, h⟩ := Option.bind_eq_some_iff.mp h
  split at h
  · cases h
  · obtain rfl := Option.some.inj h
    exact .of_idle rfl (by simp)

/-- So has a refund that takes the place of a recovery. -/
theorem refundFresh_fresh {paymentId : Id} {t : Task} (h : refundFresh db paymentId = some t) :
    t.Fresh db := by
  obtain ⟨_, _, rfl⟩ := Option.map_eq_some_iff.mp h
  exact .of_idle rfl (by simp)

/-- **A task that follows another is fresh**: it rests on what its predecessor left. -/
theorem Task.run_fresh {t t' : Task} (h : (t.run env now db).2 = some t') : t'.Fresh db := by
  cases t with
  | create p ref =>
      simp only [Task.run] at h
      split at h
      · cases h
      · simp only [Option.ite_none_right_eq_some] at h
        obtain rfl := Option.some.inj h.2
        exact .of_idle rfl (by simp)
  | settle payment params isSuccess =>
      simp only [Task.run] at h
      split at h
      · cases h
      · rename_i settled _
        cases hr : settled.recovery with
        | none =>
            rw [hr] at h
            cases h
        | some mode =>
            rw [hr] at h
            cases mode with
            | b2Orphan =>
                obtain rfl := Option.some.inj h
                exact .of_idle rfl (by simp)
            | m6SystemCancelled =>
                obtain ⟨_, _, rfl⟩ := Option.map_eq_some_iff.mp h
                exact .of_idle rfl (by simp)
            | cancelledRefund =>
                obtain rfl := Option.some.inj h
                exact .of_idle rfl (by simp)
  | b2Check paymentId =>
      simp only [Task.run] at h
      split at h
      · cases h
      · obtain rfl := Option.some.inj h
        exact .of_idle rfl (by simp)
      · rename_i hplan
        obtain rfl := Option.some.inj h
        obtain ⟨a, ha, hactive⟩ := b2Preflight_served hplan
        exact .of_served rfl ha hactive
  | recreate paymentId amount bookingId s =>
      simp only [Task.run] at h
      split at h
      · obtain rfl := Option.some.inj h
        exact .of_idle rfl (by simp)
      · obtain rfl := Option.some.inj h
        exact .of_idle rfl (by simp)
      · cases h
  | m6Check paymentId bookingId =>
      simp only [Task.run] at h
      split at h
      · cases h
      · obtain rfl := Option.some.inj h
        exact .of_idle rfl (by simp)
      · rename_i hplan
        obtain rfl := Option.some.inj h
        constructor
        · intro aid _ hopens
          cases hopens
        · intro p b heq
          obtain ⟨_, rfl⟩ := Task.unCancel.inj heq
          exact m6Preflight_read hplan
  | unCancel paymentId b =>
      simp only [Task.run] at h
      split at h
      · exact refundFresh_fresh h
      · cases h
  | awardBatch bookings cutoff =>
      simp only [Task.run] at h
      split at h
      · exact secondPass_fresh h
      · obtain rfl := Option.some.inj h
        exact .of_idle rfl (by simp)
  | award rate todo cutoff =>
      cases todo with
      | nil => exact secondPass_fresh h
      | cons b todo =>
          obtain rfl := Option.some.inj h
          exact .of_idle rfl (by simp)
  | complete bookings =>
      obtain rfl := Option.some.inj h
      exact .of_idle rfl (by simp)
  | _ => cases h

/-- A task in flight after a step was in flight before, or is fresh. -/
theorem Sys.step_fresh {s s' : Sys} {a : Action} (h : s.step env a = some s') {t : Task}
    (ht : t ∈ s'.inflight) : t ∈ s.inflight ∨ t.Fresh s.db := by
  rcases Sys.step_cases h with ⟨_, _, rfl⟩ | ⟨_, t₀, _, hread, rfl⟩ | ⟨_, t₀, _, hin, rfl⟩
  · exact .inl ht
  · rcases List.mem_append.mp ht with ht | ht
    · exact .inl ht
    · rw [List.mem_singleton.mp ht]
      exact .inr (Request.read_fresh hread)
  · rcases Sys.mem_ran ht with ht | ht
    · exact .inl (List.mem_of_mem_eraseIdx ht)
    · exact .inr (Task.run_fresh ht)

/-! ## What every run keeps -/

/-- The un-cancels in flight have read the rows they are about. -/
structure Sys.Reads (s : Sys) : Prop where
  consistent : Consistent s
  frozen : ∀ p b, .unCancel p b ∈ s.inflight → ∀ u, (s.db.dossier u b.id).Frozen b.core

/-- From a state with the bookings `bs`: one of the activity is open only if it was, or `early`
holds; and the rows of those bookings are what they were. -/
structure Sys.Follows (aid : Id) (bs : Table Booking) (early : Prop) (s : Sys) : Prop where
  reads : s.Reads
  frozen : ∀ b ∈ bs.rows, ∀ u, (s.db.dossier u b.id).Frozen b.core
  keeps : ∀ b ∈ s.db.bookings.rows, b.activityId = aid → b.Open →
    early ∨ ∃ b₀ ∈ bs.rows, b₀.Open ∧ b₀.slot = b.slot

theorem Sys.mem_of_task? {s : Sys} {a : Action} {t : Task} (h : s.task? a = some t) :
    t ∈ s.inflight := by
  cases a with
  | run index => exact List.mem_of_getElem? h
  | _ => cases h

/-- At the start every task is fresh, for there is none. -/
theorem Initial.reads {s : Sys} (h : Initial s) : s.Reads where
  consistent := h.consistent
  frozen p b ht := by
    rw [h.inflight] at ht
    cases ht

/-- Every open row is one that is there now. -/
theorem Sys.Reads.follows {s : Sys} (h : s.Reads) (aid : Id) :
    s.Follows aid s.db.bookings False where
  reads := h
  frozen b hb u := (h.consistent.filed u b.id).frozen (dossier_of_find (Table.find?_key hb) u)
  keeps b hb _ hopen := .inr ⟨b, hb, hopen, rfl⟩

/-- A transaction that leaves the bookings and what is filed with them alone. -/
theorem Consistent.external {s : Sys} (h : Consistent s)
    (st : Steps (fun _ _ _ => True) none s.db db') : Consistent { s with db := db' } := by
  refine ⟨h.wired.step st.grows, h.filed.step st, ?_, h.disjoint, ?_⟩
  · intro t ht
    exact (h.relies t ht).step st fun _ _ => by simp
  · intro u k p hp
    rcases Dossier.Uncollected.before (st.moves u k) hp with hbefore | hchain
    · exact h.collected u k p hbefore
    · cases hchain

/-- The tables of accounts and activities carry no money. -/
theorem steps_of_accounts (w : Wired db) (users : Table User) (vendors : Table Vendor)
    (activities : Table Activity) (claimedCoupons : Table ClaimedCoupon) :
    Steps (fun _ _ _ => True) none db { db with
      users := users, vendors := vendors, activities := activities,
      claimedCoupons := claimedCoupons } :=
  ⟨⟨le_rfl, w.bookings, fun q hq => .inl ⟨q, hq, rfl, rfl⟩, w.entries, id,
    ⟨[], (List.append_nil _).symm, by simp⟩⟩, fun _ _ => .idle _⟩

/-- A deletion moves no money and keeps every booking. -/
theorem Deletion.commit_steps (d : Deletion) (w : Wired db) :
    Steps (fun _ _ _ => True) none db (d.commit now db) ∧
      (d.commit now db).bookings = db.bookings := by
  cases d with
  | vendor vendorId userId => exact ⟨steps_of_accounts w _ _ _ _, rfl⟩
  | user userId =>
      simp only [Deletion.commit]
      split
      · exact ⟨steps_of_accounts w _ _ _ _, rfl⟩
      · exact ⟨steps_of_accounts w _ _ _ _, rfl⟩

/-- A deletion takes every activity of the vendor down, and no other. -/
theorem softDeleteVendor_find? {vendorId userId : Id} {a : Activity}
    (ha : db.activities.find? aid = some a) :
    (softDeleteUser now (softDeleteVendor now db vendorId) userId).activities.find? aid =
      some (if a.vendorId = vendorId ∧ a.deletedAt = none then a.softDelete now else a) := by
  have hfind := db.activities.find?_updateMany
    (fun a => a.vendorId = vendorId ∧ a.deletedAt = none) (Activity.softDelete now)
    (fun _ => rfl) aid
  rw [ha] at hfind
  simp only [Option.map_some, decide_eq_true_eq] at hfind
  exact hfind

/-- What is gone stays gone when another vendor is deleted. -/
theorem softDeleteVendor_gone {vendorId userId : Id} (hgone : db.Gone aid) :
    (softDeleteUser now (softDeleteVendor now db vendorId) userId).Gone aid := by
  obtain ⟨a, ha, hinactive, hdeleted⟩ := hgone
  refine ⟨a, ?_, hinactive, hdeleted⟩
  rw [softDeleteVendor_find? ha, if_neg fun h => hdeleted h.2]

/-- What is deleted stays so. -/
theorem Deletion.commit_gone (d : Deletion) (hgone : db.Gone aid) :
    (d.commit now db).Gone aid := by
  cases d with
  | vendor vendorId userId => exact softDeleteVendor_gone hgone
  | user userId =>
      simp only [Deletion.commit]
      split
      · exact softDeleteVendor_gone hgone
      · exact hgone

/-- What is gone stays gone when another activity is given a status. -/
theorem setActivityStatus_gone {activityId : Id} {status : ActivityStatus}
    (h : setActivityStatus db activityId status = .ok db')
    (hthere : ∀ a ∈ db.activities.find? activityId, a.deletedAt = none) (hgone : db.Gone aid) :
    db'.Gone aid := by
  simp only [setActivityStatus, bind_eq_ok, orThrow_eq_ok, pure_eq_ok] at h
  obtain ⟨_, _, rfl⟩ := h
  obtain ⟨a, ha, hinactive, hdeleted⟩ := hgone
  have hne : aid ≠ activityId := by
    intro heq
    rw [heq] at ha
    exact hdeleted (hthere a ha)
  refine ⟨a, ?_, hinactive, hdeleted⟩
  dsimp only
  rw [Table.find?_update, if_neg hne, ha]

/-- The vendor whose rows the deletion writes. -/
def Deletion.vendorIn (db : Db) : Deletion → Option Id
  | .vendor vendorId _ => some vendorId
  | .user userId => ((db.vendors.first? (fun v => v.userId = userId)).filter
      (fun v => v.deletedAt = none)).map Vendor.id

/-- The deletion takes the activity with it. -/
def Deletion.TakesDown (d : Deletion) (db : Db) (aid : Id) : Prop :=
  ∃ a ∈ db.activities.find? aid, a.deletedAt = none ∧ d.vendorIn db = some a.vendorId

instance (d : Deletion) (db : Db) (aid : Id) : Decidable (d.TakesDown db aid) :=
  inferInstanceAs (Decidable (∃ a ∈ db.activities.find? aid, _))

/-- An activity that a deletion takes down is gone. -/
theorem Deletion.TakesDown.gone {d : Deletion} (h : d.TakesDown db aid) :
    (d.commit now db).Gone aid := by
  obtain ⟨a, ha, hthere, hvendor⟩ := h
  have hrow : ∀ userId, (softDeleteUser now (softDeleteVendor now db a.vendorId) userId).Gone
      aid := by
    intro userId
    refine ⟨a.softDelete now, ?_, rfl, Option.some_ne_none now⟩
    rw [softDeleteVendor_find? ha, if_pos ⟨rfl, hthere⟩]
  cases d with
  | vendor vendorId userId =>
      obtain rfl := Option.some.inj hvendor
      exact hrow userId
  | user userId =>
      obtain ⟨v, hv, hid⟩ := Option.map_eq_some_iff.mp hvendor
      simp only [Deletion.commit, hv]
      rw [hid]
      exact hrow userId

variable {bs : Table Booking} {early : Prop} {s s' : Sys}

/-- A plain step leaves every task fresh. -/
theorem Sys.Reads.step {a : Action} (h : s.Reads) (plain : s.PlainUpdate a)
    (hstep : s.step env a = some s') :
    s'.Reads ∧ ∃ chain, Steps (fun _ _ _ => True) chain s.db s'.db := by
  obtain ⟨hc', chain, st⟩ := h.consistent.step plain.1.guarded hstep
  refine ⟨⟨hc', ?_⟩, chain, st⟩
  intro p b ht u
  rcases Sys.step_fresh hstep ht with hin | hfresh
  · exact (h.frozen p b hin u).step (st.moves u b.id)
  · have hfile := dossier_of_find (hfresh.read p b rfl) u
    exact ((h.consistent.filed u b.id).frozen hfile).step (st.moves u b.id)

/-- A change that moves no money leaves every task fresh. -/
theorem Sys.Reads.outside (h : s.Reads) (st : Steps (fun _ _ _ => True) none s.db db') :
    Sys.Reads { s with db := db' } where
  consistent := h.consistent.external st
  frozen p b ht u := (h.frozen p b ht u).step (st.moves u b.id)

theorem Sys.Follows.mono (h : s.Follows aid bs False) (early : Prop) :
    s.Follows aid bs early where
  reads := h.reads
  frozen := h.frozen
  keeps b hb hof hopen := .inr ((h.keeps b hb hof hopen).resolve_left id)

/-- **A step of the system**, which opens a booking of the activity only when it may. -/
theorem Sys.Follows.step {a : Action} (h : s.Follows aid bs early) (plain : s.PlainUpdate a)
    (hopens : ∀ t, s.task? a = some t → t.opens = some aid → early)
    (hserved : ∀ p b, s.task? a = some (.unCancel p b) → b.activityId = aid → s.db.Inactive aid)
    (hstep : s.step env a = some s') :
    s'.Follows aid bs early ∧ s'.db.activities = s.db.activities := by
  have hc := h.reads.consistent
  obtain ⟨hreads, chain, st⟩ := h.reads.step plain hstep
  have hfrozen : ∀ b ∈ bs.rows, ∀ u, (s'.db.dossier u b.id).Frozen b.core :=
    fun b hb u => (h.frozen b hb u).step (st.moves u b.id)
  rcases Sys.step_db hstep with ⟨hdb, _⟩ | ⟨t, ht, hdb, _⟩
  · rw [hdb]
    exact ⟨⟨hreads, hfrozen, hdb ▸ h.keeps⟩, rfl⟩
  · have hkeeps : KeepsOpenOn aid t.opens s.db.bookings (t.run env s.now s.db).1.bookings ∧
        (t.run env s.now s.db).1.activities = s.db.activities :=
      Task.run_keeps hc.wired hc.filed (hc.relies t (Sys.mem_of_task? ht))
        (fun p b heq hactivity => hserved p b (heq ▸ ht) hactivity)
        (fun p b heq => h.reads.frozen p b (heq ▸ Sys.mem_of_task? ht))
        (fun r hr hnew => plain.2 r (by rw [ht]; exact hr) hnew)
    rw [← hdb] at hkeeps
    refine ⟨⟨hreads, hfrozen, fun b hb hof hopen => ?_⟩, hkeeps.2⟩
    rcases hkeeps.1 b hb hof hopen with hopened | ⟨b₀, hb₀, hopen₀, hslot⟩
    · exact .inl (hopens t ht hopened)
    · have hof₀ : b₀.activityId = aid := (congrArg (fun x => x.2.1) hslot).trans hof
      rcases h.keeps b₀ hb₀ hof₀ hopen₀ with hearly | ⟨b₁, hb₁, hopen₁, hslot₁⟩
      · exact .inl hearly
      · exact .inr ⟨b₁, hb₁, hopen₁, hslot₁.trans hslot⟩

/-- A change that keeps the bookings opens nothing. -/
theorem Sys.Follows.outside (h : s.Follows aid bs early)
    (st : Steps (fun _ _ _ => True) none s.db db') (hbookings : db'.bookings = s.db.bookings) :
    Sys.Follows aid bs early { s with db := db' } := by
  refine ⟨h.reads.outside st, fun b hb u => ?_, ?_⟩
  · exact (h.frozen b hb u).step (st.moves u b.id)
  · rw [hbookings]
    exact h.keeps

/-- The activity was deleted, and what may still open a booking of it is in flight. -/
structure Sys.Closed (aid : Id) (bs : Table Booking) (early : Prop) (s : Sys) : Prop where
  follows : s.Follows aid bs early
  gone : s.db.Gone aid
  tasks : ∀ t ∈ s.inflight, t.opens = some aid → early

/-- **A closed activity stays closed** in a plain step. -/
theorem Sys.Closed.step {a : Action} (h : s.Closed aid bs early) (plain : s.PlainUpdate a)
    (hstep : s.step env a = some s') : s'.Closed aid bs early := by
  obtain ⟨hfollows, hactivities⟩ := h.follows.step plain
    (fun t ht => h.tasks t (Sys.mem_of_task? ht)) (fun _ _ _ _ => h.gone.inactive) hstep
  refine ⟨hfollows, ?_, ?_⟩
  · rw [Db.Gone, hactivities]
    exact h.gone
  · intro t ht hopens
    rcases Sys.step_fresh hstep ht with hin | hfresh
    · exact h.tasks t hin hopens
    · exact absurd hopens (hfresh.served aid h.gone.inactive)

/-- The row is one of those at the start, unless a task opened it. -/
theorem Sys.Follows.row (h : s.Follows aid bs early) {b : Booking} (hb : b ∈ s.db.bookings.rows)
    (hof : b.activityId = aid) (hopen : b.Open) :
    early ∨ ∃ b₀ ∈ bs.rows, b₀.Open ∧ b₀.core = b.core := by
  rcases h.keeps b hb hof hopen with hearly | ⟨b₀, hb₀, hopen₀, hslot⟩
  · exact .inl hearly
  · have hid : b₀.id = b.id := congrArg Prod.fst hslot
    have hfile := dossier_of_find (Table.find?_key hb) 0
    have hfrozen := h.frozen b₀ hb₀ 0
    rw [hid] at hfrozen
    exact .inr ⟨b₀, hb₀, hopen₀, (hfrozen.2.1 _ hfile).symm⟩

/-! ## Runs -/

variable {w w₀ w₁ w₂ w₃ w' : DeletionWorld} {d : Deletion}

/-- What a transaction from outside the system does: bookings and their files are left alone,
and what was deleted stays so. -/
structure Outside (db db' : Db) : Prop where
  steps : Steps (fun _ _ _ => True) none db db'
  bookings : db'.bookings = db.bookings
  gone : ∀ aid, db.Gone aid → db'.Gone aid

/-- A deletion is a change from outside. -/
theorem Deletion.outside (d : Deletion) (w : Wired db) : Outside db (d.commit now db) :=
  ⟨(d.commit_steps w).1, (d.commit_steps w).2, fun _ hgone => d.commit_gone hgone⟩

/-- So is giving a status to an activity that is there. -/
theorem setActivityStatus_outside (w : Wired db) {activityId : Id} {status : ActivityStatus}
    (h : setActivityStatus db activityId status = .ok db')
    (hthere : ∀ a ∈ db.activities.find? activityId, a.deletedAt = none) : Outside db db' := by
  have hframe := (setActivityStatus_ok h).2.1
  refine ⟨?_, ?_, fun _ hgone => setActivityStatus_gone h hthere hgone⟩
  · rw [hframe]
    exact steps_of_activities w _
  · rw [hframe]

/-- **What a step does**: a step of the system, a call that is read, or a transaction from
outside. -/
theorem DeletionWorld.step_cases {a : DeletionAction} (wired : Wired w.sys.db) (plain : w.Plain a)
    (h : w.step env a = some w') :
    (∃ x s, a = .act x ∧ w.sys.step env x = some s ∧ w'.sys = s) ∨ w'.sys = w.sys ∨
      ∃ db', Outside w.sys.db db' ∧ w'.sys = { w.sys with db := db' } := by
  have hasked : ∀ read, w.asked read = some w' → w'.sys = w.sys := by
    intro read hread
    unfold DeletionWorld.asked at hread
    split at hread
    · rw [← Option.some.inj hread]
    · cases hread
  cases a with
  | act x =>
      obtain ⟨s, hs, rfl⟩ := Option.map_eq_some_iff.mp h
      exact .inl ⟨x, s, rfl, hs, rfl⟩
  | deleteUser userId role => exact .inr (.inl (hasked _ h))
  | deleteVendor vendorId => exact .inr (.inl (hasked _ h))
  | commit index =>
      obtain ⟨d, _, rfl⟩ := Option.map_eq_some_iff.mp h
      exact .inr (.inr ⟨_, d.outside wired, rfl⟩)
  | setStatus activityId status =>
      obtain ⟨db', hdb, rfl⟩ := Option.map_eq_some_iff.mp h
      exact .inr (.inr ⟨db', setActivityStatus_outside wired (toOption_eq_some.mp hdb) plain, rfl⟩)

/-- The activity of which a task opens a booking or un-cancels one. -/
def Task.reopens : Task → Option Id
  | .unCancel _ b => some b.activityId
  | t => t.opens

/-- The step opens no booking of the activity, and un-cancels none. -/
def DeletionWorld.Quiet (aid : Id) (w : DeletionWorld) : DeletionAction → Prop
  | .act a => ∀ t ∈ w.sys.task? a, t.reopens ≠ some aid
  | _ => True

instance (aid : Id) (w : DeletionWorld) : (a : DeletionAction) → Decidable (w.Quiet aid a)
  | .act a => inferInstanceAs (Decidable (∀ t ∈ w.sys.task? a, _))
  | .deleteUser _ _ => isTrue trivial
  | .deleteVendor _ => isTrue trivial
  | .commit _ => isTrue trivial
  | .setStatus _ _ => isTrue trivial

/-- What opens an activity also reopens it. -/
theorem Task.reopens_of_opens {t : Task} (h : t.opens = some aid) : t.reopens = some aid := by
  cases t with
  | unCancel p b => cases h
  | _ => exact h

/-- What the steps of the system and the transactions from outside keep, runs keep. -/
theorem DeletionWorld.run_invariant {ok : DeletionWorld → DeletionAction → Prop} (P : Sys → Prop)
    (hplain : ∀ w a, ok w a → w.Plain a) (hwired : ∀ s, P s → Wired s.db)
    (hact : ∀ w a s, ok w (.act a) → P w.sys → w.sys.step env a = some s → P s)
    (houtside : ∀ (s : Sys) (db' : Db), P s → Outside s.db db' → P { s with db := db' })
    (run : Run (DeletionWorld.step env) ok w₁ w₂) (h : P w₁.sys) : P w₂.sys := by
  refine run.invariant (fun w => P w.sys) ?_ h
  intro w a w' hw hok hstep
  rcases DeletionWorld.step_cases (hwired _ hw) (hplain w a hok) hstep with
    ⟨x, s, rfl, hs, heq⟩ | heq | ⟨db', hout, heq⟩
  · rw [heq]
    exact hact w x s hok hw hs
  · rw [heq]
    exact hw
  · rw [heq]
    exact houtside w.sys db' hw hout

/-- Every task is fresh, in every plain run. -/
theorem reads_of_run (hinit : Initial w₀.sys)
    (run : Run (DeletionWorld.step env) DeletionWorld.Plain w₀ w) : w.sys.Reads := by
  apply DeletionWorld.run_invariant Sys.Reads (fun _ _ h => h) _ _ _ run hinit.reads
  · intro s hs
    exact hs.consistent.wired
  · intro w a s plain hw hs
    exact (hw.step plain hs).1
  · intro s db' hs hout
    exact hs.outside hout.steps

/-- A closed activity stays closed, in every plain run. -/
theorem closed_of_run (h : w₁.sys.Closed aid bs early)
    (run : Run (DeletionWorld.step env) DeletionWorld.Plain w₁ w₂) :
    w₂.sys.Closed aid bs early := by
  apply DeletionWorld.run_invariant (Sys.Closed aid bs early) (fun _ _ h => h) _ _ _ run h
  · intro s hs
    exact hs.follows.reads.consistent.wired
  · intro w a s plain hw hs
    exact hw.step plain hs
  · intro s db' hs hout
    exact ⟨hs.follows.outside hout.steps hout.bookings, hout.gone aid hs.gone, hs.tasks⟩

/-- Nothing opens in a run that is quiet about the activity. -/
theorem follows_of_quiet (h : w₁.sys.Follows aid bs False)
    (run : Run (DeletionWorld.step env) (fun w a => w.Plain a ∧ w.Quiet aid a) w₁ w₂) :
    w₂.sys.Follows aid bs False := by
  apply DeletionWorld.run_invariant (Sys.Follows aid bs False) (fun _ _ h => h.1) _ _ _ run h
  · intro s hs
    exact hs.reads.consistent.wired
  · intro w a s ok hw hs
    refine (hw.step ok.1 ?_ ?_ hs).1
    · intro t ht hopens
      exact ok.2 t ht (Task.reopens_of_opens hopens)
    · intro p b ht hof
      exact absurd (congrArg some hof) (ok.2 _ ht)
  · intro s db' hs hout
    exact hs.outside hout.steps hout.bookings

/-- A commit closes the activities it takes with it. -/
theorem closed_of_commit {index : Nat} (h : w₁.sys.Follows aid bs early)
    (hcall : w₁.calls[index]? = some d) (hdown : d.TakesDown w₁.sys.db aid)
    (hcommit : w₁.step env (.commit index) = some w₂)
    (htasks : ∀ t ∈ w₁.sys.inflight, t.opens = some aid → early) :
    w₂.sys.Closed aid bs early := by
  simp only [DeletionWorld.step, hcall, Option.map_some, Option.some.injEq] at hcommit
  subst hcommit
  have hout : Outside w₁.sys.db (d.commit w₁.sys.now w₁.sys.db) :=
    d.outside h.reads.consistent.wired
  exact ⟨h.outside hout.steps hout.bookings, hdown.gone, htasks⟩

/-- **After a deletion nothing opens**: in any run of the system with any deletions, a booking of
an activity that a deletion took with it is pending or confirmed only if the same booking was when
the deletion committed, or a creation or an orphan recovery for the activity was in flight then. -/
theorem nothing_opens_after_deletion {index : Nat} (hinit : Initial w₀.sys)
    (before : Run (DeletionWorld.step env) DeletionWorld.Plain w₀ w₁)
    (hcall : w₁.calls[index]? = some d) (hdown : d.TakesDown w₁.sys.db aid)
    (hcommit : w₁.step env (.commit index) = some w₂)
    (after : Run (DeletionWorld.step env) DeletionWorld.Plain w₂ w₃) :
    ∀ b ∈ w₃.sys.db.bookings.rows, b.activityId = aid → b.Open →
      (∃ t ∈ w₁.sys.inflight, t.opens = some aid) ∨
        ∃ b₀ ∈ w₁.sys.db.bookings.rows, b₀.Open ∧ b₀.core = b.core := by
  have hfollows : w₁.sys.Follows aid w₁.sys.db.bookings
      (∃ t ∈ w₁.sys.inflight, t.opens = some aid) :=
    ((reads_of_run hinit before).follows aid).mono _
  have hclosed := closed_of_commit hfollows hcall hdown hcommit
    (fun t ht hopens => ⟨t, ht, hopens⟩)
  intro b hb hof hopen
  exact (closed_of_run hclosed after).follows.row hb hof hopen

/-- The customer's request has read the activity, the vendor is deleted, and the booking is made
after that. -/
theorem nothing_opens_after_deletion_creation :
    ∃ w₁ w₃ : DeletionWorld, (∃ b ∈ w₃.sys.db.bookings.rows, b.activityId = 7 ∧ b.Open) ∧
      ∀ b ∈ w₃.sys.db.bookings.rows, b.activityId = 7 → b.Open →
        (∃ t ∈ w₁.sys.inflight, t.opens = some 7) ∨
          ∃ b₀ ∈ w₁.sys.db.bookings.rows, b₀.Open ∧ b₀.core = b.core := by
  have h : ((execAll (DeletionWorld.step marketEnv) DeletionWorld.Plain ⟨market, []⟩
      [.act (.begin (.createBooking 1 (marketRequest none) "R1")), .deleteVendor 4]).bind
      fun w₁ => (w₁.step marketEnv (.commit 0)).bind fun w₂ =>
        (execAll (DeletionWorld.step marketEnv) DeletionWorld.Plain w₂ [.act (.run 0)]).bind
          fun w₃ => if w₁.calls[0]? = some (.vendor 4 3) ∧
            (Deletion.vendor 4 3).TakesDown w₁.sys.db 7 ∧
            ∃ b ∈ w₃.sys.db.bookings.rows, b.activityId = 7 ∧ b.Open then some ()
          else none) = some () := by
    decide +kernel
  simp only [Option.bind_eq_some_iff, Option.ite_none_right_eq_some] at h
  obtain ⟨w₁, h₁, w₂, h₂, w₃, h₃, ⟨hcall, hdown, hopen⟩, _⟩ := h
  exact ⟨w₁, w₃, hopen, nothing_opens_after_deletion market_initial (.of_execAll _ h₁) hcall hdown
    h₂ (.of_execAll _ h₃)⟩

/-- The guard of `deleteVendor` has seen no open booking of the vendor. -/
theorem deleteVendorRead_resolved {vendorId : Id}
    (h : deleteVendorRead db vendorId = .ok (some d)) :
    ∀ b ∈ db.bookings.rows, b.vendorId = vendorId → ¬ b.Open := by
  simp only [deleteVendorRead, bind_eq_ok, orThrow_eq_ok] at h
  obtain ⟨vendor, _, h⟩ := h
  split at h
  · cases Except.ok.inj h
  · simp only [bind_eq_ok, ensure_eq_ok] at h
    obtain ⟨_, hnone, _⟩ := h
    intro b hb hof hopen
    have hlisted : b ∈ db.bookings.select (fun b => b.vendorId = vendorId ∧ b.Open) :=
      Table.mem_select.mpr ⟨hb, decide_eq_true ⟨hof, hopen⟩⟩
    rw [List.length_eq_zero_iff.mp hnone] at hlisted
    cases hlisted

/-- **A vendor that is deleted in peace has nothing unresolved, ever**: `deleteVendor` found no
unresolved booking, until its commit nothing opened one of the activity, and at the commit nothing
that could was in flight. -/
theorem deleted_vendor_resolved {index : Nat} {vendorId : Id} (hinit : Initial w₀.sys)
    (before : Run (DeletionWorld.step env) DeletionWorld.Plain w₀ w₁)
    (hread : deleteVendorRead w₁.sys.db vendorId = .ok (some d))
    (window : Run (DeletionWorld.step env) (fun w a => w.Plain a ∧ w.Quiet aid a) w₁ w₂)
    (hcall : w₂.calls[index]? = some d) (hdown : d.TakesDown w₂.sys.db aid)
    (hidle : ∀ t ∈ w₂.sys.inflight, t.opens ≠ some aid)
    (hcommit : w₂.step env (.commit index) = some w₃)
    (after : Run (DeletionWorld.step env) DeletionWorld.Plain w₃ w') :
    ∀ b ∈ w'.sys.db.bookings.rows, b.activityId = aid → b.vendorId = vendorId → ¬ b.Open := by
  have hfollows := follows_of_quiet ((reads_of_run hinit before).follows aid) window
  have hclosed := closed_of_commit hfollows hcall hdown hcommit hidle
  intro b hb hof hvendor hopen
  rcases (closed_of_run hclosed after).follows.row hb hof hopen with hno | ⟨b₀, hb₀, hopen₀, hcore⟩
  · exact hno
  · have hvendor₀ : b₀.vendorId = vendorId :=
      (congrArg Booking.vendorId hcore).trans hvendor
    exact deleteVendorRead_resolved hread b₀ hb₀ hvendor₀ hopen₀

/-- A customer books and cancels; then the vendor is deleted. -/
theorem deleted_vendor_resolved_cancelled :
    ∃ w' : DeletionWorld, w'.sys.db.activities.rows.all (fun a => a.deletedAt.isSome) = true ∧
      ∀ b ∈ w'.sys.db.bookings.rows, b.activityId = 7 → b.vendorId = 4 → ¬ b.Open := by
  have h : ((execAll (DeletionWorld.step marketEnv) DeletionWorld.Plain ⟨market, []⟩
      [.act (.begin (.createBooking 1 (marketRequest none) "R1")), .act (.run 0), .act (.run 0),
        .act (.begin (.cancelBooking 1 101)), .act (.run 0)]).bind fun w₁ =>
      (execAll (DeletionWorld.step marketEnv) (fun w a => w.Plain a ∧ w.Quiet 7 a) w₁
        [.deleteVendor 4, .act (.tick 5)]).bind fun w₂ =>
        (w₂.step marketEnv (.commit 0)).bind fun w₃ =>
          (execAll (DeletionWorld.step marketEnv) DeletionWorld.Plain w₃ [.act (.tick 5)]).bind
            fun w' => if deleteVendorRead w₁.sys.db 4 = .ok (some (.vendor 4 3)) ∧
              w₂.calls[0]? = some (.vendor 4 3) ∧ (Deletion.vendor 4 3).TakesDown w₂.sys.db 7 ∧
              (∀ t ∈ w₂.sys.inflight, t.opens ≠ some 7) ∧
              w'.sys.db.activities.rows.all (fun a => a.deletedAt.isSome) = true then some ()
            else none) = some () := by
    decide +kernel
  simp only [Option.bind_eq_some_iff, Option.ite_none_right_eq_some] at h
  obtain ⟨w₁, h₁, w₂, h₂, w₃, h₃, w', h', ⟨hread, hcall, hdown, hidle, hgone⟩, _⟩ := h
  exact ⟨w', hgone, deleted_vendor_resolved market_initial (.of_execAll _ h₁) hread
    (.of_execAll _ h₂) hcall hdown hidle h₃ (.of_execAll _ h')⟩

end Jadwal
