import Jadwal.Captures
import Jadwal.Signature

/-!
# The reaper and the holds

The stale-pending job scans first and claims later.  Its claim deletes a
row that is still `PENDING`, and only then returns the coupon and the points
of that row, so each return is made once and by the copy of the job that
deleted the row (`reapStale_reaps`).  The claim does not look at the
reservation again: a `NAPS` hold that extends it between the scan and the
claim is lost.  `cron_reaps` says which interleavings lose no hold.
-/

namespace Jadwal

open Outcome

variable {db db' : Db} {env : Env} {now : Instant}

/-! ## What the claims return -/

/-- The two tables coupons are counted in. -/
def SameCoupons (db db' : Db) : Prop :=
  db'.coupons = db.coupons ∧ db'.claimedCoupons = db.claimedCoupons

/-- Returns the coupon of each booking, once. -/
def refundCoupons (now : Instant) (db : Db) (claimed : List Booking) : Db :=
  claimed.foldl (fun db b => refundCouponUsage now db b.couponCode b.customerId) db

/-- A return of a coupon depends on the coupon tables alone. -/
theorem refundCouponUsage_congr {db₁ db₂ : Db} (h : SameCoupons db₁ db₂)
    (couponCode : Option String) (customerId : Id) :
    SameCoupons (refundCouponUsage now db₁ couponCode customerId)
      (refundCouponUsage now db₂ couponCode customerId) := by
  obtain ⟨hc, hk⟩ := h
  have hfind : couponCode.bind (findCoupon db₂) = couponCode.bind (findCoupon db₁) := by
    cases couponCode with
    | none => rfl
    | some code =>
        simp only [Option.bind_some, findCoupon]
        rw [hc]
  unfold refundCouponUsage
  rw [hfind]
  cases couponCode.bind (findCoupon db₁) with
  | none => exact ⟨hc, hk⟩
  | some coupon => exact ⟨by simp only [hc], by simp only [hk]⟩

/-- What is given back depends on the coupons alone. -/
theorem refundCoupons_congr (claimed : List Booking) : ∀ {db₁ db₂ : Db},
    SameCoupons db₁ db₂ →
    SameCoupons (refundCoupons now db₁ claimed) (refundCoupons now db₂ claimed) := by
  induction claimed with
  | nil => exact id
  | cons b claimed ih => exact fun h => ih (refundCouponUsage_congr h _ _)

/-- Returning points leaves the coupons. -/
theorem returnPointsOf_coupons {b : Booking} {source : LoyaltyLedgerSource}
    {actorType : LoyaltyActorType} {actorId : Option Id} {note : String}
    (h : returnPointsOf db b source actorType actorId note = .ok db') :
    SameCoupons db db' := by
  unfold returnPointsOf at h
  split at h
  · simp only [bind_eq_ok, pure_eq_ok] at h
    obtain ⟨r, hr, rfl⟩ := h
    obtain ⟨user, reason, -, hdb⟩ := (Loyalty.refund_posts hr).2.moved
    rw [hdb]
    exact ⟨rfl, rfl⟩
  · obtain rfl := Except.ok.inj h
    exact ⟨rfl, rfl⟩

/-- The claims of one run of the job: the claimed bookings are reservations
of the table, each of them is deleted, and for each the points and the coupon
are returned once; nothing else happens to bookings, ledger and coupons. -/
structure Reaps (now : Instant) (db : Db) (claimed : List Booking) (db' : Db) : Prop where
  reserved : ∀ b ∈ claimed, ∃ x, db.bookings.find? b.id = some x ∧ x.status = .pending
  distinct : (claimed.map Booking.id).Nodup
  deleted : db'.bookings = db.bookings.deleteMany (fun b => b.id ∈ claimed.map Booking.id)
  points : db'.entries =
    db.entries ++ claimed.flatMap (fun b => returnEntries b .cancelRefundUnpaid)
  coupons : SameCoupons (refundCoupons now db claimed) db'

/-- Nothing scanned, nothing cancelled. -/
theorem Reaps.nothing : Reaps now db [] db where
  reserved := by simp
  distinct := by simp
  deleted := Table.ext (by simp [Table.deleteMany])
  points := by simp
  coupons := ⟨rfl, rfl⟩

/-- One claim: nothing, or the delete and the returns of one reservation. -/
theorem reapOne_reaps {b : Booking} (h : reapOne now db b = .ok db') :
    (Reaps now db [] db' ∧ ¬ ∃ x, db.bookings.find? b.id = some x ∧ x.status = .pending) ∨
      Reaps now db [b] db' := by
  have hok := reapOne_ok h
  unfold reapOne at h
  split at h
  · rename_i hnone
    obtain rfl := Except.ok.inj h
    refine .inl ⟨.nothing, ?_⟩
    rintro ⟨x, hx, hst⟩
    rw [hx] at hnone
    simp [hst] at hnone
  · rename_i x hx
    rw [Option.filter_eq_some_iff] at hx
    have hst := of_decide_eq_true hx.2
    right
    rcases hok with ⟨hnot, -⟩ | ⟨-, e⟩
    · exact absurd hst (hnot x hx.1)
    · refine ⟨fun b' hb' => ?_, by simp, ?_, ?_, ?_⟩
      · rw [List.mem_singleton.mp hb']
        exact ⟨x, hx.1, hst⟩
      · rw [e.bookings]
        refine Table.ext (List.filter_congr fun a _ => ?_)
        simp only [List.map_cons, List.map_nil, List.mem_singleton]
        rfl
      · rw [e.writes.entries]
        simp
      · have hsame : SameCoupons db { db with bookings := db.bookings.delete b.id } :=
          ⟨rfl, rfl⟩
        obtain ⟨hc, hk⟩ := refundCouponUsage_congr hsame b.couponCode b.customerId
        obtain ⟨hc', hk'⟩ := returnPointsOf_coupons h
        exact ⟨hc'.trans hc, hk'.trans hk⟩

theorem mem_map_id {claimed : List Booking} {k : Id} :
    k ∈ claimed.map Booking.id ↔ ∃ b ∈ claimed, b.id = k := List.mem_map

/-- Claims after claims: a booking claimed before is not there any more. -/
theorem Reaps.trans {db'' : Db} {claimed claimed' : List Booking}
    (h : Reaps now db claimed db') (h' : Reaps now db' claimed' db'') :
    Reaps now db (claimed ++ claimed') db'' := by
  have hfind : ∀ b ∈ claimed', ∃ x, db.bookings.find? b.id = some x ∧
      x.status = .pending ∧ b.id ∉ claimed.map Booking.id := by
    intro b hb
    obtain ⟨x, hx, hst⟩ := h'.reserved b hb
    rw [h.deleted, Table.find?_deleteMany, Option.filter_eq_some_iff] at hx
    have hid : x.id = b.id := (Table.find?_eq_some.mp hx.1).2
    refine ⟨x, hx.1, hst, ?_⟩
    rw [← hid]
    simpa using hx.2
  refine ⟨fun b hb => ?_, ?_, ?_, ?_, ?_⟩
  · rcases List.mem_append.mp hb with hb | hb
    · exact h.reserved b hb
    · obtain ⟨x, hx, hst, -⟩ := hfind b hb
      exact ⟨x, hx, hst⟩
  · rw [List.map_append, List.nodup_append]
    refine ⟨h.distinct, h'.distinct, fun k hk k' hk' hkk => ?_⟩
    obtain ⟨b, hb, rfl⟩ := mem_map_id.mp hk'
    obtain ⟨_, _, _, hnot⟩ := hfind b hb
    exact hnot (hkk ▸ hk)
  · rw [h'.deleted, h.deleted]
    refine Table.ext ?_
    simp only [Table.deleteMany, List.filter_filter, List.map_append, List.mem_append]
    refine List.filter_congr fun b _ => ?_
    by_cases hb : b.id ∈ claimed.map Booking.id <;>
      by_cases hb' : b.id ∈ claimed'.map Booking.id <;> simp [hb, hb']
  · rw [h'.points, h.points, List.flatMap_append, List.append_assoc]
  · obtain ⟨hc, hk⟩ := refundCoupons_congr claimed' h.coupons
    rw [refundCoupons, List.foldl_append]
    exact ⟨h'.coupons.1.trans hc, h'.coupons.2.trans hk⟩

/-- The claims of a whole scan: every reservation of the scan that is still
one is claimed. -/
theorem reapAll_reaps : ∀ {stale : List Booking} {db db' : Db},
    forEach stale db (reapOne now) = .ok db' →
    ∃ claimed, Reaps now db claimed db' ∧ (∀ b ∈ claimed, b ∈ stale) ∧
      ∀ b ∈ stale, (∃ x, db.bookings.find? b.id = some x ∧ x.status = .pending) →
        b.id ∈ claimed.map Booking.id := by
  intro stale
  induction stale with
  | nil =>
      intro db db' h
      obtain rfl := Except.ok.inj h
      exact ⟨[], .nothing, by simp, by simp⟩
  | cons b stale ih =>
      intro db db' h
      simp only [forEach, bind_eq_ok] at h
      obtain ⟨db₁, h₁, h₂⟩ := h
      obtain ⟨claimed, hr, hsub, hall⟩ := ih h₂
      rcases reapOne_reaps h₁ with ⟨h₀, hnot⟩ | hb
      · refine ⟨[] ++ claimed, h₀.trans hr, fun b' hb' => ?_, fun b' hb' hx => ?_⟩
        · exact List.mem_cons_of_mem _ (hsub b' hb')
        · rcases List.mem_cons.mp hb' with rfl | hb'
          · exact absurd hx hnot
          · obtain ⟨x, hx, hst⟩ := hx
            refine hall b' hb' ⟨x, ?_, hst⟩
            rw [h₀.deleted, Table.find?_deleteMany, hx]
            simp
      · refine ⟨[b] ++ claimed, hb.trans hr, fun b' hb' => ?_, fun b' hb' hx => ?_⟩
        · rcases List.mem_append.mp hb' with hb' | hb'
          · rw [List.mem_singleton.mp hb']
            exact List.mem_cons_self
          · exact List.mem_cons_of_mem _ (hsub b' hb')
        · by_cases hid : b'.id = b.id
          · simp [hid]
          · rcases List.mem_cons.mp hb' with rfl | hb'
            · exact absurd rfl hid
            · obtain ⟨x, hx, hst⟩ := hx
              have hkept : db₁.bookings.find? b'.id = some x := by
                rw [hb.deleted, Table.find?_deleteMany, hx]
                have hxid := (Table.find?_eq_some.mp hx).2
                have : x.id ≠ b.id := fun h => hid (hxid.symm.trans h)
                simp [this]
              have := hall b' hb' ⟨x, hkept, hst⟩
              simp [this]

/-- The transaction of the job, committed or thrown. -/
theorem reapStale_reaps (stale : List Booking) :
    ∃ claimed, Reaps now db claimed (committed db (reapStale now db stale)) ∧
      (∀ b ∈ claimed, b ∈ stale) ∧
      (committed db (reapStale now db stale) ≠ db → ∀ b ∈ stale,
        (∃ x, db.bookings.find? b.id = some x ∧ x.status = .pending) →
          b.id ∈ claimed.map Booking.id) := by
  cases h : reapStale now db stale with
  | error e => exact ⟨[], .nothing, by simp, fun hne => absurd rfl hne⟩
  | ok db' =>
      simp only [reapStale, bind_eq_ok, pure_eq_ok] at h
      obtain ⟨db₁, h₁, rfl⟩ := h
      obtain ⟨claimed, hr, hsub, hall⟩ := reapAll_reaps h₁
      exact ⟨claimed, ⟨hr.reserved, hr.distinct, hr.deleted, hr.points, hr.coupons⟩, hsub,
        fun _ => hall⟩

/-! ## The other requests -/

/-- The tasks of callbacks, of payments being initiated and of the job. -/
def Task.Peer : Task → Prop
  | .initiate _ _ | .hold _ | .settle _ _ _ | .b2Check _ | .recreate _ _ _ _
  | .m6Check _ _ | .unCancel _ _ | .queueRefund _ _ | .reap _ => True
  | _ => False

/-- Callbacks, payments being initiated, and copies of the job. -/
def Request.Peer : Request → Prop
  | .handleCallback _ | .initiatePayment _ _ _ _ | .autoCancelStalePendingBookings => True
  | _ => False

/-- The requests the job runs against. -/
def Sys.CronPeer (_ : Sys) : Action → Prop
  | .begin request => request.Peer
  | _ => True

/-- The reservation lasts beyond the given instant. -/
def Booking.Held (now : Instant) (b : Booking) : Prop :=
  ∃ reservedUntil ∈ b.reservedUntil, now < reservedUntil

/-- The row is the one that was read, but for the reservation. -/
def Booking.SameButHold (x b : Booking) : Prop :=
  x = { b with reservedUntil := x.reservedUntil }

instance (now : Instant) (b : Booking) : Decidable (b.Held now) :=
  inferInstanceAs (Decidable (∃ reservedUntil ∈ b.reservedUntil, now < reservedUntil))

/-- A callback is no second reaper. -/
theorem callbackRead_peer {params : CallbackParams} {t : Task}
    (h : callbackRead env db params = .ok (some t)) :
    t.Peer ∧ ∀ stale, t ≠ .reap stale := by
  simp only [callbackRead, bind_eq_ok, ensure_eq_ok, orThrow_eq_ok] at h
  obtain ⟨_, _, p, _, h⟩ := h
  split at h
  · obtain rfl := Option.some.inj (Except.ok.inj h)
    exact ⟨trivial, fun _ h => by cases h⟩
  · obtain rfl := Option.some.inj (Except.ok.inj h)
    exact ⟨trivial, fun _ h => by cases h⟩
  · cases h
  all_goals cases Except.ok.inj h

/-- What a request of the three puts in flight: a scan is of the rows as they
are. -/
theorem Request.Peer.read {request : Request} (hp : request.Peer) {t : Task}
    (h : request.read env now db = .ok (some t)) :
    t.Peer ∧ ∀ stale, t = .reap stale →
      request = .autoCancelStalePendingBookings ∧ stale = staleBookings env now db := by
  cases request with
  | handleCallback params =>
      obtain ⟨ht, hne⟩ := callbackRead_peer h
      exact ⟨ht, fun stale hs => absurd hs (hne stale)⟩
  | initiatePayment bookingId userId key basketId =>
      simp only [Request.read, bind_eq_ok, pure_eq_ok] at h
      obtain ⟨r, _, h⟩ := h
      obtain rfl := Option.some.inj h
      exact ⟨trivial, fun _ h => by cases h⟩
  | autoCancelStalePendingBookings =>
      simp only [Request.read] at h
      split at h
      · cases Except.ok.inj h
      · obtain rfl := Option.some.inj (Except.ok.inj h)
        exact ⟨trivial, fun stale hs => ⟨rfl, (Task.reap.inj hs).symm⟩⟩
  | _ => cases hp

/-- A task of a recovery: one of the three, and no scan. -/
def Task.Recovery (t : Task) : Prop := t.Peer ∧ ∀ stale, t ≠ .reap stale

theorem Task.Recovery.of_recovers {t : Task} {p : Id} (h : t.recovers = some p) :
    t.Recovery := by
  cases t with
  | b2Check p => exact ⟨trivial, fun _ h => by cases h⟩
  | recreate p amount bookingId s => exact ⟨trivial, fun _ h => by cases h⟩
  | m6Check p k => exact ⟨trivial, fun _ h => by cases h⟩
  | unCancel p b => exact ⟨trivial, fun _ h => by cases h⟩
  | queueRefund p amount => exact ⟨trivial, fun _ h => by cases h⟩
  | _ => cases h

/-- What a settlement leaves to do is the recovery of its payment. -/
theorem afterSettle_recovers {payment : Payment} {mode : Option RecoveryMode} {t : Task}
    (h : afterSettle payment mode = some t) : t.recovers = some payment.id := by
  cases mode with
  | none => cases h
  | some mode =>
      cases mode with
      | b2Orphan =>
          obtain rfl := Option.some.inj h
          rfl
      | m6SystemCancelled =>
          obtain ⟨k, _, rfl⟩ := Option.map_eq_some_iff.mp h
          rfl
      | cancelledRefund =>
          obtain rfl := Option.some.inj h
          rfl

/-- The task a task of the three leaves recovers a payment. -/
theorem Task.Peer.next {t t' : Task} (hp : t.Peer) (h : (t.run env now db).2 = some t') :
    t'.Recovery := by
  cases t with
  | initiate r basketId => cases h
  | hold bookingId => cases h
  | settle payment params isSuccess =>
      simp only [Task.run] at h
      split at h
      · cases h
      · exact .of_recovers (afterSettle_recovers h)
  | b2Check p =>
      simp only [Task.run] at h
      split at h
      · cases h
      · obtain rfl := Option.some.inj h
        exact .of_recovers rfl
      · obtain rfl := Option.some.inj h
        exact .of_recovers rfl
  | recreate p amount bookingId s =>
      simp only [Task.run] at h
      split at h
      · obtain rfl := Option.some.inj h
        exact .of_recovers rfl
      · obtain rfl := Option.some.inj h
        exact .of_recovers rfl
      · cases h
  | m6Check p k =>
      simp only [Task.run] at h
      split at h
      · cases h
      · obtain rfl := Option.some.inj h
        exact .of_recovers rfl
      · obtain rfl := Option.some.inj h
        exact .of_recovers rfl
  | unCancel p b =>
      simp only [Task.run] at h
      split at h
      · obtain ⟨q, _, rfl⟩ := Option.map_eq_some_iff.mp h
        exact .of_recovers rfl
      · cases h
  | queueRefund p amount => cases h
  | reap stale => cases h
  | _ => cases hp

/-! ## Reservations -/

/-- Every reservation of the new table is one of the old table. -/
def KeepsPending (bs bs' : Table Booking) : Prop :=
  ∀ x ∈ bs'.rows, x.status = .pending → x ∈ bs.rows

theorem KeepsPending.refl (bs : Table Booking) : KeepsPending bs bs := fun _ hx _ => hx

/-- Deleting bookings brings no reservation back. -/
theorem KeepsPending.deleteMany {bs : Table Booking} {p : Booking → Bool} :
    KeepsPending bs (bs.deleteMany p) := fun _ hx _ => (Table.mem_deleteMany.mp hx).1

/-- An update that leaves no reservation behind. -/
theorem KeepsPending.update {bs : Table Booking} {k : Id} {f : Booking → Booking}
    {hf : ∀ b, Keyed.key (f b) = Keyed.key b} (h : ∀ b, (f b).status ≠ .pending) :
    KeepsPending bs (bs.update k f hf) := by
  intro x hx hst
  obtain ⟨b, hb, rfl⟩ := Table.mem_update.mp hx
  split at hst
  · exact absurd hst (h b)
  · rename_i hne
    rw [if_neg hne]
    exact hb

/-- Neither does inserting one that is not pending. -/
theorem KeepsPending.insert {bs bs' : Table Booking} {b : Booking} (hb : b.status ≠ .pending)
    (h : bs.insert? b = some bs') : KeepsPending bs bs' := by
  intro x hx hst
  rcases (Table.mem_of_insert? h).mp hx with hx | rfl
  · exact hx
  · exact absurd hst hb

/-- An update of the file sets the status of the booking. -/
theorem Refiles.status {f : Booking → Booking} {g : BookingFile → BookingFile}
    {status : BookingStatus} (h : Refiles f g) (hg : ∀ b, (g b).status = status) (b : Booking) :
    (f b).status = status := by
  rw [← hg b.file, ← h b]
  rfl

/-- A callback makes no booking pending. -/
theorem settleTx_pending {payment : Payment} {params : CallbackParams} {isSuccess : Bool}
    {s : Settled} (h : settleTx now db payment params isSuccess = .ok s) :
    KeepsPending db.bookings s.db.bookings := by
  unfold settleTx at h
  split at h
  · rcases settleSuccess_ok h with ⟨hdb, -⟩ | hs
    · rw [hdb]
      exact .refl _
    · obtain ⟨k, fp, hp, -, -, ⟨-, -, e⟩ | ⟨-, -, -, -, e⟩ | ⟨b, fb, hb, -, -, -, hfb, -, e⟩⟩ :=
        hs.effect
      · rw [e.bookings]
        exact .refl _
      · rw [e.bookings]
        exact .refl _
      · rw [e.bookings]
        refine .update fun b => ?_
        rw [hfb.status (fun _ => rfl) b]
        decide
  · rcases settleFailure_ok h with ⟨hdb, -⟩ | hs
    · rw [hdb]
      exact .refl _
    · obtain ⟨_, _, _, ⟨_, e⟩ | ⟨_, _, _, _, e⟩⟩ := hs.effect
      · rw [e.bookings]
        exact .refl _
      · rw [e.bookings]
        exact .deleteMany

/-- Neither does a recovery. -/
theorem b2Recreate_pending {pid : Id} {bookingId : Option Id} {s : BookingSnapshot}
    {kind : RecoveryKind} (h : b2Recreate now db pid bookingId s = .ok (db', kind)) :
    KeepsPending db.bookings db'.bookings := by
  rcases b2Recreate_ok h with ⟨_, rfl⟩ | ⟨_, ⟨_, _, _, _, e⟩ | ⟨_, hrec, _⟩⟩
  · exact .refl _
  · rw [e.bookings]
    exact .refl _
  · refine .insert ?_ hrec.inserted
    change BookingStatus.confirmed ≠ .pending
    decide

/-- **The three make no reservation**, and only a hold moves one. -/
theorem Task.Peer.pending {t : Task} (hp : t.Peer) :
    KeepsPending db.bookings (t.run env now db).1.bookings ∨
      ∃ k, t = .hold (some k) := by
  cases t with
  | initiate r basketId =>
      left
      change KeepsPending db.bookings (committed db (initiateWrite now db r basketId)).bookings
      cases h : initiateWrite now db r basketId with
      | error e => exact .refl _
      | ok db' =>
          simp only [initiateWrite, bind_eq_ok, pure_eq_ok] at h
          obtain ⟨_, _, _, _, _, _, rfl⟩ := h
          exact .refl _
  | hold bookingId =>
      cases bookingId with
      | none =>
          left
          intro x hx _
          change x ∈ (db.bookings.updateMany _ (Booking.holdUntil (now + 30 * minute))
            (fun _ => rfl)).rows at hx
          obtain ⟨b, hb, rfl⟩ := Table.mem_updateMany.mp hx
          simpa using hb
      | some k => exact .inr ⟨k, rfl⟩
  | settle payment params isSuccess =>
      left
      simp only [Task.run]
      split
      · exact .refl _
      · rename_i htx
        exact settleTx_pending htx
  | b2Check p =>
      left
      simp only [Task.run]
      split <;> exact .refl _
  | recreate p amount bookingId s =>
      left
      simp only [Task.run]
      split
      · exact .refl _
      · rename_i htx
        exact b2Recreate_pending htx
      · rename_i htx
        exact b2Recreate_pending htx
  | m6Check p k =>
      left
      simp only [Task.run]
      split <;> exact .refl _
  | unCancel p b =>
      left
      simp only [Task.run]
      split
      · exact .refl _
      · rename_i htx
        rcases m6UnCancel_ok htx with ⟨-, rfl, -⟩ | ⟨-, -, fb, hb, e, hfb, -⟩
        · exact .refl _
        · rw [e.bookings]
          refine .update fun b => ?_
          rw [hfb.status (fun _ => rfl) b]
          decide
  | queueRefund p amount => exact .inl (.refl _)
  | reap stale =>
      left
      obtain ⟨claimed, hr, -⟩ := @reapStale_reaps db now stale
      change KeepsPending db.bookings (committed db (reapStale now db stale)).bookings
      rw [hr.deleted]
      exact .deleteMany
  | _ => cases hp

/-- A hold moves the reservation of one booking that has one. -/
theorem holdNapsSuccess_mem {k : Id} {x : Booking}
    (h : x ∈ (holdNapsSuccess now db (some k)).bookings.rows) :
    x ∈ db.bookings.rows ∨ ∃ y ∈ db.bookings.rows, y.id = k ∧ y.status = .pending ∧
      y.reservedUntil ≠ none ∧ x = y.holdUntil (now + 30 * minute) := by
  change x ∈ (db.bookings.updateMany _ (Booking.holdUntil (now + 30 * minute))
    (fun _ => rfl)).rows at h
  obtain ⟨y, hy, rfl⟩ := Table.mem_updateMany.mp h
  split
  · rename_i hc
    obtain ⟨hk, hst, r, hr, -⟩ := of_decide_eq_true hc
    refine .inr ⟨y, hy, (Option.some.inj hk).symm, hst, ?_, rfl⟩
    rw [Option.mem_def.mp hr]
    simp
  · exact .inl hy

/-! ## What a scan in flight can rely on -/

/-- What was read of a booking is true of its row, as long as that is a
reservation. -/
def Scanned (P : Instant → Booking → Booking → Prop) (s : Sys) : Prop :=
  ∀ stale, Task.reap stale ∈ s.inflight → ∀ b ∈ stale, ∀ x ∈ s.db.bookings.rows,
    x.id = b.id → x.status = .pending → P s.now x b

def Peers (s : Sys) : Prop := ∀ t ∈ s.inflight, t.Peer

/-- The scan reads stale bookings of the table. -/
theorem mem_staleBookings {b : Booking} (h : b ∈ staleBookings env now db) :
    b ∈ db.bookings.rows ∧ isStale env now db b = true := by
  have hmem := List.mem_of_mem_take h
  rw [List.mem_insertionSort] at hmem
  exact Table.mem_select.mp hmem

/-- One step keeps the tasks in flight apart from the reaper. -/
theorem Peers.step {s s' : Sys} {a : Action} (h : Peers s) (ha : s.CronPeer a)
    (hstep : s.step env a = some s') : Peers s' := by
  rcases Sys.step_cases hstep with ⟨elapsed, rfl, rfl⟩ | ⟨request, t, rfl, hread, rfl⟩ |
    ⟨index, t, rfl, ht, rfl⟩
  · exact h
  · intro t' ht'
    rcases List.mem_append.mp ht' with ht' | ht'
    · exact h t' ht'
    · rw [List.mem_singleton.mp ht']
      exact (Request.Peer.read ha hread).1
  · intro t' ht'
    rcases Sys.mem_ran ht' with ht' | ht'
    · exact h t' (List.mem_of_mem_eraseIdx ht')
    · exact ((h t (List.mem_of_getElem? ht)).next ht').1

/-- A fact about scanned rows that time does not undo is kept by every step,
when new scans have it and holds keep it. -/
theorem Scanned.step {P : Instant → Booking → Booking → Prop} {s s' : Sys} {a : Action}
    (h : Scanned P s) (hp : Peers s) (ha : s.CronPeer a) (hstep : s.step env a = some s')
    (later : ∀ now now' x b, now ≤ now' → P now x b → P now' x b)
    (scans : a = .begin .autoCancelStalePendingBookings →
      ∀ b ∈ staleBookings env s.now s.db, P s.now b b)
    (holds : ∀ k, s.task? a = some (.hold (some k)) → ∀ stale, Task.reap stale ∈ s.inflight →
      ∀ b ∈ stale, b.id = k → ∀ x ∈ s.db.bookings.rows, x.id = k → x.status = .pending →
        x.reservedUntil ≠ none → P s.now x b → P s.now (x.holdUntil (s.now + 30 * minute)) b) :
    Scanned P s' := by
  rcases Sys.step_cases hstep with ⟨elapsed, rfl, rfl⟩ | ⟨request, t, rfl, hread, rfl⟩ |
    ⟨index, t, rfl, ht, rfl⟩
  · intro stale hs b hb x hx hid hst
    exact later _ _ _ _ (by simp) (h stale hs b hb x hx hid hst)
  · intro stale hs b hb x hx hid hst
    rcases List.mem_append.mp hs with hs | hs
    · exact h stale hs b hb x hx hid hst
    · obtain ⟨rfl, rfl⟩ := (Request.Peer.read ha hread).2 stale (List.mem_singleton.mp hs).symm
      obtain rfl := Table.key_inj hx (mem_staleBookings hb).1 hid
      exact scans rfl x hb
  · intro stale hs b hb x hx hid hst
    have hpeer := hp t (List.mem_of_getElem? ht)
    have hold : Task.reap stale ∈ s.inflight := by
      rcases Sys.mem_ran hs with hs | hs
      · exact List.mem_of_mem_eraseIdx hs
      · exact absurd rfl ((hpeer.next hs).2 stale)
    rcases hpeer.pending with hkeep | ⟨k, rfl⟩
    · exact h stale hold b hb x (hkeep x hx hst) hid hst
    · rcases holdNapsSuccess_mem hx with hx | ⟨y, hy, hk, hyst, hres, rfl⟩
      · exact h stale hold b hb x hx hid hst
      · have hidb : b.id = k := by rw [← hid]; exact hk
        exact holds k ht stale hold b hb hidb y hy hk hyst hres
          (h stale hold b hb y hy (hk.trans hidb.symm) hyst)

/-! ## Runs -/

/-- The condition on a step: a scan takes only reservations that have lapsed,
and no hold extends a scanned reservation before it is claimed. -/
structure Sys.HoldsKept (env : Env) (s : Sys) (a : Action) : Prop where
  scans : a = .begin .autoCancelStalePendingBookings →
    ∀ b ∈ staleBookings env s.now s.db, ¬ b.Held s.now
  holds : ∀ k, s.task? a = some (.hold (some k)) → ∀ stale, Task.reap stale ∈ s.inflight →
    ∀ b ∈ stale, b.id = k → ∀ x ∈ s.db.bookings.rows, x.id = k → x.status = .pending →
      x.reservedUntil = none

/-- The claim of a scan in flight settles each reservation it deletes once,
for the row it deletes. -/
def SettlesOnce (env : Env) (s : Sys) : Prop :=
  ∀ stale, Task.reap stale ∈ s.inflight →
    ∃ claimed, Reaps s.now s.db claimed (Task.run env s.now s.db (.reap stale)).1 ∧
      (∀ b ∈ claimed, b ∈ stale) ∧
      ∀ b ∈ claimed, ∀ x ∈ s.db.bookings.rows, x.id = b.id → x.SameButHold b

/-- The claim of a scan in flight leaves the bookings that are held. -/
def KeepsHolds (env : Env) (s : Sys) : Prop :=
  ∀ stale, Task.reap stale ∈ s.inflight → ∀ x ∈ s.db.bookings.rows, x.Held s.now →
    x ∈ (Task.run env s.now s.db (.reap stale)).1.bookings.rows

/-- Bookings as scanned, but for their hold, are settled once. -/
theorem Scanned.settlesOnce {s : Sys} (h : Scanned (fun _ => Booking.SameButHold) s) :
    SettlesOnce env s := by
  intro stale hs
  obtain ⟨claimed, hr, hsub, -⟩ := @reapStale_reaps s.db s.now stale
  refine ⟨claimed, hr, hsub, fun b hb x hx hid => ?_⟩
  obtain ⟨y, hy, hst⟩ := hr.reserved b hb
  obtain ⟨hmem, hyid⟩ := Table.find?_eq_some.mp hy
  obtain rfl := Table.key_inj hx hmem (hid.trans hyid.symm)
  exact h stale hs b (hsub b hb) x hx hid hst

/-- Bookings not held at the scan are cancelled rightly. -/
theorem Scanned.keepsHolds {s : Sys} (h : Scanned (fun now x _ => ¬ x.Held now) s) :
    KeepsHolds env s := by
  intro stale hs x hx held
  obtain ⟨claimed, hr, hsub, -⟩ := @reapStale_reaps s.db s.now stale
  change x ∈ (committed s.db (reapStale s.now s.db stale)).bookings.rows
  rw [hr.deleted, Table.mem_deleteMany]
  refine ⟨hx, ?_⟩
  rw [decide_eq_false_iff_not, mem_map_id]
  rintro ⟨b, hb, hid⟩
  obtain ⟨y, hy, hst⟩ := hr.reserved b hb
  obtain ⟨hmem, hyid⟩ := Table.find?_eq_some.mp hy
  obtain rfl := Table.key_inj hx hmem (hid.symm.trans hyid.symm)
  exact h stale hs b (hsub b hb) x hx hid.symm hst held

/-- **The job against callbacks, payments being initiated and other copies of
itself**, from any state of the database: every run settles each reservation
it deletes once, and runs in which no scan takes a reservation that still
lasts, and no hold extends a scanned one, delete no booking that is held. -/
theorem cron_reaps {env : Env} {s₀ : Sys} (h : s₀.inflight = []) :
    (∀ s, Run (Sys.step env) Sys.CronPeer s₀ s → SettlesOnce env s) ∧
    (∀ s, Run (Sys.step env) (fun s a => s.CronPeer a ∧ s.HoldsKept env a) s₀ s →
      SettlesOnce env s ∧ KeepsHolds env s) := by
  have hpeers : Peers s₀ := by simp [Peers, h]
  have hscanned : ∀ P, Scanned P s₀ := by simp [Scanned, h]
  have hsettles : ∀ s, Run (Sys.step env) Sys.CronPeer s₀ s → SettlesOnce env s := by
    intro s run
    have hinv : Peers s ∧ Scanned (fun _ => Booking.SameButHold) s := by
      refine run.invariant (fun s => Peers s ∧ Scanned (fun _ => Booking.SameButHold) s)
        (fun s a s' ⟨hp, hs⟩ ha hstep => ⟨hp.step ha hstep, ?_⟩) ⟨hpeers, hscanned _⟩
      refine hs.step hp ha hstep (fun _ _ _ _ _ h => h) (fun _ b _ => rfl) ?_
      intro k _ stale _ b _ _ x _ _ _ _ hsame
      rw [Booking.SameButHold] at hsame ⊢
      rw [hsame]
      rfl
    exact hinv.2.settlesOnce
  refine ⟨hsettles, fun s run => ⟨hsettles s (run.mono fun _ _ h => h.1), ?_⟩⟩
  have hinv : Peers s ∧ Scanned (fun now x _ => ¬ x.Held now) s := by
    refine run.invariant (fun s => Peers s ∧ Scanned (fun now x _ => ¬ x.Held now) s)
      (fun s a s' ⟨hp, hs⟩ ⟨ha, hk⟩ hstep => ⟨hp.step ha hstep, ?_⟩) ⟨hpeers, hscanned _⟩
    refine hs.step hp ha hstep (fun now now' x _ hle hx hheld => hx ?_) hk.scans ?_
    · obtain ⟨r, hr, hlt⟩ := hheld
      exact ⟨r, hr, lt_of_le_of_lt hle hlt⟩
    · intro k ht stale hstale b hb hid x hx hxk hst hres
      exact absurd (hk.holds k ht stale hstale b hb hid x hx hxk hst) hres
  exact hinv.2.keepsHolds

/-- The market of a gateway that signs `NAPS` successes for one basket. -/
def napsEnv : Env :=
  { marketEnv with sha256 := markedDigest (signedText marketEnv "B1" .naps "100" "00") }

/-- A signed `NAPS` success. -/
def napsCallback : CallbackParams where
  errCode := "00"
  basketId := "B1"
  responseKey := responseKeyOf napsEnv "B1" .naps "100" "00"

/-- A reservation whose payment was sent to the gateway three hours ago. -/
def abandonedRun : List Action :=
  [.begin (.createBooking 1 (marketRequest none) "R1"), .run 0, .run 0,
    .begin (.initiatePayment 101 1 none "B1"), .run 0, .tick (3 * 3600000)]

/-- A scan of lapsed reservations is settled without losing a hold. -/
theorem cron_reaps_abandoned :
    ∃ s₀ s, Run (Sys.step marketEnv) (fun _ _ => True) market s₀ ∧
      Run (Sys.step marketEnv) (fun s a => s.CronPeer a ∧ s.HoldsKept marketEnv a) s₀ s ∧
      s.inflight ≠ [] ∧ SettlesOnce marketEnv s ∧ KeepsHolds marketEnv s := by
  obtain ⟨s₀, run, h⟩ := @Run.of_execAll_test _ _ (Sys.step marketEnv) (fun _ _ => True) _
    abandonedRun market (fun s => s.inflight.isEmpty &&
      (s.step marketEnv (.begin .autoCancelStalePendingBookings)).any
        (fun s' => !s'.inflight.isEmpty) &&
      decide (∀ b ∈ staleBookings marketEnv s.now s.db, ¬ b.Held s.now)) (by decide +kernel)
  rw [Bool.and_eq_true, Bool.and_eq_true, List.isEmpty_iff] at h
  obtain ⟨⟨hidle, hscan⟩, hlapsed⟩ := h
  obtain ⟨s, hs, hbusy⟩ := (Option.any_eq_true _ _).mp hscan
  have hkept : s₀.HoldsKept marketEnv (.begin .autoCancelStalePendingBookings) :=
    ⟨fun _ => of_decide_eq_true hlapsed, fun k hk => by cases hk⟩
  have later : Run (Sys.step marketEnv)
      (fun s a => s.CronPeer a ∧ s.HoldsKept marketEnv a) s₀ s := by
    refine .snoc (.nil _) ⟨?_, hkept⟩ hs
    exact trivial
  refine ⟨s₀, s, run, later, fun hempty => ?_, (cron_reaps hidle).2 s later⟩
  rw [hempty] at hbusy
  cases hbusy

/-- What the service reads of a signed `NAPS` success: a hold. -/
theorem napsCallback_read {db : Db} {payment : Payment}
    (hfind : findByBasket db "B1" = some payment) (hamount : payment.amount = 10000)
    (hst : payment.status = .pending) (hk : payment.bookingId = some 101) :
    callbackRead napsEnv db napsCallback = .ok (some (.hold (some 101))) := by
  have hd : Digests napsEnv "B1" 10000 "00" (signedText napsEnv "B1" .naps "100" "00") :=
    markedDigest_digests rfl
  have hresolve : resolveSignedErrCode napsEnv "B1" 10000 "00"
      (responseKeyOf napsEnv "B1" .naps "100" "00") = some ("00", .naps) := by
    rw [resolve_eq hd]
    decide +kernel
  have hclass : classifyCallback napsEnv payment napsCallback = .hold := by
    have hunpaid : payment.status ≠ .success := by rw [hst]; decide
    rw [classifyCallback, if_neg hunpaid]
    change browserVerdict payment.status (resolveSignedErrCode napsEnv "B1" payment.amount
      "00" (responseKeyOf napsEnv "B1" .naps "100" "00")) = .hold
    rw [hamount, hresolve, hst]
    decide
  simp only [callbackRead, bind_eq_ok, ensure_eq_ok, orThrow_eq_ok]
  refine ⟨⟨⟩, rfl, payment, hfind, ?_⟩
  rw [hclass, hk]
  rfl

/-- A scan that finds something starts a reap. -/
theorem scan_step {s : Sys} (h : staleBookings env s.now s.db ≠ []) :
    s.step env (.begin .autoCancelStalePendingBookings) =
      some { s with inflight := s.inflight ++ [.reap (staleBookings env s.now s.db)] } := by
  simp only [Sys.step, Request.read]
  cases hs : staleBookings env s.now s.db with
  | nil => exact absurd hs h
  | cons b stale => rfl

/-- The job scans an abandoned reservation, a signed `NAPS` success extends
it, and the job deletes it. -/
theorem naps_hold_lost :
    ∃ s₀ s, Run (Sys.step napsEnv) (fun _ _ => True) market s₀ ∧ s₀.inflight = [] ∧
      Run (Sys.step napsEnv) Sys.CronPeer s₀ s ∧ ¬ KeepsHolds napsEnv s := by
  obtain ⟨s₀, run, h⟩ := @Run.of_execAll_test _ _ (Sys.step napsEnv) (fun _ _ => True) _
    abandonedRun market (fun s => s.inflight.isEmpty &&
      !(staleBookings napsEnv s.now s.db).isEmpty &&
      (findByBasket s.db "B1").any (fun payment => payment.amount = 10000 ∧
        payment.status = .pending ∧ payment.bookingId = some 101) &&
      (Sys.step napsEnv { s with
          inflight := [.reap (staleBookings napsEnv s.now s.db), .hold (some 101)] }
        (.run 1)).any (fun s' => s'.db.bookings.rows.any (fun x => x.Held s'.now ∧
          x ∉ (Task.run napsEnv s'.now s'.db
            (.reap (staleBookings napsEnv s.now s.db))).1.bookings.rows))) (by decide +kernel)
  rw [Bool.and_eq_true, Bool.and_eq_true, Bool.and_eq_true, List.isEmpty_iff] at h
  obtain ⟨⟨⟨hidle, hstale⟩, hpay⟩, hlost⟩ := h
  obtain ⟨payment, hfind, htest⟩ := (Option.any_eq_true _ _).mp hpay
  obtain ⟨hamount, hst, hk⟩ := of_decide_eq_true htest
  obtain ⟨s, hs, hx⟩ := (Option.any_eq_true _ _).mp hlost
  obtain ⟨x, hmem, hx⟩ := List.any_eq_true.mp hx
  obtain ⟨held, hgone⟩ := of_decide_eq_true hx
  have hscan : s₀.step napsEnv (.begin .autoCancelStalePendingBookings) =
      some { s₀ with inflight := [.reap (staleBookings napsEnv s₀.now s₀.db)] } := by
    rw [scan_step (by simpa using hstale), hidle]
    rfl
  have hread : Sys.step napsEnv
      { s₀ with inflight := [.reap (staleBookings napsEnv s₀.now s₀.db)] }
      (.begin (.handleCallback napsCallback)) = some { s₀ with
        inflight := [.reap (staleBookings napsEnv s₀.now s₀.db), .hold (some 101)] } := by
    simp only [Sys.step, Request.read, napsCallback_read hfind hamount hst hk]
    rfl
  have later : Run (Sys.step napsEnv) Sys.CronPeer s₀ s := by
    refine .snoc (.snoc (.snoc (.nil _) ?_ hscan) ?_ hread) ?_ hs <;> exact trivial
  refine ⟨s₀, s, run, hidle, later, fun hkeeps => hgone (hkeeps _ ?_ x hmem held)⟩
  obtain rfl := Option.some.inj hs
  exact List.mem_append_left _ List.mem_cons_self

end Jadwal
