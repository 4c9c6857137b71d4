import Jadwal.Payout

/-!
# Marking payouts paid

`markPayoutsPaid` as one call: the statements of the payout module in the
order the handler issues them, and the report it derives from two counts.

The handler refuses a whole batch over one payment it may not settle, so
that a wire that has left is never recorded in part without a word.
`marks_exactly` says which batches it refuses, that every other batch
settles exactly the payments that are due, and that the counts raise the
alarm exactly when some listed payment is not covered by the wire.
-/

namespace Jadwal

open Outcome

/-! ## The call -/

/-- The alert of a wire that covers only a part of its batch. -/
structure PartialSettlement where
  requested : Nat
  marked : Nat
  settledByThisWire : Nat
  bankTransferRef : String
  deriving DecidableEq, Repr

/-- The payments that are left to reconcile by hand. -/
def PartialSettlement.unmarked (s : PartialSettlement) : Nat :=
  s.requested - s.settledByThisWire

def PartialSettlement.message (s : PartialSettlement) : String :=
  "A bank transfer (" ++ s.bankTransferRef ++ ") covered " ++ toString s.requested ++
    " payment(s) but only " ++ toString s.settledByThisWire ++ " are PAID against it. The " ++
    "remaining " ++ toString s.unmarked ++ " changed state mid-operation and must be " ++
    "reconciled by hand."

/-- What `markPayoutsPaid` leaves: the database, the count it returns, and
the alert it raised. -/
structure MarkedPaid where
  db : Db
  updated : Nat
  shortfall : Option PartialSettlement

/-- The payment's activity has cleared the settlement buffer. -/
def Db.outOfEscrow (config : PayoutConfig) (now : Instant) (db : Db) (q : Payment) : Bool :=
  ∃ b ∈ db.bookingOf q.id, b.endDatetime < config.cutoff now

/-- `payoutStatus: 'PAID', bankTransferRef`: recorded under a wire. -/
def Payment.settledBy (bankTransferRef : String) (q : Payment) : Bool :=
  q.payoutStatus = .paid ∧ q.bankTransferRef = some bankTransferRef

/-- `markPayoutsPaid`, the payments recorded under the wire after the update. -/
def settledByThisWire (db : Db) (paymentIds : List Id) (bankTransferRef : String) :
    List Payment :=
  db.payments.select (fun q => q.id ∈ paymentIds ∧ q.settledBy bankTransferRef)

/-- `markPayoutsPaid` from the update on: the write, the probe after it and
the alert. -/
def recordWire (config : PayoutConfig) (now : Instant) (db : Db) (paymentIds : List Id)
    (bankTransferRef : String) : MarkedPaid :=
  let settledNow := db.payments.select (fun q =>
    q.id ∈ paymentIds ∧ q.payable ∧ db.outOfEscrow config now q)
  let db' := paidWrite config now db paymentIds bankTransferRef
  let settled := (settledByThisWire db' paymentIds (trimmed bankTransferRef)).length
  -- a repeated id is one payment, not a missing one
  let requestedCount := paymentIds.dedup.length
  { db := db'
    updated := settledNow.length
    shortfall :=
      if settled < requestedCount then
        some ⟨requestedCount, settledNow.length, settled, trimmed bankTransferRef⟩
      else none }

/-- `markPayoutsPaid`. -/
def markPayoutsPaid (config : PayoutConfig) (now : Instant) (db : Db) (paymentIds : List Id)
    (bankTransferRef : String) : Tx MarkedPaid := do
  let vendors ← paidVendors db paymentIds
  paidBlockers db vendors bankTransferRef
  paidEscrow config now db paymentIds
  return recordWire config now db paymentIds bankTransferRef

/-! ## What a batch is refused for -/

/-- The vendor of a payment's booking. -/
def Db.vendorOf (db : Db) (q : Payment) : Option Vendor :=
  (db.bookingOf q.id).bind (fun b => db.vendors.find? b.vendorId)

/-- An in-flight request of its vendor locks the payment: a pending request
locks all of the vendor's payments, an approved one those it names. -/
def Db.locked (db : Db) (q : Payment) : Bool :=
  ∃ v ∈ db.vendorOf q, ∃ r ∈ db.payoutRequests.rows, r.vendorId = v.id ∧
    (r.status = .pending ∨ (r.status = .approved ∧ q.id ∈ r.paymentIds))

/-- The payments a batch lists. -/
def Db.listed (db : Db) (paymentIds : List Id) : List Payment :=
  db.payments.select (fun q => q.id ∈ paymentIds)

/-- An in-flight request the batch has loaded holds the payment: one of its
own vendor, or an approved one of another vendor of the batch. -/
def Db.held (db : Db) (paymentIds : List Id) (q : Payment) : Bool :=
  ∃ v ∈ db.vendorOf q,
    (∃ r ∈ db.payoutRequests.rows, r.vendorId = v.id ∧ r.status = .pending) ∨
      ∃ r ∈ db.payoutRequests.rows, r.status = .approved ∧ q.id ∈ r.paymentIds ∧
        ∃ q' ∈ db.listed paymentIds, ∃ v' ∈ db.vendorOf q', r.vendorId = v'.id

/-- What `markPayoutsPaid` refuses a whole batch for. -/
inductive RefusesBatch (config : PayoutConfig) (now : Instant) (db : Db)
    (paymentIds : List Id) (bankTransferRef : String) : Prop
  | vendor (q : Payment) (v : Vendor) (listed : q ∈ db.listed paymentIds)
      (owner : db.vendorOf q = some v) (inactive : v.status ≠ .active)
  | held (q : Payment) (listed : q ∈ db.listed paymentIds)
      (held : db.held paymentIds q = true)
  | reference (blank : trimmed bankTransferRef = "")
  | escrow (q : Payment) (b : Booking) (listed : q ∈ db.listed paymentIds)
      (payable : q.payable = true) (booked : db.bookingOf q.id = some b)
      (inEscrow : config.cutoff now ≤ b.endDatetime)

/-- The payments a batch is meant to settle: listed, unpaid, out of escrow
and not locked by an in-flight request. -/
def Db.due (config : PayoutConfig) (now : Instant) (db : Db) (paymentIds : List Id)
    (q : Payment) : Bool :=
  q.id ∈ paymentIds ∧ q.payable ∧ db.outOfEscrow config now q ∧ ¬ db.locked q

/-- The payments after a call: a refused call has written nothing. -/
def paymentsAfter (db : Db) (outcome : Tx MarkedPaid) : List Payment :=
  match outcome with
  | .ok r => r.db.payments.rows
  | .error _ => db.payments.rows

/-! ## What each check says -/

variable {config : PayoutConfig} {now : Instant} {db : Db} {paymentIds : List Id}
  {bankTransferRef : String}

theorem mem_batchVendors {p : Id × Vendor} :
    p ∈ batchVendors db paymentIds ↔
      ∃ q ∈ db.listed paymentIds, q.id = p.1 ∧ db.vendorOf q = some p.2 := by
  obtain ⟨id, v⟩ := p
  simp only [batchVendors, List.mem_filterMap, Option.map_eq_some_iff, Prod.mk.injEq]
  constructor
  · rintro ⟨q, hq, v', hv, hid, rfl⟩
    exact ⟨q, hq, hid, hv⟩
  · rintro ⟨q, hq, hid, hv⟩
    exact ⟨q, hq, v, hv, hid, rfl⟩

theorem paidVendors_ok {vendors : List (Id × Vendor)} :
    paidVendors db paymentIds = .ok vendors ↔ vendors = batchVendors db paymentIds ∧
      ∀ q ∈ db.listed paymentIds, ∀ v ∈ db.vendorOf q, v.status = .active := by
  simp only [paidVendors, bind_eq_ok, ensure_eq_ok, pure_eq_ok, List.map_eq_nil_iff,
    List.filter_eq_nil_iff, decide_not, Bool.not_eq_true, Bool.not_eq_false', decide_eq_true_eq]
  constructor
  · rintro ⟨_, hactive, rfl⟩
    refine ⟨rfl, fun q hq v hv => ?_⟩
    exact hactive (q.id, v) (mem_batchVendors.mpr ⟨q, hq, rfl, hv⟩)
  · rintro ⟨rfl, hactive⟩
    refine ⟨(), fun p hp => ?_, rfl⟩
    obtain ⟨q, hq, _, hv⟩ := mem_batchVendors.mp hp
    exact hactive q hq p.2 hv

theorem held_eq_false {q : Payment} :
    db.held paymentIds q = false ↔ ∀ v ∈ db.vendorOf q,
      (∀ r ∈ db.payoutRequests.rows, r.vendorId = v.id → r.status ≠ .pending) ∧
        ∀ r ∈ db.payoutRequests.rows, r.status = .approved → q.id ∈ r.paymentIds →
          ∀ q' ∈ db.listed paymentIds, ∀ v' ∈ db.vendorOf q', r.vendorId ≠ v'.id := by
  rw [Db.held, decide_eq_false_iff_not]
  push Not
  rfl

theorem paidBlockers_ok {u : Unit} :
    paidBlockers db (batchVendors db paymentIds) bankTransferRef = .ok u ↔
      (∀ q ∈ db.listed paymentIds, db.held paymentIds q = false) ∧
        trimmed bankTransferRef ≠ "" := by
  simp only [paidBlockers, bind_eq_ok, ensure_eq_ok, List.map_eq_nil_iff,
    List.filter_eq_nil_iff, decide_eq_true_eq, List.any_eq_true, not_or, not_exists, not_and,
    List.mem_map, held_eq_false]
  constructor
  · rintro ⟨_, hfree, href⟩
    refine ⟨fun q hq v hv => ?_, href⟩
    obtain ⟨hpending, happroved⟩ :=
      hfree (q.id, v) (mem_batchVendors.mpr ⟨q, hq, rfl, hv⟩)
    refine ⟨hpending, fun r hr hst hid q' hq' v' hv' hvendor => ?_⟩
    exact happroved r hr ⟨(q'.id, v'), mem_batchVendors.mpr ⟨q', hq', rfl, hv'⟩, hvendor.symm⟩
      hst hid
  · rintro ⟨hfree, href⟩
    refine ⟨(), fun p hp => ?_, href⟩
    obtain ⟨q, hq, hid, hv⟩ := mem_batchVendors.mp hp
    obtain ⟨hpending, happroved⟩ := hfree q hq p.2 hv
    refine ⟨hpending, fun r hr hlisted hst hmem => ?_⟩
    obtain ⟨p', hp', hvendor⟩ := hlisted
    obtain ⟨q', hq', _, hv'⟩ := mem_batchVendors.mp hp'
    exact happroved r hr hst (hid ▸ hmem) q' hq' p'.2 hv' hvendor.symm

theorem paidEscrow_ok {u : Unit} :
    paidEscrow config now db paymentIds = .ok u ↔
      ∀ q ∈ db.listed paymentIds, q.payable = true → ∀ b ∈ db.bookingOf q.id,
        b.endDatetime < config.cutoff now := by
  simp only [paidEscrow, ensure_eq_ok, List.map_eq_nil_iff, Table.select,
    List.filter_eq_nil_iff, decide_eq_true_eq, not_and, not_exists, not_le, Db.listed,
    List.mem_filter, and_imp]

/-! ## The whole call -/

/-- The checks a batch passes are the ones it is not refused for. -/
theorem not_refusesBatch :
    ¬ RefusesBatch config now db paymentIds bankTransferRef ↔
      (∀ q ∈ db.listed paymentIds, ∀ v ∈ db.vendorOf q, v.status = .active) ∧
      (∀ q ∈ db.listed paymentIds, db.held paymentIds q = false) ∧
      trimmed bankTransferRef ≠ "" ∧
      ∀ q ∈ db.listed paymentIds, q.payable = true → ∀ b ∈ db.bookingOf q.id,
        b.endDatetime < config.cutoff now := by
  constructor
  · intro h
    refine ⟨fun q hq v hv => ?_, fun q hq => ?_, fun href => h (.reference href),
      fun q hq hpay b hb => ?_⟩
    · exact by_contra fun hst => h (.vendor q v hq hv hst)
    · exact Bool.eq_false_iff.mpr fun hheld => h (.held q hq hheld)
    · exact not_le.mp fun hend => h (.escrow q b hq hpay hb hend)
  · rintro ⟨hactive, hfree, href, hescrow⟩ h
    cases h with
    | vendor q v hq hv hst => exact hst (hactive q hq v hv)
    | held q hq hheld => simp [hfree q hq] at hheld
    | reference hblank => exact href hblank
    | escrow q b hq hpay hb hend => exact absurd (hescrow q hq hpay b hb) (not_lt.mpr hend)

/-- A batch that is not refused is recorded. -/
theorem markPayoutsPaid_ok {r : MarkedPaid} :
    markPayoutsPaid config now db paymentIds bankTransferRef = .ok r ↔
      ¬ RefusesBatch config now db paymentIds bankTransferRef ∧
        r = recordWire config now db paymentIds bankTransferRef := by
  rw [not_refusesBatch]
  simp only [markPayoutsPaid, bind_eq_ok, pure_eq_ok]
  constructor
  · rintro ⟨vendors, hvendors, _, hblockers, _, hescrow, rfl⟩
    obtain ⟨rfl, hactive⟩ := paidVendors_ok.mp hvendors
    obtain ⟨hfree, href⟩ := paidBlockers_ok.mp hblockers
    exact ⟨⟨hactive, hfree, href, paidEscrow_ok.mp hescrow⟩, rfl⟩
  · rintro ⟨⟨hactive, hfree, href, hescrow⟩, rfl⟩
    exact ⟨_, paidVendors_ok.mpr ⟨rfl, hactive⟩, (), paidBlockers_ok.mpr ⟨hfree, href⟩, (),
      paidEscrow_ok.mpr hescrow, rfl⟩

/-- A locked payment holds its batch up. -/
theorem held_of_locked {q : Payment} (hq : q ∈ db.listed paymentIds)
    (h : db.locked q = true) : db.held paymentIds q = true := by
  obtain ⟨v, hv, r, hr, hvendor, hst | ⟨hst, hid⟩⟩ := of_decide_eq_true h
  · exact decide_eq_true ⟨v, hv, Or.inl ⟨r, hr, hvendor, hst⟩⟩
  · exact decide_eq_true ⟨v, hv, Or.inr ⟨r, hr, hst, hid, q, hq, v, hv, hvendor⟩⟩

/-- In a batch that is not refused no payment is locked: the update's
condition is the one the batch is meant for. -/
theorem due_of_not_refuses {q : Payment} (hq : q ∈ db.payments.rows)
    (h : ¬ RefusesBatch config now db paymentIds bankTransferRef) :
    db.due config now paymentIds q =
      decide (q.id ∈ paymentIds ∧ q.payable ∧ db.outOfEscrow config now q) := by
  obtain ⟨_, hfree, _, _⟩ := not_refusesBatch.mp h
  have hunlocked : q.id ∈ paymentIds → db.locked q = false := by
    intro hid
    have hlisted : q ∈ db.listed paymentIds :=
      Table.mem_select.mpr ⟨hq, decide_eq_true hid⟩
    refine Bool.eq_false_iff.mpr fun hlocked => ?_
    have := held_of_locked hlisted hlocked
    simp [hfree q hlisted] at this
  by_cases hid : q.id ∈ paymentIds
  · simp [Db.due, hid, hunlocked hid]
  · simp [Db.due, hid]

/-- Ids without repeats that are all listed fall short of the distinct
listed ones exactly when a listed one is missing. -/
theorem length_lt_dedup {xs ys : List Id} (hnd : xs.Nodup) (hsub : ∀ x ∈ xs, x ∈ ys) :
    xs.length < ys.dedup.length ↔ ∃ y ∈ ys, y ∉ xs := by
  have hxs : xs.toFinset.card = xs.length := List.toFinset_card_of_nodup hnd
  have hys : ys.toFinset.card = ys.dedup.length := List.card_toFinset ys
  have hsubset : xs.toFinset ⊆ ys.toFinset := by
    intro x hx
    exact List.mem_toFinset.mpr (hsub x (List.mem_toFinset.mp hx))
  rw [← hxs, ← hys]
  constructor
  · intro hlt
    obtain ⟨y, hy, hnot⟩ := Finset.exists_mem_notMem_of_card_lt_card hlt
    exact ⟨y, List.mem_toFinset.mp hy, fun h => hnot (List.mem_toFinset.mpr h)⟩
  · rintro ⟨y, hy, hnot⟩
    refine Finset.card_lt_card ⟨hsubset, fun hall => hnot ?_⟩
    exact List.mem_toFinset.mp (hall (List.mem_toFinset.mpr hy))

/-- The count is short exactly when a listed id is not recorded under the
wire. -/
theorem settled_lt_iff {ref : String} :
    (settledByThisWire db paymentIds ref).length < paymentIds.dedup.length ↔
      ∃ id ∈ paymentIds, ¬ ∃ q ∈ db.payments.rows, q.id = id ∧ q.settledBy ref = true := by
  have hnd : ((settledByThisWire db paymentIds ref).map Payment.id).Nodup :=
    db.payments.nodup.sublist (List.Sublist.map _ List.filter_sublist)
  have hsub : ∀ x ∈ (settledByThisWire db paymentIds ref).map Payment.id, x ∈ paymentIds := by
    intro x hx
    obtain ⟨q, hq, rfl⟩ := List.mem_map.mp hx
    exact (of_decide_eq_true (Table.mem_select.mp hq).2).1
  have hlength : ((settledByThisWire db paymentIds ref).map Payment.id).length =
      (settledByThisWire db paymentIds ref).length := List.length_map _
  rw [← hlength, length_lt_dedup hnd hsub]
  refine exists_congr fun id => and_congr_right fun hid => not_congr ?_
  rw [List.mem_map]
  constructor
  · rintro ⟨q, hq, rfl⟩
    obtain ⟨hmem, hp⟩ := Table.mem_select.mp hq
    exact ⟨q, hmem, rfl, (of_decide_eq_true hp).2⟩
  · rintro ⟨q, hmem, rfl, hsettled⟩
    exact ⟨q, Table.mem_select.mpr ⟨hmem, decide_eq_true ⟨hid, hsettled⟩⟩, rfl⟩

/-- **A batch that is not refused settles exactly the payments that are
due**, leaves everything else as it was, and raises the alarm exactly when
a listed payment is not recorded under the wire.  A refused batch changes
nothing. -/
theorem marks_exactly (config : PayoutConfig) (now : Instant) (db : Db)
    (paymentIds : List Id) (bankTransferRef : String) :
    (RefusesBatch config now db paymentIds bankTransferRef →
      ∃ error, markPayoutsPaid config now db paymentIds bankTransferRef = .error error ∧
        paymentsAfter db (.error error) = db.payments.rows) ∧
    (¬ RefusesBatch config now db paymentIds bankTransferRef →
      ∃ r, markPayoutsPaid config now db paymentIds bankTransferRef = .ok r ∧
        paymentsAfter db (.ok r) = db.payments.rows.map (fun q =>
          if db.due config now paymentIds q
          then q.markPaid now (trimmed bankTransferRef) else q) ∧
        r.db = { db with payments := r.db.payments } ∧
        r.updated = (db.payments.select (db.due config now paymentIds)).length ∧
        (r.shortfall.isSome ↔ ∃ id ∈ paymentIds, ¬ ∃ q ∈ r.db.payments.rows,
          q.id = id ∧ q.settledBy (trimmed bankTransferRef) = true)) := by
  constructor
  · intro hrefuses
    cases hcall : markPayoutsPaid config now db paymentIds bankTransferRef with
    | error error => exact ⟨error, rfl, rfl⟩
    | ok r => exact absurd hrefuses (markPayoutsPaid_ok.mp hcall).1
  · intro hpasses
    have hsame : ∀ q ∈ db.payments.rows, db.due config now paymentIds q =
        decide (q.id ∈ paymentIds ∧ q.payable ∧ db.outOfEscrow config now q) :=
      fun q hq => due_of_not_refuses hq hpasses
    refine ⟨_, markPayoutsPaid_ok.mpr ⟨hpasses, rfl⟩, ?_, rfl, ?_, ?_⟩
    · refine List.map_congr_left fun q hq => ?_
      rw [hsame q hq]
      simp only [Db.outOfEscrow, decide_eq_true_eq]
    · exact congrArg List.length (List.filter_congr fun q hq => (hsame q hq).symm)
    · rw [← settled_lt_iff]
      simp only [recordWire]
      split
      · simp_all
      · simp_all

/-! The vendor's first booking has ended and its second one has not. -/

def escrowShop : Db where
  nextId := 100
  vendors := (shop 0).vendors
  bookings := ⟨[shopBooking 1 11, { shopBooking 2 12 with endDatetime := 2 * day }], by decide⟩
  payments := (shop 0).payments

/-- A batch with a payment in escrow leaves the other payment, which is due,
unpaid as well. -/
theorem due_payment_refused :
    paymentsAfter escrowShop (markPayoutsPaid {} day escrowShop [11, 12] "W1") ≠
      escrowShop.payments.rows.map (fun q =>
        if escrowShop.due {} day [11, 12] q then q.markPaid day (trimmed "W1") else q) := by
  decide +kernel

end Jadwal
