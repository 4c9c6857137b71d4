import Jadwal.Wallets

/-!
# A coupon once per customer

A typed code is refused to a customer who has a live booking with it.  A claimed voucher is
refused when its own mark says it is used, and looks at no booking; a booking that comes
back, by an orphan recovery or out of a cancellation, looks at neither.  `coupon_once` says
that these three are all: a run in which none of them finds a live booking of the customer
with the code never has two.
-/

namespace Jadwal

open Outcome

variable {env : Env} {now : Instant} {db db' : Db}

/-- The customer has a live booking with the code. -/
def Db.UsedBy (db : Db) (customerId : Id) (code : String) : Prop :=
  ∃ b ∈ db.bookings.rows, b.customerId = customerId ∧ b.couponCode = some code ∧
    b.status ≠ .cancelled

instance (db : Db) (customerId : Id) (code : String) : Decidable (db.UsedBy customerId code) :=
  inferInstanceAs (Decidable (∃ b ∈ db.bookings.rows, _))

/-- No customer has two live bookings with one code. -/
def Db.UsedOnce (db : Db) : Prop :=
  ∀ b ∈ db.bookings.rows, ∀ b' ∈ db.bookings.rows, b.status ≠ .cancelled →
    b'.status ≠ .cancelled → b.customerId = b'.customerId → b.couponCode ≠ none →
    b.couponCode = b'.couponCode → b = b'

/-- The customer and the code a task takes without looking for a live booking: those of its
voucher, or of the booking it brings back. -/
def Task.brings (db : Db) : Task → Option (Id × String)
  | .create p _ => (p.dto.voucherId.bind db.claimedCoupons.find?).bind (fun claimed =>
      (db.codeOf claimed.couponId).map (fun code => (p.userId, code)))
  | .recreate _ _ _ s => s.couponCode.map (fun code => (s.customerId, code))
  | t => ((t.revives.bind db.bookings.find?).filter (fun b => b.status = .cancelled)).bind
      (fun b => b.couponCode.map (fun code => (b.customerId, code)))

/-- The condition on a step: it brings no code its customer has a live booking with. -/
def Sys.BringsFresh (s : Sys) (a : Action) : Prop :=
  ∀ t ∈ s.task? a, ∀ use ∈ t.brings s.db, ¬ s.db.UsedBy use.1 use.2

/-! ## The uses after a task -/

theorem mem_usesOf {t : Table Booking} {u : CouponUse} :
    u ∈ usesOf t ↔ ∃ b ∈ t.rows, b.status ≠ .cancelled ∧ u.bookingId = b.id ∧
      b.couponCode = some u.couponCode ∧ u.customerId = b.customerId := by
  simp only [usesOf, List.mem_filterMap, BookingFile.use?_eq_some]
  rfl

theorem Db.usedBy_iff (db : Db) (customerId : Id) (code : String) :
    db.UsedBy customerId code ↔
      ∃ u ∈ usesOf db.bookings, u.customerId = customerId ∧ u.couponCode = code := by
  constructor
  · rintro ⟨b, hb, rfl, hcode, hlive⟩
    exact ⟨⟨b.id, code, b.customerId⟩, mem_usesOf.mpr ⟨b, hb, hlive, rfl, hcode, rfl⟩, rfl, rfl⟩
  · rintro ⟨u, hu, rfl, rfl⟩
    obtain ⟨b, hb, hlive, _, hcode, hcustomer⟩ := mem_usesOf.mp hu
    exact ⟨b, hb, hcustomer.symm, hcode, hlive⟩

/-- An update that keeps what no statement changes adds the use of a cancelled row at most. -/
theorem uses_of_update {t : Table Booking} {k : Id} {f : Booking → Booking}
    {hf : ∀ b, Keyed.key (f b) = Keyed.key b} (hcore : ∀ b, (f b).core = b.core)
    {u : CouponUse} (hu : u ∈ usesOf (t.update k f hf)) :
    u ∈ usesOf t ∨ ∃ b, t.find? k = some b ∧ b.status = .cancelled ∧
      u.bookingId = k ∧ b.couponCode = some u.couponCode ∧ u.customerId = b.customerId := by
  obtain ⟨b', hb', hlive, hid, hcode, hcustomer⟩ := mem_usesOf.mp hu
  obtain ⟨b, hb, rfl⟩ := Table.mem_update.mp hb'
  by_cases hk : Keyed.key b = k
  · rw [if_pos hk] at hid hcode hcustomer
    have hid' := congrArg Booking.id (hcore b)
    have hcode' := congrArg Booking.couponCode (hcore b)
    have hcustomer' := congrArg Booking.customerId (hcore b)
    simp only [Booking.core] at hid' hcode' hcustomer'
    rw [hid'] at hid
    rw [hcode'] at hcode
    rw [hcustomer'] at hcustomer
    by_cases hdead : b.status = .cancelled
    · exact .inr ⟨b, Table.find?_eq_some.mpr ⟨hb, hk⟩, hdead, hid.trans hk, hcode, hcustomer⟩
    · exact .inl (mem_usesOf.mpr ⟨b, hb, hdead, hid, hcode, hcustomer⟩)
  · rw [if_neg hk] at hlive hid hcode hcustomer
    exact .inl (mem_usesOf.mpr ⟨b, hb, hlive, hid, hcode, hcustomer⟩)

/-- A task that brings a booking back adds its use at most. -/
theorem Task.run_revived {t : Task} {k : Id} (mine : t.revives = some k) {u : CouponUse}
    (hu : u ∈ usesOf (t.run env now db).1.bookings) :
    u ∈ usesOf db.bookings ∨ ∃ b, db.bookings.find? k = some b ∧ b.status = .cancelled ∧
      u.bookingId = k ∧ b.couponCode = some u.couponCode ∧ u.customerId = b.customerId := by
  cases t with
  | update r =>
      simp only [Task.revives] at mine
      split at mine
      · cases mine
      rename_i hne
      obtain rfl := Option.some.inj mine
      simp only [Task.run] at hu
      cases hok : statusCommit now db r with
      | error e =>
          rw [hok] at hu
          exact .inl hu
      | ok db' =>
          rw [hok] at hu
          obtain ⟨_, ⟨fb, hb, e, hfb⟩ | ⟨_, _, fb, hb, points, e, _, hfb⟩⟩ :=
            statusCommit_mark_ok hne hok
          · simp only [committed, e.bookings] at hu
            exact uses_of_update (fun b => congrArg BookingFile.core (hfb b)) hu
          · simp only [committed, e.bookings] at hu
            exact uses_of_update (fun b => congrArg BookingFile.core (hfb b)) hu
  | unCancel paymentId booking =>
      obtain rfl := Option.some.inj mine
      simp only [Task.run] at hu
      split at hu
      · exact .inl hu
      · rename_i db' kind hok
        obtain ⟨_, rfl, _⟩ | ⟨_, _, fb, hb, e, hfb, _⟩ := m6UnCancel_ok hok
        · exact .inl hu
        · simp only [e.bookings] at hu
          exact uses_of_update (fun b => congrArg BookingFile.core (hfb b)) hu
  | _ => cases mine

/-- The code a creation puts on its booking: one typed, which the customer has no live booking
with, or that of the voucher. -/
theorem applyDiscount_code {p : PreparedBooking} {ref : String} {totalPrice : Cents}
    {r : Db × Option String × Cents} (h : applyDiscount now db p totalPrice = .ok r)
    {code : String} (hcode : r.2.1 = some code) :
    ¬ db.UsedBy p.userId code ∨ (p.userId, code) ∈ (Task.create p ref).brings db := by
  cases applyDiscount_cases h with
  | plain => cases hcode
  | voucher voucherId claimed coupon _ named given _ _ found =>
      obtain rfl := Option.some.inj hcode
      refine .inr ?_
      simp [Task.brings, named, given, Db.codeOf, found]
  | typed _ _ _ _ _ _ _ fresh =>
      obtain rfl := Option.some.inj hcode
      refine .inl ?_
      rintro ⟨b, hb, huser, hused, hlive⟩
      exact fresh b hb ⟨huser, hused, hlive⟩

/-- **What a task adds to the uses**: at most one, which no live booking of its customer makes,
or which the task brings. -/
theorem Task.run_uses (env : Env) (now : Instant) (db : Db) (t : Task) :
    ∃ k, ∀ u ∈ usesOf (t.run env now db).1.bookings, u ∈ usesOf db.bookings ∨
      (u.bookingId = k ∧ (¬ db.UsedBy u.customerId u.couponCode ∨
        (u.customerId, u.couponCode) ∈ t.brings db)) := by
  cases t.run_coupons env now db with
  | idle _ _ uses => exact ⟨0, fun u hu => .inl (uses ▸ hu)⟩
  | revived _ b found dead mine _ =>
      refine ⟨b.id, fun u hu => ?_⟩
      rcases t.run_revived mine hu with hold | ⟨x, hx, _, hid, hcode, hcustomer⟩
      · exact .inl hold
      · obtain rfl := Option.some.inj (found.symm.trans hx)
        have hback : (some b).filter (fun b => b.status = .cancelled) = some b := by
          simp [Option.filter, dead]
        refine .inr ⟨hid, .inr ?_⟩
        cases t with
        | update r => simp [Task.brings, mine, found, hback, hcode, hcustomer]
        | unCancel paymentId booking => simp [Task.brings, mine, found, hback, hcode, hcustomer]
        | _ => cases mine
  | created p ref totalPrice r b taken _ code customer _ live inserted =>
      refine ⟨b.id, fun u hu => ?_⟩
      obtain ⟨x, hx, hlive, hid, hcode, hcustomer⟩ := mem_usesOf.mp hu
      rw [inserted, List.mem_append, List.mem_singleton] at hx
      rcases hx with hx | rfl
      · exact .inl (mem_usesOf.mpr ⟨x, hx, hlive, hid, hcode, hcustomer⟩)
      · refine .inr ⟨hid, ?_⟩
        rw [hcustomer, customer]
        exact applyDiscount_code taken (code.symm.trans hcode)
  | declined _ _ _ _ _ _ _ _ uses _ =>
      exact ⟨0, fun u hu => .inl (List.mem_of_mem_filter (uses ▸ hu))⟩
  | cancelled _ _ _ uses _ =>
      exact ⟨0, fun u hu => .inl (List.mem_of_mem_filter (uses ▸ hu))⟩
  | operated _ _ _ _ _ uses _ =>
      exact ⟨0, fun u hu => .inl (List.mem_of_mem_filter (uses ▸ hu))⟩
  | unpaid _ _ _ _ _ uses _ =>
      exact ⟨0, fun u hu => .inl (List.mem_of_mem_filter (uses ▸ hu))⟩
  | reaped stale claimed _ _ reaps =>
      refine ⟨0, fun u hu => .inl ?_⟩
      rw [reaps.deleted, uses_deleteMany] at hu
      exact List.mem_of_mem_filter hu
  | recreated paymentId amount bookingId s inserted _ =>
      refine ⟨bookingId.getD db.nextId, fun u hu => ?_⟩
      obtain ⟨x, hx, hlive, hid, hcode, hcustomer⟩ := mem_usesOf.mp hu
      rcases (Table.mem_of_insert? inserted).mp hx with hx | rfl
      · exact .inl (mem_usesOf.mpr ⟨x, hx, hlive, hid, hcode, hcustomer⟩)
      · refine .inr ⟨hid, .inr ?_⟩
        have hcode : s.couponCode = some u.couponCode := hcode
        have hcustomer : u.customerId = s.customerId := hcustomer
        simp [Task.brings, hcode, hcustomer]

/-! ## Runs -/

theorem Db.UsedOnce.uses (h : db.UsedOnce) {u u' : CouponUse} (hu : u ∈ usesOf db.bookings)
    (hu' : u' ∈ usesOf db.bookings) (hcustomer : u.customerId = u'.customerId)
    (hcode : u.couponCode = u'.couponCode) : u.bookingId = u'.bookingId := by
  obtain ⟨b, hb, hlive, hid, hbcode, hbcustomer⟩ := mem_usesOf.mp hu
  obtain ⟨b', hb', hlive', hid', hbcode', hbcustomer'⟩ := mem_usesOf.mp hu'
  rw [hid, hid', h b hb b' hb' hlive hlive' (by rw [← hbcustomer, ← hbcustomer', hcustomer])
    (by simp [hbcode]) (by rw [hbcode, hbcode', hcode])]

/-- **A task that brings no code its customer has a live booking with** gives nobody two. -/
theorem Db.UsedOnce.run (h : db.UsedOnce) {t : Task}
    (fresh : ∀ use ∈ t.brings db, ¬ db.UsedBy use.1 use.2) :
    (t.run env now db).1.UsedOnce := by
  obtain ⟨k, hnew⟩ := t.run_uses env now db
  have hfresh : ∀ u : CouponUse, (¬ db.UsedBy u.customerId u.couponCode ∨
      (u.customerId, u.couponCode) ∈ t.brings db) → ¬ db.UsedBy u.customerId u.couponCode := by
    rintro u (hno | hbrings)
    · exact hno
    · exact fresh _ hbrings
  intro b hb b' hb' hlive hlive' hcustomer hsome hcode
  obtain ⟨code, hb₁⟩ := Option.ne_none_iff_exists'.mp hsome
  have hu := hnew ⟨b.id, code, b.customerId⟩ (mem_usesOf.mpr ⟨b, hb, hlive, rfl, hb₁, rfl⟩)
  have hu' := hnew ⟨b'.id, code, b'.customerId⟩
    (mem_usesOf.mpr ⟨b', hb', hlive', rfl, hcode ▸ hb₁, rfl⟩)
  refine Table.key_inj hb hb' ?_
  rcases hu with hold | ⟨hid, hbrought⟩
  · rcases hu' with hold' | ⟨_, hbrought'⟩
    · exact h.uses hold hold' hcustomer rfl
    · refine absurd ((db.usedBy_iff _ _).mpr ⟨_, hold, hcustomer, rfl⟩) (hfresh _ hbrought')
  · rcases hu' with hold' | ⟨hid', _⟩
    · exact absurd ((db.usedBy_iff _ _).mpr ⟨_, hold', hcustomer.symm, rfl⟩) (hfresh _ hbrought)
    · exact hid.trans hid'.symm

/-- **A coupon once per customer**, in every run that brings no code its customer has a live
booking with. -/
theorem coupon_once {s₀ s : Sys} (h : s₀.db.UsedOnce)
    (run : Run (Sys.step env) Sys.BringsFresh s₀ s) : s.db.UsedOnce := by
  refine run.invariant (fun s => s.db.UsedOnce) (fun s a s' h fresh hstep => ?_) h
  rcases Sys.step_db hstep with ⟨hdb, _⟩ | ⟨t, ht, hdb, _⟩
  · exact hdb ▸ h
  · rw [hdb]
    exact h.run (fresh t ht)

instance (s : Sys) (a : Action) : Decidable (s.BringsFresh a) :=
  inferInstanceAs (Decidable (∀ t ∈ s.task? a, ∀ use ∈ t.brings s.db, ¬ _))

/-- The marketplace with a coupon for two uses that a customer has claimed. -/
def twoUseMarket : Sys :=
  { market with db := { market.db with
      coupons := ⟨[{ marketCoupon with usageLimit := some 2 }], by decide⟩
      claimedCoupons := ⟨[{ id := 8, userId := 1, couponId := 9 }], by decide⟩ } }

theorem twoUseMarket_once : twoUseMarket.db.UsedOnce := by
  intro b hb
  cases hb

/-- A customer types the code for one hour and takes the claimed voucher for another. -/
theorem coupon_used_twice :
    twoUseMarket.db.UsedOnce ∧
    ∃ s, Run (Sys.step marketEnv) (fun _ _ => True) twoUseMarket s ∧ ¬ s.db.UsedOnce := by
  refine ⟨twoUseMarket_once, ?_⟩
  obtain ⟨s, run, h⟩ := @Run.of_execAll_test _ _ (Sys.step marketEnv) (fun _ _ => True) _
    [.begin (.createBooking 1 typedRequest "R1"), .run 0, .run 0,
      .begin (.createBooking 1 (voucherRequest 8 720) "R2"), .run 0]
    twoUseMarket (fun s => ∃ b ∈ s.db.bookings.rows, ∃ b' ∈ s.db.bookings.rows,
      b.status ≠ .cancelled ∧ b'.status ≠ .cancelled ∧ b.customerId = b'.customerId ∧
        b.couponCode ≠ none ∧ b.couponCode = b'.couponCode ∧ b.id ≠ b'.id) (by decide +kernel)
  obtain ⟨b, hb, b', hb', hlive, hlive', hcustomer, hsome, hcode, hne⟩ := of_decide_eq_true h
  exact ⟨s, run, fun honce => hne (congrArg Booking.id
    (honce b hb b' hb' hlive hlive' hcustomer hsome hcode))⟩

theorem coupon_once_by_voucher :
    ∃ s, Run (Sys.step marketEnv) Sys.BringsFresh twoUseMarket s ∧
      s.db.UsedBy 1 "SUMMER" ∧ s.db.UsedOnce := by
  obtain ⟨s, run, h⟩ := @Run.of_execAll_test _ _ (Sys.step marketEnv) Sys.BringsFresh _
    [.begin (.createBooking 1 (voucherRequest 8 600) "R1"), .run 0]
    twoUseMarket (fun s => s.db.UsedBy 1 "SUMMER") (by decide +kernel)
  exact ⟨s, run, of_decide_eq_true h, coupon_once twoUseMarket_once run⟩

end Jadwal
