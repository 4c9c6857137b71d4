import Jadwal.CouponUses

/-!
# Claimed vouchers

A customer's claim on a coupon is marked used by a creation that names it,
and freed by the return of a coupon, which looks for the customer's claims on
the coupon of a code and does not know whether the booking was paid with one.
The world records what no table does, the voucher each booking got its
discount from, and says when the mark of a voucher agrees with its bookings
(`vouchers_spent_once`).
-/

namespace Jadwal

open Outcome

variable {G : Guard} {env : Env} {now : Instant} {db db' : Db}

/-! ## Claims on a code -/

/-- The code of a coupon. -/
def Db.codeOf (db : Db) (couponId : Id) : Option String :=
  (db.coupons.find? couponId).map Coupon.code

/-- The claim is the customer's, on the coupon of the code. -/
def Db.Matches (db : Db) (couponCode : Option String) (customerId : Id)
    (v : ClaimedCoupon) : Prop :=
  v.userId = customerId ∧ couponCode ≠ none ∧ db.codeOf v.couponId = couponCode

instance (db : Db) (couponCode : Option String) (customerId : Id) (v : ClaimedCoupon) :
    Decidable (db.Matches couponCode customerId v) :=
  inferInstanceAs (Decidable (_ ∧ _ ∧ _))

/-- The claims keep their owners, and are used afterwards when `P` says so. -/
def Marked (P : ClaimedCoupon → Prop) (t t' : Table ClaimedCoupon) : Prop :=
  ∀ v' ∈ t'.rows, ∃ v ∈ t.rows, v'.id = v.id ∧ v'.userId = v.userId ∧
    v'.couponId = v.couponId ∧ (v'.used = true ↔ P v)

theorem Marked.refl (t : Table ClaimedCoupon) : Marked (fun v => v.used = true) t t :=
  fun v hv => ⟨v, hv, rfl, rfl, rfl, Iff.rfl⟩

/-- An update that sets the mark of some vouchers. -/
theorem Marked.updateMany {P : ClaimedCoupon → Prop} {t : Table ClaimedCoupon}
    {p : ClaimedCoupon → Bool} {mark : Bool}
    {hf : ∀ v : ClaimedCoupon, Keyed.key ({ v with used := mark } : ClaimedCoupon) = Keyed.key v}
    (h : ∀ v ∈ t.rows, (if p v then mark = true else v.used = true) ↔ P v) :
    Marked P t (t.updateMany p (fun v => { v with used := mark }) hf) := by
  intro v' hv'
  obtain ⟨v, hv, rfl⟩ := Table.mem_updateMany.mp hv'
  have := h v hv
  by_cases hp : p v = true
  · rw [if_pos hp] at this ⊢
    exact ⟨v, hv, rfl, rfl, rfl, this⟩
  · rw [if_neg hp] at this ⊢
    exact ⟨v, hv, rfl, rfl, rfl, this⟩

/-- An update of coupons keeps the codes. -/
theorem codeOf_update {t : Table Coupon} {id : Id} {f : Coupon → Coupon}
    {hf : ∀ c, Keyed.key (f c) = Keyed.key c} (hcode : ∀ c, (f c).code = c.code) (k : Id) :
    ((t.update id f hf).find? k).map Coupon.code = (t.find? k).map Coupon.code := by
  rw [Table.find?_update]
  split
  · rw [Option.map_map]
    exact congrArg (fun g => Option.map g (t.find? k)) (funext hcode)
  · rfl

/-- A returned use keeps the codes. -/
theorem refundCouponUsage_codeOf (now : Instant) (db : Db) (couponCode : Option String)
    (customerId k : Id) :
    (refundCouponUsage now db couponCode customerId).codeOf k = db.codeOf k := by
  unfold refundCouponUsage
  split
  · rfl
  · simp only [Db.codeOf]
    split
    · rw [codeOf_update, codeOf_update]
      · intro c
        split <;> rfl
      · exact fun _ => rfl
    · rw [codeOf_update]
      intro c
      split <;> rfl

/-- So does a use taken again. -/
theorem reclaimCouponUsage_codeOf (db : Db) (couponCode : Option String) (customerId k : Id) :
    (reclaimCouponUsage db couponCode customerId).codeOf k = db.codeOf k := by
  unfold reclaimCouponUsage
  split
  · rfl
  · rename_i coupon _
    simp only [Db.codeOf]
    refine codeOf_update (fun c => ?_) k
    rcases Option.eq_none_or_eq_some coupon.usageLimit with hlimit | ⟨limit, hlimit⟩
    · simp only [hlimit]
    · simp only [hlimit]
      split <;> rfl

/-- A use taken of a coupon touches no voucher. -/
theorem takeCouponUse_ok {coupon : Coupon} {limit : Option Int} {message : String}
    (h : takeCouponUse db coupon limit message = .ok db') :
    db'.claimedCoupons = db.claimedCoupons ∧ ∀ k, db'.codeOf k = db.codeOf k := by
  cases limit with
  | none =>
      obtain rfl := Except.ok.inj h
      refine ⟨rfl, fun k => ?_⟩
      simp only [Db.codeOf]
      rw [codeOf_update]
      exact fun _ => rfl
  | some n =>
      simp only [takeCouponUse, bind_eq_ok] at h
      obtain ⟨_, _, h⟩ := h
      split at h
      · rw [pure_eq_ok] at h
        subst h
        refine ⟨rfl, fun k => ?_⟩
        simp only [Db.codeOf]
        rw [codeOf_update, codeOf_update] <;> exact fun _ => rfl
      · rw [pure_eq_ok] at h
        subst h
        refine ⟨rfl, fun k => ?_⟩
        simp only [Db.codeOf]
        rw [codeOf_update]
        exact fun _ => rfl

/-- With unique codes, the claims on a code are those on the coupon found. -/
theorem Db.CodesUnique.matches_iff (h : db.CodesUnique) {code : String} {coupon : Coupon}
    (hfound : findCoupon db code = some coupon) (customerId : Id) (v : ClaimedCoupon) :
    db.Matches (some code) customerId v ↔ v.userId = customerId ∧ v.couponId = coupon.id := by
  obtain ⟨hmem, rfl⟩ := findCoupon_eq_some hfound
  refine and_congr_right fun _ => ⟨fun hm => ?_, fun hid => ⟨by simp, ?_⟩⟩
  · obtain ⟨c, hc, hcode⟩ := Option.map_eq_some_iff.mp hm.2
    obtain ⟨hc, hid⟩ := Table.find?_eq_some.mp hc
    rw [h c hc coupon hmem hcode] at hid
    exact hid.symm
  · have hfind : db.coupons.find? coupon.id = some coupon := Table.find?_key hmem
    rw [Db.codeOf, hid, hfind]
    rfl

/-- Without a coupon of the code there is no claim on it. -/
theorem not_matches_of_none {couponCode : Option String}
    (h : couponCode.bind (findCoupon db) = none) (customerId : Id) (v : ClaimedCoupon) :
    ¬ db.Matches couponCode customerId v := by
  rintro ⟨_, hne, hcode⟩
  cases couponCode with
  | none => exact hne rfl
  | some code =>
      obtain ⟨c, hc, rfl⟩ := Option.map_eq_some_iff.mp hcode
      have hmem := (Table.find?_eq_some.mp hc).1
      have := Table.first?_eq_none.mp h c hmem
      simp at this

/-- A return frees the customer's claims on the code. -/
theorem refundCouponUsage_marked (h : db.CodesUnique) (couponCode : Option String)
    (customerId : Id) :
    Marked (fun v => v.used = true ∧ ¬ db.Matches couponCode customerId v)
      db.claimedCoupons (refundCouponUsage now db couponCode customerId).claimedCoupons := by
  unfold refundCouponUsage
  cases hfound : couponCode.bind (findCoupon db) with
  | none =>
      refine fun v hv => ⟨v, hv, rfl, rfl, rfl, ?_⟩
      simp [not_matches_of_none hfound]
  | some coupon =>
      obtain ⟨code, rfl, hcode⟩ := Option.bind_eq_some_iff.mp hfound
      simp only
      refine Marked.updateMany fun v _ => ?_
      simp only [h.matches_iff hcode, decide_eq_true_eq]
      by_cases hu : v.used <;> by_cases huser : v.userId = customerId <;>
        by_cases hid : v.couponId = coupon.id <;> simp [hu, huser, hid]

/-- A recovery marks the customer's claims on the code. -/
theorem reclaimCouponUsage_marked (h : db.CodesUnique) (couponCode : Option String)
    (customerId : Id) :
    Marked (fun v => v.used = true ∨ db.Matches couponCode customerId v)
      db.claimedCoupons (reclaimCouponUsage db couponCode customerId).claimedCoupons := by
  unfold reclaimCouponUsage
  cases hfound : couponCode.bind (findCoupon db) with
  | none =>
      refine fun v hv => ⟨v, hv, rfl, rfl, rfl, ?_⟩
      simp [not_matches_of_none hfound]
  | some coupon =>
      obtain ⟨code, rfl, hcode⟩ := Option.bind_eq_some_iff.mp hfound
      simp only
      refine Marked.updateMany fun v _ => ?_
      simp only [h.matches_iff hcode, decide_eq_true_eq]
      by_cases hu : v.used <;> by_cases huser : v.userId = customerId <;>
        by_cases hid : v.couponId = coupon.id <;> simp [hu, huser, hid]

/-- Codes stay unique while coupons keep theirs. -/
theorem Db.CodesUnique.moved {R : Coupon → Coupon → Prop} (h : db.CodesUnique)
    (m : Moved R db.coupons db'.coupons) (hcode : ∀ c c', R c c' → c'.code = c.code) :
    db'.CodesUnique := by
  intro c₁' h₁' c₂' h₂' heq
  obtain ⟨c₁, h₁, hid₁, hr₁⟩ := m c₁' h₁'
  obtain ⟨c₂, h₂, hid₂, hr₂⟩ := m c₂' h₂'
  have hsame : c₁ = c₂ := h c₁ h₁ c₂ h₂ (by rw [← hcode _ _ hr₁, ← hcode _ _ hr₂, heq])
  have hid : c₁'.id = c₂'.id := by rw [← hid₁, ← hid₂, hsame]
  exact Table.key_inj h₁' h₂' hid

/-- A coupon given back keeps its code. -/
theorem Returned.code {c c' : Coupon} (h : Returned now c c') : c'.code = c.code := by
  rw [h.same]

/-- A coupon keeps its code whatever a task does. -/
theorem CouponMove.code {t : Task} {c c' : Coupon} (m : CouponMove now t c c') :
    c'.code = c.code := by
  cases m with
  | returned m => exact m.code
  | taken m => rw [m.same]
  | retaken _ m => rw [m.same]

/-- The returns of a list of bookings free the claims on any of them. -/
theorem refundCoupons_marked (claimed : List Booking) : ∀ {db : Db}, db.CodesUnique →
    Marked (fun v => v.used = true ∧
        ¬ ∃ b ∈ claimed, db.Matches b.couponCode b.customerId v)
      db.claimedCoupons (refundCoupons now db claimed).claimedCoupons ∧
    ∀ k, (refundCoupons now db claimed).codeOf k = db.codeOf k := by
  induction claimed with
  | nil => exact fun _ => ⟨fun v hv => ⟨v, hv, rfl, rfl, rfl, by simp⟩, fun _ => rfl⟩
  | cons b claimed ih =>
      intro db h
      have hcodeOf := refundCouponUsage_codeOf now db b.couponCode b.customerId
      have h₁ := h.moved (refundCouponUsage_moved now db b.couponCode b.customerId)
        fun _ _ => Returned.code
      obtain ⟨hmarked, hcodes⟩ := ih h₁
      refine ⟨fun v'' hv'' => ?_, fun k => (hcodes k).trans (hcodeOf k)⟩
      obtain ⟨v', hv', hid', huser', hcoupon', hused'⟩ := hmarked v'' hv''
      obtain ⟨v, hv, hid, huser, hcoupon, hused⟩ :=
        @refundCouponUsage_marked now db h b.couponCode b.customerId v' hv'
      refine ⟨v, hv, hid'.trans hid, huser'.trans huser, hcoupon'.trans hcoupon, ?_⟩
      simp only [Db.Matches, hcodeOf, huser, hcoupon] at hused' hused ⊢
      rw [hused', hused]
      simp only [List.mem_cons, exists_eq_or_imp, not_or, and_assoc]

/-- The claims after the discount of a creation: untouched, or the named one,
which was unused and the customer's, marked. -/
theorem applyDiscount_claims {p : PreparedBooking} {totalPrice : Cents}
    {r : Db × Option String × Cents} (h : applyDiscount now db p totalPrice = .ok r) :
    (∀ k, r.1.codeOf k = db.codeOf k) ∧
      ((p.dto.voucherId = none ∧ r.1.claimedCoupons = db.claimedCoupons) ∨
        ∃ voucherId claimed, p.dto.voucherId = some voucherId ∧
          db.claimedCoupons.find? voucherId = some claimed ∧ claimed.used = false ∧
          db.Matches r.2.1 p.userId claimed ∧
          Marked (fun v => v.used = true ∨ v.id = voucherId) db.claimedCoupons
            r.1.claimedCoupons) := by
  cases applyDiscount_cases h with
  | plain bare => exact ⟨fun _ => rfl, .inl ⟨bare, rfl⟩⟩
  | voucher voucherId claimed coupon _ named given owner unused found _ taken =>
      obtain ⟨hclaims, hcodes⟩ := takeCouponUse_ok taken
      refine ⟨fun k => hcodes k, .inr ⟨voucherId, claimed, named, given, unused,
        ⟨owner, by simp, ?_⟩, ?_⟩⟩
      · rw [Db.codeOf, found]
        rfl
      · rw [hclaims]
        simp only [Table.update]
        refine Marked.updateMany fun v _ => ?_
        have hkey : Keyed.key v = v.id := rfl
        by_cases hid : v.id = voucherId <;> simp [hkey, hid]
  | typed _ _ _ _ bare _ _ _ taken =>
      obtain ⟨hclaims, hcodes⟩ := takeCouponUse_ok taken
      exact ⟨hcodes, .inl ⟨bare, hclaims⟩⟩

/-! ## The vouchers bookings were paid with -/

/-- The system, and the voucher each booking got its discount from, which no
table holds. -/
structure VoucherWorld where
  sys : Sys
  spent : Id → Option Id

/-- The booking and the voucher of a creation that names one. -/
def Sys.spends (env : Env) (s : Sys) (a : Action) : Option (Id × Id) :=
  match s.task? a with
  | some (.create p ref) =>
      match createBookingTx env s.now s.db p ref with
      | .ok (_, booking) => p.dto.voucherId.map (fun voucherId => (booking.id, voucherId))
      | .error _ => none
  | _ => none

/-- The record after a creation. -/
def VoucherWorld.record (spent : Id → Option Id) : Option (Id × Id) → Id → Option Id
  | some (bookingId, voucherId) => Function.update spent bookingId (some voucherId)
  | none => spent

def VoucherWorld.step (env : Env) (w : VoucherWorld) (a : Action) : Option VoucherWorld :=
  (w.sys.step env a).map (fun sys =>
    { sys := sys, spent := VoucherWorld.record w.spent (w.sys.spends env a) })

/-- The payment is in the status the cancel was decided on. -/
def CancelRead.Stands (db : Db) (r : CancelRead) : Prop :=
  r.plan = .hardDelete ∨ ∃ payment ∈ r.payment, ∃ q ∈ db.payments.find? payment.id,
    q.status = payment.status

instance (r : CancelRead) : Decidable (r.plan = .hardDelete) :=
  match r.plan with
  | .hardDelete => .isTrue rfl
  | .pointsOnly _ => .isFalse (by simp)
  | .paid _ => .isFalse (by simp)
  | .inFlight _ => .isFalse (by simp)

instance (db : Db) (r : CancelRead) : Decidable (r.Stands db) :=
  inferInstanceAs (Decidable (_ ∨ ∃ payment ∈ r.payment, ∃ q ∈ db.payments.find? payment.id,
    q.status = payment.status))

/-- The bookings whose coupons a task returns. -/
def Task.returns (db : Db) : Task → List Booking
  | .settle payment _ false =>
      (((db.payments.find? payment.id).filter (fun q => q.status = .pending)).bind
        (fun _ => payment.bookingId.bind (fun k => db.bookings.find? k))).toList
  | .cancel r => if r.Stands db then [r.booking] else []
  | .update r =>
      if r.newStatus = .cancelled then
        ((db.bookings.find? r.booking.id).filter (fun b => b.status ≠ .cancelled)).toList
      else []
  | .reap stale =>
      stale.filter (fun b => ∃ x ∈ db.bookings.find? b.id, x.status = .pending)
  | _ => []

/-- The booking is live and was paid with the voucher. -/
def VoucherWorld.Spender (w : VoucherWorld) (bookingId voucherId : Id) : Prop :=
  w.spent bookingId = some voucherId ∧
    ∃ b ∈ w.sys.db.bookings.find? bookingId, b.status ≠ .cancelled

/-- The condition on a returned coupon: when it frees a used claim, the
booking that spent the claim is among those whose coupons are returned. -/
def VoucherWorld.ReturnsOwn (w : VoucherWorld) (a : Action) : Prop :=
  ∀ t ∈ w.sys.task? a, ∀ b ∈ t.returns w.sys.db, ∀ v ∈ w.sys.db.claimedCoupons.rows,
    v.used = true → w.sys.db.Matches b.couponCode b.customerId v →
    ∃ b' ∈ t.returns w.sys.db, w.Spender b'.id v.id

/-- What an orphan recovery re-inserts. -/
def Task.recreates : Task → Option (Id × BookingSnapshot)
  | .recreate _ _ bookingId s => bookingId.map (fun k => (k, s))
  | _ => none

/-- The condition on a recovery: of the customer's claims on the coupon, it
finds unused just the one the booking had spent. -/
def VoucherWorld.RetakesOwn (w : VoucherWorld) (a : Action) : Prop :=
  ∀ r ∈ (w.sys.task? a).bind Task.recreates, ∀ v ∈ w.sys.db.claimedCoupons.rows,
    w.sys.db.Matches r.2.couponCode r.2.customerId v →
    (v.used = false ↔ w.spent r.1 = some v.id)

/-- The condition on a step: it returns and retakes the vouchers of its own
bookings, and sets a status soundly. -/
structure VoucherWorld.Orderly (w : VoucherWorld) (a : Action) : Prop where
  returns : w.ReturnsOwn a
  retakes : w.RetakesOwn a
  sane : w.sys.SaneUpdate a

/-- A voucher is used exactly when a live booking of its customer was paid with
it. -/
def VoucherWorld.SpentOnce (w : VoucherWorld) : Prop :=
  ∀ v ∈ w.sys.db.claimedCoupons.rows, v.used = true ↔
    ∃ b ∈ w.sys.db.bookings.rows, b.status ≠ .cancelled ∧ b.customerId = v.userId ∧
      w.spent b.id = some v.id

/-! ## The invariant -/

/-- The marks of the vouchers and the uses there are: a voucher is used when a
use was paid with it, and by one use only. -/
structure Spends (spent : Id → Option Id) (claims : Table ClaimedCoupon)
    (uses : List CouponUse) : Prop where
  used : ∀ v ∈ claims.rows, v.used = true ↔ ∃ u ∈ uses, spent u.bookingId = some v.id
  once : ∀ v ∈ claims.rows, ∀ u ∈ uses, ∀ u' ∈ uses, spent u.bookingId = some v.id →
    spent u'.bookingId = some v.id → u.bookingId = u'.bookingId

/-- A booking paid with a voucher is its customer's and carries its code. -/
def Origin (spent : Id → Option Id) (db : Db) : Prop :=
  ∀ k voucherId, spent k = some voucherId → ∃ core : Booking,
    (∀ u, (db.dossier u k).Frozen core) ∧
    ∀ v ∈ db.claimedCoupons.rows, v.id = voucherId →
      db.Matches core.couponCode core.customerId v

/-- A use is of the customer and the code of its voucher. -/
theorem Origin.named {spent : Id → Option Id} (h : Origin spent db) {u : CouponUse}
    (hu : u ∈ usesOf db.bookings) {v : ClaimedCoupon} (hv : v ∈ db.claimedCoupons.rows)
    (hs : spent u.bookingId = some v.id) :
    db.Matches (some u.couponCode) u.customerId v := by
  obtain ⟨core, frozen, hm⟩ := h _ _ hs
  obtain ⟨b, hb, huse⟩ := List.mem_filterMap.mp hu
  obtain ⟨_, hid, hcode, hcustomer⟩ := BookingFile.use?_eq_some.mp huse
  have hfind : db.bookings.find? u.bookingId = some b :=
    Table.find?_eq_some.mpr ⟨hb, hid.symm⟩
  have hfile := dossier_of_find hfind 0
  have hcore := (frozen 0).2.1 b.file hfile
  rw [hcustomer, ← hcode, hcore]
  exact hm v hv rfl

/-- **The vouchers after the returns of some bookings.** -/
theorem Spends.returned {spent : Id → Option Id} {claims claims' : Table ClaimedCoupon}
    {uses : List CouponUse} (h : Spends spent claims uses) (returned : List Booking)
    (matched : Booking → ClaimedCoupon → Prop)
    (marked : Marked (fun v => v.used = true ∧ ¬ ∃ b ∈ returned, matched b v) claims claims')
    (named : ∀ b ∈ returned, ∀ u ∈ uses, u.bookingId = b.id → ∀ v ∈ claims.rows,
      spent u.bookingId = some v.id → matched b v)
    (own : ∀ b ∈ returned, ∀ v ∈ claims.rows, v.used = true → matched b v →
      ∃ b' ∈ returned, ∃ u ∈ uses, u.bookingId = b'.id ∧ spent u.bookingId = some v.id) :
    Spends spent claims' (usesWithout uses (returned.map Booking.id)) := by
  have hmem : ∀ u, u ∈ usesWithout uses (returned.map Booking.id) ↔
      u ∈ uses ∧ u.bookingId ∉ returned.map Booking.id := fun u => by
    simp [usesWithout]
  refine ⟨fun v' hv' => ?_, fun v' hv' u hu u' hu' => ?_⟩
  · obtain ⟨v, hv, hid, _, _, hused⟩ := marked v' hv'
    rw [hused, hid]
    constructor
    · rintro ⟨hu, hnot⟩
      obtain ⟨u, hmemu, hs⟩ := (h.used v hv).mp hu
      refine ⟨u, (hmem u).mpr ⟨hmemu, fun hin => hnot ?_⟩, hs⟩
      obtain ⟨b, hb, hbid⟩ := List.mem_map.mp hin
      exact ⟨b, hb, named b hb u hmemu hbid.symm v hv hs⟩
    · rintro ⟨u, hmemu, hs⟩
      obtain ⟨hmemu, hout⟩ := (hmem u).mp hmemu
      have hu := (h.used v hv).mpr ⟨u, hmemu, hs⟩
      refine ⟨hu, fun hreturned => hout ?_⟩
      obtain ⟨b, hb, hmatched⟩ := hreturned
      obtain ⟨b', hb', u', hmemu', hid', hs'⟩ := own b hb v hv hu hmatched
      rw [h.once v hv u hmemu u' hmemu' hs hs', hid']
      exact List.mem_map_of_mem hb'
  · obtain ⟨v, hv, hid, _⟩ := marked v' hv'
    rw [hid]
    exact h.once v hv u ((hmem u).mp hu).1 u' ((hmem u').mp hu').1

/-- **The vouchers after a creation.**  Its booking is new; the voucher it
names was unused. -/
theorem Spends.created {spent : Id → Option Id} {claims claims' : Table ClaimedCoupon}
    {uses : List CouponUse} (h : Spends spent claims uses) {k : Id} {couponCode : Option String}
    {customerId : Id} (fresh : spent k = none) {voucher : Option Id}
    (coded : ∀ voucherId ∈ voucher, couponCode ≠ none ∧
      ∃ v ∈ claims.rows, v.id = voucherId ∧ v.used = false)
    (marked : Marked (fun v => v.used = true ∨ voucher = some v.id) claims claims') :
    Spends (VoucherWorld.record spent (voucher.map (fun voucherId => (k, voucherId)))) claims'
      (uses ++ (couponCode.map (fun c => (⟨k, c, customerId⟩ : CouponUse))).toList) := by
  have hold : ∀ u ∈ uses, ∀ voucherId, spent u.bookingId = some voucherId →
      VoucherWorld.record spent (voucher.map (fun voucherId => (k, voucherId))) u.bookingId =
        some voucherId := by
    intro u hu voucherId hs
    have hne : u.bookingId ≠ k := by
      rintro rfl
      rw [fresh] at hs
      cases hs
    cases voucher with
    | none => exact hs
    | some x => exact (Function.update_of_ne hne _ _).trans hs
  have hrecord : ∀ j voucherId,
      VoucherWorld.record spent (voucher.map (fun voucherId => (k, voucherId))) j =
        some voucherId → (j = k ∧ voucher = some voucherId) ∨ spent j = some voucherId := by
    intro j voucherId hs
    cases voucher with
    | none => exact .inr hs
    | some x =>
        by_cases hj : j = k
        · subst hj
          rw [Option.map_some, VoucherWorld.record, Function.update_self] at hs
          exact .inl ⟨rfl, hs⟩
        · rw [Option.map_some, VoucherWorld.record, Function.update_of_ne hj] at hs
          exact .inr hs
  have hmem : ∀ u, u ∈ uses ++ (couponCode.map
      (fun c => (⟨k, c, customerId⟩ : CouponUse))).toList →
      u ∈ uses ∨ u.bookingId = k := by
    intro u hu
    rcases List.mem_append.mp hu with hu | hu
    · exact .inl hu
    · obtain ⟨c, _, rfl⟩ := Option.map_eq_some_iff.mp (Option.mem_toList.mp hu)
      exact .inr rfl
  refine ⟨fun v' hv' => ?_, fun v' hv' u hu u' hu' hs hs' => ?_⟩
  · obtain ⟨v, hv, hid, _, _, hused⟩ := marked v' hv'
    rw [hused, hid]
    constructor
    · rintro (hu | hvoucher)
      · obtain ⟨u, hmemu, hs⟩ := (h.used v hv).mp hu
        exact ⟨u, List.mem_append_left _ hmemu, hold u hmemu _ hs⟩
      · obtain ⟨hcode, _⟩ := coded v.id hvoucher
        obtain ⟨c, hc⟩ := Option.ne_none_iff_exists'.mp hcode
        refine ⟨⟨k, c, customerId⟩, List.mem_append_right _ (by simp [hc]), ?_⟩
        rw [hvoucher, Option.map_some, VoucherWorld.record, Function.update_self]
    · rintro ⟨u, hu, hs⟩
      rcases hrecord _ _ hs with ⟨_, hvoucher⟩ | hs
      · exact .inr hvoucher
      · rcases hmem u hu with hu | hk
        · exact .inl ((h.used v hv).mpr ⟨u, hu, hs⟩)
        · rw [hk, fresh] at hs
          cases hs
  · obtain ⟨v, hv, hid, _⟩ := marked v' hv'
    rw [hid] at hs hs'
    have hold' : ∀ x ∈ uses ++ (couponCode.map
        (fun c => (⟨k, c, customerId⟩ : CouponUse))).toList,
        spent x.bookingId = some v.id → x ∈ uses := by
      intro x hx hsx
      rcases hmem x hx with hx | hk
      · exact hx
      · rw [hk, fresh] at hsx
        cases hsx
    -- an older use of the new voucher would have marked it
    have hclash : ∀ x ∈ uses, spent x.bookingId = some v.id → voucher ≠ some v.id := by
      intro x hx hsx hvoucher
      obtain ⟨_, v₀, hv₀, hid₀, hfree⟩ := coded v.id hvoucher
      rw [← hid₀] at hsx
      have := (h.used v₀ hv₀).mpr ⟨x, hx, hsx⟩
      rw [hfree] at this
      cases this
    rcases hrecord _ _ hs with ⟨hk, hvoucher⟩ | hs <;>
      rcases hrecord _ _ hs' with ⟨hk', hvoucher'⟩ | hs'
    · rw [hk, hk']
    · exact absurd hvoucher (hclash u' (hold' u' hu' hs') hs')
    · exact absurd hvoucher' (hclash u (hold' u hu hs) hs)
    · exact h.once v hv u (hold' u hu hs) u' (hold' u' hu' hs') hs hs'

/-- **The vouchers after a recovery**, which finds unused just the voucher its
booking had spent. -/
theorem Spends.recreated {spent : Id → Option Id} {claims claims' : Table ClaimedCoupon}
    {uses : List CouponUse} (h : Spends spent claims uses) {k : Id} {couponCode : Option String}
    {customerId : Id} {matched : ClaimedCoupon → Prop}
    (coded : ∀ v, matched v → couponCode ≠ none)
    (marked : Marked (fun v => v.used = true ∨ matched v) claims claims')
    (named : ∀ v ∈ claims.rows, spent k = some v.id → matched v)
    (own : ∀ v ∈ claims.rows, matched v → (v.used = false ↔ spent k = some v.id)) :
    Spends spent claims'
      (uses ++ (couponCode.map (fun c => (⟨k, c, customerId⟩ : CouponUse))).toList) := by
  have hmem : ∀ u, u ∈ uses ++ (couponCode.map
      (fun c => (⟨k, c, customerId⟩ : CouponUse))).toList →
      u ∈ uses ∨ u.bookingId = k := by
    intro u hu
    rcases List.mem_append.mp hu with hu | hu
    · exact .inl hu
    · obtain ⟨c, _, rfl⟩ := Option.map_eq_some_iff.mp (Option.mem_toList.mp hu)
      exact .inr rfl
  refine ⟨fun v' hv' => ?_, fun v' hv' u hu u' hu' hs hs' => ?_⟩
  · obtain ⟨v, hv, hid, _, _, hused⟩ := marked v' hv'
    rw [hused, hid]
    constructor
    · intro hor
      by_cases hu : v.used = true
      · obtain ⟨u, hmemu, hs⟩ := (h.used v hv).mp hu
        exact ⟨u, List.mem_append_left _ hmemu, hs⟩
      · have hmatched := hor.resolve_left hu
        have hs := (own v hv hmatched).mp (by simpa using hu)
        obtain ⟨c, hc⟩ := Option.ne_none_iff_exists'.mp (coded v hmatched)
        exact ⟨⟨k, c, customerId⟩, List.mem_append_right _ (by simp [hc]), hs⟩
    · rintro ⟨u, hu, hs⟩
      rcases hmem u hu with hu | hk
      · exact .inl ((h.used v hv).mpr ⟨u, hu, hs⟩)
      · exact .inr (named v hv (hk ▸ hs))
  · obtain ⟨v, hv, hid, _⟩ := marked v' hv'
    rw [hid] at hs hs'
    -- a voucher the booking had spent is unused, so no other use has it
    have hclash : ∀ x ∈ uses, spent x.bookingId = some v.id → spent k ≠ some v.id := by
      intro x hx hsx hsk
      have hu := (h.used v hv).mpr ⟨x, hx, hsx⟩
      rw [(own v hv (named v hv hsk)).mpr hsk] at hu
      cases hu
    rcases hmem u hu with hu | hk <;> rcases hmem u' hu' with hu' | hk'
    · exact h.once v hv u hu u' hu' hs hs'
    · exact absurd (hk' ▸ hs') (hclash u hu hs)
    · exact absurd (hk ▸ hs) (hclash u' hu' hs')
    · rw [hk, hk']

/-! ## What a task does to the claims -/

/-- The claims and the codes after a task. -/
structure ClaimsMarked (P : ClaimedCoupon → Prop) (db db' : Db) : Prop where
  marked : Marked P db.claimedCoupons db'.claimedCoupons
  codeOf : ∀ k, db'.codeOf k = db.codeOf k

theorem ClaimsMarked.same {P : ClaimedCoupon → Prop} {db₁ : Db}
    (h : ClaimsMarked P db db₁) (same : SameCoupons db₁ db') : ClaimsMarked P db db' := by
  refine ⟨?_, fun k => ?_⟩
  · rw [same.2]
    exact h.marked
  · rw [← h.codeOf k, Db.codeOf, same.1]
    rfl

theorem ClaimsMarked.refl (db : Db) : ClaimsMarked (fun v => v.used = true) db db :=
  ⟨.refl _, fun _ => rfl⟩

/-- Cancellations free the vouchers of the bookings they cancel, and no other. -/
theorem ClaimsMarked.returned (h : db.CodesUnique) (returned : List Booking) :
    ClaimsMarked (fun v => v.used = true ∧
        ¬ ∃ b ∈ returned, db.Matches b.couponCode b.customerId v)
      db (refundCoupons now db returned) :=
  ⟨(refundCoupons_marked returned h).1, (refundCoupons_marked returned h).2⟩

/-- What every run keeps of the vouchers. -/
structure Vouched (spent : Id → Option Id) (db : Db) : Prop where
  codes : db.CodesUnique
  origin : Origin spent db
  spends : Spends spent db.claimedCoupons (usesOf db.bookings)

/-- **The booking a voucher went to keeps its customer and its code over a step.** -/
theorem Origin.step {spent : Id → Option Id} {P : ClaimedCoupon → Prop} {chain : Option Id}
    (h : Origin spent db) (st : Steps G chain db db') (m : ClaimsMarked P db db') :
    Origin spent db' := by
  intro k voucherId hs
  obtain ⟨core, frozen, hm⟩ := h k voucherId hs
  refine ⟨core, fun u => (frozen u).step (st.moves u k), fun v' hv' hid' => ?_⟩
  obtain ⟨v, hv, hid, huser, hcoupon, _⟩ := m.marked v' hv'
  have := hm v hv (hid.symm.trans hid')
  simp only [Db.Matches, m.codeOf, huser, hcoupon] at this ⊢
  exact this

/-- The live booking of a voucher makes a use. -/
theorem Vouched.use_of_spender {w : VoucherWorld} (h : Vouched w.spent w.sys.db) {k : Id}
    {v : ClaimedCoupon} (hv : v ∈ w.sys.db.claimedCoupons.rows) (hs : w.Spender k v.id) :
    ∃ u ∈ usesOf w.sys.db.bookings, u.bookingId = k ∧ w.spent u.bookingId = some v.id := by
  obtain ⟨hspent, b, hb, live⟩ := hs
  obtain ⟨core, frozen, hm⟩ := h.origin k v.id hspent
  have hcore := (frozen 0).2.1 b.file (dossier_of_find hb 0)
  obtain ⟨hmem, hid⟩ := Table.find?_eq_some.mp hb
  have hcode : b.couponCode ≠ none := by
    have hcoded := (hm v hv rfl).2.1
    rw [← hcore] at hcoded
    exact hcoded
  obtain ⟨code, hcode⟩ := Option.ne_none_iff_exists'.mp hcode
  have huse : b.file.use? = some ⟨b.id, code, b.customerId⟩ :=
    BookingFile.use?_eq_some.mpr ⟨live, rfl, hcode, rfl⟩
  have hid : b.id = k := hid
  exact ⟨_, List.mem_filterMap.mpr ⟨b, hmem, huse⟩, hid, by rw [← hspent, ← hid]⟩

/-- **Returns of the coupons of bookings that were read.** -/
theorem Vouched.returned {w : VoucherWorld} (h : Vouched w.spent w.sys.db)
    (returned : List Booking)
    (frozen : ∀ b ∈ returned, ∀ u, (w.sys.db.dossier u b.id).Frozen b.core)
    (own : ∀ b ∈ returned, ∀ v ∈ w.sys.db.claimedCoupons.rows, v.used = true →
      w.sys.db.Matches b.couponCode b.customerId v →
      ∃ b' ∈ returned, w.Spender b'.id v.id) :
    Spends w.spent (refundCoupons now w.sys.db returned).claimedCoupons
      (usesWithout (usesOf w.sys.db.bookings) (returned.map Booking.id)) := by
  refine h.spends.returned returned (fun b => w.sys.db.Matches b.couponCode b.customerId)
    (refundCoupons_marked returned h.codes).1 ?_ ?_
  · intro b hb u hu hid v hv hs
    have hnamed := h.origin.named hu hv hs
    obtain ⟨x, hx, huse⟩ := List.mem_filterMap.mp hu
    obtain ⟨_, hxid, hcode, hcustomer⟩ := BookingFile.use?_eq_some.mp huse
    have hfind : w.sys.db.bookings.find? b.id = some x :=
      Table.find?_eq_some.mpr ⟨hx, hxid.symm.trans hid⟩
    have hcore := (frozen b hb 0).2.1 x.file (dossier_of_find hfind 0)
    rw [hcore] at hcode hcustomer
    have hcode : b.couponCode = some u.couponCode := hcode
    have hcustomer : u.customerId = b.customerId := hcustomer
    rw [hcode, ← hcustomer]
    exact hnamed
  · intro b hb v hv hused hm
    obtain ⟨b', hb', hs⟩ := own b hb v hv hused hm
    obtain ⟨u, hu, hid, hs⟩ := h.use_of_spender hv hs
    exact ⟨b', hb', u, hu, hid, hs⟩

/-- A cancel in flight is of a booking of its customer. -/
def Sys.OwnCancels (s : Sys) : Prop :=
  ∀ r, Task.cancel r ∈ s.inflight → r.userId = r.booking.customerId

/-- No task leaves a cancel. -/
theorem Task.next_ne_cancel {t : Task} {r : CancelRead} :
    (t.run env now db).2 ≠ some (.cancel r) := by
  have hsecond : ∀ cutoff, secondPass env now db cutoff ≠ some (.cancel r) := by
    intro cutoff h
    obtain ⟨_, _, h⟩ := Option.bind_eq_some_iff.mp h
    split at h <;> cases h
  intro h
  cases t with
  | create p ref =>
      simp only [Task.run] at h
      split at h
      · cases h
      · obtain ⟨_, h⟩ := Option.ite_none_right_eq_some.mp h
        cases h
  | settle payment params isSuccess =>
      simp only [Task.run] at h
      split at h
      · cases h
      · unfold afterSettle at h
        split at h
        · cases h
        · obtain ⟨_, _, h⟩ := Option.map_eq_some_iff.mp h
          cases h
        · cases h
        · cases h
  | unCancel p b =>
      simp only [Task.run] at h
      split at h
      · obtain ⟨_, _, h⟩ := Option.map_eq_some_iff.mp h
        cases h
      · cases h
  | b2Check p | m6Check p k | recreate p amount bookingId s =>
      simp only [Task.run] at h
      split at h <;> cases h
  | awardBatch bookings cutoff =>
      simp only [Task.run] at h
      split at h
      · exact hsecond cutoff h
      · cases h
  | award rate todo cutoff =>
      cases todo with
      | nil => exact hsecond cutoff h
      | cons b todo => cases h
  | _ => cases h

/-- A customer cancels a booking of their own. -/
theorem cancelRead_own {userId bookingId : Id} {r : CancelRead}
    (h : cancelRead env now db userId bookingId = .ok r) :
    r.userId = r.booking.customerId := by
  simp only [cancelRead, bind_eq_ok, orThrow_eq_ok, pure_eq_ok,
    Option.filter_eq_some_iff] at h
  obtain ⟨b, ⟨_, hmine⟩, _, _, _, _, _, _, rfl⟩ := h
  exact (of_decide_eq_true hmine).symm

theorem Request.read_cancel {request : Request} {r : CancelRead}
    (h : request.read env now db = .ok (some (.cancel r))) :
    r.userId = r.booking.customerId := by
  cases request with
  | cancelBooking userId bookingId =>
      simp only [Request.read, bind_eq_ok, pure_eq_ok, Option.some.injEq] at h
      obtain ⟨r', hr, h⟩ := h
      obtain rfl := Task.cancel.inj h
      exact cancelRead_own hr
  | createBooking userId dto ref =>
      simp only [Request.read, bind_eq_ok, pure_eq_ok, Option.map_eq_some_iff] at h
      obtain ⟨_, _, _, _, h⟩ := h
      cases h
  | handleCallback params =>
      simp only [Request.read, callbackRead, bind_eq_ok] at h
      obtain ⟨_, _, payment, _, h⟩ := h
      split at h <;> cases h
  | autoCancelStalePendingBookings =>
      simp only [Request.read] at h
      split at h <;> cases h
  | autoCompletePastBookings => cases h
  | _ =>
      simp only [Request.read, bind_eq_ok, pure_eq_ok, Option.some.injEq] at h
      obtain ⟨_, _, h⟩ := h
      cases h

/-- Every cancellation in flight is of an own booking. -/
theorem Sys.OwnCancels.step {s s' : Sys} {a : Action} (h : s.OwnCancels)
    (hstep : s.step env a = some s') : s'.OwnCancels := by
  intro r hr
  rcases Sys.step_cases hstep with ⟨_, _, rfl⟩ | ⟨request, t, _, hread, rfl⟩ |
    ⟨index, t, _, _, rfl⟩
  · exact h r hr
  · rcases List.mem_append.mp hr with hr | hr
    · exact h r hr
    · rw [← List.mem_singleton.mp hr] at hread
      exact request.read_cancel hread
  · rcases Sys.mem_ran hr with hr | hr
    · exact h r (List.mem_of_mem_eraseIdx hr)
    · exact absurd hr Task.next_ne_cancel

/-! ## One task -/

theorem VoucherWorld.ReturnsOwn.spender {w : VoucherWorld} {a : Action} {t : Task}
    (h : w.ReturnsOwn a) (ht : w.sys.task? a = some t) {returned : List Booking}
    (sub : ∀ b ∈ returned, b ∈ t.returns w.sys.db)
    (sup : ∀ b ∈ t.returns w.sys.db, returned ≠ [] → b.id ∈ returned.map Booking.id) :
    ∀ b ∈ returned, ∀ v ∈ w.sys.db.claimedCoupons.rows, v.used = true →
      w.sys.db.Matches b.couponCode b.customerId v →
      ∃ b' ∈ returned, w.Spender b'.id v.id := by
  intro b hb v hv hused hm
  obtain ⟨b₁, hb₁, hs⟩ := h t ht b (sub b hb) v hv hused hm
  obtain ⟨b', hb', hid⟩ := List.mem_map.mp (sup b₁ hb₁ (List.ne_nil_of_mem hb))
  exact ⟨b', hb', hid ▸ hs⟩

/-- **One task that is no creation keeps the vouchers with the bookings.** -/
theorem Vouched.run {w : VoucherWorld} (h : Vouched w.spent w.sys.db)
    (hc : Consistent w.sys) (unsystem : ∀ u k, (w.sys.db.dossier u k).Unsystem)
    (mine : w.sys.OwnCancels) {a : Action} {t : Task} (ht : w.sys.task? a = some t)
    (hin : t ∈ w.sys.inflight) (old : ∀ p ref, t ≠ .create p ref) (ok : w.Orderly a)
    {chain : Option Id} (st : Steps G chain w.sys.db (t.run env w.sys.now w.sys.db).1) :
    ∃ P, ClaimsMarked P w.sys.db (t.run env w.sys.now w.sys.db).1 ∧
      Spends w.spent (t.run env w.sys.now w.sys.db).1.claimedCoupons
        (usesOf (t.run env w.sys.now w.sys.db).1.bookings) := by
  have relies := hc.relies t hin
  -- a task that returns the coupons of some bookings
  have hreturn : ∀ (returned : List Booking) (db' : Db),
      SameCoupons (refundCoupons w.sys.now w.sys.db returned) db' →
      usesOf db'.bookings =
        usesWithout (usesOf w.sys.db.bookings) (returned.map Booking.id) →
      (∀ b ∈ returned, ∀ u, (w.sys.db.dossier u b.id).Frozen b.core) →
      (∀ b ∈ returned, ∀ v ∈ w.sys.db.claimedCoupons.rows, v.used = true →
        w.sys.db.Matches b.couponCode b.customerId v →
        ∃ b' ∈ returned, w.Spender b'.id v.id) →
      ∃ P, ClaimsMarked P w.sys.db db' ∧
        Spends w.spent db'.claimedCoupons (usesOf db'.bookings) := by
    intro returned db' same uses frozen own
    refine ⟨_, (ClaimsMarked.returned h.codes returned).same same, ?_⟩
    rw [same.2, uses]
    exact h.returned returned frozen own
  cases t.run_coupons env w.sys.now w.sys.db with
  | idle _ same uses =>
      refine ⟨_, (ClaimsMarked.refl w.sys.db).same same, ?_⟩
      rw [same.2, uses]
      exact h.spends
  | revived _ b found dead hrevives same =>
      exact absurd dead (hc.not_revived unsystem ht hin ok.sane found hrevives)
  | unpaid r b found live unpaid uses same =>
      obtain ⟨q, hq, _⟩ := hc.filed.payment_of_live hc.wired found live
      rw [hq] at unpaid
      cases unpaid
  | created p ref => exact absurd rfl (old p ref)
  | declined payment params q b found pending link doomed uses same =>
      have hreturns : (Task.settle payment params false).returns w.sys.db = [b] := by
        simp [Task.returns, found, pending, link, doomed, Option.filter]
      refine hreturn [b] _ same uses ?_ (hreturns ▸ ok.returns _ ht)
      intro b' hb' u
      rw [List.mem_singleton.mp hb']
      exact (hc.filed u b.id).frozen (dossier_of_find doomed u)
  | cancelled r row soft uses same =>
      have stands : r.Stands w.sys.db := by
        refine soft.imp_right fun hpaid => ?_
        obtain ⟨payment, q, hp, hq, hsame, _⟩ := hpaid
        exact ⟨payment, hp, q, hq, hsame⟩
      have hreturns : (Task.cancel r).returns w.sys.db = [r.booking] := if_pos stands
      rw [mine r hin] at same
      refine hreturn [r.booking] _ same uses ?_ (hreturns ▸ ok.returns _ ht)
      intro b' hb' u
      rw [List.mem_singleton.mp hb']
      exact relies.frozen u
  | operated r b cancels found live uses same =>
      have hid : b.id = r.booking.id := (Table.find?_eq_some.mp found).2
      have hreturns : (Task.update r).returns w.sys.db = [b] := by
        simp [Task.returns, cancels, found, live]
      rw [← hid] at uses found
      refine hreturn [b] _ same uses ?_ (hreturns ▸ ok.returns _ ht)
      intro b' hb' u
      rw [List.mem_singleton.mp hb']
      exact (hc.filed u b.id).frozen (dossier_of_find found u)
  | reaped stale claimed scanned whole reaps =>
      have hdeleted := reaps.deleted
      refine hreturn claimed _ reaps.coupons ?_ (fun b hb => (relies b (scanned b hb)).1)
        (ok.returns.spender ht ?_ ?_)
      · rw [hdeleted]
        exact uses_deleteMany _
      · intro b hb
        refine List.mem_filter.mpr ⟨scanned b hb, decide_eq_true ?_⟩
        obtain ⟨x, hx, hpending⟩ := reaps.reserved b hb
        exact ⟨x, hx, hpending⟩
      · intro b hb hne
        obtain ⟨hstale, hpending⟩ := List.mem_filter.mp hb
        obtain ⟨x, hx, hpending⟩ := of_decide_eq_true hpending
        exact whole hne b hstale ⟨x, hx, hpending⟩
  | recreated paymentId amount bookingId s inserted same =>
      obtain ⟨k, rfl, _, _⟩ := relies
      have hrows := (Table.insert?_eq_some.mp inserted).2
      have huses : [recreatedBooking k paymentId s].filterMap (fun b => b.file.use?) =
          (s.couponCode.map (fun c => (⟨k, c, s.customerId⟩ : CouponUse))).toList := by
        cases hcode : s.couponCode <;>
          simp [BookingFile.use?, Booking.file, Booking.core, recreatedBooking, hcode]
      have hretakes := ok.retakes (k, s) (by rw [ht]; rfl)
      have hmarked := reclaimCouponUsage_marked h.codes s.couponCode s.customerId
      refine ⟨_, ClaimsMarked.same ⟨hmarked, fun j =>
        reclaimCouponUsage_codeOf w.sys.db s.couponCode s.customerId j⟩ same, ?_⟩
      rw [same.2, usesOf, hrows, List.filterMap_append, Option.getD_some, huses]
      refine h.spends.recreated (fun v hm => hm.2.1) hmarked ?_ hretakes
      -- the snapshot is of the booking the voucher was spent for
      intro v hv hs
      obtain ⟨core, frozen, hm⟩ := h.origin k v.id hs
      have hfind := Table.find?_key ((Table.mem_of_insert? inserted).mpr (.inr rfl))
      have hfile := dossier_of_find hfind 0
      have hcore := ((frozen 0).step (st.moves 0 k)).2.1 _ hfile
      have := hm v hv rfl
      rw [← hcore] at this
      exact this

/-- A creation and what it leaves of the discount. -/
theorem Vouched.created {w : VoucherWorld} (h : Vouched w.spent w.sys.db)
    {p : PreparedBooking} {ref : String} {b : Booking}
    (htx : createBookingTx env w.sys.now w.sys.db p ref = .ok (db', b))
    {chain : Option Id} (st : Steps G chain w.sys.db db') (filed : Filed db') :
    Vouched (VoucherWorld.record w.spent
      (p.dto.voucherId.map (fun voucherId => (b.id, voucherId)))) db' := by
  have moved : Moved (CouponMove w.sys.now (.create p ref)) w.sys.db.coupons db'.coupons := by
    have := Task.run_moved env w.sys.now w.sys.db (.create p ref)
    rwa [Task.run, htx] at this
  obtain ⟨totalPrice, r, taken, same, hcode⟩ := createBookingTx_coupons htx
  obtain ⟨unitNumber, q, hcreated⟩ := createBookingTx_created htx
  have hrows : db'.bookings.rows = w.sys.db.bookings.rows ++ [b] := hcreated.stored.bookings
  have hid : b.id = w.sys.db.nextId + 1 := by
    rw [hcreated.booking]
    rfl
  have hcustomer : b.customerId = p.userId := by
    rw [hcreated.booking]
    rfl
  have live : b.status ≠ .cancelled := by
    rw [hcreated.booking]
    simp only [newBooking]
    split <;> simp
  have fresh : w.spent b.id = none := by
    by_contra hne
    obtain ⟨voucherId, hs⟩ := Option.ne_none_iff_exists'.mp hne
    obtain ⟨core, frozen, _⟩ := h.origin b.id voucherId hs
    have hused : b.id < w.sys.db.nextId := of_decide_eq_true (frozen 0).1
    rw [hid] at hused
    lia
  obtain ⟨hcodes, hclaims⟩ := applyDiscount_claims taken
  -- the claims, and the voucher that was named
  have hmarked : Marked (fun v => v.used = true ∨ p.dto.voucherId = some v.id)
      w.sys.db.claimedCoupons db'.claimedCoupons := by
    rw [same.2]
    rcases hclaims with ⟨hnone, hclaims⟩ | ⟨voucherId, _, hsome, _, _, _, hmarked⟩
    · rw [hclaims, hnone]
      exact fun v hv => ⟨v, hv, rfl, rfl, rfl, by simp⟩
    · rw [hsome]
      intro v' hv'
      obtain ⟨v, hv, hid, huser, hcoupon, hused⟩ := hmarked v' hv'
      refine ⟨v, hv, hid, huser, hcoupon, hused.trans (or_congr_right ?_)⟩
      rw [Option.some.injEq]
      exact eq_comm
  have hnamed : ∀ voucherId, p.dto.voucherId = some voucherId → ∃ v ∈
      w.sys.db.claimedCoupons.rows, v.id = voucherId ∧ v.used = false ∧
        w.sys.db.Matches b.couponCode b.customerId v := by
    intro voucherId hv
    rcases hclaims with ⟨hnone, _⟩ | ⟨x, claimed, hsome, hfound, hunused, hmatches, _⟩
    · rw [hnone] at hv
      cases hv
    · obtain rfl := Option.some.inj (hsome.symm.trans hv)
      obtain ⟨hmem, hclaimed⟩ := Table.find?_eq_some.mp hfound
      rw [hcode, hcustomer]
      exact ⟨claimed, hmem, hclaimed, hunused, hmatches⟩
  have hclaimsMarked : ClaimsMarked _ w.sys.db db' :=
    ClaimsMarked.same ⟨by rw [← same.2]; exact hmarked, hcodes⟩ same
  have huses : usesOf db'.bookings = usesOf w.sys.db.bookings ++
      (b.couponCode.map (fun c => (⟨b.id, c, b.customerId⟩ : CouponUse))).toList := by
    rw [usesOf, hrows, List.filterMap_append]
    have huse : b.file.use? =
        b.couponCode.map (fun c => (⟨b.id, c, b.customerId⟩ : CouponUse)) := if_neg live
    refine congrArg (usesOf w.sys.db.bookings ++ ·) ?_
    rw [← huse]
    cases hu : b.file.use? <;> simp [hu]
  refine ⟨h.codes.moved moved (fun _ _ => CouponMove.code), ?_, ?_⟩
  · -- a new entry of the record is of the new booking
    have hkept := h.origin.step st hclaimsMarked
    intro k voucherId hs
    by_cases hk : k = b.id ∧ p.dto.voucherId = some voucherId
    · obtain ⟨rfl, hv⟩ := hk
      have hmem : b ∈ db'.bookings.rows := hrows ▸ List.mem_append_right _ (by simp)
      have hfind := Table.find?_key hmem
      refine ⟨b.core, fun u => (filed u b.id).frozen (dossier_of_find hfind u), ?_⟩
      intro v' hv' hid'
      obtain ⟨v, hv, hid, huser, hcoupon, _⟩ := hclaimsMarked.marked v' hv'
      obtain ⟨v₀, hv₀, hid₀, _, hmatches⟩ := hnamed voucherId ‹_›
      obtain rfl : v = v₀ := Table.key_inj hv hv₀ (hid.symm.trans (hid'.trans hid₀.symm))
      simp only [Db.Matches, hclaimsMarked.codeOf, huser, hcoupon] at hmatches ⊢
      exact hmatches
    · refine hkept k voucherId ?_
      cases hvoucher : p.dto.voucherId with
      | none => rwa [hvoucher] at hs
      | some x =>
          rw [hvoucher, Option.map_some, VoucherWorld.record] at hs
          by_cases hkb : k = b.id
          · subst hkb
            rw [Function.update_self] at hs
            exact absurd ⟨rfl, hvoucher.trans hs⟩ hk
          · rwa [Function.update_of_ne hkb] at hs
  · rw [huses]
    refine h.spends.created fresh (fun voucherId hv => ?_) hmarked
    obtain ⟨v, hv, hid, hunused, hmatches⟩ := hnamed voucherId hv
    exact ⟨hmatches.2.1, v, hv, hid, hunused⟩

/-! ## Runs -/

/-- What every orderly run keeps. -/
structure VoucherWorld.Kept (w : VoucherWorld) : Prop where
  consistent : Consistent w.sys
  unsystem : ∀ u k, (w.sys.db.dossier u k).Unsystem
  mine : w.sys.OwnCancels
  vouched : Vouched w.spent w.sys.db

/-- **One orderly step keeps every voucher with its spender.** -/
theorem VoucherWorld.Kept.step {w w' : VoucherWorld} {a : Action} (h : w.Kept)
    (ok : w.Orderly a) (hstep : w.step env a = some w') : w'.Kept := by
  obtain ⟨sys, hsys, rfl⟩ := Option.map_eq_some_iff.mp hstep
  obtain ⟨hc, chain, st⟩ := h.consistent.step ok.sane.guarded hsys
  refine ⟨hc, fun u k => (h.unsystem u k).step (st.moves u k), h.mine.step hsys, ?_⟩
  rcases Sys.step_cases hsys with ⟨elapsed, rfl, rfl⟩ | ⟨_, _, rfl, _, rfl⟩ |
    ⟨index, t, rfl, ht, rfl⟩
  · exact h.vouched
  · exact h.vouched
  have hin := List.mem_of_getElem? ht
  by_cases hnew : ∃ p ref, t = .create p ref
  · obtain ⟨p, ref, rfl⟩ := hnew
    cases htx : createBookingTx env w.sys.now w.sys.db p ref with
    | error e =>
        have hspends : w.sys.spends env (.run index) = none := by
          simp only [Sys.spends, Sys.task?, ht, htx]
        simp only [hspends, VoucherWorld.record, Sys.ran, Task.run, htx]
        exact h.vouched
    | ok r =>
        obtain ⟨db', b⟩ := r
        have hspends : w.sys.spends env (.run index) =
            p.dto.voucherId.map (fun voucherId => (b.id, voucherId)) := by
          simp only [Sys.spends, Sys.task?, ht, htx]
        simp only [Sys.ran, Task.run, htx] at st hc ⊢
        rw [hspends]
        exact h.vouched.created htx st hc.filed
  · have hspends : w.sys.spends env (.run index) = none := by
      simp only [Sys.spends, Sys.task?, ht]
      cases t with
      | create p ref => exact absurd ⟨p, ref, rfl⟩ hnew
      | _ => rfl
    rw [hspends]
    have htask : w.sys.task? (.run index) = some t := ht
    obtain ⟨P, claims, spends⟩ := h.vouched.run h.consistent h.unsystem h.mine htask hin
      (fun p ref heq => hnew ⟨p, ref, heq⟩) ok st
    exact ⟨h.vouched.codes.moved (Task.run_moved env w.sys.now w.sys.db t)
      (fun _ _ => CouponMove.code), h.vouched.origin.step st claims, spends⟩

/-- A voucher with one spender is spent once. -/
theorem Vouched.spentOnce {w : VoucherWorld} (h : Vouched w.spent w.sys.db) :
    w.SpentOnce := by
  intro v hv
  rw [h.spends.used v hv]
  constructor
  · rintro ⟨u, hu, hs⟩
    have hnamed := h.origin.named hu hv hs
    obtain ⟨b, hb, huse⟩ := List.mem_filterMap.mp hu
    obtain ⟨live, hid, _, hcustomer⟩ := BookingFile.use?_eq_some.mp huse
    have hid : u.bookingId = b.id := hid
    exact ⟨b, hb, live, hcustomer.symm.trans hnamed.1.symm, hid ▸ hs⟩
  · rintro ⟨b, hb, live, _, hs⟩
    obtain ⟨u, hu, _, hs⟩ := h.use_of_spender hv ⟨hs, b, Table.find?_key hb, live⟩
    exact ⟨u, hu, hs⟩

/-- At the start no voucher is spent. -/
theorem Initial.kept {s : Sys} (h : Initial s) (codes : s.db.CodesUnique)
    (unused : ∀ v ∈ s.db.claimedCoupons.rows, v.used = false) :
    VoucherWorld.Kept ⟨s, fun _ => none⟩ := by
  refine ⟨h.consistent, fun u k => ?_, fun r hr => ?_, codes, fun k _ hs => ?_,
    fun v hv => ?_, fun _ _ u _ _ _ hs => ?_⟩
  · rw [h.dossier]
    simp [Dossier.Unsystem, Dossier.blank]
  · rw [h.inflight] at hr
    cases hr
  · cases hs
  · simp [unused v hv]
  · cases hs

/-- **A claimed voucher is spent once.**  In a run whose returns and recoveries
keep to the vouchers of their own bookings, a voucher is used exactly while a
live booking of its customer was paid with it. -/
theorem vouchers_spent_once {s₀ : Sys} (h : Initial s₀) (codes : s₀.db.CodesUnique)
    (unused : ∀ v ∈ s₀.db.claimedCoupons.rows, v.used = false) {w : VoucherWorld}
    (run : Run (VoucherWorld.step env) VoucherWorld.Orderly ⟨s₀, fun _ => none⟩ w) :
    w.SpentOnce := by
  have kept : w.Kept := run.invariant VoucherWorld.Kept
    (fun _ _ _ hw ok hstep => hw.step ok hstep) (h.kept codes unused)
  exact kept.vouched.spentOnce

instance (w : VoucherWorld) (bookingId voucherId : Id) :
    Decidable (w.Spender bookingId voucherId) :=
  inferInstanceAs (Decidable (_ ∧ ∃ b ∈ w.sys.db.bookings.find? bookingId,
    b.status ≠ .cancelled))

instance (w : VoucherWorld) (a : Action) : Decidable (w.ReturnsOwn a) :=
  inferInstanceAs (Decidable (∀ t ∈ w.sys.task? a, ∀ b ∈ t.returns w.sys.db,
    ∀ v ∈ w.sys.db.claimedCoupons.rows, v.used = true →
      w.sys.db.Matches b.couponCode b.customerId v →
      ∃ b' ∈ t.returns w.sys.db, w.Spender b'.id v.id))

instance (w : VoucherWorld) (a : Action) : Decidable (w.RetakesOwn a) :=
  inferInstanceAs (Decidable (∀ r ∈ (w.sys.task? a).bind Task.recreates,
    ∀ v ∈ w.sys.db.claimedCoupons.rows,
      w.sys.db.Matches r.2.couponCode r.2.customerId v →
      (v.used = false ↔ w.spent r.1 = some v.id)))

instance (w : VoucherWorld) (a : Action) : Decidable (w.Orderly a) :=
  decidable_of_iff (w.ReturnsOwn a ∧ w.RetakesOwn a ∧ w.sys.SaneUpdate a)
    ⟨fun h => ⟨h.1, h.2.1, h.2.2⟩, fun h => ⟨h.returns, h.retakes, h.sane⟩⟩

/-- The marketplace with a coupon for any number of uses. -/
def voucherMarket : Sys :=
  { market with db := { couponMarketDb with
      coupons := ⟨[{ marketCoupon with usageLimit := none }], by decide⟩ } }

theorem voucherMarket_initial : Initial voucherMarket :=
  ⟨market_initial.bookings, market_initial.payments, market_initial.ledger, rfl⟩

theorem voucherMarket_unused : ∀ v ∈ voucherMarket.db.claimedCoupons.rows, v.used = false := by
  decide

theorem voucherMarket_codes : voucherMarket.db.CodesUnique := by
  intro c hc c' hc' _
  rw [List.mem_singleton.mp hc, List.mem_singleton.mp hc']

/-- The booking paid with the voucher is reaped and recovered. -/
theorem vouchers_spent_once_recovered :
    ∃ w, Run (VoucherWorld.step marketEnv) VoucherWorld.Orderly
        ⟨voucherMarket, fun _ => none⟩ w ∧
      (∃ v ∈ w.sys.db.claimedCoupons.rows, v.used = true) ∧ w.SpentOnce := by
  obtain ⟨w, run, h⟩ := @Run.of_execAll_test _ _ (VoucherWorld.step marketEnv)
    VoucherWorld.Orderly _
    (abandonedVoucher ++ [.begin .autoCancelStalePendingBookings, .run 0,
      .begin (.handleCallback (marketIpn "B1")), .run 0, .run 0, .run 0])
    ⟨voucherMarket, fun _ => none⟩
    (fun w => ∃ v ∈ w.sys.db.claimedCoupons.rows, v.used = true) (by decide +kernel)
  exact ⟨w, run, of_decide_eq_true h, vouchers_spent_once voucherMarket_initial
    voucherMarket_codes voucherMarket_unused run⟩

/-- The customer books once by typing the code and once with the claimed
voucher, and cancels the first booking: the voucher of the second is free. -/
theorem voucher_freed_by_another :
    Initial voucherMarket ∧ voucherMarket.db.CodesUnique ∧
    (∀ v ∈ voucherMarket.db.claimedCoupons.rows, v.used = false) ∧
    ∃ w, Run (VoucherWorld.step marketEnv) (fun w a => w.sys.LiveDelete a)
        ⟨voucherMarket, fun _ => none⟩ w ∧
      (∃ v ∈ w.sys.db.claimedCoupons.rows, v.used = false ∧ w.Spender 103 v.id) ∧
      ¬ w.SpentOnce := by
  refine ⟨voucherMarket_initial, voucherMarket_codes, voucherMarket_unused, ?_⟩
  obtain ⟨w, run, h⟩ := @Run.of_execAll_test _ _ (VoucherWorld.step marketEnv)
    (fun w a => w.sys.LiveDelete a) _
    [.begin (.createBooking 1 { marketRequest none with couponCode := some "SUMMER" } "R1"),
      .run 0, .run 0, .begin (.createBooking 1 (voucherRequest 8 720) "R2"), .run 0, .run 0,
      .begin (.cancelBooking 1 101), .run 0]
    ⟨voucherMarket, fun _ => none⟩
    (fun w => ∃ v ∈ w.sys.db.claimedCoupons.rows, v.used = false ∧ v.userId = 1 ∧
      w.spent 103 = some v.id ∧ ∃ b ∈ w.sys.db.bookings.find? 103, b.status ≠ .cancelled ∧
        b.customerId = 1) (by decide +kernel)
  obtain ⟨v, hv, hunused, huser, hspent, b, hb, live, hcustomer⟩ := of_decide_eq_true h
  refine ⟨w, run, ⟨v, hv, hunused, hspent, b, hb, live⟩, fun honce => ?_⟩
  obtain ⟨hb, hid⟩ := Table.find?_eq_some.mp hb
  have hid : b.id = 103 := hid
  have := (honce v hv).mpr ⟨b, hb, live, hcustomer.trans huser.symm, hid ▸ hspent⟩
  rw [hunused] at this
  cases this

end Jadwal
