import Jadwal.Vouchers

/-!
# Claimed vouchers and the uses left for them

`claimOffer` puts a voucher of a platform coupon into a customer's wallet; a creation with
the voucher, or with the code typed by anybody, takes a use of the coupon.  A claim is
checked against the number of claims, a use against the number of uses, and nothing against
both together.  `wallets_served` says what keeps the two together within the limit: a claim,
a typed use and a recovery without a voucher each find a use that no unused voucher stands
for.
-/

namespace Jadwal

open Outcome

variable {env : Env} {now : Instant} {db db' db'' : Db}

/-! ## Claiming and deleting -/

/-- What `claimOffer` read before its transaction. -/
structure ClaimRead where
  userId : Id
  coupon : Coupon
  deriving DecidableEq, Repr

/-- The checks of `claimOffer` on the coupon, for a customer. -/
def claimRead (now : Instant) (db : Db) (userId couponId : Id) : Tx ClaimRead := do
  let coupon ← orThrow (db.coupons.find? couponId) (.badRequest "Offer not found")
  ensure (coupon.vendorId = none) (.badRequest "This is not a platform offer")
  ensure (coupon.status = .approved) (.badRequest "This offer is not available")
  ensure (coupon.validFrom ≤ now) (.badRequest "This offer is not yet active")
  ensure (now ≤ coupon.validTo) (.badRequest "This offer has expired")
  ensure (∀ limit ∈ truthyLimit coupon.usageLimit, coupon.usedCount < limit)
    (.badRequest "This offer has reached its limit")
  return ⟨userId, coupon⟩

/-- The claims on a coupon. -/
def Db.claims (db : Db) (couponId : Id) : Nat :=
  db.claimedCoupons.rows.countP (fun v => v.couponId = couponId)

/-- Its transaction: a customer claims once, and the claims stay within the limit. -/
def claimCommit (db : Db) (r : ClaimRead) : Tx Db := do
  ensure (∀ v ∈ db.claimedCoupons.rows, ¬ (v.userId = r.userId ∧ v.couponId = r.coupon.id))
    (.badRequest "You have already claimed this offer")
  ensure (∀ limit ∈ truthyLimit r.coupon.usageLimit, (db.claims r.coupon.id : Int) < limit)
    (.badRequest "This offer has reached its limit")
  let claimedCoupons ← orThrow (db.claimedCoupons.insert?
      { id := db.nextId, userId := r.userId, couponId := r.coupon.id })
    (.uniqueViolation "claimed_coupons.id")
  return { db with nextId := db.nextId + 1, claimedCoupons := claimedCoupons }

/-- What deleting an account does to its wallet. -/
def deleteClaims (db : Db) (userId : Id) : Db :=
  { db with claimedCoupons := db.claimedCoupons.deleteMany (fun v => v.userId = userId) }

/-! ## The system with its wallets -/

/-- The system, and the claims read and not yet committed. -/
structure WalletWorld where
  sys : Sys
  claiming : List ClaimRead

inductive WalletAction
  /-- A step of the system. -/
  | sys (a : Action)
  | beginClaim (userId couponId : Id)
  | commitClaim (index : Nat)
  | deleteAccount (userId : Id)

def WalletWorld.step (env : Env) (w : WalletWorld) : WalletAction → Option WalletWorld
  | .sys a => (w.sys.step env a).map (fun sys => { w with sys := sys })
  | .beginClaim userId couponId =>
      (claimRead w.sys.now w.sys.db userId couponId).toOption.map
        (fun r => { w with claiming := w.claiming ++ [r] })
  | .commitClaim index => (w.claiming[index]?).map (fun r =>
      { sys := { w.sys with db := committed w.sys.db (claimCommit w.sys.db r) }
        claiming := w.claiming.eraseIdx index })
  | .deleteAccount userId =>
      some { w with sys := { w.sys with db := deleteClaims w.sys.db userId } }

/-- The claims on a coupon that are still to be used. -/
def Db.unused (db : Db) (couponId : Id) : Nat :=
  db.claimedCoupons.rows.countP (fun v => v.couponId = couponId ∧ v.used = false)

/-- The unused vouchers of a coupon and its uses are within its limit. -/
def Db.Serves (db : Db) (c : Coupon) : Prop :=
  ∀ limit ∈ c.usageLimit, (db.unused c.id : Int) + c.usedCount ≤ limit

/-- A use is left that no unused voucher stands for. -/
def Db.Spare (db : Db) (c : Coupon) : Prop :=
  ∀ limit ∈ c.usageLimit, (db.unused c.id : Int) + c.usedCount < limit

instance (db : Db) (c : Coupon) : Decidable (db.Spare c) :=
  inferInstanceAs (Decidable (∀ limit ∈ c.usageLimit, _))

instance (db : Db) (c : Coupon) : Decidable (db.Serves c) :=
  inferInstanceAs (Decidable (∀ limit ∈ c.usageLimit, _))

/-- The task takes a use of the coupon for which no voucher is given up: its code was typed,
or it recovers a booking of a customer without an unused voucher. -/
def Task.Draws (db : Db) (c : Coupon) : Task → Prop
  | .create p _ => ∃ code ∈ p.dto.couponCode, code.toUpper = c.code
  | .recreate _ _ _ s => s.couponCode = some c.code ∧
      ∀ v ∈ db.claimedCoupons.rows, ¬ (v.userId = s.customerId ∧ v.couponId = c.id ∧
        v.used = false)
  | _ => False

/-- The condition on a step: a claim, and a use without a voucher, find a use to spare. -/
def WalletWorld.HasSpare (w : WalletWorld) : WalletAction → Prop
  | .sys a => ∀ t ∈ w.sys.task? a, ∀ c ∈ w.sys.db.coupons.rows, t.Draws w.sys.db c →
      w.sys.db.Spare c
  | .commitClaim index => ∀ r ∈ w.claiming[index]?, ∀ c ∈ w.sys.db.coupons.rows,
      c.id = r.coupon.id → w.sys.db.Spare c
  | _ => True

/-! ## Counting claims -/

/-- Whose the claims are and on what. -/
def Db.owners (db : Db) : List (Id × Id) :=
  db.claimedCoupons.rows.map (fun v => (v.userId, v.couponId))

theorem Db.claims_eq (db : Db) (k : Id) : db.claims k = db.owners.countP (fun o => o.2 = k) := by
  simp only [Db.claims, Db.owners, List.countP_map]
  rfl

theorem Db.unused_le_claims (db : Db) (k : Id) : db.unused k ≤ db.claims k :=
  List.countP_mono_left fun _ _ h => decide_eq_true (of_decide_eq_true h).1

/-- A customer has one claim on a coupon at most. -/
theorem Db.claim_once (distinct : db.owners.Nodup) (userId k : Id) :
    db.claimedCoupons.rows.countP (fun v => v.userId = userId ∧ v.couponId = k) ≤ 1 := by
  have hone := List.nodup_iff_count_le_one.mp distinct (userId, k)
  rw [List.count, Db.owners, List.countP_map] at hone
  refine le_trans (List.countP_mono_left fun v _ h => ?_) hone
  have h := of_decide_eq_true h
  simp [h]

/-- The claims with new marks. -/
def remark (mark : ClaimedCoupon → Bool) (rows : List ClaimedCoupon) : List ClaimedCoupon :=
  rows.map (fun v => { v with used := mark v })

theorem remark_unused {mark : ClaimedCoupon → Bool}
    (h : db'.claimedCoupons.rows = remark mark db.claimedCoupons.rows) (k : Id) :
    db'.unused k =
      db.claimedCoupons.rows.countP (fun v => v.couponId = k ∧ v.used = false ∧ mark v = false) +
      db.claimedCoupons.rows.countP (fun v => v.couponId = k ∧ v.used = true ∧ mark v = false) := by
  rw [Db.unused, h, remark, List.countP_map,
    List.countP_eq_countP_filter_add _ _ (fun v => !v.used), List.countP_filter,
    List.countP_filter]
  refine congrArg₂ (· + ·) ?_ ?_ <;>
  · refine List.countP_congr fun v _ => ?_
    simp only [Function.comp_apply, Bool.and_eq_true, decide_eq_true_eq, Bool.not_eq_true',
      Bool.not_not]
    tauto

theorem remark_owners {mark : ClaimedCoupon → Bool}
    (h : db'.claimedCoupons.rows = remark mark db.claimedCoupons.rows) :
    db'.owners = db.owners := by
  rw [Db.owners, h, remark, List.map_map]
  rfl

theorem unused_split (mark : ClaimedCoupon → Bool) (k : Id) :
    db.unused k =
      db.claimedCoupons.rows.countP (fun v => v.couponId = k ∧ v.used = false ∧ mark v = false) +
      db.claimedCoupons.rows.countP (fun v => v.couponId = k ∧ v.used = false ∧ mark v = true) := by
  rw [Db.unused, List.countP_eq_countP_filter_add _ _ (fun v => !mark v), List.countP_filter,
    List.countP_filter]
  refine congrArg₂ (· + ·) ?_ ?_ <;>
  · refine List.countP_congr fun v _ => ?_
    simp only [Bool.and_eq_true, decide_eq_true_eq, Bool.not_eq_true', Bool.not_not]
    tauto

/-! ## What a task does to the wallets -/

/-- The claims keep their owners, and the unused vouchers and the uses of a coupon grow by
one at most, for the coupons of `extra`; a use returned at zero stays within the claims. -/
structure Drawn (extra : Coupon → Prop) (db db' : Db) : Prop where
  owners : db'.owners = db.owners
  coupons : ∀ c' ∈ db'.coupons.rows, ∃ c ∈ db.coupons.rows, c.id = c'.id ∧
    c'.usageLimit = c.usageLimit ∧ (0 ≤ c.usedCount → 0 ≤ c'.usedCount) ∧
    ((db'.unused c.id : Int) + c'.usedCount ≤ db.unused c.id + c.usedCount ∨
      (db'.unused c.id : Int) + c'.usedCount ≤ db.claims c.id ∨
      (extra c ∧ (db'.unused c.id : Int) + c'.usedCount ≤ db.unused c.id + c.usedCount + 1))

variable {extra : Coupon → Prop}

theorem SameCoupons.unused (same : SameCoupons db db') (k : Id) : db'.unused k = db.unused k := by
  rw [Db.unused, same.2, Db.unused]

theorem Drawn.same (same : SameCoupons db db') : Drawn extra db db' := by
  refine ⟨?_, fun c hc => ⟨c, same.1 ▸ hc, rfl, rfl, id, .inl ?_⟩⟩
  · rw [Db.owners, same.2, Db.owners]
  · rw [same.unused]

theorem Drawn.congr (h : Drawn extra db db') (same : SameCoupons db' db'') :
    Drawn extra db db'' := by
  refine ⟨?_, fun c hc => ?_⟩
  · rw [← h.owners, Db.owners, same.2, Db.owners]
  · obtain ⟨x, hx, hid, hlimit, hnonneg, hdrawn⟩ := h.coupons c (same.1 ▸ hc)
    refine ⟨x, hx, hid, hlimit, hnonneg, ?_⟩
    rw [same.unused]
    exact hdrawn

/-- Returns one after the other draw nothing. -/
theorem Drawn.trans (h : Drawn (fun _ => False) db db') (h' : Drawn (fun _ => False) db' db'') :
    Drawn extra db db'' := by
  refine ⟨h'.owners.trans h.owners, fun c'' hc'' => ?_⟩
  obtain ⟨c', hc', hid', hlimit', hnonneg', hdrawn'⟩ := h'.coupons c'' hc''
  obtain ⟨c, hc, hid, hlimit, hnonneg, hdrawn⟩ := h.coupons c' hc'
  refine ⟨c, hc, hid.trans hid', hlimit'.trans hlimit, fun h => hnonneg' (hnonneg h), ?_⟩
  have hclaims : db'.claims c.id = db.claims c.id := by
    rw [Db.claims_eq, h.owners, ← Db.claims_eq]
  rw [← hid, hclaims] at hdrawn'
  rcases hdrawn' with hdrawn' | hdrawn' | ⟨hno, _⟩
  · rcases hdrawn with hdrawn | hdrawn | ⟨hno, _⟩
    · exact .inl (hdrawn'.trans hdrawn)
    · exact .inr (.inl (hdrawn'.trans hdrawn))
    · exact hno.elim
  · exact .inr (.inl hdrawn')
  · exact hno.elim

/-- A returned use gives the customer's vouchers of the code back. -/
theorem refundCouponUsage_remarks (codes : db.CodesUnique) (couponCode : Option String)
    (customerId : Id) :
    (refundCouponUsage now db couponCode customerId).claimedCoupons.rows =
      remark (fun v => v.used ∧ ¬ db.Matches couponCode customerId v)
        db.claimedCoupons.rows := by
  unfold refundCouponUsage
  cases hfound : couponCode.bind (findCoupon db) with
  | none =>
      refine (List.map_id _).symm.trans (List.map_congr_left fun v _ => ?_)
      simp [not_matches_of_none hfound]
  | some coupon =>
      obtain ⟨code, rfl, hcode⟩ := Option.bind_eq_some_iff.mp hfound
      refine List.map_congr_left fun v _ => ?_
      simp only [codes.matches_iff hcode, decide_eq_true_eq]
      split
      · rename_i h
        simp [h]
      · rename_i h
        obtain ⟨id, userId, couponId, used⟩ := v
        cases used with
        | false => rfl
        | true => simp_all

/-- A use taken again marks them as used. -/
theorem reclaimCouponUsage_remarks (codes : db.CodesUnique) (couponCode : Option String)
    (customerId : Id) :
    (reclaimCouponUsage db couponCode customerId).claimedCoupons.rows =
      remark (fun v => v.used ∨ db.Matches couponCode customerId v)
        db.claimedCoupons.rows := by
  unfold reclaimCouponUsage
  cases hfound : couponCode.bind (findCoupon db) with
  | none =>
      refine (List.map_id _).symm.trans (List.map_congr_left fun v _ => ?_)
      simp [not_matches_of_none hfound]
  | some coupon =>
      obtain ⟨code, rfl, hcode⟩ := Option.bind_eq_some_iff.mp hfound
      refine List.map_congr_left fun v _ => ?_
      simp only [codes.matches_iff hcode, decide_eq_true_eq]
      split
      · rename_i h
        simp [h]
      · rename_i h
        obtain ⟨id, userId, couponId, used⟩ := v
        cases used with
        | true => rfl
        | false => simp_all

/-- The vouchers given back: one at most, of the coupon of the code. -/
theorem countP_freed (distinct : db.owners.Nodup) {c : Coupon} (hc : c ∈ db.coupons.rows)
    (couponCode : Option String) (customerId : Id) :
    db.claimedCoupons.rows.countP (fun v => v.couponId = c.id ∧ v.used = true ∧
        decide (v.used = true ∧ ¬ db.Matches couponCode customerId v) = false) ≤
      if couponCode = some c.code then 1 else 0 := by
  have hcode : db.codeOf c.id = some c.code := by
    have hfind : db.coupons.find? c.id = some c := Table.find?_key hc
    rw [Db.codeOf, hfind]
    rfl
  have hfreed : ∀ v : ClaimedCoupon, decide (v.couponId = c.id ∧ v.used = true ∧
      decide (v.used = true ∧ ¬ db.Matches couponCode customerId v) = false) = true →
        v.couponId = c.id ∧ v.userId = customerId ∧ couponCode = some c.code := by
    intro v h
    obtain ⟨hk, hu, hno⟩ := of_decide_eq_true h
    have hm := not_and_not_right.mp (of_decide_eq_false hno) hu
    refine ⟨hk, hm.1, ?_⟩
    rw [← hcode, ← hk]
    exact hm.2.2.symm
  split
  · refine le_trans (List.countP_mono_left fun v _ h => ?_)
      (db.claim_once distinct customerId c.id)
    exact decide_eq_true ⟨(hfreed v h).2.1, (hfreed v h).1⟩
  · rename_i hne
    exact (List.countP_eq_zero.mpr fun v _ h => hne (hfreed v h).2.2).le

/-- A returned use frees one voucher at most. -/
theorem refundCouponUsage_drawn (codes : db.CodesUnique) (distinct : db.owners.Nodup)
    (couponCode : Option String) (customerId : Id) :
    Drawn (fun _ => False) db (refundCouponUsage now db couponCode customerId) := by
  have hrows := @refundCouponUsage_remarks now db codes couponCode customerId
  refine ⟨remark_owners hrows, fun c' hc' => ?_⟩
  obtain ⟨c, hc, hid, _, hlimit, hcount⟩ := refundCouponUsage_row codes c' hc'
  have hunused := remark_unused hrows c.id
  have hle := (refundCouponUsage now db couponCode customerId).unused_le_claims c.id
  rw [Db.claims_eq, remark_owners hrows, ← Db.claims_eq] at hle
  have hkept : db.claimedCoupons.rows.countP (fun v => v.couponId = c.id ∧ v.used = false ∧
      decide (v.used = true ∧ ¬ db.Matches couponCode customerId v) = false) =
        db.unused c.id :=
    List.countP_congr fun v _ => by simp; tauto
  rw [hkept] at hunused
  refine ⟨c, hc, hid, hlimit, fun hnonneg => ?_, ?_⟩
  · rw [hcount]
    split <;> lia
  · have hfreed := countP_freed distinct hc couponCode customerId
    by_cases hmatch : couponCode = some c.code
    · rw [if_pos hmatch] at hfreed
      by_cases hpos : 0 < c.usedCount
      · rw [if_pos ⟨hmatch, hpos⟩] at hcount
        lia
      · rw [if_neg fun h => hpos h.2] at hcount
        lia
    · rw [if_neg hmatch] at hfreed
      rw [if_neg fun h => hmatch h.1] at hcount
      lia

theorem refundCoupons_drawn (claimed : List Booking) : ∀ {db : Db}, db.CodesUnique →
    db.owners.Nodup → Drawn (fun _ => False) db (refundCoupons now db claimed) := by
  induction claimed with
  | nil => exact fun _ _ => .same ⟨rfl, rfl⟩
  | cons b claimed ih =>
      intro db codes distinct
      have hfirst := @refundCouponUsage_drawn now db codes distinct b.couponCode b.customerId
      exact hfirst.trans (ih (codes.moved
        (refundCouponUsage_moved now db b.couponCode b.customerId) fun _ _ => Returned.code)
        (hfirst.owners ▸ distinct))

/-- Marking vouchers as used leaves no more of them unused. -/
theorem remark_used {P : ClaimedCoupon → Prop} [DecidablePred P]
    (h : db'.claimedCoupons.rows = remark (fun v => v.used ∨ P v) db.claimedCoupons.rows)
    (k : Id) :
    db.unused k = db'.unused k +
      db.claimedCoupons.rows.countP (fun v => v.couponId = k ∧ v.used = false ∧ P v) := by
  have hkept : db.claimedCoupons.rows.countP (fun v => v.couponId = k ∧ v.used = true ∧
      decide (v.used = true ∨ P v) = false) = 0 :=
    List.countP_eq_zero.mpr fun v _ => by
      cases hu : v.used <;> simp
  have hgiven : db.claimedCoupons.rows.countP (fun v => v.couponId = k ∧ v.used = false ∧
      decide (v.used = true ∨ P v) = true) =
        db.claimedCoupons.rows.countP (fun v => v.couponId = k ∧ v.used = false ∧ P v) :=
    List.countP_congr fun v _ => by
      cases hu : v.used <;> simp
  rw [remark_unused h, hkept, Nat.add_zero, unused_split, hgiven]

/-- A creation takes a use against its voucher, or draws on the coupon typed. -/
theorem applyDiscount_drawn (codes : db.CodesUnique) {p : PreparedBooking} {ref : String}
    {totalPrice : Cents} {r : Db × Option String × Cents}
    (h : applyDiscount now db p totalPrice = .ok r) :
    Drawn (fun c => (Task.create p ref).Draws db c) db r.1 := by
  have hcount := applyDiscount_row codes h
  have hnonneg : ∀ c c' : Coupon, c'.usedCount =
      (if r.2.1 = some c.code then c.usedCount + 1 else c.usedCount) →
        0 ≤ c.usedCount → 0 ≤ c'.usedCount := by
    intro c c' hc hle
    rw [hc]
    split <;> lia
  cases applyDiscount_cases h with
  | plain => exact .same ⟨rfl, rfl⟩
  | voucher voucherId claimed coupon db' _ given _ unused found _ taken =>
      have hrows : db'.claimedCoupons.rows =
          remark (fun v => v.used ∨ v.id = voucherId) db.claimedCoupons.rows := by
        rw [(takeCouponUse_ok taken).1]
        refine List.map_congr_left fun v _ => ?_
        have hkey : Keyed.key v = v.id := rfl
        by_cases hid : v.id = voucherId <;> simp [hkey, hid]
      obtain ⟨hmem, hid⟩ := Table.find?_eq_some.mp given
      obtain ⟨hcoupon, hcid⟩ := Table.find?_eq_some.mp found
      refine ⟨remark_owners hrows, fun c' hc' => ?_⟩
      obtain ⟨c, hrow, hid', _, hlimit, hcount⟩ := hcount c' hc'
      refine ⟨c, hrow, hid', hlimit, hnonneg c c' hcount, .inl ?_⟩
      have hused := remark_used hrows c.id
      by_cases hcode : some coupon.code = some c.code
      · rw [if_pos hcode] at hcount
        have hgiven : 0 < db.claimedCoupons.rows.countP (fun v => v.couponId = c.id ∧
            v.used = false ∧ v.id = voucherId) := by
          refine List.countP_pos_iff.mpr ⟨claimed, hmem, decide_eq_true ⟨?_, unused, hid⟩⟩
          exact hcid.symm.trans (codes.code_iff hcoupon hrow |>.mp hcode).symm
        lia
      · rw [if_neg hcode] at hcount
        lia
  | typed couponCode coupon db' named _ _ _ _ taken =>
      have hsame : db'.claimedCoupons = db.claimedCoupons := (takeCouponUse_ok taken).1
      have hunused : ∀ k, db'.unused k = db.unused k := fun k => by
        rw [Db.unused, hsame, Db.unused]
      refine ⟨by rw [Db.owners, hsame, Db.owners], fun c' hc' => ?_⟩
      obtain ⟨c, hrow, hid', _, hlimit, hcount⟩ := hcount c' hc'
      refine ⟨c, hrow, hid', hlimit, hnonneg c c' hcount, ?_⟩
      rw [hunused]
      by_cases hcode : some couponCode.toUpper = some c.code
      · rw [if_pos hcode] at hcount
        exact .inr (.inr ⟨⟨couponCode, named, Option.some.inj hcode⟩, by lia⟩)
      · rw [if_neg hcode] at hcount
        exact .inl (by lia)

/-- A recovery takes a use against the customer's voucher, or draws on the coupon. -/
theorem reclaimCouponUsage_drawn (codes : db.CodesUnique) (paymentId : Id) (amount : Cents)
    (bookingId : Option Id) (s : BookingSnapshot) :
    Drawn (fun c => (Task.recreate paymentId amount bookingId s).Draws db c) db
      (reclaimCouponUsage db s.couponCode s.customerId) := by
  have hrows := reclaimCouponUsage_remarks codes s.couponCode s.customerId
  refine ⟨remark_owners hrows, fun c' hc' => ?_⟩
  obtain ⟨c, hc, hid, _, hlimit, hcount⟩ := reclaimCouponUsage_row codes c' hc'
  have hused := remark_used hrows c.id
  refine ⟨c, hc, hid, hlimit, fun hle => ?_, ?_⟩
  · rw [hcount]
    split <;> lia
  · by_cases htaken : s.couponCode = some c.code ∧
        ∀ limit ∈ c.usageLimit, limit = 0 ∨ c.usedCount < limit
    · rw [if_pos htaken] at hcount
      by_cases hgiven : ∀ v ∈ db.claimedCoupons.rows, ¬ (v.userId = s.customerId ∧
          v.couponId = c.id ∧ v.used = false)
      · exact .inr (.inr ⟨⟨htaken.1, hgiven⟩, by lia⟩)
      · push Not at hgiven
        obtain ⟨v, hv, huser, hcoupon, hunused⟩ := hgiven
        have hmatch : db.Matches s.couponCode s.customerId v := by
          rw [htaken.1]
          exact (codes.matches_iff (codes.find hc) _ v).mpr ⟨huser, hcoupon⟩
        have hpos : 0 < db.claimedCoupons.rows.countP (fun v => v.couponId = c.id ∧
            v.used = false ∧ db.Matches s.couponCode s.customerId v) :=
          List.countP_pos_iff.mpr ⟨v, hv, decide_eq_true ⟨hcoupon, hunused, hmatch⟩⟩
        exact .inl (by lia)
    · rw [if_neg htaken] at hcount
      exact .inl (by lia)

/-- **What a task draws.** -/
theorem Task.run_drawn (codes : db.CodesUnique) (distinct : db.owners.Nodup) (t : Task) :
    Drawn (t.Draws db) db (t.run env now db).1 := by
  have weaken : ∀ {db' : Db}, Drawn (fun _ => False) db db' → Drawn (t.Draws db) db db' :=
    fun h => h.trans (.same ⟨rfl, rfl⟩)
  cases t.run_coupons env now db with
  | idle _ same => exact .same same
  | revived _ _ _ _ _ same => exact .same same
  | unpaid _ _ _ _ _ _ same => exact .same same
  | declined _ _ _ _ _ _ _ _ _ same =>
      exact (weaken (refundCouponUsage_drawn codes distinct _ _)).congr same
  | cancelled _ _ _ _ same =>
      exact (weaken (refundCouponUsage_drawn codes distinct _ _)).congr same
  | operated _ _ _ _ _ _ same =>
      exact (weaken (refundCouponUsage_drawn codes distinct _ _)).congr same
  | reaped stale claimed _ _ reaps =>
      exact (weaken (refundCoupons_drawn claimed codes distinct)).congr reaps.coupons
  | created p ref totalPrice r b taken same => exact (applyDiscount_drawn codes taken).congr same
  | recreated paymentId amount bookingId s _ same =>
      exact (reclaimCouponUsage_drawn codes paymentId amount bookingId s).congr same

/-! ## Runs -/

/-- The unique indexes hold, no counter is negative, the claims on a coupon and its unused
vouchers with its uses are within its limit, and a claim in flight has read that limit. -/
structure WalletWorld.Stocked (w : WalletWorld) : Prop where
  codes : w.sys.db.CodesUnique
  distinct : w.sys.db.owners.Nodup
  nonneg : ∀ c ∈ w.sys.db.coupons.rows, 0 ≤ c.usedCount
  claimed : ∀ c ∈ w.sys.db.coupons.rows, ∀ limit ∈ c.usageLimit,
    (w.sys.db.claims c.id : Int) ≤ limit
  served : ∀ c ∈ w.sys.db.coupons.rows, w.sys.db.Serves c
  reads : ∀ r ∈ w.claiming, ∀ c ∈ w.sys.db.coupons.rows, c.id = r.coupon.id →
    c.usageLimit = r.coupon.usageLimit

/-- A task that draws on coupons with a use to spare keeps the wallets served. -/
theorem WalletWorld.Stocked.run {w : WalletWorld} (h : w.Stocked) {t : Task} {sys' : Sys}
    (spare : ∀ c ∈ w.sys.db.coupons.rows, t.Draws w.sys.db c → w.sys.db.Spare c)
    (hdb : sys'.db = (t.run env now w.sys.db).1) :
    ({ w with sys := sys' } : WalletWorld).Stocked := by
  have hdrawn := @Task.run_drawn env now w.sys.db h.codes h.distinct t
  rw [← hdb] at hdrawn
  have hclaims : ∀ k, sys'.db.claims k = w.sys.db.claims k := fun k => by
    rw [Db.claims_eq, hdrawn.owners, ← Db.claims_eq]
  refine ⟨?_, hdrawn.owners ▸ h.distinct, fun c' hc' => ?_, fun c' hc' limit hlimit => ?_,
    fun c' hc' limit hlimit => ?_, fun r hr c' hc' hid => ?_⟩
  · exact h.codes.moved (hdb ▸ t.run_moved env now w.sys.db) fun _ _ m => m.code
  · obtain ⟨c, hc, _, _, hnonneg, _⟩ := hdrawn.coupons c' hc'
    exact hnonneg (h.nonneg c hc)
  · obtain ⟨c, hc, hid, hsame, _⟩ := hdrawn.coupons c' hc'
    have hle := h.claimed c hc limit (hsame ▸ hlimit)
    rw [hclaims, ← hid]
    exact hle
  · obtain ⟨c, hc, hid, hsame, _, hdrawn⟩ := hdrawn.coupons c' hc'
    rw [hsame] at hlimit
    have hserves := h.served c hc limit hlimit
    have hclaimed := h.claimed c hc limit hlimit
    rw [← hid]
    rcases hdrawn with hle | hle | ⟨hdraws, hle⟩
    · exact hle.trans hserves
    · exact hle.trans hclaimed
    · have hspare := spare c hc hdraws limit hlimit
      lia
  · obtain ⟨c, hc, hid', hsame, _⟩ := hdrawn.coupons c' hc'
    exact hsame.trans (h.reads r hr c hc (hid'.trans hid))

/-- A claim of a coupon with a use to spare keeps them served. -/
theorem WalletWorld.Stocked.claim {w : WalletWorld} (h : w.Stocked) {r : ClaimRead}
    (hr : r ∈ w.claiming)
    (spare : ∀ c ∈ w.sys.db.coupons.rows, c.id = r.coupon.id → w.sys.db.Spare c)
    (hcommit : claimCommit w.sys.db r = .ok db') :
    ({ w with sys := { w.sys with db := db' } } : WalletWorld).Stocked := by
  simp only [claimCommit, bind_eq_ok, ensure_eq_ok, orThrow_eq_ok, pure_eq_ok] at hcommit
  obtain ⟨_, hfirst, _, hroom, claimedCoupons, hinsert, hdb⟩ := hcommit
  have hcoupons : db'.coupons = w.sys.db.coupons := by rw [← hdb]
  have hrows : db'.claimedCoupons.rows = w.sys.db.claimedCoupons.rows ++
      [⟨w.sys.db.nextId, r.userId, r.coupon.id, false⟩] := by
    rw [← hdb]
    exact (Table.insert?_eq_some.mp hinsert).2
  have hclaims : ∀ k, db'.claims k =
      w.sys.db.claims k + if r.coupon.id = k then 1 else 0 := fun k => by
    rw [Db.claims, hrows, List.countP_append]
    simp [List.countP_cons, Db.claims]
  have hunused : ∀ k, db'.unused k =
      w.sys.db.unused k + if r.coupon.id = k then 1 else 0 := fun k => by
    rw [Db.unused, hrows, List.countP_append]
    simp [List.countP_cons, Db.unused]
  obtain ⟨codes, distinct, nonneg, claimed, served, reads⟩ := h
  refine ⟨?_, ?_, ?_, fun c hc limit hlimit => ?_, fun c hc limit hlimit => ?_, ?_⟩
  · simpa only [Db.CodesUnique, hcoupons] using codes
  · have hnew : (r.userId, r.coupon.id) ∉ w.sys.db.owners := by
      intro hmem
      obtain ⟨v, hv, howner⟩ := List.mem_map.mp hmem
      exact hfirst v hv ⟨congrArg Prod.fst howner, congrArg Prod.snd howner⟩
    simp only [Db.owners, hrows, List.map_append, List.map_cons, List.map_nil]
    exact List.nodup_append_comm.mp (List.nodup_cons.mpr ⟨hnew, distinct⟩)
  · simpa only [hcoupons] using nonneg
  · have hc : c ∈ w.sys.db.coupons.rows := hcoupons ▸ hc
    have hle := claimed c hc limit hlimit
    have hnonneg := nonneg c hc
    rw [hclaims]
    by_cases hid : r.coupon.id = c.id
    · have hspare := spare c hc hid.symm limit hlimit
      have hpos : limit ≠ 0 := by lia
      have hsame := reads r hr c hc hid.symm
      have hlt := hroom limit (Option.filter_eq_some_iff.mpr
        ⟨hsame ▸ hlimit, by simpa using hpos⟩)
      rw [hid] at hlt
      rw [if_pos hid]
      lia
    · rw [if_neg hid]
      lia
  · have hc : c ∈ w.sys.db.coupons.rows := hcoupons ▸ hc
    have hle := served c hc limit hlimit
    rw [hunused]
    by_cases hid : r.coupon.id = c.id
    · have hspare := spare c hc hid.symm limit hlimit
      rw [if_pos hid]
      lia
    · rw [if_neg hid]
      lia
  · simpa only [hcoupons] using reads

/-- **A step with a use to spare keeps the wallets served.** -/
theorem WalletWorld.Stocked.step {w w' : WalletWorld} {a : WalletAction} (h : w.Stocked)
    (spare : w.HasSpare a) (hstep : w.step env a = some w') : w'.Stocked := by
  cases a with
  | sys a =>
      obtain ⟨s', hs, rfl⟩ := Option.map_eq_some_iff.mp hstep
      rcases Sys.step_db hs with ⟨hdb, _⟩ | ⟨t, ht, hdb, _⟩
      · obtain ⟨codes, distinct, nonneg, claimed, served, reads⟩ := h
        rw [← hdb] at codes distinct nonneg claimed served reads
        exact ⟨codes, distinct, nonneg, claimed, served, reads⟩
      · exact h.run (spare t ht) hdb
  | beginClaim userId couponId =>
      obtain ⟨r, hr, rfl⟩ := Option.map_eq_some_iff.mp hstep
      have hok := toOption_eq_some.mp hr
      simp only [claimRead, bind_eq_ok, ensure_eq_ok, orThrow_eq_ok, pure_eq_ok] at hok
      obtain ⟨coupon, hfound, _, _, _, _, _, _, _, _, _, _, rfl⟩ := hok
      refine ⟨h.codes, h.distinct, h.nonneg, h.claimed, h.served, fun r hr c hc hid => ?_⟩
      rcases List.mem_append.mp hr with hr | hr
      · exact h.reads r hr c hc hid
      · obtain rfl := List.mem_singleton.mp hr
        rw [Table.key_inj hc (Table.find?_eq_some.mp hfound).1 hid]
  | commitClaim index =>
      obtain ⟨r, hr, rfl⟩ := Option.map_eq_some_iff.mp hstep
      have hmem := List.mem_of_getElem? hr
      have hrest : ∀ r ∈ w.claiming.eraseIdx index, r ∈ w.claiming :=
        fun r hr => List.mem_of_mem_eraseIdx hr
      cases htx : claimCommit w.sys.db r with
      | error e =>
          exact ⟨h.codes, h.distinct, h.nonneg, h.claimed, h.served,
            fun r hr => h.reads r (hrest r hr)⟩
      | ok db' =>
          obtain ⟨codes, distinct, nonneg, claimed, served, reads⟩ := h.claim hmem (spare r hr) htx
          exact ⟨codes, distinct, nonneg, claimed, served, fun r hr => reads r (hrest r hr)⟩
  | deleteAccount userId =>
      obtain rfl := Option.some.inj hstep
      have hsub : (deleteClaims w.sys.db userId).claimedCoupons.rows.Sublist
        w.sys.db.claimedCoupons.rows := List.filter_sublist
      refine ⟨h.codes, h.distinct.sublist (hsub.map _), h.nonneg, fun c hc limit hlimit => ?_,
        fun c hc limit hlimit => ?_, h.reads⟩
      · have hle := h.claimed c hc limit hlimit
        have hfewer : (deleteClaims w.sys.db userId).claims c.id ≤ w.sys.db.claims c.id :=
          hsub.countP_le
        exact (Nat.cast_le.mpr hfewer).trans hle
      · have hle := h.served c hc limit hlimit
        have hfewer : (deleteClaims w.sys.db userId).unused c.id ≤ w.sys.db.unused c.id :=
          hsub.countP_le
        exact (add_le_add_left (Nat.cast_le.mpr hfewer) _).trans hle

/-- A request with the code of the coupon typed. -/
def typedRequest : CreateBookingDto :=
  { marketRequest none with slotTime := some 600, couponCode := some "summer" }

instance (db : Db) (c : Coupon) : (t : Task) → Decidable (t.Draws db c)
  | .create p _ => inferInstanceAs (Decidable (∃ code ∈ p.dto.couponCode, code.toUpper = c.code))
  | .recreate _ _ _ s => inferInstanceAs (Decidable (s.couponCode = some c.code ∧
      ∀ v ∈ db.claimedCoupons.rows, ¬ (v.userId = s.customerId ∧ v.couponId = c.id ∧
        v.used = false)))
  | .stampOtp .. | .initiate .. | .hold .. | .settle .. | .b2Check .. | .m6Check .. |
    .unCancel .. | .queueRefund .. | .cancel .. | .decide .. | .update .. | .reap .. |
    .awardBatch .. | .award .. | .complete .. => isFalse id

instance (w : WalletWorld) : (a : WalletAction) → Decidable (w.HasSpare a)
  | .sys a => inferInstanceAs (Decidable (∀ t ∈ w.sys.task? a, ∀ c ∈ w.sys.db.coupons.rows,
      t.Draws w.sys.db c → w.sys.db.Spare c))
  | .commitClaim index => inferInstanceAs (Decidable (∀ r ∈ w.claiming[index]?,
      ∀ c ∈ w.sys.db.coupons.rows, c.id = r.coupon.id → w.sys.db.Spare c))
  | .beginClaim .. | .deleteAccount .. => isTrue trivial

end Jadwal
