import Jadwal.Schema

/-!
# Coupons

The use counter of a coupon and the per-customer claim, as bookings take
and return them.  None of these statements touches a booking, a payment or
a balance (`refundCouponUsage_frame`, `reclaimCouponUsage_frame`).
-/

namespace Jadwal

open Outcome

/-- `findUnique({ where: { code } })`. -/
def findCoupon (db : Db) (code : String) : Option Coupon :=
  db.coupons.first? (fun c => c.code = code)

/-- Returns one use of the coupon: decrements the counter, frees the
customer's claim, and re-approves a coupon that was expired only because
it had reached its cap. -/
def refundCouponUsage (now : Instant) (db : Db) (couponCode : Option String)
    (customerId : Id) : Db :=
  match couponCode.bind (findCoupon db) with
  | none => db
  | some coupon =>
      let decremented := coupon.usedCount > 0
      let coupons := db.coupons.update coupon.id (fun c =>
        if c.usedCount > 0 then { c with usedCount := c.usedCount - 1 } else c)
        (by intro c; split <;> rfl)
      let claimedCoupons := db.claimedCoupons.updateMany
        (fun c => c.userId = customerId ∧ c.couponId = coupon.id ∧ c.used)
        (fun c => { c with used := false })
      let atCap := ∃ limit ∈ coupon.usageLimit, coupon.usedCount ≥ limit
      let coupons :=
        if decremented ∧ coupon.status = .expired ∧ atCap ∧ coupon.validTo > now then
          coupons.update coupon.id (fun c => { c with status := .approved })
        else coupons
      { db with coupons := coupons, claimedCoupons := claimedCoupons }

/-- Takes the use again when orphan recovery re-inserts the booking: the
counter climbs unless it is at the cap, and the claim is marked used. -/
def reclaimCouponUsage (db : Db) (couponCode : Option String) (customerId : Id) : Db :=
  match couponCode.bind (findCoupon db) with
  | none => db
  | some coupon =>
      let coupons := db.coupons.update coupon.id (fun c =>
        match coupon.usageLimit with
        | some limit =>
            if limit = 0 ∨ c.usedCount < limit then
              { c with usedCount := c.usedCount + 1 } else c
        | none => { c with usedCount := c.usedCount + 1 })
        (by intro c; cases coupon.usageLimit <;> simp only <;> (try split) <;> rfl)
      let claimedCoupons := db.claimedCoupons.updateMany
        (fun c => c.userId = customerId ∧ c.couponId = coupon.id ∧ ¬ c.used)
        (fun c => { c with used := true })
      { db with coupons := coupons, claimedCoupons := claimedCoupons }

theorem refundCouponUsage_frame (now : Instant) (db : Db)
    (couponCode : Option String) (customerId : Id) :
    SameCore db (refundCouponUsage now db couponCode customerId) := by
  unfold refundCouponUsage
  split
  · exact SameCore.refl db
  · constructor <;> rfl

theorem reclaimCouponUsage_frame (db : Db) (couponCode : Option String)
    (customerId : Id) :
    SameCore db (reclaimCouponUsage db couponCode customerId) := by
  unfold reclaimCouponUsage
  split
  · exact SameCore.refl db
  · constructor <;> rfl

end Jadwal
