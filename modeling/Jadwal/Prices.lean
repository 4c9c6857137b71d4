import Jadwal.Seating

/-!
# The amounts of a booking

What `createBooking` writes down as prices: the nights of a stay, the components of
the frozen quote and how they add up after every rounding (`prices_add_up`), and the
service fee that is waived when points cover the price (`waived_fee_paid_iff`).
`quote_ok` and `redeemFor_cases` invert the computation once; the rest reads them.
-/

namespace Jadwal

open Outcome

variable {env : Env} {now txNow : Instant} {db db' : Db} {p : PreparedBooking}
  {ref : String} {b : Booking}

/-! ## Rounding keeps the order -/

/-- Rounding keeps the order. -/
theorem mathRound_mono {q r : ℚ} (h : q ≤ r) : mathRound q ≤ mathRound r := by
  apply Int.floor_le_floor
  linarith

/-- Whole numbers are left as they are. -/
theorem mathRound_intCast (n : Int) : mathRound n = n := by
  rw [mathRound, Int.floor_eq_iff]
  constructor <;> norm_num

/-- What a whole number bounds, it bounds rounded. -/
theorem mathRound_le {q : ℚ} {n : Int} (h : q ≤ n) : mathRound q ≤ n :=
  (mathRound_mono h).trans_eq (mathRound_intCast n)

/-- Also from below. -/
theorem le_mathRound {q : ℚ} {n : Int} (h : (n : ℚ) ≤ q) : n ≤ mathRound q :=
  (mathRound_intCast n).symm.trans_le (mathRound_mono h)

theorem mathRound_nonneg {q : ℚ} (h : 0 ≤ q) : 0 ≤ mathRound q :=
  le_mathRound (by exact_mod_cast h)

/-- A hundred cents to the unit. -/
theorem Cents.toNum_mul (c : Cents) : c.toNum * 100 = c := by
  unfold Cents.toNum
  ring

theorem Cents.toNum_nonneg {c : Cents} (h : 0 ≤ c) : 0 ≤ c.toNum := by
  have hq : (0 : ℚ) ≤ c := by exact_mod_cast h
  unfold Cents.toNum
  positivity

/-- An amount that is at most a number of hundredths is rounded to at most it. -/
theorem toCents_le {q : ℚ} {c : Cents} (h : q ≤ c.toNum) : toCents q ≤ c := by
  apply mathRound_le
  have hc := c.toNum_mul
  linarith

/-- Nothing below zero is rounded below it. -/
theorem toCents_nonneg {q : ℚ} (h : 0 ≤ q) : 0 ≤ toCents q :=
  mathRound_nonneg (by linarith)

/-- Rounding to hundredths moves an amount by at most half of one. -/
theorem toCents_near (q : ℚ) : |(toCents q).toNum - q| ≤ 1 / 200 := by
  have hlow := Int.floor_le (q * 100 + 1 / 2)
  have hhigh := Int.lt_floor_add_one (q * 100 + 1 / 2)
  rw [toCents, mathRound, Cents.toNum, abs_le]
  constructor <;> linarith

/-- Only less than half a hundredth is rounded to nothing. -/
theorem toCents_pos_iff {q : ℚ} : 0 < toCents q ↔ 1 / 200 ≤ q := by
  rw [toCents, mathRound, Int.floor_pos]
  constructor <;> intro h <;> linarith

/-! ## The settings the validators accept -/

/-- A rate from 0 to 100 per cent. -/
def IsPercent (pct : Cents) : Prop := 0 ≤ pct ∧ pct ≤ 10000

instance (pct : Cents) : Decidable (IsPercent pct) := inferInstanceAs (Decidable (_ ∧ _))

/-- A coupon gives something, a percentage no more than all of it, and its cap is not
negative. -/
structure Coupon.ValidDiscount (c : Coupon) : Prop where
  positive : 0 < c.discountValue
  percentage : c.discountType = .percentage → c.discountValue ≤ 10000
  cap : ∀ cap ∈ c.maxDiscount, 0 ≤ cap

instance (c : Coupon) : Decidable c.ValidDiscount :=
  decidable_of_iff (0 < c.discountValue ∧
      (c.discountType = .percentage → c.discountValue ≤ 10000) ∧ ∀ cap ∈ c.maxDiscount, 0 ≤ cap)
    ⟨fun h => ⟨h.1, h.2.1, h.2.2⟩, fun h => ⟨h.positive, h.percentage, h.cap⟩⟩

/-- The stored settings pass the checks of the requests that set them. -/
structure ValidSettings (db : Db) : Prop where
  price : ∀ a ∈ db.activities.rows, 0 ≤ a.pricePerPerson
  special : ∀ s ∈ db.specialPrices.rows, 0 < s.price
  fee : ∀ c ∈ db.countries.rows, 0 ≤ c.serviceFeeFixed
  vendorRate : ∀ v ∈ db.vendors.rows, ∀ pct ∈ v.commissionPct, IsPercent pct
  categoryRate : ∀ c ∈ db.categories.rows, ∀ pct ∈ c.commissionPct, IsPercent pct
  defaultRate : ∀ s ∈ db.platformSettings, IsPercent s.defaultCommissionPct
  coupon : ∀ c ∈ db.coupons.rows, c.ValidDiscount

/-- The same of what a request has loaded. -/
structure PreparedBooking.Valid (p : PreparedBooking) : Prop where
  price : 0 ≤ p.activity.pricePerPerson
  fee : 0 ≤ p.country.serviceFeeFixed
  vendorRate : ∀ pct ∈ p.vendor.commissionPct, IsPercent pct
  categoryRate : ∀ c ∈ p.category, ∀ pct ∈ c.commissionPct, IsPercent pct

/-- **A prepared booking is valid**, and of the request. -/
theorem prepareBooking_valid {userId : Id} {dto : CreateBookingDto} (hvalid : ValidSettings db)
    (h : prepareBooking env now db userId dto = .ok (some p)) :
    p.userId = userId ∧ p.dto = dto ∧ p.Valid := by
  unfold prepareBooking at h
  split at h
  · cases pure_eq_ok.mp h
  simp only [bind_eq_ok, orThrow_eq_ok, ensure_eq_ok, pure_eq_ok] at h
  obtain ⟨_, _, _, _, activity, ha, vendor, hv, country, hc, _, _, _, _, _, _, _, _, _, _, _, _,
    window, _, _, _, _, _, hp⟩ := h
  obtain rfl := Option.some.inj hp
  refine ⟨rfl, rfl, ?_, ?_, ?_, ?_⟩
  · exact hvalid.price activity (Table.find?_eq_some.mp ha).1
  · exact hvalid.fee country (Table.find?_eq_some.mp hc).1
  · exact hvalid.vendorRate vendor (Table.find?_eq_some.mp hv).1
  · intro c hc
    exact hvalid.categoryRate c (Table.find?_eq_some.mp hc).1

/-! ## Base price and extras -/

/-- No base price is negative. -/
theorem basePriceCents_nonneg (hp : p.Valid) (hvalid : ValidSettings db) :
    0 ≤ basePriceCents db p := by
  have hspecial : ∀ {s}, s ∈ db.specialPrices.rows → 0 ≤ s.price :=
    fun hs => (hvalid.special _ hs).le
  unfold basePriceCents
  cases p.activity.bookingType with
  | daily =>
      apply List.sum_nonneg
      intro x hx
      obtain ⟨i, _, rfl⟩ := List.mem_map.mp hx
      cases hs : specialPriceOn db p.activity.id (p.dto.checkInDate.midnight + i * day) with
      | none => exact hp.price
      | some price =>
          obtain ⟨s, hlast, rfl⟩ := Option.map_eq_some_iff.mp hs
          exact hspecial (List.mem_filter.mp (List.mem_of_getLast? hlast)).1
  | hourly =>
      have heffective : 0 ≤ (firstSpecialPriceOn db p.activity.id
          p.dto.checkInDate.midnight).getD p.activity.pricePerPerson := by
        cases hs : firstSpecialPriceOn db p.activity.id p.dto.checkInDate.midnight with
        | none => exact hp.price
        | some price =>
            obtain ⟨s, hfirst, rfl⟩ := Option.map_eq_some_iff.mp hs
            exact hspecial (List.mem_of_find?_eq_some hfirst)
      apply mathRound_nonneg
      apply div_nonneg
      · have hcount : (0 : Int) ≤
            if p.activity.pricingModel = .perUnit then 1 else (p.dto.guests : Int) := by
          split <;> omega
        have hhours : (0 : Int) ≤ max ((p.activity.durationValue.getD 1 : Nat) : Int)
            (mathRound (((p.endDatetime - p.startDatetime : Int) : ℚ) / (hour : ℚ))) :=
          le_max_of_le_left (Int.natCast_nonneg _)
        exact_mod_cast mul_nonneg (mul_nonneg heffective hhours) hcount
      · exact_mod_cast Nat.zero_le _

/-- The price of a night: its override, or else the base price. -/
def nightPrice (db : Db) (activity : Activity) (d : Int) : Cents :=
  (specialPriceOn db activity.id (d * day)).getD activity.pricePerPerson

/-- The override of an activity that is active for a day. -/
def ActivitySpecialPrice.ActiveOn (s : ActivitySpecialPrice) (activityId : Id) (d : Int) :
    Prop :=
  s.activityId = activityId ∧ s.deletedAt = none ∧ s.date = d * day

instance (s : ActivitySpecialPrice) (activityId : Id) (d : Int) :
    Decidable (s.ActiveOn activityId d) := inferInstanceAs (Decidable (_ ∧ _))

/-- A night costs what an active override of its day says, or else the base price. -/
theorem nightPrice_cases (db : Db) (activity : Activity) (d : Int) :
    (∃ s ∈ db.specialPrices.rows, s.ActiveOn activity.id d ∧
      nightPrice db activity d = s.price) ∨
    ((∀ s ∈ db.specialPrices.rows, ¬ s.ActiveOn activity.id d) ∧
      nightPrice db activity d = activity.pricePerPerson) := by
  unfold nightPrice specialPriceOn
  cases hlast : (db.specialPrices.select (fun s =>
      s.activityId = activity.id ∧ s.deletedAt = none ∧ s.date = d * day)).getLast? with
  | some s =>
      obtain ⟨hs, hactive⟩ := List.mem_filter.mp (List.mem_of_getLast? hlast)
      exact Or.inl ⟨s, hs, of_decide_eq_true hactive, rfl⟩
  | none =>
      right
      rw [List.getLast?_eq_none_iff] at hlast
      refine ⟨?_, rfl⟩
      intro s hs hactive
      exact List.filter_eq_nil_iff.mp hlast s hs (decide_eq_true hactive)

/-- The nights of a stay, by the days they begin on. -/
def nights (checkIn checkOut : CivilDate) : Finset Int :=
  (Finset.range (nightCount checkIn checkOut)).map
    ⟨fun i : Nat => checkIn.toDays + i, fun _ _ h => by simpa using h⟩

/-- The nights of a stay: from the check-in to the day before the check-out. -/
theorem mem_nights {checkIn checkOut : CivilDate} {d : Int} :
    d ∈ nights checkIn checkOut ↔ checkIn.toDays ≤ d ∧ d < checkOut.toDays := by
  simp only [nights, nightCount, Finset.mem_map, Finset.mem_range]
  constructor
  · rintro ⟨i, hi, rfl⟩
    change checkIn.toDays ≤ checkIn.toDays + i ∧ checkIn.toDays + i < checkOut.toDays
    omega
  · rintro ⟨hin, hout⟩
    refine ⟨(d - checkIn.toDays).toNat, by omega, ?_⟩
    change checkIn.toDays + ((d - checkIn.toDays).toNat : Int) = d
    omega

/-- **A stay costs the sum of its nights.** -/
theorem dailyPriceCents_eq (db : Db) (activity : Activity) {checkIn checkOut : CivilDate}
    (h : checkIn.toDays < checkOut.toDays) :
    dailyPriceCents db activity checkIn checkOut =
      ∑ d ∈ nights checkIn checkOut, nightPrice db activity d := by
  have hnights : max 1 (nightCount checkIn checkOut) =
      (checkOut.toDays - checkIn.toDays).toNat := by
    unfold nightCount
    omega
  have hnight : ∀ i : Nat, (specialPriceOn db activity.id (checkIn.midnight + i * day)).getD
      activity.pricePerPerson = nightPrice db activity (checkIn.toDays + i) := by
    intro i
    unfold nightPrice CivilDate.midnight
    rw [add_mul]
  simp only [dailyPriceCents, hnights, hnight, nights]
  rw [Finset.sum_map]
  rfl

/-- The nights up to a day in between and those from it on are the nights. -/
theorem sum_nights_split (f : Int → Cents) {checkIn mid checkOut : CivilDate}
    (hmid : checkIn.toDays ≤ mid.toDays) (hout : mid.toDays ≤ checkOut.toDays) :
    ∑ d ∈ nights checkIn checkOut, f d =
      ∑ d ∈ nights checkIn mid, f d + ∑ d ∈ nights mid checkOut, f d := by
  have hunion : nights checkIn checkOut = nights checkIn mid ∪ nights mid checkOut := by
    ext d
    simp only [Finset.mem_union, mem_nights]
    omega
  have hdisjoint : Disjoint (nights checkIn mid) (nights mid checkOut) := by
    rw [Finset.disjoint_left]
    intro d hd hd'
    rw [mem_nights] at hd hd'
    omega
  rw [hunion, Finset.sum_union hdisjoint]

/-- Only extras with a price are sold. -/
theorem resolveExtras_pos {dto : CreateBookingDto} {services : List ExtraService}
    {seen names : List String} {extras : List SelectedExtra}
    (h : resolveExtras dto services seen names = .ok extras) : ∀ e ∈ extras, 0 < e.price := by
  induction names generalizing seen extras with
  | nil =>
      obtain rfl := Except.ok.inj h
      intro e he
      cases he
  | cons name names ih =>
      unfold resolveExtras at h
      split at h
      · exact ih h
      · simp only [bind_eq_ok, orThrow_eq_ok, pure_eq_ok] at h
        obtain ⟨svc, hsvc, rest, hrest, rfl⟩ := h
        intro e he
        rcases List.mem_cons.mp he with rfl | he
        · have hfound := List.find?_some hsvc
          exact (of_decide_eq_true hfound).1
        · exact ih hrest e he

/-- Extras cost nothing or more. -/
theorem extrasCents_nonneg {extras : List SelectedExtra}
    (h : selectExtras p.activity p.dto = .ok extras) : 0 ≤ extrasCents extras := by
  have hpos : ∀ e ∈ extras, 0 < e.price := by
    unfold selectExtras at h
    split at h
    · exact resolveExtras_pos h
    · obtain rfl := Except.ok.inj h
      intro e he
      cases he
  apply List.sum_nonneg
  intro x hx
  obtain ⟨e, he, rfl⟩ := List.mem_map.mp hx
  have hprice := hpos e he
  exact mathRound_nonneg (by positivity)

/-- The commission is between none and all of the price. -/
theorem commissionPctFor_isPercent (hp : p.Valid) (hvalid : ValidSettings db) :
    IsPercent (commissionPctFor db p) := by
  unfold commissionPctFor
  cases hv : p.vendor.commissionPct with
  | some pct => exact hp.vendorRate pct hv
  | none =>
      cases hc : p.category.bind Category.commissionPct with
      | some pct =>
          obtain ⟨c, hcat, hpct⟩ := Option.bind_eq_some_iff.mp hc
          exact hp.categoryRate c hcat pct hpct
      | none =>
          cases hs : db.platformSettings with
          | none => exact ⟨le_rfl, by decide⟩
          | some s => exact hvalid.defaultRate s hs

/-! ## Discount and points -/

/-- A percentage off is at most all. -/
theorem Coupon.ValidDiscount.percent_le {coupon : Coupon} (hc : coupon.ValidDiscount)
    (htype : coupon.discountType = .percentage) : coupon.discountValue.toNum ≤ 100 := by
  have hle : (coupon.discountValue : ℚ) ≤ 10000 := by exact_mod_cast hc.percentage htype
  unfold Cents.toNum
  linarith

/-- **A coupon takes between nothing and the whole price.** -/
theorem couponDiscountOf_bounds {coupon : Coupon} (hc : coupon.ValidDiscount) {price : Cents}
    (hprice : 0 ≤ price) :
    0 ≤ couponDiscountOf coupon price ∧ couponDiscountOf coupon price ≤ price := by
  have hvalue := hc.positive
  unfold couponDiscountOf
  cases htype : coupon.discountType with
  | fixed => exact ⟨le_min hvalue.le hprice, min_le_right _ _⟩
  | percentage =>
      have hpercent := hc.percent_le htype
      have hraw : 0 ≤ price.toNum * coupon.discountValue.toNum / 100 :=
        div_nonneg (mul_nonneg (Cents.toNum_nonneg hprice) (Cents.toNum_nonneg hvalue.le))
          (by norm_num)
      have hle : price.toNum * coupon.discountValue.toNum / 100 ≤ price.toNum := by
        have hmul := mul_le_mul_of_nonneg_left hpercent (Cents.toNum_nonneg hprice)
        linarith
      cases hcap : coupon.maxDiscount with
      | none => exact ⟨toCents_nonneg hraw, toCents_le hle⟩
      | some cap =>
          have hcap0 := Cents.toNum_nonneg (hc.cap cap hcap)
          exact ⟨toCents_nonneg (le_min hraw hcap0),
            toCents_le ((min_le_left _ _).trans hle)⟩

/-- **A discount is between nothing and the price.** -/
theorem applyDiscount_bounds {price discount : Cents} {code : Option String}
    (hvalid : ValidSettings db) (hprice : 0 ≤ price)
    (h : applyDiscount now db p price = .ok (db', code, discount)) :
    0 ≤ discount ∧ discount ≤ price := by
  cases applyDiscount_cases h with
  | plain => exact ⟨le_rfl, hprice⟩
  | voucher _ _ coupon _ _ _ _ _ found =>
      exact couponDiscountOf_bounds (hvalid.coupon coupon (Table.find?_eq_some.mp found).1) hprice
  | typed _ coupon _ _ _ found =>
      exact couponDiscountOf_bounds (hvalid.coupon coupon (List.mem_of_find?_eq_some found))
        hprice

/-- What redeeming points on a price was: nothing was asked for, the points cover the
price, or they fall short of it. -/
inductive Redeemed (config : LoyaltyConfig) (redeemPoints : Option ℚ) (price : Cents) :
    Redemption → Prop
  | nothing (unasked : ∀ points ∈ redeemPoints, points ≤ 0) :
      Redeemed config redeemPoints price {}
  | covers (points : ℚ) (asked : redeemPoints = some points) (pos : 0 < points)
      (rate : 0 < config.qarPerPoint)
      (enough : price.toNum ≤ (toCents points).toNum * config.qarPerPoint) :
      Redeemed config redeemPoints price
        ⟨toCents (price.toNum / config.qarPerPoint), price, true⟩
  | short (points : ℚ) (asked : redeemPoints = some points) (pos : 0 < points)
      (rate : 0 < config.qarPerPoint)
      (less : (toCents points).toNum * config.qarPerPoint < price.toNum) :
      Redeemed config redeemPoints price
        ⟨toCents points, toCents ((toCents points).toNum * config.qarPerPoint), false⟩

/-- What a redemption does, in its cases. -/
theorem redeemFor_cases {dto : CreateBookingDto} {price : Cents} {r : Redemption}
    (h : redeemFor db dto price = .ok (db', r)) :
    Redeemed (db.loyaltyConfig.getD {}) dto.redeemPoints price r := by
  unfold redeemFor at h
  split at h
  · rename_i points hasked
    obtain ⟨hasked, hpos⟩ := Option.filter_eq_some_iff.mp hasked
    have hpos := of_decide_eq_true hpos
    simp only [redemption, bind_eq_ok, ensure_eq_ok, pure_eq_ok] at h
    obtain ⟨r', ⟨_, _, _, hrate, h⟩, hr⟩ := h
    obtain ⟨_, rfl⟩ := Prod.mk.inj hr
    split at h
    · rename_i henough
      obtain rfl := pure_eq_ok.mp h
      exact .covers points hasked hpos hrate henough
    · rename_i hless
      obtain rfl := pure_eq_ok.mp h
      exact .short points hasked hpos hrate (not_le.mp hless)
  · rename_i hnone
    obtain ⟨_, rfl⟩ := Prod.mk.inj (Except.ok.inj h)
    refine .nothing ?_
    intro points hpoints
    by_contra hpos
    have hfilter : dto.redeemPoints.filter (fun points => 0 < points) = some points :=
      Option.filter_eq_some_iff.mpr ⟨hpoints, decide_eq_true (not_le.mp hpos)⟩
    rw [hnone] at hfilter
    cases hfilter

/-- **The points are worth no more than the price and no more than was asked.** -/
theorem Redeemed.bounds {config : LoyaltyConfig} {redeemPoints : Option ℚ} {price : Cents}
    {r : Redemption} (hprice : 0 ≤ price)
    (hpoints : ∀ points ∈ redeemPoints, 0 ≤ points)
    (h : Redeemed config redeemPoints price r) :
    (0 ≤ r.pointsDiscount ∧ r.pointsDiscount ≤ price) ∧ 0 ≤ r.pointsRedeemed ∧
      r.pointsRedeemed ≤ toCents (redeemPoints.getD 0) := by
  cases h with
  | nothing _ =>
      refine ⟨⟨le_rfl, hprice⟩, le_rfl, toCents_nonneg ?_⟩
      cases hasked : redeemPoints with
      | none => exact le_rfl
      | some points => exact hpoints points hasked
  | covers points asked pos rate enough =>
      refine ⟨⟨hprice, le_rfl⟩, toCents_nonneg ?_, ?_⟩
      · exact div_nonneg (Cents.toNum_nonneg hprice) rate.le
      · rw [asked]
        exact toCents_le ((div_le_iff₀ rate).mpr enough)
  | short points asked pos rate less =>
      have hrequested : 0 ≤ toCents points := toCents_nonneg pos.le
      refine ⟨⟨toCents_nonneg ?_, toCents_le less.le⟩, hrequested, ?_⟩
      · exact mul_nonneg (Cents.toNum_nonneg hrequested) rate.le
      · rw [asked]
        exact le_rfl

/-! ## The quote -/

/-- The price after the coupon or voucher, from the request and what is stored. -/
def discountedPrice (now : Instant) (db : Db) (p : PreparedBooking) : Tx Cents := do
  let extras ← selectExtras p.activity p.dto
  let totalPrice := basePriceCents db p + extrasCents extras
  let (_, _, couponDiscount) ← applyDiscount now db p totalPrice
  return totalPrice - couponDiscount

theorem discountedPrice_eq {price discount : Cents} {extras : List SelectedExtra}
    {code : Option String} (h : discountedPrice now db p = .ok price)
    (hextras : selectExtras p.activity p.dto = .ok extras)
    (hdiscount : applyDiscount now db p (basePriceCents db p + extrasCents extras) =
      .ok (db', code, discount)) :
    basePriceCents db p + extrasCents extras - discount = price := by
  simp only [discountedPrice, bind_eq_ok, pure_eq_ok] at h
  obtain ⟨extras', hextras', ⟨_, _, discount'⟩, hdiscount', h⟩ := h
  obtain rfl := Except.ok.inj (hextras.symm.trans hextras')
  obtain ⟨_, _, rfl⟩ := Prod.ext_iff.mp (Except.ok.inj (hdiscount.symm.trans hdiscount'))
  exact h

/-- **A quote read once**: its extras, its discount, what its points do, and the
amounts it derives from them. -/
theorem quote_ok {q : Quote} (h : quote now db p = .ok (db', q)) :
    ∃ extras code discount db₁ r, selectExtras p.activity p.dto = .ok extras ∧
      applyDiscount now db p (basePriceCents db p + extrasCents extras) =
        .ok (db₁, code, discount) ∧
      redeemFor db₁ p.dto (basePriceCents db p + extrasCents extras - discount) =
        .ok (db', r) ∧
      q.couponDiscount = discount ∧
      q.totalPrice = basePriceCents db p + extrasCents extras - discount ∧
      q.pointsRedeemed = r.pointsRedeemed ∧ q.pointsDiscount = r.pointsDiscount ∧
      q.serviceFee = (if r.feeWaived then 0 else p.country.serviceFeeFixed) ∧
      q.commissionAmount = mathRound (q.totalPrice.toNum * (commissionPctFor db p).toNum) ∧
      q.payableAmount = max 0 (q.totalPrice + q.serviceFee - q.pointsDiscount) := by
  simp only [quote, bind_eq_ok, pure_eq_ok] at h
  obtain ⟨extras, hextras, ⟨db₁, code, discount⟩, hdiscount, ⟨db₂, r⟩, hredeem, heq⟩ := h
  obtain ⟨rfl, rfl⟩ := Prod.mk.inj heq
  exact ⟨extras, code, discount, db₁, r, hextras, hdiscount, hredeem, rfl, rfl, rfl, rfl, rfl,
    rfl, rfl⟩

/-! ## The debit -/

/-- What storing a booking does to the balances: nothing when it redeems no points, else
its customer had them and has them no more. -/
def Debited (db db' : Db) (b : Booking) : Prop :=
  (b.pointsRedeemed ≤ 0 ∧ db'.users = db.users) ∨
    (0 < b.pointsRedeemed ∧ ∃ u, db.users.find? b.customerId = some u ∧
      b.pointsRedeemed ≤ u.loyaltyPoints ∧
      db'.users.find? b.customerId =
        some { u with loyaltyPoints := u.loyaltyPoints - b.pointsRedeemed })

/-- The points redeemed are debited. -/
theorem redeemPointsOf_debited {note : String} (h : redeemPointsOf db b note = .ok db') :
    Debited db db' b := by
  unfold redeemPointsOf at h
  split at h
  · rename_i hpos
    simp only [bind_eq_ok, pure_eq_ok] at h
    obtain ⟨r, hr, rfl⟩ := h
    obtain ⟨_, ⟨u, hu, hle⟩, reason, hposted⟩ := Loyalty.redeem_posts hr
    rw [Loyalty.round2_toNum] at hle hposted
    obtain ⟨user, _, huser, hdb⟩ := hposted.moved
    obtain rfl := Option.some.inj (hu.symm.trans huser)
    refine Or.inr ⟨hpos, u, hu, hle, ?_⟩
    rw [hdb]
    refine (Table.find?_update _ _ _ (by intro _; rfl) _).trans ?_
    rw [if_pos rfl, hu]
    simp [sub_eq_add_neg]
  · rename_i hle
    exact Or.inl ⟨not_lt.mp hle, by rw [Except.ok.inj h]⟩

/-- **A committed creation, with its quote**: the rows that are stored and the debit. -/
theorem createBookingTx_quote (h : createBookingTx env txNow db p ref = .ok (db', b)) :
    ∃ unitNumber dbq q, quote txNow db p = .ok (dbq, q) ∧
      b = newBooking env txNow (db.nextId + 1) db.nextId ref p unitNumber q ∧
      b ∈ db'.bookings.rows ∧
      (newPayment txNow db.nextId p.country.currencyCode q).linked b ∈ db'.payments.rows ∧
      Debited db db' b := by
  simp only [createBookingTx, bind_eq_ok, pure_eq_ok] at h
  obtain ⟨unitNumber, _, _, _, ⟨dbq, q⟩, hq, dbs, hs, heq⟩ := h
  obtain ⟨rfl, hb⟩ := Prod.mk.inj heq
  have hc : SameCore db dbq := quote_frame hq
  have hb : b = newBooking env txNow (db.nextId + 1) db.nextId ref p unitNumber q := by
    rw [← hb, ← hc.nextId]
  simp only [hc.nextId, ← hb] at hs
  have hstored := storeBooking_stored hs
  refine ⟨unitNumber, dbq, q, hq, hb, ?_, ?_, ?_⟩
  · rw [hstored.bookings]
    simp
  · rw [hstored.payments]
    simp
  · simp only [storeBooking, insertPayment, linkPayment, bind_eq_ok, ensure_eq_ok,
      orThrow_eq_ok, pure_eq_ok] at hs
    obtain ⟨_, ⟨payments, _, rfl⟩, _, hinsert, _, ⟨_, _, rfl⟩, hr⟩ := hs
    obtain ⟨_, _, _, bookings, _, rfl⟩ := insertBooking_ok hinsert
    have hdebited := redeemPointsOf_debited hr
    have husers := hc.users
    unfold Debited at hdebited ⊢
    simp only [husers] at hdebited
    exact hdebited

/-! ## The nights of a booking -/

/-- A prepared stay checks out after it checks in. -/
theorem prepareBooking_daily {userId : Id} {dto : CreateBookingDto}
    (h : prepareBooking env now db userId dto = .ok (some p))
    (hdaily : p.activity.bookingType = .daily) :
    p.dto = dto ∧ ∃ checkOut, dto.checkOutDate = some checkOut ∧
      dto.checkInDate.toDays < checkOut.toDays := by
  unfold prepareBooking at h
  split at h
  · cases pure_eq_ok.mp h
  simp only [bind_eq_ok, orThrow_eq_ok, ensure_eq_ok, pure_eq_ok] at h
  obtain ⟨_, _, _, _, activity, _, _, _, country, _, _, _, _, _, _, _, _, _, _, _, _, _, window,
    hwindow, _, _, _, _, hp⟩ := h
  obtain rfl := Option.some.inj hp
  replace hdaily : activity.bookingType = .daily := hdaily
  simp only [bookingWindow, hdaily, dailyWindow, bind_eq_ok, orThrow_eq_ok,
    ensure_eq_ok] at hwindow
  obtain ⟨checkOut, hout, _, hlt, _⟩ := hwindow
  refine ⟨rfl, checkOut, hout, ?_⟩
  have hday : (0 : Int) < day := by decide
  exact lt_of_mul_lt_mul_right hlt hday.le

/-- The base price of a stay, whoever stays. -/
theorem basePriceCents_daily (hdaily : p.activity.bookingType = .daily) {checkOut : CivilDate}
    (hout : p.dto.checkOutDate = some checkOut)
    (hlt : p.dto.checkInDate.toDays < checkOut.toDays) :
    basePriceCents db p =
      ∑ d ∈ nights p.dto.checkInDate checkOut, nightPrice db p.activity d := by
  simp only [basePriceCents, hdaily, hout, Option.getD_some]
  exact dailyPriceCents_eq db p.activity hlt

/-- **A stay costs the sum of its nights**, each at its override or the base price: this
is the base price of the booking that is created, any other request for the same nights
has it whatever its guests, and two stays that meet on a day in between have it together. -/
theorem stay_costs_its_nights {before : Instant} {db₀ : Db} {userId : Id}
    {dto : CreateBookingDto} (hdaily : p.activity.bookingType = .daily)
    (hprepared : prepareBooking env before db₀ userId dto = .ok (some p))
    (h : createBookingTx env txNow db p ref = .ok (db', b)) :
    ∃ checkOut extras, dto.checkOutDate = some checkOut ∧
      dto.checkInDate.toDays < checkOut.toDays ∧
      selectExtras p.activity dto = .ok extras ∧
      b.totalPrice + b.couponDiscount =
        ∑ d ∈ nights dto.checkInDate checkOut, nightPrice db p.activity d +
          extrasCents extras ∧
      (∀ d, (∃ s ∈ db.specialPrices.rows, s.ActiveOn p.activity.id d ∧
            nightPrice db p.activity d = s.price) ∨
          ((∀ s ∈ db.specialPrices.rows, ¬ s.ActiveOn p.activity.id d) ∧
            nightPrice db p.activity d = p.activity.pricePerPerson)) ∧
      (∀ p' : PreparedBooking, p'.activity = p.activity →
        p'.dto.checkInDate = dto.checkInDate → p'.dto.checkOutDate = some checkOut →
        basePriceCents db p' =
          ∑ d ∈ nights dto.checkInDate checkOut, nightPrice db p.activity d) ∧
      ∀ (mid : CivilDate) (p₁ p₂ : PreparedBooking),
        p₁.activity = p.activity → p₂.activity = p.activity →
        p₁.dto.checkInDate = dto.checkInDate → p₁.dto.checkOutDate = some mid →
        p₂.dto.checkInDate = mid → p₂.dto.checkOutDate = some checkOut →
        dto.checkInDate.toDays < mid.toDays → mid.toDays < checkOut.toDays →
        basePriceCents db p₁ + basePriceCents db p₂ =
          ∑ d ∈ nights dto.checkInDate checkOut, nightPrice db p.activity d := by
  obtain ⟨rfl, checkOut, hout, hlt⟩ := prepareBooking_daily hprepared hdaily
  obtain ⟨unitNumber, dbq, q, hq, hb, _⟩ := createBookingTx_quote h
  obtain ⟨extras, code, discount, db₁, r, hextras, _, _, hcoupon, htotal, _⟩ := quote_ok hq
  have hsame : ∀ p' : PreparedBooking, p'.activity = p.activity →
      p'.dto.checkInDate = p.dto.checkInDate → p'.dto.checkOutDate = some checkOut →
      basePriceCents db p' =
        ∑ d ∈ nights p.dto.checkInDate checkOut, nightPrice db p.activity d := by
    intro p' hactivity hin hout'
    rw [← hactivity, ← hin]
    exact basePriceCents_daily (hactivity ▸ hdaily) hout' (hin ▸ hlt)
  refine ⟨checkOut, extras, hout, hlt, hextras, ?_, nightPrice_cases db p.activity, hsame, ?_⟩
  · have hprice : b.totalPrice = q.totalPrice ∧ b.couponDiscount = q.couponDiscount := by
      rw [hb]
      exact ⟨rfl, rfl⟩
    rw [← hsame p rfl rfl hout, hprice.1, hprice.2, htotal, hcoupon]
    exact sub_add_cancel _ _
  · intro mid p₁ p₂ h₁ h₂ hin₁ hout₁ hin₂ hout₂ hmid hmid'
    have hfirst : basePriceCents db p₁ =
        ∑ d ∈ nights p.dto.checkInDate mid, nightPrice db p.activity d := by
      rw [← h₁, ← hin₁]
      exact basePriceCents_daily (h₁ ▸ hdaily) hout₁ (hin₁ ▸ hmid)
    have hsecond : basePriceCents db p₂ =
        ∑ d ∈ nights mid checkOut, nightPrice db p.activity d := by
      rw [← h₂, ← hin₂]
      exact basePriceCents_daily (h₂ ▸ hdaily) hout₂ (hin₂ ▸ hmid')
    rw [hfirst, hsecond, ← sum_nights_split _ hmid.le hmid'.le]

/-- The last of January is dearer. -/
def januaryPrice : ActivitySpecialPrice where
  id := 10
  activityId := 7
  vendorId := 4
  date := (CivilDate.mk 1970 1 31).midnight
  price := 15000

/-- A cabin by the night. -/
def cabinNights : Db :=
  { market.db with
    activities := ⟨[{ marketActivity with bookingType := .daily }], by decide⟩
    specialPrices := ⟨[januaryPrice], by decide⟩ }

/-- Three nights over the end of the month. -/
def cabinStay : CreateBookingDto where
  activityId := 7
  checkInDate := ⟨1970, 1, 30⟩
  checkOutDate := some ⟨1970, 2, 2⟩
  guests := 1
  guests_pos := one_guest

theorem stay_costs_its_nights_cabin :
    ∃ p db' b, createBookingTx marketEnv 0 cabinNights p "R" = .ok (db', b) ∧
      b.totalPrice = 35000 ∧ ∃ checkOut extras, cabinStay.checkOutDate = some checkOut ∧
        selectExtras p.activity cabinStay = .ok extras ∧
        b.totalPrice + b.couponDiscount =
          ∑ d ∈ nights cabinStay.checkInDate checkOut, nightPrice cabinNights p.activity d +
            extrasCents extras := by
  obtain ⟨p, db', b, hprepared, hok, htest⟩ := @bookAt_ok 0 cabinNights 1 cabinStay
    (fun p _ b => p.activity.bookingType = .daily ∧ b.totalPrice = 35000) (by decide +kernel)
  obtain ⟨hdaily, hprice⟩ := of_decide_eq_true htest
  obtain ⟨checkOut, extras, hout, _, hextras, hsum, _⟩ :=
    stay_costs_its_nights hdaily hprepared hok
  exact ⟨p, db', b, hok, hprice, checkOut, extras, hout, hextras, hsum⟩

/-! ## The amounts add up -/

/-- The amounts of a booking and its payment, against the base price, the extras and the
service fee they were computed from and the points that were asked for. -/
structure AddsUp (base extras fee : Cents) (requested : ℚ) (b : Booking) (payment : Payment) :
    Prop where
  base_nonneg : 0 ≤ base
  extras_nonneg : 0 ≤ extras
  coupon : 0 ≤ b.couponDiscount ∧ b.couponDiscount ≤ base + extras
  discounted : 0 ≤ b.totalPrice ∧ b.totalPrice = base + extras - b.couponDiscount
  fee : 0 ≤ b.serviceFee ∧ (b.serviceFee = 0 ∨ b.serviceFee = fee)
  points : 0 ≤ b.pointsDiscount ∧ b.pointsDiscount ≤ b.totalPrice
  redeemed : 0 ≤ b.pointsRedeemed ∧ b.pointsRedeemed ≤ toCents requested
  payable : 0 ≤ payment.amount ∧
    payment.amount + b.pointsDiscount = b.totalPrice + b.serviceFee
  commission : 0 ≤ b.commissionAmount ∧ b.commissionAmount ≤ b.totalPrice
  confirmed : b.status = .confirmed ↔ payment.amount = 0

/-- A share of the price is between nothing and the price. -/
theorem commission_bounds {price pct : Cents} (hprice : 0 ≤ price) (hpct : IsPercent pct) :
    0 ≤ mathRound (price.toNum * pct.toNum) ∧
      mathRound (price.toNum * pct.toNum) ≤ price := by
  have hprice0 := Cents.toNum_nonneg hprice
  have hpct0 := Cents.toNum_nonneg hpct.1
  refine ⟨mathRound_nonneg (mul_nonneg hprice0 hpct0), mathRound_le ?_⟩
  have hle : pct.toNum ≤ 100 := by
    have hle : (pct : ℚ) ≤ 10000 := by exact_mod_cast hpct.2
    unfold Cents.toNum
    linarith
  have hmul := mul_le_mul_of_nonneg_left hle hprice0
  rwa [Cents.toNum_mul] at hmul

/-- A booking is confirmed at once exactly when nothing is to pay. -/
theorem newBooking_confirmed_iff {id paymentId : Id} {unitNumber : Option Nat} {q : Quote} :
    (newBooking env txNow id paymentId ref p unitNumber q).status = .confirmed ↔
      q.payableAmount ≤ 0 := by
  change (if q.payableAmount ≤ 0 then BookingStatus.confirmed else .pending) = .confirmed ↔ _
  split <;> simp_all

theorem newPayment_id {id : Id} {currency : String} {q : Quote} :
    (newPayment txNow id currency q).id = id := by
  unfold newPayment
  split <;> rfl

/-- The payment is over what is to pay. -/
theorem newPayment_amount {q : Quote} {id : Id} {currency : String} (h : 0 ≤ q.payableAmount) :
    (newPayment txNow id currency q).amount = q.payableAmount := by
  unfold newPayment
  split
  · change 0 = q.payableAmount
    lia
  · rfl

/-- The amounts of a quote add up. -/
theorem quote_addsUp {q : Quote} {dbq : Db} (hp : p.Valid) (hvalid : ValidSettings db)
    (hpoints : ∀ points ∈ p.dto.redeemPoints, 0 ≤ points)
    (h : quote txNow db p = .ok (dbq, q)) (unitNumber : Option Nat) (id paymentId : Id) :
    ∃ extras, selectExtras p.activity p.dto = .ok extras ∧
      AddsUp (basePriceCents db p) (extrasCents extras) p.country.serviceFeeFixed
        (p.dto.redeemPoints.getD 0) (newBooking env txNow id paymentId ref p unitNumber q)
        (newPayment txNow paymentId p.country.currencyCode q) := by
  obtain ⟨extras, code, discount, db₁, r, hextras, hdiscount, hredeem, hcoupon, htotal,
    hredeemed, hpointsDiscount, hfee, hcommission, hpayable⟩ := quote_ok h
  have hbase := basePriceCents_nonneg hp hvalid
  have hextras0 := extrasCents_nonneg hextras
  have hbounds := applyDiscount_bounds hvalid (add_nonneg hbase hextras0) hdiscount
  have hprice : 0 ≤ q.totalPrice := by lia
  rw [← htotal] at hredeem
  have hr := (redeemFor_cases hredeem).bounds hprice hpoints
  rw [← hpointsDiscount, ← hredeemed] at hr
  have hserviceFee : 0 ≤ q.serviceFee ∧
      (q.serviceFee = 0 ∨ q.serviceFee = p.country.serviceFeeFixed) := by
    rw [hfee]
    split
    · exact ⟨le_rfl, Or.inl rfl⟩
    · exact ⟨hp.fee, Or.inr rfl⟩
  have hdue : q.payableAmount = q.totalPrice + q.serviceFee - q.pointsDiscount := by
    rw [hpayable, max_eq_right]
    lia
  have hamount : (newPayment txNow paymentId p.country.currencyCode q).amount =
      q.payableAmount := newPayment_amount (by lia)
  refine ⟨extras, hextras, hbase, hextras0, ?_, ?_, hserviceFee, hr.1, hr.2, ?_, ?_, ?_⟩
  · change 0 ≤ q.couponDiscount ∧ q.couponDiscount ≤ _
    rw [hcoupon]
    exact hbounds
  · change 0 ≤ q.totalPrice ∧ q.totalPrice = _ - q.couponDiscount
    rw [hcoupon]
    exact ⟨hprice, htotal⟩
  · rw [hamount]
    change 0 ≤ q.payableAmount ∧ q.payableAmount + q.pointsDiscount = q.totalPrice + q.serviceFee
    lia
  · change 0 ≤ q.commissionAmount ∧ q.commissionAmount ≤ q.totalPrice
    rw [hcommission]
    exact commission_bounds hprice (commissionPctFor_isPercent hp hvalid)
  · rw [newBooking_confirmed_iff, hamount]
    lia

/-- **The prices of a created booking always add up**, whatever the activity, the window,
the extras, the discount and the points, when the settings pass their validation.  The
points taken are at most the balance they are taken from. -/
theorem prices_add_up {before : Instant} {db₀ : Db} {userId : Id} {dto : CreateBookingDto}
    (hvalid₀ : ValidSettings db₀) (hvalid : ValidSettings db)
    (hpoints : ∀ points ∈ dto.redeemPoints, 0 ≤ points)
    (hprepared : prepareBooking env before db₀ userId dto = .ok (some p))
    (h : createBookingTx env txNow db p ref = .ok (db', b)) :
    ∃ extras payment, selectExtras p.activity dto = .ok extras ∧
      b ∈ db'.bookings.rows ∧ payment ∈ db'.payments.rows ∧ b.paymentId = some payment.id ∧
      AddsUp (basePriceCents db p) (extrasCents extras) p.country.serviceFeeFixed
        (dto.redeemPoints.getD 0) b payment ∧
      (∀ u ∈ db.users.find? userId, 0 ≤ u.loyaltyPoints →
        b.pointsRedeemed ≤ u.loyaltyPoints) ∧
      (0 < b.pointsRedeemed → (db.users.find? userId).isSome) := by
  obtain ⟨rfl, rfl, hp⟩ := prepareBooking_valid hvalid₀ hprepared
  obtain ⟨unitNumber, dbq, q, hq, hb, hbooking, hpayment, hdebited⟩ := createBookingTx_quote h
  obtain ⟨extras, hextras, hadds⟩ :=
    @quote_addsUp env _ _ _ ref _ _ hp hvalid hpoints hq unitNumber (db.nextId + 1) db.nextId
  rw [← hb] at hadds
  have hcustomer : b.customerId = p.userId := by rw [hb]; rfl
  have hlink : b.paymentId =
      some ((newPayment txNow db.nextId p.country.currencyCode q).linked b).id := by
    rw [hb]
    exact congrArg some newPayment_id.symm
  -- the reverse link changes no amount
  have hlinked : AddsUp (basePriceCents db p) (extrasCents extras) p.country.serviceFeeFixed
      (p.dto.redeemPoints.getD 0) b
      ((newPayment txNow db.nextId p.country.currencyCode q).linked b) :=
    { hadds with payable := hadds.payable, confirmed := hadds.confirmed }
  refine ⟨extras, _, hextras, hbooking, hpayment, hlink, hlinked, ?_, ?_⟩
  · intro u hu hbalance
    rcases hdebited with ⟨hnone, _⟩ | ⟨_, u', hu', hle, _⟩
    · exact hnone.trans hbalance
    · rw [hcustomer] at hu'
      obtain rfl := Option.some.inj (hu.symm.trans hu')
      exact hle
  · intro hpos
    rcases hdebited with ⟨hnone, _⟩ | ⟨_, u', hu', _⟩
    · exact absurd hpos (not_lt.mpr hnone)
    · rw [hcustomer] at hu'
      rw [hu']
      rfl

/-- A coupon that takes a fifth and one that takes everything. -/
def saleCoupons : List Coupon :=
  [{ id := 8, code := "FIFTH", discountType := .percentage, discountValue := 2000,
      validFrom := 0, validTo := 1000, status := .approved },
    { id := 9, code := "ALL", discountType := .percentage, discountValue := 10000,
      validFrom := 0, validTo := 1000, status := .approved }]

/-- The market with the coupons and a service fee of five. -/
theorem saleCountries_nodup :
    ([{ id := 5, serviceFeeFixed := 500 }].map fun c : Country => Keyed.key c).Nodup := by
  decide

def saleMarket : Db :=
  { market.db with
    countries := ⟨[{ id := 5, serviceFeeFixed := 500 }], saleCountries_nodup⟩
    coupons := ⟨saleCoupons, by decide⟩ }

theorem saleMarket_valid : ValidSettings saleMarket := by
  constructor <;> decide +kernel

/-- The request of a customer for the slot of the market. -/
def saleRequest (points : ℚ) (couponCode : String) : CreateBookingDto :=
  { marketRequest (some points) with couponCode := some couponCode }

/-- A fifth off, and fifty points. -/
theorem prices_add_up_fifth :
    ∃ p db' b, createBookingTx marketEnv 0 saleMarket p "R" = .ok (db', b) ∧
      ∃ extras payment, selectExtras p.activity (saleRequest 50 "FIFTH") = .ok extras ∧
        b ∈ db'.bookings.rows ∧ payment ∈ db'.payments.rows ∧
        b.paymentId = some payment.id ∧
        AddsUp (basePriceCents saleMarket p) (extrasCents extras) p.country.serviceFeeFixed
          50 b payment ∧
        (∀ u ∈ saleMarket.users.find? 1, 0 ≤ u.loyaltyPoints →
          b.pointsRedeemed ≤ u.loyaltyPoints) ∧
        (0 < b.pointsRedeemed → (saleMarket.users.find? 1).isSome) := by
  obtain ⟨p, db', b, hprepared, hok, _⟩ := @bookAt_ok 0 saleMarket 1 (saleRequest 50 "FIFTH")
    (fun _ _ _ => true) (by decide +kernel)
  refine ⟨p, db', b, hok, prices_add_up saleMarket_valid saleMarket_valid ?_ hprepared hok⟩
  intro points hpoints
  obtain rfl := Option.some.inj hpoints
  norm_num

/-! ## The waived service fee -/

/-- Taking a use keeps the loyalty settings. -/
theorem takeCouponUse_config {coupon : Coupon} {limit : Option Int} {message : String}
    (h : takeCouponUse db coupon limit message = .ok db') :
    db'.loyaltyConfig = db.loyaltyConfig := by
  cases limit with
  | none =>
      obtain rfl := Except.ok.inj h
      rfl
  | some limit =>
      simp only [takeCouponUse, bind_eq_ok] at h
      obtain ⟨_, _, h⟩ := h
      split at h
      · obtain rfl := pure_eq_ok.mp h
        rfl
      · obtain rfl := pure_eq_ok.mp h
        rfl

/-- So does a discount. -/
theorem applyDiscount_config {price discount : Cents} {code : Option String}
    (h : applyDiscount now db p price = .ok (db', code, discount)) :
    db'.loyaltyConfig = db.loyaltyConfig := by
  cases applyDiscount_cases h with
  | plain => rfl
  | voucher _ _ _ _ _ _ _ _ _ _ taken =>
      have hconfig := takeCouponUse_config taken
      exact hconfig
  | typed _ _ _ _ _ _ _ _ taken => exact takeCouponUse_config taken

/-- The customer held the points of the booking and spent them: some, and worth the
whole price up to half a hundredth of a point. -/
structure PaidInPoints (rate : ℚ) (db db' : Db) (b : Booking) : Prop where
  positive : 0 < b.pointsRedeemed
  spent : ∃ u, db.users.find? b.customerId = some u ∧ b.pointsRedeemed ≤ u.loyaltyPoints ∧
    db'.users.find? b.customerId =
      some { u with loyaltyPoints := u.loyaltyPoints - b.pointsRedeemed }
  worth : |b.pointsRedeemed.toNum * rate - b.totalPrice.toNum| ≤ rate / 200

/-- The rate of the stored configuration, or of the default one. -/
def Db.qarPerPoint (db : Db) : ℚ := (db.loyaltyConfig.getD {}).qarPerPoint

/-- The requested points cover the price. -/
def coversPrice (rate : ℚ) (redeemPoints : Option ℚ) (price : Cents) : Bool :=
  redeemPoints.any (fun points =>
    0 < points ∧ price.toNum ≤ (toCents points).toNum * rate)

/-- The fee is waived exactly when the points cover the price. -/
theorem Redeemed.feeWaived_iff {config : LoyaltyConfig} {redeemPoints : Option ℚ}
    {price : Cents} {r : Redemption} (h : Redeemed config redeemPoints price r) :
    r.feeWaived = true ↔ coversPrice config.qarPerPoint redeemPoints price = true := by
  cases h with
  | nothing unasked =>
      simp only [coversPrice, Option.any_eq_true, Bool.false_eq_true, false_iff]
      rintro ⟨points, hasked, hcovers⟩
      exact absurd (of_decide_eq_true hcovers).1 (not_lt.mpr (unasked points hasked))
  | covers points asked pos rate enough =>
      simp [coversPrice, asked, pos, enough]
  | short points asked pos rate less =>
      simp [coversPrice, asked, less]

/-- Points that cover a price are worth it up to half a hundredth of a point. -/
theorem covering_points_worth {rate : ℚ} (hrate : 0 < rate) (price : Cents) :
    |(toCents (price.toNum / rate)).toNum * rate - price.toNum| ≤ rate / 200 := by
  have hnear := toCents_near (price.toNum / rate)
  have hsplit : (toCents (price.toNum / rate)).toNum * rate - price.toNum =
      ((toCents (price.toNum / rate)).toNum - price.toNum / rate) * rate := by
    rw [sub_mul, div_mul_cancel₀ _ hrate.ne']
  rw [hsplit, abs_mul, abs_of_pos hrate]
  have hmul := mul_le_mul_of_nonneg_right hnear hrate.le
  linarith

section

variable {config : LoyaltyConfig} {redeemPoints : Option ℚ} {price : Cents} {r : Redemption}

/-- Covering points are taken when the price is worth half a hundredth of one. -/
theorem Redeemed.positive_iff (h : Redeemed config redeemPoints price r)
    (hwaived : r.feeWaived = true) :
    0 < r.pointsRedeemed ↔ config.qarPerPoint / 200 ≤ price.toNum := by
  cases h with
  | nothing unasked => cases hwaived
  | covers points asked pos rate enough =>
      rw [toCents_pos_iff, le_div_iff₀ rate]
      constructor
      · intro hle
        linarith
      · intro hle
        linarith
  | short points asked pos rate less => cases hwaived

/-- Points that cover the price are worth it, to half a hundredth of a point. -/
theorem Redeemed.worth (h : Redeemed config redeemPoints price r)
    (hwaived : r.feeWaived = true) :
    |r.pointsRedeemed.toNum * config.qarPerPoint - price.toNum| ≤
      config.qarPerPoint / 200 := by
  cases h with
  | nothing unasked => cases hwaived
  | covers points asked pos rate enough => exact covering_points_worth rate price
  | short points asked pos rate less => cases hwaived

/-- Under a positive fee nothing is left to charge exactly when the fee is waived. -/
theorem Redeemed.free_iff (h : Redeemed config redeemPoints price r) (hprice : 0 ≤ price)
    {fee due : Cents} (hfee : 0 < fee)
    (hdue : due = max 0 (price + (if r.feeWaived then 0 else fee) - r.pointsDiscount)) :
    due ≤ 0 ↔ r.feeWaived = true := by
  cases h with
  | nothing unasked =>
      simp only [Bool.false_eq_true, if_false, iff_false] at hdue ⊢
      lia
  | covers points asked pos rate enough =>
      simp only [if_true, iff_true] at hdue ⊢
      lia
  | short points asked pos rate less =>
      have hle := toCents_le less.le
      simp only [Bool.false_eq_true, if_false, iff_false] at hdue ⊢
      lia

end

/-- **A waived fee is paid for in points exactly when there is a price to pay.**  Where
the service fee is positive, a booking whose fee is waived, or that is confirmed without a
payment, took points its customer had, worth the discounted price, unless the requested
points cover a price of less than half a hundredth of a point. -/
theorem waived_fee_paid_iff {before : Instant} {db₀ : Db} {userId : Id}
    {dto : CreateBookingDto} {price : Cents}
    (hvalid₀ : ValidSettings db₀) (hvalid : ValidSettings db)
    (hprepared : prepareBooking env before db₀ userId dto = .ok (some p))
    (hfee : 0 < p.country.serviceFeeFixed)
    (hprice : discountedPrice txNow db p = .ok price)
    (h : createBookingTx env txNow db p ref = .ok (db', b)) :
    (b.serviceFee = 0 ∨ b.status = .confirmed → PaidInPoints db.qarPerPoint db db' b) ↔
      (coversPrice db.qarPerPoint dto.redeemPoints price = true →
        db.qarPerPoint / 200 ≤ price.toNum) := by
  obtain ⟨rfl, rfl, hp⟩ := prepareBooking_valid hvalid₀ hprepared
  obtain ⟨unitNumber, dbq, q, hq, hb, _, _, hdebited⟩ := createBookingTx_quote h
  obtain ⟨extras, code, discount, db₁, r, hextras, hdiscount, hredeem, _, htotal, hredeemed,
    hpointsDiscount, hserviceFee, _, hpayable⟩ := quote_ok hq
  have hsame : q.totalPrice = price :=
    htotal.trans (discountedPrice_eq hprice hextras hdiscount)
  have hredeemedAs := redeemFor_cases hredeem
  rw [applyDiscount_config hdiscount, ← htotal, hsame] at hredeemedAs
  have hprice0 : 0 ≤ price := by
    have hbounds := applyDiscount_bounds hvalid
      (add_nonneg (basePriceCents_nonneg hp hvalid) (extrasCents_nonneg hextras)) hdiscount
    lia
  have hfree : b.serviceFee = 0 ∨ b.status = .confirmed ↔ r.feeWaived = true := by
    rw [hsame, hserviceFee, hpointsDiscount] at hpayable
    have hdue := hredeemedAs.free_iff hprice0 hfee hpayable
    have hstatus : b.status = .confirmed ↔ q.payableAmount ≤ 0 := by
      rw [hb]
      exact newBooking_confirmed_iff
    have hwaived : b.serviceFee = 0 ↔ r.feeWaived = true := by
      have hstored : b.serviceFee = if r.feeWaived then 0 else p.country.serviceFeeFixed := by
        rw [hb]
        exact hserviceFee
      rw [hstored]
      split
      · simp_all
      · simp_all [hfee.ne']
    rw [hwaived, hstatus, hdue, or_self]
  rw [hfree, Db.qarPerPoint, ← hredeemedAs.feeWaived_iff]
  have htotal' : b.totalPrice = price := by rw [hb]; exact hsame
  have hpoints : b.pointsRedeemed = r.pointsRedeemed := by rw [hb]; exact hredeemed
  constructor
  · intro hpaid hwaived
    have hpositive := (hpaid hwaived).positive
    rw [hpoints] at hpositive
    exact (hredeemedAs.positive_iff hwaived).mp hpositive
  · intro hworth hwaived
    have hpositive := (hredeemedAs.positive_iff hwaived).mpr (hworth hwaived)
    rw [← hpoints] at hpositive
    refine ⟨hpositive, ?_, ?_⟩
    · rcases hdebited with ⟨hnone, _⟩ | ⟨_, hspent⟩
      · exact absurd hpositive (not_lt.mpr hnone)
      · exact hspent
    · rw [hpoints, htotal']
      exact hredeemedAs.worth hwaived

/-- The points of the first customer cover the price after the fifth. -/
theorem waived_fee_paid_fifth :
    ∃ p db' b, createBookingTx marketEnv 0 saleMarket p "R" = .ok (db', b) ∧
      b.serviceFee = 0 ∧ PaidInPoints saleMarket.qarPerPoint saleMarket db' b := by
  obtain ⟨p, db', b, hprepared, hok, htest⟩ := @bookAt_ok 0 saleMarket 1 (saleRequest 80 "FIFTH")
    (fun p _ b => b.serviceFee = 0 ∧ 0 < p.country.serviceFeeFixed ∧
      (discountedPrice 0 saleMarket p).toOption = some 8000) (by decide +kernel)
  obtain ⟨hwaived, hfee, hprice⟩ := of_decide_eq_true htest
  refine ⟨p, db', b, hok, hwaived, ?_⟩
  refine (waived_fee_paid_iff saleMarket_valid saleMarket_valid hprepared hfee
    (toOption_eq_some.mp hprice) hok).mpr ?_ (Or.inl hwaived)
  intro _
  decide +kernel

/-- The third customer has no points: one requested point and a coupon for everything
confirm a booking without the fee, and nobody spends a point. -/
theorem fee_waived_for_nothing :
    ∃ p db' b, prepareBooking marketEnv 0 saleMarket 3 (saleRequest 1 "ALL") = .ok (some p) ∧
      0 < p.country.serviceFeeFixed ∧ 0 < saleMarket.qarPerPoint ∧
      createBookingTx marketEnv 0 saleMarket p "R" = .ok (db', b) ∧
      b.serviceFee = 0 ∧ b.status = .confirmed ∧ b.pointsRedeemed = 0 ∧
      db'.users = saleMarket.users ∧
      ¬ PaidInPoints saleMarket.qarPerPoint saleMarket db' b := by
  obtain ⟨p, db', b, hprepared, hok, htest⟩ := @bookAt_ok 0 saleMarket 3 (saleRequest 1 "ALL")
    (fun p db' b => 0 < p.country.serviceFeeFixed ∧ b.serviceFee = 0 ∧
      b.status = .confirmed ∧ b.pointsRedeemed = 0 ∧ db'.users.rows = saleMarket.users.rows)
    (by decide +kernel)
  obtain ⟨hfee, hwaived, hconfirmed, hpoints, husers⟩ := of_decide_eq_true htest
  refine ⟨p, db', b, hprepared, hfee, by decide +kernel, hok, hwaived, hconfirmed, hpoints,
    Table.ext husers, ?_⟩
  intro hpaid
  have hpositive := hpaid.positive
  rw [hpoints] at hpositive
  exact lt_irrefl _ hpositive

end Jadwal
