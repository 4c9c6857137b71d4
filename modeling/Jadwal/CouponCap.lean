import Jadwal.CouponEffects

/-!
# The cap of a coupon and its three ends

A coupon is `EXPIRED` because its last use was taken, because its date has
passed, or because an administrator closed it, and the status does not say
which.  A returned use brings a coupon back when its counter stands at the
cap.  The system is extended with the cron that expires coupons by date, the
administrator's status update, and the reason of the last closing, which no
table holds.

The counter keeps within the cap in every run.  What a returned use brings
back was closed by its cap as long as nobody closes by hand a coupon that
stands at its cap, and no orphan recovery takes the last use of a coupon that
was closed (`coupon_cap`).
-/

namespace Jadwal

open Outcome

variable {env : Env} {now : Instant} {db db' : Db}

/-! ## The other writers -/

theorem Coupon.key_expired (c : Coupon) :
    Keyed.key { c with status := .expired } = Keyed.key c := rfl

/-- `runAutoExpireCoupons`: approved coupons past their date expire. -/
def runAutoExpireCoupons (now : Instant) (db : Db) : Db :=
  let coupons := db.coupons.updateMany
    (fun c => c.status = .approved ∧ c.validTo < now)
    (fun c => { c with status := .expired }) Coupon.key_expired
  { db with coupons := coupons }

/-- The administrator's `updateCouponStatus`: any status, at any time. -/
def updateCouponStatus (db : Db) (id : Id) (status : CouponStatus) : Tx Db := do
  let _ ← orThrow (db.coupons.find? id) (.recordNotFound "Coupon")
  let coupons := db.coupons.update id (fun c => { c with status := status })
  return { db with coupons := coupons }

/-! ## What happens to one coupon -/

/-- One use or several were returned: the counter falls, and the coupon may
come back from its cap while its date lasts. -/
structure Returned (now : Instant) (c c' : Coupon) : Prop where
  same : c' = { c with usedCount := c'.usedCount, status := c'.status }
  falls : c'.usedCount ≤ c.usedCount
  nonneg : 0 ≤ c.usedCount → 0 ≤ c'.usedCount
  status : c'.status = c.status ∨ (c.status = .expired ∧ c'.status = .approved ∧
    now < c.validTo ∧ ∃ limit ∈ c.usageLimit, limit ≤ c.usedCount)

/-- A use was taken, of a coupon with room. -/
structure Taken (c c' : Coupon) : Prop where
  same : c' = { c with usedCount := c'.usedCount, status := c'.status }
  climbs : c'.usedCount = c.usedCount + 1
  room : ∀ limit ∈ c.usageLimit, 0 < limit → c.usedCount < limit
  approved : c.status = .approved
  status : c'.status = .approved ∨ c'.status = .expired

/-- A use was taken again, of a coupon with room, whatever its status. -/
structure Retaken (c c' : Coupon) : Prop where
  same : c' = { c with usedCount := c'.usedCount }
  climbs : c'.usedCount = c.usedCount + 1
  room : ∀ limit ∈ c.usageLimit, 0 < limit → c.usedCount < limit

/-- Nothing given back is a return as well. -/
theorem Returned.refl (c : Coupon) : Returned now c c :=
  ⟨rfl, le_rfl, id, .inl rfl⟩

/-- Returns add up. -/
theorem Returned.trans {c c' c'' : Coupon} (h : Returned now c c')
    (h' : Returned now c' c'') : Returned now c c'' := by
  obtain ⟨same, falls, nonneg, status⟩ := h
  obtain ⟨same', falls', nonneg', status'⟩ := h'
  refine ⟨?_, falls'.trans falls, fun h => nonneg' (nonneg h), ?_⟩
  · rw [same', same]
  have hterms : c'.usageLimit = c.usageLimit ∧ c'.validTo = c.validTo := by
    rw [same]
    exact ⟨rfl, rfl⟩
  rcases status with hs | ⟨hs, ha, hrest⟩
  · rcases status' with hs' | ⟨hs', ha', hdate, limit, hlimit, hle⟩
    · exact .inl (hs'.trans hs)
    · refine .inr ⟨hs ▸ hs', ha', hterms.2 ▸ hdate, limit, hterms.1 ▸ hlimit, ?_⟩
      exact hle.trans falls
  · refine .inr ⟨hs, ?_, hrest⟩
    rcases status' with hs' | ⟨hs', _⟩
    · exact hs'.trans ha
    · rw [ha] at hs'
      cases hs'

/-- Every row of the second table is a row of the first, moved. -/
def Moved (R : Coupon → Coupon → Prop) (t t' : Table Coupon) : Prop :=
  ∀ c' ∈ t'.rows, ∃ c ∈ t.rows, c.id = c'.id ∧ R c c'

/-- An update of coupons, row by row. -/
theorem Moved.updateMany {R : Coupon → Coupon → Prop} {t : Table Coupon}
    {p : Coupon → Bool} {f : Coupon → Coupon}
    {hf : ∀ c, Keyed.key (f c) = Keyed.key c} (kept : ∀ c, R c c)
    (moved : ∀ c ∈ t.rows, p c = true → R c (f c)) :
    Moved R t (t.updateMany p f hf) := by
  intro c' hc'
  obtain ⟨c, hc, rfl⟩ := Table.mem_updateMany.mp hc'
  by_cases hp : p c = true
  · rw [if_pos hp]
    exact ⟨c, hc, (hf c).symm, moved c hc hp⟩
  · rw [if_neg hp]
    exact ⟨c, hc, rfl, kept c⟩

/-- An update moves the row it finds. -/
theorem Moved.update {R : Coupon → Coupon → Prop} {t : Table Coupon} {c : Coupon}
    {f : Coupon → Coupon} {hf : ∀ c, Keyed.key (f c) = Keyed.key c} (kept : ∀ c, R c c)
    (mem : c ∈ t.rows) (moved : R c (f c)) : Moved R t (t.update c.id f hf) := by
  refine Moved.updateMany kept fun x hx hid => ?_
  rwa [Table.key_inj hx mem (of_decide_eq_true hid)]

/-- Two moves in a row. -/
theorem Moved.trans {R S T : Coupon → Coupon → Prop} {t t' t'' : Table Coupon}
    (h : Moved R t t') (h' : Moved S t' t'')
    (comp : ∀ c c' c'', R c c' → S c' c'' → T c c'') : Moved T t t'' := by
  intro c'' hc''
  obtain ⟨c', hc', hid', hs⟩ := h' c'' hc''
  obtain ⟨c, hc, hid, hr⟩ := h c' hc'
  exact ⟨c, hc, hid.trans hid', comp c c' c'' hr hs⟩

/-- A coupon is found by its code. -/
theorem findCoupon_eq_some {code : String} {c : Coupon} (h : findCoupon db code = some c) :
    c ∈ db.coupons.rows ∧ c.code = code := by
  obtain ⟨hc, hcode⟩ := Table.first?_eq_some h
  exact ⟨hc, of_decide_eq_true hcode⟩

/-- A returned use is of the coupon found by the code. -/
theorem refundCouponUsage_moved (now : Instant) (db : Db) (couponCode : Option String)
    (customerId : Id) :
    Moved (Returned now) db.coupons
      (refundCouponUsage now db couponCode customerId).coupons := by
  unfold refundCouponUsage
  cases hfound : couponCode.bind (findCoupon db) with
  | none => exact fun c hc => ⟨c, hc, rfl, .refl c⟩
  | some coupon =>
      obtain ⟨code, _, hcode⟩ := Option.bind_eq_some_iff.mp hfound
      have hmem := (findCoupon_eq_some hcode).1
      simp only
      split
      · rename_i hback
        obtain ⟨hpos, hexpired, hcap, hdate⟩ := hback
        rw [Table.update_update]
        refine Moved.update Returned.refl hmem ?_
        rw [if_pos hpos]
        exact ⟨rfl, by simp, by simp; lia, .inr ⟨hexpired, rfl, hdate, hcap⟩⟩
      · refine Moved.update Returned.refl hmem ?_
        split
        · rename_i hpos
          exact ⟨rfl, by simp, by simp; lia, .inl rfl⟩
        · exact .refl coupon

/-- A use taken in a creation is of an approved coupon with room. -/
theorem takeCouponUse_moved {coupon : Coupon} {limit : Option Int} {message : String}
    (hmem : coupon ∈ db.coupons.rows) (approved : coupon.status = .approved)
    (hlimit : ∀ n ∈ coupon.usageLimit, 0 < n → limit = some n)
    (h : takeCouponUse db coupon limit message = .ok db') :
    Moved (fun c c' => c' = c ∨ Taken c c') db.coupons db'.coupons := by
  cases limit with
  | none =>
      have hroom : ∀ n ∈ coupon.usageLimit, 0 < n → coupon.usedCount < n :=
        fun n hn hpos => by cases hlimit n hn hpos
      obtain rfl := Except.ok.inj h
      simp only
      exact Moved.update (fun _ => .inl rfl) hmem
        (.inr ⟨rfl, rfl, hroom, approved, .inl approved⟩)
  | some n =>
      simp only [takeCouponUse, bind_eq_ok, ensure_eq_ok] at h
      obtain ⟨_, ⟨c₀, hc₀, hlt⟩, h⟩ := h
      obtain ⟨hc₀, hid₀⟩ := Table.find?_eq_some.mp hc₀
      rw [Table.key_inj hc₀ hmem hid₀] at hlt
      have hroom : ∀ m ∈ coupon.usageLimit, 0 < m → coupon.usedCount < m := by
        intro m hm hpos
        rwa [Option.some.inj (hlimit m hm hpos)] at hlt
      split at h
      · rw [pure_eq_ok] at h
        subst h
        simp only
        rw [Table.update_update]
        exact Moved.update (fun _ => .inl rfl) hmem
          (.inr ⟨rfl, rfl, hroom, approved, .inr rfl⟩)
      · rw [pure_eq_ok] at h
        subst h
        simp only
        exact Moved.update (fun _ => .inl rfl) hmem
          (.inr ⟨rfl, rfl, hroom, approved, .inl approved⟩)

/-- A discount takes one use of one coupon at most. -/
theorem applyDiscount_moved {p : PreparedBooking} {totalPrice : Cents}
    {r : Db × Option String × Cents} (h : applyDiscount now db p totalPrice = .ok r) :
    Moved (fun c c' => c' = c ∨ Taken c c') db.coupons r.1.coupons := by
  cases applyDiscount_cases h with
  | plain => exact fun c hc => ⟨c, hc, rfl, .inl rfl⟩
  | voucher _ _ coupon _ _ _ _ _ found approved taken =>
      have hmem := (Table.find?_eq_some.mp found).1
      have hm := takeCouponUse_moved (by exact hmem) approved (fun _ hn _ => hn) taken
      exact hm
  | typed _ coupon _ _ _ found approved _ taken =>
      refine takeCouponUse_moved (findCoupon_eq_some found).1 approved ?_ taken
      intro n hn hpos
      have hne : n ≠ 0 := by lia
      exact Option.filter_eq_some_iff.mpr ⟨hn, by simpa using hne⟩

/-- A use taken again is of the coupon of the snapshot, and there was room. -/
theorem reclaimCouponUsage_moved (db : Db) (couponCode : Option String) (customerId : Id) :
    Moved (fun c c' => c' = c ∨ (couponCode = some c.code ∧ Retaken c c')) db.coupons
      (reclaimCouponUsage db couponCode customerId).coupons := by
  unfold reclaimCouponUsage
  cases hfound : couponCode.bind (findCoupon db) with
  | none => exact fun c hc => ⟨c, hc, rfl, .inl rfl⟩
  | some coupon =>
      obtain ⟨code, rfl, hcode⟩ := Option.bind_eq_some_iff.mp hfound
      obtain ⟨hmem, rfl⟩ := findCoupon_eq_some hcode
      simp only
      refine Moved.update (fun _ => .inl rfl) hmem ?_
      rcases Option.eq_none_or_eq_some coupon.usageLimit with hlimit | ⟨limit, hlimit⟩
      · simp only [hlimit]
        exact .inr ⟨trivial, by simp [hlimit], rfl, by simp [hlimit]⟩
      · simp only [hlimit]
        split
        · rename_i hroom
          refine .inr ⟨trivial, by simp [hlimit], rfl, fun n hn hpos => ?_⟩
          obtain rfl := Option.some.inj (hlimit.symm.trans hn)
          lia
        · exact .inl rfl

/-- The coupon code a task takes a use of again. -/
def Task.retakes : Task → Option String
  | .recreate _ _ _ s => s.couponCode
  | _ => none

/-- **What one task does to one coupon.** -/
inductive CouponMove (now : Instant) (t : Task) (c c' : Coupon) : Prop
  | returned (h : Returned now c c')
  | taken (h : Taken c c')
  | retaken (mine : t.retakes = some c.code) (h : Retaken c c')

/-- Cancellations give uses back. -/
theorem refundCoupons_moved (now : Instant) (claimed : List Booking) : ∀ db : Db,
    Moved (Returned now) db.coupons (refundCoupons now db claimed).coupons := by
  induction claimed with
  | nil => exact fun db c hc => ⟨c, hc, rfl, .refl c⟩
  | cons b claimed ih =>
      intro db
      exact (refundCouponUsage_moved now db b.couponCode b.customerId).trans (ih _)
        fun _ _ _ => Returned.trans

/-- **What a task does to the coupons.** -/
theorem Task.run_moved (env : Env) (now : Instant) (db : Db) (t : Task) :
    Moved (CouponMove now t) db.coupons (t.run env now db).1.coupons := by
  have idle : Moved (CouponMove now t) db.coupons db.coupons :=
    fun c hc => ⟨c, hc, rfl, .returned (.refl c)⟩
  have weaken : ∀ {db₁ db₂ : Db}, SameCoupons db₁ db₂ →
      Moved (Returned now) db.coupons db₁.coupons →
      Moved (CouponMove now t) db.coupons db₂.coupons := by
    intro db₁ db₂ same h c' hc'
    rw [same.1] at hc'
    obtain ⟨c, hc, hid, hr⟩ := h c' hc'
    exact ⟨c, hc, hid, .returned hr⟩
  cases t.run_coupons env now db with
  | idle _ same => rwa [same.1]
  | revived _ _ _ _ _ same => rwa [same.1]
  | unpaid _ _ _ _ _ _ same => rwa [same.1]
  | declined _ _ _ _ _ _ _ _ _ same =>
      exact weaken same (refundCouponUsage_moved now db _ _)
  | cancelled _ _ _ _ same => exact weaken same (refundCouponUsage_moved now db _ _)
  | operated _ _ _ _ _ _ same => exact weaken same (refundCouponUsage_moved now db _ _)
  | reaped stale claimed _ _ reaps =>
      exact weaken reaps.coupons (refundCoupons_moved now claimed db)
  | created p ref totalPrice r b taken same =>
      intro c' hc'
      rw [same.1] at hc'
      obtain ⟨c, hc, hid, rfl | ht⟩ := applyDiscount_moved taken c' hc'
      · exact ⟨c', hc, hid, .returned (.refl c')⟩
      · exact ⟨c, hc, hid, .taken ht⟩
  | recreated paymentId amount bookingId s _ same =>
      intro c' hc'
      rw [same.1] at hc'
      obtain ⟨c, hc, hid, rfl | ⟨mine, ht⟩⟩ := reclaimCouponUsage_moved db _ _ c' hc'
      · exact ⟨c', hc, hid, .returned (.refl c')⟩
      · exact ⟨c, hc, hid, .retaken mine ht⟩

/-! ## The system with its coupon administration -/

/-- Why a coupon was last closed. -/
inductive Closing
  | cap | date | admin
  deriving DecidableEq, Repr

/-- The system, and what closed each coupon last, which no table holds. -/
structure CouponWorld where
  sys : Sys
  closing : Id → Option Closing

inductive CouponAction
  /-- A step of the system. -/
  | sys (a : Action)
  /-- The expiry cron. -/
  | autoExpireCoupons
  /-- An administrator sets a status by hand. -/
  | updateCouponStatus (id : Id) (status : CouponStatus)

/-- The status of a coupon. -/
def Db.couponStatus (db : Db) (id : Id) : Option CouponStatus :=
  (db.coupons.find? id).map Coupon.status

/-- The record after a change of the tables that closed coupons. -/
def CouponWorld.closed (w : CouponWorld) (sys : Sys) (reason : Closing) : CouponWorld where
  sys := sys
  closing := fun id =>
    if w.sys.db.couponStatus id ≠ some .expired ∧
        sys.db.couponStatus id = some .expired then some reason else w.closing id

def CouponWorld.step (env : Env) (w : CouponWorld) : CouponAction → Option CouponWorld
  | .sys a => (w.sys.step env a).map (fun sys => w.closed sys .cap)
  | .autoExpireCoupons =>
      some (w.closed { w.sys with db := runAutoExpireCoupons w.sys.now w.sys.db } .date)
  | .updateCouponStatus id status =>
      (updateCouponStatus w.sys.db id status).toOption.map (fun db =>
        { sys := { w.sys with db := db }
          closing := if status = .expired then Function.update w.closing id (some .admin)
            else w.closing })

/-- The condition on a step: an administrator closes by hand no coupon that
stands at its cap before its date, and an orphan recovery does not take the
last use of a coupon that is closed before its date. -/
def CouponWorld.Orderly (w : CouponWorld) : CouponAction → Prop
  | .updateCouponStatus id .expired => ∀ c ∈ w.sys.db.coupons.find? id,
      w.sys.now < c.validTo → ∀ limit ∈ c.usageLimit, c.usedCount < limit
  | .sys a => ∀ code ∈ (w.sys.task? a).bind Task.retakes, ∀ c ∈ w.sys.db.coupons.rows,
      c.code = code → c.status = .expired → w.sys.now < c.validTo →
      ∀ limit ∈ c.usageLimit, c.usedCount + 1 ≠ limit
  | _ => True

/-- The counter of a coupon is within its cap, which is positive. -/
def Coupon.Capped (c : Coupon) : Prop :=
  0 ≤ c.usedCount ∧ ∀ limit ∈ c.usageLimit, 0 < limit ∧ c.usedCount ≤ limit

/-- A coupon at its cap and before its date was closed by its cap. -/
def CouponWorld.Explained (w : CouponWorld) : Prop :=
  ∀ c ∈ w.sys.db.coupons.rows, c.status = .expired → w.sys.now < c.validTo →
    ∀ limit ∈ c.usageLimit, limit ≤ c.usedCount → w.closing c.id = some .cap

/-- What a step brings back had been closed by its cap, and its date lasts. -/
def CouponWorld.BringsBackCapped (w w' : CouponWorld) : Prop :=
  ∀ c ∈ w.sys.db.coupons.rows, ∀ c' ∈ w'.sys.db.coupons.rows, c'.id = c.id →
    c.status = .expired → c'.status ≠ .expired →
    w.closing c.id = some .cap ∧ w.sys.now < c.validTo

/-! ## One step -/

/-- A step of the system runs a task on the database, or leaves it alone. -/
theorem Sys.step_db {s s' : Sys} {a : Action} (h : s.step env a = some s') :
    (s'.db = s.db ∧ s.now ≤ s'.now) ∨
      ∃ t, s.task? a = some t ∧ s'.db = (t.run env s.now s.db).1 ∧ s'.now = s.now := by
  rcases Sys.step_cases h with ⟨elapsed, _, rfl⟩ | ⟨_, _, _, _, rfl⟩ | ⟨index, t, rfl, ht, rfl⟩
  · exact .inl ⟨rfl, by simp⟩
  · exact .inl ⟨rfl, le_rfl⟩
  · exact .inr ⟨t, ht, rfl, rfl⟩

/-- No task brings a coupon over its cap. -/
theorem CouponMove.capped {t : Task} {c c' : Coupon} (m : CouponMove now t c c')
    (h : c.Capped) : c'.Capped := by
  obtain ⟨hnonneg, hcap⟩ := h
  cases m with
  | returned m =>
      refine ⟨m.nonneg hnonneg, fun limit hlimit => ?_⟩
      rw [m.same] at hlimit
      obtain ⟨hpos, hle⟩ := hcap limit hlimit
      exact ⟨hpos, m.falls.trans hle⟩
  | taken m =>
      refine ⟨by rw [m.climbs]; lia, fun limit hlimit => ?_⟩
      rw [m.same] at hlimit
      obtain ⟨hpos, _⟩ := hcap limit hlimit
      have := m.room limit hlimit hpos
      exact ⟨hpos, by rw [m.climbs]; lia⟩
  | retaken _ m =>
      refine ⟨by rw [m.climbs]; lia, fun limit hlimit => ?_⟩
      rw [m.same] at hlimit
      obtain ⟨hpos, _⟩ := hcap limit hlimit
      have := m.room limit hlimit hpos
      exact ⟨hpos, by rw [m.climbs]; lia⟩

/-- The expiry cron changes statuses only, of coupons past their date. -/
theorem runAutoExpireCoupons_moved (now : Instant) (db : Db) :
    Moved (fun c c' => c' = c ∨
        (c.status = .approved ∧ c.validTo < now ∧ c' = { c with status := .expired }))
      db.coupons (runAutoExpireCoupons now db).coupons := by
  simp only [runAutoExpireCoupons]
  refine Moved.updateMany (fun _ => .inl rfl) fun c _ hp => .inr ?_
  obtain ⟨happroved, hdate⟩ := of_decide_eq_true hp
  exact ⟨happroved, hdate, rfl⟩

/-- An operator sets the status of one coupon. -/
theorem updateCouponStatus_ok {id : Id} {status : CouponStatus}
    (h : updateCouponStatus db id status = .ok db') :
    ∃ c, db.coupons.find? id = some c ∧
      Moved (fun x x' => (x' = x ∧ x.id ≠ id) ∨ (x = c ∧ x' = { c with status := status }))
        db.coupons db'.coupons := by
  simp only [updateCouponStatus, bind_eq_ok, orThrow_eq_ok, pure_eq_ok] at h
  obtain ⟨c, hc, rfl⟩ := h
  refine ⟨c, hc, fun x' hx' => ?_⟩
  obtain ⟨hmem, hid⟩ := Table.find?_eq_some.mp hc
  simp only at hx'
  obtain ⟨x, hx, rfl⟩ := Table.mem_update.mp hx'
  by_cases hk : Keyed.key x = id
  · obtain rfl := Table.key_inj hx hmem (hk.trans hid.symm)
    rw [if_pos hk]
    exact ⟨x, hx, rfl, .inr ⟨rfl, rfl⟩⟩
  · rw [if_neg hk]
    exact ⟨x, hx, rfl, .inl ⟨rfl, hk⟩⟩

/-- **Every step keeps the counters within their caps.** -/
theorem CouponWorld.capped_step {w w' : CouponWorld} {a : CouponAction}
    (h : w.step env a = some w') (hc : ∀ c ∈ w.sys.db.coupons.rows, c.Capped) :
    ∀ c ∈ w'.sys.db.coupons.rows, c.Capped := by
  intro c' hc'
  cases a with
  | sys a =>
      obtain ⟨s', hs, rfl⟩ := Option.map_eq_some_iff.mp h
      rcases Sys.step_db hs with ⟨hdb, _⟩ | ⟨t, _, hdb, _⟩
      · exact hc c' (hdb ▸ hc')
      · obtain ⟨c, hmem, _, m⟩ := t.run_moved env w.sys.now w.sys.db c' (hdb ▸ hc')
        exact m.capped (hc c hmem)
  | autoExpireCoupons =>
      obtain rfl := Option.some.inj h
      obtain ⟨c, hmem, _, rfl | ⟨_, _, rfl⟩⟩ := runAutoExpireCoupons_moved _ _ c' hc'
      · exact hc c' hmem
      · exact hc c hmem
  | updateCouponStatus id status =>
      obtain ⟨db', hdb, rfl⟩ := Option.map_eq_some_iff.mp h
      obtain ⟨c, hfound, hm⟩ := updateCouponStatus_ok (toOption_eq_some.mp hdb)
      obtain ⟨x, hx, _, ⟨rfl, _⟩ | ⟨rfl, rfl⟩⟩ := hm c' hc'
      · exact hc c' hx
      · exact hc x hx

/-- The status of a row. -/
theorem Db.couponStatus_of_mem {c : Coupon} (h : c ∈ db.coupons.rows) :
    db.couponStatus c.id = some c.status := by
  have hfind : db.coupons.find? c.id = some c := Table.find?_key h
  rw [Db.couponStatus, hfind]
  rfl

/-- The record says what closed a row that is closed now. -/
theorem CouponWorld.closed_eq {w : CouponWorld} {s' : Sys} {reason : Closing}
    {c c' : Coupon} (hc : c ∈ w.sys.db.coupons.rows)
    (hc' : c' ∈ (w.closed s' reason).sys.db.coupons.rows)
    (hid : c.id = c'.id) (hexpired : c'.status = .expired) :
    (w.closed s' reason).closing c'.id =
      if c.status = .expired then w.closing c.id else some reason := by
  have hold : w.sys.db.couponStatus c'.id = some c.status :=
    hid ▸ Db.couponStatus_of_mem hc
  have hnew : s'.db.couponStatus c'.id = some c'.status := Db.couponStatus_of_mem hc'
  simp only [CouponWorld.closed, hold, hnew, hexpired, ne_eq, Option.some.injEq, hid]
  by_cases h : c.status = .expired <;> simp [h]

/-- **An orderly step keeps the closings explained.** -/
theorem CouponWorld.Explained.step {w w' : CouponWorld} {a : CouponAction}
    (hw : w.Explained) (ok : w.Orderly a) (h : w.step env a = some w') : w'.Explained := by
  intro c' hc' hexpired hdate limit hlimit hle
  cases a with
  | sys a =>
      obtain ⟨s', hs, rfl⟩ := Option.map_eq_some_iff.mp h
      rcases Sys.step_db hs with ⟨hdb, hnow⟩ | ⟨t, ht, hdb, hnow⟩
      · have hmem : c' ∈ w.sys.db.coupons.rows := hdb ▸ hc'
        rw [CouponWorld.closed_eq hmem hc' rfl hexpired, if_pos hexpired]
        exact hw c' hmem hexpired (lt_of_le_of_lt hnow hdate) limit hlimit hle
      · obtain ⟨c, hmem, hid, m⟩ := t.run_moved env w.sys.now w.sys.db c' (hdb ▸ hc')
        rw [CouponWorld.closed_eq hmem hc' hid hexpired]
        split
        · rename_i hclosed
          have hdate : w.sys.now < c'.validTo := hnow ▸ hdate
          cases m with
          | returned m =>
              rw [m.same] at hdate hlimit
              exact hw c hmem hclosed hdate limit hlimit (hle.trans m.falls)
          | taken m =>
              rw [m.approved] at hclosed
              cases hclosed
          | retaken mine m =>
              rw [m.same] at hdate hlimit
              refine hw c hmem hclosed hdate limit hlimit ?_
              have hlast := ok c.code (by rw [ht]; exact mine) c hmem rfl hclosed hdate
                limit hlimit
              rw [m.climbs] at hle
              lia
        · rfl
  | autoExpireCoupons =>
      obtain rfl := Option.some.inj h
      obtain ⟨c, hmem, hid, rfl | ⟨_, hpast, rfl⟩⟩ := runAutoExpireCoupons_moved _ _ c' hc'
      · rw [CouponWorld.closed_eq hmem hc' rfl hexpired, if_pos hexpired]
        exact hw c' hmem hexpired hdate limit hlimit hle
      · exact absurd hdate (not_lt.mpr hpast.le)
  | updateCouponStatus id status =>
      obtain ⟨db', hdb, rfl⟩ := Option.map_eq_some_iff.mp h
      obtain ⟨c, hfound, hm⟩ := updateCouponStatus_ok (toOption_eq_some.mp hdb)
      obtain ⟨x, hx, _, ⟨rfl, hne⟩ | ⟨rfl, rfl⟩⟩ := hm c' hc'
      · have hold := hw c' hx hexpired hdate limit hlimit hle
        simp only
        split
        · rwa [Function.update_of_ne hne]
        · exact hold
      · obtain rfl : status = .expired := hexpired
        exact absurd hle (not_le.mpr (ok x hfound hdate limit hlimit))

/-- A step of the system brings back what its cap closed. -/
theorem CouponWorld.Explained.bringsBack {w w' : CouponWorld} {a : Action}
    (hw : w.Explained) (h : w.step env (.sys a) = some w') : w.BringsBackCapped w' := by
  intro c hc c' hc' hid hexpired hback
  obtain ⟨s', hs, rfl⟩ := Option.map_eq_some_iff.mp h
  rcases Sys.step_db hs with ⟨hdb, _⟩ | ⟨t, _, hdb, _⟩
  · obtain rfl := Table.key_inj (hdb ▸ hc' : c' ∈ w.sys.db.coupons.rows) hc hid
    exact absurd hexpired hback
  · obtain ⟨x, hx, hxid, m⟩ := t.run_moved env w.sys.now w.sys.db c' (hdb ▸ hc')
    obtain rfl := Table.key_inj hx hc (hxid.trans hid)
    cases m with
    | returned m =>
        rcases m.status with hs | ⟨_, _, hdate, limit, hlimit, hle⟩
        · exact absurd (hs.trans hexpired) hback
        · exact ⟨hw x hx hexpired hdate limit hlimit hle, hdate⟩
    | taken m =>
        rw [m.approved] at hexpired
        cases hexpired
    | retaken _ m =>
        rw [m.same] at hback
        exact absurd hexpired hback

/-! ## Runs -/

/-- **A coupon stays within its cap, and comes back only from its cap.**  The
counters keep within the caps in every run.  In a run where nobody closes by
hand a coupon that stands at its cap, and no recovery takes the last use of a
closed one, whatever a returned use brings back was closed by its cap, and its
date lasts. -/
theorem coupon_cap (w₀ : CouponWorld) (capped : ∀ c ∈ w₀.sys.db.coupons.rows, c.Capped)
    (explained : w₀.Explained) :
    (∀ w, Run (CouponWorld.step env) (fun _ _ => True) w₀ w →
      ∀ c ∈ w.sys.db.coupons.rows, c.Capped) ∧
    ∀ w a w', Run (CouponWorld.step env) CouponWorld.Orderly w₀ w →
      w.step env (.sys a) = some w' → w.BringsBackCapped w' := by
  refine ⟨fun w run => ?_, fun w a w' run hstep => ?_⟩
  · exact run.invariant (fun w => ∀ c ∈ w.sys.db.coupons.rows, c.Capped)
      (fun _ _ _ hc _ hstep => CouponWorld.capped_step hstep hc) capped
  · have hw : w.Explained := run.invariant CouponWorld.Explained
      (fun _ _ _ hw ok hstep => hw.step ok hstep) explained
    exact hw.bringsBack hstep

instance (w : CouponWorld) : (a : CouponAction) → Decidable (w.Orderly a)
  | .sys a => inferInstanceAs (Decidable (∀ code ∈ (w.sys.task? a).bind Task.retakes,
      ∀ c ∈ w.sys.db.coupons.rows, c.code = code → c.status = .expired →
        w.sys.now < c.validTo → ∀ limit ∈ c.usageLimit, c.usedCount + 1 ≠ limit))
  | .autoExpireCoupons => inferInstanceAs (Decidable True)
  | .updateCouponStatus _ .pending => inferInstanceAs (Decidable True)
  | .updateCouponStatus _ .approved => inferInstanceAs (Decidable True)
  | .updateCouponStatus id .expired => inferInstanceAs (Decidable (∀ c ∈
      w.sys.db.coupons.find? id, w.sys.now < c.validTo →
        ∀ limit ∈ c.usageLimit, c.usedCount < limit))

def marketCoupon : Coupon where
  id := 9
  code := "SUMMER"
  discountType := .fixed
  discountValue := 1000
  validFrom := 0
  validTo := 864000000
  usageLimit := some 1
  status := .approved

/-- The marketplace with a coupon for one use that both customers have
claimed. -/
def couponMarketDb : Db :=
  { market.db with
    coupons := ⟨[marketCoupon], by decide⟩
    claimedCoupons := ⟨[{ id := 8, userId := 1, couponId := 9 },
      { id := 10, userId := 2, couponId := 9 }], by decide⟩ }

def couponMarket : CouponWorld where
  sys := { market with db := couponMarketDb }
  closing := fun _ => none

/-- The request of `marketRequest` for another time, with a claimed coupon. -/
def voucherRequest (voucherId : Id) (slotTime : ClockTime) : CreateBookingDto :=
  { marketRequest none with slotTime := some slotTime, voucherId := some voucherId }

theorem couponMarket_capped : ∀ c ∈ couponMarket.sys.db.coupons.rows, c.Capped := by
  intro c hc
  obtain rfl := List.mem_singleton.mp hc
  exact ⟨by decide, fun limit hlimit => by cases hlimit; decide⟩

theorem couponMarket_explained : couponMarket.Explained := by
  intro c hc hexpired
  obtain rfl := List.mem_singleton.mp hc
  cases hexpired

theorem coupon_cap_refunded :
    ∃ w w', Run (CouponWorld.step marketEnv) CouponWorld.Orderly couponMarket w ∧
      w.step marketEnv (.sys (.run 1)) = some w' ∧
      w.sys.db.couponStatus 9 = some .expired ∧ w'.sys.db.couponStatus 9 = some .approved ∧
      w.BringsBackCapped w' ∧ ∀ c ∈ w.sys.db.coupons.rows, c.Capped := by
  obtain ⟨w, run, h⟩ := @Run.of_execAll_test _ _ (CouponWorld.step marketEnv)
    CouponWorld.Orderly _
    [.sys (.begin (.createBooking 1 (voucherRequest 8 600) "R1")), .sys (.run 0),
      .sys (.begin (.cancelBooking 1 101))]
    couponMarket (fun w => w.sys.db.couponStatus 9 = some .expired ∧
      (w.step marketEnv (.sys (.run 1))).any
        (fun w' => w'.sys.db.couponStatus 9 = some .approved)) (by decide +kernel)
  obtain ⟨hclosed, hback⟩ := of_decide_eq_true h
  obtain ⟨w', hstep, hback⟩ := (Option.any_eq_true _ _).mp hback
  obtain ⟨hcap, hcause⟩ := coupon_cap couponMarket couponMarket_capped couponMarket_explained
  exact ⟨w, w', run, hstep, hclosed, of_decide_eq_true hback, hcause w _ w' run hstep,
    hcap w (run.mono fun _ _ _ => trivial)⟩

/-- An administrator approves a coupon that stands at its cap and closes it
again by hand; the customer's cancel brings it back. -/
theorem coupon_closed_by_hand_returns :
    (∀ c ∈ couponMarket.sys.db.coupons.rows, c.Capped) ∧ couponMarket.Explained ∧
    ∃ w w', Run (CouponWorld.step marketEnv) (fun _ _ => True) couponMarket w ∧
      w.step marketEnv (.sys (.run 1)) = some w' ∧
      w.sys.db.couponStatus 9 = some .expired ∧ w.closing 9 = some .admin ∧
      w'.sys.db.couponStatus 9 = some .approved ∧ ¬ w.BringsBackCapped w' := by
  refine ⟨couponMarket_capped, couponMarket_explained, ?_⟩
  obtain ⟨w, run, h⟩ := @Run.of_execAll_test _ _ (CouponWorld.step marketEnv)
    (fun _ _ => True) _
    [.sys (.begin (.createBooking 1 (voucherRequest 8 600) "R1")), .sys (.run 0),
      .updateCouponStatus 9 .approved, .updateCouponStatus 9 .expired,
      .sys (.begin (.cancelBooking 1 101))]
    couponMarket (fun w => w.sys.db.couponStatus 9 = some .expired ∧
      w.closing 9 = some .admin ∧ (w.step marketEnv (.sys (.run 1))).any
        (fun w' => w'.sys.db.couponStatus 9 = some .approved)) (by decide +kernel)
  obtain ⟨hclosed, hadmin, hback⟩ := of_decide_eq_true h
  obtain ⟨w', hstep, hback⟩ := (Option.any_eq_true _ _).mp hback
  have hback := of_decide_eq_true hback
  refine ⟨w, w', run, hstep, hclosed, hadmin, hback, fun hcause => ?_⟩
  obtain ⟨c, hc, hexpired⟩ := Option.map_eq_some_iff.mp hclosed
  obtain ⟨c', hc', happroved⟩ := Option.map_eq_some_iff.mp hback
  obtain ⟨hc, hid⟩ := Table.find?_eq_some.mp hc
  obtain ⟨hc', hid'⟩ := Table.find?_eq_some.mp hc'
  have := (hcause c hc c' hc' (hid'.trans hid.symm) hexpired (by simp [happroved])).1
  have hcid : c.id = 9 := hid
  rw [hcid, hadmin] at this
  cases this

end Jadwal
