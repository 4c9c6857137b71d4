import Jadwal.CouponCap
import Jadwal.Points

/-!
# The counter of a coupon counts its uses

`usedCount` is a counter beside the bookings it counts.  Creations and
recoveries raise it, six kinds of cancellation lower it, and none of them
counts the bookings.  It never exceeds the number of live bookings with the
code, and falls behind that number only when orphan recovery re-inserts a
booking whose coupon has reached its cap in the meantime, which the recovery
does on purpose (`coupon_uses_counted`).
-/

namespace Jadwal

open Outcome

variable {G : Guard} {env : Env} {now : Instant} {db db' : Db} {exact : Prop}

/-! ## Counting uses -/

/-- The bookings with the code that are not cancelled. -/
def Db.liveUses (db : Db) (code : String) : Nat :=
  (db.bookings.select (fun b => b.couponCode = some code ∧ b.status ≠ .cancelled)).length

/-- How many of the uses are under the code. -/
def countUses (uses : List CouponUse) (code : String) : Nat :=
  uses.countP (fun u => u.couponCode = code)

/-- The uses a booking makes. -/
def usesBy (uses : List CouponUse) (k : Id) : List CouponUse :=
  uses.filter (fun u => u.bookingId = k)

theorem Db.liveUses_eq (db : Db) (code : String) :
    db.liveUses code = countUses (usesOf db.bookings) code := by
  simp only [Db.liveUses, countUses, usesOf, Table.select, List.countP_filterMap]
  rw [← List.countP_eq_length_filter]
  refine List.countP_congr fun b _ => ?_
  have hfile : b.file.status = b.status ∧ b.file.core.couponCode = b.couponCode := ⟨rfl, rfl⟩
  unfold BookingFile.use?
  rw [hfile.1, hfile.2]
  by_cases hc : b.status = .cancelled
  · simp [hc]
  · cases hcode : b.couponCode <;> simp [hc]

theorem countUses_split (uses : List CouponUse) (k : Id) (code : String) :
    countUses uses code =
      countUses (usesBy uses k) code + countUses (usesWithout uses [k]) code := by
  rw [countUses, List.countP_eq_countP_filter_add uses _ (fun u => u.bookingId = k)]
  simp [countUses, usesBy, usesWithout]

theorem countUses_usesBy {uses : List CouponUse} {k : Id} {couponCode : Option String}
    (h : (usesBy uses k).map CouponUse.couponCode = couponCode.toList) (code : String) :
    countUses (usesBy uses k) code = if couponCode = some code then 1 else 0 := by
  have hmap : countUses (usesBy uses k) code =
      ((usesBy uses k).map CouponUse.couponCode).countP (fun c => c = code) := by
    rw [List.countP_map]
    rfl
  rw [hmap, h]
  cases couponCode with
  | none => rfl
  | some c => by_cases hc : c = code <;> simp [hc]

/-- A booking makes the use of its row. -/
theorem usesBy_usesOf (t : Table Booking) (k : Id) :
    usesBy (usesOf t) k = ((t.find? k).bind (fun b => b.file.use?)).toList := by
  have hrows : t.rows.filter (fun b => b.id = k) = (t.find? k).toList := by
    cases hf : t.find? k with
    | none =>
        refine List.filter_eq_nil_iff.mpr fun b hb => ?_
        exact fun h => Table.find?_eq_none.mp hf b hb (of_decide_eq_true h)
    | some b =>
        obtain ⟨hb, hk⟩ := Table.find?_eq_some.mp hf
        have hnodup : t.rows.Nodup := List.Nodup.of_map _ t.nodup
        have hsame : t.rows.filter (fun x => x.id = k) = t.rows.filter (fun x => x = b) := by
          refine List.filter_congr fun x hx => ?_
          have : x.id = k ↔ x = b :=
            ⟨fun h => Table.key_inj hx hb (Eq.trans h hk.symm), fun h => h ▸ hk⟩
          simp [this]
        rw [hsame, List.filter_eq, List.count_eq_one_of_mem hnodup hb]
        rfl
  have hfilter : usesBy (usesOf t) k =
      (t.rows.filter (fun b => b.id = k)).filterMap (fun b => b.file.use?) := by
    simp only [usesBy, usesOf, List.filter_filterMap]
    rw [← List.filterMap_eq_filter, List.filterMap_filterMap]
    refine List.filterMap_congr fun b _ => ?_
    cases hu : b.file.use? with
    | none => by_cases hk : b.id = k <;> simp [Option.guard, hk, hu]
    | some u =>
        have := use?_bookingId hu
        by_cases hk : b.id = k <;> simp [Option.guard, Option.filter, hk, hu, this]
  rw [hfilter, hrows]
  cases t.find? k with
  | none => rfl
  | some b => cases hu : b.file.use? <;> simp [hu]

theorem usesBy_live {t : Table Booking} {b : Booking} (hb : t.find? b.id = some b)
    (live : b.status ≠ .cancelled) :
    (usesBy (usesOf t) b.id).map CouponUse.couponCode = b.couponCode.toList := by
  rw [usesBy_usesOf, hb]
  have hfile : b.file.status ≠ .cancelled ∧ b.file.core.couponCode = b.couponCode :=
    ⟨live, rfl⟩
  simp only [Option.bind_some, BookingFile.use?, if_neg hfile.1, hfile.2]
  cases b.couponCode <;> rfl

theorem usesBy_without {uses : List CouponUse} {ids : List Id} {k : Id} (h : k ∉ ids) :
    usesBy (usesWithout uses ids) k = usesBy uses k := by
  simp only [usesBy, usesWithout, List.filter_filter]
  refine List.filter_congr fun u _ => ?_
  by_cases hu : u.bookingId = k
  · simp [hu, h]
  · simp [hu]

/-! ## One coupon by its code -/

/-- The unique index on the code. -/
def Db.CodesUnique (db : Db) : Prop :=
  ∀ c ∈ db.coupons.rows, ∀ c' ∈ db.coupons.rows, c.code = c'.code → c = c'

/-- With unique codes, a lookup by code finds the row of the code. -/
theorem Db.CodesUnique.find (h : db.CodesUnique)
    {c : Coupon} (hc : c ∈ db.coupons.rows) : findCoupon db c.code = some c := by
  cases hf : findCoupon db c.code with
  | none =>
      have := Table.first?_eq_none.mp hf c hc
      simp at this
  | some c' =>
      obtain ⟨hc', hcode⟩ := findCoupon_eq_some hf
      rw [h c' hc' c hc hcode]

/-- A row has the code of another exactly when it is that row. -/
theorem Db.CodesUnique.code_iff (h : db.CodesUnique)
    {coupon c : Coupon} (hcoupon : coupon ∈ db.coupons.rows) (hc : c ∈ db.coupons.rows) :
    some coupon.code = some c.code ↔ Keyed.key c = coupon.id := by
  refine ⟨fun heq => ?_, fun hid => ?_⟩
  · rw [h coupon hcoupon c hc (Option.some.inj heq)]
    rfl
  · rw [Table.key_inj hc hcoupon hid]

/-- A returned use lowers the counter of its code, down to 0. -/
theorem refundCouponUsage_row (h : db.CodesUnique)
    {couponCode : Option String} {customerId : Id} :
    ∀ c' ∈ (refundCouponUsage now db couponCode customerId).coupons.rows,
      ∃ c ∈ db.coupons.rows, c.id = c'.id ∧ c'.code = c.code ∧
        c'.usageLimit = c.usageLimit ∧ c'.usedCount =
        if couponCode = some c.code ∧ 0 < c.usedCount then c.usedCount - 1
        else c.usedCount := by
  unfold refundCouponUsage
  cases hfound : couponCode.bind (findCoupon db) with
  | none =>
      intro c hc
      refine ⟨c, hc, rfl, rfl, rfl, (if_neg fun hmatch => ?_).symm⟩
      rw [hmatch.1, Option.bind_some, h.find hc] at hfound
      cases hfound
  | some coupon =>
      obtain ⟨code, rfl, hcode⟩ := Option.bind_eq_some_iff.mp hfound
      obtain ⟨hmem, rfl⟩ := findCoupon_eq_some hcode
      intro c' hc'
      simp only at hc'
      split at hc'
      · rw [Table.update_update] at hc'
        obtain ⟨c, hc, rfl⟩ := Table.mem_update.mp hc'
        refine ⟨c, hc, ?_⟩
        simp only [h.code_iff hmem hc]
        by_cases hid : Keyed.key c = coupon.id
        · by_cases hpos : 0 < c.usedCount <;> simp [hid, hpos]
        · simp [hid]
      · obtain ⟨c, hc, rfl⟩ := Table.mem_update.mp hc'
        refine ⟨c, hc, ?_⟩
        simp only [h.code_iff hmem hc]
        by_cases hid : Keyed.key c = coupon.id
        · by_cases hpos : 0 < c.usedCount <;> simp [hid, hpos]
        · simp [hid]

/-- A use taken raises the counter of the coupon. -/
theorem takeCouponUse_row (h : db.CodesUnique)
    {coupon : Coupon} {limit : Option Int} {message : String}
    (hmem : coupon ∈ db.coupons.rows)
    (htake : takeCouponUse db coupon limit message = .ok db') :
    ∀ c' ∈ db'.coupons.rows, ∃ c ∈ db.coupons.rows, c.id = c'.id ∧ c'.code = c.code ∧
      c'.usageLimit = c.usageLimit ∧ c'.usedCount =
        if some coupon.code = some c.code then c.usedCount + 1 else c.usedCount := by
  intro c' hc'
  cases limit with
  | none =>
      obtain rfl := Except.ok.inj htake
      simp only at hc'
      obtain ⟨c, hc, rfl⟩ := Table.mem_update.mp hc'
      refine ⟨c, hc, ?_⟩
      simp only [h.code_iff hmem hc]
      by_cases hid : Keyed.key c = coupon.id <;> simp [hid]
  | some n =>
      simp only [takeCouponUse, bind_eq_ok] at htake
      obtain ⟨_, _, htake⟩ := htake
      split at htake
      · rw [pure_eq_ok] at htake
        subst htake
        simp only at hc'
        rw [Table.update_update] at hc'
        obtain ⟨c, hc, rfl⟩ := Table.mem_update.mp hc'
        refine ⟨c, hc, ?_⟩
        simp only [h.code_iff hmem hc]
        by_cases hid : Keyed.key c = coupon.id <;> simp [hid]
      · rw [pure_eq_ok] at htake
        subst htake
        simp only at hc'
        obtain ⟨c, hc, rfl⟩ := Table.mem_update.mp hc'
        refine ⟨c, hc, ?_⟩
        simp only [h.code_iff hmem hc]
        by_cases hid : Keyed.key c = coupon.id <;> simp [hid]

theorem applyDiscount_row (h : db.CodesUnique)
    {p : PreparedBooking} {totalPrice : Cents} {r : Db × Option String × Cents}
    (hr : applyDiscount now db p totalPrice = .ok r) :
    ∀ c' ∈ r.1.coupons.rows, ∃ c ∈ db.coupons.rows, c.id = c'.id ∧ c'.code = c.code ∧
      c'.usageLimit = c.usageLimit ∧
      c'.usedCount = if r.2.1 = some c.code then c.usedCount + 1 else c.usedCount := by
  cases applyDiscount_cases hr with
  | plain => exact fun c hc => ⟨c, hc, rfl, rfl, rfl, by simp⟩
  | voucher _ _ coupon _ _ _ _ _ found _ taken =>
      have hmem := (Table.find?_eq_some.mp found).1
      have hm := takeCouponUse_row (by exact h) (by exact hmem) taken
      exact hm
  | typed _ coupon _ _ _ found _ _ taken =>
      obtain ⟨hmem, hcode⟩ := findCoupon_eq_some found
      rw [← hcode]
      exact takeCouponUse_row h hmem taken

/-- A use taken again raises the counter of its code, unless it is at the
cap. -/
theorem reclaimCouponUsage_row (h : db.CodesUnique)
    {couponCode : Option String} {customerId : Id} :
    ∀ c' ∈ (reclaimCouponUsage db couponCode customerId).coupons.rows,
      ∃ c ∈ db.coupons.rows, c.id = c'.id ∧ c'.code = c.code ∧
        c'.usageLimit = c.usageLimit ∧ c'.usedCount =
        if couponCode = some c.code ∧ ∀ limit ∈ c.usageLimit, limit = 0 ∨ c.usedCount < limit
        then c.usedCount + 1 else c.usedCount := by
  unfold reclaimCouponUsage
  cases hfound : couponCode.bind (findCoupon db) with
  | none =>
      intro c hc
      refine ⟨c, hc, rfl, rfl, rfl, (if_neg fun hmatch => ?_).symm⟩
      rw [hmatch.1, Option.bind_some, h.find hc] at hfound
      cases hfound
  | some coupon =>
      obtain ⟨code, rfl, hcode⟩ := Option.bind_eq_some_iff.mp hfound
      obtain ⟨hmem, rfl⟩ := findCoupon_eq_some hcode
      intro c' hc'
      simp only at hc'
      obtain ⟨c, hc, rfl⟩ := Table.mem_update.mp hc'
      refine ⟨c, hc, ?_⟩
      simp only [h.code_iff hmem hc]
      by_cases hid : Keyed.key c = coupon.id
      · obtain rfl := Table.key_inj hc hmem hid
        rcases Option.eq_none_or_eq_some c.usageLimit with hlimit | ⟨limit, hlimit⟩
        · simp [hlimit, hid]
        · by_cases hroom : limit = 0 ∨ c.usedCount < limit <;> simp [hlimit, hid, hroom]
      · simp [hid]

/-! ## The counters and the uses -/

/-- No counter is ahead of the uses of its code, and when it is exact none is
behind. -/
structure Counts (exact : Prop) (coupons : Table Coupon) (uses : List CouponUse) : Prop where
  codes : ∀ c ∈ coupons.rows, ∀ c' ∈ coupons.rows, c.code = c'.code → c = c'
  nonneg : ∀ c ∈ coupons.rows, 0 ≤ c.usedCount
  atMost : ∀ c ∈ coupons.rows, c.usedCount ≤ countUses uses c.code
  equal : exact → ∀ c ∈ coupons.rows, c.usedCount = countUses uses c.code

/-- Rows that keep their codes and stay between their bounds keep the
invariant. -/
theorem Counts.moved {t t' : Table Coupon} {uses uses' : List CouponUse}
    (h : Counts exact t uses)
    (m : ∀ c' ∈ t'.rows, ∃ c ∈ t.rows, c.id = c'.id ∧ c'.code = c.code ∧ 0 ≤ c'.usedCount ∧
      c'.usedCount ≤ countUses uses' c.code ∧
      (exact → c'.usedCount = countUses uses' c.code)) : Counts exact t' uses' := by
  refine ⟨fun c₁' h₁' c₂' h₂' hcode => ?_, fun c' hc' => ?_, fun c' hc' => ?_,
    fun hexact c' hc' => ?_⟩
  · obtain ⟨c₁, h₁, hid₁, hcode₁, _⟩ := m c₁' h₁'
    obtain ⟨c₂, h₂, hid₂, hcode₂, _⟩ := m c₂' h₂'
    have hsame : c₁ = c₂ := h.codes c₁ h₁ c₂ h₂ (by rw [← hcode₁, ← hcode₂, hcode])
    refine Table.key_inj h₁' h₂' ?_
    have hid : c₁'.id = c₂'.id := by rw [← hid₁, ← hid₂, hsame]
    exact hid
  · obtain ⟨c, _, _, _, hnonneg, _⟩ := m c' hc'
    exact hnonneg
  · obtain ⟨c, _, _, hcode, _, hle, _⟩ := m c' hc'
    rwa [hcode]
  · obtain ⟨c, _, _, hcode, _, _, heq⟩ := m c' hc'
    rw [hcode]
    exact heq hexact

/-- **The return of a use.**  The booking made just this use; a counter that
need not be exact may also fall for a booking that makes none. -/
theorem Counts.refund {uses : List CouponUse} (h : Counts exact db.coupons uses) {k : Id}
    {couponCode : Option String} {customerId : Id}
    (hk : (usesBy uses k).map CouponUse.couponCode = couponCode.toList ∨
      (¬ exact ∧ usesBy uses k = [])) :
    Counts exact (refundCouponUsage now db couponCode customerId).coupons
      (usesWithout uses [k]) := by
  refine h.moved fun c' hc' => ?_
  obtain ⟨c, hc, hid, hcode, _, hcount⟩ := refundCouponUsage_row h.codes c' hc'
  refine ⟨c, hc, hid, hcode, ?_⟩
  have hnonneg := h.nonneg c hc
  have hle := h.atMost c hc
  have hsplit := countUses_split uses k c.code
  rcases hk with hk | ⟨hloose, hk⟩
  · rw [countUses_usesBy hk] at hsplit
    by_cases hmatch : couponCode = some c.code
    · rw [if_pos hmatch] at hsplit
      by_cases hpos : 0 < c.usedCount
      · rw [if_pos ⟨hmatch, hpos⟩] at hcount
        refine ⟨by lia, by lia, fun hexact => ?_⟩
        have := h.equal hexact c hc
        lia
      · rw [if_neg fun h => hpos h.2] at hcount
        refine ⟨by lia, by lia, fun hexact => ?_⟩
        have := h.equal hexact c hc
        lia
    · rw [if_neg hmatch] at hsplit
      rw [if_neg fun h => hmatch h.1] at hcount
      refine ⟨by lia, by lia, fun hexact => ?_⟩
      have := h.equal hexact c hc
      lia
  · have hzero : countUses (usesBy uses k) c.code = 0 := by rw [hk]; rfl
    rw [hzero] at hsplit
    refine ⟨?_, ?_, fun hexact => absurd hexact hloose⟩ <;>
    · rw [hcount]
      split <;> lia

theorem countUses_snoc (uses : List CouponUse) (k customerId : Id)
    (couponCode : Option String) (code : String) :
    countUses (uses ++ (couponCode.map (fun c => (⟨k, c, customerId⟩ : CouponUse))).toList)
      code = countUses uses code + if couponCode = some code then 1 else 0 := by
  cases couponCode with
  | none => simp [countUses]
  | some c => by_cases hc : c = code <;> simp [countUses, hc]

/-- **The use a creation takes.** -/
theorem Counts.take {uses : List CouponUse} (h : Counts exact db.coupons uses)
    {p : PreparedBooking} {totalPrice : Cents} {r : Db × Option String × Cents}
    (hr : applyDiscount now db p totalPrice = .ok r) (k customerId : Id) :
    Counts exact r.1.coupons
      (uses ++ (r.2.1.map (fun c => (⟨k, c, customerId⟩ : CouponUse))).toList) := by
  refine h.moved fun c' hc' => ?_
  obtain ⟨c, hc, hid, hcode, _, hcount⟩ := applyDiscount_row h.codes hr c' hc'
  refine ⟨c, hc, hid, hcode, ?_⟩
  have hnonneg := h.nonneg c hc
  have hle := h.atMost c hc
  rw [countUses_snoc, hcount]
  split
  · exact ⟨by lia, by push_cast; lia, fun hexact => by
      have := h.equal hexact c hc
      push_cast
      lia⟩
  · exact ⟨by lia, by push_cast; lia, fun hexact => by
      have := h.equal hexact c hc
      push_cast
      lia⟩

/-- **The use a recovery takes again.**  At the cap the counter stays, and is
behind from then on. -/
theorem Counts.retake {uses : List CouponUse} (h : Counts exact db.coupons uses)
    (couponCode : Option String) (k customerId : Id)
    (room : exact → ∀ c ∈ db.coupons.rows, couponCode = some c.code →
      ∀ limit ∈ c.usageLimit, limit = 0 ∨ c.usedCount < limit) :
    Counts exact (reclaimCouponUsage db couponCode customerId).coupons
      (uses ++ (couponCode.map (fun c => (⟨k, c, customerId⟩ : CouponUse))).toList) := by
  refine h.moved fun c' hc' => ?_
  obtain ⟨c, hc, hid, hcode, _, hcount⟩ := reclaimCouponUsage_row h.codes c' hc'
  refine ⟨c, hc, hid, hcode, ?_⟩
  have hnonneg := h.nonneg c hc
  have hle := h.atMost c hc
  rw [countUses_snoc, hcount]
  by_cases hmatch : couponCode = some c.code
  · by_cases hroom : ∀ limit ∈ c.usageLimit, limit = 0 ∨ c.usedCount < limit
    · rw [if_pos ⟨hmatch, hroom⟩, if_pos hmatch]
      refine ⟨by lia, by push_cast; lia, fun hexact => ?_⟩
      have := h.equal hexact c hc
      push_cast
      lia
    · rw [if_neg fun h => hroom h.2, if_pos hmatch]
      exact ⟨hnonneg, by push_cast; lia, fun hexact => absurd (room hexact c hc hmatch) hroom⟩
  · rw [if_neg fun h => hmatch h.1, if_neg hmatch]
    exact ⟨hnonneg, by push_cast; lia, fun hexact => by
      have := h.equal hexact c hc
      push_cast
      lia⟩

/-- **The uses the reaper returns**, one booking after the other. -/
theorem Counts.reap (claimed : List Booking) : ∀ {db : Db} {uses : List CouponUse},
    Counts exact db.coupons uses → (claimed.map Booking.id).Nodup →
    (∀ b ∈ claimed, (usesBy uses b.id).map CouponUse.couponCode = b.couponCode.toList) →
    Counts exact (refundCoupons now db claimed).coupons
      (usesWithout uses (claimed.map Booking.id)) := by
  induction claimed with
  | nil =>
      intro db uses h _ _
      simpa [refundCoupons, usesWithout] using h
  | cons b claimed ih =>
      intro db uses h hnodup hown
      rw [List.map_cons, List.nodup_cons] at hnodup
      have h₁ : Counts exact (refundCouponUsage now db b.couponCode b.customerId).coupons _ :=
        h.refund (.inl (hown b List.mem_cons_self))
      have h₂ := ih h₁ hnodup.2 fun b' hb' => ?_
      · have huses : usesWithout (usesWithout uses [b.id]) (claimed.map Booking.id) =
            usesWithout uses ((b :: claimed).map Booking.id) := by
          simp only [usesWithout, List.filter_filter, List.map_cons]
          refine List.filter_congr fun u _ => ?_
          by_cases hu : u.bookingId = b.id <;> simp [hu]
        rwa [huses] at h₂
      · have hne : b'.id ∉ [b.id] := by
          intro hid
          rw [List.mem_singleton] at hid
          exact hnodup.1 (hid ▸ List.mem_map_of_mem hb')
        rw [usesBy_without hne]
        exact hown b' (List.mem_cons_of_mem _ hb')

/-! ## One task -/

/-- No booking is cancelled by the system. -/
def Dossier.Unsystem (d : Dossier) : Prop := ∀ b ∈ d.booking, b.bySystem = false

theorem Dossier.Unsystem.step {chain : Option Id} {u : Id} {balance : Id → Cents}
    {d d' : Dossier} (h : d.Unsystem) (m : Move G chain u balance d d') : d'.Unsystem := by
  unfold Dossier.Unsystem at *
  cases m <;>
    simp only [Option.mem_def, Option.some.injEq, forall_eq', reduceCtorEq,
      Dossier.blank] at * <;>
    grind

/-- The use of a row whose code was read with the booking. -/
theorem usesBy_read {b r : Booking} (hb : db.bookings.find? r.id = some b)
    (live : b.status ≠ .cancelled) (frozen : ∀ u, (db.dossier u r.id).Frozen r.core) :
    (usesBy (usesOf db.bookings) r.id).map CouponUse.couponCode = r.couponCode.toList := by
  have hcore := (frozen 0).2.1 b.file (dossier_of_find hb 0)
  have hid : b.id = r.id := (Table.find?_eq_some.mp hb).2
  have hcode : b.file.core.couponCode = r.core.couponCode :=
    congrArg Booking.couponCode hcore
  have huse := usesBy_live (hid ▸ hb) live
  rw [hid] at huse
  exact huse.trans (congrArg Option.toList hcode)

/-- A soft cancel finds its booking live. -/
theorem Consistent.softCancel_live {s : Sys} (h : Consistent s) {r : CancelRead}
    (ht : Task.cancel r ∈ s.inflight) {payment q : Payment} (hpay : r.payment = some payment)
    (hq : s.db.payments.find? payment.id = some q)
    (hst : q.status = .pending ∨ q.status = .success) (hsame : q.status = payment.status)
    {b : Booking} (hb : s.db.bookings.find? r.booking.id = some b) :
    b.status ≠ .cancelled := by
  obtain ⟨_, q₀, hq₀, own, hread⟩ := h.relies _ ht
  obtain rfl := Option.some.inj (hpay.symm.trans hq₀)
  have hfile : (s.db.dossier 0 r.booking.id).payment = some q.file := by
    rw [own.dossier_payment, hq]
    rfl
  intro hdead
  rcases hst with hst | hst
  · obtain ⟨f, hf, hpending⟩ := (h.filed 0 _).pending _ hfile hst
    rw [dossier_of_find hb 0] at hf
    obtain rfl := Option.some.inj hf
    have : b.status = .pending := hpending
    rw [hdead] at this
    cases this
  · rcases hread with hread | ⟨_, hread⟩
    · rw [← hsame, hst] at hread
      cases hread
    · exact ((hread 0).2 _ hfile).2.2 hst b.file (dossier_of_find hb 0) hdead

/-- A failure callback finds its booking live. -/
theorem Consistent.settleFailure_live {s : Sys} (h : Consistent s) {payment q : Payment}
    {params : CallbackParams} {isSuccess : Bool}
    (ht : Task.settle payment params isSuccess ∈ s.inflight)
    (hq : s.db.payments.find? payment.id = some q) (hst : q.status = .pending) {b : Booking}
    (hlink : payment.bookingId = some b.id) (hb : s.db.bookings.find? b.id = some b) :
    b.status ≠ .cancelled := by
  obtain ⟨k, hk, own⟩ := h.relies _ ht
  obtain rfl := Option.some.inj (hk.symm.trans hlink)
  have hfile : (s.db.dossier 0 b.id).payment = some q.file := by
    rw [own.dossier_payment, hq]
    rfl
  obtain ⟨f, hf, hpending⟩ := (h.filed 0 _).pending _ hfile hst
  rw [dossier_of_find hb 0] at hf
  obtain rfl := Option.some.inj hf
  intro hdead
  have : b.status = .pending := hpending
  rw [hdead] at this
  cases this

/-- The condition for the counter to be exact: an orphan recovery finds its
coupon below the cap. -/
def Sys.RoomToRetake (s : Sys) (a : Action) : Prop :=
  ∀ code ∈ (s.task? a).bind Task.retakes, ∀ c ∈ s.db.coupons.rows, c.code = code →
    ∀ limit ∈ c.usageLimit, limit = 0 ∨ c.usedCount < limit

/-- No task of a sound step makes a cancelled booking live again. -/
theorem Consistent.not_revived {s : Sys} (h : Consistent s)
    (unsystem : ∀ u k, (s.db.dossier u k).Unsystem) {a : Action} {t : Task}
    (ht : s.task? a = some t) (hin : t ∈ s.inflight) (sane : s.SaneUpdate a) {b : Booking}
    (found : s.db.bookings.find? b.id = some b) (mine : t.revives = some b.id) :
    b.status ≠ .cancelled := by
  intro dead
  have relies := h.relies t hin
  cases t with
  | update r =>
      have hsane := sane r (by rw [ht]; rfl)
      simp only [Task.revives] at mine
      split at mine
      · cases mine
      · rename_i hne
        obtain hid := Option.some.inj mine
        exact (hsane hne b (hid ▸ found)).1 dead
  | unCancel p x =>
      obtain hid := Option.some.inj mine
      have hfile := dossier_of_find found 0
      have hopen := (relies.isOpen 0).2.2 b.file (hid ▸ hfile)
      have := unsystem 0 b.id b.file hfile
      rw [hopen.2] at this
      cases this
  | _ => cases mine

/-- **One task keeps the counters with the uses.** -/
theorem Consistent.counts_run {s : Sys} (h : Consistent s)
    (unsystem : ∀ u k, (s.db.dossier u k).Unsystem)
    (hcount : Counts exact s.db.coupons (usesOf s.db.bookings)) {a : Action} {t : Task}
    (ht : s.task? a = some t) (hin : t ∈ s.inflight) (sane : s.SaneUpdate a)
    (ok : exact → s.LiveDelete a ∧ s.RoomToRetake a) :
    Counts exact (t.run env s.now s.db).1.coupons (usesOf (t.run env s.now s.db).1.bookings) := by
  have relies := h.relies t hin
  cases t.run_coupons env s.now s.db with
  | idle _ same uses =>
      rw [same.1, uses]
      exact hcount
  | revived _ b found dead mine same =>
      exact absurd dead (h.not_revived unsystem ht hin sane found mine)
  | created p ref totalPrice r b taken same code customer _ hlive inserted =>
      have huses : usesOf (Task.run env s.now s.db (.create p ref)).1.bookings =
          usesOf s.db.bookings ++
            (r.2.1.map (fun c => (⟨b.id, c, b.customerId⟩ : CouponUse))).toList := by
        rw [usesOf, inserted, List.filterMap_append, ← code]
        have hfile : b.file.status ≠ .cancelled := hlive
        have huse : b.file.use? =
            b.couponCode.map (fun c => (⟨b.id, c, b.customerId⟩ : CouponUse)) := if_neg hfile
        refine congrArg (usesOf s.db.bookings ++ ·) ?_
        rw [← huse]
        cases hu : b.file.use? <;> simp [hu]
      rw [huses, same.1]
      exact hcount.take taken b.id b.customerId
  | declined payment params q b found pending link doomed uses same =>
      rw [same.1, uses]
      exact hcount.refund (.inl (usesBy_live doomed
        (h.settleFailure_live hin found pending link doomed)))
  | cancelled r row soft uses same =>
      rw [same.1, uses]
      obtain ⟨b, hb⟩ := row
      by_cases hlive : b.status ≠ .cancelled
      · exact hcount.refund (.inl (usesBy_read hb hlive relies.frozen))
      -- only a hard delete can find its booking cancelled
      refine hcount.refund (.inr ⟨fun hexact => hlive ?_, ?_⟩)
      · rcases soft with hplan | ⟨payment, q, hpay, hq, hsame, hst⟩
        · refine (ok hexact).1.deletes r.booking ?_ b hb
          rw [ht]
          simp only [Option.bind_some, Task.deletedBooking?, hplan, Option.mem_def]
        · exact h.softCancel_live hin hpay hq hst hsame hb
      · rw [usesBy_usesOf, hb]
        have huse : b.file.use? = none := if_pos (not_not.mp hlive)
        rw [Option.bind_some, huse]
        rfl
  | operated r b _ found hlive uses same =>
      rw [same.1, uses]
      have hid : b.id = r.booking.id := (Table.find?_eq_some.mp found).2
      rw [← hid] at found ⊢
      exact hcount.refund (.inl (usesBy_live found hlive))
  | unpaid r b found hlive unpaid uses same =>
      obtain ⟨q, hq, _⟩ := h.filed.payment_of_live h.wired found hlive
      rw [hq] at unpaid
      cases unpaid
  | reaped stale claimed scanned _ reaps =>
      have hdeleted := reaps.deleted
      rw [hdeleted, uses_deleteMany, reaps.coupons.1]
      refine hcount.reap claimed reaps.distinct fun b hb => ?_
      obtain ⟨x, hx, hpending⟩ := reaps.reserved b hb
      exact usesBy_read hx (by rw [hpending]; simp) (relies b (scanned b hb)).1
  | recreated paymentId amount bookingId snapshot inserted same =>
      have hrows := (Table.insert?_eq_some.mp inserted).2
      rw [same.1, usesOf, hrows, List.filterMap_append]
      have huses : [recreatedBooking (bookingId.getD s.db.nextId) paymentId snapshot].filterMap
          (fun b => b.file.use?) = (snapshot.couponCode.map (fun c =>
            (⟨bookingId.getD s.db.nextId, c, snapshot.customerId⟩ : CouponUse))).toList := by
        cases hcode : snapshot.couponCode <;>
          simp [BookingFile.use?, Booking.file, Booking.core, recreatedBooking, hcode]
      rw [huses]
      refine hcount.retake _ _ _ fun hexact c hc hmatch limit hlimit => ?_
      exact (ok hexact).2 c.code (by rw [ht]; exact hmatch) c hc rfl limit hlimit

/-! ## Runs -/

/-- What every run keeps: the invariant of the system, no booking cancelled by
the system, and the counters with the uses. -/
structure CountsUses (exact : Prop) (s : Sys) : Prop where
  consistent : Consistent s
  unsystem : ∀ u k, (s.db.dossier u k).Unsystem
  counts : Counts exact s.db.coupons (usesOf s.db.bookings)

theorem CountsUses.step {s s' : Sys} {a : Action} (h : CountsUses exact s)
    (sane : s.SaneUpdate a) (ok : exact → s.LiveDelete a ∧ s.RoomToRetake a)
    (hstep : s.step env a = some s') : CountsUses exact s' := by
  obtain ⟨hc', chain, st⟩ := h.consistent.step sane.guarded hstep
  refine ⟨hc', fun u k => (h.unsystem u k).step (st.moves u k), ?_⟩
  rcases Sys.step_db hstep with ⟨hdb, _⟩ | ⟨t, ht, hdb, _⟩
  · rw [hdb]
    exact h.counts
  · rw [hdb]
    have hin : t ∈ s.inflight := by
      cases a with
      | run index => exact List.mem_of_getElem? ht
      | _ => cases ht
    exact h.consistent.counts_run h.unsystem h.counts ht hin sane ok

theorem Initial.countsUses {s : Sys} (h : Initial s)
    (codes : ∀ c ∈ s.db.coupons.rows, ∀ c' ∈ s.db.coupons.rows, c.code = c'.code → c = c')
    (unused : ∀ c ∈ s.db.coupons.rows, c.usedCount = 0) : CountsUses exact s := by
  refine ⟨h.consistent, fun u k => ?_, codes, fun c hc => ?_, fun c hc => ?_,
    fun _ c hc => ?_⟩
  · rw [h.dossier]
    simp [Dossier.Unsystem, Dossier.blank]
  all_goals
    rw [unused c hc]
    try simp [usesOf, h.bookings, countUses]

/-- **The counter of a coupon counts its live bookings.**  It is never ahead
of them; it is equal to them in a run where no recovery re-inserts a booking
whose coupon is at its cap, and no hard delete finds its booking cancelled. -/
theorem coupon_uses_counted {s₀ : Sys} (h : Initial s₀)
    (codes : ∀ c ∈ s₀.db.coupons.rows, ∀ c' ∈ s₀.db.coupons.rows, c.code = c'.code → c = c')
    (unused : ∀ c ∈ s₀.db.coupons.rows, c.usedCount = 0) :
    (∀ s, Run (Sys.step env) Sys.SaneUpdate s₀ s →
      ∀ c ∈ s.db.coupons.rows, c.usedCount ≤ s.db.liveUses c.code) ∧
    ∀ s, Run (Sys.step env) (fun s a => s.LiveDelete a ∧ s.RoomToRetake a) s₀ s →
      ∀ c ∈ s.db.coupons.rows, c.usedCount = s.db.liveUses c.code := by
  refine ⟨fun s run c hc => ?_, fun s run c hc => ?_⟩
  · have hs : CountsUses False s := run.invariant (CountsUses False)
      (fun _ _ _ hs sane hstep => hs.step sane False.elim hstep)
      (h.countsUses codes unused)
    rw [Db.liveUses_eq]
    exact hs.counts.atMost c hc
  · have hs : CountsUses True s := run.invariant (CountsUses True)
      (fun _ _ _ hs ok hstep => hs.step ok.1.sane (fun _ => ok) hstep)
      (h.countsUses codes unused)
    rw [Db.liveUses_eq]
    exact hs.counts.equal trivial c hc

instance (s : Sys) (a : Action) : Decidable (s.RoomToRetake a) :=
  inferInstanceAs (Decidable (∀ code ∈ (s.task? a).bind Task.retakes,
    ∀ c ∈ s.db.coupons.rows, c.code = code →
      ∀ limit ∈ c.usageLimit, limit = 0 ∨ c.usedCount < limit))

theorem couponMarket_initial : Initial couponMarket.sys :=
  ⟨market_initial.bookings, market_initial.payments, market_initial.ledger, rfl⟩

theorem couponMarket_codes : ∀ c ∈ couponMarket.sys.db.coupons.rows,
    ∀ c' ∈ couponMarket.sys.db.coupons.rows, c.code = c'.code → c = c' := by
  intro c hc c' hc' _
  rw [List.mem_singleton.mp hc, List.mem_singleton.mp hc']

theorem couponMarket_unused : ∀ c ∈ couponMarket.sys.db.coupons.rows, c.usedCount = 0 := by
  intro c hc
  rw [List.mem_singleton.mp hc]
  rfl

/-- A booking with a claimed coupon whose payment is started and abandoned. -/
def abandonedVoucher : List Action :=
  [.begin (.createBooking 1 (voucherRequest 8 600) "R1"), .run 0, .run 0,
    .begin (.initiatePayment 101 1 none "B1"), .run 0, .tick (3 * 3600000)]

theorem coupon_uses_counted_reaped :
    ∃ s, Run (Sys.step marketEnv) (fun s a => s.LiveDelete a ∧ s.RoomToRetake a)
        couponMarket.sys s ∧
      s.db.couponStatus 9 = some .approved ∧
      ∀ c ∈ s.db.coupons.rows, c.usedCount = s.db.liveUses c.code := by
  obtain ⟨s, run, h⟩ := @Run.of_execAll_test _ _ (Sys.step marketEnv)
    (fun s a => s.LiveDelete a ∧ s.RoomToRetake a) _
    (abandonedVoucher ++ [.begin .autoCancelStalePendingBookings, .run 0])
    couponMarket.sys (fun s => s.db.couponStatus 9 = some .approved) (by decide +kernel)
  exact ⟨s, run, of_decide_eq_true h, (coupon_uses_counted couponMarket_initial
    couponMarket_codes couponMarket_unused).2 s run⟩

/-- The booking is reaped, another customer takes the last use, and then the
payment succeeds: the recovery leaves the counter at the cap. -/
theorem coupon_uses_behind :
    Initial couponMarket.sys ∧ (∀ c ∈ couponMarket.sys.db.coupons.rows, c.usedCount = 0) ∧
    ∃ s, Run (Sys.step marketEnv) Sys.LiveDelete couponMarket.sys s ∧
      ∃ c ∈ s.db.coupons.rows, c.usedCount = 1 ∧ s.db.liveUses c.code = 2 := by
  refine ⟨couponMarket_initial, couponMarket_unused, ?_⟩
  obtain ⟨s, run, h⟩ := @Run.of_execAll_test _ _ (Sys.step marketEnv) Sys.LiveDelete _
    (abandonedVoucher ++ [.begin .autoCancelStalePendingBookings, .run 0,
      .begin (.createBooking 2 (voucherRequest 10 720) "R2"), .run 0, .run 0,
      .begin (.handleCallback (marketIpn "B1")), .run 0, .run 0, .run 0])
    couponMarket.sys (fun s => ∃ c ∈ s.db.coupons.rows, c.usedCount = 1 ∧
      s.db.liveUses c.code = 2) (by decide +kernel)
  exact ⟨s, run, of_decide_eq_true h⟩

end Jadwal
