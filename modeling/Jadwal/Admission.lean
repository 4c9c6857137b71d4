import Jadwal.Availability

/-!
# The admission rule

What the unit assignment and the final check of `createBooking` demand, in terms
of the guests present at the instants of the window (`Vacant`) and of the units
nothing is booked in.  `accepts_units`, `accepts_seats` and the two lemmas on
`usableUnits` are what the availability views, the pickers and the recovery check
are compared with.
-/

namespace Jadwal

open Outcome

variable {a : Activity} {bookings : List Booking} {s e : Instant} {guests : Nat}

/-- The transaction's checks let the request through. -/
def Accepts (a : Activity) (bookings : List Booking) (s e : Instant) (guests : Nat) : Prop :=
  ∃ unitNumber, assignUnit a bookings s e guests = .ok unitNumber

/-- At every instant of the window the guests present leave room for `guests` more. -/
def Vacant (bookings : List Booking) (capacity : Nat) (s e : Instant) (guests : Nat) : Prop :=
  ∀ t, s ≤ t → t < e → seats bookings t + guests ≤ capacity

/-- A booking takes a stretch of time and seats somebody. -/
structure Booking.Proper (b : Booking) : Prop where
  interval : b.startDatetime < b.endDatetime
  guests : 0 < b.guests

/-! ## Seats at an instant -/

@[simp] theorem seats_nil (t : Instant) : seats [] t = 0 := rfl

@[simp] theorem seats_cons (b : Booking) (bs : List Booking) (t : Instant) :
    seats (b :: bs) t = (if b.covers t then b.guests else 0) + seats bs t := by
  simp [seats]

@[simp] theorem seats_append (bs bs' : List Booking) (t : Instant) :
    seats (bs ++ bs') t = seats bs t + seats bs' t := by
  simp [seats]

/-- Only the bookings that meet the window have guests in it. -/
theorem seats_overlaps (bs : List Booking) {t : Instant} (hs : s ≤ t) (he : t < e) :
    seats (bs.filter (fun b => b.overlaps s e)) t = seats bs t := by
  induction bs with
  | nil => rfl
  | cons b bs ih =>
      by_cases hover : b.overlaps s e = true
      · simp [hover, ih]
      · have hcov : ¬ b.covers t = true := fun hc => hover (covers_overlaps hc hs he)
        simp [hover, ih, hcov]

/-- A window with room for a party has that capacity. -/
theorem Vacant.guests_le (hse : s < e) {capacity : Nat}
    (h : Vacant bookings capacity s e guests) : guests ≤ capacity :=
  (Nat.le_add_left _ _).trans (h s le_rfl hse)

/-- Where fewer stay, a party still fits. -/
theorem Vacant.mono {bs bs' : List Booking} {capacity : Nat}
    (hle : ∀ t, s ≤ t → t < e → seats bs t ≤ seats bs' t)
    (h : Vacant bs' capacity s e guests) : Vacant bs capacity s e guests :=
  fun t hs he => (Nat.add_le_add_right (hle t hs he) _).trans (h t hs he)

/-- **What the sweep leaves of a capacity is what every instant leaves of it.** -/
theorem le_sub_peak_iff (hse : s < e) (capacity : Nat) :
    (guests : Int) ≤ capacity - maxConcurrentInWindow bookings s e ↔
      Vacant bookings capacity s e guests := by
  by_cases hfit : guests ≤ capacity
  · have hn : (0 : Int) ≤ capacity - guests := by omega
    have hpeak := maxConcurrentInWindow_le_iff hn bookings s e
    constructor
    · intro h t hs he
      have hle := hpeak.mp (by omega) t hs he
      omega
    · intro h
      have hle := hpeak.mpr fun t hs he => by
        have hroom := h t hs he
        omega
      omega
  · have hpos := maxConcurrentInWindow_nonneg bookings s e
    constructor
    · intro h
      omega
    · intro h
      exact absurd (h.guests_le hse) hfit

/-- The peak is positive when somebody is booked inside the window. -/
theorem maxConcurrentInWindow_pos_iff (hproper : ∀ b ∈ bookings, b.Proper) (hse : s < e) :
    0 < maxConcurrentInWindow bookings s e ↔ ∃ b ∈ bookings, b.overlaps s e = true := by
  constructor
  · intro hpos
    by_contra hnone
    push Not at hnone
    have hzero := (maxConcurrentInWindow_le_iff le_rfl bookings s e).mpr fun t hs he => by
      rw [← seats_overlaps bookings hs he,
        List.filter_eq_nil_iff.mpr (fun b hb => by simpa using hnone b hb)]
      rfl
    omega
  · rintro ⟨b, hb, hover⟩
    simp only [Booking.overlaps, decide_eq_true_eq] at hover
    obtain ⟨hlt, hgt⟩ := hover
    have hb' := hproper b hb
    have hint := hb'.interval
    have hcov : b.covers (max b.startDatetime s) = true :=
      decide_eq_true ⟨le_max_left _ _, max_lt hint hgt⟩
    have hseats : b.guests ≤ seats bookings (max b.startDatetime s) := by
      have hmem : (if b.covers (max b.startDatetime s) then b.guests else 0) ∈
          bookings.map (fun x => if x.covers (max b.startDatetime s) then x.guests else 0) :=
        List.mem_map_of_mem hb
      rw [if_pos hcov] at hmem
      exact List.le_sum_of_mem hmem
    have hpeak := seats_le_maxConcurrentInWindow bookings (le_max_right b.startDatetime s)
      (max_lt hlt hse)
    have hg := hb'.guests
    omega

/-! ## The checks -/

/-- A unit has no more guests than with those who have none yet. -/
theorem finalBookings_le (unitNum : Nat) (t : Instant) :
    seats (inUnit unitNum bookings) t ≤
      seats (inUnit unitNum bookings ++ unassignedOverlapping bookings s e) t := by
  rw [seats_append]
  exact Nat.le_add_right _ _

/-- A unit is free when its bookings leave room. -/
theorem mem_freeUnits {unitNum : Nat} :
    unitNum ∈ freeUnits a bookings s e guests ↔
      (1 ≤ unitNum ∧ unitNum ≤ a.unitCount) ∧
        if rentsWholeUnit a = true then inUnit unitNum bookings = []
        else (guests : Int) ≤ a.unitCapacity - maxConcurrentInWindow
          (inUnit unitNum bookings ++ unassignedOverlapping bookings s e) s e := by
  simp only [freeUnits, List.mem_filter, List.mem_range'_1]
  refine and_congr (by omega) ?_
  split <;> simp

/-- A usable unit is a free one. -/
theorem usableUnits_pos_free (h : 0 < usableUnits a bookings s e guests) :
    freeUnits a bookings s e guests ≠ [] := by
  intro hnil
  simp only [usableUnits, hnil, List.length_nil] at h
  split at h <;> omega

/-- A guarded step goes through exactly when its guard holds. -/
theorem exists_ensure {α : Type} {p : Prop} [Decidable p] {err : HttpError} {x : α} :
    (∃ y, (ensure p err >>= fun _ => (pure x : Tx α)) = .ok y) ↔ p := by
  constructor
  · rintro ⟨y, hy⟩
    obtain ⟨_, hp, _⟩ := bind_eq_ok.mp hy
    exact ensure_eq_ok.mp hp
  · intro hp
    exact ⟨x, bind_eq_ok.mpr ⟨(), ensure_eq_ok.mpr hp, rfl⟩⟩

/-- **With units the request is accepted when a unit is left to hand out, and the
party fits in a unit.** -/
theorem accepts_units (hunits : a.hasUnits = true) (hcount : 0 < a.unitCount) (hse : s < e) :
    Accepts a bookings s e guests ↔
      0 < usableUnits a bookings s e guests ∧ guests ≤ a.unitCapacity := by
  simp only [Accepts, assignUnit, resolveUnit, if_pos (show a.hasUnits = true ∧ a.unitCount > 0
    from ⟨hunits, hcount⟩)]
  by_cases husable : usableUnits a bookings s e guests > 0
  · rw [if_pos husable]
    cases hfree : freeUnits a bookings s e guests with
    | nil => exact absurd hfree (usableUnits_pos_free husable)
    | cons unitNum rest =>
        have hmem : unitNum ∈ freeUnits a bookings s e guests := by rw [hfree]; simp
        have hunit := (mem_freeUnits.mp hmem).2
        have hpeak : (guests : Int) ≤
            a.unitCapacity - maxConcurrentInWindow (inUnit unitNum bookings) s e ↔
              guests ≤ a.unitCapacity := by
          rw [le_sub_peak_iff hse]
          refine ⟨fun h => h.guests_le hse, fun hfit => ?_⟩
          by_cases hwhole : rentsWholeUnit a = true
          · rw [if_pos hwhole] at hunit
            intro t _ _
            simpa [hunit] using hfit
          · rw [if_neg hwhole, le_sub_peak_iff hse] at hunit
            exact hunit.mono fun t _ _ => finalBookings_le unitNum t
        rw [and_iff_right husable, ← hpeak]
        exact exists_ensure
  · rw [if_neg husable]
    simp [husable, throw, throwThe, MonadExceptOf.throw, bind, Except.bind]

/-- Without units it is accepted when the guests stay within the capacity. -/
theorem accepts_seats (hunits : ¬ (a.hasUnits = true ∧ 0 < a.unitCount)) :
    Accepts a bookings s e guests ↔
      ∀ limit ∈ (if a.hasUnits then some 0 else a.capacity),
        (guests : Int) ≤ limit - maxConcurrentInWindow bookings s e := by
  simp only [Accepts, assignUnit, resolveUnit]
  rw [if_neg hunits]
  cases hlimit : (if a.hasUnits then some 0 else a.capacity) with
  | none => simp [bind_eq_ok]
  | some limit =>
      simp only [Option.mem_some_iff, forall_eq']
      exact exists_ensure

/-- Without units the capacity alone counts. -/
theorem accepts_no_units (hunits : a.hasUnits = false) (hse : s < e) :
    Accepts a bookings s e guests ↔
      ∀ capacity ∈ a.capacity, Vacant bookings capacity s e guests := by
  rw [accepts_seats (by simp [hunits])]
  simp only [hunits, Bool.false_eq_true, if_false]
  exact forall₂_congr fun capacity _ => le_sub_peak_iff hse capacity

/-- A shared unit is usable when it has the seats, the unassigned guests counted in. -/
theorem usableUnits_shared (hwhole : ¬ rentsWholeUnit a = true) (hse : s < e) :
    0 < usableUnits a bookings s e guests ↔ ∃ unitNum, 1 ≤ unitNum ∧ unitNum ≤ a.unitCount ∧
      Vacant (inUnit unitNum bookings ++ unassignedOverlapping bookings s e)
        a.unitCapacity s e guests := by
  simp only [usableUnits, if_neg hwhole, Nat.cast_pos, List.length_pos_iff_exists_mem]
  refine exists_congr fun unitNum => ?_
  rw [mem_freeUnits, if_neg hwhole, le_sub_peak_iff hse, and_assoc]

/-- The units of a list of bookings nobody is booked in. -/
def emptyUnits (unitCount : Nat) (bookings : List Booking) : List Nat :=
  (List.range' 1 unitCount).filter (fun unitNum => (inUnit unitNum bookings).isEmpty)

/-- Whole units are usable when more of them are empty than bookings are unassigned. -/
theorem usableUnits_whole (hwhole : rentsWholeUnit a = true) :
    0 < usableUnits a bookings s e guests ↔
      (unassignedOverlapping bookings s e).length <
        (emptyUnits a.unitCount bookings).length := by
  simp only [usableUnits, freeUnits, if_pos hwhole, emptyUnits]
  omega

end Jadwal
