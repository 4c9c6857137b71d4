import Jadwal.Schema
import Jadwal.Lib.Sweep

/-!
# Availability

Which bookings hold inventory, how many guests they put on an instant, and
the two places that decide whether one more fits: the unit assignment and
capacity check of `createBooking`'s transaction (`assignUnit`), and the check of
the payment recovery paths (`recoverySlotAvailable`).

The sweep is `Sweep.peak` over the bookings clipped to the window; the
lemmas say that it bounds the guests present at every instant of the
window (`seats_le_maxConcurrentInWindow`).
-/

namespace Jadwal

open Outcome

/-- A booking holds a seat unless it is `CANCELLED` or a `PENDING`
reservation whose window has expired.  A `PENDING` row without
`reservedUntil` makes the SQL condition null, so it is not selected. -/
def activeBookingFilter (now : Instant) (b : Booking) : Bool :=
  match b.status with
  | .cancelled => false
  | .pending =>
      match b.reservedUntil with
      | some reservedUntil => now ≤ reservedUntil
      | none => false
  | .confirmed | .completed => true

/-- The booking's interval meets `[windowStart, windowEnd)`. -/
def Booking.overlaps (b : Booking) (windowStart windowEnd : Instant) : Bool :=
  b.startDatetime < windowEnd ∧ b.endDatetime > windowStart

/-- The booking's interval, weighted by its guests. -/
def Booking.interval (b : Booking) : Sweep.Interval Instant :=
  ⟨b.startDatetime, b.endDatetime, b.guests⟩

/-- The part of the booking inside the window, when there is one. -/
def clip (windowStart windowEnd : Instant) (b : Booking) :
    Option (Sweep.Interval Instant) :=
  let s := if b.startDatetime > windowStart then b.startDatetime else windowStart
  let e := if b.endDatetime < windowEnd then b.endDatetime else windowEnd
  if s ≥ e then none else some ⟨s, e, b.guests⟩

/-- The peak number of guests concurrently booked inside the window. -/
def maxConcurrentInWindow (bookings : List Booking)
    (windowStart windowEnd : Instant) : Int :=
  Sweep.peak (bookings.filterMap (clip windowStart windowEnd))

/-- Bookings that overlap the window and carry no unit number. -/
def unassignedOverlapping (bookings : List Booking)
    (windowStart windowEnd : Instant) : List Booking :=
  bookings.filter (fun b => b.unitNumber = none ∧ b.overlaps windowStart windowEnd)

/-- One booking reserves an entire unit. -/
def rentsWholeUnit (a : Activity) : Bool :=
  a.hasUnits ∧ (a.bookingType = .daily ∨ a.pricingModel = .perUnit)

/-! ## Admission in `createBooking` -/

/-- The active bookings of the activity that overlap the request, up to
the row cap. -/
def windowBookings (env : Env) (db : Db) (txNow : Instant) (activityId : Id)
    (startDatetime endDatetime : Instant) : List Booking :=
  (db.bookings.select (fun b => b.activityId = activityId ∧
    activeBookingFilter txNow b ∧ b.overlaps startDatetime endDatetime)).take
      env.availabilityMaxDayBookings

/-- The bookings of a list that are in unit `unitNum`. -/
def inUnit (unitNum : Nat) (bookings : List Booking) : List Booking :=
  bookings.filter (fun b => b.unitNumber = some unitNum)

/-- The units the scan finds free: for a whole-unit rental those nothing
overlaps, else those with enough seats left when every unassigned guest is
charged to them. -/
def freeUnits (activity : Activity) (bookings : List Booking)
    (startDatetime endDatetime : Instant) (guests : Nat) : List Nat :=
  (List.range' 1 activity.unitCount).filter (fun unitNum =>
    if rentsWholeUnit activity then (inUnit unitNum bookings).isEmpty
    else
      (guests : Int) ≤ activity.unitCapacity - maxConcurrentInWindow
        (inUnit unitNum bookings ++
          unassignedOverlapping bookings startDatetime endDatetime)
        startDatetime endDatetime)

/-- The number of units left to hand out: a whole-unit rental retires one
for each unassigned booking. -/
def usableUnits (activity : Activity) (bookings : List Booking)
    (startDatetime endDatetime : Instant) (guests : Nat) : Int :=
  let free := (freeUnits activity bookings startDatetime endDatetime guests).length
  if rentsWholeUnit activity then
    free - (unassignedOverlapping bookings startDatetime endDatetime).length
  else free

/-- The unit the scan hands out and the capacity it leaves to check
(`none` is unlimited). -/
def resolveUnit (activity : Activity) (bookings : List Booking)
    (startDatetime endDatetime : Instant) (guests : Nat) :
    Tx (Option Nat × Option Nat) :=
  if activity.hasUnits ∧ activity.unitCount > 0 then
    if usableUnits activity bookings startDatetime endDatetime guests > 0 then
      match freeUnits activity bookings startDatetime endDatetime guests with
      | unitNum :: _ => .ok (some unitNum, some activity.unitCapacity)
      | [] => throw (.business "BOOKING.CAPACITY_FULL"
          "All units are fully booked for this time")
    else throw (.business "BOOKING.CAPACITY_FULL"
      "All units are fully booked for this time")
  else .ok (none, if activity.hasUnits then some 0 else activity.capacity)

/-- The bookings the final check counts: those of the assigned unit, or
all of the window. -/
def finalBookings (resolvedUnitNumber : Option Nat) (bookings : List Booking) :
    List Booking :=
  match resolvedUnitNumber with
  | some unitNum => inUnit unitNum bookings
  | none => bookings

def capacityMessage (available : Int) : String :=
  if available ≤ 0 then "This slot is fully booked"
  else "Only " ++ toString available ++
    (if available = 1 then " seat" else " seats") ++ " available"

/-- Unit assignment and final capacity check of `createBooking`'s
transaction: the unit the booking gets, or a conflict. -/
def assignUnit (activity : Activity) (bookings : List Booking)
    (startDatetime endDatetime : Instant) (guests : Nat) : Tx (Option Nat) := do
  let (resolvedUnitNumber, capacityLimit) ←
    resolveUnit activity bookings startDatetime endDatetime guests
  let peakConcurrent := maxConcurrentInWindow
    (finalBookings resolvedUnitNumber bookings) startDatetime endDatetime
  match capacityLimit with
  | none => return resolvedUnitNumber
  | some limit =>
      let available := (limit : Int) - peakConcurrent
      ensure ((guests : Int) ≤ available) (.conflict (capacityMessage available))
      return resolvedUnitNumber

/-! ## The recovery check -/

structure RecoveryArgs where
  activityId : Id
  unitNumber : Option Nat
  startDt : Instant
  endDt : Instant
  guests : Nat
  excludeBookingId : Option Id := none

/-- The active bookings that compete with a booking to be reinstated; when
a unit is named, those of the unit and those without one. -/
def recoveryOverlapping (db : Db) (now : Instant) (args : RecoveryArgs) :
    List Booking :=
  db.bookings.select (fun b => b.activityId = args.activityId ∧
    (args.unitNumber = none ∨ b.unitNumber = args.unitNumber ∨
      b.unitNumber = none) ∧
    activeBookingFilter now b ∧ b.overlaps args.startDt args.endDt ∧
    args.excludeBookingId ≠ some b.id)

def recoverySlotAvailable (db : Db) (now : Instant) (args : RecoveryArgs) : Bool :=
  match db.activities.find? args.activityId with
  | none => false
  | some act =>
      let overlapping := recoveryOverlapping db now args
      let isUnit : Bool := act.hasUnits ∧ args.unitNumber ≠ none
      if isUnit ∧ rentsWholeUnit act then overlapping.isEmpty
      else
        let peak := maxConcurrentInWindow overlapping args.startDt args.endDt
        match (if isUnit then some act.unitCapacity else act.capacity) with
        | none => true
        | some cap => peak + args.guests ≤ cap

/-! ## Guests present at an instant -/

/-- The booking's interval contains the instant. -/
def Booking.covers (b : Booking) (t : Instant) : Bool :=
  b.startDatetime ≤ t ∧ t < b.endDatetime

/-- The guests of a list of bookings present at an instant. -/
def seats (bookings : List Booking) (t : Instant) : Nat :=
  (bookings.map (fun b => if b.covers t then b.guests else 0)).sum

theorem covers_overlaps {b : Booking} {t windowStart windowEnd : Instant}
    (h : b.covers t) (hs : windowStart ≤ t) (he : t < windowEnd) :
    b.overlaps windowStart windowEnd := by
  simp only [Booking.covers, Booking.overlaps, decide_eq_true_eq] at h ⊢
  exact ⟨h.1.trans_lt he, hs.trans_lt h.2⟩

theorem clip_eq (windowStart windowEnd : Instant) (b : Booking) :
    clip windowStart windowEnd b =
      if max b.startDatetime windowStart < min b.endDatetime windowEnd then
        some ⟨max b.startDatetime windowStart, min b.endDatetime windowEnd, b.guests⟩
      else none := by
  have hs : (if b.startDatetime > windowStart then b.startDatetime else windowStart) =
      max b.startDatetime windowStart := by
    split <;> lia
  have he : (if b.endDatetime < windowEnd then b.endDatetime else windowEnd) =
      min b.endDatetime windowEnd := by
    split <;> lia
  simp only [clip, hs, he]
  by_cases h : max b.startDatetime windowStart < min b.endDatetime windowEnd
  · rw [if_neg (not_le.mpr h), if_pos h]
  · rw [if_pos (not_lt.mp h), if_neg h]

theorem clip_proper {windowStart windowEnd : Instant} {b : Booking}
    {i : Sweep.Interval Instant} (h : clip windowStart windowEnd b = some i) :
    i.start < i.stop := by
  rw [clip_eq, Option.ite_none_right_eq_some] at h
  obtain ⟨hlt, hi⟩ := h
  exact Option.some.inj hi ▸ hlt

/-- Inside the window the clipped part has the booking's guests. -/
theorem clip_share {windowStart windowEnd t : Instant} (b : Booking)
    (hs : windowStart ≤ t) (he : t < windowEnd) :
    ((clip windowStart windowEnd b).elim 0 (fun i => i.share t)) =
      if b.covers t then b.guests else 0 := by
  rw [clip_eq]
  by_cases hc : b.startDatetime ≤ t ∧ t < b.endDatetime
  · have hlt : max b.startDatetime windowStart < min b.endDatetime windowEnd := by lia
    have hcov : max b.startDatetime windowStart ≤ t ∧
        t < min b.endDatetime windowEnd := by lia
    simp [hlt, Sweep.Interval.share, Sweep.Interval.covers, hcov, Booking.covers, hc]
  · have hcov : ¬ (max b.startDatetime windowStart ≤ t ∧
        t < min b.endDatetime windowEnd) := by lia
    split
    · simp only [Option.elim_some, Sweep.Interval.share, Sweep.Interval.covers,
        Booking.covers, decide_eq_true_eq, if_neg hc]
      exact if_neg hcov
    · simp only [Option.elim_none, Booking.covers, decide_eq_true_eq, if_neg hc]

theorem load_clip {windowStart windowEnd t : Instant} (bookings : List Booking)
    (hs : windowStart ≤ t) (he : t < windowEnd) :
    Sweep.load (bookings.filterMap (clip windowStart windowEnd)) t =
      seats bookings t := by
  induction bookings with
  | nil => rfl
  | cons b bookings ih =>
      have hb := clip_share b hs he
      cases hc : clip windowStart windowEnd b with
      | none =>
          rw [hc] at hb
          simp only [Option.elim_none] at hb
          simp [hc, ih, seats, ← hb]
      | some i =>
          rw [hc] at hb
          simp only [Option.elim_some] at hb
          simp [hc, ih, seats, ← hb]

/-- **The sweep bounds the guests at every instant of the window.** -/
theorem seats_le_maxConcurrentInWindow {windowStart windowEnd t : Instant}
    (bookings : List Booking) (hs : windowStart ≤ t) (he : t < windowEnd) :
    (seats bookings t : Int) ≤
      maxConcurrentInWindow bookings windowStart windowEnd := by
  rw [← load_clip bookings hs he]
  refine Sweep.load_le_peak _ ?_ t
  intro i hi
  obtain ⟨b, _, hb⟩ := List.mem_filterMap.mp hi
  exact clip_proper hb

theorem maxConcurrentInWindow_nonneg (bookings : List Booking)
    (windowStart windowEnd : Instant) :
    0 ≤ maxConcurrentInWindow bookings windowStart windowEnd :=
  Sweep.peak_nonneg _

/-- Outside the window the clipped bookings leave nothing. -/
theorem load_clip_outside {windowStart windowEnd t : Instant} (bookings : List Booking)
    (h : ¬ (windowStart ≤ t ∧ t < windowEnd)) :
    Sweep.load (bookings.filterMap (clip windowStart windowEnd)) t = 0 := by
  induction bookings with
  | nil => rfl
  | cons b bookings ih =>
      cases hc : clip windowStart windowEnd b with
      | none => simpa [hc] using ih
      | some i =>
          rw [clip_eq, Option.ite_none_right_eq_some] at hc
          obtain ⟨hlt, hi⟩ := hc
          obtain rfl := Option.some.inj hi
          have hout : ¬ (max b.startDatetime windowStart ≤ t ∧
              t < min b.endDatetime windowEnd) := by lia
          rw [List.filterMap_cons_some (by rw [clip_eq, if_pos hlt]), Sweep.load_cons, ih,
            Sweep.Interval.share]
          exact congrArg (· + 0) (if_neg hout)

/-- **The peak is the greatest number of guests at an instant of the window.** -/
theorem maxConcurrentInWindow_le_iff {n : Int} (hn : 0 ≤ n) (bookings : List Booking)
    (windowStart windowEnd : Instant) :
    maxConcurrentInWindow bookings windowStart windowEnd ≤ n ↔
      ∀ t, windowStart ≤ t → t < windowEnd → (seats bookings t : Int) ≤ n := by
  have hproper : ∀ i ∈ bookings.filterMap (clip windowStart windowEnd), i.start < i.stop := by
    intro i hi
    obtain ⟨b, _, hb⟩ := List.mem_filterMap.mp hi
    exact clip_proper hb
  rw [maxConcurrentInWindow, Sweep.peak_le_iff hn _ hproper]
  constructor
  · intro h t hs he
    rw [← load_clip bookings hs he]
    exact h t
  · intro h t
    by_cases hin : windowStart ≤ t ∧ t < windowEnd
    · rw [load_clip bookings hin.1 hin.2]
      exact h t hin.1 hin.2
    · rw [load_clip_outside bookings hin]
      exact hn

end Jadwal
