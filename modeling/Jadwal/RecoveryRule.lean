import Jadwal.DayView

/-!
# The recovery check beside the admission rule

`recoverySlotAvailable` decides whether a booking that was deleted or cancelled may
come back into its old unit and window, and says of itself that it mirrors
`createBooking`.  It looks at nothing but the bookings in the unit and those without
one: not at whether the unit still exists, not at the party's size in a unit let as a
whole, and for a booking without a unit not at the units at all.
`recovery_mirrors_iff` says exactly for which inputs its answer is that of
`createBooking`.
-/

namespace Jadwal

open Outcome

variable {db : Db} {now : Instant} {args : RecoveryArgs} {a : Activity}

/-- The active bookings a booking to be reinstated competes with, of every unit. -/
def rivals (db : Db) (now : Instant) (args : RecoveryArgs) : List Booking :=
  db.bookings.select (fun b => b.activityId = args.activityId ∧
    activeBookingFilter now b ∧ b.overlaps args.startDt args.endDt ∧
    args.excludeBookingId ≠ some b.id)

/-- The checks of `createBooking` accept a booking in the given unit: the unit is one of
those found free, there is one to hand out, and the party fits.  Without a unit in play the
checks are those of any request. -/
def AcceptsIn (a : Activity) (bookings : List Booking) (s e : Instant) (guests : Nat)
    (unitNumber : Option Nat) : Prop :=
  match (if a.hasUnits then unitNumber else none) with
  | some unitNum =>
      unitNum ∈ freeUnits a bookings s e guests ∧ 0 < usableUnits a bookings s e guests ∧
        (guests : Int) ≤ a.unitCapacity - maxConcurrentInWindow (inUnit unitNum bookings) s e
  | none => Accepts a bookings s e guests

instance (bookings : List Booking) (s e : Instant) (guests : Nat) :
    Decidable (Accepts a bookings s e guests) :=
  decidable_of_iff ((assignUnit a bookings s e guests).toOption.isSome = true) (by
    rw [Option.isSome_iff_exists]
    exact exists_congr fun _ => toOption_eq_some)

instance (bookings : List Booking) (s e : Instant) (guests : Nat) (unitNumber : Option Nat) :
    Decidable (AcceptsIn a bookings s e guests unitNumber) :=
  match h : (if a.hasUnits then unitNumber else none) with
  | some _ => decidable_of_iff (_ ∧ _ ∧ _) (by rw [AcceptsIn, h])
  | none => decidable_of_iff (Accepts a bookings s e guests) (by rw [AcceptsIn, h])

/-- The rivals the check counts for a booking in a unit. -/
theorem recoveryOverlapping_unit {unitNum : Nat} (hunit : args.unitNumber = some unitNum) :
    recoveryOverlapping db now args = (rivals db now args).filter
      (fun b => b.unitNumber = some unitNum ∨ b.unitNumber = none) := by
  simp only [recoveryOverlapping, rivals, Table.select, List.filter_filter, hunit]
  refine List.filter_congr fun b _ => ?_
  simp only [reduceCtorEq, false_or, ← Bool.decide_and]
  exact decide_eq_decide.mpr (by tauto)

theorem recoveryOverlapping_none (hunit : args.unitNumber = none) :
    recoveryOverlapping db now args = rivals db now args := by
  simp only [recoveryOverlapping, rivals, hunit, true_or, true_and]

theorem rivals_meet {b : Booking} (hb : b ∈ rivals db now args) :
    b.overlaps args.startDt args.endDt = true := by
  simp only [rivals, Table.mem_select, decide_eq_true_eq] at hb
  exact hb.2.2.2.1

/-- The guests it counts are those of the unit and the unassigned ones. -/
theorem seats_unit_or_none (bookings : List Booking) (unitNum : Nat) {s e t : Instant}
    (hmeets : ∀ b ∈ bookings, b.overlaps s e = true) :
    seats (bookings.filter (fun b => b.unitNumber = some unitNum ∨ b.unitNumber = none)) t =
      seats (inUnit unitNum bookings ++ unassignedOverlapping bookings s e) t := by
  rw [← withoutUnit_eq hmeets, seats_append]
  clear hmeets
  induction bookings with
  | nil => rfl
  | cons b bookings ih =>
      simp only [inUnit, withoutUnit, Bool.decide_or] at ih
      rcases hu : b.unitNumber with _ | m
      · simp [inUnit, withoutUnit, hu, ih]
        omega
      · by_cases hm : m = unitNum
        · simp [inUnit, withoutUnit, hu, hm, ih]
          omega
        · simp [inUnit, withoutUnit, hu, hm, ih]

/-- Some unit is left for the party: with whole units, more of them are empty than
bookings are unassigned; with shared ones, one has the seats at every instant when the
unassigned guests are counted in. -/
def UnitLeft (a : Activity) (bookings : List Booking) (s e : Instant) (guests : Nat) : Prop :=
  if rentsWholeUnit a then
    (withoutUnit bookings).length < (emptyUnits a.unitCount bookings).length ∧
      guests ≤ a.unitCapacity
  else ∃ unitNum, 1 ≤ unitNum ∧ unitNum ≤ a.unitCount ∧
    Vacant (inUnit unitNum bookings ++ withoutUnit bookings) a.unitCapacity s e guests

/-- What the recovery check finds competing leaves the party room, as it counts. -/
def FindsRoom (a : Activity) (args : RecoveryArgs) (competitors : List Booking) : Prop :=
  if rentsWholeUnit a ∧ args.unitNumber ≠ none then competitors = []
  else ∀ capacity ∈ (if a.hasUnits ∧ args.unitNumber ≠ none then some a.unitCapacity
      else a.capacity), Vacant competitors capacity args.startDt args.endDt args.guests

/-- The recovery check agrees with `createBooking`: either it finds no room itself, or
* the activity has units and the snapshot names one of them, in which the party fits when
  it is let as a whole;
* the activity has units, the snapshot names none, and one is left;
* the activity has no units and neither had the booking, or the bookings of all the old
  units leave room. -/
def Mirrors (db : Db) (now : Instant) (args : RecoveryArgs) (a : Activity) : Prop :=
  ¬ FindsRoom a args (recoveryOverlapping db now args) ∨
    if a.hasUnits then
      match args.unitNumber with
      | some unitNum => (1 ≤ unitNum ∧ unitNum ≤ a.unitCount) ∧
          (rentsWholeUnit a = true → args.guests ≤ a.unitCapacity)
      | none => UnitLeft a (rivals db now args) args.startDt args.endDt args.guests
    else args.unitNumber = none ∨ ∀ capacity ∈ a.capacity,
      Vacant (rivals db now args) capacity args.startDt args.endDt args.guests

/-- A capacity that is given leaves the party its room. -/
theorem recoveryRoom_iff (hse : args.startDt < args.endDt) (cap : Option Nat) :
    (match cap with
      | none => true
      | some cap => decide (maxConcurrentInWindow (recoveryOverlapping db now args) args.startDt
          args.endDt + args.guests ≤ cap)) = true ↔
      ∀ capacity ∈ cap, Vacant (recoveryOverlapping db now args) capacity args.startDt
        args.endDt args.guests := by
  cases cap with
  | none => simp
  | some cap =>
      simp only [Option.mem_some_iff, forall_eq', decide_eq_true_eq, ← le_sub_peak_iff hse]
      omega

theorem recoverySlotAvailable_iff (ha : db.activities.find? args.activityId = some a)
    (hse : args.startDt < args.endDt) :
    recoverySlotAvailable db now args = true ↔
      FindsRoom a args (recoveryOverlapping db now args) := by
  simp only [recoverySlotAvailable, ha, FindsRoom]
  by_cases hunit : args.unitNumber = none
  · simp only [hunit, ne_eq, not_true, and_false, if_false, decide_false, Bool.false_eq_true,
      false_and]
    exact recoveryRoom_iff hse _
  · by_cases hwhole : rentsWholeUnit a = true
    · simp [hunit, hwhole, hasUnits_of_rentsWholeUnit hwhole]
    · by_cases hhas : a.hasUnits = true
      · simp only [hhas, hwhole, hunit, ne_eq, not_false_eq_true, and_true, if_false, if_true,
          decide_true, and_false, Bool.false_eq_true]
        exact recoveryRoom_iff hse (some a.unitCapacity)
      · simp only [hhas, hwhole, hunit, ne_eq, not_false_eq_true, and_true, if_false,
          decide_false, and_false, Bool.false_eq_true]
        exact recoveryRoom_iff hse _

theorem accepts_iff_unitLeft {bookings : List Booking} {s e : Instant} {guests : Nat}
    (hhas : a.hasUnits = true) (hse : s < e) (hguests : 0 < guests)
    (hmeets : ∀ b ∈ bookings, b.overlaps s e = true) :
    Accepts a bookings s e guests ↔ UnitLeft a bookings s e guests := by
  by_cases hcount : 0 < a.unitCount
  · rw [accepts_units hhas hcount hse, UnitLeft]
    by_cases hwhole : rentsWholeUnit a = true
    · rw [usableUnits_whole hwhole, if_pos hwhole, withoutUnit_eq hmeets]
    · rw [usableUnits_shared hwhole hse, if_neg hwhole, withoutUnit_eq hmeets]
      refine and_iff_left_of_imp ?_
      rintro ⟨unitNum, _, _, hroom⟩
      exact hroom.guests_le hse
  · have hzero : a.unitCount = 0 := by omega
    have hpeak := maxConcurrentInWindow_nonneg bookings s e
    have hno : ¬ Accepts a bookings s e guests := by
      rw [accepts_seats (by simp [hzero])]
      simp only [hhas, if_true, Option.mem_some_iff, forall_eq']
      omega
    refine iff_of_false hno ?_
    unfold UnitLeft
    split
    · simp [emptyUnits, hzero]
    · rintro ⟨unitNum, hone, hlast, _⟩
      omega

/-- A free unit is left to hand out when no booking of whole units is unassigned. -/
theorem usableUnits_pos {bookings : List Booking} {s e : Instant} {guests unitNum : Nat}
    (hmem : unitNum ∈ freeUnits a bookings s e guests)
    (hassigned : rentsWholeUnit a = true → unassignedOverlapping bookings s e = []) :
    0 < usableUnits a bookings s e guests := by
  have hlen := List.length_pos_of_mem hmem
  by_cases hwhole : rentsWholeUnit a = true
  · simp only [usableUnits, if_pos hwhole, hassigned hwhole, List.length_nil]
    omega
  · simp only [usableUnits, if_neg hwhole]
    omega

/-- In a unit the check found room in, the booking is accepted when the unit exists and,
let as a whole, holds the party. -/
theorem acceptsIn_unit {unitNum : Nat} (hhas : a.hasUnits = true)
    (hse : args.startDt < args.endDt) (hunit : args.unitNumber = some unitNum)
    (hroom : FindsRoom a args (recoveryOverlapping db now args)) :
    AcceptsIn a (rivals db now args) args.startDt args.endDt args.guests args.unitNumber ↔
      (1 ≤ unitNum ∧ unitNum ≤ a.unitCount) ∧
        (rentsWholeUnit a = true → args.guests ≤ a.unitCapacity) := by
  have hmeets : ∀ b ∈ rivals db now args, b.overlaps args.startDt args.endDt = true :=
    fun b hb => rivals_meet hb
  simp only [AcceptsIn, hhas, if_true, hunit]
  rw [recoveryOverlapping_unit hunit] at hroom
  by_cases hwhole : rentsWholeUnit a = true
  · simp only [FindsRoom, hwhole, hunit, ne_eq, reduceCtorEq, not_false_eq_true, and_self,
      if_true, List.filter_eq_nil_iff, decide_eq_true_eq, not_or] at hroom
    have hempty : inUnit unitNum (rivals db now args) = [] := by
      refine List.filter_eq_nil_iff.mpr fun b hb => ?_
      simpa using (hroom b hb).1
    have hassigned : unassignedOverlapping (rivals db now args) args.startDt args.endDt = [] := by
      refine List.filter_eq_nil_iff.mpr fun b hb => ?_
      simp [(hroom b hb).2]
    have hpeak : (args.guests : Int) ≤ a.unitCapacity - maxConcurrentInWindow
        (inUnit unitNum (rivals db now args)) args.startDt args.endDt ↔
          args.guests ≤ a.unitCapacity := by
      rw [le_sub_peak_iff hse, hempty]
      exact ⟨fun h => h.guests_le hse, fun h t _ _ => by simpa using h⟩
    have hmem : unitNum ∈ freeUnits a (rivals db now args) args.startDt args.endDt args.guests ↔
        1 ≤ unitNum ∧ unitNum ≤ a.unitCount := by
      rw [mem_freeUnits, if_pos hwhole]
      exact and_iff_left hempty
    rw [hpeak]
    constructor
    · rintro ⟨hfree, _, hfit⟩
      exact ⟨hmem.mp hfree, fun _ => hfit⟩
    · rintro ⟨hrange, hfit⟩
      exact ⟨hmem.mpr hrange, usableUnits_pos (hmem.mpr hrange) fun _ => hassigned, hfit hwhole⟩
  · simp only [FindsRoom, hwhole, hhas, hunit, ne_eq, reduceCtorEq, not_false_eq_true, and_true,
      Bool.false_eq_true, if_false, if_true, Option.mem_some_iff, forall_eq'] at hroom
    have hvacant : Vacant (inUnit unitNum (rivals db now args) ++
        unassignedOverlapping (rivals db now args) args.startDt args.endDt)
          a.unitCapacity args.startDt args.endDt args.guests :=
      hroom.mono fun t _ _ => (seats_unit_or_none _ unitNum hmeets).ge
    have hfinal := (le_sub_peak_iff hse a.unitCapacity).mpr
      (hvacant.mono fun t _ _ => finalBookings_le unitNum t)
    have hmem : unitNum ∈ freeUnits a (rivals db now args) args.startDt args.endDt args.guests ↔
        1 ≤ unitNum ∧ unitNum ≤ a.unitCount := by
      rw [mem_freeUnits, if_neg hwhole, le_sub_peak_iff hse]
      exact and_iff_left hvacant
    constructor
    · rintro ⟨hfree, _⟩
      exact ⟨hmem.mp hfree, fun h => absurd h hwhole⟩
    · rintro ⟨hrange, _⟩
      exact ⟨hmem.mpr hrange, usableUnits_pos (hmem.mpr hrange) fun h => absurd h hwhole, hfinal⟩

/-- **The recovery check answers as `createBooking` would exactly when it mirrors it.** -/
theorem recovery_mirrors_iff (ha : db.activities.find? args.activityId = some a)
    (hse : args.startDt < args.endDt) (hguests : 0 < args.guests) :
    (recoverySlotAvailable db now args = true →
        AcceptsIn a (rivals db now args) args.startDt args.endDt args.guests
          args.unitNumber) ↔
      Mirrors db now args a := by
  rw [recoverySlotAvailable_iff ha hse, Mirrors, ← imp_iff_not_or]
  refine imp_congr_right fun hroom => ?_
  by_cases hhas : a.hasUnits = true
  · rw [if_pos hhas]
    cases hunit : args.unitNumber with
    | some unitNum =>
        have h := acceptsIn_unit hhas hse hunit hroom
        rwa [hunit] at h
    | none =>
        simp only [AcceptsIn, ite_self]
        exact accepts_iff_unitLeft hhas hse hguests fun b hb => rivals_meet hb
  · have hno : a.hasUnits = false := by simpa using hhas
    have hwhole : ¬ rentsWholeUnit a = true := fun h => hhas (hasUnits_of_rentsWholeUnit h)
    rw [if_neg hhas]
    simp only [AcceptsIn, hno, Bool.false_eq_true, if_false]
    rw [accepts_no_units hno hse]
    cases hunit : args.unitNumber with
    | some unitNum => simp
    | none =>
        simp only [FindsRoom, hwhole, hno, hunit, ne_eq, not_true, and_false, Bool.false_eq_true,
          if_false, recoveryOverlapping_none hunit] at hroom
        simpa using hroom

/-- A booking of the hall's unit, one hour of the second of January. -/
def hallRecovery (unitNumber : Option Nat) : RecoveryArgs where
  activityId := 7
  unitNumber := unitNumber
  startDt := buildDatetime ⟨1970, 1, 2⟩ 600
  endDt := buildDatetime ⟨1970, 1, 2⟩ 660
  guests := 1

/-- The hall after a unit was taken away, with no bookings. -/
def smallHallDb : Db :=
  { market.db with activities := ⟨[{ hall with unitCount := 1 }], by decide⟩ }

/-- A booking of the unit that is gone comes back. -/
theorem smallHall_lost_unit :
    recoverySlotAvailable smallHallDb 0 (hallRecovery (some 2)) = true ∧
      ¬ AcceptsIn { hall with unitCount := 1 } (rivals smallHallDb 0 (hallRecovery (some 2)))
        (buildDatetime ⟨1970, 1, 2⟩ 600) (buildDatetime ⟨1970, 1, 2⟩ 660) 1 (some 2) := by
  constructor <;> decide +kernel

theorem hall_recovery_mirrors :
    (recoverySlotAvailable hallDb 0 (hallRecovery (some 2)) = true →
        AcceptsIn hall (rivals hallDb 0 (hallRecovery (some 2)))
          (buildDatetime ⟨1970, 1, 2⟩ 600) (buildDatetime ⟨1970, 1, 2⟩ 660) 1 (some 2)) ↔
      Mirrors hallDb 0 (hallRecovery (some 2)) hall :=
  recovery_mirrors_iff (show hallDb.activities.find? 7 = some hall from rfl)
    (show buildDatetime ⟨1970, 1, 2⟩ 600 < buildDatetime ⟨1970, 1, 2⟩ 660 by decide)
    (show 0 < 1 by decide)

end Jadwal
