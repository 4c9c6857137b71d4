import Jadwal.RowCap
import Jadwal.IsoDate

/-!
# The month calendar

`getCalendarAvailability`: for each day of a month what is booked, and whether the day
is full.  For an HOURLY activity a day is full when every slot of it is, judged from the
peak of all units together; the day view judges each unit by itself, with the guests who
have no unit counted in.  Without units the two agree; with units they may not, and
`calendar_agrees_iff` says when they do.
-/

namespace Jadwal

open Outcome

structure CalendarDay where
  date : CivilDate
  dayOfWeek : String
  price : Cents
  isSpecialPrice : Bool
  isActiveDay : Bool
  isPast : Bool
  capacity : Option Nat
  booked : Int
  available : Option Int
  isFullyBooked : Bool
  isBlocked : Bool
  isFullyBlocked : Bool
  deriving DecidableEq, Repr

/-- The unit numbers bookings of a list are in, each once. -/
def occupiedUnits (bookings : List Booking) : List Nat :=
  (bookings.filterMap Booking.unitNumber).dedup

/-- What is booked on a day, out of what, and what is left. -/
structure DayCount where
  booked : Int
  capacity : Option Nat
  available : Option Int
  deriving DecidableEq, Repr

/-- The seats left when the guests of a day are counted unit by unit, those without a unit
in each of them. -/
def freeSeats (activity : Activity) (today : List Booking) (dayCheckIn dayCheckOut : Instant) :
    Int :=
  let orphans := unassignedOverlapping today dayCheckIn dayCheckOut
  ((List.range' 1 activity.unitCount).map (fun unitNum =>
    let combined := inUnit unitNum today ++ orphans
    let used : Int := match activity.bookingType with
      | .hourly => maxConcurrentInWindow combined dayCheckIn dayCheckOut
      | .daily => sumGuests combined
    max 0 ((activity.unitCapacity : Int) - used))).sum

/-- The count of a day from the bookings that meet it: in units when they are let as a
whole, else in guests. -/
def dayCount (activity : Activity) (unitNumber : Option Nat) (today : List Booking)
    (dayCheckIn dayCheckOut : Instant) : DayCount :=
  if rentsWholeUnit activity then
    match unitNumber with
    | some _ => ⟨if today.isEmpty then 0 else 1, some 1, some (if today.isEmpty then 1 else 0)⟩
    | none =>
        let booked := min activity.unitCount
          ((occupiedUnits today).length + (withoutUnit today).length)
        ⟨booked, some activity.unitCount, some (activity.unitCount - booked : Nat)⟩
  else
    let booked : Int := match activity.bookingType with
      | .hourly => maxConcurrentInWindow today dayCheckIn dayCheckOut
      | .daily => sumGuests today
    match unitNumber with
    | some _ => ⟨booked, some activity.unitCapacity,
        some (max 0 ((activity.unitCapacity : Int) - booked))⟩
    | none =>
        if activity.hasUnits then
          let capacity := activity.unitCount * activity.unitCapacity
          if (unassignedOverlapping today dayCheckIn dayCheckOut).isEmpty then
            ⟨booked, some capacity, some (max 0 ((capacity : Int) - booked))⟩
          else
            let free := freeSeats activity today dayCheckIn dayCheckOut
            ⟨capacity - free, some capacity, some free⟩
        else ⟨booked, activity.capacity,
          activity.capacity.map (fun cap : Nat => max 0 ((cap : Int) - booked))⟩

/-- A slot is full: of whole units as many are named or held without a name as there are,
else the peak of all guests reaches the capacity. -/
def slotFull (activity : Activity) (unitNumber : Option Nat) (capacity : Option Nat)
    (today : List Booking) (sStart sEnd : Instant) : Bool :=
  if rentsWholeUnit activity then
    let inSlot := today.filter (fun b => b.overlaps sStart sEnd)
    (if unitNumber.isSome then 1 else activity.unitCount) ≤
      (occupiedUnits inSlot).length + (withoutUnit inSlot).length
  else
    match capacity with
    | some cap => cap ≤ maxConcurrentInWindow today sStart sEnd
    | none => false

/-- The slots of an HOURLY activity that is configured in full. -/
def hourlySlots (env : Env) (activity : Activity) : Option (List Nat) :=
  match activity.bookingType, activity.checkInTime, activity.checkOutTime,
      activity.durationValue with
  | .hourly, some checkInTime, some checkOutTime, some durationValue =>
      if durationValue = 0 then none
      else some (computeSlots env checkInTime checkOutTime durationValue)
  | _, _, _, _ => none

/-- Whether a day is full: an HOURLY one when each of its slots is. -/
def isFullyBooked (env : Env) (activity : Activity) (unitNumber : Option Nat)
    (date : CivilDate) (count : DayCount) (today : List Booking) : Bool :=
  match hourlySlots env activity with
  | some slots => slots ≠ [] ∧ slots.all (fun slotStart =>
      slotFull activity unitNumber count.capacity today (buildDatetime date slotStart)
        (buildDatetime date (slotStart + activity.durationValue.getD 0 * 60)))
  | none => count.capacity ≠ none ∧ count.available = some 0

/-- One day of the calendar. -/
def calendarDay (env : Env) (now : Instant) (db : Db) (activity : Activity) (tz : String)
    (unitNumber : Option Nat) (bookings : List Booking) (monthBlocks : List ActivityBlock)
    (date : CivilDate) : CalendarDay :=
  let today := todayInTimezone env tz now
  let lastSlotTime := (hourlySlots env activity).bind List.getLast?
  let nextDay := CivilDate.ofDays (date.toDays + 1)
  let dayCheckIn := buildDatetime date ((activity.checkInTime.map Fin.val).getD (14 * 60))
  let dayCheckOut := buildDatetime nextDay ((activity.checkOutTime.map Fin.val).getD (11 * 60))
  let dayBookings := bookings.filter (fun b => b.overlaps dayCheckIn dayCheckOut)
  let count := dayCount activity unitNumber dayBookings dayCheckIn dayCheckOut
  let dayDate := date.midnight
  let dayEndUtc := dayDate + day
  let fullyBlocked := monthBlocks.any (fun b => b.blockStart ≤ dayDate ∧ b.blockEnd ≥ dayEndUtc)
  let special := specialPriceOn db activity.id dayDate
  { date := date
    dayOfWeek := date.weekday
    price := special.getD activity.pricePerPerson
    isSpecialPrice := special.isSome
    isActiveDay := dayAllowed activity date
    isPast := date.key < today.key ∨ (date = today ∧
      ∃ last ∈ lastSlotTime, last ≤ minutesInTimezone env tz now)
    capacity := count.capacity
    booked := count.booked
    available := if fullyBlocked then some 0 else count.available
    isFullyBooked := fullyBlocked ∨
      isFullyBooked env activity unitNumber date count dayBookings
    isBlocked := monthBlocks.any (fun b => b.blockStart < dayEndUtc ∧ b.blockEnd > dayDate)
    isFullyBlocked := fullyBlocked }

/-- The active bookings that touch a month, of the unit asked for and without a unit. -/
def touching (db : Db) (now : Instant) (activityId : Id) (unitNumber : Option Nat)
    (monthStart monthEnd : Instant) : List Booking :=
  db.bookings.select (fun b => b.activityId = activityId ∧ activeBookingFilter now b ∧
    b.startDatetime ≤ monthEnd ∧ b.endDatetime ≥ monthStart ∧
    (unitNumber = none ∨ b.unitNumber = unitNumber ∨ b.unitNumber = none))

/-- Those of them the query returns. -/
def monthBookings (env : Env) (db : Db) (now : Instant) (activityId : Id)
    (unitNumber : Option Nat) (monthStart monthEnd : Instant) : List Booking :=
  (touching db now activityId unitNumber monthStart monthEnd).take
    env.availabilityMaxMonthBookings

/-- The last second of a month. -/
def lastSecond (year mon : Int) : Instant :=
  (CivilDate.mk year mon (CivilDate.lastDayOfMonth year mon)).midnight + (day - second)

/-- The days of a month. -/
def getCalendarAvailability (env : Env) (now : Instant) (db : Db) (activityId : Id)
    (year mon : Int) (unitNumber : Option Nat) : Tx (List CalendarDay) := do
  let activity ← orThrow ((db.activities.find? activityId).filter (·.status = .active))
    (.business "ACTIVITY.NOT_FOUND" "Activity not found")
  ensure (1 ≤ mon ∧ mon ≤ 12 ∧ 2000 ≤ year ∧ year ≤ 2100) (.badRequest "Invalid month format")
  let daysInMonth := CivilDate.lastDayOfMonth year mon
  let monthStart := (CivilDate.mk year mon 1).midnight
  let monthEnd := lastSecond year mon
  let unitNumber := unitNumber.filter (fun n => n ≠ 0)
  let bookings := monthBookings env db now activityId unitNumber monthStart monthEnd
  let monthBlocks := getBlocksInWindow db activityId monthStart monthEnd
  let tz := ((db.countries.find? activity.countryId).map Country.defaultTimezone).getD "UTC"
  return (List.range daysInMonth.toNat).map (fun (d : Nat) =>
    calendarDay env now db activity tz unitNumber bookings monthBlocks ⟨year, mon, d + 1⟩)

/-! ## Windows of a day -/

variable {env : Env} {a : Activity} {db : Db} {now : Instant} {activityId : Id} {s e : Instant}

theorem toDays_day (year mon d : Int) :
    (CivilDate.mk year mon d).toDays = (CivilDate.mk year mon 1).toDays + (d - 1) := by
  simp only [CivilDate.toDays]
  omega

/-- The rows of a month that meet a window inside it are those that meet the window. -/
theorem touching_filter {monthStart monthEnd : Instant} (hs : monthStart ≤ s)
    (he : e ≤ monthEnd) :
    (touching db now activityId none monthStart monthEnd).filter (fun b => b.overlaps s e) =
      competing db now activityId s e := by
  simp only [touching, competing, Table.select, List.filter_filter]
  refine List.filter_congr fun b _ => ?_
  by_cases hover : b.overlaps s e = true
  · simp only [Booking.overlaps, decide_eq_true_eq] at hover
    have hstart : b.startDatetime ≤ monthEnd := (hover.1.trans_le he).le
    have hend : b.endDatetime ≥ monthStart := (hs.trans_lt hover.2).le
    simp [Booking.overlaps, hover, hstart, hend]
  · simp [hover]

theorem overlaps_filter (bookings : List Booking) {windowStart windowEnd : Instant}
    (hs : windowStart ≤ s) (he : e ≤ windowEnd) :
    (bookings.filter (fun b => b.overlaps windowStart windowEnd)).filter
        (fun b => b.overlaps s e) =
      bookings.filter (fun b => b.overlaps s e) := by
  rw [List.filter_filter]
  refine List.filter_congr fun b _ => ?_
  by_cases hover : b.overlaps s e = true
  · have hday : b.overlaps windowStart windowEnd = true := by
      simp only [Booking.overlaps, decide_eq_true_eq] at hover ⊢
      exact ⟨hover.1.trans_le he, hs.trans_lt hover.2⟩
    simp [hover, hday]
  · simp [hover]

/-! ## Full slots -/

/-- Nothing is available. -/
def Room.Full : Room → Prop
  | .units us => ∀ u ∈ us, u.available = 0
  | .unit u => u.available = 0
  | .seats _ _ left => left = some 0

instance : (r : Room) → Decidable r.Full
  | .units us => inferInstanceAs (Decidable (∀ u ∈ us, u.available = 0))
  | .unit u => inferInstanceAs (Decidable (u.available = 0))
  | .seats _ _ left => inferInstanceAs (Decidable (left = some 0))

theorem retireUnits_nonneg {unitCapacity : Nat} {free : UnitSlot → Bool} (toRetire : Nat)
    (units : List UnitSlot) (h : ∀ u ∈ units, 0 ≤ u.available) :
    ∀ u ∈ retireUnits unitCapacity free toRetire units, 0 ≤ u.available := by
  induction units generalizing toRetire with
  | nil => cases toRetire <;> simp [retireUnits]
  | cons u units ih =>
      have hrest := fun n => ih n fun v hv => h v (by simp [hv])
      cases toRetire with
      | zero => simpa only [retireUnits_zero] using h
      | succ toRetire =>
          rw [retireUnits]
          split
          · exact List.forall_mem_cons.mpr ⟨le_rfl, hrest toRetire⟩
          · exact List.forall_mem_cons.mpr ⟨h u (by simp), hrest (toRetire + 1)⟩

theorem hourlyUnit_nonneg (today : List Booking) (unitNum : Nat) :
    0 ≤ (hourlyUnit a today s e unitNum).available := by
  simp only [hourlyUnit]
  split
  · split <;> omega
  · exact le_max_left _ _

/-- A slot has no room when it has none for a single guest. -/
theorem hourlyRoom_full (today : List Booking) :
    (hourlyRoom a today s e).Full ↔ ¬ (hourlyRoom a today s e).Offers 1 := by
  unfold hourlyRoom
  split
  case isTrue =>
    have hnonneg : ∀ u ∈ (List.range' 1 a.unitCount).map (hourlyUnit a today s e),
        0 ≤ u.available := by
      intro u hu
      obtain ⟨unitNum, _, rfl⟩ := List.mem_map.mp hu
      exact hourlyUnit_nonneg today unitNum
    simp only [Room.Full, Room.Offers, not_exists, not_and]
    refine forall₂_congr fun u hu => ?_
    have hu : 0 ≤ u.available := by
      split at hu
      · exact retireUnits_nonneg _ _ hnonneg u hu
      · exact hnonneg u hu
    omega
  case isFalse =>
    simp only [Room.Full, Room.Offers]
    cases a.capacity with
    | none => simp
    | some capacity => simp; omega

/-- At some instant of the window the guests reach the capacity. -/
def Reaches (bookings : List Booking) (capacity : Nat) (window : Instant × Instant) : Prop :=
  ∃ t, window.1 ≤ t ∧ t < window.2 ∧ capacity ≤ seats bookings t

theorem reaches_iff (bookings : List Booking) (capacity : Nat) (window : Instant × Instant) :
    Reaches bookings capacity window ↔ ¬ Vacant bookings capacity window.1 window.2 1 := by
  simp only [Reaches, Vacant, not_forall, not_le, Nat.lt_succ_iff, exists_prop]

/-- The peak reaches a capacity when some instant does. -/
theorem le_peak_iff (bookings : List Booking) (capacity : Nat) {window : Instant × Instant}
    (hse : window.1 < window.2) :
    (capacity : Int) ≤ maxConcurrentInWindow bookings window.1 window.2 ↔
      Reaches (bookings.filter (fun b => b.overlaps window.1 window.2)) capacity window := by
  rw [reaches_iff, vacant_overlaps, ← le_sub_peak_iff hse]
  omega

/-- Every named unit is one that exists or not, so the units that exist are named or empty. -/
theorem unitCount_le (unitCount : Nat) (bookings : List Booking) :
    unitCount ≤ (occupiedUnits bookings).length + (emptyUnits unitCount bookings).length := by
  have hsub : List.range' 1 unitCount ⊆
      occupiedUnits bookings ++ emptyUnits unitCount bookings := by
    intro unitNum hmem
    by_cases hempty : inUnit unitNum bookings = []
    · exact List.mem_append_right _ (List.mem_filter.mpr ⟨hmem, by simp [hempty]⟩)
    · obtain ⟨b, hb⟩ := List.exists_mem_of_ne_nil _ hempty
      obtain ⟨hb, hunit⟩ := List.mem_filter.mp hb
      refine List.mem_append_left _ (List.mem_dedup.mpr (List.mem_filterMap.mpr ⟨b, hb, ?_⟩))
      exact of_decide_eq_true hunit
  have hle := (List.subperm_of_subset (List.nodup_range' 1) hsub).length_le
  simpa using hle

/-- When the calendar and the day view agree on a day with the given slots and bookings:
there is a slot, and
* whole units: in every slot no more existing units are empty than bookings are unassigned,
  or in some slot the units named, existing or not, and the unassigned bookings are fewer
  than the units;
* shared units: in every slot there is an instant with as many guests as all units hold and,
  for each unit, an instant at which its guests and the unassigned ones fill it; or some slot
  lacks the one and some slot the other. -/
def CalendarAgrees (a : Activity) (windows : List (Instant × Instant))
    (booked : Instant × Instant → List Booking) : Prop :=
  windows ≠ [] ∧
  (rentsWholeUnit a = true →
    (∀ w ∈ windows, (emptyUnits a.unitCount (booked w)).length ≤
      (withoutUnit (booked w)).length) ∨
    ∃ w ∈ windows, (occupiedUnits (booked w)).length + (withoutUnit (booked w)).length <
      a.unitCount) ∧
  (a.hasUnits = true → ¬ rentsWholeUnit a = true →
    ((∀ w ∈ windows, Reaches (booked w) (a.unitCount * a.unitCapacity) w) ∧
      ∀ w ∈ windows, ∀ unitNum, 1 ≤ unitNum → unitNum ≤ a.unitCount →
        Reaches (inUnit unitNum (booked w) ++ withoutUnit (booked w)) a.unitCapacity w) ∨
    ((∃ w ∈ windows, ¬ Reaches (booked w) (a.unitCount * a.unitCapacity) w) ∧
      ∃ w ∈ windows, ∃ unitNum, 1 ≤ unitNum ∧ unitNum ≤ a.unitCount ∧
        ¬ Reaches (inUnit unitNum (booked w) ++ withoutUnit (booked w)) a.unitCapacity w))

/-- What the calendar asks of a slot of an HOURLY activity. -/
def SlotTaken (a : Activity) (booked : List Booking) (w : Instant × Instant) : Prop :=
  if rentsWholeUnit a then a.unitCount ≤ (occupiedUnits booked).length + (withoutUnit booked).length
  else ∃ capacity ∈ (if a.hasUnits then some (a.unitCount * a.unitCapacity) else a.capacity),
    Reaches booked capacity w

/-- What the day view asks of it. -/
def SlotUnavailable (a : Activity) (booked : List Booking) (w : Instant × Instant) : Prop :=
  if rentsWholeUnit a then (emptyUnits a.unitCount booked).length ≤ (withoutUnit booked).length
  else if a.hasUnits then ∀ unitNum, 1 ≤ unitNum → unitNum ≤ a.unitCount →
    Reaches (inUnit unitNum booked ++ withoutUnit booked) a.unitCapacity w
  else ∃ capacity ∈ a.capacity, Reaches booked capacity w

/-- The counts of a day are out of all units, or of the activity. -/
theorem dayCount_capacity (hwhole : ¬ rentsWholeUnit a = true) (today : List Booking) :
    (dayCount a none today s e).capacity =
      if a.hasUnits then some (a.unitCount * a.unitCapacity) else a.capacity := by
  simp only [dayCount, if_neg hwhole]
  split
  · split <;> rfl
  · rfl

theorem slotFull_iff (today : List Booking) {capacity : Option Nat} {w : Instant × Instant}
    (hse : w.1 < w.2)
    (hcapacity : ¬ rentsWholeUnit a = true → capacity =
      if a.hasUnits then some (a.unitCount * a.unitCapacity) else a.capacity) :
    slotFull a none capacity today w.1 w.2 = true ↔
      SlotTaken a (today.filter (fun b => b.overlaps w.1 w.2)) w := by
  by_cases hwhole : rentsWholeUnit a = true
  · simp [slotFull, SlotTaken, hwhole]
  · simp only [slotFull, SlotTaken, if_neg hwhole, ← hcapacity hwhole]
    cases capacity with
    | none => simp
    | some cap =>
        simp only [decide_eq_true_eq, Option.mem_some_iff, exists_eq_left']
        exact le_peak_iff today cap hse

theorem hourlyRoom_full_iff {today : List Booking} {w : Instant × Instant} (hse : w.1 < w.2)
    (hproper : ∀ b ∈ today, b.Proper)
    (hunits : a.hasUnits = true → 0 < a.unitCount ∧ 0 < a.unitCapacity) :
    (hourlyRoom a today w.1 w.2).Full ↔
      SlotUnavailable a (today.filter (fun b => b.overlaps w.1 w.2)) w := by
  have hmeets : ∀ b ∈ today.filter (fun b => b.overlaps w.1 w.2), b.overlaps w.1 w.2 = true :=
    fun b hb => (List.mem_filter.mp hb).2
  rw [hourlyRoom_full, hourlyRoom_offers Nat.one_pos hse hproper fun h => (hunits h).1]
  unfold SlotUnavailable
  by_cases hhas : a.hasUnits = true
  · obtain ⟨hcount, hcap⟩ := hunits hhas
    rw [accepts_units hhas hcount hse]
    by_cases hwhole : rentsWholeUnit a = true
    · rw [if_pos hwhole, usableUnits_whole hwhole, ← withoutUnit_eq hmeets]
      omega
    · rw [if_neg hwhole, if_pos hhas, usableUnits_shared hwhole hse, ← withoutUnit_eq hmeets]
      simp only [reaches_iff]
      constructor
      · intro h unitNum hone hlast hroom
        exact h ⟨⟨unitNum, hone, hlast, hroom⟩, hcap⟩
      · rintro h ⟨⟨unitNum, hone, hlast, hroom⟩, _⟩
        exact h unitNum hone hlast hroom
  · have hwhole : ¬ rentsWholeUnit a = true := fun h => hhas (hasUnits_of_rentsWholeUnit h)
    rw [if_neg hwhole, if_neg hhas, accepts_no_units (by simpa using hhas) hse]
    simp only [reaches_iff]
    push Not
    rfl

/-- The two questions about the slots of a day have the same answer. -/
theorem agrees_iff (windows : List (Instant × Instant))
    (booked : Instant × Instant → List Booking) :
    ((windows ≠ [] ∧ ∀ w ∈ windows, SlotTaken a (booked w) w) ↔
        ∀ w ∈ windows, SlotUnavailable a (booked w) w) ↔
      CalendarAgrees a windows booked := by
  by_cases hnil : windows = []
  · simp [hnil, CalendarAgrees]
  · simp only [CalendarAgrees, ne_eq, hnil, not_false_eq_true, true_and]
    unfold SlotTaken SlotUnavailable
    by_cases hwhole : rentsWholeUnit a = true
    · have hhas := hasUnits_of_rentsWholeUnit hwhole
      simp only [hwhole, if_true, forall_const, not_true, false_implies, implies_true, and_true]
      have himp : (∀ w ∈ windows, (emptyUnits a.unitCount (booked w)).length ≤
          (withoutUnit (booked w)).length) → ∀ w ∈ windows, a.unitCount ≤
            (occupiedUnits (booked w)).length + (withoutUnit (booked w)).length := by
        intro h w hw
        have hle := h w hw
        have hcount := unitCount_le a.unitCount (booked w)
        omega
      have hnot : (∃ w ∈ windows, (occupiedUnits (booked w)).length +
          (withoutUnit (booked w)).length < a.unitCount) ↔ ¬ ∀ w ∈ windows, a.unitCount ≤
            (occupiedUnits (booked w)).length + (withoutUnit (booked w)).length := by
        push Not
        rfl
      rw [hnot]
      tauto
    · by_cases hhas : a.hasUnits = true
      · have hpool : (∃ w ∈ windows, ¬ Reaches (booked w) (a.unitCount * a.unitCapacity) w) ↔
            ¬ ∀ w ∈ windows, Reaches (booked w) (a.unitCount * a.unitCapacity) w := by
          push Not
          rfl
        have heach : (∃ w ∈ windows, ∃ unitNum, 1 ≤ unitNum ∧ unitNum ≤ a.unitCount ∧
            ¬ Reaches (inUnit unitNum (booked w) ++ withoutUnit (booked w)) a.unitCapacity w) ↔
              ¬ ∀ w ∈ windows, ∀ unitNum, 1 ≤ unitNum → unitNum ≤ a.unitCount →
                Reaches (inUnit unitNum (booked w) ++ withoutUnit (booked w))
                  a.unitCapacity w := by
          push Not
          rfl
        simp only [hwhole, hhas, Bool.false_eq_true, if_false, if_true, false_implies,
          forall_const, not_false_eq_true, true_and, Option.mem_some_iff, exists_eq_left']
        rw [hpool, heach]
        tauto
      · simp [hwhole, hhas]

/-! ## The day in the month -/

/-- A slot of a day lies within the day, and the day within its month. -/
theorem slot_in_month {year mon d : Int} {m m' : Nat} (hd : 1 ≤ d)
    (hlast : d ≤ CivilDate.lastDayOfMonth year mon) (hm : m' < 1440) :
    (CivilDate.mk year mon 1).midnight ≤ buildDatetime ⟨year, mon, d⟩ m ∧
      buildDatetime ⟨year, mon, d⟩ m' ≤ lastSecond year mon := by
  have hday := toDays_day year mon d
  have hend := toDays_day year mon (CivilDate.lastDayOfMonth year mon)
  simp only [buildDatetime, lastSecond, CivilDate.midnight, Jadwal.day, hour, minute, second]
  constructor
  · lia
  · lia

/-- The configuration and the rows a day of the calendar was computed from. -/
theorem getCalendarAvailability_ok {year mon : Int} {unitNumber : Option Nat}
    {days : List CalendarDay} {day : CalendarDay}
    (h : getCalendarAvailability env now db activityId year mon unitNumber = .ok days)
    (hday : day ∈ days) :
    ∃ a d, db.activities.find? activityId = some a ∧ 1 ≤ d ∧
      d ≤ CivilDate.lastDayOfMonth year mon ∧
      day = calendarDay env now db a
        (((db.countries.find? a.countryId).map Country.defaultTimezone).getD "UTC")
        (unitNumber.filter (fun n => n ≠ 0))
        (monthBookings env db now activityId (unitNumber.filter (fun n => n ≠ 0))
          (CivilDate.mk year mon 1).midnight (lastSecond year mon))
        (getBlocksInWindow db activityId (CivilDate.mk year mon 1).midnight
          (lastSecond year mon)) ⟨year, mon, d⟩ := by
  simp only [getCalendarAvailability, bind_eq_ok, orThrow_eq_ok, ensure_eq_ok, pure_eq_ok] at h
  obtain ⟨a, ha, _, _, rfl⟩ := h
  obtain ⟨d, hd, rfl⟩ := List.mem_map.mp hday
  have hlt := List.mem_range.mp hd
  exact ⟨a, d + 1, (Option.filter_eq_some_iff.mp ha).1, by omega, by omega, rfl⟩

/-- A day no block touches is not closed outright. -/
theorem calendarDay_open {tz : String} {unitNumber : Option Nat} {bookings : List Booking}
    {blocks : List ActivityBlock} {date : CivilDate}
    (h : (calendarDay env now db a tz unitNumber bookings blocks date).isBlocked = false) :
    (calendarDay env now db a tz unitNumber bookings blocks date).isFullyBlocked = false := by
  simp only [calendarDay, List.any_eq_false, decide_eq_true_eq] at h ⊢
  intro b hb hfull
  refine h b hb ⟨?_, ?_⟩
  · have hle := hfull.1
    simp only [Jadwal.day, hour, minute, second]
    lia
  · have hge := hfull.2
    simp only [Jadwal.day, hour, minute, second] at hge
    lia

/-- The two answers about a day, from rows that contain the bookings meeting each slot. -/
theorem day_agrees_iff (dayCheckIn dayCheckOut : Instant)
    (booked : Instant × Instant → List Booking) {date : CivilDate} {slots : List Nat}
    {durationValue : Nat} {today daily : List Booking}
    (hslots : hourlySlots env a = some slots) (hduration : a.durationValue = some durationValue)
    (hunits : a.hasUnits = true → 0 < a.unitCount ∧ 0 < a.unitCapacity)
    (hproper : ∀ b ∈ daily, b.Proper)
    (hwindow : ∀ m ∈ slots,
      buildDatetime date m < buildDatetime date (m + durationValue * 60) ∧
      today.filter (fun b => b.overlaps (buildDatetime date m)
        (buildDatetime date (m + durationValue * 60))) =
          booked (buildDatetime date m, buildDatetime date (m + durationValue * 60)) ∧
      daily.filter (fun b => b.overlaps (buildDatetime date m)
        (buildDatetime date (m + durationValue * 60))) =
          booked (buildDatetime date m, buildDatetime date (m + durationValue * 60))) :
    (isFullyBooked env a none date (dayCount a none today dayCheckIn dayCheckOut) today = true ↔
        ∀ m ∈ slots, (hourlyRoom a daily (buildDatetime date m)
          (buildDatetime date (m + durationValue * 60))).Full) ↔
      CalendarAgrees a (slots.map (fun m =>
        (buildDatetime date m, buildDatetime date (m + durationValue * 60)))) booked := by
  rw [← agrees_iff]
  refine iff_congr ?_ ?_
  · simp only [isFullyBooked, hslots, hduration, Option.getD_some, decide_eq_true_eq,
      List.all_eq_true, ne_eq, List.map_eq_nil_iff, List.forall_mem_map]
    refine and_congr_right fun _ => forall₂_congr fun m hm => ?_
    obtain ⟨hlt, htoday, _⟩ := hwindow m hm
    have hiff := @slotFull_iff a today _
      (buildDatetime date m, buildDatetime date (m + durationValue * 60)) hlt
      fun hwhole => @dayCount_capacity a dayCheckIn dayCheckOut hwhole today
    rw [← htoday]
    exact hiff
  · simp only [List.forall_mem_map]
    refine forall₂_congr fun m hm => ?_
    obtain ⟨hlt, _, hdaily⟩ := hwindow m hm
    rw [← hdaily]
    exact @hourlyRoom_full_iff a daily
      (buildDatetime date m, buildDatetime date (m + durationValue * 60)) hlt hproper hunits

/-- **When the calendar shows an open day as fully booked exactly if no slot of the day view
has room**, for the slots of the day and the active bookings that meet each of them. -/
theorem calendar_agrees_iff {year mon : Int} {days : List CalendarDay} {day : CalendarDay}
    {slots : List HourlySlot}
    (hcal : getCalendarAvailability env now db activityId year mon none = .ok days)
    (hday : day ∈ days) (hopen : day.isBlocked = false)
    (hview : getHourlyAvailability env now db activityId day.date = .ok slots)
    (ha : db.activities.find? activityId = some a)
    (hunits : a.hasUnits = true → 0 < a.unitCount ∧ 0 < a.unitCapacity)
    (hproper : ∀ b ∈ db.bookings.rows, b.Proper)
    (hmonth : (touching db now activityId none (CivilDate.mk year mon 1).midnight
      (lastSecond year mon)).length ≤ env.availabilityMaxMonthBookings)
    (hcap : ∀ checkInTime ∈ a.checkInTime, ∀ checkOutTime ∈ a.checkOutTime,
      (competing db now activityId (buildDatetime day.date checkInTime.val)
        (buildDatetime day.date checkOutTime.val)).length ≤ env.availabilityMaxDayBookings) :
    (day.isFullyBooked = true ↔ ∀ slot ∈ slots, slot.room.Full) ↔
      CalendarAgrees a
        (slots.map (fun slot =>
          (buildDatetime day.date slot.slotStart, buildDatetime day.date slot.slotEnd)))
        (fun w => competing db now activityId w.1 w.2) := by
  obtain ⟨a', d, ha', hd, hlast, rfl⟩ := getCalendarAvailability_ok hcal hday
  obtain rfl : a = a' := Option.some.inj (ha.symm.trans ha')
  have hfully := calendarDay_open hopen
  obtain ⟨a', checkInTime, checkOutTime, durationValue, ha'', htype, hin, hout, hduration,
    hpos, rfl⟩ := getHourlyAvailability_ok hview
  obtain rfl : a = a' := Option.some.inj (ha.symm.trans ha'')
  have hslots : hourlySlots env a =
      some (computeSlots env checkInTime checkOutTime durationValue) := by
    simp [hourlySlots, htype, hin, hout, hduration, hpos]
  have hrows : (competing db now activityId (buildDatetime ⟨year, mon, d⟩ checkInTime.val)
      (buildDatetime ⟨year, mon, d⟩ checkOutTime.val)).length ≤
        env.availabilityMaxDayBookings := hcap checkInTime hin checkOutTime hout
  -- both lists of rows contain the bookings that meet a slot
  have hwindow : ∀ m ∈ computeSlots env checkInTime checkOutTime durationValue,
      buildDatetime ⟨year, mon, d⟩ m < buildDatetime ⟨year, mon, d⟩ (m + durationValue * 60) ∧
      ((monthBookings env db now activityId none (CivilDate.mk year mon 1).midnight
          (lastSecond year mon)).filter (fun b => b.overlaps
            (buildDatetime ⟨year, mon, d⟩ ((a.checkInTime.map Fin.val).getD (14 * 60)))
            (buildDatetime (CivilDate.ofDays ((CivilDate.mk year mon d).toDays + 1))
              ((a.checkOutTime.map Fin.val).getD (11 * 60))))).filter (fun b => b.overlaps
                (buildDatetime ⟨year, mon, d⟩ m)
                (buildDatetime ⟨year, mon, d⟩ (m + durationValue * 60))) =
        competing db now activityId (buildDatetime ⟨year, mon, d⟩ m)
          (buildDatetime ⟨year, mon, d⟩ (m + durationValue * 60)) ∧
      (windowBookings env db now activityId (buildDatetime ⟨year, mon, d⟩ checkInTime.val)
          (buildDatetime ⟨year, mon, d⟩ checkOutTime.val)).filter (fun b => b.overlaps
            (buildDatetime ⟨year, mon, d⟩ m)
            (buildDatetime ⟨year, mon, d⟩ (m + durationValue * 60))) =
        competing db now activityId (buildDatetime ⟨year, mon, d⟩ m)
          (buildDatetime ⟨year, mon, d⟩ (m + durationValue * 60)) := by
    intro m hm
    obtain ⟨_, hopens, hcloses⟩ := mem_computeSlots hm
    have hmonth' := slot_in_month (m := m) hd hlast (hcloses.trans_lt checkOutTime.isLt)
    refine ⟨buildDatetime_lt (by omega), ?_, ?_⟩
    · rw [monthBookings, List.take_of_length_le hmonth, overlaps_filter,
        touching_filter hmonth'.1 hmonth'.2]
      · simpa [hin] using buildDatetime_mono _ hopens
      · have hnext := (CivilDate.toDays_ofDays ((CivilDate.mk year mon d).toDays + 1)).1
        have hlt := checkOutTime.isLt
        simp only [buildDatetime, CivilDate.midnight, hnext, Jadwal.day, hour, minute, second]
        lia
    · rw [windowBookings_eq hrows]
      exact competing_filter (buildDatetime_mono _ hopens) (buildDatetime_mono _ hcloses)
  have hproper' : ∀ b ∈ windowBookings env db now activityId
      (buildDatetime ⟨year, mon, d⟩ checkInTime.val)
      (buildDatetime ⟨year, mon, d⟩ checkOutTime.val), b.Proper :=
    fun b hb => hproper b (mem_competing.mp (List.mem_of_mem_take hb)).1
  rw [List.map_map]
  have hagrees := day_agrees_iff
    (buildDatetime ⟨year, mon, d⟩ ((a.checkInTime.map Fin.val).getD (14 * 60)))
    (buildDatetime (CivilDate.ofDays ((CivilDate.mk year mon d).toDays + 1))
      ((a.checkOutTime.map Fin.val).getD (11 * 60)))
    (fun w => competing db now activityId w.1 w.2) hslots hduration hunits hproper' hwindow
  refine Iff.trans (iff_congr ?_ ?_) hagrees
  · simp only [calendarDay] at hfully ⊢
    simp only [hfully, Bool.false_eq_true, false_or, Bool.decide_eq_true]
    rfl
  · rw [List.forall_mem_map]
    rfl

/-- The hall, open from ten to eleven. -/
def shortHall : Activity :=
  { hall with checkInTime := some 600, checkOutTime := some 660 }

/-- A party of two without a unit, for ten o'clock of the second of January 2030. -/
def shortHallDb : Db :=
  { market.db with
    activities := ⟨[shortHall], by decide⟩
    bookings := ⟨[
      { id := 20, ref := "A", activityId := 7, vendorId := 4, customerId := 1,
        startDatetime := buildDatetime ⟨2030, 1, 2⟩ 600,
        endDatetime := buildDatetime ⟨2030, 1, 2⟩ 660, guests := 2, status := .confirmed,
        createdAt := 0 }], by decide⟩ }

theorem shortHall_month :
    ∃ days, getCalendarAvailability marketEnv 0 shortHallDb 7 2030 1 none = .ok days ∧
      ∃ d ∈ days, d.date = ⟨2030, 1, 2⟩ ∧ d.isPast = false ∧ d.isBlocked = false ∧
        d.isFullyBooked = false := by
  have hcal : (getCalendarAvailability marketEnv 0 shortHallDb 7 2030 1 none).toOption.any
      (fun days => days.any (fun d => d.date = ⟨2030, 1, 2⟩ ∧ d.isPast = false ∧
        d.isBlocked = false ∧ d.isFullyBooked = false)) = true := by
    decide +kernel
  obtain ⟨days, hdays, hany⟩ := (Option.any_eq_true _ _).mp hcal
  obtain ⟨d, hd, hshown⟩ := List.any_eq_true.mp hany
  exact ⟨days, toOption_eq_some.mp hdays, d, hd, of_decide_eq_true hshown⟩

theorem shortHall_day :
    ∃ slots, getHourlyAvailability marketEnv 0 shortHallDb 7 ⟨2030, 1, 2⟩ = .ok slots ∧
      slots ≠ [] ∧ ∀ slot ∈ slots, slot.room.Full := by
  have hview : (getHourlyAvailability marketEnv 0 shortHallDb 7 ⟨2030, 1, 2⟩).toOption.any
      (fun slots => slots ≠ [] ∧ ∀ slot ∈ slots, slot.room.Full) = true := by
    decide +kernel
  obtain ⟨slots, hslots, hfull⟩ := (Option.any_eq_true _ _).mp hview
  exact ⟨slots, toOption_eq_some.mp hslots, of_decide_eq_true hfull⟩

/-- The party may be in either unit, so the day view has no seat left in any; the calendar
counts it once and shows the day as open. -/
theorem shortHall_shown_open :
    ∃ days slots, getCalendarAvailability marketEnv 0 shortHallDb 7 2030 1 none = .ok days ∧
      getHourlyAvailability marketEnv 0 shortHallDb 7 ⟨2030, 1, 2⟩ = .ok slots ∧
      (∃ d ∈ days, d.date = ⟨2030, 1, 2⟩ ∧ d.isPast = false ∧ d.isBlocked = false ∧
        d.isFullyBooked = false) ∧
      slots ≠ [] ∧ ∀ slot ∈ slots, slot.room.Full := by
  obtain ⟨days, hdays, hshown⟩ := shortHall_month
  obtain ⟨slots, hslots, hsome, hfull⟩ := shortHall_day
  exact ⟨days, slots, hdays, hslots, hshown, hsome, hfull⟩

theorem shortHall_calendar_agrees_iff :
    ∃ (days : List CalendarDay) (slots : List HourlySlot) (d : CalendarDay),
      getCalendarAvailability marketEnv 0 shortHallDb 7 2030 1 none = .ok days ∧
      d ∈ days ∧ d.date = ⟨2030, 1, 2⟩ ∧
      ((d.isFullyBooked = true ↔ ∀ slot ∈ slots, slot.room.Full) ↔
        CalendarAgrees shortHall
          (slots.map (fun slot =>
            (buildDatetime d.date slot.slotStart, buildDatetime d.date slot.slotEnd)))
          (fun w => competing shortHallDb 0 7 w.1 w.2)) := by
  obtain ⟨days, hdays, d, hd, hdate, _, hopen, _⟩ := shortHall_month
  obtain ⟨slots, hslots, _⟩ := shortHall_day
  have hproper : ∀ b ∈ shortHallDb.bookings.rows,
      b.startDatetime < b.endDatetime ∧ 0 < b.guests := by
    decide +kernel
  refine ⟨days, slots, d, hdays, hd, hdate, ?_⟩
  refine calendar_agrees_iff hdays hd hopen (by rw [hdate]; exact hslots)
    (show shortHallDb.activities.find? 7 = some shortHall from rfl) (by decide)
    (fun b hb => ⟨(hproper b hb).1, (hproper b hb).2⟩) (by decide +kernel) ?_
  intro checkInTime hin checkOutTime hout
  obtain rfl := Option.some.inj hin
  obtain rfl := Option.some.inj hout
  rw [hdate]
  decide +kernel

end Jadwal
