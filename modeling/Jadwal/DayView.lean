import Jadwal.Admission
import Jadwal.Seating

/-!
# The availability of a day and of a stay

`getHourlyAvailability` and `getDailyAvailability`: what is left of each slot of
a day, or of a stay.  Both count on their own, apart from the transaction of
`createBooking`.

* The hourly view offers a party a slot exactly when the transaction would take
  it (`hourlyRoom_offers`, `hourly_view_agrees`).
* The daily view does so for units.  Without units it adds up the guests of all
  the bookings that meet the stay, where the transaction takes the greatest number
  present at once; two stays after one another are counted together
  (`daily_view_agrees_iff`).
-/

namespace Jadwal

open Outcome

/-! ## Slots -/

/-- Slot starts, `HOURLY_SLOT_GRANULARITY_MINUTES` apart, at most `room` of them. -/
def slotsFrom (endMins slotDuration : Nat) : Nat → Nat → List Nat
  | 0, _ => []
  | room + 1, t =>
      if t + slotDuration ≤ endMins then
        t :: slotsFrom endMins slotDuration room (t + 30)
      else []

/-- The starts of the slots of a day, in minutes.  The loop checks the cap after
it has pushed a slot. -/
def computeSlots (env : Env) (checkInTime checkOutTime : ClockTime) (durationValue : Nat) :
    List Nat :=
  let slotDuration := durationValue * 60
  if slotDuration = 0 then []
  else slotsFrom checkOutTime.val slotDuration (max 1 env.hourlyMaxSlots) checkInTime.val

/-- A listed slot ends by closing time. -/
theorem mem_slotsFrom {endMins slotDuration room t m : Nat}
    (h : m ∈ slotsFrom endMins slotDuration room t) :
    t ≤ m ∧ m + slotDuration ≤ endMins := by
  induction room generalizing t with
  | zero => simp [slotsFrom] at h
  | succ room ih =>
      rw [slotsFrom] at h
      split at h
      case isTrue hfits =>
        rcases List.mem_cons.mp h with rfl | hrest
        · exact ⟨le_rfl, hfits⟩
        · obtain ⟨hle, hend⟩ := ih hrest
          exact ⟨by omega, hend⟩
      case isFalse => simp at h

/-- A slot lies within the opening hours. -/
theorem mem_computeSlots {env : Env} {checkInTime checkOutTime : ClockTime}
    {durationValue m : Nat} (h : m ∈ computeSlots env checkInTime checkOutTime durationValue) :
    0 < durationValue ∧ checkInTime.val ≤ m ∧ m + durationValue * 60 ≤ checkOutTime.val := by
  unfold computeSlots at h
  by_cases hzero : durationValue * 60 = 0
  · rw [if_pos hzero] at h
    simp at h
  · rw [if_neg hzero] at h
    exact ⟨by omega, mem_slotsFrom h⟩

/-! ## What is left -/

/-- What is left of one unit. -/
structure UnitSlot where
  unitNumber : Nat
  capacity : Nat
  booked : Int
  available : Int
  deriving DecidableEq, Repr

/-- What is left of every unit, of the unit asked for, or of the activity; there
`none` is unlimited. -/
inductive Room where
  | units (units : List UnitSlot)
  | unit (unit : UnitSlot)
  | seats (capacity : Option Nat) (booked : Int) (available : Option Int)
  deriving DecidableEq, Repr

/-- The number shown as available reaches the party; with units, that of some unit. -/
def Room.Offers (guests : Nat) : Room → Prop
  | .units us => ∃ u ∈ us, (guests : Int) ≤ u.available
  | .unit u => (guests : Int) ≤ u.available
  | .seats _ _ left => ∀ n ∈ left, (guests : Int) ≤ n

instance (guests : Nat) : (r : Room) → Decidable (r.Offers guests)
  | .units us => inferInstanceAs (Decidable (∃ u ∈ us, (guests : Int) ≤ u.available))
  | .unit u => inferInstanceAs (Decidable ((guests : Int) ≤ u.available))
  | .seats _ _ left => inferInstanceAs (Decidable (∀ n ∈ left, (guests : Int) ≤ n))

/-- The sum shown for a slot with units. -/
def totalAvailable (units : List UnitSlot) : Int :=
  (units.map UnitSlot.available).sum

/-- Takes `toRetire` of the free units off the board, in order: each unassigned
booking of a whole-unit rental holds one of them. -/
def retireUnits (unitCapacity : Nat) (free : UnitSlot → Bool) :
    Nat → List UnitSlot → List UnitSlot
  | 0, units => units
  | _ + 1, [] => []
  | toRetire + 1, u :: units =>
      if free u then
        { u with booked := unitCapacity, available := 0 } ::
          retireUnits unitCapacity free toRetire units
      else u :: retireUnits unitCapacity free (toRetire + 1) units

/-- The vendor's locks of an activity that meet the window. -/
def getBlocksInWindow (db : Db) (activityId : Id) (windowStart windowEnd : Instant) :
    List ActivityBlock :=
  db.activityBlocks.select (fun b => b.activityId = activityId ∧ b.deletedAt = none ∧
    b.blockStart < windowEnd ∧ b.blockEnd > windowStart)

/-! ## One day of an HOURLY activity -/

/-- One unit in a slot. -/
def hourlyUnit (activity : Activity) (dayBookings : List Booking)
    (startDatetime endDatetime : Instant) (unitNum : Nat) : UnitSlot :=
  let orphans := unassignedOverlapping dayBookings startDatetime endDatetime
  let unitBookings := inUnit unitNum dayBookings
  let peak := maxConcurrentInWindow
    (if rentsWholeUnit activity then unitBookings else unitBookings ++ orphans)
    startDatetime endDatetime
  { unitNumber := unitNum
    capacity := activity.unitCapacity
    booked := peak
    available :=
      if rentsWholeUnit activity then (if peak > 0 then 0 else activity.unitCapacity)
      else max 0 (activity.unitCapacity - peak) }

/-- What is left of a slot. -/
def hourlyRoom (activity : Activity) (dayBookings : List Booking)
    (startDatetime endDatetime : Instant) : Room :=
  if activity.hasUnits ∧ activity.unitCount > 0 then
    let orphans := unassignedOverlapping dayBookings startDatetime endDatetime
    let unitSlots := (List.range' 1 activity.unitCount).map
      (hourlyUnit activity dayBookings startDatetime endDatetime)
    .units (if rentsWholeUnit activity then
      retireUnits activity.unitCapacity (fun u => u.available > 0) orphans.length unitSlots
    else unitSlots)
  else
    let peak := maxConcurrentInWindow dayBookings startDatetime endDatetime
    .seats activity.capacity peak
      (activity.capacity.map (fun cap : Nat => max 0 ((cap : Int) - peak)))

structure HourlySlot where
  slotStart : Nat
  slotEnd : Nat
  room : Room
  isPast : Bool
  isBlocked : Bool
  deriving DecidableEq, Repr

/-- One slot.  A lock is flagged at the slot's start only. -/
def hourlySlot (env : Env) (now : Instant) (activity : Activity) (tz : String)
    (date : CivilDate) (durationValue : Nat) (dayBookings : List Booking)
    (dayBlocks : List ActivityBlock) (slotStart : Nat) : HourlySlot :=
  let slotEnd := slotStart + durationValue * 60
  let startDatetime := buildDatetime date slotStart
  let endDatetime := buildDatetime date slotEnd
  let today := todayInTimezone env tz now
  { slotStart := slotStart
    slotEnd := slotEnd
    room := hourlyRoom activity dayBookings startDatetime endDatetime
    isPast := date.key < today.key ∨
      (date = today ∧ slotStart ≤ minutesInTimezone env tz now)
    isBlocked := dayBlocks.any (fun b =>
      b.blockStart ≤ startDatetime ∧ startDatetime < b.blockEnd) }

/-- The slots of a day. -/
def getHourlyAvailability (env : Env) (now : Instant) (db : Db) (activityId : Id)
    (date : CivilDate) : Tx (List HourlySlot) := do
  ensure date.isValid (.badRequest "Invalid date")
  let activity ← orThrow ((db.activities.find? activityId).filter (·.status = .active))
    (.business "ACTIVITY.NOT_FOUND" "Activity not found")
  ensure (activity.bookingType = .hourly) (.badRequest "Activity is not HOURLY")
  let incomplete := HttpError.badRequest "Activity configuration incomplete"
  let checkInTime ← orThrow activity.checkInTime incomplete
  let checkOutTime ← orThrow activity.checkOutTime incomplete
  let durationValue ← orThrow (activity.durationValue.filter (fun n => n ≠ 0)) incomplete
  let tz := ((db.countries.find? activity.countryId).map Country.defaultTimezone).getD "UTC"
  let dayStart := buildDatetime date checkInTime.val
  let dayEnd := buildDatetime date checkOutTime.val
  let dayBookings := windowBookings env db now activityId dayStart dayEnd
  let dayBlocks := getBlocksInWindow db activityId dayStart dayEnd
  return (computeSlots env checkInTime checkOutTime durationValue).map
    (hourlySlot env now activity tz date durationValue dayBookings dayBlocks)

/-! ## A stay at a DAILY activity -/

/-- The guests of a list of bookings, added up. -/
def sumGuests (bookings : List Booking) : Nat :=
  (bookings.map Booking.guests).sum

/-- The bookings of a list that have no unit. -/
def withoutUnit (bookings : List Booking) : List Booking :=
  bookings.filter (fun b => b.unitNumber = none)

/-- What is left for a stay, from the bookings that meet it. -/
def dailyRoom (activity : Activity) (overlapping : List Booking) (blocked : Bool) : Room :=
  if activity.hasUnits then
    let wholeUnit := rentsWholeUnit activity
    let orphans := withoutUnit overlapping
    let bookedIn := fun unitNum => sumGuests (inUnit unitNum overlapping)
    let unitAvailability := (List.range' 1 activity.unitCount).map (fun unitNum =>
      let booked := bookedIn unitNum + (if wholeUnit then 0 else sumGuests orphans)
      { unitNumber := unitNum
        capacity := activity.unitCapacity
        booked := booked
        available :=
          if blocked then 0
          else if wholeUnit then (if booked > 0 then 0 else activity.unitCapacity)
          else max 0 ((activity.unitCapacity : Int) - booked) })
    .units (if wholeUnit then
      retireUnits activity.unitCapacity (fun u => bookedIn u.unitNumber = 0)
        orphans.length unitAvailability
    else unitAvailability)
  else
    let booked := sumGuests overlapping
    .seats activity.capacity booked
      (if blocked then some 0
      else activity.capacity.map (fun cap : Nat => max 0 ((cap : Int) - booked)))

/-- What is left of one unit for a stay: a booking without a unit may be in it. -/
def dailyUnit (activity : Activity) (overlapping : List Booking) (blocked : Bool)
    (unitNumber : Nat) : UnitSlot :=
  let wholeUnit := rentsWholeUnit activity
  let orphans := withoutUnit overlapping
  let booked := sumGuests (inUnit unitNumber overlapping) +
    (if wholeUnit then 0 else sumGuests orphans)
  { unitNumber := unitNumber
    capacity := activity.unitCapacity
    booked := booked
    available :=
      if blocked then 0
      else if wholeUnit then
        (if booked > 0 ∨ orphans.length > 0 then 0 else activity.unitCapacity)
      else max 0 ((activity.unitCapacity : Int) - booked) }

structure DailyAvailability where
  room : Room
  isBlocked : Bool
  deriving DecidableEq, Repr

/-- The availability of a stay; locks are compared with its nights. -/
def getDailyAvailability (now : Instant) (db : Db) (activityId : Id)
    (checkInDate checkOutDate : CivilDate) (unitNumber : Option Nat) :
    Tx DailyAvailability := do
  ensure (checkInDate.isValid ∧ checkOutDate.isValid) (.badRequest "Invalid date format")
  let activity ← orThrow ((db.activities.find? activityId).filter (·.status = .active))
    (.business "ACTIVITY.NOT_FOUND" "Activity not found")
  ensure (activity.bookingType = .daily) (.badRequest "Activity is not DAILY")
  let startDatetime := buildDatetime checkInDate
    ((activity.checkInTime.map Fin.val).getD (14 * 60))
  let endDatetime := buildDatetime checkOutDate
    ((activity.checkOutTime.map Fin.val).getD (11 * 60))
  let blocked : Bool := ¬ getBlocksInWindow db activityId
    checkInDate.midnight checkOutDate.midnight = []
  let overlapping := competing db now activityId startDatetime endDatetime
  match unitNumber.filter (fun n => activity.hasUnits ∧ n ≠ 0) with
  | none => return ⟨dailyRoom activity overlapping blocked, blocked⟩
  | some unitNum =>
      ensure (unitNum ≤ activity.unitCount) (.notFound "Unit not found")
      return ⟨.unit (dailyUnit activity overlapping blocked unitNum), blocked⟩

/-! ## Retiring units -/

/-- No bookings without a unit, no unit retired. -/
theorem retireUnits_zero (unitCapacity : Nat) (free : UnitSlot → Bool)
    (units : List UnitSlot) : retireUnits unitCapacity free 0 units = units := by
  cases units <;> rfl

/-- **Of equal free units one is still offered when more of them are free than are
retired.** -/
theorem retireUnits_offers {unitCapacity guests : Nat} {free : UnitSlot → Bool}
    (hguests : 0 < guests) (toRetire : Nat) (units : List UnitSlot)
    (hfree : ∀ u ∈ units, u.available = if free u then (unitCapacity : Int) else 0) :
    (∃ u ∈ retireUnits unitCapacity free toRetire units, (guests : Int) ≤ u.available) ↔
      toRetire < units.countP free ∧ guests ≤ unitCapacity := by
  have hoffer : ∀ u : UnitSlot, u.available = (if free u then (unitCapacity : Int) else 0) →
      ((guests : Int) ≤ u.available ↔ free u = true ∧ guests ≤ unitCapacity) := by
    intro u hu
    rw [hu]
    split <;> simp_all
    omega
  induction units generalizing toRetire with
  | nil => cases toRetire <;> simp [retireUnits]
  | cons u units ih =>
      have hu := hfree u (by simp)
      have ih' := fun n => ih n fun v hv => hfree v (by simp [hv])
      cases toRetire with
      | zero =>
          have hrest : (∃ v ∈ units, (guests : Int) ≤ v.available) ↔
              0 < units.countP free ∧ guests ≤ unitCapacity := by
            simpa only [retireUnits_zero] using ih' 0
          rw [retireUnits_zero, List.exists_mem_cons_iff, hoffer u hu, List.countP_cons]
          by_cases hf : free u = true
          · rw [if_pos hf, hrest]
            simp only [hf, true_and]
            omega
          · rw [if_neg hf, hrest]
            simp [hf]
      | succ toRetire =>
          by_cases hf : free u = true
          · simp [retireUnits, hf, hguests.ne', ih' toRetire]
          · have hnot := mt (hoffer u hu).mp (fun h => hf h.1)
            simp [retireUnits, hf, hnot, ih' (toRetire + 1)]

/-- Retiring makes nothing available. -/
theorem retireUnits_zero_available {unitCapacity : Nat} {free : UnitSlot → Bool}
    (toRetire : Nat) (units : List UnitSlot) (h : ∀ u ∈ units, u.available = 0) :
    ∀ u ∈ retireUnits unitCapacity free toRetire units, u.available = 0 := by
  induction units generalizing toRetire with
  | nil => cases toRetire <;> simp [retireUnits]
  | cons u units ih =>
      have hrest := fun n => ih n fun v hv => h v (by simp [hv])
      cases toRetire with
      | zero => simpa only [retireUnits_zero] using h
      | succ toRetire =>
          rw [retireUnits]
          split
          · exact List.forall_mem_cons.mpr ⟨rfl, hrest toRetire⟩
          · exact List.forall_mem_cons.mpr ⟨h u (by simp), hrest (toRetire + 1)⟩

/-- The units of a window no booking is in. -/
theorem countP_empty (unitCount : Nat) (bookings : List Booking) :
    (List.range' 1 unitCount).countP (fun unitNum => (inUnit unitNum bookings).isEmpty) =
      (emptyUnits unitCount bookings).length :=
  List.countP_eq_length_filter

theorem inUnit_proper {bookings : List Booking} (h : ∀ b ∈ bookings, b.Proper) (unitNum : Nat) :
    ∀ b ∈ inUnit unitNum bookings, b.Proper :=
  fun b hb => h b (List.mem_of_mem_filter hb)

/-- Filtering bookings and picking a unit commute. -/
theorem inUnit_filter (unitNum : Nat) (p : Booking → Bool) (bookings : List Booking) :
    inUnit unitNum (bookings.filter p) = (inUnit unitNum bookings).filter p := by
  simp only [inUnit, List.filter_filter]
  exact List.filter_congr fun b _ => Bool.and_comm _ _

/-- Bookings outside the window are no competition for a unit. -/
theorem unassignedOverlapping_filter (s e : Instant) (bookings : List Booking) :
    unassignedOverlapping (bookings.filter (fun b => b.overlaps s e)) s e =
      unassignedOverlapping bookings s e := by
  simp only [unassignedOverlapping, List.filter_filter]
  refine List.filter_congr fun b _ => ?_
  cases h : b.overlaps s e <;> simp

/-- What `createBooking` stores takes a stretch of time and seats somebody. -/
theorem created_proper {env : Env} {now txNow : Instant} {db db' db'' : Db} {userId : Id}
    {dto : CreateBookingDto} {p : PreparedBooking} {ref : String} {b : Booking}
    (hprep : prepareBooking env now db userId dto = .ok (some p))
    (htx : createBookingTx env txNow db' p ref = .ok (db'', b)) : b.Proper := by
  obtain ⟨_, hwindow⟩ := prepareBooking_window hprep
  obtain ⟨unitNumber, q, hcreated⟩ := createBookingTx_created htx
  rw [hcreated.booking]
  exact ⟨hwindow, p.dto.guests_pos⟩

/-! ## The hourly view -/

variable {a : Activity} {day : List Booking} {s e : Instant} {guests : Nat}

/-- A count below zero offers as little as zero. -/
theorem offers_max {n : Int} (hguests : 0 < guests) :
    (guests : Int) ≤ max 0 n ↔ (guests : Int) ≤ n := by
  omega

/-- Only the bookings of the window matter to the room left. -/
theorem vacant_overlaps (bookings : List Booking) (capacity : Nat) :
    Vacant (bookings.filter (fun b => b.overlaps s e)) capacity s e guests ↔
      Vacant bookings capacity s e guests :=
  forall₃_congr fun t hs he => by rw [seats_overlaps bookings hs he]

/-- **Whole units: a slot is offered exactly when the creation accepts it.** -/
theorem hourlyRoom_whole (hguests : 0 < guests) (hse : s < e)
    (hproper : ∀ b ∈ day, b.Proper) (hwhole : rentsWholeUnit a = true)
    (hcount : 0 < a.unitCount) :
    (hourlyRoom a day s e).Offers guests ↔
      Accepts a (day.filter (fun b => b.overlaps s e)) s e guests := by
  have hhas := hasUnits_of_rentsWholeUnit hwhole
  have hpeak : ∀ unitNum, 0 < maxConcurrentInWindow (inUnit unitNum day) s e ↔
      ¬ (inUnit unitNum (day.filter (fun b => b.overlaps s e))).isEmpty = true := by
    intro unitNum
    rw [maxConcurrentInWindow_pos_iff (inUnit_proper hproper unitNum) hse, inUnit_filter,
      List.isEmpty_iff, List.filter_eq_nil_iff]
    push Not
    rfl
  have havailable : ∀ u ∈ (List.range' 1 a.unitCount).map (hourlyUnit a day s e),
      u.available = if (decide (u.available > 0)) = true then (a.unitCapacity : Int) else 0 := by
    intro u hu
    obtain ⟨unitNum, _, rfl⟩ := List.mem_map.mp hu
    simp only [hourlyUnit, if_pos hwhole, decide_eq_true_eq]
    split
    · simp
    · by_cases hcap : a.unitCapacity = 0
      · simp [hcap]
      · simp [Nat.pos_of_ne_zero hcap]
  simp only [hourlyRoom, if_pos (show a.hasUnits = true ∧ a.unitCount > 0 from
    ⟨hhas, hcount⟩), Room.Offers]
  rw [accepts_units hhas hcount hse, if_pos hwhole, usableUnits_whole hwhole,
    unassignedOverlapping_filter, retireUnits_offers hguests _ _ havailable, List.countP_map,
    ← countP_empty]
  refine and_congr_left fun hfit => ?_
  refine iff_of_eq (congrArg (_ < ·) (List.countP_congr fun unitNum _ => ?_))
  have hpos : 0 < a.unitCapacity := hguests.trans_le hfit
  have hp := hpeak unitNum
  by_cases hbooked : 0 < maxConcurrentInWindow (inUnit unitNum day) s e
  · simp [hourlyUnit, hwhole, hbooked, hp.mp hbooked]
  · simpa [hourlyUnit, hwhole, hbooked, hpos] using mt hp.mpr hbooked

/-- **Shared units: the same.** -/
theorem hourlyRoom_shared (hguests : 0 < guests) (hse : s < e) (hhas : a.hasUnits = true)
    (hwhole : ¬ rentsWholeUnit a = true) (hcount : 0 < a.unitCount) :
    (hourlyRoom a day s e).Offers guests ↔
      Accepts a (day.filter (fun b => b.overlaps s e)) s e guests := by
  have hseats : ∀ unitNum,
      Vacant (inUnit unitNum (day.filter (fun b => b.overlaps s e)) ++
          unassignedOverlapping day s e) a.unitCapacity s e guests ↔
        (guests : Int) ≤ (hourlyUnit a day s e unitNum).available := by
    intro unitNum
    simp only [hourlyUnit, if_neg hwhole]
    rw [offers_max hguests, le_sub_peak_iff hse, inUnit_filter]
    exact forall₃_congr fun t hs he => by
      rw [seats_append, seats_append, seats_overlaps _ hs he]
  simp only [hourlyRoom, if_pos (show a.hasUnits = true ∧ a.unitCount > 0 from
    ⟨hhas, hcount⟩), Room.Offers]
  rw [accepts_units hhas hcount hse, if_neg hwhole, usableUnits_shared hwhole hse,
    unassignedOverlapping_filter]
  simp only [hseats, List.mem_map, List.mem_range'_1, exists_exists_and_eq_and]
  constructor
  · rintro ⟨unitNum, ⟨hone, hlast⟩, hoffer⟩
    refine ⟨⟨unitNum, hone, by omega, hoffer⟩, ?_⟩
    exact ((hseats unitNum).mpr hoffer).guests_le hse
  · rintro ⟨⟨unitNum, hone, hlast, hoffer⟩, _⟩
    exact ⟨unitNum, ⟨hone, by omega⟩, hoffer⟩

/-- **The hourly view offers what the transaction accepts**, on the bookings of the day
and on those of them that meet the slot. -/
theorem hourlyRoom_offers (hguests : 0 < guests) (hse : s < e)
    (hproper : ∀ b ∈ day, b.Proper) (hunits : a.hasUnits = true → 0 < a.unitCount) :
    (hourlyRoom a day s e).Offers guests ↔
      Accepts a (day.filter (fun b => b.overlaps s e)) s e guests := by
  by_cases hhas : a.hasUnits = true
  · by_cases hwhole : rentsWholeUnit a = true
    · exact hourlyRoom_whole hguests hse hproper hwhole (hunits hhas)
    · exact hourlyRoom_shared hguests hse hhas hwhole (hunits hhas)
  · rw [accepts_no_units (by simpa using hhas) hse]
    simp only [hourlyRoom, if_neg (show ¬ (a.hasUnits = true ∧ a.unitCount > 0) from
      fun h => hhas h.1), Room.Offers]
    cases a.capacity with
    | none => simp
    | some capacity =>
        simp only [Option.map_some, Option.mem_some_iff, forall_eq']
        rw [offers_max hguests, le_sub_peak_iff hse, vacant_overlaps]

/-- The configuration a listed slot was computed from. -/
theorem getHourlyAvailability_ok {env : Env} {now : Instant} {db : Db} {activityId : Id}
    {date : CivilDate} {slots : List HourlySlot}
    (h : getHourlyAvailability env now db activityId date = .ok slots) :
    ∃ a checkInTime checkOutTime durationValue,
      db.activities.find? activityId = some a ∧ a.bookingType = .hourly ∧
      a.checkInTime = some checkInTime ∧ a.checkOutTime = some checkOutTime ∧
      a.durationValue = some durationValue ∧ durationValue ≠ 0 ∧
      slots = (computeSlots env checkInTime checkOutTime durationValue).map
        (hourlySlot env now a
          (((db.countries.find? a.countryId).map Country.defaultTimezone).getD "UTC") date
          durationValue
          (windowBookings env db now activityId (buildDatetime date checkInTime.val)
            (buildDatetime date checkOutTime.val))
          (getBlocksInWindow db activityId (buildDatetime date checkInTime.val)
            (buildDatetime date checkOutTime.val))) := by
  simp only [getHourlyAvailability, bind_eq_ok, orThrow_eq_ok, ensure_eq_ok, pure_eq_ok] at h
  obtain ⟨_, _, a, ha, _, htype, checkInTime, hin, checkOutTime, hout, durationValue, hdur,
    rfl⟩ := h
  exact ⟨a, checkInTime, checkOutTime, durationValue, (Option.filter_eq_some_iff.mp ha).1, htype,
    hin, hout, (Option.filter_eq_some_iff.mp hdur).1,
    of_decide_eq_true (Option.filter_eq_some_iff.mp hdur).2, rfl⟩

/-- The window of a request for a slot with the default duration. -/
theorem hourlyWindow_default {env : Env} {now : Instant} {tz : String} {dto : CreateBookingDto}
    {window : Instant × Instant} {slotStart durationValue : Nat}
    (h : hourlyWindow env now a tz dto = .ok window)
    (hstart : dto.slotTime.map Fin.val = some slotStart) (hend : dto.slotEndTime = none)
    (hduration : a.durationValue = some durationValue) :
    window = (buildDatetime dto.checkInDate slotStart,
      buildDatetime dto.checkInDate (slotStart + durationValue * 60)) := by
  simp only [hourlyWindow, hend, bind_eq_ok, orThrow_eq_ok, ensure_eq_ok, pure_eq_ok] at h
  obtain ⟨slot, hslot, _, _, _, _, duration, hdur, _, _, _, rfl, _, _, _, _, _, _, rfl⟩ := h
  have hval : slot.val = slotStart := by simpa [hslot] using hstart
  have hsame : duration = durationValue := by
    simpa [hduration] using (Option.filter_eq_some_iff.mp hdur).1.symm
  rw [hval, hsame]

/-- The rows that meet a part of a window are those of the window that meet the part. -/
theorem competing_filter {now : Instant} {db : Db} {activityId : Id}
    {windowStart windowEnd : Instant} (hs : windowStart ≤ s) (he : e ≤ windowEnd) :
    (competing db now activityId windowStart windowEnd).filter (fun b => b.overlaps s e) =
      competing db now activityId s e := by
  simp only [competing, Table.select, List.filter_filter]
  refine List.filter_congr fun b _ => ?_
  by_cases hover : b.overlaps s e = true
  · have hday : b.overlaps windowStart windowEnd = true := by
      simp only [Booking.overlaps, decide_eq_true_eq] at hover ⊢
      exact ⟨hover.1.trans_le he, hs.trans_lt hover.2⟩
    simp [hover, hday]
  · simp [hover]

/-- A later time of day is a later instant. -/
theorem buildDatetime_mono (d : CivilDate) {m m' : Nat} (h : m ≤ m') :
    buildDatetime d m ≤ buildDatetime d m' := by
  simp only [buildDatetime, minute, second]
  lia

/-- **A listed slot is offered to a party exactly when `createBooking` takes it**: the
number shown, in some unit when there are units, reaches the guests if and only if a request
for the slot with the default duration passes the unit assignment and the capacity check. -/
theorem slot_offered_iff_accepted {env : Env} {now now' : Instant} {db : Db} {activityId : Id}
    {date : CivilDate} {slots : List HourlySlot} {slot : HourlySlot} {tz : String}
    {dto : CreateBookingDto} {window : Instant × Instant} {checkInTime checkOutTime : ClockTime}
    (hview : getHourlyAvailability env now db activityId date = .ok slots)
    (hslot : slot ∈ slots)
    (ha : db.activities.find? activityId = some a)
    (hunits : a.hasUnits = true → 0 < a.unitCount)
    (hproper : ∀ b ∈ db.bookings.rows, b.Proper)
    (hin : a.checkInTime = some checkInTime) (hout : a.checkOutTime = some checkOutTime)
    (hcap : (competing db now activityId (buildDatetime date checkInTime.val)
      (buildDatetime date checkOutTime.val)).length ≤ env.availabilityMaxDayBookings)
    (hdate : dto.checkInDate = date)
    (hstart : dto.slotTime.map Fin.val = some slot.slotStart) (hend : dto.slotEndTime = none)
    (hwindow : bookingWindow env now' a tz dto = .ok window) :
    slot.room.Offers dto.guests ↔
      Accepts a (windowBookings env db now activityId window.1 window.2) window.1 window.2
        dto.guests := by
  obtain ⟨a', checkInTime', checkOutTime', durationValue, ha', htype, hin', hout', hduration,
    _, rfl⟩ := getHourlyAvailability_ok hview
  obtain rfl : a = a' := Option.some.inj (ha.symm.trans ha')
  obtain rfl : checkInTime = checkInTime' := Option.some.inj (hin.symm.trans hin')
  obtain rfl : checkOutTime = checkOutTime' := Option.some.inj (hout.symm.trans hout')
  obtain ⟨slotStart, hmem, rfl⟩ := List.mem_map.mp hslot
  obtain ⟨hpos, hopen, hclose⟩ := mem_computeSlots hmem
  rw [bookingWindow, htype] at hwindow
  obtain rfl := hourlyWindow_default hwindow hstart hend hduration
  have hpart := @competing_filter (buildDatetime date slotStart)
    (buildDatetime date (slotStart + durationValue * 60)) now db activityId _ _
    (buildDatetime_mono date hopen) (buildDatetime_mono date hclose)
  have hday := windowBookings_eq hcap
  have hwin := @windowBookings_eq env now db activityId _ _
    (hpart ▸ (List.length_filter_le _ _).trans hcap)
  simp only [hourlySlot, hdate, hwin, hday, ← hpart]
  refine hourlyRoom_offers dto.guests_pos (buildDatetime_lt (by omega)) (fun b hb => ?_) hunits
  exact hproper b (Table.mem_select.mp hb).1

/-- An hourly activity with two shared units of two seats. -/
def hall : Activity :=
  { marketActivity with hasUnits := true, unitCount := 2, unitCapacity := 2, capacity := some 4 }

/-- A party of two in the first unit from ten to eleven, and one guest without a unit from
half past ten. -/
def hallDb : Db :=
  { market.db with
    activities := ⟨[hall], by decide⟩
    bookings := ⟨[
      { id := 20, ref := "A", activityId := 7, vendorId := 4, customerId := 1,
        unitNumber := some 1, startDatetime := buildDatetime ⟨1970, 1, 2⟩ 600,
        endDatetime := buildDatetime ⟨1970, 1, 2⟩ 660, guests := 2, status := .confirmed,
        createdAt := 0 },
      { id := 21, ref := "B", activityId := 7, vendorId := 4, customerId := 2,
        startDatetime := buildDatetime ⟨1970, 1, 2⟩ 630,
        endDatetime := buildDatetime ⟨1970, 1, 2⟩ 690, guests := 1, status := .confirmed,
        createdAt := 0 }], by decide⟩ }

theorem hallDb_proper : ∀ b ∈ hallDb.bookings.rows, b.Proper := by
  have h : ∀ b ∈ hallDb.bookings.rows, b.startDatetime < b.endDatetime ∧ 0 < b.guests := by
    decide +kernel
  exact fun b hb => ⟨(h b hb).1, (h b hb).2⟩

theorem hall_slot_offered_iff_accepted :
    ∃ slots, getHourlyAvailability marketEnv 0 hallDb 7 ⟨1970, 1, 2⟩ = .ok slots ∧
      (∃ slot ∈ slots, slot.slotStart = 600) ∧
      ∀ slot ∈ slots, slot.slotStart = 600 → (slot.room.Offers 1 ↔
        Accepts hall (windowBookings marketEnv hallDb 0 7 (buildDatetime ⟨1970, 1, 2⟩ 600)
          (buildDatetime ⟨1970, 1, 2⟩ 660)) (buildDatetime ⟨1970, 1, 2⟩ 600)
          (buildDatetime ⟨1970, 1, 2⟩ 660) 1) := by
  have hview : (getHourlyAvailability marketEnv 0 hallDb 7 ⟨1970, 1, 2⟩).toOption.any
      (fun slots => slots.any (fun slot => slot.slotStart = 600)) = true := by
    decide +kernel
  obtain ⟨slots, hslots, hany⟩ := (Option.any_eq_true _ _).mp hview
  have hok := toOption_eq_some.mp hslots
  have hwindow : bookingWindow marketEnv 0 hall "UTC" (marketRequest none) =
      .ok (buildDatetime ⟨1970, 1, 2⟩ 600, buildDatetime ⟨1970, 1, 2⟩ 660) := by
    decide +kernel
  have hrows : (competing hallDb 0 7 (buildDatetime ⟨1970, 1, 2⟩ (0 : ClockTime).val)
      (buildDatetime ⟨1970, 1, 2⟩ (1380 : ClockTime).val)).length ≤
        marketEnv.availabilityMaxDayBookings := by
    decide +kernel
  refine ⟨slots, hok, ?_, fun slot hslot hstart => ?_⟩
  · obtain ⟨slot, hslot, hstart⟩ := List.any_eq_true.mp hany
    exact ⟨slot, hslot, of_decide_eq_true hstart⟩
  · exact slot_offered_iff_accepted hok hslot (show hallDb.activities.find? 7 = some hall from rfl)
      (by decide) hallDb_proper (show hall.checkInTime = some 0 from rfl)
      (show hall.checkOutTime = some 1380 from rfl) hrows rfl (by rw [hstart]; rfl) rfl hwindow

/-! ## The daily view -/

variable {overlapping : List Booking}

/-- Bookings have guests, so no guests are no bookings. -/
theorem sumGuests_pos_iff (hproper : ∀ b ∈ overlapping, b.Proper) :
    sumGuests overlapping = 0 ↔ overlapping = [] := by
  cases overlapping with
  | nil => simp [sumGuests]
  | cons b bs =>
      have hpos := (hproper b (by simp)).guests
      simp [sumGuests]
      omega

/-- The bookings without a unit, as the creation counts them. -/
theorem withoutUnit_eq (hmeets : ∀ b ∈ overlapping, b.overlaps s e = true) :
    withoutUnit overlapping = unassignedOverlapping overlapping s e :=
  List.filter_congr fun b hb => by simp [hmeets b hb]

/-- **Of units the daily view offers what the transaction accepts**: a DAILY activity
lets whole units. -/
theorem dailyRoom_units (hguests : 0 < guests) (hse : s < e)
    (hproper : ∀ b ∈ overlapping, b.Proper)
    (hmeets : ∀ b ∈ overlapping, b.overlaps s e = true) (hwhole : rentsWholeUnit a = true)
    (hcount : 0 < a.unitCount) (blocked : Bool) :
    (dailyRoom a overlapping blocked).Offers guests ↔
      blocked = false ∧ Accepts a overlapping s e guests := by
  have hhas := hasUnits_of_rentsWholeUnit hwhole
  rw [accepts_units hhas hcount hse, usableUnits_whole hwhole, ← withoutUnit_eq hmeets,
    ← countP_empty]
  simp only [dailyRoom, if_pos hhas, if_pos hwhole, Room.Offers, Nat.add_zero]
  have hfree : ∀ unitNum, decide (sumGuests (inUnit unitNum overlapping) = 0) =
      (inUnit unitNum overlapping).isEmpty := by
    intro unitNum
    rw [Bool.eq_iff_iff, decide_eq_true_eq, sumGuests_pos_iff (inUnit_proper hproper unitNum),
      List.isEmpty_iff]
  cases blocked with
  | true =>
      simp only [if_true, Bool.true_eq_false, false_and, iff_false]
      rintro ⟨u, hu, hle⟩
      have hzero := retireUnits_zero_available _ _ (fun v hv => by
        obtain ⟨unitNum, _, rfl⟩ := List.mem_map.mp hv
        rfl) u hu
      omega
  | false =>
      simp only [Bool.false_eq_true, if_false, true_and]
      rw [retireUnits_offers hguests]
      · rw [List.countP_map]
        refine and_congr_left fun _ => iff_of_eq (congrArg (_ < ·) ?_)
        exact List.countP_congr fun unitNum _ => by simp [hfree]
      · intro u hu
        obtain ⟨unitNum, _, rfl⟩ := List.mem_map.mp hu
        by_cases hzero : sumGuests (inUnit unitNum overlapping) = 0
        · simp [hzero]
        · simp [hzero, Nat.pos_of_ne_zero hzero]

/-- Without units it adds up the guests of all the bookings that meet the stay. -/
theorem dailyRoom_seats (hguests : 0 < guests) (hhas : ¬ a.hasUnits = true) (blocked : Bool) :
    (dailyRoom a overlapping blocked).Offers guests ↔
      blocked = false ∧ ∀ capacity ∈ a.capacity, sumGuests overlapping + guests ≤ capacity := by
  simp only [dailyRoom, if_neg hhas, Room.Offers]
  cases blocked with
  | true => simp [hguests.ne']
  | false =>
      cases a.capacity with
      | none => simp
      | some capacity =>
          simp only [Bool.false_eq_true, if_false, Option.map_some, Option.mem_some_iff,
            forall_eq', true_and]
          rw [offers_max hguests]
          omega

/-- No lock of the vendor meets the window. -/
def BlockFree (db : Db) (activityId : Id) (window : Instant × Instant) : Prop :=
  ∀ b ∈ db.activityBlocks.rows, ¬ (b.activityId = activityId ∧ b.deletedAt = none ∧
    b.blockStart < window.2 ∧ b.blockEnd > window.1)

instance (db : Db) (activityId : Id) (window : Instant × Instant) :
    Decidable (BlockFree db activityId window) :=
  inferInstanceAs (Decidable (∀ b ∈ db.activityBlocks.rows, ¬ _))

/-- No block is read exactly where the window is free of blocks. -/
theorem getBlocksInWindow_eq_nil {db : Db} {activityId : Id} {window : Instant × Instant} :
    getBlocksInWindow db activityId window.1 window.2 = [] ↔ BlockFree db activityId window := by
  simp [getBlocksInWindow, Table.select, List.filter_eq_nil_iff, BlockFree]

/-- The view of a stay, without a unit number. -/
theorem getDailyAvailability_ok {now : Instant} {db : Db} {activityId : Id}
    {checkInDate checkOutDate : CivilDate} {view : DailyAvailability}
    (h : getDailyAvailability now db activityId checkInDate checkOutDate none = .ok view) :
    ∃ a, db.activities.find? activityId = some a ∧ a.bookingType = .daily ∧
      (view.isBlocked = false ↔
        BlockFree db activityId (checkInDate.midnight, checkOutDate.midnight)) ∧
      view.room = dailyRoom a (competing db now activityId
        (buildDatetime checkInDate ((a.checkInTime.map Fin.val).getD (14 * 60)))
        (buildDatetime checkOutDate ((a.checkOutTime.map Fin.val).getD (11 * 60))))
        view.isBlocked := by
  simp only [getDailyAvailability, bind_eq_ok, orThrow_eq_ok, ensure_eq_ok, pure_eq_ok,
    Option.filter_none] at h
  obtain ⟨_, _, a, ha, _, htype, rfl⟩ := h
  refine ⟨a, (Option.filter_eq_some_iff.mp ha).1, htype, ?_, rfl⟩
  rw [← getBlocksInWindow_eq_nil]
  simp

/-- The window of a stay. -/
theorem dailyWindow_ok {env : Env} {dto : CreateBookingDto} {window : Instant × Instant}
    (h : dailyWindow env a dto = .ok window) : ∃ checkOutDate,
      dto.checkOutDate = some checkOutDate ∧
      dto.checkInDate.midnight < checkOutDate.midnight ∧
      (∀ minimum ∈ a.durationValue, minimum ≤ nightCount dto.checkInDate checkOutDate) ∧
      nightCount dto.checkInDate checkOutDate ≤ env.maxBookingNights ∧
      window = (buildDatetime dto.checkInDate ((a.checkInTime.map Fin.val).getD (14 * 60)),
        buildDatetime checkOutDate ((a.checkOutTime.map Fin.val).getD (11 * 60))) := by
  simp only [dailyWindow, bind_eq_ok, orThrow_eq_ok, ensure_eq_ok, pure_eq_ok] at h
  obtain ⟨checkOutDate, hout, _, hdates, _, hmin, _, hmax, rfl⟩ := h
  exact ⟨checkOutDate, hout, hdates, hmin, hmax, rfl⟩

/-- The bookings a request competes with. -/
theorem mem_competing {now : Instant} {db : Db} {activityId : Id} {b : Booking} :
    b ∈ competing db now activityId s e ↔ b ∈ db.bookings.rows ∧ b.activityId = activityId ∧
      activeBookingFilter now b = true ∧ b.overlaps s e = true := by
  simp [competing, Table.mem_select]

/-- They meet its window. -/
theorem windowBookings_meet {env : Env} {now : Instant} {db : Db} {activityId : Id} {b : Booking}
    (hb : b ∈ windowBookings env db now activityId s e) : b.overlaps s e = true :=
  (mem_competing.mp (List.mem_of_mem_take hb)).2.2.2

/-- No instant has more guests than the bookings together. -/
theorem seats_le_sumGuests (bookings : List Booking) (t : Instant) :
    seats bookings t ≤ sumGuests bookings :=
  List.sum_le_sum fun b _ => by split <;> omega

/-- The sum and the greatest number at an instant judge a party alike when the sum leaves
room, or some instant does not. -/
theorem sum_agrees_iff {capacity : Nat} :
    (sumGuests overlapping + guests ≤ capacity ↔ Vacant overlapping capacity s e guests) ↔
      sumGuests overlapping + guests ≤ capacity ∨
        ∃ t, s ≤ t ∧ t < e ∧ capacity < seats overlapping t + guests := by
  have hvacant : sumGuests overlapping + guests ≤ capacity →
      Vacant overlapping capacity s e guests := fun hsum t _ _ =>
    (Nat.add_le_add_right (seats_le_sumGuests overlapping t) _).trans hsum
  have hnot : ¬ Vacant overlapping capacity s e guests ↔
      ∃ t, s ≤ t ∧ t < e ∧ capacity < seats overlapping t + guests := by
    simp [Vacant]
  rw [← hnot]
  tauto

/-- **The daily view agrees with `createBooking` except for what it adds up.**  On an activity
without units that no lock meets, the guests of all the bookings of the stay may leave no room
although those present at once do. -/
theorem daily_view_agrees_iff {env : Env} {now now' : Instant} {db : Db} {activityId : Id}
    {checkInDate checkOutDate : CivilDate} {view : DailyAvailability} {tz : String}
    {dto : CreateBookingDto} {window : Instant × Instant}
    (hview : getDailyAvailability now db activityId checkInDate checkOutDate none = .ok view)
    (ha : db.activities.find? activityId = some a)
    (hunits : a.hasUnits = true → 0 < a.unitCount)
    (hproper : ∀ b ∈ db.bookings.rows, b.Proper)
    (hin : dto.checkInDate = checkInDate) (hout : dto.checkOutDate = some checkOutDate)
    (hwindow : bookingWindow env now' a tz dto = .ok window)
    (hcap : (competing db now activityId window.1 window.2).length ≤
      env.availabilityMaxDayBookings) :
    (view.room.Offers dto.guests ↔
        BlockFree db activityId (blockWindow a dto window) ∧
          Accepts a (windowBookings env db now activityId window.1 window.2) window.1 window.2
            dto.guests) ↔
      a.hasUnits = true ∨ ¬ BlockFree db activityId (blockWindow a dto window) ∨
        ∀ capacity ∈ a.capacity,
          sumGuests (competing db now activityId window.1 window.2) + dto.guests ≤ capacity ∨
          ∃ t, window.1 ≤ t ∧ t < window.2 ∧
            capacity < seats (competing db now activityId window.1 window.2) t + dto.guests := by
  obtain ⟨a', ha', htype, hblocked, hroom⟩ := getDailyAvailability_ok hview
  obtain rfl : a = a' := Option.some.inj (ha.symm.trans ha')
  rw [bookingWindow, htype] at hwindow
  have hlt := dailyWindow_lt hwindow
  obtain ⟨checkOutDate', hout', _, _, _, rfl⟩ := dailyWindow_ok hwindow
  obtain rfl : checkOutDate = checkOutDate' := Option.some.inj (hout.symm.trans hout')
  subst hin
  have hwindow : blockWindow a dto
      (buildDatetime dto.checkInDate ((a.checkInTime.map Fin.val).getD (14 * 60)),
        buildDatetime checkOutDate ((a.checkOutTime.map Fin.val).getD (11 * 60))) =
        (dto.checkInDate.midnight, checkOutDate.midnight) := by
    simp [blockWindow, htype, hout]
  rw [windowBookings_eq hcap, hwindow, hroom, ← hblocked]
  have hrows : ∀ b ∈ competing db now activityId
      (buildDatetime dto.checkInDate ((a.checkInTime.map Fin.val).getD (14 * 60)))
      (buildDatetime checkOutDate ((a.checkOutTime.map Fin.val).getD (11 * 60))), b.Proper :=
    fun b hb => hproper b (mem_competing.mp hb).1
  by_cases hhas : a.hasUnits = true
  · have hwhole : rentsWholeUnit a = true := decide_eq_true ⟨hhas, Or.inl htype⟩
    rw [dailyRoom_units dto.guests_pos hlt hrows (fun b hb => (mem_competing.mp hb).2.2.2)
      hwhole (hunits hhas)]
    simp [hhas]
  · rw [dailyRoom_seats dto.guests_pos hhas, accepts_no_units (by simpa using hhas) hlt]
    by_cases hfree : view.isBlocked = false
    · simp only [hhas, hfree, Bool.false_eq_true, true_and, not_true, false_or]
      cases a.capacity with
      | none => simp
      | some capacity =>
          simp only [Option.mem_some_iff, forall_eq']
          exact sum_agrees_iff
    · simp [hfree]

/-- A daily activity without units, for two guests at a time. -/
def inn : Activity :=
  { marketActivity with
    bookingType := .daily, durationValue := none, capacity := some 2
    checkInTime := some 840, checkOutTime := some 660 }

/-- One guest for the night of the second of January and one for that of the third. -/
def innDb : Db :=
  { market.db with
    activities := ⟨[inn], by decide⟩
    bookings := ⟨[
      { id := 20, ref := "A", activityId := 7, vendorId := 4, customerId := 1,
        startDatetime := buildDatetime ⟨1970, 1, 2⟩ 840,
        endDatetime := buildDatetime ⟨1970, 1, 3⟩ 660, guests := 1, status := .confirmed,
        createdAt := 0 },
      { id := 21, ref := "B", activityId := 7, vendorId := 4, customerId := 2,
        startDatetime := buildDatetime ⟨1970, 1, 3⟩ 840,
        endDatetime := buildDatetime ⟨1970, 1, 4⟩ 660, guests := 1, status := .confirmed,
        createdAt := 0 }], by decide⟩ }

/-- A stay of both nights for one guest. -/
def innRequest : CreateBookingDto where
  activityId := 7
  checkInDate := ⟨1970, 1, 2⟩
  checkOutDate := some ⟨1970, 1, 4⟩
  guests := 1
  guests_pos := one_guest

/-- Two stays one after the other count twice in the view, and the transaction takes a guest
the view has no place for. -/
theorem inn_shown_full :
    ∃ view window, getDailyAvailability 0 innDb 7 ⟨1970, 1, 2⟩ ⟨1970, 1, 4⟩ none = .ok view ∧
      bookingWindow marketEnv 0 inn "UTC" innRequest = .ok window ∧
      ¬ view.room.Offers innRequest.guests ∧
      BlockFree innDb 7 (blockWindow inn innRequest window) ∧
      Accepts inn (windowBookings marketEnv innDb 0 7 window.1 window.2) window.1 window.2
        innRequest.guests := by
  have hview : (getDailyAvailability 0 innDb 7 ⟨1970, 1, 2⟩ ⟨1970, 1, 4⟩ none).toOption.any
      (fun view => ¬ view.room.Offers innRequest.guests) = true := by
    decide +kernel
  obtain ⟨view, hok, hoffers⟩ := (Option.any_eq_true _ _).mp hview
  refine ⟨view, (buildDatetime ⟨1970, 1, 2⟩ 840, buildDatetime ⟨1970, 1, 4⟩ 660),
    toOption_eq_some.mp hok, by decide +kernel, of_decide_eq_true hoffers, by decide +kernel,
    none, ?_⟩
  decide +kernel

theorem inn_view_agrees_iff :
    ∃ view, getDailyAvailability 0 innDb 7 ⟨1970, 1, 2⟩ ⟨1970, 1, 4⟩ none = .ok view ∧
      ((view.room.Offers innRequest.guests ↔
          BlockFree innDb 7 (blockWindow inn innRequest
              (buildDatetime ⟨1970, 1, 2⟩ 840, buildDatetime ⟨1970, 1, 4⟩ 660)) ∧
            Accepts inn (windowBookings marketEnv innDb 0 7 (buildDatetime ⟨1970, 1, 2⟩ 840)
              (buildDatetime ⟨1970, 1, 4⟩ 660)) (buildDatetime ⟨1970, 1, 2⟩ 840)
              (buildDatetime ⟨1970, 1, 4⟩ 660) innRequest.guests) ↔
        inn.hasUnits = true ∨ ¬ BlockFree innDb 7 (blockWindow inn innRequest
            (buildDatetime ⟨1970, 1, 2⟩ 840, buildDatetime ⟨1970, 1, 4⟩ 660)) ∨
          ∀ capacity ∈ inn.capacity,
            sumGuests (competing innDb 0 7 (buildDatetime ⟨1970, 1, 2⟩ 840)
              (buildDatetime ⟨1970, 1, 4⟩ 660)) + innRequest.guests ≤ capacity ∨
            ∃ t, buildDatetime ⟨1970, 1, 2⟩ 840 ≤ t ∧ t < buildDatetime ⟨1970, 1, 4⟩ 660 ∧
              capacity < seats (competing innDb 0 7 (buildDatetime ⟨1970, 1, 2⟩ 840)
                (buildDatetime ⟨1970, 1, 4⟩ 660)) t + innRequest.guests) := by
  have hview : (getDailyAvailability 0 innDb 7 ⟨1970, 1, 2⟩ ⟨1970, 1, 4⟩ none).toOption.isSome =
      true := by
    decide +kernel
  obtain ⟨view, hok⟩ := Option.isSome_iff_exists.mp hview
  have hview := toOption_eq_some.mp hok
  have hproper : ∀ b ∈ innDb.bookings.rows, b.startDatetime < b.endDatetime ∧ 0 < b.guests := by
    decide +kernel
  have hwindow : bookingWindow marketEnv 0 inn "UTC" innRequest =
      .ok (buildDatetime ⟨1970, 1, 2⟩ 840, buildDatetime ⟨1970, 1, 4⟩ 660) := by
    decide +kernel
  have hrows : (competing innDb 0 7 (buildDatetime ⟨1970, 1, 2⟩ 840)
      (buildDatetime ⟨1970, 1, 4⟩ 660)).length ≤ marketEnv.availabilityMaxDayBookings := by
    decide +kernel
  exact ⟨view, hview,
    daily_view_agrees_iff hview (show innDb.activities.find? 7 = some inn from rfl)
      (by decide) (fun b hb => ⟨(hproper b hb).1, (hproper b hb).2⟩) rfl rfl hwindow hrows⟩

end Jadwal
