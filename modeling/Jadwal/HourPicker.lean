import Jadwal.MonthView

/-!
# The hour picker

`isValidStart` and `isValidEnd` of the hour range picker: which starts and ends of an
HOURLY booking a customer can tap, from the slots of `getHourlyAvailability`.  The picker
walks the half hours of a range and asks each listed slot for the seats left, summed over
the units; `createBooking` looks for one unit that is free all along.

`picker_sound_iff` says exactly which of the ranges the picker enables `createBooking`
accepts: without units all of them, as far as the slots are listed, and with units those
for which a unit is left.
-/

namespace Jadwal

open Outcome

/-! ## The picker -/

/-- The number a slot shows: what is left, or the sum over the units. -/
def availOf (slot : HourlySlot) : Option Int :=
  match slot.room with
  | .units us => some (totalAvailable us)
  | .unit u => some u.available
  | .seats _ _ left => left

/-- The properties of the picker. -/
structure HourRangePicker where
  slots : List HourlySlot
  checkInMins : Nat
  checkOutMins : Nat
  durationValue : Nat
  guests : Nat
  maxSlotUnits : Nat

/-- Minutes from one time to another, `TICK_MINUTES` apart, the last excluded. -/
def ticks (fromM toM : Nat) : List Nat :=
  (List.range ((toM - fromM + 29) / 30)).map (fun i => fromM + 30 * i)

namespace HourRangePicker

variable (p : HourRangePicker)

def unitMins : Nat := p.durationValue * 60

/-- The ticks a customer can tap, opening and closing time included. -/
def hours : List Nat := ticks p.checkInMins (p.checkOutMins + 1)

def pastByStart (m : Nat) : Bool :=
  p.slots.any (fun slot => slot.slotStart = m ∧ slot.isPast)

def blockedByStart (m : Nat) : Bool :=
  p.slots.any (fun slot => slot.slotStart = m ∧ slot.isBlocked)

/-- What the slot that starts here shows; the last entry of the map counts. -/
def availByStart (m : Nat) : Option Int :=
  ((p.slots.filter (fun slot => slot.slotStart = m)).getLast?).bind availOf

/-- The slot that starts here shows less than the party needs. -/
def lacks (m : Nat) : Bool := ∃ n ∈ p.availByStart m, n < p.guests

def hitsLock (fromM toM : Nat) : Bool := (ticks fromM toM).any p.blockedByStart

def isValidStart (m : Nat) : Bool :=
  ¬ m + p.unitMins > p.checkOutMins ∧ ¬ p.pastByStart m ∧ ¬ p.hitsLock m (m + p.unitMins) ∧
    ¬ p.lacks m

def isValidEnd (endM startM : Nat) : Bool :=
  startM ≤ endM ∧ (endM - startM) % 60 = 0 ∧ p.unitMins ≤ endM - startM ∧
    endM ≤ p.checkOutMins ∧ endM - startM ≤ p.maxSlotUnits * p.unitMins ∧
    (ticks startM endM).all (fun m => ¬ p.pastByStart m ∧ ¬ p.blockedByStart m ∧ ¬ p.lacks m)

/-- The customer can tap the start and then the end. -/
def Enables (startM endM : Nat) : Prop :=
  startM ∈ p.hours ∧ endM ∈ p.hours ∧ p.isValidStart startM ∧ p.isValidEnd endM startM

instance (startM endM : Nat) : Decidable (p.Enables startM endM) :=
  inferInstanceAs (Decidable (_ ∧ _ ∧ _ ∧ _))

end HourRangePicker

theorem mem_ticks {fromM toM m : Nat} :
    m ∈ ticks fromM toM ↔ fromM ≤ m ∧ m < toM ∧ (m - fromM) % 30 = 0 := by
  simp only [ticks, List.mem_map, List.mem_range]
  constructor
  · rintro ⟨i, hi, rfl⟩
    omega
  · rintro ⟨hle, hlt, hmod⟩
    exact ⟨(m - fromM) / 30, by omega, by omega⟩

/-! ## The server -/

variable {env : Env} {a : Activity} {db : Db} {now : Instant} {activityId : Id}

/-- The window, block, unit-assignment and capacity checks of `createBooking` let an hourly
request through. -/
def AcceptsRange (env : Env) (now : Instant) (db : Db) (a : Activity) (tz : String)
    (dto : CreateBookingDto) : Prop :=
  ∃ window, hourlyWindow env now a tz dto = .ok window ∧
    BlockFree db dto.activityId (blockWindow a dto window) ∧
    Accepts a (windowBookings env db now dto.activityId window.1 window.2) window.1 window.2
      dto.guests

theorem hourlyWindow_range {tz : String} {dto : CreateBookingDto} {window : Instant × Instant}
    {slotTime slotEndTime checkInTime checkOutTime : ClockTime} {durationValue : Nat}
    (hstart : dto.slotTime = some slotTime) (hend : dto.slotEndTime = some slotEndTime)
    (hin : a.checkInTime = some checkInTime) (hout : a.checkOutTime = some checkOutTime)
    (hduration : a.durationValue = some durationValue) (hpos : durationValue ≠ 0) :
    hourlyWindow env now a tz dto = .ok window ↔
      slotTime.val % 30 = 0 ∧ slotEndTime.val % 30 = 0 ∧ slotTime.val < slotEndTime.val ∧
      (slotEndTime.val - slotTime.val) % 60 = 0 ∧
      durationValue * 60 ≤ slotEndTime.val - slotTime.val ∧
      slotEndTime.val - slotTime.val ≤ env.maxSlotUnits * (durationValue * 60) ∧
      checkInTime ≤ slotTime ∧ slotEndTime.val ≤ checkOutTime.val ∧
      (dto.checkInDate = todayInTimezone env tz now →
        minutesInTimezone env tz now < slotTime.val) ∧
      window = (buildDatetime dto.checkInDate slotTime.val,
        buildDatetime dto.checkInDate slotEndTime.val) := by
  have hfilter : a.durationValue.filter (fun n => n ≠ 0) = some durationValue := by
    simp [hduration, hpos]
  simp only [hourlyWindow, hstart, hend, hin, hout, hfilter, bind_eq_ok, orThrow_eq_ok,
    ensure_eq_ok, pure_eq_ok, Option.some.injEq, exists_eq_left']
  constructor
  · rintro ⟨_, hgrid, _, ⟨_, hgrid', _, hlt, _, hmod, _, hmin, _, hmax, rfl⟩, _, hopen, _,
      hclose, _, hahead, rfl⟩
    exact ⟨hgrid, hgrid', hlt, hmod, hmin, hmax, hopen, hclose, hahead, rfl⟩
  · rintro ⟨hgrid, hgrid', hlt, hmod, hmin, hmax, hopen, hclose, hahead, rfl⟩
    exact ⟨(), hgrid, _, ⟨(), hgrid', (), hlt, (), hmod, (), hmin, (), hmax, rfl⟩, (), hopen, (),
      hclose, (), hahead, rfl⟩

/-! ## What the picker knows -/

/-- What a range the picker enables needs beyond that to be accepted:
* the opening time is on the half hour, and the start is still to come;
* the server's limit on the length is no lower than the picker's;
* a vendor block that meets the range covers the start of a slot listed in it;
* with units, one is left for the whole range; without, the guests leave room at the instants
  no slot listed in the range covers, or at which the day view's rows have fewer guests. -/
structure RangeKnown (env : Env) (now : Instant) (db : Db) (a : Activity) (tz : String)
    (dto : CreateBookingDto) (slots : List HourlySlot) (dayBookings : List Booking)
    (checkInMins startM endM : Nat) : Prop where
  grid : checkInMins % 30 = 0
  ahead : dto.checkInDate = todayInTimezone env tz now → minutesInTimezone env tz now < startM
  span : endM - startM ≤ env.maxSlotUnits * ((a.durationValue.getD 0) * 60)
  blocks : ∀ b ∈ db.activityBlocks.rows, b.activityId = dto.activityId → b.deletedAt = none →
    b.blockStart < buildDatetime dto.checkInDate endM →
    b.blockEnd > buildDatetime dto.checkInDate startM →
    ∃ slot ∈ slots, slot.slotStart ∈ ticks startM endM ∧
      b.blockStart ≤ buildDatetime dto.checkInDate slot.slotStart ∧
      buildDatetime dto.checkInDate slot.slotStart < b.blockEnd
  room : if a.hasUnits then
      UnitLeft a (windowBookings env db now dto.activityId
          (buildDatetime dto.checkInDate startM) (buildDatetime dto.checkInDate endM))
        (buildDatetime dto.checkInDate startM) (buildDatetime dto.checkInDate endM) dto.guests
    else ∀ capacity ∈ a.capacity, ∀ t, buildDatetime dto.checkInDate startM ≤ t →
      t < buildDatetime dto.checkInDate endM →
      (∀ slot ∈ slots, slot.slotStart ∈ ticks startM endM →
        buildDatetime dto.checkInDate slot.slotStart ≤ t →
        t < buildDatetime dto.checkInDate slot.slotEnd →
        seats dayBookings t < seats (windowBookings env db now dto.activityId
          (buildDatetime dto.checkInDate startM) (buildDatetime dto.checkInDate endM)) t) →
      seats (windowBookings env db now dto.activityId
        (buildDatetime dto.checkInDate startM) (buildDatetime dto.checkInDate endM)) t +
          dto.guests ≤ capacity

theorem slotsFrom_sorted (endMins slotDuration room t : Nat) :
    (slotsFrom endMins slotDuration room t).Pairwise (· < ·) := by
  induction room generalizing t with
  | zero => exact List.Pairwise.nil
  | succ room ih =>
      rw [slotsFrom]
      split
      · refine List.pairwise_cons.mpr ⟨fun m hm => ?_, ih (t + 30)⟩
        have hle := (mem_slotsFrom hm).1
        omega
      · exact List.Pairwise.nil

theorem computeSlots_nodup (checkInTime checkOutTime : ClockTime) (durationValue : Nat) :
    (computeSlots env checkInTime checkOutTime durationValue).Nodup := by
  simp only [computeSlots]
  split
  · exact List.nodup_nil
  · exact (slotsFrom_sorted _ _ _ _).imp fun h => h.ne

/-- The entry of a listed start is what its slot shows. -/
theorem availByStart_mem {p : HourRangePicker} {slot : HourlySlot}
    (hnodup : (p.slots.map HourlySlot.slotStart).Nodup) (hslot : slot ∈ p.slots) :
    p.availByStart slot.slotStart = availOf slot := by
  have hone : p.slots.filter (fun x => x.slotStart = slot.slotStart) = [slot] := by
    have hsub : ∀ l : List HourlySlot, (l.map HourlySlot.slotStart).Nodup → slot ∈ l →
        l.filter (fun x => x.slotStart = slot.slotStart) = [slot] := by
      intro l
      induction l with
      | nil => simp
      | cons x l ih =>
          intro hnodup hmem
          rw [List.map_cons, List.nodup_cons] at hnodup
          rcases List.mem_cons.mp hmem with rfl | hrest
          · rw [List.filter_cons_of_pos (by simp), List.filter_eq_nil_iff.mpr]
            intro y hy hsame
            exact hnodup.1 (List.mem_map.mpr ⟨y, hy, of_decide_eq_true hsame⟩)
          · have hne : x.slotStart ≠ slot.slotStart := fun h =>
              hnodup.1 (h ▸ List.mem_map_of_mem hrest)
            rw [List.filter_cons_of_neg (by simp [hne])]
            exact ih hnodup.2 hrest
    exact hsub p.slots hnodup hslot
  simp [HourRangePicker.availByStart, hone]

/-- Without units, a slot that does not lack seats leaves room at each of its instants. -/
theorem vacant_of_shown {dayBookings : List Booking} {s e : Instant} {guests capacity : Nat}
    (hse : s < e) (hguests : 0 < guests) {n : Int}
    (hshown : n = max 0 ((capacity : Int) - maxConcurrentInWindow dayBookings s e))
    (hle : ¬ n < guests) : Vacant dayBookings capacity s e guests := by
  refine (le_sub_peak_iff hse capacity).mp ?_
  rw [← offers_max hguests, ← hshown]
  omega

/-- The picker of the booking page, for the slots of a day. -/
def pickerOf (slots : List HourlySlot) (checkInTime checkOutTime : ClockTime)
    (durationValue guests : Nat) : HourRangePicker :=
  ⟨slots, checkInTime.val, checkOutTime.val, durationValue, guests, 24⟩

/-- The picker, the slots it was given and the request for a range of the day. -/
structure PickedRange (env : Env) (now : Instant) (db : Db) (a : Activity)
    (dto : CreateBookingDto) (slots : List HourlySlot)
    (checkInTime checkOutTime slotTime slotEndTime : ClockTime) (durationValue : Nat) :
    Prop where
  view : getHourlyAvailability env now db dto.activityId dto.checkInDate = .ok slots
  activity : db.activities.find? dto.activityId = some a
  checkIn : a.checkInTime = some checkInTime
  checkOut : a.checkOutTime = some checkOutTime
  duration : a.durationValue = some durationValue
  start : dto.slotTime = some slotTime
  stop : dto.slotEndTime = some slotEndTime

section Range

variable {tz : String} {dto : CreateBookingDto} {slots : List HourlySlot}
  {checkInTime checkOutTime slotTime slotEndTime : ClockTime} {durationValue : Nat}

/-- The slots of the view. -/
theorem PickedRange.slots_eq
    (h : PickedRange env now db a dto slots checkInTime checkOutTime slotTime slotEndTime
      durationValue) :
    a.bookingType = .hourly ∧ durationValue ≠ 0 ∧ ∃ zone, slots =
      (computeSlots env checkInTime checkOutTime durationValue).map
        (hourlySlot env now a zone dto.checkInDate durationValue
          (windowBookings env db now dto.activityId
            (buildDatetime dto.checkInDate checkInTime.val)
            (buildDatetime dto.checkInDate checkOutTime.val))
          (getBlocksInWindow db dto.activityId (buildDatetime dto.checkInDate checkInTime.val)
            (buildDatetime dto.checkInDate checkOutTime.val))) := by
  obtain ⟨a', checkInTime', checkOutTime', durationValue', ha, htype, hin, hout, hduration, hpos,
    hslots⟩ := getHourlyAvailability_ok h.view
  obtain rfl : a = a' := Option.some.inj (h.activity.symm.trans ha)
  obtain rfl : checkInTime = checkInTime' := Option.some.inj (h.checkIn.symm.trans hin)
  obtain rfl : checkOutTime = checkOutTime' := Option.some.inj (h.checkOut.symm.trans hout)
  obtain rfl : durationValue = durationValue' := Option.some.inj (h.duration.symm.trans hduration)
  exact ⟨htype, hpos, _, hslots⟩

/-- A block that covers the start of a listed slot flags it. -/
theorem PickedRange.flagged
    (h : PickedRange env now db a dto slots checkInTime checkOutTime slotTime slotEndTime
      durationValue)
    {slot : HourlySlot} (hslot : slot ∈ slots) {b : ActivityBlock}
    (hb : b ∈ db.activityBlocks.rows) (hid : b.activityId = dto.activityId)
    (hlive : b.deletedAt = none)
    (hstart : b.blockStart ≤ buildDatetime dto.checkInDate slot.slotStart)
    (hend : buildDatetime dto.checkInDate slot.slotStart < b.blockEnd) :
    slot.isBlocked = true := by
  obtain ⟨_, hpos, zone, rfl⟩ := h.slots_eq
  obtain ⟨m, hm, rfl⟩ := List.mem_map.mp hslot
  obtain ⟨hduration, hopen, hclose⟩ := mem_computeSlots hm
  refine List.any_eq_true.mpr ⟨b, Table.mem_select.mpr ⟨hb, ?_⟩, decide_eq_true ⟨hstart, hend⟩⟩
  have hopens := buildDatetime_mono dto.checkInDate hopen
  have hcloses := @buildDatetime_lt dto.checkInDate m checkOutTime.val (by omega)
  exact decide_eq_true ⟨hid, hlive, hstart.trans_lt hcloses, hopens.trans_lt hend⟩

/-- No block meets an enabled range when each that does would be seen in it. -/
theorem PickedRange.blockFree
    (h : PickedRange env now db a dto slots checkInTime checkOutTime slotTime slotEndTime
      durationValue)
    (henabled : (pickerOf slots checkInTime checkOutTime durationValue dto.guests).Enables
      slotTime.val slotEndTime.val)
    (hblocks : ∀ b ∈ db.activityBlocks.rows, b.activityId = dto.activityId → b.deletedAt = none →
      b.blockStart < buildDatetime dto.checkInDate slotEndTime.val →
      b.blockEnd > buildDatetime dto.checkInDate slotTime.val →
      ∃ slot ∈ slots, slot.slotStart ∈ ticks slotTime.val slotEndTime.val ∧
        b.blockStart ≤ buildDatetime dto.checkInDate slot.slotStart ∧
        buildDatetime dto.checkInDate slot.slotStart < b.blockEnd) :
    BlockFree db dto.activityId (buildDatetime dto.checkInDate slotTime.val,
      buildDatetime dto.checkInDate slotEndTime.val) := by
  rintro b hb ⟨hid, hlive, hstart, hend⟩
  obtain ⟨slot, hslot, htick, hcovers, hcovers'⟩ := hblocks b hb hid hlive hstart hend
  have hflag := h.flagged hslot hb hid hlive hcovers hcovers'
  have hvalid := of_decide_eq_true henabled.2.2.2
  have hfree := of_decide_eq_true (List.all_eq_true.mp hvalid.2.2.2.2.2 _ htick)
  exact hfree.2.1 (List.any_eq_true.mpr ⟨slot, hslot, decide_eq_true ⟨rfl, hflag⟩⟩)

/-- Without units, at an instant of a slot listed in an enabled range there is room beside
the bookings of the day view. -/
theorem PickedRange.seats_le
    (h : PickedRange env now db a dto slots checkInTime checkOutTime slotTime slotEndTime
      durationValue)
    (henabled : (pickerOf slots checkInTime checkOutTime durationValue dto.guests).Enables
      slotTime.val slotEndTime.val)
    (hhas : ¬ a.hasUnits = true) {capacity : Nat} (hcapacity : a.capacity = some capacity)
    {slot : HourlySlot} (hslot : slot ∈ slots)
    (htick : slot.slotStart ∈ ticks slotTime.val slotEndTime.val) {t : Instant}
    (hstart : buildDatetime dto.checkInDate slot.slotStart ≤ t)
    (hend : t < buildDatetime dto.checkInDate slot.slotEnd) :
    seats (windowBookings env db now dto.activityId
        (buildDatetime dto.checkInDate checkInTime.val)
        (buildDatetime dto.checkInDate checkOutTime.val)) t + dto.guests ≤ capacity := by
  obtain ⟨_, hpos, zone, hslots⟩ := h.slots_eq
  have hnodup : (slots.map HourlySlot.slotStart).Nodup := by
    rw [hslots, List.map_map]
    exact (List.map_id _).symm ▸ computeSlots_nodup checkInTime checkOutTime durationValue
  have hvalid := of_decide_eq_true henabled.2.2.2
  have hfree := (of_decide_eq_true (List.all_eq_true.mp hvalid.2.2.2.2.2 _ htick)).2.2
  have hentry := @availByStart_mem (pickerOf slots checkInTime checkOutTime durationValue
    dto.guests) slot hnodup hslot
  rw [hslots] at hslot
  obtain ⟨m, hm, rfl⟩ := List.mem_map.mp hslot
  have hse : buildDatetime dto.checkInDate m <
      buildDatetime dto.checkInDate (m + durationValue * 60) := buildDatetime_lt (by omega)
  have hno : ¬ (a.hasUnits = true ∧ a.unitCount > 0) := fun hu => hhas hu.1
  simp only [hourlySlot, availOf, hourlyRoom, if_neg hno, hcapacity, Option.map_some] at hentry
  refine vacant_of_shown hse dto.guests_pos rfl (fun hlt => hfree ?_) t hstart hend
  exact decide_eq_true ⟨_, hentry, hlt⟩

/-- **The picker enables what `createBooking` accepts exactly when it knows of all that
decides.** -/
theorem picker_sound_iff
    (h : PickedRange env now db a dto slots checkInTime checkOutTime slotTime slotEndTime
      durationValue) :
    ((pickerOf slots checkInTime checkOutTime durationValue dto.guests).Enables slotTime.val
        slotEndTime.val → AcceptsRange env now db a tz dto) ↔
      ((pickerOf slots checkInTime checkOutTime durationValue dto.guests).Enables slotTime.val
        slotEndTime.val → RangeKnown env now db a tz dto slots
          (windowBookings env db now dto.activityId
            (buildDatetime dto.checkInDate checkInTime.val)
            (buildDatetime dto.checkInDate checkOutTime.val))
          checkInTime.val slotTime.val slotEndTime.val) := by
  refine imp_congr_right fun henabled => ?_
  obtain ⟨htype, hpos, _⟩ := h.slots_eq
  have hvalid := of_decide_eq_true henabled.2.2.2
  simp only [pickerOf, HourRangePicker.unitMins] at hvalid
  obtain ⟨hopen, _, hgrid⟩ := mem_ticks.mp henabled.1
  obtain ⟨_, _, hgrid'⟩ := mem_ticks.mp henabled.2.1
  simp only [pickerOf] at hopen hgrid hgrid'
  have hrange : slotTime.val < slotEndTime.val := by omega
  have hse : buildDatetime dto.checkInDate slotTime.val <
      buildDatetime dto.checkInDate slotEndTime.val := buildDatetime_lt hrange
  have hblock : ∀ w, blockWindow a dto w = w := fun w => by simp [blockWindow, htype]
  constructor
  · rintro ⟨window, hwindow, hblocks, haccepts⟩
    obtain ⟨hstart, _, _, _, _, hmax, _, _, hahead, rfl⟩ :=
      (hourlyWindow_range h.start h.stop h.checkIn h.checkOut h.duration hpos).mp hwindow
    rw [hblock] at hblocks
    refine ⟨by omega, hahead, by simpa [h.duration] using hmax, ?_, ?_⟩
    · intro b hb hid hlive hbs hbe
      exact absurd ⟨hid, hlive, hbs, hbe⟩ (hblocks b hb)
    · by_cases hhas : a.hasUnits = true
      · rw [if_pos hhas]
        exact (accepts_iff_unitLeft hhas hse dto.guests_pos
          fun b hb => windowBookings_meet hb).mp haccepts
      · rw [if_neg hhas]
        have hvacant := (accepts_no_units (by simpa using hhas) hse).mp haccepts
        exact fun capacity hcapacity t hs he _ => hvacant capacity hcapacity t hs he
  · intro hknown
    have hspan : slotEndTime.val - slotTime.val ≤ env.maxSlotUnits * (durationValue * 60) := by
      simpa [h.duration] using hknown.span
    have hgrid0 := hknown.grid
    refine ⟨(buildDatetime dto.checkInDate slotTime.val,
      buildDatetime dto.checkInDate slotEndTime.val),
      (hourlyWindow_range h.start h.stop h.checkIn h.checkOut h.duration hpos).mpr
        ⟨by omega, by omega, hrange, hvalid.2.1, hvalid.2.2.1, hspan, hopen, hvalid.2.2.2.1,
          hknown.ahead, rfl⟩, ?_, ?_⟩
    · rw [hblock]
      exact h.blockFree henabled hknown.blocks
    · have hroom := hknown.room
      by_cases hhas : a.hasUnits = true
      · rw [if_pos hhas] at hroom
        exact (accepts_iff_unitLeft hhas hse dto.guests_pos
          fun b hb => windowBookings_meet hb).mpr hroom
      · rw [if_neg hhas] at hroom
        refine (accepts_no_units (by simpa using hhas) hse).mpr fun capacity hcapacity t hs he => ?_
        by_contra hfull
        refine hfull (hroom capacity hcapacity t hs he fun slot hslot htick hstart hend => ?_)
        have hle := h.seats_le henabled hhas hcapacity hslot htick hstart hend
        exact Nat.lt_of_add_lt_add_right (hle.trans_lt (not_le.mp hfull))

end Range

/-! ## A party over two units -/

theorem shortHall_nodup : ([shortHall].map fun a => Keyed.key a).Nodup := by
  decide

/-- One guest in each unit of the short hall, from ten to eleven. -/
def splitDb : Db :=
  { market.db with
    activities := ⟨[shortHall], shortHall_nodup⟩
    bookings := ⟨[
      { id := 20, ref := "A", activityId := 7, vendorId := 4, customerId := 1,
        unitNumber := some 1, startDatetime := buildDatetime ⟨1970, 1, 2⟩ 600,
        endDatetime := buildDatetime ⟨1970, 1, 2⟩ 660, guests := 1, status := .confirmed,
        createdAt := 0 },
      { id := 21, ref := "B", activityId := 7, vendorId := 4, customerId := 2,
        unitNumber := some 2, startDatetime := buildDatetime ⟨1970, 1, 2⟩ 600,
        endDatetime := buildDatetime ⟨1970, 1, 2⟩ 660, guests := 1, status := .confirmed,
        createdAt := 0 }], by decide⟩ }

/-- A party of two for that hour. -/
def splitRequest : CreateBookingDto where
  activityId := 7
  checkInDate := ⟨1970, 1, 2⟩
  slotTime := some 600
  slotEndTime := some 660
  guests := 2

/-- The picker shows the two seats left as a sum, and neither unit takes the party. -/
theorem split_range_refused :
    ∃ slots, getHourlyAvailability marketEnv 0 splitDb 7 ⟨1970, 1, 2⟩ = .ok slots ∧
      (pickerOf slots 600 660 1 2).Enables 600 660 ∧
      ¬ AcceptsRange marketEnv 0 splitDb shortHall "UTC" splitRequest := by
  have hview : (getHourlyAvailability marketEnv 0 splitDb 7 ⟨1970, 1, 2⟩).toOption.any
      (fun slots => (pickerOf slots 600 660 1 2).Enables 600 660) = true := by
    decide +kernel
  obtain ⟨slots, hslots, henabled⟩ := (Option.any_eq_true _ _).mp hview
  refine ⟨slots, toOption_eq_some.mp hslots, of_decide_eq_true henabled, ?_⟩
  have hwindow : hourlyWindow marketEnv 0 shortHall "UTC" splitRequest =
      .ok (buildDatetime ⟨1970, 1, 2⟩ 600, buildDatetime ⟨1970, 1, 2⟩ 660) := by
    decide +kernel
  rintro ⟨window, hw, _, haccepts⟩
  obtain rfl := Except.ok.inj (hwindow.symm.trans hw)
  exact absurd haccepts (by decide +kernel)

theorem split_picker_sound_iff :
    ∃ slots, getHourlyAvailability marketEnv 0 splitDb 7 ⟨1970, 1, 2⟩ = .ok slots ∧
      (((pickerOf slots 600 660 1 2).Enables 600 660 →
          AcceptsRange marketEnv 0 splitDb shortHall "UTC" splitRequest) ↔
        ((pickerOf slots 600 660 1 2).Enables 600 660 →
          RangeKnown marketEnv 0 splitDb shortHall "UTC" splitRequest slots
            (windowBookings marketEnv splitDb 0 7 (buildDatetime ⟨1970, 1, 2⟩ 600)
              (buildDatetime ⟨1970, 1, 2⟩ 660)) 600 600 660)) := by
  have hview : (getHourlyAvailability marketEnv 0 splitDb 7 ⟨1970, 1, 2⟩).toOption.isSome =
      true := by
    decide +kernel
  obtain ⟨slots, hslots⟩ := Option.isSome_iff_exists.mp hview
  exact ⟨slots, toOption_eq_some.mp hslots, @picker_sound_iff marketEnv shortHall splitDb 0 "UTC"
    splitRequest slots 600 660 600 660 1
    ⟨toOption_eq_some.mp hslots, rfl, rfl, rfl, rfl, rfl, rfl⟩⟩

end Jadwal
