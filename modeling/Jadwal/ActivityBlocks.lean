import Jadwal.ListedSlots
import Jadwal.Lib.Numeral

/-!
# Locking an activity

`createActivityBlockCore` turns a request into rows of `activity_blocks`:
whole days, weekdays repeated for six months, or single hours.  It checks each
row against the stored blocks, inserts them all under the table's exclusion
constraint, and counts the bookings the new rows hit.

* The rows of whole days and weekdays never trip the constraint.  The hours of
  one request are not compared with each other, and two picked half an hour
  apart overlap (`blocks_admitted_iff`).
* The count is that of the bookings `createBooking` would now refuse, but for
  bookings that begin before a locked hour and stays that leave on a locked
  day (`affectedBookings_eq_iff`).
-/

namespace Jadwal

open Outcome Decimal

/-! ## The request -/

structure CreateActivityBlockDto where
  date : CivilDate
  endDate : Option CivilDate := none
  slotTimes : List ClockTime := []
  repeatWeekly : Bool := false
  deriving DecidableEq, Repr

/-- The window of a block. -/
structure BlockWindow where
  blockStart : Instant
  blockEnd : Instant
  deriving DecidableEq, Repr

def ActivityBlock.window (b : ActivityBlock) : BlockWindow := ⟨b.blockStart, b.blockEnd⟩

/-- `BLOCK_MAX_ADVANCE_MONTHS`. -/
def blockMaxAdvanceMonths : Int := 6

/-- A block of the list meets the window. -/
def blockedBy (blocks : List ActivityBlock) (w : BlockWindow) : Bool :=
  blocks.any (fun b => b.blockStart < w.blockEnd ∧ b.blockEnd > w.blockStart)

/-- The whole day of that number. -/
def dayWindow (d : Int) : BlockWindow := ⟨d * day, d * day + day⟩

/-- The hour from a start time. -/
def hourWindow (date : CivilDate) (t : ClockTime) : BlockWindow :=
  ⟨buildDatetime date t.val, buildDatetime date t.val + hour⟩

/-- The day numbers from the first to the last. -/
def daysFrom (first last : Int) : List Int :=
  (List.range (last - first + 1).toNat).map (fun i : Nat => first + (i : Int))

/-- `HH:MM` -/
def clockText (t : ClockTime) : String :=
  String.ofList (padded 2 (t.val / 60) ++ ':' :: padded 2 (t.val % 60))

/-- The rows to insert, by the kind of request. -/
inductive BlockPlan
  | weekly (rangeStart : Instant) (rows : List BlockWindow)
  | slots (rows : List BlockWindow)
  | wholeDay (row : BlockWindow)
  deriving DecidableEq, Repr

def BlockPlan.rows : BlockPlan → List BlockWindow
  | weekly _ rows | slots rows => rows
  | wholeDay row => [row]

/-- What the database's refusal is reported as. -/
def BlockPlan.overlapError : BlockPlan → HttpError
  | weekly .. => .conflict "Those weekdays overlap an existing block"
  | slots .. => .conflict "Those times overlap an existing block"
  | wholeDay .. => .conflict "This date overlaps an existing block"

/-- The last day of the sixth month ahead, as a day number. -/
def weeklyHorizon (date : CivilDate) : Int :=
  let sixMonthsOut := date.addMonthsClamped blockMaxAdvanceMonths
  (CivilDate.mk sixMonthsOut.year sixMonthsOut.month
    (CivilDate.lastDayOfMonth sixMonthsOut.year sixMonthsOut.month)).toDays

/-- `repeatWeekly`: every weekday of the range, through the sixth month ahead. -/
def weeklyPlan (now : Instant) (db : Db) (activity : Activity) (dto : CreateActivityBlockDto) :
    Tx BlockPlan := do
  ensure (dto.slotTimes = []) (.badRequest
    "A repeat-weekly block covers the whole day — remove the specific times")
  let first := dto.date.toDays
  let weekdays := (daysFrom first (dto.endDate.getD dto.date).toDays).map (fun d => (d + 4) % 7)
  let horizon := weeklyHorizon dto.date
  let existing := getBlocksInWindow db activity.id (first * day) (horizon * day + day)
  let rows := ((daysFrom first horizon).filter (fun d => (d + 4) % 7 ∈ weekdays ∧
    now < (dayWindow d).blockEnd ∧ ¬ blockedBy existing (dayWindow d))).map dayWindow
  ensure (rows ≠ []) (.conflict "Those weekdays are already blocked for this period")
  return .weekly (first * day) rows

/-- Hours of one day, each from a bookable start. -/
def slotPlan (env : Env) (now : Instant) (db : Db) (activity : Activity)
    (dto : CreateActivityBlockDto) : Tx BlockPlan := do
  ensure (activity.bookingType = .hourly) (.badRequest
    "Specific time slots can only be locked on an hourly activity")
  ensure (∀ e ∈ dto.endDate, e = dto.date) (.badRequest
    "Time-slot locks apply to a single date")
  let incomplete := HttpError.badRequest "Activity time configuration is incomplete"
  let checkInTime ← orThrow activity.checkInTime incomplete
  let checkOutTime ← orThrow activity.checkOutTime incomplete
  let durationValue ← orThrow (activity.durationValue.filter (fun n => n ≠ 0)) incomplete
  let validSlots := computeSlots env checkInTime checkOutTime durationValue
  let uniqueTimes := dto.slotTimes.eraseDups
  match uniqueTimes.find? (fun t => t.val ∉ validSlots) with
  | some t => throw (.badRequest
      (clockText t ++ " is not a bookable start time for this activity"))
  | none =>
      let dayStart := dto.date.midnight
      let existing := getBlocksInWindow db activity.id dayStart (dayStart + day)
      let rows := (uniqueTimes.filter (fun t => now < (hourWindow dto.date t).blockEnd ∧
        ¬ blockedBy existing (hourWindow dto.date t))).map (hourWindow dto.date)
      ensure (rows ≠ []) (.conflict "Those times are already locked (or in the past)")
      return .slots rows

def wholeDayPlan (now : Instant) (db : Db) (activity : Activity) (dto : CreateActivityBlockDto) :
    Tx BlockPlan := do
  let row : BlockWindow :=
    ⟨dto.date.midnight, (dto.endDate.getD dto.date).midnight + day⟩
  ensure (now < row.blockEnd) (.badRequest "Cannot block a date that has already passed")
  ensure (getBlocksInWindow db activity.id row.blockStart row.blockEnd = [])
    (.conflict "This date overlaps an existing block")
  return .wholeDay row

/-- `createActivityBlockCore` up to its insert. -/
def blockPlan (env : Env) (now : Instant) (db : Db) (activity : Activity)
    (dto : CreateActivityBlockDto) : Tx BlockPlan := do
  ensure dto.date.isValid (.badRequest "Invalid date")
  ensure (∀ e ∈ dto.endDate, e.isValid) (.badRequest "Invalid end date")
  ensure (∀ e ∈ dto.endDate, dto.date.key ≤ e.key)
    (.badRequest "endDate must be on or after date")
  let maxAhead := (utcDate now).addMonthsClamped blockMaxAdvanceMonths
  ensure (dto.date.key ≤ maxAhead.key ∧ ∀ e ∈ dto.endDate, e.key ≤ maxAhead.key)
    (.badRequest "Cannot block more than 6 months ahead")
  if dto.repeatWeekly then weeklyPlan now db activity dto
  else if dto.slotTimes ≠ [] then slotPlan env now db activity dto
  else wholeDayPlan now db activity dto

/-! ## The table and its constraint -/

/-- `tsrange(a) && tsrange(b)` of two half-open ranges. -/
def rangesMeet (a b : BlockWindow) : Bool :=
  max a.blockStart b.blockStart < min a.blockEnd b.blockEnd

/-- Two rows the exclusion constraint does not admit together. -/
def Excludes (a b : ActivityBlock) : Prop :=
  a.activityId = b.activityId ∧ a.deletedAt = none ∧ b.deletedAt = none ∧
    rangesMeet a.window b.window = true

instance (a b : ActivityBlock) : Decidable (Excludes a b) :=
  inferInstanceAs (Decidable (_ ∧ _ ∧ _ ∧ _))

/-- `activity_blocks_no_overlap` -/
def NoOverlap (blocks : List ActivityBlock) : Prop :=
  blocks.Pairwise (fun a b => ¬ Excludes a b)

/-- Inserts one row, unless the constraint refuses it. -/
def insertBlock (activity : Activity) (db : Db) (w : BlockWindow) : Option Db :=
  let block : ActivityBlock :=
    { id := db.nextId, activityId := activity.id, vendorId := activity.vendorId,
      blockStart := w.blockStart, blockEnd := w.blockEnd }
  if db.activityBlocks.rows.any (fun b => Excludes b block) then none
  else (db.activityBlocks.insert? block).map (fun blocks =>
    { db with activityBlocks := blocks, nextId := db.nextId + 1 })

/-- `createMany`, one statement: all the rows or none. -/
def createManyBlocks (activity : Activity) : Db → List BlockWindow → Option Db
  | db, [] => some db
  | db, w :: rows => (insertBlock activity db w).bind (fun db => createManyBlocks activity db rows)

/-- The bookings a plan counts: those that meet a whole day, or begin in a
locked hour. -/
def BlockPlan.affectedBookings (now : Instant) (db : Db) (activity : Activity) (plan : BlockPlan) :
    Nat :=
  let live := db.bookings.select (fun b => b.activityId = activity.id ∧ activeBookingFilter now b)
  match plan with
  | weekly rangeStart rows =>
      let lastRowEnd := (rows.getLast?.map BlockWindow.blockEnd).getD 0
      ((live.filter (fun b => b.startDatetime < lastRowEnd ∧ b.endDatetime > rangeStart)).filter
        (fun b => rows.any (fun r =>
          r.blockStart < b.endDatetime ∧ r.blockEnd > b.startDatetime))).length
  | slots rows =>
      let first := rows.headD ⟨0, 0⟩
      let earliest := (rows.map BlockWindow.blockStart).foldl min first.blockStart
      let latestEnd := (rows.map BlockWindow.blockEnd).foldl max first.blockEnd
      ((live.filter (fun b => b.startDatetime ≥ earliest ∧ b.startDatetime < latestEnd)).filter
        (fun b => rows.any (fun r =>
          b.startDatetime ≥ r.blockStart ∧ b.startDatetime < r.blockEnd))).length
  | wholeDay row =>
      (live.filter (fun b =>
        b.startDatetime < row.blockEnd ∧ b.endDatetime > row.blockStart)).length

/-- The rows are inserted and the bookings they hit counted. -/
def createActivityBlockCore (env : Env) (now : Instant) (db : Db) (activity : Activity)
    (dto : CreateActivityBlockDto) : Tx (Db × Nat) := do
  let plan ← blockPlan env now db activity dto
  let db ← orThrow (createManyBlocks activity db plan.rows) plan.overlapError
  return (db, plan.affectedBookings now db activity)

/-! ## The windows asked for -/

/-- The window is still to come and no stored block of the activity meets it. -/
def StillOpen (now : Instant) (db : Db) (activity : Activity) (w : BlockWindow) : Prop :=
  now < w.blockEnd ∧ BlockFree db activity.id (w.blockStart, w.blockEnd)

/-- The windows a request asks for and does not find locked. -/
def NewWindow (now : Instant) (db : Db) (activity : Activity) (dto : CreateActivityBlockDto)
    (w : BlockWindow) : Prop :=
  if dto.repeatWeekly then
    ∃ d, dto.date.toDays ≤ d ∧ d ≤ weeklyHorizon dto.date ∧
      (∃ picked, dto.date.toDays ≤ picked ∧ picked ≤ (dto.endDate.getD dto.date).toDays ∧
        (picked + 4) % 7 = (d + 4) % 7) ∧
      w = dayWindow d ∧ StillOpen now db activity w
  else if dto.slotTimes ≠ [] then
    ∃ t ∈ dto.slotTimes, w = hourWindow dto.date t ∧ StillOpen now db activity w
  else w = ⟨dto.date.midnight, (dto.endDate.getD dto.date).midnight + day⟩

variable {env : Env} {now : Instant} {db db' : Db} {activity : Activity}
  {dto : CreateActivityBlockDto} {plan : BlockPlan}

theorem mem_daysFrom {first last d : Int} : d ∈ daysFrom first last ↔ first ≤ d ∧ d ≤ last := by
  simp only [daysFrom, List.mem_map, List.mem_range]
  constructor
  · rintro ⟨i, hi, rfl⟩
    omega
  · rintro ⟨hle, hle'⟩
    exact ⟨(d - first).toNat, by omega, by omega⟩

theorem daysFrom_sorted (first last : Int) : (daysFrom first last).Pairwise (· < ·) := by
  refine List.pairwise_map.mpr (List.pairwise_lt_range.imp fun h => ?_)
  omega

/-- Reading the blocks of a wider window is enough to find those of a row. -/
theorem blockedBy_window {lo hi : Instant} {w : BlockWindow} (hlo : lo ≤ w.blockStart)
    (hhi : w.blockEnd ≤ hi) :
    blockedBy (getBlocksInWindow db activity.id lo hi) w = false ↔
      BlockFree db activity.id (w.blockStart, w.blockEnd) := by
  rw [blockedBy, Bool.eq_false_iff, ne_eq, List.any_eq_true]
  constructor
  · intro hnone b hb hmeets
    obtain ⟨hid, hactive, hstart, hend⟩ := hmeets
    refine hnone ⟨b, ?_, by simp [hstart, hend]⟩
    simp only [getBlocksInWindow, Table.select, List.mem_filter, decide_eq_true_eq]
    exact ⟨hb, hid, hactive, lt_of_lt_of_le hstart hhi, lt_of_le_of_lt hlo hend⟩
  · rintro hfree ⟨b, hb, hmeets⟩
    simp only [getBlocksInWindow, Table.select, List.mem_filter, decide_eq_true_eq] at hb
    obtain ⟨hrow, hid, hactive, _, _⟩ := hb
    obtain ⟨hstart, hend⟩ := of_decide_eq_true hmeets
    exact hfree b hrow ⟨hid, hactive, hstart, hend⟩

theorem mem_eraseDups_nodup {α : Type} [BEq α] [LawfulBEq α] (l : List α) :
    l.eraseDups.Nodup := by
  obtain ⟨n, hn⟩ : ∃ n, l.length ≤ n := ⟨_, le_rfl⟩
  induction n generalizing l with
  | zero =>
      obtain rfl := List.length_eq_zero_iff.mp (Nat.le_zero.mp hn)
      exact List.nodup_nil
  | succ n ih =>
      cases l with
      | nil => exact List.nodup_nil
      | cons a l =>
          rw [List.eraseDups_cons, List.nodup_cons]
          refine ⟨fun hmem => ?_, ih _ ?_⟩
          · have hfilter := List.mem_filter.mp (List.mem_eraseDups.mp hmem)
            simp at hfilter
          · exact (List.length_filter_le _ _).trans (by simpa using hn)

theorem dayWindow_within {first d last : Int} (hfirst : first ≤ d) (hlast : d ≤ last) :
    first * day ≤ (dayWindow d).blockStart ∧ (dayWindow d).blockEnd ≤ last * day + day := by
  have hday : (day : Int) = 86400000 := by decide
  simp only [dayWindow, hday]
  constructor <;> lia

/-- An hour that ends by closing lies within its day. -/
theorem hourWindow_within {date : CivilDate} {t : ClockTime} (h : t.val + 60 ≤ 1440) :
    date.midnight ≤ (hourWindow date t).blockStart ∧
      (hourWindow date t).blockEnd ≤ date.midnight + day := by
  have hday : (day : Int) = 86400000 := by decide
  have hminute : (minute : Int) = 60000 := by decide
  have hhour : (hour : Int) = 3600000 := by decide
  simp only [hourWindow, buildDatetime, hday, hminute, hhour]
  constructor <;> lia

/-- Weekdays are inserted in the order of the calendar, as the request asks. -/
theorem weeklyPlan_ok (h : weeklyPlan now db activity dto = .ok plan) :
    ∃ days : List Int, plan = .weekly (dto.date.toDays * day) (days.map dayWindow) ∧
      days ≠ [] ∧ days.Pairwise (· < ·) ∧
      ∀ d, d ∈ days ↔ dto.date.toDays ≤ d ∧ d ≤ weeklyHorizon dto.date ∧
        (∃ picked, dto.date.toDays ≤ picked ∧
          picked ≤ (dto.endDate.getD dto.date).toDays ∧ (picked + 4) % 7 = (d + 4) % 7) ∧
        StillOpen now db activity (dayWindow d) := by
  simp only [weeklyPlan, bind_eq_ok, ensure_eq_ok, pure_eq_ok] at h
  obtain ⟨_, _, _, hrows, rfl⟩ := h
  refine ⟨_, rfl, fun hnil => hrows (by rw [hnil, List.map_nil]),
    (daysFrom_sorted _ _).filter _, fun d => ?_⟩
  rw [List.mem_filter, mem_daysFrom, decide_eq_true_eq, List.mem_map]
  constructor
  · rintro ⟨⟨hfirst, hlast⟩, ⟨picked, hpicked, hday⟩, hnow, hblocked⟩
    obtain ⟨hp, hp'⟩ := mem_daysFrom.mp hpicked
    obtain ⟨hlo, hhi⟩ := dayWindow_within hfirst hlast
    exact ⟨hfirst, hlast, ⟨picked, hp, hp', hday⟩, hnow,
      (blockedBy_window hlo hhi).mp (Bool.eq_false_iff.mpr hblocked)⟩
  · rintro ⟨hfirst, hlast, ⟨picked, hp, hp', hday⟩, hnow, hfree⟩
    obtain ⟨hlo, hhi⟩ := dayWindow_within hfirst hlast
    exact ⟨⟨hfirst, hlast⟩, ⟨picked, mem_daysFrom.mpr ⟨hp, hp'⟩, hday⟩, hnow,
      Bool.eq_false_iff.mp ((blockedBy_window hlo hhi).mpr hfree)⟩

/-- Each picked time is inserted once, if it is still to come and free. -/
theorem slotPlan_ok (h : slotPlan env now db activity dto = .ok plan) :
    activity.bookingType = .hourly ∧
    ∃ times : List ClockTime, plan = .slots (times.map (hourWindow dto.date)) ∧
      times ≠ [] ∧ times.Nodup ∧
      ∀ t, t ∈ times ↔ t ∈ dto.slotTimes ∧ StillOpen now db activity (hourWindow dto.date t) := by
  simp only [slotPlan, bind_eq_ok, ensure_eq_ok, orThrow_eq_ok] at h
  obtain ⟨_, hhourly, _, _, checkIn, _, checkOut, _, duration, hduration, h⟩ := h
  split at h
  · simp at h
  · rename_i hvalid
    simp only [bind_eq_ok, ensure_eq_ok, pure_eq_ok] at h
    obtain ⟨_, hrows, rfl⟩ := h
    have hclose : ∀ t ∈ dto.slotTimes, t.val + 60 ≤ 1440 := by
      intro t ht
      have hlisted := List.find?_eq_none.mp hvalid t (List.mem_eraseDups.mpr ht)
      obtain ⟨hpos, _, hend⟩ := mem_computeSlots (not_not.mp (by simpa using hlisted))
      have hlt := checkOut.isLt
      omega
    refine ⟨hhourly, _, rfl, fun hnil => hrows (by rw [hnil, List.map_nil]),
      (mem_eraseDups_nodup _).filter _, fun t => ?_⟩
    rw [List.mem_filter, List.mem_eraseDups, decide_eq_true_eq]
    constructor
    · rintro ⟨ht, hnow, hblocked⟩
      obtain ⟨hlo, hhi⟩ := hourWindow_within (hclose t ht)
      exact ⟨ht, hnow, (blockedBy_window hlo hhi).mp (Bool.eq_false_iff.mpr hblocked)⟩
    · rintro ⟨ht, hnow, hfree⟩
      obtain ⟨hlo, hhi⟩ := hourWindow_within (hclose t ht)
      exact ⟨ht, hnow, Bool.eq_false_iff.mp ((blockedBy_window hlo hhi).mpr hfree)⟩

theorem wholeDayPlan_ok (h : wholeDayPlan now db activity dto = .ok plan) :
    plan = .wholeDay ⟨dto.date.midnight, (dto.endDate.getD dto.date).midnight + day⟩ ∧
      StillOpen now db activity
        ⟨dto.date.midnight, (dto.endDate.getD dto.date).midnight + day⟩ := by
  simp only [wholeDayPlan, bind_eq_ok, ensure_eq_ok, pure_eq_ok] at h
  obtain ⟨_, hnow, _, hnone, rfl⟩ := h
  exact ⟨rfl, hnow, getBlocksInWindow_eq_nil.mp hnone⟩

/-- **Which of the three plans a request gets.** -/
theorem blockPlan_ok (h : blockPlan env now db activity dto = .ok plan) :
    (dto.repeatWeekly = true ∧ weeklyPlan now db activity dto = .ok plan) ∨
    (dto.repeatWeekly = false ∧ dto.slotTimes ≠ [] ∧
      slotPlan env now db activity dto = .ok plan) ∨
    (dto.repeatWeekly = false ∧ dto.slotTimes = [] ∧
      wholeDayPlan now db activity dto = .ok plan) := by
  simp only [blockPlan, bind_eq_ok, ensure_eq_ok] at h
  obtain ⟨_, _, _, _, _, _, _, _, h⟩ := h
  split at h
  case isTrue hweekly => exact .inl ⟨hweekly, h⟩
  case isFalse hweekly =>
    have hweekly' : dto.repeatWeekly = false := by simpa using hweekly
    split at h
    case isTrue hslots => exact .inr (.inl ⟨hweekly', hslots, h⟩)
    case isFalse hslots => exact .inr (.inr ⟨hweekly', not_not.mp hslots, h⟩)

/-- **The rows are the windows asked for** that are still open. -/
theorem mem_rows_iff (h : blockPlan env now db activity dto = .ok plan) {w : BlockWindow} :
    w ∈ plan.rows ↔ NewWindow now db activity dto w := by
  rcases blockPlan_ok h with ⟨hweekly, h⟩ | ⟨hweekly, hslots, h⟩ | ⟨hweekly, hslots, h⟩
  · obtain ⟨days, rfl, _, _, hdays⟩ := weeklyPlan_ok h
    rw [NewWindow, if_pos hweekly, BlockPlan.rows, List.mem_map]
    constructor
    · rintro ⟨d, hd, rfl⟩
      obtain ⟨hfirst, hlast, hpicked, hopen⟩ := (hdays d).mp hd
      exact ⟨d, hfirst, hlast, hpicked, rfl, hopen⟩
    · rintro ⟨d, hfirst, hlast, hpicked, rfl, hopen⟩
      exact ⟨d, (hdays d).mpr ⟨hfirst, hlast, hpicked, hopen⟩, rfl⟩
  · obtain ⟨_, times, rfl, _, _, htimes⟩ := slotPlan_ok h
    rw [NewWindow, if_neg (by simp [hweekly]), if_pos hslots, BlockPlan.rows, List.mem_map]
    constructor
    · rintro ⟨t, ht, rfl⟩
      obtain ⟨hpicked, hopen⟩ := (htimes t).mp ht
      exact ⟨t, hpicked, rfl, hopen⟩
    · rintro ⟨t, hpicked, rfl, hopen⟩
      exact ⟨t, (htimes t).mpr ⟨hpicked, hopen⟩, rfl⟩
  · obtain ⟨rfl, _⟩ := wholeDayPlan_ok h
    rw [NewWindow, if_neg (by simp [hweekly]), if_neg (not_not.mpr hslots), BlockPlan.rows,
      List.mem_singleton]

/-- Every row is still to come and clear of the stored blocks. -/
theorem rows_open (h : blockPlan env now db activity dto = .ok plan) {w : BlockWindow}
    (hw : w ∈ plan.rows) : StillOpen now db activity w := by
  rcases blockPlan_ok h with ⟨_, h⟩ | ⟨_, _, h⟩ | ⟨_, _, h⟩
  · obtain ⟨days, rfl, _, _, hdays⟩ := weeklyPlan_ok h
    obtain ⟨d, hd, rfl⟩ := List.mem_map.mp hw
    exact ((hdays d).mp hd).2.2.2
  · obtain ⟨_, times, rfl, _, _, htimes⟩ := slotPlan_ok h
    obtain ⟨t, ht, rfl⟩ := List.mem_map.mp hw
    exact ((htimes t).mp ht).2
  · obtain ⟨rfl, hopen⟩ := wholeDayPlan_ok h
    obtain rfl := List.mem_singleton.mp hw
    exact hopen

/-! ## Inserting under the constraint -/

/-- A stored set of blocks: the constraint holds, and ids are handed out in turn. -/
structure BlocksStored (db : Db) : Prop where
  noOverlap : NoOverlap db.activityBlocks.rows
  known : ∀ b ∈ db.activityBlocks.rows, b.id < db.nextId

/-- No active block of the activity shares an instant with the window. -/
def AdmitsWindow (db : Db) (activity : Activity) (w : BlockWindow) : Prop :=
  ∀ b ∈ db.activityBlocks.rows, b.activityId = activity.id → b.deletedAt = none →
    rangesMeet b.window w = false

/-- The row of a window. -/
def blockRow (db : Db) (activity : Activity) (w : BlockWindow) : ActivityBlock :=
  { id := db.nextId, activityId := activity.id, vendorId := activity.vendorId,
    blockStart := w.blockStart, blockEnd := w.blockEnd }

theorem excludes_blockRow {b : ActivityBlock} {w : BlockWindow} :
    Excludes b (blockRow db activity w) ↔ b.activityId = activity.id ∧ b.deletedAt = none ∧
      rangesMeet b.window w = true := by
  constructor
  · rintro ⟨hid, hactive, _, hmeets⟩
    exact ⟨hid, hactive, hmeets⟩
  · rintro ⟨hid, hactive, hmeets⟩
    exact ⟨hid, hactive, rfl, hmeets⟩

theorem admits_iff {w : BlockWindow} : AdmitsWindow db activity w ↔
    ∀ b ∈ db.activityBlocks.rows, ¬ Excludes b (blockRow db activity w) := by
  constructor
  · intro h b hb hexcludes
    obtain ⟨hid, hactive, hmeets⟩ := excludes_blockRow.mp hexcludes
    rw [h b hb hid hactive] at hmeets
    exact nomatch hmeets
  · intro h b hb hid hactive
    by_contra hmeets
    exact h b hb (excludes_blockRow.mpr ⟨hid, hactive, by simpa using hmeets⟩)

theorem BlocksStored.fresh (hstored : BlocksStored db) (w : BlockWindow) :
    Keyed.key (blockRow db activity w) ∉ db.activityBlocks.rows.map Keyed.key := by
  intro hmem
  obtain ⟨b, hb, hkey⟩ := List.mem_map.mp hmem
  exact (hstored.known b hb).ne hkey

/-- **One insert**: it goes through when the constraint admits it, and appends its row. -/
theorem insertBlock_some (hstored : BlocksStored db) {w : BlockWindow} :
    insertBlock activity db w = some db' ↔ AdmitsWindow db activity w ∧
      db'.activityBlocks.rows = db.activityBlocks.rows ++ [blockRow db activity w] ∧
      db' = { db with activityBlocks := db'.activityBlocks, nextId := db.nextId + 1 } := by
  have hany : db.activityBlocks.rows.any
      (fun b => Excludes b (blockRow db activity w)) = true ↔ ¬ AdmitsWindow db activity w := by
    rw [admits_iff, List.any_eq_true]
    simp
  change (if db.activityBlocks.rows.any (fun b => Excludes b (blockRow db activity w)) then none
    else (db.activityBlocks.insert? (blockRow db activity w)).map _) = some db' ↔ _
  split
  case isTrue hrefused =>
    simp [hany.mp hrefused]
  case isFalse hfree =>
    have hadmits : AdmitsWindow db activity w := not_not.mp fun h => hfree (hany.mpr h)
    rw [Option.map_eq_some_iff]
    constructor
    · rintro ⟨blocks, hinsert, rfl⟩
      exact ⟨hadmits, (Table.insert?_eq_some.mp hinsert).2, rfl⟩
    · rintro ⟨_, hrows, hdb⟩
      exact ⟨db'.activityBlocks, Table.insert?_eq_some.mpr ⟨hstored.fresh w, hrows⟩, hdb.symm⟩

/-- An insert keeps the constraint. -/
theorem BlocksStored.insert (hstored : BlocksStored db) {w : BlockWindow}
    (h : insertBlock activity db w = some db') : BlocksStored db' := by
  obtain ⟨hadmits, hrows, hdb⟩ := (insertBlock_some hstored).mp h
  have hnext : db'.nextId = db.nextId + 1 := by rw [hdb]
  constructor
  · rw [hrows]
    refine List.pairwise_append.mpr ⟨hstored.noOverlap, List.pairwise_singleton _ _, ?_⟩
    intro b hb c hc
    obtain rfl := List.mem_singleton.mp hc
    exact admits_iff.mp hadmits b hb
  · intro b hb
    rw [hrows] at hb
    rw [hnext]
    rcases List.mem_append.mp hb with hold | hnew
    · exact Nat.lt_succ_of_lt (hstored.known b hold)
    · obtain rfl := List.mem_singleton.mp hnew
      exact Nat.lt_succ_self _

/-- **Many inserts** go through when each window is admitted by the stored blocks and no two
meet. -/
theorem createManyBlocks_some {rows : List BlockWindow} (hstored : BlocksStored db) :
    (∃ db', createManyBlocks activity db rows = some db' ∧ BlocksStored db') ↔
      (∀ w ∈ rows, AdmitsWindow db activity w) ∧
        rows.Pairwise (fun w w' => rangesMeet w w' = false) := by
  induction rows generalizing db with
  | nil => simp [createManyBlocks, hstored]
  | cons w rows ih =>
      rw [List.forall_mem_cons, List.pairwise_cons]
      constructor
      · rintro ⟨db₂, hmany, hstored₂⟩
        simp only [createManyBlocks, Option.bind_eq_some_iff] at hmany
        obtain ⟨db₁, hone, hmany⟩ := hmany
        obtain ⟨hadmits, hrows, _⟩ := (insertBlock_some hstored).mp hone
        obtain ⟨hrest, hpairs⟩ := (ih (hstored.insert hone)).mp ⟨db₂, hmany, hstored₂⟩
        refine ⟨⟨hadmits, fun w' hw' b hb => ?_⟩, fun w' hw' => ?_, hpairs⟩
        · exact hrest w' hw' b (hrows ▸ List.mem_append_left _ hb)
        · exact hrest w' hw' (blockRow db activity w)
            (hrows ▸ List.mem_append_right _ (List.mem_singleton_self _)) rfl rfl
      · rintro ⟨⟨hadmits, hrest⟩, hfirst, hpairs⟩
        obtain ⟨db₁, hone⟩ : ∃ db₁, insertBlock activity db w = some db₁ := by
          obtain ⟨blocks, hinsert⟩ : ∃ blocks,
              db.activityBlocks.insert? (blockRow db activity w) = some blocks := by
            simp only [Table.insert?, hstored.fresh w, dite_false]
            exact ⟨_, rfl⟩
          exact ⟨{ db with activityBlocks := blocks, nextId := db.nextId + 1 },
            (insertBlock_some hstored).mpr
              ⟨hadmits, (Table.insert?_eq_some.mp hinsert).2, rfl⟩⟩
        obtain ⟨_, hrows, _⟩ := (insertBlock_some hstored).mp hone
        have hadmitsRest : ∀ w' ∈ rows, AdmitsWindow db₁ activity w' := by
          intro w' hw' b hb hid hactive
          rw [hrows] at hb
          rcases List.mem_append.mp hb with hold | hnew
          · exact hrest w' hw' b hold hid hactive
          · obtain rfl := List.mem_singleton.mp hnew
            exact hfirst w' hw'
        obtain ⟨db₂, hmany, hstored₂⟩ := (ih (hstored.insert hone)).mpr ⟨hadmitsRest, hpairs⟩
        refine ⟨db₂, ?_, hstored₂⟩
        rw [createManyBlocks, hone, Option.bind_some, hmany]

/-! ## What the constraint makes of a request -/

/-- Two hours of one request, half an hour apart, both still open. -/
def CloseHours (now : Instant) (db : Db) (activity : Activity) (dto : CreateActivityBlockDto) :
    Prop :=
  dto.repeatWeekly = false ∧ ∃ t ∈ dto.slotTimes, ∃ t' ∈ dto.slotTimes,
    t < t' ∧ t'.val < t.val + 60 ∧ StillOpen now db activity (hourWindow dto.date t) ∧
      StillOpen now db activity (hourWindow dto.date t')

theorem rangesMeet_eq_false {a b : BlockWindow} (h : a.blockEnd ≤ b.blockStart) :
    rangesMeet a b = false := by
  rw [rangesMeet, decide_eq_false_iff_not, not_lt]
  exact (min_le_left _ _).trans (h.trans (le_max_right _ _))

theorem rangesMeet_symm (a b : BlockWindow) : rangesMeet a b = rangesMeet b a := by
  rw [rangesMeet, rangesMeet, max_comm, min_comm]

/-- The locks of two hours meet when the hours are less than an hour apart. -/
theorem rangesMeet_hours {date : CivilDate} {t t' : ClockTime} (h : t < t') :
    rangesMeet (hourWindow date t) (hourWindow date t') = true ↔ t'.val < t.val + 60 := by
  have hminute : (minute : Int) = 60000 := by decide
  have hhour : (hour : Int) = 3600000 := by decide
  have hlt : t.val < t'.val := h
  simp only [rangesMeet, hourWindow, buildDatetime, hminute, hhour, decide_eq_true_eq]
  constructor
  · intro hmeets
    have hstart := lt_of_le_of_lt (le_max_right _ _) (lt_of_lt_of_le hmeets (min_le_left _ _))
    lia
  · intro hclose
    refine max_lt (lt_min ?_ ?_) (lt_min ?_ ?_) <;> lia

/-- A window no stored block meets is admitted by the constraint. -/
theorem BlockFree.admits {w : BlockWindow}
    (h : BlockFree db activity.id (w.blockStart, w.blockEnd)) : AdmitsWindow db activity w := by
  intro b hb hid hactive
  rw [rangesMeet, decide_eq_false_iff_not]
  intro hmeets
  refine h b hb ⟨hid, hactive, ?_, ?_⟩
  · exact lt_of_le_of_lt (le_max_left _ _) (lt_of_lt_of_le hmeets (min_le_right _ _))
  · exact lt_of_le_of_lt (le_max_right _ _) (lt_of_lt_of_le hmeets (min_le_left _ _))

/-- **The rows of a request keep clear of each other** unless it picks close hours. -/
theorem rows_pairwise_iff (h : blockPlan env now db activity dto = .ok plan) :
    plan.rows.Pairwise (fun w w' => rangesMeet w w' = false) ↔
      ¬ CloseHours now db activity dto := by
  rcases blockPlan_ok h with ⟨hweekly, h⟩ | ⟨hweekly, _, h⟩ | ⟨_, hslots, h⟩
  · obtain ⟨days, rfl, _, hsorted, _⟩ := weeklyPlan_ok h
    refine iff_of_true ?_ (fun hclose => by simp [hclose.1] at hweekly)
    refine List.pairwise_map.mpr (hsorted.imp fun hlt => rangesMeet_eq_false ?_)
    have hday : (day : Int) = 86400000 := by decide
    simp only [dayWindow, hday]
    lia
  · obtain ⟨_, times, rfl, _, hnodup, htimes⟩ := slotPlan_ok h
    rw [BlockPlan.rows, List.pairwise_map]
    constructor
    · rintro hpairs ⟨_, t, ht, t', ht', hlt, hnear, hopen, hopen'⟩
      have hmem := (htimes t).mpr ⟨ht, hopen⟩
      have hmem' := (htimes t').mpr ⟨ht', hopen'⟩
      have : Std.Symm (fun t t' : ClockTime =>
          rangesMeet (hourWindow dto.date t) (hourWindow dto.date t') = false) :=
        ⟨fun a b hab => (rangesMeet_symm _ _).trans hab⟩
      have hapart := hpairs.forall hmem hmem' hlt.ne
      rw [(rangesMeet_hours hlt).mpr hnear] at hapart
      exact nomatch hapart
    · intro hclear
      have hordered : ∀ t ∈ times, ∀ t' ∈ times, t < t' →
          rangesMeet (hourWindow dto.date t) (hourWindow dto.date t') = false := by
        intro t ht t' ht' hlt
        by_contra hmeets
        obtain ⟨hpicked, hopen⟩ := (htimes t).mp ht
        obtain ⟨hpicked', hopen'⟩ := (htimes t').mp ht'
        exact hclear ⟨hweekly, t, hpicked, t', hpicked', hlt,
          (rangesMeet_hours hlt).mp (by simpa using hmeets), hopen, hopen'⟩
      refine hnodup.pairwise_of_forall_ne fun t ht t' ht' hne => ?_
      rcases lt_or_gt_of_ne hne with hlt | hgt
      · exact hordered t ht t' ht' hlt
      · exact (rangesMeet_symm _ _).trans (hordered t' ht' t ht hgt)
  · obtain ⟨rfl, _⟩ := wholeDayPlan_ok h
    refine iff_of_true (List.pairwise_singleton _ _) fun ⟨_, t, ht, _⟩ => ?_
    rw [hslots] at ht
    exact nomatch ht

theorem BlocksStored.insertMany {rows : List BlockWindow} (hstored : BlocksStored db)
    (h : createManyBlocks activity db rows = some db') : BlocksStored db' := by
  induction rows generalizing db with
  | nil =>
      obtain rfl := Option.some.inj h
      exact hstored
  | cons w rows ih =>
      simp only [createManyBlocks, Option.bind_eq_some_iff] at h
      obtain ⟨db₁, hone, hmany⟩ := h
      exact ih (hstored.insert hone) hmany

/-- **When the database lets a request through** whose checks passed: exactly when it does not
pick close hours.  The stored blocks are disjoint then; otherwise nothing is inserted and the
request fails. -/
theorem blocks_admitted_iff (hstored : BlocksStored db)
    (hplan : blockPlan env now db activity dto = .ok plan) :
    ((∃ result, createActivityBlockCore env now db activity dto = .ok result ∧
        NoOverlap result.1.activityBlocks.rows) ↔ ¬ CloseHours now db activity dto) ∧
      (CloseHours now db activity dto →
        createActivityBlockCore env now db activity dto = .error plan.overlapError) := by
  have hadmits : ∀ w ∈ plan.rows, AdmitsWindow db activity w :=
    fun w hw => BlockFree.admits (rows_open hplan hw).2
  have hcore : createActivityBlockCore env now db activity dto =
      (orThrow (createManyBlocks activity db plan.rows) plan.overlapError).bind
        (fun db => .ok (db, plan.affectedBookings now db activity)) := by
    rw [createActivityBlockCore, hplan]
    rfl
  rw [hcore, ← rows_pairwise_iff hplan]
  cases hmany : createManyBlocks activity db plan.rows with
  | none =>
      have hclose : ¬ plan.rows.Pairwise (fun w w' => rangesMeet w w' = false) := by
        intro hpairs
        obtain ⟨db', hsome, _⟩ := (createManyBlocks_some hstored).mpr ⟨hadmits, hpairs⟩
        rw [hmany] at hsome
        exact nomatch hsome
      refine ⟨iff_of_false ?_ hclose, fun _ => rfl⟩
      rintro ⟨result, hresult, _⟩
      exact nomatch hresult
  | some db' =>
      have hstored' := hstored.insertMany hmany
      have hpairs := ((createManyBlocks_some hstored).mp ⟨db', hmany, hstored'⟩).2
      refine ⟨iff_of_true ⟨_, rfl, hstored'.noOverlap⟩ hpairs, fun hclose => ?_⟩
      exact absurd hpairs (mt (rows_pairwise_iff hplan).mp (not_not.mpr hclose))

/-! ## Hours half an hour apart -/

/-- Locks from the given hours of the next day. -/
def lockRequest (slotTimes : List ClockTime) : CreateActivityBlockDto where
  date := ⟨1970, 1, 2⟩
  slotTimes := slotTimes

theorem marketBlocksStored : BlocksStored market.db :=
  ⟨List.Pairwise.nil, by decide⟩

/-- **Nine and half past nine**: the checks pass on an activity without any block, and the
request is refused for overlapping one. -/
theorem close_hours_refused :
    (∃ plan, blockPlan marketEnv 0 market.db marketActivity (lockRequest [540, 570]) =
      .ok plan) ∧ market.db.activityBlocks.rows = [] ∧
    createActivityBlockCore marketEnv 0 market.db marketActivity (lockRequest [540, 570]) =
      .error (.conflict "Those times overlap an existing block") := by
  refine ⟨⟨.slots [hourWindow ⟨1970, 1, 2⟩ 540, hourWindow ⟨1970, 1, 2⟩ 570], ?_⟩, rfl, ?_⟩
  · decide +kernel
  · rfl

theorem blocks_admitted_iff_hours :
    ((∃ result, createActivityBlockCore marketEnv 0 market.db marketActivity
        (lockRequest [540, 600]) = .ok result ∧ NoOverlap result.1.activityBlocks.rows) ↔
      ¬ CloseHours 0 market.db marketActivity (lockRequest [540, 600])) ∧
    (CloseHours 0 market.db marketActivity (lockRequest [540, 600]) →
      createActivityBlockCore marketEnv 0 market.db marketActivity (lockRequest [540, 600]) =
        .error (.conflict "Those times overlap an existing block")) :=
  @blocks_admitted_iff marketEnv 0 market.db marketActivity (lockRequest [540, 600])
    (.slots [hourWindow ⟨1970, 1, 2⟩ 540, hourWindow ⟨1970, 1, 2⟩ 600]) marketBlocksStored
    (by decide +kernel)

/-! ## The bookings a lock hits -/

/-- The live bookings of the activity. -/
def liveBookingsOf (now : Instant) (db : Db) (activity : Activity) : List Booking :=
  db.bookings.select (fun b => b.activityId = activity.id ∧ activeBookingFilter now b)

/-- The bookings the plan counts. -/
def BlockPlan.hits (b : Booking) : BlockPlan → Bool
  | slots rows => rows.any (fun r => b.startDatetime ≥ r.blockStart ∧ b.startDatetime < r.blockEnd)
  | weekly _ rows =>
      rows.any (fun r => r.blockStart < b.endDatetime ∧ r.blockEnd > b.startDatetime)
  | wholeDay r => b.startDatetime < r.blockEnd ∧ b.endDatetime > r.blockStart

/-- The window the block check of `createBooking` takes of a booking that is stored: the
nights of a stay, the clock window of an hourly booking. -/
def bookedBlockWindow (activity : Activity) (b : Booking) : Instant × Instant :=
  match activity.bookingType with
  | .daily => (b.startDatetime / day * day, b.endDatetime / day * day)
  | .hourly => (b.startDatetime, b.endDatetime)

/-- The block check refuses the booking, given the new blocks. -/
def refusedBy (activity : Activity) (rows : List BlockWindow) (b : Booking) : Bool :=
  rows.any (fun r => r.blockStart < (bookedBlockWindow activity b).2 ∧
    r.blockEnd > (bookedBlockWindow activity b).1)

/-- **From the stored row back to the check**: its window is the one the block check had when the
booking was made. -/
theorem blockWindow_stored {dto : CreateBookingDto} {tz : String} {window : Instant × Instant}
    {b : Booking} (h : bookingWindow env now activity tz dto = .ok window)
    (hstart : b.startDatetime = window.1) (hend : b.endDatetime = window.2) :
    blockWindow activity dto window = bookedBlockWindow activity b := by
  unfold bookingWindow at h
  unfold blockWindow bookedBlockWindow
  cases htype : activity.bookingType with
  | hourly => rw [hstart, hend]
  | daily =>
      rw [htype] at h
      obtain ⟨checkOut, hout, _, _, _, rfl⟩ := dailyWindow_ok h
      have hfloor : ∀ (date : CivilDate) (minutes : Nat), minutes < 1440 →
          buildDatetime date minutes / day * day = date.midnight := by
        intro date minutes hlt
        have hday : (day : Int) = 86400000 := by decide
        have hminute : (minute : Int) = 60000 := by decide
        simp only [buildDatetime, CivilDate.midnight, hday, hminute]
        lia
      have hclock : ∀ (t : Option ClockTime) (n : Nat), n < 1440 →
          (t.map Fin.val).getD n < 1440 := by
        intro t n hn
        cases t with
        | none => exact hn
        | some t => exact t.isLt
      simp only [hstart, hend]
      rw [hfloor _ _ (hclock _ _ (by decide)), hfloor _ _ (hclock _ _ (by decide)), hout]
      rfl

theorem foldl_min_le {l : List Instant} {a : Instant} :
    l.foldl min a ≤ a ∧ ∀ x ∈ l, l.foldl min a ≤ x := by
  induction l generalizing a with
  | nil => simp
  | cons y l ih =>
      obtain ⟨hhead, htail⟩ := @ih (min a y)
      refine ⟨hhead.trans (min_le_left _ _), fun x hx => ?_⟩
      rcases List.mem_cons.mp hx with rfl | hrest
      · exact hhead.trans (min_le_right _ _)
      · exact htail x hrest

theorem le_foldl_max {l : List Instant} {a : Instant} :
    a ≤ l.foldl max a ∧ ∀ x ∈ l, x ≤ l.foldl max a := by
  induction l generalizing a with
  | nil => simp
  | cons y l ih =>
      obtain ⟨hhead, htail⟩ := @ih (max a y)
      refine ⟨(le_max_left _ _).trans hhead, fun x hx => ?_⟩
      rcases List.mem_cons.mp hx with rfl | hrest
      · exact (le_max_right _ _).trans hhead
      · exact htail x hrest

/-- The read before the count leaves out no booking it would count. -/
theorem filter_read {p q : Booking → Bool} {l : List Booking} (h : ∀ b, p b = true → q b = true) :
    (l.filter q).filter p = l.filter p := by
  rw [List.filter_filter]
  refine List.filter_congr fun b _ => ?_
  cases hp : p b with
  | false => rfl
  | true => simp [h b hp]

/-- **What a plan counts.** -/
theorem affectedBookings_eq (h : blockPlan env now db activity dto = .ok plan) (db' : Db) :
    plan.affectedBookings now db' activity =
      ((liveBookingsOf now db' activity).filter (fun b => plan.hits b)).length := by
  rcases blockPlan_ok h with ⟨_, h⟩ | ⟨_, _, h⟩ | ⟨_, _, h⟩
  · obtain ⟨days, rfl, hne, hsorted, hdays⟩ := weeklyPlan_ok h
    simp only [BlockPlan.affectedBookings, liveBookingsOf, BlockPlan.hits]
    rw [filter_read]
    intro b hb
    obtain ⟨r, hr, hmeets⟩ := List.any_eq_true.mp hb
    obtain ⟨hstart, hend⟩ := of_decide_eq_true hmeets
    obtain ⟨d, hd, rfl⟩ := List.mem_map.mp hr
    have hfirst := ((hdays d).mp hd).1
    have hsorted' : days.Pairwise (· ≤ ·) := hsorted.imp le_of_lt
    obtain ⟨hlo, hhi⟩ := dayWindow_within hfirst (hsorted'.rel_getLast hd)
    rw [List.getLast?_map, List.getLast?_eq_some_getLast hne]
    exact decide_eq_true ⟨lt_of_lt_of_le hend hhi, lt_of_le_of_lt hlo hstart⟩
  · obtain ⟨_, times, rfl, _, _, _⟩ := slotPlan_ok h
    simp only [BlockPlan.affectedBookings, liveBookingsOf, BlockPlan.hits]
    rw [filter_read]
    intro b hb
    obtain ⟨r, hr, hmeets⟩ := List.any_eq_true.mp hb
    obtain ⟨hstart, hend⟩ := of_decide_eq_true hmeets
    refine decide_eq_true ⟨?_, ?_⟩
    · exact (foldl_min_le.2 _ (List.mem_map_of_mem hr)).trans hstart
    · exact lt_of_lt_of_le hend (le_foldl_max.2 _ (List.mem_map_of_mem hr))
  · obtain ⟨rfl, _⟩ := wholeDayPlan_ok h
    rfl

/-- A booking that begins before a locked hour and runs into it, and does not
itself begin in a locked hour. -/
def RunsInto (now : Instant) (db : Db) (activity : Activity) (dto : CreateActivityBlockDto)
    (b : Booking) : Prop :=
  dto.repeatWeekly = false ∧ dto.slotTimes ≠ [] ∧
    (∃ w, NewWindow now db activity dto w ∧ b.startDatetime < w.blockStart ∧
      w.blockStart < b.endDatetime) ∧
    ∀ w, NewWindow now db activity dto w →
      ¬ (w.blockStart ≤ b.startDatetime ∧ b.startDatetime < w.blockEnd)

/-- A stay that leaves in the course of a locked day, none of whose nights is
locked. -/
def LeavesOn (now : Instant) (db : Db) (activity : Activity) (dto : CreateActivityBlockDto)
    (b : Booking) : Prop :=
  activity.bookingType = .daily ∧
    (∃ w, NewWindow now db activity dto w ∧ w.blockStart = b.endDatetime / day * day ∧
      b.startDatetime < w.blockEnd ∧ b.endDatetime / day * day < b.endDatetime) ∧
    ∀ w, NewWindow now db activity dto w →
      ¬ (w.blockStart < b.endDatetime / day * day ∧ b.startDatetime / day * day < w.blockEnd)

/-- The stored check refuses the booking for one of the blocks that are new. -/
def refusedByNew (db db' : Db) (activity : Activity) (b : Booking) : Bool :=
  db'.activityBlocks.rows.any (fun k => k ∉ db.activityBlocks.rows ∧
    k.activityId = activity.id ∧ k.deletedAt = none ∧
    k.blockStart < (bookedBlockWindow activity b).2 ∧
    k.blockEnd > (bookedBlockWindow activity b).1)

/-- **What the inserts leave**: the rows in order after the stored ones, and the bookings as they
were. -/
theorem createManyBlocks_rows {rows : List BlockWindow} (hstored : BlocksStored db)
    (h : createManyBlocks activity db rows = some db') :
    db'.bookings = db.bookings ∧ ∃ new, db'.activityBlocks.rows = db.activityBlocks.rows ++ new ∧
      new.map ActivityBlock.window = rows ∧
      ∀ k ∈ new, k.activityId = activity.id ∧ k.deletedAt = none ∧ db.nextId ≤ k.id := by
  induction rows generalizing db with
  | nil =>
      obtain rfl := Option.some.inj h
      exact ⟨rfl, [], by simp, rfl, by simp⟩
  | cons w rows ih =>
      simp only [createManyBlocks, Option.bind_eq_some_iff] at h
      obtain ⟨db₁, hone, hmany⟩ := h
      obtain ⟨_, hrows₁, hdb₁⟩ := (insertBlock_some hstored).mp hone
      obtain ⟨hbookings, new, hrows, hwindows, hnew⟩ := ih (hstored.insert hone) hmany
      have hnext : db₁.nextId = db.nextId + 1 := by rw [hdb₁]
      refine ⟨hbookings.trans (by rw [hdb₁]), blockRow db activity w :: new, ?_, ?_, ?_⟩
      · rw [hrows, hrows₁, List.append_assoc, List.singleton_append]
      · rw [List.map_cons, hwindows]
        rfl
      · intro k hk
        rcases List.mem_cons.mp hk with rfl | hrest
        · exact ⟨rfl, rfl, le_rfl⟩
        · obtain ⟨hid, hactive, hlater⟩ := hnew k hrest
          exact ⟨hid, hactive, by lia⟩

theorem refusedByNew_eq {rows : List BlockWindow} (hstored : BlocksStored db)
    (h : createManyBlocks activity db rows = some db') (b : Booking) :
    refusedByNew db db' activity b = refusedBy activity rows b := by
  obtain ⟨_, new, hrows, rfl, hnew⟩ := createManyBlocks_rows hstored h
  rw [refusedByNew, refusedBy, Bool.eq_iff_iff, List.any_eq_true, List.any_eq_true, hrows]
  constructor
  · rintro ⟨k, hk, hmeets⟩
    obtain ⟨hfresh, _, _, hstart, hend⟩ := of_decide_eq_true hmeets
    have hmem := (List.mem_append.mp hk).resolve_left hfresh
    exact ⟨k.window, List.mem_map_of_mem hmem, decide_eq_true ⟨hstart, hend⟩⟩
  · rintro ⟨w, hw, hmeets⟩
    obtain ⟨k, hk, rfl⟩ := List.mem_map.mp hw
    obtain ⟨hstart, hend⟩ := of_decide_eq_true hmeets
    obtain ⟨hid, hactive, hlater⟩ := hnew k hk
    have hfresh : k ∉ db.activityBlocks.rows := by
      intro hold
      have hlt := hstored.known k hold
      lia
    exact ⟨k, List.mem_append_right _ hk, decide_eq_true ⟨hfresh, hid, hactive, hstart, hend⟩⟩

/-- Two counts of one list, the one within the other, agree when nothing tells them apart. -/
theorem length_filter_eq_iff {p q : Booking → Bool} {l : List Booking}
    (h : ∀ b ∈ l, p b = true → q b = true) :
    (l.filter p).length = (l.filter q).length ↔ ∀ b ∈ l, ¬ (q b = true ∧ p b = false) := by
  have hsub : l.filter p = (l.filter q).filter p := by
    rw [List.filter_filter]
    refine List.filter_congr fun b hb => ?_
    cases hp : p b with
    | false => rfl
    | true => simp [h b hb hp]
  rw [hsub, List.length_filter_eq_length_iff]
  constructor
  · rintro hall b hb ⟨hq, hp⟩
    rw [hall b (List.mem_filter.mpr ⟨hb, hq⟩)] at hp
    exact nomatch hp
  · intro hnone b hb
    obtain ⟨hmem, hq⟩ := List.mem_filter.mp hb
    by_contra hp
    exact hnone b hmem ⟨hq, by simpa using hp⟩

/-- A window of whole days. -/
def WholeDays (w : BlockWindow) : Prop := ∃ first last, w = ⟨first * day, last * day⟩

theorem wholeDays_of_plan (h : blockPlan env now db activity dto = .ok plan)
    (hmode : dto.repeatWeekly = true ∨ dto.slotTimes = []) {w : BlockWindow}
    (hw : w ∈ plan.rows) : WholeDays w := by
  rcases blockPlan_ok h with ⟨_, h⟩ | ⟨hweekly, hslots, _⟩ | ⟨_, _, h⟩
  · obtain ⟨days, rfl, _, _, _⟩ := weeklyPlan_ok h
    obtain ⟨d, _, rfl⟩ := List.mem_map.mp hw
    exact ⟨d, d + 1, by simp [dayWindow, add_mul]⟩
  · rcases hmode with hmode | hmode
    · rw [hweekly] at hmode
      exact nomatch hmode
    · exact absurd hmode hslots
  · obtain ⟨rfl, _⟩ := wholeDayPlan_ok h
    obtain rfl := List.mem_singleton.mp hw
    exact ⟨dto.date.toDays, (dto.endDate.getD dto.date).toDays + 1,
      by simp [CivilDate.midnight, add_mul]⟩

/-- With whole days, the check refuses fewer than are counted: a stay is let leave on a locked
day. -/
theorem hits_wholeDays {rows : List BlockWindow} {b : Booking}
    (hrows : ∀ w ∈ rows, WholeDays w) :
    (refusedBy activity rows b = true → rows.any (fun r =>
      r.blockStart < b.endDatetime ∧ r.blockEnd > b.startDatetime) = true) ∧
    (rows.any (fun r => r.blockStart < b.endDatetime ∧ r.blockEnd > b.startDatetime) = true ∧
        refusedBy activity rows b = false ↔
      activity.bookingType = .daily ∧
        (∃ w ∈ rows, w.blockStart = b.endDatetime / day * day ∧ b.startDatetime < w.blockEnd ∧
          b.endDatetime / day * day < b.endDatetime) ∧
        ∀ w ∈ rows, ¬ (w.blockStart < b.endDatetime / day * day ∧
          b.startDatetime / day * day < w.blockEnd)) := by
  have hday : (day : Int) = 86400000 := by decide
  have hfalse : refusedBy activity rows b = false ↔ ∀ w ∈ rows,
      ¬ (w.blockStart < (bookedBlockWindow activity b).2 ∧
        (bookedBlockWindow activity b).1 < w.blockEnd) := by
    simp [refusedBy]
  cases htype : activity.bookingType with
  | hourly =>
      have hwindow : bookedBlockWindow activity b = (b.startDatetime, b.endDatetime) := by
        rw [bookedBlockWindow, htype]
      refine ⟨fun h => by rwa [refusedBy, hwindow] at h, iff_of_false ?_ fun h => nomatch h.1⟩
      rintro ⟨hcounted, hnone⟩
      rw [refusedBy, hwindow] at hnone
      rw [hcounted] at hnone
      exact nomatch hnone
  | daily =>
      have hwindow : bookedBlockWindow activity b =
          (b.startDatetime / day * day, b.endDatetime / day * day) := by
        rw [bookedBlockWindow, htype]
      rw [hwindow] at hfalse
      refine ⟨fun h => ?_, ?_⟩
      · rw [refusedBy, hwindow] at h
        obtain ⟨w, hw, hmeets⟩ := List.any_eq_true.mp h
        obtain ⟨hstart, hend⟩ := of_decide_eq_true hmeets
        refine List.any_eq_true.mpr ⟨w, hw, decide_eq_true ?_⟩
        obtain ⟨first, last, rfl⟩ := hrows w hw
        simp only [hday] at hstart hend ⊢
        constructor <;> lia
      · rw [hfalse]
        constructor
        · rintro ⟨hcounted, hnone⟩
          obtain ⟨w, hw, hmeets⟩ := List.any_eq_true.mp hcounted
          obtain ⟨hstart, hend⟩ := of_decide_eq_true hmeets
          refine ⟨rfl, ⟨w, hw, ?_, hend, ?_⟩, hnone⟩
          · have hclear := hnone w hw
            obtain ⟨first, last, rfl⟩ := hrows w hw
            simp only [hday] at hstart hend hclear ⊢
            lia
          · have hclear := hnone w hw
            obtain ⟨first, last, rfl⟩ := hrows w hw
            simp only [hday] at hstart hend hclear ⊢
            lia
        · rintro ⟨_, ⟨w, hw, hstart, hend, hlater⟩, hnone⟩
          exact ⟨List.any_eq_true.mpr ⟨w, hw, decide_eq_true ⟨hstart ▸ hlater, hend⟩⟩, hnone⟩

/-- With single hours, the count leaves out the bookings that run into one. -/
theorem hits_hours {rows : List BlockWindow} {b : Booking}
    (hhourly : activity.bookingType = .hourly)
    (hproper : b.startDatetime < b.endDatetime) :
    ((BlockPlan.slots rows).hits b = true → refusedBy activity rows b = true) ∧
    (refusedBy activity rows b = true ∧ (BlockPlan.slots rows).hits b = false ↔
      (∃ w ∈ rows, b.startDatetime < w.blockStart ∧ w.blockStart < b.endDatetime ∧
        b.startDatetime < w.blockEnd) ∧
      ∀ w ∈ rows, ¬ (w.blockStart ≤ b.startDatetime ∧ b.startDatetime < w.blockEnd)) := by
  have hwindow : bookedBlockWindow activity b = (b.startDatetime, b.endDatetime) := by
    rw [bookedBlockWindow, hhourly]
  have hfalse : (BlockPlan.slots rows).hits b = false ↔ ∀ w ∈ rows,
      ¬ (w.blockStart ≤ b.startDatetime ∧ b.startDatetime < w.blockEnd) := by
    simp [BlockPlan.hits]
  rw [refusedBy, hwindow, hfalse]
  constructor
  · intro h
    obtain ⟨w, hw, hmeets⟩ := List.any_eq_true.mp h
    obtain ⟨hstart, hend⟩ := of_decide_eq_true hmeets
    exact List.any_eq_true.mpr ⟨w, hw, decide_eq_true ⟨lt_of_le_of_lt hstart hproper, hend⟩⟩
  · constructor
    · rintro ⟨hrefused, hnone⟩
      obtain ⟨w, hw, hmeets⟩ := List.any_eq_true.mp hrefused
      obtain ⟨hstart, hend⟩ := of_decide_eq_true hmeets
      refine ⟨⟨w, hw, ?_, hstart, hend⟩, hnone⟩
      by_contra hle
      exact hnone w hw ⟨not_lt.mp hle, hend⟩
    · rintro ⟨⟨w, hw, _, hstart, hend⟩, hnone⟩
      exact ⟨List.any_eq_true.mpr ⟨w, hw, decide_eq_true ⟨hstart, hend⟩⟩, hnone⟩

/-- Whole days are counted right unless a stay leaves on one. -/
theorem count_wholeDays (hplan : blockPlan env now db activity dto = .ok plan)
    (hmode : dto.repeatWeekly = true ∨ dto.slotTimes = []) (l : List Booking) :
    (l.filter (fun b => plan.hits b)).length = (l.filter (refusedBy activity plan.rows)).length ↔
      ∀ b ∈ l, ¬ RunsInto now db activity dto b ∧ ¬ LeavesOn now db activity dto b := by
  have hhits : ∀ b, plan.hits b = plan.rows.any
      (fun r => r.blockStart < b.endDatetime ∧ r.blockEnd > b.startDatetime) := by
    intro b
    rcases blockPlan_ok hplan with ⟨_, h⟩ | ⟨hweekly, hslots, _⟩ | ⟨_, _, h⟩
    · obtain ⟨days, rfl, _⟩ := weeklyPlan_ok h
      rfl
    · rcases hmode with hmode | hmode
      · rw [hweekly] at hmode
        exact nomatch hmode
      · exact absurd hmode hslots
    · obtain ⟨rfl, _⟩ := wholeDayPlan_ok h
      simp [BlockPlan.hits, BlockPlan.rows, and_comm]
  have hruns : ∀ b, ¬ RunsInto now db activity dto b := by
    rintro b ⟨hweekly, hslots, _⟩
    rcases hmode with hmode | hmode
    · rw [hweekly] at hmode
      exact nomatch hmode
    · exact hslots hmode
  have hdays := fun b => @hits_wholeDays activity plan.rows b
    (fun w hw => wholeDays_of_plan hplan hmode hw)
  have hleaves : ∀ b, LeavesOn now db activity dto b ↔
      plan.hits b = true ∧ refusedBy activity plan.rows b = false := by
    intro b
    rw [hhits, (hdays b).2, LeavesOn]
    simp only [← mem_rows_iff hplan]
  rw [eq_comm, length_filter_eq_iff fun b _ hb => (hhits b).trans ((hdays b).1 hb)]
  refine forall₂_congr fun b _ => ?_
  rw [hleaves b]
  exact ⟨fun h => ⟨hruns b, h⟩, fun h => h.2⟩

/-- Single hours are counted right unless a booking runs into one. -/
theorem count_hours (hplan : blockPlan env now db activity dto = .ok plan)
    (hweekly : dto.repeatWeekly = false) (hslots : dto.slotTimes ≠ []) {l : List Booking}
    (hproper : ∀ b ∈ l, b.startDatetime < b.endDatetime) :
    (l.filter (fun b => plan.hits b)).length = (l.filter (refusedBy activity plan.rows)).length ↔
      ∀ b ∈ l, ¬ RunsInto now db activity dto b ∧ ¬ LeavesOn now db activity dto b := by
  rcases blockPlan_ok hplan with ⟨hweekly', _⟩ | ⟨_, _, h⟩ | ⟨_, hslots', _⟩
  · rw [hweekly] at hweekly'
    exact nomatch hweekly'
  · obtain ⟨hhourly, times, rfl, _, _, _⟩ := slotPlan_ok h
    have hleaves : ∀ b, ¬ LeavesOn now db activity dto b := fun b hb => by
      have hdaily := hb.1
      rw [hhourly] at hdaily
      exact nomatch hdaily
    have hlong : ∀ w ∈ (BlockPlan.slots (times.map (hourWindow dto.date))).rows,
        w.blockStart < w.blockEnd := by
      intro w hw
      obtain ⟨t, _, rfl⟩ := List.mem_map.mp hw
      exact lt_add_of_pos_right _ (by decide)
    have hruns : ∀ b, b.startDatetime < b.endDatetime → (RunsInto now db activity dto b ↔
        refusedBy activity (times.map (hourWindow dto.date)) b = true ∧
          (BlockPlan.slots (times.map (hourWindow dto.date))).hits b = false) := by
      intro b hb
      rw [(hits_hours hhourly hb).2, RunsInto]
      simp only [← mem_rows_iff hplan]
      constructor
      · rintro ⟨_, _, ⟨w, hw, hbefore, hinto⟩, hnone⟩
        exact ⟨⟨w, hw, hbefore, hinto, hbefore.trans (hlong w hw)⟩, hnone⟩
      · rintro ⟨⟨w, hw, hbefore, hinto, _⟩, hnone⟩
        exact ⟨hweekly, hslots, ⟨w, hw, hbefore, hinto⟩, hnone⟩
    have hwithin : ∀ b ∈ l, (BlockPlan.slots (times.map (hourWindow dto.date))).hits b = true →
        refusedBy activity (times.map (hourWindow dto.date)) b = true :=
      fun b hb => (hits_hours hhourly (hproper b hb)).1
    refine (length_filter_eq_iff hwithin).trans (forall₂_congr fun b hb => ?_)
    rw [hruns b (hproper b hb)]
    exact ⟨fun h => ⟨h, hleaves b⟩, fun h => h.1⟩
  · exact absurd hslots' hslots

/-- **When the vendor is told the number of bookings a lock hits**: exactly when no live booking
runs into a locked hour from before it, and no live stay leaves on a locked day with all its
nights free. -/
theorem affectedBookings_eq_iff {result : Db × Nat} (hstored : BlocksStored db)
    (hproper : ∀ b ∈ db.bookings.rows, b.startDatetime < b.endDatetime)
    (hcore : createActivityBlockCore env now db activity dto = .ok result) :
    result.2 = ((liveBookingsOf now db activity).filter
        (fun b => refusedByNew db result.1 activity b)).length ↔
      ∀ b ∈ liveBookingsOf now db activity,
        ¬ RunsInto now db activity dto b ∧ ¬ LeavesOn now db activity dto b := by
  simp only [createActivityBlockCore, bind_eq_ok, orThrow_eq_ok, pure_eq_ok] at hcore
  obtain ⟨plan, hplan, db', hmany, rfl⟩ := hcore
  have hlive : liveBookingsOf now db' activity = liveBookingsOf now db activity := by
    rw [liveBookingsOf, (createManyBlocks_rows hstored hmany).1, liveBookingsOf]
  have hrefused : (fun b => refusedByNew db db' activity b) = refusedBy activity plan.rows :=
    funext fun b => refusedByNew_eq hstored hmany b
  have hbooked : ∀ b ∈ liveBookingsOf now db activity, b.startDatetime < b.endDatetime := by
    intro b hb
    rw [liveBookingsOf, Table.mem_select] at hb
    exact hproper b hb.1
  rw [affectedBookings_eq hplan, hlive]
  simp only [hrefused]
  by_cases hmode : dto.repeatWeekly = true ∨ dto.slotTimes = []
  · exact count_wholeDays hplan hmode _
  · obtain ⟨hweekly, hslots⟩ := not_or.mp hmode
    exact count_hours hplan (by simpa using hweekly) hslots hbooked

/-! ## A booking that runs into a lock -/

/-- A booking from ten to twelve of the next day. -/
def twoHourDb : Db :=
  { market.db with
    bookings := ⟨[
      { id := 20, ref := "A", activityId := 7, vendorId := 4, customerId := 1,
        startDatetime := buildDatetime ⟨1970, 1, 2⟩ 600,
        endDatetime := buildDatetime ⟨1970, 1, 2⟩ 720, guests := 1, status := .confirmed,
        createdAt := 0 }], by decide⟩ }

/-- What a request is told, and how many live bookings its blocks refuse. -/
def toldAndRefused (db : Db) (activity : Activity) (dto : CreateActivityBlockDto) :
    Option (Nat × Nat) :=
  (createActivityBlockCore marketEnv 0 db activity dto).toOption.map (fun result =>
    (result.2, ((liveBookingsOf 0 db activity).filter
      (fun b => refusedByNew db result.1 activity b)).length))

/-- **The lock of eleven o'clock** refuses the booking from ten to twelve and reports none; a
lock of the third of January refuses one of the two stays it reports. -/
theorem running_booking_untold :
    toldAndRefused twoHourDb marketActivity (lockRequest [660]) = some (0, 1) ∧
    toldAndRefused innDb inn { date := ⟨1970, 1, 3⟩ } = some (2, 1) := by
  decide +kernel

/-- A lock at ten refuses it too, and reports it. -/
theorem affectedBookings_eq_iff_ten :
    ∃ result, createActivityBlockCore marketEnv 0 twoHourDb marketActivity (lockRequest [600]) =
        .ok result ∧
      (result.2 = ((liveBookingsOf 0 twoHourDb marketActivity).filter
          (fun b => refusedByNew twoHourDb result.1 marketActivity b)).length ↔
        ∀ b ∈ liveBookingsOf 0 twoHourDb marketActivity,
          ¬ RunsInto 0 twoHourDb marketActivity (lockRequest [600]) b ∧
            ¬ LeavesOn 0 twoHourDb marketActivity (lockRequest [600]) b) := by
  have htold : (createActivityBlockCore marketEnv 0 twoHourDb marketActivity
      (lockRequest [600])).toOption.any (fun result => result.2 = 1) = true := by
    decide +kernel
  obtain ⟨result, hresult, _⟩ := (Option.any_eq_true _ _).mp htold
  exact ⟨result, toOption_eq_some.mp hresult, affectedBookings_eq_iff
    ⟨List.Pairwise.nil, by decide⟩ (by decide) (toOption_eq_some.mp hresult)⟩

end Jadwal
