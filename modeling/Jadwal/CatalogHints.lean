import Jadwal.DayView
import Jadwal.IsoDate
import Jadwal.Peak
import Mathlib

/-!
# Booked today

The guests that `getActivities` shows as booked today on each card of a catalog page.  Today is
the calendar day of the activity's own country.  The bookings of the whole page are fetched at
once, from the day before the server's to the day after it, and clipped per activity: slots of an
hour are swept (`bookedToday_hourly`), stays are added up (`bookedToday_daily_iff`).
-/

namespace Jadwal

/-- Midnight of the day before, on the server's clock. -/
def fetchStart (now : Instant) : Instant := now / day * day - day

/-- The last millisecond of the day after, on the server's clock. -/
def fetchEnd (now : Instant) : Instant := now / day * day + (day - 1) + day

/-- The bookings of an activity that its card counts; an expired reservation is one of them. -/
def cardBookings (db : Db) (activityId : Id) : List Booking :=
  db.bookings.select (fun b => b.activityId = activityId ∧
    (b.status = .pending ∨ b.status = .confirmed))

/-- The bookings a page asks for. -/
def pageBookings (db : Db) (now : Instant) (page : List Activity) : List Booking :=
  db.bookings.select (fun b => b.activityId ∈ page.map Activity.id ∧
    (b.status = .pending ∨ b.status = .confirmed) ∧
    b.startDatetime ≤ fetchEnd now ∧ b.endDatetime ≥ fetchStart now)

/-- Those it gets; `maxRows` is `AVAILABILITY_MAX_CATALOG_BOOKINGS`. -/
def todayBookings (maxRows : Nat) (db : Db) (now : Instant) (page : List Activity) :
    List Booking :=
  (pageBookings db now page).take maxRows

def cardTimezone (db : Db) (a : Activity) : String :=
  ((db.countries.find? a.countryId).map Country.defaultTimezone).getD "UTC"

/-- Midnight of the local day, tagged as UTC. -/
def dayStart (env : Env) (tz : String) (now : Instant) : Instant :=
  (utcDate (nowInTimezone env tz now)).midnight

/-- The last millisecond of the local day. -/
def dayEnd (env : Env) (tz : String) (now : Instant) : Instant := dayStart env tz now + (day - 1)

/-- The booking meets the day, its last instant included. -/
def Booking.touches (b : Booking) (dayStart dayEnd : Instant) : Bool :=
  b.startDatetime ≤ dayEnd ∧ b.endDatetime ≥ dayStart

/-- `bookedToday` of a card; the sweep stands there line by line. -/
def bookedToday (env : Env) (maxRows : Nat) (db : Db) (now : Instant) (page : List Activity)
    (a : Activity) : Int :=
  let rows := (todayBookings maxRows db now page).filter (fun b => b.activityId = a.id)
  let s := dayStart env (cardTimezone db a) now
  let e := dayEnd env (cardTimezone db a) now
  if rows.isEmpty then 0
  else
    match a.bookingType with
    | .hourly => maxConcurrentInWindow rows s e
    | .daily => sumGuests (rows.filter (fun b => b.touches s e))

variable {env : Env} {maxRows : Nat} {db : Db} {now : Instant} {page : List Activity}
  {a : Activity} {tz : String}

/-- No wall clock is more than a day from UTC. -/
def WithinDay (env : Env) (tz : String) (now : Instant) : Prop :=
  ∀ offset ∈ env.zoneOffset tz now, -day ≤ offset ∧ offset ≤ day

theorem dayStart_eq : dayStart env tz now = nowInTimezone env tz now / day * day := by
  rw [dayStart, CivilDate.midnight, utcDate, (CivilDate.toDays_ofDays _).1]

theorem dayStart_lt_dayEnd : dayStart env tz now < dayEnd env tz now := by
  have hday : (day : Int) = 86400000 := by decide
  rw [dayEnd]
  lia

/-- **The widened fetch reaches over every local day.** -/
theorem fetch_covers_day (hzone : WithinDay env tz now) :
    fetchStart now ≤ dayStart env tz now ∧ dayEnd env tz now ≤ fetchEnd now := by
  have hday : (day : Int) = 86400000 := by decide
  have hsecond : (second : Int) = 1000 := by decide
  rw [dayEnd, dayStart_eq, fetchStart, fetchEnd, nowInTimezone]
  cases hoffset : env.zoneOffset tz now with
  | none =>
      simp only [hday]
      lia
  | some offset =>
      have hbound := hzone offset hoffset
      simp only [hday, hsecond] at hbound ⊢
      lia

/-! ## The rows of a card -/

theorem card_rows (ha : a ∈ page) (hcap : (pageBookings db now page).length ≤ maxRows) :
    (todayBookings maxRows db now page).filter (fun b => b.activityId = a.id) =
      (cardBookings db a.id).filter (fun b =>
        b.startDatetime ≤ fetchEnd now ∧ b.endDatetime ≥ fetchStart now) := by
  rw [todayBookings, List.take_of_length_le hcap, pageBookings, cardBookings, Table.select,
    Table.select, List.filter_filter, List.filter_filter]
  apply List.filter_congr
  intro b _
  have hid : b.activityId = a.id → b.activityId ∈ page.map Activity.id := by
    intro heq
    rw [heq]
    exact List.mem_map_of_mem ha
  rw [Bool.eq_iff_iff]
  simp only [Bool.and_eq_true, decide_eq_true_eq]
  tauto

/-- Rows that cover no instant of the window do not count there. -/
theorem seats_filter_of_covers {bookings : List Booking} {p : Booking → Bool} {t : Instant}
    (h : ∀ b ∈ bookings, b.covers t = true → p b = true) :
    seats (bookings.filter p) t = seats bookings t := by
  induction bookings with
  | nil => rfl
  | cons b bookings ih =>
      have hrest := ih fun c hc => h c (List.mem_cons_of_mem _ hc)
      by_cases hp : p b = true
      · rw [List.filter_cons_of_pos hp, seats_cons, seats_cons, hrest]
      · have hcovers : ¬ b.covers t = true := fun hc => hp (h b List.mem_cons_self hc)
        rw [List.filter_cons_of_neg hp, seats_cons, if_neg hcovers, hrest, Nat.zero_add]

theorem touches_of_covers {b : Booking} {s e t : Instant} (hs : s ≤ t) (he : t < e)
    (hcovers : b.covers t = true) : b.touches s e = true := by
  simp only [Booking.covers, Booking.touches, decide_eq_true_eq] at hcovers ⊢
  lia

theorem fetched_of_touches (hzone : WithinDay env tz now) {b : Booking}
    (h : b.touches (dayStart env tz now) (dayEnd env tz now) = true) :
    b.startDatetime ≤ fetchEnd now ∧ b.endDatetime ≥ fetchStart now := by
  obtain ⟨hstart, hend⟩ := fetch_covers_day hzone
  simp only [Booking.touches, decide_eq_true_eq] at h
  lia

/-! ## The card -/

/-- **An hourly card tells the peak of the local day**: the greatest number of guests of `PENDING`
and `CONFIRMED` bookings at one instant of the day, wherever the country is. -/
theorem bookedToday_hourly (ha : a ∈ page) (htype : a.bookingType = .hourly)
    (hzone : WithinDay env (cardTimezone db a) now)
    (hcap : (pageBookings db now page).length ≤ maxRows) :
    IsGreatest (presentIn (cardBookings db a.id) (dayStart env (cardTimezone db a) now)
      (dayEnd env (cardTimezone db a) now)) (bookedToday env maxRows db now page a) := by
  have hpeak : bookedToday env maxRows db now page a =
      maxConcurrentInWindow (cardBookings db a.id) (dayStart env (cardTimezone db a) now)
        (dayEnd env (cardTimezone db a) now) := by
    calc bookedToday env maxRows db now page a
        = maxConcurrentInWindow
            ((todayBookings maxRows db now page).filter (fun b => b.activityId = a.id))
            (dayStart env (cardTimezone db a) now) (dayEnd env (cardTimezone db a) now) := by
          simp only [bookedToday, htype]
          split
          case isTrue hempty =>
            rw [List.isEmpty_iff.mp hempty]
            rfl
          case isFalse => rfl
      _ = _ := by
          rw [card_rows ha hcap]
          apply maxConcurrentInWindow_congr dayStart_lt_dayEnd
          intro t hs he
          apply seats_filter_of_covers
          intro b _ hcovers
          exact decide_eq_true (fetched_of_touches hzone (touches_of_covers hs he hcovers))
  rw [hpeak]
  exact maxConcurrentInWindow_isGreatest _ dayStart_lt_dayEnd

/-- Qatar is three hours east of UTC. -/
def gulfEnv : Env :=
  { marketEnv with
    zoneOffset := fun tz _ =>
      if tz = "Asia/Qatar" then some (3 * hour) else if tz = "UTC" then some 0 else none }

theorem gulf_withinDay (tz : String) (now : Instant) : WithinDay gulfEnv tz now := by
  intro offset hoffset
  simp only [gulfEnv, Option.mem_def] at hoffset
  split at hoffset
  case isTrue =>
    obtain rfl := Option.some.inj hoffset
    decide
  case isFalse =>
    split at hoffset
    case isTrue =>
      obtain rfl := Option.some.inj hoffset
      decide
    case isFalse => cases hoffset

/-- The activities of a shop in Qatar. -/
def inQatar (db : Db) : Db :=
  { db with countries := ⟨[{ id := 5, defaultTimezone := "Asia/Qatar" }], by decide⟩ }

/-- At ten in the evening on the server the hall shows what is booked on the next day. -/
theorem bookedToday_hourly_hall :
    bookedToday gulfEnv 10 (inQatar hallDb) (22 * hour) [hall] hall = 3 ∧
      IsGreatest (presentIn (cardBookings (inQatar hallDb) 7)
        (dayStart gulfEnv (cardTimezone (inQatar hallDb) hall) (22 * hour))
        (dayEnd gulfEnv (cardTimezone (inQatar hallDb) hall) (22 * hour)))
        (bookedToday gulfEnv 10 (inQatar hallDb) (22 * hour) [hall] hall) :=
  ⟨by decide +kernel, bookedToday_hourly List.mem_cons_self rfl (gulf_withinDay _ _)
    (by decide +kernel)⟩

/-- All of them at once: the sum is reached where every booking covers the instant. -/
theorem seats_eq_sumGuests_iff {bookings : List Booking} {t : Instant}
    (hproper : ∀ b ∈ bookings, b.Proper) :
    seats bookings t = sumGuests bookings ↔ ∀ b ∈ bookings, b.covers t = true := by
  induction bookings with
  | nil => simp [sumGuests]
  | cons b bookings ih =>
      have hrest := ih fun c hc => hproper c (List.mem_cons_of_mem _ hc)
      have hpos := (hproper b List.mem_cons_self).guests
      have hle := seats_le_sumGuests bookings t
      have hsum : sumGuests (b :: bookings) = b.guests + sumGuests bookings := by
        simp [sumGuests]
      rw [List.forall_mem_cons, ← hrest, seats_cons, hsum]
      split
      case isTrue hcovers =>
        simp only [hcovers, true_and]
        omega
      case isFalse hcovers =>
        have hne : ¬ 0 + seats bookings t = b.guests + sumGuests bookings := by omega
        tauto

/-- The number on a daily card: the guests of all the bookings that touch the day. -/
theorem bookedToday_sum (ha : a ∈ page) (htype : a.bookingType = .daily)
    (hzone : WithinDay env (cardTimezone db a) now)
    (hcap : (pageBookings db now page).length ≤ maxRows) :
    bookedToday env maxRows db now page a =
      sumGuests ((cardBookings db a.id).filter (fun b =>
        b.touches (dayStart env (cardTimezone db a) now)
          (dayEnd env (cardTimezone db a) now))) := by
  calc bookedToday env maxRows db now page a
      = sumGuests (((todayBookings maxRows db now page).filter
          (fun b => b.activityId = a.id)).filter (fun b =>
            b.touches (dayStart env (cardTimezone db a) now)
              (dayEnd env (cardTimezone db a) now))) := by
        simp only [bookedToday, htype]
        split
        case isTrue hempty =>
          rw [List.isEmpty_iff.mp hempty]
          rfl
        case isFalse => rfl
    _ = _ := by
        rw [card_rows ha hcap, List.filter_filter]
        congr 2
        apply List.filter_congr
        intro b _
        rw [Bool.and_eq_left_iff_imp]
        intro htouches
        exact decide_eq_true (fetched_of_touches hzone htouches)

/-- **A daily card adds up all who come, stay or leave today**: never less than were there at
once, and exactly as many when some instant of the day has them all. -/
theorem bookedToday_daily_iff (ha : a ∈ page) (htype : a.bookingType = .daily)
    (hzone : WithinDay env (cardTimezone db a) now)
    (hcap : (pageBookings db now page).length ≤ maxRows)
    (hproper : ∀ b ∈ db.bookings.rows, b.Proper) {peak : Int}
    (hpeak : IsGreatest (presentIn (cardBookings db a.id) (dayStart env (cardTimezone db a) now)
      (dayEnd env (cardTimezone db a) now)) peak) :
    bookedToday env maxRows db now page a =
        sumGuests ((cardBookings db a.id).filter (fun b =>
          b.touches (dayStart env (cardTimezone db a) now) (dayEnd env (cardTimezone db a) now))) ∧
      peak ≤ bookedToday env maxRows db now page a ∧
      (peak = bookedToday env maxRows db now page a ↔
        ∃ t, dayStart env (cardTimezone db a) now ≤ t ∧ t < dayEnd env (cardTimezone db a) now ∧
          ∀ b ∈ cardBookings db a.id, b.touches (dayStart env (cardTimezone db a) now)
            (dayEnd env (cardTimezone db a) now) = true → b.covers t = true) := by
  obtain ⟨s, hs⟩ : ∃ s, s = dayStart env (cardTimezone db a) now := ⟨_, rfl⟩
  obtain ⟨e, he⟩ : ∃ e, e = dayEnd env (cardTimezone db a) now := ⟨_, rfl⟩
  have hsum : bookedToday env maxRows db now page a =
      sumGuests ((cardBookings db a.id).filter (fun b => b.touches s e)) := by
    rw [hs, he]
    exact bookedToday_sum ha htype hzone hcap
  have hseats : ∀ t, s ≤ t → t < e →
      seats ((cardBookings db a.id).filter (fun b => b.touches s e)) t =
        seats (cardBookings db a.id) t := by
    intro t hst hte
    apply seats_filter_of_covers
    intro b _ hcovers
    exact touches_of_covers hst hte hcovers
  have hall : ∀ t, s ≤ t → t < e →
      ((seats (cardBookings db a.id) t : Int) = bookedToday env maxRows db now page a ↔
        ∀ b ∈ cardBookings db a.id, b.touches s e = true → b.covers t = true) := by
    intro t hst hte
    rw [hsum, ← hseats t hst hte, Nat.cast_inj, seats_eq_sumGuests_iff]
    · simp only [List.mem_filter, and_imp]
    · intro b hb
      exact hproper b (Table.mem_select.mp (List.mem_filter.mp hb).1).1
  have hbelow : ∀ t, s ≤ t → t < e →
      (seats (cardBookings db a.id) t : Int) ≤ bookedToday env maxRows db now page a := by
    intro t hst hte
    rw [hsum, ← hseats t hst hte]
    exact Int.ofNat_le.mpr (seats_le_sumGuests _ t)
  rw [← hs, ← he] at hpeak ⊢
  obtain ⟨t, ht, rfl⟩ := hpeak.1
  refine ⟨hsum, hbelow t ht.1 ht.2, ?_⟩
  constructor
  · intro heq
    exact ⟨t, ht.1, ht.2, (hall t ht.1 ht.2).mp heq⟩
  · intro hcommon
    obtain ⟨u, hsu, hue, hcovers⟩ := hcommon
    apply le_antisymm (hbelow t ht.1 ht.2)
    rw [← (hall u hsu hue).mpr hcovers]
    exact hpeak.2 ⟨u, ⟨hsu, hue⟩, rfl⟩

/-- On the day one guest leaves the inn and another comes, its card counts two. -/
theorem bookedToday_daily_inn :
    bookedToday gulfEnv 10 (inQatar innDb) (46 * hour) [inn] inn = 2 ∧
      ¬ ∃ t, dayStart gulfEnv (cardTimezone (inQatar innDb) inn) (46 * hour) ≤ t ∧
        t < dayEnd gulfEnv (cardTimezone (inQatar innDb) inn) (46 * hour) ∧
        ∀ b ∈ cardBookings (inQatar innDb) 7,
          b.touches (dayStart gulfEnv (cardTimezone (inQatar innDb) inn) (46 * hour))
            (dayEnd gulfEnv (cardTimezone (inQatar innDb) inn) (46 * hour)) = true →
            b.covers t = true := by
  have hcount : bookedToday gulfEnv 10 (inQatar innDb) (46 * hour) [inn] inn = 2 := by
    decide +kernel
  have hpeak : maxConcurrentInWindow (cardBookings (inQatar innDb) 7)
      (dayStart gulfEnv (cardTimezone (inQatar innDb) inn) (46 * hour))
      (dayEnd gulfEnv (cardTimezone (inQatar innDb) inn) (46 * hour)) = 1 := by decide +kernel
  have hproper : ∀ b ∈ (inQatar innDb).bookings.rows,
      b.startDatetime < b.endDatetime ∧ 0 < b.guests := by
    decide +kernel
  refine ⟨hcount, ?_⟩
  intro hcommon
  have heq : maxConcurrentInWindow (cardBookings (inQatar innDb) 7)
      (dayStart gulfEnv (cardTimezone (inQatar innDb) inn) (46 * hour))
      (dayEnd gulfEnv (cardTimezone (inQatar innDb) inn) (46 * hour)) =
      bookedToday gulfEnv 10 (inQatar innDb) (46 * hour) [inn] inn :=
    (bookedToday_daily_iff List.mem_cons_self rfl (gulf_withinDay _ _) (by decide +kernel)
      (fun b hb => ⟨(hproper b hb).1, (hproper b hb).2⟩)
      (maxConcurrentInWindow_isGreatest _ dayStart_lt_dayEnd)).2.2.mpr hcommon
  rw [hpeak, hcount] at heq
  cases heq

end Jadwal
