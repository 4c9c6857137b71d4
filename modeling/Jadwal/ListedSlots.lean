import Jadwal.HourPicker

/-!
# Which slots are listed

`computeSlots` lists the starts of a day by a loop with a cap,
`assertHourlyTimesConsistent` admits the opening hours, and `createBooking`
checks the start it is asked for.  The list is the set of starts that pass,
where the opening time was checked against the half-hour grid and the cap
leaves room for a day (`listed_iff_bookable`).
-/

namespace Jadwal

open Outcome

/-! ## The loop -/

/-- **The loop lists every start that fits**, up to its cap. -/
theorem mem_slotsFrom_iff {endMins slotDuration room t m : Nat} :
    m ∈ slotsFrom endMins slotDuration room t ↔
      ∃ i < room, m = t + 30 * i ∧ m + slotDuration ≤ endMins := by
  induction room generalizing t with
  | zero => simp [slotsFrom]
  | succ room ih =>
      rw [slotsFrom]
      split
      case isTrue hfits =>
        rw [List.mem_cons, ih]
        constructor
        · rintro (rfl | ⟨i, hi, rfl, hend⟩)
          · exact ⟨0, by omega, by omega, hfits⟩
          · exact ⟨i + 1, by omega, by omega, by omega⟩
        · rintro ⟨i, hi, hm, hend⟩
          cases i with
          | zero => exact .inl (by omega)
          | succ i => exact .inr ⟨i, by omega, by omega, hend⟩
      case isFalse hfits =>
        constructor
        · intro hm
          simp at hm
        · rintro ⟨i, hi, rfl, hend⟩
          omega

/-! ## The opening hours -/

/-- What the opening hours of an HOURLY activity satisfy once they are admitted. -/
theorem assertHourlyTimesConsistent_ok {checkInTime checkOutTime : Option ClockTime}
    {durationValue : Option Nat} {gridCheckIn gridCheckOut : Bool}
    (h : assertHourlyTimesConsistent (some .hourly) checkInTime checkOutTime durationValue
      gridCheckIn gridCheckOut = .ok ()) :
    ∃ checkIn checkOut duration, checkInTime = some checkIn ∧ checkOutTime = some checkOut ∧
      durationValue = some duration ∧ (gridCheckIn = true → checkIn.val % 30 = 0) ∧
      0 < duration ∧ checkIn.val + duration * 60 ≤ checkOut.val := by
  simp only [assertHourlyTimesConsistent, ne_eq, not_true_eq_false, if_false, bind_eq_ok,
    orThrow_eq_ok, ensure_eq_ok] at h
  obtain ⟨checkIn, hin, checkOut, hout, duration, hduration, _, hgrid, _, _, _, hlt, _, hpos,
    hfits⟩ := h
  have hlt' : checkIn.val < checkOut.val := hlt
  exact ⟨checkIn, checkOut, duration, hin, hout, hduration, hgrid, by omega, by omega⟩

/-- The starts of a day whose opening hours were admitted: every half hour from the opening
whose slot ends by the closing time, when the cap leaves room for a day. -/
theorem mem_computeSlots_iff {env : Env} {checkIn checkOut : ClockTime} {duration m : Nat}
    (hcap : 46 ≤ env.hourlyMaxSlots) (hpos : 0 < duration) :
    m ∈ computeSlots env checkIn checkOut duration ↔
      checkIn.val ≤ m ∧ (m - checkIn.val) % 30 = 0 ∧ m + duration * 60 ≤ checkOut.val := by
  have hclose := checkOut.isLt
  rw [computeSlots, if_neg (by omega), mem_slotsFrom_iff]
  constructor
  · rintro ⟨i, _, rfl, hend⟩
    exact ⟨by omega, by omega, hend⟩
  · rintro ⟨hopen, hgrid, hend⟩
    refine ⟨(m - checkIn.val) / 30, ?_, by omega, hend⟩
    have hcount : (m - checkIn.val) / 30 < 46 := by omega
    exact lt_of_lt_of_le hcount (hcap.trans (le_max_right _ _))

/-! ## The request -/

variable {env : Env} {now : Instant} {a : Activity} {tz : String} {dto : CreateBookingDto}

/-- A request for one slot, without an end, passes when its start is on the half hour, within
the opening hours and still to come. -/
theorem hourlyWindow_slot {slotTime checkIn checkOut : ClockTime} {duration : Nat}
    (hstart : dto.slotTime = some slotTime) (hend : dto.slotEndTime = none)
    (hin : a.checkInTime = some checkIn) (hout : a.checkOutTime = some checkOut)
    (hduration : a.durationValue = some duration) (hpos : 0 < duration) :
    (∃ window, hourlyWindow env now a tz dto = .ok window) ↔
      slotTime.val % 30 = 0 ∧ checkIn ≤ slotTime ∧
        slotTime.val + duration * 60 ≤ checkOut.val ∧
        (dto.checkInDate = todayInTimezone env tz now →
          minutesInTimezone env tz now < slotTime.val) := by
  have hfilter : a.durationValue.filter (fun n => n ≠ 0) = some duration := by
    simp [hduration, hpos.ne']
  simp only [hourlyWindow, hstart, hend, hin, hout, hfilter, bind_eq_ok, orThrow_eq_ok,
    ensure_eq_ok, pure_eq_ok, Option.some.injEq, exists_eq_left']
  constructor
  · rintro ⟨_, _, hgrid, _, hopen, _, hclose, _, hahead, _⟩
    exact ⟨hgrid, hopen, hclose, hahead⟩
  · rintro ⟨hgrid, hopen, hclose, hahead⟩
    exact ⟨_, (), hgrid, (), hopen, (), hclose, (), hahead, rfl⟩

/-- **Every listed slot is bookable in shape, and every slot bookable in shape is listed.**
Of an HOURLY activity admitted with the grid check on its opening time, under a cap of at least
the starts a day has: the slots lie on the half-hour grid from the opening and end by the
closing time, and a request for one slot passes exactly when it is listed and still to
come. -/
theorem listed_iff_bookable {gridCheckOut : Bool} (hcap : 46 ≤ env.hourlyMaxSlots)
    (htype : a.bookingType = .hourly)
    (hok : assertHourlyTimesConsistent (some a.bookingType) a.checkInTime a.checkOutTime
      a.durationValue true gridCheckOut = .ok ()) :
    ∃ checkIn checkOut duration, a.checkInTime = some checkIn ∧ a.checkOutTime = some checkOut ∧
      a.durationValue = some duration ∧
      (∀ m ∈ computeSlots env checkIn checkOut duration, checkIn.val ≤ m ∧
        (m - checkIn.val) % 30 = 0 ∧ m % 30 = 0 ∧ m + duration * 60 ≤ checkOut.val) ∧
      (computeSlots env checkIn checkOut duration).Nodup ∧
      ∀ now tz dto slotTime, dto.slotTime = some slotTime → dto.slotEndTime = none →
        ((∃ window, hourlyWindow env now a tz dto = .ok window) ↔
          slotTime.val ∈ computeSlots env checkIn checkOut duration ∧
          (dto.checkInDate = todayInTimezone env tz now →
            minutesInTimezone env tz now < slotTime.val)) := by
  rw [htype] at hok
  obtain ⟨checkIn, checkOut, duration, hin, hout, hduration, hgrid, hpos, hfits⟩ :=
    assertHourlyTimesConsistent_ok hok
  have hopening := hgrid rfl
  refine ⟨checkIn, checkOut, duration, hin, hout, hduration, ?_, computeSlots_nodup _ _ _, ?_⟩
  · intro m hm
    obtain ⟨hopen, hmod, hend⟩ := (mem_computeSlots_iff hcap hpos).mp hm
    exact ⟨hopen, hmod, by omega, hend⟩
  · intro now tz dto slotTime hstart hend
    rw [hourlyWindow_slot hstart hend hin hout hduration hpos, mem_computeSlots_iff hcap hpos]
    constructor
    · rintro ⟨hhalf, hopen, hclose, hahead⟩
      have hopen' : checkIn.val ≤ slotTime.val := hopen
      exact ⟨⟨hopen', by omega, hclose⟩, hahead⟩
    · rintro ⟨⟨hopen, hmod, hclose⟩, hahead⟩
      exact ⟨by omega, hopen, hclose, hahead⟩

theorem listed_iff_bookable_market :
    ∃ checkIn checkOut duration, marketActivity.checkInTime = some checkIn ∧
      marketActivity.checkOutTime = some checkOut ∧
      marketActivity.durationValue = some duration ∧
      (∀ m ∈ computeSlots marketEnv checkIn checkOut duration, checkIn.val ≤ m ∧
        (m - checkIn.val) % 30 = 0 ∧ m % 30 = 0 ∧ m + duration * 60 ≤ checkOut.val) ∧
      (computeSlots marketEnv checkIn checkOut duration).Nodup ∧
      ∀ now tz dto slotTime, dto.slotTime = some slotTime → dto.slotEndTime = none →
        ((∃ window, hourlyWindow marketEnv now marketActivity tz dto = .ok window) ↔
          slotTime.val ∈ computeSlots marketEnv checkIn checkOut duration ∧
          (dto.checkInDate = todayInTimezone marketEnv tz now →
            minutesInTimezone marketEnv tz now < slotTime.val)) :=
  @listed_iff_bookable marketEnv marketActivity true (by decide) rfl (by decide)

/-- Opening hours kept from before the grid rule: a quarter past nine to noon. -/
def quarterPast : Activity :=
  { marketActivity with checkInTime := some 555, checkOutTime := some 720 }

/-- Admitted without the grid check, all the slots listed are off the grid and refused; and
under a cap of two the slot at ten is bookable and not listed. -/
theorem listed_not_bookable :
    (assertHourlyTimesConsistent (some .hourly) (some 555) (some 720) (some 1) false true =
        .ok () ∧
      555 ∈ computeSlots marketEnv 555 720 1 ∧
      hourlyWindow marketEnv 0 quarterPast "UTC"
        { marketRequest none with slotTime := some 555 } =
          .error (.badRequest "Slot time must be on the hour or half-hour (e.g. 09:00, 09:30)")) ∧
    (600 ∉ computeSlots { marketEnv with hourlyMaxSlots := 2 } 0 1380 1 ∧
      (hourlyWindow { marketEnv with hourlyMaxSlots := 2 } 0 marketActivity "UTC"
        (marketRequest none)).toOption.isSome) := by
  refine ⟨⟨by decide, by decide, ?_⟩, by decide, by decide +kernel⟩
  rfl

end Jadwal
