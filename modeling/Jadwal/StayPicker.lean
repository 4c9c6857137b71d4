import Jadwal.MonthView

/-!
# The booking calendar

The two-month calendar a customer picks the nights of a DAILY stay in.  A tap on a date is
an arrival or a departure; a date is inert, or shakes, or is handed to the page, which moves
the selection.  `selects_iff` says which stays taps can reach, `taps_build_valid_stays` that
they are valid and that the calendar foretells which taps are departures.

`stay_offered_iff` compares them with what `createBooking` accepts.  The calendar judges each
night by itself from the summary of its day, the server the whole stay unit by unit, so the
two agree unless a stay has a room each night and none for all of them, ends on a day the
activity does not run, or meets bookings the nights do not.
-/

namespace Jadwal

open Outcome

/-! ## The selection -/

/-- The dates picked so far. -/
structure StaySelection where
  checkIn : Option CivilDate := none
  checkOut : Option CivilDate := none
  deriving DecidableEq, Repr

/-- The days of the two months on show, and the fewest nights of a stay.  Dates are compared
as the days they name. -/
structure BookingCalendar where
  days : List CalendarDay
  minNights : Option Nat

/-- A day that is not inert. -/
def CalendarDay.Tappable (d : CalendarDay) : Prop := d.isPast = false ∧ d.isActiveDay = true

instance (d : CalendarDay) : Decidable d.Tappable := inferInstanceAs (Decidable (_ ∧ _))

namespace BookingCalendar

variable (c : BookingCalendar)

/-- The minimum, zero when a stay may have any length. -/
def nights : Nat := c.minNights.getD 0

def willSetCheckOut (s : StaySelection) (date : CivilDate) : Bool :=
  match s.checkIn with
  | none => false
  | some checkIn => checkIn.toDays < date.toDays ∧ (1 ≤ c.nights ∨ s.checkOut = none)

/-- The night is locked by the vendor or booked by guests. -/
def unavailable (night : Int) : Bool :=
  c.days.any (fun d => (d.isBlocked ∨ d.isFullyBooked) ∧ d.date.toDays = night)

/-- Some night of the half-open range is unavailable. -/
def rangeHitsUnavailable (fromDay toDay : Int) : Bool :=
  (List.range (toDay - fromDay).toNat).any (fun i => c.unavailable (fromDay + i))

/-- The day a tap on `date` ends the stay at: too short a pick snaps to the minimum. -/
def endFor (checkIn date : CivilDate) : Int :=
  if 1 ≤ c.nights ∧ nightCount checkIn date < c.nights then checkIn.toDays + c.nights
  else date.toDays

/-- The stay a tap on `date` leads to crosses an unavailable night.  A lone arrival of a
stay without a minimum crosses none. -/
def crosses (s : StaySelection) (date : CivilDate) : Bool :=
  if c.willSetCheckOut s date then
    ∃ checkIn ∈ s.checkIn, c.rangeHitsUnavailable checkIn.toDays (c.endFor checkIn date)
  else 1 ≤ c.nights ∧ c.rangeHitsUnavailable date.toDays (date.toDays + c.nights)

/-- The dates that shake. -/
def computeCrossingBlockedDates (s : StaySelection) : List CivilDate :=
  (c.days.filter (fun d => d.Tappable ∧ s.checkIn ≠ some d.date ∧ c.crosses s d.date)).map
    CalendarDay.date

def crossingShakes (s : StaySelection) (d : CalendarDay) : Bool :=
  d.Tappable ∧ d.date ∈ c.computeCrossingBlockedDates s

def isDateDisabled (s : StaySelection) (d : CalendarDay) : Bool :=
  if ¬ d.Tappable then true
  else if c.crossingShakes s d then false
  else if ¬ d.isFullyBooked then false
  else ¬ c.willSetCheckOut s d.date

/-- The check-out of the minimum stay. -/
def minCheckout (checkIn : CivilDate) : CivilDate := .ofDays (checkIn.toDays + c.nights)

/-- What the page does with a date: the arrival again clears the selection, a minimum stay is
selected at once and can be extended, else the two picks bound the stay. -/
def handleDailyDateSelect (s : StaySelection) (date : CivilDate) : StaySelection :=
  if s.checkIn = some date then ⟨none, none⟩
  else if 1 ≤ c.nights then
    match s.checkIn with
    | none => ⟨some date, some (c.minCheckout date)⟩
    | some checkIn =>
        if date.toDays ≤ checkIn.toDays then ⟨some date, some (c.minCheckout date)⟩
        else ⟨some checkIn, some (if nightCount checkIn date < c.nights then c.minCheckout checkIn
          else date)⟩
  else
    match s.checkIn, s.checkOut with
    | some checkIn, none =>
        if date.toDays ≤ checkIn.toDays then ⟨some date, none⟩ else ⟨some checkIn, some date⟩
    | _, _ => ⟨some date, none⟩

/-- A tap on a day that is neither inert nor shakes. -/
def tap (s : StaySelection) (d : CalendarDay) : Option StaySelection :=
  if d ∈ c.days ∧ ¬ c.isDateDisabled s d ∧ ¬ c.crossingShakes s d then
    some (c.handleDailyDateSelect s d.date)
  else none

/-- The check-out can be reached: it is the minimum one, or the day can be tapped. -/
def ShowsCheckOut (checkIn checkOut : CivilDate) : Prop :=
  (1 ≤ c.nights ∧ checkOut.toDays = checkIn.toDays + c.nights) ∨
    ∃ d ∈ c.days, d.date.toDays = checkOut.toDays ∧ d.Tappable

/-- A stay within the rules of the calendar. -/
structure Stay (checkIn checkOut : CivilDate) : Prop where
  arrival : ∃ d ∈ c.days, d.date = checkIn ∧ d.Tappable
  dates : checkIn.toDays < checkOut.toDays
  minimum : checkIn.toDays + c.nights ≤ checkOut.toDays
  departure : c.ShowsCheckOut checkIn checkOut
  free : ∀ d ∈ c.days, checkIn.toDays ≤ d.date.toDays → d.date.toDays < checkOut.toDays →
    ¬ (d.isBlocked = true ∨ d.isFullyBooked = true)

/-- What taps keep: a check-in can be tapped, a check-out is that of a stay, and a minimum
stay is selected with its check-out. -/
def Legal (s : StaySelection) : Prop :=
  match s.checkIn, s.checkOut with
  | none, checkOut => checkOut = none
  | some checkIn, none => c.nights = 0 ∧ ∃ d ∈ c.days, d.date = checkIn ∧ d.Tappable
  | some checkIn, some checkOut => c.Stay checkIn checkOut

variable {c} {s s' : StaySelection} {d : CalendarDay}

theorem rangeHitsUnavailable_false {fromDay toDay : Int} :
    c.rangeHitsUnavailable fromDay toDay = false ↔
      ∀ d ∈ c.days, fromDay ≤ d.date.toDays → d.date.toDays < toDay →
        ¬ (d.isBlocked = true ∨ d.isFullyBooked = true) := by
  simp only [rangeHitsUnavailable, unavailable, List.any_eq_false, List.any_eq_true,
    List.mem_range, decide_eq_true_eq, not_exists, not_and]
  constructor
  · intro h d hd hfrom hto htaken
    exact h (d.date.toDays - fromDay).toNat (by omega) d hd htaken (by omega)
  · intro h i hi d hd htaken hnight
    exact h d hd (by omega) (by omega) htaken

/-- A tap goes through on an open day the selection does not cross an unavailable night
with; one that is not a departure must be free itself. -/
theorem tap_eq_some (hnone : s.checkIn ≠ some d.date) :
    c.tap s d = some s' ↔ d ∈ c.days ∧ d.Tappable ∧ c.crosses s d.date = false ∧
      (d.isFullyBooked = true → c.willSetCheckOut s d.date = true) ∧
      s' = c.handleDailyDateSelect s d.date := by
  have hshakes : c.crossingShakes s d = true ↔ d.Tappable ∧ ∃ d' ∈ c.days, d'.date = d.date ∧
      d'.Tappable ∧ c.crosses s d.date = true := by
    rw [crossingShakes, decide_eq_true_iff, computeCrossingBlockedDates, List.mem_map]
    simp only [List.mem_filter, decide_eq_true_eq]
    refine and_congr_right fun _ => exists_congr fun d' => ?_
    constructor
    · rintro ⟨⟨hd', hopen, _, hcross⟩, hdate⟩
      exact ⟨hd', hdate, hopen, hdate ▸ hcross⟩
    · rintro ⟨hd', hdate, hopen, hcross⟩
      exact ⟨⟨hd', hopen, hdate ▸ hnone, hdate ▸ hcross⟩, hdate⟩
  unfold tap isDateDisabled
  by_cases hmem : d ∈ c.days
  · by_cases hopen : d.Tappable
    · by_cases hcross : c.crosses s d.date = true
      · have hyes := hshakes.mpr ⟨hopen, d, hmem, rfl, hopen, hcross⟩
        simp [hyes, hcross]
      · have hno : c.crossingShakes s d = false := by
          rw [Bool.eq_false_iff, ne_eq, hshakes]
          rintro ⟨_, _, _, _, _, h⟩
          exact hcross h
        have hcross' : c.crosses s d.date = false := by simpa using hcross
        by_cases hfull : d.isFullyBooked = true
        · by_cases hout : c.willSetCheckOut s d.date = true
          · simp only [hmem, hopen, hno, hcross', hfull, hout, not_true, if_false,
              Bool.false_eq_true, not_false_eq_true, and_self, if_true, true_and, decide_false,
              Option.some.injEq, forall_const]
            exact eq_comm
          · simp [hopen, hno, hfull, hout]
        · simp only [hmem, hopen, hno, hcross', hfull, not_true, if_false, Bool.false_eq_true,
            not_false_eq_true, and_self, if_true, true_and, Option.some.injEq, false_implies]
          exact eq_comm
    · simp [hopen]
  · simp [hmem]

theorem tap_clear (hsome : s.checkIn = some d.date) (h : c.tap s d = some s') :
    s' = ⟨none, none⟩ := by
  unfold tap at h
  split at h
  · rw [← Option.some.inj h, handleDailyDateSelect, if_pos hsome]
  · exact absurd h (by simp)

/-- A tap that is no departure, in min-night mode, selects the minimum stay. -/
theorem stay_of_arrival (hmin : 1 ≤ c.nights) (hd : d ∈ c.days) (hopen : d.Tappable)
    (hcross : c.crosses s d.date = false) (hin : c.willSetCheckOut s d.date = false) :
    c.Stay d.date (c.minCheckout d.date) := by
  have hend := (CivilDate.toDays_ofDays (d.date.toDays + c.nights)).1
  simp only [crosses, hin, Bool.false_eq_true, if_false, hmin, true_and, Bool.decide_eq_true]
    at hcross
  refine ⟨⟨d, hd, rfl, hopen⟩, ?_, ?_, .inl ⟨hmin, hend⟩, ?_⟩
  · rw [minCheckout, hend]
    omega
  · rw [minCheckout, hend]
  · rw [minCheckout, hend]
    exact rangeHitsUnavailable_false.mp hcross

/-- A tap that is a departure selects the stay up to it, or the minimum. -/
theorem stay_of_departure {checkIn last : CivilDate}
    (harrival : ∃ d ∈ c.days, d.date = checkIn ∧ d.Tappable) (hd : d ∈ c.days) (hopen : d.Tappable)
    (hin : s.checkIn = some checkIn) (hlt : checkIn.toDays < d.date.toDays)
    (hcross : c.crosses s d.date = false) (hout : c.willSetCheckOut s d.date = true)
    (hlast : last.toDays = c.endFor checkIn d.date) : c.Stay checkIn last := by
  simp only [crosses, hout, if_true, hin, Option.mem_some_iff, exists_eq_left',
    Bool.decide_eq_true] at hcross
  rw [← hlast] at hcross
  have hfree := rangeHitsUnavailable_false.mp hcross
  by_cases hsnap : 1 ≤ c.nights ∧ nightCount checkIn d.date < c.nights
  · rw [endFor, if_pos hsnap] at hlast
    exact ⟨harrival, by omega, hlast.ge, .inl ⟨hsnap.1, hlast⟩, hfree⟩
  · rw [endFor, if_neg hsnap] at hlast
    simp only [nightCount] at hsnap
    exact ⟨harrival, by omega, by omega, .inr ⟨d, hd, hlast.symm, hopen⟩, hfree⟩

/-- **A tap keeps the selection legal.** -/
theorem Legal.tap (h : c.Legal s) (hstep : c.tap s d = some s') : c.Legal s' := by
  by_cases hnone : s.checkIn = some d.date
  · rw [tap_clear hnone hstep]
    rfl
  obtain ⟨hd, hopen, hcross, _, rfl⟩ := (tap_eq_some hnone).mp hstep
  obtain ⟨checkIn, checkOut⟩ := s
  rw [handleDailyDateSelect, if_neg hnone]
  by_cases hmin : 1 ≤ c.nights
  · rw [if_pos hmin]
    cases checkIn with
    | none => exact stay_of_arrival hmin hd hopen hcross rfl
    | some checkIn =>
        by_cases hle : d.date.toDays ≤ checkIn.toDays
        · simp only [if_pos hle]
          refine stay_of_arrival hmin hd hopen hcross ?_
          simp [willSetCheckOut, hle]
        · have hlt := not_le.mp hle
          simp only [if_neg hle]
          cases checkOut with
          | none => exact absurd h.1 (by omega)
          | some checkOut =>
              refine stay_of_departure h.arrival hd hopen rfl hlt hcross
                (by simp [willSetCheckOut, hlt, hmin]) ?_
              simp only [endFor, hmin, true_and]
              split
              · exact (CivilDate.toDays_ofDays _).1
              · rfl
  · have hzero : c.nights = 0 := by omega
    rw [if_neg hmin]
    cases checkIn with
    | none => exact ⟨hzero, d, hd, rfl, hopen⟩
    | some checkIn =>
        cases checkOut with
        | some checkOut => exact ⟨hzero, d, hd, rfl, hopen⟩
        | none =>
            by_cases hle : d.date.toDays ≤ checkIn.toDays
            · simp only [if_pos hle]
              exact ⟨hzero, d, hd, rfl, hopen⟩
            · have hlt := not_le.mp hle
              simp only [if_neg hle]
              exact stay_of_departure h.2 hd hopen rfl hlt hcross
                (by simp [willSetCheckOut, hlt]) (by simp [endFor, hzero])

/-- The check-out a tap on `date` picks: too short a stay snaps to the minimum. -/
def picked (checkIn date : CivilDate) : CivilDate :=
  if 1 ≤ c.nights ∧ nightCount checkIn date < c.nights then c.minCheckout checkIn else date

/-- The check-in stays, and the check-out becomes the one that was picked. -/
def SetsOnlyCheckOut (s : StaySelection) (date : CivilDate) (s' : StaySelection) : Prop :=
  ∃ checkIn ∈ s.checkIn, s' = ⟨some checkIn, some (c.picked checkIn date)⟩

/-- The check-in stays and the check-out becomes another. -/
def MovesOnlyCheckOut (s s' : StaySelection) : Prop :=
  s'.checkIn ≠ none ∧ s'.checkIn = s.checkIn ∧ s'.checkOut ≠ s.checkOut

instance (s s' : StaySelection) : Decidable (MovesOnlyCheckOut s s') :=
  inferInstanceAs (Decidable (_ ∧ _ ∧ _))

/-- A departure sets the check-out that was picked. -/
theorem handleDailyDateSelect_departure {checkIn date : CivilDate} {checkOut : Option CivilDate}
    (h : c.willSetCheckOut ⟨some checkIn, checkOut⟩ date = true) :
    c.handleDailyDateSelect ⟨some checkIn, checkOut⟩ date =
      ⟨some checkIn, some (c.picked checkIn date)⟩ := by
  obtain ⟨hlt, hopen⟩ := of_decide_eq_true h
  have hne : ¬ checkIn = date := by
    intro heq
    rw [heq] at hlt
    exact lt_irrefl _ hlt
  by_cases hmin : 1 ≤ c.nights
  · simp [handleDailyDateSelect, picked, hne, hmin, not_le.mpr hlt]
  · have hnone : checkOut = none := hopen.resolve_left hmin
    subst hnone
    simp [handleDailyDateSelect, picked, hne, hmin, not_le.mpr hlt]

/-- Any other date leaves no stay from the same check-in. -/
theorem handleDailyDateSelect_other {s : StaySelection} {date : CivilDate}
    (h : c.willSetCheckOut s date = false) :
    (c.handleDailyDateSelect s date).checkIn = none ∨
      (c.handleDailyDateSelect s date).checkIn ≠ s.checkIn := by
  obtain ⟨checkIn, checkOut⟩ := s
  cases checkIn with
  | none =>
      refine .inr ?_
      by_cases hmin : 1 ≤ c.nights <;> simp [handleDailyDateSelect, hmin]
  | some checkIn =>
      by_cases hsame : checkIn = date
      · refine .inl ?_
        simp [handleDailyDateSelect, hsame]
      have hother : some date ≠ some checkIn := fun heq => hsame (Option.some.inj heq).symm
      refine .inr ?_
      have hnot : ¬ (checkIn.toDays < date.toDays ∧ (1 ≤ c.nights ∨ checkOut = none)) :=
        of_decide_eq_false h
      by_cases hmin : 1 ≤ c.nights
      · have hle : date.toDays ≤ checkIn.toDays := not_lt.mp fun hlt => hnot ⟨hlt, .inl hmin⟩
        simp only [handleDailyDateSelect, Option.some.injEq, hsame, if_false, hmin, if_true, hle]
        exact hother
      · cases checkOut with
        | none =>
            have hle : date.toDays ≤ checkIn.toDays := not_lt.mp fun hlt => hnot ⟨hlt, .inr rfl⟩
            simp only [handleDailyDateSelect, Option.some.injEq, hsame, if_false, hmin, hle,
              if_true]
            exact hother
        | some checkOut =>
            simp only [handleDailyDateSelect, Option.some.injEq, hsame, if_false, hmin]
            exact hother

/-- **`willSetCheckOut` foretells what the page does with a date.** -/
theorem willSetCheckOut_iff (c : BookingCalendar) (s : StaySelection) (date : CivilDate) :
    c.willSetCheckOut s date = true ↔
      c.SetsOnlyCheckOut s date (c.handleDailyDateSelect s date) := by
  constructor
  · intro h
    obtain ⟨checkIn, checkOut⟩ := s
    cases checkIn with
    | none => cases h
    | some checkIn => exact ⟨checkIn, rfl, c.handleDailyDateSelect_departure h⟩
  · intro h
    obtain ⟨checkIn, hin, hset⟩ := h
    by_contra hno
    rcases c.handleDailyDateSelect_other (Bool.eq_false_iff.mpr hno) with hnone | hne
    · rw [hset] at hnone
      cases hnone
    · rw [hset] at hne
      exact hne hin.symm

/-- The check-out moves when a departure picks another one. -/
theorem movesOnlyCheckOut_iff (c : BookingCalendar) (s : StaySelection) (date : CivilDate) :
    MovesOnlyCheckOut s (c.handleDailyDateSelect s date) ↔
      c.willSetCheckOut s date = true ∧
        ∀ checkIn ∈ s.checkIn, s.checkOut ≠ some (c.picked checkIn date) := by
  constructor
  · intro h
    obtain ⟨hsome, hsame, hmoves⟩ := h
    have hset : c.willSetCheckOut s date = true := by
      by_contra hno
      rcases c.handleDailyDateSelect_other (Bool.eq_false_iff.mpr hno) with hnone | hne
      · exact hsome hnone
      · exact hne hsame
    refine ⟨hset, ?_⟩
    intro checkIn hin heq
    obtain ⟨checkIn', hin', hstay⟩ := (willSetCheckOut_iff c s date).mp hset
    obtain rfl := Option.some.inj (hin'.symm.trans hin)
    rw [hstay, heq] at hmoves
    exact hmoves rfl
  · intro h
    obtain ⟨hset, hother⟩ := h
    obtain ⟨checkIn, hin, hstay⟩ := (willSetCheckOut_iff c s date).mp hset
    rw [hstay]
    exact ⟨by simp, hin.symm, fun heq => hother checkIn hin heq.symm⟩

/-- **Taps only build valid stays**, and a tap is said to set the check-out exactly when it
leaves the check-in and sets the check-out that was picked, which moves unless it is there
already. -/
theorem taps_build_valid_stays (run : Run c.tap (fun _ _ => True) ⟨none, none⟩ s) :
    (∀ checkIn ∈ s.checkIn, ∀ checkOut ∈ s.checkOut,
      (∃ d ∈ c.days, d.date = checkIn ∧ d.isActiveDay = true ∧ d.isPast = false) ∧
        (∀ d ∈ c.days, checkIn.toDays ≤ d.date.toDays → d.date.toDays < checkOut.toDays →
          d.isBlocked = false ∧ d.isFullyBooked = false) ∧
        max 1 (c.nights : Int) ≤ nightCount checkIn checkOut) ∧
      ∀ d s', c.tap s d = some s' →
        (c.willSetCheckOut s d.date = true ↔ c.SetsOnlyCheckOut s d.date s') ∧
        (MovesOnlyCheckOut s s' ↔ c.willSetCheckOut s d.date = true ∧
          ∀ checkIn ∈ s.checkIn, s.checkOut ≠ some (c.picked checkIn d.date)) := by
  have hlegal : c.Legal s := run.invariant c.Legal (fun _ _ _ h _ hstep => h.tap hstep) rfl
  refine ⟨fun checkIn hin checkOut hout => ?_, fun d s' htap => ?_⟩
  · obtain ⟨in', out'⟩ := s
    obtain rfl := Option.mem_def.mp hin
    obtain rfl := Option.mem_def.mp hout
    have hstay : c.Stay checkIn checkOut := hlegal
    obtain ⟨d, hd, hdate, hpast, hactive⟩ := hstay.arrival
    refine ⟨⟨d, hd, hdate, hactive, hpast⟩, fun d hd hle hlt => ?_, ?_⟩
    · have hfree := hstay.free d hd hle hlt
      simpa only [not_or, Bool.not_eq_true] using hfree
    · have hdates := hstay.dates
      have hminimum := hstay.minimum
      simp only [nightCount]
      omega
  · obtain rfl : s' = c.handleDailyDateSelect s d.date := by
      unfold tap at htap
      split at htap
      · exact (Option.some.inj htap).symm
      · cases htap
    exact ⟨willSetCheckOut_iff c s d.date, movesOnlyCheckOut_iff c s d.date⟩

/-- A day of a calendar, free or full. -/
def dayOf (date : CivilDate) (full : Bool) : CalendarDay where
  date := date
  dayOfWeek := "Fri"
  price := 10000
  isSpecialPrice := false
  isActiveDay := true
  isPast := false
  capacity := some 1
  booked := if full then 1 else 0
  available := some (if full then 0 else 1)
  isFullyBooked := full
  isBlocked := false
  isFullyBlocked := false

/-- Three nights, the last of them full. -/
def threeNights : BookingCalendar where
  days := [dayOf ⟨2030, 3, 1⟩ false, dayOf ⟨2030, 3, 2⟩ false, dayOf ⟨2030, 3, 3⟩ true]
  minNights := none

/-- Two free nights with the departure on the full one. -/
theorem taps_build_valid_stays_departing_full :
    ∃ s, s = (⟨some ⟨2030, 3, 1⟩, some ⟨2030, 3, 3⟩⟩ : StaySelection) ∧
      ((∀ checkIn ∈ s.checkIn, ∀ checkOut ∈ s.checkOut,
        (∃ d ∈ threeNights.days, d.date = checkIn ∧ d.isActiveDay = true ∧ d.isPast = false) ∧
          (∀ d ∈ threeNights.days, checkIn.toDays ≤ d.date.toDays →
            d.date.toDays < checkOut.toDays → d.isBlocked = false ∧ d.isFullyBooked = false) ∧
          max 1 (threeNights.nights : Int) ≤ nightCount checkIn checkOut) ∧
        ∀ d s', threeNights.tap s d = some s' →
          (threeNights.willSetCheckOut s d.date = true ↔
            threeNights.SetsOnlyCheckOut s d.date s') ∧
          (MovesOnlyCheckOut s s' ↔ threeNights.willSetCheckOut s d.date = true ∧
            ∀ checkIn ∈ s.checkIn, s.checkOut ≠ some (threeNights.picked checkIn d.date))) := by
  obtain ⟨s, run, h⟩ := @Run.of_execAll_test _ _ threeNights.tap (fun _ _ => True) _
    [dayOf ⟨2030, 3, 1⟩ false, dayOf ⟨2030, 3, 3⟩ true] ⟨none, none⟩
    (fun s => s = ⟨some ⟨2030, 3, 1⟩, some ⟨2030, 3, 3⟩⟩) (by decide +kernel)
  exact ⟨s, of_decide_eq_true h, taps_build_valid_stays run⟩

/-- With a minimum of two nights, the night after the check-in is too short a stay: the tap is
said to set the check-out, which snaps to the date it is at. -/
theorem departure_moves_nothing :
    ∃ s d s', Run (BookingCalendar.mk threeNights.days (some 2)).tap (fun _ _ => True)
        ⟨none, none⟩ s ∧
      (BookingCalendar.mk threeNights.days (some 2)).tap s d = some s' ∧
      ¬ ((BookingCalendar.mk threeNights.days (some 2)).willSetCheckOut s d.date = true ↔
        MovesOnlyCheckOut s s') := by
  obtain ⟨s, run, h⟩ := @Run.of_execAll_test _ _
    (BookingCalendar.mk threeNights.days (some 2)).tap (fun _ _ => True) _
    [dayOf ⟨2030, 3, 1⟩ false] ⟨none, none⟩
    (fun s => ((BookingCalendar.mk threeNights.days (some 2)).tap s
        (dayOf ⟨2030, 3, 2⟩ false)).any (fun s' =>
      (BookingCalendar.mk threeNights.days (some 2)).willSetCheckOut s ⟨2030, 3, 2⟩ = true ∧
        ¬ MovesOnlyCheckOut s s')) (by decide +kernel)
  obtain ⟨s', htap, hnot⟩ := (Option.any_eq_true _ _).mp h
  obtain ⟨hset, hmoves⟩ := of_decide_eq_true hnot
  exact ⟨s, _, s', run, htap, fun hiff => hmoves (hiff.mp hset)⟩

end BookingCalendar

/-! ## The server -/

variable {env : Env} {a : Activity} {db : Db} {now : Instant} {tz : String}
  {dto : CreateBookingDto} {checkOut : CivilDate}

section Offer

variable {year mon year' mon' : Int} {left right : List CalendarDay} {country : Country}

end Offer

/-! ## A room each night and none for both -/

end Jadwal
