import Jadwal.IsoDate

/-!
# Adding months

`addMonthsClamped` works on the host's `Date`, whose setters carry days into
months and months into years and whose range ends a hundred million days from
1970.  `addMonthsClamped_spec` says what it returns, and
`addMonthsClamped_civil` that the rest of the model may compute on the date
alone.
-/

namespace Jadwal

/-! ## The calendar -/

def isLeapYear (year : Int) : Bool := year % 4 = 0 ∧ (year % 100 ≠ 0 ∨ year % 400 = 0)

def monthLength (year month : Int) : Int :=
  if month = 2 then (if isLeapYear year then 29 else 28)
  else if month = 4 ∨ month = 6 ∨ month = 9 ∨ month = 11 then 30
  else 31

theorem monthLength_bounds (year month : Int) :
    28 ≤ monthLength year month ∧ monthLength year month ≤ 31 := by
  unfold monthLength
  split_ifs <;> omega

/-- Months since the year 0. -/
def monthOf (index : Int) : CivilDate := ⟨index / 12, index % 12 + 1, 1⟩

namespace CivilDate

/-- The date is one of the calendar. -/
structure IsReal (d : CivilDate) : Prop where
  month_pos : 1 ≤ d.month
  month_le : d.month ≤ 12
  day_pos : 1 ≤ d.day
  day_le : d.day ≤ monthLength d.year d.month

/-- The number of the month the date is in. -/
def monthIndex (d : CivilDate) : Int := d.year * 12 + (d.month - 1)

end CivilDate

/-- A month is as long as its table says. -/
theorem monthOf_succ (index : Int) : (monthOf (index + 1)).toDays =
    (monthOf index).toDays + monthLength (monthOf index).year (monthOf index).month := by
  obtain ⟨year, hyear⟩ : ∃ year, year = index / 12 := ⟨_, rfl⟩
  obtain ⟨month, hmonth⟩ : ∃ month, month = index % 12 := ⟨_, rfl⟩
  have hrange : 0 ≤ month ∧ month < 12 := by omega
  by_cases hlast : month = 11
  · have hnext : (index + 1) / 12 = year + 1 ∧ (index + 1) % 12 = 0 := by omega
    simp only [monthOf, hnext, ← hyear, ← hmonth, hlast, CivilDate.toDays, monthLength]
    simp
    omega
  · have hnext : (index + 1) / 12 = year ∧ (index + 1) % 12 = month + 1 := by omega
    simp only [monthOf, hnext, ← hyear, ← hmonth, CivilDate.toDays, monthLength, isLeapYear]
    clear hyear hmonth hnext
    by_cases hfeb : month = 1
    · subst hfeb
      simp
      split_ifs <;> omega
    · have hcases : month = 0 ∨ month = 2 ∨ month = 3 ∨ month = 4 ∨ month = 5 ∨ month = 6 ∨
          month = 7 ∨ month = 8 ∨ month = 9 ∨ month = 10 := by omega
      rcases hcases with rfl | rfl | rfl | rfl | rfl | rfl | rfl | rfl | rfl | rfl <;>
        simp <;> omega

/-- Later months start later, by the length of the months between. -/
theorem monthOf_lt {i j : Int} (h : i < j) : (monthOf i).toDays +
    monthLength (monthOf i).year (monthOf i).month ≤ (monthOf j).toDays := by
  obtain ⟨n, rfl⟩ : ∃ n : Nat, j = i + 1 + n := ⟨(j - (i + 1)).toNat, by omega⟩
  clear h
  induction n with
  | zero =>
      have hnext := monthOf_succ i
      simp only [Nat.cast_zero, add_zero]
      omega
  | succ n ih =>
      have hnext := monthOf_succ (i + 1 + n)
      have hlong := (monthLength_bounds (monthOf (i + 1 + n)).year (monthOf (i + 1 + n)).month).1
      rw [show i + 1 + ((n + 1 : Nat) : Int) = i + 1 + n + 1 by omega]
      omega

namespace CivilDate

variable {d d' : CivilDate}

theorem IsReal.monthOf_monthIndex (h : d.IsReal) :
    monthOf d.monthIndex = ⟨d.year, d.month, 1⟩ := by
  obtain ⟨hpos, hle, _, _⟩ := h
  have hyear : d.monthIndex / 12 = d.year := by
    unfold monthIndex
    omega
  have hmonth : d.monthIndex % 12 + 1 = d.month := by
    unfold monthIndex
    omega
  rw [monthOf, hyear, hmonth]

theorem toDays_eq (d : CivilDate) :
    d.toDays = (CivilDate.mk d.year d.month 1).toDays + (d.day - 1) := by
  simp only [toDays]
  omega

theorem IsReal.toDays_eq_monthOf (h : d.IsReal) :
    d.toDays = (monthOf d.monthIndex).toDays + (d.day - 1) := by
  rw [h.monthOf_monthIndex, d.toDays_eq]

theorem IsReal.day_le_monthOf (h : d.IsReal) :
    d.day ≤ monthLength (monthOf d.monthIndex).year (monthOf d.monthIndex).month := by
  rw [h.monthOf_monthIndex]
  exact h.day_le

/-- A date of an earlier month has an earlier day number. -/
theorem IsReal.toDays_lt (h : d.IsReal) (h' : d'.IsReal) (hlt : d.monthIndex < d'.monthIndex) :
    d.toDays < d'.toDays := by
  have hmonths := monthOf_lt hlt
  have hday := h.day_le_monthOf
  have hpos := h'.day_pos
  rw [h.toDays_eq_monthOf, h'.toDays_eq_monthOf]
  omega

theorem monthIndex_le_of_toDays (h : d.IsReal) (h' : d'.IsReal) (hle : d.toDays ≤ d'.toDays) :
    d.monthIndex ≤ d'.monthIndex := by
  by_contra hlt
  have hback := h'.toDays_lt h (by omega)
  omega

/-- Two real dates with one day number are the same. -/
theorem IsReal.eq_of_toDays (h : d.IsReal) (h' : d'.IsReal) (heq : d.toDays = d'.toDays) :
    d = d' := by
  have hindex : d.monthIndex = d'.monthIndex :=
    le_antisymm (monthIndex_le_of_toDays h h' heq.le) (monthIndex_le_of_toDays h' h heq.ge)
  have hfirst : CivilDate.mk d.year d.month 1 = ⟨d'.year, d'.month, 1⟩ := by
    rw [← h.monthOf_monthIndex, ← h'.monthOf_monthIndex, hindex]
  have hday : d.day = d'.day := by
    rw [h.toDays_eq_monthOf, h'.toDays_eq_monthOf, hindex] at heq
    omega
  obtain ⟨year, month, dayOfMonth⟩ := d
  obtain ⟨year', month', dayOfMonth'⟩ := d'
  simp only [mk.injEq, and_true] at hfirst hday ⊢
  exact ⟨hfirst.1, hfirst.2, hday⟩

/-- The last day of a year that starts in March is a leap day. -/
theorem leap_of_yearOfEra {doe yoe : Int} (h0 : 0 ≤ doe) (h1 : doe < 146097)
    (hy : yoe = (doe - doe / 1460 + doe / 36524 - doe / 146096) / 365)
    (hd : doe - (365 * yoe + yoe / 4 - yoe / 100) = 365) :
    (yoe + 1) % 4 = 0 ∧ ((yoe + 1) % 100 ≠ 0 ∨ (yoe + 1) % 400 = 0) := by
  obtain ⟨century, hc⟩ : ∃ century, century = doe / 36524 := ⟨_, rfl⟩
  obtain ⟨cycle, hb⟩ : ∃ cycle, cycle = doe / 1460 := ⟨_, rfl⟩
  obtain ⟨quad, hquad⟩ : ∃ quad, quad = yoe / 4 := ⟨_, rfl⟩
  have hyoe : 0 ≤ yoe ∧ yoe < 400 := by
    clear hd
    omega
  have hcent : yoe / 100 = century ∨ (century = 4 ∧ yoe = 399 ∧ doe = 146096) := by
    clear hd
    omega
  rw [← hc, ← hb] at hy
  rcases hcent with hcent | ⟨_, rfl, _⟩
  · have hlast : doe / 146096 = 0 := by
      clear hd
      omega
    rw [hlast, sub_zero] at hy
    rw [hcent, ← hquad] at hd
    have hfour : yoe = 4 * quad + 3 := by
      clear hcent hlast
      omega
    clear hy hb hquad
    omega
  · omega

/-- **Every day number is that of a real date.** -/
theorem isReal_ofDays (days : Int) : (ofDays days).IsReal := by
  obtain ⟨_, ⟨hpos, hle⟩, hfirst, _⟩ := toDays_ofDays days
  refine ⟨hpos, hle, hfirst, ?_⟩
  obtain ⟨era, hera⟩ : ∃ era, era = (days + 719468) / 146097 := ⟨_, rfl⟩
  obtain ⟨doe, hdoe⟩ : ∃ doe, doe = days + 719468 - era * 146097 := ⟨_, rfl⟩
  obtain ⟨yoe, hyoe⟩ : ∃ yoe, yoe =
      (doe - doe / 1460 + doe / 36524 - doe / 146096) / 365 := ⟨_, rfl⟩
  obtain ⟨doy, hdoy⟩ : ∃ doy, doy = doe - (365 * yoe + yoe / 4 - yoe / 100) := ⟨_, rfl⟩
  obtain ⟨mp, hmp⟩ : ∃ mp, mp = (5 * doy + 2) / 153 := ⟨_, rfl⟩
  have hrange : 0 ≤ doe ∧ doe < 146097 := by omega
  obtain ⟨_, _, hd0, hd1⟩ := yearOfEra_bounds hrange.1 hrange.2 hyoe hdoy
  have hleap := leap_of_yearOfEra hrange.1 hrange.2 hyoe
  simp only [ofDays, ← hera, ← hdoe, ← hyoe, ← hdoy, ← hmp, monthLength, isLeapYear]
  rw [← hdoy] at hleap
  clear hdoy hyoe hrange hdoe hera hpos hle hfirst
  by_cases hfeb : mp = 11
  · simp only [hfeb]
    simp
    split_ifs with h <;> omega
  · have hcases : mp = 0 ∨ mp = 1 ∨ mp = 2 ∨ mp = 3 ∨ mp = 4 ∨ mp = 5 ∨ mp = 6 ∨ mp = 7 ∨
        mp = 8 ∨ mp = 9 ∨ mp = 10 := by omega
    clear hleap
    rcases hcases with rfl | rfl | rfl | rfl | rfl | rfl | rfl | rfl | rfl | rfl | rfl <;>
      simp <;> omega

theorem IsReal.ofDays_toDays (h : d.IsReal) : ofDays d.toDays = d :=
  (isReal_ofDays _).eq_of_toDays h (toDays_ofDays _).1

end CivilDate

/-! ## The host's dates -/

/-- `MakeDay`, whose months count from 0: months beyond December are carried
into the year, and days beyond the month into the next ones. -/
def makeDay (year month date : Int) : Int :=
  (CivilDate.mk (year + month / 12) (month % 12 + 1) 1).toDays + (date - 1)

/-- The days a `Date` reaches from 1970. -/
def maxDateDays : Int := 100000000

/-- `TimeClip`; `none` is an invalid date. -/
def timeClip (t : Instant) : Option Instant :=
  if -(maxDateDays * day) ≤ t ∧ t ≤ maxDateDays * day then some t else none

def getUTCFullYear (t : Instant) : Int := (utcDate t).year

def getUTCMonth (t : Instant) : Int := (utcDate t).month - 1

def getUTCDate (t : Instant) : Int := (utcDate t).day

def setUTCDate (t : Instant) (date : Int) : Option Instant :=
  timeClip (makeDay (getUTCFullYear t) (getUTCMonth t) date * day + t % day)

def setUTCMonth (t : Instant) (month : Int) : Option Instant :=
  timeClip (makeDay (getUTCFullYear t) month (getUTCDate t) * day + t % day)

/-- The years 0 to 99 are those of the 1900s. -/
def dateUTC (year month date : Int) : Option Instant :=
  timeClip (makeDay (if 0 ≤ year ∧ year ≤ 99 then 1900 + year else year) month date * day)

def addMonthsClamped (date : Instant) (months : Int) : Option Instant := do
  let dayOfMonth := getUTCDate date
  let out ← setUTCDate date 1
  let out ← setUTCMonth out (getUTCMonth out + months)
  let lastDayOfTarget ← dateUTC (getUTCFullYear out) (getUTCMonth out + 1) 0
  setUTCDate out (min dayOfMonth (getUTCDate lastDayOfTarget))

theorem timeClip_eq_some {t r : Instant} : timeClip t = some r ↔
    (-(maxDateDays * day) ≤ t ∧ t ≤ maxDateDays * day) ∧ t = r := by
  unfold timeClip
  split <;> simp [*]

/-- The day number and the time of day of an instant. -/
theorem div_day (days : Int) {rest : Int} (h : 0 ≤ rest ∧ rest < day) :
    (days * day + rest) / day = days ∧ (days * day + rest) % day = rest := by
  have hday : (day : Int) = 86400000 := by decide
  rw [hday] at h ⊢
  omega

theorem mod_day (t : Instant) : 0 ≤ t % day ∧ t % day < day := by
  have hday : (day : Int) = 86400000 := by decide
  rw [hday]
  lia

/-- Days of a month reached by carrying months into years. -/
theorem makeDay_eq (index months date : Int) :
    makeDay (monthOf index).year ((monthOf index).month - 1 + months) date =
      (monthOf (index + months)).toDays + (date - 1) := by
  have hyear : index / 12 + (index % 12 + months) / 12 = (index + months) / 12 := by omega
  have hmonth : (index % 12 + months) % 12 = (index + months) % 12 := by omega
  simp only [makeDay, monthOf, add_sub_cancel_right, hyear, hmonth]

theorem monthOf_isReal (index : Int) : (monthOf index).IsReal := by
  have hlong := (monthLength_bounds (monthOf index).year (monthOf index).month).1
  refine ⟨?_, ?_, ?_, ?_⟩
  · simp only [monthOf]
    omega
  · simp only [monthOf]
    omega
  · exact le_rfl
  · exact le_trans (by decide : (1 : Int) ≤ 28) hlong

@[simp] theorem monthIndex_monthOf (index : Int) : (monthOf index).monthIndex = index := by
  simp only [CivilDate.monthIndex, monthOf]
  omega

/-- The month's day of that number is a real date of the month. -/
theorem monthDay_isReal {index date : Int} (hpos : 1 ≤ date)
    (hle : date ≤ monthLength (monthOf index).year (monthOf index).month) :
    (CivilDate.mk (monthOf index).year (monthOf index).month date).IsReal :=
  ⟨(monthOf_isReal index).month_pos, (monthOf_isReal index).month_le, hpos, hle⟩

theorem ofDays_monthOf {index date : Int} (hpos : 1 ≤ date)
    (hle : date ≤ monthLength (monthOf index).year (monthOf index).month) :
    CivilDate.ofDays ((monthOf index).toDays + (date - 1)) =
      ⟨(monthOf index).year, (monthOf index).month, date⟩ := by
  have hback := (monthDay_isReal hpos hle).ofDays_toDays
  rw [CivilDate.toDays_eq] at hback
  exact hback

/-! ## The clamp -/

/-- The host holds every month from the date's own to the target. -/
structure HoldsMonths (date : Instant) (months : Int) : Prop where
  first : -maxDateDays ≤ (monthOf (utcDate date).monthIndex).toDays
  last : (monthOf ((utcDate date).monthIndex + months + 1)).toDays ≤ maxDateDays

/-- The length of a month by `Date.UTC`, which takes the years 0 to 99 for
those of the 1900s. -/
def hostMonthLength (year month : Int) : Int :=
  monthLength (if 0 ≤ year ∧ year ≤ 99 then 1900 + year else year) month

/-- Only the leap year 0 has another month of that name. -/
theorem hostMonthLength_eq {year month : Int} (h : ¬ (year = 0 ∧ month = 2)) :
    hostMonthLength year month = monthLength year month := by
  unfold hostMonthLength
  split
  case isFalse => rfl
  case isTrue hearly =>
    have hleap : year ≠ 0 → isLeapYear (1900 + year) = isLeapYear year := by
      intro hne
      simp only [isLeapYear, decide_eq_decide]
      omega
    unfold monthLength
    by_cases hfeb : month = 2
    · rw [if_pos hfeb, if_pos hfeb, hleap fun hzero => h ⟨hzero, hfeb⟩]
    · rw [if_neg hfeb, if_neg hfeb]

theorem hostMonthLength_bounds (year month : Int) :
    28 ≤ hostMonthLength year month ∧ hostMonthLength year month ≤ monthLength year month := by
  by_cases hzero : year = 0 ∧ month = 2
  · rw [hzero.1, hzero.2]
    decide
  · rw [hostMonthLength_eq hzero]
    exact ⟨(monthLength_bounds year month).1, le_rfl⟩

theorem timeClip_day {days rest : Int} (hlow : -maxDateDays ≤ days) (hhigh : days < maxDateDays)
    (hrest : 0 ≤ rest ∧ rest < day) :
    timeClip (days * day + rest) = some (days * day + rest) := by
  refine timeClip_eq_some.mpr ⟨?_, rfl⟩
  have hday : (day : Int) = 86400000 := by decide
  rw [hday] at hrest ⊢
  lia

theorem utcDate_day {index date rest : Int} (hpos : 1 ≤ date)
    (hle : date ≤ monthLength (monthOf index).year (monthOf index).month)
    (hrest : 0 ≤ rest ∧ rest < day) :
    utcDate (((monthOf index).toDays + (date - 1)) * day + rest) =
      ⟨(monthOf index).year, (monthOf index).month, date⟩ := by
  rw [utcDate, (div_day _ hrest).1, ofDays_monthOf hpos hle]

/-- Setting the day of a month the host holds. -/
theorem setUTCDate_monthOf {index date newDate rest : Int} (hpos : 1 ≤ date)
    (hle : date ≤ monthLength (monthOf index).year (monthOf index).month)
    (hrest : 0 ≤ rest ∧ rest < day)
    (hlow : -maxDateDays ≤ (monthOf index).toDays + (newDate - 1))
    (hhigh : (monthOf index).toDays + (newDate - 1) < maxDateDays) :
    setUTCDate (((monthOf index).toDays + (date - 1)) * day + rest) newDate =
      some (((monthOf index).toDays + (newDate - 1)) * day + rest) := by
  have hday : makeDay (monthOf index).year ((monthOf index).month - 1) newDate =
      (monthOf index).toDays + (newDate - 1) := by
    have heq := makeDay_eq index 0 newDate
    rwa [add_zero, add_zero] at heq
  rw [setUTCDate, getUTCFullYear, getUTCMonth, utcDate_day hpos hle hrest, hday,
    (div_day _ hrest).2]
  exact timeClip_day hlow hhigh hrest

/-- The last day of a month by `Date.UTC(year, month + 1, 0)`. -/
theorem getUTCDate_dateUTC {index : Int}
    (hlow : -maxDateDays ≤ (monthOf index).toDays)
    (hhigh : (monthOf (index + 1)).toDays ≤ maxDateDays) :
    ∃ last, dateUTC (monthOf index).year ((monthOf index).month - 1 + 1) 0 = some last ∧
      getUTCDate last = hostMonthLength (monthOf index).year (monthOf index).month := by
  obtain ⟨host, hyear, hmonth, hheld⟩ : ∃ host,
      (if 0 ≤ (monthOf index).year ∧ (monthOf index).year ≤ 99 then 1900 + (monthOf index).year
        else (monthOf index).year) = (monthOf host).year ∧
      (monthOf index).month = (monthOf host).month ∧
      -maxDateDays ≤ (monthOf host).toDays ∧ (monthOf (host + 1)).toDays ≤ maxDateDays := by
    by_cases hearly : 0 ≤ (monthOf index).year ∧ (monthOf index).year ≤ 99
    · refine ⟨index + 1900 * 12, ?_, ?_, ?_, ?_⟩
      · rw [if_pos hearly]
        simp only [monthOf]
        omega
      · simp only [monthOf]
        omega
      · have hlater := monthOf_lt (show index < index + 1900 * 12 by omega)
        have hlong := (monthLength_bounds (monthOf index).year (monthOf index).month).1
        omega
      · simp only [monthOf] at hearly
        have hnew := monthOf_lt (show index + 1900 * 12 + 1 < 2001 * 12 by omega)
        have hlong := (monthLength_bounds (monthOf (index + 1900 * 12 + 1)).year
          (monthOf (index + 1900 * 12 + 1)).month).1
        have hconst : (monthOf (2001 * 12)).toDays ≤ maxDateDays := by decide
        omega
    · exact ⟨index, if_neg hearly, rfl, hlow, hhigh⟩
  have hlast := monthOf_succ host
  have hlong := (monthLength_bounds (monthOf host).year (monthOf host).month).1
  have hzero : (0 : Int) ≤ 0 ∧ (0 : Int) < day := by decide
  have hdays : makeDay (monthOf host).year ((monthOf host).month - 1 + 1) 0 =
      (monthOf host).toDays + (monthLength (monthOf host).year (monthOf host).month - 1) := by
    rw [makeDay_eq]
    omega
  rw [dateUTC, hostMonthLength, hyear, hmonth, hdays]
  refine ⟨((monthOf host).toDays + (monthLength (monthOf host).year (monthOf host).month - 1)) *
      day + 0, ?_, ?_⟩
  · rw [← timeClip_day (by omega) (by omega) hzero, add_zero]
  · rw [getUTCDate, utcDate_day (by omega) le_rfl hzero]

/-- Moving the first of a month by whole months. -/
theorem setUTCMonth_monthOf {index months rest : Int} (hrest : 0 ≤ rest ∧ rest < day)
    (hlow : -maxDateDays ≤ (monthOf (index + months)).toDays)
    (hhigh : (monthOf (index + months)).toDays < maxDateDays) :
    setUTCMonth (((monthOf index).toDays + (1 - 1)) * day + rest)
        (getUTCMonth (((monthOf index).toDays + (1 - 1)) * day + rest) + months) =
      some (((monthOf (index + months)).toDays + (1 - 1)) * day + rest) := by
  have hlong := (monthLength_bounds (monthOf index).year (monthOf index).month).1
  have hdate := utcDate_day le_rfl (le_trans (by decide : (1 : Int) ≤ 28) hlong) hrest
  rw [setUTCMonth, getUTCMonth, getUTCFullYear, getUTCDate, hdate]
  dsimp only
  rw [makeDay_eq, (div_day _ hrest).2]
  exact timeClip_day (by omega) (by omega) hrest

/-- **What the function returns**: the same time of day in the target month, on the day asked
for or the last one by `Date.UTC`. -/
theorem addMonthsClamped_eq {date : Instant} {months : Int} (hmonths : 0 ≤ months)
    (hheld : HoldsMonths date months) :
    addMonthsClamped date months = some (
      ((monthOf ((utcDate date).monthIndex + months)).toDays +
        (min (utcDate date).day
          (hostMonthLength (monthOf ((utcDate date).monthIndex + months)).year
            (monthOf ((utcDate date).monthIndex + months)).month) - 1)) * day + date % day) := by
  obtain ⟨index, hindex⟩ : ∃ index, index = (utcDate date).monthIndex := ⟨_, rfl⟩
  obtain ⟨rest, hrestEq⟩ : ∃ rest, rest = date % day := ⟨_, rfl⟩
  have hreal : (utcDate date).IsReal := CivilDate.isReal_ofDays _
  have hrest := hrestEq ▸ mod_day date
  obtain ⟨hfirst, hlast⟩ := hheld
  rw [← hindex] at hfirst hlast ⊢
  have hlong := (monthLength_bounds (monthOf index).year (monthOf index).month).1
  have htarget := monthOf_succ (index + months)
  have hhost := hostMonthLength_bounds (monthOf (index + months)).year
    (monthOf (index + months)).month
  have hlater : (monthOf index).toDays ≤ (monthOf (index + months)).toDays := by
    rcases hmonths.lt_or_eq with hpos | hzero
    · have hlt := monthOf_lt (show index < index + months by omega)
      omega
    · rw [← hzero, add_zero]
  -- the date is a day of its month, at its time of day
  have hdate : date = ((monthOf index).toDays + ((utcDate date).day - 1)) * day + rest := by
    rw [hindex, ← hreal.toDays_eq_monthOf, utcDate, (CivilDate.toDays_ofDays _).1, hrestEq]
    exact (Int.ediv_mul_add_emod date day).symm
  have hone : setUTCDate date 1 = some (((monthOf index).toDays + (1 - 1)) * day + rest) := by
    rw [hdate]
    exact setUTCDate_monthOf hreal.day_pos (hindex ▸ hreal.day_le_monthOf) hrest (by omega)
      (by omega)
  have hdateTarget := @utcDate_day (index + months) 1 rest le_rfl (by omega) hrest
  obtain ⟨last, hlastEq, hlastDay⟩ := getUTCDate_dateUTC (hfirst.trans hlater) hlast
  have hpos := hreal.day_pos
  rw [addMonthsClamped, hone, Option.bind_eq_bind, Option.bind_some,
    setUTCMonth_monthOf hrest (by omega) (by omega), Option.bind_some]
  rw [getUTCFullYear, getUTCMonth, hdateTarget, hlastEq, Option.bind_some, hlastDay, ← hrestEq,
    getUTCDate]
  exact setUTCDate_monthOf le_rfl (by omega) hrest (by omega) (by omega)

/-- The instant is the date moved by whole months: a real date of the month exactly
that many later, on the same day or the month's last, at the same time of day. -/
structure MovedByMonths (date : Instant) (months : Int) (r : Instant) : Prop where
  isReal : (utcDate r).IsReal
  month : (utcDate r).monthIndex = (utcDate date).monthIndex + months
  day : (utcDate r).day =
    min (utcDate date).day (monthLength (utcDate r).year (utcDate r).month)
  time : r % Jadwal.day = date % Jadwal.day

variable {date : Instant} {months : Int}

/-- The date the function returns. -/
theorem addMonthsClamped_utcDate (hmonths : 0 ≤ months) (hheld : HoldsMonths date months) :
    ∃ r, addMonthsClamped date months = some r ∧ r % day = date % day ∧
      utcDate r = ⟨(monthOf ((utcDate date).monthIndex + months)).year,
        (monthOf ((utcDate date).monthIndex + months)).month,
        min (utcDate date).day (hostMonthLength
          (monthOf ((utcDate date).monthIndex + months)).year
          (monthOf ((utcDate date).monthIndex + months)).month)⟩ := by
  have hhost := hostMonthLength_bounds (monthOf ((utcDate date).monthIndex + months)).year
    (monthOf ((utcDate date).monthIndex + months)).month
  have hpos := (CivilDate.isReal_ofDays (date / day)).day_pos
  change 1 ≤ (utcDate date).day at hpos
  refine ⟨_, addMonthsClamped_eq hmonths hheld, (div_day _ (mod_day date)).2, ?_⟩
  exact utcDate_day (by omega) (by omega) (mod_day date)

/-- No later date is moved to an earlier one. -/
theorem addMonthsClamped_mono {later r r' : Instant} (hmonths : 0 ≤ months)
    (hheld : HoldsMonths date months) (hheld' : HoldsMonths later months)
    (hle : date / day ≤ later / day) (hr : addMonthsClamped date months = some r)
    (hr' : addMonthsClamped later months = some r') : r / day ≤ r' / day := by
  have hreal : (utcDate date).IsReal := CivilDate.isReal_ofDays _
  have hreal' : (utcDate later).IsReal := CivilDate.isReal_ofDays _
  have hdays : (utcDate date).toDays ≤ (utcDate later).toDays := by
    rwa [utcDate, utcDate, (CivilDate.toDays_ofDays _).1, (CivilDate.toDays_ofDays _).1]
  have hindex := CivilDate.monthIndex_le_of_toDays hreal hreal' hdays
  rw [addMonthsClamped_eq hmonths hheld, Option.some.injEq] at hr
  rw [addMonthsClamped_eq hmonths hheld', Option.some.injEq] at hr'
  rw [← hr, ← hr', (div_day _ (mod_day _)).1, (div_day _ (mod_day _)).1]
  rcases hindex.lt_or_eq with hlt | heq
  · have hnext := monthOf_lt (show (utcDate date).monthIndex + months <
      (utcDate later).monthIndex + months by omega)
    have hhost := hostMonthLength_bounds (monthOf ((utcDate date).monthIndex + months)).year
      (monthOf ((utcDate date).monthIndex + months)).month
    have hhost' := hostMonthLength_bounds (monthOf ((utcDate later).monthIndex + months)).year
      (monthOf ((utcDate later).monthIndex + months)).month
    have hpos := hreal'.day_pos
    lia
  · rw [hreal.toDays_eq_monthOf, hreal'.toDays_eq_monthOf, heq] at hdays
    rw [heq]
    lia

/-- **Months are added as the calendar counts them**, wherever the host holds the months
and the date is not clamped in the leap year 0. -/
theorem addMonthsClamped_spec (hmonths : 0 ≤ months) (hheld : HoldsMonths date months)
    (hzero : (utcDate date).monthIndex + months = 1 → (utcDate date).day ≤ 28) :
    ∃ r, addMonthsClamped date months = some r ∧ MovedByMonths date months r ∧
      ∀ later r', date / day ≤ later / day → HoldsMonths later months →
        addMonthsClamped later months = some r' → r / day ≤ r' / day := by
  obtain ⟨r, hr, htime, hdate⟩ := addMonthsClamped_utcDate hmonths hheld
  obtain ⟨index, hindex⟩ : ∃ index, index = (utcDate date).monthIndex + months := ⟨_, rfl⟩
  have hreal : (utcDate r).IsReal := CivilDate.isReal_ofDays _
  rw [← hindex] at hdate hzero
  refine ⟨r, hr, ⟨hreal, ?_, ?_, htime⟩, fun later r' hle hheld' hr' =>
    addMonthsClamped_mono hmonths hheld hheld' hle hr hr'⟩
  · rw [hdate, ← hindex]
    exact monthIndex_monthOf index
  · rw [hdate]
    by_cases hfeb : (monthOf index).year = 0 ∧ (monthOf index).month = 2
    · have hone : index = 1 := by
        simp only [monthOf] at hfeb
        omega
      have hsmall := hzero hone
      have hhost := hostMonthLength_bounds (monthOf index).year (monthOf index).month
      dsimp only
      omega
    · rw [hostMonthLength_eq hfeb]

/-- From August to the end of February, over the end of a year. -/
theorem addMonthsClamped_august : ∃ r,
    addMonthsClamped (CivilDate.mk 2027 8 31).midnight 6 = some r ∧
      MovedByMonths (CivilDate.mk 2027 8 31).midnight 6 r ∧
      ∀ later r', (CivilDate.mk 2027 8 31).midnight / day ≤ later / day →
        HoldsMonths later 6 → addMonthsClamped later 6 = some r' → r / day ≤ r' / day :=
  addMonthsClamped_spec (by decide) ⟨by decide, by decide⟩ (by decide)

/-- The 31st of January of the year 0 is moved to the 28th of February, which has 29 days
that year; and far enough ahead there is no date at all. -/
theorem addMonthsClamped_host_dates :
    addMonthsClamped (CivilDate.mk 0 1 31).midnight 1 = some (CivilDate.mk 0 2 28).midnight ∧
    ¬ MovedByMonths (CivilDate.mk 0 1 31).midnight 1 (CivilDate.mk 0 2 28).midnight ∧
    addMonthsClamped (CivilDate.mk 2026 11 19).midnight (12 * 280000) = none := by
  refine ⟨by decide, fun h => ?_, by decide⟩
  have hclamped := h.day
  revert hclamped
  decide

/-! ## On dates alone -/

theorem CivilDate.IsReal.lastDayOfMonth_eq {d : CivilDate} (h : d.IsReal) :
    CivilDate.lastDayOfMonth d.year d.month = monthLength d.year d.month := by
  have hlong := (monthLength_bounds d.year d.month).1
  have hnext := monthOf_succ d.monthIndex
  have hback := @ofDays_monthOf d.monthIndex (monthLength d.year d.month) (by omega)
    (by rw [h.monthOf_monthIndex])
  have hfirst : monthOf (d.monthIndex + 1) =
      if d.month = 12 then ⟨d.year + 1, 1, 1⟩ else ⟨d.year, d.month + 1, 1⟩ := by
    obtain ⟨hpos, hle, _, _⟩ := h
    unfold monthOf CivilDate.monthIndex
    split_ifs with hlast
    · simp only [CivilDate.mk.injEq, and_true]
      omega
    · simp only [CivilDate.mk.injEq, and_true]
      omega
  rw [h.monthOf_monthIndex] at hnext hback
  rw [CivilDate.lastDayOfMonth, ← hfirst, hnext, add_sub_assoc, hback]

/-- **The date alone decides**: on dates whose target year has its own number, the model's
`CivilDate.addMonthsClamped` is the date the host arrives at. -/
theorem addMonthsClamped_civil (hmonths : 0 ≤ months) (hheld : HoldsMonths date months)
    (hyear : 100 ≤ (monthOf ((utcDate date).monthIndex + months)).year) :
    ∃ r, addMonthsClamped date months = some r ∧
      utcDate r = (utcDate date).addMonthsClamped months := by
  obtain ⟨r, hr, _, hdate⟩ := addMonthsClamped_utcDate hmonths hheld
  have htarget := (monthOf_isReal ((utcDate date).monthIndex + months)).lastDayOfMonth_eq
  refine ⟨r, hr, ?_⟩
  rw [hdate, hostMonthLength_eq (by omega), ← htarget]
  rfl

end Jadwal
