import Jadwal.Calendar
import Jadwal.Lib.Numeral

/-!
# Instants as text

A JSON column cannot hold a date, so instants are stored as the text
`toISOString` gives and read back with `new Date`.  The calendar that
splits an instant into a date and a time of day loses nothing
(`CivilDate.toDays_ofDays`), and neither does the text
(`parseISO_toISOString`).
-/

namespace Jadwal

open Decimal

/-! ## The calendar and day numbers -/

/-- A day of a 400-year era falls into one of its years, and into a year
that starts in March. -/
theorem yearOfEra_bounds {doe yoe doy : Int} (h0 : 0 ≤ doe) (h1 : doe < 146097)
    (hy : yoe = (doe - doe / 1460 + doe / 36524 - doe / 146096) / 365)
    (hd : doy = doe - (365 * yoe + yoe / 4 - yoe / 100)) :
    0 ≤ yoe ∧ yoe < 400 ∧ 0 ≤ doy ∧ doy ≤ 365 := by
  obtain ⟨century, hc⟩ : ∃ century, century = doe / 36524 := ⟨_, rfl⟩
  obtain ⟨cycle, hb⟩ : ∃ cycle, cycle = doe / 1460 := ⟨_, rfl⟩
  have hyoe : 0 ≤ yoe ∧ yoe < 400 := by omega
  -- only the last day of the era lies past its fourth century
  have hcent : yoe / 100 = century ∨ (century = 4 ∧ yoe = 399 ∧ doe = 146096) := by omega
  rw [← hc, ← hb] at hy
  have hquad : yoe / 4 = cycle ∨ yoe / 4 = cycle - 1 := by omega
  have hdays : 365 * yoe + yoe / 4 - yoe / 100 ≤ doe ∧
      doe ≤ 365 * yoe + yoe / 4 - yoe / 100 + 365 := by
    rcases hcent with hcent | ⟨rfl, rfl, rfl⟩
    · have hlast : doe / 146096 = 0 := by omega
      rw [hlast] at hy
      rw [hcent]
      rcases hquad with hquad | hquad <;> rw [hquad] <;> omega
    · omega
  omega

namespace CivilDate

/-- **A day number is the one of its date**, whose month and day are in
range. -/
theorem toDays_ofDays (days : Int) : (ofDays days).toDays = days ∧
    (1 ≤ (ofDays days).month ∧ (ofDays days).month ≤ 12) ∧
    1 ≤ (ofDays days).day ∧ (ofDays days).day ≤ 31 := by
  obtain ⟨era, hera⟩ : ∃ era, era = (days + 719468) / 146097 := ⟨_, rfl⟩
  obtain ⟨doe, hdoe⟩ : ∃ doe, doe = days + 719468 - era * 146097 := ⟨_, rfl⟩
  obtain ⟨yoe, hyoe⟩ : ∃ yoe, yoe =
      (doe - doe / 1460 + doe / 36524 - doe / 146096) / 365 := ⟨_, rfl⟩
  obtain ⟨doy, hdoy⟩ : ∃ doy, doy = doe - (365 * yoe + yoe / 4 - yoe / 100) := ⟨_, rfl⟩
  obtain ⟨mp, hmp⟩ : ∃ mp, mp = (5 * doy + 2) / 153 := ⟨_, rfl⟩
  obtain ⟨hy0, hy1, hd0, hd1⟩ := yearOfEra_bounds (by omega) (by omega) hyoe hdoy
  have hback : (yoe + era * 400) / 400 = era := by omega
  have hmonths : 0 ≤ mp ∧ mp ≤ 11 := by omega
  have hday : 1 ≤ doy - (153 * mp + 2) / 5 + 1 ∧ doy - (153 * mp + 2) / 5 + 1 ≤ 31 := by
    omega
  have hdays : days = era * 146097 + (yoe * 365 + yoe / 4 - yoe / 100 + doy) - 719468 := by
    omega
  simp only [ofDays, toDays, ← hera, ← hdoe, ← hyoe, ← hdoy, ← hmp]
  clear hyoe hdoe hera hdoy
  by_cases hlt : mp < 10
  · have hmonth : ¬ mp + 3 ≤ 2 := by omega
    simp only [if_pos hlt, if_neg hmonth, add_zero, add_sub_cancel_right, hback]
    refine ⟨?_, by omega, hday⟩
    rw [if_pos (by omega), hdays]
    omega
  · have hmonth : mp - 9 ≤ 2 := by omega
    simp only [if_neg hlt, if_pos hmonth, add_sub_cancel_right, hback]
    refine ⟨?_, by omega, hday⟩
    rw [if_neg (by omega), hdays]
    omega

end CivilDate

/-! ## The text -/

/-- The year of an ISO text: four digits, or a sign and six. -/
def yearText (year : Int) : List Char :=
  if 0 ≤ year ∧ year ≤ 9999 then padded 4 year.toNat
  else (if year < 0 then '-' else '+') :: padded 6 year.natAbs

/-- The fields of an ISO text with its separators. -/
def isoText (year : Int) (month dayOfMonth hours minutes seconds ms : Nat) : List Char :=
  yearText year ++ '-' :: (padded 2 month ++ '-' :: (padded 2 dayOfMonth ++
    'T' :: (padded 2 hours ++ ':' :: (padded 2 minutes ++ ':' :: (padded 2 seconds ++
    '.' :: (padded 3 ms ++ ['Z']))))))

/-- `toISOString`. -/
def toISOString (t : Instant) : String :=
  let date := utcDate t
  let ms := (t % day).toNat
  String.ofList (isoText date.year date.month.toNat date.day.toNat (ms / 3600000)
    (ms / 60000 % 60) (ms / 1000 % 60) (ms % 1000))

def readYear (l : List Char) : Option (Int × List Char) :=
  if l.head? = some '-' then (readDigits l.tail).map (fun r => (-(r.1 : Int), r.2))
  else if l.head? = some '+' then (readDigits l.tail).map (fun r => ((r.1 : Int), r.2))
  else (readField 4 l).map (fun r => ((r.1 : Int), r.2))

/-- `new Date(text)` on a text in the format of `toISOString`. -/
def parseISO (text : String) : Option Instant := do
  let (year, l) ← readYear text.toList
  let (month, l) ← readAfter '-' 2 l
  let (dayOfMonth, l) ← readAfter '-' 2 l
  let (hours, l) ← readAfter 'T' 2 l
  let (minutes, l) ← readAfter ':' 2 l
  let (seconds, l) ← readAfter ':' 2 l
  let (ms, l) ← readAfter '.' 3 l
  if l = ['Z'] then
    return (CivilDate.mk year month dayOfMonth).midnight + hours * hour + minutes * minute +
      seconds * second + ms
  else none

theorem readYear_yearText (year : Int) (rest : List Char) :
    readYear (yearText year ++ '-' :: rest) = some (year, '-' :: rest) := by
  have hstop : ∀ c ∈ ('-' :: rest).head?, c.isDigit = false := by
    intro c hc
    obtain rfl := Option.some.inj hc
    decide
  have hdigits : readDigits (padded 6 year.natAbs ++ '-' :: rest) =
      some (year.natAbs, '-' :: rest) := by
    rw [readDigits_append (padded_ne_nil _ _) (fun _ => isDigit_of_mem_padded) hstop,
      value_padded]
  unfold yearText
  by_cases hshort : 0 ≤ year ∧ year ≤ 9999
  · rw [if_pos hshort]
    have hunsigned : ∀ c : Char, c.isDigit = false →
        (padded 4 year.toNat ++ '-' :: rest).head? ≠ some c := by
      intro c hc hhead
      rw [List.head?_append_of_ne_nil _ (padded_ne_nil _ _)] at hhead
      have hmem := isDigit_of_mem_padded (List.mem_of_head? hhead)
      simp [hc] at hmem
    rw [readYear, if_neg (hunsigned _ (by decide)), if_neg (hunsigned _ (by decide)),
      readField_padded (by decide) (by lia)]
    simp only [Option.map_some, Option.some.injEq, Prod.mk.injEq, and_true]
    lia
  · rw [if_neg hshort]
    by_cases hneg : year < 0
    · rw [if_pos hneg, List.cons_append, readYear, List.head?_cons, if_pos rfl,
        List.tail_cons, hdigits]
      simp only [Option.map_some, Option.some.injEq, Prod.mk.injEq, and_true]
      lia
    · rw [if_neg hneg, List.cons_append, readYear, List.head?_cons, if_neg (by simp), if_pos rfl,
        List.tail_cons, hdigits]
      simp only [Option.map_some, Option.some.injEq, Prod.mk.injEq, and_true]
      lia

/-- The fields are read back one by one. -/
theorem parseISO_isoText {year : Int} {month dayOfMonth hours minutes seconds ms : Nat}
    (hmonth : month < 100) (hday : dayOfMonth < 100) (hhours : hours < 100)
    (hminutes : minutes < 100) (hseconds : seconds < 100) (hms : ms < 1000) :
    parseISO (String.ofList (isoText year month dayOfMonth hours minutes seconds ms)) =
      some ((CivilDate.mk year month dayOfMonth).midnight + hours * hour + minutes * minute +
        seconds * second + ms) := by
  have htwo : ∀ c, ∀ n < 100, ∀ rest,
      readAfter c 2 (c :: (padded 2 n ++ rest)) = some (n, rest) :=
    fun c n hn rest => readAfter_padded (by decide) hn rest
  have hthree : ∀ rest, readAfter '.' 3 ('.' :: (padded 3 ms ++ rest)) = some (ms, rest) :=
    fun rest => readAfter_padded (by decide) hms rest
  rw [parseISO, isoText, String.toList_ofList, readYear_yearText, Option.bind_eq_bind,
    Option.bind_some]
  dsimp only
  rw [htwo _ _ hmonth, Option.bind_eq_bind, Option.bind_some]
  dsimp only
  rw [htwo _ _ hday, Option.bind_some]
  dsimp only
  rw [htwo _ _ hhours, Option.bind_some]
  dsimp only
  rw [htwo _ _ hminutes, Option.bind_some]
  dsimp only
  rw [htwo _ _ hseconds, Option.bind_some]
  dsimp only
  rw [hthree, Option.bind_some, if_pos rfl]
  rfl

/-- **An instant is read back from its text.** -/
theorem parseISO_toISOString (t : Instant) : parseISO (toISOString t) = some t := by
  obtain ⟨hdays, ⟨hm0, hm1⟩, hd0, hd1⟩ := CivilDate.toDays_ofDays (t / day)
  have hday : day = 86400000 := rfl
  obtain ⟨ms, hms⟩ : ∃ ms, ms = (t % day).toNat := ⟨_, rfl⟩
  have hrest : (ms : Int) = t % day ∧ ms < 86400000 := by
    rw [hday] at hms ⊢
    omega
  have hsplit : t = t / day * day + ms := by
    rw [hrest.1]
    exact (Int.ediv_mul_add_emod t day).symm
  have hdate : CivilDate.mk (utcDate t).year ((utcDate t).month.toNat : Int)
      ((utcDate t).day.toNat : Int) = CivilDate.ofDays (t / day) := by
    rw [utcDate, Int.toNat_of_nonneg (by lia), Int.toNat_of_nonneg (by lia)]
  have hclock : ((ms / 3600000 : Nat) : Int) * hour + ((ms / 60000 % 60 : Nat) : Int) * minute +
      ((ms / 1000 % 60 : Nat) : Int) * second + ((ms % 1000 : Nat) : Int) = ms := by
    have hhour : hour = 3600000 := rfl
    have hminute : minute = 60000 := rfl
    have hsecond : second = 1000 := rfl
    rw [hhour, hminute, hsecond]
    omega
  have hmonth : (utcDate t).month.toNat < 100 := by
    rw [utcDate]
    lia
  have hdayOfMonth : (utcDate t).day.toNat < 100 := by
    rw [utcDate]
    lia
  rw [toISOString, ← hms, parseISO_isoText hmonth hdayOfMonth (by lia) (by lia) (by lia)
    (by lia), hdate, CivilDate.midnight, hdays]
  refine congrArg some ?_
  lia

example : toISOString 951782400000 = "2000-02-29T00:00:00.000Z" := by decide +kernel

end Jadwal
