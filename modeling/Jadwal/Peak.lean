import Jadwal.Admission

/-!
# The peak of a window

`maxConcurrentInWindow` against what its name promises: the greatest number of
guests present at an instant of the half-open window.  The greatest value is unique,
so everything that leaves the guests at the instants alone (the order of the list)
leaves the sweep's answer alone, and a booking over the whole window adds its guests.
-/

namespace Jadwal

variable {bookings : List Booking} {s e : Instant}

/-- The guests present at the instants of the window. -/
def presentIn (bookings : List Booking) (s e : Instant) : Set Int :=
  (fun t => (seats bookings t : Int)) '' Set.Ico s e

theorem seats_perm {bookings' : List Booking} (hperm : bookings.Perm bookings')
    (t : Instant) : seats bookings t = seats bookings' t :=
  (hperm.map _).sum_eq

/-- **The sweep's answer is the number of guests at some instant of the window.** -/
theorem maxConcurrentInWindow_attained (bookings : List Booking) (hse : s < e) :
    ∃ t, s ≤ t ∧ t < e ∧
      (seats bookings t : Int) = maxConcurrentInWindow bookings s e := by
  by_contra hnone
  have hbelow : ∀ t, s ≤ t → t < e →
      (seats bookings t : Int) ≤ maxConcurrentInWindow bookings s e - 1 := by
    intro t hs he
    have hle := seats_le_maxConcurrentInWindow bookings hs he
    have hne : (seats bookings t : Int) ≠ maxConcurrentInWindow bookings s e := by
      intro heq
      exact hnone ⟨t, hs, he, heq⟩
    omega
  -- The start of the window is an instant of it, so the answer is positive.
  have hstart := hbelow s le_rfl hse
  have hpeak := (maxConcurrentInWindow_le_iff (by omega) bookings s e).mpr hbelow
  omega

/-- The sweep's answer is the greatest of the window's instants. -/
theorem maxConcurrentInWindow_isGreatest (bookings : List Booking) (hse : s < e) :
    IsGreatest (presentIn bookings s e) (maxConcurrentInWindow bookings s e) := by
  constructor
  · obtain ⟨t, hs, he, heq⟩ := maxConcurrentInWindow_attained bookings hse
    exact ⟨t, ⟨hs, he⟩, heq⟩
  · intro n hn
    obtain ⟨t, ht, rfl⟩ := hn
    exact seats_le_maxConcurrentInWindow bookings ht.1 ht.2

/-- Two lists with the same guests at every instant of the window have one peak. -/
theorem maxConcurrentInWindow_congr {bookings' : List Booking} (hse : s < e)
    (h : ∀ t, s ≤ t → t < e → seats bookings' t = seats bookings t) :
    maxConcurrentInWindow bookings' s e = maxConcurrentInWindow bookings s e := by
  have hset : presentIn bookings' s e = presentIn bookings s e := by
    apply Set.image_congr
    intro t ht
    exact congrArg Nat.cast (h t ht.1 ht.2)
  have hpeak := maxConcurrentInWindow_isGreatest bookings' hse
  rw [hset] at hpeak
  exact hpeak.unique (maxConcurrentInWindow_isGreatest bookings hse)

/-- A booking over the whole window adds its guests to the peak. -/
theorem maxConcurrentInWindow_cons_covering (bookings : List Booking) {b : Booking}
    (hse : s < e) (hstart : b.startDatetime ≤ s) (hend : e ≤ b.endDatetime) :
    maxConcurrentInWindow (b :: bookings) s e =
      maxConcurrentInWindow bookings s e + b.guests := by
  have hseats : ∀ t, s ≤ t → t < e →
      seats (b :: bookings) t = seats bookings t + b.guests := by
    intro t hs he
    have hcovers : b.covers t = true :=
      decide_eq_true ⟨hstart.trans hs, he.trans_le hend⟩
    rw [seats_cons, if_pos hcovers]
    omega
  apply (maxConcurrentInWindow_isGreatest (b :: bookings) hse).unique
  constructor
  · obtain ⟨t, hs, he, heq⟩ := maxConcurrentInWindow_attained bookings hse
    refine ⟨t, ⟨hs, he⟩, ?_⟩
    have hadd := hseats t hs he
    simp only [hadd, Nat.cast_add, heq]
  · intro n hn
    obtain ⟨t, ht, rfl⟩ := hn
    have hadd := hseats t ht.1 ht.2
    have hle := seats_le_maxConcurrentInWindow bookings ht.1 ht.2
    simp only [hadd, Nat.cast_add]
    omega

/-- **The true peak.**  Over a non-empty window the sweep's answer is the greatest
number of guests at an instant; the order of the bookings is immaterial, and a booking
of `g` guests over the whole window, put anywhere in the list, adds exactly `g`. -/
theorem maxConcurrentInWindow_true_peak (bookings : List Booking) (hse : s < e) :
    IsGreatest (presentIn bookings s e) (maxConcurrentInWindow bookings s e) ∧
    (∀ bookings', bookings'.Perm bookings →
      maxConcurrentInWindow bookings' s e = maxConcurrentInWindow bookings s e) ∧
    (∀ bookings' b, bookings'.Perm (b :: bookings) → b.startDatetime ≤ s →
      e ≤ b.endDatetime →
      maxConcurrentInWindow bookings' s e =
        maxConcurrentInWindow bookings s e + b.guests) := by
  refine ⟨maxConcurrentInWindow_isGreatest bookings hse, ?_, ?_⟩
  · intro bookings' hperm
    apply maxConcurrentInWindow_congr hse
    intro t _ _
    exact seats_perm hperm t
  · intro bookings' b hperm hstart hend
    rw [← maxConcurrentInWindow_cons_covering bookings hse hstart hend]
    apply maxConcurrentInWindow_congr hse
    intro t _ _
    exact seats_perm hperm t

/-- A booking of some guests over a window. -/
def bookingOver (id : Id) (s e : Instant) (guests : Nat) : Booking where
  id := id
  ref := ""
  activityId := 7
  vendorId := 4
  customerId := 1
  startDatetime := s
  endDatetime := e
  guests := guests
  createdAt := 0

/-- Three bookings of two, three and four guests, of which the last comes when the first
leaves. -/
def overlappingBookings : List Booking :=
  [bookingOver 1 0 600 2, bookingOver 2 400 1000 3, bookingOver 3 600 1000 4]

/-- Two of the three are there at once, and a group over the whole window comes on top. -/
theorem maxConcurrentInWindow_true_peak_overlapping :
    maxConcurrentInWindow overlappingBookings 0 1000 = 7 ∧
      7 ∈ upperBounds (presentIn overlappingBookings 0 1000) ∧
      maxConcurrentInWindow overlappingBookings.reverse 0 1000 = 7 ∧
      maxConcurrentInWindow (overlappingBookings ++ [bookingOver 4 0 1000 5]) 0 1000 = 12 := by
  have hpeak : maxConcurrentInWindow overlappingBookings 0 1000 = 7 := by decide +kernel
  obtain ⟨hgreatest, hperm, hcovering⟩ :=
    maxConcurrentInWindow_true_peak overlappingBookings (show (0 : Instant) < 1000 by decide)
  rw [hpeak] at hgreatest hperm hcovering
  refine ⟨hpeak, hgreatest.2, hperm _ (List.reverse_perm _), ?_⟩
  exact hcovering _ _ (List.perm_append_singleton _ _) (by decide) (by decide)

end Jadwal
