import Jadwal.Reconfiguration

/-!
# Seating the bookings without a unit

A booking may have no unit.  The active bookings can be **seated** when units
can be chosen for those without one that leave every unit within its limit.
`createBooking` counts the bookings without a unit that overlap the request and
holds back as many units, or charges their guests to every unit.  With units
rented whole it hands out the lowest unit no placed booking overlaps, and a
booking without a unit that was to have that unit, and stays longer than the
request, may then find no other (`admission_keeps_seatable`).
-/

namespace Jadwal

open Outcome

variable {env : Env} {now : Instant} {db db' : Db} {a : Activity}

/-! ## Seatings -/

/-- A unit for every booking, its own when it has one, that leaves every unit
within its limit at every instant. -/
structure Activity.Seats (a : Activity) (bookings : List Booking) (unitOf : Booking → Nat) :
    Prop where
  placed : ∀ b ∈ bookings, ∀ unit ∈ b.unitNumber, unitOf b = unit
  inRange : ∀ b ∈ bookings, 1 ≤ unitOf b ∧ unitOf b ≤ a.unitCount
  within : ∀ unit t, a.occupancy (bookings.filter (fun b => unitOf b = unit)) t ≤ a.unitLimit

/-- The bookings can be seated; without units, their guests are within the
capacity at every instant. -/
def Activity.Seatable (a : Activity) (bookings : List Booking) : Prop :=
  if a.hasUnits then ∃ unitOf, a.Seats bookings unitOf
  else ∀ capacity ∈ a.capacity, ∀ t, a.occupancy bookings t ≤ capacity

/-- The active bookings of an activity. -/
def activeBookings (now : Instant) (db : Db) (activityId : Id) : List Booking :=
  db.bookings.select (fun b => b.activityId = activityId ∧ activeBookingFilter now b)

/-- The bookings that overlap a window. -/
def overlapping (bookings : List Booking) (s e : Instant) : List Booking :=
  bookings.filter (fun b => b.overlaps s e)

/-- There is a seating that keeps no booking without a unit, reaching out of the
window, in the lowest unit that no placed booking overlaps. -/
def Activity.Yields (a : Activity) (bookings : List Booking) (s e : Instant) (guests : Nat) :
    Prop :=
  rentsWholeUnit a = true → ∃ unitOf, a.Seats bookings unitOf ∧
    ∀ unit ∈ (freeUnits a (overlapping bookings s e) s e guests).head?, ∀ b ∈ bookings,
      b.unitNumber = none → b.startDatetime < b.endDatetime → b.overlaps s e →
        unitOf b = unit → s ≤ b.startDatetime ∧ b.endDatetime ≤ e

theorem Activity.occupancy_eq_sum (bookings : List Booking) (t : Instant) :
    a.occupancy bookings t =
      (bookings.map (fun b => if b.covers t then a.weight b else 0)).sum :=
  (sum_map_ite bookings _ _).symm

/-- Fewer of the bookings present take less. -/
theorem Activity.occupancy_filter_le {bookings : List Booking} {p q : Booking → Bool}
    {t : Instant} (h : ∀ b ∈ bookings, b.covers t = true → p b = true → q b = true) :
    a.occupancy (bookings.filter p) t ≤ a.occupancy (bookings.filter q) t := by
  rw [Activity.occupancy_eq_sum, Activity.occupancy_eq_sum, ← sum_map_ite, ← sum_map_ite]
  refine List.sum_le_sum fun b hb => ?_
  by_cases hcovers : b.covers t = true
  · by_cases hp : p b = true
    · rw [if_pos hp, if_pos (h b hb hcovers hp)]
    · rw [if_neg hp]
      exact Nat.zero_le _
  · simp [hcovers]

theorem Activity.occupancy_filter_eq_zero {bookings : List Booking} {p : Booking → Bool}
    {t : Instant} (h : ∀ b ∈ bookings, b.covers t = true → p b = false) :
    a.occupancy (bookings.filter p) t = 0 := by
  have hle := @Activity.occupancy_filter_le a bookings p (fun _ => false) t
    fun b hb hcovers hp => by rw [h b hb hcovers] at hp; cases hp
  simpa [Activity.occupancy] using hle

/-- A seating is checked at the start of each booking. -/
theorem Activity.seats_iff {bookings : List Booking} {unitOf : Booking → Nat} :
    a.Seats bookings unitOf ↔ ∀ b ∈ bookings, (∀ unit ∈ b.unitNumber, unitOf b = unit) ∧
      (1 ≤ unitOf b ∧ unitOf b ≤ a.unitCount) ∧
      a.occupancy (bookings.filter (fun x => unitOf x = unitOf b)) b.startDatetime ≤
        a.unitLimit := by
  constructor
  · intro h b hb
    exact ⟨h.placed b hb, h.inRange b hb, h.within _ _⟩
  · intro h
    refine ⟨fun b hb => (h b hb).1, fun b hb => (h b hb).2.1, fun unit => ?_⟩
    refine Activity.occupancy_le_iff.mpr fun b hb => ?_
    obtain ⟨hb, hunit⟩ := List.mem_filter.mp hb
    rw [← of_decide_eq_true hunit]
    exact (h b hb).2.2

instance (a : Activity) (bookings : List Booking) (unitOf : Booking → Nat) :
    Decidable (a.Seats bookings unitOf) :=
  decidable_of_iff _ Activity.seats_iff.symm

/-- In a unit rented whole two bookings are never there at the same time. -/
theorem Activity.Seats.apart {bookings : List Booking} {unitOf : Booking → Nat}
    (h : a.Seats bookings unitOf) (hwhole : rentsWholeUnit a = true) {x y : Booking}
    (hx : x ∈ bookings) (hy : y ∈ bookings) (hne : x ≠ y) {t : Instant}
    (hxt : x.covers t = true) (hyt : y.covers t = true) : unitOf x ≠ unitOf y := by
  intro hunit
  have hsub : [x, y] ⊆ bookings.filter (fun b => unitOf b = unitOf y) := by
    intro b hb
    rcases List.mem_pair.mp hb with rfl | rfl
    · exact List.mem_filter.mpr ⟨hx, decide_eq_true hunit⟩
    · exact List.mem_filter.mpr ⟨hy, decide_eq_true rfl⟩
  obtain ⟨l, hperm, hl⟩ := List.subperm_of_subset (by simpa using hne) hsub
  have htwo : a.occupancy l t = 2 := by
    rw [Activity.occupancy_perm hperm]
    simp [Activity.occupancy, hxt, hyt, Activity.weight, hwhole]
  have hle := (Activity.occupancy_le_of_sublist hl t).trans (h.within (unitOf y) t)
  rw [htwo, Activity.unitLimit, if_pos hwhole] at hle
  omega

/-! ## The window of a request -/

theorem buildDatetime_lt {d : CivilDate} {m m' : Nat} (h : m < m') :
    buildDatetime d m < buildDatetime d m' := by
  simp only [buildDatetime, minute, second]
  lia

theorem buildDatetime_lt_next {d d' : CivilDate} {m m' : Nat} (hday : d.midnight < d'.midnight)
    (hm : m < 1440) : buildDatetime d m < buildDatetime d' m' := by
  simp only [buildDatetime, CivilDate.midnight, Jadwal.day, hour, minute, second] at hday ⊢
  have hlt : d.toDays < d'.toDays := by lia
  lia

theorem hourlyWindow_lt {tz : String} {dto : CreateBookingDto} {window : Instant × Instant}
    (h : hourlyWindow env now a tz dto = .ok window) : window.1 < window.2 := by
  simp only [hourlyWindow, bind_eq_ok, orThrow_eq_ok, ensure_eq_ok, pure_eq_ok] at h
  obtain ⟨slot, _, _, _, _, _, duration, hduration, _, _, slotEnd, hend, _, _, _, _, _, _,
    rfl⟩ := h
  have hpos : duration ≠ 0 := of_decide_eq_true (Option.filter_eq_some_iff.mp hduration).2
  refine buildDatetime_lt ?_
  cases hslotEnd : dto.slotEndTime with
  | none =>
      rw [hslotEnd] at hend
      obtain rfl := pure_eq_ok.mp hend
      omega
  | some slotEndTime =>
      simp only [hslotEnd, bind_eq_ok, ensure_eq_ok, pure_eq_ok] at hend
      obtain ⟨_, _, _, hlt, _, _, _, _, _, _, rfl⟩ := hend
      exact hlt

theorem dailyWindow_lt {dto : CreateBookingDto} {window : Instant × Instant}
    (h : dailyWindow env a dto = .ok window) : window.1 < window.2 := by
  simp only [dailyWindow, bind_eq_ok, orThrow_eq_ok, ensure_eq_ok, pure_eq_ok] at h
  obtain ⟨checkOutDate, _, _, hdates, _, _, _, _, rfl⟩ := h
  refine buildDatetime_lt_next hdates ?_
  cases a.checkInTime with
  | none => decide
  | some checkIn => exact checkIn.isLt

/-- A request that was prepared ends after it starts. -/
theorem prepareBooking_window {userId : Id} {dto : CreateBookingDto} {p : PreparedBooking}
    (h : prepareBooking env now db userId dto = .ok (some p)) :
    p.dto = dto ∧ p.startDatetime < p.endDatetime := by
  unfold prepareBooking at h
  split at h
  · cases pure_eq_ok.mp h
  simp only [bind_eq_ok, orThrow_eq_ok, ensure_eq_ok, pure_eq_ok] at h
  obtain ⟨_, _, _, _, activity, _, _, _, country, _, _, _, _, _, _, _, _, _, _, _, _, _, window,
    hwindow, _, _, _, _, hp⟩ := h
  obtain rfl := Option.some.inj hp
  refine ⟨rfl, ?_⟩
  change window.1 < window.2
  unfold bookingWindow at hwindow
  cases htype : activity.bookingType with
  | hourly =>
      rw [htype] at hwindow
      exact hourlyWindow_lt hwindow
  | daily =>
      rw [htype] at hwindow
      exact dailyWindow_lt hwindow

/-! ## Admitting a booking to a unit -/

variable {bookings : List Booking} {b : Booking} {unitOf : Booking → Nat} {unit : Nat}

/-- The seating with the new booking in its unit. -/
def seatedWith (unitOf : Booking → Nat) (b : Booking) (unit : Nat) (x : Booking) : Nat :=
  if x = b then unit else unitOf x

/-- A seating of the others whose unit has room at every instant of the booking
seats it too. -/
theorem Activity.Seats.admit (h : a.Seats bookings unitOf) (hunit : b.unitNumber = some unit)
    (hrange : 1 ≤ unit ∧ unit ≤ a.unitCount)
    (hroom : ∀ t, b.covers t = true →
      a.occupancy (bookings.filter (fun x => unitOf x = unit)) t + a.weight b ≤ a.unitLimit) :
    a.Seats (bookings ++ [b]) (seatedWith unitOf b unit) := by
  have hold : ∀ x ∈ bookings, seatedWith unitOf b unit x = unitOf x := by
    intro x hx
    by_cases hxb : x = b
    · rw [seatedWith, if_pos hxb]
      exact (h.placed x hx unit (by rw [hxb]; exact hunit)).symm
    · rw [seatedWith, if_neg hxb]
  have hnew : seatedWith unitOf b unit b = unit := if_pos rfl
  constructor
  · intro x hx u hu
    rcases List.mem_append.mp hx with hx | hx
    · rw [hold x hx]
      exact h.placed x hx u hu
    · obtain rfl := List.mem_singleton.mp hx
      rw [hnew]
      exact Option.some.inj (hunit.symm.trans hu)
  · intro x hx
    rcases List.mem_append.mp hx with hx | hx
    · rw [hold x hx]
      exact h.inRange x hx
    · obtain rfl := List.mem_singleton.mp hx
      rw [hnew]
      exact hrange
  · intro u t
    have hfilter : bookings.filter (fun x => seatedWith unitOf b unit x = u) =
        bookings.filter (fun x => unitOf x = u) :=
      List.filter_congr fun x hx => by rw [hold x hx]
    rw [List.filter_append, hfilter, Activity.occupancy_append]
    by_cases hu : unit = u
    · subst hu
      rw [List.filter_singleton, hnew]
      simp only [decide_true, cond_true, Activity.occupancy_singleton]
      by_cases hcovers : b.covers t = true
      · rw [if_pos hcovers]
        exact hroom t hcovers
      · rw [if_neg hcovers]
        exact h.within unit t
    · rw [List.filter_singleton, hnew]
      simpa [hu, Activity.occupancy] using h.within u t

/-- The seating of the others, without the new booking. -/
theorem Activity.Seats.drop (h : a.Seats (bookings ++ [b]) unitOf) : a.Seats bookings unitOf where
  placed x hx := h.placed x (List.mem_append_left _ hx)
  inRange x hx := h.inRange x (List.mem_append_left _ hx)
  within u t := le_trans
    (Activity.occupancy_le_of_sublist ((List.sublist_append_left _ _).filter _) t) (h.within u t)

/-! ## Units shared by guests -/

/-- Those seated in a unit are placed there or have no unit: the scan counts
them both. -/
theorem Activity.Seats.le_counted (h : a.Seats bookings unitOf) {s e t : Instant} (hs : s ≤ t)
    (he : t < e) :
    a.occupancy (bookings.filter (fun x => unitOf x = unit)) t ≤
      a.occupancy (inUnit unit (overlapping bookings s e) ++
        unassignedOverlapping (overlapping bookings s e) s e) t := by
  rw [Activity.occupancy_append]
  unfold inUnit unassignedOverlapping overlapping
  simp only [List.filter_filter, Activity.occupancy_eq_sum, ← sum_map_ite]
  rw [← List.sum_map_add]
  refine List.sum_le_sum fun x hx => ?_
  by_cases hcovers : x.covers t = true
  · have hover := covers_overlaps hcovers hs he
    by_cases hin : unitOf x = unit
    · cases hxu : x.unitNumber with
      | none => simp [hover, hcovers, hin]
      | some u =>
          have hsame : u = unit := (h.placed x hx u hxu).symm.trans hin
          simp [hover, hcovers, hin, hsame]
    · simp [hin]
  · simp [hcovers]

theorem Activity.Seats.admit_shared (h : a.Seats bookings unitOf)
    (hwhole : ¬ rentsWholeUnit a = true) (hunit : b.unitNumber = some unit)
    (hfree : unit ∈ freeUnits a (overlapping bookings b.startDatetime b.endDatetime)
      b.startDatetime b.endDatetime b.guests) :
    a.Seats (bookings ++ [b]) (seatedWith unitOf b unit) := by
  obtain ⟨hmem, hroom⟩ := List.mem_filter.mp hfree
  have hrange := List.mem_range'_1.mp hmem
  rw [if_neg hwhole] at hroom
  have hroom := of_decide_eq_true hroom
  refine h.admit hunit ⟨hrange.1, by omega⟩ fun t ht => ?_
  have hcov := of_decide_eq_true ht
  have hle : a.occupancy (bookings.filter (fun x => unitOf x = unit)) t ≤ _ :=
    h.le_counted hcov.1 hcov.2
  have hpeak := seats_le_maxConcurrentInWindow
    (inUnit unit (overlapping bookings b.startDatetime b.endDatetime) ++
      unassignedOverlapping (overlapping bookings b.startDatetime b.endDatetime)
        b.startDatetime b.endDatetime) hcov.1 hcov.2
  rw [Activity.occupancy_guests hwhole, Activity.occupancy_guests hwhole] at hle
  rw [Activity.occupancy_guests hwhole, Activity.weight_guests hwhole, Activity.unitLimit,
    if_neg hwhole]
  lia

/-! ## Units rented whole -/

/-- The bookings without a unit that must leave a unit to a window: they overlap
it and have it. -/
def makesWay (unitOf : Booking → Nat) (unit : Nat) (s e : Instant) (x : Booking) : Bool :=
  x.unitNumber = none ∧ x.startDatetime < x.endDatetime ∧ x.overlaps s e ∧ unitOf x = unit

/-- The seating that moves them to another unit. -/
def movedTo (unitOf : Booking → Nat) (unit other : Nat) (s e : Instant) (x : Booking) : Nat :=
  if makesWay unitOf unit s e x then other else unitOf x

/-- With more units free than bookings without a unit, one of them is used by
none of these. -/
theorem exists_unused {s e : Instant} {guests : Nat} (hwhole : rentsWholeUnit a = true)
    (husable : 0 < usableUnits a (overlapping bookings s e) s e guests)
    (unitOf : Booking → Nat) :
    ∃ other ∈ freeUnits a (overlapping bookings s e) s e guests,
      ∀ x ∈ bookings, x.unitNumber = none → x.overlaps s e → unitOf x ≠ other := by
  by_contra hall
  push Not at hall
  have hsubset : freeUnits a (overlapping bookings s e) s e guests ⊆
      (unassignedOverlapping (overlapping bookings s e) s e).map unitOf := by
    intro other hother
    obtain ⟨x, hx, hnone, hover, heq⟩ := hall other hother
    refine List.mem_map.mpr ⟨x, List.mem_filter.mpr ⟨List.mem_filter.mpr ⟨hx, hover⟩, ?_⟩, heq⟩
    exact decide_eq_true ⟨hnone, hover⟩
  have hnodup : (freeUnits a (overlapping bookings s e) s e guests).Nodup :=
    List.Nodup.filter _ List.nodup_range'
  have hlength := (List.subperm_of_subset hnodup hsubset).length_le
  rw [List.length_map] at hlength
  simp only [usableUnits, hwhole, if_true] at husable
  omega

/-- In a free unit nothing placed overlaps the window. -/
theorem not_overlaps_of_free {s e : Instant} {guests : Nat} (hwhole : rentsWholeUnit a = true)
    (hfree : unit ∈ freeUnits a (overlapping bookings s e) s e guests) {x : Booking}
    (hx : x ∈ bookings) (hunit : x.unitNumber = some unit) : x.overlaps s e = false := by
  obtain ⟨_, hempty⟩ := List.mem_filter.mp hfree
  rw [if_pos hwhole, List.isEmpty_iff] at hempty
  by_contra hover
  have hmem : x ∈ inUnit unit (overlapping bookings s e) :=
    List.mem_filter.mpr ⟨List.mem_filter.mpr ⟨hx, by simpa using hover⟩, decide_eq_true hunit⟩
  rw [hempty] at hmem
  cases hmem

/-- Bookings that do not reach out of the window can move to an unused unit. -/
theorem Activity.Seats.move (h : a.Seats bookings unitOf) {s e : Instant} {guests other : Nat}
    (hwhole : rentsWholeUnit a = true)
    (hfree : other ∈ freeUnits a (overlapping bookings s e) s e guests)
    (hunused : ∀ x ∈ bookings, x.unitNumber = none → x.overlaps s e → unitOf x ≠ other)
    (hinside : ∀ x ∈ bookings, makesWay unitOf unit s e x = true →
      s ≤ x.startDatetime ∧ x.endDatetime ≤ e) :
    a.Seats bookings (movedTo unitOf unit other s e) := by
  have hstay : ∀ x, makesWay unitOf unit s e x = false →
      movedTo unitOf unit other s e x = unitOf x := fun x hx => by simp [movedTo, hx]
  have hmoved : ∀ x, makesWay unitOf unit s e x = true →
      movedTo unitOf unit other s e x = other := fun x hx => by simp [movedTo, hx]
  have hother : 1 ≤ other ∧ other ≤ a.unitCount := by
    have hmem := List.mem_range'_1.mp (List.mem_filter.mp hfree).1
    omega
  constructor
  · intro x hx u hu
    rw [hstay x (by simp [makesWay, Option.mem_def.mp hu])]
    exact h.placed x hx u hu
  · intro x hx
    cases hway : makesWay unitOf unit s e x with
    | true => exact (hmoved x hway).symm ▸ hother
    | false => exact (hstay x hway).symm ▸ h.inRange x hx
  · intro u t
    by_cases hpresent : ∃ x ∈ bookings, makesWay unitOf unit s e x = true ∧ x.covers t = true
    · obtain ⟨x, hx, hway, hcovers⟩ := hpresent
      have hcov := of_decide_eq_true hcovers
      obtain ⟨hs, he⟩ := hinside x hx hway
      by_cases hu : u = other
      · -- inside the window the unused unit holds only those that moved there
        refine le_trans (Activity.occupancy_filter_le fun y hy hycov hyu => ?_)
          (h.within unit t)
        have hover : y.overlaps s e = true :=
          covers_overlaps hycov (by lia) (by lia)
        cases hyway : makesWay unitOf unit s e y with
        | true => exact decide_eq_true (of_decide_eq_true hyway).2.2.2
        | false =>
            have hyu := of_decide_eq_true hyu
            rw [hstay y hyway, hu] at hyu
            cases hnone : y.unitNumber with
            | none => exact absurd hyu (hunused y hy hnone hover)
            | some v =>
                have hv : v = other := (h.placed y hy v hnone).symm.trans hyu
                rw [not_overlaps_of_free hwhole hfree hy (hv ▸ hnone)] at hover
                cases hover
      · refine le_trans (Activity.occupancy_filter_le fun y _ _ hyu => ?_) (h.within u t)
        have hyu := of_decide_eq_true hyu
        cases hyway : makesWay unitOf unit s e y with
        | true => exact absurd ((hmoved y hyway).symm.trans hyu).symm hu
        | false => exact decide_eq_true ((hstay y hyway).symm.trans hyu)
    · refine le_trans (Activity.occupancy_filter_le fun y hy hycov hyu => ?_) (h.within u t)
      have hyu := of_decide_eq_true hyu
      cases hyway : makesWay unitOf unit s e y with
      | true => exact absurd ⟨y, hy, hyway, hycov⟩ hpresent
      | false => exact decide_eq_true ((hstay y hyway).symm.trans hyu)

theorem Activity.Seats.admit_whole (h : a.Seats bookings unitOf)
    (hwhole : rentsWholeUnit a = true) (hunit : b.unitNumber = some unit)
    (hfree : unit ∈ freeUnits a (overlapping bookings b.startDatetime b.endDatetime)
      b.startDatetime b.endDatetime b.guests)
    (husable : 0 < usableUnits a (overlapping bookings b.startDatetime b.endDatetime)
      b.startDatetime b.endDatetime b.guests)
    (hinside : ∀ x ∈ bookings, makesWay unitOf unit b.startDatetime b.endDatetime x = true →
      b.startDatetime ≤ x.startDatetime ∧ x.endDatetime ≤ b.endDatetime) :
    ∃ unitOf', a.Seats (bookings ++ [b]) unitOf' := by
  obtain ⟨other, hother, hunused⟩ := exists_unused hwhole husable unitOf
  have hmoved := h.move hwhole hother hunused hinside
  have hrange := List.mem_range'_1.mp (List.mem_filter.mp hfree).1
  refine ⟨_, hmoved.admit hunit ⟨hrange.1, by omega⟩ fun t ht => ?_⟩
  have hcov := of_decide_eq_true ht
  -- nothing is left in the unit next to the booking
  have hzero : a.occupancy (bookings.filter (fun x =>
      movedTo unitOf unit other b.startDatetime b.endDatetime x = unit)) t = 0 := by
    refine Activity.occupancy_filter_eq_zero fun x hx hxcov => decide_eq_false fun hxu => ?_
    have hover := overlaps_of_covers hcov.1 hcov.2 hxcov
    have hxcov := of_decide_eq_true hxcov
    cases hway : makesWay unitOf unit b.startDatetime b.endDatetime x with
    | true =>
        have hw := of_decide_eq_true hway
        rw [movedTo, if_pos hway] at hxu
        exact hunused x hx hw.1 hover (hw.2.2.2.trans hxu.symm)
    | false =>
        rw [movedTo, if_neg (by simp [hway])] at hxu
        cases hnone : x.unitNumber with
        | none =>
            have hlt : x.startDatetime < x.endDatetime := hxcov.1.trans_lt hxcov.2
            exact of_decide_eq_false hway ⟨hnone, hlt, hover, hxu⟩
        | some v =>
            have hv : v = unit := (h.placed x hx v hnone).symm.trans hxu
            rw [not_overlaps_of_free hwhole hfree hx (hv ▸ hnone)] at hover
            cases hover
  rw [hzero, Activity.weight, if_pos hwhole, Activity.unitLimit, if_pos hwhole]

/-- Next to a booking in a whole unit no other one is seated there. -/
theorem Activity.Seats.not_makesWay (h : a.Seats (bookings ++ [b]) unitOf)
    (hwhole : rentsWholeUnit a = true) (hunit : b.unitNumber = some unit)
    (hlt : b.startDatetime < b.endDatetime) {x : Booking} (hx : x ∈ bookings)
    (hway : makesWay unitOf unit b.startDatetime b.endDatetime x = true) : False := by
  obtain ⟨hnone, hxlt, hover, hxu⟩ := of_decide_eq_true hway
  have hover := of_decide_eq_true hover
  have hb : unitOf b = unit := h.placed b (by simp) unit hunit
  have hne : x ≠ b := by
    rintro rfl
    rw [hunit] at hnone
    cases hnone
  -- both are there when the later one starts
  refine h.apart hwhole (List.mem_append_left _ hx) (by simp) hne (t := max x.startDatetime
    b.startDatetime) ?_ ?_ (hxu.trans hb.symm)
  · exact decide_eq_true ⟨by lia, by lia⟩
  · exact decide_eq_true ⟨by lia, by lia⟩

/-! ## Admission -/

theorem competing_eq {activityId : Id} {s e : Instant} :
    competing db now activityId s e = overlapping (activeBookings now db activityId) s e := by
  simp only [competing, overlapping, activeBookings, Table.select, List.filter_filter]
  refine List.filter_congr fun x _ => ?_
  grind

/-- The active bookings after a creation are those before and the new one. -/
theorem Created.active {p : PreparedBooking} {ref : String} {unitNumber : Option Nat} {q : Quote}
    (h : Created env now db db' p ref unitNumber q b) :
    activeBookings now db' p.dto.activityId =
      activeBookings now db p.dto.activityId ++ [b] := by
  have hactive : activeBookingFilter now b = true := by
    rw [h.booking]
    unfold newBooking activeBookingFilter
    by_cases hpay : q.payableAmount ≤ 0
    · simp [hpay]
    · simp only [hpay, if_false]
      exact decide_eq_true (by simp only [minute, second]; lia)
  have hact : b.activityId = p.dto.activityId := by rw [h.booking]; rfl
  unfold activeBookings Table.select
  rw [h.stored.bookings, List.filter_append]
  simp [hactive, hact]

/-- **Admission keeps the bookings seatable exactly when one of their seatings
yields the unit**; units shared by guests, and none at all, always do. -/
theorem admission_keeps_seatable {db₀ : Db} {before : Instant} {userId : Id}
    {dto : CreateBookingDto} {p : PreparedBooking} {ref : String}
    (hguest : 0 < dto.guests)
    (hprepared : prepareBooking env before db₀ userId dto = .ok (some p))
    (hcap : (competing db now p.dto.activityId p.startDatetime p.endDatetime).length ≤
      env.availabilityMaxDayBookings)
    (h : createBookingTx env now db p ref = .ok (db', b))
    (hseatable : p.activity.Seatable (activeBookings now db p.dto.activityId)) :
    p.activity.Seatable (activeBookings now db' p.dto.activityId) ↔
      p.activity.Yields (activeBookings now db p.dto.activityId) p.startDatetime p.endDatetime
        p.dto.guests := by
  obtain ⟨unitNumber, q, hcreated⟩ := createBookingTx_created h
  have hadmitted := hcreated.admitted
  rw [windowBookings_eq hcap, competing_eq] at hadmitted
  obtain ⟨rfl, hwindow⟩ := prepareBooking_window hprepared
  have hb := hcreated.booking
  have hs : b.startDatetime = p.startDatetime := by rw [hb]; rfl
  have he : b.endDatetime = p.endDatetime := by rw [hb]; rfl
  have hguests : b.guests = p.dto.guests := by rw [hb]; rfl
  have hnumber : b.unitNumber = unitNumber := by rw [hb]; rfl
  rw [hcreated.active]
  rw [← hs, ← he, ← hguests] at hadmitted ⊢
  rw [← hs, ← he] at hwindow
  rw [← hguests] at hguest
  generalize activeBookings now db p.dto.activityId = bookings at *
  generalize p.activity = a at *
  rcases assignUnit_ok hadmitted with ⟨hunits, _, unit, rfl, hfirst, husable, _⟩ |
    ⟨hno, rfl, hroom⟩
  · have hfree := List.mem_of_head? hfirst
    unfold Activity.Seatable at hseatable ⊢
    rw [if_pos hunits] at hseatable ⊢
    by_cases hwhole : rentsWholeUnit a = true
    · constructor
      · rintro ⟨unitOf, hseats⟩ _
        refine ⟨unitOf, hseats.drop, fun u hu x hx hnone hlt hover hxu => ?_⟩
        obtain rfl := Option.some.inj (hfirst.symm.trans hu)
        exact (hseats.not_makesWay hwhole hnumber hwindow hx
          (decide_eq_true ⟨hnone, hlt, hover, hxu⟩)).elim
      · intro hyields
        obtain ⟨unitOf, hseats, hinside⟩ := hyields hwhole
        refine hseats.admit_whole hwhole hnumber hfree husable fun x hx hway => ?_
        obtain ⟨hnone, hlt, hover, hxu⟩ := of_decide_eq_true hway
        exact hinside unit hfirst x hx hnone hlt hover hxu
    · obtain ⟨unitOf, hseats⟩ := hseatable
      exact iff_of_true ⟨_, hseats.admit_shared hwhole hnumber hfree⟩
        fun hw => absurd hw hwhole
  · have hunits : ¬ a.hasUnits = true := by
      intro hon
      have hle := hroom 0 (by rw [if_pos hon]; rfl)
      have hpeak := maxConcurrentInWindow_nonneg
        (overlapping bookings b.startDatetime b.endDatetime) b.startDatetime b.endDatetime
      lia
    have hwhole : ¬ rentsWholeUnit a = true := fun hw => hunits (hasUnits_of_rentsWholeUnit hw)
    refine iff_of_true ?_ fun hw => absurd hw hwhole
    unfold Activity.Seatable at hseatable ⊢
    rw [if_neg hunits] at hseatable ⊢
    intro capacity hcapacity t
    rw [Activity.occupancy_append, Activity.occupancy_singleton]
    by_cases hcovers : b.covers t = true
    · have hcov := of_decide_eq_true hcovers
      have hle := hroom capacity (by rw [if_neg hunits]; exact hcapacity)
      have hpeak := seats_le_maxConcurrentInWindow
        (overlapping bookings b.startDatetime b.endDatetime) hcov.1 hcov.2
      have hnear : a.occupancy (bookings.filter (fun _ => true)) t ≤
          a.occupancy (overlapping bookings b.startDatetime b.endDatetime) t :=
        Activity.occupancy_filter_le fun x _ hx _ => overlaps_of_covers hcov.1 hcov.2 hx
      rw [List.filter_true] at hnear
      rw [Activity.occupancy_guests hwhole] at hnear
      rw [Activity.occupancy_guests hwhole] at hnear
      rw [if_pos hcovers, Activity.occupancy_guests hwhole, Activity.weight_guests hwhole]
      lia
    · rw [if_neg hcovers]
      exact hseatable capacity hcapacity t

/-! ## Two cabins -/

def cabins : Activity :=
  { marketActivity with
    pricingModel := .perUnit
    hasUnits := true
    unitCount := 2
    unitCapacity := 4 }

/-- A stay between two hours of the second day. -/
def stay (id : Id) (unitNumber : Option Nat) (fromHour toHour : Nat) : Booking where
  id := id
  ref := toString id
  activityId := 7
  vendorId := 4
  customerId := 2
  unitNumber := unitNumber
  startDatetime := day + fromHour * hour
  endDatetime := day + toHour * hour
  guests := 1
  status := .confirmed
  createdAt := 0

/-- The market with the cabins and a long stay that has none. -/
def cabinMarket : Db :=
  { market.db with
    activities := ⟨[cabins], by decide⟩
    bookings := ⟨[stay 20 none 10 20], by decide⟩ }

/-- The market with a stay in the second cabin too. -/
def fullerMarket : Db :=
  { cabinMarket with
    bookings := ⟨[stay 20 none 10 20, stay 21 (some 2) 12 13], by decide⟩ }

/-- A request for ten o'clock, and what it leaves. -/
def cabinRequest (db : Db) : Tx (Option (PreparedBooking × Db × Booking)) := do
  let prepared ← prepareBooking marketEnv 0 db 1 (marketRequest none)
  match prepared with
  | none => return none
  | some p =>
      let r ← createBookingTx marketEnv 0 db p "R"
      return some (p, r)

theorem cabinRequest_ok {db : Db} {test : PreparedBooking → Db → Booking → Bool}
    (h : (cabinRequest db).toOption.join.any (fun r => test r.1 r.2.1 r.2.2) = true) :
    ∃ p db' b, prepareBooking marketEnv 0 db 1 (marketRequest none) = .ok (some p) ∧
      createBookingTx marketEnv 0 db p "R" = .ok (db', b) ∧ test p db' b = true :=
  bookAt_ok h

/-- The request gets the first cabin, and the long stay can have the second. -/
theorem admission_keeps_seatable_cabins :
    ∃ p db' b, createBookingTx marketEnv 0 cabinMarket p "R" = .ok (db', b) ∧
      p.activity.Seatable (activeBookings 0 db' p.dto.activityId) := by
  obtain ⟨p, db', b, hprepared, hok, htest⟩ := @cabinRequest_ok cabinMarket
    (fun p _ _ => p.activity = cabins ∧ p.dto.activityId = 7 ∧ p.dto.guests = 1 ∧
      p.startDatetime = day + 10 * hour ∧ p.endDatetime = day + 11 * hour)
    (by decide +kernel)
  obtain ⟨hactivity, hid, hguests, hs, he⟩ := of_decide_eq_true htest
  have hseats : cabins.Seats (activeBookings 0 cabinMarket 7) (fun _ => 2) := by
    decide +kernel
  refine ⟨p, db', b, hok, (admission_keeps_seatable (by decide) hprepared ?_ hok ?_).mpr ?_⟩
  · rw [hid, hs, he]
    decide +kernel
  · rw [hactivity, hid, Activity.Seatable, if_pos (by decide)]
    exact ⟨_, hseats⟩
  · rw [hactivity, hid, hs, he, hguests]
    intro _
    refine ⟨_, hseats, fun unit hunit x _ _ _ _ hx => ?_⟩
    have hfirst : (freeUnits cabins (overlapping (activeBookings 0 cabinMarket 7)
        (day + 10 * hour) (day + 11 * hour)) (day + 10 * hour) (day + 11 * hour) 1).head? =
          some 1 := by
      decide +kernel
    rw [hfirst] at hunit
    have hone : 1 = unit := Option.some.inj hunit
    omega

/-- The second cabin is taken at noon: the request still gets the first, and the
long stay has none. -/
theorem long_stay_unseated :
    cabins.Seatable (activeBookings 0 fullerMarket 7) ∧
      ∃ p db' b, prepareBooking marketEnv 0 fullerMarket 1 (marketRequest none) = .ok (some p) ∧
        createBookingTx marketEnv 0 fullerMarket p "R" = .ok (db', b) ∧
        p.activity = cabins ∧ ¬ cabins.Seatable (activeBookings 0 db' 7) := by
  constructor
  · rw [Activity.Seatable, if_pos (by decide)]
    exact ⟨fun b => b.unitNumber.getD 1, by decide +kernel⟩
  obtain ⟨p, db', b, hprepared, hok, htest⟩ := @cabinRequest_ok fullerMarket
    (fun p db' b => p.activity = cabins ∧
      (∀ x ∈ [stay 20 none 10 20, stay 21 (some 2) 12 13, b], x ∈ activeBookings 0 db' 7) ∧
      b.unitNumber = some 1 ∧ b.covers (day + 10 * hour))
    (by decide +kernel)
  obtain ⟨hactivity, hmem, hunit, hcovers⟩ := of_decide_eq_true htest
  refine ⟨p, db', b, hprepared, hok, hactivity, ?_⟩
  rw [Activity.Seatable, if_pos (by decide)]
  rintro ⟨unitOf, h⟩
  have hlong := hmem (stay 20 none 10 20) (by simp)
  have hnoon := hmem (stay 21 (some 2) 12 13) (by simp)
  have hnew := hmem b (by simp)
  have hne : stay 20 none 10 20 ≠ b := by
    rintro rfl
    cases hunit
  have hfirst := h.apart (by decide) hlong hnew hne (t := day + 10 * hour) (by decide) hcovers
  have hsecond := h.apart (by decide) hlong hnoon (by decide) (t := day + 12 * hour)
    (by decide) (by decide)
  rw [h.placed b hnew 1 hunit] at hfirst
  rw [h.placed _ hnoon 2 rfl] at hsecond
  have hrange := h.inRange _ hlong
  have hcount : cabins.unitCount = 2 := rfl
  omega

end Jadwal
