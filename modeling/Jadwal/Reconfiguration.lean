import Jadwal.ActivityUpdate

/-!
# What a changed activity makes of its bookings

An update of an activity reads every stored booking under the new settings.
The bookings without a unit are packed into what the new settings leave, or the
update is refused, and so is a unit number that no longer exists.  The bookings
that have a unit already, and all of them when units are off, are not looked at
again: they fit the activity after the update exactly when they pass the check
the update leaves out, at the start of each of them
(`reconfiguration_keeps_capacity`).
-/

namespace Jadwal

open Outcome FirstFit

variable {now : Instant} {db db' : Db} {a : Activity}

/-! ## Fitting an activity -/

/-- What the bookings present at an instant take: guests, or one each when units
are rented whole. -/
def Activity.occupancy (a : Activity) (bookings : List Booking) (t : Instant) : Nat :=
  ((bookings.filter (fun b => b.covers t)).map a.weight).sum

/-- What one unit takes. -/
def Activity.unitLimit (a : Activity) : Nat :=
  if rentsWholeUnit a then 1 else a.unitCapacity

/-- What the activity takes as a whole; `none` is unlimited. -/
def Activity.total (a : Activity) : Option Nat :=
  if a.hasUnits then some (a.unitCount * a.unitLimit) else a.capacity

/-- At every instant the bookings are within the limit of each unit, when the
activity has units, and within its total. -/
structure Activity.Fits (a : Activity) (bookings : List Booking) : Prop where
  unit : a.hasUnits = true → ∀ unitNum t,
    a.occupancy (inUnit unitNum bookings) t ≤ a.unitLimit
  total : ∀ total ∈ a.total, ∀ t, a.occupancy bookings t ≤ total

/-- At the start of each booking that has a unit, those in the unit are within
its limit; without units, at the start of each booking all of them are within
the capacity. -/
def Activity.fitsAtStarts (a : Activity) (bookings : List Booking) : Bool :=
  bookings.all (fun b =>
    if a.hasUnits then
      b.unitNumber.all (fun unitNum =>
        a.occupancy (inUnit unitNum bookings) b.startDatetime ≤ a.unitLimit)
    else a.capacity.all (fun capacity =>
      a.occupancy bookings b.startDatetime ≤ capacity))

/-- The order of the bookings does not matter to the occupancy. -/
theorem Activity.occupancy_perm {bs cs : List Booking} (h : bs.Perm cs) (t : Instant) :
    a.occupancy bs t = a.occupancy cs t :=
  ((h.filter _).map _).sum_eq

/-- Fewer bookings take no more room. -/
theorem Activity.occupancy_le_of_sublist {bs cs : List Booking} (h : bs.Sublist cs)
    (t : Instant) : a.occupancy bs t ≤ a.occupancy cs t :=
  ((h.filter _).map _).sum_le_sum (by simp)

theorem Activity.occupancy_append (bs cs : List Booking) (t : Instant) :
    a.occupancy (bs ++ cs) t = a.occupancy bs t + a.occupancy cs t := by
  simp [Activity.occupancy]

theorem Activity.occupancy_singleton (b : Booking) (t : Instant) :
    a.occupancy [b] t = if b.covers t then a.weight b else 0 := by
  by_cases h : b.covers t = true <;> simp [Activity.occupancy, h]

/-- **The bookings take the most when one of them starts.** -/
theorem Activity.occupancy_le_iff {bookings : List Booking} {n : Nat} :
    (∀ t, a.occupancy bookings t ≤ n) ↔
      ∀ b ∈ bookings, a.occupancy bookings b.startDatetime ≤ n := by
  constructor
  · intro h b _
    exact h b.startDatetime
  · intro h t
    -- the last start among the bookings present
    cases hlast : (bookings.filter (fun b => b.covers t)).argmax Booking.startDatetime with
    | none =>
        rw [List.argmax_eq_none] at hlast
        simp [Activity.occupancy, hlast]
    | some b =>
        have hmem := List.argmax_mem hlast
        obtain ⟨hb, hcovers⟩ := List.mem_filter.mp hmem
        refine le_trans ?_ (h b hb)
        refine (List.Sublist.map _ ?_).sum_le_sum (by simp)
        have himp : ∀ c ∈ bookings.filter (fun c => c.covers t),
            c.covers b.startDatetime = true := by
          intro c hc
          have hle := List.le_of_mem_argmax hc hlast
          have hcov := of_decide_eq_true (List.mem_filter.mp hc).2
          have hcovb := of_decide_eq_true hcovers
          exact decide_eq_true ⟨hle, by lia⟩
        rw [← List.filter_eq_self.mpr himp]
        exact (List.filter_sublist (l := bookings)).filter _

/-! ## Room in a unit -/

theorem Activity.occupancy_guests (h : ¬ rentsWholeUnit a = true) (bookings : List Booking)
    (t : Instant) : a.occupancy bookings t = seats bookings t := by
  rw [Activity.occupancy, Activity.weight_guests h, seats, sum_map_ite]

/-- A booking that finds room in a unit leaves it within its limit. -/
theorem roomInUnit_keeps {bookings : List Booking} {b : Booking}
    (h : ∀ t, a.occupancy bookings t ≤ a.unitLimit) (hroom : roomInUnit a bookings b = true)
    (t : Instant) : a.occupancy (bookings ++ [b]) t ≤ a.unitLimit := by
  rw [Activity.occupancy_append, Activity.occupancy_singleton]
  by_cases hcovers : b.covers t = true
  · -- whatever is present next to the booking overlaps it
    have hnear : a.occupancy bookings t = a.occupancy
        (bookings.filter (fun p => p.overlaps b.startDatetime b.endDatetime)) t := by
      unfold Activity.occupancy
      rw [List.filter_filter]
      refine congrArg (fun l => (List.map a.weight l).sum) (List.filter_congr fun p _ => ?_)
      by_cases hp : p.covers t = true
      · have hb := of_decide_eq_true hcovers
        simp [hp, overlaps_of_covers hb.1 hb.2 hp]
      · simp [hp]
    rw [if_pos hcovers, hnear]
    unfold roomInUnit at hroom
    by_cases hwhole : rentsWholeUnit a = true
    · simp only [hwhole, if_true] at hroom
      rw [List.isEmpty_iff.mp hroom]
      simp [Activity.occupancy, Activity.weight, Activity.unitLimit, hwhole]
    · simp only [hwhole] at hroom
      have hpeak := of_decide_eq_true hroom
      have hcov := of_decide_eq_true hcovers
      have hseats := seats_le_maxConcurrentInWindow
        (bookings.filter (fun p => p.overlaps b.startDatetime b.endDatetime)) hcov.1 hcov.2
      rw [Activity.occupancy_guests hwhole, Activity.weight_guests hwhole, Activity.unitLimit,
        if_neg hwhole]
      lia
  · rw [if_neg hcovers]
    exact h t

/-! ## The bookings after the backfill -/

/-- The booking in its unit. -/
def seat (p : Nat × Booking) : Booking := { p.2 with unitNumber := some p.1 }

/-- The bin of a unit holds the bookings placed in it. -/
theorem bin_slots (bookings : List Booking) (unitNum : Nat) :
    bin (slots bookings) unitNum = inUnit unitNum bookings := by
  induction bookings with
  | nil => rfl
  | cons b bookings ih =>
      unfold bin inUnit slots at ih ⊢
      cases hunit : b.unitNumber with
      | none => simpa [hunit] using ih
      | some unit =>
          by_cases heq : unit = unitNum <;> simp [hunit, heq, ← ih]

/-- The slots are the bookings that have a unit. -/
theorem map_seat_slots (bookings : List Booking) :
    (slots bookings).map seat = bookings.filter (fun b => b.unitNumber.isSome) := by
  induction bookings with
  | nil => rfl
  | cons b bookings ih =>
      cases hunit : b.unitNumber with
      | none => simpa [slots, hunit] using ih
      | some unit =>
          have hseat : seat (unit, b) = b := by simp [seat, ← hunit]
          simpa [slots, hunit, hseat] using ih

/-- The bookings of a packing that stand in a unit are those of its bin. -/
theorem inUnit_map_seat (packed : List (Nat × Booking)) (unitNum : Nat) :
    inUnit unitNum (packed.map seat) =
      (bin packed unitNum).map (fun b => seat (unitNum, b)) := by
  induction packed with
  | nil => rfl
  | cons p packed ih =>
      unfold inUnit bin at ih ⊢
      have hunit : (seat p).unitNumber = some p.1 := rfl
      by_cases h : p.1 = unitNum
      · have hseat : seat (unitNum, p.2) = seat p := by rw [← h]
        simp [hunit, h, hseat, ih]
      · simp [hunit, h, ih]

/-- The unit number does not change what a booking takes. -/
theorem Activity.occupancy_map {bookings : List Booking} {f : Booking → Booking}
    (h : ∀ b, (f b).covers = b.covers ∧ (f b).guests = b.guests) (t : Instant) :
    a.occupancy (bookings.map f) t = a.occupancy bookings t := by
  have hweight : ∀ b, a.weight (f b) = a.weight b := by
    intro b
    simp [Activity.weight, (h b).2]
  simp only [Activity.occupancy, List.filter_map, List.map_map, Function.comp_def, (h _).1,
    hweight]

/-- What the update of one unit does to a row. -/
def seatIn (chosen : List (Nat × Booking)) (b : Booking) (unit : Nat) : Booking :=
  if b.id ∈ (bin chosen unit).map Booking.id then { b with unitNumber := some unit } else b

/-- What all the updates do to a row. -/
def Booking.seated (unitCount : Nat) (chosen : List (Nat × Booking)) (b : Booking) : Booking :=
  (List.range' 1 unitCount).foldl (seatIn chosen) b

/-- Writing units one after the other seats every booking in turn. -/
theorem foldl_writeUnit (chosen : List (Nat × Booking)) (units : List Nat) (db : Db) :
    (units.foldl (writeUnit chosen) db).bookings.rows =
        db.bookings.rows.map (fun b => units.foldl (seatIn chosen) b) ∧
      (units.foldl (writeUnit chosen) db).activities = db.activities := by
  induction units generalizing db with
  | nil => simp
  | cons unit units ih =>
      obtain ⟨hrows, hactivities⟩ := ih (writeUnit chosen db unit)
      refine ⟨?_, hactivities⟩
      rw [List.foldl_cons, hrows]
      simp only [writeUnit, Table.updateMany, List.map_map]
      refine List.map_congr_left fun b _ => ?_
      simp [seatIn]

/-- `writeUnits` moves bookings between units and nothing else. -/
theorem writeUnits_rows (unitCount : Nat) (chosen : List (Nat × Booking)) (db : Db) :
    (writeUnits unitCount chosen db).bookings.rows =
        db.bookings.rows.map (Booking.seated unitCount chosen) ∧
      (writeUnits unitCount chosen db).activities = db.activities :=
  foldl_writeUnit chosen (List.range' 1 unitCount) db

/-- A booking chosen for one unit ends in that unit. -/
theorem foldl_seatIn {chosen : List (Nat × Booking)} {k : Nat} {id : Id}
    (h : ∀ unit, id ∈ (bin chosen unit).map Booking.id ↔ unit = k) (units : List Nat)
    {b : Booking} (hb : b.id = id) :
    units.foldl (seatIn chosen) b =
      if k ∈ units then { b with unitNumber := some k } else b := by
  induction units generalizing b with
  | nil => simp
  | cons unit units ih =>
      have hmem : b.id ∈ (bin chosen unit).map Booking.id ↔ unit = k := by
        rw [hb]
        exact h unit
      rw [List.foldl_cons, seatIn]
      by_cases hunit : unit = k
      · have hseat : ({ b with unitNumber := some unit } : Booking).id = id := hb
        rw [if_pos (hmem.mpr hunit), ih hseat, hunit]
        simp
      · have hne : k ≠ unit := Ne.symm hunit
        rw [if_neg (fun hin => hunit (hmem.mp hin)), ih hb]
        simp [hne]

/-- The updates of units among them write a booking where it was chosen to be. -/
theorem foldl_seatIn_chosen {units : List Nat} {chosen : List (Nat × Booking)}
    (hnodup : (chosen.map (fun p => p.2.id)).Nodup) {p : Nat × Booking} (hp : p ∈ chosen)
    (hmem : p.1 ∈ units) {b : Booking} (hb : b.id = p.2.id) :
    units.foldl (seatIn chosen) b = { b with unitNumber := some p.1 } := by
  have hunit : ∀ unit, p.2.id ∈ (bin chosen unit).map Booking.id ↔ unit = p.1 := by
    intro unit
    constructor
    · intro h
      obtain ⟨b, hb, hid⟩ := List.mem_map.mp h
      obtain ⟨q, hq, rfl⟩ := List.mem_map.mp hb
      obtain ⟨hq, hfst⟩ := List.mem_filter.mp hq
      have heq := List.inj_on_of_nodup_map hnodup hq hp hid
      rw [← heq]
      exact (of_decide_eq_true hfst).symm
    · rintro rfl
      exact List.mem_map.mpr ⟨p.2, List.mem_map.mpr
        ⟨p, List.mem_filter.mpr ⟨hp, by simp⟩, rfl⟩, rfl⟩
  rw [foldl_seatIn hunit _ hb, if_pos hmem]

/-- Any other booking is left alone. -/
theorem foldl_seatIn_not_chosen {units : List Nat} {chosen : List (Nat × Booking)}
    {b : Booking} (h : b.id ∉ chosen.map (fun p => p.2.id)) :
    units.foldl (seatIn chosen) b = b := by
  induction units with
  | nil => rfl
  | cons unit units ih =>
      have hnot : b.id ∉ (bin chosen unit).map Booking.id := by
        intro hb
        obtain ⟨c, hc, hid⟩ := List.mem_map.mp hb
        obtain ⟨q, hq, rfl⟩ := List.mem_map.mp hc
        exact h (List.mem_map.mpr ⟨q, (List.mem_filter.mp hq).1, hid⟩)
      rw [List.foldl_cons, seatIn, if_neg hnot]
      exact ih

/-- A booking that was chosen a unit is written there. -/
theorem seated_of_chosen {unitCount : Nat} {chosen : List (Nat × Booking)}
    (hnodup : (chosen.map (fun p => p.2.id)).Nodup) {p : Nat × Booking} (hp : p ∈ chosen)
    (hrange : 1 ≤ p.1 ∧ p.1 ≤ unitCount) :
    p.2.seated unitCount chosen = seat p := by
  have hmem : p.1 ∈ List.range' 1 unitCount := List.mem_range'_1.mpr ⟨hrange.1, by omega⟩
  exact foldl_seatIn_chosen hnodup hp hmem rfl

/-- A booking not chosen stays where it is. -/
theorem seated_of_not_chosen {unitCount : Nat} {chosen : List (Nat × Booking)} {b : Booking}
    (h : b.id ∉ chosen.map (fun p => p.2.id)) : b.seated unitCount chosen = b :=
  foldl_seatIn_not_chosen h

/-- Seating a booking touches its unit alone. -/
theorem seated_eq (unitCount : Nat) (chosen : List (Nat × Booking)) (b : Booking) :
    ∃ unitNumber, b.seated unitCount chosen = { b with unitNumber := unitNumber } := by
  unfold Booking.seated
  generalize List.range' 1 unitCount = units
  induction units generalizing b with
  | nil => exact ⟨b.unitNumber, rfl⟩
  | cons unit units ih =>
      obtain ⟨unitNumber, heq⟩ := ih (seatIn chosen b unit)
      rw [List.foldl_cons, heq, seatIn]
      split
      · exact ⟨unitNumber, rfl⟩
      · exact ⟨unitNumber, rfl⟩

/-- The same bookings are live, in the units they were given. -/
theorem liveBookings_writeUnits (unitCount : Nat) (chosen : List (Nat × Booking))
    (activityId : Id) :
    liveBookings now (writeUnits unitCount chosen db) activityId =
      (liveBookings now db activityId).map (Booking.seated unitCount chosen) := by
  unfold liveBookings Table.select
  rw [(writeUnits_rows unitCount chosen db).1, List.filter_map]
  refine congrArg _ (List.filter_congr fun b _ => ?_)
  obtain ⟨unitNumber, heq⟩ := seated_eq unitCount chosen b
  rw [Function.comp_apply, heq]
  rfl

/-- A live booking is read once. -/
theorem liveBookings_nodup (now : Instant) (db : Db) (activityId : Id) :
    ((liveBookings now db activityId).map Booking.id).Nodup :=
  (List.filter_sublist.map _).nodup db.bookings.nodup

/-- Bookings without a unit hold no slot. -/
theorem slots_placed (bookings : List Booking) :
    slots (bookings.filter (fun b => b.unitNumber.isSome)) = slots bookings := by
  unfold slots
  rw [List.filterMap_filter]
  refine List.filterMap_congr fun b _ => ?_
  cases b.unitNumber <;> simp

/-- What a backfill that goes through has done. -/
structure Backfilled (now : Instant) (db : Db) (a : Activity) (packed : List (Nat × Booking))
    (db' : Db) : Prop where
  unassigned : ∃ unassigned,
    unassigned.Perm ((liveBookings now db a.id).filter (fun b => b.unitNumber.isNone)) ∧
    pack (roomInUnit a) a.unitCount (slots (liveBookings now db a.id)) unassigned = (packed, [])
  inRange : ∀ b ∈ liveBookings now db a.id, ∀ unit ∈ b.unitNumber,
    1 ≤ unit ∧ unit ≤ a.unitCount
  written : db' = writeUnits a.unitCount
    (packed.drop (slots (liveBookings now db a.id)).length) db

/-- Nothing chosen, nothing written. -/
theorem writeUnits_nil (unitCount : Nat) (db : Db) : writeUnits unitCount [] db = db := by
  unfold writeUnits
  generalize List.range' 1 unitCount = units
  induction units with
  | nil => rfl
  | cons unit units ih =>
      have hnone : writeUnit [] db unit = db := by
        have hrows : db.bookings.updateMany (fun b => b.id ∈ (bin [] unit).map Booking.id)
            (fun b => { b with unitNumber := some unit }) = db.bookings := by
          ext1
          simp [Table.updateMany, bin]
        simp only [writeUnit, hrows]
      rw [List.foldl_cons, hnone]
      exact ih

/-- `assignMissingUnits` does nothing, or places the bookings without a unit. -/
theorem assignMissingUnits_ok (ha : db.activities.find? a.id = some a)
    (h : assignMissingUnits now db a.id = .ok db') :
    (¬ (a.hasUnits = true ∧ 1 ≤ a.unitCount) ∧ db' = db) ∨
      (a.hasUnits = true ∧ ∃ packed, Backfilled now db a packed db') := by
  simp only [assignMissingUnits, ha] at h
  by_cases hunits : a.hasUnits = true ∧ 1 ≤ a.unitCount
  · right
    have hskip : ¬ (¬ a.hasUnits = true ∨ a.unitCount < 1) := by
      rintro (hoff | hcount)
      · exact hoff hunits.1
      · omega
    rw [if_neg hskip] at h
    simp only [bind_eq_ok, ensure_eq_ok] at h
    obtain ⟨_, hrange, h⟩ := h
    have hinRange : ∀ b ∈ liveBookings now db a.id, ∀ unit ∈ b.unitNumber,
        1 ≤ unit ∧ unit ≤ a.unitCount := by
      intro b hb unit hunit
      by_contra hout
      have hmem := List.eq_nil_iff_forall_not_mem.mp hrange b
      refine hmem (List.mem_filter.mpr ⟨List.mem_filter.mpr ⟨hb, ?_⟩, ?_⟩)
      · rw [Option.mem_def.mp hunit]
        rfl
      · exact decide_eq_true ⟨unit, hunit, by omega⟩
    refine ⟨hunits.1, ?_⟩
    split at h
    · rename_i hnone
      -- every live booking has a unit: the packing has nothing to place
      refine ⟨slots (liveBookings now db a.id), ⟨_,
        List.perm_insertionSort (fun a b => byStay a b) _, ?_⟩,
        hinRange, ?_⟩
      · rw [hnone]
        rfl
      · rw [List.drop_length, writeUnits_nil]
        exact (pure_eq_ok.mp h).symm
    · simp only [bind_eq_ok, ensure_eq_ok, pure_eq_ok, slots_placed] at h
      obtain ⟨_, hleft, rfl⟩ := h
      exact ⟨_, ⟨_, List.perm_insertionSort (fun a b => byStay a b) _, Prod.ext rfl hleft⟩,
        hinRange, rfl⟩
  · left
    have hskip : ¬ a.hasUnits = true ∨ a.unitCount < 1 := by
      by_cases hon : a.hasUnits = true
      · exact .inr (by have := not_and.mp hunits hon; omega)
      · exact .inl hon
    rw [if_pos hskip] at h
    exact ⟨hunits, (Except.ok.inj h).symm⟩

/-- The bookings the packing has added to those with a unit: the live ones that had
none, each in a unit of the range. -/
theorem Backfilled.exists_chosen {packed : List (Nat × Booking)}
    (h : Backfilled now db a packed db') :
    ∃ chosen, packed = slots (liveBookings now db a.id) ++ chosen ∧
      (∀ p ∈ chosen, 1 ≤ p.1 ∧ p.1 ≤ a.unitCount) ∧
      (chosen.map Prod.snd).Perm
        ((liveBookings now db a.id).filter (fun b => b.unitNumber.isNone)) ∧
      (chosen.map (fun p => p.2.id)).Nodup ∧ db' = writeUnits a.unitCount chosen db := by
  obtain ⟨unassigned, hperm, hpack⟩ := h.unassigned
  obtain ⟨chosen, hpacked, hrange⟩ := @pack_extends _ (roomInUnit a) a.unitCount
    (slots (liveBookings now db a.id)) unassigned
  have hsnd := map_snd_pack (congrArg Prod.snd hpack)
  rw [hpacked, List.map_append, List.append_cancel_left_eq] at hsnd
  rw [hpack] at hpacked
  replace hpacked : packed = slots (liveBookings now db a.id) ++ chosen := hpacked
  have hids : chosen.map (fun p => p.2.id) = unassigned.map Booking.id := by
    rw [← hsnd, List.map_map]
    rfl
  have hnodup : (chosen.map (fun p => p.2.id)).Nodup := by
    rw [hids, (hperm.map _).nodup_iff]
    exact (List.filter_sublist.map _).nodup (liveBookings_nodup now db a.id)
  have hwritten := h.written
  rw [hpacked, List.drop_left] at hwritten
  exact ⟨chosen, hpacked, hrange, hsnd ▸ hperm, hnodup, hwritten⟩

/-- Bookings are placed in units of the activity. -/
theorem Backfilled.packed_inRange {packed : List (Nat × Booking)}
    (h : Backfilled now db a packed db') : ∀ p ∈ packed, 1 ≤ p.1 ∧ p.1 ≤ a.unitCount := by
  obtain ⟨chosen, rfl, hrange, _⟩ := h.exists_chosen
  intro p hp
  rcases List.mem_append.mp hp with hp | hp
  · obtain ⟨b, hb, hslot⟩ := List.mem_filterMap.mp hp
    obtain ⟨unit, hunit, rfl⟩ := Option.map_eq_some_iff.mp hslot
    exact h.inRange b hb unit hunit
  · exact hrange p hp

/-- A booking that has a unit is not among those the packing has added. -/
theorem not_chosen_of_unit {activityId : Id} {chosen : List (Nat × Booking)}
    (hperm : (chosen.map Prod.snd).Perm
      ((liveBookings now db activityId).filter (fun b => b.unitNumber.isNone)))
    {b : Booking} (hb : b ∈ db.bookings.rows) (hunit : b.unitNumber ≠ none) :
    b.id ∉ chosen.map (fun p => p.2.id) := by
  intro hin
  obtain ⟨p, hp, hid⟩ := List.mem_map.mp hin
  have hmem := hperm.mem_iff.mp (List.mem_map_of_mem hp)
  obtain ⟨hlive, hnone⟩ := List.mem_filter.mp hmem
  have hrow := (List.mem_filter.mp hlive).1
  obtain rfl := List.inj_on_of_nodup_map db.bookings.nodup hrow hb hid
  exact hunit (Option.isNone_iff_eq_none.mp hnone)

/-- **The live bookings after the backfill are those of the packing.** -/
theorem Backfilled.live {packed : List (Nat × Booking)} (h : Backfilled now db a packed db') :
    (liveBookings now db' a.id).Perm (packed.map seat) := by
  obtain ⟨chosen, hpacked, hrange, hperm, hnodup, hwritten⟩ := h.exists_chosen
  -- the bookings that had a unit stay in it
  have hstay : ((liveBookings now db a.id).filter (fun b => b.unitNumber.isSome)).map
      (Booking.seated a.unitCount chosen) =
        (liveBookings now db a.id).filter (fun b => b.unitNumber.isSome) := by
    refine (List.map_congr_left fun b hb => ?_).trans (List.map_id _)
    obtain ⟨hb, hsome⟩ := List.mem_filter.mp hb
    exact seated_of_not_chosen (not_chosen_of_unit hperm (List.mem_filter.mp hb).1
      (Option.isSome_iff_ne_none.mp hsome))
  -- the others are in the unit chosen for them
  have hmoved : (chosen.map Prod.snd).map (Booking.seated a.unitCount chosen) =
      chosen.map seat := by
    rw [List.map_map]
    exact List.map_congr_left fun p hp => seated_of_chosen hnodup hp (hrange p hp)
  have hsplit : (liveBookings now db a.id).Perm
      ((liveBookings now db a.id).filter (fun b => b.unitNumber.isSome) ++
        chosen.map Prod.snd) := by
    refine (List.filter_append_perm (fun b => b.unitNumber.isSome) _).symm.trans ?_
    refine List.Perm.append_left _ ?_
    simp only [Option.not_isSome]
    exact hperm.symm
  rw [hwritten, hpacked, liveBookings_writeUnits, List.map_append, map_seat_slots]
  refine (hsplit.map _).trans ?_
  rw [List.map_append, hstay, hmoved]

/-- What a unit holds after the backfill is what the packing has put in it. -/
theorem Backfilled.occupancy {packed : List (Nat × Booking)}
    (h : Backfilled now db a packed db') (unitNum : Nat) (t : Instant) :
    a.occupancy (inUnit unitNum (liveBookings now db' a.id)) t =
      a.occupancy (bin packed unitNum) t := by
  have hperm : (inUnit unitNum (liveBookings now db' a.id)).Perm
      (inUnit unitNum (packed.map seat)) := h.live.filter _
  rw [Activity.occupancy_perm hperm, inUnit_map_seat]
  exact Activity.occupancy_map (f := fun b => seat (unitNum, b)) (fun _ => ⟨rfl, rfl⟩) t

/-- A unit that was within its limit is within it after the backfill, whatever the
other units are like. -/
theorem Backfilled.unit_within {packed : List (Nat × Booking)}
    (h : Backfilled now db a packed db') {unitNum : Nat}
    (hwithin : ∀ t, a.occupancy (inUnit unitNum (liveBookings now db a.id)) t ≤ a.unitLimit)
    (t : Instant) :
    a.occupancy (inUnit unitNum (liveBookings now db' a.id)) t ≤ a.unitLimit := by
  obtain ⟨unassigned, _, hpack⟩ := h.unassigned
  have hbin := @bin_pack _ (roomInUnit a) a.unitCount (slots (liveBookings now db a.id))
    unassigned (fun bookings => ∀ t, a.occupancy bookings t ≤ a.unitLimit) unitNum
    (fun _ _ hkept hroom => roomInUnit_keeps hkept hroom)
    (by rw [bin_slots]; exact hwithin)
  rw [hpack] at hbin
  rw [h.occupancy]
  exact hbin t

/-! ## What an accepted update leaves -/

/-- With units, what fits at every start fits at every instant, unit by unit. -/
theorem fitsAtStarts_units (h : a.hasUnits = true) (bookings : List Booking) :
    a.fitsAtStarts bookings = true ↔
      ∀ unitNum t, a.occupancy (inUnit unitNum bookings) t ≤ a.unitLimit := by
  simp only [Activity.occupancy_le_iff, Activity.fitsAtStarts, h, if_true, List.all_eq_true,
    Option.all_eq_true, decide_eq_true_eq]
  constructor
  · intro hall unitNum b hb
    obtain ⟨hb, hunit⟩ := List.mem_filter.mp hb
    exact hall b hb unitNum (of_decide_eq_true hunit)
  · intro hall b hb unitNum hunit
    exact hall unitNum b (List.mem_filter.mpr ⟨hb, decide_eq_true hunit⟩)

/-- Without units it fits at every instant under the capacity. -/
theorem fitsAtStarts_capacity (h : a.hasUnits = false) (bookings : List Booking) :
    a.fitsAtStarts bookings = true ↔
      ∀ capacity ∈ a.capacity, ∀ t, a.occupancy bookings t ≤ capacity := by
  simp only [Activity.occupancy_le_iff, Activity.fitsAtStarts, h, List.all_eq_true,
    Option.all_eq_true, decide_eq_true_eq, Bool.false_eq_true, if_false, Option.mem_def]
  constructor
  · intro hall capacity hcapacity b hb
    exact hall b hb capacity hcapacity
  · intro hall b hb capacity hcapacity
    exact hall capacity hcapacity b hb

/-- The bookings fit, checked at the start of each of them. -/
def Activity.fitsNow (a : Activity) (bookings : List Booking) : Bool :=
  (!a.hasUnits || a.fitsAtStarts bookings) && a.total.all (fun total =>
    bookings.all (fun b => a.occupancy bookings b.startDatetime ≤ total))

/-- **The check at the starts decides whether the bookings fit.** -/
theorem Activity.fitsNow_iff {bookings : List Booking} :
    a.fitsNow bookings = true ↔ a.Fits bookings := by
  have htotal : a.total.all (fun total =>
      bookings.all (fun b => a.occupancy bookings b.startDatetime ≤ total)) = true ↔
        ∀ total ∈ a.total, ∀ t, a.occupancy bookings t ≤ total := by
    simp only [Activity.occupancy_le_iff, Option.all_eq_true, List.all_eq_true,
      decide_eq_true_eq, Option.mem_def]
  rw [Activity.fitsNow, Bool.and_eq_true, htotal, Bool.or_eq_true, Bool.not_eq_true']
  constructor
  · rintro ⟨hunit, hall⟩
    refine ⟨fun hon => ?_, hall⟩
    exact (fitsAtStarts_units hon bookings).mp
      (hunit.resolve_left fun hoff => Bool.false_ne_true (hoff.symm.trans hon))
  · intro hfits
    refine ⟨?_, hfits.total⟩
    cases hon : a.hasUnits with
    | false => exact .inl rfl
    | true => exact .inr ((fitsAtStarts_units hon bookings).mpr (hfits.unit hon))

instance (a : Activity) (bookings : List Booking) : Decidable (a.Fits bookings) :=
  decidable_of_iff _ Activity.fitsNow_iff

/-- After a backfill the bookings fit the units when those that had a unit did. -/
theorem Backfilled.fits {packed : List (Nat × Booking)} (hunits : a.hasUnits = true)
    (h : Backfilled now db a packed db') :
    a.Fits (liveBookings now db' a.id) ↔ a.fitsAtStarts (liveBookings now db a.id) = true := by
  rw [fitsAtStarts_units hunits]
  obtain ⟨chosen, hpacked, _⟩ := h.exists_chosen
  constructor
  · intro hfits unitNum t
    refine le_trans ?_ (hfits.unit hunits unitNum t)
    rw [h.occupancy, hpacked, ← bin_slots]
    refine Activity.occupancy_le_of_sublist ?_ t
    exact ((List.sublist_append_left _ _).filter _).map _
  · intro hstart
    have hwithin := fun unitNum => h.unit_within (hstart unitNum)
    refine ⟨fun _ => hwithin, ?_⟩
    intro total htotal t
    rw [Activity.total, if_pos hunits, Option.mem_some_iff] at htotal
    have hsum := sum_le_of_bins (w := fun b => if b.covers t then a.weight b else 0)
      h.packed_inRange fun unitNum => by
        rw [sum_map_ite]
        exact (h.occupancy unitNum t).symm.trans_le (hwithin unitNum t)
    rw [Activity.occupancy_perm h.live, ← htotal]
    refine le_trans (le_of_eq ?_) hsum
    rw [Activity.occupancy, ← sum_map_ite, List.map_map]
    rfl

/-- What an accepted update has passed and written. -/
theorem updateActivityTx_ok {op : Operator} {dto : UpdateActivityDto} {links : ActivityLinks}
    (h : updateActivityTx now db op a dto links = .ok db') :
    dto.nullColumn? = none ∧
      assignMissingUnits now { db with
        activities := db.activities.update a.id
          (fun x => { dto.row op a with id := x.id }) } a.id = .ok db' := by
  unfold updateActivityTx at h
  cases hnull : dto.nullColumn? with
  | some column => simp [hnull] at h
  | none =>
      simp only [hnull, bind_eq_ok, ensure_eq_ok] at h
      obtain ⟨_, _, h⟩ := h
      exact ⟨rfl, h⟩

/-- An activity with units has at least one. -/
theorem assertUnitConfigConsistent_ok {unitCount unitCapacity : Option Nat} {u : Unit}
    (h : assertUnitConfigConsistent (some true) unitCount unitCapacity = .ok u) :
    ∃ n ∈ unitCount, 1 ≤ n := by
  simp only [assertUnitConfigConsistent, ne_eq, not_true_eq_false, if_false, bind_eq_ok,
    ensure_eq_ok] at h
  obtain ⟨_, hcount, _⟩ := h
  exact hcount

/-- A required column the update does not set to null has one merged value. -/
theorem Patch.getD_some {α : Type} {p : Patch α} (h : p.isNull = false) (current : α) :
    p.getD (some current) = some (p.required current) := by
  rcases p with _ | _ | value
  · rfl
  · cases h
  · rfl

/-- An accepted update has written its row, with a unit when units are on, and
has gone through the backfill. -/
theorem updateActivity_ok {op : Operator} {activityId : Id} {dto : UpdateActivityDto}
    {links : ActivityLinks} (ha : db.activities.find? activityId = some a)
    (h : updateActivity now db op activityId dto links = .ok db') :
    ((dto.row op a).hasUnits = true → 1 ≤ (dto.row op a).unitCount) ∧
      assignMissingUnits now { db with
        activities := db.activities.update a.id
          (fun x => { dto.row op a with id := x.id }) } a.id = .ok db' := by
  cases op with
  | vendor userId =>
      simp only [updateActivity, vendorUpdateActivity, bind_eq_ok, orThrow_eq_ok,
        ensure_eq_ok] at h
      obtain ⟨_, _, activity, hactivity, _, _, _, _, _, _, _, hunits, _, _, h⟩ := h
      have hfind := (Option.filter_eq_some_iff.mp hactivity).1
      obtain rfl := Option.some.inj (ha.symm.trans hfind)
      refine ⟨fun hon => ?_, (updateActivityTx_ok h).2⟩
      have hon' : dto.hasUnits.required a.hasUnits = true := hon
      rw [hon'] at hunits
      obtain ⟨n, hn, hle⟩ := assertUnitConfigConsistent_ok hunits
      exact hle.trans_eq (Option.some.inj hn).symm
  | admin userId =>
      simp only [updateActivity, adminUpdateActivity, bind_eq_ok, orThrow_eq_ok,
        ensure_eq_ok] at h
      obtain ⟨activity, hfind, _, _, _, hunits, _, _, _, _, h⟩ := h
      obtain rfl := Option.some.inj (ha.symm.trans hfind)
      obtain ⟨hnull, h⟩ := updateActivityTx_ok h
      refine ⟨fun hon => ?_, h⟩
      simp only [UpdateActivityDto.nullColumn?, Option.map_eq_none_iff, List.find?_eq_none,
        List.mem_cons, List.not_mem_nil, or_false, forall_eq_or_imp, forall_eq,
        Bool.not_eq_true] at hnull
      obtain ⟨-, -, -, -, hhas, hcount, -⟩ := hnull
      have hon' : dto.hasUnits.required a.hasUnits = true := hon
      rw [Patch.getD_some hhas, Patch.getD_some hcount, hon'] at hunits
      obtain ⟨n, hn, hle⟩ := assertUnitConfigConsistent_ok hunits
      exact hle.trans_eq (Option.some.inj hn).symm

/-- Without units the bookings fit when the starts do. -/
theorem Activity.fits_capacity (h : a.hasUnits = false) (bookings : List Booking) :
    a.Fits bookings ↔ a.fitsAtStarts bookings = true := by
  have htotal : a.total = a.capacity := by simp [Activity.total, h]
  rw [fitsAtStarts_capacity h]
  constructor
  · intro hfits capacity hcapacity
    exact hfits.total capacity (htotal ▸ hcapacity)
  · intro hle
    exact ⟨fun hon => (Bool.false_ne_true (h.symm.trans hon)).elim,
      fun total htot => hle total (htotal ▸ htot)⟩

/-- **An accepted update keeps the bookings within the activity exactly when they
pass the check it leaves out**: as they were before it, those that have a unit
fit the unit as it is now configured, or all of them the capacity. -/
theorem reconfiguration_keeps_capacity {op : Operator} {activityId : Id}
    {dto : UpdateActivityDto} {links : ActivityLinks}
    (ha : db.activities.find? activityId = some a)
    (h : updateActivity now db op activityId dto links = .ok db') :
    db'.activities.find? activityId = some (dto.row op a) ∧
      ((dto.row op a).Fits (liveBookings now db' activityId) ↔
        (dto.row op a).fitsAtStarts (liveBookings now db activityId) = true) := by
  obtain ⟨hcount, hassign⟩ := updateActivity_ok ha h
  obtain ⟨_, rfl⟩ := Table.find?_eq_some.mp ha
  replace ha : db.activities.find? a.id = some a := ha
  have hrow : (db.activities.update a.id (fun x => { dto.row op a with id := x.id })).find? a.id =
      some (dto.row op a) := by
    rw [Table.find?_update _ _ _ (by intro _; rfl), if_pos rfl, ha]
    rfl
  rcases assignMissingUnits_ok (a := dto.row op a) hrow hassign with ⟨hoff, rfl⟩ |
    ⟨hon, packed, hb⟩
  · refine ⟨hrow, ?_⟩
    have hunits : (dto.row op a).hasUnits = false := by
      by_contra hne
      have hon := Bool.not_eq_false _ ▸ hne
      exact hoff ⟨hon, hcount hon⟩
    exact Activity.fits_capacity hunits _
  · have hfits := hb.fits hon
    refine ⟨?_, hfits⟩
    rw [hb.written, (writeUnits_rows _ _ _).2]
    exact hrow

/-! ## Two updates -/

/-- A trip of two guests, in a unit or not. -/
def tripOf (id : Id) (unitNumber : Option Nat) : Booking where
  id := id
  ref := toString id
  activityId := 7
  vendorId := 4
  customerId := 1
  unitNumber := unitNumber
  startDatetime := 100
  endDatetime := 200
  guests := 2
  status := .confirmed
  createdAt := 0

/-- The market with two trips at the same time. -/
def trips (activity : Activity) (unitNumber : Option Nat) : Db :=
  { market.db with
    activities := ⟨[activity], by simp⟩
    bookings := ⟨[tripOf 20 unitNumber, tripOf 21 unitNumber], by simp [Keyed.key, tripOf]⟩ }

/-- Four seats without units. -/
def raft : Activity := { marketActivity with capacity := some 4 }

/-- A boat of four seats that is one unit. -/
def boat : Activity :=
  { marketActivity with
    capacity := some 4
    hasUnits := true
    unitCount := 1
    unitCapacity := 4 }

/-- The trips are made without units; the administrator makes the boat two units
of two seats, and each trip gets one. -/
def splitInTwo : UpdateActivityDto where
  hasUnits := some (some true)
  unitCount := some (some 2)
  unitCapacity := some (some 2)

theorem reconfiguration_keeps_capacity_split :
    ∃ db', updateActivity 0 (trips raft none) (.admin 3) 7 splitInTwo {} = .ok db' ∧
      (splitInTwo.row (.admin 3) raft).Fits (liveBookings 0 db' 7) := by
  have hany : (updateActivity 0 (trips raft none) (.admin 3) 7
      splitInTwo {}).toOption.any (fun _ => true) = true := by
    decide +kernel
  obtain ⟨db', hok, _⟩ := (Option.any_eq_true _ _).mp hany
  have hok := toOption_eq_some.mp hok
  exact ⟨db', hok, (reconfiguration_keeps_capacity (a := raft) rfl hok).2.mpr
    (by decide +kernel)⟩

/-- Two trips in a unit of four seats: the vendor makes it one of three. -/
theorem shrunk_unit_oversold :
    boat.Fits (liveBookings 0 (trips boat (some 1)) 7) ∧
      ∃ db', updateActivity 0 (trips boat (some 1)) (.vendor 3) 7
          { unitCapacity := some (some 3) } {} = .ok db' ∧
        ∃ a ∈ db'.activities.find? 7, ¬ a.Fits (liveBookings 0 db' 7) := by
  refine ⟨by decide +kernel, ?_⟩
  have hany : (updateActivity 0 (trips boat (some 1)) (.vendor 3) 7
      { unitCapacity := some (some 3) } {}).toOption.any (fun db' =>
        (db'.activities.find? 7).any (fun a => ¬ a.Fits (liveBookings 0 db' 7))) = true := by
    decide +kernel
  obtain ⟨db', hok, hany⟩ := (Option.any_eq_true _ _).mp hany
  obtain ⟨a, ha, hfits⟩ := (Option.any_eq_true _ _).mp hany
  exact ⟨db', toOption_eq_some.mp hok, a, ha, of_decide_eq_true hfits⟩

end Jadwal
