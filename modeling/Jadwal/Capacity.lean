import Jadwal.Reaping
import Jadwal.Lib.Occupancy

/-!
# Capacity over whole runs

A booking that is confirmed, completed, or reserved beyond the present holds
its seat.  Held seats are **claims** on the units of an activity, or on the
activity itself when it has no units, and what a step of the system may do to
them is drop some or admit one (`Task.run_admits`).  A creation and a recovery
admit a booking that finds room.  Confirming a paid booking and extending a
held one look for no room, and they may bring back a reservation that lapsed
and whose seat was sold again; `capacity_respected` is about the runs in which
the seat is still free.
-/

namespace Jadwal

open Outcome Occupancy

variable {env : Env} {now : Instant} {db db' : Db}

/-! ## Seats -/

/-- The booking holds its seat: it is confirmed or completed, or reserved beyond
the instant. -/
def Booking.holdsSeat (now : Instant) (b : Booking) : Bool :=
  match b.status with
  | .cancelled => false
  | .pending => b.Held now
  | .confirmed | .completed => true

/-- The bookings of an activity that hold a seat, present at an instant. -/
def presentAt (now : Instant) (db : Db) (activityId : Id) (t : Instant) : List Booking :=
  db.bookings.select (fun b => b.activityId = activityId ∧ b.holdsSeat now ∧ b.covers t)

/-- At every instant: one booking on each unit that is rented whole, the guests
of each unit within its capacity, or all guests within the activity's. -/
def RespectsCapacity (now : Instant) (db : Db) (a : Activity) : Prop :=
  ∀ t,
    if rentsWholeUnit a then
      ∀ unitNum, (inUnit unitNum (presentAt now db a.id t)).length ≤ 1
    else if a.hasUnits then
      ∀ unitNum, ((inUnit unitNum (presentAt now db a.id t)).map Booking.guests).sum ≤
        a.unitCapacity
    else
      ∀ capacity ∈ a.capacity, ((presentAt now db a.id t).map Booking.guests).sum ≤ capacity

/-! ## Seats as claims -/

/-- A unit of an activity, or the activity. -/
abbrev Resource := Id × Option Nat

def Activity.resource (a : Activity) (b : Booking) : Resource :=
  (b.activityId, if a.hasUnits then b.unitNumber else none)

/-- A whole unit is taken once, other inventory guest by guest. -/
def Activity.weight (a : Activity) (b : Booking) : Nat :=
  if rentsWholeUnit a then 1 else b.guests

/-- What the activity allows on one of its resources. -/
def Activity.limit (a : Activity) (unitNumber : Option Nat) : Option Nat :=
  if rentsWholeUnit a then unitNumber.map (fun _ => 1)
  else if a.hasUnits then unitNumber.map (fun _ => a.unitCapacity)
  else a.capacity

/-- The place of a booking in the inventory of its activity. -/
def Db.seatClaim (db : Db) (b : Booking) : Occupant Id Resource Instant where
  key := b.id
  resource := (db.activities.find? b.activityId).elim (b.activityId, none) (·.resource b)
  start := b.startDatetime
  stop := b.endDatetime
  weight := (db.activities.find? b.activityId).elim b.guests (·.weight b)

/-- The places of the bookings that hold their seat. -/
def Db.heldClaims (db : Db) (now : Instant) : List (Occupant Id Resource Instant) :=
  (db.bookings.select (Booking.holdsSeat now)).map db.seatClaim

def Db.seatLimit (db : Db) (r : Resource) : Option Nat :=
  (db.activities.find? r.1).bind (fun a => a.limit r.2)

/-- The bookings that hold a seat leave room for this one. -/
def Db.SeatFree (db : Db) (now : Instant) (b : Booking) : Prop :=
  Room db.seatLimit (db.heldClaims now) (db.seatClaim b)

theorem sum_map_ite (l : List Booking) (p : Booking → Bool) (m : Booking → Nat) :
    (l.map (fun b => if p b then m b else 0)).sum = ((l.filter p).map m).sum := by
  simp [List.sum_map_ite]

/-- The load of a unit is the weight of the bookings present in it. -/
theorem load_heldClaims {a : Activity} {activityId : Id}
    (ha : db.activities.find? activityId = some a) (unitNumber : Option Nat) (t : Instant) :
    load (db.heldClaims now) (activityId, unitNumber) t =
      (((presentAt now db activityId t).filter
        (fun b => a.resource b = (activityId, unitNumber))).map a.weight).sum := by
  have hshare : ∀ b, (db.seatClaim b).share (activityId, unitNumber) t =
      if decide (b.activityId = activityId ∧ b.covers t ∧
        a.resource b = (activityId, unitNumber)) then a.weight b else 0 := by
    intro b
    by_cases hb : b.activityId = activityId
    · simp [Occupant.share, Occupant.covers, Db.seatClaim, Booking.covers, hb, ha, and_comm]
    · have hne : (db.seatClaim b).resource ≠ (activityId, unitNumber) := by
        cases hx : db.activities.find? b.activityId with
        | none => simp [Db.seatClaim, hx, hb]
        | some x => simp [Db.seatClaim, hx, Activity.resource, hb]
      simp [Occupant.share, hne, hb]
  have hsum := sum_map_ite (db.bookings.select (Booking.holdsSeat now))
    (fun b => b.activityId = activityId ∧ b.covers t ∧
      a.resource b = (activityId, unitNumber)) a.weight
  simp only [load, Db.heldClaims, List.map_map, Function.comp_def, hshare]
  rw [hsum]
  simp only [presentAt, Table.select, List.filter_filter]
  refine congrArg (fun l => (List.map a.weight l).sum) (List.filter_congr fun b _ => ?_)
  simp only [Bool.decide_and, Bool.decide_eq_true]
  grind

theorem hasUnits_of_rentsWholeUnit {a : Activity} (h : rentsWholeUnit a = true) :
    a.hasUnits = true :=
  (of_decide_eq_true h).1

/-- On an activity with units, a unit is taken by the bookings in it. -/
theorem load_unit {a : Activity} (ha : a ∈ db.activities.rows) (h : a.hasUnits = true)
    (unitNum : Nat) (t : Instant) :
    load (db.heldClaims now) (a.id, some unitNum) t =
      ((inUnit unitNum (presentAt now db a.id t)).map a.weight).sum := by
  have hfind : db.activities.find? a.id = some a := Table.find?_key ha
  rw [load_heldClaims hfind]
  refine congrArg (fun l => (List.map a.weight l).sum) (List.filter_congr fun b hb => ?_)
  have hid : b.activityId = a.id := (of_decide_eq_true (Table.mem_select.mp hb).2).1
  simp [Activity.resource, h, hid]

/-- Without units, the activity is taken by all of its bookings. -/
theorem load_activity {a : Activity} (ha : a ∈ db.activities.rows) (h : a.hasUnits = false)
    (t : Instant) :
    load (db.heldClaims now) (a.id, none) t =
      ((presentAt now db a.id t).map a.weight).sum := by
  have hfind : db.activities.find? a.id = some a := Table.find?_key ha
  rw [load_heldClaims hfind]
  refine congrArg (fun l => (List.map a.weight l).sum) (List.filter_eq_self.mpr fun b hb => ?_)
  have hid : b.activityId = a.id := (of_decide_eq_true (Table.mem_select.mp hb).2).1
  simp [Activity.resource, h, hid]

/-- A booking of a whole unit weighs one. -/
theorem Activity.weight_whole {a : Activity} (h : rentsWholeUnit a = true)
    (bs : List Booking) : (bs.map a.weight).sum = bs.length := by
  have hone : a.weight = fun _ => 1 := funext fun b => if_pos h
  simp [hone]

/-- Any other weighs its guests. -/
theorem Activity.weight_guests {a : Activity} (h : ¬ rentsWholeUnit a = true) :
    a.weight = Booking.guests :=
  funext fun _ => if_neg h

/-- **Capacity is respected when the claims are within the limits.** -/
theorem respectsCapacity_iff :
    (∀ a ∈ db.activities.rows, RespectsCapacity now db a) ↔
      Within db.seatLimit (db.heldClaims now) := by
  constructor
  · rintro h ⟨activityId, unitNumber⟩ t n hn
    obtain ⟨a, ha, hlimit⟩ := Option.bind_eq_some_iff.mp hn
    obtain ⟨hmem, rfl⟩ := Table.find?_eq_some.mp ha
    have hcap := h a hmem t
    simp only [Activity.limit] at hlimit
    by_cases hwhole : rentsWholeUnit a = true
    · rw [if_pos hwhole] at hlimit hcap
      obtain ⟨unitNum, rfl, rfl⟩ := Option.map_eq_some_iff.mp hlimit
      refine (load_unit hmem (hasUnits_of_rentsWholeUnit hwhole) unitNum t).trans_le ?_
      rw [Activity.weight_whole hwhole]
      exact hcap unitNum
    · rw [if_neg hwhole] at hlimit hcap
      by_cases hunits : a.hasUnits = true
      · rw [if_pos hunits] at hlimit hcap
        obtain ⟨unitNum, rfl, rfl⟩ := Option.map_eq_some_iff.mp hlimit
        refine (load_unit hmem hunits unitNum t).trans_le ?_
        rw [Activity.weight_guests hwhole]
        exact hcap unitNum
      · rw [if_neg hunits] at hlimit hcap
        refine le_trans ?_ (hcap n hlimit)
        refine (load_heldClaims ha unitNumber t).trans_le ?_
        rw [Activity.weight_guests hwhole]
        exact (List.filter_sublist.map _).sum_le_sum (by simp)
  · intro h a ha t
    have hfind := Table.find?_key ha
    have hin : ∀ unitNumber, ∀ n ∈ a.limit unitNumber,
        load (db.heldClaims now) (a.id, unitNumber) t ≤ n := by
      intro unitNumber n hn
      exact h (a.id, unitNumber) t n (Option.bind_eq_some_iff.mpr ⟨a, hfind, hn⟩)
    simp only [Activity.limit] at hin
    by_cases hwhole : rentsWholeUnit a = true
    · rw [if_pos hwhole]
      intro unitNum
      have hle := hin (some unitNum) 1 (by rw [if_pos hwhole]; rfl)
      rwa [load_unit ha (hasUnits_of_rentsWholeUnit hwhole), Activity.weight_whole hwhole] at hle
    · rw [if_neg hwhole]
      by_cases hunits : a.hasUnits = true
      · rw [if_pos hunits]
        intro unitNum
        have hle := hin (some unitNum) a.unitCapacity (by rw [if_neg hwhole, if_pos hunits]; rfl)
        rwa [load_unit ha hunits, Activity.weight_guests hwhole] at hle
      · rw [if_neg hunits]
        intro capacity hcapacity
        have hle := hin none capacity (by rw [if_neg hwhole, if_neg hunits]; exact hcapacity)
        rwa [load_activity ha (by simpa using hunits), Activity.weight_guests hwhole] at hle

/-! ## Room -/

/-- The load of the others is bounded by the bookings a check counts, when it
counts every one of them that holds a seat next to the booking. -/
theorem load_others_le {b : Booking} {q : Booking → Bool} {w : Booking → Nat} {t : Instant}
    (hq : ∀ x ∈ db.bookings.rows, x.holdsSeat now = true → x.id ≠ b.id →
      (db.seatClaim x).resource = (db.seatClaim b).resource → x.covers t = true →
        q x = true ∧ (db.seatClaim x).weight ≤ w x) :
    load (others (db.heldClaims now) b.id) (db.seatClaim b).resource t ≤
      ((db.bookings.select q).map (fun x => if x.covers t then w x else 0)).sum := by
  have hothers : load (others (db.heldClaims now) b.id) (db.seatClaim b).resource t =
      ((db.bookings.rows.filter (fun x => decide (x.id ≠ b.id) && x.holdsSeat now)).map
        (fun x => (db.seatClaim x).share (db.seatClaim b).resource t)).sum := by
    simp only [load, others, Db.heldClaims, Table.select, List.filter_map, List.map_map,
      List.filter_filter]
    rfl
  rw [hothers, ← sum_map_ite, Table.select, ← sum_map_ite]
  refine List.sum_le_sum fun x hx => ?_
  by_cases hheld : (decide (x.id ≠ b.id) && x.holdsSeat now) = true
  · rw [if_pos hheld]
    rw [Bool.and_eq_true, decide_eq_true_eq] at hheld
    by_cases hshare : (db.seatClaim x).resource = (db.seatClaim b).resource ∧
        (db.seatClaim x).covers t
    · have hcovers : x.covers t = true := decide_eq_true hshare.2
      obtain ⟨hqx, hwx⟩ := hq x hx hheld.2 hheld.1 hshare.1 hcovers
      rw [Occupant.share, if_pos hshare, if_pos hqx, if_pos hcovers]
      exact hwx
    · rw [Occupant.share, if_neg hshare]
      exact Nat.zero_le _
  · rw [if_neg hheld]
    exact Nat.zero_le _

/-- What holds a seat is active. -/
theorem active_of_holdsSeat {b : Booking} (h : b.holdsSeat now = true) :
    activeBookingFilter now b = true := by
  unfold Booking.holdsSeat at h
  unfold activeBookingFilter
  cases hs : b.status with
  | pending =>
      simp only [hs] at h ⊢
      obtain ⟨r, hr, hlt⟩ := of_decide_eq_true h
      rw [Option.mem_def.mp hr]
      exact decide_eq_true hlt.le
  | cancelled => simp [hs] at h
  | confirmed | completed => rfl

/-- Two bookings that cover an instant overlap. -/
theorem overlaps_of_covers {b x : Booking} {t : Instant} (hb : b.startDatetime ≤ t)
    (hb' : t < b.endDatetime) (hx : x.covers t = true) :
    x.overlaps b.startDatetime b.endDatetime = true :=
  covers_overlaps hx hb hb'

/-- The unit an admitted request gets, and the room that was found. -/
theorem assignUnit_ok {a : Activity} {bookings : List Booking} {s e : Instant} {guests : Nat}
    {unitNumber : Option Nat} (h : assignUnit a bookings s e guests = .ok unitNumber) :
    (a.hasUnits = true ∧ 0 < a.unitCount ∧ ∃ unitNum, unitNumber = some unitNum ∧
        (freeUnits a bookings s e guests).head? = some unitNum ∧
        0 < usableUnits a bookings s e guests ∧
        (guests : Int) ≤ a.unitCapacity - maxConcurrentInWindow (inUnit unitNum bookings) s e) ∨
      (¬ (a.hasUnits = true ∧ 0 < a.unitCount) ∧ unitNumber = none ∧
        ∀ limit ∈ (if a.hasUnits then some 0 else a.capacity),
          (guests : Int) ≤ limit - maxConcurrentInWindow bookings s e) := by
  unfold assignUnit resolveUnit at h
  by_cases hunits : a.hasUnits = true ∧ a.unitCount > 0
  · left
    rw [if_pos hunits] at h
    by_cases husable : usableUnits a bookings s e guests > 0
    · rw [if_pos husable] at h
      cases hfree : freeUnits a bookings s e guests with
      | nil => simp [hfree, throw, throwThe, MonadExceptOf.throw, bind, Except.bind] at h
      | cons unitNum rest =>
          simp only [hfree, bind_eq_ok, Except.ok.injEq, exists_eq_left', pure_eq_ok,
            finalBookings] at h
          obtain ⟨_, hroom, rfl⟩ := h
          exact ⟨hunits.1, hunits.2, unitNum, rfl, rfl, husable,
            ensure_eq_ok.mp hroom⟩
    · simp [husable, throw, throwThe, MonadExceptOf.throw, bind, Except.bind] at h
  · right
    rw [if_neg hunits] at h
    simp only [bind_eq_ok, Except.ok.injEq, exists_eq_left', finalBookings] at h
    cases hlimit : (if a.hasUnits then some 0 else a.capacity) with
    | none =>
        simp only [hlimit, pure_eq_ok] at h
        exact ⟨hunits, h.symm, fun _ hn => by cases hn⟩
    | some limit =>
        simp only [hlimit, bind_eq_ok, pure_eq_ok] at h
        obtain ⟨_, hroom, rfl⟩ := h
        refine ⟨hunits, rfl, fun n hn => ?_⟩
        obtain rfl := Option.some.inj hn
        exact ensure_eq_ok.mp hroom

/-- The rows a creation asks for, without the row cap. -/
def competing (db : Db) (now : Instant) (activityId : Id) (startDatetime endDatetime : Instant) :
    List Booking :=
  db.bookings.select (fun b => b.activityId = activityId ∧ activeBookingFilter now b ∧
    b.overlaps startDatetime endDatetime)

/-- Below the cap nothing is cut. -/
theorem windowBookings_eq {activityId : Id} {s e : Instant}
    (h : (competing db now activityId s e).length ≤ env.availabilityMaxDayBookings) :
    windowBookings env db now activityId s e = competing db now activityId s e :=
  List.take_of_length_le h

/-- The claim of a booking is on its own unit, with its own weight. -/
theorem Db.seatClaim_resource {a : Activity} {b : Booking}
    (ha : db.activities.find? b.activityId = some a) :
    (db.seatClaim b).resource = a.resource b ∧ (db.seatClaim b).weight = a.weight b := by
  simp [Db.seatClaim, ha]

/-- A booking on the same resource is one of the same activity, and of the same
unit when it has units. -/
theorem Db.same_resource {a : Activity} {b x : Booking}
    (ha : db.activities.find? b.activityId = some a)
    (h : (db.seatClaim x).resource = (db.seatClaim b).resource) :
    x.activityId = b.activityId ∧ (a.hasUnits = true → x.unitNumber = b.unitNumber) ∧
      (db.seatClaim x).weight = a.weight x := by
  rw [(Db.seatClaim_resource ha).1] at h
  have hid : x.activityId = b.activityId := by
    cases hx : db.activities.find? x.activityId with
    | none =>
        simp only [Db.seatClaim, hx, Option.elim_none, Activity.resource] at h
        exact (Prod.mk.inj h).1
    | some y =>
        simp only [Db.seatClaim, hx, Option.elim_some, Activity.resource] at h
        exact (Prod.mk.inj h).1
  have hx : db.activities.find? x.activityId = some a := by rw [hid, ha]
  rw [(Db.seatClaim_resource hx).1] at h
  refine ⟨hid, fun hunits => ?_, (Db.seatClaim_resource hx).2⟩
  simpa [Activity.resource, hunits] using (Prod.mk.inj h).2

/-- The check counts every booking that holds a seat next to this one. -/
def CountedWith (db : Db) (now : Instant) (a : Activity) (b : Booking)
    (q : Booking → Bool) : Prop :=
  ∀ x ∈ db.bookings.rows, x.holdsSeat now = true → x.id ≠ b.id →
    x.activityId = b.activityId → (a.hasUnits = true → x.unitNumber = b.unitNumber) →
      x.overlaps b.startDatetime b.endDatetime = true → q x = true

/-- Its limit is the one of its activity. -/
theorem Db.seatLimit_claim {a : Activity} {b : Booking}
    (ha : db.activities.find? b.activityId = some a) :
    db.seatLimit (db.seatClaim b).resource =
      a.limit (if a.hasUnits then b.unitNumber else none) := by
  rw [(Db.seatClaim_resource ha).1]
  simp [Db.seatLimit, Activity.resource, ha]

/-- A whole unit that no counted booking overlaps is free. -/
theorem CountedWith.seatFree_of_empty {a : Activity} {b : Booking} {q : Booking → Bool}
    (hq : CountedWith db now a b q) (ha : db.activities.find? b.activityId = some a)
    (hwhole : rentsWholeUnit a = true) (hempty : db.bookings.select q = []) :
    db.SeatFree now b := by
  intro t ht n hn
  have hle := @load_others_le now db b q a.weight t
    fun x hx hheld hid hr hcovers => by
      obtain ⟨hact, hunit, hweight⟩ := Db.same_resource ha hr
      exact ⟨hq x hx hheld hid hact hunit (overlaps_of_covers ht.1 ht.2 hcovers), hweight.le⟩
  rw [hempty] at hle
  rw [Db.seatLimit_claim ha, Activity.limit, if_pos hwhole] at hn
  obtain ⟨_, _, rfl⟩ := Option.map_eq_some_iff.mp hn
  have hone : (db.seatClaim b).weight = 1 := by
    rw [(Db.seatClaim_resource ha).2, Activity.weight, if_pos hwhole]
  change load (others (db.heldClaims now) b.id) _ t + _ ≤ 1
  rw [hone]
  simpa using hle

/-- Seats the peak of the counted bookings leaves are free. -/
theorem CountedWith.seatFree_of_peak {a : Activity} {b : Booking} {q : Booking → Bool}
    (hq : CountedWith db now a b q) (ha : db.activities.find? b.activityId = some a)
    (hwhole : ¬ rentsWholeUnit a = true)
    (hroom : ∀ n ∈ a.limit (if a.hasUnits then b.unitNumber else none),
      (b.guests : Int) ≤ n - maxConcurrentInWindow (db.bookings.select q) b.startDatetime
        b.endDatetime) :
    db.SeatFree now b := by
  intro t ht n hn
  have hle := @load_others_le now db b q a.weight t
    fun x hx hheld hid hr hcovers => by
      obtain ⟨hact, hunit, hweight⟩ := Db.same_resource ha hr
      exact ⟨hq x hx hheld hid hact hunit (overlaps_of_covers ht.1 ht.2 hcovers), hweight.le⟩
  rw [Activity.weight_guests hwhole] at hle
  rw [Db.seatLimit_claim ha] at hn
  have hpeak : (seats (db.bookings.select q) t : Int) ≤ maxConcurrentInWindow
      (db.bookings.select q) b.startDatetime b.endDatetime :=
    seats_le_maxConcurrentInWindow _ ht.1 ht.2
  have hguests : (db.seatClaim b).weight = b.guests := by
    rw [(Db.seatClaim_resource ha).2, Activity.weight_guests hwhole]
  have := hroom n hn
  change load (others (db.heldClaims now) b.id) _ t ≤ seats (db.bookings.select q) t at hle
  change load (others (db.heldClaims now) b.id) _ t + _ ≤ n
  rw [hguests]
  lia

/-- A booking without a unit takes no unit. -/
theorem seatFree_of_unplaced {a : Activity} {b : Booking}
    (ha : db.activities.find? b.activityId = some a) (hunits : a.hasUnits = true)
    (hnone : b.unitNumber = none) : db.SeatFree now b := by
  intro t _ n hn
  rw [Db.seatLimit_claim ha, if_pos hunits, hnone, Activity.limit, if_pos hunits] at hn
  split at hn <;> cases hn

/-- **A creation finds room** for the booking it admits. -/
theorem assignUnit_seatFree {a : Activity} {b : Booking}
    (ha : db.activities.find? b.activityId = some a)
    (hcap : (competing db now b.activityId b.startDatetime b.endDatetime).length ≤
      env.availabilityMaxDayBookings)
    (h : assignUnit a (windowBookings env db now b.activityId b.startDatetime b.endDatetime)
      b.startDatetime b.endDatetime b.guests = .ok b.unitNumber) :
    db.SeatFree now b := by
  rw [windowBookings_eq hcap] at h
  rcases assignUnit_ok h with ⟨hunits, _, unitNum, hunit, hfirst, _, hroom⟩ | ⟨hno, hunit, hroom⟩
  · have hinUnit : inUnit unitNum (competing db now b.activityId b.startDatetime b.endDatetime) =
        db.bookings.select (fun x => decide (x.unitNumber = some unitNum) &&
          decide (x.activityId = b.activityId ∧ activeBookingFilter now x ∧
            x.overlaps b.startDatetime b.endDatetime)) := List.filter_filter
    have hcounts : CountedWith db now a b (fun x => decide (x.unitNumber = some unitNum) &&
        decide (x.activityId = b.activityId ∧ activeBookingFilter now x ∧
          x.overlaps b.startDatetime b.endDatetime)) := by
      intro x _ hheld _ hact hsame hover
      simp [hact, (hsame hunits).trans hunit, active_of_holdsSeat hheld, hover]
    by_cases hwhole : rentsWholeUnit a = true
    · have hfree := List.mem_of_head? hfirst
      simp only [freeUnits, hwhole, if_true, List.mem_filter, List.isEmpty_iff] at hfree
      exact hcounts.seatFree_of_empty ha hwhole (hinUnit ▸ hfree.2)
    · refine hcounts.seatFree_of_peak ha hwhole fun n hn => ?_
      rw [if_pos hunits, hunit, Activity.limit, if_neg hwhole, if_pos hunits] at hn
      obtain rfl := Option.some.inj hn
      rw [← hinUnit]
      exact hroom
  · by_cases hunits : a.hasUnits = true
    · exact seatFree_of_unplaced ha hunits hunit
    · have hwhole : ¬ rentsWholeUnit a = true := fun hw =>
        hunits (hasUnits_of_rentsWholeUnit hw)
      have hcounts : CountedWith db now a b (fun x => decide (x.activityId = b.activityId ∧
          activeBookingFilter now x ∧ x.overlaps b.startDatetime b.endDatetime)) := by
        intro x _ hheld _ hact _ hover
        simp [hact, active_of_holdsSeat hheld, hover]
      refine hcounts.seatFree_of_peak ha hwhole fun n hn => ?_
      rw [if_neg hunits, Activity.limit, if_neg hwhole, if_neg hunits] at hn
      exact hroom n (by rw [if_neg hunits]; exact hn)

/-- **A recovery finds room**, when the booking has a unit or its activity no
units. -/
theorem recoverySlotAvailable_seatFree {a : Activity} {b : Booking} {excluded : Option Id}
    (ha : db.activities.find? b.activityId = some a)
    (hunit : a.hasUnits = true ∨ b.unitNumber = none)
    (hexcluded : ∀ k ∈ excluded, k = b.id)
    (h : recoverySlotAvailable db now ⟨b.activityId, b.unitNumber, b.startDatetime,
      b.endDatetime, b.guests, excluded⟩ = true) :
    db.SeatFree now b := by
  have hcounts : CountedWith db now a b (fun x => decide (x.activityId = b.activityId ∧
      (b.unitNumber = none ∨ x.unitNumber = b.unitNumber ∨ x.unitNumber = none) ∧
      activeBookingFilter now x ∧ x.overlaps b.startDatetime b.endDatetime ∧
      excluded ≠ some x.id)) := by
    intro x _ hheld hid hact hsame hover
    have hother : excluded ≠ some x.id := fun he => hid (hexcluded _ he)
    have hsame' : b.unitNumber = none ∨ x.unitNumber = b.unitNumber ∨ x.unitNumber = none :=
      hunit.elim (fun hu => .inr (.inl (hsame hu))) .inl
    simp [hact, hsame', active_of_holdsSeat hheld, hover, hother]
  simp only [recoverySlotAvailable, ha] at h
  by_cases hunits : a.hasUnits = true
  · cases hu : b.unitNumber with
    | none => exact seatFree_of_unplaced ha hunits hu
    | some unitNum =>
        rw [hu] at h hcounts
        by_cases hwhole : rentsWholeUnit a = true
        · simp only [hunits, hwhole, ne_eq, reduceCtorEq, not_false_eq_true, and_self,
            decide_true, if_true, List.isEmpty_iff] at h
          exact hcounts.seatFree_of_empty ha hwhole h
        · simp only [hunits, hwhole, ne_eq, reduceCtorEq, not_false_eq_true, and_self,
            decide_true, and_false, if_false, if_true, Bool.false_eq_true,
            decide_eq_true_eq] at h
          refine hcounts.seatFree_of_peak ha hwhole fun n hn => ?_
          rw [if_pos hunits, hu, Activity.limit, if_neg hwhole, if_pos hunits] at hn
          obtain rfl := Option.some.inj hn
          exact le_sub_iff_add_le'.mpr h
  · have hnone := hunit.resolve_left hunits
    have hwhole : ¬ rentsWholeUnit a = true := fun hw =>
      hunits (hasUnits_of_rentsWholeUnit hw)
    rw [hnone] at h hcounts
    refine hcounts.seatFree_of_peak ha hwhole fun n hn => ?_
    rw [if_neg hunits, Activity.limit, if_neg hwhole, if_neg hunits, Option.mem_def] at hn
    simp only [hunits, ne_eq, not_true_eq_false, and_false, false_and, decide_false,
      Bool.false_eq_true, if_false, hn, decide_eq_true_eq] at h
    exact le_sub_iff_add_le'.mpr h

/-! ## What a transaction does to the seats -/

/-- The columns a claim is made of. -/
def Booking.seat (b : Booking) : Id × Id × Option Nat × Instant × Instant × Nat :=
  (b.id, b.activityId, b.unitNumber, b.startDatetime, b.endDatetime, b.guests)

/-- Every seat held in the new table was held in the old one. -/
def KeepsSeats (now : Instant) (bs bs' : Table Booking) : Prop :=
  ∀ b' ∈ bs'.rows, b'.holdsSeat now = true →
    ∃ b ∈ bs.rows, b.holdsSeat now = true ∧ b.seat = b'.seat

theorem KeepsSeats.refl (now : Instant) (bs : Table Booking) : KeepsSeats now bs bs :=
  fun b hb hheld => ⟨b, hb, hheld, rfl⟩

/-- Deleting bookings takes no seat. -/
theorem KeepsSeats.deleteMany {bs : Table Booking} {p : Booking → Bool} :
    KeepsSeats now bs (bs.deleteMany p) :=
  fun b hb hheld => ⟨b, (Table.mem_deleteMany.mp hb).1, hheld, rfl⟩

/-- An update that leaves every row it touches with a seat it held, or with none. -/
theorem KeepsSeats.updateMany {bs : Table Booking} {p : Booking → Bool}
    {f : Booking → Booking} {hf : ∀ b, Keyed.key (f b) = Keyed.key b}
    (h : ∀ b ∈ bs.rows, p b = true → (f b).holdsSeat now = true →
      b.holdsSeat now = true ∧ (f b).seat = b.seat) :
    KeepsSeats now bs (bs.updateMany p f hf) := by
  intro b' hb' hheld
  obtain ⟨b, hb, rfl⟩ := Table.mem_updateMany.mp hb'
  by_cases hp : p b = true
  · rw [if_pos hp] at hheld ⊢
    obtain ⟨hold, hseat⟩ := h b hb hp hheld
    exact ⟨b, hb, hold, hseat.symm⟩
  · rw [if_neg hp] at hheld ⊢
    exact ⟨b, hb, hheld, rfl⟩

/-- A transaction keeps the activities, drops seats, and admits at most one
booking, whose seat is free. -/
structure Admits (now : Instant) (db db' : Db) : Prop where
  activities : db'.activities = db.activities
  seats : KeepsSeats now db.bookings db'.bookings ∨
    ∃ b, db.SeatFree now b ∧ ∀ b' ∈ db'.bookings.rows, b'.holdsSeat now = true →
      b'.seat = b.seat ∨ ∃ x ∈ db.bookings.rows, x.holdsSeat now = true ∧ x.seat = b'.seat

/-- A booking that keeps its seat keeps its claim. -/
theorem Db.seatClaim_congr (hact : db'.activities = db.activities) {b b' : Booking}
    (h : b'.seat = b.seat) : db'.seatClaim b' = db.seatClaim b := by
  simp only [Booking.seat, Prod.mk.injEq] at h
  obtain ⟨hid, hactivity, hunit, hstart, hstop, hguests⟩ := h
  simp [Db.seatClaim, Activity.resource, Activity.weight, hact, hid, hactivity, hunit, hstart,
    hstop, hguests]

/-- One booking has one claim. -/
theorem Db.heldClaims_nodup (db : Db) (now : Instant) :
    ((db.heldClaims now).map Occupant.key).Nodup := by
  rw [Db.heldClaims, List.map_map]
  exact db.bookings.nodup.sublist (List.filter_sublist.map _)

/-- **What drops seats and admits a booking with room keeps capacity.** -/
theorem Admits.within (h : Admits now db db') (hw : Within db.seatLimit (db.heldClaims now)) :
    Within db'.seatLimit (db'.heldClaims now) := by
  have hlimit : db'.seatLimit = db.seatLimit := by
    funext r
    simp [Db.seatLimit, h.activities]
  have hmem : ∀ {b' x : Booking}, x ∈ db.bookings.rows → x.holdsSeat now = true →
      x.seat = b'.seat → db'.seatClaim b' ∈ db.heldClaims now := by
    intro b' x hx hheld hseat
    refine List.mem_map.mpr ⟨x, Table.mem_select.mpr ⟨hx, hheld⟩, ?_⟩
    exact (Db.seatClaim_congr h.activities hseat.symm).symm
  rw [hlimit]
  rcases h.seats with hkeeps | ⟨b, hfree, hadmits⟩
  · refine hw.of_subset (db'.heldClaims_nodup now) fun c hc => ?_
    obtain ⟨b', hb', rfl⟩ := List.mem_map.mp hc
    obtain ⟨hrow, hheld⟩ := Table.mem_select.mp hb'
    obtain ⟨x, hx, hxheld, hseat⟩ := hkeeps b' hrow hheld
    exact hmem hx hxheld hseat
  · refine hw.admit (db'.heldClaims_nodup now) (fun c hc => ?_) hfree
    obtain ⟨b', hb', rfl⟩ := List.mem_map.mp hc
    obtain ⟨hrow, hheld⟩ := Table.mem_select.mp hb'
    rcases hadmits b' hrow hheld with hseat | ⟨x, hx, hxheld, hseat⟩
    · exact .inr (Db.seatClaim_congr h.activities hseat)
    · exact .inl (hmem hx hxheld hseat)

theorem Admits.refl (now : Instant) (db : Db) : Admits now db db :=
  ⟨rfl, .inl (.refl _ _)⟩

theorem Admits.of_bookings_eq (hact : db'.activities = db.activities)
    (h : db'.bookings = db.bookings) : Admits now db db' :=
  ⟨hact, .inl (h ▸ .refl _ _)⟩

/-- Deleting bookings admits nobody. -/
theorem Admits.of_deleteMany {p : Booking → Bool} (hact : db'.activities = db.activities)
    (h : db'.bookings = db.bookings.deleteMany p) : Admits now db db' :=
  ⟨hact, .inl (h ▸ .deleteMany)⟩

/-- An update of one booking: it held its seat before, or the seat is free, or
it holds none. -/
theorem Admits.of_update {k : Id} {f : Booking → Booking}
    {hf : ∀ b, Keyed.key (f b) = Keyed.key b} (hact : db'.activities = db.activities)
    (h : db'.bookings = db.bookings.update k f hf)
    (hseat : ∀ b, db.bookings.find? k = some b → (f b).holdsSeat now = true →
      (f b).seat = b.seat ∧ (b.holdsSeat now = true ∨ db.SeatFree now b)) :
    Admits now db db' := by
  refine ⟨hact, ?_⟩
  have hrow : ∀ b ∈ db.bookings.rows, Keyed.key b = k → db.bookings.find? k = some b := by
    rintro b hb rfl
    exact Table.find?_key hb
  by_cases hadmit : ∃ b, db.bookings.find? k = some b ∧ (f b).holdsSeat now = true ∧
      ¬ b.holdsSeat now = true
  · obtain ⟨b, hb, hheld, hnot⟩ := hadmit
    obtain ⟨hsame, hold⟩ := hseat b hb hheld
    refine .inr ⟨b, hold.resolve_left hnot, fun b' hb' hb'held => ?_⟩
    rw [h] at hb'
    obtain ⟨x, hx, rfl⟩ := Table.mem_update.mp hb'
    by_cases hk : Keyed.key x = k
    · obtain rfl := Option.some.inj ((hrow x hx hk).symm.trans hb)
      rw [if_pos hk]
      exact .inl hsame
    · rw [if_neg hk] at hb'held ⊢
      exact .inr ⟨x, hx, hb'held, rfl⟩
  · rw [h]
    refine .inl (.updateMany fun b hb hk hheld => ?_)
    have hfind := hrow b hb (of_decide_eq_true hk)
    refine ⟨?_, (hseat b hfind hheld).1⟩
    by_contra hnot
    exact hadmit ⟨b, hfind, hheld, hnot⟩

/-- An insert of a booking whose seat is free. -/
theorem Admits.of_insert {b : Booking} (hact : db'.activities = db.activities)
    (h : db'.bookings.rows = db.bookings.rows ++ [b]) (hfree : db.SeatFree now b) :
    Admits now db db' := by
  refine ⟨hact, .inr ⟨b, hfree, fun b' hb' hheld => ?_⟩⟩
  rw [h, List.mem_append, List.mem_singleton] at hb'
  rcases hb' with hb' | rfl
  · exact .inr ⟨b', hb', hheld, rfl⟩
  · exact .inl rfl

/-! ## The transactions -/

/-- **A creation admits within the capacity**, as its own check has counted. -/
theorem createBookingTx_admits {p : PreparedBooking} {ref : String} {b : Booking}
    (hread : db.activities.find? p.dto.activityId = some p.activity)
    (hcap : (competing db now p.dto.activityId p.startDatetime p.endDatetime).length ≤
      env.availabilityMaxDayBookings)
    (h : createBookingTx env now db p ref = .ok (db', b)) : Admits now db db' := by
  obtain ⟨unitNumber, q, created⟩ := createBookingTx_created h
  have hfree : db.SeatFree now (newBooking env now (db.nextId + 1) db.nextId ref p
      unitNumber q) :=
    assignUnit_seatFree hread hcap created.admitted
  exact .of_insert created.stored.activities created.stored.bookings (created.booking ▸ hfree)

/-- The seat of a paid booking, or of one that is held, is there to be had. -/
def Db.SeatKept (db : Db) (now : Instant) (b : Booking) : Prop :=
  b.holdsSeat now = true ∨ db.SeatFree now b

/-- A success admits a booking that kept its seat. -/
theorem settleSuccess_admits {payment : Payment} {params : CallbackParams} {s : Settled}
    (hkept : (∃ q, db.payments.find? payment.id = some q ∧
        (q.status = .pending ∨ q.status = .failed)) →
      ∀ k ∈ payment.bookingId, ∀ b ∈ db.bookings.find? k, b.status ≠ .cancelled →
        db.SeatKept now b)
    (h : settleSuccess now db payment params = .ok s) : Admits now db s.db := by
  unfold settleSuccess at h
  split at h
  · obtain rfl := Except.ok.inj h
    exact .refl _ _
  · rename_i q hq
    rw [Option.filter_eq_some_iff] at hq
    have hkept := hkept ⟨q, hq.1, of_decide_eq_true hq.2⟩
    simp only [bind_eq_ok, ensure_eq_ok, orThrow_eq_ok] at h
    obtain ⟨_, _, k, hk, h⟩ := h
    split at h
    · obtain rfl := Except.ok.inj h
      exact .of_bookings_eq rfl rfl
    · rename_i b hb
      split at h
      · obtain rfl := Except.ok.inj h
        exact .of_bookings_eq rfl rfl
      · rename_i hc
        obtain rfl := Except.ok.inj h
        refine @Admits.of_update now db _ k (fun b => { b with status := .confirmed })
          (fun _ => rfl) rfl rfl fun x hx _ => ⟨rfl, ?_⟩
        obtain rfl := Option.some.inj (hb.symm.trans hx)
        exact hkept k hk b hb hc

/-- A failure admits nobody. -/
theorem settleFailure_admits {payment : Payment} {s : Settled}
    (h : settleFailure now db payment = .ok s) : Admits now db s.db := by
  rcases settleFailure_ok h with ⟨hdb, -⟩ | hs
  · rw [hdb]
    exact .refl _ _
  · obtain ⟨_, _, _, ⟨_, e⟩ | ⟨_, _, _, _, e⟩⟩ := hs.effect
    · exact .of_bookings_eq e.activities e.bookings
    · exact .of_deleteMany e.activities e.bookings

/-- **A recovery admits within the capacity**, as it has looked for a seat. -/
theorem b2Recreate_admits {pid : Id} {bookingId : Option Id} {s : BookingSnapshot}
    {kind : RecoveryKind}
    (hunit : ∀ a ∈ db.activities.find? s.activityId, a.hasUnits = true ∨ s.unitNumber = none)
    (h : b2Recreate now db pid bookingId s = .ok (db', kind)) : Admits now db db' := by
  rcases b2Recreate_ok h with ⟨_, rfl⟩ | ⟨_, ⟨_, _, _, _, e⟩ | ⟨_, hrec, _⟩⟩
  · exact .refl _ _
  · exact .of_bookings_eq e.activities e.bookings
  · refine .of_insert hrec.activities (Table.insert?_eq_some.mp hrec.inserted).2 ?_
    cases ha : db.activities.find? s.activityId with
    | none =>
        have hfree := hrec.slotFree
        simp [recoverySlotAvailable, ha] at hfree
    | some a =>
        exact recoverySlotAvailable_seatFree ha (hunit a ha) (by simp) hrec.slotFree

/-- A check that leaves a row out does not see its update. -/
theorem select_update {bs : Table Booking} {p : Booking → Bool} {k : Id}
    {f : Booking → Booking} {hf : ∀ b, Keyed.key (f b) = Keyed.key b}
    (h : ∀ b, Keyed.key b = k → p b = false) : (bs.update k f hf).select p = bs.select p := by
  simp only [Table.select, Table.update, Table.updateMany]
  induction bs.rows with
  | nil => rfl
  | cons b l ih =>
      simp only [List.map_cons, List.filter_cons, ih]
      by_cases hk : Keyed.key b = k
      · simp [hk, h b hk, h (f b) ((hf b).trans hk)]
      · simp [hk]

/-- The check leaves the booking itself out. -/
theorem recoverySlotAvailable_update {args : RecoveryArgs} {k : Id} {f : Booking → Booking}
    {hf : ∀ b, Keyed.key (f b) = Keyed.key b} (h : args.excludeBookingId = some k) :
    recoverySlotAvailable { db with bookings := db.bookings.update k f hf } now args =
      recoverySlotAvailable db now args := by
  have hover : recoveryOverlapping { db with bookings := db.bookings.update k f hf } now args =
      recoveryOverlapping db now args := by
    refine @select_update db.bookings _ k f hf fun x hx => ?_
    have hid : args.excludeBookingId = some x.id := h.trans (congrArg some hx.symm)
    simp [hid]
  simp only [recoverySlotAvailable, hover]

/-- **An un-cancel admits within the capacity.** -/
theorem m6UnCancel_admits {b : Booking} {kind : RecoveryKind}
    (hread : ∀ x ∈ db.bookings.find? b.id, x.seat = b.seat)
    (hunit : ∀ a ∈ db.activities.find? b.activityId, a.hasUnits = true ∨ b.unitNumber = none)
    (h : m6UnCancel now db b = .ok (db', kind)) : Admits now db db' := by
  unfold m6UnCancel at h
  split at h
  · obtain ⟨rfl, _⟩ := Prod.mk.inj (Except.ok.inj h)
    exact .refl _ _
  · simp only [bind_eq_ok, ensure_eq_ok, pure_eq_ok] at h
    obtain ⟨_, ⟨hslot, _⟩, heq⟩ := h
    obtain ⟨rfl, _⟩ := Prod.mk.inj heq
    have hsame : recoverySlotAvailable db now ⟨b.activityId, b.unitNumber, b.startDatetime,
        b.endDatetime, b.guests, some b.id⟩ = true := by
      rw [← hslot]
      exact (recoverySlotAvailable_update rfl).symm
    have hfree : db.SeatFree now b := by
      cases ha : db.activities.find? b.activityId with
      | none => simp [recoverySlotAvailable, ha] at hsame
      | some a =>
          refine recoverySlotAvailable_seatFree ha (hunit a ha) (fun k hk => ?_) hsame
          exact (Option.some.inj hk).symm
    refine @Admits.of_update now db _ b.id Booking.unCancel (fun _ => rfl) rfl rfl
      fun x hx _ => ⟨rfl, .inr ?_⟩
    rw [Db.SeatFree, Db.seatClaim_congr rfl (hread x hx)]
    exact hfree

/-! ## The system -/

/-- The requests of the customer and the gateway, and the job. -/
def Request.Books : Request → Prop
  | .createBooking _ _ _ | .verifyBookingEmailOtp _ _ | .cancelBooking _ _ => True
  | request => request.Peer

/-- Their tasks. -/
def Task.Books : Task → Prop
  | .create _ _ | .stampOtp _ _ | .cancel _ => True
  | t => t.Peer

/-- What a creation in flight has read of its activity. -/
def Task.ReadActivity (db : Db) : Task → Prop
  | .create p _ => db.activities.find? p.dto.activityId = some p.activity
  | _ => True

/-- **The seat is still free.**  A creation sees every row it competes with.  A
booking that is extended or confirmed holds its seat, or finds it free.  A
booking that is re-inserted or un-cancelled names a unit only when its activity
has units, and is the one that was read. -/
def Task.FindsSeat (env : Env) (now : Instant) (db : Db) : Task → Prop
  | .create p _ => (competing db now p.dto.activityId p.startDatetime p.endDatetime).length ≤
      env.availabilityMaxDayBookings
  | .hold bookingId => ∀ k ∈ bookingId, ∀ b ∈ db.bookings.find? k, b.status = .pending →
      b.reservedUntil ≠ none → db.SeatKept now b
  | .settle payment _ isSuccess => isSuccess = true →
      (∃ q, db.payments.find? payment.id = some q ∧
        (q.status = .pending ∨ q.status = .failed)) →
      ∀ k ∈ payment.bookingId, ∀ b ∈ db.bookings.find? k, b.status ≠ .cancelled →
        db.SeatKept now b
  | .recreate _ _ _ s => ∀ a ∈ db.activities.find? s.activityId,
      a.hasUnits = true ∨ s.unitNumber = none
  | .unCancel _ b => (∀ x ∈ db.bookings.find? b.id, x.seat = b.seat) ∧
      ∀ a ∈ db.activities.find? b.activityId, a.hasUnits = true ∨ b.unitNumber = none
  | _ => True

/-- The steps the bound is about: requests of the customer, the gateway and the
job, whose transactions find their seat. -/
def Sys.FindsSeats (env : Env) (s : Sys) : Action → Prop
  | .begin request => request.Books
  | .run index => ∀ t, s.inflight[index]? = some t → t.FindsSeat env s.now s.db
  | .tick _ => True

/-- The row of a booking whose captured success waits, extended or not. -/
def Booking.heldOn (now : Instant) (b : Booking) : Booking :=
  if b.status = .pending ∧ ∃ reservedUntil ∈ b.reservedUntil, reservedUntil < now + 30 * minute
  then b.holdUntil (now + 30 * minute) else b

theorem Booking.heldOn_key (now : Instant) (b : Booking) :
    Keyed.key (b.heldOn now) = Keyed.key b := by
  unfold Booking.heldOn
  split <;> rfl

theorem holdNapsSuccess_none : (holdNapsSuccess now db none).bookings = db.bookings := by
  refine Table.ext ((List.map_congr_left fun b _ => ?_).trans (List.map_id _))
  simp

/-- A held success updates one row. -/
theorem holdNapsSuccess_some (k : Id) : (holdNapsSuccess now db (some k)).bookings =
    db.bookings.update k (Booking.heldOn now) (Booking.heldOn_key now) := by
  refine Table.ext (List.map_congr_left fun b _ => ?_)
  by_cases hk : b.id = k
  · simp [Booking.heldOn, Keyed.key, hk]
  · simp [Keyed.key, hk, Ne.symm hk]

/-- A held success admits a booking that kept its seat. -/
theorem holdNapsSuccess_admits {bookingId : Option Id}
    (hkept : ∀ k ∈ bookingId, ∀ b ∈ db.bookings.find? k, b.status = .pending →
      b.reservedUntil ≠ none → db.SeatKept now b) :
    Admits now db (holdNapsSuccess now db bookingId) := by
  cases bookingId with
  | none => exact .of_bookings_eq rfl holdNapsSuccess_none
  | some k =>
      refine .of_update rfl (holdNapsSuccess_some k) fun b hb hheld => ?_
      unfold Booking.heldOn at hheld ⊢
      split at hheld
      · rename_i hc
        rw [if_pos hc]
        obtain ⟨hs, r, hr, _⟩ := hc
        refine ⟨rfl, hkept k rfl b hb hs ?_⟩
        rw [Option.mem_def.mp hr]
        simp
      · rename_i hc
        rw [if_neg hc]
        exact ⟨rfl, .inl hheld⟩

/-- A cancelled row holds no seat. -/
theorem SoftCancelled.admits {r : CancelRead} {pid : Id} {expected status : PaymentStatus}
    {source : LoyaltyLedgerSource} (h : SoftCancelled db db' r pid expected status source) :
    Admits now db db' := by
  obtain ⟨fb, hb, fp, hp, e, hfile, _⟩ := h.effect
  refine .of_update e.activities e.bookings fun b _ hheld => ?_
  have hstatus : (fb b).status = .cancelled := congrArg BookingFile.status (hfile b)
  simp [Booking.holdsSeat, hstatus] at hheld

/-- A cancellation admits nobody. -/
theorem cancelCommit_admits {r : CancelRead} (h : cancelCommit now db r = .ok db') :
    Admits now db db' := by
  unfold cancelCommit at h
  split at h
  · exact (cancelPointsOnly_ok h).admits
  · exact (cancelPaid_ok h).admits
  · exact (cancelInFlight_ok h).admits
  · obtain ⟨_, e⟩ := cancelHardDelete_ok h
    exact .of_deleteMany e.activities e.bookings

theorem otpStamp_admits {bookingId : Id} {user : Option Id}
    (h : otpStamp now db bookingId user = .ok db') : Admits now db db' := by
  simp only [otpStamp, bind_eq_ok, pure_eq_ok] at h
  obtain ⟨db₁, hupd, rfl⟩ := h
  obtain ⟨_, e, _⟩ := updateBooking_ok hupd
  exact .of_update e.activities e.bookings fun b _ hheld => ⟨rfl, .inl hheld⟩

theorem initiateWrite_admits {r : InitiateRead} {basketId : String}
    (h : initiateWrite now db r basketId = .ok db') : Admits now db db' := by
  simp only [initiateWrite, bind_eq_ok, orThrow_eq_ok, ensure_eq_ok, pure_eq_ok] at h
  obtain ⟨_, _, _, _, _, _, rfl⟩ := h
  exact .of_bookings_eq rfl rfl

theorem reapStale_activities {stale : List Booking}
    (h : reapStale now db stale = .ok db') : db'.activities = db.activities := by
  simp only [reapStale, bind_eq_ok, pure_eq_ok] at h
  obtain ⟨db₁, h₁, rfl⟩ := h
  change db₁.activities = db.activities
  refine forEach_invariant (fun x : Db => x.activities = db.activities) (fun b _ x x' hx hb => ?_)
    h₁ rfl
  rcases reapOne_ok hb with ⟨_, rfl⟩ | ⟨_, e⟩
  · exact hx
  · exact e.activities.trans hx

/-- **A transaction that finds its seat drops seats or admits one booking with
room.** -/
theorem Task.run_admits {t : Task} (ht : t.Books) (hread : t.ReadActivity db)
    (hseat : t.FindsSeat env now db) : Admits now db (t.run env now db).1 := by
  have hcommitted : ∀ tx : Tx Db, (∀ db', tx = .ok db' → Admits now db db') →
      Admits now db (committed db tx) := by
    intro tx h
    cases tx with
    | error e => exact .refl _ _
    | ok db' => exact h db' rfl
  cases t with
  | create p ref =>
      simp only [Task.run]
      split
      · exact .refl _ _
      · rename_i htx
        exact createBookingTx_admits hread hseat htx
  | stampOtp bookingId user => exact hcommitted _ fun _ h => otpStamp_admits h
  | initiate r basketId => exact hcommitted _ fun _ h => initiateWrite_admits h
  | hold bookingId => exact holdNapsSuccess_admits hseat
  | settle payment params isSuccess =>
      simp only [Task.run]
      split
      · exact .refl _ _
      · rename_i htx
        cases isSuccess with
        | true => exact settleSuccess_admits (hseat rfl) htx
        | false => exact settleFailure_admits htx
  | b2Check p | m6Check p k =>
      simp only [Task.run]
      split <;> exact .refl _ _
  | recreate p amount bookingId s =>
      simp only [Task.run]
      split
      · exact .refl _ _
      · rename_i htx
        exact b2Recreate_admits hseat htx
      · rename_i htx
        exact b2Recreate_admits hseat htx
  | unCancel p b =>
      simp only [Task.run]
      split
      · exact .refl _ _
      · rename_i htx
        exact m6UnCancel_admits hseat.1 hseat.2 htx
  | queueRefund p amount => exact .of_bookings_eq rfl rfl
  | cancel r => exact hcommitted _ fun _ h => cancelCommit_admits h
  | reap stale =>
      obtain ⟨claimed, hr, -⟩ := @reapStale_reaps db now stale
      refine .of_deleteMany ?_ hr.deleted
      change (committed db (reapStale now db stale)).activities = db.activities
      cases h : reapStale now db stale with
      | error e => rfl
      | ok db' => exact reapStale_activities h
  | _ => cases ht

/-- A creation goes on with the activity it has read. -/
theorem prepareBooking_activity {userId : Id} {dto : CreateBookingDto} {p : PreparedBooking}
    (h : prepareBooking env now db userId dto = .ok (some p)) :
    db.activities.find? p.dto.activityId = some p.activity := by
  unfold prepareBooking at h
  split at h
  · cases Except.ok.inj h
  · simp only [bind_eq_ok, orThrow_eq_ok, pure_eq_ok] at h
    obtain ⟨_, _, _, _, activity, ha, _, _, _, _, _, _, _, _, _, _, _, _, _, _, _, _, window,
      _, _, _, _, _, h⟩ := h
    obtain rfl := Option.some.inj h
    exact ha

/-- A request that books puts in flight what books, with the activity it has read. -/
theorem Request.Books.read {request : Request} (hb : request.Books) {t : Task}
    (h : request.read env now db = .ok (some t)) : t.Books ∧ t.ReadActivity db := by
  have hpeer : request.Peer → t.Books ∧ t.ReadActivity db := by
    intro hp
    have := (hp.read h).1
    cases t with
    | create p ref => cases this
    | _ => first | exact ⟨this, trivial⟩ | cases this
  cases request with
  | createBooking userId dto ref =>
      simp only [Request.read, bind_eq_ok, pure_eq_ok] at h
      obtain ⟨p, hp, h⟩ := h
      obtain ⟨p', rfl, rfl⟩ := Option.map_eq_some_iff.mp h
      exact ⟨trivial, prepareBooking_activity hp⟩
  | verifyBookingEmailOtp userId bookingId =>
      simp only [Request.read, bind_eq_ok, pure_eq_ok] at h
      obtain ⟨_, _, h⟩ := h
      obtain rfl := Option.some.inj h
      exact ⟨trivial, trivial⟩
  | cancelBooking userId bookingId =>
      simp only [Request.read, bind_eq_ok, pure_eq_ok] at h
      obtain ⟨_, _, h⟩ := h
      obtain rfl := Option.some.inj h
      exact ⟨trivial, trivial⟩
  | handleCallback _ | initiatePayment _ _ _ _ | autoCancelStalePendingBookings =>
      exact hpeer trivial
  | _ => cases hb

theorem Task.Books.next {t t' : Task} (ht : t.Books) (h : (t.run env now db).2 = some t') :
    t'.Books ∧ ∀ db' : Db, t'.ReadActivity db' := by
  have hpeer : t.Peer → t'.Books ∧ ∀ db' : Db, t'.ReadActivity db' := by
    intro hp
    have := (hp.next h).1
    cases t' with
    | create p ref => cases this
    | _ => first | exact ⟨this, fun _ => trivial⟩ | cases this
  cases t with
  | create p ref =>
      simp only [Task.run] at h
      split at h
      · cases h
      · dsimp only at h
        split at h
        · obtain rfl := Option.some.inj h
          exact ⟨trivial, fun _ => trivial⟩
        · cases h
  | stampOtp _ _ | cancel _ => cases h
  | initiate _ _ | hold _ | settle _ _ _ | b2Check _ | recreate _ _ _ _ | m6Check _ _
  | unCancel _ _ | queueRefund _ _ | reap _ => exact hpeer trivial
  | _ => cases ht

/-- Capacity is respected, and the creations in flight have read the activity as
it is. -/
structure Seated (s : Sys) : Prop where
  books : ∀ t ∈ s.inflight, t.Books ∧ t.ReadActivity s.db
  within : Within s.db.seatLimit (s.db.heldClaims s.now)

/-- Time only frees seats. -/
theorem holdsSeat_of_le {now' : Instant} (hle : now ≤ now') {b : Booking}
    (h : b.holdsSeat now' = true) : b.holdsSeat now = true := by
  unfold Booking.holdsSeat at h ⊢
  cases hs : b.status with
  | pending =>
      simp only [hs] at h ⊢
      obtain ⟨r, hr, hlt⟩ := of_decide_eq_true h
      exact decide_eq_true ⟨r, hr, hle.trans_lt hlt⟩
  | cancelled => simp [hs] at h
  | confirmed | completed => rfl

/-- **Every step keeps the load within the limits**, under its condition. -/
theorem Seated.step {s s' : Sys} {a : Action} (h : Seated s) (ok : s.FindsSeats env a)
    (hstep : s.step env a = some s') : Seated s' := by
  rcases Sys.step_cases hstep with
    ⟨elapsed, rfl, rfl⟩ | ⟨request, t, rfl, hread, rfl⟩ | ⟨index, t, rfl, ht, rfl⟩
  · refine ⟨h.books, h.within.of_subset (s.db.heldClaims_nodup _) fun c hc => ?_⟩
    obtain ⟨b, hb, rfl⟩ := List.mem_map.mp hc
    obtain ⟨hrow, hheld⟩ := Table.mem_select.mp hb
    exact List.mem_map.mpr
      ⟨b, Table.mem_select.mpr ⟨hrow, holdsSeat_of_le (by simp) hheld⟩, rfl⟩
  · refine ⟨fun t' ht' => ?_, h.within⟩
    rcases List.mem_append.mp ht' with ht' | ht'
    · exact h.books t' ht'
    · obtain rfl := List.mem_singleton.mp ht'
      exact Request.Books.read ok hread
  · obtain ⟨hbooks, hactivity⟩ := h.books t (List.mem_of_getElem? ht)
    have admits : Admits s.now s.db (t.run env s.now s.db).1 :=
      t.run_admits hbooks hactivity (ok t ht)
    have hkept : ∀ u : Task, u.ReadActivity s.db →
        u.ReadActivity (t.run env s.now s.db).1 := by
      intro u hu
      cases u with
      | create p ref =>
          simp only [Task.ReadActivity, admits.activities]
          exact hu
      | _ => trivial
    refine ⟨fun t' ht' => ?_, admits.within h.within⟩
    rcases Sys.mem_ran ht' with ht' | ht'
    · obtain ⟨hb, hr⟩ := h.books t' (List.mem_of_mem_eraseIdx ht')
      exact ⟨hb, hkept t' hr⟩
    · obtain ⟨hb, hr⟩ := hbooks.next ht'
      exact ⟨hb, hr _⟩

/-- **Capacity is respected over whole runs** of creations, callbacks with their
recoveries, held successes, cancels and the stale-pending job, from any state
that respects it with nothing in flight, when every transaction of the run finds
its seat. -/
theorem capacity_respected {env : Env} {s₀ s : Sys} (hidle : s₀.inflight = [])
    (h : ∀ a ∈ s₀.db.activities.rows, RespectsCapacity s₀.now s₀.db a)
    (run : Run (Sys.step env) (Sys.FindsSeats env) s₀ s) :
    ∀ a ∈ s.db.activities.rows, RespectsCapacity s.now s.db a := by
  have hseated : Seated s := by
    refine run.invariant Seated (fun _ _ _ h ok hstep => h.step ok hstep)
      ⟨by simp [hidle], respectsCapacity_iff.mp h⟩
  exact respectsCapacity_iff.mpr hseated.within

/-! ## A run, and one that oversells -/

instance : (request : Request) → Decidable request.Books
  | .createBooking _ _ _ | .verifyBookingEmailOtp _ _ | .cancelBooking _ _
  | .handleCallback _ | .initiatePayment _ _ _ _ | .autoCancelStalePendingBookings =>
      isTrue trivial
  | .recordRefundDecision _ _ _ _ _ _ | .vendorUpdateBookingStatus _ _ _
  | .adminUpdateBookingStatus _ _ _ | .autoCompletePastBookings => isFalse id

/-- The steps of the customer, the gateway and the job that see every row. -/
def Sys.Books (env : Env) (s : Sys) : Action → Prop
  | .begin request => request.Books
  | .run index => ∀ t ∈ s.inflight[index]?, match t with
      | .create p _ => (competing s.db s.now p.dto.activityId p.startDatetime
          p.endDatetime).length ≤ env.availabilityMaxDayBookings
      | _ => True
  | .tick _ => True

/-- The same, with no recovery, and with no lapsed booking confirmed or held. -/
def Sys.HoldsSeats (env : Env) (s : Sys) (a : Action) : Prop :=
  s.Books env a ∧ ∀ t ∈ s.task? a, match t with
    | .hold bookingId => ∀ k ∈ bookingId, ∀ b ∈ s.db.bookings.find? k, b.holdsSeat s.now = true
    | .settle payment _ _ => ∀ k ∈ payment.bookingId, ∀ b ∈ s.db.bookings.find? k,
        b.holdsSeat s.now = true
    | .recreate _ _ _ _ | .unCancel _ _ => False
    | _ => True

instance (env : Env) (s : Sys) : (a : Action) → Decidable (s.Books env a)
  | .begin request => inferInstanceAs (Decidable request.Books)
  | .run _ => @Option.decidableForallMem _ _ (fun t => by cases t <;> infer_instance) _
  | .tick _ => isTrue trivial

instance (env : Env) (s : Sys) (a : Action) : Decidable (s.HoldsSeats env a) :=
  @instDecidableAnd _ _ _
    (@Option.decidableForallMem _ _ (fun t => by cases t <;> infer_instance) _)

/-- A step that holds its seats finds them. -/
theorem Sys.HoldsSeats.findsSeats {s : Sys} {a : Action} (h : s.HoldsSeats env a) :
    s.FindsSeats env a := by
  cases a with
  | tick elapsed => trivial
  | begin request => exact h.1
  | run index =>
      intro t ht
      have hbooks := h.1 t ht
      have hheld := h.2 t ht
      cases t with
      | create p ref => exact hbooks
      | hold bookingId => exact fun k hk b hb _ _ => .inl (hheld k hk b hb)
      | settle payment params isSuccess => exact fun _ _ k hk b hb _ => .inl (hheld k hk b hb)
      | recreate _ _ _ _ => exact hheld.elim
      | unCancel _ _ => exact hheld.elim
      | _ => trivial

theorem market_respects : ∀ a ∈ market.db.activities.rows,
    RespectsCapacity market.now market.db a := by
  intro a ha t
  obtain rfl := List.mem_singleton.mp ha
  intro capacity _
  exact Nat.zero_le _

/-- A seat is created, paid, and another customer is refused it. -/
theorem capacity_respected_paid :
    ∃ s, Run (Sys.step marketEnv) (Sys.FindsSeats marketEnv) market s ∧
      (∃ b ∈ s.db.bookings.rows, b.status = .confirmed) ∧
      ∀ a ∈ s.db.activities.rows, RespectsCapacity s.now s.db a := by
  obtain ⟨s, run, htest⟩ := @Run.of_execAll_test _ _ (Sys.step marketEnv)
    (Sys.HoldsSeats marketEnv) _
    (capturedRun ++ [.begin (.createBooking 2 (marketRequest none) "R2"), .run 0]) market
    (fun s => ∃ b ∈ s.db.bookings.rows, b.status = .confirmed) (by decide +kernel)
  have run' := run.mono fun _ _ h => Sys.HoldsSeats.findsSeats h
  exact ⟨s, run', of_decide_eq_true htest, capacity_respected rfl market_respects run'⟩

/-- A reservation lapses, its seat is sold again, and its payment is captured
late. -/
def resoldRun : List Action :=
  [.begin (.createBooking 1 (marketRequest none) "R1"), .run 0, .run 0,
    .begin (.initiatePayment 101 1 none "B1"), .run 0, .tick 3600000,
    .begin (.createBooking 2 (marketRequest none) "R2"), .run 0, .run 0,
    .begin (.handleCallback (marketIpn "B1")), .run 0]

/-- A hold lapses, its seat is sold again, and its payment arrives. -/
theorem resold_seat_confirmed : market.inflight = [] ∧
    (∀ a ∈ market.db.activities.rows, RespectsCapacity market.now market.db a) ∧
    ∃ s, Run (Sys.step marketEnv) (Sys.Books marketEnv) market s ∧
      ∃ a ∈ s.db.activities.rows, ¬ RespectsCapacity s.now s.db a := by
  refine ⟨rfl, market_respects, ?_⟩
  obtain ⟨s, run, htest⟩ := @Run.of_execAll_test _ _ (Sys.step marketEnv)
    (Sys.Books marketEnv) _ resoldRun market (fun s => ∃ a ∈ s.db.activities.rows,
      rentsWholeUnit a = false ∧ a.hasUnits = false ∧ a.capacity = some 1 ∧
      ∃ b ∈ s.db.bookings.rows,
        1 < ((presentAt s.now s.db a.id b.startDatetime).map Booking.guests).sum)
    (by decide +kernel)
  obtain ⟨a, ha, hwhole, hunits, hcapacity, b, _, hover⟩ := of_decide_eq_true htest
  refine ⟨s, run, a, ha, fun h => ?_⟩
  have hle := h b.startDatetime
  rw [if_neg (by simp [hwhole]), if_neg (by simp [hunits])] at hle
  exact absurd (hle 1 hcapacity) (not_le.mpr hover)

end Jadwal
