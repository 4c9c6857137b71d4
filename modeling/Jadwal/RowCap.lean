import Jadwal.RecoveryRule

/-!
# The row cap of the admission query

The query the transaction decides from is cut off after
`AVAILABILITY_MAX_DAY_BOOKINGS` rows, in an order the database chooses, and what comes
back is taken for all there is.  Rows that are cut off do not count: a request that the
rows returned leave room for is accepted, whatever the others hold.

Only the rows returned can refuse a request, so the cut-off is harmless when that many
rows must leave no room: `neverOversells_iff` says for which activities, windows and
parties that is so.
-/

namespace Jadwal

open Outcome

variable {env : Env} {a : Activity} {s e : Instant} {guests : Nat}

/-- The guests a unit, or an activity without units, may hold; `none` is unlimited. -/
def capacityLimit (a : Activity) (unitNumber : Option Nat) : Option Nat :=
  match unitNumber with
  | some _ => some a.unitCapacity
  | none => if a.hasUnits then some 0 else a.capacity

/-- Whatever is booked and in whatever order the rows are stored: a request the checks
accept leaves the guests present within the capacity at every instant, in the unit it gets
or in the activity. -/
def NeverOversells (env : Env) (a : Activity) (s e : Instant) (guests : Nat) : Prop :=
  ∀ (db : Db) (now : Instant) (unitNumber : Option Nat), (∀ b ∈ db.bookings.rows, b.Proper) →
    assignUnit a (windowBookings env db now a.id s e) s e guests = .ok unitNumber →
    ∀ limit ∈ capacityLimit a unitNumber,
      Vacant (finalBookings unitNumber (competing db now a.id s e)) limit s e guests

/-- What the checks accept fits beside the bookings they saw. -/
theorem assignUnit_vacant {bookings : List Booking} {unitNumber : Option Nat} (hse : s < e)
    (h : assignUnit a bookings s e guests = .ok unitNumber) :
    ∀ limit ∈ capacityLimit a unitNumber,
      Vacant (finalBookings unitNumber bookings) limit s e guests := by
  intro limit hlimit
  rcases assignUnit_ok h with ⟨_, _, unitNum, rfl, _, _, hroom⟩ | ⟨_, rfl, hroom⟩
  · obtain rfl := Option.some.inj hlimit
    exact (le_sub_peak_iff hse _).mp hroom
  · exact (le_sub_peak_iff hse _).mp (hroom limit hlimit)

/-- **As long as the query is not cut off no request oversells.** -/
theorem not_oversold_of_uncut {db : Db} {now : Instant} {unitNumber : Option Nat} (hse : s < e)
    (hcap : (competing db now a.id s e).length ≤ env.availabilityMaxDayBookings)
    (h : assignUnit a (windowBookings env db now a.id s e) s e guests = .ok unitNumber) :
    ∀ limit ∈ capacityLimit a unitNumber,
      Vacant (finalBookings unitNumber (competing db now a.id s e)) limit s e guests := by
  rw [windowBookings_eq hcap] at h
  exact assignUnit_vacant hse h

/-! ## Rows fill time -/

/-- Every booking seats somebody at some instant of a window it meets. -/
theorem length_le_sum_seats {bookings : List Booking} (hse : s < e)
    (hproper : ∀ b ∈ bookings, b.Proper) (hmeets : ∀ b ∈ bookings, b.overlaps s e = true) :
    bookings.length ≤ ∑ t ∈ Finset.Ico s e, seats bookings t := by
  induction bookings with
  | nil => simp
  | cons b bookings ih =>
      have hrest := ih (fun x hx => hproper x (by simp [hx])) (fun x hx => hmeets x (by simp [hx]))
      have hb := hproper b (by simp)
      have hover := hmeets b (by simp)
      simp only [Booking.overlaps, decide_eq_true_eq] at hover
      have hcov : b.covers (max b.startDatetime s) = true :=
        decide_eq_true ⟨le_max_left _ _, max_lt hb.interval hover.2⟩
      have hmem : max b.startDatetime s ∈ Finset.Ico s e :=
        Finset.mem_Ico.mpr ⟨le_max_right _ _, max_lt hover.1 hse⟩
      have hone : 1 ≤ ∑ t ∈ Finset.Ico s e, (if b.covers t = true then b.guests else 0) := by
        refine le_trans ?_ (Finset.single_le_sum
          (f := fun t => if b.covers t = true then b.guests else 0) (fun _ _ => Nat.zero_le _) hmem)
        simpa [hcov] using Nat.one_le_iff_ne_zero.mpr hb.guests.ne'
      simp only [seats_cons, Finset.sum_add_distrib, List.length_cons]
      omega

/-- So many rows that leave room need that much time. -/
theorem Vacant.length_le {bookings : List Booking} {capacity : Nat} (hse : s < e)
    (hproper : ∀ b ∈ bookings, b.Proper) (hmeets : ∀ b ∈ bookings, b.overlaps s e = true)
    (h : Vacant bookings capacity s e guests) :
    bookings.length ≤ (capacity - guests) * (e - s).toNat := by
  refine (length_le_sum_seats hse hproper hmeets).trans ?_
  have hle : ∀ t ∈ Finset.Ico s e, seats bookings t ≤ capacity - guests := by
    intro t ht
    obtain ⟨hs, he⟩ := Finset.mem_Ico.mp ht
    have hroom := h t hs he
    omega
  refine (Finset.sum_le_card_nsmul _ _ _ hle).trans_eq ?_
  simp [Int.card_Ico, mul_comm]

/-! ## Rows that hide others -/

/-- A confirmed booking of the activity. -/
def confirmedBooking (activityId id : Id) (startDatetime endDatetime : Instant)
    (guests : Nat) (unitNumber : Option Nat) : Booking where
  id := id
  ref := ""
  activityId := activityId
  vendorId := 0
  customerId := 0
  unitNumber := unitNumber
  startDatetime := startDatetime
  endDatetime := endDatetime
  guests := guests
  status := .confirmed
  createdAt := 0

/-- One guest for a millisecond; `perInstant` of them share one. -/
def filler (activityId : Id) (s : Instant) (perInstant : Nat) (unitNumber : Option Nat)
    (i : Nat) : Booking :=
  confirmedBooking activityId i (s + (i / perInstant : Nat)) (s + (i / perInstant : Nat) + 1) 1
    unitNumber

/-- The fillers of the first `count` ids, and then one booking of the whole window. -/
def crowdedDb (activityId : Id) (s e : Instant) (perInstant : Nat) (fillerUnit : Option Nat)
    (count hidden : Nat) (unitNumber : Option Nat) : Db where
  bookings := {
    rows := (List.range count).map (filler activityId s perInstant fillerUnit) ++
      [confirmedBooking activityId count s e hidden unitNumber]
    nodup := by
      have hids : ((List.range count).map (filler activityId s perInstant fillerUnit) ++
          [confirmedBooking activityId count s e hidden unitNumber]).map Keyed.key =
            List.range (count + 1) := by
        rw [List.range_succ, List.map_append, List.map_map]
        exact congrArg (· ++ [count]) (List.map_id _)
      rw [hids]
      exact List.nodup_range }

variable {activityId : Id} {perInstant count hidden : Nat} {fillerUnit unitNumber : Option Nat}

/-- The crowd lies in the window when it has that much time. -/
theorem filler_in_window {i : Nat} (hi : i < perInstant * (e - s).toNat) :
    (filler activityId s perInstant fillerUnit i).overlaps s e = true := by
  have hper : 0 < perInstant := Nat.pos_of_ne_zero fun h => by simp [h] at hi
  have hdiv : i / perInstant < (e - s).toNat := (Nat.div_lt_iff_lt_mul hper).mpr (by
    rwa [mul_comm])
  simp only [filler, confirmedBooking, Booking.overlaps]
  lia

theorem competing_crowdedDb (now : Instant) (hse : s < e)
    (hcount : count ≤ perInstant * (e - s).toNat) :
    competing (crowdedDb activityId s e perInstant fillerUnit count hidden unitNumber) now
      activityId s e =
        (List.range count).map (filler activityId s perInstant fillerUnit) ++
          [confirmedBooking activityId count s e hidden unitNumber] := by
  refine List.filter_eq_self.mpr fun b hb => decide_eq_true ?_
  rcases List.mem_append.mp hb with hb | hb
  · obtain ⟨i, hi, rfl⟩ := List.mem_map.mp hb
    exact ⟨rfl, rfl, filler_in_window ((List.mem_range.mp hi).trans_le hcount)⟩
  · obtain rfl := List.mem_singleton.mp hb
    exact ⟨rfl, rfl, decide_eq_true ⟨hse, hse⟩⟩

theorem crowdedDb_proper (hse : s < e) (hhidden : 0 < hidden) :
    ∀ b ∈ (crowdedDb activityId s e perInstant fillerUnit count hidden
      unitNumber).bookings.rows, b.Proper := by
  intro b hb
  rcases List.mem_append.mp hb with hb | hb
  · obtain ⟨i, _, rfl⟩ := List.mem_map.mp hb
    exact ⟨by simp [filler, confirmedBooking], Nat.one_pos⟩
  · obtain rfl := List.mem_singleton.mp hb
    exact ⟨hse, hhidden⟩

/-- Guests who come one by one are counted by their bookings. -/
theorem seats_single {bookings : List Booking} (h : ∀ b ∈ bookings, b.guests = 1)
    (t : Instant) : seats bookings t = bookings.countP (fun b => b.covers t) := by
  induction bookings with
  | nil => rfl
  | cons b bookings ih =>
      rw [seats_cons, ih (fun x hx => h x (by simp [hx])), List.countP_cons, h b (by simp),
        add_comm]

/-- No instant has more than `perInstant` of the fillers. -/
theorem seats_fillers_le (activityId : Id) (s : Instant) (fillerUnit : Option Nat) (count : Nat)
    (hper : 0 < perInstant) (t : Instant) :
    seats ((List.range count).map (filler activityId s perInstant fillerUnit)) t ≤
      perInstant := by
  have hone : ∀ b ∈ (List.range count).map (filler activityId s perInstant fillerUnit),
      b.guests = 1 := by
    intro b hb
    obtain ⟨i, _, rfl⟩ := List.mem_map.mp hb
    rfl
  rw [seats_single hone, List.countP_map, List.countP_eq_length_filter]
  have hsub : (List.range count).filter ((fun b : Booking => b.covers t) ∘
      filler activityId s perInstant fillerUnit) ⊆
        List.range' ((t - s).toNat * perInstant) perInstant := by
    intro i hi
    have hcov := (List.mem_filter.mp hi).2
    simp only [Function.comp_apply, filler, confirmedBooking, Booking.covers] at hcov
    have hdiv : i / perInstant = (t - s).toNat := by lia
    rw [List.mem_range'_1, ← hdiv]
    have hmod := Nat.div_add_mod' i perInstant
    have hlt := Nat.mod_lt i hper
    omega
  have hle := (List.subperm_of_subset (List.nodup_range.filter _) hsub).length_le
  rwa [List.length_range'] at hle

/-! ## When the cut-off is harmless -/

/-- So many rows that nothing is hidden from the checks that matters: with units the party is
too large for one, without units it is too large for the activity, or that many rows fill
every seat it would leave. -/
def CapSuffices (env : Env) (a : Activity) (s e : Instant) (guests : Nat) : Prop :=
  if a.hasUnits then a.unitCount = 0 ∨ a.unitCapacity < guests
  else ∀ capacity ∈ a.capacity, capacity < guests ∨
    (capacity - guests) * (e - s).toNat < env.availabilityMaxDayBookings

theorem finalBookings_append (bs bs' : List Booking) :
    finalBookings unitNumber (bs ++ bs') =
      finalBookings unitNumber bs ++ finalBookings unitNumber bs' := by
  cases unitNumber with
  | none => rfl
  | some unitNum => exact List.filter_append ..

theorem finalBookings_confirmed {id : Id} :
    finalBookings unitNumber [confirmedBooking activityId id s e guests unitNumber] =
      [confirmedBooking activityId id s e guests unitNumber] := by
  cases unitNumber <;> simp [finalBookings, inUnit, confirmedBooking]

/-- When the checks accept a party beside the fillers, they do so beside a booking that is
cut off and leaves no room. -/
theorem oversells_of_accepts (perInstant : Nat) (fillerUnit : Option Nat) (hse : s < e)
    {limit : Nat}
    (hlimit : ∀ unitNumber, assignUnit a ((List.range env.availabilityMaxDayBookings).map
      (filler a.id s perInstant fillerUnit)) s e guests = .ok unitNumber →
        limit ∈ capacityLimit a unitNumber)
    (hpos : 0 < limit) (hguests : 0 < guests)
    (htime : env.availabilityMaxDayBookings ≤ perInstant * (e - s).toNat)
    (haccepts : Accepts a ((List.range env.availabilityMaxDayBookings).map
      (filler a.id s perInstant fillerUnit)) s e guests) :
    ¬ NeverOversells env a s e guests := by
  intro h
  obtain ⟨unitNumber, hok⟩ := haccepts
  have hrows : windowBookings env (crowdedDb a.id s e perInstant fillerUnit
      env.availabilityMaxDayBookings limit unitNumber) 0 a.id s e =
        (List.range env.availabilityMaxDayBookings).map
          (filler a.id s perInstant fillerUnit) := by
    refine (congrArg (List.take _) (competing_crowdedDb 0 hse htime)).trans ?_
    rw [List.take_append_of_le_length (by simp), List.take_of_length_le (by simp)]
  have hroom := h _ 0 unitNumber (crowdedDb_proper hse hpos) (by rw [hrows]; exact hok) limit
    (hlimit unitNumber hok) s le_rfl hse
  rw [competing_crowdedDb 0 hse htime] at hroom
  have hcovers : (confirmedBooking a.id env.availabilityMaxDayBookings s e limit
      unitNumber).covers s = true := decide_eq_true ⟨le_rfl, hse⟩
  rw [finalBookings_append, finalBookings_confirmed, seats_append, seats_cons,
    if_pos hcovers] at hroom
  change _ + (limit + 0) + guests ≤ limit at hroom
  omega

/-- Guests of a unit that is no longer offered hide who is in the others. -/
theorem oversells_unit (hse : s < e) (hguests : 0 < guests) (hhas : a.hasUnits = true)
    (hcount : 0 < a.unitCount) (hfit : guests ≤ a.unitCapacity) :
    ¬ NeverOversells env a s e guests := by
  have hspan : 1 ≤ (e - s).toNat := by lia
  have hunit : ∀ b ∈ (List.range env.availabilityMaxDayBookings).map (filler a.id s
      env.availabilityMaxDayBookings (some (a.unitCount + 1))),
        b.unitNumber = some (a.unitCount + 1) := by
    intro b hb
    obtain ⟨i, _, rfl⟩ := List.mem_map.mp hb
    rfl
  have hfirst : inUnit 1 ((List.range env.availabilityMaxDayBookings).map (filler a.id s
      env.availabilityMaxDayBookings (some (a.unitCount + 1)))) = [] := by
    refine List.filter_eq_nil_iff.mpr fun b hb => ?_
    rw [hunit b hb]
    simp
    omega
  have hassigned : unassignedOverlapping ((List.range env.availabilityMaxDayBookings).map
      (filler a.id s env.availabilityMaxDayBookings (some (a.unitCount + 1)))) s e = [] := by
    refine List.filter_eq_nil_iff.mpr fun b hb => ?_
    simp [hunit b hb]
  refine oversells_of_accepts _ (some (a.unitCount + 1)) hse (fun unitNumber hok => ?_)
    (hguests.trans_le hfit) hguests (Nat.le_mul_of_pos_right _ hspan)
    ((accepts_units hhas hcount hse).mpr ⟨?_, hfit⟩)
  · rcases assignUnit_ok hok with ⟨_, _, unitNum, rfl, _⟩ | ⟨hno, _⟩
    · rfl
    · exact absurd ⟨hhas, hcount⟩ hno
  · have hmem : 1 ∈ freeUnits a ((List.range env.availabilityMaxDayBookings).map (filler a.id s
        env.availabilityMaxDayBookings (some (a.unitCount + 1)))) s e guests := by
      refine mem_freeUnits.mpr ⟨⟨le_rfl, hcount⟩, ?_⟩
      split
      · exact hfirst
      · rw [hfirst, hassigned, le_sub_peak_iff hse]
        intro t _ _
        simpa using hfit
    exact usableUnits_pos hmem fun _ => hassigned

/-- Guests who come one after the other hide who is there at once. -/
theorem oversells_seats (hse : s < e) (hguests : 0 < guests) (hhas : a.hasUnits = false)
    {capacity : Nat} (hcapacity : a.capacity = some capacity) (hfit : guests ≤ capacity)
    (htime : env.availabilityMaxDayBookings ≤ (capacity - guests) * (e - s).toNat) :
    ¬ NeverOversells env a s e guests := by
  refine oversells_of_accepts _ none hse (fun unitNumber hok => ?_)
    (hguests.trans_le hfit) hguests htime ((accepts_no_units hhas hse).mpr ?_)
  · rcases assignUnit_ok hok with ⟨hunits, _⟩ | ⟨_, rfl, _⟩
    · simp [hhas] at hunits
    · simp [capacityLimit, hhas, hcapacity]
  · rintro capacity' hcapacity' t _ _
    obtain rfl : capacity = capacity' := Option.some.inj (hcapacity.symm.trans hcapacity')
    by_cases hper : 0 < capacity - guests
    · have hle := seats_fillers_le a.id s none env.availabilityMaxDayBookings hper t
      omega
    · have hzero : env.availabilityMaxDayBookings = 0 := by
        have : capacity - guests = 0 := by omega
        simpa [this] using htime
      simpa [hzero] using hfit

/-- **Exactly when no request oversells, however the rows are cut off.** -/
theorem neverOversells_iff (hse : s < e) (hguests : 0 < guests) :
    NeverOversells env a s e guests ↔ CapSuffices env a s e guests := by
  unfold CapSuffices
  by_cases hhas : a.hasUnits = true
  · rw [if_pos hhas]
    constructor
    · intro h
      by_contra hno
      push Not at hno
      exact oversells_unit hse hguests hhas (Nat.pos_of_ne_zero hno.1) hno.2 h
    · rintro h db now unitNumber - hok
      exfalso
      rcases assignUnit_ok hok with ⟨_, hcount, unitNum, _, _, _, hroom⟩ | ⟨hno, _, hroom⟩
      · have hfit := ((le_sub_peak_iff hse _).mp hroom).guests_le hse
        omega
      · have hroom := hroom 0 (by simp [hhas])
        have hfit := ((le_sub_peak_iff hse 0).mp (by simpa using hroom)).guests_le hse
        omega
  · have hno : a.hasUnits = false := by simpa using hhas
    rw [if_neg hhas]
    constructor
    · intro h capacity hcapacity
      by_contra hnot
      push Not at hnot
      exact oversells_seats hse hguests hno hcapacity hnot.1 hnot.2 h
    · rintro h db now unitNumber hproper hok limit hlimit
      rcases assignUnit_ok hok with ⟨hunits, _⟩ | ⟨_, rfl, hroom⟩
      · exact absurd hunits hhas
      · have hcapacity : a.capacity = some limit := by
          simpa [capacityLimit, hno] using hlimit
        have hvacant : Vacant (windowBookings env db now a.id s e) limit s e guests :=
          (le_sub_peak_iff hse _).mp (hroom limit (by simpa [hno] using hcapacity))
        by_cases hcut : (competing db now a.id s e).length ≤ env.availabilityMaxDayBookings
        · rwa [windowBookings_eq hcut] at hvacant
        · have hmem : ∀ b ∈ windowBookings env db now a.id s e,
              b ∈ competing db now a.id s e := fun b hb => List.mem_of_mem_take hb
          have hlen : (windowBookings env db now a.id s e).length =
              env.availabilityMaxDayBookings :=
            List.length_take_of_le (not_le.mp hcut).le
          have hle := hvacant.length_le hse
            (fun b hb => hproper b (mem_competing.mp (hmem b hb)).1)
            (fun b hb => (mem_competing.mp (hmem b hb)).2.2.2)
          have hfit := hvacant.guests_le hse
          rcases h limit hcapacity with hlarge | htime
          · omega
          · omega

/-- The row cap set to one. -/
def cappedEnv : Env := { marketEnv with availabilityMaxDayBookings := 1 }

/-- An hourly activity for two guests at a time. -/
def pair : Activity := { marketActivity with capacity := some 2 }

/-- Both seats of ten o'clock are taken. -/
def pairDb : Db :=
  { market.db with
    activities := ⟨[pair], by decide⟩
    bookings := ⟨[
      { id := 20, ref := "A", activityId := 7, vendorId := 4, customerId := 2,
        startDatetime := buildDatetime ⟨1970, 1, 2⟩ 600,
        endDatetime := buildDatetime ⟨1970, 1, 2⟩ 660, guests := 1, status := .confirmed,
        createdAt := 0 },
      { id := 21, ref := "B", activityId := 7, vendorId := 4, customerId := 3,
        startDatetime := buildDatetime ⟨1970, 1, 2⟩ 600,
        endDatetime := buildDatetime ⟨1970, 1, 2⟩ 660, guests := 1, status := .confirmed,
        createdAt := 0 }], by decide⟩ }

/-- The query returns one of the two bookings, and a third guest is taken. -/
theorem pair_oversold :
    ∃ p created, prepareBooking cappedEnv 0 pairDb 1 (marketRequest none) = .ok (some p) ∧
      createBookingTx cappedEnv 0 pairDb p "C" = .ok created ∧
      pair.capacity = some 2 ∧
      2 < seats (competing created.1 0 7 p.startDatetime p.endDatetime) p.startDatetime := by
  have hrun : (prepareBooking cappedEnv 0 pairDb 1 (marketRequest none)).toOption.any
      (fun o => o.any (fun p => (createBookingTx cappedEnv 0 pairDb p "C").toOption.any
        (fun created => 2 < seats (competing created.1 0 7 p.startDatetime p.endDatetime)
          p.startDatetime))) = true := by
    decide +kernel
  obtain ⟨o, ho, hprepared⟩ := (Option.any_eq_true _ _).mp hrun
  obtain ⟨p, rfl, hrow⟩ := (Option.any_eq_true _ _).mp hprepared
  obtain ⟨created, hcreated, hseats⟩ := (Option.any_eq_true _ _).mp hrow
  exact ⟨p, created, toOption_eq_some.mp ho, toOption_eq_some.mp hcreated, rfl,
    of_decide_eq_true hseats⟩

theorem pair_neverOversells_iff :
    NeverOversells cappedEnv pair (buildDatetime ⟨1970, 1, 2⟩ 600)
        (buildDatetime ⟨1970, 1, 2⟩ 660) 1 ↔
      CapSuffices cappedEnv pair (buildDatetime ⟨1970, 1, 2⟩ 600)
        (buildDatetime ⟨1970, 1, 2⟩ 660) 1 :=
  neverOversells_iff (by decide) (by decide)

end Jadwal
