import Jadwal.Reconfiguration

/-!
# The backfill, statement by statement

`assignMissingUnits` as it runs on the client of a transaction: it reads, throws or
writes, and a throw takes nothing back.  `assignMissingUnitsOn_follows` compares the run
with the packing of `assignMissingUnits`; from it come what a run promises
(`backfill_sound_atomic_idempotent`) and, for units rented whole that nobody is in yet,
when it gives up (`backfill_gives_up_iff`).
-/

namespace Jadwal

open Outcome FirstFit

/-! ## Statements on the client -/

/-- Statements of a transaction on its client.  What was written before a throw is
still there after it: rolling back is left to the transaction around them. -/
abbrev Stmts (α : Type) := ExceptT HttpError (StateM Db) α

/-- The statements run on a database. -/
def Stmts.on {α : Type} (x : Stmts α) (db : Db) : Tx α × Db := x.run.run db

section

variable {α β : Type}

theorem Stmts.on_bind (x : Stmts α) (f : α → Stmts β) (db : Db) :
    Stmts.on (x >>= f) db = match Stmts.on x db with
      | (.ok a, db') => Stmts.on (f a) db'
      | (.error e, db') => (.error e, db') := by
  simp only [Stmts.on, ExceptT.run_bind, StateT.run_bind]
  rcases StateT.run (ExceptT.run x) db with ⟨_ | _, _⟩
  · rfl
  · rfl

theorem Stmts.on_pure (a : α) (db : Db) : Stmts.on (pure a) db = (.ok a, db) := rfl

theorem Stmts.on_get (db : Db) : Stmts.on get db = (.ok db, db) := rfl

end

/-! ## The function -/

structure AssignMissingUnitsResult where
  skipped : Bool
  assigned : Nat
  unassignable : List Id
  deriving DecidableEq, Repr

/-- The variables of the loop. -/
structure Placing where
  placed : List Booking
  byUnit : List (Nat × List Id) := []
  unassignable : List Booking := []

/-- The first unit with room next to the bookings placed in it. -/
def chooseUnit (activity : Activity) (placed : List Booking) (booking : Booking) :
    Option Nat :=
  (List.range' 1 activity.unitCount).find? (fun unit =>
    roomInUnit activity (inUnit unit placed) booking)

/-- `byUnit`, in the order of its keys' insertion: the id joins the entry of the unit,
or opens one. -/
def addToUnit (byUnit : List (Nat × List Id)) (unit : Nat) (id : Id) :
    List (Nat × List Id) :=
  if byUnit.any (fun entry => entry.1 = unit) then
    byUnit.map (fun entry => if entry.1 = unit then (unit, entry.2 ++ [id]) else entry)
  else byUnit ++ [(unit, [id])]

/-- One round of the loop. -/
def Placing.take (activity : Activity) (s : Placing) (booking : Booking) : Placing :=
  match chooseUnit activity s.placed booking with
  | none => { s with unassignable := s.unassignable ++ [booking] }
  | some unit =>
      { s with
        byUnit := addToUnit s.byUnit unit booking.id
        placed := s.placed ++ [{ booking with unitNumber := some unit }] }

theorem Booking.key_unit (unit : Nat) (b : Booking) :
    Keyed.key { b with unitNumber := some unit } = Keyed.key b := rfl

/-- `booking.updateMany` of the ids of one unit, with its count. -/
def setUnit (unit : Nat) (ids : List Id) : Stmts Nat := do
  let db ← get
  let bookings := db.bookings.updateMany (fun b => b.id ∈ ids)
    (fun b => { b with unitNumber := some unit }) (Booking.key_unit unit)
  set { db with bookings := bookings }
  return (db.bookings.select (fun b => b.id ∈ ids)).length

/-- One statement for each entry, and the counts together. -/
def setUnits : List (Nat × List Id) → Stmts Nat
  | [] => return 0
  | (unit, ids) :: byUnit => do
      let count ← setUnit unit ids
      let counts ← setUnits byUnit
      return count + counts

/-- `assignMissingUnits` on the transaction's client. -/
def assignMissingUnitsOn (now : Instant) (activityId : Id) :
    Stmts AssignMissingUnitsResult := do
  let db ← get
  match db.activities.find? activityId with
  | none => return { skipped := true, assigned := 0, unassignable := [] }
  | some activity =>
      if ¬ activity.hasUnits ∨ activity.unitCount < 1 then
        return { skipped := true, assigned := 0, unassignable := [] }
      else do
        let db ← get
        let placed := (liveBookings now db activityId).filter (fun b => b.unitNumber.isSome)
        let outOfRange := placed.filter (fun b =>
          ∃ unit ∈ b.unitNumber, unit < 1 ∨ unit > activity.unitCount)
        if outOfRange ≠ [] then
          throw (.conflict (outOfRangeMessage activity.unitCount outOfRange))
        else do
          let db ← get
          let unassigned := ((liveBookings now db activityId).filter
            (fun b => b.unitNumber.isNone)).insertionSort (fun a b => byStay a b)
          if unassigned = [] then
            return { skipped := false, assigned := 0, unassignable := [] }
          else do
            let placing := unassigned.foldl (Placing.take activity) { placed := placed }
            let ids := placing.unassignable.map Booking.id
            if placing.unassignable ≠ [] then
              throw (.conflict (unassignableMessage activity.unitCount placing.unassignable))
            else do
              let assigned ← setUnits placing.byUnit
              return { skipped := false, assigned := assigned, unassignable := ids }

/-! ## The loop packs -/

variable {now : Instant} {db db' : Db} {a : Activity} {activityId : Id}

/-- Room depends on when the bookings are and on how many guests they have. -/
theorem roomInUnit_map {bookings : List Booking} {f : Booking → Booking}
    (h : ∀ b, (f b).startDatetime = b.startDatetime ∧ (f b).endDatetime = b.endDatetime ∧
      (f b).guests = b.guests) (booking : Booking) :
    roomInUnit a (bookings.map f) booking = roomInUnit a bookings booking := by
  have hoverlaps : ∀ b s e, (f b).overlaps s e = b.overlaps s e := by
    intro b s e
    obtain ⟨hstart, hend, _⟩ := h b
    simp only [Booking.overlaps, hstart, hend]
  have hclip : ∀ b s e, clip s e (f b) = clip s e b := by
    intro b s e
    obtain ⟨hstart, hend, hguests⟩ := h b
    simp only [clip, hstart, hend, hguests]
  simp only [roomInUnit, List.filter_map, List.isEmpty_map, maxConcurrentInWindow,
    List.filterMap_map, Function.comp_def, hoverlaps, hclip]
  rfl

/-- The loop looks for a unit as the packing does. -/
theorem chooseUnit_eq (packed : List (Nat × Booking)) (booking : Booking) :
    chooseUnit a (packed.map seat) booking =
      choose? (roomInUnit a) a.unitCount packed booking := by
  unfold chooseUnit choose?
  congr 1
  funext unit
  rw [inUnit_map_seat]
  exact roomInUnit_map (f := fun b => seat (unit, b)) (fun _ => ⟨rfl, rfl, rfl⟩) booking

/-- `byUnit` holds the ids chosen for each unit, and has an entry for each unit chosen. -/
structure Grouped (byUnit : List (Nat × List Id)) (chosen : List (Nat × Booking)) :
    Prop where
  ids : ∀ entry ∈ byUnit, entry.2 = (bin chosen entry.1).map Booking.id
  unit : ∀ p ∈ chosen, p.1 ∈ byUnit.map Prod.fst

theorem Grouped.add {byUnit : List (Nat × List Id)} {chosen : List (Nat × Booking)}
    (h : Grouped byUnit chosen) (unit : Nat) (booking : Booking) :
    Grouped (addToUnit byUnit unit booking.id) (chosen ++ [(unit, booking)]) := by
  unfold addToUnit
  by_cases hany : byUnit.any (fun entry => entry.1 = unit) = true
  · rw [if_pos hany]
    have hfst : (byUnit.map (fun entry =>
        if entry.1 = unit then (unit, entry.2 ++ [booking.id]) else entry)).map Prod.fst =
          byUnit.map Prod.fst := by
      rw [List.map_map]
      apply List.map_congr_left
      intro entry _
      rw [Function.comp_apply]
      split
      · exact Eq.symm ‹_›
      · rfl
    constructor
    · intro entry hentry
      obtain ⟨old, hold, rfl⟩ := List.mem_map.mp hentry
      have hids := h.ids old hold
      by_cases heq : old.1 = unit
      · subst heq
        simp [bin_append, hids]
      · rw [if_neg heq, bin_append, if_neg (Ne.symm heq), List.append_nil]
        exact hids
    · intro p hp
      rw [hfst]
      rcases List.mem_append.mp hp with hp | hp
      · exact h.unit p hp
      · obtain rfl := List.mem_singleton.mp hp
        obtain ⟨entry, hentry, heq⟩ := List.any_eq_true.mp hany
        exact List.mem_map.mpr ⟨entry, hentry, of_decide_eq_true heq⟩
  · rw [if_neg hany]
    have hnew : ∀ entry ∈ byUnit, unit ≠ entry.1 := by
      intro entry hentry heq
      exact hany (List.any_eq_true.mpr ⟨entry, hentry, decide_eq_true heq.symm⟩)
    -- nobody was chosen the unit before
    have hempty : bin chosen unit = [] := by
      rw [bin, List.map_eq_nil_iff, List.filter_eq_nil_iff]
      intro p hp heq
      obtain ⟨entry, hentry, hfst⟩ := List.mem_map.mp (h.unit p hp)
      exact hnew entry hentry ((of_decide_eq_true heq).symm.trans hfst.symm)
    constructor
    · intro entry hentry
      rcases List.mem_append.mp hentry with hentry | hentry
      · rw [bin_append, if_neg (hnew entry hentry), List.append_nil]
        exact h.ids entry hentry
      · obtain rfl := List.mem_singleton.mp hentry
        simp [bin_append, hempty]
    · intro p hp
      rw [List.map_append]
      rcases List.mem_append.mp hp with hp | hp
      · exact List.mem_append_left _ (h.unit p hp)
      · obtain rfl := List.mem_singleton.mp hp
        exact List.mem_append_right _ (by simp)

/-- **The loop is the packing**: it leaves over the same bookings, and groups the others
by the unit the packing puts them in. -/
theorem foldl_take (unassigned : List Booking) {s : Placing} {packed chosen : List (Nat × Booking)}
    (hplaced : s.placed = packed.map seat) (hgrouped : Grouped s.byUnit chosen) :
    ∃ more, (pack (roomInUnit a) a.unitCount packed unassigned).1 = packed ++ more ∧
      Grouped (unassigned.foldl (Placing.take a) s).byUnit (chosen ++ more) ∧
      (unassigned.foldl (Placing.take a) s).unassignable = s.unassignable ++
        (pack (roomInUnit a) a.unitCount packed unassigned).2 := by
  induction unassigned generalizing s packed chosen with
  | nil => exact ⟨[], by simp [pack], by simpa using hgrouped, by simp [pack]⟩
  | cons booking unassigned ih =>
      have hchoose : chooseUnit a s.placed booking =
          choose? (roomInUnit a) a.unitCount packed booking := by
        rw [hplaced, chooseUnit_eq]
      cases hc : choose? (roomInUnit a) a.unitCount packed booking with
      | none =>
          rw [hc] at hchoose
          simp only [List.foldl_cons, Placing.take, hchoose, pack, hc]
          obtain ⟨more, hpacked, hgroups, hleft⟩ :=
            ih (s := { s with unassignable := s.unassignable ++ [booking] }) hplaced hgrouped
          refine ⟨more, hpacked, hgroups, ?_⟩
          rw [hleft, List.append_assoc]
          rfl
      | some unit =>
          rw [hc] at hchoose
          simp only [List.foldl_cons, Placing.take, hchoose, pack, hc]
          have hplaced' : s.placed ++ [{ booking with unitNumber := some unit }] =
              (packed ++ [(unit, booking)]).map seat := by
            rw [hplaced, List.map_append]
            rfl
          obtain ⟨more, hpacked, hgroups, hleft⟩ :=
            ih (s := { s with
                byUnit := addToUnit s.byUnit unit booking.id
                placed := s.placed ++ [{ booking with unitNumber := some unit }] })
              hplaced' (hgrouped.add unit booking)
          exact ⟨(unit, booking) :: more, by simpa using hpacked, by simpa using hgroups, hleft⟩

/-! ## The statements write what the packing chose -/

theorem setUnits_on {byUnit : List (Nat × List Id)} {chosen : List (Nat × Booking)}
    (h : ∀ entry ∈ byUnit, entry.2 = (bin chosen entry.1).map Booking.id) (db : Db) :
    ∃ count, (setUnits byUnit).on db =
      (.ok count, (byUnit.map Prod.fst).foldl (writeUnit chosen) db) := by
  induction byUnit generalizing db with
  | nil => exact ⟨0, rfl⟩
  | cons entry byUnit ih =>
      obtain ⟨unit, ids⟩ := entry
      have hids : ids = (bin chosen unit).map Booking.id := h (unit, ids) (by simp)
      obtain ⟨counts, heq⟩ := ih (fun entry hentry => h entry (by simp [hentry]))
        (writeUnit chosen db unit)
      have hset : (setUnit unit ids).on db =
          (.ok (db.bookings.select (fun b => b.id ∈ ids)).length, writeUnit chosen db unit) := by
        rw [hids]
        rfl
      refine ⟨(db.bookings.select (fun b => b.id ∈ ids)).length + counts, ?_⟩
      simp only [setUnits, Stmts.on_bind, hset, heq, Stmts.on_pure, List.map_cons,
        List.foldl_cons]

theorem foldl_writeUnit_bookings (chosen : List (Nat × Booking)) (units : List Nat) (db : Db) :
    units.foldl (writeUnit chosen) db =
      { db with bookings := (units.foldl (writeUnit chosen) db).bookings } := by
  induction units generalizing db with
  | nil => rfl
  | cons unit units ih =>
      rw [List.foldl_cons, ih]
      rfl

/-- The order of the units is immaterial: each row is written at most once. -/
theorem foldl_writeUnit_eq {chosen : List (Nat × Booking)} {units : List Nat} {unitCount : Nat}
    (hnodup : (chosen.map (fun p => p.2.id)).Nodup) (hunits : ∀ p ∈ chosen, p.1 ∈ units)
    (hrange : ∀ p ∈ chosen, 1 ≤ p.1 ∧ p.1 ≤ unitCount) (db : Db) :
    units.foldl (writeUnit chosen) db = writeUnits unitCount chosen db := by
  have hrows : (units.foldl (writeUnit chosen) db).bookings =
      (writeUnits unitCount chosen db).bookings := by
    ext1
    rw [(foldl_writeUnit chosen units db).1, (writeUnits_rows unitCount chosen db).1]
    apply List.map_congr_left
    intro b _
    by_cases hin : b.id ∈ chosen.map (fun p => p.2.id)
    · obtain ⟨p, hp, hid⟩ := List.mem_map.mp hin
      have hmem : p.1 ∈ List.range' 1 unitCount := by
        have hbounds := hrange p hp
        exact List.mem_range'_1.mpr ⟨hbounds.1, by omega⟩
      rw [foldl_seatIn_chosen hnodup hp (hunits p hp) hid.symm, Booking.seated,
        foldl_seatIn_chosen hnodup hp hmem hid.symm]
    · rw [foldl_seatIn_not_chosen hin, seated_of_not_chosen hin]
  rw [foldl_writeUnit_bookings, hrows, writeUnits, ← foldl_writeUnit_bookings]

/-- The run throws what the body throws, with the database as it was, or leaves the
database the body returns. -/
def RunsAs (db : Db) (body : Tx Db) (run : Tx AssignMissingUnitsResult × Db) : Prop :=
  match body with
  | .error e => run = (.error e, db)
  | .ok db' => ∃ result, run = (.ok result, db')

/-- From the loop on. -/
theorem placing_follows {placed unassigned : List Booking}
    (hseats : placed = (slots placed).map seat)
    (hnodup : (unassigned.map Booking.id).Nodup) :
    RunsAs db
      (do
        let packed := pack (roomInUnit a) a.unitCount (slots placed) unassigned
        ensure (packed.2 = []) (.conflict (unassignableMessage a.unitCount packed.2))
        return writeUnits a.unitCount (packed.1.drop (slots placed).length) db)
      (Stmts.on
        (let placing := unassigned.foldl (Placing.take a) { placed := placed }
        let ids := placing.unassignable.map Booking.id
        if placing.unassignable ≠ [] then
          throw (.conflict (unassignableMessage a.unitCount placing.unassignable))
        else do
          let assigned ← setUnits placing.byUnit
          return { skipped := false, assigned := assigned, unassignable := ids }) db) := by
  have hstart : Grouped ({ placed := placed } : Placing).byUnit [] := ⟨by simp, by simp⟩
  obtain ⟨more, hpacked, hgroups, hleft⟩ := foldl_take (a := a) unassigned hseats hstart
  simp only [List.nil_append] at hgroups hleft
  simp only [hleft]
  by_cases hall : (pack (roomInUnit a) a.unitCount (slots placed) unassigned).2 = []
  · rw [if_neg (not_not.mpr hall), ensure, if_pos hall, hpacked, List.drop_left]
    obtain ⟨count, hset⟩ := setUnits_on hgroups.ids db
    have hsnd := map_snd_pack hall
    rw [hpacked, List.map_append, List.append_cancel_left_eq] at hsnd
    have hids : (more.map (fun p => p.2.id)).Nodup := by
      rw [← hsnd, List.map_map] at hnodup
      exact hnodup
    obtain ⟨chosen, hchosen, hrange⟩ := @pack_extends _ (roomInUnit a) a.unitCount
      (slots placed) unassigned
    rw [hpacked, List.append_cancel_left_eq] at hchosen
    simp only [Stmts.on_bind, hset, Stmts.on_pure]
    refine ⟨_, Prod.ext rfl ?_⟩
    exact foldl_writeUnit_eq hids hgroups.unit (hchosen ▸ hrange) db
  · rw [if_pos hall, ensure, if_neg hall]
    rfl

/-- **The run follows the packing.** -/
theorem assignMissingUnitsOn_follows (now : Instant) (db : Db) (activityId : Id) :
    RunsAs db (assignMissingUnits now db activityId)
      ((assignMissingUnitsOn now activityId).on db) := by
  cases ha : db.activities.find? activityId with
  | none =>
      simp only [assignMissingUnits, assignMissingUnitsOn, Stmts.on_bind, Stmts.on_get,
        Stmts.on_pure, ha]
      exact ⟨_, rfl⟩
  | some a =>
      simp only [assignMissingUnits, assignMissingUnitsOn, Stmts.on_bind, Stmts.on_get, ha]
      by_cases hskip : ¬ a.hasUnits = true ∨ a.unitCount < 1
      · rw [if_pos hskip, if_pos hskip]
        exact ⟨_, rfl⟩
      rw [if_neg hskip, if_neg hskip]
      simp only [Stmts.on_bind, Stmts.on_get]
      generalize hlive : liveBookings now db activityId = live
      generalize hplaced : live.filter (fun b => b.unitNumber.isSome) = placed
      by_cases hrange : placed.filter (fun b =>
          ∃ unit ∈ b.unitNumber, unit < 1 ∨ unit > a.unitCount) = []
      · rw [if_neg (not_not.mpr hrange), ensure, if_pos hrange]
        simp only [Stmts.on_bind, Stmts.on_get, hlive]
        generalize hsorted : (live.filter (fun b => b.unitNumber.isNone)).insertionSort
          (fun a b => byStay a b = true) = unassigned
        by_cases hnone : unassigned = []
        · rw [if_pos hnone]
          simp only [hnone]
          exact ⟨_, rfl⟩
        · rw [if_neg hnone]
          simp only [if_neg hnone]
          have hseats : placed = (slots placed).map seat := by
            rw [map_seat_slots, ← hplaced, List.filter_filter]
            simp
          have hnodup : (unassigned.map Booking.id).Nodup := by
            have hperm := (List.perm_insertionSort (fun a b => byStay a b = true)
              (live.filter (fun b => b.unitNumber.isNone))).map Booking.id
            rw [← hsorted, hperm.nodup_iff, ← hlive]
            exact (List.filter_sublist.map _).nodup (liveBookings_nodup now db activityId)
          exact placing_follows hseats hnodup
      · rw [if_pos hrange, ensure, if_neg hrange]
        rfl

/-! ## What a run promises -/

theorem assignMissingUnitsOn_error {e : HttpError}
    (h : (assignMissingUnitsOn now activityId).on db = (.error e, db')) :
    assignMissingUnits now db activityId = .error e ∧ db' = db := by
  have hrun := assignMissingUnitsOn_follows now db activityId
  rw [h] at hrun
  cases hbody : assignMissingUnits now db activityId with
  | error e' =>
      rw [hbody] at hrun
      obtain ⟨herror, hdb⟩ := Prod.ext_iff.mp hrun
      exact ⟨congrArg Except.error (Except.error.inj herror).symm, hdb⟩
  | ok db₁ =>
      rw [hbody] at hrun
      obtain ⟨result, heq⟩ := hrun
      cases heq

theorem assignMissingUnitsOn_ok {result : AssignMissingUnitsResult}
    (h : (assignMissingUnitsOn now activityId).on db = (.ok result, db')) :
    assignMissingUnits now db activityId = .ok db' := by
  have hrun := assignMissingUnitsOn_follows now db activityId
  rw [h] at hrun
  cases hbody : assignMissingUnits now db activityId with
  | error e =>
      rw [hbody] at hrun
      cases hrun
  | ok db₁ =>
      rw [hbody] at hrun
      obtain ⟨result', heq⟩ := hrun
      exact congrArg Except.ok (Prod.ext_iff.mp heq).2.symm

/-- Bookings that are live later are live now. -/
theorem liveBookings_later {now' : Instant} (hle : now ≤ now') {b : Booking}
    (hb : b ∈ liveBookings now' db activityId) : b ∈ liveBookings now db activityId := by
  obtain ⟨hrow, hlive⟩ := List.mem_filter.mp hb
  obtain ⟨hactivity, hactive, hend⟩ := of_decide_eq_true hlive
  refine List.mem_filter.mpr ⟨hrow, decide_eq_true ⟨hactivity, ?_, by lia⟩⟩
  unfold activeBookingFilter at hactive ⊢
  split at hactive
  · exact hactive
  · split at hactive
    · exact decide_eq_true (hle.trans (of_decide_eq_true hactive))
    · exact hactive
  · rfl
  · rfl

/-- Once every live booking has a unit of the range, a run assigns nothing. -/
theorem assignMissingUnitsOn_settled
    (h : ∀ a ∈ db.activities.find? activityId, a.hasUnits = true → 1 ≤ a.unitCount →
      ∀ b ∈ liveBookings now db activityId,
        ∃ unit ∈ b.unitNumber, 1 ≤ unit ∧ unit ≤ a.unitCount) :
    ∃ result, (assignMissingUnitsOn now activityId).on db = (.ok result, db) ∧
      result.assigned = 0 := by
  cases ha : db.activities.find? activityId with
  | none =>
      simp only [assignMissingUnitsOn, Stmts.on_bind, Stmts.on_get, Stmts.on_pure, ha]
      exact ⟨_, rfl, rfl⟩
  | some a =>
      simp only [assignMissingUnitsOn, Stmts.on_bind, Stmts.on_get, ha]
      by_cases hskip : ¬ a.hasUnits = true ∨ a.unitCount < 1
      · rw [if_pos hskip]
        exact ⟨_, rfl, rfl⟩
      have hunits := h a ha (by_contra fun hoff => hskip (.inl hoff)) (by omega)
      have hrange : ((liveBookings now db activityId).filter
          (fun b => b.unitNumber.isSome)).filter (fun b =>
            ∃ unit ∈ b.unitNumber, unit < 1 ∨ unit > a.unitCount) = [] := by
        rw [List.filter_eq_nil_iff]
        intro b hb hout
        obtain ⟨unit, hunit, hlow, hhigh⟩ := hunits b (List.mem_filter.mp hb).1
        obtain ⟨unit', hunit', hout⟩ := of_decide_eq_true hout
        obtain rfl := Option.some.inj (hunit.symm.trans hunit')
        omega
      have hnone : (liveBookings now db activityId).filter
          (fun b => b.unitNumber.isNone) = [] := by
        rw [List.filter_eq_nil_iff]
        intro b hb hmissing
        obtain ⟨unit, hunit, _⟩ := hunits b hb
        rw [Option.mem_def.mp hunit] at hmissing
        cases hmissing
      rw [if_neg hskip]
      simp only [Stmts.on_bind, Stmts.on_get, hrange, hnone, List.insertionSort_nil, if_true,
        ne_eq, not_true_eq_false, if_false]
      exact ⟨_, rfl, rfl⟩

/-- A booking is where it was, in the unit it had when it had one. -/
theorem Backfilled.kept {packed : List (Nat × Booking)} (h : Backfilled now db a packed db')
    {b : Booking} (hb : b ∈ db.bookings.rows) :
    ∃ unitNumber, { b with unitNumber := unitNumber } ∈ db'.bookings.rows ∧
      (b.unitNumber ≠ none → unitNumber = b.unitNumber) := by
  obtain ⟨chosen, _, _, hperm, _, rfl⟩ := h.exists_chosen
  obtain ⟨unitNumber, heq⟩ := seated_eq a.unitCount chosen b
  refine ⟨unitNumber, ?_, ?_⟩
  · rw [(writeUnits_rows a.unitCount chosen db).1, ← heq]
    exact List.mem_map_of_mem hb
  · intro hunit
    rw [seated_of_not_chosen (not_chosen_of_unit hperm hb hunit)] at heq
    exact (congrArg Booking.unitNumber heq).symm

/-- After the backfill every live booking has a unit of the range. -/
theorem Backfilled.unit_inRange {packed : List (Nat × Booking)}
    (h : Backfilled now db a packed db') {b : Booking}
    (hb : b ∈ liveBookings now db' a.id) :
    ∃ unit ∈ b.unitNumber, 1 ≤ unit ∧ unit ≤ a.unitCount := by
  obtain ⟨p, hp, rfl⟩ := List.mem_map.mp (h.live.mem_iff.mp hb)
  exact ⟨p.1, rfl, h.packed_inRange p hp⟩

/-- **The backfill is sound, atomic and idempotent.**  A run that throws has changed
nothing.  After one that returns, the live bookings of an activity with units each have
a unit that exists, a unit within its limit before is within it, every booking is as it
was up to a unit given to one that had none, and a run at any later time changes
nothing. -/
theorem backfill_sound_atomic_idempotent (now : Instant) (db : Db) (activityId : Id) :
    (∀ e db', (assignMissingUnitsOn now activityId).on db = (.error e, db') → db' = db) ∧
    ∀ result db', (assignMissingUnitsOn now activityId).on db = (.ok result, db') →
      (∀ a ∈ db.activities.find? activityId, a.hasUnits = true → 1 ≤ a.unitCount →
        (∀ b ∈ liveBookings now db' activityId,
          ∃ unit ∈ b.unitNumber, 1 ≤ unit ∧ unit ≤ a.unitCount) ∧
        ∀ unitNum,
          (∀ t, a.occupancy (inUnit unitNum (liveBookings now db activityId)) t ≤
            a.unitLimit) →
          ∀ t, a.occupancy (inUnit unitNum (liveBookings now db' activityId)) t ≤
            a.unitLimit) ∧
      (∀ b ∈ db.bookings.rows, ∃ unitNumber,
        { b with unitNumber := unitNumber } ∈ db'.bookings.rows ∧
          (b.unitNumber ≠ none → unitNumber = b.unitNumber)) ∧
      ∀ now', now ≤ now' → ∃ result',
        (assignMissingUnitsOn now' activityId).on db' = (.ok result', db') ∧
          result'.assigned = 0 := by
  refine ⟨fun e db' h => (assignMissingUnitsOn_error h).2, ?_⟩
  intro result db' hrun
  have hok := assignMissingUnitsOn_ok hrun
  have hskipped : ∀ b ∈ db.bookings.rows, ∃ unitNumber,
      { b with unitNumber := unitNumber } ∈ db.bookings.rows ∧
        (b.unitNumber ≠ none → unitNumber = b.unitNumber) :=
    fun b hb => ⟨b.unitNumber, hb, fun _ => rfl⟩
  cases ha : db.activities.find? activityId with
  | none =>
      simp only [assignMissingUnits, ha, Except.ok.injEq] at hok
      subst hok
      refine ⟨fun a hmem => (Option.not_mem_none a hmem).elim, hskipped, fun now' _ => ?_⟩
      apply assignMissingUnitsOn_settled
      intro a hmem
      rw [ha] at hmem
      cases hmem
  | some a =>
      obtain rfl : a.id = activityId := (Table.find?_eq_some.mp ha).2
      rcases assignMissingUnits_ok ha hok with ⟨hoff, rfl⟩ | ⟨hon, packed, hb⟩
      · refine ⟨?_, hskipped, fun now' _ => ?_⟩
        · intro a' hmem hunits hcount
          obtain rfl := Option.some.inj hmem
          exact absurd ⟨hunits, hcount⟩ hoff
        · apply assignMissingUnitsOn_settled
          intro a' hmem hunits hcount
          obtain rfl := Option.some.inj (ha.symm.trans hmem)
          exact absurd ⟨hunits, hcount⟩ hoff
      · have hactivities : db'.activities.find? a.id = some a := by
          rw [hb.written, (writeUnits_rows _ _ _).2]
          exact ha
        refine ⟨?_, fun b => hb.kept, ?_⟩
        · intro a' hmem _ _
          obtain rfl := Option.some.inj hmem
          exact ⟨fun b => hb.unit_inRange, fun unitNum => hb.unit_within⟩
        · intro now' hle
          apply assignMissingUnitsOn_settled
          intro a' hmem _ _ b hlive
          obtain rfl := Option.some.inj (hactivities.symm.trans hmem)
          exact hb.unit_inRange (liveBookings_later hle hlive)

/-! ## When the loop gives up -/

instance : Std.Total (fun a b : Booking => byStay a b = true) where
  total a b := by
    simp only [byStay, decide_eq_true_eq]
    lia

instance : IsTrans Booking (fun a b => byStay a b = true) where
  trans a b c := by
    simp only [byStay, decide_eq_true_eq]
    lia

theorem byStay_start {b c : Booking} (h : byStay b c = true) :
    b.startDatetime ≤ c.startDatetime := by
  rcases of_decide_eq_true h with hlt | ⟨heq, _⟩
  · exact hlt.le
  · exact heq.le

/-- Where nobody is in a unit yet, the backfill is the packing into empty units. -/
theorem assignMissingUnits_fresh (ha : db.activities.find? activityId = some a)
    (hunits : a.hasUnits = true) (hcount : 1 ≤ a.unitCount)
    (hfresh : ∀ b ∈ liveBookings now db activityId, b.unitNumber = none)
    (hok : (pack (roomInUnit a) a.unitCount []
      ((liveBookings now db activityId).insertionSort (fun a b => byStay a b = true))).2 = []) :
    ∃ db', assignMissingUnits now db activityId = .ok db' := by
  have hskip : ¬ (¬ a.hasUnits = true ∨ a.unitCount < 1) := by
    rintro (hoff | hnone)
    · exact hoff hunits
    · omega
  have hplaced : (liveBookings now db activityId).filter
      (fun b => b.unitNumber.isSome) = [] := by
    rw [List.filter_eq_nil_iff]
    intro b hb hsome
    rw [hfresh b hb] at hsome
    cases hsome
  have hall : (liveBookings now db activityId).filter
      (fun b => b.unitNumber.isNone) = liveBookings now db activityId := by
    rw [List.filter_eq_self]
    intro b hb
    rw [hfresh b hb]
    rfl
  simp only [assignMissingUnits, ha, if_neg hskip, hplaced, hall]
  by_cases hempty : (liveBookings now db activityId).insertionSort
      (fun a b => byStay a b = true) = []
  · rw [if_pos hempty]
    exact ⟨db, rfl⟩
  · have hleft : (pack (roomInUnit a) a.unitCount (slots [])
        ((liveBookings now db activityId).insertionSort (fun a b => byStay a b = true))).2 = [] :=
      hok
    rw [if_neg hempty, ensure, if_pos List.filter_nil, ensure, if_pos hleft]
    exact ⟨_, rfl⟩

/-- **A booking left over starts inside a booking of every unit.** -/
theorem crowded_of_left (hwhole : rentsWholeUnit a = true) {bookings : List Booking}
    (hproper : ∀ b ∈ bookings, b.startDatetime < b.endDatetime)
    (hleft : (pack (roomInUnit a) a.unitCount []
      (bookings.insertionSort (fun a b => byStay a b = true))).2 ≠ []) :
    ∃ t, a.unitCount < (bookings.filter (fun b => b.covers t)).length := by
  have hperm := List.perm_insertionSort (fun a b => byStay a b = true) bookings
  have hsorted := List.pairwise_insertionSort (fun a b => byStay a b = true) bookings
  obtain ⟨before, x, after, heq, hplaced, hfull⟩ := pack_left hleft
  rw [heq] at hperm hsorted
  obtain ⟨_, _, hbefore⟩ := List.pairwise_append.mp hsorted
  have hsnd := map_snd_pack hplaced
  rw [List.map_nil, List.nil_append] at hsnd
  refine ⟨x.startDatetime, ?_⟩
  have hx := hproper x (hperm.mem_iff.mp (by simp))
  have hself : x.covers x.startDatetime = true := decide_eq_true ⟨le_rfl, hx⟩
  let there : Booking → Nat := fun b => if b.covers x.startDatetime then 1 else 0
  -- every unit holds a booking that is there when `x` starts
  have hunits : a.unitCount ≤ ((pack (roomInUnit a) a.unitCount [] before).1.map
      (fun p => there p.2)).sum := by
    obtain ⟨chosen, hchosen, hrange⟩ := @pack_extends _ (roomInUnit a) a.unitCount [] before
    rw [List.nil_append] at hchosen
    refine le_sum_of_bins (hchosen ▸ hrange) ?_
    intro unit hlow hhigh
    have hroom := hfull unit hlow hhigh
    simp only [roomInUnit, hwhole, if_true, List.isEmpty_eq_false_iff_exists_mem] at hroom
    obtain ⟨p, hp⟩ := hroom
    obtain ⟨hbin, hoverlaps⟩ := List.mem_filter.mp hp
    have hmem : p ∈ before := by
      rw [← hsnd]
      obtain ⟨q, hq, rfl⟩ := List.mem_map.mp hbin
      exact List.mem_map_of_mem (List.mem_filter.mp hq).1
    have hstart := byStay_start (hbefore p hmem x (by simp))
    have hcovers : p.covers x.startDatetime = true :=
      decide_eq_true ⟨hstart, (of_decide_eq_true hoverlaps).2⟩
    exact ⟨p, hbin, by simp [there, hcovers]⟩
  have hcount : ((pack (roomInUnit a) a.unitCount [] before).1.map (fun p => there p.2)).sum =
      (before.filter (fun b => b.covers x.startDatetime)).length := by
    have hmap : (pack (roomInUnit a) a.unitCount [] before).1.map (fun p => there p.2) =
        before.map there := List.map_map.symm.trans (congrArg (List.map there) hsnd)
    rw [hmap, sum_map_ite]
    simp
  rw [← (hperm.filter _).length_eq, List.filter_append, List.length_append,
    List.filter_cons, if_pos hself, List.length_cons]
  omega

/-- **On a fresh switch to whole units the backfill gives up only when it must**: when
more bookings than there are units are there at one instant. -/
theorem backfill_gives_up_iff (ha : db.activities.find? activityId = some a)
    (hcount : 1 ≤ a.unitCount) (hwhole : rentsWholeUnit a = true)
    (hfresh : ∀ b ∈ liveBookings now db activityId, b.unitNumber = none)
    (hproper : ∀ b ∈ liveBookings now db activityId, b.startDatetime < b.endDatetime) :
    (∃ e db', (assignMissingUnitsOn now activityId).on db = (.error e, db')) ↔
      ∃ t, a.unitCount <
        ((liveBookings now db activityId).filter (fun b => b.covers t)).length := by
  have hunits := hasUnits_of_rentsWholeUnit hwhole
  constructor
  · rintro ⟨e, db', hrun⟩
    apply crowded_of_left hwhole hproper
    intro hok
    obtain ⟨db₁, hok⟩ := assignMissingUnits_fresh ha hunits hcount hfresh hok
    have herror := (assignMissingUnitsOn_error hrun).1
    rw [hok] at herror
    cases herror
  · rintro ⟨t, hcrowded⟩
    have hrun := assignMissingUnitsOn_follows now db activityId
    cases hbody : assignMissingUnits now db activityId with
    | error e =>
        rw [hbody] at hrun
        exact ⟨e, db, hrun⟩
    | ok db' =>
        exfalso
        obtain rfl : a.id = activityId := (Table.find?_eq_some.mp ha).2
        rcases assignMissingUnits_ok ha hbody with ⟨hoff, _⟩ | ⟨hon, packed, hb⟩
        · exact hoff ⟨hunits, hcount⟩
        -- without a unit taken before, the packing keeps every unit to one booking
        have hstart : a.fitsAtStarts (liveBookings now db a.id) = true := by
          rw [fitsAtStarts_units hunits]
          intro unitNum t
          have hempty : inUnit unitNum (liveBookings now db a.id) = [] := by
            rw [inUnit, List.filter_eq_nil_iff]
            intro b hb hunit
            rw [hfresh b hb] at hunit
            simp at hunit
          rw [hempty]
          exact Nat.zero_le _
        have htotal := ((hb.fits hon).mpr hstart).total (a.unitCount * a.unitLimit)
          (by rw [Activity.total, if_pos hunits]; rfl) t
        have hsame : a.occupancy (liveBookings now db' a.id) t =
            a.occupancy (liveBookings now db a.id) t := by
          obtain ⟨chosen, _, _, _, _, rfl⟩ := hb.exists_chosen
          rw [liveBookings_writeUnits]
          apply Activity.occupancy_map
          intro b
          obtain ⟨unitNumber, heq⟩ := seated_eq a.unitCount chosen b
          rw [heq]
          exact ⟨rfl, rfl⟩
        rw [hsame, Activity.occupancy, Activity.weight_whole hwhole, Activity.unitLimit,
          if_pos hwhole, Nat.mul_one] at htotal
        omega

/-- One boat rented whole. -/
def charter : Activity := { boat with pricingModel := .perUnit }

/-- Two trips at the same time do not fit the one boat. -/
theorem backfill_gives_up_charter :
    ∃ e db', (assignMissingUnitsOn 0 7).on (trips charter none) = (.error e, db') :=
  (backfill_gives_up_iff (a := charter) rfl (by decide) (by decide) (by decide +kernel)
    (by decide +kernel)).mpr ⟨100, by decide +kernel⟩

end Jadwal
