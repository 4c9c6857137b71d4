import Jadwal.Capacity
import Jadwal.Payout
import Jadwal.Lib.FirstFit

/-!
# Changing an activity

`updateActivity` of the vendor and of the admin service, the two validators
they share, and `assignMissingUnits`, which gives a unit to the live bookings
that have none and rolls the update back when it cannot.
-/

namespace Jadwal

open Outcome FirstFit

/-! ## The request -/

/-- A field of a partial update: left out (`none`), null (`some none`) or a value. -/
abbrev Patch (α : Type) := Option (Option α)

/-- `dto.field ?? current`. -/
def Patch.orCurrent {α : Type} (p : Patch α) (current : Option α) : Option α :=
  p.join.or current

/-- The value of a required column after the update. -/
def Patch.required {α : Type} (p : Patch α) (current : α) : α := p.join.getD current

def Patch.isNull {α : Type} (p : Patch α) : Bool := p.any Option.isNone

/-- The fields of `UpdateActivityDto`; only the administrators' has a `status`. -/
structure UpdateActivityDto where
  titleEn : Patch String := none
  pricePerPerson : Patch Cents := none
  durationValue : Patch Nat := none
  capacity : Patch Nat := none
  bookingType : Patch BookingType := none
  pricingModel : Patch PricingModel := none
  checkInTime : Patch ClockTime := none
  checkOutTime : Patch ClockTime := none
  hasUnits : Patch Bool := none
  unitCount : Patch Nat := none
  unitCapacity : Patch Nat := none
  cancellationPolicy : Patch String := none
  extraServices : Patch (List ExtraService) := none
  activeDays : Patch (List String) := none
  status : Patch ActivityStatus := none
  deriving DecidableEq, Repr

/-- What the database answers about the rows the update names: the city is one
of another country, and the category and city it connects exist. -/
structure ActivityLinks where
  foreignCity : Bool := false
  found : Bool := true

/-! ## The validators -/

/-- `assertHourlyTimesConsistent`: the duration fits the operating window, and
the times being set are on the half hour. -/
def assertHourlyTimesConsistent (bookingType : Option BookingType)
    (checkInTime checkOutTime : Option ClockTime) (durationValue : Option Nat)
    (gridCheckIn gridCheckOut : Bool) : Tx Unit :=
  if bookingType ≠ some .hourly then .ok () else do
    let checkIn ← orThrow checkInTime
      (.badRequest "HOURLY activities require checkInTime (HH:MM)")
    let checkOut ← orThrow checkOutTime
      (.badRequest "HOURLY activities require checkOutTime (HH:MM)")
    let duration ← orThrow durationValue
      (.badRequest "HOURLY activities require durationValue (hours)")
    ensure (gridCheckIn → checkIn.val % 30 = 0)
      (.badRequest "HOURLY checkInTime must be on the hour or half-hour (HH:00 or HH:30)")
    ensure (gridCheckOut → checkOut.val % 30 = 0)
      (.badRequest "HOURLY checkOutTime must be on the hour or half-hour (HH:00 or HH:30)")
    ensure (checkIn < checkOut) (.badRequest "checkOutTime must be after checkInTime")
    ensure (0 < duration * 60) (.badRequest "durationValue must be greater than 0")
    ensure (duration * 60 ≤ checkOut.val - checkIn.val) (.badRequest
      "durationValue exceeds the operating window (checkOutTime - checkInTime)")

/-- `assertUnitConfigConsistent`: with units on, there is a unit and it has room. -/
def assertUnitConfigConsistent (hasUnits : Option Bool) (unitCount unitCapacity : Option Nat) :
    Tx Unit :=
  if hasUnits ≠ some true then .ok () else do
    ensure (∃ n ∈ unitCount, 1 ≤ n) (.badRequest
      "Number of Units is required and must be at least 1 when Units is enabled")
    ensure (∃ n ∈ unitCapacity, 1 ≤ n) (.badRequest
      "Capacity per Unit is required and must be at least 1 when Units is enabled")

/-! ## Giving units to the bookings without one -/

/-- The live bookings of an activity: active, and not over. -/
def liveBookings (now : Instant) (db : Db) (activityId : Id) : List Booking :=
  db.bookings.select (fun b => b.activityId = activityId ∧ activeBookingFilter now b ∧
    b.endDatetime > now)

/-- The bookings that have a unit, by unit. -/
def slots (bookings : List Booking) : List (Nat × Booking) :=
  bookings.filterMap (fun b => b.unitNumber.map (fun unit => (unit, b)))

/-- A unit with these bookings has room for one more: a unit rented whole when
nothing overlaps it, else when the guests fit at the peak. -/
def roomInUnit (activity : Activity) (bookings : List Booking) (booking : Booking) : Bool :=
  let inUnit := bookings.filter (fun p =>
    p.overlaps booking.startDatetime booking.endDatetime)
  if rentsWholeUnit activity then inUnit.isEmpty
  else
    let peak := maxConcurrentInWindow inUnit booking.startDatetime booking.endDatetime
    peak + booking.guests ≤ activity.unitCapacity

/-- Oldest stay first, then by creation. -/
def byStay (a b : Booking) : Bool :=
  a.startDatetime < b.startDatetime ∨ a.startDatetime = b.startDatetime ∧
    (a.createdAt < b.createdAt ∨ a.createdAt = b.createdAt ∧ a.id ≤ b.id)

/-- The update of the bookings that were chosen a unit. -/
def writeUnit (chosen : List (Nat × Booking)) (db : Db) (unit : Nat) : Db :=
  let ids := (bin chosen unit).map Booking.id
  let bookings := db.bookings.updateMany (fun b => b.id ∈ ids)
    (fun b => { b with unitNumber := some unit })
  { db with bookings := bookings }

/-- One update for each unit. -/
def writeUnits (unitCount : Nat) (chosen : List (Nat × Booking)) (db : Db) : Db :=
  (List.range' 1 unitCount).foldl (writeUnit chosen) db

def outOfRangeMessage (unitCount : Nat) (outOfRange : List Booking) : String :=
  let refs := ((outOfRange.filterMap Booking.unitNumber).dedup.insertionSort (· ≤ ·)).map toString
  "Cannot apply this unit configuration (" ++ toString unitCount ++ " unit(s)): " ++
    toString outOfRange.length ++ " live booking(s) sit on unit number(s) " ++
    String.intercalate ", " refs ++ ", which are outside the valid range 1-" ++
    toString unitCount ++ ". Cancel or move those bookings first, otherwise their dates " ++
    "would be sold again."

def unassignableMessage (unitCount : Nat) (unassignable : List Booking) : String :=
  "Cannot enable units on this activity: " ++ toString unassignable.length ++
    " live booking(s) cannot fit into " ++ toString unitCount ++
    " unit(s) for their dates — they overlap each other. Resolve those bookings first, " ++
    "otherwise they would become invisible to the calendar and their dates sold again. " ++
    "Booking ids: " ++
    String.intercalate ", " (unassignable.map (fun b => toString b.id))

/-- `assignMissingUnits`: the bookings that have a unit stay in it, and must be
in one that exists; the others are packed around them. -/
def assignMissingUnits (now : Instant) (db : Db) (activityId : Id) : Tx Db :=
  match db.activities.find? activityId with
  | none => .ok db
  | some activity =>
      if ¬ activity.hasUnits ∨ activity.unitCount < 1 then .ok db else do
        let live := liveBookings now db activityId
        let placed := live.filter (fun b => b.unitNumber.isSome)
        let outOfRange := placed.filter (fun b =>
          ∃ unit ∈ b.unitNumber, unit < 1 ∨ unit > activity.unitCount)
        ensure (outOfRange = [])
          (.conflict (outOfRangeMessage activity.unitCount outOfRange))
        let unassigned := (live.filter (fun b => b.unitNumber.isNone)).insertionSort
          (fun a b => byStay a b)
        if unassigned = [] then return db else
          let packed := pack (roomInUnit activity) activity.unitCount (slots placed) unassigned
          ensure (packed.2 = []) (.conflict (unassignableMessage activity.unitCount packed.2))
          return writeUnits activity.unitCount (packed.1.drop (slots placed).length) db

/-! ## The two updates -/

/-- The first required column the update sets to null: the database client
refuses it. -/
def UpdateActivityDto.nullColumn? (dto : UpdateActivityDto) : Option String :=
  ([("titleEn", dto.titleEn.isNull), ("pricePerPerson", dto.pricePerPerson.isNull),
    ("bookingType", dto.bookingType.isNull), ("pricingModel", dto.pricingModel.isNull),
    ("hasUnits", dto.hasUnits.isNull), ("unitCount", dto.unitCount.isNull),
    ("unitCapacity", dto.unitCapacity.isNull), ("extraServices", dto.extraServices.isNull),
    ("activeDays", dto.activeDays.isNull), ("status", dto.status.isNull)].find?
      Prod.snd).map Prod.fst

/-- The capacity the merged units have together. -/
def UpdateActivityDto.unitsTotal (dto : UpdateActivityDto) (activity : Activity) : Option Nat :=
  let unitCount := dto.unitCount.required activity.unitCount
  if dto.hasUnits.required activity.hasUnits ∧ 0 < unitCount then
    some (unitCount * dto.unitCapacity.required activity.unitCapacity)
  else none

/-- The capacity the update writes.  A vendor's own value goes over the product
of the units, an administrator's under it. -/
def Operator.capacity (op : Operator) (dto : UpdateActivityDto) (activity : Activity) :
    Option Nat :=
  match op with
  | .vendor _ => dto.capacity.getD ((dto.unitsTotal activity).or activity.capacity)
  | .admin _ => (dto.unitsTotal activity).or (dto.capacity.getD activity.capacity)

/-- The status the update writes: a vendor's change of a live activity goes back
to review. -/
def Operator.activityStatus (op : Operator) (dto : UpdateActivityDto) (activity : Activity) :
    ActivityStatus :=
  match op with
  | .vendor _ => if activity.status = .active then .pending else activity.status
  | .admin _ => dto.status.required activity.status

/-- The row the update writes. -/
def UpdateActivityDto.row (dto : UpdateActivityDto) (op : Operator) (activity : Activity) :
    Activity :=
  { activity with
    titleEn := dto.titleEn.required activity.titleEn
    pricePerPerson := dto.pricePerPerson.required activity.pricePerPerson
    durationValue := dto.durationValue.getD activity.durationValue
    capacity := op.capacity dto activity
    bookingType := dto.bookingType.required activity.bookingType
    pricingModel := dto.pricingModel.required activity.pricingModel
    checkInTime := dto.checkInTime.getD activity.checkInTime
    checkOutTime := dto.checkOutTime.getD activity.checkOutTime
    hasUnits := dto.hasUnits.required activity.hasUnits
    unitCount := dto.unitCount.required activity.unitCount
    unitCapacity := dto.unitCapacity.required activity.unitCapacity
    cancellationPolicy := dto.cancellationPolicy.getD activity.cancellationPolicy
    extraServices := dto.extraServices.join.or activity.extraServices
    activeDays := dto.activeDays.required activity.activeDays
    status := op.activityStatus dto activity }

/-- The transaction: writes the row, then gives out the missing units. -/
def updateActivityTx (now : Instant) (db : Db) (op : Operator) (activity : Activity)
    (dto : UpdateActivityDto) (links : ActivityLinks) : Tx Db := do
  match dto.nullColumn? with
  | some column => throw (.nullColumn column)
  | none =>
      ensure links.found (.recordNotFound "Category or City")
      let activities := db.activities.update activity.id
        (fun a => { dto.row op activity with id := a.id })
      assignMissingUnits now { db with activities := activities } activity.id

/-- `updateActivity` of the vendor service. -/
def vendorUpdateActivity (now : Instant) (db : Db) (userId activityId : Id)
    (dto : UpdateActivityDto) (links : ActivityLinks) : Tx Db := do
  let vendor ← resolveVendor db userId
  let activity ← orThrow
    ((db.activities.find? activityId).filter (fun a => a.vendorId = vendor.id))
    (.notFound "Activity not found")
  ensure (¬ links.foreignCity) (.forbidden "City does not belong to your country")
  ensure (dto.hasUnits.required activity.hasUnits ∨
      ∃ capacity ∈ dto.capacity.orCurrent activity.capacity, 0 < capacity)
    (.badRequest "Capacity is required when units are not enabled")
  assertHourlyTimesConsistent (some (dto.bookingType.required activity.bookingType))
    (dto.checkInTime.orCurrent activity.checkInTime)
    (dto.checkOutTime.orCurrent activity.checkOutTime)
    (dto.durationValue.orCurrent activity.durationValue)
    dto.checkInTime.isSome dto.checkOutTime.isSome
  assertUnitConfigConsistent (some (dto.hasUnits.required activity.hasUnits))
    (some (dto.unitCount.required activity.unitCount))
    (some (dto.unitCapacity.required activity.unitCapacity))
  ensure (∀ total ∈ dto.unitsTotal activity, total ≤ 10000) (.badRequest
    "Total capacity (units × capacity per unit) cannot exceed 10000")
  updateActivityTx now db (.vendor userId) activity { dto with status := none } links

/-- `updateActivity` of the admin service: a null is a value of the merged
configuration here, where the vendor's is the current one. -/
def adminUpdateActivity (now : Instant) (db : Db) (adminUserId activityId : Id)
    (dto : UpdateActivityDto) (links : ActivityLinks) : Tx Db := do
  let activity ← orThrow (db.activities.find? activityId) (.notFound "Activity not found")
  assertHourlyTimesConsistent (some (dto.bookingType.required activity.bookingType))
    (dto.checkInTime.orCurrent activity.checkInTime)
    (dto.checkOutTime.orCurrent activity.checkOutTime)
    (dto.durationValue.orCurrent activity.durationValue)
    dto.checkInTime.isSome dto.checkOutTime.isSome
  let hasUnits := dto.hasUnits.getD (some activity.hasUnits)
  assertUnitConfigConsistent hasUnits (dto.unitCount.getD (some activity.unitCount))
    (dto.unitCapacity.getD (some activity.unitCapacity))
  ensure (hasUnits = some true ∨
      ∃ capacity ∈ dto.capacity.getD activity.capacity, 0 < capacity)
    (.badRequest "Capacity is required when units are not enabled")
  ensure (hasUnits = some true → ∀ total ∈ dto.unitsTotal activity, total ≤ 10000)
    (.badRequest "Total capacity (units × capacity per unit) cannot exceed 10000")
  updateActivityTx now db (.admin adminUserId) activity dto links

/-- `updateActivity`, of the service of who asks. -/
def updateActivity (now : Instant) (db : Db) (op : Operator) (activityId : Id)
    (dto : UpdateActivityDto) (links : ActivityLinks) : Tx Db :=
  match op with
  | .vendor userId => vendorUpdateActivity now db userId activityId dto links
  | .admin userId => adminUpdateActivity now db userId activityId dto links

end Jadwal
