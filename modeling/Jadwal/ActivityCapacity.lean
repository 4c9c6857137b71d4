import Jadwal.Reconfiguration
import Jadwal.SpecialPrices
import Jadwal.ActivityBlocks

/-!
# The capacity of an activity

An activity with units holds what they hold together, and one without has a
capacity of its own.  `createActivity` and the administrators'
`updateActivity` always leave it so; the vendors' writes a given capacity over
the product of the units, and a null over the capacity it has just checked
(`capacity_coherent_iff`).
-/

namespace Jadwal

open Outcome

/-! ## Creating an activity -/

/-- The fields of `CreateActivityDto`. -/
structure CreateActivityDto where
  titleEn : String
  categoryId : Id
  pricePerPerson : Cents
  bookingType : BookingType
  durationValue : Option Nat := none
  pricingModel : Patch PricingModel := none
  checkInTime : Option ClockTime := none
  checkOutTime : Option ClockTime := none
  capacity : Option Nat := none
  cancellationPolicy : Option String := none
  extraServices : Option (List ExtraService) := none
  activeDays : Patch (List String) := none
  hasUnits : Option Bool := none
  unitCount : Option Nat := none
  unitCapacity : Option Nat := none
  blocks : List CreateActivityBlockDto := []
  specialPrices : List (CivilDate × Cents) := []

/-- What the database answers about the slug, the category and the city of the request. -/
structure CreateActivityLinks where
  slugTaken : Bool := false
  categoryFound : Bool := true
  cityFound : Bool := true
  foreignCity : Bool := false

/-- The capacity the new row gets: the product of the units, or the one given. -/
def CreateActivityDto.newCapacity (dto : CreateActivityDto) : Option Nat :=
  match dto.hasUnits, dto.unitCount with
  | some true, some unitCount =>
      if 0 < unitCount then some (unitCount * dto.unitCapacity.getD 1) else dto.capacity
  | _, _ => dto.capacity

/-- The row of `activity.create`. -/
def CreateActivityDto.row (dto : CreateActivityDto) (id : Id) (vendor : Vendor) : Activity where
  id := id
  vendorId := vendor.id
  countryId := vendor.countryId
  categoryId := dto.categoryId
  titleEn := dto.titleEn
  pricePerPerson := dto.pricePerPerson
  durationValue := dto.durationValue
  capacity := dto.newCapacity
  bookingType := dto.bookingType
  pricingModel := dto.pricingModel.required .perPerson
  checkInTime := dto.checkInTime
  checkOutTime := dto.checkOutTime
  hasUnits := dto.hasUnits.getD false
  unitCount := if dto.hasUnits = some true then dto.unitCount.getD 0 else 0
  unitCapacity := if dto.hasUnits = some true then dto.unitCapacity.getD 1 else 1
  cancellationPolicy := dto.cancellationPolicy
  status := .pending
  extraServices := dto.extraServices
  activeDays := dto.activeDays.required []

/-- `createActivity` of the vendor service: the activity, its locks and its special prices, in
one transaction. -/
def createActivity (env : Env) (now : Instant) (db : Db) (userId : Id) (dto : CreateActivityDto)
    (links : CreateActivityLinks) : Tx Db := do
  let vendor ← resolveVendor db userId
  ensure (¬ links.slugTaken) (.conflict "Activity slug already taken")
  ensure links.categoryFound (.notFound "Category not found")
  ensure links.cityFound (.notFound "City not found")
  ensure (¬ links.foreignCity) (.forbidden "City does not belong to your country")
  ensure (dto.hasUnits = some true ∨ ∃ capacity ∈ dto.capacity, 0 < capacity)
    (.badRequest "Capacity is required when units are not enabled")
  assertHourlyTimesConsistent (some dto.bookingType) dto.checkInTime dto.checkOutTime
    dto.durationValue true true
  assertUnitConfigConsistent dto.hasUnits dto.unitCount dto.unitCapacity
  ensure (∀ total ∈ dto.newCapacity, total ≤ 10000) (.badRequest
    "Total capacity (units × capacity per unit) cannot exceed 10000")
  ensure (¬ dto.pricingModel.isNull) (.nullColumn "pricingModel")
  ensure (¬ dto.activeDays.isNull) (.nullColumn "activeDays")
  let activity := dto.row db.nextId vendor
  let activities ← orThrow (db.activities.insert? activity) (.uniqueViolation "id")
  let db ← forEach dto.blocks { db with activities := activities, nextId := db.nextId + 1 }
    (fun db b => do
      let created ← createActivityBlockCore env now db activity b
      return created.1)
  forEach dto.specialPrices db (fun db sp => createSpecialPriceCore now db activity sp.1 sp.2)

/-! ## A coherent capacity -/

/-- With units the capacity is theirs together, and otherwise there is one. -/
def Activity.Coherent (a : Activity) : Prop :=
  (a.hasUnits = true → a.capacity = some (a.unitCount * a.unitCapacity) ∧
    1 ≤ a.unitCount * a.unitCapacity ∧ a.unitCount * a.unitCapacity ≤ 10000) ∧
  (a.hasUnits = false → ∃ capacity ∈ a.capacity, 0 < capacity)

instance (a : Activity) : Decidable a.Coherent :=
  inferInstanceAs (Decidable ((_ → _ ∧ _ ∧ _) ∧ (_ → ∃ capacity ∈ a.capacity, 0 < capacity)))

/-- The stored activities are coherent. -/
def CapacitiesCoherent (db : Db) : Prop := ∀ a ∈ db.activities.rows, a.Coherent

variable {env : Env} {now : Instant} {db db' : Db} {activity a : Activity}

theorem createManyBlocks_activities {rows : List BlockWindow}
    (h : createManyBlocks activity db rows = some db') : db'.activities = db.activities := by
  induction rows generalizing db with
  | nil =>
      obtain rfl := Option.some.inj h
      rfl
  | cons w rows ih =>
      obtain ⟨db₁, hfirst, hrest⟩ := Option.bind_eq_some_iff.mp h
      unfold insertBlock at hfirst
      simp only at hfirst
      split at hfirst
      case isTrue => exact nomatch hfirst
      case isFalse =>
        obtain ⟨blocks, _, rfl⟩ := Option.map_eq_some_iff.mp hfirst
        have hkept := ih hrest
        exact hkept

theorem createSpecialPriceCore_activities {date : CivilDate} {price : Cents}
    (h : createSpecialPriceCore now db activity date price = .ok db') :
    db'.activities = db.activities := by
  simp only [createSpecialPriceCore, bind_eq_ok, ensure_eq_ok] at h
  obtain ⟨_, _, _, _, _, _, _, _, h⟩ := h
  split at h
  · simp only [pure_eq_ok] at h
    rw [← h]
  · simp only [bind_eq_ok, pure_eq_ok] at h
    obtain ⟨_, _, rfl⟩ := h
    rfl

theorem assertUnitConfigConsistent_units {unitCount unitCapacity : Option Nat} {u : Unit}
    (h : assertUnitConfigConsistent (some true) unitCount unitCapacity = .ok u) :
    (∃ n ∈ unitCount, 1 ≤ n) ∧ ∃ n ∈ unitCapacity, 1 ≤ n := by
  simp only [assertUnitConfigConsistent, ne_eq, not_true_eq_false, if_false, bind_eq_ok,
    ensure_eq_ok] at h
  obtain ⟨_, hcount, hcapacity⟩ := h
  exact ⟨hcount, hcapacity⟩

/-- A new activity is coherent, and its locks and prices touch no activity. -/
theorem createActivity_ok {userId : Id} {dto : CreateActivityDto} {links : CreateActivityLinks}
    (h : createActivity env now db userId dto links = .ok db') :
    ∃ created : Activity, created.Coherent ∧
      db'.activities.rows = db.activities.rows ++ [created] := by
  simp only [createActivity, bind_eq_ok, ensure_eq_ok, orThrow_eq_ok] at h
  obtain ⟨vendor, _, _, _, _, _, _, _, _, _, _, hcapacity, _, _, _, hunits, _, hmax, _, _, _, _,
    activities, hinsert, db₁, hblocks, hprices⟩ := h
  have hkept : db'.activities = activities := by
    have hlocked : db₁.activities = activities :=
      forEach_invariant (fun db => db.activities = activities) (fun b _ s s' hs hstep => by
        simp only [createActivityBlockCore, bind_eq_ok, orThrow_eq_ok, pure_eq_ok] at hstep
        obtain ⟨_, ⟨_, _, _, hrows, rfl⟩, rfl⟩ := hstep
        exact (createManyBlocks_activities hrows).trans hs) hblocks rfl
    exact forEach_invariant (fun db => db.activities = activities) (fun sp _ s s' hs hstep =>
      (createSpecialPriceCore_activities hstep).trans hs) hprices hlocked
  refine ⟨dto.row db.nextId vendor, ⟨fun hon => ?_, fun hoff => ?_⟩, ?_⟩
  · -- units on: the product is written
    have hon : dto.hasUnits = some true := by
      have hon : dto.hasUnits.getD false = true := hon
      cases hhas : dto.hasUnits with
      | none => simp [hhas] at hon
      | some b => rw [hhas, Option.getD_some] at hon; rw [hon]
    rw [hon] at hunits
    obtain ⟨⟨n, hn, hcount⟩, m, hm, hroom⟩ := assertUnitConfigConsistent_units hunits
    have hn : dto.unitCount = some n := hn
    have hm : dto.unitCapacity = some m := hm
    have htotal : dto.newCapacity = some (n * m) := by
      rw [CreateActivityDto.newCapacity, hon, hn, hm]
      exact if_pos hcount
    have hle := hmax (n * m) htotal
    simp only [CreateActivityDto.row, hon, hn, hm, if_true, Option.getD_some]
    exact ⟨htotal, Nat.mul_pos hcount hroom, hle⟩
  · have hoff : dto.hasUnits ≠ some true := by
      intro hon
      have hoff : dto.hasUnits.getD false = false := hoff
      rw [hon] at hoff
      simp at hoff
    have hgiven : dto.newCapacity = dto.capacity := by
      unfold CreateActivityDto.newCapacity
      split
      case h_1 hon _ => exact absurd hon hoff
      case h_2 => rfl
    obtain ⟨capacity, hcapacity, hpos⟩ := hcapacity.resolve_left hoff
    exact ⟨capacity, hgiven.trans hcapacity, hpos⟩
  · rw [hkept]
    exact (Table.insert?_eq_some.mp hinsert).2

/-! ## Changing an activity -/

/-- **The condition**: a vendor gives no capacity, or the one the activity has after the update:
that of its units together, or, without units, any. -/
def CapacityFits (op : Operator) (dto : UpdateActivityDto) (activity : Activity) : Prop :=
  match op with
  | .admin _ => True
  | .vendor _ => ∀ given ∈ dto.capacity,
      if dto.hasUnits.required activity.hasUnits then
        given = some (dto.unitCount.required activity.unitCount *
          dto.unitCapacity.required activity.unitCapacity)
      else given ≠ none

/-- What an accepted update has checked of the capacity, on the merged values. -/
structure CapacityChecked (op : Operator) (dto : UpdateActivityDto) (a : Activity) : Prop where
  units : (dto.row op a).hasUnits = true →
    1 ≤ (dto.row op a).unitCount ∧ 1 ≤ (dto.row op a).unitCapacity ∧
      (dto.row op a).unitCount * (dto.row op a).unitCapacity ≤ 10000
  capacity : (dto.row op a).hasUnits = false → ∃ capacity ∈ match op with
    | .vendor _ => dto.capacity.orCurrent a.capacity
    | .admin _ => dto.capacity.getD a.capacity, 0 < capacity

/-- The backfill touches no activity. -/
theorem assignMissingUnits_activities (ha : db.activities.find? a.id = some a)
    (h : assignMissingUnits now db a.id = .ok db') : db'.activities = db.activities := by
  rcases assignMissingUnits_ok ha h with ⟨_, rfl⟩ | ⟨_, packed, hb⟩
  · rfl
  · rw [hb.written, (writeUnits_rows _ _ _).2]

theorem unitsTotal_units {dto : UpdateActivityDto}
    (hon : dto.hasUnits.required a.hasUnits = true)
    (hcount : 1 ≤ dto.unitCount.required a.unitCount) :
    dto.unitsTotal a = some (dto.unitCount.required a.unitCount *
      dto.unitCapacity.required a.unitCapacity) := by
  rw [UpdateActivityDto.unitsTotal]
  exact if_pos ⟨hon, hcount⟩

theorem unitsTotal_none {dto : UpdateActivityDto}
    (hoff : dto.hasUnits.required a.hasUnits = false) : dto.unitsTotal a = none := by
  rw [UpdateActivityDto.unitsTotal]
  exact if_neg fun hon => Bool.false_ne_true (hoff.symm.trans hon.1)

/-- An accepted update has checked the merged capacity. -/
theorem updateActivity_checked {op : Operator} {activityId : Id} {dto : UpdateActivityDto}
    {links : ActivityLinks} (ha : db.activities.find? activityId = some a)
    (h : updateActivity now db op activityId dto links = .ok db') : CapacityChecked op dto a := by
  cases op with
  | vendor userId =>
      simp only [updateActivity, vendorUpdateActivity, bind_eq_ok, orThrow_eq_ok,
        ensure_eq_ok] at h
      obtain ⟨_, _, activity, hactivity, _, _, _, hguard, _, _, _, hunits, _, hmax, _⟩ := h
      obtain rfl := Option.some.inj (ha.symm.trans (Option.filter_eq_some_iff.mp hactivity).1)
      refine ⟨fun hon => ?_, fun hoff => ?_⟩
      · have hon : dto.hasUnits.required a.hasUnits = true := hon
        rw [hon] at hunits
        obtain ⟨⟨n, hn, hcount⟩, m, hm, hroom⟩ := assertUnitConfigConsistent_units hunits
        obtain rfl := Option.some.inj hn
        obtain rfl := Option.some.inj hm
        exact ⟨hcount, hroom, hmax _ (unitsTotal_units hon hcount)⟩
      · have hoff : dto.hasUnits.required a.hasUnits = false := hoff
        exact hguard.resolve_left fun hon => Bool.false_ne_true (hoff.symm.trans hon)
  | admin userId =>
      simp only [updateActivity, adminUpdateActivity, bind_eq_ok, orThrow_eq_ok,
        ensure_eq_ok] at h
      obtain ⟨activity, hfind, _, _, _, hunits, _, hguard, _, hmax, h⟩ := h
      obtain rfl := Option.some.inj (ha.symm.trans hfind)
      obtain ⟨hnull, _⟩ := updateActivityTx_ok h
      simp only [UpdateActivityDto.nullColumn?, Option.map_eq_none_iff, List.find?_eq_none,
        List.mem_cons, List.not_mem_nil, or_false, forall_eq_or_imp, forall_eq,
        Bool.not_eq_true] at hnull
      obtain ⟨-, -, -, -, hhas, hcount, hroom, -⟩ := hnull
      rw [Patch.getD_some hhas] at hunits hguard hmax
      rw [Patch.getD_some hcount, Patch.getD_some hroom] at hunits
      refine ⟨fun hon => ?_, fun hoff => ?_⟩
      · have hon : dto.hasUnits.required a.hasUnits = true := hon
        rw [hon] at hunits hmax
        obtain ⟨⟨n, hn, hcount⟩, m, hm, hroom⟩ := assertUnitConfigConsistent_units hunits
        obtain rfl := Option.some.inj hn
        obtain rfl := Option.some.inj hm
        exact ⟨hcount, hroom, hmax rfl _ (unitsTotal_units hon hcount)⟩
      · have hoff : dto.hasUnits.required a.hasUnits = false := hoff
        exact hguard.resolve_left fun hon =>
          Bool.false_ne_true (hoff.symm.trans (Option.some.inj hon))

/-- **The row an update writes is coherent exactly under the condition.** -/
theorem coherent_row_iff {op : Operator} {dto : UpdateActivityDto}
    (h : CapacityChecked op dto a) : (dto.row op a).Coherent ↔ CapacityFits op dto a := by
  by_cases hon : dto.hasUnits.required a.hasUnits = true
  · obtain ⟨hcount, hroom, hmax⟩ := h.units hon
    have htotal := unitsTotal_units hon hcount
    have hcoherent : (dto.row op a).Coherent ↔ op.capacity dto a =
        some (dto.unitCount.required a.unitCount * dto.unitCapacity.required a.unitCapacity) :=
      ⟨fun hc => (hc.1 hon).1, fun heq => ⟨fun _ => ⟨heq, Nat.mul_pos hcount hroom, hmax⟩,
        fun hoff => (Bool.false_ne_true (hoff.symm.trans hon)).elim⟩⟩
    rw [hcoherent]
    cases op with
    | admin userId =>
        rw [Operator.capacity, htotal]
        exact iff_of_true rfl trivial
    | vendor userId =>
        rw [Operator.capacity, htotal, CapacityFits]
        cases hgiven : dto.capacity with
        | none => exact iff_of_true rfl (fun given hg => nomatch hg)
        | some given => simp [hon]
  · have hoff : dto.hasUnits.required a.hasUnits = false := Bool.eq_false_iff.mpr hon
    obtain ⟨capacity, hcapacity, hpos⟩ := h.capacity hoff
    have hcoherent : (dto.row op a).Coherent ↔ ∃ capacity ∈ op.capacity dto a, 0 < capacity :=
      ⟨fun hc => hc.2 hoff, fun hex => ⟨fun hon' => (hon hon').elim, fun _ => hex⟩⟩
    rw [hcoherent]
    cases op with
    | admin userId =>
        rw [Operator.capacity, unitsTotal_none hoff]
        exact iff_of_true ⟨capacity, hcapacity, hpos⟩ trivial
    | vendor userId =>
        rw [Operator.capacity, unitsTotal_none hoff, CapacityFits]
        rcases hgiven : dto.capacity with _ | _ | value
        · rw [hgiven] at hcapacity
          exact iff_of_true ⟨capacity, hcapacity, hpos⟩ (fun given hg => nomatch hg)
        · simp [hoff]
        · rw [hgiven] at hcapacity
          obtain rfl := Option.some.inj hcapacity
          exact iff_of_true ⟨_, rfl, hpos⟩ (by simp [hoff])

/-- **Every activity keeps a coherent capacity**, through any accepted creation, and through an
accepted update exactly when its capacity fits: always an administrator's, and a vendor's that
gives none, or the one of the units, or any but null where there are none. -/
theorem capacity_coherent_iff (hcoherent : CapacitiesCoherent db) :
    (∀ userId dto links db', createActivity env now db userId dto links = .ok db' →
      CapacitiesCoherent db') ∧
    ∀ op activityId dto links db' a, updateActivity now db op activityId dto links = .ok db' →
      db.activities.find? activityId = some a →
        (CapacitiesCoherent db' ↔ CapacityFits op dto a) := by
  refine ⟨fun userId dto links db' h => ?_, fun op activityId dto links db' a h ha => ?_⟩
  · obtain ⟨created, hcreated, hrows⟩ := createActivity_ok h
    intro x hx
    rw [hrows, List.mem_append, List.mem_singleton] at hx
    rcases hx with hx | rfl
    · exact hcoherent x hx
    · exact hcreated
  · rw [← coherent_row_iff (updateActivity_checked ha h)]
    obtain ⟨_, hassign⟩ := updateActivity_ok ha h
    obtain ⟨hmem, rfl⟩ := Table.find?_eq_some.mp ha
    replace ha : db.activities.find? a.id = some a := ha
    have hrow : (db.activities.update a.id (fun x => { dto.row op a with id := x.id })).find?
        a.id = some (dto.row op a) := by
      rw [Table.find?_update _ _ _ (by intro _; rfl), if_pos rfl, ha]
      rfl
    have hactivities := assignMissingUnits_activities (a := dto.row op a) hrow hassign
    constructor
    · intro hall
      refine hall _ ?_
      rw [hactivities]
      exact (Table.find?_eq_some.mp hrow).1
    · intro hwritten x hx
      rw [hactivities] at hx
      obtain ⟨y, hy, rfl⟩ := (@Table.mem_update _ _ _ _ db.activities a.id
        (fun x => { dto.row op a with id := x.id }) (fun _ => rfl) x).mp hx
      split
      · exact hwritten
      · exact hcoherent y hy

/-- The vendor of a boat of four seats, one unit, gives it a capacity of ninety-nine. -/
theorem vendor_overwrites_capacity :
    CapacitiesCoherent (trips boat (some 1)) ∧
      ∃ db', updateActivity 0 (trips boat (some 1)) (.vendor 3) 7
          { capacity := some (some 99) } {} = .ok db' ∧ ¬ CapacitiesCoherent db' := by
  refine ⟨fun a ha => by obtain rfl := List.mem_singleton.mp ha; decide, ?_⟩
  have hany : (updateActivity 0 (trips boat (some 1)) (.vendor 3) 7
      { capacity := some (some 99) } {}).toOption.any (fun db' =>
        (db'.activities.find? 7).any (fun a => ¬ a.Coherent)) = true := by
    decide +kernel
  obtain ⟨db', hok, hany⟩ := (Option.any_eq_true _ _).mp hany
  obtain ⟨a, ha, hincoherent⟩ := (Option.any_eq_true _ _).mp hany
  exact ⟨db', toOption_eq_some.mp hok, fun hall =>
    of_decide_eq_true hincoherent (hall a (Table.find?_eq_some.mp ha).1)⟩

/-- The vendor changes the title only. -/
theorem capacity_coherent_iff_boat :
    ∃ db', updateActivity 0 (trips boat (some 1)) (.vendor 3) 7
      { titleEn := some (some "Boat") } {} = .ok db' ∧ CapacitiesCoherent db' := by
  have hstored : CapacitiesCoherent (trips boat (some 1)) := by
    intro a ha
    obtain rfl := List.mem_singleton.mp ha
    decide
  have hany : (updateActivity 0 (trips boat (some 1)) (.vendor 3) 7
      { titleEn := some (some "Boat") } {}).toOption.isSome = true := by decide +kernel
  obtain ⟨db', hok⟩ := Option.isSome_iff_exists.mp hany
  have hok := toOption_eq_some.mp hok
  exact ⟨db', hok, ((@capacity_coherent_iff marketEnv 0 _ hstored).2 _ _ _ _ _ boat hok rfl).mpr
    (fun given hg => nomatch hg)⟩

end Jadwal
