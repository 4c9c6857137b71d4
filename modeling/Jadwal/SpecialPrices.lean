import Jadwal.Months
import Jadwal.System

/-!
# Special prices

`expandSpecialPriceDates` turns a bulk request into a list of days, and
`createSpecialPriceCore` sets the price of each, updating the day's override
or creating one.

* The expansion is exactly the union of the days listed and the days of the
  range, or a refusal (`expandSpecialPriceDates_spec`).
* A bulk request prices exactly those days (`bulk_prices_exactly`).
-/

namespace Jadwal

open Outcome

/-! ## The request -/

structure BulkSpecialPriceDto where
  dates : List CivilDate := []
  startDate : Option CivilDate := none
  endDate : Option CivilDate := none
  price : Cents
  deriving DecidableEq, Repr

/-- `BULK_SPECIAL_PRICE_MAX_DATES`. -/
def bulkMaxDates : Nat := 200

/-- `SPECIAL_PRICE_MAX_ADVANCE_MONTHS`. -/
def specialPriceMaxAdvanceMonths : Int := 6

/-- `MAX_PRICE`, in cents. -/
def maxSpecialPrice : Cents := 100000000

/-- The days of a range from the cursor on.  The guard breaks the loop after
so many. -/
def rangeDays (last : Int) : Nat → Int → List CivilDate
  | 0, _ => []
  | room + 1, cursor =>
      if cursor ≤ last then CivilDate.ofDays cursor :: rangeDays last room (cursor + 1) else []

/-- The days listed and those of the range; `++guard > MAX + 1` is tested
after a day was added. -/
def requestedDates (dto : BulkSpecialPriceDto) : Tx (List CivilDate) :=
  if dto.startDate.isSome ∨ dto.endDate.isSome then
    match dto.startDate, dto.endDate with
    | some startDate, some endDate => do
        ensure (startDate.key ≤ endDate.key)
          (.badRequest "endDate must be on or after startDate")
        return dto.dates ++ rangeDays endDate.toDays (bulkMaxDates + 2) startDate.toDays
    | _, _ => throw (.badRequest "Both startDate and endDate are required for a range")
  else return dto.dates

def expandSpecialPriceDates (dto : BulkSpecialPriceDto) : Tx (List CivilDate) := do
  let set ← requestedDates dto
  let dates := set.dedup.insertionSort (fun a b => a.key ≤ b.key)
  ensure (dates.length ≠ 0)
    (.badRequest "Provide one or more dates, or a startDate and endDate range")
  ensure (dates.length ≤ bulkMaxDates)
    (.badRequest "Cannot set a special price for more than 200 dates at once")
  return dates

/-- The active overrides of an activity on a day. -/
def overridesOn (db : Db) (activityId : Id) (date : Instant) : List ActivitySpecialPrice :=
  db.specialPrices.select (fun s =>
    s.activityId = activityId ∧ s.deletedAt = none ∧ s.date = date)

/-- `createSpecialPriceCore`: updates the override of the day, or creates one. -/
def createSpecialPriceCore (now : Instant) (db : Db) (activity : Activity) (date : CivilDate)
    (price : Cents) : Tx Db := do
  ensure date.isValid (.badRequest "Invalid date")
  ensure ((utcDate now).key ≤ date.key)
    (.badRequest "Cannot set a special price for a past date")
  ensure (date.key ≤ ((utcDate now).addMonthsClamped specialPriceMaxAdvanceMonths).key)
    (.badRequest "Cannot set a special price more than 6 months ahead")
  ensure (0 < price ∧ price ≤ maxSpecialPrice) (.badRequest "Invalid price")
  match (overridesOn db activity.id date.midnight).head? with
  | some existing =>
      let specialPrices := db.specialPrices.update existing.id (fun s => { s with price := price })
      return { db with specialPrices := specialPrices }
  | none => do
      let specialPrices ← orThrow (db.specialPrices.insert?
        { id := db.nextId, activityId := activity.id, vendorId := activity.vendorId,
          date := date.midnight, price := price }) (.uniqueViolation "id")
      return { db with specialPrices := specialPrices, nextId := db.nextId + 1 }

/-- One price for many days; the caller runs it in a transaction. -/
def bulkCreateSpecialPricesCore (now : Instant) (db : Db) (activity : Activity)
    (dto : BulkSpecialPriceDto) : Tx Db := do
  let dates ← expandSpecialPriceDates dto
  forEach dates db (fun db date => createSpecialPriceCore now db activity date dto.price)

/-- What a transaction leaves: its writes, or the database as it was. -/
def afterTransaction (db : Db) (body : Tx Db) : Db := body.toOption.getD db

/-! ## The days asked for -/

namespace CivilDate

variable {d d' : CivilDate}

/-- The texts of real dates compare as the dates do. -/
theorem IsReal.key_lt_iff (h : d.IsReal) (h' : d'.IsReal) :
    d.key < d'.key ↔ d.toDays < d'.toDays := by
  obtain ⟨hm, hm', hd, hd'⟩ := h
  obtain ⟨gm, gm', gd, gd'⟩ := h'
  have hlong := (monthLength_bounds d.year d.month).2
  have hlong' := (monthLength_bounds d'.year d'.month).2
  have hreal : d.IsReal := ⟨hm, hm', hd, hd'⟩
  have hreal' : d'.IsReal := ⟨gm, gm', gd, gd'⟩
  rcases lt_trichotomy d.monthIndex d'.monthIndex with hlt | heq | hgt
  · refine iff_of_true ?_ (hreal.toDays_lt hreal' hlt)
    unfold monthIndex at hlt
    unfold key
    omega
  · have hdays := hreal.toDays_eq_monthOf
    have hdays' := hreal'.toDays_eq_monthOf
    rw [heq] at hdays
    unfold monthIndex at heq
    unfold key
    omega
  · refine iff_of_false ?_ (not_lt.mpr (hreal'.toDays_lt hreal hgt).le)
    unfold monthIndex at hgt
    unfold key
    omega

theorem IsReal.key_le_iff (h : d.IsReal) (h' : d'.IsReal) :
    d.key ≤ d'.key ↔ d.toDays ≤ d'.toDays := by
  rw [← not_lt, h'.key_lt_iff h, not_lt]

end CivilDate

/-- The union of the days listed and the days of the range. -/
def Asked (dto : BulkSpecialPriceDto) : Set CivilDate :=
  { d | d ∈ dto.dates ∨ ∃ startDate ∈ dto.startDate, ∃ endDate ∈ dto.endDate,
    d.IsReal ∧ startDate.toDays ≤ d.toDays ∧ d.toDays ≤ endDate.toDays }

/-- Every date of the request is one of the calendar. -/
structure BulkSpecialPriceDto.IsReal (dto : BulkSpecialPriceDto) : Prop where
  dates : ∀ d ∈ dto.dates, d.IsReal
  startDate : ∀ d ∈ dto.startDate, d.IsReal
  endDate : ∀ d ∈ dto.endDate, d.IsReal

/-- The range is given whole or not at all, and not inverted. -/
structure BulkSpecialPriceDto.RangeGiven (dto : BulkSpecialPriceDto) : Prop where
  both : dto.startDate.isSome = dto.endDate.isSome
  ordered : ∀ startDate ∈ dto.startDate, ∀ endDate ∈ dto.endDate,
    startDate.toDays ≤ endDate.toDays

variable {dto : BulkSpecialPriceDto}

theorem mem_rangeDays {last cursor : Int} {room : Nat} {d : CivilDate} :
    d ∈ rangeDays last room cursor ↔
      d.IsReal ∧ cursor ≤ d.toDays ∧ d.toDays ≤ last ∧ d.toDays < cursor + room := by
  induction room generalizing cursor with
  | zero =>
      simp only [rangeDays, List.not_mem_nil, false_iff]
      rintro ⟨_, hfrom, _, hroom⟩
      omega
  | succ room ih =>
      rw [rangeDays]
      split
      case isTrue hmore =>
        rw [List.mem_cons, ih]
        constructor
        · rintro (rfl | ⟨hreal, hfrom, hlast, hroom⟩)
          · have hdays := (CivilDate.toDays_ofDays cursor).1
            exact ⟨CivilDate.isReal_ofDays _, by omega, by omega, by omega⟩
          · exact ⟨hreal, by omega, hlast, by omega⟩
        · rintro ⟨hreal, hfrom, hlast, hroom⟩
          rcases hfrom.eq_or_lt with heq | hlt
          · exact .inl (heq ▸ hreal.ofDays_toDays.symm)
          · exact .inr ⟨hreal, by omega, hlast, by omega⟩
      case isFalse hmore =>
        simp only [List.not_mem_nil, false_iff]
        rintro ⟨_, hfrom, hlast, _⟩
        omega

theorem length_rangeDays {last cursor : Int} {room : Nat}
    (h : cursor + room ≤ last + 1) :
    (rangeDays last room cursor).length = room ∧ (rangeDays last room cursor).Nodup := by
  induction room generalizing cursor with
  | zero => exact ⟨rfl, List.nodup_nil⟩
  | succ room ih =>
      obtain ⟨hlength, hnodup⟩ := @ih (cursor + 1) (by omega)
      rw [rangeDays, if_pos (by omega), List.length_cons, hlength, List.nodup_cons]
      refine ⟨rfl, fun hmem => ?_, hnodup⟩
      have hfrom := (mem_rangeDays.mp hmem).2.1
      rw [(CivilDate.toDays_ofDays cursor).1] at hfrom
      omega

/-- **The days collected**: the union, or more than the maximum of it. -/
theorem requestedDates_ok (hreal : dto.IsReal) {set : List CivilDate}
    (h : requestedDates dto = .ok set) :
    dto.RangeGiven ∧ (∀ d ∈ set, d ∈ Asked dto) ∧
      ((∀ d ∈ Asked dto, d ∈ set) ∨ bulkMaxDates < set.dedup.length) := by
  unfold requestedDates at h
  cases hstart : dto.startDate with
  | none =>
      cases hend : dto.endDate with
      | none =>
          simp only [hstart, hend, Option.isSome_none, Bool.false_eq_true, or_self, if_false,
            pure_eq_ok] at h
          subst h
          refine ⟨⟨by rw [hstart, hend], fun d hd => ?_⟩, fun d hd => .inl hd, .inl ?_⟩
          · rw [hstart] at hd
            cases hd
          · rintro d (hd | ⟨startDate, hd, _⟩)
            · exact hd
            · rw [hstart] at hd
              cases hd
      | some endDate => simp [hstart, hend] at h
  | some startDate =>
      cases hend : dto.endDate with
      | none => simp [hstart, hend] at h
      | some endDate =>
          simp only [hstart, hend, Option.isSome_some, or_self, if_true, bind_eq_ok, ensure_eq_ok,
            pure_eq_ok] at h
          obtain ⟨_, hordered, rfl⟩ := h
          have hstartReal := hreal.startDate startDate hstart
          have hendReal := hreal.endDate endDate hend
          have hle := (hstartReal.key_le_iff hendReal).mp hordered
          refine ⟨⟨by rw [hstart, hend]; rfl, ?_⟩, fun d hd => ?_, ?_⟩
          · intro s hs e he
            obtain rfl := Option.some.inj (hstart.symm.trans hs)
            obtain rfl := Option.some.inj (hend.symm.trans he)
            exact hle
          · rcases List.mem_append.mp hd with hlisted | hrange
            · exact .inl hlisted
            · obtain ⟨hd, hfrom, hlast, _⟩ := mem_rangeDays.mp hrange
              exact .inr ⟨startDate, hstart, endDate, hend, hd, hfrom, hlast⟩
          · by_cases hlong : startDate.toDays + (bulkMaxDates + 2 : Nat) ≤ endDate.toDays + 1
            · -- the guard stopped the loop, beyond the maximum
              obtain ⟨hlength, hnodup⟩ := length_rangeDays hlong
              have hsub : rangeDays endDate.toDays (bulkMaxDates + 2) startDate.toDays ⊆
                  (dto.dates ++ rangeDays endDate.toDays (bulkMaxDates + 2)
                    startDate.toDays).dedup :=
                fun d hd => List.mem_dedup.mpr (List.mem_append_right _ hd)
              have hle := (hnodup.subperm hsub).length_le
              rw [hlength] at hle
              exact .inr (by omega)
            · refine .inl ?_
              rintro d (hd | ⟨s, hs, e, he, hd, hfrom, hlast⟩)
              · exact List.mem_append_left _ hd
              · obtain rfl := Option.some.inj (hstart.symm.trans hs)
                obtain rfl := Option.some.inj (hend.symm.trans he)
                exact List.mem_append_right _ (mem_rangeDays.mpr
                  ⟨hd, hfrom, hlast, by omega⟩)

theorem requestedDates_given (hreal : dto.IsReal) (h : dto.RangeGiven) :
    ∃ set, requestedDates dto = .ok set := by
  unfold requestedDates
  cases hstart : dto.startDate with
  | none =>
      have hend : dto.endDate = none := by
        have hboth := h.both
        rw [hstart] at hboth
        exact Option.not_isSome_iff_eq_none.mp (by simp [← hboth])
      exact ⟨dto.dates, by simp [hend]⟩
  | some startDate =>
      obtain ⟨endDate, hend⟩ : ∃ endDate, dto.endDate = some endDate := by
        have hboth := h.both
        rw [hstart] at hboth
        exact Option.isSome_iff_exists.mp hboth.symm
      have hordered : startDate.key ≤ endDate.key :=
        ((hreal.startDate startDate hstart).key_le_iff (hreal.endDate endDate hend)).mpr
          (h.ordered startDate hstart endDate hend)
      exact ⟨_, by simp [hend, ensure, hordered]; rfl⟩

theorem Asked.isReal (hreal : dto.IsReal) {d : CivilDate} (h : d ∈ Asked dto) : d.IsReal := by
  rcases h with hlisted | ⟨_, _, _, _, hd, _⟩
  · exact hreal.dates d hlisted
  · exact hd

/-- A list with the members of the union counts it. -/
theorem ncard_asked {l : List CivilDate} (hnodup : l.Nodup) (hmem : ∀ d, d ∈ l ↔ d ∈ Asked dto) :
    (Asked dto).ncard = l.length := by
  have hset : Asked dto = (l.toFinset : Set CivilDate) := by
    ext d
    rw [Finset.mem_coe, List.mem_toFinset, hmem]
  rw [hset, Set.ncard_coe_finset, List.toFinset_card_of_nodup hnodup]

/-- The union is finite. -/
theorem exists_asked (dto : BulkSpecialPriceDto) :
    ∃ l : List CivilDate, l.Nodup ∧ ∀ d, d ∈ l ↔ d ∈ Asked dto := by
  obtain ⟨range, hrange⟩ : ∃ range : List CivilDate, ∀ d, d ∈ range ↔
      ∃ startDate ∈ dto.startDate, ∃ endDate ∈ dto.endDate,
        d.IsReal ∧ startDate.toDays ≤ d.toDays ∧ d.toDays ≤ endDate.toDays := by
    cases hstart : dto.startDate with
    | none => exact ⟨[], by simp⟩
    | some startDate =>
        cases hend : dto.endDate with
        | none => exact ⟨[], by simp⟩
        | some endDate =>
            refine ⟨rangeDays endDate.toDays (endDate.toDays - startDate.toDays + 1).toNat
              startDate.toDays, fun d => ?_⟩
            rw [mem_rangeDays]
            constructor
            · rintro ⟨hd, hfrom, hlast, _⟩
              exact ⟨startDate, rfl, endDate, rfl, hd, hfrom, hlast⟩
            · intro ⟨s, hs, e, he, hd, hfrom, hlast⟩
              obtain rfl := Option.some.inj hs
              obtain rfl := Option.some.inj he
              exact ⟨hd, hfrom, hlast, by omega⟩
  refine ⟨(dto.dates ++ range).dedup, List.nodup_dedup _, fun d => ?_⟩
  rw [List.mem_dedup, List.mem_append, hrange]
  rfl

/-- What makes a request one that can be carried out: the range is whole, and the union has
a day and no more than the maximum. -/
structure Expandable (dto : BulkSpecialPriceDto) : Prop where
  range : dto.RangeGiven
  nonempty : (Asked dto).Nonempty
  size : (Asked dto).ncard ≤ bulkMaxDates

/-- The days in the order of their texts. -/
def sortDates (set : List CivilDate) : List CivilDate :=
  set.dedup.insertionSort (fun a b => a.key ≤ b.key)

theorem mem_sortDates {set : List CivilDate} {d : CivilDate} : d ∈ sortDates set ↔ d ∈ set := by
  rw [sortDates, (List.perm_insertionSort _ _).mem_iff, List.mem_dedup]

theorem length_sortDates (set : List CivilDate) :
    (sortDates set).length = set.dedup.length :=
  (List.perm_insertionSort _ _).length_eq

theorem nodup_sortDates (set : List CivilDate) : (sortDates set).Nodup :=
  (List.perm_insertionSort _ _).nodup_iff.mpr (List.nodup_dedup set)

/-- Real dates, each once, come out in the order of the calendar. -/
theorem sortDates_sorted {set : List CivilDate} (hreal : ∀ d ∈ set, d.IsReal) :
    (sortDates set).Pairwise (fun d d' => d.toDays < d'.toDays) := by
  have : Std.Total (fun a b : CivilDate => a.key ≤ b.key) := ⟨fun a b => le_total _ _⟩
  have : IsTrans CivilDate (fun a b => a.key ≤ b.key) := ⟨fun a b c => le_trans⟩
  have hsorted : (sortDates set).Pairwise (fun a b => a.key ≤ b.key) :=
    List.pairwise_insertionSort _ _
  refine (hsorted.and (nodup_sortDates set)).imp_of_mem fun {d d'} hd hd' h => ?_
  have hd := hreal d (mem_sortDates.mp hd)
  have hd' := hreal d' (mem_sortDates.mp hd')
  refine lt_of_le_of_ne ((hd.key_le_iff hd').mp h.1) fun heq => h.2 ?_
  exact hd.eq_of_toDays hd' heq

/-- **The expansion is the union or a refusal**: it is refused exactly when the range is
half-given or inverted, or the union is empty or larger than the maximum; otherwise it is the
union, sorted and without duplicates. -/
theorem expandSpecialPriceDates_spec (hreal : dto.IsReal) :
    ((∃ dates, expandSpecialPriceDates dto = .ok dates) ↔ Expandable dto) ∧
      ∀ dates, expandSpecialPriceDates dto = .ok dates →
        dates.Pairwise (fun d d' => d.toDays < d'.toDays) ∧ ∀ d, d ∈ dates ↔ d ∈ Asked dto := by
  have hok : ∀ dates, expandSpecialPriceDates dto = .ok dates → Expandable dto ∧
      dates.Pairwise (fun d d' => d.toDays < d'.toDays) ∧ ∀ d, d ∈ dates ↔ d ∈ Asked dto := by
    intro dates h
    simp only [expandSpecialPriceDates, bind_eq_ok, ensure_eq_ok, pure_eq_ok] at h
    obtain ⟨set, hset, _, hne, _, hmax, rfl⟩ := h
    change (sortDates set).length ≠ 0 at hne
    change (sortDates set).length ≤ bulkMaxDates at hmax
    obtain ⟨hrange, hsub, hall⟩ := requestedDates_ok hreal hset
    have hmem : ∀ d, d ∈ sortDates set ↔ d ∈ Asked dto := by
      intro d
      rw [mem_sortDates]
      refine ⟨hsub d, fun hd => ?_⟩
      rcases hall with hall | hmany
      · exact hall d hd
      · rw [length_sortDates] at hmax
        omega
    refine ⟨⟨hrange, ?_, ?_⟩, sortDates_sorted fun d hd => Asked.isReal hreal (hsub d hd), hmem⟩
    · obtain ⟨d, hd⟩ := List.exists_mem_of_length_pos (Nat.pos_of_ne_zero hne)
      exact ⟨d, (hmem d).mp hd⟩
    · rwa [ncard_asked (nodup_sortDates set) hmem]
  refine ⟨⟨fun hsome => hsome.elim fun dates h => (hok dates h).1, fun h => ?_⟩,
    fun dates h => (hok dates h).2⟩
  obtain ⟨set, hset⟩ := requestedDates_given hreal h.range
  obtain ⟨_, hsub, hall⟩ := requestedDates_ok hreal hset
  obtain ⟨l, hnodup, hl⟩ := exists_asked dto
  have hsize := h.size
  rw [ncard_asked hnodup hl] at hsize
  have hmax : (sortDates set).length ≤ bulkMaxDates := by
    have hsubset : sortDates set ⊆ l := fun d hd => (hl d).mpr (hsub d (mem_sortDates.mp hd))
    exact ((nodup_sortDates set).subperm hsubset).length_le.trans hsize
  have hall' := hall.resolve_right (by rw [← length_sortDates]; omega)
  have hne : (sortDates set).length ≠ 0 := by
    obtain ⟨d, hd⟩ := h.nonempty
    exact (List.length_pos_of_mem (mem_sortDates.mpr (hall' d hd))).ne'
  refine ⟨sortDates set, ?_⟩
  simp only [expandSpecialPriceDates, bind_eq_ok, ensure_eq_ok, pure_eq_ok]
  exact ⟨set, hset, (), hne, (), hmax, rfl⟩

/-- Whatever the expansion refuses, it refuses as a bad request. -/
theorem expandSpecialPriceDates_refused {e : HttpError}
    (h : expandSpecialPriceDates dto = .error e) : ∃ message, e = .badRequest message := by
  rcases bind_eq_error.mp h with h | ⟨set, _, h⟩
  · unfold requestedDates at h
    split at h
    · split at h
      · rcases bind_eq_error.mp h with h | ⟨_, _, h⟩
        · exact ⟨_, (ensure_eq_error.mp h).2.symm⟩
        · cases h
      · exact ⟨_, (Except.error.inj h).symm⟩
    · cases h
  · rcases bind_eq_error.mp h with h | ⟨_, _, h⟩
    · exact ⟨_, (ensure_eq_error.mp h).2.symm⟩
    · rcases bind_eq_error.mp h with h | ⟨_, _, h⟩
      · exact ⟨_, (ensure_eq_error.mp h).2.symm⟩
      · cases h

/-! ## The overrides of a day -/

/-- A stored set of overrides: at most one active for each day of an activity, which the
partial unique index keeps. -/
def PricesStored (db : Db) : Prop :=
  ∀ activityId date, (overridesOn db activityId date).length ≤ 1

/-- The day has one active override, at the price. -/
def PricedAt (db : Db) (activityId : Id) (price : Cents) (date : Instant) : Prop :=
  ∃ s, overridesOn db activityId date = [s] ∧ s.price = price

variable {now : Instant} {db db' : Db} {activity : Activity} {price : Cents}

/-- Every pricing reads the one override, the first row or the last. -/
theorem PricedAt.read {activityId : Id} {date : Instant} (h : PricedAt db activityId price date) :
    specialPriceOn db activityId date = some price ∧
      firstSpecialPriceOn db activityId date = some price := by
  obtain ⟨s, hlist, rfl⟩ := h
  constructor
  · exact congrArg (fun l => (l.getLast?).map ActivitySpecialPrice.price) hlist
  · rw [firstSpecialPriceOn, Table.first?, ← List.head?_filter]
    exact congrArg (fun l => (l.head?).map ActivitySpecialPrice.price) hlist

theorem mem_overridesOn {activityId : Id} {date : Instant} {s : ActivitySpecialPrice} :
    s ∈ overridesOn db activityId date ↔ s ∈ db.specialPrices.rows ∧
      s.activityId = activityId ∧ s.deletedAt = none ∧ s.date = date := by
  simp [overridesOn, Table.select]

/-- A rewrite that keeps what is looked for rewrites what is found. -/
theorem select_update_map {p : ActivitySpecialPrice → Bool}
    {f : ActivitySpecialPrice → ActivitySpecialPrice} {hf : ∀ s, (f s).id = s.id}
    (hp : ∀ s, p (f s) = p s) (t : Table ActivitySpecialPrice) (id : Id) :
    (t.update id f hf).select p = (t.select p).map (fun s => if s.id = id then f s else s) := by
  simp only [Table.select, Table.update, Table.updateMany, List.filter_map, decide_eq_true_eq]
  congr 1
  refine List.filter_congr fun s _ => ?_
  simp only [Function.comp]
  split
  · exact hp s
  · rfl

/-- The day has an override: its row takes the new price. -/
theorem pricedAt_update {date : Instant} {existing : ActivitySpecialPrice}
    (hstored : PricesStored db)
    (hfirst : (overridesOn db activity.id date).head? = some existing) :
    let db' : Db := { db with
      specialPrices := db.specialPrices.update existing.id (fun s => { s with price := price }) }
    PricesStored db' ∧ PricedAt db' activity.id price date ∧
      ∀ activityId other, (activityId ≠ activity.id ∨ other ≠ date) →
        overridesOn db' activityId other = overridesOn db activityId other := by
  intro db'
  have hmap : ∀ activityId other, overridesOn db' activityId other =
      (overridesOn db activityId other).map
        (fun s => if s.id = existing.id then { s with price := price } else s) :=
    fun activityId other => @select_update_map _ (fun s => { s with price := price })
      (fun _ => rfl) (fun _ => rfl) db.specialPrices existing.id
  have hexisting := mem_overridesOn.mp (List.mem_of_mem_head? hfirst)
  refine ⟨fun activityId other => ?_, ?_, fun activityId other hother => ?_⟩
  · rw [hmap, List.length_map]
    exact hstored activityId other
  · have hone := hstored activity.id date
    obtain ⟨rest, hlist⟩ := List.head?_eq_some_iff.mp hfirst
    rw [hlist, List.length_cons] at hone
    obtain rfl : rest = [] := List.length_eq_zero_iff.mp (by omega)
    refine ⟨{ existing with price := price }, ?_, rfl⟩
    rw [hmap, hlist, List.map_singleton, if_pos rfl]
  · rw [hmap]
    refine (List.map_congr_left fun s hs => ?_).trans (List.map_id _)
    refine if_neg fun hid => ?_
    -- the row rewritten is one of the day
    obtain ⟨hs, hactivity, _, hdate⟩ := mem_overridesOn.mp hs
    obtain rfl := Table.key_inj hs hexisting.1 hid
    rcases hother with h | h
    · exact h (hactivity.symm.trans hexisting.2.1)
    · exact h (hdate.symm.trans hexisting.2.2.2)

/-- The day has none: it gets a row. -/
theorem pricedAt_create {date : Instant} {specialPrices : Table ActivitySpecialPrice}
    (hstored : PricesStored db) (hnone : overridesOn db activity.id date = [])
    (hinsert : db.specialPrices.insert?
      { id := db.nextId, activityId := activity.id, vendorId := activity.vendorId, date := date,
        price := price } = some specialPrices) :
    let db' : Db := { db with specialPrices := specialPrices, nextId := db.nextId + 1 }
    PricesStored db' ∧ PricedAt db' activity.id price date ∧
      ∀ activityId other, (activityId ≠ activity.id ∨ other ≠ date) →
        overridesOn db' activityId other = overridesOn db activityId other := by
  intro db'
  obtain ⟨_, hrows⟩ := Table.insert?_eq_some.mp hinsert
  have hother : ∀ activityId other, (activityId ≠ activity.id ∨ other ≠ date) →
      overridesOn db' activityId other = overridesOn db activityId other := by
    intro activityId other h
    have hcreated : ¬ (activity.id = activityId ∧ date = other) := by
      rcases h with h | h
      · exact fun he => h he.1.symm
      · exact fun he => h he.2.symm
    simp only [overridesOn, Table.select, db', hrows, List.filter_append]
    refine (congrArg _ (List.filter_cons_of_neg ?_)).trans (List.append_nil _)
    simpa using fun h => not_and.mp hcreated h
  have hown : overridesOn db' activity.id date =
      [{ id := db.nextId, activityId := activity.id, vendorId := activity.vendorId, date := date,
         price := price }] := by
    have hbefore : db.specialPrices.rows.filter (fun s =>
        s.activityId = activity.id ∧ s.deletedAt = none ∧ s.date = date) = [] := hnone
    simp only [overridesOn, Table.select, db', hrows, List.filter_append, hbefore]
    simp
  refine ⟨fun activityId other => ?_, ⟨_, hown, rfl⟩, hother⟩
  by_cases h : activityId = activity.id ∧ other = date
  · rw [h.1, h.2, hown]
    exact le_refl 1
  · rw [hother activityId other (not_and_or.mp h)]
    exact hstored activityId other

/-- **One day**: it has one active override then, at the new price, and every other day those it
had. -/
theorem createSpecialPriceCore_ok {date : CivilDate} (hstored : PricesStored db)
    (h : createSpecialPriceCore now db activity date price = .ok db') :
    PricesStored db' ∧ PricedAt db' activity.id price date.midnight ∧
      ∀ activityId other, (activityId ≠ activity.id ∨ other ≠ date.midnight) →
        overridesOn db' activityId other = overridesOn db activityId other := by
  simp only [createSpecialPriceCore, bind_eq_ok, ensure_eq_ok] at h
  obtain ⟨_, _, _, _, _, _, _, _, h⟩ := h
  cases hfirst : (overridesOn db activity.id date.midnight).head? with
  | some existing =>
      simp only [hfirst, pure_eq_ok] at h
      subst h
      exact pricedAt_update hstored hfirst
  | none =>
      simp only [hfirst, bind_eq_ok, orThrow_eq_ok, pure_eq_ok] at h
      obtain ⟨specialPrices, hinsert, rfl⟩ := h
      exact pricedAt_create hstored (List.head?_eq_none_iff.mp hfirst) hinsert

/-- **Many days**: each has one active override at the price, and every day not among them
those it had. -/
theorem createSpecialPrices_ok {dates : List CivilDate}
    (h : forEach dates db (fun db date => createSpecialPriceCore now db activity date price) =
      .ok db') (hstored : PricesStored db) :
    PricesStored db' ∧ (∀ d ∈ dates, PricedAt db' activity.id price d.midnight) ∧
      ∀ activityId other, (activityId ≠ activity.id ∨ ∀ d ∈ dates, other ≠ d.midnight) →
        overridesOn db' activityId other = overridesOn db activityId other := by
  induction dates generalizing db with
  | nil =>
      simp only [forEach, Except.ok.injEq] at h
      subst h
      exact ⟨hstored, fun d hd => (List.not_mem_nil hd).elim, fun _ _ _ => rfl⟩
  | cons date dates ih =>
      simp only [forEach, bind_eq_ok] at h
      obtain ⟨db₁, hfirst, hrest⟩ := h
      obtain ⟨hstored₁, hpriced, hkept⟩ := createSpecialPriceCore_ok hstored hfirst
      obtain ⟨hstored', hall, hkept'⟩ := ih hrest hstored₁
      refine ⟨hstored', fun d hd => ?_, fun activityId other hother => ?_⟩
      · by_cases hagain : ∃ d' ∈ dates, d.midnight = d'.midnight
        · obtain ⟨d', hd', heq⟩ := hagain
          rw [heq]
          exact hall d' hd'
        · -- only the first day's own write touches it
          have hagain : ∀ d' ∈ dates, d.midnight ≠ d'.midnight :=
            fun d' hd' heq => hagain ⟨d', hd', heq⟩
          rcases List.mem_cons.mp hd with rfl | hd
          · obtain ⟨s, hs, hprice⟩ := hpriced
            exact ⟨s, (hkept' activity.id _ (.inr hagain)).trans hs, hprice⟩
          · exact hall d hd
      · rw [hkept', hkept]
        · exact hother.imp_right fun h => h date List.mem_cons_self
        · exact hother.imp_right fun h d hd => h d (List.mem_cons_of_mem _ hd)

/-- **A bulk request prices exactly the days asked for.**  Its expansion is refused exactly when
the range is half-given or inverted, or the union of the days listed and those of the range is
empty or larger than the maximum; otherwise it is that union, in order and each day once.  When the
request goes through, each of those days has one active override, at the new price, and every other
day those it had; when it fails, the transaction leaves everything as it was. -/
theorem bulk_prices_exactly (hreal : dto.IsReal) (hstored : PricesStored db) :
    ((∃ message, expandSpecialPriceDates dto = .error (.badRequest message)) ↔ ¬ Expandable dto) ∧
    (∀ dates, expandSpecialPriceDates dto = .ok dates →
      dates.Pairwise (fun d d' => d.toDays < d'.toDays) ∧ ∀ d, d ∈ dates ↔ d ∈ Asked dto) ∧
    (∀ db', bulkCreateSpecialPricesCore now db activity dto = .ok db' →
      (∀ d ∈ Asked dto, PricedAt db' activity.id dto.price d.midnight) ∧
      (∀ activityId date, (activityId ≠ activity.id ∨ ∀ d ∈ Asked dto, date ≠ d.midnight) →
        overridesOn db' activityId date = overridesOn db activityId date) ∧
      PricesStored db') ∧
    ∀ e, bulkCreateSpecialPricesCore now db activity dto = .error e →
      afterTransaction db (bulkCreateSpecialPricesCore now db activity dto) = db := by
  obtain ⟨hexpandable, hunion⟩ := expandSpecialPriceDates_spec hreal
  refine ⟨?_, hunion, fun db' h => ?_, fun e h => by rw [h]; rfl⟩
  · rw [← hexpandable]
    cases hexpand : expandSpecialPriceDates dto with
    | ok dates => simp
    | error e =>
        obtain ⟨message, rfl⟩ := expandSpecialPriceDates_refused hexpand
        simp
  · simp only [bulkCreateSpecialPricesCore, bind_eq_ok] at h
    obtain ⟨dates, hdates, hrun⟩ := h
    obtain ⟨_, hmem⟩ := hunion dates hdates
    obtain ⟨hstored', hpriced, hkept⟩ := createSpecialPrices_ok hrun hstored
    refine ⟨fun d hd => hpriced d ((hmem d).mpr hd), fun activityId date h => ?_, hstored'⟩
    exact hkept activityId date (h.imp_right fun h d hd => h d ((hmem d).mp hd))

/-- Three days at 50, one of them twice. -/
def holidayRequest : BulkSpecialPriceDto where
  dates := [⟨1970, 1, 3⟩, ⟨1970, 1, 2⟩]
  startDate := some ⟨1970, 1, 3⟩
  endDate := some ⟨1970, 1, 4⟩
  price := 5000

theorem bulk_prices_exactly_holiday :
    ∃ db', bulkCreateSpecialPricesCore 0 market.db marketActivity holidayRequest = .ok db' ∧
      ∀ d ∈ Asked holidayRequest, PricedAt db' marketActivity.id 5000 d.midnight := by
  have h₂ : CivilDate.IsReal ⟨1970, 1, 2⟩ := ⟨by decide, by decide, by decide, by decide⟩
  have h₃ : CivilDate.IsReal ⟨1970, 1, 3⟩ := ⟨by decide, by decide, by decide, by decide⟩
  have h₄ : CivilDate.IsReal ⟨1970, 1, 4⟩ := ⟨by decide, by decide, by decide, by decide⟩
  have hreal : holidayRequest.IsReal :=
    ⟨by simp [holidayRequest, h₂, h₃], by simp [holidayRequest, h₃],
      by simp [holidayRequest, h₄]⟩
  have hstored : PricesStored market.db := fun _ _ => Nat.zero_le 1
  have hruns : (bulkCreateSpecialPricesCore 0 market.db marketActivity
      holidayRequest).toOption.isSome = true := by decide +kernel
  obtain ⟨db', h⟩ := Option.isSome_iff_exists.mp hruns
  have h := toOption_eq_some.mp h
  exact ⟨db', h, ((bulk_prices_exactly hreal hstored).2.2.1 db' h).1⟩

end Jadwal
