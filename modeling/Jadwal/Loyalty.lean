import Jadwal.Schema

/-!
# The loyalty service

Every change of `User.loyaltyPoints` goes through this service.  Each
operation ends with the same two statements, the balance update and the
ledger insert; here that tail is `applyDelta`, and an operation is what it
computes and checks before it.

`Posted` says all a committed operation does: it moves one balance by one
delta and appends one row that carries the new balance.  Callers cite the
`_posts` lemmas and never unfold an operation.
-/

namespace Jadwal.Loyalty

open Outcome

structure RedeemArgs where
  userId : Id
  amount : ℚ
  bookingId : Id
  note : String
  deriving DecidableEq

structure RefundArgs where
  userId : Id
  amount : ℚ
  bookingId : Id
  source : LoyaltyLedgerSource
  actorType : LoyaltyActorType
  actorId : Option Id := none
  note : String
  deriving DecidableEq

structure EarnArgs where
  userId : Id
  amount : ℚ
  bookingId : Id
  note : String
  deriving DecidableEq

structure ReverseAwardedArgs where
  userId : Id
  amount : ℚ
  bookingId : Id
  actorType : LoyaltyActorType
  actorId : Option Id := none
  note : String
  deriving DecidableEq

structure AdjustArgs where
  userId : Id
  delta : ℚ
  actorId : Id
  reason : String
  deriving DecidableEq

/-- What an operation returns beside the new state. -/
structure Balance where
  db : Db
  balanceAfter : Cents
  appliedDelta : Cents

/-- `Number.EPSILON`. -/
def epsilon : ℚ := 1 / 2 ^ 52

/-- `Math.round((n + Number.EPSILON) * 100) / 100`, in hundredths. -/
def round2 (n : ℚ) : Cents := mathRound ((n + epsilon) * 100)

/-- The first value a `Decimal(12, 2)` column cannot hold. -/
def decimalLimit : Cents := 10 ^ 12

def assertPositive (value : Cents) (field : String) : Tx Unit :=
  ensure (0 < value) (.badRequest (field ++ " must be a positive amount"))

/-- The partial unique index of the ledger: at most one row per
`(bookingId, source)` with a booking. -/
def sourceFree (ledger : List LoyaltyLedger) (bookingId : Option Id)
    (source : LoyaltyLedgerSource) : Prop :=
  bookingId = none ∨
    ∀ row ∈ ledger, ¬ (row.bookingId = bookingId ∧ row.source = source)

instance (ledger : List LoyaltyLedger) (bookingId : Option Id)
    (source : LoyaltyLedgerSource) : Decidable (sourceFree ledger bookingId source) :=
  inferInstanceAs (Decidable (_ ∨ _))

def writeLedger (db : Db) (row : LoyaltyLedger) : Tx Db := do
  ensure (row.delta ≠ 0) (.badRequest "Ledger delta must be non-zero")
  let reason := String.ofList (sliceUnits 500 row.reason.toList)
  ensure (sourceFree db.loyaltyLedger row.bookingId row.source)
    (.uniqueViolation "loyalty_ledger_bookingId_source_uq")
  return { db with
    loyaltyLedger := db.loyaltyLedger ++ [{ row with reason := reason }] }

/-- The tail of every operation: moves the balance of `row.userId` by
`row.delta`, then appends `row` with the balance after the move. -/
def applyDelta (db : Db) (row : LoyaltyLedger) : Tx Balance := do
  let user ← orThrow (db.users.find? row.userId) (.recordNotFound "User")
  let balance := user.loyaltyPoints + row.delta
  ensure (balance < decimalLimit) (.badRequest "numeric field overflow")
  let users := db.users.update row.userId
    (fun u => { u with loyaltyPoints := balance })
  let db' ← writeLedger { db with users := users }
    { row with balanceAfter := balance }
  return ⟨db', balance, row.delta⟩

def redeem (db : Db) (args : RedeemArgs) : Tx Balance := do
  let amount := round2 args.amount
  assertPositive amount "amount"
  -- the guarded decrement: no row matches when the balance is too small
  let _ ← orThrow
    ((db.users.find? args.userId).filter (fun u => amount ≤ u.loyaltyPoints))
    (.conflict "Insufficient loyalty points")
  applyDelta db {
    userId := args.userId
    delta := -amount
    balanceAfter := 0
    source := .bookingRedeem
    bookingId := some args.bookingId
    actorType := .customer
    actorId := some args.userId
    reason := args.note }

def refund (db : Db) (args : RefundArgs) : Tx Balance := do
  let amount := round2 args.amount
  assertPositive amount "amount"
  applyDelta db {
    userId := args.userId
    delta := amount
    balanceAfter := 0
    source := args.source
    bookingId := some args.bookingId
    actorType := args.actorType
    actorId := args.actorId
    reason := args.note }

def earn (db : Db) (args : EarnArgs) : Tx Balance := do
  let amount := round2 args.amount
  assertPositive amount "amount"
  applyDelta db {
    userId := args.userId
    delta := amount
    balanceAfter := 0
    source := .bookingEarn
    bookingId := some args.bookingId
    actorType := .system
    actorId := none
    reason := args.note }

/-- The delta of the latest `BOOKING_EARN` row of the booking, or 0. -/
def getEarnedPoints (db : Db) (bookingId : Id) : Cents :=
  match db.loyaltyLedger.reverse.find?
      (fun row => row.bookingId = some bookingId ∧ row.source = .bookingEarn) with
  | some row => row.delta
  | none => 0

def computeEarnedPoints (totalPrice pointsDiscount pointsPerQar : ℚ) : Cents :=
  if pointsPerQar ≤ 0 then 0
  else
    let cashBasis := max 0 (totalPrice - pointsDiscount)
    round2 (cashBasis * pointsPerQar)

def clampNote (note : String) (requested balance : Cents) : String :=
  note ++ " (clamped from " ++ requested.toText ++ " — balance was " ++
    balance.toText ++ ")"

def reverseAwarded (db : Db) (args : ReverseAwardedArgs) : Tx Balance := do
  let requestedDebit := round2 args.amount
  assertPositive requestedDebit "amount"
  let current ← orThrow (db.users.find? args.userId) (.recordNotFound "User")
  let currentBalance := current.loyaltyPoints
  let actualDebit := round2 (min requestedDebit.toNum currentBalance.toNum)
  if actualDebit ≤ 0 then
    -- nothing left to claw back
    return ⟨db, currentBalance, 0⟩
  else
    applyDelta db {
      userId := args.userId
      delta := -actualDebit
      balanceAfter := 0
      source := .cancelReverseAwarded
      bookingId := some args.bookingId
      actorType := args.actorType
      actorId := args.actorId
      reason :=
        if actualDebit ≠ requestedDebit then
          clampNote args.note (-requestedDebit) currentBalance
        else args.note }

def adjust (db : Db) (args : AdjustArgs) : Tx Balance := do
  let delta := round2 args.delta
  ensure (delta ≠ 0) (.badRequest "Adjustment delta must be non-zero")
  let current ← orThrow (db.users.find? args.userId) (.recordNotFound "User")
  let currentBalance := current.loyaltyPoints
  let appliedDelta :=
    if delta < 0 then
      -round2 (min (-delta : Cents).toNum currentBalance.toNum)
    else delta
  applyDelta db {
    userId := args.userId
    delta := appliedDelta
    balanceAfter := 0
    source := .adminAdjust
    bookingId := none
    actorType := .admin
    actorId := some args.actorId
    reason :=
      if appliedDelta ≠ delta then clampNote args.reason delta currentBalance
      else args.reason }

/-! ## Rounding -/

/-- Rounding to hundredths leaves hundredths alone. -/
@[simp] theorem round2_toNum (c : Cents) : round2 c.toNum = c := by
  have hlow : (c : ℚ) ≤ ((c : ℚ) / 100 + epsilon) * 100 + 1 / 2 := by
    unfold epsilon
    linarith
  have hhigh : ((c : ℚ) / 100 + epsilon) * 100 + 1 / 2 < (c : ℚ) + 1 := by
    unfold epsilon
    linarith
  simpa [round2, mathRound, Cents.toNum] using
    Int.floor_eq_iff.mpr ⟨hlow, hhigh⟩

/-- The clamp of a debit to a balance, in hundredths. -/
@[simp] theorem round2_min_toNum (c d : Cents) :
    round2 (min c.toNum d.toNum) = min c d := by
  rcases le_total c d with h | h
  · have hq : c.toNum ≤ d.toNum := by
      have : (c : ℚ) ≤ (d : ℚ) := by exact_mod_cast h
      simpa [Cents.toNum] using div_le_div_of_nonneg_right this (by norm_num)
    rw [min_eq_left hq, min_eq_left h, round2_toNum]
  · have hq : d.toNum ≤ c.toNum := by
      have : (d : ℚ) ≤ (c : ℚ) := by exact_mod_cast h
      simpa [Cents.toNum] using div_le_div_of_nonneg_right this (by norm_num)
    rw [min_eq_right hq, min_eq_right h, round2_toNum]

/-! ## What a committed operation does -/

/-- `db'` is `db` with the delta of `row` added to its user's balance and
`row` appended to the ledger, up to its `balanceAfter` and `reason`. -/
structure Posted (db db' : Db) (row : LoyaltyLedger) : Prop where
  nonzero : row.delta ≠ 0
  free : sourceFree db.loyaltyLedger row.bookingId row.source
  moved : ∃ user reason, db.users.find? row.userId = some user ∧
    db' = { db with
      users := db.users.update row.userId
        (fun u => { u with loyaltyPoints := user.loyaltyPoints + row.delta })
      loyaltyLedger := db.loyaltyLedger ++
        [{ row with
            balanceAfter := user.loyaltyPoints + row.delta, reason := reason }] }

/-- `ledger'` is `ledger` with `row` appended to it, up to its
`balanceAfter` and `reason`; the row has a delta, and no row had its
booking and source. -/
def Appended (ledger ledger' : List LoyaltyLedger) (row : LoyaltyLedger) : Prop :=
  row.delta ≠ 0 ∧ sourceFree ledger row.bookingId row.source ∧ ∃ balanceAfter reason,
    ledger' = ledger ++ [{ row with balanceAfter := balanceAfter, reason := reason }]

theorem Posted.appended {db db' : Db} {row : LoyaltyLedger} (h : Posted db db' row) :
    Appended db.loyaltyLedger db'.loyaltyLedger row := by
  obtain ⟨user, reason, _, rfl⟩ := h.moved
  exact ⟨h.nonzero, h.free, _, _, rfl⟩

theorem applyDelta_posts {db : Db} {row : LoyaltyLedger} {r : Balance}
    (h : applyDelta db row = .ok r) : Posted db r.db row := by
  simp only [applyDelta, writeLedger, bind_eq_ok, orThrow_eq_ok, ensure_eq_ok,
    pure_eq_ok] at h
  obtain ⟨user, huser, _, _, db', ⟨_, hne, _, hfree, rfl⟩, rfl⟩ := h
  exact ⟨hne, hfree, user, _, huser, rfl⟩

theorem redeem_posts {db : Db} {args : RedeemArgs} {r : Balance}
    (h : redeem db args = .ok r) :
    0 < round2 args.amount ∧
      (∃ u, db.users.find? args.userId = some u ∧
        round2 args.amount ≤ u.loyaltyPoints) ∧
      ∃ note, Posted db r.db {
        userId := args.userId, delta := -round2 args.amount, balanceAfter := 0,
        source := .bookingRedeem, bookingId := some args.bookingId,
        actorType := .customer, actorId := some args.userId, reason := note } := by
  simp only [redeem, assertPositive, bind_eq_ok, orThrow_eq_ok, ensure_eq_ok] at h
  obtain ⟨_, hpos, u, hu, hr⟩ := h
  rw [Option.filter_eq_some_iff] at hu
  exact ⟨hpos, ⟨u, hu.1, by simpa using hu.2⟩, _, applyDelta_posts hr⟩

theorem refund_posts {db : Db} {args : RefundArgs} {r : Balance}
    (h : refund db args = .ok r) :
    0 < round2 args.amount ∧ Posted db r.db {
      userId := args.userId, delta := round2 args.amount, balanceAfter := 0,
      source := args.source, bookingId := some args.bookingId,
      actorType := args.actorType, actorId := args.actorId,
      reason := args.note } := by
  simp only [refund, assertPositive, bind_eq_ok, ensure_eq_ok] at h
  obtain ⟨_, hpos, hr⟩ := h
  exact ⟨hpos, applyDelta_posts hr⟩

theorem earn_posts {db : Db} {args : EarnArgs} {r : Balance}
    (h : earn db args = .ok r) :
    0 < round2 args.amount ∧ Posted db r.db {
      userId := args.userId, delta := round2 args.amount, balanceAfter := 0,
      source := .bookingEarn, bookingId := some args.bookingId,
      actorType := .system, actorId := none, reason := args.note } := by
  simp only [earn, assertPositive, bind_eq_ok, ensure_eq_ok] at h
  obtain ⟨_, hpos, hr⟩ := h
  exact ⟨hpos, applyDelta_posts hr⟩

/-- A reversal either finds nothing to claw back and changes nothing, or
posts the award clamped to the balance. -/
theorem reverseAwarded_posts {db : Db} {args : ReverseAwardedArgs} {r : Balance}
    (h : reverseAwarded db args = .ok r) :
    0 < round2 args.amount ∧ ∃ u, db.users.find? args.userId = some u ∧
      ((min (round2 args.amount) u.loyaltyPoints ≤ 0 ∧ r.db = db) ∨
        (0 < min (round2 args.amount) u.loyaltyPoints ∧ ∃ note, Posted db r.db {
          userId := args.userId,
          delta := -min (round2 args.amount) u.loyaltyPoints,
          balanceAfter := 0, source := .cancelReverseAwarded,
          bookingId := some args.bookingId, actorType := args.actorType,
          actorId := args.actorId, reason := note })) := by
  simp only [reverseAwarded, assertPositive, bind_eq_ok, orThrow_eq_ok,
    ensure_eq_ok, round2_min_toNum] at h
  obtain ⟨_, hpos, u, hu, hr⟩ := h
  refine ⟨hpos, u, hu, ?_⟩
  by_cases hle : min (round2 args.amount) u.loyaltyPoints ≤ 0
  · rw [if_pos hle, pure_eq_ok] at hr
    exact Or.inl ⟨hle, by rw [← hr]⟩
  · rw [if_neg hle] at hr
    exact Or.inr ⟨not_le.mp hle, _, applyDelta_posts hr⟩

theorem adjust_posts {db : Db} {args : AdjustArgs} {r : Balance}
    (h : adjust db args = .ok r) :
    ∃ u note, db.users.find? args.userId = some u ∧ Posted db r.db {
      userId := args.userId,
      delta := if round2 args.delta < 0 then
          -min (-round2 args.delta) u.loyaltyPoints else round2 args.delta,
      balanceAfter := 0, source := .adminAdjust, bookingId := none,
      actorType := .admin, actorId := some args.actorId, reason := note } := by
  simp only [adjust, bind_eq_ok, orThrow_eq_ok, ensure_eq_ok,
    round2_min_toNum] at h
  obtain ⟨_, _, u, hu, hr⟩ := h
  exact ⟨u, _, hu, applyDelta_posts hr⟩

end Jadwal.Loyalty
