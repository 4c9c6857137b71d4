import Jadwal.Loyalty

/-!
# The ledger is the balance

A user's `loyaltyPoints` is the sum of the deltas of the user's ledger
rows, and every row's `balanceAfter` is the sum of the deltas up to and
including it.  The law is kept by one posting, whatever the operation that
made it (`Booked.post`), so clamped reversals, rounding and unique-key
failures need no case of their own: a call either posts one row, changes
nothing, or throws and is rolled back.
-/

namespace Jadwal.Loyalty

open Outcome

/-- A call of the service, as some transaction makes it. -/
inductive Call
  | redeem (args : RedeemArgs)
  | refund (args : RefundArgs)
  | earn (args : EarnArgs)
  | reverseAwarded (args : ReverseAwardedArgs)
  | adjust (args : AdjustArgs)
  deriving DecidableEq

/-- The body of the call, run in a transaction of its own. -/
def Call.exec (db : Db) : Call → Tx Balance
  | .redeem args => Loyalty.redeem db args
  | .refund args => Loyalty.refund db args
  | .earn args => Loyalty.earn db args
  | .reverseAwarded args => Loyalty.reverseAwarded db args
  | .adjust args => Loyalty.adjust db args

/-- The committed state after the call: a throw discards its writes. -/
def Call.commit (db : Db) (call : Call) : Db :=
  match call.exec db with
  | .ok r => r.db
  | .error _ => db

/-- The committed state after a sequence of calls. -/
def commitAll (db : Db) (calls : List Call) : Db :=
  calls.foldl Call.commit db

/-- The ledger rows of a user, oldest first. -/
def rowsOf (db : Db) (userId : Id) : List LoyaltyLedger :=
  db.loyaltyLedger.filter (fun row => row.userId = userId)

/-- The sum of the deltas of a list of rows. -/
def deltaSum (rows : List LoyaltyLedger) : Cents :=
  (rows.map LoyaltyLedger.delta).sum

/-- Every row's `balanceAfter` is the sum of the deltas up to it. -/
def Running (rows : List LoyaltyLedger) : Prop :=
  ∀ pre row post, rows = pre ++ row :: post →
    row.balanceAfter = deltaSum pre + row.delta

/-- The user's balance and the user's rows agree. -/
structure Booked (db : Db) (userId : Id) : Prop where
  balance : ∃ user, db.users.find? userId = some user ∧
    user.loyaltyPoints = deltaSum (rowsOf db userId)
  running : Running (rowsOf db userId)

theorem deltaSum_snoc (rows : List LoyaltyLedger) (row : LoyaltyLedger) :
    deltaSum (rows ++ [row]) = deltaSum rows + row.delta := by
  simp [deltaSum]

/-- A row that carries the new sum extends a running list. -/
theorem Running.snoc {rows : List LoyaltyLedger} {row : LoyaltyLedger}
    (h : Running rows) (hrow : row.balanceAfter = deltaSum rows + row.delta) :
    Running (rows ++ [row]) := by
  intro pre r post heq
  rcases List.eq_nil_or_concat post with rfl | ⟨post, last, rfl⟩
  · obtain ⟨hpre, hr⟩ := List.append_inj' heq rfl
    obtain rfl : row = r := by simpa using hr
    rw [hrow, hpre]
  · rw [List.concat_eq_append, ← List.cons_append, ← List.append_assoc] at heq
    exact h pre r post (List.append_inj' heq rfl).1

/-- A posting appends one row to the rows of its own user. -/
theorem rowsOf_posted {db db' : Db} {row : LoyaltyLedger} (hp : Posted db db' row) :
    ∃ user row', db.users.find? row.userId = some user ∧
      db'.users.find? row.userId =
        some { user with loyaltyPoints := user.loyaltyPoints + row.delta } ∧
      rowsOf db' row.userId = rowsOf db row.userId ++ [row'] ∧
      row'.delta = row.delta ∧
      row'.balanceAfter = user.loyaltyPoints + row.delta := by
  obtain ⟨user, reason, huser, rfl⟩ := hp.moved
  refine ⟨user, { row with
    balanceAfter := user.loyaltyPoints + row.delta, reason := reason },
    huser, ?_, ?_, rfl, rfl⟩
  · simp [Table.find?_update, huser]
  · simp [rowsOf, List.filter_append]

/-- A posting leaves every other user's balance and rows alone. -/
theorem rowsOf_posted_other {db db' : Db} {row : LoyaltyLedger} {userId : Id}
    (hp : Posted db db' row) (hne : row.userId ≠ userId) :
    db'.users.find? userId = db.users.find? userId ∧
      rowsOf db' userId = rowsOf db userId := by
  obtain ⟨user, reason, _, rfl⟩ := hp.moved
  constructor
  · simp [Table.find?_update, Ne.symm hne]
  · simp [rowsOf, List.filter_append, hne]

/-- **One posting keeps the law**, for its own user and for every other. -/
theorem Booked.post {db db' : Db} {row : LoyaltyLedger} {userId : Id}
    (h : Booked db userId) (hp : Posted db db' row) : Booked db' userId := by
  obtain ⟨user, huser, hsum⟩ := h.balance
  by_cases he : row.userId = userId
  · subst he
    obtain ⟨owner, row', howner, hfind, hrows, hdelta, hafter⟩ := rowsOf_posted hp
    obtain rfl : owner = user := Option.some.inj (howner.symm.trans huser)
    refine ⟨⟨_, hfind, ?_⟩, ?_⟩
    · rw [hrows, deltaSum_snoc, hdelta, ← hsum]
    · rw [hrows]
      refine h.running.snoc ?_
      rw [hafter, hdelta, hsum]
  · obtain ⟨hfind, hrows⟩ := rowsOf_posted_other hp he
    exact ⟨⟨user, hfind ▸ huser, hrows ▸ hsum⟩, hrows ▸ h.running⟩

/-- A call that returns posts one row or changes nothing. -/
theorem Call.exec_posts {db : Db} {call : Call} {r : Balance}
    (h : call.exec db = .ok r) : r.db = db ∨ ∃ row, Posted db r.db row := by
  cases call with
  | redeem args =>
      obtain ⟨_, _, _, hp⟩ := redeem_posts h
      exact Or.inr ⟨_, hp⟩
  | refund args => exact Or.inr ⟨_, (refund_posts h).2⟩
  | earn args => exact Or.inr ⟨_, (earn_posts h).2⟩
  | reverseAwarded args =>
      obtain ⟨_, _, _, ⟨_, hsame⟩ | ⟨_, _, hp⟩⟩ := reverseAwarded_posts h
      · exact Or.inl hsame
      · exact Or.inr ⟨_, hp⟩
  | adjust args =>
      obtain ⟨_, _, _, hp⟩ := adjust_posts h
      exact Or.inr ⟨_, hp⟩

theorem Booked.commit {db : Db} {userId : Id} (h : Booked db userId)
    (call : Call) : Booked (call.commit db) userId := by
  unfold Call.commit
  cases hexec : call.exec db with
  | error e => exact h
  | ok r =>
      rcases Call.exec_posts hexec with hsame | ⟨row, hp⟩
      · exact hsame ▸ h
      · exact h.post hp

theorem Booked.commitAll {userId : Id} :
    ∀ (calls : List Call) {db : Db}, Booked db userId →
      Booked (commitAll db calls) userId := by
  intro calls
  induction calls with
  | nil => intro db h; exact h
  | cons call calls ih => intro db h; exact ih (h.commit call)

/-- **The loyalty ledger is the balance**: after any sequence of calls,
from a user with balance 0 and no rows, the balance is the sum of the
user's deltas, every row carries the sum up to it, and a call that throws
leaves the balances and the ledger as they were. -/
theorem balance_is_ledger (db : Db) (user : User)
    (huser : db.users.find? user.id = some user)
    (hzero : user.loyaltyPoints = 0)
    (hrows : ∀ row ∈ db.loyaltyLedger, row.userId ≠ user.id)
    (calls : List Call) :
    (∃ user', (commitAll db calls).users.find? user.id = some user' ∧
        user'.loyaltyPoints = deltaSum (rowsOf (commitAll db calls) user.id)) ∧
      (∀ pre row post, rowsOf (commitAll db calls) user.id = pre ++ row :: post →
        row.balanceAfter = deltaSum (pre ++ [row])) ∧
      ∀ call e, call.exec (commitAll db calls) = .error e →
        (commitAll db (calls ++ [call])).users = (commitAll db calls).users ∧
          (commitAll db (calls ++ [call])).loyaltyLedger =
            (commitAll db calls).loyaltyLedger := by
  have hnone : rowsOf db user.id = [] := by
    simpa [rowsOf, List.filter_eq_nil_iff] using hrows
  have h0 : Booked db user.id := by
    refine ⟨⟨user, huser, by simp [hnone, hzero, deltaSum]⟩, ?_⟩
    intro pre row post heq
    simp [hnone] at heq
  have h := h0.commitAll calls
  refine ⟨h.balance, ?_, ?_⟩
  · intro pre row post heq
    rw [deltaSum_snoc]
    exact h.running pre row post heq
  · intro call e he
    have hsame : Loyalty.commitAll db (calls ++ [call]) =
        Loyalty.commitAll db calls := by
      rw [Loyalty.commitAll, List.foldl_append]
      change Call.commit (Loyalty.commitAll db calls) call = _
      rw [Call.commit, he]
    rw [hsame]
    exact ⟨rfl, rfl⟩

/-- A user who earns 4, has 9 clawed back (clamped to 4) and is then
refused a redemption. -/
theorem balance_is_ledger_clamped :
    let db : Db := { users := ⟨[⟨1, 0, none, none⟩], by decide⟩ }
    let calls := [Call.earn ⟨1, 4, 7, ""⟩,
      Call.reverseAwarded ⟨1, 9, 7, .admin, none, ""⟩]
    (∃ user', (commitAll db calls).users.find? 1 = some user' ∧
        user'.loyaltyPoints = deltaSum (rowsOf (commitAll db calls) 1)) ∧
      (∀ pre row post, rowsOf (commitAll db calls) 1 = pre ++ row :: post →
        row.balanceAfter = deltaSum (pre ++ [row])) ∧
      ∀ call e, call.exec (commitAll db calls) = .error e →
        (commitAll db (calls ++ [call])).users = (commitAll db calls).users ∧
          (commitAll db (calls ++ [call])).loyaltyLedger =
            (commitAll db calls).loyaltyLedger :=
  balance_is_ledger { users := ⟨[⟨1, 0, none, none⟩], by decide⟩ }
    ⟨1, 0, none, none⟩ rfl rfl (by simp) _

end Jadwal.Loyalty
