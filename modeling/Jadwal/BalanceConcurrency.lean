import Jadwal.LedgerBalance
import Jadwal.Lib.Run

/-!
# Balances under Read Committed

The service's calls at the granularity of their SQL statements, for the
transactions of one user.  A transaction is a list of calls.  `redeem`,
`refund` and `earn` write the balance with a single `UPDATE`;
`reverseAwarded` and `adjust` first read it, clamp in memory and then
write an increment.  A statement sees the transaction's own write, or else
the committed balance at that moment; the first `UPDATE` takes the row
lock, which is held to the end of the transaction, so another
transaction's `UPDATE` waits.  A transaction can end without committing at
any point (a throw, a unique violation, a deadlock, a crash).

A debit clamped to a balance read earlier can drive the balance negative:
`balance_can_go_negative` is the three-statement run.  When no such write
debits more than the balance it meets, no committed state is negative.
-/

namespace Jadwal.Loyalty

/-- A transaction in flight: its remaining calls, the balance the call at
the head has read, and the transaction's own uncommitted balance.  The
last is present exactly when the transaction holds the row lock. -/
structure Session where
  calls : List Call
  readBalance : Option Cents := none
  own : Option Cents := none
  deriving DecidableEq

/-- The committed balance of the user and the transactions in flight. -/
structure World where
  balance : Cents
  sessions : List Session
  deriving DecidableEq

inductive Action
  | start (calls : List Call)
  | read (i : Nat)
  | write (i : Nat)
  | commit (i : Nat)
  | abort (i : Nat)

/-- The call reads the balance before it writes. -/
def Call.readsFirst : Call → Bool
  | .reverseAwarded _ => true
  | .adjust _ => true
  | _ => false

/-- The delta the call's `UPDATE` applies, given the balance it has read;
`none` when the call throws without writing. -/
def Call.delta (call : Call) (readBalance : Cents) : Option Cents :=
  match call with
  | .redeem args =>
      if 0 < round2 args.amount then some (-round2 args.amount) else none
  | .refund args =>
      if 0 < round2 args.amount then some (round2 args.amount) else none
  | .earn args =>
      if 0 < round2 args.amount then some (round2 args.amount) else none
  | .reverseAwarded args =>
      if 0 < round2 args.amount then
        some (-max 0 (round2 (min (round2 args.amount).toNum readBalance.toNum)))
      else none
  | .adjust args =>
      let delta := round2 args.delta
      let appliedDelta :=
        if delta < 0 then -round2 (min (-delta : Cents).toNum readBalance.toNum)
        else delta
      -- a zero delta is refused before or by the ledger write
      if delta = 0 ∨ appliedDelta = 0 then none else some appliedDelta

/-- The `WHERE` of `redeem`'s `UPDATE`: it matches no row when the balance
is too small, and the call throws. -/
def Call.matchesRow (call : Call) (current : Cents) : Bool :=
  match call with
  | .redeem args => round2 args.amount ≤ current
  | _ => true

/-- The user the call is about. -/
def Call.userId : Call → Id
  | .redeem args => args.userId
  | .refund args => args.userId
  | .earn args => args.userId
  | .reverseAwarded args => args.userId
  | .adjust args => args.userId

namespace World

/-- What a statement of the session sees. -/
def visible (w : World) (s : Session) : Cents := s.own.getD w.balance

/-- No transaction but `i` holds the row lock. -/
def lockFree (w : World) (i : Nat) : Bool :=
  w.sessions.zipIdx.all (fun p => p.2 = i ∨ p.1.own = none)

/-- Session `i` after its head call wrote `own`. -/
def advance (w : World) (i : Nat) (rest : List Call) (own : Option Cents) : World :=
  { w with sessions := w.sessions.set i ⟨rest, none, own⟩ }

/-- Ends session `i` and discards its writes. -/
def rollback (w : World) (i : Nat) : World :=
  { w with sessions := w.sessions.eraseIdx i }

/-- The `UPDATE` of the call at the head of session `i`; a call that throws
ends its transaction, and one that has nothing to write issues no
`UPDATE`. -/
def writeCall (w : World) (i : Nat) (s : Session) (call : Call)
    (rest : List Call) : Option World :=
  match call.delta (s.readBalance.getD 0) with
  | none => some (w.rollback i)
  | some delta =>
      if delta = 0 then some (w.advance i rest s.own)
      else if ¬ w.lockFree i then none
      else if call.matchesRow (w.visible s) then
        some (w.advance i rest (some (w.visible s + delta)))
      else some (w.rollback i)

/-- One statement of one transaction. -/
def step (w : World) : Action → Option World
  | .start calls => some { w with sessions := w.sessions ++ [{ calls := calls }] }
  | .read i =>
      match w.sessions[i]? with
      | some s => some { w with
          sessions := w.sessions.set i { s with readBalance := some (w.visible s) } }
      | none => none
  | .write i =>
      match w.sessions[i]? with
      | some s =>
          match s.calls with
          | [] => none
          | call :: rest =>
              if call.readsFirst ∧ s.readBalance = none then none
              else w.writeCall i s call rest
      | none => none
  | .commit i =>
      match w.sessions[i]? with
      | some s =>
          if s.calls = [] then
            some ⟨w.visible s, w.sessions.eraseIdx i⟩
          else none
      | none => none
  | .abort i => some (w.rollback i)

/-! ## The statements of one call, run alone -/

/-- A posting moves the stored balance by the row's delta. -/
theorem posted_balance {db db' : Db} {row : LoyaltyLedger} {user : User}
    (hp : Posted db db' row) (hu : db.users.find? row.userId = some user) :
    db'.users.find? row.userId =
      some { user with loyaltyPoints := user.loyaltyPoints + row.delta } := by
  obtain ⟨owner, _, howner, hfind, _⟩ := rowsOf_posted hp
  obtain rfl : owner = user := Option.some.inj (howner.symm.trans hu)
  exact hfind

/-- A call that returns moved its user's balance by the delta its `UPDATE`
applies, computed from the balance it read. -/
theorem exec_delta {db : Db} {call : Call} {r : Balance} {user : User}
    (h : call.exec db = .ok r) (hu : db.users.find? call.userId = some user) :
    ∃ delta, call.delta user.loyaltyPoints = some delta ∧
      call.matchesRow user.loyaltyPoints ∧
      r.db.users.find? call.userId =
        some { user with loyaltyPoints := user.loyaltyPoints + delta } := by
  cases call with
  | redeem args =>
      obtain ⟨hpos, ⟨u, hu', hle⟩, _, hp⟩ := redeem_posts h
      obtain rfl : u = user := Option.some.inj (hu'.symm.trans hu)
      exact ⟨_, by simp [Call.delta, hpos], by simpa [Call.matchesRow] using hle,
        posted_balance hp hu⟩
  | refund args =>
      obtain ⟨hpos, hp⟩ := refund_posts h
      exact ⟨_, by simp [Call.delta, hpos], rfl, posted_balance hp hu⟩
  | earn args =>
      obtain ⟨hpos, hp⟩ := earn_posts h
      exact ⟨_, by simp [Call.delta, hpos], rfl, posted_balance hp hu⟩
  | reverseAwarded args =>
      obtain ⟨hpos, u, hu', hcase⟩ := reverseAwarded_posts h
      obtain rfl : u = user := Option.some.inj (hu'.symm.trans hu)
      refine ⟨-max 0 (min (round2 args.amount) u.loyaltyPoints),
        by simp [Call.delta, hpos], rfl, ?_⟩
      rcases hcase with ⟨hle, hsame⟩ | ⟨hlt, _, hp⟩
      · rw [hsame, max_eq_left hle]
        simpa using hu
      · rw [max_eq_right hlt.le]
        exact posted_balance hp hu
  | adjust args =>
      obtain ⟨u, _, hu', hp⟩ := adjust_posts h
      obtain rfl : u = user := Option.some.inj (hu'.symm.trans hu)
      refine ⟨_, ?_, rfl, posted_balance hp hu⟩
      have hne := hp.nonzero
      by_cases hneg : round2 args.delta < 0
      · simp only [hneg, if_true] at hne ⊢
        simp [Call.delta, hneg, hneg.ne, hne]
      · simp only [hneg, if_false] at hne ⊢
        simp [Call.delta, hneg, hne]

/-- **The statements refine the service**: a call that returns is the run
of its own statements with nothing in between. -/
theorem exec_is_serial_run {db : Db} {call : Call} {r : Balance} {user : User}
    (h : call.exec db = .ok r) (hu : db.users.find? call.userId = some user) :
    ∃ user', r.db.users.find? call.userId = some user' ∧
      Run World.step (fun _ _ => True) ⟨user.loyaltyPoints, []⟩
        ⟨user'.loyaltyPoints, []⟩ := by
  obtain ⟨delta, hdelta, hmatch, hfind⟩ := exec_delta h hu
  refine ⟨_, hfind, Run.of_execAll [.start [call], .read 0, .write 0, .commit 0] ?_⟩
  by_cases hz : delta = 0
  · simp [execAll, World.step, World.writeCall, World.advance, World.visible,
      hdelta, hz]
  · simp [execAll, World.step, World.writeCall, World.advance, World.visible,
      World.lockFree, hdelta, hz, hmatch]

/-- The condition: a write of `reverseAwarded` or `adjust` debits no more
than the balance it meets. -/
def debitCovered (w : World) : Action → Bool
  | .write i =>
      match w.sessions[i]? with
      | some ⟨call :: _, readBalance, own⟩ =>
          match call.delta (readBalance.getD 0) with
          | some delta => !call.readsFirst || 0 ≤ own.getD w.balance + delta
          | none => true
      | _ => true
  | _ => true

theorem debitCovered_write {w : World} {i : Nat} {s : Session} {call : Call}
    {rest : List Call} {delta : Cents} (h : w.debitCovered (.write i))
    (hs : w.sessions[i]? = some s) (hcalls : s.calls = call :: rest)
    (hread : call.readsFirst = true)
    (hdelta : call.delta (s.readBalance.getD 0) = some delta) :
    0 ≤ w.visible s + delta := by
  obtain ⟨calls, readBalance, own⟩ := s
  obtain rfl : calls = call :: rest := hcalls
  simpa [debitCovered, hs, hdelta, hread, visible] using h

/-- No committed and no uncommitted balance is negative. -/
structure Solvent (w : World) : Prop where
  committed : 0 ≤ w.balance
  pending : ∀ s ∈ w.sessions, ∀ b, s.own = some b → 0 ≤ b

theorem Solvent.visible {w : World} (h : w.Solvent) {s : Session}
    (hs : s ∈ w.sessions) : 0 ≤ w.visible s := by
  unfold World.visible
  cases hown : s.own with
  | none => exact h.committed
  | some b => exact h.pending s hs b hown

theorem Solvent.rollback {w : World} (h : w.Solvent) (i : Nat) :
    (w.rollback i).Solvent :=
  ⟨h.committed, fun s hs => h.pending s (List.mem_of_mem_eraseIdx hs)⟩

theorem Solvent.set {w : World} (h : w.Solvent) (i : Nat) (s : Session)
    (hs : ∀ b, s.own = some b → 0 ≤ b) :
    Solvent { w with sessions := w.sessions.set i s } := by
  refine ⟨h.committed, ?_⟩
  intro s' hs'
  rcases List.mem_or_eq_of_mem_set hs' with hmem | rfl
  · exact h.pending s' hmem
  · exact hs

/-- The calls that do not read first either credit or are guarded by their
`WHERE`. -/
theorem unread_write_nonneg {call : Call} {r delta current : Cents}
    (hread : call.readsFirst = false) (hdelta : call.delta r = some delta)
    (hmatch : call.matchesRow current) (hcur : 0 ≤ current) :
    0 ≤ current + delta := by
  cases call with
  | redeem args =>
      simp only [Call.delta, Option.ite_none_right_eq_some,
        Option.some.injEq] at hdelta
      simp only [Call.matchesRow, decide_eq_true_eq] at hmatch
      lia
  | refund args =>
      simp only [Call.delta, Option.ite_none_right_eq_some,
        Option.some.injEq] at hdelta
      lia
  | earn args =>
      simp only [Call.delta, Option.ite_none_right_eq_some,
        Option.some.injEq] at hdelta
      lia
  | reverseAwarded args => cases hread
  | adjust args => cases hread

theorem Solvent.writeCall {w w' : World} (h : w.Solvent) {i : Nat} {s : Session}
    {call : Call} {rest : List Call} (hs : w.sessions[i]? = some s)
    (hcalls : s.calls = call :: rest) (hok : w.debitCovered (.write i))
    (hw : w.writeCall i s call rest = some w') : w'.Solvent := by
  have hmem : s ∈ w.sessions := List.mem_of_getElem? hs
  unfold World.writeCall at hw
  cases hdelta : call.delta (s.readBalance.getD 0) with
  | none =>
      rw [hdelta] at hw
      exact Option.some.inj hw ▸ h.rollback i
  | some delta =>
      simp only [hdelta] at hw
      split at hw
      · exact Option.some.inj hw ▸ h.set i _ (h.pending s hmem)
      · split at hw
        · cases hw
        · split at hw
          · rename_i hmatch
            refine Option.some.inj hw ▸ h.set i _ ?_
            intro b hb
            obtain rfl := Option.some.inj hb
            cases hread : call.readsFirst with
            | false => exact unread_write_nonneg hread hdelta hmatch (h.visible hmem)
            | true => exact debitCovered_write hok hs hcalls hread hdelta
          · exact Option.some.inj hw ▸ h.rollback i

theorem Solvent.step {w w' : World} {a : Action} (h : w.Solvent)
    (hok : w.debitCovered a) (hstep : w.step a = some w') : w'.Solvent := by
  cases a with
  | start calls =>
      obtain rfl := Option.some.inj hstep
      refine ⟨h.committed, ?_⟩
      intro s hs b hb
      rcases List.mem_append.mp hs with hs | hs
      · exact h.pending s hs b hb
      · rw [List.mem_singleton.mp hs] at hb
        cases hb
  | read i =>
      cases hs : w.sessions[i]? with
      | none => simp [World.step, hs] at hstep
      | some s =>
          simp only [World.step, hs, Option.some.injEq] at hstep
          exact hstep ▸ h.set i _ (h.pending s (List.mem_of_getElem? hs))
  | write i =>
      cases hs : w.sessions[i]? with
      | none => simp [World.step, hs] at hstep
      | some s =>
          cases hcalls : s.calls with
          | nil => simp [World.step, hs, hcalls] at hstep
          | cons call rest =>
              simp only [World.step, hs, hcalls] at hstep
              split at hstep
              · cases hstep
              · exact h.writeCall hs hcalls hok hstep
  | commit i =>
      cases hs : w.sessions[i]? with
      | none => simp [World.step, hs] at hstep
      | some s =>
          simp only [World.step, hs] at hstep
          split at hstep
          · obtain rfl := Option.some.inj hstep
            exact ⟨h.visible (List.mem_of_getElem? hs), (h.rollback i).pending⟩
          · cases hstep
  | abort i => exact Option.some.inj hstep ▸ h.rollback i

/-- **The committed balance stays non-negative** in every run whose
reversals and adjustments debit no more than the balance they meet. -/
theorem balance_nonneg {balance : Cents} (h0 : 0 ≤ balance) {w : World}
    (run : Run World.step (fun w a => w.debitCovered a) ⟨balance, []⟩ w) : 0 ≤ w.balance :=
  (run.invariant Solvent (fun _ _ _ h hok hstep => h.step hok hstep)
    ⟨h0, by simp⟩).committed

/-- The run in which an administrator's adjustment of -100 reads the
balance 100, a redemption of 60 commits, and the adjustment then writes. -/
def overdraft : List Action :=
  [.start [.adjust ⟨1, -100, 9, "correction"⟩], .read 0,
    .start [.redeem ⟨1, 60, 7, "booking"⟩], .write 1, .commit 1,
    .write 0, .commit 0]

/-- **A committed balance can be negative**: reading, clamping in memory
and writing an increment lets a redemption in between. -/
theorem balance_can_go_negative :
    ∃ w, Run World.step (fun _ _ => True) ⟨10000, []⟩ w ∧ w.balance < 0 := by
  exact ⟨⟨-6000, []⟩, Run.of_execAll overdraft (by decide +kernel), by decide⟩

/-- The same two transactions one after the other. -/
theorem balance_nonneg_serial :
    ∃ w, Run World.step (fun w a => w.debitCovered a) ⟨10000, []⟩ w ∧ 0 ≤ w.balance := by
  have run : Run World.step (fun w a => w.debitCovered a) ⟨10000, []⟩ ⟨0, []⟩ := by
    refine Run.of_execAll [.start [.redeem ⟨1, 60, 7, "booking"⟩], .write 0,
      .commit 0, .start [.adjust ⟨1, -100, 9, "correction"⟩], .read 0, .write 0,
      .commit 0] ?_
    decide +kernel
  exact ⟨_, run, balance_nonneg (by decide) run⟩

end World
end Jadwal.Loyalty
