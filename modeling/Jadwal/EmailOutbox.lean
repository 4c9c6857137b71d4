import Jadwal.Preview
import Jadwal.SnapshotJson

/-!
# The email outbox

`drain` reads the rows that are due and, one after another, sends each and
writes what came of it.  Reading, sending and writing are separate steps, so
a drain that outlives its leader lock overlaps the next one.  Every write is
guarded by the status and the number of attempts the drain had read.

`outbox_safe`: however drains interleave, attempts only grow and stay within
five, a row that was sent or given up does not change, and a row is given up
after five failed attempts each of which was counted.
-/

namespace Jadwal

inductive EmailOutboxType
  | bookingConfirmation
  | vendorBookingNotification
  deriving DecidableEq, Repr

inductive EmailOutboxStatus
  | pending
  | sent
  | failed
  deriving DecidableEq, Repr

structure OutboxRow where
  id : Id
  emailType : EmailOutboxType
  recipient : String
  payload : Json
  status : EmailOutboxStatus := .pending
  attempts : Nat := 0
  nextAttemptAt : Instant
  lastError : Option String := none
  sentAt : Option Instant := none
  failedAt : Option Instant := none

instance : Keyed OutboxRow Id := ⟨OutboxRow.id⟩

/-! ## One row -/

def outboxMaxAttempts : Nat := 5

def outboxBatchSize : Nat := 50

/-- What a call of the email service comes to: its answer, or the class of the
error it throws. -/
inductive SendOutcome
  | answered (ok : Bool)
  | threw (name : String)
  deriving DecidableEq, Repr

/-- Why an attempt failed.  `threw` is an error caught by the drain, of the
email service or of the database. -/
inductive FailureCause
  | unknownType
  | sendFailed
  | threw (name : String)
  deriving DecidableEq, Repr

def FailureCause.errKind : FailureCause → String
  | unknownType => "EMAIL_OUTBOX_UNKNOWN_TYPE"
  | sendFailed => "EMAIL_SEND_FAILED"
  | threw name => name

/-- A property of an object, absent on anything else. -/
def Json.prop? (key : String) : Json → Option Json
  | .obj fields => fields.lookup key
  | _ => none

def isFilledString : Option Json → Bool
  | some (.str s) => ¬ (trimSpace s.toList).isEmpty
  | _ => false

def isNumber : Option Json → Bool
  | some (.num _) => true
  | _ => false

def isOptionalString : Option Json → Bool
  | none | some (.str _) => true
  | _ => false

/-- The shape a vendor's notification needs. -/
def isVendorBookingNotificationPayload (payload : Json) : Bool :=
  ["vendorName", "bookingRef", "bookingId", "vendorSlug", "activityTitle", "date", "totalAmount",
      "currency", "customerName", "customerPhone"].all
    (fun k => isFilledString (payload.prop? k)) ∧
  isNumber (payload.prop? "guests") ∧
  isOptionalString (payload.prop? "time") ∧
  isOptionalString (payload.prop? "locationAddress")

/-- `dispatch`: `none` is sent. -/
def dispatch (row : OutboxRow) (send : SendOutcome) : Option FailureCause :=
  let sendEmail : Option FailureCause := match send with
    | .answered true => none
    | .answered false => some .sendFailed
    | .threw name => some (.threw name)
  match row.emailType with
  | .bookingConfirmation => sendEmail
  | .vendorBookingNotification =>
      if isVendorBookingNotificationPayload row.payload then sendEmail else some .unknownType

/-- The wait before the next attempt; `Math.floor(Math.random() * n)` is a
number below `n`. -/
def retryDelay (attempts roll : Nat) : Int :=
  let base : Nat := min (60000 * 4 ^ (attempts - 1)) (60 * 60000)
  base + (roll % min (base / 5) 30000 : Nat)

/-- The guard of every write: the row as the drain had read it. -/
def OutboxRow.unchanged (read row : OutboxRow) : Bool :=
  row.id = read.id ∧ row.status = .pending ∧ row.attempts = read.attempts

/-- The update to SENT. -/
def commitSent (now : Instant) (read row : OutboxRow) : OutboxRow :=
  { row with
    status := .sent
    sentAt := some now
    attempts := read.attempts + 1
    lastError := none }

/-- `scheduleRetryOrGiveUp`. -/
def scheduleRetryOrGiveUp (now : Instant) (roll : Nat) (cause : FailureCause)
    (read row : OutboxRow) : OutboxRow :=
  let attempts := read.attempts + 1
  let lastError := some (String.ofList (sliceUnits 300 cause.errKind.toList))
  if outboxMaxAttempts ≤ attempts then
    { row with
      status := .failed
      failedAt := some now
      attempts := attempts
      lastError := lastError }
  else
    { row with
      attempts := attempts
      lastError := lastError
      nextAttemptAt := now + retryDelay attempts roll }

/-! ## A drain -/

/-- A failed attempt that was counted: its row and the attempts the drain had
read. -/
structure CountedFailure where
  rowId : Id
  attempts : Nat
  cause : FailureCause
  deriving DecidableEq, Repr

/-- What a drain does next, with the rows still ahead of it. -/
inductive DrainStage
  | findMany
  | dispatch (row : OutboxRow) (rest : List OutboxRow)
  | commitSent (row : OutboxRow) (rest : List OutboxRow)
  | reschedule (row : OutboxRow) (cause : FailureCause) (caught : Bool) (rest : List OutboxRow)

def nextRow : List OutboxRow → Option DrainStage
  | [] => none
  | row :: rest => some (.dispatch row rest)

/-- What a drain meets outside: how the send goes, the error of a statement
and whether its write was kept all the same, the random number. -/
structure DrainInput where
  send : SendOutcome := .answered true
  fault : Option (String × Bool) := none
  roll : Nat := 0

/-- The rows after a statement, the failure it counted, and the next stage. -/
structure DrainResult where
  rows : Table OutboxRow
  counted : List CountedFailure
  next : Option DrainStage

/-- The updates of a drain, each guarded by what it had read. -/
inductive OutboxWrite
  | sent (row : OutboxRow)
  | failed (row : OutboxRow) (cause : FailureCause)

namespace OutboxWrite

def read : OutboxWrite → OutboxRow
  | sent row | failed row _ => row

def data (now : Instant) (roll : Nat) : OutboxWrite → OutboxRow → OutboxRow
  | sent read => commitSent now read
  | failed read cause => scheduleRetryOrGiveUp now roll cause read

theorem key_data (now : Instant) (roll : Nat) (w : OutboxWrite) (row : OutboxRow) :
    Keyed.key (w.data now roll row) = Keyed.key row := by
  cases w with
  | sent => rfl
  | failed =>
      simp only [data, scheduleRetryOrGiveUp]
      split <;> rfl

/-- `updateMany`. -/
def apply (now : Instant) (roll : Nat) (rows : Table OutboxRow) (w : OutboxWrite) :
    Table OutboxRow :=
  rows.updateMany w.read.unchanged (w.data now roll) (w.key_data now roll)

theorem mem_apply {now : Instant} {roll : Nat} {rows : Table OutboxRow} {w : OutboxWrite}
    {r : OutboxRow} : r ∈ (w.apply now roll rows).rows ↔
      ∃ row ∈ rows.rows, (if w.read.unchanged row then w.data now roll row else row) = r :=
  Table.mem_updateMany

/-- The failure the write counts, when it finds its row. -/
def counts (rows : Table OutboxRow) : OutboxWrite → List CountedFailure
  | sent _ => []
  | failed row cause =>
      if rows.rows.any row.unchanged then [⟨row.id, row.attempts, cause⟩] else []

end OutboxWrite

/-- The rows that are due, the longest due first. -/
def dueRows (now : Instant) (rows : Table OutboxRow) : List OutboxRow :=
  ((rows.select (fun r => r.status = .pending ∧ r.nextAttemptAt ≤ now)).insertionSort
    (fun a b => a.nextAttemptAt ≤ b.nextAttemptAt)).take outboxBatchSize

/-- One statement of a drain. -/
def DrainStage.run (now : Instant) (rows : Table OutboxRow) (input : DrainInput) :
    DrainStage → DrainResult
  | findMany =>
      ⟨rows, [], if input.fault.isSome then none else nextRow (dueRows now rows)⟩
  | dispatch row rest =>
      ⟨rows, [], match Jadwal.dispatch row input.send with
        | none => some (commitSent row rest)
        | some (.threw name) => some (reschedule row (.threw name) true rest)
        | some cause => some (reschedule row cause false rest)⟩
  | commitSent row rest =>
      let w := OutboxWrite.sent row
      match input.fault with
      | none => ⟨w.apply now input.roll rows, w.counts rows, nextRow rest⟩
      | some (name, kept) =>
          ⟨if kept then w.apply now input.roll rows else rows,
            if kept then w.counts rows else [], some (reschedule row (.threw name) true rest)⟩
  | reschedule row cause caught rest =>
      let w := OutboxWrite.failed row cause
      match input.fault with
      | none => ⟨w.apply now input.roll rows, w.counts rows, nextRow rest⟩
      | some (name, kept) =>
          ⟨if kept then w.apply now input.roll rows else rows,
            if kept then w.counts rows else [],
            if caught then none else some (reschedule row (.threw name) true rest)⟩

/-- **What a statement does to the outbox**: nothing, or one guarded write. -/
theorem DrainStage.run_cases (now : Instant) (rows : Table OutboxRow) (input : DrainInput)
    (stage : DrainStage) :
    ((stage.run now rows input).rows = rows ∧ (stage.run now rows input).counted = []) ∨
      ∃ w : OutboxWrite, (stage.run now rows input).rows = w.apply now input.roll rows ∧
        (stage.run now rows input).counted = w.counts rows := by
  cases stage with
  | findMany => exact .inl ⟨rfl, rfl⟩
  | dispatch row rest => exact .inl ⟨rfl, rfl⟩
  | commitSent row rest =>
      cases hfault : input.fault with
      | none => exact .inr ⟨.sent row, by simp [run, hfault], by simp [run, hfault]⟩
      | some fault =>
          obtain ⟨name, kept⟩ := fault
          cases kept with
          | false => exact .inl ⟨by simp [run, hfault], by simp [run, hfault]⟩
          | true => exact .inr ⟨.sent row, by simp [run, hfault], by simp [run, hfault]⟩
  | reschedule row cause caught rest =>
      cases hfault : input.fault with
      | none => exact .inr ⟨.failed row cause, by simp [run, hfault], by simp [run, hfault]⟩
      | some fault =>
          obtain ⟨name, kept⟩ := fault
          cases kept with
          | false => exact .inl ⟨by simp [run, hfault], by simp [run, hfault]⟩
          | true => exact .inr ⟨.failed row cause, by simp [run, hfault], by simp [run, hfault]⟩

/-! ## Drains that overlap -/

/-- The outbox, the drains under way and the failures counted so far. -/
structure Outbox where
  now : Instant
  nextId : Id
  rows : Table OutboxRow
  drains : List DrainStage
  counted : List CountedFailure

inductive OutboxAction
  | tick (now : Instant)
  /-- A payment enqueues an email. -/
  | enqueue (emailType : EmailOutboxType) (recipient : String) (payload : Json)
  /-- `cleanOldOutboxRows`. -/
  | prune (cutoff : Instant)
  | drain
  | advance (i : Nat) (input : DrainInput)
  /-- The process of a drain dies. -/
  | crash (i : Nat)

namespace Outbox

def terminalBefore (cutoff : Instant) (r : OutboxRow) : Bool :=
  r.status = .sent ∧ r.sentAt.any (fun t => t < cutoff) ∨
    r.status = .failed ∧ r.failedAt.any (fun t => t < cutoff)

def step (s : Outbox) : OutboxAction → Option Outbox
  | .tick now => if s.now ≤ now then some { s with now := now } else none
  | .enqueue emailType recipient payload =>
      (s.rows.insert? { id := s.nextId, emailType := emailType, recipient := recipient,
                        payload := payload, nextAttemptAt := s.now }).map
        (fun rows => { s with rows := rows, nextId := s.nextId + 1 })
  | .prune cutoff => some { s with rows := s.rows.deleteMany (terminalBefore cutoff) }
  | .drain => some { s with drains := s.drains ++ [.findMany] }
  | .advance i input => do
      let stage ← s.drains[i]?
      let result := stage.run s.now s.rows input
      return { s with
        rows := result.rows
        counted := s.counted ++ result.counted
        drains := match result.next with
          | some stage => s.drains.set i stage
          | none => s.drains.eraseIdx i }
  | .crash i => some { s with drains := s.drains.eraseIdx i }

/-- Nothing was ever enqueued. -/
structure Initial (s : Outbox) : Prop where
  rows : s.rows.rows = []
  drains : s.drains = []
  counted : s.counted = []

/-! ## Counting -/

/-- The attempts the counted failures of a row had read, in order. -/
def failuresOf (counted : List CountedFailure) (id : Id) : List Nat :=
  (counted.filter (fun f => f.rowId = id)).map CountedFailure.attempts

/-- The attempts of a row are its counted failures, and the send when it was
sent. -/
def RowCounted (counted : List CountedFailure) (row : OutboxRow) : Prop :=
  match row.status with
  | .pending => row.attempts < outboxMaxAttempts ∧
      failuresOf counted row.id = List.range row.attempts
  | .sent => ∃ failures, row.attempts = failures + 1 ∧ failures < outboxMaxAttempts ∧
      failuresOf counted row.id = List.range failures
  | .failed => row.attempts = outboxMaxAttempts ∧
      failuresOf counted row.id = List.range outboxMaxAttempts

structure Inv (s : Outbox) : Prop where
  known : ∀ row ∈ s.rows.rows, row.id < s.nextId
  knownFailure : ∀ f ∈ s.counted, f.rowId < s.nextId
  counted : ∀ row ∈ s.rows.rows, RowCounted s.counted row

@[simp] theorem failuresOf_append (counted more : List CountedFailure) (id : Id) :
    failuresOf (counted ++ more) id = failuresOf counted id ++ failuresOf more id := by
  simp [failuresOf]

theorem failuresOf_eq_nil {counted : List CountedFailure} {id : Id}
    (h : ∀ f ∈ counted, f.rowId ≠ id) : failuresOf counted id = [] := by
  rw [failuresOf, List.filter_eq_nil_iff.mpr (by simpa using h), List.map_nil]

/-- The guard, field by field. -/
theorem unchanged_iff {read row : OutboxRow} : read.unchanged row = true ↔
    row.id = read.id ∧ row.status = .pending ∧ row.attempts = read.attempts := by
  simp [OutboxRow.unchanged]

/-- A guarded write finds at most the row it had read. -/
theorem counts_failed {rows : Table OutboxRow} {read row : OutboxRow} {cause : FailureCause}
    (hrow : row ∈ rows.rows) (hread : row.id = read.id) :
    (OutboxWrite.failed read cause).counts rows =
      if read.unchanged row then [⟨read.id, read.attempts, cause⟩] else [] := by
  have hany : rows.rows.any read.unchanged = read.unchanged row := by
    rw [Bool.eq_iff_iff, List.any_eq_true]
    constructor
    · rintro ⟨other, hother, hmatch⟩
      have hid : other.id = row.id := (unchanged_iff.mp hmatch).1.trans hread.symm
      exact rows.key_inj hother hrow hid ▸ hmatch
    · intro hmatch
      exact ⟨row, hrow, hmatch⟩
  rw [OutboxWrite.counts, hany]

/-- The failures a write counts for another row. -/
theorem failuresOf_counts {rows : Table OutboxRow} {w : OutboxWrite} {id : Id}
    (h : w.read.id ≠ id) : failuresOf (w.counts rows) id = [] := by
  apply failuresOf_eq_nil
  intro f hf
  cases w with
  | sent => simp [OutboxWrite.counts] at hf
  | failed read cause =>
      simp only [OutboxWrite.counts] at hf
      split at hf
      · obtain rfl := List.mem_singleton.mp hf
        exact h
      · simp at hf

/-- **A write keeps the count of every row.** -/
theorem RowCounted.apply {now : Instant} {roll : Nat} {rows : Table OutboxRow}
    {counted : List CountedFailure} {w : OutboxWrite} {row : OutboxRow}
    (hrow : row ∈ rows.rows) (h : RowCounted counted row) :
    RowCounted (counted ++ w.counts rows)
      (if w.read.unchanged row then w.data now roll row else row) := by
  by_cases hmatch : w.read.unchanged row = true
  · rw [if_pos hmatch]
    obtain ⟨hid, hstatus, hattempts⟩ := unchanged_iff.mp hmatch
    simp only [RowCounted, hstatus] at h
    obtain ⟨hlt, hfailures⟩ := h
    cases w with
    | sent read =>
        have hid' : row.id = read.id := hid
        have hattempts' : row.attempts = read.attempts := hattempts
        refine ⟨read.attempts, rfl, hattempts' ▸ hlt, ?_⟩
        change failuresOf (counted ++ []) row.id = _
        rw [List.append_nil, hfailures, hattempts']
    | failed read cause =>
        have hid' : row.id = read.id := hid
        have hattempts' : row.attempts = read.attempts := hattempts
        have hmatch' : read.unchanged row = true := hmatch
        have hmore : failuresOf (counted ++ (OutboxWrite.failed read cause).counts rows) row.id =
            List.range (read.attempts + 1) := by
          rw [failuresOf_append, hfailures, counts_failed hrow hid', if_pos hmatch',
            List.range_succ, hattempts', failuresOf, List.filter_cons_of_pos (by simp [hid'])]
          rfl
        simp only [OutboxWrite.data, scheduleRetryOrGiveUp]
        split
        case isTrue hmax =>
          have hfive : read.attempts + 1 = outboxMaxAttempts := by omega
          refine ⟨hfive, ?_⟩
          rw [← hfive]
          exact hmore
        case isFalse hmax =>
          simp only [RowCounted, hstatus]
          exact ⟨by omega, hmore⟩
  · rw [if_neg hmatch]
    have hsame : failuresOf (counted ++ w.counts rows) row.id = failuresOf counted row.id := by
      rw [failuresOf_append]
      by_cases hid : w.read.id = row.id
      · cases w with
        | sent => simp [OutboxWrite.counts, failuresOf]
        | failed read cause =>
            have hmatch' : ¬ read.unchanged row = true := hmatch
            have hid' : row.id = read.id := Eq.symm hid
            rw [counts_failed hrow hid', if_neg hmatch']
            simp [failuresOf]
      · rw [failuresOf_counts hid, List.append_nil]
    unfold RowCounted at h ⊢
    rw [hsame]
    exact h

/-- Failures of other rows do not count. -/
theorem RowCounted.mono {counted more : List CountedFailure} {row : OutboxRow}
    (hmore : ∀ f ∈ more, f.rowId ≠ row.id) (h : RowCounted counted row) :
    RowCounted (counted ++ more) row := by
  unfold RowCounted at h ⊢
  rw [failuresOf_append, failuresOf_eq_nil hmore, List.append_nil]
  exact h

/-! ## What a step does -/

/-- What later becomes of a row: it stays or is updated while pending, and may
be pruned. -/
def Follows (before after : Option OutboxRow) : Prop :=
  ∀ row' ∈ after, ∃ row ∈ before, row.attempts ≤ row'.attempts ∧
    (row.status ≠ .pending → row' = row)

theorem Follows.refl (row : Option OutboxRow) : Follows row row :=
  fun row' h => ⟨row', h, le_rfl, fun _ => rfl⟩

/-- What becomes of a row, over two stretches. -/
theorem Follows.trans {a b c : Option OutboxRow} (h : Follows a b) (h' : Follows b c) :
    Follows a c := by
  intro row'' hc
  obtain ⟨row', hb, hle', hsame'⟩ := h' row'' hc
  obtain ⟨row, ha, hle, hsame⟩ := h row' hb
  refine ⟨row, ha, hle.trans hle', fun hterminal => ?_⟩
  obtain rfl := hsame hterminal
  exact hsame' hterminal

/-- **The step of the outbox**: an enqueued row, a pruning, a guarded write,
or nothing. -/
inductive Moves (s : Outbox) : Outbox → Prop
  | same (now : Instant) (drains : List DrainStage) :
      Moves s { s with now := now, drains := drains }
  | enqueued (row : OutboxRow) (rows : Table OutboxRow) (hid : row.id = s.nextId)
      (hfresh : row.status = .pending ∧ row.attempts = 0)
      (hinsert : s.rows.insert? row = some rows) :
      Moves s { s with rows := rows, nextId := s.nextId + 1 }
  | pruned (cutoff : Instant) :
      Moves s { s with rows := s.rows.deleteMany (terminalBefore cutoff) }
  | written (w : OutboxWrite) (roll : Nat) (drains : List DrainStage) :
      Moves s { s with
        rows := w.apply s.now roll s.rows
        counted := s.counted ++ w.counts s.rows
        drains := drains }

variable {s s' : Outbox} {a : OutboxAction}

/-- **What a step can do to the outbox.** -/
theorem step_moves (h : s.step a = some s') : s.Moves s' := by
  cases a with
  | tick now =>
      simp only [step, Option.ite_none_right_eq_some, Option.some.injEq] at h
      obtain ⟨_, rfl⟩ := h
      exact .same now s.drains
  | enqueue emailType recipient payload =>
      simp only [step, Option.map_eq_some_iff] at h
      obtain ⟨rows, hinsert, rfl⟩ := h
      exact .enqueued _ rows rfl ⟨rfl, rfl⟩ hinsert
  | prune cutoff =>
      obtain rfl := Option.some.inj h
      exact .pruned cutoff
  | drain =>
      obtain rfl := Option.some.inj h
      exact .same s.now _
  | crash i =>
      obtain rfl := Option.some.inj h
      exact .same s.now _
  | advance i input =>
      simp only [step, Option.bind_eq_bind, Option.bind_eq_some_iff, Option.pure_def,
        Option.some.injEq] at h
      obtain ⟨stage, _, rfl⟩ := h
      rcases stage.run_cases s.now s.rows input with ⟨hrows, hcounted⟩ | ⟨w, hrows, hcounted⟩
      · rw [hrows, hcounted, List.append_nil]
        exact .same s.now _
      · rw [hrows, hcounted]
        exact .written w input.roll _

/-- A step keeps the counts right. -/
theorem Inv.step (h : s.Inv) (hmoves : s.Moves s') : s'.Inv := by
  cases hmoves with
  | same now drains => exact ⟨h.known, h.knownFailure, h.counted⟩
  | enqueued row rows hid hfresh hinsert =>
      refine ⟨fun r hr => ?_, fun f hf => Nat.lt_succ_of_lt (h.knownFailure f hf),
        fun r hr => ?_⟩
      · rcases (Table.mem_of_insert? hinsert).mp hr with hold | rfl
        · exact Nat.lt_succ_of_lt (h.known r hold)
        · exact hid ▸ Nat.lt_succ_self _
      · rcases (Table.mem_of_insert? hinsert).mp hr with hold | rfl
        · exact h.counted r hold
        · have hnone : failuresOf s.counted r.id = [] :=
            failuresOf_eq_nil fun f hf => hid ▸ (h.knownFailure f hf).ne
          simp only [RowCounted, hfresh.1, hnone, hfresh.2]
          exact ⟨by decide, rfl⟩
  | pruned cutoff =>
      exact ⟨fun r hr => h.known r (Table.mem_deleteMany.mp hr).1, h.knownFailure,
        fun r hr => h.counted r (Table.mem_deleteMany.mp hr).1⟩
  | written w roll drains =>
      refine ⟨fun r hr => ?_, fun f hf => ?_, fun r hr => ?_⟩
      · obtain ⟨row, hrow, rfl⟩ := OutboxWrite.mem_apply.mp hr
        have hkey : (if w.read.unchanged row then w.data s.now roll row else row).id = row.id := by
          split
          · exact w.key_data s.now roll row
          · rfl
        exact hkey ▸ h.known row hrow
      · rcases List.mem_append.mp hf with hold | hnew
        · exact h.knownFailure f hold
        · cases w with
          | sent => simp [OutboxWrite.counts] at hnew
          | failed read cause =>
              simp only [OutboxWrite.counts] at hnew
              split at hnew
              case isTrue hany =>
                obtain rfl := List.mem_singleton.mp hnew
                obtain ⟨row, hrow, hmatch⟩ := List.any_eq_true.mp hany
                exact (unchanged_iff.mp hmatch).1 ▸ h.known row hrow
              case isFalse => simp at hnew
      · obtain ⟨row, hrow, rfl⟩ := OutboxWrite.mem_apply.mp hr
        exact (h.counted row hrow).apply hrow

/-- A row known before the step is followed after it. -/
theorem Moves.follows (hmoves : s.Moves s') {id : Id} (hid : id < s.nextId) :
    Follows (s.rows.find? id) (s'.rows.find? id) := by
  cases hmoves with
  | same now drains => exact .refl _
  | enqueued row rows hnew hfresh hinsert =>
      have hkey : Keyed.key row ≠ id := fun heq => (hid.ne (heq.symm.trans hnew)).elim
      have hsame : rows.find? id = s.rows.find? id := by
        rw [Table.find?_insert? hinsert, if_neg (Ne.symm hkey)]
      change Follows _ (rows.find? id)
      rw [hsame]
      exact .refl _
  | pruned cutoff =>
      intro row hrow
      rw [Table.find?_deleteMany] at hrow
      obtain ⟨hold, _⟩ := Option.filter_eq_some_iff.mp hrow
      exact ⟨row, hold, le_rfl, fun _ => rfl⟩
  | written w roll drains =>
      intro row' hrow'
      change (w.apply s.now roll s.rows).find? id = some row' at hrow'
      rw [OutboxWrite.apply, Table.find?_updateMany, Option.map_eq_some_iff] at hrow'
      obtain ⟨row, hrow, rfl⟩ := hrow'
      refine ⟨row, hrow, ?_⟩
      split
      case isTrue hmatch =>
        obtain ⟨_, hpending, hattempts⟩ := unchanged_iff.mp hmatch
        refine ⟨?_, fun hterminal => absurd hpending hterminal⟩
        rw [hattempts]
        cases w with
        | sent read => exact Nat.le_succ _
        | failed read cause =>
            simp only [OutboxWrite.data, scheduleRetryOrGiveUp]
            split <;> exact Nat.le_succ _
      case isFalse => exact ⟨le_rfl, fun _ => rfl⟩

/-- Pruning passes a pending row over. -/
theorem terminalBefore_pending {cutoff : Instant} {row : OutboxRow} (h : row.status = .pending) :
    terminalBefore cutoff row = false := by
  simp [terminalBefore, h]

/-- No step takes a pending row away. -/
theorem Moves.keeps (hmoves : s.Moves s') {row : OutboxRow} (hrow : row ∈ s.rows.rows)
    (hpending : row.status = .pending) : ∃ row' ∈ s'.rows.rows, row'.id = row.id := by
  cases hmoves with
  | same now drains => exact ⟨row, hrow, rfl⟩
  | enqueued new rows hid hfresh hinsert =>
      exact ⟨row, (Table.mem_of_insert? hinsert).mpr (.inl hrow), rfl⟩
  | pruned cutoff =>
      exact ⟨row, Table.mem_deleteMany.mpr ⟨hrow, terminalBefore_pending hpending⟩, rfl⟩
  | written w roll drains =>
      refine ⟨_, OutboxWrite.mem_apply.mpr ⟨row, hrow, rfl⟩, ?_⟩
      split
      case isTrue => exact w.key_data s.now roll row
      case isFalse => rfl

theorem Moves.nextId_le (hmoves : s.Moves s') : s.nextId ≤ s'.nextId := by
  cases hmoves with
  | enqueued => exact Nat.le_succ _
  | _ => exact le_rfl

/-! ## Every run -/

theorem Initial.inv (h : s.Initial) : s.Inv :=
  ⟨by simp [h.rows], by simp [h.counted], by simp [h.rows]⟩

theorem Inv.run {ok : Outbox → OutboxAction → Prop} (run : Run Outbox.step ok s s') (h : s.Inv) :
    s'.Inv :=
  run.invariant Inv (fun _ _ _ hinv _ hstep => hinv.step (step_moves hstep)) h

/-- What becomes of a row over a run. -/
theorem follows_run {ok : Outbox → OutboxAction → Prop} (run : Run Outbox.step ok s s') {id : Id}
    (hid : id < s.nextId) : id < s'.nextId ∧ Follows (s.rows.find? id) (s'.rows.find? id) := by
  induction run with
  | nil => exact ⟨hid, .refl _⟩
  | snoc run _ fire ih =>
      obtain ⟨hknown, hfollows⟩ := ih
      have hmoves := step_moves fire
      exact ⟨hknown.trans_le hmoves.nextId_le, hfollows.trans (hmoves.follows hknown)⟩

/-- A pending row is still there after a run, or was sent or given up on the way. -/
theorem keeps_run {ok : Outbox → OutboxAction → Prop} (run : Run Outbox.step ok s s')
    {row : OutboxRow} (hrow : row ∈ s.rows.rows) :
    (∃ row' ∈ s'.rows.rows, row'.id = row.id) ∨
      ∃ s₁, Run Outbox.step ok s s₁ ∧ Run Outbox.step ok s₁ s' ∧
        ∃ row₁ ∈ s₁.rows.rows, row₁.id = row.id ∧ row₁.status ≠ .pending := by
  induction run with
  | nil => exact .inl ⟨row, hrow, rfl⟩
  | snoc run guard fire ih =>
      rcases ih with ⟨row', hrow', hid⟩ | ⟨s₁, before, after, hended⟩
      · by_cases hpending : row'.status = .pending
        · obtain ⟨row'', hrow'', hid'⟩ := (step_moves fire).keeps hrow' hpending
          exact .inl ⟨row'', hrow'', hid'.trans hid⟩
        · exact .inr ⟨_, run, (Run.nil _).snoc guard fire, row', hrow', hid, hpending⟩
      · exact .inr ⟨s₁, before, after.snoc guard fire, hended⟩

/-- **Neither lost nor retried without end.**  After any steps of any drains, the attempts of a
row are at most five, and a row given up has five counted failures, which had read the attempts
0 to 4; from there on attempts never decrease, a row sent or given up stays as it is, and no other
row leaves the outbox. -/
theorem outbox_safe {ok : Outbox → OutboxAction → Prop} {s₀ : Outbox} (h₀ : s₀.Initial)
    (run : Run Outbox.step ok s₀ s) (later : Run Outbox.step ok s s') :
    (∀ row ∈ s.rows.rows, row.attempts ≤ outboxMaxAttempts ∧
      (row.status = .failed → failuresOf s.counted row.id = [0, 1, 2, 3, 4])) ∧
    (∀ row ∈ s.rows.rows, ∀ row' ∈ s'.rows.rows, row'.id = row.id →
      row.attempts ≤ row'.attempts ∧ (row.status = .sent ∨ row.status = .failed → row' = row)) ∧
    ∀ row ∈ s.rows.rows, (∃ row' ∈ s'.rows.rows, row'.id = row.id) ∨
      ∃ s₁, Run Outbox.step ok s s₁ ∧ Run Outbox.step ok s₁ s' ∧
        ∃ row₁ ∈ s₁.rows.rows, row₁.id = row.id ∧ row₁.status ≠ .pending := by
  have hinv : s.Inv := Inv.run run h₀.inv
  refine ⟨fun row hrow => ?_, fun row hrow row' hrow' hid => ?_,
    fun row hrow => keeps_run later hrow⟩
  · have hcounted := hinv.counted row hrow
    unfold RowCounted at hcounted
    cases hstatus : row.status with
    | pending =>
        rw [hstatus] at hcounted
        exact ⟨hcounted.1.le, fun h => nomatch h⟩
    | sent =>
        rw [hstatus] at hcounted
        obtain ⟨failures, hattempts, hlt, _⟩ := hcounted
        exact ⟨hattempts ▸ hlt, fun h => nomatch h⟩
    | failed =>
        rw [hstatus] at hcounted
        exact ⟨hcounted.1.le, fun _ => hcounted.2⟩
  · have hfind : s.rows.find? row.id = some row := Table.find?_key hrow
    have hfind' : s'.rows.find? row.id = some row' := hid ▸ Table.find?_key hrow'
    obtain ⟨_, hfollows⟩ := follows_run later (hinv.known row hrow)
    obtain ⟨old, hold, hle, hsame⟩ := hfollows row' hfind'
    obtain rfl := Option.some.inj (hfind.symm.trans hold)
    refine ⟨hle, fun hterminal => hsame ?_⟩
    rcases hterminal with h | h <;> rw [h] <;> decide

def empty : Outbox := ⟨0, 1, .empty, [], []⟩

/-- One drain that finds the row due and fails to send it, at the given time. -/
def failedDrain (now : Instant) : List OutboxAction :=
  [.tick now, .drain, .advance 0 {}, .advance 0 { send := .answered false }, .advance 0 {}]

/-- A confirmation that four drains failed to send. -/
def failedFourTimes : List OutboxAction :=
  .enqueue .bookingConfirmation "guest@example.com" .null ::
    (failedDrain 0 ++ failedDrain 100000 ++ failedDrain 1000000 ++ failedDrain 10000000)

/-- It is given up by a fifth drain; a sixth, which had read it before, finds nothing to write. -/
def givenUp : List OutboxAction :=
  [.tick 100000000, .drain, .advance 0 {}] ++
    [.drain, .advance 1 {}, .advance 1 { send := .threw "AbortError" }, .advance 1 {}] ++
    [.advance 0 { send := .answered true }, .advance 0 {}]

/-- A drain that overlaps another finds the row given up. -/
theorem outbox_safe_givenUp : ∃ s s', Run Outbox.step (fun _ _ => True) empty s ∧
    Run Outbox.step (fun _ _ => True) s s' ∧
    ∃ row ∈ s.rows.rows, row.status = .pending ∧ row.attempts = 4 ∧
      ∃ row' ∈ s'.rows.rows, row'.id = row.id ∧ row'.status = .failed ∧
        row'.lastError = some "AbortError" ∧ row.attempts ≤ row'.attempts := by
  have h : ((execAll Outbox.step (fun _ _ => True) empty failedFourTimes).bind fun s =>
      (execAll Outbox.step (fun _ _ => True) s givenUp).bind fun s' =>
        if (∃ row ∈ s.rows.rows, row.status = .pending ∧ row.attempts = 4 ∧
          ∃ row' ∈ s'.rows.rows, row'.id = row.id ∧ row'.status = .failed ∧
            row'.lastError = some "AbortError") then some () else none) = some () := by
    decide +kernel
  simp only [Option.bind_eq_some_iff, Option.ite_none_right_eq_some] at h
  obtain ⟨s, h₁, s', h₂, ⟨row, hrow, hpending, hfour, row', hrow', hid, hfailed, herror⟩, _⟩ := h
  have later := Run.of_execAll givenUp h₂
  obtain ⟨_, hafter, _⟩ := outbox_safe ⟨rfl, rfl, rfl⟩ (.of_execAll failedFourTimes h₁) later
  exact ⟨s, s', .of_execAll _ h₁, later, row, hrow, hpending, hfour, row', hrow', hid, hfailed,
    herror, (hafter row hrow row' hrow' hid).1⟩

end Outbox

end Jadwal
