import Jadwal.Schema
import Jadwal.Lib.Run

/-!
# The email code of a booking

`verifyBookingEmailOtp` reads the booking, counts the attempt, and compares the
code with the hash it read, each in a statement of its own;
`generateAndSendBookingOtp` stores a new hash and takes the count back to zero.
Calls of both take turns on one booking, statement by statement.

Codes are strings and `hash` is the peppered HMAC.  `generation` counts the
codes stored so far, and a read is marked with the generation it saw; no
statement looks at it.  `history` is newest first.
-/

namespace Jadwal

/-- 10 minutes. -/
def bookingOtpTtl : Int := 10 * minute

def bookingOtpMaxAttempts : Nat := 5

/-- The columns of a booking the email code needs. -/
structure OtpBooking where
  customerId : Id
  status : BookingStatus := .pending
  emailOtpHash : Option String := none
  emailOtpExpiry : Option Instant := none
  emailOtpAttempts : Nat := 0
  emailOtpVerifiedAt : Option Instant := none
  deriving DecidableEq, Repr

/-- The row a call has read, and the generation of its code. -/
structure OtpRead where
  booking : OtpBooking
  generation : Nat
  deriving DecidableEq, Repr

/-- A submitted code that passed the checks on the row read. -/
structure OtpGuess where
  code : String
  read : OtpRead
  checkedAt : Instant
  deriving DecidableEq, Repr

inductive OtpTask
  -- `verifyBookingEmailOtp`
  | find (userId : Id) (code : String)
  | check (code : String) (read : OtpRead)
  | lock
  | increment (guess : OtpGuess)
  | compare (guess : OtpGuess)
  | stamp (guess : OtpGuess)
  | stampUser
  -- `sendBookingEmailOtp` and `generateAndSendBookingOtp`
  | findUnverified (userId : Id) (code : String)
  | generate (code : String) (expiry : Instant)
  deriving DecidableEq, Repr

inductive OtpEvent
  | generated (code : String) (expiry : Instant)
  | compared (code : String)
  | verified (code : String) (checkedAt : Instant)
  deriving DecidableEq, Repr

structure OtpWorld where
  now : Instant
  booking : OtpBooking
  bookingOtpVerifiedAt : Option Instant := none
  generation : Nat := 0
  inflight : List OtpTask := []
  history : List OtpEvent := []

/-- The checks of `verifyBookingEmailOtp` on the row it read. -/
def checkOtp (now : Instant) (code : String) (read : OtpRead) : Option OtpTask :=
  if read.booking.emailOtpVerifiedAt.isSome then none
  else if read.booking.status ≠ .pending then none
  else
    match read.booking.emailOtpHash, read.booking.emailOtpExpiry with
    | some _, some expiry =>
        if expiry < now then none
        else if bookingOtpMaxAttempts ≤ read.booking.emailOtpAttempts then some .lock
        else some (.increment ⟨code, read, now⟩)
    | _, _ => none

/-- One statement of a task, or the code up to its next one. -/
def OtpTask.run (hash : String → String) (w : OtpWorld) : OtpTask → OtpWorld × Option OtpTask
  | .find userId code =>
      if w.booking.customerId = userId then
        (w, some (.check code ⟨w.booking, w.generation⟩))
      else (w, none)
  | .check code read => (w, checkOtp w.now code read)
  | .lock =>
      ({ w with booking := { w.booking with emailOtpHash := none, emailOtpExpiry := none } }, none)
  | .increment guess =>
      ({ w with booking := { w.booking with
          emailOtpAttempts := w.booking.emailOtpAttempts + 1 } }, some (.compare guess))
  | .compare guess =>
      ({ w with history := .compared guess.code :: w.history },
        if guess.read.booking.emailOtpHash = some (hash guess.code) then some (.stamp guess)
        else none)
  | .stamp guess =>
      ({ w with
          booking := { w.booking with
            emailOtpVerifiedAt := some w.now
            emailOtpHash := none
            emailOtpExpiry := none }
          history := .verified guess.code guess.checkedAt :: w.history }, some .stampUser)
  | .stampUser =>
      ({ w with bookingOtpVerifiedAt := some (w.bookingOtpVerifiedAt.getD w.now) }, none)
  | .findUnverified userId code =>
      if w.booking.customerId = userId ∧ w.booking.status = .pending ∧
          w.booking.emailOtpVerifiedAt = none then
        (w, some (.generate code (w.now + bookingOtpTtl)))
      else (w, none)
  | .generate code expiry =>
      ({ w with
          booking := { w.booking with
            emailOtpHash := some (hash code)
            emailOtpExpiry := some expiry
            emailOtpAttempts := 0 }
          generation := w.generation + 1
          history := .generated code expiry :: w.history }, none)

inductive OtpAction
  /-- Some server reads its clock. -/
  | clock (now : Instant)
  /-- The rest of the application moves the booking on. -/
  | status (status : BookingStatus)
  | verify (userId : Id) (code : String)
  /-- The customer asks for a code; the draw is the given one. -/
  | resend (userId : Id) (code : String)
  /-- `createBooking` sends the first code. -/
  | send (code : String)
  | run (index : Nat)
  deriving DecidableEq, Repr

/-- The world after the task at `index` went on. -/
def OtpWorld.ran (hash : String → String) (w : OtpWorld) (index : Nat) (t : OtpTask) : OtpWorld :=
  { (t.run hash w).1 with
    inflight := w.inflight.eraseIdx index ++ (t.run hash w).2.toList }

def OtpWorld.step (hash : String → String) (w : OtpWorld) : OtpAction → Option OtpWorld
  | .clock now => some { w with now }
  | .status status => some { w with booking := { w.booking with status } }
  | .verify userId code => some { w with inflight := w.inflight ++ [.find userId code] }
  | .resend userId code => some { w with inflight := w.inflight ++ [.findUnverified userId code] }
  | .send code =>
      some { w with inflight := w.inflight ++ [.generate code (w.now + bookingOtpTtl)] }
  | .run index => (w.inflight[index]?).map (w.ran hash index)

/-! ## What the history says -/

/-- The code of the last generation, with its expiry. -/
def lastGenerated : List OtpEvent → Option (String × Instant)
  | [] => none
  | .generated code expiry :: _ => some (code, expiry)
  | _ :: older => lastGenerated older

/-- The codes compared since the last generation. -/
def comparisons : List OtpEvent → Nat
  | [] => 0
  | .generated _ _ :: _ => 0
  | .compared _ :: older => comparisons older + 1
  | .verified _ _ :: older => comparisons older

/-- Every verification submitted the code of the generation it fell in, and
before that code ran out. -/
def VerifiedInTime : List OtpEvent → Prop
  | [] => True
  | .verified code checkedAt :: older =>
      (∃ expiry, lastGenerated older = some (code, expiry) ∧ checkedAt ≤ expiry) ∧
        VerifiedInTime older
  | _ :: older => VerifiedInTime older

/-- The same as far as the hashes tell: the submitted code hashes like the one of the
generation. -/
def VerifiedByHash (hash : String → String) : List OtpEvent → Prop
  | [] => True
  | .verified code checkedAt :: older =>
      (∃ sent expiry, lastGenerated older = some (sent, expiry) ∧ hash code = hash sent ∧
        checkedAt ≤ expiry) ∧ VerifiedByHash hash older
  | _ :: older => VerifiedByHash hash older

/-- No code that was compared has the digest of another one that was generated. -/
def NoCollision (hash : String → String) (history : List OtpEvent) : Prop :=
  ∀ code sent expiry, .compared code ∈ history → .generated sent expiry ∈ history →
    hash code = hash sent → code = sent

/-- Five guesses at most since the last code, and only the right code verifies. -/
structure OtpWorld.Guarded (w : OtpWorld) : Prop where
  bounded : comparisons w.history ≤ bookingOtpMaxAttempts
  inTime : VerifiedInTime w.history
  verified : w.booking.emailOtpVerifiedAt ≠ none →
    ∃ code checkedAt, .verified code checkedAt ∈ w.history

/-- The booking has just been created. -/
structure OtpWorld.Initial (w : OtpWorld) : Prop where
  hash : w.booking.emailOtpHash = none
  attempts : w.booking.emailOtpAttempts = 0
  unverified : w.booking.emailOtpVerifiedAt = none
  inflight : w.inflight = []
  history : w.history = []

/-- An attempt is counted while the budget is not used up, and no new code comes
between the read of a verification and its last statement. -/
def OtpWorld.Undisturbed (w : OtpWorld) : OtpAction → Prop
  | .run index =>
      match w.inflight[index]? with
      | some (.increment guess) => guess.read.generation = w.generation ∧
          w.booking.emailOtpAttempts < bookingOtpMaxAttempts
      | some (.compare guess) => guess.read.generation = w.generation
      | some (.stamp guess) => guess.read.generation = w.generation
      | _ => True
  | _ => True

instance (w : OtpWorld) (a : OtpAction) : Decidable (w.Undisturbed a) := by
  unfold OtpWorld.Undisturbed
  split
  · split <;> infer_instance
  · infer_instance

/-! ## The invariant -/

variable {hash : String → String} {w w' w₁ : OtpWorld} {index : Nat} {t : OtpTask}

def OtpTask.read? : OtpTask → Option OtpRead
  | .check _ read => some read
  | .increment guess => some guess.read
  | .compare guess => some guess.read
  | .stamp guess => some guess.read
  | _ => none

def OtpTask.guess? : OtpTask → Option OtpGuess
  | .increment guess => some guess
  | .compare guess => some guess
  | .stamp guess => some guess
  | _ => none

/-- The task is about to compare a code with the hash of the generation. -/
def OtpTask.comparing (generation : Nat) : OtpTask → Bool
  | .compare guess => guess.read.generation = generation
  | _ => false

/-- A row of the present generation holds the hash and the expiry of the last
code, unless the hash is gone. -/
def OtpWorld.Current (hash : String → String) (w : OtpWorld) (r : OtpRead) : Prop :=
  r.generation = w.generation → ∀ d, r.booking.emailOtpHash = some d →
    ∃ code expiry, lastGenerated w.history = some (code, expiry) ∧ d = hash code ∧
      r.booking.emailOtpExpiry = some expiry

/-- The row had a code, and the code had not run out. -/
def OtpGuess.Passed (g : OtpGuess) : Prop :=
  g.read.booking.emailOtpHash ≠ none ∧
    ∃ expiry, g.read.booking.emailOtpExpiry = some expiry ∧ g.checkedAt ≤ expiry

structure OtpWorld.TaskSound (hash : String → String) (w : OtpWorld) (t : OtpTask) : Prop where
  read : ∀ r ∈ t.read?, r.generation ≤ w.generation ∧ w.Current hash r
  passed : ∀ g ∈ t.guess?, g.Passed
  matched : ∀ g, t = .stamp g → g.read.booking.emailOtpHash = some (hash g.code)

structure OtpWorld.Sound (hash : String → String) (w : OtpWorld) : Prop where
  stored : w.Current hash ⟨w.booking, w.generation⟩
  tasks : ∀ t ∈ w.inflight, w.TaskSound hash t
  counted : comparisons w.history + w.inflight.countP (OtpTask.comparing w.generation) ≤
    w.booking.emailOtpAttempts
  budget : w.booking.emailOtpAttempts ≤ bookingOtpMaxAttempts
  inTime : VerifiedByHash hash w.history
  verified : w.booking.emailOtpVerifiedAt ≠ none →
    ∃ code checkedAt, .verified code checkedAt ∈ w.history

/-- At the start no code is stored. -/
theorem OtpWorld.Initial.sound (h : w.Initial) : w.Sound hash where
  stored := fun _ d hd => by simp [h.hash] at hd
  tasks := by simp [h.inflight]
  counted := by simp [h.history, h.inflight, comparisons]
  budget := by simp [h.attempts]
  inTime := by simp [h.history, VerifiedByHash]
  verified := fun hv => absurd h.unverified hv

/-- What was read of the current code stays so until the next one. -/
theorem OtpWorld.Current.mono {r : OtpRead} (h : w.Current hash r)
    (generation : w₁.generation = w.generation)
    (last : lastGenerated w₁.history = lastGenerated w.history) : w₁.Current hash r := by
  intro hgen d hd
  rw [last]
  exact h (hgen.trans generation) d hd

/-- So does what a task relies on. -/
theorem OtpWorld.TaskSound.mono (h : w.TaskSound hash t)
    (generation : w₁.generation = w.generation)
    (last : lastGenerated w₁.history = lastGenerated w.history) : w₁.TaskSound hash t where
  read := fun r hr => ⟨generation ▸ (h.read r hr).1, (h.read r hr).2.mono generation last⟩
  passed := h.passed
  matched := h.matched

/-- A statement that leaves the generation alone keeps the invariant when it pays
for each comparison with an attempt. -/
theorem OtpWorld.Sound.stay (h : w.Sound hash) (ht : w.inflight[index]? = some t)
    {next : Option OtpTask} (generation : w₁.generation = w.generation)
    (last : lastGenerated w₁.history = lastGenerated w.history)
    (stored : w₁.Current hash ⟨w₁.booking, w₁.generation⟩)
    (tasks : ∀ u ∈ next, w.TaskSound hash u)
    (paid : comparisons w₁.history + next.toList.countP (OtpTask.comparing w.generation) +
        w.booking.emailOtpAttempts ≤
      w₁.booking.emailOtpAttempts + comparisons w.history +
        [t].countP (OtpTask.comparing w.generation))
    (budget : w₁.booking.emailOtpAttempts ≤ bookingOtpMaxAttempts)
    (inTime : VerifiedByHash hash w₁.history)
    (verified : w₁.booking.emailOtpVerifiedAt ≠ none →
      ∃ code checkedAt, .verified code checkedAt ∈ w₁.history) :
    OtpWorld.Sound hash
      { w₁ with inflight := w.inflight.eraseIdx index ++ next.toList } where
  stored := stored
  tasks := fun u hu => by
    have hu' : w.TaskSound hash u := by
      rcases List.mem_append.mp hu with hu | hu
      · exact h.tasks u (List.mem_of_mem_eraseIdx hu)
      · exact tasks u (by simpa using hu)
    exact hu'.mono generation last
  counted := by
    have hcount := countP_eraseIdx (OtpTask.comparing w.generation) ht
    have hold := h.counted
    simp only [List.countP_append]
    rw [generation]
    lia
  budget := budget
  inTime := inTime
  verified := verified

/-- A task without a read of its own is sound. -/
theorem OtpWorld.TaskSound.bare (hread : t.read? = none) : w.TaskSound hash t := by
  have hguess : t.guess? = none := by
    cases t <;> first | rfl | cases hread
  refine ⟨by simp [hread], by simp [hguess], fun g hg => ?_⟩
  subst hg
  cases hread

/-- What passes the checks is a guess at a code that has not run out. -/
theorem OtpWorld.TaskSound.check {code : String} {read : OtpRead}
    (h : w.TaskSound hash (.check code read)) {u : OtpTask}
    (hu : checkOtp w.now code read = some u) : w.TaskSound hash u := by
  unfold checkOtp at hu
  split at hu
  · cases hu
  · split at hu
    · cases hu
    · split at hu
      · rename_i d expiry hd he
        split at hu
        · cases hu
        · rename_i hfresh
          split at hu
          · obtain rfl := Option.some.inj hu
            exact .bare rfl
          · obtain rfl := Option.some.inj hu
            refine ⟨h.read, fun g hg => ?_, by simp⟩
            obtain rfl := Option.some.inj hg
            exact ⟨by simp [hd], expiry, he, by lia⟩
      · cases hu

/-- A task that is not comparing adds no comparison. -/
theorem countP_comparing_none {next : Option OtpTask} (generation : Nat)
    (h : ∀ u ∈ next, u.comparing generation = false) :
    next.toList.countP (OtpTask.comparing generation) = 0 := by
  refine List.countP_eq_zero.mpr fun u hu => ?_
  simp [h u (by simpa using hu)]

/-- After the check a task is not comparing yet. -/
theorem checkOtp_comparing {now : Instant} {code : String} {read : OtpRead} {u : OtpTask}
    (hu : checkOtp now code read = some u) (generation : Nat) :
    u.comparing generation = false := by
  unfold checkOtp at hu
  split at hu
  · cases hu
  · split at hu
    · cases hu
    · split at hu
      · split at hu
        · cases hu
        · split at hu <;> obtain rfl := Option.some.inj hu <;> rfl
      · cases hu

/-- A verification of this generation submitted a code that hashes like the last one. -/
theorem OtpWorld.TaskSound.stamp {guess : OtpGuess} (h : w.TaskSound hash (.stamp guess))
    (hgen : guess.read.generation = w.generation) :
    ∃ sent expiry, lastGenerated w.history = some (sent, expiry) ∧
      hash guess.code = hash sent ∧ guess.checkedAt ≤ expiry := by
  have hmatch := h.matched guess rfl
  obtain ⟨sent, expiry, hlast, hhash, hexpiry⟩ := (h.read _ rfl).2 hgen _ hmatch
  obtain ⟨-, expiry', hexpiry', hle⟩ := h.passed guess rfl
  obtain rfl : expiry' = expiry := Option.some.inj (hexpiry'.symm.trans hexpiry)
  exact ⟨sent, expiry', hlast, hhash, hle⟩

/-- A new code opens a new budget. -/
theorem OtpWorld.Sound.generate (h : w.Sound hash) (index : Nat) (code : String)
    (expiry : Instant) :
    (w.ran hash index (.generate code expiry)).Sound hash where
  stored := fun _ d hd => ⟨code, expiry, rfl, (Option.some.inj hd).symm, rfl⟩
  tasks := fun u hu => by
    have hu' : u ∈ w.inflight.eraseIdx index := by simpa [ran, OtpTask.run] using hu
    have hold := h.tasks u (List.mem_of_mem_eraseIdx hu')
    refine ⟨fun r hr => ⟨(hold.read r hr).1.trans (Nat.le_succ _), fun hgen => ?_⟩,
      hold.passed, hold.matched⟩
    -- what was read before is of an earlier generation
    exact absurd ((hold.read r hr).1) (by rw [hgen]; exact Nat.not_succ_le_self _)
  counted := by
    have hnone : (w.inflight.eraseIdx index).countP
        (OtpTask.comparing (w.generation + 1)) = 0 := by
      refine List.countP_eq_zero.mpr fun u hu => ?_
      cases u with
      | compare guess =>
          have hold := ((h.tasks _ (List.mem_of_mem_eraseIdx hu)).read _ rfl).1
          have hne : guess.read.generation ≠ w.generation + 1 := by lia
          simpa [OtpTask.comparing] using hne
      | _ => simp [OtpTask.comparing]
    simp [ran, OtpTask.run, comparisons, hnone]
  budget := Nat.zero_le _
  inTime := h.inTime
  verified := fun hv => by
    obtain ⟨code', checkedAt, hin⟩ := h.verified hv
    exact ⟨code', checkedAt, List.mem_cons_of_mem _ hin⟩

/-- **What one statement keeps.** -/
theorem OtpWorld.Sound.ran (h : w.Sound hash) (hg : w.Undisturbed (.run index))
    (ht : w.inflight[index]? = some t) :
    (w.ran hash index t).Sound hash := by
  have hmem : t ∈ w.inflight := List.mem_of_getElem? ht
  have hsound := h.tasks t hmem
  simp only [OtpWorld.Undisturbed, ht] at hg
  cases t with
  | generate code expiry => exact h.generate index code expiry
  | find userId code =>
      by_cases howner : w.booking.customerId = userId
      · have hrun : OtpTask.run hash w (.find userId code) =
            (w, some (.check code ⟨w.booking, w.generation⟩)) := by
          simp [OtpTask.run, howner]
        rw [OtpWorld.ran, hrun]
        refine h.stay ht rfl rfl h.stored (fun u hu => ?_) ?_ h.budget h.inTime h.verified
        · obtain rfl := Option.some.inj hu
          refine ⟨fun r hr => ?_, by simp [OtpTask.guess?], by simp⟩
          obtain rfl := Option.some.inj hr
          exact ⟨le_rfl, h.stored⟩
        · simp [OtpTask.comparing]
          lia
      · have hrun : OtpTask.run hash w (.find userId code) = (w, none) := by
          simp [OtpTask.run, howner]
        rw [OtpWorld.ran, hrun]
        exact h.stay ht rfl rfl h.stored (by simp) (by simp; lia) h.budget h.inTime h.verified
  | check code read =>
      have hnone : ((OtpTask.check code read).run hash w).2.toList.countP
          (OtpTask.comparing w.generation) = 0 :=
        countP_comparing_none _ fun u hu => checkOtp_comparing hu _
      refine h.stay ht rfl rfl h.stored (fun u hu => hsound.check hu) ?_ h.budget h.inTime
        h.verified
      rw [hnone]
      simp [OtpTask.run]
      lia
  | lock =>
      refine h.stay ht rfl rfl (fun _ d hd => ?_) (by simp [OtpTask.run]) ?_ h.budget h.inTime
        h.verified
      · cases hd
      · simp [OtpTask.run]
        lia
  | increment guess =>
      obtain ⟨hgen, hbudget⟩ := hg
      refine h.stay ht rfl rfl h.stored (fun u hu => ?_) ?_ hbudget h.inTime h.verified
      · obtain rfl := Option.some.inj hu
        exact ⟨hsound.read, hsound.passed, by simp⟩
      · simp [OtpTask.run, OtpTask.comparing, hgen]
        lia
  | compare guess =>
      refine h.stay ht rfl rfl (h.stored.mono rfl rfl) (fun u hu => ?_) ?_ h.budget h.inTime
        (fun hv => ?_)
      · simp only [OtpTask.run, Option.mem_def, Option.ite_none_right_eq_some,
          Option.some.injEq] at hu
        obtain ⟨hmatch, rfl⟩ := hu
        refine ⟨hsound.read, hsound.passed, fun g hg' => ?_⟩
        obtain rfl := OtpTask.stamp.inj hg'
        exact hmatch
      · have hnone : ((OtpTask.compare guess).run hash w).2.toList.countP
            (OtpTask.comparing w.generation) = 0 := by
          refine countP_comparing_none _ fun u hu => ?_
          simp only [OtpTask.run, Option.mem_def, Option.ite_none_right_eq_some,
            Option.some.injEq] at hu
          obtain ⟨-, rfl⟩ := hu
          rfl
        rw [hnone]
        simp [OtpTask.run, OtpTask.comparing, hg, comparisons]
        lia
      · obtain ⟨code', checkedAt, hin⟩ := h.verified hv
        exact ⟨code', checkedAt, List.mem_cons_of_mem _ hin⟩
  | stamp guess =>
      refine h.stay ht rfl rfl (fun _ d hd => ?_) (fun u hu => ?_) ?_ h.budget
        ⟨hsound.stamp hg, h.inTime⟩ (fun _ => ?_)
      · cases hd
      · obtain rfl := Option.some.inj hu
        exact .bare rfl
      · simp [OtpTask.run, OtpTask.comparing, comparisons]
        lia
      · exact ⟨guess.code, guess.checkedAt, List.mem_cons_self⟩
  | stampUser =>
      refine h.stay ht rfl rfl h.stored (by simp [OtpTask.run]) ?_ h.budget h.inTime h.verified
      simp [OtpTask.run]
      lia
  | findUnverified userId code =>
      rw [OtpWorld.ran, OtpTask.run]
      split
      · refine h.stay ht rfl rfl h.stored (fun u hu => ?_) ?_ h.budget h.inTime h.verified
        · obtain rfl := Option.some.inj hu
          exact .bare rfl
        · simp [OtpTask.comparing]
          lia
      · exact h.stay ht rfl rfl h.stored (by simp) (by simp; lia) h.budget h.inTime h.verified

/-- A new task without a read, and nothing else of the invariant. -/
theorem OtpWorld.Sound.frame (h : w.Sound hash)
    (hstored : w'.Current hash ⟨w'.booking, w'.generation⟩)
    (generation : w'.generation = w.generation) (history : w'.history = w.history)
    (attempts : w'.booking.emailOtpAttempts = w.booking.emailOtpAttempts)
    (verified : w'.booking.emailOtpVerifiedAt = w.booking.emailOtpVerifiedAt)
    (new : List OtpTask) (inflight : w'.inflight = w.inflight ++ new)
    (bare : ∀ t ∈ new, t.read? = none) : w'.Sound hash where
  stored := hstored
  tasks := fun t ht => by
    rw [inflight] at ht
    have ht' : w.TaskSound hash t := by
      rcases List.mem_append.mp ht with ht | ht
      · exact h.tasks t ht
      · exact .bare (bare t ht)
    exact ht'.mono generation (by rw [history])
  counted := by
    have hnone : new.countP (OtpTask.comparing w.generation) = 0 := by
      refine List.countP_eq_zero.mpr fun t ht => ?_
      cases t with
      | compare guess => cases bare _ ht
      | _ => simp [OtpTask.comparing]
    rw [history, attempts, generation, inflight, List.countP_append, hnone]
    exact h.counted
  budget := attempts ▸ h.budget
  inTime := history ▸ h.inTime
  verified := fun hv => by
    rw [verified] at hv
    rw [history]
    exact h.verified hv

/-- **One step keeps the guesses within their budget.** -/
theorem OtpWorld.Sound.step {a : OtpAction} (h : w.Sound hash) (hg : w.Undisturbed a)
    (hstep : w.step hash a = some w') : w'.Sound hash := by
  cases a with
  | run index =>
      obtain ⟨t, ht, rfl⟩ := Option.map_eq_some_iff.mp hstep
      exact h.ran hg ht
  | clock now =>
      obtain rfl := Option.some.inj hstep
      exact h.frame (h.stored.mono rfl rfl) rfl rfl rfl rfl [] (List.append_nil _).symm (by simp)
  | status status =>
      obtain rfl := Option.some.inj hstep
      exact h.frame (fun hgen d hd => h.stored hgen d hd) rfl rfl rfl rfl []
        (List.append_nil _).symm (by simp)
  | verify userId code =>
      obtain rfl := Option.some.inj hstep
      exact h.frame (h.stored.mono rfl rfl) rfl rfl rfl rfl _ rfl (by simp [OtpTask.read?])
  | resend userId code =>
      obtain rfl := Option.some.inj hstep
      exact h.frame (h.stored.mono rfl rfl) rfl rfl rfl rfl _ rfl (by simp [OtpTask.read?])
  | send code =>
      obtain rfl := Option.some.inj hstep
      exact h.frame (h.stored.mono rfl rfl) rfl rfl rfl rfl _ rfl (by simp [OtpTask.read?])

/-! ## Digests -/

/-- The last code generated is on record. -/
theorem mem_of_lastGenerated {history : List OtpEvent} {code : String} {expiry : Instant}
    (h : lastGenerated history = some (code, expiry)) : .generated code expiry ∈ history := by
  induction history with
  | nil => cases h
  | cons event older ih =>
      cases event with
      | generated code' expiry' =>
          obtain ⟨rfl, rfl⟩ := Prod.mk.inj (Option.some.inj h)
          exact List.mem_cons_self
      | compared code' => exact List.mem_cons_of_mem _ (ih h)
      | verified code' checkedAt => exact List.mem_cons_of_mem _ (ih h)

/-- What is stamped, and what was verified, was compared before. -/
structure OtpWorld.Weighed (w : OtpWorld) : Prop where
  stamps : ∀ guess, .stamp guess ∈ w.inflight → .compared guess.code ∈ w.history
  verified : ∀ code checkedAt, .verified code checkedAt ∈ w.history → .compared code ∈ w.history

/-- A task that leaves the history alone and stamps nothing. -/
theorem OtpWorld.Weighed.stay (h : w.Weighed) (history : w'.history = w.history)
    (inflight : ∀ guess, .stamp guess ∈ w'.inflight → .stamp guess ∈ w.inflight) :
    w'.Weighed where
  stamps guess hg := by
    rw [history]
    exact h.stamps guess (inflight guess hg)
  verified code checkedAt hv := by
    rw [history] at hv ⊢
    exact h.verified code checkedAt hv

/-- **What one statement keeps of the record.** -/
theorem OtpWorld.Weighed.ran (h : w.Weighed) (ht : w.inflight[index]? = some t) :
    (w.ran hash index t).Weighed := by
  have hmem : t ∈ w.inflight := List.mem_of_getElem? ht
  have hrest : ∀ {u : OtpTask} {next : Option OtpTask},
      u ∈ w.inflight.eraseIdx index ++ next.toList → u ∈ w.inflight ∨ next = some u := by
    intro u next hu
    rcases List.mem_append.mp hu with hu | hu
    · exact .inl (List.mem_of_mem_eraseIdx hu)
    · exact .inr (Option.mem_toList.mp hu)
  cases t with
  | compare guess =>
      refine ⟨fun guess' hg => ?_, fun code checkedAt hv => ?_⟩
      · rcases hrest hg with hg | hnext
        · exact List.mem_cons_of_mem _ (h.stamps guess' hg)
        · simp only [OtpTask.run, Option.ite_none_right_eq_some, Option.some.injEq,
            OtpTask.stamp.injEq] at hnext
          rw [← hnext.2]
          exact List.mem_cons_self
      · rcases List.mem_cons.mp hv with heq | hv
        · cases heq
        · exact List.mem_cons_of_mem _ (h.verified code checkedAt hv)
  | stamp guess =>
      refine ⟨fun guess' hg => ?_, fun code checkedAt hv => ?_⟩
      · rcases hrest hg with hg | hnext
        · exact List.mem_cons_of_mem _ (h.stamps guess' hg)
        · cases hnext
      · rcases List.mem_cons.mp hv with heq | hv
        · obtain ⟨rfl, rfl⟩ := OtpEvent.verified.inj heq
          exact List.mem_cons_of_mem _ (h.stamps guess hmem)
        · exact List.mem_cons_of_mem _ (h.verified code checkedAt hv)
  | generate code expiry =>
      refine ⟨fun guess hg => ?_, fun code' checkedAt hv => ?_⟩
      · rcases hrest hg with hg | hnext
        · exact List.mem_cons_of_mem _ (h.stamps guess hg)
        · cases hnext
      · rcases List.mem_cons.mp hv with heq | hv
        · cases heq
        · exact List.mem_cons_of_mem _ (h.verified code' checkedAt hv)
  | check code read =>
      refine h.stay rfl fun guess hg => (hrest hg).resolve_right fun hnext => ?_
      have hnext : checkOtp w.now code read = some (.stamp guess) := hnext
      unfold checkOtp at hnext
      split at hnext
      · cases hnext
      · split at hnext
        · cases hnext
        · split at hnext
          · split at hnext
            · cases hnext
            · split at hnext <;> cases hnext
          · cases hnext
  | find userId code =>
      have hrun : (OtpTask.run hash w (.find userId code)).1 = w ∧
          ∀ guess, (OtpTask.run hash w (.find userId code)).2 ≠ some (.stamp guess) := by
        simp only [OtpTask.run]
        split <;> simp
      have hhistory : (OtpTask.run hash w (.find userId code)).1.history = w.history := by
        rw [hrun.1]
      refine h.stay hhistory fun guess hg => ?_
      exact (hrest hg).resolve_right (hrun.2 guess)
  | findUnverified userId code =>
      have hrun : (OtpTask.run hash w (.findUnverified userId code)).1 = w ∧
          ∀ guess, (OtpTask.run hash w (.findUnverified userId code)).2 ≠ some (.stamp guess) := by
        simp only [OtpTask.run]
        split <;> simp
      have hhistory : (OtpTask.run hash w (.findUnverified userId code)).1.history = w.history := by
        rw [hrun.1]
      refine h.stay hhistory fun guess hg => ?_
      exact (hrest hg).resolve_right (hrun.2 guess)
  | lock => exact h.stay rfl fun guess hg => (hrest hg).resolve_right (by simp [OtpTask.run])
  | increment guess' =>
      exact h.stay rfl fun guess hg => (hrest hg).resolve_right (by simp [OtpTask.run])
  | stampUser => exact h.stay rfl fun guess hg => (hrest hg).resolve_right (by simp [OtpTask.run])

/-- One step keeps the record. -/
theorem OtpWorld.Weighed.step {a : OtpAction} (h : w.Weighed) (hstep : w.step hash a = some w') :
    w'.Weighed := by
  have hnew : ∀ {t : OtpTask}, (∀ guess, t ≠ .stamp guess) →
      ({ w with inflight := w.inflight ++ [t] } : OtpWorld).Weighed := by
    intro t ht
    refine h.stay rfl fun guess hg => ?_
    rcases List.mem_append.mp hg with hg | hg
    · exact hg
    · exact absurd (List.mem_singleton.mp hg).symm (ht guess)
  cases a with
  | run index =>
      obtain ⟨t, ht, rfl⟩ := Option.map_eq_some_iff.mp hstep
      exact h.ran ht
  | clock now =>
      obtain rfl := Option.some.inj hstep
      exact h.stay rfl fun _ hg => hg
  | status status =>
      obtain rfl := Option.some.inj hstep
      exact h.stay rfl fun _ hg => hg
  | verify userId code =>
      obtain rfl := Option.some.inj hstep
      exact hnew (by simp)
  | resend userId code =>
      obtain rfl := Option.some.inj hstep
      exact hnew (by simp)
  | send code =>
      obtain rfl := Option.some.inj hstep
      exact hnew (by simp)

/-- Where no digest collides, what verified by its hash is the code itself. -/
theorem VerifiedByHash.inTime {history older : List OtpEvent} (h : VerifiedByHash hash older)
    (hcollision : NoCollision hash history) (hsub : ∀ e ∈ older, e ∈ history)
    (hcompared : ∀ code checkedAt, .verified code checkedAt ∈ history →
      .compared code ∈ history) : VerifiedInTime older := by
  induction older with
  | nil => trivial
  | cons event older ih =>
      have hrest : ∀ e ∈ older, e ∈ history := fun e he => hsub e (List.mem_cons_of_mem _ he)
      cases event with
      | generated code expiry => exact ih h hrest
      | compared code => exact ih h hrest
      | verified code checkedAt =>
          obtain ⟨⟨sent, expiry, hlast, hhash, hle⟩, hold⟩ := h
          have hsent := hrest _ (mem_of_lastGenerated hlast)
          have hcode := hcompared code checkedAt (hsub _ List.mem_cons_self)
          obtain rfl := hcollision code sent expiry hcode hsent hhash
          exact ⟨⟨expiry, hlast, hle⟩, ih hold hrest⟩

/-- The invariants together say what is asked. -/
theorem OtpWorld.Sound.guarded (h : w.Sound hash) (hweighed : w.Weighed)
    (hcollision : NoCollision hash w.history) : w.Guarded where
  bounded := by
    have hcounted := h.counted
    have hbudget := h.budget
    lia
  inTime := h.inTime.inTime hcollision (fun _ he => he) hweighed.verified
  verified := h.verified

/-! ## The law -/

end Jadwal
