import Jadwal.Schema
import Jadwal.Lib.Run

/-!
# The circuit breaker

`CircuitBreaker.run` admits a call, awaits it, and records its outcome.  A
slow call may outlive the state it was admitted in, and every outcome is
recorded alike.

While the breaker is HALF_OPEN one call admitted since is running
(`one_probe`).  Any call that ends then moves it, so the probe decides exactly
when no call admitted earlier ends (`probeDecides_iff`); calls that end within
the cooldown never do (`timely_run`).
-/

namespace Jadwal

inductive BreakerState
  | closed
  | open
  | halfOpen
  deriving DecidableEq, Repr

/-- `CircuitBreakerOptions`, as the constructor lets them through. -/
structure BreakerOptions where
  failureThreshold : Nat := 10
  openTimeoutMs : ℚ := 30000
  disabled : Bool := false
  threshold_pos : 1 ≤ failureThreshold := by decide
  timeout_nonneg : 0 ≤ openTimeoutMs := by decide

structure CircuitBreaker where
  state : BreakerState := .closed
  consecutiveFailures : Nat := 0
  openedAt : Instant := 0
  halfOpenProbeInFlight : Bool := false
  deriving DecidableEq, Repr

/-- `CircuitBreakerOpenError`. -/
structure BreakerOpen where
  retryAfterMs : ℚ
  deriving DecidableEq, Repr

namespace CircuitBreaker

variable (opts : BreakerOptions) (now : Instant)

def transition (b : CircuitBreaker) (target : BreakerState) : CircuitBreaker :=
  if b.state = target then b
  else { b with state := target, openedAt := if target = .closed then 0 else b.openedAt }

/-- What `run` does before it calls the function. -/
def runGuard (b : CircuitBreaker) : Except BreakerOpen CircuitBreaker :=
  if opts.disabled then .ok b
  else match b.state with
    | .closed => .ok b
    | .open =>
        let elapsed : ℚ := ((now - b.openedAt : Int) : ℚ)
        if elapsed < opts.openTimeoutMs then .error ⟨opts.openTimeoutMs - elapsed⟩
        else if b.halfOpenProbeInFlight then .error ⟨0⟩
        else .ok ({ b with halfOpenProbeInFlight := true }.transition .halfOpen)
    | .halfOpen =>
        if b.halfOpenProbeInFlight then .error ⟨0⟩
        else .ok { b with halfOpenProbeInFlight := true }

def recordSuccess (b : CircuitBreaker) : CircuitBreaker :=
  let b := { b with consecutiveFailures := 0 }
  if b.state = .halfOpen then b.transition .closed else b

def recordFailure (b : CircuitBreaker) : CircuitBreaker :=
  let b := { b with consecutiveFailures := b.consecutiveFailures + 1 }
  if b.state = .halfOpen then { b with openedAt := now }.transition .open
  else if opts.failureThreshold ≤ b.consecutiveFailures then
    { b with openedAt := now }.transition .open
  else b

/-- What `run` does once the function has settled, the `finally` included. -/
def settle (b : CircuitBreaker) (success : Bool) : CircuitBreaker :=
  if opts.disabled then b
  else { (if success then b.recordSuccess else b.recordFailure opts now) with
    halfOpenProbeInFlight := false }

end CircuitBreaker

/-! ## Calls that overlap -/

/-- A call under way: when it was admitted, and how often the breaker had
become HALF_OPEN by then. -/
structure BreakerCall where
  startedAt : Instant
  epoch : Nat
  deriving DecidableEq, Repr

structure BreakerSys where
  now : Instant := 0
  breaker : CircuitBreaker := {}
  calls : List BreakerCall := []
  /-- How often the breaker has become HALF_OPEN. -/
  epoch : Nat := 0
  deriving DecidableEq, Repr

inductive BreakerAction
  | tick (now : Instant)
  | start
  | finish (i : Nat) (success : Bool)
  deriving DecidableEq, Repr

namespace BreakerSys

variable (opts : BreakerOptions)

/-- A call that is refused leaves everything as it is. -/
def step (s : BreakerSys) : BreakerAction → Option BreakerSys
  | .tick now => if s.now ≤ now then some { s with now := now } else none
  | .start =>
      match s.breaker.runGuard opts s.now with
      | .error _ => some s
      | .ok breaker =>
          let epoch :=
            if s.breaker.state ≠ .halfOpen ∧ breaker.state = .halfOpen then s.epoch + 1
            else s.epoch
          some { s with
            breaker := breaker
            calls := s.calls ++ [⟨s.now, epoch⟩]
            epoch := epoch }
  | .finish i success =>
      if i < s.calls.length then
        some { s with
          breaker := s.breaker.settle opts s.now success
          calls := s.calls.eraseIdx i }
      else none

end BreakerSys

/-! ## The two halves of a call -/

namespace CircuitBreaker

variable {opts : BreakerOptions} {now : Instant} {b b' : CircuitBreaker}

@[simp] theorem transition_state (b : CircuitBreaker) (target : BreakerState) :
    (b.transition target).state = target := by
  unfold transition
  split
  · assumption
  · rfl

@[simp] theorem transition_flag (b : CircuitBreaker) (target : BreakerState) :
    (b.transition target).halfOpenProbeInFlight = b.halfOpenProbeInFlight := by
  unfold transition
  split <;> rfl

/-- **A call is admitted** by a closed breaker as it is, or as the probe. -/
theorem runGuard_cases (h : b.runGuard opts now = .ok b') :
    b' = b ∧ (opts.disabled = true ∨ b.state = .closed) ∨
      b'.state = .halfOpen ∧ b'.halfOpenProbeInFlight = true ∧
        b.halfOpenProbeInFlight = false ∧ (b.state = .halfOpen ∨
          b.state = .open ∧ opts.openTimeoutMs ≤ ((now - b.openedAt : Int) : ℚ)) := by
  unfold runGuard at h
  by_cases hdisabled : opts.disabled = true
  · rw [if_pos hdisabled] at h
    exact .inl ⟨(Except.ok.inj h).symm, .inl hdisabled⟩
  · rw [if_neg hdisabled] at h
    cases hstate : b.state with
    | closed =>
        rw [hstate] at h
        exact .inl ⟨(Except.ok.inj h).symm, .inr rfl⟩
    | «open» =>
        rw [hstate] at h
        simp only at h
        split at h
        · exact nomatch h
        · rename_i helapsed
          split at h
          · exact nomatch h
          · rename_i hflag
            obtain rfl := Except.ok.inj h
            exact .inr ⟨transition_state _ _, transition_flag _ _, by simpa using hflag,
              .inr ⟨rfl, not_lt.mp helapsed⟩⟩
    | halfOpen =>
        rw [hstate] at h
        simp only at h
        split at h
        · exact nomatch h
        · rename_i hflag
          obtain rfl := Except.ok.inj h
          exact .inr ⟨rfl, rfl, by simpa using hflag, .inl rfl⟩

/-- **Whoever ends in HALF_OPEN moves the breaker**, to the side of its outcome. -/
theorem settle_halfOpen (hdisabled : opts.disabled = false) (h : b.state = .halfOpen)
    (success : Bool) :
    (b.settle opts now success).state = if success then .closed else .open := by
  cases success with
  | true => simp [settle, hdisabled, recordSuccess, h]
  | false => simp [settle, hdisabled, recordFailure, h]

/-- A settled call never leaves the breaker half open. -/
theorem settle_ne_halfOpen (hdisabled : opts.disabled = false) (success : Bool) :
    (b.settle opts now success).state ≠ .halfOpen := by
  by_cases h : b.state = .halfOpen
  · rw [settle_halfOpen hdisabled h]
    cases success <;> decide
  · cases success with
    | true => simp [settle, hdisabled, recordSuccess, h]
    | false =>
        simp only [settle, hdisabled, recordFailure, h]
        simp only [Bool.false_eq_true, if_false]
        split
        · simp
        · exact h

/-- The probe is over once a call is settled. -/
theorem settle_flag (hdisabled : opts.disabled = false) (success : Bool) :
    (b.settle opts now success).halfOpenProbeInFlight = false := by
  simp [settle, hdisabled]

/-- A breaker that is open after an outcome was open before, or opened at it. -/
theorem settle_openedAt {success : Bool} (h : (b.settle opts now success).state = .open) :
    (b.state = .open ∧ (b.settle opts now success).openedAt = b.openedAt) ∨
      (b.settle opts now success).openedAt = now := by
  unfold settle at h ⊢
  split at h
  case isTrue hdisabled =>
    rw [if_pos hdisabled]
    exact .inl ⟨h, rfl⟩
  case isFalse hdisabled =>
    rw [if_neg hdisabled]
    cases success with
    | true =>
        simp only [recordSuccess, if_true] at h ⊢
        split at h
        · simp at h
        · rename_i hstate
          rw [if_neg hstate]
          exact .inl ⟨h, rfl⟩
    | false =>
        simp only [recordFailure, Bool.false_eq_true, if_false] at h ⊢
        split at h
        · rename_i hstate
          rw [if_pos hstate]
          simp [transition, hstate]
        · rename_i hstate
          rw [if_neg hstate]
          split at h
          · rename_i hthreshold
            rw [if_pos hthreshold]
            refine .inr ?_
            unfold transition
            split <;> rfl
          · rename_i hthreshold
            rw [if_neg hthreshold]
            exact .inl ⟨h, rfl⟩

end CircuitBreaker

/-! ## Every run -/

namespace BreakerSys

variable {opts : BreakerOptions} {s s' : BreakerSys} {a : BreakerAction}

/-- The call was admitted since the breaker last became HALF_OPEN. -/
def current (s : BreakerSys) (call : BreakerCall) : Bool := call.epoch = s.epoch

/-- The slot is taken exactly while the breaker is HALF_OPEN, and then one of
the calls under way is the probe. -/
structure Inv (opts : BreakerOptions) (s : BreakerSys) : Prop where
  epochs : ∀ call ∈ s.calls, call.epoch ≤ s.epoch
  flag : s.breaker.halfOpenProbeInFlight = true ↔ s.breaker.state = .halfOpen
  probe : s.breaker.state = .halfOpen → s.calls.countP s.current = 1
  disabled : opts.disabled = true → s.breaker.state = .closed

/-- **The step of the system**: time passes or a start is refused, a call is
admitted as it is or as the probe, a call ends. -/
theorem step_cases (h : s.step opts a = some s') :
    (∃ now, s.now ≤ now ∧ s' = { s with now := now } ∧
      (a = .tick now ∨ a = .start ∧ now = s.now)) ∨
    (a = .start ∧ (opts.disabled = true ∨ s.breaker.state = .closed) ∧
      s' = { s with calls := s.calls ++ [⟨s.now, s.epoch⟩] }) ∨
    (a = .start ∧ ∃ breaker, breaker.state = .halfOpen ∧ breaker.halfOpenProbeInFlight = true ∧
      s.breaker.halfOpenProbeInFlight = false ∧
      (s.breaker.state = .halfOpen ∨ s.breaker.state = .open ∧
        opts.openTimeoutMs ≤ ((s.now - s.breaker.openedAt : Int) : ℚ)) ∧
      s' = { s with
        breaker := breaker
        calls := s.calls ++ [⟨s.now, if s.breaker.state ≠ .halfOpen then s.epoch + 1
          else s.epoch⟩]
        epoch := if s.breaker.state ≠ .halfOpen then s.epoch + 1 else s.epoch }) ∨
    ∃ i success call, a = .finish i success ∧ s.calls[i]? = some call ∧
      s' = { s with
        breaker := s.breaker.settle opts s.now success
        calls := s.calls.eraseIdx i } := by
  cases a with
  | tick now =>
      simp only [step, Option.ite_none_right_eq_some, Option.some.injEq] at h
      obtain ⟨hle, rfl⟩ := h
      exact .inl ⟨now, hle, rfl, .inl rfl⟩
  | start =>
      simp only [step] at h
      split at h
      · obtain rfl := Option.some.inj h
        exact .inl ⟨s.now, le_rfl, rfl, .inr ⟨rfl, rfl⟩⟩
      · rename_i breaker hadmit
        obtain rfl := Option.some.inj h
        rcases CircuitBreaker.runGuard_cases hadmit with ⟨rfl, hclosed⟩ |
          ⟨hhalf, hflag, hfree, hfrom⟩
        · have hsame : ¬ (s.breaker.state ≠ .halfOpen ∧ s.breaker.state = .halfOpen) :=
            fun hboth => hboth.1 hboth.2
          exact .inr (.inl ⟨rfl, hclosed, by simp only [if_neg hsame]⟩)
        · exact .inr (.inr (.inl ⟨rfl, breaker, hhalf, hflag, hfree, hfrom,
            by simp only [hhalf, and_true]⟩))
  | finish i success =>
      simp only [step, Option.ite_none_right_eq_some, Option.some.injEq] at h
      obtain ⟨hlt, rfl⟩ := h
      exact .inr (.inr (.inr ⟨i, success, s.calls[i], rfl, List.getElem?_eq_getElem hlt, rfl⟩))

/-- **One step keeps the invariant.** -/
theorem Inv.step (h : s.Inv opts) (hstep : s.step opts a = some s') : s'.Inv opts := by
  obtain ⟨now, _, rfl, _⟩ | ⟨_, hclosed, rfl⟩ | ⟨_, breaker, hhalf, hflag, hfree, hfrom, rfl⟩ |
    ⟨i, success, call, _, hcall, rfl⟩ := step_cases hstep
  · exact ⟨h.epochs, h.flag, h.probe, h.disabled⟩
  · -- a call beside a breaker that is not HALF_OPEN
    have hstate : s.breaker.state = .closed := hclosed.elim h.disabled id
    refine ⟨fun call hcall => ?_, h.flag, fun hhalf => ?_, h.disabled⟩
    · rcases List.mem_append.mp hcall with hold | hnew
      · exact h.epochs call hold
      · obtain rfl := List.mem_singleton.mp hnew
        exact le_rfl
    · exact absurd (hstate.symm.trans hhalf) (by decide)
  · -- the probe: no earlier call has the new epoch
    have hnot : s.breaker.state ≠ .halfOpen := fun hwas => by
      have hset := h.flag.mpr hwas
      rw [hfree] at hset
      exact nomatch hset
    simp only [if_pos hnot]
    refine ⟨fun call hcall => ?_, by simp [hhalf, hflag], fun _ => ?_, fun hdisabled => ?_⟩
    · rcases List.mem_append.mp hcall with hold | hnew
      · exact (h.epochs call hold).trans (Nat.le_succ _)
      · obtain rfl := List.mem_singleton.mp hnew
        exact le_rfl
    · have hold : s.calls.countP (fun call => call.epoch = s.epoch + 1) = 0 := by
        rw [List.countP_eq_zero]
        intro call hcall
        have hle := h.epochs call hcall
        simp only [decide_eq_true_eq]
        omega
      change (s.calls ++ [BreakerCall.mk s.now (s.epoch + 1)]).countP
        (fun call : BreakerCall => call.epoch = s.epoch + 1) = 1
      rw [List.countP_append, hold]
      simp
    · have hclosed := h.disabled hdisabled
      rcases hfrom with hwas | ⟨hwas, _⟩
      · exact absurd hwas hnot
      · exact absurd (hclosed.symm.trans hwas) (by decide)
  · -- no breaker is HALF_OPEN after an outcome
    have hepochs : ∀ call ∈ s.calls.eraseIdx i, call.epoch ≤ s.epoch :=
      fun call hcall => h.epochs call (List.mem_of_mem_eraseIdx hcall)
    by_cases hdisabled : opts.disabled = true
    · have hsame : s.breaker.settle opts s.now success = s.breaker := by
        simp [CircuitBreaker.settle, hdisabled]
      have hclosed := h.disabled hdisabled
      refine ⟨hepochs, ?_, fun hhalf => ?_, fun _ => ?_⟩
      · rw [hsame]
        exact h.flag
      · rw [hsame] at hhalf
        exact absurd (hclosed.symm.trans hhalf) (by decide)
      · rw [hsame]
        exact hclosed
    · have henabled : opts.disabled = false := by simpa using hdisabled
      have hleft : (s.breaker.settle opts s.now success).state ≠ .halfOpen :=
        CircuitBreaker.settle_ne_halfOpen henabled success
      refine ⟨hepochs, ?_, fun hhalf => absurd hhalf hleft, fun h' => absurd h' hdisabled⟩
      rw [CircuitBreaker.settle_flag henabled]
      simp [hleft]

/-- The breaker leaves HALF_OPEN by the outcome of the probe, to its side. -/
def ProbeDecides (s : BreakerSys) (a : BreakerAction) (s' : BreakerSys) : Prop :=
  s.breaker.state = .halfOpen → s'.breaker.state ≠ .halfOpen →
    ∃ i success call, a = .finish i success ∧ s.calls[i]? = some call ∧ s.current call = true ∧
      s'.breaker.state = if success then .closed else .open

/-- No call admitted before the breaker became HALF_OPEN ends while it is. -/
def NoneLate (s : BreakerSys) (a : BreakerAction) : Prop :=
  s.breaker.state = .halfOpen → ∀ i success, a = .finish i success →
    ∀ call ∈ s.calls[i]?, s.current call = true

/-- **The probe decides exactly when no late call ends.** -/
theorem probeDecides_iff (h : s.Inv opts) (hstep : s.step opts a = some s') :
    ProbeDecides s a s' ↔ NoneLate s a := by
  have henabled : s.breaker.state = .halfOpen → opts.disabled = false := by
    intro hhalf
    by_contra hdisabled
    exact absurd ((h.disabled (by simpa using hdisabled)).symm.trans hhalf) (by decide)
  constructor
  · intro hdecides hhalf i success ha call hcall
    subst ha
    obtain ⟨_, _, _, hact⟩ | ⟨hact, _⟩ | ⟨hact, _⟩ | ⟨j, success', other, hact, hother, rfl⟩ :=
      step_cases hstep
    · exact hact.elim nofun fun hstart => nomatch hstart.1
    · exact nomatch hact
    · exact nomatch hact
    · obtain ⟨k, success'', probe, hact', hprobe, hcurrent, _⟩ := hdecides hhalf
        (CircuitBreaker.settle_ne_halfOpen (henabled hhalf) success')
      obtain ⟨rfl, rfl⟩ := BreakerAction.finish.inj hact'
      obtain rfl := Option.some.inj (hprobe.symm.trans hcall)
      exact hcurrent
  · intro hnone hhalf hleft
    obtain ⟨now, _, rfl, _⟩ | ⟨_, _, rfl⟩ | ⟨_, breaker, hstate, _, _, _, rfl⟩ |
      ⟨i, success, call, rfl, hcall, rfl⟩ := step_cases hstep
    · exact absurd hhalf hleft
    · exact absurd hhalf hleft
    · exact absurd hstate hleft
    · exact ⟨i, success, call, rfl, hcall, hnone hhalf i success rfl call hcall,
        CircuitBreaker.settle_halfOpen (henabled hhalf) hhalf success⟩

/-- So does a run. -/
theorem inv_run {ok : BreakerSys → BreakerAction → Prop} (run : Run (step opts) ok s s')
    (h : s.Inv opts) : s'.Inv opts :=
  run.invariant (Inv opts) (fun _ _ _ hinv _ hstep => hinv.step hstep) h

/-- The breaker starts closed, with no call. -/
theorem Inv.initial (opts : BreakerOptions) (now : Instant) :
    Inv opts { now := now } :=
  ⟨by simp, by simp, by simp, fun _ => rfl⟩

/-- **One probe, and it decides unless a late call ends.**  In every state a breaker reaches,
at most one call admitted since it became HALF_OPEN is under way; and a step leaves the
decision to the probe exactly when it does not end a call admitted earlier. -/
theorem one_probe {ok : BreakerSys → BreakerAction → Prop} {now : Instant}
    (run : Run (step opts) ok { now := now } s) :
    (s.breaker.state = .halfOpen → s.calls.countP s.current ≤ 1) ∧
      ∀ a s', s.step opts a = some s' → (ProbeDecides s a s' ↔ NoneLate s a) := by
  have hinv : s.Inv opts := inv_run run (.initial opts now)
  exact ⟨fun hhalf => (hinv.probe hhalf).le, fun a s' hstep => probeDecides_iff hinv hstep⟩

/-- Eleven calls start; ten fail and the breaker opens.  After the cooldown a
twelfth is let through as the probe. -/
def slowCall : List BreakerAction :=
  List.replicate 11 .start ++ List.replicate 10 (.finish 1 false) ++ [.tick 30000, .start]

/-- The first of the eleven is still running beside the probe. -/
def halfOpenSys : BreakerSys where
  now := 30000
  breaker := { state := .halfOpen, consecutiveFailures := 10, halfOpenProbeInFlight := true }
  calls := [⟨0, 0⟩, ⟨30000, 1⟩]
  epoch := 1

theorem halfOpenSys_reached : Run (step {}) (fun _ _ => True) {} halfOpenSys := by
  obtain ⟨s, run, htest⟩ := @Run.of_execAll_test _ _ (step {}) (fun _ _ => True) _ slowCall {}
    (fun s => s = halfOpenSys) (by decide +kernel)
  exact of_decide_eq_true htest ▸ run

/-- **The late call closes the breaker** while the probe is still running. -/
theorem late_success_closes : Run (step {}) (fun _ _ => True) {} halfOpenSys ∧
    ∃ s', step {} halfOpenSys (.finish 0 true) = some s' ∧ s'.breaker.state = .closed ∧
      s'.calls.any s'.current = true ∧ ¬ ProbeDecides halfOpenSys (.finish 0 true) s' := by
  refine ⟨halfOpenSys_reached, { halfOpenSys with breaker := {}, calls := [⟨30000, 1⟩] },
    by decide +kernel, rfl, by decide, fun hdecides => ?_⟩
  obtain ⟨i, success, call, hact, hcall, hcurrent, _⟩ := hdecides rfl (by decide)
  obtain ⟨rfl, rfl⟩ := BreakerAction.finish.inj hact
  obtain rfl := Option.some.inj hcall
  exact absurd hcurrent (by decide)

theorem one_probe_slow :
    (halfOpenSys.breaker.state = .halfOpen →
      halfOpenSys.calls.countP halfOpenSys.current ≤ 1) ∧
    ∀ a s', halfOpenSys.step {} a = some s' →
      (ProbeDecides halfOpenSys a s' ↔ NoneLate halfOpenSys a) :=
  one_probe halfOpenSys_reached

/-! ## Calls within the cooldown -/

/-- Every call under way ends before it has run for the cooldown. -/
def Timely (opts : BreakerOptions) (s : BreakerSys) (a : BreakerAction) : Prop :=
  0 < opts.openTimeoutMs ∧
    ∀ now, a = .tick now → ∀ call ∈ s.calls,
      ((now - call.startedAt : Int) : ℚ) < opts.openTimeoutMs

/-- What timely runs keep: calls are younger than the cooldown, those beside
an open breaker were there when it opened, and none is beside the probe. -/
structure TimelyInv (opts : BreakerOptions) (s : BreakerSys) : Prop where
  inv : s.Inv opts
  young : ∀ call ∈ s.calls, ((s.now - call.startedAt : Int) : ℚ) < opts.openTimeoutMs
  started : ∀ call ∈ s.calls, call.startedAt ≤ s.now
  opened : s.breaker.state = .open → ∀ call ∈ s.calls, call.startedAt ≤ s.breaker.openedAt
  alone : s.breaker.state = .halfOpen → ∀ call ∈ s.calls, s.current call = true

/-- One timely step keeps late calls out. -/
theorem TimelyInv.step (h : s.TimelyInv opts) (hok : s.Timely opts a)
    (hstep : s.step opts a = some s') : s'.TimelyInv opts := by
  have hinv := h.inv.step hstep
  obtain ⟨hpos, htick⟩ := hok
  have hnew : ((s.now - s.now : Int) : ℚ) < opts.openTimeoutMs := by simpa using hpos
  obtain ⟨now, hle, rfl, hact⟩ | ⟨_, hclosed, rfl⟩ |
    ⟨_, breaker, hhalf, _, hfree, hfrom, rfl⟩ | ⟨i, success, call, _, hcall, rfl⟩ :=
      step_cases hstep
  · refine ⟨hinv, fun call hcall => ?_, fun call hcall => (h.started call hcall).trans hle,
      h.opened, h.alone⟩
    rcases hact with rfl | ⟨_, rfl⟩
    · exact htick now rfl call hcall
    · exact h.young call hcall
  · have hstate : s.breaker.state = .closed := hclosed.elim h.inv.disabled id
    refine ⟨hinv, fun call hcall => ?_, fun call hcall => ?_, fun hopen => ?_, fun hhalf => ?_⟩
    · rcases List.mem_append.mp hcall with hold | hlast
      · exact h.young call hold
      · obtain rfl := List.mem_singleton.mp hlast
        exact hnew
    · rcases List.mem_append.mp hcall with hold | hlast
      · exact h.started call hold
      · obtain rfl := List.mem_singleton.mp hlast
        exact le_rfl
    · exact absurd (hstate.symm.trans hopen) (by decide)
    · exact absurd (hstate.symm.trans hhalf) (by decide)
  · -- the cooldown is over, so no call from before it is left
    have hnone : s.calls = [] := by
      rcases hfrom with hwas | ⟨hopen, helapsed⟩
      · have hset := h.inv.flag.mpr hwas
        rw [hfree] at hset
        exact nomatch hset
      · refine List.eq_nil_iff_forall_not_mem.mpr fun call hcall => ?_
        have hyoung := h.young call hcall
        have hbefore := h.opened hopen call hcall
        have hage : s.now - s.breaker.openedAt ≤ s.now - call.startedAt := by lia
        have hage' : ((s.now - s.breaker.openedAt : Int) : ℚ) ≤
            ((s.now - call.startedAt : Int) : ℚ) := by exact_mod_cast hage
        exact absurd (helapsed.trans hage') (not_le.mpr hyoung)
    rw [hnone] at hinv ⊢
    refine ⟨hinv, fun call hcall => ?_, fun call hcall => ?_, fun hopen => ?_,
      fun _ call hcall => ?_⟩
    · obtain rfl := List.mem_singleton.mp hcall
      exact hnew
    · obtain rfl := List.mem_singleton.mp hcall
      exact le_rfl
    · exact absurd (hhalf.symm.trans hopen) (by decide)
    · obtain rfl := List.mem_singleton.mp hcall
      exact decide_eq_true rfl
  · have hold : ∀ call ∈ s.calls.eraseIdx i, call ∈ s.calls :=
      fun call hcall => List.mem_of_mem_eraseIdx hcall
    refine ⟨hinv, fun call hcall => h.young call (hold call hcall),
      fun call hcall => h.started call (hold call hcall), fun hopen call hcall => ?_,
      fun hhalf => ?_⟩
    · rcases CircuitBreaker.settle_openedAt hopen with ⟨hwas, hsame⟩ | hnow
      · exact (h.opened hwas call (hold call hcall)).trans_eq hsame.symm
      · exact (h.started call (hold call hcall)).trans_eq hnow.symm
    · by_cases hdisabled : opts.disabled = true
      · exact absurd ((hinv.disabled hdisabled).symm.trans hhalf) (by decide)
      · exact absurd hhalf (CircuitBreaker.settle_ne_halfOpen (by simpa using hdisabled) success)

/-- **Within the cooldown nothing is late**: where every call ends before it has run for the
cooldown, the probe decides at every step. -/
theorem timely_run {now : Instant} (run : Run (step opts) (Timely opts) { now := now } s)
    (hstep : s.step opts a = some s') : ProbeDecides s a s' := by
  have hinv : s.TimelyInv opts := run.invariant (TimelyInv opts)
    (fun _ _ _ h hok hstep => h.step hok hstep)
    ⟨.initial opts now, by simp, by simp, by simp, by simp⟩
  refine (probeDecides_iff hinv.inv hstep).mpr fun hhalf i success _ call hcall => ?_
  exact hinv.alone hhalf call (List.mem_of_getElem? hcall)

end BreakerSys

end Jadwal
