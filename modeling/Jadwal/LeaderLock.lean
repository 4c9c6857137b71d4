import Jadwal.Lib.Expiring
import Jadwal.Lib.Run
import Mathlib

/-!
# The leader of a scheduled job

Every task of the service hears every trigger of a cron.  `withLeaderLock` takes a lock on Redis
first, with a token of its own and a life of `ttlMs`; the task that gets it runs the job and
releases the lock in its `finally`.  Redis may be out of reach, an answer may be lost on the way
back, a task may crash in the middle of a job or outlive its lock.  What is asked: of the runs
that are within their time one alone holds the lock (`leaders_exclude`), and whatever became of
its holder the lock is free again after `ttlMs` (`leadership_recovers`).
-/

namespace Jadwal

/-- The jobs that run under a leader lock. -/
inductive CronJob
  | dailyReconciliation
  | dailyCleanup
  | cancelStalePending
  | autoCompleteBookings
  | autoExpireCoupons
  | emailOutboxDrain
  deriving DecidableEq, Repr

namespace CronJob

def lockKey : CronJob → String
  | dailyReconciliation => "cron:daily-reconciliation"
  | dailyCleanup => "cron:daily-cleanup"
  | cancelStalePending => "cron:cancel-stale-pending"
  | autoCompleteBookings => "cron:auto-complete-bookings"
  | autoExpireCoupons => "cron:auto-expire-coupons"
  | emailOutboxDrain => "cron:email-outbox-drain"

def ttlMs : CronJob → Nat
  | dailyReconciliation => 10 * 60000
  | dailyCleanup => 60 * 60000
  | cancelStalePending => 10 * 60000
  | autoCompleteBookings => 15 * 60000
  | autoExpireCoupons => 30 * 60000
  | emailOutboxDrain => 2 * 60000

/-- No job is kept from running by the lock of another. -/
theorem lockKey_injective : Function.Injective lockKey := by
  intro j j' h
  cases j <;> cases j' <;> first | rfl | exact absurd h (by decide)

end CronJob

/-- A task that has won the election, up to the end of its `finally`. -/
structure LeaderRun where
  job : CronJob
  token : Nat
  acquiredAt : Nat
  /-- `fn` has returned or thrown. -/
  done : Bool := false
  deriving DecidableEq, Repr

def LeaderRun.deadline (r : LeaderRun) : Nat := r.acquiredAt + r.job.ttlMs

/-- The tasks that run a job, and the locks on Redis. -/
structure LeaderWorld where
  now : Nat
  locks : Expiring String Nat
  runs : List LeaderRun
  /-- `crypto.randomUUID()` never repeats itself. -/
  nextToken : Nat

namespace LeaderWorld

/-- `SET key token PX ttlMs NX` -/
def setLock (s : LeaderWorld) (job : CronJob) : Option (Expiring String Nat) :=
  s.locks.setIfNone s.now job.lockKey s.nextToken job.ttlMs

/-- `tryAcquireForLeader`: without an answer the task does not lead. -/
def tryAcquireForLeader (s : LeaderWorld) (job : CronJob) (reply : StoreReply) : LeaderWorld :=
  let drawn := { s with nextToken := s.nextToken + 1 }
  match reply, s.setLock job with
  | .answered, some locks =>
      { drawn with
        locks := locks
        runs := s.runs ++ [{ job := job, token := s.nextToken, acquiredAt := s.now }] }
  | .lost, some locks => { drawn with locks := locks }
  | _, _ => drawn

/-- `release`, the `RELEASE_SCRIPT`. -/
def release (s : LeaderWorld) (r : LeaderRun) (reply : StoreReply) : LeaderWorld :=
  match reply with
  | .unreachable => s
  | _ => { s with locks := s.locks.deleteIf s.now r.job.lockKey r.token }

inductive LeaderAction
  | wait (ms : Nat)
  /-- A task hears the trigger of a job. -/
  | trigger (job : CronJob) (reply : StoreReply)
  /-- `fn` of the run of index `i` returns or throws. -/
  | finish (i : Nat)
  | release (i : Nat) (reply : StoreReply)
  | crash (i : Nat)
  deriving DecidableEq, Repr

def step (s : LeaderWorld) : LeaderAction → Option LeaderWorld
  | .wait ms => some { s with now := s.now + ms }
  | .trigger job reply => some (s.tryAcquireForLeader job reply)
  | .finish i =>
      (s.runs[i]?).bind fun r =>
        if r.done then none else some { s with runs := s.runs.set i { r with done := true } }
  | .release i reply =>
      (s.runs[i]?).bind fun r =>
        if r.done then some { s.release r reply with runs := s.runs.eraseIdx i } else none
  | .crash i => (s.runs[i]?).map fun _ => { s with runs := s.runs.eraseIdx i }

def initial (now : Nat) : LeaderWorld := ⟨now, Expiring.empty, [], 0⟩

def Reachable (s : LeaderWorld) : Prop := ∃ now, Run step (fun _ _ => True) (initial now) s

variable {s s' : LeaderWorld} {job : CronJob} {reply : StoreReply} {r r' : LeaderRun} {i : Nat}

/-- The invariant: a run within its time holds its lock. -/
structure Leased (s : LeaderWorld) : Prop where
  drawn : ∀ r ∈ s.runs, r.token < s.nextToken
  stored : ∀ k x, s.locks k = some x → x.value < s.nextToken
  distinct : (s.runs.map LeaderRun.token).Nodup
  holds : ∀ r ∈ s.runs, s.now < r.deadline →
    s.locks r.job.lockKey = some ⟨r.token, r.deadline⟩
  bounded : ∀ (job : CronJob) x, s.locks job.lockKey = some x → x.expiresAt ≤ s.now + job.ttlMs

theorem Leased.initial (now : Nat) : (initial now).Leased where
  drawn r hr := by simp [LeaderWorld.initial] at hr
  stored k x h := by cases h
  distinct := List.nodup_nil
  holds r hr := by simp [LeaderWorld.initial] at hr
  bounded job x h := by cases h

theorem Leased.wait (h : s.Leased) (ms : Nat) : ({ s with now := s.now + ms } : LeaderWorld).Leased
    where
  drawn := h.drawn
  stored := h.stored
  distinct := h.distinct
  holds r hr hlt := h.holds r hr (Nat.lt_of_le_of_lt (Nat.le_add_right _ _) hlt)
  bounded job x hx := (h.bounded job x hx).trans (by simp only; omega)

/-- A token is drawn, and nothing comes of it. -/
theorem Leased.draw (h : s.Leased) : ({ s with nextToken := s.nextToken + 1 } : LeaderWorld).Leased
    where
  drawn r hr := Nat.lt_succ_of_lt (h.drawn r hr)
  stored k x hx := Nat.lt_succ_of_lt (h.stored k x hx)
  distinct := h.distinct
  holds := h.holds
  bounded := h.bounded

/-- A lock that was free is nobody's who is within his time. -/
theorem Leased.ne_of_free (h : s.Leased) (hfree : s.locks.read s.now job.lockKey = none)
    (hr : r ∈ s.runs) (hlt : s.now < r.deadline) : r.job.lockKey ≠ job.lockKey := by
  intro heq
  have hread := Expiring.read_eq_some.mpr ⟨_, h.holds r hr hlt, hlt⟩
  rw [heq, hfree] at hread
  cases hread

/-- The lock is set, and its holder hears of it or not. -/
theorem Leased.locked (h : s.Leased) (hfree : s.locks.read s.now job.lockKey = none)
    {runs : List LeaderRun}
    (hruns : runs = s.runs ∨
      runs = s.runs ++ [{ job := job, token := s.nextToken, acquiredAt := s.now }]) :
    ({ s with
      locks := s.locks.set s.now job.lockKey s.nextToken job.ttlMs
      runs := runs
      nextToken := s.nextToken + 1 } : LeaderWorld).Leased := by
  have hmem : ∀ {r : LeaderRun}, r ∈ runs →
      r ∈ s.runs ∨ r = { job := job, token := s.nextToken, acquiredAt := s.now } := by
    intro r hr
    rcases hruns with rfl | rfl
    · exact .inl hr
    · rcases List.mem_append.mp hr with hr | hr
      · exact .inl hr
      · exact .inr (List.mem_singleton.mp hr)
  constructor
  case drawn =>
    intro r hr
    rcases hmem hr with hr | rfl
    · exact Nat.lt_succ_of_lt (h.drawn r hr)
    · exact Nat.lt_succ_self _
  case stored =>
    intro k x hx
    rcases Expiring.set_eq_some.mp hx with ⟨_, rfl⟩ | ⟨_, hx⟩
    · exact Nat.lt_succ_self _
    · exact Nat.lt_succ_of_lt (h.stored k x hx)
  case distinct =>
    rcases hruns with rfl | rfl
    · exact h.distinct
    · rw [List.map_append, List.nodup_append]
      refine ⟨h.distinct, List.nodup_singleton _, ?_⟩
      intro a ha b hb hab
      obtain ⟨r, hr, rfl⟩ := List.mem_map.mp ha
      rw [List.map_singleton, List.mem_singleton] at hb
      exact absurd (hab.trans hb) (Nat.ne_of_lt (h.drawn r hr))
  case holds =>
    intro r hr hlt
    rcases hmem hr with hr | rfl
    · exact (Expiring.set_of_ne (h.ne_of_free hfree hr hlt)).trans (h.holds r hr hlt)
    · exact Expiring.set_apply
  case bounded =>
    intro job' x hx
    rcases Expiring.set_eq_some.mp hx with ⟨hk, rfl⟩ | ⟨_, hx⟩
    · rw [CronJob.lockKey_injective hk]
    · exact h.bounded job' x hx

theorem Leased.tryAcquireForLeader (h : s.Leased) (job : CronJob) (reply : StoreReply) :
    (s.tryAcquireForLeader job reply).Leased := by
  unfold LeaderWorld.tryAcquireForLeader
  cases hset : s.setLock job with
  | none => cases reply <;> exact h.draw
  | some locks =>
      obtain ⟨hfree, rfl⟩ := Expiring.setIfNone_eq_some.mp hset
      cases reply with
      | answered => exact h.locked hfree (.inr rfl)
      | lost => exact h.locked hfree (.inl rfl)
      | unreachable => exact h.draw

/-- Fewer runs hold fewer locks. -/
theorem Leased.erase (h : s.Leased) (i : Nat) :
    ({ s with runs := s.runs.eraseIdx i } : LeaderWorld).Leased where
  drawn r hr := h.drawn r (List.mem_of_mem_eraseIdx hr)
  stored := h.stored
  distinct := h.distinct.sublist ((List.eraseIdx_sublist ..).map _)
  holds r hr := h.holds r (List.mem_of_mem_eraseIdx hr)
  bounded := h.bounded

/-- The run of index `i` says that it is done. -/
theorem Leased.finish (h : s.Leased) (hi : s.runs[i]? = some r) :
    ({ s with runs := s.runs.set i { r with done := true } } : LeaderWorld).Leased := by
  have htokens : (s.runs.set i { r with done := true }).map LeaderRun.token =
      s.runs.map LeaderRun.token := by
    apply List.ext_getElem?
    intro j
    rw [List.getElem?_map, List.getElem?_set, List.getElem?_map]
    by_cases hij : i = j
    · subst hij
      obtain ⟨hlt, rfl⟩ := List.getElem?_eq_some_iff.mp hi
      simp [hlt]
    · simp [hij]
  have hmem : ∀ {x : LeaderRun}, x ∈ s.runs.set i { r with done := true } →
      ∃ y ∈ s.runs, x.job = y.job ∧ x.token = y.token ∧ x.acquiredAt = y.acquiredAt := by
    intro x hx
    rcases List.mem_or_eq_of_mem_set hx with hx | rfl
    · exact ⟨x, hx, rfl, rfl, rfl⟩
    · exact ⟨r, List.mem_of_getElem? hi, rfl, rfl, rfl⟩
  refine ⟨?_, h.stored, ?_, ?_, h.bounded⟩
  · intro x hx
    obtain ⟨y, hy, _, htoken, _⟩ := hmem hx
    rw [htoken]
    exact h.drawn y hy
  · rw [htokens]
    exact h.distinct
  · intro x hx hlt
    obtain ⟨y, hy, hjob, htoken, hat⟩ := hmem hx
    unfold LeaderRun.deadline at hlt ⊢
    rw [hjob, hat] at hlt ⊢
    rw [htoken]
    exact h.holds y hy hlt

/-- The deletion frees the lock of the run that asks for it, and no other. -/
theorem Leased.release (h : s.Leased) (hi : s.runs[i]? = some r) (reply : StoreReply) :
    ({ s.release r reply with runs := s.runs.eraseIdx i } : LeaderWorld).Leased := by
  have hdeleted : ({ s with
      locks := s.locks.deleteIf s.now r.job.lockKey r.token
      runs := s.runs.eraseIdx i } : LeaderWorld).Leased := by
    refine ⟨(h.erase i).drawn, fun k x hx => h.stored k x (Expiring.of_deleteIf hx),
      (h.erase i).distinct, ?_, fun job x hx => h.bounded job x (Expiring.of_deleteIf hx)⟩
    intro x hx hlt
    have hholds := (h.erase i).holds x hx hlt
    have hread := Expiring.read_eq_some.mpr ⟨_, hholds, hlt⟩
    have hne : x.token ≠ r.token := by
      intro heq
      have hperm := ((perm_eraseIdx hi).map LeaderRun.token).nodup_iff.mp h.distinct
      rw [List.map_cons, List.nodup_cons] at hperm
      exact hperm.1 (heq ▸ List.mem_map_of_mem hx)
    by_cases hk : x.job.lockKey = r.job.lockKey
    · rw [hk] at hread hholds ⊢
      rw [Expiring.deleteIf_of_ne hread hne]
      exact hholds
    · exact (Expiring.deleteIf_key_of_ne hk).trans hholds
  cases reply with
  | answered => exact hdeleted
  | lost => exact hdeleted
  | unreachable => exact h.erase i

/-- **Every step keeps the locks with their runs.** -/
theorem Leased.step (h : s.Leased) {a : LeaderAction} (hstep : s.step a = some s') :
    s'.Leased := by
  cases a with
  | wait ms =>
      obtain rfl := Option.some.inj hstep
      exact h.wait ms
  | trigger job reply =>
      obtain rfl := Option.some.inj hstep
      exact h.tryAcquireForLeader job reply
  | finish i =>
      obtain ⟨r, hi, hs⟩ := Option.bind_eq_some_iff.mp hstep
      rw [Option.ite_none_left_eq_some] at hs
      obtain rfl := Option.some.inj hs.2
      exact h.finish hi
  | release i reply =>
      obtain ⟨r, hi, hs⟩ := Option.bind_eq_some_iff.mp hstep
      rw [Option.ite_none_right_eq_some] at hs
      obtain rfl := Option.some.inj hs.2
      exact h.release hi reply
  | crash i =>
      obtain ⟨r, hi, rfl⟩ := Option.map_eq_some_iff.mp hstep
      exact h.erase i

theorem Reachable.leased (h : s.Reachable) : s.Leased := by
  obtain ⟨now, hrun⟩ := h
  exact Run.invariant Leased (fun _ _ _ h _ hstep => h.step hstep) hrun (Leased.initial now)

/-- **One leader at a time**: however triggers, lost answers, crashes and releases follow one
another, a run within its time holds the lock of its job under its own token, and no other run of
the job is within its time. -/
theorem leaders_exclude (hs : s.Reachable) :
    (∀ r ∈ s.runs, s.now < r.deadline →
      s.locks.read s.now r.job.lockKey = some r.token) ∧
    (∀ r ∈ s.runs, ∀ r' ∈ s.runs, r.job = r'.job → s.now < r.deadline → s.now < r'.deadline →
      r = r') := by
  have h := hs.leased
  constructor
  · intro r hr hlt
    exact Expiring.read_eq_some.mpr ⟨_, h.holds r hr hlt, hlt⟩
  · intro r hr r' hr' hjob hlt hlt'
    have hholds := h.holds r hr hlt
    rw [hjob, h.holds r' hr' hlt', Option.some.injEq] at hholds
    exact List.inj_on_of_nodup_map h.distinct hr hr' (congrArg Timed.value hholds).symm

/-- Two tasks hear of the same minute; the second is refused. -/
theorem leaders_exclude_drain : ∃ s : LeaderWorld, s.Reachable ∧ s.runs.length = 1 ∧
    ∀ r ∈ s.runs, s.locks.read s.now r.job.lockKey = some r.token := by
  obtain ⟨s, hrun, htest⟩ := @Run.of_execAll_test _ _ step (fun _ _ => True) _
    [.trigger .emailOutboxDrain .answered, .trigger .emailOutboxDrain .answered, .wait 60000]
    (initial 0) (fun s => s.runs.length = 1 ∧ ∀ r ∈ s.runs, s.now < r.deadline) (by decide)
  have htest := of_decide_eq_true htest
  refine ⟨s, ⟨0, hrun⟩, htest.1, ?_⟩
  intro r hr
  exact (leaders_exclude ⟨0, hrun⟩).1 r hr (htest.2 r hr)

/-- No trigger of the job takes the lock. -/
def Untaken (job : CronJob) (s : LeaderWorld) (a : LeaderAction) : Prop :=
  ∀ reply, a = .trigger job reply → reply = .unreachable ∨ s.setLock job = none

theorem setLock_isSome : (s.setLock job).isSome = true ↔ s.locks.read s.now job.lockKey = none := by
  unfold setLock Expiring.setIfNone
  cases s.locks.read s.now job.lockKey <;> simp

/-- Without a trigger that takes it, the lock does not live longer. -/
theorem locks_of_untaken (h : Run step (Untaken job) s s') {x : Timed Nat}
    (hx : s'.locks job.lockKey = some x) : s.locks job.lockKey = some x := by
  refine Run.invariant (fun s' => ∀ x, s'.locks job.lockKey = some x →
    s.locks job.lockKey = some x) ?_ h (fun _ hx => hx) x hx
  intro t a t' ih hok hstep x hx
  cases a with
  | wait ms =>
      obtain rfl := Option.some.inj hstep
      exact ih x hx
  | trigger job' reply =>
      obtain rfl := Option.some.inj hstep
      unfold tryAcquireForLeader at hx
      cases hset : t.setLock job' with
      | none =>
          rw [hset] at hx
          cases reply <;> exact ih x hx
      | some locks =>
          rw [hset] at hx
          obtain ⟨_, rfl⟩ := Expiring.setIfNone_eq_some.mp hset
          have hother : job' ≠ job ∨ reply = .unreachable := by
            by_cases hjob : job' = job
            · subst hjob
              rcases hok reply rfl with hreply | hnone
              · exact .inr hreply
              · rw [hset] at hnone
                cases hnone
            · exact .inl hjob
          have hkept : ∀ {x}, t.locks.set t.now job'.lockKey t.nextToken job'.ttlMs job.lockKey =
              some x → job' ≠ job → t.locks job.lockKey = some x := by
            intro x hx hne
            rwa [Expiring.set_of_ne fun heq => hne (CronJob.lockKey_injective heq).symm] at hx
          rcases hother with hne | rfl
          · cases reply with
            | answered => exact ih x (hkept hx hne)
            | lost => exact ih x (hkept hx hne)
            | unreachable => exact ih x hx
          · exact ih x hx
  | finish i =>
      obtain ⟨r, _, hs⟩ := Option.bind_eq_some_iff.mp hstep
      rw [Option.ite_none_left_eq_some] at hs
      obtain rfl := Option.some.inj hs.2
      exact ih x hx
  | release i reply =>
      obtain ⟨r, _, hs⟩ := Option.bind_eq_some_iff.mp hstep
      rw [Option.ite_none_right_eq_some] at hs
      obtain rfl := Option.some.inj hs.2
      cases reply with
      | answered => exact ih x (Expiring.of_deleteIf hx)
      | lost => exact ih x (Expiring.of_deleteIf hx)
      | unreachable => exact ih x hx
  | crash i =>
      obtain ⟨r, _, rfl⟩ := Option.map_eq_some_iff.mp hstep
      exact ih x hx

/-- **The lock comes free**: whatever has become of the holder, a task that asks `ttlMs` later
leads, unless another has taken the lock meanwhile; and the release of a run within its time frees
the lock at once. -/
theorem leadership_recovers (hs : s.Reachable) :
    (∀ s', Run step (Untaken job) s s' → s.now + job.ttlMs ≤ s'.now →
      (s'.tryAcquireForLeader job .answered).runs =
        s'.runs ++ [{ job := job, token := s'.nextToken, acquiredAt := s'.now }]) ∧
    (∀ r ∈ s.runs, s.now < r.deadline → ∀ reply ≠ .unreachable,
      ((s.release r reply).setLock r.job).isSome = true) := by
  have h := hs.leased
  constructor
  · intro s' hrun hlate
    have hfree : s'.locks.read s'.now job.lockKey = none := by
      cases hread : s'.locks.read s'.now job.lockKey with
      | none => rfl
      | some token =>
          obtain ⟨expiresAt, hx, hlt⟩ := Expiring.read_eq_some.mp hread
          have hle := h.bounded job _ (locks_of_untaken hrun hx)
          simp only at hle
          omega
    obtain ⟨locks, hset⟩ := Option.isSome_iff_exists.mp (setLock_isSome.mpr hfree)
    unfold tryAcquireForLeader
    rw [hset]
  · intro r hr hlt reply hreply
    have hread := Expiring.read_eq_some.mpr ⟨_, h.holds r hr hlt, hlt⟩
    have hfree : (s.locks.deleteIf s.now r.job.lockKey r.token).read s.now r.job.lockKey = none :=
      Expiring.read_deleteIf_self hread
    cases reply with
    | answered => exact setLock_isSome.mpr hfree
    | lost => exact setLock_isSome.mpr hfree
    | unreachable => exact absurd rfl hreply

/-- A task that leads the clean-up crashes, and another drains the outbox: the lock of the first
comes free an hour later, that of the second when it is released. -/
theorem leadership_recovers_crashed :
    ∃ s : LeaderWorld, s.Reachable ∧ (s.setLock .dailyCleanup).isNone = true ∧
      (∀ r ∈ s.runs, r.job ≠ .dailyCleanup) ∧
      (∃ s', Run step (Untaken .dailyCleanup) s s' ∧
        (s'.tryAcquireForLeader .dailyCleanup .answered).runs =
          s'.runs ++ [{ job := .dailyCleanup, token := s'.nextToken, acquiredAt := s'.now }]) ∧
      ∃ r ∈ s.runs, (s.setLock r.job).isNone = true ∧
        ((s.release r .answered).setLock r.job).isSome = true := by
  obtain ⟨s, hrun, htest⟩ := @Run.of_execAll_test _ _ step (fun _ _ => True) _
    [.trigger .dailyCleanup .answered, .crash 0, .trigger .emailOutboxDrain .answered, .wait 60000]
    (initial 0) (fun s => (s.setLock .dailyCleanup).isNone = true ∧
      (∀ r ∈ s.runs, r.job ≠ .dailyCleanup) ∧
      ∃ r ∈ s.runs, (s.setLock r.job).isNone = true ∧ s.now < r.deadline) (by decide)
  obtain ⟨hheld, hcrashed, r, hr, htaken, hlt⟩ := of_decide_eq_true htest
  obtain ⟨hfree, hreleased⟩ := @leadership_recovers s .dailyCleanup ⟨0, hrun⟩
  have hwait : Run step (Untaken .dailyCleanup) s { s with now := s.now + 3600000 } :=
    (Run.nil s).snoc (a := .wait 3600000) (fun _ h => by cases h) rfl
  refine ⟨s, ⟨0, hrun⟩, hheld, hcrashed, ⟨_, hwait, hfree _ hwait le_rfl⟩, r, hr, htaken, ?_⟩
  exact hreleased r hr hlt .answered (by simp)

end LeaderWorld

end Jadwal
