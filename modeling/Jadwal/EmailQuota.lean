import Jadwal.Schema
import Jadwal.Lib.Run

/-!
# The email quota

`tryConsume` budgets the mails of a type to a recipient with two keys of
Redis: a counter that expires a day after its first increment, and the time
of the last send.  It reads both, increments the counter and stamps the send,
each a command of its own, and calls interleave between any two of them.

* The sends of one life of a counter stay within the limit, a call refused by
  the cooldown changes no counter, and an answer of no cooldown is kept.
* Sends are apart by the cooldown when each call increments while the keys
  still are what it had read (`quota_holds`); two that read the keys before
  either increments are both accepted at once (`quota_burst`).
-/

namespace Jadwal

inductive EmailQuotaType
  | reset
  | verification
  | changeNotification
  | bookingOtp
  deriving DecidableEq, Repr

def EmailQuotaType.defaultLimit : EmailQuotaType → ℚ
  | reset => 5
  | verification => 5
  | changeNotification => 3
  | bookingOtp => 10

/-- `cooldownExemptTypes`. -/
def EmailQuotaType.cooldownExempt (type : EmailQuotaType) : Bool := type = .bookingOtp

/-- What the service is configured with: the numbers of the environment, where one is set, and
the hash of a recipient. -/
structure QuotaEnv where
  fromEnv : EmailQuotaType → Option ℚ
  hashEmail : String → String

def QuotaEnv.getLimit (env : QuotaEnv) (type : EmailQuotaType) : ℚ :=
  (env.fromEnv type).getD type.defaultLimit

/-- What tells the keys of two recipients and types apart. -/
structure QuotaKey where
  type : EmailQuotaType
  hash : String
  deriving DecidableEq, Repr

/-- `makeKey`. -/
def QuotaEnv.makeKey (env : QuotaEnv) (email : String) (type : EmailQuotaType) : QuotaKey :=
  ⟨type, env.hashEmail email⟩

/-- `cooldownAfterSendMs`. -/
def cooldownAfterSendMs : List Int := [0, 60000, 300000, 900000, 3600000]

/-- The wait a count requires before the next send. -/
def requiredWait (count : Nat) : Int := cooldownAfterSendMs.getD count 0

/-- The life of both keys: 24 hours. -/
def quotaWindow : Int := 86400000

/-! ## The two keys -/

/-- A counter.  Its life tells it from the counters before it. -/
structure QuotaCounter where
  count : Nat
  life : Nat
  expiresAt : Option Instant
  deriving DecidableEq, Repr

structure LastSent where
  sentAt : Instant
  expiresAt : Instant
  deriving DecidableEq, Repr

/-- Both keys of one recipient and type. -/
structure QuotaSlot where
  counter : Option QuotaCounter := none
  lastSent : Option LastSent := none
  lives : Nat := 0
  deriving DecidableEq, Repr

namespace QuotaSlot

/-- The counter, unless it has expired. -/
def counterAt (slot : QuotaSlot) (now : Instant) : Option QuotaCounter :=
  slot.counter.filter (fun c => c.expiresAt.all (fun t => now ≤ t))

def countAt (slot : QuotaSlot) (now : Instant) : Option Nat :=
  (slot.counterAt now).map QuotaCounter.count

/-- The time of the last send, unless it has expired. -/
def lastSentAt (slot : QuotaSlot) (now : Instant) : Option Instant :=
  (slot.lastSent.filter (fun l => now ≤ l.expiresAt)).map LastSent.sentAt

/-- What INCR leaves in the counter. -/
def incr (slot : QuotaSlot) (now : Instant) : QuotaCounter :=
  match slot.counterAt now with
  | some c => { c with count := c.count + 1 }
  | none => ⟨1, slot.lives, none⟩

/-- EXPIRE. -/
def expire (slot : QuotaSlot) (now : Instant) : QuotaSlot :=
  match slot.counterAt now with
  | some c => { slot with counter := some { c with expiresAt := some (now + quotaWindow) } }
  | none => slot

end QuotaSlot

/-- The test of the cooldown, on what MGET read. -/
def cooldownBlocks (type : EmailQuotaType) (lastSent : Option Instant) (prevCount : Option Nat)
    (now : Instant) : Bool :=
  let lastSent := lastSent.getD 0
  let prevCount := prevCount.getD 0
  ¬ type.cooldownExempt ∧ 0 < lastSent ∧ 0 < prevCount ∧
    prevCount < cooldownAfterSendMs.length ∧ now - lastSent < requiredWait prevCount

/-- The answer of `getCooldownRemainingSec`, on what MGET read: `Math.ceil` of the seconds. -/
def getCooldownRemainingSec (lastSent : Option Instant) (prevCount : Option Nat)
    (now : Instant) : Int :=
  let lastSent := lastSent.getD 0
  let prevCount := prevCount.getD 0
  if lastSent ≤ 0 ∨ prevCount ≤ 0 ∨ cooldownAfterSendMs.length ≤ prevCount then 0
  else
    let elapsed := now - lastSent
    if requiredWait prevCount ≤ elapsed then 0
    else ⌈((requiredWait prevCount - elapsed : Int) : ℚ) / 1000⌉

/-! ## One call -/

/-- Where a call is: before which of its commands, or what it answered. -/
inductive QuotaPhase
  | started
  | read (lastSent : Option Instant) (prevCount : Option Nat)
  | passed (lastSent : Option Instant) (prevCount : Option Nat)
  | expiring (life : Nat)
  | counted (life count : Nat)
  | stamping (life count : Nat) (sentAt : Instant)
  | accepted (life count : Nat) (sentAt : Instant)
  | cooldownRefused
  | limitRefused
  | disabled
  deriving DecidableEq, Repr

/-- `count > limit`. -/
def QuotaEnv.testLimit (env : QuotaEnv) (key : QuotaKey) (life count : Nat) : QuotaPhase :=
  if env.getLimit key.type < count then .limitRefused else .counted life count

theorem QuotaEnv.testLimit_cases (env : QuotaEnv) (key : QuotaKey) (life count : Nat) :
    env.getLimit key.type < count ∧ env.testLimit key life count = .limitRefused ∨
      (count : ℚ) ≤ env.getLimit key.type ∧ env.testLimit key life count = .counted life count := by
  rcases lt_or_ge (env.getLimit key.type) count with hlt | hle
  · exact .inl ⟨hlt, if_pos hlt⟩
  · exact .inr ⟨hle, if_neg (not_lt.mpr hle)⟩

/-- `tryConsume`, from one command or reading of the clock to the next. -/
def QuotaPhase.next (env : QuotaEnv) (key : QuotaKey) (now : Instant) (slot : QuotaSlot) :
    QuotaPhase → Option (QuotaPhase × QuotaSlot)
  | started =>
      if env.getLimit key.type ≤ 0 then some (.disabled, slot)
      else some (.read (slot.lastSentAt now) (slot.countAt now), slot)
  | read lastSent prevCount =>
      if cooldownBlocks key.type lastSent prevCount now then some (.cooldownRefused, slot)
      else some (.passed lastSent prevCount, slot)
  | passed _ _ =>
      let counter := slot.incr now
      let lives := max slot.lives (counter.life + 1)
      let slot := { slot with counter := some counter, lives := lives }
      if counter.count = 1 then some (.expiring counter.life, slot)
      else some (env.testLimit key counter.life counter.count, slot)
  | expiring life => some (env.testLimit key life 1, slot.expire now)
  | counted life count => some (.stamping life count now, slot)
  | stamping life count sentAt =>
      some (.accepted life count sentAt,
        { slot with lastSent := some ⟨sentAt, now + quotaWindow⟩ })
  | accepted _ _ _ | cooldownRefused | limitRefused | disabled => none

/-- The life and the count of a call that may still be accepted. -/
def QuotaPhase.ticket : QuotaPhase → Option (Nat × Nat)
  | expiring life => some (life, 1)
  | counted life count => some (life, count)
  | stamping life count _ => some (life, count)
  | _ => none

/-- The time a call stamps its send with. -/
def QuotaPhase.stamp : QuotaPhase → Option Instant
  | stamping _ _ sentAt => some sentAt
  | _ => none

/-- The next command writes the counter. -/
def QuotaPhase.writesCounter : QuotaPhase → Bool
  | passed _ _ | expiring _ => true
  | _ => false

/-- The phases from which a call may still be accepted, in a life of a counter. -/
def QuotaPhase.mayBeSent (limit : ℚ) (life : Nat) : QuotaPhase → Bool
  | .expiring l => l = life ∧ 1 ≤ limit
  | .counted l _ | .stamping l _ _ => l = life
  | _ => false

/-- The phases after the increment. -/
def QuotaPhase.incremented : QuotaPhase → Bool
  | .expiring _ | .counted _ _ | .stamping _ _ _ | .accepted _ _ _ | .limitRefused => true
  | _ => false

structure QuotaCall where
  key : QuotaKey
  phase : QuotaPhase
  deriving DecidableEq, Repr

/-- An accepted send. -/
structure QuotaSend where
  key : QuotaKey
  life : Nat
  count : Nat
  sentAt : Instant
  deriving DecidableEq, Repr

def QuotaCall.send : QuotaCall → Option QuotaSend
  | ⟨key, .accepted life count sentAt⟩ => some ⟨key, life, count, sentAt⟩
  | _ => none

theorem key_of_send {c : QuotaCall} {x : QuotaSend} (h : c.send = some x) : x.key = c.key := by
  obtain ⟨key, phase⟩ := c
  cases phase with
  | accepted life count sentAt => exact congrArg QuotaSend.key (Option.some.inj h).symm
  | _ => exact nomatch h

/-! ## The system -/

/-- The clock, the keys and the calls; `sends` logs what was accepted, and `counterWrites` the
calls that wrote a counter. -/
structure QuotaSys where
  now : Instant
  slots : QuotaKey → QuotaSlot := fun _ => {}
  calls : List QuotaCall := []
  sends : List QuotaSend := []
  counterWrites : List Nat := []

inductive QuotaAction
  | tick (now : Instant)
  | call (email : String) (type : EmailQuotaType)
  | advance (i : Nat)
  deriving DecidableEq, Repr

namespace QuotaSys

variable (env : QuotaEnv)

/-- The state once a call has advanced. -/
def advanced (s : QuotaSys) (i : Nat) (call : QuotaCall) (phase : QuotaPhase) (slot : QuotaSlot) :
    QuotaSys :=
  let writes := if call.phase.writesCounter then [i] else []
  { s with
    slots := Function.update s.slots call.key slot
    calls := s.calls.set i ⟨call.key, phase⟩
    sends := s.sends ++ (QuotaCall.send ⟨call.key, phase⟩).toList
    counterWrites := s.counterWrites ++ writes }

def step (s : QuotaSys) : QuotaAction → Option QuotaSys
  | .tick now => if s.now ≤ now then some { s with now := now } else none
  | .call email type => some { s with calls := s.calls ++ [⟨env.makeKey email type, .started⟩] }
  | .advance i =>
      (s.calls[i]?).bind fun call =>
        (call.phase.next env call.key s.now (s.slots call.key)).map fun next =>
          s.advanced i call next.1 next.2

/-- Nothing is stored and nothing was sent; the clock is past the epoch. -/
structure Initial (s : QuotaSys) : Prop where
  now : 0 < s.now
  slots : s.slots = fun _ => {}
  calls : s.calls = []
  sends : s.sends = []
  counterWrites : s.counterWrites = []

variable {env} {s s' : QuotaSys} {i : Nat} {call : QuotaCall}

/-- **What a step does**: the clock goes on, a call begins, or one of the calls advances. -/
theorem step_cases {a : QuotaAction} (h : s.step env a = some s') :
    (∃ now, s.now ≤ now ∧ s' = { s with now := now }) ∨
    (∃ key, s' = { s with calls := s.calls ++ [⟨key, .started⟩] }) ∨
    ∃ i call phase slot, a = .advance i ∧ s.calls[i]? = some call ∧
      call.phase.next env call.key s.now (s.slots call.key) = some (phase, slot) ∧
      s' = s.advanced i call phase slot := by
  cases a with
  | tick now =>
      simp only [step, Option.ite_none_right_eq_some, Option.some.injEq] at h
      exact .inl ⟨now, h.1, h.2.symm⟩
  | call email type =>
      simp only [step, Option.some.injEq] at h
      exact .inr (.inl ⟨_, h.symm⟩)
  | advance i =>
      simp only [step, Option.bind_eq_some_iff, Option.map_eq_some_iff] at h
      obtain ⟨call, hcall, ⟨phase, slot⟩, hnext, rfl⟩ := h
      exact .inr (.inr ⟨i, call, phase, slot, rfl, hcall, hnext, rfl⟩)

/-- The calls once one has advanced. -/
theorem getElem?_advanced (hcall : s.calls[i]? = some call) {phase : QuotaPhase}
    {slot : QuotaSlot} {j : Nat} {c : QuotaCall} :
    (s.advanced i call phase slot).calls[j]? = some c ↔
      (j = i ∧ c = ⟨call.key, phase⟩) ∨ (j ≠ i ∧ s.calls[j]? = some c) := by
  obtain ⟨hi, _⟩ := List.getElem?_eq_some_iff.mp hcall
  simp only [advanced, List.getElem?_set]
  by_cases hij : i = j
  · subst hij
    simp [hi, eq_comm]
  · simp [hij, Ne.symm hij]

/-! ## The limit -/

/-- A call that may still be accepted. -/
def mayBeSent (env : QuotaEnv) (key : QuotaKey) (life : Nat) (c : QuotaCall) : Bool :=
  c.key = key ∧ c.phase.mayBeSent (env.getLimit key.type) life

/-- The sends of a life of a counter. -/
def sendsOf (s : QuotaSys) (key : QuotaKey) (life : Nat) : Nat :=
  s.sends.countP (fun x => x.key = key ∧ x.life = life)

/-- The sends of a life, and those that may still come. -/
def used (env : QuotaEnv) (s : QuotaSys) (key : QuotaKey) (life : Nat) : Nat :=
  s.sendsOf key life + s.calls.countP (mayBeSent env key life)

/-- The invariant of the limit: a life's sends are within the limit, within its counter while it
lasts, and none before it begins. -/
structure Budgeted (env : QuotaEnv) (s : QuotaSys) : Prop where
  limit : ∀ key life, 0 < env.getLimit key.type → (s.used env key life : ℚ) ≤ env.getLimit key.type
  counter : ∀ key, ∀ c ∈ (s.slots key).counter,
    c.life < (s.slots key).lives ∧ 1 ≤ c.count ∧ s.used env key c.life ≤ c.count
  unborn : ∀ key life, (s.slots key).lives ≤ life → s.used env key life = 0

/-- What advancing a call adds to a life, against what the call was worth before. -/
theorem used_advanced (hcall : s.calls[i]? = some call) (phase : QuotaPhase) (slot : QuotaSlot)
    (key : QuotaKey) (life : Nat) :
    (s.advanced i call phase slot).used env key life + [call].countP (mayBeSent env key life) =
      s.used env key life + [(⟨call.key, phase⟩ : QuotaCall)].countP (mayBeSent env key life) +
        (QuotaCall.send ⟨call.key, phase⟩).toList.countP
          (fun x => x.key = key ∧ x.life = life) := by
  obtain ⟨hi, hget⟩ := List.getElem?_eq_some_iff.mp hcall
  have hbefore := countP_eraseIdx (mayBeSent env key life) hcall
  have hset := @List.countP_set _ (mayBeSent env key life) s.calls i ⟨call.key, phase⟩ hi
  rw [hget] at hset
  simp only [used, sendsOf, advanced, List.countP_append, List.countP_singleton] at hbefore ⊢
  rw [hset]
  omega

theorem Budgeted.of_le (h : s.Budgeted env)
    (hle : ∀ key life, s'.used env key life ≤ s.used env key life)
    (hlives : ∀ key, (s'.slots key).lives = (s.slots key).lives)
    (hcounter : ∀ key, ∀ c' ∈ (s'.slots key).counter,
      ∃ c ∈ (s.slots key).counter, c'.life = c.life ∧ c'.count = c.count) : s'.Budgeted env where
  limit key life hpos := (Nat.cast_le.mpr (hle key life)).trans (h.limit key life hpos)
  counter key c' hc' := by
    obtain ⟨c, hc, hlife, hcount⟩ := hcounter key c' hc'
    obtain ⟨hborn, hone, hused⟩ := h.counter key c hc
    rw [hlives, hlife, hcount]
    exact ⟨hborn, hone, (hle key c.life).trans hused⟩
  unborn key life hlife := by
    have hnone := h.unborn key life (hlives key ▸ hlife)
    have hle := hle key life
    omega

/-- Advancing without an increment: the call is worth no more than before. -/
theorem Budgeted.of_worth (h : s.Budgeted env) (hcall : s.calls[i]? = some call)
    {phase : QuotaPhase} {slot : QuotaSlot}
    (hworth : ∀ key life,
      [(⟨call.key, phase⟩ : QuotaCall)].countP (mayBeSent env key life) +
        (QuotaCall.send ⟨call.key, phase⟩).toList.countP (fun x => x.key = key ∧ x.life = life) ≤
      [call].countP (mayBeSent env key life))
    (hlives : slot.lives = (s.slots call.key).lives)
    (hcounter : ∀ c' ∈ slot.counter,
      ∃ c ∈ (s.slots call.key).counter, c'.life = c.life ∧ c'.count = c.count) :
    (s.advanced i call phase slot).Budgeted env := by
  refine h.of_le (fun key life => ?_) (fun key => ?_) (fun key c' hc' => ?_)
  · have hused := @used_advanced env s i call hcall phase slot key life
    have hworth := hworth key life
    omega
  · by_cases hkey : key = call.key
    · subst hkey
      simpa [advanced] using hlives
    · simp [advanced, hkey]
  · by_cases hkey : key = call.key
    · subst hkey
      simp only [advanced, Function.update_self] at hc'
      exact hcounter c' hc'
    · simp only [advanced, Function.update_of_ne hkey] at hc'
      exact ⟨c', hc', rfl, rfl⟩

/-- A call that can be sent neither before nor after its step. -/
theorem Budgeted.waits (h : s.Budgeted env) (hcall : s.calls[i]? = some call)
    {phase : QuotaPhase} (hafter : ∀ limit life, phase.mayBeSent limit life = false)
    (hsend : QuotaCall.send ⟨call.key, phase⟩ = none) :
    (s.advanced i call phase (s.slots call.key)).Budgeted env := by
  refine h.of_worth hcall (fun key life => ?_) rfl fun c hc => ⟨c, hc, rfl, rfl⟩
  rw [hsend, Option.toList_none, List.countP_nil, List.countP_singleton, if_neg]
  · exact Nat.zero_le _
  · simp [mayBeSent, hafter]

/-- What an increment leaves. -/
theorem incr_cases (slot : QuotaSlot) (now : Instant) :
    (∃ c ∈ slot.counter, slot.counterAt now = some c ∧
      slot.incr now = { c with count := c.count + 1 }) ∨
    slot.counterAt now = none ∧ slot.incr now = ⟨1, slot.lives, none⟩ := by
  unfold QuotaSlot.incr
  cases hlive : slot.counterAt now with
  | none => exact .inr ⟨rfl, rfl⟩
  | some c => exact .inl ⟨c, (Option.filter_eq_some_iff.mp hlive).1, rfl, rfl⟩

/-- The life incremented has room for one more. -/
theorem Budgeted.room (h : s.Budgeted env) (key : QuotaKey) :
    s.used env key ((s.slots key).incr s.now).life + 1 ≤ ((s.slots key).incr s.now).count := by
  rcases incr_cases (s.slots key) s.now with ⟨c, hc, _, heq⟩ | ⟨_, heq⟩
  · rw [heq]
    exact Nat.succ_le_succ (h.counter key c hc).2.2
  · rw [heq, h.unborn key _ le_rfl]

/-- The increment: its life's sends grow by one at most, and so does its counter. -/
theorem Budgeted.incr (h : s.Budgeted env) (hcall : s.calls[i]? = some call)
    (hnone : ∀ key life, mayBeSent env key life call = false) {phase : QuotaPhase}
    (hsend : QuotaCall.send ⟨call.key, phase⟩ = none)
    (hmay : ∀ key life, mayBeSent env key life ⟨call.key, phase⟩ = true → key = call.key ∧
      life = ((s.slots call.key).incr s.now).life ∧
      (((s.slots call.key).incr s.now).count : ℚ) ≤ env.getLimit key.type) :
    (s.advanced i call phase { s.slots call.key with
      counter := some ((s.slots call.key).incr s.now)
      lives := max (s.slots call.key).lives
        (((s.slots call.key).incr s.now).life + 1) }).Budgeted env := by
  have hroom := h.room call.key
  generalize hslot : { s.slots call.key with
    counter := some ((s.slots call.key).incr s.now)
    lives := max (s.slots call.key).lives
      (((s.slots call.key).incr s.now).life + 1) } = slot
  generalize (s.slots call.key).incr s.now = counter at hslot hroom hmay
  subst hslot
  have hused := fun slot key life => @used_advanced env s i call hcall phase slot key life
  simp only [hsend, Option.toList_none, List.countP_nil, List.countP_singleton, hnone,
    Bool.false_eq_true, if_false, add_zero] at hused
  have hother : ∀ slot key life, key ≠ call.key ∨ life ≠ counter.life →
      (s.advanced i call phase slot).used env key life = s.used env key life := by
    intro slot key life hne
    rw [hused, if_neg, add_zero]
    intro hsent
    obtain ⟨hkey, hlife, _⟩ := hmay key life hsent
    exact hne.elim (fun h => h hkey) (fun h => h hlife)
  have hle : ∀ slot, (s.advanced i call phase slot).used env call.key counter.life ≤
      s.used env call.key counter.life + 1 := by
    intro slot
    rw [hused]
    split <;> omega
  constructor
  · intro key life hpos
    by_cases heq : key = call.key ∧ life = counter.life
    · obtain ⟨rfl, rfl⟩ := heq
      rw [hused]
      split
      case isTrue hsent =>
        -- the new count is within the limit
        exact (Nat.cast_le.mpr hroom).trans (hmay _ _ hsent).2.2
      case isFalse => exact h.limit _ _ hpos
    · rw [hother _ _ _ (not_and_or.mp heq)]
      exact h.limit _ _ hpos
  · intro key c hc
    by_cases hkey : key = call.key
    · subst hkey
      simp only [advanced, Function.update_self, Option.mem_def, Option.some.injEq] at hc ⊢
      subst hc
      have hle := hle { s.slots call.key with
        counter := some counter
        lives := max (s.slots call.key).lives (counter.life + 1) }
      exact ⟨by omega, by omega, hle.trans hroom⟩
    · rw [hother _ _ _ (.inl hkey)]
      simp only [advanced, Function.update_of_ne hkey] at hc ⊢
      exact h.counter key c hc
  · intro key life hlife
    by_cases hkey : key = call.key
    · subst hkey
      simp only [advanced, Function.update_self] at hlife
      rw [hother _ _ _ (.inr (by omega))]
      exact h.unborn _ _ (by omega)
    · rw [hother _ _ _ (.inl hkey)]
      simp only [advanced, Function.update_of_ne hkey] at hlife
      exact h.unborn _ _ hlife

/-- A call past the test of the limit is of its life, and within the limit. -/
theorem mayBeSent_testLimit {key key' : QuotaKey} {life count life' : Nat}
    (h : mayBeSent env key' life' ⟨key, env.testLimit key life count⟩ = true) :
    key' = key ∧ life' = life ∧ (count : ℚ) ≤ env.getLimit key'.type := by
  rcases env.testLimit_cases key life count with ⟨_, heq⟩ | ⟨hwithin, heq⟩
  · rw [heq] at h
    simp [mayBeSent, QuotaPhase.mayBeSent] at h
  · rw [heq] at h
    simp only [mayBeSent, QuotaPhase.mayBeSent, decide_eq_true_eq] at h
    obtain ⟨rfl, rfl⟩ := h
    exact ⟨rfl, rfl, hwithin⟩

theorem send_testLimit (key : QuotaKey) (life count : Nat) :
    QuotaCall.send ⟨key, env.testLimit key life count⟩ = none := by
  rcases env.testLimit_cases key life count with ⟨_, heq⟩ | ⟨_, heq⟩
  · rw [heq]
    rfl
  · rw [heq]
    rfl

/-- **One step keeps the budget.** -/
theorem Budgeted.step (h : s.Budgeted env) {a : QuotaAction} (hstep : s.step env a = some s') :
    s'.Budgeted env := by
  rcases step_cases hstep with ⟨now, _, rfl⟩ | ⟨key, rfl⟩ | ⟨i, call, phase, slot, rfl, hcall,
    hnext, rfl⟩
  · exact h.of_le (fun _ _ => le_rfl) (fun _ => rfl) (fun _ c hc => ⟨c, hc, rfl, rfl⟩)
  · refine h.of_le (fun key' life => ?_) (fun _ => rfl) (fun _ c hc => ⟨c, hc, rfl, rfl⟩)
    simp [used, sendsOf, mayBeSent, QuotaPhase.mayBeSent]
  · obtain ⟨key, before⟩ := call
    cases before with
    | started =>
        simp only [QuotaPhase.next] at hnext
        split at hnext
        · obtain ⟨rfl, rfl⟩ := Prod.mk.inj (Option.some.inj hnext)
          exact h.waits hcall (fun _ _ => rfl) rfl
        · obtain ⟨rfl, rfl⟩ := Prod.mk.inj (Option.some.inj hnext)
          exact h.waits hcall (fun _ _ => rfl) rfl
    | read lastSent prevCount =>
        simp only [QuotaPhase.next] at hnext
        split at hnext
        · obtain ⟨rfl, rfl⟩ := Prod.mk.inj (Option.some.inj hnext)
          exact h.waits hcall (fun _ _ => rfl) rfl
        · obtain ⟨rfl, rfl⟩ := Prod.mk.inj (Option.some.inj hnext)
          exact h.waits hcall (fun _ _ => rfl) rfl
    | passed lastSent prevCount =>
        simp only [QuotaPhase.next] at hnext
        split at hnext
        case isTrue hfirst =>
          obtain ⟨rfl, rfl⟩ := Prod.mk.inj (Option.some.inj hnext)
          refine h.incr hcall (fun _ _ => by simp [mayBeSent, QuotaPhase.mayBeSent]) rfl
            fun key' life hsent => ?_
          simp only [mayBeSent, QuotaPhase.mayBeSent, decide_eq_true_eq] at hsent
          obtain ⟨rfl, rfl, hwithin⟩ := hsent
          exact ⟨rfl, rfl, by rwa [hfirst, Nat.cast_one]⟩
        case isFalse =>
          obtain ⟨rfl, rfl⟩ := Prod.mk.inj (Option.some.inj hnext)
          exact h.incr hcall (fun _ _ => by simp [mayBeSent, QuotaPhase.mayBeSent])
            (send_testLimit _ _ _) fun _ _ hsent => mayBeSent_testLimit hsent
    | expiring life =>
        obtain ⟨rfl, rfl⟩ := Prod.mk.inj (Option.some.inj hnext)
        refine h.of_worth hcall (fun key' life' => ?_) ?_ ?_
        · rw [send_testLimit, List.countP_singleton, List.countP_singleton]
          split
          case isTrue hsent =>
            obtain ⟨rfl, rfl, hwithin⟩ := mayBeSent_testLimit hsent
            rw [Nat.cast_one] at hwithin
            simp [mayBeSent, QuotaPhase.mayBeSent, hwithin]
          case isFalse => exact Nat.zero_le _
        · unfold QuotaSlot.expire
          split <;> rfl
        · intro c' hc'
          unfold QuotaSlot.expire at hc'
          split at hc'
          case h_1 c hlive =>
            obtain rfl := Option.some.inj hc'
            exact ⟨c, (Option.filter_eq_some_iff.mp hlive).1, rfl, rfl⟩
          case h_2 => exact ⟨c', hc', rfl, rfl⟩
    | counted life count =>
        obtain ⟨rfl, rfl⟩ := Prod.mk.inj (Option.some.inj hnext)
        exact h.of_worth hcall (fun _ _ => by simp [mayBeSent,
          QuotaPhase.mayBeSent, QuotaCall.send]) rfl fun c hc => ⟨c, hc, rfl, rfl⟩
    | stamping life count sentAt =>
        obtain ⟨rfl, rfl⟩ := Prod.mk.inj (Option.some.inj hnext)
        refine h.of_worth hcall (fun _ _ => ?_) rfl fun c hc => ⟨c, hc, rfl, rfl⟩
        simp [mayBeSent, QuotaPhase.mayBeSent, QuotaCall.send]
    | accepted life count sentAt => exact nomatch hnext
    | cooldownRefused => exact nomatch hnext
    | limitRefused => exact nomatch hnext
    | disabled => exact nomatch hnext

theorem Initial.budgeted (h : s.Initial) : s.Budgeted env := by
  have hused : ∀ key life, s.used env key life = 0 := by
    intro key life
    simp [used, sendsOf, h.calls, h.sends]
  refine ⟨fun key life hpos => ?_, fun key c hc => ?_, fun key life _ => hused key life⟩
  · rw [hused, Nat.cast_zero]
    exact hpos.le
  · rw [h.slots] at hc
    exact nomatch hc

/-! ## A refusal by the cooldown -/

theorem incremented_testLimit (key : QuotaKey) (life count : Nat) :
    (env.testLimit key life count).incremented = true := by
  rcases env.testLimit_cases key life count with ⟨_, heq⟩ | ⟨_, heq⟩
  · rw [heq]
    rfl
  · rw [heq]
    rfl

/-- A call that writes the counter, or had written it, has incremented it then. -/
theorem incremented_next {key : QuotaKey} {now : Instant} {slot slot' : QuotaSlot}
    {before phase : QuotaPhase} (hnext : before.next env key now slot = some (phase, slot'))
    (h : before.writesCounter = true ∨ before.incremented = true) : phase.incremented = true := by
  cases before with
  | passed lastSent prevCount =>
      simp only [QuotaPhase.next] at hnext
      split at hnext
      · obtain ⟨rfl, rfl⟩ := Prod.mk.inj (Option.some.inj hnext)
        rfl
      · obtain ⟨rfl, rfl⟩ := Prod.mk.inj (Option.some.inj hnext)
        exact incremented_testLimit _ _ _
  | expiring life =>
      obtain ⟨rfl, rfl⟩ := Prod.mk.inj (Option.some.inj hnext)
      exact incremented_testLimit _ _ _
  | counted life count =>
      obtain ⟨rfl, rfl⟩ := Prod.mk.inj (Option.some.inj hnext)
      rfl
  | stamping life count sentAt =>
      obtain ⟨rfl, rfl⟩ := Prod.mk.inj (Option.some.inj hnext)
      rfl
  | started => exact h.elim (fun h => nomatch h) (fun h => nomatch h)
  | read lastSent prevCount => exact h.elim (fun h => nomatch h) (fun h => nomatch h)
  | accepted life count sentAt => exact nomatch hnext
  | cooldownRefused => exact nomatch hnext
  | limitRefused => exact nomatch hnext
  | disabled => exact nomatch hnext

/-- The calls that wrote a counter have incremented it. -/
def WritersIncremented (s : QuotaSys) : Prop :=
  ∀ i ∈ s.counterWrites, ∃ call, s.calls[i]? = some call ∧ call.phase.incremented = true

theorem WritersIncremented.step (h : s.WritersIncremented) {a : QuotaAction}
    (hstep : s.step env a = some s') : s'.WritersIncremented := by
  rcases step_cases hstep with ⟨now, _, rfl⟩ | ⟨key, rfl⟩ | ⟨i, call, phase, slot, rfl, hcall,
    hnext, rfl⟩
  · exact h
  · intro j hj
    obtain ⟨c, hc, hphase⟩ := h j hj
    obtain ⟨hlt, _⟩ := List.getElem?_eq_some_iff.mp hc
    exact ⟨c, (List.getElem?_append_left hlt).trans hc, hphase⟩
  · intro j hj
    by_cases hji : j = i
    · subst hji
      refine ⟨⟨call.key, phase⟩, (getElem?_advanced hcall).mpr (.inl ⟨rfl, rfl⟩), ?_⟩
      refine incremented_next hnext ?_
      rcases List.mem_append.mp hj with hold | hnew
      · obtain ⟨c, hc, hphase⟩ := h j hold
        exact .inr (Option.some.inj (hcall.symm.trans hc) ▸ hphase)
      · by_cases hwrites : call.phase.writesCounter = true
        · exact .inl hwrites
        · simp [hwrites] at hnew
    · rcases List.mem_append.mp hj with hold | hnew
      · obtain ⟨c, hc, hphase⟩ := h j hold
        exact ⟨c, (getElem?_advanced hcall).mpr (.inr ⟨hji, hc⟩), hphase⟩
      · split at hnew
        · exact absurd (List.mem_singleton.mp hnew) hji
        · exact (List.not_mem_nil hnew).elim

/-- Only a call that is logged writes a counter. -/
theorem counter_step {a : QuotaAction} (hstep : s.step env a = some s')
    (h : s'.counterWrites = s.counterWrites) (key : QuotaKey) :
    (s'.slots key).counter = (s.slots key).counter := by
  rcases step_cases hstep with ⟨now, _, rfl⟩ | ⟨key', rfl⟩ | ⟨i, call, phase, slot, rfl, hcall,
    hnext, rfl⟩
  · rfl
  · rfl
  · have hquiet : call.phase.writesCounter = false := by
      by_contra hwrites
      simp [advanced, Bool.eq_true_of_not_eq_false hwrites] at h
    by_cases hkey : key = call.key
    case neg => simp [advanced, hkey]
    case pos =>
      subst hkey
      simp only [advanced, Function.update_self]
      obtain ⟨key, before⟩ := call
      cases before with
      | started =>
          simp only [QuotaPhase.next] at hnext
          split at hnext
          · exact congrArg QuotaSlot.counter (Prod.mk.inj (Option.some.inj hnext)).2.symm
          · exact congrArg QuotaSlot.counter (Prod.mk.inj (Option.some.inj hnext)).2.symm
      | read lastSent prevCount =>
          simp only [QuotaPhase.next] at hnext
          split at hnext
          · exact congrArg QuotaSlot.counter (Prod.mk.inj (Option.some.inj hnext)).2.symm
          · exact congrArg QuotaSlot.counter (Prod.mk.inj (Option.some.inj hnext)).2.symm
      | counted life count =>
          exact congrArg QuotaSlot.counter (Prod.mk.inj (Option.some.inj hnext)).2.symm
      | stamping life count sentAt =>
          rw [← (Prod.mk.inj (Option.some.inj hnext)).2]
      | passed lastSent prevCount => exact nomatch hquiet
      | expiring life => exact nomatch hquiet
      | accepted life count sentAt => exact nomatch hnext
      | cooldownRefused => exact nomatch hnext
      | limitRefused => exact nomatch hnext
      | disabled => exact nomatch hnext

/-! ## An answer of no cooldown -/

/-- Nobody runs on the key. -/
def Quiet (key : QuotaKey) (s : QuotaSys) (a : QuotaAction) : Prop :=
  ∀ j, a = .advance j → ∀ call ∈ s.calls[j]?, call.key ≠ key

/-- Nobody but the given call runs on the key. -/
def Undisturbed (key : QuotaKey) (i : Nat) (s : QuotaSys) (a : QuotaAction) : Prop :=
  ∀ j, a = .advance j → j ≠ i → ∀ call ∈ s.calls[j]?, call.key ≠ key

/-- A key that is read later holds what it held, unless it expired. -/
theorem lastSentAt_mono {slot : QuotaSlot} {now later : Instant} (h : now ≤ later)
    {t : Instant} (hread : slot.lastSentAt later = some t) : slot.lastSentAt now = some t := by
  simp only [QuotaSlot.lastSentAt, Option.map_eq_some_iff, Option.filter_eq_some_iff,
    decide_eq_true_eq] at hread ⊢
  obtain ⟨l, ⟨hl, halive⟩, rfl⟩ := hread
  exact ⟨l, ⟨hl, h.trans halive⟩, rfl⟩

theorem counterAt_mono {slot : QuotaSlot} {now later : Instant} (h : now ≤ later)
    {c : QuotaCounter} (hread : slot.counterAt later = some c) : slot.counterAt now = some c := by
  simp only [QuotaSlot.counterAt, Option.filter_eq_some_iff] at hread ⊢
  refine ⟨hread.1, Option.all_eq_true _ _ |>.mpr fun t ht => ?_⟩
  have halive := (Option.all_eq_true _ _).mp hread.2 t ht
  exact decide_eq_true (h.trans (of_decide_eq_true halive))

theorem countAt_mono {slot : QuotaSlot} {now later : Instant} (h : now ≤ later)
    {n : Nat} (hread : slot.countAt later = some n) : slot.countAt now = some n := by
  obtain ⟨c, hc, rfl⟩ := Option.map_eq_some_iff.mp hread
  exact Option.map_eq_some_iff.mpr ⟨c, counterAt_mono h hc, rfl⟩

/-- **No cooldown stays none**: what is read of the same keys later is not blocked. -/
theorem not_blocked_of_zero {slot : QuotaSlot} {asked answered readAt now : Instant}
    {type : EmailQuotaType}
    (h : getCooldownRemainingSec (slot.lastSentAt asked) (slot.countAt asked) answered = 0)
    (hread : asked ≤ readAt) (hnow : answered ≤ now) :
    cooldownBlocks type (slot.lastSentAt readAt) (slot.countAt readAt) now = false := by
  by_contra hblocked
  simp only [cooldownBlocks, Bool.not_eq_false, decide_eq_true_eq] at hblocked
  obtain ⟨_, hlast, hcount, hlength, hwait⟩ := hblocked
  obtain ⟨t, ht⟩ : ∃ t, slot.lastSentAt readAt = some t := by
    cases hlastSent : slot.lastSentAt readAt with
    | none => simp [hlastSent] at hlast
    | some t => exact ⟨t, rfl⟩
  obtain ⟨n, hn⟩ : ∃ n, slot.countAt readAt = some n := by
    cases hcountAt : slot.countAt readAt with
    | none => simp [hcountAt] at hcount
    | some n => exact ⟨n, rfl⟩
  rw [ht, Option.getD_some] at hlast hwait
  rw [hn, Option.getD_some] at hcount hlength hwait
  rw [lastSentAt_mono hread ht, countAt_mono hread hn] at h
  simp only [getCooldownRemainingSec, Option.getD_some] at h
  rw [if_neg (by lia), if_neg (by lia)] at h
  have hpos : (0 : ℚ) < ((requiredWait n - (answered - t) : Int) : ℚ) / 1000 := by
    have : (0 : Int) < requiredWait n - (answered - t) := by lia
    positivity
  have := Int.ceil_pos.mpr hpos
  omega

/-- What holds of the call that follows an answer: the keys are as they were asked, or were so
when it read them. -/
def Clear (slot : QuotaSlot) (answered asked : Instant) (key : QuotaKey) (i : Nat)
    (s : QuotaSys) : Prop :=
  answered ≤ s.now ∧ asked ≤ s.now ∧ ∃ phase, s.calls[i]? = some ⟨key, phase⟩ ∧
    match phase with
    | .started => s.slots key = slot
    | .read lastSent prevCount => ∃ readAt, asked ≤ readAt ∧
        lastSent = slot.lastSentAt readAt ∧ prevCount = slot.countAt readAt
    | .cooldownRefused => False
    | _ => True

/-- A call that has incremented is past the cooldown. -/
theorem Clear.of_incremented {slot : QuotaSlot} {answered asked : Instant} {key : QuotaKey}
    {phase : QuotaPhase} (hanswered : answered ≤ s.now) (hasked : asked ≤ s.now)
    (hcall : s.calls[i]? = some ⟨key, phase⟩) (h : phase.incremented = true) :
    s.Clear slot answered asked key i := by
  refine ⟨hanswered, hasked, phase, hcall, ?_⟩
  cases phase with
  | started => exact nomatch h
  | read lastSent prevCount => exact nomatch h
  | cooldownRefused => exact nomatch h
  | _ => exact trivial

theorem Clear.step {slot : QuotaSlot} {answered asked : Instant} {key : QuotaKey}
    (hzero : getCooldownRemainingSec (slot.lastSentAt asked) (slot.countAt asked) answered = 0)
    (h : s.Clear slot answered asked key i) {a : QuotaAction} (halone : s.Undisturbed key i a)
    (hstep : s.step env a = some s') : s'.Clear slot answered asked key i := by
  obtain ⟨hanswered, hasked, phase, hcall, hphase⟩ := h
  rcases step_cases hstep with ⟨now, hnow, rfl⟩ | ⟨key', rfl⟩ | ⟨j, call, phase', slot', rfl, hj,
    hnext, rfl⟩
  · exact ⟨hanswered.trans hnow, hasked.trans hnow, phase, hcall, hphase⟩
  · obtain ⟨hlt, _⟩ := List.getElem?_eq_some_iff.mp hcall
    exact ⟨hanswered, hasked, phase, (List.getElem?_append_left hlt).trans hcall, hphase⟩
  · by_cases hji : j = i
    case neg =>
      have hother := halone j rfl hji call hj
      refine ⟨hanswered, hasked, phase,
        (getElem?_advanced hj).mpr (.inr ⟨Ne.symm hji, hcall⟩), ?_⟩
      cases phase with
      | started => exact (Function.update_of_ne (Ne.symm hother) _ _).trans hphase
      | _ => exact hphase
    case pos =>
      subst hji
      obtain rfl := Option.some.inj (hj.symm.trans hcall)
      have hcall' : (s.advanced j ⟨key, phase⟩ phase' slot').calls[j]? = some ⟨key, phase'⟩ :=
        (getElem?_advanced hj).mpr (.inl ⟨rfl, rfl⟩)
      cases phase with
      | started =>
          have hphase : s.slots key = slot := hphase
          refine ⟨hanswered, hasked, phase', hcall', ?_⟩
          simp only [QuotaPhase.next] at hnext
          split at hnext
          · obtain ⟨rfl, rfl⟩ := Prod.mk.inj (Option.some.inj hnext)
            exact trivial
          · obtain ⟨rfl, rfl⟩ := Prod.mk.inj (Option.some.inj hnext)
            rw [hphase]
            exact ⟨s.now, hasked, rfl, rfl⟩
      | read lastSent prevCount =>
          obtain ⟨readAt, hread, rfl, rfl⟩ := hphase
          refine ⟨hanswered, hasked, phase', hcall', ?_⟩
          simp only [QuotaPhase.next, not_blocked_of_zero hzero hread hanswered,
            Bool.false_eq_true, if_false] at hnext
          obtain ⟨rfl, rfl⟩ := Prod.mk.inj (Option.some.inj hnext)
          exact trivial
      | cooldownRefused => exact hphase.elim
      | passed lastSent prevCount =>
          exact .of_incremented hanswered hasked hcall' (incremented_next hnext (.inl rfl))
      | expiring life =>
          exact .of_incremented hanswered hasked hcall' (incremented_next hnext (.inl rfl))
      | counted life count =>
          exact .of_incremented hanswered hasked hcall' (incremented_next hnext (.inr rfl))
      | stamping life count sentAt =>
          exact .of_incremented hanswered hasked hcall' (incremented_next hnext (.inr rfl))
      | accepted life count sentAt => exact nomatch hnext
      | limitRefused => exact nomatch hnext
      | disabled => exact nomatch hnext

/-! ## The cooldown -/

/-- A call that is about to increment does so on what the keys hold: they are what it had read,
or the counter is gone, and nobody else has incremented without having stamped. -/
def upToDate (s : QuotaSys) (call : QuotaCall) : Bool :=
  match call.phase with
  | .passed lastSent prevCount =>
      let slot := s.slots call.key
      call.key.type.cooldownExempt ∨
        (slot.counterAt s.now = none ∨
          slot.lastSentAt s.now = lastSent ∧ slot.countAt s.now = prevCount) ∧
        s.calls.all (fun c => c.key ≠ call.key ∨ c.phase.ticket = none)
  | _ => true

/-- The condition on a step: an increment is up to date. -/
def UpToDate (s : QuotaSys) : QuotaAction → Prop
  | .advance i => (s.calls[i]?).all s.upToDate = true
  | _ => True

instance (s : QuotaSys) : ∀ a, Decidable (s.UpToDate a)
  | .tick _ | .call _ _ => inferInstanceAs (Decidable True)
  | .advance i => inferInstanceAs (Decidable ((s.calls[i]?).all s.upToDate = true))

/-- What concerns one recipient and type. -/
structure KeyView where
  now : Instant
  slot : QuotaSlot
  phases : Nat → Option QuotaPhase
  sends : List QuotaSend

def view (s : QuotaSys) (key : QuotaKey) : KeyView where
  now := s.now
  slot := s.slots key
  phases i := (s.calls[i]?).bind (fun c => if c.key = key then some c.phase else none)
  sends := s.sends.filter (fun x => x.key = key)

/-- The sends of one recipient and type are as far apart as the count before each requires. -/
def Separated (sends : List QuotaSend) : Prop :=
  sends.Pairwise (fun x y => x.sentAt + requiredWait (y.count - 1) ≤ y.sentAt)

theorem requiredWait_nonneg (count : Nat) : 0 ≤ requiredWait count := by
  match count with
  | 0 | 1 | 2 | 3 | 4 => decide
  | _ + 5 => exact le_rfl

/-- Beyond the schedule no wait is required. -/
theorem requiredWait_of_le {count : Nat} (h : cooldownAfterSendMs.length ≤ count) :
    requiredWait count = 0 := by
  obtain ⟨n, rfl⟩ := Nat.exists_eq_add_of_le' h
  rfl

/-- **What a step does to one recipient and type**: the clock goes on, a call begins, or one of
its calls advances. -/
theorem view_step {a : QuotaAction} (h : s.step env a = some s') (key : QuotaKey) :
    (∃ now, s.now ≤ now ∧ s'.view key = { s.view key with now := now }) ∨
    (∃ i, (s.view key).phases i = none ∧ s'.view key =
      { s.view key with phases := Function.update (s.view key).phases i (some .started) }) ∨
    ∃ i before phase slot, a = .advance i ∧ s.calls[i]? = some ⟨key, before⟩ ∧
      before.next env key s.now (s.slots key) = some (phase, slot) ∧
      s'.view key = { s.view key with
        slot := slot
        phases := Function.update (s.view key).phases i (some phase)
        sends := (QuotaCall.send ⟨key, phase⟩).elim (s.view key).sends
          (fun x => (s.view key).sends ++ [x]) } := by
  rcases step_cases h with ⟨now, hnow, rfl⟩ | ⟨key', rfl⟩ | ⟨i, call, phase, slot, rfl, hcall,
    hnext, rfl⟩
  · exact .inl ⟨now, hnow, rfl⟩
  · by_cases hkey : key' = key
    · subst hkey
      refine .inr (.inl ⟨s.calls.length, by simp [view], ?_⟩)
      simp only [view, KeyView.mk.injEq, true_and, and_true]
      funext j
      rcases Nat.lt_trichotomy j s.calls.length with hlt | rfl | hgt
      · rw [List.getElem?_append_left hlt, Function.update_of_ne hlt.ne]
      · simp
      · rw [List.getElem?_eq_none (by rw [List.length_append, List.length_singleton]; exact hgt),
          Function.update_of_ne hgt.ne', List.getElem?_eq_none hgt.le]
    · refine .inl ⟨s.now, le_rfl, ?_⟩
      simp only [view, KeyView.mk.injEq, true_and, and_true]
      funext j
      rcases Nat.lt_trichotomy j s.calls.length with hlt | rfl | hgt
      · rw [List.getElem?_append_left hlt]
      · simp [hkey]
      · rw [List.getElem?_eq_none (by rw [List.length_append, List.length_singleton]; exact hgt),
          List.getElem?_eq_none hgt.le]
  · have hcalls : ∀ j, (s.advanced i call phase slot).calls[j]? =
        if j = i then some ⟨call.key, phase⟩ else s.calls[j]? := by
      intro j
      obtain ⟨hi, _⟩ := List.getElem?_eq_some_iff.mp hcall
      simp only [advanced, List.getElem?_set]
      by_cases hij : i = j
      · simp [hij, hij ▸ hi]
      · simp [hij, Ne.symm hij]
    have hsent : ∀ x ∈ (QuotaCall.send ⟨call.key, phase⟩).toList, x.key = call.key := by
      intro x hx
      have hkey := key_of_send (Option.mem_toList.mp hx)
      exact hkey
    by_cases hkey : call.key = key
    · subst hkey
      refine .inr (.inr ⟨i, call.phase, phase, slot, rfl, hcall, hnext, ?_⟩)
      simp only [view, KeyView.mk.injEq]
      refine ⟨rfl, Function.update_self _ _ _, ?_, ?_⟩
      · funext j
        rw [hcalls]
        by_cases hji : j = i
        · simp [hji]
        · simp [hji]
      · refine (List.filter_append _ _).trans ?_
        rw [List.filter_eq_self.mpr fun x hx => decide_eq_true (hsent x hx)]
        cases QuotaCall.send ⟨call.key, phase⟩ with
        | none => exact List.append_nil _
        | some x => rfl
    · refine .inl ⟨s.now, le_rfl, ?_⟩
      simp only [view, KeyView.mk.injEq]
      refine ⟨rfl, Function.update_of_ne (Ne.symm hkey) _ _, ?_, ?_⟩
      · funext j
        rw [hcalls]
        by_cases hji : j = i
        · simp [hji, hcall, hkey]
        · simp [hji]
      · have hnone : (QuotaCall.send ⟨call.key, phase⟩).toList.filter (fun x => x.key = key) = [] :=
          List.filter_eq_nil_iff.mpr fun x hx => by rw [hsent x hx]; simpa using hkey
        exact (List.filter_append _ _).trans (by rw [hnone, List.append_nil])

namespace KeyView

variable {v : KeyView} {key : QuotaKey}

/-- The invariant of the cooldown, for one recipient and type. -/
structure Spaced (env : QuotaEnv) (key : QuotaKey) (v : KeyView) : Prop where
  clock : 0 < v.now
  past : ∀ x ∈ v.sends, x.sentAt ≤ v.now
  alone : ∀ i j p q, v.phases i = some p → v.phases j = some q → p.ticket ≠ none →
    q.ticket ≠ none → i = j
  waited : ∀ i lastSent prevCount, v.phases i = some (.passed lastSent prevCount) →
    cooldownBlocks key.type lastSent prevCount v.now = false
  due : ∀ i p, v.phases i = some p → ∀ t ∈ p.ticket, ∀ x ∈ v.sends,
    x.sentAt + requiredWait (t.2 - 1) ≤ p.stamp.getD v.now
  stamp : ∀ i p, v.phases i = some p → ∀ t ∈ p.stamp, 0 < t ∧ t ≤ v.now
  window : ∀ c ∈ v.slot.counter, 1 ≤ c.count ∧
    ((∃ e, c.expiresAt = some e ∧ e ≤ v.now + quotaWindow) ∨
      c.expiresAt = none ∧ ∃ i life, v.phases i = some (.expiring life))
  stamped : ∀ c ∈ v.slot.counter, (∀ i p, v.phases i = some p → p.ticket = none) →
    (c.count : ℚ) ≤ env.getLimit key.type → ∃ l ∈ v.slot.lastSent,
      (∀ e ∈ c.expiresAt, e ≤ l.expiresAt) ∧ 0 < l.sentAt ∧ ∀ x ∈ v.sends, x.sentAt ≤ l.sentAt
  separated : Separated v.sends

theorem update_phases {i j : Nat} {phase p : QuotaPhase} :
    Function.update v.phases i (some phase) j = some p ↔
      (j = i ∧ p = phase) ∨ (j ≠ i ∧ v.phases j = some p) := by
  by_cases hji : j = i
  · subst hji
    simp [eq_comm]
  · simp [hji]

theorem stamp_testLimit (life count : Nat) : (env.testLimit key life count).stamp = none := by
  rcases env.testLimit_cases key life count with ⟨_, heq⟩ | ⟨_, heq⟩
  · rw [heq]
    rfl
  · rw [heq]
    rfl

/-- A ticket says that the limit is kept. -/
theorem ticket_testLimit_iff {life count : Nat} {t : Nat × Nat} :
    t ∈ (env.testLimit key life count).ticket ↔
      t = (life, count) ∧ (count : ℚ) ≤ env.getLimit key.type := by
  rcases env.testLimit_cases key life count with ⟨hbeyond, heq⟩ | ⟨hwithin, heq⟩
  · rw [heq]
    exact ⟨nofun, fun h => absurd h.2 (not_le.mpr hbeyond)⟩
  · rw [heq]
    exact ⟨fun ht => ⟨(Option.some.inj ht).symm, hwithin⟩, fun h => congrArg some h.1.symm⟩

theorem testLimit_ne_passed (life count : Nat) (lastSent : Option Instant)
    (prevCount : Option Nat) :
    env.testLimit key life count ≠ .passed lastSent prevCount := by
  rcases env.testLimit_cases key life count with ⟨_, heq⟩ | ⟨_, heq⟩
  · rw [heq]
    exact nofun
  · rw [heq]
    exact nofun

/-- Nobody else has incremented without having stamped. -/
theorem Spaced.others (h : v.Spaced env key) {i j : Nat} {p q : QuotaPhase}
    (hi : v.phases i = some p) (hp : p.ticket ≠ none) (hji : j ≠ i) (hj : v.phases j = some q) :
    q.ticket = none := by
  by_contra hq
  exact hji (h.alone j i q p hj hi hq hp)

/-! What an advancing call leaves of the invariant, when it is not the one concerned. -/

theorem Spaced.waited_update (h : v.Spaced env key) {i j : Nat} {phase : QuotaPhase}
    {lastSent : Option Instant} {prevCount : Option Nat}
    (hphase : phase = .passed lastSent prevCount →
      cooldownBlocks key.type lastSent prevCount v.now = false)
    (hj : Function.update v.phases i (some phase) j = some (.passed lastSent prevCount)) :
    cooldownBlocks key.type lastSent prevCount v.now = false := by
  rcases update_phases.mp hj with ⟨rfl, hp⟩ | ⟨_, hj⟩
  · exact hphase hp.symm
  · exact h.waited j lastSent prevCount hj

theorem Spaced.stamp_update (h : v.Spaced env key) {i j : Nat} {phase p : QuotaPhase}
    (hphase : ∀ t ∈ phase.stamp, 0 < t ∧ t ≤ v.now)
    (hj : Function.update v.phases i (some phase) j = some p) :
    ∀ t ∈ p.stamp, 0 < t ∧ t ≤ v.now := by
  rcases update_phases.mp hj with ⟨rfl, rfl⟩ | ⟨_, hj⟩
  · exact hphase
  · exact h.stamp j p hj

theorem Spaced.window_update (h : v.Spaced env key) {i : Nat} {phase : QuotaPhase}
    (hbefore : ∀ life, v.phases i ≠ some (.expiring life)) {c : QuotaCounter}
    (hc : c ∈ v.slot.counter) :
    1 ≤ c.count ∧ ((∃ e, c.expiresAt = some e ∧ e ≤ v.now + quotaWindow) ∨ c.expiresAt = none ∧
      ∃ j life, Function.update v.phases i (some phase) j = some (.expiring life)) := by
  obtain ⟨hone, hexpires⟩ := h.window c hc
  refine ⟨hone, hexpires.imp_right fun ⟨hnone, j, life, hj⟩ => ⟨hnone, j, life, ?_⟩⟩
  refine update_phases.mpr (.inr ⟨fun hji => ?_, hj⟩)
  subst hji
  exact hbefore life hj

theorem cooldownBlocks_mono {type : EmailQuotaType} {lastSent : Option Instant}
    {prevCount : Option Nat} {now later : Instant} (hle : now ≤ later)
    (h : cooldownBlocks type lastSent prevCount now = false) :
    cooldownBlocks type lastSent prevCount later = false := by
  simp only [cooldownBlocks, decide_eq_false_iff_not] at h ⊢
  intro hlater
  exact h ⟨hlater.1, hlater.2.1, hlater.2.2.1, hlater.2.2.2.1, by
    have := hlater.2.2.2.2
    lia⟩

theorem Spaced.tick (h : v.Spaced env key) {now : Instant} (hle : v.now ≤ now) :
    ({ v with now := now } : KeyView).Spaced env key where
  clock := lt_of_lt_of_le h.clock hle
  past x hx := (h.past x hx).trans hle
  alone := h.alone
  waited i lastSent prevCount hi := cooldownBlocks_mono hle (h.waited i lastSent prevCount hi)
  due i p hi t ht x hx := by
    have hdue := h.due i p hi t ht x hx
    cases hstamp : p.stamp with
    | none =>
        rw [hstamp] at hdue
        exact hdue.trans hle
    | some at' =>
        rw [hstamp] at hdue
        exact hdue
  stamp i p hi t ht := ⟨(h.stamp i p hi t ht).1, (h.stamp i p hi t ht).2.trans hle⟩
  window c hc := by
    obtain ⟨hone, hexpires⟩ := h.window c hc
    refine ⟨hone, hexpires.imp_left fun ⟨e, he, hwithin⟩ => ⟨e, he, ?_⟩⟩
    exact hwithin.trans (Int.add_le_add_right hle _)
  stamped := h.stamped
  separated := h.separated

/-- A call goes from one phase before the increment to another, or ends there. -/
theorem Spaced.quiet (h : v.Spaced env key) {i : Nat} {phase : QuotaPhase}
    (hbefore : ∀ p, v.phases i = some p → p.ticket = none)
    (hticket : phase.ticket = none) (hstamp : phase.stamp = none)
    (hwaited : ∀ lastSent prevCount, phase = .passed lastSent prevCount →
      cooldownBlocks key.type lastSent prevCount v.now = false) :
    ({ v with phases := Function.update v.phases i (some phase) } : KeyView).Spaced env key where
  clock := h.clock
  past := h.past
  alone j k p q hj hk hp hq := by
    rcases update_phases.mp hj with ⟨rfl, rfl⟩ | ⟨_, hj⟩
    · exact absurd hticket hp
    · rcases update_phases.mp hk with ⟨rfl, rfl⟩ | ⟨_, hk⟩
      · exact absurd hticket hq
      · exact h.alone j k p q hj hk hp hq
  waited j lastSent prevCount hj := h.waited_update (hwaited lastSent prevCount) hj
  due j p hj t ht := by
    rcases update_phases.mp hj with ⟨rfl, rfl⟩ | ⟨_, hj⟩
    · rw [hticket] at ht
      exact nomatch ht
    · exact h.due j p hj t ht
  stamp j p hj := by
    refine h.stamp_update (fun t ht => ?_) hj
    rw [hstamp] at ht
    exact nomatch ht
  window c hc := h.window_update (fun life hi => nomatch hbefore _ hi) hc
  stamped c hc hall := by
    refine h.stamped c hc fun j p hj => ?_
    by_cases hji : j = i
    · subst hji
      exact hbefore p hj
    · exact hall j p (update_phases.mpr (.inr ⟨hji, hj⟩))
  separated := h.separated

/-- What the sends before an increment are due, when it is on what the keys hold. -/
theorem Spaced.due_incr (h : v.Spaced env key) {i : Nat} {lastSent : Option Instant}
    {prevCount : Option Nat} (hbefore : v.phases i = some (.passed lastSent prevCount))
    (hcurrent : v.slot.counterAt v.now = none ∨
      v.slot.lastSentAt v.now = lastSent ∧ v.slot.countAt v.now = prevCount)
    (halone : ∀ j p, v.phases j = some p → p.ticket = none)
    (hexempt : key.type.cooldownExempt = false)
    (hlimit : ((v.slot.incr v.now).count : ℚ) ≤ env.getLimit key.type) :
    ∀ x ∈ v.sends, x.sentAt + requiredWait ((v.slot.incr v.now).count - 1) ≤ v.now := by
  intro x hx
  rcases incr_cases v.slot v.now with ⟨c, hc, hlive, heq⟩ | ⟨_, heq⟩
  case inr =>
    rw [heq]
    exact (Int.add_zero _).le.trans (h.past x hx)
  case inl =>
    have hwithin : (c.count : ℚ) ≤ env.getLimit key.type := by
      rw [heq] at hlimit
      refine le_trans ?_ hlimit
      exact Nat.cast_le.mpr (Nat.le_succ c.count)
    rw [heq]
    obtain ⟨hone, hexpires⟩ := h.window c hc
    obtain ⟨l, hl, houtlives, hpos, hlast⟩ := h.stamped c hc halone hwithin
    -- the stamp outlives the counter
    obtain ⟨e, he⟩ : ∃ e, c.expiresAt = some e := by
      rcases hexpires with ⟨e, he, _⟩ | ⟨_, j, life, hj⟩
      · exact ⟨e, he⟩
      · exact nomatch halone j _ hj
    have hlives := (Option.filter_eq_some_iff.mp hlive).2
    rw [he, Option.all_some, decide_eq_true_eq] at hlives
    have hread : v.slot.lastSentAt v.now = some l.sentAt := by
      rw [QuotaSlot.lastSentAt, hl, Option.filter_some,
        if_pos (decide_eq_true (hlives.trans (houtlives e he)))]
      rfl
    have hcount : v.slot.countAt v.now = some c.count := by rw [QuotaSlot.countAt, hlive]; rfl
    rcases hcurrent with hgone | ⟨rfl, rfl⟩
    · exact nomatch hgone.symm.trans hlive
    have hwaited := h.waited i _ _ hbefore
    have hlastx := hlast x hx
    simp only [cooldownBlocks, hread, hcount, Option.getD_some, hexempt, Bool.false_eq_true,
      not_false_eq_true, true_and, decide_eq_false_iff_not] at hwaited
    simp only [Nat.add_sub_cancel]
    by_cases hlong : c.count < cooldownAfterSendMs.length
    · have hwait : requiredWait c.count ≤ v.now - l.sentAt :=
        not_lt.mp fun hlt => hwaited ⟨hpos, hone, hlong, hlt⟩
      lia
    · rw [requiredWait_of_le (not_lt.mp hlong), Int.add_zero]
      exact h.past x hx

/-- The increment, on what the keys hold. -/
theorem Spaced.incr (h : v.Spaced env key) {i : Nat} {lastSent : Option Instant}
    {prevCount : Option Nat} {phase : QuotaPhase} {lives : Nat}
    (hbefore : v.phases i = some (.passed lastSent prevCount))
    (hdue : ((v.slot.incr v.now).count : ℚ) ≤ env.getLimit key.type →
      ∀ x ∈ v.sends, x.sentAt + requiredWait ((v.slot.incr v.now).count - 1) ≤ v.now)
    (halone : ∀ j p, v.phases j = some p → p.ticket = none)
    (hphase : (v.slot.incr v.now).count = 1 ∧ phase = .expiring (v.slot.incr v.now).life ∨
      (v.slot.incr v.now).count ≠ 1 ∧
        phase = env.testLimit key (v.slot.incr v.now).life (v.slot.incr v.now).count) :
    ({ v with
      slot := { v.slot with counter := some (v.slot.incr v.now), lives := lives }
      phases := Function.update v.phases i (some phase) } : KeyView).Spaced env key := by
  have hticket : ∀ t ∈ phase.ticket, ∀ x ∈ v.sends, x.sentAt + requiredWait (t.2 - 1) ≤ v.now := by
    intro t ht x hx
    rcases hphase with ⟨hone, rfl⟩ | ⟨_, rfl⟩
    · obtain rfl := Option.some.inj ht
      exact (Int.add_zero _).le.trans (h.past x hx)
    · obtain ⟨rfl, hwithin⟩ := ticket_testLimit_iff.mp ht
      exact hdue hwithin x hx
  have hstamp : phase.stamp = none := by
    rcases hphase with ⟨_, rfl⟩ | ⟨_, rfl⟩
    · rfl
    · exact stamp_testLimit _ _
  have hpassed : ∀ lastSent prevCount, phase ≠ .passed lastSent prevCount := by
    intro lastSent prevCount
    rcases hphase with ⟨_, rfl⟩ | ⟨_, rfl⟩
    · exact nofun
    · exact testLimit_ne_passed _ _ _ _
  refine ⟨h.clock, h.past, fun j k p q hj hk hp hq => ?_, fun j ls pc hj => ?_,
    fun j p hj t ht => ?_, fun j p hj t ht => ?_, fun c hc => ?_, fun c hc hall hwithin => ?_,
    h.separated⟩
  · rcases update_phases.mp hj with ⟨rfl, rfl⟩ | ⟨_, hj⟩
    · rcases update_phases.mp hk with ⟨rfl, rfl⟩ | ⟨_, hk⟩
      · rfl
      · exact absurd (halone k q hk) hq
    · exact absurd (halone j p hj) hp
  · exact h.waited_update (fun hp => absurd hp (hpassed ls pc)) hj
  · rcases update_phases.mp hj with ⟨rfl, rfl⟩ | ⟨_, hj⟩
    · rw [hstamp]
      exact hticket t ht
    · rw [halone j p hj] at ht
      exact nomatch ht
  · refine h.stamp_update (fun t ht => ?_) hj t ht
    rw [hstamp] at ht
    exact nomatch ht
  · obtain rfl := Option.some.inj hc
    rcases incr_cases v.slot v.now with ⟨c, hc, _, heq⟩ | ⟨_, heq⟩
    · rcases (h.window c hc).2 with hexpires | ⟨_, j, life, hj⟩
      · rw [heq]
        exact ⟨Nat.succ_pos _, .inl hexpires⟩
      · exact nomatch halone j _ hj
    · rcases hphase with ⟨_, rfl⟩ | ⟨hne, _⟩
      · refine ⟨by rw [heq], .inr ⟨by rw [heq], i, _, update_phases.mpr (.inl ⟨rfl, rfl⟩)⟩⟩
      · rw [heq] at hne
        exact absurd rfl hne
  · -- the call itself is past the limit
    obtain rfl := Option.some.inj hc
    have hnone := hall i _ (update_phases.mpr (.inl ⟨rfl, rfl⟩))
    rcases hphase with ⟨_, rfl⟩ | ⟨_, rfl⟩
    · exact nomatch hnone
    · exact nomatch hnone.symm.trans (ticket_testLimit_iff.mpr ⟨rfl, hwithin⟩)

/-- The counter gets its 24 hours. -/
theorem Spaced.expire (h : v.Spaced env key) {i life : Nat}
    (hbefore : v.phases i = some (.expiring life)) :
    ({ v with
      slot := v.slot.expire v.now
      phases := Function.update v.phases i (some (env.testLimit key life 1)) } : KeyView).Spaced
        env key := by
  have hothers : ∀ j p, j ≠ i → v.phases j = some p → p.ticket = none :=
    fun j p hji hj => h.others hbefore (fun hnone => nomatch hnone) hji hj
  have hlastSent : (v.slot.expire v.now).lastSent = v.slot.lastSent := by
    unfold QuotaSlot.expire
    split <;> rfl
  -- the counter has a time to expire then
  have hcounter : ∀ c' ∈ (v.slot.expire v.now).counter, 1 ≤ c'.count ∧
      ∃ e, c'.expiresAt = some e ∧ e ≤ v.now + quotaWindow := by
    intro c' hc'
    unfold QuotaSlot.expire at hc'
    split at hc'
    case h_1 c hlive =>
      obtain rfl := Option.some.inj hc'
      exact ⟨(h.window c (Option.filter_eq_some_iff.mp hlive).1).1, _, rfl, le_rfl⟩
    case h_2 hgone =>
      obtain ⟨hone, hexpires⟩ := h.window c' hc'
      rcases hexpires with hexpires | ⟨hnone, _⟩
      · exact ⟨hone, hexpires⟩
      · refine nomatch hgone.symm.trans (Option.filter_eq_some_iff.mpr ⟨hc', ?_⟩)
        rw [hnone]
        rfl
  refine ⟨h.clock, h.past, fun j k p q hj hk hp hq => ?_, fun j ls pc hj => ?_,
    fun j p hj t ht => ?_, fun j p hj t ht => ?_, fun c hc => ?_, fun c hc hall hwithin => ?_,
    h.separated⟩
  · rcases update_phases.mp hj with ⟨rfl, rfl⟩ | ⟨hji, hj⟩
    · rcases update_phases.mp hk with ⟨rfl, rfl⟩ | ⟨hki, hk⟩
      · rfl
      · exact absurd (hothers k q hki hk) hq
    · exact absurd (hothers j p hji hj) hp
  · exact h.waited_update (fun hp => absurd hp (testLimit_ne_passed _ _ _ _)) hj
  · rcases update_phases.mp hj with ⟨rfl, rfl⟩ | ⟨_, hj⟩
    · rw [stamp_testLimit, (ticket_testLimit_iff.mp ht).1]
      exact h.due j _ hbefore (life, 1) rfl
    · exact h.due j p hj t ht
  · refine h.stamp_update (fun t ht => ?_) hj t ht
    rw [stamp_testLimit] at ht
    exact nomatch ht
  · exact ⟨(hcounter c hc).1, .inl (hcounter c hc).2⟩
  · -- the call itself is past the limit
    have hnone := hall i _ (update_phases.mpr (.inl ⟨rfl, rfl⟩))
    have hone : ((1 : Nat) : ℚ) ≤ c.count := Nat.cast_le.mpr (hcounter c hc).1
    exact nomatch hnone.symm.trans (ticket_testLimit_iff.mpr ⟨rfl, hone.trans hwithin⟩)

/-- The clock is read for the stamp. -/
theorem Spaced.readClock (h : v.Spaced env key) {i life count : Nat}
    (hbefore : v.phases i = some (.counted life count)) :
    ({ v with phases := Function.update v.phases i (some (.stamping life count v.now)) } :
      KeyView).Spaced env key where
  clock := h.clock
  past := h.past
  alone j k p q hj hk hp hq := by
    have hsame : ∀ j p, Function.update v.phases i (some (.stamping life count v.now)) j = some p →
        p.ticket ≠ none → ∃ p', v.phases j = some p' ∧ p'.ticket ≠ none := by
      intro j p hj hp
      rcases update_phases.mp hj with ⟨rfl, rfl⟩ | ⟨_, hj⟩
      · exact ⟨_, hbefore, hp⟩
      · exact ⟨p, hj, hp⟩
    obtain ⟨p', hj', hp'⟩ := hsame j p hj hp
    obtain ⟨q', hk', hq'⟩ := hsame k q hk hq
    exact h.alone j k p' q' hj' hk' hp' hq'
  waited j lastSent prevCount hj := h.waited_update (fun hp => by cases hp) hj
  due j p hj t ht := by
    rcases update_phases.mp hj with ⟨rfl, rfl⟩ | ⟨_, hj⟩
    · exact h.due j _ hbefore t ht
    · exact h.due j p hj t ht
  stamp j p hj := by
    refine h.stamp_update (fun t ht => ?_) hj
    obtain rfl := Option.some.inj ht
    exact ⟨h.clock, le_rfl⟩
  window c hc := h.window_update (fun life hi => nomatch hbefore.symm.trans hi) hc
  stamped c hc hall := by
    exact nomatch hall i _ (update_phases.mpr (.inl ⟨rfl, rfl⟩))
  separated := h.separated

/-- The send is stamped and accepted. -/
theorem Spaced.accept (h : v.Spaced env key) {i life count : Nat} {sentAt : Instant}
    (hbefore : v.phases i = some (.stamping life count sentAt)) :
    ({ v with
      slot := { v.slot with lastSent := some ⟨sentAt, v.now + quotaWindow⟩ }
      phases := Function.update v.phases i (some (.accepted life count sentAt))
      sends := v.sends ++ [⟨key, life, count, sentAt⟩] } : KeyView).Spaced env key := by
  have hdue := h.due i _ hbefore (life, count) rfl
  have hstamp := h.stamp i _ hbefore sentAt rfl
  have hothers : ∀ j p, j ≠ i → v.phases j = some p → p.ticket = none :=
    fun j p hji hj => h.others hbefore (fun hnone => nomatch hnone) hji hj
  refine ⟨h.clock, fun x hx => ?_, fun j k p q hj hk hp hq => ?_, fun j lastSent prevCount hj => ?_,
    fun j p hj t ht => ?_, fun j p hj t ht => ?_, fun c hc => ?_, fun c hc _ _ => ?_, ?_⟩
  · rcases List.mem_append.mp hx with hx | hx
    · exact h.past x hx
    · rw [List.mem_singleton.mp hx]
      exact hstamp.2
  · rcases update_phases.mp hj with ⟨rfl, rfl⟩ | ⟨hji, hj⟩
    · exact absurd rfl hp
    · exact absurd (hothers j p hji hj) hp
  · exact h.waited_update (fun hp => by cases hp) hj
  · rcases update_phases.mp hj with ⟨rfl, rfl⟩ | ⟨hji, hj⟩
    · exact nomatch ht
    · rw [hothers j p hji hj] at ht
      exact nomatch ht
  · exact h.stamp_update (fun t ht => by cases ht) hj t ht
  · exact h.window_update (fun life hi => nomatch hbefore.symm.trans hi) hc
  · refine ⟨_, rfl, fun e he => ?_, hstamp.1, fun x hx => ?_⟩
    · rcases (h.window c hc).2 with ⟨e', he', hwithin⟩ | ⟨hnone, j, life', hj⟩
      · obtain rfl := Option.some.inj (he'.symm.trans he)
        exact hwithin
      · rw [hnone] at he
        exact nomatch he
    · rcases List.mem_append.mp hx with hx | hx
      · have hwait := requiredWait_nonneg (count - 1)
        have hdue := hdue x hx
        simp only [QuotaPhase.stamp, Option.getD_some] at hdue
        lia
      · rw [List.mem_singleton.mp hx]
  · refine List.pairwise_append.mpr ⟨h.separated, List.pairwise_singleton _ _, fun x hx y hy => ?_⟩
    rw [List.mem_singleton.mp hy]
    exact hdue x hx

end KeyView

theorem Initial.spaced (h : s.Initial) (key : QuotaKey) : (s.view key).Spaced env key := by
  have hphases : ∀ i p, (s.view key).phases i ≠ some p := by
    intro i p
    simp [view, h.calls]
  have hsends : (s.view key).sends = [] := by simp [view, h.sends]
  have hslot : (s.view key).slot = {} := congrFun h.slots key
  exact {
    clock := h.now
    past := fun x hx => by simp [hsends] at hx
    alone := fun i _ p _ hi => absurd hi (hphases i p)
    waited := fun i _ _ hi => absurd hi (hphases i _)
    due := fun i p hi => absurd hi (hphases i p)
    stamp := fun i p hi => absurd hi (hphases i p)
    window := fun c hc => by simp [hslot] at hc
    stamped := fun c hc => by simp [hslot] at hc
    separated := by
      rw [hsends]
      exact List.Pairwise.nil }

/-- **One step keeps the cooldown**, when an increment is up to date. -/
theorem spaced_step {key : QuotaKey} (hexempt : key.type.cooldownExempt = false)
    (h : (s.view key).Spaced env key) {a : QuotaAction} (hok : s.UpToDate a)
    (hstep : s.step env a = some s') : (s'.view key).Spaced env key := by
  rcases view_step hstep key with ⟨now, hnow, heq⟩ | ⟨i, hnone, heq⟩ | ⟨i, before, phase, slot,
    rfl, hcall, hnext, heq⟩
  · rw [heq]
    exact h.tick hnow
  · rw [heq]
    refine h.quiet (fun p hp => ?_) rfl rfl fun _ _ hp => nomatch hp
    exact nomatch hnone.symm.trans hp
  · have hbefore : (s.view key).phases i = some before := by simp [view, hcall]
    have honly : ∀ p, (s.view key).phases i = some p → before.ticket = none → p.ticket = none := by
      intro p hp hticket
      exact Option.some.inj (hbefore.symm.trans hp) ▸ hticket
    rw [heq]
    cases before with
    | started =>
        simp only [QuotaPhase.next] at hnext
        split at hnext
        · obtain ⟨rfl, rfl⟩ := Prod.mk.inj (Option.some.inj hnext)
          exact h.quiet (fun p hp => honly p hp rfl) rfl rfl fun _ _ hp => by cases hp
        · obtain ⟨rfl, rfl⟩ := Prod.mk.inj (Option.some.inj hnext)
          exact h.quiet (fun p hp => honly p hp rfl) rfl rfl fun _ _ hp => by cases hp
    | read lastSent prevCount =>
        simp only [QuotaPhase.next] at hnext
        split at hnext
        case isTrue =>
          obtain ⟨rfl, rfl⟩ := Prod.mk.inj (Option.some.inj hnext)
          exact h.quiet (fun p hp => honly p hp rfl) rfl rfl fun _ _ hp => by cases hp
        case isFalse hwaited =>
          obtain ⟨rfl, rfl⟩ := Prod.mk.inj (Option.some.inj hnext)
          refine h.quiet (fun p hp => honly p hp rfl) rfl rfl fun ls pc hp => ?_
          obtain ⟨rfl, rfl⟩ := QuotaPhase.passed.inj hp
          exact Bool.eq_false_iff.mpr hwaited
    | passed lastSent prevCount =>
        simp only [UpToDate, hcall, Option.all_some, upToDate, hexempt, Bool.false_eq_true,
          false_or, decide_eq_true_eq, List.all_eq_true] at hok
        obtain ⟨hcurrent, halone⟩ := hok
        have halone : ∀ j p, (s.view key).phases j = some p → p.ticket = none := by
          intro j p hj
          obtain ⟨c, hc, hp⟩ := Option.bind_eq_some_iff.mp hj
          obtain ⟨hkey, hp⟩ := Option.ite_none_right_eq_some.mp hp
          rw [← Option.some.inj hp]
          exact (halone c (List.mem_of_getElem? hc)).resolve_left (not_not.mpr hkey)
        have hdue := h.due_incr hbefore hcurrent halone hexempt
        simp only [QuotaPhase.next] at hnext
        split at hnext
        case isTrue hone =>
          obtain ⟨rfl, rfl⟩ := Prod.mk.inj (Option.some.inj hnext)
          exact h.incr hbefore hdue halone (.inl ⟨hone, rfl⟩)
        case isFalse hone =>
          obtain ⟨rfl, rfl⟩ := Prod.mk.inj (Option.some.inj hnext)
          rw [send_testLimit]
          exact h.incr hbefore hdue halone (.inr ⟨hone, rfl⟩)
    | expiring life =>
        obtain ⟨rfl, rfl⟩ := Prod.mk.inj (Option.some.inj hnext)
        rw [send_testLimit]
        exact h.expire hbefore
    | counted life count =>
        obtain ⟨rfl, rfl⟩ := Prod.mk.inj (Option.some.inj hnext)
        exact h.readClock hbefore
    | stamping life count sentAt =>
        obtain ⟨rfl, rfl⟩ := Prod.mk.inj (Option.some.inj hnext)
        exact h.accept hbefore
    | accepted life count sentAt => exact nomatch hnext
    | cooldownRefused => exact nomatch hnext
    | limitRefused => exact nomatch hnext
    | disabled => exact nomatch hnext

/-! ## Whole runs -/

/-- While nobody runs on a key it holds what it held. -/
theorem quiet_run {key : QuotaKey} (run : Run (step env) (Quiet key) s s') :
    s.now ≤ s'.now ∧ s'.slots key = s.slots key := by
  refine run.invariant (fun t => s.now ≤ t.now ∧ t.slots key = s.slots key) ?_ ⟨le_rfl, rfl⟩
  intro t a t' h hquiet hstep
  rcases step_cases hstep with ⟨now, hnow, rfl⟩ | ⟨key', rfl⟩ | ⟨i, call, phase, slot, rfl, hcall,
    _, rfl⟩
  · exact ⟨h.1.trans hnow, h.2⟩
  · exact h
  · have hother := hquiet i rfl call hcall
    exact ⟨h.1, (Function.update_of_ne (Ne.symm hother) _ _).trans h.2⟩

/-- **The quota, however the calls interleave**: the sends of one life of a counter stay within the
limit, a call refused by the cooldown wrote no counter, and after an answer of no cooldown the next
call is not refused by it.  When every increment is up to date, the sends of each recipient and
type are as far apart as the cooldown requires. -/
theorem quota_holds {ok : QuotaSys → QuotaAction → Prop} {s₀ : QuotaSys} (h₀ : s₀.Initial)
    (run : Run (step env) ok s₀ s) :
    (∀ key life, 0 < env.getLimit key.type → (s.sendsOf key life : ℚ) ≤ env.getLimit key.type) ∧
    (∀ i key, s.calls[i]? = some ⟨key, .cooldownRefused⟩ → i ∉ s.counterWrites) ∧
    (∀ a s', s.step env a = some s' → s'.counterWrites = s.counterWrites →
      ∀ key, (s'.slots key).counter = (s.slots key).counter) ∧
    (∀ key s₁, Run (step env) (Quiet key) s s₁ →
      getCooldownRemainingSec ((s.slots key).lastSentAt s.now) ((s.slots key).countAt s.now)
        s₁.now = 0 →
      ∀ i, s₁.calls[i]? = some ⟨key, .started⟩ → ∀ s₂, Run (step env) (Undisturbed key i) s₁ s₂ →
        s₂.calls[i]? ≠ some ⟨key, .cooldownRefused⟩) ∧
    ((∀ t a, ok t a → t.UpToDate a) → ∀ key, key.type.cooldownExempt = false →
      Separated (s.sends.filter (fun x => x.key = key))) := by
  refine ⟨fun key life hpos => ?_, fun i key hcall hwrote => ?_,
    fun a s' hstep hwrites key => counter_step hstep hwrites key,
    fun key s₁ hasked hzero i hcall s₂ hnext hrefused => ?_, fun hok key hexempt => ?_⟩
  · have hbudgeted : s.Budgeted env :=
      run.invariant (Budgeted env) (fun _ _ _ h _ hstep => h.step hstep) h₀.budgeted
    refine le_trans ?_ (hbudgeted.limit key life hpos)
    exact Nat.cast_le.mpr (Nat.le_add_right _ _)
  · have hwriters : s.WritersIncremented := by
      refine run.invariant WritersIncremented (fun _ _ _ h _ hstep => h.step hstep) fun j hj => ?_
      rw [h₀.counterWrites] at hj
      exact (List.not_mem_nil hj).elim
    obtain ⟨c, hc, hphase⟩ := hwriters i hwrote
    obtain rfl := Option.some.inj (hcall.symm.trans hc)
    exact nomatch hphase
  · obtain ⟨hnow, hslot⟩ := quiet_run hasked
    have hclear : s₂.Clear (s.slots key) s₁.now s.now key i :=
      hnext.invariant (Clear (s.slots key) s₁.now s.now key i)
        (fun _ _ _ h halone hstep => h.step hzero halone hstep)
        ⟨le_rfl, hnow, .started, hcall, hslot⟩
    obtain ⟨_, _, phase, hphase, hclear⟩ := hclear
    obtain ⟨_, rfl⟩ := QuotaCall.mk.inj (Option.some.inj (hphase.symm.trans hrefused))
    exact hclear
  · have hspaced : (s.view key).Spaced env key :=
      run.invariant (fun t => (t.view key).Spaced env key)
        (fun t a _ h hguard hstep => spaced_step hexempt h (hok t a hguard) hstep) (h₀.spaced key)
    exact hspaced.separated

/-- The defaults, and recipients told apart by their names. -/
def defaultEnv : QuotaEnv := ⟨fun _ => none, id⟩

/-- Nothing was sent. -/
def idle : QuotaSys := { now := 1 }

/-- A call from its increment to its answer. -/
def advanceFour (i : Nat) : List QuotaAction := List.replicate 4 (.advance i)

/-- **Two calls that read the keys before either increments are both accepted at once**, though a
count of one requires a minute. -/
theorem quota_burst :
    idle.Initial ∧ ∃ s, Run (step defaultEnv) (fun _ _ => True) idle s ∧
      s.sends = [⟨⟨.reset, "guest@example.com"⟩, 0, 1, 1⟩,
        ⟨⟨.reset, "guest@example.com"⟩, 0, 2, 1⟩] ∧
      requiredWait 1 = 60000 ∧
      ¬ Separated (s.sends.filter (fun x => x.key = ⟨.reset, "guest@example.com"⟩)) := by
  refine ⟨⟨by decide, rfl, rfl, rfl, rfl⟩, ?_⟩
  obtain ⟨s, run, htest⟩ := @Run.of_execAll_test _ _ (step defaultEnv) (fun _ _ => True) _
    ([.call "guest@example.com" .reset, .call "guest@example.com" .reset, .advance 0, .advance 1,
      .advance 0, .advance 1] ++ advanceFour 0 ++ [.advance 1, .advance 1, .advance 1]) idle
    (fun s => s.sends = [⟨⟨.reset, "guest@example.com"⟩, 0, 1, 1⟩,
      ⟨⟨.reset, "guest@example.com"⟩, 0, 2, 1⟩]) (by decide +kernel)
  have hsends := of_decide_eq_true htest
  refine ⟨s, run, hsends, rfl, ?_⟩
  rw [hsends]
  unfold Separated
  decide

/-- A second call a minute after the first is accepted, and is up to date. -/
theorem quota_holds_minute :
    ∃ s, Run (step defaultEnv) UpToDate idle s ∧ s.sends.length = 2 ∧
      Separated (s.sends.filter (fun x => x.key = ⟨.reset, "guest@example.com"⟩)) := by
  obtain ⟨s, run, htest⟩ := @Run.of_execAll_test _ _ (step defaultEnv) UpToDate _
    ([.call "guest@example.com" .reset, .advance 0, .advance 0] ++ advanceFour 0 ++
      [.tick 60001, .call "guest@example.com" .reset, .advance 1, .advance 1, .advance 1,
        .advance 1, .advance 1]) idle
    (fun s => s.sends.length = 2) (by decide +kernel)
  have hinitial : idle.Initial := ⟨by decide, rfl, rfl, rfl, rfl⟩
  exact ⟨s, run, of_decide_eq_true htest,
    (quota_holds hinitial run).2.2.2.2 (fun _ _ h => h) _ rfl⟩

end QuotaSys

end Jadwal
