import Jadwal.Lib.Expiring
import Jadwal.Lib.Run
import Mathlib

/-!
# The rate limiter

`RedisThrottlerStorage.increment` runs one script on Redis for every request: a key that is
blocked is refused; otherwise its counter goes up, which lives `ttl` from its first hit, and a
counter over `limit` blocks the key for `blockDuration`.  Without an answer the request passes.
What is asked: how many requests pass in a stretch of time (`admissions_bounded`), and whether the
time a refused client is told to wait is the time it has to wait (`retry_after_exact`).
-/

namespace Jadwal

/-- The limits that hold for a key, in milliseconds. -/
structure Throttler where
  ttl : Nat
  limit : Nat
  blockDuration : Nat
  deriving DecidableEq, Repr

structure ThrottleAnswer where
  totalHits : Nat
  timeToExpire : Nat
  isBlocked : Bool
  timeToBlockExpire : Nat
  deriving DecidableEq, Repr

/-- The two kinds of keys; the guard hands in digests, so that none of one is one of the other. -/
structure ThrottleStore where
  hits : Expiring String Nat
  blocked : Expiring String Unit

/-- `LUA_SCRIPT` -/
def throttleScript (t : Throttler) (s : ThrottleStore) (now : Nat) (key : String) :
    ThrottleAnswer × ThrottleStore :=
  if (s.blocked.read now key).isSome then
    (⟨(s.hits.read now key).getD 0, 0, true, s.blocked.remaining now key⟩, s)
  else
    let (count, hits) := s.hits.increment now key t.ttl
    let ttlRemaining := hits.remaining now key
    if count > t.limit then
      (⟨count, ttlRemaining, true, t.blockDuration⟩,
        { hits := hits, blocked := s.blocked.set now key () t.blockDuration })
    else (⟨count, ttlRemaining, false, 0⟩, { s with hits := hits })

/-- `increment`: fails open. -/
def throttleIncrement (t : Throttler) (s : ThrottleStore) (now : Nat) (key : String)
    (reply : StoreReply) : ThrottleAnswer × ThrottleStore :=
  let failOpen : ThrottleAnswer := ⟨0, t.ttl, false, 0⟩
  match reply with
  | .answered => throttleScript t s now key
  | .lost => (failOpen, (throttleScript t s now key).2)
  | .unreachable => (failOpen, s)

/-- A request that went through the guard. -/
structure Throttled where
  key : String
  sentAt : Nat
  reply : StoreReply
  answer : ThrottleAnswer
  deriving DecidableEq, Repr

/-- The request passed, and Redis said so. -/
def Throttled.counted (x : Throttled) : Bool := x.reply = .answered ∧ x.answer.isBlocked = false

structure ThrottleWorld where
  now : Nat
  store : ThrottleStore
  log : List Throttled

inductive ThrottleAction
  | wait (ms : Nat)
  | request (key : String) (reply : StoreReply)
  deriving DecidableEq, Repr

namespace ThrottleWorld

variable (limits : String → Throttler)

def request (s : ThrottleWorld) (key : String) (reply : StoreReply) : ThrottleWorld :=
  let (answer, store) := throttleIncrement (limits key) s.store s.now key reply
  { s with store := store, log := ⟨key, s.now, reply, answer⟩ :: s.log }

def step (s : ThrottleWorld) : ThrottleAction → Option ThrottleWorld
  | .wait ms => some { s with now := s.now + ms }
  | .request key reply => some (s.request limits key reply)

def initial (now : Nat) : ThrottleWorld := ⟨now, ⟨Expiring.empty, Expiring.empty⟩, []⟩

def Reachable (s : ThrottleWorld) : Prop :=
  ∃ now, Run (step limits) (fun _ _ => True) (initial now) s

/-- The requests of a key that passed, from an instant on. -/
def passedFrom (s : ThrottleWorld) (key : String) (x : Nat) : Nat :=
  s.log.countP (fun r => r.key = key ∧ r.counted ∧ x ≤ r.sentAt)

/-- Those that passed before another instant. -/
def passedIn (s : ThrottleWorld) (key : String) (x y : Nat) : Nat :=
  s.log.countP (fun r => r.key = key ∧ r.counted ∧ x ≤ r.sentAt ∧ r.sentAt < y)

variable {limits} {s s' : ThrottleWorld} {key : String} {t : Throttler} {store : ThrottleStore}
  {now : Nat}

theorem passedIn_le (x y : Nat) : s.passedIn key x y ≤ s.passedFrom key x := by
  apply List.countP_mono_left
  intro r _ hr
  simp only [decide_eq_true_eq] at hr ⊢
  exact ⟨hr.1, hr.2.1, hr.2.2.1⟩

theorem passedFrom_cons {r : Throttled} {x : Nat} :
    ({ s with store := store, log := r :: s.log } : ThrottleWorld).passedFrom key x =
      s.passedFrom key x + if r.key = key ∧ r.counted = true ∧ x ≤ r.sentAt then 1 else 0 := by
  unfold passedFrom
  rw [List.countP_cons]
  simp

theorem passedIn_cons {r : Throttled} {x y : Nat} :
    ({ s with store := store, log := r :: s.log } : ThrottleWorld).passedIn key x y =
      s.passedIn key x y +
        if r.key = key ∧ r.counted = true ∧ x ≤ r.sentAt ∧ r.sentAt < y then 1 else 0 := by
  unfold passedIn
  rw [List.countP_cons]
  simp

/-- What the script does to a key that is not blocked. -/
theorem script_open (h : store.blocked.read now key = none) :
    (throttleScript t store now key).2.hits = (store.hits.increment now key t.ttl).2 ∧
    (throttleScript t store now key).1.isBlocked =
      decide (t.limit < (store.hits.increment now key t.ttl).1) ∧
    (throttleScript t store now key).2.blocked =
      (if t.limit < (store.hits.increment now key t.ttl).1 then
        store.blocked.set now key () t.blockDuration else store.blocked) ∧
    (t.limit < (store.hits.increment now key t.ttl).1 →
      (throttleScript t store now key).1.timeToBlockExpire = t.blockDuration) := by
  unfold throttleScript
  rw [h]
  by_cases hlt : t.limit < (store.hits.increment now key t.ttl).1
  · simp [hlt]
  · simp [hlt]

theorem script_blocked {u : Unit} (h : store.blocked.read now key = some u) :
    throttleScript t store now key =
      (⟨(store.hits.read now key).getD 0, 0, true, store.blocked.remaining now key⟩, store) := by
  unfold throttleScript
  rw [h]
  rfl

/-- The script touches no other key. -/
theorem script_of_ne (t : Throttler) (store : ThrottleStore) (now : Nat) {key' : String}
    (h : key' ≠ key) :
    (throttleScript t store now key).2.hits key' = store.hits key' ∧
    (throttleScript t store now key).2.blocked key' = store.blocked key' := by
  cases hread : store.blocked.read now key with
  | some u =>
      rw [script_blocked hread]
      exact ⟨rfl, rfl⟩
  | none =>
      obtain ⟨hhits, _, hblocked, _⟩ := script_open (t := t) hread
      rw [hhits, hblocked]
      refine ⟨Expiring.increment_of_ne h, ?_⟩
      split
      · exact Expiring.set_of_ne h
      · rfl

/-- The requests a key has seen go past the counter that lives now, and past those before it. -/
structure Metered (t : Throttler) (key : String) (s : ThrottleWorld) : Prop where
  past : ∀ r ∈ s.log, r.sentAt ≤ s.now
  fresh : s.store.hits key = none → ∀ r ∈ s.log, r.key = key → r.counted = false
  life : ∀ x, s.store.hits key = some x → x.expiresAt ≤ s.now + t.ttl
  ended : ∀ x, s.store.hits key = some x → ∀ r ∈ s.log, r.key = key → r.counted = true →
    r.sentAt < x.expiresAt
  /-- From an instant that `n` lives and the present one reach back to. -/
  recent : ∀ x, s.store.hits key = some x → ∀ n y, x.expiresAt ≤ y + (n + 1) * t.ttl →
    s.passedFrom key y ≤ n * t.limit + min x.value t.limit
  bounded : ∀ n y, s.passedIn key y (y + n * t.ttl) ≤ (n + 1) * t.limit

theorem Metered.initial (now : Nat) : (initial now).Metered t key where
  past r hr := by cases hr
  fresh _ r hr := by cases hr
  life x hx := by cases hx
  ended x hx := by cases hx
  recent x hx := by cases hx
  bounded n y := Nat.zero_le _

theorem Metered.wait (h : s.Metered t key) (ms : Nat) :
    ({ s with now := s.now + ms } : ThrottleWorld).Metered t key where
  past r hr := (h.past r hr).trans (Nat.le_add_right _ _)
  fresh := h.fresh
  life x hx := (h.life x hx).trans (by simp only; omega)
  ended := h.ended
  recent := h.recent
  bounded := h.bounded

/-- A request that counts for nothing, and leaves the counter alone. -/
theorem Metered.quiet (h : s.Metered t key) (hhits : store.hits key = s.store.hits key)
    {r : Throttled} (hat : r.sentAt = s.now) (hr : r.key = key → r.counted = false) :
    ({ s with store := store, log := r :: s.log } : ThrottleWorld).Metered t key := by
  have hnot : ∀ p : Prop, ¬ (r.key = key ∧ r.counted = true ∧ p) := by
    intro p hp
    rw [hr hp.1] at hp
    exact absurd hp.2.1 Bool.false_ne_true
  refine ⟨?_, ?_, fun x hx => h.life x (hhits ▸ hx), ?_, ?_, ?_⟩
  · intro x hx
    rcases List.mem_cons.mp hx with rfl | hx
    · exact hat.le
    · exact h.past x hx
  · intro hnone x hx hkey
    rcases List.mem_cons.mp hx with rfl | hx
    · exact hr hkey
    · exact h.fresh (hhits ▸ hnone) x hx hkey
  · intro c hc x hx hkey hcounted
    rcases List.mem_cons.mp hx with rfl | hx
    · exact absurd ⟨hkey, hcounted, trivial⟩ (hnot True)
    · exact h.ended c (hhits ▸ hc) x hx hkey hcounted
  · intro c hc n y hle
    rw [passedFrom_cons, if_neg (hnot _)]
    exact h.recent c (hhits ▸ hc) n y hle
  · intro n y
    rw [passedIn_cons, if_neg (hnot _)]
    exact h.bounded n y

/-- A request that the counter has seen: what is known of the stretches up to now is known of all
stretches. -/
theorem Metered.seen (h : s.Metered t key) {r : Throttled} {c : Timed Nat} (hat : r.sentAt = s.now)
    (hc : store.hits key = some c) (hlive : s.now < c.expiresAt)
    (hlife : c.expiresAt ≤ s.now + t.ttl)
    (hended : ∀ r ∈ s.log, r.key = key → r.counted = true → r.sentAt < c.expiresAt)
    (hrecent : ∀ n y, c.expiresAt ≤ y + (n + 1) * t.ttl →
      ({ s with store := store, log := r :: s.log } : ThrottleWorld).passedFrom key y ≤
        n * t.limit + min c.value t.limit) :
    ({ s with store := store, log := r :: s.log } : ThrottleWorld).Metered t key := by
  refine ⟨?_, ?_, ?_, ?_, ?_, ?_⟩
  · intro x hx
    rcases List.mem_cons.mp hx with rfl | hx
    · exact hat.le
    · exact h.past x hx
  · intro hnone
    rw [hc] at hnone
    cases hnone
  · intro x hx
    obtain rfl := Option.some.inj (hc.symm.trans hx)
    exact hlife
  · intro d hd x hx hkey hcounted
    obtain rfl := Option.some.inj (hc.symm.trans hd)
    rcases List.mem_cons.mp hx with rfl | hx
    · exact hat ▸ hlive
    · exact hended x hx hkey hcounted
  · intro d hd
    obtain rfl := Option.some.inj (hc.symm.trans hd)
    exact hrecent
  · intro n y
    by_cases hin : r.key = key ∧ r.counted = true ∧ y ≤ r.sentAt ∧ r.sentAt < y + n * t.ttl
    · have hle := hrecent n y (by
        have hlt := hin.2.2.2
        rw [hat] at hlt
        rw [Nat.succ_mul]
        omega)
      have hmin := Nat.min_le_right c.value t.limit
      rw [Nat.succ_mul]
      exact (passedIn_le _ _).trans (hle.trans (Nat.add_le_add_left hmin _))
    · rw [passedIn_cons, if_neg hin]
      exact h.bounded n y

/-- The counter goes up. -/
theorem Metered.grow (h : s.Metered t key) {r : Throttled} {c e : Nat} (hat : r.sentAt = s.now)
    (hold : s.store.hits key = some ⟨c, e⟩) (hlive : s.now < e)
    (hnew : store.hits key = some ⟨c + 1, e⟩) (hcounted : r.counted = true → c + 1 ≤ t.limit) :
    ({ s with store := store, log := r :: s.log } : ThrottleWorld).Metered t key := by
  refine h.seen hat hnew hlive (h.life ⟨c, e⟩ hold) (h.ended ⟨c, e⟩ hold) ?_
  intro n y hle
  have hprev := h.recent ⟨c, e⟩ hold n y hle
  rw [passedFrom_cons]
  simp only at hprev ⊢
  split
  case isTrue hr =>
    have := hcounted hr.2.1
    omega
  case isFalse => omega

/-- A counter starts where none lives. -/
theorem Metered.start (h : s.Metered t key) {r : Throttled} (hpos : 0 < t.ttl)
    (hat : r.sentAt = s.now) (hold : ∀ x, s.store.hits key = some x → x.expiresAt ≤ s.now)
    (hnew : store.hits key = some ⟨1, s.now + t.ttl⟩) (hcounted : r.counted = true → 1 ≤ t.limit) :
    ({ s with store := store, log := r :: s.log } : ThrottleWorld).Metered t key := by
  have hbefore : ∀ r ∈ s.log, r.key = key → r.counted = true → r.sentAt < s.now := by
    intro x hx hkey hxc
    cases hc : s.store.hits key with
    | none => exact absurd (h.fresh hc x hx hkey) (by simp [hxc])
    | some c => exact (h.ended c hc x hx hkey hxc).trans_le (hold c hc)
  refine h.seen hat hnew (Nat.lt_add_of_pos_right hpos) le_rfl
    (fun x hx hx' hxc => (hbefore x hx hx' hxc).trans_le (Nat.le_add_right _ _)) ?_
  intro n y hle
  have hprev : s.passedFrom key y ≤ n * t.limit := by
    cases n with
    | zero =>
        have hnone : s.passedFrom key y = 0 := by
          apply List.countP_eq_zero.mpr
          intro x hx hp
          obtain ⟨hkey, hxc, hy⟩ := of_decide_eq_true hp
          have := hbefore x hx hkey hxc
          simp only at hle
          omega
        omega
    | succ m =>
        cases hc : s.store.hits key with
        | none =>
            have hnone : s.passedFrom key y = 0 := by
              apply List.countP_eq_zero.mpr
              intro x hx hp
              obtain ⟨hkey, hxc, _⟩ := of_decide_eq_true hp
              exact absurd (h.fresh hc x hx hkey) (by simp [hxc])
            omega
        | some c =>
            have hreach : c.expiresAt ≤ y + (m + 1) * t.ttl := by
              have := hold c hc
              simp only [Nat.succ_mul] at hle ⊢
              omega
            have := h.recent c hc m y hreach
            have := Nat.min_le_right c.value t.limit
            simp only [Nat.succ_mul]
            omega
  rw [passedFrom_cons]
  simp only
  split
  case isTrue hr =>
    have := hcounted hr.2.1
    omega
  case isFalse => omega

/-- What one run of the script does to a key. -/
theorem Metered.script (h : s.Metered (limits key) key) (hpos : 0 < (limits key).ttl)
    {r : Throttled} (hat : r.sentAt = s.now)
    (hcounted : r.counted = true →
      (throttleScript (limits key) s.store s.now key).1.isBlocked = false) :
    ({ s with
      store := (throttleScript (limits key) s.store s.now key).2
      log := r :: s.log } : ThrottleWorld).Metered (limits key) key := by
  cases hread : s.store.blocked.read s.now key with
  | some u =>
      rw [script_blocked hread] at hcounted ⊢
      exact h.quiet rfl hat fun _ => Bool.eq_false_iff.mpr fun hr => by cases hcounted hr
  | none =>
      obtain ⟨hhits, hflag, _, _⟩ := script_open (t := limits key) hread
      have hpassed : r.counted = true →
          (s.store.hits.increment s.now key (limits key).ttl).1 ≤ (limits key).limit := by
        intro hr
        have hfalse := hcounted hr
        rw [hflag] at hfalse
        exact Nat.le_of_not_lt (of_decide_eq_false hfalse)
      rcases Expiring.increment_cases s.store.hits s.now key (limits key).ttl with
        ⟨c, e, hc, hlt, hcount, hnew⟩ | ⟨hdead, hcount, hnew⟩
      · rw [hcount] at hpassed
        exact h.grow hat hc hlt ((congrFun hhits key).trans hnew) hpassed
      · rw [hcount] at hpassed
        exact h.start hpos hat hdead ((congrFun hhits key).trans hnew) hpassed

/-- **Every request keeps the meter.** -/
theorem Metered.step (h : s.Metered (limits key) key) (hpos : 0 < (limits key).ttl)
    {a : ThrottleAction} (hstep : step limits s a = some s') : s'.Metered (limits key) key := by
  cases a with
  | wait ms =>
      obtain rfl := Option.some.inj hstep
      exact h.wait ms
  | request key' reply =>
      obtain rfl := Option.some.inj hstep
      by_cases hkey : key' = key
      · subst hkey
        cases reply with
        | answered => exact h.script hpos rfl fun hr => (of_decide_eq_true hr).2
        | lost => exact h.script hpos rfl fun hr => by cases (of_decide_eq_true hr).1
        | unreachable => exact h.quiet rfl rfl fun _ => rfl
      · have hother := (script_of_ne (limits key') s.store s.now (Ne.symm hkey)).1
        cases reply with
        | answered => exact h.quiet hother rfl fun heq => absurd heq hkey
        | lost => exact h.quiet hother rfl fun heq => absurd heq hkey
        | unreachable => exact h.quiet rfl rfl fun heq => absurd heq hkey

/-- **How many pass**: in any stretch of `n` lives of the counter, at most `(n + 1) * limit`
requests of a key pass with an answer of Redis, whatever is asked, whenever, and under which keys
besides. -/
theorem admissions_bounded (hs : s.Reachable limits) (key : String) (hpos : 0 < (limits key).ttl)
    (n start : Nat) :
    s.passedIn key start (start + n * (limits key).ttl) ≤ (n + 1) * (limits key).limit := by
  obtain ⟨now, hrun⟩ := hs
  exact (Run.invariant (Metered (limits key) key) (fun _ _ _ h _ hstep => h.step hpos hstep) hrun
    (Metered.initial now)).bounded n start

/-- Five within two milliseconds, at the turn of two lives of the counter. -/
theorem admissions_bounded_strict : ∃ s : ThrottleWorld, s.Reachable (fun _ => ⟨60000, 3, 60000⟩) ∧
    s.passedIn "login" 59999 (59999 + 1 * 60000) = 5 ∧
    s.passedIn "login" 59999 (59999 + 1 * 60000) ≤ (1 + 1) * 3 := by
  obtain ⟨s, hrun, htest⟩ := @Run.of_execAll_test _ _ (step (fun _ => ⟨60000, 3, 60000⟩))
    (fun _ _ => True) _ [.request "login" .answered, .wait 59999, .request "login" .answered,
      .request "login" .answered, .wait 1, .request "login" .answered,
      .request "login" .answered, .request "login" .answered, .request "login" .answered]
    (initial 0) (fun s => s.passedIn "login" 59999 (59999 + 1 * 60000) = 5) (by decide)
  exact ⟨s, ⟨0, hrun⟩, of_decide_eq_true htest,
    admissions_bounded ⟨0, hrun⟩ "login" (by decide) 1 59999⟩

/-- A block outlives the counter that led to it. -/
structure Covered (t : Throttler) (key : String) (s : ThrottleWorld) : Prop where
  life : ∀ x, s.store.hits key = some x → x.expiresAt ≤ s.now + t.ttl
  covered : ∀ b, s.store.blocked key = some b → s.now < b.expiresAt →
    ∀ x, s.store.hits key = some x → x.expiresAt ≤ b.expiresAt

/-- What the script leaves of the counter lives no longer than one life from now. -/
theorem script_life (hlife : ∀ x, store.hits key = some x → x.expiresAt ≤ now + t.ttl) :
    ∀ x, (throttleScript t store now key).2.hits key = some x → x.expiresAt ≤ now + t.ttl := by
  cases hread : store.blocked.read now key with
  | some u =>
      rw [script_blocked hread]
      exact hlife
  | none =>
      rw [(script_open (t := t) hread).1]
      intro x hx
      rcases Expiring.increment_cases store.hits now key t.ttl with
        ⟨c, e, hc, _, _, hnew⟩ | ⟨_, _, hnew⟩
      · obtain rfl := Option.some.inj (hnew.symm.trans hx)
        exact hlife ⟨c, e⟩ hc
      · obtain rfl := Option.some.inj (hnew.symm.trans hx)
        exact le_rfl

theorem Covered.script (h : s.Covered t key) (hblock : t.ttl ≤ t.blockDuration)
    {log : List Throttled} :
    ({ s with store := (throttleScript t s.store s.now key).2, log := log } :
      ThrottleWorld).Covered t key := by
  refine ⟨script_life h.life, ?_⟩
  cases hread : s.store.blocked.read s.now key with
  | some u =>
      rw [script_blocked hread]
      exact h.covered
  | none =>
      have hlife := script_life h.life
      intro b hb hlt x hx
      simp only at hb hlt hx
      rw [(script_open (t := t) hread).2.2.1] at hb
      split at hb
      · rw [Expiring.set_apply] at hb
        cases hb
        exact (hlife x hx).trans (Nat.add_le_add_left hblock _)
      · have hsome := Expiring.read_eq_some.mpr ⟨b.expiresAt, hb, hlt⟩
        rw [hread] at hsome
        cases hsome

theorem Covered.of_same (h : s.Covered t key) (hhits : store.hits key = s.store.hits key)
    (hblocked : store.blocked key = s.store.blocked key) {log : List Throttled} :
    ({ s with store := store, log := log } : ThrottleWorld).Covered t key where
  life x hx := h.life x (hhits ▸ hx)
  covered b hb hlt x hx := h.covered b (hblocked ▸ hb) hlt x (hhits ▸ hx)

theorem Covered.step (h : s.Covered (limits key) key)
    (hblock : (limits key).ttl ≤ (limits key).blockDuration) {a : ThrottleAction}
    (hstep : step limits s a = some s') : s'.Covered (limits key) key := by
  cases a with
  | wait ms =>
      obtain rfl := Option.some.inj hstep
      refine ⟨fun x hx => (h.life x hx).trans (by simp only; omega), ?_⟩
      intro b hb hlt
      exact h.covered b hb (Nat.lt_of_le_of_lt (Nat.le_add_right _ _) hlt)
  | request key' reply =>
      obtain rfl := Option.some.inj hstep
      by_cases hkey : key' = key
      · subst hkey
        cases reply with
        | answered => exact h.script hblock
        | lost => exact h.script hblock
        | unreachable => exact h.of_same rfl rfl
      · have hother := script_of_ne (limits key') s.store s.now (Ne.symm hkey)
        cases reply with
        | answered => exact h.of_same hother.1 hother.2
        | lost => exact h.of_same hother.1 hother.2
        | unreachable => exact h.of_same rfl rfl

theorem Reachable.covered (hs : s.Reachable limits)
    (hblock : (limits key).ttl ≤ (limits key).blockDuration) : s.Covered (limits key) key := by
  obtain ⟨now, hrun⟩ := hs
  refine Run.invariant (Covered (limits key) key) (fun _ _ _ h _ hstep => h.step hblock hstep) hrun
    ⟨?_, ?_⟩
  · intro x hx
    cases hx
  · intro b hb
    cases hb

/-- The key is blocked up to the deadline, and its counter is gone by then. -/
def BlockedUntil (key : String) (deadline : Nat) (s : ThrottleWorld) : Prop :=
  s.store.blocked key = some ⟨(), deadline⟩ ∧
    ∀ x, s.store.hits key = some x → x.expiresAt ≤ deadline

/-- The requests of the key come before the deadline. -/
def Early (key : String) (deadline : Nat) (s : ThrottleWorld) (a : ThrottleAction) : Prop :=
  ∀ reply, a = .request key reply → s.now < deadline

theorem BlockedUntil.step {deadline : Nat} (h : s.BlockedUntil key deadline) {a : ThrottleAction}
    (hearly : Early key deadline s a) (hstep : step limits s a = some s') :
    s'.BlockedUntil key deadline := by
  cases a with
  | wait ms =>
      obtain rfl := Option.some.inj hstep
      exact h
  | request key' reply =>
      obtain rfl := Option.some.inj hstep
      by_cases hkey : key' = key
      · subst hkey
        have hread := Expiring.read_eq_some.mpr ⟨deadline, h.1, hearly reply rfl⟩
        have hsame := congrArg Prod.snd (script_blocked (t := limits key') hread)
        cases reply with
        | answered =>
            unfold BlockedUntil request throttleIncrement
            simp only [hsame]
            exact h
        | lost =>
            unfold BlockedUntil request throttleIncrement
            simp only [hsame]
            exact h
        | unreachable => exact h
      · obtain ⟨hhits, hblocked⟩ := script_of_ne (limits key') s.store s.now
          (Ne.symm hkey)
        have hother : ∀ log : List Throttled,
            ({ s with store := (throttleScript (limits key') s.store s.now key').2, log := log } :
              ThrottleWorld).BlockedUntil key deadline :=
          fun log => ⟨hblocked.trans h.1, fun x hx => h.2 x (hhits ▸ hx)⟩
        cases reply with
        | answered => exact hother _
        | lost => exact hother _
        | unreachable => exact h

/-- A refusal says until when. -/
theorem Covered.refused (h : s.Covered t key) (hblock : t.ttl ≤ t.blockDuration)
    (hrefused : (throttleScript t s.store s.now key).1.isBlocked = true) (log : List Throttled) :
    ({ s with store := (throttleScript t s.store s.now key).2, log := log } :
      ThrottleWorld).BlockedUntil key
        (s.now + (throttleScript t s.store s.now key).1.timeToBlockExpire) := by
  cases hread : s.store.blocked.read s.now key with
  | some u =>
      obtain ⟨e, hb, hlt⟩ := Expiring.read_eq_some.mp hread
      rw [script_blocked hread]
      have hdeadline : s.now + s.store.blocked.remaining s.now key = e := by
        unfold Expiring.remaining
        rw [hb, Option.elim_some]
        exact Nat.add_sub_cancel' hlt.le
      rw [hdeadline]
      exact ⟨hb, h.covered _ hb hlt⟩
  | none =>
      obtain ⟨_, hflag, hblocked, htime⟩ := script_open (t := t) hread
      rw [hflag] at hrefused
      have hover := of_decide_eq_true hrefused
      rw [if_pos hover] at hblocked
      rw [htime hover]
      refine ⟨?_, ?_⟩
      · simp only
        rw [hblocked]
        exact Expiring.set_apply
      · intro x hx
        exact (script_life h.life x hx).trans (Nat.add_le_add_left hblock _)

/-- **The wait a refusal names is exact**: where the block lasts at least as long as the counter,
a client that is refused is refused up to the instant it was told, however often it asks before,
and from then on it passes. -/
theorem retry_after_exact (hs : s.Reachable limits) (hlimit : 1 ≤ (limits key).limit)
    (hblock : (limits key).ttl ≤ (limits key).blockDuration)
    (hrefused : (throttleScript (limits key) s.store s.now key).1.isBlocked = true)
    (hrun : Run (step limits)
      (Early key (s.now + (throttleScript (limits key) s.store s.now key).1.timeToBlockExpire))
      (s.request limits key .answered) s') :
    (throttleScript (limits key) s'.store s'.now key).1.isBlocked = true ↔
      s'.now < s.now + (throttleScript (limits key) s.store s.now key).1.timeToBlockExpire := by
  have h := (hs.covered hblock).refused hblock hrefused (s.request limits key .answered).log
  obtain ⟨hb, hgone⟩ := Run.invariant (BlockedUntil key _)
    (fun _ _ _ h hok hstep => h.step hok hstep) hrun h
  constructor
  · intro hblocked
    by_contra hlate
    have hread : s'.store.blocked.read s'.now key = none := by
      cases hr : s'.store.blocked.read s'.now key with
      | none => rfl
      | some u =>
          obtain ⟨e, hb', hlt⟩ := Expiring.read_eq_some.mp hr
          rw [hb] at hb'
          cases hb'
          exact absurd hlt hlate
    rw [(script_open (t := limits key) hread).2.1] at hblocked
    have hover := of_decide_eq_true hblocked
    rcases Expiring.increment_cases s'.store.hits s'.now key (limits key).ttl with
      ⟨c, e, hc, hlt, _⟩ | ⟨_, hcount, _⟩
    · exact hlate (hlt.trans_le (hgone _ hc))
    · rw [hcount] at hover
      omega
  · intro hlt
    rw [script_blocked (Expiring.read_eq_some.mpr ⟨_, hb, hlt⟩)]

/-- `RATE_LIMIT_MINIMAL` -/
def minimal : String → Throttler := fun _ => ⟨60000, 1, 60000⟩

/-- One verification mail has been asked for. -/
def askedOnce : ThrottleWorld := (initial 0).request minimal "resend" .answered

/-- A second one is refused for a minute, and asking again meanwhile does not prolong it. -/
theorem retry_after_exact_minimal : ∃ s : ThrottleWorld,
    Run (step minimal) (Early "resend" 60000) (askedOnce.request minimal "resend" .answered) s ∧
      s.now = 60000 ∧
      (throttleScript ⟨60000, 1, 60000⟩ s.store s.now "resend").1.isBlocked = false := by
  have hreach : askedOnce.Reachable minimal :=
    ⟨0, (Run.nil _).snoc trivial (a := .request "resend" .answered) rfl⟩
  have hrun : ∃ s : ThrottleWorld, Run (step minimal) (Early "resend" 60000)
      (askedOnce.request minimal "resend" .answered) s ∧ s.now = 60000 := by
    refine ⟨_, (((Run.nil _).snoc ?_ (a := .wait 40000) rfl).snoc ?_
      (a := .request "resend" .answered) rfl).snoc ?_ (a := .wait 20000) rfl, rfl⟩
    · intro reply h
      cases h
    · intro reply _
      decide
    · intro reply h
      cases h
  obtain ⟨s, hrun, hnow⟩ := hrun
  refine ⟨s, hrun, hnow, ?_⟩
  have hexact := retry_after_exact hreach (by decide) (by decide) (by decide) hrun
  rw [hnow] at hexact ⊢
  exact Bool.eq_false_iff.mpr fun hblocked => absurd (hexact.mp hblocked) (by decide)

end ThrottleWorld

end Jadwal
