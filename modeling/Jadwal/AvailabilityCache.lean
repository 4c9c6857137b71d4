import Jadwal.Lib.Run
import Mathlib.Data.Nat.Basic
import Mathlib.Logic.Function.Basic

/-!
# The availability cache

The monthly calendar of one activity is cached on Redis under the version of
the activity.  A writer commits and then bumps the version; a reader looks for
an entry of the present version, and after a miss computes the calendar from
four reads of the database and stores it under the version it reads then.  Each
Redis command and each database statement is a step, and any number of readers
and writers take turns.

`δ` is the state of the database and `ρ` the type of a calendar.  `commits`
numbers the states; an entry remembers the number of the state its first read
saw, and `settledAt v` is the number of the last commit whose invalidation had
completed when the version became `v`.  No command looks at either.
-/

namespace Jadwal

universe u v

/-- `MONTH_RE`: `YYYY-MM`. -/
def isMonth (month : String) : Bool :=
  match month.toList with
  | [a, b, c, d, '-', '0', f] => [a, b, c, d].all Char.isDigit && '1' ≤ f && f ≤ '9'
  | [a, b, c, d, '-', '1', f] => [a, b, c, d].all Char.isDigit && '0' ≤ f && f ≤ '2'
  | _ => false

def maxCacheableUnit : Int := 1000

/-- `AvailabilityCacheService.isSafe`, for a well-formed activity id. -/
def isSafe (month : String) (unitNumber : Option Int) : Bool :=
  isMonth month && unitNumber.all (fun n => 1 ≤ n && n ≤ maxCacheableUnit)

/-- `AvailabilityCacheService.dataKey`, for the activity. -/
structure CacheKey where
  version : Nat
  month : String
  unitNumber : Option Int
  deriving DecidableEq, Repr

/-- A computed calendar, with the number of the oldest database state it is
computed from. -/
structure CacheEntry (ρ : Type v) where
  response : ρ
  asOf : Nat

/-- The rest of `getCalendarAvailability` and the size cap of the cache. -/
structure CalendarEnv (δ : Type u) (ρ : Type v) where
  enabled : Bool := true
  /-- The activity exists and is ACTIVE. -/
  isActive : δ → Bool
  /-- From the states in which the activity, its bookings, its blocks and its
  special prices were read. -/
  respond : String → Option Int → δ → δ → δ → δ → ρ
  fits : ρ → Bool

/-- A request for the calendar. -/
structure CalendarQuery where
  month : String
  unitNumber : Option Int
  deriving DecidableEq, Repr

/-- The activity as the reader found it, and the number of that state. -/
structure ActivityRead (δ : Type u) where
  state : δ
  asOf : Nat

inductive CacheTask (δ : Type u) (ρ : Type v)
  -- `getCalendarAvailability`
  | readActivity (query : CalendarQuery)
  /-- `get`: the version, and the commits settled when it is read. -/
  | getVersion (query : CalendarQuery) (activity : ActivityRead δ)
  | getData (query : CalendarQuery) (activity : ActivityRead δ) (version since : Nat)
  | readBookings (query : CalendarQuery) (activity : ActivityRead δ)
  | readBlocks (query : CalendarQuery) (activity : ActivityRead δ) (bookings : δ)
  | readSpecials (query : CalendarQuery) (activity : ActivityRead δ) (bookings blocks : δ)
  /-- `set`: the version, and then the entry. -/
  | setVersion (query : CalendarQuery) (entry : CacheEntry ρ)
  | setData (key : CacheKey) (entry : CacheEntry ρ)
  -- a writer
  | commit (f : δ → δ)
  | incr (committed : Nat)

/-- A `get` returned an entry: the commits settled when it began, and the state
the entry is computed from. -/
structure CacheHit where
  since : Nat
  asOf : Nat
  deriving DecidableEq, Repr

structure CacheWorld (δ : Type u) (ρ : Type v) where
  db : δ
  commits : Nat := 0
  version : Nat := 0
  settledAt : Nat → Nat := fun _ => 0
  data : CacheKey → Option (CacheEntry ρ) := fun _ => none
  inflight : List (CacheTask δ ρ) := []
  hits : List CacheHit := []

namespace CacheWorld

variable {δ : Type u} {ρ : Type v}

/-- The last commit whose invalidation has completed. -/
def settled (w : CacheWorld δ ρ) : Nat := w.settledAt w.version

/-- One command of a task. -/
def exec (env : CalendarEnv δ ρ) (w : CacheWorld δ ρ) :
    CacheTask δ ρ → CacheWorld δ ρ × Option (CacheTask δ ρ)
  | .readActivity query =>
      if env.isActive w.db = false then (w, none)
      else if env.enabled && isSafe query.month query.unitNumber then
        (w, some (.getVersion query ⟨w.db, w.commits⟩))
      else (w, some (.readBookings query ⟨w.db, w.commits⟩))
  | .getVersion query activity => (w, some (.getData query activity w.version w.settled))
  | .getData query activity version since =>
      match w.data ⟨version, query.month, query.unitNumber⟩ with
      | some entry => ({ w with hits := w.hits ++ [⟨since, entry.asOf⟩] }, none)
      | none => (w, some (.readBookings query activity))
  | .readBookings query activity => (w, some (.readBlocks query activity w.db))
  | .readBlocks query activity bookings =>
      (w, some (.readSpecials query activity bookings w.db))
  | .readSpecials query activity bookings blocks =>
      let response :=
        env.respond query.month query.unitNumber activity.state bookings blocks w.db
      if env.enabled && isSafe query.month query.unitNumber && env.fits response then
        (w, some (.setVersion query ⟨response, activity.asOf⟩))
      else (w, none)
  | .setVersion query entry =>
      (w, some (.setData ⟨w.version, query.month, query.unitNumber⟩ entry))
  | .setData key entry =>
      ({ w with data := Function.update w.data key (some entry) }, none)
  | .commit f => ({ w with db := f w.db, commits := w.commits + 1 },
      if env.enabled then some (.incr (w.commits + 1)) else none)
  | .incr committed =>
      ({ w with
          version := w.version + 1
          settledAt := Function.update w.settledAt (w.version + 1) (max w.settled committed) },
        none)

end CacheWorld

inductive CacheAction (δ : Type u)
  | get (query : CalendarQuery)
  | write (f : δ → δ)
  /-- The time to live of an entry is over. -/
  | expire (key : CacheKey)
  | run (index : Nat)

namespace CacheWorld

variable {δ : Type u} {ρ : Type v}

def ran (env : CalendarEnv δ ρ) (w : CacheWorld δ ρ) (index : Nat) (t : CacheTask δ ρ) :
    CacheWorld δ ρ :=
  { (w.exec env t).1 with
    inflight := w.inflight.eraseIdx index ++ (w.exec env t).2.toList }

def step (env : CalendarEnv δ ρ) (w : CacheWorld δ ρ) :
    CacheAction δ → Option (CacheWorld δ ρ)
  | .get query => some { w with inflight := w.inflight ++ [.readActivity query] }
  | .write f => some { w with inflight := w.inflight ++ [.commit f] }
  | .expire key => some { w with data := Function.update w.data key none }
  | .run index => (w.inflight[index]?).map (w.ran env index)

/-- No entry is computed from a state older than the last commit whose
invalidation had completed when the `get` began. -/
def Fresh (w : CacheWorld δ ρ) : Prop := ∀ hit ∈ w.hits, hit.since ≤ hit.asOf

/-- When a `set` reads the version, no writer that committed after the reader's
first read of the database has completed its invalidation. -/
def NotOvertaken (w : CacheWorld δ ρ) : CacheAction δ → Prop
  | .run index =>
      match w.inflight[index]? with
      | some (.setVersion _ entry) => w.settled ≤ entry.asOf
      | _ => True
  | _ => True

instance (w : CacheWorld δ ρ) (a : CacheAction δ) : Decidable (w.NotOvertaken a) := by
  unfold NotOvertaken
  split
  · split <;> infer_instance
  · infer_instance

/-- Nothing is cached and nobody is at work. -/
structure Initial (w : CacheWorld δ ρ) : Prop where
  settled : w.settledAt = fun _ => 0
  data : w.data = fun _ => none
  inflight : w.inflight = []
  hits : w.hits = []

/-! ## The invariant -/

variable {env : CalendarEnv δ ρ} {w w' : CacheWorld δ ρ} {index : Nat} {t : CacheTask δ ρ}

/-- A task under a version is bounded by the commits settled at that version. -/
def TaskFresh (w : CacheWorld δ ρ) : CacheTask δ ρ → Prop
  | .getData _ _ version since => version ≤ w.version ∧ since = w.settledAt version
  | .setData key entry => key.version ≤ w.version ∧ w.settledAt key.version ≤ entry.asOf
  | _ => True

structure Sound (w : CacheWorld δ ρ) : Prop where
  data : ∀ key entry, w.data key = some entry →
    key.version ≤ w.version ∧ w.settledAt key.version ≤ entry.asOf
  tasks : ∀ t ∈ w.inflight, w.TaskFresh t
  fresh : w.Fresh

/-- An empty cache is sound. -/
theorem Initial.sound (h : w.Initial) : w.Sound where
  data := by simp [h.data]
  tasks := by simp [h.inflight]
  fresh := by simp [Fresh, h.hits]

/-- Under a version that has been, the settled commits do not change. -/
theorem TaskFresh.bump (h : w.TaskFresh t)
    (same : ∀ v ≤ w.version, w'.settledAt v = w.settledAt v) (le : w.version ≤ w'.version) :
    w'.TaskFresh t := by
  cases t with
  | getData query activity version since =>
      obtain ⟨hle, hsince⟩ := h
      exact ⟨le_trans hle le, hsince.trans (same version hle).symm⟩
  | setData key entry =>
      obtain ⟨hle, hasOf⟩ := h
      exact ⟨le_trans hle le, (same _ hle).symm ▸ hasOf⟩
  | _ => trivial

/-- A command keeps the invariant when the tasks and the entries it leaves are
bounded, and no version that has been changes its settled commits. -/
theorem Sound.move (h : w.Sound) {w₁ : CacheWorld δ ρ} {next : Option (CacheTask δ ρ)}
    (same : ∀ v ≤ w.version, w₁.settledAt v = w.settledAt v) (le : w.version ≤ w₁.version)
    (data : ∀ key entry, w₁.data key = some entry → w.data key = some entry ∨
      key.version ≤ w₁.version ∧ w₁.settledAt key.version ≤ entry.asOf)
    (tasks : ∀ u ∈ next, w₁.TaskFresh u) (fresh : w₁.Fresh) :
    Sound { w₁ with inflight := w.inflight.eraseIdx index ++ next.toList } where
  data := fun key entry hentry => by
    rcases data key entry hentry with hold | hnew
    · obtain ⟨hle, hasOf⟩ := h.data key entry hold
      exact ⟨le_trans hle le, (same _ hle).symm ▸ hasOf⟩
    · exact hnew
  tasks := fun u hu => by
    rcases List.mem_append.mp hu with hu | hu
    · exact (h.tasks u (List.mem_of_mem_eraseIdx hu)).bump same le
    · exact tasks u (by simpa using hu)
  fresh := fresh

/-- A statement of a task keeps the cache sound, unless a set was overtaken. -/
theorem Sound.ran (h : w.Sound) (hg : w.NotOvertaken (.run index))
    (ht : w.inflight[index]? = some t) : (w.ran env index t).Sound := by
  have htask := h.tasks t (List.mem_of_getElem? ht)
  simp only [NotOvertaken, ht] at hg
  cases t with
  | getVersion query activity =>
      refine h.move (fun _ _ => rfl) le_rfl (fun _ _ he => Or.inl he) (fun u hu => ?_) h.fresh
      obtain rfl := Option.some.inj hu
      exact ⟨le_rfl, rfl⟩
  | getData query activity version since =>
      obtain ⟨hle, hsince⟩ := htask
      rw [CacheWorld.ran, exec]
      cases hdata : w.data ⟨version, query.month, query.unitNumber⟩ with
      | none =>
          refine h.move (fun _ _ => rfl) le_rfl (fun _ _ he => Or.inl he) (fun u hu => ?_) h.fresh
          obtain rfl := Option.some.inj hu
          trivial
      | some entry =>
          refine h.move (fun _ _ => rfl) le_rfl (fun _ _ he => Or.inl he) (by simp) ?_
          intro hit hhit
          rcases List.mem_append.mp hhit with hhit | hhit
          · exact h.fresh hit hhit
          · rw [List.mem_singleton.mp hhit, hsince]
            exact (h.data _ entry hdata).2
  | setVersion query entry =>
      -- the guard: the entry is not older than what is settled now
      refine h.move (fun _ _ => rfl) le_rfl (fun _ _ he => Or.inl he) (fun u hu => ?_) h.fresh
      obtain rfl := Option.some.inj hu
      exact ⟨le_rfl, hg⟩
  | setData key entry =>
      refine h.move (fun _ _ => rfl) le_rfl (fun key' entry' he => ?_)
        (by simp [exec]) h.fresh
      by_cases hkey : key' = key
      · subst hkey
        simp only [exec, Function.update_self, Option.some.injEq] at he
        obtain rfl := he
        exact Or.inr htask
      · simp only [exec, Function.update_of_ne hkey] at he
        exact Or.inl he
  | incr committed =>
      refine h.move (fun v hv => ?_) (Nat.le_succ _) (fun _ _ he => Or.inl he)
        (by simp [exec]) h.fresh
      have hne : v ≠ w.version + 1 := by lia
      simp only [exec, Function.update_of_ne hne]
  | readActivity query =>
      rw [CacheWorld.ran, exec]
      split
      · exact h.move (fun _ _ => rfl) le_rfl (fun _ _ he => Or.inl he) (by simp) h.fresh
      · split <;>
          exact h.move (fun _ _ => rfl) le_rfl (fun _ _ he => Or.inl he)
            (by simp [TaskFresh]) h.fresh
  | readSpecials query activity bookings blocks =>
      rw [CacheWorld.ran, exec]
      split
      · exact h.move (fun _ _ => rfl) le_rfl (fun _ _ he => Or.inl he)
          (by simp [TaskFresh]) h.fresh
      · exact h.move (fun _ _ => rfl) le_rfl (fun _ _ he => Or.inl he) (by simp) h.fresh
  | commit f =>
      refine h.move (fun _ _ => rfl) le_rfl (fun _ _ he => Or.inl he) (fun u hu => ?_) h.fresh
      simp only [exec, Option.mem_def, Option.ite_none_right_eq_some, Option.some.injEq] at hu
      obtain ⟨-, rfl⟩ := hu
      trivial
  | readBookings query activity =>
      exact h.move (fun _ _ => rfl) le_rfl (fun _ _ he => Or.inl he)
        (by simp [exec, TaskFresh]) h.fresh
  | readBlocks query activity bookings =>
      exact h.move (fun _ _ => rfl) le_rfl (fun _ _ he => Or.inl he)
        (by simp [exec, TaskFresh]) h.fresh

/-- A task that begins rests on nothing. -/
theorem Sound.begin (h : w.Sound) {new : CacheTask δ ρ} (fresh : w.TaskFresh new) :
    Sound { w with inflight := w.inflight ++ [new] } where
  data := h.data
  tasks := fun u hu => by
    have hu' : w.TaskFresh u := by
      rcases List.mem_append.mp hu with hu | hu
      · exact h.tasks u hu
      · rw [List.mem_singleton.mp hu]
        exact fresh
    exact hu'.bump (fun _ _ => rfl) le_rfl
  fresh := h.fresh

/-- **Every step keeps the cache sound**, unless a set was overtaken. -/
theorem Sound.step {a : CacheAction δ} (h : w.Sound) (hg : w.NotOvertaken a)
    (hstep : w.step env a = some w') : w'.Sound := by
  cases a with
  | get query =>
      obtain rfl := Option.some.inj hstep
      exact h.begin trivial
  | write f =>
      obtain rfl := Option.some.inj hstep
      exact h.begin trivial
  | expire key =>
      obtain rfl := Option.some.inj hstep
      refine ⟨fun key' entry he => ?_, fun u hu => ?_, h.fresh⟩
      · by_cases hkey : key' = key
        · subst hkey
          simp at he
        · simp only [Function.update_of_ne hkey] at he
          exact h.data key' entry he
      · exact (h.tasks u hu).bump (fun _ _ => rfl) le_rfl
  | run index =>
      obtain ⟨t, ht, rfl⟩ := Option.map_eq_some_iff.mp hstep
      exact h.ran hg ht

end CacheWorld

/-! ## The law -/

/-- **The cache serves nothing older than the last invalidation**, in every run
where no invalidation overtakes a reader between its first read of the database
and the version it stores under. -/
theorem availability_cache_fresh {δ : Type u} {ρ : Type v} (env : CalendarEnv δ ρ)
    {w w' : CacheWorld δ ρ} (initial : w.Initial)
    (run : Run (CacheWorld.step env) CacheWorld.NotOvertaken w w') : w'.Fresh :=
  (run.invariant CacheWorld.Sound (fun _ _ _ h hg hstep => h.step hg hstep)
    initial.sound).fresh

/-- The database is a number, and a calendar the number its reads saw. -/
def countingEnv : CalendarEnv Nat Nat where
  isActive := fun _ => true
  respond := fun _ _ _ bookings _ _ => bookings
  fits := fun _ => true

def emptyCache : CacheWorld Nat Nat where
  db := 0

theorem emptyCache_initial : emptyCache.Initial := ⟨rfl, rfl, rfl, rfl⟩

def january : CalendarQuery where
  month := "2026-01"
  unitNumber := none

/-- A reader fills the cache, another one hits it, a writer commits and
invalidates, and a third reader computes again. -/
def tidyRun : List (CacheAction Nat) :=
  [.get january] ++ List.replicate 8 (.run 0) ++ [.get january] ++ List.replicate 3 (.run 0) ++
    [.write (· + 1), .run 0, .run 0, .get january] ++ List.replicate 8 (.run 0) ++
    [.get january] ++ List.replicate 3 (.run 0)

/-- Two reads and a booking between them, each statement at its turn. -/
theorem availability_cache_fresh_tidy :
    ∃ w, Run (CacheWorld.step countingEnv) CacheWorld.NotOvertaken emptyCache w ∧
      w.hits = [⟨0, 0⟩, ⟨1, 1⟩] ∧ w.Fresh := by
  obtain ⟨w, run, h⟩ := @Run.of_execAll_test _ _ (CacheWorld.step countingEnv)
    CacheWorld.NotOvertaken _ tidyRun emptyCache (fun w => w.hits = [⟨0, 0⟩, ⟨1, 1⟩])
    (by decide +kernel)
  exact ⟨w, run, of_decide_eq_true h, availability_cache_fresh countingEnv emptyCache_initial run⟩

/-- A reader has computed its calendar when a writer commits and invalidates; it
stores the calendar under the new version, and the next reader gets it. -/
def overtakenRun : List (CacheAction Nat) :=
  [.get january] ++ List.replicate 6 (.run 0) ++ [.write (· + 1), .run 1, .run 1, .run 0, .run 0,
    .get january, .run 0, .run 0, .run 0]

/-- A slow reader stores what it read before a booking, under the version of after it. -/
theorem overtaken_reader_stale :
    emptyCache.Initial ∧
      ∃ w, Run (CacheWorld.step countingEnv) (fun _ _ => True) emptyCache w ∧ ¬ w.Fresh := by
  refine ⟨emptyCache_initial, ?_⟩
  obtain ⟨w, run, h⟩ := @Run.of_execAll_test _ _ (CacheWorld.step countingEnv)
    (fun _ _ => True) _ overtakenRun emptyCache (fun w => w.hits = [⟨1, 0⟩]) (by decide +kernel)
  refine ⟨w, run, fun hfresh => ?_⟩
  have hle := hfresh ⟨1, 0⟩ (by rw [of_decide_eq_true h]; exact List.mem_singleton_self _)
  exact absurd hle (by decide)

end Jadwal
