import Jadwal.Lib.Expiring
import Jadwal.Lib.Run
import Mathlib

/-!
# Daily budgets of mail

`tryConsumePerIp` and `tryConsumePlatformDaily` count with INCR and, on the first count, send
EXPIRE: two commands, and the process may die or lose Redis between them.  A counter that expires
starts a new life with the next count; one whose EXPIRE was never carried out has no end.  What is
asked: how many calls a key admits in a day (`admitted_in_day_bounded`), what becomes of a counter
without an end (`stuck_budget_is_final`), and which runs have none (`reliable_budget_rolls_over`).
-/

namespace Jadwal

variable {κ : Type} [DecidableEq κ]

structure BudgetCounter where
  count : Nat
  /-- From EXPIRE on. -/
  expiresAt : Option Nat
  /-- Which life of the key it is, for the statements. -/
  life : Nat
  startedAt : Nat
  deriving DecidableEq, Repr

def BudgetCounter.Over (now : Nat) (c : BudgetCounter) : Prop := ∃ e ∈ c.expiresAt, e ≤ now

instance (now : Nat) (c : BudgetCounter) : Decidable (c.Over now) :=
  inferInstanceAs (Decidable (∃ e ∈ c.expiresAt, e ≤ now))

/-- A call that was admitted by its count, which is `number`; `countedAt` is when INCR was carried
out. -/
structure BudgetAdmission (κ : Type) where
  key : κ
  life : Nat
  number : Nat
  countedAt : Nat
  deriving DecidableEq, Repr

structure BudgetWorld (κ : Type) where
  now : Nat
  counters : κ → Option BudgetCounter
  /-- The calls that have counted to one, before their EXPIRE. -/
  expiring : List (BudgetAdmission κ) := []
  admitted : List (BudgetAdmission κ) := []
  refused : List (κ × Nat) := []

inductive BudgetAction (κ : Type)
  | wait (ms : Nat)
  /-- A call sends INCR; without an answer it goes on as if it were admitted. -/
  | count (key : κ) (reply : StoreReply)
  /-- The call sends EXPIRE, and answers. -/
  | expire (i : Nat) (reply : StoreReply)
  /-- The process of the call dies. -/
  | die (i : Nat)
  deriving DecidableEq, Repr

namespace BudgetWorld

def budgetWindow : Nat := 24 * 60 * 60 * 1000

/-- The counter INCR leaves. -/
def incremented (s : BudgetWorld κ) (key : κ) : BudgetCounter :=
  match s.counters key with
  | none => ⟨1, none, 0, s.now⟩
  | some c =>
      if c.Over s.now then ⟨1, none, c.life + 1, s.now⟩ else { c with count := c.count + 1 }

def incr (s : BudgetWorld κ) (key : κ) : BudgetWorld κ :=
  { s with counters := Function.update s.counters key (some (s.incremented key)) }

/-- EXPIRE, on a counter that is there. -/
def setExpiry (s : BudgetWorld κ) (key : κ) : BudgetWorld κ :=
  { s with
    counters := Function.update s.counters key ((s.counters key).map (fun c =>
      if c.Over s.now then c else { c with expiresAt := some (s.now + budgetWindow) })) }

/-- `tryConsume…`, with a limit that is positive. -/
def step (limit : κ → Nat) (s : BudgetWorld κ) : BudgetAction κ → Option (BudgetWorld κ)
  | .wait ms => some { s with now := s.now + ms }
  | .count _ .unreachable => some s
  | .count key .lost => some (s.incr key)
  | .count key .answered =>
      let c := s.incremented key
      let call : BudgetAdmission κ := ⟨key, c.life, c.count, s.now⟩
      if c.count = 1 then some { s.incr key with expiring := s.expiring ++ [call] }
      else if c.count ≤ limit key then some { s.incr key with admitted := call :: s.admitted }
      else some { s.incr key with refused := (key, s.now) :: s.refused }
  | .expire i .unreachable =>
      (s.expiring[i]?).map fun _ => { s with expiring := s.expiring.eraseIdx i }
  | .expire i .lost =>
      (s.expiring[i]?).map fun call =>
        { s.setExpiry call.key with expiring := s.expiring.eraseIdx i }
  | .expire i .answered =>
      (s.expiring[i]?).map fun call =>
        { s.setExpiry call.key with
          expiring := s.expiring.eraseIdx i
          admitted := call :: s.admitted }
  | .die i => (s.expiring[i]?).map fun _ => { s with expiring := s.expiring.eraseIdx i }

/-- No key has a counter yet. -/
structure Initial (s : BudgetWorld κ) : Prop where
  counters : ∀ key, s.counters key = none
  expiring : s.expiring = []
  admitted : s.admitted = []

variable {limit : κ → Nat} {s s' s₀ : BudgetWorld κ} {key : κ}

/-- The calls of a key that were admitted, or are about to be. -/
def callsOf (s : BudgetWorld κ) (key : κ) : List (BudgetAdmission κ) :=
  (s.expiring ++ s.admitted).filter (fun a => a.key = key)

/-- The admitted calls of a key that were counted from `x` on and before `y`. -/
def admittedIn (s : BudgetWorld κ) (key : κ) (x y : Nat) : Nat :=
  s.admitted.countP (fun a => a.key = key ∧ x ≤ a.countedAt ∧ a.countedAt < y)

/-- What the lives of a key admitted, and when: `calls` are those of the key. -/
structure Budgeted (limit now : Nat) (counter : Option BudgetCounter)
    (calls : List (BudgetAdmission κ)) : Prop where
  bound : ∀ life, calls.countP (fun a => a.life = life) ≤ limit
  later : ∀ life, calls.countP (fun a => a.life = life ∧ a.number ≠ 1) ≤ limit - 1
  apart : ∀ a ∈ calls, ∀ b ∈ calls, a.life + 1 < b.life ∨ a.life < b.life ∧ a.number = 1 →
    a.countedAt + budgetWindow ≤ b.countedAt
  past : ∀ a ∈ calls, a.countedAt ≤ now
  fresh : counter = none → calls = []
  current : ∀ c ∈ counter, calls.countP (fun a => a.life = c.life) ≤ c.count ∧
    calls.countP (fun a => a.life = c.life ∧ a.number ≠ 1) ≤ c.count - 1
  known : ∀ c ∈ counter, ∀ a ∈ calls, a.life ≤ c.life ∧
    (a.life < c.life ∨ a.number = 1 → a.countedAt ≤ c.startedAt) ∧
    (a.life + 1 < c.life ∨ a.life < c.life ∧ a.number = 1 →
      a.countedAt + budgetWindow ≤ c.startedAt)
  ends : ∀ c ∈ counter, c.startedAt ≤ now ∧ ∀ e ∈ c.expiresAt, c.startedAt + budgetWindow ≤ e

section

omit [DecidableEq κ]

variable {limit now now' : Nat} {counter : Option BudgetCounter} {c : BudgetCounter}
  {calls calls' : List (BudgetAdmission κ)} {call : BudgetAdmission κ}

theorem Budgeted.mono (h : Budgeted limit now counter calls) (hsub : calls'.Subperm calls) :
    Budgeted limit now counter calls' where
  bound life := (hsub.countP_le _).trans (h.bound life)
  later life := (hsub.countP_le _).trans (h.later life)
  apart a ha b hb := h.apart a (hsub.subset ha) b (hsub.subset hb)
  past a ha := h.past a (hsub.subset ha)
  fresh hnone := by
    rw [h.fresh hnone] at hsub
    exact List.subperm_nil.mp hsub
  current c hc := ⟨(hsub.countP_le _).trans (h.current c hc).1,
    (hsub.countP_le _).trans (h.current c hc).2⟩
  known c hc a ha := h.known c hc a (hsub.subset ha)
  ends := h.ends

theorem Budgeted.wait (h : Budgeted limit now counter calls) (hle : now ≤ now') :
    Budgeted limit now' counter calls where
  bound := h.bound
  later := h.later
  apart := h.apart
  past a ha := (h.past a ha).trans hle
  fresh := h.fresh
  current := h.current
  known := h.known
  ends c hc := ⟨(h.ends c hc).1.trans hle, (h.ends c hc).2⟩

/-- EXPIRE, in the life it was sent for. -/
theorem Budgeted.expire (h : Budgeted limit now (some c) calls) :
    Budgeted limit now (some { c with expiresAt := some (now + budgetWindow) }) calls where
  bound := h.bound
  later := h.later
  apart := h.apart
  past := h.past
  fresh hnone := by cases hnone
  current c' hc' := by
    obtain rfl := Option.some.inj hc'
    exact h.current c rfl
  known c' hc' := by
    obtain rfl := Option.some.inj hc'
    exact h.known c rfl
  ends c' hc' := by
    obtain rfl := Option.some.inj hc'
    obtain ⟨hstart, _⟩ := h.ends c rfl
    refine ⟨hstart, ?_⟩
    intro e he
    obtain rfl := Option.some.inj he
    exact Nat.add_le_add_right hstart _

/-- A count goes up in the life it has. -/
theorem Budgeted.grow (h : Budgeted limit now (some c) calls) :
    Budgeted limit now (some { c with count := c.count + 1 }) calls where
  bound := h.bound
  later := h.later
  apart := h.apart
  past := h.past
  fresh hnone := by cases hnone
  current c' hc' := by
    obtain rfl := Option.some.inj hc'
    obtain ⟨hall, hlater⟩ := h.current c rfl
    exact ⟨hall.trans (Nat.le_succ _), hlater.trans (Nat.sub_le_sub_right (Nat.le_succ _) 1)⟩
  known c' hc' := by
    obtain rfl := Option.some.inj hc'
    exact h.known c rfl
  ends c' hc' := by
    obtain rfl := Option.some.inj hc'
    exact h.ends c rfl

/-- A new life begins, a day after the one before at least. -/
theorem Budgeted.restart (h : Budgeted limit now (some c) calls) (hover : c.Over now) :
    Budgeted limit now (some ⟨1, none, c.life + 1, now⟩) calls ∧
      ∀ a ∈ calls, a.life ≠ c.life + 1 := by
  obtain ⟨e, he, hle⟩ := hover
  have hnone : ∀ a ∈ calls, a.life ≠ c.life + 1 := by
    intro a ha hlife
    have hknown := (h.known c rfl a ha).1
    omega
  refine ⟨⟨h.bound, h.later, h.apart, h.past, ?_, ?_, ?_, ?_⟩, hnone⟩
  · intro hnone
    cases hnone
  · intro c' hc'
    obtain rfl := Option.some.inj hc'
    have hzero : calls.countP (fun a => a.life = c.life + 1) = 0 := by
      rw [List.countP_eq_zero]
      intro a ha
      simpa using hnone a ha
    have hzero' : calls.countP (fun a => a.life = c.life + 1 ∧ a.number ≠ 1) = 0 := by
      rw [List.countP_eq_zero]
      intro a ha
      simp [hnone a ha]
    exact ⟨hzero.le.trans (Nat.zero_le _), hzero'.le⟩
  · intro c' hc' a ha
    obtain rfl := Option.some.inj hc'
    obtain ⟨hlife, hbefore, _⟩ := h.known c rfl a ha
    have hend := (h.ends c rfl).2 e he
    refine ⟨hlife.trans (Nat.le_succ _), fun _ => h.past a ha, ?_⟩
    intro hearlier
    have hat := hbefore (by simp only at hearlier; omega)
    simp only
    omega
  · intro c' hc'
    obtain rfl := Option.some.inj hc'
    refine ⟨le_rfl, ?_⟩
    intro e he
    cases he

/-- The first life. -/
theorem Budgeted.start (h : Budgeted limit now none calls) :
    Budgeted limit now (some ⟨1, none, 0, now⟩) calls ∧ calls = [] := by
  obtain rfl := h.fresh rfl
  refine ⟨⟨h.bound, h.later, h.apart, h.past, ?_, ?_, ?_, ?_⟩, rfl⟩
  · intro hnone
    cases hnone
  · intro c' hc'
    exact ⟨Nat.zero_le _, Nat.zero_le _⟩
  · intro c' hc' a ha
    cases ha
  · intro c' hc'
    obtain rfl := Option.some.inj hc'
    refine ⟨le_rfl, ?_⟩
    intro e he
    cases he

/-- A call is counted, within the limit. -/
theorem Budgeted.admit (h : Budgeted limit now (some c) calls) (hlife : call.life = c.life)
    (hnumber : call.number = c.count) (hat : call.countedAt = now)
    (hall : calls.countP (fun a => a.life = c.life) < c.count)
    (hlater : call.number ≠ 1 →
      calls.countP (fun a => a.life = c.life ∧ a.number ≠ 1) < c.count - 1)
    (hfirst : call.number = 1 → call.countedAt ≤ c.startedAt)
    (hlimit : c.count ≤ limit) : Budgeted limit now (some c) (call :: calls) where
  bound life := by
    rw [List.countP_cons]
    by_cases heq : call.life = life
    · subst heq
      rw [hlife]
      simp
      omega
    · simpa [heq] using h.bound life
  later life := by
    rw [List.countP_cons]
    by_cases heq : call.life = life ∧ call.number ≠ 1
    · obtain ⟨rfl, hne⟩ := heq
      have hroom := hlater hne
      rw [hlife]
      simp only [hne, ne_eq, not_false_eq_true, and_self, decide_true, if_true] at hroom ⊢
      omega
    · rw [if_neg (by simpa using heq)]
      exact h.later life
  apart a ha b hb hlt := by
    obtain ⟨hstart, _⟩ := h.ends c rfl
    rcases List.mem_cons.mp hb with rfl | hold
    · rcases List.mem_cons.mp ha with rfl | hold
      · omega
      · have hbefore := (h.known c rfl a hold).2.2 (hlife ▸ hlt)
        omega
    · rcases List.mem_cons.mp ha with rfl | hold'
      · have hknown := (h.known c rfl b hold).1
        omega
      · exact h.apart a hold' b hold hlt
  past a ha := by
    rcases List.mem_cons.mp ha with rfl | ha
    · exact hat.le
    · exact h.past a ha
  fresh hnone := by cases hnone
  current c' hc' := by
    obtain rfl := Option.some.inj hc'
    obtain ⟨_, hold⟩ := h.current c rfl
    rw [List.countP_cons, List.countP_cons]
    refine ⟨?_, ?_⟩
    · simp [hlife]
      omega
    · by_cases hne : call.number = 1
      · simpa [hne] using hold
      · have hroom := hlater hne
        simp only [hlife, hne, ne_eq, not_false_eq_true, and_self, decide_true, if_true] at hroom ⊢
        omega
  known c' hc' a ha := by
    obtain rfl := Option.some.inj hc'
    rcases List.mem_cons.mp ha with rfl | ha
    · refine ⟨hlife.le, ?_, ?_⟩
      · intro hearlier
        rcases hearlier with hlt | hone
        · omega
        · exact hfirst hone
      · omega
    · exact h.known c rfl a ha
  ends := h.ends

theorem countP_or_le {α : Type} (p q : α → Bool) (l : List α) :
    l.countP (fun a => p a || q a) ≤ l.countP p + l.countP q := by
  induction l with
  | nil => exact Nat.zero_le _
  | cons a l ih =>
      rw [List.countP_cons, List.countP_cons, List.countP_cons]
      cases p a with
      | true => simp; omega
      | false => simp; omega

/-- Two lives in a row are all that a day can meet, and of the earlier one not the first call. -/
theorem Budgeted.day (h : Budgeted limit now counter calls) (x : Nat) :
    calls.countP (fun a => x ≤ a.countedAt ∧ a.countedAt < x + budgetWindow) ≤ 2 * limit - 1 := by
  by_cases hnone : ∀ a ∈ calls, ¬ (x ≤ a.countedAt ∧ a.countedAt < x + budgetWindow)
  · rw [List.countP_eq_zero.mpr (fun a ha => by simpa using hnone a ha)]
    exact Nat.zero_le _
  · -- the first life that admits a call within the day, and the one after it
    have hsome : ∃ life, ∃ a ∈ calls, a.life = life ∧ x ≤ a.countedAt ∧
        a.countedAt < x + budgetWindow := by
      by_contra hno
      exact hnone fun a ha hin => hno ⟨a.life, a, ha, rfl, hin⟩
    classical
    obtain ⟨a, ha, hlife, hin⟩ := Nat.find_spec hsome
    have hfirst : ∀ b ∈ calls, x ≤ b.countedAt ∧ b.countedAt < x + budgetWindow →
        b.life = a.life ∨ b.life = a.life + 1 := by
      intro b hb hbin
      have hle : a.life ≤ b.life := by
        rw [hlife]
        exact Nat.find_min' hsome ⟨b, hb, rfl, hbin⟩
      by_contra hne
      have hapart := h.apart a ha b hb (.inl (by omega))
      omega
    have hlimit : 0 < limit := by
      have hpos : 0 < calls.countP (fun b => b.life = a.life) :=
        List.countP_pos_iff.mpr ⟨a, ha, by simp⟩
      exact hpos.trans_le (h.bound a.life)
    by_cases hnext : ∃ b ∈ calls, b.life = a.life + 1 ∧ x ≤ b.countedAt ∧
        b.countedAt < x + budgetWindow
    · obtain ⟨b, hb, hblife, hbin⟩ := hnext
      calc calls.countP (fun a => x ≤ a.countedAt ∧ a.countedAt < x + budgetWindow)
          ≤ calls.countP (fun b => decide (b.life = a.life ∧ b.number ≠ 1) ||
              decide (b.life = a.life + 1)) := by
            apply List.countP_mono_left
            intro d hd hdin
            rw [decide_eq_true_eq] at hdin
            rcases hfirst d hd hdin with hsame | hsame
            · have hlate : d.number ≠ 1 := by
                intro hone
                have hapart := h.apart d hd b hb (.inr ⟨by omega, hone⟩)
                omega
              simp [hsame, hlate]
            · simp [hsame]
        _ ≤ calls.countP (fun b => b.life = a.life ∧ b.number ≠ 1) +
              calls.countP (fun b => b.life = a.life + 1) := countP_or_le _ _ _
        _ ≤ 2 * limit - 1 := by
            have hlater := h.later a.life
            have hbound := h.bound (a.life + 1)
            omega
    · calc calls.countP (fun a => x ≤ a.countedAt ∧ a.countedAt < x + budgetWindow)
          ≤ calls.countP (fun b => b.life = a.life) := by
            apply List.countP_mono_left
            intro d hd hdin
            rw [decide_eq_true_eq] at hdin
            rcases hfirst d hd hdin with hsame | hsame
            · simp [hsame]
            · exact absurd ⟨d, hd, hsame, hdin⟩ hnext
        _ ≤ 2 * limit - 1 := by
            have hbound := h.bound a.life
            omega

end

/-! ## Every run -/

/-- The invariant of a key: a call that is to send EXPIRE is of the present life, which has no end
yet, and is the only one. -/
structure Sound (limit : κ → Nat) (key : κ) (s : BudgetWorld κ) : Prop where
  budgeted : Budgeted (limit key) s.now (s.counters key) (s.callsOf key)
  pending : ∀ a ∈ s.expiring, a.key = key →
    ∃ c, s.counters key = some c ∧ c.expiresAt = none ∧ a.life = c.life
  one : (s.expiring.filter (fun a => a.key = key)).length ≤ 1
  positive : ∀ c ∈ s.counters key, 0 < c.count

theorem Initial.sound (h : s.Initial) (limit : κ → Nat) (key : κ) : s.Sound limit key := by
  have hcalls : s.callsOf key = [] := by
    rw [callsOf, h.expiring, h.admitted]
    rfl
  refine ⟨?_, ?_, ?_, ?_⟩
  · rw [hcalls, h.counters key]
    refine ⟨fun _ => Nat.zero_le _, fun _ => Nat.zero_le _, ?_, ?_, fun _ => rfl, ?_, ?_, ?_⟩
    · intro a ha
      cases ha
    · intro a ha
      cases ha
    · intro c hc
      cases hc
    · intro c hc
      cases hc
    · intro c hc
      cases hc
  · intro a ha
    rw [h.expiring] at ha
    cases ha
  · rw [h.expiring]
    exact Nat.zero_le _
  · intro c hc
    rw [h.counters key] at hc
    cases hc

/-- INCR on the key: the calls before it fit the counter it leaves, with room for one. -/
structure Room (limit : κ → Nat) (key : κ) (s : BudgetWorld κ) (c : BudgetCounter) : Prop where
  budgeted : Budgeted (limit key) s.now (some c) (s.callsOf key)
  all : (s.callsOf key).countP (fun a => a.life = c.life) < c.count
  later : c.count ≠ 1 →
    (s.callsOf key).countP (fun a => a.life = c.life ∧ a.number ≠ 1) < c.count - 1
  first : c.count = 1 → s.expiring.filter (fun a => a.key = key) = [] ∧ c.expiresAt = none ∧
    s.now ≤ c.startedAt
  pending : ∀ a ∈ s.expiring, a.key = key → c.expiresAt = none ∧ a.life = c.life

theorem Sound.room (h : s.Sound limit key) : s.Room limit key (s.incremented key) := by
  have hbudgeted := h.budgeted
  have hnone : (∀ a ∈ s.expiring, a.key ≠ key) →
      s.expiring.filter (fun a => a.key = key) = [] := by
    intro hne
    rw [List.filter_eq_nil_iff]
    intro a ha
    simpa using hne a ha
  unfold incremented
  cases hc : s.counters key with
  | none =>
      rw [hc] at hbudgeted
      obtain ⟨hstart, hempty⟩ := hbudgeted.start
      have hidle : ∀ a ∈ s.expiring, a.key ≠ key := by
        intro a ha hkey
        obtain ⟨c, hsome, _⟩ := h.pending a ha hkey
        rw [hc] at hsome
        cases hsome
      refine ⟨hstart, ?_, fun hne => absurd rfl hne, fun _ => ⟨hnone hidle, rfl, le_rfl⟩,
        fun a ha hkey => absurd hkey (hidle a ha)⟩
      rw [hempty]
      exact Nat.one_pos
  | some c =>
      rw [hc] at hbudgeted
      simp only
      split
      case isTrue hover =>
        obtain ⟨hstart, hother⟩ := hbudgeted.restart hover
        have hidle : ∀ a ∈ s.expiring, a.key ≠ key := by
          intro a ha hkey
          obtain ⟨c', hsome, hend, _⟩ := h.pending a ha hkey
          obtain rfl := Option.some.inj (hc.symm.trans hsome)
          obtain ⟨e, he, _⟩ := hover
          rw [hend] at he
          cases he
        refine ⟨hstart, ?_, fun hne => absurd rfl hne, fun _ => ⟨hnone hidle, rfl, le_rfl⟩,
          fun a ha hkey => absurd hkey (hidle a ha)⟩
        rw [List.countP_eq_zero.mpr (fun a ha => by simpa using hother a ha)]
        exact Nat.one_pos
      case isFalse hover =>
        have hpos := h.positive c hc
        obtain ⟨hall, hlater⟩ := hbudgeted.current c rfl
        refine ⟨hbudgeted.grow, Nat.lt_succ_of_le hall, ?_, ?_, ?_⟩
        · intro _
          exact hlater.trans_lt (Nat.sub_lt_sub_right hpos (Nat.lt_succ_self _))
        · intro hone
          simp only at hone
          omega
        · intro a ha hkey
          obtain ⟨c', hsome, hend, hlife⟩ := h.pending a ha hkey
          obtain rfl := Option.some.inj (hc.symm.trans hsome)
          exact ⟨hend, hlife⟩

/-- A step that leaves the counter of the key, and adds no call to it. -/
theorem Sound.of_same (h : s.Sound limit key) (hnow : s.now ≤ s'.now)
    (hcounter : s'.counters key = s.counters key)
    (hcalls : (s'.callsOf key).Subperm (s.callsOf key))
    (hexpiring : (s'.expiring.filter (fun a => a.key = key)).Sublist
      (s.expiring.filter (fun a => a.key = key))) : s'.Sound limit key where
  budgeted := by
    rw [hcounter]
    exact (h.budgeted.mono hcalls).wait hnow
  pending a ha hkey := by
    rw [hcounter]
    have hmem : a ∈ s'.expiring.filter (fun a => a.key = key) :=
      List.mem_filter.mpr ⟨ha, decide_eq_true hkey⟩
    exact h.pending a (List.mem_filter.mp (hexpiring.subset hmem)).1 hkey
  one := hexpiring.length_le.trans h.one
  positive := by
    rw [hcounter]
    exact h.positive

theorem incr_counters_self (s : BudgetWorld κ) (key : κ) :
    (s.incr key).counters key = some (s.incremented key) := Function.update_self ..

theorem incr_counters_of_ne {key' : κ} (s : BudgetWorld κ) (h : key ≠ key') :
    (s.incr key').counters key = s.counters key := Function.update_of_ne h ..

omit [DecidableEq κ] in
theorem incremented_pos (s : BudgetWorld κ) (key : κ) : 0 < (s.incremented key).count := by
  unfold incremented
  split
  · exact Nat.one_pos
  · split
    · exact Nat.one_pos
    · exact Nat.succ_pos _

/-- INCR without a new call: an answer that is lost, or a refusal. -/
theorem Sound.incr (h : s.Sound limit key) (key' : κ)
    (hcounters : s'.counters = (s.incr key').counters) (hnow : s'.now = s.now)
    (hexpiring : s'.expiring = s.expiring) (hadmitted : s'.admitted = s.admitted) :
    s'.Sound limit key := by
  have hcalls : s'.callsOf key = s.callsOf key := by
    rw [callsOf, callsOf, hexpiring, hadmitted]
  by_cases hkey : key = key'
  · subst hkey
    have hroom := h.room
    refine ⟨?_, ?_, ?_, ?_⟩
    · rw [hcounters, incr_counters_self, hcalls, hnow]
      exact hroom.budgeted
    · intro a ha hkey
      rw [hexpiring] at ha
      rw [hcounters, incr_counters_self]
      exact ⟨_, rfl, (hroom.pending a ha hkey).1, (hroom.pending a ha hkey).2⟩
    · rw [hexpiring]
      exact h.one
    · intro c hc
      rw [hcounters, incr_counters_self, Option.mem_def, Option.some.injEq] at hc
      rw [← hc]
      exact incremented_pos s key
  · apply h.of_same hnow.ge
    · rw [hcounters, incr_counters_of_ne s hkey]
    · rw [hcalls]
    · rw [hexpiring]

/-- INCR with a call that is admitted, at once or after EXPIRE. -/
theorem Sound.admit (h : s.Sound limit key) (key' : κ)
    (hlimit : key = key' → (s.incremented key').count ≤ limit key)
    (hcounters : s'.counters = (s.incr key').counters) (hnow : s'.now = s.now)
    (hcalls : (s'.expiring ++ s'.admitted).Perm
      (⟨key', (s.incremented key').life, (s.incremented key').count, s.now⟩ ::
        (s.expiring ++ s.admitted)))
    (hexpiring : s'.expiring = s.expiring ∨ ((s.incremented key').count = 1 ∧
      s'.expiring = s.expiring ++
        [⟨key', (s.incremented key').life, (s.incremented key').count, s.now⟩])) :
    s'.Sound limit key := by
  have hperm := hcalls.filter (fun a => a.key = key)
  by_cases hkey : key = key'
  · subst hkey
    have hroom := h.room
    rw [List.filter_cons_of_pos (by simp)] at hperm
    have hcount : Budgeted (limit key) s.now (some (s.incremented key))
        (⟨key, (s.incremented key).life, (s.incremented key).count, s.now⟩ :: s.callsOf key) :=
      hroom.budgeted.admit rfl rfl rfl hroom.all hroom.later (fun hone => (hroom.first hone).2.2)
        (hlimit rfl)
    refine ⟨?_, ?_, ?_, ?_⟩
    · rw [hcounters, incr_counters_self, hnow]
      exact hcount.mono hperm.subperm
    · intro a ha hkey
      rw [hcounters, incr_counters_self]
      rcases hexpiring with hexpiring | ⟨hone, hexpiring⟩
      · rw [hexpiring] at ha
        exact ⟨_, rfl, (hroom.pending a ha hkey).1, (hroom.pending a ha hkey).2⟩
      · rw [hexpiring, List.mem_append, List.mem_singleton] at ha
        rcases ha with ha | rfl
        · exact ⟨_, rfl, (hroom.pending a ha hkey).1, (hroom.pending a ha hkey).2⟩
        · exact ⟨_, rfl, (hroom.first hone).2.1, rfl⟩
    · rcases hexpiring with hexpiring | ⟨hone, hexpiring⟩
      · rw [hexpiring]
        exact h.one
      · rw [hexpiring, List.filter_append, (hroom.first hone).1]
        simp
    · intro c hc
      rw [hcounters, incr_counters_self, Option.mem_def, Option.some.injEq] at hc
      rw [← hc]
      exact incremented_pos s key
  · rw [List.filter_cons_of_neg (by simpa using fun heq => hkey heq.symm)] at hperm
    apply h.of_same hnow.ge
    · rw [hcounters, incr_counters_of_ne s hkey]
    · exact hperm.subperm
    · rcases hexpiring with hexpiring | ⟨_, hexpiring⟩
      · rw [hexpiring]
      · rw [hexpiring, List.filter_append,
          List.filter_cons_of_neg (by simpa using fun heq => hkey heq.symm)]
        simp

/-- A call is through with EXPIRE, or gives it up. -/
theorem Sound.settle (h : s.Sound limit key) {i : Nat} {call : BudgetAdmission κ}
    (hi : s.expiring[i]? = some call) (hnow : s'.now = s.now)
    (hcounters : s'.counters = s.counters ∨ s'.counters = (s.setExpiry call.key).counters)
    (hexpiring : s'.expiring = s.expiring.eraseIdx i)
    (hadmitted : s'.admitted = s.admitted ∨ s'.admitted = call :: s.admitted) :
    s'.Sound limit key := by
  have hperm := perm_eraseIdx hi
  have hsub : (s'.callsOf key).Subperm (s.callsOf key) := by
    apply List.Subperm.filter
    rw [hexpiring]
    rcases hadmitted with hadmitted | hadmitted
    · rw [hadmitted]
      exact ((List.eraseIdx_sublist _ _).append_right _).subperm
    · rw [hadmitted]
      exact (List.perm_middle.trans (hperm.append_right _).symm).subperm
  have hleft : (s'.expiring.filter (fun a => a.key = key)).Sublist
      (s.expiring.filter (fun a => a.key = key)) := by
    rw [hexpiring]
    exact (List.eraseIdx_sublist _ _).filter _
  by_cases hkey : call.key = key
  · rcases hcounters with hcounters | hcounters
    · exact h.of_same hnow.ge (by rw [hcounters]) hsub hleft
    · obtain ⟨c, hc, hend, _⟩ := h.pending call (List.mem_of_getElem? hi) hkey
      have hover : ¬ c.Over s.now := by
        intro hover
        obtain ⟨e, he, _⟩ := hover
        rw [hend] at he
        cases he
      have hset : s'.counters key =
          some { c with expiresAt := some (s.now + budgetWindow) } := by
        rw [hcounters, setExpiry, hkey]
        simp [hc, hover]
      have hnone : ∀ a ∈ s'.expiring, a.key ≠ key := by
        have hlen := (hperm.filter (fun a => a.key = key)).length_eq
        rw [List.filter_cons_of_pos (by simpa using hkey), List.length_cons] at hlen
        have hone := h.one
        have hempty : (s.expiring.eraseIdx i).filter (fun a => a.key = key) = [] :=
          List.length_eq_zero_iff.mp (by omega)
        rw [hexpiring]
        intro a ha
        simpa using List.filter_eq_nil_iff.mp hempty a ha
      have hbudgeted := h.budgeted
      rw [hc] at hbudgeted
      refine ⟨?_, ?_, hleft.length_le.trans h.one, ?_⟩
      · rw [hset, hnow]
        exact (hbudgeted.mono hsub).expire
      · intro a ha hkey
        exact absurd hkey (hnone a ha)
      · intro c' hc'
        rw [hset, Option.mem_def, Option.some.injEq] at hc'
        rw [← hc']
        exact h.positive c hc
  · have hsame : s'.counters key = s.counters key := by
      rcases hcounters with hcounters | hcounters
      · rw [hcounters]
      · rw [hcounters, setExpiry]
        exact Function.update_of_ne (fun heq => hkey heq.symm) ..
    exact h.of_same hnow.ge hsame hsub hleft

theorem Sound.step (h : s.Sound limit key) (hpos : 0 < limit key) {a : BudgetAction κ}
    (hstep : step limit s a = some s') : s'.Sound limit key := by
  cases a with
  | wait ms =>
      obtain rfl := Option.some.inj hstep
      exact h.of_same (Nat.le_add_right _ _) rfl (.refl _) (.refl _)
  | count key' reply =>
      cases reply with
      | unreachable =>
          obtain rfl := Option.some.inj hstep
          exact h
      | lost =>
          obtain rfl := Option.some.inj hstep
          exact h.incr key' rfl rfl rfl rfl
      | answered =>
          simp only [BudgetWorld.step] at hstep
          split at hstep
          case isTrue hone =>
            obtain rfl := Option.some.inj hstep
            refine h.admit key' ?_ rfl rfl ?_ (.inr ⟨hone, rfl⟩)
            · intro hkey
              rw [hone]
              exact hpos
            · simp only [List.append_assoc, List.singleton_append]
              exact List.perm_middle
          case isFalse =>
            split at hstep
            case isTrue hle =>
              obtain rfl := Option.some.inj hstep
              refine h.admit key' ?_ rfl rfl List.perm_middle (.inl rfl)
              intro hkey
              rw [hkey]
              exact hle
            case isFalse =>
              obtain rfl := Option.some.inj hstep
              exact h.incr key' rfl rfl rfl rfl
  | expire i reply =>
      cases reply with
      | unreachable =>
          obtain ⟨call, hi, rfl⟩ := Option.map_eq_some_iff.mp hstep
          exact h.settle hi rfl (.inl rfl) rfl (.inl rfl)
      | lost =>
          obtain ⟨call, hi, rfl⟩ := Option.map_eq_some_iff.mp hstep
          exact h.settle hi rfl (.inr rfl) rfl (.inl rfl)
      | answered =>
          obtain ⟨call, hi, rfl⟩ := Option.map_eq_some_iff.mp hstep
          exact h.settle hi rfl (.inr rfl) rfl (.inr rfl)
  | die i =>
      obtain ⟨call, hi, rfl⟩ := Option.map_eq_some_iff.mp hstep
      exact h.settle hi rfl (.inl rfl) rfl (.inl rfl)

/-- **Less than twice the limit in a day**: of the calls a key admits by their count, in any order
of calls, with any commands and answers lost and any processes dying, at most `2 * limit - 1` were
counted within a day. -/
theorem admitted_in_day_bounded (run : Run (step limit) (fun _ _ => True) s₀ s)
    (hinit : s₀.Initial) (hpos : 0 < limit key) (x : Nat) :
    s.admittedIn key x (x + budgetWindow) ≤ 2 * limit key - 1 := by
  have hsound : s.Sound limit key :=
    run.invariant (Sound limit key) (fun _ _ _ hs _ hfire => hs.step hpos hfire)
      (hinit.sound limit key)
  calc s.admittedIn key x (x + budgetWindow)
      = (s.admitted.filter (fun a => a.key = key)).countP
          (fun a => x ≤ a.countedAt ∧ a.countedAt < x + budgetWindow) := by
        rw [List.countP_filter, admittedIn]
        apply List.countP_congr
        intro a _
        simp only [decide_eq_true_eq, Bool.and_eq_true]
        tauto
    _ ≤ (s.callsOf key).countP (fun a => x ≤ a.countedAt ∧ a.countedAt < x + budgetWindow) :=
        ((List.sublist_append_right _ _).filter _).countP_le
    _ ≤ 2 * limit key - 1 := hsound.budgeted.day x

/-- A counter lives from the start of one day to the start of the next: with a limit of two, three
calls are admitted within a day. -/
theorem admitted_in_day_bounded_tight :
    ∃ s : BudgetWorld String, s.admittedIn "ip" 86399999 (86399999 + budgetWindow) = 3 ∧
      s.admittedIn "ip" 86399999 (86399999 + budgetWindow) ≤ 2 * 2 - 1 := by
  obtain ⟨s, hrun, htest⟩ := @Run.of_execAll_test _ _ (step (fun _ => 2)) (fun _ _ => True) _
    [.count "ip" .answered, .expire 0 .answered, .wait 86399999, .count "ip" .answered, .wait 1,
      .count "ip" .answered, .expire 0 .answered, .count "ip" .answered]
    ⟨0, fun _ => none, [], [], []⟩
    (fun s => s.admittedIn "ip" 86399999 (86399999 + budgetWindow) = 3) (by decide)
  exact ⟨s, of_decide_eq_true htest,
    admitted_in_day_bounded hrun ⟨fun _ => rfl, rfl, rfl⟩ (by decide) 86399999⟩

/-! ## Counters without an end -/

/-- The counter has no end, and nobody is to give it one. -/
structure Stuck (key : κ) (c : BudgetCounter) (s : BudgetWorld κ) : Prop where
  counter : s.counters key = some c
  endless : c.expiresAt = none
  alone : ∀ a ∈ s.expiring, a.key ≠ key

/-- The calls of a key that were admitted by their count. -/
def totalAdmitted (s : BudgetWorld κ) (key : κ) : Nat := s.admitted.countP (fun a => a.key = key)

omit [DecidableEq κ] in
theorem Stuck.incremented {c : BudgetCounter} (h : s.Stuck key c) :
    s.incremented key = { c with count := c.count + 1 } := by
  have hover : ¬ c.Over s.now := by
    intro hover
    obtain ⟨e, he, _⟩ := hover
    rw [h.endless] at he
    cases he
  rw [BudgetWorld.incremented, h.counter]
  exact if_neg hover

/-- A step leaves the counter without an end; it admits a call only by counting it, within the
limit. -/
theorem Stuck.step {c : BudgetCounter} (h : s.Stuck key c) (hcount : 0 < c.count)
    {a : BudgetAction κ} (hstep : step limit s a = some s') :
    ∃ c', s'.Stuck key c' ∧ ((c' = c ∧ s'.totalAdmitted key = s.totalAdmitted key) ∨
      (c'.count = c.count + 1 ∧ s'.totalAdmitted key ≤
        s.totalAdmitted key + if c'.count ≤ limit key then 1 else 0)) := by
  have hcounted : (s.incr key).counters key = some { c with count := c.count + 1 } := by
    rw [incr_counters_self, h.incremented]
  have hleft : ∀ i, ∀ a ∈ s.expiring.eraseIdx i, a.key ≠ key :=
    fun i a ha => h.alone a (List.mem_of_mem_eraseIdx ha)
  cases a with
  | wait ms =>
      obtain rfl := Option.some.inj hstep
      exact ⟨c, ⟨h.counter, h.endless, h.alone⟩, .inl ⟨rfl, rfl⟩⟩
  | count key' reply =>
      by_cases hkey : key = key'
      · subst hkey
        cases reply with
        | unreachable =>
            obtain rfl := Option.some.inj hstep
            exact ⟨c, h, .inl ⟨rfl, rfl⟩⟩
        | lost =>
            obtain rfl := Option.some.inj hstep
            exact ⟨_, ⟨hcounted, h.endless, h.alone⟩, .inr ⟨rfl, Nat.le_add_right _ _⟩⟩
        | answered =>
            simp only [BudgetWorld.step, h.incremented] at hstep
            rw [if_neg (by omega)] at hstep
            split at hstep
            case isTrue hle =>
              obtain rfl := Option.some.inj hstep
              refine ⟨_, ⟨hcounted, h.endless, h.alone⟩, .inr ⟨rfl, ?_⟩⟩
              rw [if_pos hle]
              simp [totalAdmitted]
            case isFalse =>
              obtain rfl := Option.some.inj hstep
              exact ⟨_, ⟨hcounted, h.endless, h.alone⟩, .inr ⟨rfl, Nat.le_add_right _ _⟩⟩
      · have hsame : (s.incr key').counters key = some c := by
          rw [incr_counters_of_ne s hkey, h.counter]
        have hother : (decide (key' = key)) = false := by
          simpa using fun heq => hkey heq.symm
        cases reply with
        | unreachable =>
            obtain rfl := Option.some.inj hstep
            exact ⟨c, h, .inl ⟨rfl, rfl⟩⟩
        | lost =>
            obtain rfl := Option.some.inj hstep
            exact ⟨c, ⟨hsame, h.endless, h.alone⟩, .inl ⟨rfl, rfl⟩⟩
        | answered =>
            simp only [BudgetWorld.step] at hstep
            split at hstep
            case isTrue =>
              obtain rfl := Option.some.inj hstep
              refine ⟨c, ⟨hsame, h.endless, ?_⟩, .inl ⟨rfl, rfl⟩⟩
              intro a ha
              rcases List.mem_append.mp ha with ha | ha
              · exact h.alone a ha
              · rw [List.mem_singleton.mp ha]
                exact fun heq => hkey heq.symm
            case isFalse =>
              split at hstep
              case isTrue =>
                obtain rfl := Option.some.inj hstep
                refine ⟨c, ⟨hsame, h.endless, h.alone⟩, .inl ⟨rfl, ?_⟩⟩
                simp [totalAdmitted, hother]
              case isFalse =>
                obtain rfl := Option.some.inj hstep
                exact ⟨c, ⟨hsame, h.endless, h.alone⟩, .inl ⟨rfl, rfl⟩⟩
  | expire i reply =>
      have hset : ∀ call, s.expiring[i]? = some call →
          call.key ≠ key ∧ (s.setExpiry call.key).counters key = some c := by
        intro call hi
        have hne := h.alone call (List.mem_of_getElem? hi)
        refine ⟨hne, ?_⟩
        rw [← h.counter]
        exact Function.update_of_ne hne.symm ..
      cases reply with
      | unreachable =>
          obtain ⟨call, _, rfl⟩ := Option.map_eq_some_iff.mp hstep
          exact ⟨c, ⟨h.counter, h.endless, hleft i⟩, .inl ⟨rfl, rfl⟩⟩
      | lost =>
          obtain ⟨call, hi, rfl⟩ := Option.map_eq_some_iff.mp hstep
          exact ⟨c, ⟨(hset call hi).2, h.endless, hleft i⟩, .inl ⟨rfl, rfl⟩⟩
      | answered =>
          obtain ⟨call, hi, rfl⟩ := Option.map_eq_some_iff.mp hstep
          refine ⟨c, ⟨(hset call hi).2, h.endless, hleft i⟩, .inl ⟨rfl, ?_⟩⟩
          simp [totalAdmitted, (hset call hi).1]
  | die i =>
      obtain ⟨call, _, rfl⟩ := Option.map_eq_some_iff.mp hstep
      exact ⟨c, ⟨h.counter, h.endless, hleft i⟩, .inl ⟨rfl, rfl⟩⟩

/-- **A counter without an end stays so**: from then on, for ever, a key admits no more calls by
their count than its limit had left. -/
theorem stuck_budget_is_final {c : BudgetCounter} (run : Run (step limit) (fun _ _ => True) s s')
    (hstuck : s.Stuck key c) (hcount : 0 < c.count) :
    ∃ c', s'.Stuck key c' ∧ c.count ≤ c'.count ∧
      s'.totalAdmitted key ≤ s.totalAdmitted key + (limit key - c.count) := by
  have hinv : ∃ c', s'.Stuck key c' ∧ c.count ≤ c'.count ∧
      s'.totalAdmitted key + c.count ≤
        s.totalAdmitted key + max c.count (min c'.count (limit key)) := by
    refine run.invariant (fun w => ∃ c', w.Stuck key c' ∧ c.count ≤ c'.count ∧
      w.totalAdmitted key + c.count ≤
        s.totalAdmitted key + max c.count (min c'.count (limit key))) ?_ ?_
    · intro w a w' hw _ hfire
      obtain ⟨c₁, hstuck₁, hle, htotal⟩ := hw
      obtain ⟨c₂, hstuck₂, hcase⟩ := hstuck₁.step (Nat.lt_of_lt_of_le hcount hle) hfire
      refine ⟨c₂, hstuck₂, ?_⟩
      rcases hcase with ⟨rfl, hsame⟩ | ⟨hnext, hmore⟩
      · rw [hsame]
        exact ⟨hle, htotal⟩
      · refine ⟨by omega, ?_⟩
        split at hmore
        case isTrue => omega
        case isFalse => omega
    · exact ⟨c, hstuck, le_rfl, by omega⟩
  obtain ⟨c', hstuck', hle, htotal⟩ := hinv
  exact ⟨c', hstuck', hle, by omega⟩

/-- The process dies between INCR and EXPIRE: of the two calls of the limit one is admitted, and a
year later none is. -/
theorem stuck_budget_is_final_died :
    ∃ s s' : BudgetWorld String, Run (step (fun _ => 2)) (fun _ _ => True) s s' ∧
      s.Stuck "ip" ⟨1, none, 0, 0⟩ ∧ s'.now = 31536000000 ∧ s'.refused ≠ [] ∧
      ∃ c', s'.Stuck "ip" c' ∧ 1 ≤ c'.count ∧ s'.totalAdmitted "ip" ≤ s.totalAdmitted "ip" + 1 := by
  obtain ⟨s', hrun, htest⟩ := @Run.of_execAll_test _ _ (step (fun _ => 2)) (fun _ _ => True) _
    [.count "ip" .answered, .wait 31536000000, .count "ip" .answered]
    ((step (fun _ => 2) ((step (fun _ => 2) ⟨0, fun _ => none, [], [], []⟩
      (.count "ip" .answered)).get rfl) (.die 0)).get rfl)
    (fun s => s.now = 31536000000 ∧ s.refused ≠ []) (by decide)
  have hstuck : ((step (fun _ => 2) ((step (fun _ => 2) ⟨0, fun _ => none, [], [], []⟩
      (.count "ip" .answered)).get rfl) (.die 0)).get rfl).Stuck "ip" ⟨1, none, 0, 0⟩ :=
    ⟨rfl, rfl, fun a ha => nomatch ha⟩
  obtain ⟨hnow, hrefused⟩ := of_decide_eq_true htest
  exact ⟨_, s', hrun, hstuck, hnow, hrefused,
    stuck_budget_is_final hrun hstuck (by decide)⟩

/-- No command or answer is lost once INCR has been carried out, and no process dies. -/
def Reliable : BudgetAction κ → Prop
  | .count _ .lost => False
  | .expire _ .unreachable => False
  | .die _ => False
  | _ => True

instance (a : BudgetAction κ) : Decidable (Reliable a) :=
  match a with
  | .count _ .answered => isTrue trivial
  | .count _ .unreachable => isTrue trivial
  | .count _ .lost => isFalse id
  | .expire _ .answered => isTrue trivial
  | .expire _ .lost => isTrue trivial
  | .expire _ .unreachable => isFalse id
  | .die _ => isFalse id
  | .wait _ => isTrue trivial

/-- The counter of a key ends within a day, or EXPIRE is on its way. -/
def RollsOver (key : κ) (s : BudgetWorld κ) : Prop :=
  ∀ c, s.counters key = some c →
    (∃ a ∈ s.expiring, a.key = key) ∨ ∃ e ∈ c.expiresAt, e ≤ s.now + budgetWindow

theorem RollsOver.expire (h : s.RollsOver key) {i : Nat} {call : BudgetAdmission κ}
    (hi : s.expiring[i]? = some call) (hcounters : s'.counters = (s.setExpiry call.key).counters)
    (hnow : s'.now = s.now) (hexpiring : s'.expiring = s.expiring.eraseIdx i) :
    s'.RollsOver key := by
  intro c hc
  rw [hcounters, setExpiry] at hc
  by_cases hkey : key = call.key
  · right
    subst hkey
    simp only [Function.update_self, Option.map_eq_some_iff] at hc
    obtain ⟨c₀, hc₀, rfl⟩ := hc
    split
    case isTrue hover =>
      obtain ⟨e, he, hle⟩ := hover
      exact ⟨e, he, by omega⟩
    case isFalse =>
      exact ⟨s.now + budgetWindow, rfl, by omega⟩
  · have hold : s.counters key = some c := by
      rw [← hc]
      exact (Function.update_of_ne hkey ..).symm
    rcases h c hold with ⟨a, ha, hof⟩ | ⟨e, he, hle⟩
    · left
      refine ⟨a, ?_, hof⟩
      rw [hexpiring]
      rcases List.mem_cons.mp ((perm_eraseIdx hi).subset ha) with rfl | ha
      · exact absurd hof.symm hkey
      · exact ha
    · exact .inr ⟨e, he, by omega⟩

theorem RollsOver.count (h : s.RollsOver key) {key' : κ}
    (hcounters : s'.counters = (s.incr key').counters) (hnow : s'.now = s.now)
    (hold : ∀ a ∈ s.expiring, a ∈ s'.expiring)
    (hfirst : (s.incremented key').count = 1 → ∃ a ∈ s'.expiring, a.key = key') :
    s'.RollsOver key := by
  intro c hc
  rw [hcounters] at hc
  have hkeep : ∀ c₀, s.counters key = some c₀ → c.expiresAt = c₀.expiresAt →
      (∃ a ∈ s'.expiring, a.key = key) ∨ ∃ e ∈ c.expiresAt, e ≤ s'.now + budgetWindow := by
    intro c₀ hc₀ hend
    rcases h c₀ hc₀ with ⟨a, ha, hof⟩ | ⟨e, he, hle⟩
    · exact .inl ⟨a, hold a ha, hof⟩
    · exact .inr ⟨e, hend ▸ he, hnow ▸ hle⟩
  by_cases hkey : key = key'
  · subst hkey
    rw [incr_counters_self, Option.some.injEq] at hc
    subst hc
    cases hc₀ : s.counters key with
    | none =>
        left
        apply hfirst
        rw [incremented, hc₀]
    | some c₀ =>
        by_cases hover : c₀.Over s.now
        · left
          apply hfirst
          rw [incremented, hc₀]
          simp only [if_pos hover]
        · apply hkeep c₀ hc₀
          rw [incremented, hc₀]
          simp only [if_neg hover]
  · rw [incr_counters_of_ne s hkey] at hc
    exact hkeep c hc rfl

/-- **Without an accident every counter rolls over**: it has an end within a day, or the call that
is to send EXPIRE is under way. -/
theorem reliable_budget_rolls_over (run : Run (step limit) (fun _ a => Reliable a) s₀ s)
    (hinit : s₀.Initial) (key : κ) : s.RollsOver key := by
  refine run.invariant (RollsOver key) ?_ ?_
  · intro w a w' hw hok hfire
    cases a with
    | wait ms =>
        obtain rfl := Option.some.inj hfire
        intro c hc
        rcases hw c hc with hpending | ⟨e, he, hle⟩
        · exact .inl hpending
        · exact .inr ⟨e, he, hle.trans (Nat.add_le_add_right (Nat.le_add_right _ _) _)⟩
    | count key' reply =>
        cases reply with
        | unreachable =>
            obtain rfl := Option.some.inj hfire
            exact hw
        | lost => cases hok
        | answered =>
            simp only [step] at hfire
            split at hfire
            case isTrue =>
              obtain rfl := Option.some.inj hfire
              refine hw.count rfl rfl ?_ ?_
              · intro a ha
                exact List.mem_append_left _ ha
              · intro _
                exact ⟨_, List.mem_append_right _ (List.mem_singleton_self _), rfl⟩
            case isFalse hmore =>
              split at hfire
              case isTrue =>
                obtain rfl := Option.some.inj hfire
                exact hw.count rfl rfl (fun a ha => ha) (fun hone => absurd hone hmore)
              case isFalse =>
                obtain rfl := Option.some.inj hfire
                exact hw.count rfl rfl (fun a ha => ha) (fun hone => absurd hone hmore)
    | expire i reply =>
        cases reply with
        | unreachable => cases hok
        | lost =>
            obtain ⟨call, hi, rfl⟩ := Option.map_eq_some_iff.mp hfire
            exact hw.expire hi rfl rfl rfl
        | answered =>
            obtain ⟨call, hi, rfl⟩ := Option.map_eq_some_iff.mp hfire
            exact hw.expire hi rfl rfl rfl
    | die i => cases hok
  · intro c hc
    rw [hinit.counters key] at hc
    cases hc

/-- One call, and the first half of the next. -/
theorem reliable_budget_rolls_over_once :
    ∃ s : BudgetWorld String, (s.admitted ≠ [] ∧ s.expiring ≠ []) ∧ s.RollsOver "ip" := by
  obtain ⟨s, hrun, htest⟩ := @Run.of_execAll_test _ _ (step (fun _ => 2))
    (fun _ a => Reliable a) _
    [.count "ip" .answered, .expire 0 .answered, .wait 86400000, .count "ip" .answered]
    ⟨0, fun _ => none, [], [], []⟩
    (fun s => s.admitted ≠ [] ∧ s.expiring ≠ []) (by decide)
  exact ⟨s, of_decide_eq_true htest,
    reliable_budget_rolls_over hrun ⟨fun _ => rfl, rfl, rfl⟩ "ip"⟩

end BudgetWorld

end Jadwal
