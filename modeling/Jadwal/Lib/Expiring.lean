import Mathlib

/-!
# Keys that expire

A store each of whose keys holds a value up to an instant.  A lease is taken by writing a token
of one's own where no value stands, and given back by deleting the key if the token still stands
there.  The rules here say what a reader sees after each command, at any later time.
-/

universe u v

/-- A value, and the instant from which it is gone. -/
structure Timed (ν : Type v) where
  value : ν
  expiresAt : Nat
  deriving DecidableEq, Repr

/-- What the store holds for each key, expired values included. -/
abbrev Expiring (κ : Type u) (ν : Type v) := κ → Option (Timed ν)

/-- What becomes of a command sent to the store. -/
inductive StoreReply
  | answered
  /-- It is carried out, and the answer does not arrive. -/
  | lost
  | unreachable
  deriving DecidableEq, Repr

namespace Expiring

variable {κ : Type u} {ν : Type v} [DecidableEq κ] {s : Expiring κ ν} {k k' : κ} {v w : ν}
  {now later ttl : Nat}

def empty : Expiring κ ν := fun _ => none

/-- The value that has not expired. -/
def read (s : Expiring κ ν) (now : Nat) (k : κ) : Option ν :=
  ((s k).filter (fun x => now < x.expiresAt)).map Timed.value

def set (s : Expiring κ ν) (now : Nat) (k : κ) (v : ν) (ttl : Nat) : Expiring κ ν :=
  Function.update s k (some ⟨v, now + ttl⟩)

/-- Writes only where no value stands. -/
def setIfNone (s : Expiring κ ν) (now : Nat) (k : κ) (v : ν) (ttl : Nat) :
    Option (Expiring κ ν) :=
  if (s.read now k).isNone then some (s.set now k v ttl) else none

def delete (s : Expiring κ ν) (k : κ) : Expiring κ ν := Function.update s k none

/-- Deletes the key if it holds this very value. -/
def deleteIf [DecidableEq ν] (s : Expiring κ ν) (now : Nat) (k : κ) (v : ν) : Expiring κ ν :=
  if s.read now k = some v then s.delete k else s

omit [DecidableEq κ] in
/-- A value is read until its time is up. -/
theorem read_eq_some : s.read now k = some v ↔
    ∃ expiresAt, s k = some ⟨v, expiresAt⟩ ∧ now < expiresAt := by
  unfold read
  cases h : s k with
  | none => simp
  | some x =>
      obtain ⟨value, expiresAt⟩ := x
      by_cases hlt : now < expiresAt
      · simp [Option.filter, hlt]
      · simp [Option.filter, hlt]

@[simp] theorem set_apply : s.set now k v ttl k = some ⟨v, now + ttl⟩ := Function.update_self ..

theorem set_of_ne (h : k' ≠ k) : s.set now k v ttl k' = s k' := Function.update_of_ne h ..

/-- What stands there after a write. -/
theorem set_eq_some {x : Timed ν} : s.set now k v ttl k' = some x ↔
    (k' = k ∧ x = ⟨v, now + ttl⟩) ∨ (k' ≠ k ∧ s k' = some x) := by
  by_cases h : k' = k
  · subst h
    simp [eq_comm]
  · simp [set_of_ne h, h]

/-- A set that asks for none succeeds where none is read. -/
theorem setIfNone_eq_some {s' : Expiring κ ν} : s.setIfNone now k v ttl = some s' ↔
    s.read now k = none ∧ s' = s.set now k v ttl := by
  unfold setIfNone
  rw [Option.ite_none_right_eq_some, Option.isNone_iff_eq_none, Option.some.injEq,
    eq_comm (b := s')]

theorem delete_of_ne (h : k' ≠ k) : s.delete k k' = s k' := Function.update_of_ne h ..

@[simp] theorem delete_apply : s.delete k k = none := Function.update_self ..

section

variable [DecidableEq ν]

/-- A key that holds another value keeps it. -/
theorem deleteIf_of_ne (h : s.read now k = some w) (hne : w ≠ v) :
    s.deleteIf now k v = s := by
  have hread : s.read now k ≠ some v := by
    rw [h]
    exact fun heq => hne (Option.some.inj heq)
  exact if_neg hread

theorem deleteIf_key_of_ne (h : k' ≠ k) : s.deleteIf now k v k' = s k' := by
  unfold deleteIf
  split
  · exact delete_of_ne h
  · rfl

/-- The deletion frees the key for all who read it later. -/
theorem read_deleteIf_self (h : s.read now k = some v) :
    (s.deleteIf now k v).read later k = none := by
  have hdeleted : s.deleteIf now k v = s.delete k := if_pos h
  simp [hdeleted, read]

/-- What stands there after the deletion stood there before. -/
theorem of_deleteIf {x : Timed ν} (h : s.deleteIf now k v k' = some x) : s k' = some x := by
  unfold deleteIf at h
  split at h
  · by_cases hk : k' = k
    · rw [hk, delete_apply] at h
      cases h
    · rwa [delete_of_ne hk] at h
  · exact h

end

/-! ## Counters -/

/-- How long the value of a key still lives. -/
def remaining (s : Expiring κ ν) (now : Nat) (k : κ) : Nat :=
  (s k).elim 0 (fun x => x.expiresAt - now)

/-- Adds one to a counter; one that starts lives `ttl`, and is not prolonged. -/
def increment (s : Expiring κ Nat) (now : Nat) (k : κ) (ttl : Nat) : Nat × Expiring κ Nat :=
  match (s k).filter (fun x => now < x.expiresAt) with
  | some x => (x.value + 1, Function.update s k (some { x with value := x.value + 1 }))
  | none => (1, s.set now k 1 ttl)

/-- **An increment counts on, or begins a new life.** -/
theorem increment_cases (s : Expiring κ Nat) (now : Nat) (k : κ) (ttl : Nat) :
    (∃ c e, s k = some ⟨c, e⟩ ∧ now < e ∧ (s.increment now k ttl).1 = c + 1 ∧
      (s.increment now k ttl).2 k = some ⟨c + 1, e⟩) ∨
    ((∀ x, s k = some x → x.expiresAt ≤ now) ∧ (s.increment now k ttl).1 = 1 ∧
      (s.increment now k ttl).2 k = some ⟨1, now + ttl⟩) := by
  unfold increment
  cases h : s k with
  | none => exact .inr ⟨fun x hx => (by cases hx), rfl, set_apply⟩
  | some x =>
      by_cases hlt : now < x.expiresAt
      · refine .inl ⟨x.value, x.expiresAt, rfl, hlt, ?_⟩
        simp [Option.filter, hlt]
      · refine .inr ⟨fun y hy => ?_, ?_⟩
        · cases hy
          exact Nat.le_of_not_lt hlt
        · simp [Option.filter, hlt]

/-- It touches no other key. -/
theorem increment_of_ne {s : Expiring κ Nat} (h : k' ≠ k) :
    (s.increment now k ttl).2 k' = s k' := by
  unfold increment
  split
  · exact Function.update_of_ne h ..
  · exact set_of_ne h

end Expiring
