import Mathlib

/-!
# Occupants of shared resources

An **occupant** takes a share of one resource over a half-open span
`[start, stop)` of a linear order.  The occupants together must leave every
resource within its limit at every point.  Dropping occupants keeps them within
the limits, and so does admitting one that finds room among the others.
-/

universe u v w

namespace Occupancy

variable {K : Type u} {R : Type v} {T : Type w} [DecidableEq K] [DecidableEq R]
  [LinearOrder T]

/-- An occupant, by its key. -/
structure Occupant (K : Type u) (R : Type v) (T : Type w) where
  key : K
  resource : R
  start : T
  stop : T
  weight : Nat

/-- The span of the occupant contains the point. -/
def Occupant.covers (c : Occupant K R T) (t : T) : Prop := c.start ≤ t ∧ t < c.stop

instance (c : Occupant K R T) (t : T) : Decidable (c.covers t) :=
  inferInstanceAs (Decidable (_ ∧ _))

/-- What the occupant takes of a resource at a point. -/
def Occupant.share (c : Occupant K R T) (r : R) (t : T) : Nat :=
  if c.resource = r ∧ c.covers t then c.weight else 0

/-- What the occupants take of a resource at a point. -/
def load (cs : List (Occupant K R T)) (r : R) (t : T) : Nat :=
  (cs.map (fun c => c.share r t)).sum

/-- Every resource is within its limit at every point; `none` is unlimited. -/
def Within (limit : R → Option Nat) (cs : List (Occupant K R T)) : Prop :=
  ∀ r t, ∀ n ∈ limit r, load cs r t ≤ n

/-- The occupants but one. -/
def others (cs : List (Occupant K R T)) (k : K) : List (Occupant K R T) :=
  cs.filter (fun c => c.key ≠ k)

/-- The others leave room for the occupant over its whole span. -/
def Room (limit : R → Option Nat) (cs : List (Occupant K R T)) (c : Occupant K R T) : Prop :=
  ∀ t, c.covers t → ∀ n ∈ limit c.resource,
    load (others cs c.key) c.resource t + c.weight ≤ n

variable {limit : R → Option Nat} {cs cs' : List (Occupant K R T)} {c : Occupant K R T}

omit [DecidableEq K] in
theorem load_cons (c : Occupant K R T) (cs : List (Occupant K R T)) (r : R) (t : T) :
    load (c :: cs) r t = c.share r t + load cs r t := by
  simp [load]

omit [DecidableEq K] in
theorem load_perm (h : cs.Perm cs') (r : R) (t : T) : load cs r t = load cs' r t :=
  (h.map _).sum_eq

omit [DecidableEq K] in
theorem load_le_of_sublist (h : cs.Sublist cs') (r : R) (t : T) :
    load cs r t ≤ load cs' r t :=
  (h.map _).sum_le_sum (by simp)

omit [DecidableEq K] in
/-- Distinct occupants of another list take no more than it. -/
theorem load_le_of_subset (hnodup : (cs'.map Occupant.key).Nodup) (h : ∀ x ∈ cs', x ∈ cs)
    (r : R) (t : T) : load cs' r t ≤ load cs r t := by
  obtain ⟨l, hperm, hsub⟩ := List.subperm_of_subset (List.Nodup.of_map _ hnodup) h
  rw [← load_perm hperm]
  exact load_le_of_sublist hsub r t

omit [DecidableEq K] in
/-- Dropping occupants keeps the limits. -/
theorem Within.of_subset (h : Within limit cs) (hnodup : (cs'.map Occupant.key).Nodup)
    (hsub : ∀ x ∈ cs', x ∈ cs) : Within limit cs' :=
  fun r t n hn => (load_le_of_subset hnodup hsub r t).trans (h r t n hn)

/-- **Admitting an occupant that finds room keeps the limits.** -/
theorem Within.admit (h : Within limit cs) (hnodup : (cs'.map Occupant.key).Nodup)
    (hsub : ∀ x ∈ cs', x ∈ cs ∨ x = c) (room : Room limit cs c) : Within limit cs' := by
  by_cases hc : c ∈ cs'
  · intro r t n hn
    -- the occupant, and the others it was admitted among
    obtain ⟨rest, hperm⟩ : ∃ rest, cs'.Perm (c :: rest) := by
      obtain ⟨pre, suf, rfl⟩ := List.append_of_mem hc
      exact ⟨pre ++ suf, List.perm_middle⟩
    have hkeys := (hperm.map Occupant.key).nodup_iff.mp hnodup
    rw [List.map_cons, List.nodup_cons] at hkeys
    have hrest : ∀ x ∈ rest, x ∈ others cs c.key := by
      intro x hx
      have hne : x.key ≠ c.key := fun he => hkeys.1 (List.mem_map.mpr ⟨x, hx, he⟩)
      have hmem := hsub x (hperm.mem_iff.mpr (List.mem_cons_of_mem _ hx))
      have hx : x ∈ cs := hmem.resolve_right fun he => hne (by rw [he])
      exact List.mem_filter.mpr ⟨hx, by simpa using hne⟩
    rw [load_perm hperm, load_cons]
    by_cases hshare : c.resource = r ∧ c.covers t
    · obtain ⟨rfl, hcovers⟩ := hshare
      have hroom := room t hcovers n hn
      have hle := load_le_of_subset hkeys.2 hrest c.resource t
      have hone : c.share c.resource t = c.weight := if_pos ⟨rfl, hcovers⟩
      omega
    · have hle := load_le_of_subset hkeys.2
        (fun x hx => (List.mem_filter.mp (hrest x hx)).1) r t
      have hnone : c.share r t = 0 := if_neg hshare
      have := h r t n hn
      omega
  · refine h.of_subset hnodup fun x hx => (hsub x hx).resolve_right ?_
    rintro rfl
    exact hc hx

end Occupancy
