import Mathlib.Algebra.BigOperators.Group.List.Basic
import Mathlib.Algebra.Order.BigOperators.Group.List
import Mathlib.Data.List.Induction
import Mathlib.Data.List.Sort
import Mathlib.Data.List.TakeWhile
import Mathlib.Tactic.Abel
import Mathlib.Tactic.Linarith

/-!
# Sweep-line loads

Weighted half-open intervals `[start, stop)` over a linear order, the
**load** they put on a point (the weights of the intervals that cover it),
and the sweep that computes the greatest load: sort the end points, ends
before starts at the same point, and keep the running sum and its maximum.

`load_le_peak` is the fact admission control rests on: the sweep's answer
is an upper bound of the load at **every** point, not only at the end
points it visits; `peak_le` says that it is the least one.
-/

universe u

namespace Sweep

variable {T : Type u} [LinearOrder T]

/-- A weighted half-open interval. -/
structure Interval (T : Type u) where
  start : T
  stop : T
  weight : Nat

/-- The interval contains the point. -/
def Interval.covers (i : Interval T) (t : T) : Prop :=
  i.start ≤ t ∧ t < i.stop

instance (i : Interval T) (t : T) : Decidable (i.covers t) :=
  inferInstanceAs (Decidable (_ ∧ _))

/-- The weight the interval puts on the point. -/
def Interval.share (i : Interval T) (t : T) : Nat :=
  if i.covers t then i.weight else 0

/-- The load of a list of intervals on a point. -/
def load (is : List (Interval T)) (t : T) : Nat :=
  (is.map (fun i => i.share t)).sum

@[simp] theorem load_nil (t : T) : load ([] : List (Interval T)) t = 0 := rfl

@[simp] theorem load_cons (i : Interval T) (is : List (Interval T)) (t : T) :
    load (i :: is) t = i.share t + load is t := by
  simp [load]

/-- One end point of an interval, with the change of the load there. -/
structure Event (T : Type u) where
  time : T
  delta : Int
  isStart : Nat

/-- The sweep's order: by time, and at one time ends before starts. -/
def Event.le (a b : Event T) : Prop :=
  a.time < b.time ∨ (a.time = b.time ∧ a.isStart ≤ b.isStart)

instance : DecidableRel (Event.le (T := T)) :=
  fun _ _ => inferInstanceAs (Decidable (_ ∨ _))

instance : Std.Total (Event.le (T := T)) where
  total a b := by
    rcases lt_trichotomy a.time b.time with h | h | h
    · exact Or.inl (Or.inl h)
    · rcases le_total a.isStart b.isStart with hs | hs
      · exact Or.inl (Or.inr ⟨h, hs⟩)
      · exact Or.inr (Or.inr ⟨h.symm, hs⟩)
    · exact Or.inr (Or.inl h)

instance : IsTrans (Event T) Event.le where
  trans a b c hab hbc := by
    rcases hab with hab | ⟨hab, hs⟩ <;> rcases hbc with hbc | ⟨hbc, hs'⟩
    · exact Or.inl (hab.trans hbc)
    · exact Or.inl (hbc ▸ hab)
    · exact Or.inl (hab ▸ hbc)
    · exact Or.inr ⟨hab.trans hbc, hs.trans hs'⟩

/-- The two events of an interval. -/
def Interval.events (i : Interval T) : List (Event T) :=
  [⟨i.start, i.weight, 1⟩, ⟨i.stop, -i.weight, 0⟩]

/-- The running sum `current` and its maximum `peak` over the events. -/
def scan (current peak : Int) : List (Event T) → Int
  | [] => peak
  | e :: es =>
      let current := current + e.delta
      scan current (if current > peak then current else peak) es

/-- The sweep: the greatest running sum of the sorted events. -/
def peak (is : List (Interval T)) : Int :=
  scan 0 0 ((is.flatMap Interval.events).insertionSort Event.le)

/-! ## The running maximum -/

omit [LinearOrder T] in
theorem peak_le_scan (es : List (Event T)) (c p : Int) : p ≤ scan c p es := by
  induction es generalizing c p with
  | nil => exact le_refl p
  | cons e es ih =>
      refine le_trans ?_ (ih _ _)
      split <;> omega

omit [LinearOrder T] in
/-- The running maximum bounds the running sum after every prefix. -/
theorem prefix_le_scan (pre suf : List (Event T)) (c p : Int) (hcp : c ≤ p) :
    c + (pre.map Event.delta).sum ≤ scan c p (pre ++ suf) := by
  induction pre generalizing c p with
  | nil => simpa using hcp.trans (peak_le_scan suf c p)
  | cons e pre ih =>
      have hle : c + e.delta ≤ if c + e.delta > p then c + e.delta else p := by
        split <;> omega
      simpa [scan, add_assoc] using ih (c + e.delta) _ hle

theorem peak_nonneg (is : List (Interval T)) : 0 ≤ peak is :=
  peak_le_scan _ _ _

/-! ## The running sum at a point is the load -/

/-- In a sorted list the events up to `t` form a prefix. -/
theorem filter_eq_takeWhile (t : T) :
    ∀ es : List (Event T), es.Pairwise Event.le →
      es.filter (fun e => e.time ≤ t) = es.takeWhile (fun e => e.time ≤ t) := by
  intro es
  induction es with
  | nil => intro _; rfl
  | cons e es ih =>
      intro hs
      rw [List.pairwise_cons] at hs
      by_cases h : e.time ≤ t
      · simp [h, ih hs.2]
      · have hnone : es.filter (fun b => b.time ≤ t) = [] := by
          rw [List.filter_eq_nil_iff]
          intro b hb hbt
          have hbt : b.time ≤ t := by simpa using hbt
          rcases hs.1 b hb with hlt | ⟨heq, _⟩
          · exact h (hlt.le.trans hbt)
          · exact h (heq ▸ hbt)
        simp [h, hnone]

/-- The deltas of one interval's events up to `t` sum to its share of `t`. -/
theorem Interval.sum_events (i : Interval T) (h : i.start < i.stop) (t : T) :
    ((i.events.filter (fun e => e.time ≤ t)).map Event.delta).sum =
      (i.share t : Int) := by
  by_cases h1 : i.start ≤ t
  · by_cases h2 : i.stop ≤ t
    · simp [events, share, covers, h1, h2, not_lt.mpr h2]
    · simp [events, share, covers, h1, h2, not_le.mp h2]
  · have h2 : ¬ i.stop ≤ t := fun h2 => h1 (h.le.trans h2)
    simp [events, share, covers, h1, h2]

theorem sum_events (is : List (Interval T)) (h : ∀ i ∈ is, i.start < i.stop)
    (t : T) :
    (((is.flatMap Interval.events).filter (fun e => e.time ≤ t)).map
      Event.delta).sum = (load is t : Int) := by
  induction is with
  | nil => rfl
  | cons i is ih =>
      have hi := i.sum_events (h i (by simp)) t
      have his := ih (fun j hj => h j (by simp [hj]))
      simp only [List.flatMap_cons, List.filter_append, List.map_append,
        List.sum_append, hi, his, load_cons, Nat.cast_add]

/-- **The sweep bounds the load everywhere.** -/
theorem load_le_peak (is : List (Interval T)) (h : ∀ i ∈ is, i.start < i.stop)
    (t : T) : (load is t : Int) ≤ peak is := by
  have hperm := List.perm_insertionSort Event.le (is.flatMap Interval.events)
  have hsorted := List.pairwise_insertionSort Event.le
    (is.flatMap Interval.events)
  have hsum : ((((is.flatMap Interval.events).insertionSort Event.le).takeWhile
      (fun e => e.time ≤ t)).map Event.delta).sum = (load is t : Int) := by
    rw [← sum_events is h t, ← filter_eq_takeWhile t _ hsorted]
    exact ((hperm.filter _).map _).sum_eq
  have hpre := prefix_le_scan
    (((is.flatMap Interval.events).insertionSort Event.le).takeWhile
      (fun e => e.time ≤ t))
    (((is.flatMap Interval.events).insertionSort Event.le).dropWhile
      (fun e => e.time ≤ t)) 0 0 (le_refl _)
  rw [List.takeWhile_append_dropWhile, hsum, zero_add] at hpre
  exact hpre

/-! ## The peak is a load -/

omit [LinearOrder T] in
/-- The running maximum stays below a bound of the running sums. -/
theorem scan_le {n : Int} (es : List (Event T)) (c p : Int) (hp : p ≤ n)
    (h : ∀ pre suf, es = pre ++ suf → c + (pre.map Event.delta).sum ≤ n) :
    scan c p es ≤ n := by
  induction es generalizing c p with
  | nil => exact hp
  | cons e es ih =>
      have hfirst : c + e.delta ≤ n := by simpa using h [e] es rfl
      refine ih _ _ ?_ fun pre suf heq => ?_
      · split
        · exact hfirst
        · exact hp
      · simpa [add_assoc] using h (e :: pre) suf (by rw [heq]; rfl)

/-- A start adds weight and an end takes it away. -/
def Event.Signed (e : Event T) : Prop :=
  (e.isStart = 1 ∧ 0 ≤ e.delta) ∨ (e.isStart = 0 ∧ e.delta ≤ 0)

omit [LinearOrder T] in
theorem signed_events (is : List (Interval T)) :
    ∀ e ∈ is.flatMap Interval.events, e.Signed := by
  intro e he
  obtain ⟨i, _, hi⟩ := List.mem_flatMap.mp he
  simp only [Interval.events, List.mem_cons, List.not_mem_nil, or_false] at hi
  rcases hi with rfl | rfl
  · exact Or.inl ⟨rfl, Int.natCast_nonneg _⟩
  · exact Or.inr ⟨rfl, by simp⟩

/-- After a start, what a sorted list still has at the same point are starts. -/
theorem sum_filter_nonneg {e : Event T} {suf : List (Event T)} (he : e.isStart = 1)
    (hle : ∀ f ∈ suf, Event.le e f) (hsigned : ∀ f ∈ suf, f.Signed) :
    0 ≤ ((suf.filter (fun f => f.time ≤ e.time)).map Event.delta).sum := by
  refine List.sum_nonneg fun d hd => ?_
  obtain ⟨f, hf, rfl⟩ := List.mem_map.mp hd
  obtain ⟨hmem, htime⟩ := List.mem_filter.mp hf
  rcases hsigned f hmem with ⟨_, hpos⟩ | ⟨hend, _⟩
  · exact hpos
  · rcases hle f hmem with hlt | ⟨_, hstart⟩
    · exact absurd (of_decide_eq_true htime) (not_le.mpr hlt)
    · omega

/-- In a sorted list no running sum exceeds the greatest of the sums at a point. -/
theorem prefix_le {n : Int} (hn : 0 ≤ n) {es : List (Event T)} (hs : es.Pairwise Event.le)
    (hsigned : ∀ e ∈ es, e.Signed)
    (h : ∀ t, ((es.filter (fun e => e.time ≤ t)).map Event.delta).sum ≤ n)
    (pre suf : List (Event T)) (heq : es = pre ++ suf) :
    (pre.map Event.delta).sum ≤ n := by
  induction pre using List.reverseRec generalizing suf with
  | nil => simpa using hn
  | append_singleton pre e ih =>
      have hrest := ih (e :: suf) (by simpa using heq)
      rcases hsigned e (by simp [heq]) with ⟨hstart, _⟩ | ⟨_, hneg⟩
      · rw [heq, List.append_assoc, List.pairwise_append, List.singleton_append,
          List.pairwise_cons] at hs
        have hpre : pre.filter (fun f => f.time ≤ e.time) = pre := by
          refine List.filter_eq_self.mpr fun f hf => decide_eq_true ?_
          rcases hs.2.2 f hf e (by simp) with hlt | ⟨heq', _⟩
          · exact hlt.le
          · exact heq'.le
        have hsuf := sum_filter_nonneg hstart hs.2.1.1
          (fun f hf => hsigned f (by simp [heq, hf]))
        have hall := h e.time
        simp only [heq, List.filter_append, hpre, List.filter_cons, le_refl, decide_true,
          if_true, List.filter_nil, List.map_append, List.sum_append] at hall ⊢
        omega
      · simp only [List.map_append, List.sum_append, List.map_cons, List.map_nil,
          List.sum_cons, List.sum_nil]
        omega

/-- **The sweep is the least bound of the loads.** -/
theorem peak_le {n : Int} (hn : 0 ≤ n) (is : List (Interval T))
    (hproper : ∀ i ∈ is, i.start < i.stop) (h : ∀ t, (load is t : Int) ≤ n) :
    peak is ≤ n := by
  have hperm := List.perm_insertionSort Event.le (is.flatMap Interval.events)
  refine scan_le _ 0 0 hn fun pre suf heq => ?_
  rw [zero_add]
  refine prefix_le hn (List.pairwise_insertionSort Event.le _) (fun e he => ?_)
    (fun t => ?_) pre suf heq
  · exact signed_events is e (hperm.mem_iff.mp he)
  · rw [((hperm.filter _).map _).sum_eq, sum_events is hproper t]
    exact h t

theorem peak_le_iff {n : Int} (hn : 0 ≤ n) (is : List (Interval T))
    (hproper : ∀ i ∈ is, i.start < i.stop) :
    peak is ≤ n ↔ ∀ t, (load is t : Int) ≤ n :=
  ⟨fun h t => (load_le_peak is hproper t).trans h, peak_le hn is hproper⟩

end Sweep
