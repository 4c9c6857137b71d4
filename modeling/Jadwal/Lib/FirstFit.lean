import Mathlib

/-!
# First fit

Items are packed one after the other into the bins `1 … n`, each into the first
bin whose items leave room for it; an item no bin has room for is left over.
What an item with room keeps of a bin holds of every bin after the packing
(`bin_pack`), and no item is lost (`map_snd_pack`).  When an item is left over,
every bin was full for it (`pack_left`).
-/

universe u

namespace FirstFit

variable {α : Type u}

/-- The items of a bin. -/
def bin (placed : List (Nat × α)) (k : Nat) : List α :=
  (placed.filter (fun p => p.1 = k)).map Prod.snd

/-- The first of the bins `1 … n` with room for the item. -/
def choose? (room : List α → α → Bool) (n : Nat) (placed : List (Nat × α)) (x : α) :
    Option Nat :=
  (List.range' 1 n).find? (fun k => room (bin placed k) x)

/-- Packs the items in order, and returns the items left over. -/
def pack (room : List α → α → Bool) (n : Nat) (placed : List (Nat × α)) :
    List α → List (Nat × α) × List α
  | [] => (placed, [])
  | x :: xs =>
      match choose? room n placed x with
      | some k => pack room n (placed ++ [(k, x)]) xs
      | none =>
          let r := pack room n placed xs
          (r.1, x :: r.2)

variable {room : List α → α → Bool} {n k : Nat} {placed : List (Nat × α)} {x : α}
  {xs : List α}

theorem choose?_eq_some (h : choose? room n placed x = some k) :
    (1 ≤ k ∧ k ≤ n) ∧ room (bin placed k) x = true := by
  have hroom : room (bin placed k) x = true :=
    List.find?_some (p := fun k => room (bin placed k) x) h
  have hmem := List.mem_range'_1.mp (List.mem_of_find?_eq_some h)
  exact ⟨⟨hmem.1, by omega⟩, hroom⟩

theorem bin_append (placed : List (Nat × α)) (k j : Nat) (x : α) :
    bin (placed ++ [(k, x)]) j = bin placed j ++ if k = j then [x] else [] := by
  by_cases h : k = j <;> simp [bin, h]

/-- **What admitting an item keeps of a bin, the packing keeps**, whatever the other
bins are like. -/
theorem bin_pack {I : List α → Prop} {j : Nat}
    (keep : ∀ items x, I items → room items x = true → I (items ++ [x]))
    (h : I (bin placed j)) : I (bin (pack room n placed xs).1 j) := by
  induction xs generalizing placed with
  | nil => exact h
  | cons x xs ih =>
      cases hchoose : choose? room n placed x with
      | none =>
          simp only [pack, hchoose]
          exact ih h
      | some k =>
          simp only [pack, hchoose]
          apply ih
          rw [bin_append]
          by_cases hkj : k = j
          · subst hkj
            rw [if_pos rfl]
            exact keep _ _ h (choose?_eq_some hchoose).2
          · rw [if_neg hkj, List.append_nil]
            exact h

/-- The packing adds to what was placed, in bins of the range. -/
theorem pack_extends : ∃ chosen, (pack room n placed xs).1 = placed ++ chosen ∧
    ∀ p ∈ chosen, 1 ≤ p.1 ∧ p.1 ≤ n := by
  induction xs generalizing placed with
  | nil => exact ⟨[], by simp [pack], by simp⟩
  | cons x xs ih =>
      cases hchoose : choose? room n placed x with
      | none =>
          simp only [pack, hchoose]
          exact ih
      | some k =>
          simp only [pack, hchoose]
          obtain ⟨chosen, heq, hrange⟩ := @ih (placed ++ [(k, x)])
          refine ⟨(k, x) :: chosen, by rw [heq]; simp, ?_⟩
          intro p hp
          rcases List.mem_cons.mp hp with rfl | hp
          · exact (choose?_eq_some hchoose).1
          · exact hrange p hp

/-- When nothing is left over, the bins hold what they held and the items. -/
theorem map_snd_pack (h : (pack room n placed xs).2 = []) :
    (pack room n placed xs).1.map Prod.snd = placed.map Prod.snd ++ xs := by
  induction xs generalizing placed with
  | nil => simp [pack]
  | cons x xs ih =>
      cases hchoose : choose? room n placed x with
      | none =>
          simp only [pack, hchoose] at h
          cases h
      | some k =>
          simp only [pack, hchoose] at h ⊢
          rw [ih h]
          simp

/-- The bins of a range hold together what all the placed items weigh. -/
theorem sum_bins (w : α → Nat) (h : ∀ p ∈ placed, 1 ≤ p.1 ∧ p.1 ≤ n) :
    (placed.map (fun p => w p.2)).sum =
      ((List.range' 1 n).map (fun k => ((bin placed k).map w).sum)).sum := by
  induction placed with
  | nil =>
      have hzero : ∀ k, (List.map w (bin ([] : List (Nat × α)) k)).sum = 0 := fun k => rfl
      simp [hzero]
  | cons p placed ih =>
      have hcons : ∀ k, ((bin (p :: placed) k).map w).sum =
          (if p.1 = k then w p.2 else 0) + ((bin placed k).map w).sum := by
        intro k
        by_cases hk : p.1 = k <;> simp [bin, hk]
      simp only [hcons, List.sum_map_add]
      rw [← ih fun q hq => h q (List.mem_cons_of_mem _ hq), List.map_cons, List.sum_cons]
      congr 1
      obtain ⟨hlow, hhigh⟩ := h p (by simp)
      have hmem : p.1 ∈ List.range' 1 n := List.mem_range'_1.mpr ⟨hlow, by omega⟩
      have hsingle := List.sum_map_eq_nsmul_single p.1 (l := List.range' 1 n)
        (fun k => if p.1 = k then w p.2 else 0) fun k hk _ => if_neg hk.symm
      rw [hsingle, List.count_eq_one_of_mem List.nodup_range' hmem, if_pos rfl, one_nsmul]

/-- Bins within a bound hold together no more than the bound for each of them. -/
theorem sum_le_of_bins {w : α → Nat} {m : Nat} (h : ∀ p ∈ placed, 1 ≤ p.1 ∧ p.1 ≤ n)
    (hbin : ∀ k, ((bin placed k).map w).sum ≤ m) :
    (placed.map (fun p => w p.2)).sum ≤ n * m := by
  rw [sum_bins w h]
  have hle := List.sum_le_card_nsmul
    ((List.range' 1 n).map (fun k => ((bin placed k).map w).sum)) m (by
      intro x hx
      obtain ⟨k, _, rfl⟩ := List.mem_map.mp hx
      exact hbin k)
  simpa using hle

/-- Bins that each hold something of the weight hold together one for each of them. -/
theorem le_sum_of_bins {w : α → Nat} (h : ∀ p ∈ placed, 1 ≤ p.1 ∧ p.1 ≤ n)
    (hbin : ∀ k, 1 ≤ k → k ≤ n → ∃ x ∈ bin placed k, 1 ≤ w x) :
    n ≤ (placed.map (fun p => w p.2)).sum := by
  rw [sum_bins w h]
  have hle := List.card_nsmul_le_sum
    ((List.range' 1 n).map (fun k => ((bin placed k).map w).sum)) 1 (by
      intro m hm
      obtain ⟨k, hk, rfl⟩ := List.mem_map.mp hm
      obtain ⟨hlow, hhigh⟩ := List.mem_range'_1.mp hk
      obtain ⟨x, hx, hw⟩ := hbin k hlow (by omega)
      exact hw.trans (List.single_le_sum (by simp) _ (List.mem_map_of_mem hx)))
  simpa using hle

/-- **The first item left over finds no room in any bin**, with all the items before
it placed. -/
theorem pack_left (h : (pack room n placed xs).2 ≠ []) :
    ∃ before x after, xs = before ++ x :: after ∧
      (pack room n placed before).2 = [] ∧
      ∀ k, 1 ≤ k → k ≤ n → room (bin (pack room n placed before).1 k) x = false := by
  induction xs generalizing placed with
  | nil => exact absurd rfl h
  | cons x xs ih =>
      cases hchoose : choose? room n placed x with
      | none =>
          refine ⟨[], x, xs, rfl, rfl, ?_⟩
          intro k hlow hhigh
          have hfull := List.find?_eq_none.mp hchoose k
            (List.mem_range'_1.mpr ⟨hlow, by omega⟩)
          exact Bool.eq_false_iff.mpr hfull
      | some k =>
          simp only [pack, hchoose] at h
          obtain ⟨before, y, after, rfl, hplaced, hfull⟩ := ih h
          refine ⟨x :: before, y, after, rfl, ?_, ?_⟩
          · simpa only [pack, hchoose] using hplaced
          · simpa only [pack, hchoose] using hfull

end FirstFit
