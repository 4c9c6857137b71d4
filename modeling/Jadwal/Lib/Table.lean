import Mathlib.Algebra.BigOperators.Group.List.Basic
import Mathlib.Algebra.Order.BigOperators.Group.List
import Mathlib.Data.List.Nodup
import Mathlib.Tactic.Abel
import Mathlib.Tactic.Ring
import Mathlib.Tactic.Linarith

/-!
# Keyed tables

A **table** is a finite list of rows in insertion order, no two of which
carry the same primary key.  The five statements a relational program
issues against it are total functions here: a lookup by key, a guarded
update of many rows, an update of one row, a guarded delete, and an
insert that fails when the key is taken.  Every one keeps the key
constraint, so the constraint is a field of the structure and is never
proved again.

The lemmas come in three groups: what a lookup finds after each
statement, which rows a table holds after each statement, and how a sum
over the rows moves.  The last group is the one invariants on totals
(ledgers, occupied seats) are proved with.
-/

universe u v w

/-- Rows of type `α` are identified by a primary key of type `κ`. -/
class Keyed (α : Type u) (κ : outParam (Type v)) where
  key : α → κ

/-- A table: rows in insertion order, with pairwise distinct keys. -/
structure Table (α : Type u) {κ : Type v} [Keyed α κ] where
  rows : List α
  nodup : (rows.map Keyed.key).Nodup

namespace Table

variable {α : Type u} {κ : Type v} [Keyed α κ]

open Keyed

/-- A table is its rows. -/
@[ext] theorem ext {s t : Table α} (h : s.rows = t.rows) : s = t := by
  cases s
  cases t
  simpa using h

/-- The table without rows. -/
def empty : Table α := ⟨[], by simp⟩

instance : Inhabited (Table α) := ⟨empty⟩

/-- All rows that satisfy `p`, in insertion order (`findMany`). -/
def select (t : Table α) (p : α → Bool) : List α := t.rows.filter p

/-- The row with key `k` (`findUnique`). -/
def find? [DecidableEq κ] (t : Table α) (k : κ) : Option α :=
  t.rows.find? (fun a => key a = k)

/-- The first row that satisfies `p` (`findFirst`). -/
def first? (t : Table α) (p : α → Bool) : Option α := t.rows.find? p

/-- Rewrites every row that satisfies `p` (`updateMany`). -/
def updateMany (t : Table α) (p : α → Bool) (f : α → α)
    (hf : ∀ a, key (f a) = key a := by intro _; rfl) : Table α where
  rows := t.rows.map (fun a => if p a then f a else a)
  nodup := by
    have hkey : (key ∘ fun a => if p a then f a else a) = (key : α → κ) := by
      funext a
      by_cases hp : p a <;> simp [hp, hf]
    rw [List.map_map, hkey]
    exact t.nodup

/-- Rewrites the row with key `k`, when there is one (`update`). -/
def update [DecidableEq κ] (t : Table α) (k : κ) (f : α → α)
    (hf : ∀ a, key (f a) = key a := by intro _; rfl) : Table α :=
  t.updateMany (fun a => key a = k) f hf

@[simp] theorem update_id [DecidableEq κ] (t : Table α) (k : κ)
    (hf : ∀ a : α, key (id a) = key a) : t.update k id hf = t := by
  ext1
  simp [update, updateMany]

/-- Two updates of one row are one. -/
theorem update_update [DecidableEq κ] (t : Table α) (k : κ) (f g : α → α)
    (hf : ∀ a, key (f a) = key a) (hg : ∀ a, key (g a) = key a) :
    (t.update k f hf).update k g hg =
      t.update k (fun a => g (f a)) (fun a => (hg _).trans (hf a)) := by
  ext1
  simp only [update, updateMany, List.map_map]
  refine List.map_congr_left fun a _ => ?_
  by_cases h : key a = k <;> simp [h, hf]

/-- Conditions that agree on the rows rewrite the same ones. -/
theorem updateMany_congr {t : Table α} {p p' : α → Bool} {f : α → α}
    {hf : ∀ a, key (f a) = key a} (h : ∀ a ∈ t.rows, p a = p' a) :
    t.updateMany p f hf = t.updateMany p' f hf := by
  ext1
  exact List.map_congr_left fun a ha => by rw [h a ha]

/-- Functions that agree on the row update it alike. -/
theorem update_congr [DecidableEq κ] {t : Table α} {k : κ} {f g : α → α}
    {hf : ∀ a, key (f a) = key a} {hg : ∀ a, key (g a) = key a}
    (h : ∀ a ∈ t.rows, key a = k → f a = g a) : t.update k f hf = t.update k g hg := by
  ext1
  simp only [update, updateMany]
  refine List.map_congr_left fun a ha => ?_
  by_cases hk : key a = k <;> simp [hk, h a ha]

/-- A function that keeps the row updates nothing. -/
theorem update_self [DecidableEq κ] {t : Table α} {k : κ} {f : α → α}
    {hf : ∀ a, key (f a) = key a} (h : ∀ a ∈ t.rows, key a = k → f a = a) :
    t.update k f hf = t := by
  ext1
  simp only [update, updateMany]
  refine (List.map_congr_left fun a ha => ?_).trans (List.map_id _)
  by_cases hk : key a = k <;> simp [hk, h a ha]

/-- Removes every row that satisfies `p` (`deleteMany`). -/
def deleteMany (t : Table α) (p : α → Bool) : Table α where
  rows := t.rows.filter (fun a => !p a)
  nodup := t.nodup.sublist (List.Sublist.map _ List.filter_sublist)

/-- Removes the row with key `k` (`delete`). -/
def delete [DecidableEq κ] (t : Table α) (k : κ) : Table α :=
  t.deleteMany (fun a => key a = k)

/-- Appends a row, unless its key is taken (`create`). -/
def insert? [DecidableEq κ] (t : Table α) (a : α) : Option (Table α) :=
  if h : key a ∈ t.rows.map key then none
  else some ⟨t.rows ++ [a], by
    rw [List.map_append, List.nodup_append]
    refine ⟨t.nodup, by simp, ?_⟩
    intro x hx y hy hxy
    simp only [List.map_cons, List.map_nil, List.mem_singleton] at hy
    exact h (hy ▸ hxy ▸ hx)⟩

/-! ## Rows after a statement -/

@[simp] theorem rows_empty : (empty : Table α).rows = [] := rfl

theorem mem_select {t : Table α} {p : α → Bool} {a : α} :
    a ∈ t.select p ↔ a ∈ t.rows ∧ p a = true := by
  simp [select]

theorem mem_updateMany {t : Table α} {p : α → Bool} {f : α → α}
    {hf : ∀ a, key (f a) = key a} {b : α} :
    b ∈ (t.updateMany p f hf).rows ↔
      ∃ a ∈ t.rows, (if p a then f a else a) = b := by
  simp [updateMany]

theorem mem_deleteMany {t : Table α} {p : α → Bool} {a : α} :
    a ∈ (t.deleteMany p).rows ↔ a ∈ t.rows ∧ p a = false := by
  simp [deleteMany]

variable [DecidableEq κ]

theorem mem_update {t : Table α} {k : κ} {f : α → α}
    {hf : ∀ a, key (f a) = key a} {b : α} :
    b ∈ (t.update k f hf).rows ↔
      ∃ a ∈ t.rows, (if key a = k then f a else a) = b := by
  simp [update, mem_updateMany]

theorem mem_delete {t : Table α} {k : κ} {a : α} :
    a ∈ (t.delete k).rows ↔ a ∈ t.rows ∧ key a ≠ k := by
  simp [delete, mem_deleteMany]

/-- A successful insert took a free key and appended the row. -/
theorem insert?_eq_some {t t' : Table α} {a : α} :
    t.insert? a = some t' ↔
      key a ∉ t.rows.map key ∧ t'.rows = t.rows ++ [a] := by
  by_cases h : key a ∈ t.rows.map key
  · simp [insert?, h]
  · simp only [insert?, h, dite_false, Option.some.injEq, not_false_eq_true,
      true_and]
    constructor
    · rintro rfl
      rfl
    · intro hr
      ext1
      exact hr.symm

theorem mem_of_insert? {t t' : Table α} {a b : α} (h : t.insert? a = some t') :
    b ∈ t'.rows ↔ b ∈ t.rows ∨ b = a := by
  rw [(insert?_eq_some.mp h).2]
  simp

/-- Updating the row just inserted touches no other row. -/
theorem rows_update_of_insert? {t t' : Table α} {a : α}
    (h : t.insert? a = some t') (f : α → α) (hf : ∀ a, key (f a) = key a) :
    (t'.update (key a) f hf).rows = t.rows ++ [f a] := by
  obtain ⟨hfree, hrows⟩ := insert?_eq_some.mp h
  have hold : t.rows.map (fun b => if key b = key a then f b else b) = t.rows := by
    conv_rhs => rw [← List.map_id t.rows]
    refine List.map_congr_left fun b hb => ?_
    have hne : key b ≠ key a := fun he => hfree (List.mem_map.mpr ⟨b, hb, he⟩)
    simp [hne]
  simp [update, updateMany, hrows, hold]

/-! ## Lookups -/

omit [DecidableEq κ] in
/-- Two rows of one table with the same key are the same row. -/
theorem key_inj {t : Table α} {a b : α} (ha : a ∈ t.rows) (hb : b ∈ t.rows)
    (h : key a = key b) : a = b :=
  List.inj_on_of_nodup_map t.nodup ha hb h

/-- A lookup finds exactly the row of the table that carries the key. -/
theorem find?_eq_some {t : Table α} {k : κ} {a : α} :
    t.find? k = some a ↔ a ∈ t.rows ∧ key a = k := by
  constructor
  · intro h
    exact ⟨List.mem_of_find?_eq_some h, by simpa using List.find?_some h⟩
  · rintro ⟨ha, hk⟩
    cases hf : t.find? k with
    | none =>
        have := List.find?_eq_none.mp hf a ha
        simp [hk] at this
    | some b =>
        have hb := List.mem_of_find?_eq_some hf
        have hbk : key b = k := by simpa using List.find?_some hf
        rw [key_inj hb ha (hbk.trans hk.symm)]

/-- Nothing is found under a key no row has. -/
theorem find?_eq_none {t : Table α} {k : κ} :
    t.find? k = none ↔ ∀ a ∈ t.rows, key a ≠ k := by
  simp [find?, List.find?_eq_none]

/-- A row is found under its key. -/
theorem find?_key {t : Table α} {a : α} (ha : a ∈ t.rows) :
    t.find? (key a) = some a :=
  find?_eq_some.mpr ⟨ha, rfl⟩

/-- `updateMany` under a key. -/
theorem find?_updateMany (t : Table α) (p : α → Bool) (f : α → α)
    (hf : ∀ a, key (f a) = key a) (k : κ) :
    (t.updateMany p f hf).find? k =
      (t.find? k).map (fun a => if p a then f a else a) := by
  cases h : t.find? k with
  | none =>
      rw [find?_eq_none] at h
      simp only [Option.map_none, find?_eq_none, mem_updateMany]
      rintro b ⟨a, ha, rfl⟩
      by_cases hp : p a <;> simp [hp, hf, h a ha]
  | some a =>
      obtain ⟨ha, hk⟩ := find?_eq_some.mp h
      simp only [Option.map_some, find?_eq_some, mem_updateMany]
      refine ⟨⟨a, ha, rfl⟩, ?_⟩
      by_cases hp : p a <;> simp [hp, hf, hk]

/-- `update` under a key. -/
theorem find?_update (t : Table α) (k : κ) (f : α → α)
    (hf : ∀ a, key (f a) = key a) (k' : κ) :
    (t.update k f hf).find? k' =
      if k' = k then (t.find? k').map f else t.find? k' := by
  rw [update, find?_updateMany]
  cases h : t.find? k' with
  | none => simp
  | some a =>
      have hk := (find?_eq_some.mp h).2
      by_cases he : k' = k <;> simp [hk, he]

/-- An update shows nothing to a reader of other columns. -/
theorem find?_update_map {β : Type w} (t : Table α) (k : κ) (f : α → α)
    (hf : ∀ a, key (f a) = key a) (g : α → β) (hg : ∀ a, g (f a) = g a) (k' : κ) :
    ((t.update k f hf).find? k').map g = (t.find? k').map g := by
  rw [find?_update]
  split
  · rw [Option.map_map]
    exact congrArg (Option.map · _) (funext hg)
  · rfl

/-- `deleteMany` under a key. -/
theorem find?_deleteMany (t : Table α) (p : α → Bool) (k : κ) :
    (t.deleteMany p).find? k = (t.find? k).filter (fun a => !p a) := by
  cases h : t.find? k with
  | none =>
      rw [find?_eq_none] at h
      simp only [Option.filter_none, find?_eq_none, mem_deleteMany]
      exact fun a ha => h a ha.1
  | some a =>
      obtain ⟨ha, hk⟩ := find?_eq_some.mp h
      by_cases hp : p a
      · have hnone : (t.deleteMany p).find? k = none := by
          rw [find?_eq_none]
          intro b hb hbk
          have hb' := mem_deleteMany.mp hb
          rw [key_inj hb'.1 ha (hbk.trans hk.symm), hp] at hb'
          simp at hb'
        simp [hnone, Option.filter, hp]
      · have hmem : a ∈ (t.deleteMany p).rows :=
          mem_deleteMany.mpr ⟨ha, by simpa using hp⟩
        rw [find?_eq_some.mpr ⟨hmem, hk⟩]
        simp [Option.filter, hp]

/-- `delete` under a key. -/
theorem find?_delete (t : Table α) (k k' : κ) :
    (t.delete k).find? k' = if k' = k then none else t.find? k' := by
  rw [delete, find?_deleteMany]
  cases h : t.find? k' with
  | none => simp
  | some a =>
      have hk := (find?_eq_some.mp h).2
      by_cases he : k' = k <;> simp [hk, he]

/-- `insert?` under a key. -/
theorem find?_insert? {t t' : Table α} {a : α} (h : t.insert? a = some t')
    (k : κ) :
    t'.find? k = if k = key a then some a else t.find? k := by
  by_cases hk : k = key a
  · simpa [hk] using
      find?_eq_some.mpr ⟨(mem_of_insert? h).mpr (Or.inr rfl), rfl⟩
  · simp only [hk, if_false]
    cases hf : t.find? k with
    | none =>
        rw [find?_eq_none] at hf ⊢
        intro b hb
        rcases (mem_of_insert? h).mp hb with hb | rfl
        · exact hf b hb
        · exact fun he => hk he.symm
    | some b =>
        obtain ⟨hb, hbk⟩ := find?_eq_some.mp hf
        exact find?_eq_some.mpr ⟨(mem_of_insert? h).mpr (Or.inl hb), hbk⟩

/-! ## First rows -/

omit [DecidableEq κ] in
/-- The first match is a row that matches. -/
theorem first?_eq_some {t : Table α} {p : α → Bool} {a : α} (h : t.first? p = some a) :
    a ∈ t.rows ∧ p a = true :=
  ⟨List.mem_of_find?_eq_some h, List.find?_some h⟩

omit [DecidableEq κ] in
/-- No match means no row matches. -/
theorem first?_eq_none {t : Table α} {p : α → Bool} :
    t.first? p = none ↔ ∀ a ∈ t.rows, ¬ p a = true := by
  simp [first?, List.find?_eq_none]

omit [DecidableEq κ] in
/-- A condition that no rewrite touches finds the rewritten row. -/
theorem first?_updateMany (t : Table α) (p : α → Bool) (f : α → α)
    (hf : ∀ a, key (f a) = key a) (q : α → Bool) (hq : ∀ a, q (f a) = q a) :
    (t.updateMany p f hf).first? q =
      (t.first? q).map (fun a => if p a then f a else a) := by
  have hcomp : q ∘ (fun a => if p a then f a else a) = q := by
    funext a
    by_cases hp : p a <;> simp [hp, hq]
  simp only [first?, updateMany, List.find?_map, hcomp]

omit [DecidableEq κ] in
/-- Deleting rows that do not meet the condition leaves the first one that
does. -/
theorem first?_deleteMany (t : Table α) (p q : α → Bool)
    (h : ∀ a ∈ t.rows, p a = true → ¬ q a = true) :
    (t.deleteMany p).first? q = t.first? q := by
  simp only [first?, deleteMany]
  revert h
  induction t.rows with
  | nil => intro _; rfl
  | cons a l ih =>
      intro h
      have hl := ih (fun b hb => h b (by simp [hb]))
      by_cases hp : p a = true
      · have hq : q a = false := by simpa using h a (by simp) hp
        simp [hp, hq, hl]
      · by_cases hq : q a = true <;> simp [hp, hq, hl]

/-- A condition that only the row with key `k` can meet is a lookup. -/
theorem first?_eq_find? {t : Table α} {q : α → Bool} {k : κ}
    (h : ∀ a ∈ t.rows, q a = true ↔ key a = k) : t.first? q = t.find? k := by
  cases hq : t.first? q with
  | none =>
      rw [first?_eq_none] at hq
      exact (find?_eq_none.mpr fun a ha hk => hq a ha ((h a ha).mpr hk)).symm
  | some a =>
      obtain ⟨ha, hqa⟩ := first?_eq_some hq
      exact (find?_eq_some.mpr ⟨ha, (h a ha).mp hqa⟩).symm

/-! ## Sums over the rows -/

/-- The sum of `m` over all rows. -/
def total {M : Type w} [AddCommMonoid M] (t : Table α) (m : α → M) : M :=
  (t.rows.map m).sum

/-- A sum after one row has been replaced. -/
private theorem sum_map_replace {M : Type w} [AddCommMonoid M] (m : α → M)
    (f : α → α) (k : κ) :
    ∀ l : List α, (l.map key).Nodup → ∀ a ∈ l, key a = k →
      (l.map (fun b => m (if key b = k then f b else b))).sum + m a =
        (l.map m).sum + m (f a) := by
  intro l
  induction l with
  | nil => simp
  | cons b l ih =>
      intro hnd a ha hk
      rw [List.map_cons, List.nodup_cons] at hnd
      rcases List.mem_cons.mp ha with rfl | ha
      · have hrest : l.map (fun b => m (if key b = k then f b else b)) =
            l.map m := by
          refine List.map_congr_left fun c hc => ?_
          have : key c ≠ k := fun he =>
            hnd.1 (List.mem_map.mpr ⟨c, hc, he.trans hk.symm⟩)
          simp [this]
        simp only [List.map_cons, List.sum_cons, hk, if_true, hrest]
        abel
      · have hb : key b ≠ k := fun he =>
          hnd.1 (List.mem_map.mpr ⟨a, ha, hk.trans he.symm⟩)
        have := ih hnd.2 a ha hk
        simp only [List.map_cons, List.sum_cons, if_neg hb, add_assoc, this]

/-- Updating one row moves a sum by that row's change. -/
theorem total_update {M : Type w} [AddCommMonoid M] (t : Table α) (k : κ)
    (f : α → α) (hf : ∀ a, key (f a) = key a) (m : α → M) {a : α}
    (ha : t.find? k = some a) :
    (t.update k f hf).total m + m a = t.total m + m (f a) := by
  obtain ⟨hmem, hk⟩ := find?_eq_some.mp ha
  simpa [total, update, updateMany, Function.comp_def] using
    sum_map_replace m f k t.rows t.nodup a hmem hk

end Table
