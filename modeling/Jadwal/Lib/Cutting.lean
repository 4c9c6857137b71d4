import Mathlib.Data.List.Basic

/-!
# Cutting a pattern out of a text

A pattern is a partial function: what is left behind a match at the front of
a text.  `cut` goes through a text from left to right and leaves the matches
out; `marks` keeps them, marked.  The question is which occurrences are left,
or formed, by a cut (`occurs_cut_iff`), and which survive it (`Apart`).
-/

universe u

namespace Cutting

variable {α : Type u}

/-- What is left behind a match at the front of a text. -/
abbrev Pattern (α : Type u) := List α → Option (List α)

/-- A match is a word that is not empty, and a match whatever follows it. -/
structure Lawful (p : Pattern α) : Prop where
  split : ∀ {l r}, p l = some r → ∃ m, m ≠ [] ∧ l = m ++ r ∧ p m = some []
  extend : ∀ {m}, p m = some [] → ∀ r, p (m ++ r) = some r

/-- A pattern given by its words is lawful. -/
theorem Lawful.of_words {p : Pattern α} {Word : List α → Prop}
    (h : ∀ {l r}, p l = some r ↔ ∃ m, Word m ∧ l = m ++ r) (hne : ¬ Word []) : Lawful p where
  split {l r} hl := by
    obtain ⟨m, hm, rfl⟩ := h.mp hl
    exact ⟨m, fun hnil => hne (hnil ▸ hm), rfl, h.mpr ⟨m, hm, (List.append_nil m).symm⟩⟩
  extend {m} hm r := by
    obtain ⟨m', hm', heq⟩ := h.mp hm
    rw [List.append_nil] at heq
    exact h.mpr ⟨m', hm', by rw [heq]⟩

/-- A list a pattern takes whole is one of its words. -/
theorem word_of_match {p : Pattern α} {Word : List α → Prop}
    (h : ∀ {l r}, p l = some r ↔ ∃ m, Word m ∧ l = m ++ r) {m : List α} (hm : p m = some []) :
    Word m := by
  obtain ⟨m', hm', heq⟩ := h.mp hm
  rw [List.append_nil] at heq
  exact heq ▸ hm'

/-- Leaves out the matches, from left to right, for so many steps. -/
def cutFrom (p : Pattern α) : Nat → List α → List α
  | 0, l => l
  | _ + 1, [] => []
  | fuel + 1, a :: l =>
      match p (a :: l) with
      | some rest => cutFrom p fuel rest
      | none => a :: cutFrom p fuel l

def cut (p : Pattern α) (l : List α) : List α := cutFrom p l.length l

/-- The text with the matches marked. -/
def marksFrom (p : Pattern α) : Nat → List α → List (α × Bool)
  | 0, l => l.map (·, false)
  | _ + 1, [] => []
  | fuel + 1, a :: l =>
      match p (a :: l) with
      | some rest =>
          ((a :: l).take ((a :: l).length - rest.length)).map (·, true) ++ marksFrom p fuel rest
      | none => (a, false) :: marksFrom p fuel l

def marks (p : Pattern α) (l : List α) : List (α × Bool) := marksFrom p l.length l

/-- What is not marked. -/
def kept (x : List (α × Bool)) : List α := (x.filter (fun e => !e.2)).map Prod.fst

/-- A match somewhere in the text. -/
def Occurs (q : Pattern α) (l : List α) : Prop := ∃ a m c, l = a ++ m ++ c ∧ q m = some []

/-- **A cut joins a word of `q`**: it has kept text before and behind something marked. -/
def Joins (q p : Pattern α) (l : List α) : Prop :=
  ∃ a b e d c, marks p l = a ++ (b ++ e :: d) ++ c ∧ e.2 = true ∧ kept b ≠ [] ∧ kept d ≠ [] ∧
    q (kept b ++ kept d) = some []

variable {p q : Pattern α} {l : List α}

@[simp] theorem kept_nil : kept ([] : List (α × Bool)) = [] := rfl

@[simp] theorem kept_append (x y : List (α × Bool)) : kept (x ++ y) = kept x ++ kept y := by
  simp [kept]

@[simp] theorem kept_cons_true (a : α) (x : List (α × Bool)) : kept ((a, true) :: x) = kept x := rfl

@[simp] theorem kept_cons_false (a : α) (x : List (α × Bool)) :
    kept ((a, false) :: x) = a :: kept x := rfl

@[simp] theorem kept_map_true (l : List α) : kept (l.map (·, true)) = [] := by
  induction l with
  | nil => rfl
  | cons a l ih => exact ih

@[simp] theorem kept_map_false (l : List α) : kept (l.map (·, false)) = l := by
  induction l with
  | nil => rfl
  | cons a l ih => rw [List.map_cons, kept_cons_false, ih]

/-- Where nothing is marked, all is kept. -/
theorem kept_eq_map {x : List (α × Bool)} (h : ∀ e ∈ x, e.2 = false) : kept x = x.map Prod.fst := by
  rw [kept, List.filter_eq_self.mpr fun e he => by rw [h e he]; rfl]

/-- A lawful pattern takes no empty list. -/
theorem Lawful.ne_nil (hp : Lawful p) {m : List α} (h : p m = some []) : m ≠ [] := by
  obtain ⟨m', hne, heq, _⟩ := hp.split h
  rw [heq, List.append_nil]
  exact hne

/-- The cut is what the marks leave. -/
theorem kept_marksFrom (p : Pattern α) (fuel : Nat) (l : List α) :
    kept (marksFrom p fuel l) = cutFrom p fuel l := by
  induction fuel generalizing l with
  | zero => exact kept_map_false l
  | succ fuel ih =>
      cases l with
      | nil => rfl
      | cons a l =>
          rw [marksFrom, cutFrom]
          cases p (a :: l) with
          | some rest => simp only [kept_append, kept_map_true, List.nil_append, ih]
          | none => simp only [kept_cons_false, ih]

/-- What is not marked is what the cut leaves. -/
theorem kept_marks (p : Pattern α) (l : List α) : kept (marks p l) = cut p l :=
  kept_marksFrom p l.length l

/-- Without the marks the text is there. -/
theorem map_fst_marksFrom (hp : Lawful p) (fuel : Nat) (l : List α) :
    (marksFrom p fuel l).map Prod.fst = l := by
  induction fuel generalizing l with
  | zero => simp [marksFrom, Function.comp_def]
  | succ fuel ih =>
      cases l with
      | nil => rfl
      | cons a l =>
          rw [marksFrom]
          cases hmatch : p (a :: l) with
          | none => simp only [List.map_cons, ih]
          | some rest =>
              obtain ⟨m, _, heq, _⟩ := hp.split hmatch
              simp only [List.map_append, ih, List.map_map, heq, List.length_append,
                Nat.add_sub_cancel, List.take_left']
              simp [Function.comp_def]

/-- Marking drops nothing. -/
theorem map_fst_marks (hp : Lawful p) (l : List α) : (marks p l).map Prod.fst = l :=
  map_fst_marksFrom hp l.length l

/-- **Nothing matches where nothing is marked.** -/
theorem unmarked (hp : Lawful p) {fuel : Nat} (hfuel : l.length ≤ fuel)
    {a b : List (α × Bool)} {e : α} (h : marksFrom p fuel l = a ++ (e, false) :: b) :
    p (e :: b.map Prod.fst) = none := by
  induction fuel generalizing l a with
  | zero =>
      obtain rfl := List.length_eq_zero_iff.mp (Nat.le_zero.mp hfuel)
      simp [marksFrom] at h
  | succ fuel ih =>
      cases l with
      | nil => simp [marksFrom] at h
      | cons a₀ l =>
          rw [List.length_cons] at hfuel
          rw [marksFrom] at h
          cases hmatch : p (a₀ :: l) with
          | none =>
              simp only [hmatch] at h
              cases a with
              | nil =>
                  obtain ⟨he, hb⟩ := List.cons.inj h
                  obtain rfl := (Prod.mk.inj he).1
                  rw [← hb, map_fst_marksFrom hp]
                  exact hmatch
              | cons a₁ a =>
                  exact ih (by omega) (List.cons.inj h).2
          | some rest =>
              simp only [hmatch] at h
              obtain ⟨m, hne, heq, _⟩ := hp.split hmatch
              have hlength := congrArg List.length heq
              have hpos := List.length_pos_iff.mpr hne
              rw [List.length_cons, List.length_append] at hlength
              rcases List.append_eq_append_iff.mp h with ⟨x, ha, hrest⟩ | ⟨x, hmarked, hrest⟩
              · exact ih (by omega) hrest
              · -- the block of the match is marked throughout
                cases x with
                | nil => exact ih (a := []) (by omega) hrest.symm
                | cons x₀ x =>
                    have hmem : x₀ ∈ ((a₀ :: l).take ((a₀ :: l).length - rest.length)).map
                        (·, true) := by
                      rw [hmarked]
                      simp
                    obtain ⟨_, _, rfl⟩ := List.mem_map.mp hmem
                    exact nomatch (Prod.mk.inj (List.cons.inj hrest).1).2

/-- Kept text at the front, up to the last of the text or to a mark with more of it behind. -/
theorem together_or_marked (x : List (α × Bool)) :
    (∃ y c, x = y ++ c ∧ (∀ e ∈ y, e.2 = false) ∧ kept c = []) ∨
      ∃ y e d, x = y ++ e :: d ∧ e.2 = true ∧ kept d ≠ [] := by
  induction x with
  | nil => exact .inl ⟨[], [], rfl, by simp, rfl⟩
  | cons e x ih =>
      obtain ⟨a, marked⟩ := e
      cases marked with
      | true =>
          by_cases hkept : kept x = []
          · exact .inl ⟨[], (a, true) :: x, rfl, by simp, hkept⟩
          · exact .inr ⟨[], (a, true), x, rfl, rfl, hkept⟩
      | false =>
          rcases ih with ⟨y, c, rfl, hy, hc⟩ | ⟨y, e, d, rfl, hrest⟩
          · refine .inl ⟨(a, false) :: y, c, rfl, fun e he => ?_, hc⟩
            rcases List.mem_cons.mp he with rfl | he
            · rfl
            · exact hy e he
          · exact .inr ⟨(a, false) :: y, e, d, rfl, hrest⟩

/-- Kept text stands together, or there is something marked inside it. -/
theorem joined_or_together {x : List (α × Bool)} (h : kept x ≠ []) :
    (∃ b e d, x = b ++ e :: d ∧ e.2 = true ∧ kept b ≠ [] ∧ kept d ≠ []) ∨
      ∃ a y c, x = a ++ y ++ c ∧ (∀ e ∈ y, e.2 = false) ∧ kept x = y.map Prod.fst := by
  induction x with
  | nil => exact absurd rfl h
  | cons e x ih =>
      obtain ⟨a, marked⟩ := e
      cases marked with
      | true =>
          rw [kept_cons_true] at h ⊢
          rcases ih h with ⟨b, e, d, rfl, hrest⟩ | ⟨a', y, c, rfl, hrest⟩
          · exact .inl ⟨(a, true) :: b, e, d, rfl, hrest⟩
          · exact .inr ⟨(a, true) :: a', y, c, rfl, hrest⟩
      | false =>
          -- the marks behind the first character, up to the next one kept
          by_cases hrest : ∃ y c, x = y ++ c ∧ (∀ e ∈ y, e.2 = false) ∧ kept c = []
          · obtain ⟨y, c, rfl, hy, hc⟩ := hrest
            refine .inr ⟨[], (a, false) :: y, c, rfl, fun e he => ?_, ?_⟩
            · rcases List.mem_cons.mp he with rfl | he
              · rfl
              · exact hy e he
            · rw [kept_cons_false, kept_append, hc, List.append_nil, kept_eq_map hy, List.map_cons]
          · refine .inl ?_
            obtain ⟨y, e, d, rfl, hmarked, hd⟩ := (together_or_marked x).resolve_left hrest
            exact ⟨(a, false) :: y, e, d, rfl, hmarked, by simp, hd⟩

/-- A part of what is kept is kept of a part. -/
theorem exists_append_of_kept {x : List (α × Bool)} {a m c : List α}
    (h : kept x = a ++ m ++ c) :
    ∃ a' x' c', x = a' ++ x' ++ c' ∧ kept x' = m := by
  obtain ⟨l₁, c', hx, h₁, _⟩ := List.map_eq_append_iff.mp h
  obtain ⟨a₁, m₁, rfl, _, hm⟩ := List.map_eq_append_iff.mp h₁
  obtain ⟨x₁, x₂, rfl, hleft, _⟩ := List.filter_eq_append_iff.mp hx
  obtain ⟨x₃, x₄, rfl, _, hmid⟩ := List.filter_eq_append_iff.mp hleft
  exact ⟨x₃, x₄, x₂, rfl, by rw [kept, hmid, hm]⟩

/-- **What a cut leaves it has joined**, when it is of the pattern cut, or was not there before. -/
theorem occurs_cut_iff (hp : Lawful p) (hq : Lawful q) (hclean : q = p ∨ ¬ Occurs q l) :
    Occurs q (cut p l) ↔ Joins q p l := by
  constructor
  · rintro ⟨a, m, c, hcut, hm⟩
    rw [← kept_marks] at hcut
    obtain ⟨a', x, c', hmarks, hkept⟩ := exists_append_of_kept hcut
    have hne : kept x ≠ [] := hkept ▸ hq.ne_nil hm
    rcases joined_or_together hne with ⟨b, e, d, rfl, he, hb, hd⟩ | ⟨a₁, y, c₁, rfl, hy, hword⟩
    · refine ⟨a', b, e, d, c', hmarks, he, hb, hd, ?_⟩
      obtain ⟨e, marked⟩ := e
      obtain rfl : marked = true := he
      rw [kept_append, kept_cons_true] at hkept
      rw [hkept]
      exact hm
    · -- the word stands in the text as it was
      have hword : y.map Prod.fst = m := hword.symm.trans hkept
      have htext : l = (a' ++ a₁).map Prod.fst ++ m ++ (c₁ ++ c').map Prod.fst := by
        rw [← map_fst_marks hp l, hmarks, ← hword]
        simp
      rcases hclean with rfl | hnone
      · cases y with
        | nil => exact absurd hword.symm (hq.ne_nil hm)
        | cons e y =>
            obtain ⟨e, marked⟩ := e
            obtain rfl : marked = false := hy _ List.mem_cons_self
            have hmarks : marks q l = (a' ++ a₁) ++ (e, false) :: (y ++ (c₁ ++ c')) := by
              rw [hmarks]
              simp
            have hnomatch := unmarked hp (Nat.le_refl _) hmarks
            have hmatch := hp.extend hm ((c₁ ++ c').map Prod.fst)
            rw [← hword] at hmatch
            rw [List.map_append] at hnomatch
            exact nomatch hnomatch.symm.trans hmatch
      · exact absurd ⟨_, m, _, htext, hm⟩ hnone
  · rintro ⟨a, b, e, d, c, hmarks, he, _, _, hword⟩
    obtain ⟨e, marked⟩ := e
    obtain rfl : marked = true := he
    refine ⟨kept a, kept b ++ kept d, kept c, ?_, hword⟩
    rw [← kept_marks, hmarks, kept_append, kept_append, kept_append, kept_cons_true]

/-! ## What a cut leaves as it is -/

/-- A cut only removes. -/
theorem cutFrom_sublist (hp : Lawful p) (fuel : Nat) (l : List α) :
    (cutFrom p fuel l).Sublist l := by
  rw [← kept_marksFrom]
  have hsub := (List.filter_sublist (p := fun e : α × Bool => !e.2)
    (l := marksFrom p fuel l)).map Prod.fst
  rwa [map_fst_marksFrom hp] at hsub

theorem cut_sublist (hp : Lawful p) (l : List α) : (cut p l).Sublist l :=
  cutFrom_sublist hp l.length l

/-- What is taken at some place occurs. -/
theorem Occurs.of_match (hp : Lawful p) {r : List α} (h : p l = some r) (a : List α) :
    Occurs p (a ++ l) := by
  obtain ⟨m, _, rfl, hm⟩ := hp.split h
  exact ⟨a, m, r, by rw [List.append_assoc], hm⟩

/-- A text without a match is left alone. -/
theorem cutFrom_of_not_occurs (hp : Lawful p) (fuel : Nat) {l : List α} (h : ¬ Occurs p l) :
    cutFrom p fuel l = l := by
  induction fuel generalizing l with
  | zero => rfl
  | succ fuel ih =>
      cases l with
      | nil => rfl
      | cons a l =>
          rw [cutFrom]
          cases hmatch : p (a :: l) with
          | some rest => exact absurd (Occurs.of_match hp hmatch []) h
          | none =>
              refine congrArg (a :: ·) (ih fun ⟨x, m, c, heq, hm⟩ => h ⟨a :: x, m, c, ?_, hm⟩)
              rw [heq]
              rfl

/-- Where nothing occurs, nothing is cut. -/
theorem cut_of_not_occurs (hp : Lawful p) (h : ¬ Occurs p l) : cut p l = l :=
  cutFrom_of_not_occurs hp l.length h

/-- A text with a match gets shorter. -/
theorem length_cut_lt (hp : Lawful p) (h : Occurs p l) : (cut p l).length < l.length := by
  refine Nat.lt_of_le_of_ne (cut_sublist hp l).length_le fun hlength => ?_
  have hsame : cut p l = l := (cut_sublist hp l).eq_of_length hlength
  obtain ⟨a, m, c, hl, hm⟩ := h
  have hall : ∀ e ∈ marks p l, e.2 = false := by
    have hkept := kept_marks p l
    rw [hsame] at hkept
    have hcount : ((marks p l).filter (fun e => !e.2)).length = (marks p l).length := by
      have hleft := congrArg List.length hkept
      have hright := congrArg List.length (map_fst_marks hp l)
      rw [kept, List.length_map] at hleft
      rw [List.length_map] at hright
      rw [hleft, hright]
    intro e he
    have hfilter := List.filter_eq_self.mp (List.filter_sublist.eq_of_length hcount) e he
    simpa using hfilter
  have htext := map_fst_marks hp l
  rw [hl] at htext
  obtain ⟨x, c', hx, hleft, hc⟩ := List.map_eq_append_iff.mp htext
  obtain ⟨a', y, rfl, _, hy⟩ := List.map_eq_append_iff.mp hleft
  cases y with
  | nil => exact hp.ne_nil hm hy.symm
  | cons e y =>
      obtain ⟨e, marked⟩ := e
      rw [← hl] at hx
      have hmem : (e, marked) ∈ marks p l := by
        rw [hx]
        simp
      obtain rfl : marked = false := hall (e, marked) hmem
      have hmarks : marks p l = a' ++ (e, false) :: (y ++ c') := by
        rw [hx]
        simp
      have hnomatch := unmarked hp (Nat.le_refl _) hmarks
      have hmatch := hp.extend hm c
      rw [← hy, ← hc] at hmatch
      rw [List.map_append] at hnomatch
      exact nomatch hnomatch.symm.trans hmatch

/-! ## What survives a cut -/

/-- No match of `p` begins inside a word of `q` or reaches into one. -/
structure Apart (q p : Pattern α) : Prop where
  inside : ∀ {x y}, q (x ++ y) = some [] → y ≠ [] → ∀ c, p (y ++ c) = none
  before : ∀ {a m c r}, a ≠ [] → q m = some [] → p (a ++ m ++ c) = some r →
    (m ++ c).length ≤ r.length

/-- A match that begins in front of a word ends there, or reaches into the word. -/
theorem reaches {a m c w r : List α} (h : a ++ m ++ c = w ++ r) :
    (m ++ c).length ≤ r.length ∨ ∃ x, x ≠ [] ∧ w = a ++ x ∧ m ++ c = x ++ r := by
  rw [List.append_assoc] at h
  rcases List.append_eq_append_iff.mp h with ⟨x, hw, hrest⟩ | ⟨x, _, hrest⟩
  · cases x with
    | nil => exact .inl (by rw [hrest]; simp)
    | cons e x => exact .inr ⟨e :: x, List.cons_ne_nil e x, hw, hrest⟩
  · exact .inl (by rw [hrest]; simp)

/-- Inside a word apart from the pattern nothing is cut. -/
theorem cutFrom_inside (hap : Apart q p) (y : List α) {x c : List α} {fuel : Nat}
    (hword : q (x ++ y) = some []) (hfuel : y.length ≤ fuel) :
    cutFrom p fuel (y ++ c) = y ++ cutFrom p (fuel - y.length) c := by
  induction y generalizing x fuel with
  | nil => rfl
  | cons a y ih =>
      rw [List.length_cons] at hfuel
      obtain ⟨fuel, rfl⟩ := Nat.exists_eq_succ_of_ne_zero (show fuel ≠ 0 by omega)
      have hnomatch := hap.inside hword (List.cons_ne_nil a y) c
      have hrest : q ((x ++ [a]) ++ y) = some [] := by
        rw [List.append_assoc]
        exact hword
      simp only [List.cons_append] at hnomatch ⊢
      rw [cutFrom, hnomatch, List.length_cons, Nat.succ_sub_succ]
      exact congrArg (a :: ·) (ih hrest (by omega))

/-- **A word no match meets survives the cut.** -/
theorem cutFrom_survives (hp : Lawful p) (hap : Apart q p) {m c : List α} (hm : q m = some [])
    (fuel : Nat) (a : List α) (hfuel : (a ++ m ++ c).length ≤ fuel) :
    ∃ a' c', cutFrom p fuel (a ++ m ++ c) = a' ++ m ++ c' := by
  induction fuel generalizing a with
  | zero => exact ⟨a, c, rfl⟩
  | succ fuel ih =>
      cases a with
      | nil =>
          rw [List.nil_append, List.length_append] at hfuel
          refine ⟨[], cutFrom p (fuel + 1 - m.length) c, ?_⟩
          simp only [List.nil_append]
          exact cutFrom_inside hap m (x := []) hm (by omega)
      | cons a₀ a =>
          simp only [List.cons_append, List.length_cons] at hfuel ⊢
          rw [cutFrom]
          cases hmatch : p (a₀ :: (a ++ m ++ c)) with
          | none =>
              obtain ⟨a', c', heq⟩ := ih a (by omega)
              exact ⟨a₀ :: a', c', by simp only [heq, List.cons_append]⟩
          | some rest =>
              change ∃ a' c', cutFrom p fuel rest = a' ++ m ++ c'
              have hlong := hap.before (List.cons_ne_nil a₀ a) hm hmatch
              obtain ⟨w, hne, heq, _⟩ := hp.split hmatch
              -- the match ends in front of the word
              have heq' : (a₀ :: a) ++ (m ++ c) = w ++ rest := by
                rw [← heq]
                simp
              rcases List.append_eq_append_iff.mp heq' with ⟨x, hw, hrest⟩ | ⟨x, hw, hrest⟩
              · have hx : x = [] := by
                  have hlength := congrArg List.length hrest
                  rw [@List.length_append _ x rest] at hlength
                  exact List.length_eq_zero_iff.mp (by omega)
                rw [hx, List.nil_append] at hrest
                have hshort : ([] ++ m ++ c).length ≤ fuel := by
                  simp only [List.length_append, List.nil_append] at hfuel ⊢
                  omega
                obtain ⟨a', c', hcut⟩ := ih [] hshort
                refine ⟨a', c', ?_⟩
                rw [← hcut, ← hrest]
                simp
              · have hshort : (x ++ m ++ c).length ≤ fuel := by
                  have hpos := List.length_pos_iff.mpr hne
                  have hlength := congrArg List.length hw
                  simp only [List.length_append, List.length_cons] at hlength hfuel ⊢
                  omega
                obtain ⟨a', c', hcut⟩ := ih x hshort
                refine ⟨a', c', ?_⟩
                rw [← hcut, hrest, List.append_assoc x m c]

/-- **A cut leaves the occurrences of a pattern apart from it.** -/
theorem Occurs.cut (hp : Lawful p) (hap : Apart q p) (h : Occurs q l) : Occurs q (cut p l) := by
  obtain ⟨a, m, c, rfl, hm⟩ := h
  obtain ⟨a', c', heq⟩ := cutFrom_survives hp hap hm _ a (Nat.le_refl _)
  exact ⟨a', m, c', heq, hm⟩

end Cutting
