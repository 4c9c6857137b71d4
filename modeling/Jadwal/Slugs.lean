import Jadwal.Lib.Decimal
import Jadwal.Preview
import Mathlib

/-!
# Slugs

The web application derives a slug from an English title, in a field nobody can correct; the API
accepts what its pattern matches, and `registerVendor` looks for the first variant that is free.
What is asked: that every title gives a slug the API accepts, or none at all
(`slugify_accepted_iff`), that the slugs the API can have accepted from it are exactly those it
leaves as they are (`slugify_fixes_iff`), which slug a registration gets while others register and
leave (`registration_slug_iff`), and how many vendors may have one name
(`same_name_registers_iff`).
-/

namespace Jadwal

open Decimal (digits isDigit_of_mem)

/-! ## The pattern -/

/-- `[a-z0-9]` -/
def isSlugChar (c : Char) : Bool := ('a' ≤ c ∧ c ≤ 'z') ∨ ('0' ≤ c ∧ c ≤ '9')

/-- `SLUG_PATTERN`, which is `^[a-z0-9]+(?:-[a-z0-9]+)*$`. -/
def SlugPattern (text : List Char) : Prop :=
  ∃ segments : List (List Char), segments ≠ [] ∧
    (∀ seg ∈ segments, seg ≠ [] ∧ ∀ c ∈ seg, isSlugChar c) ∧ text = ['-'].intercalate segments

/-- The automaton of the pattern; inside a segment, the text may end. -/
def matchesSlug : Bool → List Char → Bool
  | inside, [] => inside
  | inside, c :: cs =>
      if isSlugChar c then matchesSlug true cs
      else if inside ∧ c = '-' then matchesSlug false cs
      else false

theorem not_slugChar_hyphen : isSlugChar '-' = false := by decide

/-- The automaton runs through a segment. -/
theorem matchesSlug_segment (inside : Bool) {seg rest : List Char} (hne : seg ≠ [])
    (hseg : ∀ c ∈ seg, isSlugChar c) :
    matchesSlug inside (seg ++ rest) = matchesSlug true rest := by
  induction seg generalizing inside with
  | nil => exact absurd rfl hne
  | cons c seg ih =>
      rw [List.cons_append, matchesSlug, if_pos (hseg c List.mem_cons_self)]
      cases seg with
      | nil => rfl
      | cons d seg =>
          exact ih true (by simp) (fun e he => hseg e (List.mem_cons_of_mem _ he))

/-- The automaton accepts what the pattern describes. -/
theorem matchesSlug_of_pattern {text : List Char} (h : SlugPattern text) :
    matchesSlug false text := by
  obtain ⟨segments, hne, hsegs, rfl⟩ := h
  induction segments with
  | nil => exact absurd rfl hne
  | cons seg segments ih =>
      obtain ⟨hseg, hrest⟩ := List.forall_mem_cons.mp hsegs
      cases segments with
      | nil =>
          have hmatch := @matchesSlug_segment false seg [] hseg.1 hseg.2
          rw [List.append_nil] at hmatch
          simpa [matchesSlug] using hmatch
      | cons seg' segments =>
          rw [List.intercalate_cons_cons, List.append_assoc,
            matchesSlug_segment false hseg.1 hseg.2, List.singleton_append, matchesSlug,
            if_neg (by decide), if_pos (by decide)]
          exact ih (by simp) hrest

/-- A letter in front lengthens the first segment. -/
theorem SlugPattern.cons {c d : Char} {text : List Char} (hc : isSlugChar c)
    (h : SlugPattern (d :: text)) : SlugPattern (c :: d :: text) := by
  obtain ⟨segments, hne, hsegs, heq⟩ := h
  cases segments with
  | nil => exact absurd rfl hne
  | cons seg segments =>
      obtain ⟨hseg, hrest⟩ := List.forall_mem_cons.mp hsegs
      refine ⟨(c :: seg) :: segments, by simp, ?_, ?_⟩
      · rw [List.forall_mem_cons]
        refine ⟨⟨by simp, ?_⟩, hrest⟩
        rw [List.forall_mem_cons]
        exact ⟨hc, hseg.2⟩
      · rw [heq]
        cases segments with
        | nil => simp
        | cons seg' segments => simp

/-- A letter and a hyphen in front are a segment of their own. -/
theorem SlugPattern.hyphen {c : Char} {text : List Char} (hc : isSlugChar c)
    (h : SlugPattern text) : SlugPattern (c :: '-' :: text) := by
  obtain ⟨segments, hne, hsegs, rfl⟩ := h
  cases segments with
  | nil => exact absurd rfl hne
  | cons seg segments =>
      refine ⟨[c] :: seg :: segments, by simp, ?_, by simp⟩
      rw [List.forall_mem_cons]
      exact ⟨⟨by simp, by simpa using hc⟩, hsegs⟩

theorem SlugPattern.single {c : Char} (hc : isSlugChar c) : SlugPattern [c] :=
  ⟨[[c]], by simp, by simpa using hc, by simp⟩

/-- What the automaton accepts falls into segments. -/
theorem pattern_of_matchesSlug {text : List Char} :
    (matchesSlug false text → SlugPattern text) ∧
      (matchesSlug true text → ∀ c, isSlugChar c → SlugPattern (c :: text)) := by
  induction text with
  | nil => exact ⟨by simp [matchesSlug], fun _ c hc => .single hc⟩
  | cons d text ih =>
      by_cases hd : isSlugChar d
      · constructor
        · intro h
          rw [matchesSlug, if_pos hd] at h
          exact ih.2 h d hd
        · intro h c hc
          rw [matchesSlug, if_pos hd] at h
          exact .cons hc (ih.2 h d hd)
      · constructor
        · intro h
          simp [matchesSlug, hd] at h
        · intro h c hc
          by_cases hyphen : d = '-'
          · subst hyphen
            rw [matchesSlug, if_neg hd, if_pos ⟨rfl, rfl⟩] at h
            exact .hyphen hc (ih.1 h)
          · simp [matchesSlug, hd, hyphen] at h

theorem slugPattern_iff {text : List Char} : SlugPattern text ↔ matchesSlug false text = true :=
  ⟨matchesSlug_of_pattern, pattern_of_matchesSlug.1⟩

instance decidableSlugPattern (text : List Char) : Decidable (SlugPattern text) :=
  decidable_of_iff _ slugPattern_iff.symm

/-- Letters, digits and hyphens, and no two hyphens in a row. -/
def Tidy : List Char → Prop
  | [] => True
  | c :: cs => (isSlugChar c ∨ c = '-') ∧ (c = '-' → cs.head? ≠ some '-') ∧ Tidy cs

/-- What the automaton accepts, said of the ends and of the neighbours. -/
theorem matchesSlug_iff {inside : Bool} {text : List Char} : matchesSlug inside text ↔
    Tidy text ∧ (inside = false → text ≠ [] ∧ text.head? ≠ some '-') ∧
      text.getLast? ≠ some '-' := by
  induction text generalizing inside with
  | nil => cases inside <;> simp [matchesSlug, Tidy]
  | cons c cs ih =>
      rw [matchesSlug]
      by_cases hc : isSlugChar c
      · have hne : c ≠ '-' := by
          intro heq
          subst heq
          rw [not_slugChar_hyphen] at hc
          cases hc
        rw [if_pos hc, ih]
        cases cs with
        | nil => simp [Tidy, hc, hne]
        | cons d ds => simp [Tidy, hc, hne]
      · rw [if_neg hc]
        by_cases hyphen : c = '-'
        · subst hyphen
          cases inside with
          | false => simp
          | true =>
              rw [if_pos ⟨rfl, rfl⟩, ih]
              cases cs with
              | nil => simp [Tidy]
              | cons d ds =>
                  simp [Tidy]
                  tauto
        · rw [if_neg (fun h => hyphen h.2)]
          simp [Tidy, hc, hyphen]

/-- The pattern, without segments: tidy, not empty, and no hyphen at either end. -/
theorem slugPattern_iff_tidy {text : List Char} : SlugPattern text ↔
    Tidy text ∧ text ≠ [] ∧ text.head? ≠ some '-' ∧ text.getLast? ≠ some '-' := by
  rw [slugPattern_iff, matchesSlug_iff]
  simp only [true_implies, and_assoc]

/-! ## From a title to a slug -/

/-- `toLowerCase`, of what is left after the next replacement: outside of ASCII, only two letters
have a lower case in it. -/
def toLowerCase (c : Char) : List Char :=
  if 'A' ≤ c ∧ c ≤ 'Z' then [Char.ofNat (c.toNat + 32)]
  else if c = '\u212a' then ['k']
  else if c = '\u0130' then ['i', '\u0307']
  else [c]

/-- `text.replace(/p+/g, '-')`; whether the character before was one of them. -/
def collapse (p : Char → Bool) : Bool → List Char → List Char
  | _, [] => []
  | inRun, c :: cs =>
      if p c then
        if inRun then collapse p true cs else '-' :: collapse p true cs
      else c :: collapse p false cs

def isHyphen (c : Char) : Bool := c = '-'

/-- What the first replacement keeps. -/
def isKept (c : Char) : Bool := isSlugChar c ∨ isJsSpace c ∨ c = '-'

/-- The text before it is cut. -/
def hyphenated (text : List Char) : List Char :=
  collapse isHyphen false (collapse isJsSpace false ((text.flatMap toLowerCase).filter isKept))

def slugify (text : List Char) : List Char :=
  (((hyphenated text).take 60).dropWhile isHyphen).rdropWhile isHyphen

/-- Nothing but hyphens comes in. -/
theorem collapse_charset {p q : Char → Bool} {inRun : Bool} {text : List Char}
    (h : ∀ c ∈ text, p c ∨ q c ∨ c = '-') : ∀ c ∈ collapse p inRun text, q c ∨ c = '-' := by
  induction text generalizing inRun with
  | nil => simp [collapse]
  | cons d text ih =>
      obtain ⟨hd, hrest⟩ := List.forall_mem_cons.mp h
      rw [collapse]
      split
      case isTrue =>
        split
        case isTrue => exact ih hrest
        case isFalse =>
          rw [List.forall_mem_cons]
          exact ⟨.inr rfl, ih hrest⟩
      case isFalse hp =>
        rw [List.forall_mem_cons]
        exact ⟨hd.resolve_left hp, ih hrest⟩

/-- Hyphens that are collapsed stand alone. -/
theorem collapse_tidy {inRun : Bool} {text : List Char}
    (h : ∀ c ∈ text, isSlugChar c ∨ c = '-') :
    Tidy (collapse isHyphen inRun text) ∧
      (inRun = true → (collapse isHyphen inRun text).head? ≠ some '-') := by
  induction text generalizing inRun with
  | nil => simp [collapse, Tidy]
  | cons d text ih =>
      obtain ⟨hd, hrest⟩ := List.forall_mem_cons.mp h
      rw [collapse]
      split
      case isTrue hyphen =>
        cases inRun with
        | true => exact ih hrest
        | false =>
            refine ⟨⟨.inr rfl, fun _ => (ih hrest).2 rfl, (ih hrest).1⟩, ?_⟩
            intro h
            cases h
      case isFalse hyphen =>
        have hne : d ≠ '-' := by simpa [isHyphen] using hyphen
        refine ⟨⟨hd, fun heq => absurd heq hne, (ih hrest).1⟩, ?_⟩
        intro _
        simpa using hne

/-- What is no run survives it. -/
theorem mem_collapse {p : Char → Bool} {inRun : Bool} {text : List Char} {c : Char}
    (hp : p c = false) (hc : c ≠ '-') : c ∈ collapse p inRun text ↔ c ∈ text := by
  induction text generalizing inRun with
  | nil => simp [collapse]
  | cons d text ih =>
      rw [collapse]
      by_cases hd : p d
      · have hne : c ≠ d := by
          intro heq
          subst heq
          rw [hp] at hd
          cases hd
        cases inRun with
        | true => simp [hd, ih, hne]
        | false => simp [hd, ih, hne, hc]
      · simp [hd, ih]

theorem collapse_eq_self {p : Char → Bool} {text : List Char} (h : ∀ c ∈ text, p c = false) :
    collapse p false text = text := by
  induction text with
  | nil => rfl
  | cons d text ih =>
      obtain ⟨hd, hrest⟩ := List.forall_mem_cons.mp h
      rw [collapse, if_neg (by simp [hd]), ih hrest]

/-- A tidy text has no run to collapse. -/
theorem collapse_tidy_eq_self {inRun : Bool} {text : List Char} (h : Tidy text)
    (hhead : inRun = true → text.head? ≠ some '-') : collapse isHyphen inRun text = text := by
  induction text generalizing inRun with
  | nil => rfl
  | cons d text ih =>
      obtain ⟨_, hnext, hrest⟩ := h
      rw [collapse]
      by_cases hd : d = '-'
      · subst hd
        cases inRun with
        | true => exact absurd rfl (hhead rfl)
        | false => simp [isHyphen, ih hrest (fun _ => hnext rfl)]
      · have hsame : collapse isHyphen false text = text := ih hrest (by simp)
        simp [isHyphen, hd, hsame]

theorem Tidy.of_append {x y : List Char} (h : Tidy (x ++ y)) : Tidy x ∧ Tidy y := by
  induction x with
  | nil => exact ⟨trivial, h⟩
  | cons c x ih =>
      obtain ⟨hc, hnext, hrest⟩ := h
      refine ⟨⟨hc, ?_, (ih hrest).1⟩, (ih hrest).2⟩
      intro hyphen
      cases x with
      | nil => simp
      | cons d x => exact hnext hyphen

theorem Tidy.take {text : List Char} (h : Tidy text) (n : Nat) : Tidy (text.take n) := by
  rw [← List.take_append_drop n text] at h
  exact h.of_append.1

theorem Tidy.dropWhile {text : List Char} (h : Tidy text) (p : Char → Bool) :
    Tidy (text.dropWhile p) := by
  rw [← List.takeWhile_append_dropWhile (p := p) (l := text)] at h
  exact h.of_append.2

theorem Tidy.rdropWhile {text : List Char} (h : Tidy text) (p : Char → Bool) :
    Tidy (text.rdropWhile p) := by
  obtain ⟨rest, hrest⟩ := List.rdropWhile_prefix p (l := text)
  rw [← hrest] at h
  exact h.of_append.1

theorem not_space_of_slugChar {c : Char} (h : isSlugChar c) : isJsSpace c = false := by
  have hrange : (97 ≤ c.toNat ∧ c.toNat ≤ 122) ∨ (48 ≤ c.toNat ∧ c.toNat ≤ 57) := by
    simpa [isSlugChar, Char.le_def, UInt32.le_iff_toNat_le] using h
  simp only [isJsSpace, List.mem_cons, List.not_mem_nil, or_false, decide_eq_false_iff_not]
  omega

theorem ne_hyphen_of_slugChar {c : Char} (h : isSlugChar c) : c ≠ '-' := by
  intro heq
  subst heq
  rw [not_slugChar_hyphen] at h
  cases h

/-- **Before the cut**: letters, digits and single hyphens. -/
theorem hyphenated_tidy (text : List Char) : Tidy (hyphenated text) := by
  apply (collapse_tidy _).1
  apply collapse_charset
  intro c hc
  have hkept : isKept c := List.of_mem_filter hc
  rw [isKept, decide_eq_true_eq] at hkept
  tauto

/-- No letter or digit of the title is lost before the cut. -/
theorem mem_hyphenated {text : List Char} {c : Char} (hc : isSlugChar c) :
    c ∈ hyphenated text ↔ c ∈ text.flatMap toLowerCase := by
  have hne := ne_hyphen_of_slugChar hc
  unfold hyphenated
  rw [mem_collapse (by simpa [isHyphen] using hne) hne,
    mem_collapse (not_space_of_slugChar hc) hne, List.mem_filter]
  simp [isKept, hc]

theorem slugChar_of_tidy {text : List Char} (h : Tidy text) {c : Char} (hc : c ∈ text) :
    isSlugChar c ∨ c = '-' := by
  induction text with
  | nil => cases hc
  | cons d text ih =>
      rcases List.mem_cons.mp hc with rfl | hc
      · exact h.1
      · exact ih h.2.2 hc

/-- A letter or a digit is among the first two characters, so the cut leaves one. -/
theorem take_has_slugChar {text : List Char} (h : Tidy text) (hsome : ∃ c ∈ text, isSlugChar c) :
    ∃ c ∈ text.take 60, isSlugChar c := by
  cases text with
  | nil => simp at hsome
  | cons c cs =>
      rcases h.1 with hc | rfl
      · exact ⟨c, by simp, hc⟩
      · cases cs with
        | nil => simp [not_slugChar_hyphen] at hsome
        | cons d ds =>
            have hd : isSlugChar d ∨ d = '-' := h.2.2.1
            have hne : d ≠ '-' := by simpa using h.2.1 rfl
            exact ⟨d, by simp, hd.resolve_right hne⟩

theorem head_slugify (text : List Char) : (slugify text).head? ≠ some '-' := by
  obtain ⟨rest, hrest⟩ := List.rdropWhile_prefix isHyphen
    (l := ((hyphenated text).take 60).dropWhile isHyphen)
  have hhead := List.head?_dropWhile_not isHyphen ((hyphenated text).take 60)
  unfold slugify
  rw [← hrest] at hhead
  intro h
  rw [List.head?_append, h, Option.some_or] at hhead
  cases hhead

theorem getLast_slugify (text : List Char) : (slugify text).getLast? ≠ some '-' := by
  intro h
  have hne : slugify text ≠ [] := by
    intro hnil
    rw [hnil] at h
    cases h
  have hnot := List.rdropWhile_last_not isHyphen _ hne
  rw [List.getLast?_eq_getLast_of_ne_nil hne, Option.some.injEq] at h
  exact hnot (decide_eq_true h)

/-- A cut of a tidy text is tidy. -/
theorem slugify_tidy (text : List Char) : Tidy (slugify text) :=
  (((hyphenated_tidy text).take 60).dropWhile isHyphen).rdropWhile isHyphen

/-- The API accepts what is not empty. -/
theorem slugify_pattern_iff (text : List Char) :
    SlugPattern (slugify text) ↔ slugify text ≠ [] := by
  rw [slugPattern_iff_tidy]
  constructor
  · intro h
    exact h.2.1
  · intro h
    exact ⟨slugify_tidy text, h, head_slugify text, getLast_slugify text⟩

/-- The slug is empty when the title has neither a letter nor a digit. -/
theorem slugify_eq_nil_iff (text : List Char) :
    slugify text = [] ↔ ∀ c ∈ text.flatMap toLowerCase, isSlugChar c = false := by
  have htidy := hyphenated_tidy text
  unfold slugify
  rw [List.rdropWhile_eq_nil_iff]
  constructor
  · intro h c hc
    by_contra hslug
    rw [Bool.not_eq_false] at hslug
    obtain ⟨d, hd, hdslug⟩ := take_has_slugChar htidy ⟨c, (mem_hyphenated hslug).mpr hc, hslug⟩
    have hne : isHyphen d = false := by simpa [isHyphen] using ne_hyphen_of_slugChar hdslug
    rw [← List.takeWhile_append_dropWhile (p := isHyphen) (l := (hyphenated text).take 60),
      List.mem_append] at hd
    rcases hd with hd | hd
    · rw [List.mem_takeWhile_imp hd] at hne
      cases hne
    · rw [h d hd] at hne
      cases hne
  · intro h c hc
    have hmem : c ∈ hyphenated text :=
      List.mem_of_mem_take ((List.dropWhile_suffix isHyphen).mem hc)
    rcases slugChar_of_tidy htidy hmem with hslug | rfl
    · have hnot := h c ((mem_hyphenated hslug).mp hmem)
      rw [hslug] at hnot
      cases hnot
    · rfl

theorem length_slugify (text : List Char) : (slugify text).length ≤ 60 := by
  have hcut := List.rdropWhile_prefix isHyphen (((hyphenated text).take 60).dropWhile isHyphen)
  calc (slugify text).length
      ≤ (((hyphenated text).take 60).dropWhile isHyphen).length := hcut.length_le
    _ ≤ ((hyphenated text).take 60).length := (List.dropWhile_suffix isHyphen).length_le
    _ ≤ 60 := List.length_take_le 60 _

/-- **Every title gives a slug the API accepts, or none**: never more than sixty characters, and a
slug exactly when the title has a letter or a digit of ASCII. -/
theorem slugify_accepted_iff (text : List Char) :
    (slugify text).length ≤ 60 ∧
      (SlugPattern (slugify text) ↔ ∃ c ∈ text.flatMap toLowerCase, isSlugChar c) ∧
      (slugify text = [] ↔ ¬ ∃ c ∈ text.flatMap toLowerCase, isSlugChar c) := by
  have hempty : slugify text = [] ↔ ¬ ∃ c ∈ text.flatMap toLowerCase, isSlugChar c := by
    rw [slugify_eq_nil_iff]
    simp
  refine ⟨length_slugify text, ?_, hempty⟩
  rw [slugify_pattern_iff, ne_eq, hempty, not_not]

/-- What a slug holds is in lower case. -/
theorem toLowerCase_of_tidy {c : Char} (h : isSlugChar c ∨ c = '-') : toLowerCase c = [c] := by
  have hrange : c.toNat ≤ 122 ∧ (c.toNat < 65 ∨ 90 < c.toNat) := by
    rcases h with h | rfl
    · have hc : (97 ≤ c.toNat ∧ c.toNat ≤ 122) ∨ (48 ≤ c.toNat ∧ c.toNat ≤ 57) := by
        simpa [isSlugChar, Char.le_def, UInt32.le_iff_toNat_le] using h
      omega
    · decide
  have hupper : ¬ ('A' ≤ c ∧ c ≤ 'Z') := by
    simp only [Char.le_def, UInt32.le_iff_toNat_le]
    have hA : ('A' : Char).val.toNat = 65 := rfl
    have hZ : ('Z' : Char).val.toNat = 90 := rfl
    rw [hA, hZ]
    have hval : c.val.toNat = c.toNat := rfl
    omega
  have hkelvin : c ≠ '\u212a' := by
    intro heq
    subst heq
    exact absurd hrange.1 (by decide)
  have hdot : c ≠ '\u0130' := by
    intro heq
    subst heq
    exact absurd hrange.1 (by decide)
  rw [toLowerCase, if_neg hupper, if_neg hkelvin, if_neg hdot]

/-- A tidy text comes through unchanged. -/
theorem hyphenated_of_tidy {text : List Char} (h : Tidy text) : hyphenated text = text := by
  have hchar : ∀ c ∈ text, isSlugChar c ∨ c = '-' := fun c hc => slugChar_of_tidy h hc
  have hlower : text.flatMap toLowerCase = text := by
    rw [List.flatMap_congr (fun c hc => toLowerCase_of_tidy (hchar c hc))]
    simp
  have hkept : text.filter isKept = text := by
    rw [List.filter_eq_self]
    intro c hc
    rw [isKept, decide_eq_true_eq]
    have := hchar c hc
    tauto
  have hspace : ∀ c ∈ text, isJsSpace c = false := by
    intro c hc
    rcases hchar c hc with hslug | rfl
    · exact not_space_of_slugChar hslug
    · rfl
  rw [hyphenated, hlower, hkept, collapse_eq_self hspace, collapse_tidy_eq_self h (by simp)]

/-- A slug of at most sixty characters is its own slug. -/
theorem slugify_of_pattern {slug : List Char} (hpattern : SlugPattern slug)
    (hlen : slug.length ≤ 60) : slugify slug = slug := by
  obtain ⟨htidy, hne, hhead, hlast⟩ := slugPattern_iff_tidy.mp hpattern
  have hdrop : slug.dropWhile isHyphen = slug := by
    cases slug with
    | nil => rfl
    | cons c cs =>
        rw [List.dropWhile_cons_of_neg]
        simpa [isHyphen] using hhead
  have hrdrop : slug.rdropWhile isHyphen = slug := by
    rw [List.rdropWhile_eq_self_iff]
    intro hl hyphen
    apply hlast
    rw [List.getLast?_eq_getLast_of_ne_nil hl]
    simpa [isHyphen] using hyphen
  rw [slugify, hyphenated_of_tidy htidy, List.take_of_length_le hlen, hdrop, hrdrop]

/-- **What the generator leaves as it is**: exactly the slugs the pattern accepts, up to sixty
characters; so what it returned once it returns again. -/
theorem slugify_fixes_iff (slug : List Char) :
    (slugify slug = slug ↔ slug = [] ∨ SlugPattern slug ∧ slug.length ≤ 60) ∧
      slugify (slugify slug) = slugify slug := by
  constructor
  · constructor
    · intro h
      by_cases hne : slug = []
      · exact .inl hne
      · refine .inr ⟨?_, ?_⟩
        · rw [← h, slugify_pattern_iff, h]
          exact hne
        · rw [← h]
          exact length_slugify slug
    · intro heq
      obtain rfl | ⟨hpattern, hlen⟩ := heq
      · rfl
      · exact slugify_of_pattern hpattern hlen
  · by_cases hne : slugify slug = []
    · rw [hne]
      rfl
    · exact slugify_of_pattern ((slugify_pattern_iff slug).mpr hne) (length_slugify slug)

/-! ## The slug of a registration -/

/-- `${dto.slug}-${n}` -/
def numbered (base : List Char) (n : Nat) : List Char := base ++ '-' :: digits n

/-- The slugs `registerVendor` tries, one after the other. -/
def slugVariant (base : List Char) : Nat → List Char
  | 0 => base
  | k + 1 => numbered base (k + 2)

/-- The loop of `registerVendor`, before its lookup with number `k`; `held k` is what the vendors
hold at that lookup. -/
def resolveSlug (held : Nat → List Char → Bool) (base : List Char) : Nat → Nat → List Char
  | 0, k => slugVariant base k
  | turns + 1, k =>
      if held k (slugVariant base k) then resolveSlug held base turns (k + 1)
      else slugVariant base k

/-- The slug of the row that is created; the index refuses one that is held by then. -/
def registerSlug (held : Nat → List Char → Bool) (atCreate : List Char → Bool)
    (base : List Char) : Option (List Char) :=
  let slug := resolveSlug held base 999 0
  if atCreate slug then none else some slug

/-- The loop stops at the first variant that is free, or at the last it tries. -/
theorem resolveSlug_spec (held : Nat → List Char → Bool) (base : List Char) (turns k : Nat) :
    ∃ j, k ≤ j ∧ j ≤ k + turns ∧ resolveSlug held base turns k = slugVariant base j ∧
      (∀ i, k ≤ i → i < j → held i (slugVariant base i)) ∧
      (j < k + turns → held j (slugVariant base j) = false) := by
  induction turns generalizing k with
  | zero =>
      refine ⟨k, le_rfl, le_rfl, rfl, ?_, ?_⟩
      · intro i hle hlt
        omega
      · intro hlt
        omega
  | succ turns ih =>
      rw [resolveSlug]
      split
      case isTrue hheld =>
        obtain ⟨j, hle, hmax, hslug, hbefore, hfree⟩ := ih (k + 1)
        refine ⟨j, by omega, by omega, hslug, ?_, ?_⟩
        · intro i hki hij
          rcases Nat.eq_or_lt_of_le hki with rfl | hlt
          · exact hheld
          · exact hbefore i hlt hij
        · intro hlt
          exact hfree (by omega)
      case isFalse hfree =>
        refine ⟨k, le_rfl, by omega, rfl, ?_, ?_⟩
        · intro i hle hlt
          omega
        · intro _
          simpa using hfree

/-- A number at the end leaves a slug. -/
theorem slugPattern_numbered {base : List Char} (h : SlugPattern base) (n : Nat) :
    SlugPattern (numbered base n) := by
  have hdigit : ∀ c ∈ digits n, isSlugChar c := by
    intro c hc
    have hd : c.isDigit := isDigit_of_mem hc
    simp only [Char.isDigit, Bool.and_eq_true, decide_eq_true_eq] at hd
    simp only [isSlugChar, decide_eq_true_eq]
    exact .inr hd
  obtain ⟨segments, hne, hsegs, rfl⟩ := h
  refine ⟨segments ++ [digits n], by simp, ?_, ?_⟩
  · intro seg hseg
    rcases List.mem_append.mp hseg with hseg | hseg
    · exact hsegs seg hseg
    · rw [List.mem_singleton.mp hseg]
      exact ⟨Nat.toDigits_ne_nil, hdigit⟩
  · rw [numbered]
    induction segments with
    | nil => exact absurd rfl hne
    | cons seg segments ih =>
        cases segments with
        | nil => simp
        | cons seg' segments =>
            have hrest := ih (by simp) (fun seg hseg => hsegs seg (List.mem_cons_of_mem _ hseg))
            simp only [List.cons_append, List.intercalate_cons_cons, List.append_assoc] at hrest ⊢
            rw [hrest]

theorem slugPattern_variant {base : List Char} (h : SlugPattern base) (k : Nat) :
    SlugPattern (slugVariant base k) := by
  cases k with
  | zero => exact h
  | succ k => exact slugPattern_numbered h (k + 2)

theorem numbered_injective {base : List Char} {n m : Nat} (h : numbered base n = numbered base m) :
    n = m := by
  have hdigits : digits n = digits m := by simpa [numbered] using h
  have hvalue := congrArg (fun text => Nat.ofDigitChars 10 text 0) hdigits
  simpa only [Nat.ofDigitChars_ten_toDigits] using hvalue

theorem slugVariant_injective {base : List Char} : Function.Injective (slugVariant base) := by
  intro i j h
  have hlong : ∀ n, slugVariant base (n + 1) ≠ base := by
    intro n hn
    have hlen := congrArg List.length hn
    simp [slugVariant, numbered] at hlen
  cases i with
  | zero =>
      cases j with
      | zero => rfl
      | succ j => exact absurd h.symm (hlong j)
  | succ i =>
      cases j with
      | zero => exact absurd h (hlong i)
      | succ j =>
          have heq := numbered_injective h
          omega

/-- **Which slug a registration gets**, whoever registers or leaves between its lookups: the
first variant that was free at its own lookup, or else the last, which is not looked up; and the
registration fails exactly when that slug is held by the time the row is created. -/
theorem registration_slug_iff (held : Nat → List Char → Bool) (atCreate : List Char → Bool)
    {base : List Char} (hbase : SlugPattern base) (slug : List Char) :
    registerSlug held atCreate base = some slug ↔
      SlugPattern slug ∧ atCreate slug = false ∧ ∃ k ≤ 999, slug = slugVariant base k ∧
        (∀ i < k, held i (slugVariant base i)) ∧
        (k < 999 → held k (slugVariant base k) = false) := by
  obtain ⟨j, _, hmax, hslug, hbefore, hfree⟩ := resolveSlug_spec held base 999 0
  rw [Nat.zero_add] at hmax hfree
  have hresult : registerSlug held atCreate base =
      if atCreate (slugVariant base j) then none else some (slugVariant base j) := by
    rw [registerSlug, hslug]
  rw [hresult]
  constructor
  · intro h
    rw [Option.ite_none_left_eq_some, Option.some.injEq] at h
    obtain ⟨hnot, rfl⟩ := h
    exact ⟨slugPattern_variant hbase j, by simpa using hnot, j, hmax, rfl,
      fun i hi => hbefore i (Nat.zero_le i) hi, hfree⟩
  · intro heq
    obtain ⟨_, hcreate, k, hk, rfl, hheld, hlast⟩ := heq
    have hsame : j = k := by
      rcases Nat.lt_trichotomy j k with hlt | heq | hgt
      · have htaken := hheld j hlt
        rw [hfree (by omega)] at htaken
        cases htaken
      · exact heq
      · have htaken := hbefore k (Nat.zero_le k) hgt
        rw [hlast (by omega)] at htaken
        cases htaken
    rw [hsame, hcreate]
    rfl

/-- A registration looks for `tour` while `tour-2` is being freed. -/
theorem registration_slug_iff_freed :
    registerSlug (fun k slug => k = 0 ∧ slug = "tour".toList) (fun slug => slug = "tour".toList)
      "tour".toList = some "tour-2".toList := by
  rw [registration_slug_iff _ _ (by decide)]
  refine ⟨by decide, by decide, 1, by decide, by decide, ?_, ?_⟩
  · intro i hi
    obtain rfl := Nat.lt_one_iff.mp hi
    decide
  · intro _
    decide

/-- Vendors of one business name register one after the other. -/
def registerTimes (base : List Char) :
    Nat → List (List Char) → Option (List (List Char))
  | 0, slugs => some slugs
  | n + 1, slugs =>
      (registerTimes base n slugs).bind (fun slugs =>
        (registerSlug (fun _ slug => slug ∈ slugs) (fun slug => slug ∈ slugs) base).map
          (fun slug => slug :: slugs))

/-- The slugs of the first vendors of a name. -/
def firstVariants (base : List Char) (n : Nat) : List (List Char) :=
  ((List.range n).map (slugVariant base)).reverse

/-- Another variant is taken exactly by a later vendor. -/
theorem mem_firstVariants {base : List Char} {n i : Nat} {slugs : List (List Char)}
    (hfree : ∀ k ≤ 999, slugVariant base k ∉ slugs) (hi : i ≤ 999) :
    slugVariant base i ∈ firstVariants base n ++ slugs ↔ i < n := by
  simp only [firstVariants, List.mem_append, hfree i hi, or_false, List.mem_reverse,
    List.mem_map, List.mem_range]
  constructor
  · intro heq
    obtain ⟨k, hk, hsame⟩ := heq
    rw [← slugVariant_injective hsame]
    exact hk
  · intro hlt
    exact ⟨i, hlt, rfl⟩

/-- With the first variants taken, the next one is given. -/
theorem registerSlug_firstVariants {base : List Char} {n : Nat} {slugs : List (List Char)}
    (hfree : ∀ k ≤ 999, slugVariant base k ∉ slugs) :
    registerSlug (fun _ slug => slug ∈ firstVariants base n ++ slugs)
      (fun slug => slug ∈ firstVariants base n ++ slugs) base =
        if n ≤ 999 then some (slugVariant base n) else none := by
  obtain ⟨j, _, hmax, hslug, hbefore, hlast⟩ := resolveSlug_spec
    (fun _ slug => slug ∈ firstVariants base n ++ slugs) base 999 0
  rw [Nat.zero_add] at hmax hlast
  have hheld : ∀ i ≤ 999, (decide (slugVariant base i ∈ firstVariants base n ++ slugs) = true ↔
      i < n) := by
    intro i hi
    rw [decide_eq_true_eq, mem_firstVariants hfree hi]
  have hle : j ≤ n := by
    by_contra hgt
    have hn := (hheld n (by omega)).mp (hbefore n (Nat.zero_le n) (by omega))
    omega
  rw [registerSlug, hslug]
  by_cases hn : n ≤ 999
  · have hj : j = n := by
      by_contra hne
      have hnot := hlast (by omega)
      rw [(hheld j hmax).mpr (by omega)] at hnot
      cases hnot
    subst hj
    rw [if_pos hn, if_neg]
    rw [hheld j hmax]
    omega
  · rw [if_neg hn, if_pos]
    rw [hheld j hmax]
    omega

/-- **A thousand vendors of one name**: where none of the variants is held, the registrations of
one name that come one after the other get the name, then `-2`, and so on up to `-1000`, and the
next one fails. -/
theorem same_name_registers_iff {base : List Char} {slugs : List (List Char)}
    (hfree : ∀ k ≤ 999, slugVariant base k ∉ slugs) (n : Nat) :
    registerTimes base n slugs =
      if n ≤ 1000 then some (firstVariants base n ++ slugs) else none := by
  induction n with
  | zero => rfl
  | succ n ih =>
      rw [registerTimes, ih]
      by_cases hn : n ≤ 999
      · rw [if_pos (by omega), Option.bind_some, registerSlug_firstVariants hfree, if_pos hn,
          if_pos (by omega), Option.map_some, firstVariants, firstVariants, List.range_succ,
          List.map_append, List.reverse_append]
        rfl
      · rw [if_neg (show ¬ n + 1 ≤ 1000 by omega)]
        by_cases hlast : n ≤ 1000
        · rw [if_pos hlast, Option.bind_some, registerSlug_firstVariants hfree, if_neg hn]
          rfl
        · rw [if_neg hlast]
          rfl

theorem same_name_registers_iff_three :
    registerTimes "tour".toList 3 [] =
        some ["tour-3".toList, "tour-2".toList, "tour".toList] ∧
      registerTimes "tour".toList 1001 [] = none := by
  have hfree : ∀ k ≤ 999, slugVariant "tour".toList k ∉ ([] : List (List Char)) := by simp
  rw [same_name_registers_iff hfree 3, same_name_registers_iff hfree 1001]
  exact ⟨by decide, by decide⟩

end Jadwal
