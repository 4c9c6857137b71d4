import Jadwal.Preview
import Jadwal.Lib.Cutting

/-!
# Sanitising the input

`SanitizePipe` takes six patterns out of every string, one after another, each
in one pass from left to right.  No tag and no override of the text's direction
is left.  The protocol, the handlers and the data prefix are cut where they
stand, but a cut can join the text around it into another, which is left in the
output when its own replacement has gone by (`sanitizeString_fixpoint_iff`).
-/

namespace Jadwal

open Cutting

/-! ## The patterns -/

/-- The rest after the next `</script>`. -/
def afterClosing : List Char → Option (List Char)
  | [] => none
  | c :: cs => (afterWord "</script>".toList (c :: cs)).or (afterClosing cs)

/-- `/<script\b[^<]*(?:(?!<\/script>)<[^<]*)*<\/script>/i`: up to the next `</script>`. -/
def afterScriptBlock (cs : List Char) : Option (List Char) := do
  let rest ← afterWord "<script".toList cs
  if rest.head?.any isWordChar then none else afterClosing rest

/-- `/<[^>]*>/` -/
def afterTag (cs : List Char) : Option (List Char) := do
  let rest ← afterWord "<".toList cs
  afterWord ">".toList (rest.dropWhile (· ≠ '>'))

/-- `/javascript\s*:/i` -/
def afterProtocol (cs : List Char) : Option (List Char) := do
  let rest ← afterWord "javascript".toList cs
  afterWord ":".toList (rest.dropWhile isJsSpace)

/-- The text before the fourth replacement: the overrides, the script blocks and the tags are
cut. -/
def untagged (str : String) : List Char :=
  cut afterTag (cut afterScriptBlock (str.toList.filter (fun c => ¬ isBidiOverride c)))

/-- The last three replacements. -/
def strippedText (cs : List Char) : List Char :=
  cut afterData (cut afterHandler (cut afterProtocol cs))

/-- `sanitizeString` of the pipe. -/
def sanitizeString (str : String) : String :=
  String.ofList (trimSpace (strippedText (untagged str)))

/-! ## The words of a pattern -/

/-- A capital letter is shifted, and any other character is its own lower case. -/
theorem toLower_cases (c : Char) :
    (65 ≤ c.toNat ∧ c.toNat ≤ 90 ∧ c.toLower.toNat = c.toNat + 32) ∨
      (¬ (65 ≤ c.toNat ∧ c.toNat ≤ 90) ∧ c.toLower = c) := by
  unfold Char.toLower
  split
  case isTrue hupper =>
    simp only [ge_iff_le, UInt32.le_iff_toNat_le] at hupper
    have hlow : 65 ≤ c.toNat := hupper.1
    have hhigh : c.toNat ≤ 90 := hupper.2
    refine .inl ⟨hlow, hhigh, ?_⟩
    have hshift : ('a'.val - 'A'.val).toNat = 32 := by decide
    change (c.val + ('a'.val - 'A'.val)).toNat = c.val.toNat + 32
    change c.val.toNat ≤ 90 at hhigh
    rw [UInt32.toNat_add, hshift]
    omega
  case isFalse hupper =>
    simp only [ge_iff_le, UInt32.le_iff_toNat_le] at hupper
    exact .inr ⟨hupper, rfl⟩

/-- Only letters are changed to lower case, and to letters. -/
theorem toLower_eq_of_not_lower {c x : Char} (hx : ¬ (97 ≤ x.toNat ∧ x.toNat ≤ 122))
    (h : c.toLower = x) : c = x := by
  rcases toLower_cases c with ⟨hlow, hhigh, hshift⟩ | ⟨_, hsame⟩
  · rw [h] at hshift
    exact absurd ⟨by omega, by omega⟩ hx
  · exact hsame.symm.trans h

/-- **A word is found at the front**, whatever its case. -/
theorem afterWord_eq_some {w l r : List Char} :
    afterWord w l = some r ↔ ∃ m, l = m ++ r ∧ m.map Char.toLower = w := by
  induction w generalizing l with
  | nil =>
      simp only [afterWord, Option.some.injEq, List.map_eq_nil_iff]
      constructor
      · rintro rfl
        exact ⟨[], rfl, rfl⟩
      · rintro ⟨m, rfl, rfl⟩
        rfl
  | cons a w ih =>
      cases l with
      | nil =>
          simp only [afterWord, reduceCtorEq, false_iff]
          rintro ⟨m, hm, hw⟩
          obtain ⟨rfl, _⟩ := List.append_eq_nil_iff.mp hm.symm
          exact nomatch hw
      | cons c l =>
          rw [afterWord]
          constructor
          · intro h
            obtain ⟨hc, h⟩ := Option.ite_none_right_eq_some.mp h
            obtain ⟨m, rfl, rfl⟩ := ih.mp h
            exact ⟨c :: m, rfl, by rw [List.map_cons, hc]⟩
          · rintro ⟨m, hm, hw⟩
            cases m with
            | nil => exact nomatch hw
            | cons c' m =>
                obtain ⟨rfl, rfl⟩ := List.cons.inj hm
                obtain ⟨rfl, rfl⟩ := List.cons.inj hw
                rw [if_pos rfl]
                exact ih.mpr ⟨m, rfl, rfl⟩

/-- A text in a word's letters has no other letter, in either case. -/
theorem toLower_ne_of_mem {m w : List Char} (h : m.map Char.toLower = w) {c x : Char}
    (hc : c ∈ m) (hx : x ∉ w) : c.toLower ≠ x :=
  fun heq => hx (h ▸ heq ▸ List.mem_map_of_mem hc)

/-- A character whose lower case is none of the word's is not in its spelling. -/
theorem ne_of_mem {m w : List Char} (h : m.map Char.toLower = w) {c x : Char} (hc : c ∈ m)
    (hx : x.toLower ∉ w) : c ≠ x := by
  rintro rfl
  exact toLower_ne_of_mem h hc hx rfl

/-- A word of one character that is no letter. -/
theorem afterWord_char {x : Char} (hx : ¬ (97 ≤ x.toNat ∧ x.toNat ≤ 122)) (hself : x.toLower = x)
    {l r : List Char} : afterWord [x] l = some r ↔ l = x :: r := by
  rw [afterWord_eq_some]
  constructor
  · rintro ⟨m, rfl, hm⟩
    obtain ⟨c, m, rfl, hc, hnil⟩ := List.map_eq_cons_iff.mp hm
    obtain rfl := toLower_eq_of_not_lower hx hc
    obtain rfl := List.map_eq_nil_iff.mp hnil
    rfl
  · rintro rfl
    exact ⟨[x], rfl, by rw [List.map_singleton, hself]⟩

/-- A space has no lower case. -/
theorem isJsSpace_toLower {c : Char} (h : isJsSpace c = true) : c.toLower = c := by
  rcases toLower_cases c with ⟨hlow, hhigh, _⟩ | ⟨_, hsame⟩
  · simp only [isJsSpace, List.mem_cons, List.not_mem_nil, or_false, decide_eq_true_eq] at h
    omega
  · exact hsame

/-- A character that is changed to lower case, or to a letter that is no space, is none. -/
theorem not_space_of_toLower {c x : Char} (h : c.toLower = x) (hx : isJsSpace x = false) :
    isJsSpace c = false := by
  by_contra hspace
  have hsame := isJsSpace_toLower (Bool.eq_true_of_not_eq_false hspace)
  rw [h] at hsame
  exact hspace (hsame ▸ hx)

/-- A space is no letter of a word. -/
theorem toLower_ne_of_space {c x : Char} (hc : isJsSpace c = true) (hx : isJsSpace x = false) :
    c.toLower ≠ x := by
  intro h
  rw [not_space_of_toLower h hx] at hc
  cases hc

theorem ne_of_space {c x : Char} (hc : isJsSpace c = true) (hx : isJsSpace x = false) : c ≠ x := by
  rintro rfl
  rw [hx] at hc
  cases hc

/-- The run dropped in front of a character that ends it. -/
theorem dropWhile_run {p : Char → Bool} {s : List Char} {x : Char} {r : List Char}
    (hs : ∀ c ∈ s, p c = true) (hx : p x = false) : (s ++ x :: r).dropWhile p = x :: r := by
  rw [List.dropWhile_append_of_pos hs, List.dropWhile_cons_of_neg (by simp [hx])]

/-- A run and the character behind it. -/
theorem dropWhile_eq_cons {p : Char → Bool} {x : Char} (hx : p x = false) {l r : List Char} :
    l.dropWhile p = x :: r ↔ ∃ s, l = s ++ x :: r ∧ ∀ c ∈ s, p c = true := by
  constructor
  · intro h
    refine ⟨l.takeWhile p, ?_, fun c hc => List.mem_takeWhile_imp hc⟩
    rw [← h, List.takeWhile_append_dropWhile]
  · rintro ⟨s, rfl, hs⟩
    exact dropWhile_run hs hx

/-- `javascript`, spaces and a colon. -/
structure ProtocolWord (m w s : List Char) : Prop where
  word : m = w ++ (s ++ [':'])
  name : w.map Char.toLower = "javascript".toList
  space : ∀ c ∈ s, isJsSpace c = true

/-- The first pattern, as the texts it takes. -/
theorem afterProtocol_eq_some {l r : List Char} :
    afterProtocol l = some r ↔ ∃ m, (∃ w s, ProtocolWord m w s) ∧ l = m ++ r := by
  have hcolon : ∀ {l r}, afterWord ":".toList l = some r ↔ l = ':' :: r :=
    afterWord_char (by decide) (by decide)
  simp only [afterProtocol, Option.bind_eq_bind, Option.bind_eq_some_iff, afterWord_eq_some, hcolon,
    dropWhile_eq_cons (show isJsSpace ':' = false by decide)]
  constructor
  · rintro ⟨_, ⟨w, rfl, hw⟩, s, rfl, hs⟩
    exact ⟨_, ⟨w, s, rfl, hw, hs⟩, by simp⟩
  · rintro ⟨_, ⟨w, s, rfl, hw, hs⟩, rfl⟩
    exact ⟨s ++ ':' :: r, ⟨w, by simp, hw⟩, s, rfl, hs⟩

/-- `on`, a run of word characters, spaces and an equals sign. -/
structure HandlerWord (m o w s : List Char) : Prop where
  word : m = o ++ (w ++ (s ++ ['=']))
  prefixed : o.map Char.toLower = "on".toList
  nonempty : w ≠ []
  name : ∀ c ∈ w, isWordChar c = true
  space : ∀ c ∈ s, isJsSpace c = true

theorem isWordChar_space {c : Char} (h : isJsSpace c = true) : isWordChar c = false := by
  rw [Bool.eq_false_iff]
  intro hword
  simp only [isWordChar, Char.isAlphanum, Char.isAlpha, Char.isUpper, Char.isLower, Char.isDigit,
    ge_iff_le, UInt32.le_iff_toNat_le, decide_eq_true_eq, Bool.or_eq_true,
    Bool.and_eq_true] at hword
  simp only [isJsSpace, List.mem_cons, List.not_mem_nil, or_false, decide_eq_true_eq] at h
  rcases hword with ((⟨hlow, hhigh⟩ | ⟨hlow, hhigh⟩) | ⟨hlow, hhigh⟩) | rfl
  · change 65 ≤ c.toNat at hlow
    change c.toNat ≤ 90 at hhigh
    omega
  · change 97 ≤ c.toNat at hlow
    change c.toNat ≤ 122 at hhigh
    omega
  · change 48 ≤ c.toNat at hlow
    change c.toNat ≤ 57 at hhigh
    omega
  · revert h
    decide

/-- The second pattern, as the texts it takes. -/
theorem afterHandler_eq_some {l r : List Char} :
    afterHandler l = some r ↔ ∃ m, (∃ o w s, HandlerWord m o w s) ∧ l = m ++ r := by
  have hequals : ∀ {l r}, afterWord "=".toList l = some r ↔ l = '=' :: r :=
    afterWord_char (by decide) (by decide)
  simp only [afterHandler, Option.bind_eq_bind, Option.bind_eq_some_iff, afterWord_eq_some]
  constructor
  · rintro ⟨rest, ⟨o, rfl, ho⟩, h⟩
    obtain ⟨hhead, h⟩ := Option.ite_none_right_eq_some.mp h
    obtain ⟨s, hs, hspace⟩ := (dropWhile_eq_cons (by decide)).mp (hequals.mp h)
    refine ⟨_, ⟨o, rest.takeWhile isWordChar, s, rfl, ho, fun hnil => ?_,
      fun c hc => List.mem_takeWhile_imp hc, hspace⟩, ?_⟩
    · cases rest with
      | nil => exact nomatch hhead
      | cons c rest =>
          rw [List.head?_cons, Option.any_some] at hhead
          rw [List.takeWhile_cons_of_pos hhead] at hnil
          exact nomatch hnil
    · have hrest := (List.takeWhile_append_dropWhile (p := isWordChar) (l := rest)).symm
      rw [hs] at hrest
      refine (congrArg (o ++ ·) hrest).trans ?_
      simp
  · rintro ⟨_, ⟨o, w, s, rfl, ho, hne, hw, hs⟩, rfl⟩
    refine ⟨w ++ (s ++ '=' :: r), ⟨o, by simp, ho⟩, ?_⟩
    have hhead : (w ++ (s ++ '=' :: r)).head?.any isWordChar = true := by
      cases w with
      | nil => exact absurd rfl hne
      | cons c w => exact hw c List.mem_cons_self
    have hdrop : (w ++ (s ++ '=' :: r)).dropWhile isWordChar = s ++ '=' :: r := by
      cases s with
      | nil => exact dropWhile_run hw (by decide)
      | cons c s => exact dropWhile_run hw (isWordChar_space (hs c List.mem_cons_self))
    rw [if_pos hhead, hdrop, hequals]
    exact dropWhile_run hs (by decide)

/-- `data`, a colon between spaces, and `text/html`. -/
structure DataWord (m d s s' t : List Char) : Prop where
  word : m = d ++ (s ++ (':' :: (s' ++ t)))
  scheme : d.map Char.toLower = "data".toList
  space : ∀ c ∈ s, isJsSpace c = true
  space' : ∀ c ∈ s', isJsSpace c = true
  media : t.map Char.toLower = "text/html".toList

/-- The third pattern, as the texts it takes. -/
theorem afterData_eq_some {l r : List Char} :
    afterData l = some r ↔ ∃ m, (∃ d s s' t, DataWord m d s s' t) ∧ l = m ++ r := by
  have hcolon : ∀ {l r}, afterWord ":".toList l = some r ↔ l = ':' :: r :=
    afterWord_char (by decide) (by decide)
  simp only [afterData, Option.bind_eq_bind, Option.bind_eq_some_iff, hcolon, afterWord_eq_some,
    dropWhile_eq_cons (show isJsSpace ':' = false by decide)]
  constructor
  · rintro ⟨_, ⟨d, rfl, hd⟩, rest, ⟨s, rfl, hs⟩, t, ht, hmedia⟩
    refine ⟨_, ⟨d, s, rest.takeWhile isJsSpace, t, rfl, hd, hs,
      fun c hc => List.mem_takeWhile_imp hc, hmedia⟩, ?_⟩
    have hrest := (List.takeWhile_append_dropWhile (p := isJsSpace) (l := rest)).symm
    rw [ht] at hrest
    refine (congrArg (fun rest => d ++ (s ++ ':' :: rest)) hrest).trans ?_
    simp
  · rintro ⟨_, ⟨d, s, s', t, rfl, hd, hs, hs', hmedia⟩, rfl⟩
    refine ⟨s ++ ':' :: (s' ++ t ++ r), ⟨d, by simp, hd⟩, s' ++ t ++ r, ⟨s, rfl, hs⟩, t, ?_,
      hmedia⟩
    obtain ⟨c, t, rfl, hc, _⟩ := List.map_eq_cons_iff.mp hmedia
    rw [List.append_assoc]
    exact dropWhile_run hs' (not_space_of_toLower hc (by decide))

/-- What the protocol's words look like: they begin with a `j`, hold a colon, and no `o`, `d` or
equals sign. -/
structure ProtocolLike (m : List Char) : Prop where
  head : ∃ c t, m = c :: t ∧ c.toLower = 'j' ∧ isJsSpace c = false
  last : ∃ t, m = t ++ [':']
  without : ∀ c ∈ m, c.toLower ≠ 'o' ∧ c.toLower ≠ 'd' ∧ c ≠ '='

/-- The handlers' words begin with an `o`, end with an equals sign, and hold no colon. -/
structure HandlerLike (m : List Char) : Prop where
  head : ∃ c t, m = c :: t ∧ c.toLower = 'o' ∧ isJsSpace c = false
  last : ∃ t, m = t ++ ['=']
  without : ':' ∉ m

/-- The data prefixes begin with a `d`, hold a colon, end with an `l`, and hold no `j`, `o` or
equals sign. -/
structure DataLike (m : List Char) : Prop where
  head : ∃ c t, m = c :: t ∧ c.toLower = 'd' ∧ isJsSpace c = false
  last : ∃ t c, m = t ++ [c] ∧ isJsSpace c = false
  colon : ':' ∈ m
  without : ∀ c ∈ m, c.toLower ≠ 'j' ∧ c.toLower ≠ 'o' ∧ c ≠ '='

theorem ProtocolWord.like {m w s : List Char} (h : ProtocolWord m w s) : ProtocolLike m := by
  obtain ⟨rfl, hw, hs⟩ := h
  refine ⟨?_, ⟨w ++ s, by simp⟩, fun c hc => ?_⟩
  · obtain ⟨c, t, rfl, hc, _⟩ := List.map_eq_cons_iff.mp hw
    exact ⟨c, _, rfl, hc, not_space_of_toLower hc (by decide)⟩
  · rcases List.mem_append.mp hc with hc | hc
    · exact ⟨toLower_ne_of_mem hw hc (by decide), toLower_ne_of_mem hw hc (by decide),
        ne_of_mem hw hc (by decide)⟩
    · rcases List.mem_append.mp hc with hc | hc
      · exact ⟨toLower_ne_of_space (hs c hc) (by decide), toLower_ne_of_space (hs c hc) (by decide),
          ne_of_space (hs c hc) (by decide)⟩
      · rw [List.mem_singleton.mp hc]
        decide

theorem HandlerWord.like {m o w s : List Char} (h : HandlerWord m o w s) : HandlerLike m := by
  obtain ⟨rfl, ho, _, hw, hs⟩ := h
  refine ⟨?_, ⟨o ++ (w ++ s), by simp⟩, fun hc => ?_⟩
  · obtain ⟨c, t, rfl, hc, _⟩ := List.map_eq_cons_iff.mp ho
    exact ⟨c, _, rfl, hc, not_space_of_toLower hc (by decide)⟩
  · simp only [List.mem_append, List.mem_singleton] at hc
    rcases hc with hc | hc | hc | hc
    · exact ne_of_mem ho hc (by decide) rfl
    · exact absurd (hw _ hc) (by decide)
    · exact absurd (hs _ hc) (by decide)
    · exact absurd hc (by decide)

theorem DataWord.like {m d s s' t : List Char} (h : DataWord m d s s' t) : DataLike m := by
  obtain ⟨rfl, hd, hs, hs', ht⟩ := h
  refine ⟨?_, ?_, by simp, fun c hc => ?_⟩
  · obtain ⟨c, t', rfl, hc, _⟩ := List.map_eq_cons_iff.mp hd
    exact ⟨c, _, rfl, hc, not_space_of_toLower hc (by decide)⟩
  · have hlast : ("text/htm".toList ++ ['l'] : List Char) = t.map Char.toLower := ht.symm
    obtain ⟨t₁, t₂, rfl, _, ht₂⟩ := List.map_eq_append_iff.mp hlast.symm
    obtain ⟨c, t₃, rfl, hc, hnil⟩ := List.map_eq_cons_iff.mp ht₂
    obtain rfl := List.map_eq_nil_iff.mp hnil
    exact ⟨d ++ (s ++ (':' :: (s' ++ t₁))), c, by simp, not_space_of_toLower hc (by decide)⟩
  · have hplain : ∀ c, isJsSpace c = true → c.toLower ≠ 'j' ∧ c.toLower ≠ 'o' ∧ c ≠ '=' :=
      fun c hspace => ⟨toLower_ne_of_space hspace (by decide),
        toLower_ne_of_space hspace (by decide), ne_of_space hspace (by decide)⟩
    have hletters : ∀ {w l : List Char}, w.map Char.toLower = l → 'j' ∉ l → 'o' ∉ l → '=' ∉ l →
        c ∈ w → c.toLower ≠ 'j' ∧ c.toLower ≠ 'o' ∧ c ≠ '=' :=
      fun hw hj ho heq hc => ⟨toLower_ne_of_mem hw hc hj, toLower_ne_of_mem hw hc ho,
        ne_of_mem hw hc heq⟩
    simp only [List.mem_append, List.mem_cons] at hc
    rcases hc with hc | hc | rfl | hc | hc
    · exact hletters hd (by decide) (by decide) (by decide) hc
    · exact hplain c (hs c hc)
    · decide
    · exact hplain c (hs' c hc)
    · exact hletters ht (by decide) (by decide) (by decide) hc

theorem protocol_like {m : List Char} (h : afterProtocol m = some []) : ProtocolLike m := by
  obtain ⟨w, s, hword⟩ := word_of_match afterProtocol_eq_some h
  exact hword.like

theorem handler_like {m : List Char} (h : afterHandler m = some []) : HandlerLike m := by
  obtain ⟨o, w, s, hword⟩ := word_of_match afterHandler_eq_some h
  exact hword.like

theorem data_like {m : List Char} (h : afterData m = some []) : DataLike m := by
  obtain ⟨d, s, s', t, hword⟩ := word_of_match afterData_eq_some h
  exact hword.like

/-- The first pattern takes a word at the front, whatever follows. -/
theorem lawful_protocol : Lawful afterProtocol := by
  refine Lawful.of_words afterProtocol_eq_some ?_
  rintro ⟨w, s, hword⟩
  obtain ⟨c, t, hnil, _⟩ := hword.like.head
  exact nomatch hnil

/-- So does the second. -/
theorem lawful_handler : Lawful afterHandler := by
  refine Lawful.of_words afterHandler_eq_some ?_
  rintro ⟨o, w, s, hword⟩
  obtain ⟨c, t, hnil, _⟩ := hword.like.head
  exact nomatch hnil

/-- So does the third. -/
theorem lawful_data : Lawful afterData := by
  refine Lawful.of_words afterData_eq_some ?_
  rintro ⟨d, s, s', t, hword⟩
  obtain ⟨c, t, hnil, _⟩ := hword.like.head
  exact nomatch hnil

/-! ## No pattern reaches into a word of an earlier one -/

/-- The front of a text is that of the word it begins with. -/
theorem head_of_append {y c w r t : List Char} {e : Char} (h : y ++ c = w ++ r) (hy : y ≠ [])
    (hw : w = e :: t) : e ∈ y := by
  cases y with
  | nil => exact absurd rfl hy
  | cons e' y =>
      rw [hw, List.cons_append, List.cons_append] at h
      rw [(List.cons.inj h).1]
      exact List.mem_cons_self

theorem last_of_append {a x t : List Char} {e : Char} (h : a ++ x = t ++ [e]) (hx : x ≠ []) :
    e ∈ x := by
  have hlast := congrArg List.getLast? h
  rw [List.getLast?_append_of_ne_nil _ hx, List.getLast?_concat] at hlast
  exact List.mem_of_getLast? hlast

/-- No handler begins inside a protocol or reaches into one. -/
theorem protocol_apart_handler : Apart afterProtocol afterHandler where
  inside {x y} hword hy c := by
    rw [Option.eq_none_iff_forall_ne_some]
    intro r hmatch
    obtain ⟨w, _, heq, hw⟩ := lawful_handler.split hmatch
    obtain ⟨e, t, hhead, ho, _⟩ := (handler_like hw).head
    exact ((protocol_like hword).without e
      (List.mem_append_right x (head_of_append heq hy hhead))).1 ho
  before {a m c r} _ hm hmatch := by
    obtain ⟨w, _, heq, hw⟩ := lawful_handler.split hmatch
    refine (reaches heq).resolve_right ?_
    rintro ⟨x, hx, rfl, hrest⟩
    have hlike := handler_like hw
    rcases List.append_eq_append_iff.mp hrest with ⟨y, rfl, _⟩ | ⟨y, rfl, _⟩
    · -- the match goes beyond the colon
      obtain ⟨t, hlast⟩ := (protocol_like hm).last
      refine hlike.without (List.mem_append_right a (List.mem_append_left y ?_))
      rw [hlast]
      simp
    · -- it ends inside the word, with an equals sign
      obtain ⟨t, hlast⟩ := hlike.last
      have hmem := last_of_append hlast hx
      exact ((protocol_like hm).without '=' (List.mem_append_left y hmem)).2.2 rfl

/-- Nor does a data URL. -/
theorem protocol_apart_data : Apart afterProtocol afterData where
  inside {x y} hword hy c := by
    rw [Option.eq_none_iff_forall_ne_some]
    intro r hmatch
    obtain ⟨w, _, heq, hw⟩ := lawful_data.split hmatch
    obtain ⟨e, t, hhead, hd, _⟩ := (data_like hw).head
    exact ((protocol_like hword).without e
      (List.mem_append_right x (head_of_append heq hy hhead))).2.1 hd
  before {a m c r} _ hm hmatch := by
    obtain ⟨w, _, heq, hw⟩ := lawful_data.split hmatch
    refine (reaches heq).resolve_right ?_
    rintro ⟨x, hx, rfl, hrest⟩
    obtain ⟨e, t, hhead, hj, _⟩ := (protocol_like hm).head
    have hmem := head_of_append hrest.symm hx hhead
    exact ((data_like hw).without e (List.mem_append_right a hmem)).1 hj

/-- No data URL begins inside a handler or reaches into one. -/
theorem handler_apart_data : Apart afterHandler afterData where
  inside {x y} hword hy c := by
    rw [Option.eq_none_iff_forall_ne_some]
    intro r hmatch
    obtain ⟨w, _, heq, hw⟩ := lawful_data.split hmatch
    rcases List.append_eq_append_iff.mp heq with ⟨z, rfl, _⟩ | ⟨z, rfl, _⟩
    · -- the match goes beyond the equals sign
      obtain ⟨t, hlast⟩ := (handler_like hword).last
      have hmem := last_of_append hlast hy
      exact ((data_like hw).without '=' (List.mem_append_left z hmem)).2.2 rfl
    · exact (handler_like hword).without
        (List.mem_append_right x (List.mem_append_left z (data_like hw).colon))
  before {a m c r} _ hm hmatch := by
    obtain ⟨w, _, heq, hw⟩ := lawful_data.split hmatch
    refine (reaches heq).resolve_right ?_
    rintro ⟨x, hx, rfl, hrest⟩
    obtain ⟨e, t, hhead, ho, _⟩ := (handler_like hm).head
    have hmem := head_of_append hrest.symm hx hhead
    exact ((data_like hw).without e (List.mem_append_right a hmem)).2.1 ho

/-! ## Tags and blocks of script -/

/-- A tag, as the texts the pattern takes. -/
theorem afterTag_eq_some {l r : List Char} :
    afterTag l = some r ↔ ∃ m, (∃ s, m = '<' :: (s ++ ['>']) ∧ '>' ∉ s) ∧ l = m ++ r := by
  have hopen : ∀ {l r}, afterWord "<".toList l = some r ↔ l = '<' :: r :=
    afterWord_char (by decide) (by decide)
  have hclose : ∀ {l r}, afterWord ">".toList l = some r ↔ l = '>' :: r :=
    afterWord_char (by decide) (by decide)
  have hrun : ∀ {l r : List Char}, l.dropWhile (fun c => decide (c ≠ '>')) = '>' :: r ↔
      ∃ s, l = s ++ '>' :: r ∧ ∀ c ∈ s, decide (c ≠ '>') = true :=
    dropWhile_eq_cons (by decide)
  simp only [afterTag, Option.bind_eq_bind, Option.bind_eq_some_iff, hopen, hclose, hrun]
  constructor
  · rintro ⟨_, rfl, s, rfl, hs⟩
    exact ⟨_, ⟨s, rfl, fun hmem => of_decide_eq_true (hs _ hmem) rfl⟩, by simp⟩
  · rintro ⟨_, ⟨s, rfl, hs⟩, rfl⟩
    exact ⟨s ++ '>' :: r, by simp, s, rfl, fun c hc => decide_eq_true fun heq => hs (heq ▸ hc)⟩

/-- A tag is taken at the front, whatever follows. -/
theorem lawful_tag : Lawful afterTag := by
  refine Lawful.of_words afterTag_eq_some ?_
  rintro ⟨s, hnil, _⟩
  exact nomatch hnil

/-- A tag is an opening bracket with a closing one behind it. -/
theorem sublist_of_tag {l : List Char} (h : Occurs afterTag l) : ['<', '>'].Sublist l := by
  obtain ⟨a, m, c, rfl, hm⟩ := h
  obtain ⟨s, rfl, _⟩ := word_of_match afterTag_eq_some hm
  refine List.Sublist.trans ?_
    ((List.sublist_append_right a _).trans (List.sublist_append_left _ c))
  exact (List.sublist_append_right s ['>']).cons_cons '<'

/-- **No tag is left**: an opening bracket that stays has no closing one behind it. -/
theorem cut_tag {l : List Char} : ¬ ['<', '>'].Sublist (cut afterTag l) := by
  intro hsub
  rw [← kept_marks, kept] at hsub
  obtain ⟨x, hx, heq⟩ := List.sublist_map_iff.mp hsub
  obtain ⟨⟨lt, b⟩, x, rfl, hlt, heq⟩ := List.map_eq_cons_iff.mp heq.symm
  obtain ⟨⟨gt, b'⟩, x, rfl, hgt, _⟩ := List.map_eq_cons_iff.mp heq
  obtain rfl : lt = '<' := hlt
  obtain rfl : gt = '>' := hgt
  obtain rfl : b = false := by
    simpa using (List.mem_filter.mp (hx.subset List.mem_cons_self)).2
  obtain ⟨r₁, r₂, hmarks, hopen, hclose⟩ := List.cons_sublist_iff.mp
    (hx.trans List.filter_sublist)
  obtain ⟨a, c, rfl⟩ := List.append_of_mem hopen
  rw [List.append_assoc, List.cons_append] at hmarks
  have hnomatch := unmarked lawful_tag le_rfl hmarks
  have hbehind : '>' ∈ (c ++ r₂).map Prod.fst :=
    List.mem_map.mpr ⟨('>', b'), List.mem_append_right c (hclose.subset List.mem_cons_self), rfl⟩
  obtain ⟨s, r, htext, hs⟩ := List.eq_append_cons_of_mem hbehind
  have hmatch : afterTag ('<' :: (c ++ r₂).map Prod.fst) = some r :=
    afterTag_eq_some.mpr ⟨_, ⟨s, rfl, hs⟩, by rw [htext]; simp⟩
  cases hnomatch.symm.trans hmatch

theorem afterWord_append {w m r : List Char} (h : afterWord w m = some r) (r' : List Char) :
    afterWord w (m ++ r') = some (r ++ r') := by
  obtain ⟨m', rfl, hw⟩ := afterWord_eq_some.mp h
  exact afterWord_eq_some.mpr ⟨m', by rw [List.append_assoc], hw⟩

/-- A closing tag has nine characters at least. -/
theorem afterClosing_split {l r : List Char} (h : afterClosing l = some r) :
    ∃ m, 9 ≤ m.length ∧ '>' ∈ m ∧ l = m ++ r ∧ afterClosing m = some [] := by
  induction l with
  | nil => exact nomatch h
  | cons c l ih =>
      rw [afterClosing] at h
      cases hword : afterWord "</script>".toList (c :: l) with
      | some r' =>
          rw [hword, Option.some_or] at h
          obtain rfl := Option.some.inj h
          obtain ⟨m, hm, hw⟩ := afterWord_eq_some.mp hword
          have hlength := congrArg List.length hw
          rw [List.length_map] at hlength
          have hclose : '>' ∈ m.map Char.toLower := by rw [hw]; decide
          obtain ⟨e, he, heq⟩ := List.mem_map.mp hclose
          obtain rfl := toLower_eq_of_not_lower (by decide) heq
          refine ⟨m, hlength.ge, he, hm, ?_⟩
          cases m with
          | nil => exact nomatch he
          | cons e m =>
              rw [afterClosing, afterWord_eq_some.mpr ⟨e :: m, (List.append_nil _).symm, hw⟩,
                Option.some_or]
      | none =>
          rw [hword, Option.none_or] at h
          obtain ⟨m, hlong, hclose, rfl, hm⟩ := ih h
          refine ⟨c :: m, hlong.trans (Nat.le_succ _), List.mem_cons_of_mem c hclose, rfl, ?_⟩
          have hnone : afterWord "</script>".toList (c :: m) = none := by
            rw [Option.eq_none_iff_forall_ne_some]
            intro r' hr'
            exact nomatch hword.symm.trans (afterWord_append hr' r)
          rw [afterClosing, hnone, Option.none_or, hm]

/-- It is found whatever follows. -/
theorem afterClosing_extend {m : List Char} (h : afterClosing m = some []) (r : List Char) :
    afterClosing (m ++ r) = some r := by
  induction m with
  | nil => exact nomatch h
  | cons c m ih =>
      rw [afterClosing] at h
      rw [List.cons_append, afterClosing]
      cases hword : afterWord "</script>".toList (c :: m) with
      | some r' =>
          rw [hword, Option.some_or] at h
          obtain rfl := Option.some.inj h
          have hlonger := afterWord_append hword r
          rw [List.cons_append] at hlonger
          rw [hlonger, Option.some_or, List.nil_append]
      | none =>
          rw [hword, Option.none_or] at h
          obtain ⟨m', hlong, _, hm', _⟩ := afterClosing_split h
          rw [List.append_nil] at hm'
          have hnone : afterWord "</script>".toList (c :: (m ++ r)) = none := by
            -- the word would end before the text does
            rw [Option.eq_none_iff_forall_ne_some]
            intro r' hr'
            obtain ⟨w, hw, hname⟩ := afterWord_eq_some.mp hr'
            have hlength := congrArg List.length hname
            rw [List.length_map] at hlength
            have hw : (c :: m) ++ r = w ++ r' := hw
            rcases List.append_eq_append_iff.mp hw with ⟨z, hz, _⟩ | ⟨z, hz, _⟩
            · have hshort := congrArg List.length hz
              rw [List.length_append, List.length_cons, hm', hlength] at hshort
              have hnine : "</script>".toList.length = 9 := by decide
              omega
            · exact nomatch hword.symm.trans (afterWord_eq_some.mpr ⟨w, hz, hname⟩)
          rw [hnone, Option.none_or, ih h]

theorem lawful_block : Lawful afterScriptBlock where
  split {l r} h := by
    obtain ⟨rest, hopen, hrest⟩ := Option.bind_eq_some_iff.mp h
    obtain ⟨hboundary, hclosing⟩ := Option.ite_none_left_eq_some.mp hrest
    obtain ⟨w, rfl, hw⟩ := afterWord_eq_some.mp hopen
    obtain ⟨m, hlong, _, rfl, hm⟩ := afterClosing_split hclosing
    have hne : m ≠ [] := List.length_pos_iff.mp (by omega)
    refine ⟨w ++ m, fun hnil => hne (List.append_eq_nil_iff.mp hnil).2,
      (List.append_assoc w m r).symm, ?_⟩
    refine Option.bind_eq_some_iff.mpr ⟨m, afterWord_eq_some.mpr ⟨w, rfl, hw⟩, ?_⟩
    rw [List.head?_append_of_ne_nil _ hne] at hboundary
    exact Option.ite_none_left_eq_some.mpr ⟨hboundary, hm⟩
  extend {m} h r := by
    obtain ⟨rest, hopen, hrest⟩ := Option.bind_eq_some_iff.mp h
    obtain ⟨hboundary, hclosing⟩ := Option.ite_none_left_eq_some.mp hrest
    obtain ⟨m', hlong, _, hm', _⟩ := afterClosing_split hclosing
    rw [List.append_nil] at hm'
    have hne : rest ≠ [] := List.length_pos_iff.mp (by rw [hm']; omega)
    refine Option.bind_eq_some_iff.mpr ⟨rest ++ r, afterWord_append hopen r, ?_⟩
    rw [← @List.head?_append_of_ne_nil _ rest r hne] at hboundary
    exact Option.ite_none_left_eq_some.mpr ⟨hboundary, afterClosing_extend hclosing r⟩

/-- A script block holds both brackets. -/
theorem sublist_of_block {l : List Char} (h : Occurs afterScriptBlock l) :
    ['<', '>'].Sublist l := by
  obtain ⟨a, m, c, rfl, hm⟩ := h
  obtain ⟨rest, hopen, hrest⟩ := Option.bind_eq_some_iff.mp hm
  obtain ⟨_, hclosing⟩ := Option.ite_none_left_eq_some.mp hrest
  obtain ⟨w, rfl, hw⟩ := afterWord_eq_some.mp hopen
  have hw : w.map Char.toLower = '<' :: "script".toList := hw
  obtain ⟨e, w, rfl, he, _⟩ := List.map_eq_cons_iff.mp hw
  obtain rfl := toLower_eq_of_not_lower (by decide) he
  obtain ⟨m, _, hclose, rfl, _⟩ := afterClosing_split hclosing
  have htag : ['<', '>'].Sublist ('<' :: (w ++ (m ++ []))) :=
    (List.singleton_sublist.mpr (by simp [hclose])).cons_cons '<'
  refine htag.trans ?_
  exact (List.sublist_append_right a _).trans (List.sublist_append_left _ c)

/-! ## Trimming -/

/-- What stops the dropping stays, with all that follows. -/
theorem dropWhile_keeps {p : Char → Bool} {h : Char} {t a c : List Char} (hh : p h = false) :
    ∃ a', (a ++ (h :: t) ++ c).dropWhile p = a' ++ (h :: t) ++ c := by
  induction a with
  | nil => exact ⟨[], List.dropWhile_cons_of_neg (by simp [hh])⟩
  | cons e a ih =>
      by_cases he : p e = true
      · obtain ⟨a', heq⟩ := ih
        exact ⟨a', (List.dropWhile_cons_of_pos he).trans heq⟩
      · exact ⟨e :: a, List.dropWhile_cons_of_neg he⟩

/-- Trimming keeps a word that begins and ends with no space. -/
theorem trimSpace_keeps {m a c : List Char} {h e : Char} {t t' : List Char} (hm : m = h :: t)
    (hm' : m = t' ++ [e]) (hh : isJsSpace h = false) (he : isJsSpace e = false) :
    ∃ a' c', trimSpace (a ++ m ++ c) = a' ++ m ++ c' := by
  obtain ⟨a', hfront⟩ := @dropWhile_keeps isJsSpace h t a c hh
  rw [← hm] at hfront
  have hreverse : (a' ++ m ++ c).reverse = c.reverse ++ (e :: t'.reverse) ++ a'.reverse := by
    rw [hm']
    simp
  obtain ⟨c', hback⟩ := @dropWhile_keeps isJsSpace e t'.reverse c.reverse a'.reverse he
  refine ⟨a', c'.reverse, ?_⟩
  rw [trimSpace, hfront, hreverse, hback, hm']
  simp

/-- Trimming takes a front and an end away. -/
theorem trimSpace_factor (l : List Char) : ∃ a c, l = a ++ trimSpace l ++ c := by
  refine ⟨l.takeWhile isJsSpace,
    ((l.dropWhile isJsSpace).reverse.takeWhile isJsSpace).reverse, ?_⟩
  rw [trimSpace, List.append_assoc, ← List.reverse_append, List.takeWhile_append_dropWhile,
    List.reverse_reverse, List.takeWhile_append_dropWhile]

theorem trimSpace_sublist (l : List Char) : (trimSpace l).Sublist l := by
  obtain ⟨a, c, heq⟩ := trimSpace_factor l
  conv_rhs => rw [heq]
  exact (List.sublist_append_right a _).trans (List.sublist_append_left _ c)

/-- **Trimming hides no word** that begins and ends with other characters than spaces. -/
theorem occurs_trimSpace {q : Pattern Char} {l : List Char}
    (hends : ∀ {m}, q m = some [] → (∃ h t, m = h :: t ∧ isJsSpace h = false) ∧
      ∃ t e, m = t ++ [e] ∧ isJsSpace e = false) :
    Occurs q (trimSpace l) ↔ Occurs q l := by
  constructor
  · rintro ⟨a, m, c, heq, hm⟩
    obtain ⟨a', c', hl⟩ := trimSpace_factor l
    exact ⟨a' ++ a, m, c ++ c', by rw [hl, heq]; simp, hm⟩
  · rintro ⟨a, m, c, rfl, hm⟩
    obtain ⟨⟨h, t, hhead, hh⟩, t', e, hlast, he⟩ := hends hm
    obtain ⟨a', c', heq⟩ := @trimSpace_keeps m a c h e t t' hhead hlast hh he
    exact ⟨a', m, c', heq, hm⟩

/-- A trimmed text is trimmed. -/
theorem trimSpace_trimSpace (l : List Char) : trimSpace (trimSpace l) = trimSpace l := by
  cases hfront : l.dropWhile isJsSpace with
  | nil => simp [trimSpace, hfront]
  | cons h d =>
      have hh : isJsSpace h = false := by
        have hhead := List.head?_dropWhile_not isJsSpace l
        rw [hfront] at hhead
        simpa using hhead
      obtain ⟨a', hback⟩ := @dropWhile_keeps isJsSpace h [] d.reverse [] hh
      have hdropped : (d.reverse ++ [h]).dropWhile isJsSpace = a' ++ [h] := by
        simpa using hback
      have htrim : trimSpace l = h :: a'.reverse := by
        rw [trimSpace, hfront, List.reverse_cons, hdropped]
        simp
      rw [htrim, trimSpace, List.dropWhile_cons_of_neg (by simp [hh]), List.reverse_cons,
        List.reverse_reverse, ← hdropped, List.dropWhile_idempotent, hdropped]
      simp

/-! ## The fixpoint -/

/-- Nothing the pass strips is there. -/
structure Stripped (str : String) : Prop where
  bidi : ∀ c ∈ str.toList, isBidiOverride c = false
  block : ¬ Occurs afterScriptBlock str.toList
  tag : ¬ Occurs afterTag str.toList
  protocol : ¬ Occurs afterProtocol str.toList
  handler : ¬ Occurs afterHandler str.toList
  data : ¬ Occurs afterData str.toList

/-- **The condition**, on the text before the fourth replacement, and on those before the fifth and
the sixth: what is cut has not, on both sides of it, the parts of a word of the pattern cut or of
one cut before. -/
structure NothingJoined (cs : List Char) : Prop where
  protocol : ¬ Joins afterProtocol afterProtocol cs
  handler : ∀ q ∈ [afterProtocol, afterHandler],
    ¬ Joins q afterHandler (cut afterProtocol cs)
  data : ∀ q ∈ [afterProtocol, afterHandler, afterData],
    ¬ Joins q afterData (cut afterHandler (cut afterProtocol cs))

/-- The last three patterns are in the text that is left exactly when a cut has joined one. -/
theorem nothingJoined_iff (cs : List Char) : NothingJoined cs ↔
    ¬ Occurs afterProtocol (strippedText cs) ∧ ¬ Occurs afterHandler (strippedText cs) ∧
      ¬ Occurs afterData (strippedText cs) := by
  have hp := lawful_protocol
  have hh := lawful_handler
  have hd := lawful_data
  have hfirst := @occurs_cut_iff _ _ _ cs hp hp (.inl rfl)
  constructor
  · intro h
    have hprotocol : ¬ Occurs afterProtocol (cut afterProtocol cs) := fun ho =>
      h.protocol (hfirst.mp ho)
    have hprotocol' : ¬ Occurs afterProtocol (cut afterHandler (cut afterProtocol cs)) := fun ho =>
      h.handler _ (by simp) ((occurs_cut_iff hh hp (.inr hprotocol)).mp ho)
    have hhandler : ¬ Occurs afterHandler (cut afterHandler (cut afterProtocol cs)) := fun ho =>
      h.handler _ (by simp) ((occurs_cut_iff hh hh (.inl rfl)).mp ho)
    refine ⟨fun ho => ?_, fun ho => ?_, fun ho => ?_⟩
    · exact h.data _ (by simp) ((occurs_cut_iff hd hp (.inr hprotocol')).mp ho)
    · exact h.data _ (by simp) ((occurs_cut_iff hd hh (.inr hhandler)).mp ho)
    · exact h.data _ (by simp) ((occurs_cut_iff hd hd (.inl rfl)).mp ho)
  · rintro ⟨hprotocol, hhandler, hdata⟩
    -- what is left by one replacement survives the next ones
    have hprotocol' : ¬ Occurs afterProtocol (cut afterHandler (cut afterProtocol cs)) := fun ho =>
      hprotocol (ho.cut hd protocol_apart_data)
    have hprotocol'' : ¬ Occurs afterProtocol (cut afterProtocol cs) := fun ho =>
      hprotocol' (ho.cut hh protocol_apart_handler)
    have hhandler' : ¬ Occurs afterHandler (cut afterHandler (cut afterProtocol cs)) := fun ho =>
      hhandler (ho.cut hd handler_apart_data)
    refine ⟨fun hj => hprotocol'' (hfirst.mpr hj), fun q hq hj => ?_, fun q hq hj => ?_⟩
    · simp only [List.mem_cons, List.not_mem_nil, or_false] at hq
      rcases hq with rfl | rfl
      · exact hprotocol' ((occurs_cut_iff hh hp (.inr hprotocol'')).mpr hj)
      · exact hhandler' ((occurs_cut_iff hh hh (.inl rfl)).mpr hj)
    · simp only [List.mem_cons, List.not_mem_nil, or_false] at hq
      rcases hq with rfl | rfl | rfl
      · exact hprotocol ((occurs_cut_iff hd hp (.inr hprotocol')).mpr hj)
      · exact hhandler ((occurs_cut_iff hd hh (.inr hhandler')).mpr hj)
      · exact hdata ((occurs_cut_iff hd hd (.inl rfl)).mpr hj)

theorem strippedText_sublist (cs : List Char) : (strippedText cs).Sublist cs :=
  (cut_sublist lawful_data _).trans
    ((cut_sublist lawful_handler _).trans (cut_sublist lawful_protocol cs))

/-- The characters of the output: no override, and no tag. -/
theorem output_sublist (str : String) :
    (trimSpace (strippedText (untagged str))).Sublist (untagged str) :=
  (trimSpace_sublist _).trans (strippedText_sublist _)

/-- No bidi override is left. -/
theorem output_bidi (str : String) :
    ∀ c ∈ trimSpace (strippedText (untagged str)), isBidiOverride c = false := by
  intro c hc
  have hsub := (cut_sublist lawful_tag _).trans (cut_sublist lawful_block
    (str.toList.filter (fun c => ¬ isBidiOverride c)))
  have hmem := hsub.subset ((output_sublist str).subset hc)
  simpa using (List.mem_filter.mp hmem).2

/-- No tag is left. -/
theorem output_tag (str : String) :
    ¬ ['<', '>'].Sublist (trimSpace (strippedText (untagged str))) :=
  fun h => cut_tag (h.trans (output_sublist str))

/-- The output holds one of the last three patterns exactly when the untrimmed text does. -/
theorem occurs_output {l : List Char} :
    (Occurs afterProtocol (trimSpace l) ↔ Occurs afterProtocol l) ∧
      (Occurs afterHandler (trimSpace l) ↔ Occurs afterHandler l) ∧
      (Occurs afterData (trimSpace l) ↔ Occurs afterData l) := by
  refine ⟨occurs_trimSpace fun hm => ?_, occurs_trimSpace fun hm => ?_,
    occurs_trimSpace fun hm => ?_⟩
  · obtain ⟨⟨c, t, hhead, _, hc⟩, ⟨t', hlast⟩, _⟩ := protocol_like hm
    exact ⟨⟨c, t, hhead, hc⟩, t', ':', hlast, by decide⟩
  · obtain ⟨⟨c, t, hhead, _, hc⟩, ⟨t', hlast⟩, _⟩ := handler_like hm
    exact ⟨⟨c, t, hhead, hc⟩, t', '=', hlast, by decide⟩
  · obtain ⟨⟨c, t, hhead, _, hc⟩, ⟨t', e, hlast, he⟩, _, _⟩ := data_like hm
    exact ⟨⟨c, t, hhead, hc⟩, t', e, hlast, he⟩

/-- **The output holds nothing the pass strips exactly when no cut has joined anything.** -/
theorem stripped_iff (str : String) :
    Stripped (sanitizeString str) ↔ NothingJoined (untagged str) := by
  rw [nothingJoined_iff]
  obtain ⟨hprotocol, hhandler, hdata⟩ := @occurs_output (strippedText (untagged str))
  have hchars : (sanitizeString str).toList = trimSpace (strippedText (untagged str)) := by
    simp [sanitizeString]
  constructor
  · intro h
    refine ⟨fun ho => h.protocol ?_, fun ho => h.handler ?_, fun ho => h.data ?_⟩
    · exact hchars ▸ hprotocol.mpr ho
    · exact hchars ▸ hhandler.mpr ho
    · exact hchars ▸ hdata.mpr ho
  · rintro ⟨hp, hh, hd⟩
    constructor
    · rw [hchars]
      exact output_bidi str
    · rw [hchars]
      exact fun ho => output_tag str (sublist_of_block ho)
    · rw [hchars]
      exact fun ho => output_tag str (sublist_of_tag ho)
    · rw [hchars, hprotocol]
      exact hp
    · rw [hchars, hhandler]
      exact hh
    · rw [hchars, hdata]
      exact hd

/-- A second pass finds no tag and no override: it begins with the fourth replacement. -/
theorem sanitizeString_again (str : String) : sanitizeString (sanitizeString str) =
    String.ofList (trimSpace (strippedText (sanitizeString str).toList)) := by
  have hchars : (sanitizeString str).toList = trimSpace (strippedText (untagged str)) := by
    simp [sanitizeString]
  have hfilter : (sanitizeString str).toList.filter (fun c => ¬ isBidiOverride c) =
      (sanitizeString str).toList := by
    refine List.filter_eq_self.mpr fun c hc => ?_
    rw [hchars] at hc
    simpa using output_bidi str c hc
  have hblock : ¬ Occurs afterScriptBlock (sanitizeString str).toList := by
    rw [hchars]
    exact fun ho => output_tag str (sublist_of_block ho)
  have htag : ¬ Occurs afterTag (sanitizeString str).toList := by
    rw [hchars]
    exact fun ho => output_tag str (sublist_of_tag ho)
  rw [sanitizeString, untagged, hfilter, cut_of_not_occurs lawful_block hblock,
    cut_of_not_occurs lawful_tag htag]

/-- A text with one of the last three patterns gets shorter. -/
theorem length_strippedText_lt {cs : List Char} (h : Occurs afterProtocol cs ∨
    Occurs afterHandler cs ∨ Occurs afterData cs) : (strippedText cs).length < cs.length := by
  have hlast := (cut_sublist lawful_data (cut afterHandler (cut afterProtocol cs))).length_le
  have hmiddle := (cut_sublist lawful_handler (cut afterProtocol cs)).length_le
  by_cases hp : Occurs afterProtocol cs
  · exact hlast.trans_lt (hmiddle.trans_lt (length_cut_lt lawful_protocol hp))
  · have hsame := cut_of_not_occurs lawful_protocol hp
    unfold strippedText
    rw [hsame] at hlast hmiddle ⊢
    by_cases hh : Occurs afterHandler cs
    · exact hlast.trans_lt (length_cut_lt lawful_handler hh)
    · rw [cut_of_not_occurs lawful_handler hh]
      exact length_cut_lt lawful_data ((h.resolve_left hp).resolve_left hh)

/-- **Sanitising again changes nothing exactly when no cut of the first pass has joined anything**,
and then, and only then, its output holds nothing the pass strips. -/
theorem sanitizeString_fixpoint_iff (str : String) :
    (sanitizeString (sanitizeString str) = sanitizeString str ↔ NothingJoined (untagged str)) ∧
      (Stripped (sanitizeString str) ↔ NothingJoined (untagged str)) := by
  refine ⟨?_, stripped_iff str⟩
  have hchars : (sanitizeString str).toList = trimSpace (strippedText (untagged str)) := by
    simp [sanitizeString]
  rw [← stripped_iff, sanitizeString_again]
  constructor
  · intro hsame
    have hlength : ∀ h : Occurs afterProtocol (sanitizeString str).toList ∨
        Occurs afterHandler (sanitizeString str).toList ∨
        Occurs afterData (sanitizeString str).toList, False := by
      intro h
      have hlt := length_strippedText_lt h
      have hle := (trimSpace_sublist (strippedText (sanitizeString str).toList)).length_le
      have heq := congrArg (fun s => s.toList.length) hsame
      simp only [String.toList_ofList] at heq
      omega
    rw [stripped_iff, nothingJoined_iff]
    obtain ⟨hprotocol, hhandler, hdata⟩ := @occurs_output (strippedText (untagged str))
    rw [hchars, hprotocol, hhandler, hdata] at hlength
    exact ⟨fun ho => hlength (.inl ho), fun ho => hlength (.inr (.inl ho)),
      fun ho => hlength (.inr (.inr ho))⟩
  · intro h
    rw [strippedText, cut_of_not_occurs lawful_protocol h.protocol,
      cut_of_not_occurs lawful_handler h.handler, cut_of_not_occurs lawful_data h.data, hchars,
      trimSpace_trimSpace, ← hchars, String.ofList_toList]

/-- The protocol inside the protocol: the pass leaves what it is meant to strip. -/
theorem nested_protocol_left :
    sanitizeString "javajavascript:script:alert(1)" = "javascript:alert(1)" ∧
      sanitizeString "javascript:alert(1)" = "alert(1)" ∧
      ¬ Stripped (sanitizeString "javajavascript:script:alert(1)") := by
  have hleft : sanitizeString "javajavascript:script:alert(1)" = "javascript:alert(1)" := by
    decide +kernel
  refine ⟨hleft, by decide +kernel, fun h => h.protocol ?_⟩
  rw [hleft]
  exact ⟨[], "javascript:".toList, "alert(1)".toList, by decide, by decide⟩

end Jadwal
