import Jadwal.Sanitize
import Jadwal.SnapshotJson
import Mathlib

/-!
# Sanitising a whole body

`SanitizePipe.transform` walks through a parsed body.  An object is rebuilt entry by entry, an
array under a key is mapped; but an array that is the body, or an item of another array, is taken
for an object, and the entry `__proto__` is assigned, which sets the prototype of the new object
instead of a key.  What is asked: that every string a handler can then reach has been sanitised,
inherited ones included (`body_strings_clean`), and when the shape of the body is kept
(`body_shape_kept_iff`).
-/

namespace Jadwal

/-- A value in memory; `proto` is the prototype of an object where it is not `Object.prototype`. -/
inductive JsValue
  | null
  | bool (b : Bool)
  | num (q : ℚ)
  | str (s : String)
  | arr (items : List JsValue)
  | obj (entries : List (String × JsValue)) (proto : Option JsValue)

namespace JsValue

/-- What may be a prototype. -/
def isProto : JsValue → Bool
  | null | arr _ | obj _ _ => true
  | _ => false

/-- `sanitized[key] = val`, for the entries in turn, on a new object. -/
def assigned (entries : List (String × JsValue)) : JsValue :=
  obj (entries.filter (fun e => e.1 ≠ "__proto__"))
    ((entries.find? (fun e => e.1 = "__proto__" ∧ e.2.isProto)).map Prod.snd)

/-- `Object.entries` of an array. -/
def indexed (start : Nat) : List JsValue → List (String × JsValue)
  | [] => []
  | v :: vs => (toString start, v) :: indexed (start + 1) vs

/-! Every string that can be read off a value, through its prototypes as well. -/

mutual

def strings : JsValue → List String
  | str s => [s]
  | arr items => stringsOfItems items
  | obj entries none => stringsOfEntries entries
  | obj entries (some proto) => stringsOfEntries entries ++ strings proto
  | _ => []

def stringsOfItems : List JsValue → List String
  | [] => []
  | v :: vs => strings v ++ stringsOfItems vs

def stringsOfEntries : List (String × JsValue) → List String
  | [] => []
  | (_, v) :: es => strings v ++ stringsOfEntries es

end

end JsValue

open JsValue

/-! ## The pipe -/

mutual

/-- The body, or an item of an array: every object goes through `sanitizeObject`. -/
def sanitizeItem : Json → JsValue
  | .str s => .str (sanitizeString s)
  | .arr items => .obj (indexed 0 (sanitizeFields items)) none
  | .obj fields => assigned (sanitizeEntries fields)
  | .null => .null
  | .bool b => .bool b
  | .num q => .num q

/-- A value under a key: an array is mapped. -/
def sanitizeField : Json → JsValue
  | .str s => .str (sanitizeString s)
  | .arr items => .arr (sanitizeItems items)
  | .obj fields => assigned (sanitizeEntries fields)
  | .null => .null
  | .bool b => .bool b
  | .num q => .num q

def sanitizeItems : List Json → List JsValue
  | [] => []
  | v :: vs => sanitizeItem v :: sanitizeItems vs

def sanitizeFields : List Json → List JsValue
  | [] => []
  | v :: vs => sanitizeField v :: sanitizeFields vs

def sanitizeEntries : List (String × Json) → List (String × JsValue)
  | [] => []
  | (key, v) :: es => (key, sanitizeField v) :: sanitizeEntries es

end

/-- `ArgumentMetadata.type` -/
inductive ArgumentType
  | body | query | param | custom
  deriving DecidableEq, Repr

mutual

/-- The value as it was parsed, each of its strings rewritten. -/
def withStrings (f : String → String) : Json → JsValue
  | .str s => .str (f s)
  | .arr items => .arr (itemsWith f items)
  | .obj fields => .obj (entriesWith f fields) none
  | .null => .null
  | .bool b => .bool b
  | .num q => .num q

def itemsWith (f : String → String) : List Json → List JsValue
  | [] => []
  | v :: vs => withStrings f v :: itemsWith f vs

def entriesWith (f : String → String) : List (String × Json) → List (String × JsValue)
  | [] => []
  | (key, v) :: es => (key, withStrings f v) :: entriesWith f es

end

/-- `transform` of the pipe. -/
def sanitizePipe (type : ArgumentType) (value : Json) : JsValue :=
  if type = .custom then withStrings id value else sanitizeItem value

mutual

/-- Neither an array, nor one in an array somewhere inside, nor a key `__proto__`. -/
def plainItem : Json → Bool
  | .arr _ => false
  | .obj fields => plainEntries fields
  | _ => true

def plainField : Json → Bool
  | .arr items => plainItems items
  | .obj fields => plainEntries fields
  | _ => true

def plainItems : List Json → Bool
  | [] => true
  | v :: vs => plainItem v && plainItems vs

def plainEntries : List (String × Json) → Bool
  | [] => true
  | (key, v) :: es => decide (key ≠ "__proto__") && plainField v && plainEntries es

end

/-- No override of the direction of the text, and no tag. -/
def Untagged (s : String) : Prop :=
  (∀ c ∈ s.toList, isBidiOverride c = false) ∧ ¬ ['<', '>'].Sublist s.toList

/-- A string that was sanitised holds no tag and no bidi override. -/
theorem untagged_sanitizeString (s : String) : Untagged (sanitizeString s) := by
  have hchars : (sanitizeString s).toList = trimSpace (strippedText (untagged s)) := by
    simp [sanitizeString]
  unfold Untagged
  rw [hchars]
  exact ⟨output_bidi s, output_tag s⟩

/-- Dropping entries brings in no string. -/
theorem stringsOfEntries_filter {entries : List (String × JsValue)} {p : String × JsValue → Bool}
    {s : String} (h : s ∈ stringsOfEntries (entries.filter p)) : s ∈ stringsOfEntries entries := by
  induction entries with
  | nil => exact h
  | cons e es ih =>
      obtain ⟨key, v⟩ := e
      by_cases hp : p (key, v) = true
      · rw [List.filter_cons_of_pos hp] at h
        rcases List.mem_append.mp h with h | h
        · exact List.mem_append_left _ h
        · exact List.mem_append_right _ (ih h)
      · rw [List.filter_cons_of_neg hp] at h
        exact List.mem_append_right _ (ih h)

/-- The strings of an entry are among those of its object. -/
theorem strings_of_mem {entries : List (String × JsValue)} {e : String × JsValue} {s : String}
    (he : e ∈ entries) (h : s ∈ strings e.2) : s ∈ stringsOfEntries entries := by
  induction entries with
  | nil => cases he
  | cons e' es ih =>
      rcases List.mem_cons.mp he with rfl | he
      · exact List.mem_append_left _ h
      · exact List.mem_append_right _ (ih he)

/-- What can be read off an object was assigned. -/
theorem strings_assigned {entries : List (String × JsValue)} {s : String}
    (h : s ∈ strings (assigned entries)) : s ∈ stringsOfEntries entries := by
  unfold assigned at h
  cases hfind : entries.find? (fun e => e.1 = "__proto__" ∧ e.2.isProto) with
  | none =>
      rw [hfind, Option.map_none, strings] at h
      exact stringsOfEntries_filter h
  | some e =>
      rw [hfind, Option.map_some, strings] at h
      rcases List.mem_append.mp h with h | h
      · exact stringsOfEntries_filter h
      · exact strings_of_mem (List.mem_of_find?_eq_some hfind) h

/-- Index keys leave the strings as they are. -/
theorem stringsOfEntries_indexed (start : Nat) (vs : List JsValue) :
    stringsOfEntries (indexed start vs) = stringsOfItems vs := by
  induction vs generalizing start with
  | nil => rfl
  | cons v vs ih => rw [indexed, stringsOfEntries, stringsOfItems, ih]

mutual

/-- **What comes of an item is clean**, by recursion through the three forms of lists. -/
theorem item_clean (v : Json) : ∀ s ∈ strings (sanitizeItem v), Untagged s := by
  intro s hs
  cases v with
  | str t =>
      rw [List.mem_singleton.mp hs]
      exact untagged_sanitizeString t
  | arr items =>
      rw [sanitizeItem, strings, stringsOfEntries_indexed] at hs
      exact fields_clean items s hs
  | obj fields => exact entries_clean fields s (strings_assigned hs)
  | null => cases hs
  | bool b => cases hs
  | num q => cases hs

/-- The same of the value of a field. -/
theorem field_clean (v : Json) : ∀ s ∈ strings (sanitizeField v), Untagged s := by
  intro s hs
  cases v with
  | str t =>
      rw [List.mem_singleton.mp hs]
      exact untagged_sanitizeString t
  | arr items => exact items_clean items s hs
  | obj fields => exact entries_clean fields s (strings_assigned hs)
  | null => cases hs
  | bool b => cases hs
  | num q => cases hs

/-- The same of the items of an array. -/
theorem items_clean (vs : List Json) : ∀ s ∈ stringsOfItems (sanitizeItems vs), Untagged s := by
  intro s hs
  cases vs with
  | nil => cases hs
  | cons v vs =>
      rcases List.mem_append.mp hs with hs | hs
      · exact item_clean v s hs
      · exact items_clean vs s hs

/-- The same of the items of an array that is read as an object. -/
theorem fields_clean (vs : List Json) : ∀ s ∈ stringsOfItems (sanitizeFields vs), Untagged s := by
  intro s hs
  cases vs with
  | nil => cases hs
  | cons v vs =>
      rcases List.mem_append.mp hs with hs | hs
      · exact field_clean v s hs
      · exact fields_clean vs s hs

/-- The same of the entries of an object. -/
theorem entries_clean (es : List (String × Json)) :
    ∀ s ∈ stringsOfEntries (sanitizeEntries es), Untagged s := by
  intro s hs
  cases es with
  | nil => cases hs
  | cons e es =>
      obtain ⟨key, v⟩ := e
      rcases List.mem_append.mp hs with hs | hs
      · exact field_clean v s hs
      · exact entries_clean es s hs

end

/-- **No handler reads a string with a tag**: of a body, a query or a parameter, every string that
can be read off what the pipe hands on, through arrays, objects and prototypes, is free of tags
and of overrides. -/
theorem body_strings_clean {type : ArgumentType} (htype : type ≠ .custom) (value : Json) :
    ∀ s ∈ strings (sanitizePipe type value), Untagged s := by
  unfold sanitizePipe
  rw [if_neg htype]
  exact item_clean value

/-- A prototype that a key sets is sanitised like the rest. -/
theorem body_strings_clean_proto : "admin" ∈ strings (sanitizePipe .body
    (.obj [("__proto__", .obj [("role", .str "<b>admin</b>")])])) ∧ Untagged "admin" := by
  have hmem : "admin" ∈ strings (sanitizePipe .body
      (.obj [("__proto__", .obj [("role", .str "<b>admin</b>")])])) := by decide
  exact ⟨hmem, body_strings_clean (by decide) _ _ hmem⟩

/-- However the strings are changed, as many entries are read. -/
theorem length_entriesWith (f : String → String) (es : List (String × Json)) :
    (entriesWith f es).length = (sanitizeEntries es).length := by
  induction es with
  | nil => rfl
  | cons e es ih => rw [sanitizeEntries, entriesWith, List.length_cons, List.length_cons, ih]

/-- An object is built as it was given when no entry is for the prototype. -/
theorem assigned_eq_iff {a b : List (String × JsValue)} (hlen : b.length = a.length) :
    assigned a = .obj b none ↔ a = b ∧ ∀ e ∈ a, e.1 ≠ "__proto__" := by
  unfold assigned
  constructor
  · intro h
    obtain ⟨hfilter, _⟩ := JsValue.obj.inj h
    have hall : ∀ e ∈ a, e.1 ≠ "__proto__" := by
      have hsame := congrArg List.length hfilter
      rw [hlen, List.length_filter_eq_length_iff] at hsame
      exact fun e he => of_decide_eq_true (hsame e he)
    rw [List.filter_eq_self.mpr fun e he => decide_eq_true (hall e he)] at hfilter
    exact ⟨hfilter, hall⟩
  · intro h
    obtain ⟨rfl, hall⟩ := h
    have hnone : a.find? (fun e => e.1 = "__proto__" ∧ e.2.isProto) = none := by
      rw [List.find?_eq_none]
      intro e he hp
      exact hall e he (of_decide_eq_true hp).1
    rw [List.filter_eq_self.mpr fun e he => decide_eq_true (hall e he), hnone]
    rfl

mutual

/-- **An item keeps its shape** exactly where it is plain. -/
theorem item_shape (v : Json) :
    sanitizeItem v = withStrings sanitizeString v ↔ plainItem v = true := by
  cases v with
  | arr items =>
      simp only [sanitizeItem, withStrings, plainItem, Bool.false_eq_true, iff_false]
      intro h
      cases h
  | obj fields =>
      simp only [sanitizeItem, withStrings, plainItem]
      rw [assigned_eq_iff (length_entriesWith _ _)]
      exact entries_shape fields
  | str t => simp [sanitizeItem, withStrings, plainItem]
  | null => simp [sanitizeItem, withStrings, plainItem]
  | bool b => simp [sanitizeItem, withStrings, plainItem]
  | num q => simp [sanitizeItem, withStrings, plainItem]

/-- A field keeps its shape exactly where it is plain. -/
theorem field_shape (v : Json) :
    sanitizeField v = withStrings sanitizeString v ↔ plainField v = true := by
  cases v with
  | arr items =>
      simp only [sanitizeField, withStrings, plainField, JsValue.arr.injEq]
      exact items_shape items
  | obj fields =>
      simp only [sanitizeField, withStrings, plainField]
      rw [assigned_eq_iff (length_entriesWith _ _)]
      exact entries_shape fields
  | str t => simp [sanitizeField, withStrings, plainField]
  | null => simp [sanitizeField, withStrings, plainField]
  | bool b => simp [sanitizeField, withStrings, plainField]
  | num q => simp [sanitizeField, withStrings, plainField]

/-- The items of an array keep their shape exactly where each is plain. -/
theorem items_shape (vs : List Json) :
    sanitizeItems vs = itemsWith sanitizeString vs ↔ plainItems vs = true := by
  cases vs with
  | nil => simp [sanitizeItems, itemsWith, plainItems]
  | cons v vs =>
      simp only [sanitizeItems, itemsWith, plainItems, List.cons.injEq, Bool.and_eq_true]
      exact and_congr (item_shape v) (items_shape vs)

/-- The entries keep their shape exactly where each is plain and none names the prototype. -/
theorem entries_shape (es : List (String × Json)) :
    (sanitizeEntries es = entriesWith sanitizeString es ∧
      ∀ e ∈ sanitizeEntries es, e.1 ≠ "__proto__") ↔ plainEntries es = true := by
  cases es with
  | nil => simp [sanitizeEntries, entriesWith, plainEntries]
  | cons e es =>
      obtain ⟨key, v⟩ := e
      have hfield := field_shape v
      have hrest := entries_shape es
      simp only [sanitizeEntries, entriesWith, plainEntries, List.cons.injEq, Prod.mk.injEq,
        true_and, List.forall_mem_cons, Bool.and_eq_true, decide_eq_true_eq, ← hfield, ← hrest]
      tauto

end

/-- **When the body keeps its shape**: the pipe hands on the body as it was parsed, its strings
sanitised, exactly when the body is no array and holds no array directly in an array and no key
`__proto__` anywhere. -/
theorem body_shape_kept_iff (value : Json) :
    sanitizePipe .body value = withStrings sanitizeString value ↔ plainItem value = true :=
  item_shape value

/-- A list of lists comes out as a list of objects. -/
example : sanitizePipe .body (.obj [("rows", .arr [.arr [.num 1]])]) =
    .obj [("rows", .arr [.obj [("0", .num 1)] none])] none := by
  simp [sanitizePipe, sanitizeItem, sanitizeEntries, sanitizeField, sanitizeItems, sanitizeFields,
    assigned, indexed]
  rfl

end Jadwal
