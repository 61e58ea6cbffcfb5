import FxDealManager.Domain.Values
import FxDealManager.Text.JsonText

/-!
# JSON values as texts

What `json.dumps` makes of a value, and what `json.loads` makes of a text. The audit log stores
texts, the notifications read them.

## Main definitions

* `Json.dumps`, `Json.loads`: a value as a text, and the value of a text
* `Json.FloatFree`: a value without floats

## Main results

* `loads_dumps`: a value without floats is read back
* `dumps_ascii`: a text is made of printable ASCII characters
-/

namespace FxDealManager

open JsonText

namespace Json

/-! ## Writing -/

/-- The text of a float; infinities and what is no number have names of their own. -/
def floatText (text : String) : String :=
  if text = "inf" then "Infinity"
  else if text = "-inf" then "-Infinity"
  else if text = "nan" then "NaN"
  else text

mutual

/-- The characters of a value. -/
def write : Json → List Char
  | .null => "null".toList
  | .bool b => if b then "true".toList else "false".toList
  | .int n => (toString n).toList
  | .float _ text => (floatText text).toList
  | .str s => encode s.toList
  | .arr items => '[' :: (joined (writeItems items) ++ [']'])
  | .obj fields => '\x7b' :: (joined (writeFields fields) ++ ['\x7d'])

/-- The characters of the items of an array. -/
def writeItems : List Json → List (List Char)
  | [] => []
  | item :: items => write item :: writeItems items

/-- The characters of the fields of an object. -/
def writeFields : List (String × Json) → List (List Char)
  | [] => []
  | (key, value) :: fields => writtenField key.toList (write value) :: writeFields fields

end

/-- `json.dumps`. -/
def dumps (value : Json) : String := String.ofList value.write

/-! ## Reading -/

section Reading

-- the float that the text of a number with a fraction or an exponent stands for
variable (float : String → Json)

/-- The words that are values. -/
def words : List (String × Json) :=
  [("null", .null), ("true", .bool true), ("false", .bool false), ("NaN", .float false "nan"),
    ("Infinity", .float false "inf"), ("-Infinity", .float false "-inf")]

def readWord : Reader Json := fun cs =>
  (words.find? fun word => word.1.toList.isPrefixOf cs).map fun word =>
    (word.2, cs.drop word.1.length)

def ofNumber : Number → Json
  | .int n => .int n
  | .float text => float (String.ofList text)

/-- A value at the beginning of a text. -/
def readValue : (fuel : ℕ) → Reader Json
  | 0, _ => none
  | _ + 1, [] => none
  | fuel + 1, c :: cs =>
    if c = quote then (readString fuel cs).map fun (s, cs) => (.str (String.ofList s), cs)
    else if c = '[' then
      (readSequence ']' (readValue fuel) fuel cs).map fun (items, cs) => (.arr items, cs)
    else if c = '\x7b' then
      (readSequence '\x7d' (readField (readValue fuel) fuel) fuel cs).map fun (fields, cs) =>
        (.obj (fields.map fun field => (String.ofList field.1, field.2)), cs)
    else
      (readWord (c :: cs)).or ((readNumber (c :: cs)).map fun (n, cs) => (ofNumber float n, cs))

/-- `json.loads`. -/
def loads (text : String) : Option Json :=
  match readValue float (text.length + 1) (skipSpaces text.toList) with
  | some (value, rest) => if skipSpaces rest = [] then some value else none
  | none => none

end Reading

/-! ## The round trip -/

/-- A value without floats. -/
inductive FloatFree : Json → Prop
  | null : FloatFree .null
  | bool (b : Bool) : FloatFree (.bool b)
  | int (n : ℤ) : FloatFree (.int n)
  | str (s : String) : FloatFree (.str s)
  | arr {items : List Json} (h : ∀ item ∈ items, FloatFree item) : FloatFree (.arr items)
  | obj {fields : List (String × Json)} (h : ∀ field ∈ fields, FloatFree field.2) :
      FloatFree (.obj fields)

theorem writeItems_eq_map (items : List Json) : writeItems items = items.map write := by
  induction items with
  | nil => rfl
  | cons item items ih => rw [writeItems, ih, List.map_cons]

theorem writeFields_eq_map (fields : List (String × Json)) :
    writeFields fields = fields.map fun field => writtenField field.1.toList field.2.write := by
  induction fields with
  | nil => rfl
  | cons field fields ih => rw [writeFields, ih, List.map_cons]

theorem readWord_eq_none {c : Char} (h : c.isDigit = true) (cs : List Char) :
    readWord (c :: cs) = none ∧ readWord ('-' :: c :: cs) = none := by
  have hne : ∀ c', c'.isDigit = false → (c' == c) = false := by
    rintro c' hc'
    rw [beq_eq_false_iff_ne]
    rintro rfl
    exact absurd (hc'.symm.trans h) (by decide)
  have hminus : ∀ c', c' ≠ '-' → (c' == '-') = false := fun c' hc' => beq_eq_false_iff_ne.mpr hc'
  constructor
  · simp [readWord, words, List.isPrefixOf, hne]
  · simp [readWord, words, List.isPrefixOf, hne, hminus]

section RoundTrip

variable (float : String → Json) {fuel : ℕ}

/-- The characters of an integer begin with a digit, or with a sign and a digit. -/
theorem toString_head (n : ℤ) : ∃ c cs, c.isDigit = true ∧
    ((toString n).toList = c :: cs ∨ (toString n).toList = '-' :: c :: cs) := by
  have hdigits : ∀ m : ℕ, ∃ c cs, c.isDigit = true ∧ Nat.toDigits 10 m = c :: cs := by
    intro m
    obtain ⟨c, cs, hcs⟩ := List.exists_cons_of_ne_nil
      (Nat.toDigits_ne_nil : Nat.toDigits 10 m ≠ [])
    exact ⟨c, cs, DecimalText.isDigit_toDigits c (hcs ▸ List.mem_cons_self), hcs⟩
  rw [DecimalText.toList_toString_int]
  cases n with
  | ofNat m =>
    obtain ⟨c, cs, hc, hcs⟩ := hdigits m
    exact ⟨c, cs, hc, .inl hcs⟩
  | negSucc m =>
    obtain ⟨c, cs, hc, hcs⟩ := hdigits (m + 1)
    exact ⟨c, cs, hc, .inr (congrArg ('-' :: ·) hcs)⟩

theorem isDigit_ne {c : Char} (h : c.isDigit = true) :
    c ≠ quote ∧ c ≠ '[' ∧ c ≠ '\x7b' ∧ isSpace c = false ∧ c ≠ ']' ∧ c ≠ '\x7d' := by
  have hne : ∀ c', c'.isDigit = false → c ≠ c' := by
    rintro c' hc' rfl
    exact absurd (hc'.symm.trans h) (by decide)
  refine ⟨hne _ rfl, hne _ rfl, hne _ rfl, ?_, hne _ rfl, hne _ rfl⟩
  simp [isSpace, hne ' ' rfl, hne '\t' rfl, hne '\n' rfl, hne '\r' rfl]

theorem reads_int (n : ℤ) : Reads (readValue float (fuel + 1)) (toString n).toList (.int n) := by
  intro rest hrest
  have hnumber := readNumber_toString n hrest
  obtain ⟨c, cs, hc, hcs | hcs⟩ := toString_head n
  · obtain ⟨hquote, hbracket, hbrace, -⟩ := isDigit_ne hc
    rw [hcs, List.cons_append] at hnumber ⊢
    rw [readValue, if_neg hquote, if_neg hbracket, if_neg hbrace, hnumber,
      (readWord_eq_none hc _).1]
    rfl
  · rw [hcs, List.cons_append, List.cons_append] at hnumber ⊢
    rw [readValue, if_neg (by decide), if_neg (by decide), if_neg (by decide), hnumber,
      (readWord_eq_none hc _).2]
    rfl

/-- A value begins with no space and no closing bracket. -/
theorem solid_write {value : Json} (h : FloatFree value) : Solid value.write := by
  cases h with
  | null => exact ⟨'n', _, rfl, rfl, by decide, by decide⟩
  | bool b =>
    cases b
    · exact ⟨'f', _, rfl, rfl, by decide, by decide⟩
    · exact ⟨'t', _, rfl, rfl, by decide, by decide⟩
  | int n =>
    obtain ⟨c, cs, hc, hcs | hcs⟩ := toString_head n
    · obtain ⟨-, -, -, hspace, hbracket, hbrace⟩ := isDigit_ne hc
      exact ⟨c, cs, hcs, hspace, hbracket, hbrace⟩
    · exact ⟨'-', c :: cs, hcs, rfl, by decide, by decide⟩
  | str s => exact ⟨quote, _, rfl, rfl, by decide, by decide⟩
  | arr h => exact ⟨'[', _, rfl, rfl, by decide, by decide⟩
  | obj h => exact ⟨'\x7b', _, rfl, rfl, by decide, by decide⟩

/-- **A value is read back**, if there is fuel for its characters. -/
theorem reads_write {value : Json} (h : FloatFree value) (hfuel : value.write.length ≤ fuel) :
    Reads (readValue float fuel) value.write value := by
  induction h generalizing fuel with
  | null =>
    obtain ⟨fuel, rfl⟩ := Nat.exists_eq_add_one.mpr (Nat.zero_lt_of_lt hfuel)
    exact fun rest _ => rfl
  | bool b =>
    cases b <;> obtain ⟨fuel, rfl⟩ := Nat.exists_eq_add_one.mpr (Nat.zero_lt_of_lt hfuel) <;>
      exact fun rest _ => rfl
  | int n =>
    have hpos : 0 < (toString n).toList.length := by
      obtain ⟨c, cs, -, hcs | hcs⟩ := toString_head n <;> rw [hcs] <;> exact Nat.succ_pos _
    rw [write] at hfuel
    obtain ⟨fuel, rfl⟩ := Nat.exists_eq_add_one.mpr (hpos.trans_le hfuel)
    exact reads_int float n
  | str s =>
    have hlength := length_le_encode s.toList
    rw [write] at hfuel
    obtain ⟨fuel, rfl⟩ := Nat.exists_eq_add_one.mpr (by omega : 0 < fuel)
    intro rest _
    have hread := readString_encode (by omega : s.toList.length < fuel) rest
    have htext : encode s.toList ++ rest =
        quote :: (s.toList.flatMap encodeChar ++ quote :: rest) := by
      simp [encode]
    rw [write, htext, readValue, if_pos rfl, hread]
    simp
  | @arr items h ih =>
    have hsolid : ∀ text ∈ items.map write, Solid text := by
      intro text htext
      obtain ⟨item, hitem, rfl⟩ := List.mem_map.mp htext
      exact solid_write (h item hitem)
    have hcount := length_texts_le_joined hsolid
    rw [write, writeItems_eq_map, List.length_cons, List.length_append,
      List.length_singleton] at hfuel
    obtain ⟨fuel, rfl⟩ := Nat.exists_eq_add_one.mpr (by omega : 0 < fuel)
    have hitems : List.Forall₂ (Reads (readValue float fuel)) (items.map write) items := by
      rw [List.forall₂_map_left_iff, List.forall₂_same]
      intro item hitem
      have hle := length_le_joined (List.mem_map_of_mem hitem : item.write ∈ items.map write)
      exact ih item hitem (by omega)
    intro rest _
    have hread := readSequence_joined hitems hsolid (by omega : _ ≤ fuel) (.inl rfl) rest
    rw [write, writeItems_eq_map, List.cons_append, List.append_assoc, List.singleton_append,
      readValue, if_neg (by decide), if_pos rfl, hread]
    rfl
  | @obj fields h ih =>
    let texts := fields.map fun field => writtenField field.1.toList field.2.write
    have hsolid : ∀ text ∈ texts, Solid text := by
      intro text htext
      obtain ⟨field, -, rfl⟩ := List.mem_map.mp htext
      exact solid_writtenField _ _
    have hcount := length_texts_le_joined hsolid
    rw [write, writeFields_eq_map, List.length_cons, List.length_append,
      List.length_singleton] at hfuel
    change (joined texts).length + 1 + 1 ≤ fuel at hfuel
    obtain ⟨fuel, rfl⟩ := Nat.exists_eq_add_one.mpr (by omega : 0 < fuel)
    have hfields : List.Forall₂ (Reads (readField (readValue float fuel) fuel)) texts
        (fields.map fun field => (field.1.toList, field.2)) := by
      rw [List.forall₂_map_left_iff, List.forall₂_map_right_iff, List.forall₂_same]
      intro field hfield
      have hle : (writtenField field.1.toList field.2.write).length ≤ (joined texts).length :=
        length_le_joined (List.mem_map_of_mem hfield)
      have hlength := length_writtenField field.1.toList field.2.write
      exact reads_writtenField (ih field hfield (by omega)) (solid_write (h field hfield))
        (by omega)
    intro rest _
    have hread := readSequence_joined hfields hsolid (by omega : _ ≤ fuel) (.inr rfl) rest
    rw [write, writeFields_eq_map, List.cons_append, List.append_assoc, List.singleton_append,
      readValue, if_neg (by decide), if_neg (by decide), if_pos rfl, hread]
    simp [Function.comp_def]

/-- **A value is read back from its text.** -/
theorem loads_dumps {value : Json} (h : FloatFree value) :
    loads float value.dumps = some value := by
  have hlength : value.write.length ≤ value.dumps.length + 1 := by
    simp [dumps]
  have hread := reads_write float h hlength [] ends_nil
  rw [List.append_nil] at hread
  have hskip := (solid_write h).skipSpaces_append []
  rw [List.append_nil] at hskip
  have htoList : value.dumps.toList = value.write := String.toList_ofList
  rw [loads, htoList, hskip, hread]
  rfl

end RoundTrip

theorem bracketed_ascii {opening closing : Char} {cs : List Char} (hopening : IsAscii opening)
    (hclosing : IsAscii closing) (h : ∀ c ∈ cs, IsAscii c) :
    ∀ c ∈ opening :: (cs ++ [closing]), IsAscii c := by
  intro c hc
  rcases List.mem_cons.mp hc with rfl | hc
  · exact hopening
  · rcases List.mem_append.mp hc with hin | hlast
    · exact h c hin
    · rw [List.mem_singleton.mp hlast]
      exact hclosing

/-- **A text is made of printable ASCII characters.** -/
theorem dumps_ascii {value : Json} (h : FloatFree value) :
    ∀ c ∈ value.dumps.toList, IsAscii c := by
  rw [dumps, String.toList_ofList]
  induction h with
  | null => exact ascii_of_all rfl
  | bool b => cases b <;> exact ascii_of_all rfl
  | int n =>
    intro c hc
    rcases DecimalText.mem_toString_int hc with hdigit | rfl
    · have h48 : 48 ≤ c.toNat ∧ c.toNat ≤ 57 := Char.isDigit_iff_toNat.mp hdigit
      exact ⟨by omega, by omega⟩
    · decide
  | str s => exact fun c => encode_ascii
  | @arr items h ih =>
    rw [write, writeItems_eq_map]
    have hitems : ∀ text ∈ items.map write, ∀ c ∈ text, IsAscii c := by
      intro text htext
      obtain ⟨item, hitem, rfl⟩ := List.mem_map.mp htext
      exact ih item hitem
    exact bracketed_ascii (by decide) (by decide) (joined_ascii hitems)
  | @obj fields h ih =>
    rw [write, writeFields_eq_map]
    have hfields : ∀ text ∈ fields.map fun field => writtenField field.1.toList field.2.write,
        ∀ c ∈ text, IsAscii c := by
      intro text htext
      obtain ⟨field, hfield, rfl⟩ := List.mem_map.mp htext
      exact writtenField_ascii (ih field hfield)
    exact bracketed_ascii (by decide) (by decide) (joined_ascii hfields)

end Json

end FxDealManager
