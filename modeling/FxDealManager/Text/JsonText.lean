import FxDealManager.Text.DecimalTexts

/-!
# JSON texts

The parts that JSON texts are made of, on lists of characters: strings that are written with the
printable ASCII characters only, numbers, and sequences in brackets. What follows a part is what a
reader of it leaves.

## Main definitions

* `encode`, `readString`: a string, and the reader of one
* `readNumber`: the reader of a number, which may have a fraction and an exponent
* `written`, `readSequence`: a sequence in brackets, and the reader of one
* `Reads`: a reader reads a value from a text, whatever follows it

## Main results

* `readString_encode`: a string is read back, with all its characters
* `encode_ascii`: only printable ASCII characters are written
* `readNumber_toString`: an integer is read back
* `readSequence_written`: a sequence is read back, if its items are
-/

namespace JsonText

/-- A reader of values: the value at the beginning of a text, and what follows it. -/
abbrev Reader (α : Type) := List Char → Option (α × List Char)

/-! ## Strings -/

/-- The quotation mark. -/
def quote : Char := Char.ofNat 34

/-- The letter of a character that is written with a backslash and a letter. -/
def letter (c : Char) : Option Char :=
  if c = quote then some quote
  else if c = '\\' then some '\\'
  else if c = '\n' then some 'n'
  else if c = '\r' then some 'r'
  else if c = '\t' then some 't'
  else if c = Char.ofNat 12 then some 'f'
  else if c = Char.ofNat 8 then some 'b'
  else none

/-- The four hexadecimal digits of a number. -/
def hex (n : ℕ) : List Char :=
  [n / 4096 % 16, n / 256 % 16, n / 16 % 16, n % 16].map Nat.digitChar

/-- An escaped unit of a string. -/
def escaped (n : ℕ) : List Char := '\\' :: 'u' :: hex n

/-- A character inside a string. -/
def encodeChar (c : Char) : List Char :=
  match letter c with
  | some l => ['\\', l]
  | none =>
    if 32 ≤ c.toNat ∧ c.toNat < 127 then [c]
    else if c.toNat < 0x10000 then escaped c.toNat
    else
      escaped (0xd800 + (c.toNat - 0x10000) / 1024) ++ escaped (0xdc00 + (c.toNat - 0x10000) % 1024)

/-- The text of a string. -/
def encode (s : List Char) : List Char := quote :: (s.flatMap encodeChar ++ [quote])

/-- The value of a hexadecimal digit. -/
def hexValue (c : Char) : Option ℕ :=
  if c.isDigit then some (c.toNat - 48)
  else if 97 ≤ c.toNat ∧ c.toNat ≤ 102 then some (c.toNat - 87)
  else if 65 ≤ c.toNat ∧ c.toNat ≤ 70 then some (c.toNat - 55)
  else none

/-- The number that four hexadecimal digits make. -/
def readUnit : Reader ℕ
  | c₃ :: c₂ :: c₁ :: c₀ :: cs => do
    let d₃ ← hexValue c₃
    let d₂ ← hexValue c₂
    let d₁ ← hexValue c₁
    let d₀ ← hexValue c₀
    some (((d₃ * 16 + d₂) * 16 + d₁) * 16 + d₀, cs)
  | _ => none

/-- The character that is written with a backslash and the letter. -/
def unescape (l : Char) : Option Char :=
  if l = quote then some quote
  else if l = '\\' then some '\\'
  else if l = '/' then some '/'
  else if l = 'n' then some '\n'
  else if l = 'r' then some '\r'
  else if l = 't' then some '\t'
  else if l = 'f' then some (Char.ofNat 12)
  else if l = 'b' then some (Char.ofNat 8)
  else none

/-- A unit of a string that has a high surrogate before it: a low one completes the character. -/
def readLow (high : ℕ) : Reader Char
  | '\\' :: 'u' :: cs => do
    let (low, cs) ← readUnit cs
    if 0xdc00 ≤ low ∧ low < 0xe000 then
      some (Char.ofNat (0x10000 + (high - 0xd800) * 1024 + (low - 0xdc00)), cs)
    else none
  | _ => none

/-- A character inside a string. A surrogate alone is no character. -/
def readChar : Reader Char
  | '\\' :: 'u' :: cs => do
    let (unit, cs) ← readUnit cs
    if 0xd800 ≤ unit ∧ unit < 0xdc00 then readLow unit cs
    else if 0xdc00 ≤ unit ∧ unit < 0xe000 then none
    else some (Char.ofNat unit, cs)
  | '\\' :: l :: cs => (unescape l).map (·, cs)
  | c :: cs => if c.toNat < 32 ∨ c = '\\' then none else some (c, cs)
  | [] => none

/-- The characters of a string after its quotation mark, up to the next one. -/
def readString : (fuel : ℕ) → Reader (List Char)
  | 0, _ => none
  | fuel + 1, cs =>
    match cs with
    | [] => none
    | c :: rest =>
      if c = quote then some ([], rest)
      else do
        let (c, rest) ← readChar (c :: rest)
        let (s, rest) ← readString fuel rest
        some (c :: s, rest)

section Strings

theorem hexValue_digitChar {d : ℕ} (h : d < 16) : hexValue d.digitChar = some d := by
  have hall : ∀ d : Fin 16, hexValue (d : ℕ).digitChar = some (d : ℕ) := by decide
  exact hall ⟨d, h⟩

/-- The hexadecimal digits are read back. -/
theorem readUnit_hex {n : ℕ} (h : n < 0x10000) (rest : List Char) :
    readUnit (hex n ++ rest) = some (n, rest) := by
  have hdigit : ∀ k : ℕ, hexValue (k % 16).digitChar = some (k % 16) := fun k =>
    hexValue_digitChar (Nat.mod_lt k (by decide))
  have hn : ((n / 4096 % 16 * 16 + n / 256 % 16) * 16 + n / 16 % 16) * 16 + n % 16 = n := by
    omega
  simp only [hex, List.map_cons, List.map_nil, List.cons_append, List.nil_append, readUnit, hdigit,
    Option.bind_eq_bind, Option.bind_some, hn]

/-- What a character is written as begins with no quotation mark. -/
theorem encodeChar_head (c : Char) : ∃ c' cs, encodeChar c = c' :: cs ∧ c' ≠ quote := by
  unfold encodeChar
  split
  next => exact ⟨_, _, rfl, by decide⟩
  next h =>
    split
    next =>
      refine ⟨c, [], rfl, ?_⟩
      rintro rfl
      exact absurd h (by decide)
    next => split <;> exact ⟨_, _, rfl, by decide⟩

theorem unescape_letter {c l : Char} (h : letter c = some l) :
    unescape l = some c ∧ l ≠ 'u' := by
  unfold letter at h
  split_ifs at h <;> cases h <;> subst_vars <;> decide

/-- A unit that is no surrogate is a character. -/
theorem readChar_escaped {n : ℕ} (h : n < 0x10000) (hchar : n < 0xd800 ∨ 0xdfff < n)
    (rest : List Char) : readChar (escaped n ++ rest) = some (Char.ofNat n, rest) := by
  simp only [escaped, List.cons_append, readChar, readUnit_hex h, Option.bind_eq_bind,
    Option.bind_some]
  rw [if_neg (by omega), if_neg (by omega)]

/-- A pair of surrogates is a character. -/
theorem readChar_pair {high low : ℕ} (hhigh : 0xd800 ≤ high ∧ high < 0xdc00)
    (hlow : 0xdc00 ≤ low ∧ low < 0xe000) (rest : List Char) :
    readChar (escaped high ++ (escaped low ++ rest)) =
      some (Char.ofNat (0x10000 + (high - 0xd800) * 1024 + (low - 0xdc00)), rest) := by
  have h : high < 0x10000 := by omega
  have h' : low < 0x10000 := by omega
  simp only [escaped, List.cons_append, readChar, readUnit_hex h, Option.bind_eq_bind,
    Option.bind_some, if_pos hhigh, readLow, readUnit_hex h', if_pos hlow]

theorem readChar_cons {c : Char} (hc : c ≠ '\\') (hspace : 32 ≤ c.toNat) (rest : List Char) :
    readChar (c :: rest) = some (c, rest) := by
  rw [readChar]
  · rw [if_neg (by simp [hc, Nat.not_lt.mpr hspace])]
  · exact fun cs hbackslash => absurd hbackslash hc
  · exact fun l cs hbackslash => absurd hbackslash hc

/-- **A character is read back.** -/
theorem readChar_encodeChar (c : Char) (rest : List Char) :
    readChar (encodeChar c ++ rest) = some (c, rest) := by
  have hvalid : c.toNat < 0xd800 ∨ (0xdfff < c.toNat ∧ c.toNat < 0x110000) := c.valid
  unfold encodeChar
  split
  next l hl =>
    obtain ⟨hunescape, hu⟩ := unescape_letter hl
    rw [List.cons_append, List.cons_append, List.nil_append, readChar]
    · rw [hunescape, Option.map_some]
    · exact hu
  next hl =>
    split
    next hprintable =>
      refine readChar_cons ?_ hprintable.1 rest
      rintro rfl
      exact absurd hl (by decide)
    next =>
      split
      next hsmall =>
        rw [readChar_escaped hsmall (hvalid.imp_right And.left), Char.ofNat_toNat]
      next hlarge =>
        have hnat : 0x10000 + (0xd800 + (c.toNat - 0x10000) / 1024 - 0xd800) * 1024 +
            (0xdc00 + (c.toNat - 0x10000) % 1024 - 0xdc00) = c.toNat := by
          omega
        rw [List.append_assoc, readChar_pair (by omega) (by omega), hnat, Char.ofNat_toNat]

/-- **A string is read back**, if there is fuel for its characters. -/
theorem readString_encode {s : List Char} {fuel : ℕ} (hfuel : s.length < fuel)
    (rest : List Char) :
    readString fuel (s.flatMap encodeChar ++ quote :: rest) = some (s, rest) := by
  induction s generalizing fuel with
  | nil =>
    obtain ⟨fuel, rfl⟩ := Nat.exists_eq_add_one.mpr hfuel
    rw [List.flatMap_nil, List.nil_append, readString]
    simp only [if_true]
  | cons c s ih =>
    obtain ⟨fuel, rfl⟩ := Nat.exists_eq_add_one.mpr (Nat.zero_lt_of_lt hfuel)
    obtain ⟨c', cs, hcs, hquote⟩ := encodeChar_head c
    have hchar := readChar_encodeChar c (s.flatMap encodeChar ++ quote :: rest)
    rw [hcs, List.cons_append] at hchar
    rw [List.flatMap_cons, List.append_assoc, hcs, List.cons_append, readString]
    simp only [if_neg hquote, hchar, Option.bind_eq_bind, Option.bind_some,
      ih (Nat.lt_of_succ_lt_succ hfuel)]

/-- A printable ASCII character. -/
def IsAscii (c : Char) : Prop := 32 ≤ c.toNat ∧ c.toNat < 127

instance : DecidablePred IsAscii := fun c =>
  inferInstanceAs (Decidable (32 ≤ c.toNat ∧ c.toNat < 127))

theorem ascii_of_all {cs : List Char} (h : (cs.all fun c => IsAscii c) = true) :
    ∀ c ∈ cs, IsAscii c := by
  simpa using h

/-- **Only printable ASCII characters are written.** -/
theorem encode_ascii {s : List Char} {c : Char} (h : c ∈ encode s) : IsAscii c := by
  have hdigit : ∀ d : Fin 16, IsAscii (d : ℕ).digitChar := by
    decide
  have hescaped : ∀ n, c ∈ escaped n → IsAscii c := by
    intro n hc
    simp only [escaped, hex, List.map_cons, List.map_nil, List.mem_cons, List.not_mem_nil,
      or_false] at hc
    rcases hc with rfl | rfl | rfl | rfl | rfl | rfl
    · decide
    · decide
    all_goals exact hdigit ⟨_ % 16, Nat.mod_lt _ (by decide)⟩
  have hletter : ∀ c l, letter c = some l → IsAscii l := by
    intro c l hl
    unfold letter at hl
    split_ifs at hl <;> cases hl <;> decide
  simp only [encode, List.mem_cons, List.mem_append, List.mem_flatMap, List.not_mem_nil,
    or_false] at h
  rcases h with rfl | ⟨c', -, hc⟩ | rfl
  · decide
  · unfold encodeChar at hc
    split at hc
    next l hl =>
      simp only [List.mem_cons, List.not_mem_nil, or_false] at hc
      rcases hc with rfl | rfl
      · decide
      · exact hletter c' c hl
    next =>
      split at hc
      next hprintable =>
        rw [List.mem_singleton.mp hc]
        exact hprintable
      next =>
        split at hc
        next => exact hescaped _ hc
        next => exact (List.mem_append.mp hc).elim (hescaped _) (hescaped _)
  · decide

end Strings

/-! ## Numbers -/

/-- A number: an integer, or the text of a number with a fraction or an exponent. -/
inductive Number
  | int (n : ℤ)
  | float (text : List Char)
deriving DecidableEq, Repr

/-- Digits without zeros in front. -/
def readUnsigned : Reader (List Char)
  | '0' :: cs => some (['0'], cs)
  | cs =>
    match cs.span Char.isDigit with
    | ([], _) => none
    | (digits, rest) => some (digits, rest)

/-- A fraction with its point, if there is one. -/
def takeFraction : List Char → List Char × List Char
  | '.' :: cs =>
    match cs.span Char.isDigit with
    | ([], _) => ([], '.' :: cs)
    | (digits, rest) => ('.' :: digits, rest)
  | cs => ([], cs)

/-- A sign, if there is one. -/
def takeSign : List Char → List Char × List Char
  | '-' :: cs => (['-'], cs)
  | '+' :: cs => (['+'], cs)
  | cs => ([], cs)

/-- An exponent with its letter, if there is one. -/
def takeExponent : List Char → List Char × List Char
  | [] => ([], [])
  | c :: cs =>
    if c = 'e' ∨ c = 'E' then
      match (takeSign cs).2.span Char.isDigit with
      | ([], _) => ([], c :: cs)
      | (digits, rest) => (c :: ((takeSign cs).1 ++ digits), rest)
    else ([], c :: cs)

/-- A number after its sign. -/
def readMagnitude (negative : Bool) : Reader Number := fun cs => do
  let (digits, cs) ← readUnsigned cs
  let (fraction, cs) := takeFraction cs
  let (exponent, cs) := takeExponent cs
  if fraction = [] ∧ exponent = [] then
    let n : ℤ := Nat.ofDigitChars 10 digits 0
    some (.int (if negative then -n else n), cs)
  else some (.float ((if negative then ['-'] else []) ++ digits ++ fraction ++ exponent), cs)

/-- A number. -/
def readNumber : Reader Number
  | '-' :: cs => readMagnitude true cs
  | cs => readMagnitude false cs

/-- A value ends at a comma, at a closing bracket, or with the text. -/
def Ends (rest : List Char) : Prop := ∀ c ∈ rest.head?, c = ',' ∨ c = ']' ∨ c = '\x7d'

section Numbers

variable {rest : List Char}

theorem ends_nil : Ends [] := by simp [Ends]

theorem span_digits {digits : List Char} (h : ∀ c ∈ digits, c.isDigit = true) (hrest : Ends rest) :
    (digits ++ rest).span Char.isDigit = (digits, rest) := by
  have hnone : rest.takeWhile Char.isDigit = [] ∧ rest.dropWhile Char.isDigit = rest := by
    cases rest with
    | nil => exact ⟨rfl, rfl⟩
    | cons c rest =>
      have hc : c.isDigit = false := by
        rcases hrest c rfl with rfl | rfl | rfl <;> rfl
      simp [hc]
  rw [List.span_eq_takeWhile_dropWhile, List.takeWhile_append_of_pos h,
    List.dropWhile_append_of_pos h, hnone.1, hnone.2, List.append_nil]

/-- The digits of a positive number begin with no zero. -/
theorem toDigits_head {n : ℕ} (h : 0 < n) :
    ∃ c cs, Nat.toDigits 10 n = c :: cs ∧ c ≠ '0' := by
  induction n using Nat.strong_induction_on with
  | _ n ih =>
    by_cases hsmall : n < 10
    · refine ⟨_, [], Nat.toDigits_of_lt_base hsmall, ?_⟩
      rw [Ne, Nat.digitChar_eq_zero]
      omega
    · obtain ⟨c, cs, hcs, hc⟩ := ih (n / 10) (by omega) (by omega)
      refine ⟨c, cs ++ [(n % 10).digitChar], ?_, hc⟩
      rw [Nat.toDigits_of_base_le (by decide) (by omega), hcs, List.cons_append]

theorem readUnsigned_toDigits (n : ℕ) (hrest : Ends rest) :
    readUnsigned (Nat.toDigits 10 n ++ rest) = some (Nat.toDigits 10 n, rest) := by
  rcases Nat.eq_zero_or_pos n with rfl | hpos
  · rfl
  · have hspan := span_digits (DecimalText.isDigit_toDigits (n := n)) hrest
    obtain ⟨c, cs, hcs, hc⟩ := toDigits_head hpos
    rw [hcs] at hspan ⊢
    rw [List.cons_append, readUnsigned]
    · rw [← List.cons_append, hspan]
    · rintro cs ⟨⟩
      exact hc rfl

/-- **An integer is read back.** -/
theorem readNumber_toString (n : ℤ) (hrest : Ends rest) :
    readNumber ((toString n).toList ++ rest) = some (.int n, rest) := by
  have hfraction : takeFraction rest = ([], rest) := by
    cases rest with
    | nil => rfl
    | cons c rest => rcases hrest c rfl with rfl | rfl | rfl <;> rfl
  have hexponent : takeExponent rest = ([], rest) := by
    cases rest with
    | nil => rfl
    | cons c rest => rcases hrest c rfl with rfl | rfl | rfl <;> rfl
  have hmagnitude : ∀ negative m, readMagnitude negative (Nat.toDigits 10 m ++ rest) =
      some (.int (if negative then -(m : ℤ) else m), rest) := by
    intro negative m
    simp only [readMagnitude, readUnsigned_toDigits m hrest, Option.bind_eq_bind, Option.bind_some,
      hfraction, hexponent, and_self, if_true, Nat.ofDigitChars_ten_toDigits]
  rw [DecimalText.toList_toString_int]
  cases n with
  | ofNat m =>
    obtain ⟨c, cs, hcs⟩ := List.exists_cons_of_ne_nil
      (Nat.toDigits_ne_nil : Nat.toDigits 10 m ≠ [])
    have hc : c ≠ '-' := by
      rintro rfl
      exact absurd (DecimalText.isDigit_toDigits '-' (hcs ▸ List.mem_cons_self)) (by decide)
    have hread := hmagnitude false m
    rw [hcs] at hread
    simp only [hcs, List.cons_append]
    rw [readNumber]
    · exact hread
    · rintro cs ⟨⟩
      exact hc rfl
  | negSucc m => exact hmagnitude true (m + 1)

end Numbers

/-! ## Sequences -/

def isSpace (c : Char) : Bool := c = ' ' || c = '\t' || c = '\n' || c = '\r'

def skipSpaces (cs : List Char) : List Char := cs.dropWhile isSpace

/-- Texts one after another, with a comma and a blank between them. -/
def joined : List (List Char) → List Char
  | [] => []
  | text :: texts => text ++ texts.flatMap ([',', ' '] ++ ·)

/-- A field of an object: its key and its value. -/
def writtenField (key text : List Char) : List Char := encode key ++ (':' :: ' ' :: text)

section Readers

variable {α : Type} (closing : Char) (item : Reader α)

/-- The items of a sequence, at least one, up to its closing bracket. -/
def readItems : (fuel : ℕ) → Reader (List α)
  | 0, _ => none
  | fuel + 1, cs => do
    let (a, cs) ← item (skipSpaces cs)
    match skipSpaces cs with
    | [] => none
    | c :: cs =>
      if c = closing then some ([a], cs)
      else if c = ',' then do
        let (as, cs) ← readItems fuel cs
        some (a :: as, cs)
      else none

/-- A sequence after its opening bracket. -/
def readSequence (fuel : ℕ) : Reader (List α) := fun cs =>
  match skipSpaces cs with
  | [] => none
  | c :: rest => if c = closing then some ([], rest) else readItems closing item fuel (c :: rest)

/-- A field of an object. -/
def readField (fuel : ℕ) : Reader (List Char × α)
  | [] => none
  | c :: cs =>
    if c = quote then do
      let (key, cs) ← readString fuel cs
      match skipSpaces cs with
      | ':' :: cs => do
        let (a, cs) ← item (skipSpaces cs)
        some ((key, a), cs)
      | _ => none
    else none

end Readers

/-- A reader reads a value from a text, whatever follows where a value may end. -/
def Reads {α : Type} (read : Reader α) (text : List Char) (a : α) : Prop :=
  ∀ rest, Ends rest → read (text ++ rest) = some (a, rest)

/-- A text that begins with the text of a value: with no space and no closing bracket. -/
def Solid (text : List Char) : Prop :=
  ∃ c cs, text = c :: cs ∧ isSpace c = false ∧ c ≠ ']' ∧ c ≠ '\x7d'

section Sequences

variable {α : Type} {closing : Char} {item : Reader α} {text rest : List Char}
  {texts : List (List Char)} {as : List α} {fuel : ℕ}

theorem Solid.skipSpaces_append (h : Solid text) (rest : List Char) :
    skipSpaces (text ++ rest) = text ++ rest := by
  obtain ⟨c, cs, rfl, hc, -⟩ := h
  simp [skipSpaces, hc]

theorem ends_cons {c : Char} (h : c = ',' ∨ c = ']' ∨ c = '\x7d') : Ends (c :: rest) := by
  simpa [Ends] using h

theorem skipSpaces_ends {c : Char} (h : c = ',' ∨ c = ']' ∨ c = '\x7d') :
    skipSpaces (c :: rest) = c :: rest := by
  rcases h with rfl | rfl | rfl <;> rfl

/-- Blanks before the items are skipped. -/
theorem readItems_blank (closing : Char) (item : Reader α) (fuel : ℕ) (cs : List Char) :
    readItems closing item fuel (' ' :: cs) = readItems closing item fuel cs := by
  cases fuel <;> rfl

/-- The items of a sequence are read back. -/
theorem readItems_joined (hitems : List.Forall₂ (Reads item) texts as)
    (hsolid : ∀ text ∈ texts, Solid text) (hne : texts ≠ []) (hfuel : texts.length ≤ fuel)
    (hclosing : closing = ']' ∨ closing = '\x7d') (rest : List Char) :
    readItems closing item fuel (joined texts ++ closing :: rest) = some (as, rest) := by
  induction hitems generalizing fuel with
  | nil => exact absurd rfl hne
  | @cons text a texts as hread hitems ih =>
    obtain ⟨fuel, rfl⟩ := Nat.exists_eq_add_one.mpr (Nat.zero_lt_of_lt hfuel)
    have htext := (hsolid text List.mem_cons_self).skipSpaces_append
    rw [joined, List.append_assoc, readItems]
    cases hitems with
    | nil =>
      have hend := hread (closing :: rest) (ends_cons (.inr hclosing))
      simp only [List.flatMap_nil, List.nil_append, htext, hend, Option.bind_eq_bind,
        Option.bind_some, skipSpaces_ends (.inr hclosing), if_true]
    | @cons next b texts bs hnext hitems =>
      have hmore := ih (fun t ht => hsolid t (List.mem_cons_of_mem _ ht)) (List.cons_ne_nil _ _)
        (Nat.le_of_succ_le_succ hfuel)
      have hcomma : ',' ≠ closing := by
        rintro rfl
        simp at hclosing
      have hrest : (next :: texts).flatMap ([',', ' '] ++ ·) ++ closing :: rest =
          ',' :: ' ' :: (joined (next :: texts) ++ closing :: rest) := by
        simp [joined]
      have hend := hread (',' :: ' ' :: (joined (next :: texts) ++ closing :: rest))
        (ends_cons (.inl rfl))
      simp only [hrest, htext, hend, Option.bind_eq_bind, Option.bind_some,
        skipSpaces_ends (.inl rfl), if_neg hcomma, if_true, readItems_blank, hmore]

/-- **A sequence is read back**, if there is fuel for its items. -/
theorem readSequence_joined (hitems : List.Forall₂ (Reads item) texts as)
    (hsolid : ∀ text ∈ texts, Solid text) (hfuel : texts.length ≤ fuel)
    (hclosing : closing = ']' ∨ closing = '\x7d') (rest : List Char) :
    readSequence closing item fuel (joined texts ++ closing :: rest) = some (as, rest) := by
  cases hitems with
  | nil =>
    simp only [joined, List.nil_append, readSequence, skipSpaces_ends (.inr hclosing), if_true]
  | @cons text a texts as hread hitems =>
    have hall := readItems_joined (.cons hread hitems) hsolid (List.cons_ne_nil _ _) hfuel hclosing
      rest
    have hskip := (hsolid text List.mem_cons_self).skipSpaces_append
      (texts.flatMap ([',', ' '] ++ ·) ++ closing :: rest)
    rw [← List.append_assoc] at hskip
    obtain ⟨c, cs, rfl, -, hbracket, hbrace⟩ := hsolid text List.mem_cons_self
    have hc : c ≠ closing := by
      rintro rfl
      exact hclosing.elim hbracket hbrace
    rw [joined] at hall ⊢
    rw [readSequence, hskip]
    simp only [List.cons_append] at hall ⊢
    rw [if_neg hc, hall]

/-- A field of an object is read back, if its value is. -/
theorem reads_writtenField {key : List Char} {a : α} (hvalue : Reads item text a)
    (hsolid : Solid text) (hfuel : key.length < fuel) :
    Reads (readField item fuel) (writtenField key text) (key, a) := by
  intro rest hrest
  have hkey := readString_encode hfuel (':' :: ' ' :: (text ++ rest))
  have hskip : skipSpaces (' ' :: (text ++ rest)) = text ++ rest := hsolid.skipSpaces_append rest
  have hcolon : skipSpaces (':' :: ' ' :: (text ++ rest)) = ':' :: ' ' :: (text ++ rest) := rfl
  have htext : writtenField key text ++ rest =
      quote :: (key.flatMap encodeChar ++ quote :: ':' :: ' ' :: (text ++ rest)) := by
    simp [writtenField, encode]
  rw [htext, readField]
  simp only [if_true, hkey, Option.bind_eq_bind, Option.bind_some, hcolon, hskip, hvalue rest hrest]

theorem solid_writtenField (key text : List Char) : Solid (writtenField key text) :=
  ⟨quote, _, rfl, by decide, by decide, by decide⟩

/-! ### Characters -/

theorem joined_ascii (h : ∀ text ∈ texts, ∀ c ∈ text, IsAscii c) :
    ∀ c ∈ joined texts, IsAscii c := by
  intro c hc
  cases texts with
  | nil => cases hc
  | cons text texts =>
    rcases List.mem_append.mp hc with hfirst | hmore
    · exact h text List.mem_cons_self c hfirst
    · obtain ⟨next, hnext, hmem⟩ := List.mem_flatMap.mp hmore
      rcases List.mem_append.mp hmem with hcomma | hin
      · simp only [List.mem_cons, List.not_mem_nil, or_false] at hcomma
        rcases hcomma with rfl | rfl <;> decide
      · exact h next (List.mem_cons_of_mem _ hnext) c hin

theorem writtenField_ascii {key : List Char} (h : ∀ c ∈ text, IsAscii c) :
    ∀ c ∈ writtenField key text, IsAscii c := by
  intro c hc
  rcases List.mem_append.mp hc with hkey | hvalue
  · exact encode_ascii hkey
  · simp only [List.mem_cons] at hvalue
    rcases hvalue with rfl | rfl | hvalue
    · decide
    · decide
    · exact h c hvalue

/-! ### Lengths -/

theorem length_le_encode (s : List Char) : s.length + 2 ≤ (encode s).length := by
  have hchars : s.length ≤ (s.flatMap encodeChar).length := by
    induction s with
    | nil => rfl
    | cons c s ih =>
      obtain ⟨c', cs, hcs, -⟩ := encodeChar_head c
      rw [List.flatMap_cons, List.length_append, hcs, List.length_cons, List.length_cons]
      omega
  simpa [encode] using hchars

theorem length_writtenField (key text : List Char) :
    key.length + text.length + 4 ≤ (writtenField key text).length := by
  have hkey := length_le_encode key
  rw [writtenField, List.length_append, List.length_cons, List.length_cons]
  omega

theorem length_le_joined (h : text ∈ texts) : text.length ≤ (joined texts).length := by
  cases texts with
  | nil => cases h
  | cons first texts =>
    rw [joined, List.length_append]
    rcases List.mem_cons.mp h with rfl | hmem
    · omega
    · have hpart : [',', ' '] ++ text ∈ texts.map ([',', ' '] ++ ·) := List.mem_map_of_mem hmem
      have hle := (List.sublist_flatten_of_mem hpart).length_le
      rw [← List.flatMap_def, List.length_append] at hle
      omega

theorem length_texts_le_joined (hsolid : ∀ text ∈ texts, Solid text) :
    texts.length ≤ (joined texts).length := by
  cases texts with
  | nil => exact Nat.zero_le _
  | cons first texts =>
    obtain ⟨c, cs, rfl, -⟩ := hsolid first List.mem_cons_self
    have hmore : texts.length ≤ (texts.flatMap ([',', ' '] ++ ·)).length := by
      clear hsolid
      induction texts with
      | nil => rfl
      | cons text texts ih =>
        rw [List.flatMap_cons, List.length_append, List.length_append, List.length_cons]
        simp only [List.length_cons, List.length_nil]
        omega
    rw [joined, List.length_append, List.length_cons, List.length_cons]
    omega

end Sequences

end JsonText
