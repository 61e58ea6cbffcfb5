import FxDealManager.Arithmetic.Context
import Mathlib.Data.List.Forall2

/-!
# Texts of decimal numbers

A reader for the texts of decimal numbers: digits with at most one point among them, after a sign
and before an exponent, or a word for what is no finite number. What a digit is depends on the
characters that the text is made of.

## Main definitions

* `Spelled`: what a text spells
* `takeDigits`, `number`: the digits at the beginning of a text, and a finite number
* `read`: the reader
* `NumberText`: the grammar of finite numbers

## Main results

* `read_eq_finite_iff`: the reader reads the grammar
* `numberText_toString`: integers are printed in the grammar
-/

namespace DecimalText

open DecimalArithmetic

/-- What a text spells: a finite number, or an infinity or no number at all. -/
inductive Spelled
  | finite (d : Decimal)
  | special
deriving DecidableEq, Repr

/-- A sign, which may be missing. -/
def sign : List Char → Bool × List Char
  | '-' :: cs => (true, cs)
  | '+' :: cs => (false, cs)
  | cs => (false, cs)

/-- The number that digits make. -/
def ofDigits (ds : List ℕ) : ℕ := ds.foldl (fun n d => 10 * n + d) 0

section Reader

variable (digit : Char → Option ℕ)

/-- The digits at the beginning of a text, and what follows them. -/
def takeDigits : List Char → List ℕ × List Char
  | [] => ([], [])
  | c :: cs =>
    match digit c with
    | none => ([], c :: cs)
    | some d => (d :: (takeDigits cs).1, (takeDigits cs).2)

/-- The digits after the point, if there is one. -/
def fraction : List Char → List ℕ × List Char
  | '.' :: cs => takeDigits digit cs
  | cs => ([], cs)

/-- The exponent at the end of a text, zero if it is missing. -/
def exponent : List Char → Option ℤ
  | [] => some 0
  | c :: cs =>
    if c = 'e' ∨ c = 'E' then
      let (negative, cs) := sign cs
      match takeDigits digit cs with
      | (d :: ds, []) =>
        let n := ofDigits (d :: ds)
        some (if negative then -n else n)
      | _ => none
    else none

/-- A finite number after its sign. -/
def number (negative : Bool) (cs : List Char) : Option Decimal :=
  let (int, cs) := takeDigits digit cs
  let (frac, cs) := fraction digit cs
  if int = [] ∧ frac = [] then none
  else (exponent digit cs).map fun e => ⟨negative, ofDigits (int ++ frac), e - frac.length⟩

/-- A word for an infinity, or one for no number with the digits that may follow it. -/
def isSpecial (cs : List Char) : Bool :=
  let word := cs.map Char.toLower
  let payload := fun (start : List Char) =>
    start.isPrefixOf word && (takeDigits digit (cs.drop start.length)).2.isEmpty
  word = ['i', 'n', 'f'] || word = ['i', 'n', 'f', 'i', 'n', 'i', 't', 'y'] ||
    payload ['n', 'a', 'n'] || payload ['s', 'n', 'a', 'n']

/-- The reader. -/
def read (cs : List Char) : Option Spelled :=
  let (negative, rest) := sign cs
  match number digit negative rest with
  | some d => some (.finite d)
  | none => if isSpecial digit rest then some .special else none

end Reader

/-! ## The grammar -/

section Grammar

variable (digit : Char → Option ℕ)

/-- The characters are digits with the given values. -/
abbrev Digits (cs : List Char) (ds : List ℕ) : Prop :=
  List.Forall₂ (fun c d => digit c = some d) cs ds

/-- A sign, which may be missing. -/
inductive SignText : List Char → Bool → Prop
  | none : SignText [] false
  | plus : SignText ['+'] false
  | minus : SignText ['-'] true

/-- Digits after a point, which may be missing. -/
inductive FractionText : List Char → List ℕ → Prop
  | none : FractionText [] []
  | point {cs : List Char} {ds : List ℕ} (h : Digits digit cs ds) : FractionText ('.' :: cs) ds

/-- An exponent, which may be missing. -/
inductive ExponentText : List Char → ℤ → Prop
  | none : ExponentText [] 0
  | exponent {c : Char} {signText cs : List Char} {negative : Bool} {d : ℕ} {ds : List ℕ}
      (hc : c = 'e' ∨ c = 'E') (hsign : SignText signText negative)
      (hdigits : Digits digit cs (d :: ds)) :
      ExponentText (c :: (signText ++ cs))
        (if negative then -ofDigits (d :: ds) else ofDigits (d :: ds))

/-- The text of a finite number: a sign, digits with at most one point among them, and an
exponent. -/
inductive NumberText : List Char → Decimal → Prop
  | number {signText intText fracText expText : List Char} {negative : Bool} {int frac : List ℕ}
      {e : ℤ} (hsign : SignText signText negative) (hint : Digits digit intText int)
      (hfrac : FractionText digit fracText frac) (hexp : ExponentText digit expText e)
      (hdigits : int ≠ [] ∨ frac ≠ []) :
      NumberText (signText ++ intText ++ fracText ++ expText)
        ⟨negative, ofDigits (int ++ frac), e - frac.length⟩

/-- The digits from `0` to `9` have their values, and a point, a sign and the letter of an exponent
are no digits. -/
structure Plain : Prop where
  ascii : ∀ c : Char, c.isDigit = true → digit c = some (c.toNat - 48)
  point : digit '.' = none
  plus : digit '+' = none
  minus : digit '-' = none
  exponent : ∀ c, c = 'e' ∨ c = 'E' → digit c = none

variable {digit} {cs rest : List Char} {ds : List ℕ}

/-- The digits at the beginning of a text are those before the first character that is none. -/
theorem takeDigits_eq_iff : takeDigits digit cs = (ds, rest) ↔
    ∃ pre, cs = pre ++ rest ∧ Digits digit pre ds ∧ ∀ c ∈ rest.head?, digit c = none := by
  induction cs generalizing ds rest with
  | nil =>
    constructor
    · rintro ⟨⟩
      exact ⟨[], rfl, .nil, nofun⟩
    · rintro ⟨pre, hcs, hdigits, -⟩
      obtain ⟨rfl, rfl⟩ := List.append_eq_nil_iff.mp hcs.symm
      cases hdigits
      rfl
  | cons c cs ih =>
    rw [takeDigits]
    cases hc : digit c with
    | none =>
      constructor
      · rintro ⟨⟩
        refine ⟨[], rfl, .nil, ?_⟩
        rintro c' ⟨⟩
        exact hc
      · rintro ⟨pre, hcs, hdigits, -⟩
        cases hdigits with
        | nil => rw [← List.nil_append rest, ← hcs]
        | cons hd _ =>
          cases hcs
          rw [hc] at hd
          cases hd
    | some d =>
      constructor
      · rintro ⟨⟩
        obtain ⟨pre, hcs, hdigits, hrest⟩ := ih.mp rfl
        exact ⟨c :: pre, congrArg (c :: ·) hcs, .cons hc hdigits, hrest⟩
      · rintro ⟨pre, hcs, hdigits, hrest⟩
        cases hdigits with
        | nil =>
          rw [List.nil_append] at hcs
          subst hcs
          rw [hrest c rfl] at hc
          cases hc
        | @cons c' d' pre ds hd hdigits =>
          cases hcs
          cases hc.symm.trans hd
          rw [ih.mpr ⟨pre, rfl, hdigits, hrest⟩]

/-- A sign is taken from a text that goes on without one. -/
theorem sign_append {signText : List Char} {negative : Bool} (h : SignText signText negative)
    (hrest : ∀ c ∈ rest.head?, c ≠ '-' ∧ c ≠ '+') : sign (signText ++ rest) = (negative, rest) := by
  cases h with
  | plus | minus => rfl
  | none =>
    rw [List.nil_append]
    cases rest with
    | nil => rfl
    | cons c rest =>
      obtain ⟨hminus, hplus⟩ := hrest c rfl
      rw [sign]
      · rintro cs ⟨⟩
        exact hminus rfl
      · rintro cs ⟨⟩
        exact hplus rfl

theorem exists_sign (cs : List Char) :
    ∃ signText, SignText signText (sign cs).1 ∧ cs = signText ++ (sign cs).2 := by
  unfold sign
  split
  · exact ⟨_, .minus, rfl⟩
  · exact ⟨_, .plus, rfl⟩
  · exact ⟨_, .none, rfl⟩

/-- Digits at the beginning of a text that goes on without one. -/
theorem takeDigits_append {pre : List Char} (h : Digits digit pre ds)
    (hrest : ∀ c ∈ rest.head?, digit c = none) : takeDigits digit (pre ++ rest) = (ds, rest) :=
  takeDigits_eq_iff.mpr ⟨pre, rfl, h, hrest⟩

/-- A sign is no digit. -/
theorem Plain.ne_sign (hplain : Plain digit) {c : Char} {d : ℕ} (h : digit c = some d) :
    c ≠ '-' ∧ c ≠ '+' := by
  constructor
  · rintro rfl
    rw [hplain.minus] at h
    cases h
  · rintro rfl
    rw [hplain.plus] at h
    cases h

theorem exponent_eq_some_iff (hplain : Plain digit) {e : ℤ} :
    exponent digit cs = some e ↔ ExponentText digit cs e := by
  constructor
  · intro h
    cases cs with
    | nil =>
      cases h
      exact .none
    | cons c cs =>
      rw [exponent] at h
      split at h
      next hc =>
        obtain ⟨signText, hsign, hcs⟩ := exists_sign cs
        generalize sign cs = signed at h hsign hcs
        obtain ⟨negative, rest⟩ := signed
        dsimp only at h hsign hcs
        split at h
        next d ds htake =>
          obtain ⟨pre, hrest, hdigits, -⟩ := takeDigits_eq_iff.mp htake
          rw [List.append_nil] at hrest
          cases h
          rw [hcs, hrest]
          exact .exponent hc hsign hdigits
        next => cases h
      next => cases h
  · intro h
    cases h with
    | none => rfl
    | @exponent c signText cs negative d ds hc hsign hdigits =>
      have htake : takeDigits digit cs = (d :: ds, []) :=
        takeDigits_eq_iff.mpr ⟨cs, (List.append_nil cs).symm, hdigits, nofun⟩
      have hhead : ∀ c ∈ cs.head?, c ≠ '-' ∧ c ≠ '+' := by
        cases hdigits with
        | cons hd _ => rintro c ⟨⟩; exact hplain.ne_sign hd
      rw [exponent, if_pos hc, sign_append hsign hhead]
      simp only [htake]

/-- The text of an exponent does not begin with a digit or a point. -/
theorem exponentText_head (hplain : Plain digit) {e : ℤ} (h : ExponentText digit cs e) :
    ∀ c ∈ cs.head?, digit c = none ∧ c ≠ '.' := by
  cases h with
  | none => nofun
  | exponent hc _ _ =>
    rintro c ⟨⟩
    refine ⟨hplain.exponent _ hc, ?_⟩
    rintro rfl
    simp at hc

theorem exists_fraction (digit : Char → Option ℕ) (cs : List Char) :
    ∃ fracText, FractionText digit fracText (fraction digit cs).1 ∧
      cs = fracText ++ (fraction digit cs).2 := by
  unfold fraction
  split
  next cs =>
    obtain ⟨pre, hcs, hdigits, -⟩ := takeDigits_eq_iff.mp (rfl : takeDigits digit cs = _)
    exact ⟨_, .point hdigits, congrArg ('.' :: ·) hcs⟩
  next => exact ⟨_, .none, rfl⟩

/-- A number after its sign: digits, a fraction and an exponent. -/
theorem number_eq_some_iff (hplain : Plain digit) {negative : Bool} {d : Decimal} :
    number digit negative cs = some d ↔
      ∃ intText fracText expText int frac e, cs = intText ++ fracText ++ expText ∧
        Digits digit intText int ∧ FractionText digit fracText frac ∧
        ExponentText digit expText e ∧ (int ≠ [] ∨ frac ≠ []) ∧
        d = ⟨negative, ofDigits (int ++ frac), e - frac.length⟩ := by
  constructor
  · intro h
    obtain ⟨intText, hcs, hint, -⟩ := takeDigits_eq_iff.mp (rfl : takeDigits digit cs = _)
    obtain ⟨fracText, hfrac, hrest⟩ := exists_fraction digit (takeDigits digit cs).2
    rw [number] at h
    dsimp only at h
    split at h
    next => cases h
    next hdigits =>
      obtain ⟨e, hexp, rfl⟩ := Option.map_eq_some_iff.mp h
      refine ⟨intText, fracText, _, _, _, e, ?_, hint, hfrac,
        (exponent_eq_some_iff hplain).mp hexp, not_and_or.mp hdigits, rfl⟩
      rw [List.append_assoc, ← hrest, ← hcs]
  · rintro ⟨intText, fracText, expText, int, frac, e, rfl, hint, hfrac, hexp, hdigits, rfl⟩
    have hhead : ∀ c ∈ (fracText ++ expText).head?, digit c = none := by
      cases hfrac with
      | none => exact fun c hc => (exponentText_head hplain hexp c hc).1
      | point _ => rintro c ⟨⟩; exact hplain.point
    have hfraction : fraction digit (fracText ++ expText) = (frac, expText) := by
      cases hfrac with
      | none =>
        rw [List.nil_append]
        cases expText with
        | nil => rfl
        | cons c cs =>
          rw [fraction]
          rintro cs ⟨⟩
          exact (exponentText_head hplain hexp '.' rfl).2 rfl
      | point hfrac =>
        exact takeDigits_append hfrac fun c hc => (exponentText_head hplain hexp c hc).1
    have hnot : ¬ (int = [] ∧ frac = []) := not_and_or.mpr hdigits
    rw [number, List.append_assoc, takeDigits_append hint hhead]
    simp only [hfraction, if_neg hnot, (exponent_eq_some_iff hplain).mpr hexp, Option.map_some]

/-- **The reader reads the grammar**: it finds a finite number in a text if and only if the text is
one of this number. -/
theorem read_eq_finite_iff (hplain : Plain digit) {d : Decimal} :
    read digit cs = some (.finite d) ↔ NumberText digit cs d := by
  constructor
  · intro h
    obtain ⟨signText, hsign, hcs⟩ := exists_sign cs
    rw [read] at h
    generalize sign cs = signed at h hsign hcs
    obtain ⟨negative, rest⟩ := signed
    dsimp only at h hsign hcs
    split at h
    next d' hnumber =>
      cases h
      obtain ⟨intText, fracText, expText, int, frac, e, rfl, hint, hfrac, hexp, hdigits, rfl⟩ :=
        (number_eq_some_iff hplain).mp hnumber
      rw [hcs, ← List.append_assoc, ← List.append_assoc]
      exact .number hsign hint hfrac hexp hdigits
    next => split at h <;> cases h
  · intro h
    obtain ⟨hsign, hint, hfrac, hexp, hdigits⟩ := h
    rename_i signText intText fracText expText negative int frac e
    have hnumber : number digit negative (intText ++ fracText ++ expText) =
        some ⟨negative, ofDigits (int ++ frac), e - frac.length⟩ :=
      (number_eq_some_iff hplain).mpr
        ⟨_, _, _, _, _, _, rfl, hint, hfrac, hexp, hdigits, rfl⟩
    have hhead : ∀ c ∈ (intText ++ fracText ++ expText).head?, c ≠ '-' ∧ c ≠ '+' := by
      cases hint with
      | cons hd _ => rintro c ⟨⟩; exact hplain.ne_sign hd
      | nil =>
        cases hfrac with
        | none => exact absurd hdigits (by simp)
        | point _ => rintro c ⟨⟩; decide
    have hsigned : sign (signText ++ intText ++ fracText ++ expText) =
        (negative, intText ++ fracText ++ expText) := by
      rw [List.append_assoc, List.append_assoc, ← List.append_assoc intText]
      exact sign_append hsign hhead
    rw [read, hsigned]
    simp only [hnumber]

/-! ## Integers -/

/-- What an integer is printed as: digits, after a sign if it is negative. -/
theorem toList_toString_int (n : ℤ) :
    (toString n).toList = match n with
      | .ofNat m => Nat.toDigits 10 m
      | .negSucc m => '-' :: Nat.toDigits 10 (m + 1) := by
  cases n with
  | ofNat m => exact Nat.toList_repr
  | negSucc m =>
    show ("-" ++ (m + 1).repr).toList = _
    rw [String.toList_append, Nat.toList_repr]
    rfl

theorem digits_of_isDigit (hplain : Plain digit) (h : ∀ c ∈ cs, c.isDigit = true) :
    Digits digit cs (cs.map fun c => c.toNat - 48) := by
  rw [Digits, List.forall₂_map_right_iff, List.forall₂_same]
  exact fun c hc => hplain.ascii c (h c hc)

theorem mem_toString_int {n : ℤ} {c : Char} (h : c ∈ (toString n).toList) :
    c.isDigit = true ∨ c = '-' := by
  have hdigit : ∀ m : ℕ, c ∈ Nat.toDigits 10 m → c.isDigit = true := fun m =>
    Nat.isDigit_of_mem_toDigits (by decide) (by decide)
  rw [toList_toString_int] at h
  cases n with
  | ofNat m => exact .inl (hdigit m h)
  | negSucc m =>
    rcases List.mem_cons.mp h with rfl | hmem
    · exact .inr rfl
    · exact .inl (hdigit (m + 1) hmem)

/-- **An integer is printed** as a text of its number. -/
theorem numberText_toString (hplain : Plain digit) (n : ℤ) :
    NumberText digit (toString n).toList ⟨decide (n < 0), n.natAbs, 0⟩ := by
  have hdigits : ∀ m : ℕ, Digits digit (Nat.toDigits 10 m)
      ((Nat.toDigits 10 m).map fun c => c.toNat - 48) := fun m =>
    digits_of_isDigit hplain fun c hc =>
      Nat.isDigit_of_mem_toDigits (by decide) (by decide) hc
  have hvalue : ∀ m : ℕ,
      ofDigits ((Nat.toDigits 10 m).map (fun c => c.toNat - 48) ++ []) = m := by
    intro m
    rw [List.append_nil, ofDigits, List.foldl_map]
    exact Nat.ofDigitChars_toDigits (by decide) (by decide)
  have hne : ∀ m : ℕ, (Nat.toDigits 10 m).map (fun c => c.toNat - 48) ≠ [] := by
    intro m
    rw [Ne, List.map_eq_nil_iff]
    exact Nat.toDigits_ne_nil
  rw [toList_toString_int]
  cases n with
  | ofNat m =>
    have h := NumberText.number .none (hdigits m) .none .none (.inl (hne m))
    have hsign : decide (Int.ofNat m < 0) = false :=
      decide_eq_false (Int.not_lt.mpr (Int.natCast_nonneg m))
    rw [hvalue m] at h
    rw [hsign]
    simpa using h
  | negSucc m =>
    have h := NumberText.number .minus (hdigits (m + 1)) .none .none (.inl (hne (m + 1)))
    rw [hvalue (m + 1)] at h
    simpa using h

end Grammar
end DecimalText
