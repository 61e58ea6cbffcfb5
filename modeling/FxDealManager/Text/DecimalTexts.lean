import FxDealManager.Text.Decimals

/-!
# Decimal numbers as texts

The text of a decimal number, plain or scientific, is in the grammar of the numbers, and spells
this number: sign, coefficient and exponent, not only the value.

## Main results

* `numberText_text`: the text of a number is one of this number
* `read_text`: the reader reads it back
-/

namespace DecimalText

open DecimalArithmetic

/-! ## Digits -/

/-- The characters `0` to `9` with their values. -/
abbrev digitsOf (cs : List Char) : List ℕ := cs.map fun c => c.toNat - 48

theorem ofDigits_digitsOf (cs : List Char) :
    ofDigits (digitsOf cs) = Nat.ofDigitChars 10 cs 0 := by
  rw [ofDigits, List.foldl_map]
  rfl

theorem ofDigits_toDigits (n : ℕ) : ofDigits (digitsOf (Nat.toDigits 10 n)) = n :=
  (ofDigits_digitsOf _).trans Nat.ofDigitChars_ten_toDigits

/-- Zeros in front do not count. -/
theorem ofDigits_zeros (k : ℕ) (cs : List Char) :
    ofDigits (digitsOf (List.replicate k '0' ++ cs)) = ofDigits (digitsOf cs) := by
  rw [ofDigits_digitsOf, Nat.ofDigitChars_append, Nat.ofDigitChars_replicate_zero, Nat.mul_zero,
    ofDigits_digitsOf]

theorem isDigit_toDigits {n : ℕ} : ∀ c ∈ Nat.toDigits 10 n, c.isDigit = true := fun _ =>
  Nat.isDigit_of_mem_toDigits (by decide) (by decide)

theorem isDigit_zeros {k : ℕ} : ∀ c ∈ List.replicate k '0', c.isDigit = true := by
  intro c hc
  rw [List.eq_of_mem_replicate hc]
  rfl

section Grammar

variable {digit : Char → Option ℕ} {expText : List Char} {e : ℤ}

/-! ## The parts of a number -/

/-- The exponent of a number is printed as an exponent. -/
theorem exponentText_exponentText (hplain : Plain digit) (e : ℤ) :
    ExponentText digit (Decimal.exponentText e).toList e := by
  have hdigits : ∀ m : ℕ, ∃ d ds, Digits digit (Nat.toDigits 10 m) (d :: ds) ∧
      ofDigits (d :: ds) = m := by
    intro m
    obtain ⟨d, ds, hds⟩ := List.exists_cons_of_ne_nil
      (mt List.map_eq_nil_iff.mp (Nat.toDigits_ne_nil : Nat.toDigits 10 m ≠ []) :
        digitsOf (Nat.toDigits 10 m) ≠ [])
    exact ⟨d, ds, hds ▸ digits_of_isDigit hplain isDigit_toDigits,
      hds ▸ ofDigits_toDigits m⟩
  cases e with
  | ofNat m =>
    obtain ⟨d, ds, hds, hm⟩ := hdigits m
    have h := ExponentText.exponent (c := 'E') (.inr rfl) .plus hds
    rw [hm] at h
    have htext : (Decimal.exponentText (Int.ofNat m)).toList =
        'E' :: (['+'] ++ Nat.toDigits 10 m) := by
      have hnonneg : 0 ≤ Int.ofNat m := Int.natCast_nonneg m
      rw [Decimal.exponentText, if_pos hnonneg, String.toList_append, toList_toString_int]
      rfl
    rw [htext]
    exact h
  | negSucc m =>
    obtain ⟨d, ds, hds, hm⟩ := hdigits (m + 1)
    have h := ExponentText.exponent (c := 'E') (.inr rfl) .minus hds
    rw [hm] at h
    have htext : (Decimal.exponentText (Int.negSucc m)).toList =
        'E' :: (['-'] ++ Nat.toDigits 10 (m + 1)) := by
      rw [Decimal.exponentText, if_neg (Int.not_le.mpr (Int.negSucc_lt_zero m)),
        String.toList_append, toList_toString_int]
      rfl
    rw [htext]
    exact h

/-- A number of the digits and the exponent that its parts spell. -/
theorem numberText_parts (hplain : Plain digit) {d : Decimal} {intText fracText : List Char}
    {frac : List ℕ} (hint : ∀ c ∈ intText, c.isDigit = true) (hne : intText ≠ [])
    (hfrac : FractionText digit fracText frac) (hexp : ExponentText digit expText e)
    (hcoefficient : ofDigits (digitsOf intText ++ frac) = d.coefficient)
    (hexponent : e - frac.length = d.exponent) :
    NumberText digit ((if d.negative then ['-'] else []) ++ intText ++ fracText ++ expText) d := by
  have hsign : SignText (if d.negative then ['-'] else []) d.negative := by
    cases d.negative
    · exact .none
    · exact .minus
  have h := NumberText.number hsign (digits_of_isDigit hplain hint) hfrac hexp
    (.inl (mt List.map_eq_nil_iff.mp hne))
  rw [hcoefficient, hexponent] at h
  exact h

/-! ## The text of a number -/

/-- **The text of a number** is in the grammar, and spells the number. -/
theorem numberText_text (hplain : Plain digit) (d : Decimal) :
    NumberText digit d.text.toList d := by
  have hlen : 0 < (Nat.toDigits 10 d.coefficient).length := Nat.length_toDigits_pos
  have hdigs : (toString d.coefficient).toList = Nat.toDigits 10 d.coefficient := Nat.toList_repr
  have hlength : (toString d.coefficient).length = (Nat.toDigits 10 d.coefficient).length := by
    rw [← hdigs, String.length_toList]
  have hsign : (if d.negative then "-" else "").toList = if d.negative then ['-'] else [] := by
    split <;> rfl
  have hvalue := ofDigits_toDigits d.coefficient
  have hisDigit := isDigit_toDigits (n := d.coefficient)
  rw [Decimal.text]
  simp only [hlength, hdigs]
  generalize Nat.toDigits 10 d.coefficient = cs at hlen hdigs hlength hvalue hisDigit
  generalize hdot : (if d.exponent ≤ 0 ∧ -6 < d.exponent + cs.length then
    d.exponent + (cs.length : ℤ) else 1) = dot
  have hexp : ExponentText digit (if d.exponent + cs.length = dot then "" else
      Decimal.exponentText (d.exponent + cs.length - dot)).toList
      (d.exponent + cs.length - dot) := by
    split
    next heq =>
      rw [heq, Int.sub_self]
      exact .none
    next => exact exponentText_exponentText hplain _
  by_cases hsmall : dot ≤ 0
  · have hzero : ("0" : String).toList = ['0'] := rfl
    have hpoint : ("." : String).toList = ['.'] := rfl
    simp only [if_pos hsmall, String.toList_append, String.toList_ofList, hsign, hdigs, hzero,
      hpoint, List.cons_append, List.nil_append]
    have hfrac : ∀ c ∈ List.replicate (-dot).toNat '0' ++ cs, c.isDigit = true := by
      intro c hc
      rcases List.mem_append.mp hc with h | h
      · exact isDigit_zeros c h
      · exact hisDigit c h
    refine numberText_parts hplain (by simp) (by simp)
      (.point (digits_of_isDigit hplain hfrac)) hexp ?_ ?_
    · calc ofDigits (digitsOf ['0'] ++ digitsOf (List.replicate (-dot).toNat '0' ++ cs))
          = ofDigits (digitsOf (List.replicate ((-dot).toNat + 1) '0' ++ cs)) := rfl
        _ = d.coefficient := (ofDigits_zeros _ cs).trans hvalue
    · rw [List.length_map, List.length_append, List.length_replicate]
      omega
  · by_cases hshort : (cs.length : ℤ) ≤ dot
    · have hdotLength : dot = cs.length := by
        split at hdot <;> omega
      have hnone : List.replicate (dot - cs.length).toNat '0' = [] := by
        rw [hdotLength, Int.sub_self]
        rfl
      have hempty : ("" : String).toList = [] := rfl
      simp only [if_neg hsmall, if_pos hshort, String.toList_append, hsign, hdigs, hnone, hempty,
        List.append_nil cs]
      refine numberText_parts hplain hisDigit (List.ne_nil_of_length_pos hlen) .none hexp ?_ ?_
      · rw [List.append_nil, hvalue]
      · rw [List.length_nil]
        omega
    · have hpoint : ("." : String).toList = ['.'] := rfl
      simp only [if_neg hsmall, if_neg hshort, String.toList_append, String.toList_ofList, hsign,
        hpoint, List.singleton_append]
      refine numberText_parts hplain (fun c hc => hisDigit c (List.mem_of_mem_take hc)) ?_
        (.point (digits_of_isDigit hplain fun c hc => hisDigit c (List.mem_of_mem_drop hc))) hexp
        ?_ ?_
      · refine List.ne_nil_of_length_pos ?_
        rw [List.length_take]
        omega
      · rw [← List.map_append, List.take_append_drop, hvalue]
      · rw [List.length_map, List.length_drop]
        omega

/-- **The text of a number is read back** as the number. -/
theorem read_text (hplain : Plain digit) (d : Decimal) :
    read digit d.text.toList = some (.finite d) :=
  (read_eq_finite_iff hplain).mpr (numberText_text hplain d)

end Grammar

end DecimalText
