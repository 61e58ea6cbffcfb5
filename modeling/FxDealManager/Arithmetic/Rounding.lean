import Mathlib.Tactic.Ring
import FxDealManager.Arithmetic.Decimal

/-!
# Rounding within a precision

A product is rounded to the precision of the context before it is quantized, so that an amount may
be rounded twice. The two roundings fail, and leave the range of a column, exactly where a single
rounding of the exact product would.

## Main results

* `digits_le_iff`: the digits of a coefficient, by its size
* `divide_halfUp`: rounding half up is adding a half
* `fix_spec`: what rounding to a precision leaves of a coefficient
* `quantize_fix_isSome_iff`: when the two roundings succeed
* `quantize_fix_lt_iff`: when their result has at most the given number of digits
-/

namespace DecimalArithmetic

theorem digits_le_iff {n prec : ℕ} (hprec : 0 < prec) : digits n ≤ prec ↔ n < 10 ^ prec := by
  rcases Nat.eq_zero_or_pos n with rfl | hn
  · simp [digits]
    omega
  · rw [← Nat.log_lt_iff_lt_pow (by decide) (Nat.pos_iff_ne_zero.mp hn), digits]
    omega

/-- A number with `digits n` digits. -/
theorem digits_bounds {n : ℕ} (hn : 0 < n) : 10 ^ (digits n - 1) ≤ n ∧ n < 10 ^ digits n :=
  ⟨Nat.pow_log_le_self 10 (Nat.pos_iff_ne_zero.mp hn), Nat.lt_pow_succ_log_self (by decide) n⟩

/-- Rounding half up is adding a half. -/
theorem divide_halfUp {n h : ℕ} (hh : 0 < h) :
    Rounding.halfUp.divide n (2 * h) = (n + h) / (2 * h) := by
  have hn : 2 * h * (n / (2 * h)) + n % (2 * h) = n := Nat.div_add_mod n (2 * h)
  have hr : n % (2 * h) < 2 * h := Nat.mod_lt n (by omega)
  generalize hq : n / (2 * h) = q at hn
  generalize n % (2 * h) = r at hn hr
  have hdef : Rounding.halfUp.divide n (2 * h) = if 2 * h ≤ 2 * r then q + 1 else q := by
    subst hn
    simp only [Rounding.divide, hq]
    congr 2
    rw [Nat.mul_add_mod, Nat.mod_eq_of_lt hr]
  rw [hdef]
  have hsucc : (q + 1) * (2 * h) = 2 * h * q + 2 * h := by ring
  have hsucc' : (q + 1 + 1) * (2 * h) = 2 * h * q + 4 * h := by ring
  have hmul : q * (2 * h) = 2 * h * q := by ring
  split
  · exact (Nat.div_eq_of_lt_le (by omega) (by omega)).symm
  · exact (Nat.div_eq_of_lt_le (by omega) (by omega)).symm

/-- Rounding moves a quotient up by at most one. -/
theorem divide_bounds (mode : Rounding) (n k : ℕ) :
    n / k ≤ mode.divide n k ∧ mode.divide n k ≤ n / k + 1 := by
  cases mode <;> simp only [Rounding.divide] <;> split <;> omega

/-- Rounding half to even reaches an even number if at most a half is missing. -/
theorem divide_halfEven_lt_iff {n h b : ℕ} (hh : 0 < h) (hb : b % 2 = 0) (hn : n < b * (2 * h)) :
    Rounding.halfEven.divide n (2 * h) < b ↔ n + h < b * (2 * h) := by
  have hdiv : 2 * h * (n / (2 * h)) + n % (2 * h) = n := Nat.div_add_mod n (2 * h)
  have hr : n % (2 * h) < 2 * h := Nat.mod_lt n (by omega)
  have hq : n / (2 * h) < b := Nat.div_lt_of_lt_mul (by rw [Nat.mul_comm]; exact hn)
  simp only [Rounding.divide]
  generalize n / (2 * h) = q at hdiv hq
  generalize n % (2 * h) = r at hdiv hr
  obtain ⟨t, rfl⟩ : ∃ t, b = q + 1 + t := ⟨b - (q + 1), by omega⟩
  have hmul : (q + 1 + t) * (2 * h) = 2 * h * q + 2 * h + 2 * h * t := by ring
  rw [hmul]
  rcases Nat.eq_zero_or_pos t with rfl | ht
  · have hodd : q % 2 = 1 := by omega
    split <;> omega
  · have hle : 2 * h ≤ 2 * h * t := Nat.le_mul_of_pos_right _ ht
    split <;> omega

namespace Decimal

section Rescale

variable {negative : Bool} {c j k : ℕ} {e : ℤ} (mode : Rounding)

/-- A number moved to a smaller exponent. -/
theorem rescale_of_le (h : k ≤ j) :
    (⟨negative, c, e + j⟩ : Decimal).rescale mode (e + k) = c * 10 ^ (j - k) := by
  simp only [rescale]
  rw [if_pos (by omega), show (e + (j : ℤ) - (e + (k : ℤ))).toNat = j - k by omega]

/-- A number moved to a larger exponent. -/
theorem rescale_of_lt (h : j < k) :
    (⟨negative, c, e + j⟩ : Decimal).rescale mode (e + k) = mode.divide c (10 ^ (k - j)) := by
  simp only [rescale]
  rw [if_neg (by omega), show (e + (k : ℤ) - (e + (j : ℤ))).toNat = k - j by omega]

/-- A number of which `k` digits are dropped. -/
theorem rescale_drop (d : Decimal) (hk : 0 < k) :
    d.rescale mode (d.exponent + k) = mode.divide d.coefficient (10 ^ k) := by
  have h : (⟨d.negative, d.coefficient, d.exponent + (0 : ℕ)⟩ : Decimal).rescale mode
      (d.exponent + k) = mode.divide d.coefficient (10 ^ (k - 0)) := rescale_of_lt mode hk
  simpa using h

end Rescale

/-- A power of ten is twice a half. -/
theorem ten_pow_succ (s : ℕ) : 10 ^ (s + 1) = 2 * (5 * 10 ^ s) := by ring

theorem even_ten_pow {prec : ℕ} (hprec : 0 < prec) : 10 ^ prec % 2 = 0 := by
  obtain ⟨k, rfl⟩ : ∃ k, prec = k + 1 := ⟨prec - 1, by omega⟩
  rw [ten_pow_succ]
  omega

/-- A number with few digits stays below a bound when a half is added. -/
theorem add_half_lt {m prec i s : ℕ} (hm : m < 10 ^ (prec + (i + 1))) (hs : i < s) :
    m + 5 * 10 ^ s < 10 ^ (prec + s + 1) := by
  have h₁ : m < 10 ^ (prec + s) :=
    lt_of_lt_of_le hm (Nat.pow_le_pow_right (by decide) (by omega))
  have h₂ : 10 ^ s ≤ 10 ^ (prec + s) := Nat.pow_le_pow_right (by decide) (by omega)
  rw [pow_succ]
  omega

/-- A number with many digits is above the bound to begin with. -/
theorem not_add_half_lt {m prec i s : ℕ} (hm : 10 ^ (prec + i) ≤ m) (hs : s < i) :
    ¬ m + 5 * 10 ^ s < 10 ^ (prec + s + 1) := by
  have h : 10 ^ (prec + s + 1) ≤ 10 ^ (prec + i) := Nat.pow_le_pow_right (by decide) (by omega)
  omega

/-- Rounding a number that has `i + 1` digits more than the precision. -/
theorem fix_of_digits {prec i : ℕ} {d : Decimal} (h : digits d.coefficient = prec + (i + 1)) :
    d.fix prec =
      if digits (Rounding.halfEven.divide d.coefficient (10 ^ (i + 1))) ≤ prec then
        ⟨d.negative, Rounding.halfEven.divide d.coefficient (10 ^ (i + 1)),
          d.exponent + (i + 1 : ℕ)⟩
      else
        ⟨d.negative, Rounding.halfEven.divide d.coefficient (10 ^ (i + 1)) / 10,
          d.exponent + (i + 1 : ℕ) + 1⟩ := by
  have hlong : ¬ digits d.coefficient ≤ prec := by omega
  have hdrop : digits d.coefficient - prec = i + 1 := by omega
  have hrescale := rescale_drop .halfEven d (Nat.succ_pos i)
  simp only [fix, if_neg hlong, hdrop, hrescale]

/-- **What rounding to a precision leaves** of a coefficient that does not fit: a coefficient of
exactly the precision, and an exponent that tells how large the number was. -/
theorem fix_spec {prec : ℕ} (hprec : 0 < prec) {d : Decimal} (hd : 10 ^ prec ≤ d.coefficient) :
    ∃ j c : ℕ, d.fix prec = ⟨d.negative, c, d.exponent + j⟩ ∧ 0 < j ∧ 10 ^ (prec - 1) ≤ c ∧
      c < 10 ^ prec ∧ ∀ s, j ≤ s + 1 ↔ d.coefficient + 5 * 10 ^ s < 10 ^ (prec + s + 1) := by
  obtain ⟨negative, m, e⟩ := d
  dsimp only at hd ⊢
  have hlong : ¬ digits m ≤ prec := by
    rw [digits_le_iff hprec]
    omega
  obtain ⟨i, hi⟩ : ∃ i, digits m = prec + (i + 1) := ⟨digits m - prec - 1, by omega⟩
  have hpos : 0 < m := lt_of_lt_of_le (Nat.pow_pos (by decide)) hd
  obtain ⟨hlow, hhigh⟩ := digits_bounds hpos
  rw [hi] at hlow hhigh
  have hpow : 10 ^ (prec + (i + 1)) = 10 ^ prec * (2 * (5 * 10 ^ i)) := by
    rw [pow_add, ten_pow_succ]
  have hlow' : 10 ^ (prec - 1) * (2 * (5 * 10 ^ i)) ≤ m := by
    rw [← ten_pow_succ, ← pow_add]
    exact le_trans (Nat.pow_le_pow_right (by decide) (by omega)) hlow
  rw [hpow] at hhigh
  have hhalf : 0 < 5 * 10 ^ i := Nat.mul_pos (by decide) (Nat.pow_pos (by decide))
  have hsmall : ∀ s, i < s → m + 5 * 10 ^ s < 10 ^ (prec + s + 1) := fun s hs =>
    add_half_lt (hpow ▸ hhigh) hs
  have hlarge : ∀ s, s < i → ¬ m + 5 * 10 ^ s < 10 ^ (prec + s + 1) := fun s hs =>
    not_add_half_lt hlow hs
  have hcarry : Rounding.halfEven.divide m (10 ^ (i + 1)) < 10 ^ prec ↔
      m + 5 * 10 ^ i < 10 ^ (prec + i + 1) := by
    rw [ten_pow_succ, divide_halfEven_lt_iff hhalf (even_ten_pow hprec) hhigh, add_assoc prec,
      hpow]
  obtain ⟨hdivlow, hdivhigh⟩ := divide_bounds .halfEven m (10 ^ (i + 1))
  have hquot : 10 ^ (prec - 1) ≤ m / 10 ^ (i + 1) := by
    rw [ten_pow_succ]
    exact (Nat.le_div_iff_mul_le (by omega)).mpr hlow'
  have hquot' : m / 10 ^ (i + 1) < 10 ^ prec := by
    rw [ten_pow_succ]
    exact Nat.div_lt_of_lt_mul (by rw [Nat.mul_comm]; exact hhigh)
  rw [fix_of_digits hi]
  dsimp only
  generalize Rounding.halfEven.divide m (10 ^ (i + 1)) = c at hcarry hdivlow hdivhigh ⊢
  by_cases hc : c < 10 ^ prec
  · rw [if_pos ((digits_le_iff hprec).mpr hc)]
    refine ⟨i + 1, c, rfl, Nat.succ_pos i, by omega, hc, fun s => ?_⟩
    rcases lt_trichotomy i s with hs | rfl | hs
    · exact iff_of_true (by omega) (hsmall s hs)
    · exact iff_of_true le_rfl (hcarry.mp hc)
    · exact iff_of_false (by omega) (hlarge s hs)
  · rw [if_neg (mt (digits_le_iff hprec).mp hc)]
    obtain ⟨k, rfl⟩ : ∃ k, prec = k + 1 := ⟨prec - 1, by omega⟩
    have hten : c / 10 = 10 ^ k := by
      have hc' : c = 10 ^ (k + 1) := by omega
      rw [hc', pow_succ]
      exact Nat.mul_div_cancel _ (by decide)
    refine ⟨i + 2, c / 10, by push_cast; congr 1; ring, Nat.succ_pos _, hten.ge, ?_, fun s => ?_⟩
    · rw [hten]
      exact Nat.pow_lt_pow_right (by decide) (Nat.lt_succ_self k)
    · rcases lt_trichotomy i s with hs | rfl | hs
      · exact iff_of_true (by omega) (hsmall s hs)
      · exact iff_of_false (by omega) (mt hcarry.mpr hc)
      · exact iff_of_false (by omega) (hlarge s hs)

section Quantize

variable {prec s : ℕ}

/-- Rounding drops at least one digit, which leaves room for a carry. -/
theorem div_pow_succ_lt {c k : ℕ} (hprec : 0 < prec) (hc : c < 10 ^ prec) (hk : 0 < k) :
    c / 10 ^ k + 1 < 10 ^ prec := by
  obtain ⟨t, rfl⟩ : ∃ t, prec = t + 1 := ⟨prec - 1, by omega⟩
  have h₁ : c / 10 ^ k ≤ c / 10 := by
    refine Nat.div_le_div_left ?_ (by decide)
    calc 10 = 10 ^ 1 := (pow_one 10).symm
      _ ≤ 10 ^ k := Nat.pow_le_pow_right (by decide) hk
  have h₂ : 1 ≤ 10 ^ t := Nat.pow_pos (by decide)
  rw [pow_succ] at hc ⊢
  omega

/-- A number that fits the precision is quantized. -/
theorem quantize_of_fits {d : Decimal} (hprec : 0 < prec) (hfits : d.coefficient < 10 ^ prec) :
    d.coefficient + 5 * 10 ^ s < 10 ^ (prec + s + 1) ∧
      d.quantize prec .halfUp (d.exponent + (s + 1 : ℕ)) =
        some ⟨d.negative, (d.coefficient + 5 * 10 ^ s) / 10 ^ (s + 1),
          d.exponent + (s + 1 : ℕ)⟩ := by
  have hhalf : 0 < 5 * 10 ^ s := Nat.mul_pos (by decide) (Nat.pow_pos (by decide))
  have hrescale : d.rescale .halfUp (d.exponent + (s + 1 : ℕ)) =
      (d.coefficient + 5 * 10 ^ s) / 10 ^ (s + 1) := by
    rw [rescale_drop .halfUp d (Nat.succ_pos s), ten_pow_succ, divide_halfUp hhalf]
  have hle : 10 ^ s ≤ 10 ^ (prec + s) := Nat.pow_le_pow_right (by decide) (by omega)
  have hle' : 10 ^ prec ≤ 10 ^ (prec + s) := Nat.pow_le_pow_right (by decide) (by omega)
  have hbound : d.coefficient + 5 * 10 ^ s < 10 ^ (prec + s + 1) := by
    rw [pow_succ]
    omega
  have hdigits : digits ((d.coefficient + 5 * 10 ^ s) / 10 ^ (s + 1)) ≤ prec := by
    rw [digits_le_iff hprec]
    refine Nat.div_lt_of_lt_mul ?_
    rw [← pow_add, show s + 1 + prec = prec + s + 1 by omega]
    exact hbound
  exact ⟨hbound, by simp only [quantize, hrescale, if_pos hdigits]⟩

/-- **Rounding twice**: a number that is rounded to a precision and then quantized half up by
`s + 1` digits fails where a single rounding would; a number that fits the precision is rounded
once, and any other one stays large. -/
theorem quantize_fix (d : Decimal) (hs : s + 1 ≤ prec) :
    match (d.fix prec).quantize prec .halfUp (d.exponent + (s + 1 : ℕ)) with
    | none => ¬ d.coefficient + 5 * 10 ^ s < 10 ^ (prec + s + 1)
    | some q => d.coefficient + 5 * 10 ^ s < 10 ^ (prec + s + 1) ∧
        (d.coefficient < 10 ^ prec ∧ q.coefficient = (d.coefficient + 5 * 10 ^ s) / 10 ^ (s + 1) ∨
          10 ^ prec ≤ d.coefficient ∧ 10 ^ (prec - (s + 1)) ≤ q.coefficient) := by
  have hprec : 0 < prec := by omega
  by_cases hfits : d.coefficient < 10 ^ prec
  · have hfix : d.fix prec = d := if_pos ((digits_le_iff hprec).mpr hfits)
    obtain ⟨hbound, hquantize⟩ := quantize_of_fits (s := s) hprec hfits
    rw [hfix, hquantize]
    exact ⟨hbound, .inl ⟨hfits, rfl⟩⟩
  · obtain ⟨j, c, hfix, hj, hlow, hhigh, hiff⟩ := fix_spec hprec (not_lt.mp hfits)
    rw [hfix]
    simp only [quantize]
    rcases Nat.lt_or_ge j (s + 1) with hlt | hge
    · rw [rescale_of_lt .halfUp hlt]
      obtain ⟨hdivlow, hdivhigh⟩ := divide_bounds .halfUp c (10 ^ (s + 1 - j))
      have hdigits : digits (Rounding.halfUp.divide c (10 ^ (s + 1 - j))) ≤ prec := by
        rw [digits_le_iff hprec]
        exact lt_of_le_of_lt hdivhigh (div_pow_succ_lt hprec hhigh (by omega))
      rw [if_pos hdigits]
      refine ⟨(hiff s).mp hlt.le, .inr ⟨not_lt.mp hfits, le_trans ?_ hdivlow⟩⟩
      refine (Nat.le_div_iff_mul_le (Nat.pow_pos (by decide))).mpr (le_trans ?_ hlow)
      rw [← pow_add]
      exact Nat.pow_le_pow_right (by decide) (by omega)
    · rw [rescale_of_le .halfUp hge]
      rcases Nat.eq_or_lt_of_le hge with rfl | hgt
      · rw [Nat.sub_self, pow_zero, Nat.mul_one, if_pos ((digits_le_iff hprec).mpr hhigh)]
        refine ⟨(hiff s).mp le_rfl, .inr ⟨not_lt.mp hfits, le_trans ?_ hlow⟩⟩
        exact Nat.pow_le_pow_right (by decide) (by omega)
      · have hlong : ¬ digits (c * 10 ^ (j - (s + 1))) ≤ prec := by
          rw [digits_le_iff hprec, not_lt]
          have hten : 10 ^ 1 ≤ 10 ^ (j - (s + 1)) := Nat.pow_le_pow_right (by decide) (by omega)
          calc 10 ^ prec = 10 ^ (prec - 1) * 10 ^ 1 := by
                rw [← pow_add, Nat.sub_add_cancel hprec]
            _ ≤ c * 10 ^ (j - (s + 1)) := Nat.mul_le_mul hlow hten
        rw [if_neg hlong]
        exact mt (hiff s).mpr (by omega)

/-- The two roundings succeed where a single one would. -/
theorem quantize_fix_isSome_iff {d : Decimal} (hs : s + 1 ≤ prec) :
    ((d.fix prec).quantize prec .halfUp (d.exponent + (s + 1 : ℕ))).isSome ↔
      d.coefficient + 5 * 10 ^ s < 10 ^ (prec + s + 1) := by
  have h := quantize_fix d hs
  cases hq : (d.fix prec).quantize prec .halfUp (d.exponent + (s + 1 : ℕ)) with
  | none => rw [hq] at h; simpa using not_lt.mp h
  | some q => rw [hq] at h; simpa using h.1

/-- The result of the two roundings has at most `w` digits where that of a single one would. -/
theorem quantize_fix_lt_iff {w : ℕ} {d q : Decimal} (hw : w + (s + 1) ≤ prec)
    (hq : (d.fix prec).quantize prec .halfUp (d.exponent + (s + 1 : ℕ)) = some q) :
    q.coefficient < 10 ^ w ↔ d.coefficient + 5 * 10 ^ s < 10 ^ (w + s + 1) := by
  have h := quantize_fix d (show s + 1 ≤ prec by omega)
  rw [hq] at h
  rcases h.2 with ⟨-, hcoefficient⟩ | ⟨hlarge, hcoefficient⟩
  · rw [hcoefficient, Nat.div_lt_iff_lt_mul (Nat.pow_pos (by decide)), ← pow_add, add_assoc w]
  · have h₁ : 10 ^ w ≤ 10 ^ (prec - (s + 1)) := Nat.pow_le_pow_right (by decide) (by omega)
    have h₂ : 10 ^ (w + s + 1) ≤ 10 ^ prec := Nat.pow_le_pow_right (by decide) (by omega)
    exact iff_of_false (by omega) (by omega)

end Quantize

end Decimal

end DecimalArithmetic
