import FxDealManager.Arithmetic.Sums
import Mathlib.Data.Rat.Floor

/-!
# The values of rounded numbers

What rounding to a precision, quantizing and storing do to the value of a decimal. They depend on
the value alone, not on the coefficient and the exponent that represent it, and a larger number is
not rounded below a smaller one.

## Main definitions

* `rounded prec c`: a coefficient rounded to a precision, with zeros for the digits dropped
* `Decimal.exactMul`: the product before it is rounded
* `Decimal.hasPlaces`: the value is a multiple of a power of ten

## Main results

* `Decimal.fix_mono`: rounding to a precision is monotone
* `Decimal.fix_exact`: a number of few digits is not changed
* `Decimal.quantize_value`: quantizing half up, as the floor of the value
* `Decimal.neg_le_exponent_normalize_iff`: the places of a number, by its normalized exponent
* `Numeric.value_ofDecimal`: what a column keeps of a number
* `Numeric.same_ofDecimal_iff`: a number is stored exactly if it has as many places as the column
-/

namespace DecimalArithmetic

/-! ## Quotients -/

namespace Rounding

variable (mode : Rounding) {m n k : ℕ}

theorem divide_mono (h : m ≤ n) : mode.divide m k ≤ mode.divide n k := by
  obtain ⟨-, hm⟩ := divide_bounds mode m k
  obtain ⟨hn, -⟩ := divide_bounds mode n k
  rcases (Nat.div_le_div_right h : m / k ≤ n / k).lt_or_eq with hlt | heq
  · omega
  · have hmod : m % k ≤ n % k := by
      have hm := Nat.div_add_mod m k
      have hn := Nat.div_add_mod n k
      rw [heq] at hm
      omega
    cases mode <;> simp only [divide, heq] <;> split <;> split <;> omega

theorem divide_mul_right (hm : 0 < m) : mode.divide (n * m) (k * m) = mode.divide n k := by
  have hle : k * m ≤ 2 * (n % k * m) ↔ k ≤ 2 * (n % k) := by
    rw [← Nat.mul_assoc]
    exact Nat.mul_le_mul_right_iff hm
  have hlt : k * m < 2 * (n % k * m) ↔ k < 2 * (n % k) := by
    rw [← Nat.mul_assoc]
    exact Nat.mul_lt_mul_right hm
  have heq : k * m = 2 * (n % k * m) ↔ k = 2 * (n % k) := by
    rw [← Nat.mul_assoc]
    exact Nat.mul_left_inj hm.ne'
  cases mode <;>
    simp only [divide, Nat.mul_div_mul_right n k hm, Nat.mul_mod_mul_right, hle, hlt, heq]

theorem divide_mul_self (hk : 0 < k) : mode.divide (n * k) k = n := by
  cases mode <;> simp [divide, Nat.mul_div_cancel n hk, hk.ne']

end Rounding

/-! ## Coefficients -/

theorem digits_mul_pow {c : ℕ} (hc : 0 < c) (k : ℕ) : digits (c * 10 ^ k) = digits c + k := by
  induction k with
  | zero => simp
  | succ k ih =>
    have hpos : c * 10 ^ k ≠ 0 := by positivity
    rw [pow_succ, ← Nat.mul_assoc, digits, Nat.log_mul_base (by decide) hpos, ← Nat.add_assoc, ← ih,
      digits]

theorem digits_mono {m n : ℕ} (h : m ≤ n) : digits m ≤ digits n :=
  Nat.succ_le_succ (Nat.log_mono_right h)

/-- A coefficient rounded half to even to a precision, with zeros for the digits dropped. -/
def rounded (prec c : ℕ) : ℕ :=
  if digits c ≤ prec then c
  else Rounding.halfEven.divide c (10 ^ (digits c - prec)) * 10 ^ (digits c - prec)

section Rounded

variable {prec : ℕ}

theorem rounded_of_digits {c : ℕ} (h : digits c ≤ prec) : rounded prec c = c := if_pos h

/-- The rounding of a coefficient that has `i + 1` digits more than the precision. -/
theorem rounded_of_more {c i : ℕ} (h : digits c = prec + (i + 1)) :
    rounded prec c = Rounding.halfEven.divide c (10 ^ (i + 1)) * 10 ^ (i + 1) := by
  rw [rounded, if_neg (by omega), h, Nat.add_sub_cancel_left]

/-- Rounding comes to the same at every exponent. -/
theorem rounded_mul_pow (c k : ℕ) : rounded prec (c * 10 ^ k) = rounded prec c * 10 ^ k := by
  rcases Nat.eq_zero_or_pos c with rfl | hc
  · by_cases h : digits 0 ≤ prec <;> simp [rounded, h, Rounding.divide]
  · have hdigits := digits_mul_pow hc k
    by_cases hshort : digits c ≤ prec
    · rw [rounded_of_digits hshort]
      by_cases hstill : digits (c * 10 ^ k) ≤ prec
      · exact rounded_of_digits hstill
      · obtain ⟨i, hi⟩ : ∃ i, digits (c * 10 ^ k) = prec + (i + 1) :=
          ⟨digits (c * 10 ^ k) - prec - 1, by omega⟩
        have hsplit : c * 10 ^ k = c * 10 ^ (k - (i + 1)) * 10 ^ (i + 1) := by
          rw [Nat.mul_assoc, ← pow_add, Nat.sub_add_cancel (by omega)]
        rw [rounded_of_more hi, hsplit, Rounding.divide_mul_self _ (by positivity)]
    · obtain ⟨i, hi⟩ : ∃ i, digits c = prec + (i + 1) := ⟨digits c - prec - 1, by omega⟩
      have hmore : digits (c * 10 ^ k) = prec + (i + k + 1) := by omega
      rw [rounded_of_more hi, rounded_of_more hmore, show i + k + 1 = i + 1 + k by omega, pow_add,
        Rounding.divide_mul_right _ (by positivity), Nat.mul_assoc]

/-- **Rounding a coefficient is monotone.** -/
theorem rounded_mono (hprec : 0 < prec) {m n : ℕ} (h : m ≤ n) :
    rounded prec m ≤ rounded prec n := by
  have hdigits := digits_mono h
  by_cases hn : digits n ≤ prec
  · rw [rounded_of_digits hn, rounded_of_digits (hdigits.trans hn)]
    exact h
  obtain ⟨j, hj⟩ : ∃ j, digits n = prec + (j + 1) := ⟨digits n - prec - 1, by omega⟩
  have hpos : 0 < n := Nat.pos_of_ne_zero (by rintro rfl; simp [digits] at hn; omega)
  have hlow : 10 ^ (prec - 1) * 10 ^ (j + 1) ≤ rounded prec n := by
    have hquot : 10 ^ (prec - 1) ≤ n / 10 ^ (j + 1) := by
      rw [Nat.le_div_iff_mul_le (by positivity), ← pow_add,
        show prec - 1 + (j + 1) = digits n - 1 by omega]
      exact (digits_bounds hpos).1
    rw [rounded_of_more hj]
    exact Nat.mul_le_mul_right _ (hquot.trans (divide_bounds _ _ _).1)
  by_cases hm : digits m ≤ prec
  · rw [rounded_of_digits hm]
    have hlt : m < 10 ^ prec := (digits_le_iff hprec).mp hm
    have hle : 10 ^ prec ≤ 10 ^ (prec - 1) * 10 ^ (j + 1) := by
      rw [← pow_add]
      exact Nat.pow_le_pow_right (by decide) (by omega)
    exact hlt.le.trans (hle.trans hlow)
  obtain ⟨i, hi⟩ : ∃ i, digits m = prec + (i + 1) := ⟨digits m - prec - 1, by omega⟩
  rcases (show i ≤ j by omega).eq_or_lt with rfl | hlt
  · rw [rounded_of_more hi, rounded_of_more hj]
    exact Nat.mul_le_mul_right _ (Rounding.divide_mono _ h)
  · have hhigh : Rounding.halfEven.divide m (10 ^ (i + 1)) ≤ 10 ^ prec := by
      have hposm : 0 < m := Nat.pos_of_ne_zero (by rintro rfl; simp [digits] at hi; omega)
      have hquot : m / 10 ^ (i + 1) < 10 ^ prec := by
        rw [Nat.div_lt_iff_lt_mul (by positivity), ← pow_add, ← hi]
        exact (digits_bounds hposm).2
      exact (divide_bounds _ _ _).2.trans hquot
    rw [rounded_of_more hi]
    calc Rounding.halfEven.divide m (10 ^ (i + 1)) * 10 ^ (i + 1)
        ≤ 10 ^ prec * 10 ^ (i + 1) := Nat.mul_le_mul_right _ hhigh
      _ ≤ 10 ^ (prec - 1) * 10 ^ (j + 1) := by
          rw [← pow_add, ← pow_add]
          exact Nat.pow_le_pow_right (by decide) (by omega)
      _ ≤ rounded prec n := hlow

end Rounded

/-! ## Values -/

namespace Decimal

theorem value_of_nonneg {d : Decimal} (h : d.negative = false) :
    d.value = d.coefficient * (10 : ℚ) ^ d.exponent := by
  simp [value, h]

/-- A number written at a lower exponent. -/
theorem value_mul_pow (negative : Bool) (c k : ℕ) (e : ℤ) :
    (⟨negative, c * 10 ^ k, e⟩ : Decimal).value = (⟨negative, c, e + k⟩ : Decimal).value := by
  have hpow : (10 : ℚ) ^ (e + (k : ℤ)) = 10 ^ e * 10 ^ k := by
    rw [zpow_add₀ (by norm_num), zpow_natCast]
  cases negative with
  | false =>
    simp only [value, hpow, Bool.false_eq_true, if_false]
    push_cast
    ring
  | true =>
    simp only [value, hpow, if_true]
    push_cast
    ring

/-- Numbers of one exponent are in the order of their coefficients. -/
theorem value_le_value_iff {m n : ℕ} {e : ℤ} :
    (⟨false, m, e⟩ : Decimal).value ≤ (⟨false, n, e⟩ : Decimal).value ↔ m ≤ n := by
  have hpos : (0 : ℚ) < 10 ^ e := zpow_pos (by norm_num) e
  rw [value_of_nonneg rfl, value_of_nonneg rfl, mul_le_mul_iff_of_pos_right hpos, Nat.cast_le]

/-- A number, written at an exponent that is not above its own. -/
theorem exists_value_eq {d : Decimal} (h : d.negative = false) {e : ℤ} (he : e ≤ d.exponent) :
    ∃ k : ℕ, d.exponent = e + k ∧
      d.value = (⟨false, d.coefficient * 10 ^ k, e⟩ : Decimal).value := by
  obtain ⟨k, hk⟩ := Int.eq_ofNat_of_zero_le (sub_nonneg.mpr he)
  have hexp : d.exponent = e + k := by omega
  refine ⟨k, hexp, ?_⟩
  rw [value_mul_pow, ← hexp, ← h]

/-! ### Rounding to a precision -/

section Fix

variable {prec : ℕ}

/-- **What rounding to a precision leaves**: the rounded coefficient, at the exponent of before. -/
theorem value_fix (hprec : 0 < prec) (d : Decimal) :
    (d.fix prec).value =
      (⟨d.negative, rounded prec d.coefficient, d.exponent⟩ : Decimal).value := by
  by_cases hshort : digits d.coefficient ≤ prec
  · rw [rounded_of_digits hshort, fix, if_pos hshort]
  obtain ⟨i, hi⟩ : ∃ i, digits d.coefficient = prec + (i + 1) :=
    ⟨digits d.coefficient - prec - 1, by omega⟩
  have hpos : 0 < d.coefficient := Nat.pos_of_ne_zero fun h => by simp [h, digits] at hi; omega
  rw [fix_of_digits hi, rounded_of_more hi, value_mul_pow]
  split
  · rfl
  next hcarry =>
    have hquot : d.coefficient / 10 ^ (i + 1) < 10 ^ prec := by
      rw [Nat.div_lt_iff_lt_mul (by positivity), ← pow_add, ← hi]
      exact (digits_bounds hpos).2
    have hle := (divide_bounds .halfEven d.coefficient (10 ^ (i + 1))).2
    rw [digits_le_iff hprec] at hcarry
    obtain ⟨t, rfl⟩ : ∃ t, prec = t + 1 := ⟨prec - 1, by omega⟩
    have hten : Rounding.halfEven.divide d.coefficient (10 ^ (i + 1)) = 10 ^ t * 10 ^ 1 := by
      rw [← pow_add]
      omega
    rw [hten, value_mul_pow, pow_one, Nat.mul_div_cancel _ (by decide)]
    congr 2

/-- **Rounding to a precision is monotone.** -/
theorem fix_mono (hprec : 0 < prec) {a b : Decimal} (ha : a.negative = false)
    (hb : b.negative = false) (h : a.value ≤ b.value) :
    (a.fix prec).value ≤ (b.fix prec).value := by
  obtain ⟨j, hj, haj⟩ := exists_value_eq ha (min_le_left a.exponent b.exponent)
  obtain ⟨k, hk, hbk⟩ := exists_value_eq hb (min_le_right a.exponent b.exponent)
  generalize min a.exponent b.exponent = e at hj hk haj hbk
  rw [haj, hbk, value_le_value_iff] at h
  rw [value_fix hprec, value_fix hprec, ha, hb, hj, hk, ← value_mul_pow, ← value_mul_pow,
    ← rounded_mul_pow, ← rounded_mul_pow, value_le_value_iff]
  exact rounded_mono hprec h

/-- A number of few digits that is not above another one, is not above the rounded one either. -/
theorem le_value_fix (hprec : 0 < prec) {d : Decimal} (hd : d.negative = false) {n : ℕ} {e : ℤ}
    (hn : n < 10 ^ prec) (h : (⟨false, n, e⟩ : Decimal).value ≤ d.value) :
    (⟨false, n, e⟩ : Decimal).value ≤ (d.fix prec).value := by
  have hfix : (⟨false, n, e⟩ : Decimal).fix prec = ⟨false, n, e⟩ :=
    if_pos ((digits_le_iff hprec).mpr hn)
  rw [← hfix]
  exact fix_mono hprec rfl hd h

/-- **A number of few digits is not changed**, however it is written. -/
theorem fix_exact (hprec : 0 < prec) {d : Decimal} (hd : d.negative = false) {n : ℕ} {e : ℤ}
    (hn : n < 10 ^ prec) (h : d.value = (⟨false, n, e⟩ : Decimal).value) :
    (d.fix prec).value = d.value := by
  have hfix : (⟨false, n, e⟩ : Decimal).fix prec = ⟨false, n, e⟩ :=
    if_pos ((digits_le_iff hprec).mpr hn)
  refine le_antisymm ?_ (h ▸ le_value_fix hprec hd hn h.ge)
  rw [h, ← hfix]
  exact fix_mono hprec hd rfl h.le

end Fix

/-! ### Products -/

/-- The product before it is rounded. -/
def exactMul (a b : Decimal) : Decimal :=
  ⟨xor a.negative b.negative, a.coefficient * b.coefficient, a.exponent + b.exponent⟩

theorem mul_eq_fix (prec : ℕ) (a b : Decimal) : mul prec a b = (exactMul a b).fix prec := rfl

theorem value_exactMul (a b : Decimal) : (exactMul a b).value = a.value * b.value := by
  have hpow : (10 : ℚ) ^ (a.exponent + b.exponent) = 10 ^ a.exponent * 10 ^ b.exponent :=
    zpow_add₀ (by norm_num) _ _
  cases ha : a.negative <;> cases hb : b.negative <;>
    simp only [exactMul, value, ha, hb, hpow, Bool.xor_false, Bool.xor_true, Bool.not_true,
      Bool.not_false, Bool.false_eq_true, if_true, if_false] <;>
    push_cast <;> ring

/-- A product of numbers that are not negative. -/
theorem exactMul_nonneg {a b : Decimal} (ha : a.negative = false) (hb : b.negative = false) :
    (exactMul a b).negative = false := by
  simp [exactMul, ha, hb]

/-! ### Quantizing -/

section Quantize

variable {d q : Decimal} {e : ℤ} {prec : ℕ}

/-- A number moved to another exponent, half up. -/
theorem rescale_value (h : d.negative = false) :
    (d.rescale .halfUp e : ℤ) = ⌊d.value / 10 ^ e + 1 / 2⌋ := by
  have hpos : (10 : ℚ) ^ e ≠ 0 := zpow_ne_zero e (by norm_num)
  by_cases he : e ≤ d.exponent
  · obtain ⟨k, hk, hvalue⟩ := exists_value_eq h he
    have hrescale : d.rescale .halfUp e = d.coefficient * 10 ^ k := by
      rw [rescale, if_pos he, show (d.exponent - e).toNat = k by omega]
    have hhalf : ⌊(1 / 2 : ℚ)⌋ = 0 := by norm_num
    rw [hrescale, hvalue, value_of_nonneg rfl, mul_div_cancel_right₀ _ hpos, Int.floor_natCast_add,
      hhalf, add_zero]
  · obtain ⟨t, ht⟩ : ∃ t : ℕ, e = d.exponent + (t + 1 : ℕ) := ⟨(e - d.exponent).toNat - 1, by omega⟩
    have hrescale : d.rescale .halfUp e = (d.coefficient + 5 * 10 ^ t) / 10 ^ (t + 1) := by
      rw [ht, rescale_drop .halfUp d (Nat.succ_pos t), ten_pow_succ,
        divide_halfUp (by positivity)]
    have hquot : d.value / 10 ^ e + 1 / 2 =
        ((d.coefficient + 5 * 10 ^ t : ℕ) : ℚ) / ((10 ^ (t + 1) : ℕ) : ℚ) := by
      have hten : (10 : ℚ) ^ d.exponent ≠ 0 := zpow_ne_zero _ (by norm_num)
      rw [value_of_nonneg h, ht, zpow_add₀ (by norm_num), zpow_natCast]
      push_cast
      field_simp
      ring
    rw [hrescale, hquot, Rat.floor_natCast_div_natCast]
    push_cast
    rfl

/-- **Quantizing half up**, as the floor of the value. -/
theorem quantize_value (h : d.negative = false) (hq : d.quantize prec .halfUp e = some q) :
    q.value = ⌊d.value / 10 ^ e + 1 / 2⌋ * 10 ^ e := by
  have hnegative : q.negative = false := (quantize_negative hq).trans h
  rw [quantize] at hq
  obtain ⟨-, hsome⟩ := Option.ite_none_right_eq_some.mp hq
  cases hsome
  rw [value_of_nonneg hnegative, ← rescale_value h]
  push_cast
  rfl

/-- A multiple of the unit that is not above the number, is not above the quantized one either. -/
theorem le_value_of_quantize (h : d.negative = false) (hq : d.quantize prec .halfUp e = some q)
    {n : ℕ} (hle : (⟨false, n, e⟩ : Decimal).value ≤ d.value) :
    (⟨false, n, e⟩ : Decimal).value ≤ q.value := by
  have hpos : (0 : ℚ) < 10 ^ e := zpow_pos (by norm_num) e
  rw [value_of_nonneg rfl] at hle ⊢
  rw [quantize_value h hq]
  refine mul_le_mul_of_nonneg_right ?_ hpos.le
  have hfloor : (n : ℤ) ≤ ⌊d.value / 10 ^ e + 1 / 2⌋ := by
    rw [Int.le_floor]
    have hdiv : (n : ℚ) ≤ d.value / 10 ^ e := (le_div_iff₀ hpos).mpr hle
    push_cast
    linarith
  exact_mod_cast hfloor

/-- **Quantizing is monotone.** -/
theorem quantize_mono {a b q' : Decimal} (ha : a.negative = false) (hb : b.negative = false)
    (hle : a.value ≤ b.value) (hq : a.quantize prec .halfUp e = some q)
    (hq' : b.quantize prec .halfUp e = some q') : q.value ≤ q'.value := by
  have hpos : (0 : ℚ) < 10 ^ e := zpow_pos (by norm_num) e
  rw [quantize_value ha hq, quantize_value hb hq']
  gcongr

/-- What can be quantized, can be quantized if it is smaller. -/
theorem exists_quantize_of_le {a b q : Decimal} (ha : a.negative = false)
    (hb : b.negative = false) (hle : a.value ≤ b.value)
    (hq : b.quantize prec .halfUp e = some q) : ∃ q', a.quantize prec .halfUp e = some q' := by
  have hpos : (0 : ℚ) < 10 ^ e := zpow_pos (by norm_num) e
  rw [quantize] at hq
  obtain ⟨hdigits, -⟩ := Option.ite_none_right_eq_some.mp hq
  have hrescale : a.rescale .halfUp e ≤ b.rescale .halfUp e := by
    rw [← Int.ofNat_le, rescale_value ha, rescale_value hb]
    gcongr
  exact ⟨_, if_pos ((digits_mono hrescale).trans hdigits)⟩

end Quantize

/-! ### Comparisons -/

/-- Two numbers are the same if they have one value. -/
theorem same_iff {a b : Decimal} : a.same b = true ↔ a.value = b.value := by
  have hpos : (10 : ℚ) ^ min a.exponent b.exponent ≠ 0 := zpow_ne_zero _ (by norm_num)
  rw [← scaled_mul_pow (min_le_left a.exponent b.exponent),
    ← scaled_mul_pow (min_le_right a.exponent b.exponent), mul_left_inj' hpos, Int.cast_inj]
  simp [same]

theorem same_comm (a b : Decimal) : a.same b = b.same a := by
  rw [Bool.eq_iff_iff, same_iff, same_iff, eq_comm]

theorem lt_iff {a b : Decimal} : a.lt b = true ↔ a.value < b.value := by
  have hpos : (0 : ℚ) < 10 ^ min a.exponent b.exponent := zpow_pos (by norm_num) _
  rw [← scaled_mul_pow (min_le_left a.exponent b.exponent),
    ← scaled_mul_pow (min_le_right a.exponent b.exponent), mul_lt_mul_iff_of_pos_right hpos,
    Int.cast_lt]
  simp [lt]

theorem positive_iff {d : Decimal} : d.positive = true ↔ 0 < d.value := by
  have hpos : (0 : ℚ) < 10 ^ d.exponent := zpow_pos (by norm_num) _
  rw [value, mul_pos_iff_of_pos_right hpos, Int.cast_pos]
  cases hnegative : d.negative <;> simp [positive, hnegative, Nat.pos_iff_ne_zero]

theorem nonneg_of_positive {d : Decimal} (h : d.positive = true) : d.negative = false := by
  simp only [positive, Bool.and_eq_true, Bool.not_eq_true'] at h
  exact h.1

/-! ### Places -/

/-- The value is a multiple of `10^(-s)`. -/
def hasPlaces (s : ℕ) (d : Decimal) : Bool :=
  d.coefficient % 10 ^ (-(s : ℤ) - d.exponent).toNat = 0

/-- **A number has `s` decimal places** if it is a whole number in units of `10^(-s)`. -/
theorem hasPlaces_iff {s : ℕ} {d : Decimal} (h : d.negative = false) :
    d.hasPlaces s = true ↔ ∃ k : ℤ, d.value / 10 ^ (-(s : ℤ)) = k := by
  have hpos : (10 : ℚ) ^ (-(s : ℤ)) ≠ 0 := zpow_ne_zero _ (by norm_num)
  simp only [hasPlaces, decide_eq_true_eq]
  by_cases he : -(s : ℤ) ≤ d.exponent
  · obtain ⟨k, -, hvalue⟩ := exists_value_eq h he
    rw [show (-(s : ℤ) - d.exponent).toNat = 0 by omega, pow_zero, Nat.mod_one, hvalue,
      value_of_nonneg rfl, mul_div_cancel_right₀ _ hpos]
    exact iff_of_true rfl ⟨_, rfl⟩
  · obtain ⟨t, ht⟩ : ∃ t : ℕ, -(s : ℤ) = d.exponent + t := ⟨(-(s : ℤ) - d.exponent).toNat, by omega⟩
    have hten : (10 : ℚ) ^ d.exponent ≠ 0 := zpow_ne_zero _ (by norm_num)
    have hquot : d.value / 10 ^ (-(s : ℤ)) = d.coefficient / (10 ^ t : ℕ) := by
      rw [value_of_nonneg h, ht, zpow_add₀ (by norm_num), zpow_natCast]
      push_cast
      field_simp
    have hpow : ((10 ^ t : ℕ) : ℚ) ≠ 0 := by positivity
    rw [hquot, show (-(s : ℤ) - d.exponent).toNat = t by omega, ← Nat.dvd_iff_mod_eq_zero]
    constructor
    · rintro ⟨k, hk⟩
      rw [hk]
      exact ⟨k, by push_cast; field_simp⟩
    · rintro ⟨k, hk⟩
      rw [div_eq_iff hpow] at hk
      have hint : (d.coefficient : ℤ) = k * (10 ^ t : ℕ) := by exact_mod_cast hk
      exact Int.natCast_dvd_natCast.mp ⟨k, by rw [hint, mul_comm]⟩

/-- Zeros are dropped until there is none at the end, or as many as allowed. -/
theorem stripZeros_cases (fuel c : ℕ) (e : ℤ) :
    ∃ k : ℕ, (stripZeros fuel c e).1 * 10 ^ k = c ∧ (stripZeros fuel c e).2 = e + k ∧
      ((stripZeros fuel c e).1 % 10 ≠ 0 ∨ k = fuel) := by
  induction fuel generalizing c e with
  | zero => exact ⟨0, by simp [stripZeros], by simp [stripZeros], .inr rfl⟩
  | succ fuel ih =>
    rw [stripZeros]
    split
    next hzero =>
      obtain ⟨k, hk, hexp, hlast⟩ := ih (c / 10) (e + 1)
      refine ⟨k + 1, ?_, by rw [hexp]; push_cast; ring, hlast.imp_right (congrArg Nat.succ)⟩
      rw [pow_succ, ← Nat.mul_assoc, hk]
      omega
    next hlast => exact ⟨0, by simp, by simp, .inl hlast⟩

/-- **The exponent without the zeros at the end** tells how many places a number has, if all of them
were dropped, or as many as make the exponent `0`. -/
theorem le_stripZeros_iff {fuel c s : ℕ} {e : ℤ} (hc : c ≠ 0)
    (hfuel : c < 10 ^ fuel ∨ 0 ≤ e + fuel) :
    -(s : ℤ) ≤ (stripZeros fuel c e).2 ↔ 10 ^ (-(s : ℤ) - e).toNat ∣ c := by
  obtain ⟨k, hk, hexp, hlast⟩ := stripZeros_cases fuel c e
  rw [hexp]
  generalize (stripZeros fuel c e).1 = c' at hk hlast
  constructor
  · intro hle
    rw [← hk]
    exact (pow_dvd_pow 10 (by omega)).mul_left c'
  · intro hdvd
    by_contra hlt
    obtain ⟨t, ht⟩ : ∃ t, (-(s : ℤ) - e).toNat = t + 1 + k :=
      ⟨(-(s : ℤ) - e).toNat - 1 - k, by omega⟩
    rw [ht, ← hk, pow_add, Nat.mul_dvd_mul_iff_right (by positivity), pow_succ] at hdvd
    rcases hlast with hlast | rfl
    · exact hlast (Nat.mod_eq_zero_of_dvd ((dvd_mul_left 10 (10 ^ t)).trans hdvd))
    · have hbound : c' * 10 ^ k < 1 * 10 ^ k := by
        rw [hk, Nat.one_mul]
        exact hfuel.resolve_right (by omega)
      have hzero : c' = 0 := Nat.lt_one_iff.mp (Nat.lt_of_mul_lt_mul_right hbound)
      exact hc (by rw [← hk, hzero, Nat.zero_mul])

/-- **The exponent of a normalized number** tells how many places the number has. -/
theorem neg_le_exponent_normalize_iff {prec s : ℕ} {d : Decimal} (hd : d.positive = true)
    (hshort : digits d.coefficient ≤ prec) :
    -(s : ℤ) ≤ (d.normalize prec).exponent ↔ d.hasPlaces s = true := by
  have hpos : 0 < d.coefficient := by
    simpa [positive, nonneg_of_positive hd, Nat.pos_iff_ne_zero] using hd
  have hnormalize : (d.normalize prec).exponent =
      (stripZeros (digits d.coefficient) d.coefficient d.exponent).2 := by
    simp only [normalize, fix, if_pos hshort, if_neg hpos.ne']
  rw [hnormalize, le_stripZeros_iff hpos.ne' (.inl (digits_bounds hpos).2), hasPlaces,
    decide_eq_true_eq, Nat.dvd_iff_mod_eq_zero]

end Decimal

/-! ### Columns -/

namespace Numeric

variable {p s : ℕ} {n : Numeric p s} {d : Decimal}

theorem value_toDecimal (n : Numeric p s) :
    n.toDecimal.value = n.unscaled * (10 : ℚ) ^ (-(s : ℤ)) := by
  have hsign : (if n.toDecimal.negative then -(n.toDecimal.coefficient : ℤ)
      else n.toDecimal.coefficient) = n.unscaled := by
    simp only [toDecimal, decide_eq_true_eq]
    split <;> omega
  rw [Decimal.value, hsign]
  rfl

theorem value_toDecimal_le_iff {m n : Numeric p s} :
    m.toDecimal.value ≤ n.toDecimal.value ↔ m.unscaled ≤ n.unscaled := by
  have hpos : (0 : ℚ) < 10 ^ (-(s : ℤ)) := zpow_pos (by norm_num) _
  rw [value_toDecimal, value_toDecimal, mul_le_mul_iff_of_pos_right hpos, Int.cast_le]

/-- **What a column keeps** of a number: the nearest multiple of its unit. -/
theorem unscaled_ofDecimal (hd : d.negative = false) (h : ofDecimal d = some n) :
    n.unscaled = ⌊d.value / 10 ^ (-(s : ℤ)) + 1 / 2⌋ := by
  rw [ofDecimal, ofMagnitude, hd] at h
  split at h
  · cases h
    exact Decimal.rescale_value hd
  · cases h

/-- **A number is stored exactly** if it has as many places as the column. -/
theorem same_ofDecimal_iff (hd : d.negative = false) (h : (ofDecimal d : Option (Numeric p s)) =
    some n) : n.toDecimal.same d = true ↔ d.hasPlaces s = true := by
  have hpos : (10 : ℚ) ^ (-(s : ℤ)) ≠ 0 := zpow_ne_zero _ (by norm_num)
  rw [Decimal.same_iff, value_toDecimal, unscaled_ofDecimal hd h, Decimal.hasPlaces_iff hd,
    ← eq_div_iff hpos]
  constructor
  · exact fun hvalue => ⟨_, hvalue.symm⟩
  · rintro ⟨k, hk⟩
    have hhalf : ⌊(1 / 2 : ℚ)⌋ = 0 := by norm_num
    rw [hk, Int.floor_intCast_add, hhalf, add_zero]

/-- A number with the value of a column is stored as it. -/
theorem ofDecimal_of_same (hd : d.negative = false) (h : n.toDecimal.same d = true) :
    ofDecimal d = some n := by
  have hpos : (10 : ℚ) ^ (-(s : ℤ)) ≠ 0 := zpow_ne_zero _ (by norm_num)
  have hvalue : d.value / 10 ^ (-(s : ℤ)) = n.unscaled := by
    rw [← Decimal.same_iff.mp h, value_toDecimal, mul_div_cancel_right₀ _ hpos]
  have hrescale : (d.rescale .halfUp (-(s : ℤ)) : ℤ) = n.unscaled := by
    have hhalf : ⌊(1 / 2 : ℚ)⌋ = 0 := by norm_num
    rw [Decimal.rescale_value hd, hvalue, Int.floor_intCast_add, hhalf, add_zero]
  have hfits : d.rescale .halfUp (-(s : ℤ)) < 10 ^ p := by
    have hn := n.fits
    omega
  obtain ⟨u, hu⟩ := n
  simpa [ofDecimal, ofMagnitude, hd, hfits] using hrescale

end Numeric

end DecimalArithmetic
