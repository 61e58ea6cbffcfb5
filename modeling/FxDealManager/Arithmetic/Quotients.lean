import FxDealManager.Arithmetic.Context
import Mathlib.Tactic.Positivity

/-!
# Quotients

A quotient is computed with a digit more than the precision. Where something remains, the last digit
is made one that no rounding takes for a tie, so that the quotient rounded to the precision is
within half a unit of the exact one.

## Main definitions

* `Decimal.negate`, `Decimal.sub`: differences
* `Decimal.quotient`: a quotient before it is rounded to the precision
* `Decimal.div`: the quotient in a context, or the division by zero

## Main results

* `Decimal.div_error`: a quotient is exact up to half a unit of the last digit
* `Decimal.quantize_error`: so is a number moved to another exponent
-/

namespace DecimalArithmetic

/-! ## Rounding to the nearest -/

/-- A quotient is rounded down by at most a half, or up by at most a half. -/
theorem divide_mul_cases (mode : Rounding) (n : ℕ) {k : ℕ} (hk : 0 < k) :
    (mode.divide n k * k + n % k = n ∧ 2 * (n % k) ≤ k) ∨
      (mode.divide n k * k + n % k = n + k ∧ k ≤ 2 * (n % k)) := by
  have hdiv : k * (n / k) + n % k = n := Nat.div_add_mod n k
  have hsucc : (n / k + 1) * k = k * (n / k) + k := by ring
  have hsame : n / k * k = k * (n / k) := by ring
  cases mode <;> simp only [Rounding.divide] <;> split <;> omega

/-- A quotient is rounded by at most a half. -/
theorem divide_error (mode : Rounding) {n k : ℕ} (hk : 0 < k) :
    2 * (mode.divide n k * k) ≤ 2 * n + k ∧ 2 * n ≤ 2 * (mode.divide n k * k) + k := by
  have hmod := Nat.mod_lt n hk
  rcases divide_mul_cases mode n hk with ⟨hdown, hhalf⟩ | ⟨hup, hhalf⟩
  · omega
  · omega

/-- It is rounded by less than a half where nothing is in the middle. -/
theorem divide_error_lt (mode : Rounding) {n k : ℕ} (hk : 0 < k) (htie : 2 * (n % k) ≠ k) :
    2 * (mode.divide n k * k) < 2 * n + k ∧ 2 * n < 2 * (mode.divide n k * k) + k := by
  have hmod := Nat.mod_lt n hk
  rcases divide_mul_cases mode n hk with ⟨hdown, hhalf⟩ | ⟨hup, hhalf⟩
  · omega
  · omega

section Rounded

variable {prec : ℕ}

/-- A coefficient with too many digits has one more than the precision above the unit to which it
is rounded. -/
theorem unit_mul_pow_le {c i : ℕ} (hprec : 0 < prec) (h : digits c = prec + (i + 1)) :
    10 ^ (i + 1) * 10 ^ prec ≤ 10 * c := by
  have hpos : 0 < c := Nat.pos_of_ne_zero fun hc => by simp [hc, digits] at h; omega
  have hpow : 10 ^ (i + 1) * 10 ^ prec = 10 * 10 ^ (digits c - 1) := by
    rw [h, ← pow_succ', ← pow_add]
    congr 1
    omega
  rw [hpow]
  exact Nat.mul_le_mul_left 10 (digits_bounds hpos).1

/-- Half of the unit to which a number is rounded, as a part of the number. -/
theorem half_unit_le {h : ℕ} {x : ℚ} (hunit : ((2 * h : ℕ) : ℚ) * 10 ^ prec ≤ 10 * x) :
    (h : ℚ) ≤ 5 / 10 ^ prec * x := by
  have hpos : (0 : ℚ) < 10 ^ prec := by positivity
  rw [div_mul_eq_mul_div, le_div_iff₀ hpos]
  push_cast at hunit
  linarith

/-- **Rounding a coefficient** changes it by at most half a unit of its last digit. -/
theorem rounded_error (hprec : 0 < prec) (c : ℕ) :
    |(rounded prec c : ℚ) - c| ≤ 5 / 10 ^ prec * c := by
  by_cases hshort : digits c ≤ prec
  · rw [rounded_of_digits hshort, sub_self, abs_zero]
    positivity
  obtain ⟨i, hi⟩ : ∃ i, digits c = prec + (i + 1) := ⟨digits c - prec - 1, by omega⟩
  obtain ⟨hhigh, hlow⟩ := divide_error .halfEven (n := c) (k := 10 ^ (i + 1)) (by positivity)
  have hunit := unit_mul_pow_le hprec hi
  rw [← rounded_of_more hi] at hhigh hlow
  rw [Decimal.ten_pow_succ] at hhigh hlow hunit
  have hhalf : ((5 * 10 ^ i : ℕ) : ℚ) ≤ 5 / 10 ^ prec * c := half_unit_le (by exact_mod_cast hunit)
  refine le_trans (abs_sub_le_iff.mpr ⟨?_, ?_⟩) hhalf
  · have hle : rounded prec c ≤ c + 5 * 10 ^ i := by omega
    rw [sub_le_iff_le_add']
    exact_mod_cast hle
  · have hle : c ≤ rounded prec c + 5 * 10 ^ i := by omega
    rw [sub_le_iff_le_add']
    exact_mod_cast hle

/-- **Rounding a quotient** that was not exact: where the last digit is neither 0 nor 5, the number
next to it may be off by one. -/
theorem rounded_error_of_near (hprec : 0 < prec) {c : ℕ} (hlong : prec < digits c)
    (hlast : c % 5 ≠ 0) {x : ℚ} (hx : |(c : ℚ) - x| ≤ 1) :
    |(rounded prec c : ℚ) - x| ≤ 5 / 10 ^ prec * x := by
  obtain ⟨i, hi⟩ : ∃ i, digits c = prec + (i + 1) := ⟨digits c - prec - 1, by omega⟩
  have hfive : ∀ m, c ≠ 5 * m := fun m hm => hlast (by rw [hm, Nat.mul_mod_right])
  have htie : 2 * (c % (2 * (5 * 10 ^ i))) ≠ 2 * (5 * 10 ^ i) := by
    intro htie
    have hdiv := Nat.div_add_mod c (2 * (5 * 10 ^ i))
    generalize c / (2 * (5 * 10 ^ i)) = q at hdiv
    have hmul : 2 * (5 * 10 ^ i) * q = 5 * (2 * 10 ^ i * q) := by ring
    exact hfive (2 * 10 ^ i * q + 10 ^ i) (by omega)
  obtain ⟨hhigh, hlow⟩ := divide_error_lt .halfEven (n := c) (k := 2 * (5 * 10 ^ i))
    (by positivity) htie
  rw [← Decimal.ten_pow_succ, ← rounded_of_more hi, Decimal.ten_pow_succ] at hhigh hlow
  have hunit : 2 * (5 * 10 ^ i) * 10 ^ prec ≤ 10 * (c - 1) := by
    have hle := unit_mul_pow_le hprec hi
    have hpow : 2 * (5 * 10 ^ i) * 10 ^ prec = 10 * (10 ^ i * 10 ^ prec) := by ring
    have hne := hfive (10 ^ i * 10 ^ (prec - 1) * 2)
    have hten : 10 ^ prec = 10 ^ (prec - 1) * 10 := by rw [← pow_succ, Nat.sub_add_cancel hprec]
    have hsplit : 5 * (10 ^ i * 10 ^ (prec - 1) * 2) = 10 ^ i * 10 ^ prec := by rw [hten]; ring
    rw [Decimal.ten_pow_succ] at hle
    omega
  have hone : 1 ≤ c := Nat.pos_of_ne_zero fun h => hlast (by rw [h])
  obtain ⟨hx₁, hx₂⟩ := abs_sub_le_iff.mp hx
  have hbelow : ((c - 1 : ℕ) : ℚ) ≤ x := by
    push_cast [hone]
    linarith
  have hhalf : ((5 * 10 ^ i : ℕ) : ℚ) ≤ 5 / 10 ^ prec * x := by
    refine half_unit_le (le_trans ?_ (mul_le_mul_of_nonneg_left hbelow (by norm_num)))
    exact_mod_cast hunit
  refine le_trans (abs_sub_le_iff.mpr ⟨?_, ?_⟩) hhalf
  · have hle : ((rounded prec c + 1 : ℕ) : ℚ) ≤ (c + 5 * 10 ^ i : ℕ) := by
      exact_mod_cast (by omega : rounded prec c + 1 ≤ c + 5 * 10 ^ i)
    push_cast at hle ⊢
    linarith
  · have hle : ((c + 1 : ℕ) : ℚ) ≤ (rounded prec c + 5 * 10 ^ i : ℕ) := by
      exact_mod_cast (by omega : c + 1 ≤ rounded prec c + 5 * 10 ^ i)
    push_cast at hle ⊢
    linarith

end Rounded

/-! ## Signs -/

/-- The sign of a number as a factor. -/
def signum (negative : Bool) : ℚ := if negative then -1 else 1

theorem signum_xor (a b : Bool) : signum (xor a b) = signum a * signum b := by
  cases a <;> cases b <;> norm_num [signum]

theorem signum_mul_self (a : Bool) : signum a * signum a = 1 := by
  cases a <;> norm_num [signum]

@[simp] theorem abs_signum (a : Bool) : |signum a| = 1 := by
  cases a <;> norm_num [signum]

namespace Decimal

theorem value_eq_signum (d : Decimal) :
    d.value = signum d.negative * (d.coefficient * (10 : ℚ) ^ d.exponent) := by
  obtain ⟨negative, c, e⟩ := d
  cases negative <;> simp [value, signum]

/-- Numbers with one sign and one exponent are as far apart as their coefficients. -/
theorem abs_signum_sub (negative : Bool) (x y : ℚ) (e : ℤ) :
    |signum negative * (x * (10 : ℚ) ^ e) - signum negative * (y * (10 : ℚ) ^ e)| =
      |x - y| * (10 : ℚ) ^ e := by
  have hpos : (0 : ℚ) < 10 ^ e := zpow_pos (by norm_num) e
  rw [← mul_sub, ← sub_mul, abs_mul, abs_mul, abs_signum, one_mul, abs_of_pos hpos]

/-! ## Differences -/

/-- The number with the other sign. -/
def negate (d : Decimal) : Decimal := { d with negative := !d.negative }

/-- The difference in a context of precision `prec`. -/
def sub (prec : ℕ) (a b : Decimal) : Decimal := add prec a b.negate

theorem scaled_negate (d : Decimal) (e : ℤ) : d.negate.scaled e = -d.scaled e := by
  obtain ⟨negative, c, exponent⟩ := d
  cases negative <;> simp [negate, scaled]

/-! ## Quotients -/

/-- The quotient before it is rounded to the precision. An exact one gets the difference of the
exponents, as far as zeros at its end can be dropped for it. -/
def quotient (prec : ℕ) (a b : Decimal) : Decimal :=
  let negative := xor a.negative b.negative
  if a.coefficient = 0 then ⟨negative, 0, a.exponent - b.exponent⟩
  else
    let shift : ℤ := digits b.coefficient - digits a.coefficient + prec + 1
    let e := a.exponent - b.exponent - shift
    let n := a.coefficient * 10 ^ shift.toNat
    let k := b.coefficient * 10 ^ (-shift).toNat
    if n % k ≠ 0 then ⟨negative, if n / k % 5 = 0 then n / k + 1 else n / k, e⟩
    else
      let (c, e) := stripZeros shift.toNat (n / k) e
      ⟨negative, c, e⟩

/-- The quotient in a context of precision `prec`; `none` is the division by zero. -/
def div (prec : ℕ) (a b : Decimal) : Option Decimal :=
  if b.coefficient = 0 then none else some ((quotient prec a b).fix prec)

section Div

variable {prec : ℕ} {a b : Decimal}

theorem pow_toNat_div_pow_toNat (s : ℤ) : (10 : ℚ) ^ s.toNat / 10 ^ (-s).toNat = 10 ^ s := by
  rcases le_total 0 s with hs | hs
  · rw [show (-s).toNat = 0 by omega, pow_zero, div_one, ← zpow_natCast, Int.toNat_of_nonneg hs]
  · rw [show s.toNat = 0 by omega, pow_zero, one_div, ← zpow_natCast,
      Int.toNat_of_nonneg (by omega), zpow_neg, inv_inv]

/-- The exact quotient, in units of the one that is computed. -/
theorem value_div_value (a b : Decimal) (s : ℤ) :
    a.value / b.value = signum (xor a.negative b.negative) *
      (((a.coefficient * 10 ^ s.toNat : ℕ) : ℚ) / (b.coefficient * 10 ^ (-s).toNat : ℕ) *
        (10 : ℚ) ^ (a.exponent - b.exponent - s)) := by
  have hten : (10 : ℚ) ≠ 0 := by norm_num
  have hsign : signum a.negative / signum b.negative =
      signum a.negative * signum b.negative := by
    rw [div_eq_iff (by cases b.negative <;> norm_num [signum]), mul_assoc, signum_mul_self, mul_one]
  rw [value_eq_signum, value_eq_signum, signum_xor, mul_div_mul_comm, hsign]
  push_cast
  rw [mul_div_mul_comm, mul_div_mul_comm, pow_toNat_div_pow_toNat, mul_assoc (_ / _ : ℚ),
    ← zpow_add₀ hten, ← zpow_sub₀ hten]
  congr 3
  ring

/-- The quotient has a digit more than the precision at least. -/
theorem prec_lt_digits (hprec : 0 < prec) (ha : 0 < a.coefficient) (hb : 0 < b.coefficient)
    {s : ℤ} (hs : s = digits b.coefficient - digits a.coefficient + prec + 1) :
    prec < digits (a.coefficient * 10 ^ s.toNat / (b.coefficient * 10 ^ (-s).toNat)) := by
  rw [← not_le, digits_le_iff hprec, not_lt, Nat.le_div_iff_mul_le (by positivity)]
  have hpow : prec + (digits b.coefficient + (-s).toNat) = digits a.coefficient - 1 + s.toNat := by
    have hone : 1 ≤ digits a.coefficient := Nat.succ_pos _
    omega
  calc 10 ^ prec * (b.coefficient * 10 ^ (-s).toNat)
      ≤ 10 ^ prec * (10 ^ digits b.coefficient * 10 ^ (-s).toNat) :=
        Nat.mul_le_mul_left _ (Nat.mul_le_mul_right _ (digits_bounds hb).2.le)
    _ = 10 ^ (digits a.coefficient - 1) * 10 ^ s.toNat := by
        rw [← pow_add, ← pow_add, ← pow_add, hpow]
    _ ≤ a.coefficient * 10 ^ s.toNat := Nat.mul_le_mul_right _ (digits_bounds ha).1

/-- What is rounded is the quotient, or a number next to it with another last digit than 0 or 5. -/
theorem value_fix_quotient (hprec : 0 < prec) (ha : 0 < a.coefficient) (hb : 0 < b.coefficient)
    {s : ℤ} (hs : s = digits b.coefficient - digits a.coefficient + prec + 1) :
    ∃ r : ℕ, ((quotient prec a b).fix prec).value = signum (xor a.negative b.negative) *
        (r * (10 : ℚ) ^ (a.exponent - b.exponent - s)) ∧
      |(r : ℚ) -
          ((a.coefficient * 10 ^ s.toNat : ℕ) : ℚ) / (b.coefficient * 10 ^ (-s).toNat : ℕ)| ≤
        5 / 10 ^ prec *
          (((a.coefficient * 10 ^ s.toNat : ℕ) : ℚ) / (b.coefficient * 10 ^ (-s).toNat : ℕ)) := by
  have hlong := prec_lt_digits hprec ha hb hs
  have hk : 0 < b.coefficient * 10 ^ (-s).toNat := by positivity
  simp only [quotient, if_neg ha.ne', ← hs, value_fix hprec]
  generalize a.coefficient * 10 ^ s.toNat = n at hlong
  generalize b.coefficient * 10 ^ (-s).toNat = k at hlong hk
  generalize a.exponent - b.exponent - s = e
  have hkq : (0 : ℚ) < k := by exact_mod_cast hk
  have hdiv : (n : ℚ) = k * (n / k : ℕ) + (n % k : ℕ) := by
    exact_mod_cast (Nat.div_add_mod n k).symm
  split
  next hrest =>
    dsimp only
    have hnear : ∀ c, c = (if n / k % 5 = 0 then n / k + 1 else n / k) →
        n / k ≤ c ∧ c ≤ n / k + 1 ∧ c % 5 ≠ 0 := by
      intro c hc
      split at hc <;> omega
    obtain ⟨hlow, hhigh, hlast⟩ := hnear _ rfl
    generalize (if n / k % 5 = 0 then n / k + 1 else n / k) = c at hlow hhigh hlast
    refine ⟨_, value_eq_signum _,
      rounded_error_of_near hprec (hlong.trans_le (digits_mono hlow)) hlast ?_⟩
    have hfloor : ((n / k : ℕ) : ℚ) ≤ n / k := by
      rw [le_div_iff₀ hkq, hdiv, mul_comm]
      exact le_add_of_nonneg_right (Nat.cast_nonneg _)
    have hceil : (n : ℚ) / k ≤ (n / k : ℕ) + 1 := by
      rw [div_le_iff₀ hkq, hdiv]
      have hmod : ((n % k : ℕ) : ℚ) ≤ k := by exact_mod_cast (Nat.mod_lt n hk).le
      linarith
    have hlowq : ((n / k : ℕ) : ℚ) ≤ c := by exact_mod_cast hlow
    have hhighq : (c : ℚ) ≤ (n / k : ℕ) + 1 := by exact_mod_cast hhigh
    exact abs_sub_le_iff.mpr ⟨by linarith, by linarith⟩
  next hrest =>
    obtain ⟨j, hj, hexp, -⟩ := stripZeros_cases s.toNat (n / k) e
    refine ⟨rounded prec (n / k), ?_, ?_⟩
    · rw [hexp, ← value_mul_pow, ← rounded_mul_pow, hj]
      exact value_eq_signum _
    · have hexact : (n : ℚ) / k = (n / k : ℕ) := by
        rw [div_eq_iff hkq.ne', hdiv, not_not.mp hrest]
        push_cast
        ring
      rw [hexact]
      exact rounded_error hprec _

/-- **A quotient** is exact up to half a unit of its last digit. -/
theorem div_error (hprec : 0 < prec) (hb : b.coefficient ≠ 0) :
    ∃ q, div prec a b = some q ∧
      |q.value - a.value / b.value| ≤ 5 / 10 ^ prec * |a.value / b.value| := by
  refine ⟨_, if_neg hb, ?_⟩
  rcases Nat.eq_zero_or_pos a.coefficient with ha | ha
  · have hzero : a.value = 0 := by rw [value_eq_signum, ha, Nat.cast_zero, zero_mul, mul_zero]
    have hround : rounded prec 0 = 0 := by
      rw [rounded_of_digits ((digits_le_iff hprec).mpr (by positivity))]
    rw [value_fix hprec, quotient, if_pos ha, hzero, hround, value_eq_signum]
    simp
  · obtain ⟨r, hvalue, herror⟩ := value_fix_quotient hprec ha (Nat.pos_of_ne_zero hb) rfl
    have hpos : (0 : ℚ) ≤ 10 ^ (a.exponent - b.exponent -
        (digits b.coefficient - digits a.coefficient + prec + 1 : ℤ)) :=
      zpow_nonneg (by norm_num) _
    rw [hvalue, value_div_value a b, abs_signum_sub, abs_mul, abs_signum, one_mul, abs_mul,
      abs_of_nonneg hpos, abs_of_nonneg (by positivity : (0 : ℚ) ≤ (_ : ℕ) / (_ : ℕ)), ← mul_assoc]
    exact mul_le_mul_of_nonneg_right herror hpos

/-- A number rounded to a precision has no more digits. -/
theorem digits_fix_le (hprec : 0 < prec) (d : Decimal) :
    digits (d.fix prec).coefficient ≤ prec := by
  by_cases hshort : digits d.coefficient ≤ prec
  · rwa [fix, if_pos hshort]
  · rw [digits_le_iff hprec, not_lt] at hshort
    obtain ⟨j, c, hfix, -, -, hc, -⟩ := fix_spec hprec hshort
    rw [hfix]
    exact (digits_le_iff hprec).mpr hc

theorem digits_div_le (hprec : 0 < prec) {q : Decimal} (h : div prec a b = some q) :
    digits q.coefficient ≤ prec := by
  rw [div] at h
  obtain ⟨-, hq⟩ := Option.ite_none_left_eq_some.mp h
  cases hq
  exact digits_fix_le hprec _

/-- **A power of ten** as a factor drops no digit. -/
theorem value_mul_ten_pow (hprec : 0 < prec) (ha : digits a.coefficient ≤ prec) (k : ℕ) :
    (mul prec a ⟨false, 10 ^ k, 0⟩).value = a.value * 10 ^ k := by
  have hvalue : (⟨a.negative, a.coefficient * 10 ^ k, a.exponent⟩ : Decimal).value =
      a.value * 10 ^ k := by
    rw [value_eq_signum, value_eq_signum]
    push_cast
    ring
  rw [mul_eq_fix, value_fix hprec]
  simp only [exactMul, rounded_mul_pow, rounded_of_digits ha, Bool.xor_false, add_zero]
  exact hvalue

end Div

/-! ## Quantizing -/

section Quantize

variable {prec : ℕ} {mode : Rounding} {d q : Decimal} {e : ℤ}

/-- A number moved to another exponent changes by at most half a unit. -/
theorem rescale_error (mode : Rounding) (d : Decimal) (e : ℤ) :
    |(d.rescale mode e : ℚ) * 10 ^ e - d.coefficient * 10 ^ d.exponent| ≤ 10 ^ e / 2 := by
  have hpos : (0 : ℚ) < 10 ^ e := zpow_pos (by norm_num) e
  have hten : (10 : ℚ) ≠ 0 := by norm_num
  by_cases he : e ≤ d.exponent
  · obtain ⟨k, hk⟩ : ∃ k : ℕ, d.exponent = e + k := ⟨(d.exponent - e).toNat, by omega⟩
    rw [rescale, if_pos he, hk, show (e + (k : ℤ) - e).toNat = k by omega, zpow_add₀ hten,
      zpow_natCast]
    push_cast
    rw [mul_assoc, mul_comm ((10 : ℚ) ^ k), sub_self, abs_zero]
    exact (half_pos hpos).le
  · obtain ⟨k, hk⟩ : ∃ k : ℕ, e = d.exponent + (k + 1 : ℕ) := ⟨(e - d.exponent).toNat - 1, by omega⟩
    obtain ⟨hhigh, hlow⟩ := divide_error mode (n := d.coefficient) (k := 10 ^ (k + 1))
      (by positivity)
    have hexp : (0 : ℚ) < 10 ^ d.exponent := zpow_pos (by norm_num) _
    have hunit : |(mode.divide d.coefficient (10 ^ (k + 1)) * 10 ^ (k + 1) : ℕ) -
        (d.coefficient : ℚ)| ≤ (10 ^ (k + 1) : ℕ) / 2 := by
      rw [abs_sub_le_iff]
      constructor
      · have hle : ((2 * (mode.divide d.coefficient (10 ^ (k + 1)) * 10 ^ (k + 1)) : ℕ) : ℚ) ≤
            (2 * d.coefficient + 10 ^ (k + 1) : ℕ) := by exact_mod_cast hhigh
        push_cast at hle ⊢
        linarith
      · have hle : ((2 * d.coefficient : ℕ) : ℚ) ≤
            (2 * (mode.divide d.coefficient (10 ^ (k + 1)) * 10 ^ (k + 1)) + 10 ^ (k + 1) : ℕ) := by
          exact_mod_cast hlow
        push_cast at hle ⊢
        linarith
    rw [hk, rescale_drop mode d (Nat.succ_pos k), zpow_add₀ hten, zpow_natCast]
    have hscaled := mul_le_mul_of_nonneg_right hunit hexp.le
    rw [← abs_of_pos hexp, ← abs_mul, abs_of_pos hexp, sub_mul] at hscaled
    push_cast at hscaled
    calc |(mode.divide d.coefficient (10 ^ (k + 1)) : ℚ) * (10 ^ d.exponent * 10 ^ (k + 1)) -
          d.coefficient * 10 ^ d.exponent| =
        |(mode.divide d.coefficient (10 ^ (k + 1)) : ℚ) * 10 ^ (k + 1) * 10 ^ d.exponent -
          d.coefficient * 10 ^ d.exponent| := by ring_nf
      _ ≤ 10 ^ (k + 1) / 2 * 10 ^ d.exponent := hscaled
      _ = 10 ^ d.exponent * 10 ^ (k + 1) / 2 := by ring

/-- **A quantized number** is within half a unit of the exact one. -/
theorem quantize_error (h : d.quantize prec mode e = some q) :
    |q.value - d.value| ≤ 10 ^ e / 2 := by
  rw [quantize] at h
  obtain ⟨-, hq⟩ := Option.ite_none_right_eq_some.mp h
  cases hq
  rw [value_eq_signum, value_eq_signum d, ← mul_sub, abs_mul, abs_signum, one_mul]
  exact rescale_error mode d e

/-- A number that is small enough can be quantized. -/
theorem exists_quantize (mode : Rounding) (hprec : 0 < prec)
    (h : |d.value| < (10 ^ prec - 1) * 10 ^ e) : ∃ q, d.quantize prec mode e = some q := by
  have hpos : (0 : ℚ) < 10 ^ e := zpow_pos (by norm_num) e
  obtain ⟨herror, -⟩ := abs_sub_le_iff.mp (rescale_error mode d e)
  rw [abs_value] at h
  have hlt : (d.rescale mode e : ℚ) * 10 ^ e < 10 ^ prec * 10 ^ e := by linarith
  have hfits : d.rescale mode e < 10 ^ prec := by
    exact_mod_cast lt_of_mul_lt_mul_right hlt hpos.le
  exact ⟨_, if_pos ((digits_le_iff hprec).mpr hfits)⟩

end Quantize

end Decimal

namespace Numeric

variable {p s prec : ℕ}

theorem scaled_toDecimal (n : Numeric p s) : n.toDecimal.scaled (-(s : ℤ)) = n.unscaled := by
  simp only [Decimal.scaled, toDecimal, decide_eq_true_eq, sub_self, Int.toNat_zero, pow_zero,
    mul_one]
  split <;> omega

/-- **The difference of two numbers of one column** is exact. -/
theorem value_sub (hprec : 2 * 10 ^ p ≤ 10 ^ prec) (hpos : 0 < prec) (m n : Numeric p s) :
    (Decimal.sub prec m.toDecimal n.toDecimal).value = m.toDecimal.value - n.toDecimal.value := by
  have hm := scaled_toDecimal m
  have hn : n.toDecimal.negate.scaled (-(s : ℤ)) = -n.unscaled := by
    rw [Decimal.scaled_negate, scaled_toDecimal]
  have hfits := m.fits
  have hfits' := n.fits
  obtain ⟨hexp, hscaled⟩ := Decimal.add_exact (e := -(s : ℤ)) (a := m.toDecimal)
    (b := n.toDecimal.negate) hpos le_rfl le_rfl (by rw [hm, hn]; omega)
  rw [Decimal.sub, ← Decimal.scaled_mul_pow hexp, hscaled, hm, hn, value_toDecimal, value_toDecimal]
  push_cast
  ring

end Numeric

end DecimalArithmetic
