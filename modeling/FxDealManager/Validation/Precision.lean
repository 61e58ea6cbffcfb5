import FxDealManager.Arithmetic.Context
import FxDealManager.Services.Checks

/-!
# The precision rule

The rule normalizes a number in the default context and looks at the exponent. For a number of the
context the test is exact, in whatever way the number is written. A number below the smallest unit
of the context is rounded first, so that it may pass as zero, and one above the largest exponent
raises an overflow.

## Main definitions

* `decimalsValidIn`: the test in a context, with its overflow

## Main results

* `decimalsValidIn_amount`: on the amounts of deals the bounds of the exponents play no role
* `decimalsValidIn_iff`: what the test says about a number of at most 28 significant digits
* `tiny_passes`: a number that is not zero passes as zero
-/

namespace FxDealManager

open DecimalArithmetic

/-- `_decimals_valid`; `none` is the overflow of the context. -/
def decimalsValidIn (ctx : Context) (value : Decimal) (maxPlaces : ℤ) : Option Bool :=
  (ctx.normalize value).map fun normalized =>
    let exponent := normalized.exponent
    if exponent < 0 then (exponent.natAbs : ℤ) ≤ maxPlaces else true

/-- **On the amounts of deals** the test is the one without bounds of the exponents. -/
theorem decimalsValidIn_amount (n : Numeric 18 2) (maxPlaces : ℤ) :
    decimalsValidIn .default n.toDecimal maxPlaces =
      some (decimalsValid n.toDecimal maxPlaces) := by
  have hdigits : digits n.toDecimal.coefficient ≤ 18 := (digits_le_iff (by decide)).mpr n.fits
  have hexponent : n.toDecimal.exponent = -2 := rfl
  rw [decimalsValidIn, Context.normalize_eq]
  · rfl
  · exact hdigits.trans (by decide)
  · rw [hexponent]
    decide
  · rw [hexponent]
    have hmax : Context.default.emax = 999999 := rfl
    omega

section Exact

variable {ctx : Context} {d : Decimal}

theorem decimalsValidIn_of_finalize {r : Decimal} (hr : ctx.finalize d = some r) (p : ℕ) :
    ∃ b, decimalsValidIn ctx d p = some b ∧
      (b = true ↔ ∃ k : ℤ, r.value * (10 : ℚ) ^ p = k) := by
  obtain ⟨q, hq⟩ : ∃ q, ctx.normalize d = some q := ⟨_, by rw [Context.normalize, hr]; rfl⟩
  have hpos : (10 : ℚ) ^ p ≠ 0 := by positivity
  have hplaces : ∀ k : ℤ, r.value * (10 : ℚ) ^ p = k ↔ r.value = k * (10 : ℚ) ^ (-(p : ℤ)) := by
    intro k
    rw [zpow_neg, zpow_natCast, ← div_eq_mul_inv, eq_div_iff hpos]
  refine ⟨_, by rw [decimalsValidIn, hq]; rfl, ?_⟩
  rw [exists_congr hplaces, ← Context.neg_le_exponent_normalize_iff hr hq]
  dsimp only
  split
  · rw [decide_eq_true_iff]
    omega
  · exact iff_of_true rfl (by omega)

end Exact

/-- **The test is exact** for a number of at most 28 significant digits that is a multiple of the
smallest unit of the context. Any other one is rounded to such a multiple first, and a number above
the largest exponent is an overflow. -/
theorem decimalsValidIn_iff {d : Decimal} (hd : d.Short Context.default.prec) (p : ℕ) :
    ((10 : ℚ) ^ (Context.default.emax + 1) ≤ |d.value| → decimalsValidIn .default d p = none) ∧
      (|d.value| < (10 : ℚ) ^ (Context.default.emax + 1) →
        ∃ b, decimalsValidIn .default d p = some b ∧
          ((∃ m : ℤ, d.value = m * (10 : ℚ) ^ Context.default.etiny) →
            (b = true ↔ ∃ k : ℤ, d.value * (10 : ℚ) ^ p = k)) ∧
          (b = true ↔ ∃ k : ℤ, (d.toUnit Context.default.etiny).value * (10 : ℚ) ^ p = k)) := by
  constructor
  · intro hlarge
    rw [decimalsValidIn, Context.normalize, Context.finalize_overflow hlarge]
    rfl
  · intro hsmall
    obtain ⟨r, hr, hvalue⟩ := Context.finalize_short hd hsmall
    obtain ⟨b, hb, hiff⟩ := decimalsValidIn_of_finalize hr p
    rw [hvalue] at hiff
    refine ⟨b, hb, fun hmultiple => ?_, hiff⟩
    rw [hiff, Decimal.value_toUnit_of_multiple hmultiple]

/-- The number `0.2500`, written with zeros at its end, has two places. -/
theorem quarter_passes : decimalsValidIn .default ⟨false, 2500, -4⟩ 2 = some true := by
  have hsmall : |(⟨false, 2500, -4⟩ : Decimal).value| <
      (10 : ℚ) ^ (Context.default.emax + 1) := by
    rw [Decimal.abs_value, ← not_le, Decimal.pow_le_mul_pow_iff (by decide)]
    decide +kernel
  obtain ⟨b, hb, hexact, -⟩ := (decimalsValidIn_iff (d := ⟨false, 2500, -4⟩)
    ⟨2500, 0, rfl, by decide⟩ 2).2 hsmall
  have hmultiple := (Decimal.multiple_iff ⟨false, 2500, -4⟩ Context.default.etiny).mpr
    (by rw [show (Context.default.etiny - (-4 : ℤ)).toNat = 0 from rfl]; exact one_dvd _)
  have htrue : b = true :=
    (hexact hmultiple).mpr ⟨25, by rw [Decimal.value_of_nonneg rfl]; norm_num⟩
  exact htrue ▸ hb

/-- The number `1E-1000027` is below the smallest unit and passes as zero, though it has more places
than the two allowed. -/
theorem tiny_passes :
    ¬ ∀ (d : Decimal) (p : ℕ), d.Short Context.default.prec →
      (decimalsValidIn .default d p = some true ↔ ∃ k : ℤ, d.value * (10 : ℚ) ^ p = k) := by
  intro h
  have htrue : decimalsValidIn .default ⟨false, 1, -1000027⟩ 2 = some true := by decide +kernel
  obtain ⟨k, hk⟩ := (h ⟨false, 1, -1000027⟩ 2 ⟨1, 0, rfl, by decide⟩).mp htrue
  have hmultiple : ∃ k : ℤ, (⟨false, 1, -1000027⟩ : Decimal).value = k * (10 : ℚ) ^ (-2 : ℤ) :=
    ⟨k, by rw [← hk, mul_assoc]; norm_num⟩
  have hdvd := (Decimal.multiple_iff _ _).mp hmultiple
  dsimp only at hdvd
  generalize hu : ((-2 : ℤ) - (-1000027)).toNat = u at hdvd
  obtain ⟨t, rfl⟩ : ∃ t, u = t + 1 := ⟨u - 1, by omega⟩
  rw [pow_succ] at hdvd
  exact absurd (Nat.dvd_one.mp ((dvd_mul_left 10 (10 ^ t)).trans hdvd)) (by decide)

end FxDealManager
