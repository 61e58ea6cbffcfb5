import FxDealManager.Arithmetic.Products
import Mathlib.Algebra.Group.Subgroup.ZPowers.Basic
import Mathlib.Algebra.Group.Submonoid.BigOperators
import Mathlib.Algebra.Order.BigOperators.Group.List

/-!
# Contexts

A context bounds the digits of a coefficient and the exponents. A result with too many digits, or
below the smallest exponent, is rounded half to even; one above the largest exponent is an overflow.
The numbers of the context, those that need no rounding, are not changed, however they are written.

## Main definitions

* `Context`: the precision and the bounds of the exponents
* `Context.finalize`: a result rounded to a context, or the overflow
* `Context.Number`: the rational numbers that a context has
* `Context.add`, `Context.normalize`: operations in a context
* `Decimal.toUnit`: a number rounded to a multiple of a unit
* `Context.sum`, `Context.Sums`: many numbers added up, and sums that stay in the context

## Main results

* `Context.finalize_short`: what becomes of a number of few significant digits
* `Context.finalize_number`: a number of the context is not changed
* `Context.neg_le_exponent_normalize_iff`: the places of a number, by its normalized exponent
* `Context.exists_sum`, `Context.value_foldl_add`: sums that stay in the context are exact
* `Context.number_sum`: multiples of a power of ten that are small together stay in the context
-/

namespace DecimalArithmetic

/-- The precision of a context, and the bounds of the exponents of numbers that are written with one
digit before the point. -/
structure Context where
  prec : ℕ
  emin : ℤ
  emax : ℤ
  prec_pos : 0 < prec
  emin_le : emin ≤ 0
  emax_nonneg : 0 ≤ emax

/-! ## Significant digits -/

namespace Decimal

/-- Without the zeros at its end, the coefficient has at most `prec` digits. -/
def Short (prec : ℕ) (d : Decimal) : Prop := ∃ n j, d.coefficient = n * 10 ^ j ∧ n < 10 ^ prec

/-- The number rounded half to even to a multiple of `10^e`. -/
def toUnit (e : ℤ) (d : Decimal) : Decimal := ⟨d.negative, d.rescale .halfEven e, e⟩

/-- The value with the other sign. -/
theorem value_negative (c : ℕ) (e : ℤ) :
    (⟨true, c, e⟩ : Decimal).value = -(⟨false, c, e⟩ : Decimal).value := by
  simp [value]

theorem abs_value (d : Decimal) : |d.value| = d.coefficient * (10 : ℚ) ^ d.exponent := by
  have hnonneg : 0 ≤ (d.coefficient : ℚ) * (10 : ℚ) ^ d.exponent :=
    mul_nonneg (Nat.cast_nonneg _) (zpow_nonneg (by norm_num) _)
  obtain ⟨negative, c, e⟩ := d
  cases negative
  · rw [value_of_nonneg rfl, abs_of_nonneg hnonneg]
  · rw [value_negative, abs_neg, value_of_nonneg rfl, abs_of_nonneg hnonneg]

/-- Digits that are zeros can be dropped. -/
theorem value_toUnit_of_mul {d : Decimal} {n j : ℕ} {e : ℤ} (hc : d.coefficient = n * 10 ^ j)
    (he : e ≤ d.exponent + j) : (d.toUnit e).value = d.value := by
  obtain ⟨negative, c, exponent⟩ := d
  dsimp only at hc he
  subst hc
  rw [toUnit]
  by_cases hle : e ≤ exponent
  · obtain ⟨k, hk⟩ : ∃ k : ℕ, exponent = e + k := ⟨(exponent - e).toNat, by omega⟩
    subst hk
    rw [rescale, if_pos hle, show (e + (k : ℤ) - e).toNat = k by omega, value_mul_pow]
  · obtain ⟨k, hk⟩ : ∃ k : ℕ, e = exponent + k := ⟨(e - exponent).toNat, by omega⟩
    subst hk
    have hsplit : n * 10 ^ j = n * 10 ^ (j - k) * 10 ^ k := by
      rw [Nat.mul_assoc, ← pow_add, Nat.sub_add_cancel (by omega)]
    rw [rescale, if_neg hle, show (exponent + (k : ℤ) - exponent).toNat = k by omega]
    dsimp only
    rw [hsplit, Rounding.divide_mul_self _ (by positivity), value_mul_pow, ← value_mul_pow,
      ← value_mul_pow]

theorem natAbs_scaled (d : Decimal) (e : ℤ) :
    (d.scaled e).natAbs = d.coefficient * 10 ^ (d.exponent - e).toNat := by
  simp only [scaled]
  split <;> simp [Int.natAbs_mul, Int.natAbs_pow]

/-- The coefficient of a number that is written at a higher exponent. -/
theorem coefficient_of_value {d : Decimal} {n u : ℤ} (hu : d.exponent ≤ u)
    (h : d.value = n * (10 : ℚ) ^ u) :
    d.coefficient = n.natAbs * 10 ^ (u - d.exponent).toNat := by
  obtain ⟨t, rfl⟩ : ∃ t : ℕ, u = d.exponent + t := ⟨(u - d.exponent).toNat, by omega⟩
  have hpos : (10 : ℚ) ^ d.exponent ≠ 0 := zpow_ne_zero _ (by norm_num)
  rw [← scaled_mul_pow le_rfl, zpow_add₀ (by norm_num), zpow_natCast, mul_comm ((10 : ℚ) ^ _),
    ← mul_assoc, mul_left_inj' hpos] at h
  have hscaled : d.scaled d.exponent = n * 10 ^ t := by exact_mod_cast h
  have hnat := d.natAbs_scaled d.exponent
  rw [hscaled, Int.natAbs_mul, Int.natAbs_pow] at hnat
  rw [show (d.exponent + (t : ℤ) - d.exponent).toNat = t by omega]
  simpa using hnat.symm

/-- **Multiples of a unit**, by the zeros at the end of the coefficient. -/
theorem multiple_iff (d : Decimal) (u : ℤ) :
    (∃ k : ℤ, d.value = k * (10 : ℚ) ^ u) ↔ 10 ^ (u - d.exponent).toNat ∣ d.coefficient := by
  constructor
  · rintro ⟨k, hk⟩
    rcases le_total u d.exponent with hu | hu
    · rw [show (u - d.exponent).toNat = 0 by omega, pow_zero]
      exact one_dvd _
    · rw [coefficient_of_value hu hk]
      exact dvd_mul_left _ _
  · rintro ⟨n, hn⟩
    refine ⟨(d.toUnit u).scaled u, ?_⟩
    rw [scaled_mul_pow (d := d.toUnit u) (e := u) le_rfl]
    exact (value_toUnit_of_mul (n := n) (by rw [hn, Nat.mul_comm]) (by omega)).symm

/-- A multiple of the unit is not rounded. -/
theorem value_toUnit_of_multiple {d : Decimal} {u : ℤ} (h : ∃ k : ℤ, d.value = k * (10 : ℚ) ^ u) :
    (d.toUnit u).value = d.value := by
  obtain ⟨n, hn⟩ := (multiple_iff d u).mp h
  exact value_toUnit_of_mul (n := n) (by rw [hn, Nat.mul_comm]) (by omega)

/-- Dropping digits of a number of few significant ones makes no carry. -/
theorem digits_rescale_le {prec : ℕ} {d : Decimal} {n j : ℕ} {e : ℤ} (hprec : 0 < prec)
    (hc : 0 < d.coefficient) (hn : d.coefficient = n * 10 ^ j) (hshort : n < 10 ^ prec)
    (hexp : d.exponent < e) (he : digits d.coefficient + d.exponent - prec ≤ e) :
    digits (d.rescale .halfEven e) ≤ prec := by
  obtain ⟨k, rfl⟩ : ∃ k : ℕ, e = d.exponent + k := ⟨(e - d.exponent).toNat, by omega⟩
  have hpos : 0 < n := Nat.pos_of_ne_zero fun h => by simp [hn, h] at hc
  rw [rescale_drop .halfEven d (by omega)]
  by_cases hk : k ≤ j
  · have hsplit : d.coefficient = n * 10 ^ (j - k) * 10 ^ k := by
      rw [Nat.mul_assoc, ← pow_add, Nat.sub_add_cancel hk, hn]
    have hdigits : digits d.coefficient = digits (n * 10 ^ (j - k)) + k := by
      rw [hsplit, digits_mul_pow (by positivity)]
    rw [hsplit, Rounding.divide_mul_self _ (by positivity)]
    omega
  · obtain ⟨t, rfl⟩ : ∃ t, k = t + 1 + j := ⟨k - j - 1, by omega⟩
    have hquot : d.coefficient / 10 ^ (t + 1 + j) = n / 10 ^ (t + 1) := by
      rw [hn, pow_add 10 (t + 1), Nat.mul_div_mul_right _ _ (by positivity)]
    have hlt := div_pow_succ_lt hprec hshort (Nat.succ_pos t)
    rw [digits_le_iff hprec]
    refine (divide_bounds _ _ _).2.trans_lt ?_
    rwa [hquot]

/-- A number of few significant digits is not changed by a context without bounds. -/
theorem value_fix_of_short {prec : ℕ} (hprec : 0 < prec) {d : Decimal} (hd : d.Short prec) :
    (d.fix prec).value = d.value := by
  obtain ⟨n, j, hn, hshort⟩ := hd
  by_cases hfits : digits d.coefficient ≤ prec
  · rw [fix, if_pos hfits]
  · have hc : 0 < d.coefficient := by
      refine Nat.pos_of_ne_zero fun hzero => hfits ?_
      rw [hzero]
      exact hprec
    have hdigits : digits d.coefficient = digits n + j := by
      rw [hn, digits_mul_pow (Nat.pos_of_ne_zero fun h => by simp [hn, h] at hc)]
    have hfew : digits n ≤ prec := (digits_le_iff hprec).mpr hshort
    have hcarry : digits (d.rescale .halfEven (d.exponent + (digits d.coefficient - prec : ℕ))) ≤
        prec := digits_rescale_le hprec hc hn hshort (by omega) (by omega)
    simp only [fix, if_neg hfits, if_pos hcarry]
    exact value_toUnit_of_mul hn (by omega)

/-- The size of a number, by its digits and its exponent. -/
theorem pow_le_mul_pow_iff {c : ℕ} (hc : 0 < c) (e m : ℤ) :
    (10 : ℚ) ^ m ≤ c * (10 : ℚ) ^ e ↔ m < digits c + e := by
  obtain ⟨hlow, hhigh⟩ := digits_bounds hc
  have hpos : (0 : ℚ) < 10 ^ e := zpow_pos (by norm_num) e
  obtain ⟨t, ht⟩ : ∃ t, digits c = t + 1 := ⟨Nat.log 10 c, rfl⟩
  rw [ht, Nat.add_sub_cancel] at hlow
  constructor
  · intro hle
    have hlt : (c : ℚ) * 10 ^ e < 10 ^ ((digits c : ℤ) + e) := by
      rw [zpow_add₀ (by norm_num), zpow_natCast]
      exact mul_lt_mul_of_pos_right (by exact_mod_cast hhigh) hpos
    exact (zpow_lt_zpow_iff_right₀ (by norm_num)).mp (hle.trans_lt hlt)
  · intro hlt
    calc (10 : ℚ) ^ m ≤ 10 ^ ((t : ℤ) + e) := zpow_le_zpow_right₀ (by norm_num) (by omega)
      _ = 10 ^ t * 10 ^ e := by rw [zpow_add₀ (by norm_num), zpow_natCast]
      _ ≤ c * 10 ^ e := mul_le_mul_of_nonneg_right (by exact_mod_cast hlow) hpos.le

end Decimal

namespace Context

variable (ctx : Context)

/-- The smallest exponent of a coefficient. -/
def etiny : ℤ := ctx.emin - ctx.prec + 1

/-- The largest exponent of a coefficient of full length. -/
def etop : ℤ := ctx.emax - ctx.prec + 1

/-- A result in a context; `none` is the overflow. -/
def finalize (d : Decimal) : Option Decimal :=
  if d.coefficient = 0 then some ⟨d.negative, 0, min (max d.exponent ctx.etiny) ctx.emax⟩
  else
    let low := digits d.coefficient + d.exponent - ctx.prec
    if ctx.etop < low then none
    else
      let e := max low ctx.etiny
      if d.exponent < e then
        let c := d.rescale .halfEven e
        -- a carry to one digit more drops the last digit, which is zero
        let r : Decimal :=
          if digits c ≤ ctx.prec then ⟨d.negative, c, e⟩ else ⟨d.negative, c / 10, e + 1⟩
        if ctx.etop < r.exponent then none else some r
      else some d

/-- The rational numbers of a context. -/
def Number (q : ℚ) : Prop :=
  ∃ (n : ℤ) (k : ℤ), q = n * (10 : ℚ) ^ k ∧ n.natAbs < 10 ^ ctx.prec ∧ ctx.etiny ≤ k ∧
    |q| < (10 : ℚ) ^ (ctx.emax + 1)

/-- The number is one of the context as it is written. -/
def Holds (d : Decimal) : Prop :=
  digits d.coefficient ≤ ctx.prec ∧ ctx.etiny ≤ d.exponent ∧
    digits d.coefficient + d.exponent ≤ ctx.emax + 1

instance (d : Decimal) : Decidable (ctx.Holds d) := inferInstanceAs (Decidable (_ ∧ _ ∧ _))

/-- The number in a context, without the zeros at its end, as far as the largest exponent goes. Zero
gets the exponent `0`. -/
def normalize (d : Decimal) : Option Decimal :=
  (ctx.finalize d).map fun r =>
    if r.coefficient = 0 then ⟨r.negative, 0, 0⟩
    else
      let fuel := min (digits r.coefficient) (ctx.emax - r.exponent).toNat
      let (c, e) := Decimal.stripZeros fuel r.coefficient r.exponent
      ⟨r.negative, c, e⟩

/-! ## Numbers of few digits -/

section Finalize

variable {ctx} {d r : Decimal}

/-- Only a number above the largest exponent is an overflow. -/
theorem not_etop_lt (hc : 0 < d.coefficient) (hvalue : |d.value| < (10 : ℚ) ^ (ctx.emax + 1)) :
    ¬ ctx.etop < digits d.coefficient + d.exponent - ctx.prec := by
  rw [Decimal.abs_value, ← not_le, Decimal.pow_le_mul_pow_iff hc] at hvalue
  simp only [etop]
  omega

/-- **A number above the largest exponent is an overflow.** -/
theorem finalize_overflow (hvalue : (10 : ℚ) ^ (ctx.emax + 1) ≤ |d.value|) :
    ctx.finalize d = none := by
  have hc : 0 < d.coefficient := by
    refine Nat.pos_of_ne_zero fun hzero => ?_
    rw [Decimal.abs_value, hzero, Nat.cast_zero, zero_mul] at hvalue
    exact (zpow_pos (by norm_num : (0 : ℚ) < 10) _).not_ge hvalue
  rw [Decimal.abs_value, Decimal.pow_le_mul_pow_iff hc] at hvalue
  simp only [finalize, if_neg hc.ne']
  rw [if_pos]
  simp only [etop]
  omega

/-- **A number of few significant digits** is rounded to a multiple of the smallest unit only. -/
theorem finalize_short (hd : d.Short ctx.prec) (hvalue : |d.value| < (10 : ℚ) ^ (ctx.emax + 1)) :
    ∃ r, ctx.finalize d = some r ∧ r.value = (d.toUnit ctx.etiny).value := by
  have hprec := ctx.prec_pos
  have hmin := ctx.emin_le
  have hmax := ctx.emax_nonneg
  rcases Nat.eq_zero_or_pos d.coefficient with hzero | hc
  · refine ⟨_, if_pos hzero, ?_⟩
    have hunit : (d.toUnit ctx.etiny).value = d.value :=
      Decimal.value_toUnit_of_mul (n := 0) (j := (ctx.etiny - d.exponent).toNat)
        (by simpa using hzero) (by omega)
    rw [hunit]
    simp [Decimal.value, hzero]
  obtain ⟨n, j, hn, hshort⟩ := hd
  have hdigits : digits d.coefficient = digits n + j := by
    rw [hn, digits_mul_pow (Nat.pos_of_ne_zero fun h => by simp [hn, h] at hc)]
  have hfew : digits n ≤ ctx.prec := (digits_le_iff hprec).mpr hshort
  have hlow := not_etop_lt hc hvalue
  simp only [finalize, if_neg hc.ne', if_neg hlow]
  generalize he : max (digits d.coefficient + d.exponent - (ctx.prec : ℤ)) ctx.etiny = e
  have hetop : e ≤ ctx.etop := by simp only [etiny, etop] at he hlow ⊢; omega
  by_cases hexp : d.exponent < e
  · rw [if_pos hexp]
    have hfits : digits (d.rescale .halfEven e) ≤ ctx.prec :=
      Decimal.digits_rescale_le hprec hc hn hshort hexp (by omega)
    rw [if_pos hfits, if_neg (not_lt.mpr hetop)]
    refine ⟨_, rfl, ?_⟩
    by_cases hzeros : e ≤ d.exponent + j
    · rw [Decimal.value_toUnit_of_mul hn (by omega)]
      exact Decimal.value_toUnit_of_mul hn hzeros
    · obtain rfl : ctx.etiny = e := by omega
      rfl
  · rw [if_neg hexp]
    exact ⟨d, rfl, (Decimal.value_toUnit_of_mul hn (by omega)).symm⟩

/-- A number of the context has few significant digits, however it is written. -/
theorem short_of_number (h : ctx.Number d.value) : d.Short ctx.prec := by
  obtain ⟨n, k, hvalue, hn, -⟩ := h
  rcases le_total k d.exponent with hle | hle
  · refine ⟨d.coefficient, 0, by simp, lt_of_le_of_lt ?_ hn⟩
    have hpos : (10 : ℚ) ^ k ≠ 0 := zpow_ne_zero _ (by norm_num)
    rw [← Decimal.scaled_mul_pow hle, mul_left_inj' hpos, Int.cast_inj] at hvalue
    rw [← hvalue, Decimal.natAbs_scaled]
    exact Nat.le_mul_of_pos_right _ (by positivity)
  · exact ⟨n.natAbs, _, Decimal.coefficient_of_value hle hvalue, hn⟩

/-- **A number of the context is not changed**, however it is written. -/
theorem finalize_number (h : ctx.Number d.value) :
    ∃ r, ctx.finalize d = some r ∧ r.value = d.value := by
  have hshort := short_of_number h
  obtain ⟨n, k, hvalue, -, hk, hbound⟩ := h
  obtain ⟨r, hr, hunit⟩ := finalize_short hshort hbound
  refine ⟨r, hr, hunit.trans (Decimal.value_toUnit_of_multiple
    ⟨n * 10 ^ (k - ctx.etiny).toNat, ?_⟩)⟩
  obtain ⟨t, rfl⟩ : ∃ t : ℕ, k = ctx.etiny + t := ⟨(k - ctx.etiny).toNat, by omega⟩
  rw [hvalue, zpow_add₀ (by norm_num), zpow_natCast,
    show (ctx.etiny + (t : ℤ) - ctx.etiny).toNat = t by omega]
  push_cast
  ring

end Finalize

/-! ## Places -/

section Normalize

variable {ctx} {d r q : Decimal}

/-- **The exponent of a normalized number** tells how many places the number has. -/
theorem neg_le_exponent_normalize_iff (hr : ctx.finalize d = some r) (hq : ctx.normalize d = some q)
    (p : ℕ) : -(p : ℤ) ≤ q.exponent ↔ ∃ k : ℤ, r.value = k * (10 : ℚ) ^ (-(p : ℤ)) := by
  rw [normalize, hr, Option.map_some, Option.some.injEq] at hq
  subst hq
  rw [Decimal.multiple_iff]
  split
  next hzero => exact iff_of_true (by simp) (by rw [hzero]; exact dvd_zero _)
  next hne =>
    refine Decimal.le_stripZeros_iff hne ?_
    have hmax := ctx.emax_nonneg
    rcases le_total (digits r.coefficient) (ctx.emax - r.exponent).toNat with hle | hle
    · rw [min_eq_left hle]
      exact .inl (digits_bounds (Nat.pos_of_ne_zero hne)).2
    · rw [min_eq_right hle]
      exact .inr (by omega)

/-- A number of few digits, far from the bounds of the exponents, is normalized as without them. -/
theorem normalize_eq (hdigits : digits d.coefficient ≤ ctx.prec) (hlow : ctx.etiny ≤ d.exponent)
    (hhigh : digits d.coefficient + d.exponent ≤ ctx.emax) :
    ctx.normalize d = some (d.normalize ctx.prec) := by
  have hfinalize : ctx.finalize d = some d := by
    obtain ⟨negative, c, e⟩ := d
    dsimp only at hdigits hlow hhigh
    simp only [finalize, etop]
    split
    next hzero => rw [max_eq_left hlow, min_eq_left (by omega), hzero]
    next hne => rw [if_neg (by omega), if_neg (by omega)]
  have hfuel : min (digits d.coefficient) (ctx.emax - d.exponent).toNat = digits d.coefficient :=
    min_eq_left (by omega)
  simp only [normalize, hfinalize, Option.map_some, hfuel, Decimal.normalize, Decimal.fix,
    if_pos hdigits]

end Normalize

/-- The default context. -/
def default : Context := ⟨28, -999999, 999999, by decide, by decide, by decide⟩

end Context

/-! ## Sums -/

namespace Decimal

@[simp] theorem value_zero : zero.value = 0 := by simp [value, zero]

/-- The sum before it is rounded. -/
def exactAdd (a b : Decimal) : Decimal :=
  let e := min a.exponent b.exponent
  let n := a.scaled e + b.scaled e
  ⟨if n = 0 then a.negative && b.negative else n < 0, n.natAbs, e⟩

theorem add_eq_fix (prec : ℕ) (a b : Decimal) : add prec a b = (exactAdd a b).fix prec := rfl

theorem value_exactAdd (a b : Decimal) : (exactAdd a b).value = a.value + b.value := by
  have hsign : ∀ n : ℤ, (if (if n = 0 then a.negative && b.negative else decide (n < 0)) then
      -(n.natAbs : ℤ) else n.natAbs) = n := by
    intro n
    rcases lt_trichotomy n 0 with hneg | rfl | hpos
    · simp [hneg, hneg.ne, abs_of_neg hneg]
    · simp
    · simp [hpos.ne', hpos.not_gt, abs_of_pos hpos]
  rw [← scaled_mul_pow (min_le_left a.exponent b.exponent),
    ← scaled_mul_pow (min_le_right a.exponent b.exponent), ← add_mul,
    ← Int.cast_add]
  exact congrArg (fun m : ℤ => (m : ℚ) * (10 : ℚ) ^ min a.exponent b.exponent) (hsign _)

end Decimal

namespace Context

/-- The sum in a context. -/
def add (ctx : Context) (a b : Decimal) : Option Decimal := ctx.finalize (Decimal.exactAdd a b)

/-- **A sum that is a number of the context** is exact. -/
theorem add_number {ctx : Context} {a b : Decimal} (h : ctx.Number (a.value + b.value)) :
    ∃ r, ctx.add a b = some r ∧ r.value = a.value + b.value := by
  rw [← Decimal.value_exactAdd] at h ⊢
  exact finalize_number h

/-- The same without the bounds of the exponents. -/
theorem value_add_of_number {ctx : Context} {a b : Decimal} (h : ctx.Number (a.value + b.value)) :
    (Decimal.add ctx.prec a b).value = a.value + b.value := by
  rw [← Decimal.value_exactAdd] at h
  rw [Decimal.add_eq_fix, ← Decimal.value_exactAdd]
  exact Decimal.value_fix_of_short ctx.prec_pos (short_of_number h)

/-- The sum of numbers one after another. -/
def sum (ctx : Context) (ds : List Decimal) : Option Decimal := ds.foldlM ctx.add .zero

/-- The sums of a list of numbers, up to each of them, are numbers of the context. -/
def Sums (ctx : Context) (qs : List ℚ) : Prop := ∀ n, ctx.Number (qs.take n).sum

section Sums

variable {ctx : Context} {ds : List Decimal}

/-- Additions that are exact as long as the sum is a number of the context, one after another. -/
theorem exists_foldlM {f : Decimal → Decimal → Option Decimal}
    (hf : ∀ a b, ctx.Number (a.value + b.value) →
      ∃ r, f a b = some r ∧ r.value = a.value + b.value)
    (h : ctx.Sums (ds.map Decimal.value)) :
    ∃ r, ds.foldlM f .zero = some r ∧ r.value = (ds.map Decimal.value).sum := by
  suffices hfrom : ∀ a : Decimal,
      (∀ n, ctx.Number (a.value + ((ds.map Decimal.value).take n).sum)) →
        ∃ r, ds.foldlM f a = some r ∧ r.value = a.value + (ds.map Decimal.value).sum by
    simpa only [Decimal.value_zero, zero_add] using
      hfrom .zero fun n => by simpa only [Decimal.value_zero, zero_add] using h n
  clear h
  induction ds with
  | nil => exact fun a _ => ⟨a, rfl, by simp⟩
  | cons d ds ih =>
    intro a h
    obtain ⟨b, hb, hvalue⟩ := hf a d (by simpa using h 1)
    obtain ⟨r, hr, hsum⟩ := ih b fun n => by
      simpa [hvalue, add_assoc] using h (n + 1)
    refine ⟨r, ?_, by rw [hsum, hvalue, List.map_cons, List.sum_cons, add_assoc]⟩
    rw [List.foldlM_cons, hb]
    exact hr

/-- **A sum whose partial sums are numbers of the context** is exact. -/
theorem exists_sum (h : ctx.Sums (ds.map Decimal.value)) :
    ∃ r, ctx.sum ds = some r ∧ r.value = (ds.map Decimal.value).sum :=
  exists_foldlM (fun _ _ => add_number) h

/-- The same without the bounds of the exponents. -/
theorem value_foldl_add (h : ctx.Sums (ds.map Decimal.value)) :
    (ds.foldl (Decimal.add ctx.prec) .zero).value = (ds.map Decimal.value).sum := by
  obtain ⟨r, hr, hvalue⟩ := exists_foldlM (f := fun a b => some (Decimal.add ctx.prec a b))
    (fun a b hnumber => ⟨_, rfl, value_add_of_number hnumber⟩) h
  have hfoldl : ds.foldlM (fun a b => some (Decimal.add ctx.prec a b)) .zero =
      some (ds.foldl (Decimal.add ctx.prec) .zero) := List.foldlM_pure
  cases hfoldl.symm.trans hr
  exact hvalue

/-- A multiple of a power of ten is a number of the context if it is small enough. -/
theorem number_of_multiple {k : ℤ} {q : ℚ} (hk : ctx.etiny ≤ k)
    (hemax : ctx.prec + k ≤ ctx.emax + 1) (hq : q ∈ AddSubgroup.zmultiples ((10 : ℚ) ^ k))
    (hsmall : |q| < (10 : ℚ) ^ (ctx.prec + k)) : ctx.Number q := by
  obtain ⟨n, rfl⟩ := AddSubgroup.mem_zmultiples_iff.mp hq
  have hpow : (0 : ℚ) < (10 : ℚ) ^ k := zpow_pos (by norm_num) k
  refine ⟨n, k, zsmul_eq_mul _ _, ?_, hk,
    hsmall.trans_le (zpow_le_zpow_right₀ (by norm_num) hemax)⟩
  rw [zsmul_eq_mul, abs_mul, abs_of_pos hpow, zpow_add₀ (by norm_num),
    mul_lt_mul_iff_left₀ hpow, zpow_natCast] at hsmall
  have hcast : (n.natAbs : ℚ) < ((10 ^ ctx.prec : ℕ) : ℚ) := by
    rw [Nat.cast_natAbs, Int.cast_abs]
    exact_mod_cast hsmall
  exact_mod_cast hcast

/-- **Multiples of a power of ten** that are small together: some of them add up to a number of the
context. -/
theorem number_sum {k : ℤ} {qs l : List ℚ} (hk : ctx.etiny ≤ k)
    (hemax : ctx.prec + k ≤ ctx.emax + 1)
    (hqs : ∀ q ∈ qs, q ∈ AddSubgroup.zmultiples ((10 : ℚ) ^ k))
    (hsmall : (qs.map abs).sum < (10 : ℚ) ^ (ctx.prec + k)) (hl : l.Sublist qs) :
    ctx.Number l.sum := by
  refine number_of_multiple hk hemax (list_sum_mem fun q hq => hqs q (hl.subset hq)) ?_
  calc |l.sum| ≤ (l.map abs).sum :=
        List.le_sum_of_subadditive abs abs_zero.le abs_add_le l
    _ ≤ (qs.map abs).sum := (hl.map abs).sum_le_sum fun a ha => by
        obtain ⟨q, -, rfl⟩ := List.mem_map.mp ha
        exact abs_nonneg q
    _ < _ := hsmall

end Sums

end Context

end DecimalArithmetic
