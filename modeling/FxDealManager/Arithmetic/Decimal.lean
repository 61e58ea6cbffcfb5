import Mathlib.Algebra.Group.Int.Defs
import Mathlib.Algebra.Group.Nat.Defs
import Mathlib.Data.Nat.Log
import Mathlib.Data.Rat.Defs

/-!
# Decimal numbers

Finite decimal numbers with a sign, a coefficient and an exponent, and their arithmetic in a
context of a given precision: products are rounded half to even to the precision, and
`quantize` moves a number to a given exponent or fails when the coefficient does not fit the
precision. Fixed-point columns of a database store decimals of a given scale.

## Main definitions

* `Decimal`: the number `(-1)^negative * coefficient * 10^exponent`
* `Decimal.mul`, `Decimal.add`, `Decimal.quantize`, `Decimal.normalize`: arithmetic in a context
* `Decimal.same`, `Decimal.lt`: comparison of the values
* `Numeric p s`: the values of a column of `p` digits, `s` of them fractional

## Main results

* `Decimal.quantize_exponent`: a quantized number has the exponent asked for
* `Numeric.ofDecimal_toDecimal`: a column value read back is stored as itself
* `Numeric.toDecimal_of_ofDecimal`: a number of the column's scale is stored exactly
-/

namespace DecimalArithmetic

/-- A finite decimal number: `(-1)^negative * coefficient * 10^exponent`. -/
structure Decimal where
  negative : Bool
  coefficient : ℕ
  exponent : ℤ
deriving DecidableEq, Repr

/-- The rounding modes in use. -/
inductive Rounding where
  | halfUp
  | halfEven
deriving DecidableEq, Repr

/-- The quotient `n / k`, rounded to a natural number. -/
def Rounding.divide (mode : Rounding) (n k : ℕ) : ℕ :=
  let q := n / k
  let r := n % k
  match mode with
  | .halfUp => if k ≤ 2 * r then q + 1 else q
  | .halfEven => if k < 2 * r ∨ (k = 2 * r ∧ q % 2 = 1) then q + 1 else q

/-- The number of decimal digits of a coefficient; zero has one. -/
def digits (n : ℕ) : ℕ := Nat.log 10 n + 1

namespace Decimal

/-- The coefficient of the number at another exponent, rounded. -/
def rescale (mode : Rounding) (d : Decimal) (exponent : ℤ) : ℕ :=
  if exponent ≤ d.exponent then d.coefficient * 10 ^ (d.exponent - exponent).toNat
  else mode.divide d.coefficient (10 ^ (exponent - d.exponent).toNat)

/-- The number rounded half to even to a precision. A carry to one digit more drops the last
digit, which is zero. -/
def fix (prec : ℕ) (d : Decimal) : Decimal :=
  if digits d.coefficient ≤ prec then d
  else
    let exponent := d.exponent + (digits d.coefficient - prec : ℕ)
    let c := d.rescale .halfEven exponent
    -- 99.5 rounds to 100, which has a digit more
    if digits c ≤ prec then ⟨d.negative, c, exponent⟩
    else ⟨d.negative, c / 10, exponent + 1⟩

/-- The product in a context of precision `prec`. -/
def mul (prec : ℕ) (a b : Decimal) : Decimal :=
  fix prec ⟨xor a.negative b.negative, a.coefficient * b.coefficient, a.exponent + b.exponent⟩

/-- The number moved to an exponent; `none` is the invalid operation of a coefficient that does
not fit the precision. -/
def quantize (prec : ℕ) (mode : Rounding) (d : Decimal) (exponent : ℤ) : Option Decimal :=
  let c := d.rescale mode exponent
  if digits c ≤ prec then some ⟨d.negative, c, exponent⟩ else none

/-- Drop at most `fuel` trailing zeros of a nonzero coefficient. -/
def stripZeros : (fuel coefficient : ℕ) → (exponent : ℤ) → ℕ × ℤ
  | 0, c, e => (c, e)
  | fuel + 1, c, e => if c % 10 = 0 then stripZeros fuel (c / 10) (e + 1) else (c, e)

/-- The number in a context of precision `prec`, without trailing zeros; zero gets the
exponent `0`. -/
def normalize (prec : ℕ) (d : Decimal) : Decimal :=
  let r := d.fix prec
  if r.coefficient = 0 then ⟨r.negative, 0, 0⟩
  else
    let (c, e) := stripZeros (digits r.coefficient) r.coefficient r.exponent
    ⟨r.negative, c, e⟩

/-- The value in units of `10^exponent`, for an exponent not above the number's own. -/
def scaled (d : Decimal) (exponent : ℤ) : ℤ :=
  let n : ℤ := d.coefficient * 10 ^ (d.exponent - exponent).toNat
  if d.negative then -n else n

/-- The sum in a context of precision `prec`. A zero sum is negative if both numbers are. -/
def add (prec : ℕ) (a b : Decimal) : Decimal :=
  let e := min a.exponent b.exponent
  let n := a.scaled e + b.scaled e
  fix prec ⟨if n = 0 then a.negative && b.negative else n < 0, n.natAbs, e⟩

/-- The zero `Decimal("0")`. -/
def zero : Decimal := ⟨false, 0, 0⟩

/-- The two numbers have the same value. -/
def same (a b : Decimal) : Bool :=
  let e := min a.exponent b.exponent
  a.scaled e = b.scaled e

/-- The value of `a` is below that of `b`. -/
def lt (a b : Decimal) : Bool :=
  let e := min a.exponent b.exponent
  a.scaled e < b.scaled e

/-- The value is above zero. -/
def positive (d : Decimal) : Bool := !d.negative && d.coefficient ≠ 0

@[simp] theorem same_self (d : Decimal) : d.same d = true := by simp [same]

theorem quantize_exponent {prec : ℕ} {mode : Rounding} {d q : Decimal} {e : ℤ}
    (h : d.quantize prec mode e = some q) : q.exponent = e := by
  simp only [quantize] at h
  split at h
  · cases h; rfl
  · cases h

theorem quantize_negative {prec : ℕ} {mode : Rounding} {d q : Decimal} {e : ℤ}
    (h : d.quantize prec mode e = some q) : q.negative = d.negative := by
  simp only [quantize] at h
  split at h
  · cases h; rfl
  · cases h

theorem fix_negative (prec : ℕ) (d : Decimal) : (d.fix prec).negative = d.negative := by
  simp only [fix]
  split
  · rfl
  · split <;> rfl

/-- A product of positive numbers is not negative. -/
theorem mul_negative {prec : ℕ} {a b : Decimal} (ha : a.positive = true) (hb : b.positive = true) :
    (mul prec a b).negative = false := by
  simp only [positive, Bool.and_eq_true, Bool.not_eq_true'] at ha hb
  simp [mul, fix_negative, ha.1, hb.1]

theorem rescale_self (mode : Rounding) (d : Decimal) :
    d.rescale mode d.exponent = d.coefficient := by
  simp [rescale]

/-! ### Text -/

/-- The text of the exponent part. -/
def exponentText (e : ℤ) : String :=
  if 0 ≤ e then "E+" ++ toString e else "E" ++ toString e

/-- The text of a number: plain for an exponent that is not positive and a value that is not too
small, scientific otherwise. -/
def text (d : Decimal) : String :=
  let digs := toString d.coefficient
  let left := d.exponent + digs.length
  let dot : ℤ := if d.exponent ≤ 0 ∧ -6 < left then left else 1
  let (int, frac) :=
    if dot ≤ 0 then ("0", "." ++ String.ofList (List.replicate (-dot).toNat '0') ++ digs)
    else if digs.length ≤ dot then
      (digs ++ String.ofList (List.replicate (dot - digs.length).toNat '0'), "")
    else
      (String.ofList (digs.toList.take dot.toNat),
        "." ++ String.ofList (digs.toList.drop dot.toNat))
  let exp := if left = dot then "" else exponentText (left - dot)
  (if d.negative then "-" else "") ++ int ++ frac ++ exp

end Decimal

/-- The values of a fixed-point column with `p` digits, `s` of them fractional. -/
structure Numeric (p s : ℕ) where
  unscaled : ℤ
  fits : unscaled.natAbs < 10 ^ p
deriving DecidableEq, Repr

namespace Numeric

variable {p s : ℕ}

/-- The number read from a column. -/
def toDecimal (n : Numeric p s) : Decimal := ⟨decide (n.unscaled < 0), n.unscaled.natAbs, -s⟩

/-- The value with a given sign and magnitude, if it fits the column. -/
def ofMagnitude (negative : Bool) (m : ℕ) : Option (Numeric p s) :=
  if h : m < 10 ^ p then some ⟨if negative then -m else m, by split <;> simpa using h⟩ else none

/-- Store a number: it is rounded half away from zero to the scale of the column; `none` is the
overflow of the column. -/
def ofDecimal (d : Decimal) : Option (Numeric p s) :=
  ofMagnitude d.negative (d.rescale .halfUp (-s))

/-- **A column value read back is stored as itself.** -/
@[simp] theorem ofDecimal_toDecimal (n : Numeric p s) : ofDecimal n.toDecimal = some n := by
  have hr : n.toDecimal.rescale .halfUp (-s) = n.unscaled.natAbs :=
    Decimal.rescale_self .halfUp n.toDecimal
  simp only [ofDecimal, hr, ofMagnitude, n.fits, dite_true, Option.some.injEq]
  obtain ⟨u, hu⟩ := n
  simp only [toDecimal, Numeric.mk.injEq, decide_eq_true_eq]
  split <;> omega

/-- **A number of the column's scale is stored exactly**, a negative zero apart. -/
theorem toDecimal_of_ofDecimal {d : Decimal} {n : Numeric p s} (he : d.exponent = -s)
    (hz : d.negative = true → d.coefficient ≠ 0) (h : ofDecimal d = some n) : n.toDecimal = d := by
  have hr : d.rescale .halfUp (-s) = d.coefficient := he ▸ Decimal.rescale_self .halfUp d
  simp only [ofDecimal, hr, ofMagnitude] at h
  split at h
  · cases h
    obtain ⟨neg, c, e⟩ := d
    cases neg
    · simp_all [toDecimal]
    · have hc : c ≠ 0 := hz rfl
      simp_all [toDecimal]
      omega
  · cases h

end Numeric

end DecimalArithmetic
