import FxDealManager.Arithmetic.Rounding
import Mathlib.Algebra.BigOperators.Group.List.Basic
import Mathlib.Algebra.Field.Rat
import Mathlib.Algebra.GroupWithZero.Basic
import Mathlib.Tactic.Ring
import Mathlib.Tactic.Linarith

/-!
# Exact sums

Additions in a context round; they are exact as long as the numbers, written at one exponent, add up
to fewer digits than the context has, in whatever order they are added.

## Main definitions

* `Decimal.value`: the rational number that a decimal stands for
* `Addable`: the numbers can be added exactly

## Main results

* `add_exact`: an exact addition
* `foldl_add_exact`: exact additions one after another
* `Addable.value_add`: the value of two sums added
-/

namespace DecimalArithmetic

namespace Decimal

/-- The rational number that a decimal stands for. -/
def value (d : Decimal) : ℚ :=
  (if d.negative then -(d.coefficient : ℤ) else d.coefficient : ℤ) * (10 : ℚ) ^ d.exponent

variable {d a b : Decimal} {e : ℤ}

/-- The value at an exponent that is not above the number's own. -/
theorem scaled_mul_pow (h : e ≤ d.exponent) : (d.scaled e : ℚ) * (10 : ℚ) ^ e = d.value := by
  obtain ⟨n, hn⟩ := Int.eq_ofNat_of_zero_le (sub_nonneg.mpr h)
  have hpow : (10 : ℚ) ^ (n : ℤ) * (10 : ℚ) ^ e = (10 : ℚ) ^ d.exponent := by
    rw [← zpow_add₀ (by norm_num : (10 : ℚ) ≠ 0), ← hn]
    ring_nf
  have hscaled : d.scaled e =
      (if d.negative then -(d.coefficient : ℤ) else d.coefficient) * 10 ^ n := by
    simp only [scaled, hn, Int.toNat_natCast]
    split <;> ring
  rw [hscaled, value, ← hpow]
  push_cast
  rw [zpow_natCast]
  ring

/-- From one exponent to a lower one. -/
theorem scaled_of_le {k : ℤ} (hk : k ≤ e) (he : e ≤ d.exponent) :
    d.scaled k = d.scaled e * 10 ^ (e - k).toNat := by
  have hexp : (d.exponent - k).toNat = (d.exponent - e).toNat + (e - k).toNat := by omega
  simp only [scaled, hexp, pow_add]
  split <;> ring

/-- **An exact addition**: written at a common exponent, the numbers have fewer digits than the
context. -/
theorem add_exact {prec : ℕ} (hprec : 0 < prec) (ha : e ≤ a.exponent) (hb : e ≤ b.exponent)
    (h : (a.scaled e).natAbs + (b.scaled e).natAbs < 10 ^ prec) :
    e ≤ (add prec a b).exponent ∧ (add prec a b).scaled e = a.scaled e + b.scaled e := by
  have hmin : e ≤ min a.exponent b.exponent := le_min ha hb
  have hsum : a.scaled e + b.scaled e =
      (a.scaled (min a.exponent b.exponent) + b.scaled (min a.exponent b.exponent)) *
        10 ^ (min a.exponent b.exponent - e).toNat := by
    rw [scaled_of_le hmin (min_le_left _ _), scaled_of_le hmin (min_le_right _ _)]
    ring
  generalize hm : min a.exponent b.exponent = m at hmin hsum
  generalize hn : a.scaled m + b.scaled m = n at hsum
  have hlt : n.natAbs < 10 ^ prec := by
    have hscale : n.natAbs ≤ (a.scaled e + b.scaled e).natAbs := by
      rw [hsum, Int.natAbs_mul]
      exact Nat.le_mul_of_pos_right _ (Int.natAbs_pos.mpr (by positivity))
    have htriangle := Int.natAbs_add_le (a.scaled e) (b.scaled e)
    omega
  have hadd : add prec a b =
      ⟨if n = 0 then a.negative && b.negative else n < 0, n.natAbs, m⟩ := by
    simp only [add, hm, hn, fix]
    rw [if_pos ((digits_le_iff hprec).mpr hlt)]
  refine ⟨hadd ▸ hmin, ?_⟩
  rw [hadd, hsum]
  rcases lt_trichotomy n 0 with hneg | rfl | hpos
  · have habs : ((n.natAbs : ℕ) : ℤ) = -n := by omega
    simp [scaled, hneg.ne, hneg, habs]
  · simp [scaled]
  · have habs : ((n.natAbs : ℕ) : ℤ) = n := by omega
    simp [scaled, hpos.ne', hpos.not_gt, habs]

/-- **Exact additions one after another.** -/
theorem foldl_add_exact {prec : ℕ} (hprec : 0 < prec) {ds : List Decimal} (ha : e ≤ a.exponent)
    (hds : ∀ d ∈ ds, e ≤ d.exponent)
    (h : (a.scaled e).natAbs + (ds.map fun d => (d.scaled e).natAbs).sum < 10 ^ prec) :
    e ≤ (ds.foldl (add prec) a).exponent ∧
      (ds.foldl (add prec) a).scaled e = a.scaled e + (ds.map fun d => d.scaled e).sum := by
  induction ds generalizing a with
  | nil => simpa using ha
  | cons d ds ih =>
    obtain ⟨hd, hds⟩ := List.forall_mem_cons.mp hds
    rw [List.map_cons, List.sum_cons] at h
    obtain ⟨hexp, hsum⟩ := add_exact hprec ha hd (by omega)
    have htriangle := Int.natAbs_add_le (a.scaled e) (d.scaled e)
    obtain ⟨hexp', hsum'⟩ := ih hexp hds (by rw [hsum]; omega)
    exact ⟨hexp', by rw [List.foldl_cons, hsum', hsum, List.map_cons, List.sum_cons, add_assoc]⟩

end Decimal

/-- The numbers can be added exactly: written at one exponent, their magnitudes add up to fewer
digits than the context has. -/
def Addable (prec : ℕ) (ds : List Decimal) : Prop :=
  ∃ e ≤ (0 : ℤ), (∀ d ∈ ds, e ≤ d.exponent) ∧
    (ds.map fun d => (d.scaled e).natAbs).sum < 10 ^ prec

theorem natAbs_sum_le (ns : List ℤ) : ns.sum.natAbs ≤ (ns.map Int.natAbs).sum := by
  induction ns with
  | nil => simp
  | cons n ns ih =>
    have htriangle := Int.natAbs_add_le n ns.sum
    rw [List.sum_cons, List.map_cons, List.sum_cons]
    omega

theorem sum_scaled_mul_pow {ds : List Decimal} {e : ℤ} (h : ∀ d ∈ ds, e ≤ d.exponent) :
    (((ds.map fun d => d.scaled e).sum : ℤ) : ℚ) * (10 : ℚ) ^ e = (ds.map Decimal.value).sum := by
  induction ds with
  | nil => simp
  | cons d ds ih =>
    obtain ⟨hd, hds⟩ := List.forall_mem_cons.mp h
    rw [List.map_cons, List.map_cons, List.sum_cons, List.sum_cons, ← ih hds,
      ← Decimal.scaled_mul_pow hd]
    push_cast
    ring

/-- **Two exact sums added** come to the sum of all values. -/
theorem Addable.value_add {prec : ℕ} (hprec : 0 < prec) {ds es : List Decimal}
    (h : Addable prec (ds ++ es)) :
    (Decimal.add prec (ds.foldl (Decimal.add prec) .zero)
        (es.foldl (Decimal.add prec) .zero)).value =
      (ds.map Decimal.value).sum + (es.map Decimal.value).sum := by
  obtain ⟨e, he, hexp, hlt⟩ := h
  rw [List.forall_mem_append] at hexp
  rw [List.map_append, List.sum_append] at hlt
  have hzero : Decimal.zero.scaled e = 0 := by simp [Decimal.scaled, Decimal.zero]
  obtain ⟨hexp₁, hsum₁⟩ := Decimal.foldl_add_exact hprec (a := .zero) he hexp.1
    (by rw [hzero]; omega)
  obtain ⟨hexp₂, hsum₂⟩ := Decimal.foldl_add_exact hprec (a := .zero) he hexp.2
    (by rw [hzero]; omega)
  rw [hzero, zero_add] at hsum₁ hsum₂
  have hbound₁ := natAbs_sum_le (ds.map fun d => d.scaled e)
  have hbound₂ := natAbs_sum_le (es.map fun d => d.scaled e)
  simp only [List.map_map, Function.comp_def] at hbound₁ hbound₂
  obtain ⟨hexp', hsum'⟩ := Decimal.add_exact hprec hexp₁ hexp₂ (by rw [hsum₁, hsum₂]; omega)
  rw [← Decimal.scaled_mul_pow hexp', hsum', hsum₁, hsum₂, ← sum_scaled_mul_pow hexp.1,
    ← sum_scaled_mul_pow hexp.2]
  push_cast
  ring

end DecimalArithmetic
