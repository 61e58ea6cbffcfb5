import Mathlib.Data.Nat.Nth
import Mathlib.Algebra.BigOperators.Intervals
import Mathlib.Tactic.Common

/-!
# The n-th number with a property

A search for the `n`-th number from a given one on that has a decidable property. What is found
depends on the numbers passed only, so that a search over a window agrees with the search over all
numbers as long as it stays in the window.

## Main definitions

* `IsNth p first n d`: `d` is the number with the property `p` that `n` such numbers from `first`
  on precede
* `countIn p first last`: how many numbers from `first` to `last` have the property

## Main results

* `IsNth.unique`: there is one such number at most
* `IsNth.lt_iff`, `IsNth.le_iff`: such numbers are in the order of the numbers that precede them
* `countIn_eq_card`, `isNth_iff_countIn`: the numbers counted, as a set
* `isNth_of_not`, `isNth_zero`, `isNth_succ`: a search, step by step
* `exists_isNth_le_iff`: the number is found up to a bound if there are enough of them
* `isNth_zero_iff`: the first number found is the least one
* `isNth_window_iff`: the search in a window
-/

namespace Search

variable {p q : ℕ → Prop} [DecidablePred p] [DecidablePred q] {first n d e : ℕ}

/-- The number `d` has the property, and so have `n` numbers from `first` on before it. -/
structure IsNth (p : ℕ → Prop) [DecidablePred p] (first n d : ℕ) : Prop where
  first_le : first ≤ d
  holds : p d
  count : Nat.count p d = Nat.count p first + n

/-- How many numbers from `first` to `last` have the property. -/
def countIn (p : ℕ → Prop) [DecidablePred p] (first last : ℕ) : ℕ :=
  Nat.count p (last + 1) - Nat.count p first

/-- There is one such number at most. -/
theorem IsNth.unique (h : IsNth p first n d) (h' : IsNth p first n e) : d = e :=
  Nat.count_injective h.holds h'.holds (h.count.trans h'.count.symm)

/-- Numbers with the property are in the order of the numbers that precede them. -/
theorem IsNth.lt_iff {first' n' : ℕ} (h : IsNth p first n d) (h' : IsNth p first' n' e) :
    d < e ↔ Nat.count p first + n < Nat.count p first' + n' := by
  rw [← h.count, ← h'.count]
  exact ⟨Nat.count_strict_mono h.holds, fun hlt =>
    lt_of_not_ge fun hle => absurd (Nat.count_monotone p hle) (not_le.mpr hlt)⟩

theorem IsNth.le_iff {first' n' : ℕ} (h : IsNth p first n d) (h' : IsNth p first' n' e) :
    d ≤ e ↔ Nat.count p first + n ≤ Nat.count p first' + n' := by
  rw [← not_lt, h'.lt_iff h, not_lt]

/-! ## Counts -/

/-- The numbers that are counted. -/
theorem countIn_eq_card (hle : first ≤ d + 1) :
    countIn p first d = ((Finset.Icc first d).filter p).card := by
  have hsum := Finset.sum_range_add_sum_Ico (fun k => if p k then 1 else 0) hle
  simp only [← Finset.card_filter, ← Nat.count_eq_card_filter_range,
    Finset.Ico_add_one_right_eq_Icc] at hsum
  rw [countIn, ← hsum, Nat.add_sub_cancel_left]

/-- The number that `n` others precede is the last one of `n + 1`. -/
theorem isNth_iff_countIn : IsNth p first n d ↔ first ≤ d ∧ p d ∧ countIn p first d = n + 1 := by
  constructor
  · rintro ⟨hle, hd, hn⟩
    refine ⟨hle, hd, ?_⟩
    rw [countIn, Nat.count_succ, if_pos hd]
    omega
  · rintro ⟨hle, hd, hn⟩
    rw [countIn, Nat.count_succ, if_pos hd] at hn
    exact ⟨hle, hd, by omega⟩

/-! ## Step by step -/

/-- A number without the property is passed. -/
theorem isNth_of_not (h : ¬ p first) : IsNth p first n d ↔ IsNth p (first + 1) n d := by
  have hcount : Nat.count p (first + 1) = Nat.count p first := by simp [Nat.count_succ, h]
  constructor
  · rintro ⟨hle, hd, hn⟩
    have hne : first ≠ d := by rintro rfl; exact h hd
    exact ⟨by omega, hd, by omega⟩
  · rintro ⟨hle, hd, hn⟩
    exact ⟨by omega, hd, by omega⟩

/-- The search for the next number ends at the first one with the property. -/
theorem isNth_zero (h : p first) : IsNth p first 0 d ↔ d = first :=
  ⟨fun hd => hd.unique ⟨le_rfl, h, rfl⟩, by rintro rfl; exact ⟨le_rfl, h, rfl⟩⟩

/-- A number with the property is counted. -/
theorem isNth_succ (h : p first) : IsNth p first (n + 1) d ↔ IsNth p (first + 1) n d := by
  have hcount : Nat.count p (first + 1) = Nat.count p first + 1 := by simp [Nat.count_succ, h]
  constructor
  · rintro ⟨hle, hd, hn⟩
    have hne : first ≠ d := by rintro rfl; omega
    exact ⟨by omega, hd, by omega⟩
  · rintro ⟨hle, hd, hn⟩
    exact ⟨by omega, hd, by omega⟩

/-! ## Bounds -/

/-- **The number is found up to a bound** if there are enough of them. -/
theorem exists_isNth_le_iff {last : ℕ} (hle : first ≤ last + 1) :
    (∃ d, IsNth p first n d ∧ d ≤ last) ↔ n < countIn p first last := by
  have hmono : Nat.count p first ≤ Nat.count p (last + 1) := Nat.count_monotone p hle
  constructor
  · rintro ⟨d, ⟨-, hd, hn⟩, hlast⟩
    have hlt : Nat.count p d < Nat.count p (last + 1) := Nat.count_strict_mono hd (by omega)
    simp only [countIn]
    omega
  · intro h
    have hlt : Nat.count p first + n < Nat.count p (last + 1) := by
      simp only [countIn] at h
      omega
    have hfin : ∀ hf : (Set.ofPred p).Finite, Nat.count p first + n < hf.toFinset.card :=
      fun hf => hlt.trans_le (Nat.count_le_card hf _)
    have hcount := Nat.count_nth hfin
    refine ⟨Nat.nth p (Nat.count p first + n), ⟨?_, Nat.nth_mem _ hfin, hcount⟩,
      Nat.lt_succ_iff.mp (Nat.nth_lt_of_lt_count hlt)⟩
    by_contra hbefore
    have hless := Nat.count_strict_mono (Nat.nth_mem _ hfin) (not_le.mp hbefore)
    omega

/-- The number that no other one precedes is the least one. -/
theorem isNth_zero_iff : IsNth p first 0 d ↔ first ≤ d ∧ p d ∧ ∀ e, first ≤ e → p e → d ≤ e := by
  constructor
  · rintro ⟨hle, hd, hn⟩
    refine ⟨hle, hd, fun e hfirst he => le_of_not_gt fun hlt => ?_⟩
    have hless := Nat.count_strict_mono he hlt
    have hmono := Nat.count_monotone p hfirst
    omega
  · rintro ⟨hle, hd, hleast⟩
    have hmono := Nat.count_monotone p hle
    have hcount : 0 < countIn p first d := by
      rw [countIn, Nat.count_succ, if_pos hd]
      omega
    obtain ⟨e, hnth, hed⟩ := (exists_isNth_le_iff (by omega)).mpr hcount
    rwa [← hed.antisymm (hleast e hnth.first_le hnth.holds)]

/-- Up to the bound there are too few numbers. -/
theorem forall_isNth_gt_iff {last : ℕ} (hle : first ≤ last + 1) :
    (∀ d, IsNth p first n d → last < d) ↔ countIn p first last ≤ n := by
  rw [← not_lt, ← exists_isNth_le_iff hle]
  simp

/-! ## Windows -/

/-- Counts grow alike where two properties agree. -/
theorem count_congr_from (hle : first ≤ d) (h : ∀ k, first ≤ k → k < d → (q k ↔ p k)) :
    Nat.count q d + Nat.count p first = Nat.count p d + Nat.count q first := by
  induction d, hle using Nat.le_induction with
  | base => omega
  | succ d hle ih =>
    have hd : (if q d then 1 else 0) = if p d then 1 else 0 :=
      if_congr (h d hle (Nat.lt_succ_self d)) rfl rfl
    have ih := ih fun k hk hkd => h k hk (Nat.lt_succ_of_lt hkd)
    rw [Nat.count_succ, Nat.count_succ, hd]
    omega

/-- **The search in a window** finds what the whole search finds there, and nothing else. -/
theorem isNth_window_iff {last : ℕ} (h : ∀ k, first ≤ k → (q k ↔ p k ∧ k ≤ last)) :
    IsNth q first n d ↔ IsNth p first n d ∧ d ≤ last := by
  have hagree : ∀ k, first ≤ k → k ≤ last → (q k ↔ p k) := fun k hk hlast => by
    rw [h k hk]
    exact and_iff_left hlast
  constructor
  · rintro ⟨hle, hd, hn⟩
    obtain ⟨hp, hlast⟩ := (h d hle).mp hd
    have hcount := count_congr_from hle fun k hk hkd => hagree k hk (by omega)
    exact ⟨⟨hle, hp, by omega⟩, hlast⟩
  · rintro ⟨⟨hle, hd, hn⟩, hlast⟩
    have hcount := count_congr_from hle fun k hk hkd => hagree k hk (by omega)
    exact ⟨hle, (h d hle).mpr ⟨hd, hlast⟩, by omega⟩

end Search
