import Mathlib.Data.List.Basic
import Mathlib.Order.Nat

/-!
# Repeated attempts

A client delivers items one after another, each by attempts that are repeated while they fail, up
to a bound. It stops at the first item that is refused or not accepted in time. The attempts are
answered by a stream, one answer a call.

## Main definitions

* `Reply`: what an answer means for the client
* `tries`: the answers to the attempts for one item
* `legs`: the items that are attempted, with their answers; `complete`: they are all accepted
* `InTime`: an item is accepted within the bound, and not refused before
* `start`: the call that the attempts for an item begin with

## Main results

* `delivered_tries_iff`: the last attempt is accepted if and only if the item is in time
* `mem_legs_iff`: the items that are attempted are those before which all are in time
* `complete_legs_iff`: all attempted items are accepted if and only if all items are in time
* `exists_dropLast_iff`: the answers that are followed by another attempt for their item
* `forall_inTime_iff_of_le`: what a smaller bound makes of the items that are in time
-/

namespace Retry

/-- What an answer means: the item is accepted, refused for good, or the attempt failed. -/
inductive Reply where
  | accepted
  | refused
  | failed
deriving DecidableEq, Repr

variable {α ι : Type} (reply : α → Reply) (answer : ℕ → α)

/-! ## One item -/

/-- The answers to the attempts for one item, at most `left` from the `n`-th call on. -/
def tries : (left n : ℕ) → List α
  | 0, _ => []
  | left + 1, n => answer n :: if reply (answer n) = .failed then tries left (n + 1) else []

/-- The last attempt was accepted. -/
def delivered (answers : List α) : Bool := answers.getLast?.any fun a => reply a = .accepted

/-- An item whose attempts begin with the `n`-th call is accepted within `left` attempts, and not
refused before. -/
def InTime (left n : ℕ) : Prop :=
  ∃ k < left, reply (answer (n + k)) = .accepted ∧ ∀ j < k, reply (answer (n + j)) ≠ .refused

section Item

variable {reply answer} {left n : ℕ}

/-- A property of the first `k + 1` calls, the first one apart. -/
theorem forall_calls_succ (P : α → Prop) {k : ℕ} :
    (∀ j < k + 1, P (answer (n + j))) ↔
      P (answer n) ∧ ∀ j < k, P (answer (n + 1 + j)) := by
  rw [Nat.forall_lt_succ_left, Nat.add_zero]
  exact and_congr_right fun _ => forall₂_congr fun j _ => by
    rw [Nat.add_right_comm, Nat.add_assoc]

theorem tries_of_failed (h : reply (answer n) = .failed) :
    tries reply answer (left + 1) n = answer n :: tries reply answer left (n + 1) := by
  rw [tries, if_pos h]

theorem tries_of_not_failed (h : reply (answer n) ≠ .failed) :
    tries reply answer (left + 1) n = [answer n] := by
  rw [tries, if_neg h]

theorem length_tries_le (left n : ℕ) : (tries reply answer left n).length ≤ left := by
  induction left generalizing n with
  | zero => exact le_rfl
  | succ left ih =>
    by_cases h : reply (answer n) = .failed
    · rw [tries_of_failed h, List.length_cons]
      exact Nat.succ_le_succ (ih (n + 1))
    · rw [tries_of_not_failed h, List.length_singleton]
      exact Nat.succ_le_succ (Nat.zero_le left)

/-- The `k`-th attempt for an item is the `k`-th call from the first one on. -/
theorem getElem_tries {k : ℕ} {a : α} (h : (tries reply answer left n)[k]? = some a) :
    a = answer (n + k) := by
  induction left generalizing n k with
  | zero => cases h
  | succ left ih =>
    cases k with
    | zero =>
      rw [tries, List.getElem?_cons_zero] at h
      exact (Option.some.inj h).symm
    | succ k =>
      by_cases hfailed : reply (answer n) = .failed
      · rw [tries_of_failed hfailed, List.getElem?_cons_succ] at h
        rw [ih h, Nat.add_right_comm, Nat.add_assoc]
      · rw [tries_of_not_failed hfailed] at h
        cases h

/-- The attempts that are made: those before which all have failed. -/
theorem mem_tries_iff {a : α} :
    a ∈ tries reply answer left n ↔
      ∃ k < left, (∀ j < k, reply (answer (n + j)) = .failed) ∧ a = answer (n + k) := by
  induction left generalizing n with
  | zero => simp [tries]
  | succ left ih =>
    rw [tries, List.mem_cons]
    constructor
    · rintro (rfl | hrest)
      · exact ⟨0, Nat.succ_pos left, by simp, rfl⟩
      · split at hrest
        next hfailed =>
          obtain ⟨k, hk, hpast, rfl⟩ := ih.mp hrest
          refine ⟨k + 1, Nat.succ_lt_succ hk,
            (forall_calls_succ (reply · = .failed)).mpr ⟨hfailed, hpast⟩, ?_⟩
          rw [Nat.add_right_comm, Nat.add_assoc]
        · cases hrest
    · rintro ⟨k, hk, hpast, rfl⟩
      cases k with
      | zero => exact .inl rfl
      | succ k =>
        obtain ⟨hfirst, hpast⟩ := (forall_calls_succ (reply · = .failed)).mp hpast
        right
        rw [if_pos hfirst]
        refine ih.mpr ⟨k, Nat.lt_of_succ_lt_succ hk, hpast, ?_⟩
        rw [Nat.add_right_comm, Nat.add_assoc]

/-- The answers that are followed by another attempt: those of attempts that failed before the
bound. -/
theorem mem_dropLast_tries_iff {a : α} :
    a ∈ (tries reply answer left n).dropLast ↔
      ∃ k, k + 1 < left ∧ (∀ j ≤ k, reply (answer (n + j)) = .failed) ∧ a = answer (n + k) := by
  simp only [← Nat.lt_add_one_iff]
  induction left generalizing n with
  | zero => simp [tries]
  | succ left ih =>
    by_cases hfailed : reply (answer n) = .failed
    · rw [tries_of_failed hfailed]
      cases left with
      | zero => simp [tries]
      | succ left =>
        have hne : tries reply answer (left + 1) (n + 1) ≠ [] := by simp [tries]
        rw [List.dropLast_cons_of_ne_nil hne, List.mem_cons, ih]
        constructor
        · rintro (rfl | ⟨k, hk, hpast, rfl⟩)
          · exact ⟨0, by omega, (forall_calls_succ (reply · = .failed)).mpr ⟨hfailed, by simp⟩, rfl⟩
          · exact ⟨k + 1, by omega, (forall_calls_succ (reply · = .failed)).mpr ⟨hfailed, hpast⟩, by
              rw [Nat.add_right_comm, Nat.add_assoc]⟩
        · rintro ⟨k, hk, hpast, rfl⟩
          cases k with
          | zero => exact .inl rfl
          | succ k =>
            refine .inr ⟨k, by omega, ((forall_calls_succ (reply · = .failed)).mp hpast).2, ?_⟩
            rw [Nat.add_right_comm, Nat.add_assoc]
    · rw [tries_of_not_failed hfailed]
      refine iff_of_false (by simp) ?_
      rintro ⟨k, -, hpast, -⟩
      exact hfailed ((forall_calls_succ (reply · = .failed)).mp hpast).1

/-- An attempt that has not failed is the last one. -/
theorem getLast_tries_of_mem {a : α} (h : a ∈ tries reply answer left n)
    (hreply : reply a ≠ .failed) : (tries reply answer left n).getLast? = some a := by
  have hne := List.ne_nil_of_mem h
  rw [← List.dropLast_concat_getLast hne, List.mem_append, List.mem_singleton] at h
  rcases h with hmem | rfl
  · obtain ⟨k, -, hfailed, rfl⟩ := mem_dropLast_tries_iff.mp hmem
    exact absurd (hfailed k le_rfl) hreply
  · exact List.getLast?_eq_getLast_of_ne_nil hne

theorem delivered_cons_of_ne_nil {a : α} {answers : List α} (h : answers ≠ []) :
    delivered reply (a :: answers) = delivered reply answers := by
  obtain ⟨b, answers, rfl⟩ := List.exists_cons_of_ne_nil h
  rw [delivered, List.getLast?_cons_cons, delivered]

/-- After a failure, an item is in time if it is from the next call on, with an attempt less. -/
theorem inTime_succ_iff (hfailed : reply (answer n) = .failed) :
    InTime reply answer left (n + 1) ↔ InTime reply answer (left + 1) n := by
  have hfirst : reply (answer n) ≠ .refused := by rw [hfailed]; decide
  constructor
  · rintro ⟨k, hk, haccepted, hbefore⟩
    refine ⟨k + 1, Nat.succ_lt_succ hk, ?_,
      (forall_calls_succ (reply · ≠ .refused)).mpr ⟨hfirst, hbefore⟩⟩
    rwa [← Nat.add_assoc, Nat.add_right_comm]
  · rintro ⟨k, hk, haccepted, hbefore⟩
    cases k with
    | zero =>
      rw [Nat.add_zero, hfailed] at haccepted
      cases haccepted
    | succ k =>
      refine ⟨k, Nat.lt_of_succ_lt_succ hk, ?_,
        ((forall_calls_succ (reply · ≠ .refused)).mp hbefore).2⟩
      rwa [Nat.add_right_comm, Nat.add_assoc]

/-- **An item is delivered if and only if it is in time**. -/
theorem delivered_tries_iff :
    delivered reply (tries reply answer left n) = true ↔ InTime reply answer left n := by
  induction left generalizing n with
  | zero => simp [tries, delivered, InTime]
  | succ left ih =>
    cases hreply : reply (answer n) with
    | accepted =>
      rw [tries_of_not_failed (by rw [hreply]; decide)]
      exact iff_of_true (by simp [delivered, hreply]) ⟨0, by omega, hreply, by simp⟩
    | refused =>
      rw [tries_of_not_failed (by rw [hreply]; decide)]
      refine iff_of_false (by simp [delivered, hreply]) ?_
      rintro ⟨k, -, haccepted, hbefore⟩
      cases k with
      | zero => rw [Nat.add_zero, hreply] at haccepted; cases haccepted
      | succ k => exact hbefore 0 (Nat.succ_pos k) hreply
    | failed =>
      rw [tries_of_failed hreply, ← inTime_succ_iff hreply, ← ih]
      cases left with
      | zero => simp [tries, delivered, hreply]
      | succ left => rw [delivered_cons_of_ne_nil (by rw [tries]; exact List.cons_ne_nil _ _)]

theorem InTime.mono {left' : ℕ} (hle : left ≤ left') (h : InTime reply answer left n) :
    InTime reply answer left' n := by
  obtain ⟨k, hk, haccepted, hbefore⟩ := h
  exact ⟨k, hk.trans_le hle, haccepted, hbefore⟩

/-- An item that is in time is attempted no more often if the bound is larger. -/
theorem tries_of_inTime {left' : ℕ} (hle : left ≤ left') (h : InTime reply answer left n) :
    tries reply answer left' n = tries reply answer left n := by
  induction left generalizing left' n with
  | zero =>
    obtain ⟨k, hk, -⟩ := h
    exact absurd hk (Nat.not_lt_zero k)
  | succ left ih =>
    obtain ⟨left', rfl⟩ : ∃ m, left' = m + 1 := ⟨left' - 1, by omega⟩
    by_cases hfailed : reply (answer n) = .failed
    · rw [tries_of_failed hfailed, tries_of_failed hfailed,
        ih (Nat.le_of_succ_le_succ hle) ((inTime_succ_iff hfailed).mpr h)]
    · rw [tries_of_not_failed hfailed, tries_of_not_failed hfailed]

end Item

/-! ## All items -/

/-- The items that are attempted, with the answers to their attempts, from the `n`-th call on. -/
def legs (left : ℕ) : List ι → ℕ → List (ι × List α)
  | [], _ => []
  | item :: items, n =>
    let answers := tries reply answer left n
    (item, answers) ::
      if delivered reply answers then legs left items (n + answers.length) else []

/-- The last attempt for each item was accepted. -/
def complete (posted : List (ι × List α)) : Bool := posted.all fun leg => delivered reply leg.2

/-- The call that the attempts for the `i`-th item begin with, if those for the first one begin
with the `n`-th call. -/
def start (left : ℕ) : (n i : ℕ) → ℕ
  | n, 0 => n
  | n, i + 1 => start left (n + (tries reply answer left n).length) i

section Items

variable {reply answer} {left n : ℕ} {items : List ι}

/-- Every item before which all are in time is attempted, and no other. -/
theorem mem_legs_iff {leg : ι × List α} :
    leg ∈ legs reply answer left items n ↔
      ∃ i, ∃ hi : i < items.length,
        (∀ j < i, InTime reply answer left (start reply answer left n j)) ∧
          leg = (items[i], tries reply answer left (start reply answer left n i)) := by
  induction items generalizing n with
  | nil => simp [legs]
  | cons item items ih =>
    rw [legs, List.mem_cons]
    constructor
    · rintro (rfl | hrest)
      · exact ⟨0, Nat.succ_pos _, by simp, rfl⟩
      · split at hrest
        next hfirst =>
          obtain ⟨i, hi, hbefore, rfl⟩ := ih.mp hrest
          refine ⟨i + 1, Nat.succ_lt_succ hi, fun j hj => ?_, rfl⟩
          cases j with
          | zero => exact delivered_tries_iff.mp hfirst
          | succ j => exact hbefore j (Nat.lt_of_succ_lt_succ hj)
        · cases hrest
    · rintro ⟨i, hi, hbefore, rfl⟩
      cases i with
      | zero => exact .inl rfl
      | succ i =>
        have hfirst : InTime reply answer left n := hbefore 0 (Nat.succ_pos i)
        right
        rw [if_pos (delivered_tries_iff.mpr hfirst)]
        exact ih.mpr ⟨i, Nat.lt_of_succ_lt_succ hi, fun j hj => hbefore (j + 1) (by omega), rfl⟩

/-- The items are attempted in their order. -/
theorem map_fst_legs_prefix : (legs reply answer left items n).map Prod.fst <+: items := by
  induction items generalizing n with
  | nil => simp [legs]
  | cons item items ih =>
    simp only [legs, List.map_cons]
    split
    · exact (List.prefix_cons_inj item).mpr ih
    · exact (List.prefix_cons_inj item).mpr List.nil_prefix

/-- An item is attempted after all items before it were delivered. -/
theorem delivered_of_legs_split {before after : List (ι × List α)} {leg : ι × List α}
    (h : legs reply answer left items n = before ++ leg :: after) :
    ∀ earlier ∈ before, delivered reply earlier.2 = true := by
  induction items generalizing n before with
  | nil => simp [legs] at h
  | cons item items ih =>
    cases before with
    | nil => simp
    | cons first before =>
      rw [legs] at h
      obtain ⟨rfl, hrest⟩ := List.cons.inj h
      split at hrest
      next hfirst => exact List.forall_mem_cons.mpr ⟨hfirst, ih hrest⟩
      · exact absurd (congrArg List.length hrest) (by simp)

/-- The items are attempted until one is not delivered. -/
theorem map_fst_legs_of_complete (h : complete reply (legs reply answer left items n) = true) :
    (legs reply answer left items n).map Prod.fst = items := by
  induction items generalizing n with
  | nil => rfl
  | cons item items ih =>
    simp only [legs, complete, List.all_cons, Bool.and_eq_true] at h ⊢
    obtain ⟨hfirst, hrest⟩ := h
    rw [if_pos hfirst] at hrest ⊢
    rw [List.map_cons, ih hrest]

/-- **All attempted items are delivered if and only if all items are in time**. -/
theorem complete_legs_iff :
    complete reply (legs reply answer left items n) = true ↔
      ∀ i < items.length, InTime reply answer left (start reply answer left n i) := by
  rw [complete, List.all_eq_true]
  constructor
  · intro h i hi
    induction i using Nat.strong_induction_on with
    | h i ih =>
      have hmem := mem_legs_iff.mpr ⟨i, hi, fun j hj => ih j hj (hj.trans hi), rfl⟩
      exact delivered_tries_iff.mp (h _ hmem)
  · intro h leg hleg
    obtain ⟨i, hi, -, rfl⟩ := mem_legs_iff.mp hleg
    exact delivered_tries_iff.mpr (h i hi)

/-- The attempts for the `i`-th item that is attempted. -/
theorem getElem_legs {i : ℕ} {leg : ι × List α}
    (h : (legs reply answer left items n)[i]? = some leg) :
    leg.2 = tries reply answer left (start reply answer left n i) := by
  induction items generalizing n i with
  | nil => simp [legs] at h
  | cons item items ih =>
    rw [legs] at h
    cases i with
    | zero =>
      rw [List.getElem?_cons_zero] at h
      cases h
      rfl
    | succ i =>
      rw [List.getElem?_cons_succ] at h
      split at h
      · have hrest := ih h
        exact hrest
      · simp at h

/-- The answers to the attempts for all items. -/
theorem exists_mem_iff {a : α} :
    (∃ leg ∈ legs reply answer left items n, a ∈ leg.2) ↔
      ∃ i < items.length, (∀ j < i, InTime reply answer left (start reply answer left n j)) ∧
        ∃ k < left, (∀ j < k, reply (answer (start reply answer left n i + j)) = .failed) ∧
          a = answer (start reply answer left n i + k) := by
  constructor
  · rintro ⟨leg, hleg, ha⟩
    obtain ⟨i, hi, hbefore, rfl⟩ := mem_legs_iff.mp hleg
    exact ⟨i, hi, hbefore, mem_tries_iff.mp ha⟩
  · rintro ⟨i, hi, hbefore, ha⟩
    exact ⟨_, mem_legs_iff.mpr ⟨i, hi, hbefore, rfl⟩, mem_tries_iff.mpr ha⟩

/-- **The answers that are followed by another attempt for their item**. -/
theorem exists_dropLast_iff {a : α} :
    (∃ leg ∈ legs reply answer left items n, a ∈ leg.2.dropLast) ↔
      ∃ i < items.length, (∀ j < i, InTime reply answer left (start reply answer left n j)) ∧
        ∃ k, k + 1 < left ∧
          (∀ j ≤ k, reply (answer (start reply answer left n i + j)) = .failed) ∧
            a = answer (start reply answer left n i + k) := by
  constructor
  · rintro ⟨leg, hleg, ha⟩
    obtain ⟨i, hi, hbefore, rfl⟩ := mem_legs_iff.mp hleg
    exact ⟨i, hi, hbefore, mem_dropLast_tries_iff.mp ha⟩
  · rintro ⟨i, hi, hbefore, ha⟩
    exact ⟨_, mem_legs_iff.mpr ⟨i, hi, hbefore, rfl⟩, mem_dropLast_tries_iff.mpr ha⟩

/-- As long as the items are in time, a larger bound does not change where the next one begins. -/
theorem start_of_inTime {left' i : ℕ} (hle : left ≤ left')
    (h : ∀ j < i, InTime reply answer left (start reply answer left n j)) :
    start reply answer left' n i = start reply answer left n i := by
  induction i generalizing n with
  | zero => rfl
  | succ i ih =>
    have hfirst : InTime reply answer left n := h 0 (Nat.succ_pos i)
    rw [start, start, tries_of_inTime hle hfirst]
    exact ih fun j hj => h (j + 1) (Nat.succ_lt_succ hj)

/-- **What a smaller bound makes of the items**: all items are in time within it if and only if
they are within the larger one and each is accepted within the smaller one. -/
theorem forall_inTime_iff_of_le {left' count : ℕ} (hle : left ≤ left') :
    (∀ i < count, InTime reply answer left (start reply answer left n i)) ↔
      (∀ i < count, InTime reply answer left' (start reply answer left' n i)) ∧
        ∀ i < count, ∃ k < left, reply (answer (start reply answer left' n i + k)) = .accepted := by
  constructor
  · intro h
    have hstart : ∀ i < count, start reply answer left' n i = start reply answer left n i :=
      fun i hi => start_of_inTime hle fun j hj => h j (hj.trans hi)
    refine ⟨fun i hi => ?_, fun i hi => ?_⟩
    · rw [hstart i hi]
      exact (h i hi).mono hle
    · rw [hstart i hi]
      obtain ⟨k, hk, haccepted, -⟩ := h i hi
      exact ⟨k, hk, haccepted⟩
  · rintro ⟨hall, hearly⟩ i hi
    induction i using Nat.strong_induction_on with
    | h i ih =>
      rw [← start_of_inTime hle fun j hj => ih j hj (hj.trans hi)]
      obtain ⟨k', hk', haccepted', hbefore⟩ := hall i hi
      obtain ⟨k, hk, haccepted⟩ := hearly i hi
      rcases Nat.le_total k k' with hfirst | hfirst
      · exact ⟨k, hk, haccepted, fun j hj => hbefore j (hj.trans_le hfirst)⟩
      · exact ⟨k', hfirst.trans_lt hk, haccepted', hbefore⟩

end Items

end Retry
