import Mathlib.Data.List.Sort
import Mathlib.Order.Defs.LinearOrder

/-!
# Pages of a table

A table is read page by page, each page with a query of its own that sorts the rows by a key, the
highest first. Rows with one key come in any order, which may be another one for each query. The
pages put end to end have every row once, whatever the orders are, if and only if no group of rows
with one key extends over the end of a page.

## Main definitions

* `Arranged`: a list of rows as a query may sort them
* `page`, `pageNumbers`: a page of a sorted list, and the numbers of all pages
* `Straddles`: a group of rows with one key extends over a position

## Main results

* `take_perm_take`: where no group extends over a position, the rows before it are always the same
* `pages_perm_iff`: when the pages have every row once
-/

namespace Paging

variable {α κ : Type} [LinearOrder κ] {key : α → κ} {rows out out' : List α}

/-- The rows as a query may sort them: the highest key first, equal keys in any order. -/
structure Arranged (key : α → κ) (rows out : List α) : Prop where
  perm : out.Perm rows
  sorted : out.Pairwise fun a b => key b ≤ key a

/-- There is a way to sort the rows. -/
theorem exists_arranged (key : α → κ) (rows : List α) : ∃ out, Arranged key rows out := by
  refine ⟨rows.mergeSort fun a b => decide (key b ≤ key a), rows.mergeSort_perm _, ?_⟩
  refine (List.pairwise_mergeSort (fun a b c hab hbc => ?_) (fun a b => ?_) rows).imp fun h =>
    of_decide_eq_true h
  · exact decide_eq_true ((of_decide_eq_true hbc).trans (of_decide_eq_true hab))
  · simpa using le_total (key b) (key a)

/-! ## Positions -/

/-- A group of rows, those with the key `t`, extends over the position `n`. -/
def Straddles (key : α → κ) (rows : List α) (n : ℕ) (t : κ) : Prop :=
  rows.countP (fun a => t < key a) < n ∧ n < rows.countP fun a => t ≤ key a

instance (key : α → κ) (rows : List α) (n : ℕ) (t : κ) : Decidable (Straddles key rows n t) :=
  inferInstanceAs (Decidable (_ ∧ _))

section Sorted

variable {P : κ → Prop}

/-- Below a row whose key does not have an upward closed property, no row has it. -/
theorem forall_not_of_head (hP : ∀ x y, x ≤ y → P x → P y) {a : α}
    (hout : (a :: out).Pairwise fun a b => key b ≤ key a) (ha : ¬ P (key a)) :
    ∀ b ∈ a :: out, ¬ P (key b) :=
  List.forall_mem_cons.mpr
    ⟨ha, fun b hb hb' => ha (hP _ _ ((List.pairwise_cons.mp hout).1 b hb) hb')⟩

variable [DecidablePred P]

/-- **The rows above a key** are the first ones of a sorted list. -/
theorem filter_eq_take (hP : ∀ x y, x ≤ y → P x → P y)
    (hout : out.Pairwise fun a b => key b ≤ key a) :
    out.filter (fun a => P (key a)) = out.take (out.countP fun a => P (key a)) := by
  induction out with
  | nil => rfl
  | cons a out ih =>
    by_cases ha : P (key a)
    · rw [List.filter_cons_of_pos (by simpa using ha), List.countP_cons_of_pos (by simpa using ha),
        List.take_succ_cons, ih (List.pairwise_cons.mp hout).2]
    · have hnone := forall_not_of_head hP hout ha
      rw [List.filter_eq_nil_iff.mpr (by simpa using hnone),
        List.countP_eq_zero.mpr (by simpa using hnone), List.take_zero]

/-- **The first rows above a key**: all of them, or as many as are taken. -/
theorem countP_take (hP : ∀ x y, x ≤ y → P x → P y)
    (hout : out.Pairwise fun a b => key b ≤ key a) (n : ℕ) :
    (out.take n).countP (fun a => P (key a)) = min (out.countP fun a => P (key a)) n := by
  induction out generalizing n with
  | nil => simp
  | cons a out ih =>
    cases n with
    | zero => simp
    | succ n =>
      by_cases ha : P (key a)
      · rw [List.take_succ_cons, List.countP_cons_of_pos (by simpa using ha),
          List.countP_cons_of_pos (by simpa using ha), ih (List.pairwise_cons.mp hout).2,
          Nat.add_min_add_right]
      · have hnone := forall_not_of_head hP hout ha
        have hall : (a :: out).countP (fun a => P (key a)) = 0 :=
          List.countP_eq_zero.mpr (by simpa using hnone)
        have htaken : ((a :: out).take (n + 1)).countP (fun a => P (key a)) = 0 :=
          List.countP_eq_zero.mpr fun b hb => by simpa using hnone b (List.mem_of_mem_take hb)
        rw [hall, htaken, Nat.zero_min]

/-- A position of a sorted list is among the rows above a key if its row is above the key. -/
theorem lt_countP_iff (hP : ∀ x y, x ≤ y → P x → P y)
    (hout : out.Pairwise fun a b => key b ≤ key a) {n : ℕ} (hn : n < out.length) :
    n < out.countP (fun a => P (key a)) ↔ P (key out[n]) := by
  induction out generalizing n with
  | nil => cases hn
  | cons a out ih =>
    by_cases ha : P (key a)
    · rw [List.countP_cons_of_pos (by simpa using ha)]
      cases n with
      | zero => simpa using ha
      | succ n =>
        rw [Nat.succ_lt_succ_iff]
        exact ih (List.pairwise_cons.mp hout).2 (Nat.succ_lt_succ_iff.mp hn)
    · have hnone := forall_not_of_head hP hout ha
      rw [List.countP_eq_zero.mpr (by simpa using hnone)]
      exact iff_of_false (Nat.not_lt_zero n) (hnone _ (List.getElem_mem hn))

end Sorted

section Groups

variable (h : Arranged key rows out) {n : ℕ} {t : κ}
include h

theorem Arranged.lt_countP_le_iff (hn : n < out.length) :
    n < rows.countP (fun a => t ≤ key a) ↔ t ≤ key out[n] := by
  rw [← h.perm.countP_eq]
  exact lt_countP_iff (fun _ _ hxy hx => hx.trans hxy) h.sorted hn

theorem Arranged.lt_countP_lt_iff (hn : n < out.length) :
    n < rows.countP (fun a => t < key a) ↔ t < key out[n] := by
  rw [← h.perm.countP_eq]
  exact lt_countP_iff (fun _ _ hxy hx => hx.trans_le hxy) h.sorted hn

/-- Where a group extends over a position, the rows on both sides of it have its key. -/
theorem Arranged.split_of_straddles (hs : Straddles key rows n t) :
    ∃ front a b back, out = front ++ a :: b :: back ∧ front.length + 1 = n ∧ key a = t ∧
      key b = t := by
  obtain ⟨habove, hbelow⟩ := hs
  obtain ⟨m, rfl⟩ : ∃ m, n = m + 1 := ⟨n - 1, by omega⟩
  have hlength : m + 1 < out.length := by
    rw [h.perm.length_eq]
    exact hbelow.trans_le List.countP_le_length
  have hm : m < out.length := by omega
  refine ⟨out.take m, out[m], out[m + 1], out.drop (m + 2), ?_, ?_, ?_, ?_⟩
  · rw [← List.drop_eq_getElem_cons, ← List.drop_eq_getElem_cons, List.take_append_drop]
  · rw [List.length_take, min_eq_left hm.le]
  · refine le_antisymm (not_lt.mp fun hlt => ?_) ((h.lt_countP_le_iff hm).mp (by omega))
    have hcount := (h.lt_countP_lt_iff hm).mpr hlt
    omega
  · refine le_antisymm (not_lt.mp fun hlt => ?_) ((h.lt_countP_le_iff hlength).mp hbelow)
    have hcount := (h.lt_countP_lt_iff hlength).mpr hlt
    omega

/-- Rows with keys of their own form no groups. -/
theorem Arranged.not_straddles_of_nodup (hkeys : (rows.map key).Nodup) :
    ¬ Straddles key rows n t := by
  intro hs
  obtain ⟨front, a, b, back, rfl, -, ha, hb⟩ := h.split_of_straddles hs
  have hnodup := (h.perm.map key).nodup_iff.mpr hkeys
  simp [List.nodup_append, ha, hb] at hnodup

/-- **Where no group extends over a position**, the rows before it are the same for all queries. -/
theorem Arranged.take_perm_take (h' : Arranged key rows out')
    (hn : ∀ t, ¬ Straddles key rows n t) : (out.take n).Perm (out'.take n) := by
  have hperm : out.Perm out' := h.perm.trans h'.perm.symm
  by_cases hlength : out.length ≤ n
  · rw [List.take_of_length_le hlength, List.take_of_length_le (hperm.length_eq ▸ hlength)]
    exact hperm
  cases n with
  | zero => simp
  | succ m =>
    have hm : m < out.length := by omega
    have habove : ¬ m < rows.countP fun a => key out[m] < key a :=
      fun hlt => lt_irrefl _ ((h.lt_countP_lt_iff hm).mp hlt)
    have hbelow : m < rows.countP fun a => key out[m] ≤ key a :=
      (h.lt_countP_le_iff hm).mpr le_rfl
    have hcount : rows.countP (fun a => key out[m] ≤ key a) = m + 1 := by
      by_contra hne
      exact hn (key out[m]) ⟨by omega, by omega⟩
    have hup : ∀ x y, x ≤ y → key out[m] ≤ x → key out[m] ≤ y := fun _ _ hxy hx => hx.trans hxy
    have htake : out.take (m + 1) = out.filter fun a => key out[m] ≤ key a := by
      rw [filter_eq_take hup h.sorted, h.perm.countP_eq, hcount]
    have htake' : out'.take (m + 1) = out'.filter fun a => key out[m] ≤ key a := by
      rw [filter_eq_take hup h'.sorted, h'.perm.countP_eq, hcount]
    rw [htake, htake']
    exact hperm.filter _

end Groups

/-! ## Pages -/

/-- The page with the given number, the first one being 1. -/
def page (size number : ℕ) (out : List α) : List α := (out.drop ((number - 1) * size)).take size

/-- The numbers of the pages of a table with `total` rows. -/
def pageNumbers (size total : ℕ) : List ℕ := List.range' 1 ((total + size - 1) / size)

/-- The pages have room for all rows. -/
theorem le_pages_mul {size : ℕ} (hsize : 1 ≤ size) (total : ℕ) :
    total ≤ (total + size - 1) / size * size := by
  have hlt := Nat.lt_div_mul_add (a := total + size - 1) (b := size) hsize
  omega

/-- Pages of one list, put end to end. -/
theorem flatMap_page (size start count : ℕ) (out : List α) :
    (List.range' (start + 1) count).flatMap (fun number => page size number out) =
      (out.drop (start * size)).take (count * size) := by
  induction count generalizing start with
  | zero => simp
  | succ count ih =>
    rw [List.range'_succ, List.flatMap_cons, ih, page, Nat.add_sub_cancel, Nat.succ_mul count,
      Nat.add_comm (count * size), List.take_add, List.drop_drop, Nat.succ_mul]

/-- The first pages of one list, followed by the later ones of another. -/
theorem flatMap_page_switch (size number later : ℕ) (out out' : List α) :
    ((List.range' 1 (number + later)).flatMap fun j =>
        page size j (if j ≤ number then out else out')) =
      out.take (number * size) ++ (out'.drop (number * size)).take (later * size) := by
  have hfirst : ∀ j ∈ List.range' 1 number,
      page size j (if j ≤ number then out else out') = page size j out := by
    intro j hj
    have hle := List.mem_range'_1.mp hj
    rw [if_pos (by omega)]
  have hlater : ∀ j ∈ List.range' (1 + number) later,
      page size j (if j ≤ number then out else out') = page size j out' := by
    intro j hj
    have hlt := List.mem_range'_1.mp hj
    rw [if_neg (by omega)]
  rw [← List.range'_append_1, List.flatMap_append, List.flatMap_congr hfirst,
    List.flatMap_congr hlater, Nat.add_comm 1 number, flatMap_page, flatMap_page,
    Nat.zero_mul, List.drop_zero]

/-- Where no group extends over the end of a page, the pages of several queries are, put end to
end, the first rows of any other. -/
theorem flatMap_page_perm {size : ℕ} {out : ℕ → List α}
    (h : ∀ number, Arranged key rows (out number))
    (hn : ∀ number t, ¬ Straddles key rows (number * size) t) (count : ℕ) :
    ((List.range' 1 count).flatMap fun number => page size number (out number)).Perm
      ((out 0).take (count * size)) := by
  induction count with
  | zero => simp
  | succ count ih =>
    -- what has been read is what the next query has before its page
    have hbefore := ih.trans ((h 0).take_perm_take (h (1 + count)) (hn count))
    have hafter := (h (1 + count)).take_perm_take (h 0) (hn (count + 1))
    rw [List.range'_concat, Nat.one_mul, List.flatMap_append, List.flatMap_singleton]
    refine (hbefore.append_right _).trans ?_
    rwa [page, Nat.add_sub_cancel_left, ← List.take_add, ← Nat.succ_mul]

/-- Two rows with one key may change places. -/
theorem Arranged.swap {front back : List α} {a b : α}
    (h : Arranged key rows (front ++ a :: b :: back)) (hkey : key a = key b) :
    Arranged key rows (front ++ b :: a :: back) := by
  refine ⟨((List.Perm.swap a b back).append_left front).trans h.perm, ?_⟩
  have hsorted := h.sorted
  rw [← List.pairwise_map (R := fun x y => y ≤ x)] at hsorted ⊢
  simpa [hkey] using hsorted

/-- **The pages have every row once**, however the queries order rows with one key, if and only if
no group of them extends over the end of a page. -/
theorem pages_perm_iff (hrows : rows.Nodup) {size : ℕ} (hsize : 1 ≤ size) :
    (∀ out : ℕ → List α, (∀ number, Arranged key rows (out number)) →
      ((pageNumbers size rows.length).flatMap fun number => page size number (out number)).Perm
        rows) ↔
      ∀ number t, ¬ Straddles key rows (number * size) t := by
  have hcount := le_pages_mul hsize rows.length
  constructor
  · intro hpages number t hs
    obtain ⟨out, h⟩ := exists_arranged key rows
    obtain ⟨front, a, b, back, rfl, hlength, ha, hb⟩ := h.split_of_straddles hs
    have h' := h.swap (ha.trans hb.symm)
    have hnumber : number * size < rows.length := hs.2.trans_le List.countP_le_length
    obtain ⟨later, hlater⟩ : ∃ later, (rows.length + size - 1) / size = number + later :=
      ⟨_, (Nat.add_sub_of_le (Nat.le_of_mul_le_mul_right (hnumber.le.trans hcount) hsize)).symm⟩
    rw [hlater, Nat.add_mul] at hcount
    have hperm := hpages (fun j => if j ≤ number then front ++ a :: b :: back
      else front ++ b :: a :: back) fun j => by split <;> assumption
    rw [pageNumbers, hlater, flatMap_page_switch, List.take_of_length_le (i := later * size),
      ← hlength, List.take_length_add_append, List.drop_length_add_append] at hperm
    · have hnodup := hperm.nodup_iff.mpr hrows
      simp [List.nodup_append] at hnodup
    · rw [List.length_drop, h'.perm.length_eq]
      omega
  · intro hn out h
    refine (flatMap_page_perm h hn _).trans ?_
    rw [List.take_of_length_le (by rw [(h 0).perm.length_eq]; exact hcount)]
    exact (h 0).perm

end Paging
