import Mathlib.Data.List.AList
import Mathlib.Data.List.Induction
import Mathlib.Data.List.Sort

/-!
# Dictionaries

Dictionaries that a pass over a list of rows fills, each row at a key of its own, and that are read
in the order of their keys. What is read depends on the rows of each key alone.

## Main definitions

* `Dict`, `Dict.sortedItems`: a dictionary, and its items in the order of the keys
* `Dict.setDefault`: a key that is entered if it is missing
* `accumulate`: a pass that updates the value at the key of each row, and may fail
* `firstAndSecond`: a pass that keeps the first and the second row of each key

## Main results

* `Dict.pairwise_sortedItems`: the sorted items have strictly ascending keys
* `lookup_accumulate`, `exists_accumulate`: the value of a key, from the rows of the key
* `kept_firstAndSecond`: the first two rows of a key
-/

namespace Dictionaries

variable {α β κ : Type}

/-- A dictionary, with each key once. -/
abbrev Dict (κ β : Type) := AList fun _ : κ => β

/-! ## Sorted items -/

/-- Items whose keys differ are strictly ascending once they are sorted. -/
theorem pairwise_mergeSort_of_nodup [LinearOrder κ] {f : α → κ} {as : List α}
    (h : (as.map f).Nodup) : (as.mergeSort fun a b => f a ≤ f b).Pairwise fun a b => f a < f b := by
  have hle : (as.mergeSort fun a b => f a ≤ f b).Pairwise fun a b => f a ≤ f b := by
    refine (List.pairwise_mergeSort (fun a b c hab hbc => ?_) (fun a b => ?_) _).imp
      of_decide_eq_true
    · exact decide_eq_true ((of_decide_eq_true hab).trans (of_decide_eq_true hbc))
    · simpa using le_total (f a) (f b)
  have hne : (as.mergeSort fun a b => f a ≤ f b).Pairwise fun a b => f a ≠ f b :=
    List.pairwise_map.mp (((List.mergeSort_perm _ _).map f).nodup_iff.mpr h)
  exact (hle.and hne).imp fun h => h.1.lt_of_ne h.2

namespace Dict

section Sorted

variable [LinearOrder κ]

/-- The items in the order of their keys. -/
def sortedItems (dict : Dict κ β) : List (κ × β) :=
  (dict.entries.map fun e => (e.1, e.2)).mergeSort fun a b => a.1 ≤ b.1

variable {dict : Dict κ β}

theorem mem_sortedItems {k : κ} {b : β} : (k, b) ∈ dict.sortedItems ↔ ⟨k, b⟩ ∈ dict.entries := by
  simp only [sortedItems, List.mem_mergeSort, List.mem_map, Prod.mk.injEq]
  constructor
  · rintro ⟨⟨k, b⟩, he, rfl, rfl⟩
    exact he
  · exact fun h => ⟨_, h, rfl, rfl⟩

/-- The keys are strictly ascending. -/
theorem pairwise_sortedItems (dict : Dict κ β) :
    dict.sortedItems.Pairwise fun a b => a.1 < b.1 := by
  refine pairwise_mergeSort_of_nodup ?_
  rw [List.map_map]
  exact dict.nodupKeys

end Sorted

section Defaults

variable [DecidableEq κ]

/-- `dict.setdefault`: a key that is missing is entered with a value. -/
def setDefault (dict : Dict κ β) (k : κ) (b : β) : Dict κ β :=
  if k ∈ dict then dict else dict.insert k b

theorem lookup_setDefault (dict : Dict κ β) (k k' : κ) (b : β) :
    (dict.setDefault k b).lookup k' = (dict.lookup k').or (if k = k' then some b else none) := by
  by_cases hk : k ∈ dict
  · rw [setDefault, if_pos hk]
    by_cases heq : k = k'
    · subst heq
      obtain ⟨v, hv⟩ := Option.isSome_iff_exists.mp (AList.lookup_isSome.mpr hk)
      rw [hv, Option.some_or]
    · rw [if_neg heq, Option.or_none]
  · rw [setDefault, if_neg hk]
    by_cases heq : k = k'
    · subst heq
      rw [AList.lookup_insert, AList.lookup_eq_none.mpr hk, if_pos rfl, Option.none_or]
    · rw [AList.lookup_insert_ne (Ne.symm heq), if_neg heq, Option.or_none]

/-- Keys that are entered with a default one after another. -/
theorem lookup_foldl_setDefault (dict : Dict κ β) (ks : List κ) (k : κ) (b : β) :
    (ks.foldl (fun dict k => dict.setDefault k b) dict).lookup k =
      (dict.lookup k).or (if k ∈ ks then some b else none) := by
  induction ks generalizing dict with
  | nil => simp
  | cons k' ks ih =>
    rw [List.foldl_cons, ih, lookup_setDefault, Option.or_assoc]
    congr 1
    by_cases heq : k' = k
    · simp [heq]
    · rw [if_neg heq, Option.none_or]
      simp [Ne.symm heq]

end Defaults

end Dict

section Passes

variable [DecidableEq κ] (keyOf : α → κ)

/-! ## A pass that updates values -/

/-- The value of a key after its rows. -/
def accumulateKey (update : Option β → α → Option β) (value : Option β) (rows : List α) :
    Option (Option β) :=
  rows.foldlM (fun value a => (update value a).map some) value

/-- The dictionary after all rows, if no update fails. -/
def accumulate (update : Option β → α → Option β) (dict : Dict κ β) (rows : List α) :
    Option (Dict κ β) :=
  rows.foldlM (fun dict a => (update (dict.lookup (keyOf a)) a).map fun b =>
    dict.insert (keyOf a) b) dict

section Accumulate

variable {keyOf} {update : Option β → α → Option β} {dict dict' : Dict κ β} {rows : List α}

theorem accumulateKey_cons {value : Option β} {a : α} :
    accumulateKey update value (a :: rows) =
      (update value a).bind fun b => accumulateKey update (some b) rows := by
  cases h : update value a <;> simp [accumulateKey, h]

/-- Values that are updated from a default on. -/
theorem accumulateKey_getD (f : β → α → Option β) (b : β) (value : Option β) :
    accumulateKey (fun value a => f (value.getD b) a) value rows =
      if rows = [] then some value else (rows.foldlM f (value.getD b)).map some := by
  induction rows generalizing value with
  | nil => rfl
  | cons a rows ih =>
    rw [accumulateKey_cons, if_neg (List.cons_ne_nil a rows), List.foldlM_cons]
    cases hfirst : f (value.getD b) a with
    | none => rfl
    | some c =>
      rw [Option.bind_some, ih]
      cases rows with
      | nil => rfl
      | cons _ _ => rfl

theorem accumulate_cons {a : α} :
    accumulate keyOf update dict (a :: rows) =
      (update (dict.lookup (keyOf a)) a).bind fun b =>
        accumulate keyOf update (dict.insert (keyOf a) b) rows := by
  cases h : update (dict.lookup (keyOf a)) a <;> simp [accumulate, h]

/-- **The value of a key** comes from the rows of the key. -/
theorem lookup_accumulate (h : accumulate keyOf update dict rows = some dict') (k : κ) :
    accumulateKey update (dict.lookup k) (rows.filter fun a => keyOf a = k) =
      some (dict'.lookup k) := by
  induction rows generalizing dict with
  | nil =>
    cases h
    rfl
  | cons a rows ih =>
    rw [accumulate_cons, Option.bind_eq_some_iff] at h
    obtain ⟨b, hb, h⟩ := h
    have hrest := ih h
    by_cases hk : keyOf a = k
    · subst hk
      rw [AList.lookup_insert] at hrest
      rw [List.filter_cons_of_pos (by simp), accumulateKey_cons, hb]
      exact hrest
    · rw [AList.lookup_insert_ne (Ne.symm hk)] at hrest
      rwa [List.filter_cons_of_neg (by simpa using hk)]

/-- **The pass succeeds** if the updates of each key do. -/
theorem exists_accumulate
    (h : ∀ k, ∃ value,
      accumulateKey update (dict.lookup k) (rows.filter fun a => keyOf a = k) = some value) :
    ∃ dict', accumulate keyOf update dict rows = some dict' := by
  induction rows generalizing dict with
  | nil => exact ⟨dict, rfl⟩
  | cons a rows ih =>
    obtain ⟨value, hvalue⟩ := h (keyOf a)
    rw [List.filter_cons_of_pos (by simp), accumulateKey_cons, Option.bind_eq_some_iff] at hvalue
    obtain ⟨b, hb, hvalue⟩ := hvalue
    rw [accumulate_cons, hb]
    refine ih fun k => ?_
    by_cases hk : keyOf a = k
    · subst hk
      exact ⟨value, by rw [AList.lookup_insert, hvalue]⟩
    · obtain ⟨value', hvalue'⟩ := h k
      rw [List.filter_cons_of_neg (by simpa using hk)] at hvalue'
      exact ⟨value', by rw [AList.lookup_insert_ne (Ne.symm hk), hvalue']⟩

end Accumulate

/-! ## The first two rows of a key -/

/-- Keep a row, if it is the first or the second one of its key. -/
def keepRow (kept : Dict κ α × Dict κ α) (a : α) : Dict κ α × Dict κ α :=
  if (kept.1.lookup (keyOf a)).isNone then (kept.1.insert (keyOf a) a, kept.2)
  else if (kept.2.lookup (keyOf a)).isNone then (kept.1, kept.2.insert (keyOf a) a)
  else kept

/-- The first and the second row of each key. -/
def firstAndSecond (rows : List α) : Dict κ α × Dict κ α := rows.foldl (keepRow keyOf) (∅, ∅)

/-- What is kept after some rows. -/
structure Kept (rows : List α) (kept : Dict κ α × Dict κ α) : Prop where
  first : ∀ k, kept.1.lookup k = (rows.filter fun a => keyOf a = k)[0]?
  second : ∀ k, kept.2.lookup k = (rows.filter fun a => keyOf a = k)[1]?

variable {keyOf}

/-- A row leaves the other keys alone. -/
theorem lookup_keepRow_ne (kept : Dict κ α × Dict κ α) {a : α} {k : κ} (hk : keyOf a ≠ k) :
    (keepRow keyOf kept a).1.lookup k = kept.1.lookup k ∧
      (keepRow keyOf kept a).2.lookup k = kept.2.lookup k := by
  have hinsert : ∀ dict : Dict κ α, (dict.insert (keyOf a) a).lookup k = dict.lookup k :=
    fun _ => AList.lookup_insert_ne (Ne.symm hk)
  unfold keepRow
  split
  · exact ⟨hinsert _, rfl⟩
  · split
    · exact ⟨rfl, hinsert _⟩
    · exact ⟨rfl, rfl⟩

theorem Kept.keepRow {rows : List α} {kept : Dict κ α × Dict κ α} (h : Kept keyOf rows kept)
    (a : α) : Kept keyOf (rows ++ [a]) (keepRow keyOf kept a) := by
  have hother : ∀ k, keyOf a ≠ k →
      (rows ++ [a]).filter (fun a => keyOf a = k) = rows.filter fun a => keyOf a = k := by
    intro k hk
    simp [List.filter_append, hk]
  have hkey : ∀ k, keyOf a = k →
      (Dictionaries.keepRow keyOf kept a).1.lookup k =
          ((rows ++ [a]).filter fun a => keyOf a = k)[0]? ∧
        (Dictionaries.keepRow keyOf kept a).2.lookup k =
          ((rows ++ [a]).filter fun a => keyOf a = k)[1]? := by
    rintro k rfl
    have hfirst := h.first (keyOf a)
    have hsecond := h.second (keyOf a)
    rw [List.filter_append, List.filter_cons_of_pos (by simp), List.filter_nil]
    rcases hrows : rows.filter (fun b => keyOf b = keyOf a) with _ | ⟨b, _ | ⟨c, rest⟩⟩ <;>
      rw [hrows] at hfirst hsecond
    · simp [Dictionaries.keepRow, hfirst, hsecond]
    · simp [Dictionaries.keepRow, hfirst, hsecond]
    · simp [Dictionaries.keepRow, hfirst, hsecond]
  constructor
  · intro k
    by_cases hk : keyOf a = k
    · exact (hkey k hk).1
    · rw [(lookup_keepRow_ne kept hk).1, h.first, hother k hk]
  · intro k
    by_cases hk : keyOf a = k
    · exact (hkey k hk).2
    · rw [(lookup_keepRow_ne kept hk).2, h.second, hother k hk]

/-- **The first two rows** of a key. -/
theorem kept_firstAndSecond (rows : List α) : Kept keyOf rows (firstAndSecond keyOf rows) := by
  induction rows using List.reverseRecOn with
  | nil => exact ⟨fun k => rfl, fun k => rfl⟩
  | append_singleton rows a ih =>
    rw [firstAndSecond, List.foldl_concat]
    exact ih.keepRow a

end Passes

end Dictionaries
