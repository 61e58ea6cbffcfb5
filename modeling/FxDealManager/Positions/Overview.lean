import FxDealManager.Api.Positions
import FxDealManager.Arithmetic.Sums
import FxDealManager.Repositories.Rules

/-!
# What the overview shows

The overview sums positions and payments in dictionaries. As long as the amounts of a currency can
be added exactly, it shows the position of the currency and its open exposure, added up.

## Main definitions

* `positionsIn`, `exposureIn`: the amounts that the overview adds for a currency
* `FxPositionsResponse.projected`: the projected position that the overview shows for a currency

## Main results

* `amount_foldl_addTo`: the amount of a key, after many additions
* `projected_eq_add`, `projected_eq`: the projected position, with and without rounding
-/

namespace FxDealManager

open DecimalArithmetic Transactional

/-! ## Dictionaries of amounts -/

namespace Amounts

/-- The keys of a dictionary. -/
def keys (dict : Amounts) : List String := dict.map Prod.fst

variable {dict : Amounts} {key k : String} {x : Decimal}

theorem mem_keys_addTo : k ∈ (dict.addTo key x).keys ↔ k = key ∨ k ∈ dict.keys := by
  induction dict with
  | nil => simp [addTo, keys]
  | cons e rest ih =>
    obtain ⟨k', v⟩ := e
    simp only [keys] at ih ⊢
    by_cases hk : k' = key
    · simp [addTo, hk]
    · simp only [addTo, if_neg hk, List.map_cons, List.mem_cons, ih]
      tauto

theorem nodup_addTo (h : dict.keys.Nodup) : (dict.addTo key x).keys.Nodup := by
  induction dict with
  | nil => simp [addTo, keys]
  | cons e rest ih =>
    obtain ⟨k', v⟩ := e
    have hcons : k' ∉ keys rest ∧ (keys rest).Nodup := List.nodup_cons.mp h
    by_cases hk : k' = key
    · simp only [addTo, if_pos hk]
      exact h
    · have hnot : k' ∉ (addTo key x rest).keys := fun hmem =>
        (mem_keys_addTo.mp hmem).elim hk hcons.1
      simpa [addTo, hk, keys] using List.nodup_cons.mpr ⟨hnot, ih hcons.2⟩

theorem amount_cons {v : Decimal} :
    amount ((k, v) :: dict) key = if k = key then v else dict.amount key := by
  by_cases hk : k = key
  · simp [amount, hk]
  · simp [amount, hk, List.lookup_cons, beq_eq_false_iff_ne.mpr (Ne.symm hk)]

theorem amount_addTo : (dict.addTo key x).amount k =
    if key = k then Decimal.add precision (dict.amount k) x else dict.amount k := by
  induction dict with
  | nil =>
    rw [addTo, amount_cons]
    rfl
  | cons e rest ih =>
    obtain ⟨k', v⟩ := e
    by_cases hkey : k' = key
    · simp only [addTo, if_pos hkey, amount_cons]
      by_cases hk : k' = k
      · simp [hk, ← hkey]
      · simp [hk, ← hkey]
    · simp only [addTo, if_neg hkey, amount_cons, ih]
      by_cases hk : k' = k
      · have hne : key ≠ k := fun h => hkey (hk.trans h.symm)
        simp [hk, hne]
      · simp [hk]

/-- The amount of a key after many additions: those to this key, one after another. -/
theorem amount_foldl_addTo {α : Type} (keyOf : α → String) (amountOf : α → Decimal) (as : List α)
    (dict : Amounts) (k : String) :
    (as.foldl (fun dict a => dict.addTo (keyOf a) (amountOf a)) dict).amount k =
      ((as.filter fun a => keyOf a = k).map amountOf).foldl (Decimal.add precision)
        (dict.amount k) := by
  induction as generalizing dict with
  | nil => rfl
  | cons a as ih =>
    rw [List.foldl_cons, ih, amount_addTo]
    by_cases hk : keyOf a = k <;> simp [hk]

theorem keys_foldl_addTo {α : Type} (keyOf : α → String) (amountOf : α → Decimal) (as : List α)
    (dict : Amounts) (hnodup : dict.keys.Nodup) :
    (as.foldl (fun dict a => dict.addTo (keyOf a) (amountOf a)) dict).keys.Nodup ∧
      ∀ k, k ∈ (as.foldl (fun dict a => dict.addTo (keyOf a) (amountOf a)) dict).keys ↔
        k ∈ dict.keys ∨ ∃ a ∈ as, keyOf a = k := by
  induction as generalizing dict with
  | nil => simpa using hnodup
  | cons a as ih =>
    obtain ⟨hnodup', hkeys⟩ := ih (dict.addTo (keyOf a) (amountOf a)) (nodup_addTo hnodup)
    refine ⟨hnodup', fun k => ?_⟩
    rw [List.foldl_cons, hkeys, mem_keys_addTo, List.exists_mem_cons_iff]
    tauto

/-- The amount of an entry, in a dictionary that holds each key once. -/
theorem amount_of_mem {v : Decimal} (hnodup : dict.keys.Nodup) (h : (k, v) ∈ dict) :
    dict.amount k = v := by
  induction dict with
  | nil => cases h
  | cons e rest ih =>
    obtain ⟨k', v'⟩ := e
    have hcons : k' ∉ keys rest ∧ (keys rest).Nodup := List.nodup_cons.mp hnodup
    rw [amount_cons]
    rcases List.mem_cons.mp h with heq | hmem
    · cases heq
      exact if_pos rfl
    · have hne : k' ≠ k := fun heq => hcons.1 (heq ▸ List.mem_map_of_mem (f := Prod.fst) hmem)
      rw [if_neg hne]
      exact ih hcons.2 hmem

theorem lookup_isSome_iff : (dict.lookup key).isSome ↔ key ∈ dict.keys := by
  induction dict with
  | nil => simp [keys]
  | cons e rest ih =>
    obtain ⟨k', v⟩ := e
    by_cases hk : key = k'
    · simp [keys, hk]
    · simp only [keys] at ih
      simp [keys, List.lookup_cons, beq_eq_false_iff_ne.mpr hk, hk, ih]

theorem amount_append_zero : amount (dict ++ [(key, .zero)]) k = dict.amount k := by
  induction dict with
  | nil =>
    rw [List.nil_append, amount_cons]
    exact ite_self _
  | cons e rest ih =>
    obtain ⟨k', v⟩ := e
    rw [List.cons_append, amount_cons, amount_cons, ih]

/-- Keys entered with zero change no amount. -/
theorem setDefault_spec (key : String) (hnodup : dict.keys.Nodup) :
    (dict.setDefault key).keys.Nodup ∧ (∀ k, (dict.setDefault key).amount k = dict.amount k) ∧
      ∀ k, k ∈ (dict.setDefault key).keys ↔ k ∈ dict.keys ∨ key = k := by
  by_cases hsome : (dict.lookup key).isSome
  · have hmem := lookup_isSome_iff.mp hsome
    simp only [setDefault, if_pos hsome]
    exact ⟨hnodup, fun _ => trivial, fun k => ⟨.inl, fun h => h.elim id fun heq => heq ▸ hmem⟩⟩
  · have hmem := lookup_isSome_iff.not.mp hsome
    simp only [setDefault, if_neg hsome]
    refine ⟨?_, fun k => amount_append_zero, fun k => ?_⟩
    · have happend : keys (dict ++ [(key, .zero)]) = dict.keys ++ [key] := by simp [keys]
      rw [happend]
      exact List.nodup_append.mpr ⟨hnodup, List.nodup_singleton key, fun k hk k' hk' heq =>
        hmem (List.mem_singleton.mp hk' ▸ heq ▸ hk)⟩
    · simp [keys, eq_comm]

theorem foldl_setDefault_spec {α : Type} (keyOf : α → String) (as : List α) (dict : Amounts)
    (hnodup : dict.keys.Nodup) :
    (as.foldl (fun dict a => dict.setDefault (keyOf a)) dict).keys.Nodup ∧
      (∀ k, (as.foldl (fun dict a => dict.setDefault (keyOf a)) dict).amount k = dict.amount k) ∧
      ∀ k, k ∈ (as.foldl (fun dict a => dict.setDefault (keyOf a)) dict).keys ↔
        k ∈ dict.keys ∨ ∃ a ∈ as, keyOf a = k := by
  induction as generalizing dict with
  | nil => simpa using hnodup
  | cons a as ih =>
    obtain ⟨hnodup', hamount', hkeys'⟩ := setDefault_spec (keyOf a) hnodup
    obtain ⟨hnodup'', hamount'', hkeys''⟩ := ih _ hnodup'
    refine ⟨hnodup'', fun k => (hamount'' k).trans (hamount' k), fun k => ?_⟩
    rw [List.foldl_cons, hkeys'', hkeys', List.exists_mem_cons_iff, or_assoc]

end Amounts

/-! ## The overview -/

/-- The position that an account reports; a missing one counts as zero. -/
def FxPositionAccountResponse.position (account : FxPositionAccountResponse) : Decimal :=
  (account.currentPosition.filter (·.coefficient ≠ 0)).getD .zero

theorem position_value (account : FxPositionAccountResponse) :
    account.position.value = account.currentPosition.elim 0 Decimal.value := by
  rw [FxPositionAccountResponse.position]
  cases account.currentPosition with
  | none => simp [Decimal.value, Decimal.zero]
  | some position =>
    by_cases hzero : position.coefficient = 0
    · rw [Option.filter_some_neg (by simpa using hzero)]
      simp [Decimal.value, Decimal.zero, hzero]
    · rw [Option.filter_some_pos (by simpa using hzero)]
      rfl

/-- The positions of a currency. -/
def positionsIn (accounts : List FxPositionAccountResponse) (code : String) : List Decimal :=
  (accounts.filter fun account => account.currencyCode = code).map
    FxPositionAccountResponse.position

/-- The signed amounts of the open payments of a currency. -/
def exposureIn (db : Database) (code : String) : List Decimal :=
  ((openPayments db).filter fun p => p.currencyCode.val = code).map PaymentRow.signed

/-- The projected position that the overview shows for a currency; a currency it does not show has
none. -/
def FxPositionsResponse.projected (response : FxPositionsResponse) (code : String) : ℚ :=
  ((response.currencies.find? fun c => c.currencyCode = code).map fun c =>
    c.projectedPosition.value).getD 0

section Overview

variable {env : Env} {db : Database} {user : UserClaims} {onDate : Date}
  {accounts : List FxPositionAccountResponse} {response : FxPositionsResponse} {code : String}

theorem exposure_amount :
    (openExposureByCurrency db).amount code =
      (exposureIn db code).foldl (Decimal.add precision) .zero :=
  Amounts.amount_foldl_addTo _ _ _ [] code

/-- The currencies of the exposure are those of the open payments. -/
theorem mem_keys_exposure :
    code ∈ (openExposureByCurrency db).keys ↔ ∃ p ∈ openPayments db, p.currencyCode.val = code := by
  have hkeys := (Amounts.keys_foldl_addTo (fun p : PaymentRow => p.currencyCode.val)
    PaymentRow.signed (openPayments db) [] List.nodup_nil).2 code
  rwa [or_iff_right (show code ∉ Amounts.keys [] from List.not_mem_nil)] at hkeys

/-- The totals hold each currency once, with the sum of its positions, and know the currencies of
the accounts and of the open payments. -/
theorem positionTotals_spec (accounts : List FxPositionAccountResponse) (db : Database) :
    (positionTotals accounts (openExposureByCurrency db)).keys.Nodup ∧
      (∀ code, (positionTotals accounts (openExposureByCurrency db)).amount code =
        (positionsIn accounts code).foldl (Decimal.add precision) .zero) ∧
      ∀ code, code ∈ (positionTotals accounts (openExposureByCurrency db)).keys ↔
        (∃ account ∈ accounts, account.currencyCode = code) ∨
          ∃ p ∈ openPayments db, p.currencyCode.val = code := by
  obtain ⟨hnodup, hkeys⟩ := Amounts.keys_foldl_addTo FxPositionAccountResponse.currencyCode
    FxPositionAccountResponse.position accounts [] List.nodup_nil
  obtain ⟨hnodup', hamount', hkeys'⟩ :=
    Amounts.foldl_setDefault_spec Prod.fst (openExposureByCurrency db) _ hnodup
  refine ⟨hnodup', fun code => ?_, fun code => ?_⟩
  · exact (hamount' code).trans (Amounts.amount_foldl_addTo _ _ accounts [] code)
  · have hentries : (∃ e ∈ openExposureByCurrency db, e.1 = code) ↔
        ∃ p ∈ openPayments db, p.currencyCode.val = code := by
      rw [← mem_keys_exposure, Amounts.keys, List.mem_map]
    have htotals := hkeys' code
    have hnil : code ∉ Amounts.keys [] := List.not_mem_nil
    rw [hkeys, hentries, or_iff_right hnil] at htotals
    exact htotals

/-- A currency that the totals do not know has no amounts. -/
theorem amounts_eq_nil (accounts : List FxPositionAccountResponse) (db : Database) (code : String)
    (h : code ∉ (positionTotals accounts (openExposureByCurrency db)).keys) :
    positionsIn accounts code = [] ∧ exposureIn db code = [] := by
  rw [(positionTotals_spec accounts db).2.2, not_or] at h
  constructor
  · rw [positionsIn, List.map_eq_nil_iff, List.filter_eq_nil_iff]
    exact fun account haccount hcode => h.1 ⟨account, haccount, by simpa using hcode⟩
  · rw [exposureIn, List.map_eq_nil_iff, List.filter_eq_nil_iff]
    exact fun p hp hcode => h.2 ⟨p, hp, by simpa using hcode⟩

/-- What the overview shows. -/
theorem overview_currencies
    (h : ((positionsOverview user onDate (.ok accounts)).run env db).1 = .ok response) :
    response.currencies = positionCurrencies accounts (openExposureByCurrency db) := by
  have hstop : ∀ c : ServiceProgress, c.StopsIn fun (result : Except ServiceError
      FxPositionsResponse) _ => ∀ response, result = .ok response →
        response.currencies = positionCurrencies accounts (openExposureByCurrency db) := by
    rintro c err c' - - - response ⟨⟩
  have hensures : (positionsOverview user onDate (.ok accounts)).Ensures env (Progress.start db)
      fun result _ => ∀ response, result = .ok response →
        response.currencies = positionCurrencies accounts (openExposureByCurrency db) := by
    refine .require_bind (hstop _) fun _ => .query_bind (hstop _) (.pure ?_)
    rintro response ⟨⟩
    rfl
  exact hensures.run response h

/-- The projected position of a currency, as it is computed: two sums, added. -/
theorem projected_eq_add
    (h : ((positionsOverview user onDate (.ok accounts)).run env db).1 = .ok response) :
    response.projected code = if code = "" then 0 else
      (Decimal.add precision ((positionsIn accounts code).foldl (Decimal.add precision) .zero)
        ((exposureIn db code).foldl (Decimal.add precision) .zero)).value := by
  obtain ⟨hnodup, hamount, -⟩ := positionTotals_spec accounts db
  have hnil := amounts_eq_nil accounts db code
  generalize htotals : positionTotals accounts (openExposureByCurrency db) = totals
    at hnodup hamount hnil
  simp only [FxPositionsResponse.projected, overview_currencies h, positionCurrencies, htotals,
    List.find?_map, Option.map_map]
  generalize hfound : List.find? _ _ = found
  cases found with
  | none =>
    rw [Option.map_none, Option.getD_none]
    split
    · rfl
    · next hcode =>
      have hnot : code ∉ totals.keys := by
        intro hmem
        obtain ⟨e, he, rfl⟩ := List.mem_map.mp hmem
        have habsent := List.find?_eq_none.mp hfound e
          (List.mem_filter.mpr ⟨List.mem_mergeSort.mpr he, by simpa using hcode⟩)
        simp at habsent
      obtain ⟨hpositions, hexposure⟩ := hnil hnot
      have hzero : Decimal.add precision .zero .zero = .zero := by decide
      rw [hpositions, hexposure, List.foldl_nil, hzero]
      simp [Decimal.value, Decimal.zero]
  | some e =>
    obtain ⟨k, v⟩ := e
    have hk : k = code := by simpa using List.find?_some hfound
    obtain ⟨hmem, hne⟩ := List.mem_filter.mp (List.mem_of_find?_eq_some hfound)
    have hv : totals.amount k = v := Amounts.amount_of_mem hnodup (List.mem_mergeSort.mp hmem)
    subst hk
    rw [if_neg (by simpa using hne), ← hamount, ← exposure_amount, hv]
    rfl

/-- **The projected position** of a currency, if its amounts can be added exactly: the positions and
the open payments, added up. -/
theorem projected_eq
    (h : ((positionsOverview user onDate (.ok accounts)).run env db).1 = .ok response)
    (haddable : Addable precision (positionsIn accounts code ++ exposureIn db code)) :
    response.projected code = if code = "" then 0 else
      ((positionsIn accounts code).map Decimal.value).sum +
        ((exposureIn db code).map Decimal.value).sum := by
  rw [projected_eq_add h, haddable.value_add (by decide)]

end Overview

end FxDealManager
