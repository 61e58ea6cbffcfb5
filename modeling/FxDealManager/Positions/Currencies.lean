import FxDealManager.Api.PositionReport
import FxDealManager.Positions.Overview

/-!
# The currencies of the overview

The overview adds up the positions of each currency in one dictionary, enters the currencies of the
open exposure, and shows the sums in the order of the codes. What it shows of a currency depends on
the accounts and the payments of this currency alone.

## Main definitions

* `AddsUp`: the amounts of a currency can be added without an overflow
* `ShownOf`: what is shown of a currency

## Main results

* `exists_currenciesOf_iff`: when there is something to show
* `currenciesOf_spec`: which currencies are shown, and what of them
-/

namespace FxDealManager

open DecimalArithmetic Dictionaries Transactional

section Currencies

variable {accounts : List FxPositionAccountResponse} {exposure : Amounts}

/-- The positions of a currency are added without an overflow, and its exposure to their sum; what
has no code has positions alone. -/
def AddsUp (positions : List Decimal) (openExposure : Decimal) (code : String) : Prop :=
  ∃ total, Context.default.sum positions = some total ∧
    (code ≠ "" → (Context.default.add total openExposure).isSome)

/-- What is shown of a currency: the sum of its positions, its exposure, and both added. -/
structure ShownOf (accounts : List FxPositionAccountResponse) (exposure : Amounts)
    (c : FxPositionCurrencyResponse) : Prop where
  currentPosition : Context.default.sum (positionsIn accounts c.currencyCode) =
    some c.currentPosition
  openExposure : c.openExposure = exposure.amount c.currencyCode
  projectedPosition : Context.default.add c.currentPosition c.openExposure =
    some c.projectedPosition

/-- A key that a dictionary does not have has the amount zero. -/
theorem amount_of_notMem {code : String} (h : code ∉ exposure.keys) :
    exposure.amount code = .zero := by
  rw [← Amounts.lookup_isSome_iff, Option.not_isSome_iff_eq_none] at h
  rw [Amounts.amount, h, Option.getD_none]

/-- The sum of a currency, as the dictionary computes it. -/
theorem accumulateKey_position (code : String) :
    accumulateKey (fun (total : Option Decimal) (account : FxPositionAccountResponse) =>
        Context.default.add (total.getD .zero) account.position) none
        (accounts.filter fun account => account.currencyCode = code) =
      if positionsIn accounts code = [] then some none
      else (Context.default.sum (positionsIn accounts code)).map some := by
  refine (accumulateKey_getD (fun total (account : FxPositionAccountResponse) =>
    Context.default.add total account.position) .zero none).trans ?_
  simp only [positionsIn, List.map_eq_nil_iff, Context.sum, List.foldlM_map, Option.getD_none]

theorem totalsOf_eq_ok {totals : Dict String Decimal} :
    totalsOf accounts = .ok totals ↔ accumulate FxPositionAccountResponse.currencyCode
      (fun (total : Option Decimal) account =>
        Context.default.add (total.getD .zero) account.position) ∅ accounts = some totals := by
  rw [totalsOf]
  show Option.elim (accumulate _ (fun (total : Option Decimal)
    (account : FxPositionAccountResponse) =>
      Context.default.add (total.getD .zero) account.position) _ _) _ _ = _ ↔ _
  cases accumulate FxPositionAccountResponse.currencyCode _ _ accounts <;> simp

/-- The totals have the sum of each currency that an account has. -/
theorem lookup_totalsOf {totals : Dict String Decimal} (h : totalsOf accounts = .ok totals)
    (code : String) :
    ∃ total, Context.default.sum (positionsIn accounts code) = some total ∧
      totals.lookup code = if positionsIn accounts code = [] then none else some total := by
  have hkey := (accumulateKey_position code).symm.trans
    (lookup_accumulate (totalsOf_eq_ok.mp h) code)
  split at hkey
  next hnil =>
    rw [hnil]
    exact ⟨.zero, rfl, by rw [if_pos rfl]; exact (Option.some.inj hkey).symm⟩
  next hne =>
    obtain ⟨total, htotal, hlookup⟩ := Option.map_eq_some_iff.mp hkey
    exact ⟨total, htotal, by rw [if_neg hne, hlookup]⟩

/-- There are totals if the positions of every currency can be added. -/
theorem exists_totalsOf
    (h : ∀ code, ∃ total, Context.default.sum (positionsIn accounts code) = some total) :
    ∃ totals, totalsOf accounts = .ok totals := by
  refine (exists_congr fun _ => totalsOf_eq_ok).mpr (exists_accumulate fun code => ?_)
  obtain ⟨total, htotal⟩ := h code
  refine ⟨if positionsIn accounts code = [] then none else some total, ?_⟩
  rw [AList.lookup_empty, accumulateKey_position, htotal]
  split <;> rfl

/-- The totals with the currencies of the exposure. -/
def withExposure (totals : Dict String Decimal) (exposure : Amounts) : Dict String Decimal :=
  (exposure.map Prod.fst).foldl (fun totals code => totals.setDefault code .zero) totals

theorem lookup_withExposure (exposure : Amounts) {totals : Dict String Decimal}
    (h : totalsOf accounts = .ok totals) (code : String) :
    ∃ total, Context.default.sum (positionsIn accounts code) = some total ∧
      (withExposure totals exposure).lookup code =
        if positionsIn accounts code = [] ∧ code ∉ exposure.keys then none else some total := by
  obtain ⟨total, htotal, hlookup⟩ := lookup_totalsOf h code
  refine ⟨total, htotal, ?_⟩
  rw [withExposure, Dict.lookup_foldl_setDefault, hlookup]
  by_cases hnil : positionsIn accounts code = []
  · rw [hnil] at htotal
    cases htotal
    by_cases hkey : code ∈ exposure.map Prod.fst
    · simp [hnil, Amounts.keys, hkey]
    · simp [hnil, Amounts.keys, hkey]
  · simp [hnil]

theorem currencyOf_eq_ok {item : String × Decimal} {c : FxPositionCurrencyResponse} :
    currencyOf exposure item = .ok c ↔
      c.currencyCode = item.1 ∧ c.currentPosition = item.2 ∧
        c.openExposure = exposure.amount item.1 ∧
        Context.default.add item.2 (exposure.amount item.1) = some c.projectedPosition := by
  rw [currencyOf]
  cases hadd : Context.default.add item.2 (exposure.amount item.1) with
  | none => simp
  | some projected =>
    obtain ⟨code, current, amount, shown⟩ := c
    simp [eq_comm]

/-- The items that are shown: the currencies with a code that an account or the exposure has. -/
theorem mem_items {totals : Dict String Decimal} (h : totalsOf accounts = .ok totals)
    {item : String × Decimal} :
    item ∈ (withExposure totals exposure).sortedItems.filter (fun item => item.1 ≠ "") ↔
      item.1 ≠ "" ∧ (positionsIn accounts item.1 ≠ [] ∨ item.1 ∈ exposure.keys) ∧
        Context.default.sum (positionsIn accounts item.1) = some item.2 := by
  obtain ⟨total, htotal, hlookup⟩ := lookup_withExposure exposure h item.1
  rw [List.mem_filter, Dict.mem_sortedItems, ← AList.mem_lookup_iff, Option.mem_def, hlookup,
    htotal, decide_eq_true_eq, and_comm]
  refine and_congr_right fun _ => ?_
  by_cases hnone : positionsIn accounts item.1 = [] ∧ item.1 ∉ exposure.keys
  · simp [hnone]
  · rw [if_neg hnone]
    have hsome : positionsIn accounts item.1 ≠ [] ∨ item.1 ∈ exposure.keys := by tauto
    simp [hsome]

/-- **What is shown**: the currencies that an account or the exposure has, in the order of their
codes, each with the sum of its positions, its exposure, and both added. -/
theorem currenciesOf_spec {currencies : List FxPositionCurrencyResponse}
    (h : currenciesOf accounts exposure = .ok currencies) :
    (currencies.map FxPositionCurrencyResponse.currencyCode).Pairwise (· < ·) ∧
      (∀ code, code ∈ currencies.map FxPositionCurrencyResponse.currencyCode ↔
        code ≠ "" ∧ (positionsIn accounts code ≠ [] ∨ code ∈ exposure.keys)) ∧
      ∀ c ∈ currencies, ShownOf accounts exposure c := by
  obtain ⟨totals, htotals, hshown⟩ := bind_eq_ok.mp h
  have hall : List.Forall₂ (fun c item => ShownOf accounts exposure c ∧ c.currencyCode = item.1)
      currencies ((withExposure totals exposure).sortedItems.filter fun item => item.1 ≠ "") := by
    have hboth := (List.forall₂_and_left _ _).mpr
      ⟨fun _ hitem => (mem_items htotals).mp hitem, mapM_eq_ok.mp hshown⟩
    refine (hboth.imp ?_).flip
    rintro item c ⟨⟨-, -, htotal⟩, hc⟩
    obtain ⟨hcode, hcurrent, hexposure, hprojected⟩ := currencyOf_eq_ok.mp hc
    refine ⟨⟨?_, ?_, ?_⟩, hcode⟩
    · rw [hcode, hcurrent, htotal]
    · rw [hexposure, hcode]
    · rw [hcurrent, hexposure, hprojected]
  obtain ⟨hshows, hcodes⟩ := (List.forall₂_and_left _ _).mp hall
  rw [← List.forall₂_map_right_iff (f := Prod.fst), ← List.forall₂_map_left_iff
    (f := FxPositionCurrencyResponse.currencyCode), List.forall₂_eq_eq_eq] at hcodes
  refine ⟨?_, fun code => ?_, hshows⟩
  · rw [hcodes]
    exact List.pairwise_map.mpr ((Dict.pairwise_sortedItems _).filter _)
  · rw [hcodes]
    constructor
    · intro hcode
      obtain ⟨item, hitem, rfl⟩ := List.mem_map.mp hcode
      obtain ⟨hne, hknown, -⟩ := (mem_items htotals).mp hitem
      exact ⟨hne, hknown⟩
    · rintro ⟨hne, hknown⟩
      obtain ⟨total, htotal, -⟩ := lookup_totalsOf htotals code
      exact List.mem_map.mpr ⟨(code, total), (mem_items htotals).mpr ⟨hne, hknown, htotal⟩, rfl⟩

/-- **There is something to show** if and only if the amounts of every currency can be added. -/
theorem exists_currenciesOf_iff :
    (∃ currencies, currenciesOf accounts exposure = .ok currencies) ↔
      ∀ code, AddsUp (positionsIn accounts code) (exposure.amount code) code := by
  constructor
  · rintro ⟨currencies, h⟩ code
    obtain ⟨-, hcodes, hshows⟩ := currenciesOf_spec h
    obtain ⟨totals, htotals, -⟩ := bind_eq_ok.mp h
    obtain ⟨total, htotal, -⟩ := lookup_totalsOf htotals code
    refine ⟨total, htotal, fun hne => ?_⟩
    by_cases hknown : positionsIn accounts code ≠ [] ∨ code ∈ exposure.keys
    · obtain ⟨c, hc, rfl⟩ := List.mem_map.mp ((hcodes code).mpr ⟨hne, hknown⟩)
      obtain ⟨hcurrent, hexposure, hprojected⟩ := hshows c hc
      cases htotal.symm.trans hcurrent
      rw [← hexposure, hprojected]
      rfl
    · rw [not_or, not_not] at hknown
      rw [hknown.1] at htotal
      cases htotal
      rw [amount_of_notMem hknown.2]
      decide
  · intro h
    obtain ⟨totals, htotals⟩ := exists_totalsOf fun code => (h code).imp fun _ hsum => hsum.1
    have hitems : ∀ item ∈ (withExposure totals exposure).sortedItems.filter
        (fun item => item.1 ≠ ""), ∃ c, currencyOf exposure item = .ok c := by
      intro item hitem
      obtain ⟨hne, -, htotal⟩ := (mem_items htotals).mp hitem
      obtain ⟨total, htotal', hadd⟩ := h item.1
      cases htotal.symm.trans htotal'
      obtain ⟨projected, hprojected⟩ := Option.isSome_iff_exists.mp (hadd hne)
      exact ⟨⟨item.1, item.2, exposure.amount item.1, projected⟩,
        currencyOf_eq_ok.mpr ⟨rfl, rfl, rfl, hprojected⟩⟩
    obtain ⟨currencies, hcurrencies⟩ := exists_mapM_iff.mpr hitems
    exact ⟨currencies, bind_eq_ok.mpr ⟨totals, htotals, hcurrencies⟩⟩

end Currencies

end FxDealManager
