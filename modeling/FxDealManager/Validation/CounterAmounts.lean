import FxDealManager.Arithmetic.Products
import FxDealManager.Validation.Limits

/-!
# Counter amounts

The counter amount of a deal is amount times rate, rounded to the precision of the decimal context
and then half up to cents. As long as it fits the column of the payments, the first rounding changes
nothing, so that it is the exact product rounded once. It is rounded to cents whatever its currency,
although the amount itself is checked against the places of its currency.

## Main definitions

* `ReferenceData.Precise`: a payment has no more places than its currency

## Main results

* `counterAmount_value`: the counter amount is the exact product rounded half up
* `decimalsValid_iff`: what the precision rule checks
* `payments_precise_iff`: when both payments have no more places than their currencies
* `payment_too_precise`: a validation that stores a payment of 0.50 in a currency without cents
-/

namespace FxDealManager

open DecimalArithmetic Search Transactional

/-! ## The exact product -/

section Counter

variable {deal : FXDeal} {counter : Decimal}

/-- A positive number that a column holds. -/
theorem value_of_holds {p s : ℕ} {n : Numeric p s} {d : Decimal}
    (h : n.toDecimal.same d = true) (hd : d.positive = true) :
    d.value = (⟨false, n.unscaled.natAbs, -s⟩ : Decimal).value := by
  have hvalue := Decimal.same_iff.mp h
  have hpos : n.toDecimal.positive = true := by
    rw [Decimal.positive_iff, hvalue]
    exact Decimal.positive_iff.mp hd
  have hdecimal : n.toDecimal = ⟨false, n.unscaled.natAbs, -s⟩ := by
    rw [← Decimal.nonneg_of_positive hpos]
    rfl
  rw [← hvalue, hdecimal]

/-- The column of the payments ends below 10^20. -/
theorem not_fits_of_le (hnonneg : counter.negative = false)
    (h : (⟨false, 10 ^ 22, -2⟩ : Decimal).value ≤ counter.value) :
    ¬ (Numeric.ofDecimal counter : Option (Numeric 18 2)).isSome := by
  intro hfits
  obtain ⟨n, hn⟩ := Option.isSome_iff_exists.mp hfits
  have hunscaled := Numeric.unscaled_ofDecimal hnonneg hn
  have hbound := n.fits
  have hpos : (0 : ℚ) < 10 ^ (-(2 : ℕ) : ℤ) := zpow_pos (by norm_num) _
  have hfloor : (10 ^ 22 : ℤ) ≤ ⌊counter.value / 10 ^ (-(2 : ℕ) : ℤ) + 1 / 2⌋ := by
    rw [Decimal.value_of_nonneg rfl] at h
    have hdiv := (le_div_iff₀ hpos).mpr h
    rw [Int.le_floor]
    push_cast at hdiv ⊢
    linarith
  omega

/-- **The counter amount is the exact product rounded half up**: whenever it fits the column of the
payments, the rounding to the precision of the context has changed nothing. -/
theorem counterAmount_value {amount : Numeric 18 2} {rate : Numeric 18 6}
    (hamount : amount.toDecimal.same deal.amount = true)
    (hrate : rate.toDecimal.same deal.rate = true)
    (hpos : deal.amount.positive = true ∧ deal.rate.positive = true)
    (hcounter : counterAmount deal = some counter)
    (hfits : (Numeric.ofDecimal counter : Option (Numeric 18 2)).isSome) :
    counter.value = ⌊deal.amount.value * deal.rate.value * 100 + 1 / 2⌋ / 100 := by
  have hnonneg := Decimal.exactMul_nonneg (Decimal.nonneg_of_positive hpos.1)
    (Decimal.nonneg_of_positive hpos.2)
  have hfix : (Decimal.mul precision deal.amount deal.rate).negative = false :=
    (Decimal.fix_negative _ _).trans hnonneg
  have hvalue := Decimal.quantize_value hfix hcounter
  have hproduct : (Decimal.exactMul deal.amount deal.rate).value =
      (⟨false, amount.unscaled.natAbs * rate.unscaled.natAbs, -8⟩ : Decimal).value := by
    rw [Decimal.value_exactMul, value_of_holds hamount hpos.1, value_of_holds hrate hpos.2,
      ← Decimal.value_exactMul]
    rfl
  by_cases hlarge : amount.unscaled.natAbs * rate.unscaled.natAbs < 10 ^ precision
  · have hexact := Decimal.fix_exact (by decide) hnonneg hlarge hproduct
    rw [hvalue, Decimal.mul_eq_fix, hexact, Decimal.value_exactMul]
    norm_num [zpow_neg, div_eq_mul_inv]
  · have hle : (⟨false, 10 ^ 22, -2⟩ : Decimal).value ≤
        (Decimal.exactMul deal.amount deal.rate).value := by
      rw [hproduct, show (-2 : ℤ) = -8 + (6 : ℕ) by norm_num, ← Decimal.value_mul_pow,
        Decimal.value_le_value_iff]
      simpa [precision] using hlarge
    have hlow : (⟨false, 10 ^ 22, -2⟩ : Decimal).value ≤
        (Decimal.mul precision deal.amount deal.rate).value :=
      Decimal.le_value_fix (by decide) hnonneg (by decide) hle
    have hnegative : counter.negative = false :=
      (Decimal.quantize_negative hcounter).trans hfix
    exact absurd hfits
      (not_fits_of_le hnegative (Decimal.le_value_of_quantize hfix hcounter hlow))

/-- The payments are of the amount and of the counter amount. -/
theorem amounts_of_counterAmount (hcounter : counterAmount deal = some counter) (valueDate : Date) :
    ∃ c₁ c₂, calculatePayments deal valueDate = some [c₁, c₂] ∧ c₁.amount = deal.amount ∧
      c₂.amount = counter := by
  obtain ⟨calculated, hcalc⟩ : ∃ calculated, calculatePayments deal valueDate = some calculated :=
    ⟨_, by rw [calculatePayments, hcounter]; rfl⟩
  obtain ⟨counter', c₁, c₂, hcounter', rfl, h₁, h₂, -⟩ := calculatePayments_eq_some hcalc
  rw [hcounter] at hcounter'
  cases hcounter'
  exact ⟨c₁, c₂, hcalc, h₁, h₂⟩

end Counter

/-! ## Places -/

/-- The payment has no more places than its currency. -/
def ReferenceData.Precise (nsi : ReferenceData) (p : PaymentRow) : Prop :=
  ∀ c ∈ nsi.currency? p.currencyCode.val, p.amount.toDecimal.hasPlaces c.decimalPlaces.toNat = true

/-- **What the precision rule checks** of a number that the decimal context can hold. -/
theorem decimalsValid_iff {d : Decimal} {maxPlaces : ℤ} (hd : d.positive = true)
    (hshort : digits d.coefficient ≤ precision) :
    decimalsValid d maxPlaces = true ↔ d.hasPlaces maxPlaces.toNat = true := by
  rw [← Decimal.neg_le_exponent_normalize_iff hd hshort, decimalsValid]
  split
  · rw [decide_eq_true_eq]
    omega
  · exact iff_of_true rfl (by omega)

/-- The amount of a valid deal has the places of the currency bought. -/
theorem decimalsValid_of_validate {deal : FXDeal} {counterparty : Option Counterparty}
    {currencies : String → Option Currency} (h : validate deal counterparty currencies = []) :
    ∀ c ∈ currencies deal.buyCurrency, decimalsValid deal.amount c.decimalPlaces = true := by
  simp only [validate, List.append_eq_nil_iff] at h
  obtain ⟨⟨⟨⟨-, hbuy⟩, -⟩, -⟩, -⟩ := h
  intro c hc
  rw [Option.mem_def.mp hc] at hbuy
  by_contra hinvalid
  simp [hinvalid] at hbuy

section Places

variable {env : Env} {user : UserClaims} {db : Database} {id : UUID} {r : DealRecord}
  {response : DealResponse}

/-- A counter amount that is stored has been rounded once. -/
theorem counterAmount_coefficient {nsi : ReferenceData} {n : Numeric 18 2}
    (h : counterAmount (FXDeal.ofRecord nsi id r) = some n.toDecimal) :
    n.toDecimal.coefficient = (product r.row + 500000) / 10 ^ 6 := by
  rw [counterAmount_eq] at h
  have hquantize := Decimal.quantize_fix
    ⟨xor (decide (r.row.amount.unscaled < 0)) (decide (r.row.rate.unscaled < 0)),
      product r.row, -8⟩ (show 5 + 1 ≤ 28 by decide)
  rw [h] at hquantize
  obtain ⟨-, ⟨-, hcoefficient⟩ | ⟨-, hlarge⟩⟩ := hquantize
  · exact hcoefficient
  · exact absurd n.fits (not_lt.mpr (le_trans (by decide) hlarge))

/-- A whole number of cents has as many places as the digits after it leave. -/
theorem div_mod_eq_zero_iff (n places : ℕ) :
    n / 10 ^ 6 % 10 ^ (2 - places) = 0 ↔ n % 10 ^ (8 - places) < 10 ^ 6 := by
  rcases Nat.lt_or_ge places 2 with hfew | hmany
  · rw [show 8 - places = 6 + (2 - places) by omega, Nat.pow_add, Nat.mod_mul]
    have hlast : n % 10 ^ 6 < 10 ^ 6 := Nat.mod_lt n (by decide)
    generalize n / 10 ^ 6 % 10 ^ (2 - places) = high
    omega
  · have hmod : n % 10 ^ (8 - places) < 10 ^ (8 - places) := Nat.mod_lt n (by positivity)
    have hpow : 10 ^ (8 - places) ≤ 10 ^ 6 := Nat.pow_le_pow_right (by decide) (by omega)
    rw [show 2 - places = 0 by omega, pow_zero, Nat.mod_one]
    exact iff_of_true rfl (by omega)

/-- **When both payments have the places of their currencies**: after a successful validation, the
payment in the currency bought has no more places than that one, and the counter payment has no
more than the currency sold if and only if amount times rate rounds to such a number. -/
theorem payments_precise_iff (hr : db.deals.lookup id = some r)
    (h : (execute env user (.validate id) db).result = .ok response) :
    ∃ s p₁ p₂, (execute env user (.validate id) db).database.deals.lookup id = some s ∧
      s.payments = [p₁, p₂] ∧
      (db.nsi.Precise p₁ ∧ db.nsi.Precise p₂ ↔ ∀ c ∈ db.nsi.currency? r.row.sellCurrency.val,
        (product r.row + 500000) % 10 ^ (8 - c.decimalPlaces.toNat) < 10 ^ 6) := by
  obtain ⟨d, assigned, s, hvalid, hs, -, hsettled, hsame⟩ := settled_of_ok hr h
  obtain ⟨_, c₁, c₂, p₁, p₂, -, hcalc, hpayments, hm₁, hm₂, -⟩ := hsettled
  obtain ⟨hcounter, hamount, hbuy, hsell⟩ := currencies_of_calculatePayments hcalc
  obtain ⟨-, hpositive, -⟩ := of_validate_eq_nil hvalid.issues
  have hproduct : product s.row = product r.row := by
    rw [product, product, hsame.amount, hsame.rate]
  have hamount₁ : p₁.amount.toDecimal = r.row.amount.toDecimal := by
    rw [hm₁.amount, hamount, ← hsame.amount]
    rfl
  have hcurrency₁ : p₁.currencyCode.val = r.row.buyCurrency.val := by
    rw [hm₁.currencyCode, hbuy, ← hsame.buyCurrency]
    rfl
  have hcurrency₂ : p₂.currencyCode.val = r.row.sellCurrency.val := by
    rw [hm₂.currencyCode, hsell, ← hsame.sellCurrency]
    rfl
  have hprecise : db.nsi.Precise p₁ := by
    intro c hc
    rw [hcurrency₁] at hc
    rw [hamount₁]
    have hshort : digits r.row.amount.toDecimal.coefficient ≤ precision :=
      (digits_le_iff (by decide)).mpr (r.row.amount.fits.trans (by decide))
    exact (decimalsValid_iff hpositive hshort).mp (decimalsValid_of_validate hvalid.issues c hc)
  refine ⟨s, p₁, p₂, hs, hpayments, (and_iff_right hprecise).trans ?_⟩
  rw [ReferenceData.Precise, hcurrency₂]
  refine forall₂_congr fun c _ => ?_
  have hcents := counterAmount_coefficient (hm₂.amount ▸ hcounter)
  rw [hproduct] at hcents
  have hexponent : p₂.amount.toDecimal.exponent = -2 := rfl
  rw [← div_mod_eq_zero_iff, ← hcents, Decimal.hasPlaces, decide_eq_true_iff, hexponent,
    show (-(c.decimalPlaces.toNat : ℤ) - -2).toNat = 2 - c.decimalPlaces.toNat by omega]

end Places

/-- Both payments of the deal of the desk have the places of their currencies. -/
theorem payments_precise_desk : ∃ s p₁ p₂,
    (execute (Desk.env 2) Desk.trader (.validate Desk.dealId)
      (Desk.after Desk.creation)).database.deals.lookup Desk.dealId = some s ∧
    s.payments = [p₁, p₂] ∧ (Desk.after Desk.creation).nsi.Precise p₁ ∧
      (Desk.after Desk.creation).nsi.Precise p₂ := by
  obtain ⟨response, hok⟩ := exists_ok_of_toBool (x := (execute (Desk.env 2) Desk.trader
    (.validate Desk.dealId) (Desk.after Desk.creation)).result) (by decide +kernel)
  obtain ⟨s, p₁, p₂, hs, hpayments, hiff⟩ :=
    payments_precise_iff (r := Desk.created) (Option.some_get _).symm hok
  exact ⟨s, p₁, p₂, hs, hpayments, hiff.mpr (by decide +kernel)⟩

namespace Desk

/-- A currency without cents. -/
def yen : Currency := ⟨⟨"JPY", by decide⟩, ⟨"Yen", by decide⟩, 0⟩

/-- The reference data with the yen in place of the euro. -/
def yenNsi : ReferenceData :=
  { nsi with
    currencies := [yen, usd]
    nostroAccounts :=
      [⟨⟨"N-JPY", by decide⟩, yen.code, bank.name, ⟨"40817392", by decide⟩, true⟩, usdAccount]
    currency_key := by decide
    nostro_key := by decide }

/-- The trader creates a purchase of 0.50 USD for JPY at 1. -/
def yenCreation : List Input :=
  [.request (env 1) trader
    (.create { payload with
      sellCurrency := "JPY", amount := ⟨false, 50, -2⟩, rate := ⟨false, 1, 0⟩
      amount_pos := by decide, rate_pos := by decide })]

/-- The database with this deal. -/
def afterYen : Database := serveAll step (Database.initial yenNsi) yenCreation

end Desk

/-- The sale of yen for 0.50 USD at 1 is valid, with a payment of 0.50 JPY. -/
theorem payment_too_precise :
    ¬ ∀ (nsi : ReferenceData) (history : List ServiceTurn) (db : Database),
      Run step (Database.initial nsi) history db → (∀ c ∈ nsi.currencies, 0 ≤ c.decimalPlaces) →
        ∀ env user id response, (execute env user (.validate id) db).result = .ok response →
          ∀ s, (execute env user (.validate id) db).database.deals.lookup id = some s →
            ∀ p ∈ s.payments, db.nsi.Precise p := by
  intro h
  have hrun : Run step (Database.initial Desk.yenNsi) _ Desk.afterYen :=
    run_serveAll step (Database.initial Desk.yenNsi) Desk.yenCreation
  obtain ⟨response, hok⟩ := exists_ok_of_toBool (x := (execute (Desk.env 2) Desk.trader
    (.validate Desk.dealId) Desk.afterYen).result) (by decide +kernel)
  have hplaces : ((execute (Desk.env 2) Desk.trader (.validate Desk.dealId)
      Desk.afterYen).database.deals.lookup Desk.dealId).any (fun s => s.payments.any fun p =>
        (Desk.afterYen.nsi.currency? p.currencyCode.val).any fun c =>
          !p.amount.toDecimal.hasPlaces c.decimalPlaces.toNat) = true := by
    decide +kernel
  obtain ⟨s, hs, hpayments⟩ := (Option.any_eq_true _ _).mp hplaces
  obtain ⟨p, hp, hcurrency⟩ := List.any_eq_true.mp hpayments
  obtain ⟨c, hc, hinvalid⟩ := (Option.any_eq_true _ _).mp hcurrency
  have hprecise := h _ _ _ hrun (by decide) _ _ _ _ hok s hs p hp c hc
  rw [hprecise] at hinvalid
  cases hinvalid

end FxDealManager
