import FxDealManager.Services.Payments

/-!
# Checks of a deal

The format checks of a deal against the reference data, and the check of its limits.

## Main definitions

* `decimalsValid`: a number has at most the given number of decimal places
* `validate`: the complaints of the format checks
* `findBestLimit`: the most specific limit for a counterparty and a currency
* `checkLimits`: the complaints of the limit check
-/

namespace FxDealManager

open DecimalArithmetic

/-- `_decimals_valid`. -/
def decimalsValid (value : Decimal) (maxPlaces : ℤ) : Bool :=
  let exponent := (value.normalize precision).exponent
  if exponent < 0 then (exponent.natAbs : ℤ) ≤ maxPlaces else true

/-- `ValidationService.validate`. -/
def validate (deal : FXDeal) (counterparty : Option Counterparty)
    (currencies : String → Option Currency) : List ValidationIssue :=
  (if deal.dealState ≠ .draft then [⟨"status", "Only DRAFT deals can be validated"⟩] else [])
  ++ (if deal.buyCurrency = deal.sellCurrency then
      [⟨"buy_currency", "Buy and sell currencies must differ"⟩] else [])
  ++ (if !deal.amount.positive then [⟨"amount", "Amount must be positive"⟩] else [])
  ++ (if !deal.rate.positive then [⟨"rate", "Rate must be positive"⟩] else [])
  ++ (match currencies deal.buyCurrency with
    | none => [⟨"buy_currency", s!"Currency '{deal.buyCurrency}' is not in NSI"⟩]
    | some buy =>
      if !decimalsValid deal.amount buy.decimalPlaces then
        [⟨"amount",
          s!"Amount precision exceeds {buy.decimalPlaces} decimals for {deal.buyCurrency}"⟩]
      else [])
  -- the precision of the counter amount is not checked
  ++ (match currencies deal.sellCurrency with
    | none => [⟨"sell_currency", s!"Currency '{deal.sellCurrency}' is not in NSI"⟩]
    | some _ => [])
  ++ (match counterparty with
    | none => [⟨"counterparty_id", s!"Counterparty '{deal.counterpartyId}' is not in NSI"⟩]
    | some c =>
      if !c.isActive then
        [⟨"counterparty_id", s!"Counterparty '{deal.counterpartyId}' is inactive"⟩]
      else [])
  ++ (if deal.loadedDealType = .forward ∧ deal.valueDate = none then
      [⟨"value_date", "Value date is required for FORWARD deals"⟩] else [])

/-- What a deal without complaints has been checked for, as far as later steps rely on it. -/
theorem of_validate_eq_nil {deal : FXDeal} {counterparty : Option Counterparty}
    {currencies : String → Option Currency} (h : validate deal counterparty currencies = []) :
    deal.dealState = .draft ∧ deal.amount.positive = true ∧ deal.rate.positive = true := by
  simp only [validate, List.append_eq_nil_iff] at h
  obtain ⟨⟨⟨⟨⟨⟨⟨hstate, -⟩, hamount⟩, hrate⟩, -⟩, -⟩, -⟩, -⟩ := h
  refine ⟨?_, ?_, ?_⟩
  · by_contra hne
    simp [hne] at hstate
  · by_contra hne
    simp [hne] at hamount
  · by_contra hne
    simp [hne] at hrate

/-- A deal outside `DRAFT` has a complaint. -/
theorem validate_ne_nil {deal : FXDeal} {counterparty : Option Counterparty}
    {currencies : String → Option Currency} (h : deal.dealState ≠ .draft) :
    validate deal counterparty currencies ≠ [] :=
  fun hnil => h (of_validate_eq_nil hnil).1

/-! ## Limits -/

/-- The lexicographic order of pairs. -/
def keyLt (a b : ℕ × ℕ) : Bool := a.1 < b.1 || (a.1 = b.1 && a.2 < b.2)

/-- The first element with the largest key. -/
def maxByKey {α : Type} (key : α → ℕ × ℕ) : List α → Option α
  | [] => none
  | a :: rest => some (rest.foldl (fun best b => if keyLt (key best) (key b) then b else best) a)

/-- `_specificity`: a limit for the counterparty counts more than one for the currency. -/
def specificity (counterpartyId currencyCode : String) (limit : DealLimit) : ℕ × ℕ :=
  (if limit.counterpartyId.any (·.val = counterpartyId) then 1 else 0,
    if limit.currencyCode.any (·.val = currencyCode) then 1 else 0)

/-- `_find_best_limit`. -/
def findBestLimit (limits : List DealLimit) (counterpartyId currencyCode : String) :
    Option DealLimit :=
  maxByKey (specificity counterpartyId currencyCode) <| limits.filter fun limit =>
    limit.counterpartyId.all (·.val = counterpartyId) &&
      limit.currencyCode.all (·.val = currencyCode)

/-- The complaint about an amount above the limit found for its currency. -/
def limitIssue (limits : List DealLimit) (counterpartyId currency label : String)
    (amount : Decimal) : List ValidationIssue :=
  match findBestLimit limits counterpartyId currency with
  | none => []
  | some limit =>
    if limit.maxAmount.toDecimal.lt amount then
      [⟨"amount", s!"{label} amount {amount.text} {currency} exceeds limit " ++
        s!"{limit.maxAmount.toDecimal.text} for counterparty {counterpartyId}"⟩]
    else []

/-- `LimitCheckService.check`, over the active limits of the counterparty. -/
def checkLimits (limits : List DealLimit) (deal : FXDeal) : Option (List ValidationIssue) :=
  -- without limits, the counter amount is not even computed
  if limits.isEmpty then some []
  else
    (counterAmount deal).map fun counter =>
      limitIssue limits deal.counterpartyId deal.buyCurrency "Deal" deal.amount
        ++ limitIssue limits deal.counterpartyId deal.sellCurrency "Counter" counter

end FxDealManager
