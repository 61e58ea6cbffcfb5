import FxDealManager.Repositories.ReferenceData

/-!
# Value dates, payments and accounts

The value date of a deal by its type and the business calendar, the two payments of a deal, and
the nostro accounts assigned to them.

## Main definitions

* `calculateValueDate`: the value date of a deal
* `counterAmount`: the amount of the counter leg, rounded half up to cents
* `calculatePayments`: the two payments of a deal
* `assignNostro`: the payments with the account numbers of their currencies
-/

namespace FxDealManager

open DecimalArithmetic

/-! ## Settlement -/

/-- How the calculation of a value date fails; the overflow is no value error. -/
inductive SettlementError where
  | valueError (text : String)
  | overflowError
deriving DecidableEq, Repr

/-- The first business day from `current` on; `left` counts down the days to the horizon of 366
days after the start. -/
def rollForward (cal : Calendar) (start : Date) : (left : ℕ) → (current : Date) →
    Except SettlementError Date
  | left, current =>
    if cal.isBusinessDay current then .ok current
    else
      match left, current.addDays 1 with
      | _, none => .error .overflowError
      | 0, some _ => .error (.valueError s!"No business day found on or after {start.isoformat}")
      | left + 1, some next => rollForward cal start left next

/-- Step from `current` over `missing` more business days of the `n` asked for; `left` counts down
the days to the horizon, which is tested after the business day is counted. -/
def stepBusinessDays (cal : Calendar) (start : Date) (n : ℕ) : (left missing : ℕ) →
    (current : Date) → Except SettlementError Date
  | _, 0, current => .ok current
  | left, missing + 1, current =>
    match left, current.addDays 1 with
    | _, none => .error .overflowError
    | 0, some _ =>
      .error (.valueError s!"Could not add {n} business days from {start.isoformat}")
    | left + 1, some next =>
      stepBusinessDays cal start n left
        (if cal.isBusinessDay next then missing else missing + 1) next

/-- `_add_business_days`. -/
def addBusinessDays (start : Date) (n : ℕ) (cal : Calendar) : Except SettlementError Date :=
  if n = 0 then rollForward cal start 366 start else stepBusinessDays cal start n 366 n start

/-- `SettlementService.calculate_value_date`. -/
def calculateValueDate (tradeDate : Date) (dealType : DealType) (cal : Calendar)
    (explicitValueDate : Option Date) : Except SettlementError Date :=
  match dealType with
  | .forward =>
    match explicitValueDate with
    | none => .error (.valueError "FORWARD deals require an explicit value date")
    | some d =>
      if cal.isBusinessDay d then .ok d
      else .error (.valueError s!"{d.isoformat} is not a business day")
  | .tod => addBusinessDays tradeDate 0 cal
  | .tom => addBusinessDays tradeDate 1 cal
  | .spot => addBusinessDays tradeDate 2 cal

/-! ## Payments -/

structure CalculatedPayment where
  amount : Decimal
  currencyCode : String
  paymentDirection : PaymentDirection
  valueDate : Date
deriving DecidableEq, Repr

/-- The precision of the decimal context. -/
def precision : ℕ := 28

/-- The amount of the counter leg; `none` is the invalid operation of an amount too large for the
context. -/
def counterAmount (deal : FXDeal) : Option Decimal :=
  (Decimal.mul precision deal.amount deal.rate).quantize precision .halfUp (-2)

/-- `PaymentCalculator.calculate`. -/
def calculatePayments (deal : FXDeal) (valueDate : Date) : Option (List CalculatedPayment) :=
  (counterAmount deal).map fun counter =>
    match deal.operationDirection with
    | .buy =>
      -- the amount is one of the currency bought, whatever the direction
      [⟨deal.amount, deal.buyCurrency, .incoming, valueDate⟩,
        ⟨counter, deal.sellCurrency, .outgoing, valueDate⟩]
    | .sell =>
      [⟨deal.amount, deal.buyCurrency, .outgoing, valueDate⟩,
        ⟨counter, deal.sellCurrency, .incoming, valueDate⟩]

/-! ## Nostro accounts -/

/-- `NostroAssignmentService.assign`: the payments with their account numbers, and a complaint
for each payment whose currency has no account. -/
def assignNostro (nostroByCurrency : String → Option NostroAccount) :
    List CalculatedPayment → List (CalculatedPayment × String) × List ValidationIssue
  | [] => ([], [])
  | payment :: payments =>
    let (assigned, errors) := assignNostro nostroByCurrency payments
    match nostroByCurrency payment.currencyCode with
    | none =>
      (assigned,
        ⟨"payments", s!"No active nostro account for currency {payment.currencyCode}"⟩ :: errors)
    | some nostro => ((payment, nostro.accountNumber.val) :: assigned, errors)

/-- Without complaints, every payment is assigned an account, in order. -/
theorem map_fst_assignNostro {nostroByCurrency : String → Option NostroAccount}
    {payments : List CalculatedPayment} (h : (assignNostro nostroByCurrency payments).2 = []) :
    (assignNostro nostroByCurrency payments).1.map Prod.fst = payments := by
  induction payments with
  | nil => rfl
  | cons payment payments ih =>
    simp only [assignNostro] at h ⊢
    cases hn : nostroByCurrency payment.currencyCode with
    | none =>
      simp [hn] at h
    | some nostro =>
      rw [hn] at h
      simp [ih h]

end FxDealManager
