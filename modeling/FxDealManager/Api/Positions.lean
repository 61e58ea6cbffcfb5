import FxDealManager.Api.Requests

/-!
# Positions

The overview of the positions: for each currency the current position that the position system
reports, and the open exposure, the sum of the payments of deals that are not executed yet.

## Main definitions

* `FxPositionAccountResponse`: one account as the position system reports it
* `openPayments`, `openExposureByCurrency`: what is still to be paid
* `positionsOverview`: the overview
-/

namespace FxDealManager

open DecimalArithmetic Transactional

/-- One account, as the position system reports it. -/
structure FxPositionAccountResponse where
  accountNumber : String
  name : Option String
  currencyCode : String
  openingBalance : Option Decimal
  turnoverIn : Option Decimal
  turnoverOut : Option Decimal
  currentPosition : Option Decimal
deriving DecidableEq, Repr

structure FxPositionCurrencyResponse where
  currencyCode : String
  currentPosition : Decimal
  openExposure : Decimal
  projectedPosition : Decimal
deriving DecidableEq, Repr

structure FxPositionsResponse where
  date : Date
  accounts : List FxPositionAccountResponse
  currencies : List FxPositionCurrencyResponse
deriving DecidableEq, Repr

/-- A dictionary of amounts, in the order in which its keys were entered. -/
abbrev Amounts := List (String × Decimal)

/-- The amount of a key, or zero. -/
def Amounts.amount (dict : Amounts) (key : String) : Decimal := (dict.lookup key).getD .zero

/-- Add an amount to the one of a key, which is zero if it is missing. -/
def Amounts.addTo (key : String) (x : Decimal) : Amounts → Amounts
  | [] => [(key, Decimal.add precision .zero x)]
  | (k, v) :: rest =>
    if k = key then (k, Decimal.add precision v x) :: rest else (k, v) :: Amounts.addTo key x rest

/-- Enter a key with the amount zero, if it is missing. -/
def Amounts.setDefault (key : String) (dict : Amounts) : Amounts :=
  if (dict.lookup key).isSome then dict else dict ++ [(key, .zero)]

/-- The deal counts as open exposure. -/
def DealState.open : DealState → Bool
  | .draft | .waitingForPositioner | .approved => true
  | .rejected | .executed | .cancelled => false

/-- The payments of the open deals. -/
def openPayments (db : Database) : List PaymentRow :=
  db.deals.entries.flatMap fun e => if e.2.row.dealState.open then e.2.payments else []

/-- The amount of a payment, negative if it goes out. -/
def PaymentRow.signed (p : PaymentRow) : Decimal :=
  match p.paymentDirection with
  | .incoming => Decimal.mul precision p.amount.toDecimal ⟨false, 1, 0⟩
  | .outgoing => Decimal.mul precision p.amount.toDecimal ⟨true, 1, 0⟩

/-- The sums of payments by currency. -/
def exposureOf (payments : List PaymentRow) : Amounts :=
  payments.foldl (fun exposure p => exposure.addTo p.currencyCode.val p.signed) []

/-- `_open_exposure_by_currency`. -/
def openExposureByCurrency (db : Database) : Amounts := exposureOf (openPayments db)

/-- The totals of the accounts, with a zero for each other currency of the exposure. -/
def positionTotals (accounts : List FxPositionAccountResponse) (exposure : Amounts) : Amounts :=
  let totals : Amounts := accounts.foldl (fun totals account =>
    totals.addTo account.currencyCode
      ((account.currentPosition.filter (·.coefficient ≠ 0)).getD .zero)) []
  exposure.foldl (fun totals e => totals.setDefault e.1) totals

/-- What the overview shows for the currencies, in the order of their codes. -/
def positionCurrencies (accounts : List FxPositionAccountResponse) (exposure : Amounts) :
    List FxPositionCurrencyResponse :=
  let totals := (positionTotals accounts exposure).mergeSort fun a b => a.1 ≤ b.1
  (totals.filter fun e => e.1 ≠ "").map fun (code, current) =>
    { currencyCode := code
      currentPosition := current
      openExposure := exposure.amount code
      projectedPosition := Decimal.add precision current (exposure.amount code) }

/-- `positions_overview`, with what the position system reports for the date. -/
def positionsOverview (user : UserClaims) (onDate : Date)
    (report : Except String (List FxPositionAccountResponse)) : Service FxPositionsResponse := do
  Program.require (user.role ∈ [.positioner, .admin, .auditor])
    (.http 403 s!"Role {user.role.value} is not allowed")
  let exposure ← Program.query openExposureByCurrency
  match report with
  | .error text =>
    Program.raise (.http 502 s!"POSITIONS-ASUBANK contract unavailable: {text}")
  | .ok accounts =>
    pure {
      date := onDate
      accounts := accounts
      currencies := positionCurrencies accounts exposure }

end FxDealManager
