import FxDealManager.Api.Positions
import FxDealManager.Collections.Dictionaries
import FxDealManager.Reporting.Listings
import FxDealManager.Text.Decimals
import Mathlib.Data.String.Basic

/-!
# The report of the positions

The overview of the positions from the report as the position system sends it, a JSON value. Only
the call that fetches the report is guarded; what is wrong with the value itself shows in the middle
of its interpretation, as an exception of its own.

## Main definitions

* `Unicode`: what the overview asks of Unicode
* `OverviewError`: the exceptions of the interpretation
* `dec`, `accountOf`, `accountsOf`: the numbers and the rows of a report
* `totalsOf`, `currenciesOf`: the sums of the positions, and what is shown of a currency
* `reportedOverview`: the route
-/

namespace FxDealManager

open DecimalArithmetic DecimalText Dictionaries Transactional

/-- What the overview asks of Unicode: the upper case of a text, and the decimal digits beyond
ASCII. -/
structure Unicode where
  upper : String → String
  decimal : Char → Option ℕ

/-- A decimal digit. -/
def Unicode.digit (u : Unicode) (c : Char) : Option ℕ :=
  if '0' ≤ c ∧ c ≤ '9' then some (c.toNat - 48)
  else if c.toNat ≤ 127 then none
  else u.decimal c

/-- The exceptions that the interpretation of a report may raise. -/
inductive OverviewError where
  | attributeError (text : String)
  | typeError (text : String)
  | invalidOperation
  | overflow
  | validationError (fields : List String)
deriving DecidableEq, Repr

/-! ## Numbers -/

/-- The context of exact conversions. -/
def conversionContext : Context where
  prec := 999999999999999999
  emin := -999999999999999999
  emax := 999999999999999999
  prec_pos := by decide
  emin_le := by decide
  emax_nonneg := by decide

section Report

variable (u : Unicode)

/-- `Decimal(text)`: the spaces around a text and all underscores do not count. -/
def decimalOf (text : String) : Except OverviewError Spelled :=
  match DecimalText.read u.digit ((strip text).toList.filter (· ≠ '_')) with
  | none => .error .invalidOperation
  | some .special => .ok .special
  | some (.finite d) =>
    if conversionContext.Holds d then .ok (.finite d) else .error .invalidOperation

/-- `_dec`: a missing value, null and the empty text are no number. -/
def dec (value : Option Json) : Except OverviewError (Option Spelled) :=
  match value with
  | none | some .null => .ok none
  | some (.str s) => if s = "" then .ok none else (decimalOf u s).map some
  | some v => (decimalOf u v.text).map some

/-! ## Rows -/

/-- `str(value or "")`. -/
def textOrEmpty (value : Option Json) : String :=
  ((value.filter Json.truthy).map Json.text).getD ""

/-- The name of an account, or else its account name. -/
def nameValue (row : Json) : Option Json :=
  ((row.get "name").filter Json.truthy).or (row.get "account_name")

/-- A name that a response may have: a text, or none. -/
def nameOf : Option Json → Option (Option String)
  | none | some .null => some none
  | some (.str s) => some (some s)
  | some _ => none

/-- A number that a response may have: a finite one, or none. -/
def finiteOf : Option Spelled → Option (Option Decimal)
  | none => some none
  | some (.finite d) => some (some d)
  | some .special => none

/-- The account that a row reports: the numbers are converted one after another, then the response
checks its fields. -/
def accountOf (row : Json) : Except OverviewError FxPositionAccountResponse := do
  let openingBalance ← dec u (row.get "opening_balance")
  let turnoverIn ← dec u (row.get "turnover_in")
  let turnoverOut ← dec u (row.get "turnover_out")
  let currentPosition ← dec u (row.get "current_position")
  match nameOf (nameValue row), finiteOf openingBalance, finiteOf turnoverIn,
      finiteOf turnoverOut, finiteOf currentPosition with
  | some name, some openingBalance, some turnoverIn, some turnoverOut, some currentPosition =>
    return {
      accountNumber := textOrEmpty (row.get "account_number")
      name
      currencyCode := u.upper (textOrEmpty (row.get "currency_code"))
      openingBalance, turnoverIn, turnoverOut, currentPosition }
  | name, openingBalance, turnoverIn, turnoverOut, currentPosition =>
    .error <| .validationError <|
      (if name.isNone then ["name"] else []) ++
      (if openingBalance.isNone then ["opening_balance"] else []) ++
      (if turnoverIn.isNone then ["turnover_in"] else []) ++
      (if turnoverOut.isNone then ["turnover_out"] else []) ++
      (if currentPosition.isNone then ["current_position"] else [])

/-- What a loop over a value goes through. -/
def iterate : Json → Except OverviewError (List Json)
  | .arr items => .ok items
  | .str s => .ok (s.toList.map fun c => .str c.toString)
  | .obj fields => .ok (fields.map fun f => .str f.1)
  | value => .error (.typeError s!"'{value.typeName}' object is not iterable")

/-- The rows of a report; a value that does not count as true has none. -/
def rowsOf (blob : Json) : Except OverviewError (List Json) :=
  match blob with
  | .obj _ => ((blob.get "positions").filter Json.truthy).elim (.ok []) iterate
  | _ => .error (.attributeError s!"'{blob.typeName}' object has no attribute 'get'")

/-- The value is an object. -/
def Json.isObject : Json → Bool
  | .obj _ => true
  | _ => false

/-- The accounts of a report: what is no object is skipped. -/
def accountsOf (blob : Json) : Except OverviewError (List FxPositionAccountResponse) := do
  let rows ← rowsOf blob
  (rows.filter Json.isObject).mapM (accountOf u)

end Report

/-! ## Sums -/

/-- The totals of the accounts: a position of zero counts as none, whatever its exponent. -/
def totalsOf (accounts : List FxPositionAccountResponse) :
    Except OverviewError (Dict String Decimal) :=
  (accumulate FxPositionAccountResponse.currencyCode (fun total account =>
    Context.default.add (total.getD .zero)
      ((account.currentPosition.filter (·.coefficient ≠ 0)).getD .zero)) ∅ accounts).elim
    (.error .overflow) .ok

/-- What the overview shows for a currency. -/
def currencyOf (exposure : Amounts) (item : String × Decimal) :
    Except OverviewError FxPositionCurrencyResponse :=
  let openExposure := exposure.amount item.1
  (Context.default.add item.2 openExposure).elim (.error .overflow) fun projectedPosition =>
    .ok { currencyCode := item.1, currentPosition := item.2, openExposure, projectedPosition }

/-- What the overview shows for the currencies, in the order of their codes; a row without a
currency is shown as an account only. -/
def currenciesOf (accounts : List FxPositionAccountResponse) (exposure : Amounts) :
    Except OverviewError (List FxPositionCurrencyResponse) := do
  let totals ← totalsOf accounts
  let totals := (exposure.map Prod.fst).foldl (fun totals code => totals.setDefault code .zero)
    totals
  (totals.sortedItems.filter fun item => item.1 ≠ "").mapM (currencyOf exposure)

/-- What the overview makes of a report. -/
def overviewOf (u : Unicode) (onDate : Date) (blob : Json) (exposure : Amounts) :
    Except OverviewError FxPositionsResponse := do
  let accounts ← accountsOf u blob
  let currencies ← currenciesOf accounts exposure
  return { date := onDate, accounts, currencies }

/-- `positions_overview`, with the report that the position system sends for the date. -/
def reportedOverview (u : Unicode) (user : UserClaims) (onDate : Date)
    (report : Except String Json) : Service (Except OverviewError FxPositionsResponse) := do
  Program.require (user.role ∈ [.positioner, .admin, .auditor])
    (.http 403 s!"Role {user.role.value} is not allowed")
  let exposure ← Program.query openExposureByCurrency
  match report with
  | .error text =>
    Program.raise (.http 502 s!"POSITIONS-ASUBANK contract unavailable: {text}")
  | .ok blob => return overviewOf u onDate blob exposure

end FxDealManager
