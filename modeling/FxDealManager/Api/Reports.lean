import FxDealManager.Services.RegulatoryReport
import FxDealManager.Text.Csv

/-!
# Reports

The route of the regulatory export: the items of a report as JSON, or as a CSV text with one line
for each payment.

## Main definitions

* `regulatoryCsvColumns`, `regulatoryCsvRow`: the header and a line of the CSV text
* `regulatoryDealsReport`: the route
-/

namespace FxDealManager

open Transactional

inductive ReportFormat where
  | json
  | csv
deriving DecidableEq, Repr

/-- The body of an export. -/
inductive ReportBody where
  | json (items : List RegulatoryItem)
  | csv (text : String)
deriving DecidableEq, Repr

/-- `REGULATORY_CSV_COLUMNS`. -/
def regulatoryCsvColumns : List String :=
  ["deal_id", "trade_date", "value_date", "deal_type", "operation_direction", "amount", "rate",
    "status", "validation_status", "trader_email", "positioner_id", "counterparty_id",
    "counterparty_name", "counterparty_bic", "counterparty_country", "counterparty_is_active",
    "buy_currency_code", "buy_currency_name", "buy_currency_decimal_places", "sell_currency_code",
    "sell_currency_name", "sell_currency_decimal_places", "payment_direction", "payment_amount",
    "payment_currency", "payment_value_date", "payment_account_code", "nostro_account_number",
    "nostro_bank_name"]

/-- The text of a flag, which is empty for none. -/
def flagText : Option Bool → String
  | none => ""
  | some true => "True"
  | some false => "False"

/-- The line of a payment. -/
def regulatoryCsvRow (item : RegulatoryItem) (payment : PaymentItem) : List String :=
  [item.dealId, item.tradeDate, item.valueDate.getD "", item.dealType, item.operationDirection,
    item.amount, item.rate, item.status, item.validationStatus, item.traderEmail,
    item.positionerId.getD "", item.counterparty.id, item.counterparty.name.getD "",
    item.counterparty.bic.getD "", item.counterparty.country.getD "",
    flagText item.counterparty.isActive, item.buyCurrency.code, item.buyCurrency.name,
    toString item.buyCurrency.decimalPlaces, item.sellCurrency.code, item.sellCurrency.name,
    toString item.sellCurrency.decimalPlaces, payment.direction, payment.amount, payment.currency,
    payment.valueDate.getD "", payment.accountCode.getD "", payment.accountNumber.getD "",
    payment.bankName.getD ""]

/-- The CSV text of items: the header, and one line for each payment of each item. -/
def regulatoryCsv (items : List RegulatoryItem) : String :=
  Csv.write (regulatoryCsvColumns ::
    items.flatMap fun item => item.payments.map (regulatoryCsvRow item))

def ReportFormat.body (items : List RegulatoryItem) : ReportFormat → ReportBody
  | .json => .json items
  | .csv => .csv (regulatoryCsv items)

/-- `regulatory_deals_report`. -/
def regulatoryDealsReport (user : UserClaims) (filter : ReportFilter) (fmt : ReportFormat) :
    Service (Except ReportError ReportBody) := do
  Program.require (user.role ∈ [.auditor, .admin])
    (.http 403 s!"Role {user.role.value} is not allowed")
  let report ← generate filter user.email
  pure (report.map fun items => fmt.body items)

end FxDealManager
