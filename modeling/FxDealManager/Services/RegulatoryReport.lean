import FxDealManager.Services.ApprovalService
import Mathlib.Data.List.Sort

/-!
# The regulatory report

The export of deals with the reference data they refer to: what is missing for the valid deals is
checked before anything is exported.

## Main definitions

* `ReportFilter`, `listDealsForRegulatoryReport`: the deals of a report
* `ReportNsi.resolveNostro`: the account that the code of a payment stands for
* `validateNsi`: the complaints about the reference data of the valid deals
* `RegulatoryItem`, `serializeDeal`: a deal as it is exported
* `generate`: the report, or why there is none
-/

namespace FxDealManager

open DecimalArithmetic Transactional

structure RegulatoryNsiError where
  dealId : String
  field : String
  message : String
deriving DecidableEq, Repr

/-- The exceptions of a report itself: the complaints, or a key that a dictionary lacks. -/
inductive ReportError where
  | incomplete (errors : List RegulatoryNsiError)
  | keyError (key : String)
deriving DecidableEq, Repr

/-! ## The deals of a report -/

structure ReportFilter where
  tradeDateFrom : Option Date
  tradeDateTo : Option Date
  counterpartyId : Option String
deriving DecidableEq, Repr

/-- The deal is not cancelled, and the filter admits it. -/
def ReportFilter.admits (filter : ReportFilter) (row : FXDealRow) : Bool :=
  row.dealState ≠ .cancelled && filter.tradeDateFrom.all (· ≤ row.tradeDate) &&
    filter.tradeDateTo.all (row.tradeDate ≤ ·) &&
    filter.counterpartyId.all (row.counterpartyId.val = ·)

/-- The order of a report: by trade date, then by creation. -/
def FXDeal.precedes (a b : FXDeal) : Prop :=
  a.tradeDate.ordinal < b.tradeDate.ordinal ∨
    a.tradeDate = b.tradeDate ∧ a.createdAt ≤ b.createdAt

instance : DecidableRel FXDeal.precedes := fun a b =>
  inferInstanceAs (Decidable (a.tradeDate.ordinal < b.tradeDate.ordinal ∨
    a.tradeDate = b.tradeDate ∧ a.createdAt ≤ b.createdAt))

/-- `DealRepository.list_deals_for_regulatory_report`. -/
def listDealsForRegulatoryReport (filter : ReportFilter) (db : Database) : List FXDeal :=
  ((db.deals.entries.filter fun e => filter.admits e.2.row).map fun e =>
    FXDeal.ofRecord db.nsi e.1 e.2).insertionSort FXDeal.precedes

/-! ## Complaints -/

/-- The dictionaries that a report looks codes up in. -/
structure ReportNsi where
  currencies : String → Option Currency
  nostroByNumber : String → Option NostroAccount
  nostroById : String → Option NostroAccount

/-- `_resolve_nostro`: a number is looked up before an id. -/
def ReportNsi.resolveNostro (nsi : ReportNsi) (accountCode : String) : Option NostroAccount :=
  (nsi.nostroByNumber accountCode).or (nsi.nostroById accountCode)

/-- The complaints about the counterparty of a deal. -/
def counterpartyErrors (dealId : String) : Option Counterparty → List RegulatoryNsiError
  | none => [⟨dealId, "counterparty_id", "Counterparty is missing in NSI"⟩]
  | some counterparty =>
    (if counterparty.id.val = "" then
      [⟨dealId, "counterparty.id", "Counterparty id is required"⟩] else []) ++
    (if counterparty.name.val = "" then
      [⟨dealId, "counterparty.name", "Counterparty name is required"⟩] else []) ++
    -- an empty BIC counts as none
    (if counterparty.bic.all (·.val = "") then
      [⟨dealId, "counterparty.bic", "Counterparty BIC is required"⟩] else [])

/-- The complaint about a currency of a deal, which stands in `field`. -/
def currencyErrors (nsi : ReportNsi) (dealId field code : String) : List RegulatoryNsiError :=
  if (nsi.currencies code).isSome then []
  else [⟨dealId, field, s!"Currency '{code}' is not in NSI"⟩]

/-- The complaints about the account of a payment. -/
def accountErrors (nsi : ReportNsi) (dealId : String) (payment : Payment) :
    List RegulatoryNsiError :=
  match payment.accountCode.filter (· ≠ "") with
  | none =>
    [⟨dealId, "payment.account_code", "Payment account_code is required for regulatory export"⟩]
  | some code =>
    match nsi.resolveNostro code with
    | none => [⟨dealId, "payment.account_code", s!"Nostro account '{code}' is not in NSI"⟩]
    | some nostro =>
      if nostro.isActive then []
      else [⟨dealId, "payment.account_code", s!"Nostro account '{code}' is inactive"⟩]

/-- `_validate_nsi`: only the valid deals are checked. -/
def validateNsi (nsi : ReportNsi) (deals : List FXDeal) : List RegulatoryNsiError :=
  deals.flatMap fun deal =>
    if deal.validationStatus ≠ .valid then []
    else
      let dealId := UUID.text deal.id
      counterpartyErrors dealId deal.counterparty ++
        currencyErrors nsi dealId "buy_currency" deal.buyCurrency ++
        currencyErrors nsi dealId "sell_currency" deal.sellCurrency ++
        deal.payments.flatMap (accountErrors nsi dealId)

/-! ## Items -/

structure CurrencyItem where
  code : String
  name : String
  decimalPlaces : ℤ
deriving DecidableEq, Repr

structure CounterpartyItem where
  id : String
  name : Option String
  bic : Option String
  country : Option String
  isActive : Option Bool
deriving DecidableEq, Repr

structure PaymentItem where
  direction : String
  amount : String
  currency : String
  valueDate : Option String
  accountCode : Option String
  accountNumber : Option String
  bankName : Option String
deriving DecidableEq, Repr

structure RegulatoryItem where
  dealId : String
  tradeDate : String
  valueDate : Option String
  dealType : String
  operationDirection : String
  buyCurrency : CurrencyItem
  sellCurrency : CurrencyItem
  amount : String
  rate : String
  status : String
  validationStatus : String
  traderId : String
  traderEmail : String
  positionerId : Option String
  counterparty : CounterpartyItem
  payments : List PaymentItem
deriving DecidableEq, Repr

def serializeCurrency (currency : Currency) : CurrencyItem where
  code := currency.code.val
  name := currency.name.val
  decimalPlaces := currency.decimalPlaces

def serializeCounterparty (deal : FXDeal) : CounterpartyItem where
  id := (deal.counterparty.map (·.id.val)).getD deal.counterpartyId
  name := deal.counterparty.map (·.name.val)
  bic := deal.counterparty.bind fun counterparty => counterparty.bic.map Varchar.val
  country := deal.counterparty.bind fun counterparty => counterparty.country.map Varchar.val
  isActive := deal.counterparty.map (·.isActive)

def serializePayment (nsi : ReportNsi) (payment : Payment) : PaymentItem :=
  let nostro := nsi.resolveNostro (payment.accountCode.getD "")
  { direction := payment.paymentDirection.value
    amount := payment.amount.text
    currency := payment.currencyCode
    valueDate := payment.valueDate.map Date.isoformat
    accountCode := payment.accountCode
    accountNumber := nostro.map (·.accountNumber.val)
    bankName := nostro.map (·.bankName.val) }

/-- `currencies[code]`. -/
def currencyOfCode (nsi : ReportNsi) (code : String) : Except ReportError Currency :=
  match nsi.currencies code with
  | some currency => .ok currency
  | none => .error (.keyError code)

/-- `_serialize_deal`. -/
def serializeDeal (nsi : ReportNsi) (deal : FXDeal) : Except ReportError RegulatoryItem := do
  let buyCurrency ← currencyOfCode nsi deal.buyCurrency
  let sellCurrency ← currencyOfCode nsi deal.sellCurrency
  return {
    dealId := UUID.text deal.id
    tradeDate := deal.tradeDate.isoformat
    valueDate := deal.valueDate.map Date.isoformat
    dealType := deal.dealType.value
    operationDirection := deal.operationDirection.value
    buyCurrency := serializeCurrency buyCurrency
    sellCurrency := serializeCurrency sellCurrency
    amount := deal.amount.text
    rate := deal.rate.text
    status := deal.dealState.value
    validationStatus := deal.validationStatus.value
    traderId := deal.traderId
    traderEmail := deal.traderEmail
    positionerId := deal.positionerId
    counterparty := serializeCounterparty deal
    payments := deal.payments.map (serializePayment nsi) }

/-! ## The report -/

/-- The JSON array that the audit entry of a failed report holds. -/
def nsiErrorsJson (errors : List RegulatoryNsiError) : Json :=
  .arr (errors.map fun error => .obj [("deal_id", .str error.dealId), ("field", .str error.field),
    ("message", .str error.message)])

/-- The entry of a failed report, about its first deal. -/
def logReportFailure (deals : List FXDeal) (createdBy : String)
    (errors : List RegulatoryNsiError) : Service Unit := do
  let id ← freshId
  let now ← Program.ask Env.now
  let createdBy ← ofDb (storeColumn Varchar.ofString (.stringTooLong "created_by") createdBy)
  executeAll [.insertAudit
    { id, entityId := (deals.head?.map FXDeal.id).getD 0, entityType := .regulatoryReport
      action := .regulatoryReportFailed, oldValue := none
      newValue := some (nsiErrorsJson errors), createdAt := now, createdBy }]

/-- `RegulatoryReportService.generate`. Its own exceptions are values here; they are raised after
the last call to the database. -/
def generate (filter : ReportFilter) (createdBy : String) :
    Service (Except ReportError (List RegulatoryItem)) := do
  lookupCode
  let deals ← Program.query (listDealsForRegulatoryReport filter)
  let currencies ← Program.query fun db => db.nsi.currency?
  let nostroByNumber ← Program.query fun db => db.nsi.nostroByAccountNumber
  let nostroById ← Program.query fun db => db.nsi.nostroById
  let nsi : ReportNsi := { currencies, nostroByNumber, nostroById }
  let errors := validateNsi nsi deals
  if errors ≠ [] then
    logReportFailure deals createdBy errors
    Program.commit
    pure (.error (.incomplete errors))
  else pure (deals.mapM (serializeDeal nsi))

end FxDealManager
