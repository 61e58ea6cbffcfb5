import Mathlib.Data.List.AList
import FxDealManager.Domain.Enums

/-!
# Tables and objects

The tables of the database, with the types of their columns, and the objects that a session
loads from them. A row type holds only what its columns admit; an object holds what the program
assigned, which the database may still reject.

## Main definitions

* `ReferenceData`: counterparties, currencies, nostro accounts, business calendar, deal limits
* `FXDealRow`, `PaymentRow`, `PositionerSolutionRow`, `AuditLogEntry`: the rows of the tables
* `DealRecord`: the row of a deal with the payment and solution rows that refer to it
* `Database`: all tables
* `FXDeal`, `Payment`, `PositionerSolution`: the objects of a session
* `FXDeal.ofRecord`: the object loaded from a record
-/

namespace FxDealManager

open DecimalArithmetic

/-! ## Reference data -/

structure Counterparty where
  id : Varchar 20
  name : Varchar 255
  bic : Option (Varchar 11)
  country : Option (Varchar 2)
  isActive : Bool
deriving DecidableEq, Repr

structure Currency where
  code : Varchar 3
  name : Varchar 100
  decimalPlaces : ℤ
deriving DecidableEq, Repr

/-- A limit; a missing counterparty or currency applies to all of them. -/
structure DealLimit where
  id : ℕ
  counterpartyId : Option (Varchar 20)
  currencyCode : Option (Varchar 3)
  maxAmount : Numeric 18 2
  isActive : Bool
deriving DecidableEq, Repr

structure NostroAccount where
  id : Varchar 30
  currencyCode : Varchar 3
  bankName : Varchar 255
  accountNumber : Varchar 34
  isActive : Bool
deriving DecidableEq, Repr

structure BusinessCalendar where
  calendarDate : Date
  isBusinessDay : Bool
deriving DecidableEq, Repr

/-- The reference tables, each listed in the order of its primary key as the database orders it. -/
structure ReferenceData where
  counterparties : List Counterparty
  currencies : List Currency
  nostroAccounts : List NostroAccount
  businessCalendar : List BusinessCalendar
  dealLimits : List DealLimit
  counterparty_key : (counterparties.map Counterparty.id).Nodup
  currency_key : (currencies.map Currency.code).Nodup
  nostro_key : (nostroAccounts.map NostroAccount.id).Nodup
  calendar_key : (businessCalendar.map BusinessCalendar.calendarDate).Nodup
  limit_key : (dealLimits.map DealLimit.id).Nodup
deriving DecidableEq

/-! ## Deals -/

/-- The columns of a deal, with the codes and numbers that the service writes to them. The columns
admit other texts and NaN as well; `DealColumns` is what a validation finds there. -/
structure FXDealRow where
  tradeDate : Date
  valueDate : Option Date
  amount : Numeric 18 2
  rate : Numeric 18 6
  buyCurrency : Varchar 3
  sellCurrency : Varchar 3
  operationDirection : OperationDirection
  counterpartyId : Varchar 20
  dealType : DealType
  dealState : DealState
  validationStatus : ValidationStatus
  traderId : Varchar 36
  traderEmail : Varchar 320
  positionerId : Option (Varchar 36)
  comment : Option String
  createdAt : Timestamp
  updatedAt : Timestamp
deriving DecidableEq, Repr

structure PaymentRow where
  id : UUID
  amount : Numeric 18 2
  currencyCode : Varchar 3
  accountCode : Option (Varchar 30)
  paymentDirection : PaymentDirection
  valueDate : Option Date
deriving DecidableEq, Repr

structure PositionerSolutionRow where
  id : UUID
  decision : ApprovalDecision
  comment : Option String
  positionerId : Varchar 36
  decidedAt : Timestamp
deriving DecidableEq, Repr

/-- A deal in the database: its row, the payments that refer to it, and its solution, of which
the unique key admits one. -/
structure DealRecord where
  row : FXDealRow
  payments : List PaymentRow
  solution : Option PositionerSolutionRow
deriving DecidableEq, Repr

/-- An audit entry. The texts of the old and the new value are the JSON values they render. -/
structure AuditLogEntry where
  id : UUID
  entityId : UUID
  entityType : EntityType
  action : AuditAction
  oldValue : Option Json
  newValue : Option Json
  createdAt : Timestamp
  createdBy : Varchar 320
deriving Repr

/-- The deals, by their primary key. -/
abbrev Deals := AList (fun _ : UUID => DealRecord)

/-- The database; audit entries are listed in the order of their insertion. -/
structure Database where
  nsi : ReferenceData
  deals : Deals
  audit : List AuditLogEntry

/-! ## Objects -/

structure Payment where
  id : UUID
  amount : Decimal
  currencyCode : String
  accountCode : Option String
  paymentDirection : PaymentDirection
  valueDate : Option Date
deriving DecidableEq, Repr

structure PositionerSolution where
  id : UUID
  decision : ApprovalDecision
  comment : Option String
  positionerId : String
deriving DecidableEq, Repr

/-- A deal object. `loadedDealType` and `counterparty` are the related objects that were loaded
with it; a change of the deal's own columns does not reload them. `nulled` are the columns that
admit no null and were set to null. -/
structure FXDeal where
  id : UUID
  tradeDate : Date
  valueDate : Option Date
  amount : Decimal
  rate : Decimal
  buyCurrency : String
  sellCurrency : String
  operationDirection : OperationDirection
  counterpartyId : String
  dealType : DealType
  dealState : DealState
  validationStatus : ValidationStatus
  traderId : String
  traderEmail : String
  positionerId : Option String
  comment : Option String
  createdAt : Timestamp
  updatedAt : Timestamp
  loadedDealType : DealType
  counterparty : Option Counterparty
  payments : List Payment
  positionerSolution : Option PositionerSolution
  nulled : List String
deriving DecidableEq, Repr

def PaymentRow.toPayment (p : PaymentRow) : Payment where
  id := p.id
  amount := p.amount.toDecimal
  currencyCode := p.currencyCode.val
  accountCode := p.accountCode.map Varchar.val
  paymentDirection := p.paymentDirection
  valueDate := p.valueDate

def PositionerSolutionRow.toSolution (s : PositionerSolutionRow) : PositionerSolution where
  id := s.id
  decision := s.decision
  comment := s.comment
  positionerId := s.positionerId.val

/-- The counterparty with a given id, active or not. -/
def ReferenceData.counterparty? (nsi : ReferenceData) (id : String) : Option Counterparty :=
  nsi.counterparties.find? fun c => c.id.val = id

/-- The currency with a given code. -/
def ReferenceData.currency? (nsi : ReferenceData) (code : String) : Option Currency :=
  nsi.currencies.find? fun c => c.code.val = code

/-- The object loaded from a record. -/
@[simps]
def FXDeal.ofRecord (nsi : ReferenceData) (id : UUID) (r : DealRecord) : FXDeal where
  id := id
  tradeDate := r.row.tradeDate
  valueDate := r.row.valueDate
  amount := r.row.amount.toDecimal
  rate := r.row.rate.toDecimal
  buyCurrency := r.row.buyCurrency.val
  sellCurrency := r.row.sellCurrency.val
  operationDirection := r.row.operationDirection
  counterpartyId := r.row.counterpartyId.val
  dealType := r.row.dealType
  dealState := r.row.dealState
  validationStatus := r.row.validationStatus
  traderId := r.row.traderId.val
  traderEmail := r.row.traderEmail.val
  positionerId := r.row.positionerId.map Varchar.val
  comment := r.row.comment
  createdAt := r.row.createdAt
  updatedAt := r.row.updatedAt
  loadedDealType := r.row.dealType
  counterparty := nsi.counterparty? r.row.counterpartyId.val
  payments := r.payments.map PaymentRow.toPayment
  positionerSolution := r.solution.map PositionerSolutionRow.toSolution
  nulled := []

end FxDealManager
