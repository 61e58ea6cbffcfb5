import FxDealManager.Integrations.PositionClient
import FxDealManager.Repositories.ReferenceData

/-!
# The session of a request

The repositories of deals and audit entries over the session of a request. A session remembers
the object it loaded; a flush writes the columns whose values were changed, the payments and the
solution that were added, and removes the payments that were taken out.

## Main definitions

* `Service`: a program over the database whose effects are calls of `sendDeal`
* `DealChanges.between`: the columns whose assigned value differs from the loaded one
* `Pending`, `Pending.statements`: what a flush has to write
* `getById`, `saveNew`, `saveExisting`, `replacePayments`: the repository of deals
* `appendAudit`: the repository of audit entries
-/

namespace FxDealManager

open DecimalArithmetic Transactional

/-- A program of the service. -/
abbrev Service := Program Env Statement Database ServiceError SendCall

/-! ## What a flush writes -/

/-- Store a value in a column, or fail. -/
def storeColumn {α β : Type} (store : α → Option β) (err : DbError) (value : α) :
    Except DbError β :=
  match store value with
  | some stored => .ok stored
  | none => .error err

/-- The new value of a column; `none` if the assigned value equals the loaded one. -/
def changedColumn {α β : Type} (equal : Bool) (store : α → Option β) (err : DbError) (value : α) :
    Except DbError (Option β) :=
  if equal then .ok none else (storeColumn store err value).map some

/-- The assigned value, if it differs from the loaded one. -/
def changedTo {α : Type} [DecidableEq α] (old new : α) : Option α :=
  if old = new then none else some new

/-- Store an optional string. -/
def storeOptional {n : ℕ} : Option String → Option (Option (Varchar n))
  | none => some none
  | some s => (Varchar.ofString s).map some

/-- The columns whose assigned value differs from the loaded one. -/
def DealChanges.between (old new : FXDeal) : Except DbError DealChanges := do
  -- a null that was assigned to a column without nulls is rejected here, not earlier
  if let column :: _ := new.nulled then throw (.notNullViolation column)
  let amount ← changedColumn (old.amount.same new.amount) Numeric.ofDecimal
    (.numericOverflow "amount") new.amount
  let rate ← changedColumn (old.rate.same new.rate) Numeric.ofDecimal
    (.numericOverflow "rate") new.rate
  let buyCurrency ← changedColumn (old.buyCurrency = new.buyCurrency) Varchar.ofString
    (.stringTooLong "buy_currency") new.buyCurrency
  let sellCurrency ← changedColumn (old.sellCurrency = new.sellCurrency) Varchar.ofString
    (.stringTooLong "sell_currency") new.sellCurrency
  let counterpartyId ← changedColumn (old.counterpartyId = new.counterpartyId) Varchar.ofString
    (.stringTooLong "counterparty_id") new.counterpartyId
  let traderId ← changedColumn (old.traderId = new.traderId) Varchar.ofString
    (.stringTooLong "trader_id") new.traderId
  let traderEmail ← changedColumn (old.traderEmail = new.traderEmail) Varchar.ofString
    (.stringTooLong "trader_email") new.traderEmail
  let positionerId ← changedColumn (old.positionerId = new.positionerId) storeOptional
    (.stringTooLong "positioner_id") new.positionerId
  return {
    tradeDate := changedTo old.tradeDate new.tradeDate
    valueDate := changedTo old.valueDate new.valueDate
    amount, rate, buyCurrency, sellCurrency
    operationDirection := changedTo old.operationDirection new.operationDirection
    counterpartyId
    dealType := changedTo old.dealType new.dealType
    dealState := changedTo old.dealState new.dealState
    validationStatus := changedTo old.validationStatus new.validationStatus
    traderId, traderEmail, positionerId
    comment := changedTo old.comment new.comment }

def SolutionChanges.between (old new : PositionerSolution) : Except DbError SolutionChanges := do
  let positionerId ← changedColumn (old.positionerId = new.positionerId) Varchar.ofString
    (.stringTooLong "positioner_id") new.positionerId
  return {
    decision := changedTo old.decision new.decision
    comment := changedTo old.comment new.comment
    positionerId }

/-- The row of a new deal. -/
def FXDealRow.ofDeal (now : Timestamp) (deal : FXDeal) : Except DbError FXDealRow := do
  return {
    tradeDate := deal.tradeDate
    valueDate := deal.valueDate
    amount := ← storeColumn Numeric.ofDecimal (.numericOverflow "amount") deal.amount
    rate := ← storeColumn Numeric.ofDecimal (.numericOverflow "rate") deal.rate
    buyCurrency := ← storeColumn Varchar.ofString (.stringTooLong "buy_currency") deal.buyCurrency
    sellCurrency :=
      ← storeColumn Varchar.ofString (.stringTooLong "sell_currency") deal.sellCurrency
    operationDirection := deal.operationDirection
    counterpartyId :=
      ← storeColumn Varchar.ofString (.stringTooLong "counterparty_id") deal.counterpartyId
    dealType := deal.dealType
    dealState := deal.dealState
    validationStatus := deal.validationStatus
    traderId := ← storeColumn Varchar.ofString (.stringTooLong "trader_id") deal.traderId
    traderEmail := ← storeColumn Varchar.ofString (.stringTooLong "trader_email") deal.traderEmail
    positionerId :=
      ← storeColumn storeOptional (.stringTooLong "positioner_id") deal.positionerId
    comment := deal.comment
    createdAt := now
    updatedAt := now }

/-- The row of a new payment. -/
def PaymentRow.ofPayment (payment : Payment) : Except DbError PaymentRow := do
  return {
    id := payment.id
    amount := ← storeColumn Numeric.ofDecimal (.numericOverflow "amount") payment.amount
    currencyCode :=
      ← storeColumn Varchar.ofString (.stringTooLong "currency_code") payment.currencyCode
    accountCode := ← storeColumn storeOptional (.stringTooLong "account_code") payment.accountCode
    paymentDirection := payment.paymentDirection
    valueDate := payment.valueDate }

/-- The row of a new solution. -/
def PositionerSolutionRow.ofSolution (now : Timestamp) (solution : PositionerSolution) :
    Except DbError PositionerSolutionRow := do
  return {
    id := solution.id
    decision := solution.decision
    comment := solution.comment
    positionerId :=
      ← storeColumn Varchar.ofString (.stringTooLong "positioner_id") solution.positionerId
    decidedAt := now }

/-- What a session has to write at its next flush: the object it `loaded`, as of the last flush,
and the object as it is now, the payments added and the ids of those removed, and a solution
added. -/
structure Pending where
  loaded : FXDeal
  deal : FXDeal
  added : List Payment := []
  removed : List UUID := []
  newSolution : Option PositionerSolution := none

/-- The update of a deal, if there is something to update. -/
def updateStatements (id : UUID) (changes : DealChanges) (now : Timestamp) : List Statement :=
  if changes = {} then [] else [.updateDeal id changes now]

/-- The removal of payments, if there are some to remove. -/
def deleteStatements (id : UUID) (removed : List UUID) : List Statement :=
  if removed = [] then [] else [.deletePayments id removed]

/-- The solution's insertion, or the update of the loaded one. -/
def Pending.solutionStatements (p : Pending) (now : Timestamp) :
    Except DbError (List Statement) :=
  match p.newSolution, p.loaded.positionerSolution, p.deal.positionerSolution with
  -- a solution is added only where none was loaded
  | some solution, _, _ => do
    return [.insertSolution p.deal.id (← PositionerSolutionRow.ofSolution now solution)]
  | none, some old, some new => do
    let changes ← SolutionChanges.between old new
    return if changes = {} then [] else [.updateSolution p.deal.id changes]
  | none, _, _ => return []

/-- The statements of a flush: updates and insertions first, removals last. -/
def Pending.statements (p : Pending) (now : Timestamp) : Except DbError (List Statement) := do
  let changes ← DealChanges.between p.loaded p.deal
  let added ← p.added.mapM PaymentRow.ofPayment
  let solution ← p.solutionStatements now
  return updateStatements p.deal.id changes now ++ added.map (.insertPayment p.deal.id)
    ++ solution ++ deleteStatements p.deal.id p.removed

/-! ## The repositories -/

/-- A fresh identifier. -/
def freshId : Service UUID := do
  let n ← Program.draw
  Program.ask fun env => env.uuid n

/-- A value of the session, or the failure of the database. -/
def ofDb {α : Type} (x : Except DbError α) : Service α := Program.ofExcept (x.mapError .database)

/-- Execute the statements of a flush; without statements there is no call. -/
def executeAll (log : List Statement) : Service Unit :=
  if log.isEmpty then pure () else Program.execute log

/-- `AsyncSession.flush`. -/
def flush (p : Pending) : Service Unit := do
  let now ← Program.ask Env.now
  executeAll (← ofDb (p.statements now))

/-- `DealRepository.get_by_id`. -/
def getById (id : UUID) : Service FXDeal := do
  let found ← Program.query fun db => (db.deals.lookup id).map (FXDeal.ofRecord db.nsi id)
  match found with
  | some deal => pure deal
  | none => Program.raise (.dealNotFound id)

/-- `LookupCache`: the id of a code. The tables of codes are constant; the first lookup of a
process reads them, for later ones no call is rejected. -/
def lookupCode : Service Unit := Program.query fun _ => ()

/-- `DealRepository.set_validation_status`. -/
def setValidationStatus (deal : FXDeal) (status : ValidationStatus) : Service FXDeal := do
  lookupCode
  pure { deal with validationStatus := status }

/-- `DealRepository.set_deal_state`. -/
def setDealState (deal : FXDeal) (state : DealState) : Service FXDeal := do
  lookupCode
  pure { deal with dealState := state }

/-- `DealRepository.save_new`: the reload fetches what the database and the related tables
provide. -/
def saveNew (deal : FXDeal) : Service FXDeal := do
  let now ← Program.ask Env.now
  executeAll [.insertDeal deal.id (← ofDb (FXDealRow.ofDeal now deal))]
  let stored ← getById deal.id
  -- the object keeps what was assigned, such as a decimal with its own exponent
  pure { deal with
    createdAt := stored.createdAt
    updatedAt := stored.updatedAt
    loadedDealType := stored.loadedDealType
    counterparty := stored.counterparty }

/-- `DealRepository.save_existing`: the reload refreshes the time of the update. -/
def saveExisting (p : Pending) : Service FXDeal := do
  flush p
  let stored ← getById p.deal.id
  pure { p.deal with updatedAt := stored.updatedAt }

/-- `check_payment_save_fault`. -/
def checkPaymentSaveFault (faultAfter : Option ℤ) (index : ℤ) : Service Unit :=
  match faultAfter with
  | some n => Program.require (index ≤ n) (.paymentSaveFault n)
  | none => pure ()

/-- The check of every payment, numbered from `index` on. -/
def checkPayments (faultAfter : Option ℤ) : (index : ℤ) → List Payment → Service Unit
  | _, [] => pure ()
  | index, _ :: payments => do
    checkPaymentSaveFault faultAfter index
    checkPayments faultAfter (index + 1) payments

/-- `DealRepository.replace_payments`. -/
def replacePayments (loaded deal : FXDeal) (payments : List Payment) : Service FXDeal := do
  let faultAfter ← Program.ask fun env => env.settings.paymentSaveFaultAfter
  checkPayments faultAfter 1 payments
  flush { loaded, deal, added := payments, removed := deal.payments.map Payment.id }
  pure { deal with payments }

/-- `DealRepository.counterparty_exists`; no counterparty has the id null. -/
def counterpartyExists (id : Option String) : Service Bool :=
  Program.query fun db => id.any db.nsi.counterpartyExists

/-- `AuditLogService.log`: append an entry about a deal, and flush it with what is pending. -/
def appendAudit (p : Pending) (action : AuditAction) (createdBy : String)
    (oldValue newValue : Option Json) : Service Unit := do
  let id ← freshId
  let now ← Program.ask Env.now
  let statements ← ofDb (p.statements now)
  let createdBy ← ofDb (storeColumn Varchar.ofString (.stringTooLong "created_by") createdBy)
  executeAll (statements ++ [.insertAudit
    { id, entityId := p.deal.id, entityType := .fxDeal, action, oldValue, newValue,
      createdAt := now, createdBy }])

end FxDealManager
