import FxDealManager.Repositories.DealRepository
import FxDealManager.Services.Checks

/-!
# The deal service

Creating, updating and validating deals.

## Main definitions

* `loadDeal`: the deal of a request, or the answer that there is none
* `createDeal`, `updateDeal`, `validateDeal`: the operations of the service
-/

namespace FxDealManager

open DecimalArithmetic Transactional

/-- The JSON object that names a status. -/
def statusJson (state : DealState) : Json := .obj [("status", .str state.value)]

/-- The JSON array of complaints. -/
def issuesJson (issues : List ValidationIssue) : Json :=
  .arr (issues.map fun issue => .obj [("field", .str issue.field), ("message", .str issue.message)])

/-- Load the deal of a request. -/
def loadDeal (id : UUID) : Service FXDeal :=
  Program.handle (getById id) fun err =>
    match err with
    | .dealNotFound _ => Program.raise (.http 404 "Deal not found")
    | err => Program.raise err

/-- `DealService.get_deal`. -/
def getDeal (id : UUID) : Service DealResponse := do
  let deal ← loadDeal id
  pure (toResponse deal)

/-! ## Creation -/

/-- The object of a new deal. The times and the related objects are provided by the database. -/
def newDeal (id : UUID) (payload : DealCreateRequest) (user : UserClaims) : FXDeal where
  id := id
  tradeDate := payload.tradeDate
  valueDate := payload.valueDate
  amount := payload.amount
  rate := payload.rate
  buyCurrency := payload.buyCurrency
  sellCurrency := payload.sellCurrency
  operationDirection := payload.operationDirection
  counterpartyId := payload.counterpartyId
  dealType := payload.dealType
  dealState := .draft
  validationStatus := .notValidated
  traderId := user.userId
  traderEmail := user.email
  positionerId := none
  comment := payload.comment
  createdAt := 0
  updatedAt := 0
  loadedDealType := payload.dealType
  counterparty := none
  payments := []
  positionerSolution := none
  nulled := []

/-- The complaint about an unknown or inactive counterparty. -/
def counterpartyError (id : String) : ServiceError :=
  .http 422 s!"Counterparty '{id}' not found or inactive"

/-- `DealService.create_deal`. -/
def createDeal (payload : DealCreateRequest) (user : UserClaims) : Service DealResponse := do
  let known ← counterpartyExists (some payload.counterpartyId)
  Program.require known (counterpartyError payload.counterpartyId)
  lookupCode -- deal type
  lookupCode -- deal state
  lookupCode -- validation status
  let id ← freshId
  let created ← saveNew (newDeal id payload user)
  appendAudit { loaded := created, deal := created } .create user.email none
    (some (statusJson .draft))
  Program.commit
  pure (toResponse created)

/-! ## Update -/

/-- Assign a column that admits no null; a null is noticed at the flush. -/
def assign {α : Type} (column : String) (field : Field α) (set : α → FXDeal → FXDeal)
    (deal : FXDeal) : FXDeal :=
  match field with
  | .absent => deal
  | .null => { deal with nulled := deal.nulled ++ [column] }
  | .value a => set a deal

/-- Assign a column that admits null. -/
def assignNullable {α : Type} (field : Field α) (set : Option α → FXDeal → FXDeal)
    (deal : FXDeal) : FXDeal :=
  match field with
  | .absent => deal
  | .null => set none deal
  | .value a => set (some a) deal

namespace DealUpdateRequest

/-- The change of the counterparty, which has to exist. -/
def assignCounterparty (payload : DealUpdateRequest) (deal : FXDeal) : Service FXDeal := do
  match payload.counterpartyId with
  | .absent => pure deal
  | .null =>
    -- `id = NULL` is true of no row
    let known ← counterpartyExists none
    Program.require known (counterpartyError "None")
    pure deal
  | .value id =>
    let known ← counterpartyExists (some id)
    Program.require known (counterpartyError id)
    pure { deal with counterpartyId := id }

/-- The change of dates, amounts and currencies. -/
def assignTerms (payload : DealUpdateRequest) (deal : FXDeal) : FXDeal :=
  deal
    |> assign "trade_date" payload.tradeDate (fun a deal => { deal with tradeDate := a })
    |> assignNullable payload.valueDate (fun a deal => { deal with valueDate := a })
    |> assign "amount" payload.amount (fun a deal => { deal with amount := a })
    |> assign "rate" payload.rate (fun a deal => { deal with rate := a })
    |> assign "buy_currency" payload.buyCurrency (fun a deal => { deal with buyCurrency := a })
    |> assign "sell_currency" payload.sellCurrency (fun a deal => { deal with sellCurrency := a })

/-- The change of the direction, of which the value is taken at once. -/
def assignDirection (payload : DealUpdateRequest) (deal : FXDeal) : Service FXDeal :=
  match payload.operationDirection with
  | .absent => pure deal
  | .null => Program.raise (.attributeError "'NoneType' object has no attribute 'value'")
  | .value a => pure { deal with operationDirection := a }

/-- The change of the type, of which the code is looked up. -/
def assignType (payload : DealUpdateRequest) (deal : FXDeal) : Service FXDeal :=
  match payload.dealType with
  | .absent => pure deal
  | .null => do
    lookupCode
    Program.raise (.attributeError "'NoneType' object has no attribute 'value'")
  | .value a => do
    lookupCode
    pure { deal with dealType := a }

/-- The change of the comment. -/
def assignComment (payload : DealUpdateRequest) (deal : FXDeal) : FXDeal :=
  assignNullable payload.comment (fun a deal => { deal with comment := a }) deal

/-- The field of a JSON object, unless the request leaves it out. -/
def jsonField {α : Type} (name : String) (field : Field α) (text : α → String) :
    List (String × Json) :=
  match field with
  | .absent => []
  | .null => [(name, .null)]
  | .value a => [(name, .str (text a))]

/-- The JSON object of the fields that a request sets. -/
def toJson (payload : DealUpdateRequest) : Json :=
  .obj <| jsonField "trade_date" payload.tradeDate Date.isoformat
    ++ jsonField "deal_type" payload.dealType DealType.value
    ++ jsonField "operation_direction" payload.operationDirection OperationDirection.value
    ++ jsonField "buy_currency" payload.buyCurrency id
    ++ jsonField "sell_currency" payload.sellCurrency id
    ++ jsonField "amount" payload.amount Decimal.text
    ++ jsonField "rate" payload.rate Decimal.text
    ++ jsonField "counterparty_id" payload.counterpartyId id
    ++ jsonField "value_date" payload.valueDate Date.isoformat
    ++ jsonField "comment" payload.comment id

end DealUpdateRequest

/-- `DealService.update_deal`. -/
def updateDeal (dealId : UUID) (payload : DealUpdateRequest) (user : UserClaims) :
    Service DealResponse := do
  let loaded ← loadDeal dealId
  Program.require (loaded.dealState = .draft) (.http 403 "Only DRAFT deals can be edited")
  Program.require (loaded.traderId = user.userId)
    (.http 403 "Only the deal creator can edit this deal")
  -- the fields are assigned in the order of the source: direction and type may fail in between
  let deal ← payload.assignCounterparty loaded
  let deal ← payload.assignDirection (payload.assignTerms deal)
  let deal ← payload.assignType deal
  let deal ← setValidationStatus (payload.assignComment deal) .notValidated
  -- the flush that takes the payments out writes the columns, too
  let deal ← replacePayments loaded deal []
  let updated ← saveExisting { loaded := deal, deal }
  appendAudit { loaded := updated, deal := updated } .update user.email none (some payload.toJson)
  Program.commit
  pure (toResponse updated)

/-! ## Validation -/

/-- Mark a deal as invalid, commit, and answer with the complaints. -/
def commitInvalid (deal : FXDeal) (user : UserClaims) (issues : List ValidationIssue) :
    Service DealResponse := do
  let invalid ← setValidationStatus deal .invalid
  appendAudit { loaded := deal, deal := invalid } .validateFailed user.email none
    (some (issuesJson issues))
  Program.commit
  Program.raise (.validationFailed issues)

/-- The limit check of a deal, against the active limits of its counterparty. -/
def limitIssues (deal : FXDeal) : Service (List ValidationIssue) := do
  let limits ← Program.query fun db => db.nsi.activeLimits deal.counterpartyId
  Program.ofExcept ((checkLimits limits deal).elim (.error .invalidOperation) .ok)

/-- The value date of a deal, by the calendar of the 31 days from the trade date on. -/
def settle (deal : FXDeal) : Service Date := do
  match deal.tradeDate.addDays 30 with
  | none => Program.raise .overflowError
  | some last =>
    let calendar ← Program.query fun db => db.nsi.loadCalendar deal.tradeDate last
    match calendar with
    | none => Program.raise .overflowError
    | some calendar =>
      match calculateValueDate deal.tradeDate deal.loadedDealType calendar deal.valueDate with
      | .ok valueDate => pure valueDate
      | .error (.valueError text) => Program.raise (.validationFailed [⟨"value_date", text⟩])
      | .error .overflowError => Program.raise .overflowError

/-- The payment objects of the calculated payments and their accounts. -/
def buildPayments : List (CalculatedPayment × String) → Service (List Payment)
  | [] => pure []
  | (calculated, account) :: assigned => do
    lookupCode -- payment direction
    let id ← freshId
    let payments ← buildPayments assigned
    pure (⟨id, calculated.amount, calculated.currencyCode, some account,
      calculated.paymentDirection, some calculated.valueDate⟩ :: payments)

/-- The JSON object that an audit entry of a successful validation holds. -/
def validatedJson (valueDate : Date) (payments : ℕ) : Json :=
  .obj [("validation_status", .str ValidationStatus.valid.value),
    ("value_date", .str valueDate.isoformat), ("payments", .int payments)]

/-- Save a validated deal with its payments. -/
def saveValidated (loaded : FXDeal) (valueDate : Date) (payments : List Payment)
    (user : UserClaims) : Service DealResponse := do
  let deal ← setValidationStatus { loaded with valueDate := some valueDate } .valid
  let deal ← replacePayments loaded deal payments
  let updated ← saveExisting { loaded := deal, deal }
  appendAudit { loaded := updated, deal := updated } .validate user.email none
    (some (validatedJson valueDate payments.length))
  Program.commit
  pure (toResponse updated)

/-- The answer to a failure while a validated deal is saved. -/
def saveFailure : ServiceError → ServiceError
  | .paymentSaveFault index =>
    .http 500 <| "Failed to persist deal payments: " ++
      s!"Simulated payment save failure after payment {index}"
  | _ => .http 500 "Failed to persist deal and payments"

/-- `DealService.validate_deal`. -/
def validateDeal (dealId : UUID) (user : UserClaims) : Service DealResponse := do
  let deal ← loadDeal dealId
  Program.require (deal.traderId = user.userId ∨ user.role = .admin)
    (.http 403 "Only the deal creator can validate this deal")
  let counterparty ← Program.query fun db => db.nsi.counterparty? deal.counterpartyId
  let currencies ← Program.query fun db => db.nsi.currency?
  -- the state of the deal is one of the checks, so that a submitted deal fails here
  let issues := validate deal counterparty currencies
  if issues ≠ [] then commitInvalid deal user issues
  else
    let issues ← limitIssues deal
    if issues ≠ [] then commitInvalid deal user issues
    else
      -- without a value date, the request fails and the status stays as it is
      let valueDate ← settle deal
      let calculated ← Program.ofExcept
        ((calculatePayments deal valueDate).elim (.error .invalidOperation) .ok)
      let nostroByCurrency ← Program.query fun db => db.nsi.nostroByCurrency
      let (assigned, issues) := assignNostro nostroByCurrency calculated
      if issues ≠ [] then commitInvalid deal user issues
      else
        let payments ← buildPayments assigned
        -- whatever fails from here on is answered with 500 after a rollback
        Program.handle (saveValidated deal valueDate payments user) fun err => do
          Program.rollback
          Program.raise (saveFailure err)

end FxDealManager
