import FxDealManager.Domain.Models

/-!
# Requests and answers

The claims of a user, the bodies of the requests after their validation, and the answers.

## Main definitions

* `UserClaims`: who makes a request
* `DealCreateRequest`, `DealUpdateRequest`, `PositionerCommentRequest`: the bodies of requests
* `DealResponse`: the answer of the deal operations
-/

namespace FxDealManager

open DecimalArithmetic

structure UserClaims where
  userId : String
  email : String
  role : Role
deriving DecidableEq, Repr

/-- The body that creates a deal. The currency codes are already in upper case. -/
structure DealCreateRequest where
  tradeDate : Date
  dealType : DealType
  operationDirection : OperationDirection
  buyCurrency : String
  sellCurrency : String
  amount : Decimal
  rate : Decimal
  counterpartyId : String
  valueDate : Option Date
  comment : Option String
  amount_pos : amount.positive
  rate_pos : rate.positive
  counterpartyId_length : 1 ≤ counterpartyId.length ∧ counterpartyId.length ≤ 20
  comment_length : ∀ c, comment = some c → c.length ≤ 2000
deriving DecidableEq

/-- A field of a partial body: absent, null, or a value. -/
inductive Field (α : Type) where
  | absent
  | null
  | value (a : α)
deriving DecidableEq, Repr

/-- The body that updates a deal: any subset of the fields, each of them possibly null. -/
structure DealUpdateRequest where
  tradeDate : Field Date
  dealType : Field DealType
  operationDirection : Field OperationDirection
  buyCurrency : Field String
  sellCurrency : Field String
  amount : Field Decimal
  rate : Field Decimal
  counterpartyId : Field String
  valueDate : Field Date
  comment : Field String
  amount_pos : ∀ a, amount = .value a → a.positive
  rate_pos : ∀ a, rate = .value a → a.positive
  counterpartyId_length : ∀ c, counterpartyId = .value c → 1 ≤ c.length ∧ c.length ≤ 20
  comment_length : ∀ c, comment = .value c → c.length ≤ 2000
deriving DecidableEq

/-- The comment of a positioner, or of a cancellation. -/
structure PositionerCommentRequest where
  comment : String
  comment_length : 1 ≤ comment.length ∧ comment.length ≤ 2000
deriving DecidableEq

structure PaymentResponse where
  id : UUID
  amount : Decimal
  currencyCode : String
  accountCode : Option String
  paymentDirection : PaymentDirection
  valueDate : Option Date
deriving DecidableEq, Repr

structure DealResponse where
  id : UUID
  tradeDate : Date
  valueDate : Option Date
  dealType : DealType
  operationDirection : OperationDirection
  buyCurrency : String
  sellCurrency : String
  amount : Decimal
  rate : Decimal
  counterpartyId : String
  counterpartyName : Option String
  status : DealState
  validationStatus : ValidationStatus
  traderId : String
  traderEmail : String
  positionerId : Option String
  comment : Option String
  payments : List PaymentResponse
  createdAt : Timestamp
  updatedAt : Timestamp
deriving DecidableEq, Repr

/-- `_to_response`: the answer for a deal object. The type and the counterparty's name come from
the related objects that were loaded. -/
def toResponse (deal : FXDeal) : DealResponse where
  id := deal.id
  tradeDate := deal.tradeDate
  valueDate := deal.valueDate
  dealType := deal.loadedDealType
  operationDirection := deal.operationDirection
  buyCurrency := deal.buyCurrency
  sellCurrency := deal.sellCurrency
  amount := deal.amount
  rate := deal.rate
  counterpartyId := deal.counterpartyId
  counterpartyName := deal.counterparty.map fun c => c.name.val
  status := deal.dealState
  validationStatus := deal.validationStatus
  traderId := deal.traderId
  traderEmail := deal.traderEmail
  positionerId := deal.positionerId
  comment := deal.comment
  payments := deal.payments.map fun p =>
    ⟨p.id, p.amount, p.currencyCode, p.accountCode, p.paymentDirection, p.valueDate⟩
  createdAt := deal.createdAt
  updatedAt := deal.updatedAt

end FxDealManager
