import FxDealManager.Api.Requests
import FxDealManager.Arithmetic.Quotients
import FxDealManager.Collections.Dictionaries
import Mathlib.Data.String.Basic

/-!
# Quotes

The quotes of the currency pairs: the rate of the last deal of a pair, and the change against the
deal before it.

## Main definitions

* `QuoteResponse`: the quote of a pair
* `deltaPercent`: the change between two rates, with the exceptions of the decimal context
* `listQuotes`: the route
-/

namespace FxDealManager

open DecimalArithmetic Dictionaries Transactional

structure QuoteResponse where
  pair : String
  baseCurrency : String
  quoteCurrency : String
  mid : Decimal
  bid : Decimal
  ask : Decimal
  spread : Decimal
  deltaPercent : Decimal
  source : String
  updatedAt : Timestamp
deriving DecidableEq, Repr

/-- The exceptions of the decimal context. -/
inductive QuoteError where
  | divisionByZero
  | invalidOperation
deriving DecidableEq, Repr

/-- The pair of a deal. -/
def FXDeal.pair (deal : FXDeal) : String := deal.buyCurrency ++ "/" ++ deal.sellCurrency

/-- The change from the rate of the previous deal, in percent. -/
def deltaPercent (rate previous : Decimal) : Except QuoteError Decimal := do
  let quotient ← (Decimal.div precision (Decimal.sub precision rate previous) previous).elim
    (.error .divisionByZero) .ok
  ((Decimal.mul precision quotient ⟨false, 100, 0⟩).quantize precision .halfEven (-4)).elim
    (.error .invalidOperation) .ok

/-- The change of a pair; there is none without a previous deal, or with one of the rate zero. -/
def deltaOf (deal : FXDeal) (previous : Option FXDeal) : Except QuoteError Decimal :=
  match previous with
  | none => .ok .zero
  | some previous =>
    if previous.rate.coefficient = 0 then .ok .zero else deltaPercent deal.rate previous.rate

/-- The quote of a pair from its last deal. -/
def QuoteResponse.ofDeal (pair : String) (deal : FXDeal) (delta : Decimal) : QuoteResponse where
  pair := pair
  baseCurrency := deal.buyCurrency
  quoteCurrency := deal.sellCurrency
  mid := deal.rate
  bid := deal.rate
  ask := deal.rate
  spread := .zero
  deltaPercent := delta
  source := "LAST_FX_DEAL"
  updatedAt := deal.updatedAt

/-- The quote of a pair with its last deal. -/
def quoteOf (previous : Dict String FXDeal) (item : String × FXDeal) :
    Except QuoteError QuoteResponse :=
  (deltaOf item.2 (previous.lookup item.1)).map fun delta => .ofDeal item.1 item.2 delta

/-- The quotes of fetched deals. -/
def quotesOf (deals : List FXDeal) : Except QuoteError (List QuoteResponse) :=
  let (latest, previous) := firstAndSecond FXDeal.pair deals
  (Dict.sortedItems latest).mapM (quoteOf previous)

/-- The deals that the query selects, as they are loaded. -/
def quotedDeals (db : Database) : List FXDeal :=
  (db.deals.entries.filter fun e => e.2.row.dealState ≠ .cancelled).map fun e =>
    FXDeal.ofRecord db.nsi e.1 e.2

/-- `list_quotes`. The database sorts the deals of the query by `order`. -/
def listQuotes (order : List FXDeal → List FXDeal) (user : UserClaims) :
    Service (Except QuoteError (List QuoteResponse)) := do
  Program.require (user.role ∈ [.trader, .positioner, .admin, .auditor])
    (.http 403 s!"Role {user.role.value} is not allowed")
  let deals ← Program.query fun db => (order (quotedDeals db)).take 300
  return quotesOf deals

end FxDealManager
