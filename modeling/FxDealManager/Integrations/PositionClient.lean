import FxDealManager.Core.Environment
import FxDealManager.Domain.Models

/-!
# The client of the position system

Sending the payments of a deal to the position system, one POST a payment, with repeated attempts
for failures that may pass. The pause after an attempt doubles from one attempt to the next; it is
computed as a float, which ends the call with an exception when the power of two gets too large.

## Main definitions

* `PositionSendResult`: what `sendDeal` answers
* `Posting`: one POST to the position system
* `SendCall`: one call of `sendDeal`, with the deal handed over and the POSTs it made
* `attempts`, `postPayments`: the loops over the attempts for a payment and over the payments
* `sendDeal`: the client

## Main results

* `sendDeal_deal`: a call is about the deal that was handed over
* `sendDeal_success_congr`: whether a sending succeeds does not depend on its correlation id
-/

namespace FxDealManager

open DecimalArithmetic

structure PositionSendResult where
  success : Bool
  correlationId : String
  externalRef : Option String
  error : Option String
deriving DecidableEq, Repr

structure PaymentPayload where
  dealId : String
  currencyCode : String
  amount : String
  valueDate : String
  direction : String
  accountNumber : Option String
  correlationId : String
deriving DecidableEq, Repr

/-- One POST to the position system, with what it came to. -/
structure Posting where
  endpoint : String
  headers : List (String × String)
  payload : PaymentPayload
  outcome : HttpOutcome

/-- One call of `sendDeal`: the deal handed over, the correlation id, the answer or the text of the
exception raised instead, and the POSTs made for it. -/
structure SendCall where
  deal : FXDeal
  correlationId : String
  answer : Except String PositionSendResult
  postings : List Posting

/-- The answer of a call. One that raised an exception counts as failed with its text. -/
def SendCall.result (call : SendCall) : PositionSendResult :=
  match call.answer with
  | .ok result => result
  | .error text => ⟨false, call.correlationId, none, some text⟩

theorem SendCall.result_of_answer {call : SendCall} {α : Type} {f : String → α}
    {result : PositionSendResult} (h : call.answer.mapError f = .ok result) :
    result = call.result := by
  unfold SendCall.result
  cases hanswer : call.answer with
  | error text =>
    rw [hanswer] at h
    cases h
  | ok answer =>
    rw [hanswer] at h
    cases h
    rfl

theorem SendCall.not_success_of_raised {call : SendCall} {α : Type} {f : String → α} {err : α}
    (h : call.answer.mapError f = .error err) : call.result.success = false := by
  unfold SendCall.result
  cases hanswer : call.answer with
  | error text => rfl
  | ok answer =>
    rw [hanswer] at h
    cases h

/-- The position system accepted the payment: it answered with a status of the 200s. -/
def HttpOutcome.accepted : HttpOutcome → Bool
  | .response status _ _ => 200 ≤ status && status < 300
  | .failure _ => false

/-- The position system accepted some payment of the call. -/
def SendCall.accepted (call : SendCall) : Bool := call.postings.any (·.outcome.accepted)

/-- `_payment_payload`. -/
def paymentPayload (deal : FXDeal) (payment : Payment) (correlationId : String) :
    PaymentPayload where
  dealId := UUID.text deal.id
  currencyCode := payment.currencyCode
  amount := payment.amount.text
  valueDate := ((payment.valueDate.or deal.valueDate).getD deal.tradeDate).isoformat
  direction := payment.paymentDirection.value
  accountNumber := payment.accountCode
  correlationId := correlationId

/-! ## One payment -/

/-- How one attempt ends: accepted with a reference, refused for good, or failed in a way that
may pass. -/
inductive Attempt where
  | accepted (ref : Option String)
  | refused (error : String)
  | failed (error : String)
deriving DecidableEq, Repr

/-- `body.get("payment_id") or body.get("id")`, as text. -/
def paymentRef (body : Json) : Option String :=
  let found := match body.get "payment_id" with
    | some ref => if ref.truthy then some ref else body.get "id"
    | none => body.get "id"
  (found.filter Json.truthy).map Json.text

/-- The body of the loop over the attempts. -/
def judge : HttpOutcome → Attempt
  | .failure text => .failed text
  | .response status text body =>
    if 200 ≤ status ∧ status < 300 then
      match body with
      -- the payment was accepted, but its answer cannot be read: it is posted again
      | .error text => .failed text
      | .ok (.obj fields) => .accepted (paymentRef (.obj fields))
      | .ok other => .failed s!"'{other.typeName}' object has no attribute 'get'"
    else if 400 ≤ status ∧ status < 500 then .refused s!"{status} {text}"
    else .failed s!"{status} {text}"

/-- Why a payment is not accepted: the client gives up with an error, or it raises an exception. -/
inductive Unaccepted where
  | gaveUp (error : String)
  | raised (text : String)
deriving DecidableEq, Repr

/-- `backoff * (2 ** (attempt - 1))` fails: the power is too large for a float. -/
def pauseOverflows (attempt : ℕ) : Bool := 2 ^ 1024 ≤ 2 ^ (attempt - 1)

/-- The attempts to post one payment, from the `n`-th POST on: the reference or why there is none,
and what the POSTs came to. The number of the attempt counts from one; `left` are left with it. -/
def attempts (http : ℕ → HttpOutcome) : (left attempt n : ℕ) → (lastError : Option String) →
    Except Unaccepted (Option String) × List HttpOutcome
  | 0, _, _, lastError =>
    -- an empty error text counts as no error
    (.error (.gaveUp ((lastError.filter (· ≠ "")).getD "exhausted retries")), [])
  | left + 1, attempt, n, _ =>
    match judge (http n) with
    | .accepted ref => (.ok ref, [http n])
    | .refused error => (.error (.gaveUp error), [http n])
    | .failed error =>
      -- there is a pause if another attempt follows, and no handler around it
      if left ≠ 0 ∧ pauseOverflows attempt = true then
        (.error (.raised "int too large to convert to float"), [http n])
      else
        let (result, outcomes) := attempts http left (attempt + 1) (n + 1) (some error)
        (result, http n :: outcomes)

/-! ## All payments -/

/-- What the payments of one call have in common. -/
structure Delivery where
  endpoint : String
  headers : List (String × String)
  retries : ℕ
  deal : FXDeal
  correlationId : String

/-- The loop over the payments, from the `n`-th POST on: the references of the accepted payments
or why one is not accepted, and the POSTs made. -/
def postPayments (http : ℕ → HttpOutcome) (d : Delivery) : (payments : List Payment) → (n : ℕ) →
    Except Unaccepted (List String) × List Posting
  | [], _ => (.ok [], [])
  | payment :: payments, n =>
    let (result, outcomes) := attempts http d.retries 1 n none
    let postings := outcomes.map fun outcome =>
      ⟨d.endpoint, d.headers, paymentPayload d.deal payment d.correlationId, outcome⟩
    match result with
    -- the payments posted before stay posted
    | .error error => (.error error, postings)
    | .ok ref =>
      let (refs, more) := postPayments http d payments (n + outcomes.length)
      (refs.map (ref.toList ++ ·), postings ++ more)

/-- `_auth_headers`: none, or the bearer token, for which client id and secret are needed. -/
def authHeaders (settings : Settings) (token : Except String String) :
    Except String (List (String × String)) :=
  if !settings.positionAuthRequired then .ok []
  else if settings.positionAuthClientId.all (· = "") ||
    settings.positionAuthClientSecret.all (· = "")
  then .error "POSITION_AUTH_CLIENT_ID/POSITION_AUTH_CLIENT_SECRET are not configured"
  else token.map fun t => [("Authorization", "Bearer " ++ t)]

/-- A URL without the slashes at its end. -/
def rstripSlash (url : String) : String :=
  String.ofList (url.toList.reverse.dropWhile (· = '/')).reverse

/-- The call that delivers all payments of the deal. -/
def Delivery.call (http : ℕ → HttpOutcome) (d : Delivery) : SendCall :=
  match postPayments http d d.deal.payments 0 with
  | (.error (.raised text), postings) => ⟨d.deal, d.correlationId, .error text, postings⟩
  | (.error (.gaveUp error), postings) =>
    ⟨d.deal, d.correlationId, .ok ⟨false, d.correlationId, none, some error⟩, postings⟩
  | (.ok refs, postings) =>
    ⟨d.deal, d.correlationId, .ok ⟨true, d.correlationId,
      if refs.isEmpty then none else some (",".intercalate refs), none⟩, postings⟩

/-- `PositionSystemAdapter.send_deal`. -/
def sendDeal (env : Env) (correlationId : String) (deal : FXDeal) : SendCall :=
  match env.settings.positionSystemUrl.filter (· ≠ "") with
  | none =>
    ⟨deal, correlationId,
      .ok ⟨false, correlationId, none, some "POSITION_SYSTEM_URL is not configured"⟩, []⟩
  | some url =>
    -- nothing to send counts as sent
    if deal.payments.isEmpty then
      ⟨deal, correlationId, .ok ⟨true, correlationId, none, none⟩, []⟩
    else
      match authHeaders env.settings env.token with
      | .error error =>
        ⟨deal, correlationId,
          .ok ⟨false, correlationId, none, some s!"IdP service token error: {error}"⟩, []⟩
      | .ok auth =>
        Delivery.call env.http
          { endpoint := rstripSlash url ++ "/payments/incoming"
            headers := ("X-Correlation-Id", correlationId) :: auth
            retries := env.settings.positionSendRetries.toNat
            deal := deal
            correlationId := correlationId }

theorem Delivery.call_deal (http : ℕ → HttpOutcome) (d : Delivery) :
    (d.call http).deal = d.deal := by
  simp only [Delivery.call]
  split <;> rfl

/-- A call is about the deal that was handed over. -/
@[simp] theorem sendDeal_deal (env : Env) (correlationId : String) (deal : FXDeal) :
    (sendDeal env correlationId deal).deal = deal := by
  simp only [sendDeal]
  split
  · rfl
  · split
    · rfl
    · split
      · rfl
      · exact Delivery.call_deal _ _

/-- Whether the payments are accepted depends on the answers and the number of attempts alone. -/
theorem postPayments_fst_congr {http : ℕ → HttpOutcome} {d d' : Delivery}
    (h : d.retries = d'.retries) (payments : List Payment) (n : ℕ) :
    (postPayments http d payments n).1 = (postPayments http d' payments n).1 := by
  induction payments generalizing n with
  | nil => rfl
  | cons payment payments ih =>
    simp only [postPayments, h]
    cases (attempts http d'.retries 1 n none).1 with
    | error error => rfl
    | ok ref => simp only [ih]

/-- A call succeeds if all payments are accepted. -/
theorem Delivery.call_success (http : ℕ → HttpOutcome) (d : Delivery) :
    (d.call http).result.success = (postPayments http d d.deal.payments 0).1.toBool := by
  simp only [Delivery.call]
  rcases postPayments http d d.deal.payments 0 with ⟨(_ | _) | refs, postings⟩ <;> rfl

/-- The correlation id has no part in whether a sending succeeds. -/
theorem sendDeal_success_congr (env : Env) (correlationId correlationId' : String) (deal : FXDeal) :
    (sendDeal env correlationId deal).result.success =
      (sendDeal env correlationId' deal).result.success := by
  simp only [sendDeal]
  split
  · rfl
  · split
    · rfl
    · split
      · rfl
      · rw [Delivery.call_success, Delivery.call_success]
        refine congrArg Except.toBool (postPayments_fst_congr ?_ deal.payments 0)
        rfl

end FxDealManager
