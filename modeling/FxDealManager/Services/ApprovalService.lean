import FxDealManager.Services.DealService

/-!
# The approval service

Submitting, approving, returning, rejecting, taking back and cancelling deals.

## Main definitions

* `changeState`: a change of the state that its operation commits with one audit entry
* `submitDeal`, `approveDeal`, `positionerDecision`, `takeForEdit`, `cancelDeal`: the operations
-/

namespace FxDealManager

open Transactional

/-- `_require_trader`. -/
def requireTrader (deal : FXDeal) (user : UserClaims) : Service Unit :=
  Program.require (deal.traderId = user.userId ∨ user.role = .admin)
    (.http 403 "Only the deal creator can perform this action")

/-- `_require_positioner`. -/
def requirePositioner (user : UserClaims) : Service Unit :=
  Program.require (user.role = .positioner ∨ user.role = .admin)
    (.http 403 "Positioner role required")

/-- `_save_solution`: the solution is changed, or a new one is added. -/
def saveSolution (p : Pending) (user : UserClaims) (decision : ApprovalDecision)
    (comment : Option String) : Service Pending := do
  match p.deal.positionerSolution with
  | some solution =>
    pure { p with
      deal := { p.deal with
        positionerSolution :=
          some { solution with decision, comment, positionerId := user.userId } } }
  | none =>
    let id ← freshId
    pure { p with newSolution := some ⟨id, decision, comment, user.userId⟩ }

/-- Save the deal in its new state, and commit it with an entry for the change. -/
def changeState (p : Pending) (oldStatus : DealState) (newValue : Json) (user : UserClaims) :
    Service DealResponse := do
  let updated ← saveExisting p
  appendAudit { loaded := updated, deal := updated } .statusChange user.email
    (some (statusJson oldStatus)) (some newValue)
  Program.commit
  pure (toResponse updated)

/-- `ApprovalService.submit_deal`. -/
def submitDeal (dealId : UUID) (user : UserClaims) : Service DealResponse := do
  let deal ← loadDeal dealId
  requireTrader deal user
  Program.require (deal.dealState = .draft) (.http 403 "Deal is not in DRAFT")
  Program.require (deal.validationStatus = .valid)
    (.http 422 "Deal must be validated before submit")
  let issues ← limitIssues deal
  -- the limits may have changed since the validation
  if issues ≠ [] then commitInvalid deal user issues
  else
    let submitted ← setDealState deal .waitingForPositioner
    changeState { loaded := deal, deal := submitted } deal.dealState
      (statusJson .waitingForPositioner) user

/-! ## Decisions of a positioner -/

/-- The JSON object that an audit entry of a sending holds. -/
def sendJson (result : PositionSendResult) : Json :=
  .obj [("correlation_id", .str result.correlationId), ("success", .bool result.success),
    ("external_ref", .ofString? result.externalRef), ("error", .ofString? result.error)]

/-- The JSON object that the audit entry of an execution holds. -/
def executedJson (result : PositionSendResult) : Json :=
  .obj [("status", .str DealState.executed.value), ("correlation_id", .str result.correlationId),
    ("external_ref", .ofString? result.externalRef)]

/-- `PositionSystemAdapter.send_deal`, as an effect of the request. -/
def send (deal : FXDeal) : Service PositionSendResult := do
  let correlationId ← freshId
  let call ← Program.ask fun env => sendDeal env (UUID.text correlationId) deal
  Program.emit call
  -- what the client raises is an overflow
  Program.ofExcept (call.answer.mapError fun _ => .overflowError)

/-- The answer to a failed sending. -/
def sendFailure (error : Option String) : ServiceError :=
  .http 502 ("Position system rejected deal: " ++ error.getD "None")

/-- `ApprovalService.approve_deal`. -/
def approveDeal (dealId : UUID) (user : UserClaims) : Service DealResponse := do
  let deal ← loadDeal dealId
  requirePositioner user
  Program.require (deal.dealState = .waitingForPositioner)
    (.http 403 "Deal is not waiting for positioner")
  Program.require (deal.traderId ≠ user.userId) (.http 403 "Self-approval is not allowed")
  let approved ← setDealState { deal with positionerId := some user.userId } .approved
  let pending ← saveSolution { loaded := deal, deal := approved } user .approve none
  -- the payments are posted before anything is written
  let result ← send pending.deal
  -- the flush of the entry writes the state, the positioner and the solution as well
  appendAudit pending .positionSend user.email none (some (sendJson result))
  if result.success = false then
    -- the deal stays approved, without an entry for the change of its state
    Program.commit
    Program.raise (sendFailure result.error)
  else
    let executed ← setDealState pending.deal .executed
    changeState { loaded := pending.deal, deal := executed } deal.dealState (executedJson result)
      user

/-- The JSON object that the audit entry of a negative decision holds. -/
def decisionJson (decision : ApprovalDecision) (comment : Option String) : Json :=
  .obj [("status", .str DealState.rejected.value), ("decision", .str decision.value),
    ("comment", .ofString? comment)]

/-- `_positioner_decision`. -/
def positionerDecision (dealId : UUID) (user : UserClaims) (decision : ApprovalDecision)
    (comment : Option String) : Service DealResponse := do
  let deal ← loadDeal dealId
  requirePositioner user
  Program.require (deal.dealState = .waitingForPositioner)
    (.http 403 "Deal is not waiting for positioner")
  -- an empty comment counts as none
  Program.require (¬ (decision = .returnForEdit ∧ comment.all (· = "")))
    (.http 422 "Comment is required when returning for edit")
  let rejected ← setDealState { deal with positionerId := some user.userId } .rejected
  let pending ← saveSolution { loaded := deal, deal := rejected } user decision comment
  changeState pending deal.dealState (decisionJson decision comment) user

/-- `ApprovalService.return_deal`. -/
def returnDeal (dealId : UUID) (comment : String) (user : UserClaims) : Service DealResponse :=
  positionerDecision dealId user .returnForEdit (some comment)

/-- `ApprovalService.reject_deal`. -/
def rejectDeal (dealId : UUID) (comment : Option String) (user : UserClaims) :
    Service DealResponse :=
  positionerDecision dealId user .reject comment

/-! ## Taking back and cancelling -/

/-- `ApprovalService.take_for_edit`. -/
def takeForEdit (dealId : UUID) (user : UserClaims) : Service DealResponse := do
  let deal ← loadDeal dealId
  requireTrader deal user
  Program.require (deal.dealState = .rejected) (.http 403 "Deal is not rejected")
  let taken ← setDealState deal .draft
  changeState { loaded := deal, deal := taken } deal.dealState (statusJson .draft) user

/-- The JSON object that the audit entry of a cancellation holds. -/
def cancelledJson (comment : Option String) : Json :=
  .obj [("status", .str DealState.cancelled.value), ("comment", .ofString? comment)]

/-- `ApprovalService.cancel_deal`. -/
def cancelDeal (dealId : UUID) (comment : Option String) (user : UserClaims) :
    Service DealResponse := do
  let deal ← loadDeal dealId
  requireTrader deal user
  Program.require (deal.dealState = .draft) (.http 403 "Only DRAFT deals can be cancelled")
  let cancelled ← setDealState deal .cancelled
  changeState { loaded := deal, deal := cancelled } deal.dealState (cancelledJson comment) user

end FxDealManager
