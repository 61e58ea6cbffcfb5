import FxDealManager.Domain.Values

/-!
# Enumerations

The enumerations of deals, payments and decisions, with the codes under which they are stored
and shown.
-/

namespace FxDealManager

inductive DealState where
  | draft
  | waitingForPositioner
  | approved
  | rejected
  | executed
  | cancelled
deriving DecidableEq, Repr

def DealState.value : DealState → String
  | .draft => "DRAFT"
  | .waitingForPositioner => "WAITING_FOR_POSITIONER"
  | .approved => "APPROVED"
  | .rejected => "REJECTED"
  | .executed => "EXECUTED"
  | .cancelled => "CANCELLED"

inductive DealType where
  | tod
  | tom
  | spot
  | forward
deriving DecidableEq, Repr

def DealType.value : DealType → String
  | .tod => "TOD"
  | .tom => "TOM"
  | .spot => "SPOT"
  | .forward => "FORWARD"

/-- The type with the code. -/
def DealType.named (code : String) : Option DealType :=
  [.tod, .tom, .spot, .forward].find? fun dealType => dealType.value = code

theorem dealTypeNamed_value (dealType : DealType) :
    DealType.named dealType.value = some dealType := by
  cases dealType <;> decide

inductive ValidationStatus where
  | notValidated
  | valid
  | invalid
deriving DecidableEq, Repr

def ValidationStatus.value : ValidationStatus → String
  | .notValidated => "NOT_VALIDATED"
  | .valid => "VALID"
  | .invalid => "INVALID"

inductive OperationDirection where
  | buy
  | sell
deriving DecidableEq, Repr

def OperationDirection.value : OperationDirection → String
  | .buy => "BUY"
  | .sell => "SELL"

/-- The direction with the code. -/
def OperationDirection.named (code : String) : Option OperationDirection :=
  [.buy, .sell].find? fun direction => direction.value = code

theorem directionNamed_value (direction : OperationDirection) :
    OperationDirection.named direction.value = some direction := by
  cases direction <;> decide

inductive PaymentDirection where
  | incoming
  | outgoing
deriving DecidableEq, Repr

def PaymentDirection.value : PaymentDirection → String
  | .incoming => "IN"
  | .outgoing => "OUT"

inductive ApprovalDecision where
  | approve
  | returnForEdit
  | reject
deriving DecidableEq, Repr

def ApprovalDecision.value : ApprovalDecision → String
  | .approve => "APPROVE"
  | .returnForEdit => "RETURN_FOR_EDIT"
  | .reject => "REJECT"

/-- The role of a user; any other text an identity provider may put in a token is `other`. -/
inductive Role where
  | trader
  | positioner
  | auditor
  | admin
  | other (name : String)
deriving DecidableEq, Repr

def Role.value : Role → String
  | .trader => "TRADER"
  | .positioner => "POSITIONER"
  | .auditor => "AUDITOR"
  | .admin => "ADMIN"
  | .other name => name

/-- What an audit entry is about. -/
inductive EntityType where
  | fxDeal
  | regulatoryReport
deriving DecidableEq, Repr

/-- The actions of the audit log. -/
inductive AuditAction where
  | create
  | update
  | validate
  | validateFailed
  | statusChange
  | positionSend
  | regulatoryReportFailed
deriving DecidableEq, Repr

end FxDealManager
