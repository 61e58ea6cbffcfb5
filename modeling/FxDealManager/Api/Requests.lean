import FxDealManager.Services.ApprovalService

/-!
# Requests

The requests that the routes admit for the deal operations, and what serving one of them does to
the database and to the position system.

## Main definitions

* `Operation`: the deal operations, with their inputs
* `Operation.roles`: the roles that the route of an operation admits
* `serve`: the program of a request, with the gate of its route
* `Outcome`, `execute`: what serving a request comes to
-/

namespace FxDealManager

open Transactional

/-- A deal operation, with its inputs. -/
inductive Operation where
  | create (payload : DealCreateRequest)
  | update (dealId : UUID) (payload : DealUpdateRequest)
  | validate (dealId : UUID)
  | submit (dealId : UUID)
  | approve (dealId : UUID)
  | returnForEdit (dealId : UUID) (payload : PositionerCommentRequest)
  | reject (dealId : UUID) (payload : Option PositionerCommentRequest)
  | takeForEdit (dealId : UUID)
  | cancel (dealId : UUID) (payload : Option PositionerCommentRequest)
deriving DecidableEq

/-- The deal that an operation is about; a creation finds its deal later. -/
def Operation.deal? : Operation → Option UUID
  | .create _ => none
  | .update dealId _ | .validate dealId | .submit dealId | .approve dealId
  | .returnForEdit dealId _ | .reject dealId _ | .takeForEdit dealId | .cancel dealId _ =>
    some dealId

/-- The roles that the route of an operation admits. -/
def Operation.roles : Operation → List Role
  | .approve _ | .returnForEdit _ _ | .reject _ _ => [.positioner, .admin]
  | _ => [.trader, .admin]

/-- The operation without the gate of its route. -/
def Operation.program (user : UserClaims) : Operation → Service DealResponse
  | .create payload => createDeal payload user
  | .update dealId payload => updateDeal dealId payload user
  | .validate dealId => validateDeal dealId user
  | .submit dealId => submitDeal dealId user
  | .approve dealId => approveDeal dealId user
  | .returnForEdit dealId payload => returnDeal dealId payload.comment user
  | .reject dealId payload => rejectDeal dealId (payload.map (·.comment)) user
  | .takeForEdit dealId => FxDealManager.takeForEdit dealId user
  | .cancel dealId payload => cancelDeal dealId (payload.map (·.comment)) user

/-- `require_role`, then the operation. -/
def serve (op : Operation) (user : UserClaims) : Service DealResponse := do
  Program.require (user.role ∈ op.roles) (.http 403 s!"Role {user.role.value} is not allowed")
  op.program user

/-- What serving a request comes to: its answer, the database, the statements of each transaction
it committed, and the calls of `sendDeal` it made. -/
structure Outcome where
  result : Except ServiceError DealResponse
  database : Database
  transactions : List (List Statement)
  sends : List SendCall

/-- Serve a request: what it did not commit is lost with its session. -/
def execute (env : Env) (user : UserClaims) (op : Operation) (db : Database) : Outcome :=
  let (result, session) := (serve op user).run env db
  ⟨result, session.committed, session.transactions, session.effects⟩

end FxDealManager
