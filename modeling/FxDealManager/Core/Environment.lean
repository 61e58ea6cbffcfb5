import FxDealManager.Domain.Values
import FxDealManager.Transactional.Program

/-!
# Settings and circumstances

The settings of the service, and the circumstances in which one request is served: the clock, the
fresh identifiers, what the network answers, and which calls the database rejects.
-/

namespace FxDealManager

open Transactional

/-- The settings that the deal operations read. -/
structure Settings where
  positionSystemUrl : Option String
  positionSendRetries : ℤ
  positionAuthRequired : Bool
  positionAuthClientId : Option String
  positionAuthClientSecret : Option String
  paymentSaveFaultAfter : Option ℤ
deriving DecidableEq, Repr

/-- What a POST comes to: an answer with its status, its text and what parsing the text as JSON
yields, or the text of the exception it ends with. -/
inductive HttpOutcome where
  | response (status : ℕ) (text : String) (body : Except String Json)
  | failure (text : String)

/-- The circumstances of a request: `rejects n` says that the database rejects the request's
`n`-th call, `uuid n` is its `n`-th fresh identifier, `token` what the identity provider issues
and `http n` what its `n`-th POST comes to. -/
structure Env where
  settings : Settings
  now : Timestamp
  uuid : ℕ → UUID
  token : Except String String
  http : ℕ → HttpOutcome
  rejects : ℕ → Bool

instance : Faults Env := ⟨Env.rejects⟩

/-- The same circumstances without faults: the database rejects no call, and no fault is injected
into the saving of payments. -/
def Env.calm (env : Env) : Env :=
  { env with
    settings := { env.settings with paymentSaveFaultAfter := none }
    rejects := fun _ => false }

end FxDealManager
