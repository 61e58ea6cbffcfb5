import FxDealManager.Lifecycle.Effects

/-!
# What an exit makes of a deal

The exits once more, by what they make of the record of their deal and by the entries they append.
The record `r₀` that a request has read and the record `r` that its commit finds are the same in a
sequential run; when another request commits in between, they need not be.

## Main definitions

* `Decision`: the ends of a decision by a positioner
* `Change`: what an exit makes of the record of its deal

## Main results

* `Exit.change`: every exit is such a change, on any data that its log is replayed on
* `Exit.created_or_changed`: an exit creates its deal, or it changes the deal that it finds
-/

namespace FxDealManager

open DecimalArithmetic Transactional

/-- The ends of a decision by a positioner: the operation, the new state of the deal, the answer,
and the entries. -/
inductive Decision (env : Env) (user : UserClaims) (nsi : ReferenceData) (id : UUID)
    (r₀ : DealRecord) :
    Operation → DealState → Except ServiceError DealResponse → List AuditLogEntry → Prop
  | declined {op : Operation} {decision : ApprovalDecision} {comment : Option String}
      {entry : AuditLogEntry} {response : DealResponse} (hop : Declines id op decision comment)
      (huser : IsPositioner user) (hstate : r₀.row.dealState = .waitingForPositioner)
      (hentry : Entry id .statusChange user.email (some (statusJson r₀.row.dealState))
        (some (decisionJson decision comment)) entry) :
      Decision env user nsi id r₀ op .rejected (.ok response) [entry]
  | unsent {correlationId : UUID} {call : SendCall} {entry : AuditLogEntry} {err : ServiceError}
      (happrovable : Approvable user r₀.row)
      (hcall : call = sendDeal env (UUID.text correlationId) (handedOver nsi id r₀ user))
      (hfailed : call.result.success = false)
      (hentry : Entry id .positionSend user.email none (some (sendJson call.result)) entry) :
      Decision env user nsi id r₀ (.approve id) .approved (.error err) [entry]
  | sent {correlationId : UUID} {call : SendCall} {entry entry' : AuditLogEntry}
      {response : DealResponse} (happrovable : Approvable user r₀.row)
      (hcall : call = sendDeal env (UUID.text correlationId) (handedOver nsi id r₀ user))
      (hsent : call.result.success = true)
      (hentry : Entry id .positionSend user.email none (some (sendJson call.result)) entry)
      (hentry' : Entry id .statusChange user.email (some (statusJson r₀.row.dealState))
        (some (executedJson call.result)) entry') :
      Decision env user nsi id r₀ (.approve id) .executed (.ok response) [entry, entry']

/-- **What an exit makes of its deal**: the operation, its answer, what becomes of the record `r`
by a request that has read the record `r₀`, and the entries. -/
inductive Change (env : Env) (user : UserClaims) (nsi : ReferenceData) (id : UUID)
    (r₀ r : DealRecord) :
    Operation → Except ServiceError DealResponse → DealRecord → List AuditLogEntry → Prop
  | edited {payload : DealUpdateRequest} {ch : DealChanges} {entry : AuditLogEntry}
      {response : DealResponse} (hstate : r₀.row.dealState = .draft)
      (hcreator : r₀.row.traderId.val = user.userId)
      (hch : ch.Assigns (FXDeal.ofRecord nsi id r₀) (payload.edited (FXDeal.ofRecord nsi id r₀)))
      (hentry : Entry id .update user.email none (some payload.toJson) entry) :
      Change env user nsi id r₀ r (.update id payload) (.ok response)
        ⟨ch.write env.now r.row,
          r.payments.filter fun p => p.id ∉ r₀.payments.map PaymentRow.id, r.solution⟩ [entry]
  | invalidated {op : Operation} {issues : List ValidationIssue} {entry : AuditLogEntry}
      (hop : Rejects id r₀.row op) (huser : Entitled user r₀.row) (hissues : issues ≠ [])
      (hentry : Entry id .validateFailed user.email none (some (issuesJson issues)) entry) :
      Change env user nsi id r₀ r op (.error (.validationFailed issues))
        ⟨({ validationStatus := changedTo r₀.row.validationStatus .invalid } : DealChanges).write
          env.now r.row, r.payments, r.solution⟩ [entry]
  | validated {valueDate : Date} {assigned : List (CalculatedPayment × String)}
      {rows : List PaymentRow} {entry : AuditLogEntry} {response : DealResponse}
      (huser : Entitled user r₀.row)
      (hvalid : Validation nsi (FXDeal.ofRecord nsi id r₀) valueDate assigned)
      (hrows : List.Forall₂ PaymentRow.Books assigned rows)
      (hfresh : ∀ p ∈ rows, p.id ∉ r.payments.map PaymentRow.id)
      (hentry : Entry id .validate user.email none
        (some (validatedJson valueDate rows.length)) entry) :
      Change env user nsi id r₀ r (.validate id) (.ok response)
        ⟨({ valueDate := changedTo r₀.row.valueDate (some valueDate)
            validationStatus := changedTo r₀.row.validationStatus .valid } : DealChanges).write
          env.now r.row,
          (r.payments ++ rows).filter fun p => p.id ∉ r₀.payments.map PaymentRow.id, r.solution⟩
        [entry]
  | moved {op : Operation} {state : DealState} {newValue : Json} {entry : AuditLogEntry}
      {response : DealResponse} (hop : Moves id r₀.row op state newValue)
      (huser : Entitled user r₀.row)
      (hentry : Entry id .statusChange user.email (some (statusJson r₀.row.dealState))
        (some newValue) entry) :
      Change env user nsi id r₀ r op (.ok response)
        ⟨({ dealState := some state } : DealChanges).apply env.now r.row, r.payments, r.solution⟩
        [entry]
  | decided {op : Operation} {state : DealState} {result : Except ServiceError DealResponse}
      {added : List AuditLogEntry} {p : Option (Option (Varchar 36))}
      {solution : Option PositionerSolutionRow}
      (hdecision : Decision env user nsi id r₀ op state result added)
      (hp : SetsPositioner user r₀.row p) :
      Change env user nsi id r₀ r op result
        ⟨({ dealState := some state, positionerId := p } : DealChanges).apply env.now r.row,
          r.payments, solution⟩ added

/-- A decision is taken about a waiting deal. -/
theorem Decision.waiting {env : Env} {user : UserClaims} {nsi : ReferenceData} {id : UUID}
    {r₀ : DealRecord} {op : Operation} {state : DealState}
    {result : Except ServiceError DealResponse} {added : List AuditLogEntry}
    (h : Decision env user nsi id r₀ op state result added) :
    r₀.row.dealState = .waitingForPositioner := by
  cases h with
  | declined _ _ hstate _ => exact hstate
  | unsent happrovable _ _ _ => exact happrovable.state
  | sent happrovable _ _ _ _ => exact happrovable.state

/-- Taking all stored payments out leaves those that were put in, as no two share an id. -/
theorem filter_replaced {old rows : List PaymentRow}
    (hfresh : ∀ p ∈ rows, p.id ∉ old.map PaymentRow.id) :
    (old ++ rows).filter (fun p => p.id ∉ old.map PaymentRow.id) = rows := by
  have hold : old.filter (fun p => p.id ∉ old.map PaymentRow.id) = [] :=
    List.filter_eq_nil_iff.mpr fun p hp => by simpa using ⟨p, hp, rfl⟩
  have hrows : rows.filter (fun p => p.id ∉ old.map PaymentRow.id) = rows :=
    List.filter_eq_self.mpr fun p hp => by simpa using hfresh p hp
  rw [List.filter_append, hold, hrows, List.nil_append]

namespace Exit

variable {env : Env} {user : UserClaims} {db cur after : Database} {op : Operation} {id : UUID}
  {result : Except ServiceError DealResponse} {log : List Statement} {sends : List SendCall}

/-- **Every exit is a change** of the deal that it finds, computed from the deal that the request
has read. -/
theorem change (h : Exit env user db op id result log sends) (hreplay : replay log cur = .ok after)
    {r : DealRecord} (hr : cur.deals.lookup id = some r) :
    ∃ r₀ r', db.deals.lookup id = some r₀ ∧ after.deals.lookup id = some r' ∧
      Change env user db.nsi id r₀ r op result r' (entries log) := by
  cases h with
  | created _ _ =>
    rw [lookup_of_insertDeal hreplay] at hr
    cases hr
  | updated hr₀ hstate hcreator hch he =>
    refine ⟨_, _, hr₀, lookup_updated hreplay hr, ?_⟩
    rw [entries_append, entries_append, entries_updateStatements, entries_deleteStatements]
    exact .edited hstate hcreator hch he
  | invalidated hr₀ hop huser hissues he =>
    refine ⟨_, _, hr₀, lookup_invalidated hreplay hr, ?_⟩
    rw [entries_append, entries_updateStatements]
    exact .invalidated hop huser hissues he
  | validated hr₀ huser hvalid hrows he =>
    refine ⟨_, _, hr₀, lookup_validated hreplay hr, ?_⟩
    rw [entries_append, entries_append, entries_append, entries_updateStatements,
      entries_insertPayments, entries_deleteStatements]
    exact .validated huser hvalid hrows (payments_fresh hreplay hr) he
  | moved hr₀ hop huser _ he =>
    exact ⟨_, _, hr₀, lookup_moved hreplay hr, .moved hop huser he⟩
  | declined hr₀ hop huser hstate hp hs he =>
    obtain ⟨s, hafter⟩ := lookup_decided hreplay hs hr
    refine ⟨_, _, hr₀, hafter, ?_⟩
    rw [entries_decisionStatements hs]
    exact .decided (.declined hop huser hstate he) hp
  | sendFailed hr₀ happrovable hp hs hcall hfailed he =>
    obtain ⟨s, hafter⟩ := lookup_decided hreplay hs hr
    refine ⟨_, _, hr₀, hafter, ?_⟩
    rw [entries_decisionStatements hs]
    exact .decided (.unsent happrovable hcall hfailed he) hp
  | executed hr₀ happrovable hp hs hcall hsent he he' =>
    obtain ⟨s, hafter⟩ := lookup_executed hreplay hs hr
    refine ⟨_, _, hr₀, hafter, ?_⟩
    rw [entries_append, entries_decisionStatements hs]
    exact .decided (.sent happrovable hcall hsent he he') hp

/-- An exit creates its deal, or it changes the deal that it finds. -/
theorem created_or_changed (h : Exit env user db op id result log sends)
    (hreplay : replay log cur = .ok after) {r' : DealRecord}
    (hr' : after.deals.lookup id = some r') :
    (∃ payload row entry, op = .create payload ∧ cur.deals.lookup id = none ∧
        FXDealRow.ofDeal env.now (newDeal id payload user) = .ok row ∧
        Entry id .create user.email none (some (statusJson .draft)) entry ∧
        r' = ⟨row, [], none⟩ ∧ entries log = [entry]) ∨
      ∃ r₀ r, db.deals.lookup id = some r₀ ∧ cur.deals.lookup id = some r ∧
        Change env user db.nsi id r₀ r op result r' (entries log) := by
  cases hr : cur.deals.lookup id with
  | some r =>
    obtain ⟨r₀, r₁, hr₀, hr₁, hchange⟩ := h.change hreplay hr
    rw [hr'] at hr₁
    cases hr₁
    exact .inr ⟨r₀, r, hr₀, rfl, hchange⟩
  | none =>
    have hop : op.deal?.isSome = false := by
      refine Bool.eq_false_iff.mpr fun hop => ?_
      obtain ⟨r, hsome⟩ := h.lookup_before hreplay hop (by rw [hr']; rfl)
      rw [hr] at hsome
      cases hsome
    left
    cases h with
    | created hrow he =>
      rw [lookup_created hreplay] at hr'
      cases hr'
      exact ⟨_, _, _, rfl, rfl, hrow, he, rfl, rfl⟩
    | invalidated _ hrejects _ _ _ => cases hrejects <;> cases hop
    | moved _ hmoves _ _ _ => cases hmoves <;> cases hop
    | declined _ hdeclines _ _ _ _ _ => cases hdeclines <;> cases hop
    | _ => cases hop

end Exit

end FxDealManager
