import FxDealManager.Lifecycle.AuditTrail
import FxDealManager.Lifecycle.Solutions

/-!
# The audit log tells where a deal stands

The entries about a deal, read in their order and all of them, tell its state, its validation
status, how many payments it has and how it was decided, in every run: also after an approval whose
sending failed, which no entry records as a change of the state. The entry of the sending tells it.

## Main definitions

* `Standing`: where a deal stands
* `AuditLogEntry.tells`: what an entry tells of where a deal stands
* `standing`: what a list of entries tells

## Main results

* `standing_step`: one input, and what the entries tell of it
* `standing_run`: the entries tell where each deal stands, in every run
-/

namespace FxDealManager

open DecimalArithmetic Transactional

/-- Where a deal stands. -/
structure Standing where
  state : DealState
  validationStatus : ValidationStatus
  payments : ℕ
  decision : Option (ApprovalDecision × Option String)
deriving DecidableEq, Repr

/-- Where a record says that its deal stands. -/
@[simps]
def DealRecord.standing (r : DealRecord) : Standing where
  state := r.row.dealState
  validationStatus := r.row.validationStatus
  payments := r.payments.length
  decision := r.solution.map fun s => (s.decision, s.comment)

/-- A standing is that of a record, if it has what the record has. -/
theorem DealRecord.standing_of {r : DealRecord} {s : Standing} (hstate : r.row.dealState = s.state)
    (hstatus : r.row.validationStatus = s.validationStatus)
    (hpayments : r.payments.length = s.payments)
    (hdecision : (r.solution.map fun s => (s.decision, s.comment)) = s.decision) :
    some s = some r.standing := by
  cases s
  simp [DealRecord.standing, hstate, hstatus, hpayments, hdecision]

/-! ## Reading an entry -/

/-- The state with the code. -/
def DealState.named (code : String) : Option DealState :=
  [.draft, .waitingForPositioner, .approved, .rejected, .executed, .cancelled].find? fun state =>
    state.value = code

/-- The decision with the code. -/
def ApprovalDecision.named (code : String) : Option ApprovalDecision :=
  [.approve, .returnForEdit, .reject].find? fun decision => decision.value = code

/-- The text under a key of the new value of an entry. -/
def AuditLogEntry.textAt (entry : AuditLogEntry) (key : String) : Option String :=
  match entry.newValue.bind (·.get key) with
  | some (.str text) => some text
  | _ => none

/-- The decision that an entry names, with its comment. -/
def AuditLogEntry.decision? (entry : AuditLogEntry) : Option (ApprovalDecision × Option String) :=
  ((entry.textAt "decision").bind ApprovalDecision.named).map fun decision =>
    (decision, entry.textAt "comment")

/-- The number of payments that an entry names. -/
def AuditLogEntry.payments (entry : AuditLogEntry) : ℕ :=
  match entry.newValue.bind (·.get "payments") with
  | some (.int n) => n.toNat
  | _ => 0

/-- The entry is one of a sending that succeeded. -/
def AuditLogEntry.sent (entry : AuditLogEntry) : Bool :=
  match entry.newValue.bind (·.get "success") with
  | some (.bool success) => success
  | _ => false

/-- What an entry tells of where its deal stands. -/
def AuditLogEntry.tells (entry : AuditLogEntry) (before : Option Standing) : Option Standing :=
  match entry.action with
  | .create => some ⟨.draft, .notValidated, 0, none⟩
  | .update => before.map fun s => { s with validationStatus := .notValidated, payments := 0 }
  | .validate => before.map fun s =>
    { s with validationStatus := .valid, payments := entry.payments }
  | .validateFailed => before.map fun s => { s with validationStatus := .invalid }
  | .statusChange => before.bind fun s =>
    ((entry.textAt "status").bind DealState.named).map fun state =>
      { s with state, decision := entry.decision?.or s.decision }
  | .positionSend => before.map fun s =>
    { s with state := if entry.sent then s.state else .approved, decision := some (.approve, none) }
  | .regulatoryReportFailed => before

/-- What entries tell, in their order. -/
def standing (entries : List AuditLogEntry) : Option Standing :=
  entries.foldl (fun before entry => entry.tells before) none

theorem standing_append (entries added : List AuditLogEntry) :
    standing (entries ++ added) =
      added.foldl (fun before entry => entry.tells before) (standing entries) :=
  List.foldl_append

@[simp] theorem named_value (state : DealState) : DealState.named state.value = some state := by
  cases state <;> decide

@[simp] theorem decisionNamed_value (decision : ApprovalDecision) :
    ApprovalDecision.named decision.value = some decision := by
  cases decision <;> decide

/-! ## The entries of the operations -/

section Tells

variable {id : UUID} {email : String} {oldValue : Option Json} {entry : AuditLogEntry}
  {s : Standing}

theorem tells_create {newValue : Option Json} {before : Option Standing}
    (h : Entry id .create email oldValue newValue entry) :
    entry.tells before = some ⟨.draft, .notValidated, 0, none⟩ := by
  simp [AuditLogEntry.tells, h.action]

theorem tells_update {newValue : Option Json} (h : Entry id .update email oldValue newValue entry) :
    entry.tells (some s) = some { s with validationStatus := .notValidated, payments := 0 } := by
  simp [AuditLogEntry.tells, h.action]

theorem tells_validate {valueDate : Date} {payments : ℕ}
    (h : Entry id .validate email oldValue (some (validatedJson valueDate payments)) entry) :
    entry.tells (some s) = some { s with validationStatus := .valid, payments } := by
  have hpayments : entry.payments = payments := by
    simp [AuditLogEntry.payments, h.newValue, validatedJson, Json.get]
  simp [AuditLogEntry.tells, h.action, hpayments]

theorem tells_validateFailed {newValue : Option Json}
    (h : Entry id .validateFailed email oldValue newValue entry) :
    entry.tells (some s) = some { s with validationStatus := .invalid } := by
  simp [AuditLogEntry.tells, h.action]

/-- A change of the state that names no decision. -/
theorem tells_statusChange {newValue : Json} {state : DealState}
    (h : Entry id .statusChange email oldValue (some newValue) entry)
    (hstatus : newValue.get "status" = some (.str state.value))
    (hdecision : newValue.get "decision" = none) :
    entry.tells (some s) = some { s with state } := by
  simp [AuditLogEntry.tells, h.action, AuditLogEntry.textAt, AuditLogEntry.decision?, h.newValue,
    hstatus, hdecision]

theorem executedJson_status (result : PositionSendResult) :
    (executedJson result).get "status" = some (.str DealState.executed.value) := rfl

/-- A negative decision. -/
theorem tells_decision {decision : ApprovalDecision} {comment : Option String}
    (h : Entry id .statusChange email oldValue (some (decisionJson decision comment)) entry) :
    entry.tells (some s) =
      some { s with state := .rejected, decision := some (decision, comment) } := by
  have hcomment : entry.textAt "comment" = comment := by
    cases comment <;>
      simp [AuditLogEntry.textAt, h.newValue, decisionJson, Json.get, Json.ofString?]
  have hname : entry.textAt "decision" = some decision.value := by
    simp [AuditLogEntry.textAt, h.newValue, decisionJson, Json.get]
  have hdecision : entry.decision? = some (decision, comment) := by
    simp [AuditLogEntry.decision?, hcomment, hname]
  have hstatus : entry.textAt "status" = some DealState.rejected.value := by
    simp [AuditLogEntry.textAt, h.newValue, decisionJson, Json.get]
  simp [AuditLogEntry.tells, h.action, hdecision, hstatus]

theorem tells_positionSend {result : PositionSendResult}
    (h : Entry id .positionSend email oldValue (some (sendJson result)) entry) :
    entry.tells (some s) = some { s with
      state := if result.success then s.state else .approved
      decision := some (.approve, none) } := by
  have hsent : entry.sent = result.success := by
    simp [AuditLogEntry.sent, h.newValue, sendJson, Json.get]
  simp [AuditLogEntry.tells, h.action, hsent]

end Tells

/-! ## The invariant -/

/-- A decision about a waiting deal is stored. -/
theorem decision_stored {db : Database} {env : Env} {user : UserClaims} {op : Operation} {id : UUID}
    {r r' : DealRecord} {taken : ApprovalDecision × Option String}
    (hr : db.deals.lookup id = some r)
    (hr' : (step db (.request env user op)).2.deals.lookup id = some r')
    (hwaiting : r.row.dealState = .waitingForPositioner)
    (hdecided : r'.row.dealState.decided = true) (htaken : op.decides id = some taken) :
    r'.standing.decision = some taken := by
  have hsolution := step_solution hr'
  rw [hr, decisionOf_request, htaken] at hsolution
  split at hsolution
  · cases hsolution with
    | kept _ _ hstate =>
      rw [hstate hdecided, hwaiting] at hdecided
      cases hdecided
  · cases hsolution with
    | decided hstored hholds _ _ _ =>
      simp [DealRecord.standing, hstored, hholds.decision, hholds.comment]

/-- What the entries tell before a decision, they tell after it. -/
theorem standing_decided {db : Database} {env : Env} {user : UserClaims} {op : Operation}
    {id : UUID} {r r' : DealRecord} {state : DealState} {result : Except ServiceError DealResponse}
    {added : List AuditLogEntry} (hr : db.deals.lookup id = some r)
    (hr' : (step db (.request env user op)).2.deals.lookup id = some r')
    (hdecision : Decision env user db.nsi id r op state result added)
    (hstate : r'.row.dealState = state)
    (hstatus : r'.row.validationStatus = r.row.validationStatus)
    (hpayments : r'.payments = r.payments) :
    added.foldl (fun before entry => entry.tells before) (some r.standing) = some r'.standing := by
  have hwaiting := hdecision.waiting
  have hkept : ∀ decision, r'.standing.decision = some decision →
      some { r.standing with state, decision := some decision } = some r'.standing := by
    intro decision hstored
    exact DealRecord.standing_of hstate hstatus (congrArg List.length hpayments) hstored
  cases hdecision with
  | declined hdeclines _ _ hentry =>
    rw [List.foldl_cons, List.foldl_nil, tells_decision hentry]
    refine hkept _ (decision_stored hr hr' hwaiting (by rw [hstate]; rfl) ?_)
    cases hdeclines <;> exact if_pos rfl
  | unsent _ hcall hfailed hentry =>
    have hstored := decision_stored hr hr' hwaiting (by rw [hstate]; rfl) (if_pos rfl)
    rw [List.foldl_cons, List.foldl_nil, tells_positionSend hentry, hfailed]
    exact hkept _ hstored
  | sent _ hcall hsent hentry hentry' =>
    have hstored := decision_stored hr hr' hwaiting (by rw [hstate]; rfl) (if_pos rfl)
    rw [List.foldl_cons, List.foldl_cons, List.foldl_nil, tells_positionSend hentry,
      tells_statusChange hentry' (executedJson_status _) rfl]
    exact hkept _ hstored

/-- **One input**: the entries that it appends tell what it does to the standing of its deal. -/
theorem standing_step {db : Database} {input : Input}
    (hP : ∀ id r, db.deals.lookup id = some r → standing (about id db.audit) = some r.standing) :
    ∀ id r, (step db input).2.deals.lookup id = some r →
      standing (about id (step db input).2.audit) = some r.standing := by
  refine forall_deals_turn (P := fun _ r audit => standing audit = some r.standing) ?_ ?_
    fun id r hr _ => hP id r hr
  · intro env user payload id row entry _ _ _ hrow hentry
    have hstored := ofDeal_eq_ok hrow
    rw [standing_append, List.foldl_cons, List.foldl_nil, tells_create hentry]
    simp [DealRecord.standing, hstored.dealState, hstored.validationStatus, newDeal]
  · intro env user op id outcome after result r r' added hop hstep _ hr' _ hr hchange
    subst hop
    rw [standing_append, hP id r hr]
    have hafter : (step db (.request env user op)).2.deals.lookup id = some r' := by
      rw [hstep]
      exact hr'
    cases hchange with
    | edited hstate _ hch hentry =>
      have hnil : r.payments.filter (fun p => p.id ∉ r.payments.map PaymentRow.id) = [] :=
        List.filter_eq_nil_iff.mpr fun p hp => by simpa using ⟨p, hp, rfl⟩
      rw [List.foldl_cons, List.foldl_nil, tells_update hentry]
      exact DealRecord.standing_of (by simp [hch.dealState]) (by simp [hch.validationStatus])
        (congrArg List.length hnil) rfl
    | invalidated _ _ _ hentry =>
      rw [List.foldl_cons, List.foldl_nil, tells_validateFailed hentry]
      simp [DealRecord.standing]
    | validated _ _ hrows hfresh hentry =>
      rw [List.foldl_cons, List.foldl_nil, tells_validate hentry]
      exact DealRecord.standing_of (by simp) (by simp)
        (congrArg List.length (filter_replaced hfresh)) rfl
    | moved hmoves _ hentry =>
      rw [List.foldl_cons, List.foldl_nil]
      cases hmoves <;> rw [tells_statusChange hentry rfl rfl] <;> rfl
    | decided hdecision _ =>
      exact standing_decided hr hafter hdecision rfl rfl rfl

/-- **The audit log tells where each deal stands**, in every run: its entries, read in their order,
tell the state, the validation status, the number of payments and the decision of the deal. -/
theorem standing_run {nsi : ReferenceData} {history : List ServiceTurn} {db : Database}
    (h : Run step (Database.initial nsi) history db) :
    ∀ id r, db.deals.lookup id = some r → standing (about id db.audit) = some r.standing := by
  refine Run.state_invariant (P := fun db => ∀ id r, db.deals.lookup id = some r →
    standing (about id db.audit) = some r.standing) ?_ (fun db input => standing_step) h
  intro id r hr
  simp at hr

/-- The entries about the deal of the desk tell that it is executed. -/
theorem standing_run_desk :
    standing (about Desk.dealId (Desk.after Desk.execution).audit) = some Desk.executed.standing :=
  standing_run (run_serveAll step (Database.initial Desk.nsi) Desk.execution) Desk.dealId
    Desk.executed (Option.some_get _).symm

end FxDealManager
