import FxDealManager.Lifecycle.Run
import FxDealManager.Transactional.Statements

/-!
# The times of the audit entries

Every entry that an operation appends has the time at which its transaction has begun, however long
the operation takes to commit it.

## Main definitions

* `Statement.StampedAt`: the entry that a statement inserts has the given time

## Main results

* `program_stamps`: the entries of every operation, the operations one by one
* `execute_createdAt`: the entries that a request commits
-/

namespace FxDealManager

open Transactional

/-- If the statement inserts an audit entry, its time of creation is the given one. -/
def Statement.StampedAt (now : Timestamp) (st : Statement) : Prop :=
  ∀ entry ∈ st.entry?, entry.createdAt = now

section Stamps

variable {env : Env} {user : UserClaims} {α : Type}

/-- A program that appends only entries with the time of its transaction. -/
abbrev StampsService (env : Env) (x : Service α) : Prop :=
  Program.Writes (Statement.StampedAt env.now) env x

/-! ## The repositories -/

theorem stampedAt_of_entries {log : List Statement} (h : entries log = []) :
    ∀ st ∈ log, st.StampedAt env.now := by
  intro st hst entry hentry
  have hmem : entry ∈ entries log := List.mem_filterMap.mpr ⟨st, hst, hentry⟩
  rw [h] at hmem
  cases hmem

/-- A flush of an object appends no entry. -/
theorem entries_statements {p : Pending} {now : Timestamp} {statements : List Statement}
    (h : p.statements now = .ok statements) : entries statements = [] := by
  obtain ⟨changes, -, h⟩ := bind_eq_ok.mp h
  obtain ⟨added, -, h⟩ := bind_eq_ok.mp h
  obtain ⟨solution, hsolution, h⟩ := bind_eq_ok.mp h
  cases h
  suffices hnone : entries solution = [] by simp [hnone]
  rw [Pending.solutionStatements] at hsolution
  split at hsolution
  · obtain ⟨row, -, hrow⟩ := bind_eq_ok.mp hsolution
    cases hrow
    rfl
  · obtain ⟨changes, -, hchanges⟩ := bind_eq_ok.mp hsolution
    cases hchanges
    split <;> rfl
  · cases hsolution
    rfl

theorem freshId_stamps : StampsService env freshId := .bind .draw fun _ => .ask _

theorem lookupCode_stamps : StampsService env lookupCode := .query _

theorem ofDb_bind_stamps {β : Type} {x : Except DbError α} {f : α → Service β}
    (hf : ∀ a, x = .ok a → StampsService env (f a)) : StampsService env (ofDb x >>= f) := by
  refine .ofExcept_bind fun a ha => hf a ?_
  cases x with
  | ok b => cases ha; rfl
  | error err => cases ha

theorem executeAll_stamps {log : List Statement} (hlog : ∀ st ∈ log, st.StampedAt env.now) :
    StampsService env (executeAll log) := by
  rw [executeAll]
  split
  · exact .pure ()
  · exact .execute hlog

theorem flush_stamps {p : Pending} : StampsService env (flush p) :=
  .ask_bind (ofDb_bind_stamps fun _ hst =>
    executeAll_stamps (stampedAt_of_entries (entries_statements hst)))

theorem getById_stamps {id : UUID} : StampsService env (getById id) := by
  refine .bind (.query _) fun found => ?_
  cases found with
  | none => exact .raise _
  | some deal => exact .pure deal

theorem loadDeal_stamps {id : UUID} : StampsService env (loadDeal id) := by
  refine .handle getById_stamps fun err => ?_
  split <;> exact .raise _

theorem setValidationStatus_stamps {deal : FXDeal} {status : ValidationStatus} :
    StampsService env (setValidationStatus deal status) :=
  .bind lookupCode_stamps fun _ => .pure _

theorem setDealState_stamps {deal : FXDeal} {state : DealState} :
    StampsService env (setDealState deal state) :=
  .bind lookupCode_stamps fun _ => .pure _

theorem saveNew_stamps {deal : FXDeal} : StampsService env (saveNew deal) :=
  .ask_bind (ofDb_bind_stamps fun _ _ => .bind (executeAll_stamps (stampedAt_of_entries rfl))
    fun _ => .bind getById_stamps fun _ => .pure _)

theorem saveExisting_stamps {p : Pending} : StampsService env (saveExisting p) :=
  .bind flush_stamps fun _ => .bind getById_stamps fun _ => .pure _

theorem counterpartyExists_stamps {id : Option String} :
    StampsService env (counterpartyExists id) :=
  .query _

/-- The one place where an entry is made. -/
theorem appendAudit_stamps {p : Pending} {action : AuditAction} {createdBy : String}
    {oldValue newValue : Option Json} :
    StampsService env (appendAudit p action createdBy oldValue newValue) := by
  refine .bind freshId_stamps fun _ => .ask_bind (ofDb_bind_stamps fun statements hst => ?_)
  refine ofDb_bind_stamps fun _ _ => executeAll_stamps (List.forall_mem_append.mpr ⟨?_, ?_⟩)
  · exact stampedAt_of_entries (entries_statements hst)
  · intro st hst entry hentry
    rw [List.mem_singleton.mp hst] at hentry
    cases hentry
    rfl

theorem checkPayments_stamps {faultAfter : Option ℤ} {index : ℤ} {payments : List Payment} :
    StampsService env (checkPayments faultAfter index payments) := by
  induction payments generalizing index with
  | nil => exact .pure ()
  | cons payment payments ih =>
    refine .bind ?_ fun _ => ih
    cases faultAfter with
    | none => exact .pure ()
    | some n => exact .require _ _

theorem replacePayments_stamps {loaded deal : FXDeal} {payments : List Payment} :
    StampsService env (replacePayments loaded deal payments) :=
  .bind (.ask _) fun _ => .bind checkPayments_stamps fun _ => .bind flush_stamps fun _ => .pure _

/-! ## The operations -/

/-- The end of an operation that answers with the object it saved. -/
theorem finish_stamps {p : Pending} {action : AuditAction} {oldValue newValue : Option Json}
    {response : DealResponse} :
    StampsService env (appendAudit p action user.email oldValue newValue >>= fun _ =>
      Program.commit >>= fun _ => (pure response : Service DealResponse)) :=
  .bind appendAudit_stamps fun _ => .bind .commit fun _ => .pure _

theorem createDeal_stamps {payload : DealCreateRequest} :
    StampsService env (createDeal payload user) := by
  refine .bind counterpartyExists_stamps fun known => .bind (.require _ _) fun _ => ?_
  refine .bind lookupCode_stamps fun _ => .bind lookupCode_stamps fun _ => ?_
  refine .bind lookupCode_stamps fun _ => .bind freshId_stamps fun id => ?_
  exact .bind saveNew_stamps fun created => finish_stamps

theorem assignCounterparty_stamps {payload : DealUpdateRequest} {deal : FXDeal} :
    StampsService env (payload.assignCounterparty deal) := by
  rw [DealUpdateRequest.assignCounterparty]
  cases payload.counterpartyId with
  | absent => exact .pure deal
  | null => exact .bind counterpartyExists_stamps fun _ => .bind (.require _ _) fun _ => .pure _
  | value id =>
    exact .bind counterpartyExists_stamps fun _ => .bind (.require _ _) fun _ => .pure _

theorem assignDirection_stamps {payload : DealUpdateRequest} {deal : FXDeal} :
    StampsService env (payload.assignDirection deal) := by
  rw [DealUpdateRequest.assignDirection]
  cases payload.operationDirection with
  | absent => exact .pure deal
  | null => exact .raise _
  | value a => exact .pure _

theorem assignType_stamps {payload : DealUpdateRequest} {deal : FXDeal} :
    StampsService env (payload.assignType deal) := by
  rw [DealUpdateRequest.assignType]
  cases payload.dealType with
  | absent => exact .pure deal
  | null => exact .bind lookupCode_stamps fun _ => .raise _
  | value a => exact .bind lookupCode_stamps fun _ => .pure _

theorem updateDeal_stamps {id : UUID} {payload : DealUpdateRequest} :
    StampsService env (updateDeal id payload user) := by
  refine .bind loadDeal_stamps fun loaded => .bind (.require _ _) fun _ => ?_
  refine .bind (.require _ _) fun _ => .bind assignCounterparty_stamps fun deal => ?_
  refine .bind assignDirection_stamps fun deal => .bind assignType_stamps fun deal => ?_
  refine .bind setValidationStatus_stamps fun deal => .bind replacePayments_stamps fun deal => ?_
  exact .bind saveExisting_stamps fun updated => finish_stamps

theorem commitInvalid_stamps {deal : FXDeal} {issues : List ValidationIssue} :
    StampsService env (commitInvalid deal user issues) :=
  .bind setValidationStatus_stamps fun _ => .bind appendAudit_stamps fun _ =>
    .bind .commit fun _ => .raise _

theorem limitIssues_stamps {deal : FXDeal} : StampsService env (limitIssues deal) :=
  .bind (.query _) fun _ => .ofExcept _

theorem settle_stamps {deal : FXDeal} : StampsService env (settle deal) := by
  rw [settle]
  split
  · exact .raise _
  · refine .bind (.query _) fun calendar => ?_
    split
    · exact .raise _
    · split
      · exact .pure _
      · exact .raise _
      · exact .raise _

theorem buildPayments_stamps {assigned : List (CalculatedPayment × String)} :
    StampsService env (buildPayments assigned) := by
  induction assigned with
  | nil => exact .pure []
  | cons a assigned ih =>
    exact .bind lookupCode_stamps fun _ => .bind freshId_stamps fun _ => .bind ih fun _ => .pure _

theorem saveValidated_stamps {deal : FXDeal} {valueDate : Date} {payments : List Payment} :
    StampsService env (saveValidated deal valueDate payments user) :=
  .bind setValidationStatus_stamps fun _ => .bind replacePayments_stamps fun _ =>
    .bind saveExisting_stamps fun _ => finish_stamps

theorem validateDeal_stamps {id : UUID} : StampsService env (validateDeal id user) := by
  refine .bind loadDeal_stamps fun deal => .bind (.require _ _) fun _ => ?_
  refine .bind (.query _) fun counterparty => .bind (.query _) fun currencies => ?_
  dsimp only
  split
  · exact commitInvalid_stamps
  · refine .bind limitIssues_stamps fun issues => ?_
    split
    · exact commitInvalid_stamps
    · refine .bind settle_stamps fun valueDate => .bind (.ofExcept _) fun calculated => ?_
      refine .bind (.query _) fun nostroByCurrency => ?_
      split
      · exact commitInvalid_stamps
      · refine .bind buildPayments_stamps fun payments => ?_
        exact .handle saveValidated_stamps fun err => .bind .rollback fun _ => .raise _

theorem changeState_stamps {p : Pending} {oldStatus : DealState} {newValue : Json} :
    StampsService env (changeState p oldStatus newValue user) :=
  .bind saveExisting_stamps fun _ => finish_stamps

theorem submitDeal_stamps {id : UUID} : StampsService env (submitDeal id user) := by
  refine .bind loadDeal_stamps fun deal => .bind (.require _ _) fun _ => ?_
  refine .bind (.require _ _) fun _ => .bind (.require _ _) fun _ => ?_
  refine .bind limitIssues_stamps fun issues => ?_
  split
  · exact commitInvalid_stamps
  · exact .bind setDealState_stamps fun submitted => changeState_stamps

theorem saveSolution_stamps {p : Pending} {decision : ApprovalDecision}
    {comment : Option String} : StampsService env (saveSolution p user decision comment) := by
  rw [saveSolution]
  split
  · exact .pure _
  · exact .bind freshId_stamps fun _ => .pure _

/-- The sending and its retries take their time in the open transaction. -/
theorem send_stamps {deal : FXDeal} : StampsService env (send deal) :=
  .bind freshId_stamps fun _ => .bind (.ask _) fun _ => .bind (.emit _) fun _ => .ofExcept _

theorem approveDeal_stamps {id : UUID} : StampsService env (approveDeal id user) := by
  refine .bind loadDeal_stamps fun deal => .bind (.require _ _) fun _ => ?_
  refine .bind (.require _ _) fun _ => .bind (.require _ _) fun _ => ?_
  refine .bind setDealState_stamps fun approved => .bind saveSolution_stamps fun pending => ?_
  refine .bind send_stamps fun result => .bind appendAudit_stamps fun _ => ?_
  split
  · exact .bind .commit fun _ => .raise _
  · exact .bind setDealState_stamps fun executed => changeState_stamps

theorem positionerDecision_stamps {id : UUID} {decision : ApprovalDecision}
    {comment : Option String} :
    StampsService env (positionerDecision id user decision comment) := by
  refine .bind loadDeal_stamps fun deal => .bind (.require _ _) fun _ => ?_
  refine .bind (.require _ _) fun _ => .bind (.require _ _) fun _ => ?_
  refine .bind setDealState_stamps fun rejected => .bind saveSolution_stamps fun pending => ?_
  exact changeState_stamps

theorem takeForEdit_stamps {id : UUID} : StampsService env (takeForEdit id user) := by
  refine .bind loadDeal_stamps fun deal => .bind (.require _ _) fun _ => ?_
  exact .bind (.require _ _) fun _ => .bind setDealState_stamps fun taken => changeState_stamps

theorem cancelDeal_stamps {id : UUID} {comment : Option String} :
    StampsService env (cancelDeal id comment user) := by
  refine .bind loadDeal_stamps fun deal => .bind (.require _ _) fun _ => ?_
  exact .bind (.require _ _) fun _ => .bind setDealState_stamps fun cancelled =>
    changeState_stamps

theorem program_stamps (op : Operation) : StampsService env (op.program user) := by
  cases op with
  | create payload => exact createDeal_stamps
  | update id payload => exact updateDeal_stamps
  | validate id => exact validateDeal_stamps
  | submit id => exact submitDeal_stamps
  | approve id => exact approveDeal_stamps
  | returnForEdit id payload => exact positionerDecision_stamps
  | reject id payload => exact positionerDecision_stamps
  | takeForEdit id => exact takeForEdit_stamps
  | cancel id payload => exact cancelDeal_stamps

/-- **The times of the entries**: whatever a request commits, its entries have the time at which
the request has begun. -/
theorem execute_createdAt (op : Operation) (db : Database) :
    ∀ log ∈ (execute env user op db).transactions, ∀ entry ∈ entries log,
      entry.createdAt = env.now := by
  intro log hlog entry hentry
  have hserve : StampsService env (serve op user) :=
    .bind (.require _ _) fun _ => program_stamps op
  obtain ⟨st, hst, hsome⟩ := List.mem_filterMap.mp hentry
  exact hserve.run db log hlog st hst entry hsome

end Stamps

end FxDealManager
