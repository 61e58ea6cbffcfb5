import FxDealManager.Lifecycle.Run
import FxDealManager.Transactional.Atomicity

/-!
# Atomic operations

Whatever call the database rejects, and after however many payments the saving of payments fails,
an operation leaves the database as it was or does exactly what it does when nothing fails. What
changes a deal is recorded by the same commit.

## Main results

* `program_atomic`: every operation is atomic, the operations one by one
* `execute_atomic`: what serving a request may leave behind
-/

namespace FxDealManager

open Transactional

section Atomicity

variable {env : Env} {user : UserClaims} {α : Type}

/-- The calm circumstances reject no call. -/
theorem calm_rejects (env : Env) (n : ℕ) : rejects env.calm n = false := rfl

/-- A program that commits nothing and is stopped by faults only. -/
abbrev QuietService (env : Env) (x : Service α) : Prop := Program.Quiet env env.calm x

/-- A program that is stopped by faults only, before it has committed anything. -/
abbrev AtomicService (env : Env) (x : Service α) : Prop := Program.Atomic env env.calm x

/-! ## The repositories -/

theorem freshId_quiet : QuietService env freshId := .bind .draw fun _ => .ask rfl

theorem lookupCode_quiet : QuietService env lookupCode := .query _ (calm_rejects env)

theorem ofDb_quiet {x : Except DbError α} : QuietService env (ofDb x) := .ofExcept _

theorem executeAll_quiet {log : List Statement} : QuietService env (executeAll log) := by
  rw [executeAll]
  split
  · exact .pure ()
  · exact .execute log (calm_rejects env)

theorem flush_quiet {p : Pending} : QuietService env (flush p) :=
  .bind (.ask rfl) fun _ => .bind ofDb_quiet fun _ => executeAll_quiet

theorem getById_quiet {id : UUID} : QuietService env (getById id) := by
  refine .bind (.query _ (calm_rejects env)) fun found => ?_
  cases found with
  | none => exact .raise _
  | some deal => exact .pure deal

/-- The answer that there is no deal is an answer without effects. -/
theorem loadDeal_quiet {id : UUID} : QuietService env (loadDeal id) := by
  refine .handle getById_quiet fun err s => ?_
  cases err <;> exact ⟨_, rfl, rfl, rfl⟩

theorem setValidationStatus_quiet {deal : FXDeal} {status : ValidationStatus} :
    QuietService env (setValidationStatus deal status) :=
  .bind lookupCode_quiet fun _ => .pure _

theorem setDealState_quiet {deal : FXDeal} {state : DealState} :
    QuietService env (setDealState deal state) :=
  .bind lookupCode_quiet fun _ => .pure _

theorem saveNew_quiet {deal : FXDeal} : QuietService env (saveNew deal) :=
  .bind (.ask rfl) fun _ => .bind ofDb_quiet fun _ => .bind executeAll_quiet fun _ =>
    .bind getById_quiet fun _ => .pure _

theorem saveExisting_quiet {p : Pending} : QuietService env (saveExisting p) :=
  .bind flush_quiet fun _ => .bind getById_quiet fun _ => .pure _

theorem counterpartyExists_quiet {id : Option String} :
    QuietService env (counterpartyExists id) :=
  .query _ (calm_rejects env)

theorem appendAudit_quiet {p : Pending} {action : AuditAction} {createdBy : String}
    {oldValue newValue : Option Json} :
    QuietService env (appendAudit p action createdBy oldValue newValue) :=
  .bind freshId_quiet fun _ => .bind (.ask rfl) fun _ => .bind ofDb_quiet fun _ =>
    .bind ofDb_quiet fun _ => executeAll_quiet

/-- The injected fault stops a request or does nothing, after however many payments. -/
theorem checkPayments_failing_or_skip (faultAfter : Option ℤ) (index : ℤ) (payments : List Payment)
    (env : Env) (s : Session Statement Database SendCall) :
    Program.Failing s (checkPayments faultAfter index payments env s) ∨
      checkPayments faultAfter index payments env s = (.ok (), s) := by
  induction payments generalizing index with
  | nil => exact .inr rfl
  | cons payment payments ih =>
    cases faultAfter with
    | none => exact ih (index + 1)
    | some n =>
      by_cases hle : index ≤ n
      · have hcheck : checkPayments (some n) index (payment :: payments) env s =
            checkPayments (some n) (index + 1) payments env s := by
          simp [checkPayments, checkPaymentSaveFault, Program.require, hle, Bind.bind]
        rw [hcheck]
        exact ih (index + 1)
      · refine .inl ⟨.paymentSaveFault n, ?_, ?_, ?_⟩ <;>
          simp [checkPayments, checkPaymentSaveFault, Program.require, hle, Bind.bind]

theorem checkPayments_none (index : ℤ) (payments : List Payment) (env : Env)
    (s : Session Statement Database SendCall) :
    checkPayments none index payments env s = (.ok (), s) := by
  induction payments generalizing index with
  | nil => rfl
  | cons _ payments ih => exact ih (index + 1)

theorem replacePayments_quiet {loaded deal : FXDeal} {payments : List Payment} :
    QuietService env (replacePayments loaded deal payments) := by
  -- the setting of the fault differs in calm circumstances, so that it is read with its check
  have hchecks : QuietService env (do
      let faultAfter ← Program.ask fun env => env.settings.paymentSaveFaultAfter
      checkPayments faultAfter 1 payments) := by
    intro s
    refine (checkPayments_failing_or_skip env.settings.paymentSaveFaultAfter 1 payments env s).imp
      id fun hskip => ?_
    have hcalm := checkPayments_none 1 payments env.calm s
    refine ⟨hskip.trans hcalm.symm, ?_, ?_⟩
    · exact congrArg (fun out => out.2.committed) hskip
    · exact congrArg (fun out => out.2.transactions) hskip
  rw [replacePayments, ← Program.bind_assoc]
  exact .bind hchecks fun _ => .bind flush_quiet fun _ => .pure _

/-! ## The operations -/

/-- The end of an operation that answers with the object it saved. -/
theorem finish_atomic {p : Pending} {action : AuditAction} {oldValue newValue : Option Json}
    {response : DealResponse} :
    AtomicService env (appendAudit p action user.email oldValue newValue >>= fun _ =>
      Program.commit >>= fun _ => (pure response : Service DealResponse)) :=
  .bind appendAudit_quiet fun _ => .commit_bind (calm_rejects env) rfl

theorem createDeal_atomic {payload : DealCreateRequest} :
    AtomicService env (createDeal payload user) := by
  refine .bind counterpartyExists_quiet fun known => .bind (.require _ _) fun _ => ?_
  refine .bind lookupCode_quiet fun _ => .bind lookupCode_quiet fun _ => ?_
  refine .bind lookupCode_quiet fun _ => .bind freshId_quiet fun id => ?_
  exact .bind saveNew_quiet fun created => finish_atomic

theorem assignCounterparty_quiet {payload : DealUpdateRequest} {deal : FXDeal} :
    QuietService env (payload.assignCounterparty deal) := by
  rw [DealUpdateRequest.assignCounterparty]
  cases payload.counterpartyId with
  | absent => exact .pure deal
  | null => exact .bind counterpartyExists_quiet fun _ => .bind (.require _ _) fun _ => .pure _
  | value id => exact .bind counterpartyExists_quiet fun _ => .bind (.require _ _) fun _ => .pure _

theorem assignDirection_quiet {payload : DealUpdateRequest} {deal : FXDeal} :
    QuietService env (payload.assignDirection deal) := by
  rw [DealUpdateRequest.assignDirection]
  cases payload.operationDirection with
  | absent => exact .pure deal
  | null => exact .raise _
  | value a => exact .pure _

theorem assignType_quiet {payload : DealUpdateRequest} {deal : FXDeal} :
    QuietService env (payload.assignType deal) := by
  rw [DealUpdateRequest.assignType]
  cases payload.dealType with
  | absent => exact .pure deal
  | null => exact .bind lookupCode_quiet fun _ => .raise _
  | value a => exact .bind lookupCode_quiet fun _ => .pure _

theorem updateDeal_atomic {id : UUID} {payload : DealUpdateRequest} :
    AtomicService env (updateDeal id payload user) := by
  refine .bind loadDeal_quiet fun loaded => .bind (.require _ _) fun _ => ?_
  refine .bind (.require _ _) fun _ => .bind assignCounterparty_quiet fun deal => ?_
  refine .bind assignDirection_quiet fun deal => .bind assignType_quiet fun deal => ?_
  refine .bind setValidationStatus_quiet fun deal => .bind replacePayments_quiet fun deal => ?_
  exact .bind saveExisting_quiet fun updated => finish_atomic

theorem commitInvalid_atomic {deal : FXDeal} {issues : List ValidationIssue} :
    AtomicService env (commitInvalid deal user issues) :=
  .bind setValidationStatus_quiet fun _ => .bind appendAudit_quiet fun _ =>
    .commit_bind (calm_rejects env) rfl

theorem limitIssues_quiet {deal : FXDeal} : QuietService env (limitIssues deal) :=
  .bind (.query _ (calm_rejects env)) fun _ => .ofExcept _

theorem settle_quiet {deal : FXDeal} : QuietService env (settle deal) := by
  rw [settle]
  split
  · exact .raise _
  · refine .bind (.query _ (calm_rejects env)) fun calendar => ?_
    split
    · exact .raise _
    · split
      · exact .pure _
      · exact .raise _
      · exact .raise _

theorem buildPayments_quiet {assigned : List (CalculatedPayment × String)} :
    QuietService env (buildPayments assigned) := by
  induction assigned with
  | nil => exact .pure []
  | cons a assigned ih =>
    exact .bind lookupCode_quiet fun _ => .bind freshId_quiet fun _ => .bind ih fun _ => .pure _

theorem saveValidated_atomic {deal : FXDeal} {valueDate : Date} {payments : List Payment} :
    AtomicService env (saveValidated deal valueDate payments user) :=
  .bind setValidationStatus_quiet fun _ => .bind replacePayments_quiet fun _ =>
    .bind saveExisting_quiet fun _ => finish_atomic

theorem validateDeal_atomic {id : UUID} : AtomicService env (validateDeal id user) := by
  refine .bind loadDeal_quiet fun deal => .bind (.require _ _) fun _ => ?_
  refine .bind (.query _ (calm_rejects env)) fun counterparty => ?_
  refine .bind (.query _ (calm_rejects env)) fun currencies => ?_
  dsimp only
  split
  · exact commitInvalid_atomic
  · refine .bind limitIssues_quiet fun issues => ?_
    split
    · exact commitInvalid_atomic
    · refine .bind settle_quiet fun valueDate => .bind (.ofExcept _) fun calculated => ?_
      refine .bind (.query _ (calm_rejects env)) fun nostroByCurrency => ?_
      split
      · exact commitInvalid_atomic
      · refine .bind buildPayments_quiet fun payments => ?_
        exact .handle saveValidated_atomic (fun err => rfl) fun err s => ⟨_, rfl, rfl, rfl⟩

theorem changeState_atomic {p : Pending} {oldStatus : DealState} {newValue : Json} :
    AtomicService env (changeState p oldStatus newValue user) :=
  .bind saveExisting_quiet fun _ => finish_atomic

theorem submitDeal_atomic {id : UUID} : AtomicService env (submitDeal id user) := by
  refine .bind loadDeal_quiet fun deal => .bind (.require _ _) fun _ => ?_
  refine .bind (.require _ _) fun _ => .bind (.require _ _) fun _ => ?_
  refine .bind limitIssues_quiet fun issues => ?_
  split
  · exact commitInvalid_atomic
  · exact .bind setDealState_quiet fun submitted => changeState_atomic

theorem saveSolution_quiet {p : Pending} {decision : ApprovalDecision} {comment : Option String} :
    QuietService env (saveSolution p user decision comment) := by
  rw [saveSolution]
  split
  · exact .pure _
  · exact .bind freshId_quiet fun _ => .pure _

/-- A sending has no part in the faults of the database. -/
theorem send_quiet {deal : FXDeal} : QuietService env (send deal) :=
  .bind freshId_quiet fun _ => .bind (.ask rfl) fun _ => .bind (.emit _) fun _ => .ofExcept _

theorem approveDeal_atomic {id : UUID} : AtomicService env (approveDeal id user) := by
  refine .bind loadDeal_quiet fun deal => .bind (.require _ _) fun _ => ?_
  refine .bind (.require _ _) fun _ => .bind (.require _ _) fun _ => ?_
  refine .bind setDealState_quiet fun approved => .bind saveSolution_quiet fun pending => ?_
  refine .bind send_quiet fun result => .bind appendAudit_quiet fun _ => ?_
  split
  · exact .commit_bind (calm_rejects env) rfl
  · exact .bind setDealState_quiet fun executed => changeState_atomic

theorem positionerDecision_atomic {id : UUID} {decision : ApprovalDecision}
    {comment : Option String} :
    AtomicService env (positionerDecision id user decision comment) := by
  refine .bind loadDeal_quiet fun deal => .bind (.require _ _) fun _ => ?_
  refine .bind (.require _ _) fun _ => .bind (.require _ _) fun _ => ?_
  refine .bind setDealState_quiet fun rejected => .bind saveSolution_quiet fun pending => ?_
  exact changeState_atomic

theorem takeForEdit_atomic {id : UUID} : AtomicService env (takeForEdit id user) := by
  refine .bind loadDeal_quiet fun deal => .bind (.require _ _) fun _ => ?_
  exact .bind (.require _ _) fun _ => .bind setDealState_quiet fun taken => changeState_atomic

theorem cancelDeal_atomic {id : UUID} {comment : Option String} :
    AtomicService env (cancelDeal id comment user) := by
  refine .bind loadDeal_quiet fun deal => .bind (.require _ _) fun _ => ?_
  exact .bind (.require _ _) fun _ => .bind setDealState_quiet fun cancelled => changeState_atomic

theorem program_atomic (op : Operation) : AtomicService env (op.program user) := by
  cases op with
  | create payload => exact createDeal_atomic
  | update id payload => exact updateDeal_atomic
  | validate id => exact validateDeal_atomic
  | submit id => exact submitDeal_atomic
  | approve id => exact approveDeal_atomic
  | returnForEdit id payload => exact positionerDecision_atomic
  | reject id payload => exact positionerDecision_atomic
  | takeForEdit id => exact takeForEdit_atomic
  | cancel id payload => exact cancelDeal_atomic

theorem serve_atomic (op : Operation) : AtomicService env (serve op user) :=
  .bind (.require _ _) fun _ => program_atomic op

end Atomicity

/-! ## Outcomes -/

/-- A request that found the data `db` was served as a whole or not at all, and not silently. -/
structure Outcome.Atomic (env : Env) (user : UserClaims) (op : Operation) (db : Database)
    (o : Outcome) : Prop where
  /-- The request failed and left the database alone, or it did what it does when nothing fails. -/
  complete : ((∃ err, o.result = .error err) ∧ o.database = db ∧ o.transactions = []) ∨
    o = execute env.calm user op db
  /-- It committed nothing, or all the statements of one exit in one transaction. -/
  committed : (o.database = db ∧ o.transactions = []) ∨
    ∃ id log, Exit env user db op id o.result log o.sends ∧ o.transactions = [log] ∧
      replay log db = .ok o.database
  /-- A deal that was changed has an entry by the user in the same transaction. -/
  recorded : ∀ id, o.database.deals.lookup id ≠ db.deals.lookup id →
    ∃ log, o.transactions = [log] ∧ o.database.audit = db.audit ++ entries log ∧
      ∃ entry ∈ entries log, entry.entityId = id ∧ entry.createdBy.val = user.email

theorem execute_complete (env : Env) (user : UserClaims) (op : Operation) (db : Database) :
    ((∃ err, (execute env user op db).result = .error err) ∧
        (execute env user op db).database = db ∧ (execute env user op db).transactions = []) ∨
      execute env user op db = execute env.calm user op db := by
  rcases (serve_atomic op).run db with ⟨err, herr, hdb, htransactions⟩ | hcalm
  · exact .inl ⟨⟨err, herr⟩, hdb, htransactions⟩
  · right
    simp only [execute]
    rw [hcalm]

/-- **Every operation is atomic and never silent**, from every database and whatever fails. -/
theorem execute_atomic (env : Env) (user : UserClaims) (op : Operation) (db : Database) :
    (execute env user op db).Atomic env user op db := by
  have hcomplete := execute_complete env user op db
  cases execute_ends env user op db with
  | stopped _ hdb htransactions _ =>
    exact ⟨hcomplete, .inl ⟨hdb, htransactions⟩, fun id hne => absurd (by rw [hdb]) hne⟩
  | @exited id log _ hexit htransactions hreplay =>
    refine ⟨hcomplete, .inr ⟨id, log, hexit, htransactions, hreplay⟩, fun j hne => ?_⟩
    obtain ⟨hsome, hentries⟩ := hexit.entries_about
    obtain ⟨entry, hentry⟩ := List.exists_mem_of_ne_nil _ hsome
    refine ⟨log, htransactions, replay_audit hreplay, entry, hentry, ?_⟩
    have hj : j = id := by
      by_contra hj
      exact hne (hexit.lookup_other hreplay hj)
    rw [hj]
    exact hentries entry hentry

end FxDealManager
