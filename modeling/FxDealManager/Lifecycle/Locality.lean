import FxDealManager.Lifecycle.Run
import FxDealManager.Repositories.Locality
import FxDealManager.Validation.Saving

/-!
# A request keeps to its own deal

Every operation is local to the identifiers that its request knows: the id of its deal, and those
that it draws. It reads the reference data and its own deal, and writes under its own identifiers.

## Main definitions

* `LocalService`: an operation that sees and writes what belongs to a set of identifiers
* `Pending.Within`: a session with objects of the set

## Main results

* `program_local`: the locality of every operation, the operations one by one
* `execute_agree`: on databases that agree, a request comes to the same
* `execute_within`: the statements that a request commits
-/

namespace FxDealManager

open Transactional

/-- The pending objects of a session have ids of the set. -/
structure Pending.Within (K : Set UUID) (p : Pending) : Prop where
  deal : p.deal.id ∈ K
  added : ∀ payment ∈ p.added, payment.id ∈ K
  newSolution : ∀ solution ∈ p.newSolution, solution.id ∈ K

section Locality

variable {K : Set UUID} {env : Env} {user : UserClaims} {α : Type}

/-- An operation that sees and writes what belongs to the set. -/
abbrev LocalService (K : Set UUID) (env : Env) (T : α → Prop) (x : Service α) : Prop :=
  Program.Local (AgreeOn K) (Statement.Within K) env T x

/-- Nothing is known of the result. -/
abbrev Anything (_ : α) : Prop := True

/-! ## The repositories -/

/-- An object with an id of the set, of which nothing else is pending. -/
theorem Pending.Within.of_deal {loaded deal : FXDeal} (h : deal.id ∈ K) :
    Pending.Within K { loaded, deal } :=
  ⟨h, by simp, by simp⟩

theorem solutionStatements_within {p : Pending} {now : Timestamp} {solution : List Statement}
    (hp : p.Within K) (h : p.solutionStatements now = .ok solution) :
    ∀ st ∈ solution, st.Within K := by
  rw [Pending.solutionStatements] at h
  split at h
  · rename_i solution' hnew
    obtain ⟨row, hrow, h⟩ := bind_eq_ok.mp h
    cases h
    obtain ⟨positioner, -, hrow⟩ := bind_eq_ok.mp hrow
    cases hrow
    intro st hst
    rw [List.mem_singleton.mp hst]
    exact ⟨hp.deal, hp.newSolution solution' hnew⟩
  · obtain ⟨changes, -, h⟩ := bind_eq_ok.mp h
    cases h
    intro st hst
    split at hst
    · cases hst
    · rw [List.mem_singleton.mp hst]
      exact hp.deal
  · cases h
    simp

/-- What a flush writes belongs to the set, if the objects do. -/
theorem statements_within {p : Pending} {now : Timestamp} {statements : List Statement}
    (hp : p.Within K) (h : p.statements now = .ok statements) :
    ∀ st ∈ statements, st.Within K := by
  obtain ⟨changes, rows, solution, -, hrows, hsolution, rfl⟩ := statements_eq_ok h
  refine List.forall_mem_append.mpr ⟨List.forall_mem_append.mpr
    ⟨List.forall_mem_append.mpr ⟨?_, ?_⟩, solutionStatements_within hp hsolution⟩, ?_⟩
  · intro st hst
    rw [updateStatements] at hst
    split at hst
    · cases hst
    · rw [List.mem_singleton.mp hst]
      exact hp.deal
  · intro st hst
    obtain ⟨row, hrow, rfl⟩ := List.mem_map.mp hst
    obtain ⟨payment, hpayment, hstores⟩ := exists_stored hrows row hrow
    exact ⟨hp.deal, hstores.id ▸ hp.added payment hpayment⟩
  · intro st hst
    rw [deleteStatements] at hst
    split at hst
    · cases hst
    · rw [List.mem_singleton.mp hst]
      exact hp.deal

theorem lookupCode_local : LocalService K env Anything lookupCode :=
  .query (fun _ _ _ => rfl) fun _ => trivial

theorem ofDb_local {x : Except DbError α} :
    LocalService K env (fun a => x = .ok a) (ofDb x) := by
  refine .ofExcept fun a ha => ?_
  cases x with
  | ok b => cases ha; rfl
  | error err => cases ha

theorem executeAll_local {log : List Statement} (hlog : ∀ st ∈ log, st.Within K) :
    LocalService K env Anything (executeAll log) := by
  rw [executeAll]
  split
  · exact .pure trivial
  · exact .execute (respected_within K) hlog

theorem flush_local {p : Pending} (hp : p.Within K) : LocalService K env Anything (flush p) :=
  .bind (.ask (T := Anything) trivial) fun _ _ => .bind ofDb_local fun _ h =>
    executeAll_local (statements_within hp h)

theorem getById_local {id : UUID} (hid : id ∈ K) :
    LocalService K env (fun deal => deal.id ∈ K) (getById id) := by
  refine .bind (T := fun found => ∀ deal ∈ found, deal.id ∈ K)
    (.query (fun db db' h => by rw [h.deals id hid, h.nsi]) fun db deal hdeal => ?_)
    fun found hfound => ?_
  · obtain ⟨r, -, rfl⟩ := Option.map_eq_some_iff.mp hdeal
    exact hid
  · cases found with
    | none => exact .raise _
    | some deal => exact .pure (hfound deal rfl)

theorem loadDeal_local {id : UUID} (hid : id ∈ K) :
    LocalService K env (fun deal => deal.id ∈ K) (loadDeal id) := by
  refine .handle (getById_local hid) fun err => ?_
  split <;> exact .raise _

theorem setValidationStatus_local {deal : FXDeal} {status : ValidationStatus}
    (hid : deal.id ∈ K) :
    LocalService K env (fun deal => deal.id ∈ K) (setValidationStatus deal status) :=
  .bind lookupCode_local fun _ _ => .pure hid

theorem setDealState_local {deal : FXDeal} {state : DealState} (hid : deal.id ∈ K) :
    LocalService K env (fun deal => deal.id ∈ K) (setDealState deal state) :=
  .bind lookupCode_local fun _ _ => .pure hid

theorem saveNew_local {deal : FXDeal} (hid : deal.id ∈ K) :
    LocalService K env (fun deal => deal.id ∈ K) (saveNew deal) := by
  refine .bind (.ask (T := Anything) trivial) fun _ _ => .bind ofDb_local fun row _ => ?_
  refine .bind (executeAll_local ?_) fun _ _ => .bind (getById_local hid) fun _ _ => .pure hid
  intro st hst
  rw [List.mem_singleton.mp hst]
  exact hid

theorem saveExisting_local {p : Pending} (hp : p.Within K) :
    LocalService K env (fun deal => deal.id ∈ K) (saveExisting p) :=
  .bind (flush_local hp) fun _ _ => .bind (getById_local hp.deal) fun _ _ => .pure hp.deal

theorem counterpartyExists_local {id : Option String} :
    LocalService K env Anything (counterpartyExists id) :=
  .query (fun _ _ h => by rw [h.nsi]) fun _ => trivial

theorem checkPayments_local {faultAfter : Option ℤ} {index : ℤ} {payments : List Payment} :
    LocalService K env Anything (checkPayments faultAfter index payments) := by
  induction payments generalizing index with
  | nil => exact .pure trivial
  | cons payment payments ih =>
    refine .bind (T := Anything) ?_ fun _ _ => ih
    cases faultAfter with
    | none => exact .pure trivial
    | some n => exact (Program.Local.require _ _).mono fun _ _ => trivial

/-- Payments are taken out by the id of their deal, and put in with their own ids. -/
theorem replacePayments_local {loaded deal : FXDeal} {payments : List Payment}
    (hid : deal.id ∈ K) (hpayments : ∀ payment ∈ payments, payment.id ∈ K) :
    LocalService K env (fun deal => deal.id ∈ K) (replacePayments loaded deal payments) :=
  .bind (.ask (T := Anything) trivial) fun _ _ => .bind checkPayments_local fun _ _ =>
    .bind (flush_local ⟨hid, hpayments, by simp⟩) fun _ _ => .pure hid

/-! ## What draws identifiers -/

variable (hdrawn : ∀ n, env.uuid n ∈ K)

include hdrawn

theorem freshId_local : LocalService K env (· ∈ K) freshId :=
  .bind .draw fun n _ => .ask (hdrawn n)

theorem appendAudit_local {p : Pending} {action : AuditAction} {createdBy : String}
    {oldValue newValue : Option Json} (hp : p.Within K) :
    LocalService K env Anything (appendAudit p action createdBy oldValue newValue) := by
  refine .bind (freshId_local hdrawn) fun id hid => .bind (.ask (T := Anything) trivial) ?_
  refine fun now _ => .bind ofDb_local fun statements hst => .bind ofDb_local fun email _ => ?_
  refine executeAll_local (List.forall_mem_append.mpr ⟨statements_within hp hst, ?_⟩)
  intro st hst
  rw [List.mem_singleton.mp hst]
  exact ⟨hp.deal, hid⟩

/-- The end of an operation that answers with the object it saved. -/
theorem finish_local {p : Pending} {action : AuditAction} {oldValue newValue : Option Json}
    {response : DealResponse} (hp : p.Within K) :
    LocalService K env Anything (appendAudit p action user.email oldValue newValue >>= fun _ =>
      Program.commit >>= fun _ => (pure response : Service DealResponse)) :=
  .bind (appendAudit_local hdrawn hp) fun _ _ => .bind .commit fun _ _ => .pure trivial

theorem buildPayments_local {assigned : List (CalculatedPayment × String)} :
    LocalService K env (fun payments => ∀ payment ∈ payments, payment.id ∈ K)
      (buildPayments assigned) := by
  induction assigned with
  | nil => exact .pure (by simp)
  | cons a assigned ih =>
    refine .bind lookupCode_local fun _ _ => .bind (freshId_local hdrawn) fun id hid => ?_
    exact .bind ih fun payments hpayments => .pure (List.forall_mem_cons.mpr ⟨hid, hpayments⟩)

/-! ## The operations -/

theorem createDeal_local {payload : DealCreateRequest} :
    LocalService K env Anything (createDeal payload user) := by
  refine .bind counterpartyExists_local fun known _ => .bind (.require _ _) fun _ _ => ?_
  refine .bind lookupCode_local fun _ _ => .bind lookupCode_local fun _ _ => ?_
  refine .bind lookupCode_local fun _ _ => .bind (freshId_local hdrawn) fun id hid => ?_
  exact .bind (saveNew_local hid) fun created hcreated => finish_local hdrawn (.of_deal hcreated)

omit hdrawn in
theorem assignCounterparty_local {payload : DealUpdateRequest} {deal : FXDeal}
    (hid : deal.id ∈ K) :
    LocalService K env (fun deal => deal.id ∈ K) (payload.assignCounterparty deal) := by
  rw [DealUpdateRequest.assignCounterparty]
  cases payload.counterpartyId with
  | absent => exact .pure hid
  | null =>
    exact .bind counterpartyExists_local fun _ _ => .bind (.require _ _) fun _ _ => .pure hid
  | value id =>
    exact .bind counterpartyExists_local fun _ _ => .bind (.require _ _) fun _ _ => .pure hid

omit hdrawn in
theorem assignDirection_local {payload : DealUpdateRequest} {deal : FXDeal} (hid : deal.id ∈ K) :
    LocalService K env (fun deal => deal.id ∈ K) (payload.assignDirection deal) := by
  rw [DealUpdateRequest.assignDirection]
  cases payload.operationDirection with
  | absent => exact .pure hid
  | null => exact .raise _
  | value a => exact .pure hid

omit hdrawn in
theorem assignType_local {payload : DealUpdateRequest} {deal : FXDeal} (hid : deal.id ∈ K) :
    LocalService K env (fun deal => deal.id ∈ K) (payload.assignType deal) := by
  rw [DealUpdateRequest.assignType]
  cases payload.dealType with
  | absent => exact .pure hid
  | null => exact .bind lookupCode_local fun _ _ => .raise _
  | value a => exact .bind lookupCode_local fun _ _ => .pure hid

omit hdrawn in
/-- An edit of the columns keeps the id. -/
theorem id_unedited : Unedited FXDeal.id := by
  constructor <;> intros <;> rfl

theorem updateDeal_local {id : UUID} {payload : DealUpdateRequest} (hid : id ∈ K) :
    LocalService K env Anything (updateDeal id payload user) := by
  refine .bind (loadDeal_local hid) fun loaded hloaded => .bind (.require _ _) fun _ _ => ?_
  refine .bind (.require _ _) fun _ _ => .bind (assignCounterparty_local hloaded) ?_
  intro deal hdeal
  refine .bind (assignDirection_local ?_) fun deal hdeal => .bind (assignType_local hdeal) ?_
  · rwa [id_unedited.assignTerms]
  intro deal hdeal
  refine .bind (setValidationStatus_local ?_) fun deal hdeal =>
    .bind (replacePayments_local hdeal (by simp)) fun deal hdeal => ?_
  · rw [DealUpdateRequest.assignComment, Unedited.assignNullable id_unedited.comment]
    exact hdeal
  exact .bind (saveExisting_local (.of_deal hdeal)) fun updated hupdated =>
    finish_local hdrawn (.of_deal hupdated)

theorem commitInvalid_local {deal : FXDeal} {issues : List ValidationIssue} (hid : deal.id ∈ K) :
    LocalService K env Anything (commitInvalid deal user issues) :=
  .bind (setValidationStatus_local hid) fun _ hdeal =>
    .bind (appendAudit_local hdrawn (.of_deal hdeal)) fun _ _ =>
      .bind .commit fun _ _ => .raise _

omit hdrawn in
theorem limitIssues_local {deal : FXDeal} : LocalService K env Anything (limitIssues deal) :=
  .bind (T := Anything) (.query (fun _ _ h => by rw [h.nsi]) fun _ => trivial) fun _ _ =>
    .ofExcept fun _ _ => trivial

omit hdrawn in
theorem settle_local {deal : FXDeal} : LocalService K env Anything (settle deal) := by
  rw [settle]
  split
  · exact .raise _
  · refine .bind (T := Anything) (.query (fun _ _ h => by rw [h.nsi]) fun _ => trivial) ?_
    intro calendar _
    split
    · exact .raise _
    · split
      · exact .pure trivial
      · exact .raise _
      · exact .raise _

theorem saveValidated_local {deal : FXDeal} {valueDate : Date} {payments : List Payment}
    (hid : deal.id ∈ K) (hpayments : ∀ payment ∈ payments, payment.id ∈ K) :
    LocalService K env Anything (saveValidated deal valueDate payments user) := by
  refine .bind (setValidationStatus_local (by exact hid)) fun deal hdeal => ?_
  refine .bind (replacePayments_local hdeal hpayments) fun deal hdeal => ?_
  exact .bind (saveExisting_local (.of_deal hdeal)) fun updated hupdated =>
    finish_local hdrawn (.of_deal hupdated)

theorem validateDeal_local {id : UUID} (hid : id ∈ K) :
    LocalService K env Anything (validateDeal id user) := by
  refine .bind (loadDeal_local hid) fun deal hdeal => .bind (.require _ _) fun _ _ => ?_
  refine .bind (T := Anything) (.query (fun _ _ h => by rw [h.nsi]) fun _ => trivial) ?_
  refine fun counterparty _ =>
    .bind (T := Anything) (.query (fun _ _ h => by rw [h.nsi]) fun _ => trivial) ?_
  intro currencies _
  dsimp only
  split
  · exact commitInvalid_local hdrawn hdeal
  · refine .bind limitIssues_local fun issues _ => ?_
    split
    · exact commitInvalid_local hdrawn hdeal
    · refine .bind settle_local fun valueDate _ =>
        .bind (T := Anything) (.ofExcept fun _ _ => trivial) fun calculated _ => ?_
      refine .bind (T := Anything) (.query (fun _ _ h => by rw [h.nsi]) fun _ => trivial) ?_
      intro nostroByCurrency _
      split
      · exact commitInvalid_local hdrawn hdeal
      · refine .bind (buildPayments_local hdrawn) fun payments hpayments => ?_
        exact .handle (saveValidated_local hdrawn hdeal hpayments) fun err =>
          .bind .rollback fun _ _ => .raise _

theorem changeState_local {p : Pending} {oldStatus : DealState} {newValue : Json}
    (hp : p.Within K) : LocalService K env Anything (changeState p oldStatus newValue user) :=
  .bind (saveExisting_local hp) fun _ hupdated => finish_local hdrawn (.of_deal hupdated)

theorem submitDeal_local {id : UUID} (hid : id ∈ K) :
    LocalService K env Anything (submitDeal id user) := by
  refine .bind (loadDeal_local hid) fun deal hdeal => .bind (.require _ _) fun _ _ => ?_
  refine .bind (.require _ _) fun _ _ => .bind (.require _ _) fun _ _ => ?_
  refine .bind limitIssues_local fun issues _ => ?_
  split
  · exact commitInvalid_local hdrawn hdeal
  · exact .bind (setDealState_local hdeal) fun submitted hsubmitted =>
      changeState_local hdrawn (.of_deal hsubmitted)

theorem saveSolution_local {p : Pending} {decision : ApprovalDecision} {comment : Option String}
    (hp : p.Within K) :
    LocalService K env (fun p => p.Within K) (saveSolution p user decision comment) := by
  rw [saveSolution]
  split
  · exact .pure ⟨hp.deal, hp.added, hp.newSolution⟩
  · refine .bind (freshId_local hdrawn) fun id hid => .pure ⟨hp.deal, hp.added, ?_⟩
    intro solution hsolution
    cases hsolution
    exact hid

/-- What is sent is made of the deal and of an identifier that the request has drawn. -/
theorem send_local {deal : FXDeal} : LocalService K env Anything (send deal) :=
  .bind (freshId_local hdrawn) fun _ _ => .bind (.ask (T := Anything) trivial) fun _ _ =>
    .bind (.emit _) fun _ _ => .ofExcept fun _ _ => trivial

theorem approveDeal_local {id : UUID} (hid : id ∈ K) :
    LocalService K env Anything (approveDeal id user) := by
  refine .bind (loadDeal_local hid) fun deal hdeal => .bind (.require _ _) fun _ _ => ?_
  refine .bind (.require _ _) fun _ _ => .bind (.require _ _) fun _ _ => ?_
  refine .bind (setDealState_local (by exact hdeal)) fun approved happroved => ?_
  refine .bind (saveSolution_local hdrawn (.of_deal happroved)) fun pending hpending => ?_
  refine .bind (send_local hdrawn) fun result _ =>
    .bind (appendAudit_local hdrawn hpending) fun _ _ => ?_
  split
  · exact .bind .commit fun _ _ => .raise _
  · exact .bind (setDealState_local hpending.deal) fun executed hexecuted =>
      changeState_local hdrawn (.of_deal hexecuted)

theorem positionerDecision_local {id : UUID} {decision : ApprovalDecision}
    {comment : Option String} (hid : id ∈ K) :
    LocalService K env Anything (positionerDecision id user decision comment) := by
  refine .bind (loadDeal_local hid) fun deal hdeal => .bind (.require _ _) fun _ _ => ?_
  refine .bind (.require _ _) fun _ _ => .bind (.require _ _) fun _ _ => ?_
  refine .bind (setDealState_local (by exact hdeal)) fun rejected hrejected => ?_
  exact .bind (saveSolution_local hdrawn (.of_deal hrejected)) fun pending hpending =>
    changeState_local hdrawn hpending

theorem takeForEdit_local {id : UUID} (hid : id ∈ K) :
    LocalService K env Anything (takeForEdit id user) := by
  refine .bind (loadDeal_local hid) fun deal hdeal => .bind (.require _ _) fun _ _ => ?_
  exact .bind (.require _ _) fun _ _ => .bind (setDealState_local hdeal) fun taken htaken =>
    changeState_local hdrawn (.of_deal htaken)

theorem cancelDeal_local {id : UUID} {comment : Option String} (hid : id ∈ K) :
    LocalService K env Anything (cancelDeal id comment user) := by
  refine .bind (loadDeal_local hid) fun deal hdeal => .bind (.require _ _) fun _ _ => ?_
  exact .bind (.require _ _) fun _ _ => .bind (setDealState_local hdeal) fun cancelled hcancelled =>
    changeState_local hdrawn (.of_deal hcancelled)

/-- **Every operation is local** to identifiers that include those of its deal and those that it
draws. -/
theorem program_local (op : Operation) (hop : ∀ id ∈ op.deal?, id ∈ K) :
    LocalService K env Anything (op.program user) := by
  cases op with
  | create payload => exact createDeal_local hdrawn
  | update id payload => exact updateDeal_local hdrawn (hop id rfl)
  | validate id => exact validateDeal_local hdrawn (hop id rfl)
  | submit id => exact submitDeal_local hdrawn (hop id rfl)
  | approve id => exact approveDeal_local hdrawn (hop id rfl)
  | returnForEdit id payload => exact positionerDecision_local hdrawn (hop id rfl)
  | reject id payload => exact positionerDecision_local hdrawn (hop id rfl)
  | takeForEdit id => exact takeForEdit_local hdrawn (hop id rfl)
  | cancel id payload => exact cancelDeal_local hdrawn (hop id rfl)

theorem serve_local (op : Operation) (hop : ∀ id ∈ op.deal?, id ∈ K) :
    LocalService K env Anything (serve op user) :=
  .bind (.require _ _) fun _ _ => program_local hdrawn op hop

/-- **On databases that agree**, a request comes to the same, and they agree again. -/
theorem execute_agree (user : UserClaims) {op : Operation} (hop : ∀ id ∈ op.deal?, id ∈ K)
    {db db' : Database} (h : AgreeOn K db db') :
    (execute env user op db').result = (execute env user op db).result ∧
      (execute env user op db').transactions = (execute env user op db).transactions ∧
      (execute env user op db').sends = (execute env user op db).sends ∧
      AgreeOn K (execute env user op db).database (execute env user op db').database := by
  obtain ⟨hresult, htransactions, hsends, hagree, -⟩ := (serve_local hdrawn op hop).run h
  exact ⟨hresult, htransactions, hsends, hagree⟩

/-- The statements that a request commits. -/
theorem execute_within (user : UserClaims) {op : Operation} (hop : ∀ id ∈ op.deal?, id ∈ K)
    {db : Database} (hforeign : db.Foreign K) :
    ∀ log ∈ (execute env user op db).transactions, ∀ st ∈ log, st.Within K :=
  ((serve_local hdrawn op hop).run (.refl hforeign)).2.2.2.2

end Locality

end FxDealManager
