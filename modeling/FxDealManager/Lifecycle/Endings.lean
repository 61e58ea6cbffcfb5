import FxDealManager.Lifecycle.Exits

/-!
# Every request takes an exit or stops

The deal operations followed to each of their endings.

## Main results

* `createDeal_ending`, `updateDeal_ending`, `validateDeal_ending`, ...: one operation each
* `execute_ends`: what serving a request comes to
-/

namespace FxDealManager

open DecimalArithmetic Transactional

section Ending

variable {env : Env} {user : UserClaims} {op : Operation} {db : Database}
  {log : List Statement} {sends : List SendCall} {c : ServiceProgress}

theorem stops_ending (h : Sends env user db op sends) : Stops (Ending env user op db) db sends := by
  rintro err c hdb htransactions rfl
  exact .stopped ⟨err, rfl⟩ hdb htransactions h

theorem stops_none : Stops (Ending env user op db) db [] := stops_ending .none

theorem loadDeal_bind {β : Type} {Q : Except ServiceError β → ServiceProgress → Prop} {id : UUID}
    {f : FXDeal → Service β} (ho : Open db [] sends c) (hs : Stops Q db sends)
    (h : ∀ r, db.deals.lookup id = some r →
      (f (FXDeal.ofRecord db.nsi id r)).Ensures env c Q) :
    (loadDeal id >>= f).Ensures env c Q := by
  have hwork := ho.work
  have hget : (getById id).Ensures env c fun r c' =>
      match r with
      | .ok deal => ∃ r, db.deals.lookup id = some r ∧ deal = FXDeal.ofRecord db.nsi id r ∧ c' = c
      | .error _ => c'.committed = c.committed ∧ c'.transactions = c.transactions ∧
          c'.effects = c.effects := by
    refine Program.Ensures.query_bind (fun err c' hc ht he => ⟨hc, ht, he⟩) ?_
    rw [hwork]
    cases hr : db.deals.lookup id with
    | none => exact .raise ⟨rfl, rfl, rfl⟩
    | some r => exact .pure ⟨r, rfl, rfl, rfl⟩
  refine Program.Ensures.bind (R := fun r c' =>
      match r with
      | .ok deal => ∃ r, db.deals.lookup id = some r ∧ deal = FXDeal.ofRecord db.nsi id r ∧ c' = c
      | .error _ => c'.committed = c.committed ∧ c'.transactions = c.transactions ∧
          c'.effects = c.effects) (.handle (hget.mono ?_)) ?_ ?_
  · rintro (err | deal) c' h'
    · cases err <;> exact .raise h'
    · exact h'
  · rintro deal c' ⟨r, hr, rfl, rfl⟩
    exact h r hr
  · rintro err c' ⟨hc, ht, he⟩
    exact ho.stopsIn hs err c' hc ht he

/-- The end of an operation that answers with the object it saved. -/
theorem finish {deal : FXDeal} {action : AuditAction} {oldValue newValue : Option Json}
    {Q : Except ServiceError DealResponse → ServiceProgress → Prop} (ho : Open db log sends c)
    (hs : Stops Q db sends)
    (h : ∀ entry c', Entry deal.id action user.email oldValue newValue entry →
      Committed db (log ++ [.insertAudit entry]) sends c' → Q (.ok (toResponse deal)) c') :
    (appendAudit { loaded := deal, deal } action user.email oldValue newValue >>= fun _ =>
      Program.commit >>= fun _ => (pure (toResponse deal) : Service DealResponse)).Ensures
        env c Q := by
  refine appendAudit_bind ho hs fun statements entry c' hstatements hentry ho' => ?_
  rw [statements_unchanged hstatements, List.nil_append] at ho'
  exact commit_bind ho' hs fun c'' hc => .pure (h entry c'' hentry hc)

/-! ## Creation -/

theorem createDeal_ending (payload : DealCreateRequest) :
    (createDeal payload user).Ensures env (Progress.start db)
      (Ending env user (.create payload) db) := by
  have ho := Open.start db
  refine counterpartyExists_bind ho stops_none fun known => ?_
  refine .require_bind (ho.stopsIn stops_none) fun _ => ?_
  refine lookupCode_bind ho stops_none (lookupCode_bind ho stops_none ?_)
  refine lookupCode_bind ho stops_none (freshId_bind fun id => ?_)
  refine saveNew_bind ho stops_none fun row c' stored hrow ho' => ?_
  refine finish ho' stops_none fun entry c'' hentry hc => ?_
  exact .exited (.created hrow hentry) hc

/-! ## Update -/

theorem assignCounterparty_bind {payload : DealUpdateRequest} {deal : FXDeal} {β : Type}
    {Q : Except ServiceError β → ServiceProgress → Prop} {f : FXDeal → Service β}
    (ho : Open db log sends c) (hs : Stops Q db sends)
    (h : (f (assign "counterparty_id" payload.counterpartyId
      (fun a deal => { deal with counterpartyId := a }) deal)).Ensures env c Q) :
    (payload.assignCounterparty deal >>= f).Ensures env c Q := by
  simp only [DealUpdateRequest.assignCounterparty]
  cases hid : payload.counterpartyId with
  | absent =>
    rw [hid] at h
    exact .pure_bind h
  | null =>
    refine .bind_assoc (.query_bind (ho.stopsIn hs) (.bind_assoc ?_))
    exact .require_bind (ho.stopsIn hs) fun hfalse => by simp at hfalse
  | value id =>
    rw [hid] at h
    refine .bind_assoc (counterpartyExists_bind ho hs fun _ => .bind_assoc ?_)
    exact .require_bind (ho.stopsIn hs) fun _ => .pure_bind h

theorem assignDirection_bind {payload : DealUpdateRequest} {deal : FXDeal} {β : Type}
    {Q : Except ServiceError β → ServiceProgress → Prop} {f : FXDeal → Service β}
    (ho : Open db log sends c) (hs : Stops Q db sends)
    (h : (f (assign "operation_direction" payload.operationDirection
      (fun a deal => { deal with operationDirection := a }) deal)).Ensures env c Q) :
    (payload.assignDirection deal >>= f).Ensures env c Q := by
  simp only [DealUpdateRequest.assignDirection]
  cases hdir : payload.operationDirection with
  | absent => rw [hdir] at h; exact .pure_bind h
  | null => exact .raise_bind (hs _ c ho.committed ho.transactions ho.effects)
  | value a => rw [hdir] at h; exact .pure_bind h

theorem assignType_bind {payload : DealUpdateRequest} {deal : FXDeal} {β : Type}
    {Q : Except ServiceError β → ServiceProgress → Prop} {f : FXDeal → Service β}
    (ho : Open db log sends c) (hs : Stops Q db sends)
    (h : (f (assign "deal_type" payload.dealType
      (fun a deal => { deal with dealType := a }) deal)).Ensures env c Q) :
    (payload.assignType deal >>= f).Ensures env c Q := by
  simp only [DealUpdateRequest.assignType]
  cases htype : payload.dealType with
  | absent => rw [htype] at h; exact .pure_bind h
  | null =>
    refine .bind_assoc (lookupCode_bind ho hs ?_)
    exact .raise_bind (hs _ c ho.committed ho.transactions ho.effects)
  | value a => rw [htype] at h; exact .bind_assoc (lookupCode_bind ho hs (.pure_bind h))

@[simp] theorem id_comp_toPayment : Payment.id ∘ PaymentRow.toPayment = PaymentRow.id := rfl

/-- What the flush of an edit writes. -/
theorem edited_statements {nsi : ReferenceData} {id : UUID} {r : DealRecord}
    {payload : DealUpdateRequest} {now : Timestamp} {deal : FXDeal}
    (hdeal : deal = payload.edited (FXDeal.ofRecord nsi id r))
    (h : (⟨FXDeal.ofRecord nsi id r, deal, [], deal.payments.map Payment.id, none⟩ :
      Pending).statements now = .ok log) :
    ∃ ch, DealChanges.between (FXDeal.ofRecord nsi id r) deal = .ok ch ∧
      log = updateStatements id ch now ++ deleteStatements id (r.payments.map PaymentRow.id) := by
  obtain ⟨ch, rows, solution, hch, hrows, hsolution, rfl⟩ := statements_eq_ok h
  cases hrows
  have hsolution : solution = [] := by
    refine solutionStatements_unchanged rfl ?_ hsolution
    simp [hdeal]
  refine ⟨ch, hch, ?_⟩
  simp [hsolution, hdeal, FXDeal.ofRecord]

theorem updateDeal_ending (id : UUID) (payload : DealUpdateRequest) :
    (updateDeal id payload user).Ensures env (Progress.start db)
      (Ending env user (.update id payload) db) := by
  have ho := Open.start db
  refine loadDeal_bind ho stops_none fun r hr => ?_
  refine .require_bind (ho.stopsIn stops_none) fun hstate => ?_
  refine .require_bind (ho.stopsIn stops_none) fun hcreator => ?_
  refine assignCounterparty_bind ho stops_none (assignDirection_bind ho stops_none ?_)
  refine assignType_bind ho stops_none (setValidationStatus_bind ho stops_none ?_)
  refine replacePayments_bind ho stops_none fun statements c' hstatements ho' => ?_
  refine saveExisting_bind ho' stops_none fun statements' c'' updatedAt hstatements' ho'' => ?_
  refine finish ho'' stops_none fun entry c'' hentry hc => ?_
  obtain ⟨ch, hch, rfl⟩ := edited_statements rfl hstatements
  rw [statements_unchanged hstatements', List.append_nil, List.nil_append] at hc
  have hid : (payload.edited (FXDeal.ofRecord db.nsi id r)).id = id := edited_id _
  exact .exited (.updated hr hstate hcreator (between_eq_ok hch) (hid ▸ hentry)) hc

/-! ## Validation -/

/-- A change of the validation status alone. -/
theorem status_statements {nsi : ReferenceData} {id : UUID} {r : DealRecord}
    {status : ValidationStatus} {now : Timestamp}
    (h : ({ loaded := FXDeal.ofRecord nsi id r,
            deal := { FXDeal.ofRecord nsi id r with validationStatus := status } } :
      Pending).statements now = .ok log) :
    log = updateStatements id
      { validationStatus := changedTo r.row.validationStatus status } now := by
  rw [marked_eq_ok rfl h]
  simp [FXDeal.ofRecord]

theorem commitInvalid_ending {id : UUID} {r : DealRecord} {issues : List ValidationIssue}
    (ho : Open db [] [] c) (hr : db.deals.lookup id = some r) (hop : Rejects id r.row op)
    (huser : Entitled user r.row) (hissues : issues ≠ []) :
    (commitInvalid (FXDeal.ofRecord db.nsi id r) user issues).Ensures env c
      (Ending env user op db) := by
  refine setValidationStatus_bind ho stops_none ?_
  refine appendAudit_bind ho stops_none fun statements entry c' hstatements hentry ho' => ?_
  rw [status_statements hstatements, List.nil_append] at ho'
  refine commit_bind ho' stops_none fun c'' hc => .raise ?_
  exact .exited (.invalidated hr hop huser hissues hentry) hc

theorem limitIssues_bind {β : Type} {Q : Except ServiceError β → ServiceProgress → Prop}
    {deal : FXDeal} {f : List ValidationIssue → Service β} (ho : Open db [] [] c)
    (hs : Stops Q db [])
    (h : ∀ issues, checkLimits (db.nsi.activeLimits deal.counterpartyId) deal = some issues →
      (f issues).Ensures env c Q) : (limitIssues deal >>= f).Ensures env c Q := by
  refine .bind_assoc (.query_bind (ho.stopsIn hs) ?_)
  refine .ofExcept_bind (ho.stopsIn hs) fun issues hi => ?_
  rw [ho.work] at hi
  cases hl : checkLimits (db.nsi.activeLimits deal.counterpartyId) deal with
  | none => rw [hl] at hi; cases hi
  | some issues' => rw [hl] at hi; cases hi; exact h issues hl

theorem settle_bind {β : Type} {Q : Except ServiceError β → ServiceProgress → Prop}
    {deal : FXDeal} {f : Date → Service β} (ho : Open db [] [] c) (hs : Stops Q db [])
    (h : ∀ last calendar valueDate, deal.tradeDate.addDays 30 = some last →
      db.nsi.loadCalendar deal.tradeDate last = some calendar →
      calculateValueDate deal.tradeDate deal.loadedDealType calendar deal.valueDate =
        .ok valueDate →
      (f valueDate).Ensures env c Q) : (settle deal >>= f).Ensures env c Q := by
  have hstop : ∀ err, Q (.error err) c := fun err =>
    hs err c ho.committed ho.transactions ho.effects
  simp only [settle]
  cases hlast : deal.tradeDate.addDays 30 with
  | none => exact .raise_bind (hstop _)
  | some last =>
    refine .bind_assoc (.query_bind (ho.stopsIn hs) ?_)
    rw [ho.work]
    cases hcalendar : db.nsi.loadCalendar deal.tradeDate last with
    | none => exact .raise_bind (hstop _)
    | some calendar =>
      cases hdate : calculateValueDate deal.tradeDate deal.loadedDealType calendar
          deal.valueDate with
      | ok valueDate =>
        simp only [hdate]
        exact .pure_bind (h last calendar valueDate hlast hcalendar hdate)
      | error err =>
        simp only [hdate]
        cases err <;> exact .raise_bind (hstop _)

/-- The object of a calculated payment with its account. -/
def Payment.Built (a : CalculatedPayment × String) (p : Payment) : Prop :=
  ∃ id, p = ⟨id, a.1.amount, a.1.currencyCode, some a.2, a.1.paymentDirection, some a.1.valueDate⟩

theorem buildPayments_bind {β : Type} {Q : Except ServiceError β → ServiceProgress → Prop}
    {assigned : List (CalculatedPayment × String)} {f : List Payment → Service β}
    (ho : Open db [] [] c) (hs : Stops Q db [])
    (h : ∀ payments, List.Forall₂ Payment.Built assigned payments → (f payments).Ensures env c Q) :
    (buildPayments assigned >>= f).Ensures env c Q := by
  induction assigned generalizing f with
  | nil => exact .pure_bind (h [] .nil)
  | cons a assigned ih =>
    refine .bind_assoc (lookupCode_bind ho hs (.bind_assoc (freshId_bind fun id => ?_)))
    refine .bind_assoc (ih fun payments hpayments => .pure_bind (h _ (.cons ⟨id, rfl⟩ hpayments)))

theorem books_of_built {assigned : List (CalculatedPayment × String)} {payments : List Payment}
    {rows : List PaymentRow} (hbuilt : List.Forall₂ Payment.Built assigned payments)
    (hstored : List.Forall₂ PaymentRow.Stores payments rows) :
    List.Forall₂ PaymentRow.Books assigned rows := by
  induction hbuilt generalizing rows with
  | nil => cases hstored; exact .nil
  | cons hb _ ih =>
    obtain ⟨id, rfl⟩ := hb
    cases hstored with
    | cons hs hstored => exact .cons ⟨id, hs⟩ (ih hstored)

/-- What the flush of a successful validation writes. -/
theorem validated_statements {nsi : ReferenceData} {id : UUID} {r : DealRecord} {valueDate : Date}
    {payments : List Payment} {now : Timestamp}
    (h : (⟨FXDeal.ofRecord nsi id r,
        { FXDeal.ofRecord nsi id r with
          valueDate := some valueDate
          validationStatus := .valid },
        payments, (FXDeal.ofRecord nsi id r).payments.map Payment.id, none⟩ :
      Pending).statements now = .ok log) :
    ∃ rows, List.Forall₂ PaymentRow.Stores payments rows ∧
      log = updateStatements id
          { valueDate := changedTo r.row.valueDate (some valueDate)
            validationStatus := changedTo r.row.validationStatus .valid } now
        ++ rows.map (.insertPayment id) ++ deleteStatements id (r.payments.map PaymentRow.id) := by
  obtain ⟨p, rows, solution, hp, hrows, hsolution, rfl⟩ := decided_eq_ok rfl h
  have hp : p = none := hp.of_equal (decide_eq_true rfl)
  have hsolution : solution = [] := solutionStatements_unchanged rfl rfl hsolution
  exact ⟨rows, hrows, by simp [hp, hsolution, FXDeal.ofRecord]⟩

/-- Saving a validated deal succeeds as a whole, or has committed nothing. -/
theorem saveValidated_ensures {id : UUID} {r : DealRecord} {valueDate : Date}
    {assigned : List (CalculatedPayment × String)} {payments : List Payment}
    (ho : Open db [] [] c) (hr : db.deals.lookup id = some r) (huser : Entitled user r.row)
    (hvalid : Validation db.nsi (FXDeal.ofRecord db.nsi id r) valueDate assigned)
    (hpayments : List.Forall₂ Payment.Built assigned payments) :
    (saveValidated (FXDeal.ofRecord db.nsi id r) valueDate payments user).Ensures env c
      fun result c' =>
        match result with
        | .ok response => Ending env user (.validate id) db (.ok response) c'
        | .error _ => c'.committed = db ∧ c'.transactions = [] ∧ c'.effects = [] := by
  have hs : Stops (fun (result : Except ServiceError DealResponse) (c' : ServiceProgress) =>
      match result with
      | .ok response => Ending env user (.validate id) db (.ok response) c'
      | .error _ => c'.committed = db ∧ c'.transactions = [] ∧ c'.effects = []) db [] :=
    fun _ _ hdb htransactions hsends => ⟨hdb, htransactions, hsends⟩
  refine setValidationStatus_bind ho hs ?_
  refine replacePayments_bind ho hs fun statements c' hstatements ho' => ?_
  refine saveExisting_bind ho' hs fun statements' c'' updatedAt hstatements' ho'' => ?_
  refine finish ho'' hs fun entry c'' hentry hc => ?_
  obtain ⟨rows, hrows, rfl⟩ := validated_statements hstatements
  rw [statements_unchanged hstatements', List.append_nil, List.nil_append] at hc
  rw [hrows.length_eq] at hentry
  exact .exited (.validated hr huser hvalid (books_of_built hpayments hrows) hentry) hc

theorem validateDeal_ending (id : UUID) :
    (validateDeal id user).Ensures env (Progress.start db)
      (Ending env user (.validate id) db) := by
  have ho := Open.start db
  refine loadDeal_bind ho stops_none fun r hr => ?_
  refine .require_bind (ho.stopsIn stops_none) fun huser => ?_
  refine .query_bind (ho.stopsIn stops_none) (.query_bind (ho.stopsIn stops_none) ?_)
  rw [ho.work]
  dsimp only
  split
  next hissues => exact commitInvalid_ending ho hr .validate huser hissues
  next hissues =>
    refine limitIssues_bind ho stops_none fun limits hlimits => ?_
    split
    next hissues => exact commitInvalid_ending ho hr .validate huser hissues
    next hnolimits =>
      refine settle_bind ho stops_none fun last calendar valueDate hlast hcalendar hdate => ?_
      refine .ofExcept_bind (ho.stopsIn stops_none) fun calculated hcalculated => ?_
      refine .query_bind (ho.stopsIn stops_none) ?_
      rw [ho.work]
      cases hassign : assignNostro db.nsi.nostroByCurrency calculated with
      | mk assigned nostroIssues =>
        dsimp only
        split
        next hnostro => exact commitInvalid_ending ho hr .validate huser hnostro
        next hnostro =>
          refine buildPayments_bind ho stops_none fun payments hpayments => ?_
          have hvalid : Validation db.nsi (FXDeal.ofRecord db.nsi id r) valueDate assigned := by
            refine ⟨not_not.mp hissues, not_not.mp hnolimits ▸ hlimits, ⟨last, calendar, hlast,
              hcalendar, hdate⟩, ⟨calculated, ?_, not_not.mp hnostro ▸ hassign⟩⟩
            cases hc : calculatePayments (FXDeal.ofRecord db.nsi id r) valueDate with
            | none => rw [hc] at hcalculated; cases hcalculated
            | some _ => rw [hc] at hcalculated; cases hcalculated; rfl
          refine .handle ((saveValidated_ensures ho hr huser hvalid hpayments).mono ?_)
          rintro (err | response) c' hsaved
          · obtain ⟨hdb, htransactions, hsends⟩ := hsaved
            exact .rollback_bind (.raise (stops_none _ _ hdb htransactions hsends))
          · exact hsaved

/-! ## Submission, cancellation and taking back -/

/-- What the flush of a change of state writes. -/
theorem moved_statements {nsi : ReferenceData} {id : UUID} {r : DealRecord} {state : DealState}
    {now : Timestamp} (hne : r.row.dealState ≠ state)
    (h : ({ loaded := FXDeal.ofRecord nsi id r,
            deal := { FXDeal.ofRecord nsi id r with dealState := state } } :
      Pending).statements now = .ok log) :
    log = [.updateDeal id { dealState := some state } now] := by
  rw [marked_eq_ok rfl h, updateStatements_of_state (changedTo_of_ne hne)]
  simp [changedTo_of_ne hne, FXDeal.ofRecord]

theorem moved_ending {id : UUID} {r : DealRecord} {state : DealState} {newValue : Json}
    (ho : Open db [] [] c) (hr : db.deals.lookup id = some r)
    (hop : Moves id r.row op state newValue) (huser : Entitled user r.row)
    (hlimits : op = .submit id →
      checkLimits (db.nsi.activeLimits r.row.counterpartyId.val) (FXDeal.ofRecord db.nsi id r) =
        some []) :
    (changeState { loaded := FXDeal.ofRecord db.nsi id r,
                   deal := { FXDeal.ofRecord db.nsi id r with dealState := state } }
      r.row.dealState newValue user).Ensures env c (Ending env user op db) := by
  refine saveExisting_bind ho stops_none fun statements c' updatedAt hstatements ho' => ?_
  refine finish ho' stops_none fun entry c'' hentry hc => ?_
  have hne : r.row.dealState ≠ state := by
    cases hop with
    | submit hstate => simp [hstate]
    | takeForEdit hstate => simp [hstate]
    | cancel hstate => simp [hstate]
  rw [moved_statements hne hstatements] at hc
  exact .exited (.moved hr hop huser hlimits hentry) hc

theorem submitDeal_ending (id : UUID) :
    (submitDeal id user).Ensures env (Progress.start db) (Ending env user (.submit id) db) := by
  have ho := Open.start db
  refine loadDeal_bind ho stops_none fun r hr => ?_
  refine .require_bind (ho.stopsIn stops_none) fun huser => ?_
  refine .require_bind (ho.stopsIn stops_none) fun hstate => ?_
  refine .require_bind (ho.stopsIn stops_none) fun hvalid => ?_
  refine limitIssues_bind ho stops_none fun limits hlimits => ?_
  split
  next hissues => exact commitInvalid_ending ho hr (.submit hstate hvalid) huser hissues
  next hissues =>
    refine setDealState_bind ho stops_none ?_
    exact moved_ending ho hr (.submit hstate hvalid) huser fun _ => not_not.mp hissues ▸ hlimits

theorem takeForEdit_ending (id : UUID) :
    (takeForEdit id user).Ensures env (Progress.start db)
      (Ending env user (.takeForEdit id) db) := by
  have ho := Open.start db
  refine loadDeal_bind ho stops_none fun r hr => ?_
  refine .require_bind (ho.stopsIn stops_none) fun huser => ?_
  refine .require_bind (ho.stopsIn stops_none) fun hstate => ?_
  refine setDealState_bind ho stops_none ?_
  exact moved_ending ho hr (.takeForEdit hstate) huser nofun

theorem cancelDeal_ending (id : UUID) (payload : Option PositionerCommentRequest) :
    (cancelDeal id (payload.map (·.comment)) user).Ensures env (Progress.start db)
      (Ending env user (.cancel id payload) db) := by
  have ho := Open.start db
  refine loadDeal_bind ho stops_none fun r hr => ?_
  refine .require_bind (ho.stopsIn stops_none) fun huser => ?_
  refine .require_bind (ho.stopsIn stops_none) fun hstate => ?_
  refine setDealState_bind ho stops_none ?_
  exact moved_ending ho hr (.cancel hstate) huser nofun

/-! ## Decisions -/

theorem saveSolution_bind {β : Type} {Q : Except ServiceError β → ServiceProgress → Prop}
    {nsi : ReferenceData} {id : UUID} {r : DealRecord} {state : DealState}
    {decision : ApprovalDecision} {comment : Option String} {f : Pending → Service β}
    (h : ∀ pending newSolution,
      pending = ⟨FXDeal.ofRecord nsi id r, decidedDeal nsi id r user state decision comment,
        [], [], newSolution⟩ →
      (∀ solution, pending.solutionStatements env.now = .ok solution →
        Decides id decision comment user.userId env.now r.solution solution) →
      (f pending).Ensures env c Q) :
    (saveSolution
      { loaded := FXDeal.ofRecord nsi id r,
        deal := { FXDeal.ofRecord nsi id r with
          positionerId := some user.userId
          dealState := state } } user decision comment >>= f).Ensures env c Q := by
  obtain ⟨row, payments, stored⟩ := r
  cases stored with
  | none =>
    refine .bind_assoc (freshId_bind fun solutionId => .pure_bind (h _ _ rfl ?_))
    intro solution hsolution
    obtain ⟨s, hs, hsolution⟩ := bind_eq_ok.mp hsolution
    cases hsolution
    obtain ⟨hdecision, hcomment, hpositioner, hdecided⟩ := ofSolution_eq_ok hs
    exact .first hdecision hcomment hpositioner hdecided
  | some s =>
    refine .pure_bind (h _ none rfl ?_)
    intro solution hsolution
    obtain ⟨ch, hch, hsolution⟩ := bind_eq_ok.mp hsolution
    cases hsolution
    obtain ⟨hdecision, hcomment, hpositioner⟩ := solutionBetween_eq_ok hch
    exact .again hdecision hcomment hpositioner

/-- What the flush of a decision writes. -/
theorem decision_statements {nsi : ReferenceData} {id : UUID} {r : DealRecord} {state : DealState}
    {decision : ApprovalDecision} {comment : Option String} {now : Timestamp} {pending : Pending}
    {newSolution : Option PositionerSolution} (hne : r.row.dealState ≠ state)
    (hpending : pending = ⟨FXDeal.ofRecord nsi id r,
      decidedDeal nsi id r user state decision comment, [], [], newSolution⟩)
    (h : pending.statements now = .ok log) :
    ∃ p solution, SetsPositioner user r.row p ∧ pending.solutionStatements now = .ok solution ∧
      log = .updateDeal id { dealState := some state, positionerId := p } now :: solution := by
  obtain ⟨p, rows, solution, hp, hrows, hsolution, rfl⟩ := decided_eq_ok hpending h
  cases hrows
  refine ⟨p, solution, hp, hsolution, ?_⟩
  rw [updateStatements_of_state (changedTo_of_ne hne)]
  simp [deleteStatements, changedTo_of_ne hne, FXDeal.ofRecord]

theorem positionerDecision_ending {id : UUID} {decision : ApprovalDecision}
    {comment : Option String} (hop : Declines id op decision comment) :
    (positionerDecision id user decision comment).Ensures env (Progress.start db)
      (Ending env user op db) := by
  have ho := Open.start db
  refine loadDeal_bind ho stops_none fun r hr => ?_
  refine .require_bind (ho.stopsIn stops_none) fun huser => ?_
  refine .require_bind (ho.stopsIn stops_none) fun hstate => ?_
  refine .require_bind (ho.stopsIn stops_none) fun _ => ?_
  refine setDealState_bind ho stops_none (saveSolution_bind fun pending _ hpending hdecides => ?_)
  refine saveExisting_bind ho stops_none fun statements c' updatedAt hstatements ho' => ?_
  refine finish ho' stops_none fun entry c'' hentry hc => ?_
  have hne : r.row.dealState ≠ .rejected := by rw [show r.row.dealState = _ from hstate]; decide
  obtain ⟨p, solution, hp, hsolution, rfl⟩ := decision_statements hne hpending hstatements
  subst hpending
  exact .exited (.declined hr hop huser hstate hp (hdecides solution hsolution) hentry) hc

/-- The rule for a sending: it stops with an exception, or goes on with the answer of its call. -/
theorem send_bind {β : Type} {Q : Except ServiceError β → ServiceProgress → Prop} {deal : FXDeal}
    {f : PositionSendResult → Service β} (ho : Open db log [] c)
    (hs : ∀ correlationId, Stops Q db [sendDeal env (UUID.text correlationId) deal])
    (h : ∀ correlationId c', Open db log [sendDeal env (UUID.text correlationId) deal] c' →
      (f (sendDeal env (UUID.text correlationId) deal).result).Ensures env c' Q) :
    (send deal >>= f).Ensures env c Q := by
  refine .bind_assoc (freshId_bind fun correlationId => .bind_assoc (.ask_bind ?_))
  have ho' : Open db log [sendDeal env (UUID.text correlationId) deal]
      (c.emitting (sendDeal env (UUID.text correlationId) deal)) :=
    ⟨ho.committed, ho.transactions, ho.faithful, ho.log, by simp [Progress.emitting, ho.effects]⟩
  refine .bind_assoc (.emit_bind (.ofExcept_bind (ho'.stopsIn (hs correlationId)) ?_))
  intro result hresult
  rw [SendCall.result_of_answer hresult]
  exact h correlationId _ ho'

/-- What the flush of an execution writes. -/
theorem executed_statements {nsi : ReferenceData} {id : UUID} {r : DealRecord} {now : Timestamp}
    (h : ({ loaded := handedOver nsi id r user,
            deal := { handedOver nsi id r user with dealState := .executed } } :
      Pending).statements now = .ok log) :
    log = [.updateDeal id { dealState := some .executed } now] := by
  have hne : (handedOver nsi id r user).dealState ≠ .executed := nofun
  rw [marked_eq_ok rfl h, updateStatements_of_state (changedTo_of_ne hne)]
  simp [changedTo_of_ne hne]

theorem approveDeal_ending (id : UUID) :
    (approveDeal id user).Ensures env (Progress.start db) (Ending env user (.approve id) db) := by
  have ho := Open.start db
  refine loadDeal_bind ho stops_none fun r hr => ?_
  refine .require_bind (ho.stopsIn stops_none) fun huser => ?_
  refine .require_bind (ho.stopsIn stops_none) fun hstate => ?_
  refine .require_bind (ho.stopsIn stops_none) fun hother => ?_
  have happrovable : Approvable user r.row := ⟨huser, hstate, hother⟩
  refine setDealState_bind ho stops_none (saveSolution_bind fun pending _ hpending hdecides => ?_)
  have hdeal : pending.deal = handedOver db.nsi id r user := by rw [hpending]; rfl
  have hs : ∀ correlationId, Stops (Ending env user (.approve id) db) db
      [sendDeal env (UUID.text correlationId) (handedOver db.nsi id r user)] :=
    fun correlationId => stops_ending (.handedOver hr happrovable)
  rw [hdeal]
  refine send_bind ho hs fun correlationId c₁ ho₁ => ?_
  have hs := hs correlationId
  refine appendAudit_bind ho₁ hs fun statements entry c₂ hstatements hentry ho₂ => ?_
  have hne : r.row.dealState ≠ .approved := by rw [happrovable.state]; decide
  obtain ⟨p, solution, hp, hsolution, rfl⟩ := decision_statements hne hpending hstatements
  rw [hdeal] at hentry
  split
  next hfailed =>
    refine commit_bind ho₂ hs fun c₃ hc => .raise ?_
    exact .exited
      (.sendFailed hr happrovable hp (hdecides solution hsolution) rfl hfailed hentry) hc
  next hsent =>
    refine setDealState_bind ho₂ hs ?_
    refine saveExisting_bind ho₂ hs fun statements' c₃ updatedAt hstatements' ho₃ => ?_
    refine finish ho₃ hs fun entry' c₄ hentry' hc => ?_
    rw [executed_statements hstatements'] at hc
    rw [List.append_assoc] at hc
    exact .exited (.executed hr happrovable hp (hdecides solution hsolution) rfl
      (by simpa using hsent) hentry hentry') hc

/-! ## All operations -/

theorem program_ending :
    (op.program user).Ensures env (Progress.start db) (Ending env user op db) := by
  cases op with
  | create payload => exact createDeal_ending payload
  | update id payload => exact updateDeal_ending id payload
  | validate id => exact validateDeal_ending id
  | submit id => exact submitDeal_ending id
  | approve id => exact approveDeal_ending id
  | returnForEdit id payload => exact positionerDecision_ending .returnForEdit
  | reject id payload => exact positionerDecision_ending .reject
  | takeForEdit id => exact takeForEdit_ending id
  | cancel id payload => exact cancelDeal_ending id payload

end Ending

/-- **Every request takes an exit or stops**, whichever calls the database rejects. -/
theorem execute_ends (env : Env) (user : UserClaims) (op : Operation) (db : Database) :
    (execute env user op db).Ends env user op db := by
  have h : (serve op user).Ensures env (Progress.start db) fun result c =>
      (user.role ∉ op.roles → c.transactions = []) ∧ Ending env user op db result c := by
    by_cases hrole : user.role ∈ op.roles
    · exact .require_bind (fun err c hc ht he => ⟨fun h => absurd hrole h,
        stops_none err c hc ht he⟩) fun _ => program_ending.mono fun r c h =>
          ⟨fun h => absurd hrole h, h⟩
    · exact .require_bind (fun err c hc ht he => ⟨fun _ => ht, stops_none err c hc ht he⟩)
        fun h => absurd h hrole
  obtain ⟨hrole, hending⟩ := h.run
  cases hending with
  | stopped hresult hdb htransactions hsends => exact .stopped hresult hdb htransactions hsends
  | exited hexit hc =>
    refine .exited ?_ (hc.effects ▸ hexit) hc.transactions hc.replayed
    by_contra hnot
    have hnil := hrole hnot
    rw [hc.transactions] at hnil
    cases hnil

end FxDealManager
