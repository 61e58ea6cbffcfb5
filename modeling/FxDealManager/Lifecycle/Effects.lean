import FxDealManager.Lifecycle.Endings

/-!
# What the exits do to the data

An exit names one deal; it writes the record of that deal and appends entries about it, and
leaves everything else alone. The statements of an exit may be replayed on data that has changed
since the request read it.

## Main results

* `Exit.lookup_other`: the other deals are left alone
* `Exit.forall_records`: a property of records that the exit's own deal keeps
* `Exit.entries_about`: every entry that an exit appends is about its deal, by its user
* `Exit.lookup_before`: an exit that creates no deal has found one
* `execute_sends`: the calls of `sendDeal` that a request makes
* `lookup_updated`, `lookup_validated`, `lookup_decided`, ...: the record after an exit
-/

namespace FxDealManager

open DecimalArithmetic Transactional

/-! ## Entries of a log -/

/-- The audit entries that a log inserts. -/
def entries (log : List Statement) : List AuditLogEntry := log.filterMap Statement.entry?

@[simp] theorem entries_nil : entries [] = [] := rfl

@[simp] theorem entries_append (log log' : List Statement) :
    entries (log ++ log') = entries log ++ entries log' :=
  List.filterMap_append

@[simp] theorem entries_insertAudit (entry : AuditLogEntry) (log : List Statement) :
    entries (.insertAudit entry :: log) = entry :: entries log := rfl

@[simp] theorem entries_insertDeal (id : UUID) (row : FXDealRow) (log : List Statement) :
    entries (.insertDeal id row :: log) = entries log := rfl

@[simp] theorem entries_updateDeal (id : UUID) (ch : DealChanges) (now : Timestamp)
    (log : List Statement) : entries (.updateDeal id ch now :: log) = entries log := rfl

@[simp] theorem entries_updateStatements (id : UUID) (ch : DealChanges) (now : Timestamp) :
    entries (updateStatements id ch now) = [] := by
  by_cases h : ch = {} <;> simp [updateStatements, h]

@[simp] theorem entries_deleteStatements (id : UUID) (ids : List UUID) :
    entries (deleteStatements id ids) = [] := by
  by_cases h : ids = []
  · simp [deleteStatements, h]
  · simp [deleteStatements, h, entries, Statement.entry?]

@[simp] theorem entries_insertPayments (id : UUID) (rows : List PaymentRow) :
    entries (rows.map (.insertPayment id)) = [] := by
  simp [entries, Statement.entry?, Function.comp_def]

theorem entries_decides {id : UUID} {decision : ApprovalDecision} {comment : Option String}
    {positionerId : String} {now : Timestamp} {old : Option PositionerSolutionRow}
    {log : List Statement} (h : Decides id decision comment positionerId now old log) :
    entries log = [] := by
  cases h with
  | first _ _ _ _ => rfl
  | again _ _ _ => split <;> rfl

theorem entries_decisionStatements {id : UUID} {decision : ApprovalDecision}
    {comment : Option String} {positionerId : String} {now : Timestamp}
    {old : Option PositionerSolutionRow} {solution : List Statement} {state : DealState}
    {p : Option (Option (Varchar 36))} {entry : AuditLogEntry}
    (h : Decides id decision comment positionerId now old solution) :
    entries (decisionStatements id state p now solution entry) = [entry] := by
  rw [decisionStatements, entries_append, entries_updateDeal, entries_decides h, List.nil_append]
  rfl

/-- The entries about a deal. -/
def about (id : UUID) (audit : List AuditLogEntry) : List AuditLogEntry :=
  audit.filter fun entry => entry.entityId = id

@[simp] theorem about_append (id : UUID) (audit audit' : List AuditLogEntry) :
    about id (audit ++ audit') = about id audit ++ about id audit' :=
  List.filter_append ..

theorem about_of_forall {id : UUID} {audit : List AuditLogEntry}
    (h : ∀ entry ∈ audit, entry.entityId = id) (j : UUID) :
    about j audit = if j = id then audit else [] := by
  by_cases hj : j = id
  · subst hj
    rw [if_pos rfl]
    exact List.filter_eq_self.mpr fun entry he => by simpa using h entry he
  · rw [if_neg hj]
    refine List.filter_eq_nil_iff.mpr fun entry he => ?_
    rw [h entry he]
    simpa using Ne.symm hj

/-! ## The deal of a log -/

/-- The statements of the log write no deal but one. -/
def Names (id : UUID) (log : List Statement) : Prop :=
  ∀ st ∈ log, st.deal? = none ∨ st.deal? = some id

theorem Names.append {id : UUID} {log log' : List Statement} (h : Names id log)
    (h' : Names id log') : Names id (log ++ log') :=
  List.forall_mem_append.mpr ⟨h, h'⟩

theorem names_updateStatements (id : UUID) (ch : DealChanges) (now : Timestamp) :
    Names id (updateStatements id ch now) := by
  by_cases h : ch = {} <;> simp [updateStatements, h, Names, Statement.deal?]

theorem names_deleteStatements (id : UUID) (ids : List UUID) :
    Names id (deleteStatements id ids) := by
  by_cases h : ids = [] <;> simp [deleteStatements, h, Names, Statement.deal?]

theorem names_insertPayments (id : UUID) (rows : List PaymentRow) :
    Names id (rows.map (.insertPayment id)) := by
  simp [Names, Statement.deal?]

theorem names_decides {id : UUID} {decision : ApprovalDecision} {comment : Option String}
    {positionerId : String} {now : Timestamp} {old : Option PositionerSolutionRow}
    {log : List Statement} (h : Decides id decision comment positionerId now old log) :
    Names id log := by
  cases h with
  | first _ _ _ _ => simp [Names, Statement.deal?]
  | again _ _ _ => split <;> simp [Names, Statement.deal?]

theorem names_insertAudit (id : UUID) (entry : AuditLogEntry) :
    Names id [.insertAudit entry] := by
  simp [Names, Statement.deal?]

theorem names_decisionStatements {id : UUID} {state : DealState}
    {p : Option (Option (Varchar 36))} {now : Timestamp} {solution : List Statement}
    {entry : AuditLogEntry} (h : Names id solution) :
    Names id (decisionStatements id state p now solution entry) := by
  have hdecision : Names id
      (.updateDeal id { dealState := some state, positionerId := p } now :: solution) :=
    List.forall_mem_cons.mpr ⟨.inr rfl, h⟩
  exact hdecision.append (names_insertAudit id entry)

/-! ## Logs that create no deal -/

/-- A log whose statements create no deal leaves a deal missing that is missing. -/
theorem rewrite_none {log : List Statement} (h : ∀ st ∈ log, st.write none = none) (id : UUID) :
    rewrite id log none = none := by
  induction log with
  | nil => rfl
  | cons st log ih =>
    have hst : (if st.deal? = some id then st.write none else none) = none := by
      rw [h st List.mem_cons_self, ite_self]
    simp only [rewrite, List.foldl_cons, hst]
    exact ih fun st' hst' => h st' (List.mem_cons_of_mem _ hst')

theorem write_none_updateStatements (id : UUID) (ch : DealChanges) (now : Timestamp) :
    ∀ st ∈ updateStatements id ch now, st.write none = none := by
  by_cases h : ch = {} <;> simp [updateStatements, h, Statement.write]

theorem write_none_deleteStatements (id : UUID) (ids : List UUID) :
    ∀ st ∈ deleteStatements id ids, st.write none = none := by
  by_cases h : ids = [] <;> simp [deleteStatements, h, Statement.write]

theorem write_none_decides {id : UUID} {decision : ApprovalDecision} {comment : Option String}
    {positionerId : String} {now : Timestamp} {old : Option PositionerSolutionRow}
    {log : List Statement} (h : Decides id decision comment positionerId now old log) :
    ∀ st ∈ log, st.write none = none := by
  cases h with
  | first _ _ _ _ => simp [Statement.write]
  | again _ _ _ => split <;> simp [Statement.write]

namespace Exit

variable {env : Env} {user : UserClaims} {db cur after : Database} {op : Operation} {id : UUID}
  {result : Except ServiceError DealResponse} {log : List Statement} {sends : List SendCall}

/-- An exit names one deal. -/
theorem names (h : Exit env user db op id result log sends) : Names id log := by
  cases h with
  | created _ _ => simp [Names, Statement.deal?]
  | updated _ _ _ _ _ =>
    exact ((names_updateStatements _ _ _).append (names_deleteStatements _ _)).append
      (names_insertAudit _ _)
  | invalidated _ _ _ _ _ => exact (names_updateStatements _ _ _).append (names_insertAudit _ _)
  | validated _ _ _ _ _ =>
    exact (((names_updateStatements _ _ _).append (names_insertPayments _ _)).append
      (names_deleteStatements _ _)).append (names_insertAudit _ _)
  | moved _ _ _ _ _ => simp [Names, Statement.deal?]
  | declined _ _ _ _ _ hsolution _ => exact names_decisionStatements (names_decides hsolution)
  | sendFailed _ _ _ hsolution _ _ _ => exact names_decisionStatements (names_decides hsolution)
  | executed _ _ _ hsolution _ _ _ _ =>
    exact (names_decisionStatements (names_decides hsolution)).append
      (by simp [Names, Statement.deal?])

/-- The other deals are left alone. -/
theorem lookup_other (h : Exit env user db op id result log sends)
    (hreplay : replay log cur = .ok after) {j : UUID} (hj : j ≠ id) :
    after.deals.lookup j = cur.deals.lookup j := by
  rw [replay_lookup hreplay j]
  refine rewrite_other fun st hst heq => ?_
  rcases h.names st hst with hnone | hsome
  · rw [hnone] at heq; cases heq
  · rw [hsome] at heq; cases heq; exact hj rfl

/-- **Record by record**: a property of all records that the exit's own deal keeps is kept. -/
theorem forall_records {P : UUID → DealRecord → Prop}
    (h : Exit env user db op id result log sends) (hreplay : replay log cur = .ok after)
    (hown : ∀ r, rewrite id log (cur.deals.lookup id) = some r → P id r)
    (hP : ∀ j r, cur.deals.lookup j = some r → P j r) :
    ∀ j r, after.deals.lookup j = some r → P j r := by
  intro j r hr
  by_cases hj : j = id
  · subst hj
    rw [replay_lookup hreplay j] at hr
    exact hown r hr
  · rw [h.lookup_other hreplay hj] at hr
    exact hP j r hr

/-- The deal of an exit is the one that the operation names. -/
theorem deal_eq (h : Exit env user db op id result log sends) {j : UUID} (hj : op.deal? = some j) :
    j = id := by
  cases h with
  | created _ _ => cases hj
  | invalidated _ hrejects _ _ _ => cases hrejects <;> exact (Option.some.inj hj).symm
  | moved _ hmoves _ _ _ => cases hmoves <;> exact (Option.some.inj hj).symm
  | declined _ hdeclines _ _ _ _ _ => cases hdeclines <;> exact (Option.some.inj hj).symm
  | _ => exact (Option.some.inj hj).symm

/-- Every entry that an exit appends is about its deal, by its user, and there is one. -/
theorem entries_about (h : Exit env user db op id result log sends) :
    entries log ≠ [] ∧
      ∀ entry ∈ entries log, entry.entityId = id ∧ entry.createdBy.val = user.email := by
  cases h with
  | created _ he => simp [he.entityId, he.createdBy]
  | updated _ _ _ _ he => simp [he.entityId, he.createdBy]
  | invalidated _ _ _ _ he => simp [he.entityId, he.createdBy]
  | validated _ _ _ _ he => simp [he.entityId, he.createdBy]
  | moved _ _ _ _ he => simp [he.entityId, he.createdBy]
  | declined _ _ _ _ _ hs he =>
    simp [entries_decisionStatements hs, he.entityId, he.createdBy]
  | sendFailed _ _ _ hs _ _ he =>
    simp [entries_decisionStatements hs, he.entityId, he.createdBy]
  | executed _ _ _ hs _ _ he he' =>
    simp [entries_decisionStatements hs, he.entityId, he.createdBy, he'.entityId,
      he'.createdBy]

/-- The deal of an exit exists afterwards. -/
theorem lookup_isSome (h : Exit env user db op id result log sends)
    (hreplay : replay log db = .ok after) : (after.deals.lookup id).isSome := by
  rw [replay_lookup hreplay]
  cases h with
  | created _ _ => simp [rewrite, Statement.deal?, Statement.write]
  | updated hr _ _ _ _ => exact rewrite_isSome (by simp [hr])
  | invalidated hr _ _ _ _ => exact rewrite_isSome (by simp [hr])
  | validated hr _ _ _ _ => exact rewrite_isSome (by simp [hr])
  | moved hr _ _ _ _ => exact rewrite_isSome (by simp [hr])
  | declined hr _ _ _ _ _ _ => exact rewrite_isSome (by simp [hr])
  | sendFailed hr _ _ _ _ _ _ => exact rewrite_isSome (by simp [hr])
  | executed hr _ _ _ _ _ _ _ => exact rewrite_isSome (by simp [hr])

/-- Where an exit leaves a deal, it has found one, unless it has created the deal. -/
theorem lookup_before (h : Exit env user db op id result log sends)
    (hreplay : replay log cur = .ok after) (hop : op.deal?.isSome)
    (hafter : (after.deals.lookup id).isSome) : ∃ r, cur.deals.lookup id = some r := by
  have hwrite : ∀ st ∈ log, st.write none = none := by
    cases h with
    | created _ _ => cases hop
    | updated _ _ _ _ _ =>
      simp only [List.forall_mem_append]
      exact ⟨⟨write_none_updateStatements _ _ _, write_none_deleteStatements _ _⟩,
        by simp [Statement.write]⟩
    | invalidated _ _ _ _ _ =>
      simp only [List.forall_mem_append]
      exact ⟨write_none_updateStatements _ _ _, by simp [Statement.write]⟩
    | validated _ _ _ _ _ =>
      simp only [List.forall_mem_append]
      exact ⟨⟨⟨write_none_updateStatements _ _ _, by simp [Statement.write]⟩,
        write_none_deleteStatements _ _⟩, by simp [Statement.write]⟩
    | moved _ _ _ _ _ => simp [Statement.write]
    | declined _ _ _ _ _ hs _ =>
      simp only [decisionStatements, List.forall_mem_append, List.forall_mem_cons]
      exact ⟨⟨rfl, write_none_decides hs⟩, by simp [Statement.write]⟩
    | sendFailed _ _ _ hs _ _ _ =>
      simp only [decisionStatements, List.forall_mem_append, List.forall_mem_cons]
      exact ⟨⟨rfl, write_none_decides hs⟩, by simp [Statement.write]⟩
    | executed _ _ _ hs _ _ _ _ =>
      simp only [decisionStatements, List.forall_mem_append, List.forall_mem_cons]
      exact ⟨⟨⟨rfl, write_none_decides hs⟩, by simp [Statement.write]⟩, by simp [Statement.write]⟩
  cases hcur : cur.deals.lookup id with
  | some r => exact ⟨r, rfl⟩
  | none =>
    rw [replay_lookup hreplay, hcur, rewrite_none hwrite] at hafter
    cases hafter

/-- The calls of `sendDeal` that an exit comes with are those of an approval. -/
theorem sends_of_exit (h : Exit env user db op id result log sends) :
    Sends env user db op sends := by
  cases h with
  | sendFailed hr happrovable _ _ hcall _ _ => exact hcall ▸ .handedOver hr happrovable
  | executed hr happrovable _ _ hcall _ _ _ => exact hcall ▸ .handedOver hr happrovable
  | _ => exact .none

end Exit

/-- The calls of `sendDeal` that a request makes. -/
theorem execute_sends (env : Env) (user : UserClaims) (op : Operation) (db : Database) :
    Sends env user db op (execute env user op db).sends := by
  cases execute_ends env user op db with
  | stopped _ _ _ hsends => exact hsends
  | exited _ hexit _ _ => exact hexit.sends_of_exit

/-- A call is made by an approval that passes its checks, for the deal that it hands over. -/
theorem handedOver_of_sent {env : Env} {user : UserClaims} {op : Operation} {db : Database}
    {call : SendCall} (h : call ∈ (execute env user op db).sends) :
    ∃ id correlationId r, op = .approve id ∧ db.deals.lookup id = some r ∧ Approvable user r.row ∧
      call = sendDeal env (UUID.text correlationId) (handedOver db.nsi id r user) := by
  have hsends := execute_sends env user op db
  generalize (execute env user op db).sends = sends at h hsends
  cases hsends with
  | none => cases h
  | handedOver hr happrovable => exact ⟨_, _, _, rfl, hr, happrovable, List.mem_singleton.mp h⟩

/-! ## The record after an exit -/

section Lookup

variable {id : UUID} {cur after : Database} {now : Timestamp} {entry entry' : AuditLogEntry}
  {ch ch' : DealChanges} {r : DealRecord} {ids : List UUID} {rows : List PaymentRow}

theorem lookup_created {row : FXDealRow}
    (h : replay [Statement.insertDeal id row, .insertAudit entry] cur = .ok after) :
    after.deals.lookup id = some ⟨row, [], none⟩ := by
  rw [replay_lookup h]
  simp [rewrite, Statement.deal?, Statement.write]

theorem lookup_updated
    (h : replay (updateStatements id ch now ++ deleteStatements id ids
      ++ [.insertAudit entry]) cur = .ok after)
    (hr : cur.deals.lookup id = some r) :
    after.deals.lookup id =
      some ⟨ch.write now r.row, r.payments.filter fun p => p.id ∉ ids, r.solution⟩ := by
  rw [replay_lookup h, hr]
  simp

theorem lookup_invalidated
    (h : replay (updateStatements id ch now ++ [.insertAudit entry]) cur = .ok after)
    (hr : cur.deals.lookup id = some r) :
    after.deals.lookup id = some ⟨ch.write now r.row, r.payments, r.solution⟩ := by
  rw [replay_lookup h, hr]
  simp

theorem lookup_validated
    (h : replay (updateStatements id ch now ++ rows.map (.insertPayment id)
      ++ deleteStatements id ids ++ [.insertAudit entry]) cur = .ok after)
    (hr : cur.deals.lookup id = some r) :
    after.deals.lookup id =
      some ⟨ch.write now r.row, (r.payments ++ rows).filter fun p => p.id ∉ ids, r.solution⟩ := by
  rw [replay_lookup h, hr]
  simp

theorem lookup_moved
    (h : replay [Statement.updateDeal id ch now, .insertAudit entry] cur = .ok after)
    (hr : cur.deals.lookup id = some r) :
    after.deals.lookup id = some ⟨ch.apply now r.row, r.payments, r.solution⟩ := by
  rw [replay_lookup h, hr]
  simp

section Decision

variable {state : DealState} {decision : ApprovalDecision} {comment : Option String}
  {positionerId : String} {p : Option (Option (Varchar 36))} {old : Option PositionerSolutionRow}
  {solution : List Statement}

theorem lookup_decided
    (h : replay (decisionStatements id state p now solution entry) cur = .ok after)
    (hsolution : Decides id decision comment positionerId now old solution)
    (hr : cur.deals.lookup id = some r) :
    ∃ s, after.deals.lookup id =
      some ⟨({ dealState := some state, positionerId := p } : DealChanges).apply now r.row,
        r.payments, s⟩ := by
  rw [replay_lookup h, hr]
  obtain ⟨s, hs⟩ := rewrite_decides
    { r with row := ({ dealState := some state, positionerId := p } : DealChanges).apply now r.row }
    hsolution
  exact ⟨s, by simp [decisionStatements, hs]⟩

theorem lookup_executed
    (h : replay (decisionStatements id state p now solution entry
      ++ [.updateDeal id ch now, .insertAudit entry']) cur = .ok after)
    (hsolution : Decides id decision comment positionerId now old solution)
    (hr : cur.deals.lookup id = some r) :
    ∃ s, after.deals.lookup id =
      some ⟨ch.apply now
        (({ dealState := some state, positionerId := p } : DealChanges).apply now r.row),
        r.payments, s⟩ := by
  obtain ⟨a, hdecision, hexecution⟩ := replay_append_eq_ok.mp h
  obtain ⟨s, ha⟩ := lookup_decided hdecision hsolution hr
  exact ⟨s, lookup_moved hexecution ha⟩

end Decision

end Lookup

/-- The payments that a validation inserts have other ids than those stored. -/
theorem payments_fresh {id : UUID} {cur after : Database} {now : Timestamp}
    {entry : AuditLogEntry} {ch : DealChanges} {r : DealRecord} {rows : List PaymentRow}
    {ids : List UUID}
    (h : replay (updateStatements id ch now ++ rows.map (.insertPayment id)
      ++ deleteStatements id ids ++ [.insertAudit entry]) cur = .ok after)
    (hr : cur.deals.lookup id = some r) : ∀ p ∈ rows, p.id ∉ r.payments.map PaymentRow.id := by
  obtain ⟨_, h, _⟩ := replay_append_eq_ok.mp h
  obtain ⟨_, h, _⟩ := replay_append_eq_ok.mp h
  obtain ⟨a, hupdate, hinsert⟩ := replay_append_eq_ok.mp h
  have ha : a.deals.lookup id = some ⟨ch.write now r.row, r.payments, r.solution⟩ := by
    rw [replay_lookup hupdate, hr]
    simp
  exact fun p hp => by simpa using replay_payments_fresh hinsert ha p hp

end FxDealManager
