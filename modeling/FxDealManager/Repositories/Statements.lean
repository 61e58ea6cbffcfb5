import FxDealManager.Domain.Schemas
import FxDealManager.Transactional.Program

/-!
# Statements

The statements a session sends to the database, what they do to the tables, and the constraints
that reject them.

## Main definitions

* `DbError`, `ServiceError`: why the database rejects a statement, and how an operation fails
* `DealChanges`, `SolutionChanges`: the columns that an update sets
* `Statement`, `Statement.exec`: the statements and their meaning
* `rewrite`: what a log does to the record of a deal

## Main results

* `replay_lookup`: what a log writes into the record of a deal
* `replay_audit`: a log appends its audit entries
* `replay_nsi`: a log leaves the reference data alone
-/

namespace FxDealManager

open DecimalArithmetic Transactional

/-- Why the database rejects a statement. -/
inductive DbError where
  | rejected
  | notNullViolation (column : String)
  | stringTooLong (column : String)
  | numericOverflow (column : String)
  | uniqueViolation (table : String)
  | foreignKeyViolation (column : String)
  | missingRow (table : String)
deriving DecidableEq, Repr

/-- One complaint of a validation. -/
structure ValidationIssue where
  field : String
  message : String
deriving DecidableEq, Repr

/-- How an operation fails: an answer with a status, a failed validation, or an exception that
the operation lets through. -/
inductive ServiceError where
  | http (status : ℕ) (detail : String)
  | validationFailed (issues : List ValidationIssue)
  | database (err : DbError)
  | dealNotFound (id : UUID)
  | paymentSaveFault (index : ℤ)
  | attributeError (text : String)
  | valueError
  | keyError
  | overflowError
  | invalidOperation
deriving DecidableEq, Repr

/-- The columns of a deal that an update sets. -/
structure DealChanges where
  tradeDate : Option Date := none
  valueDate : Option (Option Date) := none
  amount : Option (Numeric 18 2) := none
  rate : Option (Numeric 18 6) := none
  buyCurrency : Option (Varchar 3) := none
  sellCurrency : Option (Varchar 3) := none
  operationDirection : Option OperationDirection := none
  counterpartyId : Option (Varchar 20) := none
  dealType : Option DealType := none
  dealState : Option DealState := none
  validationStatus : Option ValidationStatus := none
  traderId : Option (Varchar 36) := none
  traderEmail : Option (Varchar 320) := none
  positionerId : Option (Option (Varchar 36)) := none
  comment : Option (Option String) := none
deriving DecidableEq, Repr

/-- The row after an update at a given time. -/
def DealChanges.apply (ch : DealChanges) (now : Timestamp) (r : FXDealRow) : FXDealRow where
  tradeDate := ch.tradeDate.getD r.tradeDate
  valueDate := ch.valueDate.getD r.valueDate
  amount := ch.amount.getD r.amount
  rate := ch.rate.getD r.rate
  buyCurrency := ch.buyCurrency.getD r.buyCurrency
  sellCurrency := ch.sellCurrency.getD r.sellCurrency
  operationDirection := ch.operationDirection.getD r.operationDirection
  counterpartyId := ch.counterpartyId.getD r.counterpartyId
  dealType := ch.dealType.getD r.dealType
  dealState := ch.dealState.getD r.dealState
  validationStatus := ch.validationStatus.getD r.validationStatus
  traderId := ch.traderId.getD r.traderId
  traderEmail := ch.traderEmail.getD r.traderEmail
  positionerId := ch.positionerId.getD r.positionerId
  comment := ch.comment.getD r.comment
  createdAt := r.createdAt
  updatedAt := now

/-- The columns of a solution that an update sets; `decided_at` is never among them. -/
structure SolutionChanges where
  decision : Option ApprovalDecision := none
  comment : Option (Option String) := none
  positionerId : Option (Varchar 36) := none
deriving DecidableEq, Repr

def SolutionChanges.apply (ch : SolutionChanges) (s : PositionerSolutionRow) :
    PositionerSolutionRow :=
  { s with
    decision := ch.decision.getD s.decision
    comment := ch.comment.getD s.comment
    positionerId := ch.positionerId.getD s.positionerId }

/-- The statements of a session. Payments and solutions are addressed by the deal they belong
to. -/
inductive Statement where
  | insertDeal (id : UUID) (row : FXDealRow)
  | updateDeal (id : UUID) (changes : DealChanges) (now : Timestamp)
  | deletePayments (dealId : UUID) (ids : List UUID)
  | insertPayment (dealId : UUID) (payment : PaymentRow)
  | insertSolution (dealId : UUID) (solution : PositionerSolutionRow)
  | updateSolution (dealId : UUID) (changes : SolutionChanges)
  | insertAudit (entry : AuditLogEntry)

/-- The database with another record for a deal. -/
def Database.setDeal (db : Database) (id : UUID) (r : DealRecord) : Database :=
  { db with deals := db.deals.insert id r }

@[simp] theorem Database.lookup_setDeal (db : Database) (id : UUID) (r : DealRecord) :
    (db.setDeal id r).deals.lookup id = some r :=
  AList.lookup_insert _

theorem Database.lookup_setDeal_ne (db : Database) {id j : UUID} (r : DealRecord) (h : j ≠ id) :
    (db.setDeal id r).deals.lookup j = db.deals.lookup j :=
  AList.lookup_insert_ne h

@[simp] theorem Database.setDeal_audit (db : Database) (id : UUID) (r : DealRecord) :
    (db.setDeal id r).audit = db.audit := rfl

@[simp] theorem Database.setDeal_nsi (db : Database) (id : UUID) (r : DealRecord) :
    (db.setDeal id r).nsi = db.nsi := rfl

/-- Some payment has the id. -/
def Database.hasPayment (db : Database) (id : UUID) : Bool :=
  db.deals.entries.any fun e => e.2.payments.any (·.id = id)

/-- Some solution has the id. -/
def Database.hasSolution (db : Database) (id : UUID) : Bool :=
  db.deals.entries.any fun e => e.2.solution.any (·.id = id)

/-- The meaning of a statement. -/
def Statement.exec : Statement → Database → Except DbError Database
  | .insertDeal id row, db =>
    if (db.deals.lookup id).isSome then .error (.uniqueViolation "fx_deal")
    else if (db.nsi.counterparty? row.counterpartyId.val).isNone then
      .error (.foreignKeyViolation "counterparty_id")
    else .ok (db.setDeal id ⟨row, [], none⟩)
  | .updateDeal id changes now, db =>
    match db.deals.lookup id with
    | none => .error (.missingRow "fx_deal")
    | some r =>
      if changes.counterpartyId.any fun c => (db.nsi.counterparty? c.val).isNone then
        .error (.foreignKeyViolation "counterparty_id")
      else .ok (db.setDeal id { r with row := changes.apply now r.row })
  | .deletePayments dealId ids, db =>
    -- a row that is already gone is not an error
    match db.deals.lookup dealId with
    | none => .ok db
    | some r => .ok (db.setDeal dealId { r with payments := r.payments.filter fun p => p.id ∉ ids })
  | .insertPayment dealId payment, db =>
    match db.deals.lookup dealId with
    | none => .error (.foreignKeyViolation "deal_id")
    | some r =>
      -- the id is the key of the whole table, not of one deal's payments
      if db.hasPayment payment.id then .error (.uniqueViolation "payment")
      else if (db.nsi.currency? payment.currencyCode.val).isNone then
        .error (.foreignKeyViolation "currency_code")
      else .ok (db.setDeal dealId { r with payments := r.payments ++ [payment] })
  | .insertSolution dealId solution, db =>
    match db.deals.lookup dealId with
    | none => .error (.foreignKeyViolation "deal_id")
    | some r =>
      -- the table has two keys, its id and its deal
      if r.solution.isSome || db.hasSolution solution.id then
        .error (.uniqueViolation "positioner_solution")
      else .ok (db.setDeal dealId { r with solution := some solution })
  | .updateSolution dealId changes, db =>
    match db.deals.lookup dealId with
    | some ⟨row, payments, some s⟩ =>
      .ok (db.setDeal dealId ⟨row, payments, some (changes.apply s)⟩)
    | _ => .error (.missingRow "positioner_solution")
  | .insertAudit entry, db =>
    if db.audit.any (·.id = entry.id) then .error (.uniqueViolation "audit_log_entry")
    else .ok { db with audit := db.audit ++ [entry] }

instance : Store Statement Database ServiceError where
  exec st db := (st.exec db).mapError .database
  rejected := .database .rejected

/-- The deal whose record a statement writes. -/
def Statement.deal? : Statement → Option UUID
  | .insertDeal id _ => some id
  | .updateDeal id _ _ => some id
  | .deletePayments dealId _ => some dealId
  | .insertPayment dealId _ => some dealId
  | .insertSolution dealId _ => some dealId
  | .updateSolution dealId _ => some dealId
  | .insertAudit _ => none

/-- The audit entry that a statement inserts. -/
def Statement.entry? : Statement → Option AuditLogEntry
  | .insertAudit entry => some entry
  | _ => none

/-- What a statement does to the record of its deal when no constraint rejects it. -/
def Statement.write : Statement → Option DealRecord → Option DealRecord
  | .insertDeal _ row, _ => some ⟨row, [], none⟩
  | .updateDeal _ changes now, r => r.map fun r => { r with row := changes.apply now r.row }
  | .deletePayments _ ids, r =>
    r.map fun r => { r with payments := r.payments.filter fun p => p.id ∉ ids }
  | .insertPayment _ payment, r => r.map fun r => { r with payments := r.payments ++ [payment] }
  | .insertSolution _ solution, r => r.map fun r => { r with solution := some solution }
  | .updateSolution _ changes, r =>
    r.map fun r => { r with solution := r.solution.map changes.apply }
  | .insertAudit _, r => r

/-- What a log does to the record of the deal `id` when no constraint rejects it. -/
def rewrite (id : UUID) (log : List Statement) (r : Option DealRecord) : Option DealRecord :=
  log.foldl (fun r st => if st.deal? = some id then st.write r else r) r

theorem exec_eq_ok {st : Statement} {db db' : Database} :
    Store.exec st db = .ok db' ↔ st.exec db = .ok db' := by
  simp only [Store.exec]
  cases st.exec db <;> simp [Except.mapError]

/-- All statements but an audit entry write through `setDeal`. -/
theorem Statement.frame_setDeal {st : Statement} {db : Database} {id : UUID} {r : DealRecord}
    (hid : st.deal? = some id) (hentry : st.entry? = none)
    (hr : some r = st.write (db.deals.lookup id)) :
    (∀ j, (db.setDeal id r).deals.lookup j =
        if st.deal? = some j then st.write (db.deals.lookup j) else db.deals.lookup j) ∧
      (db.setDeal id r).audit = db.audit ++ st.entry?.toList ∧
      (db.setDeal id r).nsi = db.nsi := by
  refine ⟨fun j => ?_, by simp [hentry], rfl⟩
  by_cases hj : j = id
  · subst hj
    rw [if_pos hid, db.lookup_setDeal, hr]
  · rw [if_neg (by rw [hid]; simpa using Ne.symm hj), db.lookup_setDeal_ne r hj]

/-- **What a statement leaves alone**: a statement writes the record of its own deal only, inserts
at most its own audit entry, and never writes reference data. -/
theorem Statement.exec_frame {st : Statement} {db db' : Database} (h : st.exec db = .ok db') :
    (∀ j, db'.deals.lookup j =
        if st.deal? = some j then st.write (db.deals.lookup j) else db.deals.lookup j) ∧
      db'.audit = db.audit ++ st.entry?.toList ∧ db'.nsi = db.nsi := by
  cases st with
  | insertDeal id row =>
    simp only [Statement.exec] at h
    split at h
    · cases h
    · split at h
      · cases h
      · cases h; exact frame_setDeal rfl rfl rfl
  | updateDeal id changes now =>
    simp only [Statement.exec] at h
    split at h
    · cases h
    next r hr =>
      split at h
      · cases h
      · cases h; exact frame_setDeal rfl rfl (by simp [Statement.write, hr])
  | deletePayments dealId ids =>
    simp only [Statement.exec] at h
    split at h
    next hr =>
      cases h
      refine ⟨fun j => ?_, by simp [Statement.entry?], rfl⟩
      split
      next hj => cases hj; simp [Statement.write, hr]
      · rfl
    next r hr => cases h; exact frame_setDeal rfl rfl (by simp [Statement.write, hr])
  | insertPayment dealId payment =>
    simp only [Statement.exec] at h
    split at h
    · cases h
    next r hr =>
      split at h
      · cases h
      · split at h
        · cases h
        · cases h; exact frame_setDeal rfl rfl (by simp [Statement.write, hr])
  | insertSolution dealId solution =>
    simp only [Statement.exec] at h
    split at h
    · cases h
    next r hr =>
      split at h
      · cases h
      · cases h; exact frame_setDeal rfl rfl (by simp [Statement.write, hr])
  | updateSolution dealId changes =>
    simp only [Statement.exec] at h
    split at h
    next hr => cases h; exact frame_setDeal rfl rfl (by simp [Statement.write, hr])
    · cases h
  | insertAudit entry =>
    simp only [Statement.exec] at h
    split at h
    · cases h
    · cases h; simp [Statement.entry?, Statement.deal?]

section Replay

variable {log : List Statement} {db db' : Database}

/-- **What a log writes**: the record of each deal is rewritten by the statements that name the
deal. -/
theorem replay_lookup (h : replay log db = .ok db') (id : UUID) :
    db'.deals.lookup id = rewrite id log (db.deals.lookup id) := by
  induction log generalizing db with
  | nil => cases h; rfl
  | cons st log ih =>
    simp only [replay] at h
    cases hst : Store.exec st db with
    | ok a =>
      rw [hst] at h
      rw [ih h, (Statement.exec_frame (exec_eq_ok.mp hst)).1 id]
      rfl
    | error err => rw [hst] at h; cases h

/-- A log leaves the deals alone that it does not name. -/
theorem rewrite_other {id : UUID} {r : Option DealRecord} (h : ∀ st ∈ log, st.deal? ≠ some id) :
    rewrite id log r = r := by
  induction log with
  | nil => rfl
  | cons st log ih =>
    simp only [rewrite, List.foldl_cons, if_neg (h st List.mem_cons_self)]
    exact ih fun st' hst' => h st' (List.mem_cons_of_mem _ hst')

/-- No statement removes a deal. -/
theorem rewrite_isSome {id : UUID} {r : Option DealRecord} (h : r.isSome) :
    (rewrite id log r).isSome := by
  induction log generalizing r with
  | nil => exact h
  | cons st log ih =>
    have hst : (st.write r).isSome := by cases st <;> simp [Statement.write, h]
    refine ih ?_
    by_cases hid : st.deal? = some id
    · simpa [hid] using hst
    · simpa [hid] using h

@[simp] theorem rewrite_append (id : UUID) (log log' : List Statement) (r : Option DealRecord) :
    rewrite id (log ++ log') r = rewrite id log' (rewrite id log r) :=
  List.foldl_append

theorem replay_nsi (h : replay log db = .ok db') : db'.nsi = db.nsi := by
  refine replay_preserves (p := fun d => d.nsi = db.nsi) ?_ h rfl
  intro st _ a b hab ha
  rw [(Statement.exec_frame (exec_eq_ok.mp hab)).2.2, ha]

/-- A log appends its audit entries, in their order. -/
theorem replay_audit (h : replay log db = .ok db') :
    db'.audit = db.audit ++ log.filterMap Statement.entry? := by
  induction log generalizing db with
  | nil => cases h; simp
  | cons st log ih =>
    simp only [replay] at h
    cases hst : Store.exec st db with
    | ok a =>
      rw [hst] at h
      rw [ih h, (Statement.exec_frame (exec_eq_ok.mp hst)).2.1]
      cases hent : st.entry? <;> simp [hent]
    | error err => rw [hst] at h; cases h

/-- A deal that is inserted is new. -/
theorem lookup_of_insertDeal {id : UUID} {row : FXDealRow}
    (h : replay (.insertDeal id row :: log) db = .ok db') : db.deals.lookup id = none := by
  cases hst : Store.exec (.insertDeal id row : Statement) db with
  | error err => simp [replay, hst] at h
  | ok a =>
    have hexec := exec_eq_ok.mp hst
    simp only [Statement.exec] at hexec
    split at hexec
    · cases hexec
    next hnone => simpa using hnone

end Replay

end FxDealManager
