import FxDealManager.Repositories.Flush

/-!
# Rules for the repositories

How the operations of the repositories continue, for a request that has committed nothing yet.
Each rule leaves one goal for the rest of the request; that the request may stop at the
operation is settled once, by what the postcondition says about requests that stop.

## Main definitions

* `Open`: the open transaction of a request, with its log
* `Committed`: a request that has committed its transaction
* `Stops`: the postcondition admits every failure before the commit
* `Entry`: an audit entry about a deal

## Main results

* `getById_bind`, `saveNew_bind`, `saveExisting_bind`, `replacePayments_bind`,
  `appendAudit_bind`, `commit_bind`: the rules, one for each operation
-/

namespace FxDealManager

open Transactional

/-- The progress of a request of the service. -/
abbrev ServiceProgress := Progress Statement Database SendCall

/-- The open transaction of a request that found the data `db`: it has executed `log` and made
the calls `sends`, and committed nothing. -/
structure Open (db : Database) (log : List Statement) (sends : List SendCall)
    (c : ServiceProgress) : Prop where
  committed : c.committed = db
  transactions : c.transactions = []
  faithful : c.Faithful
  log : c.log = log
  effects : c.effects = sends

theorem Open.start (db : Database) : Open db [] [] (Progress.start db) :=
  ⟨rfl, rfl, Progress.Faithful.start db, rfl, rfl⟩

/-- Before its first statement, a request sees the data it found. -/
theorem Open.work {db : Database} {sends : List SendCall} {c : ServiceProgress}
    (h : Open db [] sends c) : c.work = db := by
  have hf := h.faithful
  rw [Progress.Faithful, h.log, h.committed] at hf
  cases hf
  rfl

/-- A request that has committed one transaction with the statements `log`. -/
structure Committed (db : Database) (log : List Statement) (sends : List SendCall)
    (c : ServiceProgress) : Prop where
  transactions : c.transactions = [log]
  replayed : replay log db = .ok c.committed
  effects : c.effects = sends

/-- The postcondition admits every failure of a request that has committed nothing. -/
def Stops {β : Type} (Q : Except ServiceError β → ServiceProgress → Prop) (db : Database)
    (sends : List SendCall) : Prop :=
  ∀ err c, c.committed = db → c.transactions = [] → c.effects = sends → Q (.error err) c

theorem Open.stopsIn {β : Type} {Q : Except ServiceError β → ServiceProgress → Prop}
    {db : Database} {log : List Statement} {sends : List SendCall} {c : ServiceProgress}
    (h : Open db log sends c) (hs : Stops Q db sends) : c.StopsIn Q :=
  fun err c' hc ht he => hs err c' (hc.trans h.committed) (ht.trans h.transactions)
    (he.trans h.effects)

/-- An audit entry about a deal. -/
structure Entry (dealId : UUID) (action : AuditAction) (createdBy : String)
    (oldValue newValue : Option Json) (entry : AuditLogEntry) : Prop where
  entityId : entry.entityId = dealId
  entityType : entry.entityType = .fxDeal
  action : entry.action = action
  oldValue : entry.oldValue = oldValue
  newValue : entry.newValue = newValue
  createdBy : entry.createdBy.val = createdBy

section Rules

variable {α β : Type} {env : Env} {db : Database} {log : List Statement} {sends : List SendCall}
  {c : ServiceProgress} {Q : Except ServiceError β → ServiceProgress → Prop}

theorem ofDb_bind {x : Except DbError α} {f : α → Service β} (ho : Open db log sends c)
    (hs : Stops Q db sends) (h : ∀ a, x = .ok a → (f a).Ensures env c Q) :
    (ofDb x >>= f).Ensures env c Q := by
  refine Program.Ensures.ofExcept_bind (ho.stopsIn hs) fun a ha => h a ?_
  cases x with
  | ok b => cases ha; rfl
  | error err => cases ha

theorem freshId_bind {f : UUID → Service β} (h : ∀ id, (f id).Ensures env c Q) :
    (freshId >>= f).Ensures env c Q :=
  .bind_assoc (.draw_bind fun n => .ask_bind (h (env.uuid n)))

theorem executeAll_bind {statements : List Statement} {f : Unit → Service β}
    (ho : Open db log sends c) (hs : Stops Q db sends)
    (h : ∀ c', Open db (log ++ statements) sends c' → (f ()).Ensures env c' Q) :
    (executeAll statements >>= f).Ensures env c Q := by
  cases statements with
  | nil =>
    exact .pure_bind (h c (by simpa using ho))
  | cons st statements =>
    refine Program.Ensures.execute_bind (ho.stopsIn hs) ho.faithful fun d _ hf => h _ ?_
    exact ⟨ho.committed, ho.transactions, hf, by simp [Progress.executing, ho.log], ho.effects⟩

theorem flush_bind {p : Pending} {f : Unit → Service β} (ho : Open db log sends c)
    (hs : Stops Q db sends) (h : ∀ statements c', p.statements env.now = .ok statements →
      Open db (log ++ statements) sends c' → (f ()).Ensures env c' Q) :
    (flush p >>= f).Ensures env c Q := by
  refine .bind_assoc (.ask_bind (.bind_assoc (ofDb_bind ho hs fun statements hst => ?_)))
  exact executeAll_bind ho hs fun c' ho' => h statements c' hst ho'

theorem getById_bind {id : UUID} {f : FXDeal → Service β} (ho : Open db log sends c)
    (hs : Stops Q db sends) (h : ∀ r, c.work.deals.lookup id = some r →
      (f (FXDeal.ofRecord c.work.nsi id r)).Ensures env c Q) :
    (getById id >>= f).Ensures env c Q := by
  refine .bind_assoc (.query_bind (ho.stopsIn hs) ?_)
  cases hr : c.work.deals.lookup id with
  | none => exact .raise_bind (hs _ c ho.committed ho.transactions ho.effects)
  | some r => exact .pure_bind (h r hr)

theorem lookupCode_bind {f : Unit → Service β} (ho : Open db log sends c) (hs : Stops Q db sends)
    (h : (f ()).Ensures env c Q) : (lookupCode >>= f).Ensures env c Q :=
  .query_bind (ho.stopsIn hs) h

theorem setValidationStatus_bind {deal : FXDeal} {status : ValidationStatus}
    {f : FXDeal → Service β} (ho : Open db log sends c) (hs : Stops Q db sends)
    (h : (f { deal with validationStatus := status }).Ensures env c Q) :
    (setValidationStatus deal status >>= f).Ensures env c Q :=
  .bind_assoc (lookupCode_bind ho hs (.pure_bind h))

theorem setDealState_bind {deal : FXDeal} {state : DealState} {f : FXDeal → Service β}
    (ho : Open db log sends c) (hs : Stops Q db sends)
    (h : (f { deal with dealState := state }).Ensures env c Q) :
    (setDealState deal state >>= f).Ensures env c Q :=
  .bind_assoc (lookupCode_bind ho hs (.pure_bind h))

theorem saveNew_bind {deal : FXDeal} {f : FXDeal → Service β} (ho : Open db log sends c)
    (hs : Stops Q db sends)
    (h : ∀ row c' (stored : FXDeal), FXDealRow.ofDeal env.now deal = .ok row →
      Open db (log ++ [.insertDeal deal.id row]) sends c' →
        (f { deal with
          createdAt := stored.createdAt
          updatedAt := stored.updatedAt
          loadedDealType := stored.loadedDealType
          counterparty := stored.counterparty }).Ensures env c' Q) :
    (saveNew deal >>= f).Ensures env c Q := by
  refine .bind_assoc (.ask_bind (.bind_assoc (ofDb_bind ho hs fun row hrow => ?_)))
  refine .bind_assoc (executeAll_bind ho hs fun c' ho' => ?_)
  exact .bind_assoc (getById_bind ho' hs fun r _ => .pure_bind (h row c' _ hrow ho'))

theorem saveExisting_bind {p : Pending} {f : FXDeal → Service β} (ho : Open db log sends c)
    (hs : Stops Q db sends) (h : ∀ statements c' updatedAt, p.statements env.now = .ok statements →
      Open db (log ++ statements) sends c' →
        (f { p.deal with updatedAt := updatedAt }).Ensures env c' Q) :
    (saveExisting p >>= f).Ensures env c Q := by
  refine .bind_assoc (flush_bind ho hs fun statements c' hst ho' => ?_)
  exact .bind_assoc (getById_bind ho' hs fun r _ => .pure_bind (h statements c' _ hst ho'))

theorem checkPayments_bind {faultAfter : Option ℤ} {index : ℤ} {payments : List Payment}
    {f : Unit → Service β} (ho : Open db log sends c) (hs : Stops Q db sends)
    (h : (f ()).Ensures env c Q) :
    (checkPayments faultAfter index payments >>= f).Ensures env c Q := by
  induction payments generalizing index with
  | nil => exact .pure_bind h
  | cons payment payments ih =>
    refine .bind_assoc ?_
    cases faultAfter with
    | none => exact .pure_bind ih
    | some n =>
      exact .require_bind (ho.stopsIn hs) fun _ => ih

theorem replacePayments_bind {loaded deal : FXDeal} {payments : List Payment}
    {f : FXDeal → Service β} (ho : Open db log sends c) (hs : Stops Q db sends)
    (h : ∀ statements c',
      (⟨loaded, deal, payments, deal.payments.map Payment.id, none⟩ : Pending).statements env.now =
        .ok statements →
      Open db (log ++ statements) sends c' →
        (f { deal with payments := payments }).Ensures env c' Q) :
    (replacePayments loaded deal payments >>= f).Ensures env c Q := by
  refine .bind_assoc (.ask_bind (.bind_assoc (checkPayments_bind ho hs ?_)))
  exact .bind_assoc (flush_bind ho hs fun statements c' hst ho' =>
    .pure_bind (h statements c' hst ho'))

theorem counterpartyExists_bind {id : Option String} {f : Bool → Service β}
    (ho : Open db log sends c) (hs : Stops Q db sends) (h : ∀ b, (f b).Ensures env c Q) :
    (counterpartyExists id >>= f).Ensures env c Q :=
  .query_bind (ho.stopsIn hs) (h _)

theorem appendAudit_bind {p : Pending} {action : AuditAction} {createdBy : String}
    {oldValue newValue : Option Json} {f : Unit → Service β} (ho : Open db log sends c)
    (hs : Stops Q db sends) (h : ∀ statements entry c', p.statements env.now = .ok statements →
      Entry p.deal.id action createdBy oldValue newValue entry →
      Open db (log ++ (statements ++ [.insertAudit entry])) sends c' → (f ()).Ensures env c' Q) :
    (appendAudit p action createdBy oldValue newValue >>= f).Ensures env c Q := by
  refine .bind_assoc (freshId_bind fun id => .bind_assoc (.ask_bind (.bind_assoc ?_)))
  refine ofDb_bind ho hs fun statements hst => .bind_assoc (ofDb_bind ho hs fun by_ hby => ?_)
  refine executeAll_bind ho hs fun c' ho' => h statements _ c' hst ?_ ho'
  exact ⟨rfl, rfl, rfl, rfl, rfl, Varchar.val_of_ofString (storeColumn_eq_ok.mp hby)⟩

theorem commit_bind {f : Unit → Service β} (ho : Open db log sends c) (hs : Stops Q db sends)
    (h : ∀ c', Committed db log sends c' → (f ()).Ensures env c' Q) :
    (Program.commit >>= f).Ensures env c Q := by
  refine Program.Ensures.commit_bind (ho.stopsIn hs) (h _ ?_)
  have hf := ho.faithful
  rw [Progress.Faithful, ho.log, ho.committed] at hf
  exact ⟨by simp [Progress.committing, ho.log, ho.transactions], hf, ho.effects⟩

end Rules

end FxDealManager
