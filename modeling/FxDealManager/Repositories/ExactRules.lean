import FxDealManager.Repositories.Rules
import FxDealManager.Transactional.Exact

/-!
# Exact rules for the repositories

How the operations of the repositories end, with one premise for each way they may fail.

## Main results

* `getById_from`, `flush_from`, `saveExisting_from`, `replacePayments_from`, `appendAudit_from`: the
  rules, one for each operation
-/

namespace FxDealManager

open Transactional

section ExactRules

variable {α β : Type} {env : Env} {c : ServiceProgress} {n : ℕ}
  {Q : Except ServiceError β → ServiceProgress → Prop}

theorem ofDb_from {x : Except DbError α} {f : α → Service β}
    (hfail : ∀ err, x = .error err → Q (.error (.database err)) c)
    (h : ∀ a, x = .ok a → (f a).EnsuresFrom env c n Q) : (ofDb x >>= f).EnsuresFrom env c n Q := by
  cases x with
  | ok a => exact .ofExcept_bind (fun err he => by cases he) fun _ ha => by cases ha; exact h a rfl
  | error err =>
    exact .ofExcept_bind (fun _ he => by cases he; exact hfail err rfl) fun _ ha => by cases ha

theorem freshId_from {f : UUID → Service β} (h : (f (env.uuid n)).EnsuresFrom env c (n + 1) Q) :
    (freshId >>= f).EnsuresFrom env c n Q :=
  .bind_assoc (.draw_bind (.ask_bind h))

theorem executeAll_from {statements : List Statement} {f : Unit → Service β}
    (hrej : c.MayReject env Q)
    (hfail : ∀ err, replay statements c.work = .error err → Q (.error err) c.rolledBack)
    (h : ∀ d, replay statements c.work = .ok d →
      (f ()).EnsuresFrom env (c.executing statements d) n Q) :
    (executeAll statements >>= f).EnsuresFrom env c n Q := by
  cases statements with
  | nil =>
    have hnil := h c.work rfl
    rw [Progress.executing_nil] at hnil
    exact .pure_bind hnil
  | cons st statements => exact .execute_bind hrej hfail h

theorem flush_from {p : Pending} {f : Unit → Service β} (hrej : c.MayReject env Q)
    (hstore : ∀ err, p.statements env.now = .error err → Q (.error (.database err)) c)
    (hfail : ∀ statements err, p.statements env.now = .ok statements →
      replay statements c.work = .error err → Q (.error err) c.rolledBack)
    (h : ∀ statements d, p.statements env.now = .ok statements → replay statements c.work = .ok d →
      (f ()).EnsuresFrom env (c.executing statements d) n Q) :
    (flush p >>= f).EnsuresFrom env c n Q := by
  refine .bind_assoc (.ask_bind (.bind_assoc (ofDb_from hstore fun statements hst => ?_)))
  exact executeAll_from hrej (fun err => hfail statements err hst) fun d => h statements d hst

theorem getById_from {id : UUID} {f : FXDeal → Service β} (hrej : c.MayReject env Q)
    (hnone : c.work.deals.lookup id = none → Q (.error (.dealNotFound id)) c)
    (h : ∀ r, c.work.deals.lookup id = some r →
      (f (FXDeal.ofRecord c.work.nsi id r)).EnsuresFrom env c n Q) :
    (getById id >>= f).EnsuresFrom env c n Q := by
  refine .bind_assoc (.query_bind hrej ?_)
  cases hr : c.work.deals.lookup id with
  | none => exact .raise_bind (hnone hr)
  | some r => exact .pure_bind (h r hr)

theorem lookupCode_from {f : Unit → Service β} (hrej : c.MayReject env Q)
    (h : (f ()).EnsuresFrom env c n Q) : (lookupCode >>= f).EnsuresFrom env c n Q :=
  .query_bind hrej h

theorem setValidationStatus_from {deal : FXDeal} {status : ValidationStatus}
    {f : FXDeal → Service β} (hrej : c.MayReject env Q)
    (h : (f { deal with validationStatus := status }).EnsuresFrom env c n Q) :
    (setValidationStatus deal status >>= f).EnsuresFrom env c n Q :=
  .bind_assoc (lookupCode_from hrej (.pure_bind h))

theorem setDealState_from {deal : FXDeal} {state : DealState} {f : FXDeal → Service β}
    (hrej : c.MayReject env Q) (h : (f { deal with dealState := state }).EnsuresFrom env c n Q) :
    (setDealState deal state >>= f).EnsuresFrom env c n Q :=
  .bind_assoc (lookupCode_from hrej (.pure_bind h))

/-- Saving a deal after a flush that wrote what was pending: the time of the update is the stored
one. -/
theorem saveExisting_from {p : Pending} {f : FXDeal → Service β} (hrej : c.MayReject env Q)
    (hstore : ∀ err, p.statements env.now = .error err → Q (.error (.database err)) c)
    (hfail : ∀ statements err, p.statements env.now = .ok statements →
      replay statements c.work = .error err → Q (.error err) c.rolledBack)
    (hfound : (c.work.deals.lookup p.deal.id).isSome)
    (h : ∀ statements d r, p.statements env.now = .ok statements →
      replay statements c.work = .ok d → d.deals.lookup p.deal.id = some r →
        (f { p.deal with updatedAt := r.row.updatedAt }).EnsuresFrom env
          (c.executing statements d) n Q) :
    (saveExisting p >>= f).EnsuresFrom env c n Q := by
  refine .bind_assoc (flush_from hrej hstore hfail fun statements d hst hd => ?_)
  refine .bind_assoc (getById_from hrej (fun hnone => ?_) fun r hr => ?_)
  swap
  · exact .pure_bind (h _ d r hst hd hr)
  have hsome : (rewrite p.deal.id statements (c.work.deals.lookup p.deal.id)).isSome :=
    rewrite_isSome hfound
  rw [← replay_lookup hd] at hsome
  rw [show d.deals.lookup p.deal.id = none from hnone] at hsome
  cases hsome

theorem checkPayments_from {faultAfter : Option ℤ} {index : ℤ} {payments : List Payment}
    {f : Unit → Service β}
    (hfault : faultAfter ≠ none → ∀ k, Q (.error (.paymentSaveFault k)) c)
    (h : (f ()).EnsuresFrom env c n Q) :
    (checkPayments faultAfter index payments >>= f).EnsuresFrom env c n Q := by
  induction payments generalizing index with
  | nil => exact .pure_bind h
  | cons payment payments ih =>
    refine .bind_assoc ?_
    cases faultAfter with
    | none => exact .pure_bind ih
    | some k => exact .require_bind (fun _ => hfault (Option.some_ne_none k) k) fun _ => ih

theorem replacePayments_from {loaded deal : FXDeal} {payments : List Payment}
    {f : FXDeal → Service β} (hrej : c.MayReject env Q)
    (hfault : env.settings.paymentSaveFaultAfter ≠ none →
      ∀ k, Q (.error (.paymentSaveFault k)) c)
    (hstore : ∀ err, (⟨loaded, deal, payments, deal.payments.map Payment.id, none⟩ :
      Pending).statements env.now = .error err → Q (.error (.database err)) c)
    (hfail : ∀ statements err, (⟨loaded, deal, payments, deal.payments.map Payment.id, none⟩ :
      Pending).statements env.now = .ok statements → replay statements c.work = .error err →
        Q (.error err) c.rolledBack)
    (h : ∀ statements d, (⟨loaded, deal, payments, deal.payments.map Payment.id, none⟩ :
      Pending).statements env.now = .ok statements → replay statements c.work = .ok d →
        (f { deal with payments := payments }).EnsuresFrom env (c.executing statements d) n Q) :
    (replacePayments loaded deal payments >>= f).EnsuresFrom env c n Q := by
  refine .bind_assoc (.ask_bind (.bind_assoc (checkPayments_from hfault ?_)))
  exact .bind_assoc (flush_from hrej hstore hfail fun statements d hst hd =>
    .pure_bind (h statements d hst hd))

/-- Without new payments, none of them is checked. -/
theorem replacePayments_none_from {loaded deal : FXDeal} {f : FXDeal → Service β}
    (hrej : c.MayReject env Q)
    (hstore : ∀ err, (⟨loaded, deal, [], deal.payments.map Payment.id, none⟩ :
      Pending).statements env.now = .error err → Q (.error (.database err)) c)
    (hfail : ∀ statements err, (⟨loaded, deal, [], deal.payments.map Payment.id, none⟩ :
      Pending).statements env.now = .ok statements → replay statements c.work = .error err →
        Q (.error err) c.rolledBack)
    (h : ∀ statements d, (⟨loaded, deal, [], deal.payments.map Payment.id, none⟩ :
      Pending).statements env.now = .ok statements → replay statements c.work = .ok d →
        (f { deal with payments := [] }).EnsuresFrom env (c.executing statements d) n Q) :
    (replacePayments loaded deal [] >>= f).EnsuresFrom env c n Q := by
  refine .bind_assoc (.ask_bind (.bind_assoc (.pure_bind ?_)))
  exact .bind_assoc (flush_from hrej hstore hfail fun statements d hst hd =>
    .pure_bind (h statements d hst hd))

theorem appendAudit_from {p : Pending} {action : AuditAction} {createdBy : String}
    {oldValue newValue : Option Json} {f : Unit → Service β} (hrej : c.MayReject env Q)
    (hstore : ∀ err, p.statements env.now = .error err → Q (.error (.database err)) c)
    (hlong : ¬ createdBy.length ≤ 320 → Q (.error (.database (.stringTooLong "created_by"))) c)
    (hfail : ∀ statements entry err, p.statements env.now = .ok statements →
      entry.id = env.uuid n →
      replay (statements ++ [.insertAudit entry]) c.work = .error err → Q (.error err) c.rolledBack)
    (h : ∀ statements entry d, p.statements env.now = .ok statements → entry.id = env.uuid n →
      Entry p.deal.id action createdBy oldValue newValue entry →
      replay (statements ++ [.insertAudit entry]) c.work = .ok d →
        (f ()).EnsuresFrom env (c.executing (statements ++ [.insertAudit entry]) d) (n + 1) Q) :
    (appendAudit p action createdBy oldValue newValue >>= f).EnsuresFrom env c n Q := by
  refine .bind_assoc (freshId_from (.bind_assoc (.ask_bind (.bind_assoc ?_))))
  refine ofDb_from hstore fun statements hst => .bind_assoc (ofDb_from (fun err herr => ?_)
    fun by_ hby => ?_)
  · obtain ⟨hfits, rfl⟩ := too_long_of_storeColumn herr
    exact hlong hfits
  · have hval := Varchar.val_of_ofString (storeColumn_eq_ok.mp hby)
    exact executeAll_from hrej (fun err => hfail statements _ err hst rfl) fun d =>
      h statements _ d hst rfl ⟨rfl, rfl, rfl, rfl, rfl, hval⟩

end ExactRules

end FxDealManager
