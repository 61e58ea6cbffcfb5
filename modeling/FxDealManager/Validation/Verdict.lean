import FxDealManager.Api.Requests
import FxDealManager.Repositories.ExactRules

/-!
# The verdict of a validation

What a validation says about a deal is a function of the reference data and of the deal, without
a session, a user or circumstances: whether the deal is found invalid, whether it is refused
without a record, whether the calculation fails, or with which value date and payments it is valid.
The validation does what its verdict says.

## Main definitions

* `settlement`: the settlement step of a validation, a function of the reference data
* `Verdict`, `verdict`: what a validation says about a deal
* `Judged`: how a verdict comes about
* `builtFrom`: the payment objects of a validation

## Main results

* `verdict_judged`: every verdict is owed to a step of the validation
* `settle_from`: the settlement step of the service is `settlement`
* `validateDeal_from`: a validation ends as its verdict says
-/

namespace FxDealManager

open DecimalArithmetic Transactional

/-! ## The verdict -/

/-- The value date of a deal, by the calendar of the 31 days from the trade date on. -/
def settlement (nsi : ReferenceData) (deal : FXDeal) : Except SettlementError Date :=
  match deal.tradeDate.addDays 30 with
  | none => .error .overflowError
  | some last =>
    match nsi.loadCalendar deal.tradeDate last with
    | none => .error .overflowError
    | some calendar =>
      calculateValueDate deal.tradeDate deal.loadedDealType calendar deal.valueDate

/-- How the calculations of a validation leave their range. -/
inductive CalculationError where
  | overflowError
  | invalidOperation
deriving DecidableEq, Repr

/-- The exception of the service. -/
def CalculationError.raised : CalculationError → ServiceError
  | .overflowError => .overflowError
  | .invalidOperation => .invalidOperation

/-- What a validation says about a deal. -/
inductive Verdict where
  /-- The deal is invalid, which is recorded. -/
  | invalid (issues : List ValidationIssue)
  /-- There is no value date, and nothing is recorded. -/
  | refused (text : String)
  /-- The calculation leaves the range of its numbers or dates. -/
  | failed (err : CalculationError)
  /-- The deal is valid, with a value date and payments. -/
  | valid (valueDate : Date) (assigned : List (CalculatedPayment × String))
deriving DecidableEq

/-- The accounts of the payments, the last step of a verdict. -/
def accountsVerdict (nsi : ReferenceData) (deal : FXDeal) (valueDate : Date) : Verdict :=
  match calculatePayments deal valueDate with
  | none => .failed .invalidOperation
  | some calculated =>
    let (assigned, issues) := assignNostro nsi.nostroByCurrency calculated
    if issues = [] then .valid valueDate assigned else .invalid issues

/-- The verdict of a validation. -/
def verdict (nsi : ReferenceData) (deal : FXDeal) : Verdict :=
  let issues := validate deal (nsi.counterparty? deal.counterpartyId) nsi.currency?
  if issues ≠ [] then .invalid issues
  else
    match checkLimits (nsi.activeLimits deal.counterpartyId) deal with
    | none => .failed .invalidOperation
    | some (issue :: issues) => .invalid (issue :: issues)
    | some [] =>
      match settlement nsi deal with
      | .error (.valueError text) => .refused text
      | .error .overflowError => .failed .overflowError
      | .ok valueDate => accountsVerdict nsi deal valueDate

theorem verdict_of_issues {nsi : ReferenceData} {deal : FXDeal}
    (h : validate deal (nsi.counterparty? deal.counterpartyId) nsi.currency? ≠ []) :
    verdict nsi deal =
      .invalid (validate deal (nsi.counterparty? deal.counterpartyId) nsi.currency?) :=
  if_pos h

/-- Without complaints of the format checks, the limits are next. -/
theorem verdict_of_checked {nsi : ReferenceData} {deal : FXDeal}
    (h : validate deal (nsi.counterparty? deal.counterpartyId) nsi.currency? = []) :
    verdict nsi deal =
      match checkLimits (nsi.activeLimits deal.counterpartyId) deal with
      | none => .failed .invalidOperation
      | some (issue :: issues) => .invalid (issue :: issues)
      | some [] =>
        match settlement nsi deal with
        | .error (.valueError text) => .refused text
        | .error .overflowError => .failed .overflowError
        | .ok valueDate => accountsVerdict nsi deal valueDate :=
  if_neg (not_not.mpr h)

/-- How a verdict comes about: the step of the validation that it is owed to. -/
inductive Judged (nsi : ReferenceData) (deal : FXDeal) : Verdict → Prop
  | malformed
      (hissues : validate deal (nsi.counterparty? deal.counterpartyId) nsi.currency? ≠ []) :
      Judged nsi deal
        (.invalid (validate deal (nsi.counterparty? deal.counterpartyId) nsi.currency?))
  | unpriced (hlimits : checkLimits (nsi.activeLimits deal.counterpartyId) deal = none) :
      Judged nsi deal (.failed .invalidOperation)
  | exceeding {issues : List ValidationIssue}
      (hlimits : checkLimits (nsi.activeLimits deal.counterpartyId) deal = some issues)
      (hne : issues ≠ []) : Judged nsi deal (.invalid issues)
  | unsettled {text : String}
      (hissues : validate deal (nsi.counterparty? deal.counterpartyId) nsi.currency? = [])
      (hlimits : checkLimits (nsi.activeLimits deal.counterpartyId) deal = some [])
      (hsettlement : settlement nsi deal = .error (.valueError text)) :
      Judged nsi deal (.refused text)
  | overflowing (hsettlement : settlement nsi deal = .error .overflowError) :
      Judged nsi deal (.failed .overflowError)
  | uncounted {valueDate : Date} (hcalc : calculatePayments deal valueDate = none) :
      Judged nsi deal (.failed .invalidOperation)
  | unaccounted {valueDate : Date} {calculated : List CalculatedPayment}
      (hsettlement : settlement nsi deal = .ok valueDate)
      (hcalc : calculatePayments deal valueDate = some calculated)
      (hnostro : (assignNostro nsi.nostroByCurrency calculated).2 ≠ []) :
      Judged nsi deal (.invalid (assignNostro nsi.nostroByCurrency calculated).2)
  | valid {valueDate : Date} {calculated : List CalculatedPayment}
      (hissues : validate deal (nsi.counterparty? deal.counterpartyId) nsi.currency? = [])
      (hlimits : checkLimits (nsi.activeLimits deal.counterpartyId) deal = some [])
      (hsettlement : settlement nsi deal = .ok valueDate)
      (hcalc : calculatePayments deal valueDate = some calculated)
      (hnostro : (assignNostro nsi.nostroByCurrency calculated).2 = []) :
      Judged nsi deal (.valid valueDate (assignNostro nsi.nostroByCurrency calculated).1)

/-- **Every verdict** is owed to one of the steps. -/
theorem verdict_judged (nsi : ReferenceData) (deal : FXDeal) :
    Judged nsi deal (verdict nsi deal) := by
  by_cases hissues : validate deal (nsi.counterparty? deal.counterpartyId) nsi.currency? = []
  swap
  · rw [verdict_of_issues hissues]
    exact .malformed hissues
  rw [verdict_of_checked hissues]
  split
  next hlimits => exact .unpriced hlimits
  next hlimits => exact .exceeding hlimits (List.cons_ne_nil _ _)
  next hlimits =>
    split
    next hsettlement => exact .unsettled hissues hlimits hsettlement
    next hsettlement => exact .overflowing hsettlement
    next valueDate hsettlement =>
      cases hcalc : calculatePayments deal valueDate with
      | none => simpa only [accountsVerdict, hcalc] using .uncounted hcalc
      | some calculated =>
        simp only [accountsVerdict, hcalc]
        split
        next hnostro => exact .valid hissues hlimits hsettlement hcalc hnostro
        next hnostro => exact .unaccounted hsettlement hcalc hnostro

/-- The payment objects of calculated payments and their accounts, with fresh identifiers from the
`n`-th on. -/
def builtFrom (uuid : ℕ → UUID) : ℕ → List (CalculatedPayment × String) → List Payment
  | _, [] => []
  | n, (calculated, account) :: assigned =>
    ⟨uuid n, calculated.amount, calculated.currencyCode, some account,
      calculated.paymentDirection, some calculated.valueDate⟩ :: builtFrom uuid (n + 1) assigned

/-! ## The service follows it -/

section Service

variable {β : Type} {env : Env} {user : UserClaims} {db : Database} {c : ServiceProgress} {n : ℕ}
  {Q : Except ServiceError β → ServiceProgress → Prop}

theorem limitIssues_from {nsi : ReferenceData} {deal : FXDeal}
    {f : List ValidationIssue → Service β} (hnsi : c.work.nsi = nsi) (hrej : c.MayReject env Q)
    (hfail : checkLimits (nsi.activeLimits deal.counterpartyId) deal = none →
      Q (.error .invalidOperation) c)
    (h : ∀ issues, checkLimits (nsi.activeLimits deal.counterpartyId) deal = some issues →
      (f issues).EnsuresFrom env c n Q) : (limitIssues deal >>= f).EnsuresFrom env c n Q := by
  subst hnsi
  refine .bind_assoc (.query_bind hrej ?_)
  exact .ofOption_bind hfail h

/-- **The settlement step** computes what the reference data says. -/
theorem settle_from {nsi : ReferenceData} {deal : FXDeal} {f : Date → Service β}
    (hnsi : c.work.nsi = nsi) (hrej : c.MayReject env Q)
    (hrefused : ∀ text, settlement nsi deal = .error (.valueError text) →
      Q (.error (.validationFailed [⟨"value_date", text⟩])) c)
    (hoverflow : settlement nsi deal = .error .overflowError → Q (.error .overflowError) c)
    (h : ∀ valueDate, settlement nsi deal = .ok valueDate →
      (f valueDate).EnsuresFrom env c n Q) : (settle deal >>= f).EnsuresFrom env c n Q := by
  subst hnsi
  simp only [settle]
  simp only [settlement] at hrefused hoverflow h
  cases hlast : deal.tradeDate.addDays 30 with
  | none => exact .raise_bind (hoverflow (by rw [hlast]))
  | some last =>
    refine .bind_assoc (.query_bind hrej ?_)
    simp only [hlast] at hrefused hoverflow h
    cases hcalendar : c.work.nsi.loadCalendar deal.tradeDate last with
    | none => exact .raise_bind (hoverflow (by rw [hcalendar]))
    | some calendar =>
      simp only [hcalendar] at hrefused hoverflow h ⊢
      cases hdate : calculateValueDate deal.tradeDate deal.loadedDealType calendar
          deal.valueDate with
      | ok valueDate => exact .pure_bind (h valueDate hdate)
      | error err =>
        cases err with
        | valueError text => exact .raise_bind (hrefused text hdate)
        | overflowError => exact .raise_bind (hoverflow hdate)

theorem buildPayments_from {assigned : List (CalculatedPayment × String)}
    {f : List Payment → Service β} (hrej : c.MayReject env Q)
    (h : (f (builtFrom env.uuid n assigned)).EnsuresFrom env c (n + assigned.length) Q) :
    (buildPayments assigned >>= f).EnsuresFrom env c n Q := by
  induction assigned generalizing f n with
  | nil => exact .pure_bind h
  | cons a assigned ih =>
    refine .bind_assoc (lookupCode_from hrej (.bind_assoc (freshId_from (.bind_assoc ?_))))
    refine ih (.pure_bind ?_)
    rw [Nat.add_right_comm]
    exact h

end Service

theorem loadDeal_from {β : Type} {env : Env} {db : Database} {n : ℕ} {id : UUID}
    {Q : Except ServiceError β → ServiceProgress → Prop} {f : FXDeal → Service β}
    (hrej : (Progress.start db).MayReject env Q)
    (hnone : db.deals.lookup id = none →
      Q (.error (.http 404 "Deal not found")) (Progress.start db))
    (h : ∀ r, db.deals.lookup id = some r →
      (f (FXDeal.ofRecord db.nsi id r)).EnsuresFrom env (Progress.start db) n Q) :
    (loadDeal id >>= f).EnsuresFrom env (Progress.start db) n Q := by
  intro s hs hn
  have hwork : s.work = db := by rw [hs]; rfl
  by_cases hr : rejects env s.calls = true
  · have hload : loadDeal id env s =
        (.error (Store.rejected Statement), { s with
          calls := s.calls + 1
          toProgress := s.rolledBack }) := by
      simp [loadDeal, getById, Program.handle, Program.query, Program.call, Bind.bind, hr,
        Store.rejected, Program.raise]
    simpa [Bind.bind, hload, hs] using hrej ⟨s.calls, hr⟩
  · cases hlookup : db.deals.lookup id with
    | none =>
      have hload : loadDeal id env s =
          (.error (.http 404 "Deal not found"), { s with calls := s.calls + 1 }) := by
        simp [loadDeal, getById, Program.handle, Program.query, Program.call, Bind.bind, hr, hwork,
          hlookup, Program.raise]
      simpa [Bind.bind, hload, hs] using hnone hlookup
    | some r =>
      have hload : loadDeal id env s =
          (.ok (FXDeal.ofRecord db.nsi id r), { s with calls := s.calls + 1 }) := by
        simp [loadDeal, getById, Program.handle, Program.query, Program.call, Bind.bind, hr, hwork,
          hlookup, Pure.pure]
      simpa [Bind.bind, hload] using h r hlookup { s with calls := s.calls + 1 } hs hn

/-- A stored deal is loaded. -/
theorem loadDeal_found_from {β : Type} {env : Env} {db : Database} {n : ℕ} {id : UUID}
    {r : DealRecord} {Q : Except ServiceError β → ServiceProgress → Prop}
    {f : FXDeal → Service β} (hr : db.deals.lookup id = some r)
    (hrej : (Progress.start db).MayReject env Q)
    (h : (f (FXDeal.ofRecord db.nsi id r)).EnsuresFrom env (Progress.start db) n Q) :
    (loadDeal id >>= f).EnsuresFrom env (Progress.start db) n Q := by
  refine loadDeal_from hrej (fun hnone => ?_) fun r' hr' => ?_
  · rw [hr] at hnone
    cases hnone
  · rw [hr] at hr'
    cases hr'
    exact h

section Validation

variable {env : Env} {user : UserClaims} {db : Database}
  {Q : Except ServiceError DealResponse → ServiceProgress → Prop}

/-- **A validation ends as its verdict says**, whatever the circumstances. -/
theorem validateDeal_from {id : UUID} {r : DealRecord} (hr : db.deals.lookup id = some r)
    (huser : r.row.traderId.val = user.userId ∨ user.role = .admin)
    (hrej : (Progress.start db).MayReject env Q)
    (hfailed : ∀ err, verdict db.nsi (FXDeal.ofRecord db.nsi id r) = .failed err →
      Q (.error err.raised) (Progress.start db))
    (hrefused : ∀ text, verdict db.nsi (FXDeal.ofRecord db.nsi id r) = .refused text →
      Q (.error (.validationFailed [⟨"value_date", text⟩])) (Progress.start db))
    (hinvalid : ∀ issues, verdict db.nsi (FXDeal.ofRecord db.nsi id r) = .invalid issues →
      (commitInvalid (FXDeal.ofRecord db.nsi id r) user issues).EnsuresFrom env
        (Progress.start db) 0 Q)
    (hvalid : ∀ valueDate assigned,
      verdict db.nsi (FXDeal.ofRecord db.nsi id r) = .valid valueDate assigned →
      (Program.handle (saveValidated (FXDeal.ofRecord db.nsi id r) valueDate
          (builtFrom env.uuid 0 assigned) user) fun err => do
        Program.rollback
        Program.raise (saveFailure err)).EnsuresFrom env (Progress.start db)
          (0 + assigned.length) Q) :
    (validateDeal id user).EnsuresFrom env (Progress.start db) 0 Q := by
  refine loadDeal_found_from hr hrej (.require_bind (fun hnot => absurd huser hnot) fun _ => ?_)
  refine .query_bind hrej (.query_bind hrej ?_)
  rw [Progress.start_work]
  generalize FXDeal.ofRecord db.nsi id r = deal at hfailed hrefused hinvalid hvalid ⊢
  dsimp only
  split
  next hissues => exact hinvalid _ (verdict_of_issues hissues)
  -- the checks have passed, and what is left of the verdict is what is left of the validation
  next hissues =>
    have hverdict := verdict_of_checked (not_not.mp hissues)
    refine limitIssues_from rfl hrej (fun hl => hfailed .invalidOperation ?_) fun issues hl => ?_
    · rw [hverdict, show checkLimits (db.nsi.activeLimits _) _ = none from hl]
    rw [show checkLimits (db.nsi.activeLimits _) _ = some issues from hl] at hverdict
    cases issues with
    | cons issue issues => exact hinvalid _ hverdict
    | nil =>
      rw [if_neg (not_not.mpr rfl)]
      have hnsi : (Progress.start db : ServiceProgress).work.nsi = db.nsi := rfl
      refine settle_from hnsi hrej (fun text hs => hrefused _ ?_)
        (fun hs => hfailed .overflowError ?_) fun valueDate hs => ?_
      · rw [hverdict, hs]
      · rw [hverdict, hs]
      rw [hs] at hverdict
      refine .ofOption_bind (fun hcalc => ?_) fun calculated hcalc => ?_
      · exact hfailed .invalidOperation (by rw [hverdict]; simp [accountsVerdict, hcalc])
      refine .query_bind hrej ?_
      rw [Progress.start_work]
      split
      next hnostro => exact hinvalid _ (by rw [hverdict]; simp [accountsVerdict, hcalc, hnostro])
      next hnostro =>
        refine buildPayments_from hrej (hvalid valueDate _ ?_)
        rw [hverdict]
        simp [accountsVerdict, hcalc, not_not.mp hnostro]

end Validation

end FxDealManager
