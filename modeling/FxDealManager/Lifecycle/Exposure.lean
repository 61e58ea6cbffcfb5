import FxDealManager.Api.Positions
import FxDealManager.Validation.Recording

/-!
# Open exposure and validation

The payments of a deal are written by a successful validation and taken out by an edit. A failed
validation, and a submission that fails for the limits, mark the deal as invalid and leave its
payments behind, so that they still count as open exposure. In every run without such a failure
of a deal that has payments, the open exposure is that of valid deals.

## Main definitions

* `leavesPayments`: the input finds a deal invalid that has payments
* `validPayments`: the payments of the open deals that are valid

## Main results

* `submit_limits`: a submission complains about the limits only
* `paymentsValid_step`: every other input keeps payments to valid deals
* `exposure_valid`: the open exposure is that of valid deals, in every run without such an input
* `invalid_exposed`: a run in which the payments of an invalid deal are open exposure
-/

namespace FxDealManager

open DecimalArithmetic Transactional

/-! ## What a submission complains about -/

section Submission

variable {env : Env} {user : UserClaims} {db : Database} {id : UUID}

/-- The postcondition of a program that complains about nothing. -/
def Uncomplaining (result : Except ServiceError DealResponse) (_ : ServiceProgress) : Prop :=
  ∀ issues, result ≠ .error (.validationFailed issues)

theorem uncomplaining_replay {log : List Statement} {err : ServiceError}
    (h : replay log db = .error err) (c : ServiceProgress) : Uncomplaining (.error err) c := by
  obtain ⟨e, rfl⟩ := replay_error h
  exact nofun

/-- A change of the state complains about nothing. -/
theorem changeState_complains {p : Pending} {old : DealState} {newValue : Json} {n : ℕ}
    (hfound : (db.deals.lookup p.deal.id).isSome) :
    (changeState p old newValue user).EnsuresFrom env (Progress.start db) n Uncomplaining := by
  have hrej : ∀ c : ServiceProgress, c.MayReject env Uncomplaining := fun _ _ => nofun
  refine saveExisting_from (hrej _) (fun _ _ => nofun) (fun _ _ _ h => uncomplaining_replay h _)
    hfound fun statements d r _ _ _ => ?_
  refine appendAudit_from (hrej _) (fun _ _ => nofun) (fun _ => nofun)
    (fun _ _ _ _ _ h => uncomplaining_replay h _) fun statements' entry d' _ _ _ _ => ?_
  exact .commit_bind (hrej _) (.pure nofun)

/-- A submission complains about the limits only. -/
theorem submit_limits {r : DealRecord} {issues : List ValidationIssue}
    (hr : db.deals.lookup id = some r)
    (h : (execute env user (.submit id) db).result = .error (.validationFailed issues)) :
    checkLimits (db.nsi.activeLimits r.row.counterpartyId.val) (FXDeal.ofRecord db.nsi id r) =
        some issues ∧ issues ≠ [] := by
  let Q : Except ServiceError DealResponse → ServiceProgress → Prop := fun result _ =>
    ∀ issues, result = .error (.validationFailed issues) →
      checkLimits (db.nsi.activeLimits r.row.counterpartyId.val) (FXDeal.ofRecord db.nsi id r) =
        some issues ∧ issues ≠ []
  have hrej : ∀ c : ServiceProgress, c.MayReject env Q := fun _ _ => nofun
  suffices hsubmit : (serve (.submit id) user).EnsuresFrom env (Progress.start db) 0 Q from
    hsubmit.run issues h
  refine .require_bind (fun _ => nofun) fun _ => ?_
  refine loadDeal_found_from hr (hrej _) (.require_bind (fun _ => nofun) fun _ => ?_)
  refine .require_bind (fun _ => nofun) fun _ => ?_
  refine .require_bind (fun _ => nofun) fun _ => ?_
  have hnsi : (Progress.start db : ServiceProgress).work.nsi = db.nsi := rfl
  refine limitIssues_from hnsi (hrej _) (fun _ => nofun) fun found hfound => ?_
  split
  · refine commitInvalid_answers.mono fun result c hanswers issues' hissues => ?_
    subst hissues
    rcases hanswers with ⟨heq, -⟩ | ⟨_, heq, -⟩
    · cases heq
      exact ⟨hfound, ‹_›⟩
    · cases heq
  · refine setDealState_from (hrej _) ?_
    exact (changeState_complains (Option.isSome_of_eq_some hr)).mono
      fun result c hnone issues' hissues => absurd hissues (hnone issues')

end Submission

/-! ## Failures that leave payments behind -/

/-- The deal fails a check that a validation records: of its format, of its limits, or of the
accounts for its payments. -/
def failsCheck (nsi : ReferenceData) (deal : FXDeal) : Bool :=
  validate deal (nsi.counterparty? deal.counterpartyId) nsi.currency? ≠ [] ||
    (checkLimits (nsi.activeLimits deal.counterpartyId) deal).any (· ≠ []) ||
      match settlement nsi deal with
      | .error _ => false
      | .ok valueDate => (calculatePayments deal valueDate).any fun calculated =>
        (assignNostro nsi.nostroByCurrency calculated).2 ≠ []

/-- A deal that is found invalid fails a check. -/
theorem failsCheck_of_invalid {nsi : ReferenceData} {deal : FXDeal} {issues : List ValidationIssue}
    (h : verdict nsi deal = .invalid issues) : failsCheck nsi deal = true := by
  have hjudged := verdict_judged nsi deal
  rw [h] at hjudged
  cases hjudged with
  | malformed hissues => simp [failsCheck, hissues]
  | exceeding hlimits hne => simp [failsCheck, hlimits, hne]
  | unaccounted hsettlement hcalc hnostro => simp [failsCheck, hsettlement, hcalc, hnostro]

/-- The input finds a deal invalid that has payments: it is a validation of a deal that fails a
check, or a submission of a valid draft that exceeds its limits, by a user whom the route and the
service admit. -/
def leavesPayments (db : Database) : Input → Bool
  | .request _ user (.validate id) =>
    user.role ∈ (Operation.validate id).roles && (db.deals.lookup id).any fun r =>
      Entitled user r.row && !r.payments.isEmpty && failsCheck db.nsi (FXDeal.ofRecord db.nsi id r)
  | .request _ user (.submit id) =>
    user.role ∈ (Operation.submit id).roles && (db.deals.lookup id).any fun r =>
      Entitled user r.row && !r.payments.isEmpty && r.row.dealState = .draft &&
        r.row.validationStatus = .valid &&
          (checkLimits (db.nsi.activeLimits r.row.counterpartyId.val)
            (FXDeal.ofRecord db.nsi id r)).any (· ≠ [])
  | _ => false

/-- Only a valid deal has payments. -/
def PaymentsValid (r : DealRecord) : Prop := r.row.validationStatus ≠ .valid → r.payments = []

/-- A request that committed nothing has left the data alone. -/
theorem database_of_transactions {env : Env} {user : UserClaims} {op : Operation} {db : Database}
    (h : (execute env user op db).transactions = []) : (execute env user op db).database = db := by
  cases execute_ends env user op db with
  | stopped _ hdb _ _ => exact hdb
  | exited _ _ htransactions _ => rw [h] at htransactions; cases htransactions

/-- A deal that an input finds invalid has no payments, unless the input leaves them behind. -/
theorem payments_of_rejects {env : Env} {user : UserClaims} {op : Operation} {db : Database}
    {id : UUID} {r : DealRecord} {issues : List ValidationIssue}
    (hinput : leavesPayments db (.request env user op) = false) (hrole : user.role ∈ op.roles)
    (hr : db.deals.lookup id = some r) (hrejects : Rejects id r.row op)
    (huser : Entitled user r.row)
    (hresult : (execute env user op db).result = .error (.validationFailed issues)) :
    r.payments = [] ∨ (execute env user op db).database = db := by
  cases hrejects with
  | validate =>
    have hanswers : (execute env user (.validate id) db).Answers _ :=
      execute_answers hr hrole huser
    rw [Outcome.Answers, hresult] at hanswers
    rcases hanswers with ⟨hinvalid, -⟩ | ⟨_, -, -, hnone⟩
    · have hfails := failsCheck_of_invalid hinvalid
      refine .inl (by_contra fun hpayments => ?_)
      simp [leavesPayments, hrole, hr, huser, hfails, hpayments] at hinput
    · exact .inr (database_of_transactions hnone)
  | submit hstate hvalid =>
    obtain ⟨hlimits, hissues⟩ := submit_limits hr hresult
    refine .inl (by_contra fun hpayments => ?_)
    simp [leavesPayments, hrole, hr, huser, hstate, hvalid, hlimits, hpayments, hissues] at hinput

theorem paymentsValid_step {db : Database} {input : Input}
    (hinput : leavesPayments db input = false)
    (hP : ∀ id r, db.deals.lookup id = some r → PaymentsValid r) :
    ∀ id r, (step db input).2.deals.lookup id = some r → PaymentsValid r := by
  refine forall_deals_turn (P := fun _ r _ => PaymentsValid r) ?_ ?_ fun id r hr _ => hP id r hr
  · intro env user payload id row entry _ _ _ _ _
    exact fun _ => rfl
  · intro env user op id outcome after result r r' added hop hstep hresult hr' hrole hr hchange
    subst hop
    obtain ⟨rfl, rfl⟩ : execute env user op db = outcome ∧
        (execute env user op db).database = after := by simpa [step] using hstep
    have hvalid := hP id r hr
    cases hchange with
    | edited _ _ _ _ =>
      intro _
      exact List.filter_eq_nil_iff.mpr fun p hp => by simpa using ⟨p, hp, rfl⟩
    | invalidated hrejects huser _ _ =>
      rcases payments_of_rejects hinput hrole hr hrejects huser hresult with hnone | hdb
      · exact fun _ => hnone
      · rw [hdb, hr] at hr'
        exact Option.some.inj hr' ▸ hvalid
    | validated _ _ _ _ _ => simp [PaymentsValid]
    | moved _ _ _ => exact hvalid
    | decided _ _ => exact hvalid

/-- The payments of the open deals that are valid. -/
def validPayments (db : Database) : List PaymentRow :=
  db.deals.entries.flatMap fun e =>
    if e.2.row.dealState.open ∧ e.2.row.validationStatus = .valid then e.2.payments else []

/-- If only valid deals have payments, the open exposure is that of valid deals. -/
theorem openPayments_eq_valid {db : Database}
    (h : ∀ id r, db.deals.lookup id = some r → PaymentsValid r) :
    openPayments db = validPayments db := by
  refine List.flatMap_congr fun e he => ?_
  have hvalid := h e.1 e.2 (AList.mem_lookup_iff.mpr he)
  by_cases hstatus : e.2.row.validationStatus = .valid
  · simp [hstatus]
  · simp [hvalid hstatus]

/-- **Open exposure counts valid deals only**, in every run in which no deal with payments is found
invalid. -/
theorem exposure_valid {nsi : ReferenceData} {history : List ServiceTurn} {db : Database}
    (h : Run step (Database.initial nsi) history db)
    (hinputs : ∀ t ∈ history, leavesPayments t.before t.input = false) :
    (∀ id r, db.deals.lookup id = some r → r.row.validationStatus ≠ .valid → r.payments = []) ∧
      openExposureByCurrency db = exposureOf (validPayments db) := by
  have hP := Run.invariant_of (P := fun _ db => ∀ id r, db.deals.lookup id = some r →
    PaymentsValid r) (fun id r hr => by simp at hr) (fun _ _ _ hinput hP =>
      paymentsValid_step hinput hP) h hinputs
  exact ⟨hP, by rw [openExposureByCurrency, openPayments_eq_valid hP]⟩

/-- The open exposure of the desk after a validation. -/
theorem exposure_valid_desk :
    openExposureByCurrency (Desk.after Desk.validation) =
        exposureOf (validPayments (Desk.after Desk.validation)) ∧
      validPayments (Desk.after Desk.validation) ≠ [] :=
  ⟨(exposure_valid (run_serveAll step (Database.initial Desk.nsi) Desk.validation)
    (by decide +kernel)).2, by decide +kernel⟩

namespace Desk

/-- The reference data once the counterparty has become inactive. -/
def inactiveNsi : ReferenceData :=
  { nsi with
    counterparties := [{ bank with isActive := false }]
    counterparty_key := by decide }

/-- A validated deal is validated again once its counterparty is inactive. -/
def invalidation : List Input :=
  validation ++ [.referenceData inactiveNsi, .request (env 3) trader (.validate dealId)]

end Desk

/-- The payments of a deal that has become invalid are still open exposure. -/
theorem invalid_exposed :
    ¬ ∀ (nsi : ReferenceData) (history : List ServiceTurn) (db : Database),
      Run step (Database.initial nsi) history db →
        ∀ id r, db.deals.lookup id = some r → r.row.validationStatus ≠ .valid →
          r.payments = [] := by
  intro h
  have hinvalid : ((Desk.after Desk.invalidation).deals.lookup Desk.dealId).any (fun r =>
      decide (r.row.validationStatus ≠ .valid ∧ r.payments ≠ [])) = true := by
    decide +kernel
  obtain ⟨r, hr, hrow⟩ := (Option.any_eq_true _ _).mp hinvalid
  obtain ⟨hstatus, hpayments⟩ := of_decide_eq_true hrow
  exact hpayments (h Desk.nsi _ _ (run_serveAll step (Database.initial Desk.nsi) Desk.invalidation)
    Desk.dealId r hr hstatus)

end FxDealManager
