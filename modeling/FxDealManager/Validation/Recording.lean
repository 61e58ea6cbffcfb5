import FxDealManager.Lifecycle.Run
import FxDealManager.Validation.Verdict

/-!
# What a failed validation leaves behind

A validation that finds a deal invalid commits the status and an entry. A deal for which there is
no value date is refused without a commit: a deal that was valid before stays valid, and can be
submitted.

## Main definitions

* `Outcome.Answers`: an outcome is an answer to a verdict
* `Unsettled`: the deal passes the checks before the settlement step, which finds no value date
* `Shown`: a failure is recorded, and the deal cannot be submitted

## Main results

* `execute_answers`: every validation answers its verdict
* `failure_shown`: failures are recorded if and only if the deal is not unsettled
* `refused_submittable`: a run in which a deal that was refused is submitted
-/

namespace FxDealManager

open DecimalArithmetic Transactional

/-- The outcome answers a verdict: a success to a valid deal, and complaints to an invalid one, in
a transaction, or to a refused one, without. -/
def Outcome.Answers (v : Verdict) (o : Outcome) : Prop :=
  match o.result with
  | .ok _ => ∃ valueDate assigned, v = .valid valueDate assigned
  | .error (.validationFailed issues) =>
    (v = .invalid issues ∧ o.transactions ≠ []) ∨
      ∃ text, v = .refused text ∧ issues = [⟨"value_date", text⟩] ∧ o.transactions = []
  | .error _ => True

/-- The errors of a replay are the database's. -/
theorem replay_error {log : List Statement} {db : Database} {err : ServiceError}
    (h : replay log db = .error err) : ∃ e, err = .database e := by
  induction log generalizing db with
  | nil => cases h
  | cons st log ih =>
    simp only [replay] at h
    cases hst : st.exec db with
    | ok a =>
      rw [show Store.exec st db = .ok a from exec_eq_ok.mpr hst] at h
      exact ih h
    | error e =>
      have hexec : Store.exec st db = .error (.database e) := by
        simp [Store.exec, hst, Except.mapError]
      rw [hexec] at h
      cases h
      exact ⟨e, rfl⟩

section Answers

variable {env : Env} {user : UserClaims} {db : Database} {id : UUID}

/-- The postcondition of a program that answers a verdict. -/
def Answering (v : Verdict) (result : Except ServiceError DealResponse) (c : ServiceProgress) :
    Prop :=
  Outcome.Answers v ⟨result, c.committed, c.transactions, c.effects⟩

theorem answering_database (v : Verdict) (e : DbError) (c : ServiceProgress) :
    Answering v (.error (.database e)) c := trivial

theorem answering_rejected (v : Verdict) (c : ServiceProgress) :
    c.MayReject env (Answering v) := fun _ => trivial

theorem answering_replay {v : Verdict} {log : List Statement} {err : ServiceError}
    (h : replay log db = .error err) (c : ServiceProgress) : Answering v (.error err) c := by
  obtain ⟨e, rfl⟩ := replay_error h
  trivial

/-- Marking a deal as invalid answers with the complaints, in a transaction. -/
theorem commitInvalid_answers {deal : FXDeal} {issues : List ValidationIssue} {c : ServiceProgress}
    {n : ℕ} :
    (commitInvalid deal user issues).EnsuresFrom env c n (Answering (.invalid issues)) := by
  have hrej : ∀ c : ServiceProgress, c.MayReject env (Answering (.invalid issues)) :=
    answering_rejected _
  refine setValidationStatus_from (hrej _) ?_
  refine appendAudit_from (hrej _) (fun err _ => answering_database _ _ _)
    (fun _ => answering_database _ _ _) (fun _ _ _ _ _ h => answering_replay h _)
    fun statements entry d hst _ _ hd => ?_
  refine .commit_bind (hrej _) (.raise (.inl ⟨rfl, ?_⟩))
  simp [Progress.committing]

/-- A handled failure of the saving is no complaint. -/
theorem saveValidated_answers {r : DealRecord} {valueDate : Date}
    {assigned : List (CalculatedPayment × String)} {payments : List Payment} {n : ℕ} :
    (Program.handle (saveValidated (FXDeal.ofRecord db.nsi id r) valueDate payments user)
      fun err => do
        Program.rollback
        Program.raise (saveFailure err)).EnsuresFrom env (Progress.start db) n
      (Answering (.valid valueDate assigned)) := by
  refine .handle fun s hs hn => ?_
  cases h : (saveValidated (FXDeal.ofRecord db.nsi id r) valueDate payments user env s).1 with
  | ok response => exact ⟨valueDate, assigned, rfl⟩
  | error err =>
    refine .rollback_bind (.raise ?_)
    cases err <;> trivial

theorem validateDeal_answers {r : DealRecord} (hr : db.deals.lookup id = some r)
    (huser : Entitled user r.row) :
    (validateDeal id user).EnsuresFrom env (Progress.start db) 0
      (Answering (verdict db.nsi (FXDeal.ofRecord db.nsi id r))) := by
  refine validateDeal_from hr huser (answering_rejected _ _) ?_ ?_ ?_ ?_
  · intro err _
    cases err <;> trivial
  · intro text htext
    exact .inr ⟨text, htext, rfl, rfl⟩
  · intro issues hissues
    rw [hissues]
    exact commitInvalid_answers
  · intro valueDate assigned hvalid
    rw [hvalid]
    exact saveValidated_answers

/-- **Every validation answers its verdict**, whatever the circumstances. -/
theorem execute_answers {r : DealRecord} (hr : db.deals.lookup id = some r)
    (hrole : user.role ∈ (Operation.validate id).roles) (huser : Entitled user r.row) :
    (execute env user (.validate id) db).Answers
      (verdict db.nsi (FXDeal.ofRecord db.nsi id r)) := by
  have h : (serve (.validate id) user).EnsuresFrom env (Progress.start db) 0
      (Answering (verdict db.nsi (FXDeal.ofRecord db.nsi id r))) :=
    .require_bind (fun hnot => absurd hrole hnot) fun _ => validateDeal_answers hr huser
  exact h.run

end Answers

/-! ## Recorded failures -/

/-- The deal passes the format checks and its limits, but it has no value date: a `FORWARD` deal's
is no business day of the loaded calendar, or this has too few of them. -/
def Unsettled (nsi : ReferenceData) (deal : FXDeal) : Prop :=
  validate deal (nsi.counterparty? deal.counterpartyId) nsi.currency? = [] ∧
    checkLimits (nsi.activeLimits deal.counterpartyId) deal = some [] ∧
    ∃ text, settlement nsi deal = .error (.valueError text)

/-- Unsettled deals are those that are refused. -/
theorem unsettled_iff {nsi : ReferenceData} {deal : FXDeal} :
    Unsettled nsi deal ↔ ∃ text, verdict nsi deal = .refused text := by
  constructor
  · rintro ⟨hissues, hlimits, text, hsettlement⟩
    exact ⟨text, by rw [verdict_of_checked hissues, hlimits, hsettlement]⟩
  · rintro ⟨text, h⟩
    have hjudged := verdict_judged nsi deal
    rw [h] at hjudged
    cases hjudged with
    | unsettled hissues hlimits hsettlement => exact ⟨hissues, hlimits, text, hsettlement⟩

/-- A failed validation of a deal shows: the deal is invalid, an entry of the same transaction says
so, and nobody can submit the deal. -/
structure Shown (db : Database) (id : UUID) (o : Outcome) : Prop where
  invalid : ∃ r, o.database.deals.lookup id = some r ∧ r.row.validationStatus = .invalid
  recorded : ∃ log, o.transactions = [log] ∧ o.database.audit = db.audit ++ entries log ∧
    ∃ entry ∈ entries log, entry.entityId = id ∧ entry.action = .validateFailed
  unsubmittable : ∀ env user, (∃ err, (execute env user (.submit id) o.database).result =
      .error err) ∧ (execute env user (.submit id) o.database).database = o.database

/-- Only valid deals are submitted. -/
theorem submit_stops {db : Database} {id : UUID} {r : DealRecord}
    (hr : db.deals.lookup id = some r) (hinvalid : r.row.validationStatus ≠ .valid) (env : Env)
    (user : UserClaims) :
    (∃ err, (execute env user (.submit id) db).result = .error err) ∧
      (execute env user (.submit id) db).database = db := by
  rcases execute_cases env user (.submit id) db with
    hstopped | ⟨j, result, log, sends, after, -, hexit, -, -⟩
  · exact hstopped
  · have hj : id = j := hexit.deal_eq rfl
    subst hj
    cases hexit with
    | invalidated hr' hrejects _ _ _ =>
      rw [hr] at hr'
      cases hr'
      cases hrejects with
      | submit _ hvalid => exact absurd hvalid hinvalid
    | moved hr' hmoves _ _ _ =>
      rw [hr] at hr'
      cases hr'
      cases hmoves with
      | submit _ hvalid => exact absurd hvalid hinvalid
    | declined _ hdeclines _ _ _ _ _ => cases hdeclines

/-- A complaint that was committed shows. -/
theorem shown_of_committed {env : Env} {user : UserClaims} {db : Database} {id : UUID}
    {issues : List ValidationIssue}
    (h : (execute env user (.validate id) db).result = .error (.validationFailed issues))
    (hcommitted : (execute env user (.validate id) db).transactions ≠ []) :
    Shown db id (execute env user (.validate id) db) := by
  cases execute_ends env user (.validate id) db with
  | stopped _ _ htransactions _ => exact absurd htransactions hcommitted
  | @exited j log _ hexit htransactions hreplay =>
    have hj : id = j := hexit.deal_eq rfl
    subst hj
    generalize execute env user (.validate id) db = o at h hexit htransactions hreplay ⊢
    obtain ⟨result, after, transactions, sends⟩ := o
    obtain rfl : result = _ := h
    cases hexit with
    | @invalidated _ _ r _ entry hr _ _ _ hentry =>
      have hlookup := lookup_invalidated hreplay hr
      refine ⟨⟨_, hlookup, by simp⟩, ⟨_, htransactions, replay_audit hreplay, entry, by simp,
        hentry.entityId, hentry.action⟩, ?_⟩
      exact submit_stops hlookup (by simp)

/-- When no call is rejected, an unsettled deal is refused without a transaction. -/
theorem execute_refused {env : Env} {user : UserClaims} {db : Database} {id : UUID} {r : DealRecord}
    {text : String} (hcalm : ∀ n, rejects env n = false) (hr : db.deals.lookup id = some r)
    (hrole : user.role ∈ (Operation.validate id).roles) (huser : Entitled user r.row)
    (hrefused : verdict db.nsi (FXDeal.ofRecord db.nsi id r) = .refused text) :
    (execute env user (.validate id) db).result =
        .error (.validationFailed [⟨"value_date", text⟩]) ∧
      (execute env user (.validate id) db).database = db ∧
      (execute env user (.validate id) db).transactions = [] := by
  have h : (serve (.validate id) user).EnsuresFrom env (Progress.start db) 0 fun result c =>
      result = .error (.validationFailed [⟨"value_date", text⟩]) ∧ c.committed = db ∧
        c.transactions = [] := by
    refine .require_bind (fun hnot => absurd hrole hnot) fun _ => ?_
    refine validateDeal_from hr huser (.of_calm hcalm) ?_ ?_ ?_ ?_
    all_goals rw [hrefused]
    · exact fun _ h => by cases h
    · rintro text' ⟨⟩
      exact ⟨rfl, rfl, rfl⟩
    · exact fun _ h => by cases h
    · exact fun _ _ h => by cases h
  exact h.run

/-- **Failures are recorded, settlement apart**: whenever a validation by an entitled user answers
with complaints, the deal is marked, the same transaction says so, and the deal cannot be submitted;
and this fails for the deals that are refused for want of a value date, and for no others. -/
theorem failure_shown {user : UserClaims} {db : Database} {id : UUID} {r : DealRecord}
    (hr : db.deals.lookup id = some r) (hrole : user.role ∈ (Operation.validate id).roles)
    (huser : Entitled user r.row) :
    (∀ env issues, (execute env user (.validate id) db).result = .error (.validationFailed issues) →
        Shown db id (execute env user (.validate id) db)) ↔
      ¬ Unsettled db.nsi (FXDeal.ofRecord db.nsi id r) := by
  rw [unsettled_iff]
  constructor
  · rintro h ⟨text, hrefused⟩
    have hcalm : ∀ n, rejects (Desk.env 0) n = false := fun _ => rfl
    obtain ⟨hresult, -, hnone⟩ := execute_refused hcalm hr hrole huser hrefused
    obtain ⟨log, hlog, -⟩ := (h _ _ hresult).recorded
    rw [hnone] at hlog
    cases hlog
  · intro hsettled env issues hresult
    have hanswers : (execute env user (.validate id) db).Answers _ :=
      execute_answers hr hrole huser
    rw [Outcome.Answers, hresult] at hanswers
    rcases hanswers with ⟨-, hcommitted⟩ | ⟨text, hrefused, -, -⟩
    · exact shown_of_committed hresult hcommitted
    · exact absurd ⟨text, hrefused⟩ hsettled

namespace Desk

/-- The body of a deal for settlement on Tuesday, 16 January 2024. -/
def forwardPayload : DealCreateRequest :=
  { payload with
    dealType := .forward
    valueDate := some ⟨738901, by decide⟩ }

/-- The reference data once 16 January 2024 has become a holiday. -/
def holidayNsi : ReferenceData :=
  { nsi with
    businessCalendar := [⟨⟨738901, by decide⟩, false⟩]
    calendar_key := by decide }

/-- A validated deal whose value date becomes a holiday is validated again. -/
def holiday : List Input :=
  [.request (env 1) trader (.create forwardPayload), .request (env 2) trader (.validate dealId),
    .referenceData holidayNsi]

/-- The created deal. -/
def created : DealRecord := ((after creation).deals.lookup dealId).get (by decide +kernel)

end Desk

/-- The validation of the submitted deal of the desk, which is settled, fails for all to see. -/
theorem failure_shown_desk :
    Shown (Desk.after Desk.submission) Desk.dealId
      (execute (Desk.env 4) Desk.trader (.validate Desk.dealId) (Desk.after Desk.submission)) := by
  have hsettled : (settlement (Desk.after Desk.submission).nsi (FXDeal.ofRecord
      (Desk.after Desk.submission).nsi Desk.dealId Desk.submitted)).toBool = true := by
    decide +kernel
  have hshown := (failure_shown (r := Desk.submitted) (Option.some_get _).symm
    (by decide : Desk.trader.role ∈ (Operation.validate Desk.dealId).roles)
    (by decide +kernel)).mpr fun ⟨_, _, text, hrefused⟩ => by
      rw [hrefused] at hsettled
      cases hsettled
  have hcomplaint : (match (execute (Desk.env 4) Desk.trader (.validate Desk.dealId)
        (Desk.after Desk.submission)).result with
      | .error (.validationFailed _) => true
      | _ => false) = true := by
    decide +kernel
  split at hcomplaint
  next issues hresult => exact hshown (Desk.env 4) issues hresult
  · cases hcomplaint

/-- A deal that was valid is refused for want of a value date, and submitted all the same. -/
theorem refused_submittable :
    ¬ ∀ (nsi : ReferenceData) (history : List ServiceTurn) (db : Database),
      Run step (Database.initial nsi) history db →
        ∀ id r, db.deals.lookup id = some r → r.row.dealState = .draft →
          ∀ env (user : UserClaims) issues, user.role ∈ (Operation.validate id).roles →
            Entitled user r.row →
            (execute env user (.validate id) db).result = .error (.validationFailed issues) →
              Shown db id (execute env user (.validate id) db) := by
  intro h
  have hdraft : ((Desk.after Desk.holiday).deals.lookup Desk.dealId).any (fun r =>
      decide (r.row.dealState = .draft ∧ Entitled Desk.trader r.row)) = true := by
    decide +kernel
  have hcomplaint : (match (execute (Desk.env 3) Desk.trader (.validate Desk.dealId)
        (Desk.after Desk.holiday)).result with
      | .error (.validationFailed _) => true
      | _ => false) = true := by
    decide +kernel
  have hsubmitted : (execute (Desk.env 4) Desk.trader (.submit Desk.dealId)
      (execute (Desk.env 3) Desk.trader (.validate Desk.dealId)
        (Desk.after Desk.holiday)).database).result.toBool = true := by
    decide +kernel
  obtain ⟨r, hr, hrow⟩ := (Option.any_eq_true _ _).mp hdraft
  obtain ⟨hstate, huser⟩ := of_decide_eq_true hrow
  split at hcomplaint
  next issues hresult =>
    have hrun : Run step (Database.initial Desk.nsi) _ (Desk.after Desk.holiday) :=
      run_serveAll step (Database.initial Desk.nsi) Desk.holiday
    have hshown := h Desk.nsi _ _ hrun Desk.dealId r hr hstate (Desk.env 3) Desk.trader issues
      (by decide) huser hresult
    obtain ⟨⟨err, herr⟩, -⟩ := hshown.unsubmittable (Desk.env 4) Desk.trader
    rw [herr] at hsubmitted
    cases hsubmitted
  · cases hcomplaint

end FxDealManager
