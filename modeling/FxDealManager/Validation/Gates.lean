import FxDealManager.Lifecycle.Execution
import FxDealManager.Lifecycle.Exposure
import FxDealManager.Validation.Limits

/-!
# The gates of a submission

A submission trusts the status that the last validation has stored, and repeats the limit check
alone. What it lets through is the deal that this validation has accepted, within the limits of the
day; the deal would pass a validation again unless the other reference data it refers to have
changed since.

## Main definitions

* `SameReference`: the reference data that a validation of a deal reads are the same, limits apart

## Main results

* `validation_of_sameReference`: a validation under the same reference data and other limits
* `submitted_as_validated`: what was validated, and would be again, when a deal is submitted
* `submitted_not_valid`: a submission of a deal that a validation would refuse
-/

namespace FxDealManager

open DecimalArithmetic Transactional

/-! ## The same reference data -/

/-- The counterparty, the currencies, the days and the accounts that a validation of the deal reads
are the same; the limits may be others. -/
structure SameReference (row : FXDealRow) (nsi nsi' : ReferenceData) : Prop where
  counterparty : nsi'.counterparty? row.counterpartyId.val =
    nsi.counterparty? row.counterpartyId.val
  currencies : ∀ code, code = row.buyCurrency ∨ code = row.sellCurrency →
    nsi'.currency? code.val = nsi.currency? code.val
  calendar : ∀ last, row.tradeDate.addDays 30 = some last →
    nsi'.loadCalendar row.tradeDate last = nsi.loadCalendar row.tradeDate last
  accounts : ∀ code, code = row.buyCurrency ∨ code = row.sellCurrency →
    nsi'.nostroByCurrency code.val = nsi.nostroByCurrency code.val

section Validations

variable {nsi nsi' : ReferenceData} {id : UUID} {r : DealRecord}

/-- The format checks look the two currencies of the deal up, and no others. -/
theorem validate_congr_currencies {deal : FXDeal} {counterparty : Option Counterparty}
    {currencies currencies' : String → Option Currency}
    (hbuy : currencies' deal.buyCurrency = currencies deal.buyCurrency)
    (hsell : currencies' deal.sellCurrency = currencies deal.sellCurrency) :
    validate deal counterparty currencies' = validate deal counterparty currencies := by
  unfold validate
  rw [hbuy, hsell]

/-- The assignment of accounts looks the currencies of the payments up, and no others. -/
theorem assignNostro_congr {nostro nostro' : String → Option NostroAccount}
    {payments : List CalculatedPayment}
    (h : ∀ p ∈ payments, nostro' p.currencyCode = nostro p.currencyCode) :
    assignNostro nostro' payments = assignNostro nostro payments := by
  induction payments with
  | nil => rfl
  | cons p payments ih =>
    obtain ⟨hp, hpayments⟩ := List.forall_mem_cons.mp h
    simp only [assignNostro, ih hpayments, hp]

/-- **A validation under the same reference data** and other limits, which the deal keeps as well,
comes to the same value date and the same payments. -/
theorem validation_of_sameReference {valueDate : Date}
    {assigned : List (CalculatedPayment × String)} (h : SameReference r.row nsi nsi')
    (hlimits : checkLimits (nsi'.activeLimits r.row.counterpartyId.val)
      (FXDeal.ofRecord nsi' id r) = some [])
    (hvalid : Validation nsi (FXDeal.ofRecord nsi id r) valueDate assigned) :
    Validation nsi' (FXDeal.ofRecord nsi' id r) valueDate assigned where
  issues := by
    have hcounterparty : nsi'.counterparty? (FXDeal.ofRecord nsi' id r).counterpartyId =
        nsi.counterparty? (FXDeal.ofRecord nsi id r).counterpartyId := h.counterparty
    rw [hcounterparty,
      validate_congr_currencies (h.currencies _ (.inl rfl)) (h.currencies _ (.inr rfl))]
    refine Eq.trans (b := validate (FXDeal.ofRecord nsi id r) _ _) ?_ hvalid.issues
    exact validate_eq_of_fields Iff.rfl rfl rfl rfl rfl rfl Iff.rfl _ _
  limits := hlimits
  settled := by
    obtain ⟨last, calendar, hlast, hcalendar, hdate⟩ := hvalid.settled
    exact ⟨last, calendar, hlast, (h.calendar last hlast).trans hcalendar, hdate⟩
  payments := by
    obtain ⟨calculated, hcalc, hassigned⟩ := hvalid.payments
    refine ⟨calculated, hcalc, (assignNostro_congr fun p hp => ?_).trans hassigned⟩
    obtain ⟨_, c₁, c₂, -, rfl, -⟩ := calculatePayments_eq_some hcalc
    obtain ⟨-, -, hbuy, hsell⟩ := currencies_of_calculatePayments hcalc
    rcases List.mem_pair.mp hp with rfl | rfl
    · rw [hbuy]
      exact h.accounts _ (.inl rfl)
    · rw [hsell]
      exact h.accounts _ (.inr rfl)

end Validations

/-! ## What a submission has checked -/

theorem SameDeal.trans {row row' row'' : FXDealRow} (h : SameDeal row row')
    (h' : SameDeal row' row'') : SameDeal row row'' where
  toSameTerms := h.toSameTerms.trans h'.toSameTerms
  tradeDate := h'.tradeDate.trans h.tradeDate
  dealType := h'.dealType.trans h.dealType
  counterpartyId := h'.counterpartyId.trans h.counterpartyId
  valueDate htype := (h'.valueDate (h.dealType.trans htype)).trans (h.valueDate htype)

/-- Records with one contract are validated alike. -/
theorem sameDeal_of_contract {r r' : DealRecord} (h : r'.contract = r.contract) :
    SameDeal r.row r'.row where
  amount := congrArg Contract.amount h
  rate := congrArg Contract.rate h
  buyCurrency := congrArg Contract.buyCurrency h
  sellCurrency := congrArg Contract.sellCurrency h
  operationDirection := congrArg Contract.operationDirection h
  tradeDate := congrArg Contract.tradeDate h
  dealType := congrArg Contract.dealType h
  counterpartyId := congrArg Contract.counterpartyId h
  valueDate _ := congrArg Contract.valueDate h

/-- What the last validation of a deal has found, for a draft with the contract that it stored. -/
theorem ValidatedBefore.validation {nsi : ReferenceData} {history later : List ServiceTurn}
    {db : Database} (h : Run step (Database.initial nsi) history db) {id : UUID} {r : DealRecord}
    (hbefore : ValidatedBefore later history id r.contract) (hdraft : r.row.dealState = .draft) :
    ∃ past t, history = past ++ t :: later ∧ Validates id t ∧
      (∀ t' ∈ later, ¬ Validates id t' ∧ ∀ user, ¬ Updates id user t') ∧
        ∃ valueDate assigned,
          Validation t.before.nsi (FXDeal.ofRecord t.before.nsi id r) valueDate assigned ∧
            ∀ a ∈ assigned, Bookable a := by
  obtain ⟨past, t, s, rfl, hvalidates, hs, hcontract, hlater⟩ := hbefore
  refine ⟨past, t, rfl, hvalidates, hlater, ?_⟩
  obtain ⟨before, input, -, rfl⟩ := h.exists_turn
  obtain ⟨user, env, outcome, response, hinput, houtput, hok⟩ := hvalidates
  obtain rfl : input = .request env user (.validate id) := hinput
  obtain rfl : execute env user (.validate id) before = outcome := Option.some.inj houtput
  obtain ⟨r₀, hr₀⟩ : ∃ r, before.deals.lookup id = some r := by
    obtain ⟨_, _, _, _, -, hexit, -⟩ := exit_of_ok hok
    cases hexit with
    | validated hr _ _ _ _ => exact ⟨_, hr⟩
    | moved _ hmoves _ _ _ => cases hmoves
    | declined _ hdeclines _ _ _ _ _ => cases hdeclines
  obtain ⟨valueDate, assigned, s', hverdict, hs', -, hdate, hbooks, hterms, htrade, htype,
    hcounterparty, -⟩ := saved_of_ok hr₀ hok
  obtain rfl : s' = s := Option.some.inj (hs'.symm.trans hs)
  have hsame := (sameDeal_of_ok hverdict hdate hterms htrade htype hcounterparty).trans
    (sameDeal_of_contract hcontract.symm)
  have hdraft₀ := (of_validate_eq_nil (verdict_eq_valid_iff.mp hverdict).issues).1
  rw [← verdict_congr before.nsi id id hsame (hdraft.trans hdraft₀.symm)] at hverdict
  exact ⟨valueDate, assigned, verdict_eq_valid_iff.mp hverdict, bookable_of_books hbooks⟩

/-- **What was validated is what is submitted**, in every run: if a submission succeeds, a
validation of the deal has succeeded before, since then the deal was neither validated nor updated,
and the user could validate it again, whatever the limits, if the other reference data that a
validation of it reads are the same. -/
theorem submitted_as_validated {nsi : ReferenceData} {history : List ServiceTurn} {db : Database}
    (h : Run step (Database.initial nsi) history db) {env : Env} {user : UserClaims} {id : UUID}
    {response : DealResponse} (hok : (execute env user (.submit id) db).result = .ok response) :
    ∃ r past t later, db.deals.lookup id = some r ∧ history = past ++ t :: later ∧
      Validates id t ∧ (∀ t' ∈ later, ¬ Validates id t' ∧ ∀ user, ¬ Updates id user t') ∧
        (SameReference r.row t.before.nsi db.nsi → ∀ env', Fair env' db →
          ∃ response', (execute env' user (.validate id) db).result = .ok response') := by
  obtain ⟨id', log, sends, after, hrole, hexit, -⟩ := exit_of_ok hok
  cases hexit with
  | declined _ hdeclines _ _ _ _ _ => cases hdeclines
  | @moved _ _ r _ _ _ _ hr hmoves huser hlimits hentry =>
    cases hmoves with
    | submit hstate hvalid =>
      obtain ⟨later, hbefore⟩ := (execution_run h id r hr).valid hvalid
      obtain ⟨past, t, hhistory, hvalidates, hlater, valueDate, assigned, hvalidation, hbookable⟩ :=
        hbefore.validation h hstate
      refine ⟨r, past, t, later, hr, hhistory, hvalidates, hlater, fun hsame env' hfair => ?_⟩
      have hverdict := verdict_eq_valid_iff.mpr
        (validation_of_sameReference hsame (hlimits rfl) hvalidation)
      have hyields := execute_yields hfair hr hrole huser
      have hemail : user.email.length ≤ 320 := hentry.createdBy ▸ Varchar.fits _
      rw [hverdict] at hyields
      exact (if_pos ⟨hbookable, hemail⟩).mp hyields

namespace Desk

/-- A deal is validated, and its counterparty becomes inactive. -/
def deactivation : List Input := validation ++ [.referenceData inactiveNsi]

end Desk

/-- What the submission of the deal of the desk has checked. -/
theorem submitted_as_validated_desk :
    ∃ r past t later, (Desk.after Desk.validation).deals.lookup Desk.dealId = some r ∧
      history step (Database.initial Desk.nsi) Desk.validation = past ++ t :: later ∧
      Validates Desk.dealId t ∧
        (∀ t' ∈ later, ¬ Validates Desk.dealId t' ∧ ∀ user, ¬ Updates Desk.dealId user t') ∧
        (SameReference r.row t.before.nsi (Desk.after Desk.validation).nsi →
          ∀ env', Fair env' (Desk.after Desk.validation) →
            ∃ response', (execute env' Desk.trader (.validate Desk.dealId)
              (Desk.after Desk.validation)).result = .ok response') := by
  obtain ⟨response, hok⟩ := exists_ok_of_toBool (x := (execute (Desk.env 3) Desk.trader
    (.submit Desk.dealId) (Desk.after Desk.validation)).result) (by decide +kernel)
  have hrun : Run step (Database.initial Desk.nsi) _ (Desk.after Desk.validation) :=
    run_serveAll step (Database.initial Desk.nsi) Desk.validation
  exact submitted_as_validated hrun hok

/-- A deal is submitted although its counterparty has become inactive, so that it could not be
validated. -/
theorem submitted_not_valid :
    ¬ ∀ (nsi : ReferenceData) (history : List ServiceTurn) (db : Database),
      Run step (Database.initial nsi) history db →
        ∀ env user id response, (execute env user (.submit id) db).result = .ok response →
          ∀ env', Fair env' db →
            ∃ response', (execute env' user (.validate id) db).result = .ok response' := by
  intro h
  have hrun : Run step (Database.initial Desk.nsi) _ (Desk.after Desk.deactivation) :=
    run_serveAll step (Database.initial Desk.nsi) Desk.deactivation
  obtain ⟨response, hok⟩ := exists_ok_of_toBool (x := (execute (Desk.env 3) Desk.trader
    (.submit Desk.dealId) (Desk.after Desk.deactivation)).result) (by decide +kernel)
  have hfair : Fair (Desk.env 3) (Desk.after Desk.deactivation) := Desk.fair (by decide +kernel)
  obtain ⟨response', hvalid⟩ := h Desk.nsi _ _ hrun _ _ _ _ hok _ hfair
  have hrefused : (execute (Desk.env 3) Desk.trader (.validate Desk.dealId)
      (Desk.after Desk.deactivation)).result.toBool = false := by
    decide +kernel
  rw [hvalid] at hrefused
  cases hrefused

end FxDealManager
