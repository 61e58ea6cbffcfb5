import FxDealManager.Lifecycle.Settlement
import FxDealManager.Validation.Recording
import FxDealManager.Validation.Saving

/-!
# Validation does not depend on history

A validation writes the value date, the status and the payments of a deal into the row that it
reads. None of these feed into a later verdict, except for the value date of a `FORWARD` deal,
which a validation leaves as it is. Two deals with the same terms get the same verdict, whatever
has happened to them before.

## Main definitions

* `SameDeal`: the rows of two deals agree in what a validation reads
* `SameVerdict`: two answers, success or complaints, say the same
* `SameValidation`: two validations say the same, and save the same if they succeed

## Main results

* `verdict_congr`: drafts of the same deal have the same verdict
* `validation_history_free`: validations of the same deal are the same, and can be repeated
-/

namespace FxDealManager

open DecimalArithmetic Transactional

/-! ## The same deal -/

/-- The rows agree in what a validation reads, the state apart. -/
structure SameDeal (row row' : FXDealRow) : Prop extends SameTerms row row' where
  tradeDate : row'.tradeDate = row.tradeDate
  dealType : row'.dealType = row.dealType
  counterpartyId : row'.counterpartyId = row.counterpartyId
  valueDate : row.dealType = .forward → row'.valueDate = row.valueDate

instance (row row' : FXDealRow) : Decidable (SameDeal row row') :=
  decidable_of_iff (SameTerms row row' ∧ row'.tradeDate = row.tradeDate ∧
      row'.dealType = row.dealType ∧ row'.counterpartyId = row.counterpartyId ∧
      (row.dealType = .forward → row'.valueDate = row.valueDate))
    ⟨fun ⟨h₁, h₂, h₃, h₄, h₅⟩ => ⟨h₁, h₂, h₃, h₄, h₅⟩,
      fun ⟨h₁, h₂, h₃, h₄, h₅⟩ => ⟨h₁, h₂, h₃, h₄, h₅⟩⟩

section Congruence

variable (nsi : ReferenceData) (id id' : UUID) {r r' : DealRecord}

theorem counterAmount_congr (h : SameTerms r.row r'.row) :
    counterAmount (FXDeal.ofRecord nsi id' r') = counterAmount (FXDeal.ofRecord nsi id r) := by
  simp only [counterAmount, FXDeal.ofRecord, h.amount, h.rate]

/-- What the format checks read of a deal: its value date is asked for if it is `FORWARD`. -/
theorem validate_eq_of_fields {deal deal' : FXDeal}
    (hstate : deal'.dealState = .draft ↔ deal.dealState = .draft)
    (hamount : deal'.amount = deal.amount) (hrate : deal'.rate = deal.rate)
    (hbuy : deal'.buyCurrency = deal.buyCurrency) (hsell : deal'.sellCurrency = deal.sellCurrency)
    (hcounterparty : deal'.counterpartyId = deal.counterpartyId)
    (hdate : (deal'.loadedDealType = .forward ∧ deal'.valueDate = none) ↔
      (deal.loadedDealType = .forward ∧ deal.valueDate = none))
    (counterparty : Option Counterparty) (currencies : String → Option Currency) :
    validate deal' counterparty currencies = validate deal counterparty currencies := by
  unfold validate
  rw [hamount, hrate, hbuy, hsell, hcounterparty]
  simp only [ne_eq, hstate, hdate]

theorem validate_congr (h : SameDeal r.row r'.row) (hstate : r'.row.dealState = r.row.dealState)
    (counterparty : Option Counterparty) (currencies : String → Option Currency) :
    validate (FXDeal.ofRecord nsi id' r') counterparty currencies =
      validate (FXDeal.ofRecord nsi id r) counterparty currencies := by
  have hdraft : (FXDeal.ofRecord nsi id' r').dealState = .draft ↔
      (FXDeal.ofRecord nsi id r).dealState = .draft := by
    simp only [FXDeal.ofRecord, hstate]
  refine validate_eq_of_fields hdraft (congrArg Numeric.toDecimal h.amount)
    (congrArg Numeric.toDecimal h.rate) (congrArg Varchar.val h.buyCurrency)
    (congrArg Varchar.val h.sellCurrency) (congrArg Varchar.val h.counterpartyId) ?_ _ _
  rw [FXDeal.ofRecord_loadedDealType, FXDeal.ofRecord_loadedDealType, h.dealType]
  exact and_congr_right fun hforward => by
    rw [FXDeal.ofRecord_valueDate, FXDeal.ofRecord_valueDate, h.valueDate hforward]

theorem checkLimits_congr (h : SameDeal r.row r'.row) (limits : List DealLimit) :
    checkLimits limits (FXDeal.ofRecord nsi id' r') =
      checkLimits limits (FXDeal.ofRecord nsi id r) := by
  simp only [checkLimits, counterAmount_congr nsi id id' h.toSameTerms]
  simp only [FXDeal.ofRecord, h.amount, h.buyCurrency, h.sellCurrency, h.counterpartyId]

/-- The settlement step reads the value date of a `FORWARD` deal only. -/
theorem settlement_congr (h : SameDeal r.row r'.row) :
    settlement nsi (FXDeal.ofRecord nsi id' r') = settlement nsi (FXDeal.ofRecord nsi id r) := by
  have hdate : ∀ calendar, calculateValueDate r.row.tradeDate r.row.dealType calendar
        r'.row.valueDate =
      calculateValueDate r.row.tradeDate r.row.dealType calendar r.row.valueDate := by
    intro calendar
    cases htype : r.row.dealType with
    | forward => rw [h.valueDate htype]
    | _ => rfl
  simp only [settlement, FXDeal.ofRecord, h.tradeDate, h.dealType, hdate]

/-- **Drafts of the same deal have the same verdict.** -/
theorem verdict_congr (h : SameDeal r.row r'.row) (hstate : r'.row.dealState = r.row.dealState) :
    verdict nsi (FXDeal.ofRecord nsi id' r') = verdict nsi (FXDeal.ofRecord nsi id r) := by
  have hcounterparty : (FXDeal.ofRecord nsi id' r').counterpartyId =
      (FXDeal.ofRecord nsi id r).counterpartyId := by
    rw [FXDeal.ofRecord_counterpartyId, FXDeal.ofRecord_counterpartyId, h.counterpartyId]
  have haccounts : ∀ valueDate, accountsVerdict nsi (FXDeal.ofRecord nsi id' r') valueDate =
      accountsVerdict nsi (FXDeal.ofRecord nsi id r) valueDate := by
    intro valueDate
    have hcalc : calculatePayments (FXDeal.ofRecord nsi id' r') valueDate =
        calculatePayments (FXDeal.ofRecord nsi id r) valueDate := by
      simp only [calculatePayments, counterAmount_congr nsi id id' h.toSameTerms]
      simp only [FXDeal.ofRecord, h.amount, h.buyCurrency, h.sellCurrency, h.operationDirection]
    simp only [accountsVerdict, hcalc]
  simp only [verdict]
  rw [hcounterparty, validate_congr nsi id id' h hstate, checkLimits_congr nsi id id' h,
    settlement_congr nsi id id' h]
  simp only [haccounts]

end Congruence

/-! ## What a success saves -/

/-- The payment without its id. -/
def PaymentRow.unnamed (p : PaymentRow) : PaymentRow := { p with id := 0 }

/-- A calculated payment determines what is stored, the id apart. -/
theorem PaymentRow.Books.unnamed_eq {a : CalculatedPayment × String} {p q : PaymentRow}
    (hp : PaymentRow.Books a p) (hq : PaymentRow.Books a q) : p.unnamed = q.unnamed := by
  obtain ⟨i, hp⟩ := hp
  obtain ⟨j, hq⟩ := hq
  have hamount : p.amount = q.amount := Option.some.inj (hp.amount.symm.trans hq.amount)
  have hcurrency : p.currencyCode = q.currencyCode :=
    Varchar.eq_of_val (hp.currencyCode.trans hq.currencyCode.symm)
  have haccount : p.accountCode = q.accountCode :=
    Option.map_injective (fun _ _ => Varchar.eq_of_val) (hp.accountCode.trans hq.accountCode.symm)
  have hdirection := hp.paymentDirection.trans hq.paymentDirection.symm
  have hdate := hp.valueDate.trans hq.valueDate.symm
  simp only [PaymentRow.unnamed, hamount, hcurrency, haccount, hdirection, hdate]

theorem map_unnamed_of_books {assigned : List (CalculatedPayment × String)}
    {rows rows' : List PaymentRow} (h : List.Forall₂ PaymentRow.Books assigned rows)
    (h' : List.Forall₂ PaymentRow.Books assigned rows') :
    rows.map PaymentRow.unnamed = rows'.map PaymentRow.unnamed := by
  induction h generalizing rows' with
  | nil => cases h'; rfl
  | cons hb _ ih =>
    cases h' with
    | cons hb' h' => rw [List.map_cons, List.map_cons, hb.unnamed_eq hb', ih h']

/-- What is stored could be. -/
theorem bookable_of_books {assigned : List (CalculatedPayment × String)} {rows : List PaymentRow}
    (h : List.Forall₂ PaymentRow.Books assigned rows) : ∀ a ∈ assigned, Bookable a := by
  induction h with
  | nil => simp
  | @cons a row _ _ hb _ ih =>
    obtain ⟨id, hs⟩ := hb
    refine List.forall_mem_cons.mpr ⟨⟨Option.isSome_of_eq_some hs.amount, ?_, ?_⟩, ih⟩
    · have hcurrency : row.currencyCode.val = a.1.currencyCode := hs.currencyCode
      rw [← hcurrency]
      exact row.currencyCode.fits
    · obtain ⟨v, -, hv⟩ := Option.map_eq_some_iff.mp hs.accountCode
      rw [← hv]
      exact v.fits

/-- What a successful validation has saved: the value date and the payments of its verdict, and
nothing else that a validation reads. -/
theorem saved_of_ok {env : Env} {user : UserClaims} {db : Database} {id : UUID} {r : DealRecord}
    {response : DealResponse} (hr : db.deals.lookup id = some r)
    (h : (execute env user (.validate id) db).result = .ok response) :
    ∃ valueDate assigned s,
      verdict db.nsi (FXDeal.ofRecord db.nsi id r) = .valid valueDate assigned ∧
      (execute env user (.validate id) db).database.deals.lookup id = some s ∧
      (execute env user (.validate id) db).database.nsi = db.nsi ∧
      s.row.valueDate = some valueDate ∧ List.Forall₂ PaymentRow.Books assigned s.payments ∧
      SameTerms r.row s.row ∧ s.row.tradeDate = r.row.tradeDate ∧
      s.row.dealType = r.row.dealType ∧ s.row.counterpartyId = r.row.counterpartyId ∧
      s.row.dealState = r.row.dealState ∧ s.row.traderId = r.row.traderId ∧
      user.email.length ≤ 320 := by
  obtain ⟨j, log, sends, after, -, hexit, hreplay, houtcome⟩ := exit_of_ok h
  rw [houtcome]
  cases hexit with
  | moved _ hop _ _ _ => cases hop
  | declined _ hop _ _ _ _ _ => cases hop
  | validated hr' _ hvalid hrows hentry =>
    rw [hr] at hr'
    cases hr'
    have hemail : user.email.length ≤ 320 := hentry.createdBy ▸ Varchar.fits _
    refine ⟨_, _, _, verdict_eq_valid_iff.mpr hvalid, lookup_validated hreplay hr,
      replay_nsi hreplay, ?_, ?_, ⟨?_, ?_, ?_, ?_, ?_⟩, ?_, ?_, ?_, ?_, ?_, hemail⟩
    · simp
    · rw [filter_replaced (payments_fresh hreplay hr)]
      exact hrows
    all_goals simp

/-- A validation leaves the deal one that is validated alike. -/
theorem sameDeal_of_ok {nsi : ReferenceData} {id : UUID} {r s : DealRecord} {valueDate : Date}
    {assigned : List (CalculatedPayment × String)}
    (hverdict : verdict nsi (FXDeal.ofRecord nsi id r) = .valid valueDate assigned)
    (hdate : s.row.valueDate = some valueDate) (hterms : SameTerms r.row s.row)
    (htrade : s.row.tradeDate = r.row.tradeDate) (htype : s.row.dealType = r.row.dealType)
    (hcounterparty : s.row.counterpartyId = r.row.counterpartyId) : SameDeal r.row s.row := by
  refine ⟨hterms, htrade, htype, hcounterparty, fun hforward => ?_⟩
  obtain ⟨last, calendar, -, -, hsettled⟩ := (verdict_eq_valid_iff.mp hverdict).settled
  simp only [FXDeal.ofRecord, hforward, calculateValueDate] at hsettled
  cases hgiven : r.row.valueDate with
  | none => simp [hgiven] at hsettled
  | some d =>
    simp only [hgiven] at hsettled
    split at hsettled
    · cases hsettled
      exact hdate
    · cases hsettled

/-! ## Two validations -/

/-- The answer is a verdict: success or complaints. -/
def isVerdict : Except ServiceError DealResponse → Bool
  | .ok _ => true
  | .error (.validationFailed _) => true
  | .error _ => false

/-- The answers say the same: both succeed, or both fail for the same reason. -/
def SameVerdict : Except ServiceError DealResponse → Except ServiceError DealResponse → Prop
  | .ok _, .ok _ => True
  | .error err, .error err' => err = err'
  | _, _ => False

/-- Two validations say the same about the deals `id` and `id'`, and save the same value date and
the same payments, their ids apart, if they succeed. -/
structure SameValidation (id id' : UUID) (o o' : Outcome) : Prop where
  verdict : SameVerdict o.result o'.result
  saved : ∀ response, o.result = .ok response → ∃ s s', o.database.deals.lookup id = some s ∧
    o'.database.deals.lookup id' = some s' ∧ s'.row.valueDate = s.row.valueDate ∧
    s'.payments.map PaymentRow.unnamed = s.payments.map PaymentRow.unnamed

/-- Verdicts that answer the same are the same. -/
theorem sameVerdict_of_answers {v : Verdict} {o o' : Outcome} (h : o.Answers v) (h' : o'.Answers v)
    (hv : isVerdict o.result = true) (hv' : isVerdict o'.result = true) :
    SameVerdict o.result o'.result := by
  obtain ⟨result, _, transactions, _⟩ := o
  obtain ⟨result', _, transactions', _⟩ := o'
  simp only [Outcome.Answers] at h h'
  rcases result with err | response <;> rcases result' with err' | response'
  · cases err <;> try cases hv
    cases err' <;> try cases hv'
    rcases h with ⟨rfl, -⟩ | ⟨text, rfl, rfl, -⟩ <;>
      rcases h' with ⟨heq, -⟩ | ⟨text', heq, rfl, -⟩ <;> cases heq <;> rfl
  · cases err <;> try cases hv
    obtain ⟨_, _, rfl⟩ := h'
    rcases h with ⟨heq, -⟩ | ⟨_, heq, -⟩ <;> cases heq
  · cases err' <;> try cases hv'
    obtain ⟨_, _, rfl⟩ := h
    rcases h' with ⟨heq, -⟩ | ⟨_, heq, -⟩ <;> cases heq
  · trivial

/-- What a verdict yields is the same for users whom the audit log can name, or cannot. -/
theorem sameVerdict_of_yields {v : Verdict} {email email' : String}
    {result result' : Except ServiceError DealResponse} (h : v.Yields email result)
    (h' : v.Yields email' result') (hemail : email.length ≤ 320 ↔ email'.length ≤ 320) :
    SameVerdict result result' := by
  cases v with
  | failed err => cases h; cases h'; rfl
  | refused text => cases h; cases h'; rfl
  | invalid issues =>
    simp only [Verdict.Yields, ← hemail] at h h'
    split at h
    next hfits =>
      rw [if_pos hfits] at h'
      cases h
      cases h'
      rfl
    next hlong =>
      rw [if_neg hlong] at h'
      cases h
      cases h'
      rfl
  | valid valueDate assigned =>
    simp only [Verdict.Yields, ← hemail] at h h'
    split at h
    next hstored =>
      rw [if_pos hstored] at h'
      obtain ⟨response, rfl⟩ := h
      obtain ⟨response', rfl⟩ := h'
      trivial
    next hstored =>
      rw [if_neg hstored] at h'
      cases h
      cases h'
      rfl

section TwoRuns

variable {db db' : Database} {id id' : UUID} {r r' : DealRecord} {user user' : UserClaims}

/-- Validations of the same deal that say the same save the same. -/
theorem sameValidation_of_verdict {env env' : Env} (hr : db.deals.lookup id = some r)
    (hr' : db'.deals.lookup id' = some r') (hstate : r'.row.dealState = r.row.dealState)
    (hsame : SameDeal r.row r'.row) (hnsi : db'.nsi = db.nsi)
    (h : SameVerdict (execute env user (.validate id) db).result
      (execute env' user' (.validate id') db').result) :
    SameValidation id id' (execute env user (.validate id) db)
      (execute env' user' (.validate id') db') := by
  refine ⟨h, fun response hok => ?_⟩
  rw [hok] at h
  cases hok' : (execute env' user' (.validate id') db').result with
  | error err => rw [hok'] at h; exact h.elim
  | ok response' =>
    obtain ⟨valueDate, assigned, s, hverdict, hs, -, hdate, hbooks, -⟩ := saved_of_ok hr hok
    obtain ⟨valueDate', assigned', s', hverdict', hs', -, hdate', hbooks', -⟩ :=
      saved_of_ok hr' hok'
    rw [hnsi, verdict_congr _ _ _ hsame hstate, hverdict] at hverdict'
    cases hverdict'
    exact ⟨s, s', hs, hs', hdate'.trans hdate.symm, map_unnamed_of_books hbooks' hbooks⟩

/-- **Validation does not depend on history**: for two drafts of the same deal and the same
reference data, verdicts agree whatever the circumstances, in fair circumstances both validations
answer the same, and two successes save the same; and a validation that has succeeded succeeds
again, with the same value date and the same payments. -/
theorem validation_history_free (hr : db.deals.lookup id = some r)
    (hr' : db'.deals.lookup id' = some r') (hdraft : r.row.dealState = .draft)
    (hdraft' : r'.row.dealState = .draft) (hsame : SameDeal r.row r'.row) (hnsi : db'.nsi = db.nsi)
    (hrole : user.role ∈ (Operation.validate id).roles)
    (hrole' : user'.role ∈ (Operation.validate id').roles) (huser : Entitled user r.row)
    (huser' : Entitled user' r'.row) :
    (∀ env env', isVerdict (execute env user (.validate id) db).result = true →
        isVerdict (execute env' user' (.validate id') db').result = true →
          SameValidation id id' (execute env user (.validate id) db)
            (execute env' user' (.validate id') db')) ∧
      (∀ env env', Fair env db → Fair env' db' →
        (user.email.length ≤ 320 ↔ user'.email.length ≤ 320) →
          SameValidation id id' (execute env user (.validate id) db)
            (execute env' user' (.validate id') db')) ∧
      ∀ env env' response, (execute env user (.validate id) db).result = .ok response →
        Fair env' (execute env user (.validate id) db).database →
          SameValidation id id (execute env user (.validate id) db)
            (execute env' user (.validate id) (execute env user (.validate id) db).database) := by
  have hstate : r'.row.dealState = r.row.dealState := hdraft'.trans hdraft.symm
  refine ⟨fun env env' hv hv' => ?_, fun env env' hfair hfair' hemail => ?_,
    fun env env' response hok hfair' => ?_⟩
  · refine sameValidation_of_verdict hr hr' hstate hsame hnsi ?_
    have hanswers' : (execute env' user' (.validate id') db').Answers _ :=
      execute_answers hr' hrole' huser'
    rw [hnsi, verdict_congr _ _ _ hsame hstate] at hanswers'
    exact sameVerdict_of_answers (execute_answers hr hrole huser) hanswers' hv hv'
  · refine sameValidation_of_verdict hr hr' hstate hsame hnsi ?_
    have hyields' := execute_yields hfair' hr' hrole' huser'
    rw [hnsi, verdict_congr _ _ _ hsame hstate] at hyields'
    exact sameVerdict_of_yields (execute_yields hfair hr hrole huser) hyields' hemail
  · obtain ⟨valueDate, assigned, s, hverdict, hs, hsnsi, hdate, hbooks, hterms, htrade, htype,
      hcounterparty, hsstate, htrader, hemail⟩ := saved_of_ok hr hok
    have hsame' := sameDeal_of_ok hverdict hdate hterms htrade htype hcounterparty
    refine sameValidation_of_verdict hr hs hsstate hsame' hsnsi ?_
    have hyields' := execute_yields hfair' hs hrole (by rw [Entitled, htrader]; exact huser)
    rw [hsnsi, verdict_congr _ _ _ hsame' hsstate, hverdict] at hyields'
    have hyields : (Verdict.valid valueDate assigned).Yields user.email
        (execute env user (.validate id) db).result := by
      simp only [Verdict.Yields]
      rw [if_pos ⟨bookable_of_books hbooks, hemail⟩]
      exact ⟨response, hok⟩
    exact sameVerdict_of_yields hyields hyields' Iff.rfl

end TwoRuns

/-- The validated deal of the desk. -/
def Desk.validated : DealRecord := ((after validation).deals.lookup dealId).get (by decide +kernel)

/-- A deal that was never validated, and the same deal once it was. -/
theorem validation_history_free_desk :
    SameValidation Desk.dealId Desk.dealId
      (execute (Desk.env 5) Desk.trader (.validate Desk.dealId) (Desk.after Desk.creation))
      (execute (Desk.env 6) Desk.trader (.validate Desk.dealId) (Desk.after Desk.validation)) := by
  have hr : (Desk.after Desk.creation).deals.lookup Desk.dealId = some Desk.created :=
    (Option.some_get _).symm
  have hr' : (Desk.after Desk.validation).deals.lookup Desk.dealId = some Desk.validated :=
    (Option.some_get _).symm
  refine (validation_history_free hr hr' (by decide +kernel) (by decide +kernel)
    (by decide +kernel) (by decide +kernel) (by decide) (by decide) (by decide +kernel)
    (by decide +kernel)).2.1 _ _ ?_ ?_ Iff.rfl
  · exact Desk.fair (by decide +kernel)
  · exact Desk.fair (by decide +kernel)

end FxDealManager
