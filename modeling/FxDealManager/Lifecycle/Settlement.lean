import FxDealManager.Lifecycle.Run

/-!
# Payments and terms

The payments of a deal are those that the calculation yields for its stored terms, or there are
none. A validated deal has payments, and so has a deal from its submission to its execution, so
that no approval hands over a deal without payments.

## Main definitions

* `PaymentRow.Matches`: a row is a calculated payment with an account
* `Settled`: the payments of a record are the calculated ones
* `PaymentsInv`: the invariant of a record

## Main results

* `settled_of_books`: a successful validation leaves the payments settled
* `paymentsInv_step`: every input keeps the invariant of every record
* `payments_match_terms`: the invariant in every run, and what is handed over
-/

namespace FxDealManager

open DecimalArithmetic Transactional

/-- The row is a calculated payment, with an account. -/
structure PaymentRow.Matches (calculated : CalculatedPayment) (p : PaymentRow) : Prop where
  amount : p.amount.toDecimal = calculated.amount
  currencyCode : p.currencyCode.val = calculated.currencyCode
  paymentDirection : p.paymentDirection = calculated.paymentDirection
  valueDate : p.valueDate = some calculated.valueDate
  accountCode : p.accountCode.isSome

/-- The payments of the record are the two that the calculation yields for its terms and its value
date, one of them incoming and one outgoing. -/
def Settled (nsi : ReferenceData) (id : UUID) (r : DealRecord) : Prop :=
  ∃ valueDate c₁ c₂ p₁ p₂, r.row.valueDate = some valueDate ∧
    calculatePayments (FXDeal.ofRecord nsi id r) valueDate = some [c₁, c₂] ∧
    r.payments = [p₁, p₂] ∧ p₁.Matches c₁ ∧ p₂.Matches c₂ ∧
    p₁.valueDate = some valueDate ∧ p₂.valueDate = some valueDate ∧
    ((p₁.paymentDirection = .incoming ∧ p₂.paymentDirection = .outgoing) ∨
      (p₁.paymentDirection = .outgoing ∧ p₂.paymentDirection = .incoming))

theorem Settled.ne_nil {nsi : ReferenceData} {id : UUID} {r : DealRecord} (h : Settled nsi id r) :
    r.payments ≠ [] := by
  obtain ⟨_, _, _, _, _, _, _, hp, _⟩ := h
  simp [hp]

/-- The calculation yields two payments, one in each direction, for the value date. -/
theorem calculatePayments_eq_some {deal : FXDeal} {valueDate : Date}
    {calculated : List CalculatedPayment} (h : calculatePayments deal valueDate = some calculated) :
    ∃ counter c₁ c₂, counterAmount deal = some counter ∧ calculated = [c₁, c₂] ∧
      c₁.amount = deal.amount ∧ c₂.amount = counter ∧
      c₁.valueDate = valueDate ∧ c₂.valueDate = valueDate ∧
      ((c₁.paymentDirection = .incoming ∧ c₂.paymentDirection = .outgoing) ∨
        (c₁.paymentDirection = .outgoing ∧ c₂.paymentDirection = .incoming)) := by
  obtain ⟨counter, hcounter, rfl⟩ := Option.map_eq_some_iff.mp h
  cases hdir : deal.operationDirection with
  | buy => exact ⟨counter, _, _, hcounter, rfl, rfl, rfl, rfl, rfl, .inl ⟨rfl, rfl⟩⟩
  | sell => exact ⟨counter, _, _, hcounter, rfl, rfl, rfl, rfl, rfl, .inr ⟨rfl, rfl⟩⟩

/-- The terms that payments are calculated from. -/
structure SameTerms (row row' : FXDealRow) : Prop where
  amount : row'.amount = row.amount
  rate : row'.rate = row.rate
  buyCurrency : row'.buyCurrency = row.buyCurrency
  sellCurrency : row'.sellCurrency = row.sellCurrency
  operationDirection : row'.operationDirection = row.operationDirection

instance (row row' : FXDealRow) : Decidable (SameTerms row row') :=
  decidable_of_iff (row'.amount = row.amount ∧ row'.rate = row.rate ∧
      row'.buyCurrency = row.buyCurrency ∧ row'.sellCurrency = row.sellCurrency ∧
      row'.operationDirection = row.operationDirection)
    ⟨fun ⟨h₁, h₂, h₃, h₄, h₅⟩ => ⟨h₁, h₂, h₃, h₄, h₅⟩,
      fun ⟨h₁, h₂, h₃, h₄, h₅⟩ => ⟨h₁, h₂, h₃, h₄, h₅⟩⟩

theorem SameTerms.trans {row row' row'' : FXDealRow} (h : SameTerms row row')
    (h' : SameTerms row' row'') : SameTerms row row'' :=
  ⟨h'.amount.trans h.amount, h'.rate.trans h.rate, h'.buyCurrency.trans h.buyCurrency,
    h'.sellCurrency.trans h.sellCurrency, h'.operationDirection.trans h.operationDirection⟩

/-- The calculation depends on the terms only. -/
theorem calculatePayments_congr {nsi nsi' : ReferenceData} {id : UUID} {r r' : DealRecord}
    (h : SameTerms r.row r'.row) (valueDate : Date) :
    calculatePayments (FXDeal.ofRecord nsi' id r') valueDate =
      calculatePayments (FXDeal.ofRecord nsi id r) valueDate := by
  simp only [calculatePayments, counterAmount, FXDeal.ofRecord, h.amount, h.rate, h.buyCurrency,
    h.sellCurrency, h.operationDirection]

/-- Settled payments stay settled while terms, value date and payments are left alone. -/
theorem Settled.congr {nsi nsi' : ReferenceData} {id : UUID} {r r' : DealRecord}
    (h : Settled nsi id r) (hterms : SameTerms r.row r'.row)
    (hdate : r'.row.valueDate = r.row.valueDate) (hpayments : r'.payments = r.payments) :
    Settled nsi' id r' := by
  obtain ⟨valueDate, c₁, c₂, p₁, p₂, hvalue, hcalc, hp, hrest⟩ := h
  exact ⟨valueDate, c₁, c₂, p₁, p₂, hdate.trans hvalue,
    (calculatePayments_congr hterms valueDate).trans hcalc, hpayments.trans hp, hrest⟩

/-! ## What a validation stores -/

/-- A positive amount of cents is stored exactly. -/
theorem toDecimal_of_counterAmount {deal : FXDeal} {counter : Decimal} {n : Numeric 18 2}
    (hamount : deal.amount.positive = true) (hrate : deal.rate.positive = true)
    (h : counterAmount deal = some counter) (hn : Numeric.ofDecimal counter = some n) :
    n.toDecimal = counter := by
  refine Numeric.toDecimal_of_ofDecimal (Decimal.quantize_exponent h) (fun hneg => ?_) hn
  rw [Decimal.quantize_negative h, Decimal.mul_negative hamount hrate] at hneg
  cases hneg

/-- The row of an amount that is stored exactly is the calculated payment. -/
theorem PaymentRow.Books.matches {c : CalculatedPayment} {account : String} {p : PaymentRow}
    (h : PaymentRow.Books (c, account) p)
    (hexact : ∀ n : Numeric 18 2, Numeric.ofDecimal c.amount = some n → n.toDecimal = c.amount) :
    p.Matches c := by
  obtain ⟨id, hp⟩ := h
  refine ⟨hexact _ hp.amount, hp.currencyCode, hp.paymentDirection, hp.valueDate, ?_⟩
  have haccount := hp.accountCode
  cases hcode : p.accountCode with
  | none => rw [hcode] at haccount; cases haccount
  | some _ => rfl

/-- The rows of a successful validation are the calculated payments. -/
theorem settled_of_books {nsi nsi' : ReferenceData} {id : UUID} {r r' : DealRecord}
    {valueDate : Date} {assigned : List (CalculatedPayment × String)}
    (hvalid : Validation nsi (FXDeal.ofRecord nsi id r) valueDate assigned)
    (hbooks : List.Forall₂ PaymentRow.Books assigned r'.payments)
    (hterms : SameTerms r.row r'.row) (hdate : r'.row.valueDate = some valueDate) :
    Settled nsi' id r' := by
  obtain ⟨calculated, hcalc, hassign⟩ := hvalid.payments
  obtain ⟨-, hamount, hrate⟩ := of_validate_eq_nil hvalid.issues
  obtain ⟨counter, c₁, c₂, hcounter, rfl, h₁, h₂, hv₁, hv₂, hdir⟩ := calculatePayments_eq_some hcalc
  have hfst : assigned.map Prod.fst = [c₁, c₂] := by
    have hnone : (assignNostro nsi.nostroByCurrency [c₁, c₂]).2 = [] := congrArg Prod.snd hassign
    have h := map_fst_assignNostro hnone
    rwa [hassign] at h
  obtain ⟨⟨c₁, a₁⟩, rest, rfl, rfl, hrest⟩ := List.map_eq_cons_iff.mp hfst
  obtain ⟨⟨c₂, a₂⟩, rest, rfl, rfl, hnil⟩ := List.map_eq_cons_iff.mp hrest
  obtain rfl := List.map_eq_nil_iff.mp hnil
  obtain ⟨p₁, ps, hp₁, hps, hpayments⟩ := List.forall₂_cons_left_iff.mp hbooks
  obtain ⟨p₂, ps', hp₂, hps', rfl⟩ := List.forall₂_cons_left_iff.mp hps
  obtain rfl := List.forall₂_nil_left_iff.mp hps'
  have hm₁ : p₁.Matches c₁ := hp₁.matches fun n hn => by
    rw [show c₁.amount = r.row.amount.toDecimal from h₁] at hn ⊢
    rw [Numeric.ofDecimal_toDecimal] at hn
    cases hn
    rfl
  have hm₂ : p₂.Matches c₂ := hp₂.matches fun n hn => by
    rw [show c₂.amount = counter from h₂] at hn ⊢
    exact toDecimal_of_counterAmount hamount hrate hcounter hn
  refine ⟨valueDate, c₁, c₂, p₁, p₂, hdate, ?_, hpayments, hm₁, hm₂, ?_, ?_, ?_⟩
  · exact (calculatePayments_congr hterms valueDate).trans hcalc
  · rw [hm₁.valueDate, hv₁]
  · rw [hm₂.valueDate, hv₂]
  · rwa [hm₁.paymentDirection, hm₂.paymentDirection]

/-! ## The invariant -/

/-- **The invariant of a record**: its payments are settled or there are none, and there are some
when the deal is valid and from its submission to its execution. -/
structure PaymentsInv (nsi : ReferenceData) (id : UUID) (r : DealRecord) : Prop where
  settled : r.payments = [] ∨ Settled nsi id r
  valid : r.row.validationStatus = .valid → r.payments ≠ []
  submitted : r.row.dealState.submitted = true → r.payments ≠ []

theorem PaymentsInv.of_settled {nsi : ReferenceData} {id : UUID} {r : DealRecord}
    (h : Settled nsi id r) : PaymentsInv nsi id r :=
  ⟨.inr h, fun _ => h.ne_nil, fun _ => h.ne_nil⟩

/-- The invariant survives what leaves terms, value date and payments alone and makes no deal
valid or submitted. -/
theorem PaymentsInv.congr {nsi nsi' : ReferenceData} {id : UUID} {r r' : DealRecord}
    (h : PaymentsInv nsi id r) (hterms : SameTerms r.row r'.row)
    (hdate : r'.row.valueDate = r.row.valueDate) (hpayments : r'.payments = r.payments)
    (hvalid : r'.row.validationStatus = .valid → r.payments ≠ [])
    (hsubmitted : r'.row.dealState.submitted = true → r.payments ≠ []) :
    PaymentsInv nsi' id r' where
  settled := h.settled.imp hpayments.trans fun hs => hs.congr hterms hdate hpayments
  valid := hpayments ▸ hvalid
  submitted := hpayments ▸ hsubmitted

/-- A change of the decisions about a deal leaves its terms alone. -/
theorem sameTerms_write {ch : DealChanges} {now : Timestamp} {row : FXDealRow}
    (hamount : ch.amount = none) (hrate : ch.rate = none) (hbuy : ch.buyCurrency = none)
    (hsell : ch.sellCurrency = none) (hdirection : ch.operationDirection = none) :
    SameTerms row (ch.write now row) := by
  constructor <;> simp [*]

theorem paymentsInv_step {db : Database} {input : Input}
    (hP : ∀ id r, db.deals.lookup id = some r → ∀ nsi, PaymentsInv nsi id r) :
    ∀ id r, (step db input).2.deals.lookup id = some r → ∀ nsi, PaymentsInv nsi id r := by
  refine forall_records_step ?_ ?_ hP
  · intro env user payload id row _ hrow nsi
    have hstored := ofDeal_eq_ok hrow
    exact ⟨.inl rfl, by simp [hstored.validationStatus, newDeal],
      by simp [hstored.dealState, newDeal, DealState.submitted]⟩
  · intro env user op id result r r' added hop hrole hr hchange nsi
    have hinv := hP id r hr nsi
    cases hchange with
    | edited hstate _ hch _ =>
      have hnil : r.payments.filter (fun p => p.id ∉ r.payments.map PaymentRow.id) = [] :=
        List.filter_eq_nil_iff.mpr fun p hp => by simpa using ⟨p, hp, rfl⟩
      exact ⟨.inl hnil, by simp [hch.validationStatus],
        by simp [hch.dealState, hstate, DealState.submitted]⟩
    | invalidated _ _ _ _ =>
      refine hinv.congr (sameTerms_write rfl rfl rfl rfl rfl) (by simp) rfl (by simp) ?_
      simpa using hinv.submitted
    | validated _ hvalid hrows hfresh _ =>
      rw [filter_replaced hfresh]
      exact .of_settled
        (settled_of_books hvalid hrows (sameTerms_write rfl rfl rfl rfl rfl) (by simp))
    | moved hmoves _ _ =>
      refine hinv.congr ⟨rfl, rfl, rfl, rfl, rfl⟩ rfl rfl hinv.valid ?_
      cases hmoves with
      | submit _ hvalid => exact fun _ => hinv.valid hvalid
      | takeForEdit _ => simp [DealChanges.apply, DealState.submitted]
      | cancel _ => simp [DealChanges.apply, DealState.submitted]
    | decided hdecision _ =>
      refine hinv.congr ⟨rfl, rfl, rfl, rfl, rfl⟩ rfl rfl hinv.valid fun _ => hinv.submitted ?_
      simp [hdecision.waiting, DealState.submitted]

/-- The invariant holds of every record, in every run. -/
theorem paymentsInv_run {nsi : ReferenceData} {history : List ServiceTurn} {db : Database}
    (h : Run step (Database.initial nsi) history db) :
    ∀ id r, db.deals.lookup id = some r → ∀ nsi, PaymentsInv nsi id r := by
  refine Run.state_invariant (P := fun db => ∀ id r, db.deals.lookup id = some r →
    ∀ nsi, PaymentsInv nsi id r) ?_ (fun db input => paymentsInv_step) h
  intro id r hr
  simp at hr

/-- An approval hands over a deal with payments. -/
theorem payments_handedOver {env : Env} {user : UserClaims} {op : Operation} {db : Database}
    (hP : ∀ id r, db.deals.lookup id = some r → ∀ nsi, PaymentsInv nsi id r) :
    ∀ call ∈ (execute env user op db).sends, call.deal.payments ≠ [] := by
  intro call hcall
  obtain ⟨id, _, r, -, hr, happrovable, rfl⟩ := handedOver_of_sent hcall
  have hne := (hP id r hr db.nsi).submitted (by simp [happrovable.state, DealState.submitted])
  simpa [handedOver, decidedDeal] using hne

/-- **Payments match the terms** in every run: each deal's payments are those that the calculation
yields for its stored terms or there are none; there are some when the deal is valid and from its
submission to its execution; and every deal that was ever handed over had payments. -/
theorem payments_match_terms {nsi : ReferenceData} {history : List ServiceTurn} {db : Database}
    (h : Run step (Database.initial nsi) history db) :
    (∀ id r, db.deals.lookup id = some r →
      (r.payments = [] ∨ Settled db.nsi id r) ∧
        (r.row.validationStatus = .valid ∨ r.row.dealState.submitted = true → r.payments ≠ [])) ∧
      ∀ t ∈ history, ∀ outcome, t.output = some outcome →
        ∀ call ∈ outcome.sends, call.deal.payments ≠ [] := by
  -- the invariant is for any reference data, which an input may replace
  have hinv : (∀ id r, db.deals.lookup id = some r → ∀ nsi, PaymentsInv nsi id r) ∧
      ∀ t ∈ history, ∀ outcome, t.output = some outcome →
        ∀ call ∈ outcome.sends, call.deal.payments ≠ [] := by
    refine Run.invariant (P := fun history db =>
      (∀ id r, db.deals.lookup id = some r → ∀ nsi, PaymentsInv nsi id r) ∧
        ∀ t ∈ history, ∀ outcome, t.output = some outcome →
          ∀ call ∈ outcome.sends, call.deal.payments ≠ []) ?_ ?_ h
    · exact ⟨fun id r hr => by simp at hr, fun t ht => by cases ht⟩
    · rintro history db input ⟨hP, hpast⟩
      refine ⟨paymentsInv_step hP, List.forall_mem_append.mpr ⟨hpast, ?_⟩⟩
      intro t ht outcome houtcome
      obtain rfl := List.mem_singleton.mp ht
      cases input with
      | request env user op => cases houtcome; exact payments_handedOver hP
      | referenceData nsi => cases houtcome
  refine ⟨fun id r hr => ?_, hinv.2⟩
  have hr := hinv.1 id r hr db.nsi
  exact ⟨hr.settled, fun hor => hor.elim hr.valid hr.submitted⟩

/-- The submitted deal of the desk has its payments. -/
theorem payments_match_terms_desk :
    (Desk.submitted.payments = [] ∨
        Settled (Desk.after Desk.submission).nsi Desk.dealId Desk.submitted) ∧
      Desk.submitted.payments ≠ [] :=
  have h := (payments_match_terms (run_serveAll step (Database.initial Desk.nsi)
    Desk.submission)).1 Desk.dealId Desk.submitted (Option.some_get _).symm
  ⟨h.1, h.2 (.inr (by decide +kernel))⟩

end FxDealManager
