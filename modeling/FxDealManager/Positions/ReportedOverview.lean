import FxDealManager.Positions.Ledger
import FxDealManager.Positions.ReportErrors

/-!
# The overview adds up

As long as all sums stay within the digits of the context, the overview of a report shows each
currency of the rows and of the open payments once, in the order of the codes, with the sum of its
positions, its open exposure, and both added, in whatever order the rows and the payments come.

## Main definitions

* `positionsOf`, `paidAmounts`: the positions of the rows, and the amounts of the open payments
* `WithinContext`: the sums of a currency stay in the context
* `AddsRows`: what the overview shows

## Main results

* `within_of_hundredths`: amounts in hundredths stay in the context unless they are huge
* `exists_overview`: there is an overview
* `addsRows_of_overview`: it shows the sums
* `overview_adds_up`: both, and that the order of the rows and the payments does not matter
* `shown_accounts`: the overview of the accounts shows the same
-/

namespace FxDealManager

open DecimalArithmetic DecimalText Dictionaries Transactional

/-! ## The amounts of a currency -/

section Amounts

variable (u : Unicode)

/-- The positions of a currency in the rows that are objects, a missing one as zero. -/
def positionsOf (rows : List Json) (code : String) : List ℚ :=
  ((rows.filter Json.isObject).filter fun row => codeOf u row = code).map fun row =>
    fieldValue u (row.get "current_position")

/-- The amounts of the open payments of a currency in one direction. -/
def paidAmounts (db : Database) (code : String) (direction : PaymentDirection) : List ℚ :=
  ((openPayments db).filter fun p =>
    p.currencyCode.val = code ∧ p.paymentDirection = direction).map fun p =>
      p.amount.toDecimal.value

/-- The numbers of the rows that are objects are finite or missing. -/
def NumberRows (rows : List Json) : Prop :=
  ∀ row ∈ rows, row.isObject = true → ∀ key ∈ numericFields, NumberField u (row.get key)

/-- The sums of a currency stay in the context, those of the rows and of the payments one after
another, and both added. -/
structure WithinContext (db : Database) (rows : List Json) (code : String) : Prop where
  positions : Context.default.Sums (positionsOf u rows code)
  payments : Context.default.Sums ((exposureIn db code).map Decimal.value)
  projected : Context.default.Number ((positionsOf u rows code).sum + netExposure db code)

/-- What the overview shows: the currencies of the rows and of the open payments in the order of
their codes, each with its sums. -/
structure AddsRows (db : Database) (rows : List Json) (response : FxPositionsResponse) : Prop where
  ascending : (response.currencies.map FxPositionCurrencyResponse.currencyCode).Pairwise (· < ·)
  codes : ∀ code, code ∈ response.currencies.map FxPositionCurrencyResponse.currencyCode ↔
    code ≠ "" ∧ ((∃ row ∈ rows, row.isObject = true ∧ codeOf u row = code) ∨
      ∃ p ∈ openPayments db, p.currencyCode.val = code)
  currentPosition : ∀ c ∈ response.currencies,
    c.currentPosition.value = (positionsOf u rows c.currencyCode).sum
  openExposure : ∀ c ∈ response.currencies, c.openExposure.value =
    (paidAmounts db c.currencyCode .incoming).sum - (paidAmounts db c.currencyCode .outgoing).sum
  projectedPosition : ∀ c ∈ response.currencies,
    c.projectedPosition.value = c.currentPosition.value + c.openExposure.value

variable {u} {db : Database} {rows : List Json} {code : String}

theorem value_positionOf (row : Json) :
    (positionOf u row).value = fieldValue u (row.get "current_position") := by
  rw [positionOf, fieldValue]
  split
  next d _ =>
    by_cases hzero : d.coefficient = 0
    · rw [if_pos hzero, Decimal.value_zero]
      simp [Decimal.value, hzero]
    · rw [if_neg hzero]
  next => exact Decimal.value_zero

/-- The signed amounts of payments, taken apart. -/
theorem netExposure_eq_sub (db : Database) (code : String) :
    netExposure db code =
      (paidAmounts db code .incoming).sum - (paidAmounts db code .outgoing).sum := by
  simp only [netExposure, net, paidAmounts]
  induction openPayments db with
  | nil => simp
  | cons p payments ih =>
    have hcurrency : p.toPayment.currencyCode = p.currencyCode.val := rfl
    by_cases hcode : p.currencyCode.val = code
    · rw [List.map_cons, List.filter_cons_of_pos (by simpa [hcurrency] using hcode),
        List.map_cons, List.sum_cons, ih]
      cases hdirection : p.paymentDirection with
      | incoming =>
        have hnet : p.toPayment.net = p.amount.toDecimal.value := by
          simp [Payment.net, PaymentRow.toPayment, hdirection]
        rw [List.filter_cons_of_pos (by simp [hcode, hdirection]),
          List.filter_cons_of_neg (by simp [hdirection]), List.map_cons, List.sum_cons, hnet,
          add_sub_assoc]
      | outgoing =>
        have hnet : p.toPayment.net = -p.amount.toDecimal.value := by
          simp [Payment.net, PaymentRow.toPayment, hdirection]
        rw [List.filter_cons_of_neg (by simp [hdirection]),
          List.filter_cons_of_pos (by simp [hcode, hdirection]), List.map_cons, List.sum_cons, hnet]
        ring
    · rw [List.map_cons, List.filter_cons_of_neg (by simpa [hcurrency] using hcode),
        List.filter_cons_of_neg (by simp [hcode]), List.filter_cons_of_neg (by simp [hcode]), ih]

theorem map_value_positionOf (rows : List Json) (code : String) :
    (((rows.filter Json.isObject).filter fun row => codeOf u row = code).map
      (positionOf u)).map Decimal.value = positionsOf u rows code := by
  rw [List.map_map]
  exact List.map_congr_left fun row _ => value_positionOf row

/-- The exposure is added without rounding. -/
theorem WithinContext.value_exposure (h : WithinContext u db rows code) :
    ((openExposureByCurrency db).amount code).value = netExposure db code := by
  rw [exposure_amount, ← exposureIn_sum]
  exact Context.value_foldl_add h.payments

/-- The positions are added without rounding or an overflow, and the exposure to their sum. -/
theorem WithinContext.exists_sums (h : WithinContext u db rows code) :
    ∃ total projected,
      Context.default.sum (((rows.filter Json.isObject).filter fun row => codeOf u row = code).map
        (positionOf u)) = some total ∧
      total.value = (positionsOf u rows code).sum ∧
      Context.default.add total ((openExposureByCurrency db).amount code) = some projected ∧
      projected.value = total.value + ((openExposureByCurrency db).amount code).value := by
  have hpositions := h.positions
  rw [← map_value_positionOf] at hpositions
  obtain ⟨total, htotal, hvalue⟩ := Context.exists_sum hpositions
  rw [map_value_positionOf] at hvalue
  have hnumber : Context.default.Number
      (total.value + ((openExposureByCurrency db).amount code).value) := by
    rw [hvalue, h.value_exposure]
    exact h.projected
  obtain ⟨projected, hprojected, hsum⟩ := Context.add_number hnumber
  exact ⟨total, projected, htotal, hvalue, hprojected, hsum⟩

/-- The signed amount of a payment is its amount, or what is left of it from zero. -/
theorem value_signed (p : PaymentRow) :
    p.signed.value = p.amount.toDecimal.value ∨ p.signed.value = -p.amount.toDecimal.value := by
  rw [signed_value]
  cases hdirection : p.paymentDirection with
  | incoming => exact .inl (by simp [Payment.net, PaymentRow.toPayment, hdirection])
  | outgoing => exact .inr (by simp [Payment.net, PaymentRow.toPayment, hdirection])

/-- An amount is stored in hundredths. -/
theorem amount_mem_hundredths (p : PaymentRow) :
    p.amount.toDecimal.value ∈ AddSubgroup.zmultiples ((10 : ℚ) ^ (-2 : ℤ)) := by
  have hscale : p.amount.toDecimal.exponent = -2 := rfl
  rw [Decimal.value, hscale]
  exact AddSubgroup.mem_zmultiples_iff.mpr ⟨_, zsmul_eq_mul _ _⟩

/-- **Hundredths stay in the context**, if all positions and amounts together are not too large. -/
theorem within_of_hundredths
    (hrows : ∀ row ∈ rows, row.isObject = true → fieldValue u (row.get "current_position") ∈
      AddSubgroup.zmultiples ((10 : ℚ) ^ (-2 : ℤ)))
    (hsmall : ((rows.filter Json.isObject).map fun row =>
        |fieldValue u (row.get "current_position")|).sum +
      ((openPayments db).map fun p => |p.amount.toDecimal.value|).sum < 10 ^ 26) (code : String) :
    WithinContext u db rows code := by
  have hsub : (positionsOf u rows code ++ (exposureIn db code).map Decimal.value).Sublist
      (((rows.filter Json.isObject).map fun row => fieldValue u (row.get "current_position")) ++
        (openPayments db).map fun p => p.signed.value) := by
    rw [exposureIn, List.map_map]
    exact (List.filter_sublist.map _).append (List.filter_sublist.map _)
  have hnumber : ∀ qs : List ℚ,
      qs.Sublist (positionsOf u rows code ++ (exposureIn db code).map Decimal.value) →
        Context.default.Number qs.sum := by
    intro qs hqs
    refine Context.number_sum (k := -2) (by decide) (by decide) ?_ ?_ (hqs.trans hsub)
    · simp only [List.forall_mem_append, List.forall_mem_map]
      refine ⟨fun row hrow => ?_, fun p _ => ?_⟩
      · obtain ⟨hmem, hobject⟩ := List.mem_filter.mp hrow
        exact hrows row hmem hobject
      · rcases value_signed p with hvalue | hvalue
        · rw [hvalue]
          exact amount_mem_hundredths p
        · rw [hvalue]
          exact neg_mem (amount_mem_hundredths p)
    · have habs : (fun p : PaymentRow => |p.signed.value|) =
          fun p => |p.amount.toDecimal.value| := by
        funext p
        rcases value_signed p with hvalue | hvalue
        · rw [hvalue]
        · rw [hvalue, abs_neg]
      rw [List.map_append, List.sum_append, List.map_map, List.map_map]
      simp only [Function.comp_def, habs]
      exact hsmall.trans_le (by norm_num [Context.default])
  refine ⟨fun n => hnumber _ ?_, fun n => hnumber _ ?_, ?_⟩
  · exact (List.take_sublist n _).trans (List.sublist_append_left _ _)
  · exact (List.take_sublist n _).trans (List.sublist_append_right _ _)
  · rw [← exposureIn_sum, ← List.sum_append]
    exact hnumber _ (List.Sublist.refl _)

end Amounts

/-! ## The overview of a report -/

section Overview

variable {u : Unicode} {db : Database} {rows : List Json} {report : Json} {onDate : Date}
  {response : FxPositionsResponse}

/-- The name of each row that is an object is a text or missing. -/
def NamedRows (rows : List Json) : Prop :=
  ∀ row ∈ rows, row.isObject = true → (nameOf (nameValue row)).isSome

theorem reportRows_eq (h : report.get "positions" = some (.arr rows)) :
    reportRows report = rows.filter Json.isObject := by
  rw [reportRows, h]

/-- The positions of a currency, from the rows of the report. -/
theorem positionsIn_of_report {accounts : List FxPositionAccountResponse}
    (hreport : report.get "positions" = some (.arr rows))
    (haccounts : accountsOf u report = .ok accounts) (code : String) :
    positionsIn accounts code =
      ((rows.filter Json.isObject).filter fun row => codeOf u row = code).map (positionOf u) := by
  rw [positionsIn_of_rows (accountsOf_eq_ok.mp haccounts).2, reportRows_eq hreport]

/-- **There is an overview** of rows with names, numbers and sums. -/
theorem exists_overview (hreport : report.get "positions" = some (.arr rows))
    (hnames : NamedRows rows) (hnumbers : NumberRows u rows)
    (hwithin : ∀ code, WithinContext u db rows code) :
    ∃ response, overviewOf u onDate report (openExposureByCurrency db) = .ok response := by
  refine exists_overviewOf_iff.mpr ⟨?_, ?_, ?_, fun code => ?_⟩
  · cases report with
    | obj fields => rfl
    | _ => cases hreport
  · rintro value hvalue -
    rw [hreport] at hvalue
    cases hvalue
    rfl
  · rw [reportRows_eq hreport]
    intro row hrow
    obtain ⟨hmem, hobject⟩ := List.mem_filter.mp hrow
    exact ⟨hnames row hmem hobject, hnumbers row hmem hobject⟩
  · rw [reportRows_eq hreport]
    obtain ⟨total, projected, htotal, -, hprojected, -⟩ := (hwithin code).exists_sums
    exact ⟨total, htotal, fun _ => by rw [hprojected]; rfl⟩

/-- An overview shows the sums if it shows those of its accounts. -/
theorem addsRows_of_values {accounts : List FxPositionAccountResponse}
    (hreport : report.get "positions" = some (.arr rows))
    (haccounts : accountsOf u report = .ok accounts)
    (hascending :
      (response.currencies.map FxPositionCurrencyResponse.currencyCode).Pairwise (· < ·))
    (hcodes : ∀ code, code ∈ response.currencies.map FxPositionCurrencyResponse.currencyCode ↔
      code ≠ "" ∧ (positionsIn accounts code ≠ [] ∨ code ∈ (openExposureByCurrency db).keys))
    (hvalues : ∀ c ∈ response.currencies,
      c.currentPosition.value = (positionsOf u rows c.currencyCode).sum ∧
        c.openExposure.value = netExposure db c.currencyCode ∧
        c.projectedPosition.value = c.currentPosition.value + c.openExposure.value) :
    AddsRows u db rows response := by
  have hrows : ∀ code, positionsIn accounts code ≠ [] ↔
      ∃ row ∈ rows, row.isObject = true ∧ codeOf u row = code := by
    intro code
    rw [positionsIn_of_report hreport haccounts, Ne, List.map_eq_nil_iff, List.filter_eq_nil_iff]
    simp only [List.mem_filter, decide_eq_true_eq, not_forall, not_not, exists_prop, and_assoc]
  refine ⟨hascending, fun code => ?_, fun c hc => (hvalues c hc).1, fun c hc => ?_,
    fun c hc => (hvalues c hc).2.2⟩
  · rw [hcodes, hrows, mem_keys_exposure]
  · rw [(hvalues c hc).2.1, netExposure_eq_sub]

/-- **It shows the sums.** -/
theorem addsRows_of_overview (hreport : report.get "positions" = some (.arr rows))
    (hwithin : ∀ code, WithinContext u db rows code)
    (h : overviewOf u onDate report (openExposureByCurrency db) = .ok response) :
    AddsRows u db rows response := by
  obtain ⟨accounts, haccounts, h⟩ := bind_eq_ok.mp h
  obtain ⟨currencies, hcurrencies, h⟩ := bind_eq_ok.mp h
  cases h
  obtain ⟨hascending, hcodes, hshown⟩ := currenciesOf_spec hcurrencies
  refine addsRows_of_values hreport haccounts hascending hcodes fun c hc => ?_
  obtain ⟨hcurrent, hopen, hprojected⟩ := hshown c hc
  obtain ⟨total, projected, htotal, hvalue, hadd, hsum⟩ := (hwithin c.currencyCode).exists_sums
  rw [positionsIn_of_report hreport haccounts] at hcurrent
  cases htotal.symm.trans hcurrent
  rw [hopen] at hprojected ⊢
  cases hadd.symm.trans hprojected
  exact ⟨hvalue, (hwithin c.currencyCode).value_exposure, hsum⟩

/-- **The overview of the accounts** that a report names shows the sums of its rows as well. -/
theorem addsRows_of_accounts {user : UserClaims} {env : Env}
    {accounts : List FxPositionAccountResponse}
    (hreport : report.get "positions" = some (.arr rows))
    (hwithin : ∀ code, WithinContext u db rows code)
    (haccounts : accountsOf u report = .ok accounts)
    (h : ((positionsOverview user onDate (.ok accounts)).run env db).1 = .ok response) :
    AddsRows u db rows response := by
  obtain ⟨hnodup, hamount, hkeys⟩ := positionTotals_spec accounts db
  have hcurrencies := overview_currencies h
  rw [positionCurrencies] at hcurrencies
  generalize positionTotals accounts (openExposureByCurrency db) = totals
    at hnodup hamount hkeys hcurrencies
  have hitems : response.currencies.map FxPositionCurrencyResponse.currencyCode =
      ((totals.mergeSort fun a b => a.1 ≤ b.1).filter fun e => e.1 ≠ "").map Prod.fst := by
    rw [hcurrencies, List.map_map]
    rfl
  refine addsRows_of_values hreport haccounts ?_ (fun code => ?_) fun c hc => ?_
  · rw [hitems]
    exact List.pairwise_map.mpr ((pairwise_mergeSort_of_nodup hnodup).filter _)
  · have hpositions : positionsIn accounts code ≠ [] ↔
        ∃ account ∈ accounts, account.currencyCode = code := by
      rw [positionsIn, Ne, List.map_eq_nil_iff, List.filter_eq_nil_iff]
      simp only [decide_eq_true_eq, not_forall, not_not, exists_prop]
    rw [hpositions, mem_keys_exposure, ← hkeys, hitems]
    simp only [List.mem_map, List.mem_filter, List.mem_mergeSort, decide_eq_true_eq, Amounts.keys]
    constructor
    · rintro ⟨e, ⟨he, hcode⟩, rfl⟩
      exact ⟨hcode, e, he, rfl⟩
    · rintro ⟨hcode, e, he, rfl⟩
      exact ⟨e, ⟨he, hcode⟩, rfl⟩
  · rw [hcurrencies] at hc
    obtain ⟨⟨code, current⟩, he, rfl⟩ := List.mem_map.mp hc
    have hcurrent : totals.amount code = current :=
      Amounts.amount_of_mem hnodup (List.mem_mergeSort.mp (List.mem_filter.mp he).1)
    have hposition : current.value = (positionsOf u rows code).sum := by
      have hpositions := (hwithin code).positions
      rw [← map_value_positionOf] at hpositions ⊢
      rw [← hcurrent, hamount, positionsIn_of_report hreport haccounts]
      exact Context.value_foldl_add hpositions
    have hprojected : Context.default.Number
        (current.value + ((openExposureByCurrency db).amount code).value) := by
      rw [hposition, (hwithin code).value_exposure]
      exact (hwithin code).projected
    have hsum := Context.value_add_of_number hprojected
    exact ⟨hposition, (hwithin code).value_exposure, hsum⟩

/-- What is shown of a currency, as values. -/
def FxPositionCurrencyResponse.shown (c : FxPositionCurrencyResponse) : String × ℚ × ℚ × ℚ :=
  (c.currencyCode, c.currentPosition.value, c.openExposure.value, c.projectedPosition.value)

/-- What there is to show of a currency. -/
def amountsOf (u : Unicode) (db : Database) (rows : List Json) (code : String) :
    String × ℚ × ℚ × ℚ :=
  let position := (positionsOf u rows code).sum
  let exposure := (paidAmounts db code .incoming).sum - (paidAmounts db code .outgoing).sum
  (code, position, exposure, position + exposure)

theorem AddsRows.map_shown (h : AddsRows u db rows response) :
    response.currencies.map FxPositionCurrencyResponse.shown =
      (response.currencies.map FxPositionCurrencyResponse.currencyCode).map
        (amountsOf u db rows) := by
  rw [List.map_map]
  refine List.map_congr_left fun c hc => ?_
  simp only [FxPositionCurrencyResponse.shown, Function.comp_apply, amountsOf,
    h.projectedPosition c hc, h.currentPosition c hc, h.openExposure c hc]

/-- **The order does not matter**: overviews of the same rows and payments in another order show the
same. -/
theorem AddsRows.perm {db' : Database} {rows' : List Json} {response' : FxPositionsResponse}
    (h : AddsRows u db rows response) (h' : AddsRows u db' rows' response')
    (hrows : rows'.Perm rows) (hpayments : (openPayments db').Perm (openPayments db)) :
    response'.currencies.map FxPositionCurrencyResponse.shown =
      response.currencies.map FxPositionCurrencyResponse.shown := by
  have hcodes : response'.currencies.map FxPositionCurrencyResponse.currencyCode =
      response.currencies.map FxPositionCurrencyResponse.currencyCode :=
    h'.ascending.eq_of_mem_iff h.ascending fun code => by
      rw [h'.codes, h.codes]
      simp only [hrows.mem_iff, hpayments.mem_iff]
  have hamounts : amountsOf u db' rows' = amountsOf u db rows := by
    funext code
    have hpositions : (positionsOf u rows' code).Perm (positionsOf u rows code) :=
      ((hrows.filter _).filter _).map _
    have hpaid : ∀ direction,
        (paidAmounts db' code direction).Perm (paidAmounts db code direction) :=
      fun direction => (hpayments.filter _).map _
    simp only [amountsOf, hpositions.sum_eq, (hpaid _).sum_eq]
  rw [h'.map_shown, h.map_shown, hcodes, hamounts]

/-- An overview that is answered is the one of the report. -/
theorem overviewOf_of_answered {user : UserClaims} {env : Env}
    (h : ((reportedOverview u user onDate (.ok report)).run env db).1 = .ok (.ok response)) :
    overviewOf u onDate report (openExposureByCurrency db) = .ok response := by
  have hstop : ∀ c : ServiceProgress, c.StopsIn fun (result : Except ServiceError
      (Except OverviewError FxPositionsResponse)) _ => ∀ response, result = .ok (.ok response) →
        overviewOf u onDate report (openExposureByCurrency db) = .ok response := by
    rintro c err c' - - - response ⟨⟩
  have hensures : (reportedOverview u user onDate (.ok report)).Ensures env (Progress.start db)
      fun result _ => ∀ response, result = .ok (.ok response) →
        overviewOf u onDate report (openExposureByCurrency db) = .ok response := by
    refine .require_bind (hstop _) fun _ => .query_bind (hstop _) ?_
    exact .pure fun response hresponse => Except.ok.inj hresponse
  exact hensures.run response h

/-- **The overview of a report** shows the same as the overview of the accounts that it names. -/
theorem shown_accounts {user : UserClaims} {env : Env} {accounts : List FxPositionAccountResponse}
    {response' : FxPositionsResponse} (hreport : report.get "positions" = some (.arr rows))
    (hwithin : ∀ code, WithinContext u db rows code)
    (haccounts : accountsOf u report = .ok accounts)
    (h : ((reportedOverview u user onDate (.ok report)).run env db).1 = .ok (.ok response))
    (h' : ((positionsOverview user onDate (.ok accounts)).run env db).1 = .ok response') :
    response'.currencies.map FxPositionCurrencyResponse.shown =
      response.currencies.map FxPositionCurrencyResponse.shown :=
  (addsRows_of_overview hreport hwithin (overviewOf_of_answered h)).perm
    (addsRows_of_accounts hreport hwithin haccounts h') (.refl _) (.refl _)

/-- **The overview adds up**, if the sums of each currency stay in the context: a report with names
and numbers is answered, what is answered shows the sums, and it is the same for the rows and the
payments in another order. -/
theorem overview_adds_up {user : UserClaims} {env : Env}
    (hreport : report.get "positions" = some (.arr rows))
    (hwithin : ∀ code, WithinContext u db rows code) :
    (user.role ∈ [.positioner, .admin, .auditor] → rejects env 0 = false → NamedRows rows →
      NumberRows u rows → ∃ response,
        ((reportedOverview u user onDate (.ok report)).run env db).1 = .ok (.ok response)) ∧
    ∀ response, ((reportedOverview u user onDate (.ok report)).run env db).1 = .ok (.ok response) →
      AddsRows u db rows response ∧
      ∀ (user' : UserClaims) (env' : Env) (onDate' : Date) (report' : Json) (rows' : List Json)
        (db' : Database) (response' : FxPositionsResponse),
        report'.get "positions" = some (.arr rows') → rows'.Perm rows →
          (openPayments db').Perm (openPayments db) → (∀ code, WithinContext u db' rows' code) →
          ((reportedOverview u user' onDate' (.ok report')).run env' db').1 = .ok (.ok response') →
            response'.currencies.map FxPositionCurrencyResponse.shown =
              response.currencies.map FxPositionCurrencyResponse.shown := by
  constructor
  · intro hrole hcall hnames hnumbers
    have hexists : ∃ response, overviewOf u onDate report (openExposureByCurrency db) =
        .ok response := exists_overview hreport hnames hnumbers hwithin
    obtain ⟨response, hresponse⟩ := hexists
    refine ⟨response, ?_⟩
    rw [run_reportedOverview hrole hcall]
    exact congrArg Except.ok hresponse
  · intro response hanswered
    have hadds := addsRows_of_overview hreport hwithin (overviewOf_of_answered hanswered)
    refine ⟨hadds, ?_⟩
    intro user' env' onDate' report' rows' db' response' hreport' hrows hpayments hwithin'
      hanswered'
    have hadds' := addsRows_of_overview hreport' hwithin' (overviewOf_of_answered hanswered')
    exact hadds.perm hadds' hrows hpayments

end Overview

namespace Desk

/-- A row in which the position is missing. -/
def dollarRow : Json := .obj [("currency_code", .str "usd")]

/-- A report of rows. -/
def reporting (rows : List Json) : Json := .obj [("positions", .arr rows)]

theorem reporting_get (rows : List Json) :
    (reporting rows).get "positions" = some (.arr rows) := rfl

/-- The answer to the positioner, next to an open deal of 100 dollars against 110 euros. -/
def answer (rows : List Json) : Except ServiceError (Except OverviewError FxPositionsResponse) :=
  ((reportedOverview ascii positioner today (.ok (reporting rows))).run (env 9)
    (after submission)).1

theorem positions_rows : fieldValue ascii (roubleRow.get "current_position") = 1000000 ∧
    fieldValue ascii (dollarRow.get "current_position") = 0 := by
  constructor
  · rw [fieldValue, dec_roubleRow]
    norm_num [Decimal.value]
  · rfl

theorem readableRows {rows : List Json} (hrows : rows.Perm [roubleRow, dollarRow]) :
    NamedRows rows ∧ NumberRows ascii rows := by
  have hread : ∀ row ∈ rows, RowReadable ascii row := by
    intro row hrow
    have hrow' : row = roubleRow ∨ row = dollarRow := by simpa using hrows.mem_iff.mp hrow
    rcases hrow' with rfl | rfl
    · exact readable_roubles.rows _ (List.mem_singleton.mpr rfl)
    · refine ⟨rfl, ?_⟩
      simp only [numericFields, List.forall_mem_cons]
      exact ⟨⟨none, rfl, rfl⟩, ⟨none, rfl, rfl⟩, ⟨none, rfl, rfl⟩, ⟨none, rfl, rfl⟩, by simp⟩
  exact ⟨fun row hrow _ => (hread row hrow).name, fun row hrow _ => (hread row hrow).numbers⟩

theorem amounts_submission :
    (openPayments (after submission)).map (fun p => p.amount.unscaled.natAbs) = [10000, 11000] := by
  decide +kernel

theorem within_submission {rows : List Json} (hrows : rows.Perm [roubleRow, dollarRow])
    (code : String) : WithinContext ascii (after submission) rows code := by
  have hpositions : ((rows.filter Json.isObject).map fun row =>
      |fieldValue ascii (row.get "current_position")|).sum = 1000000 := by
    have hobjects : [roubleRow, dollarRow].filter Json.isObject = [roubleRow, dollarRow] := rfl
    rw [((hrows.filter _).map _).sum_eq, hobjects]
    simp [positions_rows]
  have hamounts : ((openPayments (after submission)).map fun p =>
      |p.amount.toDecimal.value|).sum = 210 := by
    have hvalues : ((openPayments (after submission)).map fun p => |p.amount.toDecimal.value|) =
        ((openPayments (after submission)).map fun p => p.amount.unscaled.natAbs).map
          fun n : ℕ => (n : ℚ) * (10 : ℚ) ^ (-2 : ℤ) := by
      rw [List.map_map]
      exact List.map_congr_left fun p _ => Decimal.abs_value _
    rw [hvalues, amounts_submission]
    norm_num
  refine within_of_hundredths (fun row hrow _ => ?_) ?_ code
  · have hrow' : row = roubleRow ∨ row = dollarRow := by simpa using hrows.mem_iff.mp hrow
    rcases hrow' with rfl | rfl
    · rw [positions_rows.1]
      exact AddSubgroup.mem_zmultiples_iff.mpr ⟨100000000, by norm_num⟩
    · rw [positions_rows.2]
      exact zero_mem _
  · rw [hpositions, hamounts]
    norm_num

end Desk

/-- The overviews of a row in roubles and one in dollars, in both orders. -/
theorem overview_adds_up_desk : ∃ response response' : FxPositionsResponse,
    Desk.answer [Desk.roubleRow, Desk.dollarRow] = .ok (.ok response) ∧
    Desk.answer [Desk.dollarRow, Desk.roubleRow] = .ok (.ok response') ∧
    AddsRows Desk.ascii (Desk.after Desk.submission) [Desk.roubleRow, Desk.dollarRow] response ∧
    response'.currencies.map FxPositionCurrencyResponse.shown =
      response.currencies.map FxPositionCurrencyResponse.shown := by
  have hanswered : ∀ rows : List Json, rows.Perm [Desk.roubleRow, Desk.dollarRow] →
      ∃ response, Desk.answer rows = .ok (.ok response) := fun rows hrows =>
    (overview_adds_up (Desk.reporting_get rows) (Desk.within_submission hrows)).1 (by decide) rfl
      (Desk.readableRows hrows).1 (Desk.readableRows hrows).2
  have hswap : [Desk.dollarRow, Desk.roubleRow].Perm [Desk.roubleRow, Desk.dollarRow] :=
    .swap _ _ []
  obtain ⟨response, hresponse⟩ := hanswered _ (.refl _)
  obtain ⟨response', hresponse'⟩ := hanswered _ hswap
  obtain ⟨hadds, hsame⟩ := (overview_adds_up (Desk.reporting_get _)
    (Desk.within_submission (.refl _))).2 response hresponse
  exact ⟨response, response', hresponse, hresponse', hadds, hsame _ _ _ _ _ _ response'
    (Desk.reporting_get _) hswap (.refl _) (Desk.within_submission hswap) hresponse'⟩

end FxDealManager
