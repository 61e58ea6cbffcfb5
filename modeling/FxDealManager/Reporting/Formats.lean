import FxDealManager.Api.Reports
import FxDealManager.Reporting.Completeness

/-!
# Two formats of one report

The CSV text of a report, read by its header, has one line for each payment of the JSON items, with
the data of the payment and of its item. It says nothing of the items without payments.

## Main definitions

* `cell`: the value of a column in a line
* `Mirrors`: a line holds the data of a payment and of its item
* `Flattens`: the lines are those of the payments

## Main results

* `regulatoryCsv_flattens`: the CSV text of any items
* `formats_agree`: both formats of a report
-/

namespace FxDealManager

open Transactional

/-- The value of a column in a line, under the header of its text. -/
def cell (header line : List String) (column : String) : Option String :=
  (header.zip line).lookup column

/-- The line holds the data of a payment and of its item; what is missing is empty. -/
structure Mirrors (header line : List String) (item : RegulatoryItem) (payment : PaymentItem) :
    Prop where
  dealId : cell header line "deal_id" = some item.dealId
  tradeDate : cell header line "trade_date" = some item.tradeDate
  valueDate : cell header line "value_date" = some (item.valueDate.getD "")
  dealType : cell header line "deal_type" = some item.dealType
  operationDirection : cell header line "operation_direction" = some item.operationDirection
  amount : cell header line "amount" = some item.amount
  rate : cell header line "rate" = some item.rate
  status : cell header line "status" = some item.status
  validationStatus : cell header line "validation_status" = some item.validationStatus
  traderEmail : cell header line "trader_email" = some item.traderEmail
  positionerId : cell header line "positioner_id" = some (item.positionerId.getD "")
  counterpartyId : cell header line "counterparty_id" = some item.counterparty.id
  counterpartyName : cell header line "counterparty_name" = some (item.counterparty.name.getD "")
  counterpartyBic : cell header line "counterparty_bic" = some (item.counterparty.bic.getD "")
  counterpartyCountry :
    cell header line "counterparty_country" = some (item.counterparty.country.getD "")
  counterpartyIsActive :
    cell header line "counterparty_is_active" = some (flagText item.counterparty.isActive)
  buyCurrencyCode : cell header line "buy_currency_code" = some item.buyCurrency.code
  buyCurrencyName : cell header line "buy_currency_name" = some item.buyCurrency.name
  buyCurrencyDecimalPlaces :
    cell header line "buy_currency_decimal_places" = some (toString item.buyCurrency.decimalPlaces)
  sellCurrencyCode : cell header line "sell_currency_code" = some item.sellCurrency.code
  sellCurrencyName : cell header line "sell_currency_name" = some item.sellCurrency.name
  sellCurrencyDecimalPlaces : cell header line "sell_currency_decimal_places" =
    some (toString item.sellCurrency.decimalPlaces)
  paymentDirection : cell header line "payment_direction" = some payment.direction
  paymentAmount : cell header line "payment_amount" = some payment.amount
  paymentCurrency : cell header line "payment_currency" = some payment.currency
  paymentValueDate : cell header line "payment_value_date" = some (payment.valueDate.getD "")
  paymentAccountCode : cell header line "payment_account_code" = some (payment.accountCode.getD "")
  nostroAccountNumber :
    cell header line "nostro_account_number" = some (payment.accountNumber.getD "")
  nostroBankName : cell header line "nostro_bank_name" = some (payment.bankName.getD "")

/-- Some line is about the deal. -/
def Mentions (header : List String) (lines : List (List String)) (dealId : String) : Prop :=
  ∃ line ∈ lines, cell header line "deal_id" = some dealId

/-- The lines are those of the payments of the items, each payment once and in order; a deal is
mentioned if and only if it has a payment. -/
structure Flattens (header : List String) (lines : List (List String))
    (items : List RegulatoryItem) : Prop where
  payments : List.Forall₂ (fun (e : RegulatoryItem × PaymentItem) line =>
      Mirrors header line e.1 e.2)
    (items.flatMap fun item => item.payments.map fun payment => (item, payment)) lines
  mentions : ∀ dealId, Mentions header lines dealId ↔
    ∃ item ∈ items, item.dealId = dealId ∧ item.payments ≠ []

theorem regulatoryCsvRow_mirrors (item : RegulatoryItem) (payment : PaymentItem) :
    Mirrors regulatoryCsvColumns (regulatoryCsvRow item payment) item payment := by
  constructor <;> rfl

/-- **The CSV text of any items** is that of their payments. -/
theorem regulatoryCsv_flattens (items : List RegulatoryItem) :
    ∃ header lines, Csv.read (regulatoryCsv items) = some (header :: lines) ∧
      Flattens header lines items := by
  refine ⟨_, _, Csv.read_write _, ?_, fun dealId => ?_⟩
  · have hlines : (items.flatMap fun item => item.payments.map (regulatoryCsvRow item)) =
        (items.flatMap fun item => item.payments.map fun payment => (item, payment)).map fun e =>
          regulatoryCsvRow e.1 e.2 := by
      simp [List.map_flatMap, Function.comp_def]
    rw [hlines, List.forall₂_map_right_iff, List.forall₂_same]
    exact fun e _ => regulatoryCsvRow_mirrors e.1 e.2
  · simp only [Mentions, List.mem_flatMap, List.mem_map]
    constructor
    · rintro ⟨line, ⟨item, hitem, payment, hpayment, rfl⟩, hcell⟩
      rw [(regulatoryCsvRow_mirrors item payment).dealId] at hcell
      exact ⟨item, hitem, Option.some.inj hcell, List.ne_nil_of_mem hpayment⟩
    · rintro ⟨item, hitem, rfl, hpayments⟩
      obtain ⟨payment, hpayment⟩ := List.exists_mem_of_ne_nil _ hpayments
      exact ⟨_, ⟨item, hitem, payment, hpayment, rfl⟩,
        (regulatoryCsvRow_mirrors item payment).dealId⟩

/-- Both formats are made of one report. -/
theorem regulatoryDealsReport_eq (user : UserClaims) (filter : ReportFilter) (env : Env)
    (db : Database) : ∃ report : Except ServiceError (Except ReportError (List RegulatoryItem)),
      ∀ fmt, ((regulatoryDealsReport user filter fmt).run env db).1 =
        report.map fun items => items.map fun items => fmt.body items := by
  let program : Service (Except ReportError (List RegulatoryItem)) := do
    Program.require (user.role ∈ [.auditor, .admin])
      (.http 403 s!"Role {user.role.value} is not allowed")
    generate filter user.email
  refine ⟨(program.run env db).1, fun fmt => ?_⟩
  have hprogram : regulatoryDealsReport user filter fmt =
      program >>= fun report => pure (report.map fun items => fmt.body items) := by
    rw [regulatoryDealsReport, Program.bind_assoc]
  rw [hprogram]
  simp only [Program.run, Bind.bind, Pure.pure]
  rcases program env (Session.start db) with ⟨_ | report, session⟩ <;> rfl

/-- If a report is made as JSON, its CSV text is made under the same circumstances. -/
theorem regulatoryDealsReport_csv {user : UserClaims} {filter : ReportFilter} {env : Env}
    {db : Database} {items : List RegulatoryItem}
    (h : ((regulatoryDealsReport user filter .json).run env db).1 = .ok (.ok (.json items))) :
    ((regulatoryDealsReport user filter .csv).run env db).1 =
      .ok (.ok (.csv (regulatoryCsv items))) := by
  obtain ⟨report, hreport⟩ := regulatoryDealsReport_eq user filter env db
  rw [hreport] at h ⊢
  cases report with
  | error err => cases h
  | ok report =>
    cases report with
    | error err => cases h
    | ok items' =>
      cases h
      rfl

/-- **Both formats agree**: if a report is made as JSON, it is made as CSV under the same
circumstances, and its text has one line for each payment of each item, with the data of both; it
mentions the deals that have a payment. -/
theorem formats_agree {user : UserClaims} {filter : ReportFilter} {env : Env} {db : Database}
    {items : List RegulatoryItem}
    (h : ((regulatoryDealsReport user filter .json).run env db).1 = .ok (.ok (.json items))) :
    ∃ text header lines,
      ((regulatoryDealsReport user filter .csv).run env db).1 = .ok (.ok (.csv text)) ∧
        Csv.read text = some (header :: lines) ∧ Flattens header lines items := by
  obtain ⟨header, lines, hread, hflattens⟩ := regulatoryCsv_flattens items
  exact ⟨regulatoryCsv items, header, lines, regulatoryDealsReport_csv h, hread, hflattens⟩

namespace Desk

def auditor : UserClaims := ⟨"auditor-1", "auditor@bank", .auditor⟩

/-- The reference data of the desk, with a BIC for its counterparty. -/
def identifiedNsi : ReferenceData :=
  { nsi with
    counterparties := [{ bank with bic := some ⟨"FIRSTXXX", by decide⟩ }]
    counterparty_key := by decide }

/-- The deal of the desk is validated, and its counterparty identified. -/
def identified : List Input := validation ++ [.referenceData identifiedNsi]

/-- The items of a body. -/
def itemsOf : Except ServiceError (Except ReportError ReportBody) → List RegulatoryItem
  | .ok (.ok (.json items)) => items
  | _ => []

/-- The items of the report after given inputs. -/
def reportedItems (inputs : List Input) : List RegulatoryItem :=
  itemsOf ((regulatoryDealsReport auditor allDeals .json).run (env 9) (after inputs)).1

end Desk

/-- The report of the validated deal of the desk, with two payments. -/
theorem formats_agree_desk :
    (Desk.reportedItems Desk.identified).map (·.payments.length) = [2] ∧
      ∃ text header lines,
        ((regulatoryDealsReport Desk.auditor Desk.allDeals .csv).run (Desk.env 9)
          (Desk.after Desk.identified)).1 = .ok (.ok (.csv text)) ∧
        Csv.read text = some (header :: lines) ∧
          Flattens header lines (Desk.reportedItems Desk.identified) :=
  ⟨by decide +kernel, formats_agree (by decide +kernel)⟩

/-- A draft without payments is an item of the JSON, and the CSV text does not mention it. -/
theorem draft_unmentioned :
    ¬ ∀ (nsi : ReferenceData) (history : List ServiceTurn) (db : Database),
      Run step (Database.initial nsi) history db → ∀ env user filter items,
        ((regulatoryDealsReport user filter .json).run env db).1 = .ok (.ok (.json items)) →
          ∀ text header lines,
            ((regulatoryDealsReport user filter .csv).run env db).1 = .ok (.ok (.csv text)) →
              Csv.read text = some (header :: lines) →
                ∀ dealId, Mentions header lines dealId ↔ ∃ item ∈ items, item.dealId = dealId := by
  intro h
  have hjson : ((regulatoryDealsReport Desk.auditor Desk.allDeals .json).run (Desk.env 9)
      (Desk.after Desk.creation)).1 = .ok (.ok (.json (Desk.reportedItems Desk.creation))) := by
    decide +kernel
  have hdraft : ∃ item ∈ Desk.reportedItems Desk.creation, item.dealId = UUID.text Desk.dealId := by
    decide +kernel
  have hpayments : ∀ item ∈ Desk.reportedItems Desk.creation, item.payments = [] := by
    decide +kernel
  obtain ⟨header, lines, hread, hflattens⟩ :=
    regulatoryCsv_flattens (Desk.reportedItems Desk.creation)
  have hmentions := h Desk.nsi _ _ (run_serveAll step (Database.initial Desk.nsi) Desk.creation)
    (Desk.env 9) Desk.auditor Desk.allDeals _ hjson _ header lines (regulatoryDealsReport_csv hjson)
    hread (UUID.text Desk.dealId)
  obtain ⟨item, hitem, -, hne⟩ := (hflattens.mentions _).mp (hmentions.mpr hdraft)
  exact hne (hpayments item hitem)

end FxDealManager
