import FxDealManager.Lifecycle.Chronicle
import FxDealManager.Reporting.Formats
import FxDealManager.Reporting.Listings
import FxDealManager.Reporting.Terms

/-!
# The report of the deals

The route that exports the deals of a filter, as JSON or as a CSV text with one line for each deal.
It asks for the first page of the listing alone. What is read from a line of the text, column by
column, is what the JSON item says.

## Main definitions

* `dealsReport`: the route
* `DealLine`: what a line tells of a deal
* `DealLine.read`: a line, read under the header
* `Newest`: the items are the newest deals, as many as there are and fit the page

## Main results

* `dealLine_read`: a line is read back
* `deals_report_exact`: both formats, and when they have all deals
-/

namespace FxDealManager

open DecimalArithmetic Paging Transactional

/-- `CSV_COLUMNS`. -/
def csvColumns : List String :=
  ["deal_id", "trade_date", "value_date", "deal_type", "operation", "buy_currency",
    "sell_currency", "amount", "rate", "counterparty_id", "counterparty_name", "status",
    "validation_status", "trader_email", "positioner_id", "created_at", "updated_at"]

/-- `DealListResponse`. -/
structure DealListResponse where
  items : List DealResponse
  total : ℕ
  page : ℕ
  pageSize : ℕ
deriving DecidableEq, Repr

inductive DealsReportBody where
  | json (response : DealListResponse)
  | csv (text : String)
deriving DecidableEq, Repr

section Route

-- the text of a moment
variable (isoformat : Timestamp → String)

/-- The line of a deal. -/
def dealsCsvRow (deal : DealResponse) : List String :=
  [UUID.text deal.id, deal.tradeDate.isoformat, (deal.valueDate.map Date.isoformat).getD "",
    deal.dealType.value, deal.operationDirection.value, deal.buyCurrency, deal.sellCurrency,
    deal.amount.text, deal.rate.text, deal.counterpartyId, deal.counterpartyName.getD "",
    deal.status.value, deal.validationStatus.value, deal.traderEmail, deal.positionerId.getD "",
    isoformat deal.createdAt, isoformat deal.updatedAt]

/-- The CSV text of deals: the header, and one line for each deal. -/
def dealsCsv (items : List DealResponse) : String :=
  Csv.write (csvColumns :: items.map (dealsCsvRow isoformat))

/-- `DealService.list_deals`. -/
def listDealResponses (lower : String → String) (order : List FXDeal → List FXDeal)
    (filter : DealFilter) (number pageSize : ℕ) (db : Database) : DealListResponse :=
  let (deals, total) := listDeals lower order filter number pageSize db
  { items := deals.map toResponse, total, page := number, pageSize }

/-- `deals_report`. The report does not search. -/
def dealsReport (lower : String → String) (order : List FXDeal → List FXDeal) (user : UserClaims)
    (filter : DealFilter) (fmt : ReportFormat) (pageSize : ℕ) (db : Database) :
    Except ServiceError DealsReportBody :=
  if user.role ∈ [.auditor, .positioner, .admin] then
    let payload := listDealResponses lower order { filter with search := none } 1 pageSize db
    match fmt with
    | .json => .ok (.json payload)
    | .csv => .ok (.csv (dealsCsv isoformat payload.items))
  else .error (.http 403 s!"Role {user.role.value} is not allowed")

end Route

/-! ## Reading a line -/

/-- What a line tells of a deal: a name or a positioner that is missing is empty. -/
structure DealLine where
  dealId : String
  tradeDate : Date
  valueDate : Option Date
  dealType : DealType
  operationDirection : OperationDirection
  buyCurrency : String
  sellCurrency : String
  amount : Decimal
  rate : Decimal
  counterpartyId : String
  counterpartyName : String
  status : DealState
  validationStatus : ValidationStatus
  traderEmail : String
  positionerId : String
  createdAt : String
  updatedAt : String
deriving DecidableEq, Repr

/-- What is told of a deal. -/
def DealResponse.line (isoformat : Timestamp → String) (deal : DealResponse) : DealLine where
  dealId := UUID.text deal.id
  tradeDate := deal.tradeDate
  valueDate := deal.valueDate
  dealType := deal.dealType
  operationDirection := deal.operationDirection
  buyCurrency := deal.buyCurrency
  sellCurrency := deal.sellCurrency
  amount := deal.amount
  rate := deal.rate
  counterpartyId := deal.counterpartyId
  counterpartyName := deal.counterpartyName.getD ""
  status := deal.status
  validationStatus := deal.validationStatus
  traderEmail := deal.traderEmail
  positionerId := deal.positionerId.getD ""
  createdAt := isoformat deal.createdAt
  updatedAt := isoformat deal.updatedAt

/-- The validation status with the code. -/
def ValidationStatus.named (code : String) : Option ValidationStatus :=
  [.notValidated, .valid, .invalid].find? fun status => status.value = code

/-- The date of a text that is empty for none. -/
def readOptionalDate (text : String) : Option (Option Date) :=
  if text = "" then some none else (Date.read text).map some

/-- What a line tells, under the header of its text. -/
def DealLine.read (u : Unicode) (header line : List String) : Option DealLine := do
  let dealId ← cell header line "deal_id"
  let tradeDate ← (cell header line "trade_date").bind Date.read
  let valueDate ← (cell header line "value_date").bind readOptionalDate
  let dealType ← (cell header line "deal_type").bind DealType.named
  let operationDirection ← (cell header line "operation").bind OperationDirection.named
  let buyCurrency ← cell header line "buy_currency"
  let sellCurrency ← cell header line "sell_currency"
  let amount ← (cell header line "amount").bind (readDecimal u)
  let rate ← (cell header line "rate").bind (readDecimal u)
  let counterpartyId ← cell header line "counterparty_id"
  let counterpartyName ← cell header line "counterparty_name"
  let status ← (cell header line "status").bind DealState.named
  let validationStatus ← (cell header line "validation_status").bind ValidationStatus.named
  let traderEmail ← cell header line "trader_email"
  let positionerId ← cell header line "positioner_id"
  let createdAt ← cell header line "created_at"
  let updatedAt ← cell header line "updated_at"
  some
    { dealId, tradeDate, valueDate, dealType, operationDirection, buyCurrency, sellCurrency, amount,
      rate, counterpartyId, counterpartyName, status, validationStatus, traderEmail, positionerId,
      createdAt, updatedAt }

section Lines

variable (u : Unicode) (isoformat : Timestamp → String)

theorem validationStatusNamed_value (status : ValidationStatus) :
    ValidationStatus.named status.value = some status := by
  cases status <;> decide

theorem readOptionalDate_text (valueDate : Option Date) :
    readOptionalDate ((valueDate.map Date.isoformat).getD "") = some valueDate := by
  cases valueDate with
  | none => rfl
  | some d =>
    have hne : d.isoformat ≠ "" := by
      intro heq
      have hread := Date.read_isoformat d
      rw [heq] at hread
      cases hread
    rw [readOptionalDate, Option.map_some, Option.getD_some, if_neg hne, Date.read_isoformat,
      Option.map_some]

/-- **A line is read back**, column by column. -/
theorem dealLine_read (deal : DealResponse) :
    DealLine.read u csvColumns (dealsCsvRow isoformat deal) = some (deal.line isoformat) := by
  have hcell : ∀ column text, cell csvColumns (dealsCsvRow isoformat deal) column = some text →
      ∀ {α : Type} (read : String → Option α),
        (cell csvColumns (dealsCsvRow isoformat deal) column).bind read = read text := by
    intro column text h α read
    rw [h, Option.bind_some]
  rw [DealLine.read, hcell "trade_date" _ rfl, hcell "value_date" _ rfl, hcell "deal_type" _ rfl,
    hcell "operation" _ rfl, hcell "amount" _ rfl, hcell "rate" _ rfl, hcell "status" _ rfl,
    hcell "validation_status" _ rfl, Date.read_isoformat, readOptionalDate_text,
    dealTypeNamed_value, directionNamed_value, readDecimal_text, readDecimal_text, named_value,
    validationStatusNamed_value]
  rfl

/-- The text has one line for each item, in their order, which tells what the item says. -/
def Tells (text : String) (items : List DealResponse) : Prop :=
  ∃ lines, Csv.read text = some (csvColumns :: lines) ∧
    lines.map (DealLine.read u csvColumns) = items.map fun item => some (item.line isoformat)

/-- **The CSV text of any items** tells what they say. -/
theorem dealsCsv_tells (items : List DealResponse) :
    Tells u isoformat (dealsCsv isoformat items) items := by
  refine ⟨_, Csv.read_write _, ?_⟩
  rw [List.map_map]
  exact List.map_congr_left fun item _ => dealLine_read u isoformat item

end Lines

/-! ## The first page -/

/-- The items are the newest of the deals, each once and as many as there are and fit the page; they
are all of them if and only if these fit the page. -/
structure Newest (deals : List FXDeal) (pageSize : ℕ) (items : List DealResponse) : Prop where
  count : items.length = min pageSize deals.length
  nodup : (items.map DealResponse.id).Nodup
  found : ∀ item ∈ items, ∃ deal ∈ deals, item = toResponse deal
  newest : ∀ deal ∈ deals, toResponse deal ∉ items → ∀ item ∈ items, deal.createdAt ≤ item.createdAt
  complete : (∀ deal ∈ deals, toResponse deal ∈ items) ↔ deals.length ≤ pageSize

/-- The first page of the sorted rows has the newest ones. -/
theorem newest_page {deals out : List FXDeal} {pageSize : ℕ}
    (hids : (deals.map FXDeal.id).Nodup) (hout : Arranged FXDeal.createdAt deals out) :
    Newest deals pageSize ((page pageSize 1 out).map toResponse) := by
  have hpage : page pageSize 1 out = out.take pageSize := by simp [page]
  have hidsOut : (out.map FXDeal.id).Nodup := (hout.perm.map FXDeal.id).nodup_iff.mpr hids
  have hmem : ∀ deal ∈ out, toResponse deal ∈ (out.take pageSize).map toResponse →
      deal ∈ out.take pageSize := by
    intro deal hdeal hresponse
    obtain ⟨deal', hdeal', heq⟩ := List.mem_map.mp hresponse
    have hid : deal'.id = deal.id := congrArg DealResponse.id heq
    rwa [← List.inj_on_of_nodup_map hidsOut (List.mem_of_mem_take hdeal') hdeal hid]
  rw [hpage]
  refine ⟨?_, ?_, ?_, ?_, ?_⟩
  · rw [List.length_map, List.length_take, hout.perm.length_eq]
  · rw [List.map_map]
    exact hidsOut.sublist ((List.take_sublist _ _).map _)
  · intro item hitem
    obtain ⟨deal, hdeal, rfl⟩ := List.mem_map.mp hitem
    exact ⟨deal, hout.perm.subset (List.mem_of_mem_take hdeal), rfl⟩
  · intro deal hdeal hmissing item hitem
    obtain ⟨listed, hlisted, rfl⟩ := List.mem_map.mp hitem
    have hsplit := List.take_append_drop pageSize out
    have hdrop : deal ∈ out.drop pageSize := by
      have hin : deal ∈ out.take pageSize ++ out.drop pageSize := by
        rw [hsplit]
        exact hout.perm.symm.subset hdeal
      refine (List.mem_append.mp hin).resolve_left fun htake => hmissing ?_
      exact List.mem_map_of_mem htake
    have hsorted := hout.sorted
    rw [← hsplit] at hsorted
    exact (List.pairwise_append.mp hsorted).2.2 listed hlisted deal hdrop
  · rw [← hout.perm.length_eq]
    constructor
    · intro hall
      have hsubset : out ⊆ out.take pageSize := fun deal hdeal =>
        hmem deal hdeal (hall deal (hout.perm.subset hdeal))
      have hle := (hidsOut.of_map.subperm hsubset).length_le
      rw [List.length_take] at hle
      omega
    · intro hle deal hdeal
      rw [List.take_of_length_le hle]
      exact List.mem_map_of_mem (hout.perm.symm.subset hdeal)

theorem matchingDeals_ids (lower : String → String) (filter : DealFilter) (db : Database) :
    ((matchingDeals lower filter db).map FXDeal.id).Nodup := by
  rw [matchingDeals, List.map_map]
  exact db.deals.nodupKeys.sublist List.filter_sublist

/-- **Both formats of the report** have the newest deals that the filter admits, each once, as many
as there are and fit the page; the text, whatever characters are in it, tells line by line what the
JSON items say. -/
theorem deals_report_exact {lower : String → String} {order : List FXDeal → List FXDeal}
    {user : UserClaims} {filter : DealFilter} {pageSize : ℕ} {db : Database}
    (huser : user.role ∈ [.auditor, .positioner, .admin])
    (horder : Arranged FXDeal.createdAt (matchingDeals lower { filter with search := none } db)
      (order (matchingDeals lower { filter with search := none } db)))
    (u : Unicode) (isoformat : Timestamp → String) :
    ∃ response text,
      dealsReport isoformat lower order user filter .json pageSize db = .ok (.json response) ∧
      dealsReport isoformat lower order user filter .csv pageSize db = .ok (.csv text) ∧
      response.total = (matchingDeals lower { filter with search := none } db).length ∧
      Newest (matchingDeals lower { filter with search := none } db) pageSize response.items ∧
      Tells u isoformat text response.items := by
  refine ⟨_, _, if_pos huser, if_pos huser, ?_, ?_, dealsCsv_tells u isoformat _⟩
  · rw [listDealResponses, listDeals_eq]
  · rw [listDealResponses, listDeals_eq]
    exact newest_page (matchingDeals_ids lower _ db) horder

/-- The report of the drafts at the desk. -/
theorem deals_report_desk : ∃ order response text,
    dealsReport toString id order Desk.auditor Desk.drafts .json 1000
      (Desk.after Desk.creation) = .ok (.json response) ∧
    dealsReport toString id order Desk.auditor Desk.drafts .csv 1000
      (Desk.after Desk.creation) = .ok (.csv text) ∧
    response.total = (matchingDeals id Desk.drafts (Desk.after Desk.creation)).length ∧
    Newest (matchingDeals id Desk.drafts (Desk.after Desk.creation)) 1000 response.items ∧
    Tells ⟨id, fun _ => none⟩ toString text response.items := by
  obtain ⟨out, hout⟩ := exists_arranged FXDeal.createdAt
    (matchingDeals id Desk.drafts (Desk.after Desk.creation))
  exact ⟨fun _ => out, deals_report_exact (by decide) hout ⟨id, fun _ => none⟩ toString⟩

end FxDealManager
