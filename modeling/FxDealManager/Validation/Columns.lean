import FxDealManager.Validation.Storage

/-!
# Validations of whatever the tables admit

The tables admit more than the service writes: no constraint ties the direction of a deal or the
code of its type to one that the service knows, a number may be NaN, and the lookup tables may lack
a code. A validation reads these columns one after another, and what it cannot read ends it with an
exception, but only where it is read. For the deals that the service writes it is the validation of
the service.

## Main definitions

* `DealColumns`, `LookupTables`: what the tables admit
* `validateStored`, `executeStored`: the validation of a deal with any columns
* `DealColumns.Reads`: the columns hold what a row says, as far as they can be read
* `Legible`: what a validation reads can be read
* `StoredWithinRange`: it stays within every range as well, and the codes it writes are known

## Main results

* `DealColumns.exists_reads`: whatever the columns are, some row says what can be read of them
* `validation_stored_iff`: when a validation ends with success or with complaints
* `account_too_long`: a run in which an account number is too long for a payment
* `executeStored_ofRow`: for the columns of a row it is the validation of the service
-/

namespace FxDealManager

open DecimalArithmetic Transactional

/-! ## What the tables admit -/

/-- A number of a `NUMERIC` column. -/
inductive StoredNumeric (p s : ℕ) where
  | number (n : Numeric p s)
  | nan
deriving DecidableEq, Repr

/-- The columns of a deal whose contents a validation has to read: its numbers, its direction, and
the codes of its type and its state. -/
structure DealColumns where
  amount : StoredNumeric 18 2
  rate : StoredNumeric 18 6
  operationDirection : Varchar 10
  dealType : Varchar 50
  dealState : Varchar 50
deriving DecidableEq, Repr

/-- The codes that `LookupCache` knows, and the ids of the limits whose maximum is NaN. -/
structure LookupTables where
  validationStatuses : List String
  paymentDirections : List String
  nanLimits : List ℕ

/-- All codes are known, and no limit is NaN. -/
structure LookupTables.Complete (tables : LookupTables) : Prop where
  validationStatuses : ∀ status : ValidationStatus, status.value ∈ tables.validationStatuses
  paymentDirections : ∀ direction : PaymentDirection, direction.value ∈ tables.paymentDirections
  nanLimits : tables.nanLimits = []

/-! ## The validation -/

/-- A deal as the format checks see it: of its state and its type they ask only whether they are
`DRAFT` and `FORWARD`. -/
def DealColumns.checked (columns : DealColumns) (deal : FXDeal) : FXDeal :=
  { deal with
    dealState := if columns.dealState.val = DealState.draft.value then .draft else .cancelled
    loadedDealType := if columns.dealType.val = DealType.forward.value then .forward else .tod }

/-- The complaint about an amount above the limit found for its currency; `none` is the invalid
operation of a comparison with NaN. -/
def storedLimitIssue (tables : LookupTables) (limits : List DealLimit)
    (counterpartyId currency label : String) (amount : Decimal) : Option (List ValidationIssue) :=
  if (findBestLimit limits counterpartyId currency).any (·.id ∈ tables.nanLimits) then none
  else some (limitIssue limits counterpartyId currency label amount)

/-- `LimitCheckService.check`, with maxima that may be NaN. -/
def checkStoredLimits (tables : LookupTables) (limits : List DealLimit) (deal : FXDeal) :
    Option (List ValidationIssue) :=
  if limits.isEmpty then some []
  else do
    let counter ← counterAmount deal
    let buy ←
      storedLimitIssue tables limits deal.counterpartyId deal.buyCurrency "Deal" deal.amount
    let sell ←
      storedLimitIssue tables limits deal.counterpartyId deal.sellCurrency "Counter" counter
    some (buy ++ sell)

/-- `PaymentCalculator.calculate`, of any direction: the counter amount comes first. -/
def calculateStored (columns : DealColumns) (deal : FXDeal) (valueDate : Date) :
    Except ServiceError (List CalculatedPayment) :=
  match counterAmount deal, OperationDirection.named columns.operationDirection.val with
  | none, _ => .error .invalidOperation
  | some _, none => .error .valueError
  | some _, some direction =>
    (calculatePayments { deal with operationDirection := direction } valueDate).elim
      (.error .invalidOperation) .ok

/-- Mark a deal as invalid, if the lookup table has the code. -/
def commitStoredInvalid (tables : LookupTables) (deal : FXDeal) (user : UserClaims)
    (issues : List ValidationIssue) : Service DealResponse := do
  Program.require (ValidationStatus.invalid.value ∈ tables.validationStatuses) .keyError
  commitInvalid deal user issues

/-- The payment objects, if the lookup table has the codes of their directions. -/
def buildStoredPayments (tables : LookupTables) :
    List (CalculatedPayment × String) → Service (List Payment)
  | [] => pure []
  | (calculated, account) :: assigned => do
    lookupCode
    Program.require (calculated.paymentDirection.value ∈ tables.paymentDirections) .keyError
    let id ← freshId
    let payments ← buildStoredPayments tables assigned
    pure (⟨id, calculated.amount, calculated.currencyCode, some account,
      calculated.paymentDirection, some calculated.valueDate⟩ :: payments)

/-- Save a validated deal, if the lookup table has the code. -/
def saveStored (tables : LookupTables) (loaded : FXDeal) (valueDate : Date)
    (payments : List Payment) (user : UserClaims) : Service DealResponse := do
  Program.require (ValidationStatus.valid.value ∈ tables.validationStatuses) .keyError
  saveValidated loaded valueDate payments user

/-- `DealService.validate_deal`, once the payments are calculated. -/
def assignStored (tables : LookupTables) (deal : FXDeal) (valueDate : Date)
    (calculated : List CalculatedPayment) (user : UserClaims) : Service DealResponse := do
  let nostroByCurrency ← Program.query fun db => db.nsi.nostroByCurrency
  let (assigned, issues) := assignNostro nostroByCurrency calculated
  if issues ≠ [] then commitStoredInvalid tables deal user issues
  else
    let payments ← buildStoredPayments tables assigned
    Program.handle (saveStored tables deal valueDate payments user) fun err => do
      Program.rollback
      Program.raise (saveFailure err)

/-- `DealService.validate_deal`, from the value date on. -/
def bookStored (tables : LookupTables) (columns : DealColumns) (deal : FXDeal)
    (user : UserClaims) : Service DealResponse := do
  let dealType ← Program.ofExcept
    ((DealType.named columns.dealType.val).elim (.error .valueError) .ok)
  let valueDate ← settle { deal with loadedDealType := dealType }
  let calculated ← Program.ofExcept (calculateStored columns deal valueDate)
  assignStored tables deal valueDate calculated user

/-- `DealService.validate_deal`, once the counterparty and the currencies are read. -/
def checkStored (tables : LookupTables) (columns : DealColumns) (deal : FXDeal)
    (counterparty : Option Counterparty) (currencies : String → Option Currency)
    (user : UserClaims) : Service DealResponse := do
  let issues := validate (columns.checked deal) counterparty currencies
  if issues ≠ [] then commitStoredInvalid tables deal user issues
  else
    let limits ← Program.query fun db => db.nsi.activeLimits deal.counterpartyId
    let issues ← Program.ofExcept
      ((checkStoredLimits tables limits deal).elim (.error .invalidOperation) .ok)
    if issues ≠ [] then commitStoredInvalid tables deal user issues
    else bookStored tables columns deal user

/-- `DealService.validate_deal`, for a deal with the given columns. -/
def validateStored (tables : LookupTables) (columns : DealColumns) (dealId : UUID)
    (user : UserClaims) : Service DealResponse := do
  let deal ← loadDeal dealId
  Program.require (deal.traderId = user.userId ∨ user.role = .admin)
    (.http 403 "Only the deal creator can validate this deal")
  let counterparty ← Program.query fun db => db.nsi.counterparty? deal.counterpartyId
  let currencies ← Program.query fun db => db.nsi.currency?
  match columns.amount, columns.rate with
  | .number amount, .number rate =>
    let deal := { deal with amount := amount.toDecimal, rate := rate.toDecimal }
    checkStored tables columns deal counterparty currencies user
  | _, _ => Program.raise .invalidOperation

/-- `require_role`, then the validation. -/
def serveStored (tables : LookupTables) (columns : DealColumns) (dealId : UUID)
    (user : UserClaims) : Service DealResponse := do
  Program.require (user.role ∈ (Operation.validate dealId).roles)
    (.http 403 s!"Role {user.role.value} is not allowed")
  validateStored tables columns dealId user

/-- Serve a request for the validation of a deal with the given columns. -/
def executeStored (env : Env) (user : UserClaims) (tables : LookupTables) (columns : DealColumns)
    (dealId : UUID) (db : Database) : Outcome :=
  let (result, session) := (serveStored tables columns dealId user).run env db
  ⟨result, session.committed, session.transactions, session.effects⟩

/-! ## Columns and rows -/

/-- The columns of a row that the service wrote. -/
def DealColumns.ofRow (row : FXDealRow) : DealColumns where
  amount := .number row.amount
  rate := .number row.rate
  operationDirection := ⟨row.operationDirection.value, by cases row.operationDirection <;> decide⟩
  dealType := ⟨row.dealType.value, by cases row.dealType <;> decide⟩
  dealState := ⟨row.dealState.value, by cases row.dealState <;> decide⟩

/-- The columns hold what the row says, as far as they can be read. A text that is no code is the
state of a row that is no draft, and the type of a row that is no forward. -/
structure DealColumns.Reads (columns : DealColumns) (row : FXDealRow) : Prop where
  amount : ∀ n, columns.amount = .number n → row.amount = n
  rate : ∀ n, columns.rate = .number n → row.rate = n
  operationDirection : ∀ direction,
    OperationDirection.named columns.operationDirection.val = some direction →
      row.operationDirection = direction
  dealType : ∀ dealType, DealType.named columns.dealType.val = some dealType →
    row.dealType = dealType
  forward : row.dealType = .forward → columns.dealType.val = DealType.forward.value
  draft : row.dealState = .draft ↔ columns.dealState.val = DealState.draft.value

/-- A row that the service wrote is what its columns say. -/
theorem DealColumns.reads_ofRow (row : FXDealRow) : (DealColumns.ofRow row).Reads row where
  amount n h := by cases h; rfl
  rate n h := by cases h; rfl
  operationDirection direction h := by
    rw [DealColumns.ofRow, directionNamed_value] at h
    exact Option.some.inj h
  dealType dealType h := by
    rw [DealColumns.ofRow, dealTypeNamed_value] at h
    exact Option.some.inj h
  forward h := congrArg DealType.value h
  draft := by
    show row.dealState = .draft ↔ row.dealState.value = DealState.draft.value
    cases row.dealState <;> decide

theorem DealColumns.Reads.forward_iff {columns : DealColumns} {row : FXDealRow}
    (h : columns.Reads row) :
    row.dealType = .forward ↔ columns.dealType.val = DealType.forward.value := by
  constructor
  · exact h.forward
  · intro hcode
    apply h.dealType
    rw [hcode, dealTypeNamed_value]

/-- Whatever is in the columns, some row says it, and agrees with a given one otherwise. -/
theorem DealColumns.exists_reads (columns : DealColumns) (row : FXDealRow) :
    ∃ amount rate operationDirection dealType dealState, columns.Reads
      { row with amount, rate, operationDirection, dealType, dealState } := by
  refine ⟨match columns.amount with | .number n => n | .nan => row.amount,
    match columns.rate with | .number n => n | .nan => row.rate,
    (OperationDirection.named columns.operationDirection.val).getD .buy,
    (DealType.named columns.dealType.val).getD .tod,
    if columns.dealState.val = DealState.draft.value then .draft else .cancelled, ?_⟩
  refine ⟨fun n h => by simp [h], fun n h => by simp [h], fun d h => by simp [h],
    fun t h => by simp [h], fun h => ?_, by split <;> simp [*]⟩
  replace h : (DealType.named columns.dealType.val).getD .tod = .forward := h
  cases hnamed : DealType.named columns.dealType.val with
  | none => simp [hnamed] at h
  | some dealType =>
    rw [hnamed, Option.getD_some] at h
    have hcode := List.find?_some hnamed
    rw [h] at hcode
    exact (of_decide_eq_true hcode).symm

/-! ## When it ends with a verdict -/

/-- The maximum of the limit found for a currency is a number. -/
def LookupTables.Comparable (tables : LookupTables) (limits : List DealLimit)
    (counterpartyId currency : String) : Prop :=
  ∀ limit, findBestLimit limits counterpartyId currency = some limit → limit.id ∉ tables.nanLimits

/-- **What a validation reads can be read**: the numbers of the deal always, and the rest if the
validation gets there. -/
structure Legible (tables : LookupTables) (columns : DealColumns) (nsi : ReferenceData)
    (id : UUID) (r : DealRecord) : Prop where
  /-- The amount is compared with zero. -/
  amount : columns.amount ≠ .nan
  /-- So is the rate. -/
  rate : columns.rate ≠ .nan
  /-- The amounts are compared with the maxima of their limits. -/
  maxima : Checked nsi (FXDeal.ofRecord nsi id r) →
    ∀ currency ∈ [r.row.buyCurrency.val, r.row.sellCurrency.val], tables.Comparable
      (nsi.activeLimits r.row.counterpartyId.val) r.row.counterpartyId.val currency
  /-- The type gives the value date. -/
  dealType : Passed nsi (FXDeal.ofRecord nsi id r) →
    DealType.named columns.dealType.val ≠ none
  /-- The direction gives the payments. -/
  operationDirection : Passed nsi (FXDeal.ofRecord nsi id r) →
    (∃ valueDate, settlement nsi (FXDeal.ofRecord nsi id r) = .ok valueDate) →
      OperationDirection.named columns.operationDirection.val ≠ none

/-- **Everything stays within range**: what is read can be read, what is computed and written fits,
and the codes that are written are known. -/
structure StoredWithinRange (tables : LookupTables) (columns : DealColumns) (nsi : ReferenceData)
    (id : UUID) (r : DealRecord) (email : String) : Prop
    extends Legible tables columns nsi id r, WithinRange nsi id r email where
  /-- A deal that is neither refused nor booked is marked as invalid. -/
  invalid : ¬ Unsettled nsi (FXDeal.ofRecord nsi id r) →
    (∀ buy sell, ¬ Booked nsi (FXDeal.ofRecord nsi id r) buy sell) →
      ValidationStatus.invalid.value ∈ tables.validationStatuses
  /-- A deal that is booked is marked as valid, and has a payment in and a payment out. -/
  valid : ∀ buy sell, Booked nsi (FXDeal.ofRecord nsi id r) buy sell →
    ValidationStatus.valid.value ∈ tables.validationStatuses ∧
      PaymentDirection.incoming.value ∈ tables.paymentDirections ∧
      PaymentDirection.outgoing.value ∈ tables.paymentDirections

/-- The lookup tables have the codes that a verdict writes. -/
def Verdict.Known (v : Verdict) (tables : LookupTables) : Prop :=
  match v with
  | .failed _ | .refused _ => True
  | .invalid _ => ValidationStatus.invalid.value ∈ tables.validationStatuses
  | .valid _ _ => ValidationStatus.valid.value ∈ tables.validationStatuses ∧
      PaymentDirection.incoming.value ∈ tables.paymentDirections ∧
      PaymentDirection.outgoing.value ∈ tables.paymentDirections

section Booking

variable {nsi : ReferenceData} {deal : FXDeal} {valueDate : Date}

/-- With a value date, the verdict is that of the accounts. -/
theorem verdict_of_settled (hpassed : Passed nsi deal)
    (hsettled : settlement nsi deal = .ok valueDate) :
    verdict nsi deal = accountsVerdict nsi deal valueDate := by
  rw [verdict_of_checked hpassed.1, hpassed.2]
  simp only [hsettled]

/-- A deal whose payments are booked is not found invalid. -/
theorem Booked.verdict_ne_invalid {buy sell : NostroAccount} (h : Booked nsi deal buy sell)
    (issues : List ValidationIssue) : verdict nsi deal ≠ .invalid issues := by
  obtain ⟨valueDate, hsettled⟩ := h.settled
  rw [verdict_of_settled h.passed hsettled]
  intro hinvalid
  cases hcounter : counterAmount deal with
  | none => simp [accountsVerdict, calculatePayments, hcounter] at hinvalid
  | some counter =>
    rcases accountsVerdict_cases nsi hcounter valueDate with
      ⟨buy', sell', d₁, d₂, -, -, hverdict⟩ | ⟨hmissing, -⟩
    · rw [hverdict] at hinvalid
      cases hinvalid
    · exact hmissing buy sell h.buy h.sell

/-- The payments of a valid deal are booked. -/
theorem exists_booked_of_valid {assigned : List (CalculatedPayment × String)}
    (h : verdict nsi deal = .valid valueDate assigned) :
    ∃ buy sell, Booked nsi deal buy sell := by
  obtain ⟨hissues, hlimits, hsettled, calculated, hcalc, -⟩ := verdict_eq_valid_iff.mp h
  have hsettled : settlement nsi deal = .ok valueDate := settlement_eq_ok_iff.mpr hsettled
  rw [verdict_of_settled ⟨hissues, hlimits⟩ hsettled] at h
  obtain ⟨counter, hcounter, -⟩ := Option.map_eq_some_iff.mp hcalc
  rcases accountsVerdict_cases nsi hcounter valueDate with
    ⟨buy, sell, d₁, d₂, hbuy, hsell, -⟩ | ⟨-, issues, hverdict⟩
  · exact ⟨buy, sell, ⟨hissues, hlimits⟩, ⟨valueDate, hsettled⟩, hbuy, hsell⟩
  · rw [hverdict] at h
    cases h

/-- One payment of a valid deal comes in, and one goes out. -/
theorem exists_direction_of_valid {assigned : List (CalculatedPayment × String)}
    (h : verdict nsi deal = .valid valueDate assigned) (direction : PaymentDirection) :
    ∃ a ∈ assigned, a.1.paymentDirection = direction := by
  obtain ⟨-, -, -, calculated, hcalc, hassign⟩ := verdict_eq_valid_iff.mp h
  have hmap : (assignNostro nsi.nostroByCurrency calculated).1.map Prod.fst = calculated :=
    map_fst_assignNostro (by rw [hassign])
  rw [hassign] at hmap
  have hdirection : ∃ p ∈ calculated, p.paymentDirection = direction := by
    obtain ⟨counter, -, rfl⟩ := Option.map_eq_some_iff.mp hcalc
    cases deal.operationDirection <;> cases direction <;> simp
  obtain ⟨p, hp, hdirection⟩ := hdirection
  rw [← hmap] at hp
  obtain ⟨a, ha, rfl⟩ := List.mem_map.mp hp
  exact ⟨a, ha, hdirection⟩

/-- The codes of the directions are known if those of the payments are. -/
theorem known_directions_iff {assigned : List (CalculatedPayment × String)}
    (h : verdict nsi deal = .valid valueDate assigned) (known : List String) :
    (∀ a ∈ assigned, a.1.paymentDirection.value ∈ known) ↔
      PaymentDirection.incoming.value ∈ known ∧ PaymentDirection.outgoing.value ∈ known := by
  constructor
  · intro hknown
    obtain ⟨a, ha, hin⟩ := exists_direction_of_valid h .incoming
    obtain ⟨b, hb, hout⟩ := exists_direction_of_valid h .outgoing
    exact ⟨hin ▸ hknown a ha, hout ▸ hknown b hb⟩
  · rintro ⟨hin, hout⟩ a -
    cases a.1.paymentDirection
    · exact hin
    · exact hout

end Booking

section Verdicts

variable {tables : LookupTables} {columns : DealColumns} {nsi : ReferenceData} {id : UUID}
  {r : DealRecord} {email : String}

/-- Of a deal that does not pass the checks, only what they read has to be read. -/
theorem Legible.of_not_passed (hamount : columns.amount ≠ .nan) (hrate : columns.rate ≠ .nan)
    (hmaxima : Checked nsi (FXDeal.ofRecord nsi id r) →
      ∀ currency ∈ [r.row.buyCurrency.val, r.row.sellCurrency.val], tables.Comparable
        (nsi.activeLimits r.row.counterpartyId.val) r.row.counterpartyId.val currency)
    (hnot : ¬ Passed nsi (FXDeal.ofRecord nsi id r)) : Legible tables columns nsi id r where
  amount := hamount
  rate := hrate
  maxima := hmaxima
  dealType hpassed := absurd hpassed hnot
  operationDirection hpassed := absurd hpassed hnot

/-- **A validation that can read what it reads** stays within range if its verdict can be recorded,
with codes that are known. -/
theorem Legible.storedWithinRange_iff (h : Legible tables columns nsi id r) :
    StoredWithinRange tables columns nsi id r email ↔
      (verdict nsi (FXDeal.ofRecord nsi id r)).Known tables ∧
        (verdict nsi (FXDeal.ofRecord nsi id r)).Recordable email := by
  constructor
  · intro hrange
    refine ⟨?_, withinRange_iff.mp hrange.toWithinRange⟩
    cases hverdict : verdict nsi (FXDeal.ofRecord nsi id r) with
    | failed err => trivial
    | refused text => trivial
    | invalid issues =>
      refine hrange.invalid (fun hunsettled => ?_) fun buy sell hbooked => ?_
      · obtain ⟨text, hrefused⟩ := unsettled_iff.mp hunsettled
        rw [hverdict] at hrefused
        cases hrefused
      · exact hbooked.verdict_ne_invalid issues hverdict
    | valid valueDate assigned =>
      obtain ⟨buy, sell, hbooked⟩ := exists_booked_of_valid hverdict
      exact hrange.valid buy sell hbooked
  · rintro ⟨hknown, hrecordable⟩
    refine ⟨h, withinRange_iff.mpr hrecordable, fun hsettled hunbooked => ?_,
      fun buy sell hbooked => ?_⟩
    · cases hverdict : verdict nsi (FXDeal.ofRecord nsi id r) with
      | failed err =>
        rw [hverdict] at hrecordable
        exact hrecordable.elim
      | refused text => exact absurd (unsettled_iff.mpr ⟨text, hverdict⟩) hsettled
      | invalid issues =>
        rw [hverdict] at hknown
        exact hknown
      | valid valueDate assigned =>
        obtain ⟨buy, sell, hbooked⟩ := exists_booked_of_valid hverdict
        exact absurd hbooked (hunbooked buy sell)
    · cases hverdict : verdict nsi (FXDeal.ofRecord nsi id r) with
      | failed err =>
        rw [hverdict] at hrecordable
        exact hrecordable.elim
      | refused text =>
        obtain ⟨-, -, text', hrefused⟩ := unsettled_iff.mpr ⟨text, hverdict⟩
        obtain ⟨valueDate, hsettled⟩ := hbooked.settled
        rw [hsettled] at hrefused
        cases hrefused
      | invalid issues => exact absurd hverdict (hbooked.verdict_ne_invalid issues)
      | valid valueDate assigned =>
        rw [hverdict] at hknown
        exact hknown

/-- A calculation that leaves its range is not within range. -/
theorem not_storedWithinRange_of_failed {err : CalculationError}
    (h : verdict nsi (FXDeal.ofRecord nsi id r) = .failed err) :
    ¬ StoredWithinRange tables columns nsi id r email := by
  intro hrange
  have hrecordable := withinRange_iff.mp hrange.toWithinRange
  rw [h] at hrecordable
  exact hrecordable

end Verdicts

/-! ## The steps of the validation -/

section Steps

variable {tables : LookupTables} {columns : DealColumns} {nsi : ReferenceData} {id : UUID}
  {r : DealRecord} {limits : List DealLimit}

/-- The format checks find in the columns what they find in the row. -/
theorem validate_checked (hreads : columns.Reads r.row) (counterparty : Option Counterparty)
    (currencies : String → Option Currency) :
    validate (columns.checked (FXDeal.ofRecord nsi id r)) counterparty currencies =
      validate (FXDeal.ofRecord nsi id r) counterparty currencies := by
  have hstate : (columns.checked (FXDeal.ofRecord nsi id r)).dealState = .draft ↔
      (FXDeal.ofRecord nsi id r).dealState = .draft := by
    show (if columns.dealState.val = DealState.draft.value then DealState.draft else .cancelled) =
      .draft ↔ r.row.dealState = .draft
    rw [hreads.draft]
    split <;> simp [*]
  have htype : (columns.checked (FXDeal.ofRecord nsi id r)).loadedDealType = .forward ↔
      (FXDeal.ofRecord nsi id r).loadedDealType = .forward := by
    show (if columns.dealType.val = DealType.forward.value then DealType.forward else .tod) =
      .forward ↔ r.row.dealType = .forward
    rw [hreads.forward_iff]
    split <;> simp [*]
  exact validate_eq_of_fields hstate rfl rfl rfl rfl rfl (and_congr_left' htype) _ _

theorem storedLimitIssue_eq {counterpartyId currency label : String} {amount : Decimal}
    (h : tables.Comparable limits counterpartyId currency) :
    storedLimitIssue tables limits counterpartyId currency label amount =
      some (limitIssue limits counterpartyId currency label amount) := by
  unfold storedLimitIssue
  rw [if_neg]
  rw [Option.any_eq_true]
  rintro ⟨limit, hlimit, hnan⟩
  exact h limit hlimit (of_decide_eq_true hnan)

theorem storedLimitIssue_eq_none {counterpartyId currency label : String} {amount : Decimal}
    (h : ¬ tables.Comparable limits counterpartyId currency) :
    storedLimitIssue tables limits counterpartyId currency label amount = none := by
  unfold LookupTables.Comparable at h
  push Not at h
  obtain ⟨limit, hlimit, hnan⟩ := h
  unfold storedLimitIssue
  rw [if_pos]
  rw [hlimit]
  exact decide_eq_true hnan

/-- With maxima that are numbers, the limit check is the one of the service. -/
theorem checkStoredLimits_eq {deal : FXDeal}
    (h : ∀ currency ∈ [deal.buyCurrency, deal.sellCurrency],
      tables.Comparable limits deal.counterpartyId currency) :
    checkStoredLimits tables limits deal = checkLimits limits deal := by
  rw [List.forall_mem_cons, List.forall_mem_singleton] at h
  obtain ⟨hbuy, hsell⟩ := h
  simp only [checkStoredLimits, checkLimits, storedLimitIssue_eq hbuy, storedLimitIssue_eq hsell]
  split
  · rfl
  · cases counterAmount deal <;> rfl

/-- A maximum that is no number ends the limit check. -/
theorem checkStoredLimits_eq_none {deal : FXDeal}
    (h : ¬ ∀ currency ∈ [deal.buyCurrency, deal.sellCurrency],
      tables.Comparable limits deal.counterpartyId currency) :
    checkStoredLimits tables limits deal = none := by
  have hlimits : limits ≠ [] := by
    rintro rfl
    exact h fun _ _ _ hlimit => by cases hlimit
  rw [List.forall_mem_cons, List.forall_mem_singleton, not_and_or] at h
  rw [checkStoredLimits, if_neg (by simpa using hlimits)]
  cases counterAmount deal with
  | none => rfl
  | some counter =>
    rcases h with hbuy | hsell
    · simp [storedLimitIssue_eq_none hbuy]
    · simp [storedLimitIssue_eq_none hsell]

/-- With a direction that has a name, the payments are those of the service. -/
theorem calculateStored_eq {deal : FXDeal} {valueDate : Date}
    (h : OperationDirection.named columns.operationDirection.val = some deal.operationDirection) :
    calculateStored columns deal valueDate =
      (calculatePayments deal valueDate).elim (.error .invalidOperation) .ok := by
  unfold calculateStored
  rw [h]
  cases hcounter : counterAmount deal with
  | none => simp [calculatePayments, hcounter]
  | some counter => rfl

/-- Without one, there are none. -/
theorem calculateStored_of_unnamed
    (h : OperationDirection.named columns.operationDirection.val = none) (deal : FXDeal)
    (valueDate : Date) :
    ∃ err, calculateStored columns deal valueDate = .error err ∧
      isVerdict (.error err) = false := by
  unfold calculateStored
  rw [h]
  cases counterAmount deal with
  | none => exact ⟨_, rfl, rfl⟩
  | some counter => exact ⟨_, rfl, rfl⟩

end Steps

section Ends

variable {env : Env} {user : UserClaims} {db : Database} {id : UUID} {r : DealRecord}
  {tables : LookupTables} {columns : DealColumns}

/-- The result is a verdict if and only if everything stays within range. -/
def Stored (tables : LookupTables) (columns : DealColumns) (nsi : ReferenceData) (id : UUID)
    (r : DealRecord) (email : String) (result : Except ServiceError DealResponse)
    (_ : ServiceProgress) : Prop :=
  isVerdict result = true ↔ StoredWithinRange tables columns nsi id r email

/-- Complaints are recorded, if the lookup table has the code. -/
theorem commitStoredInvalid_stored {issues : List ValidationIssue} (hfair : Fair env db)
    (hr : db.deals.lookup id = some r) (hlegible : Legible tables columns db.nsi id r)
    (hverdict : verdict db.nsi (FXDeal.ofRecord db.nsi id r) = .invalid issues) :
    (commitStoredInvalid tables (FXDeal.ofRecord db.nsi id r) user issues).EnsuresFrom env
      (Progress.start db) 0 (Stored tables columns db.nsi id r user.email) := by
  refine .require_bind (fun hunknown => ?_) fun hknown => ?_
  · refine iff_of_false Bool.false_ne_true fun hrange => hunknown ?_
    have hknown := (hlegible.storedWithinRange_iff.mp hrange).1
    rw [hverdict] at hknown
    exact hknown
  · refine (commitInvalid_yields hfair hr).mono fun result _ hyields => ?_
    rw [Stored, isVerdict_iff_of_yields hyields, hlegible.storedWithinRange_iff, hverdict]
    exact (and_iff_right hknown).symm

/-- A valid deal is saved, if the lookup tables have the codes. -/
theorem saveStored_stored {valueDate : Date} {assigned : List (CalculatedPayment × String)}
    {n : ℕ} (hfair : Fair env db) (hr : db.deals.lookup id = some r)
    (hlegible : Legible tables columns db.nsi id r)
    (hverdict : verdict db.nsi (FXDeal.ofRecord db.nsi id r) = .valid valueDate assigned)
    (hdirections : ∀ a ∈ assigned, a.1.paymentDirection.value ∈ tables.paymentDirections) :
    (Program.handle (saveStored tables (FXDeal.ofRecord db.nsi id r) valueDate
        (builtFrom env.uuid 0 assigned) user) fun err => do
      Program.rollback
      Program.raise (saveFailure err)).EnsuresFrom env (Progress.start db) n
        (Stored tables columns db.nsi id r user.email) := by
  have hiff : StoredWithinRange tables columns db.nsi id r user.email ↔
      ValidationStatus.valid.value ∈ tables.validationStatuses ∧
        (Verdict.valid valueDate assigned).Recordable user.email := by
    rw [hlegible.storedWithinRange_iff, hverdict]
    simp only [Verdict.Known]
    rw [← known_directions_iff hverdict]
    exact and_congr_left fun _ => and_iff_left hdirections
  by_cases hknown : ValidationStatus.valid.value ∈ tables.validationStatuses
  · have hsave : saveStored tables (FXDeal.ofRecord db.nsi id r) valueDate
        (builtFrom env.uuid 0 assigned) user =
        saveValidated (FXDeal.ofRecord db.nsi id r) valueDate (builtFrom env.uuid 0 assigned)
          user :=
      Program.require_bind_of hknown _
    rw [hsave]
    refine (saveValidated_yields hfair hr (verdict_eq_valid_iff.mp hverdict)).mono
      fun result _ hyields => ?_
    rw [Stored, isVerdict_iff_of_yields hyields, hiff]
    exact (and_iff_right hknown).symm
  · refine .handle (.require_bind (fun _ => ?_) fun h => absurd h hknown)
    refine .rollback_bind (.raise ?_)
    exact iff_of_false Bool.false_ne_true fun hrange => hknown (hiff.mp hrange).1

/-- The payment objects are built, if the lookup table has the codes of their directions. -/
theorem buildStoredPayments_from {β : Type} {Q : Except ServiceError β → ServiceProgress → Prop}
    {c : ServiceProgress} {n : ℕ} {assigned : List (CalculatedPayment × String)}
    {f : List Payment → Service β} (hrej : c.MayReject env Q)
    (hunknown : (∃ a ∈ assigned, a.1.paymentDirection.value ∉ tables.paymentDirections) →
      Q (.error .keyError) c)
    (h : (∀ a ∈ assigned, a.1.paymentDirection.value ∈ tables.paymentDirections) →
      (f (builtFrom env.uuid n assigned)).EnsuresFrom env c (n + assigned.length) Q) :
    (buildStoredPayments tables assigned >>= f).EnsuresFrom env c n Q := by
  induction assigned generalizing f n with
  | nil => exact .pure_bind (h fun _ ha => by cases ha)
  | cons a assigned ih =>
    refine .bind_assoc (lookupCode_from hrej (.bind_assoc (.require_bind (fun hmissing => ?_)
      fun hknown => .bind_assoc (freshId_from (.bind_assoc ?_)))))
    · exact hunknown ⟨a, List.mem_cons_self, hmissing⟩
    · refine ih (fun ⟨b, hb, hmissing⟩ => hunknown ⟨b, List.mem_cons_of_mem _ hb, hmissing⟩)
        fun hall => .pure_bind ?_
      rw [Nat.add_right_comm]
      exact h (List.forall_mem_cons.mpr ⟨hknown, hall⟩)

/-- **Once the payments are calculated**, a validation is stored if it stays within range. -/
theorem assignStored_stored {valueDate : Date} {calculated : List CalculatedPayment}
    (hfair : Fair env db) (hr : db.deals.lookup id = some r)
    (hlegible : Legible tables columns db.nsi id r)
    (hverdict : verdict db.nsi (FXDeal.ofRecord db.nsi id r) =
      accountsVerdict db.nsi (FXDeal.ofRecord db.nsi id r) valueDate)
    (hcalc : calculatePayments (FXDeal.ofRecord db.nsi id r) valueDate = some calculated) :
    (assignStored tables (FXDeal.ofRecord db.nsi id r) valueDate calculated user).EnsuresFrom env
      (Progress.start db) 0 (Stored tables columns db.nsi id r user.email) := by
  have hrej : (Progress.start db : ServiceProgress).MayReject env
      (Stored tables columns db.nsi id r user.email) := .of_calm hfair.calm
  refine .query_bind hrej ?_
  rw [Progress.start_work]
  dsimp only
  split
  next hnostro =>
    refine commitStoredInvalid_stored hfair hr hlegible ?_
    rw [hverdict]
    simp [accountsVerdict, hcalc, hnostro]
  next hnostro =>
    have hvalid : verdict db.nsi (FXDeal.ofRecord db.nsi id r) =
        .valid valueDate (assignNostro db.nsi.nostroByCurrency calculated).1 := by
      rw [hverdict]
      simp [accountsVerdict, hcalc, not_not.mp hnostro]
    refine buildStoredPayments_from hrej (fun hunknown => ?_) fun hknown => ?_
    · refine iff_of_false Bool.false_ne_true fun hrange => ?_
      obtain ⟨a, ha, hmissing⟩ := hunknown
      have hcodes := (hlegible.storedWithinRange_iff.mp hrange).1
      rw [hvalid] at hcodes
      exact hmissing ((known_directions_iff hvalid _).mpr hcodes.2 a ha)
    · exact saveStored_stored hfair hr hlegible hvalid hknown

/-- **From the value date on**, a validation of a deal that has passed its limits is stored if it
stays within range. -/
theorem bookStored_stored (hfair : Fair env db) (hr : db.deals.lookup id = some r)
    (hreads : columns.Reads r.row) (hamount : columns.amount ≠ .nan) (hrate : columns.rate ≠ .nan)
    (hmaxima : ∀ currency ∈ [r.row.buyCurrency.val, r.row.sellCurrency.val], tables.Comparable
      (db.nsi.activeLimits r.row.counterpartyId.val) r.row.counterpartyId.val currency)
    (hpassed : Passed db.nsi (FXDeal.ofRecord db.nsi id r)) :
    (bookStored tables columns (FXDeal.ofRecord db.nsi id r) user).EnsuresFrom env
      (Progress.start db) 0 (Stored tables columns db.nsi id r user.email) := by
  have hrej : (Progress.start db : ServiceProgress).MayReject env
      (Stored tables columns db.nsi id r user.email) := .of_calm hfair.calm
  have hverdict := verdict_of_checked hpassed.1
  rw [hpassed.2] at hverdict
  refine .ofOption_bind (fun hunnamed => ?_) fun dealType hnamed => ?_
  · exact iff_of_false Bool.false_ne_true fun h => h.dealType hpassed hunnamed
  obtain rfl : r.row.dealType = dealType := hreads.dealType dealType hnamed
  have hnamed : DealType.named columns.dealType.val ≠ none := by
    rw [hnamed]
    exact Option.some_ne_none _
  show (settle (FXDeal.ofRecord db.nsi id r) >>= _).EnsuresFrom _ _ _ _
  have hnsi : (Progress.start db : ServiceProgress).work.nsi = db.nsi := rfl
  refine settle_from hnsi hrej (fun text hrefused => ?_) (fun hoverflow => ?_)
    fun valueDate hsettled => ?_
  · rw [hrefused] at hverdict
    have hlegible : Legible tables columns db.nsi id r :=
      ⟨hamount, hrate, fun _ => hmaxima, fun _ => hnamed, fun _ ⟨valueDate, hsettled⟩ => by
        rw [hrefused] at hsettled
        cases hsettled⟩
    refine iff_of_true rfl (hlegible.storedWithinRange_iff.mpr ?_)
    rw [hverdict]
    exact ⟨trivial, trivial⟩
  · rw [hoverflow] at hverdict
    exact iff_of_false Bool.false_ne_true (not_storedWithinRange_of_failed hverdict)
  rw [hsettled] at hverdict
  cases hdirection : OperationDirection.named columns.operationDirection.val with
  | none =>
    have hnot : ¬ StoredWithinRange tables columns db.nsi id r user.email :=
      fun h => h.operationDirection hpassed ⟨valueDate, hsettled⟩ hdirection
    obtain ⟨err, herr, hverdict⟩ := calculateStored_of_unnamed hdirection
      (FXDeal.ofRecord db.nsi id r) valueDate
    rw [herr]
    exact .raise_bind (iff_of_false (by rw [hverdict]; exact Bool.false_ne_true) hnot)
  | some direction =>
  obtain rfl : r.row.operationDirection = direction :=
    hreads.operationDirection direction hdirection
  have hlegible : Legible tables columns db.nsi id r :=
    ⟨hamount, hrate, fun _ => hmaxima, fun _ => hnamed, fun _ _ => by
      rw [hdirection]
      exact Option.some_ne_none _⟩
  have hcalculated : calculateStored columns (FXDeal.ofRecord db.nsi id r) valueDate =
      (calculatePayments (FXDeal.ofRecord db.nsi id r) valueDate).elim (.error .invalidOperation)
        .ok := calculateStored_eq hdirection
  rw [hcalculated]
  refine .ofOption_bind (fun hcalc => ?_) fun calculated hcalc => ?_
  · have hfailed : verdict db.nsi (FXDeal.ofRecord db.nsi id r) = .failed .invalidOperation := by
      rw [hverdict]
      simp [accountsVerdict, hcalc]
    exact iff_of_false Bool.false_ne_true (not_storedWithinRange_of_failed hfailed)
  · exact assignStored_stored hfair hr hlegible hverdict hcalc

/-- **From the checks on**, a validation is stored if it stays within range. -/
theorem checkStored_stored (hfair : Fair env db) (hr : db.deals.lookup id = some r)
    (hreads : columns.Reads r.row) (hamount : columns.amount ≠ .nan)
    (hrate : columns.rate ≠ .nan) :
    (checkStored tables columns (FXDeal.ofRecord db.nsi id r)
      (db.nsi.counterparty? (FXDeal.ofRecord db.nsi id r).counterpartyId) db.nsi.currency?
      user).EnsuresFrom env (Progress.start db) 0
        (Stored tables columns db.nsi id r user.email) := by
  have hrej : (Progress.start db : ServiceProgress).MayReject env
      (Stored tables columns db.nsi id r user.email) := .of_calm hfair.calm
  unfold checkStored
  rw [validate_checked hreads]
  dsimp only
  split
  next hissues =>
    refine commitStoredInvalid_stored hfair hr ?_ (verdict_of_issues hissues)
    exact .of_not_passed hamount hrate (fun hchecked => absurd hchecked hissues)
      fun hpassed => hissues hpassed.1
  next hissues =>
  have hchecked : Checked db.nsi (FXDeal.ofRecord db.nsi id r) := not_not.mp hissues
  have hverdict := verdict_of_checked hchecked
  refine .query_bind hrej ?_
  rw [Progress.start_work]
  by_cases hmaxima : ∀ currency ∈ [r.row.buyCurrency.val, r.row.sellCurrency.val],
    tables.Comparable (db.nsi.activeLimits r.row.counterpartyId.val) r.row.counterpartyId.val
      currency
  case neg =>
    rw [checkStoredLimits_eq_none hmaxima]
    exact .raise_bind (iff_of_false Bool.false_ne_true fun h => hmaxima (h.maxima hchecked))
  rw [checkStoredLimits_eq hmaxima]
  refine .ofOption_bind (fun hlimits => ?_) fun issues hlimits => ?_
  · rw [hlimits] at hverdict
    exact iff_of_false Bool.false_ne_true (not_storedWithinRange_of_failed hverdict)
  split
  next hissues =>
    have hnot : ¬ Passed db.nsi (FXDeal.ofRecord db.nsi id r) := by
      intro hpassed
      rw [hpassed.2] at hlimits
      cases hlimits
      exact hissues rfl
    have hlegible : Legible tables columns db.nsi id r :=
      .of_not_passed hamount hrate (fun _ => hmaxima) hnot
    refine commitStoredInvalid_stored hfair hr hlegible ?_
    rw [hverdict, hlimits]
    cases issues with
    | nil => exact absurd rfl hissues
    | cons issue issues => rfl
  next hissues =>
    rw [not_not.mp hissues] at hlimits
    exact bookStored_stored hfair hr hreads hamount hrate hmaxima ⟨hchecked, hlimits⟩

/-- **A validation is stored** if it stays within range. -/
theorem validateStored_stored (hfair : Fair env db) (hr : db.deals.lookup id = some r)
    (huser : Entitled user r.row) (hreads : columns.Reads r.row) :
    (validateStored tables columns id user).EnsuresFrom env (Progress.start db) 0
      (Stored tables columns db.nsi id r user.email) := by
  have hrej : (Progress.start db : ServiceProgress).MayReject env
      (Stored tables columns db.nsi id r user.email) := .of_calm hfair.calm
  refine loadDeal_found_from hr hrej (.require_bind (fun hnot => absurd huser hnot) fun _ => ?_)
  refine .query_bind hrej (.query_bind hrej ?_)
  rw [Progress.start_work]
  cases hamount : columns.amount with
  | nan => exact .raise (iff_of_false Bool.false_ne_true fun h => h.amount hamount)
  | number amount =>
    cases hrate : columns.rate with
    | nan => exact .raise (iff_of_false Bool.false_ne_true fun h => h.rate hrate)
    | number rate =>
      obtain rfl : r.row.amount = amount := hreads.amount amount hamount
      obtain rfl : r.row.rate = rate := hreads.rate rate hrate
      exact checkStored_stored hfair hr hreads (by simp [hamount]) (by simp [hrate])

end Ends

/-- **A validation that stays within range is stored**, whatever the tables hold: in fair
circumstances a validation by an entitled user ends with success or with complaints, if and only if
what it reads can be read, and the deal and the reference data stay within every range that it
reaches. -/
theorem validation_stored_iff {env : Env} {user : UserClaims} {db : Database} {id : UUID}
    {r : DealRecord} {tables : LookupTables} {columns : DealColumns} (hfair : Fair env db)
    (hr : db.deals.lookup id = some r) (hrole : user.role ∈ (Operation.validate id).roles)
    (huser : Entitled user r.row) (hreads : columns.Reads r.row) :
    isVerdict (executeStored env user tables columns id db).result = true ↔
      StoredWithinRange tables columns db.nsi id r user.email := by
  have h : (serveStored tables columns id user).EnsuresFrom env (Progress.start db) 0
      (Stored tables columns db.nsi id r user.email) :=
    .require_bind (fun hnot => absurd hrole hnot) fun _ =>
      validateStored_stored hfair hr huser hreads
  exact h.run

namespace Desk

/-- Lookup tables with all codes, and limits that are numbers. -/
def lookupTables : LookupTables where
  validationStatuses := ["NOT_VALIDATED", "VALID", "INVALID"]
  paymentDirections := ["IN", "OUT"]
  nanLimits := []

/-- The columns of the created deal, with a direction that no code of the service is. -/
def heldColumns : DealColumns :=
  { DealColumns.ofRow created.row with operationDirection := ⟨"HOLD", by decide⟩ }

end Desk

/-- The direction `HOLD` names nothing, and says nothing about the row. -/
theorem Desk.reads_heldColumns : Desk.heldColumns.Reads Desk.created.row :=
  { DealColumns.reads_ofRow Desk.created.row with
    operationDirection := fun direction h => by
      have hnone : OperationDirection.named Desk.heldColumns.operationDirection.val = none := by
        decide
      rw [hnone] at h
      cases h }

/-- The created deal of the desk is validated, and everything stays within range. With a direction
that has no name, the validation ends with an exception. -/
theorem validation_stored_desk :
    isVerdict (executeStored (Desk.env 2) Desk.trader Desk.lookupTables
        (.ofRow Desk.created.row) Desk.dealId (Desk.after Desk.creation)).result = true ∧
      StoredWithinRange Desk.lookupTables (.ofRow Desk.created.row) (Desk.after Desk.creation).nsi
        Desk.dealId Desk.created Desk.trader.email ∧
      (executeStored (Desk.env 2) Desk.trader Desk.lookupTables Desk.heldColumns Desk.dealId
        (Desk.after Desk.creation)).result = .error .valueError ∧
      ¬ StoredWithinRange Desk.lookupTables Desk.heldColumns (Desk.after Desk.creation).nsi
        Desk.dealId Desk.created Desk.trader.email := by
  have hverdict : isVerdict (executeStored (Desk.env 2) Desk.trader Desk.lookupTables
      (.ofRow Desk.created.row) Desk.dealId (Desk.after Desk.creation)).result = true := by
    decide +kernel
  have hraised : (executeStored (Desk.env 2) Desk.trader Desk.lookupTables Desk.heldColumns
      Desk.dealId (Desk.after Desk.creation)).result = .error .valueError := by
    decide +kernel
  have hiff : ∀ columns : DealColumns, columns.Reads Desk.created.row →
      (isVerdict (executeStored (Desk.env 2) Desk.trader Desk.lookupTables columns Desk.dealId
          (Desk.after Desk.creation)).result = true ↔
        StoredWithinRange Desk.lookupTables columns (Desk.after Desk.creation).nsi Desk.dealId
          Desk.created Desk.trader.email) := fun columns hreads =>
    validation_stored_iff (Desk.fair (k := 2) (by decide +kernel)) (Option.some_get _).symm
      (by decide) (by decide +kernel) hreads
  refine ⟨hverdict, (hiff _ (DealColumns.reads_ofRow _)).mp hverdict, hraised, fun hrange => ?_⟩
  have hstored := (hiff _ Desk.reads_heldColumns).mpr hrange
  rw [hraised] at hstored
  cases hstored

namespace Desk

/-- The reference data with an account number of 31 characters, which its table admits. -/
def longNsi : ReferenceData :=
  { nsi with
    nostroAccounts :=
      [eurAccount,
        { usdAccount with accountNumber := ⟨"MT84MALT011000012345MTLCAST001S", by decide⟩ }]
    nostro_key := by decide }

end Desk

/-- The validation of a deal whose account number is too long for a payment ends with 500. -/
theorem account_too_long :
    ¬ ∀ (nsi : ReferenceData) (history : List ServiceTurn) (db : Database),
      Run step (Database.initial nsi) history db →
        ∀ id r, db.deals.lookup id = some r → ∀ env (user : UserClaims), Fair env db →
          user.role ∈ (Operation.validate id).roles → Entitled user r.row →
            isVerdict (execute env user (.validate id) db).result = true := by
  intro h
  have hrun := run_serveAll step (Database.initial Desk.longNsi) Desk.creation
  generalize hdb : serveAll step (Database.initial Desk.longNsi) Desk.creation = db at hrun
  have hfair : Fair (Desk.env 2) db := Desk.fair (by rw [← hdb]; decide +kernel)
  have hentitled : (db.deals.lookup Desk.dealId).any (fun r =>
      decide (Entitled Desk.trader r.row)) = true := by rw [← hdb]; decide +kernel
  obtain ⟨r, hr, huser⟩ := (Option.any_eq_true _ _).mp hentitled
  have hverdict := h _ _ _ hrun Desk.dealId r hr (Desk.env 2) Desk.trader hfair (by decide)
    (of_decide_eq_true huser)
  have hfailed : isVerdict (execute (Desk.env 2) Desk.trader (.validate Desk.dealId) db).result =
      false := by rw [← hdb]; decide +kernel
  rw [hfailed] at hverdict
  cases hverdict

/-! ## The columns that the service writes -/

section Complete

variable {tables : LookupTables} {nsi : ReferenceData} {id : UUID} {r : DealRecord}

theorem commitStoredInvalid_complete (h : tables.Complete) :
    commitStoredInvalid tables = commitInvalid := by
  funext deal user issues
  exact Program.require_bind_of (h.validationStatuses .invalid) _

theorem saveStored_complete (h : tables.Complete) : saveStored tables = saveValidated := by
  funext deal valueDate payments user
  exact Program.require_bind_of (h.validationStatuses .valid) _

theorem buildStoredPayments_complete (h : tables.Complete) :
    buildStoredPayments tables = buildPayments := by
  funext assigned
  induction assigned with
  | nil => rfl
  | cons a assigned ih =>
    unfold buildStoredPayments buildPayments
    rw [ih, Program.require_bind_of (h.paymentDirections a.1.paymentDirection)]

theorem checkStoredLimits_complete (h : tables.Complete) :
    checkStoredLimits tables = checkLimits := by
  funext limits deal
  refine checkStoredLimits_eq fun currency _ limit _ => ?_
  rw [h.nanLimits]
  exact List.not_mem_nil

/-- A deal that is loaded is that of the stored record. -/
theorem eq_ofRecord_of_loadDeal {env : Env} {s s' : Session Statement Database SendCall}
    {deal : FXDeal} (hr : s.work.deals.lookup id = some r)
    (h : loadDeal id env s = (.ok deal, s')) : deal = FXDeal.ofRecord s.work.nsi id r := by
  by_cases hrejects : rejects env s.calls = true
  · simp [loadDeal, getById, Program.handle, Program.query, Program.call, Bind.bind, hrejects,
      Store.rejected, Program.raise] at h
  · simp [loadDeal, getById, Program.handle, Program.query, Program.call, Bind.bind, hrejects, hr,
      Pure.pure] at h
    exact h.1.symm

/-- The direction of a row has a name. -/
theorem calculateStored_ofRow (valueDate : Date) :
    calculateStored (.ofRow r.row) (FXDeal.ofRecord nsi id r) valueDate =
      (calculatePayments (FXDeal.ofRecord nsi id r) valueDate).elim (.error .invalidOperation)
        .ok :=
  calculateStored_eq (directionNamed_value r.row.operationDirection)

/-- **For the columns of a row**, with complete lookup tables, the validation is the one of the
service. -/
theorem executeStored_ofRow {env : Env} {user : UserClaims} {db : Database}
    (hr : db.deals.lookup id = some r) (htables : tables.Complete) :
    executeStored env user tables (.ofRow r.row) id db = execute env user (.validate id) db := by
  suffices hserve : serveStored tables (.ofRow r.row) id user env (Session.start db) =
      serve (.validate id) user env (Session.start db) by
    simp only [executeStored, execute, Program.run, hserve]
  refine Program.bind_congr fun _ s hrole => ?_
  obtain rfl : Session.start db = s := by
    unfold Program.require at hrole
    split at hrole <;> cases hrole
    rfl
  refine Program.bind_congr fun deal s hload => ?_
  obtain rfl := eq_ofRecord_of_loadDeal hr hload
  refine Program.bind_congr fun _ s _ => Program.bind_congr fun counterparty s _ =>
    Program.bind_congr fun currencies s _ => ?_
  show checkStored tables (.ofRow r.row) (FXDeal.ofRecord _ id r) counterparty currencies user env
    s = _
  have hnamed : DealType.named (DealColumns.ofRow r.row).dealType.val = some r.row.dealType :=
    dealTypeNamed_value r.row.dealType
  unfold checkStored bookStored assignStored
  simp only [validate_checked (DealColumns.reads_ofRow r.row), limitIssues, Program.bind_assoc,
    commitStoredInvalid_complete htables, checkStoredLimits_complete htables,
    buildStoredPayments_complete htables, saveStored_complete htables, calculateStored_ofRow,
    hnamed, Option.elim_some, Program.ofExcept_ok_bind]
  rfl

end Complete

end FxDealManager
