import FxDealManager.Repositories.DealRepository

/-!
# What a flush writes

The statements of a flush, read backwards: which columns they set, which payments they insert and
remove, and what they do to the record of the deal.

## Main definitions

* `DealChanges.write`: the row after the update of a flush, which may have nothing to set
* `Decides`: the statements about a solution
* `PaymentRow.Stores`: a row stores a payment

## Main results

* `between_eq_ok`: the columns that differ are set to what was assigned, the others are not set
* `statements_eq_ok`: the parts of a flush
* `rewrite_updateStatements`, `rewrite_insertPayments`, ...: what the parts do to the record
* `replay_payments_fresh`: the payments inserted have ids of their own
-/

namespace FxDealManager

open DecimalArithmetic Transactional

/-! ## Computations that may fail -/

section Except

variable {ε α β : Type}

theorem bind_eq_ok {x : Except ε α} {f : α → Except ε β} {b : β} :
    x >>= f = .ok b ↔ ∃ a, x = .ok a ∧ f a = .ok b := by
  cases x <;> simp [bind, Except.bind]

theorem map_eq_ok {x : Except ε α} {f : α → β} {b : β} :
    x.map f = .ok b ↔ ∃ a, x = .ok a ∧ f a = b := by
  cases x <;> simp [Except.map]

/-- A traversal succeeds if it does so at every element. -/
theorem mapM_eq_ok {f : α → Except ε β} {as : List α} {bs : List β} :
    as.mapM f = .ok bs ↔ List.Forall₂ (fun a b => f a = .ok b) as bs := by
  induction as generalizing bs with
  | nil => cases bs <;> simp [pure, Except.pure]
  | cons a as ih =>
    rw [List.mapM_cons, bind_eq_ok]
    constructor
    · rintro ⟨b, hb, h⟩
      obtain ⟨bs', hbs', h⟩ := bind_eq_ok.mp h
      cases h
      exact .cons hb (ih.mp hbs')
    · rintro (_ | ⟨hb, hbs⟩)
      exact ⟨_, hb, bind_eq_ok.mpr ⟨_, ih.mpr hbs, rfl⟩⟩

theorem exists_mapM_iff {f : α → Except ε β} {as : List α} :
    (∃ bs, as.mapM f = .ok bs) ↔ ∀ a ∈ as, ∃ b, f a = .ok b := by
  simp only [mapM_eq_ok]
  induction as with
  | nil => simp
  | cons a as ih =>
    rw [List.forall_mem_cons, ← ih]
    constructor
    · rintro ⟨_, _ | ⟨hb, hbs⟩⟩
      exact ⟨⟨_, hb⟩, _, hbs⟩
    · rintro ⟨⟨b, hb⟩, bs, hbs⟩
      exact ⟨b :: bs, .cons hb hbs⟩

end Except

/-! ## Columns -/

section Columns

variable {α β : Type}

theorem storeColumn_eq_ok {store : α → Option β} {err : DbError} {value : α} {stored : β} :
    storeColumn store err value = .ok stored ↔ store value = some stored := by
  cases h : store value <;> simp [storeColumn, h]

theorem storeColumn_eq_error {store : α → Option β} {err err' : DbError} {value : α} :
    storeColumn store err value = .error err' ↔ store value = none ∧ err = err' := by
  cases h : store value <;> simp [storeColumn, h]

/-- A text that a column does not store is too long. -/
theorem too_long_of_storeColumn {n : ℕ} {s : String} {err err' : DbError}
    (h : storeColumn (Varchar.ofString : String → Option (Varchar n)) err s = .error err') :
    ¬ s.length ≤ n ∧ err = err' := by
  obtain ⟨hnone, rfl⟩ := storeColumn_eq_error.mp h
  refine ⟨fun hfits => ?_, rfl⟩
  have hsome := Varchar.ofString_isSome.mpr hfits
  rw [hnone] at hsome
  cases hsome

@[simp] theorem changedTo_self [DecidableEq α] (a : α) : changedTo a a = none := by
  simp [changedTo]

@[simp] theorem getD_changedTo [DecidableEq α] (old new : α) :
    (changedTo old new).getD old = new := by
  by_cases h : old = new <;> simp [changedTo, h]

theorem changedTo_of_ne [DecidableEq α] {old new : α} (h : old ≠ new) :
    changedTo old new = some new := by
  simp [changedTo, h]

/-- A column is set to the assigned value, if this is another one. -/
def Assigned (equal : Bool) (store : α → Option β) (value : α) (change : Option β) : Prop :=
  if equal then change = none else ∃ stored, store value = some stored ∧ change = some stored

theorem changedColumn_eq_ok {equal : Bool} {store : α → Option β} {err : DbError} {value : α}
    {change : Option β} (h : changedColumn equal store err value = .ok change) :
    Assigned equal store value change := by
  cases equal with
  | true => cases h; rfl
  | false =>
    obtain ⟨stored, hs, rfl⟩ := map_eq_ok.mp h
    exact ⟨stored, storeColumn_eq_ok.mp hs, rfl⟩

theorem Assigned.of_equal {equal : Bool} {store : α → Option β} {value : α} {change : Option β}
    (h : Assigned equal store value change) (he : equal = true) : change = none := by
  subst he
  exact h

end Columns

/-- The columns that differ are set to what was assigned, the others are not set. -/
structure DealChanges.Assigns (old new : FXDeal) (ch : DealChanges) : Prop where
  nulled : new.nulled = []
  amount : Assigned (old.amount.same new.amount) Numeric.ofDecimal new.amount ch.amount
  rate : Assigned (old.rate.same new.rate) Numeric.ofDecimal new.rate ch.rate
  buyCurrency :
    Assigned (old.buyCurrency = new.buyCurrency) Varchar.ofString new.buyCurrency ch.buyCurrency
  sellCurrency :
    Assigned (old.sellCurrency = new.sellCurrency) Varchar.ofString new.sellCurrency ch.sellCurrency
  counterpartyId : Assigned (old.counterpartyId = new.counterpartyId) Varchar.ofString
    new.counterpartyId ch.counterpartyId
  traderId : Assigned (old.traderId = new.traderId) Varchar.ofString new.traderId ch.traderId
  traderEmail :
    Assigned (old.traderEmail = new.traderEmail) Varchar.ofString new.traderEmail ch.traderEmail
  positionerId :
    Assigned (old.positionerId = new.positionerId) storeOptional new.positionerId ch.positionerId
  tradeDate : ch.tradeDate = changedTo old.tradeDate new.tradeDate
  valueDate : ch.valueDate = changedTo old.valueDate new.valueDate
  operationDirection :
    ch.operationDirection = changedTo old.operationDirection new.operationDirection
  dealType : ch.dealType = changedTo old.dealType new.dealType
  dealState : ch.dealState = changedTo old.dealState new.dealState
  validationStatus : ch.validationStatus = changedTo old.validationStatus new.validationStatus
  comment : ch.comment = changedTo old.comment new.comment

theorem between_eq_ok {old new : FXDeal} {ch : DealChanges}
    (h : DealChanges.between old new = .ok ch) : ch.Assigns old new := by
  simp only [DealChanges.between] at h
  cases hn : new.nulled with
  | cons column columns => rw [hn] at h; cases h
  | nil =>
    rw [hn] at h
    simp only [bind_eq_ok] at h
    obtain ⟨_, amount, _, rate, _, buy, _, sell, _, counterparty, _, trader, _, email, _,
      positioner, h⟩ := h
    cases h
    exact ⟨hn, changedColumn_eq_ok amount, changedColumn_eq_ok rate, changedColumn_eq_ok buy,
      changedColumn_eq_ok sell, changedColumn_eq_ok counterparty, changedColumn_eq_ok trader,
      changedColumn_eq_ok email, changedColumn_eq_ok positioner, rfl, rfl, rfl, rfl, rfl, rfl, rfl⟩

/-- The changes between an object and the same object with other decisions about it. -/
theorem between_decided {old : FXDeal} {ch : DealChanges} {valueDate : Option Date}
    {state : DealState} {status : ValidationStatus} {positioner : Option String}
    {solution : Option PositionerSolution}
    (h : DealChanges.between old
      { old with
        valueDate := valueDate, dealState := state, validationStatus := status
        positionerId := positioner, positionerSolution := solution } = .ok ch) :
    ∃ p, Assigned (old.positionerId = positioner) storeOptional positioner p ∧
      ch = { valueDate := changedTo old.valueDate valueDate
             dealState := changedTo old.dealState state
             validationStatus := changedTo old.validationStatus status
             positionerId := p } := by
  have ha := between_eq_ok h
  refine ⟨ch.positionerId, ha.positionerId, ?_⟩
  have hamount := ha.amount.of_equal (Decimal.same_self _)
  have hrate := ha.rate.of_equal (Decimal.same_self _)
  have hbuy := ha.buyCurrency.of_equal (decide_eq_true rfl)
  have hsell := ha.sellCurrency.of_equal (decide_eq_true rfl)
  have hcounterparty := ha.counterpartyId.of_equal (decide_eq_true rfl)
  have htrader := ha.traderId.of_equal (decide_eq_true rfl)
  have hemail := ha.traderEmail.of_equal (decide_eq_true rfl)
  have hdate := ha.tradeDate.trans (changedTo_self _)
  have hdirection := ha.operationDirection.trans (changedTo_self _)
  have htype := ha.dealType.trans (changedTo_self _)
  have hcomment := ha.comment.trans (changedTo_self _)
  cases ch with
  | mk =>
    simp only [DealChanges.mk.injEq]
    exact ⟨hdate, ha.valueDate, hamount, hrate, hbuy, hsell, hdirection, hcounterparty, htype,
      ha.dealState, ha.validationStatus, htrader, hemail, trivial, hcomment⟩

/-! ## Solutions -/

/-- The statements that record a decision at a given time, over the solution that is stored. -/
inductive Decides (id : UUID) (decision : ApprovalDecision) (comment : Option String)
    (positionerId : String) (now : Timestamp) :
    Option PositionerSolutionRow → List Statement → Prop
  | first {s : PositionerSolutionRow} (hdecision : s.decision = decision)
      (hcomment : s.comment = comment) (hpositioner : s.positionerId.val = positionerId)
      (hdecided : s.decidedAt = now) :
      Decides id decision comment positionerId now none [.insertSolution id s]
  | again {s : PositionerSolutionRow} {ch : SolutionChanges}
      (hdecision : (ch.apply s).decision = decision) (hcomment : (ch.apply s).comment = comment)
      (hpositioner : (ch.apply s).positionerId.val = positionerId) :
      Decides id decision comment positionerId now (some s)
        (if ch = {} then [] else [.updateSolution id ch])

theorem ofSolution_eq_ok {now : Timestamp} {solution : PositionerSolution}
    {s : PositionerSolutionRow} (h : PositionerSolutionRow.ofSolution now solution = .ok s) :
    s.decision = solution.decision ∧ s.comment = solution.comment ∧
      s.positionerId.val = solution.positionerId ∧ s.decidedAt = now := by
  obtain ⟨positioner, hp, h⟩ := bind_eq_ok.mp h
  cases h
  exact ⟨rfl, rfl, Varchar.val_of_ofString (storeColumn_eq_ok.mp hp), rfl⟩

/-- An assigned string is what the column holds afterwards. -/
theorem Assigned.val_getD {n : ℕ} {stored : Varchar n} {value : String}
    {change : Option (Varchar n)}
    (h : Assigned (stored.val = value) Varchar.ofString value change) :
    (change.getD stored).val = value := by
  by_cases heq : stored.val = value
  · rw [h.of_equal (decide_eq_true heq)]
    exact heq
  · simp only [Assigned, heq, decide_false, Bool.false_eq_true, if_false] at h
    obtain ⟨v, hv, rfl⟩ := h
    exact Varchar.val_of_ofString hv

theorem solutionBetween_eq_ok {s : PositionerSolutionRow} {new : PositionerSolution}
    {ch : SolutionChanges} (h : SolutionChanges.between s.toSolution new = .ok ch) :
    (ch.apply s).decision = new.decision ∧ (ch.apply s).comment = new.comment ∧
      (ch.apply s).positionerId.val = new.positionerId := by
  obtain ⟨positioner, hp, h⟩ := bind_eq_ok.mp h
  cases h
  refine ⟨?_, ?_, ?_⟩
  · exact getD_changedTo s.decision new.decision
  · exact getD_changedTo s.comment new.comment
  · exact (changedColumn_eq_ok hp : Assigned (s.positionerId.val = new.positionerId) _ _ _).val_getD

@[simp] theorem solutionBetween_self (s : PositionerSolution) :
    SolutionChanges.between s s = .ok {} := by
  simp [SolutionChanges.between, changedColumn, bind, Except.bind, pure, Except.pure]

/-! ## Payments -/

/-- The row stores the payment. -/
structure PaymentRow.Stores (p : Payment) (row : PaymentRow) : Prop where
  id : row.id = p.id
  amount : Numeric.ofDecimal p.amount = some row.amount
  currencyCode : row.currencyCode.val = p.currencyCode
  accountCode : row.accountCode.map Varchar.val = p.accountCode
  paymentDirection : row.paymentDirection = p.paymentDirection
  valueDate : row.valueDate = p.valueDate

theorem map_val_of_storeOptional {n : ℕ} {s : Option String} {v : Option (Varchar n)}
    (h : storeOptional s = some v) : v.map Varchar.val = s := by
  cases s with
  | none => cases h; rfl
  | some s =>
    obtain ⟨w, hw, rfl⟩ := Option.map_eq_some_iff.mp h
    simpa using Varchar.val_of_ofString hw

theorem ofPayment_eq_ok {p : Payment} {row : PaymentRow} (h : PaymentRow.ofPayment p = .ok row) :
    PaymentRow.Stores p row := by
  obtain ⟨amount, hamount, h⟩ := bind_eq_ok.mp h
  obtain ⟨currency, hcurrency, h⟩ := bind_eq_ok.mp h
  obtain ⟨account, haccount, h⟩ := bind_eq_ok.mp h
  cases h
  exact ⟨rfl, storeColumn_eq_ok.mp hamount,
    Varchar.val_of_ofString (storeColumn_eq_ok.mp hcurrency),
    map_val_of_storeOptional (storeColumn_eq_ok.mp haccount), rfl, rfl⟩

/-! ## New deals -/

/-- The row stores a new deal. -/
structure FXDealRow.Stores (now : Timestamp) (deal : FXDeal) (row : FXDealRow) : Prop where
  amount : Numeric.ofDecimal deal.amount = some row.amount
  rate : Numeric.ofDecimal deal.rate = some row.rate
  buyCurrency : row.buyCurrency.val = deal.buyCurrency
  sellCurrency : row.sellCurrency.val = deal.sellCurrency
  counterpartyId : row.counterpartyId.val = deal.counterpartyId
  traderId : row.traderId.val = deal.traderId
  traderEmail : row.traderEmail.val = deal.traderEmail
  positionerId : row.positionerId.map Varchar.val = deal.positionerId
  tradeDate : row.tradeDate = deal.tradeDate
  valueDate : row.valueDate = deal.valueDate
  operationDirection : row.operationDirection = deal.operationDirection
  dealType : row.dealType = deal.dealType
  dealState : row.dealState = deal.dealState
  validationStatus : row.validationStatus = deal.validationStatus
  comment : row.comment = deal.comment
  createdAt : row.createdAt = now
  updatedAt : row.updatedAt = now

theorem ofDeal_eq_ok {now : Timestamp} {deal : FXDeal} {row : FXDealRow}
    (h : FXDealRow.ofDeal now deal = .ok row) : FXDealRow.Stores now deal row := by
  simp only [FXDealRow.ofDeal, bind_eq_ok, storeColumn_eq_ok] at h
  obtain ⟨_, amount, _, rate, _, buy, _, sell, _, counterparty, _, trader, _, email, _,
    positioner, h⟩ := h
  cases h
  exact ⟨amount, rate, Varchar.val_of_ofString buy, Varchar.val_of_ofString sell,
    Varchar.val_of_ofString counterparty, Varchar.val_of_ofString trader,
    Varchar.val_of_ofString email, map_val_of_storeOptional positioner,
    rfl, rfl, rfl, rfl, rfl, rfl, rfl, rfl, rfl⟩

/-! ## The statements of a flush -/

/-- **The parts of a flush**: the columns set, the payments inserted, the solution, and the
payments removed. -/
theorem statements_eq_ok {p : Pending} {now : Timestamp} {log : List Statement}
    (h : p.statements now = .ok log) :
    ∃ ch rows solution, DealChanges.between p.loaded p.deal = .ok ch ∧
      List.Forall₂ PaymentRow.Stores p.added rows ∧ p.solutionStatements now = .ok solution ∧
      log = updateStatements p.deal.id ch now ++ rows.map (.insertPayment p.deal.id) ++ solution
        ++ deleteStatements p.deal.id p.removed := by
  obtain ⟨ch, hch, h⟩ := bind_eq_ok.mp h
  obtain ⟨rows, hrows, h⟩ := bind_eq_ok.mp h
  obtain ⟨solution, hsolution, h⟩ := bind_eq_ok.mp h
  cases h
  exact ⟨ch, rows, solution, hch, (mapM_eq_ok.mp hrows).imp fun _ _ h => ofPayment_eq_ok h,
    hsolution, rfl⟩

/-- A solution that was left alone is not written. -/
theorem solutionStatements_unchanged {p : Pending} {now : Timestamp} {solution : List Statement}
    (hnew : p.newSolution = none)
    (hsame : p.loaded.positionerSolution = p.deal.positionerSolution)
    (h : p.solutionStatements now = .ok solution) : solution = [] := by
  simp only [Pending.solutionStatements, hnew, hsame] at h
  cases hs : p.deal.positionerSolution with
  | none => rw [hs] at h; cases h; rfl
  | some s =>
    simp only [hs, solutionBetween_self, bind_eq_ok] at h
    obtain ⟨ch, hch, h⟩ := h
    cases hch
    cases h
    rfl

/-- The flush of an object that was left alone apart from the decisions about it. -/
theorem decided_eq_ok {old : FXDeal} {now : Timestamp} {log : List Statement}
    {valueDate : Option Date} {state : DealState} {status : ValidationStatus}
    {positioner : Option String} {solution : Option PositionerSolution} {added : List Payment}
    {removed : List UUID} {newSolution : Option PositionerSolution} {p : Pending}
    (hp : p = ⟨old,
      { old with
        valueDate := valueDate, dealState := state, validationStatus := status
        positionerId := positioner, positionerSolution := solution },
      added, removed, newSolution⟩)
    (h : p.statements now = .ok log) :
    ∃ pos rows sol, Assigned (old.positionerId = positioner) storeOptional positioner pos ∧
      List.Forall₂ PaymentRow.Stores added rows ∧ p.solutionStatements now = .ok sol ∧
      log = updateStatements old.id
          { valueDate := changedTo old.valueDate valueDate
            dealState := changedTo old.dealState state
            validationStatus := changedTo old.validationStatus status
            positionerId := pos } now
        ++ rows.map (.insertPayment old.id) ++ sol ++ deleteStatements old.id removed := by
  obtain ⟨ch, rows, sol, hch, hrows, hsol, rfl⟩ := statements_eq_ok h
  subst hp
  obtain ⟨pos, hpos, rfl⟩ := between_decided hch
  exact ⟨pos, rows, sol, hpos, hrows, hsol, rfl⟩

theorem updateStatements_of_state {id : UUID} {ch : DealChanges} {now : Timestamp}
    {state : DealState} (h : ch.dealState = some state) :
    updateStatements id ch now = [.updateDeal id ch now] := by
  have hne : ch ≠ {} := by rintro rfl; cases h
  simp [updateStatements, hne]

/-- The flush of an object that was left alone apart from its state and its status. -/
theorem marked_eq_ok {old : FXDeal} {now : Timestamp} {log : List Statement} {state : DealState}
    {status : ValidationStatus} {p : Pending}
    (hp : p = ⟨old, { old with dealState := state, validationStatus := status }, [], [], none⟩)
    (h : p.statements now = .ok log) :
    log = updateStatements old.id
      { dealState := changedTo old.dealState state
        validationStatus := changedTo old.validationStatus status } now := by
  subst hp
  obtain ⟨pos, rows, solution, hpos, hrows, hsolution, rfl⟩ := decided_eq_ok rfl h
  cases hrows
  have hpos : pos = none := hpos.of_equal (decide_eq_true rfl)
  have hsolution : solution = [] := solutionStatements_unchanged rfl rfl hsolution
  simp [hpos, hsolution, deleteStatements]

/-- A session that changed nothing since its last flush has nothing to write. -/
theorem statements_unchanged {deal : FXDeal} {now : Timestamp} {log : List Statement}
    (h : ({ loaded := deal, deal } : Pending).statements now = .ok log) : log = [] := by
  rw [marked_eq_ok rfl h]
  simp [updateStatements]

/-! ## What the statements do to the record -/

/-- The row after the update of a flush, which may have nothing to set. -/
def DealChanges.write (ch : DealChanges) (now : Timestamp) (row : FXDealRow) : FXDealRow :=
  if ch = {} then row else ch.apply now row

namespace DealChanges

variable (ch : DealChanges) (now : Timestamp) (row : FXDealRow)

/-- A column that an update without changes keeps is written as in an update with changes. -/
theorem write_column {α : Type} (get : FXDealRow → α)
    (h : get (({} : DealChanges).apply now row) = get row) :
    get (ch.write now row) = get (ch.apply now row) := by
  by_cases hch : ch = {}
  · simp [write, hch, h]
  · simp [write, hch]

@[simp] theorem write_tradeDate : (ch.write now row).tradeDate = ch.tradeDate.getD row.tradeDate :=
  write_column ch now row FXDealRow.tradeDate rfl

@[simp] theorem write_valueDate : (ch.write now row).valueDate = ch.valueDate.getD row.valueDate :=
  write_column ch now row FXDealRow.valueDate rfl

@[simp] theorem write_amount : (ch.write now row).amount = ch.amount.getD row.amount :=
  write_column ch now row FXDealRow.amount rfl

@[simp] theorem write_rate : (ch.write now row).rate = ch.rate.getD row.rate :=
  write_column ch now row FXDealRow.rate rfl

@[simp] theorem write_buyCurrency :
    (ch.write now row).buyCurrency = ch.buyCurrency.getD row.buyCurrency :=
  write_column ch now row FXDealRow.buyCurrency rfl

@[simp] theorem write_sellCurrency :
    (ch.write now row).sellCurrency = ch.sellCurrency.getD row.sellCurrency :=
  write_column ch now row FXDealRow.sellCurrency rfl

@[simp] theorem write_operationDirection :
    (ch.write now row).operationDirection = ch.operationDirection.getD row.operationDirection :=
  write_column ch now row FXDealRow.operationDirection rfl

@[simp] theorem write_counterpartyId :
    (ch.write now row).counterpartyId = ch.counterpartyId.getD row.counterpartyId :=
  write_column ch now row FXDealRow.counterpartyId rfl

@[simp] theorem write_dealType : (ch.write now row).dealType = ch.dealType.getD row.dealType :=
  write_column ch now row FXDealRow.dealType rfl

@[simp] theorem write_dealState : (ch.write now row).dealState = ch.dealState.getD row.dealState :=
  write_column ch now row FXDealRow.dealState rfl

@[simp] theorem write_validationStatus :
    (ch.write now row).validationStatus = ch.validationStatus.getD row.validationStatus :=
  write_column ch now row FXDealRow.validationStatus rfl

@[simp] theorem write_traderId : (ch.write now row).traderId = ch.traderId.getD row.traderId :=
  write_column ch now row FXDealRow.traderId rfl

@[simp] theorem write_traderEmail :
    (ch.write now row).traderEmail = ch.traderEmail.getD row.traderEmail :=
  write_column ch now row FXDealRow.traderEmail rfl

@[simp] theorem write_positionerId :
    (ch.write now row).positionerId = ch.positionerId.getD row.positionerId :=
  write_column ch now row FXDealRow.positionerId rfl

@[simp] theorem write_comment : (ch.write now row).comment = ch.comment.getD row.comment :=
  write_column ch now row FXDealRow.comment rfl

@[simp] theorem write_createdAt : (ch.write now row).createdAt = row.createdAt :=
  write_column ch now row FXDealRow.createdAt rfl

end DealChanges

section Rewrite

variable {id : UUID} (r : DealRecord)

@[simp] theorem rewrite_nil (r : Option DealRecord) : rewrite id [] r = r := rfl

@[simp] theorem rewrite_insertAudit (entry : AuditLogEntry) (r : Option DealRecord) :
    rewrite id [.insertAudit entry] r = r := rfl

@[simp] theorem rewrite_updateDeal (ch : DealChanges) (now : Timestamp) (log : List Statement) :
    rewrite id (.updateDeal id ch now :: log) (some r) =
      rewrite id log (some { r with row := ch.apply now r.row }) := by
  simp [rewrite, Statement.deal?, Statement.write]

@[simp] theorem rewrite_updateStatements (ch : DealChanges) (now : Timestamp) :
    rewrite id (updateStatements id ch now) (some r) =
      some { r with row := ch.write now r.row } := by
  by_cases h : ch = {}
  · simp [updateStatements, h, DealChanges.write]
  · simp [updateStatements, h, DealChanges.write]

@[simp] theorem rewrite_insertPayments (rows : List PaymentRow) :
    rewrite id (rows.map (.insertPayment id)) (some r) =
      some { r with payments := r.payments ++ rows } := by
  induction rows generalizing r with
  | nil => simp
  | cons p rows ih =>
    have h := ih { r with payments := r.payments ++ [p] }
    simpa [rewrite, Statement.deal?, Statement.write] using h

@[simp] theorem rewrite_deleteStatements (ids : List UUID) :
    rewrite id (deleteStatements id ids) (some r) =
      some { r with payments := r.payments.filter fun p => p.id ∉ ids } := by
  by_cases h : ids = []
  · simp [deleteStatements, h]
  · simp [deleteStatements, h, rewrite, Statement.deal?, Statement.write]

/-- A decision writes the solution only. -/
theorem rewrite_decides {decision : ApprovalDecision} {comment : Option String}
    {positionerId : String} {now : Timestamp} {old : Option PositionerSolutionRow}
    {log : List Statement} (h : Decides id decision comment positionerId now old log) :
    ∃ solution, rewrite id log (some r) = some { r with solution } := by
  cases h with
  | first _ _ _ _ => exact ⟨_, by simp [rewrite, Statement.deal?, Statement.write]; rfl⟩
  | @again s ch _ _ _ =>
    by_cases hch : ch = {}
    · exact ⟨r.solution, by simp [hch]⟩
    · exact ⟨r.solution.map ch.apply, by simp [hch, rewrite, Statement.deal?, Statement.write]⟩

end Rewrite

/-- Inserted payments have ids that no stored payment has. -/
theorem replay_payments_fresh {id : UUID} {rows : List PaymentRow} {db db' : Database}
    {r : DealRecord} (h : replay (rows.map (Statement.insertPayment id)) db = .ok db')
    (hr : db.deals.lookup id = some r) : ∀ row ∈ rows, ∀ p ∈ r.payments, p.id ≠ row.id := by
  induction rows generalizing db r with
  | nil => simp
  | cons row rows ih =>
    simp only [List.map_cons, replay] at h
    cases hst : Store.exec (Statement.insertPayment id row) db with
    | error err => rw [hst] at h; cases h
    | ok a =>
      rw [hst] at h
      have hexec := exec_eq_ok.mp hst
      have ha := (Statement.exec_frame hexec).1 id
      simp only [Statement.deal?, if_pos, Statement.write, hr, Option.map_some] at ha
      have hrows := ih h ha
      refine List.forall_mem_cons.mpr ⟨fun p hp heq => ?_, fun row' hrow' p hp =>
        hrows row' hrow' p (by simp [hp])⟩
      have hhas : db.hasPayment row.id = true := by
        refine List.any_eq_true.mpr ⟨⟨id, r⟩, AList.mem_lookup_iff.mp hr, ?_⟩
        exact List.any_eq_true.mpr ⟨p, hp, by simpa using heq⟩
      simp [Statement.exec, hr, hhas] at hexec

end FxDealManager
