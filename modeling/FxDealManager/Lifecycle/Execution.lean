import FxDealManager.Lifecycle.Duties

/-!
# What is executed

What an approval hands over to the position system is what the last successful validation of the
deal committed: since then the deal was submitted, and nothing has changed its terms. Outside
`DRAFT`, no operation changes the terms of a deal or its payments at all.

## Main definitions

* `Contract`, `DealRecord.contract`: the terms of a deal with its payments
* `FXDeal.Carries`: an object carries the contract of a record
* `Validates`, `Submits`: the turn validated or submitted the deal
* `ValidatedBefore`: the contract of a record was committed by the last validation of the deal

## Main results

* `Change.contract_eq`: outside `DRAFT`, no change is one of the contract
* `execution_step`: the histories of valid and of submitted deals
* `executed_as_validated`: what is handed over, in every run
-/

namespace FxDealManager

open DecimalArithmetic Transactional

/-- The terms of a deal with its payments. -/
structure Contract where
  tradeDate : Date
  valueDate : Option Date
  dealType : DealType
  operationDirection : OperationDirection
  buyCurrency : Varchar 3
  sellCurrency : Varchar 3
  amount : Numeric 18 2
  rate : Numeric 18 6
  counterpartyId : Varchar 20
  payments : List PaymentRow
deriving DecidableEq, Repr

/-- The contract that is stored for a deal. -/
@[simps]
def DealRecord.contract (r : DealRecord) : Contract where
  tradeDate := r.row.tradeDate
  valueDate := r.row.valueDate
  dealType := r.row.dealType
  operationDirection := r.row.operationDirection
  buyCurrency := r.row.buyCurrency
  sellCurrency := r.row.sellCurrency
  amount := r.row.amount
  rate := r.row.rate
  counterpartyId := r.row.counterpartyId
  payments := r.payments

/-- The object of a deal has the terms and the payments of a contract. -/
structure FXDeal.Carries (deal : FXDeal) (c : Contract) : Prop where
  tradeDate : deal.tradeDate = c.tradeDate
  valueDate : deal.valueDate = c.valueDate
  dealType : deal.dealType = c.dealType
  operationDirection : deal.operationDirection = c.operationDirection
  buyCurrency : deal.buyCurrency = c.buyCurrency.val
  sellCurrency : deal.sellCurrency = c.sellCurrency.val
  amount : deal.amount = c.amount.toDecimal
  rate : deal.rate = c.rate.toDecimal
  counterpartyId : deal.counterpartyId = c.counterpartyId.val
  payments : deal.payments = c.payments.map PaymentRow.toPayment

/-- An approval hands over the contract that it has read. -/
theorem handedOver_carries (nsi : ReferenceData) (id : UUID) (r : DealRecord) (user : UserClaims) :
    (handedOver nsi id r user).Carries r.contract :=
  ⟨rfl, rfl, rfl, rfl, rfl, rfl, rfl, rfl, rfl, rfl⟩

/-- The turn validated the deal with success. -/
def Validates (id : UUID) (t : ServiceTurn) : Prop := ∃ user, Succeeds (.validate id) user t

/-- The turn submitted the deal with success. -/
def Submits (id : UUID) (t : ServiceTurn) : Prop := ∃ user, Succeeds (.submit id) user t

/-- The operations that write the contract of an existing deal. -/
def Operation.writesContract : Operation → Bool
  | .update _ _ | .validate _ => true
  | _ => false

/-- A turn in which no such operation succeeded neither validated nor updated a deal. -/
theorem not_validates_or_updates {t : ServiceTurn}
    (h : ∀ op user, Succeeds op user t → op.writesContract = false) (id : UUID) :
    ¬ Validates id t ∧ ∀ user, ¬ Updates id user t := by
  constructor
  · rintro ⟨user, hsucceeds⟩
    cases h _ _ hsucceeds
  · rintro user ⟨payload, hsucceeds⟩
    cases h _ _ hsucceeds

/-! ## Changes of the contract -/

/-- A change of the decisions about a deal leaves its contract alone. -/
theorem contract_write {ch : DealChanges} {now : Timestamp} {r : DealRecord}
    {solution : Option PositionerSolutionRow} (h : ch = { ch with
      tradeDate := none, valueDate := none, amount := none, rate := none
      buyCurrency := none, sellCurrency := none, operationDirection := none
      counterpartyId := none, dealType := none }) :
    DealRecord.contract ⟨ch.write now r.row, r.payments, solution⟩ = r.contract := by
  rw [h]
  simp [DealRecord.contract]

/-- Outside `DRAFT`, no change is one of the contract. -/
theorem Change.contract_eq {env : Env} {user : UserClaims} {nsi : ReferenceData} {id : UUID}
    {r r' : DealRecord} {op : Operation} {result : Except ServiceError DealResponse}
    {added : List AuditLogEntry} (h : Change env user nsi id r r op result r' added)
    (hstate : r.row.dealState ≠ .draft) : r'.contract = r.contract := by
  cases h with
  | edited hdraft _ _ _ => exact absurd hdraft hstate
  | invalidated _ _ _ _ => exact contract_write rfl
  | validated _ hvalid _ _ _ =>
    exact absurd hvalid.issues (validate_ne_nil hstate)
  | moved _ _ _ => rfl
  | decided _ _ => rfl

/-- Outside `DRAFT`, no input changes the terms of a deal or its payments. -/
theorem step_contract {db : Database} {input : Input} {id : UUID} {r r' : DealRecord}
    (hr : db.deals.lookup id = some r) (hr' : (step db input).2.deals.lookup id = some r')
    (hstate : r.row.dealState ≠ .draft) : r'.contract = r.contract := by
  rcases step_change hr hr' with rfl | ⟨env, user, op, result, added, -, hchange⟩
  · rfl
  · exact hchange.contract_eq hstate

/-! ## The history of a contract -/

/-- Before the turns `later` of the history, the deal was validated and its contract committed, and
since then it was neither validated nor updated. -/
def ValidatedBefore (later history : List ServiceTurn) (id : UUID) (c : Contract) : Prop :=
  ∃ past t r, history = past ++ t :: later ∧ Validates id t ∧
    t.after.deals.lookup id = some r ∧ r.contract = c ∧
      ∀ t' ∈ later, ¬ Validates id t' ∧ ∀ user, ¬ Updates id user t'

theorem ValidatedBefore.append {later history : List ServiceTurn} {id : UUID} {c : Contract}
    {t : ServiceTurn} (h : ValidatedBefore later history id c)
    (ht : ¬ Validates id t ∧ ∀ user, ¬ Updates id user t) :
    ValidatedBefore (later ++ [t]) (history ++ [t]) id c := by
  obtain ⟨past, t₀, r, rfl, hvalidated, hr, hc, hlater⟩ := h
  refine ⟨past, t₀, r, by simp, hvalidated, hr, hc, List.forall_mem_append.mpr ⟨hlater, ?_⟩⟩
  rintro t' ht'
  obtain rfl := List.mem_singleton.mp ht'
  exact ht

/-- **The history of a deal**: the contract of a valid deal was committed by its last validation;
a submitted deal was submitted after that. -/
structure Execution (history : List ServiceTurn) (id : UUID) (r : DealRecord) : Prop where
  valid : r.row.validationStatus = .valid → ∃ later, ValidatedBefore later history id r.contract
  submitted : r.row.dealState.submitted = true →
    ∃ later, ValidatedBefore later history id r.contract ∧ ∃ t ∈ later, Submits id t

/-- A turn that neither validates nor updates the deal, and leaves its contract alone. -/
theorem Execution.keep {history : List ServiceTurn} {id : UUID} {r r' : DealRecord}
    {t : ServiceTurn} (h : Execution history id r)
    (ht : ¬ Validates id t ∧ ∀ user, ¬ Updates id user t) (hcontract : r'.contract = r.contract)
    (hvalid : r'.row.validationStatus = .valid → r.row.validationStatus = .valid)
    (hsubmitted : r'.row.dealState.submitted = true → r.row.dealState.submitted = true ∨
      r.row.validationStatus = .valid ∧ Submits id t) : Execution (history ++ [t]) id r' where
  valid hstatus := by
    obtain ⟨later, hlater⟩ := h.valid (hvalid hstatus)
    exact ⟨_, hcontract ▸ hlater.append ht⟩
  submitted hstate := by
    rcases hsubmitted hstate with hbefore | ⟨hstatus, hsubmits⟩
    · obtain ⟨later, hlater, t', ht', hsubmits⟩ := h.submitted hbefore
      exact ⟨_, hcontract ▸ hlater.append ht, t', by simp [ht'], hsubmits⟩
    · obtain ⟨later, hlater⟩ := h.valid hstatus
      exact ⟨_, hcontract ▸ hlater.append ht, t, by simp, hsubmits⟩

theorem execution_step {history : List ServiceTurn} {db : Database} {input : Input}
    (hP : ∀ id r, db.deals.lookup id = some r → Execution history id r) :
    ∀ id r, (step db input).2.deals.lookup id = some r →
      Execution (history ++ [turn step db input]) id r := by
  refine forall_deals_turn
    (P := fun id r _ => Execution (history ++ [turn step db input]) id r) ?_ ?_ ?_
  · intro env user payload id row _ _ _ _ hrow _
    have hstored := ofDeal_eq_ok hrow
    exact ⟨by simp [hstored.validationStatus, newDeal],
      by simp [hstored.dealState, newDeal, DealState.submitted]⟩
  · intro env user op id outcome after result r r' added hop hstep hresult hr' _ hr hchange
    have hpast := hP id r hr
    have hnot : ∀ op' user', Succeeds op' user' (turn step db input) →
        op' = op ∧ ∃ response, result = .ok response :=
      fun op' user' h => hresult ▸ h.of_step hop hstep
    cases hchange with
    | edited hstate _ hch _ =>
      exact ⟨by simp [hch.validationStatus],
        by simp [hch.dealState, hstate, DealState.submitted]⟩
    | invalidated _ _ _ _ =>
      refine hpast.keep (not_validates_or_updates ?_ id) (contract_write rfl) (by simp)
        (fun hsubmitted => .inl (by simpa using hsubmitted))
      intro op' user' h
      obtain ⟨-, response, hok⟩ := hnot op' user' h
      cases hok
    | validated _ hvalid _ _ _ =>
      have hvalidates : Validates id (turn step db input) :=
        ⟨user, env, outcome, _, hop, congrArg Prod.fst hstep, hresult⟩
      have hafter : (turn step db input).after = after := congrArg Prod.snd hstep
      have hdraft : r.row.dealState = .draft := (of_validate_eq_nil hvalid.issues).1
      refine ⟨fun _ => ⟨[], history, turn step db input, _, rfl, hvalidates, ?_, rfl, by simp⟩, ?_⟩
      · rw [hafter]
        exact hr'
      · simp [hdraft, DealState.submitted]
    | moved hmoves _ _ =>
      refine hpast.keep (not_validates_or_updates ?_ id) rfl (fun h => h) ?_
      · intro op' user' h
        rw [(hnot op' user' h).1]
        cases hmoves <;> rfl
      · cases hmoves with
        | submit _ hvalid =>
          exact fun _ => .inr ⟨hvalid, user, env, outcome, _, hop, congrArg Prod.fst hstep, hresult⟩
        | takeForEdit _ => simp [DealChanges.apply, DealState.submitted]
        | cancel _ => simp [DealChanges.apply, DealState.submitted]
    | decided hdecision _ =>
      refine hpast.keep (not_validates_or_updates ?_ id) rfl (fun h => h)
        (fun _ => .inl (by simp [hdecision.waiting, DealState.submitted]))
      intro op' user' h
      rw [(hnot op' user' h).1]
      cases hdecision with
      | declined hdeclines _ _ _ => cases hdeclines <;> rfl
      | unsent _ _ _ _ => rfl
      | sent _ _ _ _ _ => rfl
  · intro id r hr hquiet
    have ht : ¬ Validates id (turn step db input) ∧
        ∀ user, ¬ Updates id user (turn step db input) := by
      constructor
      · rintro ⟨user, h⟩
        exact hquiet _ user rfl h
      · rintro user ⟨payload, h⟩
        exact hquiet _ user rfl h
    exact (hP id r hr).keep ht rfl (fun h => h) .inl

/-- The history of every deal, in every run. -/
theorem execution_run {nsi : ReferenceData} {history : List ServiceTurn} {db : Database}
    (h : Run step (Database.initial nsi) history db) :
    ∀ id r, db.deals.lookup id = some r → Execution history id r := by
  refine Run.invariant (P := fun history db => ∀ id r, db.deals.lookup id = some r →
    Execution history id r) ?_ (fun history db input hP => execution_step hP) h
  intro id r hr
  simp at hr

/-- The contract of a deal that the position system is called for was committed by the last
validation of the deal, which was submitted and not updated since. -/
theorem carries_of_execution {env : Env} {user : UserClaims} {op : Operation} {db : Database}
    {history : List ServiceTurn}
    (hP : ∀ id r, db.deals.lookup id = some r → Execution history id r) :
    ∀ call ∈ (execute env user op db).sends, ∃ later c,
      ValidatedBefore later history call.deal.id c ∧ call.deal.Carries c ∧
        ∃ t ∈ later, Submits call.deal.id t := by
  intro call hcall
  obtain ⟨id, _, r, -, hr, happrovable, rfl⟩ := handedOver_of_sent hcall
  obtain ⟨later, hlater, hsubmits⟩ :=
    (hP id r hr).submitted (by simp [happrovable.state, DealState.submitted])
  rw [sendDeal_deal, handedOver_id]
  exact ⟨later, r.contract, hlater, handedOver_carries db.nsi id r user, hsubmits⟩

/-- **What is executed is what was validated**: after every run, whatever request is served next,
each deal that it hands over to the position system carries the contract that the last successful
validation of the deal committed; the deal was submitted after it, and not updated since. And no
input changes the contract of a deal outside `DRAFT`. -/
theorem executed_as_validated {nsi : ReferenceData} {history : List ServiceTurn} {db : Database}
    (h : Run step (Database.initial nsi) history db) :
    (∀ env user op, ∀ call ∈ (execute env user op db).sends, ∃ later c,
      ValidatedBefore later history call.deal.id c ∧ call.deal.Carries c ∧
        ∃ t ∈ later, Submits call.deal.id t) ∧
      ∀ input id r r', db.deals.lookup id = some r →
        (step db input).2.deals.lookup id = some r' → r.row.dealState ≠ .draft →
          r'.contract = r.contract :=
  ⟨fun _ _ _ => carries_of_execution (execution_run h),
    fun _ _ _ _ hr hr' hstate => step_contract hr hr' hstate⟩

/-- What the approval of the submitted deal of the desk hands over. -/
theorem executed_as_validated_desk :
    ∃ call ∈ (execute (Desk.env 4) Desk.positioner (.approve Desk.dealId)
        (Desk.after Desk.submission)).sends,
      ∃ later c, ValidatedBefore later
          (history step (Database.initial Desk.nsi) Desk.submission) call.deal.id c ∧
        call.deal.Carries c ∧ ∃ t ∈ later, Submits call.deal.id t := by
  have hsends : (execute (Desk.env 4) Desk.positioner (.approve Desk.dealId)
      (Desk.after Desk.submission)).sends ≠ [] := by
    decide +kernel
  obtain ⟨call, hcall⟩ := List.exists_mem_of_ne_nil _ hsends
  exact ⟨call, hcall, (executed_as_validated
    (run_serveAll step (Database.initial Desk.nsi) Desk.submission)).1 _ _ _ call hcall⟩

end FxDealManager
